import PipelineGnmi.GpbStreamProofs

/-! # JSON events and the JSON batch

    `produceByteStream` of `codec_gpb.go` collects the rows of a message, from
    its K/V fields, its decoded table or its undecoded rows, and serialises
    them once as a batch with one header, once as an array of events that each
    carry the header.  The array is put together by hand: the loop writes
    brackets and commas around what a streaming encoder writes.

    Nothing is lost on the way: `json_events_match_batch` says that both
    streams have one row for each row on the wire, in order, under the same
    header. -/

namespace PipelineGpbJson

open JsonText PipelineMessage PipelineJsonpb PipelineGpbStream
open PipelineGpbMetrics (ReflectionSet GpbDecodeRow getGPBDecodedTbl)
open PipelineDataMsg hiding produceByteStream

/-! ## The header is JSON -/

variable {name : String} {rest : List Field} {t : Telemetry} {r : Row (List Char)} {env : StreamEnv}
  {rows rs : List (Row (List Char))} (f : FloatFormat) (source : MsgProducer)

theorem isName_of_scan (h : scanAll .plain name.toList = some .plain) : IsName name :=
  ⟨⟨name.toList, h⟩, rfl⟩

theorem rendersJson_render (v : Json) : RendersJson (.ok (String.ofList (render v))) := by
  refine ⟨_, rfl, v, ?_⟩
  rw [String.toList_ofList]
  exact isText_render v

theorem rendersJson_quoted (lit : StringLit) {text : String} (h : text.toList = lit.quoted) :
    RendersJson (.ok text) :=
  ⟨text, rfl, .str lit, h ▸ isText_str lit⟩

theorem valid_basicUInt64 (n : UInt64) : (basicUInt64 n).Valid := by
  refine ⟨.ofNat n.toNat, ?_⟩
  rw [Nat.toString_eq_repr, Nat.toList_repr]
  rfl

theorem rendersJson_text (x : NonFinite) : RendersJson (.ok x.text) := by
  cases x with
  | nan => exact rendersJson_quoted ⟨"NaN".toList, by decide⟩ (by decide)
  | posInf => exact rendersJson_quoted ⟨"Infinity".toList, by decide⟩ (by decide)
  | negInf => exact rendersJson_quoted ⟨"-Infinity".toList, by decide⟩ (by decide)

theorem valid_basicFloat (isZero : Bool) (lit : NumberLit) (special : Option NonFinite) :
    (basicFloat isZero lit special).Valid := by
  cases special with
  | none => exact rendersJson_render (.num lit)
  | some x => exact rendersJson_text x

/-- A field of a message whose name and value are valid. -/
theorem fieldsValid_plain {v : Reflected} (hname : scanAll .plain name.toList = some .plain)
    (hv : v.Valid) (hrest : FieldsValid rest) : FieldsValid (.plain name v :: rest) :=
  ⟨isName_of_scan hname, hv, hrest⟩

theorem fieldsValid_value (value : Option Scalar) (hrest : FieldsValid rest) :
    FieldsValid (reflectValue f value :: rest) := by
  rcases value with _ | v
  · exact hrest
  cases v with
  | bytes b => exact ⟨isName_of_scan (by decide), rendersJson_render _, hrest⟩
  | string s => exact ⟨isName_of_scan (by decide), rendersJson_render _, hrest⟩
  | bool b => exact ⟨isName_of_scan (by decide), rendersJson_render _, hrest⟩
  | uint32 n => exact ⟨isName_of_scan (by decide), rendersJson_render _, hrest⟩
  | uint64 n => exact ⟨isName_of_scan (by decide), valid_basicUInt64 n, hrest⟩
  | sint32 n => exact ⟨isName_of_scan (by decide), rendersJson_render _, hrest⟩
  | sint64 n =>
      exact ⟨isName_of_scan (by decide), ⟨.ofInt n.toInt, String.toList_ofList.symm⟩, hrest⟩
  | double bits => exact ⟨isName_of_scan (by decide), valid_basicFloat _ _ _, hrest⟩
  | float bits => exact ⟨isName_of_scan (by decide), valid_basicFloat _ _ _, hrest⟩

theorem valid_slice {vs : List Reflected} (h : ElemsValid vs) (empty : Bool) :
    (if empty then Reflected.nilSlice else .slice vs).Valid := by
  cases empty with
  | true => exact trivial
  | false => exact h

mutual

theorem valid_reflectField (f : FloatFormat) :
    ∀ field : TelemetryField, (reflectField f field).Valid
  | .mk timestamp name value fields => by
      rw [reflectField]
      refine fieldsValid_plain (by decide) (valid_basicUInt64 timestamp) ?_
      refine fieldsValid_plain (by decide) (rendersJson_render _) ?_
      refine fieldsValid_value f value ?_
      exact fieldsValid_plain (by decide) (valid_slice (valid_reflectFields f fields) _) trivial

theorem valid_reflectFields (f : FloatFormat) :
    ∀ fields : List TelemetryField, ElemsValid (reflectFields f fields)
  | [] => by
      rw [reflectFields]
      exact trivial
  | field :: rest => by
      rw [reflectFields]
      exact ⟨valid_reflectField f field, valid_reflectFields f rest⟩

end

theorem valid_basicBytes (b : Octets) : (basicBytes b).Valid := rendersJson_render _

theorem valid_reflectRow (row : TelemetryRowGPB) : (reflectRow row).Valid := by
  refine fieldsValid_plain (by decide) (valid_basicUInt64 row.timestamp) ?_
  refine fieldsValid_plain (by decide) (valid_basicBytes row.keys) ?_
  exact fieldsValid_plain (by decide) (valid_basicBytes row.content) trivial

theorem valid_reflectRows (rows : List TelemetryRowGPB) : ElemsValid (rows.map reflectRow) := by
  induction rows with
  | nil => exact trivial
  | cons row rest ih => exact ⟨valid_reflectRow row, ih⟩

theorem fieldsValid_oneofString (hname : scanAll .plain name.toList = some .plain)
    (s : Option String) (hrest : FieldsValid rest) : FieldsValid (oneofString name s :: rest) := by
  cases s with
  | none => exact hrest
  | some s => exact ⟨isName_of_scan hname, rendersJson_render _, hrest⟩

theorem valid_reflectTable (rows : Option (List TelemetryRowGPB)) : (reflectTable rows).Valid := by
  cases rows with
  | none => exact trivial
  | some rows =>
      exact fieldsValid_plain (by decide) (valid_slice (valid_reflectRows rows) _) trivial

/-- **THE HEADER IS JSON**: marshalling it does not fail, whatever the
    message. -/
theorem header_isJson (t : Telemetry) :
    ∃ s, marshalToString codecMarshaler (reflectTelemetry f t) = .ok s ∧ IsJson s := by
  refine marshalValue_isText codecMarshaler (.struct (reflectTelemetry f t)) ?_
  refine fieldsValid_oneofString (by decide) t.nodeIdStr ?_
  refine fieldsValid_oneofString (by decide) t.subscriptionIdStr ?_
  refine fieldsValid_plain (by decide) (rendersJson_render _) ?_
  refine fieldsValid_plain (by decide) (valid_basicUInt64 t.collectionId) ?_
  refine fieldsValid_plain (by decide) (valid_basicUInt64 t.collectionStartTime) ?_
  refine fieldsValid_plain (by decide) (valid_basicUInt64 t.msgTimestamp) ?_
  refine fieldsValid_plain (by decide) (valid_slice (valid_reflectFields f t.dataGpbkv) _) ?_
  refine fieldsValid_plain (by decide) (valid_reflectTable t.dataGpb) ?_
  exact fieldsValid_plain (by decide) (valid_basicUInt64 t.collectionEndTime) trivial

/-! ## The rows on the wire -/

/-- A row as it arrives. -/
inductive WireRow where
  | kv (topfield : TelemetryField)
  | compact (row : TelemetryRowGPB)

def WireRow.timestamp : WireRow → UInt64
  | .kv topfield => topfield.timestamp
  | .compact row => row.timestamp

/-- The rows of a message, compact or K/V. -/
def wireRows (t : Telemetry) : List WireRow :=
  match t.dataGpb with
  | some rows => rows.map .compact
  | none => t.dataGpbkv.map .kv

/-- What a row by itself is serialised as; none is a panic. -/
def WireRow.toSerialise (env : StreamEnv) (t : Telemetry) : WireRow → Option (Row (List Char))
  | .kv topfield => jsonifyContainers env.floats topfield.fields (.start topfield.timestamp)
  | .compact row =>
      match env.archive t.encodingPath with
      | none => some (hexRow row)
      | some mapping => some (decodedRow env ⟨row.timestamp,
          mapping.keys.map (fun decode => decode row.keys), mapping.content row.content⟩)

theorem WireRow.timestamp_toSerialise {w : WireRow} (h : w.toSerialise env t = some r) :
    r.timestamp = w.timestamp := by
  cases w with
  | kv topfield => exact timestamp_jsonifyContainers h
  | compact row =>
      simp only [WireRow.toSerialise] at h
      split at h
      · cases h
        rfl
      · cases h
        rfl

/-- The rows of a K/V message, each by itself. -/
theorem jsonify_rows {topfields : List TelemetryField}
    (h : List.Forall₂ (fun w r => WireRow.toSerialise env t w = some r)
      (topfields.map .kv) rows) :
    codecGPBJSONifyDataGPBKV env.floats topfields = some rows := by
  induction topfields generalizing rows with
  | nil =>
      cases h
      rfl
  | cons topfield rest ih =>
      cases h with
      | cons hrow hrest =>
          have hrow : jsonifyContainers env.floats topfield.fields (.start topfield.timestamp) =
              some _ := hrow
          rw [codecGPBJSONifyDataGPBKV, hrow, ih hrest]

/-- The rows of a compact message, each by itself. -/
theorem jsonify_compact_rows (env : StreamEnv) {table : List TelemetryRowGPB}
    (htable : t.dataGpb = some table)
    (h : List.Forall₂ (fun w r => WireRow.toSerialise env t w = some r)
      (table.map .compact) rows) : codecGPBJSONifyDataGPB env t = rows := by
  rw [List.forall₂_map_left_iff] at h
  cases harchive : env.archive t.encodingPath with
  | none =>
      simp only [codecGPBJSONifyDataGPB, getGPBDecodedTbl, htable, harchive]
      refine List.forall₂_eq_eq_eq ▸ List.forall₂_map_left_iff.mpr (h.imp ?_)
      intro row r hr
      simp only [WireRow.toSerialise, harchive, Option.some.injEq] at hr
      exact hr
  | some mapping =>
      simp only [codecGPBJSONifyDataGPB, getGPBDecodedTbl, htable, harchive, List.map_map]
      refine List.forall₂_eq_eq_eq ▸ List.forall₂_map_left_iff.mpr (h.imp ?_)
      intro row r hr
      simp only [WireRow.toSerialise, harchive, Option.some.injEq] at hr
      exact hr

/-- **ONE ROW PER ROW**: whichever of the three places rows come from, they are
    those on the wire. -/
theorem rowsToSerialise_eq
    (h : List.Forall₂ (fun w r => WireRow.toSerialise env t w = some r) (wireRows t) rows) :
    rowsToSerialise env t = .ok rows := by
  unfold rowsToSerialise
  unfold wireRows at h
  cases htable : t.dataGpb with
  | some table =>
      simp only [htable] at h ⊢
      rw [jsonify_compact_rows env htable h]
  | none =>
      simp only [htable] at h ⊢
      rw [jsonify_rows h]

/-! ## Rows that can be serialised -/

/-- The row can be serialised by itself. -/
def Serialises (env : StreamEnv) (t : Telemetry) (w : WireRow) : Prop :=
  ∃ r v, w.toSerialise env t = some r ∧ marshalRow r = .ok v

/-- The containers of the row were rendered. -/
def Rendered (r : Row (List Char)) : Prop :=
  ∀ c text, r.get c = some text → ∃ v, text = render v

theorem rendered_set (h : Rendered r) (c : Container) (v : Json) :
    Rendered (r.set c (render v)) := by
  intro d text hd
  by_cases hdc : d = c
  · rw [hdc, Row.get_set_self] at hd
    exact ⟨v, (Option.some.inj hd).symm⟩
  · rw [Row.get_set_ne r _ hdc] at hd
    exact h d text hd

theorem rawField_rendered {text : Option (List Char)}
    (h : ∀ t, text = some t → ∃ v, t = render v) : ∃ v, rawField text = .ok v := by
  cases text with
  | none => exact ⟨.null, rfl⟩
  | some t =>
      obtain ⟨v, rfl⟩ := h t rfl
      refine ⟨v.escapeHtml, ?_⟩
      show rawMessage (render v) = _
      rw [rawMessage, parse_render]

theorem marshalRow_rendered (h : Rendered r) : ∃ v, marshalRow r = .ok v := by
  obtain ⟨keys, hkeys⟩ := rawField_rendered (h .keys)
  obtain ⟨content, hcontent⟩ := rawField_rendered (h .content)
  refine ⟨rowJson r.timestamp keys content, ?_⟩
  have hkeys : rawField r.keys = .ok keys := hkeys
  have hcontent : rawField r.content = .ok content := hcontent
  rw [marshalRow, hkeys, hcontent]

/-- Every container that has something in it can be flattened. -/
def Flattens (kcfields : List TelemetryField) : Prop :=
  ∀ kcfield ∈ kcfields, kcfield.fields ≠ [] → container? kcfield.name ≠ none →
    sockDrawer kcfield.fields ≠ none

theorem flattens_cons {kcfield : TelemetryField} {rest : List TelemetryField}
    (h : kcfield.fields ≠ [] → container? kcfield.name ≠ none →
      sockDrawer kcfield.fields ≠ none) :
    Flattens (kcfield :: rest) ↔ Flattens rest := by
  unfold Flattens
  rw [List.forall_mem_cons]
  exact and_iff_right h

/-- The loop over the fields of a row panics exactly at a container that cannot
    be flattened, and renders the others. -/
theorem jsonifyContainers_cases (kcfields : List TelemetryField) {rts : Row (List Char)}
    (h : Rendered rts) :
    (∃ rts', jsonifyContainers f kcfields rts = some rts' ∧ Rendered rts' ∧ Flattens kcfields) ∨
      (jsonifyContainers f kcfields rts = none ∧ ¬ Flattens kcfields) := by
  induction kcfields generalizing rts with
  | nil => exact Or.inl ⟨rts, rfl, h, fun _ hmem => absurd hmem List.not_mem_nil⟩
  | cons kcfield rest ih =>
      simp only [jsonifyContainers]
      split
      · next hempty =>
          rw [flattens_cons (fun hne => absurd (List.isEmpty_iff.mp hempty) hne)]
          exact ih h
      · next hempty =>
          split
          · next hc =>
              rw [flattens_cons (fun _ hsome => absurd hc hsome)]
              exact ih h
          · next c hc =>
              split
              · next hd =>
                  refine Or.inr ⟨rfl, ?_⟩
                  intro hflat
                  exact hflat kcfield List.mem_cons_self (by simpa using hempty) (by simp [hc]) hd
              · next drawer hd =>
                  rw [flattens_cons (fun _ _ => by simp [hd])]
                  split
                  · exact ih h
                  · exact ih (rendered_set h c _)

/-- **K/V ROWS** can be serialised, unless a container cannot be flattened. -/
theorem serialises_kv_iff (env : StreamEnv) (t : Telemetry) (topfield : TelemetryField) :
    Serialises env t (.kv topfield) ↔ Flattens topfield.fields := by
  have hstart : Rendered (Row.start topfield.timestamp) := by
    intro c text hc
    cases c <;> cases hc
  rcases jsonifyContainers_cases env.floats topfield.fields hstart with
    ⟨r, hr, hrendered, hflat⟩ | ⟨hnone, hnot⟩
  · obtain ⟨v, hv⟩ := marshalRow_rendered hrendered
    exact iff_of_true ⟨r, v, hr, hv⟩ hflat
  · refine iff_of_false ?_ hnot
    rintro ⟨r, v, hr, -⟩
    have hr : jsonifyContainers env.floats topfield.fields (.start topfield.timestamp) =
        some r := hr
    rw [hnone] at hr
    cases hr

theorem rendered_hexdump {b : Octets} {text : List Char} (h : hexdump b = some text) :
    ∃ v, text = render v := by
  unfold hexdump at h
  split at h
  · cases h
  · exact ⟨_, (Option.some.inj h).symm⟩

/-- **UNDECODED ROWS** can always be serialised. -/
theorem serialises_undecoded (h : env.archive t.encodingPath = none) (row : TelemetryRowGPB) :
    Serialises env t (.compact row) := by
  have hrendered : Rendered (hexRow row) := by
    intro c text hc
    cases c with
    | keys => exact rendered_hexdump hc
    | content => exact rendered_hexdump hc
  obtain ⟨v, hv⟩ := marshalRow_rendered hrendered
  refine ⟨hexRow row, v, ?_, hv⟩
  simp only [WireRow.toSerialise, h]

/-! ## The streams -/

/-- **A ROW OF A STREAM**: the row on the wire by itself, with its
    timestamp. -/
def IsRow (env : StreamEnv) (t : Telemetry) (w : WireRow) (v : Json) : Prop :=
  (∃ r, w.toSerialise env t = some r ∧ marshalRow r = .ok v) ∧
    ∃ keys content, v = rowJson w.timestamp keys content

theorem marshalRow_rowJson {v : Json} (h : marshalRow r = .ok v) :
    ∃ keys content, v = rowJson r.timestamp keys content := by
  unfold marshalRow at h
  split at h
  · next keys content _ _ => exact ⟨keys, content, (Except.ok.inj h).symm⟩
  · cases h
  · cases h

/-- The rows of a message, one after the other. -/
theorem exists_rows {ws : List WireRow} (h : ∀ w ∈ ws, Serialises env t w) :
    ∃ rs vs, List.Forall₂ (fun w r => WireRow.toSerialise env t w = some r) ws rs ∧
      List.Forall₂ (fun r v => marshalRow r = .ok v) rs vs ∧ List.Forall₂ (IsRow env t) ws vs := by
  induction ws with
  | nil => exact ⟨[], [], .nil, .nil, .nil⟩
  | cons w ws ih =>
      rw [List.forall_mem_cons] at h
      obtain ⟨r, v, hr, hv⟩ := h.1
      obtain ⟨rs, vs, hrs, hvs, hall⟩ := ih h.2
      obtain ⟨keys, content, hrow⟩ := marshalRow_rowJson hv
      rw [WireRow.timestamp_toSerialise hr] at hrow
      exact ⟨r :: rs, v :: vs, .cons hr hrs, .cons hv hvs,
        .cons ⟨⟨r, hr, hv⟩, keys, content, hrow⟩ hall⟩

theorem marshalRows_eq {vs : List Json} (h : List.Forall₂ (fun r v => marshalRow r = .ok v) rs vs) :
    marshalRows rs = .ok vs := by
  induction h with
  | nil => rfl
  | cons hv _ ih => rw [marshalRows, hv, ih]

/-- The events of these rows, each as the encoder writes it. -/
def eventTexts (source : MsgProducer) (header : Json) (vs : List Json) : List (List Char) :=
  vs.map (fun v => render (eventJson source header v) ++ ['\n'])

/-- The loop writes the events with commas between them. -/
theorem encodeEvents_eq {telemetry : List Char} {header : Json}
    (hheader : rawMessage telemetry = .ok header) {vs : List Json}
    (h : List.Forall₂ (fun r v => marshalRow r = .ok v) rs vs) (first : Bool) :
    encodeEvents source telemetry rs first = .ok (items first (eventTexts source header vs)) := by
  induction h generalizing first with
  | nil => rfl
  | @cons r v rs vs hv _ ih =>
      have hevent : marshalEvent source telemetry r = .ok (eventJson source header v) := by
        rw [marshalEvent, hheader, hv]
      rw [encodeEvents, hevent]
      simp only [ih]
      rfl

theorem isText_events (header : Json) (vs : List Json) :
    IsText (.arr (vs.map (eventJson source header)))
      (bracket '[' ']' (eventTexts source header vs)) := by
  refine isText_arr ?_
  unfold eventTexts
  rw [List.forall₂_map_left_iff, List.forall₂_map_right_iff]
  exact List.forall₂_same.mpr (fun v _ => (isText_render _).space rfl)

/-- The stream is the octets of a text of this value. -/
def IsStream (stream : Except Failure (Option Octets)) (v : Json) : Prop :=
  ∃ text, stream = .ok (some (utf8 text)) ∧ parse text = some v

/-- What both streams are made from. -/
theorem produceRows_eq {m : DataMsgGPB} (hrows : rowsToSerialise env m.cachedDecode = .ok rs)
    {telemetry : String} (hheader : marshalToString codecMarshaler
      (reflectTelemetry env.floats (headerOf m.cachedDecode)) = .ok telemetry)
    (serialise : MsgProducer → List Char → List (Row (List Char)) →
      Except Failure (Option Octets)) :
    produceRows env m serialise = serialise m.source telemetry.toList rs := by
  unfold produceRows
  rw [hrows, hheader]
  rfl

/-- **JSON EVENTS ARE THE JSON BATCH**: for every message whose rows can be
    serialised one by one, the JSON stream is a batch with one row for each row
    on the wire, in order; the stream of events is nil exactly if there are no
    rows, and else an array with one event for each row of the batch, under the
    same source and header. -/
theorem json_events_match_batch (env : StreamEnv) (m : DataMsgGPB) (context : Option String)
    (h : ∀ w ∈ wireRows m.cachedDecode, Serialises env m.cachedDecode w) :
    ∃ header rows, List.Forall₂ (IsRow env m.cachedDecode) (wireRows m.cachedDecode) rows ∧
      IsStream (produceByteStream env ⟨.json, context⟩ m) (batchJson m.source header rows) ∧
      (produceByteStream env ⟨.jsonEvents, context⟩ m = .ok none ↔
        wireRows m.cachedDecode = []) ∧
      (wireRows m.cachedDecode ≠ [] →
        IsStream (produceByteStream env ⟨.jsonEvents, context⟩ m)
          (.arr (rows.map (eventJson m.source header)))) := by
  obtain ⟨rs, vs, hrs, hvs, hall⟩ := exists_rows h
  obtain ⟨telemetry, hheader, v, hv⟩ := header_isJson env.floats (headerOf m.cachedDecode)
  have hraw : rawMessage telemetry.toList = .ok v.escapeHtml := by
    rw [rawMessage, hv.parse]
  have hbatch : produceByteStream env ⟨.json, context⟩ m =
      .ok (some (utf8 (render (batchJson m.source v.escapeHtml vs)))) := by
    show produceRows env m serialiseBatch = _
    rw [produceRows_eq (rowsToSerialise_eq hrs) hheader]
    simp only [serialiseBatch, marshalBatch, hraw, marshalRows_eq hvs]
  have hevents : produceByteStream env ⟨.jsonEvents, context⟩ m =
      if rs.isEmpty then .ok none
      else .ok (some (utf8 (bracket '[' ']' (eventTexts m.source v.escapeHtml vs)))) := by
    show produceRows env m serialiseEvents = _
    rw [produceRows_eq (rowsToSerialise_eq hrs) hheader]
    simp only [serialiseEvents, encodeEvents_eq m.source hraw hvs]
    rfl
  have hempty : rs.isEmpty = true ↔ wireRows m.cachedDecode = [] := by
    rw [List.isEmpty_iff, ← List.length_eq_zero_iff, ← hrs.length_eq, List.length_eq_zero_iff]
  refine ⟨v.escapeHtml, vs, hall, ⟨_, hbatch, parse_render _⟩, ?_, ?_⟩
  · rw [hevents, ← hempty]
    by_cases hnil : rs.isEmpty = true
    · rw [if_pos hnil]
      exact iff_of_true rfl hnil
    · rw [if_neg hnil]
      exact iff_of_false (fun h => by cases h) hnil
  · intro hne
    rw [hevents, if_neg (fun hnil => hne (hempty.mp hnil))]
    exact ⟨_, rfl, (isText_events m.source v.escapeHtml vs).parse⟩

/-- Two undecoded rows, one without content. -/
def undecodedMsg : DataMsgGPB :=
  ⟨[], "r1", ⟨some "r1", none, "if:stats", 0, 0, 0, [], some [⟨1, [1], [2]⟩, ⟨2, [3], []⟩], 0⟩⟩

def emptyArchiveEnv : StreamEnv where
  floats := ⟨fun _ => .ofNat 0, fun _ => .ofNat 0⟩
  archive := fun _ => none
  view := fun _ => .error ""
  execute := fun _ _ => .ok []

theorem json_events_match_undecoded :
    ∃ header rows, rows.length = 2 ∧
      IsStream (produceByteStream emptyArchiveEnv ⟨.json, none⟩ undecodedMsg)
        (batchJson "r1" header rows) ∧
      IsStream (produceByteStream emptyArchiveEnv ⟨.jsonEvents, none⟩ undecodedMsg)
        (.arr (rows.map (eventJson "r1" header))) := by
  obtain ⟨header, rows, hall, hbatch, -, hevents⟩ :=
    json_events_match_batch emptyArchiveEnv undecodedMsg none (by
      intro w hw
      obtain ⟨row, -, rfl⟩ := List.mem_map.mp hw
      exact serialises_undecoded rfl row)
  exact ⟨header, rows, hall.length_eq.symm, hbatch, hevents (by simp [wireRows, undecodedMsg])⟩

end PipelineGpbJson
