import PipelineGnmi.GpbStreamProofs

/-! # The template view and the JSON view of a message

    `populateDataFromGPB` and `codecGPBJSONifyDataGPBKV` of `codec_gpb.go` walk
    the same rows.  The first stops at a field with nothing in it and leaves
    the rows it did not reach as they were made; the second passes over such a
    field, and over a container that `json.Marshal` refuses.
    `produceByteStream` does not look at the error of the first.

    `RowsAgree` and `ReportsFailure` say what the two views owe each other; they
    hold of a message exactly if neither difference comes into play
    (`template_view_iff`). -/

namespace PipelineGpbTemplate

open JsonText PipelineMessage PipelineSockDrawer PipelineGpbStream
open PipelineDataMsg hiding produceByteStream

/-! ## What the views owe each other -/

variable (f : FloatFormat) (kcfield : TelemetryField)

/-- A container of a row, as a drawer and as a JSON text. -/
def SameContainer : Option SockVal → Option (List Char) → Prop
  | none, none => True
  | some drawer, some text => ∃ v, marshalSock f drawer = .ok v ∧ text = render v
  | _, _ => False

/-- A row, for a template and in JSON. -/
def SameRow (rtf : Row SockVal) (rts : Row (List Char)) : Prop :=
  rtf.timestamp = rts.timestamp ∧ ∀ c, SameContainer f (rtf.get c) (rts.get c)

/-- **THE ROWS AGREE**: those exposed to a template are those serialised, in
    number and order. -/
def RowsAgree (t : Telemetry) : Prop :=
  ∃ msg err rows, populateDataFromGPB t = some (msg, err) ∧
    codecGPBJSONifyDataGPBKV f t.dataGpbkv = some rows ∧
    List.Forall₂ (SameRow f) msg.data rows

/-- **FAILURE IS REPORTED**: where `populateDataFromGPB` fails, the template
    stream is an error, whatever the template. -/
def ReportsFailure (env : StreamEnv) (m : DataMsgGPB) : Prop :=
  ∀ msg err, populateDataFromGPB m.cachedDecode = some (msg, some err) →
    ∀ execute context, ∃ e,
      produceByteStream { env with execute := execute } ⟨.template, context⟩ m =
        .error (.error e)

/-! ## What they depend on -/

/-- The field has something in it, and if it is a container it can be
    flattened. -/
def Solid (kcfield : TelemetryField) : Prop :=
  kcfield.fields ≠ [] ∧ (container? kcfield.name ≠ none → sockDrawer kcfield.fields ≠ none)

/-- The last of the fields that are this container. -/
def lastContainer (c : Container) : List TelemetryField → Option TelemetryField
  | [] => none
  | kcfield :: rest =>
      match lastContainer c rest with
      | some later => some later
      | none => if container? kcfield.name = some c then some kcfield else none

/-- The container can be flattened and marshalled. -/
def Marshals (f : FloatFormat) (kcfield : TelemetryField) : Prop :=
  ∃ drawer v, sockDrawer kcfield.fields = some drawer ∧ marshalSock f drawer = .ok v

/-- A row whose containers are those that count. -/
def LastMarshal (topfield : TelemetryField) : Prop :=
  ∀ c kcfield, lastContainer c topfield.fields = some kcfield → Marshals f kcfield

/-- Self-describing, with nothing empty below a row, and with containers that
    can be flattened and, the last of each name, marshalled. -/
structure Regular (f : FloatFormat) (t : Telemetry) : Prop where
  kv : t.dataGpb = none
  solid : ∀ topfield ∈ t.dataGpbkv, ∀ kcfield ∈ topfield.fields, Solid kcfield
  marshals : ∀ topfield ∈ t.dataGpbkv, LastMarshal f topfield

/-! ## One row -/

/-- A container is in both rows after it exactly if it marshals; nothing else
    changes. -/
def Placed (rtf rtf' : Row SockVal) (rts rts' : Row (List Char)) : Prop :=
  ∀ c, if container? kcfield.name = some c then
      (SameContainer f (rtf'.get c) (rts'.get c) ↔ Marshals f kcfield)
    else rtf'.get c = rtf.get c ∧ rts'.get c = rts.get c

theorem placed_of_drawer {f : FloatFormat} {kcfield : TelemetryField} {c : Container}
    (hc : container? kcfield.name = some c) {rtf : Row SockVal} {drawer : SockVal}
    {rts rts' : Row (List Char)}
    (hself : SameContainer f (some drawer) (rts'.get c) ↔ Marshals f kcfield)
    (hother : ∀ d, d ≠ c → rts'.get d = rts.get d) :
    Placed f kcfield rtf (rtf.set c drawer) rts rts' := by
  intro d
  by_cases hd : d = c
  · rw [if_pos (by rw [hc, hd]), hd, Row.get_set_self]
    exact hself
  · rw [if_neg (by rw [hc]; exact fun h => hd (Option.some.inj h).symm)]
    exact ⟨Row.get_set_ne rtf drawer hd, hother d hd⟩

/-- **ONE FIELD**: a solid field moves both loops on. -/
theorem containers_step {kcfield : TelemetryField} (h : Solid kcfield) (rest : List TelemetryField)
    (rtf : Row SockVal) (rts : Row (List Char)) :
    ∃ rtf' rts', populateContainers (kcfield :: rest) rtf = populateContainers rest rtf' ∧
      jsonifyContainers f (kcfield :: rest) rts = jsonifyContainers f rest rts' ∧
      rtf'.timestamp = rtf.timestamp ∧ rts'.timestamp = rts.timestamp ∧
      Placed f kcfield rtf rtf' rts rts' := by
  have hempty : kcfield.fields.isEmpty = false := by
    simpa using h.1
  cases hc : container? kcfield.name with
  | none =>
      refine ⟨rtf, rts, ?_, ?_, rfl, rfl, ?_⟩
      · simp [populateContainers, hempty, hc]
      · simp [jsonifyContainers, hempty, hc]
      · intro c
        rw [if_neg (by simp [hc])]
        exact ⟨rfl, rfl⟩
  | some c =>
      obtain ⟨drawer, hd⟩ := Option.ne_none_iff_exists'.mp (h.2 (by simp [hc]))
      cases hm : marshalSock f drawer with
      | error err =>
          -- the template has the new container, JSON the one before it, if any
          refine ⟨rtf.set c drawer, rts, ?_, ?_, Row.timestamp_set .., rfl, ?_⟩
          · simp [populateContainers, hempty, hc, hd]
          · simp [jsonifyContainers, hempty, hc, hd, hm]
          · refine placed_of_drawer hc ?_ (fun _ _ => rfl)
            refine iff_of_false ?_ ?_
            · cases rts.get c with
              | none => exact id
              | some text =>
                  rintro ⟨v, hv, -⟩
                  rw [hm] at hv
                  cases hv
            · rintro ⟨drawer', v, hd', hv⟩
              rw [hd, Option.some.injEq] at hd'
              rw [← hd', hm] at hv
              cases hv
      | ok v =>
          refine ⟨rtf.set c drawer, rts.set c (render v), ?_, ?_, Row.timestamp_set ..,
            Row.timestamp_set .., ?_⟩
          · simp [populateContainers, hempty, hc, hd]
          · simp [jsonifyContainers, hempty, hc, hd, hm]
          · refine placed_of_drawer hc ?_ (fun _ hne => Row.get_set_ne rts _ hne)
            rw [Row.get_set_self]
            exact iff_of_true ⟨v, hm, rfl⟩ ⟨drawer, v, hd, hm⟩

/-- **ONE ROW**: over solid fields both loops return, and a container is the
    same in both rows exactly if the last field for it marshals. -/
theorem containers_agree (kcfields : List TelemetryField) (h : ∀ kcfield ∈ kcfields, Solid kcfield)
    (rtf : Row SockVal) (rts : Row (List Char)) :
    ∃ rtf' rts', populateContainers kcfields rtf = some (rtf', none) ∧
      jsonifyContainers f kcfields rts = some rts' ∧
      rtf'.timestamp = rtf.timestamp ∧ rts'.timestamp = rts.timestamp ∧
      ∀ c, SameContainer f (rtf'.get c) (rts'.get c) ↔
        match lastContainer c kcfields with
        | none => SameContainer f (rtf.get c) (rts.get c)
        | some kcfield => Marshals f kcfield := by
  induction kcfields generalizing rtf rts with
  | nil => exact ⟨rtf, rts, rfl, rfl, rfl, rfl, fun _ => Iff.rfl⟩
  | cons kcfield rest ih =>
      rw [List.forall_mem_cons] at h
      obtain ⟨rtf₁, rts₁, hpop, hjson, htf, hts, hplaced⟩ := containers_step f h.1 rest rtf rts
      obtain ⟨rtf', rts', hpop', hjson', htf', hts', hsame⟩ := ih h.2 rtf₁ rts₁
      refine ⟨rtf', rts', hpop.trans hpop', hjson.trans hjson', htf'.trans htf,
        hts'.trans hts, ?_⟩
      intro c
      rw [hsame c, lastContainer]
      cases lastContainer c rest with
      | some later => rfl
      | none =>
          have hc := hplaced c
          by_cases hname : container? kcfield.name = some c
          · rw [if_pos hname] at hc ⊢
            exact hc
          · rw [if_neg hname] at hc ⊢
            show SameContainer f (rtf₁.get c) (rts₁.get c) ↔ _
            rw [hc.1, hc.2]

/-- Conversely, the template's loop ends without an error over solid fields
    only. -/
theorem solid_of_populated {kcfields : List TelemetryField} {rtf rtf' : Row SockVal}
    (h : populateContainers kcfields rtf = some (rtf', none)) :
    ∀ kcfield ∈ kcfields, Solid kcfield := by
  induction kcfields generalizing rtf with
  | nil => exact fun _ hmem => absurd hmem List.not_mem_nil
  | cons kcfield rest ih =>
      simp only [populateContainers] at h
      split at h
      · cases h
      · next hempty =>
          have hne : kcfield.fields ≠ [] := by simpa using hempty
          split at h
          · next hc => exact List.forall_mem_cons.mpr ⟨⟨hne, fun h => absurd hc h⟩, ih h⟩
          · next c hc =>
              split at h
              · cases h
              · next drawer hd =>
                  exact List.forall_mem_cons.mpr ⟨⟨hne, fun _ => by simp [hd]⟩, ih h⟩

/-! ## All rows -/

/-- The rows from which both views start agree, so they agree in the end
    exactly if the containers that count marshal. -/
theorem sameRow_start_iff (topfield : TelemetryField)
    (h : ∀ kcfield ∈ topfield.fields, Solid kcfield) :
    ∃ rtf rts, populateContainers topfield.fields (.start topfield.timestamp) = some (rtf, none) ∧
      jsonifyContainers f topfield.fields (.start topfield.timestamp) = some rts ∧
      (SameRow f rtf rts ↔ LastMarshal f topfield) := by
  obtain ⟨rtf, rts, hpop, hjson, htf, hts, hsame⟩ :=
    containers_agree f topfield.fields h (.start topfield.timestamp) (.start topfield.timestamp)
  have hstart : ∀ c, SameContainer f ((Row.start topfield.timestamp).get c)
      ((Row.start topfield.timestamp).get c) := by
    intro c
    cases c <;> exact trivial
  refine ⟨rtf, rts, hpop, hjson, ?_⟩
  constructor
  · intro hrow c kcfield hlast
    have hc := (hsame c).mp (hrow.2 c)
    rw [hlast] at hc
    exact hc
  · intro hlast
    refine ⟨htf.trans hts.symm, ?_⟩
    intro c
    rw [hsame c]
    cases hc : lastContainer c topfield.fields with
    | none => exact hstart c
    | some kcfield => exact hlast c kcfield hc

/-- **ALL ROWS**: over solid fields both views return, and they agree exactly
    if the containers that count marshal. -/
theorem rows_agree_iff (topfields : List TelemetryField)
    (h : ∀ topfield ∈ topfields, ∀ kcfield ∈ topfield.fields, Solid kcfield) :
    ∃ data rows, populateRows topfields = some (data, none) ∧
      codecGPBJSONifyDataGPBKV f topfields = some rows ∧
      (List.Forall₂ (SameRow f) data rows ↔ ∀ topfield ∈ topfields, LastMarshal f topfield) := by
  induction topfields with
  | nil =>
      refine ⟨[], [], rfl, rfl, iff_of_true .nil ?_⟩
      exact fun _ hmem => absurd hmem List.not_mem_nil
  | cons topfield rest ih =>
      rw [List.forall_mem_cons] at h
      obtain ⟨rtf, rts, hpop, hjson, hrow⟩ := sameRow_start_iff f topfield h.1
      obtain ⟨data, rows, hdata, hrows, hall⟩ := ih h.2
      refine ⟨rtf :: data, rts :: rows, ?_, ?_, ?_⟩
      · rw [populateRows, hpop, hdata]
      · rw [codecGPBJSONifyDataGPBKV, hjson, hrows]
      · rw [List.forall₂_cons, hrow, hall, List.forall_mem_cons]

theorem solid_of_populateRows {topfields : List TelemetryField} {data : List (Row SockVal)}
    (h : populateRows topfields = some (data, none)) :
    ∀ topfield ∈ topfields, ∀ kcfield ∈ topfield.fields, Solid kcfield := by
  induction topfields generalizing data with
  | nil => exact fun _ hmem => absurd hmem List.not_mem_nil
  | cons topfield rest ih =>
      simp only [populateRows] at h
      split at h
      · cases h
      · cases h
      · next rtf hpop =>
          split at h
          · cases h
          · next rows err hrest =>
              cases h
              exact List.forall_mem_cons.mpr ⟨solid_of_populated hpop, ih hrest⟩

/-! ## The two views -/

/-- A template that outputs nothing. -/
def silent : String → MsgToFilter → Except GoError Octets := fun _ _ => .ok []

/-- Where failure is reported there is none: a template that outputs nothing
    does not fail by itself. -/
theorem ReportsFailure.populated {env : StreamEnv} {m : DataMsgGPB} (h : ReportsFailure env m)
    {msg : MsgToFilter} {err : Option GoError}
    (hpop : populateDataFromGPB m.cachedDecode = some (msg, err)) : err = none := by
  cases err with
  | none => rfl
  | some err =>
      obtain ⟨e, he⟩ := h msg err hpop silent (some "")
      simp only [produceByteStream, produceTemplate, hpop, silent] at he
      cases he

/-- **THE VIEWS AGREE** on a message, and a failure to fill the template's view
    is reported, exactly if the message is K/V, has no field below a row with
    nothing in it, and has containers that can be flattened and, the last of
    each name, marshalled. -/
theorem template_view_iff (env : StreamEnv) (m : DataMsgGPB) :
    ((m.cachedDecode.dataGpb = none → RowsAgree env.floats m.cachedDecode) ∧
      ReportsFailure env m) ↔ Regular env.floats m.cachedDecode := by
  constructor
  · rintro ⟨hagree, hreports⟩
    have hkv : m.cachedDecode.dataGpb = none := by
      cases hgpb : m.cachedDecode.dataGpb with
      | none => rfl
      | some rows =>
          have hpop : ∃ msg err, populateDataFromGPB m.cachedDecode = some (msg, some err) := by
            simp only [populateDataFromGPB, hgpb]
            exact ⟨_, _, rfl⟩
          obtain ⟨msg, err, hpop⟩ := hpop
          cases hreports.populated hpop
    obtain ⟨msg, err, rows, hpop, hrows, hsame⟩ := hagree hkv
    obtain rfl := hreports.populated hpop
    simp only [populateDataFromGPB, hkv] at hpop
    obtain ⟨⟨data, err⟩, hdata, hmsg⟩ := Option.map_eq_some_iff.mp hpop
    simp only [Prod.mk.injEq] at hmsg
    obtain ⟨rfl, rfl⟩ := hmsg
    have hsolid := solid_of_populateRows hdata
    obtain ⟨data', rows', hdata', hrows', hiff⟩ := rows_agree_iff env.floats _ hsolid
    rw [hdata, Option.some.injEq, Prod.mk.injEq] at hdata'
    rw [hrows, Option.some.injEq] at hrows'
    obtain ⟨rfl, -⟩ := hdata'
    subst hrows'
    exact ⟨hkv, hsolid, hiff.mp hsame⟩
  · intro hregular
    obtain ⟨data, rows, hdata, hrows, hiff⟩ :=
      rows_agree_iff env.floats m.cachedDecode.dataGpbkv hregular.solid
    have hpop : ∃ msg, populateDataFromGPB m.cachedDecode = some (msg, none) ∧
        msg.data = data := by
      simp only [populateDataFromGPB, hregular.kv, hdata]
      exact ⟨_, rfl, rfl⟩
    obtain ⟨msg, hpop, rfl⟩ := hpop
    refine ⟨fun _ => ⟨msg, none, rows, hpop, hrows, hiff.mpr hregular.marshals⟩, ?_⟩
    intro msg' err hfail
    rw [hpop] at hfail
    cases hfail

/-- Two rows, the first with nothing in its content. -/
def hollowRows : List TelemetryField :=
  let leaf : TelemetryField := .mk 0 "name" (some (.string "Gi0")) []
  [.mk 1 "" none [.mk 0 "keys" none [leaf], .mk 0 "content" none []],
    .mk 2 "" none [.mk 0 "keys" none [leaf], .mk 0 "content" none [leaf]]]

def hollowMsg : DataMsgGPB :=
  ⟨[], "r1", ⟨some "r1", none, "if:stats", 0, 0, 0, hollowRows, none, 0⟩⟩

/-- A template that outputs the timestamps of the rows. -/
def timestampsEnv : StreamEnv where
  floats := ⟨fun _ => .ofNat 0, fun _ => .ofNat 0⟩
  archive := fun _ => none
  view := fun _ => .error ""
  execute := fun _ msg => .ok (msg.data.map (fun row => row.timestamp.toUInt8))

/-- The template outputs the second row as it was made, with the timestamp
    zero, and no error. -/
theorem template_outputs_hollow_rows :
    (∃ msg err, populateDataFromGPB hollowMsg.cachedDecode = some (msg, some err)) ∧
      produceByteStream timestampsEnv ⟨.template, some ""⟩ hollowMsg = .ok (some [1, 0]) ∧
      ¬ RowsAgree timestampsEnv.floats hollowMsg.cachedDecode := by
  refine ⟨⟨_, _, rfl⟩, rfl, ?_⟩
  rintro ⟨msg, err, rows, hpop, hrows, hsame⟩
  have htimes : msg.data.map Row.timestamp = rows.map Row.timestamp :=
    List.forall₂_eq_eq_eq ▸ (List.forall₂_map_left_iff.mpr
      (List.forall₂_map_right_iff.mpr (hsame.imp (fun _ _ h => h.1))))
  rw [timestamps_jsonify hrows] at htimes
  cases hpop
  exact absurd htimes (by decide)

end PipelineGpbTemplate
