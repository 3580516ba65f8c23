import PipelineGnmi.GpbMetricsProofs
import PipelineGnmi.JsonpbTextProofs
import PipelineGnmi.SockDrawerProofs

/-! # Byte streams of GPB messages

    `dataMsgGPB.produceByteStream` of `codec_gpb.go`: the original octets, the
    output of a template over the decoded rows, and the JSON batch and JSON
    events.  Rows come from three places: the fields of a K/V message, the
    decoded table of a compact one, and its undecoded rows in base64.

    `encoding/json` is modelled on the values of `JsonText`; how it writes a
    float is a parameter (`FloatFormat`), as are the proto archive, what
    reflection shows of a decoded message, and the execution of a template
    (`StreamEnv`). -/

namespace PipelineGpbStream

open JsonText PipelineMessage PipelineMetricsSpec PipelineSockDrawer PipelineJsonpb
open PipelineGpbMetrics (ReflectionSet GpbDecodeRow getGPBDecodedTbl)
open PipelineDataMsg hiding produceByteStream

/-! ## Scalars -/

/-- How finite floats are written. -/
structure FloatFormat where
  float64 : UInt64 → NumberLit
  float32 : UInt32 → NumberLit

/-- The floats that are no numbers. -/
inductive NonFinite where
  | nan
  | posInf
  | negInf
  deriving DecidableEq, Repr

/-- A float of this sign, exponent and mantissa, where the exponent is the
    greatest of its format. -/
def nonFinite (negative : Bool) (mantissa : Nat) : NonFinite :=
  if mantissa ≠ 0 then .nan else if negative then .negInf else .posInf

def nonFinite64 (bits : UInt64) : Option NonFinite :=
  if bits.toNat / 2 ^ 52 % 2 ^ 11 = 2 ^ 11 - 1 then
    some (nonFinite (decide (2 ^ 63 ≤ bits.toNat)) (bits.toNat % 2 ^ 52))
  else none

def nonFinite32 (bits : UInt32) : Option NonFinite :=
  if bits.toNat / 2 ^ 23 % 2 ^ 8 = 2 ^ 8 - 1 then
    some (nonFinite (decide (2 ^ 31 ≤ bits.toNat)) (bits.toNat % 2 ^ 23))
  else none

/-- `strconv.FormatFloat` of such a float. -/
def NonFinite.format : NonFinite → String
  | .nan => "NaN"
  | .posInf => "+Inf"
  | .negInf => "-Inf"

/-- `json.UnsupportedValueError`. -/
def unsupportedValue (x : NonFinite) : GoError := "json: unsupported value: " ++ x.format

/-- The alphabet of `base64.StdEncoding`. -/
def base64Char (n : Nat) : Char :=
  "ABCDEFGHIJKLMNOPQRSTUVWXYZabcdefghijklmnopqrstuvwxyz0123456789+/".toList.getD n '='

/-- `base64.StdEncoding.EncodeToString`. -/
def base64 : Octets → List Char
  | [] => []
  | [a] => [base64Char (a.toNat / 4), base64Char (a.toNat % 4 * 16), '=', '=']
  | [a, b] =>
      [base64Char (a.toNat / 4), base64Char (a.toNat % 4 * 16 + b.toNat / 16),
        base64Char (b.toNat % 16 * 4), '=']
  | a :: b :: c :: rest =>
      base64Char (a.toNat / 4) :: base64Char (a.toNat % 4 * 16 + b.toNat / 16) ::
        base64Char (b.toNat % 16 * 4 + c.toNat / 64) :: base64Char (c.toNat % 64) ::
        base64 rest

def jsonString (s : String) : Json := .str (.ofString s)

def jsonNat (n : Nat) : Json := .num (.ofNat n)

def jsonInt (n : Int) : Json := .num (.ofInt n)

variable {α : Type} (b : Octets) (f : FloatFormat) (source : MsgProducer) (telemetry : List Char)
  (t : Telemetry)

/-- `json.Marshal` of bytes, which are a string in base64. -/
def jsonBytes (b : Octets) : Json := jsonString (String.ofList (base64 b))

/-- `json.Marshal` of a scalar. -/
def marshalScalar : Scalar → Except GoError Json
  | .bytes b => .ok (jsonBytes b)
  | .string s => .ok (jsonString s)
  | .bool b => .ok (.bool b)
  | .uint32 n => .ok (jsonNat n.toNat)
  | .uint64 n => .ok (jsonNat n.toNat)
  | .sint32 n => .ok (jsonInt n.toInt)
  | .sint64 n => .ok (jsonInt n.toInt)
  | .double bits =>
      match nonFinite64 bits with
      | some x => .error (unsupportedValue x)
      | none => .ok (.num (f.float64 bits))
  | .float bits =>
      match nonFinite32 bits with
      | some x => .error (unsupportedValue x)
      | none => .ok (.num (f.float32 bits))

/-! ## Drawers -/

/-- A map is written in the order of its keys. -/
def jsonMap (entries : List (String × Json)) : Json :=
  .obj ((entries.insertionSort (fun a b => a.1 ≤ b.1)).map (fun e => (.ofString e.1, e.2)))

mutual

/-- `json.Marshal` of what a drawer holds. -/
def marshalSock (f : FloatFormat) : SockVal → Except GoError Json
  | .nil => .ok .null
  | .scalar v => marshalScalar f v
  | .drawer s =>
      match marshalEntries f s with
      | .error err => .error err
      | .ok entries => .ok (jsonMap entries)
  | .array vs =>
      match marshalSocks f vs with
      | .error err => .error err
      | .ok vs => .ok (.arr vs)

def marshalEntries (f : FloatFormat) : List (String × SockVal) →
    Except GoError (List (String × Json))
  | [] => .ok []
  | (key, v) :: rest =>
      match marshalSock f v, marshalEntries f rest with
      | .ok v, .ok rest => .ok ((key, v) :: rest)
      | .error err, _ => .error err
      | .ok _, .error err => .error err

def marshalSocks (f : FloatFormat) : List SockVal → Except GoError (List Json)
  | [] => .ok []
  | v :: rest =>
      match marshalSock f v, marshalSocks f rest with
      | .ok v, .ok rest => .ok (v :: rest)
      | .error err, _ => .error err
      | .ok _, .error err => .error err

end

/-- `telemetryKvToSockDrawer` as an interface value; none is its panic. -/
def sockDrawer (item : List TelemetryField) : Option SockVal :=
  (telemetryKvToSockDrawer item).map (fun s =>
    match s with
    | none => .nil
    | some s => .drawer s)

/-! ## Rows -/

/-- The two containers of a K/V row. -/
inductive Container where
  | keys
  | content
  deriving DecidableEq, Repr

/-- The container a field of a row stands for, by its name. -/
def container? (name : String) : Option Container :=
  if name = "keys" then some .keys
  else if name = "content" then some .content
  else none

/-- `rowToFilter` and `rowToSerialise`, whose containers are drawers and JSON
    texts. -/
structure Row (α : Type) where
  timestamp : UInt64
  keys : Option α
  content : Option α
  deriving DecidableEq, Repr

variable (rows : List (Row (List Char)))

def Row.get (r : Row α) : Container → Option α
  | .keys => r.keys
  | .content => r.content

def Row.set (r : Row α) (c : Container) (a : α) : Row α :=
  match c with
  | .keys => { r with keys := some a }
  | .content => { r with content := some a }

@[simp] theorem Row.get_set_self (r : Row α) (c : Container) (a : α) :
    (r.set c a).get c = some a := by
  cases c <;> rfl

theorem Row.get_set_ne (r : Row α) {c d : Container} (a : α) (h : d ≠ c) :
    (r.set c a).get d = r.get d := by
  cases c <;> cases d <;> first | rfl | exact absurd rfl h

@[simp] theorem Row.timestamp_set (r : Row α) (c : Container) (a : α) :
    (r.set c a).timestamp = r.timestamp := by
  cases c <;> rfl

/-- A row with nothing in it yet. -/
def Row.start (timestamp : UInt64) : Row α := ⟨timestamp, none, none⟩

/-- The fields of a row in `codecGPBJSONifyDataGPBKV`: an empty container is
    passed over, and so is one that does not marshal. -/
def jsonifyContainers (f : FloatFormat) :
    List TelemetryField → Row (List Char) → Option (Row (List Char))
  | [], rts => some rts
  | kcfield :: rest, rts =>
      if kcfield.fields.isEmpty then jsonifyContainers f rest rts
      else
        match container? kcfield.name with
        | none => jsonifyContainers f rest rts
        | some c =>
            match sockDrawer kcfield.fields with
            | none => none
            | some drawer =>
                match marshalSock f drawer with
                | .error _ => jsonifyContainers f rest rts
                | .ok v => jsonifyContainers f rest (rts.set c (render v))

/-- `codecGPBJSONifyDataGPBKV`; none is a panic. -/
def codecGPBJSONifyDataGPBKV (f : FloatFormat) :
    List TelemetryField → Option (List (Row (List Char)))
  | [] => some []
  | topfield :: rest =>
      match jsonifyContainers f topfield.fields (.start topfield.timestamp),
          codecGPBJSONifyDataGPBKV f rest with
      | some rts, some rows => some (rts :: rows)
      | _, _ => none

theorem timestamp_jsonifyContainers {f : FloatFormat} {kcfields : List TelemetryField}
    {rts rts' : Row (List Char)} (h : jsonifyContainers f kcfields rts = some rts') :
    rts'.timestamp = rts.timestamp := by
  induction kcfields generalizing rts with
  | nil =>
      cases h
      rfl
  | cons kcfield rest ih =>
      simp only [jsonifyContainers] at h
      split at h
      · exact ih h
      · split at h
        · exact ih h
        · split at h
          · cases h
          · split at h
            · exact ih h
            · exact (ih h).trans (Row.timestamp_set ..)

/-- There is one row for every field, with its timestamp. -/
theorem timestamps_jsonify {f : FloatFormat} {topfields : List TelemetryField}
    {rows : List (Row (List Char))} (h : codecGPBJSONifyDataGPBKV f topfields = some rows) :
    rows.map Row.timestamp = topfields.map TelemetryField.timestamp := by
  induction topfields generalizing rows with
  | nil =>
      cases h
      rfl
  | cons topfield rest ih =>
      simp only [codecGPBJSONifyDataGPBKV] at h
      split at h
      · next rts rows' hrts hrows =>
          cases h
          rw [List.map_cons, List.map_cons, ih hrows, timestamp_jsonifyContainers hrts]
          rfl
      · cases h

/-- The fields of a row in `populateDataFromGPB`, with the error that ends the
    loops: an empty field is one. -/
def populateContainers :
    List TelemetryField → Row SockVal → Option (Row SockVal × Option GoError)
  | [], rtf => some (rtf, none)
  | kcfield :: rest, rtf =>
      if kcfield.fields.isEmpty then some (rtf, some "message with no row, nothing to filter")
      else
        match container? kcfield.name with
        | none => populateContainers rest rtf
        | some c =>
            match sockDrawer kcfield.fields with
            | none => none
            | some drawer => populateContainers rest (rtf.set c drawer)

/-- The rows of `populateDataFromGPB`.  There is one for every field from the
    start; after an error the rows not reached are zero. -/
def populateRows : List TelemetryField → Option (List (Row SockVal) × Option GoError)
  | [] => some ([], none)
  | topfield :: rest =>
      match populateContainers topfield.fields (.start topfield.timestamp) with
      | none => none
      | some (rtf, some err) => some (rtf :: rest.map (fun _ => .start 0), some err)
      | some (rtf, none) =>
          match populateRows rest with
          | none => none
          | some (rows, err) => some (rtf :: rows, err)

/-- `msgToFilter`. -/
structure MsgToFilter where
  nodeId : String
  encodingPath : String
  subscription : String
  collectionId : UInt64
  collectionStartTime : UInt64
  collectionEndTime : UInt64
  msgTimestamp : UInt64
  data : List (Row SockVal)

/-- `populateDataFromGPB`: the message as far as it was filled, and the error;
    none is a panic. -/
def populateDataFromGPB (s : Telemetry) : Option (MsgToFilter × Option GoError) :=
  let filled (data : List (Row SockVal)) : MsgToFilter :=
    ⟨s.nodeIdStr.getD "", s.encodingPath, s.subscriptionIdStr.getD "", s.collectionId,
      s.collectionStartTime, s.collectionEndTime, s.msgTimestamp, data⟩
  match s.dataGpb with
  | some _ => some (filled [], some "No support for native gpb msgToFilter")
  | none => (populateRows s.dataGpbkv).map (fun r => (filled r.1, r.2))

/-- What the streams depend on besides the message. -/
structure StreamEnv where
  floats : FloatFormat
  archive : String → Option ReflectionSet
  /-- What reflection shows the marshaller of a decoded message, after the
      check for required fields. -/
  view : RefVal → Except GoError (List Field)
  /-- `Execute` of the parsed template of this text. -/
  execute : String → MsgToFilter → Except GoError Octets

/-- The marshaller of the codec. -/
def codecMarshaler : Marshaler := ⟨true, true⟩

/-- The text of undecoded octets, if there are any. -/
def hexdump (b : Octets) : Option (List Char) :=
  if b.isEmpty then none
  else some (render (jsonMap [("hexdump", jsonBytes b)]))

/-- A row without a decoded message. -/
def hexRow (row : TelemetryRowGPB) : Row (List Char) :=
  ⟨row.timestamp, hexdump row.keys, hexdump row.content⟩

variable (env : StreamEnv)

/-- `MarshalToString` of a decoded message; the text is left out on any error,
    and the walk does not panic (`marshalValue_noPanic`). -/
def marshalMessage (msg : RefVal) : Option (List Char) :=
  match env.view msg with
  | .error _ => none
  | .ok fields =>
      match marshalToString codecMarshaler fields with
      | .error _ => none
      | .ok s => some s.toList

/-- A row of the decoded table; marshalling the nil message is an error. -/
def decodedRow (row : GpbDecodeRow) : Row (List Char) :=
  ⟨row.timestamp, row.keys.bind (marshalMessage env), marshalMessage env row.content⟩

/-- `codecGPBJSONifyDataGPB`. -/
def codecGPBJSONifyDataGPB (t : Telemetry) : List (Row (List Char)) :=
  match getGPBDecodedTbl env.archive t with
  | none =>
      match t.dataGpb with
      | none => []
      | some rows => rows.map hexRow
  | some rows => rows.map (decodedRow env)

/-! ## The header -/

def basicString (s : String) : Reflected :=
  .basic (s == "") (.ok (String.ofList (render (jsonString s))))

def basicUInt64 (n : UInt64) : Reflected := .int64 (n == 0) (toString n.toNat)

/-- The texts `marshalValue` has of its own for what is no number. -/
def NonFinite.text : NonFinite → String
  | .nan => "\"NaN\""
  | .posInf => "\"Infinity\""
  | .negInf => "\"-Infinity\""

def basicFloat (isZero : Bool) (lit : NumberLit) : Option NonFinite → Reflected
  | none => .basic isZero (.ok (String.ofList (render (.num lit))))
  | some x => .basic isZero (.ok x.text)

/-- The value of a K/V field under its name in the message type. -/
def reflectScalar : Scalar → Field
  | .bytes b => .oneof "bytes_value"
      (.basic b.isEmpty (.ok (String.ofList (render (jsonBytes b)))))
  | .string s => .oneof "string_value" (basicString s)
  | .bool b => .oneof "bool_value" (.basic (!b) (.ok (String.ofList (render (.bool b)))))
  | .uint32 n => .oneof "uint32_value"
      (.basic (n == 0) (.ok (String.ofList (render (jsonNat n.toNat)))))
  | .uint64 n => .oneof "uint64_value" (basicUInt64 n)
  | .sint32 n => .oneof "sint32_value"
      (.basic (n == 0) (.ok (String.ofList (render (jsonInt n.toInt)))))
  | .sint64 n => .oneof "sint64_value"
      (.int64 (n == 0) (String.ofList (NumberLit.ofInt n.toInt).lexeme))
  | .double bits => .oneof "double_value"
      (basicFloat (bits == 0) (f.float64 bits) (nonFinite64 bits))
  | .float bits => .oneof "float_value"
      (basicFloat (bits == 0) (f.float32 bits) (nonFinite32 bits))

def reflectValue : Option Scalar → Field
  | none => .nilOneof
  | some v => reflectScalar f v

mutual

/-- What reflection shows of a `telem.TelemetryField`. -/
def reflectField (f : FloatFormat) : TelemetryField → Reflected
  | .mk timestamp name value fields =>
      .ptr (.struct [.plain "timestamp" (basicUInt64 timestamp), .plain "name" (basicString name),
        reflectValue f value,
        .plain "fields" (if fields.isEmpty then .nilSlice else .slice (reflectFields f fields))])

def reflectFields (f : FloatFormat) : List TelemetryField → List Reflected
  | [] => []
  | field :: rest => reflectField f field :: reflectFields f rest

end

/-- Bytes that are nil when there are none. -/
def basicBytes (b : Octets) : Reflected :=
  .basic b.isEmpty (.ok (String.ofList (render (if b.isEmpty then .null else jsonBytes b))))

/-- What reflection shows of a `telem.TelemetryRowGPB`. -/
def reflectRow (row : TelemetryRowGPB) : Reflected :=
  .ptr (.struct [.plain "timestamp" (basicUInt64 row.timestamp),
    .plain "keys" (basicBytes row.keys), .plain "content" (basicBytes row.content)])

/-- What reflection shows of a `telem.TelemetryGPBTable`, which is a pointer. -/
def reflectTable : Option (List TelemetryRowGPB) → Reflected
  | none => .nilPtr
  | some rows => .ptr (.struct [.plain "row"
      (if rows.isEmpty then .nilSlice else .slice (rows.map reflectRow))])

def oneofString (name : String) : Option String → Field
  | none => .nilOneof
  | some s => .oneof name (basicString s)

/-- What reflection shows of a `telem.Telemetry`. -/
def reflectTelemetry (f : FloatFormat) (t : Telemetry) : List Field :=
  [oneofString "node_id_str" t.nodeIdStr,
    oneofString "subscription_id_str" t.subscriptionIdStr,
    .plain "encoding_path" (basicString t.encodingPath),
    .plain "collection_id" (basicUInt64 t.collectionId),
    .plain "collection_start_time" (basicUInt64 t.collectionStartTime),
    .plain "msg_timestamp" (basicUInt64 t.msgTimestamp),
    .plain "data_gpbkv"
      (if t.dataGpbkv.isEmpty then .nilSlice else .slice (reflectFields f t.dataGpbkv)),
    .plain "data_gpb" (reflectTable t.dataGpb),
    .plain "collection_end_time" (basicUInt64 t.collectionEndTime)]

/-- `copy`, the header that goes with the rows. -/
def headerOf (t : Telemetry) : Telemetry :=
  match t.dataGpb with
  | some _ => { t with dataGpb := none }
  | none => { t with dataGpbkv := [] }

/-! ## The streams -/

/-- `json.RawMessage` as `json.Marshal` takes it over: checked, without its
    whitespace, and with HTML escaped. -/
def rawMessage (text : List Char) : Except GoError Json :=
  match parse text with
  | none => .error "json: error calling MarshalJSON for type *json.RawMessage: invalid text"
  | some v => .ok v.escapeHtml

def rawField : Option (List Char) → Except GoError Json
  | none => .ok .null
  | some text => rawMessage text

/-- A `rowToSerialise` with its containers taken over. -/
def rowJson (timestamp : UInt64) (keys content : Json) : Json :=
  .obj [(.ofString "Timestamp", jsonNat timestamp.toNat), (.ofString "Keys", keys),
    (.ofString "Content", content)]

/-- `json.Marshal` of a `rowToSerialise`. -/
def marshalRow (r : Row (List Char)) : Except GoError Json :=
  match rawField r.keys, rawField r.content with
  | .ok keys, .ok content => .ok (rowJson r.timestamp keys content)
  | .error err, _ => .error err
  | .ok _, .error err => .error err

def marshalRows : List (Row (List Char)) → Except GoError (List Json)
  | [] => .ok []
  | r :: rest =>
      match marshalRow r, marshalRows rest with
      | .ok v, .ok vs => .ok (v :: vs)
      | .error err, _ => .error err
      | .ok _, .error err => .error err

/-- A `msgToSerialise` with its parts taken over; `Rows` is left out if there
    are none. -/
def batchJson (source : MsgProducer) (header : Json) (rows : List Json) : Json :=
  .obj ([(.ofString "Source", jsonString source), (.ofString "Telemetry", header)] ++
    (if rows.isEmpty then [] else [(.ofString "Rows", .arr rows)]))

/-- A `msgToSerialise2` with its parts taken over. -/
def eventJson (source : MsgProducer) (header row : Json) : Json :=
  .obj [(.ofString "Source", jsonString source), (.ofString "Telemetry", header),
    (.ofString "Rows", row)]

/-- `json.Marshal` of the whole batch. -/
def marshalBatch (source : MsgProducer) (telemetry : List Char) (rows : List (Row (List Char))) :
    Except GoError Json :=
  match rawMessage telemetry, marshalRows rows with
  | .ok header, .ok rows => .ok (batchJson source header rows)
  | .error err, _ => .error err
  | .ok _, .error err => .error err

/-- `json.Marshal` of one event. -/
def marshalEvent (source : MsgProducer) (telemetry : List Char) (row : Row (List Char)) :
    Except GoError Json :=
  match rawMessage telemetry, marshalRow row with
  | .ok header, .ok row => .ok (eventJson source header row)
  | .error err, _ => .error err
  | .ok _, .error err => .error err

/-- The loop over the rows with its encoder, which ends every event with a
    newline. -/
def encodeEvents (source : MsgProducer) (telemetry : List Char) :
    List (Row (List Char)) → Bool → Except GoError (List Char)
  | [], _ => .ok []
  | row :: rest, first =>
      match marshalEvent source telemetry row with
      | .error err => .error ("Marshalling collected event content, [" ++ err ++ "]")
      | .ok event =>
          match encodeEvents source telemetry rest false with
          | .error err => .error err
          | .ok tail => .ok ((if first then [] else [',']) ++ (render event ++ ['\n']) ++ tail)

/-- The octets of a text. -/
def utf8 (text : List Char) : Octets := (String.ofList text).toUTF8.toList

/-- The panic of a failing type assertion. -/
def assertionPanic : Failure := .panic "interface conversion"

/-- The rows to serialise, from where the message has them. -/
def rowsToSerialise (t : Telemetry) : Except Failure (List (Row (List Char))) :=
  match t.dataGpb with
  | some _ => .ok (codecGPBJSONifyDataGPB env t)
  | none =>
      match codecGPBJSONifyDataGPBKV env.floats t.dataGpbkv with
      | none => .error assertionPanic
      | some rows => .ok rows

/-- The batch, serialised. -/
def serialiseBatch (source : MsgProducer) (telemetry : List Char)
    (rows : List (Row (List Char))) : Except Failure (Option Octets) :=
  match marshalBatch source telemetry rows with
  | .error err => .error (.error ("Marshalling collected content, [" ++ err ++ "]"))
  | .ok batch => .ok (some (utf8 (render batch)))

/-- The events, serialised; nothing is generated for no rows. -/
def serialiseEvents (source : MsgProducer) (telemetry : List Char)
    (rows : List (Row (List Char))) : Except Failure (Option Octets) :=
  if rows.isEmpty then .ok none
  else
    match encodeEvents source telemetry rows true with
    | .error err => .error (.error err)
    | .ok events => .ok (some (utf8 ('[' :: (events ++ [']']))))

/-- `produceByteStream` for JSON and JSON events, up to how the rows are
    serialised. -/
def produceRows (m : DataMsgGPB) (serialise : MsgProducer → List Char → List (Row (List Char)) →
      Except Failure (Option Octets)) : Except Failure (Option Octets) := do
  let rows ← rowsToSerialise env m.cachedDecode
  let telemetry ← marshalToString codecMarshaler
    (reflectTelemetry env.floats (headerOf m.cachedDecode))
  serialise m.source telemetry.toList rows

/-- `produceByteStream` for templates: the error of `populateDataFromGPB` is
    not looked at, and the octets of a buffer nothing was written to are nil. -/
def produceTemplate (context : Option String) (m : DataMsgGPB) : Except Failure (Option Octets) :=
  match populateDataFromGPB m.cachedDecode with
  | none => .error assertionPanic
  | some (msg, _) =>
      match context with
      | none => .error (.error "GPB CODEC: parsed template missing")
      | some template =>
          match env.execute template msg with
          | .error err => .error (.error err)
          | .ok b => .ok (if b.isEmpty then none else some b)

/-- `dataMsgGPB.produceByteStream`. -/
def produceByteStream (spec : DataMsgStreamSpec) (m : DataMsgGPB) :
    Except Failure (Option Octets) :=
  match spec.streamType with
  | .gpb | .msgDefault => .ok (some m.original)
  | .template => produceTemplate env spec.context m
  | .jsonEvents => produceRows env m serialiseEvents
  | .json => produceRows env m serialiseBatch
  | t => .error (.error ("GPB CODEC: reformat GPB msg to ["
      ++ dataMsgStreamTypeString t ++ "] is not supported"))

/-- What the pipeline sees of a stream, where a panic does not return. -/
def returned : Except Failure α → Except GoError α
  | .ok a => .ok a
  | .error (.error err) => .error err
  | .error (.panic text) => .error text

/-- The renderings of decoded content, by this model. -/
def renderers (gnmiJson : DataMsgGNMI → Except GoError (Option Octets)) :
    Renderers where
  gpbTemplate := fun m context => returned (produceTemplate env context m)
  gpbJson := fun m => returned (produceRows env m serialiseBatch)
  gpbJsonEvents := fun m => returned (produceRows env m serialiseEvents)
  gnmiJson := gnmiJson

/-- **THE STREAMS OF THE PIPELINE** are these, with the renderings left open in
    `DataMsgProofs` filled in. -/
theorem produceByteStream_renderers (gnmiJson : DataMsgGNMI → Except GoError (Option Octets))
    (spec : DataMsgStreamSpec) (m : DataMsgGPB) :
    PipelineDataMsg.produceByteStream (renderers env gnmiJson) spec (.gpb m) =
      returned (produceByteStream env spec m) := by
  obtain ⟨streamType, context⟩ := spec
  cases streamType <;> rfl

end PipelineGpbStream
