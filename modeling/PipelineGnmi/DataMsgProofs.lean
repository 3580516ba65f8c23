import PipelineGnmi.MessageProofs

/-! # Data messages and the codecs that build them

    The three messages the pipeline carries (`dataMsgGPB`, `dataMsgJSON`,
    `dataMsgGNMI`) with the wire types beneath them, and the codecs of
    `codec_gpb.go` and `codec_json.go`.

    `proto.Marshal` and `proto.Unmarshal` are not part of the repository; they
    are the fields of `ProtoLib`.  A repeated field that is absent on the wire
    is a nil slice, here the empty list.  Floating point values are carried by
    their bits, since nothing in the pipeline computes with them.

    Where a result is an `Option`, `none` is a run-time panic. -/

namespace PipelineDataMsg

open PipelineMessage

/-- The scalars a K/V field carries. -/
inductive Scalar where
  | bytes (b : Octets)
  | string (s : String)
  | bool (b : Bool)
  | uint32 (n : UInt32)
  | uint64 (n : UInt64)
  | sint32 (n : Int32)
  | sint64 (n : Int64)
  | double (bits : UInt64)
  | float (bits : UInt32)
  deriving DecidableEq, Repr

/-- `telem.TelemetryField`. -/
inductive TelemetryField where
  | mk (timestamp : UInt64) (name : String) (valueByType : Option Scalar)
      (fields : List TelemetryField)

namespace TelemetryField

def timestamp : TelemetryField → UInt64
  | mk ts _ _ _ => ts

def name : TelemetryField → String
  | mk _ n _ _ => n

def valueByType : TelemetryField → Option Scalar
  | mk _ _ v _ => v

def fields : TelemetryField → List TelemetryField
  | mk _ _ _ fs => fs

end TelemetryField

/-- `extractGPBKVNativeTypeFromOneof`: the value of a field, if it has one of
    the right kind. -/
def extractGPBKVNativeTypeFromOneof (field : TelemetryField)
    (mustBeNumeric : Bool) : Option Scalar :=
  match field.valueByType with
  | some (.bytes b) => if mustBeNumeric then none else some (.bytes b)
  | some (.string s) => if mustBeNumeric then none else some (.string s)
  | some (.bool b) => if mustBeNumeric then none else some (.bool b)
  | v => v

/-- Without the numeric restriction the oneof is returned as it is. -/
theorem extractGPBKVNativeTypeFromOneof_any (field : TelemetryField) :
    extractGPBKVNativeTypeFromOneof field false = field.valueByType := by
  unfold extractGPBKVNativeTypeFromOneof
  split <;> simp_all

/-- `telem.TelemetryRowGPB`. -/
structure TelemetryRowGPB where
  timestamp : UInt64
  keys : Octets
  content : Octets
  deriving DecidableEq

/-- `telem.Telemetry`; `dataGpb` is a pointer to the table of rows. -/
structure Telemetry where
  nodeIdStr : Option String
  subscriptionIdStr : Option String
  encodingPath : String
  collectionId : UInt64
  collectionStartTime : UInt64
  msgTimestamp : UInt64
  dataGpbkv : List TelemetryField
  dataGpb : Option (List TelemetryRowGPB)
  collectionEndTime : UInt64

/-- `pdt.TelemetryTable`. -/
structure PdtTable where
  policyPath : String
  row : List Octets
  deriving DecidableEq

/-- `pdt.TelemetryHeader`, the fields the conversion reads. -/
structure PdtHeader where
  identifier : String
  policyName : String
  startTime : UInt64
  endTime : UInt64
  tables : List PdtTable
  deriving DecidableEq

/-- `gnmi.PathElem`; the order of `key` is the one `range` visits it in. -/
structure GnmiPathElem where
  name : String
  key : List (String × String)
  deriving DecidableEq

/-- `gnmi.Path`. -/
structure GnmiPath where
  origin : String
  elem : List GnmiPathElem
  target : String
  deriving DecidableEq

/-- The oneof of `gnmi.TypedValue`. -/
inductive GnmiTypedValue where
  | stringVal (s : String)
  | intVal (n : Int64)
  | uintVal (n : UInt64)
  | boolVal (b : Bool)
  | bytesVal (b : Octets)
  | floatVal (bits : UInt32)
  | decimalVal (digits : Int64) (precision : UInt32)
  | leaflistVal
  | anyVal
  | jsonVal (b : Octets)
  | jsonIetfVal (b : Octets)
  | asciiVal (s : String)
  | protoBytes (b : Octets)
  | unset
  deriving DecidableEq

/-- `gnmi.Update`: path and value are pointers. -/
structure GnmiUpdate where
  path : Option GnmiPath
  val : Option GnmiTypedValue
  deriving DecidableEq

/-- `gnmi.Notification`; `pfx` is its prefix, a pointer. -/
structure GnmiNotification where
  timestamp : Int64
  pfx : Option GnmiPath
  update : List GnmiUpdate
  deriving DecidableEq

/-- `dataMsgGPB`, the decoded-table cache apart. -/
structure DataMsgGPB where
  original : Octets
  source : MsgProducer
  cachedDecode : Telemetry

/-- `dataMsgJSON`. -/
structure DataMsgJSON where
  original : Octets
  source : MsgProducer

/-- `dataMsgGNMI`. -/
structure DataMsgGNMI where
  original : Octets
  source : MsgProducer
  notification : GnmiNotification
  jsonUInt64Compat : Bool

/-- `dataMsg`. -/
inductive DataMsg where
  | gpb (m : DataMsgGPB)
  | json (m : DataMsgJSON)
  | gnmi (m : DataMsgGNMI)

namespace DataMsg

/-- The octets a message was decoded from. -/
def original : DataMsg → Octets
  | gpb m => m.original
  | json m => m.original
  | gnmi m => m.original

/-- `getDataMsgStreamType`. -/
def getDataMsgStreamType : DataMsg → DataMsgStreamType
  | gpb _ => .gpb
  | json _ => .json
  | gnmi _ => .msgDefault

/-- `getMetaDataIdentifier`; it never fails. -/
def getMetaDataIdentifier : DataMsg → String
  | gpb m => m.source
  | json m => m.source
  | gnmi m => m.source

/-- The decoded telemetry of a GPB message. -/
def telemetry : DataMsg → Option Telemetry
  | gpb m => some m.cachedDecode
  | json _ => none
  | gnmi _ => none

end DataMsg

/-- The element names of a path, separated by slashes. -/
def joinElems : List GnmiPathElem → String
  | [] => ""
  | [e] => e.name
  | e :: rest => e.name ++ "/" ++ joinElems rest

/-- `decodeGNMIPath`, on a path that is there. -/
def decodeGNMIPath (path : GnmiPath) : String :=
  (if path.origin ≠ "" then path.origin ++ ":"
   else if path.elem ≠ [] then "/" else "") ++ joinElems path.elem

/-- `getMetaDataPath`: a gNMI message without a prefix panics here. -/
def getMetaDataPath : DataMsg → Option (Except GoError String)
  | .gpb m => some (.ok m.cachedDecode.encodingPath)
  | .json _ => some (.error "JSON CODEC: path extraction is not supported")
  | .gnmi m => m.notification.pfx.map (fun p => .ok (decodeGNMIPath p))

/-! ## Byte streams -/

/-- `dataMsgStreamSpec`; the context is the text of the parsed template. -/
structure DataMsgStreamSpec where
  streamType : DataMsgStreamType
  context : Option String
  deriving DecidableEq, Repr

/-- `dataMsgStreamSpecDefault`. -/
def dataMsgStreamSpecDefault : DataMsgStreamSpec := ⟨.msgDefault, none⟩

/-- `dataMsgStreamSpecTextBased`. -/
def dataMsgStreamSpecTextBased (s : DataMsgStreamSpec) : Bool :=
  match s.streamType with
  | .json => true
  | .jsonEvents => true
  | _ => false

/-- The renderings of decoded content; a rendering may have nothing to
    generate, which is the nil slice. -/
structure Renderers where
  gpbTemplate : DataMsgGPB → Option String → Except GoError (Option Octets)
  gpbJson : DataMsgGPB → Except GoError (Option Octets)
  gpbJsonEvents : DataMsgGPB → Except GoError (Option Octets)
  gnmiJson : DataMsgGNMI → Except GoError (Option Octets)

/-- `produceByteStream`. -/
def produceByteStream (render : Renderers) (spec : DataMsgStreamSpec) :
    DataMsg → Except GoError (Option Octets)
  | .gpb m =>
      match spec.streamType with
      | .gpb | .msgDefault => .ok (some m.original)
      | .template => render.gpbTemplate m spec.context
      | .json => render.gpbJson m
      | .jsonEvents => render.gpbJsonEvents m
      | t => .error ("GPB CODEC: reformat GPB msg to ["
          ++ dataMsgStreamTypeString t ++ "] is not supported")
  | .json m =>
      match spec.streamType with
      | .json | .msgDefault => .ok (some m.original)
      | t => .error ("JSON CODEC: reformat msg to ["
          ++ dataMsgStreamTypeString t ++ "] is not supported")
  | .gnmi m =>
      match spec.streamType with
      | .msgDefault | .gpb => .ok (some m.original)
      | .json => render.gnmiJson m
      | t => .error ("gnmi codec: reformat msg to ["
          ++ dataMsgStreamTypeString t ++ "] is not supported")

/-- **THE DEFAULT STREAM IS THE ORIGINAL**, for every message. -/
theorem produceByteStream_default (render : Renderers) (m : DataMsg) :
    produceByteStream render dataMsgStreamSpecDefault m = .ok (some m.original) := by
  cases m <;> rfl

/-! ## Codecs -/

/-- The protobuf library. -/
structure ProtoLib where
  marshal : Telemetry → Except GoError Octets
  unmarshal : Octets → Except GoError Telemetry
  unmarshalPdt : Octets → Except GoError PdtHeader

/-- What the pipeline relies on: `proto.Unmarshal` inverts `proto.Marshal`. -/
def ProtoLib.Inverts (lib : ProtoLib) : Prop :=
  ∀ t b, lib.marshal t = .ok b → lib.unmarshal b = .ok t

/-- The lookaside of `codecGPBBlockAndTelemMsgToDataMsgs` in `basePathXlation`;
    the nil table translates nothing. -/
def translatePath (xlation : String → Option String) (t : Telemetry) : Telemetry :=
  if t.encodingPath = "" then t
  else match xlation t.encodingPath with
    | some newPath => { t with encodingPath := newPath }
    | none => t

/-- `codecGPBBlockAndTelemMsgToDataMsgs`: the octets are kept as they are, the
    decoded path is translated. -/
def codecGPBBlockAndTelemMsgToDataMsgs (xlation : String → Option String)
    (source : MsgProducer) (block : Octets) (t : Telemetry) : List DataMsg :=
  [.gpb ⟨block, source, translatePath xlation t⟩]

/-- `codecGPBBlockToDataMsgs`. -/
def codecGPBBlockToDataMsgs (lib : ProtoLib) (xlation : String → Option String)
    (source : MsgProducer) (block : Octets) :
    Except GoError (Option (List DataMsg)) := do
  let t ← lib.unmarshal block
  pure (some (codecGPBBlockAndTelemMsgToDataMsgs xlation source block t))

/-- The loop of `codecGPBLegacyPDTBlockToDataMsgs` over the tables: the common
    path so far and the rows so far.  A row is both keys and content. -/
def pdtTables : List PdtTable → String → List TelemetryRowGPB →
    Except GoError (String × List TelemetryRowGPB)
  | [], path, rows => .ok (path, rows)
  | table :: rest, path, rows =>
      if path ≠ "" ∧ path ≠ table.policyPath then
        .error ("different paths encoded in the same message (unsupported): "
          ++ path ++ ", " ++ table.policyPath)
      else
        pdtTables rest (if path = "" then table.policyPath else path)
          (rows ++ table.row.map (fun row => ⟨0, row, row⟩))

/-- `codecGPBLegacyPDTBlockToDataMsgs`: the message keeps the remarshalled
    octets, not the ones received. -/
def codecGPBLegacyPDTBlockToDataMsgs (lib : ProtoLib)
    (xlation : String → Option String) (source : MsgProducer) (block : Octets) :
    Except GoError (Option (List DataMsg)) := do
  let old ← lib.unmarshalPdt block
  let (path, rows) ← pdtTables old.tables "" []
  if rows = [] then
    .error ("no content in PDT message: " ++ path)
  else
    let target : Telemetry :=
      { nodeIdStr := some old.identifier
        subscriptionIdStr := some old.policyName
        encodingPath := path
        collectionId := 0
        collectionStartTime := old.startTime
        msgTimestamp := old.startTime
        dataGpbkv := []
        dataGpb := some rows
        collectionEndTime := old.endTime }
    match lib.marshal target with
    | .error err => .error ("failed to remarshall to new format: " ++ err)
    | .ok newContent =>
        pure (some (codecGPBBlockAndTelemMsgToDataMsgs xlation source newContent
          target))

/-- `codecGPB.blockToDataMsgs` and `codecJSON.blockToDataMsgs`, by the encoding
    the codec was built for. -/
def blockToDataMsgs (lib : ProtoLib) (xlation : String → Option String) :
    Encoding → Codec DataMsg
  | .gpb => codecGPBBlockToDataMsgs lib xlation
  | .gpbCompact => codecGPBLegacyPDTBlockToDataMsgs lib xlation
  | .json => fun source block => .ok (some [.json ⟨block, source⟩])
  | _ => fun _ _ => .error "ENCAP GPB: Product type for GPB parser not set"

variable {r : Option (List DataMsg)} {xlation : String → Option String} {block : Octets}
  {lib : ProtoLib} {source : MsgProducer}

/-- What `codecGPB` makes of a block that decodes. -/
theorem codecGPB_ok (h : codecGPBBlockToDataMsgs lib xlation source block = .ok r) :
    ∃ t, lib.unmarshal block = .ok t ∧
      r = some (codecGPBBlockAndTelemMsgToDataMsgs xlation source block t) := by
  unfold codecGPBBlockToDataMsgs at h
  cases hu : lib.unmarshal block with
  | error err =>
      rw [hu] at h
      cases h
  | ok t =>
      rw [hu] at h
      exact ⟨t, rfl, (Except.ok.inj h).symm⟩

/-- What the legacy codec makes of a block that converts: the telemetry is
    remarshalled before its path is translated. -/
theorem codecGPBLegacyPDT_ok
    (h : codecGPBLegacyPDTBlockToDataMsgs lib xlation source block = .ok r) :
    ∃ target newContent, lib.marshal target = .ok newContent ∧
      r = some (codecGPBBlockAndTelemMsgToDataMsgs xlation source newContent target) := by
  unfold codecGPBLegacyPDTBlockToDataMsgs at h
  cases hold : lib.unmarshalPdt block with
  | error err =>
      rw [hold] at h
      cases h
  | ok old =>
      rw [hold] at h
      cases htab : pdtTables old.tables "" [] with
      | error err =>
          simp only [bind, Except.bind, htab] at h
          cases h
      | ok pr =>
          simp only [bind, Except.bind, htab] at h
          split at h
          · cases h
          · split at h
            · cases h
            · next newContent hm => exact ⟨_, newContent, hm, (Except.ok.inj h).symm⟩

end PipelineDataMsg
