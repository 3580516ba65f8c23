import Mathlib.Tactic

/-! # Encodings, stream types and the codec interface

    The enumerations every stage of the pipeline shares (`codec.go`,
    `message.go`) and the tables between them.  A message producer is known to
    the pipeline only through its `String()`, so it is that string; an error is
    known only through its text.

    A codec turns one block into messages.  The Go result `(error, []dataMsg)`
    is an `Except`, and the `Option` inside keeps apart the nil slice (a header
    was read, nothing yet) from a slice that happens to be empty. -/

namespace PipelineMessage

/-- Octets as they are read from a connection, a datagram or a file. -/
abbrev Octets := List UInt8

/-- An error value, by its text. -/
abbrev GoError := String

/-- A `msgproducer`, by its `String()`. -/
abbrev MsgProducer := String

/-- Why a call gives no result: it returned an error, or it panicked. -/
inductive Failure where
  | error (err : GoError)
  | panic (text : String)
  deriving DecidableEq, Repr

/-- Dereferencing a nil pointer. -/
def Failure.nilPointer : Failure :=
  .panic "invalid memory address or nil pointer dereference"

/-- `encoding`. -/
inductive Encoding where
  | gpbCompact
  | gpbKv
  | json
  | jsonEvents
  | gpb
  | template
  deriving DecidableEq, Repr

/-- `codec_support`: what can be received, as opposed to produced. -/
def codecSupport : List Encoding := [.gpb, .gpbCompact, .gpbKv, .json]

/-- The number of an encoding, as `%v` prints it. -/
def Encoding.number : Encoding → Nat
  | .gpbCompact => 0
  | .gpbKv => 1
  | .json => 2
  | .jsonEvents => 3
  | .gpb => 4
  | .template => 5

/-- `nameToEncoding`; the mapping is printed by sorted names. -/
def nameToEncoding (encap : String) : Except GoError Encoding :=
  match encap with
  | "gpbcompact" => .ok .gpbCompact
  | "gpbkv" => .ok .gpbKv
  | "json" => .ok .json
  | "json_events" => .ok .jsonEvents
  | "gpb" => .ok .gpb
  | "template" => .ok .template
  | _ => .error ("encoding [" ++ encap ++ "], expected value from map[gpb:4 gpbcompact:0 gpbkv:1"
      ++ " json:2 json_events:3 template:5]")

/-- `dataMsgStreamType`. -/
inductive DataMsgStreamType where
  | gpb
  | gpbKv
  | json
  | jsonEvents
  | template
  | msgDefault
  | msgUnknown
  deriving DecidableEq, Repr

/-- The number of a stream type, as `%v` prints it. -/
def DataMsgStreamType.number : DataMsgStreamType → Nat
  | .gpb => 0
  | .gpbKv => 1
  | .json => 2
  | .jsonEvents => 3
  | .template => 4
  | .msgDefault => 5
  | .msgUnknown => 6

/-- `dataMsgStreamTypeString`. -/
def dataMsgStreamTypeString : DataMsgStreamType → String
  | .gpb => "GPB(compact)"
  | .gpbKv => "GPB(k/v)"
  | .json => "JSON"
  | .jsonEvents => "JSON(events)"
  | .template => "template"
  | .msgDefault => "Unknown"
  | .msgUnknown => "Unknown"

/-- `dataMsgStreamTypeFromEncoding`; every encoding has an entry. -/
def dataMsgStreamTypeFromEncoding : Encoding → DataMsgStreamType
  | .gpbCompact => .gpb
  | .gpbKv => .gpbKv
  | .json => .json
  | .jsonEvents => .jsonEvents
  | .gpb => .gpb
  | .template => .template

/-- `dataMsgStreamTypeToEncoding`: only what the tap can archive. -/
def dataMsgStreamTypeToEncoding : DataMsgStreamType → Except GoError Encoding
  | .gpb => .ok .gpb
  | .json => .ok .json
  | .gpbKv => .ok .gpbKv
  | dmt => .error ("Unsupported dataMsgStreamType " ++ toString dmt.number)

/-- `codec.blockToDataMsgs`. -/
abbrev Codec (M : Type) :=
  MsgProducer → Octets → Except GoError (Option (List M))

/-- Codecs that make one message of each block. -/
def wholeBlocks : Encoding → Codec Octets := fun _ _ block => .ok (some [block])

/-- `getCodec`; `decode` stands for the codecs themselves, one function for
    each encoding they are built for. -/
def getCodec {M : Type} (decode : Encoding → Codec M) :
    Encoding → Except GoError (Codec M)
  | .gpbCompact => .ok (decode .gpbCompact)
  | .gpbKv => .ok (decode .gpbKv)
  | .gpb => .ok (decode .gpb)
  | .json => .ok (decode .json)
  | .jsonEvents => .error "CODEC: codec unsupported"
  | .template => .error "CODEC: codec unsupported"

/-- `msgID`. -/
inductive MsgID where
  | shutdown
  | report
  | ack
  deriving DecidableEq, Repr

/-- Spray messages over the downstream channels: each message goes to every
    channel before the next message is looked at.  A channel is seen here as
    the sequence of messages sent on it. -/
def spray {M : Type} (msgs : List M) (dataChans : List (List M)) : List (List M) :=
  msgs.foldl (fun chans msg => chans.map (· ++ [msg])) dataChans

/-- **SPRAYING IS UNIFORM**: every channel is extended by the same sequence. -/
theorem spray_eq {M : Type} (msgs : List M) (dataChans : List (List M)) :
    spray msgs dataChans = dataChans.map (· ++ msgs) := by
  induction msgs generalizing dataChans with
  | nil => simp [spray]
  | cons m rest ih =>
      show spray rest (dataChans.map (· ++ [m])) = _
      rw [ih, List.map_map]
      refine List.map_congr_left ?_
      intro c _
      simp

end PipelineMessage
