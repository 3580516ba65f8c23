import PipelineGnmi.MessageProofs

/-! # Rendering a protobuf message as JSON

    The marshaller of `jsonpb.go` walks a message by reflection.  `Reflected` is
    what reflection shows it: pointers, slices and maps may be nil, and a oneof
    is an interface that may hold nothing.  Texts that `encoding/json` or the
    well-known types produce are part of the value.

    A nil pointer, slice or map is left out of its object or rendered as it is;
    a oneof is dereferenced without a test, after one that skips it when it is
    nil.  `marshalValue_noPanic` is the result: the walk dereferences nothing
    that is absent, whatever the message. -/

namespace PipelineJsonpb

open PipelineMessage

/-- `Marshaler`, without indentation. -/
structure Marshaler where
  emitUInt64Unquoted : Bool
  emitDefaults : Bool
  deriving DecidableEq

mutual

/-- A value as reflection shows it.  A well-known type or an `Any`, such as the
    `any_val` of `gnmi.TypedValue`, comes with what its own branch or `marshalAny`
    renders, text or error. -/
inductive Reflected where
  | basic (isZero : Bool) (json : Except GoError String)
  | int64 (isZero : Bool) (digits : String)
  | wellKnown (json : Except GoError String)
  | nilPtr
  | ptr (v : Reflected)
  | struct (fields : List Field)
  | nilSlice
  | slice (vs : List Reflected)
  | nilMap
  | map (entries : List (String × Reflected))

/-- A field of a struct; the value of a oneof has its own name. -/
inductive Field where
  | plain (name : String) (v : Reflected)
  | nilOneof
  | oneof (name : String) (v : Reflected)

end

/-- The values `EmitDefaults` is about. -/
def Reflected.isDefault : Reflected → Bool
  | .basic isZero _ => isZero
  | .int64 isZero _ => isZero
  | .nilPtr => true
  | .nilSlice => true
  | .nilMap => true
  | _ => false

/-- The fields the loop of `marshalObject` passes over: a nil interface always,
    a default unless they are emitted. -/
def Field.skipped (m : Marshaler) : Field → Bool
  | .plain _ v => !m.emitDefaults && v.isDefault
  | .nilOneof => true
  | .oneof _ _ => false

/-- `writeSep`, before every item but the first. -/
def writeSep (first : Bool) : String := if first then "" else ","

/-- An error of a library that renders text. -/
def rendered (json : Except GoError String) : Except Failure String :=
  json.mapError Failure.error

mutual

/-- `marshalValue`: pointers are followed, a nil one is `null`. -/
def marshalValue (m : Marshaler) : Reflected → Except Failure String
  | .basic _ json => rendered json
  | .int64 _ digits =>
      .ok (if m.emitUInt64Unquoted then digits else "\"" ++ digits ++ "\"")
  | .wellKnown json => rendered json
  | .nilPtr => .ok "null"
  | .ptr v => marshalValue m v
  | .struct fields => do
      let body ← marshalFields m fields true
      pure ("\x7b" ++ body ++ "\x7d")
  | .nilSlice => .ok "[]"
  | .slice vs => do
      let body ← marshalElems m vs true
      pure ("[" ++ body ++ "]")
  | .nilMap => .ok "\x7b\x7d"
  | .map entries => do
      let body ← marshalEntries m entries true
      pure ("\x7b" ++ body ++ "\x7d")

/-- The loop of `marshalObject`.  What is left of a oneof after the test is
    dereferenced: a nil interface would panic here. -/
def marshalFields (m : Marshaler) : List Field → Bool → Except Failure String
  | [], _ => .ok ""
  | .plain name v :: rest, first =>
      if (Field.plain name v).skipped m then marshalFields m rest first
      else do
        let value ← marshalValue m v
        let tail ← marshalFields m rest false
        pure (writeSep first ++ "\"" ++ name ++ "\":" ++ value ++ tail)
  | .nilOneof :: rest, first =>
      if Field.nilOneof.skipped m then marshalFields m rest first
      else .error .nilPointer
  | .oneof name v :: rest, first =>
      if (Field.oneof name v).skipped m then marshalFields m rest first
      else do
        let value ← marshalValue m v
        let tail ← marshalFields m rest false
        pure (writeSep first ++ "\"" ++ name ++ "\":" ++ value ++ tail)

/-- The loop over repeated elements. -/
def marshalElems (m : Marshaler) : List Reflected → Bool → Except Failure String
  | [], _ => .ok ""
  | v :: rest, first => do
      let value ← marshalValue m v
      let tail ← marshalElems m rest false
      pure (writeSep first ++ value ++ tail)

/-- The loop over the entries of a map; the key is already a JSON string. -/
def marshalEntries (m : Marshaler) :
    List (String × Reflected) → Bool → Except Failure String
  | [], _ => .ok ""
  | (key, v) :: rest, first => do
      let value ← marshalValue m v
      let tail ← marshalEntries m rest false
      pure (writeSep first ++ key ++ ":" ++ value ++ tail)

end

/-- `MarshalToString`, of a message that is not nil. -/
def marshalToString (m : Marshaler) (fields : List Field) : Except Failure String :=
  marshalValue m (.struct fields)

/-! ## Nothing absent is dereferenced -/

/-- A call that may return an error and does not panic. -/
def NoPanic {α : Type} (r : Except Failure α) : Prop :=
  ∀ text, r ≠ .error (.panic text)

theorem noPanic_ok {α : Type} (a : α) : NoPanic (.ok a : Except Failure α) := by
  intro text h
  cases h

theorem noPanic_rendered (json : Except GoError String) : NoPanic (rendered json) := by
  intro text h
  cases json with
  | error err => cases h
  | ok s => cases h

/-- One call after another. -/
theorem NoPanic.bind {α β : Type} {r : Except Failure α} {f : α → Except Failure β}
    (hr : NoPanic r) (hf : ∀ a, NoPanic (f a)) : NoPanic (r >>= f) := by
  intro text h
  cases r with
  | error e =>
      have he : e = .panic text := Except.error.inj h
      exact hr text (congrArg Except.error he)
  | ok a => exact hf a text h

mutual

/-- **THE WALK DEREFERENCES NOTHING ABSENT**, whatever the value. -/
theorem marshalValue_noPanic (m : Marshaler) :
    ∀ v : Reflected, NoPanic (marshalValue m v)
  | .basic _ json => by
      rw [marshalValue]
      exact noPanic_rendered json
  | .int64 _ _ => by
      rw [marshalValue]
      exact noPanic_ok _
  | .wellKnown json => by
      rw [marshalValue]
      exact noPanic_rendered json
  | .nilPtr => by
      rw [marshalValue]
      exact noPanic_ok _
  | .ptr v => by
      rw [marshalValue]
      exact marshalValue_noPanic m v
  | .struct fields => by
      rw [marshalValue]
      exact (marshalFields_noPanic m fields true).bind (fun _ => noPanic_ok _)
  | .nilSlice => by
      rw [marshalValue]
      exact noPanic_ok _
  | .slice vs => by
      rw [marshalValue]
      exact (marshalElems_noPanic m vs true).bind (fun _ => noPanic_ok _)
  | .nilMap => by
      rw [marshalValue]
      exact noPanic_ok _
  | .map entries => by
      rw [marshalValue]
      exact (marshalEntries_noPanic m entries true).bind (fun _ => noPanic_ok _)

theorem marshalFields_noPanic (m : Marshaler) :
    ∀ (fields : List Field) (first : Bool), NoPanic (marshalFields m fields first)
  | [], _ => by
      rw [marshalFields]
      exact noPanic_ok _
  | .plain name v :: rest, first => by
      rw [marshalFields]
      split
      · exact marshalFields_noPanic m rest first
      · exact (marshalValue_noPanic m v).bind
          (fun _ => (marshalFields_noPanic m rest false).bind (fun _ => noPanic_ok _))
  | .nilOneof :: rest, first => by
      -- the test that skips a nil interface
      rw [marshalFields, Field.skipped, if_pos rfl]
      exact marshalFields_noPanic m rest first
  | .oneof name v :: rest, first => by
      rw [marshalFields]
      split
      · exact marshalFields_noPanic m rest first
      · exact (marshalValue_noPanic m v).bind
          (fun _ => (marshalFields_noPanic m rest false).bind (fun _ => noPanic_ok _))

theorem marshalElems_noPanic (m : Marshaler) :
    ∀ (vs : List Reflected) (first : Bool), NoPanic (marshalElems m vs first)
  | [], _ => by
      rw [marshalElems]
      exact noPanic_ok _
  | v :: rest, first => by
      rw [marshalElems]
      exact (marshalValue_noPanic m v).bind
        (fun _ => (marshalElems_noPanic m rest false).bind (fun _ => noPanic_ok _))

theorem marshalEntries_noPanic (m : Marshaler) :
    ∀ (entries : List (String × Reflected)) (first : Bool),
      NoPanic (marshalEntries m entries first)
  | [], _ => by
      rw [marshalEntries]
      exact noPanic_ok _
  | (key, v) :: rest, first => by
      rw [marshalEntries]
      exact (marshalValue_noPanic m v).bind
        (fun _ => (marshalEntries_noPanic m rest false).bind (fun _ => noPanic_ok _))

end

end PipelineJsonpb
