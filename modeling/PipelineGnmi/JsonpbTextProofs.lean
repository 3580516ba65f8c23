import PipelineGnmi.JsonTextProofs
import PipelineGnmi.JsonpbProofs

/-! # What the protobuf marshaller writes is JSON

    `JsonpbProofs` has the walk of `jsonpb.go` over a message as reflection
    shows it.  The walk writes brackets, names, colons and commas itself, and
    takes the text of a scalar from `encoding/json`.

    If the texts it takes are JSON, so is what it writes (`marshalValue_isText`):
    it does not fail, and its output is a text in the sense of `JsonText`. -/

namespace PipelineJsonpb

open PipelineMessage JsonText

/-- A text of some value. -/
def IsJson (s : String) : Prop := ∃ v, IsText v s.toList

/-- A text that a library hands over. -/
def RendersJson (json : Except GoError String) : Prop := ∃ s, json = .ok s ∧ IsJson s

/-- A name that needs no escape. -/
def IsName (name : String) : Prop := ∃ key : StringLit, key.raw = name.toList

mutual

/-- **VALID VALUES**: every text the walk takes over is JSON. -/
def Reflected.Valid : Reflected → Prop
  | .basic _ json => RendersJson json
  | .int64 _ digits => ∃ n : NumberLit, n.lexeme = digits.toList
  | .wellKnown json => RendersJson json
  | .nilPtr => True
  | .ptr v => v.Valid
  | .struct fields => FieldsValid fields
  | .nilSlice => True
  | .slice vs => ElemsValid vs
  | .nilMap => True
  | .map entries => EntriesValid entries

def FieldsValid : List Field → Prop
  | [] => True
  | .plain name v :: rest => IsName name ∧ v.Valid ∧ FieldsValid rest
  | .nilOneof :: rest => FieldsValid rest
  | .oneof name v :: rest => IsName name ∧ v.Valid ∧ FieldsValid rest

def ElemsValid : List Reflected → Prop
  | [] => True
  | v :: rest => v.Valid ∧ ElemsValid rest

def EntriesValid : List (String × Reflected) → Prop
  | [] => True
  | (key, v) :: rest =>
      (∃ lit : StringLit, lit.quoted = key.toList) ∧ v.Valid ∧ EntriesValid rest

end

/-- One item before others, with the separator it needs. -/
theorem toList_writeSep (first : Bool) {item tail : String} {ts : List (List Char)}
    (htail : tail.toList = items false ts) :
    (writeSep first ++ item ++ tail).toList = items first (item.toList :: ts) := by
  cases first <;> simp [writeSep, String.toList_append, items, htail]

/-- The name of a field and its value before other fields, as the walk writes
    them. -/
theorem isMember_field {name value tail : String} (hname : IsName name) (hvalue : IsJson value)
    {members : List (StringLit × Json)} {ts : List (List Char)}
    (htail : tail.toList = items false ts) (hts : List.Forall₂ IsMember members ts) (first : Bool) :
    ∃ members' ts',
      (writeSep first ++ "\"" ++ name ++ "\":" ++ value ++ tail).toList = items first ts' ∧
        List.Forall₂ IsMember members' ts' := by
  obtain ⟨key, hkey⟩ := hname
  obtain ⟨v, hv⟩ := hvalue
  have hmember : IsMember (key, v) ("\"" ++ name ++ "\":" ++ value).toList := by
    refine ⟨value.toList, hv, ?_⟩
    simp [String.toList_append, StringLit.quoted, hkey]
  refine ⟨(key, v) :: members, _ :: ts, ?_, .cons hmember hts⟩
  rw [← toList_writeSep first htail]
  simp only [String.append_assoc]

/-- A text in brackets. -/
theorem toList_bracket {opening closing : String} {o c : Char} (ho : opening.toList = [o])
    (hc : closing.toList = [c]) {body : String} {ts : List (List Char)}
    (hbody : body.toList = items true ts) :
    (opening ++ body ++ closing).toList = bracket o c ts := by
  simp [String.toList_append, ho, hc, hbody, bracket]

theorem isJson_rendered {json : Except GoError String} (h : RendersJson json) :
    ∃ s, rendered json = .ok s ∧ IsJson s := by
  obtain ⟨s, rfl, hs⟩ := h
  exact ⟨s, rfl, hs⟩

theorem isJson_int64 {digits : String} (h : ∃ n : NumberLit, n.lexeme = digits.toList)
    (unquoted : Bool) : IsJson (if unquoted then digits else "\"" ++ digits ++ "\"") := by
  obtain ⟨n, hn⟩ := h
  cases unquoted with
  | true => exact ⟨.num n, hn ▸ isText_num n⟩
  | false =>
      refine ⟨.str n.toStringLit, ?_⟩
      have htext : ("\"" ++ digits ++ "\"").toList = n.toStringLit.quoted := by
        simp [String.toList_append, StringLit.quoted, NumberLit.toStringLit, hn]
      rw [if_neg Bool.false_ne_true, htext]
      exact isText_str _

mutual

/-- **THE WALK WRITES JSON**: of a valid value it makes a text of some JSON
    value, and does not fail. -/
theorem marshalValue_isText (m : Marshaler) :
    ∀ r : Reflected, r.Valid → ∃ s, marshalValue m r = .ok s ∧ IsJson s
  | .basic _ _, h => by
      rw [marshalValue]
      exact isJson_rendered h
  | .int64 _ _, h => by
      rw [marshalValue]
      exact ⟨_, rfl, isJson_int64 h _⟩
  | .wellKnown _, h => by
      rw [marshalValue]
      exact isJson_rendered h
  | .nilPtr, _ => by
      rw [marshalValue]
      exact ⟨_, rfl, .null, isText_null⟩
  | .ptr v, h => by
      rw [marshalValue]
      exact marshalValue_isText m v h
  | .struct fields, h => by
      obtain ⟨body, members, ts, hbody, htext, hts⟩ := marshalFields_isText m fields true h
      refine ⟨"\x7b" ++ body ++ "\x7d", by rw [marshalValue, hbody]; rfl, .obj members, ?_⟩
      rw [toList_bracket (o := '{') (c := '}') rfl rfl htext]
      exact isText_obj hts
  | .nilSlice, _ => by
      rw [marshalValue]
      exact ⟨_, rfl, .arr [], isText_arr .nil⟩
  | .slice vs, h => by
      obtain ⟨body, elems, ts, hbody, htext, hts⟩ := marshalElems_isText m vs true h
      refine ⟨"[" ++ body ++ "]", by rw [marshalValue, hbody]; rfl, .arr elems, ?_⟩
      rw [toList_bracket (o := '[') (c := ']') rfl rfl htext]
      exact isText_arr hts
  | .nilMap, _ => by
      rw [marshalValue]
      exact ⟨_, rfl, .obj [], isText_obj .nil⟩
  | .map entries, h => by
      obtain ⟨body, members, ts, hbody, htext, hts⟩ := marshalEntries_isText m entries true h
      refine ⟨"\x7b" ++ body ++ "\x7d", by rw [marshalValue, hbody]; rfl, .obj members, ?_⟩
      rw [toList_bracket (o := '{') (c := '}') rfl rfl htext]
      exact isText_obj hts

theorem marshalFields_isText (m : Marshaler) :
    ∀ (fields : List Field) (first : Bool), FieldsValid fields →
      ∃ body members ts, marshalFields m fields first = .ok body ∧
        body.toList = items first ts ∧ List.Forall₂ IsMember members ts
  | [], first, _ => by
      refine ⟨"", [], [], by rw [marshalFields], rfl, .nil⟩
  | .plain name v :: rest, first, h => by
      rw [marshalFields]
      by_cases hskip : (Field.plain name v).skipped m = true
      · rw [if_pos hskip]
        exact marshalFields_isText m rest first h.2.2
      · obtain ⟨value, hvalue, hjson⟩ := marshalValue_isText m v h.2.1
        obtain ⟨tail, members, ts, htail, htext, hts⟩ := marshalFields_isText m rest false h.2.2
        obtain ⟨members', ts', hfield⟩ := isMember_field h.1 hjson htext hts first
        rw [if_neg hskip, hvalue, htail]
        exact ⟨_, members', ts', rfl, hfield⟩
  | .nilOneof :: rest, first, h => by
      rw [marshalFields, if_pos (show Field.nilOneof.skipped m = true from rfl)]
      exact marshalFields_isText m rest first h
  | .oneof name v :: rest, first, h => by
      rw [marshalFields]
      obtain ⟨value, hvalue, hjson⟩ := marshalValue_isText m v h.2.1
      obtain ⟨tail, members, ts, htail, htext, hts⟩ := marshalFields_isText m rest false h.2.2
      obtain ⟨members', ts', hfield⟩ := isMember_field h.1 hjson htext hts first
      rw [if_neg (show ¬ (Field.oneof name v).skipped m = true from Bool.false_ne_true),
        hvalue, htail]
      exact ⟨_, members', ts', rfl, hfield⟩

theorem marshalElems_isText (m : Marshaler) :
    ∀ (vs : List Reflected) (first : Bool), ElemsValid vs →
      ∃ body elems ts, marshalElems m vs first = .ok body ∧
        body.toList = items first ts ∧ List.Forall₂ IsText elems ts
  | [], first, _ => ⟨"", [], [], by rw [marshalElems], rfl, .nil⟩
  | v :: rest, first, h => by
      obtain ⟨value, hvalue, w, hw⟩ := marshalValue_isText m v h.1
      obtain ⟨tail, elems, ts, htail, htext, hts⟩ := marshalElems_isText m rest false h.2
      refine ⟨writeSep first ++ value ++ tail, w :: elems, _ :: ts, ?_,
        toList_writeSep first htext, .cons hw hts⟩
      rw [marshalElems, hvalue, htail]
      rfl

theorem marshalEntries_isText (m : Marshaler) :
    ∀ (entries : List (String × Reflected)) (first : Bool), EntriesValid entries →
      ∃ body members ts, marshalEntries m entries first = .ok body ∧
        body.toList = items first ts ∧ List.Forall₂ IsMember members ts
  | [], first, _ => ⟨"", [], [], by rw [marshalEntries], rfl, .nil⟩
  | (key, v) :: rest, first, h => by
      obtain ⟨⟨lit, hlit⟩, hv, hrest⟩ := h
      obtain ⟨value, hvalue, w, hw⟩ := marshalValue_isText m v hv
      obtain ⟨tail, members, ts, htail, htext, hts⟩ := marshalEntries_isText m rest false hrest
      have hmember : IsMember (lit, w) (key ++ ":" ++ value).toList := by
        refine ⟨value.toList, hw, ?_⟩
        simp [String.toList_append, hlit]
      refine ⟨writeSep first ++ key ++ ":" ++ value ++ tail, (lit, w) :: members, _ :: ts, ?_, ?_,
        .cons hmember hts⟩
      · rw [marshalEntries, hvalue, htail]
        rfl
      · rw [← toList_writeSep first htext]
        simp only [String.append_assoc]

end

end PipelineJsonpb
