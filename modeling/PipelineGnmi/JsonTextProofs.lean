import Mathlib.Tactic

/-! # JSON texts — values, rendering and parsing

    A JSON value keeps its numbers and strings as they are written: a literal
    is the characters between its delimiters together with the proof that they
    are well formed, so every value can be rendered and every rendering parses.

    `parse` is the reader of the grammar, with whitespace wherever the grammar
    allows it.  `IsText v cs` says that the reader takes `cs` for `v` whatever
    follows; there is one lemma per construct, and whoever writes JSON by hand
    shows its text to be one by putting them together. -/

namespace JsonText

/-! ## String literals -/

/-- Where a string literal is: between characters, after a backslash, or with
    this many hexadecimal digits to come after the next. -/
inductive Scan where
  | plain
  | escape
  | hex (n : Nat)
  deriving DecidableEq, Repr

def isHex (c : Char) : Bool :=
  c.isDigit || (decide ('a' ≤ c) && decide (c ≤ 'f')) || (decide ('A' ≤ c) && decide (c ≤ 'F'))

/-- The characters that may follow a backslash, `u` apart. -/
def isEscape (c : Char) : Bool :=
  c == '"' || c == '\\' || c == '/' || c == 'b' || c == 'f' || c == 'n' || c == 'r' || c == 't'

/-- One character of a string literal. -/
def scan : Scan → Char → Option Scan
  | .plain, c =>
      if c = '\\' then some .escape
      else if c = '"' ∨ c.toNat < 0x20 then none
      else some .plain
  | .escape, c =>
      if c = 'u' then some (.hex 3)
      else if isEscape c then some .plain
      else none
  | .hex n, c =>
      if isHex c then
        match n with
        | 0 => some .plain
        | n + 1 => some (.hex n)
      else none

/-- Several characters of a string literal. -/
def scanAll : Scan → List Char → Option Scan
  | st, [] => some st
  | st, c :: cs => (scan st c).bind (fun st => scanAll st cs)

variable {st st' : Scan} {cs : List Char} {c : Char}

theorem scanAll_append (h : scanAll st cs = some st') (more : List Char) :
    scanAll st (cs ++ more) = scanAll st' more := by
  induction cs generalizing st with
  | nil =>
      rw [← Option.some.inj h]
      rfl
  | cons c cs ih =>
      obtain ⟨st₁, hc, hcs⟩ := Option.bind_eq_some_iff.mp h
      show (scan st c).bind _ = _
      rw [hc]
      exact ih hcs

/-- A string literal: the characters between its quotes. -/
structure StringLit where
  raw : List Char
  valid : scanAll .plain raw = some .plain

/-- Characters that stand for themselves, each of them in a text of its own. -/
def StringLit.ofPieces {α : Type} (piece : α → List Char)
    (h : ∀ a, scanAll .plain (piece a) = some .plain) (as : List α) : StringLit where
  raw := as.flatMap piece
  valid := by
    induction as with
    | nil => rfl
    | cons a as ih =>
        rw [List.flatMap_cons, scanAll_append (h a)]
        exact ih

/-- Read up to the closing quote. -/
def readString : Scan → List Char → Option (List Char × List Char)
  | _, [] => none
  | st, c :: rest =>
      if st = .plain ∧ c = '"' then some ([], rest)
      else
        match scan st c with
        | none => none
        | some st => (readString st rest).map (fun r => (c :: r.1, r.2))

/-- **A LITERAL IS READ WHOLE**, up to its closing quote. -/
theorem readString_append {st : Scan} {raw : List Char} (h : scanAll st raw = some .plain)
    (rest : List Char) : readString st (raw ++ '"' :: rest) = some (raw, rest) := by
  induction raw generalizing st with
  | nil =>
      rw [Option.some.inj h]
      rfl
  | cons c raw ih =>
      obtain ⟨st₁, hc, hraw⟩ := Option.bind_eq_some_iff.mp h
      -- an unescaped quote would not have been scanned
      have hquote : ¬ (st = .plain ∧ c = '"') := by
        rintro ⟨rfl, rfl⟩
        cases hc
      show (if st = .plain ∧ c = '"' then _ else _) = _
      rw [if_neg hquote, hc]
      show (readString st₁ (raw ++ '"' :: rest)).map _ = _
      rw [ih hraw]
      rfl

/-- A literal after its opening quote. -/
def readStringLit (cs : List Char) : Option (StringLit × List Char) :=
  match readString .plain cs with
  | none => none
  | some (raw, rest) =>
      if h : scanAll .plain raw = some .plain then some (⟨raw, h⟩, rest) else none

theorem readStringLit_append (s : StringLit) (rest : List Char) :
    readStringLit (s.raw ++ '"' :: rest) = some (s, rest) := by
  unfold readStringLit
  rw [readString_append s.valid]
  exact dif_pos s.valid

/-! ## Numbers -/

/-- Where a number is. -/
inductive NumState where
  | start | sign | zero | int | point | frac | exp | expSign | expDigits
  deriving DecidableEq, Repr

/-- One character of a number. -/
def numStep : NumState → Char → Option NumState
  | .start, c =>
      if c = '-' then some .sign
      else if c = '0' then some .zero
      else if c.isDigit then some .int
      else none
  | .sign, c => if c = '0' then some .zero else if c.isDigit then some .int else none
  | .zero, c => if c = '.' then some .point else if c = 'e' ∨ c = 'E' then some .exp else none
  | .int, c =>
      if c.isDigit then some .int
      else if c = '.' then some .point
      else if c = 'e' ∨ c = 'E' then some .exp
      else none
  | .point, c => if c.isDigit then some .frac else none
  | .frac, c =>
      if c.isDigit then some .frac else if c = 'e' ∨ c = 'E' then some .exp else none
  | .exp, c =>
      if c = '+' ∨ c = '-' then some .expSign
      else if c.isDigit then some .expDigits
      else none
  | .expSign, c => if c.isDigit then some .expDigits else none
  | .expDigits, c => if c.isDigit then some .expDigits else none

/-- A number may end here. -/
def NumState.final : NumState → Bool
  | .zero | .int | .frac | .expDigits => true
  | _ => false

/-- Several characters of a number. -/
def numAll : NumState → List Char → Option NumState
  | st, [] => some st
  | st, c :: cs => (numStep st c).bind (fun st => numAll st cs)

/-- The characters numbers are made of. -/
def numChar (c : Char) : Bool :=
  c.isDigit || c == '-' || c == '+' || c == '.' || c == 'e' || c == 'E'

theorem numStep_eq_none (h : numChar c = false) (st : NumState) : numStep st c = none := by
  simp only [numChar, Bool.or_eq_false_iff, beq_eq_false_iff_ne] at h
  obtain ⟨⟨⟨⟨⟨hdigit, hminus⟩, hplus⟩, hpoint⟩, he⟩, hE⟩ := h
  have hzero : c ≠ '0' := by
    rintro rfl
    cases hdigit
  cases st <;> simp [numStep, hdigit, hminus, hplus, hpoint, he, hE, hzero]

/-- A number as it is written. -/
structure NumberLit where
  lexeme : List Char
  valid : (numAll .start lexeme).any NumState.final = true

variable (n : NumberLit)

theorem NumberLit.accepted : ∃ st, numAll .start n.lexeme = some st := by
  have hvalid := n.valid
  cases hall : numAll .start n.lexeme with
  | none =>
      rw [hall] at hvalid
      cases hvalid
  | some st => exact ⟨st, rfl⟩

/-- Read as far as the number goes. -/
def readNumber : NumState → List Char → List Char × List Char
  | _, [] => ([], [])
  | st, c :: rest =>
      match numStep st c with
      | none => ([], c :: rest)
      | some st => (c :: (readNumber st rest).1, (readNumber st rest).2)

/-- What follows does not continue a number. -/
def Delimited (rest : List Char) : Prop := ∀ c ∈ rest.head?, numChar c = false

theorem delimited_nil : Delimited [] := by
  intro c hc
  cases hc

theorem delimited_cons (h : numChar c = false) (rest : List Char) : Delimited (c :: rest) := by
  intro d hd
  cases hd
  exact h

/-- **A NUMBER IS READ WHOLE**, if what follows does not continue it. -/
theorem readNumber_append {st st' : NumState} (h : numAll st cs = some st') {rest : List Char}
    (hrest : Delimited rest) : readNumber st (cs ++ rest) = (cs, rest) := by
  induction cs generalizing st with
  | nil =>
      cases rest with
      | nil => rfl
      | cons c rest =>
          show (match numStep st c with | none => _ | some _ => _) = _
          rw [numStep_eq_none (hrest c rfl)]
  | cons c cs ih =>
      obtain ⟨st₁, hc, hcs⟩ := Option.bind_eq_some_iff.mp h
      show (match numStep st c with | none => _ | some _ => _) = _
      rw [hc]
      show (c :: (readNumber st₁ (cs ++ rest)).1, (readNumber st₁ (cs ++ rest)).2) = _
      rw [ih hcs]

def readNumberLit (cs : List Char) : Option (NumberLit × List Char) :=
  if h : (numAll .start (readNumber .start cs).1).any NumState.final = true then
    some (⟨_, h⟩, (readNumber .start cs).2)
  else none

theorem readNumberLit_append {rest : List Char} (hrest : Delimited rest) :
    readNumberLit (n.lexeme ++ rest) = some (n, rest) := by
  obtain ⟨st, hall⟩ := n.accepted
  have hread := readNumber_append hall hrest
  unfold readNumberLit
  rw [dif_pos (by rw [hread]; exact n.valid)]
  simp only [hread]

/-! ## Values -/

inductive Json where
  | null
  | bool (b : Bool)
  | num (n : NumberLit)
  | str (s : StringLit)
  | arr (vs : List Json)
  | obj (members : List (StringLit × Json))

/-- Texts with commas between them, and one before them unless they are the
    first. -/
def items (first : Bool) : List (List Char) → List Char
  | [] => []
  | t :: ts => (if first then [] else [',']) ++ t ++ items false ts

/-- Texts with commas between them, in brackets. -/
def bracket (opening closing : Char) (texts : List (List Char)) : List Char :=
  opening :: (items true texts ++ [closing])

/-- A literal in its quotes. -/
def StringLit.quoted (s : StringLit) : List Char := '"' :: (s.raw ++ ['"'])

mutual

/-- The text of a value, without whitespace. -/
def render : Json → List Char
  | .null => ['n', 'u', 'l', 'l']
  | .bool true => ['t', 'r', 'u', 'e']
  | .bool false => ['f', 'a', 'l', 's', 'e']
  | .num n => n.lexeme
  | .str s => s.quoted
  | .arr vs => bracket '[' ']' (renders vs)
  | .obj members => bracket '{' '}' (renderMembers members)

def renders : List Json → List (List Char)
  | [] => []
  | v :: vs => render v :: renders vs

def renderMembers : List (StringLit × Json) → List (List Char)
  | [] => []
  | (key, v) :: rest => (key.quoted ++ ':' :: render v) :: renderMembers rest

end

/-! ## The reader -/

def isSpace (c : Char) : Bool := c == ' ' || c == '\n' || c == '\t' || c == '\r'

def skipSpace (cs : List Char) : List Char := cs.dropWhile isSpace

theorem skipSpace_cons (h : isSpace c = false) (cs : List Char) :
    skipSpace (c :: cs) = c :: cs := by
  unfold skipSpace
  rw [List.dropWhile_cons_of_neg (by rw [h]; exact Bool.false_ne_true)]

theorem skipSpace_space (h : isSpace c = true) (cs : List Char) :
    skipSpace (c :: cs) = skipSpace cs :=
  List.dropWhile_cons_of_pos h

/-- The rest after this word. -/
def expect (word : List Char) (cs : List Char) : Option (List Char) :=
  if cs.take word.length = word then some (cs.drop word.length) else none

theorem expect_append (word rest : List Char) : expect word (word ++ rest) = some rest := by
  unfold expect
  rw [List.take_left, if_pos rfl, List.drop_left]

/-- Items separated by commas, up to the closing character; the number bounds
    how many there are. -/
def sepBy {α : Type} (item : List Char → Option (α × List Char)) (closing : Char) :
    Nat → List Char → Option (List α × List Char)
  | 0, _ => none
  | n + 1, cs =>
      match item cs with
      | some (a, c :: rest) =>
          if c = closing then some ([a], rest)
          else if c = ',' then (sepBy item closing n rest).map (fun r => (a :: r.1, r.2))
          else none
      | _ => none

/-- A bracketed list, after its opening character. -/
def readList {α : Type} (item : List Char → Option (α × List Char)) (closing : Char)
    (cs : List Char) : Option (List α × List Char) :=
  match sepBy item closing cs.length cs with
  | some r => some r
  | none => (expect [closing] (skipSpace cs)).map (fun rest => ([], rest))

/-- A member of an object, whose value is read by `value`. -/
def readMember (value : List Char → Option (Json × List Char)) (cs : List Char) :
    Option ((StringLit × Json) × List Char) :=
  match skipSpace cs with
  | '"' :: rest =>
      match readStringLit rest with
      | none => none
      | some (key, rest) =>
          match skipSpace rest with
          | ':' :: rest => (value rest).map (fun r => ((key, r.1), r.2))
          | _ => none
  | _ => none

/-- A value that starts here, with the values inside it read by `value`. -/
def readForm (value : List Char → Option (Json × List Char)) :
    List Char → Option (Json × List Char)
  | '[' :: rest => (readList value ']' rest).map (fun r => (.arr r.1, r.2))
  | '{' :: rest => (readList (readMember value) '}' rest).map (fun r => (.obj r.1, r.2))
  | '"' :: rest => (readStringLit rest).map (fun r => (.str r.1, r.2))
  | 't' :: rest => (expect ['r', 'u', 'e'] rest).map (fun r => (.bool true, r))
  | 'f' :: rest => (expect ['a', 'l', 's', 'e'] rest).map (fun r => (.bool false, r))
  | 'n' :: rest => (expect ['u', 'l', 'l'] rest).map (fun r => (.null, r))
  | cs => (readNumberLit cs).map (fun r => (.num r.1, r.2))

/-- A value, with the whitespace around it; the number bounds its depth. -/
def readValue : Nat → List Char → Option (Json × List Char)
  | 0, _ => none
  | fuel + 1, cs =>
      (readForm (readValue fuel) (skipSpace cs)).map (fun r => (r.1, skipSpace r.2))

/-- The value of a text. -/
def parse (cs : List Char) : Option Json :=
  match readValue cs.length cs with
  | some (v, []) => some v
  | _ => none

/-! ## What is a text of a value -/

/-- **TEXTS OF A VALUE**: the reader takes them for the value, whatever
    follows. -/
def IsText (v : Json) (cs : List Char) : Prop :=
  ∀ fuel rest, cs.length ≤ fuel → Delimited rest →
    readValue fuel (cs ++ rest) = some (v, skipSpace rest)

theorem IsText.parse {v : Json} {cs : List Char} (h : IsText v cs) :
    JsonText.parse cs = some v := by
  have hread := h cs.length [] (le_refl _) delimited_nil
  rw [List.append_nil] at hread
  unfold JsonText.parse
  rw [hread]
  rfl

variable {v : Json}

/-- Whitespace may follow. -/
theorem IsText.space (h : IsText v cs) (hc : isSpace c = true) : IsText v (cs ++ [c]) := by
  intro fuel rest hfuel _
  have hnum : numChar c = false := by
    simp only [isSpace, Bool.or_eq_true, beq_iff_eq] at hc
    rcases hc with ((rfl | rfl) | rfl) | rfl <;> rfl
  rw [List.length_append] at hfuel
  rw [List.append_assoc, List.singleton_append,
    h fuel (c :: rest) (by omega) (delimited_cons hnum rest), skipSpace_space hc]

/-- A text that is not empty and does not start with whitespace is read by its
    form. -/
theorem isText_of_form (hc : isSpace c = false)
    (h : ∀ fuel rest, cs.length ≤ fuel → Delimited rest →
      readForm (readValue fuel) (c :: (cs ++ rest)) = some (v, rest)) :
    IsText v (c :: cs) := by
  intro fuel rest hfuel hrest
  cases fuel with
  | zero => exact absurd hfuel (Nat.not_succ_le_zero _)
  | succ fuel =>
      show (readForm (readValue fuel) (skipSpace (c :: (cs ++ rest)))).map _ = _
      rw [skipSpace_cons hc, h fuel rest (Nat.le_of_succ_le_succ hfuel) hrest]
      rfl

/-- A word that is told by its first letter. -/
theorem isText_word {word : List Char} (hc : isSpace c = false)
    (hform : ∀ value rest, readForm value (c :: rest) =
      (expect word rest).map (fun r => (v, r))) : IsText v (c :: word) := by
  refine isText_of_form hc ?_
  intro fuel rest _ _
  rw [hform, expect_append]
  rfl

theorem isText_null : IsText .null ['n', 'u', 'l', 'l'] := isText_word rfl (fun _ _ => rfl)

theorem isText_true : IsText (.bool true) ['t', 'r', 'u', 'e'] :=
  isText_word rfl (fun _ _ => rfl)

theorem isText_false : IsText (.bool false) ['f', 'a', 'l', 's', 'e'] :=
  isText_word rfl (fun _ _ => rfl)

theorem isText_str (s : StringLit) : IsText (.str s) s.quoted := by
  refine isText_of_form rfl ?_
  intro fuel rest _ _
  show (readStringLit ((s.raw ++ ['"']) ++ rest)).map _ = _
  rw [List.append_assoc, List.singleton_append, readStringLit_append]
  rfl

/-- A number starts with a sign or a digit. -/
theorem NumberLit.head (n : NumberLit) :
    ∃ c cs, n.lexeme = c :: cs ∧ (c = '-' ∨ c.isDigit = true) := by
  have hvalid := n.valid
  cases hlex : n.lexeme with
  | nil =>
      rw [hlex] at hvalid
      cases hvalid
  | cons c cs =>
      refine ⟨c, cs, rfl, ?_⟩
      by_contra hnot
      simp only [not_or, Bool.not_eq_true] at hnot
      have hzero : c ≠ '0' := by
        rintro rfl
        cases hnot.2
      have hnone : numStep .start c = none := by
        simp [numStep, hnot.1, hnot.2, hzero]
      rw [hlex] at hvalid
      simp [numAll, hnone] at hvalid

theorem isText_num (n : NumberLit) : IsText (.num n) n.lexeme := by
  obtain ⟨c, cs, hlex, hc⟩ := n.head
  rw [hlex]
  have hother : ∀ d, (d == '-' || d.isDigit) = false → c ≠ d := by
    rintro d hd rfl
    rcases hc with rfl | hdigit
    · cases hd
    · rw [hdigit, Bool.or_true] at hd
      cases hd
  refine isText_of_form ?_ ?_
  · simp [isSpace, hother ' ' rfl, hother '\n' rfl, hother '\t' rfl, hother '\r' rfl]
  · intro fuel rest _ hrest
    have hform : readForm (readValue fuel) (c :: (cs ++ rest)) =
        (readNumberLit (c :: (cs ++ rest))).map (fun r => (.num r.1, r.2)) := by
      unfold readForm
      split <;> simp_all
    rw [hform, ← List.cons_append, ← hlex, readNumberLit_append n hrest]
    rfl

/-! ## Lists -/

/-- Every item after the first has its comma. -/
theorem length_le_items (ts : List (List Char)) : ts.length ≤ (items false ts).length := by
  induction ts with
  | nil => exact le_refl _
  | cons t ts ih =>
      simp only [items, List.length_append, List.length_cons]
      simp only [Bool.false_eq_true, if_false, List.length_singleton]
      omega

theorem length_mem_items {t : List Char} {ts : List (List Char)} (h : t ∈ ts) (first : Bool) :
    t.length ≤ (items first ts).length := by
  induction ts generalizing first with
  | nil => exact absurd h List.not_mem_nil
  | cons u us ih =>
      simp only [items, List.length_append]
      rcases List.mem_cons.mp h with rfl | h
      · omega
      · have := ih h false
        omega

/-- The reader of items takes `t` for `a`, whatever follows. -/
def Reads {α : Type} (item : List Char → Option (α × List Char)) (a : α) (t : List Char) : Prop :=
  ∀ rest, Delimited rest → item (t ++ rest) = some (a, skipSpace rest)

/-- What closes a list: no item starts with it. -/
structure Closing {α : Type} (item : List Char → Option (α × List Char)) (c : Char) : Prop where
  notSpace : isSpace c = false
  notNum : numChar c = false
  notComma : c ≠ ','
  notItem : ∀ rest, item (c :: rest) = none

section
variable {α : Type} {item : List Char → Option (α × List Char)} {closing : Char}

/-- **ITEMS ARE READ ONE BY ONE**, each up to its comma. -/
theorem sepBy_items (hclosing : Closing item closing) (rest : List Char) {as : List α}
    {ts : List (List Char)} (h : List.Forall₂ (Reads item) as ts) :
    ∀ {a : α} {t : List Char}, Reads item a t → ∀ n, ts.length < n →
      sepBy item closing n (t ++ (items false ts ++ closing :: rest)) =
        some (a :: as, rest) := by
  induction h with
  | nil =>
      intro a t ha n hn
      obtain ⟨n, rfl⟩ := Nat.exists_eq_succ_of_ne_zero (Nat.ne_zero_of_lt hn)
      show (match item (t ++ closing :: rest) with | some (_, _ :: _) => _ | _ => _) = _
      rw [ha _ (delimited_cons hclosing.notNum rest), skipSpace_cons hclosing.notSpace]
      exact if_pos rfl
  | @cons b u bs us hb _ ih =>
      intro a t ha n hn
      obtain ⟨n, rfl⟩ := Nat.exists_eq_succ_of_ne_zero (Nat.ne_zero_of_lt hn)
      have hitems : items false (u :: us) ++ closing :: rest =
          ',' :: (u ++ (items false us ++ closing :: rest)) := by
        simp [items]
      rw [hitems]
      show (match item (t ++ ',' :: _) with | some (_, _ :: _) => _ | _ => _) = _
      rw [ha _ (delimited_cons rfl _), skipSpace_cons rfl]
      show (if ',' = closing then _ else if ',' = ',' then
        (sepBy item closing n _).map _ else _) = _
      rw [if_neg (Ne.symm hclosing.notComma), if_pos rfl, ih hb n (Nat.lt_of_succ_lt_succ hn)]
      rfl

/-- Items that are read if they are no longer than this are read. -/
theorem forall₂_reads {R : α → List Char → Prop} {n : Nat}
    (hread : ∀ a t, t.length ≤ n → R a t → Reads item a t) {as : List α}
    {ts : List (List Char)} (h : List.Forall₂ R as ts) (hlen : ∀ t ∈ ts, t.length ≤ n) :
    List.Forall₂ (Reads item) as ts := by
  induction h with
  | nil => exact .nil
  | cons ha _ ih =>
      rw [List.forall_mem_cons] at hlen
      exact .cons (hread _ _ hlen.1 ha) (ih hlen.2)

/-- A list is read whole, up to its closing character. -/
theorem readList_items (hclosing : Closing item closing) (rest : List Char) {as : List α}
    {ts : List (List Char)} (h : List.Forall₂ (Reads item) as ts) :
    readList item closing (items true ts ++ closing :: rest) = some (as, rest) := by
  unfold readList
  cases h with
  | nil =>
      have hnone : sepBy item closing (closing :: rest).length (closing :: rest) = none := by
        show (match item (closing :: rest) with | some (_, _ :: _) => _ | _ => _) = _
        rw [hclosing.notItem]
      show (match sepBy item closing (closing :: rest).length (closing :: rest) with
        | some r => some r | none => _) = _
      rw [hnone]
      show (expect [closing] (skipSpace (closing :: rest))).map _ = _
      rw [skipSpace_cons hclosing.notSpace]
      exact congrArg (Option.map _) (expect_append [closing] rest)
  | @cons a t as ts ha hts =>
      have hitems : items true (t :: ts) ++ closing :: rest =
          t ++ (items false ts ++ closing :: rest) := by
        simp [items]
      have hlen := length_le_items ts
      rw [hitems, sepBy_items hclosing rest hts ha]
      simp only [List.length_append, List.length_cons]
      omega

end

/-- No value starts with a closing bracket. -/
theorem closing_readValue (fuel : Nat) : Closing (readValue fuel) ']' where
  notSpace := rfl
  notNum := rfl
  notComma := by decide
  notItem := by
    intro rest
    cases fuel with
    | zero => rfl
    | succ fuel => rfl

theorem closing_readMember (value : List Char → Option (Json × List Char)) :
    Closing (readMember value) '}' where
  notSpace := rfl
  notNum := rfl
  notComma := by decide
  notItem := fun _ => rfl

/-- **ARRAYS**: bracketed texts of the elements. -/
theorem isText_arr {vs : List Json} {ts : List (List Char)} (h : List.Forall₂ IsText vs ts) :
    IsText (.arr vs) (bracket '[' ']' ts) := by
  refine isText_of_form rfl ?_
  intro fuel rest hfuel _
  have hreads : List.Forall₂ (Reads (readValue fuel)) vs ts := by
    refine forall₂_reads (n := fuel) (fun v t hlen ht rest => ht fuel rest hlen) h ?_
    intro t ht
    exact le_trans (length_mem_items ht true) (le_trans (by simp) hfuel)
  show (readList (readValue fuel) ']' ((items true ts ++ [']']) ++ rest)).map _ = _
  rw [List.append_assoc, List.singleton_append,
    readList_items (closing_readValue fuel) rest hreads]
  rfl

/-- The text of a member of an object. -/
def IsMember (m : StringLit × Json) (cs : List Char) : Prop :=
  ∃ t, IsText m.2 t ∧ cs = m.1.quoted ++ ':' :: t

theorem IsMember.reads {m : StringLit × Json} {cs : List Char} (h : IsMember m cs)
    {fuel : Nat} (hfuel : cs.length ≤ fuel) : Reads (readMember (readValue fuel)) m cs := by
  obtain ⟨t, ht, rfl⟩ := h
  intro rest hrest
  have hlen : t.length ≤ fuel := by
    simp only [List.length_append, List.length_cons] at hfuel
    omega
  have hquoted : (m.1.quoted ++ ':' :: t) ++ rest =
      '"' :: (m.1.raw ++ '"' :: ':' :: (t ++ rest)) := by
    simp [StringLit.quoted]
  rw [hquoted]
  show (match readStringLit (m.1.raw ++ '"' :: ':' :: (t ++ rest)) with
    | none => none | some (key, rest) => _) = _
  rw [readStringLit_append]
  show (readValue fuel (t ++ rest)).map _ = _
  rw [ht fuel rest hlen hrest]
  rfl

/-- **OBJECTS**: bracketed texts of the members. -/
theorem isText_obj {members : List (StringLit × Json)} {ts : List (List Char)}
    (h : List.Forall₂ IsMember members ts) : IsText (.obj members) (bracket '{' '}' ts) := by
  refine isText_of_form rfl ?_
  intro fuel rest hfuel _
  have hreads : List.Forall₂ (Reads (readMember (readValue fuel))) members ts := by
    refine forall₂_reads (n := fuel) (fun m t hlen ht => ht.reads hlen) h ?_
    intro t ht
    exact le_trans (length_mem_items ht true) (le_trans (by simp) hfuel)
  show (readList (readMember (readValue fuel)) '}' ((items true ts ++ ['}']) ++ rest)).map _ = _
  rw [List.append_assoc, List.singleton_append,
    readList_items (closing_readMember (readValue fuel)) rest hreads]
  rfl

mutual

/-- **RENDERING PARSES**: the rendering of a value is a text of it. -/
theorem isText_render : ∀ v : Json, IsText v (render v)
  | .null => isText_null
  | .bool true => isText_true
  | .bool false => isText_false
  | .num n => isText_num n
  | .str s => isText_str s
  | .arr vs => isText_arr (isText_renders vs)
  | .obj members => isText_obj (isMember_renderMembers members)

theorem isText_renders : ∀ vs : List Json, List.Forall₂ IsText vs (renders vs)
  | [] => .nil
  | v :: vs => .cons (isText_render v) (isText_renders vs)

theorem isMember_renderMembers : ∀ members : List (StringLit × Json),
    List.Forall₂ IsMember members (renderMembers members)
  | [] => .nil
  | (_, v) :: rest => .cons ⟨render v, isText_render v, rfl⟩ (isMember_renderMembers rest)

end

theorem parse_render (v : Json) : parse (render v) = some v := (isText_render v).parse

/-! ## Escaping -/

/-- The characters that are written with an escape so that a text can be
    embedded in HTML and in scripts. -/
def isHtml (c : Char) : Bool :=
  c == '<' || c == '>' || c == '&' || c == '\u2028' || c == '\u2029'

/-- A character as `\u` and four hexadecimal digits. -/
def unicode (c : Char) : List Char :=
  '\\' :: 'u' :: [c.toNat / 4096 % 16, c.toNat / 256 % 16, c.toNat / 16 % 16, c.toNat % 16].map
    Nat.digitChar

theorem isHex_digitChar {n : Nat} (h : n < 16) : isHex n.digitChar = true := by
  interval_cases n <;> rfl

theorem scanAll_unicode (c : Char) : scanAll .plain (unicode c) = some .plain := by
  have hdigit : ∀ k, isHex (Nat.digitChar (k % 16)) = true :=
    fun k => isHex_digitChar (Nat.mod_lt k (by decide))
  simp [unicode, scanAll, scan, hdigit]

/-- A character of a literal, with what HTML would read as markup escaped. -/
def htmlPiece (c : Char) : List Char := if isHtml c then unicode c else [c]

theorem scan_html (hc : isHtml c = true) (h : scan st c = some st') :
    st = .plain ∧ st' = .plain := by
  simp only [isHtml, Bool.or_eq_true, beq_iff_eq] at hc
  rcases hc with (((rfl | rfl) | rfl) | rfl) | rfl <;> cases st <;> cases h <;> exact ⟨rfl, rfl⟩

theorem scanAll_htmlPiece {raw : List Char} (h : scanAll st raw = some st') :
    scanAll st (raw.flatMap htmlPiece) = some st' := by
  induction raw generalizing st with
  | nil => exact h
  | cons c raw ih =>
      obtain ⟨st₁, hc, hraw⟩ := Option.bind_eq_some_iff.mp h
      rw [List.flatMap_cons]
      cases hhtml : isHtml c with
      | true =>
          obtain ⟨rfl, rfl⟩ := scan_html hhtml hc
          rw [htmlPiece, if_pos hhtml, scanAll_append (scanAll_unicode c)]
          exact ih hraw
      | false =>
          rw [htmlPiece, hhtml, if_neg Bool.false_ne_true, List.singleton_append]
          show (scan st c).bind _ = _
          rw [hc]
          exact ih hraw

def StringLit.escapeHtml (s : StringLit) : StringLit := ⟨_, scanAll_htmlPiece s.valid⟩

mutual

/-- The value with every literal escaped. -/
def Json.escapeHtml : Json → Json
  | .str s => .str s.escapeHtml
  | .arr vs => .arr (escapeHtmls vs)
  | .obj members => .obj (escapeHtmlMembers members)
  | v => v

def escapeHtmls : List Json → List Json
  | [] => []
  | v :: vs => v.escapeHtml :: escapeHtmls vs

def escapeHtmlMembers : List (StringLit × Json) → List (StringLit × Json)
  | [] => []
  | (key, v) :: rest => (key.escapeHtml, v.escapeHtml) :: escapeHtmlMembers rest

end

/-! ## Literals of strings and integers -/

/-- A character of a string, as a literal has it. -/
def piece (c : Char) : List Char :=
  if c = '"' ∨ c = '\\' then ['\\', c]
  else if c = '\n' then ['\\', 'n']
  else if c = '\r' then ['\\', 'r']
  else if c = '\t' then ['\\', 't']
  else if c.toNat < 0x20 ∨ isHtml c = true then unicode c
  else [c]

theorem scanAll_piece (c : Char) : scanAll .plain (piece c) = some .plain := by
  unfold piece
  split
  · next h => rcases h with rfl | rfl <;> rfl
  · next hquote =>
      split
      · rfl
      · split
        · rfl
        · split
          · rfl
          · split
            · exact scanAll_unicode c
            · next hplain =>
                rw [not_or] at hquote hplain
                simp [scanAll, scan, hquote.1, hquote.2, hplain.1]

/-- The literal of a string. -/
def StringLit.ofString (s : String) : StringLit := .ofPieces piece scanAll_piece s.toList

/-- Digits go on a number. -/
theorem numAll_digits {ds : List Char} (h : ∀ d ∈ ds, d.isDigit = true) :
    numAll .int ds = some .int := by
  induction ds with
  | nil => rfl
  | cons d ds ih =>
      rw [List.forall_mem_cons] at h
      show (numStep .int d).bind _ = _
      rw [numStep, if_pos h.1]
      exact ih h.2

/-- The digits of a positive number do not start with a zero. -/
theorem toDigits_head {n : Nat} (h : n ≠ 0) : ∃ d ds, Nat.toDigits 10 n = d :: ds ∧ d ≠ '0' := by
  induction n using Nat.strong_induction_on with
  | _ n ih =>
      by_cases hlt : n < 10
      · refine ⟨n.digitChar, [], Nat.toDigits_of_lt_base hlt, ?_⟩
        interval_cases n <;> simp_all
      · obtain ⟨d, ds, hdigits, hd⟩ := ih (n / 10) (by omega) (by omega)
        refine ⟨d, ds ++ [(n % 10).digitChar], ?_, hd⟩
        rw [Nat.toDigits_of_base_le (by decide) (by omega), hdigits]
        rfl

/-- Decimal digits are a number, after a sign too. -/
theorem numAll_toDigits {st : NumState} (hst : st = .start ∨ st = .sign) (n : Nat) :
    (numAll st (Nat.toDigits 10 n)).any NumState.final = true := by
  by_cases hzero : n = 0
  · subst hzero
    rcases hst with rfl | rfl <;> rfl
  · obtain ⟨d, ds, hdigits, hd⟩ := toDigits_head hzero
    have hall : ∀ c ∈ d :: ds, c.isDigit = true := by
      rw [← hdigits]
      exact fun c hc => Nat.isDigit_of_mem_toDigits (by decide) (by decide) hc
    rw [List.forall_mem_cons] at hall
    have hminus : d ≠ '-' := by
      rintro rfl
      cases hall.1
    have hstep : numStep st d = some .int := by
      rcases hst with rfl | rfl <;> simp [numStep, hd, hminus, hall.1]
    rw [hdigits]
    show ((numStep st d).bind _).any _ = _
    rw [hstep]
    show (numAll .int ds).any _ = _
    rw [numAll_digits hall.2]
    rfl

/-- The literal of a natural number. -/
def NumberLit.ofNat (n : Nat) : NumberLit where
  lexeme := Nat.toDigits 10 n
  valid := numAll_toDigits (Or.inl rfl) n

/-- The literal of an integer. -/
def NumberLit.ofInt : Int → NumberLit
  | .ofNat n => .ofNat n
  | .negSucc n => ⟨'-' :: Nat.toDigits 10 (n + 1), numAll_toDigits (Or.inr rfl) (n + 1)⟩

/-- The characters of numbers need no escape. -/
theorem scan_of_numChar {c : Char} (h : numChar c = true) : scan .plain c = some .plain := by
  by_cases hdigit : c.isDigit = true
  · have hle : '0'.toNat ≤ c.toNat := (Char.isDigit_iff_toNat.mp hdigit).1
    have hbackslash : c ≠ '\\' := by
      rintro rfl
      cases hdigit
    have hquote : c ≠ '"' := by
      rintro rfl
      cases hdigit
    have hctrl : ¬ c.toNat < 0x20 := Nat.not_lt.mpr (le_trans (by decide) hle)
    simp [scan, hbackslash, hquote, hctrl]
  · simp only [numChar, hdigit, Bool.or_eq_true, beq_iff_eq, Bool.false_eq_true, false_or] at h
    rcases h with (((rfl | rfl) | rfl) | rfl) | rfl <;> rfl

theorem scanAll_of_numAll {st st' : NumState} (h : numAll st cs = some st') :
    scanAll .plain cs = some .plain := by
  induction cs generalizing st with
  | nil => rfl
  | cons c cs ih =>
      obtain ⟨st₁, hc, hcs⟩ := Option.bind_eq_some_iff.mp h
      have hnum : numChar c = true := by
        by_contra hnot
        rw [numStep_eq_none (Bool.eq_false_iff.mpr hnot)] at hc
        cases hc
      show (scan .plain c).bind _ = _
      rw [scan_of_numChar hnum]
      exact ih hcs

/-- A number as a string. -/
def NumberLit.toStringLit (n : NumberLit) : StringLit where
  raw := n.lexeme
  valid := n.accepted.elim (fun _ h => scanAll_of_numAll h)

end JsonText
