import Mathlib.Tactic

/-! # The Prometheus text exposition format

    A line of the format is a metric name, labels in braces, a value and a
    timestamp.  `parseLine` reads one: names are what the format allows as names,
    a label value ends at the next quote that is not escaped, and the escapes of
    it are undone; the value is a number as `ParseFloat` of Go reads them, within the
    range of a `float64`, and the timestamp a 64-bit integer.

    `renderLine` writes a sample without any escapes.  `parseLine_renderLine_iff`
    is the condition for this to be read back as it was. -/

namespace Exposition

/-! ## The format -/

/-- A line, as read. -/
structure Sample where
  name : List Char
  labels : List (List Char × List Char)
  value : List Char
  timestamp : Option Int
  deriving DecidableEq

variable {rest : List Char} {l : List Char × List Char} {ls : List (List Char × List Char)}
  (c : Char) (s : List Char)

def isBlank (c : Char) : Bool := c = ' ' || c = '\t'

def isNameChar (c : Char) : Bool := c.isAlphanum || c = '_' || c = ':'

def isLabelChar (c : Char) : Bool := c.isAlphanum || c = '_'

/-- Names do not begin with a digit, and are not empty; which characters they have
    is up to where they stand. -/
def isName : List Char → Bool
  | [] => false
  | c :: _ => !c.isDigit

def isDigits (s : List Char) : Bool := !s.isEmpty && s.all Char.isDigit

def dropSign : List Char → List Char
  | '+' :: r => r
  | '-' :: r => r
  | r => r

/-- An exponent, or nothing. -/
def isExponent : List Char → Bool
  | [] => true
  | e :: d => (e = 'e' || e = 'E') && isDigits (dropSign d)

/-- A decimal number without its sign: digits, digits behind a point, and an
    exponent. -/
structure Decimal where
  whole : List Char
  fraction : List Char
  exponent : List Char

def readDecimal (s : List Char) : Decimal :=
  match s.dropWhile Char.isDigit with
  | '.' :: r => ⟨s.takeWhile Char.isDigit, r.takeWhile Char.isDigit, r.dropWhile Char.isDigit⟩
  | r => ⟨s.takeWhile Char.isDigit, [], r⟩

variable {name : List Char}

def Decimal.WellFormed (d : Decimal) : Bool :=
  (!d.whole.isEmpty || !d.fraction.isEmpty) && isExponent d.exponent

/-- The exponent as `ParseFloat` accumulates it; from 10000 on further digits are
    passed over. -/
def Decimal.power (d : Decimal) : Int :=
  let digits := dropSign (d.exponent.drop 1)
  let n : Nat := digits.foldl (fun n c => if n < 10000 then 10 * n + (c.toNat - '0'.toNat) else n) 0
  if d.exponent[1]? = some '-' then -n else n

/-- The middle of the largest `float64` and the one that would be next. -/
def float64Bound : Nat := 2 ^ 1024 - 2 ^ 970

/-- A number that rounds to a finite `float64`. -/
def Decimal.InRange (d : Decimal) : Bool :=
  let mantissa := Nat.ofDigitChars 10 (d.whole ++ d.fraction) 0
  let power := d.power - d.fraction.length
  mantissa * 10 ^ power.toNat < float64Bound * 10 ^ (-power).toNat

/-- A number that `ParseFloat` reads: a decimal one in the range of a `float64`, an
    infinity, or not a number. -/
def isFloat (s : List Char) : Bool :=
  ((readDecimal (dropSign s)).WellFormed && (readDecimal (dropSign s)).InRange)
    || (dropSign s).map Char.toLower = "inf".toList
    || (dropSign s).map Char.toLower = "infinity".toList
    || s.map Char.toLower = "nan".toList

example : isFloat "-1.797e308".toList ∧ ¬ isFloat "1e999".toList ∧ isFloat "1e-999".toList := by
  decide +kernel

/-- A signed 64-bit integer. -/
def readTimestamp (s : List Char) : Option Int :=
  let n : Int := Nat.ofDigitChars 10 (dropSign s) 0
  let n := if s.head? = some '-' then -n else n
  if isDigits (dropSign s) ∧ -2 ^ 63 ≤ n ∧ n < 2 ^ 63 then some n else none

/-- The words of a line. -/
def tokens (s : List Char) : List (List Char) :=
  (s.splitOnP isBlank).filter (fun w => !w.isEmpty)

/-- What stands behind the labels: a value, and perhaps a timestamp. -/
def readSample (name : List Char) (labels : List (List Char × List Char)) (s : List Char) :
    Option Sample :=
  match tokens s with
  | [v] => if isFloat v then some ⟨name, labels, v, none⟩ else none
  | [v, t] =>
      if isFloat v then (readTimestamp t).map (fun ts => ⟨name, labels, v, some ts⟩) else none
  | _ => none

/-- The character an escape stands for. -/
def unescape (c : Char) : Option Char :=
  if c = '\\' then some '\\' else if c = '"' then some '"' else if c = 'n' then some '\n'
  else none

/-- A label value up to the closing quote, behind a backslash or not, and what
    follows the quote. -/
def readValueFrom : Bool → List Char → Option (List Char × List Char)
  | _, [] => none
  | true, e :: rest =>
      (unescape e).bind (fun u => (readValueFrom false rest).map (fun r => (u :: r.1, r.2)))
  | false, c :: rest =>
      if c = '"' then some ([], rest)
      else if c = '\\' then readValueFrom true rest
      else (readValueFrom false rest).map (fun r => (c :: r.1, r.2))

/-- A label value behind its opening quote. -/
def readValue (s : List Char) : Option (List Char × List Char) := readValueFrom false s

/-- A label and what follows it. -/
def readLabel (s : List Char) : Option ((List Char × List Char) × List Char) :=
  if isName (s.takeWhile isLabelChar) then
    match (s.dropWhile isLabelChar).dropWhile isBlank with
    | '=' :: r =>
        match r.dropWhile isBlank with
        | '"' :: r => (readValue r).map (fun p => ((s.takeWhile isLabelChar, p.1), p.2))
        | _ => none
    | _ => none
  else none

/-- At most so many labels, up to the closing brace. -/
def readLabels : Nat → List Char → Option (List (List Char × List Char) × List Char)
  | 0, _ => none
  | n + 1, s =>
      match s.dropWhile isBlank with
      | '}' :: rest => some ([], rest)
      | s =>
          match readLabel s with
          | none => none
          | some (l, rest) =>
              match rest.dropWhile isBlank with
              | '}' :: rest => some ([l], rest)
              | ',' :: rest => (readLabels n rest).map (fun r => (l :: r.1, r.2))
              | _ => none

/-- A line without its line feed. -/
def parseLine (s : List Char) : Option Sample :=
  let s := s.dropWhile isBlank
  let name := s.takeWhile isNameChar
  let rest := s.dropWhile isNameChar
  if isName name then
    match rest.dropWhile isBlank with
    | '{' :: r => (readLabels r.length r).bind (fun p => readSample name p.1 p.2)
    | r => if rest.head?.any isBlank then readSample name [] r else none
  else none

example : parseLine "up\x7bjob=\"a\\\"b\", x=\"1\",\x7d -1.5e3 17".toList
    = some ⟨"up".toList, [("job".toList, "a\"b".toList), ("x".toList, "1".toList)],
        "-1.5e3".toList, some 17⟩ := by decide +kernel

/-! ## Label values -/

/-- The characters that have to be escaped in a label value. -/
def Plain (v : List Char) : Prop := ∀ c ∈ v, c ≠ '"' ∧ c ≠ '\\'

/-- A plain value is read as it stands. -/
theorem readValue_plain {v : List Char} (hv : Plain v) (rest : List Char) :
    readValue (v ++ '"' :: rest) = some (v, rest) := by
  induction v with
  | nil => rfl
  | cons c v ih =>
      obtain ⟨⟨hq, hb⟩, hv⟩ := List.forall_mem_cons.mp hv
      rw [List.cons_append, readValue, readValueFrom, if_neg hq, if_neg hb, ← readValue, ih hv]
      rfl

/-- An escape that is read as a backslash is an escaped backslash. -/
theorem unescape_eq_backslash {e : Char} (h : unescape e = some '\\') : e = '\\' := by
  unfold unescape at h
  split at h
  · assumption
  · split at h
    · exact absurd (Option.some.inj h) (by decide)
    · split at h
      · exact absurd (Option.some.inj h) (by decide)
      · cases h

/-- What is read when the value is to begin with a backslash: two of them. -/
theorem readValue_backslash {s v : List Char} (h : readValue s = some ('\\' :: v, rest)) :
    ∃ s', s = '\\' :: '\\' :: s' ∧ readValue s' = some (v, rest) := by
  cases s with
  | nil => cases h
  | cons c s =>
      rw [readValue, readValueFrom] at h
      split at h
      · cases h
      · split at h
        · next hc =>
            subst hc
            cases s with
            | nil => cases h
            | cons e s =>
                obtain ⟨u, hu, hread⟩ := Option.bind_eq_some_iff.mp h
                obtain ⟨r, hr, hpair⟩ := Option.map_eq_some_iff.mp hread
                obtain ⟨v', rest'⟩ := r
                cases hpair
                rw [unescape_eq_backslash hu]
                exact ⟨s, rfl, hr⟩
        · next hc =>
            obtain ⟨r, hr, hpair⟩ := Option.map_eq_some_iff.mp h
            cases hpair
            exact absurd rfl hc

/-- Each backslash read takes two of the text, so that a text cannot be read as
    itself with backslashes before it. -/
theorem readValue_ne_backslashes (rest rest' : List Char) :
    ∀ (n : Nat) (v : List Char) (k : Nat), v.length ≤ n →
      readValue (v ++ '"' :: rest) ≠ some (List.replicate (k + 1) '\\' ++ v, rest') := by
  intro n
  induction n with
  | zero =>
      intro v k hlen h
      obtain rfl := List.eq_nil_of_length_eq_zero (Nat.le_zero.mp hlen)
      exact absurd (congrArg List.length (congrArg Prod.fst (Option.some.inj h))) (by simp)
  | succ n ih =>
      intro v k hlen h
      rw [List.replicate_succ, List.cons_append] at h
      obtain ⟨s, hs, hread⟩ := readValue_backslash h
      rcases v with _ | ⟨c, _ | ⟨d, w⟩⟩
      · cases hs
      · exact absurd hs (by simp)
      · rw [List.cons_append, List.cons_append] at hs
        injection hs with hc hs
        injection hs with hd hs
        subst hc hd hs
        refine ih w (k + 1) (by simp only [List.length_cons] at hlen; omega) ?_
        rw [hread, List.replicate_succ', List.replicate_succ']
        simp

/-- **ONLY PLAIN VALUES READ AS THEMSELVES**. -/
theorem plain_of_readValue {rest rest' : List Char} :
    ∀ {v : List Char}, readValue (v ++ '"' :: rest) = some (v, rest') → Plain v := by
  intro v
  induction v with
  | nil => exact fun _ _ hc => absurd hc List.not_mem_nil
  | cons c v ih =>
      intro h
      rw [List.cons_append] at h
      by_cases hb : c = '\\'
      · subst hb
        obtain ⟨s, hs, hread⟩ := readValue_backslash h
        injection hs with _ hs
        rcases v with _ | ⟨d, w⟩
        · exact absurd hs (by simp)
        · rw [List.cons_append] at hs
          injection hs with hd hs
          subst hd hs
          exact absurd hread (readValue_ne_backslashes rest rest' w.length w 0 (Nat.le_refl _))
      · by_cases hq : c = '"'
        · subst hq
          cases h
        · rw [readValue, readValueFrom, if_neg hq, if_neg hb] at h
          obtain ⟨r, hr, hpair⟩ := Option.map_eq_some_iff.mp h
          obtain ⟨v', rest''⟩ := r
          cases hpair
          exact List.forall_mem_cons.mpr ⟨⟨hq, hb⟩, ih hr⟩

/-! ## Labels -/

/-- A label written without escapes. -/
def renderLabel (l : List Char × List Char) : List Char :=
  l.1 ++ '=' :: '"' :: (l.2 ++ ['"'])

/-- Labels behind the first one. -/
def renderMore (ls : List (List Char × List Char)) : List Char :=
  ls.flatMap (fun l => ',' :: renderLabel l)

/-- The label consists of what may stand in a label name. -/
def LabelChars (l : List Char × List Char) : Prop := ∀ c ∈ l.1, isLabelChar c = true

/-- A label as the format has them, and without anything to escape. -/
def Readable (l : List Char × List Char) : Prop := isName l.1 = true ∧ Plain l.2

theorem isBlank_of_isNameChar {c : Char} (h : isNameChar c = true) : isBlank c = false := by
  refine Bool.eq_false_iff.mpr fun hblank => ?_
  rcases Bool.or_eq_true_iff.mp hblank with hc | hc
  · rw [of_decide_eq_true hc] at h
    exact absurd h (by decide)
  · rw [of_decide_eq_true hc] at h
    exact absurd h (by decide)

theorem isBlank_of_isLabelChar {c : Char} (h : isLabelChar c = true) :
    isBlank c = false ∧ c ≠ '}' := by
  constructor
  · exact isBlank_of_isNameChar (Bool.or_eq_true_iff.mpr (Or.inl h))
  · rintro rfl
    exact absurd h (by decide)

/-- A label begins with neither a blank nor the closing brace. -/
theorem renderLabel_cons {l : List Char × List Char} (hl : LabelChars l) (rest : List Char) :
    ∃ c s, renderLabel l ++ rest = c :: s ∧ isBlank c = false ∧ c ≠ '}' := by
  obtain ⟨k, v⟩ := l
  cases k with
  | nil => exact ⟨'=', _, rfl, rfl, by decide⟩
  | cons c k => exact ⟨c, _, rfl, isBlank_of_isLabelChar (hl c (List.mem_cons_self ..))⟩

theorem readLabel_render {l : List Char × List Char} (hl : LabelChars l) (rest : List Char) :
    readLabel (renderLabel l ++ rest)
      = if isName l.1 then (readValue (l.2 ++ '"' :: rest)).map (fun p => ((l.1, p.1), p.2))
        else none := by
  have htext : renderLabel l ++ rest = l.1 ++ '=' :: '"' :: (l.2 ++ '"' :: rest) := by
    simp [renderLabel]
  have htake : (renderLabel l ++ rest).takeWhile isLabelChar = l.1 := by
    rw [htext, List.takeWhile_append_of_pos hl]
    exact List.append_nil _
  have hdrop : (renderLabel l ++ rest).dropWhile isLabelChar
      = '=' :: '"' :: (l.2 ++ '"' :: rest) := by
    rw [htext, List.dropWhile_append_of_pos hl]
    rfl
  rw [readLabel, htake, hdrop]
  rfl

/-- One round of `readLabels` on a label. -/
theorem readLabels_render (hl : LabelChars l) (n : Nat) (rest : List Char) :
    readLabels (n + 1) (renderLabel l ++ rest)
      = match readLabel (renderLabel l ++ rest) with
        | none => none
        | some (l, rest) =>
            match rest.dropWhile isBlank with
            | '}' :: rest => some ([l], rest)
            | ',' :: rest => (readLabels n rest).map (fun r => (l :: r.1, r.2))
            | _ => none := by
  obtain ⟨c, s, hs, hblank, hclose⟩ := renderLabel_cons hl rest
  rw [hs, readLabels, List.dropWhile_cons_of_neg (by rw [hblank]; decide)]
  split
  · next heq =>
      injection heq with hc _
      exact absurd hc hclose
  · rfl

/-- Readable labels are read, and what follows the brace is left. -/
theorem readLabels_readable (rest : List Char) :
    ∀ (ls : List (List Char × List Char)) (l : List Char × List Char) (n : Nat),
      ls.length < n → (∀ x ∈ l :: ls, LabelChars x ∧ Readable x) →
      readLabels n (renderLabel l ++ (renderMore ls ++ '}' :: rest)) = some (l :: ls, rest) := by
  intro ls
  induction ls with
  | nil =>
      intro l n hn hall
      obtain ⟨m, rfl⟩ : ∃ m, n = m + 1 := ⟨n - 1, by simp only [List.length_nil] at hn; omega⟩
      obtain ⟨hchars, hname, hplain⟩ := hall l (List.mem_cons_self ..)
      rw [readLabels_render hchars, readLabel_render hchars, if_pos hname, readValue_plain hplain]
      rfl
  | cons l' ls ih =>
      intro l n hn hall
      obtain ⟨m, rfl⟩ : ∃ m, n = m + 1 := ⟨n - 1, by simp only [List.length_cons] at hn; omega⟩
      obtain ⟨⟨hchars, hname, hplain⟩, hrest⟩ := List.forall_mem_cons.mp hall
      have hnext := ih l' m (by simp only [List.length_cons] at hn; omega) hrest
      have hmore : renderMore (l' :: ls) ++ '}' :: rest
          = ',' :: (renderLabel l' ++ (renderMore ls ++ '}' :: rest)) := by
        simp [renderMore]
      rw [readLabels_render hchars, readLabel_render hchars, if_pos hname, readValue_plain hplain,
        hmore]
      show Option.map _ (readLabels m _) = _
      rw [hnext]
      rfl

/-- The label read first has the name it was written with. -/
theorem readLabels_head {l' : List Char × List Char} (hl : LabelChars l) {n : Nat}
    {rest' : List Char} (h : readLabels (n + 1) (renderLabel l ++ rest) = some (l' :: ls, rest')) :
    isName l.1 = true ∧ ∃ r, readValue (l.2 ++ '"' :: rest) = some (l'.2, r) := by
  rw [readLabels_render hl, readLabel_render hl] at h
  by_cases hname : isName l.1 = true
  · rw [if_pos hname] at h
    cases hread : readValue (l.2 ++ '"' :: rest) with
    | none =>
        rw [hread] at h
        cases h
    | some p =>
        rw [hread, Option.map_some] at h
        refine ⟨hname, p.2, ?_⟩
        dsimp only at h
        split at h
        · cases h
          rfl
        · obtain ⟨r, -, hr⟩ := Option.map_eq_some_iff.mp h
          cases hr
          rfl
        · cases h
  · rw [if_neg hname] at h
    cases h

/-- Labels that are read as they were written are readable. -/
theorem readable_of_readLabels {rest' : List Char} :
    ∀ (ls : List (List Char × List Char)) (l : List Char × List Char) (n : Nat),
      (∀ x ∈ l :: ls, LabelChars x) →
      readLabels n (renderLabel l ++ (renderMore ls ++ '}' :: rest)) = some (l :: ls, rest') →
      ∀ x ∈ l :: ls, Readable x := by
  intro ls
  induction ls with
  | nil =>
      intro l n hchars h
      cases n with
      | zero => cases h
      | succ m =>
          obtain ⟨hname, r, hread⟩ := readLabels_head (hchars l (List.mem_cons_self ..)) h
          exact List.forall_mem_singleton.mpr ⟨hname, plain_of_readValue hread⟩
  | cons l' ls ih =>
      intro l n hchars h
      cases n with
      | zero => cases h
      | succ m =>
          obtain ⟨hl, hls⟩ := List.forall_mem_cons.mp hchars
          obtain ⟨hname, r, hread⟩ := readLabels_head hl h
          have hplain := plain_of_readValue hread
          have hmore : renderMore (l' :: ls) ++ '}' :: rest
              = ',' :: (renderLabel l' ++ (renderMore ls ++ '}' :: rest)) := by
            simp [renderMore]
          rw [readLabels_render hl, readLabel_render hl, if_pos hname, readValue_plain hplain,
            hmore] at h
          obtain ⟨p, hp, hpair⟩ := Option.map_eq_some_iff.mp
            (show Option.map _ (readLabels m _) = _ from h)
          obtain ⟨ls', rest''⟩ := p
          cases hpair
          exact List.forall_mem_cons.mpr ⟨⟨hname, hplain⟩, ih l' m hls hp⟩

/-! ## The value and the timestamp -/

theorem tokens_append_blank (a b : List Char) {sep : Char} (hsep : isBlank sep = true) :
    tokens (a ++ sep :: b) = tokens a ++ tokens b := by
  rw [tokens, List.splitOnP_append_cons a b hsep, List.filter_append]
  rfl

/-- A text without blanks is one word. -/
theorem tokens_word {w : List Char} (hne : w ≠ []) (hw : ∀ c ∈ w, isBlank c = false) :
    tokens w = [w] := by
  rw [tokens, List.splitOnP_eq_singleton hw]
  cases w with
  | nil => exact absurd rfl hne
  | cons c w => rfl

theorem not_blank_of_isDigit {c : Char} (h : c.isDigit = true) :
    isBlank c = false ∧ c ≠ '+' ∧ c ≠ '-' ∧ c ≠ '\n' := by
  refine ⟨Bool.eq_false_iff.mpr fun hblank => ?_, ?_, ?_, ?_⟩
  · rcases Bool.or_eq_true_iff.mp hblank with hc | hc
    · rw [of_decide_eq_true hc] at h
      exact absurd h (by decide)
    · rw [of_decide_eq_true hc] at h
      exact absurd h (by decide)
  all_goals
    rintro rfl
    exact absurd h (by decide)

theorem isDigit_toDigits {n : Nat} : ∀ c ∈ Nat.toDigits 10 n, c.isDigit = true :=
  fun _ hc => Nat.isDigit_of_mem_toDigits (by decide) (by decide) hc

theorem isDigits_toDigits (n : Nat) : isDigits (Nat.toDigits 10 n) = true := by
  rw [isDigits, Bool.and_eq_true]
  refine ⟨?_, List.all_eq_true.mpr isDigit_toDigits⟩
  cases h : Nat.toDigits 10 n with
  | nil => exact absurd h Nat.toDigits_ne_nil
  | cons c s => rfl

/-- Digits have no sign. -/
theorem sign_of_digits {s : List Char} (hs : ∀ c ∈ s, c.isDigit = true) :
    dropSign s = s ∧ s.head? ≠ some '-' := by
  cases s with
  | nil => exact ⟨rfl, by simp⟩
  | cons c s =>
      obtain ⟨-, hplus, hminus, -⟩ := not_blank_of_isDigit (hs c (List.mem_cons_self ..))
      constructor
      · unfold dropSign
        split
        · next heq => exact absurd (List.cons.inj heq).1 hplus
        · next heq => exact absurd (List.cons.inj heq).1 hminus
        · rfl
      · intro hhead
        exact hminus (Option.some.inj hhead)

/-- A timestamp is read as far as it is a signed 64-bit integer. -/
theorem readTimestamp_toDigits (ts : Nat) :
    readTimestamp (Nat.toDigits 10 ts) = if ts < 2 ^ 63 then some (ts : Int) else none := by
  obtain ⟨hsign, hhead⟩ := sign_of_digits (isDigit_toDigits (n := ts))
  simp only [readTimestamp, hsign, if_neg hhead, isDigits_toDigits, Nat.ofDigitChars_ten_toDigits]
  by_cases hlt : ts < 2 ^ 63
  · rw [if_pos hlt, if_pos ⟨trivial, by omega, by omega⟩]
  · rw [if_neg hlt, if_neg (fun h => hlt (by omega))]

/-- Behind the labels, the timestamp is read back when the text before it is one
    number. -/
theorem readSample_iff (name : List Char) (labels : List (List Char × List Char))
    (value : List Char) (ts : Nat) :
    (∃ v, readSample name labels (' ' :: (value ++ ' ' :: Nat.toDigits 10 ts))
        = some ⟨name, labels, v, some ts⟩) ↔
      (∃ w, tokens value = [w] ∧ isFloat w = true) ∧ ts < 2 ^ 63 := by
  have hdigits : tokens (Nat.toDigits 10 ts) = [Nat.toDigits 10 ts] :=
    tokens_word Nat.toDigits_ne_nil
      (fun c hc => (not_blank_of_isDigit (isDigit_toDigits c hc)).1)
  have htokens : tokens (' ' :: (value ++ ' ' :: Nat.toDigits 10 ts))
      = tokens value ++ [Nat.toDigits 10 ts] := by
    rw [← List.nil_append (' ' :: (value ++ _)), tokens_append_blank _ _ rfl,
      tokens_append_blank _ _ rfl, hdigits]
    rfl
  rw [readSample, htokens]
  rcases tokens value with _ | ⟨w, _ | ⟨w', ws⟩⟩
  · -- the timestamp stands for the value
    constructor
    · rintro ⟨v, hv⟩
      simp only [List.nil_append] at hv
      split at hv
      · cases hv
      · cases hv
    · rintro ⟨⟨w, hw, -⟩, -⟩
      cases hw
  · simp only [List.cons_append, List.nil_append, readTimestamp_toDigits]
    by_cases hfloat : isFloat w = true
    · rw [if_pos hfloat]
      by_cases hlt : ts < 2 ^ 63
      · rw [if_pos hlt]
        exact ⟨fun _ => ⟨⟨w, rfl, hfloat⟩, hlt⟩, fun _ => ⟨w, rfl⟩⟩
      · rw [if_neg hlt]
        refine ⟨?_, fun h => absurd h.2 hlt⟩
        rintro ⟨_, hv⟩
        cases hv
    · rw [if_neg hfloat]
      constructor
      · rintro ⟨_, hv⟩
        cases hv
      · rintro ⟨⟨w', hw', hf⟩, -⟩
        obtain rfl : w = w' := (List.cons.inj hw').1
        exact absurd hf hfloat
  · -- more than two words
    constructor
    · rintro ⟨v, hv⟩
      cases ws <;> cases hv
    · rintro ⟨⟨v, hv, -⟩, -⟩
      cases hv

/-! ## Lines -/

/-- A sample with labels, written without escapes. -/
def renderLine (name : List Char) (l : List Char × List Char)
    (ls : List (List Char × List Char)) (value : List Char) (ts : Nat) : List Char :=
  name ++ '{' :: (renderLabel l
    ++ (renderMore ls ++ '}' :: ' ' :: (value ++ ' ' :: Nat.toDigits 10 ts)))

/-- Reading a line that begins with a name and a brace. -/
theorem parseLine_name (hname : ∀ c ∈ name, isNameChar c = true) (r : List Char) :
    parseLine (name ++ '{' :: r)
      = if isName name then (readLabels r.length r).bind (fun p => readSample name p.1 p.2)
        else none := by
  have hblank : (name ++ '{' :: r).dropWhile isBlank = name ++ '{' :: r := by
    cases name with
    | nil => rfl
    | cons c name =>
        exact List.dropWhile_cons_of_neg (by
          rw [isBlank_of_isNameChar (hname c (List.mem_cons_self ..))]
          decide)
  have htake : (name ++ '{' :: r).takeWhile isNameChar = name := by
    rw [List.takeWhile_append_of_pos hname]
    exact List.append_nil _
  have hdrop : (name ++ '{' :: r).dropWhile isNameChar = '{' :: r := by
    rw [List.dropWhile_append_of_pos hname]
    rfl
  simp only [parseLine, hblank, htake, hdrop]
  rfl

theorem newline_mem_renderLabel (hl : LabelChars l) : '\n' ∈ renderLabel l ↔ '\n' ∈ l.2 := by
  have hkey : '\n' ∉ l.1 := fun h => absurd (hl _ h) (by decide)
  simp [renderLabel, hkey]

theorem newline_mem_renderMore (hls : ∀ x ∈ ls, LabelChars x) :
    '\n' ∈ renderMore ls ↔ ∃ x ∈ ls, '\n' ∈ x.2 := by
  rw [renderMore, List.mem_flatMap]
  refine exists_congr fun x => and_congr_right fun hx => ?_
  rw [List.mem_cons, newline_mem_renderLabel (hls x hx)]
  exact or_iff_right (by decide)

/-- A line feed in a line comes from a label value or from the value. -/
theorem newline_notMem_renderLine (hname : ∀ c ∈ name, isNameChar c = true)
    (hlabels : ∀ x ∈ l :: ls, LabelChars x) (value : List Char) (ts : Nat) :
    '\n' ∉ renderLine name l ls value ts ↔
      (∀ x ∈ l :: ls, '\n' ∉ x.2) ∧ '\n' ∉ value := by
  obtain ⟨hl, hls⟩ := List.forall_mem_cons.mp hlabels
  have hkey : '\n' ∉ name := fun h => absurd (hname _ h) (by decide)
  have hdigits : '\n' ∉ Nat.toDigits 10 ts :=
    fun h => (not_blank_of_isDigit (isDigit_toDigits _ h)).2.2.2 rfl
  have hmem : '\n' ∈ renderLine name l ls value ts ↔
      ('\n' ∈ l.2 ∨ ∃ x ∈ ls, '\n' ∈ x.2) ∨ '\n' ∈ value := by
    simp [renderLine, hkey, hdigits, newline_mem_renderLabel hl, newline_mem_renderMore hls,
      or_assoc]
  rw [hmem, not_or, not_or, List.forall_mem_cons, not_exists]
  simp only [not_and]

/-- There are no more labels than characters. -/
theorem length_renderMore (ls : List (List Char × List Char)) :
    ls.length ≤ (renderMore ls).length := by
  induction ls with
  | nil => exact Nat.le_refl 0
  | cons l ls ih =>
      have hcons : renderMore (l :: ls) = ',' :: renderLabel l ++ renderMore ls := rfl
      rw [hcons, List.length_append, List.length_cons, List.length_cons]
      omega

/-- **WHEN A LINE IS READ BACK**: names that the format allows, label values with
    nothing to escape, one number for the value, and a timestamp of 63 bits. -/
theorem parseLine_renderLine_iff (hname : ∀ c ∈ name, isNameChar c = true)
    (hlabels : ∀ x ∈ l :: ls, LabelChars x) (value : List Char) (ts : Nat) :
    (∃ v, parseLine (renderLine name l ls value ts) = some ⟨name, l :: ls, v, some ts⟩) ↔
      isName name = true ∧ (∀ x ∈ l :: ls, Readable x) ∧
        (∃ w, tokens value = [w] ∧ isFloat w = true) ∧ ts < 2 ^ 63 := by
  rw [renderLine, parseLine_name hname]
  by_cases hn : isName name = true
  · rw [if_pos hn, and_iff_right hn]
    constructor
    · rintro ⟨v, hv⟩
      obtain ⟨⟨ls', rest⟩, hread, hsample⟩ := Option.bind_eq_some_iff.mp hv
      -- the labels of the sample are those that were read
      have hls : ls' = l :: ls := by
        unfold readSample at hsample
        split at hsample
        · split at hsample <;> cases hsample
        · split at hsample
          · obtain ⟨t, -, ht⟩ := Option.map_eq_some_iff.mp hsample
            cases ht
            rfl
          · cases hsample
        · cases hsample
      subst hls
      have hreadable := readable_of_readLabels ls l _ hlabels hread
      refine ⟨hreadable, ?_⟩
      rw [readLabels_readable _ ls l _ (by
        have hlen := length_renderMore ls
        simp only [List.length_append, List.length_cons]
        omega) (fun x hx => ⟨hlabels x hx, hreadable x hx⟩)] at hread
      cases hread
      exact (readSample_iff name (l :: ls) value ts).mp ⟨v, hsample⟩
    · rintro ⟨hreadable, hvalue⟩
      obtain ⟨v, hv⟩ := (readSample_iff name (l :: ls) value ts).mpr hvalue
      refine ⟨v, ?_⟩
      rw [readLabels_readable _ ls l _ (by
        have hlen := length_renderMore ls
        simp only [List.length_append, List.length_cons]
        omega) (fun x hx => ⟨hlabels x hx, hreadable x hx⟩)]
      exact hv
  · rw [if_neg hn]
    refine ⟨?_, fun h => absurd h.1 hn⟩
    rintro ⟨_, hv⟩
    cases hv

end Exposition
