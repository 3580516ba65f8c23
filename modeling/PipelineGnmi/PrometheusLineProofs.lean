import Mathlib.Data.List.TakeWhile
import PipelineGnmi.ExpositionProofs
import PipelineGnmi.InfluxHandlerProofs
import PipelineGnmi.ReplaceRunsProofs
import PipelineGnmi.TagPassProofs

/-! # Lines for Prometheus

    The output handler of `metrics_prometheus.go` writes a line for each metric:
    the name of the sensor, the tags as labels, the value and the timestamp, all
    of them as `%v` prints them.  Names are adapted to what the format allows as
    characters; the texts of tags and sensors are not escaped and need not be
    numbers.

    `prometheus_lines_iff` says which metrics of a self-describing message become
    a line that reads back as the metric. -/

namespace PipelinePrometheusLine

open PipelineMessage PipelineDataMsg PipelineMetricsSpec PipelineGpbKvMetrics
open PipelineGpbMetrics PipelineMetricGroups PipelineTagPass PipelineInfluxHandler
open PipelineTagCoherence hiding produceMetrics
open Exposition ReplaceRuns

/-! ## The handler -/

/-- `adaptSensorName`. -/
def adaptSensorName (name : String) : String :=
  String.ofList (replaceRuns isNameChar ['_'] name.toList)

/-- `adaptTagName`. -/
def adaptTagName (name : String) : String :=
  String.ofList (replaceRuns isLabelChar ['_'] name.toList)

/-- How `%v` prints floating-point numbers: as `ParseFloat` reads them, in the
    letters and signs of a number. -/
def FloatText (s : String) : Prop :=
  isFloat s.toList = true ∧
    ∀ c ∈ s.toList, c.isAlphanum = true ∨ c = '+' ∨ c = '-' ∨ c = '.'

/-- `fmt` on floating-point numbers, given by their bits. -/
structure FloatFormat where
  double : UInt64 → String
  float : UInt32 → String
  double_text : ∀ bits, FloatText (double bits)
  float_text : ∀ bits, FloatText (float bits)

/-- `%v` of a value from the wire. -/
def sprintScalar (ff : FloatFormat) : Scalar → String
  | .bytes b => "[" ++ String.intercalate " " (b.map (fun x => toString x.toNat)) ++ "]"
  | .string s => s
  | .bool true => "true"
  | .bool false => "false"
  | .uint32 n => toString n.toNat
  | .uint64 n => toString n.toNat
  | .sint32 n => toString n.toInt
  | .sint64 n => toString n.toInt
  | .double bits => ff.double bits
  | .float bits => ff.float bits

/-- `%v` of an atom; messages from the wire have the first two kinds only. -/
def sprintAtom (ff : FloatFormat) (other : AtomVal → String) : AtomVal → String
  | .none => "<nil>"
  | .scalar v => sprintScalar ff v
  | v => other v

/-- The naming side of the handler. -/
def prometheusHandler (ff : FloatFormat) (other : AtomVal → String)
    (sprintNode : SpecNode → String) : Handler :=
  ⟨adaptSensorName, adaptTagName, sprintAtom ff other, sprintNode⟩

/-- The loop over the tags, with the delimiter of the next one. -/
def tagLoop (sprint : AtomVal → String) : String → List MetricsAtom → String
  | _, [] => ""
  | delim, tag :: rest =>
      delim ++ tag.key ++ "=\"" ++ sprint tag.val ++ "\"" ++ tagLoop sprint "," rest

/-- What `buildMetric` appends to the buffer. -/
def buildMetric (sprint : AtomVal → String) (tags : List MetricsAtom) (sensor : MetricsAtom)
    (ts : UInt64) : String :=
  sensor.key ++ (if tags.length > 0 then tagLoop sprint "\x7b" tags ++ "\x7d " else " ")
    ++ sprint sensor.val ++ " " ++ toString ts.toNat ++ "\n"

/-- A tag as a label. -/
def labelOf (sprint : AtomVal → String) (tag : MetricsAtom) : List Char × List Char :=
  (tag.key.toList, (sprint tag.val).toList)

/-! ## The text of a line -/

theorem tagLoop_toList (sprint : AtomVal → String) :
    ∀ tags : List MetricsAtom, (tagLoop sprint "," tags).toList
      = renderMore (tags.map (labelOf sprint)) := by
  intro tags
  induction tags with
  | nil => rfl
  | cons tag rest ih =>
      have hcons : renderMore ((tag :: rest).map (labelOf sprint))
          = ',' :: (renderLabel (labelOf sprint tag)
            ++ renderMore (rest.map (labelOf sprint))) := rfl
      rw [hcons, tagLoop]
      simp [ih, renderLabel, labelOf]

/-- A metric with tags is a line of the format, without escapes. -/
theorem buildMetric_toList (sprint : AtomVal → String) (tag : MetricsAtom)
    (rest : List MetricsAtom) (sensor : MetricsAtom) (ts : UInt64) :
    (buildMetric sprint (tag :: rest) sensor ts).toList
      = renderLine sensor.key.toList (labelOf sprint tag) (rest.map (labelOf sprint))
          (sprint sensor.val).toList ts.toNat ++ ['\n'] := by
  have hpos : (tag :: rest).length > 0 := Nat.succ_pos _
  rw [buildMetric, if_pos hpos, tagLoop]
  simp [tagLoop_toList, renderLine, renderLabel, labelOf, Nat.toString_eq_repr, Nat.toList_repr]

/-! ## What `%v` prints -/

/-- A character that neither ends a label value nor a line, nor begins an
    escape. -/
def Safe (c : Char) : Prop := c ≠ '"' ∧ c ≠ '\\' ∧ c ≠ '\n'

theorem safe_of_isAlphanum {c : Char} (h : c.isAlphanum = true) : Safe c := by
  refine ⟨?_, ?_, ?_⟩
  all_goals
    rintro rfl
    exact absurd h (by decide)

theorem safe_of_isDigit {c : Char} (h : c.isDigit = true) : Safe c := by
  refine safe_of_isAlphanum ?_
  rw [Char.isAlphanum, h, Bool.or_true]

theorem safe_toDigits (n : Nat) : ∀ c ∈ (toString n).toList, Safe c := by
  intro c hc
  rw [Nat.toString_eq_repr, Nat.toList_repr] at hc
  exact safe_of_isDigit (isDigit_toDigits c hc)

/-- An integer is its digits, with a sign if it is negative. -/
theorem toList_toString_int (i : Int) :
    (toString i).toList = Nat.toDigits 10 i.natAbs ∨
      (toString i).toList = '-' :: Nat.toDigits 10 i.natAbs := by
  cases i with
  | ofNat n =>
      refine Or.inl ?_
      show (toString n).toList = _
      rw [Nat.toString_eq_repr, Nat.toList_repr]
      rfl
  | negSucc n =>
      refine Or.inr ?_
      show ("-" ++ toString (n + 1)).toList = _
      rw [String.toList_append, Nat.toString_eq_repr, Nat.toList_repr]
      rfl

theorem safe_toString_int (i : Int) : ∀ c ∈ (toString i).toList, Safe c := by
  intro c hc
  rcases toList_toString_int i with hn | hn
  · rw [hn] at hc
    exact safe_of_isDigit (isDigit_toDigits c hc)
  · rw [hn] at hc
    rcases List.mem_cons.mp hc with rfl | hc
    · exact ⟨by decide, by decide, by decide⟩
    · exact safe_of_isDigit (isDigit_toDigits c hc)

theorem safe_of_floatText {s : String} (h : FloatText s) : ∀ c ∈ s.toList, Safe c := by
  intro c hc
  rcases h.2 c hc with halnum | rfl | rfl | rfl
  · exact safe_of_isAlphanum halnum
  all_goals exact ⟨by decide, by decide, by decide⟩

theorem forall_mem_intercalate {p : Char → Prop} {sep : List Char} (hsep : ∀ c ∈ sep, p c) :
    ∀ ls : List (List Char), (∀ l ∈ ls, ∀ c ∈ l, p c) → ∀ c ∈ sep.intercalate ls, p c := by
  intro ls
  induction ls with
  | nil => exact fun _ c hc => absurd hc (by simp)
  | cons l rest ih =>
      intro hall
      obtain ⟨hl, hrest⟩ := List.forall_mem_cons.mp hall
      cases rest with
      | nil => simpa using hl
      | cons l' rest =>
          rw [List.intercalate_cons_cons]
          exact List.forall_mem_append.mpr
            ⟨List.forall_mem_append.mpr ⟨hl, hsep⟩, ih hrest⟩

/-- Bytes are printed as numbers with blanks between them. -/
theorem safe_bytes (b : Octets) :
    ∀ c ∈ (String.intercalate " " (b.map (fun x => toString x.toNat))).toList, Safe c := by
  rw [String.toList_intercalate]
  refine forall_mem_intercalate ?_ _ ?_
  · intro c hc
    obtain rfl : c = ' ' := List.mem_singleton.mp hc
    exact ⟨by decide, by decide, by decide⟩
  · intro l hl
    obtain ⟨t, ht, rfl⟩ := List.mem_map.mp hl
    obtain ⟨x, -, rfl⟩ := List.mem_map.mp ht
    exact safe_toDigits x.toNat

/-- Only a string prints what has to be escaped. -/
theorem safe_sprintScalar (ff : FloatFormat) (v : Scalar) (hv : ∀ s, v ≠ .string s) :
    ∀ c ∈ (sprintScalar ff v).toList, Safe c := by
  cases v with
  | bytes b =>
      intro c hc
      rw [sprintScalar, String.toList_append, String.toList_append] at hc
      rcases List.mem_append.mp hc with hc | hc
      · rcases List.mem_append.mp hc with hc | hc
        · obtain rfl : c = '[' := List.mem_singleton.mp hc
          exact ⟨by decide, by decide, by decide⟩
        · exact safe_bytes b c hc
      · obtain rfl : c = ']' := List.mem_singleton.mp hc
        exact ⟨by decide, by decide, by decide⟩
  | string s => exact absurd rfl (hv s)
  | bool b =>
      cases b with
      | true => simp [sprintScalar, Safe]
      | false => simp [sprintScalar, Safe]
  | uint32 n => exact safe_toDigits n.toNat
  | uint64 n => exact safe_toDigits n.toNat
  | sint32 n => exact safe_toString_int n.toInt
  | sint64 n => exact safe_toString_int n.toInt
  | double bits => exact safe_of_floatText (ff.double_text bits)
  | float bits => exact safe_of_floatText (ff.float_text bits)

/-! ## Numbers -/

/-- The values that print as one number: integers and floating-point numbers, and
    a string that is one in the range of a `float64`, between blanks perhaps. -/
def Numeric : Scalar → Prop
  | .bytes _ => False
  | .bool _ => False
  | .string s => '\n' ∉ s.toList ∧ ∃ w, tokens s.toList = [w] ∧ isFloat w = true
  | _ => True

/-- A text that stands for a value in a line. -/
def ValueText (s : List Char) : Prop :=
  '\n' ∉ s ∧ ∃ w, tokens s = [w] ∧ isFloat w = true

theorem readDecimal_toDigits (n : Nat) :
    readDecimal (Nat.toDigits 10 n) = ⟨Nat.toDigits 10 n, [], []⟩ := by
  have hall : ∀ c ∈ Nat.toDigits 10 n, c.isDigit = true := isDigit_toDigits
  have htake : (Nat.toDigits 10 n).takeWhile Char.isDigit = Nat.toDigits 10 n :=
    List.takeWhile_eq_self_iff.mpr hall
  have hdrop : (Nat.toDigits 10 n).dropWhile Char.isDigit = [] :=
    List.dropWhile_eq_nil_iff.mpr hall
  rw [readDecimal, hdrop, htake]

/-- The integers of the wire are far within the range. -/
theorem isFloat_toDigits {n : Nat} (hn : n < 2 ^ 64) :
    isFloat (Nat.toDigits 10 n) = true ∧ isFloat ('-' :: Nat.toDigits 10 n) = true := by
  have hsign := (sign_of_digits (isDigit_toDigits (n := n))).1
  have hminus : dropSign ('-' :: Nat.toDigits 10 n) = Nat.toDigits 10 n := rfl
  have hwell : (Decimal.mk (Nat.toDigits 10 n) [] []).WellFormed = true := by
    cases h : Nat.toDigits 10 n with
    | nil => exact absurd h Nat.toDigits_ne_nil
    | cons c s => rfl
  have hrange : (Decimal.mk (Nat.toDigits 10 n) [] []).InRange = true := by
    have hpower : (Decimal.mk (Nat.toDigits 10 n) [] []).power = 0 := rfl
    have hbound : n < float64Bound := Nat.lt_of_lt_of_le hn (by decide +kernel)
    simpa [Decimal.InRange, hpower] using hbound
  constructor
  · rw [isFloat, hsign, readDecimal_toDigits, hwell, hrange]
    rfl
  · rw [isFloat, hminus, readDecimal_toDigits, hwell, hrange]
    rfl

/-- A number without blanks is a value. -/
theorem valueText_of_isFloat {s : List Char} (hfloat : isFloat s = true)
    (hblank : ∀ c ∈ s, isBlank c = false ∧ c ≠ '\n') : ValueText s := by
  refine ⟨fun hn => (hblank _ hn).2 rfl, s, tokens_word ?_ (fun c hc => (hblank c hc).1), hfloat⟩
  rintro rfl
  exact absurd hfloat (by decide)

theorem valueText_int {i : Int} (hi : i.natAbs < 2 ^ 64) : ValueText (toString i).toList := by
  have hdigit : ∀ c ∈ Nat.toDigits 10 i.natAbs, isBlank c = false ∧ c ≠ '\n' := by
    intro c hc
    obtain ⟨hb, -, -, hn⟩ := not_blank_of_isDigit (isDigit_toDigits c hc)
    exact ⟨hb, hn⟩
  rcases toList_toString_int i with hn | hn
  · rw [hn]
    exact valueText_of_isFloat (isFloat_toDigits hi).1 hdigit
  · rw [hn]
    exact valueText_of_isFloat (isFloat_toDigits hi).2
      (List.forall_mem_cons.mpr ⟨⟨rfl, by decide⟩, hdigit⟩)

theorem valueText_nat {n : Nat} (hn : n < 2 ^ 64) : ValueText (toString n).toList :=
  valueText_int (i := (n : Int)) hn

theorem valueText_of_floatText {s : String} (h : FloatText s) : ValueText s.toList := by
  refine valueText_of_isFloat h.1 fun c hc => ⟨?_, (safe_of_floatText h c hc).2.2⟩
  rcases h.2 c hc with halnum | rfl | rfl | rfl
  · refine (isBlank_of_isLabelChar ?_).1
    rw [isLabelChar, halnum, Bool.true_or]
  all_goals rfl

/-- The first word begins where the text does. -/
theorem tokens_cons {c : Char} (hc : isBlank c = false) (s : List Char) :
    ∃ w ws, tokens (c :: s) = (c :: w) :: ws := by
  have hsplit : (c :: s).splitOnP isBlank = _ := List.splitOnP_cons_eq_if_modifyHead c s
  rw [if_neg (by rw [hc]; decide)] at hsplit
  cases hs : s.splitOnP isBlank with
  | nil => exact absurd hs (List.splitOnP_ne_nil _ _)
  | cons w ws =>
      rw [hs] at hsplit
      refine ⟨w, ws.filter (fun w => !w.isEmpty), ?_⟩
      rw [tokens, hsplit]
      rfl

/-- Brackets are not a number. -/
theorem not_valueText_bracket (s : List Char) : ¬ ValueText ('[' :: s) := by
  rintro ⟨-, w, hw, hfloat⟩
  obtain ⟨w', ws, htokens⟩ := tokens_cons (c := '[') rfl s
  rw [htokens] at hw
  obtain ⟨rfl, -⟩ := List.cons.inj hw
  have hnot : isFloat ('[' :: w') = false := by
    simp [isFloat, readDecimal, Decimal.WellFormed, dropSign]
  rw [hnot] at hfloat
  cases hfloat

/-- **WHICH VALUES PRINT AS A NUMBER**. -/
theorem valueText_sprintScalar (ff : FloatFormat) (v : Scalar) :
    ValueText (sprintScalar ff v).toList ↔ Numeric v := by
  cases v with
  | bytes b =>
      refine ⟨fun h => ?_, False.elim⟩
      rw [sprintScalar, String.toList_append, String.toList_append] at h
      exact not_valueText_bracket _ h
  | string s => exact Iff.rfl
  | bool b =>
      refine ⟨fun h => ?_, False.elim⟩
      obtain ⟨-, w, hw, hfloat⟩ := h
      cases b with
      | true =>
          have hword : tokens "true".toList = ["true".toList] := by decide +kernel
          rw [sprintScalar, hword] at hw
          obtain ⟨rfl, -⟩ := List.cons.inj hw
          exact absurd hfloat (by decide +kernel)
      | false =>
          have hword : tokens "false".toList = ["false".toList] := by decide +kernel
          rw [sprintScalar, hword] at hw
          obtain ⟨rfl, -⟩ := List.cons.inj hw
          exact absurd hfloat (by decide +kernel)
  | uint32 n =>
      have hn := n.toNat_lt
      exact ⟨fun _ => trivial, fun _ => valueText_nat (by omega)⟩
  | uint64 n => exact ⟨fun _ => trivial, fun _ => valueText_nat n.toNat_lt⟩
  | sint32 n =>
      have hle := n.le_toInt
      have hlt := n.toInt_lt
      exact ⟨fun _ => trivial, fun _ => valueText_int (by omega)⟩
  | sint64 n =>
      have hle := n.le_toInt
      have hlt := n.toInt_lt
      exact ⟨fun _ => trivial, fun _ => valueText_int (by omega)⟩
  | double bits => exact ⟨fun _ => trivial, fun _ => valueText_of_floatText (ff.double_text bits)⟩
  | float bits => exact ⟨fun _ => trivial, fun _ => valueText_of_floatText (ff.float_text bits)⟩

/-! ## One metric -/

/-- The text is one line, and the line reads as the metric: its name, its labels,
    a number and its timestamp. -/
def Faithful (sprint : AtomVal → String) (b : Build) (text : String) : Prop :=
  ∃ body, text.toList = body ++ ['\n'] ∧ '\n' ∉ body ∧
    ∃ v, parseLine body
      = some ⟨b.sensor.key.toList, b.tags.map (labelOf sprint), v, some b.ts.toNat⟩

/-- The metrics that can be written as they are. -/
structure LineSafe (b : Build) : Prop where
  name : isName b.sensor.key.toList = true
  labels : ∀ t ∈ b.tags, isName t.key.toList = true
  values : ∀ t ∈ b.tags, ∀ s, t.val = .scalar (.string s) → ∀ c ∈ s.toList, Safe c
  numeric : ∀ v, b.sensor.val = .scalar v → Numeric v
  timestamp : b.ts.toNat < 2 ^ 63

/-- A tag from the wire: an adapted name, and a value or none. -/
def WireTag (t : MetricsAtom) : Prop :=
  (∀ c ∈ t.key.toList, isLabelChar c = true) ∧ (t.val = .none ∨ ∃ v, t.val = .scalar v)

/-- A metric from the wire. -/
structure WireBuild (b : Build) : Prop where
  key : ∀ c ∈ b.sensor.key.toList, isNameChar c = true
  tagged : b.tags ≠ []
  tags : ∀ t ∈ b.tags, WireTag t
  scalar : ∃ v, b.sensor.val = .scalar v

/-- A label value is written as it is unless it is a string that needs escapes. -/
theorem label_safe_iff (ff : FloatFormat) (other : AtomVal → String) {t : MetricsAtom}
    (ht : WireTag t) :
    (Plain (labelOf (sprintAtom ff other) t).2 ∧ '\n' ∉ (labelOf (sprintAtom ff other) t).2) ↔
      ∀ s, t.val = .scalar (.string s) → ∀ c ∈ s.toList, Safe c := by
  constructor
  · rintro ⟨hplain, hline⟩ s hs c hc
    have htext : (labelOf (sprintAtom ff other) t).2 = s.toList := by
      rw [labelOf, hs]
      rfl
    rw [htext] at hplain hline
    exact ⟨(hplain c hc).1, (hplain c hc).2, fun hn => hline (hn ▸ hc)⟩
  · intro hstring
    have hsafe : ∀ c ∈ (labelOf (sprintAtom ff other) t).2, Safe c := by
      rw [labelOf]
      rcases ht.2 with hnone | ⟨v, hv⟩
      · rw [hnone]
        simp [sprintAtom, Safe]
      · rw [hv]
        by_cases hs : ∃ s, v = .string s
        · obtain ⟨s, rfl⟩ := hs
          exact hstring s hv
        · exact safe_sprintScalar ff v (fun s h => hs ⟨s, h⟩)
    exact ⟨fun c hc => ⟨(hsafe c hc).1, (hsafe c hc).2.1⟩, fun hn => (hsafe _ hn).2.2 rfl⟩

/-- The line of a metric, in the terms of the format. -/
theorem faithful_line_iff (sprint : AtomVal → String) {tag : MetricsAtom}
    {rest : List MetricsAtom} {sensor : MetricsAtom} (ts : UInt64)
    (hkey : ∀ c ∈ sensor.key.toList, isNameChar c = true)
    (htags : ∀ t ∈ tag :: rest, LabelChars (labelOf sprint t)) :
    Faithful sprint ⟨tag :: rest, sensor, ts⟩ (buildMetric sprint (tag :: rest) sensor ts) ↔
      isName sensor.key.toList = true ∧
        (∀ t ∈ tag :: rest, Readable (labelOf sprint t) ∧ '\n' ∉ (labelOf sprint t).2) ∧
        ValueText (sprint sensor.val).toList ∧ ts.toNat < 2 ^ 63 := by
  have hchars : ∀ x ∈ labelOf sprint tag :: rest.map (labelOf sprint), LabelChars x := by
    rw [← List.map_cons, List.forall_mem_map]
    exact htags
  have hparse := parseLine_renderLine_iff hkey hchars (sprint sensor.val).toList ts.toNat
  have hline := newline_notMem_renderLine hkey hchars (sprint sensor.val).toList ts.toNat
  rw [← List.map_cons, List.forall_mem_map] at hparse hline
  constructor
  · rintro ⟨body, hbody, hnewline, hread⟩
    rw [buildMetric_toList] at hbody
    obtain rfl := List.append_cancel_right hbody
    obtain ⟨hlabels, hvalue⟩ := hline.mp hnewline
    obtain ⟨hname, hreadable, htokens, hts⟩ := hparse.mp hread
    exact ⟨hname, fun t ht => ⟨hreadable t ht, hlabels t ht⟩, ⟨hvalue, htokens⟩, hts⟩
  · rintro ⟨hname, hlabels, ⟨hvalue, htokens⟩, hts⟩
    refine ⟨_, buildMetric_toList sprint tag rest sensor ts, ?_, ?_⟩
    · exact hline.mpr ⟨fun t ht => (hlabels t ht).2, hvalue⟩
    · exact hparse.mpr ⟨hname, fun t ht => (hlabels t ht).1, htokens, hts⟩

/-- **ONE LINE READS BACK** exactly when the metric can be written as it is. -/
theorem faithful_iff (ff : FloatFormat) (other : AtomVal → String) {b : Build} (hb : WireBuild b) :
    Faithful (sprintAtom ff other) b
        (buildMetric (sprintAtom ff other) b.tags b.sensor b.ts) ↔ LineSafe b := by
  obtain ⟨tags, sensor, ts⟩ := b
  obtain ⟨hkey, htagged, htags, v, hv⟩ := hb
  cases tags with
  | nil => exact absurd rfl htagged
  | cons tag rest =>
      have htext : sprintAtom ff other sensor.val = sprintScalar ff v := by
        rw [show sensor.val = .scalar v from hv]
        rfl
      have hvalue := valueText_sprintScalar ff v
      rw [faithful_line_iff _ ts hkey (fun t ht => (htags t ht).1), htext]
      constructor
      · rintro ⟨hname, hlabels, htokens, hts⟩
        refine ⟨hname, fun t ht => (hlabels t ht).1.1, fun t ht => ?_, ?_, hts⟩
        · obtain ⟨⟨-, hplain⟩, hline⟩ := hlabels t ht
          exact (label_safe_iff ff other (htags t ht)).mp ⟨hplain, hline⟩
        · intro v' hv'
          obtain rfl : v = v' := AtomVal.scalar.inj (hv.symm.trans hv')
          exact hvalue.mp htokens
      · rintro ⟨hname, hlabels, hvalues, hnumeric, hts⟩
        refine ⟨hname, fun t ht => ?_, hvalue.mpr (hnumeric v hv), hts⟩
        obtain ⟨hplain, hline⟩ := (label_safe_iff ff other (htags t ht)).mpr (hvalues t ht)
        exact ⟨⟨hlabels t ht, hplain⟩, hline⟩

/-! ## The names of a specification -/

/-- A node of a specification that was built for the handler. -/
def Built (h : Handler) (node : MetricsSpecNode) : Prop :=
  ∃ sym raw ptr path, buildSpecDBSubtree h sym raw ptr path = .ok node

/-- The children of a built node are built; leaves have adapted names. -/
theorem Built.get {h : Handler} {node : MetricsSpecNode} (hb : Built h node) {ty : NodeType}
    {name : String} {child : MetricsSpecNode}
    (hget : GoMap.get (node.fieldsMapByType ty) name = some child) :
    Built h child ∧ (ty = .sensor → ∃ x, child.fqName = h.adaptSensorName x) ∧
      (ty = .tag → ∃ x, child.fqName = h.adaptTagName x) := by
  obtain ⟨hmem, hty⟩ := GoMap.mem_of_get_collect hget
  have hty : child.nodeType = ty := of_decide_eq_true hty
  obtain ⟨sym, raw, ptr, path, hbuild⟩ := hb
  obtain ⟨n, tag, track, fields, -, hcase⟩ := buildSpecDBSubtree_cases hbuild
  rcases hcase with ⟨-, -, rfl⟩ | ⟨-, -, cs, rfl, hcs⟩ | ⟨-, -, rfl⟩
  · exact absurd hmem List.not_mem_nil
  · obtain ⟨raw', -, p, hchild⟩ := forall₂_built_mem hcs hmem
    refine ⟨⟨_, _, _, _, hchild⟩, ?_, ?_⟩
    · rintro rfl
      obtain ⟨n', tag', track', fields', -, hcase'⟩ := buildSpecDBSubtree_cases hchild
      rcases hcase' with ⟨-, -, rfl⟩ | ⟨-, -, cs', rfl, -⟩ | ⟨-, -, rfl⟩
      · cases hty
      · cases hty
      · exact ⟨_, rfl⟩
    · rintro rfl
      obtain ⟨n', tag', track', fields', -, hcase'⟩ := buildSpecDBSubtree_cases hchild
      rcases hcase' with ⟨-, -, rfl⟩ | ⟨-, -, cs', rfl, -⟩ | ⟨-, -, rfl⟩
      · exact ⟨_, rfl⟩
      · cases hty
      · cases hty
  · exact absurd hmem List.not_mem_nil

theorem isNameChar_adaptSensorName (x : String) :
    ∀ c ∈ (adaptSensorName x).toList, isNameChar c = true := by
  rw [adaptSensorName, String.toList_ofList]
  exact forall_mem_replaceRuns (fun _ h => h) (List.all_eq_true.mp rfl) _

theorem isLabelChar_adaptTagName (x : String) :
    ∀ c ∈ (adaptTagName x).toList, isLabelChar c = true := by
  rw [adaptTagName, String.toList_ofList]
  exact forall_mem_replaceRuns (fun _ h => h) (List.all_eq_true.mp rfl) _

/-! ## The metrics of a message -/

section Message

variable {ff : FloatFormat} {other : AtomVal → String} {sprintNode : SpecNode → String}

/-- What holds on every level: the node is built for the handler, and there are
    tags, all from the wire. -/
def WireLevel (h : Handler) (node : MetricsSpecNode) (tags : List MetricsAtom) : Prop :=
  Built h node ∧ tags ≠ [] ∧ ∀ t ∈ tags, WireTag t

theorem WireLevel.levelTags {node : MetricsSpecNode} {tags : List MetricsAtom}
    (h : WireLevel (prometheusHandler ff other sprintNode) node tags)
    (fields : List TelemetryField) :
    WireLevel (prometheusHandler ff other sprintNode) node (levelTags node fields tags) := by
  obtain ⟨hbuilt, hne, hwire⟩ := h
  rw [levelTags_eq]
  refine ⟨hbuilt, fun happ => hne (List.append_eq_nil_iff.mp happ).1, ?_⟩
  refine List.forall_mem_append.mpr ⟨hwire, fun t ht => ?_⟩
  obtain ⟨f, -, child, v, hget, -, rfl⟩ := mem_tagAtoms.mp ht
  obtain ⟨-, -, htag⟩ := hbuilt.get hget
  obtain ⟨x, hx⟩ := htag rfl
  refine ⟨?_, Or.inr ⟨v, rfl⟩⟩
  show ∀ c ∈ child.fqName.toList, _
  rw [hx]
  exact isLabelChar_adaptTagName x

theorem wireLevel_nodeLevels {node : MetricsSpecNode} {tags : List MetricsAtom}
    (h : WireLevel (prometheusHandler ff other sprintNode) node tags)
    (fields : List TelemetryField) (timestamp : UInt64) :
    ∀ l ∈ nodeLevels node fields timestamp tags,
      WireLevel (prometheusHandler ff other sprintNode) l.node l.tags := by
  have hlevel := h.levelTags fields
  refine List.forall_mem_cons.mpr ⟨hlevel, ?_⟩
  refine forall_fieldsLevels (fun hI hget => ?_) fields node timestamp _ hlevel
  exact WireLevel.levelTags ⟨(hI.1.get hget).1, hI.2⟩ _

theorem wireLevel_rowLevels {node : MetricsSpecNode} (timestamp : UInt64) :
    ∀ (fields : List TelemetryField) (tags : List MetricsAtom),
      WireLevel (prometheusHandler ff other sprintNode) node tags →
      ∀ l ∈ rowLevels (prometheusHandler ff other sprintNode) node timestamp fields tags,
        WireLevel (prometheusHandler ff other sprintNode) l.node l.tags := by
  intro fields
  induction fields with
  | nil => exact fun _ _ _ hl => absurd hl List.not_mem_nil
  | cons kcfield rest ih =>
      intro tags h
      -- keys of the row become tags, under adapted names
      have hkeys : WireLevel (prometheusHandler ff other sprintNode) node
          (if kcfield.name = "keys" then
            tags ++ kcfield.fields.map (fun key =>
              ⟨adaptTagName key.name, atomOf (extractGPBKVNativeTypeFromOneof key false)⟩)
          else tags) := by
        split
        · refine ⟨h.1, fun happ => h.2.1 (List.append_eq_nil_iff.mp happ).1, ?_⟩
          refine List.forall_mem_append.mpr ⟨h.2.2, List.forall_mem_map.mpr fun key _ => ?_⟩
          refine ⟨isLabelChar_adaptTagName key.name, ?_⟩
          show atomOf _ = .none ∨ ∃ v, atomOf _ = .scalar v
          cases extractGPBKVNativeTypeFromOneof key false with
          | none => exact Or.inl rfl
          | some v => exact Or.inr ⟨v, rfl⟩
        · exact h
      refine List.forall_mem_append.mpr ⟨?_, ih _ hkeys⟩
      split
      · exact wireLevel_nodeLevels hkeys _ _
      · exact fun _ hl => absurd hl List.not_mem_nil

/-- The levels of a message are as the wire and the specification make them. -/
theorem wireLevel_messageLevels {node : MetricsSpecNode}
    (hnode : Built (prometheusHandler ff other sprintNode) node) (m : DataMsgGPB) :
    ∀ l ∈ messageLevels (prometheusHandler ff other sprintNode) node m.cachedDecode (baseTags m),
      WireLevel (prometheusHandler ff other sprintNode) l.node l.tags := by
  intro l hl
  obtain ⟨row, -, hl⟩ := List.mem_flatMap.mp hl
  refine wireLevel_rowLevels _ _ _ ⟨hnode, by simp [baseTags], ?_⟩ l hl
  refine List.forall_mem_cons.mpr ⟨⟨?_, Or.inr ⟨_, rfl⟩⟩,
    List.forall_mem_singleton.mpr ⟨?_, Or.inr ⟨_, rfl⟩⟩⟩
  · show ∀ c ∈ "EncodingPath".toList, isLabelChar c = true
    exact List.all_eq_true.mp rfl
  · show ∀ c ∈ "Producer".toList, isLabelChar c = true
    exact List.all_eq_true.mp rfl

/-- The builds of such a level are metrics from the wire. -/
theorem wireBuild_of_mem {l : Level}
    (hl : WireLevel (prometheusHandler ff other sprintNode) l.node l.tags) {b : Build}
    (hb : b ∈ l.builds) : WireBuild b := by
  obtain ⟨f, -, -, hbuild⟩ := Level.mem_builds.mp hb
  obtain ⟨child, v, hget, -, rfl⟩ := build?_eq_some.mp hbuild
  obtain ⟨-, hsensor, -⟩ := hl.1.get hget
  obtain ⟨x, hx⟩ := hsensor rfl
  refine ⟨?_, hl.2.1, hl.2.2, v, rfl⟩
  show ∀ c ∈ child.fqName.toList, _
  rw [hx]
  exact isNameChar_adaptSensorName x

end Message

/-- **WHICH LINES ARE FAITHFUL**: for every specification and every self-describing
    message, a metric becomes one line that reads back as the metric exactly when
    its names are not empty and do not begin with a digit, its label values need no
    escapes, its value is a number, and its timestamp fits 63 bits. -/
theorem prometheus_lines_iff (ff : FloatFormat) (other : AtomVal → String)
    (sprintNode : SpecNode → String) (specSet : List (String × SpecNode)) (env : MetricsEnv)
    (henv : env.handler = prometheusHandler ff other sprintNode)
    (hdb : buildSpecDB env.handler specSet = .ok env.specDB)
    (m : DataMsgGPB) (hkv : m.cachedDecode.dataGpb = none) (c : NameCache) :
    ∀ b ∈ buildCalls (produceMetrics env m c).1,
      (Faithful env.handler.sprintAtom b
        (buildMetric env.handler.sprintAtom b.tags b.sensor b.ts) ↔ LineSafe b) := by
  obtain ⟨handler, specDB, archive, order⟩ := env
  dsimp only at henv hdb ⊢
  subst henv
  intro b hb
  rw [← flatMap_groups (settled_produceMetrics _ m c)] at hb
  obtain ⟨g, hg, hbg⟩ := List.mem_flatMap.mp hb
  rw [groups_produceMetrics_kv _ hkv] at hg
  obtain ⟨l, hl, hgroup⟩ := List.mem_filterMap.mp hg
  obtain ⟨-, rfl⟩ := Level.group?_eq_some.mp hgroup
  rw [kvLevels] at hl
  cases hnode : GoMap.get specDB m.cachedDecode.encodingPath with
  | none =>
      simp only [hnode] at hl
      exact absurd hl List.not_mem_nil
  | some node =>
      simp only [hnode] at hl
      obtain ⟨spec, ptr, -, hbuilt⟩ := get_buildSpecDB hdb hnode
      have hlevel := wireLevel_messageLevels ⟨_, _, _, _, hbuilt⟩ m l hl
      exact faithful_iff ff other (wireBuild_of_mem hlevel hbg)

theorem floatText_zero : FloatText "0" := by
  refine ⟨by decide +kernel, ?_⟩
  show ∀ c ∈ ['0'], _
  exact List.forall_mem_singleton.mpr (Or.inl rfl)

/-- Floating-point numbers do not come up in the samples. -/
def sampleFloats : FloatFormat :=
  ⟨fun _ => "0", fun _ => "0", fun _ => floatText_zero, fun _ => floatText_zero⟩

def samplePrometheus : Handler := prometheusHandler sampleFloats (fun _ => "") (fun _ => "")

/-- The interface specification, built for this handler. -/
def samplePrometheusEnv : MetricsEnv where
  handler := samplePrometheus
  specDB := (buildSpecDB samplePrometheus sampleSpec).toOption.getD []
  archive := fun _ => none
  order := sampleEnv.order

theorem prometheus_lines_sample :
    (buildCalls (produceMetrics samplePrometheusEnv sampleKv ⟨[], [], 0⟩).1).map (·.sensor.key)
        = ["up", "stats__bytes", "stats__bytes"] ∧
      ∀ b ∈ buildCalls (produceMetrics samplePrometheusEnv sampleKv ⟨[], [], 0⟩).1,
        (Faithful samplePrometheus.sprintAtom b
          (buildMetric samplePrometheus.sprintAtom b.tags b.sensor b.ts) ↔ LineSafe b) :=
  ⟨by decide +kernel, prometheus_lines_iff sampleFloats (fun _ => "") (fun _ => "") sampleSpec
    samplePrometheusEnv rfl rfl sampleKv rfl ⟨[], [], 0⟩⟩

/-- A row whose key has a quote in it. -/
def quotedKv : DataMsgGPB :=
  ⟨[], "r1",
    { nodeIdStr := none, subscriptionIdStr := none, encodingPath := "intf"
      collectionId := 0, collectionStartTime := 0, msgTimestamp := 7
      dataGpbkv :=
        [.mk 0 "" none
          [.mk 0 "keys" none [.mk 0 "name" (some (.string "to \"core\"")) []],
           .mk 0 "content" none [.mk 0 "up" (some (.uint32 1)) []]]]
      dataGpb := none, collectionEndTime := 0 }⟩

/-- The value of the label ends at the quote in it, and the line cannot be read. -/
theorem prometheus_line_quoted :
    ¬ ∀ b ∈ buildCalls (produceMetrics samplePrometheusEnv quotedKv ⟨[], [], 0⟩).1,
      Faithful samplePrometheus.sprintAtom b
        (buildMetric samplePrometheus.sprintAtom b.tags b.sensor b.ts) := by
  intro hall
  obtain ⟨body, hbody, -, v, hread⟩ := hall _ (List.mem_cons_self ..)
  have hline : body
      = "up\x7bEncodingPath=\"intf\",Producer=\"r1\",name=\"to \"core\"\"\x7d 1 7".toList := by
    refine List.append_cancel_right (hbody.symm.trans ?_)
    decide +kernel
  have hnone : parseLine body = none := by
    rw [hline]
    decide +kernel
  rw [hnone] at hread
  cases hread

end PipelinePrometheusLine
