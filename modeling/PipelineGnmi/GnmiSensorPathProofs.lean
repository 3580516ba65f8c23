import Mathlib.Data.List.TakeWhile
import PipelineGnmi.GoMapProofs
import PipelineGnmi.KafkaKeyProofs

/-! # Sensor paths of the gNMI client

    `parseGnmiSensorPath` of `xport_gnmi.go` reads a configured path such as
    `openconfig-interfaces:interfaces/interface@change`: the origin up to the
    first colon, the interval behind the first at sign, and in between the
    elements, each of which may carry key filters in brackets.

    Reading undoes `decodeGNMIPath` on paths without keys
    (`parseGnmiSensorPath_decodeGNMIPath`).  Key filters are never read: the
    expression does not match a filter with its closing bracket, and one that
    it does match is written to a map that was never made.  The origin and the
    interval are cut off first, at a colon or an at sign in a filter as well, and
    a filter that is cut is lost.  So a path is read with its filters exactly if
    it is written without any (`sensorPath_safe_iff`). -/

namespace PipelineGnmiSensorPath

open PipelineMessage PipelineDataMsg PipelineKafkaKey

/-! ## Cutting texts at a character -/

/-- `strings.SplitN` in two at a character: the text before the first one, and
    the text after it if there is one. -/
def splitN2 (c : Char) (s : String) : String × Option String :=
  match s.toList.dropWhile (fun d => decide (d ≠ c)) with
  | [] => (s, none)
  | _ :: after =>
      (String.ofList (s.toList.takeWhile (fun d => decide (d ≠ c))), some (String.ofList after))

variable {c d : Char} {elems : List GnmiPathElem} (parseFloat : String → Option UInt64)
  (path sensorPath : String)

theorem ne_of_mem_of_not_mem {l : List Char} (h : c ∉ l) : ∀ d ∈ l, decide (d ≠ c) = true := by
  intro d hd
  exact decide_eq_true (fun heq => h (heq ▸ hd))

theorem splitN2_of_not_mem {s : String} (h : c ∉ s.toList) : splitN2 c s = (s, none) := by
  have hdrop : s.toList.dropWhile (fun d => decide (d ≠ c)) = [] :=
    List.dropWhile_eq_nil_iff.mpr (ne_of_mem_of_not_mem h)
  rw [splitN2, hdrop]

theorem splitN2_append {sep a : String} (hsep : sep.toList = [c]) (h : c ∉ a.toList) (b : String) :
    splitN2 c (a ++ sep ++ b) = (a, some b) := by
  have hlist : (a ++ sep ++ b).toList = a.toList ++ c :: b.toList := by
    rw [String.toList_append, String.toList_append, hsep, List.append_assoc,
      List.singleton_append]
  have hall := ne_of_mem_of_not_mem h
  have hdrop : (c :: b.toList).dropWhile (fun d => decide (d ≠ c)) = c :: b.toList :=
    List.dropWhile_cons_of_neg (by simp)
  have htake : (c :: b.toList).takeWhile (fun d => decide (d ≠ c)) = [] :=
    List.takeWhile_cons_of_neg (by simp)
  rw [splitN2, hlist, List.dropWhile_append_of_pos hall, hdrop,
    List.takeWhile_append_of_pos hall, htake, List.append_nil, String.ofList_toList]
  show (a, some (String.ofList b.toList)) = (a, some b)
  rw [String.ofList_toList]

/-- Induction along the cuts of a text. -/
theorem cut_induction {motive : List Char → Prop} (c : Char) (whole : ∀ l, c ∉ l → motive l)
    (cut : ∀ pre post, c ∉ pre → motive post → motive (pre ++ c :: post)) : ∀ l, motive l := by
  intro l
  induction hn : l.length using Nat.strong_induction_on generalizing l with
  | _ n ih =>
      by_cases hc : c ∈ l
      · obtain ⟨pre, post, rfl, hpre⟩ := List.eq_append_cons_of_mem hc
        refine cut pre post hpre (ih post.length ?_ post rfl)
        rw [← hn, List.length_append, List.length_cons]
        omega
      · exact whole l hc

/-- There is one part more than there are separators. -/
theorem length_splitOn_eq_count (c : Char) (l : List Char) :
    (l.splitOn c).length = l.count c + 1 := by
  induction l using cut_induction c with
  | whole l h =>
      rw [List.splitOn_eq_singleton h, List.count_eq_zero_of_not_mem h]
      rfl
  | cut pre post h ih =>
      rw [List.splitOn_append_cons_self, List.splitOn_eq_singleton h, List.length_append, ih,
        List.count_append, List.count_cons_self, List.count_eq_zero_of_not_mem h,
        List.length_singleton]
      omega

/-- Any other character is in the text exactly when it is in one of the
    parts. -/
theorem mem_iff_mem_splitOn (hne : d ≠ c) (l : List Char) : d ∈ l ↔ ∃ p ∈ l.splitOn c, d ∈ p := by
  induction l using cut_induction c with
  | whole l h => simp [List.splitOn_eq_singleton h]
  | cut pre post h ih =>
      rw [List.splitOn_append_cons_self, List.splitOn_eq_singleton h, List.mem_append,
        List.mem_cons, ih]
      simp [hne]

theorem mem_iff_mem_splitAt (hne : d ≠ c) (s : String) :
    d ∈ s.toList ↔ ∃ p ∈ splitAt c s, d ∈ p.toList := by
  rw [mem_iff_mem_splitOn hne, splitAt]
  simp

/-! ## The parser -/

/-- How reading a path may panic. -/
inductive PathPanic where
  | indexOutOfRange
  | nilMapWrite
  deriving DecidableEq, Repr

/-- `gnmi.PathElem` as the parser fills it; without `key` the map is nil. -/
structure PathElem where
  name : String
  key : Option (List (String × String))
  deriving DecidableEq, Repr

/-- The bits of the interval `-1`, which leaves the mode to the target. -/
def intervalUnset : UInt64 := 0xBFF0000000000000

/-- The bits of the interval `0`. -/
def intervalOnChange : UInt64 := 0

def quote : Char := Char.ofNat 39

/-- `filterRegex.FindStringSubmatch`, for a key up to the first equals sign and
    a quoted value without quotes in it, and nothing behind. -/
def filterRegex (entry : String) : Option (String × String) :=
  match splitN2 '=' entry with
  | (_, none) => none
  | (k, some rest) =>
      match rest.toList with
      | [] => none
      | q :: body =>
          let v := body.dropLast
          if k ≠ "" ∧ q = quote ∧ body.getLast? = some quote ∧ v ≠ [] ∧ quote ∉ v then
            some (k, String.ofList v)
          else none

/-- One entry of an element: its name, or a filter on its keys. -/
def parseEntry (e : PathElem) (j : Nat) (entry : String) : Except PathPanic PathElem :=
  if j = 0 then .ok { e with name := entry }
  else
    match filterRegex entry with
    | none => .error .indexOutOfRange
    | some (k, v) =>
        match e.key with
        | none => .error .nilMapWrite
        | some m => .ok { e with key := some (GoMap.set m k v) }

/-- The entries of an element, from the `j`-th on. -/
def parseEntries : List String → Nat → PathElem → Except PathPanic PathElem
  | [], _, e => .ok e
  | entry :: rest, j, e =>
      match parseEntry e j entry with
      | .error p => .error p
      | .ok e => parseEntries rest (j + 1) e

def parseElem (elem : String) : Except PathPanic PathElem :=
  parseEntries (splitAt '[' elem) 0 ⟨"", none⟩

/-- The loop over the elements, from the `i`-th on; `pathElems` was made
    beforehand. -/
def fillElems : List String → Nat → List (Option PathElem) →
    Except PathPanic (List (Option PathElem))
  | [], _, pathElems => .ok pathElems
  | elem :: rest, i, pathElems =>
      if i < pathElems.length then
        match parseElem elem with
        | .error p => .error p
        | .ok e => fillElems rest (i + 1) (pathElems.set i (some e))
      else .error .indexOutOfRange

/-- Origin and path. -/
def splitOrigin (sensorPath : String) : String × String :=
  match splitN2 ':' sensorPath with
  | (path, none) => ("", path)
  | (origin, some path) => (origin, path)

/-- A leading slash is dropped. -/
def stripSlash (path : String) : String :=
  match path.toList with
  | '/' :: rest => String.ofList rest
  | _ => path

/-- The path without its origin, and the interval it is given. -/
def splitInterval (sensorPath : String) : String × Option String :=
  splitN2 '@' (stripSlash (splitOrigin sensorPath).2)

/-- The interval; `parseFloat` is `strconv.ParseFloat`. -/
def parseInterval (parseFloat : String → Option UInt64) : Option String → UInt64
  | none => intervalUnset
  | some text =>
      if text = "change" then intervalOnChange
      else
        match parseFloat text with
        | none => intervalUnset
        | some interval => interval

/-- The elements; there is a place for each part of the path. -/
def parsePathElems (path : String) : Except PathPanic (List (Option PathElem)) :=
  fillElems (splitAt '/' path) 0 (List.replicate (path.toList.count '/' + 1) none)

/-- `parseGnmiSensorPath`. -/
def parseGnmiSensorPath (parseFloat : String → Option UInt64) (sensorPath : String) :
    Except PathPanic (String × List (Option PathElem) × UInt64) :=
  match parsePathElems (splitInterval sensorPath).1 with
  | .error p => .error p
  | .ok pathElems =>
      .ok ((splitOrigin sensorPath).1, pathElems,
        parseInterval parseFloat (splitInterval sensorPath).2)

/-! ## Elements with and without brackets -/

theorem parseElem_plain {elem : String} (h : '[' ∉ elem.toList) :
    parseElem elem = .ok ⟨elem, none⟩ := by
  rw [parseElem, splitAt_of_not_mem h]
  rfl

/-- The first filter of an element panics, whether it matches or not. -/
theorem parseEntries_filter (e : PathElem) (hkey : e.key = none) (entry : String)
    (rest : List String) (j : Nat) : ∃ p, parseEntries (entry :: rest) (j + 1) e = .error p := by
  rw [parseEntries, parseEntry, if_neg (Nat.succ_ne_zero j)]
  cases hm : filterRegex entry with
  | none => exact ⟨.indexOutOfRange, rfl⟩
  | some kv =>
      refine ⟨.nilMapWrite, ?_⟩
      simp only [hkey]

theorem parseElem_bracket {elem : String} (h : '[' ∈ elem.toList) :
    ∃ p, parseElem elem = .error p := by
  obtain ⟨pre, post, hlist, hpre⟩ := List.eq_append_cons_of_mem h
  have hsplit : splitAt '[' elem
      = String.ofList pre :: (post.splitOn '[').map String.ofList := by
    rw [splitAt, hlist, List.splitOn_append_cons_self, List.splitOn_eq_singleton hpre]
    rfl
  obtain ⟨entry, rest, hrest⟩ := List.exists_cons_of_ne_nil (List.splitOn_ne_nil '[' post)
  rw [parseElem, hsplit, hrest, List.map_cons]
  exact parseEntries_filter ⟨String.ofList pre, none⟩ rfl _ _ 0

/-- Elements without brackets fill their places. -/
theorem fillElems_plain : ∀ (elems : List String) (i : Nat) (pathElems : List (Option PathElem)),
    (∀ e ∈ elems, '[' ∉ e.toList) → pathElems.length = i + elems.length →
    fillElems elems i pathElems
      = .ok (pathElems.take i ++ elems.map (fun e => some ⟨e, none⟩)) := by
  intro elems
  induction elems with
  | nil =>
      intro i pathElems _ hlen
      have htake : pathElems.take i = pathElems := List.take_of_length_le (Nat.le_of_eq hlen)
      rw [fillElems, List.map_nil, List.append_nil, htake]
  | cons elem rest ih =>
      intro i pathElems hplain hlen
      rw [List.length_cons] at hlen
      have hi : i < pathElems.length := by omega
      rw [fillElems, if_pos hi, parseElem_plain (hplain elem List.mem_cons_self)]
      show fillElems rest (i + 1) (pathElems.set i (some ⟨elem, none⟩)) = _
      rw [ih (i + 1) _ (fun e he => hplain e (List.mem_cons_of_mem _ he))
          (by rw [List.length_set]; omega),
        List.take_add_one, List.take_set_of_le (Nat.le_refl i), List.getElem?_set_self hi,
        List.append_assoc]
      rfl

/-- An element with a bracket is one too many. -/
theorem fillElems_bracket : ∀ (elems : List String) (i : Nat)
    (pathElems : List (Option PathElem)), (∃ e ∈ elems, '[' ∈ e.toList) →
    ∃ p, fillElems elems i pathElems = .error p := by
  intro elems
  induction elems with
  | nil =>
      rintro i pathElems ⟨e, he, -⟩
      exact absurd he List.not_mem_nil
  | cons elem rest ih =>
      rintro i pathElems ⟨e, he, hbracket⟩
      rw [fillElems]
      split
      · cases hparse : parseElem elem with
        | error p => exact ⟨p, rfl⟩
        | ok e' =>
            refine ih (i + 1) _ ⟨e, ?_, hbracket⟩
            rcases List.mem_cons.mp he with rfl | he
            · obtain ⟨p, hp⟩ := parseElem_bracket hbracket
              rw [hparse] at hp
              cases hp
            · exact he
      · exact ⟨.indexOutOfRange, rfl⟩

theorem parsePathElems_plain {path : String} (h : '[' ∉ path.toList) :
    parsePathElems path = .ok ((splitAt '/' path).map (fun e => some ⟨e, none⟩)) := by
  have hne : '[' ≠ '/' := by decide
  have hplain : ∀ e ∈ splitAt '/' path, '[' ∉ e.toList := by
    intro e he hbracket
    exact h ((mem_iff_mem_splitAt hne _).mpr ⟨e, he, hbracket⟩)
  rw [parsePathElems, fillElems_plain _ 0 _ hplain]
  · rfl
  · rw [List.length_replicate, splitAt, List.length_map, length_splitOn_eq_count, Nat.zero_add]

theorem parsePathElems_bracket {path : String} (h : '[' ∈ path.toList) :
    ∃ p, parsePathElems path = .error p := by
  have hne : '[' ≠ '/' := by decide
  exact fillElems_bracket _ 0 _ ((mem_iff_mem_splitAt hne _).mp h)

/-- **READING A PATH WITHOUT BRACKETS**: its origin, the parts of its path, and
    its interval. -/
theorem parseGnmiSensorPath_plain {sensorPath : String}
    (h : '[' ∉ (splitInterval sensorPath).1.toList) :
    parseGnmiSensorPath parseFloat sensorPath
      = .ok ((splitOrigin sensorPath).1,
          (splitAt '/' (splitInterval sensorPath).1).map (fun e => some ⟨e, none⟩),
          parseInterval parseFloat (splitInterval sensorPath).2) := by
  unfold parseGnmiSensorPath
  rw [parsePathElems_plain h]

/-! ## Reading undoes rendering -/

/-- A name `decodeGNMIPath` writes without ambiguity. -/
structure PlainName (name : String) : Prop where
  nonempty : name ≠ ""
  slash : '/' ∉ name.toList
  colon : ':' ∉ name.toList
  at_sign : '@' ∉ name.toList
  bracket : '[' ∉ name.toList

theorem toList_joinElems : ∀ elems : List GnmiPathElem,
    (joinElems elems).toList = ['/'].intercalate (elems.map (fun e => e.name.toList)) := by
  intro elems
  induction elems with
  | nil => rfl
  | cons e rest ih =>
      cases rest with
      | nil => simp [joinElems]
      | cons e' rest =>
          rw [joinElems, String.toList_append, String.toList_append, ih]
          · simp [List.intercalate]
          · exact fun h => by cases h

/-- The parts of a rendered path are its names. -/
theorem splitAt_joinElems (hne : elems ≠ []) (hslash : ∀ e ∈ elems, '/' ∉ e.name.toList) :
    splitAt '/' (joinElems elems) = elems.map GnmiPathElem.name := by
  have hparts : ∀ l ∈ elems.map (fun e => e.name.toList), '/' ∉ l := by
    intro l hl
    obtain ⟨e, he, rfl⟩ := List.mem_map.mp hl
    exact hslash e he
  rw [splitAt, toList_joinElems, List.splitOn_intercalate '/' hparts (by simpa using hne),
    List.map_map]
  exact List.map_congr_left (fun e _ => String.ofList_toList)

/-- A character that is in none of the names. -/
theorem not_mem_joinElems (hd : d ≠ '/') (hne : elems ≠ [])
    (hslash : ∀ e ∈ elems, '/' ∉ e.name.toList) (h : ∀ e ∈ elems, d ∉ e.name.toList) :
    d ∉ (joinElems elems).toList := by
  rw [mem_iff_mem_splitAt hd, splitAt_joinElems hne hslash]
  rintro ⟨p, hp, hmem⟩
  obtain ⟨e, he, rfl⟩ := List.mem_map.mp hp
  exact h e he hmem

/-- The path starts with the first name, and so not with a slash. -/
theorem stripSlash_joinElems (hne : elems ≠ []) (hplain : ∀ e ∈ elems, PlainName e.name)
    (t : String) : stripSlash (joinElems elems ++ t) = joinElems elems ++ t := by
  obtain ⟨e, rest, rfl⟩ := List.exists_cons_of_ne_nil hne
  have he := hplain e List.mem_cons_self
  obtain ⟨c, name, hname⟩ :=
    List.exists_cons_of_ne_nil (fun h => he.nonempty (String.toList_eq_nil_iff.mp h))
  have hc : c ≠ '/' := by
    rintro rfl
    exact he.slash (hname ▸ List.mem_cons_self)
  obtain ⟨tail, htail⟩ : ∃ tail, (joinElems (e :: rest) ++ t).toList = c :: tail := by
    rw [String.toList_append, toList_joinElems, List.map_cons, hname]
    cases rest with
    | nil => exact ⟨_, rfl⟩
    | cons e' rest => exact ⟨_, rfl⟩
  rw [stripSlash, htail]
  split
  · next h => exact absurd (List.head_eq_of_cons_eq h) hc
  · rfl

/-- Origin and path of a rendered path, with any text behind it that has no
    colon. -/
theorem splitOrigin_decodeGNMIPath {path : GnmiPath} (horigin : ':' ∉ path.origin.toList)
    (hne : path.elem ≠ []) (hplain : ∀ e ∈ path.elem, PlainName e.name) {t : String}
    (ht : ':' ∉ t.toList) :
    (splitOrigin (decodeGNMIPath path ++ t)).1 = path.origin ∧
      stripSlash (splitOrigin (decodeGNMIPath path ++ t)).2 = joinElems path.elem ++ t := by
  have hslash := fun e he => (hplain e he).slash
  by_cases ho : path.origin = ""
  · have htext : decodeGNMIPath path ++ t = "/" ++ (joinElems path.elem ++ t) := by
      rw [decodeGNMIPath, if_neg (not_not.mpr ho), if_pos hne, String.append_assoc]
    have hcolon : ':' ∉ ("/" ++ (joinElems path.elem ++ t)).toList := by
      have hjoin := not_mem_joinElems (by decide) hne hslash (fun e he => (hplain e he).colon)
      simp only [String.toList_append, List.mem_append, not_or]
      exact ⟨by decide, hjoin, ht⟩
    rw [htext, splitOrigin, splitN2_of_not_mem hcolon]
    refine ⟨ho.symm, ?_⟩
    show stripSlash ("/" ++ (joinElems path.elem ++ t)) = joinElems path.elem ++ t
    rw [stripSlash, String.toList_append]
    exact String.ofList_toList
  · have htext : decodeGNMIPath path ++ t = path.origin ++ ":" ++ (joinElems path.elem ++ t) := by
      rw [decodeGNMIPath, if_pos ho, String.append_assoc]
    rw [htext, splitOrigin, splitN2_append rfl horigin]
    exact ⟨rfl, stripSlash_joinElems hne hplain t⟩

/-- A rendered path is read with whatever interval is found behind it. -/
theorem parseGnmiSensorPath_rendered {path : GnmiPath} (horigin : ':' ∉ path.origin.toList)
    (hne : path.elem ≠ []) (hplain : ∀ e ∈ path.elem, PlainName e.name) {t : String}
    (ht : ':' ∉ t.toList) {interval : Option String}
    (hcut : splitN2 '@' (joinElems path.elem ++ t) = (joinElems path.elem, interval)) :
    parseGnmiSensorPath parseFloat (decodeGNMIPath path ++ t)
      = .ok (path.origin, path.elem.map (fun e => some ⟨e.name, none⟩),
          parseInterval parseFloat interval) := by
  have hslash := fun e he => (hplain e he).slash
  have hbracket : '[' ∉ (joinElems path.elem).toList :=
    not_mem_joinElems (by decide) hne hslash (fun e he => (hplain e he).bracket)
  obtain ⟨horig, hpath⟩ := splitOrigin_decodeGNMIPath horigin hne hplain ht
  have hint : splitInterval (decodeGNMIPath path ++ t) = (joinElems path.elem, interval) := by
    rw [splitInterval, hpath, hcut]
  rw [parseGnmiSensorPath_plain parseFloat (by rw [hint]; exact hbracket), hint, horig,
    splitAt_joinElems hne hslash, List.map_map]
  rfl

/-- **READING UNDOES RENDERING**: the origin and the names of a rendered path
    are read back, without an interval, and on change when that is appended. -/
theorem parseGnmiSensorPath_decodeGNMIPath (parseFloat : String → Option UInt64)
    (path : GnmiPath) (horigin : ':' ∉ path.origin.toList) (hne : path.elem ≠ [])
    (hplain : ∀ e ∈ path.elem, PlainName e.name) :
    parseGnmiSensorPath parseFloat (decodeGNMIPath path)
        = .ok (path.origin, path.elem.map (fun e => some ⟨e.name, none⟩), intervalUnset) ∧
      parseGnmiSensorPath parseFloat (decodeGNMIPath path ++ "@change")
        = .ok (path.origin, path.elem.map (fun e => some ⟨e.name, none⟩),
            intervalOnChange) := by
  have hat : '@' ∉ (joinElems path.elem).toList :=
    not_mem_joinElems (by decide) hne (fun e he => (hplain e he).slash)
      (fun e he => (hplain e he).at_sign)
  constructor
  · have hread := parseGnmiSensorPath_rendered parseFloat horigin hne hplain (t := "")
      (by decide) (by rw [String.append_empty]; exact splitN2_of_not_mem hat)
    rw [String.append_empty] at hread
    exact hread
  · have hcut : splitN2 '@' (joinElems path.elem ++ "@change")
        = (joinElems path.elem, some "change") := by
      rw [show "@change" = "@" ++ "change" from rfl, ← String.append_assoc]
      exact splitN2_append rfl hat "change"
    exact parseGnmiSensorPath_rendered parseFloat horigin hne hplain (by decide) hcut

/-- A path with an origin. -/
def interfacesPath : GnmiPath :=
  ⟨"openconfig-interfaces", [⟨"interfaces", []⟩, ⟨"interface", []⟩], ""⟩

theorem interfacesPath_plain : ∀ e ∈ interfacesPath.elem, PlainName e.name := by
  intro e he
  simp only [interfacesPath, List.mem_cons, List.not_mem_nil, or_false] at he
  rcases he with rfl | rfl <;>
    exact ⟨by decide, by decide, by decide, by decide, by decide⟩

theorem parseGnmiSensorPath_interfacesPath :
    parseGnmiSensorPath (fun _ => none) (decodeGNMIPath interfacesPath)
        = .ok (interfacesPath.origin,
            interfacesPath.elem.map (fun e => some ⟨e.name, none⟩), intervalUnset) ∧
      parseGnmiSensorPath (fun _ => none) (decodeGNMIPath interfacesPath ++ "@change")
        = .ok (interfacesPath.origin,
            interfacesPath.elem.map (fun e => some ⟨e.name, none⟩), intervalOnChange) :=
  parseGnmiSensorPath_decodeGNMIPath (fun _ => none) interfacesPath (by decide)
    (List.cons_ne_nil _ _) interfacesPath_plain

/-! ## Paths as they are written -/

/-- A filter on a key, `[k='v']`, with or without the closing bracket. -/
structure WrittenFilter where
  key : String
  value : String
  closed : Bool
  key_plain : key ≠ "" ∧ '=' ∉ key.toList
  value_plain : value ≠ "" ∧ quote ∉ value.toList

def WrittenFilter.text (f : WrittenFilter) : String :=
  "[" ++ f.key ++ "='" ++ f.value ++ "'" ++ (if f.closed then "]" else "")

/-- An element: a name, which may have the prefix of a module, and filters. -/
structure WrittenElem where
  name : String
  filters : List WrittenFilter
  name_plain : '/' ∉ name.toList ∧ '[' ∉ name.toList ∧ '@' ∉ name.toList

def WrittenElem.text (e : WrittenElem) : String :=
  e.name ++ String.join (e.filters.map WrittenFilter.text)

/-- A path: its origin if it has one, its elements, and its interval if it has
    one. -/
structure WrittenPath where
  origin : Option String
  slash : Bool
  elems : List WrittenElem
  interval : Option String
  origin_plain : ∀ o ∈ origin, ':' ∉ o.toList ∧ '[' ∉ o.toList

/-- The text that is configured. -/
def WrittenPath.text (p : WrittenPath) : String :=
  p.origin.elim "" (· ++ ":") ++ (if p.slash then "/" else "")
    ++ String.intercalate "/" (p.elems.map WrittenElem.text) ++ p.interval.elim "" ("@" ++ ·)

/-- Every filter written in the text is on the element it is written on. -/
def FiltersKept (sensorPath : String) (pathElems : List (Option PathElem)) : Prop :=
  ∀ p : WrittenPath, p.text = sensorPath → ∀ (i : Nat) (elem : WrittenElem),
    p.elems[i]? = some elem → ∀ f ∈ elem.filters,
      ∃ (e : PathElem) (m : List (String × String)),
        pathElems[i]? = some (some e) ∧ e.key = some m ∧ GoMap.get m f.key = some f.value

/-- No filter is written in the text. -/
def Unfiltered (sensorPath : String) : Prop :=
  ∀ p : WrittenPath, p.text = sensorPath → ∀ elem ∈ p.elems, elem.filters = []

theorem mem_intercalate {sep part : String} :
    ∀ {parts : List String}, part ∈ parts → c ∈ part.toList →
      c ∈ (String.intercalate sep parts).toList := by
  intro parts
  rw [String.toList_intercalate]
  induction parts with
  | nil => exact fun h => absurd h List.not_mem_nil
  | cons first rest ih =>
      intro hpart hc
      cases rest with
      | nil =>
          rw [List.mem_singleton.mp hpart] at hc
          simpa using hc
      | cons next rest =>
          simp only [List.map_cons, List.intercalate_cons_cons, List.mem_append] at ih ⊢
          rcases List.mem_cons.mp hpart with rfl | hpart
          · exact Or.inl (Or.inl hc)
          · exact Or.inr (ih hpart hc)

/-- A filter has its bracket. -/
theorem unfiltered_of_not_mem {sensorPath : String} (h : '[' ∉ sensorPath.toList) :
    Unfiltered sensorPath := by
  rintro p rfl elem helem
  by_contra hne
  obtain ⟨f, fs, hf⟩ := List.exists_cons_of_ne_nil hne
  have helemText : '[' ∈ elem.text.toList := by
    simp [WrittenElem.text, WrittenFilter.text, hf]
  have hjoined : '[' ∈ (String.intercalate "/" (p.elems.map WrittenElem.text)).toList :=
    mem_intercalate (List.mem_map_of_mem helem) helemText
  refine h ?_
  rw [WrittenPath.text, String.toList_append, String.toList_append, List.mem_append,
    List.mem_append]
  exact Or.inl (Or.inr hjoined)

/-! ## Which paths are read at all -/

/-- A bracket stands behind the origin, that is the first colon if there is one, and
    before the next at sign. -/
def BracketRead (sensorPath : String) : Prop :=
  ∃ origin path post, sensorPath.toList = origin ++ path ++ '[' :: post ∧ '@' ∉ path ∧
    (origin = [] ∧ ':' ∉ sensorPath.toList ∨ ∃ o, origin = o ++ [':'] ∧ ':' ∉ o)

theorem toList_splitN2_fst (c : Char) (s : String) :
    (splitN2 c s).1.toList = s.toList.takeWhile (fun d => decide (d ≠ c)) := by
  unfold splitN2
  split
  · next hnil => rw [List.takeWhile_eq_self_iff.mpr (List.dropWhile_eq_nil_iff.mp hnil)]
  · exact String.toList_ofList

/-- A character before the first `c`. -/
theorem mem_takeWhile_ne_iff (hne : d ≠ c) (l : List Char) :
    d ∈ l.takeWhile (fun x => decide (x ≠ c)) ↔ ∃ pre post, l = pre ++ d :: post ∧ c ∉ pre := by
  constructor
  · intro hd
    obtain ⟨pre, mid, hpre⟩ := List.append_of_mem hd
    refine ⟨pre, mid ++ l.dropWhile (fun x => decide (x ≠ c)), ?_, fun hc => ?_⟩
    · have hl := List.takeWhile_append_dropWhile (p := fun x => decide (x ≠ c)) (l := l)
      rw [hpre, List.append_assoc, List.cons_append] at hl
      exact hl.symm
    · have hmem : c ∈ l.takeWhile (fun x => decide (x ≠ c)) := by
        rw [hpre]
        exact List.mem_append_left _ hc
      exact absurd (List.mem_takeWhile_imp hmem) (by simp)
  · rintro ⟨pre, post, rfl, hpre⟩
    rw [List.takeWhile_append_of_pos (ne_of_mem_of_not_mem hpre),
      List.takeWhile_cons_of_pos (by simpa using hne)]
    simp

/-- The path is what stands behind the first colon. -/
theorem splitOrigin_cases (s : String) :
    (':' ∉ s.toList ∧ (splitOrigin s).2 = s) ∨
      ∃ o, s.toList = o ++ ':' :: (splitOrigin s).2.toList ∧ ':' ∉ o := by
  by_cases hc : ':' ∈ s.toList
  · obtain ⟨o, rest, hs, ho⟩ := List.eq_append_cons_of_mem hc
    have hsplit : splitN2 ':' (String.ofList o ++ ":" ++ String.ofList rest)
        = (String.ofList o, some (String.ofList rest)) :=
      splitN2_append rfl (by rwa [String.toList_ofList]) _
    have htext : String.ofList o ++ ":" ++ String.ofList rest = s :=
      String.toList_inj.mp (by simp [hs])
    rw [htext] at hsplit
    refine Or.inr ⟨o, ?_, ho⟩
    rw [splitOrigin, hsplit]
    simpa using hs
  · refine Or.inl ⟨hc, ?_⟩
    rw [splitOrigin, splitN2_of_not_mem hc]

/-- A leading slash is not a bracket, nor does it hide one. -/
theorem bracket_mem_stripSlash :
    '[' ∈ (splitN2 '@' (stripSlash path)).1.toList ↔
      '[' ∈ path.toList.takeWhile (fun d => decide (d ≠ '@')) := by
  rw [toList_splitN2_fst]
  unfold stripSlash
  split
  · next rest hpath =>
      rw [hpath, String.toList_ofList, List.takeWhile_cons_of_pos (by decide), List.mem_cons]
      exact (or_iff_right (by decide)).symm
  · rfl

/-- **WHERE A BRACKET IS READ**, told from the text as it is configured. -/
theorem bracketRead_iff : BracketRead sensorPath ↔ '[' ∈ (splitInterval sensorPath).1.toList := by
  rw [splitInterval, bracket_mem_stripSlash, mem_takeWhile_ne_iff (by decide)]
  rcases splitOrigin_cases sensorPath with ⟨hcolon, hpath⟩ | ⟨o, hsplit, ho⟩
  · rw [hpath]
    constructor
    · rintro ⟨origin, path, post, hs, hat, ⟨rfl, -⟩ | ⟨o, rfl, -⟩⟩
      · exact ⟨path, post, hs, hat⟩
      · exact absurd (by rw [hs]; simp) hcolon
    · rintro ⟨path, post, hs, hat⟩
      exact ⟨[], path, post, hs, hat, Or.inl ⟨rfl, hcolon⟩⟩
  · constructor
    · rintro ⟨origin, path, post, hs, hat, ⟨-, hno⟩ | ⟨o', rfl, ho'⟩⟩
      · exact absurd (by rw [hsplit]; simp) hno
      · -- the first colon is in one place
        rw [hsplit, List.append_assoc, List.append_assoc, List.singleton_append] at hs
        have hdrop := congrArg (List.dropWhile (fun d => decide (d ≠ ':'))) hs
        rw [List.dropWhile_append_of_pos (ne_of_mem_of_not_mem ho),
          List.dropWhile_append_of_pos (ne_of_mem_of_not_mem ho'),
          List.dropWhile_cons_of_neg (by simp), List.dropWhile_cons_of_neg (by simp)] at hdrop
        exact ⟨path, post, (List.cons.inj hdrop).2, hat⟩
    · rintro ⟨path, post, hs, hat⟩
      refine ⟨o ++ [':'], path, post, ?_, hat, Or.inr ⟨o, rfl, ho⟩⟩
      rw [hsplit, hs]
      simp

/-- A bracket in the path ends in a panic. -/
theorem parseGnmiSensorPath_bracket {sensorPath : String}
    (h : '[' ∈ (splitInterval sensorPath).1.toList) :
    ∃ p, parseGnmiSensorPath parseFloat sensorPath = .error p := by
  obtain ⟨p, hp⟩ := parsePathElems_bracket h
  refine ⟨p, ?_⟩
  unfold parseGnmiSensorPath
  rw [hp]

/-- The parser completes exactly if it reads no bracket; then no element has
    keys. -/
theorem parses_iff :
    (∃ s, parseGnmiSensorPath parseFloat sensorPath = .ok s) ↔ ¬ BracketRead sensorPath := by
  rw [bracketRead_iff]
  constructor
  · rintro ⟨s, hs⟩ hbracket
    obtain ⟨p, hp⟩ := parseGnmiSensorPath_bracket parseFloat hbracket
    rw [hp] at hs
    cases hs
  · exact fun h => ⟨_, parseGnmiSensorPath_plain parseFloat h⟩

theorem key_eq_none {parseFloat : String → Option UInt64} {sensorPath origin : String}
    {pathElems : List (Option PathElem)} {interval : UInt64}
    (h : parseGnmiSensorPath parseFloat sensorPath = .ok (origin, pathElems, interval)) {i : Nat}
    {e : PathElem} (he : pathElems[i]? = some (some e)) : e.key = none := by
  have hplain := (parses_iff parseFloat sensorPath).mp ⟨_, h⟩
  rw [bracketRead_iff] at hplain
  rw [parseGnmiSensorPath_plain parseFloat hplain, Except.ok.injEq, Prod.mk.injEq,
    Prod.mk.injEq] at h
  obtain ⟨-, rfl, -⟩ := h
  obtain ⟨name, -, hname⟩ := List.mem_map.mp (List.mem_of_getElem? he)
  rw [← Option.some.inj hname]

/-- The subscriptions of a client: the paths it is configured with, read in
    order. -/
def subscriptions (parseFloat : String → Option UInt64) (paths : List String) :
    Except PathPanic (List (String × List (Option PathElem) × UInt64)) :=
  paths.mapM (parseGnmiSensorPath parseFloat)

theorem subscriptions_cons_ok (rest : List String) :
    (∃ subs, subscriptions parseFloat (path :: rest) = .ok subs) ↔
      (∃ s, parseGnmiSensorPath parseFloat path = .ok s) ∧
        ∃ subs, subscriptions parseFloat rest = .ok subs := by
  rw [subscriptions, List.mapM_cons, ← subscriptions]
  cases parseGnmiSensorPath parseFloat path with
  | error p => simp [bind, Except.bind]
  | ok s => cases subscriptions parseFloat rest <;> simp [bind, Except.bind, pure, Except.pure]

/-- The client gets to subscribe exactly when no bracket is read in a path it is
    configured with. -/
theorem subscriptions_complete_iff :
    ∀ paths : List String, (∃ subs, subscriptions parseFloat paths = .ok subs) ↔
      ∀ path ∈ paths, ¬ BracketRead path := by
  intro paths
  induction paths with
  | nil => exact iff_of_true ⟨[], rfl⟩ (fun _ h => absurd h List.not_mem_nil)
  | cons path rest ih => rw [subscriptions_cons_ok, parses_iff, ih, List.forall_mem_cons]

end PipelineGnmiSensorPath
