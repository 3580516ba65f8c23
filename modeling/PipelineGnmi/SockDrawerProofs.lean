import PipelineGnmi.GoMapProofs
import PipelineGnmi.DataMsgProofs

/-! # Flattening self-describing fields

    `telemetryKvToSockDrawer` of `codec_gpb.go` turns a list of fields into a
    map.  The second field of a name moves both values into an array, kept in
    the same map under the name with `_PIPELINE_EDIT` appended; later fields of
    the name are appended to the array through a type assertion.

    The derived name may itself be the name of a field.  `Arrayed` and `Moved`
    follow, over the names alone, when a name has been arrayed and when the
    array has been moved away under it; a later value for such a name is where
    the assertion fails (`placeField_none`), and nowhere else. -/

namespace PipelineSockDrawer

open PipelineMessage PipelineDataMsg

/-! ## The drawer -/

/-- The values of a `sockDrawer`: `nil` is the nil interface, `drawer` a
    pointer to the drawer of the children. -/
inductive SockVal where
  | nil
  | scalar (v : Scalar)
  | drawer (s : List (String × SockVal))
  | array (vs : List SockVal)

def SockVal.isNil : SockVal → Bool
  | .nil => true
  | _ => false

/-- `CODEC_GPB_PIPELINE_EDIT_SUFFIX`. -/
def codecGPBPipelineEditSuffix : String := "_PIPELINE_EDIT"

/-- The name the array of a repeated name is kept under. -/
def editName (name : String) : String := name ++ codecGPBPipelineEditSuffix

/-- The drawer and `placeInArrayMap`. -/
structure DrawerState where
  s : List (String × SockVal)
  placeInArrayMap : List String

/-- `s[newName] = append(s[newName].([]interface{}), v)`: none is the failing
    type assertion. -/
def appendEntry (s : List (String × SockVal)) (newName : String) (v : SockVal) :
    Option (List (String × SockVal)) :=
  match GoMap.get s newName with
  | some (.array vs) => some (GoMap.set s newName (.array (vs ++ [v])))
  | _ => none

/-- A name met a second time: its entry moves into a new array. -/
def arrayify (st : DrawerState) (name : String) (existing : SockVal) : Option DrawerState :=
  match appendEntry (GoMap.set st.s (editName name) (.array [])) (editName name) existing with
  | none => none
  | some s => some ⟨GoMap.del s name, name :: st.placeInArrayMap⟩

/-- The body of the loop, for a field of this name and value. -/
def placeField (st : DrawerState) (name : String) (fieldVal : SockVal) : Option DrawerState :=
  match GoMap.get st.s name, decide (name ∈ st.placeInArrayMap) with
  | none, false => some { st with s := GoMap.set st.s name fieldVal }
  | some existing, false =>
      match arrayify st name existing with
      | none => none
      | some st =>
          if fieldVal.isNil then some st
          else (appendEntry st.s (editName name) fieldVal).map (fun s => { st with s := s })
  | _, true =>
      -- an entry that is there all the same is only reported
      if fieldVal.isNil then some st
      else (appendEntry st.s (editName name) fieldVal).map (fun s => { st with s := s })

mutual

/-- The value of a field: the drawer of its children, or else its own value. -/
def sockValue : TelemetryField → Option SockVal
  | .mk _ _ value children =>
      if children.isEmpty then
        match value with
        | none => some .nil
        | some v => some (.scalar v)
      else
        match placeFields children ⟨[], []⟩ with
        | none => none
        | some st => some (.drawer st.s)

/-- The loop over the fields. -/
def placeFields : List TelemetryField → DrawerState → Option DrawerState
  | [], st => some st
  | field :: rest, st =>
      match sockValue field with
      | none => none
      | some fieldVal =>
          match placeField st field.name fieldVal with
          | none => none
          | some st => placeFields rest st

end

/-- `telemetryKvToSockDrawer`: the outer `none` is a failing type assertion,
    the inner one the nil drawer. -/
def telemetryKvToSockDrawer (item : List TelemetryField) :
    Option (Option (List (String × SockVal))) :=
  if item.isEmpty then some none
  else
    match placeFields item ⟨[], []⟩ with
    | none => none
    | some st => some (some st.s)

/-! ## Names that are arrayed, arrays that are moved -/

/-- A name is arrayed when it comes a second time, or when it comes after the
    name it is derived from has been arrayed. -/
inductive Arrayed : List String → String → Prop where
  | later {names : List String} {x n : String} :
      Arrayed names n → Arrayed (names ++ [x]) n
  | again {names : List String} {n : String} :
      n ∈ names → Arrayed (names ++ [n]) n
  | derived {names : List String} {m : String} :
      Arrayed names m → Arrayed (names ++ [editName m]) (editName m)

/-- The array of a name is moved when, the name being arrayed, a field comes
    that has the derived name and gets it arrayed in its turn. -/
inductive Moved : List String → String → Prop where
  | later {names : List String} {x n : String} :
      Moved names n → Moved (names ++ [x]) n
  | now {names : List String} {n : String} :
      Arrayed names n → ¬ Arrayed names (editName n) → Moved (names ++ [editName n]) n

theorem editName_inj {a b : String} : editName a = editName b ↔ a = b :=
  String.append_left_inj codecGPBPipelineEditSuffix

theorem editName_ne (a : String) : editName a ≠ a := by
  intro h
  have hlen := congrArg String.length h
  rw [editName, String.length_append] at hlen
  exact absurd hlen (by rw [show codecGPBPipelineEditSuffix.length = 14 from rfl]; omega)

/-- Whether there is an entry for a name that is not arrayed. -/
def Present (names : List String) (n : String) : Prop :=
  n ∈ names ∨ ∃ m, n = editName m ∧ Arrayed names m

variable {n x : String} {names : List String} {s : List (String × SockVal)} {st : DrawerState}

theorem arrayed_snoc : Arrayed (names ++ [x]) n ↔ Arrayed names n ∨ (x = n ∧ Present names n) := by
  constructor
  · intro h
    generalize hl : names ++ [x] = l at h
    cases h with
    | @later names' x' _ h =>
        obtain ⟨rfl, -⟩ := List.append_inj' hl rfl
        exact Or.inl h
    | @again names' _ h =>
        obtain ⟨rfl, hx⟩ := List.append_inj' hl rfl
        exact Or.inr ⟨List.head_eq_of_cons_eq hx, Or.inl h⟩
    | @derived names' m h =>
        obtain ⟨rfl, hx⟩ := List.append_inj' hl rfl
        exact Or.inr ⟨List.head_eq_of_cons_eq hx, Or.inr ⟨m, rfl, h⟩⟩
  · rintro (h | ⟨rfl, h | ⟨m, rfl, h⟩⟩)
    · exact .later h
    · exact .again h
    · exact .derived h

theorem moved_snoc :
    Moved (names ++ [x]) n ↔
      Moved names n ∨ (x = editName n ∧ Arrayed names n ∧ ¬ Arrayed names x) := by
  constructor
  · intro h
    generalize hl : names ++ [x] = l at h
    cases h with
    | @later names' x' _ h =>
        obtain ⟨rfl, -⟩ := List.append_inj' hl rfl
        exact Or.inl h
    | @now names' _ h hnot =>
        obtain ⟨rfl, hx⟩ := List.append_inj' hl rfl
        obtain rfl := List.head_eq_of_cons_eq hx
        exact Or.inr ⟨rfl, h, hnot⟩
  · rintro (h | ⟨rfl, h, hnot⟩)
    · exact .later h
    · exact .now h hnot

theorem not_arrayed_nil : ¬ Arrayed [] n := by
  intro h
  generalize hl : ([] : List String) = l at h
  cases h <;> exact absurd hl (by simp)

/-- Only an arrayed name has an array to move. -/
theorem Moved.arrayed (h : Moved names n) : Arrayed names n := by
  induction h with
  | later _ ih => exact .later ih
  | now h _ => exact .later h

/-! ## One field -/

/-- An entry that the type assertion accepts. -/
def IsArray : Option SockVal → Prop
  | some (.array _) => True
  | _ => False

/-- What the drawer holds after fields of these names. -/
structure Tracks (names : List String) (st : DrawerState) : Prop where
  placed : ∀ n, n ∈ st.placeInArrayMap ↔ Arrayed names n
  present : ∀ n, ¬ Arrayed names n → ((GoMap.get st.s n).isSome ↔ Present names n)
  array : ∀ n, Arrayed names n →
    (IsArray (GoMap.get st.s (editName n)) ↔ ¬ Moved names n)

theorem tracks_nil : Tracks [] ⟨[], []⟩ := by
  refine ⟨?_, ?_, ?_⟩
  · intro n
    exact ⟨fun h => (nomatch h), fun h => absurd h not_arrayed_nil⟩
  · intro n _
    constructor
    · intro h
      exact nomatch h
    · rintro (h | ⟨m, -, h⟩)
      · exact nomatch h
      · exact absurd h not_arrayed_nil
  · intro n h
    exact absurd h not_arrayed_nil

theorem isArray_iff : IsArray (GoMap.get s n) ↔ ∃ vs, GoMap.get s n = some (.array vs) := by
  unfold IsArray
  split
  · next vs h => exact ⟨fun _ => ⟨vs, h⟩, fun _ => trivial⟩
  · next h =>
      constructor
      · intro hf
        exact hf.elim
      · rintro ⟨vs, hvs⟩
        exact absurd hvs (h vs)

/-- Appending succeeds exactly on an array, and keeps it one. -/
theorem appendEntry_some (v : SockVal) (h : IsArray (GoMap.get s n)) :
    ∃ vs, appendEntry s n v = some (GoMap.set s n (.array vs)) := by
  obtain ⟨vs, hvs⟩ := isArray_iff.mp h
  exact ⟨vs ++ [v], by rw [appendEntry, hvs]⟩

theorem appendEntry_none (v : SockVal) (h : ¬ IsArray (GoMap.get s n)) :
    appendEntry s n v = none := by
  rw [isArray_iff] at h
  unfold appendEntry
  split
  · next vs hvs => exact absurd ⟨vs, hvs⟩ h
  · rfl

/-- The first field of a name. -/
theorem tracks_fresh (ht : Tracks names st) (harr : ¬ Arrayed names x)
    (hget : GoMap.get st.s x = none) (v : SockVal) :
    Tracks (names ++ [x]) { st with s := GoMap.set st.s x v } := by
  have habsent : ¬ Present names x := by
    intro hp
    have hsome := (ht.present x harr).mpr hp
    rw [hget] at hsome
    exact nomatch hsome
  have hsame : ∀ n, Arrayed (names ++ [x]) n ↔ Arrayed names n := by
    intro n
    rw [arrayed_snoc]
    constructor
    · rintro (h | ⟨rfl, h⟩)
      · exact h
      · exact absurd h habsent
    · exact Or.inl
  refine ⟨?_, ?_, ?_⟩
  · intro n
    rw [hsame]
    exact ht.placed n
  · intro n hn
    rw [hsame] at hn
    by_cases hnx : n = x
    · subst hnx
      rw [GoMap.get_set_self]
      exact ⟨fun _ => Or.inl (by simp), fun _ => rfl⟩
    · rw [GoMap.get_set_ne _ _ hnx, ht.present n hn]
      simp only [Present, hsame, List.mem_append, List.mem_singleton, hnx, or_false]
  · intro n hn
    rw [hsame] at hn
    -- a derived name counts as present, so no array is overwritten
    have hne : editName n ≠ x := fun h => habsent (Or.inr ⟨n, h.symm, hn⟩)
    rw [GoMap.get_set_ne _ _ hne, ht.array n hn, moved_snoc]
    constructor
    · rintro hm (h | ⟨h, -⟩)
      · exact hm h
      · exact hne h.symm
    · exact fun hm h => hm (Or.inl h)

/-- The second field of a name: whatever the new array holds. -/
theorem tracks_arrayify (ht : Tracks names st) (harr : ¬ Arrayed names x)
    (hget : (GoMap.get st.s x).isSome) {s' : List (String × SockVal)}
    (hself : GoMap.get s' x = none) (hedit : IsArray (GoMap.get s' (editName x)))
    (hother : ∀ n, n ≠ x → n ≠ editName x → GoMap.get s' n = GoMap.get st.s n) :
    Tracks (names ++ [x]) ⟨s', x :: st.placeInArrayMap⟩ := by
  have hpresent : Present names x := (ht.present x harr).mp hget
  have hsame : ∀ n, Arrayed (names ++ [x]) n ↔ Arrayed names n ∨ n = x := by
    intro n
    rw [arrayed_snoc]
    constructor
    · rintro (h | ⟨rfl, -⟩)
      · exact Or.inl h
      · exact Or.inr rfl
    · rintro (h | rfl)
      · exact Or.inl h
      · exact Or.inr ⟨rfl, hpresent⟩
  refine ⟨?_, ?_, ?_⟩
  · intro n
    rw [hsame, List.mem_cons, ht.placed n, or_comm]
  · intro n hn
    rw [hsame, not_or] at hn
    obtain ⟨hn, hnx⟩ := hn
    by_cases hne : n = editName x
    · subst hne
      obtain ⟨vs, hvs⟩ := isArray_iff.mp hedit
      simp only [hvs]
      exact ⟨fun _ => Or.inr ⟨x, rfl, (hsame x).mpr (Or.inr rfl)⟩, fun _ => rfl⟩
    · simp only [hother n hnx hne, ht.present n hn, Present, List.mem_append,
        List.mem_singleton, hnx, or_false]
      refine or_congr_right (exists_congr fun m => and_congr_right ?_)
      rintro rfl
      rw [hsame]
      refine ⟨Or.inl, ?_⟩
      rintro (h | rfl)
      · exact h
      · exact absurd rfl hne
  · intro n hn
    rw [hsame] at hn
    rcases hn with hn | rfl
    · have hnx : n ≠ x := fun h => harr (h ▸ hn)
      have hinj : editName n ≠ editName x := fun h => hnx (editName_inj.mp h)
      by_cases hedx : editName n = x
      · -- the new name was holding the array of `n`
        simp only [hedx, hself]
        constructor
        · intro h
          exact h.elim
        · intro hm
          exact absurd (moved_snoc.mpr (Or.inr ⟨hedx.symm, hn, harr⟩)) hm
      · simp only [hother _ hedx hinj, ht.array n hn, moved_snoc]
        constructor
        · rintro hm (h | ⟨h, -⟩)
          · exact hm h
          · exact hedx h.symm
        · exact fun hm h => hm (Or.inl h)
    · refine ⟨fun _ hm => ?_, fun _ => hedit⟩
      rcases moved_snoc.mp hm with h | ⟨h, -⟩
      · exact harr h.arrayed
      · exact editName_ne n h.symm

/-- A later field of an arrayed name: only its array may change. -/
theorem tracks_placed (ht : Tracks names st) (harr : Arrayed names x) {s' : List (String × SockVal)}
    (hedit : IsArray (GoMap.get s' (editName x)) ↔
      IsArray (GoMap.get st.s (editName x)))
    (hsome : (GoMap.get s' (editName x)).isSome ↔ (GoMap.get st.s (editName x)).isSome)
    (hother : ∀ n, n ≠ editName x → GoMap.get s' n = GoMap.get st.s n) :
    Tracks (names ++ [x]) { st with s := s' } := by
  have hsame : ∀ n, Arrayed (names ++ [x]) n ↔ Arrayed names n := by
    intro n
    rw [arrayed_snoc]
    constructor
    · rintro (h | ⟨rfl, -⟩)
      · exact h
      · exact harr
    · exact Or.inl
  have hmoved : ∀ n, Moved (names ++ [x]) n ↔ Moved names n := by
    intro n
    rw [moved_snoc]
    constructor
    · rintro (h | ⟨-, -, h⟩)
      · exact h
      · exact absurd harr h
    · exact Or.inl
  refine ⟨?_, ?_, ?_⟩
  · intro n
    rw [hsame]
    exact ht.placed n
  · intro n hn
    rw [hsame] at hn
    have hnx : n ≠ x := fun h => hn (h ▸ harr)
    have hget : (GoMap.get s' n).isSome ↔ (GoMap.get st.s n).isSome := by
      by_cases hne : n = editName x
      · rw [hne]
        exact hsome
      · rw [hother n hne]
    simp only [hget, ht.present n hn, Present, hsame, List.mem_append, List.mem_singleton,
      hnx, or_false]
  · intro n hn
    rw [hsame] at hn
    rw [hmoved, ← ht.array n hn]
    by_cases hne : editName n = editName x
    · simp only [hne]
      exact hedit
    · simp only [hother _ hne]

/-- Appending a value to the array of a name: what the assertion needs, and
    what it leaves. -/
theorem tracks_append (ht : Tracks names st) (harr : Arrayed names x) (hmoved : ¬ Moved names x)
    (v : SockVal) :
    ∃ s', appendEntry st.s (editName x) v = some s' ∧
      Tracks (names ++ [x]) { st with s := s' } := by
  have hold := (ht.array x harr).mpr hmoved
  obtain ⟨vs, happ⟩ := appendEntry_some v hold
  obtain ⟨old, hvs⟩ := isArray_iff.mp hold
  refine ⟨_, happ, tracks_placed ht harr ?_ ?_ ?_⟩
  · rw [GoMap.get_set_self, hvs]
    exact Iff.rfl
  · rw [GoMap.get_set_self, hvs]
    exact Iff.rfl
  · intro n hn
    exact GoMap.get_set_ne _ _ hn

/-- Arraying a name never fails: the assertion is on the array just made. -/
theorem arrayify_spec (st : DrawerState) (x : String) (existing : SockVal) :
    ∃ s', arrayify st x existing = some ⟨s', x :: st.placeInArrayMap⟩ ∧
      GoMap.get s' x = none ∧ IsArray (GoMap.get s' (editName x)) ∧
      ∀ n, n ≠ x → n ≠ editName x → GoMap.get s' n = GoMap.get st.s n := by
  have hmade : IsArray (GoMap.get (GoMap.set st.s (editName x) (.array [])) (editName x)) := by
    rw [GoMap.get_set_self]
    trivial
  obtain ⟨vs, happ⟩ := appendEntry_some existing hmade
  refine ⟨_, by rw [arrayify, happ], GoMap.get_del_self _ _, ?_, ?_⟩
  · rw [GoMap.get_del_ne _ (editName_ne x), GoMap.get_set_self]
    trivial
  · intro n hnx hne
    rw [GoMap.get_del_ne _ hnx, GoMap.get_set_ne _ _ hne, GoMap.get_set_ne _ _ hne]

/-- **WHERE A FIELD FAILS**: on a value for a name whose array was moved; any
    other field is placed. -/
theorem placeField_spec (ht : Tracks names st) (x : String) (v : SockVal) :
    (Moved names x ∧ v.isNil = false ∧ placeField st x v = none) ∨
      (¬ (Moved names x ∧ v.isNil = false) ∧
        ∃ st', placeField st x v = some st' ∧ Tracks (names ++ [x]) st') := by
  by_cases harr : Arrayed names x
  · have hplaced : decide (x ∈ st.placeInArrayMap) = true :=
      decide_eq_true ((ht.placed x).mpr harr)
    have hstep : placeField st x v = if v.isNil then some st
        else (appendEntry st.s (editName x) v).map (fun s => { st with s := s }) := by
      unfold placeField
      rw [hplaced]
      cases GoMap.get st.s x <;> rfl
    -- a nil value is not appended, moved array or not
    cases hnil : v.isNil with
    | true =>
        refine Or.inr ⟨fun h => (nomatch h.2), st, by rw [hstep, hnil]; rfl, ?_⟩
        exact tracks_placed ht harr Iff.rfl Iff.rfl (fun _ _ => rfl)
    | false =>
        rw [hnil, if_neg Bool.false_ne_true] at hstep
        by_cases hmoved : Moved names x
        · have hnot : ¬ IsArray (GoMap.get st.s (editName x)) :=
            fun h => (ht.array x harr).mp h hmoved
          exact Or.inl ⟨hmoved, rfl, by rw [hstep, appendEntry_none v hnot]; rfl⟩
        · obtain ⟨s', happ, htracks⟩ := tracks_append ht harr hmoved v
          exact Or.inr ⟨fun h => hmoved h.1, _, by rw [hstep, happ]; rfl, htracks⟩
  · have hnot : ¬ (Moved names x ∧ v.isNil = false) := fun h => harr h.1.arrayed
    have hplaced : decide (x ∈ st.placeInArrayMap) = false :=
      decide_eq_false (fun h => harr ((ht.placed x).mp h))
    refine Or.inr ⟨hnot, ?_⟩
    cases hget : GoMap.get st.s x with
    | none =>
        refine ⟨_, ?_, tracks_fresh ht harr hget v⟩
        unfold placeField
        rw [hget, hplaced]
    | some existing =>
        obtain ⟨s₁, harrayify, hself, hedit, hother⟩ := arrayify_spec st x existing
        have hsome : (GoMap.get st.s x).isSome := by rw [hget]; rfl
        have hstep : placeField st x v = if v.isNil then
              some ⟨s₁, x :: st.placeInArrayMap⟩
            else (appendEntry s₁ (editName x) v).map
              (fun s => ⟨s, x :: st.placeInArrayMap⟩) := by
          unfold placeField
          rw [hget, hplaced]
          simp only [harrayify]
        cases hnil : v.isNil with
        | true =>
            exact ⟨_, by rw [hstep, hnil]; rfl, tracks_arrayify ht harr hsome hself hedit hother⟩
        | false =>
            rw [hnil, if_neg Bool.false_ne_true] at hstep
            obtain ⟨vs, happ⟩ := appendEntry_some v hedit
            refine ⟨_, by rw [hstep, happ]; rfl, tracks_arrayify ht harr hsome ?_ ?_ ?_⟩
            · rw [GoMap.get_set_ne _ _ (Ne.symm (editName_ne x)), hself]
            · rw [GoMap.get_set_self]
              trivial
            · intro n hnx hne
              rw [GoMap.get_set_ne _ _ hne, hother n hnx hne]

/-! ## Lists of fields -/

/-- A field whose value is not the nil interface. -/
def HasValue (f : TelemetryField) : Prop := f.fields ≠ [] ∨ f.valueByType ≠ none

theorem sockValue_isNil {f : TelemetryField} {v : SockVal} (h : sockValue f = some v) :
    v.isNil = false ↔ HasValue f := by
  obtain ⟨ts, name, value, children⟩ := f
  unfold sockValue at h
  cases children with
  | nil =>
      cases value with
      | none =>
          cases h
          exact ⟨fun h => (nomatch h), fun h => h.elim (absurd rfl) (absurd rfl)⟩
      | some w =>
          cases h
          exact ⟨fun _ => Or.inr (fun h => nomatch h), fun _ => rfl⟩
  | cons child rest =>
      rw [if_neg (by simp)] at h
      split at h
      · exact nomatch h
      · cases h
        exact ⟨fun _ => Or.inl (List.cons_ne_nil _ _), fun _ => rfl⟩

/-- **WHERE A LIST OF FIELDS FAILS**: at a child that fails, or at a value for
    a name whose array was moved by the fields before it. -/
theorem placeFields_isSome :
    ∀ (item : List TelemetryField) {names : List String} {st : DrawerState},
      Tracks names st →
      ((placeFields item st).isSome ↔
        (∀ f ∈ item, (sockValue f).isSome) ∧
        ∀ pre f post, item = pre ++ f :: post → HasValue f →
          ¬ Moved (names ++ pre.map TelemetryField.name) f.name) := by
  intro item
  induction item with
  | nil =>
      intro names st _
      refine ⟨fun _ => ⟨fun _ hf => absurd hf List.not_mem_nil, ?_⟩, fun _ => rfl⟩
      intro pre f post h
      exact absurd h (by simp)
  | cons f rest ih =>
      intro names st ht
      -- a split of the fields is either at the head or within the rest
      have hsplit : (∀ pre g post, f :: rest = pre ++ g :: post → HasValue g →
            ¬ Moved (names ++ pre.map TelemetryField.name) g.name) ↔
          (HasValue f → ¬ Moved names f.name) ∧
          ∀ pre g post, rest = pre ++ g :: post → HasValue g →
            ¬ Moved (names ++ [f.name] ++ pre.map TelemetryField.name) g.name := by
        constructor
        · intro h
          refine ⟨fun hv => ?_, ?_⟩
          · simpa using h [] f rest rfl hv
          · intro pre g post hr hv
            simpa using h (f :: pre) g post (by rw [hr]; rfl) hv
        · rintro ⟨hf, hrest⟩ pre g post heq hv
          cases pre with
          | nil =>
              cases heq
              simpa using hf hv
          | cons p pre =>
              rw [List.cons_append] at heq
              injection heq with hfp hr
              subst hfp
              simpa using hrest pre g post hr hv
      rw [hsplit, List.forall_mem_cons, placeFields]
      cases hval : sockValue f with
      | none => simp
      | some v =>
          rcases placeField_spec ht f.name v with ⟨hm, hnil, hfail⟩ | ⟨hok, st', hst, ht'⟩
          · simp only [hfail]
            refine ⟨fun h => (nomatch h), ?_⟩
            rintro ⟨-, hf, -⟩
            exact absurd hm (hf ((sockValue_isNil hval).mp hnil))
          · simp only [hst, ih ht']
            constructor
            · rintro ⟨hall, hrest⟩
              refine ⟨⟨rfl, hall⟩, ?_, hrest⟩
              intro hv hm
              exact hok ⟨hm, (sockValue_isNil hval).mpr hv⟩
            · rintro ⟨⟨-, hall⟩, -, hrest⟩
              exact ⟨hall, hrest⟩

/-- At some level of nesting a field with a value comes for a name whose array
    the fields before it have moved. -/
inductive Collides : List TelemetryField → Prop where
  | here {pre : List TelemetryField} {f : TelemetryField} {post : List TelemetryField} :
      HasValue f → Moved (pre.map TelemetryField.name) f.name →
      Collides (pre ++ f :: post)
  | nested {item : List TelemetryField} {f : TelemetryField} :
      f ∈ item → Collides f.fields → Collides item

theorem not_collides_nil : ¬ Collides [] := by
  intro h
  generalize hl : ([] : List TelemetryField) = l at h
  cases h with
  | here => exact absurd hl (by simp)
  | nested hf _ =>
      subst hl
      exact absurd hf List.not_mem_nil

/-- A level fails when it collides, if that is so of the fields below. -/
theorem placeFields_isSome_of {item : List TelemetryField}
    (hsub : ∀ f ∈ item, (sockValue f).isSome ↔ ¬ Collides f.fields) :
    (placeFields item ⟨[], []⟩).isSome ↔ ¬ Collides item := by
  rw [placeFields_isSome item tracks_nil]
  constructor
  · rintro ⟨hall, hhere⟩ hc
    cases hc with
    | here hv hm => exact hhere _ _ _ rfl hv hm
    | nested hf hc => exact (hsub _ hf).mp (hall _ hf) hc
  · intro hc
    refine ⟨fun f hf => (hsub f hf).mpr (fun h => hc (.nested hf h)), ?_⟩
    rintro pre f post rfl hv hm
    exact hc (.here hv hm)

mutual

theorem sockValue_isSome : ∀ f : TelemetryField, (sockValue f).isSome ↔ ¬ Collides f.fields
  | .mk ts name value children => by
      have hlevel := placeFields_isSome_of (sockValue_isSome_all children)
      unfold sockValue
      cases children with
      | nil =>
          cases value <;> exact ⟨fun _ => not_collides_nil, fun _ => rfl⟩
      | cons child rest =>
          rw [if_neg (by simp)]
          refine Iff.trans ?_ hlevel
          split
          · next h => rw [h]; exact Iff.rfl
          · next h => rw [h]; exact Iff.rfl

theorem sockValue_isSome_all : ∀ (item : List TelemetryField), ∀ f ∈ item,
    ((sockValue f).isSome ↔ ¬ Collides f.fields)
  | [], _, hf => nomatch hf
  | g :: rest, f, hf => by
      rcases List.mem_cons.mp hf with hfg | hf
      · rw [hfg]
        exact sockValue_isSome g
      · exact sockValue_isSome_all rest f hf

end

/-- **FLATTENING RETURNS UNLESS NAMES COLLIDE**: no type assertion fails on a
    list of field trees exactly when no level of it collides. -/
theorem telemetryKvToSockDrawer_returns_iff (item : List TelemetryField) :
    (telemetryKvToSockDrawer item).isSome ↔ ¬ Collides item := by
  have hlevel := placeFields_isSome_of (sockValue_isSome_all item)
  unfold telemetryKvToSockDrawer
  cases item with
  | nil => exact ⟨fun _ => not_collides_nil, fun _ => rfl⟩
  | cons f rest =>
      rw [if_neg (by simp)]
      refine Iff.trans ?_ hlevel
      split
      · next h => rw [h]; exact Iff.rfl
      · next h => rw [h]; exact Iff.rfl

/-- A leaf field. -/
def leafField (name : String) (v : Scalar) : TelemetryField := .mk 0 name (some v) []

/-- The third value for a name, after the derived name was used as a name. -/
theorem telemetryKvToSockDrawer_panics :
    telemetryKvToSockDrawer
      [leafField "a" (.uint32 1), leafField "a" (.uint32 2),
        leafField "a_PIPELINE_EDIT" (.uint32 3), leafField "a" (.uint32 4)] = none := by
  rfl

end PipelineSockDrawer
