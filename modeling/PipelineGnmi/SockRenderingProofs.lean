import PipelineGnmi.SockDrawerProofs

/-! # What the drawer of a list of fields holds

    `SockDrawerProofs` says when `telemetryKvToSockDrawer` returns.  This
    module says what it returns when no field has a name that ends in
    `_PIPELINE_EDIT`.

    The drawer groups the values by name: a name that comes once keeps its
    value, and the values of a name that comes again are an array under the
    derived name (`Grouped`).  The loop groups the fields it has seen so far,
    whatever the order they come in (`Groups`, `placeField_groups`).  `Renders` closes
    this under nesting, and `telemetryKvToSockDrawer_groups` is the result over whole
    trees. -/

namespace PipelineSockDrawer

open PipelineMessage PipelineDataMsg

/-! ## Grouping by name -/

/-- The values of a name, in order. -/
def valuesOf (entries : List (String × SockVal)) (n : String) : List SockVal :=
  (entries.filter (fun e => decide (e.1 = n))).map Prod.snd

@[simp] theorem valuesOf_nil (n : String) : valuesOf [] n = [] := rfl

@[simp] theorem valuesOf_snoc_self (entries : List (String × SockVal)) (n : String)
    (v : SockVal) : valuesOf (entries ++ [(n, v)]) n = valuesOf entries n ++ [v] := by
  simp [valuesOf]

variable {n x : String} {entries : List (String × SockVal)} {vs : List SockVal} {v : SockVal}
  {st : DrawerState}

theorem valuesOf_snoc_ne (entries : List (String × SockVal)) (v : SockVal) (h : n ≠ x) :
    valuesOf (entries ++ [(x, v)]) n = valuesOf entries n := by
  simp [valuesOf, Ne.symm h]

theorem mem_names_of_valuesOf (h : valuesOf entries n ≠ []) : ∃ e ∈ entries, e.1 = n := by
  obtain ⟨v, hv⟩ := List.exists_mem_of_ne_nil _ h
  obtain ⟨e, he, -⟩ := List.mem_map.mp hv
  obtain ⟨hmem, hn⟩ := List.mem_filter.mp he
  exact ⟨e, hmem, of_decide_eq_true hn⟩

/-- The values that are not the nil interface. -/
def nonNil (vs : List SockVal) : List SockVal := vs.filter (fun v => !v.isNil)

theorem nonNil_snoc_nil (h : v.isNil = true) : nonNil (vs ++ [v]) = nonNil vs := by
  simp [nonNil, h]

theorem nonNil_snoc (h : v.isNil = false) : nonNil (vs ++ [v]) = nonNil vs ++ [v] := by
  simp [nonNil, h]

/-- **THE GROUPING**: a name that comes once has its value; a name that comes
    again has no entry of its own, and the first of its values with the later
    ones that are not nil under its derived name; there is nothing else. -/
structure Grouped (entries : List (String × SockVal)) (s : List (String × SockVal)) : Prop where
  once : ∀ n v, valuesOf entries n = [v] → GoMap.get s n = some v
  again : ∀ n first later, valuesOf entries n = first :: later → later ≠ [] →
    GoMap.get s n = none ∧ GoMap.get s (editName n) = some (.array (first :: nonNil later))
  only : ∀ key, (GoMap.get s key).isSome →
    (∃ v, valuesOf entries key = [v]) ∨ ∃ n, key = editName n ∧ 2 ≤ (valuesOf entries n).length

/-- A name that is not a derived one. -/
def Plain (name : String) : Prop := ∀ n, name ≠ editName n

theorem plain_of_length_lt {name : String} (h : name.length < 14) : Plain name := by
  rintro n rfl
  rw [editName, String.length_append] at h
  exact absurd h (by rw [show codecGPBPipelineEditSuffix.length = 14 from rfl]; omega)

/-! ## The loop groups what it has seen -/

/-- The state of the loop after these fields. -/
structure Groups (entries : List (String × SockVal)) (st : DrawerState) : Prop where
  grouped : Grouped entries st.s
  placed : ∀ n, n ∈ st.placeInArrayMap ↔ 2 ≤ (valuesOf entries n).length
  plain : ∀ e ∈ entries, Plain e.1

theorem groups_nil : Groups [] ⟨[], []⟩ := by
  refine ⟨⟨?_, ?_, ?_⟩, ?_, ?_⟩
  · intro n v h
    cases h
  · intro n first later h
    cases h
  · intro key h
    cases h
  · intro n
    exact iff_of_false List.not_mem_nil (by simp)
  · intro e he
    exact absurd he List.not_mem_nil

/-- A name not met so far has no entry: the derived names are others. -/
theorem Groups.get_eq_none (hg : Groups entries st) (hx : Plain x) (hv : valuesOf entries x = []) :
    GoMap.get st.s x = none := by
  by_contra hne
  rcases hg.grouped.only x (Option.isSome_iff_ne_none.mpr hne) with ⟨v, h⟩ | ⟨n, h, -⟩
  · rw [hv] at h
    cases h
  · exact hx n h

/-- A name that has come is no derived name. -/
theorem Groups.plain_of_values (hg : Groups entries st) (h : valuesOf entries n ≠ []) :
    Plain n := by
  obtain ⟨e, he, rfl⟩ := mem_names_of_valuesOf h
  exact hg.plain e he

theorem plain_snoc (h : ∀ e ∈ entries, Plain e.1) (hx : Plain x) :
    ∀ e ∈ entries ++ [(x, v)], Plain e.1 := by
  intro e he
  rcases List.mem_append.mp he with he | he
  · exact h e he
  · rw [List.mem_singleton.mp he]
    exact hx

/-- The first field of a name. -/
theorem groups_fresh (hg : Groups entries st) (hx : Plain x) (hv : valuesOf entries x = [])
    (v : SockVal) : Groups (entries ++ [(x, v)]) { st with s := GoMap.set st.s x v } := by
  have hself : valuesOf (entries ++ [(x, v)]) x = [v] := by
    rw [valuesOf_snoc_self, hv, List.nil_append]
  refine ⟨⟨?_, ?_, ?_⟩, ?_, plain_snoc hg.plain hx⟩
  · intro n w hw
    by_cases hn : n = x
    · subst hn
      obtain rfl : v = w := List.head_eq_of_cons_eq (hself.symm.trans hw)
      exact GoMap.get_set_self _ _ _
    · rw [valuesOf_snoc_ne _ _ hn] at hw
      rw [GoMap.get_set_ne _ _ hn]
      exact hg.grouped.once n w hw
  · intro n first later hw hlater
    have hn : n ≠ x := by
      rintro rfl
      exact hlater (List.tail_eq_of_cons_eq (hself.symm.trans hw)).symm
    rw [valuesOf_snoc_ne _ _ hn] at hw
    rw [GoMap.get_set_ne _ _ hn, GoMap.get_set_ne _ _ (Ne.symm (hx n))]
    exact hg.grouped.again n first later hw hlater
  · intro key hkey
    by_cases hk : key = x
    · exact Or.inl ⟨v, hk ▸ hself⟩
    · simp only [GoMap.get_set_ne _ _ hk] at hkey
      rw [valuesOf_snoc_ne _ _ hk]
      refine (hg.grouped.only key hkey).imp_right ?_
      rintro ⟨n, rfl, hlen⟩
      refine ⟨n, rfl, ?_⟩
      rw [valuesOf_snoc_ne _ _ (fun h => by rw [h, hv] at hlen; simp at hlen)]
      exact hlen
  · intro n
    rw [hg.placed n]
    by_cases hn : n = x
    · subst hn
      rw [hself, hv]
      simp
    · rw [valuesOf_snoc_ne _ _ hn]

/-- A later field of a name, the second or any after it: the drawer has the
    array of the name, and is otherwise what it was. -/
theorem groups_again (hg : Groups entries st) (hx : Plain x) {first : SockVal}
    {later : List SockVal} (hv : valuesOf entries x = first :: later) {st' : DrawerState}
    (hself : GoMap.get st'.s x = none)
    (hedit : GoMap.get st'.s (editName x) = some (.array (first :: nonNil (later ++ [v]))))
    (hother : ∀ n, n ≠ x → n ≠ editName x → GoMap.get st'.s n = GoMap.get st.s n)
    (hplaced : ∀ n, n ∈ st'.placeInArrayMap ↔ n ∈ st.placeInArrayMap ∨ n = x) :
    Groups (entries ++ [(x, v)]) st' := by
  have hvals : valuesOf (entries ++ [(x, v)]) x = first :: (later ++ [v]) := by
    rw [valuesOf_snoc_self, hv, List.cons_append]
  have hlen : 2 ≤ (valuesOf (entries ++ [(x, v)]) x).length := by
    rw [hvals]
    simp
  refine ⟨⟨?_, ?_, ?_⟩, ?_, plain_snoc hg.plain hx⟩
  · intro n w hw
    have hn : n ≠ x := by
      rintro rfl
      rw [hw] at hlen
      simp at hlen
    rw [valuesOf_snoc_ne _ _ hn] at hw
    have hne : n ≠ editName x := hg.plain_of_values (by rw [hw]; simp) x
    rw [hother n hn hne]
    exact hg.grouped.once n w hw
  · intro n first' later' hw hlater
    by_cases hn : n = x
    · subst hn
      obtain ⟨rfl, rfl⟩ := List.cons.inj (hvals.symm.trans hw)
      exact ⟨hself, hedit⟩
    · rw [valuesOf_snoc_ne _ _ hn] at hw
      have hne : n ≠ editName x := hg.plain_of_values (by rw [hw]; simp) x
      rw [hother n hn hne, hother _ (Ne.symm (hx n)) (fun h => hn (editName_inj.mp h))]
      exact hg.grouped.again n first' later' hw hlater
  · intro key hkey
    by_cases hedx : key = editName x
    · exact Or.inr ⟨x, hedx, hlen⟩
    · have hkx : key ≠ x := by
        rintro rfl
        rw [hself] at hkey
        cases hkey
      rw [hother key hkx hedx] at hkey
      rw [valuesOf_snoc_ne _ _ hkx]
      refine (hg.grouped.only key hkey).imp_right ?_
      rintro ⟨n, rfl, hn⟩
      exact ⟨n, rfl, by rwa [valuesOf_snoc_ne _ _ (fun h => hedx (by rw [h]))]⟩
  · intro n
    rw [hplaced, hg.placed]
    by_cases hn : n = x
    · subst hn
      exact iff_of_true (Or.inr rfl) hlen
    · rw [valuesOf_snoc_ne _ _ hn]
      exact or_iff_left hn

/-- Appending to an array. -/
theorem appendEntry_array {s : List (String × SockVal)} (h : GoMap.get s n = some (.array vs))
    (v : SockVal) : appendEntry s n v = some (GoMap.set s n (.array (vs ++ [v]))) := by
  rw [appendEntry, h]

/-- The drawer in which the entry of a name has moved into a new array. -/
theorem arrayify_array (st : DrawerState) (x : String) (existing : SockVal) :
    ∃ s', arrayify st x existing = some ⟨s', x :: st.placeInArrayMap⟩ ∧
      GoMap.get s' x = none ∧ GoMap.get s' (editName x) = some (.array [existing]) ∧
      ∀ n, n ≠ x → n ≠ editName x → GoMap.get s' n = GoMap.get st.s n := by
  have happ := appendEntry_array (GoMap.get_set_self st.s (editName x) (.array [])) existing
  refine ⟨_, by rw [arrayify, happ], GoMap.get_del_self _ _, ?_, ?_⟩
  · rw [GoMap.get_del_ne _ (editName_ne x), GoMap.get_set_self, List.nil_append]
  · intro n hnx hne
    rw [GoMap.get_del_ne _ hnx, GoMap.get_set_ne _ _ hne, GoMap.get_set_ne _ _ hne]

/-- Putting a later value into the array of its name. -/
theorem appendValue_spec {s : List (String × SockVal)} {first : SockVal}
    (hself : GoMap.get s x = none)
    (hedit : GoMap.get s (editName x) = some (.array (first :: nonNil vs))) (v : SockVal)
    (placed : List String) :
    ∃ s', (if v.isNil then some (DrawerState.mk s placed)
        else (appendEntry s (editName x) v).map (fun s => ⟨s, placed⟩)) = some ⟨s', placed⟩ ∧
      GoMap.get s' x = none ∧
      GoMap.get s' (editName x) = some (.array (first :: nonNil (vs ++ [v]))) ∧
      ∀ n, n ≠ editName x → GoMap.get s' n = GoMap.get s n := by
  cases hnil : v.isNil with
  | true =>
      refine ⟨s, rfl, hself, ?_, fun _ _ => rfl⟩
      rw [nonNil_snoc_nil hnil]
      exact hedit
  | false =>
      refine ⟨_, by rw [if_neg Bool.false_ne_true, appendEntry_array hedit]; rfl, ?_, ?_, ?_⟩
      · rw [GoMap.get_set_ne _ _ (Ne.symm (editName_ne x))]
        exact hself
      · rw [GoMap.get_set_self, nonNil_snoc hnil, List.cons_append]
      · intro n hn
        exact GoMap.get_set_ne _ _ hn

/-- **ONE FIELD MORE**: whichever time its name comes, the loop groups it with
    the fields before it. -/
theorem placeField_groups (hg : Groups entries st) (hx : Plain x) (v : SockVal) :
    ∃ st', placeField st x v = some st' ∧ Groups (entries ++ [(x, v)]) st' := by
  cases hvals : valuesOf entries x with
  | nil =>
      have hplaced : decide (x ∈ st.placeInArrayMap) = false :=
        decide_eq_false (fun h => by simpa [hvals] using (hg.placed x).mp h)
      refine ⟨_, ?_, groups_fresh hg hx hvals v⟩
      simp only [placeField, hg.get_eq_none hx hvals, hplaced]
  | cons first later =>
      cases later with
      | nil =>
          -- the second field of the name: its entry moves before the value is appended
          have hplaced : decide (x ∈ st.placeInArrayMap) = false :=
            decide_eq_false (fun h => by simpa [hvals] using (hg.placed x).mp h)
          obtain ⟨s₁, harrayify, hself₁, hedit₁, hother₁⟩ := arrayify_array st x first
          have hone : GoMap.get s₁ (editName x) = some (.array (first :: nonNil [])) := hedit₁
          obtain ⟨s', happend, hself, hedit, hother⟩ :=
            appendValue_spec hself₁ hone v (x :: st.placeInArrayMap)
          refine ⟨⟨s', x :: st.placeInArrayMap⟩, ?_,
            groups_again hg hx hvals hself hedit ?_ ?_⟩
          · simp only [placeField, hg.grouped.once x first hvals, hplaced, harrayify]
            exact happend
          · intro n hnx hne
            rw [hother n hne, hother₁ n hnx hne]
          · intro n
            rw [List.mem_cons, or_comm]
      | cons second later =>
          have hlen : 2 ≤ (valuesOf entries x).length := by
            rw [hvals]
            simp
          have hmem : x ∈ st.placeInArrayMap := (hg.placed x).mpr hlen
          obtain ⟨hself₁, hedit₁⟩ := hg.grouped.again x first _ hvals (List.cons_ne_nil _ _)
          obtain ⟨s', happend, hself, hedit, hother⟩ :=
            appendValue_spec hself₁ hedit₁ v st.placeInArrayMap
          refine ⟨⟨s', st.placeInArrayMap⟩, ?_,
            groups_again hg hx hvals hself hedit (fun n _ hne => hother n hne) ?_⟩
          · simp only [placeField, hself₁, decide_eq_true hmem]
            exact happend
          · intro n
            exact (or_iff_left_of_imp (fun h => h ▸ hmem)).symm

/-! ## Nesting -/

/-- What a field is rendered as: its own value when it has no children, and
    else the drawer that groups the renderings of its children. -/
inductive Renders : TelemetryField → SockVal → Prop where
  | empty {ts : UInt64} {name : String} : Renders (.mk ts name none []) .nil
  | leaf {ts : UInt64} {name : String} {v : Scalar} :
      Renders (.mk ts name (some v) []) (.scalar v)
  | node {ts : UInt64} {name : String} {value : Option Scalar}
      {children : List TelemetryField} {vals : List SockVal} {s : List (String × SockVal)} :
      children ≠ [] → List.Forall₂ Renders children vals →
      Grouped ((children.map TelemetryField.name).zip vals) s →
      Renders (.mk ts name value children) (.drawer s)

/-- The field is among these, or below one of them. -/
inductive Occurs : List TelemetryField → TelemetryField → Prop where
  | here {item : List TelemetryField} {f : TelemetryField} : f ∈ item → Occurs item f
  | nested {item : List TelemetryField} {f g : TelemetryField} :
      f ∈ item → Occurs f.fields g → Occurs item g

theorem Occurs.cons {item : List TelemetryField} {f g : TelemetryField}
    (h : Occurs item g) : Occurs (f :: item) g := by
  cases h with
  | here h => exact .here (List.mem_cons_of_mem _ h)
  | nested h hb => exact .nested (List.mem_cons_of_mem _ h) hb

mutual

theorem sockValue_renders : ∀ f : TelemetryField,
    (∀ g, Occurs f.fields g → Plain g.name) → ∃ v, sockValue f = some v ∧ Renders f v
  | .mk ts name value children => by
      intro hplain
      obtain ⟨vals, st, hplace, hrender, hg⟩ :=
        placeFields_renders children groups_nil hplain
      unfold sockValue
      cases children with
      | nil =>
          cases value with
          | none => exact ⟨_, rfl, .empty⟩
          | some v => exact ⟨_, rfl, .leaf⟩
      | cons child rest =>
          rw [if_neg (by simp), hplace]
          exact ⟨_, rfl, .node (List.cons_ne_nil _ _) hrender hg.grouped⟩

/-- The loop over a list of fields, from any state it may be in. -/
theorem placeFields_renders : ∀ (item : List TelemetryField)
    {entries : List (String × SockVal)} {st : DrawerState}, Groups entries st →
    (∀ g, Occurs item g → Plain g.name) →
    ∃ vals st', placeFields item st = some st' ∧ List.Forall₂ Renders item vals ∧
      Groups (entries ++ (item.map TelemetryField.name).zip vals) st'
  | [], entries, st, hg, _ => ⟨[], st, rfl, .nil, by simpa using hg⟩
  | f :: rest, entries, st, hg, hplain => by
      obtain ⟨v, hv, hrender⟩ :=
        sockValue_renders f (fun g hb => hplain g (.nested List.mem_cons_self hb))
      obtain ⟨st₁, hst₁, hg₁⟩ :=
        placeField_groups hg (hplain f (.here List.mem_cons_self)) v
      obtain ⟨vals, st', hrest, hall, hg'⟩ :=
        placeFields_renders rest hg₁ (fun g hb => hplain g hb.cons)
      refine ⟨v :: vals, st', ?_, .cons hrender hall, ?_⟩
      · rw [placeFields, hv]
        simp only [hst₁]
        exact hrest
      · simpa using hg'

end

/-- **FLATTENING LOSES AND REORDERS NOTHING**: when no field at any depth has a
    derived name, the drawer groups the renderings of the fields. -/
theorem telemetryKvToSockDrawer_groups (item : List TelemetryField) (hne : item ≠ [])
    (hplain : ∀ f, Occurs item f → Plain f.name) :
    ∃ s vals, telemetryKvToSockDrawer item = some (some s) ∧
      List.Forall₂ Renders item vals ∧
      Grouped ((item.map TelemetryField.name).zip vals) s := by
  obtain ⟨vals, st, hplace, hrender, hg⟩ := placeFields_renders item groups_nil hplain
  refine ⟨st.s, vals, ?_, hrender, hg.grouped⟩
  rw [telemetryKvToSockDrawer, if_neg (by simpa using hne), hplace]

/-- Two fields of one name around another. -/
def interleavedFields : List TelemetryField :=
  [leafField "a" (.uint32 1), leafField "b" (.uint32 2), leafField "a" (.uint32 3)]

theorem interleavedFields_plain : ∀ f, Occurs interleavedFields f → Plain f.name := by
  intro f hf
  cases hf with
  | here h =>
      have hname : f.name = "a" ∨ f.name = "b" := by
        simp only [interleavedFields, List.mem_cons, List.not_mem_nil, or_false] at h
        rcases h with rfl | rfl | rfl
        · exact Or.inl rfl
        · exact Or.inr rfl
        · exact Or.inl rfl
      rcases hname with h | h <;> exact plain_of_length_lt (by rw [h]; decide)
  | nested h hb =>
      simp only [interleavedFields, List.mem_cons, List.not_mem_nil, or_false] at h
      rcases h with rfl | rfl | rfl <;>
        (cases hb with
          | here h => exact absurd h List.not_mem_nil
          | nested h _ => exact absurd h List.not_mem_nil)

/-- Their values are an array under the derived name. -/
theorem interleavedFields_groups :
    ∃ s vals, telemetryKvToSockDrawer interleavedFields = some (some s) ∧
      List.Forall₂ Renders interleavedFields vals ∧
      Grouped ((interleavedFields.map TelemetryField.name).zip vals) s :=
  telemetryKvToSockDrawer_groups interleavedFields (List.cons_ne_nil _ _)
    interleavedFields_plain

end PipelineSockDrawer
