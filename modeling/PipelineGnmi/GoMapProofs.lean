import Mathlib.Tactic

/-! # Go maps as association lists

    A map is its list of entries, at most one for each key as long as it is
    built by `set` from the empty map.  The order of the list is one of the
    orders a `range` may visit the map in.

    `collect` is the loop that files a list of items under their names; later
    items replace earlier ones of the same name, so over distinct names it
    finds every item (`get_collect`). -/

namespace GoMap

variable {K V α : Type} [DecidableEq K]

variable {k : K} {p : α → Bool} {name : α → K} {c : α} {l : List α} (m : List (K × V))

/-- `m[k]`, with its second result. -/
def get (m : List (K × V)) (k : K) : Option V :=
  (m.find? (fun e => decide (e.1 = k))).map Prod.snd

/-- `delete(m, k)`. -/
def del (m : List (K × V)) (k : K) : List (K × V) :=
  m.filter (fun e => decide (e.1 ≠ k))

/-- `m[k] = v`. -/
def set (m : List (K × V)) (k : K) (v : V) : List (K × V) :=
  (k, v) :: del m k

@[simp] theorem get_nil (k : K) : get ([] : List (K × V)) k = none := rfl

@[simp] theorem get_set_self (k : K) (v : V) : get (set m k v) k = some v := by
  simp [get, set]

theorem get_del_self (k : K) : get (del m k) k = none := by
  simp [get, del]

theorem get_del_ne {k' : K} (h : k' ≠ k) : get (del m k) k' = get m k' := by
  have hpred : (fun e : K × V => decide (decide (e.1 ≠ k) = true ∧
      decide (e.1 = k') = true)) = fun e => decide (e.1 = k') := by
    funext e
    by_cases hk : e.1 = k'
    · simp [hk, h]
    · simp [hk]
  rw [get, del, List.find?_filter, hpred, get]

theorem get_set_ne {k' : K} (v : V) (h : k' ≠ k) : get (set m k v) k' = get m k' := by
  rw [← get_del_ne m h]
  simp [get, set, Ne.symm h]

theorem mem_of_get {m : List (K × V)} {v : V} (h : get m k = some v) : (k, v) ∈ m := by
  obtain ⟨e, he, rfl⟩ := Option.map_eq_some_iff.mp h
  have hk : e.1 = k := by simpa using List.find?_some he
  rw [← hk]
  exact List.mem_of_find?_eq_some he

/-- File the items satisfying `p` under their names. -/
def collect (p : α → Bool) (name : α → K) (l : List α) : List (K × α) :=
  l.foldl (fun m c => if p c then set m (name c) c else m) []

omit [DecidableEq K] in
/-- An item that is not filed under the key makes no difference to it. -/
theorem filed_cons {x : α} (hskip : p x = true → name x ≠ k) (c : α) (rest : List α)
    (found : Option α) :
    ((c ∈ rest ∧ p c = true ∧ name c = k) ∨
        (found = some c ∧ ∀ y ∈ rest, p y = true → name y ≠ k)) ↔
      ((c ∈ x :: rest ∧ p c = true ∧ name c = k) ∨
        (found = some c ∧ ∀ y ∈ x :: rest, p y = true → name y ≠ k)) := by
  constructor
  · rintro (⟨hc, hpc, hcn⟩ | ⟨hc, hno⟩)
    · exact Or.inl ⟨List.mem_cons_of_mem _ hc, hpc, hcn⟩
    · exact Or.inr ⟨hc, List.forall_mem_cons.mpr ⟨hskip, hno⟩⟩
  · rintro (⟨hc, hpc, hcn⟩ | ⟨hc, hno⟩)
    · rcases List.mem_cons.mp hc with rfl | hc
      · exact absurd hcn (hskip hpc)
      · exact Or.inl ⟨hc, hpc, hcn⟩
    · exact Or.inr ⟨hc, (List.forall_mem_cons.mp hno).2⟩

/-- The loop behind `collect`, from any map. -/
theorem get_foldl_set (p : α → Bool) (name : α → K) (k : K) (c : α) :
    ∀ (l : List α) (m : List (K × α)), (l.map name).Nodup →
      (get (l.foldl (fun m c => if p c then set m (name c) c else m) m) k = some c ↔
        (c ∈ l ∧ p c = true ∧ name c = k) ∨
          (get m k = some c ∧ ∀ x ∈ l, p x = true → name x ≠ k)) := by
  intro l
  induction l with
  | nil => intro m _; simp
  | cons x rest ih =>
      intro m hnd
      obtain ⟨hx, hrest⟩ := List.nodup_cons.mp hnd
      have hfresh : ∀ y ∈ rest, name y ≠ name x := by
        intro y hy he
        exact hx (List.mem_map.mpr ⟨y, hy, he⟩)
      rw [List.foldl_cons, ih _ hrest]
      by_cases hp : p x = true
      · rw [if_pos hp]
        by_cases hk : name x = k
        · -- this item owns the key, and no later one can
          subst hk
          rw [get_set_self]
          constructor
          · rintro (⟨hc, _, hcn⟩ | ⟨hc, _⟩)
            · exact absurd hcn (hfresh c hc)
            · obtain rfl := Option.some.inj hc
              exact Or.inl ⟨List.mem_cons_self .., hp, rfl⟩
          · rintro (⟨hc, hpc, hcn⟩ | ⟨_, hno⟩)
            · rcases List.mem_cons.mp hc with rfl | hc
              · exact Or.inr ⟨rfl, fun y hy _ => hfresh y hy⟩
              · exact absurd hcn (hfresh c hc)
            · exact absurd rfl (hno x (List.mem_cons_self ..) hp)
        · rw [get_set_ne m x (Ne.symm hk)]
          exact filed_cons (fun _ => hk) c rest (get m k)
      · rw [if_neg hp]
        exact filed_cons (fun hpx => absurd hpx hp) c rest (get m k)

/-- **COLLECTING OVER DISTINCT NAMES**: a key finds exactly the item of that
    name. -/
theorem get_collect (hnd : (l.map name).Nodup) :
    get (collect p name l) k = some c ↔ c ∈ l ∧ p c = true ∧ name c = k := by
  rw [collect, get_foldl_set p name k c l [] hnd]
  simp

/-- What is in the map was filed, under its name. -/
theorem mem_collect (h : (k, c) ∈ collect p name l) : c ∈ l ∧ p c = true ∧ name c = k := by
  have hall : ∀ (l : List α) (m : List (K × α)),
      (k, c) ∈ l.foldl (fun m c => if p c then set m (name c) c else m) m →
      (c ∈ l ∧ p c = true ∧ name c = k) ∨ (k, c) ∈ m := by
    intro l
    induction l with
    | nil => intro m h; exact Or.inr h
    | cons x rest ih =>
        intro m h
        rw [List.foldl_cons] at h
        rcases ih _ h with ⟨hc, hfiled⟩ | hm
        · exact Or.inl ⟨List.mem_cons_of_mem _ hc, hfiled⟩
        · by_cases hp : p x = true
          · rw [if_pos hp] at hm
            rcases List.mem_cons.mp hm with heq | hdel
            · cases heq
              exact Or.inl ⟨List.mem_cons_self .., hp, rfl⟩
            · exact Or.inr (List.mem_of_mem_filter hdel)
          · rw [if_neg hp] at hm
            exact Or.inr hm
  rcases hall l [] h with hmem | hnil
  · exact hmem
  · cases hnil

/-- What is found was filed. -/
theorem mem_of_get_collect (h : get (collect p name l) k = some c) : c ∈ l ∧ p c = true :=
  have hfiled := mem_collect (mem_of_get h)
  ⟨hfiled.1, hfiled.2.1⟩

/-- The loop that enters a list of entries into a map. -/
def fill (l : List (K × V)) (m : List (K × V)) : List (K × V) :=
  l.foldl (fun m e => set m e.1 e.2) m

theorem get_fill_or {v : V} :
    ∀ (l m : List (K × V)), get (fill l m) k = some v → (k, v) ∈ l ∨ get m k = some v := by
  intro l
  induction l with
  | nil => intro m h; exact Or.inr h
  | cons e rest ih =>
      intro m h
      rcases ih (set m e.1 e.2) h with hrest | hset
      · exact Or.inl (List.mem_cons_of_mem _ hrest)
      · by_cases hk : k = e.1
        · subst hk
          rw [get_set_self] at hset
          obtain rfl := Option.some.inj hset
          exact Or.inl (List.mem_cons_self ..)
        · rw [get_set_ne m e.2 hk] at hset
          exact Or.inr hset

/-- A key stays in the map. -/
theorem isSome_get_fill :
    ∀ (l m : List (K × V)), (get m k).isSome ∨ k ∈ l.map Prod.fst → (get (fill l m) k).isSome := by
  intro l
  induction l with
  | nil =>
      rintro m (h | h)
      · exact h
      · exact absurd h List.not_mem_nil
  | cons e rest ih =>
      intro m h
      refine ih (set m e.1 e.2) ?_
      by_cases hk : k = e.1
      · subst hk
        exact Or.inl (by rw [get_set_self]; rfl)
      · rw [get_set_ne m e.2 hk]
        rcases h with h | h
        · exact Or.inl h
        · rcases List.mem_cons.mp h with h | h
          · exact absurd h hk
          · exact Or.inr h

/-- **FILLING LOSES NOTHING** exactly when no key comes with two values. -/
theorem get_fill_iff (l : List (K × V)) :
    (∀ e ∈ l, get (fill l []) e.1 = some e.2) ↔
      ∀ e ∈ l, ∀ e' ∈ l, e.1 = e'.1 → e.2 = e'.2 := by
  constructor
  · intro hget e he e' he' hk
    have hkeep := hget e he
    rw [hk, hget e' he'] at hkeep
    exact (Option.some.inj hkeep).symm
  · intro hval e he
    have hsome := isSome_get_fill l [] (Or.inr (List.mem_map_of_mem (f := Prod.fst) he))
    obtain ⟨v, hv⟩ := Option.isSome_iff_exists.mp hsome
    rcases get_fill_or l [] hv with hmem | hnil
    · rw [hv, hval e he _ hmem rfl]
    · cases hnil

end GoMap
