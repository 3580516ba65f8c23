import Mathlib.Data.Multiset.AddSub
import Mathlib.Data.Multiset.MapFold
import Mathlib.Tactic

/-! # Levels whose labels come in any order

    A forest has on each level a list of labels, some loads, and what is below.
    A level spells the words of the labels from the top down to it.  When the labels
    of each level come in any order (`Rearranged`), the loads come under words that
    differ, unless the words of two labels of a level can change places
    (`Orderless`).

    `spelled_eq` says that nothing else is needed, and `exists_apart` that this is:
    of a forest that is not orderless there are two arrangements with some loads
    under words that the other does not have. -/

namespace Arrangement

variable {α β γ : Type}

/-- A first level with what is below it, and what stands beside it. -/
inductive Forest (α β : Type) where
  | nil
  | level (labels : List α) (loads : List β) (below beside : Forest α β)

/-- The forest with the labels of each level in another order. -/
inductive Rearranged : Forest α β → Forest α β → Prop where
  | nil : Rearranged .nil .nil
  | level {labels labels' : List α} {loads : List β} {below below' beside beside' : Forest α β} :
      labels'.Perm labels → Rearranged below below' → Rearranged beside beside' →
      Rearranged (.level labels loads below beside) (.level labels' loads below' beside')

namespace Forest

def append : Forest α β → Forest α β → Forest α β
  | .nil, g => g
  | .level labels loads below beside, g => .level labels loads below (beside.append g)

/-- The number of levels. -/
def size : Forest α β → Nat
  | .nil => 0
  | .level _ _ below beside => 1 + below.size + beside.size

/-- The loads of a level, under its labels. -/
def own (labels : List α) (loads : List β) : Multiset (List α × Multiset β) :=
  if loads.isEmpty then 0 else {(labels, (loads : Multiset β))}

/-- The loads of all levels, each under the labels from the top down. -/
def leaves (above : List α) : Forest α β → Multiset (List α × Multiset β)
  | .nil => 0
  | .level labels loads below beside =>
      own (above ++ labels) loads + below.leaves (above ++ labels) + beside.leaves above

/-- There is a load somewhere. -/
def Loaded : Forest α β → Prop
  | .nil => False
  | .level _ loads below beside => loads ≠ [] ∨ below.Loaded ∨ beside.Loaded

/-- Where there is a load at or below a level, the words of any two of its labels can
    change places. -/
def Orderless (word : α → List γ) : Forest α β → Prop
  | .nil => True
  | .level labels loads below beside =>
      (loads ≠ [] ∨ below.Loaded →
        ∀ a ∈ labels, ∀ b ∈ labels, word a ++ word b = word b ++ word a) ∧
      below.Orderless word ∧ beside.Orderless word

end Forest

open Forest

/-! ## One forest beside the other -/

variable {labels : List α} {loads : List β} {x : List α × Multiset β} (above : List α)
  (f g : Forest α β)

theorem size_append : (f.append g).size = f.size + g.size := by
  induction f with
  | nil => exact (Nat.zero_add _).symm
  | level labels loads below beside _ ih => rw [append, size, size, ih, ← Nat.add_assoc]

theorem leaves_append : (f.append g).leaves above = f.leaves above + g.leaves above := by
  induction f with
  | nil => exact (zero_add _).symm
  | level labels loads below beside _ ih => rw [append, leaves, leaves, ih, ← add_assoc]

theorem Rearranged.refl (f : Forest α β) : Rearranged f f := by
  induction f with
  | nil => exact .nil
  | level labels loads below beside hbelow hbeside => exact .level (.refl _) hbelow hbeside

theorem Rearranged.append {f f' g g' : Forest α β} (hf : Rearranged f f')
    (hg : Rearranged g g') : Rearranged (f.append g) (f'.append g') := by
  induction hf with
  | nil => exact hg
  | level hperm hbelow _ _ ih => exact .level hperm hbelow ih

theorem rearranged_append {f g k : Forest α β} (h : Rearranged (f.append g) k) :
    ∃ f' g', Rearranged f f' ∧ Rearranged g g' ∧ k = f'.append g' := by
  induction f generalizing k with
  | nil => exact ⟨.nil, k, .nil, h, rfl⟩
  | level labels loads below beside _ ih =>
      cases h with
      | level hperm hbelow hbeside =>
          obtain ⟨f', g', hf, hg, rfl⟩ := ih hbeside
          exact ⟨_, g', .level hperm hbelow hf, hg, rfl⟩

/-! ## Loads and labels -/

theorem own_eq_zero : own labels loads = 0 ↔ loads = [] := by
  cases loads with
  | nil => exact iff_of_true rfl rfl
  | cons load rest => exact iff_of_false (Multiset.singleton_ne_zero _) (List.cons_ne_nil _ _)

theorem mem_own (hx : x ∈ own labels loads) : x.1 = labels := by
  cases loads with
  | nil => exact absurd hx (Multiset.notMem_zero x)
  | cons load rest => rw [Multiset.mem_singleton.mp hx]

theorem leaves_eq_zero : f.leaves above = 0 ↔ ¬ f.Loaded := by
  induction f generalizing above with
  | nil => exact iff_of_true rfl id
  | level labels loads below beside hbelow hbeside =>
      rw [leaves, add_eq_zero, add_eq_zero, own_eq_zero, hbelow, hbeside, Loaded, not_or, not_or,
        not_not, and_assoc]

theorem Rearranged.loaded_iff {f g : Forest α β} (h : Rearranged f g) : g.Loaded ↔ f.Loaded := by
  induction h with
  | nil => exact Iff.rfl
  | level _ _ _ hbelow hbeside => rw [Loaded, Loaded, hbelow, hbeside]

/-- The labels above come first. -/
theorem isPrefix_of_mem_leaves {f : Forest α β} {above : List α} (hx : x ∈ f.leaves above) :
    above <+: x.1 := by
  induction f generalizing above with
  | nil => exact absurd hx (Multiset.notMem_zero x)
  | level labels loads below beside hbelow hbeside =>
      rw [leaves, Multiset.mem_add, Multiset.mem_add] at hx
      rcases hx with (hx | hx) | hx
      · rw [mem_own hx]
        exact List.prefix_append above labels
      · exact (List.prefix_append above labels).trans (hbelow hx)
      · exact hbeside hx

/-! ## Words -/

section Words

variable (word : α → List γ)

/-- The loads under what the labels spell. -/
def spelled (leaves : Multiset (List α × Multiset β)) : Multiset (List γ × Multiset β) :=
  leaves.map (fun x => (x.1.flatMap word, x.2))

variable {word}

theorem spelled_add (s t : Multiset (List α × Multiset β)) :
    spelled word (s + t) = spelled word s + spelled word t :=
  Multiset.map_add _ s t

theorem spelled_own {labels' : List α} (h : labels'.flatMap word = labels.flatMap word) :
    spelled word (own labels' loads) = spelled word (own labels loads) := by
  cases loads with
  | nil => rfl
  | cons load rest => exact congrArg (fun w => {(w, ((load :: rest : List β) : Multiset β))}) h

variable {l : List α} {f : Forest α β} {a b : α}

/-- Words that can change places are spelled in any order. -/
theorem flatMap_perm {l' : List α} (hperm : l'.Perm l)
    (hl : ∀ a ∈ l, ∀ b ∈ l, word a ++ word b = word b ++ word a) :
    l'.flatMap word = l.flatMap word := by
  induction hperm with
  | nil => rfl
  | cons x _ ih =>
      rw [List.flatMap_cons, List.flatMap_cons,
        ih (fun a ha b hb => hl a (List.mem_cons_of_mem _ ha) b (List.mem_cons_of_mem _ hb))]
  | swap x y l =>
      have hxy := hl x (by simp) y (by simp)
      simp only [List.flatMap_cons, ← List.append_assoc, hxy]
  | trans _ hsecond ih ih' =>
      exact (ih (fun a ha b hb => hl a (hsecond.mem_iff.mp ha) b (hsecond.mem_iff.mp hb))).trans
        (ih' hl)

/-- **AN ORDERLESS FOREST** has its loads under the same words in any arrangement. -/
theorem spelled_eq {g : Forest α β} (hr : Rearranged f g) (hf : f.Orderless word) :
    ∀ {above above' : List α}, above'.flatMap word = above.flatMap word →
      spelled word (g.leaves above') = spelled word (f.leaves above) := by
  induction hr with
  | nil => exact fun _ => rfl
  | @level labels labels' loads below below' beside beside' hperm hbelow _ ihbelow ihbeside =>
      intro above above' hwords
      obtain ⟨hown, hb, hs⟩ := hf
      have hload : spelled word (own (above' ++ labels') loads + below'.leaves (above' ++ labels'))
          = spelled word (own (above ++ labels) loads + below.leaves (above ++ labels)) := by
        by_cases hloaded : loads ≠ [] ∨ below.Loaded
        · have hall : (above' ++ labels').flatMap word = (above ++ labels).flatMap word := by
            rw [List.flatMap_append, List.flatMap_append, hwords, flatMap_perm hperm (hown hloaded)]
          rw [spelled_add, spelled_add, spelled_own hall, ihbelow hb hall]
        · -- nothing is spelled here
          obtain ⟨hnil, hempty⟩ := not_or.mp hloaded
          rw [(leaves_eq_zero _ below').mpr (mt hbelow.loaded_iff.mp hempty),
            (leaves_eq_zero _ below).mpr hempty, own_eq_zero.mpr (not_not.mp hnil),
            own_eq_zero.mpr (not_not.mp hnil)]
      rw [leaves, leaves, spelled_add, hload, ihbeside hs hwords, ← spelled_add]

/-- Two arrangements of a forest that have some loads in common, and others under words
    that are not found among the words of the other. -/
def Apart (word : α → List γ) (above : List α) (f g : Forest α β) : Prop :=
  ∃ common left right, f.leaves above = common + left ∧ g.leaves above = common + right ∧
    left ≠ 0 ∧ ∀ x ∈ left, ∀ y ∈ right, x.1.flatMap word ≠ y.1.flatMap word

/-- What comes under words that differ in one place differs. -/
theorem flatMap_ne (hab : word a ++ word b ≠ word b ++ word a) {above rest : List α} {x y : List α}
    (hx : above ++ a :: b :: rest <+: x) (hy : above ++ b :: a :: rest <+: y) :
    x.flatMap word ≠ y.flatMap word := by
  obtain ⟨xs, rfl⟩ := hx
  obtain ⟨ys, rfl⟩ := hy
  simp only [List.flatMap_append, List.flatMap_cons, List.append_assoc]
  intro heq
  have htail := List.append_cancel_left heq
  rw [← List.append_assoc, ← List.append_assoc (word b)] at htail
  refine hab (List.append_inj_left htail ?_)
  rw [List.length_append, List.length_append, Nat.add_comm]

/-- Two members can be brought to the front. -/
theorem exists_perm_front (ha : a ∈ l) (hb : b ∈ l) (hne : a ≠ b) :
    ∃ rest, (a :: b :: rest).Perm l := by
  obtain ⟨s, t, rfl⟩ := List.append_of_mem ha
  have hmem : b ∈ s ++ t := by
    simp only [List.mem_append, List.mem_cons] at hb ⊢
    rcases hb with hb | rfl | hb
    · exact Or.inl hb
    · exact absurd rfl hne
    · exact Or.inr hb
  obtain ⟨s', t', hst⟩ := List.append_of_mem hmem
  refine ⟨s' ++ t', ((List.perm_middle.symm.cons a).trans ?_)⟩
  rw [← hst]
  exact List.perm_middle.symm

/-- **A FOREST THAT IS NOT ORDERLESS** has two arrangements that are apart. -/
theorem exists_apart (h : ¬ f.Orderless word) (above : List α) :
    ∃ g g', Rearranged f g ∧ Rearranged f g' ∧ Apart word above g g' := by
  induction f generalizing above with
  | nil => exact absurd trivial h
  | level labels loads below beside ihbelow ihbeside =>
      by_cases hown : loads ≠ [] ∨ below.Loaded →
          ∀ a ∈ labels, ∀ b ∈ labels, word a ++ word b = word b ++ word a
      · by_cases hbelow : below.Orderless word
        · obtain ⟨g, g', hg, hg', common, left, right, hleft, hright, hrest⟩ :=
            ihbeside (fun hbeside => h ⟨hown, hbelow, hbeside⟩) above
          refine ⟨_, _, .level (.refl _) (.refl below) hg, .level (.refl _) (.refl below) hg',
            own (above ++ labels) loads + below.leaves (above ++ labels) + common, left, right,
            ?_, ?_, hrest⟩
          · rw [leaves, hleft, add_assoc _ common]
          · rw [leaves, hright, add_assoc _ common]
        · obtain ⟨g, g', hg, hg', common, left, right, hleft, hright, hrest⟩ :=
            ihbelow hbelow (above ++ labels)
          refine ⟨_, _, .level (.refl _) hg (.refl beside), .level (.refl _) hg' (.refl beside),
            own (above ++ labels) loads + beside.leaves above + common, left, right, ?_, ?_, hrest⟩
          · rw [leaves, hleft]
            abel
          · rw [leaves, hright]
            abel
      · -- two labels of this level that cannot change places come first
        obtain ⟨hloaded, hlabels⟩ := Classical.not_imp.mp hown
        simp only [not_forall] at hlabels
        obtain ⟨a, ha, b, hb, hab⟩ := hlabels
        obtain ⟨rest, hrest⟩ := exists_perm_front ha hb (fun heq => hab (by rw [heq]))
        have hloads : ∀ above' : List α, own above' loads + below.leaves above' ≠ 0 := by
          intro above' hzero
          obtain ⟨hnil, hempty⟩ := add_eq_zero.mp hzero
          rcases hloaded with hload | hload
          · exact hload (own_eq_zero.mp hnil)
          · exact (leaves_eq_zero _ below).mp hempty hload
        have hfront : ∀ {labels' : List α} {x : List α × Multiset β},
            x ∈ own (above ++ labels') loads + below.leaves (above ++ labels') →
            above ++ labels' <+: x.1 := by
          intro labels' x hx
          rcases Multiset.mem_add.mp hx with hx | hx
          · rw [mem_own hx]
          · exact isPrefix_of_mem_leaves hx
        refine ⟨_, _, .level hrest (.refl below) (.refl beside),
          .level ((List.Perm.swap a b rest).trans hrest) (.refl below) (.refl beside),
          beside.leaves above, _, _, add_comm _ _, add_comm _ _, hloads _, ?_⟩
        exact fun x hx y hy => flatMap_ne hab (hfront hx) (hfront hy)

end Words

end Arrangement
