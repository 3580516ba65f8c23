import Mathlib.Data.List.TakeDrop

/-! # Slices and the arrays behind them

    A slice is a window on an array that other slices may look at as well:
    `append` writes the cell behind the window when the array has room, and
    moves to a new array otherwise.  How much room a new array has is left open.

    Nobody is hurt by this as long as whoever was lent a slice writes behind its
    window only.  `Keeps s H H'` is what the lender of `s` may count on from one
    heap to the next, and `Grown` is a slice that was appended to: what its holder
    lends on keeps what it was lent (`Grown.keeps_trans`). -/

namespace GoSlice

variable {α : Type*}

/-- The arrays that were allocated. -/
structure Heap (α : Type*) where
  arrays : List (List α)

/-- A window from the start of an array. -/
structure Slice where
  array : Nat
  len : Nat
  cap : Nat
  len_le_cap : len ≤ cap

/-- The capacity of the array `append` moves to, from the capacity there was and
    the length that is needed. -/
structure Growth where
  cap : Nat → Nat → Nat
  enough : ∀ old needed, needed ≤ cap old needed

namespace Heap

/-- The array of a slice is there, and as long as the slice says. -/
def Valid (H : Heap α) (s : Slice) : Prop :=
  ∃ xs, H.arrays[s.array]? = some xs ∧ xs.length = s.cap

/-- What a slice shows. -/
def contents (H : Heap α) (s : Slice) : List α :=
  ((H.arrays[s.array]?).getD []).take s.len

/-- The assignment `s[i] = x`. -/
def assign (H : Heap α) (s : Slice) (i : Nat) (x : α) : Heap α :=
  ⟨H.arrays.modify s.array (fun xs => xs.set i x)⟩

/-- `make([]T, len, cap)`. -/
def make (zero : α) (H : Heap α) (len cap : Nat) (h : len ≤ cap) : Heap α × Slice :=
  (⟨H.arrays ++ [List.replicate cap zero]⟩, ⟨H.arrays.length, len, cap, h⟩)

/-- `append(s, x)`. -/
def append (g : Growth) (zero : α) (H : Heap α) (s : Slice) (x : α) : Heap α × Slice :=
  if h : s.len < s.cap then (H.assign s s.len x, ⟨s.array, s.len + 1, s.cap, h⟩)
  else
    let cap := g.cap s.cap (s.len + 1)
    (⟨H.arrays ++ [H.contents s ++ x :: List.replicate (cap - (s.len + 1)) zero]⟩,
      ⟨H.arrays.length, s.len + 1, cap, g.enough s.cap (s.len + 1)⟩)

theorem assign_self {H : Heap α} {s : Slice} {xs : List α} (h : H.arrays[s.array]? = some xs)
    (i : Nat) (x : α) : (H.assign s i x).arrays[s.array]? = some (xs.set i x) := by
  rw [assign, List.getElem?_modify_eq, h]
  rfl

theorem assign_ne (H : Heap α) {s : Slice} {a : Nat} (h : s.array ≠ a) (i : Nat) (x : α) :
    (H.assign s i x).arrays[a]? = H.arrays[a]? :=
  List.getElem?_modify_ne _ _ h

/-- An assignment to the array allocated last. -/
theorem assign_last {s : Slice} {arrays : List (List α)} (h : s.array = arrays.length)
    (xs : List α) (i : Nat) (x : α) :
    (⟨arrays ++ [xs]⟩ : Heap α).assign s i x = ⟨arrays ++ [xs.set i x]⟩ := by
  rw [assign, h]
  congr 1
  clear h
  induction arrays with
  | nil => rfl
  | cons ys arrays ih => exact congrArg (List.cons ys) ih

theorem Valid.length_contents {H : Heap α} {s : Slice} (h : H.Valid s) :
    (H.contents s).length = s.len := by
  obtain ⟨xs, hxs, hlen⟩ := h
  rw [contents, hxs, Option.getD_some, List.length_take, hlen, Nat.min_eq_left s.len_le_cap]

end Heap

/-! ## What a lender may count on -/

/-- From `H` to `H'` the arrays stay, and of what is in them at most the cells
    behind `s` have changed. -/
def Keeps (s : Slice) (H H' : Heap α) : Prop :=
  ∀ a xs, H.arrays[a]? = some xs → ∃ ys, H'.arrays[a]? = some ys ∧ ys.length = xs.length ∧
    ∀ i, (a = s.array → i < s.len) → ys[i]? = xs[i]?

section Keeps

variable {s : Slice} {H H' H'' : Heap α}

theorem Keeps.refl (s : Slice) (H : Heap α) : Keeps s H H :=
  fun _ xs hxs => ⟨xs, hxs, rfl, fun _ _ => rfl⟩

theorem Keeps.trans (h : Keeps s H H') (h' : Keeps s H' H'') : Keeps s H H'' := by
  intro a xs hxs
  obtain ⟨ys, hys, hlen, hcells⟩ := h a xs hxs
  obtain ⟨zs, hzs, hlen', hcells'⟩ := h' a ys hys
  exact ⟨zs, hzs, hlen'.trans hlen, fun i hi => (hcells' i hi).trans (hcells i hi)⟩

theorem Keeps.length_le (h : Keeps s H H') : H.arrays.length ≤ H'.arrays.length := by
  by_contra hlt
  obtain ⟨ys, hys, -⟩ := h H'.arrays.length _ (List.getElem?_eq_getElem (Nat.lt_of_not_le hlt))
  rw [List.getElem?_eq_none (Nat.le_refl _)] at hys
  cases hys

theorem Keeps.valid (h : Keeps s H H') (hs : H.Valid s) : H'.Valid s := by
  obtain ⟨xs, hxs, hcap⟩ := hs
  obtain ⟨ys, hys, hlen, -⟩ := h _ xs hxs
  exact ⟨ys, hys, hlen.trans hcap⟩

/-- **THE LENDER SEES NO CHANGE.** -/
theorem Keeps.contents (h : Keeps s H H') (hs : H.Valid s) : H'.contents s = H.contents s := by
  obtain ⟨xs, hxs, -⟩ := hs
  obtain ⟨ys, hys, -, hcells⟩ := h _ xs hxs
  rw [Heap.contents, Heap.contents, hxs, hys, Option.getD_some, Option.getD_some]
  refine List.ext_getElem? (fun i => ?_)
  rw [List.getElem?_take, List.getElem?_take]
  by_cases hi : i < s.len
  · rw [if_pos hi, if_pos hi]
    exact hcells i (fun _ => hi)
  · rw [if_neg hi, if_neg hi]

/-- A new array is nobody's. -/
theorem keeps_alloc (s : Slice) (H : Heap α) (xs : List α) : Keeps s H ⟨H.arrays ++ [xs]⟩ := by
  intro a ys hys
  have ha : a < H.arrays.length := (List.getElem?_eq_some_iff.mp hys).1
  exact ⟨ys, (List.getElem?_append_left ha).trans hys, rfl, fun _ _ => rfl⟩

/-- A cell behind the window is not in it. -/
theorem keeps_assign (H : Heap α) {i : Nat} (hi : s.len ≤ i) (x : α) :
    Keeps s H (H.assign s i x) := by
  intro a xs hxs
  by_cases ha : s.array = a
  · subst ha
    refine ⟨xs.set i x, Heap.assign_self hxs i x, List.length_set, ?_⟩
    intro j hj
    exact List.getElem?_set_ne (Nat.ne_of_gt (Nat.lt_of_lt_of_le (hj rfl) hi))
  · exact ⟨xs, (H.assign_ne ha i x).trans hxs, rfl, fun _ _ => rfl⟩

end Keeps

/-! ## What a borrower does -/

/-- `s'` came from `s` by appending: it goes on in the array of `s`, or has one of
    its own. -/
structure Grown (H : Heap α) (s : Slice) (H' : Heap α) (s' : Slice) : Prop where
  keeps : Keeps s H H'
  valid : H'.Valid s'
  own : s'.array = s.array ∧ s.len ≤ s'.len ∨ H.arrays.length ≤ s'.array

section Grown

variable {s s' s'' : Slice} {H H' H'' : Heap α}

theorem Grown.refl (h : H.Valid s) : Grown H s H s :=
  ⟨.refl s H, h, Or.inl ⟨rfl, Nat.le_refl _⟩⟩

/-- **LENDING ON**: whoever keeps what is lent on keeps what was lent. -/
theorem Grown.keeps_trans (h : Grown H s H' s') (h' : Keeps s' H' H'') : Keeps s H H'' := by
  intro a xs hxs
  obtain ⟨ys, hys, hlen, hcells⟩ := h.keeps a xs hxs
  obtain ⟨zs, hzs, hlen', hcells'⟩ := h' a ys hys
  refine ⟨zs, hzs, hlen'.trans hlen, fun i hi => (hcells' i ?_).trans (hcells i hi)⟩
  intro ha
  rcases h.own with ⟨harray, hle⟩ | hfresh
  · exact Nat.lt_of_lt_of_le (hi (ha.trans harray)) hle
  · have hlt : a < H.arrays.length := (List.getElem?_eq_some_iff.mp hxs).1
    omega

theorem Grown.trans (h : Grown H s H' s') (h' : Grown H' s' H'' s'') : Grown H s H'' s'' := by
  refine ⟨h.keeps_trans h'.keeps, h'.valid, ?_⟩
  rcases h'.own with ⟨harray, hle⟩ | hfresh
  · rcases h.own with ⟨harray', hle'⟩ | hfresh
    · exact Or.inl ⟨harray.trans harray', Nat.le_trans hle' hle⟩
    · exact Or.inr (harray ▸ hfresh)
  · exact Or.inr (Nat.le_trans h.keeps.length_le hfresh)

/-- A write into the array at the end of the window. -/
theorem contents_assign (h : H.Valid s) (hroom : s.len < s.cap) (x : α) :
    (H.assign s s.len x).Valid ⟨s.array, s.len + 1, s.cap, hroom⟩ ∧
      (H.assign s s.len x).contents ⟨s.array, s.len + 1, s.cap, hroom⟩
        = H.contents s ++ [x] := by
  obtain ⟨xs, hxs, hcap⟩ := h
  have hat := Heap.assign_self hxs s.len x
  refine ⟨⟨_, hat, List.length_set.trans hcap⟩, ?_⟩
  have hlt : s.len < (xs.set s.len x).length := by rwa [List.length_set, hcap]
  show (((H.assign s s.len x).arrays[s.array]?).getD []).take (s.len + 1) = _
  rw [hat, Heap.contents, hxs, Option.getD_some, Option.getD_some,
    List.take_succ_eq_append_getElem hlt, List.getElem_set_self,
    List.take_set_of_le (Nat.le_refl _)]

/-- **APPEND**: the slice shows one element more, behind what it showed. -/
theorem append_spec (g : Growth) (zero : α) (h : H.Valid s) (x : α) :
    Grown H s (H.append g zero s x).1 (H.append g zero s x).2 ∧
      (H.append g zero s x).1.contents (H.append g zero s x).2 = H.contents s ++ [x] := by
  unfold Heap.append
  by_cases hroom : s.len < s.cap
  · rw [dif_pos hroom]
    obtain ⟨hvalid, hcontents⟩ := contents_assign h hroom x
    exact ⟨⟨keeps_assign H (Nat.le_refl _) x, hvalid, Or.inl ⟨rfl, Nat.le_succ _⟩⟩, hcontents⟩
  · rw [dif_neg hroom]
    have hat : ∀ xs : List α, (H.arrays ++ [xs])[H.arrays.length]? = some xs :=
      fun xs => List.getElem?_concat_length
    refine ⟨⟨keeps_alloc s H _, ⟨_, hat _, ?_⟩, Or.inr (Nat.le_refl _)⟩, ?_⟩
    · have henough := g.enough s.cap (s.len + 1)
      simp only [List.length_append, List.length_cons, List.length_replicate, h.length_contents]
      omega
    · show ((H.arrays ++ [_])[H.arrays.length]?.getD []).take (s.len + 1) = _
      rw [hat, Option.getD_some, List.append_cons, List.take_left' ?_]
      rw [List.length_append, h.length_contents]
      rfl

end Grown

end GoSlice
