import Mathlib.Tactic

/-! # Filtering a slice in place

    The idiom

        k := 0
        for _, x := range s { if keep(x) { s[k] = x; k++ } }
        s = s[:k]

    writes into the slice it is ranging over.  `range` takes the length once and
    reads each element when it gets there, so the loop is safe only because the
    writes stay behind the reads.  `compact_filter` is the result: what is left
    is the filter of the slice as it was.

    `keep` may fail, and then so does the loop, at the first element it fails
    on (`compact_fails`). -/

namespace Compact

variable {α ε : Type}

/-- The loop, with `n` elements left to range over from index `i`. -/
def compactLoop (keep : α → Except ε Bool) : Nat → Nat → Nat → List α → Except ε (List α × Nat)
  | 0, _, k, s => .ok (s, k)
  | n + 1, i, k, s =>
      match s[i]? with
      | none => .ok (s, k)
      | some x =>
          match keep x with
          | .error e => .error e
          | .ok true => compactLoop keep n (i + 1) (k + 1) (s.set k x)
          | .ok false => compactLoop keep n (i + 1) k s

/-- The whole idiom. -/
def compact (keep : α → Except ε Bool) (s : List α) : Except ε (List α) :=
  match compactLoop keep s.length 0 0 s with
  | .error e => .error e
  | .ok (s, k) => .ok (s.take k)

variable {p : α → Bool} {keep : α → Except ε Bool} {s : List α} (w junk rest : List α) (x : α)

/-- The element the loop reads is the first one it has not ranged over. -/
theorem getElem?_ahead : (w ++ junk ++ x :: rest)[w.length + junk.length]? = some x := by
  rw [List.getElem?_append_right (by rw [List.length_append]), List.length_append,
    Nat.sub_self]
  rfl

/-- Writing what was just read extends the kept part by it; the gap moves up. -/
theorem set_behind :
    ∃ junk', junk'.length = junk.length ∧
      (w ++ junk ++ x :: rest).set w.length x = (w ++ [x]) ++ junk' ++ rest := by
  cases junk with
  | nil =>
      refine ⟨[], rfl, ?_⟩
      rw [List.append_nil, List.append_nil, List.set_append_right _ _ le_rfl, Nat.sub_self,
        List.set_cons_zero, List.append_assoc, List.singleton_append]
  | cons j js =>
      refine ⟨js ++ [x], by rw [List.length_append]; rfl, ?_⟩
      rw [List.append_assoc, List.set_append_right _ _ le_rfl, Nat.sub_self,
        List.cons_append, List.set_cons_zero]
      simp

/-- Over elements on which `keep` does not fail, the loop keeps those it
    selects and leaves what is ahead as it was. -/
theorem compactLoop_ok (n : Nat) (post : List α) :
    ∀ (pre w junk : List α), (∀ x ∈ pre, keep x = .ok (p x)) →
      ∃ junk', compactLoop keep (pre.length + n) (w.length + junk.length) w.length
          (w ++ junk ++ (pre ++ post))
        = compactLoop keep n ((w ++ pre.filter p).length + junk'.length)
            (w ++ pre.filter p).length ((w ++ pre.filter p) ++ junk' ++ post) := by
  intro pre
  -- on the elements still to come, for every kept part and every gap
  induction pre with
  | nil =>
      intro w junk _
      exact ⟨junk, by simp⟩
  | cons x rest ih =>
      intro w junk hkeep
      obtain ⟨hx, hrest⟩ := List.forall_mem_cons.mp hkeep
      rw [List.length_cons, Nat.succ_add, List.cons_append, compactLoop,
        getElem?_ahead w junk (rest ++ post) x]
      simp only [hx]
      cases hp : p x with
      | true =>
          obtain ⟨junk', hlen, hset⟩ := set_behind w junk (rest ++ post) x
          obtain ⟨gap, hgap⟩ := ih (w ++ [x]) junk' hrest
          refine ⟨gap, ?_⟩
          have hi : w.length + junk.length + 1 = (w ++ [x]).length + junk'.length := by
            rw [List.length_append, hlen, List.length_singleton]
            omega
          have hk : w.length + 1 = (w ++ [x]).length := by
            rw [List.length_append, List.length_singleton]
          simp only [hset, hi, hk]
          rw [hgap, List.filter_cons_of_pos hp, List.append_assoc w [x],
            List.singleton_append]
      | false =>
          obtain ⟨gap, hgap⟩ := ih w (junk ++ [x]) hrest
          refine ⟨gap, ?_⟩
          have hi : w.length + junk.length + 1 = w.length + (junk ++ [x]).length := by
            rw [List.length_append, List.length_singleton]
            omega
          have hs : w ++ junk ++ x :: (rest ++ post)
              = w ++ (junk ++ [x]) ++ (rest ++ post) := by
            simp
          simp only [hs, hi]
          rw [hgap, List.filter_cons_of_neg (by rw [hp]; exact Bool.false_ne_true)]

/-- **COMPACTING IS FILTERING**, although the slice is written while it is
    ranged over. -/
theorem compact_filter (hkeep : ∀ x ∈ s, keep x = .ok (p x)) :
    compact keep s = .ok (s.filter p) := by
  obtain ⟨gap, hloop⟩ := compactLoop_ok 0 [] s [] [] hkeep
  simp only [List.nil_append, List.append_nil, List.length_nil, Nat.add_zero] at hloop
  rw [compact, hloop, compactLoop]
  simp

/-- **A FAILURE STOPS THE LOOP**: the first element `keep` fails on decides. -/
theorem compact_fails {pre post : List α} {x : α} {e : ε} (hpre : ∀ y ∈ pre, keep y = .ok (p y))
    (hx : keep x = .error e) : compact keep (pre ++ x :: post) = .error e := by
  obtain ⟨gap, hloop⟩ := compactLoop_ok (post.length + 1) (x :: post) pre [] [] hpre
  simp only [List.nil_append, List.length_nil, Nat.add_zero] at hloop
  rw [compact, List.length_append, List.length_cons, hloop, compactLoop,
    getElem?_ahead _ gap post x]
  simp only [hx]

/-- What `keep` decides, where it does not fail. -/
def verdict (keep : α → Except ε Bool) (x : α) : Bool :=
  match keep x with
  | .ok b => b
  | .error _ => false

/-- A slice is accepted as a whole, or it has a first failing element. -/
theorem accepted_or_first_failure (keep : α → Except ε Bool) : ∀ s : List α,
    (∀ x ∈ s, keep x = .ok (verdict keep x)) ∨
      ∃ pre x post e, s = pre ++ x :: post ∧
        (∀ y ∈ pre, keep y = .ok (verdict keep y)) ∧ keep x = .error e := by
  intro s
  induction s with
  | nil => exact Or.inl (fun _ hx => absurd hx List.not_mem_nil)
  | cons x rest ih =>
      cases hx : keep x with
      | error e =>
          exact Or.inr ⟨[], x, rest, e, rfl, fun _ hy => absurd hy List.not_mem_nil, hx⟩
      | ok b =>
          have hv : keep x = .ok (verdict keep x) := by
            rw [verdict, hx]
          rcases ih with hall | ⟨pre, y, post, e, rfl, hpre, hy⟩
          · exact Or.inl (List.forall_mem_cons.mpr ⟨hv, hall⟩)
          · exact Or.inr ⟨x :: pre, y, post, e, rfl,
              List.forall_mem_cons.mpr ⟨hv, hpre⟩, hy⟩

/-- **COMPACTING, IN EITHER CASE**: the filter of the slice if `keep` fails
    nowhere, and otherwise a failure of `keep` on one of its elements. -/
theorem compact_cases (keep : α → Except ε Bool) (s : List α) :
    ((∀ x ∈ s, keep x = .ok (verdict keep x)) ∧
        compact keep s = .ok (s.filter (verdict keep))) ∨
      ∃ x ∈ s, ∃ e, keep x = .error e ∧ compact keep s = .error e := by
  rcases accepted_or_first_failure keep s with hall | ⟨pre, x, post, e, rfl, hpre, hx⟩
  · exact Or.inl ⟨hall, compact_filter hall⟩
  · exact Or.inr ⟨x, List.mem_append_right _ (List.mem_cons_self ..), e, hx,
      compact_fails hpre hx⟩

/-- What is kept tells the condition it was kept by. -/
theorem filter_eq_filter_iff {q : α → Bool} :
    s.filter p = s.filter q ↔ ∀ x ∈ s, p x = true ↔ q x = true := by
  constructor
  · intro h x hx
    have hmem : x ∈ s.filter p ↔ x ∈ s.filter q := by rw [h]
    rw [List.mem_filter, List.mem_filter] at hmem
    exact ⟨fun hp => (hmem.mp ⟨hx, hp⟩).2, fun hq => (hmem.mpr ⟨hx, hq⟩).2⟩
  · intro h
    exact List.filter_congr (fun x hx => Bool.eq_iff_iff.mpr (h x hx))

end Compact
