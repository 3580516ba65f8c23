import Mathlib.Tactic

/-! # Replacing runs of a character class

    `regexp.ReplaceAllString` with a pattern `[^...]+`: every maximal run of
    characters outside the class becomes one copy of the replacement.  What comes
    out is in the class as far as the replacement is (`forall_mem_replaceRuns`),
    and its length is counted by runs, not by characters (`length_replaceRuns`). -/

namespace ReplaceRuns

variable {α : Type}

/-- The replacement, inside of a run or not. -/
def replaceFrom (legal : α → Bool) (repl : List α) : Bool → List α → List α
  | _, [] => []
  | inRun, c :: rest =>
      if legal c then c :: replaceFrom legal repl false rest
      else (if inRun then [] else repl) ++ replaceFrom legal repl true rest

/-- Replace every maximal run of elements that are not legal. -/
def replaceRuns (legal : α → Bool) (repl : List α) (l : List α) : List α :=
  replaceFrom legal repl false l

/-- The runs that begin in a list, inside of a run or not. -/
def runsFrom (legal : α → Bool) : Bool → List α → Nat
  | _, [] => 0
  | inRun, c :: rest =>
      if legal c then runsFrom legal false rest
      else (if inRun then 0 else 1) + runsFrom legal true rest

/-- The maximal runs of elements that are not legal. -/
def runs (legal : α → Bool) (l : List α) : Nat := runsFrom legal false l

theorem forall_mem_replaceFrom {legal : α → Bool} {repl : List α} {p : α → Prop}
    (hlegal : ∀ c, legal c = true → p c) (hrepl : ∀ c ∈ repl, p c) :
    ∀ (l : List α) (inRun : Bool), ∀ c ∈ replaceFrom legal repl inRun l, p c := by
  intro l
  induction l with
  | nil => exact fun _ _ hc => absurd hc List.not_mem_nil
  | cons d rest ih =>
      intro inRun
      rw [replaceFrom]
      by_cases hd : legal d = true
      · rw [if_pos hd]
        exact List.forall_mem_cons.mpr ⟨hlegal d hd, ih false⟩
      · rw [if_neg hd]
        refine List.forall_mem_append.mpr ⟨?_, ih true⟩
        split
        · exact fun _ hc => absurd hc List.not_mem_nil
        · exact hrepl

/-- **ONLY LEGAL ELEMENTS ARE LEFT**, beside those of the replacement. -/
theorem forall_mem_replaceRuns {legal : α → Bool} {repl : List α} {p : α → Prop}
    (hlegal : ∀ c, legal c = true → p c) (hrepl : ∀ c ∈ repl, p c) (l : List α) :
    ∀ c ∈ replaceRuns legal repl l, p c :=
  forall_mem_replaceFrom hlegal hrepl l false

theorem length_replaceFrom (legal : α → Bool) (repl : List α) :
    ∀ (l : List α) (inRun : Bool), (replaceFrom legal repl inRun l).length
      = l.countP legal + repl.length * runsFrom legal inRun l := by
  intro l
  induction l with
  | nil => intro inRun; rfl
  | cons d rest ih =>
      intro inRun
      rw [replaceFrom, runsFrom]
      by_cases hd : legal d = true
      · rw [if_pos hd, if_pos hd, List.length_cons, ih, List.countP_cons_of_pos hd]
        omega
      · rw [if_neg hd, if_neg hd, List.length_append, ih, List.countP_cons_of_neg hd]
        cases inRun with
        | true =>
            show 0 + _ = _ + repl.length * (0 + _)
            rw [Nat.zero_add, Nat.zero_add]
        | false =>
            show repl.length + _ = _ + repl.length * (1 + _)
            rw [Nat.mul_add, Nat.mul_one]
            omega

/-- **THE LENGTH OF THE RESULT**: what was legal, and one replacement for each
    run. -/
theorem length_replaceRuns (legal : α → Bool) (repl l : List α) :
    (replaceRuns legal repl l).length = l.countP legal + repl.length * runs legal l :=
  length_replaceFrom legal repl l false

end ReplaceRuns
