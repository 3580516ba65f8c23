import Mathlib.Tactic

/-! # Labelled transition systems — the run library

    A system is an initial state and a partial successor function.  The label
    of a step resolves everything the scheduler and the environment are free to
    choose, so `next` is computable and a concrete run can be evaluated, while
    quantifying over labels covers every interleaving.

    `Reach S P` is reachability along runs ALL of whose steps satisfy `P`;
    `P := fun _ _ => True` gives plain reachability.  Every safety argument
    goes through `Reach.invariant`. -/

namespace Transition

universe u v w
variable {σ : Type u} {α : Type v}

/-- An executable labelled transition system; `next s a = none` means that the
    label `a` is not enabled in `s`. -/
structure System (σ : Type u) (α : Type v) where
  init : σ
  next : σ → α → Option σ

/-- States reached by a run every step of which satisfies `P`. -/
inductive Reach (S : System σ α) (P : σ → α → Prop) : σ → Prop where
  | init : Reach S P S.init
  | next {s t : σ} {a : α} :
      Reach S P s → P s a → S.next s a = some t → Reach S P t

/-- No restriction on the steps of a run. -/
def anyStep : σ → α → Prop := fun _ _ => True

variable {S : System σ α} {s t : σ}

/-- **INVARIANT RULE**: what holds initially and is kept by every admitted step
    holds in every state reached by admitted steps. -/
theorem Reach.invariant {P : σ → α → Prop} {I : σ → Prop} (hinit : I S.init)
    (hstep : ∀ s a t, I s → P s a → S.next s a = some t → I t) (h : Reach S P s) : I s := by
  induction h with
  | init => exact hinit
  | next _ hP hn ih => exact hstep _ _ _ ih hP hn

/-- Follow a list of labels, failing on the first that is not enabled. -/
def exec (S : System σ α) : σ → List α → Option σ
  | s, [] => some s
  | s, a :: rest => (S.next s a).bind (fun t => exec S t rest)

/-- Runs follow one another. -/
theorem exec_append {labels : List α} (he : exec S s labels = some t) (more : List α) :
    exec S s (labels ++ more) = exec S t more := by
  induction labels generalizing s with
  | nil =>
      rw [← Option.some.inj he]
      rfl
  | cons a rest ih =>
      obtain ⟨u, hu, hrest⟩ := Option.bind_eq_some_iff.mp he
      show (S.next s a).bind _ = _
      rw [hu]
      exact ih hrest

/-- One more step at the end of an evaluated run. -/
theorem exec_append_singleton {labels : List α} {u : σ} {a : α} (he : exec S s labels = some t)
    (hn : S.next t a = some u) : exec S s (labels ++ [a]) = some u := by
  rw [exec_append he]
  show (S.next t a).bind _ = some u
  rw [hn]
  rfl

/-- An evaluated run of admitted steps reaches its last state. -/
theorem reach_exec {P : σ → α → Prop} :
    ∀ (labels : List α), (∀ s, ∀ a ∈ labels, P s a) → ∀ {s t : σ}, Reach S P s →
      exec S s labels = some t → Reach S P t := by
  intro labels
  induction labels with
  | nil =>
      intro _ s t hs he
      rw [← Option.some.inj he]
      exact hs
  | cons a rest ih =>
      intro hP s t hs he
      obtain ⟨u, hu, hrest⟩ := Option.bind_eq_some_iff.mp he
      exact ih (fun s b hb => hP s b (List.mem_cons_of_mem _ hb))
        (Reach.next hs (hP s a (List.mem_cons_self ..)) hu) hrest

/-- The system from a state on. -/
def resume (S : System σ α) (s : σ) : System σ α := ⟨s, S.next⟩

theorem exec_resume (S : System σ α) (s : σ) :
    ∀ (labels : List α) (u : σ), exec (resume S s) u labels = exec S u labels := by
  intro labels
  induction labels with
  | nil => exact fun _ => rfl
  | cons a rest ih =>
      intro u
      show (S.next u a).bind _ = (S.next u a).bind _
      congr 1
      funext v
      exact ih v

/-- The system with a history beside its state, to which `record` adds what a
    step is remembered for. -/
def withHistory {η : Type w} (S : System σ α) (start : η) (record : σ → α → η → η) :
    System (σ × η) α where
  init := (S.init, start)
  next := fun s a => (S.next s.1 a).map (fun t => (t, record s.1 a s.2))

/-- A history does not get in the way: the states of the runs are the same. -/
theorem reach_withHistory_iff {η : Type w} {start : η} {record : σ → α → η → η} :
    (∃ h, Reach (withHistory S start record) anyStep (s, h)) ↔ Reach S anyStep s := by
  constructor
  · rintro ⟨h, hreach⟩
    refine hreach.invariant (I := fun u => Reach S anyStep u.1) .init ?_
    intro u a v hu _ hn
    obtain ⟨t, ht, rfl⟩ := Option.map_eq_some_iff.mp hn
    exact .next hu trivial ht
  · intro hreach
    induction hreach with
    | init => exact ⟨start, .init⟩
    | @next s t a _ _ hn ih =>
        obtain ⟨h, hs⟩ := ih
        refine ⟨record s a h, .next hs trivial (a := a) ?_⟩
        show (S.next s a).map _ = _
        rw [hn]
        rfl

/-- From `s` a run of steps with labels in `L` leads to `t`. -/
def Leads (S : System σ α) (L : α → Prop) (s t : σ) : Prop :=
  ∃ labels, (∀ a ∈ labels, L a) ∧ exec S s labels = some t

theorem Leads.refl (S : System σ α) (L : α → Prop) (s : σ) : Leads S L s s :=
  ⟨[], fun _ ha => (nomatch ha), rfl⟩

theorem Leads.trans {L : α → Prop} {u : σ} (hst : Leads S L s t) (htu : Leads S L t u) :
    Leads S L s u := by
  obtain ⟨first, hfirst, hs⟩ := hst
  obtain ⟨more, hmore, ht⟩ := htu
  refine ⟨first ++ more, ?_, ?_⟩
  · intro a ha
    rcases List.mem_append.mp ha with h | h
    · exact hfirst a h
    · exact hmore a h
  · rw [exec_append hs]
    exact ht

theorem Leads.single {L : α → Prop} {a : α} (ha : L a) (hn : S.next s a = some t) :
    Leads S L s t := by
  refine ⟨[a], ?_, ?_⟩
  · intro b hb
    rw [List.mem_singleton.mp hb]
    exact ha
  · show (S.next s a).bind _ = some t
    rw [hn]
    rfl

end Transition
