import PipelineGnmi.QuiescenceProofs

/-! # Components of a larger system

    A system put together from components takes the steps of its components one
    at a time.  `Shows C S view` says that `view` is such a component: a step of
    the whole leaves it alone or is one of its own steps.

    What is known of every run of a component then holds of it inside the whole
    (`Shows.reach`), and what a component leaves alone after some event on its
    own it leaves alone there (`Shows.still`). -/

namespace Projection

open GoChan Transition Quiescence

variable {σ τ α β γ M : Type}

/-- Once `acked` holds, what `obs` sees does not change any more. -/
def Still (S : System σ α) (acked : σ → Prop) (obs : σ → γ) : Prop :=
  ∀ s, Reach S anyStep s → acked s → ∀ t, Reach (resume S s) anyStep t → obs t = obs s

variable {S : System σ α} {acked : σ → Prop} {L : α → Prop} {s : τ} {C : System τ β}

/-- What a step after `acked` keeps. -/
theorem still_of_silent {obs : σ → γ}
    (h : ∀ s a t, Reach S anyStep s → acked s → S.next s a = some t →
      acked t ∧ obs t = obs s) : Still S acked obs := by
  intro s hs hacked t ht
  have hall : Reach S anyStep t ∧ acked t ∧ obs t = obs s := by
    refine ht.invariant (I := fun u => Reach S anyStep u ∧ acked u ∧ obs u = obs s)
      ⟨hs, hacked, rfl⟩ ?_
    rintro u a v ⟨hu, hau, hsame⟩ _ hn
    obtain ⟨hav, heq⟩ := h u a v hu hau hn
    exact ⟨.next hu trivial hn, hav, heq.trans hsame⟩
  exact hall.2.2

/-- A system that takes no step once `acked` holds leaves everything alone. -/
theorem still_of_halted (obs : σ → γ) (h : ∀ s a, acked s → S.next s a = none) :
    Still S acked obs := by
  intro s _ hacked t ht
  have hsame : t = s := by
    refine ht.invariant (I := fun u => u = s) rfl ?_
    intro u a v hu _ hn
    have hnone : S.next u a = none := h u a (hu ▸ hacked)
    exact absurd (hnone.symm.trans hn) (Option.some_ne_none v).symm
  rw [hsame]

/-- A state a run leads to is reached from where the run starts. -/
theorem reach_of_leads {s t : σ} (h : Leads S L s t) : Reach (resume S s) anyStep t := by
  obtain ⟨labels, -, he⟩ := h
  refine reach_exec labels (fun _ _ _ => trivial) .init ?_
  rw [exec_resume]
  exact he

/-- One more step at the end of a run. -/
theorem leads_step {s t u : σ} {a : α} (h : Leads S L s t) (ha : L a) (hn : S.next t a = some u) :
    Leads S L s u :=
  h.trans (Leads.single ha hn)

/-- Every step of `C` is a step of `S`, or none, to who looks through `view`. -/
structure Shows (C : System τ β) (S : System σ α) (view : τ → σ) : Prop where
  init : view C.init = S.init
  step : ∀ {s t : τ} {l : β}, C.next s l = some t →
    view t = view s ∨ ∃ a, S.next (view s) a = some (view t)

/-- A component is somewhere it can get to on its own. -/
theorem Shows.reach {view : τ → σ} (h : Shows C S view) {P : τ → β → Prop} (hs : Reach C P s) :
    Reach S anyStep (view s) := by
  refine hs.invariant (I := fun u => Reach S anyStep (view u)) ?_ ?_
  · rw [h.init]
    exact .init
  · intro u l v hu _ hn
    rcases h.step hn with heq | ⟨a, ha⟩
    · rw [heq]
      exact hu
    · exact .next hu trivial ha

/-- The same from any state on. -/
theorem Shows.resume {C : System τ β} {S : System σ α} {view : τ → σ} (h : Shows C S view)
    (s : τ) : Shows (resume C s) (resume S (view s)) view :=
  ⟨rfl, fun hn => h.step hn⟩

/-- **WHAT A COMPONENT LEAVES ALONE ON ITS OWN** it leaves alone in whatever it
    is put together with. -/
theorem Shows.still {view : τ → σ} (h : Shows C S view) {obs : σ → γ} (hstill : Still S acked obs)
    {t : τ} (hs : Reach C anyStep s) (hacked : acked (view s))
    (ht : Reach (Transition.resume C s) anyStep t) : obs (view t) = obs (view s) :=
  hstill (view s) (h.reach hs) hacked (view t) ((h.resume s).reach ht)

/-- **WHAT A COMPONENT CAN DO** the whole can, where it can follow each of the steps
    the component takes. -/
theorem leads_lift (view : τ → σ) {J : τ → Prop} {K : β → Prop}
    (hlift : ∀ s a b, J s → L a → S.next (view s) a = some b →
      ∃ l t, K l ∧ C.next s l = some t ∧ view t = b ∧ J t) {b : σ} (hs : J s)
    (h : Leads S L (view s) b) :
    ∃ t, Leads C K s t ∧ view t = b ∧ J t := by
  obtain ⟨labels, hlabels, he⟩ := h
  induction labels generalizing s with
  | nil => exact ⟨s, Leads.refl _ _ _, Option.some.inj he, hs⟩
  | cons a rest ih =>
      obtain ⟨u, hu, hrest⟩ := Option.bind_eq_some_iff.mp he
      obtain ⟨l, v, hl, hv, rfl, hJ⟩ := hlift s a u hs (hlabels a (List.mem_cons_self ..)) hu
      obtain ⟨t, ht, hview, hJt⟩ := ih hJ (fun x hx => hlabels x (List.mem_cons_of_mem _ hx)) hrest
      exact ⟨t, (Leads.single hl hv).trans ht, hview, hJt⟩

end Projection
