import PipelineGnmi.SweepProofs
import PipelineGnmi.TransitionProofs

/-! # Quiescence — nothing is sent any more

    A component is quiescent after an event when no run from there on adds a
    message to any of its channels.  What was sent is read off the logs of the
    channels, so receives downstream do not count, and neither does what is
    still buffered.

    `quiescent_of_silent` is the proof rule: an invariant under which a step
    after the event sends nothing.  `stirs_of_held` is the way to refute it: a
    goroutine that holds a message for an open channel gets it through. -/

namespace Quiescence

open GoChan Sweep Transition

variable {σ α M : Type}

/-- What was sent on each of the channels, and whether it was closed. -/
def sent (chans : List (Chan M)) : List (List (Option M)) := chans.map Chan.log

/-- Once `acked` holds nothing is sent, along runs all of whose steps satisfy
    `P`. -/
def Quiescent (S : System σ α) (P : σ → α → Prop) (acked : σ → Prop)
    (chans : σ → List (Chan M)) : Prop :=
  ∀ s, Reach S P s → acked s → ∀ t, Reach (resume S s) P t →
    sent (chans t) = sent (chans s)

/-- A run from here sends something. -/
def Stirs (S : System σ α) (chans : σ → List (Chan M)) (s : σ) : Prop :=
  ∃ t, Reach (resume S s) anyStep t ∧ sent (chans t) ≠ sent (chans s)

variable {S : System σ α} {chans : σ → List (Chan M)} {s : σ} {i : Nat}

variable {acked : σ → Prop} {P : σ → α → Prop} {t : σ} {m : M} {ch ch' : Chan M}

/-- **QUIESCENCE RULE**: an invariant of the admitted runs under which a step
    after the event keeps the event and sends nothing. -/
theorem quiescent_of_silent {I : σ → Prop} (hinit : I S.init)
    (hstep : ∀ s a t, I s → P s a → S.next s a = some t → I t)
    (hsilent : ∀ s a t, I s → acked s → P s a → S.next s a = some t →
      acked t ∧ sent (chans t) = sent (chans s)) :
    Quiescent S P acked chans := by
  intro s hreach hacked t hrun
  have hs : I s := hreach.invariant hinit hstep
  have hall : I t ∧ acked t ∧ sent (chans t) = sent (chans s) := by
    refine hrun.invariant (I := fun u => I u ∧ acked u ∧ sent (chans u) = sent (chans s))
      ⟨hs, hacked, rfl⟩ ?_
    rintro u a v ⟨hu, hacku, hsame⟩ hP hn
    obtain ⟨hackv, heq⟩ := hsilent u a v hu hacku hP hn
    exact ⟨hstep u a v hu hP hn, hackv, heq.trans hsame⟩
  exact hall.2.2

/-- A run of a quiescent system sends nothing once `acked` holds. -/
theorem Quiescent.exec (h : Quiescent S P acked chans) (hs : Reach S P s) (hacked : acked s)
    (labels : List α) (hP : ∀ u, ∀ a ∈ labels, P u a) (he : Transition.exec S s labels = some t) :
    sent (chans t) = sent (chans s) := by
  refine h s hs hacked t (reach_exec labels hP .init ?_)
  rw [exec_resume]
  exact he

/-- A receive is not a send. -/
theorem sent_recv {chans : List (Chan M)} (hch : chans[i]? = some ch)
    (hrecv : ch.recv = some (m, ch')) : sent (chans.set i ch') = sent chans :=
  map_set_of_eq hch (Chan.recv_spec hrecv).1

/-- A send is one. -/
theorem sent_send_ne {chans : List (Chan M)} {msg : M} {receiver : Bool} (hch : chans[i]? = some ch)
    (hs : ch.send msg receiver = .ok ch') : sent (chans.set i ch') ≠ sent chans := by
  intro heq
  have hlen : i < chans.length := (List.getElem?_eq_some_iff.mp hch).1
  have hi := congrArg (fun logs => logs[i]?) heq
  simp only [sent, List.getElem?_map, List.getElem?_set_self hlen, hch, Option.map_some,
    Option.some.injEq, Chan.send_log hs] at hi
  exact absurd (congrArg List.length hi) (by rw [List.length_append]; simp)

/-- A step that sends nothing may come first. -/
theorem Stirs.of_step {a : α} (hn : S.next s a = some t) (hsame : sent (chans t) = sent (chans s))
    (h : Stirs S chans t) : Stirs S chans s := by
  obtain ⟨u, hu, hne⟩ := h
  refine ⟨u, ?_, hsame ▸ hne⟩
  have hfirst : Reach (resume S s) anyStep t := Reach.next .init trivial hn
  refine hu.invariant (I := fun v => Reach (resume S s) anyStep v) hfirst ?_
  intro v b w hv _ hvw
  exact .next hv trivial hvw

/-- **WHAT IS HELD GETS OUT**: a message held for an open channel, through
    receives downstream, until it is sent. -/
theorem stirs_of_held {H : σ → Prop} (hopen : ∀ s, H s → AllOpen (chans s) ∧ i < (chans s).length)
    (hdrain : ∀ s ch x ch', H s → (chans s)[i]? = some ch → ch.recv = some (x, ch') →
      ∃ a t, S.next s a = some t ∧ chans t = (chans s).set i ch' ∧ H t)
    (hsend : ∀ s ch ch', H s → (chans s)[i]? = some ch → ch.send m true = .ok ch' →
      ∃ a t, S.next s a = some t ∧ chans t = (chans s).set i ch') (h : H s) : Stirs S chans s := by
  obtain ⟨hall, hi⟩ := hopen s h
  obtain ⟨ch, hch⟩ : ∃ ch, (chans s)[i]? = some ch := ⟨_, List.getElem?_eq_getElem hi⟩
  obtain ⟨⟨msgs, hcarries⟩, hle⟩ := hall i ch hch
  rcases hcarries.send_soon hle m with ⟨ch', hs⟩ | ⟨x, ch₁, ch', hr, hs⟩
  · obtain ⟨a, t, hn, hc⟩ := hsend s ch ch' h hch hs
    refine ⟨t, Reach.next .init trivial hn, ?_⟩
    rw [hc]
    exact sent_send_ne hch hs
  · obtain ⟨a, s₁, hn, hc, h₁⟩ := hdrain s ch x ch₁ h hch hr
    have hch₁ : (chans s₁)[i]? = some ch₁ := by
      rw [hc, List.getElem?_set_self hi]
    obtain ⟨b, t, hn', hc'⟩ := hsend s₁ ch₁ ch' h₁ hch₁ hs
    refine ⟨t, Reach.next (Reach.next .init trivial hn) trivial hn', ?_⟩
    rw [hc']
    intro heq
    refine sent_send_ne hch₁ hs ?_
    rw [heq, hc, sent_recv hch hr]

/-- **WHAT IS IN HAND GETS OUT**: a goroutine at a place of its nest of sends, if
    receives downstream leave it there and it can send what a channel takes. -/
theorem stirs_of_placed {U : σ → Prop} {H : σ → Option (List M × Nat)}
    (hdrain : ∀ s i ch x ch', U s → (chans s)[i]? = some ch → ch.recv = some (x, ch') →
      ∃ a t, S.next s a = some t ∧ chans t = (chans s).set i ch' ∧ U t ∧ H t = H s)
    (hsend : ∀ s msg rest i ch ch', U s → H s = some (msg :: rest, i) →
      (chans s)[i]? = some ch → ch.send msg true = .ok ch' →
      ∃ a t, S.next s a = some t ∧ chans t = (chans s).set i ch') (hup : U s)
    (hopen : AllOpen (chans s)) (hplaced : Placed (chans s).length (H s)) (hhand : H s ≠ none) :
    Stirs S chans s := by
  obtain ⟨msg, rest, i, heq, hi⟩ := hplaced.in_hand hhand
  refine stirs_of_held (m := msg) (i := i)
    (H := fun u => U u ∧ AllOpen (chans u) ∧ i < (chans u).length ∧
      H u = some (msg :: rest, i)) ?_ ?_ ?_ ⟨hup, hopen, hi, heq⟩
  · exact fun u hu => ⟨hu.2.1, hu.2.2.1⟩
  · rintro u ch x ch' ⟨hu, huopen, hui, huhand⟩ hch hrecv
    obtain ⟨a, t, hn, hchans, ht, hsame⟩ := hdrain u i ch x ch' hu hch hrecv
    refine ⟨a, t, hn, hchans, ht, ?_, ?_, hsame.trans huhand⟩
    · rw [hchans]
      exact huopen.recv hch hrecv
    · rw [hchans, List.length_set]
      exact hui
  · rintro u ch ch' ⟨hu, -, -, huhand⟩ hch hs
    exact hsend u msg rest i ch ch' hu huhand hch hs

end Quiescence
