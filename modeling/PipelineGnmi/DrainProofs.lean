import PipelineGnmi.GoChanProofs
import PipelineGnmi.TransitionProofs

/-! # An inbox to be drained

    The data channel of a consumer together with what the consumer took from
    it.  At some point the consumer is asked to stop, the producers having
    stopped before: from then on nothing is added, and what was taken and what
    is queued at that point is kept, to be compared with what the consumer has
    done in the end (`Complete`).

    Whatever the consumer does afterwards, it can only move messages from the
    queue to what is taken (`Sound`), so it has done everything exactly when the
    queue and its hands are empty (`complete_iff`). -/

namespace Drain

open GoChan Transition

variable {σ α M : Type}

/-- The channel, what was taken from it, and what had been taken and what was
    queued when the consumer was asked to stop. -/
structure Inbox (M : Type) where
  dataChan : Chan M
  taken : List M
  atRequest : Option (List M × List M)

/-- An empty inbox of this capacity. -/
def make (cap : Nat) : Inbox M := ⟨Chan.make cap, [], none⟩

/-- A producer sends into the buffer; all of them stop before the request. -/
def produce (b : Inbox M) (msg : M) : Option (Inbox M) :=
  match b.atRequest, b.dataChan.send msg false with
  | none, .ok ch => some { b with dataChan := ch }
  | _, _ => none

/-- A producer hands a message to the consumer that waits for one, the channel
    having no buffer. -/
def handIn (b : Inbox M) (msg : M) : Option (Inbox M) :=
  match b.atRequest, b.dataChan.send msg true with
  | none, .ok ch =>
      if b.dataChan.cap = 0 then some { b with dataChan := ch, taken := b.taken ++ [msg] }
      else none
  | _, _ => none

/-- The consumer takes a message. -/
def take (b : Inbox M) : Option (M × Inbox M) :=
  match b.dataChan.recv with
  | none => none
  | some (msg, ch) => some (msg, { b with dataChan := ch, taken := b.taken ++ [msg] })

/-- The consumer is asked to stop. -/
def request (b : Inbox M) : Option (Inbox M) :=
  match b.atRequest with
  | none => some { b with atRequest := some (b.taken, b.dataChan.buf) }
  | some _ => none

/-- Everything that was taken before the request or queued then is done, once
    each. -/
def Complete (atRequest : Option (List M × List M)) (done : List M) : Prop :=
  ∃ before queued, atRequest = some (before, queued) ∧ done.Perm (before ++ queued)

/-- Since the request messages only move from the queue to what is taken. -/
def Sound (b : Inbox M) : Prop :=
  ∀ before queued, b.atRequest = some (before, queued) →
    b.taken ++ b.dataChan.buf = before ++ queued

theorem sound_make (cap : Nat) : Sound (make cap : Inbox M) :=
  fun _ _ h => absurd h (Option.some_ne_none _).symm

variable {msg : M} {b b' : Inbox M}

theorem produce_spec (h : produce b msg = some b') :
    b.atRequest = none ∧ b'.atRequest = none ∧ b'.taken = b.taken := by
  unfold produce at h
  split at h
  · next hnone _ =>
      cases h
      exact ⟨hnone, hnone, rfl⟩
  · cases h

theorem handIn_spec (h : handIn b msg = some b') :
    b.atRequest = none ∧ b'.atRequest = none ∧ b'.taken = b.taken ++ [msg] := by
  unfold handIn at h
  split at h
  · next hnone _ =>
      split at h
      · cases h
        exact ⟨hnone, hnone, rfl⟩
      · cases h
  · cases h

theorem take_spec (h : take b = some (msg, b')) :
    b'.atRequest = b.atRequest ∧ b'.taken = b.taken ++ [msg] ∧
      b.dataChan.buf = msg :: b'.dataChan.buf := by
  unfold take at h
  split at h
  · cases h
  · next hrecv =>
      cases h
      exact ⟨rfl, rfl, (Chan.recv_spec hrecv).2.2⟩

theorem request_spec (h : request b = some b') :
    b' = { b with atRequest := some (b.taken, b.dataChan.buf) } := by
  unfold request at h
  split at h
  · cases h
    rfl
  · cases h

theorem request_none (h : request b = some b') : b.atRequest = none := by
  unfold request at h
  split at h
  · next hnone => exact hnone
  · cases h

/-- Nothing that is produced is produced after the request. -/
theorem sound_of_none (h : b.atRequest = none) : Sound b := by
  intro before queued hreq
  rw [h] at hreq
  cases hreq

theorem Sound.take (hb : Sound b) (h : take b = some (msg, b')) : Sound b' := by
  obtain ⟨hreq, htaken, hbuf⟩ := take_spec h
  intro before queued hreq'
  rw [hreq] at hreq'
  rw [htaken, List.append_assoc, ← hb before queued hreq', hbuf]
  rfl

theorem sound_request (h : request b = some b') : Sound b' := by
  rw [request_spec h]
  intro before queued hreq
  cases hreq
  rfl

/-- A step of the inputs or of the conductor: it comes before the request, and
    takes nothing. -/
structure Filled (b b' : Inbox M) : Prop where
  before : b.atRequest = none
  sound : Sound b'
  taken : b'.taken = b.taken

theorem filled_produce (h : produce b msg = some b') : Filled b b' := by
  obtain ⟨hnone, hnone', htaken⟩ := produce_spec h
  exact ⟨hnone, sound_of_none hnone', htaken⟩

theorem filled_request (h : request b = some b') : Filled b b' :=
  ⟨request_none h, sound_request h, by rw [request_spec h]⟩

/-- **DONE WHEN EMPTY**: with the messages in hand the only ones taken and not
    done, everything is done exactly when the hands and the queue are empty. -/
theorem complete_iff (hb : Sound b) {done inHand : List M} (htaken : b.taken = done ++ inHand)
    (hreq : b.atRequest ≠ none) :
    Complete b.atRequest done ↔ inHand = [] ∧ b.dataChan.buf = [] := by
  obtain ⟨⟨before, queued⟩, hsome⟩ := Option.ne_none_iff_exists'.mp hreq
  have hall := hb before queued hsome
  rw [htaken] at hall
  constructor
  · rintro ⟨before', queued', hsome', hperm⟩
    rw [hsome] at hsome'
    cases hsome'
    -- nothing is missing, so by length nothing is left over
    have hlen := hperm.length_eq
    rw [← hall, List.length_append, List.length_append] at hlen
    exact ⟨List.length_eq_zero_iff.mp (by omega), List.length_eq_zero_iff.mp (by omega)⟩
  · rintro ⟨rfl, hbuf⟩
    rw [hbuf, List.append_nil, List.append_nil] at hall
    exact ⟨before, queued, hsome, by rw [hall]⟩

/-! ## Messages spread over a list -/

/-- Exchanging one element of a list exchanges its messages. -/
theorem coe_flatMap_set {β : Type} (f : β → List M) :
    ∀ {l : List β} {c : Nat} {x : β} (y : β), l[c]? = some x →
      (((l.set c y).flatMap f : List M) : Multiset M) + (f x : Multiset M)
        = ((l.flatMap f : List M) : Multiset M) + (f y : Multiset M) := by
  intro l
  induction l with
  | nil =>
      intro c x y h
      cases h
  | cons z rest ih =>
      intro c x y h
      cases c with
      | zero =>
          cases h
          show ((f y ++ rest.flatMap f : List M) : Multiset M) + _
            = ((f z ++ rest.flatMap f : List M) : Multiset M) + _
          rw [← Multiset.coe_add, ← Multiset.coe_add]
          abel
      | succ c =>
          have hrest := ih y (show rest[c]? = some x from h)
          show ((f z ++ (rest.set c y).flatMap f : List M) : Multiset M) + _
            = ((f z ++ rest.flatMap f : List M) : Multiset M) + _
          rw [← Multiset.coe_add, ← Multiset.coe_add, add_assoc, add_assoc, hrest]

/-! ## Systems that drain -/

/-- Once the system has answered, it has done everything, along runs all of whose
    steps satisfy `P`. -/
def Drains (S : System σ α) (P : σ → α → Prop) (acked complete : σ → Prop) : Prop :=
  ∀ s, Reach S P s → acked s → complete s

/-- A run from here answers with something left. -/
def Loses (S : System σ α) (acked complete : σ → Prop) (s : σ) : Prop :=
  ∃ t, Reach (resume S s) anyStep t ∧ acked t ∧ ¬ complete t

/-- **DRAIN RULE**.  The consumer leaves by a step of `A`, with the queue as it
    is, and answers some time after that; once it has left, it has done
    everything exactly if its queue is empty.  It then drains in the runs in
    which it leaves an empty queue, and loses something in all others. -/
theorem drains_iff_empty {S : System σ α} {P : σ → α → Prop} {acked complete : σ → Prop}
    {I L E : σ → Prop} {A : α → Prop} (hP : ∀ s a, P s a ↔ (A a → E s))
    (hinit : I S.init) (hno : ¬ L S.init) (hstep : ∀ s a t, I s → S.next s a = some t → I t)
    (hlast : ∀ s a t, I s → S.next s a = some t → L t → (L s ∨ A a) ∧ (E t ↔ E s))
    (hleft : ∀ s, I s → acked s → L s) (hiff : ∀ s, I s → L s → (complete s ↔ E s))
    (hanswer : ∀ s a t, I s → A a → S.next s a = some t →
      ∃ u, Reach (resume S t) anyStep u ∧ acked u ∧ (E u ↔ E s)) :
    Drains S P acked complete ∧
      ∀ s a t, Reach S anyStep s → ¬ P s a → S.next s a = some t →
        Loses S acked complete t := by
  refine ⟨fun s hreach hacked => ?_, fun s a t hreach hp hn => ?_⟩
  · have hall : I s ∧ (L s → E s) := by
      refine hreach.invariant (I := fun s => I s ∧ (L s → E s))
        ⟨hinit, fun h => absurd h hno⟩ ?_
      rintro u a v ⟨hu, hempty⟩ hp hn
      refine ⟨hstep u a v hu hn, fun hv => ?_⟩
      obtain ⟨hwas | ha, hsame⟩ := hlast u a v hu hn hv
      · exact hsame.mpr (hempty hwas)
      · exact hsame.mpr ((hP u a).mp hp ha)
    have hl := hleft s hall.1 hacked
    exact (hiff s hall.1 hl).mpr (hall.2 hl)
  · have hs : I s := hreach.invariant hinit (fun u b v hu _ hnext => hstep u b v hu hnext)
    rw [hP] at hp
    obtain ⟨ha, hfull⟩ := Classical.not_imp.mp hp
    obtain ⟨u, hrun, hacked, hsame⟩ := hanswer s a t hs ha hn
    have hu : I u := hrun.invariant (S := resume S t) (hstep s a t hs hn)
      (fun v b w hv _ hnext => hstep v b w hv hnext)
    refine ⟨u, hrun, hacked, fun hcomplete => hfull ?_⟩
    exact hsame.mp ((hiff u hu (hleft u hu hacked)).mp hcomplete)

end Drain
