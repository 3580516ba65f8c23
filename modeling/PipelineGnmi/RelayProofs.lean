import PipelineGnmi.SweepProofs

/-! # Goroutines that relay streams to the same channels

    A relay receives replies from a stream, makes messages of each, and sends
    every message to every channel before it receives again.  It ends when a
    reply tells it to, when the stream fails, or when its context is cancelled
    while it is held up by a channel.  Some relays also look at the context after
    each receive, and then drain the stream.

    Any number of relays share the channels.  A relay keeps the replies it has
    looked at and what it has sent on each channel.  `Agrees` ties the two
    together by where the relay is: what it has sent and what it has in hand is
    what its replies are worth, on every channel.  `Accounts` says that what went
    through a channel is an interleaving of what the relays have sent on it. -/

namespace Relay

open GoChan Sweep

variable {R M : Type}

/-! ## Interleavings -/

/-- The sequence is an interleaving of these: its entries can be told apart by who
    sent them, so that each of the senders finds its own in order. -/
def Interleaves (log : List M) (outs : List (List M)) : Prop :=
  ∃ tags : List (Nat × M), log = tags.map Prod.snd ∧ (∀ t ∈ tags, t.1 < outs.length) ∧
    ∀ k out, outs[k]? = some out → (tags.filter (fun t => t.1 == k)).map Prod.snd = out

theorem interleaves_nil : Interleaves ([] : List M) [] :=
  ⟨[], rfl, fun _ h => absurd h List.not_mem_nil, fun _ _ h => by cases h⟩

variable {log msgs rest : List M} {outs : List (List M)} {cancelled' : Bool} {msg : M}
  {p : Option (List M × Nat)} {ch ch' : Chan M}

/-- One more sender, that has sent nothing. -/
theorem Interleaves.join (h : Interleaves log outs) : Interleaves log (outs ++ [[]]) := by
  obtain ⟨tags, hlog, hlt, hout⟩ := h
  refine ⟨tags, hlog, fun t ht => ?_, fun k out hk => ?_⟩
  · rw [List.length_append]
    exact Nat.lt_add_right _ (hlt t ht)
  · by_cases hlast : k < outs.length
    · rw [List.getElem?_append_left hlast] at hk
      exact hout k out hk
    · -- nothing is tagged with the new one
      rw [List.getElem?_append_right (Nat.le_of_not_lt hlast)] at hk
      have hnil : out = [] := List.mem_singleton.mp (List.mem_of_getElem? hk)
      have hnone : tags.filter (fun t => t.1 == k) = [] := by
        rw [List.filter_eq_nil_iff]
        intro t ht heq
        have := hlt t ht
        rw [beq_iff_eq.mp heq] at this
        exact hlast this
      rw [hnone, hnil]
      rfl

variable {k n i : Nat} {cancelled : Bool} {chans chans' : List (Chan M)} {replies : List R}
variable {out : List (List M)}

/-- One of the senders sends. -/
theorem Interleaves.send (h : Interleaves log outs) {out : List M} (hk : outs[k]? = some out)
    (m : M) : Interleaves (log ++ [m]) (outs.set k (out ++ [m])) := by
  obtain ⟨tags, hlog, hlt, hout⟩ := h
  have hlen : k < outs.length := (List.getElem?_eq_some_iff.mp hk).1
  refine ⟨tags ++ [(k, m)], by rw [hlog, List.map_append]; rfl, fun t ht => ?_, fun j o hj => ?_⟩
  · rw [List.length_set]
    rcases List.mem_append.mp ht with ht | ht
    · exact hlt t ht
    · rw [List.mem_singleton.mp ht]
      exact hlen
  · rw [List.filter_append, List.map_append]
    rcases getElem?_set_cases hj with ⟨rfl, rfl⟩ | ⟨hne, hj⟩
    · rw [hout j out hk]
      simp
    · rw [hout j o hj]
      simp [Ne.symm hne]

/-! ## The relays -/

/-- Where a relay is; `pushing` has the messages still to send, the first of them
    next to the channel of this index. -/
inductive Pc (M : Type) where
  | receiving
  | draining
  | pushing (msgs : List M) (i : Nat)
  | returned

def Pc.running : Pc M → Bool
  | .returned => false
  | _ => true

/-- A relay with its books. -/
structure Stream (R M : Type) where
  pc : Pc M
  replies : List R
  out : List (List M)

/-- The events of a relay, the arms of its selects among them. -/
inductive Event (R : Type) where
  | reply (r : R)
  | fail
  | drained
  | push (receiver : Bool)
  | cancel

/-- How a relay goes about its stream: what a reply comes to, none being the end,
    and whether it looks at the context after each receive. -/
structure Manner (R M : Type) where
  handle : R → Option (List M)
  looks : Bool

/-- A relay of this many channels before its first reply. -/
def Stream.start (n : Nat) : Stream R M := ⟨.receiving, [], List.replicate n []⟩

/-- The place in the loops over messages and channels, or back to receiving. -/
def Pc.ofPlace : Option (List M × Nat) → Pc M
  | none => .receiving
  | some (msgs, i) => .pushing msgs i

/-- One step of a relay, given whether its context is cancelled. -/
def step (man : Manner R M) (cancelled : Bool) (chans : List (Chan M)) (st : Stream R M)
    (ev : Event R) : Outcome (Stream R M × List (Chan M)) :=
  match ev, st.pc with
  | .reply r, .receiving =>
      if man.looks && cancelled then .ok ({ st with pc := .draining }, chans)
      else
        match man.handle r with
        | none => .ok ({ st with pc := .returned, replies := st.replies ++ [r] }, chans)
        | some msgs => .ok ({ st with
            pc := .ofPlace (place chans.length msgs 0), replies := st.replies ++ [r] }, chans)
  | .fail, .receiving =>
      if man.looks && cancelled then .ok ({ st with pc := .draining }, chans)
      else .ok ({ st with pc := .returned }, chans)
  | .drained, .draining => .ok ({ st with pc := .returned }, chans)
  | .push receiver, .pushing (msg :: rest) i =>
      match chans[i]? with
      | none => .blocked
      | some ch =>
          match ch.send msg receiver with
          | .ok ch' => .ok ({ st with
              pc := .ofPlace (place chans.length (msg :: rest) (i + 1))
              out := st.out.modify i (· ++ [msg]) }, chans.set i ch')
          | .blocked => .blocked
          | .panic => .panic
  | .cancel, .pushing _ _ =>
      if cancelled then .ok ({ st with pc := .returned }, chans) else .blocked
  | _, _ => .blocked

variable {ev : Event R} {man : Manner R M} {st st' : Stream R M} {streams : List (Stream R M)}

/-- A relay that does not look at the context takes the same steps once it is
    cancelled. -/
theorem step_cancel (hlooks : man.looks = false) (hmono : cancelled = true → cancelled' = true)
    {r : Stream R M × List (Chan M)} (h : step man cancelled chans st ev = .ok r) :
    step man cancelled' chans st ev = .ok r := by
  unfold step at h ⊢
  rw [hlooks] at h ⊢
  split at h
  · exact h
  · exact h
  · exact h
  · exact h
  · split at h
    · next hc =>
        rw [hmono hc]
        exact h
    · cases h
  · cases h

/-! ## What a relay is worth -/

/-- The messages of a stream of replies, up to the first that ends it. -/
def worth (man : Manner R M) : List R → List M
  | [] => []
  | r :: rest =>
      match man.handle r with
      | none => []
      | some msgs => msgs ++ worth man rest

/-- None of the replies ends the stream. -/
def Live (man : Manner R M) (replies : List R) : Prop := ∀ r ∈ replies, man.handle r ≠ none

theorem Live.snoc (h : Live man replies) {r : R} (hr : man.handle r = some msgs) :
    Live man (replies ++ [r]) := by
  intro x hx
  rcases List.mem_append.mp hx with hx | hx
  · exact h x hx
  · rw [List.mem_singleton.mp hx, hr]
    exact Option.some_ne_none msgs

/-- One more reply is worth its messages more. -/
theorem worth_snoc (h : Live man replies) (r : R) :
    worth man (replies ++ [r]) = worth man replies ++ (man.handle r).getD [] := by
  induction replies with
  | nil =>
      rw [List.nil_append, worth, worth, worth, List.nil_append]
      cases man.handle r with
      | none => rfl
      | some msgs => exact List.append_nil msgs
  | cons x rest ih =>
      obtain ⟨hx, hrest⟩ := List.forall_mem_cons.mp h
      obtain ⟨msgs, hmsgs⟩ := Option.ne_none_iff_exists'.mp hx
      rw [List.cons_append, worth, worth, hmsgs]
      simp only
      rw [ih hrest, List.append_assoc]

/-- What the books of a relay over `n` channels say, by where it is. -/
def Agrees (man : Manner R M) (n : Nat) (cancelled : Bool) (st : Stream R M) : Prop :=
  match st.pc with
  | .receiving => Live man st.replies ∧ Owes n st.out none (worth man st.replies)
  | .draining => cancelled = true ∧ Owes n st.out none (worth man st.replies)
  | .pushing msgs i => Live man st.replies ∧ i < n ∧ (∃ msg rest, msgs = msg :: rest) ∧
      Owes n st.out (some (msgs, i)) (worth man st.replies)
  | .returned => ∃ p, Owes n st.out p (worth man st.replies) ∧ (cancelled = false → p = none)

theorem agrees_start (man : Manner R M) (n : Nat) (cancelled : Bool) :
    Agrees man n cancelled (Stream.start n) :=
  ⟨fun _ h => absurd h List.not_mem_nil, owes_paid n []⟩

/-- A relay that goes on with what it has in hand. -/
theorem agrees_ofPlace (cancelled : Bool) (hlive : Live man replies)
    (h : Owes n out (place n msgs i) (worth man replies)) :
    Agrees man n cancelled ⟨.ofPlace (place n msgs i), replies, out⟩ := by
  cases hp : place n msgs i with
  | none =>
      rw [hp] at h
      exact ⟨hlive, h⟩
  | some p =>
      obtain ⟨msgs', i'⟩ := p
      rw [hp] at h
      obtain ⟨hi, hcons⟩ := place_some hp
      exact ⟨hlive, hi, hcons, h⟩

/-- What a step of a sender leaves: channels that are all there, with one message
    more on one of them, which is on its books, or as they were. -/
inductive Effect (out out' : List (List M)) (chans chans' : List (Chan M)) : Prop where
  | quiet (hout : out' = out) (hchans : chans' = chans)
  | sent {i : Nat} {msg : M} {receiver : Bool} {ch ch' : Chan M} (hi : i < out.length)
      (hch : chans[i]? = some ch) (hsend : ch.send msg receiver = .ok ch')
      (hout : out' = out.modify i (· ++ [msg])) (hchans : chans' = chans.set i ch')

theorem Effect.length {out' : List (List M)} (h : Effect out out' chans chans') :
    out'.length = out.length ∧ chans'.length = chans.length := by
  cases h with
  | quiet hout hchans => exact ⟨congrArg _ hout, congrArg _ hchans⟩
  | sent _ _ _ hout hchans =>
      rw [hout, hchans]
      exact ⟨List.length_modify .., List.length_set⟩

/-- **ONE STEP OF A RELAY** keeps its books, and puts on the channels what it puts
    on the books. -/
theorem Agrees.step (h : Agrees man chans.length cancelled st)
    (hs : step man cancelled chans st ev = .ok (st', chans')) :
    Agrees man chans.length cancelled st' ∧ Effect st.out st'.out chans chans' := by
  unfold Relay.step at hs
  split at hs
  · next r hpc =>
      rw [Agrees, hpc] at h
      obtain ⟨hlive, howes⟩ := h
      split at hs
      · next hlook =>
          cases hs
          exact ⟨⟨(Bool.and_eq_true_iff.mp hlook).2, howes⟩, .quiet rfl rfl⟩
      · have hworth := worth_snoc hlive r
        split at hs
        · next hr =>
            cases hs
            rw [hr, Option.getD_none, List.append_nil] at hworth
            refine ⟨⟨none, ?_, fun _ => rfl⟩, .quiet rfl rfl⟩
            show Owes _ st.out none (worth man (st.replies ++ [r]))
            rw [hworth]
            exact howes
        · next msgs hr =>
            cases hs
            rw [hr, Option.getD_some] at hworth
            refine ⟨agrees_ofPlace cancelled (hlive.snoc hr) ?_, .quiet rfl rfl⟩
            rw [hworth]
            exact howes.more msgs
  · next hpc =>
      rw [Agrees, hpc] at h
      split at hs
      · next hlook =>
          cases hs
          exact ⟨⟨(Bool.and_eq_true_iff.mp hlook).2, h.2⟩, .quiet rfl rfl⟩
      · cases hs
        exact ⟨⟨none, h.2, fun _ => rfl⟩, .quiet rfl rfl⟩
  · next hpc =>
      rw [Agrees, hpc] at h
      cases hs
      exact ⟨⟨none, h.2, fun _ => rfl⟩, .quiet rfl rfl⟩
  · next receiver msg rest i hpc =>
      rw [Agrees, hpc] at h
      obtain ⟨hlive, hi, -, howes⟩ := h
      split at hs
      · cases hs
      · next ch hch =>
          split at hs
          · next ch' hsend =>
              cases hs
              refine ⟨agrees_ofPlace cancelled hlive (howes.send hi), ?_⟩
              exact .sent (howes.length ▸ hi) hch hsend rfl rfl
          · cases hs
          · cases hs
  · next hpc =>
      rw [Agrees, hpc] at h
      split at hs
      · next hcancel =>
          cases hs
          refine ⟨⟨_, h.2.2.2, fun hno => ?_⟩, .quiet rfl rfl⟩
          rw [hcancel] at hno
          cases hno
      · cases hs
  · cases hs

/-- A context that is cancelled later explains as much. -/
theorem Agrees.cancel (h : Agrees man n cancelled st)
    (hmono : cancelled = true → cancelled' = true) : Agrees man n cancelled' st := by
  unfold Agrees at h ⊢
  cases hpc : st.pc with
  | receiving =>
      rw [hpc] at h
      exact h
  | draining =>
      rw [hpc] at h
      exact ⟨hmono h.1, h.2⟩
  | pushing msgs i =>
      rw [hpc] at h
      exact h
  | returned =>
      rw [hpc] at h
      obtain ⟨p, howes, hnone⟩ := h
      refine ⟨p, howes, fun hno => hnone ?_⟩
      cases hc : cancelled with
      | false => rfl
      | true =>
          rw [hmono hc] at hno
          cases hno

/-- What the books of a relay come to: on every channel a beginning of what its
    replies are worth, in order, no channel more than a message ahead of the next; and
    all of it whenever the relay has nothing in hand and was not cancelled. -/
structure Delivered (man : Manner R M) (n : Nat) (cancelled : Bool) (st : Stream R M) : Prop where
  length : st.out.length = n
  begins : ∀ o ∈ st.out, o <+: worth man st.replies
  abreast : ∀ (j k : Nat) oj ok, j ≤ k → st.out[j]? = some oj → st.out[k]? = some ok →
    ok <+: oj ∧ oj.length ≤ ok.length + 1
  whole : cancelled = false → (∀ msgs i, st.pc ≠ .pushing msgs i) →
    ∀ o ∈ st.out, o = worth man st.replies

theorem Agrees.delivered (h : Agrees man n cancelled st) : Delivered man n cancelled st := by
  obtain ⟨p, howes, hnone⟩ : ∃ p, Owes n st.out p (worth man st.replies) ∧
      (cancelled = false → (∀ msgs i, st.pc ≠ .pushing msgs i) → p = none) := by
    unfold Agrees at h
    cases hpc : st.pc with
    | receiving =>
        rw [hpc] at h
        exact ⟨none, h.2, fun _ _ => rfl⟩
    | draining =>
        rw [hpc] at h
        exact ⟨none, h.2, fun _ _ => rfl⟩
    | pushing msgs i =>
        rw [hpc] at h
        exact ⟨_, h.2.2.2, fun _ hnot => absurd rfl (hnot msgs i)⟩
    | returned =>
        rw [hpc] at h
        obtain ⟨p, howes, hnone⟩ := h
        exact ⟨p, howes, fun hno _ => hnone hno⟩
  refine ⟨howes.length, fun o ho => howes.begins ho,
    fun _ _ _ _ hjk hj hk => howes.abreast hjk hj hk, fun hno hnot o ho => ?_⟩
  rw [hnone hno hnot] at howes
  exact howes.paid ho

/-- A relay that has returned takes no step. -/
theorem step_returned (man : Manner R M) (cancelled : Bool) (chans : List (Chan M))
    (h : st.pc = .returned) (ev : Event R) : step man cancelled chans st ev = .blocked := by
  unfold Relay.step
  rw [h]
  cases ev <;> rfl

/-! ## The channels -/

variable {S : Type} {outOf : S → List (List M)} {senders : List S} {x x' : S}

/-- What went through the channels is an interleaving of what the senders have sent by
    their books, and they are open. -/
def Accounts (outOf : S → List (List M)) (chans : List (Chan M)) (senders : List S) : Prop :=
  ∀ (i : Nat) (ch : Chan M), chans[i]? = some ch →
    ∃ log, ch.Carries log false ∧ Interleaves log (senders.map (fun x => (outOf x).getD i []))

theorem accounts_make (outOf : S → List (List M)) (caps : List Nat) :
    Accounts outOf (caps.map Chan.make) [] := by
  intro i ch hch
  exact ⟨[], allCarry_make caps i ch hch, interleaves_nil⟩

/-- A sender opens its books. -/
theorem Accounts.join (h : Accounts outOf chans senders) (hx : outOf x = List.replicate n []) :
    Accounts outOf chans (senders ++ [x]) := by
  intro i ch hch
  obtain ⟨log, hcarries, hinter⟩ := h i ch hch
  refine ⟨log, hcarries, ?_⟩
  have hnone : (outOf x).getD i [] = [] := by
    rw [hx, List.getD_eq_getElem?_getD, List.getElem?_replicate]
    split <;> rfl
  rw [List.map_append, List.map_singleton, hnone]
  exact hinter.join

theorem Accounts.recv (h : Accounts outOf chans senders) {m : M} (hch : chans[i]? = some ch)
    (hrecv : ch.recv = some (m, ch')) : Accounts outOf (chans.set i ch') senders := by
  intro j c hc
  rcases getElem?_set_cases hc with ⟨rfl, rfl⟩ | ⟨-, hc⟩
  · obtain ⟨log, hcarries, hinter⟩ := h j ch hch
    exact ⟨log, hcarries.recv hrecv, hinter⟩
  · exact h j c hc

/-- **ONE STEP OF ONE OF THE SENDERS** is seen on the channels as it is on its
    books. -/
theorem Accounts.effect (h : Accounts outOf chans senders) (hk : senders[k]? = some x)
    (he : Effect (outOf x) (outOf x') chans chans') : Accounts outOf chans' (senders.set k x') := by
  cases he with
  | quiet hout hchans =>
      subst hchans
      intro i ch hch
      obtain ⟨log, hcarries, hinter⟩ := h i ch hch
      refine ⟨log, hcarries, ?_⟩
      rw [map_set_of_eq hk (by rw [hout])]
      exact hinter
  | @sent i msg receiver ch ch' hi hch hsend hout hchans =>
      subst hchans
      intro j c hc
      have hget : ∀ j,
          (senders.map (fun x => (outOf x).getD j []))[k]? = some ((outOf x).getD j []) := by
        intro j
        rw [List.getElem?_map, hk]
        rfl
      rcases getElem?_set_cases hc with ⟨rfl, rfl⟩ | ⟨hne, hc⟩
      · obtain ⟨log, hcarries, hinter⟩ := h j ch hch
        refine ⟨log ++ [msg], hcarries.send hsend, ?_⟩
        have hnew : (outOf x').getD j [] = (outOf x).getD j [] ++ [msg] := by
          rw [hout]
          simp [List.getD_eq_getElem?_getD, List.getElem?_eq_getElem hi]
        rw [List.map_set, hnew]
        exact hinter.send (hget j) msg
      · obtain ⟨log, hcarries, hinter⟩ := h j c hc
        refine ⟨log, hcarries, ?_⟩
        have hsame : (outOf x').getD j [] = (outOf x).getD j [] := by
          rw [hout, List.getD_eq_getElem?_getD, List.getElem?_modify_ne _ _ (Ne.symm hne),
            ← List.getD_eq_getElem?_getD]
        rw [map_set_of_eq hk hsame]
        exact hinter

/-- **ONE OF THE RELAYS TAKES A STEP**: its books and those of the channels stay
    right, and no channel is lost. -/
theorem Accounts.relay (h : Accounts Stream.out chans streams) (hk : streams[k]? = some st)
    (hst : Agrees man chans.length cancelled st)
    (hs : step man cancelled chans st ev = .ok (st', chans')) :
    chans'.length = chans.length ∧ Agrees man chans.length cancelled st' ∧
      Accounts Stream.out chans' (streams.set k st') := by
  obtain ⟨hnew, heffect⟩ := hst.step hs
  exact ⟨heffect.length.2, hnew, h.effect hk heffect⟩

theorem Agrees.opened (h : Agrees man chans.length cancelled st) (hopen : AllOpen chans)
    (hs : Relay.step man cancelled chans st ev = .ok (st', chans')) : AllOpen chans' := by
  cases (h.step hs).2 with
  | quiet hout hchans =>
      rw [hchans]
      exact hopen
  | sent hi hch hsend hout hchans =>
      rw [hchans]
      exact hopen.send hch hsend

/-- A relay that has nothing in hand and receives nothing sends nothing, and will
    have nothing in hand. -/
theorem step_idle (hpc : ∀ msgs i, st.pc ≠ .pushing msgs i) (hev : ∀ r, ev ≠ .reply r)
    (hs : step man cancelled chans st ev = .ok (st', chans')) :
    chans' = chans ∧ ∀ msgs i, st'.pc ≠ .pushing msgs i := by
  unfold Relay.step at hs
  split at hs
  · exact absurd rfl (hev _)
  · split at hs <;> cases hs
    · exact ⟨rfl, fun _ _ h => by cases h⟩
    · exact ⟨rfl, fun _ _ h => by cases h⟩
  · cases hs
    exact ⟨rfl, fun _ _ h => by cases h⟩
  · next hpush => exact absurd hpush (hpc _ _)
  · next hpush => exact absurd hpush (hpc _ _)
  · cases hs

/-- A relay with a message in hand sends it once there is room. -/
theorem step_push (man : Manner R M) (cancelled : Bool) (hpc : st.pc = .pushing (msg :: rest) i)
    (hch : chans[i]? = some ch) {receiver : Bool} (hsend : ch.send msg receiver = .ok ch') :
    ∃ st', step man cancelled chans st (.push receiver) = .ok (st', chans.set i ch') := by
  unfold Relay.step
  rw [hpc]
  simp only [hch, hsend]
  exact ⟨_, rfl⟩

/-- Nobody closes the channels, so no send is a panic. -/
theorem Accounts.step_ne_panic (h : Accounts outOf chans senders) (st : Stream R M) (ev : Event R) :
    step man cancelled chans st ev ≠ .panic := by
  intro hs
  unfold Relay.step at hs
  split at hs
  · split at hs
    · cases hs
    · split at hs <;> cases hs
  · split at hs <;> cases hs
  · cases hs
  · split at hs
    · cases hs
    · next ch hch =>
        obtain ⟨log, hcarries, -⟩ := h _ ch hch
        split at hs
        · cases hs
        · cases hs
        · next hpanic => exact hcarries.send_ne_panic _ _ hpanic
  · split at hs <;> cases hs
  · cases hs

end Relay
