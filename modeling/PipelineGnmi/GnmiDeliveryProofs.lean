import PipelineGnmi.GnmiRunProofs

/-! # Delivery by the gNMI input

    `gnmiClient.loop` (`xport_gnmi.go`) pushes what it makes of an update to every
    data channel before it receives again, and `gnmiClient.run` starts it anew
    whenever it ends.  Here the client is run beside the replies its loops have
    looked at, over all of its connections.

    A loop ends on a reply, and then it has nothing in hand; or because it was
    cancelled, and then it is not started again.  So a lost connection costs
    nothing that was received: the data channels carry what the replies are worth,
    over any number of connections (`gnmi_delivers`). -/

namespace PipelineGnmiDelivery

open GoChan Sweep Transition PipelineMessage PipelineDataMsg PipelineGnmiClient PipelineGnmiRun

section Model

variable (marshal : GnmiNotification → Except GoError Octets) (client : GnmiClient)

/-- The messages of a reply. -/
def messages : Reply → List DataMsg
  | .update n =>
      match handleUpdate marshal client n with
      | .ok dMs => dMs
      | .error _ => []
  | .other => []
  | .failed => []

/-- What replies are worth, in order. -/
def worth (replies : List Reply) : List DataMsg := replies.flatMap (messages marshal client)

/-- The reply that a step looks at: a loop that was cancelled does not look. -/
def looked (s : ClientState) : ClientLabel → Option Reply
  | .loop (.reply r) => if s.ctx = some true then none else some r
  | _ => none

def record (s : ClientState) (l : ClientLabel) (replies : List Reply) : List Reply :=
  replies ++ (looked s l).toList

/-- The client beside the replies its loops have looked at. -/
def loggedInput (caps : List Nat) : System (ClientState × List Reply) ClientLabel :=
  withHistory (gnmiInput marshal client caps) [] record

/-! ## What the channels are owed -/

/-- At this place of the loops over messages and channels the channels are as far as
    the replies say. -/
def Owing (chans : List (Chan DataMsg)) (replies : List Reply)
    (p : Option (List DataMsg × Nat)) : Prop :=
  ∃ before all, worth marshal client replies = before ++ all ∧ Swept chans before all p

variable {marshal client} {chans : List (Chan DataMsg)} {replies : List Reply}

theorem Owing.paid (h : Owing marshal client chans replies none) :
    AllCarry chans (worth marshal client replies) := by
  obtain ⟨before, all, hworth, hswept⟩ := h
  rw [hworth]
  exact swept_none.mp hswept

theorem owing_paid (h : AllCarry chans (worth marshal client replies)) :
    Owing marshal client chans replies none := by
  exact ⟨_, [], (List.append_nil _).symm, swept_start h []⟩

/-- One more reply, with what it is worth to be sent. -/
theorem Owing.more (h : Owing marshal client chans replies none) (r : Reply) :
    Owing marshal client chans (replies ++ [r])
      (place chans.length (messages marshal client r) 0) := by
  refine ⟨worth marshal client replies, messages marshal client r, ?_, swept_start h.paid _⟩
  rw [worth, List.flatMap_append, List.flatMap_singleton, worth]

/-- One more reply, worth nothing. -/
theorem Owing.idle (h : Owing marshal client chans replies none) {r : Reply}
    (hr : messages marshal client r = []) : Owing marshal client chans (replies ++ [r]) none := by
  have hmore := h.more r
  rw [hr] at hmore
  exact hmore

variable {ch ch' : Chan DataMsg} {dM : DataMsg} {i : Nat} {rest : List DataMsg}

theorem Owing.send (h : Owing marshal client chans replies (some (dM :: rest, i))) {receiver : Bool}
    (hch : chans[i]? = some ch) (hsend : ch.send dM receiver = .ok ch') :
    Owing marshal client (chans.set i ch') replies (place chans.length (dM :: rest) (i + 1)) := by
  obtain ⟨before, all, hworth, hswept⟩ := h
  exact ⟨before, all, hworth, hswept.send hch hsend⟩

theorem Owing.recv {p : Option (List DataMsg × Nat)} (h : Owing marshal client chans replies p)
    {m : DataMsg} (hch : chans[i]? = some ch) (hrecv : ch.recv = some (m, ch')) :
    Owing marshal client (chans.set i ch') replies p := by
  obtain ⟨before, all, hworth, hswept⟩ := h
  exact ⟨before, all, hworth, hswept.recv hch hrecv⟩

/-! ## The books of the client -/

variable (marshal client) in
/-- The channels are owed what the loop has in hand.  Once cancelled, a loop that has
    nothing in hand may have let go of something. -/
def Books (s : ClientState) (replies : List Reply) : Prop :=
  ∃ p, Owing marshal client s.dataChans replies p ∧
    (s.ctx ≠ some true ∨ Delivering s.loop → p = inHand s.loop)

variable {s t : ClientState} {ev : LoopEvent}

/-- What the loop has in hand is owed, as long as it has not let go. -/
theorem Books.owing (h : Books marshal client s replies)
    (hs : s.ctx ≠ some true ∨ Delivering s.loop) :
    Owing marshal client s.dataChans replies (inHand s.loop) := by
  obtain ⟨p, howing, hp⟩ := h
  rw [← hp hs]
  exact howing

theorem books_of_owing (h : Owing marshal client s.dataChans replies (inHand s.loop)) :
    Books marshal client s replies := ⟨_, h, fun _ => rfl⟩

/-- The loop is over, or back at its head, with nothing in hand. -/
theorem books_finish (h : Owing marshal client s.dataChans replies none) :
    Books marshal client (finish s) replies := books_of_owing h

theorem books_again (h : Owing marshal client s.dataChans replies none) :
    Books marshal client (again s) replies := by
  unfold again
  split
  · exact books_finish h
  · exact books_of_owing h

theorem inHand_goOn (s : ClientState) (dMs : List DataMsg) (i : Nat) :
    inHand (goOn s dMs i).loop = place s.dataChans.length dMs i := by
  obtain ⟨lp, hmoved, hhand⟩ := goOn_moved s dMs i
  rw [hmoved.loop, hhand]

theorem dataChans_goOn (s : ClientState) (dMs : List DataMsg) (i : Nat) :
    (goOn s dMs i).dataChans = s.dataChans := by
  obtain ⟨lp, hmoved, -⟩ := goOn_moved s dMs i
  exact hmoved.dataChans

theorem books_goOn {dMs : List DataMsg}
    (h : Owing marshal client s.dataChans replies (place s.dataChans.length dMs i)) :
    Books marshal client (goOn s dMs i) replies := by
  refine books_of_owing ?_
  rw [inHand_goOn, dataChans_goOn]
  exact h

/-- A step that looks at no reply. -/
theorem record_of_not_looked {l : ClientLabel} (h : looked s l = none) :
    record s l replies = replies := by
  rw [record, h, Option.toList_none, List.append_nil]

/-- A loop that lets go. -/
theorem Books.letGo (h : Books marshal client s replies) (hctx : s.ctx = some true)
    (hctx' : t.ctx = s.ctx) (hchans : t.dataChans = s.dataChans) (hnone : inHand t.loop = none) :
    Books marshal client t replies := by
  obtain ⟨p, howing, -⟩ := h
  refine ⟨p, hchans ▸ howing, ?_⟩
  rintro (hno | hdel)
  · exact absurd (hctx'.trans hctx) hno
  · exact absurd hnone hdel

/-- A reply is worth what the loop makes of it. -/
theorem books_handleReply (r : Reply) (h : Owing marshal client s.dataChans replies none)
    (hloop : s.loop = .receiving) :
    Books marshal client (handleReply marshal client s r) (replies ++ [r]) := by
  cases r with
  | failed => exact books_finish (h.idle rfl)
  | other => exact books_again (h.idle rfl)
  | update n =>
      have hmore := h.more (.update n)
      cases hupdate : handleUpdate marshal client n with
      | ok dMs =>
          simp only [messages, hupdate] at hmore
          simp only [handleReply, hupdate]
          exact books_goOn hmore
      | error failure =>
          simp only [messages, hupdate] at hmore
          simp only [handleReply, hupdate]
          cases failure with
          | error err => exact books_finish hmore
          | panic text =>
              refine books_of_owing ?_
              show Owing marshal client s.dataChans _ (inHand s.loop)
              rw [hloop]
              exact hmore

/-- **ONE STEP OF THE LOOP** keeps the books. -/
theorem books_loopStep (h : Books marshal client s replies)
    (hs : loopStep marshal client s ev = some t) :
    Books marshal client t (record s (.loop ev) replies) := by
  unfold loopStep at hs
  split at hs
  · next ok hloop =>
      cases hs
      rw [record_of_not_looked rfl]
      by_cases hctx : s.ctx = some true
      · -- the loop ends at its head
        have hend : again s = finish s := if_pos hctx
        rw [hend, ite_self]
        exact h.letGo hctx rfl rfl rfl
      · have howing := h.owing (Or.inl hctx)
        rw [hloop] at howing
        split
        · exact books_again howing
        · exact books_finish howing
  · next r hloop =>
      split at hs
      · next hctx =>
          cases hs
          have hnone : looked s (.loop (.reply r)) = none := if_pos hctx
          rw [record_of_not_looked hnone]
          exact h.letGo hctx rfl rfl rfl
      · next hctx =>
          cases hs
          have howing := h.owing (Or.inl hctx)
          rw [hloop] at howing
          rw [record, looked, if_neg hctx]
          exact books_handleReply r howing hloop
  · next hloop =>
      cases hs
      rw [record_of_not_looked rfl]
      by_cases hctx : s.ctx = some true
      · exact h.letGo hctx rfl rfl rfl
      · have howing := h.owing (Or.inl hctx)
        rw [hloop] at howing
        exact books_finish howing
  · next receiver dM rest i hloop =>
      rw [record_of_not_looked rfl]
      have howing := h.owing (Or.inr (hloop ▸ Option.some_ne_none _))
      unfold pushNext at hs
      split at hs
      · cases hs
      · next ch hch =>
          split at hs
          · next ch' hsend =>
              cases hs
              rw [hloop] at howing
              refine books_goOn ?_
              rw [List.length_set]
              exact howing.send hch hsend
          · cases hs
          · cases hs
            exact books_of_owing howing
  · split at hs
    · next hctx =>
        cases hs
        rw [record_of_not_looked rfl]
        exact h.letGo hctx rfl rfl rfl
    · cases hs
  · cases hs

/-! ## The client over its connections -/

/-- There is one loop at a time, and none is started once `run` has cancelled. -/
structure OneLoop (s : ClientState) : Prop where
  done : s.clientDone = true → s.loop = .finished ∧ s.primed = true
  unprimed : s.primed = false → s.loop = .finished
  cancelled : s.ctx = some true → s.run = .cancelling ∨ s.run = .returned

/-- A loop that takes a step is the one that was started last. -/
theorem OneLoop.loopStep (h : OneLoop s) (hs : loopStep marshal client s ev = some t) :
    OneLoop t := by
  have hlive := loopStep_live hs
  have hprimed : s.primed = true := by
    cases hp : s.primed with
    | true => rfl
    | false => exact absurd (h.unprimed hp) hlive
  cases change_of_loopStep hs with
  | crash ht =>
      rw [ht]
      exact ⟨h.done, h.unprimed, h.cancelled⟩
  | went lp chans hmoved =>
      have hstill : t.primed = true := hmoved.primed.trans hprimed
      refine ⟨fun hdone => ⟨?_, hstill⟩, fun hno => (by cases hno.symm.trans hstill), ?_⟩
      · rcases hmoved.done hdone with hdone | hfin
        · exact absurd (h.done hdone).1 hlive
        · rw [hmoved.loop, hfin]
      · rw [hmoved.ctx, hmoved.run]
        exact h.cancelled

theorem unprimed_of_prime (h : clientStep marshal client s .prime = some t) : s.primed = false := by
  simp only [clientStep] at h
  split at h
  · cases h
  · split at h
    · cases h
    · next hprimed => exact Bool.eq_false_of_not_eq_true hprimed

theorem done_of_restart (h : clientStep marshal client s .restart = some t) :
    s.clientDone = true := by
  simp only [clientStep] at h
  split at h
  · cases h
  · split at h
    · next hrun => exact hrun.2
    · cases h

theorem loopStep_of_clientStep (h : clientStep marshal client s (.loop ev) = some t) :
    loopStep marshal client s ev = some t := by
  simp only [clientStep] at h
  split at h
  · cases h
  · exact h

theorem oneLoop_step {l : ClientLabel} (h : OneLoop s)
    (hstep : clientStep marshal client s l = some t) : OneLoop t := by
  cases (steps_of_clientStep hstep).2 with
  | drained => exact ⟨h.done, h.unprimed, h.cancelled⟩
  | primed =>
      refine ⟨fun _ => ⟨h.unprimed (unprimed_of_prime hstep), rfl⟩, ?_, h.cancelled⟩
      intro hno
      cases hno
  | restarted =>
      obtain ⟨-, hprimed⟩ := h.done (done_of_restart hstep)
      refine ⟨fun hno => (by cases hno), fun hno => ?_, fun hno => (by cases hno)⟩
      cases hno.symm.trans hprimed
  | woken hrun =>
      refine ⟨h.done, h.unprimed, fun hctx => ?_⟩
      rcases h.cancelled hctx with hcan | hret
      · cases hcan.symm.trans hrun
      · cases hret.symm.trans hrun
  | ignored => exact h
  | shutdown => exact ⟨h.done, h.unprimed, fun _ => Or.inl rfl⟩
  | answered => exact ⟨h.done, h.unprimed, fun _ => Or.inr rfl⟩
  | loop => exact h.loopStep (loopStep_of_clientStep hstep)

/-- **ONE STEP OF THE CLIENT** keeps the books. -/
theorem books_step {l : ClientLabel} (hone : OneLoop s) (h : Books marshal client s replies)
    (hstep : clientStep marshal client s l = some t) :
    Books marshal client t (record s l replies) := by
  cases (steps_of_clientStep hstep).2 with
  | drained hch hrecv =>
      obtain ⟨p, howing, hp⟩ := h
      rw [record_of_not_looked rfl]
      exact ⟨p, howing.recv hch hrecv, hp⟩
  | restarted hrun =>
      -- the loop before this one is over, and was not cancelled
      have hctx : s.ctx ≠ some true := by
        intro hctx
        rcases hone.cancelled hctx with hcan | hret
        · cases hcan.symm.trans hrun
        · cases hret.symm.trans hrun
      have howing := h.owing (Or.inl hctx)
      rw [(hone.done (done_of_restart hstep)).1] at howing
      rw [record_of_not_looked rfl]
      exact books_of_owing howing
  | shutdown =>
      obtain ⟨p, howing, hp⟩ := h
      rw [record_of_not_looked rfl]
      refine ⟨p, howing, ?_⟩
      rintro (hctx | hdel)
      · refine hp (Or.inl fun hcancelled => hctx ?_)
        show s.ctx.map (fun _ => true) = some true
        rw [hcancelled]
        rfl
      · exact hp (Or.inr hdel)
  | loop => exact books_loopStep h (loopStep_of_clientStep hstep)
  | _ =>
      rw [record_of_not_looked rfl]
      exact h

variable {caps : List Nat} {s : ClientState}

theorem books_of_reach (h : Reach (loggedInput marshal client caps) anyStep (s, replies)) :
    OneLoop s ∧ Books marshal client s replies := by
  refine h.invariant (I := fun u => OneLoop u.1 ∧ Books marshal client u.1 u.2) ?_ ?_
  · refine ⟨⟨fun hno => (by cases hno), fun _ => rfl, fun hno => (by cases hno)⟩, ?_⟩
    exact books_of_owing (owing_paid (allCarry_make caps))
  · rintro ⟨u, replies⟩ l v ⟨hone, hbooks⟩ _ hn
    obtain ⟨t, ht, rfl⟩ := Option.map_eq_some_iff.mp hn
    exact ⟨oneLoop_step hone ht, books_step hone hbooks ht⟩

/-! ## Nothing is stuck -/

variable (marshal client) in
/-- The client is up and can go on with what it has in hand. -/
structure Ready (s : ClientState) (replies : List Reply) : Prop where
  running : s.crashed = false
  opened : AllOpen s.dataChans
  placed : Placed s.dataChans.length (inHand s.loop)
  owing : Owing marshal client s.dataChans replies (inHand s.loop)

theorem crashed_goOn (s : ClientState) (dMs : List DataMsg) (i : Nat) :
    (goOn s dMs i).crashed = s.crashed := by
  unfold goOn again
  split
  · split <;> rfl
  · rfl

variable (caps) in
/-- One push. -/
theorem Ready.push (h : Ready marshal client s replies)
    (hloop : s.loop = .delivering (dM :: rest) i) (hch : s.dataChans[i]? = some ch)
    (hsend : ch.send dM true = .ok ch') :
    ∃ t, (loggedInput marshal client caps).next (s, replies) (.loop (.push true))
        = some (t, replies) ∧
      Ready marshal client t replies ∧ t.dataChans.length = s.dataChans.length ∧
      left s.dataChans.length (inHand t.loop) + 1 = left s.dataChans.length (inHand s.loop) := by
  have hplaced := h.placed
  have howing := h.owing
  rw [hloop] at hplaced howing
  have hlen : (s.dataChans.set i ch').length = s.dataChans.length := List.length_set
  refine ⟨goOn { s with dataChans := s.dataChans.set i ch' } (dM :: rest) (i + 1), ?_, ?_, ?_, ?_⟩
  · show (clientStep marshal client s (.loop (.push true))).map _ = _
    simp only [clientStep, h.running, loopStep, hloop, pushNext, hch, hsend,
      Bool.false_eq_true, if_false, Option.map_some, record, looked, Option.toList_none,
      List.append_nil]
  · refine ⟨(crashed_goOn ..).trans h.running, ?_, ?_, ?_⟩
    · rw [dataChans_goOn]
      exact h.opened.send hch hsend
    · rw [inHand_goOn, dataChans_goOn]
      exact placed_of_place rfl
    · rw [inHand_goOn, dataChans_goOn, hlen]
      exact howing.send hch hsend
  · rw [dataChans_goOn, hlen]
  · rw [inHand_goOn, hlen, hloop]
    exact left_next (hplaced _ _ rfl).1 dM rest

variable (caps) in
/-- A receive downstream, to make room. -/
theorem Ready.drain {x : DataMsg} (h : Ready marshal client s replies)
    (hch : s.dataChans[i]? = some ch) (hrecv : ch.recv = some (x, ch')) :
    (loggedInput marshal client caps).next (s, replies) (.drain i)
        = some ({ s with dataChans := s.dataChans.set i ch' }, replies) ∧
      Ready marshal client { s with dataChans := s.dataChans.set i ch' } replies := by
  constructor
  · show (clientStep marshal client s (.drain i)).map _ = _
    simp only [clientStep, h.running, hch, hrecv, Bool.false_eq_true, if_false, Option.map_some,
      record, looked, Option.toList_none, List.append_nil]
  · refine ⟨h.running, h.opened.recv hch hrecv, ?_, h.owing.recv hch hrecv⟩
    show Placed (s.dataChans.set i ch').length (inHand s.loop)
    rw [List.length_set]
    exact h.placed

variable (caps) in
/-- The message in hand goes to its channel, after a receive downstream if need be. -/
theorem Ready.pushes (h : Ready marshal client s replies)
    (hloop : s.loop = .delivering (dM :: rest) i) (hi : i < s.dataChans.length) :
    ∃ labels t, exec (loggedInput marshal client caps) (s, replies) labels = some (t, replies) ∧
      Ready marshal client t replies ∧ t.dataChans.length = s.dataChans.length ∧
      left s.dataChans.length (inHand t.loop) + 1 = left s.dataChans.length (inHand s.loop) := by
  have hch : s.dataChans[i]? = some s.dataChans[i] := List.getElem?_eq_getElem hi
  obtain ⟨⟨msgs, hcarries⟩, hle⟩ := h.opened i _ hch
  rcases hcarries.send_soon hle dM with ⟨ch', hsend⟩ | ⟨x, ch₁, ch', hrecv, hsend⟩
  · obtain ⟨t, hnext, ht⟩ := h.push caps hloop hch hsend
    refine ⟨[.loop (.push true)], t, ?_, ht⟩
    rw [exec, hnext]
    rfl
  · obtain ⟨hdrain, h₁⟩ := h.drain caps hch hrecv
    have hch₁ : (s.dataChans.set i ch₁)[i]? = some ch₁ := List.getElem?_set_self hi
    obtain ⟨t, hnext, ht⟩ := h₁.push caps hloop hch₁ hsend
    refine ⟨[.drain i, .loop (.push true)], t, ?_, ?_⟩
    · rw [exec, hdrain, Option.bind_some, exec, hnext]
      rfl
    · have hlen : (s.dataChans.set i ch₁).length = s.dataChans.length := List.length_set
      rw [← hlen]
      exact ht

variable (caps) in
/-- **WHAT IS IN HAND CAN BE PUSHED** to every channel, cancelled or not. -/
theorem Ready.all_pushed (h : Ready marshal client s replies) :
    ∃ labels t, exec (loggedInput marshal client caps) (s, replies) labels = some (t, replies) ∧
      AllCarry t.dataChans (worth marshal client replies) := by
  -- every push leaves one less
  induction hn : left s.dataChans.length (inHand s.loop) using Nat.strong_induction_on
    generalizing s with
  | _ n ih =>
      by_cases hdel : inHand s.loop = none
      · have howing := h.owing
        rw [hdel] at howing
        exact ⟨[], s, rfl, howing.paid⟩
      · obtain ⟨dM, rest, i, hat, hi⟩ := h.placed.in_hand hdel
        obtain ⟨labels, t, hexec, ht, hlen, hleft⟩ :=
          h.pushes caps (delivering_of_inHand hat) hi
        have hless : left t.dataChans.length (inHand t.loop) < n := by
          rw [hlen, ← hn]
          omega
        obtain ⟨more, u, hmore, hu⟩ := ih _ hless ht rfl
        refine ⟨labels ++ more, u, ?_, hu⟩
        rw [exec_append hexec]
        exact hmore

/-! ## Delivery -/

variable (marshal client) in
/-- What the data channels carried, by the replies that were looked at: nothing but what
    they are worth, in order, no channel more than a message ahead of another; and
    all of it whenever the client has nothing in hand and was not cancelled. -/
structure Delivered (s : ClientState) (replies : List Reply) : Prop where
  abreast : ∀ (j k : Nat) (chj chk : Chan DataMsg), j ≤ k → s.dataChans[j]? = some chj →
    s.dataChans[k]? = some chk → ∃ ahead behind, chj.Carries ahead false ∧
      chk.Carries behind false ∧ ahead <+: worth marshal client replies ∧ behind <+: ahead ∧
      ahead.length ≤ behind.length + 1
  whole : s.ctx ≠ some true → ¬ Delivering s.loop →
    AllCarry s.dataChans (worth marshal client replies)

theorem Books.delivered (h : Books marshal client s replies) :
    Delivered marshal client s replies := by
  constructor
  · intro j k chj chk hjk hj hk
    obtain ⟨p, ⟨before, all, hworth, hswept⟩, -⟩ := h
    rw [hworth]
    exact hswept.abreast hjk hj hk
  · intro hctx hdel
    have howing := h.owing (Or.inl hctx)
    rw [show inHand s.loop = none from not_not.mp hdel] at howing
    exact howing.paid

theorem reach_client (h : Reach (loggedInput marshal client caps) anyStep (s, replies)) :
    Reach (gnmiInput marshal client caps) anyStep s := reach_withHistory_iff.mp ⟨_, h⟩

/-- **EVERY UPDATE RECEIVED IS DELIVERED**: over any number of connections, and however
    the client, the router and the stages downstream interleave, the data channels carry
    what the replies are worth, in order and once each.  What the client has in hand
    can still be pushed to all of them. -/
theorem gnmi_delivers (marshal : GnmiNotification → Except GoError Octets) (client : GnmiClient)
    (caps : List Nat) (s : ClientState) (replies : List Reply)
    (h : Reach (loggedInput marshal client caps) anyStep (s, replies)) :
    Delivered marshal client s replies ∧
      (s.crashed = false → s.ctx ≠ some true ∨ Delivering s.loop →
        ∃ labels t, exec (loggedInput marshal client caps) (s, replies) labels
            = some (t, replies) ∧ AllCarry t.dataChans (worth marshal client replies)) := by
  have hbooks := (books_of_reach h).2
  refine ⟨hbooks.delivered, fun hup hs => ?_⟩
  have hinv := inv_of_reach (reach_client h)
  exact Ready.all_pushed caps ⟨hup, hinv.opened, hinv.placed, hbooks.owing hs⟩

end Model

/-! ## A connection that is lost -/

/-- A client without selectors. -/
def oneRouter : GnmiClient := ⟨"mygnmi", "10.0.0.1:57777", [], false⟩

def mtuUpdate : GnmiNotification :=
  ⟨1, some ⟨"", [], ""⟩, [⟨some ⟨"", [⟨"mtu", []⟩], ""⟩, some (.uintVal 9000)⟩]⟩

def oneOctet : GnmiNotification → Except GoError Octets := fun _ => .ok [1]

/-- An update, a lost connection, and an update on the next one, the second of two
    channels drained in between. -/
def reconnectRun : List ClientLabel :=
  [.prime, .restart, .loop (.subscribe true), .loop (.reply (.update mtuUpdate)),
    .loop (.push false), .loop (.push false), .wake, .loop (.reply .failed), .restart,
    .loop (.subscribe true), .loop (.reply (.update mtuUpdate)), .loop (.push false), .drain 1]

def reconnectReplies : List Reply := [.update mtuUpdate, .failed, .update mtuUpdate]

theorem gnmi_delivers_reconnect :
    ∃ s, exec (loggedInput oneOctet oneRouter [4, 1])
          (loggedInput oneOctet oneRouter [4, 1]).init reconnectRun
        = some (s, reconnectReplies) ∧
      (worth oneOctet oneRouter reconnectReplies).length = 2 ∧
      Delivered oneOctet oneRouter s reconnectReplies := by
  obtain ⟨s, hs⟩ : ∃ s, exec (loggedInput oneOctet oneRouter [4, 1])
      (loggedInput oneOctet oneRouter [4, 1]).init reconnectRun
        = some (s, reconnectReplies) := ⟨_, rfl⟩
  have hreach := reach_exec reconnectRun (fun _ _ _ => trivial) .init hs
  exact ⟨s, hs, rfl, (gnmi_delivers oneOctet oneRouter [4, 1] s _ hreach).1⟩

end PipelineGnmiDelivery
