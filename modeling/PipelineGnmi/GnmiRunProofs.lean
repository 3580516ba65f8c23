import PipelineGnmi.GnmiClientProofs
import PipelineGnmi.QuiescenceProofs

/-! # The gNMI input and its worker

    `gnmiClient.run` (`xport_gnmi.go`) starts `gnmiClient.loop` with a context
    of its own, starts it again when it is done, and cancels the context on
    SHUTDOWN.  The loop looks at the context whenever a reply has come in, and in
    a select with each send.

    The cancellation is not waited for before SHUTDOWN is answered.  A loop that
    is then past its look at the context, with messages to push, may push them:
    the select has two arms that are ready.  `gnmi_quiescent` shows that nothing
    else is ever sent after the answer, and `gnmi_stirs` that this is. -/

namespace PipelineGnmiRun

open GoChan Sweep Transition Quiescence PipelineMessage PipelineDataMsg PipelineGnmiClient

/-- What a receive on the subscription comes to; replies other than updates are
    passed over. -/
inductive Reply where
  | update (n : GnmiNotification)
  | other
  | failed

/-- Where `run` is: `cancelling` has called `cancel`, and is to answer. -/
inductive Run where
  | selecting
  | sleeping
  | cancelling
  | returned
  deriving DecidableEq

/-- Where `loop` is, if it runs; `delivering` has the messages still to push, the
    first of them next to the channel of this index. -/
inductive Loop where
  | finished
  | dialing
  | receiving
  | draining
  | delivering (dMs : List DataMsg) (i : Nat)

/-- `gnmiClient` at run time: `ctx` says of the context, if there is one, whether
    it is cancelled, and `clientDone` that the channel of that name is closed. -/
structure ClientState where
  run : Run
  ctx : Option Bool
  loop : Loop
  primed : Bool
  clientDone : Bool
  dataChans : List (Chan DataMsg)
  crashed : Bool

/-- The events of `loop`, the arms of its selects among them. -/
inductive LoopEvent where
  | subscribe (ok : Bool)
  | reply (r : Reply)
  | drained
  | push (receiver : Bool)
  | takeDone

inductive ClientLabel where
  | drain (i : Nat)
  | prime
  | restart
  | wake
  | ctrl (id : MsgID)
  | ack
  | loop (ev : LoopEvent)

/-- `loop` returns: the deferred close of `clientDone`. -/
def finish (s : ClientState) : ClientState := { s with loop := .finished, clientDone := true }

/-- The head of the `for` of `loop`. -/
def again (s : ClientState) : ClientState :=
  if s.ctx = some true then finish s else { s with loop := .receiving }

/-- Go on with the loops over messages and channels, from the channel of index
    `i`, or back to receiving. -/
def goOn (s : ClientState) (dMs : List DataMsg) (i : Nat) : ClientState :=
  match place s.dataChans.length dMs i with
  | none => again s
  | some (dMs, i) => { s with loop := .delivering dMs i }

/-- What `loop` does with a reply, the context not being cancelled. -/
def handleReply (marshal : GnmiNotification → Except GoError Octets) (client : GnmiClient)
    (s : ClientState) : Reply → ClientState
  | .failed => finish s
  | .other => again s
  | .update n =>
      match handleUpdate marshal client n with
      | .ok dMs => goOn s dMs 0
      | .error (.error _) => finish s
      | .error (.panic _) => { s with crashed := true }

/-- The arm of the select that pushes. -/
def pushNext (s : ClientState) (dM : DataMsg) (rest : List DataMsg) (i : Nat)
    (receiver : Bool) : Option ClientState :=
  match s.dataChans[i]? with
  | none => none
  | some ch =>
      match ch.send dM receiver with
      | .ok ch' =>
          some (goOn { s with dataChans := s.dataChans.set i ch' } (dM :: rest) (i + 1))
      | .blocked => none
      | .panic => some { s with crashed := true }

/-- One step of `loop`; a cancelled loop receives until the stream fails. -/
def loopStep (marshal : GnmiNotification → Except GoError Octets) (client : GnmiClient)
    (s : ClientState) (ev : LoopEvent) : Option ClientState :=
  match ev, s.loop with
  | .subscribe ok, .dialing => some (if ok then again s else finish s)
  | .reply r, .receiving =>
      if s.ctx = some true then some { s with loop := .draining }
      else some (handleReply marshal client s r)
  | .drained, .draining => some (finish s)
  | .push receiver, .delivering (dM :: rest) i => pushNext s dM rest i receiver
  | .takeDone, .delivering _ _ => if s.ctx = some true then some (finish s) else none
  | _, _ => none

/-- One step of the client or of a stage downstream. -/
def clientStep (marshal : GnmiNotification → Except GoError Octets) (client : GnmiClient)
    (s : ClientState) (l : ClientLabel) : Option ClientState :=
  if s.crashed = true then none
  else match l with
  | .drain i =>
      match s.dataChans[i]? with
      | none => none
      | some ch =>
          match ch.recv with
          | none => none
          | some (_, ch') => some { s with dataChans := s.dataChans.set i ch' }
  | .prime => if s.primed = true then none else some { s with primed := true, clientDone := true }
  | .restart =>
      if s.run = .selecting ∧ s.clientDone = true then
        some { s with run := .sleeping, ctx := some false, clientDone := false, loop := .dialing }
      else none
  | .wake => if s.run = .sleeping then some { s with run := .selecting } else none
  | .ctrl id =>
      if s.run = .selecting then
        match id with
        | .shutdown => some { s with run := .cancelling, ctx := s.ctx.map (fun _ => true) }
        | _ => some s
      else none
  | .ack => if s.run = .cancelling then some { s with run := .returned } else none
  | .loop ev => loopStep marshal client s ev

/-- The client over data channels of these capacities. -/
def gnmiInput (marshal : GnmiNotification → Except GoError Octets) (client : GnmiClient)
    (caps : List Nat) : System ClientState ClientLabel where
  init :=
    { run := .selecting, ctx := none, loop := .finished, primed := false
      clientDone := false, dataChans := caps.map Chan.make, crashed := false }
  next := clientStep marshal client

/-- SHUTDOWN was answered. -/
def Acked (s : ClientState) : Prop := s.run = .returned

/-- The place of the loops over messages and channels. -/
def inHand : Loop → Option (List DataMsg × Nat)
  | .delivering dMs i => some (dMs, i)
  | _ => none

/-- The loop has messages to push. -/
def Delivering (lp : Loop) : Prop := inHand lp ≠ none

/-- SHUTDOWN is answered while the loop has nothing to push. -/
def Settled (s : ClientState) : ClientLabel → Prop
  | .ack => ¬ Delivering s.loop
  | _ => True

/-! ## What the loop can do -/

theorem delivering_of_inHand {lp : Loop} {dMs : List DataMsg} {i : Nat}
    (h : inHand lp = some (dMs, i)) : lp = .delivering dMs i := by
  cases lp with
  | delivering dMs' i' =>
      cases h
      rfl
  | _ => cases h

/-- The loop went on to `lp`, and `run` and the channels are as they were; it closes
    `clientDone` as the last thing it does. -/
structure Moved (s : ClientState) (lp : Loop) (t : ClientState) : Prop where
  loop : t.loop = lp
  run : t.run = s.run
  ctx : t.ctx = s.ctx
  dataChans : t.dataChans = s.dataChans
  primed : t.primed = s.primed
  done : t.clientDone = true → s.clientDone = true ∨ lp = .finished

theorem finish_moved (s : ClientState) : Moved s .finished (finish s) :=
  ⟨rfl, rfl, rfl, rfl, rfl, fun _ => Or.inr rfl⟩

theorem again_moved (s : ClientState) : ∃ lp, Moved s lp (again s) ∧ inHand lp = none := by
  unfold again
  split
  · exact ⟨.finished, finish_moved s, rfl⟩
  · exact ⟨.receiving, ⟨rfl, rfl, rfl, rfl, rfl, Or.inl⟩, rfl⟩

theorem goOn_moved (s : ClientState) (dMs : List DataMsg) (i : Nat) :
    ∃ lp, Moved s lp (goOn s dMs i) ∧ inHand lp = place s.dataChans.length dMs i := by
  unfold goOn
  cases place s.dataChans.length dMs i with
  | none => exact again_moved s
  | some p => exact ⟨.delivering p.1 p.2, ⟨rfl, rfl, rfl, rfl, rfl, Or.inl⟩, rfl⟩

/-- What a step of the loop comes to: the process is down, or the loop has taken a
    turn at the channels and went somewhere. -/
inductive Change (s : ClientState) (t : ClientState) : Prop where
  | crash (ht : t = { s with crashed := true })
  | went (lp : Loop) (chans : List (Chan DataMsg))
      (hmoved : Moved { s with dataChans := chans } lp t)
      (hturn : Turn s.dataChans (inHand s.loop) chans (inHand lp))
      (hlive : inHand s.loop = none → Delivering lp → s.ctx ≠ some true ∧ s.loop = .receiving)

variable {s t : ClientState} {client : GnmiClient}
  {marshal : GnmiNotification → Except GoError Octets} {l : ClientLabel} {caps : List Nat}

/-- The loop went somewhere with nothing to push. -/
theorem Change.quiet (lp : Loop) (hmoved : Moved s lp t) (hnone : inHand lp = none) : Change s t :=
  .went lp s.dataChans hmoved (hnone ▸ .leaves) (fun _ hdel => absurd hnone hdel)

theorem change_finish (s : ClientState) : Change s (finish s) :=
  .quiet .finished (finish_moved s) rfl

theorem change_again (s : ClientState) : Change s (again s) := by
  obtain ⟨lp, hmoved, hnot⟩ := again_moved s
  exact .quiet lp hmoved hnot

theorem change_handleReply (marshal : GnmiNotification → Except GoError Octets)
    (client : GnmiClient) (hloop : s.loop = .receiving) (hctx : s.ctx ≠ some true) (r : Reply) :
    Change s (handleReply marshal client s r) := by
  cases r with
  | failed => exact change_finish s
  | other => exact change_again s
  | update n =>
      unfold handleReply
      simp only
      split
      · next dMs _ =>
          obtain ⟨lp, hmoved, hhand⟩ := goOn_moved s dMs 0
          exact .went lp s.dataChans hmoved (hhand ▸ .begins dMs (by rw [hloop]; rfl))
            (fun _ _ => ⟨hctx, hloop⟩)
      · exact change_finish s
      · exact .crash rfl

/-- **WHAT THE LOOP CAN DO**. -/
theorem change_of_loopStep {ev : LoopEvent} (h : loopStep marshal client s ev = some t) :
    Change s t := by
  unfold loopStep at h
  split at h
  · cases h
    split
    · exact change_again s
    · exact change_finish s
  · next hloop =>
      split at h
      · cases h
        exact .quiet .draining ⟨rfl, rfl, rfl, rfl, rfl, Or.inl⟩ rfl
      · next hctx =>
          cases h
          exact change_handleReply marshal client hloop hctx _
  · cases h
    exact change_finish s
  · next receiver dM rest i hloop =>
      unfold pushNext at h
      split at h
      · cases h
      · next ch hch =>
          split at h
          · next ch' hsend =>
              cases h
              obtain ⟨lp, hmoved, hhand⟩ := goOn_moved
                { s with dataChans := s.dataChans.set i ch' } (dM :: rest) (i + 1)
              have hat : inHand s.loop = some (dM :: rest, i) := by
                rw [hloop]
                rfl
              refine .went lp _ hmoved (hhand ▸ .sends hat hch hsend) (fun hnone => ?_)
              cases hat.symm.trans hnone
          · cases h
          · cases h
            exact .crash rfl
  · split at h
    · cases h
      exact change_finish s
    · cases h
  · cases h

/-- A loop that has returned takes no step. -/
theorem loopStep_live {ev : LoopEvent} (h : loopStep marshal client s ev = some t) :
    s.loop ≠ .finished := by
  intro hfin
  unfold loopStep at h
  rw [hfin] at h
  cases ev <;> cases h

/-! ## The client from end to end -/

/-- What a step of the client or of a stage downstream comes to. -/
inductive Steps (s : ClientState) : ClientLabel → ClientState → Prop where
  | drained {i : Nat} {x : DataMsg} {ch ch' : Chan DataMsg} (hch : s.dataChans[i]? = some ch)
      (hrecv : ch.recv = some (x, ch')) :
      Steps s (.drain i) { s with dataChans := s.dataChans.set i ch' }
  | primed : Steps s .prime { s with primed := true, clientDone := true }
  | restarted (hrun : s.run = .selecting) :
      Steps s .restart
        { s with run := .sleeping, ctx := some false, clientDone := false, loop := .dialing }
  | woken (hrun : s.run = .sleeping) : Steps s .wake { s with run := .selecting }
  | ignored {id : MsgID} : Steps s (.ctrl id) s
  | shutdown (hrun : s.run = .selecting) :
      Steps s (.ctrl .shutdown)
        { s with run := .cancelling, ctx := s.ctx.map (fun _ => true) }
  | answered (hrun : s.run = .cancelling) : Steps s .ack { s with run := .returned }
  | loop {ev : LoopEvent} {t : ClientState} (hlive : s.loop ≠ .finished)
      (hchange : Change s t) : Steps s (.loop ev) t

/-- **WHAT THE CLIENT CAN DO**, while the process is up. -/
theorem steps_of_clientStep (hstep : clientStep marshal client s l = some t) :
    s.crashed = false ∧ Steps s l t := by
  unfold clientStep at hstep
  split at hstep
  · cases hstep
  · next hup =>
      refine ⟨Bool.eq_false_iff.mpr hup, ?_⟩
      cases l with
      | drain i =>
          simp only at hstep
          split at hstep
          · cases hstep
          · next ch hch =>
              split at hstep
              · cases hstep
              · next x ch' hrecv =>
                  cases hstep
                  exact .drained hch hrecv
      | prime =>
          simp only at hstep
          split at hstep
          · cases hstep
          · cases hstep
            exact .primed
      | restart =>
          simp only at hstep
          split at hstep
          · next hrun =>
              cases hstep
              exact .restarted hrun.1
          · cases hstep
      | wake =>
          simp only at hstep
          split at hstep
          · next hrun =>
              cases hstep
              exact .woken hrun
          · cases hstep
      | ctrl id =>
          simp only at hstep
          split at hstep
          · next hrun =>
              split at hstep
              · cases hstep
                exact .shutdown hrun
              · cases hstep
                exact .ignored
          · cases hstep
      | ack =>
          simp only at hstep
          split at hstep
          · next hrun =>
              cases hstep
              exact .answered hrun
          · cases hstep
      | loop ev => exact .loop (loopStep_live hstep) (change_of_loopStep hstep)

/-- Once `run` has cancelled there is no context left that is not, and without a
    context there is no loop; the channels are open and the loop at a place of
    its loops. -/
structure Inv (s : ClientState) : Prop where
  cancelled : s.run = .cancelling ∨ s.run = .returned → s.ctx ≠ some false
  noLoop : s.ctx = none → s.loop = .finished
  opened : AllOpen s.dataChans
  placed : Placed s.dataChans.length (inHand s.loop)

/-- The loop keeps the invariant. -/
theorem Inv.change (hs : Inv s) (h : Change s t) (hlive : s.loop ≠ .finished) : Inv t := by
  have hctx : s.ctx ≠ none := fun hnone => hlive (hs.noLoop hnone)
  cases h with
  | crash ht =>
      rw [ht]
      exact ⟨hs.cancelled, hs.noLoop, hs.opened, hs.placed⟩
  | went lp chans hmoved hturn =>
      refine ⟨?_, ?_, ?_, ?_⟩
      · rw [hmoved.run, hmoved.ctx]
        exact hs.cancelled
      · rw [hmoved.ctx]
        exact fun hnone => absurd hnone hctx
      · rw [hmoved.dataChans]
        exact hturn.allOpen hs.opened
      · rw [hmoved.dataChans, hmoved.loop]
        exact hturn.placed

theorem inv_step (hs : Inv s) (hstep : clientStep marshal client s l = some t) : Inv t := by
  cases (steps_of_clientStep hstep).2 with
  | @drained i x ch ch' hch hrecv =>
      refine ⟨hs.cancelled, hs.noLoop, hs.opened.recv hch hrecv, ?_⟩
      show Placed (s.dataChans.set i ch').length (inHand s.loop)
      rw [List.length_set]
      exact hs.placed
  | primed => exact ⟨hs.cancelled, hs.noLoop, hs.opened, hs.placed⟩
  | restarted =>
      refine ⟨?_, ?_, hs.opened, placed_none _⟩
      · rintro (hrun | hrun) <;> cases hrun
      · intro hnone
        cases hnone
  | woken =>
      refine ⟨?_, hs.noLoop, hs.opened, hs.placed⟩
      rintro (hrun | hrun) <;> cases hrun
  | ignored => exact hs
  | shutdown =>
      refine ⟨fun _ => ?_, fun hnone => hs.noLoop (Option.map_eq_none_iff.mp hnone),
        hs.opened, hs.placed⟩
      show s.ctx.map (fun _ => true) ≠ some false
      cases s.ctx with
      | none => exact (Option.some_ne_none _).symm
      | some b => exact fun heq => Bool.false_ne_true (Option.some.inj heq).symm
  | answered hrun => exact ⟨fun _ => hs.cancelled (Or.inl hrun), hs.noLoop, hs.opened, hs.placed⟩
  | loop hlive hchange => exact hs.change hchange hlive

theorem inv_of_reach {P : ClientState → ClientLabel → Prop}
    (h : Reach (gnmiInput marshal client caps) P s) : Inv s := by
  refine h.invariant (I := Inv) ?_ (fun _ _ _ hs _ hstep => inv_step hs hstep)
  refine ⟨?_, fun _ => rfl, allOpen_make caps, placed_none _⟩
  rintro (hrun | hrun) <;> cases hrun

/-! ## After the answer -/

/-- **SILENCE IS KEPT**: once SHUTDOWN is answered, with nothing to push, nothing
    is pushed. -/
theorem silent_step (hs : Inv s) (hacked : Acked s) (hquiet : ¬ Delivering s.loop)
    (hstep : clientStep marshal client s l = some t) :
    Acked t ∧ ¬ Delivering t.loop ∧ sent t.dataChans = sent s.dataChans := by
  cases (steps_of_clientStep hstep).2 with
  | drained hch hrecv => exact ⟨hacked, hquiet, sent_recv hch hrecv⟩
  | primed => exact ⟨hacked, hquiet, rfl⟩
  | restarted hrun => cases hrun.symm.trans hacked
  | woken hrun => cases hrun.symm.trans hacked
  | ignored => exact ⟨hacked, hquiet, rfl⟩
  | shutdown hrun => cases hrun.symm.trans hacked
  | answered hrun => cases hrun.symm.trans hacked
  | loop _ hchange =>
      cases hchange with
      | crash ht =>
          rw [ht]
          exact ⟨hacked, hquiet, rfl⟩
      | went lp chans hmoved hturn hlive =>
          have hidle : inHand s.loop = none := not_not.mp hquiet
          rw [hidle] at hturn
          refine ⟨hmoved.run.trans hacked, ?_, congrArg sent (hmoved.dataChans.trans hturn.same)⟩
          rw [hmoved.loop]
          intro hdel
          obtain ⟨hctx, hrecv⟩ := hlive hidle hdel
          -- the context is neither alive nor cancelled, so there was no loop
          have hnone : s.ctx = none := by
            cases hc : s.ctx with
            | none => rfl
            | some b =>
                cases b with
                | false => exact absurd hc (hs.cancelled (Or.inr hacked))
                | true => exact absurd hc hctx
          have hfin := hs.noLoop hnone
          rw [hrecv] at hfin
          cases hfin

/-- The answer is sent by one step. -/
theorem acked_step (hstep : clientStep marshal client s l = some t) (hacked : Acked t) :
    Acked s ∨ l = .ack ∧ t = { s with run := .returned } := by
  cases (steps_of_clientStep hstep).2 with
  | drained => exact Or.inl hacked
  | primed => exact Or.inl hacked
  | restarted => cases hacked
  | woken => cases hacked
  | ignored => exact Or.inl hacked
  | shutdown => cases hacked
  | answered => exact Or.inr ⟨rfl, rfl⟩
  | loop _ hchange =>
      refine Or.inl ?_
      cases hchange with
      | crash ht =>
          rw [ht] at hacked
          exact hacked
      | went lp chans hmoved => exact hmoved.run.symm.trans hacked

/-- **NOTHING IN HAND, NOTHING SENT**: in settled runs the client is quiescent
    once it has answered SHUTDOWN. -/
theorem gnmi_quiescent (marshal : GnmiNotification → Except GoError Octets)
    (client : GnmiClient) (caps : List Nat) :
    Quiescent (gnmiInput marshal client caps) Settled Acked ClientState.dataChans := by
  refine quiescent_of_silent (I := fun s => Inv s ∧ (Acked s → ¬ Delivering s.loop)) ?_ ?_ ?_
  · refine ⟨inv_of_reach (P := anyStep) .init, ?_⟩
    intro hacked
    cases hacked
  · rintro s l t ⟨hinv, hquiet⟩ hset hstep
    refine ⟨inv_step hinv hstep, fun hacked => ?_⟩
    rcases acked_step hstep hacked with hs | ⟨rfl, rfl⟩
    · exact (silent_step hinv hs (hquiet hs) hstep).2.1
    · exact hset
  · rintro s l t ⟨hinv, hquiet⟩ hacked _ hstep
    obtain ⟨ht, -, hsame⟩ := silent_step hinv hacked (hquiet hacked) hstep
    exact ⟨ht, hsame⟩

/-- A loop with a message to push can push it, cancelled or not. -/
theorem stirs_of_delivering (hup : s.crashed = false) (hopen : AllOpen s.dataChans)
    (hplaced : Placed s.dataChans.length (inHand s.loop)) (hdel : Delivering s.loop) :
    Stirs (gnmiInput marshal client caps) ClientState.dataChans s := by
  refine stirs_of_placed (U := fun u : ClientState => u.crashed = false)
    (H := fun u : ClientState => inHand u.loop) ?_ ?_ hup hopen hplaced hdel
  · intro u i ch x ch' hu hch hrecv
    refine ⟨.drain i, { u with dataChans := u.dataChans.set i ch' }, ?_, rfl, hu, rfl⟩
    show clientStep marshal client u (.drain i) = _
    simp only [clientStep, hu, hch, hrecv, Bool.false_eq_true, if_false]
  · intro u dM rest i ch ch' hu hat hch hsend
    have hloop := delivering_of_inHand hat
    obtain ⟨lp, hmoved, -⟩ := goOn_moved { u with dataChans := u.dataChans.set i ch' }
      (dM :: rest) (i + 1)
    refine ⟨.loop (.push true), _, ?_, hmoved.dataChans⟩
    show clientStep marshal client u (.loop (.push true)) = _
    simp only [clientStep, hu, loopStep, hloop, pushNext, hch, hsend, Bool.false_eq_true, if_false]

/-- **A MESSAGE IN HAND**: after an answer that is not settled a message can
    still be sent. -/
theorem gnmi_stirs (hreach : Reach (gnmiInput marshal client caps) anyStep s) (hl : ¬ Settled s l)
    (hstep : clientStep marshal client s l = some t) :
    Acked t ∧ Stirs (gnmiInput marshal client caps) ClientState.dataChans t := by
  cases l with
  | ack =>
      have hdel : Delivering s.loop := not_not.mp hl
      have hinv := inv_of_reach hreach
      obtain ⟨hup, hanswered⟩ := steps_of_clientStep hstep
      cases hanswered
      exact ⟨rfl, stirs_of_delivering hup hinv.opened hinv.placed hdel⟩
  | _ => exact absurd trivial hl

end PipelineGnmiRun
