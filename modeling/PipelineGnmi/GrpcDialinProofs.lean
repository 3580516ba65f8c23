import PipelineGnmi.GrpcSupervisorProofs
import PipelineGnmi.ProjectionProofs
import PipelineGnmi.RelayProofs

/-! # The gRPC input, dialing in

    `grpcBlock.run` over `grpcRemoteServer.stickyLoop` (`xport_grpc.go`), with the
    goroutines the sticky loop starts: one `singleSubscription` for each
    subscription it could set up.  The goroutines share the data channels and the
    context of the sticky loop, and count themselves out of its wait group.

    `GrpcSupervisorProofs` has the sticky loop with a number for its wait group.
    Here the number is the goroutines there are (`Inv.live`).  So the answer to
    SHUTDOWN, which waits for the sticky loop, waits for all of them
    (`dialin_quiescent`), and until then every one of them relays its stream as if
    it were alone (`dialin_delivers`). -/

namespace PipelineGrpcDialin

open GoChan Sweep Transition Quiescence Projection PipelineMessage PipelineGrpcSupervisor
open Relay hiding step Event
open Supervisor (Status Worker ctxDone ctxDone_step)

variable {M : Type}

/-! ## The goroutines and their block -/

/-- `CreateSubsReply`. -/
structure CreateSubsReply where
  data : Octets
  errors : String

/-- `CreateSubsArgs`. -/
structure CreateSubsArgs where
  reqId : Int64
  encode : Int64
  subidstr : String
  deriving DecidableEq

/-- What `singleSubscription` makes of a reply; an error reported by the router and
    data that does not decode end the subscription. -/
def handleReply (codec : Codec M) (server : MsgProducer) (reply : CreateSubsReply) :
    Option (List M) :=
  if reply.errors ≠ "" then none
  else
    match codec server reply.data with
    | .error _ => none
    | .ok dMs => some (dMs.getD [])

/-- `singleSubscription`. -/
def singleSubscription (codec : Codec M) (server : MsgProducer) :
    Manner CreateSubsReply M := ⟨handleReply codec server, true⟩

/-- A goroutine of `singleSubscription`, and the sticky loop that started it. -/
structure Subscription (M : Type) where
  loop : Nat
  sub : String
  reqID : Int64
  stream : Relay.Stream CreateSubsReply M

/-- `grpcBlock` and `grpcRemoteServer`; `requests` are the subscriptions asked for,
    each with the sticky loop that did. -/
structure Dialin (M : Type) where
  block : Supervisor.State Stage
  reqID : Int64
  requests : List (Nat × CreateSubsArgs)
  subs : List (Subscription M)
  dataChans : List (Chan M)
  crashed : Bool

/-- The steps of the block and its sticky loops, of a subscription, and of the
    stages downstream. -/
inductive DialinLabel where
  | block (l : Supervisor.Label PipelineGrpcSupervisor.Event)
  | sub (j : Nat) (ev : Relay.Event CreateSubsReply)
  | drain (i : Nat)

/-- The step is a call of `CreateSubs`: the sticky loop, the subscription, and
    whether it worked. -/
def createSubs (b : Supervisor.State Stage) :
    Supervisor.Label PipelineGrpcSupervisor.Event → Option (Nat × String × Bool)
  | .work k (.call ok) =>
      match b.workers[k]? with
      | some ⟨.running (.subscribing (sub :: _) _), _⟩ => some (k, sub, ok)
      | _ => none
  | _ => none

/-- `requestGRPCEncoding`. -/
def requestGRPCEncoding (cfg : GrpcConfig) : Int64 :=
  match mapEncapToGRPCEncode cfg.encodingRequest with
  | .ok enc => enc
  | .error _ => 0

/-- The body of the loop over the subscriptions.  The goroutine is handed the
    number of the request after its own. -/
def subscribe (cfg : GrpcConfig) (s : Dialin M) (k : Nat) (sub : String) (ok : Bool)
    (b : Supervisor.State Stage) : Dialin M :=
  { s with
    block := b
    reqID := s.reqID + 1
    requests := s.requests ++ [(k, ⟨s.reqID, requestGRPCEncoding cfg, sub⟩)]
    subs := if ok then
        s.subs ++ [⟨k, sub, s.reqID + 1, Stream.start s.dataChans.length⟩]
      else s.subs }

/-- The goroutine `j` has gone on. -/
def setStream (s : Dialin M) (j : Nat) (sub : Subscription M)
    (st : Relay.Stream CreateSubsReply M) (chans : List (Chan M)) : Dialin M :=
  { s with subs := s.subs.set j { sub with stream := st }, dataChans := chans }

section Model

variable (decode : Encoding → Codec M) (cfg : GrpcConfig) (server : MsgProducer)

/-- One step.  A subscription that returns counts itself out of the wait group,
    whose counter may not become negative. -/
def dialinStep (s : Dialin M) (l : DialinLabel) : Option (Dialin M) :=
  if s.crashed then none
  else match l with
  | .block (.work _ .subEnd) => none
  | .block l =>
      match Supervisor.step (remoteStickyLoop decode cfg) s.block l with
      | none => none
      | some b =>
          match createSubs s.block l with
          | some (k, sub, ok) => some (subscribe cfg s k sub ok b)
          | none => some { s with block := b }
  | .sub j ev =>
      match s.subs[j]? with
      | none => none
      | some sub =>
          match Relay.step (singleSubscription (decode cfg.encap) server)
            (ctxDone s.block sub.loop) s.dataChans sub.stream ev with
          | .blocked => none
          | .panic => some { s with crashed := true }
          | .ok (st, chans) =>
              if st.pc.running then some (setStream s j sub st chans)
              else
                match Supervisor.step (remoteStickyLoop decode cfg) s.block
                  (.work sub.loop .subEnd) with
                | some b => some { setStream s j sub st chans with block := b }
                | none => some { setStream s j sub st chans with crashed := true }
  | .drain i =>
      match s.dataChans[i]? with
      | none => none
      | some ch =>
          match ch.recv with
          | none => none
          | some (_, ch') => some { s with dataChans := s.dataChans.set i ch' }

/-- The block over data channels of these capacities; `reqID` is where the numbers
    of the requests start. -/
def dialin (reqID : Int64) (caps : List Nat) : System (Dialin M) DialinLabel where
  init :=
    { block := (grpc decode cfg .dialin).init, reqID := reqID, requests := [], subs := []
      dataChans := caps.map Chan.make, crashed := false }
  next := dialinStep decode cfg server

/-! ## What a step can do -/

/-- The steps there are. -/
inductive DialinMove (s : Dialin M) : DialinLabel → Dialin M → Prop where
  | block {l : Supervisor.Label PipelineGrpcSupervisor.Event} {b : Supervisor.State Stage}
      (hl : ∀ k, l ≠ .work k .subEnd)
      (hb : Supervisor.step (remoteStickyLoop decode cfg) s.block l = some b)
      (hcreate : createSubs s.block l = none) : DialinMove s (.block l) { s with block := b }
  | subscribed {l : Supervisor.Label PipelineGrpcSupervisor.Event}
      {b : Supervisor.State Stage} {k : Nat} {sub : String} {ok : Bool}
      (hb : Supervisor.step (remoteStickyLoop decode cfg) s.block l = some b)
      (hcreate : createSubs s.block l = some (k, sub, ok)) :
      DialinMove s (.block l) (subscribe cfg s k sub ok b)
  | pushPanic {j : Nat} {ev : Relay.Event CreateSubsReply} {sub : Subscription M}
      (hs : Relay.step (singleSubscription (decode cfg.encap) server)
        (ctxDone s.block sub.loop) s.dataChans sub.stream ev = .panic) :
      DialinMove s (.sub j ev) { s with crashed := true }
  | went {j : Nat} {ev : Relay.Event CreateSubsReply} {sub : Subscription M}
      {st : Relay.Stream CreateSubsReply M} {chans : List (Chan M)} (hj : s.subs[j]? = some sub)
      (hs : Relay.step (singleSubscription (decode cfg.encap) server)
        (ctxDone s.block sub.loop) s.dataChans sub.stream ev = .ok (st, chans))
      (hrun : st.pc.running = true) : DialinMove s (.sub j ev) (setStream s j sub st chans)
  | ended {j : Nat} {ev : Relay.Event CreateSubsReply} {sub : Subscription M}
      {st : Relay.Stream CreateSubsReply M} {chans : List (Chan M)} {b : Supervisor.State Stage}
      (hj : s.subs[j]? = some sub)
      (hs : Relay.step (singleSubscription (decode cfg.encap) server)
        (ctxDone s.block sub.loop) s.dataChans sub.stream ev = .ok (st, chans))
      (hrun : st.pc.running = false)
      (hb : Supervisor.step (remoteStickyLoop decode cfg) s.block (.work sub.loop .subEnd)
        = some b) : DialinMove s (.sub j ev) { setStream s j sub st chans with block := b }
  | negative {j : Nat} {ev : Relay.Event CreateSubsReply} {sub : Subscription M}
      {st : Relay.Stream CreateSubsReply M} {chans : List (Chan M)} (hj : s.subs[j]? = some sub)
      (hs : Relay.step (singleSubscription (decode cfg.encap) server)
        (ctxDone s.block sub.loop) s.dataChans sub.stream ev = .ok (st, chans))
      (hb : Supervisor.step (remoteStickyLoop decode cfg) s.block (.work sub.loop .subEnd)
        = none) : DialinMove s (.sub j ev) { setStream s j sub st chans with crashed := true }
  | drained {i : Nat} {x : M} {ch ch' : Chan M} (hch : s.dataChans[i]? = some ch)
      (hrecv : ch.recv = some (x, ch')) :
      DialinMove s (.drain i) { s with dataChans := s.dataChans.set i ch' }

variable {decode cfg server}
variable {s t : Dialin M} {w : Stage}

/-- **EVERY STEP IS ONE OF THESE**. -/
theorem dialinMove_of_step {l : DialinLabel} (h : dialinStep decode cfg server s l = some t) :
    DialinMove decode cfg server s l t := by
  unfold dialinStep at h
  split at h
  · cases h
  · split at h
    · cases h
    · next l hl =>
        split at h
        · cases h
        · next b hb =>
            split at h
            · next k sub ok hcreate =>
                cases h
                exact .subscribed hb hcreate
            · next hcreate =>
                cases h
                exact .block hl hb hcreate
    · next j ev =>
        split at h
        · cases h
        · next sub hj =>
            split at h
            · cases h
            · next hs =>
                cases h
                exact .pushPanic hs
            · next st chans hs =>
                split at h
                · next hrun =>
                    cases h
                    exact .went hj hs hrun
                · next hrun =>
                    split at h
                    · next b hb =>
                        cases h
                        exact .ended hj hs (Bool.eq_false_of_not_eq_true hrun) hb
                    · next hb =>
                        cases h
                        exact .negative hj hs hb
    · split at h
      · cases h
      · next ch hch =>
          split at h
          · cases h
          · next hrecv =>
              cases h
              exact .drained hch hrecv

/-! ## The wait group -/

/-- What a sticky loop counts in its wait group. -/
def Stage.live : Stage → Nat
  | .subscribing _ live => live
  | .subscribed live => live
  | _ => 0

def Status.live : Status Stage → Nat
  | .running w => Stage.live w
  | _ => 0

/-- The wait group of a sticky loop that may not have been started. -/
def liveOf (b : Supervisor.State Stage) (k : Nat) : Nat :=
  match b.workers[k]? with
  | some w => Status.live w.status
  | none => 0

/-- The wait group after a step. -/
def Outcome.live : Supervisor.Outcome Stage → Nat
  | .goto w => Stage.live w
  | _ => 0

/-- One more is counted when a subscription is set up. -/
def Stage.begins : Stage → PipelineGrpcSupervisor.Event → Nat
  | .subscribing (_ :: _) _, .call true => 1
  | _, _ => 0

/-- And one less when one has ended. -/
def Event.ends : PipelineGrpcSupervisor.Event → Nat
  | .subEnd => 1
  | _ => 0

variable {e : PipelineGrpcSupervisor.Event} {c : Bool} {b' : Supervisor.State Stage}

/-- **A STEP OF THE STICKY LOOP BALANCES ITS WAIT GROUP**; it leaves nobody behind
    when it closes its channel. -/
theorem remote_live {o : Supervisor.Outcome Stage}
    (h : (remoteStickyLoop decode cfg).next c w e = some o) :
    Outcome.live o + Event.ends e = Stage.live w + Stage.begins w e := by
  simp only [remoteStickyLoop] at h
  split at h
  · split at h <;> cases h <;> rfl
  · split at h <;> cases h <;> rfl
  · split at h <;> cases h <;> rfl
  · split at h <;> cases h <;> rfl
  · cases h
    rfl
  · next ok =>
      cases h
      cases ok <;> rfl
  · next subs live =>
      cases h
      cases subs <;> rfl
  · cases h
    rfl
  · cases h
    rfl
  · cases h

variable (decode cfg) in
/-- A sticky loop that counts somebody lets them leave. -/
theorem remote_subEnd (c : Bool) (h : 0 < Stage.live w) :
    ∃ w', (remoteStickyLoop decode cfg).next c w .subEnd = some (.goto w') := by
  cases w with
  | subscribing subs live =>
      cases live with
      | zero => exact absurd h (Nat.lt_irrefl 0)
      | succ live => cases subs <;> exact ⟨_, rfl⟩
  | subscribed live =>
      cases live with
      | zero => exact absurd h (Nat.lt_irrefl 0)
      | succ live => exact ⟨_, rfl⟩
  | _ => exact absurd h (Nat.lt_irrefl 0)

variable {b : Supervisor.State Stage} {k : Nat}
variable {l : Supervisor.Label PipelineGrpcSupervisor.Event}

theorem liveOf_setStatus {w : Worker Stage} (hk : b.workers[k]? = some w) (st : Status Stage)
    (j : Nat) : liveOf (b.setStatus k w st) j = if k = j then Status.live st else liveOf b j := by
  have hlt : k < b.workers.length := (List.getElem?_eq_some_iff.mp hk).1
  show (match (b.workers.set k _)[j]? with | some w => _ | none => _) = _
  split_ifs with hj
  · rw [← hj, List.getElem?_set_self hlt]
  · rw [List.getElem?_set_ne hj]
    rfl

/-- The subscriptions a step of the block starts for the sticky loop `j`. -/
def beginsAt (b : Supervisor.State Stage) (l : Supervisor.Label PipelineGrpcSupervisor.Event)
    (j : Nat) : Nat :=
  match createSubs b l with
  | some (k, _, true) => if k = j then 1 else 0
  | _ => 0

/-- The subscriptions whose end it takes in for the sticky loop `j`. -/
def endsAt (l : Supervisor.Label PipelineGrpcSupervisor.Event) (j : Nat) : Nat :=
  match l with
  | .work k e => if k = j then Event.ends e else 0
  | _ => 0

theorem begins_of_ne_call (h : ∀ ok, e ≠ .call ok) (w : Stage) : Stage.begins w e = 0 := by
  unfold Stage.begins
  split
  · exact absurd rfl (h true)
  · rfl

theorem beginsAt_work (hk : b.workers[k]? = some ⟨.running w, c⟩) (e : PipelineGrpcSupervisor.Event)
    (j : Nat) : beginsAt b (.work k e) j = if k = j then Stage.begins w e else 0 := by
  cases e with
  | call ok =>
      simp only [beginsAt, createSubs, hk]
      cases w with
      | subscribing subs live =>
          cases subs with
          | nil => exact (ite_self 0).symm
          | cons sub rest =>
              cases ok with
              | true => rfl
              | false => exact (ite_self 0).symm
      | _ => exact (ite_self 0).symm
  | _ =>
      rw [begins_of_ne_call (fun ok h => by cases h) w]
      exact (ite_self 0).symm

/-- Only a step of a sticky loop starts a subscription. -/
theorem beginsAt_other (h : ∀ k e, l ≠ .work k e) (j : Nat) :
    beginsAt b l j = 0 ∧ endsAt l j = 0 := by
  cases l with
  | work k e => exact absurd rfl (h k e)
  | _ => exact ⟨rfl, rfl⟩

/-- The wait groups after a step that leaves the workers, but for their contexts. -/
theorem liveOf_congr (h : b'.statuses = b.statuses) (j : Nat) : liveOf b' j = liveOf b j := by
  have hj := congrArg (fun l : List (Status Stage) => l[j]?) h
  simp only [Supervisor.State.statuses, List.getElem?_map] at hj
  unfold liveOf
  cases hb : b.workers[j]? with
  | none =>
      rw [hb] at hj
      rw [Option.map_eq_none_iff.mp hj]
  | some w =>
      rw [hb] at hj
      obtain ⟨w', hw', heq⟩ := Option.map_eq_some_iff.mp hj
      rw [hw']
      show Status.live w'.status = _
      rw [heq]

/-- **A STEP OF THE BLOCK BALANCES ALL WAIT GROUPS**. -/
theorem block_live (h : Supervisor.step (remoteStickyLoop decode cfg) b l = some b') (j : Nat) :
    liveOf b' j + endsAt l j = liveOf b j + beginsAt b l j := by
  by_cases hwork : ∃ k e, l = .work k e
  · obtain ⟨k, e, rfl⟩ := hwork
    obtain ⟨w, c, hk, hout⟩ := Supervisor.work_of_step h
    -- whatever it comes to, the worker is left with the count of the outcome
    obtain ⟨o, st, hn, ho, hb'⟩ : ∃ o st, (remoteStickyLoop decode cfg).next c w e = some o ∧
        Status.live st = Outcome.live o ∧
        liveOf b' j = liveOf (b.setStatus k ⟨.running w, c⟩ st) j := by
      rcases hout with ⟨w', hn, rfl⟩ | ⟨hn, rfl⟩ | ⟨hn, rfl⟩
      · exact ⟨_, _, hn, rfl, rfl⟩
      · exact ⟨_, _, hn, rfl, rfl⟩
      · exact ⟨_, _, hn, rfl, rfl⟩
    have hbal := remote_live hn
    rw [hb', liveOf_setStatus hk, beginsAt_work hk, ho]
    show _ + (if k = j then Event.ends e else 0) = _
    split_ifs with hj
    · have hlive : liveOf b j = Stage.live w := by
        rw [← hj, liveOf, hk]
        rfl
      rw [hlive]
      exact hbal
    · rfl
  · have hl : ∀ k e, l ≠ .work k e := fun k e heq => hwork ⟨k, e, heq⟩
    obtain ⟨hbegin, hend⟩ := beginsAt_other (b := b) hl j
    rw [hbegin, hend]
    cases Supervisor.change_of_step h with
    | started hpc hd =>
        show (match (b.workers ++ [_])[j]? with | some w => _ | none => _) = _
        by_cases hj : j < b.workers.length
        · rw [List.getElem?_append_left hj]
          rfl
        · -- the new one has nobody to wait for, and before there was none
          have hnone : liveOf b j = 0 := by
            rw [liveOf, List.getElem?_eq_none (Nat.le_of_not_lt hj)]
          rw [hnone, List.getElem?_append_right (Nat.le_of_not_lt hj)]
          cases j - b.workers.length <;> rfl
    | cancelled k hpc hc =>
        refine liveOf_congr ?_ j
        exact Supervisor.statuses_cancel b.workers k
    | left k c hk =>
        rw [liveOf_setStatus hk]
        split_ifs with hj
        · rw [← hj, liveOf, hk]
          rfl
        · rfl
    | went k e w w' c hk => exact absurd rfl (hl k e)
    | signalled k e w c hk => exact absurd rfl (hl k e)
    | quit k e w c hk hn => exact absurd rfl (hl k e)
    | _ => rfl

variable (decode cfg) in
/-- The end of a subscription that is counted can be taken in. -/
theorem block_subEnd (h : 0 < liveOf b k) :
    ∃ b', Supervisor.step (remoteStickyLoop decode cfg) b (.work k .subEnd) = some b' := by
  cases hk : b.workers[k]? with
  | none =>
      rw [liveOf, hk] at h
      exact absurd h (Nat.lt_irrefl 0)
  | some worker =>
      obtain ⟨st, c⟩ := worker
      rw [liveOf, hk] at h
      cases st with
      | running w =>
          obtain ⟨w', hw'⟩ := remote_subEnd decode cfg c h
          refine ⟨b.setStatus k ⟨.running w, c⟩ (.running w'), ?_⟩
          simp only [Supervisor.step, hk, hw']
      | _ => exact absurd h (Nat.lt_irrefl 0)

/-! ## The invariant -/

/-- The goroutines of the sticky loop `k` that have not returned. -/
def running (subs : List (Subscription M)) (k : Nat) : Nat :=
  subs.countP (fun sub => sub.loop == k && sub.stream.pc.running)

variable {j : Nat} {st : Relay.Stream CreateSubsReply M} {sub : Subscription M}
variable {subs : List (Subscription M)}

/-- A goroutine has gone on. -/
theorem running_went (hj : subs[j]? = some sub) (h : st.pc.running = sub.stream.pc.running)
    (k : Nat) : running (subs.set j { sub with stream := st }) k = running subs k :=
  countP_set_of_eq hj (by rw [h])

/-- A goroutine has returned. -/
theorem running_ended (hj : subs[j]? = some sub) (hrun : sub.stream.pc.running = true)
    (hend : st.pc.running = false) (k : Nat) :
    running (subs.set j { sub with stream := st }) k + (if sub.loop = k then 1 else 0)
      = running subs k := by
  by_cases hk : sub.loop = k
  · rw [if_pos hk]
    refine countP_set_of_drop hj ?_ ?_
    · rw [hrun, hk, beq_self_eq_true]
      rfl
    · rw [hend, Bool.and_false]
  · rw [if_neg hk, Nat.add_zero]
    refine countP_set_of_eq hj ?_
    rw [beq_false_of_ne hk]
    rfl

/-- A goroutine that is running is counted. -/
theorem running_pos (hsub : sub ∈ subs) (hrun : sub.stream.pc.running = true) :
    0 < running subs sub.loop := by
  refine List.countP_pos_iff.mpr ⟨sub, hsub, ?_⟩
  rw [hrun, beq_self_eq_true]
  rfl

variable (decode cfg server)

/-- What holds in every state of the block: the books of every goroutine over the
    `n` channels, what the channels carry, and the wait groups. -/
structure Inv (n : Nat) (s : Dialin M) : Prop where
  length : s.dataChans.length = n
  agrees : ∀ sub ∈ s.subs, Agrees (singleSubscription (decode cfg.encap) server) n
    (ctxDone s.block sub.loop) sub.stream
  accounts : Accounts Stream.out s.dataChans (s.subs.map Subscription.stream)
  live : ∀ k, running s.subs k = liveOf s.block k
  safe : s.crashed = false

variable {decode cfg server}

theorem inv_init (reqID : Int64) (caps : List Nat) :
    Inv decode cfg server caps.length (dialin decode cfg server reqID caps).init :=
  ⟨List.length_map .., fun _ h => absurd h List.not_mem_nil, accounts_make _ caps,
    fun _ => rfl, rfl⟩

variable {n : Nat}

/-- The contexts are only ever cancelled. -/
theorem Inv.agrees_step (hs : Inv decode cfg server n s)
    (hb : Supervisor.step (remoteStickyLoop decode cfg) s.block l = some b) (hsub : sub ∈ s.subs) :
    Agrees (singleSubscription (decode cfg.encap) server) n (ctxDone b sub.loop) sub.stream :=
  (hs.agrees sub hsub).cancel (ctxDone_step hb)

/-- What a call of `CreateSubs` is. -/
theorem createSubs_some {sub : String} {ok : Bool} (h : createSubs b l = some (k, sub, ok)) :
    l = .work k (.call ok) ∧ ∃ rest live c,
      b.workers[k]? = some ⟨.running (.subscribing (sub :: rest) live), c⟩ := by
  unfold createSubs at h
  split at h
  · split at h
    · next sub' rest live c hk =>
        cases h
        exact ⟨rfl, rest, live, c, hk⟩
    · cases h
  · cases h

/-- The loop over the subscriptions keeps the invariant. -/
theorem Inv.subscribe (hs : Inv decode cfg server n s) {sub : String} {ok : Bool}
    (hb : Supervisor.step (remoteStickyLoop decode cfg) s.block l = some b)
    (hcreate : createSubs s.block l = some (k, sub, ok)) :
    Inv decode cfg server n (subscribe cfg s k sub ok b) := by
  obtain ⟨rfl, -⟩ := createSubs_some hcreate
  have hlive : ∀ j, liveOf b j = liveOf s.block j + beginsAt s.block (.work k (.call ok)) j := by
    intro j
    have hnone : endsAt (.work k (.call ok)) j = 0 := ite_self 0
    rw [← block_live hb j, hnone, Nat.add_zero]
  cases ok with
  | false =>
      refine ⟨hs.length, fun _ h => hs.agrees_step hb h, hs.accounts, fun j => ?_, hs.safe⟩
      rw [PipelineGrpcDialin.subscribe, hlive, beginsAt, hcreate]
      exact hs.live j
  | true =>
      refine ⟨hs.length, fun x hx => ?_, ?_, fun j => ?_, hs.safe⟩
      · rcases List.mem_append.mp hx with hx | hx
        · exact hs.agrees_step hb hx
        · rw [List.mem_singleton.mp hx, ← hs.length]
          exact agrees_start _ _ _
      · show Accounts Stream.out s.dataChans ((s.subs ++ [_]).map _)
        rw [List.map_append]
        exact hs.accounts.join rfl
      · show running (s.subs ++ [_]) j = liveOf b j
        rw [hlive, beginsAt, hcreate, running, List.countP_append, List.countP_singleton,
          ← hs.live j]
        by_cases hk : k = j
        · rw [hk, beq_self_eq_true]
          simp only [if_true]
          rfl
        · rw [beq_false_of_ne hk]
          simp only [hk, if_false]
          rfl

/-- A goroutine that takes a step is counted. -/
theorem Inv.counted (hs : Inv decode cfg server n s) {ev : Relay.Event CreateSubsReply}
    {chans : List (Chan M)} (hj : s.subs[j]? = some sub)
    (hstep : Relay.step (singleSubscription (decode cfg.encap) server)
      (ctxDone s.block sub.loop) s.dataChans sub.stream ev = .ok (st, chans)) :
    sub.stream.pc.running = true ∧ 0 < liveOf s.block sub.loop := by
  have hrun : sub.stream.pc.running = true := by
    cases hpc : sub.stream.pc with
    | returned =>
        rw [step_returned _ _ _ hpc] at hstep
        cases hstep
    | _ => rfl
  refine ⟨hrun, ?_⟩
  rw [← hs.live]
  exact running_pos (List.mem_of_getElem? hj) hrun

/-- What a step of a goroutine does to the books and the channels. -/
theorem Inv.relay (hs : Inv decode cfg server n s) {ev : Relay.Event CreateSubsReply}
    {chans : List (Chan M)} (hj : s.subs[j]? = some sub)
    (hstep : Relay.step (singleSubscription (decode cfg.encap) server)
      (ctxDone s.block sub.loop) s.dataChans sub.stream ev = .ok (st, chans)) :
    chans.length = n ∧
      (∀ x ∈ s.subs.set j { sub with stream := st },
        Agrees (singleSubscription (decode cfg.encap) server) n (ctxDone s.block x.loop)
          x.stream) ∧
      Accounts Stream.out chans
        ((s.subs.set j { sub with stream := st }).map Subscription.stream) := by
  have hagrees := hs.agrees sub (List.mem_of_getElem? hj)
  rw [← hs.length] at hagrees ⊢
  have hget : (s.subs.map Subscription.stream)[j]? = some sub.stream := by
    rw [List.getElem?_map, hj]
    rfl
  obtain ⟨hlen, hnew, haccounts⟩ := hs.accounts.relay hget hagrees hstep
  refine ⟨hlen, fun x hx => ?_, ?_⟩
  · rcases List.mem_or_eq_of_mem_set hx with hx | rfl
    · rw [hs.length]
      exact hs.agrees x hx
    · exact hnew
  · rw [List.map_set]
    exact haccounts

/-- **EVERY STEP KEEPS THE INVARIANT**. -/
theorem Inv.move {l : DialinLabel} (hs : Inv decode cfg server n s)
    (h : DialinMove decode cfg server s l t) : Inv decode cfg server n t := by
  cases h with
  | @block l b hl hb hcreate =>
      refine ⟨hs.length, fun _ h => hs.agrees_step hb h, hs.accounts, fun j => ?_, hs.safe⟩
      have hend : endsAt l j = 0 := by
        cases l with
        | work k e =>
            cases e with
            | subEnd => exact absurd rfl (hl k)
            | _ => exact ite_self 0
        | _ => rfl
      have hbal := block_live hb j
      rw [hend, beginsAt, hcreate] at hbal
      exact (hs.live j).trans hbal.symm
  | subscribed hb hcreate => exact hs.subscribe hb hcreate
  | pushPanic hpanic => exact absurd hpanic (hs.accounts.step_ne_panic _ _)
  | went hj hstep hrun =>
      obtain ⟨hlen, hagrees, haccounts⟩ := hs.relay hj hstep
      refine ⟨hlen, hagrees, haccounts, fun k => ?_, hs.safe⟩
      exact (running_went hj (hrun.trans (hs.counted hj hstep).1.symm) k).trans (hs.live k)
  | @ended j ev sub st chans b hj hstep hend hb =>
      obtain ⟨hlen, hagrees, haccounts⟩ := hs.relay hj hstep
      refine ⟨hlen, fun x hx => (hagrees x hx).cancel (ctxDone_step hb), haccounts,
        fun k => ?_, hs.safe⟩
      -- the wait group and the goroutines both lose one
      show running (s.subs.set j { sub with stream := st }) k = liveOf b k
      have hrun := running_ended hj (hs.counted hj hstep).1 hend k
      have hbal := block_live hb k
      rw [← hs.live k, ← hrun] at hbal
      have hbegin : beginsAt s.block (.work sub.loop .subEnd) k = 0 := rfl
      rw [hbegin, Nat.add_zero] at hbal
      exact (Nat.add_right_cancel hbal).symm
  | negative hj hstep hb =>
      obtain ⟨b, hb'⟩ := block_subEnd decode cfg (hs.counted hj hstep).2
      rw [hb] at hb'
      cases hb'
  | drained hch hrecv =>
      exact ⟨(List.length_set ..).trans hs.length, hs.agrees, hs.accounts.recv hch hrecv,
        hs.live, hs.safe⟩

variable {reqID : Int64} {caps : List Nat}

theorem inv_of_reach {P : Dialin M → DialinLabel → Prop}
    (h : Reach (dialin decode cfg server reqID caps) P s) : Inv decode cfg server caps.length s :=
  h.invariant (inv_init reqID caps) (fun _ _ _ hs _ hn => hs.move (dialinMove_of_step hn))

/-- The block inside is the block on its own. -/
theorem shows_block : Shows (dialin decode cfg server reqID caps) (grpc decode cfg .dialin)
    Dialin.block := by
  refine ⟨rfl, fun hn => ?_⟩
  cases dialinMove_of_step hn with
  | block hl hb hcreate => exact Or.inr ⟨_, hb⟩
  | subscribed hb hcreate => exact Or.inr ⟨_, hb⟩
  | ended hj hstep hend hb => exact Or.inr ⟨.work _ .subEnd, hb⟩
  | _ => exact Or.inl rfl

/-! ## What is delivered -/

variable (decode cfg server)

/-- What the data channels get: from each goroutine, on every channel, a beginning
    of what the replies it looked at are worth, all of it unless its context was
    cancelled or it is still sending; and on a channel an interleaving of these,
    nothing else. -/
structure Relayed (n : Nat) (s : Dialin M) : Prop where
  safe : s.crashed = false
  length : s.dataChans.length = n
  each : ∀ sub ∈ s.subs, Delivered (singleSubscription (decode cfg.encap) server) n
    (ctxDone s.block sub.loop) sub.stream
  channel : ∀ (i : Nat) (ch : Chan M), s.dataChans[i]? = some ch →
    ∃ log, ch.Carries log false ∧ Interleaves log
      ((s.subs.map Subscription.stream).map (fun st => st.out.getD i []))

/-- **EVERY SUBSCRIPTION IS RELAYED AS IF IT WERE ALONE**, in every run, whatever
    the others do, and nothing the block does can crash it. -/
theorem dialin_delivers (reqID : Int64) (caps : List Nat) {s : Dialin M}
    (h : Reach (dialin decode cfg server reqID caps) anyStep s) :
    Relayed decode cfg server caps.length s := by
  have hs := inv_of_reach h
  exact ⟨hs.safe, hs.length, fun sub hsub => (hs.agrees sub hsub).delivered, hs.accounts⟩

/-- Two subscriptions, in a connection without credentials. -/
def twoSubscriptions : GrpcConfig := ⟨.gpbCompact, .gpbCompact, false, "", ["cpu", "memory"]⟩

/-- The block connects and asks for both; the second is refused, and the first has
    a reply that gets through before the router hangs up. -/
def relayRun : List DialinLabel :=
  [.block .prime, .block .retry, .block (.work 0 (.call true)), .block (.work 0 (.call true)),
    .block (.work 0 (.call true)), .block (.work 0 (.call true)),
    .block (.work 0 (.call true)), .sub 0 (.reply ⟨[1, 2], ""⟩),
    .block (.work 0 (.call false)), .sub 0 (.push true), .sub 0 .fail]

theorem dialin_delivers_one :
    ∃ s, Reach (dialin wholeBlocks twoSubscriptions "router" 7 [1]) anyStep s ∧
      s.subs.map (fun sub => sub.stream.out) = [[[[1, 2]]]] ∧
      Relayed wholeBlocks twoSubscriptions "router" 1 s := by
  have hs := reach_exec (S := dialin wholeBlocks twoSubscriptions "router" 7 [1]) relayRun
    (fun _ _ _ => trivial) (P := anyStep) .init rfl
  exact ⟨_, hs, rfl, dialin_delivers _ _ _ _ _ hs⟩

/-! ## The answer to SHUTDOWN -/

/-- The block has answered SHUTDOWN. -/
def Acked (s : Dialin M) : Prop := s.block.acked = true

variable {decode cfg server} in
/-- When it has, no sticky loop runs, so no goroutine does. -/
theorem returned_of_acked (hs : Inv decode cfg server n s) (hone : Supervisor.OneWorker s.block)
    (ha : Acked s) (hsub : sub ∈ s.subs) : sub.stream.pc = .returned := by
  have hzero : liveOf s.block sub.loop = 0 := by
    unfold liveOf
    cases hk : s.block.workers[sub.loop]? with
    | none => rfl
    | some w =>
        have hnot := hone.quiet ha w (List.mem_of_getElem? hk)
        show Status.live w.status = 0
        cases hst : w.status with
        | running stage =>
            rw [hst] at hnot
            exact absurd trivial hnot
        | _ => rfl
  cases hpc : sub.stream.pc with
  | returned => rfl
  | _ =>
      have hpos := running_pos hsub (by rw [hpc]; rfl)
      rw [hs.live, hzero] at hpos
      exact absurd hpos (Nat.lt_irrefl 0)

variable {decode cfg server} in
/-- No goroutine is left to take a step. -/
theorem silent_step {l : DialinLabel} (hs : Reach (dialin decode cfg server reqID caps) anyStep s)
    (ha : Acked s) (hn : dialinStep decode cfg server s l = some t) :
    Acked t ∧ sent t.dataChans = sent s.dataChans := by
  have hone : Supervisor.OneWorker s.block :=
    (Supervisor.inv_of_reach (shows_block.reach hs)).oneWorker
  have hblocked : ∀ {j : Nat} {sub : Subscription M} {ev : Relay.Event CreateSubsReply}
      {r : Relay.Stream CreateSubsReply M × List (Chan M)}, s.subs[j]? = some sub →
      Relay.step (singleSubscription (decode cfg.encap) server)
        (ctxDone s.block sub.loop) s.dataChans sub.stream ev ≠ .ok r := by
    intro j sub ev r hj hstep
    rw [step_returned _ _ _
      (returned_of_acked (inv_of_reach hs) hone ha (List.mem_of_getElem? hj))] at hstep
    cases hstep
  cases dialinMove_of_step hn with
  | block hl hb hcreate => exact ⟨Supervisor.acked_step hb ha, rfl⟩
  | subscribed hb hcreate => exact ⟨Supervisor.acked_step hb ha, rfl⟩
  | pushPanic hpanic => exact ⟨ha, rfl⟩
  | went hj hstep hrun => exact absurd hstep (hblocked hj)
  | ended hj hstep hend hb => exact absurd hstep (hblocked hj)
  | negative hj hstep hb => exact absurd hstep (hblocked hj)
  | drained hch hrecv => exact ⟨ha, sent_recv hch hrecv⟩

/-- **THE ANSWER TO SHUTDOWN COMES AFTER THE LAST MESSAGE**: whatever the router,
    the subscriptions and the stages downstream do, nothing is sent on a data
    channel once the block has answered. -/
theorem dialin_quiescent (reqID : Int64) (caps : List Nat) :
    Quiescent (dialin decode cfg server reqID caps) anyStep Acked Dialin.dataChans := by
  refine quiescent_of_silent
    (I := fun s => Reach (dialin decode cfg server reqID caps) anyStep s) .init ?_ ?_
  · intro s a t hs _ hn
    exact .next hs trivial hn
  · intro s a t hs ha _ hn
    exact silent_step hs ha hn

end Model

end PipelineGrpcDialin
