import PipelineGnmi.MessageProofs
import PipelineGnmi.SupervisorProofs

/-! # The gRPC input block and the gRPC output server

    `grpcBlock.run` (`xport_grpc.go`) and `outermostLoop` (`xport_grpc_out.go`)
    are one supervisor; `childrenDone` is its channel.  Its workers are the
    three sticky loops: dialin, which connects to a router and waits for its
    subscriptions; dialout, which accepts routers; and the output server, which
    feeds its clients.

    A sticky loop closes `childrenDone` on its way out to be started again.  A
    few of its ways out are meant to be final, for a configuration that cannot
    work: there it returns and closes nothing.  The supervisor knows of no such
    difference.  On SHUTDOWN it waits for the channel, and after a final return
    it waits for ever (`grpc_served`). -/

namespace PipelineGrpcSupervisor

open Transition PipelineMessage Supervisor

variable {M : Type}

/-- The number of an encoding, as it is printed. -/
def encodingNumber : Encoding → Nat
  | .gpbCompact => 0
  | .gpbKv => 1
  | .json => 2
  | .jsonEvents => 3
  | .gpb => 4
  | .template => 5

/-- `mapEncapToGRPCEncode`. -/
def mapEncapToGRPCEncode : Encoding → Except GoError Int64
  | .gpbCompact => .ok 2
  | .gpbKv => .ok 3
  | .json => .ok 4
  | encap => .error ("gRPC: Failed to map requested encap "
      ++ toString (encodingNumber encap) ++ " to gRPC")

/-- What the sticky loops read of `grpcBlock`, `grpcRemoteServer` and
    `grpcOutLocalServerConfig`. -/
structure GrpcConfig where
  encap : Encoding
  encodingRequest : Encoding
  tls : Bool
  tlsPem : String
  subscriptions : List String

/-- Where a sticky loop is.  `live` counts the subscriptions in the wait group;
    the output server feeds its clients as long as it has a data channel. -/
inductive Stage where
  | encode
  | codec
  | tls
  | dial
  | subscribing (subs : List String) (live : Nat)
  | subscribed (live : Nat)
  | listen
  | accepting
  | feeding (dataChan : Bool)
  | draining
  | stopping

/-- What moves a sticky loop: a call returned, a subscription ended, a message
    came or the data channel was closed, the context was cancelled, or the
    server stopped accepting. -/
inductive Event where
  | call (ok : Bool)
  | subEnd
  | data
  | dataClosed
  | ctxDone
  | acceptFailed

variable (decode : Encoding → Codec M) (cfg : GrpcConfig) (c : Bool) (w : Stage)

/-- `grpcRemoteServer.stickyLoop`.  The credentials are read from a file only
    if one is named. -/
def remoteStickyLoop :
    Program Stage Event where
  start := .encode
  next _ stage event :=
    match stage, event with
    | .encode, .call _ =>
        match mapEncapToGRPCEncode cfg.encodingRequest with
        | .error _ => some .quit
        | .ok _ => some (.goto .codec)
    | .codec, .call _ =>
        match getCodec decode cfg.encap with
        | .error _ => some .quit
        | .ok _ => some (.goto .tls)
    | .tls, .call ok =>
        if cfg.tls = true ∧ cfg.tlsPem ≠ "" ∧ ok = false then some .quit
        else some (.goto .dial)
    | .dial, .call ok =>
        if ok then some (.goto (.subscribing cfg.subscriptions 0)) else some .signal
    | .subscribing [] live, .call _ => some (.goto (.subscribed live))
    | .subscribing (_ :: subs) live, .call ok =>
        some (.goto (.subscribing subs (if ok then live + 1 else live)))
    | .subscribing subs (live + 1), .subEnd => some (.goto (.subscribing subs live))
    | .subscribed (live + 1), .subEnd => some (.goto (.subscribed live))
    | .subscribed 0, .call _ => some .signal
    | _, _ => none

/-- `grpcLocalServer.stickyLoop`. -/
def localStickyLoop :
    Program Stage Event where
  start := .codec
  next cancelled stage event :=
    match stage, event with
    | .codec, .call _ =>
        match getCodec decode cfg.encap with
        | .error _ => some .quit
        | .ok _ => some (.goto .tls)
    | .tls, .call ok =>
        if cfg.tls = true ∧ ok = false then some .quit else some (.goto .listen)
    | .listen, .call ok => if ok then some (.goto .accepting) else some .signal
    | .accepting, .ctxDone => if cancelled then some (.goto .stopping) else none
    | .accepting, .acceptFailed => some (.goto .stopping)
    | .stopping, .call _ => some .signal
    | _, _ => none

/-- `grpcOutLocalServer.stickyLoop`.  `draining` removes the clients and waits
    for them, or for the time it gives them. -/
def outStickyLoop : Program Stage Event where
  start := .tls
  next cancelled stage event :=
    match stage, event with
    | .tls, .call ok =>
        if cfg.tls = true ∧ ok = false then some .quit else some (.goto .listen)
    | .listen, .call ok => if ok then some (.goto (.feeding true)) else some .signal
    | .feeding true, .data => some (.goto (.feeding true))
    | .feeding true, .dataClosed => some (.goto (.feeding false))
    | .feeding _, .ctxDone => if cancelled then some (.goto .draining) else none
    | .feeding _, .acceptFailed => some (.goto .draining)
    | .draining, .call _ => some (.goto .stopping)
    | .stopping, .call _ => some .signal
    | _, _ => none

/-- The three servers. -/
inductive Kind where
  | dialin
  | dialout
  | output
  deriving DecidableEq

def stickyLoop : Kind → Program Stage Event
  | .dialin => remoteStickyLoop decode cfg
  | .dialout => localStickyLoop decode cfg
  | .output => outStickyLoop cfg

variable (kind : Kind) (e : Event)

/-- `grpcBlock.run` and `outermostLoop` over their sticky loop. -/
def grpc : System (State Stage) (Label Event) :=
  supervisor (stickyLoop decode cfg kind)

/-! ## The final returns -/

/-- The returns that are logged as fatal: an encoding that cannot be requested,
    an encoding without a codec, and credentials that do not load. -/
def Fatal :
    Stage → Event → Prop
  | .encode, .call _ =>
      kind = .dialin ∧ ∃ err, mapEncapToGRPCEncode cfg.encodingRequest = .error err
  | .codec, .call _ =>
      kind ≠ .output ∧ ∃ err, getCodec decode cfg.encap = .error err
  | .tls, .call ok =>
      cfg.tls = true ∧ (kind = .dialin → cfg.tlsPem ≠ "") ∧ ok = false
  | _, _ => False

theorem remote_quits_iff :
    (remoteStickyLoop decode cfg).next c w e = some .quit ↔ Fatal decode cfg .dialin w e := by
  cases w with
  | encode =>
      cases e with
      | call ok =>
          simp only [remoteStickyLoop, Fatal]
          cases mapEncapToGRPCEncode cfg.encodingRequest <;> simp
      | _ => exact iff_of_false (fun h => by cases h) id
  | codec =>
      cases e with
      | call ok =>
          simp only [remoteStickyLoop, Fatal]
          cases getCodec decode cfg.encap <;> simp
      | _ => exact iff_of_false (fun h => by cases h) id
  | tls =>
      cases e with
      | call ok => simp [remoteStickyLoop, Fatal]
      | _ => exact iff_of_false (fun h => by cases h) id
  | subscribing subs live =>
      cases subs <;> cases live <;> cases e <;> exact iff_of_false (fun h => by cases h) id
  | subscribed live =>
      cases live <;> cases e <;> exact iff_of_false (fun h => by cases h) id
  | dial =>
      cases e with
      | call ok => cases ok <;> exact iff_of_false (fun h => by cases h) id
      | _ => exact iff_of_false (fun h => by cases h) id
  | _ => cases e <;> exact iff_of_false (fun h => by cases h) id

theorem local_quits_iff :
    (localStickyLoop decode cfg).next c w e = some .quit ↔ Fatal decode cfg .dialout w e := by
  cases w with
  | encode =>
      cases e with
      | call ok => exact iff_of_false (fun h => by cases h) (fun h => by cases h.1)
      | _ => exact iff_of_false (fun h => by cases h) id
  | codec =>
      cases e with
      | call ok =>
          simp only [localStickyLoop, Fatal]
          cases getCodec decode cfg.encap <;> simp
      | _ => exact iff_of_false (fun h => by cases h) id
  | tls =>
      cases e with
      | call ok => simp [localStickyLoop, Fatal]
      | _ => exact iff_of_false (fun h => by cases h) id
  | listen =>
      cases e with
      | call ok => cases ok <;> exact iff_of_false (fun h => by cases h) id
      | _ => exact iff_of_false (fun h => by cases h) id
  | accepting => cases c <;> cases e <;> exact iff_of_false (fun h => by cases h) id
  | _ => cases e <;> exact iff_of_false (fun h => by cases h) id

theorem out_quits_iff :
    (outStickyLoop cfg).next c w e = some .quit ↔ Fatal decode cfg .output w e := by
  cases w with
  | encode =>
      cases e with
      | call ok => exact iff_of_false (fun h => by cases h) (fun h => by cases h.1)
      | _ => exact iff_of_false (fun h => by cases h) id
  | codec =>
      cases e with
      | call ok => exact iff_of_false (fun h => by cases h) (fun h => h.1 rfl)
      | _ => exact iff_of_false (fun h => by cases h) id
  | tls =>
      cases e with
      | call ok => simp [outStickyLoop, Fatal]
      | _ => exact iff_of_false (fun h => by cases h) id
  | feeding dataChan =>
      cases dataChan <;> cases c <;> cases e <;> exact iff_of_false (fun h => by cases h) id
  | listen =>
      cases e with
      | call ok => cases ok <;> exact iff_of_false (fun h => by cases h) id
      | _ => exact iff_of_false (fun h => by cases h) id
  | _ => cases e <;> exact iff_of_false (fun h => by cases h) id

/-- A sticky loop quits exactly on a fatal return. -/
theorem stickyLoop_quits_iff (c : Bool) (w : Stage) (e : Event) :
    (stickyLoop decode cfg kind).next c w e = some .quit ↔ Fatal decode cfg kind w e := by
  cases kind with
  | dialin => exact remote_quits_iff decode cfg c w e
  | dialout => exact local_quits_iff decode cfg c w e
  | output => exact out_quits_iff decode cfg c w e

/-- The step is a fatal return of one of the incarnations. -/
def FatalStep (s : State Stage) (l : Label Event) : Prop :=
  ∃ k e w c, l = .work k e ∧ s.workers[k]? = some ⟨.running w, c⟩ ∧
    Fatal decode cfg kind w e

theorem fatalStep_iff_quits (s : State Stage) (l : Label Event) :
    FatalStep decode cfg kind s l ↔ Quits (stickyLoop decode cfg kind) s l := by
  simp only [FatalStep, Quits, stickyLoop_quits_iff]

/-! ## The supervisor -/

/-- **THE SUPERVISOR WAITS FOR A LIVE WORKER UNTIL A FATAL RETURN**: along every
    run without one it does; and from any fatal return there is a run to a
    supervisor that waits for a channel nobody will close. -/
theorem grpc_served (decode : Encoding → Codec M) (cfg : GrpcConfig) (kind : Kind) :
    (∀ s, Reach (grpc decode cfg kind) (fun s l => ¬ FatalStep decode cfg kind s l) s →
      Served s) ∧
    (∀ s l t, Reach (grpc decode cfg kind) anyStep s → FatalStep decode cfg kind s l →
      (grpc decode cfg kind).next s l = some t →
      ∃ u, Leads (grpc decode cfg kind) (fun _ => True) t u ∧ ¬ Served u) := by
  constructor
  · intro s hs
    simp only [fatalStep_iff_quits] at hs
    exact served_of_noQuit hs
  · intro s l t hs hfatal hn
    rw [fatalStep_iff_quits] at hfatal
    exact quit_stalls hs hfatal hn

/-- A dialout server for an encoding that is a name the configuration knows and
    that nothing decodes. -/
def jsonEventsServer : GrpcConfig := ⟨.jsonEvents, .gpbCompact, false, "", []⟩

/-- The server is started, finds no codec and returns; then SHUTDOWN comes, and
    the block waits. -/
theorem jsonEventsServer_stalls :
    ∃ s, Reach (grpc (M := Unit) (fun _ _ _ => .ok none) jsonEventsServer .dialout) anyStep s ∧
      ¬ Served s := by
  refine ⟨_, reach_exec [.prime, .retry, .work 0 (.call true), .wake, .shutdown]
    (fun _ _ _ => trivial) .init rfl, ?_⟩
  intro hserved
  rcases hserved rfl with h | ⟨k, w, hk, hw, hr⟩
  · exact absurd h (by decide)
  · obtain rfl : k = 0 := Nat.succ_inj.mp hk
    cases hw
    exact hr

/-- **ONE STICKY LOOP AT A TIME**, each closing its channel at most once and
    started after the one before closed its own, and none unsignalled after the
    answer to SHUTDOWN: in every run of each of the servers. -/
theorem grpc_oneWorker (decode : Encoding → Codec M) (cfg : GrpcConfig) (kind : Kind)
    {s : State Stage} (h : Reach (grpc decode cfg kind) anyStep s) : OneWorker s :=
  (inv_of_reach h).oneWorker

/-- An output server that could not listen at first, was started again, served a
    message and was shut down. -/
theorem grpc_oneWorker_restarted :
    ∃ s, Reach (grpc (M := Unit) (fun _ _ _ => .ok none) ⟨.gpb, .gpb, false, "", []⟩ .output)
        anyStep s ∧ s.acked = true ∧ s.workers.length = 2 ∧ OneWorker s := by
  let labels : List (Label Event) :=
    [.prime, .retry, .work 0 (.call true), .work 0 (.call false), .wake, .report, .leave 0,
      .retry, .work 1 (.call true), .work 1 (.call true), .work 1 .data, .wake, .shutdown,
      .work 1 .ctxDone, .work 1 (.call true), .work 1 (.call true), .collect, .ack]
  have hs := reach_exec (S := grpc (M := Unit) (fun _ _ _ => .ok none)
    ⟨.gpb, .gpb, false, "", []⟩ .output) labels (fun _ _ _ => trivial) (P := anyStep) .init rfl
  exact ⟨_, hs, rfl, rfl, grpc_oneWorker _ _ _ hs⟩

end PipelineGrpcSupervisor
