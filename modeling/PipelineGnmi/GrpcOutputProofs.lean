import PipelineGnmi.GrpcSupervisorProofs
import PipelineGnmi.OutputPayloadsProofs
import PipelineGnmi.ProjectionProofs

/-! # The gRPC output as a whole

    `outermostLoop` of `xport_grpc_out.go` with the sticky loops it starts, the
    data channel they read in turn, and the clients that pull from them.  A sticky
    loop that leaves its select removes all the clients, waits until every `Pull`
    has returned or the time it gives them is over, stops its server and signals.
    The map of the clients and the wait group outlive it, and the next sticky loop
    goes on with them.

    * `clients_streams`: at any time, what a client has been sent comes, in order
      and once each, from a stretch of what the output has taken, and what it
      missed of the stretch was counted.
    * `clients_drained`: once SHUTDOWN is answered nothing is fed any more, and if
      the last wait came to its end every client that was there has all it was
      fed, but for the drops, unless its connection failed or it went away. -/

namespace PipelineGrpcOutput

open GoChan Transition Projection Drain PipelineMessage PipelineDataMsg
open PipelineGrpcSupervisor PipelineGrpcOut
open PipelineOutputPayloads (grpcEmits fed_outStep fedAfter)

/-! ## What a step is to a client -/

section Clients

variable {D : Type}

/-- The channel of the client may have been closed. -/
def Shut (p q : Pull D) : Prop :=
  q = p ∨ ∃ c, p.dataChan.close = .ok c ∧ q = { p with dataChan := c }

/-- What a step is to one client. -/
inductive PullMove (k : Nat) (p : Pull D) : OutLabel D → Pull D → Prop where
  | idle {l : OutLabel D} : PullMove k p l p
  | recv {msg : D} {c : Chan D} : p.pc = .selecting → p.dataChan.recv = some (msg, c) →
      PullMove k p (.recv k) { p with pc := .sending msg, dataChan := c }
  | chanClosed : p.pc = .selecting → p.dataChan.isClosed = true → p.dataChan.buf = [] →
      PullMove k p (.chanClosed k) { p with pc := .out }
  | sendOk {msg : D} : p.pc = .sending msg →
      PullMove k p (.send k true) { p with pc := .selecting }
  | sendFailed {msg : D} : p.pc = .sending msg → PullMove k p (.send k false) { p with pc := .out }
  | cancel : p.pc = .selecting → PullMove k p (.cancel k) { p with pc := .out }
  | removed {q : Pull D} : p.pc = .out → Shut { p with pc := .removed } q →
      PullMove k p (.remove k) q
  | done : p.pc = .removed → PullMove k p (.done k) { p with pc := .returned }
  | shut {l : OutLabel D} {q : Pull D} : Shut p q → PullMove k p l q
  | fed {data : D} : PullMove k p (.feed data) { p with fed := p.fed ++ [data] }
  | dropped {l : OutLabel D} : PullMove k p l { p with drops := p.drops + 1 }
  | pushed {l : OutLabel D} {data : D} {c : Chan D} : p.dataChan.send data false = .ok c →
      PullMove k p l { p with dataChan := c }

variable {q : Pull D} {k : Nat} {s : OutServer D}

theorem Shut.trans {p r : Pull D} (hpq : Shut p q) (hqr : Shut q r) : Shut p r := by
  rcases hqr with rfl | ⟨c, hc, rfl⟩
  · exact hpq
  · rcases hpq with rfl | ⟨d, hd, rfl⟩
    · exact Or.inr ⟨c, hc, rfl⟩
    · -- it is not closed twice
      have hclosed : d.isClosed = true := by
        unfold Chan.close at hd
        split at hd
        · cases hd
        · cases hd
          show (p.dataChan.log ++ [none]).any Option.isNone = true
          rw [List.any_append]
          exact Bool.or_true _
      have hopen := (Chan.close_spec hc).2
      rw [hclosed] at hopen
      cases hopen

theorem pull_removeChild {index : UInt64}
    (h : (s.removeChildUnprotected index).pulls[k]? = some q) :
    ∃ p, s.pulls[k]? = some p ∧ Shut p q := by
  unfold OutServer.removeChildUnprotected at h
  split at h
  · exact ⟨q, h, Or.inl rfl⟩
  · next j hj =>
      split at h
      · exact ⟨q, h, Or.inl rfl⟩
      · next p hp =>
          split at h
          · next c hc =>
              rcases getElem?_set_cases h with ⟨rfl, rfl⟩ | ⟨-, hq⟩
              · exact ⟨p, hp, Or.inr ⟨c, hc, rfl⟩⟩
              · exact ⟨q, hq, Or.inl rfl⟩
          · exact ⟨q, h, Or.inl rfl⟩

theorem pull_removeAll : ∀ (order : List (UInt64 × Nat)) {s : OutServer D} {k : Nat}
    {q : Pull D}, (s.removeAllChildren order).pulls[k]? = some q →
    ∃ p, s.pulls[k]? = some p ∧ Shut p q := by
  intro order
  induction order with
  | nil => exact fun {s k q} h => ⟨q, h, Or.inl rfl⟩
  | cons e rest ih =>
      intro s k q h
      obtain ⟨r, hr, hrq⟩ := ih (s := s.removeChildUnprotected e.1) h
      obtain ⟨p, hp, hpr⟩ := pull_removeChild hr
      exact ⟨p, hp, hpr.trans hrq⟩

/-- The channel a `Pull` found closed was empty. -/
theorem chanClosed_spec {depth : Nat} {t : OutServer D}
    (h : outStep depth s (.chanClosed k) = some t) :
    ∃ p, s.pulls[k]? = some p ∧ p.pc = .selecting ∧ p.dataChan.isClosed = true ∧
      p.dataChan.buf = [] ∧ t = s.setPull k { p with pc := .out } := by
  simp only [outStep] at h
  split at h
  · next p hk =>
      split at h
      · next hpc hr =>
          split at h
          · next hclosed =>
              cases h
              refine ⟨p, hk, hpc, hclosed, ?_, rfl⟩
              cases hbuf : p.dataChan.buf with
              | nil => rfl
              | cons m rest => simp only [Chan.recv, hbuf, reduceCtorEq] at hr
          · cases h
      · cases h
  · cases h

/-- **EVERY CLIENT TAKES ONE OF THESE TURNS** in a step, or comes with it. -/
theorem pullMove_of_step {depth : Nat} {t : OutServer D} {l : OutLabel D}
    (h : outStep depth s l = some t) (hq : t.pulls[k]? = some q) :
    (∃ p, s.pulls[k]? = some p ∧ PullMove k p l q) ∨
      ∃ endpoint, l = .start endpoint ∧ k = s.pulls.length ∧
        q = ⟨endpoint, Chan.make depth, s.childrenIndex + 1, .selecting, [], 0⟩ := by
  -- a step that changes the client `j` only
  have hone : ∀ {j : Nat} {p r : Pull D}, s.pulls[j]? = some p → PullMove j p l r →
      (s.pulls.set j r)[k]? = some q → ∃ p, s.pulls[k]? = some p ∧ PullMove k p l q := by
    intro j p r hp hmove hset
    rcases getElem?_set_cases hset with ⟨rfl, rfl⟩ | ⟨-, hk⟩
    · exact ⟨p, hp, hmove⟩
    · exact ⟨q, hk, .idle⟩
  cases outStep_move h with
  | start hfree =>
      by_cases hlt : k < s.pulls.length
      · exact Or.inl ⟨q, (List.getElem?_append_left hlt).symm.trans hq, .idle⟩
      · have hq' := (List.getElem?_append_right (Nat.le_of_not_lt hlt)).symm.trans hq
        have hk := (List.getElem?_eq_some_iff.mp hq').1
        rw [List.length_singleton] at hk
        exact Or.inr ⟨_, rfl, by omega, List.mem_singleton.mp (List.mem_of_getElem? hq')⟩
  | recv hk hpc hr => exact Or.inl (hone hk (.recv hpc hr) hq)
  | chanClosed hk hpc =>
      obtain ⟨p, hk', hpc', hclosed, hbuf, -⟩ := chanClosed_spec h
      cases hk.symm.trans hk'
      exact Or.inl (hone hk (.chanClosed hpc hclosed hbuf) hq)
  | sendOk hk hpc => exact Or.inl (hone hk (.sendOk hpc) hq)
  | sendFailed hk hpc => exact Or.inl (hone hk (.sendFailed hpc) hq)
  | cancel hk hpc => exact Or.inl (hone hk (.cancel hpc) hq)
  | @remove j p hfree hk hpc =>
      obtain ⟨r, hr, hshut⟩ := pull_removeChild hq
      rcases getElem?_set_cases hr with ⟨rfl, rfl⟩ | ⟨-, hr'⟩
      · exact Or.inl ⟨p, hk, .removed hpc hshut⟩
      · exact Or.inl ⟨r, hr', .shut hshut⟩
  | done hk hpc => exact Or.inl (hone hk (.done hpc) hq)
  | removeAll hfree =>
      obtain ⟨p, hp, hshut⟩ := pull_removeAll _ hq
      exact Or.inl ⟨p, hp, .shut hshut⟩
  | feed hfree =>
      obtain ⟨p, hp, heq⟩ := Option.map_eq_some_iff.mp (List.getElem?_mapIdx.symm.trans hq)
      refine Or.inl ⟨p, hp, ?_⟩
      rw [← heq]
      split
      · exact .fed
      · exact .idle
  | visitFull hf hk he => exact Or.inl (hone hk .dropped hq)
  | visitRoom _ _ _ _ => exact Or.inl ⟨q, hq, .idle⟩
  | push hf hk hsend => exact Or.inl (hone hk (.pushed hsend) hq)
  | pushPanic _ _ _ => exact Or.inl ⟨q, hq, .idle⟩
  | feedEnd _ => exact Or.inl ⟨q, hq, .idle⟩

end Clients

/-! ## The output -/

/-- The sticky loop that left its select last: the clients there were when it removed
    all of them, whether its wait for them came to its end, and whether it went on
    before. -/
structure Leaving where
  clients : Nat
  waitDone : Bool
  timedOut : Bool

/-- `outermostLoop` with its sticky loops, the clients, and the data channel.
    `served` says that a server has been listening, and `broken` are the clients
    that a send failed to or that went away. -/
structure GrpcOutput where
  block : Supervisor.State Stage
  server : OutServer (Option Octets)
  inbox : Inbox DataMsg
  served : Bool
  leaving : Leaving
  broken : List Nat

inductive OutputLabel where
  | produce (msg : DataMsg)
  | request
  | block (l : Supervisor.Label Event)
  | take (k : Nat)
  | handIn (k : Nat) (msg : DataMsg)
  | stop (k : Nat) (ev : Event) (order : List (UInt64 × Nat))
  | wait
  | drain (k : Nat)
  | client (l : OutLabel (Option Octets))

/-- The sticky loop waits for its clients. -/
def draining (b : Supervisor.State Stage) (k : Nat) : Bool :=
  match b.workers[k]? with
  | some ⟨.running .draining, _⟩ => true
  | _ => false

/-- The sticky loop listens. -/
def listens (b : Supervisor.State Stage) : Supervisor.Label Event → Bool
  | .work k (.call true) =>
      match b.workers[k]? with
      | some ⟨.running .listen, _⟩ => true
      | _ => false
  | _ => false

/-- The steps of the block that touch neither the clients nor the data channel; it is
    asked to stop when the inputs have. -/
def ofBlock (s : GrpcOutput) : Supervisor.Label Event → Bool
  | .shutdown => s.inbox.atRequest.isSome
  | .work k (.call _) => !draining s.block k
  | .work _ _ => false
  | _ => true

/-- The steps of the clients, and of `feedAllChildren` once it is called. -/
def ofClient (s : GrpcOutput) : OutLabel (Option Octets) → Bool
  | .start _ => s.served
  | .feed _ => false
  | .removeAll _ => false
  | _ => true

/-- The client whose send failed, or who went away. -/
def breaks : OutLabel (Option Octets) → List Nat
  | .send k false => [k]
  | .cancel k => [k]
  | _ => []

/-- The events on which a sticky loop leaves its select for good. -/
def leaves : Event → Bool
  | .ctxDone => true
  | .acceptFailed => true
  | _ => false

section Model

variable (render : Renderers) (spec : DataMsgStreamSpec) (cfg : GrpcConfig) (depth : Nat)

/-- The sticky loop `k` takes a message and calls `feedAllChildren`, unless there is no
    stream for it. -/
def collect (s : GrpcOutput) (k : Nat) (msg : DataMsg) (b : Inbox DataMsg) : Option GrpcOutput :=
  match Supervisor.step (outStickyLoop cfg) s.block (.work k .data),
    PipelineOutputPayloads.grpcStep render spec depth s.server (.collect msg) with
  | some block, some server => some { s with block := block, server := server, inbox := b }
  | _, _ => none

/-- One step of the output, of its clients, of the inputs or of the conductor.  A
    sticky loop that leaves removes all the clients; the goroutine it starts then
    waits for the wait group, and `drain` is the select over that and the time. -/
def outputStep (s : GrpcOutput) : OutputLabel → Option GrpcOutput
  | .produce msg => (Drain.produce s.inbox msg).map (fun b => { s with inbox := b })
  | .request => (Drain.request s.inbox).map (fun b => { s with inbox := b })
  | .block l =>
      if ofBlock s l then
        (Supervisor.step (outStickyLoop cfg) s.block l).map (fun b =>
          { s with block := b, served := s.served || listens s.block l })
      else none
  | .take k =>
      match Drain.take s.inbox with
      | none => none
      | some (msg, b) => collect render spec cfg depth s k msg b
  | .handIn k msg =>
      match Drain.handIn s.inbox msg with
      | none => none
      | some b => collect render spec cfg depth s k msg b
  | .stop k ev order =>
      if leaves ev then
        match Supervisor.step (outStickyLoop cfg) s.block (.work k ev),
          outStep depth s.server (.removeAll order) with
        | some block, some server => some { s with
            block := block, server := server, leaving := ⟨s.server.pulls.length, false, false⟩ }
        | _, _ => none
      else none
  | .wait =>
      if s.server.childrenWG = 0 then some { s with leaving := { s.leaving with waitDone := true } }
      else none
  | .drain k =>
      if draining s.block k then
        (Supervisor.step (outStickyLoop cfg) s.block (.work k (.call true))).map (fun b =>
          { s with
            block := b
            leaving := { s.leaving with timedOut := !s.leaving.waitDone } })
      else none
  | .client l =>
      if ofClient s l then
        (outStep depth s.server l).map (fun server =>
          { s with server := server, broken := breaks l ++ s.broken })
      else none

/-- The output with a data channel of this capacity. -/
def grpcOutput (cap : Nat) : System GrpcOutput OutputLabel where
  init :=
    { block := (Supervisor.supervisor (outStickyLoop cfg)).init
      server := (outServer depth).init, inbox := Drain.make cap, served := false
      leaving := ⟨0, false, false⟩, broken := [] }
  next := outputStep render spec cfg depth

/-! ## What a step can do -/

/-- The steps there are, by the parts they move. -/
inductive OutputMove (s : GrpcOutput) : OutputLabel → GrpcOutput → Prop where
  | filled {l : OutputLabel} {b : Inbox DataMsg} : b.taken = s.inbox.taken →
      OutputMove s l { s with inbox := b }
  | block {l : Supervisor.Label Event} {b : Supervisor.State Stage} {served : Bool} :
      ofBlock s l = true → Supervisor.step (outStickyLoop cfg) s.block l = some b →
      OutputMove s (.block l) { s with block := b, served := served }
  | collected {l : OutputLabel} {k : Nat} {msg : DataMsg} {b : Inbox DataMsg}
      {block : Supervisor.State Stage} {server : OutServer (Option Octets)} :
      b.taken = s.inbox.taken ++ [msg] →
      Supervisor.step (outStickyLoop cfg) s.block (.work k .data) = some block →
      PipelineOutputPayloads.grpcStep render spec depth s.server (.collect msg) = some server →
      OutputMove s l { s with block := block, server := server, inbox := b }
  | stopped {k : Nat} {ev : Event} {order : List (UInt64 × Nat)}
      {block : Supervisor.State Stage} {server : OutServer (Option Octets)} :
      leaves ev = true → Supervisor.step (outStickyLoop cfg) s.block (.work k ev) = some block →
      outStep depth s.server (.removeAll order) = some server →
      OutputMove s (.stop k ev order) { s with
        block := block, server := server, leaving := ⟨s.server.pulls.length, false, false⟩ }
  | waited : s.server.childrenWG = 0 →
      OutputMove s .wait { s with leaving := { s.leaving with waitDone := true } }
  | drained {k : Nat} {b : Supervisor.State Stage} : draining s.block k = true →
      Supervisor.step (outStickyLoop cfg) s.block (.work k (.call true)) = some b →
      OutputMove s (.drain k) { s with
        block := b, leaving := { s.leaving with timedOut := !s.leaving.waitDone } }
  | client {l : OutLabel (Option Octets)} {server : OutServer (Option Octets)} :
      ofClient s l = true → outStep depth s.server l = some server →
      OutputMove s (.client l) { s with server := server, broken := breaks l ++ s.broken }

end Model

variable {render : Renderers} {spec : DataMsgStreamSpec} {cfg : GrpcConfig} {depth cap : Nat}
variable {k : Nat} {s : GrpcOutput} {t : OutServer (Option Octets)} {l : OutLabel (Option Octets)}
variable {p q : Pull (Option Octets)} {b : Supervisor.State Stage}

variable {msg : DataMsg} {broken : List Nat} {w : Stage} {ev : Event} {o : Supervisor.Outcome Stage}
  {c : Bool} {b' : Supervisor.State Stage}

theorem collect_spec {t : GrpcOutput} {b : Inbox DataMsg}
    (h : collect render spec cfg depth s k msg b = some t) :
    ∃ block server, Supervisor.step (outStickyLoop cfg) s.block (.work k .data) = some block ∧
      PipelineOutputPayloads.grpcStep render spec depth s.server (.collect msg) = some server ∧
      t = { s with block := block, server := server, inbox := b } := by
  unfold collect at h
  split at h
  · next block server hb hserver =>
      cases h
      exact ⟨block, server, hb, hserver, rfl⟩
  · cases h

/-- **EVERY STEP IS ONE OF THESE**. -/
theorem outputMove_of_step {t : GrpcOutput} {l : OutputLabel}
    (h : outputStep render spec cfg depth s l = some t) :
    OutputMove render spec cfg depth s l t := by
  cases l with
  | produce msg =>
      obtain ⟨b, hb, rfl⟩ := Option.map_eq_some_iff.mp h
      exact .filled (produce_spec hb).2.2
  | request =>
      obtain ⟨b, hb, rfl⟩ := Option.map_eq_some_iff.mp h
      refine .filled ?_
      rw [request_spec hb]
  | block l =>
      simp only [outputStep] at h
      split at h
      · next hl =>
          obtain ⟨b, hb, rfl⟩ := Option.map_eq_some_iff.mp h
          exact .block hl hb
      · cases h
  | take k =>
      simp only [outputStep] at h
      split at h
      · cases h
      · next msg b hb =>
          obtain ⟨block, server, hblock, hserver, rfl⟩ := collect_spec h
          exact .collected (take_spec hb).2.1 hblock hserver
  | handIn k msg =>
      simp only [outputStep] at h
      split at h
      · cases h
      · next b hb =>
          obtain ⟨block, server, hblock, hserver, rfl⟩ := collect_spec h
          exact .collected (handIn_spec hb).2.2 hblock hserver
  | stop k ev order =>
      simp only [outputStep] at h
      split at h
      · next hev =>
          split at h
          · next block server hblock hserver =>
              cases h
              exact .stopped hev hblock hserver
          · cases h
      · cases h
  | wait =>
      simp only [outputStep] at h
      split at h
      · next hwg =>
          cases h
          exact .waited hwg
      · cases h
  | drain k =>
      simp only [outputStep] at h
      split at h
      · next hk =>
          obtain ⟨b, hb, rfl⟩ := Option.map_eq_some_iff.mp h
          exact .drained hk hb
      · cases h
  | client l =>
      simp only [outputStep] at h
      split at h
      · next hl =>
          obtain ⟨server, hserver, rfl⟩ := Option.map_eq_some_iff.mp h
          exact .client hl hserver
      · cases h

/-- What a message makes of the server: nothing, or a feed. -/
theorem server_collect {s : OutServer (Option Octets)}
    (h : PipelineOutputPayloads.grpcStep render spec depth s (.collect msg) = some t) :
    s.feeding = none ∧
      ((grpcEmits render spec msg = [] ∧ t = s) ∨
        ∃ rawstream, grpcEmits render spec msg = [rawstream] ∧
          outStep depth s (.feed rawstream) = some t) := by
  simp only [PipelineOutputPayloads.grpcStep] at h
  split at h
  · cases h
  · next hfree =>
      refine ⟨hfree, ?_⟩
      split at h
      · next err hstream =>
          cases h
          exact Or.inl ⟨by simp only [grpcEmits, hstream], rfl⟩
      · next rawstream hstream =>
          exact Or.inr ⟨rawstream, by simp only [grpcEmits, hstream], h⟩

/-- **THE BLOCK RUNS AS IT WOULD ON ITS OWN**. -/
theorem shows_block : Shows (grpcOutput render spec cfg depth cap)
    (Supervisor.supervisor (outStickyLoop cfg)) GrpcOutput.block := by
  refine ⟨rfl, fun {s t l} hn => ?_⟩
  have hstep : outputStep render spec cfg depth s l = some t := hn
  cases outputMove_of_step hstep with
  | filled _ => exact Or.inl rfl
  | block _ hb => exact Or.inr ⟨_, hb⟩
  | collected _ hb _ => exact Or.inr ⟨.work _ .data, hb⟩
  | stopped _ hb _ => exact Or.inr ⟨.work _ _, hb⟩
  | waited _ => exact Or.inl rfl
  | drained _ hb => exact Or.inr ⟨.work _ _, hb⟩
  | client _ _ => exact Or.inl rfl

/-- **SO DO THE CLIENTS AND THEIR FEEDER**. -/
theorem shows_server : Shows (grpcOutput render spec cfg depth cap) (outServer depth)
    GrpcOutput.server := by
  refine ⟨rfl, fun {s t l} hn => ?_⟩
  have hstep : outputStep render spec cfg depth s l = some t := hn
  cases outputMove_of_step hstep with
  | filled _ => exact Or.inl rfl
  | block _ _ => exact Or.inl rfl
  | collected _ _ hserver =>
      rcases (server_collect hserver).2 with ⟨-, hsame⟩ | ⟨_, -, hfeed⟩
      · exact Or.inl hsame
      · exact Or.inr ⟨.feed _, hfeed⟩
  | stopped _ _ hserver => exact Or.inr ⟨.removeAll _, hserver⟩
  | waited _ => exact Or.inl rfl
  | drained _ _ => exact Or.inl rfl
  | client _ hserver => exact Or.inr ⟨_, hserver⟩

/-! ## What a client has been sent -/

/-- The `Pull` is out of its loop. -/
def Past : PullPc (Option Octets) → Prop
  | .out => True
  | .removed => True
  | .returned => True
  | _ => False

/-- A client against all that was fed: it was fed a stretch of it, which goes on as
    long as it is registered; and unless it broke, it left with all its channel had
    to give. -/
structure Client (emitted : List (Option Octets)) (refs broken : List Nat) (k : Nat)
    (p : Pull (Option Octets)) : Prop where
  stretch : p.fed <:+: emitted
  registered : k ∈ refs → p.fed <:+ emitted
  conserves : p.dataChan.Conserves
  whole : Past p.pc → k ∈ broken ∨ (p.dataChan.isClosed = true ∧ p.dataChan.buf = [])

/-- What a step of the clients adds to all that was fed. -/
def feeds : OutLabel (Option Octets) → List (Option Octets)
  | .feed data => [data]
  | _ => []

theorem PullMove.conserves (h : PullMove k p l q) (hp : p.dataChan.Conserves) :
    q.dataChan.Conserves := by
  have hshut : ∀ {p q : Pull (Option Octets)}, Shut p q → p.dataChan.Conserves →
      q.dataChan.Conserves := by
    rintro p q (rfl | ⟨c, hc, rfl⟩) hp
    · exact hp
    · exact (hp.close hc).1
  cases h with
  | recv _ hr => exact hp.recv hr
  | removed _ hq => exact hshut hq hp
  | shut hq => exact hshut hq hp
  | pushed hsend => exact hp.send hsend
  | _ => exact hp

/-- A channel that was closed is not touched again but by receives. -/
theorem PullMove.whole (h : PullMove k p l q)
    (hp : Past p.pc → k ∈ broken ∨ (p.dataChan.isClosed = true ∧ p.dataChan.buf = [])) :
    Past q.pc → k ∈ breaks l ++ broken ∨ (q.dataChan.isClosed = true ∧ q.dataChan.buf = []) := by
  -- where the client was past its loop before
  have hkept : Past p.pc → (p.dataChan.isClosed = true → q.dataChan = p.dataChan) →
      k ∈ breaks l ++ broken ∨ (q.dataChan.isClosed = true ∧ q.dataChan.buf = []) := by
    intro hpast hsame
    rcases hp hpast with hbroken | ⟨hclosed, hbuf⟩
    · exact Or.inl (List.mem_append_right _ hbroken)
    · rw [hsame hclosed]
      exact Or.inr ⟨hclosed, hbuf⟩
  have hshut : ∀ {p q : Pull (Option Octets)}, Shut p q →
      q.pc = p.pc ∧ (p.dataChan.isClosed = true → q.dataChan = p.dataChan) := by
    rintro p q (rfl | ⟨c, hc, rfl⟩)
    · exact ⟨rfl, fun _ => rfl⟩
    · refine ⟨rfl, fun hclosed => ?_⟩
      have hopen := (Chan.close_spec hc).2
      rw [hclosed] at hopen
      cases hopen
  intro hpast
  cases h with
  | idle => exact hkept hpast (fun _ => rfl)
  | recv _ _ => exact hpast.elim
  | chanClosed _ hclosed hbuf => exact Or.inr ⟨hclosed, hbuf⟩
  | sendOk _ => exact hpast.elim
  | sendFailed _ => exact Or.inl (List.mem_cons_self ..)
  | cancel _ => exact Or.inl (List.mem_cons_self ..)
  | removed hpc hq => exact hkept (by rw [hpc]; trivial) (hshut hq).2
  | done hpc => exact hkept (by rw [hpc]; trivial) (fun _ => rfl)
  | shut hq =>
      obtain ⟨hpc, hchan⟩ := hshut hq
      exact hkept (hpc ▸ hpast) hchan
  | fed => exact hkept hpast (fun _ => rfl)
  | dropped => exact hkept hpast (fun _ => rfl)
  | @pushed _ data c hsend =>
      refine hkept hpast (fun hclosed => ?_)
      have hopen := (Chan.send_cases hsend).1
      rw [hclosed] at hopen
      cases hopen

theorem refs_removeChild (s : OutServer (Option Octets)) (index : UInt64) :
    (s.removeChildUnprotected index).children.Sublist s.children := by
  unfold OutServer.removeChildUnprotected
  split
  · exact List.Sublist.refl _
  · split
    · exact List.Sublist.refl _
    · split
      · exact List.filter_sublist
      · exact List.Sublist.refl _

theorem refs_removeAll : ∀ (order : List (UInt64 × Nat)) (s : OutServer (Option Octets)),
    (s.removeAllChildren order).children.Sublist s.children := by
  intro order
  induction order with
  | nil => exact fun s => List.Sublist.refl _
  | cons e rest ih => exact fun s => (ih _).trans (refs_removeChild s e.1)

/-- A client is registered when it comes, and then or never. -/
theorem refs_of_step {s : OutServer (Option Octets)} (h : outStep depth s l = some t)
    (hk : k ∈ t.children.map Prod.snd) : k ∈ s.children.map Prod.snd ∨ k = s.pulls.length := by
  cases outStep_move h with
  | start _ =>
      obtain ⟨e, he, rfl⟩ := List.mem_map.mp hk
      rcases List.mem_cons.mp he with rfl | he
      · exact Or.inr rfl
      · exact Or.inl (List.mem_map_of_mem (List.mem_of_mem_filter he))
  | @remove j p _ _ _ =>
      have hsub := refs_removeChild (s.setPull j { p with pc := .removed }) p.childId
      exact Or.inl ((hsub.map Prod.snd).subset hk)
  | removeAll _ => exact Or.inl (((refs_removeAll _ _).map _).subset hk)
  | _ => exact Or.inl hk

/-- What a client was fed before and after a step. -/
theorem fed_get {s : OutServer (Option Octets)} (h : outStep depth s l = some t)
    (hp : s.pulls[k]? = some p) (hq : t.pulls[k]? = some q) :
    q.fed = if k ∈ s.children.map Prod.snd then p.fed ++ feeds l else p.fed := by
  have hfed := congrArg (fun fed => fed[k]?) (fed_outStep h)
  simp only [List.getElem?_map, hq, Option.map_some] at hfed
  cases l with
  | feed data =>
      simp only [fedAfter, List.getElem?_mapIdx, List.getElem?_map, hp, Option.map_some,
        Option.some.injEq] at hfed
      exact hfed
  | start endpoint =>
      have hlt : k < (s.pulls.map Pull.fed).length := by
        rw [List.length_map]
        exact (List.getElem?_eq_some_iff.mp hp).1
      simp only [fedAfter, List.getElem?_append_left hlt, List.getElem?_map, hp, Option.map_some,
        Option.some.injEq] at hfed
      simp only [feeds, List.append_nil, ite_self]
      exact hfed
  | _ =>
      simp only [fedAfter, List.getElem?_map, hp, Option.map_some, Option.some.injEq] at hfed
      simp only [feeds, List.append_nil, ite_self]
      exact hfed

/-- **ONE STEP OF THE CLIENTS**, with what it adds to all that was fed. -/
theorem client_step {s : OutServer (Option Octets)} {emitted : List (Option Octets)}
    (h : outStep depth s l = some t) (hs : ∀ k p, s.pulls[k]? = some p →
      Client emitted (s.children.map Prod.snd) broken k p) :
    ∀ k q, t.pulls[k]? = some q →
      Client (emitted ++ feeds l) (t.children.map Prod.snd) (breaks l ++ broken) k q := by
  intro k q hq
  rcases pullMove_of_step h hq with ⟨p, hp, hmove⟩ | ⟨endpoint, rfl, -, rfl⟩
  · have hc := hs k p hp
    have hfed := fed_get h hp hq
    have hlt : k < s.pulls.length := (List.getElem?_eq_some_iff.mp hp).1
    refine ⟨?_, fun hreg => ?_, hmove.conserves hc.conserves, hmove.whole hc.whole⟩
    · rw [hfed]
      split
      · next hreg =>
          obtain ⟨pre, hpre⟩ := hc.registered hreg
          exact ⟨pre, [], by rw [← hpre, List.append_nil, List.append_assoc]⟩
      · exact hc.stretch.trans (List.prefix_append ..).isInfix
    · -- who is registered now was before, and is fed what there is
      have hreg' : k ∈ s.children.map Prod.snd :=
        (refs_of_step h hreg).resolve_right (Nat.ne_of_lt hlt)
      rw [hfed, if_pos hreg']
      obtain ⟨pre, hpre⟩ := hc.registered hreg'
      exact ⟨pre, by rw [← hpre, List.append_assoc]⟩
  · exact ⟨List.nil_infix, fun _ => List.nil_suffix, Chan.conserves_make depth, fun h => h.elim⟩

/-! ## The whole -/

/-- All that was to be fed. -/
def emitted (render : Renderers) (spec : DataMsgStreamSpec) (s : GrpcOutput) :
    List (Option Octets) :=
  s.inbox.taken.flatMap (grpcEmits render spec)

/-- Some sticky loop is at this stage. -/
def At (b : Supervisor.State Stage) (w : Stage) : Prop :=
  ∃ (k : Nat) (c : Bool), b.workers[k]? = some ⟨.running w, c⟩

/-- What holds in every state.  A feed is under way only while a sticky loop is at its
    select; and a sticky loop gets past its wait when that has come to its end, when
    all the clients there were have returned, or when the time is over. -/
structure OutputInv (render : Renderers) (spec : DataMsgStreamSpec) (s : GrpcOutput) : Prop where
  feeding : s.server.feeding ≠ none → At s.block (.feeding true)
  clients : ∀ k p, s.server.pulls[k]? = some p →
    Client (emitted render spec s) (s.server.children.map Prod.snd) s.broken k p
  bound : s.leaving.clients ≤ s.server.pulls.length
  waited : s.leaving.waitDone = true → ∀ k p, k < s.leaving.clients →
    s.server.pulls[k]? = some p → p.pc = .returned
  past : At s.block .draining ∨ s.leaving.timedOut = true ∨ s.leaving.waitDone = true ∨
    s.leaving.clients = 0

theorem length_le_of_step {s : OutServer (Option Octets)} (h : outStep depth s l = some t) :
    s.pulls.length ≤ t.pulls.length := by
  have hlen := congrArg List.length (fed_outStep h)
  rw [List.length_map] at hlen
  cases l with
  | start endpoint =>
      simp only [fedAfter, List.length_append, List.length_map] at hlen
      omega
  | feed data =>
      simp only [fedAfter, List.length_mapIdx, List.length_map] at hlen
      omega
  | _ =>
      simp only [fedAfter, List.length_map] at hlen
      omega

theorem feeding_removeChild (s : OutServer (Option Octets)) (index : UInt64) :
    (s.removeChildUnprotected index).feeding = s.feeding := by
  unfold OutServer.removeChildUnprotected
  split
  · rfl
  · split
    · rfl
    · split <;> rfl

theorem feeding_removeAll : ∀ (order : List (UInt64 × Nat)) (s : OutServer (Option Octets)),
    (s.removeAllChildren order).feeding = s.feeding := by
  intro order
  induction order with
  | nil => exact fun _ => rfl
  | cons e rest ih => exact fun s => (ih _).trans (feeding_removeChild s e.1)

/-- Only a feed starts one. -/
theorem feeding_of_step {s : OutServer (Option Octets)} (h : outStep depth s l = some t)
    (hl : feeds l = []) (ht : t.feeding ≠ none) : s.feeding ≠ none := by
  cases outStep_move h with
  | feed _ => cases hl
  | @remove j p hfree _ _ =>
      have hkept := feeding_removeChild (s.setPull j { p with pc := .removed }) p.childId
      exact absurd (hkept.trans hfree) ht
  | removeAll hfree => exact absurd ((feeding_removeAll _ _).trans hfree) ht
  | visitFull hf _ _ => exact fun hnone => Option.some_ne_none _ (hf.symm.trans hnone)
  | visitRoom hf _ _ _ => exact fun hnone => Option.some_ne_none _ (hf.symm.trans hnone)
  | push hf _ _ => exact fun hnone => Option.some_ne_none _ (hf.symm.trans hnone)
  | feedEnd _ => exact absurd rfl ht
  | _ => exact ht

/-- A `Pull` that has returned stays so. -/
theorem PullMove.returned (h : PullMove k p l q) (hp : p.pc = .returned) : q.pc = .returned := by
  cases h with
  | recv hpc _ => cases hpc.symm.trans hp
  | chanClosed hpc _ _ => cases hpc.symm.trans hp
  | sendOk hpc => cases hpc.symm.trans hp
  | sendFailed hpc => cases hpc.symm.trans hp
  | cancel hpc => cases hpc.symm.trans hp
  | removed hpc _ => cases hpc.symm.trans hp
  | done hpc => cases hpc.symm.trans hp
  | shut hq =>
      rcases hq with rfl | ⟨c, -, rfl⟩
      · exact hp
      · exact hp
  | _ => exact hp

/-- Those who had returned by a certain number still have, after any step. -/
theorem returned_of_step {s : OutServer (Option Octets)} {n : Nat} (h : outStep depth s l = some t)
    (hn : n ≤ s.pulls.length) (hs : ∀ k p, k < n → s.pulls[k]? = some p → p.pc = .returned) :
    ∀ k q, k < n → t.pulls[k]? = some q → q.pc = .returned := by
  intro k q hk hq
  rcases pullMove_of_step h hq with ⟨p, hp, hmove⟩ | ⟨_, -, rfl, -⟩
  · exact hmove.returned (hs k p hk hp)
  · omega

/-! ## The sticky loop -/

/-- A call does not bring a sticky loop away from its select. -/
theorem feeding_call (cfg : GrpcConfig) (c dataChan ok : Bool) :
    (outStickyLoop cfg).next c (.feeding dataChan) (.call ok) = none := by
  cases dataChan <;> rfl

/-- A sticky loop that leaves its select waits for its clients. -/
theorem next_leaves (hev : leaves ev = true) (h : (outStickyLoop cfg).next c w ev = some o) :
    o = .goto .draining := by
  cases ev with
  | ctxDone =>
      cases w with
      | feeding dataChan =>
          cases dataChan
          · simp only [outStickyLoop] at h
            split at h <;> cases h
            rfl
          · simp only [outStickyLoop] at h
            split at h <;> cases h
            rfl
      | _ => cases h
  | acceptFailed =>
      cases w with
      | feeding dataChan =>
          cases dataChan
          · cases h
            rfl
          · cases h
            rfl
      | _ => cases h
  | _ => cases hev

/-- The loop that takes a message is at its select, and comes back there. -/
theorem next_data (h : (outStickyLoop cfg).next c w .data = some o) :
    w = .feeding true ∧ o = .goto (.feeding true) := by
  cases w with
  | feeding dataChan =>
      cases dataChan
      · cases h
      · cases h
        exact ⟨rfl, rfl⟩
  | _ => cases h

theorem draining_iff : draining b k = true ↔ ∃ c, b.workers[k]? = some ⟨.running .draining, c⟩ := by
  unfold draining
  split
  · next c hk => exact iff_of_true rfl ⟨c, hk⟩
  · next hne => exact iff_of_false Bool.false_ne_true fun ⟨c, hk⟩ => hne c hk

/-- A sticky loop at its select stays there over the other steps of the block. -/
theorem select_kept {l : Supervisor.Label Event} (hl : ∀ k e, l = .work k e → ∃ ok, e = .call ok)
    (h : Supervisor.step (outStickyLoop cfg) s.block l = some b) (hs : At s.block (.feeding true)) :
    At b (.feeding true) := by
  obtain ⟨k, c, hk⟩ := hs
  refine ⟨k, Supervisor.running_kept h ?_ hk⟩
  rintro e rfl
  obtain ⟨ok, rfl⟩ := hl k e rfl
  obtain ⟨w, c', hk', hout⟩ := Supervisor.work_of_step h
  cases hk.symm.trans hk'
  rw [feeding_call] at hout
  rcases hout with ⟨w', hn, -⟩ | ⟨hn, -⟩ | ⟨hn, -⟩ <;> cases hn

/-- A sticky loop that waits for its clients goes on by its select only. -/
theorem drain_kept {l : Supervisor.Label Event}
    (hl : ∀ k e, l = .work k e → draining s.block k = false)
    (h : Supervisor.step (outStickyLoop cfg) s.block l = some b) (hs : At s.block .draining) :
    At b .draining := by
  obtain ⟨k, c, hk⟩ := hs
  refine ⟨k, Supervisor.running_kept h ?_ hk⟩
  rintro e rfl
  have hno := hl k e rfl
  rw [draining_iff.mpr ⟨c, hk⟩] at hno
  cases hno

theorem ofBlock_work {l : Supervisor.Label Event} (h : ofBlock s l = true) {e : Event}
    (hl : l = .work k e) : (∃ ok, e = .call ok) ∧ draining s.block k = false := by
  subst hl
  cases e with
  | call ok =>
      refine ⟨⟨ok, rfl⟩, ?_⟩
      have hnot : (!draining s.block k) = true := h
      rwa [Bool.not_eq_true'] at hnot
  | _ => cases h

theorem at_setStatus {v : Supervisor.Worker Stage} (hk : b.workers[k]? = some v) (w : Stage) :
    At (b.setStatus k v (.running w)) w :=
  ⟨k, v.cancelled, List.getElem?_set_self (List.getElem?_eq_some_iff.mp hk).1⟩

/-- The loop that takes a message was at its select and is there again. -/
theorem at_of_data (h : Supervisor.step (outStickyLoop cfg) b (.work k .data) = some b') :
    draining b k = false ∧ At b' (.feeding true) := by
  obtain ⟨w, c, hk, hout⟩ := Supervisor.work_of_step h
  have hno : w = .feeding true → draining b k = false := by
    rintro rfl
    simp only [draining, hk]
  rcases hout with ⟨w', hn, rfl⟩ | ⟨hn, -⟩ | ⟨hn, -⟩
  · obtain ⟨hw, heq⟩ := next_data hn
    cases heq
    exact ⟨hno hw, at_setStatus hk _⟩
  · cases (next_data hn).2
  · cases (next_data hn).2

/-- The loop that leaves its select waits for its clients. -/
theorem at_of_leaves (hev : leaves ev = true)
    (h : Supervisor.step (outStickyLoop cfg) b (.work k ev) = some b') : At b' .draining := by
  obtain ⟨w, c, hk, hout⟩ := Supervisor.work_of_step h
  rcases hout with ⟨w', hn, rfl⟩ | ⟨hn, -⟩ | ⟨hn, -⟩
  · cases next_leaves hev hn
    exact at_setStatus hk _
  · cases next_leaves hev hn
  · cases next_leaves hev hn

/-- When the wait group is at zero every `Pull` has returned. -/
theorem returned_of_wg {s : OutServer (Option Octets)} (hs : PipelineGrpcOut.Inv s)
    (hwg : s.childrenWG = 0) (hp : s.pulls[k]? = some p) : p.pc = .returned := by
  have hnone := List.countP_eq_zero.mp (hs.counted.wg.symm.trans hwg) p.book
    (List.mem_map_of_mem (List.mem_of_getElem? hp))
  cases hpc : p.pc with
  | returned => rfl
  | _ => exact absurd (by simp only [Pull.book, hpc, Bool.not_false]) hnone

/-- The clients feed nobody. -/
theorem feeds_of_client (h : ofClient s l = true) : feeds l = [] := by
  cases l with
  | feed data => cases h
  | _ => rfl

/-- What a step of the clients keeps of the invariant. -/
theorem OutputInv.server (hs : OutputInv render spec s) {server : OutServer (Option Octets)}
    (h : outStep depth s.server l = some server) :
    (∀ k p, server.pulls[k]? = some p →
      Client (emitted render spec s ++ feeds l) (server.children.map Prod.snd)
        (breaks l ++ s.broken) k p) ∧
      s.leaving.clients ≤ server.pulls.length ∧
      (s.leaving.waitDone = true → ∀ k p, k < s.leaving.clients →
        server.pulls[k]? = some p → p.pc = .returned) :=
  ⟨client_step h hs.clients, hs.bound.trans (length_le_of_step h),
    fun hdone => returned_of_step h hs.bound (hs.waited hdone)⟩

/-- **EVERY STEP KEEPS THE INVARIANT**. -/
theorem OutputInv.move {t : GrpcOutput} {l : OutputLabel} (hs : OutputInv render spec s)
    (hserver : PipelineGrpcOut.Inv s.server) (h : OutputMove render spec cfg depth s l t) :
    OutputInv render spec t := by
  cases h with
  | filled htaken =>
      refine ⟨hs.feeding, fun k p hp => ?_, hs.bound, hs.waited, hs.past⟩
      have hc := hs.clients k p hp
      rw [emitted, ← htaken] at hc
      exact hc
  | @block l b served hl hb =>
      refine ⟨fun hf => ?_, hs.clients, hs.bound, hs.waited, ?_⟩
      · exact select_kept (fun k e he => (ofBlock_work hl he).1) hb (hs.feeding hf)
      · exact hs.past.imp_left (drain_kept (fun k e he => (ofBlock_work hl he).2) hb)
  | @collected l k msg b block server htaken hb hcollect =>
      obtain ⟨hno, hat⟩ := at_of_data hb
      have hpast : At s.block .draining → At block .draining :=
        drain_kept (fun j e he => by cases he; exact hno) hb
      have hemitted : b.taken.flatMap (grpcEmits render spec) =
          emitted render spec s ++ grpcEmits render spec msg := by
        rw [htaken, List.flatMap_append, List.flatMap_singleton]
        rfl
      rcases (server_collect hcollect).2 with ⟨hemits, rfl⟩ | ⟨rawstream, hemits, hfeed⟩
      · rw [hemits, List.append_nil] at hemitted
        refine ⟨fun _ => hat, fun j p hp => ?_, hs.bound, hs.waited, hs.past.imp_left hpast⟩
        rw [emitted, hemitted]
        exact hs.clients j p hp
      · rw [hemits] at hemitted
        obtain ⟨hclients, hbound, hwaited⟩ := hs.server hfeed
        refine ⟨fun _ => hat, fun j p hp => ?_, hbound, hwaited, hs.past.imp_left hpast⟩
        rw [emitted, hemitted]
        exact hclients j p hp
  | @stopped k ev order block server hev hb hremove =>
      obtain ⟨hclients, -, -⟩ := hs.server hremove
      have hfree : server.feeding = none := by
        by_contra hf
        cases outStep_move hremove with
        | removeAll hfree => exact feeding_of_step hremove rfl hf hfree
      refine ⟨fun hf => absurd hfree hf, fun j p hp => ?_, length_le_of_step hremove,
        fun hdone => Bool.noConfusion hdone, Or.inl (at_of_leaves hev hb)⟩
      have hc := hclients j p hp
      rw [show feeds (.removeAll order) = [] from rfl, List.append_nil] at hc
      exact hc
  | waited hwg =>
      exact ⟨hs.feeding, hs.clients, hs.bound, fun _ k p _ hp => returned_of_wg hserver hwg hp,
        Or.inr (Or.inr (Or.inl rfl))⟩
  | @drained k b hk hb =>
      refine ⟨fun hf => ?_, hs.clients, hs.bound, hs.waited, Or.inr ?_⟩
      · exact select_kept (fun j e he => by cases he; exact ⟨true, rfl⟩) hb (hs.feeding hf)
      · cases s.leaving.waitDone with
        | true => exact Or.inr (Or.inl rfl)
        | false => exact Or.inl rfl
  | @client l server hl hstep =>
      have hfeeds := feeds_of_client hl
      obtain ⟨hclients, hbound, hwaited⟩ := hs.server hstep
      rw [hfeeds, List.append_nil] at hclients
      exact ⟨fun hf => hs.feeding (feeding_of_step hstep hfeeds hf), hclients, hbound, hwaited,
        hs.past⟩

theorem outputInv_init : OutputInv render spec (grpcOutput render spec cfg depth cap).init where
  feeding h := absurd rfl h
  clients k p h := by cases h
  bound := Nat.le_refl 0
  waited h := Bool.noConfusion h
  past := Or.inr (Or.inr (Or.inr rfl))

theorem outputInv_of_reach (h : Reach (grpcOutput render spec cfg depth cap) anyStep s) :
    PipelineGrpcOut.Inv s.server ∧ OutputInv render spec s := by
  refine h.invariant (I := fun u => PipelineGrpcOut.Inv u.server ∧ OutputInv render spec u)
    ⟨PipelineGrpcOut.inv_init depth, outputInv_init⟩ ?_
  rintro u l v ⟨hserver, hu⟩ - hn
  have hstep : outputStep render spec cfg depth u l = some v := hn
  refine ⟨?_, hu.move hserver (outputMove_of_step hstep)⟩
  rcases shows_server.step hn with heq | ⟨a, ha⟩
  · rw [heq]
    exact hserver
  · exact hserver.step ha

/-! ## What the clients get -/

/-- A client without a drop unaccounted for: what it received, what waits for it and
    what the feeder is about to give it are what it was fed, in order, but for the
    drops. -/
def Streamed (s : GrpcOutput) (k : Nat) (p : Pull (Option Octets)) : Prop :=
  (p.dataChan.rcvd ++ p.dataChan.buf ++ s.server.pending k).Sublist p.fed ∧
    p.dataChan.rcvd.length + p.dataChan.buf.length + (s.server.pending k).length + p.drops =
      p.fed.length

theorem streamed_of_reach (h : Reach (grpcOutput render spec cfg depth cap) anyStep s)
    (hp : s.server.pulls[k]? = some p) : Streamed s k p := by
  obtain ⟨hserver, hinv⟩ := outputInv_of_reach h
  obtain ⟨enqueued, closed, hcarries, hsub, hlen⟩ := hserver.accounts k p hp
  rw [(hinv.clients k p hp).conserves.carried hcarries] at hsub hlen
  rw [List.length_append] at hlen
  exact ⟨hsub, by omega⟩

/-- **EVERY CLIENT HAS A STRETCH OF THE STREAM**: whatever the clients do, whatever the
    server is restarted for, a client is fed a contiguous stretch of the streams of the
    messages the output has taken, and receives it in order, once each, but for the
    drops, all of which are counted. -/
theorem clients_streams {s : GrpcOutput}
    (h : Reach (grpcOutput render spec cfg depth cap) anyStep s) {k : Nat}
    {p : Pull (Option Octets)} (hp : s.server.pulls[k]? = some p) :
    p.fed <:+: emitted render spec s ∧ Streamed s k p :=
  ⟨((outputInv_of_reach h).2.clients k p hp).stretch, streamed_of_reach h hp⟩

/-- A server is started, a client comes, and a message is fed to it and received. -/
def serveRun (msg : DataMsg) : List OutputLabel :=
  [.block .prime, .block .retry, .block (.work 0 (.call true)), .block (.work 0 (.call true)),
    .block .wake, .client (.start "c1"), .produce msg, .take 0, .client (.visit (1, 0)),
    .client .push, .client .feedEnd, .client (.recv 0), .client (.send 0 true)]

def plainOutput : System GrpcOutput OutputLabel :=
  grpcOutput PipelineOutputPayloads.plainRender dataMsgStreamSpecDefault
    ⟨.gpbCompact, .gpbCompact, false, "", []⟩ 1 1

/-- Three messages: one received, one in the channel, and no room for the third. -/
def dropRun (msg : DataMsg) : List OutputLabel :=
  serveRun msg ++ [.produce msg, .take 0, .client (.visit (1, 0)), .client .push,
    .client .feedEnd, .produce msg, .take 0, .client (.visit (1, 0))]

theorem clients_streams_drop :
    ∃ s p, Reach plainOutput anyStep s ∧ s.server.pulls[0]? = some p ∧
      p.dataChan.rcvd = [some [0x7b, 0x7d]] ∧ p.drops = 1 ∧
      p.fed <:+: emitted PipelineOutputPayloads.plainRender dataMsgStreamSpecDefault s ∧
      Streamed s 0 p := by
  have hrun : ((exec plainOutput plainOutput.init
      (dropRun PipelineOutputDrain.queuedMsg)).bind (fun s => s.server.pulls[0]?)).map
        (fun p => (p.dataChan.rcvd, p.drops)) = some ([some [0x7b, 0x7d]], 1) := by
    decide +kernel
  obtain ⟨p, hp, hfacts⟩ := Option.map_eq_some_iff.mp hrun
  obtain ⟨s, he, hp⟩ := Option.bind_eq_some_iff.mp hp
  obtain ⟨hrcvd, hdrops⟩ := Prod.mk.inj hfacts
  have hs : Reach plainOutput anyStep s := reach_exec _ (fun _ _ _ => trivial) .init he
  exact ⟨s, p, hs, hp, hrcvd, hdrops, clients_streams hs hp⟩

/-! ## After the answer to SHUTDOWN -/

/-- When it has answered, no sticky loop is anywhere. -/
theorem not_at_of_acked (h : Reach (grpcOutput render spec cfg depth cap) anyStep s)
    (hacked : s.block.acked = true) (w : Stage) : ¬ At s.block w := by
  rintro ⟨k, c, hk⟩
  have hone := (Supervisor.inv_of_reach (shows_block.reach h)).oneWorker
  exact hone.quiet hacked _ (List.mem_of_getElem? hk) trivial

/-- What the clients were fed stays. -/
def SameFed (s t : GrpcOutput) : Prop :=
  t.inbox.taken = s.inbox.taken ∧
    ∀ (k : Nat) (p : Pull (Option Octets)), s.server.pulls[k]? = some p →
      ∃ q, t.server.pulls[k]? = some q ∧ q.fed = p.fed

theorem SameFed.trans {t u : GrpcOutput} (hst : SameFed s t) (htu : SameFed t u) : SameFed s u := by
  refine ⟨htu.1.trans hst.1, fun k p hp => ?_⟩
  obtain ⟨q, hq, hqp⟩ := hst.2 k p hp
  obtain ⟨r, hr, hrq⟩ := htu.2 k q hq
  exact ⟨r, hr, hrq.trans hqp⟩

theorem sameFed_of_eq {t : GrpcOutput} (htaken : t.inbox.taken = s.inbox.taken)
    (hserver : t.server = s.server) : SameFed s t :=
  ⟨htaken, fun _ p hp => ⟨p, by rw [hserver]; exact hp, rfl⟩⟩

theorem sameFed_of_step {t : GrpcOutput} (h : outStep depth s.server l = some t.server)
    (hl : feeds l = []) (htaken : t.inbox.taken = s.inbox.taken) : SameFed s t := by
  refine ⟨htaken, fun k p hp => ?_⟩
  have hlt : k < t.server.pulls.length :=
    Nat.lt_of_lt_of_le (List.getElem?_eq_some_iff.mp hp).1 (length_le_of_step h)
  have hq := List.getElem?_eq_getElem hlt
  refine ⟨_, hq, ?_⟩
  rw [fed_get h hp hq, hl, List.append_nil, ite_self]

/-- A step after the answer: nothing is taken and nobody is fed. -/
theorem acked_move {t : GrpcOutput} {l : OutputLabel}
    (hs : Reach (grpcOutput render spec cfg depth cap) anyStep s) (hacked : s.block.acked = true)
    (h : OutputMove render spec cfg depth s l t) : t.block.acked = true ∧ SameFed s t := by
  cases h with
  | filled htaken => exact ⟨hacked, sameFed_of_eq htaken rfl⟩
  | block _ hb => exact ⟨Supervisor.acked_step hb hacked, sameFed_of_eq rfl rfl⟩
  | collected _ hb _ =>
      obtain ⟨w, c, hk, -⟩ := Supervisor.work_of_step hb
      exact absurd ⟨_, c, hk⟩ (not_at_of_acked hs hacked w)
  | stopped _ hb _ =>
      obtain ⟨w, c, hk, -⟩ := Supervisor.work_of_step hb
      exact absurd ⟨_, c, hk⟩ (not_at_of_acked hs hacked w)
  | waited _ => exact ⟨hacked, sameFed_of_eq rfl rfl⟩
  | drained _ hb =>
      obtain ⟨w, c, hk, -⟩ := Supervisor.work_of_step hb
      exact absurd ⟨_, c, hk⟩ (not_at_of_acked hs hacked w)
  | @client l server hl hstep =>
      have hfeeds := feeds_of_client hl
      exact ⟨hacked, sameFed_of_step hstep hfeeds rfl⟩

/-- And whatever happens then. -/
theorem acked_run {t : GrpcOutput} (hs : Reach (grpcOutput render spec cfg depth cap) anyStep s)
    (hacked : s.block.acked = true)
    (ht : Reach (resume (grpcOutput render spec cfg depth cap) s) anyStep t) : SameFed s t := by
  have hrun := ht.invariant
    (I := fun u => Reach (grpcOutput render spec cfg depth cap) anyStep u ∧
      u.block.acked = true ∧ SameFed s u)
    ⟨hs, hacked, sameFed_of_eq rfl rfl⟩ ?_
  · exact hrun.2.2
  · rintro u l v ⟨hu, hua, hsu⟩ - hn
    have hstep : outputStep render spec cfg depth u l = some v := hn
    obtain ⟨hva, huv⟩ := acked_move hu hua (outputMove_of_step hstep)
    exact ⟨.next hu trivial hn, hva, hsu.trans huv⟩

/-- A client that has left with all it was fed but the drops, or is known to be
    broken. -/
def Drained (s : GrpcOutput) (k : Nat) (p : Pull (Option Octets)) : Prop :=
  p.pc = .returned ∧
    (k ∈ s.broken ∨
      (p.dataChan.rcvd.Sublist p.fed ∧ p.dataChan.rcvd.length + p.drops = p.fed.length))

/-- **SHUTDOWN IS ANSWERED WHEN THE CLIENTS ARE DRAINED**: from then on nothing is
    taken and nobody is fed, whatever happens; and if the last wait did not time out,
    every client there was when it began has left, with all it was fed but the drops,
    unless a send to it failed or it went away. -/
theorem clients_drained {s : GrpcOutput}
    (h : Reach (grpcOutput render spec cfg depth cap) anyStep s) (hacked : s.block.acked = true) :
    (∀ t, Reach (resume (grpcOutput render spec cfg depth cap) s) anyStep t → SameFed s t) ∧
      (s.leaving.timedOut = false → ∀ k p, k < s.leaving.clients →
        s.server.pulls[k]? = some p → Drained s k p) := by
  refine ⟨fun t ht => acked_run h hacked ht, fun hintime k p hk hp => ?_⟩
  obtain ⟨-, hinv⟩ := outputInv_of_reach h
  -- the wait came to its end, since no sticky loop is at it any more
  have hdone : s.leaving.waitDone = true := by
    rcases hinv.past with hat | htimed | hdone | hnone
    · exact absurd hat (not_at_of_acked h hacked _)
    · rw [hintime] at htimed
      cases htimed
    · exact hdone
    · omega
  have hpc := hinv.waited hdone k p hk hp
  have hfree : s.server.feeding = none := by
    by_contra hf
    exact not_at_of_acked h hacked _ (hinv.feeding hf)
  refine ⟨hpc, ?_⟩
  have hpast : Past p.pc := by
    rw [hpc]
    trivial
  refine ((hinv.clients k p hp).whole hpast).imp_right fun ⟨_, hbuf⟩ => ?_
  obtain ⟨hsub, hlen⟩ := streamed_of_reach h hp
  rw [OutServer.pending_free hfree, hbuf, List.append_nil, List.append_nil] at hsub
  rw [OutServer.pending_free hfree, hbuf, List.length_nil] at hlen
  exact ⟨hsub, by omega⟩

/-- A client that has one more message to come when SHUTDOWN comes. -/
def drainRun (msg : DataMsg) : List OutputLabel :=
  serveRun msg ++ [.produce msg, .take 0, .client (.visit (1, 0)), .client .push,
    .client .feedEnd, .request, .block .shutdown, .stop 0 .ctxDone [(1, 0)],
    .client (.recv 0), .client (.send 0 true), .client (.chanClosed 0), .client (.remove 0),
    .client (.done 0), .wait, .drain 0, .block (.work 0 (.call true)), .block .collect,
    .block .ack]

theorem clients_drained_one :
    ∃ s p, Reach plainOutput anyStep s ∧ s.block.acked = true ∧
      s.leaving.timedOut = false ∧ s.server.pulls[0]? = some p ∧
      p.dataChan.rcvd.length = 2 ∧ Drained s 0 p := by
  have hrun : (exec plainOutput plainOutput.init (drainRun PipelineOutputDrain.queuedMsg)).map
      (fun s => (s.block.acked, s.leaving.timedOut, s.leaving.clients,
        (s.server.pulls[0]?).map (fun p => p.dataChan.rcvd.length)))
      = some (true, false, 1, some 2) := by
    decide +kernel
  obtain ⟨s, he, hfacts⟩ := Option.map_eq_some_iff.mp hrun
  simp only [Prod.mk.injEq] at hfacts
  obtain ⟨hacked, hintime, hclients, hrcvd⟩ := hfacts
  obtain ⟨p, hp, hlen⟩ := Option.map_eq_some_iff.mp hrcvd
  have hs : Reach plainOutput anyStep s := reach_exec _ (fun _ _ _ => trivial) .init he
  refine ⟨s, p, hs, hacked, hintime, hp, hlen, ?_⟩
  exact (clients_drained hs hacked).2 hintime 0 p (by rw [hclients]; exact Nat.one_pos) hp

end PipelineGrpcOutput
