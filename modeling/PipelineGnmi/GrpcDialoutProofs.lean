import PipelineGnmi.GrpcSupervisorProofs
import PipelineGnmi.ProjectionProofs
import PipelineGnmi.RelayProofs

/-! # The gRPC input, dialed out to

    `grpcBlock.run` over `grpcLocalServer.stickyLoop` (`xport_grpc.go`), with the
    handlers `MdtDialout` of the routers that dialed in.  The gRPC server starts
    the handlers and nobody counts them.  A handler that waits for room in a data
    channel also waits for the context of a sticky loop: the one the field
    `control_ctx` held when it began to wait, which need not be its own.

    The handlers relay as the subscriptions do (`dialout_delivers`).  What differs
    is the end.  Stopping the server makes their receives fail, but does not wait
    for them: after the answer to SHUTDOWN the ones that were sending still may
    (`dialout_stirs_iff`), and SHUTDOWN lets go only of those that began to wait
    under the last sticky loop (`dialout_released_iff`). -/

namespace PipelineGrpcDialout

open GoChan Sweep Transition Quiescence Projection PipelineMessage PipelineGrpcSupervisor
open Relay hiding step Event
open Supervisor (Status Worker ctxDone ctxDone_step)

variable {M : Type}

/-! ## The handlers and their block -/

/-- `MdtDialoutArgs`, without the number that is only logged. -/
structure MdtDialoutArgs where
  data : Octets
  errors : String

/-- What `MdtDialout` makes of a message; errors count only where there is no data. -/
def handleArgs (codec : Codec M) (peer : MsgProducer) (reply : MdtDialoutArgs) : Option (List M) :=
  if reply.data.length = 0 ∧ reply.errors ≠ "" then none
  else
    match codec peer reply.data with
    | .error _ => none
    | .ok dMs => some (dMs.getD [])

/-- `MdtDialout`. -/
def mdtDialout (codec : Codec M) (peer : MsgProducer) : Manner MdtDialoutArgs M :=
  ⟨handleArgs codec peer, false⟩

/-- A handler: the sticky loop whose server started it, its peer, and the sticky
    loop whose context is in the select it waits in. -/
structure Handler (M : Type) where
  loop : Nat
  peer : MsgProducer
  selects : Option Nat
  stream : Relay.Stream MdtDialoutArgs M

/-- `grpcBlock` and `grpcLocalServer`; `controlCtx` is the field, by the sticky loop
    that set it. -/
structure Dialout (M : Type) where
  block : Supervisor.State Stage
  controlCtx : Option Nat
  handlers : List (Handler M)
  dataChans : List (Chan M)
  crashed : Bool

/-- The steps of the block and its sticky loops, a router that dials in, a handler
    that enters a select or goes on, and the stages downstream. -/
inductive DialoutLabel where
  | block (l : Supervisor.Label PipelineGrpcSupervisor.Event)
  | connect (k : Nat) (peer : MsgProducer)
  | enter (j : Nat)
  | handler (j : Nat) (ev : Relay.Event MdtDialoutArgs)
  | drain (i : Nat)

/-- The server of the sticky loop `k` was started and has not been stopped. -/
def serving (b : Supervisor.State Stage) (k : Nat) : Bool :=
  match b.workers[k]? with
  | some ⟨.running .accepting, _⟩ => true
  | some ⟨.running .stopping, _⟩ => true
  | _ => false

/-- Where a handler can take this step, as far as it is not for the channels to
    say: a receive fails once the server is stopped, and a send or a cancellation
    is an arm of a select. -/
def enabled (b : Supervisor.State Stage) (h : Handler M) : Relay.Event MdtDialoutArgs → Bool
  | .reply _ => serving b h.loop
  | .push _ => h.selects.isSome
  | .cancel => h.selects.isSome
  | _ => true

/-- The context in the select of a handler is cancelled. -/
def selectDone (b : Supervisor.State Stage) (h : Handler M) : Bool :=
  match h.selects with
  | some k => ctxDone b k
  | none => false

section Model

variable (decode : Encoding → Codec M) (cfg : GrpcConfig)

/-- `server.control_ctx = ctx`, once the codec was found. -/
def linksCtx (b : Supervisor.State Stage) :
    Supervisor.Label PipelineGrpcSupervisor.Event → Option Nat
  | .work k (.call _) =>
      match b.workers[k]? with
      | some ⟨.running .codec, _⟩ =>
          match getCodec decode cfg.encap with
          | .ok _ => some k
          | .error _ => none
      | _ => none
  | _ => none

/-- One step.  A select over a context that was never set is a crash. -/
def dialoutStep (s : Dialout M) (l : DialoutLabel) : Option (Dialout M) :=
  if s.crashed then none
  else match l with
  | .block l =>
      match Supervisor.step (localStickyLoop decode cfg) s.block l with
      | none => none
      | some b => some { s with
          block := b, controlCtx := (linksCtx decode cfg s.block l).or s.controlCtx }
  | .connect k peer =>
      if serving s.block k then
        some { s with
          handlers := s.handlers ++ [⟨k, peer, none, Stream.start s.dataChans.length⟩] }
      else none
  | .enter j =>
      match s.handlers[j]? with
      | none => none
      | some h =>
          match h.stream.pc, h.selects with
          | .pushing _ _, none =>
              match s.controlCtx with
              | some k => some { s with handlers := s.handlers.set j { h with selects := some k } }
              | none => some { s with crashed := true }
          | _, _ => none
  | .handler j ev =>
      match s.handlers[j]? with
      | none => none
      | some h =>
          if enabled s.block h ev then
            match Relay.step (mdtDialout (decode cfg.encap) h.peer) (selectDone s.block h)
              s.dataChans h.stream ev with
            | .blocked => none
            | .panic => some { s with crashed := true }
            | .ok (st, chans) => some { s with
                handlers := s.handlers.set j { h with selects := none, stream := st }
                dataChans := chans }
          else none
  | .drain i =>
      match s.dataChans[i]? with
      | none => none
      | some ch =>
          match ch.recv with
          | none => none
          | some (_, ch') => some { s with dataChans := s.dataChans.set i ch' }

/-- The block over data channels of these capacities. -/
def dialout (caps : List Nat) : System (Dialout M) DialoutLabel where
  init :=
    { block := (grpc decode cfg .dialout).init, controlCtx := none, handlers := []
      dataChans := caps.map Chan.make, crashed := false }
  next := dialoutStep decode cfg

/-! ## What a step can do -/

/-- The steps there are. -/
inductive DialoutMove (s : Dialout M) : DialoutLabel → Dialout M → Prop where
  | block {l : Supervisor.Label PipelineGrpcSupervisor.Event} {b : Supervisor.State Stage}
      (hb : Supervisor.step (localStickyLoop decode cfg) s.block l = some b) :
      DialoutMove s (.block l) { s with
        block := b, controlCtx := (linksCtx decode cfg s.block l).or s.controlCtx }
  | connected {k : Nat} {peer : MsgProducer} (hserving : serving s.block k = true) :
      DialoutMove s (.connect k peer) { s with
        handlers := s.handlers ++ [⟨k, peer, none, Stream.start s.dataChans.length⟩] }
  | entered {j k : Nat} {h : Handler M} {msgs : List M} {i : Nat} (hj : s.handlers[j]? = some h)
      (hpc : h.stream.pc = .pushing msgs i) (hsel : h.selects = none)
      (hctx : s.controlCtx = some k) :
      DialoutMove s (.enter j) { s with handlers := s.handlers.set j { h with selects := some k } }
  | nilCtx {j : Nat} {h : Handler M} (hj : s.handlers[j]? = some h)
      (hctx : s.controlCtx = none) : DialoutMove s (.enter j) { s with crashed := true }
  | pushPanic {j : Nat} {ev : Relay.Event MdtDialoutArgs} {h : Handler M}
      (hs : Relay.step (mdtDialout (decode cfg.encap) h.peer) (selectDone s.block h)
        s.dataChans h.stream ev = .panic) :
      DialoutMove s (.handler j ev) { s with crashed := true }
  | went {j : Nat} {ev : Relay.Event MdtDialoutArgs} {h : Handler M}
      {st : Relay.Stream MdtDialoutArgs M} {chans : List (Chan M)}
      (hj : s.handlers[j]? = some h) (hen : enabled s.block h ev = true)
      (hs : Relay.step (mdtDialout (decode cfg.encap) h.peer) (selectDone s.block h)
        s.dataChans h.stream ev = .ok (st, chans)) :
      DialoutMove s (.handler j ev) { s with
        handlers := s.handlers.set j { h with selects := none, stream := st }
        dataChans := chans }
  | drained {i : Nat} {x : M} {ch ch' : Chan M} (hch : s.dataChans[i]? = some ch)
      (hrecv : ch.recv = some (x, ch')) :
      DialoutMove s (.drain i) { s with dataChans := s.dataChans.set i ch' }

variable {decode cfg}
variable {l : DialoutLabel} {s t : Dialout M} {b : Supervisor.State Stage}

/-- **EVERY STEP IS ONE OF THESE**. -/
theorem dialoutMove_of_step (h : dialoutStep decode cfg s l = some t) :
    DialoutMove decode cfg s l t := by
  unfold dialoutStep at h
  split at h
  · cases h
  · split at h
    · split at h
      · cases h
      · next hb =>
          cases h
          exact .block hb
    · split at h
      · next hserving =>
          cases h
          exact .connected hserving
      · cases h
    · split at h
      · cases h
      · next x hj =>
          split at h
          · next hpc hsel =>
              split at h
              · next k hctx =>
                  cases h
                  exact .entered hj hpc hsel hctx
              · next hctx =>
                  cases h
                  exact .nilCtx hj hctx
          · cases h
    · split at h
      · cases h
      · next x hj =>
          split at h
          · next hen =>
              split at h
              · cases h
              · next hs =>
                  cases h
                  exact .pushPanic hs
              · next st chans hs =>
                  cases h
                  exact .went hj hen hs
          · cases h
    · split at h
      · cases h
      · next ch hch =>
          split at h
          · cases h
          · next hrecv =>
              cases h
              exact .drained hch hrecv

/-! ## The context of the handlers -/

/-- A sticky loop that has set `control_ctx`. -/
def Linked : Status Stage → Prop
  | .running .tls => True
  | .running .listen => True
  | .running .accepting => True
  | .running .stopping => True
  | _ => False

theorem linked_of_serving {k : Nat} (h : serving b k = true) :
    ∃ w, b.workers[k]? = some w ∧ Linked w.status ∧ w.status.Running := by
  unfold serving at h
  split at h
  · next hk => exact ⟨_, hk, trivial, trivial⟩
  · next hk => exact ⟨_, hk, trivial, trivial⟩
  · cases h

/-- A sticky loop sets it when it has found the codec. -/
theorem local_linked {c : Bool} {w : Stage} {e : PipelineGrpcSupervisor.Event}
    {o : Supervisor.Outcome Stage} (h : (localStickyLoop decode cfg).next c w e = some o)
    (ho : Linked o.status) : Linked (.running w) ∨
      (w = .codec ∧ (∃ ok, e = .call ok) ∧ ∃ codec, getCodec decode cfg.encap = .ok codec) := by
  simp only [localStickyLoop] at h
  split at h
  · split at h
    · cases h
      exact ho.elim
    · next codec hcodec => exact Or.inr ⟨rfl, ⟨_, rfl⟩, codec, hcodec⟩
  · exact Or.inl trivial
  · exact Or.inl trivial
  · exact Or.inl trivial
  · exact Or.inl trivial
  · exact Or.inl trivial
  · cases h

theorem or_ne_none {a b : Option Nat} (h : b ≠ none) : a.or b ≠ none := by
  cases a with
  | none => exact h
  | some k => exact Option.some_ne_none k

/-- The field stays set for every sticky loop that has come that far. -/
theorem linked_step {b' : Supervisor.State Stage}
    {l : Supervisor.Label PipelineGrpcSupervisor.Event} {ctx : Option Nat}
    (hb : Supervisor.step (localStickyLoop decode cfg) b l = some b')
    (hs : ∀ (k : Nat) (w : Worker Stage), b.workers[k]? = some w → Linked w.status → ctx ≠ none) :
    ∀ (k : Nat) (w : Worker Stage), b'.workers[k]? = some w → Linked w.status →
      (linksCtx decode cfg b l).or ctx ≠ none := by
  refine Supervisor.workers_step (p := fun _ st => Linked st → ctx ≠ none)
    (q := fun _ st => Linked st → (linksCtx decode cfg b l).or ctx ≠ none) hb hs
    (fun _ _ _ h hst => or_ne_none (h hst)) (fun h => h.elim) (fun _ _ _ h => h.elim) ?_
  rintro k e w c o rfl hk hn hw ho
  rcases local_linked hn ho with hlinked | ⟨rfl, ⟨ok, rfl⟩, codec, hcodec⟩
  · exact or_ne_none (hw hlinked)
  · have hlinks : linksCtx decode cfg b (.work k (.call ok)) = some k := by
      simp only [linksCtx, hk, hcodec]
    rw [hlinks]
    exact Option.some_ne_none k

/-! ## The invariant -/

/-- SHUTDOWN was taken. -/
def shut (b : Supervisor.State Stage) : Bool := decide b.Shut

theorem shut_step {prog : Supervisor.Program Stage PipelineGrpcSupervisor.Event}
    {b' : Supervisor.State Stage} {l : Supervisor.Label PipelineGrpcSupervisor.Event}
    (h : Supervisor.step prog b l = some b') (hb : shut b = true) : shut b' = true :=
  decide_eq_true (Supervisor.shut_step h (of_decide_eq_true hb))

variable (decode cfg)

/-- What holds in every state of the block: the books of every handler over the `n`
    channels, what the channels carry, and that the field was set before there was
    a handler to read it. -/
structure Inv (n : Nat) (s : Dialout M) : Prop where
  length : s.dataChans.length = n
  agrees : ∀ h ∈ s.handlers, Agrees (mdtDialout (decode cfg.encap) h.peer) n (shut s.block)
    h.stream
  accounts : Accounts Stream.out s.dataChans (s.handlers.map Handler.stream)
  opened : AllOpen s.dataChans
  linked : ∀ (k : Nat) (w : Worker Stage), s.block.workers[k]? = some w → Linked w.status →
    s.controlCtx ≠ none
  used : s.handlers ≠ [] → s.controlCtx ≠ none
  safe : s.crashed = false

variable {decode cfg}

theorem inv_init (caps : List Nat) : Inv decode cfg caps.length (dialout decode cfg caps).init :=
  ⟨List.length_map .., fun _ h => absurd h List.not_mem_nil, accounts_make _ caps,
    allOpen_make caps, fun _ _ h => (by cases h), fun h => absurd rfl h, rfl⟩

/-- A context that is cancelled was so by SHUTDOWN. -/
theorem shut_of_selectDone (hb : Supervisor.CancelsLast b) {h : Handler M}
    (hdone : selectDone b h = true) : shut b = true := by
  unfold selectDone at hdone
  split at hdone
  · exact decide_eq_true ((hb _).mp hdone).2
  · cases hdone

/-- What a step of a handler does to the books and the channels. -/
theorem Inv.relay {n : Nat} (hs : Inv decode cfg n s) (hb : Supervisor.CancelsLast s.block)
    {j : Nat} {h : Handler M} {ev : Relay.Event MdtDialoutArgs} {st : Relay.Stream MdtDialoutArgs M}
    {chans : List (Chan M)} (hj : s.handlers[j]? = some h)
    (hstep : Relay.step (mdtDialout (decode cfg.encap) h.peer) (selectDone s.block h)
      s.dataChans h.stream ev = .ok (st, chans)) :
    Inv decode cfg n { s with
      handlers := s.handlers.set j { h with selects := none, stream := st }
      dataChans := chans } := by
  have hmem := List.mem_of_getElem? hj
  have hagrees := hs.agrees h hmem
  rw [← hs.length] at hagrees
  -- it does not look at the context, so it might as well be cancelled
  have hlooks : (mdtDialout (decode cfg.encap) h.peer).looks = false := rfl
  have hstep' := step_cancel hlooks (shut_of_selectDone hb) hstep
  have hget : (s.handlers.map Handler.stream)[j]? = some h.stream := by
    rw [List.getElem?_map, hj]
    rfl
  obtain ⟨hlen, hnew, haccounts⟩ := hs.accounts.relay hget hagrees hstep'
  refine ⟨hlen.trans hs.length, fun x hx => ?_, ?_, hagrees.opened hs.opened hstep', hs.linked,
    fun _ => hs.used (List.ne_nil_of_mem hmem), hs.safe⟩
  · rcases List.mem_or_eq_of_mem_set hx with hx | rfl
    · exact hs.agrees x hx
    · rw [← hs.length]
      exact hnew
  · show Accounts Stream.out chans ((s.handlers.set j _).map _)
    rw [List.map_set]
    exact haccounts

/-- **EVERY STEP KEEPS THE INVARIANT**. -/
theorem Inv.move {n : Nat} (hs : Inv decode cfg n s) (hb : Supervisor.CancelsLast s.block)
    (h : DialoutMove decode cfg s l t) : Inv decode cfg n t := by
  cases h with
  | block hstep =>
      exact ⟨hs.length, fun x hx => (hs.agrees x hx).cancel (shut_step hstep), hs.accounts,
        hs.opened, linked_step hstep hs.linked, fun hne => or_ne_none (hs.used hne), hs.safe⟩
  | connected hserving =>
      refine ⟨hs.length, fun x hx => ?_, ?_, hs.opened, hs.linked, fun _ => ?_, hs.safe⟩
      · rcases List.mem_append.mp hx with hx | hx
        · exact hs.agrees x hx
        · rw [List.mem_singleton.mp hx, ← hs.length]
          exact agrees_start _ _ _
      · show Accounts Stream.out s.dataChans ((s.handlers ++ [_]).map _)
        rw [List.map_append]
        exact hs.accounts.join rfl
      · obtain ⟨w, hw, hlinked, -⟩ := linked_of_serving hserving
        exact hs.linked _ w hw hlinked
  | @entered j k h msgs i hj hpc hsel hctx =>
      have hmem := List.mem_of_getElem? hj
      refine ⟨hs.length, fun x hx => ?_, ?_, hs.opened, hs.linked,
        fun _ => hs.used (List.ne_nil_of_mem hmem), hs.safe⟩
      · rcases List.mem_or_eq_of_mem_set hx with hx | rfl
        · exact hs.agrees x hx
        · exact hs.agrees h hmem
      · show Accounts Stream.out s.dataChans ((s.handlers.set j _).map Handler.stream)
        have hsame : (s.handlers.set j { h with selects := some k }).map Handler.stream
            = s.handlers.map Handler.stream := map_set_of_eq hj rfl
        rw [hsame]
        exact hs.accounts
  | nilCtx hj hctx => exact absurd hctx (hs.used (List.ne_nil_of_mem (List.mem_of_getElem? hj)))
  | pushPanic hpanic => exact absurd hpanic (hs.accounts.step_ne_panic _ _)
  | went hj hen hstep => exact hs.relay hb hj hstep
  | drained hch hrecv =>
      exact ⟨(List.length_set ..).trans hs.length, hs.agrees, hs.accounts.recv hch hrecv,
        hs.opened.recv hch hrecv, hs.linked, hs.used, hs.safe⟩

variable {caps : List Nat}

/-- The block inside is the block on its own. -/
theorem shows_block : Shows (dialout decode cfg caps) (grpc decode cfg .dialout) Dialout.block := by
  refine ⟨rfl, fun hn => ?_⟩
  cases dialoutMove_of_step hn with
  | block hb => exact Or.inr ⟨_, hb⟩
  | _ => exact Or.inl rfl

theorem inv_of_reach (h : Reach (dialout decode cfg caps) anyStep s) :
    Inv decode cfg caps.length s := by
  have hall : Reach (dialout decode cfg caps) anyStep s ∧ Inv decode cfg caps.length s := by
    refine h.invariant (I := fun s => Reach (dialout decode cfg caps) anyStep s ∧
      Inv decode cfg caps.length s) ⟨.init, inv_init caps⟩ ?_
    rintro u l v ⟨hreach, hu⟩ _ hn
    have hcancels := Supervisor.cancelsLast_of_reach (shows_block.reach hreach)
    exact ⟨.next hreach trivial hn, hu.move hcancels (dialoutMove_of_step hn)⟩
  exact hall.2

/-! ## What is delivered -/

variable (decode cfg)

/-- What the data channels get: from each handler, on every channel, a beginning of
    what its messages are worth, all of it unless SHUTDOWN was taken or it is still
    sending; and on a channel an interleaving of these, nothing else. -/
structure Relayed (n : Nat) (s : Dialout M) : Prop where
  safe : s.crashed = false
  length : s.dataChans.length = n
  each : ∀ h ∈ s.handlers,
    Delivered (mdtDialout (decode cfg.encap) h.peer) n (shut s.block) h.stream
  channel : ∀ (i : Nat) (ch : Chan M), s.dataChans[i]? = some ch →
    ∃ log, ch.Carries log false ∧ Interleaves log
      ((s.handlers.map Handler.stream).map (fun st => st.out.getD i []))

/-- **EVERY ROUTER IS RELAYED AS IF IT WERE ALONE**, in every run, over however many
    restarts of the server, and nothing the routers do can crash the block. -/
theorem dialout_delivers (caps : List Nat) {s : Dialout M}
    (h : Reach (dialout decode cfg caps) anyStep s) : Relayed decode cfg caps.length s := by
  have hs := inv_of_reach h
  exact ⟨hs.safe, hs.length, fun x hx => (hs.agrees x hx).delivered, hs.accounts⟩

/-- A server without credentials. -/
def plainServer : GrpcConfig := ⟨.gpbCompact, .gpbCompact, false, "", []⟩

/-- The server is started and two routers dial in. -/
def serveRun : List DialoutLabel :=
  [.block .prime, .block .retry, .block (.work 0 (.call true)), .block (.work 0 (.call true)),
    .block (.work 0 (.call true)), .block .wake, .connect 0 "r1", .connect 0 "r2"]

/-- Both send, and their messages meet in a channel of one place. -/
def meetRun : List DialoutLabel :=
  serveRun ++ [.handler 0 (.reply ⟨[1], ""⟩), .handler 1 (.reply ⟨[2], ""⟩), .enter 1, .enter 0,
    .handler 1 (.push false), .drain 0, .handler 0 (.push false)]

theorem dialout_delivers_two :
    ∃ s, Reach (dialout wholeBlocks plainServer [1]) anyStep s ∧
      s.handlers.map (fun h => h.stream.out) = [[[[1]]], [[[2]]]] ∧
      Relayed wholeBlocks plainServer 1 s := by
  have hs := reach_exec (S := dialout wholeBlocks plainServer [1]) meetRun
    (fun _ _ _ => trivial) (P := anyStep) .init rfl
  exact ⟨_, hs, rfl, dialout_delivers _ _ _ hs⟩

/-! ## After the answer to SHUTDOWN -/

variable {decode cfg}

/-- The block has answered SHUTDOWN. -/
def Acked (s : Dialout M) : Prop := s.block.acked = true

/-- Some handler has a message in hand. -/
def Pushing (s : Dialout M) : Prop := ∃ h ∈ s.handlers, ∃ msgs i, h.stream.pc = .pushing msgs i

/-- When it has answered, no server runs. -/
theorem serving_of_acked (hone : Supervisor.OneWorker b) (ha : b.acked = true) (k : Nat) :
    serving b k = false := by
  cases hk : serving b k with
  | false => rfl
  | true =>
      obtain ⟨w, hw, -, hrun⟩ := linked_of_serving hk
      exact absurd hrun (hone.quiet ha w (List.mem_of_getElem? hw))

/-- A step after the answer, when nobody has a message in hand. -/
theorem silent_step (hone : Supervisor.OneWorker s.block) (ha : Acked s) (hnot : ¬ Pushing s)
    (hmove : DialoutMove decode cfg s l t) :
    Acked t ∧ ¬ Pushing t ∧ sent t.dataChans = sent s.dataChans := by
  cases hmove with
  | block hb => exact ⟨Supervisor.acked_step hb ha, hnot, rfl⟩
  | connected hserving =>
      rw [serving_of_acked hone ha] at hserving
      cases hserving
  | entered hj hpc hsel hctx =>
      exact absurd ⟨_, List.mem_of_getElem? hj, _, _, hpc⟩ hnot
  | nilCtx hj hctx => exact ⟨ha, hnot, rfl⟩
  | pushPanic hpanic => exact ⟨ha, hnot, rfl⟩
  | @went j ev h st chans hj hen hstep =>
      have hpc : ∀ msgs i, h.stream.pc ≠ .pushing msgs i :=
        fun msgs i hpc => hnot ⟨h, List.mem_of_getElem? hj, msgs, i, hpc⟩
      have hev : ∀ r, ev ≠ .reply r := by
        rintro r rfl
        rw [enabled, serving_of_acked hone ha] at hen
        cases hen
      obtain ⟨rfl, hpc'⟩ := step_idle hpc hev hstep
      refine ⟨ha, ?_, rfl⟩
      rintro ⟨x, hx, msgs, i, hxpc⟩
      rcases List.mem_or_eq_of_mem_set hx with hx | rfl
      · exact hnot ⟨x, hx, msgs, i, hxpc⟩
      · exact hpc' msgs i hxpc
  | drained hch hrecv => exact ⟨ha, hnot, sent_recv hch hrecv⟩

variable (decode cfg caps) in
/-- The handler `j` waits in a select with the message `msg` for the channel `i`. -/
def Holds (j i : Nat) (msg : M) (s : Dialout M) : Prop :=
  Reach (dialout decode cfg caps) anyStep s ∧ ∃ h rest k, s.handlers[j]? = some h ∧
    h.stream.pc = .pushing (msg :: rest) i ∧ h.selects = some k

/-- What a handler waits with in a select gets out. -/
theorem stirs_of_holds {j i : Nat} {msg : M} (hi : i < caps.length)
    (h : Holds decode cfg caps j i msg s) :
    Stirs (dialout decode cfg caps) Dialout.dataChans s := by
  refine stirs_of_held (H := Holds decode cfg caps j i msg)
    (i := i) (m := msg) ?_ ?_ ?_ h
  · rintro u ⟨hu, -⟩
    have hinv := inv_of_reach hu
    exact ⟨hinv.opened, hinv.length ▸ hi⟩
  · rintro u ch x ch' ⟨hu, hheld⟩ hch hrecv
    have hstep : (dialout decode cfg caps).next u (.drain i)
        = some { u with dataChans := u.dataChans.set i ch' } := by
      simp only [dialout, dialoutStep, (inv_of_reach hu).safe, hch, hrecv]
      rfl
    exact ⟨.drain i, _, hstep, rfl, .next hu trivial hstep, hheld⟩
  · rintro u ch ch' ⟨hu, x, rest, k, hj, hpc, hsel⟩ hch hsend
    obtain ⟨st, hst⟩ := step_push (mdtDialout (decode cfg.encap) x.peer)
      (selectDone u.block x) hpc hch hsend
    have hen : enabled u.block x (.push true) = true := by
      rw [enabled, hsel]
      rfl
    refine ⟨.handler j (.push true), { u with
      handlers := u.handlers.set j { x with selects := none, stream := st }
      dataChans := u.dataChans.set i ch' }, ?_, rfl⟩
    simp only [dialout, dialoutStep, (inv_of_reach hu).safe, hj, hen, hst]
    rfl

variable (decode cfg)

/-- **THE ANSWER TO SHUTDOWN DOES NOT WAIT FOR THE HANDLERS**: after it something
    may still be sent on a data channel, exactly if one of the handlers has a
    message in hand when the block answers. -/
theorem dialout_stirs_iff (caps : List Nat) {s : Dialout M}
    (hs : Reach (dialout decode cfg caps) anyStep s) (ha : Acked s) :
    Stirs (dialout decode cfg caps) Dialout.dataChans s ↔ Pushing s := by
  constructor
  · rintro ⟨t, ht, hne⟩
    by_contra hnot
    refine hne ?_
    have hall : Reach (dialout decode cfg caps) anyStep t ∧ Acked t ∧ ¬ Pushing t ∧
        sent t.dataChans = sent s.dataChans := by
      refine ht.invariant (I := fun u => Reach (dialout decode cfg caps) anyStep u ∧ Acked u ∧
        ¬ Pushing u ∧ sent u.dataChans = sent s.dataChans) ⟨hs, ha, hnot, rfl⟩ ?_
      rintro u l v ⟨hu, hau, hnu, hsame⟩ _ hn
      have hone := (Supervisor.inv_of_reach (shows_block.reach hu)).oneWorker
      obtain ⟨hav, hnv, heq⟩ := silent_step hone hau hnu (dialoutMove_of_step hn)
      exact ⟨.next hu trivial hn, hav, hnv, heq.trans hsame⟩
    exact hall.2.2.2
  · rintro ⟨h, hmem, msgs, i, hpc⟩
    have hinv := inv_of_reach hs
    obtain ⟨j, hj⟩ := List.mem_iff_getElem?.mp hmem
    have hagrees := hinv.agrees h hmem
    rw [Agrees, hpc] at hagrees
    obtain ⟨-, hi, ⟨msg, rest, rfl⟩, -⟩ := hagrees
    cases hsel : h.selects with
    | some k => exact stirs_of_holds hi ⟨hs, h, rest, k, hj, hpc, hsel⟩
    | none =>
        -- it is about to enter the select
        obtain ⟨k, hk⟩ := Option.ne_none_iff_exists'.mp (hinv.used (List.ne_nil_of_mem hmem))
        have hstep : (dialout decode cfg caps).next s (.enter j)
            = some { s with handlers := s.handlers.set j { h with selects := some k } } := by
          simp only [dialout, dialoutStep, hinv.safe, hj, hpc, hsel, hk]
          rfl
        have hlt : j < s.handlers.length := (List.getElem?_eq_some_iff.mp hj).1
        have hholds : Holds decode cfg caps j i msg
            { s with handlers := s.handlers.set j { h with selects := some k } } :=
          ⟨.next hs trivial hstep, _, rest, k, List.getElem?_set_self hlt, hpc, rfl⟩
        exact Stirs.of_step hstep rfl (stirs_of_holds hi hholds)

/-- A handler waits for room, SHUTDOWN comes, and the block answers. -/
def answeredRun : List DialoutLabel :=
  serveRun ++ [.handler 0 (.reply ⟨[1], ""⟩), .enter 0, .block .shutdown,
    .block (.work 0 .ctxDone), .block (.work 0 (.call true)), .block .collect, .block .ack]

theorem dialout_stirs_answered :
    ∃ s, Reach (dialout wholeBlocks plainServer [0]) anyStep s ∧ Acked s ∧
      Stirs (dialout wholeBlocks plainServer [0]) Dialout.dataChans s := by
  have hs := reach_exec (S := dialout wholeBlocks plainServer [0]) answeredRun
    (fun _ _ _ => trivial) (P := anyStep) .init rfl
  exact ⟨_, hs, rfl, (dialout_stirs_iff _ _ _ hs rfl).mpr
    ⟨_, List.mem_cons_self .., [[1]], 0, rfl⟩⟩

/-! ## Who is let go -/

/-- **SHUTDOWN LETS GO OF THE HANDLERS OF THE LAST SERVER ONLY**: a handler that
    waits for room in a data channel can give up exactly if SHUTDOWN was taken and
    no sticky loop was started since the one whose context it waits for. -/
theorem dialout_released_iff (caps : List Nat) {s : Dialout M}
    (hs : Reach (dialout decode cfg caps) anyStep s) {j i k : Nat} {h : Handler M}
    {msgs : List M} (hj : s.handlers[j]? = some h) (hpc : h.stream.pc = .pushing msgs i)
    (hsel : h.selects = some k) :
    (∃ t, (dialout decode cfg caps).next s (.handler j .cancel) = some t) ↔
      shut s.block = true ∧ k + 1 = s.block.workers.length := by
  have hlast : ctxDone s.block k = true ↔ k + 1 = s.block.workers.length ∧ s.block.Shut :=
    Supervisor.cancelsLast_of_reach (shows_block.reach hs) k
  have hen : enabled s.block h .cancel = true := by
    rw [enabled, hsel]
    rfl
  have hdone : selectDone s.block h = ctxDone s.block k := by
    rw [selectDone, hsel]
  have hnext : (dialout decode cfg caps).next s (.handler j .cancel)
      = if ctxDone s.block k then some { s with
          handlers := s.handlers.set j
            { h with selects := none, stream := { h.stream with pc := .returned } } }
        else none := by
    simp only [dialout, dialoutStep, (inv_of_reach hs).safe, hj, hen, hdone, Relay.step, hpc]
    cases ctxDone s.block k <;> rfl
  rw [hnext, shut, decide_eq_true_iff, and_comm, ← hlast]
  cases ctxDone s.block k with
  | true => exact ⟨fun _ => rfl, fun _ => ⟨_, rfl⟩⟩
  | false =>
      refine iff_of_false ?_ Bool.false_ne_true
      rintro ⟨t, ht⟩
      cases ht

/-- A handler waits for room when accepting fails; the server is started again, and
    then SHUTDOWN comes. -/
def strandedRun : List DialoutLabel :=
  serveRun ++ [.handler 0 (.reply ⟨[1], ""⟩), .enter 0, .block (.work 0 .acceptFailed),
    .block (.work 0 (.call true)), .block .retry, .block .wake, .block .shutdown]

theorem dialout_released_not_stranded :
    ∃ s, Reach (dialout wholeBlocks plainServer [0]) anyStep s ∧ shut s.block = true ∧
      ¬ ∃ t, (dialout wholeBlocks plainServer [0]).next s (.handler 0 .cancel) = some t := by
  have hs := reach_exec (S := dialout wholeBlocks plainServer [0]) strandedRun
    (fun _ _ _ => trivial) (P := anyStep) .init rfl
  refine ⟨_, hs, rfl, fun h => ?_⟩
  have hlast := ((dialout_released_iff _ _ _ hs (j := 0) (k := 0) rfl rfl rfl).mp h).2
  cases hlast

end Model

end PipelineGrpcDialout
