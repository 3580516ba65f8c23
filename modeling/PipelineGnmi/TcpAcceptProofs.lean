import PipelineGnmi.TcpServerProofs

/-! # The accept loop of the TCP server

    `acceptTCPConnections` of `xport_tcp.go` calls Accept, looks whether it was
    cancelled meanwhile, and starts a handler.  A failed Accept is logged and
    slept over; nothing then takes the loop back to its top, and a handler is
    started with the nil connection, which brings the process down.

    Beside the server a history has the connections that were accepted before
    cancellation.  Each of them gets one handler and nothing else does, as long
    as no Accept fails before cancellation and cancellation does not fall
    between an Accept and the look behind it (`accept_handles`).  The wait group
    is right in any case. -/

namespace PipelineTcpAccept

open GoChan Transition PipelineMessage PipelineEncapSt
open PipelineTcpServer hiding Settled

variable {M : Type}

/-! ## The wait group -/

/-- The handler has not returned. -/
def running : HandlerPc M → Bool
  | .finished => false
  | _ => true

/-- A step of a handler as the accept loop and the wait group see it: it goes on
    to `pc`, and is counted out if that is the end. -/
structure Turn (s : ServerTCP M) (h : Nat) (hd : Handler M) (pc : HandlerPc M)
    (t : ServerTCP M) : Prop where
  handlers : t.handlers = s.handlers.set h { hd with pc := pc }
  group : t.connectionGroup = if running pc = true then s.connectionGroup
    else s.connectionGroup - 1
  ctrl : t.ctrl = s.ctrl
  acceptor : t.acceptor = s.acceptor
  cancelConn : t.cancelConn = s.cancelConn
  crashed : t.crashed = s.crashed

section Turns

variable (s : ServerTCP M) (h : Nat) (hd : Handler M)

theorem turn_finish : Turn s h hd .finished (finish s h hd) :=
  ⟨rfl, rfl, rfl, rfl, rfl, rfl⟩

variable (parser : EncapSTParser M)

theorem turn_awaitBlock : ∃ pc, Turn s h hd pc (awaitBlock s h hd parser) := by
  unfold awaitBlock
  split
  · exact ⟨_, turn_finish s h hd⟩
  · split
    · exact ⟨_, turn_finish s h hd⟩
    · exact ⟨.reading parser _ .pending, rfl, rfl, rfl, rfl, rfl, rfl⟩

theorem turn_goOn (msgs : List M) (i : Nat) : ∃ pc, Turn s h hd pc (goOn s h hd parser msgs i) := by
  unfold goOn
  split
  · exact turn_awaitBlock s h hd parser
  · exact ⟨.delivering parser _ _, rfl, rfl, rfl, rfl, rfl, rfl⟩

theorem turn_handleBlock (buffer : Octets) :
    ∃ pc, Turn s h hd pc (handleBlock s h hd parser buffer) := by
  unfold handleBlock
  split
  · exact ⟨_, turn_finish s h hd⟩
  · exact turn_awaitBlock s h hd _
  · exact turn_goOn s h hd _ _ 0

end Turns

/-- What a step of a handler that has not returned comes to: the process is
    down, for the want of a connection or for a closed channel, or the handler
    goes on. -/
inductive Outcome (s : ServerTCP M) (h : Nat) (hd : Handler M) (t : ServerTCP M) : Prop where
  | nilConn (hconn : hd.conn = none) (ht : t = { s with crashed := true })
  | closedChan {i : Nat} {ch : Chan M} {msg : M} {receiver : Bool}
      (hch : s.dataChans[i]? = some ch) (hpanic : ch.send msg receiver = .panic)
      (ht : t = { s with crashed := true })
  | turn {pc : HandlerPc M} (hturn : Turn s h hd pc t)

variable {name encap : String} {t s : ServerTCP M} {decode : Encoding → Codec M}
  {accepted : List MsgProducer}

/-- **THE TURN OF A HANDLER**. -/
theorem outcome_of_handlerStep {h : Nat} {hd : Handler M} {ev : HandlerEvent}
    (hstep : handlerStep decode name encap s h hd ev = some t) :
    running hd.pc = true ∧ Outcome s h hd t := by
  unfold handlerStep at hstep
  split at hstep
  · next hpc =>
      refine ⟨by rw [hpc]; rfl, ?_⟩
      split at hstep
      · next hconn =>
          cases hstep
          exact .nilConn hconn rfl
      · split at hstep
        · cases hstep
          exact .turn (turn_finish s h hd)
        · next parser _ =>
            cases hstep
            obtain ⟨pc, hturn⟩ := turn_awaitBlock s h hd parser
            exact .turn hturn
  · next hpc =>
      refine ⟨by rw [hpc]; rfl, ?_⟩
      split at hstep
      · cases hstep
        exact .turn ⟨rfl, rfl, rfl, rfl, rfl, rfl⟩
      · cases hstep
  · next hpc =>
      cases hstep
      exact ⟨by rw [hpc]; rfl, .turn ⟨rfl, rfl, rfl, rfl, rfl, rfl⟩⟩
  · next hpc =>
      refine ⟨by rw [hpc]; rfl, ?_⟩
      split at hstep
      · cases hstep
        exact .turn (turn_finish s h hd)
      · cases hstep
  · next hpc =>
      cases hstep
      exact ⟨by rw [hpc]; rfl, .turn (turn_finish s h hd)⟩
  · next parser _ buffer hpc =>
      cases hstep
      obtain ⟨pc, hturn⟩ := turn_handleBlock s h hd parser buffer
      exact ⟨by rw [hpc]; rfl, .turn hturn⟩
  · next parser msg rest i hpc =>
      refine ⟨by rw [hpc]; rfl, ?_⟩
      unfold sendNext at hstep
      split at hstep
      · cases hstep
      · next ch hch =>
          split at hstep
          · next ch' _ =>
              cases hstep
              obtain ⟨pc, hturn⟩ := turn_goOn { s with dataChans := s.dataChans.set i ch' } h hd
                parser (msg :: rest) (i + 1)
              exact .turn ⟨hturn.handlers, hturn.group, hturn.ctrl, hturn.acceptor,
                hturn.cancelConn, hturn.crashed⟩
          · cases hstep
          · next hpanic =>
              cases hstep
              exact .closedChan hch hpanic rfl
  · cases hstep

/-- `connectionGroup` counts the handlers that have not returned. -/
def Counts (s : ServerTCP M) : Prop :=
  s.connectionGroup = s.handlers.countP (fun hd => running hd.pc)

theorem Turn.counts {h : Nat} {hd : Handler M} {pc : HandlerPc M} (hturn : Turn s h hd pc t)
    (hs : Counts s) (hhd : s.handlers[h]? = some hd) (hrun : running hd.pc = true) : Counts t := by
  obtain ⟨hlt, hget⟩ := List.getElem?_eq_some_iff.mp hhd
  unfold Counts at hs ⊢
  rw [hturn.group, hturn.handlers, List.countP_set hlt, hget, hrun, if_pos rfl, ← hs]
  have hpos : 0 < s.connectionGroup := by
    rw [hs, List.countP_pos_iff]
    exact ⟨hd, List.mem_of_getElem? hhd, hrun⟩
  cases hpc : running pc with
  | true =>
      rw [if_pos rfl, if_pos rfl]
      omega
  | false => rfl

theorem counts_step {l : TcpLabel} (hs : Counts s)
    (hstep : tcpStep decode name encap s l = some t) : Counts t := by
  cases (steps_of_tcpStep hstep).2 with
  | acceptor hacc =>
      cases accepts_of_acceptorStep hacc with
      | kept acceptor _ ht =>
          rw [ht]
          exact hs
      | spawned conn _ ht =>
          rw [ht]
          show s.connectionGroup + 1 = _
          rw [List.countP_append, ← hs]
          rfl
  | handler hhd hev =>
      obtain ⟨hrun, hout⟩ := outcome_of_handlerStep hev
      cases hout with
      | nilConn _ ht =>
          rw [ht]
          exact hs
      | closedChan _ _ ht =>
          rw [ht]
          exact hs
      | turn hturn => exact hturn.counts hs hhd hrun
  | _ => exact hs

/-- A loop that waits gets past `Wait` exactly if every handler has returned. -/
theorem Counts.waitsForAll (hs : Counts s) (hwait : s.acceptor = .waiting) (hup : s.crashed = false)
    (decode : Encoding → Codec M) (name encap : String) :
    (∃ t, tcpStep decode name encap s (.acceptor .groupDone) = some t) ↔
      ∀ hd ∈ s.handlers, running hd.pc = false := by
  have hzero : s.connectionGroup = 0 ↔ ∀ hd ∈ s.handlers, running hd.pc = false := by
    rw [hs, List.countP_eq_zero]
    simp only [Bool.not_eq_true]
  rw [← hzero]
  simp [tcpStep, acceptorStep, hwait, hup]

/-! ## One handler for each connection -/

/-- A connection that was accepted before cancellation is remembered. -/
def recordAccept (s : ServerTCP M) (l : TcpLabel) (accepted : List MsgProducer) :
    List MsgProducer :=
  match l with
  | .acceptor (.accept conn) => if s.cancelConn = true then accepted else accepted ++ [conn]
  | _ => accepted

/-- The server with the connections accepted before cancellation. -/
def acceptServer (decode : Encoding → Codec M) (name encap : String) (caps : List Nat) :
    System (ServerTCP M × List MsgProducer) TcpLabel :=
  withHistory (tcpServer decode name encap caps) [] recordAccept

/-- The connection the loop has in hand, to start a handler with. -/
def inHand (cancelled : Bool) : Acceptor → List (Option MsgProducer)
  | .accepted (some conn) => if cancelled = true then [] else [some conn]
  | .spawning (some conn) => [some conn]
  | _ => []

/-- `handleConnection` was called once for each connection accepted before
    cancellation, but for the one in hand, in their order, and not otherwise. -/
def Handles (s : ServerTCP M) (accepted : List MsgProducer) : Prop :=
  s.handlers.map Handler.conn ++ inHand s.cancelConn s.acceptor = accepted.map some

/-- An Accept that failed is found cancelled, and cancellation does not overtake
    a connection between Accept and the look behind it. -/
def Settled (s : ServerTCP M) : TcpLabel → Prop
  | .acceptor .checkCancelled => s.acceptor = .accepted none → s.cancelConn = true
  | .ctrl .shutdown => s.ctrl = .serving → ∀ conn, s.acceptor ≠ .accepted (some conn)
  | _ => True

/-- Where a settled run leaves the server: up, and not about to start a handler
    without a connection. -/
structure Sane (s : ServerTCP M) (accepted : List MsgProducer) : Prop where
  handles : Handles s accepted
  awake : s.acceptor ≠ .sleeping
  connected : s.acceptor ≠ .spawning none
  up : s.crashed = false
  serving : s.ctrl = .serving → s.cancelConn = false

/-- A server that handles what it accepts has a connection for every handler. -/
theorem Handles.connected (hs : Handles s accepted) {hd : Handler M} (hmem : hd ∈ s.handlers) :
    hd.conn ≠ none := by
  have hin : hd.conn ∈ accepted.map some := by
    rw [← hs]
    exact List.mem_append_left _ (List.mem_map_of_mem hmem)
  obtain ⟨conn, -, hconn⟩ := List.mem_map.mp hin
  rw [← hconn]
  exact Option.some_ne_none conn

/-- A step that the accept loop does not notice. -/
theorem Sane.same (hs : Sane s accepted)
    (hconns : t.handlers.map Handler.conn = s.handlers.map Handler.conn)
    (hacceptor : t.acceptor = s.acceptor) (hcancel : t.cancelConn = s.cancelConn)
    (hup : t.crashed = s.crashed) (hctrl : t.ctrl = .serving → s.ctrl = .serving) :
    Sane t accepted := by
  refine ⟨?_, ?_, ?_, hup.trans hs.up, fun h => hcancel.trans (hs.serving (hctrl h))⟩
  · unfold Handles
    rw [hconns, hacceptor, hcancel]
    exact hs.handles
  · rw [hacceptor]
    exact hs.awake
  · rw [hacceptor]
    exact hs.connected

/-- A step of the accept loop itself: what it has in hand and what it has started
    is what was accepted. -/
theorem sane_acceptorStep {ev : AcceptorEvent} (hs : Sane s accepted)
    (hset : Settled s (.acceptor ev)) (hstep : acceptorStep s ev = some t) :
    Sane t (recordAccept s (.acceptor ev) accepted) := by
  have hheld := hs.handles
  unfold Handles at hheld
  unfold acceptorStep at hstep
  split at hstep
  · next conn hacc =>
      split at hstep
      · cases hstep
        refine ⟨?_, Acceptor.noConfusion, Acceptor.noConfusion, hs.up, hs.serving⟩
        rw [hacc] at hheld
        replace hheld : s.handlers.map Handler.conn = accepted.map some :=
          (List.append_nil _).symm.trans hheld
        show s.handlers.map Handler.conn ++ (if s.cancelConn = true then [] else [some conn])
          = (if s.cancelConn = true then accepted else accepted ++ [conn]).map some
        rw [hheld]
        split
        · exact List.append_nil _
        · rw [List.map_append]
          rfl
      · cases hstep
  · next hacc =>
      cases hstep
      rw [hacc] at hheld
      exact ⟨hheld, Acceptor.noConfusion, Acceptor.noConfusion, hs.up, hs.serving⟩
  · next conn hacc =>
      rw [hacc] at hheld
      split at hstep
      · next hcancel =>
          cases hstep
          refine ⟨?_, Acceptor.noConfusion, Acceptor.noConfusion, hs.up, hs.serving⟩
          cases conn with
          | none => exact hheld
          | some c =>
              rw [inHand, if_pos hcancel] at hheld
              exact hheld
      · next hcancel =>
          cases conn with
          | none => exact absurd (hset hacc) hcancel
          | some c =>
              cases hstep
              rw [inHand, if_neg hcancel] at hheld
              exact ⟨hheld, Acceptor.noConfusion, fun hnone => (by cases hnone), hs.up, hs.serving⟩
  · next hacc => exact absurd hacc hs.awake
  · next conn hacc =>
      cases conn with
      | none => exact absurd hacc hs.connected
      | some c =>
          cases hstep
          refine ⟨?_, Acceptor.noConfusion, Acceptor.noConfusion, hs.up, hs.serving⟩
          rw [hacc] at hheld
          show (s.handlers ++ [(⟨some c, .starting⟩ : Handler M)]).map Handler.conn ++ []
            = accepted.map some
          rw [List.append_nil, List.map_append]
          exact hheld
  · next hacc =>
      split at hstep
      · cases hstep
        rw [hacc] at hheld
        exact ⟨hheld, Acceptor.noConfusion, Acceptor.noConfusion, hs.up, hs.serving⟩
      · cases hstep
  · cases hstep

/-- **SETTLED STEPS KEEP THE SERVER SANE**. -/
theorem sane_step {l : TcpLabel} (hs : Sane s accepted) (hsound : Sound s) (hset : Settled s l)
    (hstep : tcpStep decode name encap s l = some t) : Sane t (recordAccept s l accepted) := by
  cases (steps_of_tcpStep hstep).2 with
  | drained => exact hs.same rfl rfl rfl rfl id
  | ignored => exact hs
  | shutdown hctrl =>
      -- nothing that was accepted is overtaken, so nothing falls out of hand
      refine ⟨?_, hs.awake, hs.connected, hs.up, Ctrl.noConfusion⟩
      have hsame : inHand true s.acceptor = inHand s.cancelConn s.acceptor := by
        unfold inHand
        split
        · next conn hacc => exact absurd hacc (hset hctrl conn)
        · rfl
        · rfl
      show s.handlers.map Handler.conn ++ inHand true s.acceptor = accepted.map some
      rw [hsame]
      exact hs.handles
  | closed => exact hs.same rfl rfl rfl rfl Ctrl.noConfusion
  | answered => exact hs.same rfl rfl rfl rfl Ctrl.noConfusion
  | acceptor hacc => exact sane_acceptorStep hs hset hacc
  | handler hhd hev =>
      cases (outcome_of_handlerStep hev).2 with
      | nilConn hconn => exact absurd hconn (hs.handles.connected (List.mem_of_getElem? hhd))
      | closedChan hch hpanic => exact absurd hpanic (hsound.opened.send_ne_panic hch _ _)
      | turn hturn =>
          refine hs.same ?_ hturn.acceptor hturn.cancelConn hturn.crashed
            (fun hctrl => hturn.ctrl.symm.trans hctrl)
          rw [hturn.handlers]
          exact map_set_of_eq hhd rfl

/-! ## What an unsettled step comes to -/

/-- The steps of the accept loop, and the first of the handlers it starts. -/
def ownStep : TcpLabel → Prop
  | .acceptor _ => True
  | .handler _ .start => True
  | _ => False

section Server

variable {decode : Encoding → Codec M} {name encap : String} {caps : List Nat}

variable {accepted : List MsgProducer} {s : ServerTCP M}

theorem sane_of_reach
    (hreach : Reach (acceptServer decode name encap caps) (fun u l => Settled u.1 l)
      (s, accepted)) : Sane s accepted := by
  have hall := hreach.invariant (I := fun u => Sound u.1 ∧ Sane u.1 u.2) ?_ ?_
  · exact hall.2
  · have hinit : Reach (tcpServer decode name encap caps) anyStep _ := .init
    exact ⟨sound_of_reach hinit, rfl, Acceptor.noConfusion, Acceptor.noConfusion, rfl,
      fun _ => rfl⟩
  · rintro ⟨u, _⟩ l v ⟨hsound, hsane⟩ hset hn
    obtain ⟨t, ht, rfl⟩ := Option.map_eq_some_iff.mp hn
    exact ⟨sound_step hsound ht, sane_step hsane hsound hset ht⟩

/-- A failed Accept goes on to a handler without a connection, and to the end of
    the process. -/
theorem crash_of_sleeping (accepted : List MsgProducer) (hup : s.crashed = false)
    (hacc : s.acceptor = .sleeping) :
    ∃ v, Leads (acceptServer decode name encap caps) ownStep (s, accepted) (v, accepted) ∧
      v.crashed = true ∧ ¬ Handles v accepted := by
  refine ⟨{ s with
      acceptor := .accepting
      connectionGroup := s.connectionGroup + 1
      handlers := s.handlers ++ [⟨none, .starting⟩]
      crashed := true },
    ⟨[.acceptor .wake, .acceptor .spawn, .handler s.handlers.length .start], ?_, ?_⟩, rfl, ?_⟩
  · simp [ownStep]
  · simp [exec, acceptServer, withHistory, tcpServer, tcpStep, acceptorStep, recordAccept, hup,
      hacc, handlerStep]
  · intro hhandles
    exact hhandles.connected (List.mem_append_right _ (List.mem_singleton_self _)) rfl

/-- A connection that cancellation has overtaken is not handled. -/
theorem lost_of_overtaken {conn : MsgProducer} (hs : Sane s accepted)
    (hacc : s.acceptor = .accepted (some conn)) (hcancel : s.cancelConn = false) :
    ∃ v, Leads (acceptServer decode name encap caps) ownStep
        ({ s with ctrl := .closing, cancelConn := true }, accepted) (v, accepted) ∧
      v.acceptor = .waiting ∧ ¬ Handles v accepted := by
  refine ⟨{ s with ctrl := .closing, cancelConn := true, acceptor := .waiting },
    ⟨[.acceptor .checkCancelled], ?_, ?_⟩, rfl, ?_⟩
  · simp [ownStep]
  · simp [exec, acceptServer, withHistory, tcpServer, tcpStep, acceptorStep, recordAccept, hs.up,
      hacc]
  · intro hlost
    have hheld := hs.handles
    unfold Handles at hheld hlost
    rw [hacc, hcancel, ← hlost] at hheld
    exact absurd (List.append_cancel_left hheld) (List.cons_ne_nil _ _)

/-- **UNSETTLED STEPS LOSE A CONNECTION OR THE PROCESS**. -/
theorem unsettled_step {u : ServerTCP M} {l : TcpLabel} (hs : Sane s accepted) (hl : ¬ Settled s l)
    (hstep : tcpStep decode name encap s l = some u) :
    ∃ v, Leads (acceptServer decode name encap caps) ownStep
        (u, recordAccept s l accepted) (v, recordAccept s l accepted) ∧
      (v.crashed = true ∨ v.acceptor = .waiting) ∧
      ¬ Handles v (recordAccept s l accepted) := by
  cases l with
  | acceptor ev =>
      cases ev with
      | checkCancelled =>
          obtain ⟨hacc, hcancel⟩ := Classical.not_imp.mp hl
          have hsleeps : tcpStep decode name encap s (.acceptor .checkCancelled)
              = some { s with acceptor := .sleeping } := by
            simp [tcpStep, acceptorStep, hs.up, hacc, hcancel]
          cases hstep.symm.trans hsleeps
          obtain ⟨v, hleads, hcrash, hno⟩ := crash_of_sleeping
            (s := { s with acceptor := .sleeping }) accepted hs.up rfl
          exact ⟨v, hleads, Or.inl hcrash, hno⟩
      | _ => exact absurd trivial hl
  | ctrl id =>
      cases id with
      | shutdown =>
          obtain ⟨hctrl, hsome⟩ := Classical.not_imp.mp hl
          obtain ⟨conn, hacc⟩ := not_forall.mp hsome
          have hcloses : tcpStep decode name encap s (.ctrl .shutdown)
              = some { s with ctrl := .closing, cancelConn := true } := by
            simp [tcpStep, hs.up, hctrl]
          cases hstep.symm.trans hcloses
          obtain ⟨v, hleads, hwait, hno⟩ := lost_of_overtaken hs (Classical.not_not.mp hacc)
            (hs.serving hctrl)
          exact ⟨v, hleads, Or.inr hwait, hno⟩
      | report => exact absurd trivial hl
      | ack => exact absurd trivial hl
  | _ => exact absurd trivial hl

end Server

/-- **A HANDLER FOR EACH CONNECTION**: along settled runs `handleConnection` is
    called once for each connection accepted before cancellation and never
    without one; a step that is not settled leads, by steps of the loop alone, to
    a handler without a connection and the end of the process, or to a connection
    without a handler.  In every run the wait group counts the handlers that have
    not returned, and `Wait` returns exactly when all of them have. -/
theorem accept_handles (decode : Encoding → Codec M) (name encap : String) (caps : List Nat) :
    (∀ s accepted, Reach (acceptServer decode name encap caps) (fun u l => Settled u.1 l)
        (s, accepted) → Handles s accepted ∧ s.crashed = false) ∧
      (∀ s accepted l u, Reach (acceptServer decode name encap caps)
          (fun u l => Settled u.1 l) (s, accepted) → ¬ Settled s l →
        tcpStep decode name encap s l = some u →
        ∃ v, Leads (acceptServer decode name encap caps) ownStep
            (u, recordAccept s l accepted) (v, recordAccept s l accepted) ∧
          (v.crashed = true ∨ v.acceptor = .waiting) ∧
          ¬ Handles v (recordAccept s l accepted)) ∧
      (∀ s, Reach (tcpServer decode name encap caps) anyStep s →
        s.connectionGroup = s.handlers.countP (fun hd => running hd.pc) ∧
          (s.acceptor = .waiting → s.crashed = false →
            ((∃ t, tcpStep decode name encap s (.acceptor .groupDone) = some t) ↔
              ∀ hd ∈ s.handlers, running hd.pc = false))) := by
  refine ⟨?_, ?_, ?_⟩
  · intro s accepted hreach
    have hsane := sane_of_reach hreach
    exact ⟨hsane.handles, hsane.up⟩
  · intro s accepted l u hreach hl hstep
    exact unsettled_step (sane_of_reach hreach) hl hstep
  · intro s hreach
    have hinit : Counts (tcpServer decode name encap caps).init := rfl
    have hcounts : Counts s :=
      hreach.invariant hinit (fun _ _ _ hs _ hstep => counts_step hs hstep)
    exact ⟨hcounts, fun hwait hup => hcounts.waitsForAll hwait hup decode name encap⟩

/-- Accept fails once: five steps later the process is down, in a handler that
    was started without a connection. -/
theorem accept_error_crashes :
    ∃ v, exec (acceptServer (fun _ _ _ => .error "no codec" : Encoding → Codec Unit) "tcp" "st" [])
        (acceptServer (fun _ _ _ => .error "no codec" : Encoding → Codec Unit) "tcp" "st" []).init
        [.acceptor .acceptError, .acceptor .checkCancelled, .acceptor .wake, .acceptor .spawn,
          .handler 0 .start] = some (v, []) ∧
      v.crashed = true ∧ v.handlers.map Handler.conn = [none] ∧ ¬ Handles v [] := by
  refine ⟨_, rfl, rfl, rfl, ?_⟩
  intro hhandles
  cases hhandles

end PipelineTcpAccept
