import PipelineGnmi.EncapStProofs
import PipelineGnmi.QuiescenceProofs

/-! # The TCP server

    `xport_tcp.go` runs a control loop (`startServer`), an accept loop
    (`acceptTCPConnections`) and one handler for each connection
    (`handleConnection`), which in turn reads the socket in a goroutine of its
    own, so that it can wait for the octets and for cancellation at once.

    On SHUTDOWN the control loop closes `cancelConn` and the listener and
    answers.  It waits for nobody.  A handler that was sending messages on goes
    on to do so, and one whose read had completed may still prefer the octets to
    the cancellation.  `tcp_quiescent` shows that these are the only ways the
    server is heard of again, and `tcp_stirs` that each of them is one. -/

namespace PipelineTcpServer

open GoChan Sweep Transition Quiescence PipelineMessage PipelineEncapSt

variable {M : Type}

/-- What the goroutine reading the socket has to say. -/
inductive ReadResult where
  | pending
  | readErr
  | readDone (buffer : Octets)
  deriving DecidableEq

/-- Where a handler is: before its parser, waiting for `n` octets, sending the
    messages of a block on, or gone. -/
inductive HandlerPc (M : Type) where
  | starting
  | reading (parser : EncapSTParser M) (n : Nat) (result : ReadResult)
  | delivering (parser : EncapSTParser M) (msgs : List M) (i : Nat)
  | finished

/-- A handler and the remote end of its connection; without one the connection
    is nil. -/
structure Handler (M : Type) where
  conn : Option MsgProducer
  pc : HandlerPc M

/-- Where `acceptTCPConnections` is: `accepted` has the outcome of Accept,
    `spawning` what the next handler is started with, and `waiting` waits for the
    connections that were cancelled, to announce it to nobody. -/
inductive Acceptor where
  | accepting
  | accepted (conn : Option MsgProducer)
  | sleeping
  | spawning (conn : Option MsgProducer)
  | waiting
  | done
  deriving DecidableEq

/-- Where `startServer` is, from the select to the answer to SHUTDOWN. -/
inductive Ctrl where
  | serving
  | closing
  | notifying
  | returned
  deriving DecidableEq

/-- `serverTCP`; `cancelConn` says that the channel of that name is closed. -/
structure ServerTCP (M : Type) where
  ctrl : Ctrl
  acceptor : Acceptor
  handlers : List (Handler M)
  connectionGroup : Nat
  cancelConn : Bool
  listening : Bool
  dataChans : List (Chan M)
  crashed : Bool

/-- The events of `acceptTCPConnections`. -/
inductive AcceptorEvent where
  | accept (conn : MsgProducer)
  | acceptError
  | checkCancelled
  | wake
  | spawn
  | groupDone

/-- The events of a handler, the arms of its select among them. -/
inductive HandlerEvent where
  | start
  | read (buffer : Octets)
  | readError
  | takeCancel
  | takeErr
  | takeDone
  | send (receiver : Bool)
  deriving DecidableEq

inductive TcpLabel where
  | drain (i : Nat)
  | ctrl (id : MsgID)
  | closeListener
  | ack
  | acceptor (ev : AcceptorEvent)
  | handler (h : Nat) (ev : HandlerEvent)

/-! ## The handler -/

/-- The handler goes on to another place. -/
def moveTo (s : ServerTCP M) (h : Nat) (hd : Handler M) (pc : HandlerPc M) : ServerTCP M :=
  { s with handlers := s.handlers.set h { hd with pc := pc } }

/-- The handler returns: the deferred function counts it out. -/
def finish (s : ServerTCP M) (h : Nat) (hd : Handler M) : ServerTCP M :=
  { moveTo s h hd .finished with connectionGroup := s.connectionGroup - 1 }

/-- The top of the handler's loop: the next buffer, and a read into it. -/
def awaitBlock (s : ServerTCP M) (h : Nat) (hd : Handler M) (parser : EncapSTParser M) :
    ServerTCP M :=
  match nextBlockBuffer parser with
  | .error _ => finish s h hd
  | .ok n => if n = 0 then finish s h hd else moveTo s h hd (.reading parser n .pending)

/-- Go on with the loops over messages and channels, from the channel of index
    `i`, or back to reading. -/
def goOn (s : ServerTCP M) (h : Nat) (hd : Handler M) (parser : EncapSTParser M)
    (msgs : List M) (i : Nat) : ServerTCP M :=
  match place s.dataChans.length msgs i with
  | none => awaitBlock s h hd parser
  | some (msgs, i) => moveTo s h hd (.delivering parser msgs i)

/-- The octets the handler asked for, through the parser. -/
def handleBlock (s : ServerTCP M) (h : Nat) (hd : Handler M) (parser : EncapSTParser M)
    (buffer : Octets) : ServerTCP M :=
  match nextBlock parser buffer none with
  | (_, .error _) => finish s h hd
  | (parser, .ok none) => awaitBlock s h hd parser
  | (parser, .ok (some msgs)) => goOn s h hd parser msgs 0

/-- `dataChan <- msg`, which nothing but the channel can interrupt. -/
def sendNext (s : ServerTCP M) (h : Nat) (hd : Handler M) (parser : EncapSTParser M)
    (msg : M) (rest : List M) (i : Nat) (receiver : Bool) : Option (ServerTCP M) :=
  match s.dataChans[i]? with
  | none => none
  | some ch =>
      match ch.send msg receiver with
      | .ok ch' =>
          some (goOn { s with dataChans := s.dataChans.set i ch' } h hd parser
            (msg :: rest) (i + 1))
      | .blocked => none
      | .panic => some { s with crashed := true }

/-- One step of `handleConnection` or of the goroutine that reads for it.  A nil
    connection is followed at once. -/
def handlerStep (decode : Encoding → Codec M) (name encap : String) (s : ServerTCP M)
    (h : Nat) (hd : Handler M) (ev : HandlerEvent) : Option (ServerTCP M) :=
  match ev, hd.pc with
  | .start, .starting =>
      match hd.conn with
      | none => some { s with crashed := true }
      | some remoteAddr =>
          match getNewEncapParser decode name encap (some remoteAddr) with
          | .error _ => some (finish s h hd)
          | .ok parser => some (awaitBlock s h hd parser)
  | .read buffer, .reading parser n .pending =>
      if buffer.length = n then some (moveTo s h hd (.reading parser n (.readDone buffer)))
      else none
  | .readError, .reading parser n .pending =>
      some (moveTo s h hd (.reading parser n .readErr))
  | .takeCancel, .reading _ _ _ =>
      if s.cancelConn = true then some (finish s h hd) else none
  | .takeErr, .reading _ _ .readErr => some (finish s h hd)
  | .takeDone, .reading parser _ (.readDone buffer) =>
      some (handleBlock s h hd parser buffer)
  | .send receiver, .delivering parser (msg :: rest) i =>
      sendNext s h hd parser msg rest i receiver
  | _, _ => none

/-! ## The server -/

/-- One step of `acceptTCPConnections`.  A failed Accept is slept over, and a
    handler is then started all the same. -/
def acceptorStep (s : ServerTCP M) (ev : AcceptorEvent) : Option (ServerTCP M) :=
  match ev, s.acceptor with
  | .accept conn, .accepting =>
      if s.listening = true then some { s with acceptor := .accepted (some conn) } else none
  | .acceptError, .accepting => some { s with acceptor := .accepted none }
  | .checkCancelled, .accepted conn =>
      if s.cancelConn = true then some { s with acceptor := .waiting }
      else if conn.isNone = true then some { s with acceptor := .sleeping }
      else some { s with acceptor := .spawning conn }
  | .wake, .sleeping => some { s with acceptor := .spawning none }
  | .spawn, .spawning conn =>
      some { s with
        acceptor := .accepting
        connectionGroup := s.connectionGroup + 1
        handlers := s.handlers ++ [⟨conn, .starting⟩] }
  | .groupDone, .waiting =>
      if s.connectionGroup = 0 then some { s with acceptor := .done } else none
  | _, _ => none

/-- One step of the server or of a stage downstream. -/
def tcpStep (decode : Encoding → Codec M) (name encap : String) (s : ServerTCP M)
    (l : TcpLabel) : Option (ServerTCP M) :=
  if s.crashed = true then none
  else match l with
  | .drain i =>
      match s.dataChans[i]? with
      | none => none
      | some ch =>
          match ch.recv with
          | none => none
          | some (_, ch') => some { s with dataChans := s.dataChans.set i ch' }
  | .ctrl id =>
      if s.ctrl = .serving then
        match id with
        | .shutdown => some { s with ctrl := .closing, cancelConn := true }
        | _ => some s
      else none
  | .closeListener =>
      if s.ctrl = .closing then some { s with ctrl := .notifying, listening := false }
      else none
  | .ack => if s.ctrl = .notifying then some { s with ctrl := .returned } else none
  | .acceptor ev => acceptorStep s ev
  | .handler h ev =>
      match s.handlers[h]? with
      | none => none
      | some hd => handlerStep decode name encap s h hd ev

/-- The server over data channels of these capacities. -/
def tcpServer (decode : Encoding → Codec M) (name encap : String) (caps : List Nat) :
    System (ServerTCP M) TcpLabel where
  init :=
    { ctrl := .serving, acceptor := .accepting, handlers := [], connectionGroup := 0
      cancelConn := false, listening := true, dataChans := caps.map Chan.make
      crashed := false }
  next := tcpStep decode name encap

/-- SHUTDOWN was answered. -/
def Acked (s : ServerTCP M) : Prop := s.ctrl = .returned

/-- The place of a handler in the loops over messages and channels. -/
def inHand : HandlerPc M → Option (List M × Nat)
  | .delivering _ msgs i => some (msgs, i)
  | _ => none

def Delivering (pc : HandlerPc M) : Prop := inHand pc ≠ none

/-- The read that completed is worth a message, and there is a channel to send
    it on. -/
def Yields (s : ServerTCP M) (h : Nat) : Prop :=
  ∃ hd parser n buffer parser' msg rest, s.handlers[h]? = some hd ∧
    hd.pc = .reading parser n (.readDone buffer) ∧
    nextBlock parser buffer none = (parser', .ok (some (msg :: rest))) ∧
    0 < s.dataChans.length

/-- Nobody is left behind: SHUTDOWN is answered while no handler is sending, and
    once it is, no select prefers a completed read that is worth a message. -/
def Settled (s : ServerTCP M) : TcpLabel → Prop
  | .ack => ∀ hd ∈ s.handlers, ¬ Delivering hd.pc
  | .handler h .takeDone => Acked s → ¬ Yields s h
  | _ => True

/-! ## What a handler can do -/

/-- The handler went on to `pc`, and nothing else changed that matters to
    anybody else. -/
structure Moved (s : ServerTCP M) (h : Nat) (hd : Handler M) (pc : HandlerPc M)
    (t : ServerTCP M) : Prop where
  handlers : t.handlers = s.handlers.set h { hd with pc := pc }
  ctrl : t.ctrl = s.ctrl
  cancelConn : t.cancelConn = s.cancelConn
  dataChans : t.dataChans = s.dataChans
  crashed : t.crashed = s.crashed

theorem moveTo_moved (s : ServerTCP M) (h : Nat) (hd : Handler M) (pc : HandlerPc M) :
    Moved s h hd pc (moveTo s h hd pc) :=
  ⟨rfl, rfl, rfl, rfl, rfl⟩

theorem finish_moved (s : ServerTCP M) (h : Nat) (hd : Handler M) :
    Moved s h hd .finished (finish s h hd) :=
  ⟨rfl, rfl, rfl, rfl, rfl⟩

theorem awaitBlock_moved (s : ServerTCP M) (h : Nat) (hd : Handler M) (parser : EncapSTParser M) :
    ∃ pc, Moved s h hd pc (awaitBlock s h hd parser) ∧ inHand pc = none := by
  unfold awaitBlock
  split
  · exact ⟨.finished, finish_moved s h hd, rfl⟩
  · split
    · exact ⟨.finished, finish_moved s h hd, rfl⟩
    · exact ⟨.reading parser _ .pending, moveTo_moved s h hd _, rfl⟩

theorem goOn_moved (s : ServerTCP M) (h : Nat) (hd : Handler M) (parser : EncapSTParser M)
    (msgs : List M) (i : Nat) :
    ∃ pc, Moved s h hd pc (goOn s h hd parser msgs i) ∧
      inHand pc = place s.dataChans.length msgs i := by
  unfold goOn
  cases place s.dataChans.length msgs i with
  | none => exact awaitBlock_moved s h hd parser
  | some p => exact ⟨.delivering parser p.1 p.2, moveTo_moved s h hd _, rfl⟩

/-- What a step of a handler comes to: the process is down, or the handler has taken
    a turn at the channels and went somewhere. -/
inductive Change (s : ServerTCP M) (h : Nat) (hd : Handler M) (ev : HandlerEvent)
    (t : ServerTCP M) : Prop where
  | crash (ht : t = { s with crashed := true })
  | went (pc : HandlerPc M) (chans : List (Chan M))
      (hmoved : Moved { s with dataChans := chans } h hd pc t)
      (hturn : Turn s.dataChans (inHand hd.pc) chans (inHand pc))
      (hyields : inHand hd.pc = none → Delivering pc → ev = .takeDone ∧ Yields s h)

variable {h : Nat} {s t : ServerTCP M} {name encap : String} {decode : Encoding → Codec M}
  {l : TcpLabel} {caps : List Nat}

/-- The handler went somewhere without sending. -/
theorem Change.quiet {hd : Handler M} {ev : HandlerEvent} (pc : HandlerPc M)
    (hmoved : Moved s h hd pc t) (hnone : inHand pc = none) : Change s h hd ev t :=
  .went pc s.dataChans hmoved (hnone ▸ .leaves) (fun _ hdel => absurd hnone hdel)

/-- A block through the parser; a handler sends only what the block yields. -/
theorem change_handleBlock {hd : Handler M} (hhd : s.handlers[h]? = some hd)
    {parser : EncapSTParser M} {n : Nat} {buffer : Octets}
    (hpc : hd.pc = .reading parser n (.readDone buffer)) :
    Change s h hd .takeDone (handleBlock s h hd parser buffer) := by
  unfold handleBlock
  split
  · exact .quiet .finished (finish_moved s h hd) rfl
  · next parser' _ =>
      obtain ⟨pc, hmoved, hnot⟩ := awaitBlock_moved s h hd parser'
      exact .quiet pc hmoved hnot
  · next parser' msgs hnext =>
      obtain ⟨pc, hmoved, hhand⟩ := goOn_moved s h hd parser' msgs 0
      refine .went pc s.dataChans hmoved (hhand ▸ .begins msgs (by rw [hpc]; rfl))
        (fun _ hdel => ⟨rfl, ?_⟩)
      obtain ⟨_, _, i, -, hi⟩ := (placed_of_place hhand.symm).in_hand hdel
      cases msgs with
      | nil => exact absurd hhand hdel
      | cons msg rest =>
          exact ⟨hd, parser, n, buffer, parser', msg, rest, hhd, hpc, hnext, by omega⟩

/-- **WHAT A HANDLER CAN DO**. -/
theorem change_of_handlerStep {hd : Handler M} {ev : HandlerEvent} (hhd : s.handlers[h]? = some hd)
    (hstep : handlerStep decode name encap s h hd ev = some t) : Change s h hd ev t := by
  unfold handlerStep at hstep
  split at hstep
  · split at hstep
    · cases hstep
      exact .crash rfl
    · split at hstep
      · cases hstep
        exact .quiet .finished (finish_moved s h hd) rfl
      · next parser _ =>
          cases hstep
          obtain ⟨pc, hmoved, hnot⟩ := awaitBlock_moved s h hd parser
          exact .quiet pc hmoved hnot
  · next buffer parser n _ =>
      split at hstep
      · cases hstep
        exact .quiet (.reading parser n (.readDone buffer)) (moveTo_moved s h hd _) rfl
      · cases hstep
  · next parser n _ =>
      cases hstep
      exact .quiet (.reading parser n .readErr) (moveTo_moved s h hd _) rfl
  · split at hstep
    · cases hstep
      exact .quiet .finished (finish_moved s h hd) rfl
    · cases hstep
  · cases hstep
    exact .quiet .finished (finish_moved s h hd) rfl
  · next parser n buffer hpc =>
      cases hstep
      exact change_handleBlock hhd hpc
  · next receiver parser msg rest i hpc =>
      unfold sendNext at hstep
      split at hstep
      · cases hstep
      · next ch hch =>
          split at hstep
          · next ch' hsend =>
              cases hstep
              obtain ⟨pc, hmoved, hhand⟩ := goOn_moved
                { s with dataChans := s.dataChans.set i ch' } h hd parser (msg :: rest) (i + 1)
              have hat : inHand hd.pc = some (msg :: rest, i) := by
                rw [hpc]
                rfl
              refine .went pc _ hmoved (hhand ▸ .sends hat hch hsend) (fun hnone => ?_)
              cases hat.symm.trans hnone
          · cases hstep
          · cases hstep
            exact .crash rfl
  · cases hstep

/-- What a step of the accept loop comes to: the handlers are left alone, or one
    is added that has yet to start. -/
inductive Accepts (s : ServerTCP M) (ev : AcceptorEvent) (t : ServerTCP M) : Prop where
  | kept (acceptor : Acceptor) (hev : ev ≠ .spawn) (ht : t = { s with acceptor := acceptor })
  | spawned (conn : Option MsgProducer) (hev : ev = .spawn)
      (ht : t = { s with
        acceptor := .accepting
        connectionGroup := s.connectionGroup + 1
        handlers := s.handlers ++ [⟨conn, .starting⟩] })

/-- **WHAT THE ACCEPT LOOP CAN DO**. -/
theorem accepts_of_acceptorStep {ev : AcceptorEvent} (h : acceptorStep s ev = some t) :
    Accepts s ev t := by
  unfold acceptorStep at h
  split at h
  · split at h
    · cases h
      exact .kept _ (fun hev => by cases hev) rfl
    · cases h
  · cases h
    exact .kept _ (fun hev => by cases hev) rfl
  · split at h
    · cases h
      exact .kept _ (fun hev => by cases hev) rfl
    · split at h
      · cases h
        exact .kept _ (fun hev => by cases hev) rfl
      · cases h
        exact .kept _ (fun hev => by cases hev) rfl
  · cases h
    exact .kept _ (fun hev => by cases hev) rfl
  · next conn _ =>
      cases h
      exact .spawned conn rfl rfl
  · split at h
    · cases h
      exact .kept _ (fun hev => by cases hev) rfl
    · cases h
  · cases h

/-- The accept loop adds handlers that have yet to start. -/
theorem acceptorStep_spec {ev : AcceptorEvent} (h : acceptorStep s ev = some t) :
    t.ctrl = s.ctrl ∧ t.dataChans = s.dataChans ∧
      ∀ hd ∈ t.handlers, hd ∈ s.handlers ∨ hd.pc = .starting := by
  cases accepts_of_acceptorStep h with
  | kept acceptor _ ht =>
      rw [ht]
      exact ⟨rfl, rfl, fun hd hmem => Or.inl hmem⟩
  | spawned conn _ ht =>
      rw [ht]
      refine ⟨rfl, rfl, fun hd hmem => ?_⟩
      rcases List.mem_append.mp hmem with hmem | hmem
      · exact Or.inl hmem
      · rw [List.mem_singleton.mp hmem]
        exact Or.inr rfl

/-- What a step of the server or of a stage downstream comes to. -/
inductive Steps (decode : Encoding → Codec M) (name encap : String) (s : ServerTCP M) :
    TcpLabel → ServerTCP M → Prop where
  | drained {i : Nat} {x : M} {ch ch' : Chan M} (hch : s.dataChans[i]? = some ch)
      (hrecv : ch.recv = some (x, ch')) :
      Steps decode name encap s (.drain i) { s with dataChans := s.dataChans.set i ch' }
  | ignored {id : MsgID} : Steps decode name encap s (.ctrl id) s
  | shutdown (hctrl : s.ctrl = .serving) :
      Steps decode name encap s (.ctrl .shutdown)
        { s with ctrl := .closing, cancelConn := true }
  | closed (hctrl : s.ctrl = .closing) :
      Steps decode name encap s .closeListener
        { s with ctrl := .notifying, listening := false }
  | answered : Steps decode name encap s .ack { s with ctrl := .returned }
  | acceptor {ev : AcceptorEvent} {t : ServerTCP M} (hacc : acceptorStep s ev = some t) :
      Steps decode name encap s (.acceptor ev) t
  | handler {h : Nat} {hd : Handler M} {ev : HandlerEvent} {t : ServerTCP M}
      (hhd : s.handlers[h]? = some hd) (hev : handlerStep decode name encap s h hd ev = some t) :
      Steps decode name encap s (.handler h ev) t

/-- **WHAT THE SERVER CAN DO**, while the process is up. -/
theorem steps_of_tcpStep (hstep : tcpStep decode name encap s l = some t) :
    s.crashed = false ∧ Steps decode name encap s l t := by
  unfold tcpStep at hstep
  split at hstep
  · cases hstep
  · next hrun =>
      refine ⟨Bool.eq_false_iff.mpr hrun, ?_⟩
      cases l with
      | drain i =>
          simp only at hstep
          split at hstep
          · cases hstep
          · next ch hch =>
              split at hstep
              · cases hstep
              · next x ch' hrecv =>
                  cases hstep
                  exact .drained hch hrecv
      | ctrl id =>
          simp only at hstep
          split at hstep
          · next hctrl =>
              split at hstep
              · cases hstep
                exact .shutdown hctrl
              · cases hstep
                exact .ignored
          · cases hstep
      | closeListener =>
          simp only at hstep
          split at hstep
          · next hctrl =>
              cases hstep
              exact .closed hctrl
          · cases hstep
      | ack =>
          simp only at hstep
          split at hstep
          · cases hstep
            exact .answered
          · cases hstep
      | acceptor ev => exact .acceptor hstep
      | handler h ev =>
          simp only at hstep
          split at hstep
          · cases hstep
          · next hd hhd => exact .handler hhd hstep

/-! ## After the answer -/

/-- No handler is sending. -/
def Silent (s : ServerTCP M) : Prop := ∀ hd ∈ s.handlers, ¬ Delivering hd.pc

theorem Moved.mem {hd : Handler M} {pc : HandlerPc M} (hm : Moved s h hd pc t) :
    ∀ x ∈ t.handlers, x ∈ s.handlers ∨ x.pc = pc := by
  intro x hx
  rw [hm.handlers] at hx
  rcases List.mem_or_eq_of_mem_set hx with hx | rfl
  · exact Or.inl hx
  · exact Or.inr rfl

/-- **SILENCE IS KEPT**: while no handler is sending, a step makes none send,
    unless it takes a read that is worth a message. -/
theorem silent_step (hs : Silent s) (hl : ∀ h, l = .handler h .takeDone → ¬ Yields s h)
    (hstep : tcpStep decode name encap s l = some t) :
    Silent t ∧ sent t.dataChans = sent s.dataChans := by
  cases (steps_of_tcpStep hstep).2 with
  | drained hch hrecv => exact ⟨hs, sent_recv hch hrecv⟩
  | acceptor hacc =>
      obtain ⟨-, hchans, hmem⟩ := acceptorStep_spec hacc
      refine ⟨?_, congrArg sent hchans⟩
      intro hd hhd
      rcases hmem hd hhd with hold | hnew
      · exact hs hd hold
      · rw [hnew]
        exact fun hdel => hdel rfl
  | @handler h hd ev _ hhd hev =>
      cases change_of_handlerStep hhd hev with
      | crash ht =>
          rw [ht]
          exact ⟨hs, rfl⟩
      | went pc chans hmoved hturn hyields =>
          have hnone : inHand hd.pc = none := not_not.mp (hs hd (List.mem_of_getElem? hhd))
          rw [hnone] at hturn
          refine ⟨?_, congrArg sent (hmoved.dataChans.trans hturn.same)⟩
          intro x hx hdel
          rcases hmoved.mem x hx with hold | hnew
          · exact hs x hold hdel
          · rw [hnew] at hdel
            obtain ⟨htake, hy⟩ := hyields hnone hdel
            exact hl h (by rw [htake]) hy
  | _ => exact ⟨hs, rfl⟩

/-- The answer is sent by one step, and stays sent. -/
theorem acked_step (hstep : tcpStep decode name encap s l = some t) :
    (Acked s → Acked t) ∧ (Acked t → Acked s ∨ l = .ack ∧ t.handlers = s.handlers) := by
  have hsame : t.ctrl = s.ctrl →
      (Acked s → Acked t) ∧ (Acked t → Acked s ∨ l = .ack ∧ t.handlers = s.handlers) := by
    intro heq
    unfold Acked
    rw [heq]
    exact ⟨id, Or.inl⟩
  cases (steps_of_tcpStep hstep).2 with
  | drained => exact hsame rfl
  | ignored => exact hsame rfl
  | shutdown hctrl =>
      refine ⟨fun hs => ?_, fun ht => ?_⟩
      · cases hctrl.symm.trans hs
      · cases ht
  | closed hctrl =>
      refine ⟨fun hs => ?_, fun ht => ?_⟩
      · cases hctrl.symm.trans hs
      · cases ht
  | answered => exact ⟨fun _ => rfl, fun _ => Or.inr ⟨rfl, rfl⟩⟩
  | acceptor hacc => exact hsame (acceptorStep_spec hacc).1
  | handler hhd hev =>
      cases change_of_handlerStep hhd hev with
      | crash ht => exact hsame (by rw [ht])
      | went pc chans hmoved => exact hsame hmoved.ctrl

/-- **NOBODY LEFT BEHIND, NOTHING SENT**: in settled runs the server is quiescent
    once it has answered SHUTDOWN. -/
theorem tcp_quiescent (decode : Encoding → Codec M) (name encap : String) (caps : List Nat) :
    Quiescent (tcpServer decode name encap caps) Settled Acked ServerTCP.dataChans := by
  have hyields : ∀ (s : ServerTCP M) l, Acked s → Settled s l →
      ∀ h, l = .handler h .takeDone → ¬ Yields s h := by
    rintro s l hacked hset h rfl
    exact hset hacked
  refine quiescent_of_silent (I := fun s => Acked s → Silent s) ?_ ?_ ?_
  · intro hacked
    cases hacked
  · intro s l t hinv hset hstep hacked
    rcases (acked_step hstep).2 hacked with hs | ⟨rfl, hsame⟩
    · exact (silent_step (hinv hs) (hyields s l hs hset) hstep).1
    · unfold Silent
      rw [hsame]
      exact hset
  · intro s l t hinv hacked hset hstep
    exact ⟨(acked_step hstep).1 hacked,
      (silent_step (hinv hacked) (hyields s l hacked hset) hstep).2⟩

/-! ## What is left behind -/

/-- The channels are open and the handlers at places of the loops. -/
structure Sound (s : ServerTCP M) : Prop where
  opened : AllOpen s.dataChans
  placed : ∀ hd ∈ s.handlers, Placed s.dataChans.length (inHand hd.pc)

theorem sound_step (hs : Sound s) (hstep : tcpStep decode name encap s l = some t) : Sound t := by
  cases (steps_of_tcpStep hstep).2 with
  | @drained i x ch ch' hch hrecv =>
      refine ⟨hs.opened.recv hch hrecv, ?_⟩
      show ∀ hd ∈ s.handlers, Placed (s.dataChans.set i ch').length (inHand hd.pc)
      rw [List.length_set]
      exact hs.placed
  | ignored => exact hs
  | shutdown => exact ⟨hs.opened, hs.placed⟩
  | closed => exact ⟨hs.opened, hs.placed⟩
  | answered => exact ⟨hs.opened, hs.placed⟩
  | acceptor hacc =>
      obtain ⟨-, hchans, hmem⟩ := acceptorStep_spec hacc
      refine ⟨by rw [hchans]; exact hs.opened, ?_⟩
      intro hd hhd
      rw [hchans]
      rcases hmem hd hhd with hold | hnew
      · exact hs.placed hd hold
      · rw [hnew]
        exact placed_none _
  | handler hhd hev =>
      cases change_of_handlerStep hhd hev with
      | crash ht =>
          rw [ht]
          exact ⟨hs.opened, hs.placed⟩
      | went pc chans hmoved hturn =>
          have hchans : t.dataChans = chans := hmoved.dataChans
          refine ⟨hchans ▸ hturn.allOpen hs.opened, ?_⟩
          intro x hx
          rw [hchans]
          rcases hmoved.mem x hx with hold | hnew
          · rw [hturn.length]
            exact hs.placed x hold
          · rw [hnew]
            exact hturn.placed

theorem sound_of_reach {P : ServerTCP M → TcpLabel → Prop}
    (h : Reach (tcpServer decode name encap caps) P s) : Sound s := by
  refine h.invariant (I := Sound) ⟨allOpen_make caps, ?_⟩
    (fun _ _ _ hs _ hstep => sound_step hs hstep)
  intro hd hmem
  exact absurd hmem List.not_mem_nil

theorem delivering_of_inHand {pc : HandlerPc M} {msgs : List M} {i : Nat}
    (h : inHand pc = some (msgs, i)) : ∃ parser, pc = .delivering parser msgs i := by
  cases pc with
  | delivering parser msgs' i' =>
      cases h
      exact ⟨parser, rfl⟩
  | _ => cases h

/-- A handler that is sending gets its message through, answer or no answer. -/
theorem stirs_of_delivering (hs : Sound s) (hrun : s.crashed = false) {hd : Handler M}
    (hmem : hd ∈ s.handlers) (hdel : Delivering hd.pc) :
    Stirs (tcpServer decode name encap caps) ServerTCP.dataChans s := by
  obtain ⟨h, hh⟩ := List.getElem?_of_mem hmem
  have hhand : (s.handlers[h]?).bind (fun hd => inHand hd.pc) = inHand hd.pc := by
    rw [hh, Option.bind_some]
  refine stirs_of_placed (U := fun u => u.crashed = false)
    (H := fun u => (u.handlers[h]?).bind (fun hd => inHand hd.pc)) ?_ ?_ hrun hs.opened
    (hhand ▸ hs.placed hd hmem) (hhand ▸ hdel)
  · intro u i ch x ch' hu hch hrecv
    refine ⟨.drain i, { u with dataChans := u.dataChans.set i ch' }, ?_, rfl, hu, rfl⟩
    show tcpStep decode name encap u (.drain i) = _
    simp only [tcpStep, hu, hch, hrecv, Bool.false_eq_true, if_false]
  · intro u msg rest i ch ch' hu hat hch hsend
    obtain ⟨hd, hhd, hat⟩ := Option.bind_eq_some_iff.mp hat
    obtain ⟨parser, hpc⟩ := delivering_of_inHand hat
    obtain ⟨pc, hmoved, -⟩ := goOn_moved { u with dataChans := u.dataChans.set i ch' } h hd
      parser (msg :: rest) (i + 1)
    refine ⟨.handler h (.send true), _, ?_, hmoved.dataChans⟩
    show tcpStep decode name encap u (.handler h (.send true)) = _
    simp only [tcpStep, hu, hhd, handlerStep, hpc, sendNext, hch, hsend, Bool.false_eq_true,
      if_false]

/-- Taking a read that is worth a message leaves the handler sending. -/
theorem yields_delivers (hy : Yields s h)
    (hstep : tcpStep decode name encap s (.handler h .takeDone) = some t) :
    t.crashed = false ∧ ∃ hd ∈ t.handlers, Delivering hd.pc := by
  obtain ⟨hd, parser, n, buffer, parser', msg, rest, hhd, hpc, hnext, hlen⟩ := hy
  have hplace : place s.dataChans.length (msg :: rest) 0 = some (msg :: rest, 0) := by
    rw [place, if_pos hlen]
  unfold tcpStep at hstep
  split at hstep
  · cases hstep
  · next hrun =>
      simp only [hhd, handlerStep, hpc, handleBlock, hnext, goOn, hplace,
        Option.some.injEq] at hstep
      subst hstep
      refine ⟨Bool.eq_false_iff.mpr hrun, { hd with pc := .delivering parser' (msg :: rest) 0 },
        ?_, Option.some_ne_none _⟩
      exact List.mem_of_getElem?
        (List.getElem?_set_self (List.getElem?_eq_some_iff.mp hhd).1)

/-- **SOMEBODY LEFT BEHIND**: after a step that is not settled SHUTDOWN is
    answered, and a message is still sent. -/
theorem tcp_stirs (hreach : Reach (tcpServer decode name encap caps) anyStep s) (hl : ¬ Settled s l)
    (hstep : tcpStep decode name encap s l = some t) :
    Acked t ∧ Stirs (tcpServer decode name encap caps) ServerTCP.dataChans t := by
  have hsound : Sound t := sound_step (sound_of_reach hreach) hstep
  have hstirs : t.crashed = false → (∃ hd ∈ t.handlers, Delivering hd.pc) →
      Stirs (tcpServer decode name encap caps) ServerTCP.dataChans t := by
    rintro hrun ⟨hd, hmem, hdel⟩
    exact stirs_of_delivering hsound hrun hmem hdel
  cases l with
  | ack =>
      have hdel : ∃ hd ∈ s.handlers, Delivering hd.pc := by
        by_contra hno
        exact hl (fun hd hmem hdel => hno ⟨hd, hmem, hdel⟩)
      obtain ⟨hrun, hanswered⟩ := steps_of_tcpStep hstep
      cases hanswered
      exact ⟨rfl, hstirs hrun hdel⟩
  | handler h ev =>
      cases ev with
      | takeDone =>
          obtain ⟨hacked, hy⟩ : Acked s ∧ Yields s h := by
            by_contra hno
            exact hl (fun hacked hy => hno ⟨hacked, hy⟩)
          obtain ⟨hrun, hdel⟩ := yields_delivers hy hstep
          exact ⟨(acked_step hstep).1 hacked, hstirs hrun hdel⟩
      | _ => exact absurd trivial hl
  | _ => exact absurd trivial hl

end PipelineTcpServer
