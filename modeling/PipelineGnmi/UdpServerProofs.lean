import PipelineGnmi.EncapStProofs
import PipelineGnmi.SweepProofs
import PipelineGnmi.TransitionProofs

/-! # The UDP server

    `xport_udp.go` runs two loops.  `startStickyServer` binds the socket, starts
    `runServer` on it and binds again when that one signals that it is done.
    `runServer` reads datagrams, parses each on its own and offers the messages
    to the data channels, dropping what a full channel cannot take.

    `runServer` gives up on the first datagram its parser refuses, and leaves the
    socket open.  The next bind then finds the bindpoint taken by the server's
    own socket (`malformed_relistens`), and what is queued there is never read.
    While every datagram parses, one receiver lives for ever and everything that
    arrives is delivered (`udpServer_delivers`). -/

namespace PipelineUdpServer

open GoChan Sweep Transition PipelineMessage PipelineEncapSt

variable {M : Type}

/-- A datagram and where it came from; the 16-bit length of UDP, which counts
    its own header, bounds the payload. -/
structure Datagram where
  remoteAddr : MsgProducer
  payload : Octets
  size : payload.length ≤ 65527

/-- A socket opened by the server, with what waits in it to be read. -/
structure Socket where
  isOpen : Bool
  queue : List Datagram

/-- Where `startStickyServer` is. -/
inductive Supervisor where
  | waiting
  | sleeping
  | closing
  | returned
  deriving DecidableEq, Repr

/-- Where `runServer` is, with its socket and its parser; `delivering` has the
    messages still to offer, the first of them next to the channel of this
    index. -/
inductive Receiver (M : Type) where
  | stopped
  | starting
  | reading (conn : Nat) (parser : EncapSTParser M)
  | delivering (conn : Nat) (parser : EncapSTParser M) (d : Datagram) (msgs : List M)
      (i : Nat)
  | crashed

/-- `serverUDP`: sockets are known by their position in `sockets`, all of those
    the server ever opened.  `arrived` are the datagrams the socket bound to the
    bindpoint took in, `handled` those the receiver is done with, and `listens`
    says of each call of `ListenUDP` how many own sockets were open then. -/
structure ServerState (M : Type) where
  supervisor : Supervisor
  receiver : Receiver M
  sockets : List Socket
  listener : Option Nat
  closedListener : Bool
  cancelled : Bool
  dataChans : List (Chan M)
  arrived : List Datagram
  handled : List Datagram
  listens : List Nat

/-- The sockets of the server that are open; each of them is bound to the
    bindpoint. -/
def openSockets (s : ServerState M) : List Socket := s.sockets.filter (·.isOpen)

/-- The socket the receiver reads, or is about to read. -/
def receiverConn (s : ServerState M) : Option Nat :=
  match s.receiver with
  | .starting => s.listener
  | .reading conn _ => some conn
  | .delivering conn _ _ _ _ => some conn
  | _ => none

inductive UdpLabel where
  | arrive (d : Datagram)
  | collect (conn : Nat)
  | drain (i : Nat)
  | listen (osOk : Bool)
  | wake
  | ctrl (id : MsgID)
  | closed
  | start
  | read
  | readError
  | offer
  | cancel

/-- The end of `runServer`: the deferred close of `closedListener`. -/
def stop (s : ServerState M) : ServerState M :=
  { s with receiver := .stopped, closedListener := true }

/-- Go on with the loops over messages and channels, from the channel of index
    `i`, or back to reading. -/
def goOn (s : ServerState M) (conn : Nat) (parser : EncapSTParser M) (d : Datagram)
    (msgs : List M) (i : Nat) : ServerState M :=
  match place s.dataChans.length msgs i with
  | none => { s with receiver := .reading conn parser, handled := s.handled ++ [d] }
  | some (msgs, i) => { s with receiver := .delivering conn parser d msgs i }

/-- One datagram off the socket and through the parser. -/
def handleDatagram (s : ServerState M) (conn : Nat) (parser : EncapSTParser M) (n : Nat)
    (d : Datagram) : ServerState M :=
  match nextBlock parser (d.payload.take n) (some d.remoteAddr) with
  | (_, .error _) => stop { s with handled := s.handled ++ [d] }
  | (parser, .ok none) =>
      { s with receiver := .reading conn parser, handled := s.handled ++ [d] }
  | (parser, .ok (some msgs)) => goOn s conn parser d msgs 0

/-- `net.ListenUDP`, and what `startStickyServer` does with its answer.  It
    succeeds when the system is willing and the bindpoint is free. -/
def listenUDP (s : ServerState M) (osOk : Bool) : ServerState M :=
  let s := { s with listens := s.listens ++ [(openSockets s).length] }
  if osOk = true ∧ (openSockets s).length = 0 then
    { s with
      sockets := s.sockets ++ [⟨true, []⟩]
      listener := some s.sockets.length
      closedListener := false
      receiver := .starting }
  else { s with listener := none, supervisor := .sleeping }

/-- One step of the server, of the network, of the garbage collector or of a
    stage downstream. -/
def udpStep (decode : Encoding → Codec M) (name encap : String) (s : ServerState M) :
    UdpLabel → Option (ServerState M)
  | .arrive d =>
      match s.sockets.findIdx? (·.isOpen) with
      | none => none
      | some conn => some { s with
          sockets := s.sockets.modify conn (fun sock => { sock with
            queue := sock.queue ++ [d] })
          arrived := s.arrived ++ [d] }
  | .collect conn =>
      -- the finalizer of a socket nothing refers to closes it
      if s.listener ≠ some conn ∧ receiverConn s ≠ some conn then
        some { s with sockets := s.sockets.modify conn (fun _ => ⟨false, []⟩) }
      else none
  | .drain i =>
      match s.dataChans[i]? with
      | none => none
      | some ch =>
          match ch.recv with
          | none => none
          | some (_, ch') => some { s with dataChans := s.dataChans.set i ch' }
  | .listen osOk =>
      if s.supervisor = .waiting ∧ s.closedListener = true then some (listenUDP s osOk)
      else none
  | .wake =>
      if s.supervisor = .sleeping then some { s with supervisor := .waiting } else none
  | .ctrl id =>
      if s.supervisor = .waiting then
        match id with
        | .shutdown =>
            match s.listener with
            | none => some { s with cancelled := true, supervisor := .returned }
            | some conn => some { s with
                cancelled := true
                sockets := s.sockets.modify conn (fun sock => { sock with isOpen := false })
                supervisor := .closing }
        | _ => some s
      else none
  | .closed =>
      if s.supervisor = .closing ∧ s.closedListener = true then
        some { s with supervisor := .returned }
      else none
  | .start =>
      match s.receiver, s.listener with
      | .starting, some conn =>
          match getNewEncapParser decode name encap none with
          | .error _ => some (stop s)
          | .ok parser => some { s with receiver := .reading conn parser }
      | _, _ => none
  | .read =>
      match s.receiver with
      | .reading conn parser =>
          match nextBlockBuffer parser with
          | .error _ => some (stop s)
          | .ok n =>
              match s.sockets[conn]? with
              | some ⟨true, d :: queue⟩ =>
                  some (handleDatagram { s with sockets := s.sockets.set conn ⟨true, queue⟩ }
                    conn parser n d)
              | _ => none
      | _ => none
  | .readError =>
      match s.receiver with
      | .reading _ _ => some (stop s)
      | _ => none
  | .offer =>
      match s.receiver with
      | .delivering conn parser d (msg :: rest) i =>
          match s.dataChans[i]? with
          | none => none
          | some ch =>
              if ch.cap = ch.buf.length then some (goOn s conn parser d (msg :: rest) (i + 1))
              else
                match ch.send msg false with
                | .ok ch' => some (goOn { s with dataChans := s.dataChans.set i ch' } conn
                    parser d (msg :: rest) (i + 1))
                | .blocked => none
                | .panic => some { s with receiver := .crashed }
      | _ => none
  | .cancel =>
      match s.receiver with
      | .delivering _ _ _ _ i =>
          match s.dataChans[i]? with
          | none => none
          | some ch =>
              if s.cancelled = true ∧ ch.cap ≠ ch.buf.length then some (stop s) else none
      | _ => none

/-- The server over data channels of these capacities; closing `closedListener`
    primes the loop of `startStickyServer`. -/
def udpServer (decode : Encoding → Codec M) (name encap : String) (caps : List Nat) :
    System (ServerState M) UdpLabel where
  init :=
    { supervisor := .waiting, receiver := .stopped, sockets := [], listener := none
      closedListener := true, cancelled := false, dataChans := caps.map Chan.make
      arrived := [], handled := [], listens := [] }
  next := udpStep decode name encap

/-! ## What a step can do -/

/-- The effect of a step, with what it requires. -/
inductive Moves (decode : Encoding → Codec M) (name encap : String) (s : ServerState M) :
    UdpLabel → ServerState M → Prop where
  | arrived {d : Datagram} {conn : Nat} : s.sockets.findIdx? (·.isOpen) = some conn →
      Moves decode name encap s (.arrive d) { s with
        sockets := s.sockets.modify conn (fun sock => { sock with
          queue := sock.queue ++ [d] })
        arrived := s.arrived ++ [d] }
  | collected {conn : Nat} : s.listener ≠ some conn → receiverConn s ≠ some conn →
      Moves decode name encap s (.collect conn)
        { s with sockets := s.sockets.modify conn (fun _ => ⟨false, []⟩) }
  | drained {i : Nat} {m : M} {ch ch' : Chan M} :
      s.dataChans[i]? = some ch → ch.recv = some (m, ch') →
      Moves decode name encap s (.drain i) { s with dataChans := s.dataChans.set i ch' }
  | listened {osOk : Bool} : s.supervisor = .waiting → s.closedListener = true →
      Moves decode name encap s (.listen osOk) (listenUDP s osOk)
  | woken : s.supervisor = .sleeping →
      Moves decode name encap s .wake { s with supervisor := .waiting }
  | ignored {id : MsgID} : id ≠ .shutdown → Moves decode name encap s (.ctrl id) s
  | shutUnbound : s.supervisor = .waiting → s.listener = none →
      Moves decode name encap s (.ctrl .shutdown)
        { s with cancelled := true, supervisor := .returned }
  | shutBound {conn : Nat} : s.supervisor = .waiting → s.listener = some conn →
      Moves decode name encap s (.ctrl .shutdown) { s with
        cancelled := true
        sockets := s.sockets.modify conn (fun sock => { sock with isOpen := false })
        supervisor := .closing }
  | closed : s.supervisor = .closing → s.closedListener = true →
      Moves decode name encap s .closed { s with supervisor := .returned }
  | noParser {conn : Nat} {err : GoError} : s.receiver = .starting →
      s.listener = some conn → getNewEncapParser decode name encap none = .error err →
      Moves decode name encap s .start (stop s)
  | started {conn : Nat} {parser : EncapSTParser M} : s.receiver = .starting →
      s.listener = some conn → getNewEncapParser decode name encap none = .ok parser →
      Moves decode name encap s .start { s with receiver := .reading conn parser }
  | noBuffer {conn : Nat} {parser : EncapSTParser M} {err : GoError} :
      s.receiver = .reading conn parser → nextBlockBuffer parser = .error err →
      Moves decode name encap s .read (stop s)
  | received {conn : Nat} {parser : EncapSTParser M} {n : Nat} {d : Datagram}
      {queue : List Datagram} : s.receiver = .reading conn parser →
      nextBlockBuffer parser = .ok n → s.sockets[conn]? = some ⟨true, d :: queue⟩ →
      Moves decode name encap s .read
        (handleDatagram { s with sockets := s.sockets.set conn ⟨true, queue⟩ } conn parser n d)
  | readFailed {conn : Nat} {parser : EncapSTParser M} : s.receiver = .reading conn parser →
      Moves decode name encap s .readError (stop s)
  | passed {conn : Nat} {parser : EncapSTParser M} {d : Datagram} {msg : M} {rest : List M}
      {i : Nat} {ch : Chan M} : s.receiver = .delivering conn parser d (msg :: rest) i →
      s.dataChans[i]? = some ch → ch.cap = ch.buf.length →
      Moves decode name encap s .offer (goOn s conn parser d (msg :: rest) (i + 1))
  | offered {conn : Nat} {parser : EncapSTParser M} {d : Datagram} {msg : M} {rest : List M}
      {i : Nat} {ch ch' : Chan M} : s.receiver = .delivering conn parser d (msg :: rest) i →
      s.dataChans[i]? = some ch → ch.send msg false = .ok ch' →
      Moves decode name encap s .offer (goOn { s with dataChans := s.dataChans.set i ch' }
        conn parser d (msg :: rest) (i + 1))
  | offerPanic {conn : Nat} {parser : EncapSTParser M} {d : Datagram} {msg : M}
      {rest : List M} {i : Nat} {ch : Chan M} :
      s.receiver = .delivering conn parser d (msg :: rest) i →
      s.dataChans[i]? = some ch → ch.send msg false = .panic →
      Moves decode name encap s .offer { s with receiver := .crashed }
  | abandoned {conn : Nat} {parser : EncapSTParser M} {d : Datagram} {msgs : List M}
      {i : Nat} : s.receiver = .delivering conn parser d msgs i → s.cancelled = true →
      Moves decode name encap s .cancel (stop s)

variable {decode : Encoding → Codec M} {s : ServerState M} {name : String}
  {parser : EncapSTParser M} {i conn : Nat} {d : Datagram} {msgs : List M}

/-- **STEP CASES**: every step of the server moves as listed. -/
theorem moves_of_step {encap : String} {t : ServerState M} {a : UdpLabel}
    (h : udpStep decode name encap s a = some t) : Moves decode name encap s a t := by
  cases a with
  | arrive d =>
      simp only [udpStep] at h
      split at h
      · cases h
      · next conn hconn =>
          cases h
          exact .arrived hconn
  | collect conn =>
      simp only [udpStep] at h
      split at h
      · next hfree =>
          cases h
          exact .collected hfree.1 hfree.2
      · cases h
  | drain i =>
      simp only [udpStep] at h
      split at h
      · cases h
      · next ch hch =>
          split at h
          · cases h
          · next m ch' hrecv =>
              cases h
              exact .drained hch hrecv
  | listen osOk =>
      simp only [udpStep] at h
      split at h
      · next hwait =>
          cases h
          exact .listened hwait.1 hwait.2
      · cases h
  | wake =>
      simp only [udpStep] at h
      split at h
      · next hsleep =>
          cases h
          exact .woken hsleep
      · cases h
  | ctrl id =>
      simp only [udpStep] at h
      split at h
      · next hwait =>
          split at h
          · split at h
            · next hnone =>
                cases h
                exact .shutUnbound hwait hnone
            · next conn hsome =>
                cases h
                exact .shutBound hwait hsome
          · next hid =>
              cases h
              exact .ignored hid
      · cases h
  | closed =>
      simp only [udpStep] at h
      split at h
      · next hclosing =>
          cases h
          exact .closed hclosing.1 hclosing.2
      · cases h
  | start =>
      simp only [udpStep] at h
      split at h
      · next conn hr hl =>
          split at h
          · next err hnew =>
              cases h
              exact .noParser hr hl hnew
          · next parser hnew =>
              cases h
              exact .started hr hl hnew
      · cases h
  | read =>
      simp only [udpStep] at h
      split at h
      · next conn parser hr =>
          split at h
          · next err hbuf =>
              cases h
              exact .noBuffer hr hbuf
          · next n hbuf =>
              split at h
              · next d queue hsock =>
                  cases h
                  exact .received hr hbuf hsock
              · cases h
      · cases h
  | readError =>
      simp only [udpStep] at h
      split at h
      · next hr =>
          cases h
          exact .readFailed hr
      · cases h
  | offer =>
      simp only [udpStep] at h
      split at h
      · next conn parser d msg rest i hr =>
          split at h
          · cases h
          · next ch hch =>
              split at h
              · next hfull =>
                  cases h
                  exact .passed hr hch hfull
              · split at h
                · next ch' hsend =>
                    cases h
                    exact .offered hr hch hsend
                · cases h
                · next hsend =>
                    cases h
                    exact .offerPanic hr hch hsend
      · cases h
  | cancel =>
      simp only [udpStep] at h
      split at h
      · next hr =>
          split at h
          · cases h
          · split at h
            · next hcancel =>
                cases h
                exact .abandoned hr hcancel.1
            · cases h
      · cases h

/-! ## What the server is for -/

/-- What a fresh parser makes of a datagram. -/
def freshParse (decode : Encoding → Codec M) (name encap : String) (d : Datagram) :
    Except GoError (Option (List M)) :=
  match getNewEncapParser decode name encap none with
  | .error err => .error err
  | .ok parser => (nextBlock parser d.payload (some d.remoteAddr)).2

/-- A fresh parser accepts the datagram. -/
def Accepted (decode : Encoding → Codec M) (name encap : String) (d : Datagram) : Prop :=
  ∃ msgs, freshParse decode name encap d = .ok msgs

/-- The messages a datagram is worth; a malformed one is worth nothing. -/
def datagramMsgs (decode : Encoding → Codec M) (name encap : String) (d : Datagram) : List M :=
  match freshParse decode name encap d with
  | .ok (some msgs) => msgs
  | _ => []

/-- The datagram being delivered. -/
def inHand : Receiver M → List Datagram
  | .delivering _ _ d _ _ => [d]
  | _ => []

/-- What the receiver can still read. -/
def unread (s : ServerState M) : List Datagram :=
  match (receiverConn s).bind (s.sockets[·]?) with
  | some ⟨true, queue⟩ => queue
  | _ => []

/-- No datagram disturbs another: each one that arrived is handled, in hand or
    waits where the receiver reads; the channels carried the messages of the
    handled ones, in order, and a beginning of what is in hand; and no bind found
    the bindpoint taken. -/
structure Undisturbed (msgsOf : Datagram → List M) (s : ServerState M) : Prop where
  arrived : s.arrived = s.handled ++ inHand s.receiver ++ unread s
  delivered : ∀ ch ∈ s.dataChans, ∃ part, part <+: (inHand s.receiver).flatMap msgsOf ∧
    ch.Carries (s.handled.flatMap msgsOf ++ part) false
  listens : ∀ n ∈ s.listens, n = 0

/-- The channel a message is offered to next. -/
def offeredTo (s : ServerState M) : Option (Chan M) :=
  match s.receiver with
  | .delivering _ _ _ _ i => s.dataChans[i]?
  | _ => none

/-- A step that brings no malformed datagram, no read error and no shutdown, and
    offers nothing to a full channel. -/
def Benign (decode : Encoding → Codec M) (name encap : String) (s : ServerState M) :
    UdpLabel → Prop
  | .arrive d => Accepted decode name encap d
  | .readError => False
  | .ctrl id => id ≠ .shutdown
  | .offer => ∀ ch, offeredTo s = some ch → ch.cap ≠ ch.buf.length
  | _ => True

/-- The steps that deliver: those of the receiver, and receives downstream. -/
def Delivering : UdpLabel → Prop
  | .start | .read | .offer | .drain _ => True
  | _ => False

/-! ## A fresh parser and the parser of the receiver -/

/-- A fresh parser judges a datagram by its octets. -/
theorem freshParse_eq (decode : Encoding → Codec M) (name : String) (d : Datagram) :
    freshParse decode name "st" d = parseDatagram decode d.remoteAddr d.payload := by
  obtain ⟨parser, hnew, hready⟩ := datagramReady_new decode name
  obtain ⟨parser', hnext, -⟩ := nextBlock_datagram hready d.remoteAddr d.payload
  rw [freshParse, hnew]
  simp only
  rw [hnext]

variable (caps : List Nat)

/-- The receiver's buffer holds any datagram whole, and its parser answers as a
    fresh one does. -/
theorem nextBlock_eq_freshParse (hready : DatagramReady decode parser) (name : String)
    (d : Datagram) :
    ∃ parser', nextBlock parser (d.payload.take encStMaxDgram.toNat) (some d.remoteAddr)
        = (parser', freshParse decode name "st" d) ∧ DatagramReady decode parser' := by
  have hwhole : d.payload.take encStMaxDgram.toNat = d.payload :=
    List.take_of_length_le (Nat.le_trans d.size (by decide))
  rw [hwhole, freshParse_eq]
  exact nextBlock_datagram hready d.remoteAddr d.payload

/-! ## The undisturbed server -/

/-- The place of the loops over messages and channels. -/
def offerPlace : Receiver M → Option (List M × Nat)
  | .delivering _ _ _ msgs i => some (msgs, i)
  | _ => none

/-- The channels are as far as the loops are. -/
def Progress (msgsOf : Datagram → List M) (s : ServerState M) : Prop :=
  Swept s.dataChans (s.handled.flatMap msgsOf) ((inHand s.receiver).flatMap msgsOf)
    (offerPlace s.receiver)

/-- What no position of the receiver bears on. -/
structure Calm (s : ServerState M) : Prop where
  listens : ∀ n ∈ s.listens, n = 0
  cancelled : s.cancelled = false
  buffered : ∀ ch ∈ s.dataChans, ch.Buffered

/-- The one socket there is holds these datagrams, all of them well formed. -/
structure Bound (decode : Encoding → Codec M) (name : String) (s : ServerState M)
    (queue : List Datagram) : Prop where
  sockets : s.sockets = [⟨true, queue⟩]
  listener : s.listener = some 0
  closedListener : s.closedListener = false
  accepted : ∀ d ∈ queue, Accepted decode name "st" d

/-- The receiver is alive, on the first socket. -/
inductive Running (decode : Encoding → Codec M) : Receiver M → Prop where
  | starting : Running decode .starting
  | reading {parser : EncapSTParser M} (ready : DatagramReady decode parser) :
      Running decode (.reading 0 parser)
  | delivering {parser : EncapSTParser M} {d : Datagram} {msgs : List M} {i : Nat}
      (ready : DatagramReady decode parser) :
      Running decode (.delivering 0 parser d msgs i)

/-- The server before and after its one successful bind. -/
inductive Healthy (decode : Encoding → Codec M) (name : String) (s : ServerState M) :
    Prop where
  | unbound (calm : Calm s) (receiver : s.receiver = .stopped) (sockets : s.sockets = [])
      (arrived : s.arrived = []) (handled : s.handled = [])
      (carried : AllCarry s.dataChans [])
  | bound {queue : List Datagram} (calm : Calm s) (isBound : Bound decode name s queue)
      (running : Running decode s.receiver)
      (arrived : s.arrived = s.handled ++ inHand s.receiver ++ queue)
      (progress : Progress (datagramMsgs decode name "st") s)

theorem healthy_init (decode : Encoding → Codec M) (name encap : String) {caps : List Nat}
    (hcaps : ∀ cap ∈ caps, 0 < cap) :
    Healthy decode name (udpServer decode name encap caps).init := by
  refine .unbound ⟨fun _ hn => (nomatch hn), rfl, ?_⟩ rfl rfl rfl rfl (allCarry_make caps)
  intro ch hch
  obtain ⟨cap, hcap, rfl⟩ := List.mem_map.mp hch
  exact Chan.buffered_make (hcaps cap hcap)

/-- Outside the delivery every channel is up to date. -/
theorem Progress.allCarry {msgsOf : Datagram → List M} (hp : Progress msgsOf s)
    (hhand : inHand s.receiver = []) (hplace : offerPlace s.receiver = none) :
    AllCarry s.dataChans (s.handled.flatMap msgsOf) := by
  unfold Progress at hp
  rw [hhand, hplace] at hp
  have hall := swept_none.mp hp
  rw [List.flatMap_nil, List.append_nil] at hall
  exact hall

/-- Going on with the loops, or back to reading, keeps the server healthy. -/
theorem healthy_goOn {queue : List Datagram} (hcalm : Calm s) (hbound : Bound decode name s queue)
    (hready : DatagramReady decode parser) (harrived : s.arrived = s.handled ++ [d] ++ queue)
    (hswept : Swept s.dataChans (s.handled.flatMap (datagramMsgs decode name "st"))
      (datagramMsgs decode name "st" d) (place s.dataChans.length msgs i)) :
    Healthy decode name (goOn s 0 parser d msgs i) := by
  have hcalm' : ∀ r h, Calm { s with receiver := r, handled := h } :=
    fun _ _ => ⟨hcalm.listens, hcalm.cancelled, hcalm.buffered⟩
  have hbound' : ∀ r h, Bound decode name { s with receiver := r, handled := h } queue :=
    fun _ _ => ⟨hbound.sockets, hbound.listener, hbound.closedListener, hbound.accepted⟩
  unfold goOn
  cases hplace : place s.dataChans.length msgs i with
  | none =>
      rw [hplace] at hswept
      refine .bound (hcalm' _ _) (hbound' _ _) (.reading hready) ?_ ?_
      · show s.arrived = (s.handled ++ [d]) ++ [] ++ queue
        rw [List.append_nil]
        exact harrived
      · refine swept_start ?_ []
        show AllCarry s.dataChans ((s.handled ++ [d]).flatMap _)
        rw [List.flatMap_append, List.flatMap_singleton]
        exact swept_none.mp hswept
  | some p =>
      rw [hplace] at hswept
      refine .bound (hcalm' _ _) (hbound' _ _) (.delivering hready) harrived ?_
      show Swept s.dataChans _ ([d].flatMap _) (some p)
      rw [List.flatMap_singleton]
      exact hswept

/-- A well-formed datagram goes to the loops over its messages. -/
theorem handleDatagram_accepted (hready : DatagramReady decode parser)
    (hd : Accepted decode name "st" d) (s : ServerState M) (conn : Nat) :
    ∃ parser', DatagramReady decode parser' ∧
      handleDatagram s conn parser encStMaxDgram.toNat d
        = goOn s conn parser' d (datagramMsgs decode name "st" d) 0 := by
  obtain ⟨parser', hnext, hready'⟩ := nextBlock_eq_freshParse hready name d
  obtain ⟨answer, hanswer⟩ := hd
  refine ⟨parser', hready', ?_⟩
  rw [handleDatagram, hnext, datagramMsgs, hanswer]
  cases answer <;> rfl

theorem Healthy.calm {decode : Encoding → Codec M} {name : String} {s : ServerState M}
    (h : Healthy decode name s) : Calm s := by
  cases h with
  | unbound calm => exact calm
  | bound calm => exact calm

/-- The supervisor moves on its own. -/
theorem Healthy.supervisor {decode : Encoding → Codec M} {name : String}
    {s : ServerState M} (h : Healthy decode name s) (pc : Supervisor) :
    Healthy decode name { s with supervisor := pc } := by
  cases h with
  | unbound calm receiver sockets arrived handled carried =>
      exact .unbound ⟨calm.listens, calm.cancelled, calm.buffered⟩ receiver sockets arrived
        handled carried
  | bound calm isBound running arrived progress =>
      exact .bound ⟨calm.listens, calm.cancelled, calm.buffered⟩
        ⟨isBound.sockets, isBound.listener, isBound.closedListener, isBound.accepted⟩
        running arrived progress

/-- A well-formed datagram arrives. -/
theorem Healthy.arrive (h : Healthy decode name s) (hd : Accepted decode name "st" d)
    (hconn : s.sockets.findIdx? (·.isOpen) = some conn) :
    Healthy decode name { s with
      sockets := s.sockets.modify conn (fun sock => { sock with queue := sock.queue ++ [d] })
      arrived := s.arrived ++ [d] } := by
  cases h with
  | unbound _ _ sockets =>
      rw [sockets] at hconn
      exact nomatch hconn
  | @bound queue calm isBound running arrived progress =>
      rw [isBound.sockets] at hconn
      have hzero : conn = 0 := (Option.some.inj hconn).symm
      have hbound : Bound decode name { s with
          sockets := s.sockets.modify conn
            (fun sock => { sock with queue := sock.queue ++ [d] })
          arrived := s.arrived ++ [d] } (queue ++ [d]) := by
        refine ⟨?_, isBound.listener, isBound.closedListener, ?_⟩
        · simp only [isBound.sockets, hzero]
          rfl
        · intro x hx
          rcases List.mem_append.mp hx with hold | hnew
          · exact isBound.accepted x hold
          · rw [List.mem_singleton.mp hnew]
            exact hd
      refine .bound ⟨calm.listens, calm.cancelled, calm.buffered⟩ hbound running ?_ progress
      show s.arrived ++ [d] = s.handled ++ inHand s.receiver ++ (queue ++ [d])
      rw [arrived, List.append_assoc _ queue]

/-- Only sockets nothing refers to are collected, and there are none. -/
theorem Healthy.collect (h : Healthy decode name s) (hconn : s.listener ≠ some conn) :
    Healthy decode name { s with
      sockets := s.sockets.modify conn (fun _ => ⟨false, []⟩) } := by
  cases h with
  | unbound calm receiver sockets arrived handled carried =>
      refine .unbound ⟨calm.listens, calm.cancelled, calm.buffered⟩ receiver ?_ arrived
        handled carried
      rw [sockets]
      exact List.modify_nil ..
  | @bound queue calm isBound running arrived progress =>
      have hbound : Bound decode name { s with
          sockets := s.sockets.modify conn (fun _ => ⟨false, []⟩) } queue := by
        refine ⟨?_, isBound.listener, isBound.closedListener, isBound.accepted⟩
        cases conn with
        | zero => exact absurd isBound.listener hconn
        | succ k =>
            simp only [isBound.sockets, List.modify_succ_cons, List.modify_nil]
      exact .bound ⟨calm.listens, calm.cancelled, calm.buffered⟩ hbound running arrived
        progress

/-- A stage downstream receives. -/
theorem Healthy.drain (h : Healthy decode name s) {ch ch' : Chan M} {m : M}
    (hch : s.dataChans[i]? = some ch) (hrecv : ch.recv = some (m, ch')) :
    Healthy decode name { s with dataChans := s.dataChans.set i ch' } := by
  have hcalm : Calm { s with dataChans := s.dataChans.set i ch' } := by
    refine ⟨h.calm.listens, h.calm.cancelled, ?_⟩
    intro c hc
    rcases List.mem_or_eq_of_mem_set hc with hold | rfl
    · exact h.calm.buffered c hold
    · exact (h.calm.buffered ch (List.mem_of_getElem? hch)).recv hrecv
  cases h with
  | unbound _ receiver sockets arrived handled carried =>
      refine .unbound hcalm receiver sockets arrived handled ?_
      exact swept_none.mp ((swept_start carried []).recv hch hrecv)
  | bound _ isBound running arrived progress =>
      exact .bound hcalm
        ⟨isBound.sockets, isBound.listener, isBound.closedListener, isBound.accepted⟩
        running arrived (Swept.recv progress hch hrecv)

/-- A bind is only tried before the first one succeeded. -/
theorem Healthy.listen (h : Healthy decode name s) (hclosed : s.closedListener = true)
    (osOk : Bool) : Healthy decode name (listenUDP s osOk) := by
  cases h with
  | bound _ isBound =>
      rw [isBound.closedListener] at hclosed
      exact nomatch hclosed
  | unbound calm receiver sockets arrived handled carried =>
      have hfree : (openSockets s).length = 0 := by rw [openSockets, sockets]; rfl
      have hlistens : ∀ n ∈ s.listens ++ [(openSockets s).length], n = 0 := by
        intro n hn
        rcases List.mem_append.mp hn with hold | hnew
        · exact calm.listens n hold
        · rw [List.mem_singleton.mp hnew]
          exact hfree
      unfold listenUDP
      simp only
      split
      · have hbound : Bound decode name { s with
            listens := s.listens ++ [(openSockets s).length]
            sockets := s.sockets ++ [⟨true, []⟩]
            listener := some s.sockets.length
            closedListener := false
            receiver := .starting } [] := by
          refine ⟨?_, ?_, rfl, fun _ hd => nomatch hd⟩
          · simp only [sockets, List.nil_append]
          · simp only [sockets, List.length_nil]
        refine .bound ⟨hlistens, calm.cancelled, calm.buffered⟩ hbound .starting ?_ ?_
        · simp only [arrived, handled]
          rfl
        · simp only [Progress, handled]
          exact swept_start carried []
      · exact .unbound ⟨hlistens, calm.cancelled, calm.buffered⟩ receiver sockets arrived
          handled carried

/-- The receiver starts with a parser of its own. -/
theorem Healthy.start (h : Healthy decode name s) (hr : s.receiver = .starting) :
    s.listener = some 0 ∧ ∃ parser, getNewEncapParser decode name "st" none = .ok parser ∧
      Healthy decode name { s with receiver := .reading 0 parser } := by
  cases h with
  | unbound _ receiver =>
      rw [hr] at receiver
      exact nomatch receiver
  | bound calm isBound _ arrived progress =>
      obtain ⟨parser, hnew, hready⟩ := datagramReady_new decode name
      refine ⟨isBound.listener, parser, hnew, ?_⟩
      unfold Progress at progress
      rw [hr] at arrived progress
      exact .bound ⟨calm.listens, calm.cancelled, calm.buffered⟩
        ⟨isBound.sockets, isBound.listener, isBound.closedListener, isBound.accepted⟩
        (.reading hready) arrived progress

/-- What a reading receiver finds: its parser is ready, its buffer takes any
    datagram, and the next datagram is well formed and keeps the server
    healthy. -/
theorem Healthy.read (h : Healthy decode name s) (hr : s.receiver = .reading conn parser) :
    conn = 0 ∧ DatagramReady decode parser ∧
      ∃ queue, s.sockets = [⟨true, queue⟩] ∧ s.arrived = s.handled ++ queue ∧
        ∀ d rest, queue = d :: rest → Accepted decode name "st" d ∧
          Healthy decode name (handleDatagram { s with sockets := [⟨true, rest⟩] } 0 parser
            encStMaxDgram.toNat d) := by
  cases h with
  | unbound _ receiver =>
      rw [hr] at receiver
      exact nomatch receiver
  | @bound queue calm isBound running arrived progress =>
      have hall := progress.allCarry (by rw [hr]; rfl) (by rw [hr]; rfl)
      rw [hr] at running arrived
      cases running with
      | reading ready =>
          simp only [inHand, List.append_nil] at arrived
          refine ⟨rfl, ready, queue, isBound.sockets, arrived, ?_⟩
          rintro d rest rfl
          have hd := isBound.accepted d (List.mem_cons_self ..)
          obtain ⟨parser', hready', hgo⟩ := handleDatagram_accepted ready hd
            { s with sockets := [⟨true, rest⟩] } 0
          have hbound : Bound decode name { s with sockets := [⟨true, rest⟩] } rest :=
            ⟨rfl, isBound.listener, isBound.closedListener,
              fun x hx => isBound.accepted x (List.mem_cons_of_mem _ hx)⟩
          refine ⟨hd, ?_⟩
          rw [hgo]
          refine healthy_goOn ⟨calm.listens, calm.cancelled, calm.buffered⟩ hbound hready' ?_
            (swept_start hall _)
          show s.arrived = s.handled ++ [d] ++ rest
          rw [arrived, List.append_assoc]
          rfl

/-- A message sent to the channel it is offered to. -/
theorem Healthy.offer (h : Healthy decode name s)
    (hr : s.receiver = .delivering conn parser d msgs i) :
    conn = 0 ∧ ∃ msg rest ch, msgs = msg :: rest ∧ s.dataChans[i]? = some ch ∧
      ch.Buffered ∧ (∃ carried, ch.Carries carried false) ∧
      ∀ ch' receiver, ch.send msg receiver = .ok ch' →
        Healthy decode name (goOn { s with dataChans := s.dataChans.set i ch' } 0 parser d
          msgs (i + 1)) := by
  cases h with
  | unbound _ receiver =>
      rw [hr] at receiver
      exact nomatch receiver
  | @bound queue calm isBound running arrived progress =>
      unfold Progress at progress
      rw [hr] at running arrived progress
      simp only [inHand, offerPlace, List.flatMap_singleton] at arrived progress
      cases running with
      | delivering ready =>
          obtain ⟨hlt, msg, rest, rfl⟩ := progress.1 msgs i rfl
          have hch : s.dataChans[i]? = some (s.dataChans.get ⟨i, hlt⟩) :=
            List.getElem?_eq_getElem hlt
          have hbuf := calm.buffered _ (List.mem_of_getElem? hch)
          refine ⟨rfl, msg, rest, _, rfl, hch, hbuf, progress.opened hch, ?_⟩
          intro ch' receiver hsend
          have hcalm : Calm { s with dataChans := s.dataChans.set i ch' } := by
            refine ⟨calm.listens, calm.cancelled, ?_⟩
            intro c hc
            rcases List.mem_or_eq_of_mem_set hc with hin | rfl
            · exact calm.buffered c hin
            · exact hbuf.send hsend
          have hbound : Bound decode name { s with dataChans := s.dataChans.set i ch' } queue :=
            ⟨isBound.sockets, isBound.listener, isBound.closedListener, isBound.accepted⟩
          refine healthy_goOn hcalm hbound ready arrived ?_
          show Swept (s.dataChans.set i ch') _ _ (place (s.dataChans.set i ch').length _ _)
          rw [List.length_set]
          exact progress.send hch hsend

/-- **A BENIGN STEP KEEPS THE SERVER HEALTHY**. -/
theorem healthy_step {t : ServerState M} {a : UdpLabel} (h : Healthy decode name s)
    (hb : Benign decode name "st" s a) (hstep : udpStep decode name "st" s a = some t) :
    Healthy decode name t := by
  cases moves_of_step hstep with
  | arrived hconn => exact h.arrive hb hconn
  | collected hfree _ => exact h.collect hfree
  | drained hch hrecv => exact h.drain hch hrecv
  | listened _ hclosed => exact h.listen hclosed _
  | woken _ => exact h.supervisor _
  | ignored _ => exact h
  | shutUnbound _ _ => exact absurd rfl hb
  | shutBound _ _ => exact absurd rfl hb
  | closed _ _ => exact h.supervisor _
  | noParser hr _ herr =>
      obtain ⟨-, parser, hnew, -⟩ := h.start hr
      rw [hnew] at herr
      cases herr
  | started hr hl hok =>
      obtain ⟨hlistener, parser, hnew, hhealthy⟩ := h.start hr
      rw [hlistener] at hl
      cases hl
      rw [hnew] at hok
      cases hok
      exact hhealthy
  | noBuffer hr herr =>
      obtain ⟨-, hready, -⟩ := h.read hr
      rw [nextBlockBuffer_datagram hready] at herr
      cases herr
  | received hr hbuf hsock =>
      obtain ⟨rfl, hready, queue, hsockets, -, hread⟩ := h.read hr
      rw [nextBlockBuffer_datagram hready] at hbuf
      cases hbuf
      rw [hsockets] at hsock ⊢
      cases hsock
      exact (hread _ _ rfl).2
  | readFailed _ => exact hb.elim
  | passed hr hch hfull =>
      -- the channel the message is offered to is never full
      refine absurd hfull (hb _ ?_)
      rw [offeredTo, hr]
      exact hch
  | offered hr hch hsend =>
      obtain ⟨rfl, msg', rest', ch, heq, hch', -, -, hsent⟩ := h.offer hr
      cases heq
      rw [hch'] at hch
      cases hch
      exact hsent _ false hsend
  | offerPanic hr hch hpanic =>
      obtain ⟨rfl, msg', rest', ch, heq, hch', -, ⟨carried, hopen⟩, -⟩ := h.offer hr
      cases heq
      rw [hch'] at hch
      cases hch
      exact absurd hpanic (hopen.send_ne_panic _ false)
  | abandoned _ hcancel =>
      -- a healthy server is never cancelled, so the send is not abandoned
      rw [h.calm.cancelled] at hcancel
      cases hcancel

/-! ## Everything that arrived is delivered -/

/-- A message in hand is sent, once the channel it is offered to has room. -/
theorem offer_leads (h : Healthy decode name s)
    (hr : s.receiver = .delivering conn parser d msgs i) :
    i < s.dataChans.length ∧ ∃ msg rest chans, msgs = msg :: rest ∧
      chans.length = s.dataChans.length ∧
      Leads (udpServer decode name "st" caps) Delivering s
        (goOn { s with dataChans := chans } 0 parser d msgs (i + 1)) ∧
      Healthy decode name (goOn { s with dataChans := chans } 0 parser d msgs (i + 1)) := by
  -- with room, one offer does it
  have hroomy : ∀ u : ServerState M, Healthy decode name u →
      u.receiver = .delivering conn parser d msgs i →
      ∀ ch, u.dataChans[i]? = some ch → ch.cap ≠ ch.buf.length →
      ∃ msg rest ch', msgs = msg :: rest ∧
        Leads (udpServer decode name "st" caps) Delivering u
          (goOn { u with dataChans := u.dataChans.set i ch' } 0 parser d msgs (i + 1)) ∧
        Healthy decode name
          (goOn { u with dataChans := u.dataChans.set i ch' } 0 parser d msgs (i + 1)) := by
    intro u hu hru ch hch hroom
    obtain ⟨rfl, msg, rest, c, rfl, hc, hbuf, ⟨carried, hopen⟩, hsent⟩ := hu.offer hru
    rw [hch] at hc
    cases hc
    obtain ⟨ch', hsend⟩ := hbuf.send_ok hopen hroom msg
    refine ⟨msg, rest, ch', rfl, Leads.single trivial (a := .offer) ?_,
      hsent ch' false hsend⟩
    show udpStep decode name "st" u .offer = _
    simp only [udpStep, hru, hch, if_neg hroom, hsend]
  obtain ⟨-, msg, rest, ch, -, hch, hbuf, -, -⟩ := h.offer hr
  refine ⟨(List.getElem?_eq_some_iff.mp hch).1, ?_⟩
  by_cases hfull : ch.cap = ch.buf.length
  · -- the stage downstream makes room first
    obtain ⟨m, ch₁, hrecv, hroom⟩ := hbuf.recv_ok hfull
    have hch₁ : (s.dataChans.set i ch₁)[i]? = some ch₁ := by
      rw [List.getElem?_set_self (List.getElem?_eq_some_iff.mp hch).1]
    obtain ⟨msg', rest', ch', hmsgs, hleads, hhealthy⟩ :=
      hroomy { s with dataChans := s.dataChans.set i ch₁ } (h.drain hch hrecv) hr ch₁ hch₁
        hroom
    refine ⟨msg', rest', (s.dataChans.set i ch₁).set i ch', hmsgs, ?_, ?_, hhealthy⟩
    · rw [List.length_set, List.length_set]
    · refine Leads.trans (Leads.single trivial (a := .drain i) ?_) hleads
      show udpStep decode name "st" s (.drain i) = _
      simp only [udpStep, hch, hrecv]
  · obtain ⟨msg', rest', ch', hmsgs, hleads, hhealthy⟩ := hroomy s h hr ch hch hfull
    exact ⟨msg', rest', s.dataChans.set i ch', hmsgs, List.length_set, hleads, hhealthy⟩

/-- The loops over messages and channels end: by induction on the sends that
    are left. -/
theorem goOn_leads (k : Nat) :
    ∀ (s : ServerState M) (msgs : List M) (i : Nat),
      left s.dataChans.length (place s.dataChans.length msgs i) = k →
      Healthy decode name (goOn s 0 parser d msgs i) →
      ∃ t, Leads (udpServer decode name "st" caps) Delivering (goOn s 0 parser d msgs i) t ∧
        Healthy decode name t ∧ t.arrived = s.arrived ∧ t.handled = s.handled ++ [d] := by
  induction k using Nat.strong_induction_on with
  | _ k ih =>
      intro s msgs i hk h
      unfold goOn at h ⊢
      cases hplace : place s.dataChans.length msgs i with
      | none =>
          rw [hplace] at h
          exact ⟨_, Leads.refl .., h, rfl, rfl⟩
      | some p =>
          obtain ⟨msgs', i'⟩ := p
          rw [hplace] at h hk
          obtain ⟨hlt, msg, rest, chans, rfl, hlen, hleads, hhealthy⟩ := offer_leads caps h rfl
          have hleft : left chans.length (place chans.length (msg :: rest) (i' + 1)) + 1 = k := by
            rw [hlen, ← hk]
            exact left_next hlt msg rest
          obtain ⟨t, ht, hhealthy', harrived, hhandled⟩ := ih
            (left chans.length (place chans.length (msg :: rest) (i' + 1))) (by omega)
            { s with receiver := .delivering 0 parser d (msg :: rest) i', dataChans := chans }
            (msg :: rest) (i' + 1) rfl hhealthy
          exact ⟨t, hleads.trans ht, hhealthy', harrived, hhandled⟩

/-- A reading receiver handles the next datagram. -/
theorem reading_leads (h : Healthy decode name s) (hr : s.receiver = .reading conn parser)
    (hmore : s.handled ≠ s.arrived) :
    ∃ t, Leads (udpServer decode name "st" caps) Delivering s t ∧ Healthy decode name t ∧
      t.arrived = s.arrived ∧ t.handled.length = s.handled.length + 1 := by
  obtain ⟨rfl, hready, queue, hsockets, harrived, hread⟩ := h.read hr
  cases queue with
  | nil =>
      rw [List.append_nil] at harrived
      exact absurd harrived.symm hmore
  | cons d rest =>
      obtain ⟨hd, hhealthy⟩ := hread d rest rfl
      obtain ⟨parser', -, hgo⟩ := handleDatagram_accepted hready hd
        { s with sockets := [⟨true, rest⟩] } 0
      rw [hgo] at hhealthy
      obtain ⟨t, hleads, hhealthy', harrived', hhandled⟩ := goOn_leads caps _ _ _ _ rfl hhealthy
      refine ⟨t, Leads.trans (Leads.single trivial (a := .read) ?_) hleads, hhealthy',
        harrived', ?_⟩
      · show udpStep decode name "st" s .read = _
        simp only [udpStep, hr, nextBlockBuffer_datagram hready, hsockets]
        exact congrArg some hgo
      · rw [hhandled, List.length_append]
        rfl

/-- **THE NEXT DATAGRAM IS HANDLED**: from a healthy state, the receiver and the
    stages downstream can do it on their own. -/
theorem healthy_advances (h : Healthy decode name s) (hmore : s.handled ≠ s.arrived) :
    ∃ t, Leads (udpServer decode name "st" caps) Delivering s t ∧ Healthy decode name t ∧
      t.arrived = s.arrived ∧ t.handled.length = s.handled.length + 1 := by
  cases hr : s.receiver with
  | starting =>
      obtain ⟨hlistener, parser, hnew, hhealthy⟩ := h.start hr
      obtain ⟨t, hleads, hrest⟩ := reading_leads caps hhealthy rfl hmore
      refine ⟨t, Leads.trans (Leads.single trivial (a := .start) ?_) hleads, hrest⟩
      show udpStep decode name "st" s .start = _
      simp only [udpStep, hr, hlistener, hnew]
  | reading conn parser => exact reading_leads caps h hr hmore
  | delivering conn parser d msgs i =>
      obtain ⟨-, msg, rest, chans, -, -, hleads, hhealthy⟩ := offer_leads caps h hr
      obtain ⟨t, ht, hhealthy', harrived, hhandled⟩ := goOn_leads caps _ _ _ _ rfl hhealthy
      refine ⟨t, hleads.trans ht, hhealthy', harrived, ?_⟩
      rw [hhandled, List.length_append]
      rfl
  | stopped =>
      cases h with
      | unbound _ _ _ arrived handled => exact absurd (handled.trans arrived.symm) hmore
      | bound _ _ running =>
          rw [hr] at running
          exact nomatch running
  | crashed =>
      cases h with
      | unbound _ receiver =>
          rw [hr] at receiver
          exact nomatch receiver
      | bound _ _ running =>
          rw [hr] at running
          exact nomatch running

/-- No more is handled than arrived. -/
theorem Healthy.handled_length_le (h : Healthy decode name s) :
    s.handled.length ≤ s.arrived.length := by
  cases h with
  | unbound _ _ _ _ handled =>
      rw [handled]
      exact Nat.zero_le _
  | bound _ _ _ arrived =>
      rw [arrived, List.append_assoc, List.length_append]
      exact Nat.le_add_right ..

/-- When everything that arrived is handled, every channel has all of it. -/
theorem Healthy.all_handled (h : Healthy decode name s) (hall : s.handled = s.arrived) :
    ∀ ch ∈ s.dataChans,
      ch.Carries (s.arrived.flatMap (datagramMsgs decode name "st")) false := by
  intro ch hch
  obtain ⟨j, hj⟩ := List.mem_iff_getElem?.mp hch
  cases h with
  | unbound _ _ _ arrived _ carried =>
      rw [arrived]
      exact carried j ch hj
  | bound _ _ _ arrived progress =>
      have hnone : inHand s.receiver = [] := by
        have hlen := congrArg List.length arrived
        rw [← hall, List.length_append, List.length_append] at hlen
        exact List.length_eq_zero_iff.mp (by omega)
      obtain ⟨part, hpart, hcarries⟩ := Swept.carries progress hch
      rw [hnone] at hpart
      rw [List.prefix_nil.mp hpart, List.append_nil, hall] at hcarries
      exact hcarries

/-- A healthy server can deliver everything that arrived: by induction on the
    datagrams that are not handled. -/
theorem healthy_delivers (k : Nat) : ∀ {s : ServerState M}, Healthy decode name s →
      s.arrived.length - s.handled.length = k →
      ∃ t, Leads (udpServer decode name "st" caps) Delivering s t ∧
        t.arrived = s.arrived ∧ ∀ ch ∈ t.dataChans,
          ch.Carries (s.arrived.flatMap (datagramMsgs decode name "st")) false := by
  induction k with
  | zero =>
      intro s h hk
      have hall : s.handled = s.arrived := by
        -- one more could be handled, which is more than arrived
        by_contra hmore
        obtain ⟨t, -, ht, harrived, hhandled⟩ := healthy_advances caps h hmore
        have hle := ht.handled_length_le
        rw [harrived, hhandled] at hle
        omega
      exact ⟨s, Leads.refl .., rfl, h.all_handled hall⟩
  | succ k ih =>
      intro s h hk
      have hmore : s.handled ≠ s.arrived := by
        intro heq
        rw [heq, Nat.sub_self] at hk
        exact nomatch hk
      obtain ⟨t, hleads, ht, harrived, hhandled⟩ := healthy_advances caps h hmore
      obtain ⟨u, htu, hu, hdelivered⟩ := ih ht (by rw [harrived, hhandled]; omega)
      rw [harrived] at hu hdelivered
      exact ⟨u, hleads.trans htu, hu, hdelivered⟩

/-- A healthy server is undisturbed. -/
theorem Healthy.undisturbed (h : Healthy decode name s) :
    Undisturbed (datagramMsgs decode name "st") s := by
  cases h with
  | unbound calm receiver sockets arrived handled carried =>
      refine ⟨?_, ?_, calm.listens⟩
      · rw [arrived, handled, unread, receiverConn, receiver]
        rfl
      · intro ch hch
        obtain ⟨j, hj⟩ := List.mem_iff_getElem?.mp hch
        rw [handled, receiver]
        exact ⟨[], List.prefix_rfl, carried j ch hj⟩
  | @bound queue calm isBound running arrived progress =>
      have hunread : unread s = queue := by
        have hconn : receiverConn s = some 0 := by
          -- a running receiver holds the only socket there is
          unfold receiverConn
          revert running
          cases s.receiver with
          | starting => exact fun _ => isBound.listener
          | reading conn parser =>
              rintro ⟨_⟩
              rfl
          | delivering conn parser d msgs i =>
              rintro ⟨_⟩
              rfl
          | _ => exact fun hr => nomatch hr
        rw [unread, hconn, isBound.sockets]
        rfl
      refine ⟨?_, ?_, calm.listens⟩
      · rw [hunread]
        exact arrived
      · exact fun ch hch => Swept.carries progress hch

/-- **WELL-FORMED DATAGRAMS ARE DELIVERED**: while every datagram that arrives
    parses, nothing is lost in any interleaving, no bind finds the bindpoint
    taken, and from every state the receiver and the stages downstream can
    bring everything that arrived to every channel. -/
theorem udpServer_delivers (decode : Encoding → Codec M) (name encap : String)
    (hencap : encap = "st") (caps : List Nat) (hcaps : ∀ cap ∈ caps, 0 < cap) (s : ServerState M)
    (h : Reach (udpServer decode name encap caps) (Benign decode name encap) s) :
    Undisturbed (datagramMsgs decode name encap) s ∧
      ∃ t, Leads (udpServer decode name encap caps) Delivering s t ∧
        t.arrived = s.arrived ∧ ∀ ch ∈ t.dataChans,
          ch.Carries (s.arrived.flatMap (datagramMsgs decode name encap)) false := by
  subst hencap
  have hhealthy : Healthy decode name s := by
    refine h.invariant (healthy_init decode name "st" hcaps) ?_
    exact fun _ _ _ hs hb hstep => healthy_step hs hb hstep
  exact ⟨hhealthy.undisturbed, healthy_delivers caps _ hhealthy rfl⟩

/-- A JSON datagram of one octet. -/
def goodDatagram : Datagram :=
  ⟨"10.0.0.1", [0, 1, 0, 2, 0, 1, 0, 0, 0, 0, 0, 1, 123], by decide⟩

theorem goodDatagram_accepted : Accepted wholeBlocks "udpin" "st" goodDatagram :=
  ⟨_, rfl⟩

/-- Two datagrams, the first of them read. -/
def deliveryRun : List UdpLabel :=
  [.listen true, .start, .arrive goodDatagram, .ctrl .report, .read, .arrive goodDatagram]

theorem deliveryRun_benign (s : ServerState Octets) :
    ∀ a ∈ deliveryRun, Benign wholeBlocks "udpin" "st" s a := by
  intro a ha
  simp only [deliveryRun, List.mem_cons, List.not_mem_nil, or_false] at ha
  rcases ha with rfl | rfl | rfl | rfl | rfl | rfl
  · trivial
  · trivial
  · exact goodDatagram_accepted
  · exact fun h => nomatch h
  · trivial
  · exact goodDatagram_accepted

theorem udpServer_delivers_sample :
    ∃ s, exec (udpServer wholeBlocks "udpin" "st" [1000])
        (udpServer wholeBlocks "udpin" "st" [1000]).init deliveryRun = some s ∧
      s.arrived = [goodDatagram, goodDatagram] ∧
      Undisturbed (datagramMsgs wholeBlocks "udpin" "st") s ∧
      ∃ t, Leads (udpServer wholeBlocks "udpin" "st" [1000]) Delivering s t ∧
        t.arrived = s.arrived ∧ ∀ ch ∈ t.dataChans,
          ch.Carries (s.arrived.flatMap (datagramMsgs wholeBlocks "udpin" "st")) false :=
  ⟨_, rfl, rfl, udpServer_delivers wholeBlocks "udpin" "st" rfl [1000] (by decide) _
    (reach_exec deliveryRun deliveryRun_benign .init rfl)⟩

/-! ## A malformed datagram -/

/-- **A MALFORMED DATAGRAM STOPS THE SERVER**: when the receiver reads one, the
    next bind finds the bindpoint taken by the server's own socket and fails,
    and no receiver is left. -/
theorem malformed_relistens (decode : Encoding → Codec M) (name : String) (caps : List Nat)
    {rest : List Datagram} (hr : s.receiver = .reading conn parser)
    (hready : DatagramReady decode parser) (hwait : s.supervisor = .waiting)
    (hsock : s.sockets[conn]? = some ⟨true, d :: rest⟩) (hd : ¬ Accepted decode name "st" d)
    (osOk : Bool) :
    ∃ t, exec (udpServer decode name "st" caps) s [.read, .listen osOk] = some t ∧
      t.receiver = .stopped ∧ t.listener = none ∧ ∃ n ∈ t.listens, n ≠ 0 := by
  -- reading it ends the receiver with the socket still open
  have hread : udpStep decode name "st" s .read = some (stop { s with
      sockets := s.sockets.set conn ⟨true, rest⟩, handled := s.handled ++ [d] }) := by
    obtain ⟨parser', hnext, -⟩ := nextBlock_eq_freshParse hready name d
    cases hparse : freshParse decode name "st" d with
    | ok msgs => exact absurd ⟨msgs, hparse⟩ hd
    | error err =>
        rw [hparse] at hnext
        simp only [udpStep, hr, nextBlockBuffer_datagram hready, hsock, handleDatagram, hnext]
  have hlt : conn < s.sockets.length := (List.getElem?_eq_some_iff.mp hsock).1
  -- nothing closes it before the supervisor binds again
  have hopen : (s.sockets.set conn ⟨true, rest⟩).filter (·.isOpen) ≠ [] := by
    refine List.ne_nil_of_mem (a := ⟨true, rest⟩) (List.mem_filter.mpr ⟨?_, rfl⟩)
    exact List.mem_set hlt _
  have hcount : ((s.sockets.set conn ⟨true, rest⟩).filter (·.isOpen)).length ≠ 0 :=
    fun h0 => hopen (List.length_eq_zero_iff.mp h0)
  refine ⟨listenUDP (stop { s with
      sockets := s.sockets.set conn ⟨true, rest⟩, handled := s.handled ++ [d] }) osOk, ?_, ?_⟩
  · show (udpStep decode name "st" s .read).bind _ = _
    rw [hread]
    show (udpStep decode name "st" _ (.listen osOk)).bind _ = _
    rw [udpStep, if_pos ⟨hwait, rfl⟩]
    rfl
  · unfold listenUDP
    simp only
    rw [if_neg (fun h => hcount h.2)]
    exact ⟨rfl, rfl, _, List.mem_append_right _ (List.mem_singleton_self _), hcount⟩

/-- An empty datagram. -/
def emptyDatagram : Datagram := ⟨"10.0.0.2", [], by decide⟩

/-- The datagram after an empty one. -/
def malformedRun : List UdpLabel :=
  [.listen true, .start, .arrive emptyDatagram, .arrive goodDatagram, .read, .listen true]

/-- The well-formed datagram stays in a socket nobody reads. -/
theorem malformed_loses_next :
    Accepted wholeBlocks "udpin" "st" goodDatagram ∧
    ∃ s, exec (udpServer wholeBlocks "udpin" "st" [1000])
        (udpServer wholeBlocks "udpin" "st" [1000]).init malformedRun = some s ∧
      s.cancelled = false ∧ s.listens = [0, 1] ∧ s.receiver = .stopped ∧
      s.sockets = [⟨true, [goodDatagram]⟩] ∧ s.dataChans = [Chan.make 1000] ∧
      ¬ Undisturbed (datagramMsgs wholeBlocks "udpin" "st") s := by
  refine ⟨⟨_, rfl⟩, _, rfl, rfl, rfl, rfl, rfl, rfl, ?_⟩
  intro h
  exact absurd (h.listens 1 (List.mem_cons_of_mem 0 (List.mem_singleton_self 1)))
    Nat.one_ne_zero

end PipelineUdpServer
