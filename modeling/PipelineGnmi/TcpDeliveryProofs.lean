import PipelineGnmi.RelayProofs
import PipelineGnmi.TcpServerProofs
import PipelineGnmi.TcpStreamProofs

/-! # Connections through the server

    `TcpStreamProofs` reads one connection from end to end, and
    `TcpServerProofs` runs any number of handlers against the control loop, the
    accept loop and the stages downstream.  This file puts the two together.
    Each handler has a ledger of the octets it has read and of what it has sent
    on each of the data channels.  In every interleaving

    * what a handler has sent on a channel is a beginning of what its connection
      is worth, and all of it once the handler has returned, unless it was
      cancelled (`Agrees`);
    * the channels carried an interleaving of what the handlers have sent, and
      nothing else (`Relay.Accounts`).

    The headline is `tcp_delivers`. -/

namespace PipelineTcpDelivery

open GoChan Sweep Transition PipelineMessage PipelineEncapSt PipelineFrames
open PipelineTcpStream PipelineTcpServer
open Relay (Effect Accounts accounts_make)

variable {M : Type}

/-- The octets a handler has read, and what it has sent on each channel. -/
structure Ledger (M : Type) where
  octets : Octets
  out : List (List M)

/-- What an event adds to the ledger of the handler it happens to. -/
def recordOf (ev : HandlerEvent) (pc : HandlerPc M) (led : Ledger M) : Ledger M :=
  match ev, pc with
  | .read buffer, _ => { led with octets := led.octets ++ buffer }
  | .send _, .delivering _ (msg :: _) i => { led with out := led.out.modify i (· ++ [msg]) }
  | _, _ => led

/-- What a step adds to the ledgers; a handler opens its own. -/
def record (s : ServerTCP M) (l : TcpLabel) (ledgers : List (Ledger M)) : List (Ledger M) :=
  match l with
  | .acceptor .spawn => ledgers ++ [⟨[], List.replicate s.dataChans.length []⟩]
  | .handler h ev =>
      match s.handlers[h]?, ledgers[h]? with
      | some hd, some led => ledgers.set h (recordOf ev hd.pc led)
      | _, _ => ledgers
  | _ => ledgers

section Connection

variable (decode : Encoding → Codec M) (name encap : String)

/-- The messages the octets of a connection are worth, to every channel. -/
def Worth (addr : MsgProducer) (octets : Octets) (msgs : List M) : Prop :=
  ∀ dataChans, handleConnection decode name encap addr octets dataChans
    = dataChans.map (· ++ msgs)

/-- Having read these octets a handler is at the top of its loop with this
    parser, and has delivered `done`. -/
def Follows (addr : MsgProducer) (octets : Octets) (p : EncapSTParser M) (done : List M) : Prop :=
  ∀ rest dataChans, handleConnection decode name encap addr (octets ++ rest) dataChans
    = connectionLoop p rest (dataChans.map (· ++ done))

/-- A handler that has returned has delivered a beginning of what its connection
    is worth, and what the octets it has read are worth, if it was not
    cancelled. -/
structure Ended (addr : MsgProducer) (cancelled : Bool) (octets : Octets) (done : List M) :
    Prop where
  begins : ∀ rest, ∃ more, Worth decode name encap addr (octets ++ rest) (done ++ more)
  whole : cancelled = false → Worth decode name encap addr octets done

/-- What the ledger of a handler over `n` channels says, by where it is. -/
inductive Agrees (n : Nat) (cancelled : Bool) :
    Option MsgProducer → HandlerPc M → Ledger M → Prop where
  | starting {conn : Option MsgProducer} {out : List (List M)} (howes : Owes n out none []) :
      Agrees n cancelled conn .starting ⟨[], out⟩
  | waiting {addr : MsgProducer} {p : EncapSTParser M} {k : Nat} {result : ReadResult}
      {octets : Octets} {out : List (List M)} {done : List M}
      (hwait : ∀ b, result ≠ .readDone b) (hbuf : nextBlockBuffer p = .ok k) (hk : k ≠ 0)
      (h : Follows decode name encap addr octets p done) (howes : Owes n out none done) :
      Agrees n cancelled (some addr) (.reading p k result) ⟨octets, out⟩
  | read {addr : MsgProducer} {p : EncapSTParser M} {k : Nat} {octets buffer : Octets}
      {out : List (List M)} {done : List M} (hbuf : nextBlockBuffer p = .ok k) (hk : k ≠ 0)
      (hlen : buffer.length = k) (h : Follows decode name encap addr octets p done)
      (howes : Owes n out none done) :
      Agrees n cancelled (some addr) (.reading p k (.readDone buffer)) ⟨octets ++ buffer, out⟩
  | delivering {addr : MsgProducer} {p : EncapSTParser M} {msgs : List M} {i : Nat}
      {octets : Octets} {out : List (List M)} {done : List M}
      (h : Follows decode name encap addr octets p done)
      (howes : Owes n out (some (msgs, i)) done) :
      Agrees n cancelled (some addr) (.delivering p msgs i) ⟨octets, out⟩
  | finished {addr : MsgProducer} {octets : Octets} {out : List (List M)} {done : List M}
      (h : Ended decode name encap addr cancelled octets done) (howes : Owes n out none done) :
      Agrees n cancelled (some addr) .finished ⟨octets, out⟩

variable {decode name encap} {addr : MsgProducer} {octets : Octets} {p : EncapSTParser M}
  {done : List M}

theorem follows_start (hp : getNewEncapParser decode name encap (some addr) = .ok p) :
    Follows decode name encap addr [] p [] := by
  intro rest dataChans
  rw [handleConnection, hp]
  simp

variable {k : Nat} {buffer : Octets}

/-- One block more through the parser. -/
theorem Follows.read (h : Follows decode name encap addr octets p done)
    (hbuf : nextBlockBuffer p = .ok k) (hk : k ≠ 0) (hlen : buffer.length = k)
    {p' : EncapSTParser M} {r : Option (List M)} (hnext : nextBlock p buffer none = (p', .ok r)) :
    Follows decode name encap addr (octets ++ buffer) p' (done ++ msgsOf r) := by
  intro rest dataChans
  rw [List.append_assoc, h, connectionLoop_read hbuf hk hlen, hnext]
  cases r with
  | none => simp [msgsOf]
  | some msgs =>
      simp only [spray_eq, List.map_map]
      congr 1
      refine List.map_congr_left (fun o _ => ?_)
      simp [msgsOf]

/-- What is delivered is a beginning of what the connection is worth. -/
theorem Follows.begins (h : Follows decode name encap addr octets p done) (rest : Octets) :
    ∃ more, Worth decode name encap addr (octets ++ rest) (done ++ more) := by
  obtain ⟨more, hmore⟩ := connectionLoop_yields p rest
  refine ⟨more, fun dataChans => ?_⟩
  rw [h, hmore, List.map_map]
  refine List.map_congr_left (fun o _ => ?_)
  simp

/-- Where the loop stops, no more is delivered. -/
theorem Follows.stops (h : Follows decode name encap addr octets p done) {rest : Octets}
    (hstop : ∀ dataChans, connectionLoop p rest dataChans = dataChans) :
    Worth decode name encap addr (octets ++ rest) done := by
  intro dataChans
  rw [h, hstop]

/-- A handler that returns from the top of its loop. -/
theorem Follows.ended (h : Follows decode name encap addr octets p done)
    (hstop : ∀ dataChans, connectionLoop p [] dataChans = dataChans) (cancelled : Bool) :
    Ended decode name encap addr cancelled octets done := by
  refine ⟨h.begins, fun _ => ?_⟩
  have hworth := h.stops hstop
  rw [List.append_nil] at hworth
  exact hworth

/-- A handler that returns because of the block it has read. -/
theorem Follows.ended_block (h : Follows decode name encap addr octets p done)
    (hbuf : nextBlockBuffer p = .ok k) (hk : k ≠ 0) (hlen : buffer.length = k)
    {p' : EncapSTParser M} {err : GoError} (hnext : nextBlock p buffer none = (p', .error err))
    (cancelled : Bool) : Ended decode name encap addr cancelled (octets ++ buffer) done := by
  have hworth : ∀ rest, Worth decode name encap addr (octets ++ buffer ++ rest) done := by
    intro rest
    rw [List.append_assoc]
    refine h.stops (fun dataChans => ?_)
    rw [connectionLoop_read hbuf hk hlen, hnext]
  refine ⟨fun rest => ⟨[], ?_⟩, fun _ => ?_⟩
  · rw [List.append_nil]
    exact hworth rest
  · have hall := hworth []
    rw [List.append_nil] at hall
    exact hall

/-- A handler that is cancelled with a block in hand. -/
theorem Follows.cancelled (h : Follows decode name encap addr octets p done)
    (buffer : Octets) : Ended decode name encap addr true (octets ++ buffer) done := by
  refine ⟨fun rest => ?_, fun hc => by cases hc⟩
  rw [List.append_assoc]
  exact h.begins (buffer ++ rest)

/-! ## The ledger of a handler, step by step -/

variable {n i : Nat} {s t : ServerTCP M} {h : Nat} {hd : Handler M} {ev : HandlerEvent}
  {cancelled : Bool} {out : List (List M)}

theorem agrees_awaitBlock (hf : Follows decode name encap addr octets p done)
    (howes : Owes n out none done) :
    ∃ pc, Moved s h hd pc (awaitBlock s h hd p) ∧
      Agrees decode name encap n cancelled (some addr) pc ⟨octets, out⟩ := by
  unfold awaitBlock
  split
  · next err hbuf =>
      exact ⟨.finished, finish_moved s h hd,
        .finished (hf.ended (connectionLoop_no_buffer hbuf []) _) howes⟩
  · next k hbuf =>
      split
      · next hk =>
          subst hk
          exact ⟨.finished, finish_moved s h hd,
            .finished (hf.ended (connectionLoop_empty hbuf []) _) howes⟩
      · next hk =>
          exact ⟨.reading p k .pending, moveTo_moved s h hd _,
            .waiting (fun b hb => by cases hb) hbuf hk hf howes⟩

theorem agrees_goOn (hf : Follows decode name encap addr octets p done)
    (hn : s.dataChans.length = n) {msgs : List M} (howes : Owes n out (place n msgs i) done) :
    ∃ pc, Moved s h hd pc (goOn s h hd p msgs i) ∧
      Agrees decode name encap n cancelled (some addr) pc ⟨octets, out⟩ := by
  unfold goOn
  rw [hn]
  cases hplace : place n msgs i with
  | none =>
      rw [hplace] at howes
      exact agrees_awaitBlock hf howes
  | some q =>
      rw [hplace] at howes
      exact ⟨.delivering p q.1 q.2, moveTo_moved s h hd _, .delivering hf howes⟩

/-- A block through the parser. -/
theorem agrees_handleBlock (hf : Follows decode name encap addr octets p done)
    (hbuf : nextBlockBuffer p = .ok k) (hk : k ≠ 0) (hlen : buffer.length = k)
    (hn : s.dataChans.length = n) (howes : Owes n out none done) :
    ∃ pc, Moved s h hd pc (handleBlock s h hd p buffer) ∧
      Agrees decode name encap n cancelled (some addr) pc ⟨octets ++ buffer, out⟩ := by
  unfold handleBlock
  split
  · next p' err hnext =>
      exact ⟨.finished, finish_moved s h hd,
        .finished (hf.ended_block hbuf hk hlen hnext _) howes⟩
  · next p' hnext =>
      have hnew := hf.read hbuf hk hlen hnext
      rw [msgsOf, Option.getD_none, List.append_nil] at hnew
      exact agrees_awaitBlock hnew howes
  · next p' msgs hnext =>
      exact agrees_goOn (hf.read hbuf hk hlen hnext) hn (howes.more msgs)

variable (decode name encap) in
/-- What a step of a handler comes to: where it went agrees with its ledger, and what
    it did to the channels is on it. -/
def Enters (s : ServerTCP M) (h : Nat) (hd : Handler M) (led led' : Ledger M)
    (t : ServerTCP M) : Prop :=
  ∃ pc, t.handlers = s.handlers.set h { hd with pc := pc } ∧ t.cancelConn = s.cancelConn ∧
    Effect led.out led'.out s.dataChans t.dataChans ∧
    Agrees decode name encap s.dataChans.length s.cancelConn hd.conn pc led'

variable {led led' : Ledger M} {pc : HandlerPc M}

/-- A step that sends nothing. -/
theorem enters_of_moved (hmoved : Moved s h hd pc t) (hout : led'.out = led.out)
    (hag : Agrees decode name encap s.dataChans.length s.cancelConn hd.conn pc led') :
    Enters decode name encap s h hd led led' t :=
  ⟨pc, hmoved.handlers, hmoved.cancelConn, .quiet hout hmoved.dataChans, hag⟩

/-- A message sent on. -/
theorem enters_sendNext (hconn : hd.conn = some addr) (hopen : AllOpen s.dataChans)
    (hf : Follows decode name encap addr octets p done) {msg : M} {rest : List M}
    (hi : i < s.dataChans.length)
    (howes : Owes s.dataChans.length out (some (msg :: rest, i)) done) {receiver : Bool}
    (hstep : sendNext s h hd p msg rest i receiver = some t) :
    Enters decode name encap s h hd ⟨octets, out⟩ ⟨octets, out.modify i (· ++ [msg])⟩ t := by
  unfold sendNext at hstep
  split at hstep
  · cases hstep
  · next ch hch =>
      split at hstep
      · next ch' hsend =>
          cases hstep
          obtain ⟨pc, hmoved, hag⟩ := agrees_goOn (s := { s with
            dataChans := s.dataChans.set i ch' }) hf List.length_set (howes.send hi)
          refine ⟨pc, hmoved.handlers, hmoved.cancelConn, ?_, hconn ▸ hag⟩
          exact .sent (howes.length ▸ hi) hch hsend rfl hmoved.dataChans
      · cases hstep
      · next hpanic => exact absurd hpanic (hopen.send_ne_panic hch msg receiver)

/-- **EVERY STEP OF A HANDLER IS ON ITS LEDGER**. -/
theorem enters_of_handlerStep (hhd : s.handlers[h]? = some hd) (hopen : AllOpen s.dataChans)
    (hplaced : Placed s.dataChans.length (inHand hd.pc))
    (hag : Agrees decode name encap s.dataChans.length s.cancelConn hd.conn hd.pc led)
    (hstep : handlerStep decode name encap s h hd ev = some t) :
    Enters decode name encap s h hd led (recordOf ev hd.pc led) t := by
  obtain ⟨conn, pc⟩ := hd
  unfold handlerStep at hstep
  split at hstep
  · next hpc =>
      cases hpc
      cases hag with
      | starting howes =>
          split at hstep
          · next hconn =>
              cases hstep
              cases hconn
              refine ⟨.starting, ?_, rfl, .quiet rfl rfl, .starting howes⟩
              obtain ⟨hlt, heq⟩ := List.getElem?_eq_some_iff.mp hhd
              exact heq ▸ (List.set_getElem_self hlt).symm
          · next addr hconn =>
              cases hconn
              split at hstep
              · next err hp =>
                  cases hstep
                  -- the octets of a connection without a parser are worth nothing
                  have hworth : ∀ octets, Worth decode name encap addr octets [] := by
                    intro octets dataChans
                    rw [handleConnection, hp]
                    simp
                  exact enters_of_moved (finish_moved ..) rfl
                    (.finished ⟨fun rest => ⟨[], hworth _⟩, fun _ => hworth _⟩ howes)
              · next p hp =>
                  cases hstep
                  obtain ⟨pc, hmoved, hag⟩ := agrees_awaitBlock (follows_start hp) howes
                  exact enters_of_moved hmoved rfl hag
  · next buffer p k hpc =>
      cases hpc
      split at hstep
      · next hread =>
          cases hstep
          cases hag with
          | waiting _ hbuf hk hf howes =>
              exact enters_of_moved (moveTo_moved ..) rfl (.read hbuf hk hread hf howes)
      · cases hstep
  · next p k hpc =>
      cases hpc
      cases hstep
      cases hag with
      | waiting _ hbuf hk hf howes =>
          exact enters_of_moved (moveTo_moved ..) rfl
            (.waiting (fun b hb => by cases hb) hbuf hk hf howes)
  · next p k result hpc =>
      cases hpc
      split at hstep
      · next hcancel =>
          cases hstep
          cases hag with
          | waiting _ hbuf hk hf howes =>
              have hended := hf.ended (connectionLoop_short hbuf (Nat.pos_of_ne_zero hk))
              exact enters_of_moved (finish_moved ..) rfl (.finished (hended _) howes)
          | read _ _ _ hf howes =>
              exact enters_of_moved (finish_moved ..) rfl
                (.finished (hcancel ▸ hf.cancelled _) howes)
      · cases hstep
  · next p k hpc =>
      cases hpc
      cases hstep
      cases hag with
      | waiting _ hbuf hk hf howes =>
          have hended := hf.ended (connectionLoop_short hbuf (Nat.pos_of_ne_zero hk))
          exact enters_of_moved (finish_moved ..) rfl (.finished (hended _) howes)
  · next p k buffer hpc =>
      cases hpc
      cases hstep
      cases hag with
      | waiting hwait => exact absurd rfl (hwait buffer)
      | read hbuf hk hb hf howes =>
          obtain ⟨pc, hmoved, hag⟩ := agrees_handleBlock hf hbuf hk hb rfl howes
          exact enters_of_moved hmoved rfl hag
  · next receiver p msg rest i hpc =>
      cases hpc
      cases hag with
      | delivering hf howes =>
          exact enters_sendNext rfl hopen hf (hplaced _ _ rfl).1 howes hstep
  · cases hstep

end Connection

/-! ## The server with its ledgers -/

section Server

variable {decode : Encoding → Codec M} {name encap : String} {s t : ServerTCP M} {h n : Nat}
  {hd : Handler M} {ev : HandlerEvent} {led : Ledger M} {ledgers : List (Ledger M)}
  {addr : MsgProducer} {conn : Option MsgProducer} {caps : List Nat} {cancelled : Bool}
  {pc : HandlerPc M}

/-- The ledgers are kept: one for each handler, in agreement with where the handler is
    and with what the `n` channels carried. -/
structure Booked (decode : Encoding → Codec M) (name encap : String) (n : Nat)
    (s : ServerTCP M) (ledgers : List (Ledger M)) : Prop where
  width : s.dataChans.length = n
  length : ledgers.length = s.handlers.length
  agrees : ∀ (h : Nat) (hd : Handler M) (led : Ledger M),
    s.handlers[h]? = some hd → ledgers[h]? = some led →
      Agrees decode name encap n s.cancelConn hd.conn hd.pc led
  accounts : Accounts Ledger.out s.dataChans ledgers

/-- Cancellation only takes away what is known of a handler that has returned. -/
theorem Agrees.cancel (hag : Agrees decode name encap n cancelled conn pc led) :
    Agrees decode name encap n true conn pc led := by
  cases hag with
  | starting howes => exact .starting howes
  | waiting hwait hbuf hk hf howes => exact .waiting hwait hbuf hk hf howes
  | read hbuf hk hlen hf howes => exact .read hbuf hk hlen hf howes
  | delivering hf howes => exact .delivering hf howes
  | finished hended howes => exact .finished ⟨hended.begins, fun hc => by cases hc⟩ howes

/-- A new handler opens its ledger. -/
theorem Booked.spawn (hb : Booked decode name encap n s ledgers)
    (conn : Option MsgProducer) (acceptor : Acceptor) (group : Nat) :
    Booked decode name encap n
      { s with
        acceptor := acceptor
        connectionGroup := group
        handlers := s.handlers ++ [⟨conn, .starting⟩] }
      (ledgers ++ [⟨[], List.replicate s.dataChans.length []⟩]) := by
  refine ⟨hb.width, ?_, ?_, hb.accounts.join rfl⟩
  · rw [List.length_append, List.length_append, hb.length]
    rfl
  · intro h hd led hhd hled
    by_cases hlt : h < s.handlers.length
    · rw [List.getElem?_append_left hlt] at hhd
      rw [List.getElem?_append_left (by rw [hb.length]; exact hlt)] at hled
      exact hb.agrees h hd led hhd hled
    · have hge : s.handlers.length ≤ h := Nat.not_lt.mp hlt
      rw [List.getElem?_append_right hge] at hhd
      rw [List.getElem?_append_right (by rw [hb.length]; exact hge), hb.length] at hled
      have hhd' := List.mem_singleton.mp (List.mem_of_getElem? hhd)
      have hled' := List.mem_singleton.mp (List.mem_of_getElem? hled)
      rw [hhd', hled', hb.width]
      exact .starting (owes_paid n [])

/-- A handler takes a step, and enters it in its ledger. -/
theorem Booked.handler (hb : Booked decode name encap n s ledgers) (hs : Sound s)
    (hhd : s.handlers[h]? = some hd) (hled : ledgers[h]? = some led)
    (hev : handlerStep decode name encap s h hd ev = some t) :
    Booked decode name encap n t (ledgers.set h (recordOf ev hd.pc led)) := by
  have hag := hb.agrees h hd led hhd hled
  rw [← hb.width] at hag
  obtain ⟨pc, hset, hcancel, heffect, hnew⟩ := enters_of_handlerStep hhd hs.opened
    (hs.placed hd (List.mem_of_getElem? hhd)) hag hev
  rw [hb.width] at hnew
  refine ⟨heffect.length.2.trans hb.width, ?_, ?_, hb.accounts.effect hled heffect⟩
  · rw [List.length_set, hset, List.length_set, hb.length]
  · intro j x led' hx hled'
    rw [hset] at hx
    rw [hcancel]
    rcases getElem?_set_cases hled' with ⟨rfl, rfl⟩ | ⟨hne, hled'⟩
    · rw [List.getElem?_set_self'] at hx
      obtain ⟨_, -, rfl⟩ := Option.map_eq_some_iff.mp hx
      exact hnew
    · rw [List.getElem?_set_ne (Ne.symm hne)] at hx
      exact hb.agrees j x led' hx hled'

/-- **THE LEDGERS ARE KEPT BY EVERY STEP**. -/
theorem booked_step {l : TcpLabel} (hb : Booked decode name encap n s ledgers) (hs : Sound s)
    (hstep : tcpStep decode name encap s l = some t) :
    Booked decode name encap n t (record s l ledgers) := by
  cases (steps_of_tcpStep hstep).2 with
  | drained hch hrecv =>
      exact ⟨List.length_set.trans hb.width, hb.length, hb.agrees, hb.accounts.recv hch hrecv⟩
  | ignored => exact hb
  | shutdown =>
      refine ⟨hb.width, hb.length, ?_, hb.accounts⟩
      exact fun h hd led hhd hled => (hb.agrees h hd led hhd hled).cancel
  | closed => exact ⟨hb.width, hb.length, hb.agrees, hb.accounts⟩
  | answered => exact ⟨hb.width, hb.length, hb.agrees, hb.accounts⟩
  | @acceptor ev _ hacc =>
      cases accepts_of_acceptorStep hacc with
      | kept acceptor hev ht =>
          have hsame : record s (.acceptor ev) ledgers = ledgers := by
            cases ev with
            | spawn => exact absurd rfl hev
            | _ => rfl
          rw [hsame, ht]
          exact ⟨hb.width, hb.length, hb.agrees, hb.accounts⟩
      | spawned conn hev ht =>
          rw [hev, ht]
          exact hb.spawn conn .accepting (s.connectionGroup + 1)
  | @handler h hd ev _ hhd hev =>
      have hlt : h < ledgers.length := by
        rw [hb.length]
        exact (List.getElem?_eq_some_iff.mp hhd).1
      have hled := List.getElem?_eq_getElem hlt
      have hrecord : record s (.handler h ev) ledgers
          = ledgers.set h (recordOf ev hd.pc (ledgers[h])) := by
        simp only [record, hhd, hled]
      rw [hrecord]
      exact hb.handler hs hhd hled hev

/-- The server with the ledgers of its handlers. -/
def bookedServer (decode : Encoding → Codec M) (name encap : String) (caps : List Nat) :
    System (ServerTCP M × List (Ledger M)) TcpLabel :=
  withHistory (tcpServer decode name encap caps) [] record

/-- The ledgers see every run of the server. -/
theorem reach_bookedServer_iff :
    (∃ ledgers, Reach (bookedServer decode name encap caps) anyStep (s, ledgers)) ↔
      Reach (tcpServer decode name encap caps) anyStep s :=
  reach_withHistory_iff

theorem booked_of_reach
    (hreach : Reach (bookedServer decode name encap caps) anyStep (s, ledgers)) :
    Booked decode name encap caps.length s ledgers := by
  have hall := hreach.invariant
    (I := fun u => Sound u.1 ∧ Booked decode name encap caps.length u.1 u.2) ?_ ?_
  · exact hall.2
  · have hinit : Reach (tcpServer decode name encap caps) anyStep _ := .init
    refine ⟨sound_of_reach hinit, List.length_map .., rfl, ?_, accounts_make _ caps⟩
    intro h hd led hhd
    cases hhd
  · rintro ⟨u, led⟩ l ⟨v, led'⟩ ⟨hs, hb⟩ _ hn
    obtain ⟨t, ht, heq⟩ := Option.map_eq_some_iff.mp hn
    cases heq
    exact ⟨sound_step hs ht, booked_step hb hs ht⟩

/-! ## What the ledgers say -/

/-- Every string of octets is worth some messages. -/
theorem exists_worth (decode : Encoding → Codec M) (name encap : String) (addr : MsgProducer)
    (octets : Octets) : ∃ msgs, Worth decode name encap addr octets msgs := by
  unfold Worth handleConnection
  cases getNewEncapParser decode name encap (some addr) with
  | error err => exact ⟨[], fun dataChans => by simp⟩
  | ok p => exact connectionLoop_yields p octets

theorem Worth.unique {octets : Octets} {msgs msgs' : List M}
    (h : Worth decode name encap addr octets msgs)
    (h' : Worth decode name encap addr octets msgs') : msgs = msgs' := by
  have heq := (h [[]]).symm.trans (h' [[]])
  simpa using heq

/-- What is on the ledger of a handler is a beginning of what its connection is
    worth, whatever is still to be read. -/
theorem Agrees.begins (hag : Agrees decode name encap n cancelled (some addr) pc led)
    (rest : Octets) :
    ∃ msgs, Worth decode name encap addr (led.octets ++ rest) msgs ∧
      ∀ o ∈ led.out, o <+: msgs := by
  have hpart : ∀ {q} {done more : List M}, Owes n led.out q done →
      ∀ o ∈ led.out, o <+: done ++ more :=
    fun howes o ho => (howes.begins ho).trans (List.prefix_append _ _)
  cases hag with
  | starting howes =>
      obtain ⟨msgs, hworth⟩ := exists_worth decode name encap addr ([] ++ rest)
      exact ⟨msgs, hworth, hpart howes⟩
  | waiting _ _ _ hf howes =>
      obtain ⟨more, hworth⟩ := hf.begins rest
      exact ⟨_, hworth, hpart howes⟩
  | @read _ p k octets buffer out done _ _ _ hf howes =>
      obtain ⟨more, hworth⟩ := hf.begins (buffer ++ rest)
      rw [← List.append_assoc] at hworth
      exact ⟨_, hworth, hpart howes⟩
  | delivering hf howes =>
      obtain ⟨more, hworth⟩ := hf.begins rest
      exact ⟨_, hworth, hpart howes⟩
  | finished hended howes =>
      obtain ⟨more, hworth⟩ := hended.begins rest
      exact ⟨_, hworth, hpart howes⟩

/-- What the ledgers of a server say. -/
structure Delivers (decode : Encoding → Codec M) (name encap : String) (s : ServerTCP M)
    (ledgers : List (Ledger M)) : Prop where
  /-- Each handler has its own. -/
  length : ledgers.length = s.handlers.length
  /-- The channels carried an interleaving of what is on them. -/
  accounts : Accounts Ledger.out s.dataChans ledgers
  /-- On every channel a handler has sent a beginning of what its connection is
      worth, in order. -/
  begins : ∀ (h : Nat) (hd : Handler M) (led : Ledger M) (addr : MsgProducer),
    s.handlers[h]? = some hd → ledgers[h]? = some led → hd.conn = some addr →
    ∀ rest, ∃ msgs, Worth decode name encap addr (led.octets ++ rest) msgs ∧
      ∀ o ∈ led.out, o <+: msgs
  /-- A handler that has returned has sent what it has read, if it was not
      cancelled. -/
  whole : ∀ (h : Nat) (hd : Handler M) (led : Ledger M) (addr : MsgProducer),
    s.handlers[h]? = some hd → ledgers[h]? = some led → hd.conn = some addr →
    hd.pc = .finished → s.cancelConn = false →
    ∃ msgs, Worth decode name encap addr led.octets msgs ∧ ∀ o ∈ led.out, o = msgs

/-- **EVERY CONNECTION IS DELIVERED AS IF IT WERE ALONE**: whatever the
    interleaving of handlers, control loop, accept loop and the stages
    downstream, each handler sends what `handleConnection` makes of its octets,
    in order, to every channel. -/
theorem tcp_delivers (hreach : Reach (bookedServer decode name encap caps) anyStep (s, ledgers)) :
    Delivers decode name encap s ledgers := by
  have hb := booked_of_reach hreach
  refine ⟨hb.length, hb.accounts, ?_, ?_⟩
  · intro h hd led addr hhd hled hconn
    exact (hconn ▸ hb.agrees h hd led hhd hled).begins
  · intro h hd led addr hhd hled hconn hfin hnot
    have hag := hb.agrees h hd led hhd hled
    rw [hfin, hconn] at hag
    cases hag with
    | @finished _ octets out done hended howes =>
        exact ⟨done, hended.whole hnot, fun o ho => howes.paid ho⟩

/-- The octets of a stream connection are worth its maximal framed prefix. -/
theorem worth_framed (decode : Encoding → Codec M) (name : String) (addr : MsgProducer)
    (octets : Octets) :
    ∃ pre msgs, MaximalFramed decode addr octets pre msgs ∧
      Worth decode name "st" addr octets msgs := by
  obtain ⟨p, hp, hi⟩ := idle_new decode name addr
  obtain ⟨pre, msgs, hmax, hloop⟩ :=
    connectionLoop_framing octets.length octets p (Nat.le_refl _) hi
  refine ⟨pre, msgs, hmax, fun dataChans => ?_⟩
  rw [handleConnection, hp]
  exact hloop dataChans

/-- **FRAMING HOLDS IN THE SERVER**: what a handler has sent on a channel is a
    beginning of the messages of the maximal framed prefix of the octets it has
    read, and all of them once it has returned without being cancelled. -/
theorem tcp_framed (hreach : Reach (bookedServer decode name "st" caps) anyStep (s, ledgers))
    (hhd : s.handlers[h]? = some hd) (hled : ledgers[h]? = some led) (hconn : hd.conn = some addr) :
    ∃ pre msgs, MaximalFramed decode addr led.octets pre msgs ∧
      (∀ o ∈ led.out, o <+: msgs) ∧
      (hd.pc = .finished → s.cancelConn = false → ∀ o ∈ led.out, o = msgs) := by
  have hdel := tcp_delivers hreach
  obtain ⟨pre, msgs, hmax, hworth⟩ := worth_framed decode name addr led.octets
  refine ⟨pre, msgs, hmax, ?_, ?_⟩
  · obtain ⟨msgs', hworth', hpre⟩ := hdel.begins h hd led addr hhd hled hconn []
    rw [List.append_nil] at hworth'
    rw [hworth.unique hworth']
    exact hpre
  · intro hfin hnot
    obtain ⟨msgs', hworth', hall⟩ := hdel.whole h hd led addr hhd hled hconn hfin hnot
    rw [hworth.unique hworth']
    exact hall

end Server

end PipelineTcpDelivery
