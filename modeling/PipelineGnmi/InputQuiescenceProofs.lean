import PipelineGnmi.GnmiRunProofs
import PipelineGnmi.TcpServerProofs
import PipelineGnmi.UdpServerProofs

/-! # Inputs after SHUTDOWN

    The outputs are shut down after the inputs, and drain what is queued on the
    understanding that nothing is added.  Of the three inputs looked at here the
    UDP server alone waits for its receiver before it answers SHUTDOWN; the other
    two signal their goroutines and answer.

    `inputs_quiescent` says what that comes to: the UDP server is quiescent once
    it has answered, and the TCP and gNMI inputs are if they happen to have
    nothing in hand. -/

namespace PipelineInputQuiescence

open GoChan Sweep Transition Quiescence PipelineMessage PipelineDataMsg PipelineEncapSt
open PipelineGnmiClient

variable {M : Type}

/-! ## The UDP server -/

section Udp

open PipelineUdpServer

/-- `runServer` is running. -/
def Running : Receiver M → Prop
  | .starting => True
  | .reading _ _ => True
  | .delivering _ _ _ _ _ => True
  | _ => False

/-- SHUTDOWN was answered. -/
def UdpAcked (s : ServerState M) : Prop := s.supervisor = .returned

/-- A running receiver has not signalled that it is done, and SHUTDOWN is not
    answered then. -/
structure UdpInv (s : ServerState M) : Prop where
  unsignalled : Running s.receiver → s.closedListener = false
  listener : Running s.receiver → s.listener ≠ none
  unanswered : Running s.receiver → s.supervisor ≠ .returned

/-- The receiver took a step: it was running, and has signalled that it is done
    if it is not any more. -/
structure Received (s t : ServerState M) : Prop where
  running : Running s.receiver
  supervisor : t.supervisor = s.supervisor
  kept : Running t.receiver → t.closedListener = s.closedListener ∧ t.listener = s.listener

variable {s t : ServerState M} {name encap : String} {decode : Encoding → Codec M} {l : UdpLabel}

theorem received_stop (h : Running s.receiver) : Received s (stop s) :=
  ⟨h, rfl, fun hrun => hrun.elim⟩

theorem received_goOn {s' : ServerState M} (h : Running s.receiver)
    (hsup : s'.supervisor = s.supervisor) (hclosed : s'.closedListener = s.closedListener)
    (hlis : s'.listener = s.listener) (conn : Nat) (parser : EncapSTParser M) (d : Datagram)
    (msgs : List M) (i : Nat) : Received s (goOn s' conn parser d msgs i) := by
  unfold PipelineUdpServer.goOn
  split
  · exact ⟨h, hsup, fun _ => ⟨hclosed, hlis⟩⟩
  · exact ⟨h, hsup, fun _ => ⟨hclosed, hlis⟩⟩

theorem received_handleDatagram (h : Running s.receiver) (sockets : List Socket) (conn : Nat)
    (parser : EncapSTParser M) (n : Nat) (d : Datagram) :
    Received s (handleDatagram { s with sockets := sockets } conn parser n d) := by
  unfold handleDatagram
  split
  · exact ⟨h, rfl, fun hrun => hrun.elim⟩
  · exact ⟨h, rfl, fun _ => ⟨rfl, rfl⟩⟩
  · refine received_goOn h ?_ ?_ ?_ _ _ _ _ _ <;> rfl

/-- The labels of the receiver. -/
def OfReceiver : UdpLabel → Prop
  | .start | .read | .readError | .offer | .cancel => True
  | _ => False

theorem received_of_step (h : udpStep decode name encap s l = some t) (hl : OfReceiver l) :
    Received s t := by
  have hrunning : ∀ {r : Receiver M}, s.receiver = r → Running r → Running s.receiver := by
    intro r hr hrun
    rw [hr]
    exact hrun
  cases moves_of_step h with
  | noParser hr _ _ => exact received_stop (hrunning hr trivial)
  | started hr _ _ => exact ⟨hrunning hr trivial, rfl, fun _ => ⟨rfl, rfl⟩⟩
  | noBuffer hr _ => exact received_stop (hrunning hr trivial)
  | received hr _ _ => exact received_handleDatagram (hrunning hr trivial) _ _ _ _ _
  | readFailed hr => exact received_stop (hrunning hr trivial)
  | passed hr _ _ =>
      refine received_goOn (hrunning hr trivial) ?_ ?_ ?_ _ _ _ _ _ <;> rfl
  | offered hr _ _ =>
      refine received_goOn (hrunning hr trivial) ?_ ?_ ?_ _ _ _ _ _ <;> rfl
  | offerPanic hr _ _ => exact ⟨hrunning hr trivial, rfl, fun hno => hno.elim⟩
  | abandoned hr _ => exact received_stop (hrunning hr trivial)
  | _ => exact hl.elim

/-- The receiver keeps the invariant. -/
theorem UdpInv.received (hs : UdpInv s) (h : Received s t) : UdpInv t := by
  refine ⟨fun hrun => ?_, fun hrun => ?_, fun _ => ?_⟩
  · rw [(h.kept hrun).1]
    exact hs.unsignalled h.running
  · rw [(h.kept hrun).2]
    exact hs.listener h.running
  · rw [h.supervisor]
    exact hs.unanswered h.running

theorem udpInv_step (hs : UdpInv s) (h : udpStep decode name encap s l = some t) : UdpInv t := by
  -- the receiver is done once it has signalled that it is
  have hdone : s.closedListener = true → ¬ Running s.receiver := by
    intro hclosed hrun
    have hopen := hs.unsignalled hrun
    rw [hclosed] at hopen
    cases hopen
  cases moves_of_step h with
  | arrived _ => exact ⟨hs.unsignalled, hs.listener, hs.unanswered⟩
  | collected _ _ => exact ⟨hs.unsignalled, hs.listener, hs.unanswered⟩
  | drained _ _ => exact ⟨hs.unsignalled, hs.listener, hs.unanswered⟩
  | listened hwait hclosed =>
      simp only [listenUDP]
      split
      · refine ⟨fun _ => rfl, fun _ => Option.some_ne_none _, fun _ => ?_⟩
        show s.supervisor ≠ .returned
        rw [hwait]
        decide
      · have hno := hdone hclosed
        exact ⟨fun hrun => absurd hrun hno, fun hrun => absurd hrun hno,
          fun hrun => absurd hrun hno⟩
  | woken _ => exact ⟨hs.unsignalled, hs.listener, fun _ hno => by cases hno⟩
  | ignored _ => exact hs
  | shutUnbound _ hnone =>
      exact ⟨hs.unsignalled, hs.listener, fun hrun => absurd hnone (hs.listener hrun)⟩
  | shutBound _ _ => exact ⟨hs.unsignalled, hs.listener, fun _ hno => by cases hno⟩
  | closed _ hclosed =>
      exact ⟨hs.unsignalled, hs.listener, fun hrun => absurd hrun (hdone hclosed)⟩
  | _ => exact hs.received (received_of_step h trivial)

/-- Once SHUTDOWN is answered there is nobody left to send. -/
theorem udp_silent_step (hs : UdpInv s) (hacked : UdpAcked s)
    (h : udpStep decode name encap s l = some t) :
    UdpAcked t ∧ sent t.dataChans = sent s.dataChans := by
  -- an answered SHUTDOWN leaves the receiver no step
  have hnone : OfReceiver l → UdpAcked t ∧ sent t.dataChans = sent s.dataChans :=
    fun hl => absurd hacked (hs.unanswered (received_of_step h hl).running)
  cases moves_of_step h with
  | arrived _ => exact ⟨hacked, rfl⟩
  | collected _ _ => exact ⟨hacked, rfl⟩
  | drained hch hrecv => exact ⟨hacked, sent_recv hch hrecv⟩
  | listened hwait _ => cases hwait.symm.trans hacked
  | woken hsleep => cases hsleep.symm.trans hacked
  | ignored _ => exact ⟨hacked, rfl⟩
  | shutUnbound hwait _ => cases hwait.symm.trans hacked
  | shutBound hwait _ => cases hwait.symm.trans hacked
  | closed hclosing _ => cases hclosing.symm.trans hacked
  | _ => exact hnone trivial

/-- **THE UDP SERVER WAITS**: it is quiescent once it has answered SHUTDOWN, in
    every run. -/
theorem udp_quiescent (decode : Encoding → Codec M) (name encap : String) (caps : List Nat) :
    Quiescent (udpServer decode name encap caps) anyStep UdpAcked ServerState.dataChans := by
  refine quiescent_of_silent (I := UdpInv) ?_ (fun _ _ _ hs _ h => udpInv_step hs h)
    (fun _ _ _ hs hacked _ h => udp_silent_step hs hacked h)
  exact ⟨fun hrun => hrun.elim, fun hrun => hrun.elim, fun hrun => hrun.elim⟩

end Udp

/-! ## The three inputs -/

/-- **QUIESCENT WITH EMPTY HANDS**.  The UDP server sends nothing after its answer
    to SHUTDOWN, in any run.  The TCP and gNMI inputs send nothing in runs that
    are settled, and after any step that is not they have answered and can still
    send. -/
theorem inputs_quiescent (decode : Encoding → Codec M) (name encap : String)
    (marshal : GnmiNotification → Except GoError Octets) (client : GnmiClient) (caps : List Nat) :
    (Quiescent (PipelineTcpServer.tcpServer decode name encap caps) PipelineTcpServer.Settled
        PipelineTcpServer.Acked PipelineTcpServer.ServerTCP.dataChans ∧
      ∀ s l t, Reach (PipelineTcpServer.tcpServer decode name encap caps) anyStep s →
        ¬ PipelineTcpServer.Settled s l →
        PipelineTcpServer.tcpStep decode name encap s l = some t →
        PipelineTcpServer.Acked t ∧
          Stirs (PipelineTcpServer.tcpServer decode name encap caps)
            PipelineTcpServer.ServerTCP.dataChans t) ∧
    Quiescent (PipelineUdpServer.udpServer decode name encap caps) anyStep UdpAcked
      PipelineUdpServer.ServerState.dataChans ∧
    (Quiescent (PipelineGnmiRun.gnmiInput marshal client caps) PipelineGnmiRun.Settled
        PipelineGnmiRun.Acked PipelineGnmiRun.ClientState.dataChans ∧
      ∀ s l t, Reach (PipelineGnmiRun.gnmiInput marshal client caps) anyStep s →
        ¬ PipelineGnmiRun.Settled s l →
        PipelineGnmiRun.clientStep marshal client s l = some t →
        PipelineGnmiRun.Acked t ∧
          Stirs (PipelineGnmiRun.gnmiInput marshal client caps)
            PipelineGnmiRun.ClientState.dataChans t) := by
  refine ⟨⟨PipelineTcpServer.tcp_quiescent decode name encap caps, ?_⟩,
    udp_quiescent decode name encap caps, PipelineGnmiRun.gnmi_quiescent marshal client caps, ?_⟩
  · exact fun s l t hreach hl hstep => PipelineTcpServer.tcp_stirs hreach hl hstep
  · exact fun s l t hreach hl hstep => PipelineGnmiRun.gnmi_stirs hreach hl hstep

/-- A notification without updates, and an encoding of it. -/
def emptyUpdate : GnmiNotification := ⟨0, some ⟨"openconfig", [], ""⟩, []⟩

def noOctets : GnmiNotification → Except GoError Octets := fun _ => .ok []

/-- The gNMI input up to the message it makes of an update. -/
def updatedRun : List PipelineGnmiRun.ClientLabel :=
  [.prime, .restart, .loop (.subscribe true), .loop (.reply (.update emptyUpdate)), .wake]

/-- Every step but the answer is settled. -/
theorem gnmi_settled {labels : List PipelineGnmiRun.ClientLabel} (h : .ack ∉ labels) :
    ∀ s, ∀ l ∈ labels, PipelineGnmiRun.Settled s l := by
  intro s l hl
  cases l with
  | ack => exact absurd hl h
  | _ => trivial

/-- The message is pushed before SHUTDOWN is answered; the loop then finds itself
    cancelled. -/
theorem inputs_quiescent_pushed :
    ∃ s t, exec (PipelineGnmiRun.gnmiInput noOctets plainClient [1])
        (PipelineGnmiRun.gnmiInput noOctets plainClient [1]).init
        (updatedRun ++ [.loop (.push false), .ctrl .shutdown] ++ [.ack]) = some s ∧
      exec (PipelineGnmiRun.gnmiInput noOctets plainClient [1]) s
        [.loop (.reply .other), .drain 0, .loop .drained] = some t ∧
      (s.dataChans.map (·.buf.length) = [1] ∧ t.dataChans.map (·.buf.length) = [0]) ∧
      sent t.dataChans = sent s.dataChans := by
  refine ⟨_, _, rfl, rfl, ⟨rfl, rfl⟩, ?_⟩
  have hquiet := (inputs_quiescent wholeBlocks "in" "st" noOctets
    plainClient [1]).2.2.1
  refine hquiet.exec (Reach.next (a := .ack) (reach_exec
    (updatedRun ++ [.loop (.push false), .ctrl .shutdown]) (gnmi_settled ?_) .init rfl) ?_ rfl)
    ?_ [.loop (.reply .other), .drain 0, .loop .drained] (gnmi_settled ?_) rfl
  · simp [updatedRun]
  · exact fun hdel => hdel rfl
  · rfl
  · simp

/-- A connection over which one frame has come and is parsed. -/
def framedRun : List PipelineTcpServer.TcpLabel :=
  [.acceptor (.accept "10.0.0.3"), .acceptor .checkCancelled, .acceptor .spawn,
    .handler 0 .start, .handler 0 (.read [0, 1, 0, 2, 0, 1, 0, 0, 0, 0, 0, 1]),
    .handler 0 .takeDone, .handler 0 (.read [7]), .handler 0 .takeDone]

/-- Both send their message after they have answered SHUTDOWN: the handler of a
    connection, and the loop of the gNMI client. -/
theorem inputs_heard_again :
    (∃ s t, exec (PipelineTcpServer.tcpServer wholeBlocks "in" "st" [1])
        (PipelineTcpServer.tcpServer wholeBlocks "in" "st" [1]).init
        (framedRun ++ [.ctrl .shutdown, .closeListener, .ack]) = some s ∧
      PipelineTcpServer.Acked s ∧
      PipelineTcpServer.tcpStep wholeBlocks "in" "st" s
        (.handler 0 (.send false)) = some t ∧
      sent s.dataChans = [[]] ∧ sent t.dataChans = [[some [7]]]) ∧
    (∃ s t, exec (PipelineGnmiRun.gnmiInput noOctets plainClient [1])
        (PipelineGnmiRun.gnmiInput noOctets plainClient [1]).init
        (updatedRun ++ [.ctrl .shutdown, .ack]) = some s ∧
      PipelineGnmiRun.Acked s ∧
      PipelineGnmiRun.clientStep noOctets plainClient s (.loop (.push false)) = some t ∧
      (sent s.dataChans).map List.length = [0] ∧ (sent t.dataChans).map List.length = [1]) :=
  ⟨⟨_, _, rfl, rfl, rfl, rfl, rfl⟩, ⟨_, _, rfl, rfl, rfl, rfl, rfl⟩⟩

end PipelineInputQuiescence
