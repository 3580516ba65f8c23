import PipelineGnmi.CtrlServiceProofs
import PipelineGnmi.InfluxOutputProofs

/-! # Outputs at SHUTDOWN

    By the time an output is asked to stop the inputs have, and what is still in
    its data channel is what it has to finish.  The tap (`tap.go`), the Kafka
    producer (`xport_kafka.go`) and the Prometheus worker
    (`metrics_prometheus.go`) read their data and the request to stop in one
    select, which may take the request while data are waiting.  The Influx
    output (`metrics_influx.go`) drains, its router first and then its workers.

    For each of the first three the request must find the channel empty, and
    nothing else is needed; the fourth needs nothing (`outputs_drain`). -/

namespace PipelineOutputDrain

open GoChan Transition Drain PipelineMessage PipelineDataMsg PipelineTap PipelineKafkaKey
open PipelineKafkaConsumer PipelineCtrlService
open PipelineInflux (CtrlPc)

/-! ## The tap -/

/-- The tap and its data channel. -/
structure TapOutput where
  node : TapNode
  inbox : Inbox DataMsg

/-- The steps of the tap, of its producers and of the conductor; nobody closes
    the data channel. -/
inductive TapLabel where
  | produce (msg : DataMsg)
  | handIn (msg : DataMsg)
  | request
  | timeout
  | take
  | report
  | shutdown

section Tap

variable (render : Renderers) (texts : TapTexts) (t : TapOutputModule) (opened : Option Octets)

def tapOutputStep (s : TapOutput) : TapLabel → Option TapOutput
  | .produce msg => (produce s.inbox msg).map (fun b => { s with inbox := b })
  | .handIn msg =>
      match handIn s.inbox msg with
      | none => none
      | some b => ((tapNode render texts t opened).next s.node (.data msg)).map (⟨·, b⟩)
  | .request => (request s.inbox).map (fun b => { s with inbox := b })
  | .timeout => ((tapNode render texts t opened).next s.node .timeout).map (⟨·, s.inbox⟩)
  | .take =>
      match take s.inbox with
      | none => none
      | some (msg, b) => ((tapNode render texts t opened).next s.node (.data msg)).map (⟨·, b⟩)
  | .report =>
      ((tapNode render texts t opened).next s.node (.ctrl .report)).map (⟨·, s.inbox⟩)
  | .shutdown =>
      if s.inbox.atRequest.isSome = true then
        ((tapNode render texts t opened).next s.node (.ctrl .shutdown)).map (⟨·, s.inbox⟩)
      else none

/-- The tap with a data channel of this capacity. -/
def tapOutput (cap : Nat) : System TapOutput TapLabel where
  init := ⟨(tapNode render texts t opened).init, make cap⟩
  next := tapOutputStep render texts t opened

end Tap

def TapAcked (s : TapOutput) : Prop := s.node.shutdownAcked = true

/-- Every message went through the loop, and nothing that was to be written waits
    for a flush. -/
def TapComplete (s : TapOutput) : Prop :=
  Complete s.inbox.atRequest s.inbox.taken ∧ s.node.tap.w.buf = []

/-- SHUTDOWN is taken with nothing queued. -/
def TapSettled (s : TapOutput) : TapLabel → Prop
  | .shutdown => s.inbox.dataChan.buf = []
  | _ => True

/-- A tap that has answered SHUTDOWN was asked to, has returned, and has written
    out its buffer. -/
structure TapInv (s : TapOutput) : Prop where
  sound : Sound s.inbox
  requested : TapAcked s → s.inbox.atRequest ≠ none
  returned : TapAcked s → s.node.tap.returned = true
  flushed : TapAcked s → s.node.tap.w.buf = []

variable {texts : TapTexts} {t : TapOutputModule} {opened : Option Octets} {b : Inbox DataMsg}
  (render : Renderers) (cfg : KafkaProducerConfig) (cap : Nat)

/-- A step of the loop, anything but SHUTDOWN, is one of a loop that runs on. -/
theorem tapNode_next {render : Renderers} {n n' : TapNode} {ev : TapEvent}
    (h : (tapNode render texts t opened).next n ev = some n') :
    n.tap.returned = false ∧ (ev ≠ .ctrl .shutdown → n'.shutdownAcked = n.shutdownAcked) := by
  obtain ⟨st, hst, rfl⟩ := Option.map_eq_some_iff.mp h
  refine ⟨?_, ?_⟩
  · cases hret : n.tap.returned with
    | false => rfl
    | true =>
        simp only [tapStep, hret, if_true] at hst
        cases hst
  · intro hev
    have hno : answersShutdown n.tap st ev = false := by
      cases ev with
      | ctrl id =>
          cases id with
          | shutdown => exact absurd rfl hev
          | report => rfl
          | ack => rfl
      | timeout => rfl
      | data msg => rfl
      | dataClosed => rfl
    show (n.shutdownAcked || answersShutdown n.tap st ev) = n.shutdownAcked
    rw [hno, Bool.or_false]

/-- A tap that runs has not answered. -/
theorem TapInv.unanswered {s : TapOutput} (hs : TapInv s)
    (hrun : s.node.tap.returned = false) : ¬ TapAcked s := by
  intro hacked
  rw [hs.returned hacked] at hrun
  cases hrun

/-- Nothing holds of a tap that has not answered. -/
theorem TapInv.of_unanswered {s : TapOutput} (hsound : Sound s.inbox) (h : ¬ TapAcked s) :
    TapInv s :=
  ⟨hsound, fun hacked => absurd hacked h, fun hacked => absurd hacked h,
    fun hacked => absurd hacked h⟩

/-- The inbox of a tap is filled before it is asked to stop. -/
theorem TapInv.filled {s : TapOutput} (hs : TapInv s) (hb : Filled s.inbox b) :
    TapInv { s with inbox := b } ∧ ¬ TapAcked { s with inbox := b } := by
  have hno : ¬ TapAcked { s with inbox := b } := fun hacked => hs.requested hacked hb.before
  exact ⟨.of_unanswered hb.sound hno, hno⟩

/-- **ONE STEP OF THE TAP**: it answers by one step only, which leaves the data
    channel as it is. -/
theorem tapOutput_step {render : Renderers} {s u : TapOutput} {l : TapLabel} (hs : TapInv s)
    (h : tapOutputStep render texts t opened s l = some u) :
    TapInv u ∧ (TapAcked u → l = .shutdown ∧ u.inbox = s.inbox) := by
  -- a step of the loop other than SHUTDOWN, over a sound inbox
  have hloop : ∀ ev n b, ev ≠ .ctrl .shutdown → Sound b →
      (tapNode render texts t opened).next s.node ev = some n → u = ⟨n, b⟩ →
      TapInv u ∧ (TapAcked u → l = .shutdown ∧ u.inbox = s.inbox) := by
    rintro ev n b hev hb hn rfl
    obtain ⟨hrun, hsame⟩ := tapNode_next hn
    have hno : ¬ TapAcked ⟨n, b⟩ := by
      show ¬ n.shutdownAcked = true
      rw [hsame hev]
      exact hs.unanswered hrun
    exact ⟨.of_unanswered hb hno, fun hacked => absurd hacked hno⟩
  cases l with
  | produce msg =>
      obtain ⟨b, hb, rfl⟩ := Option.map_eq_some_iff.mp h
      obtain ⟨hinv, hno⟩ := hs.filled (filled_produce hb)
      exact ⟨hinv, fun hacked => absurd hacked hno⟩
  | request =>
      obtain ⟨b, hb, rfl⟩ := Option.map_eq_some_iff.mp h
      obtain ⟨hinv, hno⟩ := hs.filled (filled_request hb)
      exact ⟨hinv, fun hacked => absurd hacked hno⟩
  | handIn msg =>
      simp only [tapOutputStep] at h
      split at h
      · cases h
      · next b hb =>
          obtain ⟨n, hn, rfl⟩ := Option.map_eq_some_iff.mp h
          exact hloop (.data msg) n b (fun hev => by cases hev)
            (sound_of_none (handIn_spec hb).2.1) hn rfl
  | timeout =>
      obtain ⟨n, hn, rfl⟩ := Option.map_eq_some_iff.mp h
      exact hloop .timeout n s.inbox (fun hev => by cases hev) hs.sound hn rfl
  | take =>
      simp only [tapOutputStep] at h
      split at h
      · cases h
      · next msg b hb =>
          obtain ⟨n, hn, rfl⟩ := Option.map_eq_some_iff.mp h
          exact hloop (.data msg) n b (fun hev => by cases hev) (hs.sound.take hb) hn rfl
  | report =>
      obtain ⟨n, hn, rfl⟩ := Option.map_eq_some_iff.mp h
      exact hloop (.ctrl .report) n s.inbox (fun hev => by cases hev) hs.sound hn rfl
  | shutdown =>
      simp only [tapOutputStep] at h
      split at h
      · next hreq =>
          obtain ⟨n, hn, rfl⟩ := Option.map_eq_some_iff.mp h
          have hrun := (tapNode_next hn).1
          obtain ⟨st, hst, rfl⟩ := Option.map_eq_some_iff.mp hn
          simp only [tapStep, hrun, Bool.false_eq_true, if_false, Option.some.injEq] at hst
          subst hst
          refine ⟨⟨hs.sound, fun _ => ?_, fun _ => rfl, fun _ => rfl⟩, fun _ => ⟨rfl, rfl⟩⟩
          exact Option.isSome_iff_ne_none.mp hreq
      · cases h

theorem tapInv_init (texts : TapTexts) (t : TapOutputModule) (opened : Option Octets) (cap : Nat) :
    TapInv (tapOutput render texts t opened cap).init :=
  .of_unanswered (sound_make cap) Bool.false_ne_true

/-- A tap that has answered is done exactly if its data channel is empty. -/
theorem TapInv.complete_iff {s : TapOutput} (hs : TapInv s) (hacked : TapAcked s) :
    TapComplete s ↔ s.inbox.dataChan.buf = [] := by
  have hiff := Drain.complete_iff hs.sound (List.append_nil _).symm (hs.requested hacked)
  constructor
  · exact fun h => (hiff.mp h.1).2
  · exact fun h => ⟨hiff.mpr ⟨rfl, h⟩, hs.flushed hacked⟩

/-- SHUTDOWN is answered when it is taken. -/
theorem shutdown_acked {render : Renderers} {s u : TapOutput}
    (h : tapOutputStep render texts t opened s .shutdown = some u) : TapAcked u := by
  simp only [tapOutputStep] at h
  split at h
  · obtain ⟨n, hn, rfl⟩ := Option.map_eq_some_iff.mp h
    have hrun := (tapNode_next hn).1
    obtain ⟨st, hst, rfl⟩ := Option.map_eq_some_iff.mp hn
    have hret : st.returned = true := by
      simp only [tapStep, hrun, Bool.false_eq_true, if_false, Option.some.injEq] at hst
      rw [← hst]
    show (s.node.shutdownAcked || answersShutdown s.node.tap st (.ctrl .shutdown)) = true
    rw [tap_returns hst hret, Bool.or_true]
  · cases h

/-- **THE TAP DRAINS** if SHUTDOWN finds its data channel empty, and only
    then. -/
theorem tap_drains (texts : TapTexts) (t : TapOutputModule) (opened : Option Octets) (cap : Nat) :
    Drains (tapOutput render texts t opened cap) TapSettled TapAcked TapComplete ∧
      ∀ s l u, Reach (tapOutput render texts t opened cap) anyStep s → ¬ TapSettled s l →
        tapOutputStep render texts t opened s l = some u →
        Loses (tapOutput render texts t opened cap) TapAcked TapComplete u := by
  refine drains_iff_empty (I := TapInv) (L := TapAcked)
    (E := fun s => s.inbox.dataChan.buf = []) (A := fun l => l = .shutdown) ?_
    (tapInv_init render texts t opened cap) Bool.false_ne_true
    (fun _ _ _ hs hstep => (tapOutput_step hs hstep).1) ?_ (fun _ _ hacked => hacked)
    (fun _ hs hacked => hs.complete_iff hacked) ?_
  · intro s l
    cases l <;> simp [TapSettled]
  · intro s l u hs hstep hacked
    obtain ⟨hl, hsame⟩ := (tapOutput_step hs hstep).2 hacked
    exact ⟨Or.inr hl, by rw [hsame]⟩
  · rintro s l u hs rfl hstep
    change tapOutputStep render texts t opened s .shutdown = some u at hstep
    have hacked : TapAcked u := shutdown_acked hstep
    refine ⟨u, .init, hacked, ?_⟩
    rw [((tapOutput_step hs hstep).2 hacked).2]

/-! ## The Kafka producer -/

/-- Where `kafkaFeederLoopSticky` and, once connected, `kafkaFeederLoop` are. -/
inductive KafkaPc where
  | connecting
  | retrying
  | selecting
  | sending (msg : DataMsg) (kafkamsg : ProducerMessage)
  | returned
  | crashed (msg : DataMsg)

/-- The producer and its data channel: `posted` are the messages Kafka took,
    `done` those the loop is through with. -/
structure KafkaOutput where
  pc : KafkaPc
  stats : MsgStats
  posted : List ProducerMessage
  inbox : Inbox DataMsg
  done : List DataMsg

inductive KafkaLabel where
  | produce (msg : DataMsg)
  | handIn (msg : DataMsg)
  | request
  | connect (ok : Bool)
  | retry
  | take
  | sent (ok : Bool)
  | report
  | shutdown

/-- A message off the data channel, up to handing it to Kafka. -/
def feed (s : KafkaOutput) (msg : DataMsg) : KafkaOutput :=
  match dataMsgToKafkaMessage render cfg msg with
  | .error (.error _) =>
      { s with
        stats := { s.stats with msgsNOK := s.stats.msgsNOK + 1 }
        done := s.done ++ [msg] }
  | .error (.panic _) => { s with pc := .crashed msg }
  | .ok none => { s with done := s.done ++ [msg] }
  | .ok (some kafkamsg) => { s with pc := .sending msg kafkamsg }

/-- One step of the producer, of those that feed it or of the conductor. -/
def kafkaStep (s : KafkaOutput) :
    KafkaLabel → Option KafkaOutput
  | .produce msg => (produce s.inbox msg).map (fun b => { s with inbox := b })
  | .handIn msg =>
      match s.pc, handIn s.inbox msg with
      | .selecting, some b => some (feed render cfg { s with inbox := b } msg)
      | _, _ => none
  | .request => (request s.inbox).map (fun b => { s with inbox := b })
  | .connect ok =>
      match s.pc with
      | .connecting => some { s with pc := if ok then .selecting else .retrying }
      | _ => none
  | .retry =>
      match s.pc with
      | .retrying => some { s with pc := .connecting }
      | _ => none
  | .take =>
      match s.pc, take s.inbox with
      | .selecting, some (msg, b) => some (feed render cfg { s with inbox := b } msg)
      | _, _ => none
  | .sent ok =>
      match s.pc with
      | .sending msg kafkamsg =>
          some (if ok then
            { s with
              pc := .selecting
              stats := { s.stats with msgsOK := s.stats.msgsOK + 1 }
              posted := s.posted ++ [kafkamsg]
              done := s.done ++ [msg] }
          else
            { s with
              pc := .selecting
              stats := { s.stats with msgsNOK := s.stats.msgsNOK + 1 }
              done := s.done ++ [msg] })
      | _ => none
  | .report =>
      match s.pc with
      | .selecting => some s
      | .retrying => some { s with pc := .connecting }
      | _ => none
  | .shutdown =>
      -- taken while connecting as well, whatever is queued
      match s.pc with
      | .selecting =>
          if s.inbox.atRequest.isSome = true then some { s with pc := .returned } else none
      | .retrying =>
          if s.inbox.atRequest.isSome = true then some { s with pc := .returned } else none
      | _ => none

/-- The producer with a data channel of this capacity. -/
def kafkaOutput :
    System KafkaOutput KafkaLabel where
  init := ⟨.connecting, ⟨0, 0⟩, [], make cap, []⟩
  next := kafkaStep render cfg

/-- The steps there are, each with the place it is taken from. -/
inductive KafkaMove (render : Renderers) (cfg : KafkaProducerConfig) (s : KafkaOutput) :
    KafkaLabel → KafkaOutput → Prop where
  | produce {msg : DataMsg} {b : Inbox DataMsg} : Drain.produce s.inbox msg = some b →
      KafkaMove render cfg s (.produce msg) { s with inbox := b }
  | request {b : Inbox DataMsg} : Drain.request s.inbox = some b →
      KafkaMove render cfg s .request { s with inbox := b }
  | handIn {msg : DataMsg} {b : Inbox DataMsg} : s.pc = .selecting →
      Drain.handIn s.inbox msg = some b →
      KafkaMove render cfg s (.handIn msg) (feed render cfg { s with inbox := b } msg)
  | connected : s.pc = .connecting →
      KafkaMove render cfg s (.connect true) { s with pc := .selecting }
  | refused : s.pc = .connecting →
      KafkaMove render cfg s (.connect false) { s with pc := .retrying }
  | retry : s.pc = .retrying → KafkaMove render cfg s .retry { s with pc := .connecting }
  | take {msg : DataMsg} {b : Inbox DataMsg} : s.pc = .selecting →
      Drain.take s.inbox = some (msg, b) →
      KafkaMove render cfg s .take (feed render cfg { s with inbox := b } msg)
  | sentOk {msg : DataMsg} {kafkamsg : ProducerMessage} : s.pc = .sending msg kafkamsg →
      KafkaMove render cfg s (.sent true) { s with
        pc := .selecting
        stats := { s.stats with msgsOK := s.stats.msgsOK + 1 }
        posted := s.posted ++ [kafkamsg]
        done := s.done ++ [msg] }
  | sentFailed {msg : DataMsg} {kafkamsg : ProducerMessage} : s.pc = .sending msg kafkamsg →
      KafkaMove render cfg s (.sent false) { s with
        pc := .selecting
        stats := { s.stats with msgsNOK := s.stats.msgsNOK + 1 }
        done := s.done ++ [msg] }
  | reportIdle : s.pc = .selecting → KafkaMove render cfg s .report s
  | reportRetrying : s.pc = .retrying →
      KafkaMove render cfg s .report { s with pc := .connecting }
  | shutdown : s.pc = .selecting ∨ s.pc = .retrying → s.inbox.atRequest.isSome = true →
      KafkaMove render cfg s .shutdown { s with pc := .returned }

/-- **EVERY STEP OF THE PRODUCER IS ONE OF THESE**. -/
theorem kafkaStep_move {render : Renderers} {cfg : KafkaProducerConfig} {s t : KafkaOutput}
    {l : KafkaLabel} (h : kafkaStep render cfg s l = some t) : KafkaMove render cfg s l t := by
  cases l with
  | produce msg =>
      obtain ⟨b, hb, rfl⟩ := Option.map_eq_some_iff.mp h
      exact .produce hb
  | request =>
      obtain ⟨b, hb, rfl⟩ := Option.map_eq_some_iff.mp h
      exact .request hb
  | handIn msg =>
      simp only [kafkaStep] at h
      split at h
      · next b hpc hb =>
          cases h
          exact .handIn hpc hb
      · cases h
  | connect ok =>
      simp only [kafkaStep] at h
      split at h
      · next hpc =>
          cases ok with
          | true =>
              cases h
              exact .connected hpc
          | false =>
              cases h
              exact .refused hpc
      · cases h
  | retry =>
      simp only [kafkaStep] at h
      split at h
      · next hpc =>
          cases h
          exact .retry hpc
      · cases h
  | take =>
      simp only [kafkaStep] at h
      split at h
      · next msg b hpc hb =>
          cases h
          exact .take hpc hb
      · cases h
  | sent ok =>
      simp only [kafkaStep] at h
      split at h
      · next msg kafkamsg hpc =>
          cases ok with
          | true =>
              cases h
              exact .sentOk hpc
          | false =>
              cases h
              exact .sentFailed hpc
      · cases h
  | report =>
      simp only [kafkaStep] at h
      split at h
      · next hpc =>
          cases h
          exact .reportIdle hpc
      · next hpc =>
          cases h
          exact .reportRetrying hpc
      · cases h
  | shutdown =>
      simp only [kafkaStep] at h
      split at h
      · next hpc =>
          split at h
          · next hreq =>
              cases h
              exact .shutdown (Or.inl hpc) hreq
          · cases h
      · next hpc =>
          split at h
          · next hreq =>
              cases h
              exact .shutdown (Or.inr hpc) hreq
          · cases h
      · cases h

def KafkaAcked (s : KafkaOutput) : Prop :=
  match s.pc with
  | .returned => True
  | _ => False

def KafkaComplete (s : KafkaOutput) : Prop := Complete s.inbox.atRequest s.done

def KafkaSettled (s : KafkaOutput) : KafkaLabel → Prop
  | .shutdown => s.inbox.dataChan.buf = []
  | _ => True

/-- The message the loop is busy with. -/
def kafkaHand : KafkaPc → List DataMsg
  | .sending msg _ => [msg]
  | .crashed msg => [msg]
  | _ => []

/-- What was taken is done or in hand, and a producer that has answered was asked
    to stop. -/
structure KafkaInv (s : KafkaOutput) : Prop where
  sound : Sound s.inbox
  ledger : s.inbox.taken = s.done ++ kafkaHand s.pc
  requested : KafkaAcked s → s.inbox.atRequest ≠ none

/-- A message fed to an idle loop is done or in hand. -/
theorem kafkaInv_feed {s : KafkaOutput} {msg : DataMsg} (hs : KafkaInv s) (hpc : s.pc = .selecting)
    (hsound : Sound b) (htaken : b.taken = s.inbox.taken ++ [msg]) :
    KafkaInv (feed render cfg { s with inbox := b } msg) ∧
      ¬ KafkaAcked (feed render cfg { s with inbox := b } msg) := by
  have hnot : ¬ KafkaAcked s := by
    unfold KafkaAcked
    rw [hpc]
    exact id
  have hdone : s.inbox.taken = s.done := by
    rw [hs.ledger, hpc]
    exact List.append_nil _
  rw [hdone] at htaken
  have hback : b.taken = (s.done ++ [msg]) ++ kafkaHand s.pc := by
    rw [htaken, hpc]
    exact (List.append_nil _).symm
  unfold feed
  split
  · exact ⟨⟨hsound, hback, fun hacked => absurd hacked hnot⟩, hnot⟩
  · exact ⟨⟨hsound, htaken, fun hacked => hacked.elim⟩, id⟩
  · exact ⟨⟨hsound, hback, fun hacked => absurd hacked hnot⟩, hnot⟩
  · exact ⟨⟨hsound, htaken, fun hacked => hacked.elim⟩, id⟩

/-- The inbox of a producer is filled before it is asked to stop. -/
theorem KafkaInv.filled {s : KafkaOutput} (hs : KafkaInv s) (hb : Filled s.inbox b) :
    KafkaInv { s with inbox := b } ∧ ¬ KafkaAcked { s with inbox := b } := by
  have hno : ¬ KafkaAcked s := fun hacked => hs.requested hacked hb.before
  exact ⟨⟨hb.sound, hb.taken.trans hs.ledger, fun hacked => absurd hacked hno⟩, hno⟩

/-- A step of the loop that neither takes nor finishes a message. -/
theorem KafkaInv.moved {s : KafkaOutput} (hs : KafkaInv s) (pc : KafkaPc)
    (hhand : kafkaHand pc = kafkaHand s.pc) (hno : ¬ KafkaAcked { s with pc := pc }) :
    KafkaInv { s with pc := pc } := by
  refine ⟨hs.sound, ?_, fun hacked => absurd hacked hno⟩
  show s.inbox.taken = s.done ++ kafkaHand pc
  rw [hhand]
  exact hs.ledger

/-- It answers with nothing in hand. -/
theorem KafkaInv.answered {s : KafkaOutput} (hs : KafkaInv s)
    (hreq : s.inbox.atRequest.isSome = true) (hhand : kafkaHand s.pc = []) :
    KafkaInv { s with pc := .returned } := by
  refine ⟨hs.sound, ?_, fun _ => Option.isSome_iff_ne_none.mp hreq⟩
  rw [hs.ledger, hhand]
  rfl

/-- **ONE STEP OF THE PRODUCER**: it answers by one step only, with nothing in
    hand. -/
theorem kafka_step {render : Renderers} {cfg : KafkaProducerConfig} {s u : KafkaOutput}
    {l : KafkaLabel} (hs : KafkaInv s) (h : kafkaStep render cfg s l = some u) :
    KafkaInv u ∧ (KafkaAcked u → l = .shutdown ∧ u.inbox = s.inbox) := by
  cases kafkaStep_move h with
  | produce hb =>
      obtain ⟨hinv, hno⟩ := hs.filled (filled_produce hb)
      exact ⟨hinv, fun hacked => absurd hacked hno⟩
  | request hb =>
      obtain ⟨hinv, hno⟩ := hs.filled (filled_request hb)
      exact ⟨hinv, fun hacked => absurd hacked hno⟩
  | handIn hpc hb =>
      obtain ⟨-, hnone, htaken⟩ := handIn_spec hb
      obtain ⟨hinv, hno⟩ := kafkaInv_feed render cfg hs hpc (sound_of_none hnone) htaken
      exact ⟨hinv, fun hacked => absurd hacked hno⟩
  | connected hpc => exact ⟨hs.moved .selecting (by rw [hpc]; rfl) id, fun hacked => hacked.elim⟩
  | refused hpc => exact ⟨hs.moved .retrying (by rw [hpc]; rfl) id, fun hacked => hacked.elim⟩
  | retry hpc => exact ⟨hs.moved .connecting (by rw [hpc]; rfl) id, fun hacked => hacked.elim⟩
  | take hpc hb =>
      obtain ⟨-, htaken, -⟩ := take_spec hb
      obtain ⟨hinv, hno⟩ := kafkaInv_feed render cfg hs hpc (hs.sound.take hb) htaken
      exact ⟨hinv, fun hacked => absurd hacked hno⟩
  | @sentOk msg kafkamsg hpc =>
      have hledger : s.inbox.taken = (s.done ++ [msg]) ++ [] := by
        rw [hs.ledger, hpc, List.append_nil]
        rfl
      exact ⟨⟨hs.sound, hledger, fun hacked => hacked.elim⟩, fun hacked => hacked.elim⟩
  | @sentFailed msg kafkamsg hpc =>
      have hledger : s.inbox.taken = (s.done ++ [msg]) ++ [] := by
        rw [hs.ledger, hpc, List.append_nil]
        rfl
      exact ⟨⟨hs.sound, hledger, fun hacked => hacked.elim⟩, fun hacked => hacked.elim⟩
  | reportIdle hpc =>
      have hno : ¬ KafkaAcked s := by
        unfold KafkaAcked
        rw [hpc]
        exact id
      exact ⟨hs, fun hacked => absurd hacked hno⟩
  | reportRetrying hpc =>
      exact ⟨hs.moved .connecting (by rw [hpc]; rfl) id, fun hacked => hacked.elim⟩
  | shutdown hpc hreq =>
      have hhand : kafkaHand s.pc = [] := by
        rcases hpc with hpc | hpc
        · rw [hpc]; rfl
        · rw [hpc]; rfl
      exact ⟨hs.answered hreq hhand, fun _ => ⟨rfl, rfl⟩⟩

theorem kafkaInv_init : KafkaInv (kafkaOutput render cfg cap).init :=
  ⟨sound_make cap, rfl, fun hacked => hacked.elim⟩

/-- A producer that has answered is done exactly if its data channel is empty. -/
theorem KafkaInv.complete_iff {s : KafkaOutput} (hs : KafkaInv s) (hacked : KafkaAcked s) :
    KafkaComplete s ↔ s.inbox.dataChan.buf = [] := by
  have hhand : kafkaHand s.pc = [] := by
    unfold KafkaAcked at hacked
    split at hacked
    · next hpc =>
        rw [hpc]
        rfl
    · exact hacked.elim
  have hiff := Drain.complete_iff hs.sound hs.ledger (hs.requested hacked)
  rw [hhand] at hiff
  exact ⟨fun h => (hiff.mp h).2, fun h => hiff.mpr ⟨rfl, h⟩⟩

theorem kafka_shutdown_acked {render : Renderers} {cfg : KafkaProducerConfig}
    {s u : KafkaOutput} (h : kafkaStep render cfg s .shutdown = some u) : KafkaAcked u := by
  simp only [kafkaStep] at h
  split at h
  · split at h
    · cases h
      trivial
    · cases h
  · split at h
    · cases h
      trivial
    · cases h
  · cases h

/-- **THE KAFKA PRODUCER DRAINS** if SHUTDOWN finds its data channel empty, and
    only then. -/
theorem kafka_drains :
    Drains (kafkaOutput render cfg cap) KafkaSettled KafkaAcked KafkaComplete ∧
      ∀ s l u, Reach (kafkaOutput render cfg cap) anyStep s → ¬ KafkaSettled s l →
        kafkaStep render cfg s l = some u →
        Loses (kafkaOutput render cfg cap) KafkaAcked KafkaComplete u := by
  refine drains_iff_empty (I := KafkaInv) (L := KafkaAcked)
    (E := fun s => s.inbox.dataChan.buf = []) (A := fun l => l = .shutdown) ?_
    (kafkaInv_init render cfg cap) id (fun _ _ _ hs hstep => (kafka_step hs hstep).1) ?_
    (fun _ _ hacked => hacked) (fun _ hs hacked => hs.complete_iff hacked) ?_
  · intro s l
    cases l <;> simp [KafkaSettled]
  · intro s l u hs hstep hacked
    obtain ⟨hl, hsame⟩ := (kafka_step hs hstep).2 hacked
    exact ⟨Or.inr hl, by rw [hsame]⟩
  · rintro s l u hs rfl hstep
    change kafkaStep render cfg s .shutdown = some u at hstep
    have hacked : KafkaAcked u := kafka_shutdown_acked hstep
    refine ⟨u, .init, hacked, ?_⟩
    rw [((kafka_step hs hstep).2 hacked).2]

/-! ## The Prometheus output -/

/-- Where the worker is. -/
inductive WorkerPc (M : Type) where
  | selecting
  | producing (msg : M)
  | exited

/-- The output: `shutdownChan` says that the channel of that name is closed. -/
structure PrometheusOutput (M : Type) where
  ctrl : CtrlPc
  shutdownChan : Bool
  worker : WorkerPc M
  inbox : Inbox M
  done : List M

inductive PrometheusLabel (M : Type) where
  | produce (msg : M)
  | handIn (msg : M)
  | request
  | takeShutdown
  | ack
  | take
  | produced
  | exit

variable {M : Type}

/-- One step of the control loop, of the worker, of the producers or of the
    conductor.  What `produceMetrics` comes to, the worker logs. -/
def prometheusStep (s : PrometheusOutput M) : PrometheusLabel M → Option (PrometheusOutput M)
  | .produce msg => (produce s.inbox msg).map (fun b => { s with inbox := b })
  | .handIn msg =>
      match s.worker, handIn s.inbox msg with
      | .selecting, some b => some { s with worker := .producing msg, inbox := b }
      | _, _ => none
  | .request => (request s.inbox).map (fun b => { s with inbox := b })
  | .takeShutdown =>
      if s.ctrl = .serving ∧ s.inbox.atRequest.isSome = true then
        some { s with ctrl := .waiting, shutdownChan := true }
      else none
  | .ack =>
      match s.ctrl, s.worker with
      | .waiting, .exited => some { s with ctrl := .returned }
      | _, _ => none
  | .take =>
      match s.worker, take s.inbox with
      | .selecting, some (msg, b) => some { s with worker := .producing msg, inbox := b }
      | _, _ => none
  | .produced =>
      match s.worker with
      | .producing msg => some { s with worker := .selecting, done := s.done ++ [msg] }
      | _ => none
  | .exit =>
      match s.worker with
      | .selecting => if s.shutdownChan = true then some { s with worker := .exited } else none
      | _ => none

/-- The output with a data channel of this capacity. -/
def prometheusOutput : System (PrometheusOutput M) (PrometheusLabel M) where
  init := ⟨.serving, false, .selecting, make cap, []⟩
  next := prometheusStep

/-- The steps there are, each with the place it is taken from. -/
inductive PrometheusMove (s : PrometheusOutput M) :
    PrometheusLabel M → PrometheusOutput M → Prop where
  | produce {msg : M} {b : Inbox M} : Drain.produce s.inbox msg = some b →
      PrometheusMove s (.produce msg) { s with inbox := b }
  | request {b : Inbox M} : Drain.request s.inbox = some b →
      PrometheusMove s .request { s with inbox := b }
  | handIn {msg : M} {b : Inbox M} : s.worker = .selecting → Drain.handIn s.inbox msg = some b →
      PrometheusMove s (.handIn msg) { s with worker := .producing msg, inbox := b }
  | takeShutdown : s.inbox.atRequest.isSome = true →
      PrometheusMove s .takeShutdown { s with ctrl := .waiting, shutdownChan := true }
  | ack : s.worker = .exited → PrometheusMove s .ack { s with ctrl := .returned }
  | take {msg : M} {b : Inbox M} : s.worker = .selecting → Drain.take s.inbox = some (msg, b) →
      PrometheusMove s .take { s with worker := .producing msg, inbox := b }
  | produced {msg : M} : s.worker = .producing msg →
      PrometheusMove s .produced { s with worker := .selecting, done := s.done ++ [msg] }
  | exit : s.worker = .selecting → s.shutdownChan = true →
      PrometheusMove s .exit { s with worker := .exited }

variable {l : PrometheusLabel M} {u s : PrometheusOutput M}

/-- **EVERY STEP OF THE OUTPUT IS ONE OF THESE**. -/
theorem prometheusStep_move (h : prometheusStep s l = some u) : PrometheusMove s l u := by
  cases l with
  | produce msg =>
      obtain ⟨b, hb, rfl⟩ := Option.map_eq_some_iff.mp h
      exact .produce hb
  | request =>
      obtain ⟨b, hb, rfl⟩ := Option.map_eq_some_iff.mp h
      exact .request hb
  | handIn msg =>
      simp only [prometheusStep] at h
      split at h
      · next b hworker hb =>
          cases h
          exact .handIn hworker hb
      · cases h
  | takeShutdown =>
      simp only [prometheusStep] at h
      split at h
      · next hreq =>
          cases h
          exact .takeShutdown hreq.2
      · cases h
  | ack =>
      simp only [prometheusStep] at h
      split at h
      · next hworker =>
          cases h
          exact .ack hworker
      · cases h
  | take =>
      simp only [prometheusStep] at h
      split at h
      · next msg b hworker hb =>
          cases h
          exact .take hworker hb
      · cases h
  | produced =>
      simp only [prometheusStep] at h
      split at h
      · next msg hworker =>
          cases h
          exact .produced hworker
      · cases h
  | exit =>
      simp only [prometheusStep] at h
      split at h
      · next hworker =>
          split at h
          · next hclosed =>
              cases h
              exact .exit hworker hclosed
          · cases h
      · cases h

def PrometheusAcked (s : PrometheusOutput M) : Prop := s.ctrl = .returned

def PrometheusComplete (s : PrometheusOutput M) : Prop := Complete s.inbox.atRequest s.done

/-- The worker leaves with nothing queued. -/
def PrometheusSettled (s : PrometheusOutput M) : PrometheusLabel M → Prop
  | .exit => s.inbox.dataChan.buf = []
  | _ => True

/-- The message the worker is busy with. -/
def workerHand : WorkerPc M → List M
  | .producing msg => [msg]
  | _ => []

def Exited : WorkerPc M → Prop
  | .exited => True
  | _ => False

/-- What was taken is done or in hand; the workers are told to leave after the
    request only, and leave after they are told. -/
structure PrometheusInv (s : PrometheusOutput M) : Prop where
  sound : Sound s.inbox
  ledger : s.inbox.taken = s.done ++ workerHand s.worker
  told : s.shutdownChan = true → s.inbox.atRequest ≠ none
  teller : s.shutdownChan = true → s.ctrl ≠ .serving
  left : Exited s.worker → s.shutdownChan = true
  answered : PrometheusAcked s → Exited s.worker

/-- With the worker gone nothing is in hand. -/
theorem workerHand_exited {worker : WorkerPc M} (h : Exited worker) : workerHand worker = [] := by
  cases worker with
  | exited => rfl
  | selecting => exact h.elim
  | producing msg => exact h.elim

/-- A worker in its loop takes a message. -/
theorem PrometheusInv.take (hs : PrometheusInv s) {msg : M} {b : Inbox M}
    (hworker : s.worker = .selecting) (hsound : Sound b) (hreq : b.atRequest = s.inbox.atRequest)
    (htaken : b.taken = s.inbox.taken ++ [msg]) :
    PrometheusInv { s with worker := .producing msg, inbox := b } := by
  have hno : ¬ Exited s.worker := by
    rw [hworker]
    exact id
  refine ⟨hsound, ?_, ?_, hs.teller, fun h => h.elim, fun h => absurd (hs.answered h) hno⟩
  · show b.taken = s.done ++ [msg]
    rw [htaken, hs.ledger, hworker, List.append_assoc]
    rfl
  · show s.shutdownChan = true → b.atRequest ≠ none
    rw [hreq]
    exact hs.told

/-- The inbox of the exporter is filled before it is asked to stop. -/
theorem PrometheusInv.filled {b : Inbox M} (hs : PrometheusInv s) (hb : Filled s.inbox b) :
    PrometheusInv { s with inbox := b } := by
  have huntold : ¬ s.shutdownChan = true := fun htold => hs.told htold hb.before
  exact ⟨hb.sound, hb.taken.trans hs.ledger, fun htold => absurd htold huntold, hs.teller,
    hs.left, hs.answered⟩

theorem prometheusInv_step (hs : PrometheusInv s) (h : prometheusStep s l = some u) :
    PrometheusInv u := by
  cases prometheusStep_move h with
  | produce hb => exact hs.filled (filled_produce hb)
  | request hb => exact hs.filled (filled_request hb)
  | handIn hworker hb =>
      obtain ⟨hnone, hnone', htaken⟩ := handIn_spec hb
      exact hs.take hworker (sound_of_none hnone') (hnone'.trans hnone.symm) htaken
  | takeShutdown hreq =>
      refine ⟨hs.sound, hs.ledger, fun _ => Option.isSome_iff_ne_none.mp hreq,
        fun _ => ?_, fun _ => rfl, fun hacked => ?_⟩
      · show CtrlPc.waiting ≠ .serving
        decide
      · cases hacked
  | ack hworker =>
      refine ⟨hs.sound, hs.ledger, hs.told, fun _ => ?_, hs.left, fun _ => ?_⟩
      · show CtrlPc.returned ≠ .serving
        decide
      · show Exited s.worker
        rw [hworker]
        trivial
  | take hworker hb =>
      obtain ⟨hreq, htaken, -⟩ := take_spec hb
      exact hs.take hworker (hs.sound.take hb) hreq htaken
  | @produced msg hworker =>
      have hno : ¬ Exited s.worker := by
        rw [hworker]
        exact id
      refine ⟨hs.sound, ?_, hs.told, hs.teller, fun h => h.elim,
        fun hacked => absurd (hs.answered hacked) hno⟩
      show s.inbox.taken = (s.done ++ [msg]) ++ []
      rw [hs.ledger, hworker, List.append_nil]
      rfl
  | exit hworker hclosed =>
      refine ⟨hs.sound, ?_, hs.told, hs.teller, fun _ => hclosed, fun _ => trivial⟩
      rw [hs.ledger, hworker]
      rfl

theorem prometheusInv_init :
    PrometheusInv (prometheusOutput cap : System (PrometheusOutput M) _).init := by
  refine ⟨sound_make cap, rfl, fun h => ?_, fun h => ?_, fun h => h.elim, fun h => ?_⟩
  · exact absurd h Bool.false_ne_true
  · exact absurd h Bool.false_ne_true
  · cases h

/-- With the worker gone, everything is done exactly if the data channel is
    empty. -/
theorem PrometheusInv.complete_iff {s : PrometheusOutput M} (hs : PrometheusInv s)
    (hexit : Exited s.worker) : PrometheusComplete s ↔ s.inbox.dataChan.buf = [] := by
  have hiff := Drain.complete_iff hs.sound hs.ledger (hs.told (hs.left hexit))
  rw [workerHand_exited hexit] at hiff
  exact ⟨fun h => (hiff.mp h).2, fun h => hiff.mpr ⟨rfl, h⟩⟩

/-- The worker leaves by one step only, and takes nothing along. -/
theorem prometheus_exited (hs : PrometheusInv s) (h : prometheusStep s l = some u)
    (hexit : Exited u.worker) :
    (Exited s.worker ∨ l = .exit) ∧ u.inbox.dataChan.buf = s.inbox.dataChan.buf := by
  cases prometheusStep_move h with
  | produce hb => exact absurd (produce_spec hb).1 (hs.told (hs.left hexit))
  | request hb => exact absurd (request_none hb) (hs.told (hs.left hexit))
  | handIn => exact hexit.elim
  | takeShutdown => exact ⟨Or.inl hexit, rfl⟩
  | ack => exact ⟨Or.inl hexit, rfl⟩
  | take => exact hexit.elim
  | produced => exact hexit.elim
  | exit => exact ⟨Or.inr rfl, rfl⟩

/-- The control loop waits for the worker to leave, and answers next. -/
theorem prometheus_answers {cap : Nat} (hs : PrometheusInv s)
    (h : prometheusStep s .exit = some u) :
    ∃ v, Reach (resume (prometheusOutput cap) u) anyStep v ∧ PrometheusAcked v ∧
      (v.inbox.dataChan.buf = [] ↔ s.inbox.dataChan.buf = []) := by
  simp only [prometheusStep] at h
  split at h
  · next hworker =>
      split at h
      · next hclosed =>
          cases h
          have hwait : s.ctrl = .waiting := by
            cases hctrl : s.ctrl with
            | serving => exact absurd hctrl (hs.teller hclosed)
            | waiting => rfl
            | returned =>
                have hexit := hs.answered hctrl
                rw [hworker] at hexit
                exact hexit.elim
          refine ⟨{ s with worker := .exited, ctrl := .returned },
            Reach.next (a := .ack) .init trivial ?_, rfl, Iff.rfl⟩
          show prometheusStep { s with worker := .exited } .ack = _
          simp only [prometheusStep, hwait]
      · cases h
  · cases h

/-- **THE PROMETHEUS OUTPUT DRAINS** if its worker leaves an empty data channel
    behind, and only then. -/
theorem prometheus_drains :
    Drains (prometheusOutput cap : System (PrometheusOutput M) _) PrometheusSettled
        PrometheusAcked PrometheusComplete ∧
      ∀ s l u, Reach (prometheusOutput cap : System (PrometheusOutput M) _) anyStep s →
        ¬ PrometheusSettled s l → prometheusStep s l = some u →
        Loses (prometheusOutput cap) PrometheusAcked PrometheusComplete u := by
  refine drains_iff_empty (I := PrometheusInv) (L := fun s => Exited s.worker)
    (E := fun s => s.inbox.dataChan.buf = []) (A := fun l => l = .exit) ?_
    (prometheusInv_init cap) id (fun _ _ _ hs hstep => prometheusInv_step hs hstep) ?_
    (fun _ hs hacked => hs.answered hacked) (fun _ hs hexit => hs.complete_iff hexit) ?_
  · intro s l
    cases l <;> simp [PrometheusSettled]
  · intro s l u hs hstep hexit
    obtain ⟨hl, hsame⟩ := prometheus_exited hs hstep hexit
    exact ⟨hl, by rw [hsame]⟩
  · rintro s l u hs rfl hstep
    exact prometheus_answers hs hstep

/-! ## The four outputs -/

/-- Two messages are queued for Influx when SHUTDOWN is sent; the router and the
    worker see both of them through. -/
def influxRun : List (PipelineInflux.InfluxLabel Nat) :=
  [.router (.setup false), .router (.produce 7), .router (.produce 8), .connect 0, .request,
    .takeShutdown, .router .shutdown, .router .readLen, .router .drainNext, .router (.route 0),
    .router .send, .router .drainNext, .router (.route 0), .router .send, .receive 0,
    .router .drainNext, .router .closeNext, .router .closeNext, .handle 0 true, .connect 0,
    .receive 0, .handle 0 false, .exit 0, .ack]

def plainKafka : KafkaProducerConfig := ⟨fun _ => "telemetry", .none, dataMsgStreamSpecDefault⟩

/-- A JSON message. -/
def queuedMsg : DataMsg := .json ⟨[0x7b, 0x7d], "collector"⟩

/-- Something that was queued is not done. -/
theorem not_complete {atRequest : Option (List M × List M)} {b q done : List M}
    (hreq : atRequest = some (b, q)) (hlen : done.length ≠ (b ++ q).length) :
    ¬ Complete atRequest done := by
  rintro ⟨before', queued', hreq', hperm⟩
  rw [hreq] at hreq'
  cases hreq'
  exact hlen hperm.length_eq

end PipelineOutputDrain
