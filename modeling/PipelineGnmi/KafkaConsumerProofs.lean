import PipelineGnmi.KafkaKeyProofs
import PipelineGnmi.SweepProofs
import PipelineGnmi.TransitionProofs

/-! # The Kafka consumer

    `maintainKafkaConsumerConnection` of `xport_kafka.go`: connect, with
    retries, then loop in a select over errors, retries, checkpoints, messages,
    notifications and control requests.  A message is decoded and every decoded
    message is sent to every data channel in turn, each send in a select of its
    own that also listens for control requests.

    When that inner select takes a control request, the send it stood for is
    not made again: the loop goes on to the next channel.  So delivery is
    complete along the runs in which control requests other than SHUTDOWN are
    taken by the outer select only (`consumer_delivers`). -/

namespace PipelineKafkaConsumer

open GoChan Sweep Transition PipelineMessage PipelineKafkaKey

/-- `sarama.ConsumerMessage`. -/
structure ConsumerMessage where
  key : String
  value : Octets
  deriving DecidableEq, Repr

/-- `kafkaConsumerConfig` and the name of the module, as far as the loop reads
    them. -/
structure KafkaConsumerConfig where
  name : String
  keySpec : KafkaKeySpec
  msgEncoding : Encoding
  logData : Bool

/-- `msgStats`. -/
structure MsgStats where
  msgsOK : Nat
  msgsNOK : Nat
  deriving DecidableEq, Repr

/-- Where the loop is; `delivering` has the decoded messages still to send, the
    first of them next to the channel of this index. -/
inductive Pc (M : Type) where
  | connecting
  | selecting
  | delivering (data : ConsumerMessage) (dMs : List M) (i : Nat)
  | returned
  | crashed

/-- The consumer and its channels.  `handled` are the Kafka messages it is done
    with, `marked` those whose offset it marked. -/
structure ConsumerState (M : Type) where
  pc : Pc M
  connected : Bool
  retryScheduled : Bool
  checkpointMsg : Option ConsumerMessage
  flushScheduled : Bool
  marked : List ConsumerMessage
  stats : MsgStats
  dataChans : List (Chan M)
  handled : List ConsumerMessage
  shutdownAccepted : Bool

inductive ConsumerLabel where
  | drain (i : Nat)
  | connect (ok : Bool)
  | remoteErr
  | retry
  | checkpointFlush
  | consume (data : ConsumerMessage)
  | notification
  | ctrl (id : MsgID)
  | deliver (receiver : Bool)
  | deliverCtrl (id : MsgID)

variable {M : Type}

variable {t s : ConsumerState M} {blocksOf : ConsumerMessage → List M} (cfg : KafkaConsumerConfig)
  (codec : Codec M)

/-- What the codec makes of a Kafka message: an error leaves nothing. -/
def blocks (data : ConsumerMessage) : List M :=
  match codec (extractKafkaProducer cfg.name cfg.keySpec data.key) data.value with
  | .ok (some dMs) => dMs
  | _ => []

/-- The counters after a message. -/
def countMsg (data : ConsumerMessage) (stats : MsgStats) : MsgStats :=
  match codec (extractKafkaProducer cfg.name cfg.keySpec data.key) data.value with
  | .error _ => { stats with msgsNOK := stats.msgsNOK + 1 }
  | .ok _ => if cfg.logData then { stats with msgsOK := stats.msgsOK + 1 } else stats

/-- Go on with the loops over decoded messages and channels, from the channel
    of index `i`. -/
def goOn (s : ConsumerState M) (data : ConsumerMessage) (dMs : List M) (i : Nat) :
    ConsumerState M :=
  match place s.dataChans.length dMs i with
  | none => { s with pc := .selecting, handled := s.handled ++ [data] }
  | some (dMs, i) => { s with pc := .delivering data dMs i }

/-- `handleCtrlMsg`: only SHUTDOWN ends the loop; anything else is answered. -/
def handleCtrlMsg (s : ConsumerState M) (id : MsgID) (next : ConsumerState M) : ConsumerState M :=
  match id with
  | .shutdown => { s with pc := .returned, shutdownAccepted := true }
  | _ => next

/-- One step of the consumer or of a stage downstream. -/
def consumerStep (s : ConsumerState M) :
    ConsumerLabel → Option (ConsumerState M)
  | .drain i =>
      match s.dataChans[i]? with
      | none => none
      | some ch =>
          match ch.recv with
          | none => none
          | some (_, ch') => some { s with dataChans := s.dataChans.set i ch' }
  | .connect ok =>
      match s.pc with
      | .connecting => some { s with
          pc := .selecting, connected := ok, retryScheduled := !ok }
      | _ => none
  | .remoteErr =>
      match s.pc with
      | .selecting => if s.connected then some s else none
      | _ => none
  | .retry =>
      -- the restart closes the consumer and forgets the checkpoint
      match s.pc with
      | .selecting =>
          if s.retryScheduled then
            some { s with
              pc := .connecting, connected := false, retryScheduled := false
              checkpointMsg := none }
          else none
      | _ => none
  | .checkpointFlush =>
      match s.pc with
      | .selecting =>
          if s.flushScheduled then
            match s.checkpointMsg with
            | none => some { s with flushScheduled := false }
            | some data =>
                if s.connected then
                  some { s with
                    flushScheduled := false
                    marked := s.marked ++ [data]
                    checkpointMsg := none }
                else some { s with pc := .crashed }
          else none
      | _ => none
  | .consume data =>
      match s.pc with
      | .selecting =>
          if s.connected then
            some (goOn
              { s with
                checkpointMsg := some data
                flushScheduled := true
                stats := countMsg cfg codec data s.stats }
              data (blocks cfg codec data) 0)
          else none
      | _ => none
  | .notification =>
      match s.pc with
      | .selecting => if s.connected then some s else none
      | _ => none
  | .ctrl id =>
      match s.pc with
      | .selecting => some (handleCtrlMsg s id s)
      | _ => none
  | .deliver receiver =>
      match s.pc with
      | .delivering data (dM :: rest) i =>
          match s.dataChans[i]? with
          | none => none
          | some ch =>
              match ch.send dM receiver with
              | .ok ch' => some (goOn { s with dataChans := s.dataChans.set i ch' } data
                  (dM :: rest) (i + 1))
              | .blocked => none
              | .panic => some { s with pc := .crashed }
      | _ => none
  | .deliverCtrl id =>
      match s.pc with
      | .delivering data dMs i =>
          some (handleCtrlMsg s id (goOn s data dMs (i + 1)))
      | _ => none

/-- The consumer over data channels of these capacities; an encoding without a
    codec is fatal. -/
def consumer (decode : Encoding → Codec M) (caps : List Nat) :
    System (ConsumerState M) ConsumerLabel where
  init :=
    { pc := match getCodec decode cfg.msgEncoding with
        | .ok _ => .connecting
        | .error _ => .returned
      connected := false, retryScheduled := false, checkpointMsg := none
      flushScheduled := false, marked := [], stats := ⟨0, 0⟩
      dataChans := caps.map Chan.make, handled := [], shutdownAccepted := false }
  next := consumerStep cfg (decode cfg.msgEncoding)

/-! ## What a step can do -/

/-- The effect of a step, with what it requires. -/
inductive Moves (cfg : KafkaConsumerConfig) (codec : Codec M) (s : ConsumerState M) :
    ConsumerLabel → ConsumerState M → Prop where
  | drained {i : Nat} {m : M} {ch ch' : Chan M} :
      s.dataChans[i]? = some ch → ch.recv = some (m, ch') →
      Moves cfg codec s (.drain i) { s with dataChans := s.dataChans.set i ch' }
  | connected {ok : Bool} : s.pc = .connecting →
      Moves cfg codec s (.connect ok)
        { s with pc := .selecting, connected := ok, retryScheduled := !ok }
  | ignored {a : ConsumerLabel} : s.pc = .selecting → Moves cfg codec s a s
  | restarted : s.pc = .selecting →
      Moves cfg codec s .retry { s with
        pc := .connecting, connected := false, retryScheduled := false
        checkpointMsg := none }
  | flushedNone : s.pc = .selecting → s.checkpointMsg = none →
      Moves cfg codec s .checkpointFlush { s with flushScheduled := false }
  | flushed {data : ConsumerMessage} : s.pc = .selecting → s.checkpointMsg = some data →
      Moves cfg codec s .checkpointFlush { s with
        flushScheduled := false
        marked := s.marked ++ [data]
        checkpointMsg := none }
  | flushPanic {data : ConsumerMessage} : s.pc = .selecting → s.checkpointMsg = some data →
      s.connected ≠ true → Moves cfg codec s .checkpointFlush { s with pc := .crashed }
  | consumed {data : ConsumerMessage} : s.pc = .selecting → s.connected = true →
      Moves cfg codec s (.consume data) (goOn
        { s with
          checkpointMsg := some data
          flushScheduled := true
          stats := countMsg cfg codec data s.stats }
        data (blocks cfg codec data) 0)
  | served {id : MsgID} : s.pc = .selecting →
      Moves cfg codec s (.ctrl id) (handleCtrlMsg s id s)
  | delivered {receiver : Bool} {data : ConsumerMessage} {dM : M} {rest : List M} {i : Nat}
      {ch ch' : Chan M} : s.pc = .delivering data (dM :: rest) i →
      s.dataChans[i]? = some ch → ch.send dM receiver = .ok ch' →
      Moves cfg codec s (.deliver receiver)
        (goOn { s with dataChans := s.dataChans.set i ch' } data (dM :: rest) (i + 1))
  | deliverPanic {receiver : Bool} {data : ConsumerMessage} {dM : M} {rest : List M} {i : Nat}
      {ch : Chan M} : s.pc = .delivering data (dM :: rest) i →
      s.dataChans[i]? = some ch → ch.send dM receiver = .panic →
      Moves cfg codec s (.deliver receiver) { s with pc := .crashed }
  | interrupted {id : MsgID} {data : ConsumerMessage} {dMs : List M} {i : Nat} :
      s.pc = .delivering data dMs i →
      Moves cfg codec s (.deliverCtrl id) (handleCtrlMsg s id (goOn s data dMs (i + 1)))

variable {a : ConsumerLabel} {dMs : List M} {i : Nat} {data : ConsumerMessage}

/-- **STEP CASES**: every step of the consumer moves as listed. -/
theorem moves_of_step {cfg : KafkaConsumerConfig} {codec : Codec M}
    (h : consumerStep cfg codec s a = some t) : Moves cfg codec s a t := by
  cases a with
  | drain i =>
      simp only [consumerStep] at h
      split at h
      · cases h
      · next ch hch =>
          split at h
          · cases h
          · next m ch' hrecv =>
              cases h
              exact .drained hch hrecv
  | connect ok =>
      simp only [consumerStep] at h
      split at h
      · next hpc =>
          cases h
          exact .connected hpc
      · cases h
  | remoteErr =>
      simp only [consumerStep] at h
      split at h
      · next hpc =>
          split at h
          · cases h
            exact .ignored hpc
          · cases h
      · cases h
  | retry =>
      simp only [consumerStep] at h
      split at h
      · next hpc =>
          split at h
          · cases h
            exact .restarted hpc
          · cases h
      · cases h
  | checkpointFlush =>
      simp only [consumerStep] at h
      split at h
      · next hpc =>
          split at h
          · split at h
            · next hnone =>
                cases h
                exact .flushedNone hpc hnone
            · next data hdata =>
                split at h
                · cases h
                  exact .flushed hpc hdata
                · next hconn =>
                    cases h
                    exact .flushPanic hpc hdata hconn
          · cases h
      · cases h
  | consume data =>
      simp only [consumerStep] at h
      split at h
      · next hpc =>
          split at h
          · next hconn =>
              cases h
              exact .consumed hpc hconn
          · cases h
      · cases h
  | notification =>
      simp only [consumerStep] at h
      split at h
      · next hpc =>
          split at h
          · cases h
            exact .ignored hpc
          · cases h
      · cases h
  | ctrl id =>
      simp only [consumerStep] at h
      split at h
      · next hpc =>
          cases h
          exact .served hpc
      · cases h
  | deliver receiver =>
      simp only [consumerStep] at h
      split at h
      · next data dM rest i hpc =>
          split at h
          · cases h
          · next ch hch =>
              split at h
              · next ch' hsend =>
                  cases h
                  exact .delivered hpc hch hsend
              · cases h
              · next hsend =>
                  cases h
                  exact .deliverPanic hpc hch hsend
      · cases h
  | deliverCtrl id =>
      simp only [consumerStep] at h
      split at h
      · next hpc =>
          cases h
          exact .interrupted hpc
      · cases h

/-! ## Delivery -/

/-- The Kafka message being delivered. -/
def inProgress (blocksOf : ConsumerMessage → List M) : Pc M → List M
  | .delivering data _ _ => blocksOf data
  | _ => []

/-- Every data channel received everything decoded from the messages that are
    handled, once each and in order; after that, at most a beginning of the
    message being delivered. -/
def Delivered (blocksOf : ConsumerMessage → List M) (s : ConsumerState M) : Prop :=
  ∀ ch ∈ s.dataChans, ∃ part, part <+: inProgress blocksOf s.pc ∧
    ch.Carries (s.handled.flatMap blocksOf ++ part) false

/-- A step that leaves no delivery out: control requests other than SHUTDOWN
    are taken by the outer select. -/
def Uninterrupted (_ : ConsumerState M) (a : ConsumerLabel) : Prop :=
  ∀ id, a = .deliverCtrl id → id = .shutdown

/-- The place of the delivery loops. -/
def deliveryPlace : Pc M → Option (List M × Nat)
  | .delivering _ dMs i => some (dMs, i)
  | _ => none

/-- The channels are as far as the loops are. -/
def Progress (blocksOf : ConsumerMessage → List M) (s : ConsumerState M) : Prop :=
  Swept s.dataChans (s.handled.flatMap blocksOf) (inProgress blocksOf s.pc)
    (deliveryPlace s.pc)

theorem Progress.delivering (hp : Progress blocksOf s) (hpc : s.pc = .delivering data dMs i) :
    Swept s.dataChans (s.handled.flatMap blocksOf) (blocksOf data) (some (dMs, i)) := by
  unfold Progress at hp
  rw [hpc] at hp
  exact hp

/-- Going on keeps the channels as far as the loops are. -/
theorem progress_goOn (h : Swept s.dataChans (s.handled.flatMap blocksOf) (blocksOf data)
      (place s.dataChans.length dMs i)) :
    Progress blocksOf (goOn s data dMs i) := by
  unfold goOn
  cases hplace : place s.dataChans.length dMs i with
  | none =>
      rw [hplace] at h
      refine swept_start ?_ []
      show AllCarry s.dataChans ((s.handled ++ [data]).flatMap blocksOf)
      rw [List.flatMap_append, List.flatMap_singleton]
      exact swept_none.mp h
  | some p =>
      rw [hplace] at h
      exact h

/-- The invariant: as long as no shutdown was accepted, the channels are as far
    as the loops are. -/
def ConsumerInv (blocksOf : ConsumerMessage → List M) (s : ConsumerState M) : Prop :=
  s.shutdownAccepted = false → Progress blocksOf s

/-- A step outside the delivery that sends nothing. -/
theorem ConsumerInv.quiet (hi : ConsumerInv blocksOf s)
    (hpc : s.pc = .connecting ∨ s.pc = .selecting)
    (hs : deliveryPlace t.pc = none ∧ inProgress blocksOf t.pc = [])
    (hchans : t.dataChans = s.dataChans) (hhandled : t.handled = s.handled)
    (hshut : t.shutdownAccepted = s.shutdownAccepted) : ConsumerInv blocksOf t := by
  intro hno
  rw [hshut] at hno
  have hp := hi hno
  unfold Progress at hp ⊢
  rw [hs.1, hs.2, hchans, hhandled]
  rcases hpc with hpc | hpc
  · rw [hpc] at hp
    exact hp
  · rw [hpc] at hp
    exact hp

theorem inv_handleCtrlMsg {next : ConsumerState M} {id : MsgID}
    (h : id ≠ .shutdown → ConsumerInv blocksOf next) :
    ConsumerInv blocksOf (handleCtrlMsg s id next) := by
  cases id with
  | shutdown => exact fun hno => nomatch hno
  | report => exact h (fun he => nomatch he)
  | ack => exact h (fun he => nomatch he)

theorem goOn_shutdownAccepted (s : ConsumerState M) (data : ConsumerMessage)
    (dMs : List M) (i : Nat) : (goOn s data dMs i).shutdownAccepted = s.shutdownAccepted := by
  unfold goOn
  split <;> rfl

/-- **ONE STEP DELIVERS**: a step that leaves no delivery out keeps the channels
    as far as the loops are. -/
theorem inv_step {cfg : KafkaConsumerConfig} {codec : Codec M}
    (h : consumerStep cfg codec s a = some t) (hu : Uninterrupted s a)
    (hi : ConsumerInv (blocks cfg codec) s) : ConsumerInv (blocks cfg codec) t := by
  cases moves_of_step h with
  | drained hch hrecv => exact fun hno => Swept.recv (hi hno) hch hrecv
  | connected hpc => exact hi.quiet (Or.inl hpc) ⟨rfl, rfl⟩ rfl rfl rfl
  | ignored _ => exact hi
  | restarted hpc => exact hi.quiet (Or.inr hpc) ⟨rfl, rfl⟩ rfl rfl rfl
  | flushedNone _ _ => exact hi
  | flushed _ _ => exact hi
  | flushPanic hpc _ _ => exact hi.quiet (Or.inr hpc) ⟨rfl, rfl⟩ rfl rfl rfl
  | consumed hpc _ =>
      intro hno
      rw [goOn_shutdownAccepted] at hno
      have hp := hi hno
      unfold Progress at hp
      rw [hpc] at hp
      have hall : AllCarry s.dataChans (_ ++ []) := swept_none.mp hp
      rw [List.append_nil] at hall
      exact progress_goOn (swept_start hall _)
  | served _ => exact inv_handleCtrlMsg (fun _ => hi)
  | delivered hpc hch hsend =>
      intro hno
      rw [goOn_shutdownAccepted] at hno
      have hswept := ((hi hno).delivering hpc).send hch hsend
      refine progress_goOn ?_
      rw [List.length_set]
      exact hswept
  | @deliverPanic receiver _ dM _ _ _ hpc hch hsend =>
      -- the channels are open, so the send cannot panic
      intro hno
      exact absurd hsend (((hi hno).delivering hpc).send_ne_panic hch dM receiver)
  | @interrupted id _ _ _ _ =>
      refine inv_handleCtrlMsg ?_
      intro hid
      -- a report here would skip the channel, which is what is ruled out
      exact absurd (hu id rfl) hid

/-- **UNINTERRUPTED DELIVERY IS COMPLETE**: along every run in which no control
    request other than SHUTDOWN is taken in place of a send, every channel has
    received what was decoded from the handled messages, once each, in
    order. -/
theorem consumer_delivers (cfg : KafkaConsumerConfig) (decode : Encoding → Codec M)
    (caps : List Nat) (s : ConsumerState M) (h : Reach (consumer cfg decode caps) Uninterrupted s)
    (hno : s.shutdownAccepted = false) : Delivered (blocks cfg (decode cfg.msgEncoding)) s := by
  have hinv : ConsumerInv (blocks cfg (decode cfg.msgEncoding)) s := by
    refine h.invariant ?_ (fun _ _ _ hi hu hstep => inv_step hstep hu hi)
    intro _
    have hmade := swept_start (allCarry_make (M := M) caps) []
    simp only [Progress, consumer]
    split <;> exact hmade
  exact fun ch hch => (hinv hno).carries hch

def sampleConfig : KafkaConsumerConfig := ⟨"inkafka", .id, .json, false⟩

/-- Two messages for a channel that holds one, which is drained in between. -/
def drainedRun : List ConsumerLabel :=
  [.connect true, .consume ⟨"r1", [1]⟩, .deliver false, .ctrl .report,
    .consume ⟨"r1", [2]⟩, .drain 0, .deliver false]

theorem consumer_delivers_drained :
    ∃ s, exec (consumer sampleConfig wholeBlocks [1])
        (consumer sampleConfig wholeBlocks [1]).init drainedRun = some s ∧
      s.handled = [⟨"r1", [1]⟩, ⟨"r1", [2]⟩] ∧
      Delivered (blocks sampleConfig (wholeBlocks .json)) s :=
  ⟨_, rfl, rfl, consumer_delivers sampleConfig wholeBlocks [1] _
    (reach_exec drainedRun (fun _ a ha id he => by subst he; simp [drainedRun] at ha)
      .init rfl) rfl⟩

/-- The same two messages, with a report asked for while the channel is
    full. -/
def reportRun : List ConsumerLabel :=
  [.connect true, .consume ⟨"r1", [1]⟩, .deliver false, .consume ⟨"r1", [2]⟩,
    .deliverCtrl .report]

/-- The report takes the place of the second message. -/
theorem report_replaces_delivery :
    ∃ s, exec (consumer sampleConfig wholeBlocks [1])
        (consumer sampleConfig wholeBlocks [1]).init reportRun = some s ∧
      s.shutdownAccepted = false ∧
      ¬ Delivered (blocks sampleConfig (wholeBlocks .json)) s := by
  refine ⟨_, rfl, rfl, ?_⟩
  intro h
  obtain ⟨part, hpart, hc⟩ := h _ (List.mem_singleton_self _)
  have hnil : part = [] := List.prefix_nil.mp hpart
  subst hnil
  exact absurd (congrArg List.length hc) (by decide)

end PipelineKafkaConsumer
