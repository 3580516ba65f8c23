import PipelineGnmi.KafkaConsumerProofs
import PipelineGnmi.ReplayProofs

/-! # Nodes that serve their control channel

    The conductor shuts the nodes down one after the other: it sends SHUTDOWN
    on a node's control channel and waits for the answer.  A node that has
    stopped reading the channel without having answered holds up the shutdown
    for good.

    Three nodes are looked at here.  The replay input (`replay.go`) runs its
    feeder loop inside a sticky loop that starts it again after an error; the
    Kafka input (`xport_kafka.go`) looks up its codec first; the tap (`tap.go`)
    opens its file first.  Each of them returns on SHUTDOWN, after the answer,
    and each has another way to return: at the end of an archive that is not
    looped, for an encoding without a codec, and for a file that does not
    open. -/

namespace PipelineCtrlService

open Transition GoChan Sweep PipelineMessage PipelineDataMsg PipelineEncapSt PipelineTap
open PipelineReplay PipelineKafkaConsumer

variable {M : Type}

/-! ## The replay input -/

/-- Where the goroutine of `replayInputFeederLoopSticky` is: in the select, in
    the loop of a tick, waiting to start the feeder again, or gone. -/
inductive ReplayPc where
  | selecting
  | feeding
  | sleeping
  | terminated
  deriving DecidableEq

/-- The goroutine; `ticking` says that the file is open, `shutdownAcked` that a
    SHUTDOWN was received and answered. -/
structure ReplayNode (M : Type) where
  pc : ReplayPc
  feeder : ReplayState M
  ticking : Bool
  shutdownAcked : Bool

inductive ReplayLabel where
  | tick
  | iterate (full : Nat → Nat → Nat → Bool)
  | restart (opened : Option Octets)
  | ctrl (id : MsgID)

/-- The start of `replayInputFeederLoop`: a parser and the file, or `done`. -/
def startLoop (decode : Encoding → Codec M) (t : ReplayInputModule)
    (opened : Option Octets) (st : ReplayState M) : ReplayState M :=
  let st := match getNewEncapParser decode t.name "st" (some t.producer) with
    | .ok p => { st with parser := p }
    | .error _ => { st with done := true }
  match opened with
  | some archive => { st with archive := archive, unread := archive }
  | none => { st with done := true }

/-- One step of the goroutine.  A tick runs the inner loop, an iteration at a
    time, unless the feeder is done. -/
def replayStep (decode : Encoding → Codec M) (t : ReplayInputModule) (s : ReplayNode M) :
    ReplayLabel → Option (ReplayNode M)
  | .tick =>
      if s.pc = .selecting ∧ s.ticking = true then
        some (if s.feeder.done then s else { s with pc := .feeding })
      else none
  | .iterate full =>
      if s.pc = .feeding then
        match innerIter decode t full s.feeder with
        | .again st => some { s with feeder := st }
        | .produced st => some { s with pc := .selecting, feeder := st }
        | .returned (some _) st => some { s with pc := .sleeping, feeder := st }
        | .returned none st => some { s with pc := .terminated, feeder := st }
      else none
  | .restart opened =>
      if s.pc = .sleeping then
        some { s with
          pc := .selecting
          feeder := startLoop decode t opened s.feeder
          ticking := opened.isSome }
      else none
  | .ctrl id =>
      if s.pc = .selecting then
        match id with
        | .shutdown => some { s with pc := .terminated, shutdownAcked := true }
        | _ => some s
      else none

/-- The feeder before it was ever started. -/
def freshFeeder (dataChans : List (List M)) : ReplayState M :=
  { parser := ⟨"", fun _ => none, 0, none, 0, .waitForHdr, none⟩
    archive := [], unread := [], done := false, count := 0, dataChans := dataChans }

/-- The replay input; `opened` is the archive, if it could be opened. -/
def replayNode (decode : Encoding → Codec M) (t : ReplayInputModule)
    (opened : Option Octets) (dataChans : List (List M)) :
    System (ReplayNode M) ReplayLabel where
  init :=
    { pc := .selecting
      feeder := startLoop decode t opened (freshFeeder dataChans)
      ticking := opened.isSome
      shutdownAcked := false }
  next := replayStep decode t

/-- The iteration finds the archive at its end, and is not to go back to the
    start. -/
def RunsOut (t : ReplayInputModule) (s : ReplayNode M) : ReplayLabel → Prop
  | .iterate _ => s.pc = .feeding ∧ t.loop = false ∧ s.feeder.unread = [] ∧
      ∃ n, nextBlockBuffer s.feeder.parser = .ok n
  | _ => False

/-- A buffer that is asked for is never empty. -/
theorem nextBlockBuffer_pos {p : EncapSTParser M} {n : Nat}
    (h : nextBlockBuffer p = .ok n) : 0 < n := by
  unfold nextBlockBuffer at h
  split at h
  · split at h
    · cases h
    · next hne =>
        split at h
        · cases h
        · cases h
          exact Nat.pos_of_ne_zero (fun h0 => hne (UInt32.toNat_inj.mp h0))
  · cases h
    decide
  · cases h
    decide

/-- The feeder returns without an error exactly at the end of an archive that is
    not looped. -/
theorem innerIter_returns_nil_iff (decode : Encoding → Codec M) (t : ReplayInputModule)
    (full : Nat → Nat → Nat → Bool) (st : ReplayState M) :
    (∃ st', innerIter decode t full st = .returned none st') ↔
      t.loop = false ∧ st.unread = [] ∧ ∃ n, nextBlockBuffer st.parser = .ok n := by
  constructor
  · rintro ⟨st', h⟩
    unfold innerIter at h
    split at h
    · cases h
    · next n hn =>
        split at h
        · cases h
        · next heof =>
            -- only an empty rest is reported as the end of the file
            have hun : st.unread = [] := by
              unfold readFull at heof
              split at heof
              · cases heof
              · split at heof
                · next hun => exact hun
                · cases heof
            split at h
            · split at h <;> cases h
            · next hloop => exact ⟨Bool.eq_false_iff.mpr hloop, hun, n, hn⟩
        · split at h <;> cases h
  · rintro ⟨hloop, hun, n, hn⟩
    have hread : readFull n st.unread = .eof := by
      have hpos := nextBlockBuffer_pos hn
      rw [readFull, hun, if_neg (by rw [List.length_nil]; omega), if_pos rfl]
    refine ⟨st, ?_⟩
    simp only [innerIter, hn, hread, hloop, Bool.false_eq_true, if_false]

/-- SHUTDOWN is answered last thing. -/
def AckedLast (s : ReplayNode M) : Prop := s.shutdownAcked = true → s.pc = .terminated

/-- The goroutine is gone only after an answer to SHUTDOWN. -/
def AckedFirst (s : ReplayNode M) : Prop := s.pc = .terminated → s.shutdownAcked = true

variable {l : ReplayLabel} {t : ReplayInputModule} {u s : ReplayNode M}
  {decode : Encoding → Codec M} (render : Renderers) (texts : TapTexts)

/-- What a step can do: answer SHUTDOWN and end, end because the archive has run
    out, or go on without an answer. -/
theorem replayStep_cases (h : replayStep decode t s l = some u) :
    (u.pc = .terminated ∧ u.shutdownAcked = true) ∨
      (RunsOut t s l ∧ s.pc ≠ .terminated ∧ u.shutdownAcked = s.shutdownAcked) ∨
      (u.pc ≠ .terminated ∧ s.pc ≠ .terminated ∧ u.shutdownAcked = s.shutdownAcked) := by
  cases l with
  | tick =>
      simp only [replayStep] at h
      split at h
      · next hpc =>
          cases h
          refine Or.inr (Or.inr ?_)
          split
          · exact ⟨by rw [hpc.1]; decide, by rw [hpc.1]; decide, rfl⟩
          · exact ⟨by simp, by rw [hpc.1]; decide, rfl⟩
      · cases h
  | iterate full =>
      simp only [replayStep] at h
      split at h
      · next hpc =>
          have hgoes : s.pc ≠ .terminated := by rw [hpc]; decide
          split at h
          · cases h
            exact Or.inr (Or.inr ⟨hgoes, hgoes, rfl⟩)
          · cases h
            exact Or.inr (Or.inr ⟨by simp, hgoes, rfl⟩)
          · cases h
            exact Or.inr (Or.inr ⟨by simp, hgoes, rfl⟩)
          · next st hret =>
              cases h
              exact Or.inr (Or.inl
                ⟨⟨hpc, (innerIter_returns_nil_iff decode t full _).mp ⟨st, hret⟩⟩, hgoes, rfl⟩)
      · cases h
  | restart opened =>
      simp only [replayStep] at h
      split at h
      · next hpc =>
          cases h
          exact Or.inr (Or.inr ⟨by simp, by rw [hpc]; decide, rfl⟩)
      · cases h
  | ctrl id =>
      simp only [replayStep] at h
      split at h
      · next hpc =>
          have hgoes : s.pc ≠ .terminated := by rw [hpc]; decide
          split at h
          · cases h
            exact Or.inl ⟨rfl, rfl⟩
          · cases h
            exact Or.inr (Or.inr ⟨hgoes, hgoes, rfl⟩)
      · cases h

theorem ackedLast_step (hs : AckedLast s) (h : replayStep decode t s l = some u) : AckedLast u := by
  -- a step that answers nothing starts where nothing was answered yet
  have hkeep : s.pc ≠ .terminated → u.shutdownAcked = s.shutdownAcked → AckedLast u := by
    intro hpc heq hacked
    rw [heq] at hacked
    exact absurd (hs hacked) hpc
  rcases replayStep_cases h with ⟨hterm, -⟩ | ⟨-, hpc, heq⟩ | ⟨-, hpc, heq⟩
  · exact fun _ => hterm
  · exact hkeep hpc heq
  · exact hkeep hpc heq

theorem ackedFirst_step (hl : ¬ RunsOut t s l) (h : replayStep decode t s l = some u) :
    AckedFirst u := by
  rcases replayStep_cases h with ⟨-, hacked⟩ | ⟨hruns, -⟩ | ⟨hgoes, -⟩
  · exact fun _ => hacked
  · exact absurd hruns hl
  · exact fun hterm => absurd hterm hgoes

/-- **AN ARCHIVE THAT RUNS OUT TAKES THE NODE WITH IT**: the goroutine is gone
    and has answered no SHUTDOWN. -/
theorem runsOut_terminates (hs : AckedLast s) (hl : RunsOut t s l)
    (h : replayStep decode t s l = some u) : u.pc = .terminated ∧ u.shutdownAcked = false := by
  cases l with
  | iterate full =>
      obtain ⟨hpc, hend⟩ := hl
      obtain ⟨st', hret⟩ := (innerIter_returns_nil_iff decode t full s.feeder).mpr hend
      simp only [replayStep, hret, if_pos hpc, Option.some.injEq] at h
      subst h
      refine ⟨rfl, Bool.eq_false_iff.mpr ?_⟩
      intro hacked
      have hterm := hs hacked
      rw [hpc] at hterm
      cases hterm
  | tick => exact hl.elim
  | restart opened => exact hl.elim
  | ctrl id => exact hl.elim

/-! ## The Kafka input -/

/-- The consumer is gone. -/
def Gone : Pc M → Prop
  | .returned => True
  | .crashed => True
  | _ => False

/-- What holds of a consumer by the place it is at: nothing is left to mark
    while it connects, and it returned on SHUTDOWN only. -/
def AtPlace (s : ConsumerState M) : Pc M → Prop
  | .connecting => s.checkpointMsg = none
  | .returned => s.shutdownAccepted = true
  | .crashed => False
  | _ => True

/-- The consumer in service: an offset is marked only over a connection, and
    nobody closes the channels it sends on. -/
structure Serves (s : ConsumerState M) : Prop where
  atPlace : AtPlace s s.pc
  marks : s.checkpointMsg ≠ none → s.connected = true
  opened : AllOpen s.dataChans

theorem Serves.goOn {s : ConsumerState M} (hmarks : s.checkpointMsg ≠ none → s.connected = true)
    (hopen : AllOpen s.dataChans) (data : ConsumerMessage) (dMs : List M) (i : Nat) :
    Serves (goOn s data dMs i) := by
  unfold PipelineKafkaConsumer.goOn
  split
  · exact ⟨trivial, hmarks, hopen⟩
  · exact ⟨trivial, hmarks, hopen⟩

theorem Serves.handleCtrlMsg {s next : ConsumerState M} (hs : Serves s) (hnext : Serves next)
    (id : MsgID) : Serves (handleCtrlMsg s id next) := by
  cases id with
  | shutdown => exact ⟨rfl, hs.marks, hs.opened⟩
  | report => exact hnext
  | ack => exact hnext

/-- **ONE STEP KEEPS THE CONSUMER IN SERVICE**. -/
theorem serves_step {cfg : KafkaConsumerConfig} {codec : Codec M} {s t : ConsumerState M}
    {a : ConsumerLabel} (hs : Serves s) (h : consumerStep cfg codec s a = some t) : Serves t := by
  -- in the outer select nothing is asked of the place
  have hselect : ∀ u : ConsumerState M, u.pc = .selecting → AtPlace u u.pc := by
    intro u hpc
    rw [hpc]
    trivial
  cases moves_of_step h with
  | drained hch hrecv =>
      refine ⟨?_, hs.marks, hs.opened.recv hch hrecv⟩
      have hplace := hs.atPlace
      revert hplace
      show AtPlace s s.pc → AtPlace _ s.pc
      cases s.pc <;> exact id
  | connected hpc =>
      have hnone : s.checkpointMsg = none := by
        have hplace := hs.atPlace
        rw [hpc] at hplace
        exact hplace
      exact ⟨trivial, fun hne => absurd hnone hne, hs.opened⟩
  | ignored _ => exact hs
  | restarted _ => exact ⟨rfl, fun hne => absurd rfl hne, hs.opened⟩
  | flushedNone hpc _ => exact ⟨hselect _ hpc, hs.marks, hs.opened⟩
  | flushed hpc _ => exact ⟨hselect _ hpc, fun hne => absurd rfl hne, hs.opened⟩
  | flushPanic _ hdata hno =>
      -- a message waiting to be marked came over the connection
      exact absurd (hs.marks (by rw [hdata]; exact Option.some_ne_none _)) hno
  | consumed _ hconn =>
      refine Serves.goOn ?_ ?_ _ _ _
      · exact fun _ => hconn
      · exact hs.opened
  | served _ => exact hs.handleCtrlMsg hs _
  | delivered _ hch hsend =>
      refine Serves.goOn ?_ ?_ _ _ _
      · exact hs.marks
      · exact hs.opened.send hch hsend
  | @deliverPanic receiver _ dM _ _ _ _ hch hpanic =>
      exact absurd hpanic (hs.opened.send_ne_panic hch dM receiver)
  | interrupted _ => exact hs.handleCtrlMsg (Serves.goOn hs.marks hs.opened _ _ _) _

/-- **THE CODEC DECIDES**: with one the consumer is gone only after it accepted
    a SHUTDOWN, without one it is gone from the start. -/
theorem consumer_serves_iff (cfg : KafkaConsumerConfig) (decode : Encoding → Codec M)
    (caps : List Nat) :
    (∀ s, Reach (consumer cfg decode caps) anyStep s → Gone s.pc →
        s.shutdownAccepted = true) ↔
      ∃ codec, getCodec decode cfg.msgEncoding = .ok codec := by
  cases hcodec : getCodec decode cfg.msgEncoding with
  | error err =>
      constructor
      · intro h
        have hgone : Gone (consumer cfg decode caps).init.pc := by
          simp only [consumer, hcodec]
          trivial
        exact absurd (h _ .init hgone) Bool.false_ne_true
      · rintro ⟨codec, hok⟩
        cases hok
  | ok codec =>
      constructor
      · exact fun _ => ⟨codec, rfl⟩
      · intro _ s hreach hgone
        have hserves : Serves s := by
          refine hreach.invariant (I := Serves) ?_
            (fun _ _ _ hs _ hstep => serves_step hs hstep)
          refine ⟨?_, fun hne => absurd rfl hne, allOpen_make caps⟩
          simp only [consumer, hcodec]
          rfl
        have hplace := hserves.atPlace
        revert hplace hgone
        cases s.pc with
        | returned => exact fun _ hacc => hacc
        | crashed => exact fun _ hno => hno.elim
        | connecting => exact fun hno => hno.elim
        | selecting => exact fun hno => hno.elim
        | delivering data dMs i => exact fun hno => hno.elim

/-! ## The tap -/

/-- The tap, noting whether it has answered a SHUTDOWN. -/
structure TapNode where
  tap : TapState
  shutdownAcked : Bool

/-- The step took a SHUTDOWN and sent the answer. -/
def answersShutdown (st st' : TapState) : TapEvent → Bool
  | .ctrl .shutdown => decide (st'.acks = st.acks + 1)
  | _ => false

def tapNode (t : TapOutputModule) (opened : Option Octets) : System TapNode TapEvent where
  init := ⟨(tap render texts t opened).init, false⟩
  next s ev := (tapStep render texts t s.tap ev).map
    (fun st => ⟨st, s.shutdownAcked || answersShutdown s.tap st ev⟩)

theorem tapDump_returned (t : TapOutputModule) (st : TapState) (msg : DataMsg) :
    (tapDump render texts t st msg).returned = st.returned := by
  unfold tapDump
  split
  · rfl
  · rfl
  · split <;> rfl

/-- The tap returns by answering a SHUTDOWN. -/
theorem tap_returns {render : Renderers} {texts : TapTexts} {t : TapOutputModule}
    {st st' : TapState} {ev : TapEvent} (h : tapStep render texts t st ev = some st')
    (hret : st'.returned = true) : answersShutdown st st' ev = true := by
  unfold tapStep at h
  split at h
  · cases h
  · next hrunning =>
      -- any other arm leaves a running loop running
      have hkept : st'.returned = st.returned → answersShutdown st st' ev = true := by
        intro heq
        rw [heq] at hret
        exact absurd hret hrunning
      cases ev with
      | timeout =>
          simp only at h
          split at h
          · cases h
            exact hkept rfl
          · cases h
      | data msg =>
          simp only at h
          split at h
          · cases h
          · split at h
            · cases h
              exact hkept rfl
            · split at h
              · cases h
                exact hkept rfl
              · cases h
                exact hkept (tapDump_returned render texts t st msg)
      | dataClosed =>
          simp only at h
          split at h
          · cases h
          · cases h
            exact hkept rfl
      | ctrl id =>
          cases id with
          | shutdown =>
              cases h
              exact decide_eq_true rfl
          | report =>
              cases h
              exact hkept rfl
          | ack =>
              cases h
              exact hkept rfl

/-- **THE FILE DECIDES**: with it the tap is gone only after it answered a
    SHUTDOWN, without it the tap is gone from the start. -/
theorem tap_serves_iff (t : TapOutputModule) (opened : Option Octets) :
    (∀ s, Reach (tapNode render texts t opened) anyStep s → s.tap.returned = true →
        s.shutdownAcked = true) ↔ opened.isSome = true := by
  cases opened with
  | none =>
      constructor
      · exact fun h => absurd (h _ .init rfl) Bool.false_ne_true
      · intro hno
        cases hno
  | some archive =>
      refine ⟨fun _ => rfl, fun _ s hreach => ?_⟩
      refine hreach.invariant (I := fun s => s.tap.returned = true → s.shutdownAcked = true)
        (fun hret => absurd hret Bool.false_ne_true) ?_
      intro s ev u _ _ hstep hret
      obtain ⟨st', htap, rfl⟩ := Option.map_eq_some_iff.mp hstep
      show (s.shutdownAcked || answersShutdown s.tap st' ev) = true
      rw [tap_returns htap hret, Bool.or_true]

/-! ## The three nodes -/

/-- **A NODE IN SERVICE STOPS ON SHUTDOWN ONLY**.  The replay input is gone
    without an answer as soon as its archive runs out, and only then; the Kafka
    input serves if its encoding has a codec, the tap if its file opens, and
    both are gone from the start otherwise. -/
theorem ctrl_served_iff (decode : Encoding → Codec M) :
    (∀ (t : ReplayInputModule) (opened : Option Octets) (dataChans : List (List M)),
      (∀ s, Reach (replayNode decode t opened dataChans) (fun s l => ¬ RunsOut t s l) s →
        s.pc = .terminated → s.shutdownAcked = true) ∧
      (∀ s l u, Reach (replayNode decode t opened dataChans) anyStep s → RunsOut t s l →
        replayStep decode t s l = some u → u.pc = .terminated ∧ u.shutdownAcked = false)) ∧
    (∀ (cfg : KafkaConsumerConfig) (caps : List Nat),
      (∀ s, Reach (consumer cfg decode caps) anyStep s → Gone s.pc →
        s.shutdownAccepted = true) ↔
      ∃ codec, getCodec decode cfg.msgEncoding = .ok codec) ∧
    (∀ (render : Renderers) (texts : TapTexts) (t : TapOutputModule)
        (opened : Option Octets),
      (∀ s, Reach (tapNode render texts t opened) anyStep s → s.tap.returned = true →
        s.shutdownAcked = true) ↔ opened.isSome = true) := by
  refine ⟨fun t opened dataChans => ⟨?_, ?_⟩, fun cfg caps => consumer_serves_iff cfg decode caps,
    tap_serves_iff⟩
  · intro s hreach
    refine hreach.invariant (I := AckedFirst) ?_
      (fun _ _ _ _ hl hstep => ackedFirst_step hl hstep)
    intro hterm
    cases hterm
  · intro s l u hreach hl hstep
    have hlast : AckedLast s := by
      refine hreach.invariant (I := AckedLast) ?_
        (fun _ _ _ hs _ hstep => ackedLast_step hs hstep)
      exact fun hacked => absurd hacked Bool.false_ne_true
    exact runsOut_terminates hlast hl hstep

/-- An archive of one frame, played over and over. -/
def loopedArchive : Octets := encodeHdr (tapHdr encStHdrMsgEncapJson [7]) ++ [7]

def overAndOver : ReplayInputModule := ⟨"replay", "dump.bin", 0, true⟩

/-- The archive is played to its end and on, and the node then shut down. -/
def shutdownRun : List ReplayLabel :=
  [.tick, .iterate neverFull, .iterate neverFull, .tick, .iterate neverFull,
    .iterate neverFull, .iterate neverFull, .ctrl .report, .ctrl .shutdown]

theorem ctrl_served_looped :
    ∃ s, exec (replayNode wholeBlocks overAndOver (some loopedArchive) [[]])
        (replayNode wholeBlocks overAndOver (some loopedArchive) [[]]).init shutdownRun = some s ∧
      s.feeder.dataChans = [[[7], [7]]] ∧ s.shutdownAcked = true := by
  refine ⟨_, rfl, rfl, ?_⟩
  refine ((ctrl_served_iff wholeBlocks).1 overAndOver (some loopedArchive) [[]]).1 _
    (reach_exec shutdownRun ?_ .init rfl) rfl
  intro s l _ hout
  cases l with
  | iterate full => exact absurd hout.2.1 (by decide)
  | tick => exact hout
  | restart opened => exact hout
  | ctrl id => exact hout

/-- An archive to be played once. -/
def onceOnly : ReplayInputModule := ⟨"replay", "dump.bin", 0, false⟩

/-- A Kafka input for JSON events, which are written but not read. -/
def eventsConfig : KafkaConsumerConfig := ⟨"inkafka", .id, .jsonEvents, false⟩

/-- Each node has a run in which it is gone and has answered nothing: the archive
    is read to its end, the encoding has no codec, the file does not open. -/
theorem nodes_gone_unanswered :
    (∃ s, Reach (replayNode wholeBlocks onceOnly (some loopedArchive) [[]]) anyStep s ∧
      s.pc = .terminated ∧ s.shutdownAcked = false) ∧
    (nameToEncoding "json_events" = .ok .jsonEvents ∧
      ∃ s, Reach (consumer eventsConfig wholeBlocks [1]) anyStep s ∧
        s.pc = .returned ∧ s.shutdownAccepted = false) ∧
    (∃ s, Reach (tapNode sampleRender sampleTexts sampleTap none) anyStep s ∧
      s.tap.returned = true ∧ s.shutdownAcked = false) := by
  refine ⟨?_, ⟨rfl, _, .init, rfl, rfl⟩, ⟨_, .init, rfl, rfl⟩⟩
  exact ⟨_, reach_exec
    [.tick, .iterate neverFull, .iterate neverFull, .tick, .iterate neverFull]
    (fun _ _ _ => trivial) .init rfl, rfl, rfl⟩

end PipelineCtrlService
