import PipelineGnmi.KafkaConsumerProofs

/-! # Checkpoints of the Kafka consumer

    The subscription of the consumer spans every partition its group assigns to
    it, and `MarkOffset` records progress for the partition of the message it
    is given.  `maintainKafkaConsumerConnection` of `xport_kafka.go` remembers
    ONE message to mark, the last one received from any partition, and a flush
    marks that one and forgets it.

    Beside the consumer a history keeps the messages with their partitions, in
    the order in which they were received.  A flush covers every partition
    exactly if the messages received since the flush before it are all of one
    partition (`checkpoint_covers_iff`). -/

namespace PipelineKafkaCheckpoint

open Transition PipelineMessage PipelineKafkaKey PipelineKafkaConsumer

variable {M : Type}

/-! ## The history -/

/-- What the consumer received and marked.  Messages are known by their index
    in `received`, since two of them may have the same key and value. -/
structure History where
  received : List (Int × ConsumerMessage)
  pending : Option Nat
  marked : List Nat
  flushed : Nat
  deriving DecidableEq, Repr

def History.empty : History := ⟨[], none, [], 0⟩

variable {i : Nat} {cfg : KafkaConsumerConfig} {t : ConsumerState M} {codec : Codec M}
  (h : History) (n : Nat)

/-- The partition of the message of this index. -/
def History.partition (h : History) (i : Nat) : Option Int :=
  (h.received[i]?).map Prod.fst

/-- The message of this index. -/
def History.message (h : History) (i : Nat) : Option ConsumerMessage :=
  (h.received[i]?).map Prod.snd

/-- A message arrives and becomes the one to mark. -/
def History.receive (h : History) (partition : Int) (data : ConsumerMessage) : History :=
  { h with
    received := h.received ++ [(partition, data)]
    pending := some h.received.length }

/-- A flush marks the pending message, if there is one. -/
def History.flush (h : History) : History :=
  { h with
    marked := h.marked ++ h.pending.toList
    pending := none
    flushed := h.received.length }

/-- What a step is remembered for; a step that receives a message comes with the
    partition of the message. -/
def record (_ : ConsumerState M) : Int × ConsumerLabel → History → History
  | (partition, .consume data), h => h.receive partition data
  | (_, .checkpointFlush), h => h.flush
  | (_, .retry), h => { h with pending := none }
  | _, h => h

/-- The consumer, with the partition of every message it receives. -/
def subscribed (cfg : KafkaConsumerConfig) (decode : Encoding → Codec M) (caps : List Nat) :
    System (ConsumerState M) (Int × ConsumerLabel) where
  init := (consumer cfg decode caps).init
  next := fun s a => (consumer cfg decode caps).next s a.2

/-- The consumer with its history. -/
def tracked (cfg : KafkaConsumerConfig) (decode : Encoding → Codec M) (caps : List Nat) :
    System (ConsumerState M × History) (Int × ConsumerLabel) :=
  withHistory (subscribed cfg decode caps) History.empty record

/-- The history is the consumer's: its pending message is `checkpointMsg`, and
    the messages it has as marked are those passed to `MarkOffset`. -/
structure Tracks (s : ConsumerState M) (h : History) : Prop where
  pending : s.checkpointMsg = h.pending.bind h.message
  marked : s.marked.map some = h.marked.map h.message

/-! ## Coverage -/

/-- No message before the one of index `n` is a later one of the partition of
    the message of index `i`. -/
def History.Last (h : History) (n i : Nat) : Prop :=
  ∀ j, i < j → j < n → h.partition j ≠ h.partition i

/-- Of the first `n` messages, the last one of every partition is marked. -/
def History.CoveredUpTo (h : History) (n : Nat) : Prop :=
  ∀ i, i < n → h.Last n i → i ∈ h.marked

/-- **COVERAGE**: the last message received from every partition is marked. -/
def History.Covered (h : History) : Prop := h.CoveredUpTo h.received.length

/-- The messages received since the last flush are all of one partition. -/
def History.SinglePartition (h : History) : Prop :=
  ∀ i j, h.flushed ≤ i → i < h.received.length → h.flushed ≤ j → j < h.received.length →
    h.partition i = h.partition j

/-- Every message has a last one of its partition. -/
theorem History.exists_last :
    ∀ i, i < n → ∃ j, i ≤ j ∧ j < n ∧ h.partition j = h.partition i ∧ h.Last n j := by
  -- the search goes up from `i`, so the induction is on what is left above it
  intro i hi
  induction hd : n - i using Nat.strong_induction_on generalizing i with
  | _ d ih =>
      by_cases hlast : h.Last n i
      · exact ⟨i, le_refl i, hi, rfl, hlast⟩
      · simp only [History.Last, not_forall, not_not] at hlast
        obtain ⟨j, hij, hjn, hsame⟩ := hlast
        obtain ⟨k, hjk, hkn, hpart, hk⟩ := ih (n - j) (by omega) j hjn rfl
        exact ⟨k, by omega, hkn, hpart.trans hsame, hk⟩

/-- The invariant of the history: the pending message is the last one received
    since the flush, marked messages are older than the flush, and the messages
    older than the flush are covered. -/
structure History.Sound (h : History) : Prop where
  pending : h.pending =
    if h.flushed < h.received.length then some (h.received.length - 1) else none
  flushed : h.flushed ≤ h.received.length
  marked : ∀ i ∈ h.marked, i < h.flushed
  covered : h.CoveredUpTo h.flushed

theorem History.Sound.empty : History.empty.Sound where
  pending := rfl
  flushed := le_refl 0
  marked := fun _ hi => absurd hi List.not_mem_nil
  covered := fun i hi => absurd hi (Nat.not_lt_zero i)

/-- What a flush adds to the marked messages. -/
theorem History.Sound.mem_flush {h : History} (hs : h.Sound) (i : Nat) :
    i ∈ h.flush.marked ↔
      i ∈ h.marked ∨ (h.flushed < h.received.length ∧ i = h.received.length - 1) := by
  show i ∈ h.marked ++ h.pending.toList ↔ _
  rw [List.mem_append, hs.pending]
  by_cases hnew : h.flushed < h.received.length
  · rw [if_pos hnew]
    simp [hnew]
  · rw [if_neg hnew]
    simp [hnew]

/-- **A FLUSH COVERS** every partition exactly if it ends a window of one
    partition. -/
theorem History.Sound.covered_flush_iff {h : History} (hs : h.Sound) :
    h.flush.Covered ↔ h.SinglePartition := by
  constructor
  · intro hcovered
    -- any message of the window has the partition of the one that is marked
    have hpending : ∀ i, h.flushed ≤ i → i < h.received.length →
        h.partition i = h.partition (h.received.length - 1) := by
      intro i hi hlt
      obtain ⟨j, hij, hj, hpart, hlast⟩ := h.exists_last h.received.length i hlt
      rcases (hs.mem_flush j).mp (hcovered j hj hlast) with hold | ⟨_, hend⟩
      · have := hs.marked j hold
        omega
      · rw [← hpart, hend]
    intro i j hi hilt hj hjlt
    rw [hpending i hi hilt, hpending j hj hjlt]
  · intro hsingle i hi hlast
    have hi : i < h.received.length := hi
    rw [hs.mem_flush]
    by_cases hold : i < h.flushed
    · refine Or.inl (hs.covered i hold ?_)
      exact fun j hij hj => hlast j hij (Nat.lt_of_lt_of_le hj hs.flushed)
    · refine Or.inr ⟨by omega, ?_⟩
      by_contra hne
      exact hlast (h.received.length - 1) (by omega) (by show _ < h.received.length; omega)
        (hsingle _ _ (by omega) (by omega) (by omega) hi)

theorem History.Sound.flush {h : History} (hs : h.Sound) (hsingle : h.SinglePartition) :
    h.flush.Sound where
  pending := by
    show none = if h.received.length < h.received.length then _ else _
    rw [if_neg (Nat.lt_irrefl _)]
  flushed := le_refl _
  marked := by
    intro i hi
    show i < h.received.length
    rcases (hs.mem_flush i).mp hi with hold | ⟨hnew, hend⟩
    · exact Nat.lt_of_lt_of_le (hs.marked i hold) hs.flushed
    · omega
  covered := hs.covered_flush_iff.mpr hsingle

theorem History.partition_receive (partition : Int) (data : ConsumerMessage)
    (hi : i < h.received.length) : (h.receive partition data).partition i = h.partition i :=
  congrArg (Option.map Prod.fst) (List.getElem?_append_left hi)

theorem History.message_receive (partition : Int) (data : ConsumerMessage)
    (hi : i < h.received.length) : (h.receive partition data).message i = h.message i :=
  congrArg (Option.map Prod.snd) (List.getElem?_append_left hi)

theorem History.Sound.receive {h : History} (hs : h.Sound) (partition : Int)
    (data : ConsumerMessage) : (h.receive partition data).Sound where
  pending := by
    show some h.received.length =
      if h.flushed < (h.received ++ [(partition, data)]).length then
        some ((h.received ++ [(partition, data)]).length - 1) else none
    have := hs.flushed
    rw [List.length_append, List.length_singleton, if_pos (by omega), Nat.add_sub_cancel]
  flushed := by
    show h.flushed ≤ (h.received ++ [(partition, data)]).length
    have := hs.flushed
    rw [List.length_append]
    omega
  marked := hs.marked
  covered := by
    -- messages older than the flush are where they were
    intro i hi hlast
    have hi : i < h.flushed := hi
    have hold : ∀ j, j < h.flushed →
        (h.receive partition data).partition j = h.partition j := by
      intro j hj
      exact h.partition_receive partition data (Nat.lt_of_lt_of_le hj hs.flushed)
    refine hs.covered i hi ?_
    intro j hij hj
    rw [← hold j hj, ← hold i hi]
    exact hlast j hij hj

/-! ## The consumer keeps its history -/

/-- The step does not touch the checkpoint or the connection. -/
structure Keeps (s t : ConsumerState M) : Prop where
  connected : t.connected = s.connected
  retryScheduled : t.retryScheduled = s.retryScheduled
  checkpointMsg : t.checkpointMsg = s.checkpointMsg
  marked : t.marked = s.marked
  connecting : t.pc = .connecting → s.pc = .connecting

theorem Keeps.refl (s : ConsumerState M) : Keeps s s := ⟨rfl, rfl, rfl, rfl, id⟩

theorem Keeps.crashed (s : ConsumerState M) : Keeps s { s with pc := .crashed } := by
  refine ⟨rfl, rfl, rfl, rfl, ?_⟩
  intro hpc
  cases hpc

theorem keeps_goOn (s : ConsumerState M) (data : ConsumerMessage) (dMs : List M) (i : Nat) :
    Keeps s (goOn s data dMs i) := by
  unfold goOn
  split
  · refine ⟨rfl, rfl, rfl, rfl, ?_⟩
    intro hpc
    cases hpc
  · refine ⟨rfl, rfl, rfl, rfl, ?_⟩
    intro hpc
    cases hpc

theorem keeps_handleCtrlMsg {s next : ConsumerState M} (hk : Keeps s next) (id : MsgID) :
    Keeps s (handleCtrlMsg s id next) := by
  cases id with
  | shutdown =>
      refine ⟨rfl, rfl, rfl, rfl, ?_⟩
      intro hpc
      cases hpc
  | report => exact hk
  | ack => exact hk

/-- The steps that are not about the checkpoint or the connection. -/
def quiet : ConsumerLabel → Bool
  | .connect _ | .retry | .checkpointFlush | .consume _ => false
  | _ => true

theorem keeps_of_step {s t : ConsumerState M} {a : ConsumerLabel} (hq : quiet a = true)
    (h : consumerStep cfg codec s a = some t) : Keeps s t := by
  cases moves_of_step h with
  | drained _ _ => exact ⟨rfl, rfl, rfl, rfl, id⟩
  | ignored _ => exact .refl s
  | served _ => exact keeps_handleCtrlMsg (.refl s) _
  | @delivered receiver data dM rest i ch ch' _ _ _ =>
      have hk := keeps_goOn { s with dataChans := s.dataChans.set i ch' } data
        (dM :: rest) (i + 1)
      exact ⟨hk.connected, hk.retryScheduled, hk.checkpointMsg, hk.marked, hk.connecting⟩
  | deliverPanic _ _ _ => exact .crashed s
  | interrupted _ => exact keeps_handleCtrlMsg (keeps_goOn s _ _ _) _
  | _ => cases hq

/-- The invariant of the consumer with its history: messages come from a
    connection, and a connection once made is never left. -/
structure Inv (s : ConsumerState M × History) : Prop where
  tracks : Tracks s.1 s.2
  sound : s.2.Sound
  connecting : s.1.pc = .connecting → s.1.connected = false
  offline : s.1.connected = false → s.2.received = []
  online : s.1.connected = true → s.1.retryScheduled = false

variable {s : ConsumerState M × History}

/-- Nothing is pending without a connection. -/
theorem Inv.pending_offline (hi : Inv s) (hoff : s.1.connected = false) : s.2.pending = none := by
  rw [hi.sound.pending, hi.offline hoff]
  exact if_neg (Nat.not_lt_zero _)

theorem Inv.init (cfg : KafkaConsumerConfig) (decode : Encoding → Codec M) (caps : List Nat) :
    Inv (tracked cfg decode caps).init where
  tracks := ⟨rfl, rfl⟩
  sound := .empty
  connecting := fun _ => rfl
  offline := fun _ => rfl
  online := fun h => absurd h Bool.false_ne_true

theorem Inv.keeps (hi : Inv s) (hk : Keeps s.1 t) : Inv (t, s.2) where
  tracks := ⟨hk.checkpointMsg.trans hi.tracks.pending,
    (congrArg (List.map some) hk.marked).trans hi.tracks.marked⟩
  sound := hi.sound
  connecting := fun hpc => hk.connected.trans (hi.connecting (hk.connecting hpc))
  offline := fun hoff => hi.offline (hk.connected.symm.trans hoff)
  online := fun hon => hk.retryScheduled.trans (hi.online (hk.connected.symm.trans hon))

/-- A connection attempt; there was no connection before it. -/
theorem Inv.connect (hi : Inv s) {ok : Bool} (hpc : s.1.pc = .connecting) :
    Inv ({ s.1 with pc := .selecting, connected := ok, retryScheduled := !ok }, s.2) where
  tracks := ⟨hi.tracks.pending, hi.tracks.marked⟩
  sound := hi.sound
  connecting := by
    intro hsel
    cases hsel
  offline := fun _ => hi.offline (hi.connecting hpc)
  online := fun hon => by
    have hok : ok = true := hon
    rw [hok]
    rfl

/-- A restart comes before any message. -/
theorem Inv.restart (hi : Inv s) (hretry : s.1.retryScheduled = true) :
    Inv ({ s.1 with
      pc := .connecting, connected := false, retryScheduled := false
      checkpointMsg := none }, { s.2 with pending := none }) := by
  have hoff : s.1.connected = false := by
    cases hconn : s.1.connected with
    | false => rfl
    | true => exact absurd (hretry.symm.trans (hi.online hconn)) (by decide)
  have hsame : { s.2 with pending := none } = s.2 := by
    rw [← hi.pending_offline hoff]
  rw [hsame]
  exact {
    tracks := ⟨by rw [hi.pending_offline hoff]; rfl, hi.tracks.marked⟩
    sound := hi.sound
    connecting := fun _ => rfl
    offline := fun _ => hi.offline hoff
    online := fun _ => rfl }

/-- A message becomes the checkpoint. -/
theorem Inv.consume (hi : Inv s) (partition : Int) (data : ConsumerMessage) (stats : MsgStats)
    (hpc : s.1.pc = .selecting) (hconn : s.1.connected = true) :
    Inv ({ s.1 with checkpointMsg := some data, flushScheduled := true, stats := stats },
      s.2.receive partition data) where
  tracks := by
    refine ⟨?_, ?_⟩
    · show some data = ((s.2.received ++ [(partition, data)])[s.2.received.length]?).map Prod.snd
      rw [List.getElem?_concat_length]
      rfl
    · refine hi.tracks.marked.trans (List.map_congr_left ?_)
      intro i hmem
      refine (s.2.message_receive partition data ?_).symm
      exact Nat.lt_of_lt_of_le (hi.sound.marked i hmem) hi.sound.flushed
  sound := hi.sound.receive partition data
  connecting := fun hcon => absurd (hpc.symm.trans hcon) (by intro h; cases h)
  offline := fun hoff => absurd (hconn.symm.trans hoff) (by decide)
  online := hi.online

/-- A handled flush marks the checkpoint, if there is one; a checkpoint was
    received from a connection, so there is one to mark it with. -/
theorem flush_effect {s : ConsumerState M} (hconn : s.checkpointMsg ≠ none → s.connected = true)
    (h : consumerStep cfg codec s .checkpointFlush = some t) :
    t = { s with
      flushScheduled := false
      marked := s.marked ++ s.checkpointMsg.toList
      checkpointMsg := none } := by
  simp only [consumerStep] at h
  split at h
  · split at h
    · split at h
      · next hnone =>
          cases h
          rw [hnone, Option.toList_none, List.append_nil]
      · next data hdata =>
          rw [if_pos (hconn (by simp [hdata]))] at h
          cases h
          rw [hdata, Option.toList_some]
    · cases h
  · cases h

/-- A pending message is one of those received. -/
theorem History.Sound.message_pending {h : History} (hs : h.Sound) (hi : h.pending = some i) :
    ∃ data, h.message i = some data := by
  rw [hs.pending] at hi
  split at hi
  · next hnew =>
      cases hi
      have hlt : h.received.length - 1 < h.received.length := by omega
      refine ⟨h.received[h.received.length - 1].2, ?_⟩
      unfold History.message
      rw [List.getElem?_eq_getElem hlt]
      rfl
  · cases hi

/-- The consumer marks the message the history marks. -/
theorem Inv.map_pending (hi : Inv s) :
    s.1.checkpointMsg.toList.map some = s.2.pending.toList.map s.2.message := by
  rw [hi.tracks.pending]
  cases hpending : s.2.pending with
  | none => rfl
  | some i =>
      obtain ⟨data, hdata⟩ := hi.sound.message_pending hpending
      show (s.2.message i).toList.map some = [s.2.message i]
      rw [hdata]
      rfl

/-- What a handled flush does to the consumer and its history. -/
theorem Inv.flush_step (hi : Inv s) (h : consumerStep cfg codec s.1 .checkpointFlush = some t) :
    Tracks t s.2.flush ∧
      (s.2.SinglePartition → Inv (t, s.2.flush)) := by
  have hconn : s.1.checkpointMsg ≠ none → s.1.connected = true := by
    intro hsome
    by_contra hoff
    apply hsome
    rw [hi.tracks.pending, hi.pending_offline (Bool.eq_false_iff.mpr hoff)]
    rfl
  have ht := flush_effect hconn h
  subst ht
  have htracks : Tracks
      { s.1 with
        flushScheduled := false
        marked := s.1.marked ++ s.1.checkpointMsg.toList
        checkpointMsg := none } s.2.flush := by
    refine ⟨rfl, ?_⟩
    show (s.1.marked ++ s.1.checkpointMsg.toList).map some =
      (s.2.marked ++ s.2.pending.toList).map s.2.message
    rw [List.map_append, List.map_append, hi.tracks.marked, hi.map_pending]
  refine ⟨htracks, ?_⟩
  intro hsingle
  exact {
    tracks := htracks
    sound := hi.sound.flush hsingle
    connecting := hi.connecting
    offline := hi.offline
    online := hi.online }

/-- The admitted runs: a flush is handled only after messages of one
    partition. -/
def FlushesOnePartition (s : ConsumerState M × History) (a : Int × ConsumerLabel) : Prop :=
  a.2 = .checkpointFlush → s.2.SinglePartition

/-- **ONE STEP KEEPS THE HISTORY SOUND**. -/
theorem Inv.step {decode : Encoding → Codec M} {caps : List Nat} {t : ConsumerState M × History}
    {a : Int × ConsumerLabel} (hi : Inv s) (hsingle : FlushesOnePartition s a)
    (h : (tracked cfg decode caps).next s a = some t) : Inv t := by
  obtain ⟨partition, a⟩ := a
  obtain ⟨u, hu, rfl⟩ := Option.map_eq_some_iff.mp h
  have hu : consumerStep cfg (decode cfg.msgEncoding) s.1 a = some u := hu
  cases a with
  | connect ok =>
      simp only [consumerStep] at hu
      split at hu
      · next hpc =>
          cases hu
          exact hi.connect hpc
      · cases hu
  | retry =>
      simp only [consumerStep] at hu
      split at hu
      · split at hu
        · next hretry =>
            cases hu
            exact hi.restart hretry
        · cases hu
      · cases hu
  | checkpointFlush => exact (hi.flush_step hu).2 (hsingle rfl)
  | consume data =>
      simp only [consumerStep] at hu
      split at hu
      · next hpc =>
          split at hu
          · next hconn =>
              cases hu
              exact (hi.consume partition data _ hpc hconn).keeps (keeps_goOn _ _ _ _)
          · cases hu
      · cases hu
  | _ => exact hi.keeps (keeps_of_step rfl hu)

/-- **CHECKPOINTS COVER ONE PARTITION**: along every run whose flushes so far
    each ended a window of one partition, a further flush leaves the last
    message of every partition marked exactly if it too ends a window of one
    partition. -/
theorem checkpoint_covers_iff (cfg : KafkaConsumerConfig) (decode : Encoding → Codec M)
    (caps : List Nat) (s t : ConsumerState M × History) (partition : Int)
    (hreach : Reach (tracked cfg decode caps) FlushesOnePartition s)
    (hflush : (tracked cfg decode caps).next s (partition, .checkpointFlush) = some t) :
    Tracks t.1 t.2 ∧ (t.2.Covered ↔ s.2.SinglePartition) := by
  have hi : Inv s := hreach.invariant (.init cfg decode caps)
    (fun _ _ _ hs hsingle hstep => hs.step hsingle hstep)
  obtain ⟨u, hu, rfl⟩ := Option.map_eq_some_iff.mp hflush
  have hu : consumerStep cfg (decode cfg.msgEncoding) s.1 .checkpointFlush = some u := hu
  exact ⟨(hi.flush_step hu).1, hi.sound.covered_flush_iff⟩

/-- A run without flushes is admitted. -/
theorem flushesOnePartition_of_notMem {labels : List (Int × ConsumerLabel)}
    (hno : ∀ partition, (partition, .checkpointFlush) ∉ labels) :
    ∀ (s : ConsumerState M × History), ∀ a ∈ labels, FlushesOnePartition s a := by
  rintro s ⟨partition, a⟩ ha hflush
  have hflush : a = .checkpointFlush := hflush
  rw [hflush] at ha
  exact absurd ha (hno partition)

/-- A window of at most one message is of one partition. -/
theorem History.singlePartition_of_le {h : History}
    (hle : h.received.length ≤ h.flushed + 1) : h.SinglePartition := by
  intro i j hi hilt hj hjlt
  rw [show i = j by omega]

/-- A message of this partition arrives and is delivered. -/
def arrival (partition : Int) (data : ConsumerMessage) : List (Int × ConsumerLabel) :=
  [(partition, .consume data), (partition, .deliver false)]

/-- Two partitions, with a flush after the message of each. -/
theorem checkpoint_covers_alternating :
    ∃ s t, exec (tracked sampleConfig wholeBlocks [4])
        (tracked sampleConfig wholeBlocks [4]).init
        ((0, .connect true) :: arrival 0 ⟨"r1", [1]⟩ ++
          (0, .checkpointFlush) :: arrival 1 ⟨"r2", [2]⟩) = some s ∧
      (tracked sampleConfig wholeBlocks [4]).next s (0, .checkpointFlush) = some t ∧
      t.2.marked = [0, 1] ∧ t.2.Covered := by
  have hfirst := reach_exec (S := tracked sampleConfig wholeBlocks [4])
    ((0, .connect true) :: arrival 0 ⟨"r1", [1]⟩)
    (flushesOnePartition_of_notMem (by simp [arrival])) .init rfl
  have hflushed := hfirst.next (a := (0, .checkpointFlush))
    (fun _ => History.singlePartition_of_le (by decide)) rfl
  have hsecond := reach_exec (arrival 1 ⟨"r2", [2]⟩)
    (flushesOnePartition_of_notMem (by simp [arrival])) hflushed rfl
  refine ⟨_, _, rfl, rfl, rfl, ?_⟩
  exact (checkpoint_covers_iff sampleConfig wholeBlocks [4] _ _ 0 hsecond rfl).2.mpr
    (History.singlePartition_of_le (by decide))

/-- The same two messages within one window: the flush marks the second and
    forgets the first, the last message of its partition. -/
theorem checkpoint_misses_partition :
    ∃ s t, exec (tracked sampleConfig wholeBlocks [4])
        (tracked sampleConfig wholeBlocks [4]).init
        ((0, .connect true) :: arrival 0 ⟨"r1", [1]⟩ ++ arrival 1 ⟨"r2", [2]⟩) = some s ∧
      (tracked sampleConfig wholeBlocks [4]).next s (0, .checkpointFlush) = some t ∧
      t.1.marked = [⟨"r2", [2]⟩] ∧ ¬ t.2.Covered := by
  refine ⟨_, _, rfl, rfl, rfl, ?_⟩
  intro hcovered
  refine absurd (hcovered 0 (by decide) ?_) (by decide)
  intro j hj hlt
  have hlt : j < 2 := hlt
  rw [show j = 1 by omega]
  decide

end PipelineKafkaCheckpoint
