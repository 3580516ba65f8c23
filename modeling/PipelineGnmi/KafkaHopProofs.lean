import PipelineGnmi.KafkaConsumerProofs
import PipelineGnmi.OutputDrainProofs

/-! # From one pipeline to the next through Kafka

    A Kafka output of one pipeline posts to a topic that a Kafka input of another
    one reads (`xport_kafka.go`).  The two share the topic and nothing else: the
    input comes to the records in the order the broker chooses, and after a new
    connection it may come to some of them again.

    A record has the octets of the message and a key, and no more.  So a message
    arrives as it was sent but for its producer, which is what the input makes of
    the key (`arrived`); `hop_delivers` says so for the runs of the two in which no
    control request comes in between (`Steady`), and `arrived_eq_iff` which messages
    arrive unchanged. -/

namespace PipelineKafkaHop

open GoChan Sweep Transition PipelineMessage PipelineDataMsg PipelineReplay PipelineKafkaKey
open PipelineKafkaConsumer hiding MsgStats
open PipelineOutputDrain

/-! ## The two ends -/

/-- The output with the messages whose records were posted, and the input with the
    positions in the topic of the records it has read. -/
structure Hop where
  output : KafkaOutput
  shipped : List DataMsg
  input : ConsumerState DataMsg
  read : List Nat

inductive HopLabel where
  | output (l : KafkaLabel)
  | read (k : Nat)
  | input (l : ConsumerLabel)

/-- The message whose record the broker takes in this step. -/
def shippedBy (s : KafkaOutput) : KafkaLabel → List DataMsg
  | .sent true =>
      match s.pc with
      | .sending msg _ => [msg]
      | _ => []
  | _ => []

/-- A record as the input has it from the broker. -/
def delivery (record : ProducerMessage) : ConsumerMessage := ⟨record.key, record.value⟩

section Model

variable (render : Renderers) (cfg : KafkaProducerConfig) (ccfg : KafkaConsumerConfig)
  (decode : Encoding → Codec DataMsg) (topic : String)

/-- One step of either end.  The input is given records of its topic, in any order and
    any number of times. -/
def hopStep (s : Hop) : HopLabel → Option Hop
  | .output l =>
      (kafkaStep render cfg s.output l).map
        (fun output => { s with output := output, shipped := s.shipped ++ shippedBy s.output l })
  | .read k =>
      match s.output.posted[k]? with
      | none => none
      | some record =>
          if record.topic = topic then
            (consumerStep ccfg (decode ccfg.msgEncoding) s.input (.consume (delivery record))).map
              (fun input => { s with input := input, read := s.read ++ [k] })
          else none
  | .input (.consume _) => none
  | .input l =>
      (consumerStep ccfg (decode ccfg.msgEncoding) s.input l).map
        (fun input => { s with input := input })

def hop (cap : Nat) (caps : List Nat) : System Hop HopLabel where
  init := ⟨(kafkaOutput render cfg cap).init, [], (consumer ccfg decode caps).init, []⟩
  next := hopStep render cfg ccfg decode topic

/-- No control request takes the place of a send at the input. -/
def Steady (s : Hop) : HopLabel → Prop
  | .input l => Uninterrupted s.input l
  | _ => True

/-- What a step comes to. -/
inductive HopMove (s : Hop) : HopLabel → Hop → Prop where
  | output {l : KafkaLabel} {output : KafkaOutput}
      (hs : kafkaStep render cfg s.output l = some output) :
      HopMove s (.output l) { s with
        output := output, shipped := s.shipped ++ shippedBy s.output l }
  | read {k : Nat} {record : ProducerMessage} {input : ConsumerState DataMsg}
      (hk : s.output.posted[k]? = some record)
      (hs : consumerStep ccfg (decode ccfg.msgEncoding) s.input (.consume (delivery record))
        = some input) : HopMove s (.read k) { s with input := input, read := s.read ++ [k] }
  | input {l : ConsumerLabel} {input : ConsumerState DataMsg} (hl : ∀ data, l ≠ .consume data)
      (hs : consumerStep ccfg (decode ccfg.msgEncoding) s.input l = some input) :
      HopMove s (.input l) { s with input := input }

variable {render cfg ccfg decode topic}

theorem hopMove_of_step {s t : Hop} {l : HopLabel}
    (h : hopStep render cfg ccfg decode topic s l = some t) :
    HopMove render cfg ccfg decode s l t := by
  unfold hopStep at h
  split at h
  · obtain ⟨output, hs, rfl⟩ := Option.map_eq_some_iff.mp h
    exact .output hs
  · split at h
    · cases h
    · next record hk =>
        split at h
        · obtain ⟨input, hs, rfl⟩ := Option.map_eq_some_iff.mp h
          exact .read hk hs
        · cases h
  · cases h
  · next l hl =>
      obtain ⟨input, hs, rfl⟩ := Option.map_eq_some_iff.mp h
      exact .input hl hs

/-! ## What was shipped -/

variable (render cfg) in
/-- The records in the topic are those of the messages shipped, and these are messages
    the output is through with, in order. -/
structure Shipped (output : KafkaOutput) (shipped : List DataMsg) : Prop where
  records : List.Forall₂ (fun m record => dataMsgToKafkaMessage render cfg m = .ok (some record))
    shipped output.posted
  sending : ∀ m record, output.pc = .sending m record →
    dataMsgToKafkaMessage render cfg m = .ok (some record)
  done : shipped.Sublist output.done

section Shipping

variable {output output' : KafkaOutput} {shipped : List DataMsg}

/-- A step that posts nothing and sends nothing. -/
theorem Shipped.keep (h : Shipped render cfg output shipped)
    (hposted : output'.posted = output.posted) (hdone : output'.done = output.done)
    (hpc : output'.pc = output.pc ∨ ∀ m record, output'.pc ≠ .sending m record) :
    Shipped render cfg output' shipped := by
  refine ⟨hposted ▸ h.records, fun m record hsending => ?_, hdone ▸ h.done⟩
  rcases hpc with hpc | hpc
  · exact h.sending m record (hpc.symm.trans hsending)
  · exact absurd hsending (hpc m record)

theorem Shipped.feed (h : Shipped render cfg output shipped) (b : Drain.Inbox DataMsg)
    (msg : DataMsg) :
    Shipped render cfg (feed render cfg { output with inbox := b } msg) shipped := by
  unfold PipelineOutputDrain.feed
  split
  · exact ⟨h.records, h.sending, h.done.trans (List.sublist_append_left ..)⟩
  · exact h.keep rfl rfl (Or.inr fun m record hno => (by cases hno))
  · exact ⟨h.records, h.sending, h.done.trans (List.sublist_append_left ..)⟩
  · next kafkamsg hmsg =>
      refine ⟨h.records, fun m record hsending => ?_, h.done⟩
      cases hsending
      exact hmsg

/-- **ONE STEP OF THE OUTPUT** ships the message whose record it posts. -/
theorem Shipped.step {l : KafkaLabel} (h : Shipped render cfg output shipped)
    (hs : kafkaStep render cfg output l = some output') :
    Shipped render cfg output' (shipped ++ shippedBy output l) := by
  have hkeep : ∀ {out : KafkaOutput}, Shipped render cfg out shipped →
      Shipped render cfg out (shipped ++ []) := fun h => by rwa [List.append_nil]
  cases kafkaStep_move hs with
  | produce => exact hkeep (h.keep rfl rfl (Or.inl rfl))
  | request => exact hkeep (h.keep rfl rfl (Or.inl rfl))
  | handIn => exact hkeep (h.feed _ _)
  | connected => exact hkeep (h.keep rfl rfl (Or.inr fun m record hno => (by cases hno)))
  | refused => exact hkeep (h.keep rfl rfl (Or.inr fun m record hno => (by cases hno)))
  | retry => exact hkeep (h.keep rfl rfl (Or.inr fun m record hno => (by cases hno)))
  | take => exact hkeep (h.feed _ _)
  | sentOk hpc =>
      simp only [shippedBy, hpc]
      refine ⟨?_, fun m record hno => (by cases hno), h.done.append (List.Sublist.refl _)⟩
      exact List.rel_append h.records (.cons (h.sending _ _ hpc) .nil)
  | sentFailed =>
      refine hkeep ⟨h.records, fun m record hno => (by cases hno), ?_⟩
      exact h.done.trans (List.sublist_append_left ..)
  | reportIdle => exact hkeep h
  | reportRetrying => exact hkeep (h.keep rfl rfl (Or.inr fun m record hno => (by cases hno)))
  | shutdown => exact hkeep (h.keep rfl rfl (Or.inr fun m record hno => (by cases hno)))

/-- The topic only grows. -/
theorem posted_prefix {l : KafkaLabel} (hs : kafkaStep render cfg output l = some output') :
    output.posted <+: output'.posted := by
  have hfeed : ∀ (out : KafkaOutput) msg, (feed render cfg out msg).posted = out.posted := by
    intro out msg
    unfold PipelineOutputDrain.feed
    split <;> rfl
  cases kafkaStep_move hs with
  | handIn =>
      rw [hfeed]
  | take =>
      rw [hfeed]
  | sentOk => exact List.prefix_append ..
  | _ => exact List.prefix_rfl

end Shipping

/-! ## What was read -/

/-- The record that is being delivered. -/
def current : Pc DataMsg → List ConsumerMessage
  | .delivering data _ _ => [data]
  | _ => []

/-- What the input has read since it was started. -/
def received (input : ConsumerState DataMsg) : List ConsumerMessage :=
  input.handled ++ current input.pc

theorem received_goOn (input : ConsumerState DataMsg) (data : ConsumerMessage)
    (dMs : List DataMsg) (i : Nat) :
    received (goOn input data dMs i) = input.handled ++ [data] := by
  unfold goOn
  split
  · exact List.append_nil _
  · rfl

section Reading

variable {input input' : ConsumerState DataMsg} {codec : Codec DataMsg}

/-- The input reads the record it is given. -/
theorem received_consume {data : ConsumerMessage}
    (hs : consumerStep ccfg codec input (.consume data) = some input') :
    input'.shutdownAccepted = input.shutdownAccepted ∧
      received input' = received input ++ [data] := by
  simp only [consumerStep] at hs
  split at hs
  · next hpc =>
      split at hs
      · cases hs
        refine ⟨goOn_shutdownAccepted .., ?_⟩
        rw [received_goOn, received, hpc]
        show input.handled ++ [data] = input.handled ++ [] ++ [data]
        rw [List.append_nil]
      · cases hs
  · cases hs

/-- A step that leaves the place of the input outside the delivery. -/
theorem received_idle (hpc : current input.pc = []) (hpc' : current input'.pc = [])
    (hhandled : input'.handled = input.handled) : received input' = received input := by
  rw [received, received, hpc, hpc', hhandled]

/-- **NO OTHER STEP READS**. -/
theorem received_step {l : ConsumerLabel} (hl : ∀ data, l ≠ .consume data)
    (hinv : ConsumerInv (blocks ccfg codec) input) (hu : Uninterrupted input l)
    (hs : consumerStep ccfg codec input l = some input') (hno : input'.shutdownAccepted = false) :
    input.shutdownAccepted = false ∧ received input' = received input := by
  cases moves_of_step hs with
  | drained => exact ⟨hno, rfl⟩
  | connected hpc => exact ⟨hno, received_idle (by rw [hpc]; rfl) rfl rfl⟩
  | ignored => exact ⟨hno, rfl⟩
  | restarted hpc => exact ⟨hno, received_idle (by rw [hpc]; rfl) rfl rfl⟩
  | flushedNone => exact ⟨hno, rfl⟩
  | flushed => exact ⟨hno, rfl⟩
  | flushPanic hpc => exact ⟨hno, received_idle (by rw [hpc]; rfl) rfl rfl⟩
  | consumed => exact absurd rfl (hl _)
  | @served id hpc =>
      cases id with
      | shutdown => cases hno
      | report => exact ⟨hno, rfl⟩
      | ack => exact ⟨hno, rfl⟩
  | delivered hpc =>
      rw [goOn_shutdownAccepted] at hno
      refine ⟨hno, ?_⟩
      rw [received_goOn, received, hpc]
      rfl
  | @deliverPanic receiver _ dM _ _ _ hpc hch hsend =>
      -- the channels are open, so the send cannot panic
      exact absurd hsend (((hinv hno).delivering hpc).send_ne_panic hch dM receiver)
  | @interrupted id =>
      have hid : id = .shutdown := hu id rfl
      rw [hid] at hno
      cases hno

end Reading

/-! ## The hop -/

/-- The record at a position of the topic, as the input has it. -/
def recordAt (posted : List ProducerMessage) (k : Nat) : Option ConsumerMessage :=
  (posted[k]?).map delivery

variable (render cfg ccfg decode) in
/-- What was shipped and what was read, in every reachable state. -/
structure HopInv (s : Hop) : Prop where
  shipped : Shipped render cfg s.output s.shipped
  delivers : ConsumerInv (blocks ccfg (decode ccfg.msgEncoding)) s.input
  read : s.input.shutdownAccepted = false →
    (received s.input).map some = s.read.map (recordAt s.output.posted)
  bounded : ∀ k ∈ s.read, k < s.output.posted.length

theorem HopInv.step {s t : Hop} {l : HopLabel} (h : HopInv render cfg ccfg decode s)
    (hl : Steady s l) (hs : hopStep render cfg ccfg decode topic s l = some t) :
    HopInv render cfg ccfg decode t := by
  cases hopMove_of_step hs with
  | output hout =>
      obtain ⟨more, hmore⟩ := posted_prefix hout
      refine ⟨h.shipped.step hout, h.delivers, fun hno => ?_, fun k hk => ?_⟩
      · rw [h.read hno]
        refine List.map_congr_left fun k hk => ?_
        rw [recordAt, recordAt, ← hmore, List.getElem?_append_left (h.bounded k hk)]
      · show k < List.length _
        rw [← hmore, List.length_append]
        exact Nat.lt_add_right _ (h.bounded k hk)
  | read hk hin =>
      obtain ⟨hshut, hreceived⟩ := received_consume hin
      refine ⟨h.shipped, inv_step hin (fun id hno => (by cases hno)) h.delivers, fun hno => ?_, ?_⟩
      · show (received _).map some = (s.read ++ [_]).map (recordAt s.output.posted)
        rw [hreceived, List.map_append, List.map_append, h.read (hshut.symm.trans hno),
          List.map_singleton, List.map_singleton, recordAt, hk, Option.map_some]
      · intro j hj
        rcases List.mem_append.mp hj with hj | hj
        · exact h.bounded j hj
        · rw [List.mem_singleton.mp hj]
          exact (List.getElem?_eq_some_iff.mp hk).1
  | input hne hin =>
      refine ⟨h.shipped, inv_step hin hl h.delivers, fun hno => ?_, h.bounded⟩
      obtain ⟨hno, hreceived⟩ := received_step hne h.delivers hl hin hno
      show (received _).map some = _
      rw [hreceived]
      exact h.read hno

variable {cap : Nat} {caps : List Nat} {s : Hop}

theorem hopInv_of_reach (h : Reach (hop render cfg ccfg decode topic cap caps) Steady s) :
    HopInv render cfg ccfg decode s := by
  refine h.invariant ?_ (fun _ _ _ hi hl hs => hi.step hl hs)
  refine ⟨⟨.nil, fun m record hno => (by cases hno), .slnil⟩, fun _ => ?_, fun _ => ?_, ?_⟩
  · have hmade := swept_start (allCarry_make (M := DataMsg) caps) []
    simp only [Progress, hop, consumer]
    split <;> exact hmade
  · simp only [hop, consumer, received]
    split <;> rfl
  · exact fun k hk => absurd hk List.not_mem_nil

end Model

/-! ## What arrives -/

/-- The message with another producer. -/
def withSource (source : MsgProducer) : DataMsg → DataMsg
  | .gpb m => .gpb { m with source := source }
  | .json m => .json { m with source := source }
  | .gnmi m => .gnmi { m with source := source }

variable (name : String) (spec : KafkaKeySpec) (m : DataMsg)

/-- The producer that an input of this name makes of the key of a message. -/
def arrivesFrom (name : String) (spec : KafkaKeySpec) (m : DataMsg) : MsgProducer :=
  match kafkaKey spec m with
  | some key => extractKafkaProducer name spec key
  | none => name

/-- A message as it arrives. -/
def arrived (name : String) (spec : KafkaKeySpec) (m : DataMsg) : DataMsg :=
  withSource (arrivesFrom name spec m) m

/-- What arrives for the record at a position of the topic. -/
def arrival (name : String) (spec : KafkaKeySpec) (shipped : List DataMsg) (k : Nat) :
    Option DataMsg := (shipped[k]?).map (arrived name spec)

/-- The two ends are set up for each other: for the same keys, and with the output
    passing on what it has in the encoding of the input. -/
structure Ends (cfg : KafkaProducerConfig) (ccfg : KafkaConsumerConfig) : Prop where
  keySpec : ccfg.keySpec = cfg.keySpec
  stream : cfg.streamSpec.streamType = .msgDefault ∨
    (ccfg.msgEncoding = .json ∧ cfg.streamSpec.streamType = .json) ∨
    (ccfg.msgEncoding = .gpb ∧ cfg.streamSpec.streamType = .gpb)

/-- The message is of the kind that the codec of the encoding makes. -/
def Native : Encoding → DataMsg → Prop
  | .json, .json _ => True
  | .gpb, .gpb _ => True
  | _, _ => False

/-- The input finds the producer in the key. -/
def Identified (name : String) (spec : KafkaKeySpec) (m : DataMsg) : Prop :=
  name = m.getMetaDataIdentifier ∨ (spec = .id ∧ m.getMetaDataIdentifier ≠ "") ∨
    (spec = .idAndPath ∧ ∃ path, keyPath m = some path ∧ ':' ∉ path.toList ∧
      ':' ∉ m.getMetaDataIdentifier.toList)

theorem withSource_eq_iff {source : MsgProducer} {m : DataMsg} :
    withSource source m = m ↔ source = m.getMetaDataIdentifier := by
  cases m with
  | gpb m => exact ⟨fun h => congrArg DataMsg.getMetaDataIdentifier h, fun h => by rw [h]; rfl⟩
  | json m => exact ⟨fun h => congrArg DataMsg.getMetaDataIdentifier h, fun h => by rw [h]; rfl⟩
  | gnmi m => exact ⟨fun h => congrArg DataMsg.getMetaDataIdentifier h, fun h => by rw [h]; rfl⟩

/-- **A MESSAGE ARRIVES UNCHANGED EXACTLY IF ITS PRODUCER IS FOUND** in its key. -/
theorem arrived_eq_iff {m : DataMsg} (hkey : kafkaKey spec m ≠ none) :
    arrived name spec m = m ↔ Identified name spec m := by
  rw [arrived, withSource_eq_iff, Identified]
  obtain ⟨key, hkey⟩ := Option.ne_none_iff_exists'.mp hkey
  rw [arrivesFrom, hkey]
  cases spec with
  | none =>
      have hname : extractKafkaProducer name .none key = name := by
        unfold extractKafkaProducer
        split <;> rfl
      simp [hname]
  | id =>
      cases hkey
      by_cases hid : m.getMetaDataIdentifier = ""
      · simp [extractKafkaProducer, hid]
      · simp [extractKafkaProducer, hid]
  | idAndPath =>
      obtain ⟨path, hpath, rfl⟩ := Option.map_eq_some_iff.mp hkey
      simp only
      rw [extract_pathKey, hpath]
      split
      · next hclean => simp [hclean]
      · next hclean => simpa using fun h1 h2 => absurd ⟨h1, h2⟩ hclean

section Arrival

variable {render : Renderers} {cfg : KafkaProducerConfig} {ccfg : KafkaConsumerConfig}
  {lib : ProtoLib} {xlation : String → Option String} {m : DataMsg} {record : ProducerMessage}

theorem native_cases {e : Encoding} (h : Native e m) :
    (e = .json ∧ ∃ j, m = .json j) ∨ (e = .gpb ∧ ∃ g, m = .gpb g) := by
  unfold Native at h
  split at h
  · exact Or.inl ⟨rfl, _, rfl⟩
  · exact Or.inr ⟨rfl, _, rfl⟩
  · exact h.elim

/-- The output passes the octets on. -/
theorem produceByteStream_native (hends : Ends cfg ccfg) (hm : Native ccfg.msgEncoding m) :
    produceByteStream render cfg.streamSpec m = .ok (some m.original) := by
  rcases native_cases hm with ⟨he, j, rfl⟩ | ⟨he, g, rfl⟩
  · rcases hends.stream with ht | ⟨-, ht⟩ | ⟨hno, -⟩
    · simp only [produceByteStream, ht, DataMsg.original]
    · simp only [produceByteStream, ht, DataMsg.original]
    · cases he.symm.trans hno
  · rcases hends.stream with ht | ⟨hno, -⟩ | ⟨-, ht⟩
    · simp only [produceByteStream, ht, DataMsg.original]
    · cases he.symm.trans hno
    · simp only [produceByteStream, ht, DataMsg.original]

theorem value_of_native (hends : Ends cfg ccfg) (hm : Native ccfg.msgEncoding m)
    (h : dataMsgToKafkaMessage render cfg m = .ok (some record)) : record.value = m.original := by
  unfold dataMsgToKafkaMessage at h
  rw [produceByteStream_native hends hm] at h
  split at h
  · cases h
  · simp only at h
    split at h
    · cases h
    · cases h
      rfl

/-- **THE INPUT MAKES THE MESSAGE OF ITS RECORD**, but for the producer. -/
theorem blocks_native (hinv : lib.Inverts) (hends : Ends cfg ccfg)
    (hmade : ProducedByCodec lib xlation m) (hm : Native ccfg.msgEncoding m)
    (h : dataMsgToKafkaMessage render cfg m = .ok (some record)) :
    blocks ccfg (blockToDataMsgs lib xlation ccfg.msgEncoding) (delivery record)
      = [arrived ccfg.name cfg.keySpec m] := by
  rw [blocks, delivery, value_of_native hends hm h, hends.keySpec, arrived, arrivesFrom,
    key_of_built h]
  rcases native_cases hm with ⟨he, j, rfl⟩ | ⟨he, g, rfl⟩
  · rw [he]
    rfl
  · rcases produced_cases hinv hmade with ⟨b, src, hno⟩ | ⟨b, src, t, hg, hdecode⟩
    · cases hno
    · cases hg
      rw [he]
      simp only [blockToDataMsgs, codecGPBBlockToDataMsgs, DataMsg.original, hdecode]
      rfl

variable {posted : List ProducerMessage} {shipped : List DataMsg}

/-- Each record in the topic is made the message it was made of. -/
theorem blocks_recordAt (hinv : lib.Inverts) (hends : Ends cfg ccfg) (hrecords : List.Forall₂
      (fun m record => dataMsgToKafkaMessage render cfg m = .ok (some record)) shipped posted)
    (hnative : ∀ m ∈ shipped, ProducedByCodec lib xlation m ∧ Native ccfg.msgEncoding m)
    {k : Nat} {data : ConsumerMessage} (hk : recordAt posted k = some data) :
    ∃ m, arrival ccfg.name cfg.keySpec shipped k = some m ∧
      blocks ccfg (blockToDataMsgs lib xlation ccfg.msgEncoding) data = [m] := by
  obtain ⟨record, hrecord, rfl⟩ := Option.map_eq_some_iff.mp hk
  obtain ⟨hlen, hall⟩ := List.forall₂_iff_get.mp hrecords
  obtain ⟨hlt, rfl⟩ := List.getElem?_eq_some_iff.mp hrecord
  have hlt' : k < shipped.length := hlen ▸ hlt
  obtain ⟨hmade, hm⟩ := hnative shipped[k] (List.getElem_mem hlt')
  refine ⟨_, ?_, blocks_native hinv hends hmade hm (hall k hlt' hlt)⟩
  rw [arrival, List.getElem?_eq_getElem hlt']
  rfl

/-- And so for all that was read. -/
theorem blocks_read (hinv : lib.Inverts) (hends : Ends cfg ccfg) (hrecords : List.Forall₂
      (fun m record => dataMsgToKafkaMessage render cfg m = .ok (some record)) shipped posted)
    (hnative : ∀ m ∈ shipped, ProducedByCodec lib xlation m ∧ Native ccfg.msgEncoding m)
    {read : List Nat} {handled : List ConsumerMessage}
    (h : handled.map some = read.map (recordAt posted)) :
    (handled.flatMap (blocks ccfg (blockToDataMsgs lib xlation ccfg.msgEncoding))).map some
      = read.map (arrival ccfg.name cfg.keySpec shipped) := by
  induction handled generalizing read with
  | nil =>
      rw [List.map_nil, eq_comm, List.map_eq_nil_iff] at h
      rw [h]
      rfl
  | cons data rest ih =>
      obtain ⟨k, more, rfl, hk, hrest⟩ := List.map_eq_cons_iff.mp h.symm
      obtain ⟨m, hm, hblocks⟩ := blocks_recordAt hinv hends hrecords hnative hk
      rw [List.flatMap_cons, hblocks, List.map_append, ih hrest.symm, List.map_singleton,
        List.map_cons, hm]
      rfl

theorem current_cases (pc : Pc DataMsg) : current pc = [] ∨ ∃ data, current pc = [data] := by
  cases pc with
  | delivering data dMs i => exact Or.inr ⟨data, rfl⟩
  | _ => exact Or.inl rfl

theorem inProgress_eq (blocksOf : ConsumerMessage → List DataMsg) (pc : Pc DataMsg) :
    inProgress blocksOf pc = (current pc).flatMap blocksOf := by
  cases pc with
  | delivering data dMs i => exact (List.flatMap_singleton _ _).symm
  | _ => rfl

end Arrival

section Headline

variable {render : Renderers} {cfg : KafkaProducerConfig} {ccfg : KafkaConsumerConfig}
  {lib : ProtoLib} {xlation : String → Option String} {topic : String} {cap : Nat}
  {caps : List Nat} {s : Hop}

/-- What a data channel behind the input carried: a message for each record that was
    read, the one that is being delivered perhaps not yet. -/
theorem HopInv.log (h : HopInv render cfg ccfg (blockToDataMsgs lib xlation) s)
    (hinv : lib.Inverts) (hends : Ends cfg ccfg) (hno : s.input.shutdownAccepted = false)
    (hnative : ∀ m ∈ s.shipped, ProducedByCodec lib xlation m ∧ Native ccfg.msgEncoding m)
    {ch : Chan DataMsg} (hch : ch ∈ s.input.dataChans) :
    ∃ done, (s.read = done ∨ current s.input.pc ≠ [] ∧ ∃ k, s.read = done ++ [k]) ∧
      ch.log = done.map (arrival ccfg.name cfg.keySpec s.shipped) := by
  obtain ⟨part, hpart, hcarries⟩ := (h.delivers hno).carries hch
  have hlog : ch.log = (s.input.handled.flatMap _ ++ part).map some ++ [] := hcarries
  rw [List.append_nil, List.map_append] at hlog
  rw [inProgress_eq] at hpart
  have hread := h.read hno
  rw [received, List.map_append] at hread
  rcases current_cases s.input.pc with hidle | ⟨data, hdata⟩
  · rw [hidle, List.map_nil, List.append_nil] at hread
    rw [hidle, List.flatMap_nil, List.prefix_nil] at hpart
    refine ⟨s.read, Or.inl rfl, ?_⟩
    rw [hlog, hpart, blocks_read hinv hends h.shipped.records hnative hread, List.map_nil,
      List.append_nil]
  · rw [hdata, List.map_singleton] at hread
    rw [hdata, List.flatMap_singleton] at hpart
    obtain ⟨done, last, hsplit, hdone, hlast⟩ := List.map_eq_append_iff.mp hread.symm
    obtain ⟨k, rfl, hk⟩ := List.map_eq_singleton_iff.mp hlast
    obtain ⟨m, hm, hone⟩ := blocks_recordAt hinv hends h.shipped.records hnative hk
    rw [hone] at hpart
    rw [blocks_read hinv hends h.shipped.records hnative hdone.symm] at hlog
    rcases List.prefix_cons_iff.mp hpart with rfl | ⟨t, rfl, ht⟩
    · refine ⟨done, Or.inr ⟨?_, k, hsplit⟩, ?_⟩
      · rw [hdata]
        exact List.cons_ne_nil _ _
      · rw [hlog, List.map_nil, List.append_nil]
    · refine ⟨s.read, Or.inl rfl, ?_⟩
      rw [hlog, hsplit, List.prefix_nil.mp ht, List.map_append, List.map_singleton,
        List.map_singleton, hm]

/-- **A HOP THROUGH KAFKA KEEPS WHAT THE MESSAGES SAY**: in runs in which no control
    request takes the place of a send, until SHUTDOWN is accepted, and with one path
    translation at both ends.  However the ends interleave then, and in whatever order
    the records are read, every data channel behind the input carries for each record
    the message it was made of, but for the producer; and that too exactly if the
    producer is found in the key. -/
theorem hop_delivers (hinv : lib.Inverts) (hends : Ends cfg ccfg)
    (h : Reach (hop render cfg ccfg (blockToDataMsgs lib xlation) topic cap caps) Steady s)
    (hno : s.input.shutdownAccepted = false)
    (hnative : ∀ m ∈ s.shipped, ProducedByCodec lib xlation m ∧ Native ccfg.msgEncoding m) :
    s.shipped.Sublist s.output.done ∧ (∀ k ∈ s.read, k < s.shipped.length) ∧
      (∀ ch ∈ s.input.dataChans, ∃ done,
        (s.read = done ∨ current s.input.pc ≠ [] ∧ ∃ k, s.read = done ++ [k]) ∧
        ch.log = done.map (arrival ccfg.name cfg.keySpec s.shipped)) ∧
      ∀ m ∈ s.shipped, arrived ccfg.name cfg.keySpec m = m ↔
        Identified ccfg.name cfg.keySpec m := by
  have hi := hopInv_of_reach h
  refine ⟨hi.shipped.done, fun k hk => ?_, fun ch hch => hi.log hinv hends hno hnative hch, ?_⟩
  · rw [hi.shipped.records.length_eq]
    exact hi.bounded k hk
  · intro m hm
    refine arrived_eq_iff _ _ ?_
    rcases native_cases (hnative m hm).2 with ⟨-, j, rfl⟩ | ⟨-, g, rfl⟩
    · cases cfg.keySpec <;> exact Option.some_ne_none _
    · cases cfg.keySpec <;> exact Option.some_ne_none _

end Headline

/-- The two ends of a topic of GPB messages keyed by their producers. -/
def outKafka : KafkaProducerConfig := ⟨fun _ => "telemetry", .id, dataMsgStreamSpecDefault⟩

def inKafka : KafkaConsumerConfig := ⟨"inkafka", .id, .gpb, false⟩

def routerMsg : DataMsg := .gpb ⟨routerGpb, "router", { sampleTelemetry with encodingPath := "b" }⟩

/-- A message is posted, and its record read twice. -/
def twiceRead : List HopLabel :=
  [.output (.produce routerMsg), .output (.connect true), .output .take, .output (.sent true),
    .input (.connect true), .read 0, .input (.deliver false), .read 0, .input (.deliver false)]

def sampleHop : System Hop HopLabel :=
  hop sampleRender outKafka inKafka (blockToDataMsgs sampleLib sampleXlation) "telemetry" 1 [4]

theorem hop_delivers_twice :
    ∃ s, exec sampleHop sampleHop.init twiceRead = some s ∧ s.read = [0, 0] ∧
      s.shipped = [routerMsg] ∧ s.input.dataChans.length = 1 ∧
      ∀ ch ∈ s.input.dataChans, ch.log = [some routerMsg, some routerMsg] := by
  obtain ⟨s, hs, hread, hshipped, hpc, hno, hlen⟩ : ∃ s, exec sampleHop sampleHop.init twiceRead
      = some s ∧ s.read = [0, 0] ∧ s.shipped = [routerMsg] ∧ current s.input.pc = [] ∧
      s.input.shutdownAccepted = false ∧ s.input.dataChans.length = 1 :=
    ⟨_, rfl, rfl, rfl, rfl, rfl, rfl⟩
  have hsteady : ∀ u, ∀ l ∈ twiceRead, Steady u l := by
    intro u l hl
    simp only [twiceRead, List.mem_cons, List.not_mem_nil, or_false] at hl
    rcases hl with rfl | rfl | rfl | rfl | rfl | rfl | rfl | rfl | rfl
    all_goals first | trivial | exact fun id hno => (by cases hno)
  have hnative : ∀ m ∈ s.shipped, ProducedByCodec sampleLib sampleXlation m ∧
      Native inKafka.msgEncoding m := by
    intro m hm
    rw [hshipped] at hm
    rw [List.mem_singleton.mp hm]
    exact ⟨(sampleMsgs_produced routerMsg (List.mem_cons_self ..)).1, trivial⟩
  obtain ⟨-, -, hlog, -⟩ := hop_delivers sampleLib_inverts ⟨rfl, Or.inl rfl⟩
    (reach_exec twiceRead hsteady .init hs) hno hnative
  refine ⟨s, hs, hread, hshipped, hlen, fun ch hch => ?_⟩
  obtain ⟨done, hdone | ⟨hbusy, -⟩, hch⟩ := hlog ch hch
  · rw [hch, ← hdone, hread, hshipped]
    rfl
  · exact absurd hpc hbusy

end PipelineKafkaHop
