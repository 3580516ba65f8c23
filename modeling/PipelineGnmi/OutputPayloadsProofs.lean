import Mathlib.Data.List.TakeWhile
import PipelineGnmi.GpbJsonProofs
import PipelineGnmi.GrpcOutChildrenProofs
import PipelineGnmi.OutputDrainProofs

/-! # What the gRPC output and the Kafka output emit

    Both outputs ask a message for its byte stream.  The answer is an error, the
    nil stream when there is nothing to generate, or octets.
    `dataMsgToKafkaMessage` (`xport_kafka.go`) looks for the nil stream and lets
    the message go; `stickyLoop` (`xport_grpc_out.go`) looks at the error alone,
    and feeds its clients an empty payload.

    `Fed` is what a client of the gRPC output was fed that was registered while
    the messages came in and never had its channel full; `Handed` is what the
    Kafka output handed to its producer.  They are the same exactly if every
    message has something to generate or fails (`outputs_agree_iff`), as long as
    the Kafka output does not go down on the way. -/

namespace PipelineOutputPayloads

open GoChan Transition Drain PipelineMessage PipelineDataMsg PipelineKafkaKey
open PipelineGrpcOut (OutServer OutLabel Pull outStep outServer outStep_move inv_of_reach)
open PipelineOutputDrain (KafkaOutput KafkaPc KafkaLabel kafkaStep kafkaOutput kafkaStep_move feed)

/-! ## The gRPC output -/

/-- `stickyLoop` and the clients it feeds. -/
inductive GrpcLabel where
  | collect (dM : DataMsg)
  | clients (l : OutLabel (Option Octets))

section Grpc

variable (render : Renderers) (spec : DataMsgStreamSpec) (depth : Nat)

/-- One step of the loop or of a client.  The loop is in `feedAllChildren` until
    every client was looked at, and nobody else feeds. -/
def grpcStep (s : OutServer (Option Octets)) : GrpcLabel → Option (OutServer (Option Octets))
  | .collect dM =>
      match s.feeding with
      | some _ => none
      | none =>
          match produceByteStream render spec dM with
          | .error _ => some s
          | .ok rawstream => outStep depth s (.feed rawstream)
  | .clients (.feed _) => none
  | .clients l => outStep depth s l

/-- What a message makes the loop feed. -/
def grpcEmits (dM : DataMsg) : List (Option Octets) :=
  match produceByteStream render spec dM with
  | .error _ => []
  | .ok rawstream => [rawstream]

/-- The payloads these messages are fed as; of a nil stream, an empty one. -/
def grpcPayloads (msgs : List DataMsg) : List Octets :=
  (msgs.flatMap (grpcEmits render spec)).map (fun rawstream => rawstream.getD [])

/-- For each client the messages that were collected while it was registered. -/
def recordAttended (s : OutServer (Option Octets)) (l : GrpcLabel)
    (attended : List (List DataMsg)) : List (List DataMsg) :=
  match l with
  | .clients (.start _) => attended ++ [[]]
  | .collect dM =>
      attended.mapIdx (fun k msgs =>
        if k ∈ s.children.map Prod.snd then msgs ++ [dM] else msgs)
  | _ => attended

def grpcOutput : System (OutServer (Option Octets) × List (List DataMsg)) GrpcLabel :=
  withHistory ⟨(outServer depth).init, grpcStep render spec depth⟩ [] recordAttended

/-- The payloads that were put on the channel of a client that was registered
    while these messages were collected, and was never full. -/
def Fed (msgs : List DataMsg) (payloads : List Octets) : Prop :=
  ∃ (s : OutServer (Option Octets)) (attended : List (List DataMsg)) (k : Nat)
    (p : Pull (Option Octets)), Reach (grpcOutput render spec depth) anyStep (s, attended) ∧
    attended[k]? = some msgs ∧ s.pulls[k]? = some p ∧ p.drops = 0 ∧ s.feeding = none ∧
    payloads = p.dataChan.log.reduceOption.map (fun rawstream => rawstream.getD [])

end Grpc

/-- What every client was fed, as a step changes it. -/
def fedAfter (s : OutServer (Option Octets)) (l : OutLabel (Option Octets))
    (fed : List (List (Option Octets))) : List (List (Option Octets)) :=
  match l with
  | .start _ => fed ++ [[]]
  | .feed rawstream =>
      fed.mapIdx (fun k f => if k ∈ s.children.map Prod.snd then f ++ [rawstream] else f)
  | _ => fed

section Fed

variable {s t : OutServer (Option Octets)}

theorem fed_setPull {k : Nat} {p q : Pull (Option Octets)} (hk : s.pulls[k]? = some p)
    (hfed : q.fed = p.fed) : (s.setPull k q).pulls.map Pull.fed = s.pulls.map Pull.fed :=
  map_set_of_eq hk hfed

theorem fed_removeChild (s : OutServer (Option Octets)) (index : UInt64) :
    (s.removeChildUnprotected index).pulls.map Pull.fed = s.pulls.map Pull.fed := by
  unfold OutServer.removeChildUnprotected
  split
  · rfl
  · split
    · rfl
    · next p hk =>
        split
        · exact fed_setPull hk rfl
        · rfl

theorem fed_removeAll (order : List (UInt64 × Nat)) :
    ∀ s : OutServer (Option Octets),
      (s.removeAllChildren order).pulls.map Pull.fed = s.pulls.map Pull.fed := by
  induction order with
  | nil => exact fun _ => rfl
  | cons e rest ih =>
      intro s
      exact (ih _).trans (fed_removeChild s e.1)

/-- **WHAT A STEP FEEDS**: only a feed feeds, and it feeds who is registered. -/
theorem fed_outStep {depth : Nat} {l : OutLabel (Option Octets)} (h : outStep depth s l = some t) :
    t.pulls.map Pull.fed = fedAfter s l (s.pulls.map Pull.fed) := by
  cases outStep_move h with
  | start => exact List.map_append
  | recv hk => exact fed_setPull hk rfl
  | chanClosed hk => exact fed_setPull hk rfl
  | sendOk hk => exact fed_setPull hk rfl
  | sendFailed hk => exact fed_setPull hk rfl
  | cancel hk => exact fed_setPull hk rfl
  | remove _ hk => exact (fed_removeChild _ _).trans (fed_setPull hk rfl)
  | done hk => exact fed_setPull hk rfl
  | removeAll => exact fed_removeAll _ s
  | @feed rawstream =>
      refine List.ext_getElem? (fun k => ?_)
      show ((s.feedPulls rawstream).map Pull.fed)[k]? = _
      simp only [OutServer.feedPulls, fedAfter, List.getElem?_map, List.getElem?_mapIdx,
        Option.map_map]
      congr 1
      funext p
      show Pull.fed (if k ∈ s.children.map Prod.snd then _ else p) = _
      rw [apply_ite Pull.fed]
      rfl
  | visitFull _ hk => exact fed_setPull hk rfl
  | visitRoom => rfl
  | push _ hk => exact fed_setPull hk rfl
  | pushPanic => rfl
  | feedEnd => rfl

end Fed

section Grpc

variable {render : Renderers} {spec : DataMsgStreamSpec} {depth : Nat}
  {s : OutServer (Option Octets)} {attended : List (List DataMsg)}

/-- **WHAT THE OUTPUT CAN DO**: drop a message that fails, feed another, or let a
    client take a step. -/
theorem grpcStep_cases {t : OutServer (Option Octets)} {l : GrpcLabel}
    (h : grpcStep render spec depth s l = some t) :
    (∃ dM err, l = .collect dM ∧ produceByteStream render spec dM = .error err ∧ t = s) ∨
      (∃ dM rawstream, l = .collect dM ∧ produceByteStream render spec dM = .ok rawstream ∧
        outStep depth s (.feed rawstream) = some t) ∨
      ∃ l', l = .clients l' ∧ (∀ rawstream, l' ≠ .feed rawstream) ∧
        outStep depth s l' = some t := by
  unfold grpcStep at h
  split at h
  · next dM =>
      split at h
      · cases h
      · split at h
        · next err hstream =>
            cases h
            exact Or.inl ⟨dM, err, rfl, hstream, rfl⟩
        · next rawstream hstream => exact Or.inr (Or.inl ⟨dM, rawstream, rfl, hstream, h⟩)
  · cases h
  · next l' hfeed => exact Or.inr (Or.inr ⟨l', rfl, fun r hr => hfeed r (by rw [hr]), h⟩)

theorem reach_server (h : Reach (grpcOutput render spec depth) anyStep (s, attended)) :
    Reach (outServer depth) anyStep s := by
  refine h.invariant (I := fun u => Reach (outServer depth) anyStep u.1) .init ?_
  rintro ⟨u, _⟩ l v hu _ hn
  obtain ⟨t, ht, rfl⟩ := Option.map_eq_some_iff.mp hn
  rcases grpcStep_cases ht with ⟨_, _, -, -, rfl⟩ | ⟨_, rawstream, -, -, hout⟩ | ⟨l', -, -, hout⟩
  · exact hu
  · exact .next hu trivial (a := .feed rawstream) hout
  · exact .next hu trivial (a := l') hout

/-- One message more for those it was fed to. -/
theorem emits_attended (c : Nat → Prop) [DecidablePred c] (dM : DataMsg)
    (attended : List (List DataMsg)) :
    (attended.mapIdx (fun k msgs => if c k then msgs ++ [dM] else msgs)).map
        (fun msgs => msgs.flatMap (grpcEmits render spec))
      = (attended.map (fun msgs => msgs.flatMap (grpcEmits render spec))).mapIdx
          (fun k f => if c k then f ++ grpcEmits render spec dM else f) := by
  refine List.ext_getElem? (fun k => ?_)
  simp only [List.getElem?_map, List.getElem?_mapIdx, Option.map_map]
  congr 1
  funext msgs
  by_cases hc : c k
  · simp [hc]
  · simp [hc]

/-- **A CLIENT IS FED WHAT ITS MESSAGES EMIT**, in their order. -/
theorem fed_of_reach (h : Reach (grpcOutput render spec depth) anyStep (s, attended)) :
    s.pulls.map Pull.fed = attended.map (fun msgs => msgs.flatMap (grpcEmits render spec)) := by
  refine h.invariant (I := fun u => u.1.pulls.map Pull.fed
    = u.2.map (fun msgs => msgs.flatMap (grpcEmits render spec))) rfl ?_
  rintro ⟨u, attended⟩ l v hu _ hn
  obtain ⟨t, ht, rfl⟩ := Option.map_eq_some_iff.mp hn
  show t.pulls.map Pull.fed = List.map _ (recordAttended u l attended)
  rcases grpcStep_cases ht with
    ⟨dM, err, rfl, hstream, rfl⟩ | ⟨dM, rawstream, rfl, hstream, hout⟩ | ⟨l, rfl, hfeed, hout⟩
  · rw [recordAttended, emits_attended, ← hu]
    simp only [grpcEmits, hstream, List.append_nil, ite_self]
    refine List.ext_getElem? (fun k => ?_)
    rw [List.getElem?_mapIdx]
    exact Option.map_id'.symm
  · rw [fed_outStep hout, recordAttended, emits_attended, ← hu]
    simp only [fedAfter, grpcEmits, hstream]
  · rw [fed_outStep hout]
    cases l with
    | feed rawstream => exact absurd rfl (hfeed rawstream)
    | start endpoint =>
        show u.pulls.map Pull.fed ++ [[]] = (attended ++ [[]]).map _
        rw [List.map_append, ← hu]
        rfl
    | _ => exact hu

/-- A client that was never full had put on its channel what its messages
    emit. -/
theorem Fed.eq {msgs : List DataMsg} {payloads : List Octets}
    (h : Fed render spec depth msgs payloads) : payloads = grpcPayloads render spec msgs := by
  obtain ⟨s, attended, k, p, hreach, hmsgs, hp, hdrops, hidle, rfl⟩ := h
  have hfed : p.fed = msgs.flatMap (grpcEmits render spec) := by
    have hat := congrArg (fun l => l[k]?) (fed_of_reach hreach)
    simp only [List.getElem?_map, hp, hmsgs, Option.map_some, Option.some.injEq] at hat
    exact hat
  obtain ⟨enqueued, closed, hcarries, hsub, hlen⟩ :=
    (inv_of_reach (reach_server hreach)).accounts k p hp
  rw [OutServer.pending_free hidle, List.append_nil] at hsub
  rw [OutServer.pending_free hidle, hdrops] at hlen
  have henqueued : enqueued = p.fed := hsub.eq_of_length hlen
  have hlog : p.dataChan.log.reduceOption = enqueued := by
    rw [hcarries]
    show List.filterMap id _ = enqueued
    cases closed <;> simp
  rw [hlog, henqueued, hfed]
  rfl

end Grpc

/-! ## The Kafka output -/

section Kafka

variable (render : Renderers) (cfg : KafkaProducerConfig)

/-- What a message makes the loop hand to the producer. -/
def kafkaEmits (m : DataMsg) : List Octets :=
  match dataMsgToKafkaMessage render cfg m with
  | .ok (some kafkamsg) => [kafkamsg.value]
  | _ => []

/-- The payloads these messages are handed on as: the loop does not get past one
    without metadata. -/
def kafkaPayloads (msgs : List DataMsg) : List Octets :=
  (msgs.takeWhile (fun m => (getMetaData m).isSome)).flatMap (kafkaEmits render cfg)

/-- The payloads handed to the producer: a step adds one if it takes the loop
    into `SendMessage`. -/
def recordHanded (s : KafkaOutput) (l : KafkaLabel) (handed : List Octets) : List Octets :=
  match s.pc, (kafkaStep render cfg s l).map KafkaOutput.pc with
  | .selecting, some (.sending _ kafkamsg) => handed ++ [kafkamsg.value]
  | _, _ => handed

def kafkaProducer (cap : Nat) : System (KafkaOutput × List Octets) KafkaLabel :=
  withHistory (kafkaOutput render cfg cap) [] (recordHanded render cfg)

/-- The payloads handed to the producer for these messages: the loop has taken
    all of them, or as many as it got to before it went down. -/
def Handed (cap : Nat) (msgs : List DataMsg) (payloads : List Octets) : Prop :=
  ∃ s, Reach (kafkaProducer render cfg cap) anyStep (s, payloads) ∧
    (s.inbox.taken = msgs ∨ (∃ m, s.pc = .crashed m) ∧ s.inbox.taken <+: msgs)

end Kafka

section Kafka

variable {render : Renderers} {cfg : KafkaProducerConfig}

variable {m : DataMsg} {t s : KafkaOutput} {l : KafkaLabel}

/-- A message with metadata has a key. -/
theorem kafkaKey_ne_none (h : getMetaData m ≠ none) (spec : KafkaKeySpec) :
    kafkaKey spec m ≠ none := by
  have hpath : getMetaDataPath m ≠ none := by
    cases m with
    | gpb m => exact Option.some_ne_none _
    | json m => exact Option.some_ne_none _
    | gnmi m =>
        intro hnone
        exact h (Option.map_eq_none_iff.mpr (Option.map_eq_none_iff.mp hnone))
  cases spec with
  | none => exact Option.some_ne_none _
  | id => exact Option.some_ne_none _
  | idAndPath =>
      intro hnone
      exact hpath (Option.map_eq_none_iff.mp (Option.map_eq_none_iff.mp hnone))

/-- The conversion goes down for the want of metadata only. -/
theorem getMetaData_of_panic {text : String}
    (h : dataMsgToKafkaMessage render cfg m = .error (.panic text)) : getMetaData m = none := by
  cases hmeta : getMetaData m with
  | none => rfl
  | some metaData =>
      have hkey : kafkaKey cfg.keySpec m ≠ none :=
        kafkaKey_ne_none (by rw [hmeta]; exact Option.some_ne_none _) cfg.keySpec
      simp only [dataMsgToKafkaMessage, hmeta] at h
      split at h
      · cases h
      · cases h
      · split at h
        · next hnone => exact absurd hnone hkey
        · cases h

/-- What a message with metadata makes the loop hand on. -/
theorem kafkaEmits_eq (h : getMetaData m ≠ none) :
    kafkaEmits render cfg m =
      match produceByteStream render cfg.streamSpec m with
      | .ok (some rawstream) => [rawstream]
      | _ => [] := by
  obtain ⟨metaData, hmeta⟩ := Option.ne_none_iff_exists'.mp h
  obtain ⟨key, hkey⟩ := Option.ne_none_iff_exists'.mp (kafkaKey_ne_none h cfg.keySpec)
  simp only [kafkaEmits, dataMsgToKafkaMessage, hmeta, hkey]
  cases produceByteStream render cfg.streamSpec m with
  | error err => rfl
  | ok rawstream => cases rawstream <;> rfl

/-- A step that takes no message: the loop does not go down by it, nor from its
    select into `SendMessage`. -/
structure Idles (s t : KafkaOutput) : Prop where
  taken : t.inbox.taken = s.inbox.taken
  crashed : ∀ m, t.pc = .crashed m ↔ s.pc = .crashed m
  sends : s.pc = .selecting → ∀ m kafkamsg, t.pc ≠ .sending m kafkamsg

/-- The loop stays where it is. -/
theorem Idles.stays (htaken : t.inbox.taken = s.inbox.taken) (hpc : t.pc = s.pc) : Idles s t := by
  refine ⟨htaken, fun m => by rw [hpc], ?_⟩
  intro hselecting m kafkamsg hsending
  cases hselecting.symm.trans (hpc.symm.trans hsending)

/-- The loop goes from one place where it has not gone down to another, where it
    does not send. -/
theorem Idles.goes (htaken : t.inbox.taken = s.inbox.taken) (hs : ∀ m, s.pc ≠ .crashed m)
    (ht : ∀ m, t.pc ≠ .crashed m) (hsends : ∀ m kafkamsg, t.pc ≠ .sending m kafkamsg) : Idles s t :=
  ⟨htaken, fun m => iff_of_false (ht m) (hs m), fun _ => hsends⟩

/-- **WHAT THE PRODUCER CAN DO**: take a message and feed it to the loop, or
    idle. -/
theorem kafkaStep_cases (h : kafkaStep render cfg s l = some t) :
    (∃ msg b, s.pc = .selecting ∧ b.taken = s.inbox.taken ++ [msg] ∧
        t = feed render cfg { s with inbox := b } msg) ∨ Idles s t := by
  cases kafkaStep_move h with
  | produce hb => exact Or.inr (.stays (produce_spec hb).2.2 rfl)
  | request hb => exact Or.inr (.stays (by rw [request_spec hb]) rfl)
  | handIn hpc hb => exact Or.inl ⟨_, _, hpc, (handIn_spec hb).2.2, rfl⟩
  | take hpc hb => exact Or.inl ⟨_, _, hpc, (take_spec hb).2.1, rfl⟩
  | reportIdle => exact Or.inr (.stays rfl rfl)
  | connected hpc => exact Or.inr (.goes rfl (by simp [hpc]) (by simp) (by simp))
  | refused hpc => exact Or.inr (.goes rfl (by simp [hpc]) (by simp) (by simp))
  | retry hpc => exact Or.inr (.goes rfl (by simp [hpc]) (by simp) (by simp))
  | sentOk hpc => exact Or.inr (.goes rfl (by simp [hpc]) (by simp) (by simp))
  | sentFailed hpc => exact Or.inr (.goes rfl (by simp [hpc]) (by simp) (by simp))
  | reportRetrying hpc => exact Or.inr (.goes rfl (by simp [hpc]) (by simp) (by simp))
  | shutdown hpc =>
      refine Or.inr (.goes rfl ?_ (by simp) (by simp))
      rcases hpc with hpc | hpc <;> simp [hpc]

theorem feed_inbox (s : KafkaOutput) (msg : DataMsg) : (feed render cfg s msg).inbox = s.inbox := by
  simp only [feed]
  split <;> rfl

/-- The loop goes down on a message without metadata. -/
theorem feed_undescribed {msg : DataMsg} (h : getMetaData msg = none) (s : KafkaOutput) :
    (feed render cfg s msg).pc = .crashed msg := by
  simp only [feed, dataMsgToKafkaMessage, h, Failure.nilPointer]

/-- With metadata, the loop hands on what the message emits. -/
theorem feed_described {msg : DataMsg} (h : getMetaData msg ≠ none) (s : KafkaOutput) :
    (feed render cfg s msg).pc = s.pc ∧ kafkaEmits render cfg msg = [] ∨
      ∃ kafkamsg, (feed render cfg s msg).pc = .sending msg kafkamsg ∧
        kafkaEmits render cfg msg = [kafkamsg.value] := by
  unfold feed kafkaEmits
  cases hmsg : dataMsgToKafkaMessage render cfg msg with
  | error failure =>
      cases failure with
      | error err => exact Or.inl ⟨rfl, rfl⟩
      | panic text => exact absurd (getMetaData_of_panic hmsg) h
  | ok kafkamsg =>
      cases kafkamsg with
      | none => exact Or.inl ⟨rfl, rfl⟩
      | some kafkamsg => exact Or.inr ⟨kafkamsg, rfl, rfl⟩

theorem recordHanded_sends {kafkamsg : ProducerMessage} (hstep : kafkaStep render cfg s l = some t)
    (hs : s.pc = .selecting) (ht : t.pc = .sending m kafkamsg) (handed : List Octets) :
    recordHanded render cfg s l handed = handed ++ [kafkamsg.value] := by
  unfold recordHanded
  rw [hstep, Option.map_some, hs, ht]

theorem recordHanded_idles (hstep : kafkaStep render cfg s l = some t)
    (hsends : s.pc = .selecting → ∀ m kafkamsg, t.pc ≠ .sending m kafkamsg) (handed : List Octets) :
    recordHanded render cfg s l handed = handed := by
  unfold recordHanded
  rw [hstep]
  split
  · next hpc hsending => exact absurd (Option.some.inj hsending) (hsends hpc _ _)
  · rfl

variable (render cfg) in
/-- What was handed to the producer is what the messages `pre` emit.  They are
    the messages taken, but for the one the loop went down on. -/
structure HandedFor (s : KafkaOutput) (handed : List Octets) (pre : List DataMsg) : Prop where
  described : ∀ m ∈ pre, getMetaData m ≠ none
  handed : handed = pre.flatMap (kafkaEmits render cfg)
  taken : (∀ m, s.pc ≠ .crashed m) ∧ s.inbox.taken = pre ∨
    ∃ m, s.pc = .crashed m ∧ getMetaData m = none ∧ s.inbox.taken = pre ++ [m]

section Step

variable {s t : KafkaOutput} {l : KafkaLabel} {handed : List Octets} {pre : List DataMsg}

theorem HandedFor.idles (h : HandedFor render cfg s handed pre) (hidles : Idles s t) :
    HandedFor render cfg t handed pre := by
  refine ⟨h.described, h.handed, ?_⟩
  simp only [hidles.taken, ne_eq, hidles.crashed]
  exact h.taken

/-- The loop goes down on a message. -/
theorem HandedFor.crash {msg : DataMsg} (h : HandedFor render cfg s handed pre)
    (hmeta : getMetaData msg = none) (hpc : t.pc = .crashed msg)
    (htaken : t.inbox.taken = pre ++ [msg]) : HandedFor render cfg t handed pre :=
  ⟨h.described, h.handed, Or.inr ⟨msg, hpc, hmeta, htaken⟩⟩

/-- The loop is through with a message, or sends it. -/
theorem HandedFor.snoc {msg : DataMsg} (h : HandedFor render cfg s handed pre)
    (hmeta : getMetaData msg ≠ none) (hpc : ∀ m, t.pc ≠ .crashed m)
    (htaken : t.inbox.taken = pre ++ [msg]) :
    HandedFor render cfg t (handed ++ kafkaEmits render cfg msg) (pre ++ [msg]) := by
  refine ⟨?_, ?_, Or.inl ⟨hpc, htaken⟩⟩
  · intro m hm
    rcases List.mem_append.mp hm with hm | hm
    · exact h.described m hm
    · rw [List.mem_singleton.mp hm]
      exact hmeta
  · rw [h.handed, List.flatMap_append, List.flatMap_singleton]

/-- **A STEP KEEPS THE ACCOUNT** of what was handed to the producer. -/
theorem handedFor_step (h : HandedFor render cfg s handed pre)
    (hstep : kafkaStep render cfg s l = some t) :
    ∃ pre, HandedFor render cfg t (recordHanded render cfg s l handed) pre := by
  rcases kafkaStep_cases hstep with ⟨msg, b, hpc, hb, ht⟩ | hidles
  · have htaken : t.inbox.taken = pre ++ [msg] := by
      rcases h.taken with ⟨-, htaken⟩ | ⟨m, hcrashed, -⟩
      · rw [ht, feed_inbox, hb, htaken]
      · cases hpc.symm.trans hcrashed
    by_cases hmeta : getMetaData msg = none
    · have hdown : t.pc = .crashed msg := by
        rw [ht]
        exact feed_undescribed hmeta _
      rw [recordHanded_idles hstep (by simp [hdown])]
      exact ⟨pre, h.crash hmeta hdown htaken⟩
    · refine ⟨pre ++ [msg], ?_⟩
      rcases feed_described hmeta { s with inbox := b } with
        ⟨hloop, hemits⟩ | ⟨kafkamsg, hsend, hemits⟩
      · have hloop : t.pc = .selecting := by rw [ht, hloop, hpc]
        have hsnoc := h.snoc (t := t) hmeta (by simp [hloop]) htaken
        rw [hemits, List.append_nil] at hsnoc
        rw [recordHanded_idles hstep (by simp [hloop])]
        exact hsnoc
      · have hsend : t.pc = .sending msg kafkamsg := by rw [ht, hsend]
        rw [recordHanded_sends hstep hpc hsend, ← hemits]
        exact h.snoc hmeta (by simp [hsend]) htaken
  · rw [recordHanded_idles hstep hidles.sends]
    exact ⟨pre, h.idles hidles⟩

end Step

theorem handedFor_of_reach {cap : Nat} {handed : List Octets}
    (h : Reach (kafkaProducer render cfg cap) anyStep (s, handed)) :
    ∃ pre, HandedFor render cfg s handed pre := by
  refine h.invariant (I := fun u => ∃ pre, HandedFor render cfg u.1 u.2 pre) ?_ ?_
  · exact ⟨[], by simp, rfl, Or.inl ⟨by simp [kafkaProducer, withHistory, kafkaOutput], rfl⟩⟩
  · rintro ⟨u, handed⟩ l v ⟨pre, hu⟩ _ hn
    obtain ⟨t, ht, rfl⟩ := Option.map_eq_some_iff.mp hn
    exact handedFor_step hu ht

/-- The producer is handed what the messages emit that come before one without
    metadata. -/
theorem Handed.eq {cap : Nat} {msgs : List DataMsg} {payloads : List Octets}
    (h : Handed render cfg cap msgs payloads) : payloads = kafkaPayloads render cfg msgs := by
  obtain ⟨s, hreach, hmsgs⟩ := h
  obtain ⟨pre, hpre⟩ := handedFor_of_reach hreach
  have hall : ∀ m ∈ pre, (getMetaData m).isSome = true :=
    fun m hm => Option.isSome_iff_ne_none.mpr (hpre.described m hm)
  rw [hpre.handed, kafkaPayloads]
  congr 1
  rcases hpre.taken with ⟨hup, htaken⟩ | ⟨m, -, hnone, htaken⟩
  · have heq : msgs = pre := by
      rcases hmsgs with hmsgs | ⟨⟨m, hdown⟩, -⟩
      · rw [← hmsgs, htaken]
      · exact absurd hdown (hup m)
    rw [heq]
    exact (List.takeWhile_eq_self_iff.mpr hall).symm
  · obtain ⟨post, hpost⟩ : ∃ post, msgs = pre ++ m :: post := by
      rcases hmsgs with hmsgs | ⟨-, rest, hrest⟩
      · exact ⟨[], by rw [← hmsgs, htaken]⟩
      · exact ⟨rest, by rw [← hrest, htaken, List.append_assoc, List.singleton_append]⟩
    rw [hpost, List.takeWhile_append_of_pos hall, List.takeWhile_cons, hnone]
    exact (List.append_nil pre).symm

end Kafka

/-! ## What they agree on -/

/-- Every message has something to generate, or fails; and from the first one
    without metadata on, which takes the Kafka output down, all fail. -/
structure Emitted (render : Renderers) (spec : DataMsgStreamSpec) (msgs : List DataMsg) :
    Prop where
  generated : ∀ m ∈ msgs, produceByteStream render spec m ≠ .ok none
  described : ∀ pre m post, msgs = pre ++ m :: post → getMetaData m = none →
    ∀ m' ∈ m :: post, ∃ err, produceByteStream render spec m' = .error err

section Agree

variable {render : Renderers} {spec : DataMsgStreamSpec}

theorem emitted_nil : Emitted render spec [] :=
  ⟨fun _ hm => absurd hm List.not_mem_nil, fun pre m post h => by simp at h⟩

variable {m : DataMsg}

theorem emitted_described {msgs : List DataMsg} (hm : getMetaData m ≠ none) :
    Emitted render spec (m :: msgs) ↔
      produceByteStream render spec m ≠ .ok none ∧ Emitted render spec msgs := by
  constructor
  · intro h
    refine ⟨h.generated m List.mem_cons_self, ?_, ?_⟩
    · exact fun m' hm' => h.generated m' (List.mem_cons_of_mem m hm')
    · exact fun pre m' post heq => h.described (m :: pre) m' post (by rw [heq]; rfl)
  · rintro ⟨hgen, h⟩
    refine ⟨?_, ?_⟩
    · intro m' hm'
      rcases List.mem_cons.mp hm' with rfl | hm'
      · exact hgen
      · exact h.generated m' hm'
    · intro pre m' post heq hnone
      cases pre with
      | nil =>
          cases heq
          exact absurd hnone hm
      | cons _ pre =>
          cases heq
          exact h.described pre m' post rfl hnone

theorem emitted_undescribed {msgs : List DataMsg} (hm : getMetaData m = none) :
    Emitted render spec (m :: msgs) ↔
      ∀ m' ∈ m :: msgs, ∃ err, produceByteStream render spec m' = .error err := by
  constructor
  · exact fun h => h.described [] m msgs rfl hm
  · intro h
    refine ⟨?_, ?_⟩
    · intro m' hm' hnil
      obtain ⟨err, herr⟩ := h m' hm'
      cases herr.symm.trans hnil
    · intro pre m' post heq _ m'' hm''
      exact h m'' (heq ▸ List.mem_append_right pre hm'')

theorem grpcEmits_eq_nil_iff :
    grpcEmits render spec m = [] ↔ ∃ err, produceByteStream render spec m = .error err := by
  unfold grpcEmits
  cases produceByteStream render spec m <;> simp

/-- A message with metadata gives both outputs the same unless it has nothing to
    generate, and then the gRPC output feeds an empty payload. -/
theorem emits_described (cfg : KafkaProducerConfig) (hm : getMetaData m ≠ none) :
    produceByteStream render cfg.streamSpec m ≠ .ok none ∧
        (grpcEmits render cfg.streamSpec m).map (fun r => r.getD []) = kafkaEmits render cfg m ∨
      produceByteStream render cfg.streamSpec m = .ok none ∧
        (grpcEmits render cfg.streamSpec m).map (fun r => r.getD []) = [[]] ∧
        kafkaEmits render cfg m = [] := by
  rw [kafkaEmits_eq hm]
  unfold grpcEmits
  cases produceByteStream render cfg.streamSpec m with
  | error err => exact Or.inl ⟨by simp, rfl⟩
  | ok rawstream =>
      cases rawstream with
      | none => exact Or.inr ⟨rfl, rfl, rfl⟩
      | some rawstream => exact Or.inl ⟨by simp, rfl⟩

variable {cfg : KafkaProducerConfig}

theorem grpcPayloads_cons (m : DataMsg) (msgs : List DataMsg) :
    grpcPayloads render spec (m :: msgs) =
      (grpcEmits render spec m).map (fun r => r.getD []) ++ grpcPayloads render spec msgs := by
  simp only [grpcPayloads, List.flatMap_cons, List.map_append]

theorem kafkaPayloads_described (hm : getMetaData m ≠ none) (msgs : List DataMsg) :
    kafkaPayloads render cfg (m :: msgs) =
      kafkaEmits render cfg m ++ kafkaPayloads render cfg msgs := by
  rw [kafkaPayloads, List.takeWhile_cons, if_pos (Option.isSome_iff_ne_none.mpr hm)]
  rfl

theorem kafkaPayloads_undescribed (hm : getMetaData m = none) (msgs : List DataMsg) :
    kafkaPayloads render cfg (m :: msgs) = [] := by
  rw [kafkaPayloads, List.takeWhile_cons, hm]
  rfl

/-- The gRPC output feeds as many payloads as the Kafka output hands on, or
    more. -/
theorem length_kafkaPayloads_le (msgs : List DataMsg) :
    (kafkaPayloads render cfg msgs).length ≤
      (grpcPayloads render cfg.streamSpec msgs).length := by
  induction msgs with
  | nil => exact Nat.le_refl 0
  | cons m msgs ih =>
      by_cases hm : getMetaData m = none
      · rw [kafkaPayloads_undescribed hm]
        exact Nat.zero_le _
      · rw [kafkaPayloads_described hm, grpcPayloads_cons, List.length_append,
          List.length_append]
        rcases emits_described cfg hm with ⟨-, hsame⟩ | ⟨-, hfed, hhanded⟩
        · rw [hsame]
          exact Nat.add_le_add_left ih _
        · rw [hfed, hhanded]
          exact Nat.add_le_add (Nat.zero_le _) ih

/-- **WHEN THE OUTPUTS AGREE**, by induction on the messages. -/
theorem payloads_eq_iff (msgs : List DataMsg) :
    grpcPayloads render cfg.streamSpec msgs = kafkaPayloads render cfg msgs ↔
      Emitted render cfg.streamSpec msgs := by
  induction msgs with
  | nil => exact iff_of_true rfl emitted_nil
  | cons m msgs ih =>
      by_cases hm : getMetaData m = none
      · rw [kafkaPayloads_undescribed hm, emitted_undescribed hm]
        simp only [grpcPayloads, List.map_eq_nil_iff, List.flatMap_eq_nil_iff,
          grpcEmits_eq_nil_iff]
      · rw [kafkaPayloads_described hm, grpcPayloads_cons, emitted_described hm]
        rcases emits_described cfg hm with ⟨hgen, hsame⟩ | ⟨hnil, hfed, hhanded⟩
        · rw [hsame, List.append_cancel_left_eq, ih]
          exact (and_iff_right hgen).symm
        · -- the empty payload is one too many, whatever comes after it
          rw [hfed, hhanded, List.nil_append]
          refine iff_of_false (fun heq => ?_) (fun h => h.1 hnil)
          have hlen := congrArg List.length heq
          have hle : (kafkaPayloads render cfg msgs).length ≤
              (grpcPayloads render cfg.streamSpec msgs).length := length_kafkaPayloads_le msgs
          rw [List.length_append, List.length_singleton] at hlen
          omega

end Agree

/-- **WHAT THE OUTPUTS AGREE ON**: the payloads fed to a client of the gRPC output
    that is registered throughout and never full are those the Kafka output hands
    to its producer, for the same messages and stream specification, exactly if
    none of the messages is without anything to generate and the Kafka output
    loses nothing by going down. -/
theorem outputs_agree_iff (render : Renderers) (cfg : KafkaProducerConfig) (depth cap : Nat)
    (msgs : List DataMsg) (fed handed : List Octets)
    (hfed : Fed render cfg.streamSpec depth msgs fed)
    (hhanded : Handed render cfg cap msgs handed) :
    fed = handed ↔ Emitted render cfg.streamSpec msgs := by
  rw [hfed.eq, hhanded.eq]
  exact payloads_eq_iff msgs

/-! ## Nothing to generate -/

section Nil

open PipelineGpbStream (StreamEnv produceTemplate produceRows rowsToSerialise serialiseBatch
  serialiseEvents headerOf renderers returned produceByteStream_renderers)

variable {env : StreamEnv} {m : DataMsgGPB}

theorem serialiseEvents_eq_nil_iff {source : MsgProducer} {telemetry : List Char}
    {rows : List (PipelineGpbStream.Row (List Char))} :
    serialiseEvents source telemetry rows = .ok none ↔ rows = [] := by
  unfold serialiseEvents
  cases rows with
  | nil => exact iff_of_true rfl rfl
  | cons row rows =>
      refine iff_of_false ?_ (List.cons_ne_nil row rows)
      rw [List.isEmpty_cons, if_neg Bool.false_ne_true]
      split
      · exact fun h => by cases h
      · exact fun h => by cases h

/-- JSON events of a message without rows. -/
theorem produceRows_events_nil_iff :
    produceRows env m serialiseEvents = .ok none ↔ rowsToSerialise env m.cachedDecode = .ok [] := by
  obtain ⟨telemetry, hheader, -⟩ :=
    PipelineGpbJson.header_isJson env.floats (headerOf m.cachedDecode)
  cases hrows : rowsToSerialise env m.cachedDecode with
  | error failure =>
      refine iff_of_false ?_ (by simp)
      rw [produceRows, hrows]
      exact fun h => by cases h
  | ok rows =>
      rw [PipelineGpbJson.produceRows_eq hrows hheader, serialiseEvents_eq_nil_iff,
        Except.ok.injEq]

/-- A template that writes nothing. -/
theorem produceTemplate_nil_iff {context : Option String} :
    produceTemplate env context m = .ok none ↔
      ∃ msg err template, PipelineGpbStream.populateDataFromGPB m.cachedDecode = some (msg, err) ∧
        context = some template ∧ env.execute template msg = .ok [] := by
  constructor
  · intro h
    unfold produceTemplate at h
    split at h
    · cases h
    · next msg err hmsg =>
        split at h
        · cases h
        · next template =>
            split at h
            · cases h
            · next b hb =>
                cases b with
                | nil => exact ⟨msg, err, template, hmsg, rfl, hb⟩
                | cons => cases h
  · rintro ⟨msg, err, template, hmsg, rfl, hexec⟩
    simp only [produceTemplate, hmsg, hexec]
    rfl

/-- **THE NIL STREAMS** of a GPB message: JSON events when it has no rows, and a
    template that writes nothing. -/
theorem gpb_stream_nil_iff (gnmiJson : DataMsgGNMI → Except GoError (Option Octets))
    (spec : DataMsgStreamSpec) :
    produceByteStream (renderers env gnmiJson) spec (.gpb m) = .ok none ↔
      spec.streamType = .jsonEvents ∧ rowsToSerialise env m.cachedDecode = .ok [] ∨
      spec.streamType = .template ∧ ∃ msg err template,
        PipelineGpbStream.populateDataFromGPB m.cachedDecode = some (msg, err) ∧
        spec.context = some template ∧ env.execute template msg = .ok [] := by
  have hreturned : ∀ stream : Except Failure (Option Octets),
      returned stream = .ok none ↔ stream = .ok none := by
    rintro ((err | text) | stream) <;> simp [returned]
  have hbatch : produceRows env m serialiseBatch ≠ .ok none := by
    intro h
    obtain ⟨telemetry, hheader, -⟩ :=
      PipelineGpbJson.header_isJson env.floats (headerOf m.cachedDecode)
    cases hrows : rowsToSerialise env m.cachedDecode with
    | error failure =>
        rw [produceRows, hrows] at h
        cases h
    | ok rows =>
        rw [PipelineGpbJson.produceRows_eq hrows hheader, serialiseBatch] at h
        split at h <;> cases h
  rw [produceByteStream_renderers, hreturned]
  obtain ⟨streamType, context⟩ := spec
  cases streamType with
  | jsonEvents =>
      refine produceRows_events_nil_iff.trans ?_
      simp
  | template =>
      refine produceTemplate_nil_iff.trans ?_
      simp
  | json => exact iff_of_false hbatch (by simp)
  | _ => exact iff_of_false (by simp [PipelineGpbStream.produceByteStream]) (by simp)

end Nil

/-! ## Runs -/

/-- A client comes, one message is collected, and the client is fed. -/
theorem fed_one {render : Renderers} {spec : DataMsgStreamSpec} {m : DataMsg}
    {rawstream : Option Octets} (h : produceByteStream render spec m = .ok rawstream) :
    Fed render spec 1 [m] [rawstream.getD []] := by
  have hstart := Reach.next (S := grpcOutput render spec 1) (P := anyStep) .init trivial
    (a := .clients (.start "a")) rfl
  have hcollect := Reach.next hstart trivial (a := .collect m)
    (by simp only [grpcOutput, withHistory, grpcStep, h]; rfl)
  have hvisit := Reach.next hcollect trivial (a := .clients (.visit (1, 0))) rfl
  have hpush := Reach.next hvisit trivial (a := .clients .push) rfl
  have hend := Reach.next hpush trivial (a := .clients .feedEnd) rfl
  exact ⟨_, _, 0, _, hend, rfl, rfl, rfl, rfl, rfl⟩

/-- One message is handed in to a producer that has connected. -/
theorem handed_one (render : Renderers) (cfg : KafkaProducerConfig) (m : DataMsg) :
    Handed render cfg 0 [m] (kafkaPayloads render cfg [m]) := by
  have hconnect := Reach.next (S := kafkaProducer render cfg 0) (P := anyStep) .init trivial
    (a := .connect true) rfl
  have hhandIn := Reach.next hconnect trivial (a := .handIn m) rfl
  have hhanded : Handed render cfg 0 [m] _ :=
    ⟨_, hhandIn, Or.inl (congrArg Inbox.taken (feed_inbox _ m))⟩
  rw [← hhanded.eq]
  exact hhanded

/-- A header alone, as a router sends it to end a collection. -/
def collectionEnd : DataMsgGPB :=
  ⟨[0x0a], "r1", ⟨some "r1", none, "if:stats", 7, 0, 0, [], none, 9⟩⟩

/-- A Kafka output of JSON events. -/
def eventsKafka : KafkaProducerConfig := ⟨fun _ => "telemetry", .none, ⟨.jsonEvents, none⟩⟩

/-- The renderings of this model, where nothing is registered. -/
def plainRender : Renderers :=
  PipelineGpbStream.renderers PipelineGpbJson.emptyArchiveEnv (fun _ => .ok none)

theorem outputs_agree_json :
    Fed plainRender PipelineOutputDrain.plainKafka.streamSpec 1
        [PipelineOutputDrain.queuedMsg] [[0x7b, 0x7d]] ∧
      Handed plainRender PipelineOutputDrain.plainKafka 0
        [PipelineOutputDrain.queuedMsg] [[0x7b, 0x7d]] ∧
      Emitted plainRender PipelineOutputDrain.plainKafka.streamSpec
        [PipelineOutputDrain.queuedMsg] := by
  have hfed : Fed plainRender PipelineOutputDrain.plainKafka.streamSpec 1
      [PipelineOutputDrain.queuedMsg] [[0x7b, 0x7d]] :=
    fed_one (produceByteStream_default plainRender PipelineOutputDrain.queuedMsg)
  have hhanded : Handed plainRender PipelineOutputDrain.plainKafka 0
      [PipelineOutputDrain.queuedMsg] [[0x7b, 0x7d]] := handed_one _ _ _
  exact ⟨hfed, hhanded, (outputs_agree_iff _ _ _ _ _ _ _ hfed hhanded).mp rfl⟩

/-- The end of a collection, as JSON events: the client of the gRPC output is fed
    an empty payload, and Kafka's producer is handed nothing. -/
theorem outputs_differ_collectionEnd :
    Fed plainRender eventsKafka.streamSpec 1 [.gpb collectionEnd] [[]] ∧
      Handed plainRender eventsKafka 0 [.gpb collectionEnd] [] ∧
      produceByteStream plainRender eventsKafka.streamSpec (.gpb collectionEnd) = .ok none := by
  have hstream : produceByteStream plainRender eventsKafka.streamSpec (.gpb collectionEnd)
      = .ok none := (gpb_stream_nil_iff _ _).mpr (Or.inl ⟨rfl, rfl⟩)
  have hhanded := handed_one plainRender eventsKafka (.gpb collectionEnd)
  have hmeta : getMetaData (.gpb collectionEnd) ≠ none := Option.some_ne_none _
  rw [kafkaPayloads_described hmeta, kafkaEmits_eq hmeta, hstream] at hhanded
  exact ⟨fed_one hstream, hhanded, hstream⟩

end PipelineOutputPayloads
