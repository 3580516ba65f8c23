import PipelineGnmi.KafkaKeyProofs
import PipelineGnmi.ReplaceRunsProofs

/-! # Topics of Kafka messages

    `kafkaProducerTopicExtractor` of `xport_kafka.go`: a topic is configured, or
    is made from the metadata of a message by a template.  What a template makes
    is cut to the length of a topic and then cleaned of what a topic may not
    have; but cleaning puts three underscores for each run of such bytes, and can
    make the topic too long again (`kafka_topic_legal_iff`). -/

namespace PipelineKafkaTopic

open PipelineMessage PipelineKafkaKey ReplaceRuns

/-- `KAFKATOPICMAXLEN`. -/
def kafkaTopicMaxLen : Nat := 250

/-- A parsed template: its name, and the bytes it writes for the metadata of a
    message, unless it fails. -/
structure TopicTemplate where
  name : String
  execute : DataMsgMetaData → Option Octets

/-- The class `[a-zA-Z0-9\._\-]`. -/
def isTopicChar (c : Char) : Bool := c.isAlphanum || c = '.' || c = '_' || c = '-'

/-- The class on bytes: no byte of a longer encoding is in it, so runs of bytes
    outside it are runs of characters outside it, broken encodings included. -/
def isTopicByte (b : UInt8) : Bool := isTopicChar (Char.ofNat b.toNat)

/-- The text of bytes that are ASCII. -/
def asciiText (bytes : Octets) : String :=
  String.ofList (bytes.map (fun b => Char.ofNat b.toNat))

/-- What is left of the output of a template. -/
def postProcess (out : Octets) : String :=
  asciiText (replaceRuns isTopicByte [95, 95, 95]
    (if out.length > kafkaTopicMaxLen then out.take kafkaTopicMaxLen else out))

/-- `kafkaProducerTopicExtractor`. -/
def kafkaProducerTopicExtractor (topic : String) :
    Option TopicTemplate → Option DataMsgMetaData → String
  | none, _ => topic
  | some template, none => "metadata template [" ++ template.name ++ "]"
  | some template, some m =>
      match template.execute m with
      | some out => postProcess out
      -- the configured topic, when the template fails
      | none => topic

/-- What Kafka takes for a topic. -/
def LegalTopic (topic : String) : Prop :=
  topic.length ≤ kafkaTopicMaxLen ∧ ∀ c ∈ topic.toList, isTopicChar c = true

theorem take_eq (out : Octets) :
    (if out.length > kafkaTopicMaxLen then out.take kafkaTopicMaxLen else out)
      = out.take kafkaTopicMaxLen := by
  split
  · rfl
  · next h => exact (List.take_of_length_le (Nat.le_of_not_lt h)).symm

/-- The characters are those of the class. -/
theorem isTopicChar_postProcess (out : Octets) :
    ∀ c ∈ (postProcess out).toList, isTopicChar c = true := by
  rw [postProcess, asciiText, String.toList_ofList, List.forall_mem_map]
  exact forall_mem_replaceRuns (fun _ h => h) (by decide +kernel) _

/-- The length is counted by runs. -/
theorem length_postProcess (out : Octets) :
    (postProcess out).length = (out.take kafkaTopicMaxLen).countP isTopicByte
      + 3 * runs isTopicByte (out.take kafkaTopicMaxLen) := by
  rw [postProcess, asciiText, String.length_ofList, List.length_map, take_eq,
    length_replaceRuns]
  rfl

/-- **WHICH TOPICS ARE LEGAL**: those whose first 250 bytes have legal bytes and
    runs of others, three for each run, for 250 at most. -/
theorem kafka_topic_legal_iff (topic : String) (template : TopicTemplate)
    (m : DataMsgMetaData) (out : Octets) (hout : template.execute m = some out) :
    LegalTopic (kafkaProducerTopicExtractor topic (some template) (some m)) ↔
      (out.take kafkaTopicMaxLen).countP isTopicByte
        + 3 * runs isTopicByte (out.take kafkaTopicMaxLen) ≤ kafkaTopicMaxLen := by
  have htopic : kafkaProducerTopicExtractor topic (some template) (some m) = postProcess out := by
    show (match template.execute m with | some out => postProcess out | none => topic) = _
    rw [hout]
  rw [htopic, LegalTopic, ← length_postProcess]
  exact and_iff_left (isTopicChar_postProcess out)

/-- The path and the producer, with a slash between them. -/
def pathTemplate : TopicTemplate where
  name := "topic"
  execute := fun m => some (m.path ++ "/" ++ m.identifier).toUTF8.data.toList

theorem kafka_topic_legal_path :
    kafkaProducerTopicExtractor "telemetry" (some pathTemplate) (some ⟨"if:stats", "r1"⟩)
        = "if___stats___r1" ∧
      (LegalTopic (kafkaProducerTopicExtractor "telemetry" (some pathTemplate)
          (some ⟨"if:stats", "r1"⟩)) ↔
        ("if:stats/r1".toUTF8.data.toList.take kafkaTopicMaxLen).countP isTopicByte
          + 3 * runs isTopicByte ("if:stats/r1".toUTF8.data.toList.take kafkaTopicMaxLen)
          ≤ kafkaTopicMaxLen) :=
  ⟨by decide +kernel, kafka_topic_legal_iff "telemetry" pathTemplate ⟨"if:stats", "r1"⟩ _ rfl⟩

/-- A path of 63 steps and the producer behind it, 127 bytes with the slashes, make
    a topic of 253. -/
theorem kafka_topic_too_long :
    ¬ LegalTopic (kafkaProducerTopicExtractor "telemetry" (some pathTemplate)
      (some ⟨"a/b/c/d/e/f/g/h/i/j/k/l/m/n/o/p/q/r/s/t/u/v/w/x/y/z/" ++
        "a/b/c/d/e/f/g/h/i/j/k/l/m/n/o/p/q/r/s/t/u/v/w/x/y/z/0/1/2/3/4/5/6/7/8/9/a", "b"⟩)) := by
  rintro ⟨hlen, -⟩
  have hcount := (length_postProcess _).symm.trans_le hlen
  exact absurd hcount (by decide +kernel)

end PipelineKafkaTopic
