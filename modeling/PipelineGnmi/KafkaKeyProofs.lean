import PipelineGnmi.DataMsgProofs

/-! # Keys of Kafka messages

    `dataMsgToKafkaMessage` of `xport_kafka.go` writes the producer of a
    message into the key, after the path and a colon if so configured;
    `extractKafkaProducer` on the consumer side reads it back, by splitting the
    key at its colons.  A key with more than one colon is not read, and the
    consumer falls back on its own name.

    The broker hands over keys as they were given; an empty key may arrive as
    nil. -/

namespace PipelineKafkaKey

open PipelineMessage PipelineDataMsg

/-- `kafkaKeySpec`. -/
inductive KafkaKeySpec where
  | none
  | idAndPath
  | id
  deriving DecidableEq, Repr

/-- `keyExtractionMethod`. -/
def keyExtractionMethod : String → Option KafkaKeySpec
  | "" => some .none
  | "path_and_id" => some .idAndPath
  | "id" => some .id
  | _ => none

/-- `dataMsgMetaData`. -/
structure DataMsgMetaData where
  path : String
  identifier : String
  deriving DecidableEq, Repr

/-- `getMetaData`; a gNMI message without a prefix panics here. -/
def getMetaData : DataMsg → Option DataMsgMetaData
  | .gpb m => some ⟨m.cachedDecode.encodingPath, m.source⟩
  | .json m => some ⟨"unsupported", m.source⟩
  | .gnmi m => m.notification.pfx.map (fun p => ⟨decodeGNMIPath p, m.source⟩)

/-- `kafkaProducerConfig`, the fields the conversion reads. -/
structure KafkaProducerConfig where
  fetchTopic : DataMsgMetaData → String
  keySpec : KafkaKeySpec
  streamSpec : DataMsgStreamSpec

/-- `sarama.ProducerMessage`. -/
structure ProducerMessage where
  topic : String
  key : String
  value : Octets
  deriving DecidableEq, Repr

/-- The path a key carries: an error leaves it empty. -/
def keyPath (m : DataMsg) : Option String :=
  (getMetaDataPath m).map (fun r =>
    match r with
    | .ok path => path
    | .error _ => "")

/-- The key of a message. -/
def kafkaKey (spec : KafkaKeySpec) (m : DataMsg) : Option String :=
  match spec with
  | .idAndPath => (keyPath m).map (fun path => path ++ ":" ++ m.getMetaDataIdentifier)
  | .id => some m.getMetaDataIdentifier
  | .none => some ""

/-- `dataMsgToKafkaMessage`; a message with nothing to generate is `none`. -/
def dataMsgToKafkaMessage (render : Renderers) (cfg : KafkaProducerConfig) (m : DataMsg) :
    Except Failure (Option ProducerMessage) :=
  match getMetaData m with
  | none => .error .nilPointer
  | some metaData =>
      match produceByteStream render cfg.streamSpec m with
      | .error err => .error (.error err)
      | .ok none => .ok none
      | .ok (some rawstream) =>
          match kafkaKey cfg.keySpec m with
          | none => .error .nilPointer
          | some key => .ok (some ⟨cfg.fetchTopic metaData, key, rawstream⟩)

/-- `strings.Split` at a character. -/
def splitAt (c : Char) (s : String) : List String :=
  (s.toList.splitOn c).map String.ofList

/-- `extractKafkaProducer`; `name` is the consumer's own. -/
def extractKafkaProducer (name : String) (spec : KafkaKeySpec) (key : String) : MsgProducer :=
  if key ≠ "" then
    match spec with
    | .id => key
    | .idAndPath =>
        match splitAt ':' key with
        | [_, identifier] => identifier
        | _ => name
    | .none => name
  else name

/-! ## Splitting -/

/-- A text is one part exactly when the separator does not occur in it. -/
theorem length_splitOn_eq_one {c : Char} {l : List Char} : (l.splitOn c).length = 1 ↔ c ∉ l := by
  constructor
  · intro h hmem
    obtain ⟨pre, post, rfl⟩ := List.append_of_mem hmem
    rw [List.splitOn_append_cons_self, List.length_append] at h
    have h1 := List.length_pos_of_ne_nil (List.splitOn_ne_nil c pre)
    have h2 := List.length_pos_of_ne_nil (List.splitOn_ne_nil c post)
    omega
  · intro h
    rw [List.splitOn_eq_singleton h]
    rfl

/-- The key of a path and an identifier, split. -/
theorem splitAt_key (path identifier : String) :
    splitAt ':' (path ++ ":" ++ identifier)
      = splitAt ':' path ++ splitAt ':' identifier := by
  rw [splitAt, splitAt, splitAt, String.toList_append, String.toList_append,
    show ":".toList = [':'] from rfl, List.append_assoc, List.singleton_append,
    List.splitOn_append_cons_self, List.map_append]

/-- A text without the separator is its own only part. -/
theorem splitAt_of_not_mem {c : Char} {s : String} (h : c ∉ s.toList) : splitAt c s = [s] := by
  rw [splitAt, List.splitOn_eq_singleton h, List.map_cons, List.map_nil, String.ofList_toList]

theorem length_splitAt_pos (c : Char) (s : String) : 1 ≤ (splitAt c s).length := by
  rw [splitAt, List.length_map]
  exact List.length_pos_of_ne_nil (List.splitOn_ne_nil c s.toList)

/-- What is read back from the key of a path and an identifier. -/
theorem extract_pathKey (name path identifier : String) :
    extractKafkaProducer name .idAndPath (path ++ ":" ++ identifier)
      = if ':' ∉ path.toList ∧ ':' ∉ identifier.toList then identifier else name := by
  have hne : path ++ ":" ++ identifier ≠ "" := by
    intro h
    have hlen := congrArg String.length h
    rw [String.length_append, String.length_append] at hlen
    exact absurd hlen (by rw [show ":".length = 1 from rfl]; simp)
  rw [extractKafkaProducer, if_pos hne, splitAt_key]
  by_cases hclean : ':' ∉ path.toList ∧ ':' ∉ identifier.toList
  · rw [if_pos hclean, splitAt_of_not_mem hclean.1, splitAt_of_not_mem hclean.2]
    rfl
  · rw [if_neg hclean]
    -- one more colon means one more part
    have hparts : (splitAt ':' path ++ splitAt ':' identifier).length ≠ 2 := by
      intro hlen
      have hp := length_splitAt_pos ':' path
      have hi := length_splitAt_pos ':' identifier
      rw [List.length_append] at hlen
      have hp1 : (splitAt ':' path).length = 1 := by omega
      have hi1 : (splitAt ':' identifier).length = 1 := by omega
      rw [splitAt, List.length_map] at hp1 hi1
      exact hclean ⟨length_splitOn_eq_one.mp hp1, length_splitOn_eq_one.mp hi1⟩
    split
    · next heq =>
        rw [heq] at hparts
        exact absurd rfl hparts
    · rfl

/-- The key of a message that was built. -/
theorem key_of_built {render : Renderers} {cfg : KafkaProducerConfig} {m : DataMsg}
    {pm : ProducerMessage} (h : dataMsgToKafkaMessage render cfg m = .ok (some pm)) :
    kafkaKey cfg.keySpec m = some pm.key := by
  unfold dataMsgToKafkaMessage at h
  split at h
  · exact nomatch h
  · split at h
    · exact nomatch h
    · exact nomatch h
    · split at h
      · exact nomatch h
      · next key hkey =>
          cases h
          exact hkey

/-- **THE IDENTITY IS READ BACK WHEN THE KEY HAS ONE COLON**: with the key
    specification shared by both sides, the consumer recovers the identifier of
    a message exactly when the key is the identifier alone, or neither the path
    nor the identifier has a colon, or the consumer happens to go by that
    identifier itself. -/
theorem extractKafkaProducer_recovers_iff (render : Renderers) (cfg : KafkaProducerConfig)
    (hspec : cfg.keySpec = .id ∨ cfg.keySpec = .idAndPath) (m : DataMsg)
    (hid : m.getMetaDataIdentifier ≠ "") (pm : ProducerMessage)
    (hpm : dataMsgToKafkaMessage render cfg m = .ok (some pm)) (name : String) :
    extractKafkaProducer name cfg.keySpec pm.key = m.getMetaDataIdentifier ↔
      cfg.keySpec = .id ∨
      (∃ path, keyPath m = some path ∧ ':' ∉ path.toList ∧
        ':' ∉ m.getMetaDataIdentifier.toList) ∨
      name = m.getMetaDataIdentifier := by
  have hkey := key_of_built hpm
  rcases hspec with hs | hs
  · rw [hs] at hkey ⊢
    have hkey' : m.getMetaDataIdentifier = pm.key := Option.some.inj hkey
    rw [← hkey', extractKafkaProducer, if_pos hid]
    exact ⟨fun _ => Or.inl rfl, fun _ => rfl⟩
  · rw [hs] at hkey ⊢
    obtain ⟨path, hpath, hkey'⟩ := Option.map_eq_some_iff.mp hkey
    rw [← hkey', extract_pathKey]
    constructor
    · intro h
      by_cases hclean : ':' ∉ path.toList ∧ ':' ∉ m.getMetaDataIdentifier.toList
      · exact Or.inr (Or.inl ⟨path, hpath, hclean⟩)
      · rw [if_neg hclean] at h
        exact Or.inr (Or.inr h)
    · rintro (h | ⟨path', hpath', hclean⟩ | h)
      · exact nomatch h
      · rw [hpath] at hpath'
        obtain rfl := Option.some.inj hpath'
        exact if_pos hclean
      · rw [h]
        exact ite_self _

/-- A configuration that keeps the stream as it is. -/
def pathAndIdConfig : KafkaProducerConfig := ⟨fun _ => "telemetry", .idAndPath,
  dataMsgStreamSpecDefault⟩

def noRenderers : Renderers :=
  ⟨fun _ _ => .ok none, fun _ => .ok none, fun _ => .ok none, fun _ => .ok none⟩

/-- A message of `r1` about the given path. -/
def msgFromR1 (path : String) : DataMsg :=
  .gpb ⟨[1], "r1",
    { nodeIdStr := none, subscriptionIdStr := none, encodingPath := path
      collectionId := 0, collectionStartTime := 0, msgTimestamp := 0
      dataGpbkv := [], dataGpb := none, collectionEndTime := 0 }⟩

/-- A path without a module name is read back. -/
theorem extractKafkaProducer_recovers_r1 :
    extractKafkaProducer "inkafka" .idAndPath "interfaces:r1" = "r1" :=
  (extractKafkaProducer_recovers_iff noRenderers pathAndIdConfig (Or.inr rfl)
    (msgFromR1 "interfaces") (by decide) ⟨"telemetry", "interfaces:r1", [1]⟩ (by rfl)
    "inkafka").mpr (Or.inr (Or.inl ⟨"interfaces", rfl, by decide, by decide⟩))

/-- A path with its module name is not. -/
theorem extractKafkaProducer_loses_r1 :
    dataMsgToKafkaMessage noRenderers pathAndIdConfig (msgFromR1 "openconfig:interfaces")
        = .ok (some ⟨"telemetry", "openconfig:interfaces:r1", [1]⟩) ∧
      extractKafkaProducer "inkafka" .idAndPath "openconfig:interfaces:r1" ≠ "r1" := by
  constructor
  · rfl
  · decide

end PipelineKafkaKey
