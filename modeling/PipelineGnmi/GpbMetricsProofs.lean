import PipelineGnmi.GpbKvMetricsProofs

/-! # Metrics from GPB messages

    The compact side of `codec_gpb.go` (`produceGPBMetricsForNode`,
    `produceGPBMetrics`) and `produceMetrics`, which chooses between compact
    rows and self-describing ones.

    A compact row is decoded into a generated struct and walked by reflection.
    The walk is driven by the maps of the specification, in whatever order
    `range` visits them (`RangeOrder`), and each node caches, at the first
    struct it meets, the Go names its children go by (`NameCache`). -/

namespace PipelineGpbMetrics

open PipelineMessage PipelineDataMsg PipelineMetricsSpec PipelineGpbKvMetrics

/-! ## Field names -/

/-- `(.*?)(,json|$)`: the shortest run of characters up to `,json` or the end
    of the text. -/
def matchFieldName : List Char → Option (List Char)
  | [] => some []
  | c :: rest =>
      if ",json".toList.isPrefixOf (c :: rest) then some []
      else if c = '\n' then none
      else (matchFieldName rest).map (c :: ·)

/-- `codecGPBFieldNameParser.FindStringSubmatch`: the group of the leftmost
    match. -/
def findFieldName : List Char → Option (List Char)
  | [] => none
  | c :: rest =>
      match
        if "name=".toList.isPrefixOf (c :: rest) then
          matchFieldName ((c :: rest).drop 5)
        else none
      with
      | some m => some m
      | none => findFieldName rest

/-- `codecGPBExtractFieldName`. -/
def codecGPBExtractFieldName (ft : StructField) : String :=
  match ft.tag with
  | none => ft.name
  | some pbt =>
      match findFieldName pbt.toList with
      | none => ft.name
      | some m => String.ofList m

/-- The index `FieldByName` selects. -/
def fieldIndex (typ : List StructField) (name : String) : Option Nat :=
  typ.findIdx? (fun ft => decide (ft.name = name))

/-! ## The walk -/

/-- The orders in which successive `range` loops visit their maps. -/
structure RangeOrder where
  visit : Nat → List (String × MetricsSpecNode) → List (String × MetricsSpecNode)
  perm : ∀ n m, (visit n m).Perm m

/-- The orders of the maps as they are stored. -/
def stored : RangeOrder := ⟨fun _ m => m, fun _ m => List.Perm.refl m⟩

/-- The state of a walk: the nodes whose internal names are cached, the
    internal names, and the number of maps ranged over so far. -/
structure NameCache where
  cached : List (List Nat)
  internalName : List (List Nat × String)
  ranges : Nat

/-- The name to look a child up by. -/
def NameCache.lookupName (c : NameCache) (fieldName : String) (child : MetricsSpecNode) : String :=
  match GoMap.get c.internalName child.ptr with
  | none => fieldName
  | some "" => fieldName
  | some intName => intName

/-- The names a struct type gives to the children of a node. -/
def cacheFieldNames (node : MetricsSpecNode) (typ : List StructField)
    (names : List (List Nat × String)) : List (List Nat × String) :=
  typ.foldl (fun names fldtype =>
    match GoMap.get node.fieldsMap (codecGPBExtractFieldName fldtype) with
    | none => names
    | some childNode => GoMap.set names childNode.ptr fldtype.name) names

/-- The internal names of a node are set up the first time it meets a struct. -/
def cacheInternalNames (node : MetricsSpecNode) (typ : List StructField)
    (c : NameCache) : NameCache :=
  if node.ptr ∈ c.cached then c
  else { c with
    cached := node.ptr :: c.cached
    internalName := cacheFieldNames node typ c.internalName }

/-- A walk of one value for a node of the specification. -/
abbrev Walk := MetricsSpecNode → UInt64 → List MetricsAtom → NameCache →
  List MetricEvent × NameCache

/-- The tags of a level, in the order of the visit; a name the struct does not
    have is only counted. -/
def refTags (h : Handler) (typ : List StructField) (vals : List RefVal) (c : NameCache) :
    List (String × MetricsSpecNode) → List MetricsAtom → List MetricsAtom
  | [], tags => tags
  | (fieldName, child) :: rest, tags =>
      match (fieldIndex typ (c.lookupName fieldName child)).bind (vals[·]?) with
      | none => refTags h typ vals c rest tags
      | some fval =>
          refTags h typ vals c rest (tags ++ [⟨h.adaptTagName fieldName, .reflected fval⟩])

/-- The sensors of a level. -/
def refSensors (typ : List StructField) (vals : List RefVal) (c : NameCache)
    (tags : List MetricsAtom) (timestamp : UInt64) :
    List (String × MetricsSpecNode) → List MetricEvent
  | [] => []
  | (sensorName, sensorNode) :: rest =>
      match (fieldIndex typ (c.lookupName sensorName sensorNode)).bind (vals[·]?) with
      | none => refSensors typ vals c tags timestamp rest
      | some fval =>
          .buildMetric tags ⟨sensorNode.fqName, .reflected fval⟩ timestamp
            :: refSensors typ vals c tags timestamp rest

/-- The containers of a level: each is handed to the walk of its value. -/
def refContainers (typ : List StructField) (walks : List Walk)
    (tags : List MetricsAtom) (timestamp : UInt64) :
    List (String × MetricsSpecNode) → NameCache → List MetricEvent × NameCache
  | [], c => ([], c)
  | (containerName, containerNode) :: rest, c =>
      match (fieldIndex typ (c.lookupName containerName containerNode)).bind (walks[·]?) with
      | none => refContainers typ walks tags timestamp rest c
      | some walk =>
          let r := walk containerNode timestamp tags c
          let r' := refContainers typ walks tags timestamp rest r.2
          (r.1 ++ r'.1, r'.2)

/-- The body of `produceGPBMetricsForNode`, on a struct whose fields are walked
    by `walks`. -/
def structWalk (h : Handler) (order : RangeOrder) (typ : List StructField)
    (vals : List RefVal) (walks : List Walk) : Walk :=
  fun node timestamp tags c =>
    let c := cacheInternalNames node typ c
    let tags := refTags h typ vals c
      (order.visit c.ranges (node.fieldsMapByType .tag)) tags
    let built := refSensors typ vals c tags timestamp
      (order.visit (c.ranges + 1) (node.fieldsMapByType .sensor))
    let flushed : List MetricEvent :=
      if built.length ≠ 0 then [.flushMetric tags timestamp] else []
    let below := refContainers typ walks tags timestamp
      (order.visit (c.ranges + 2) (node.fieldsMapByType .container))
      { c with ranges := c.ranges + 3 }
    (built ++ flushed ++ below.1, below.2)

/-- A value that is not a struct yields nothing. -/
def noWalk : Walk := fun _ _ _ c => ([], c)

mutual

/-- `produceGPBMetricsForNode`, as a function of the value walked. -/
def produceGPBMetricsForNode (h : Handler) (order : RangeOrder) : RefVal → Walk
  | .struct typ vals =>
      structWalk h order typ vals (containerWalks h order vals)
  | _ => noWalk

/-- The value of a container: one level of pointer is followed, a slice is
    walked element by element. -/
def containerWalk (h : Handler) (order : RangeOrder) : RefVal → Walk
  | .ptr v => produceGPBMetricsForNode h order v
  | .struct typ vals =>
      structWalk h order typ vals (containerWalks h order vals)
  | .slice vs => sliceWalk h order vs
  | _ => noWalk

/-- An element of a slice. -/
def elementWalk (h : Handler) (order : RangeOrder) : RefVal → Walk
  | .ptr v => produceGPBMetricsForNode h order v
  | .struct typ vals =>
      structWalk h order typ vals (containerWalks h order vals)
  | _ => noWalk

def sliceWalk (h : Handler) (order : RangeOrder) : List RefVal → Walk
  | [] => noWalk
  | v :: vs => fun node timestamp tags c =>
      let r := elementWalk h order v node timestamp tags c
      let r' := sliceWalk h order vs node timestamp tags r.2
      (r.1 ++ r'.1, r'.2)

def containerWalks (h : Handler) (order : RangeOrder) : List RefVal → List Walk
  | [] => []
  | v :: vs => containerWalk h order v :: containerWalks h order vs

end

/-- The reflection set of an encoding path: what `proto.Unmarshal` makes of the
    octets of a row, complete or not.  `keys` is nil when the path has no key
    message. -/
structure ReflectionSet where
  content : Octets → RefVal
  keys : Option (Octets → RefVal)

/-- `gpbDecodeRow`. -/
structure GpbDecodeRow where
  timestamp : UInt64
  keys : Option RefVal
  content : RefVal

/-- `getGPBDecodedTbl`; the table is cached, which cannot be told from decoding
    it again. -/
def getGPBDecodedTbl (archive : String → Option ReflectionSet) (t : Telemetry) :
    Option (List GpbDecodeRow) :=
  match t.dataGpb with
  | none => none
  | some rows =>
      match archive t.encodingPath with
      | none => none
      | some mapping =>
          some (rows.map (fun row =>
            ⟨row.timestamp, mapping.keys.map (fun decode => decode row.keys),
              mapping.content row.content⟩))

/-- The key fields of a row as tags. -/
def keyTags (h : Handler) : RefVal → List MetricsAtom
  | .struct typ vals => List.zipWith (fun fldType fld =>
      ⟨h.adaptTagName (codecGPBExtractFieldName fldType), .reflected fld⟩) typ vals
  | _ => []

/-- The loop of `produceGPBMetrics` over the decoded rows. -/
def produceGPBRows (h : Handler) (order : RangeOrder) (node : MetricsSpecNode)
    (parentTimestamp : UInt64) (tags : List MetricsAtom) :
    List GpbDecodeRow → NameCache → List MetricEvent × NameCache
  | [], c => ([], c)
  | row :: rest, c =>
      let timestamp := if row.timestamp ≠ 0 then row.timestamp else parentTimestamp
      let tagsCopy := tags ++ (match row.keys with
        | none => []
        | some keys => keyTags h keys)
      let r := produceGPBMetricsForNode h order row.content node timestamp tagsCopy c
      let r' := produceGPBRows h order node parentTimestamp tags rest r.2
      (r.1 ++ r'.1, r'.2)

/-- `produceGPBMetrics`. -/
def produceGPBMetrics (h : Handler) (order : RangeOrder)
    (archive : String → Option ReflectionSet) (node : MetricsSpecNode) (t : Telemetry)
    (tags : List MetricsAtom) (c : NameCache) : List MetricEvent × NameCache :=
  match getGPBDecodedTbl archive t with
  | none => ([], c)
  | some rows => produceGPBRows h order node t.msgTimestamp tags rows c

/-- What a producer runs in: the handler, the specification database, and for
    compact messages the proto archive and the orders of the maps. -/
structure MetricsEnv where
  handler : Handler
  specDB : List (String × MetricsSpecNode)
  archive : String → Option ReflectionSet
  order : RangeOrder

/-- The tags every metric of a GPB message starts with. -/
def baseTags (m : DataMsgGPB) : List MetricsAtom :=
  let nodeId := m.cachedDecode.nodeIdStr.getD ""
  [⟨"EncodingPath", .scalar (.string m.cachedDecode.encodingPath)⟩,
   ⟨"Producer", .scalar (.string (if nodeId = "" then m.source else nodeId))⟩]

/-- `dataMsgGPB.produceMetrics`: the calls made, in order. -/
def produceMetrics (env : MetricsEnv) (m : DataMsgGPB) (c : NameCache) :
    List MetricEvent × NameCache :=
  match GoMap.get env.specDB m.cachedDecode.encodingPath with
  | none => ([], c)
  | some node =>
      match m.cachedDecode.dataGpb with
      | some _ =>
          produceGPBMetrics env.handler env.order env.archive node m.cachedDecode
            (baseTags m) c
      | none => (produceGPBKVMetrics env.handler node m.cachedDecode (baseTags m), c)

/-! ## Self-describing messages -/

/-- **METRIC EXTRACTION IS PATH MATCHING**: over a specification with distinct
    sibling names, a self-describing message with a known path builds one
    metric for each field instance that matches the specification, and no
    other; each carries the sensor's name, the field's value and the innermost
    timestamp. -/
theorem produceMetrics_kv_path_matching (env : MetricsEnv) (specSet : List (String × SpecNode))
    (hdb : buildSpecDB env.handler specSet = .ok env.specDB)
    (hdistinct : ∀ entry ∈ specSet, DistinctSiblings entry.2)
    (m : DataMsgGPB) (hkv : m.cachedDecode.dataGpb = none)
    (hpath : (GoMap.get env.specDB m.cachedDecode.encodingPath).isSome) (c : NameCache) :
    ∃ root, specRoot specSet m.cachedDecode.encodingPath = some root ∧
      ∃ calls : List (List Nat × MetricsAtom × UInt64),
        (calls.map Prod.fst).Nodup ∧
        (∀ addr sensor ts, (addr, sensor, ts) ∈ calls ↔
          PathMatch env.handler root m.cachedDecode addr sensor ts) ∧
        builds (produceMetrics env m c).1 = calls.map Prod.snd := by
  obtain ⟨node, hnode⟩ := Option.isSome_iff_exists.mp hpath
  obtain ⟨root, ptr, hroot, hbuilt⟩ := get_buildSpecDB hdb hnode
  have hdist : DistinctSiblings root := hdistinct _ (specRoot_mem hroot)
  refine ⟨root, hroot, telemetryReadings node m.cachedDecode,
    telemetryReadings_nodup node m.cachedDecode, ?_, ?_⟩
  · intro addr sensor ts
    exact mem_telemetryReadings_iff_pathMatch hbuilt hdist m.cachedDecode addr sensor ts
  · simp only [produceMetrics, hnode, hkv]
    exact builds_produceGPBKVMetrics env.handler node m.cachedDecode (baseTags m)

/-- An interface specification: a sensor beside a container with a tag and a
    sensor. -/
def sampleSpec : List (String × SpecNode) :=
  [("intf", .node "" false false
    [.node "up" false false [],
     .node "stats" false false [.node "if" true false [], .node "bytes" false false []]])]

/-- A handler that keeps the names, with `%v` of the values of the samples. -/
def sampleHandler : Handler where
  adaptSensorName := id
  adaptTagName := id
  sprintAtom := fun v => match v with
    | .scalar (.string s) => s
    | .scalar (.bool b) => toString b
    | .scalar (.uint32 n) => toString n.toNat
    | .scalar (.uint64 n) => toString n.toNat
    | _ => "<nil>"
  sprintNode := fun _ => ""

def sampleEnv : MetricsEnv where
  handler := sampleHandler
  specDB :=
    match buildSpecDB sampleHandler sampleSpec with
    | .ok db => db
    | .error _ => []
  archive := fun _ => none
  order := stored

/-- One row: a leaf list inside a container with a timestamp of its own. -/
def sampleKv : DataMsgGPB :=
  ⟨[], "r1",
    { nodeIdStr := none, subscriptionIdStr := none, encodingPath := "intf"
      collectionId := 0, collectionStartTime := 0, msgTimestamp := 7
      dataGpbkv :=
        [.mk 0 "" none
          [.mk 0 "keys" none [.mk 0 "name" (some (.string "eth0")) []],
           .mk 0 "content" none
            [.mk 5 "stats" none
              [.mk 0 "bytes" (some (.uint64 3)) [], .mk 0 "bytes" (some (.uint64 4)) []],
             .mk 0 "up" (some (.bool true)) [], .mk 0 "other" (some (.bool true)) []]]]
      dataGpb := none, collectionEndTime := 0 }⟩

theorem sampleSpec_distinct : ∀ entry ∈ sampleSpec, DistinctSiblings entry.2 := by
  have hleaf : ∀ name tag, DistinctSiblings (.node name tag false []) :=
    fun _ _ => .node List.nodup_nil (fun _ hc => nomatch hc)
  simp only [sampleSpec, List.forall_mem_singleton]
  refine .node (by decide) ?_
  simp only [List.forall_mem_cons]
  refine ⟨hleaf _ _, .node (by decide) ?_, fun _ hc => nomatch hc⟩
  simp only [List.forall_mem_cons]
  exact ⟨hleaf _ _, hleaf _ _, fun _ hc => nomatch hc⟩

/-- The sample reads the container's leaf list at the container's time, and the
    sensor beside it at the message's. -/
theorem produceMetrics_kv_sample :
    builds (produceMetrics sampleEnv sampleKv ⟨[], [], 0⟩).1
        = [(⟨"up", .scalar (.bool true)⟩, 7), (⟨"stats__bytes", .scalar (.uint64 3)⟩, 5),
            (⟨"stats__bytes", .scalar (.uint64 4)⟩, 5)] ∧
      ∃ root, specRoot sampleSpec "intf" = some root ∧
        ∃ calls : List (List Nat × MetricsAtom × UInt64),
          (calls.map Prod.fst).Nodup ∧
          (∀ addr sensor ts, (addr, sensor, ts) ∈ calls ↔
            PathMatch sampleEnv.handler root sampleKv.cachedDecode addr sensor ts) ∧
          builds (produceMetrics sampleEnv sampleKv ⟨[], [], 0⟩).1 = calls.map Prod.snd :=
  ⟨rfl, produceMetrics_kv_path_matching sampleEnv sampleSpec rfl sampleSpec_distinct
    sampleKv rfl rfl ⟨[], [], 0⟩⟩

end PipelineGpbMetrics
