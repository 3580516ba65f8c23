import PipelineGnmi.GpbMetricsProofs

/-! # Groups of metrics and their tags

    An output handler accumulates the sensors of `buildMetric` and attaches the
    tags of the next `flushMetric` to all of them (`metrics_influx.go`).  So a
    group of metrics is tagged right only if every `buildMetric` since the last
    flush was made with the tags of the flush: `TagCoherent`.

    Both GPB producers flush each level with the tags it was built with, so
    their calls fall into settled groups (`Settled`), one after the other.  The
    gNMI producer (`codec_gnmi.go`) builds each update with the keys of its own
    path and flushes once, with the keys of the prefix. -/

namespace PipelineTagCoherence

open PipelineMessage PipelineDataMsg PipelineMetricsSpec PipelineGpbKvMetrics
open PipelineGpbMetrics

/-! ## Metrics from gNMI messages -/

/-- The loop over the elements of the prefix: the path so far and the tags so
    far. -/
def prefixElems : List GnmiPathElem → String → List MetricsAtom → String × List MetricsAtom
  | [], path, tags => (path, tags)
  | elem :: rest, path, tags =>
      let path := path ++ elem.name ++ "/"
      prefixElems rest path
        (tags ++ elem.key.map (fun kv => ⟨path ++ kv.1, .scalar (.string kv.2)⟩))

/-- The loop over the elements of an update's path. -/
def updateElems : List GnmiPathElem → String → List MetricsAtom → String × List MetricsAtom
  | [], path, tags => (path, tags)
  | elem :: rest, path, tags =>
      let path := path ++ elem.name
      let path := if rest.length > 0 then path ++ "/" else path
      updateElems rest path
        (tags ++ elem.key.map (fun kv => ⟨path ++ kv.1, .scalar (.string kv.2)⟩))

/-- The values the gNMI producer exports. -/
def gnmiValue : GnmiTypedValue → Option AtomVal
  | .asciiVal s => some (.scalar (.string s))
  | .boolVal b => some (.scalar (.bool b))
  | .bytesVal b => some (.scalar (.bytes b))
  | .decimalVal digits precision => some (.decimal64 digits precision)
  | .floatVal bits => some (.scalar (.float bits))
  | .intVal n => some (.scalar (.sint64 n))
  | .stringVal s => some (.scalar (.string s))
  | .uintVal n => some (.scalar (.uint64 n))
  | _ => none

/-- The loop over the updates; an update without a path or a value is a nil
    pointer. -/
def produceUpdates (path : String) (tags : List MetricsAtom) (timestamp : UInt64) :
    List GnmiUpdate → List MetricEvent × Option Failure
  | [] => ([], none)
  | update :: rest =>
      match update.path with
      | none => ([], some .nilPointer)
      | some upath =>
          let metric := updateElems upath.elem path tags
          match update.val with
          | none => ([], some .nilPointer)
          | some value =>
              let r := produceUpdates path tags timestamp rest
              match gnmiValue value with
              | none => r
              | some val => (.buildMetric metric.2 ⟨metric.1, val⟩ timestamp :: r.1, r.2)

/-- The path and the tags of a prefix. -/
def prefixTags (source : MsgProducer) (p : GnmiPath) : String × List MetricsAtom :=
  let start := if p.origin ≠ "" then p.origin ++ ":" else "/"
  let r := prefixElems p.elem start
    [⟨"Producer", .scalar (.string source)⟩, ⟨"Target", .scalar (.string p.target)⟩]
  (r.1, ⟨"EncodingPath", .scalar (.string (String.ofList r.1.toList.dropLast))⟩ :: r.2)

/-- `dataMsgGNMI.produceMetrics`: the calls made, and the panic that ended them
    if one did. -/
def produceMetricsGNMI (m : DataMsgGNMI) : List MetricEvent × Option Failure :=
  let timestamp := (m.notification.timestamp / 1000000).toUInt64
  match m.notification.pfx with
  | none => ([], some .nilPointer)
  | some p =>
      let common := prefixTags m.source p
      let r := produceUpdates common.1 common.2 timestamp m.notification.update
      match r.2 with
      | some failure => (r.1, some failure)
      | none =>
          (r.1 ++ (if r.1.length ≠ 0 then [.flushMetric common.2 timestamp] else []), none)

/-- `produceMetrics` of each kind of message. -/
def produceMetrics (env : MetricsEnv) (c : NameCache) :
    DataMsg → List MetricEvent × Option Failure
  | .gpb m => ((PipelineGpbMetrics.produceMetrics env m c).1, none)
  | .json _ => ([], some (.error "JSON CODEC: metric extraction unsupported"))
  | .gnmi m => produceMetricsGNMI m

/-! ## Coherence -/

/-- The tags of the builds a flush would close, after the events. -/
def pendingTags : List (List MetricsAtom) → List MetricEvent → List (List MetricsAtom)
  | pend, [] => pend
  | pend, .buildMetric tags _ _ :: rest => pendingTags (pend ++ [tags]) rest
  | _, .flushMetric _ _ :: rest => pendingTags [] rest
  | pend, .statRecordUpdate _ _ :: rest => pendingTags pend rest

/-- Every flush has the tags of the builds it closes, `pend` being open at the
    start. -/
def CoherentFrom : List (List MetricsAtom) → List MetricEvent → Prop
  | _, [] => True
  | pend, .buildMetric tags _ _ :: rest => CoherentFrom (pend ++ [tags]) rest
  | pend, .flushMetric tags _ :: rest => (∀ p ∈ pend, p = tags) ∧ CoherentFrom [] rest
  | pend, .statRecordUpdate _ _ :: rest => CoherentFrom pend rest

/-- Whenever tags are flushed, every build since the previous flush was made
    with those tags. -/
def TagCoherent (evs : List MetricEvent) : Prop := CoherentFrom [] evs

theorem coherentFrom_append (b : List MetricEvent) :
    ∀ (a : List MetricEvent) (pend : List (List MetricsAtom)),
      CoherentFrom pend (a ++ b) ↔
        CoherentFrom pend a ∧ CoherentFrom (pendingTags pend a) b := by
  intro a
  induction a with
  | nil => intro pend; exact ⟨fun h => ⟨trivial, h⟩, fun h => h.2⟩
  | cons ev rest ih =>
      intro pend
      cases ev with
      | buildMetric tags sensor ts => exact ih _
      | statRecordUpdate key ts => exact ih _
      | flushMetric tags ts =>
          rw [List.cons_append, CoherentFrom, CoherentFrom, pendingTags, ih, and_assoc]

theorem pendingTags_append (b : List MetricEvent) :
    ∀ (a : List MetricEvent) (pend : List (List MetricsAtom)),
      pendingTags pend (a ++ b) = pendingTags (pendingTags pend a) b := by
  intro a
  induction a with
  | nil => intro pend; rfl
  | cons ev rest ih =>
      intro pend
      cases ev with
      | buildMetric tags sensor ts => exact ih _
      | statRecordUpdate key ts => exact ih _
      | flushMetric tags ts => exact ih _

/-- Calls that fall into closed, coherent groups. -/
structure Settled (evs : List MetricEvent) : Prop where
  coherent : TagCoherent evs
  closed : pendingTags [] evs = []

theorem settled_nil : Settled [] := ⟨trivial, rfl⟩

/-- **SETTLED CALLS COMPOSE**. -/
theorem Settled.append {a b : List MetricEvent} (ha : Settled a) (hb : Settled b) :
    Settled (a ++ b) := by
  constructor
  · refine (coherentFrom_append b a []).mpr ⟨ha.coherent, ?_⟩
    rw [ha.closed]
    exact hb.coherent
  · rw [pendingTags_append, ha.closed, hb.closed]

variable (path : String) (tags : List MetricsAtom) (h : Handler) (node : MetricsSpecNode)
  (timestamp : UInt64)

/-- A build with the given tags, or a statistics update. -/
def OwnTags (tags : List MetricsAtom) : MetricEvent → Prop
  | .buildMetric btags _ _ => btags = tags
  | .flushMetric _ _ => False
  | .statRecordUpdate _ _ => True

/-- Calls of one level open their own tags only. -/
theorem pendingTags_own {tags : List MetricsAtom} :
    ∀ {evs : List MetricEvent} (pend : List (List MetricsAtom)),
      (∀ ev ∈ evs, OwnTags tags ev) →
      CoherentFrom pend evs ∧
        pendingTags pend evs = pend ++ (builds evs).map (fun _ => tags) := by
  intro evs
  induction evs with
  | nil => intro pend _; exact ⟨trivial, (List.append_nil pend).symm⟩
  | cons ev rest ih =>
      intro pend hown
      have hev := hown ev (List.mem_cons_self ..)
      have hrest : ∀ ev ∈ rest, OwnTags tags ev :=
        fun e he => hown e (List.mem_cons_of_mem _ he)
      cases ev with
      | buildMetric btags sensor ts =>
          obtain ⟨hc, hp⟩ := ih (pend ++ [btags]) hrest
          obtain rfl : btags = tags := hev
          refine ⟨hc, ?_⟩
          rw [pendingTags, hp, List.append_assoc]
          rfl
      | flushMetric ftags ts => exact hev.elim
      | statRecordUpdate key ts => exact ih pend hrest

/-- A level that flushes its own tags, if it built anything, is settled. -/
theorem settled_group {tags : List MetricsAtom} {evs : List MetricEvent}
    (hown : ∀ ev ∈ evs, OwnTags tags ev) (ts : UInt64) {written : Prop}
    [Decidable written] (hwritten : ¬ written → builds evs = []) :
    Settled (evs ++ if written then [.flushMetric tags ts] else []) := by
  obtain ⟨hc, hp⟩ := pendingTags_own [] hown
  -- the flush closes what is open, and without one nothing was opened
  by_cases hw : written
  · rw [if_pos hw]
    constructor
    · refine (coherentFrom_append _ evs []).mpr ⟨hc, ?_, trivial⟩
      intro p hpend
      rw [hp, List.nil_append] at hpend
      obtain ⟨_, -, rfl⟩ := List.mem_map.mp hpend
      rfl
    · rw [pendingTags_append]
      rfl
  · rw [if_neg hw, List.append_nil]
    rw [hwritten hw] at hp
    exact ⟨hc, hp⟩

/-! ## Self-describing messages -/

/-- The sensor pass opens its own tags, and `written` tells whether it did. -/
theorem sensorPass_own (fieldsMap : List (String × MetricsSpecNode)) (tags : List MetricsAtom)
    (timestamp : UInt64) :
    ∀ (fields : List TelemetryField) (ts : UInt64) (written : Bool),
      (∀ ev ∈ (sensorPass h fieldsMap tags timestamp fields ts written).1,
        OwnTags tags ev) ∧
      ((sensorPass h fieldsMap tags timestamp fields ts written).2.2 = false →
        written = false ∧
          builds (sensorPass h fieldsMap tags timestamp fields ts written).1 = []) := by
  intro fields
  induction fields with
  | nil =>
      intro ts written
      exact ⟨fun _ hev => absurd hev List.not_mem_nil, fun hw => ⟨hw, rfl⟩⟩
  | cons field rest ih =>
      intro ts written
      rw [sensorPass]
      cases GoMap.get fieldsMap field.name with
      | none => exact ih ts written
      | some child =>
          have htracked : ∀ ev ∈ (if child.track then
              [MetricEvent.statRecordUpdate (trackKey h child.fqName tags)
                (chooseTimestamp field.timestamp timestamp)] else []),
              OwnTags tags ev := by
            intro ev hev
            split at hev
            · rw [List.mem_singleton.mp hev]
              trivial
            · exact absurd hev List.not_mem_nil
          have hbuilds : builds (if child.track then
              [MetricEvent.statRecordUpdate (trackKey h child.fqName tags)
                (chooseTimestamp field.timestamp timestamp)] else []) = [] := by
            split <;> rfl
          cases extractGPBKVNativeTypeFromOneof field false with
          | none =>
              obtain ⟨hown, hw⟩ := ih (chooseTimestamp field.timestamp timestamp) written
              refine ⟨List.forall_mem_append.mpr ⟨htracked, hown⟩, ?_⟩
              intro hwritten
              obtain ⟨hw0, hb⟩ := hw hwritten
              exact ⟨hw0, by rw [builds_append, hbuilds, hb]; rfl⟩
          | some v =>
              obtain ⟨hown, hw⟩ := ih (chooseTimestamp field.timestamp timestamp) true
              refine ⟨List.forall_mem_append.mpr
                ⟨htracked, List.forall_mem_cons.mpr ⟨rfl, hown⟩⟩, ?_⟩
              -- `written` stays set once a sensor was built
              intro hwritten
              exact Bool.noConfusion (hw hwritten).1

theorem settled_levelEvents (fields : List TelemetryField) (timestamp : UInt64)
    (tags : List MetricsAtom) : Settled (levelEvents h node fields timestamp tags) := by
  obtain ⟨hown, hw⟩ := sensorPass_own h (node.fieldsMapByType .sensor) tags timestamp
    fields 0 false
  exact settled_group hown _ (fun hwritten => (hw (Bool.eq_false_of_not_eq_true hwritten)).2)

mutual

theorem settled_forField (h : Handler) :
    ∀ (f : TelemetryField) (node : MetricsSpecNode) (timestamp : UInt64)
      (tags : List MetricsAtom),
      Settled (produceGPBKVMetricsForField h f node timestamp tags)
  | .mk own name v sub, node, timestamp, tags => by
      unfold produceGPBKVMetricsForField
      cases GoMap.get (node.fieldsMapByType .container) name with
      | none => exact settled_nil
      | some child =>
          exact (settled_levelEvents h child sub _ _).append
            (settled_forFields h sub child _ _)

theorem settled_forFields (h : Handler) :
    ∀ (fields : List TelemetryField) (node : MetricsSpecNode) (timestamp : UInt64)
      (tags : List MetricsAtom),
      Settled (produceGPBKVMetricsForFields h fields node timestamp tags)
  | [], _, _, _ => settled_nil
  | f :: rest, node, timestamp, tags =>
      (settled_forField h f node timestamp tags).append
        (settled_forFields h rest node timestamp tags)

end

theorem settled_row :
    ∀ (fields : List TelemetryField) (tags : List MetricsAtom),
      Settled (produceGPBKVRow h node timestamp fields tags) := by
  intro fields
  induction fields with
  | nil => intro tags; exact settled_nil
  | cons kcfield rest ih =>
      intro tags
      refine Settled.append ?_ (ih _)
      split
      · exact (settled_levelEvents h node _ _ _).append (settled_forFields h _ node _ _)
      · exact settled_nil

/-- **SELF-DESCRIBING MESSAGES SETTLE**. -/
theorem settled_produceGPBKVMetrics (t : Telemetry) (tags : List MetricsAtom) :
    Settled (produceGPBKVMetrics h node t tags) := by
  unfold produceGPBKVMetrics
  induction t.dataGpbkv with
  | nil => exact settled_nil
  | cons row rest ih => exact (settled_row h node _ row.fields tags).append ih

/-! ## Compact messages -/

/-- The sensors a level of a struct builds, in the order of the visit. -/
def presentSensors (typ : List StructField) (vals : List RefVal) (c : NameCache)
    (sensors : List (String × MetricsSpecNode)) : List MetricsAtom :=
  sensors.filterMap (fun e =>
    ((fieldIndex typ (c.lookupName e.1 e.2)).bind (vals[·]?)).map
      (fun fval => ⟨e.2.fqName, .reflected fval⟩))

theorem refSensors_eq (typ : List StructField) (vals : List RefVal) (c : NameCache)
    (tags : List MetricsAtom) (timestamp : UInt64) :
    ∀ sensors : List (String × MetricsSpecNode),
      refSensors typ vals c tags timestamp sensors
        = (presentSensors typ vals c sensors).map
            (fun sensor => .buildMetric tags sensor timestamp) := by
  intro sensors
  induction sensors with
  | nil => rfl
  | cons entry rest ih =>
      obtain ⟨sensorName, sensorNode⟩ := entry
      rw [refSensors, presentSensors, List.filterMap_cons, ih]
      dsimp only
      cases (fieldIndex typ (c.lookupName sensorName sensorNode)).bind (vals[·]?) with
      | none => rfl
      | some fval => rfl

/-- What can be shown of calls level by level: of the sensors of one level and the
    flush behind them, if there are any, and of one piece after the other. -/
structure LevelRule (P : List MetricEvent → Prop) : Prop where
  nil : P []
  append : ∀ {a b : List MetricEvent}, P a → P b → P (a ++ b)
  level : ∀ (tags : List MetricsAtom) (timestamp : UInt64) (sensors : List MetricsAtom),
    P (sensors.map (fun sensor => .buildMetric tags sensor timestamp)
      ++ if (sensors.map (fun sensor => MetricEvent.buildMetric tags sensor timestamp)).length ≠ 0
        then [.flushMetric tags timestamp] else [])

section Walks

variable {P : List MetricEvent → Prop}

/-- A walk whose calls are so, from any state. -/
def WalkAll (P : List MetricEvent → Prop) (w : Walk) : Prop :=
  ∀ node timestamp tags c, P (w node timestamp tags c).1

theorem refContainers_all (hP : LevelRule P) {typ : List StructField} {walks : List Walk}
    (hwalks : ∀ w ∈ walks, WalkAll P w) (tags : List MetricsAtom) (timestamp : UInt64) :
    ∀ (containers : List (String × MetricsSpecNode)) (c : NameCache),
      P (refContainers typ walks tags timestamp containers c).1 := by
  intro containers
  induction containers with
  | nil => intro c; exact hP.nil
  | cons entry rest ih =>
      obtain ⟨containerName, containerNode⟩ := entry
      intro c
      rw [refContainers]
      split
      · exact ih c
      · next walk hwalk =>
          obtain ⟨i, -, hi⟩ := Option.bind_eq_some_iff.mp hwalk
          exact hP.append (hwalks walk (List.mem_of_getElem? hi) _ _ _ _) (ih _)

/-- A struct is so if the values of its fields are. -/
theorem walkAll_struct (hP : LevelRule P) (h : Handler) (order : RangeOrder)
    (typ : List StructField) (vals : List RefVal) {walks : List Walk}
    (hwalks : ∀ w ∈ walks, WalkAll P w) : WalkAll P (structWalk h order typ vals walks) := by
  intro node timestamp tags c
  refine hP.append ?_ (refContainers_all hP hwalks _ _ _ _)
  rw [refSensors_eq]
  exact hP.level _ timestamp _

mutual

theorem walkAll_forNode (hP : LevelRule P) (h : Handler) (order : RangeOrder) :
    ∀ v : RefVal, WalkAll P (produceGPBMetricsForNode h order v)
  | .struct typ vals => walkAll_struct hP h order typ vals (walkAll_containers hP h order vals)
  | .scalar _ => fun _ _ _ _ => hP.nil
  | .nilPtr => fun _ _ _ _ => hP.nil
  | .ptr _ => fun _ _ _ _ => hP.nil
  | .slice _ => fun _ _ _ _ => hP.nil

theorem walkAll_container (hP : LevelRule P) (h : Handler) (order : RangeOrder) :
    ∀ v : RefVal, WalkAll P (containerWalk h order v)
  | .ptr v => walkAll_forNode hP h order v
  | .struct typ vals => walkAll_struct hP h order typ vals (walkAll_containers hP h order vals)
  | .slice vs => walkAll_slice hP h order vs
  | .scalar _ => fun _ _ _ _ => hP.nil
  | .nilPtr => fun _ _ _ _ => hP.nil

theorem walkAll_element (hP : LevelRule P) (h : Handler) (order : RangeOrder) :
    ∀ v : RefVal, WalkAll P (elementWalk h order v)
  | .ptr v => walkAll_forNode hP h order v
  | .struct typ vals => walkAll_struct hP h order typ vals (walkAll_containers hP h order vals)
  | .scalar _ => fun _ _ _ _ => hP.nil
  | .nilPtr => fun _ _ _ _ => hP.nil
  | .slice _ => fun _ _ _ _ => hP.nil

theorem walkAll_slice (hP : LevelRule P) (h : Handler) (order : RangeOrder) :
    ∀ vs : List RefVal, WalkAll P (sliceWalk h order vs)
  | [] => fun _ _ _ _ => hP.nil
  | v :: vs => fun node timestamp tags c =>
      hP.append (walkAll_element hP h order v node timestamp tags c)
        (walkAll_slice hP h order vs node timestamp tags _)

theorem walkAll_containers (hP : LevelRule P) (h : Handler) (order : RangeOrder) :
    ∀ vs : List RefVal, ∀ w ∈ containerWalks h order vs, WalkAll P w
  | [] => fun _ hw => absurd hw List.not_mem_nil
  | v :: vs => List.forall_mem_cons.mpr
      ⟨walkAll_container hP h order v, walkAll_containers hP h order vs⟩

end

/-- **COMPACT MESSAGES, LEVEL BY LEVEL**, in any order of the maps. -/
theorem produceGPBMetrics_all (hP : LevelRule P) (h : Handler) (order : RangeOrder)
    (archive : String → Option ReflectionSet) (node : MetricsSpecNode) (t : Telemetry)
    (tags : List MetricsAtom) (c : NameCache) :
    P (produceGPBMetrics h order archive node t tags c).1 := by
  have hrows : ∀ (rows : List GpbDecodeRow) (c : NameCache),
      P (produceGPBRows h order node t.msgTimestamp tags rows c).1 := by
    intro rows
    induction rows with
    | nil => intro c; exact hP.nil
    | cons row rest ih =>
        intro c
        exact hP.append (walkAll_forNode hP h order row.content node _ _ c) (ih _)
  unfold produceGPBMetrics
  split
  · exact hP.nil
  · exact hrows _ c

end Walks

theorem levelRule_settled : LevelRule Settled where
  nil := settled_nil
  append := Settled.append
  level := by
    intro tags timestamp sensors
    refine settled_group ?_ timestamp ?_
    · exact List.forall_mem_map.mpr fun _ _ => rfl
    · intro hzero
      rw [not_not, List.length_eq_zero_iff] at hzero
      rw [hzero]
      rfl

/-- **COMPACT MESSAGES SETTLE**, in any order of the maps. -/
theorem settled_produceGPBMetrics (order : RangeOrder) (archive : String → Option ReflectionSet)
    (node : MetricsSpecNode) (t : Telemetry) (tags : List MetricsAtom) (c : NameCache) :
    Settled (produceGPBMetrics h order archive node t tags c).1 :=
  produceGPBMetrics_all levelRule_settled h order archive node t tags c

/-- Both kinds of GPB message settle. -/
theorem settled_produceMetrics (env : MetricsEnv) (m : DataMsgGPB) (c : NameCache) :
    Settled (PipelineGpbMetrics.produceMetrics env m c).1 := by
  unfold PipelineGpbMetrics.produceMetrics
  split
  · exact settled_nil
  · split
    · exact settled_produceGPBMetrics _ _ _ _ _ _ c
    · exact settled_produceGPBKVMetrics _ _ _ _

/-! ## gNMI messages -/

/-- The keys of an update's path are appended to the tags. -/
theorem updateElems_tags :
    ∀ (elems : List GnmiPathElem) (path : String) (tags : List MetricsAtom),
      (updateElems elems path tags).2 = tags ↔ ∀ e ∈ elems, e.key = [] := by
  -- appended tags are never taken back, so the length tells whether there were any
  have hlen : ∀ (elems : List GnmiPathElem) (path : String) (tags : List MetricsAtom),
      (updateElems elems path tags).2.length
        = tags.length + (elems.map (fun e => e.key.length)).sum := by
    intro elems
    induction elems with
    | nil => intro path tags; rfl
    | cons e rest ih =>
        intro path tags
        rw [updateElems, ih, List.length_append, List.length_map, List.map_cons,
          List.sum_cons, Nat.add_assoc]
  intro elems
  induction elems with
  | nil => intro path tags; exact ⟨fun _ _ he => (nomatch he), fun _ => rfl⟩
  | cons e rest ih =>
      intro path tags
      rw [List.forall_mem_cons]
      constructor
      · intro heq
        have hl := hlen (e :: rest) path tags
        rw [heq, List.map_cons, List.sum_cons] at hl
        have hkey : e.key = [] := List.length_eq_zero_iff.mp (by omega)
        rw [updateElems, hkey, List.map_nil, List.append_nil] at heq
        exact ⟨hkey, (ih _ _).mp heq⟩
      · rintro ⟨hkey, hrest⟩
        rw [updateElems, hkey, List.map_nil, List.append_nil]
        exact (ih _ _).mpr hrest

/-- No update of the list is missing its path or its value. -/
def Complete (updates : List GnmiUpdate) : Prop :=
  ∀ u ∈ updates, u.path.isSome ∧ u.val.isSome

/-- Every update the producer exports has a path without keys. -/
def Keyless (updates : List GnmiUpdate) : Prop :=
  ∀ u ∈ updates, ∀ p v, u.path = some p → u.val = some v → (gnmiValue v).isSome →
    ∀ e ∈ p.elem, e.key = []

/-- One update with its path and value. -/
theorem produceUpdates_cons {u : GnmiUpdate} {p : GnmiPath} {v : GnmiTypedValue}
    (hp : u.path = some p) (hv : u.val = some v) (path : String)
    (tags : List MetricsAtom) (timestamp : UInt64) (rest : List GnmiUpdate) :
    produceUpdates path tags timestamp (u :: rest) =
      match gnmiValue v with
      | none => produceUpdates path tags timestamp rest
      | some val =>
          (.buildMetric (updateElems p.elem path tags).2
              ⟨(updateElems p.elem path tags).1, val⟩ timestamp
            :: (produceUpdates path tags timestamp rest).1,
            (produceUpdates path tags timestamp rest).2) := by
  simp only [produceUpdates, hp, hv]

/-- A nil path or value is where the updates end in a panic. -/
theorem produceUpdates_failed : ∀ updates : List GnmiUpdate,
      (produceUpdates path tags timestamp updates).2 = none ↔ Complete updates := by
  intro updates
  induction updates with
  | nil => exact ⟨fun _ _ hu => (nomatch hu), fun _ => rfl⟩
  | cons u rest ih =>
      unfold Complete at ih ⊢
      rw [List.forall_mem_cons, ← ih]
      cases hp : u.path with
      | none => simp [produceUpdates, hp]
      | some p =>
          cases hv : u.val with
          | none => simp [produceUpdates, hp, hv]
          | some v =>
              rw [produceUpdates_cons hp hv]
              cases gnmiValue v <;> simp

/-- What the updates leave pending: builds that carry exactly the common tags
    if and only if the exported updates have no keys. -/
theorem produceUpdates_pending : ∀ updates : List GnmiUpdate, Complete updates →
      ∀ pend : List (List MetricsAtom),
        (∀ p ∈ pendingTags pend (produceUpdates path tags timestamp updates).1, p = tags) ↔
          (∀ p ∈ pend, p = tags) ∧ Keyless updates := by
  intro updates
  induction updates with
  | nil =>
      intro _ pend
      exact ⟨fun h => ⟨h, fun _ hu => (nomatch hu)⟩, fun h => h.1⟩
  | cons u rest ih =>
      intro hcomplete pend
      unfold Complete at hcomplete
      rw [List.forall_mem_cons] at hcomplete
      obtain ⟨⟨hpath, hval⟩, hrest⟩ := hcomplete
      obtain ⟨p, hp⟩ := Option.isSome_iff_exists.mp hpath
      obtain ⟨v, hv⟩ := Option.isSome_iff_exists.mp hval
      have hsplit : Keyless (u :: rest) ↔
          ((gnmiValue v).isSome → ∀ e ∈ p.elem, e.key = []) ∧ Keyless rest := by
        unfold Keyless
        rw [List.forall_mem_cons, hp, hv]
        simp
      rw [produceUpdates_cons hp hv, hsplit]
      cases gnmiValue v with
      | none => simpa using ih hrest pend
      | some val =>
          refine (ih hrest (pend ++ [(updateElems p.elem path tags).2])).trans ?_
          rw [List.forall_mem_append, List.forall_mem_singleton, updateElems_tags, and_assoc]
          simp

/-- The updates are coherent in themselves: nothing is flushed among them. -/
theorem produceUpdates_coherent : ∀ (updates : List GnmiUpdate)
      (pend : List (List MetricsAtom)),
      CoherentFrom pend (produceUpdates path tags timestamp updates).1 := by
  intro updates
  induction updates with
  | nil => intro pend; trivial
  | cons u rest ih =>
      intro pend
      cases hp : u.path with
      | none => simp only [produceUpdates, hp, CoherentFrom]
      | some p =>
          cases hv : u.val with
          | none => simp only [produceUpdates, hp, hv, CoherentFrom]
          | some v =>
              rw [produceUpdates_cons hp hv]
              cases gnmiValue v with
              | none => exact ih pend
              | some val => exact ih _

/-- The keys of a gNMI message all stand in its prefix, as far as its updates
    are exported; other messages have no such keys. -/
def KeysInPrefix : DataMsg → Prop
  | .gpb _ => True
  | .json _ => True
  | .gnmi m => m.notification.pfx.isSome → Complete m.notification.update →
      Keyless m.notification.update

/-- The calls of a gNMI message are coherent exactly when its keys stand in the
    prefix. -/
theorem coherent_produceMetricsGNMI (m : DataMsgGNMI) :
    TagCoherent (produceMetricsGNMI m).1 ↔
      (m.notification.pfx.isSome → Complete m.notification.update →
        Keyless m.notification.update) := by
  cases hp : m.notification.pfx with
  | none =>
      simp only [produceMetricsGNMI, hp]
      exact ⟨fun _ h => (nomatch h), fun _ => trivial⟩
  | some p =>
      let path := (prefixTags m.source p).1
      let tags := (prefixTags m.source p).2
      let ts := (m.notification.timestamp / 1000000).toUInt64
      have hfailed := produceUpdates_failed path tags ts m.notification.update
      have hcoherent := produceUpdates_coherent path tags ts m.notification.update []
      by_cases hc : Complete m.notification.update
      · have hpending := produceUpdates_pending path tags ts m.notification.update hc []
        have hevents : (produceMetricsGNMI m).1
            = (produceUpdates path tags ts m.notification.update).1 ++
              (if (produceUpdates path tags ts m.notification.update).1.length ≠ 0 then
                [.flushMetric tags ts] else []) := by
          simp only [produceMetricsGNMI, hp]
          rw [hfailed.mpr hc]
        rw [TagCoherent, hevents, coherentFrom_append]
        have hkeyless : (∀ q ∈ pendingTags []
            (produceUpdates path tags ts m.notification.update).1, q = tags) ↔
            Keyless m.notification.update :=
          hpending.trans ⟨fun h => h.2, fun h => ⟨fun _ hq => (nomatch hq), h⟩⟩
        constructor
        · rintro ⟨-, hflush⟩ _ _
          refine hkeyless.mp ?_
          by_cases hnil : (produceUpdates path tags ts m.notification.update).1 = []
          · rw [hnil]
            exact fun _ hq => nomatch hq
          · rw [if_pos (fun h0 => hnil (List.length_eq_zero_iff.mp h0))] at hflush
            exact hflush.1
        · intro hkeys
          refine ⟨hcoherent, ?_⟩
          split
          · exact ⟨hkeyless.mpr (hkeys rfl hc), trivial⟩
          · trivial
      · have hevents : (produceMetricsGNMI m).1
            = (produceUpdates path tags ts m.notification.update).1 := by
          simp only [produceMetricsGNMI, hp]
          split
          · rfl
          · next hnone => exact absurd (hfailed.mp hnone) hc
        rw [hevents]
        exact ⟨fun _ _ hcomplete => absurd hcomplete hc, fun _ => hcoherent⟩

/-- **FLUSHED GROUPS ARE COHERENT WHEN THE KEYS STAND IN THE PREFIX**, and only
    then: for every message of every kind. -/
theorem produceMetrics_tagCoherent_iff (env : MetricsEnv) (c : NameCache) (m : DataMsg) :
    TagCoherent (produceMetrics env c m).1 ↔ KeysInPrefix m := by
  cases m with
  | gpb m => exact ⟨fun _ => trivial, fun _ => (settled_produceMetrics env m c).coherent⟩
  | json m => exact ⟨fun _ => trivial, fun _ => trivial⟩
  | gnmi m => exact coherent_produceMetricsGNMI m

/-- An interface counter, keyed by the interface in the path of the update. -/
def keyedUpdate : DataMsg :=
  .gnmi ⟨[], "r1",
    { timestamp := 0
      pfx := some ⟨"", [], ""⟩
      update := [⟨some ⟨"", [⟨"interface", [("name", "eth0")]⟩, ⟨"mtu", []⟩], ""⟩,
        some (.uintVal 1500)⟩] }, false⟩

/-- The counter is built with its interface and flushed without it. -/
theorem keyedUpdate_not_coherent :
    ¬ TagCoherent (produceMetrics sampleEnv ⟨[], [], 0⟩ keyedUpdate).1 := by
  intro h
  have hlen := congrArg List.length (h.1 _ (List.mem_singleton_self _))
  exact absurd hlen (by decide)

end PipelineTagCoherence
