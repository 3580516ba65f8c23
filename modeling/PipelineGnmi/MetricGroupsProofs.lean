import PipelineGnmi.TagCoherenceProofs

/-! # Groups of metrics and their timestamps

    A flush closes the metrics built since the previous flush; `groups` are the
    flushes of a producer, each with what it closes.  The traversal of a
    self-describing message enters one level of fields after the other
    (`nodeLevels`), and its groups are one for each level that built anything
    (`groups_forNode`): the metrics of the level, under the tags of the level.

    The timestamp of the flush is what the sensor pass left behind, that of the
    last field named like a sensor.  `flush_timestamps_iff` says when this is
    the timestamp of all the metrics in the group. -/

namespace PipelineMetricGroups

open PipelineMessage PipelineDataMsg PipelineMetricsSpec PipelineGpbKvMetrics
open PipelineGpbMetrics PipelineTagCoherence

/-! ## Groups -/

/-- A call of `buildMetric`. -/
structure Build where
  tags : List MetricsAtom
  sensor : MetricsAtom
  ts : UInt64

/-- A call of `flushMetric`, with the builds it closes. -/
structure Group where
  builds : List Build
  tags : List MetricsAtom
  ts : UInt64

/-- The builds left open by the calls, `pend` being open before them. -/
def openBuilds : List Build → List MetricEvent → List Build
  | pend, [] => pend
  | pend, .buildMetric tags sensor ts :: rest => openBuilds (pend ++ [⟨tags, sensor, ts⟩]) rest
  | _, .flushMetric _ _ :: rest => openBuilds [] rest
  | pend, .statRecordUpdate _ _ :: rest => openBuilds pend rest

/-- The groups the calls flush, `pend` being open before them. -/
def groupsFrom : List Build → List MetricEvent → List Group
  | _, [] => []
  | pend, .buildMetric tags sensor ts :: rest => groupsFrom (pend ++ [⟨tags, sensor, ts⟩]) rest
  | pend, .flushMetric tags ts :: rest => ⟨pend, tags, ts⟩ :: groupsFrom [] rest
  | pend, .statRecordUpdate _ _ :: rest => groupsFrom pend rest

/-- The groups the calls of a producer flush. -/
def groups (evs : List MetricEvent) : List Group := groupsFrom [] evs

theorem groupsFrom_append (b : List MetricEvent) :
    ∀ (a : List MetricEvent) (pend : List Build),
      groupsFrom pend (a ++ b) = groupsFrom pend a ++ groupsFrom (openBuilds pend a) b := by
  intro a
  induction a with
  | nil => intro pend; rfl
  | cons ev rest ih =>
      intro pend
      cases ev with
      | buildMetric tags sensor ts => exact ih _
      | flushMetric tags ts => exact congrArg (List.cons _) (ih _)
      | statRecordUpdate key ts => exact ih _

/-- The open builds have the pending tags. -/
theorem map_openBuilds :
    ∀ (evs : List MetricEvent) (pend : List Build),
      (openBuilds pend evs).map Build.tags = pendingTags (pend.map Build.tags) evs := by
  intro evs
  induction evs with
  | nil => intro pend; rfl
  | cons ev rest ih =>
      intro pend
      cases ev with
      | buildMetric tags sensor ts =>
          rw [openBuilds, ih, List.map_append]
          rfl
      | flushMetric tags ts => exact ih _
      | statRecordUpdate key ts => exact ih _

variable {evs : List MetricEvent} (h : Handler) (node : MetricsSpecNode)
  (fields : List TelemetryField) (timestamp : UInt64) (tags : List MetricsAtom)

/-- **SETTLED CALLS LEAVE NOTHING OPEN**. -/
theorem settled_openBuilds (h : Settled evs) : openBuilds [] evs = [] := by
  have hmap := map_openBuilds evs []
  rw [List.map_nil, h.closed] at hmap
  exact List.map_eq_nil_iff.mp hmap

theorem groups_append {a : List MetricEvent} (ha : Settled a) (b : List MetricEvent) :
    groups (a ++ b) = groups a ++ groups b := by
  rw [groups, groupsFrom_append, settled_openBuilds ha]
  rfl

/-- The calls of `buildMetric`, in order. -/
def buildCalls (evs : List MetricEvent) : List Build :=
  evs.filterMap (fun ev =>
    match ev with
    | .buildMetric tags sensor ts => some ⟨tags, sensor, ts⟩
    | _ => none)

/-- The groups and what is left open are all the builds, in order. -/
theorem flatMap_groupsFrom :
    ∀ (evs : List MetricEvent) (pend : List Build),
      (groupsFrom pend evs).flatMap Group.builds ++ openBuilds pend evs
        = pend ++ buildCalls evs := by
  intro evs
  induction evs with
  | nil => intro pend; exact (List.append_nil _).symm
  | cons ev rest ih =>
      intro pend
      cases ev with
      | buildMetric tags sensor ts =>
          rw [groupsFrom, openBuilds, ih, List.append_assoc]
          rfl
      | flushMetric tags ts =>
          rw [groupsFrom, openBuilds, List.flatMap_cons, List.append_assoc, ih []]
          rfl
      | statRecordUpdate key ts => exact ih pend

/-- **SETTLED CALLS SPLIT INTO THEIR GROUPS**. -/
theorem flatMap_groups (h : Settled evs) : (groups evs).flatMap Group.builds = buildCalls evs := by
  have hsplit := flatMap_groupsFrom evs []
  rw [settled_openBuilds h, List.append_nil] at hsplit
  exact hsplit

/-- Coherence, group by group. -/
theorem coherentFrom_iff :
    ∀ (evs : List MetricEvent) (pend : List Build),
      CoherentFrom (pend.map Build.tags) evs ↔
        ∀ g ∈ groupsFrom pend evs, ∀ b ∈ g.builds, b.tags = g.tags := by
  intro evs
  induction evs with
  | nil => intro pend; exact ⟨fun _ _ hg => absurd hg List.not_mem_nil, fun _ => trivial⟩
  | cons ev rest ih =>
      intro pend
      cases ev with
      | buildMetric tags sensor ts =>
          rw [groupsFrom, ← ih, CoherentFrom, List.map_append]
          rfl
      | flushMetric tags ts =>
          rw [groupsFrom, List.forall_mem_cons, ← ih, CoherentFrom, List.forall_mem_map]
          rfl
      | statRecordUpdate key ts => exact ih pend

theorem settled_tags (h : Settled evs) : ∀ g ∈ groups evs, ∀ b ∈ g.builds, b.tags = g.tags :=
  (coherentFrom_iff evs []).mp h.coherent

/-! ## Levels of a self-describing message -/

/-- A level of fields as `produceGPBKVMetricsForNode` enters it, with the tags of
    its sensors. -/
structure Level where
  node : MetricsSpecNode
  fields : List TelemetryField
  timestamp : UInt64
  tags : List MetricsAtom

mutual

/-- The levels entered below a field. -/
def fieldLevels : TelemetryField → MetricsSpecNode → UInt64 → List MetricsAtom → List Level
  | .mk own name _ sub, node, timestamp, tags =>
      match GoMap.get (node.fieldsMapByType .container) name with
      | none => []
      | some child =>
          ⟨child, sub, chooseTimestamp own timestamp, levelTags child sub tags⟩
            :: fieldsLevels sub child (chooseTimestamp own timestamp) (levelTags child sub tags)

/-- The levels entered below a list of fields. -/
def fieldsLevels : List TelemetryField → MetricsSpecNode → UInt64 → List MetricsAtom → List Level
  | [], _, _, _ => []
  | field :: rest, node, timestamp, tags =>
      fieldLevels field node timestamp tags ++ fieldsLevels rest node timestamp tags

end

variable {l : Level}

/-- The levels entered from a node of the specification. -/
def nodeLevels (node : MetricsSpecNode) (fields : List TelemetryField) (timestamp : UInt64)
    (tags : List MetricsAtom) : List Level :=
  ⟨node, fields, timestamp, levelTags node fields tags⟩
    :: fieldsLevels fields node timestamp (levelTags node fields tags)

namespace Level

/-- The fields named like a sensor of the level. -/
def sensorFields (l : Level) : List TelemetryField :=
  l.fields.filter (fun f => (GoMap.get (l.node.fieldsMapByType .sensor) f.name).isSome)

/-- The timestamp chosen for a field of the level. -/
def fieldTs (l : Level) (f : TelemetryField) : UInt64 :=
  chooseTimestamp f.timestamp l.timestamp

/-- What a field of the level builds. -/
def build? (l : Level) (f : TelemetryField) : Option Build :=
  match GoMap.get (l.node.fieldsMapByType .sensor) f.name, f.valueByType with
  | some child, some v =>
      some ⟨l.tags, ⟨child.fqName, .scalar v⟩, l.fieldTs f⟩
  | _, _ => none

/-- What the level builds. -/
def builds (l : Level) : List Build := l.fields.filterMap l.build?

/-- The timestamp the sensor pass leaves behind. -/
def flushTs (l : Level) : UInt64 := (l.sensorFields.getLast?.map l.fieldTs).getD 0

/-- The group of the level, if it built anything. -/
def group? (l : Level) : Option Group :=
  if l.builds.isEmpty then none else some ⟨l.builds, l.tags, l.flushTs⟩

end Level

/-! ## The groups of a traversal -/

section Pass

variable (h : Handler) (l : Level)

/-- The sensor pass over some fields of the level: it flushes nothing, opens
    what the fields build, and leaves the timestamp of the last sensor. -/
structure PassSpec (fields : List TelemetryField) (ts : UInt64) (written : Bool)
    (r : List MetricEvent × UInt64 × Bool) : Prop where
  groups : ∀ pend, groupsFrom pend r.1 = []
  opens : ∀ pend, openBuilds pend r.1 = pend ++ fields.filterMap l.build?
  ts : r.2.1 = ((fields.filter (fun f =>
    (GoMap.get (l.node.fieldsMapByType .sensor) f.name).isSome)).getLast?.map l.fieldTs).getD ts
  written : r.2.2 = (written || !(fields.filterMap l.build?).isEmpty)

theorem sensorPass_spec :
    ∀ (fields : List TelemetryField) (ts : UInt64) (written : Bool),
      PassSpec l fields ts written
        (sensorPass h (l.node.fieldsMapByType .sensor) l.tags l.timestamp fields ts written) := by
  intro fields
  induction fields with
  | nil =>
      intro ts written
      exact ⟨fun _ => rfl, fun pend => (List.append_nil pend).symm, rfl, (Bool.or_false _).symm⟩
  | cons f rest ih =>
      intro ts written
      rw [sensorPass]
      cases hg : GoMap.get (l.node.fieldsMapByType .sensor) f.name with
      | none =>
          have hb : l.build? f = none := by rw [Level.build?, hg]
          have hskip := ih ts written
          refine ⟨hskip.groups, ?_, ?_, ?_⟩
          · rw [List.filterMap_cons_none hb]
            exact hskip.opens
          · rw [List.filter_cons_of_neg (by simp [hg])]
            exact hskip.ts
          · rw [List.filterMap_cons_none hb]
            exact hskip.written
      | some child =>
          have hfilter : (f :: rest).filter (fun f =>
              (GoMap.get (l.node.fieldsMapByType .sensor) f.name).isSome)
              = f :: rest.filter (fun f =>
                (GoMap.get (l.node.fieldsMapByType .sensor) f.name).isSome) :=
            List.filter_cons_of_pos (by simp [hg])
          -- tracking a sensor neither builds nor flushes
          have htrack : ∀ (evs : List MetricEvent) (pend : List Build),
              groupsFrom pend ((if child.track then [MetricEvent.statRecordUpdate
                (trackKey h child.fqName l.tags) (l.fieldTs f)] else []) ++ evs)
                = groupsFrom pend evs ∧
              openBuilds pend ((if child.track then [MetricEvent.statRecordUpdate
                (trackKey h child.fqName l.tags) (l.fieldTs f)] else []) ++ evs)
                = openBuilds pend evs := by
            intro evs pend
            split
            · exact ⟨rfl, rfl⟩
            · exact ⟨rfl, rfl⟩
          simp only [extractGPBKVNativeTypeFromOneof_any]
          cases hv : f.valueByType with
          | none =>
              have hb : l.build? f = none := by rw [Level.build?, hg, hv]
              have hrest := ih (l.fieldTs f) written
              refine ⟨fun pend => (htrack _ pend).1.trans (hrest.groups pend),
                fun pend => ?_, ?_, ?_⟩
              · rw [List.filterMap_cons_none hb]
                exact (htrack _ pend).2.trans (hrest.opens pend)
              · rw [hfilter, List.getLast?_cons]
                refine hrest.ts.trans ?_
                cases (rest.filter _).getLast? <;> rfl
              · rw [List.filterMap_cons_none hb]
                exact hrest.written
          | some v =>
              have hb : l.build? f
                  = some ⟨l.tags, ⟨child.fqName, .scalar v⟩, l.fieldTs f⟩ := by
                rw [Level.build?, hg, hv]
              have hrest := ih (l.fieldTs f) true
              refine ⟨fun pend => (htrack _ pend).1.trans (hrest.groups _),
                fun pend => ?_, ?_, ?_⟩
              · rw [List.filterMap_cons_some hb]
                refine (htrack _ pend).2.trans ((hrest.opens _).trans ?_)
                exact List.append_assoc _ _ _
              · rw [hfilter, List.getLast?_cons]
                refine hrest.ts.trans ?_
                cases (rest.filter _).getLast? <;> rfl
              · rw [List.filterMap_cons_some hb]
                refine hrest.written.trans ?_
                cases written <;> rfl

/-- A level flushes its group. -/
theorem groups_levelEvents :
    groups (levelEvents h l.node l.fields l.timestamp l.tags) = l.group?.toList := by
  have hpass := sensorPass_spec h l l.fields 0 false
  rw [levelEvents, groups, groupsFrom_append, hpass.groups, hpass.opens, hpass.written,
    hpass.ts, Level.group?, Level.builds]
  cases (l.fields.filterMap l.build?).isEmpty with
  | true => rfl
  | false => rfl

end Pass

mutual

theorem groups_forField (h : Handler) :
    ∀ (f : TelemetryField) (node : MetricsSpecNode) (timestamp : UInt64)
      (tags : List MetricsAtom),
      groups (produceGPBKVMetricsForField h f node timestamp tags)
        = (fieldLevels f node timestamp tags).filterMap Level.group?
  | .mk own name v sub, node, timestamp, tags => by
      unfold produceGPBKVMetricsForField fieldLevels
      cases GoMap.get (node.fieldsMapByType .container) name with
      | none => rfl
      | some child =>
          have hlevel := groups_levelEvents h
            ⟨child, sub, chooseTimestamp own timestamp, levelTags child sub tags⟩
          simp only [groups_append (settled_levelEvents h _ _ _ _), hlevel,
            groups_forFields h sub child, List.filterMap_cons]
          cases Level.group? _ <;> rfl

theorem groups_forFields (h : Handler) :
    ∀ (fields : List TelemetryField) (node : MetricsSpecNode) (timestamp : UInt64)
      (tags : List MetricsAtom),
      groups (produceGPBKVMetricsForFields h fields node timestamp tags)
        = (fieldsLevels fields node timestamp tags).filterMap Level.group?
  | [], _, _, _ => rfl
  | f :: rest, node, timestamp, tags => by
      unfold produceGPBKVMetricsForFields fieldsLevels
      rw [groups_append (settled_forField h f node timestamp tags),
        groups_forField h f, groups_forFields h rest, List.filterMap_append]

end

/-- **ONE GROUP FOR EACH LEVEL** that built anything, in the order the levels are
    entered. -/
theorem groups_forNode :
    groups (produceGPBKVMetricsForNode h node fields timestamp tags)
      = (nodeLevels node fields timestamp tags).filterMap Level.group? := by
  have hlevel := groups_levelEvents h ⟨node, fields, timestamp, levelTags node fields tags⟩
  simp only [produceGPBKVMetricsForNode, nodeLevels,
    groups_append (settled_levelEvents h _ _ _ _), hlevel, groups_forFields, List.filterMap_cons]
  cases Level.group? _ <;> rfl

/-- The levels entered for the fields of a row. -/
def rowLevels (h : Handler) (node : MetricsSpecNode) (timestamp : UInt64) :
    List TelemetryField → List MetricsAtom → List Level
  | [], _ => []
  | kcfield :: rest, tagsCopy =>
      let tagsCopy :=
        if kcfield.name = "keys" then
          tagsCopy ++ kcfield.fields.map (fun key =>
            ⟨h.adaptTagName key.name, atomOf (extractGPBKVNativeTypeFromOneof key false)⟩)
        else tagsCopy
      (if kcfield.name = "content" then nodeLevels node kcfield.fields timestamp tagsCopy
        else [])
        ++ rowLevels h node timestamp rest tagsCopy

/-- The levels entered for a self-describing message. -/
def messageLevels (h : Handler) (node : MetricsSpecNode) (t : Telemetry)
    (tags : List MetricsAtom) : List Level :=
  t.dataGpbkv.flatMap (fun topField =>
    rowLevels h node
      (if topField.timestamp ≠ 0 then topField.timestamp else t.msgTimestamp)
      topField.fields tags)

theorem settled_forNode : Settled (produceGPBKVMetricsForNode h node fields timestamp tags) :=
  (settled_levelEvents h node _ _ _).append (settled_forFields h _ node _ _)

theorem groups_row :
    ∀ (fields : List TelemetryField) (tags : List MetricsAtom),
      groups (produceGPBKVRow h node timestamp fields tags)
        = (rowLevels h node timestamp fields tags).filterMap Level.group? := by
  intro fields
  induction fields with
  | nil => intro tags; rfl
  | cons kcfield rest ih =>
      intro tags
      rw [produceGPBKVRow, rowLevels, List.filterMap_append, ← ih]
      by_cases hcontent : kcfield.name = "content"
      · rw [if_pos hcontent, if_pos hcontent,
          groups_append (settled_forNode h node _ timestamp _), groups_forNode]
      · rw [if_neg hcontent, if_neg hcontent]
        rfl

/-- **THE GROUPS OF A SELF-DESCRIBING MESSAGE** are those of its levels. -/
theorem groups_produceGPBKVMetrics (t : Telemetry) (tags : List MetricsAtom) :
    groups (produceGPBKVMetrics h node t tags)
      = (messageLevels h node t tags).filterMap Level.group? := by
  unfold produceGPBKVMetrics messageLevels
  induction t.dataGpbkv with
  | nil => rfl
  | cons row rest ih =>
      rw [List.flatMap_cons, List.flatMap_cons, List.filterMap_append, ← ih,
        groups_append (settled_row h node _ _ _), groups_row]

/-! ## Rules for levels -/

section Invariant

variable {I : MetricsSpecNode → List MetricsAtom → Prop}

mutual

theorem forall_fieldLevels (hstep : ∀ {node child name sub tags}, I node tags →
      GoMap.get (node.fieldsMapByType .container) name = some child →
      I child (levelTags child sub tags)) :
    ∀ (f : TelemetryField) (node : MetricsSpecNode) (timestamp : UInt64)
      (tags : List MetricsAtom), I node tags →
      ∀ l ∈ fieldLevels f node timestamp tags, I l.node l.tags
  | .mk own name v sub, node, timestamp, tags, hI => by
      unfold fieldLevels
      cases hget : GoMap.get (node.fieldsMapByType .container) name with
      | none => exact fun _ hl => absurd hl List.not_mem_nil
      | some child =>
          have hchild : I child (levelTags child sub tags) := hstep hI hget
          exact List.forall_mem_cons.mpr
            ⟨hchild, forall_fieldsLevels hstep sub child _ _ hchild⟩

/-- What holds of a node and its tags, and is kept on the way into a container,
    holds on every level below. -/
theorem forall_fieldsLevels (hstep : ∀ {node child name sub tags}, I node tags →
      GoMap.get (node.fieldsMapByType .container) name = some child →
      I child (levelTags child sub tags)) :
    ∀ (fields : List TelemetryField) (node : MetricsSpecNode) (timestamp : UInt64)
      (tags : List MetricsAtom), I node tags →
      ∀ l ∈ fieldsLevels fields node timestamp tags, I l.node l.tags
  | [], _, _, _, _ => fun _ hl => absurd hl List.not_mem_nil
  | f :: rest, node, timestamp, tags, hI =>
      List.forall_mem_append.mpr ⟨forall_fieldLevels hstep f node timestamp tags hI,
        forall_fieldsLevels hstep rest node timestamp tags hI⟩

end

end Invariant

/-! ## The timestamp of a group -/

/-- Every sensor of the level that has a value was given the timestamp of the last
    field named like a sensor, with a value or not. -/
def Level.AgreesOnTime (l : Level) : Prop :=
  ∀ f ∈ l.sensorFields, f.valueByType.isSome → ∀ last ∈ l.sensorFields.getLast?,
    l.fieldTs f = l.fieldTs last

/-- The builds of a level are those of its sensors with a value. -/
theorem Level.mem_builds {b : Build} :
    b ∈ l.builds ↔ ∃ f ∈ l.sensorFields, f.valueByType.isSome ∧ l.build? f = some b := by
  rw [Level.builds, List.mem_filterMap]
  constructor
  · rintro ⟨f, hf, hb⟩
    have hparts := hb
    rw [Level.build?] at hparts
    split at hparts
    · next child v hchild hv =>
        exact ⟨f, List.mem_filter.mpr ⟨hf, by simp [hchild]⟩, by simp [hv], hb⟩
    · cases hparts
  · rintro ⟨f, hf, -, hb⟩
    exact ⟨f, (List.mem_filter.mp hf).1, hb⟩

/-- A sensor with a value builds, at the timestamp chosen for it. -/
theorem Level.exists_build {f : TelemetryField} (hf : f ∈ l.sensorFields)
    (hv : f.valueByType.isSome) : ∃ b, l.build? f = some b ∧ b.ts = l.fieldTs f := by
  obtain ⟨v, hv⟩ := Option.isSome_iff_exists.mp hv
  obtain ⟨child, hchild⟩ := Option.isSome_iff_exists.mp (List.mem_filter.mp hf).2
  exact ⟨⟨l.tags, ⟨child.fqName, .scalar v⟩, l.fieldTs f⟩, by rw [Level.build?, hchild, hv], rfl⟩

/-- What a field builds, read off the field. -/
theorem build?_eq_some {f : TelemetryField} {b : Build} :
    l.build? f = some b ↔
      ∃ child v, GoMap.get (l.node.fieldsMapByType .sensor) f.name = some child ∧
      f.valueByType = some v ∧ b = ⟨l.tags, ⟨child.fqName, .scalar v⟩, l.fieldTs f⟩ := by
  rw [Level.build?]
  cases GoMap.get (l.node.fieldsMapByType .sensor) f.name with
  | none => simp
  | some child =>
      cases f.valueByType with
      | none => simp
      | some v => simp [eq_comm]

theorem builds_ne_nil_iff (l : Level) :
    l.builds ≠ [] ↔ ∃ f ∈ l.sensorFields, f.valueByType.isSome := by
  constructor
  · intro hne
    obtain ⟨b, hb⟩ := List.exists_mem_of_ne_nil _ hne
    obtain ⟨f, hf, hv, -⟩ := Level.mem_builds.mp hb
    exact ⟨f, hf, hv⟩
  · rintro ⟨f, hf, hv⟩
    obtain ⟨b, hb, -⟩ := Level.exists_build hf hv
    exact List.ne_nil_of_mem (Level.mem_builds.mpr ⟨f, hf, hv, hb⟩)

theorem Level.group?_eq_some {g : Group} :
    l.group? = some g ↔ l.builds ≠ [] ∧ g = ⟨l.builds, l.tags, l.flushTs⟩ := by
  rw [Level.group?]
  split
  · next hempty => simp [List.isEmpty_iff.mp hempty]
  · next hsome =>
      rw [List.isEmpty_iff] at hsome
      simp [hsome, eq_comm]

/-- One level: its group has one timestamp exactly when its sensors agree. -/
theorem Level.group_ts_iff (l : Level) :
    (∀ g, l.group? = some g → ∀ b ∈ g.builds, b.ts = g.ts) ↔ l.AgreesOnTime := by
  constructor
  · intro hgroup f hf hv last hlast
    obtain ⟨b, hb, hts⟩ := Level.exists_build hf hv
    have hmem : b ∈ l.builds := Level.mem_builds.mpr ⟨f, hf, hv, hb⟩
    have hflush := hgroup _ (Level.group?_eq_some.mpr ⟨List.ne_nil_of_mem hmem, rfl⟩) b hmem
    rw [← hts, hflush, Level.flushTs, Option.mem_def.mp hlast]
    rfl
  · rintro hagree g hg b hmem
    obtain ⟨-, rfl⟩ := Level.group?_eq_some.mp hg
    obtain ⟨f, hf, hv, hb⟩ := Level.mem_builds.mp hmem
    obtain ⟨b', hb', hts⟩ := Level.exists_build hf hv
    obtain rfl : b = b' := Option.some.inj (hb.symm.trans hb')
    obtain ⟨last, hlast⟩ : ∃ last, l.sensorFields.getLast? = some last :=
      ⟨_, List.getLast?_eq_some_getLast (List.ne_nil_of_mem hf)⟩
    show b.ts = l.flushTs
    rw [hts, hagree f hf hv last hlast, Level.flushTs, hlast]
    rfl

/-! ## No group is empty -/

/-- Settled calls that flush only what was built. -/
structure Solid (evs : List MetricEvent) : Prop where
  settled : Settled evs
  built : ∀ g ∈ groups evs, g.builds ≠ []

/-- The sensors of one level are opened together. -/
theorem openBuilds_map (timestamp : UInt64) :
    ∀ (sensors : List MetricsAtom) (pend : List Build),
      groupsFrom pend (sensors.map (fun sensor => .buildMetric tags sensor timestamp)) = [] ∧
      openBuilds pend (sensors.map (fun sensor => .buildMetric tags sensor timestamp))
        = pend ++ sensors.map (fun sensor => ⟨tags, sensor, timestamp⟩) := by
  intro sensors
  induction sensors with
  | nil => intro pend; exact ⟨rfl, (List.append_nil pend).symm⟩
  | cons sensor rest ih =>
      intro pend
      obtain ⟨hgroups, hopen⟩ := ih (pend ++ [⟨tags, sensor, timestamp⟩])
      refine ⟨hgroups, hopen.trans ?_⟩
      rw [List.append_assoc]
      rfl

/-- A level of a struct flushes one group, if it has a sensor. -/
theorem groups_level (timestamp : UInt64) (sensors : List MetricsAtom) :
    groups (sensors.map (fun sensor => .buildMetric tags sensor timestamp)
      ++ if (sensors.map (fun sensor => MetricEvent.buildMetric tags sensor timestamp)).length ≠ 0
        then [.flushMetric tags timestamp] else [])
      = if sensors.isEmpty then []
        else [⟨sensors.map (fun sensor => ⟨tags, sensor, timestamp⟩), tags, timestamp⟩] := by
  obtain ⟨hgroups, hopen⟩ := openBuilds_map tags timestamp sensors []
  rw [groups, groupsFrom_append, hgroups, hopen]
  cases sensors with
  | nil => rfl
  | cons sensor rest => rfl

theorem levelRule_solid : LevelRule Solid where
  nil := ⟨settled_nil, fun _ hg => absurd hg List.not_mem_nil⟩
  append := by
    rintro a b ⟨hsa, hba⟩ ⟨hsb, hbb⟩
    refine ⟨hsa.append hsb, ?_⟩
    rw [groups_append hsa]
    exact List.forall_mem_append.mpr ⟨hba, hbb⟩
  level := by
    intro tags timestamp sensors
    refine ⟨levelRule_settled.level tags timestamp sensors, ?_⟩
    rw [groups_level]
    cases sensors with
    | nil => exact fun _ hg => absurd hg List.not_mem_nil
    | cons sensor rest => exact List.forall_mem_singleton.mpr (List.cons_ne_nil _ _)

/-- **BOTH KINDS OF GPB MESSAGE** flush only what they built. -/
theorem solid_produceMetrics (env : MetricsEnv) (m : DataMsgGPB) (c : NameCache) :
    Solid (PipelineGpbMetrics.produceMetrics env m c).1 := by
  unfold PipelineGpbMetrics.produceMetrics
  split
  · exact levelRule_solid.nil
  · next node hnode =>
      split
      · exact produceGPBMetrics_all levelRule_solid _ _ _ _ _ _ c
      · refine ⟨settled_produceGPBKVMetrics _ _ _ _, fun g hg => ?_⟩
        rw [groups_produceGPBKVMetrics] at hg
        obtain ⟨l, -, hl⟩ := List.mem_filterMap.mp hg
        obtain ⟨hne, rfl⟩ := Level.group?_eq_some.mp hl
        exact hne

/-! ## The flush and its metrics -/

/-- **THE TIMESTAMP OF A FLUSH** is that of every metric it closes exactly when, on
    every level the traversal enters, the sensors with a value agree with the last
    field named like a sensor. -/
theorem flush_timestamps_iff (h : Handler) (node : MetricsSpecNode)
    (fields : List TelemetryField) (timestamp : UInt64) (tags : List MetricsAtom) :
    (∀ g ∈ groups (produceGPBKVMetricsForNode h node fields timestamp tags),
        ∀ b ∈ g.builds, b.ts = g.ts) ↔
      ∀ l ∈ nodeLevels node fields timestamp tags, l.AgreesOnTime := by
  rw [groups_forNode]
  constructor
  · intro hgroups l hl
    refine l.group_ts_iff.mp fun g hg => ?_
    exact hgroups g (List.mem_filterMap.mpr ⟨l, hl, hg⟩)
  · intro hlevels g hg
    obtain ⟨l, hl, hgroup⟩ := List.mem_filterMap.mp hg
    exact l.group_ts_iff.mpr (hlevels l hl) g hgroup

/-- Two counters of one container. -/
def twoCounters : MetricsSpecNode :=
  .mk [0] "" false .container ""
    [.mk [0, 0] "in" false .sensor "in" [], .mk [0, 1] "out" false .sensor "out" []]

/-- Read a second apart, the first is flushed with the time of the second, which
    has no value itself. -/
theorem flush_timestamps_differ :
    ¬ ∀ g ∈ groups (produceGPBKVMetricsForNode sampleHandler twoCounters
        [.mk 1000 "in" (some (.uint64 5)) [], .mk 2000 "out" none []] 7 []),
      ∀ b ∈ g.builds, b.ts = g.ts := by
  intro hall
  have hts := hall _ (List.mem_cons_self ..) _ (List.mem_cons_self ..)
  exact absurd hts (by decide)

end PipelineMetricGroups
