import PipelineGnmi.MetricGroupsProofs

/-! # The tag pass

    The first pass of `produceGPBKVMetricsForNode` stops once it has matched as
    many fields as the level has tags.  A field counts whether it repeats an
    earlier one or not, and whether it has a value or not, so the pass looks at
    a window of the fields that are named like a tag (`levelTags_eq`).

    A tag that has a value only behind the window is passed neither to the metrics
    of the level nor to the levels below, unless a tag of its name was inherited.
    `tags_kept_iff_inWindow` says that this is the only way to lose one, and
    `inWindow_of_nodup` that fields which do not repeat a tag lose none. -/

namespace PipelineTagPass

open PipelineMessage PipelineDataMsg PipelineMetricsSpec PipelineGpbKvMetrics
open PipelineMetricGroups
open PipelineGpbMetrics (sampleHandler)

/-! ## The window -/

variable {f : TelemetryField} (node : MetricsSpecNode) (fields : List TelemetryField)
  (tags : List MetricsAtom)

/-- The fields named like a tag of the node. -/
def tagFields (node : MetricsSpecNode) (fields : List TelemetryField) : List TelemetryField :=
  fields.filter (fun f => (GoMap.get (node.fieldsMapByType .tag) f.name).isSome)

/-- The atom a field adds to the tags. -/
def tagAtom (node : MetricsSpecNode) (f : TelemetryField) : Option MetricsAtom :=
  match GoMap.get (node.fieldsMapByType .tag) f.name, f.valueByType with
  | some child, some v => some ⟨child.fqName, .scalar v⟩
  | _, _ => none

/-- The atoms of the fields of a level that carry a tag. -/
def tagAtoms (node : MetricsSpecNode) (fields : List TelemetryField) : List MetricsAtom :=
  fields.filterMap (tagAtom node)

/-- The fields the pass looks at. -/
def tagWindow (node : MetricsSpecNode) (fields : List TelemetryField) : List TelemetryField :=
  (tagFields node fields).take (node.fieldsMapByType .tag).length

theorem mem_tagAtoms {node : MetricsSpecNode} {fields : List TelemetryField} {a : MetricsAtom} :
    a ∈ tagAtoms node fields ↔ ∃ f ∈ fields, ∃ child v,
      GoMap.get (node.fieldsMapByType .tag) f.name = some child ∧
      f.valueByType = some v ∧ a = ⟨child.fqName, .scalar v⟩ := by
  rw [tagAtoms, List.mem_filterMap]
  refine exists_congr fun f => and_congr_right fun _ => ?_
  unfold tagAtom
  cases GoMap.get (node.fieldsMapByType .tag) f.name with
  | none => simp
  | some child =>
      cases f.valueByType with
      | none => simp
      | some v => simp [eq_comm]

theorem tagFields_cons_none {node : MetricsSpecNode}
    (hg : GoMap.get (node.fieldsMapByType .tag) f.name = none) (rest : List TelemetryField) :
    tagFields node (f :: rest) = tagFields node rest :=
  List.filter_cons_of_neg (by simp [hg])

theorem tagFields_cons_some {node : MetricsSpecNode} {child : MetricsSpecNode}
    (hg : GoMap.get (node.fieldsMapByType .tag) f.name = some child) (rest : List TelemetryField) :
    tagFields node (f :: rest) = f :: tagFields node rest :=
  List.filter_cons_of_pos (by simp [hg])

theorem tagAtoms_cons (f : TelemetryField) (rest : List TelemetryField) :
    tagAtoms node (f :: rest) = (tagAtom node f).toList ++ tagAtoms node rest := by
  rw [tagAtoms, List.filterMap_cons]
  cases tagAtom node f <;> rfl

/-- The fields named otherwise add nothing. -/
theorem tagAtoms_tagFields : tagAtoms node (tagFields node fields) = tagAtoms node fields := by
  induction fields with
  | nil => rfl
  | cons f rest ih =>
      cases hg : GoMap.get (node.fieldsMapByType .tag) f.name with
      | none =>
          have hnone : tagAtom node f = none := by rw [tagAtom, hg]
          rw [tagFields_cons_none hg, tagAtoms_cons, hnone, ih]
          rfl
      | some child => rw [tagFields_cons_some hg, tagAtoms_cons, tagAtoms_cons, ih]

/-- One field named like a tag: it counts, and its value if any is kept. -/
theorem collectTags_matched {node : MetricsSpecNode} {child : MetricsSpecNode}
    (hg : GoMap.get (node.fieldsMapByType .tag) f.name = some child) (target : Nat)
    (rest : List TelemetryField) (collected : Nat) (tags : List MetricsAtom) :
    collectTags (node.fieldsMapByType .tag) target (f :: rest) collected tags
      = if collected + 1 ≥ target then tags ++ (tagAtom node f).toList
        else collectTags (node.fieldsMapByType .tag) target rest (collected + 1)
          (tags ++ (tagAtom node f).toList) := by
  rw [collectTags, tagAtom]
  simp only [hg, extractGPBKVNativeTypeFromOneof_any]
  cases f.valueByType with
  | none => simp only [Option.toList_none, List.append_nil]
  | some v => rfl

/-- The loop of the pass, with some fields matched already. -/
theorem collectTags_eq (target : Nat) :
    ∀ (fields : List TelemetryField) (collected : Nat) (tags : List MetricsAtom),
      collected < target →
      collectTags (node.fieldsMapByType .tag) target fields collected tags
        = tags ++ tagAtoms node ((tagFields node fields).take (target - collected)) := by
  intro fields
  induction fields with
  | nil =>
      intro collected tags _
      rw [collectTags, tagFields, List.filter_nil, List.take_nil]
      exact (List.append_nil tags).symm
  | cons f rest ih =>
      intro collected tags hlt
      cases hg : GoMap.get (node.fieldsMapByType .tag) f.name with
      | none =>
          rw [tagFields_cons_none hg, ← ih collected tags hlt, collectTags]
          simp only [hg]
      | some child =>
          obtain ⟨left, hleft⟩ : ∃ left, target - collected = left + 1 :=
            ⟨target - collected - 1, by omega⟩
          rw [collectTags_matched hg, tagFields_cons_some hg, hleft, List.take_succ_cons,
            tagAtoms_cons, ← List.append_assoc]
          split
          · next hge =>
              obtain rfl : left = 0 := by omega
              exact (List.append_nil _).symm
          · next hnot =>
              rw [ih (collected + 1) _ (by omega),
                show target - (collected + 1) = left by omega]

/-- **THE TAGS OF A LEVEL**: the inherited ones, and those of the window. -/
theorem levelTags_eq :
    levelTags node fields tags = tags ++ tagAtoms node (tagWindow node fields) := by
  rw [levelTags, tagWindow]
  split
  · next hpos =>
      rw [collectTags_eq node _ fields 0 tags hpos, Nat.sub_zero]
  · next hzero =>
      rw [show (node.fieldsMapByType .tag).length = 0 by omega, List.take_zero]
      exact (List.append_nil tags).symm

/-! ## The tags of the calls -/

/-- The level as it is with more tags inherited. -/
def under (tags : List MetricsAtom) (l : Level) : Level := { l with tags := tags ++ l.tags }

theorem levelTags_append (tags' : List MetricsAtom) :
    levelTags node fields (tags ++ tags') = tags ++ levelTags node fields tags' := by
  rw [levelTags_eq, levelTags_eq, List.append_assoc]

mutual

theorem fieldLevels_under (tags : List MetricsAtom) :
    ∀ (f : TelemetryField) (node : MetricsSpecNode) (timestamp : UInt64)
      (tags' : List MetricsAtom),
      fieldLevels f node timestamp (tags ++ tags')
        = (fieldLevels f node timestamp tags').map (under tags)
  | .mk own name v sub, node, timestamp, tags' => by
      unfold fieldLevels
      cases GoMap.get (node.fieldsMapByType .container) name with
      | none => rfl
      | some child =>
          simp only [levelTags_append, fieldsLevels_under tags sub, List.map_cons]
          rfl

/-- Inherited tags come first, on every level. -/
theorem fieldsLevels_under (tags : List MetricsAtom) :
    ∀ (fields : List TelemetryField) (node : MetricsSpecNode) (timestamp : UInt64)
      (tags' : List MetricsAtom),
      fieldsLevels fields node timestamp (tags ++ tags')
        = (fieldsLevels fields node timestamp tags').map (under tags)
  | [], _, _, _ => rfl
  | f :: rest, node, timestamp, tags' => by
      unfold fieldsLevels
      rw [fieldLevels_under tags f, fieldsLevels_under tags rest, List.map_append]

end

section Node

variable (h : Handler) (node : MetricsSpecNode) (fields : List TelemetryField)
  (timestamp : UInt64) (tags : List MetricsAtom)

theorem nodeLevels_under : nodeLevels node fields timestamp tags
    = (nodeLevels node fields timestamp []).map (under tags) := by
  have hlevel := levelTags_append node fields tags []
  have hbelow := fieldsLevels_under tags fields node timestamp (levelTags node fields [])
  rw [List.append_nil] at hlevel
  rw [nodeLevels, hlevel, hbelow]
  rfl

/-- The metrics of a node are those of its levels. -/
theorem mem_buildCalls_forNode {b : Build} :
    b ∈ buildCalls (produceGPBKVMetricsForNode h node fields timestamp tags) ↔
      ∃ l ∈ nodeLevels node fields timestamp tags, b ∈ l.builds := by
  rw [← flatMap_groups (settled_forNode h node fields timestamp tags), groups_forNode,
    List.mem_flatMap]
  constructor
  · rintro ⟨g, hg, hb⟩
    obtain ⟨l, hl, hgroup⟩ := List.mem_filterMap.mp hg
    obtain ⟨-, rfl⟩ := Level.group?_eq_some.mp hgroup
    exact ⟨l, hl, hb⟩
  · rintro ⟨l, hl, hb⟩
    refine ⟨_, List.mem_filterMap.mpr ⟨l, hl, Level.group?_eq_some.mpr ⟨?_, rfl⟩⟩, hb⟩
    exact List.ne_nil_of_mem hb

/-- **THE TAGS OF THE CALLS** are the inherited ones, followed by those of the levels
    from the node down to the call. -/
theorem forall_buildCalls_iff (P : List MetricsAtom → Prop) :
    (∀ b ∈ buildCalls (produceGPBKVMetricsForNode h node fields timestamp tags), P b.tags) ↔
      ∀ l ∈ nodeLevels node fields timestamp [], l.builds ≠ [] → P (tags ++ l.tags) := by
  have htags : ∀ {l : Level} {b : Build}, b ∈ l.builds → b.tags = l.tags := by
    intro l b hb
    obtain ⟨f, -, -, hbuild⟩ := Level.mem_builds.mp hb
    obtain ⟨child, v, -, -, rfl⟩ := build?_eq_some.mp hbuild
    rfl
  -- what a level builds from does not depend on what it inherits
  have hunder : ∀ l : Level, (under tags l).builds ≠ [] ↔ l.builds ≠ [] :=
    fun l => (builds_ne_nil_iff _).trans (builds_ne_nil_iff l).symm
  constructor
  · intro hall l hl hbuilds
    obtain ⟨b, hb⟩ := List.exists_mem_of_ne_nil _ ((hunder l).mpr hbuilds)
    have hmem : under tags l ∈ nodeLevels node fields timestamp tags := by
      rw [nodeLevels_under]
      exact List.mem_map_of_mem hl
    have hP := hall b ((mem_buildCalls_forNode ..).mpr ⟨_, hmem, hb⟩)
    rw [htags hb] at hP
    exact hP
  · intro hall b hb
    obtain ⟨l, hl, hb⟩ := (mem_buildCalls_forNode ..).mp hb
    rw [nodeLevels_under] at hl
    obtain ⟨l, hmem, rfl⟩ := List.mem_map.mp hl
    rw [htags hb]
    exact hall l hmem ((hunder l).mp (List.ne_nil_of_mem hb))

end Node

/-! ## Which tags are kept -/

/-- The tags name every tag that a field of the level gives a value. -/
def Carries (node : MetricsSpecNode) (fields : List TelemetryField)
    (tags : List MetricsAtom) : Prop :=
  ∀ f ∈ fields, ∀ child v, GoMap.get (node.fieldsMapByType .tag) f.name = some child →
    f.valueByType = some v → ∃ a ∈ tags, a.key = child.fqName

/-- Every tag that has a value has one in the window, or its name is inherited. -/
def InWindow (node : MetricsSpecNode) (fields : List TelemetryField)
    (tags : List MetricsAtom) : Prop :=
  ∀ a ∈ tagAtoms node fields, ∃ b ∈ tags ++ tagAtoms node (tagWindow node fields), b.key = a.key

section Kept

variable {node : MetricsSpecNode} {fields : List TelemetryField} {tags t : List MetricsAtom}

theorem carries_iff :
    Carries node fields tags ↔ ∀ a ∈ tagAtoms node fields, ∃ b ∈ tags, b.key = a.key := by
  constructor
  · intro hc a ha
    obtain ⟨f, hf, child, v, hg, hv, rfl⟩ := mem_tagAtoms.mp ha
    exact hc f hf child v hg hv
  · intro h f hf child v hg hv
    exact h ⟨child.fqName, .scalar v⟩ (mem_tagAtoms.mpr ⟨f, hf, child, v, hg, hv, rfl⟩)

theorem Carries.mono (hc : Carries node fields tags) (hpre : tags <+: t) :
    Carries node fields t := by
  intro f hf child v hg hv
  obtain ⟨a, ha, hkey⟩ := hc f hf child v hg hv
  exact ⟨a, hpre.mem ha, hkey⟩

/-- The window decides what a level passes on. -/
theorem carries_levelTags :
    Carries node fields (levelTags node fields tags) ↔ InWindow node fields tags := by
  rw [carries_iff, levelTags_eq]
  exact Iff.rfl

/-- Every level of a node has its tags in front of its own. -/
theorem isPrefix_tags {timestamp : UInt64} {l : Level}
    (hl : l ∈ nodeLevels node fields timestamp tags) : levelTags node fields tags <+: l.tags := by
  rcases List.mem_cons.mp hl with rfl | hl
  · exact List.prefix_rfl
  · refine forall_fieldsLevels (I := fun _ t => levelTags node fields tags <+: t) ?_ fields node
      timestamp _ List.prefix_rfl l hl
    intro _ child _ sub t ht _
    rw [levelTags_eq child]
    exact ht.trans (List.prefix_append _ _)

/-- **A TAG IS LOST BEHIND THE WINDOW, AND NOWHERE ELSE**, whatever tags are inherited.
    The tags a level passes on, to its metrics and to the levels below, name all of its
    tags exactly if the window does; so do those of all the metrics, if the level has
    one of its own.  If it has none, a tag behind the window may still be named by a
    level on the way to a metric. -/
theorem tags_kept_iff_inWindow (h : Handler) (node : MetricsSpecNode)
    (fields : List TelemetryField) (timestamp : UInt64) (tags : List MetricsAtom) :
    (Carries node fields (levelTags node fields tags) ↔ InWindow node fields tags) ∧
    ((Level.mk node fields timestamp []).builds ≠ [] →
      ((∀ b ∈ buildCalls (produceGPBKVMetricsForNode h node fields timestamp tags),
        Carries node fields b.tags) ↔ InWindow node fields tags)) ∧
    ((∀ b ∈ buildCalls (produceGPBKVMetricsForNode h node fields timestamp tags),
        Carries node fields b.tags) ↔
      ∀ l ∈ nodeLevels node fields timestamp [], l.builds ≠ [] →
        ∀ a ∈ tagAtoms node fields, ∃ b ∈ tags ++ l.tags, b.key = a.key) := by
  have hcalls := forall_buildCalls_iff h node fields timestamp tags (Carries node fields)
  refine ⟨carries_levelTags, fun hreads => ?_, ?_⟩
  · rw [hcalls, ← carries_levelTags]
    have hown := levelTags_append node fields tags []
    rw [List.append_nil] at hown
    constructor
    · intro hall
      rw [hown]
      refine hall _ (List.mem_cons_self ..) ?_
      exact (builds_ne_nil_iff _).mpr ((builds_ne_nil_iff ⟨node, fields, timestamp, []⟩).mp hreads)
    · intro hc l hl _
      rw [hown] at hc
      exact hc.mono ((List.prefix_append_right_inj tags).mpr (isPrefix_tags hl))
  · rw [hcalls]
    simp only [carries_iff]

/-- Fields that do not repeat a tag are all in the window, in any order. -/
theorem inWindow_of_nodup (hnd : ((tagFields node fields).map TelemetryField.name).Nodup) :
    InWindow node fields tags := by
  have hsub : (tagFields node fields).map TelemetryField.name
      ⊆ (node.fieldsMapByType .tag).map Prod.fst := by
    intro n hn
    obtain ⟨f, hf, rfl⟩ := List.mem_map.mp hn
    obtain ⟨child, hg⟩ := Option.isSome_iff_exists.mp (List.mem_filter.mp hf).2
    exact List.mem_map.mpr ⟨_, GoMap.mem_of_get hg, rfl⟩
  have hlen := (hnd.subperm hsub).length_le
  rw [List.length_map, List.length_map] at hlen
  intro a ha
  refine ⟨a, List.mem_append_right _ ?_, rfl⟩
  rw [tagWindow, List.take_of_length_le hlen, tagAtoms_tagFields]
  exact ha

end Kept

/-- An interface with two tags and a sensor. -/
def taggedSpec : SpecNode :=
  .node "interface" false false
    [.node "vlan" true false [], .node "name" true false [], .node "in-octets" false false []]

/-- The node that is built from it. -/
def taggedNode : MetricsSpecNode :=
  .mk [0] "interface" false .container ""
    [.mk [0, 0] "vlan" false .tag "interface__vlan" [],
      .mk [0, 1] "name" false .tag "interface__name" [],
      .mk [0, 2] "in-octets" false .sensor "interface__in-octets" []]

/-- A leaf list of vlans in front of the name. -/
def vlanFields : List TelemetryField :=
  [.mk 0 "vlan" (some (.uint32 10)) [], .mk 0 "vlan" (some (.uint32 20)) [],
    .mk 0 "name" (some (.string "Gi0/0")) [], .mk 0 "in-octets" (some (.uint64 7)) []]

/-- The tags of the message. -/
def messageTags : List MetricsAtom :=
  [⟨"EncodingPath", .scalar (.string "intf")⟩, ⟨"Producer", .scalar (.string "r1")⟩]

/-- The sensor is exported without the name. -/
theorem vlanFields_lose_name :
    buildSpecDB sampleHandler [("intf", taggedSpec)] = .ok [("intf", taggedNode)] ∧
    ∃ b ∈ buildCalls (produceGPBKVMetricsForNode sampleHandler taggedNode vlanFields 0
      messageTags), ¬ Carries taggedNode vlanFields b.tags := by
  refine ⟨rfl, _, List.mem_singleton.mpr rfl, ?_⟩
  rw [carries_iff]
  decide

end PipelineTagPass
