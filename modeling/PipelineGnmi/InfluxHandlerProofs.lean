import PipelineGnmi.Float64Proofs
import PipelineGnmi.MetricGroupsProofs

/-! # Points from metrics

    The output handler of `metrics_influx.go`: `buildMetric` gathers the atoms of
    a point and `flushMetric` assembles them into one.  A point maps a name to one
    value, so of a leaf list, which the producer builds value by value under one
    name, only the last value gets into the point.

    `run_eq` says what a batch holds after any calls: one point for each group of
    metrics that the client accepts.  `influx_conserves_iff` says for which
    messages this is every metric that was built. -/

namespace PipelineInfluxHandler

open PipelineMessage PipelineDataMsg PipelineMetricsSpec PipelineGpbKvMetrics
open PipelineGpbMetrics PipelineMetricGroups
open PipelineTagCoherence hiding produceMetrics

/-! ## The handler -/

/-- What `client.NewPoint` is given; the time is in nanoseconds. -/
structure Point where
  name : String
  tags : List (String × String)
  fields : List (String × AtomVal)
  time : Int64

/-- `metricsInfluxOutputContext`; a nil list of fields is the empty one, since a
    list that is made gets an atom at once. -/
structure InfluxContext where
  name : String
  fields : List MetricsAtom
  bp : List Point

/-- The rewrite of `buildMetric`; a reflected value is a `reflect.Value`, whatever
    it holds. -/
def rewriteUint64 : AtomVal → AtomVal
  | .scalar (.uint64 n) => .scalar (.double (Float64.ofNat n.toNat))
  | v => v

/-- `buildMetric`. -/
def buildMetric (sensor : MetricsAtom) (c : InfluxContext) : InfluxContext :=
  { c with fields := c.fields ++ [{ sensor with val := rewriteUint64 sensor.val }] }

section Handler

variable (sprintAtom : AtomVal → String) (newPoint : Point → Bool)

/-- The point `flushMetric` asks for. -/
def assemble (name : String) (atoms tags : List MetricsAtom) (ts : UInt64) : Point where
  name := name
  tags := GoMap.fill (tags.map (fun a => (a.key, sprintAtom a.val))) []
  fields := GoMap.fill (atoms.map (fun a => (a.key, a.val))) []
  time := ts.toInt64 * 1000 * 1000

/-- `flushMetric`; `newPoint` tells whether the client makes the point. -/
def flushMetric (tags : List MetricsAtom) (ts : UInt64) (c : InfluxContext) : InfluxContext :=
  if c.fields.isEmpty then c
  else
    let pt := assemble sprintAtom c.name c.fields tags ts
    { c with bp := if newPoint pt then c.bp ++ [pt] else c.bp, fields := [] }

/-- One call of a producer; statistics are kept elsewhere. -/
def call (c : InfluxContext) : MetricEvent → InfluxContext
  | .buildMetric _ sensor _ => buildMetric sensor c
  | .flushMetric tags ts => flushMetric sprintAtom newPoint tags ts c
  | .statRecordUpdate _ _ => c

/-- The calls of a producer, in order. -/
def run (c : InfluxContext) (evs : List MetricEvent) : InfluxContext :=
  evs.foldl (call sprintAtom newPoint) c

/-! ## What a batch holds -/

/-- The atoms gathered for some builds. -/
def gathered (bs : List Build) : List MetricsAtom :=
  bs.map (fun b => { b.sensor with val := rewriteUint64 b.sensor.val })

/-- The point of a group. -/
def groupPoint (name : String) (g : Group) : Point :=
  assemble sprintAtom name (gathered g.builds) g.tags g.ts

/-- The point of a group, if it is made: there are atoms and the client takes
    them. -/
def groupPoint? (name : String) (g : Group) : Option Point :=
  if g.builds.isEmpty then none
  else if newPoint (groupPoint sprintAtom name g) then some (groupPoint sprintAtom name g)
  else none

theorem gathered_append (a b : List Build) : gathered (a ++ b) = gathered a ++ gathered b :=
  List.map_append

/-- A flush makes the point of what is gathered. -/
theorem flushMetric_eq (name : String) (bp : List Point) (pend : List Build)
    (tags : List MetricsAtom) (ts : UInt64) :
    flushMetric sprintAtom newPoint tags ts ⟨name, gathered pend, bp⟩
      = ⟨name, [],
          bp ++ (groupPoint? sprintAtom newPoint name ⟨pend, tags, ts⟩).toList⟩ := by
  cases pend with
  | nil => exact congrArg (InfluxContext.mk name []) (List.append_nil bp).symm
  | cons b rest =>
      show InfluxContext.mk name [] (if newPoint (groupPoint sprintAtom name
          ⟨b :: rest, tags, ts⟩) then bp ++ [groupPoint sprintAtom name ⟨b :: rest, tags, ts⟩]
          else bp) = ⟨name, [], bp ++ (if newPoint (groupPoint sprintAtom name
          ⟨b :: rest, tags, ts⟩) then some (groupPoint sprintAtom name ⟨b :: rest, tags, ts⟩)
          else none).toList⟩
      split
      · rfl
      · rw [Option.toList_none, List.append_nil]

/-- **THE BATCH IS THE POINTS OF THE GROUPS**, in order; what is gathered are the
    builds that are still open. -/
theorem run_eq :
    ∀ (evs : List MetricEvent) (pend : List Build) (name : String) (bp : List Point),
      run sprintAtom newPoint ⟨name, gathered pend, bp⟩ evs
        = ⟨name, gathered (openBuilds pend evs),
            bp ++ (groupsFrom pend evs).filterMap (groupPoint? sprintAtom newPoint name)⟩ := by
  intro evs
  induction evs with
  | nil =>
      intro pend name bp
      rw [groupsFrom, List.filterMap_nil, List.append_nil]
      rfl
  | cons ev rest ih =>
      intro pend name bp
      rw [run, List.foldl_cons]
      cases ev with
      | buildMetric tags sensor ts =>
          rw [openBuilds, groupsFrom, ← ih, gathered_append]
          rfl
      | statRecordUpdate key ts => exact ih pend name bp
      | flushMetric tags ts =>
          rw [openBuilds, groupsFrom, call, flushMetric_eq]
          refine (ih [] name _).trans ?_
          rw [List.append_assoc, List.filterMap_cons]
          cases groupPoint? sprintAtom newPoint name ⟨pend, tags, ts⟩ <;> rfl

end Handler

/-! ## What a point keeps -/

/-- A point has all the fields of a group exactly when no name was built with two
    values. -/
theorem groupPoint_carries_iff (sprintAtom : AtomVal → String) (name : String) (g : Group) :
    (∀ b ∈ g.builds, GoMap.get (groupPoint sprintAtom name g).fields b.sensor.key
        = some (rewriteUint64 b.sensor.val)) ↔
      ∀ b ∈ g.builds, ∀ b' ∈ g.builds, b.sensor.key = b'.sensor.key →
        rewriteUint64 b.sensor.val = rewriteUint64 b'.sensor.val := by
  have hfields : (groupPoint sprintAtom name g).fields
      = GoMap.fill (g.builds.map (fun b => (b.sensor.key, rewriteUint64 b.sensor.val))) [] := by
    rw [groupPoint, assemble, gathered, List.map_map]
    rfl
  have hfill := GoMap.get_fill_iff
    (g.builds.map (fun b => (b.sensor.key, rewriteUint64 b.sensor.val)))
  rw [List.forall_mem_map] at hfill
  rw [hfields, hfill, List.forall_mem_map]
  refine forall₂_congr fun b _ => ?_
  rw [List.forall_mem_map]

/-- Pairing a list with what a partial function makes of it: nothing is left
    out. -/
theorem forall₂_filterMap_iff {α β : Type} {f : α → Option β} {R : α → β → Prop} :
    ∀ l : List α, List.Forall₂ R l (l.filterMap f) ↔ ∀ a ∈ l, ∃ b, f a = some b ∧ R a b := by
  intro l
  induction l with
  | nil => exact ⟨fun _ _ h => absurd h List.not_mem_nil, fun _ => .nil⟩
  | cons a rest ih =>
      rw [List.forall_mem_cons]
      cases hf : f a with
      | none =>
          rw [List.filterMap_cons_none hf]
          constructor
          · intro hall
            have hlen := hall.length_eq
            have hle := List.length_filterMap_le f rest
            rw [List.length_cons] at hlen
            omega
          · rintro ⟨⟨b, hb, -⟩, -⟩
            cases hb
      | some b =>
          rw [List.filterMap_cons_some hf, List.forall₂_cons, ih]
          simp

/-- Nothing built is lost: the calls fall into groups, the batch has one point for
    each group, with every field built for it, and nothing is left to flush. -/
structure Conserves (evs : List MetricEvent) (c : InfluxContext) : Prop where
  split : (groups evs).flatMap Group.builds = buildCalls evs
  carried : List.Forall₂ (fun g pt => ∀ b ∈ g.builds,
    GoMap.get pt.fields b.sensor.key = some (rewriteUint64 b.sensor.val)) (groups evs) c.bp
  rest : c.fields = []

/-- Over solid calls, a batch is complete when the client takes the point of
    every group and no group has a name with two values. -/
theorem conserves_iff (sprintAtom : AtomVal → String) (newPoint : Point → Bool)
    (name : String) {evs : List MetricEvent} (hs : Solid evs) :
    Conserves evs (run sprintAtom newPoint ⟨name, [], []⟩ evs) ↔
      ∀ g ∈ groups evs, newPoint (groupPoint sprintAtom name g) = true ∧
        ∀ b ∈ g.builds, ∀ b' ∈ g.builds, b.sensor.key = b'.sensor.key →
          rewriteUint64 b.sensor.val = rewriteUint64 b'.sensor.val := by
  have hrun := run_eq sprintAtom newPoint evs [] name []
  rw [settled_openBuilds hs.settled, List.nil_append] at hrun
  have hbatch : (run sprintAtom newPoint ⟨name, [], []⟩ evs).bp
      = (groups evs).filterMap (groupPoint? sprintAtom newPoint name) :=
    congrArg InfluxContext.bp hrun
  have hpoint : ∀ g ∈ groups evs, groupPoint? sprintAtom newPoint name g
      = if newPoint (groupPoint sprintAtom name g) then some (groupPoint sprintAtom name g)
        else none := by
    intro g hg
    rw [groupPoint?, if_neg (fun hempty => hs.built g hg (List.isEmpty_iff.mp hempty))]
  constructor
  · rintro ⟨-, hcarried, -⟩ g hg
    rw [hbatch, forall₂_filterMap_iff] at hcarried
    obtain ⟨pt, hpt, hfields⟩ := hcarried g hg
    rw [hpoint g hg] at hpt
    split at hpt
    · next hnew =>
        obtain rfl := Option.some.inj hpt
        exact ⟨hnew, (groupPoint_carries_iff sprintAtom name g).mp hfields⟩
    · cases hpt
  · intro hgroups
    refine ⟨flatMap_groups hs.settled, ?_, congrArg InfluxContext.fields hrun⟩
    rw [hbatch, forall₂_filterMap_iff]
    intro g hg
    obtain ⟨hnew, hvalues⟩ := hgroups g hg
    refine ⟨groupPoint sprintAtom name g, ?_, ?_⟩
    · rw [hpoint g hg, if_pos hnew]
    · exact (groupPoint_carries_iff sprintAtom name g).mpr hvalues

/-! ## Self-describing messages -/

/-- The levels of a message that are read with the specification of its path. -/
def kvLevels (env : MetricsEnv) (m : DataMsgGPB) : List Level :=
  match GoMap.get env.specDB m.cachedDecode.encodingPath with
  | none => []
  | some node => messageLevels env.handler node m.cachedDecode (baseTags m)

/-- The fields of a level that go by the name of one sensor have one value, as it
    gets into a point. -/
def SingleValued (l : Level) : Prop :=
  ∀ f ∈ l.fields, ∀ f' ∈ l.fields, ∀ child child' v v',
    GoMap.get (l.node.fieldsMapByType .sensor) f.name = some child →
    GoMap.get (l.node.fieldsMapByType .sensor) f'.name = some child' →
    f.valueByType = some v → f'.valueByType = some v' → child.fqName = child'.fqName →
    rewriteUint64 (.scalar v) = rewriteUint64 (.scalar v')

/-- The client takes the point of the level, if a sensor of the level has a
    value. -/
def Accepted (sprintAtom : AtomVal → String) (newPoint : Point → Bool) (name : String)
    (l : Level) : Prop :=
  (∃ f ∈ l.sensorFields, f.valueByType.isSome) →
    newPoint (groupPoint sprintAtom name ⟨l.builds, l.tags, l.flushTs⟩) = true

theorem groups_produceMetrics_kv (env : MetricsEnv) {m : DataMsgGPB}
    (hkv : m.cachedDecode.dataGpb = none) (c : NameCache) :
    groups (produceMetrics env m c).1 = (kvLevels env m).filterMap Level.group? := by
  rw [produceMetrics, kvLevels]
  cases GoMap.get env.specDB m.cachedDecode.encodingPath with
  | none => rfl
  | some node =>
      simp only [hkv]
      exact groups_produceGPBKVMetrics env.handler node m.cachedDecode (baseTags m)

theorem singleValued_iff (l : Level) :
    SingleValued l ↔ ∀ b ∈ l.builds, ∀ b' ∈ l.builds, b.sensor.key = b'.sensor.key →
      rewriteUint64 b.sensor.val = rewriteUint64 b'.sensor.val := by
  constructor
  · intro hl b hb b' hb' hkey
    obtain ⟨f, hf, hbuild⟩ := List.mem_filterMap.mp hb
    obtain ⟨f', hf', hbuild'⟩ := List.mem_filterMap.mp hb'
    obtain ⟨child, v, hchild, hv, rfl⟩ := build?_eq_some.mp hbuild
    obtain ⟨child', v', hchild', hv', rfl⟩ := build?_eq_some.mp hbuild'
    exact hl f hf f' hf' child child' v v' hchild hchild' hv hv' hkey
  · intro hl f hf f' hf' child child' v v' hchild hchild' hv hv' hkey
    have hb : (⟨l.tags, ⟨child.fqName, .scalar v⟩, l.fieldTs f⟩ : Build) ∈ l.builds :=
      List.mem_filterMap.mpr ⟨f, hf, build?_eq_some.mpr ⟨child, v, hchild, hv, rfl⟩⟩
    have hb' : (⟨l.tags, ⟨child'.fqName, .scalar v'⟩, l.fieldTs f'⟩ : Build) ∈ l.builds :=
      List.mem_filterMap.mpr ⟨f', hf', build?_eq_some.mpr ⟨child', v', hchild', hv', rfl⟩⟩
    exact hl _ hb _ hb' hkey

/-- **WHEN NO SENSOR VALUE IS LOST**: over a fresh batch, for every specification
    and self-describing message, and whatever the client accepts. -/
theorem influx_conserves_iff (env : MetricsEnv) (newPoint : Point → Bool) (name : String)
    (m : DataMsgGPB) (hkv : m.cachedDecode.dataGpb = none) (c : NameCache) :
    Conserves (produceMetrics env m c).1
        (run env.handler.sprintAtom newPoint ⟨name, [], []⟩ (produceMetrics env m c).1) ↔
      ∀ l ∈ kvLevels env m, SingleValued l ∧
        Accepted env.handler.sprintAtom newPoint name l := by
  have hgroups := groups_produceMetrics_kv env hkv c
  rw [conserves_iff _ _ _ (solid_produceMetrics env m c), hgroups]
  constructor
  · intro hall l hl
    by_cases hne : l.builds = []
    · -- a level that built nothing has nothing to lose
      constructor
      · rw [singleValued_iff, hne]
        exact fun _ hb => absurd hb List.not_mem_nil
      · intro hread
        exact absurd hne ((builds_ne_nil_iff l).mpr hread)
    · have hg := List.mem_filterMap.mpr ⟨l, hl, Level.group?_eq_some.mpr ⟨hne, rfl⟩⟩
      obtain ⟨hnew, hvalues⟩ := hall _ hg
      exact ⟨(singleValued_iff l).mpr hvalues, fun _ => hnew⟩
  · intro hall g hg
    obtain ⟨l, hl, hgroup⟩ := List.mem_filterMap.mp hg
    obtain ⟨hne, rfl⟩ := Level.group?_eq_some.mp hgroup
    obtain ⟨hsingle, haccept⟩ := hall l hl
    exact ⟨haccept ((builds_ne_nil_iff l).mp hne), (singleValued_iff l).mp hsingle⟩

/-- On the sample the two sides can be told apart: its leaf list has two values. -/
theorem influx_conserves_sample :
    (∃ l ∈ kvLevels sampleEnv sampleKv, ∃ f ∈ l.sensorFields, f.valueByType.isSome) ∧
      (Conserves (produceMetrics sampleEnv sampleKv ⟨[], [], 0⟩).1
        (run sampleEnv.handler.sprintAtom (fun _ => true) ⟨"intf", [], []⟩
          (produceMetrics sampleEnv sampleKv ⟨[], [], 0⟩).1) ↔
      ∀ l ∈ kvLevels sampleEnv sampleKv, SingleValued l ∧
        Accepted sampleEnv.handler.sprintAtom (fun _ => true) "intf" l) :=
  ⟨⟨_, List.mem_cons_self .., _, List.mem_cons_self .., rfl⟩,
    influx_conserves_iff sampleEnv (fun _ => true) "intf" sampleKv rfl ⟨[], [], 0⟩⟩

/-- The first value of the leaf list of the sample is in no point: the field has
    the second one. -/
theorem influx_loses_leaf_list :
    (run sampleEnv.handler.sprintAtom (fun _ => true) ⟨"intf", [], []⟩
        (produceMetrics sampleEnv sampleKv ⟨[], [], 0⟩).1).bp.map Point.fields
      = [[("up", .scalar (.bool true))],
          [("stats__bytes", .scalar (.double (Float64.ofNat 4)))]] ∧
      ¬ Conserves (produceMetrics sampleEnv sampleKv ⟨[], [], 0⟩).1
        (run sampleEnv.handler.sprintAtom (fun _ => true) ⟨"intf", [], []⟩
          (produceMetrics sampleEnv sampleKv ⟨[], [], 0⟩).1) := by
  refine ⟨rfl, ?_⟩
  rintro ⟨-, hcarried, -⟩
  obtain ⟨-, hbytes⟩ := List.forall₂_cons.mp hcarried
  have hfirst := (List.forall₂_cons.mp hbytes).1 _ (List.mem_cons_self ..)
  have hdouble : Float64.ofNat 4 = Float64.ofNat 3 := by
    injection hfirst with hval
    injection hval with hval
    injection hval
  exact absurd hdouble (by decide)

end PipelineInfluxHandler
