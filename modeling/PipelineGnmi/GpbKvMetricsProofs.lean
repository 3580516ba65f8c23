import Mathlib.Data.List.Sigma
import PipelineGnmi.MetricsSpecProofs

/-! # Metrics from self-describing messages

    `produceGPBKVMetricsForNode` and `produceGPBKVMetrics` of `codec_gpb.go`.
    A level of a message is read three times: for tags, for sensors, and for
    the containers below, guided by the maps of the specification node.

    A field of a message has an address: its place among the rows, then its
    place among the fields of each field above it.  `nodeReadings` are the
    sensor readings a traversal owes, each under its address.  The traversal
    builds exactly these (`builds_forNode`), no address twice
    (`nodeReadings_nodup`), and an address is read exactly when the names on
    the way to it spell a path of the specification (`mem_nodeReadings`). -/

namespace PipelineGpbKvMetrics

open PipelineMessage PipelineDataMsg PipelineMetricsSpec

/-! ## The traversal -/

/-- The value of a K/V field as an atom carries it. -/
def atomOf : Option Scalar → AtomVal
  | none => .none
  | some v => .scalar v

/-- The more precise of two timestamps: a field's own, when it has one. -/
def chooseTimestamp (own inherited : UInt64) : UInt64 :=
  if own = 0 then inherited else own

/-- The first pass of `produceGPBKVMetricsForNode`: tags are collected until as
    many fields were matched as the level has tags. -/
def collectTags (fieldsMap : List (String × MetricsSpecNode)) (tagsTarget : Nat) :
    List TelemetryField → Nat → List MetricsAtom → List MetricsAtom
  | [], _, tags => tags
  | field :: rest, collected, tags =>
      match GoMap.get fieldsMap field.name with
      | none => collectTags fieldsMap tagsTarget rest collected tags
      | some child =>
          let tags :=
            match extractGPBKVNativeTypeFromOneof field false with
            | none => tags
            | some v => tags ++ [⟨child.fqName, .scalar v⟩]
          if collected + 1 ≥ tagsTarget then tags
          else collectTags fieldsMap tagsTarget rest (collected + 1) tags

variable {r : MetricsAtom × UInt64} {addr : List Nat} {i : Nat} {f : TelemetryField} (h : Handler)
  (node : MetricsSpecNode) (t : Telemetry) (fields : List TelemetryField) (inherited : UInt64)
  (chain : List TelemetryField) (timestamp : UInt64) (tags : List MetricsAtom)

/-- The tags in force at a level. -/
def levelTags (node : MetricsSpecNode) (fields : List TelemetryField)
    (tags : List MetricsAtom) : List MetricsAtom :=
  let fieldsMap := node.fieldsMapByType .tag
  if fieldsMap.length > 0 then collectTags fieldsMap fieldsMap.length fields 0 tags
  else tags

/-- The key a tracked sensor is recorded under. -/
def trackKey (h : Handler) (fqName : String) (tags : List MetricsAtom) : String :=
  tags.foldl (fun buf tag =>
    buf ++ (" " ++ tag.key ++ "=\"" ++ h.sprintAtom tag.val ++ "\"")) fqName

/-- The second pass: the calls made, then `ts` and `written` as they are left.
    Leaf lists repeat a name, so every field is looked at. -/
def sensorPass (h : Handler) (fieldsMap : List (String × MetricsSpecNode))
    (tags : List MetricsAtom) (timestamp : UInt64) :
    List TelemetryField → UInt64 → Bool → List MetricEvent × UInt64 × Bool
  | [], ts, written => ([], ts, written)
  | field :: rest, ts, written =>
      match GoMap.get fieldsMap field.name with
      | none => sensorPass h fieldsMap tags timestamp rest ts written
      | some child =>
          let ts := chooseTimestamp field.timestamp timestamp
          let tracked : List MetricEvent :=
            if child.track then [.statRecordUpdate (trackKey h child.fqName tags) ts]
            else []
          match extractGPBKVNativeTypeFromOneof field false with
          | none =>
              let r := sensorPass h fieldsMap tags timestamp rest ts written
              (tracked ++ r.1, r.2)
          | some v =>
              let r := sensorPass h fieldsMap tags timestamp rest ts true
              (tracked ++ .buildMetric tags ⟨child.fqName, .scalar v⟩ ts :: r.1, r.2)

/-- The second pass and the flush behind it.  The source skips the pass when
    the level has no sensors; an empty map matches no field. -/
def levelEvents (h : Handler) (node : MetricsSpecNode) (fields : List TelemetryField)
    (timestamp : UInt64) (tags : List MetricsAtom) : List MetricEvent :=
  let r := sensorPass h (node.fieldsMapByType .sensor) tags timestamp fields 0 false
  r.1 ++ if r.2.2 then [.flushMetric tags r.2.1] else []

mutual

/-- One field of the third pass: a container is entered, with the more precise
    timestamp carried down. -/
def produceGPBKVMetricsForField (h : Handler) :
    TelemetryField → MetricsSpecNode → UInt64 → List MetricsAtom → List MetricEvent
  | .mk own name _ sub, node, timestamp, tags =>
      match GoMap.get (node.fieldsMapByType .container) name with
      | none => []
      | some child =>
          levelEvents h child sub (chooseTimestamp own timestamp)
              (levelTags child sub tags)
            ++ produceGPBKVMetricsForFields h sub child (chooseTimestamp own timestamp)
                (levelTags child sub tags)

/-- The third pass. -/
def produceGPBKVMetricsForFields (h : Handler) :
    List TelemetryField → MetricsSpecNode → UInt64 → List MetricsAtom → List MetricEvent
  | [], _, _, _ => []
  | field :: rest, node, timestamp, tags =>
      produceGPBKVMetricsForField h field node timestamp tags
        ++ produceGPBKVMetricsForFields h rest node timestamp tags

end

/-- `produceGPBKVMetricsForNode`. -/
def produceGPBKVMetricsForNode (h : Handler) (node : MetricsSpecNode)
    (fields : List TelemetryField) (timestamp : UInt64) (tags : List MetricsAtom) :
    List MetricEvent :=
  levelEvents h node fields timestamp (levelTags node fields tags)
    ++ produceGPBKVMetricsForFields h fields node timestamp (levelTags node fields tags)

/-- The loop of `produceGPBKVMetrics` over the fields of a row: keys become
    tags for the content that follows them. -/
def produceGPBKVRow (h : Handler) (node : MetricsSpecNode) (timestamp : UInt64) :
    List TelemetryField → List MetricsAtom → List MetricEvent
  | [], _ => []
  | kcfield :: rest, tagsCopy =>
      let tagsCopy :=
        if kcfield.name = "keys" then
          tagsCopy ++ kcfield.fields.map (fun key =>
            ⟨h.adaptTagName key.name, atomOf (extractGPBKVNativeTypeFromOneof key false)⟩)
        else tagsCopy
      (if kcfield.name = "content" then
          produceGPBKVMetricsForNode h node kcfield.fields timestamp tagsCopy
        else [])
        ++ produceGPBKVRow h node timestamp rest tagsCopy

/-- `produceGPBKVMetrics`. -/
def produceGPBKVMetrics (h : Handler) (node : MetricsSpecNode) (t : Telemetry)
    (tags : List MetricsAtom) : List MetricEvent :=
  t.dataGpbkv.flatMap (fun topField =>
    produceGPBKVRow h node
      (if topField.timestamp ≠ 0 then topField.timestamp else t.msgTimestamp)
      topField.fields tags)

/-! ## Readings and their addresses -/

/-- The sensor atoms and timestamps of the `buildMetric` calls, in order. -/
def builds (evs : List MetricEvent) : List (MetricsAtom × UInt64) :=
  evs.filterMap (fun ev =>
    match ev with
    | .buildMetric _ sensor ts => some (sensor, ts)
    | _ => none)

@[simp] theorem builds_append (a b : List MetricEvent) : builds (a ++ b) = builds a ++ builds b :=
  List.filterMap_append

/-- The fields met on the way to an address in a forest of fields. -/
def fieldsAt : List TelemetryField → List Nat → Option (List TelemetryField)
  | _, [] => some []
  | fields, i :: rest =>
      match fields[i]? with
      | none => none
      | some f => (fieldsAt f.fields rest).map (f :: ·)

variable (row : TelemetryField) (msgTimestamp : UInt64)

/-- The sensor reading of the `i`-th field of a level, if it is one. -/
def sensorReading (node : MetricsSpecNode) (inherited : UInt64) (f : TelemetryField)
    (i : Nat) : List (List Nat × MetricsAtom × UInt64) :=
  match GoMap.get (node.fieldsMapByType .sensor) f.name, f.valueByType with
  | some child, some v =>
      [([i], ⟨child.fqName, .scalar v⟩, chooseTimestamp f.timestamp inherited)]
  | _, _ => []

/-- The sensor readings of a level, counting its fields from `i`. -/
def levelReadings (node : MetricsSpecNode) (inherited : UInt64)
    (fields : List TelemetryField) (i : Nat) : List (List Nat × MetricsAtom × UInt64) :=
  (fields.zipIdx i).flatMap (fun p => sensorReading node inherited p.1 p.2)

mutual

/-- The readings below the `i`-th field of a level. -/
def fieldReadings : TelemetryField → Nat → MetricsSpecNode → UInt64 →
    List (List Nat × MetricsAtom × UInt64)
  | .mk own name _ sub, i, node, inherited =>
      match GoMap.get (node.fieldsMapByType .container) name with
      | none => []
      | some child =>
          (levelReadings child (chooseTimestamp own inherited) sub 0
            ++ fieldsReadings sub 0 child (chooseTimestamp own inherited)).map
            (fun r => (i :: r.1, r.2))

/-- The readings below the fields of a level, counting from `i`. -/
def fieldsReadings : List TelemetryField → Nat → MetricsSpecNode → UInt64 →
    List (List Nat × MetricsAtom × UInt64)
  | [], _, _, _ => []
  | f :: rest, i, node, inherited =>
      fieldReadings f i node inherited ++ fieldsReadings rest (i + 1) node inherited

end

/-- The readings a node of the specification owes to a list of fields. -/
def nodeReadings (node : MetricsSpecNode) (fields : List TelemetryField)
    (inherited : UInt64) : List (List Nat × MetricsAtom × UInt64) :=
  levelReadings node inherited fields 0 ++ fieldsReadings fields 0 node inherited

theorem fieldReadings_eq (f : TelemetryField) (i : Nat) (node : MetricsSpecNode)
    (inherited : UInt64) :
    fieldReadings f i node inherited =
      match GoMap.get (node.fieldsMapByType .container) f.name with
      | none => []
      | some child =>
          (nodeReadings child f.fields (chooseTimestamp f.timestamp inherited)).map
            (fun r => (i :: r.1, r.2)) := by
  cases f
  rfl

/-! ## The traversal builds the readings -/

/-- One pass over the sensors of a level builds the readings of the level. -/
theorem builds_sensorPass (timestamp : UInt64) :
    ∀ (fields : List TelemetryField) (i : Nat) (ts : UInt64) (written : Bool),
      builds (sensorPass h (node.fieldsMapByType .sensor) tags timestamp fields ts
        written).1 = (levelReadings node timestamp fields i).map Prod.snd := by
  intro fields
  induction fields with
  | nil => intro i ts written; rfl
  | cons f rest ih =>
      intro i ts written
      -- tracking a sensor builds nothing
      have htrack : ∀ (c : MetricsSpecNode) (t : UInt64),
          builds (if c.track then
            [MetricEvent.statRecordUpdate (trackKey h c.fqName tags) t] else []) = [] := by
        intro c t
        split <;> rfl
      rw [levelReadings, List.zipIdx_cons, List.flatMap_cons, List.map_append,
        sensorReading, sensorPass]
      cases hg : GoMap.get (node.fieldsMapByType .sensor) f.name with
      | none => exact ih _ _ _
      | some child =>
          simp only [extractGPBKVNativeTypeFromOneof_any]
          cases hv : f.valueByType with
          | none =>
              rw [builds_append, htrack, ih (i + 1)]
              rfl
          | some v =>
              rw [builds_append, htrack]
              exact congrArg (List.cons _) (ih (i + 1) _ _)

theorem builds_levelEvents :
    builds (levelEvents h node fields timestamp tags)
      = (levelReadings node timestamp fields 0).map Prod.snd := by
  rw [levelEvents, builds_append, builds_sensorPass h node tags timestamp fields 0]
  split
  · exact List.append_nil _
  · exact List.append_nil _

mutual

theorem builds_forField (h : Handler) :
    ∀ (f : TelemetryField) (i : Nat) (node : MetricsSpecNode) (timestamp : UInt64)
      (tags : List MetricsAtom),
      builds (produceGPBKVMetricsForField h f node timestamp tags)
        = (fieldReadings f i node timestamp).map Prod.snd
  | .mk own name v sub, i, node, timestamp, tags => by
      unfold produceGPBKVMetricsForField fieldReadings
      cases GoMap.get (node.fieldsMapByType .container) name with
      | none => rfl
      | some child =>
          simp only [builds_append, builds_levelEvents,
            builds_forFields h sub 0 child (chooseTimestamp own timestamp),
            List.map_map, List.map_append]
          rfl

/-- The third pass builds the readings below the level. -/
theorem builds_forFields (h : Handler) :
    ∀ (fields : List TelemetryField) (i : Nat) (node : MetricsSpecNode)
      (timestamp : UInt64) (tags : List MetricsAtom),
      builds (produceGPBKVMetricsForFields h fields node timestamp tags)
        = (fieldsReadings fields i node timestamp).map Prod.snd
  | [], _, _, _, _ => rfl
  | f :: rest, i, node, timestamp, tags => by
      unfold produceGPBKVMetricsForFields fieldsReadings
      rw [builds_append, builds_forField h f i, builds_forFields h rest (i + 1),
        List.map_append]

end

/-- **A NODE BUILDS ITS READINGS**, in the order of the traversal. -/
theorem builds_forNode :
    builds (produceGPBKVMetricsForNode h node fields timestamp tags)
      = (nodeReadings node fields timestamp).map Prod.snd := by
  rw [produceGPBKVMetricsForNode, builds_append, builds_levelEvents,
    builds_forFields h fields 0, nodeReadings, List.map_append]

/-! ## Which addresses are read -/

/-- The readings below a level, field by field. -/
theorem fieldsReadings_eq :
    ∀ (fields : List TelemetryField) (i : Nat),
      fieldsReadings fields i node inherited
        = (fields.zipIdx i).flatMap (fun p => fieldReadings p.1 p.2 node inherited) := by
  intro fields
  induction fields with
  | nil => intro i; rfl
  | cons f rest ih =>
      intro i
      rw [fieldsReadings, ih (i + 1), List.zipIdx_cons, List.flatMap_cons]

/-- A sensor is read at its own place. -/
theorem mem_sensorReading {node : MetricsSpecNode} {inherited : UInt64} :
    (addr, r) ∈ sensorReading node inherited f i ↔
      addr = [i] ∧ ∃ child v,
        GoMap.get (node.fieldsMapByType .sensor) f.name = some child ∧
        f.valueByType = some v ∧
        r = (⟨child.fqName, .scalar v⟩, chooseTimestamp f.timestamp inherited) := by
  unfold sensorReading
  cases GoMap.get (node.fieldsMapByType .sensor) f.name with
  | none => simp
  | some child => cases f.valueByType <;> simp

/-- Below a container, addresses start with its place. -/
theorem mem_fieldReadings {node : MetricsSpecNode} {inherited : UInt64} :
    (addr, r) ∈ fieldReadings f i node inherited ↔
      ∃ child rest, GoMap.get (node.fieldsMapByType .container) f.name = some child ∧
        addr = i :: rest ∧
        (rest, r) ∈ nodeReadings child f.fields (chooseTimestamp f.timestamp inherited) := by
  rw [fieldReadings_eq]
  cases GoMap.get (node.fieldsMapByType .container) f.name with
  | none => simp
  | some child =>
      simp only [List.mem_map, Prod.mk.injEq, Option.some.injEq]
      constructor
      · rintro ⟨⟨rest, r'⟩, hmem, haddr, rfl⟩
        exact ⟨child, rest, rfl, haddr.symm, hmem⟩
      · rintro ⟨child', rest, rfl, rfl, hmem⟩
        exact ⟨(rest, r), hmem, rfl, rfl⟩

/-- A reading of a node is a sensor of the level or lies below one of its
    fields. -/
theorem mem_nodeReadings_iff {node : MetricsSpecNode} {fields : List TelemetryField}
    {inherited : UInt64} :
    (addr, r) ∈ nodeReadings node fields inherited ↔
      ∃ i f, fields[i]? = some f ∧
        ((addr, r) ∈ sensorReading node inherited f i ∨
          (addr, r) ∈ fieldReadings f i node inherited) := by
  rw [nodeReadings, fieldsReadings_eq, levelReadings, List.mem_append, List.mem_flatMap,
    List.mem_flatMap]
  constructor
  · rintro (⟨⟨f, i⟩, hi, hr⟩ | ⟨⟨f, i⟩, hi, hr⟩)
    · exact ⟨i, f, List.mk_mem_zipIdx_iff_getElem?.mp hi, Or.inl hr⟩
    · exact ⟨i, f, List.mk_mem_zipIdx_iff_getElem?.mp hi, Or.inr hr⟩
  · rintro ⟨i, f, hi, hr | hr⟩
    · exact Or.inl ⟨(f, i), List.mk_mem_zipIdx_iff_getElem?.mpr hi, hr⟩
    · exact Or.inr ⟨(f, i), List.mk_mem_zipIdx_iff_getElem?.mpr hi, hr⟩

/-- No reading has the empty address. -/
theorem nodeReadings_ne_nil {node : MetricsSpecNode} {fields : List TelemetryField}
    {inherited : UInt64} (h : (addr, r) ∈ nodeReadings node fields inherited) : addr ≠ [] := by
  obtain ⟨i, f, -, hr | hr⟩ := mem_nodeReadings_iff.mp h
  · obtain ⟨rfl, -⟩ := mem_sensorReading.mp hr
    exact List.cons_ne_nil _ _
  · obtain ⟨_, rest, -, rfl, -⟩ := mem_fieldReadings.mp hr
    exact List.cons_ne_nil _ _

/-- The timestamp a chain of fields carries down from an inherited one. -/
def chainTimestamp (inherited : UInt64) (chain : List TelemetryField) : UInt64 :=
  chain.foldl (fun ts f => chooseTimestamp f.timestamp ts) inherited

/-- A chain of fields whose names lead to a sensor of the node, the last field
    having a value: what it reads. -/
def Spells (node : MetricsSpecNode) (inherited : UInt64) (chain : List TelemetryField)
    (r : MetricsAtom × UInt64) : Prop :=
  ∃ f fqName v, chain.getLast? = some f ∧ f.valueByType = some v ∧
    BuiltAt node (chain.map TelemetryField.name) fqName ∧
    r = (⟨fqName, .scalar v⟩, chainTimestamp inherited chain)

theorem not_builtAt_nil {node : MetricsSpecNode} {fqName : String} : ¬ BuiltAt node [] fqName := by
  intro h
  cases h

theorem spells_singleton {node : MetricsSpecNode} {inherited : UInt64} :
    Spells node inherited [f] r ↔ ∃ child v,
      GoMap.get (node.fieldsMapByType .sensor) f.name = some child ∧
      f.valueByType = some v ∧
      r = (⟨child.fqName, .scalar v⟩, chooseTimestamp f.timestamp inherited) := by
  constructor
  · rintro ⟨g, fqName, v, hlast, hv, hat, rfl⟩
    cases hlast
    cases hat with
    | leaf hg => exact ⟨_, v, hg, hv, rfl⟩
    | step _ hat => exact absurd hat not_builtAt_nil
  · rintro ⟨child, v, hg, hv, rfl⟩
    exact ⟨f, child.fqName, v, rfl, hv, .leaf hg, rfl⟩

theorem spells_cons {node : MetricsSpecNode} {inherited : UInt64} {g : TelemetryField}
    {chain : List TelemetryField} :
    Spells node inherited (f :: g :: chain) r ↔ ∃ child,
      GoMap.get (node.fieldsMapByType .container) f.name = some child ∧
      Spells child (chooseTimestamp f.timestamp inherited) (g :: chain) r := by
  constructor
  · rintro ⟨l, fqName, v, hlast, hv, hat, rfl⟩
    rw [List.getLast?_cons_cons] at hlast
    cases hat with
    | step hg hat => exact ⟨_, hg, l, fqName, v, hlast, hv, hat, rfl⟩
  · rintro ⟨child, hg, l, fqName, v, hlast, hv, hat, rfl⟩
    exact ⟨l, fqName, v, by rw [List.getLast?_cons_cons, hlast], hv, .step hg hat, rfl⟩

/-- The chain to a longer address is longer. -/
theorem fieldsAt_cons {fields : List TelemetryField} {rest : List Nat}
    {chain : List TelemetryField} :
    fieldsAt fields (i :: rest) = some chain ↔
      ∃ f chain', fields[i]? = some f ∧ fieldsAt f.fields rest = some chain' ∧
        chain = f :: chain' := by
  rw [fieldsAt]
  cases fields[i]? with
  | none => simp
  | some f =>
      rw [Option.map_eq_some_iff]
      constructor
      · rintro ⟨chain', hc, rfl⟩
        exact ⟨f, chain', rfl, hc, rfl⟩
      · rintro ⟨f', chain', hf, hc, rfl⟩
        cases hf
        exact ⟨chain', hc, rfl⟩

/-- **READ IS SPELLED**: an address is read, with this atom and timestamp,
    exactly when the chain of fields to it spells a sensor of the node. -/
theorem mem_nodeReadings :
    ∀ (addr : List Nat) {node : MetricsSpecNode} {fields : List TelemetryField}
      {inherited : UInt64} {r : MetricsAtom × UInt64},
      (addr, r) ∈ nodeReadings node fields inherited ↔
        ∃ chain, fieldsAt fields addr = some chain ∧ Spells node inherited chain r := by
  -- induction on the address: it is what the three passes peel off, level by level
  intro addr
  induction addr with
  | nil =>
      intro node fields inherited r
      constructor
      · intro h
        exact absurd rfl (nodeReadings_ne_nil h)
      · rintro ⟨chain, hchain, _, _, _, hlast, -⟩
        cases hchain
        exact nomatch hlast
  | cons i rest ih =>
      intro node fields inherited r
      rw [mem_nodeReadings_iff]
      constructor
      · rintro ⟨j, f, hf, hr | hr⟩
        · obtain ⟨haddr, hread⟩ := mem_sensorReading.mp hr
          cases haddr
          exact ⟨[f], fieldsAt_cons.mpr ⟨f, [], hf, rfl, rfl⟩, spells_singleton.mpr hread⟩
        · obtain ⟨child, rest', hg, haddr, hmem⟩ := mem_fieldReadings.mp hr
          cases haddr
          obtain ⟨chain, hchain, hsp⟩ := ih.mp hmem
          refine ⟨f :: chain, fieldsAt_cons.mpr ⟨f, chain, hf, hchain, rfl⟩, ?_⟩
          cases chain with
          | nil =>
              obtain ⟨_, _, _, hlast, -⟩ := hsp
              exact nomatch hlast
          | cons g chain => exact spells_cons.mpr ⟨child, hg, hsp⟩
      · rintro ⟨chain, hchain, hsp⟩
        obtain ⟨f, chain', hf, hchain', rfl⟩ := fieldsAt_cons.mp hchain
        refine ⟨i, f, hf, ?_⟩
        cases rest with
        | nil =>
            cases hchain'
            exact Or.inl (mem_sensorReading.mpr ⟨rfl, spells_singleton.mp hsp⟩)
        | cons j rest =>
            obtain ⟨g, chain'', -, -, rfl⟩ := fieldsAt_cons.mp hchain'
            obtain ⟨child, hg, hsp'⟩ := spells_cons.mp hsp
            exact Or.inr (mem_fieldReadings.mpr
              ⟨child, j :: rest, hg, rfl, ih.mpr ⟨_, hchain', hsp'⟩⟩)

/-! ## No address is read twice -/

/-- Lists of addresses that start with the place they belong to do not
    overlap. -/
theorem nodup_places {α β : Type} (g : α → Nat → List (List Nat × β)) (l : List α)
    (hhead : ∀ f i addr r, (addr, r) ∈ g f i → addr.head? = some i)
    (hnd : ∀ f ∈ l, ∀ i, ((g f i).map Prod.fst).Nodup) :
    ((l.zipIdx.flatMap (fun p => g p.1 p.2)).map Prod.fst).Nodup := by
  rw [List.map_flatMap, List.nodup_flatMap]
  constructor
  · rintro ⟨f, i⟩ hp
    exact hnd f (List.mem_of_getElem? (List.mk_mem_zipIdx_iff_getElem?.mp hp)) i
  · have hidx := List.nodup_zipIdx_map_snd l
    rw [List.Nodup, List.pairwise_map] at hidx
    refine hidx.imp ?_
    rintro ⟨f, i⟩ ⟨f', i'⟩ hne addr haddr haddr'
    obtain ⟨⟨_, r⟩, hr, rfl⟩ := List.mem_map.mp haddr
    obtain ⟨⟨_, r'⟩, hr', heq⟩ := List.mem_map.mp haddr'
    have h1 := hhead _ _ _ _ hr
    have h2 := hhead _ _ _ _ hr'
    simp only at heq h2
    rw [heq, h1] at h2
    exact hne (Option.some.inj h2)

/-- The addresses below a common place stay distinct. -/
theorem nodup_below {β : Type} (i : Nat) {l : List (List Nat × β)} (hl : (l.map Prod.fst).Nodup) :
    ((l.map (fun r => (i :: r.1, r.2))).map Prod.fst).Nodup := by
  rw [List.map_map, show (Prod.fst ∘ fun r : List Nat × β => (i :: r.1, r.2))
    = List.cons i ∘ Prod.fst from rfl, ← List.map_map]
  exact hl.map List.cons_injective

/-- A node reads no address twice, if none of its fields does. -/
theorem nodeReadings_nodup_of {fields : List TelemetryField}
    (hsub : ∀ f ∈ fields, ∀ i node inherited,
      ((fieldReadings f i node inherited).map Prod.fst).Nodup)
    (node : MetricsSpecNode) (inherited : UInt64) :
    ((nodeReadings node fields inherited).map Prod.fst).Nodup := by
  rw [nodeReadings, fieldsReadings_eq, List.map_append, List.nodup_append]
  refine ⟨?_, ?_, ?_⟩
  · refine nodup_places _ fields ?_ ?_
    · intro f i addr r hr
      obtain ⟨rfl, -⟩ := mem_sensorReading.mp hr
      rfl
    · intro f _ i
      unfold sensorReading
      split <;> simp
  · refine nodup_places (fun f i => fieldReadings f i node inherited) fields ?_ ?_
    · intro f i addr r hr
      obtain ⟨_, rest, -, rfl, -⟩ := mem_fieldReadings.mp hr
      rfl
    · intro f hf i
      exact hsub f hf i node inherited
  · -- a sensor's address ends at the level, a container's goes on
    intro addr haddr addr' haddr' heq
    subst heq
    obtain ⟨⟨_, r⟩, hr, rfl⟩ := List.mem_map.mp haddr
    obtain ⟨⟨_, r'⟩, hr', heq⟩ := List.mem_map.mp haddr'
    obtain ⟨⟨f, i⟩, -, hr⟩ := List.mem_flatMap.mp hr
    obtain ⟨⟨f', i'⟩, -, hr'⟩ := List.mem_flatMap.mp hr'
    obtain ⟨rfl, -⟩ := mem_sensorReading.mp hr
    obtain ⟨child, rest, -, rfl, hmem⟩ := mem_fieldReadings.mp hr'
    cases heq
    exact nodeReadings_ne_nil hmem rfl

mutual

theorem fieldReadings_nodup : ∀ (f : TelemetryField) (i : Nat) (node : MetricsSpecNode)
    (inherited : UInt64), ((fieldReadings f i node inherited).map Prod.fst).Nodup
  | .mk own name v sub, i, node, inherited => by
      unfold fieldReadings
      cases GoMap.get (node.fieldsMapByType .container) name with
      | none => exact List.nodup_nil
      | some child =>
          have hsub := nodeReadings_nodup_of (fieldReadings_nodup_all sub) child
            (chooseTimestamp own inherited)
          exact nodup_below i hsub

theorem fieldReadings_nodup_all : ∀ (fields : List TelemetryField), ∀ f ∈ fields,
    ∀ (i : Nat) (node : MetricsSpecNode) (inherited : UInt64),
      ((fieldReadings f i node inherited).map Prod.fst).Nodup
  | [], _, hf, _, _, _ => nomatch hf
  | g :: rest, f, hf, i, node, inherited => by
      rcases List.mem_cons.mp hf with hfg | hf
      · rw [hfg]
        exact fieldReadings_nodup g i node inherited
      · exact fieldReadings_nodup_all rest f hf i node inherited

end

/-- **NO ADDRESS IS READ TWICE**. -/
theorem nodeReadings_nodup : ((nodeReadings node fields inherited).map Prod.fst).Nodup :=
  nodeReadings_nodup_of (fun f _ => fieldReadings_nodup f) node inherited

/-! ## Whole messages -/

/-- The timestamp of a row, or else the message's. -/
def rowTimestamp (row : TelemetryField) (msgTimestamp : UInt64) : UInt64 :=
  if row.timestamp ≠ 0 then row.timestamp else msgTimestamp

/-- The readings of the `i`-th field of a row: only content is read. -/
def contentReadings (node : MetricsSpecNode) (ts : UInt64) (kcfield : TelemetryField)
    (i : Nat) : List (List Nat × MetricsAtom × UInt64) :=
  if kcfield.name = "content" then
    (nodeReadings node kcfield.fields ts).map (fun r => (i :: r.1, r.2))
  else []

/-- The readings of the `i`-th row. -/
def rowReadings (node : MetricsSpecNode) (msgTimestamp : UInt64) (row : TelemetryField)
    (i : Nat) : List (List Nat × MetricsAtom × UInt64) :=
  (row.fields.zipIdx.flatMap (fun p =>
    contentReadings node (rowTimestamp row msgTimestamp) p.1 p.2)).map
      (fun r => (i :: r.1, r.2))

/-- The readings of a message; an address starts with the row and the content
    field it lies below. -/
def telemetryReadings (node : MetricsSpecNode) (t : Telemetry) :
    List (List Nat × MetricsAtom × UInt64) :=
  t.dataGpbkv.zipIdx.flatMap (fun p => rowReadings node t.msgTimestamp p.1 p.2)

/-- A row builds its readings, whatever tags its keys add. -/
theorem builds_row (ts : UInt64) :
    ∀ (fields : List TelemetryField) (i : Nat) (tags : List MetricsAtom),
      builds (produceGPBKVRow h node ts fields tags)
        = ((fields.zipIdx i).flatMap (fun p =>
            contentReadings node ts p.1 p.2)).map Prod.snd := by
  intro fields
  induction fields with
  | nil => intro i tags; rfl
  | cons kcfield rest ih =>
      intro i tags
      rw [produceGPBKVRow, builds_append, ih (i + 1), List.zipIdx_cons, List.flatMap_cons,
        List.map_append, contentReadings]
      by_cases hc : kcfield.name = "content"
      · rw [if_pos hc, if_pos hc, builds_forNode, List.map_map]
        rfl
      · rw [if_neg hc, if_neg hc]
        rfl

/-- **A MESSAGE BUILDS ITS READINGS**. -/
theorem builds_produceGPBKVMetrics :
    builds (produceGPBKVMetrics h node t tags)
      = (telemetryReadings node t).map Prod.snd := by
  have hrows : ∀ (rows : List TelemetryField) (i : Nat),
      builds (rows.flatMap (fun row => produceGPBKVRow h node
        (rowTimestamp row t.msgTimestamp) row.fields tags))
        = ((rows.zipIdx i).flatMap (fun p =>
            rowReadings node t.msgTimestamp p.1 p.2)).map Prod.snd := by
    intro rows
    induction rows with
    | nil => intro i; rfl
    | cons row rest ih =>
        intro i
        rw [List.flatMap_cons, builds_append, ih (i + 1), List.zipIdx_cons,
          List.flatMap_cons, List.map_append, builds_row h node _ row.fields 0 tags,
          rowReadings, List.map_map]
        rfl
  exact hrows t.dataGpbkv 0

theorem telemetryReadings_nodup : ((telemetryReadings node t).map Prod.fst).Nodup := by
  refine nodup_places _ t.dataGpbkv ?_ ?_
  · intro row i addr r hr
    obtain ⟨_, -, heq⟩ := List.mem_map.mp hr
    cases heq
    rfl
  · intro row _ i
    refine nodup_below i (nodup_places _ row.fields ?_ ?_)
    · intro kcfield j addr r hr
      unfold contentReadings at hr
      split at hr
      · obtain ⟨_, -, heq⟩ := List.mem_map.mp hr
        cases heq
        rfl
      · exact nomatch hr
    · intro kcfield _ j
      unfold contentReadings
      split
      · exact nodup_below j (nodeReadings_nodup _ _ _)
      · exact List.nodup_nil

/-- An address of a message is read exactly when it leads through a row and a
    content field to a chain that spells a sensor. -/
theorem mem_telemetryReadings {node : MetricsSpecNode} {t : Telemetry} :
    (addr, r) ∈ telemetryReadings node t ↔
      ∃ row content chain,
        fieldsAt t.dataGpbkv addr = some (row :: content :: chain) ∧
        content.name = "content" ∧
        Spells node (rowTimestamp row t.msgTimestamp) chain r := by
  rw [telemetryReadings, List.mem_flatMap]
  constructor
  · rintro ⟨⟨row, i⟩, hi, hr⟩
    obtain ⟨⟨rest, r'⟩, hrest, heq⟩ := List.mem_map.mp hr
    cases heq
    obtain ⟨⟨content, j⟩, hj, hc⟩ := List.mem_flatMap.mp hrest
    unfold contentReadings at hc
    split at hc
    · next hname =>
        obtain ⟨⟨rest', r'⟩, hrest', heq⟩ := List.mem_map.mp hc
        cases heq
        obtain ⟨chain, hchain, hsp⟩ := (mem_nodeReadings rest').mp hrest'
        refine ⟨row, content, chain, ?_, hname, hsp⟩
        have hcontent := fieldsAt_cons.mpr
          ⟨content, chain, List.mk_mem_zipIdx_iff_getElem?.mp hj, hchain, rfl⟩
        exact fieldsAt_cons.mpr
          ⟨row, content :: chain, List.mk_mem_zipIdx_iff_getElem?.mp hi, hcontent, rfl⟩
    · exact nomatch hc
  · rintro ⟨row, content, chain, hat, hname, hsp⟩
    cases addr with
    | nil => exact nomatch hat
    | cons i rest =>
        obtain ⟨f, chain', hi, hat', heq⟩ := fieldsAt_cons.mp hat
        cases heq
        cases rest with
        | nil => exact nomatch hat'
        | cons j rest =>
            obtain ⟨f', chain'', hj, hat'', heq⟩ := fieldsAt_cons.mp hat'
            cases heq
            refine ⟨(row, i), List.mk_mem_zipIdx_iff_getElem?.mpr hi, List.mem_map.mpr
              ⟨(j :: rest, r), List.mem_flatMap.mpr
                ⟨(content, j), List.mk_mem_zipIdx_iff_getElem?.mpr hj, ?_⟩, rfl⟩⟩
            simp only [contentReadings, if_pos hname]
            exact List.mem_map.mpr
              ⟨(rest, r), (mem_nodeReadings rest).mpr ⟨chain, hat'', hsp⟩, rfl⟩

/-- The innermost non-zero timestamp of a chain, then the row's, then the
    message's. -/
def innermostTimestamp (chain : List TelemetryField) (row : TelemetryField)
    (msgTimestamp : UInt64) : UInt64 :=
  (((chain.reverse ++ [row]).map TelemetryField.timestamp).find?
    (fun ts => decide (ts ≠ 0))).getD msgTimestamp

/-- Carrying the more precise timestamp down finds the innermost one. -/
theorem chainTimestamp_row :
    ∀ chain : List TelemetryField,
      chainTimestamp (rowTimestamp row msgTimestamp) chain
        = innermostTimestamp chain row msgTimestamp := by
  intro chain
  induction chain using List.reverseRecOn with
  | nil =>
      by_cases hr : row.timestamp = 0
      · simp [chainTimestamp, rowTimestamp, innermostTimestamp, hr]
      · simp [chainTimestamp, rowTimestamp, innermostTimestamp, hr]
  | append_singleton rest f ih =>
      have hlast : chainTimestamp (rowTimestamp row msgTimestamp) (rest ++ [f])
          = chooseTimestamp f.timestamp
              (chainTimestamp (rowTimestamp row msgTimestamp) rest) :=
        List.foldl_append
      rw [hlast, ih]
      by_cases hf : f.timestamp = 0
      · simp [chooseTimestamp, innermostTimestamp, hf]
      · simp [chooseTimestamp, innermostTimestamp, hf]

/-- A field instance matches the specification: it has a value and lies below a
    content field of a row, and the names on the chain of fields from there to
    it spell a path from the root to a sensor. -/
def PathMatch (h : Handler) (root : SpecNode) (t : Telemetry) (addr : List Nat)
    (sensor : MetricsAtom) (ts : UInt64) : Prop :=
  ∃ row content chain f fqName v,
    fieldsAt t.dataGpbkv addr = some (row :: content :: chain) ∧
    content.name = "content" ∧
    chain.getLast? = some f ∧ f.valueByType = some v ∧
    SensorAt h "" root (chain.map TelemetryField.name) fqName ∧
    sensor = ⟨fqName, .scalar v⟩ ∧
    ts = innermostTimestamp chain row t.msgTimestamp

/-- **READINGS ARE PATH MATCHES** of the specification the node was built
    from. -/
theorem mem_telemetryReadings_iff_pathMatch {h : Handler} {root : SpecNode}
    {ptr : List Nat} {node : MetricsSpecNode}
    (hb : buildSpecDBSubtree h "__" root ptr "" = .ok node)
    (hd : DistinctSiblings root) (t : Telemetry) (addr : List Nat)
    (sensor : MetricsAtom) (ts : UInt64) :
    (addr, sensor, ts) ∈ telemetryReadings node t ↔ PathMatch h root t addr sensor ts := by
  rw [mem_telemetryReadings]
  constructor
  · rintro ⟨row, content, chain, hat, hname, f, fqName, v, hlast, hv, hbuilt, heq⟩
    rw [chainTimestamp_row] at heq
    cases heq
    exact ⟨row, content, chain, f, fqName, v, hat, hname, hlast, hv,
      (sensorAt_iff_builtAt hb hd _ _).mpr hbuilt, rfl, rfl⟩
  · rintro ⟨row, content, chain, f, fqName, v, hat, hname, hlast, hv, hs, rfl, rfl⟩
    refine ⟨row, content, chain, hat, hname, f, fqName, v, hlast, hv,
      (sensorAt_iff_builtAt hb hd _ _).mp hs, ?_⟩
    rw [chainTimestamp_row]

end PipelineGpbKvMetrics
