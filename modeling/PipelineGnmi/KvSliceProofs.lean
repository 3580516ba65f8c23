import PipelineGnmi.GoSliceProofs
import PipelineGnmi.GpbMetricsProofs

/-! # Tags as slices

    `produceGPBKVMetricsForNode` and `produceGPBKVMetrics` of `codec_gpb.go` pass
    their tags as a slice.  `tagsCopy := tags` copies the slice and not the array
    behind it, so that the keys of every row and the tags of every container are
    appended to one array of eight, until it is full.

    Here the traversal runs over a heap of arrays, and a call shows what its slice
    shows at that moment.  The calls are those of the traversal over immutable
    lists (`tag_sharing_invisible`): a level writes behind the slice it was lent
    only, and is through with its own slice before its caller goes on. -/

namespace PipelineKvSlices

open GoSlice PipelineMessage PipelineDataMsg PipelineMetricsSpec PipelineGpbKvMetrics
open PipelineGpbMetrics (MetricsEnv NameCache baseTags)

/-- The zero value of a `metricsAtom`. -/
def zeroAtom : MetricsAtom := ⟨"", .none⟩

section Traversal

variable (h : Handler) (g : Growth)

/-- The first pass of `produceGPBKVMetricsForNode`. -/
def collectTags (fieldsMap : List (String × MetricsSpecNode)) (tagsTarget : Nat) :
    List TelemetryField → Nat → Heap MetricsAtom × Slice → Heap MetricsAtom × Slice
  | [], _, r => r
  | field :: rest, collected, r =>
      match GoMap.get fieldsMap field.name with
      | none => collectTags fieldsMap tagsTarget rest collected r
      | some child =>
          let r :=
            match extractGPBKVNativeTypeFromOneof field false with
            | none => r
            | some v => r.1.append g zeroAtom r.2 ⟨child.fqName, .scalar v⟩
          if collected + 1 ≥ tagsTarget then r
          else collectTags fieldsMap tagsTarget rest (collected + 1) r

/-- The tags in force at a level. -/
def levelTags (node : MetricsSpecNode) (fields : List TelemetryField)
    (r : Heap MetricsAtom × Slice) : Heap MetricsAtom × Slice :=
  let fieldsMap := node.fieldsMapByType .tag
  if fieldsMap.length > 0 then collectTags g fieldsMap fieldsMap.length fields 0 r else r

mutual

/-- One field of the third pass.  The second pass and the flush append nothing:
    what their calls show of the tags is what the slice shows as they start. -/
def produceGPBKVMetricsForField : TelemetryField → MetricsSpecNode → UInt64 →
    Heap MetricsAtom × Slice → Heap MetricsAtom × List MetricEvent
  | .mk own name _ sub, node, timestamp, r =>
      match GoMap.get (node.fieldsMapByType .container) name with
      | none => (r.1, [])
      | some child =>
          let ts := chooseTimestamp own timestamp
          let r := levelTags g child sub r
          let below := produceGPBKVMetricsForFields sub child ts r
          (below.1, levelEvents h child sub ts (r.1.contents r.2) ++ below.2)

/-- The third pass: every container is lent the tags of the level. -/
def produceGPBKVMetricsForFields : List TelemetryField → MetricsSpecNode → UInt64 →
    Heap MetricsAtom × Slice → Heap MetricsAtom × List MetricEvent
  | [], _, _, r => (r.1, [])
  | field :: rest, node, timestamp, r =>
      let first := produceGPBKVMetricsForField field node timestamp r
      let others := produceGPBKVMetricsForFields rest node timestamp (first.1, r.2)
      (others.1, first.2 ++ others.2)

end

/-- `produceGPBKVMetricsForNode`. -/
def produceGPBKVMetricsForNode (node : MetricsSpecNode) (fields : List TelemetryField)
    (timestamp : UInt64) (r : Heap MetricsAtom × Slice) : Heap MetricsAtom × List MetricEvent :=
  let r := levelTags g node fields r
  let below := produceGPBKVMetricsForFields h g fields node timestamp r
  (below.1, levelEvents h node fields timestamp (r.1.contents r.2) ++ below.2)

/-- The keys of a row, appended one by one. -/
def appendKeys (keys : List TelemetryField) (r : Heap MetricsAtom × Slice) :
    Heap MetricsAtom × Slice :=
  keys.foldl (fun r key => r.1.append g zeroAtom r.2
    ⟨h.adaptTagName key.name, atomOf (extractGPBKVNativeTypeFromOneof key false)⟩) r

/-- The loop of `produceGPBKVMetrics` over the fields of a row. -/
def produceGPBKVRow (node : MetricsSpecNode) (timestamp : UInt64) :
    List TelemetryField → Heap MetricsAtom × Slice → Heap MetricsAtom × List MetricEvent
  | [], r => (r.1, [])
  | kcfield :: rest, r =>
      let r := if kcfield.name = "keys" then appendKeys h g kcfield.fields r else r
      let content :=
        if kcfield.name = "content" then
          produceGPBKVMetricsForNode h g node kcfield.fields timestamp r
        else (r.1, [])
      let others := produceGPBKVRow node timestamp rest (content.1, r.2)
      (others.1, content.2 ++ others.2)

/-- The loop of `produceGPBKVMetrics` over the rows: each starts from the slice
    the message was given. -/
def produceGPBKVRows (node : MetricsSpecNode) (msgTimestamp : UInt64) :
    List TelemetryField → Heap MetricsAtom × Slice → Heap MetricsAtom × List MetricEvent
  | [], r => (r.1, [])
  | topField :: rest, r =>
      let row := produceGPBKVRow h g node
        (if topField.timestamp ≠ 0 then topField.timestamp else msgTimestamp)
        topField.fields r
      let others := produceGPBKVRows node msgTimestamp rest (row.1, r.2)
      (others.1, row.2 ++ others.2)

/-- `produceGPBKVMetrics`. -/
def produceGPBKVMetrics (node : MetricsSpecNode) (t : Telemetry)
    (r : Heap MetricsAtom × Slice) : Heap MetricsAtom × List MetricEvent :=
  produceGPBKVRows h g node t.msgTimestamp t.dataGpbkv r

end Traversal

/-- A self-describing message. -/
def KvMsg : Type := { m : DataMsgGPB // m.cachedDecode.dataGpb = none }

/-- The slice `produceMetrics` starts with: room for eight, the first two filled
    in. -/
def startTags (m : DataMsgGPB) (H : Heap MetricsAtom) : Heap MetricsAtom × Slice :=
  let tags := (H.make zeroAtom 2 8 (by decide)).2
  let H := (H.make zeroAtom 2 8 (by decide)).1
  let H := H.assign tags 0 ⟨"EncodingPath", .scalar (.string m.cachedDecode.encodingPath)⟩
  let nodeId := m.cachedDecode.nodeIdStr.getD ""
  let H := H.assign tags 1 ⟨"Producer", .scalar (.string nodeId)⟩
  let H :=
    if nodeId = "" then H.assign tags 1 ⟨"Producer", .scalar (.string m.source)⟩ else H
  (H, tags)

/-- `dataMsgGPB.produceMetrics` for a self-describing message. -/
def produceMetrics (env : MetricsEnv) (g : Growth) (m : KvMsg) (H : Heap MetricsAtom) :
    Heap MetricsAtom × List MetricEvent :=
  match GoMap.get env.specDB m.1.cachedDecode.encodingPath with
  | none => (H, [])
  | some node =>
      produceGPBKVMetrics env.handler g node m.1.cachedDecode (startTags m.1 H)

/-! ## The traversal keeps what it was lent -/

section Refines

variable {g : Growth} {H : Heap MetricsAtom} {tags : Slice}

/-- What a pass leaves behind that appends: a slice grown from the one it had,
    showing these tags. -/
def Appends (H : Heap MetricsAtom) (tags : Slice) (r : Heap MetricsAtom × Slice)
    (shown : List MetricsAtom) : Prop :=
  Grown H tags r.1 r.2 ∧ r.1.contents r.2 = shown

/-- What a function leaves behind that was lent a slice: what it showed is kept,
    and these are the calls. -/
def Borrows (H : Heap MetricsAtom) (tags : Slice) (r : Heap MetricsAtom × List MetricEvent)
    (calls : List MetricEvent) : Prop :=
  Keeps tags H r.1 ∧ r.2 = calls

theorem Appends.refl (hvalid : H.Valid tags) : Appends H tags (H, tags) (H.contents tags) :=
  ⟨.refl hvalid, rfl⟩

/-- One element after another. -/
theorem Appends.append {r : Heap MetricsAtom × Slice} {shown : List MetricsAtom}
    (hr : Appends H tags r shown) (x : MetricsAtom) :
    Appends H tags (r.1.append g zeroAtom r.2 x) (shown ++ [x]) := by
  obtain ⟨hgrown, hcontents⟩ := append_spec g zeroAtom hr.1.valid x
  exact ⟨hr.1.trans hgrown, hcontents.trans (by rw [hr.2])⟩

theorem appends_collectTags (fieldsMap : List (String × MetricsSpecNode)) (tagsTarget : Nat) :
    ∀ (fields : List TelemetryField) (collected : Nat) {r : Heap MetricsAtom × Slice}
      {shown : List MetricsAtom}, Appends H tags r shown →
      Appends H tags (collectTags g fieldsMap tagsTarget fields collected r)
        (PipelineGpbKvMetrics.collectTags fieldsMap tagsTarget fields collected shown) := by
  intro fields
  induction fields with
  | nil => exact fun _ _ _ hr => hr
  | cons field rest ih =>
      intro collected r shown hr
      unfold collectTags PipelineGpbKvMetrics.collectTags
      cases GoMap.get fieldsMap field.name with
      | none => exact ih collected hr
      | some child =>
          cases extractGPBKVNativeTypeFromOneof field false with
          | none =>
              by_cases hdone : collected + 1 ≥ tagsTarget
              · simp only [if_pos hdone]
                exact hr
              · simp only [if_neg hdone]
                exact ih (collected + 1) hr
          | some v =>
              by_cases hdone : collected + 1 ≥ tagsTarget
              · simp only [if_pos hdone]
                exact hr.append _
              · simp only [if_neg hdone]
                exact ih (collected + 1) (hr.append _)

theorem appends_levelTags (hvalid : H.Valid tags) (node : MetricsSpecNode)
    (fields : List TelemetryField) :
    Appends H tags (levelTags g node fields (H, tags))
      (PipelineGpbKvMetrics.levelTags node fields (H.contents tags)) := by
  unfold levelTags PipelineGpbKvMetrics.levelTags
  by_cases htags : (node.fieldsMapByType .tag).length > 0
  · simp only [if_pos htags]
    exact appends_collectTags _ _ fields 0 (.refl hvalid)
  · simp only [if_neg htags]
    exact .refl hvalid

theorem Borrows.refl (H : Heap MetricsAtom) (tags : Slice) : Borrows H tags (H, []) [] :=
  ⟨.refl tags H, rfl⟩

/-- **ONE BORROWER AFTER ANOTHER**: the second is lent the slice as the first
    was, and finds it so. -/
theorem Borrows.seq {r r' : Heap MetricsAtom × List MetricEvent}
    {calls calls' : List MetricEvent} (hr : Borrows H tags r calls)
    (hr' : Borrows r.1 tags r' calls') : Borrows H tags (r'.1, r.2 ++ r'.2) (calls ++ calls') :=
  ⟨hr.1.trans hr'.1, by rw [hr.2, hr'.2]⟩

/-- A level that appends its tags, makes calls of its own and lends its slice
    on. -/
theorem Borrows.lend {r : Heap MetricsAtom × Slice} {shown : List MetricsAtom}
    {below : Heap MetricsAtom × List MetricEvent} {calls : List MetricEvent}
    (hr : Appends H tags r shown) (hbelow : Borrows r.1 r.2 below calls)
    (level : List MetricsAtom → List MetricEvent) :
    Borrows H tags (below.1, level (r.1.contents r.2) ++ below.2) (level shown ++ calls) :=
  ⟨hr.1.keeps_trans hbelow.1, by rw [hr.2, hbelow.2]⟩

variable (h : Handler)

mutual

theorem borrows_forField : ∀ (field : TelemetryField) (node : MetricsSpecNode)
    (timestamp : UInt64) {H : Heap MetricsAtom} {tags : Slice}, H.Valid tags →
    Borrows H tags (produceGPBKVMetricsForField h g field node timestamp (H, tags))
      (PipelineGpbKvMetrics.produceGPBKVMetricsForField h field node timestamp (H.contents tags))
  | .mk own name _ sub, node, timestamp, H, tags, hvalid => by
      unfold produceGPBKVMetricsForField PipelineGpbKvMetrics.produceGPBKVMetricsForField
      cases GoMap.get (node.fieldsMapByType .container) name with
      | none => exact .refl H tags
      | some child =>
          have htags := appends_levelTags (g := g) hvalid child sub
          have hbelow := borrows_forFields sub child (chooseTimestamp own timestamp) htags.1.valid
          rw [htags.2] at hbelow
          exact .lend htags hbelow
            (levelEvents h child sub (chooseTimestamp own timestamp))

theorem borrows_forFields : ∀ (fields : List TelemetryField) (node : MetricsSpecNode)
    (timestamp : UInt64) {H : Heap MetricsAtom} {tags : Slice}, H.Valid tags →
    Borrows H tags (produceGPBKVMetricsForFields h g fields node timestamp (H, tags))
      (PipelineGpbKvMetrics.produceGPBKVMetricsForFields h fields node timestamp
        (H.contents tags))
  | [], _, _, H, tags, _ => .refl H tags
  | field :: rest, node, timestamp, H, tags, hvalid => by
      unfold produceGPBKVMetricsForFields PipelineGpbKvMetrics.produceGPBKVMetricsForFields
      have hfirst := borrows_forField field node timestamp hvalid
      have hrest := borrows_forFields rest node timestamp (hfirst.1.valid hvalid)
      rw [hfirst.1.contents hvalid] at hrest
      exact hfirst.seq hrest

end

theorem borrows_forNode (node : MetricsSpecNode) (fields : List TelemetryField)
    (timestamp : UInt64) (hvalid : H.Valid tags) :
    Borrows H tags (produceGPBKVMetricsForNode h g node fields timestamp (H, tags))
      (PipelineGpbKvMetrics.produceGPBKVMetricsForNode h node fields timestamp
        (H.contents tags)) := by
  have htags := appends_levelTags (g := g) hvalid node fields
  have hbelow := borrows_forFields (g := g) h fields node timestamp htags.1.valid
  rw [htags.2] at hbelow
  exact .lend htags hbelow (levelEvents h node fields timestamp)

theorem appends_keys (keys : List TelemetryField) :
    ∀ {r : Heap MetricsAtom × Slice} {shown : List MetricsAtom}, Appends H tags r shown →
      Appends H tags (appendKeys h g keys r)
        (shown ++ keys.map (fun key => ⟨h.adaptTagName key.name,
          atomOf (extractGPBKVNativeTypeFromOneof key false)⟩)) := by
  induction keys with
  | nil =>
      intro r shown hr
      rw [List.map_nil, List.append_nil]
      exact hr
  | cons key rest ih =>
      intro r shown hr
      rw [List.map_cons, List.append_cons]
      exact ih (hr.append _)

/-- The loop over a row has a slice of its own, which it appends keys to and
    lends to the content. -/
theorem borrows_row (node : MetricsSpecNode) (timestamp : UInt64) :
    ∀ (fields : List TelemetryField) {H : Heap MetricsAtom} {tags : Slice}, H.Valid tags →
      Borrows H tags (produceGPBKVRow h g node timestamp fields (H, tags))
        (PipelineGpbKvMetrics.produceGPBKVRow h node timestamp fields (H.contents tags)) := by
  intro fields
  induction fields with
  | nil => exact fun {H tags} _ => .refl H tags
  | cons kcfield rest ih =>
      intro H tags hvalid
      have hkeys : Appends H tags
          (if kcfield.name = "keys" then appendKeys h g kcfield.fields (H, tags) else (H, tags))
          (if kcfield.name = "keys" then H.contents tags ++ kcfield.fields.map (fun key =>
            ⟨h.adaptTagName key.name, atomOf (extractGPBKVNativeTypeFromOneof key false)⟩)
          else H.contents tags) := by
        by_cases hname : kcfield.name = "keys"
        · simp only [if_pos hname]
          exact appends_keys h kcfield.fields (.refl hvalid)
        · simp only [if_neg hname]
          exact .refl hvalid
      unfold produceGPBKVRow PipelineGpbKvMetrics.produceGPBKVRow
      revert hkeys
      generalize (if kcfield.name = "keys" then appendKeys h g kcfield.fields (H, tags)
        else (H, tags)) = r
      generalize (if kcfield.name = "keys" then _ else H.contents tags) = shown
      intro hkeys
      have hcontent : Borrows r.1 r.2
          (if kcfield.name = "content" then
            produceGPBKVMetricsForNode h g node kcfield.fields timestamp r else (r.1, []))
          (if kcfield.name = "content" then
            PipelineGpbKvMetrics.produceGPBKVMetricsForNode h node kcfield.fields timestamp shown
          else []) := by
        by_cases hname : kcfield.name = "content"
        · simp only [if_pos hname, ← hkeys.2]
          exact borrows_forNode h node kcfield.fields timestamp hkeys.1.valid
        · simp only [if_neg hname]
          exact .refl r.1 r.2
      have hrest := ih (hcontent.1.valid hkeys.1.valid)
      rw [hcontent.1.contents hkeys.1.valid, hkeys.2] at hrest
      have hrow := hcontent.seq hrest
      exact ⟨hkeys.1.keeps_trans hrow.1, hrow.2⟩

theorem borrows_rows (node : MetricsSpecNode) (msgTimestamp : UInt64) (rows : List TelemetryField) :
    ∀ {H : Heap MetricsAtom} {tags : Slice}, H.Valid tags →
      Borrows H tags (produceGPBKVRows h g node msgTimestamp rows (H, tags))
        (rows.flatMap (fun topField => PipelineGpbKvMetrics.produceGPBKVRow h node
          (if topField.timestamp ≠ 0 then topField.timestamp else msgTimestamp)
          topField.fields (H.contents tags))) := by
  induction rows with
  | nil => exact fun {H tags} _ => .refl H tags
  | cons topField rest ih =>
      intro H tags hvalid
      have hrow := borrows_row (g := g) h node
        (if topField.timestamp ≠ 0 then topField.timestamp else msgTimestamp)
        topField.fields hvalid
      have hrest := ih (hrow.1.valid hvalid)
      rw [hrow.1.contents hvalid] at hrest
      exact hrow.seq hrest

end Refines

/-! ## A message -/

/-- The slice a message starts with is the first two of eight in an array of its
    own. -/
theorem startTags_eq (m : DataMsgGPB) (H : Heap MetricsAtom) :
    startTags m H = (⟨H.arrays ++ [baseTags m ++ List.replicate 6 zeroAtom]⟩,
      ⟨H.arrays.length, 2, 8, by decide⟩) := by
  unfold startTags Heap.make
  by_cases hid : m.cachedDecode.nodeIdStr.getD "" = ""
  · simp only [if_pos hid, Heap.assign_last, baseTags]
    rfl
  · simp only [if_neg hid, Heap.assign_last, baseTags]
    rfl

/-- **TAG SHARING IS INVISIBLE**: over a heap, whatever else is in it and however
    arrays grow, the calls of `produceMetrics` for a self-describing message show
    the tags that immutable lists would, and what else is in the heap stays as it
    was. -/
theorem tag_sharing_invisible (env : MetricsEnv) (g : Growth) (m : KvMsg)
    (H : Heap MetricsAtom) (c : NameCache) :
    (produceMetrics env g m H).2 = (PipelineGpbMetrics.produceMetrics env m.1 c).1 ∧
      ∀ (a : Nat) (xs : List MetricsAtom), H.arrays[a]? = some xs →
        (produceMetrics env g m H).1.arrays[a]? = some xs := by
  unfold produceMetrics PipelineGpbMetrics.produceMetrics
  cases GoMap.get env.specDB m.1.cachedDecode.encodingPath with
  | none => exact ⟨rfl, fun _ _ hxs => hxs⟩
  | some node =>
      simp only [m.2, startTags_eq]
      obtain ⟨hkeeps, hcalls⟩ := borrows_rows (g := g) env.handler node
        m.1.cachedDecode.msgTimestamp m.1.cachedDecode.dataGpbkv
        (⟨_, List.getElem?_concat_length, rfl⟩ :
          Heap.Valid ⟨H.arrays ++ [baseTags m.1 ++ List.replicate 6 zeroAtom]⟩
            ⟨H.arrays.length, 2, 8, by decide⟩)
      refine ⟨?_, ?_⟩
      · refine hcalls.trans ?_
        rw [Heap.contents, List.getElem?_concat_length]
        rfl
      · intro a xs hxs
        have ha : a < H.arrays.length := (List.getElem?_eq_some_iff.mp hxs).1
        obtain ⟨ys, hys, -, hcells⟩ := hkeeps a xs ((List.getElem?_append_left ha).trans hxs)
        have heq : ys = xs :=
          List.ext_getElem? (fun i => hcells i (fun heq => absurd heq (Nat.ne_of_lt ha)))
        exact hys.trans (congrArg some heq)

/-- Arrays that double. -/
def doubling : Growth := ⟨fun old needed => max (2 * old) needed, fun _ _ => Nat.le_max_right _ _⟩

/-- The row of an interface that is up. -/
def upRow (name : String) : TelemetryField :=
  .mk 0 "" none
    [.mk 0 "keys" none [.mk 0 "name" (some (.string name)) []],
     .mk 0 "content" none [.mk 0 "up" (some (.bool true)) []]]

def twoRows : KvMsg :=
  ⟨⟨[], "r1", { PipelineGpbMetrics.sampleKv.cachedDecode with
    dataGpbkv := [upRow "eth0", upRow "eth1"], dataGpb := none }⟩, rfl⟩

-- The second row has written over the key of the first.
example : (produceMetrics PipelineGpbMetrics.sampleEnv doubling twoRows ⟨[]⟩).1.arrays =
    [baseTags twoRows.1 ++ ⟨"name", .scalar (.string "eth1")⟩ :: List.replicate 5 zeroAtom] :=
  rfl

end PipelineKvSlices
