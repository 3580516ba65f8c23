import PipelineGnmi.ArrangementProofs
import PipelineGnmi.NameCacheProofs
import PipelineGnmi.PrometheusPushProofs

/-! # Where compact rows are pushed to

    The URL of a group ends in a hash of its tags in the order of the list
    (`flushMetric` of `metrics_prometheus.go`), and `produceGPBMetricsForNode` lists
    the tags of each level in the order in which a map is ranged over, behind those
    of the levels above.

    What a row has for a node is a forest of levels with tags and sensors
    (`rowForest`), and what the walks of it push, over all orders of the maps, is
    what the arrangements of the forest have (`shows_forNode`).  So
    `push_url_order_iff` is a matter of the tags of each level. -/

namespace PipelinePushOrder

open PipelineMessage PipelineDataMsg PipelineMetricsSpec PipelineGpbKvMetrics
open PipelineGpbMetrics PipelineMetricGroups PipelinePrometheusLine PipelinePrometheusPush
open PipelineTagCoherence hiding produceMetrics
open PipelineNameCache (UncachedWalk uncachedNone uncachedContainers uncachedStruct uncachedForNode
  uncachedContainer uncachedElement uncachedSlice uncachedWalks namesOf TypeDecls GoType HasType
  Placed Good follows_forNode structType)
open Arrangement Arrangement.Forest

/-! ## The forest of a row -/

/-- What a tag of the node adds, if the struct has it. -/
def presentTag (h : Handler) (typ : List StructField) (vals : List RefVal) (c : NameCache)
    (e : String × MetricsSpecNode) : Option MetricsAtom :=
  ((fieldIndex typ (c.lookupName e.1 e.2)).bind (vals[·]?)).map
    (fun fval => ⟨h.adaptTagName e.1, .reflected fval⟩)

/-- Levels with the tags and the sensors that are present. -/
abbrev RowForest := Forest MetricsAtom MetricsAtom

/-- What is met in a container, `below` being what the fields of the struct have. -/
def entryForest (names : NameCache) (typ : List StructField)
    (below : List (MetricsSpecNode → RowForest)) (e : String × MetricsSpecNode) : RowForest :=
  match (fieldIndex typ (names.lookupName e.1 e.2)).bind (below[·]?) with
  | none => .nil
  | some forest => forest e.2

def containersForest (names : NameCache) (typ : List StructField)
    (below : List (MetricsSpecNode → RowForest)) (entries : List (String × MetricsSpecNode)) :
    RowForest :=
  entries.foldr (fun e rest => (entryForest names typ below e).append rest) .nil

def structForest (h : Handler) (typ : List StructField) (vals : List RefVal)
    (below : List (MetricsSpecNode → RowForest)) (node : MetricsSpecNode) : RowForest :=
  .level ((node.fieldsMapByType .tag).filterMap (presentTag h typ vals (namesOf node typ)))
    (presentSensors typ vals (namesOf node typ) (node.fieldsMapByType .sensor))
    (containersForest (namesOf node typ) typ below (node.fieldsMapByType .container)) .nil

mutual

/-- What a value has for a node of the specification. -/
def rowForest (h : Handler) : RefVal → MetricsSpecNode → RowForest
  | .struct typ vals => structForest h typ vals (fieldForests h vals)
  | _ => fun _ => .nil

def containerForest (h : Handler) : RefVal → MetricsSpecNode → RowForest
  | .ptr v => rowForest h v
  | .struct typ vals => structForest h typ vals (fieldForests h vals)
  | .slice vs => sliceForest h vs
  | _ => fun _ => .nil

def elementForest (h : Handler) : RefVal → MetricsSpecNode → RowForest
  | .ptr v => rowForest h v
  | .struct typ vals => structForest h typ vals (fieldForests h vals)
  | _ => fun _ => .nil

def sliceForest (h : Handler) : List RefVal → MetricsSpecNode → RowForest
  | [] => fun _ => .nil
  | v :: vs => fun node => (elementForest h v node).append (sliceForest h vs node)

def fieldForests (h : Handler) : List RefVal → List (MetricsSpecNode → RowForest)
  | [] => []
  | v :: vs => containerForest h v :: fieldForests h vs

end

/-! ## What a walk shows -/

/-- The groups that calls flush, by their tags and their sensors. -/
def observed (evs : List MetricEvent) : Multiset (List MetricsAtom × Multiset MetricsAtom) :=
  ((groups evs).map (fun g => (g.tags, (g.builds.map Build.sensor : Multiset MetricsAtom))) :
    List (List MetricsAtom × Multiset MetricsAtom))

theorem observed_append {a : List MetricEvent} (ha : Settled a) (b : List MetricEvent) :
    observed (a ++ b) = observed a + observed b := by
  rw [observed, groups_append ha, List.map_append, ← Multiset.coe_add]
  rfl

/-- The orders of the first `k` maps, and those of the others. -/
def switchAt (k : Nat) (first others : RangeOrder) : RangeOrder where
  visit i := if i < k then first.visit i else others.visit i
  perm i m := by
    split
    · exact first.perm i m
    · exact others.perm i m

theorem switchAt_lt {k i : Nat} {first others : RangeOrder} (hi : i < k) :
    (switchAt k first others).visit i = first.visit i :=
  if_pos hi

theorem switchAt_ge {k i : Nat} {first others : RangeOrder} (hi : k ≤ i) :
    (switchAt k first others).visit i = others.visit i :=
  if_neg (Nat.not_lt.mpr hi)

theorem exists_visit {l m : List (String × MetricsSpecNode)} (hm : m.Perm l) :
    ∃ order : RangeOrder, ∀ i, order.visit i l = m := by
  classical
  refine ⟨⟨fun _ x => if x = l then m else x, fun i x => ?_⟩, fun i => if_pos rfl⟩
  split
  · next hx => exact hx ▸ hm
  · exact List.Perm.refl x

/-- A walk that shows the arrangements of a forest: whatever the orders of the maps,
    it shows one of them, and it shows any of them for some orders of the maps that
    it ranges over. -/
structure Shows (walk : RangeOrder → UncachedWalk) (forest : MetricsSpecNode → RowForest) :
    Prop where
  count : ∀ order node timestamp tags n,
    (walk order node timestamp tags n).2 = n + 3 * (forest node).size
  settled : ∀ order node timestamp tags n, Settled (walk order node timestamp tags n).1
  sound : ∀ order node timestamp tags n, ∃ g, Rearranged (forest node) g ∧
    observed (walk order node timestamp tags n).1 = g.leaves tags
  complete : ∀ node timestamp n g, Rearranged (forest node) g → ∃ visits : RangeOrder,
    ∀ order : RangeOrder,
      (∀ i, n ≤ i → i < n + 3 * (forest node).size → order.visit i = visits.visit i) →
      ∀ tags, observed (walk order node timestamp tags n).1 = g.leaves tags

theorem shows_none : Shows (fun _ => uncachedNone) (fun _ => .nil) where
  count := fun _ _ _ _ _ => rfl
  settled := fun _ _ _ _ _ => settled_nil
  sound := fun _ _ _ _ _ => ⟨.nil, .nil, rfl⟩
  complete := by
    intro node timestamp n g hg
    cases hg
    exact ⟨stored, fun _ _ _ => rfl⟩

section Rules

variable {walk walk' : RangeOrder → UncachedWalk} {forest forest' : MetricsSpecNode → RowForest}

/-- **ONE WALK AFTER THE OTHER**: they range over different maps. -/
theorem Shows.seq (hw : Shows walk forest) (hw' : Shows walk' forest') :
    Shows (fun order node timestamp tags n =>
        ((walk order node timestamp tags n).1
          ++ (walk' order node timestamp tags (walk order node timestamp tags n).2).1,
        (walk' order node timestamp tags (walk order node timestamp tags n).2).2))
      (fun node => (forest node).append (forest' node)) where
  count := by
    intro order node timestamp tags n
    dsimp only
    rw [hw'.count, hw.count, size_append]
    omega
  settled := fun order node timestamp tags n =>
    (hw.settled order node timestamp tags n).append (hw'.settled order node timestamp tags _)
  sound := by
    intro order node timestamp tags n
    obtain ⟨g, hg, hobs⟩ := hw.sound order node timestamp tags n
    obtain ⟨g', hg', hobs'⟩ := hw'.sound order node timestamp tags
      (walk order node timestamp tags n).2
    refine ⟨g.append g', hg.append hg', ?_⟩
    rw [observed_append (hw.settled order node timestamp tags n), hobs, hobs', leaves_append]
  complete := by
    intro node timestamp n k hk
    obtain ⟨g, g', hg, hg', rfl⟩ := rearranged_append hk
    obtain ⟨visits, hvisits⟩ := hw.complete node timestamp n g hg
    obtain ⟨visits', hvisits'⟩ := hw'.complete node timestamp (n + 3 * (forest node).size) g' hg'
    refine ⟨switchAt (n + 3 * (forest node).size) visits visits', fun order horder tags => ?_⟩
    rw [size_append] at horder
    have hfirst := hvisits order
      (fun i hi hlt => (horder i hi (by omega)).trans (switchAt_lt hlt)) tags
    have hsecond := hvisits' order
      (fun i hi hlt => (horder i (by omega) (by omega)).trans (switchAt_ge hi)) tags
    rw [observed_append (hw.settled order node timestamp tags n), hfirst, hw.count, hsecond,
      leaves_append]

/-- A walk of one child. -/
theorem Shows.at (hw : Shows walk forest) (child : MetricsSpecNode) :
    Shows (fun order _ => walk order child) (fun _ => forest child) where
  count := fun order _ => hw.count order child
  settled := fun order _ => hw.settled order child
  sound := fun order _ => hw.sound order child
  complete := fun _ => hw.complete child

end Rules

/-- The walks of the fields of a struct show what the fields have. -/
def AllShow (walks : RangeOrder → List UncachedWalk)
    (below : List (MetricsSpecNode → RowForest)) : Prop :=
  ∀ i : Nat, (below[i]? = none ∧ ∀ order, (walks order)[i]? = none) ∨
    ∃ walk forest, below[i]? = some forest ∧ (∀ order, (walks order)[i]? = some (walk order)) ∧
      Shows walk forest

section Struct

variable {names : NameCache} {typ : List StructField} {walks : RangeOrder → List UncachedWalk}
  {below : List (MetricsSpecNode → RowForest)}

/-- The loop over the containers, as a walk. -/
theorem shows_containers (names : NameCache) (hall : AllShow walks below) :
    ∀ entries : List (String × MetricsSpecNode),
      Shows (fun order _ timestamp tags n =>
          uncachedContainers names typ (walks order) tags timestamp entries n)
        (fun _ => containersForest names typ below entries) := by
  intro entries
  induction entries with
  | nil => exact shows_none
  | cons e rest ih =>
      unfold uncachedContainers
      have hforest : containersForest names typ below (e :: rest)
          = (entryForest names typ below e).append (containersForest names typ below rest) := rfl
      rw [hforest, entryForest]
      cases fieldIndex typ (names.lookupName e.1 e.2) with
      | none => exact ih
      | some i =>
          simp only [Option.bind_some]
          rcases hall i with ⟨hbelow, hwalks⟩ | ⟨walk, forest, hbelow, hwalks, hshows⟩
          · simp only [hbelow, hwalks]
            exact ih
          · simp only [hbelow, hwalks]
            exact (hshows.at e.2).seq ih

/-- Containers may be met in any order. -/
theorem containersForest_perm {entries entries' : List (String × MetricsSpecNode)}
    (hperm : entries'.Perm entries) :
    (containersForest names typ below entries').size
        = (containersForest names typ below entries).size ∧
      ∀ {g'}, Rearranged (containersForest names typ below entries') g' →
        ∃ g, Rearranged (containersForest names typ below entries) g ∧
          ∀ tags, g.leaves tags = g'.leaves tags := by
  induction hperm with
  | nil => exact ⟨rfl, fun hg => ⟨_, hg, fun _ => rfl⟩⟩
  | cons e _ ih =>
      refine ⟨?_, fun hk => ?_⟩
      · show (Forest.append _ _).size = (Forest.append _ _).size
        rw [size_append, size_append]
        exact congrArg _ ih.1
      · obtain ⟨f', k', hf, hk', rfl⟩ := rearranged_append hk
        obtain ⟨k, hk, hsame⟩ := ih.2 hk'
        refine ⟨f'.append k, hf.append hk, fun tags => ?_⟩
        rw [leaves_append, leaves_append, hsame]
  | swap e e' l =>
      refine ⟨?_, fun hk => ?_⟩
      · show (Forest.append _ (Forest.append _ _)).size = (Forest.append _ (Forest.append _ _)).size
        simp only [size_append]
        omega
      · obtain ⟨f, k, hf, hrest, rfl⟩ := rearranged_append hk
        obtain ⟨f', k', hf', hk', rfl⟩ := rearranged_append hrest
        refine ⟨f'.append (f.append k'), hf'.append (hf.append hk'), fun tags => ?_⟩
        simp only [leaves_append]
        exact add_left_comm _ _ _
  | trans _ _ ih ih' =>
      refine ⟨ih.1.trans ih'.1, fun hk => ?_⟩
      obtain ⟨k, hk, hsame⟩ := ih.2 hk
      obtain ⟨k', hk', hsame'⟩ := ih'.2 hk
      exact ⟨k', hk', fun tags => (hsame' tags).trans (hsame tags)⟩

variable (h : Handler) (vals : List RefVal)

theorem refTags_eq :
    ∀ (l : List (String × MetricsSpecNode)) (tags : List MetricsAtom),
      refTags h typ vals names l tags = tags ++ l.filterMap (presentTag h typ vals names) := by
  intro l
  induction l with
  | nil => intro tags; exact (List.append_nil tags).symm
  | cons e rest ih =>
      obtain ⟨fieldName, child⟩ := e
      intro tags
      rw [refTags, List.filterMap_cons, presentTag]
      dsimp only
      cases (fieldIndex typ (names.lookupName fieldName child)).bind (vals[·]?) with
      | none => exact ih tags
      | some fval =>
          refine (ih _).trans ?_
          rw [List.append_assoc]
          rfl

/-- The sensors of a level are pushed under its tags. -/
theorem observed_level (tags : List MetricsAtom) (timestamp : UInt64)
    {sensors sensors' : List MetricsAtom} (hperm : sensors'.Perm sensors) :
    observed (sensors'.map (fun sensor => .buildMetric tags sensor timestamp)
      ++ if (sensors'.map (fun sensor => MetricEvent.buildMetric tags sensor timestamp)).length ≠ 0
        then [.flushMetric tags timestamp] else []) = own tags sensors := by
  rw [observed, groups_level]
  cases sensors' with
  | nil =>
      rw [List.nil_perm.mp hperm]
      rfl
  | cons sensor rest =>
      have hmap : ((sensor :: rest).map (fun sensor => (⟨tags, sensor, timestamp⟩ : Build))).map
          Build.sensor = sensor :: rest := by
        rw [List.map_map]
        exact List.map_id _
      have hne : sensors ≠ [] := fun hnil => by
        rw [hnil] at hperm
        exact List.cons_ne_nil _ _ (List.perm_nil.mp hperm)
      rw [own, if_neg (fun hempty => hne (List.isEmpty_iff.mp hempty)),
        if_neg (fun hempty => List.cons_ne_nil _ _ (List.isEmpty_iff.mp hempty)),
        List.map_singleton, hmap, Multiset.coe_eq_coe.mpr hperm]
      rfl

/-- Any arrangement of what a list yields is yielded by an arrangement of it. -/
theorem exists_perm_filterMap {α β : Type} (f : α → Option β) {l l' : List β}
    (h : l.Perm l') : ∀ m : List α, m.filterMap f = l →
      ∃ m' : List α, m'.Perm m ∧ m'.filterMap f = l' := by
  induction h with
  | nil => exact fun m hm => ⟨m, List.Perm.refl m, hm⟩
  | cons x _ ih =>
      intro m hm
      obtain ⟨pre, a, suf, rfl, hpre, ha, hsuf⟩ := List.filterMap_eq_cons_iff.mp hm
      obtain ⟨suf', hperm, hsuf'⟩ := ih suf hsuf
      refine ⟨pre ++ a :: suf', (List.Perm.cons a hperm).append_left pre, ?_⟩
      rw [List.filterMap_append, List.filterMap_eq_nil_iff.mpr hpre,
        List.filterMap_cons_some ha, hsuf']
      rfl
  | swap x y l =>
      intro m hm
      obtain ⟨pre, a, suf, rfl, hpre, ha, hsuf⟩ := List.filterMap_eq_cons_iff.mp hm
      obtain ⟨mid, b, rest, rfl, hmid, hb, hrest⟩ := List.filterMap_eq_cons_iff.mp hsuf
      refine ⟨pre ++ (mid ++ b :: a :: rest), ?_, ?_⟩
      · refine List.Perm.append_left pre ?_
        have hswap : (mid ++ b :: a :: rest).Perm (mid ++ a :: b :: rest) :=
          (List.Perm.swap a b rest).append_left mid
        exact hswap.trans List.perm_middle
      · rw [List.filterMap_append, List.filterMap_append, List.filterMap_eq_nil_iff.mpr hpre,
          List.filterMap_eq_nil_iff.mpr hmid, List.filterMap_cons_some hb,
          List.filterMap_cons_some ha, hrest]
        rfl
  | trans _ _ ih₁ ih₂ =>
      intro m hm
      obtain ⟨m₁, hp₁, hm₁⟩ := ih₁ m hm
      obtain ⟨m₂, hp₂, hm₂⟩ := ih₂ m₁ hm₁
      exact ⟨m₂, hp₂.trans hp₁, hm₂⟩

/-- One level, in terms of what the walk of the containers does behind it. -/
theorem observed_struct (order : RangeOrder) (walks : List UncachedWalk) (node : MetricsSpecNode)
    (timestamp : UInt64) (tags : List MetricsAtom) (n : Nat) {present : List MetricsAtom}
    (hpresent : (order.visit n (node.fieldsMapByType .tag)).filterMap
      (presentTag h typ vals (namesOf node typ)) = present) :
    observed (uncachedStruct h order typ vals walks node timestamp tags n).1
      = own (tags ++ present)
          (presentSensors typ vals (namesOf node typ) (node.fieldsMapByType .sensor))
        + observed (uncachedContainers (namesOf node typ) typ walks (tags ++ present) timestamp
          (order.visit (n + 2) (node.fieldsMapByType .container)) (n + 3)).1 := by
  have hsensors : (presentSensors typ vals (namesOf node typ)
      (order.visit (n + 1) (node.fieldsMapByType .sensor))).Perm
        (presentSensors typ vals (namesOf node typ) (node.fieldsMapByType .sensor)) :=
    (order.perm (n + 1) _).filterMap _
  unfold uncachedStruct
  simp only [refTags_eq, hpresent, refSensors_eq]
  rw [observed_append (levelRule_settled.level _ _ _), observed_level _ _ hsensors]

/-- **A STRUCT**: one level of the walk. -/
theorem shows_struct (hall : AllShow walks below) :
    Shows (fun order => uncachedStruct h order typ vals (walks order))
      (structForest h typ vals below) where
  count := by
    intro order node timestamp tags n
    have hsize : (containersForest (namesOf node typ) typ below
        (order.visit (n + 2) (node.fieldsMapByType .container))).size
        = (containersForest (namesOf node typ) typ below (node.fieldsMapByType .container)).size :=
      (containersForest_perm (order.perm (n + 2) _)).1
    unfold uncachedStruct
    simp only
    rw [(shows_containers _ hall _).count order node, hsize, structForest, size, size]
    omega
  settled := by
    intro order node timestamp tags n
    unfold uncachedStruct
    simp only [refSensors_eq]
    exact (levelRule_settled.level _ _ _).append
      ((shows_containers _ hall _).settled order node _ _ _)
  sound := by
    intro order node timestamp tags n
    obtain ⟨g', hg', hobs⟩ := (shows_containers (namesOf node typ) hall
      (order.visit (n + 2) (node.fieldsMapByType .container))).sound order node timestamp
      (tags ++ (order.visit n (node.fieldsMapByType .tag)).filterMap
        (presentTag h typ vals (namesOf node typ))) (n + 3)
    obtain ⟨g, hg, hsame⟩ := (containersForest_perm
      (order.perm (n + 2) (node.fieldsMapByType .container))).2 hg'
    refine ⟨_, .level ((order.perm n _).filterMap _) hg .nil, ?_⟩
    rw [observed_struct h vals order _ node timestamp tags n rfl, hobs, leaves, leaves, hsame,
      add_zero]
  complete := by
    intro node timestamp n g hg
    cases hg with
    | @level _ present _ _ gbelow _ _ hperm hbelow hbeside =>
        cases hbeside
        obtain ⟨visits, hvisits⟩ := (shows_containers (namesOf node typ) hall
          (node.fieldsMapByType .container)).complete node timestamp (n + 3) gbelow hbelow
        obtain ⟨m, hm, hpresent⟩ := exists_perm_filterMap _ hperm.symm
          (node.fieldsMapByType .tag) rfl
        obtain ⟨first, hfirst⟩ := exists_visit hm
        -- the tags come as wanted, the sensors and the containers as they are stored
        refine ⟨switchAt (n + 1) first (switchAt (n + 3) stored visits),
          fun order horder tags => ?_⟩
        rw [structForest, size, size] at horder
        have htags : order.visit n (node.fieldsMapByType .tag) = m := by
          rw [horder n (Nat.le_refl n) (by omega), switchAt_lt (Nat.lt_succ_self n), hfirst]
        have hcontainers : order.visit (n + 2) (node.fieldsMapByType .container)
            = node.fieldsMapByType .container := by
          rw [horder (n + 2) (by omega) (by omega), switchAt_ge (by omega), switchAt_lt (by omega),
            stored]
        have hrest := hvisits order (fun i hi hlt => by
          rw [horder i (by omega) (by omega), switchAt_ge (by omega), switchAt_ge hi])
          (tags ++ present)
        rw [observed_struct h vals order _ node timestamp tags n (htags ▸ hpresent), hcontainers,
          hrest, leaves, leaves, add_zero]

end Struct

mutual

/-- **WHAT THE WALKS OF A ROW SHOW**, by recursion on the value. -/
theorem shows_forNode (h : Handler) : ∀ v : RefVal,
    Shows (fun order => uncachedForNode h order v) (rowForest h v)
  | .struct _ vals => shows_struct h vals (shows_fields h vals)
  | .scalar _ => shows_none
  | .nilPtr => shows_none
  | .ptr _ => shows_none
  | .slice _ => shows_none

theorem shows_container (h : Handler) : ∀ v : RefVal,
    Shows (fun order => uncachedContainer h order v) (containerForest h v)
  | .ptr v => shows_forNode h v
  | .struct _ vals => shows_struct h vals (shows_fields h vals)
  | .slice vs => shows_slice h vs
  | .scalar _ => shows_none
  | .nilPtr => shows_none

theorem shows_element (h : Handler) : ∀ v : RefVal,
    Shows (fun order => uncachedElement h order v) (elementForest h v)
  | .ptr v => shows_forNode h v
  | .struct _ vals => shows_struct h vals (shows_fields h vals)
  | .slice _ => shows_none
  | .scalar _ => shows_none
  | .nilPtr => shows_none

theorem shows_slice (h : Handler) : ∀ vs : List RefVal,
    Shows (fun order => uncachedSlice h order vs) (sliceForest h vs)
  | [] => shows_none
  | v :: vs => (shows_element h v).seq (shows_slice h vs)

theorem shows_fields (h : Handler) : ∀ vs : List RefVal,
    AllShow (fun order => uncachedWalks h order vs) (fieldForests h vs)
  | [] => fun _ => Or.inl ⟨rfl, fun _ => rfl⟩
  | v :: vs => fun i => by
      cases i with
      | zero => exact Or.inr ⟨_, _, rfl, fun _ => rfl, shows_container h v⟩
      | succ i => exact shows_fields h vs i

end

/-! ## Texts and URLs -/

/-- What a tag adds to the text that is hashed. -/
def tagText (sprint : AtomVal → String) (tag : MetricsAtom) : List Char :=
  (tag.key ++ "=\"" ++ sprint tag.val ++ "\" ").toList

theorem toList_instanceText (sprint : AtomVal → String) (tags : List MetricsAtom) :
    (instanceText sprint tags).toList = tags.flatMap (tagText sprint) := by
  induction tags with
  | nil => rfl
  | cons tag rest ih => rw [instanceText, String.toList_append, ih, List.flatMap_cons, tagText]

/-- The URL for a text. -/
def textURL (pushURL : String) (text : List Char) : String :=
  if (String.ofList text).utf8ByteSize ≠ 0 then
    pushURL ++ "_" ++ toString (fnv64a (String.ofList text).toUTF8.data.toList).toNat
  else pushURL

theorem groupURL_eq (pushURL : String) (sprint : AtomVal → String) (tags : List MetricsAtom) :
    groupURL pushURL sprint tags = textURL pushURL (tags.flatMap (tagText sprint)) := by
  rw [textURL, ← toList_instanceText, String.ofList_toList]
  rfl

/-! ## The posts of a walk -/

section Posts

variable (pushURL : String) (h : Handler) (v : RefVal) (node : MetricsSpecNode)
  (timestamp : UInt64) (tags : List MetricsAtom)

/-- What the walk of a row posts, the gateway replying each time. -/
def posts (order : RangeOrder) (c : NameCache) : List Post :=
  (run pushURL h.sprintAtom ⟨[], [], fun _ => .replied 202⟩
    (produceGPBMetricsForNode h order v node timestamp tags c).1).posts

/-- The metrics of the row, each with the others of its level, and the URLs they are
    posted to. -/
def pushed (order : RangeOrder) (c : NameCache) : Multiset (String × Multiset MetricsAtom) :=
  ((posts pushURL h v node timestamp tags order c).map
    (fun p => (p.url, (p.body.map Build.sensor : Multiset MetricsAtom))) :
    List (String × Multiset MetricsAtom))

/-- No two groups of the row have one URL and different texts: whatever the orders of
    the maps, the hash tells the texts apart. -/
def HashApart (c : NameCache) : Prop :=
  ∀ o₁ o₂ : RangeOrder, ∀ p₁ ∈ posts pushURL h v node timestamp tags o₁ c,
    ∀ p₂ ∈ posts pushURL h v node timestamp tags o₂ c, p₁.url = p₂.url →
      instanceText h.sprintAtom p₁.tags = instanceText h.sprintAtom p₂.tags

/-- A gateway that replies gets each group by itself. -/
theorem pushes_replied (sprint : AtomVal → String) : ∀ gs : List Group,
    pushes pushURL sprint (fun _ => .replied 202) [] gs
      = gs.map (fun g => ⟨g.tags, groupURL pushURL sprint g.tags, g.builds⟩) := by
  intro gs
  induction gs with
  | nil => rfl
  | cons g gs ih =>
      have hreplied : (PushOutcome.replied 202).isReplied = true := rfl
      rw [pushes, if_pos hreplied, ih, List.nil_append, List.map_cons]

variable (order : RangeOrder)

theorem posts_eq (c : NameCache) :
    posts pushURL h v node timestamp tags order c
      = (groups (produceGPBMetricsForNode h order v node timestamp tags c).1).map
          (fun g => ⟨g.tags, groupURL pushURL h.sprintAtom g.tags, g.builds⟩) := by
  have hsolid := walkAll_forNode levelRule_solid h order v node timestamp tags c
  have hposts := run_posts pushURL h.sprintAtom _ [] [] [] (fun _ => .replied 202) hsolid.built
  rw [List.nil_append, List.nil_append, ← groups, pushes_replied] at hposts
  exact hposts

/-- A group that is observed is posted, under its tags. -/
theorem exists_post {order : RangeOrder} {c : NameCache}
    {x : List MetricsAtom × Multiset MetricsAtom}
    (hx : x ∈ observed (produceGPBMetricsForNode h order v node timestamp tags c).1) :
    ∃ p ∈ posts pushURL h v node timestamp tags order c,
      p.tags = x.1 ∧ p.url = textURL pushURL (x.1.flatMap (tagText h.sprintAtom)) := by
  obtain ⟨g, hg, rfl⟩ := List.mem_map.mp (Multiset.mem_coe.mp hx)
  rw [posts_eq]
  exact ⟨_, List.mem_map_of_mem hg, rfl, groupURL_eq pushURL h.sprintAtom g.tags⟩

/-- What is pushed goes by what the tags spell. -/
theorem pushed_eq (c : NameCache) :
    pushed pushURL h v node timestamp tags order c
      = (spelled (tagText h.sprintAtom)
          (observed (produceGPBMetricsForNode h order v node timestamp tags c).1)).map
            (fun x => (textURL pushURL x.1, x.2)) := by
  rw [pushed, posts_eq, spelled, observed, Multiset.map_coe, Multiset.map_coe, List.map_map,
    List.map_map, List.map_map]
  refine congrArg _ (List.map_congr_left fun g _ => ?_)
  exact Prod.ext (groupURL_eq pushURL h.sprintAtom g.tags) rfl

variable {τ : Type} {Γ : TypeDecls τ} {n : τ} {c : NameCache} {v node}

/-- The walk with the names it has cached shows the arrangements of the row. -/
theorem observed_forNode (hv : HasType Γ v (.struct n)) (hp : Placed node)
    (hc : Good Γ c node n) (order : RangeOrder) :
    observed (produceGPBMetricsForNode h order v node timestamp tags c).1
      = observed (uncachedForNode h order v node timestamp tags c.ranges).1 := by
  rw [(follows_forNode h order hv node timestamp tags c hp
    (fun _ hn => Option.some.inj hn ▸ hc)).calls]

/-- An orderless row is pushed the same way in any order, from any cache. -/
theorem pushed_eq_of_orderless (hv : HasType Γ v (.struct n)) (hp : Placed node)
    (hc : Good Γ c node n) (horderless : (rowForest h v node).Orderless (tagText h.sprintAtom))
    (o₁ o₂ : RangeOrder) (c' : NameCache) (hc' : Good Γ c' node n) :
    pushed pushURL h v node timestamp tags o₁ c
      = pushed pushURL h v node timestamp tags o₂ c' := by
  obtain ⟨g, hg, hobs⟩ := (shows_forNode h v).sound o₁ node timestamp tags c.ranges
  obtain ⟨g', hg', hobs'⟩ := (shows_forNode h v).sound o₂ node timestamp tags c'.ranges
  rw [pushed_eq, pushed_eq, observed_forNode h timestamp tags hv hp hc,
    observed_forNode h timestamp tags hv hp hc', hobs, hobs', spelled_eq hg horderless rfl,
    spelled_eq hg' horderless rfl]

/-- Of a row that is not orderless, two arrangements are pushed to other URLs. -/
theorem exists_pushed_ne (hv : HasType Γ v (.struct n)) (hp : Placed node) (hc : Good Γ c node n)
    (hapart : HashApart pushURL h v node timestamp tags c)
    (horder : ¬ (rowForest h v node).Orderless (tagText h.sprintAtom)) :
    ∃ o o' : RangeOrder, pushed pushURL h v node timestamp tags o c
      ≠ pushed pushURL h v node timestamp tags o' c := by
  obtain ⟨g, g', hg, hg', common, left, right, hleft, hright, hne, hwords⟩ :=
    exists_apart horder tags
  -- both arrangements are walked for some orders of the maps
  obtain ⟨o, ho⟩ := (shows_forNode h v).complete node timestamp c.ranges g hg
  obtain ⟨o', ho'⟩ := (shows_forNode h v).complete node timestamp c.ranges g' hg'
  have hobs := (observed_forNode h timestamp tags hv hp hc o).trans
    ((ho o (fun _ _ _ => rfl) tags).trans hleft)
  have hobs' := (observed_forNode h timestamp tags hv hp hc o').trans
    ((ho' o' (fun _ _ _ => rfl) tags).trans hright)
  refine ⟨o, o', fun hpushed => ?_⟩
  rw [pushed_eq, pushed_eq, hobs, hobs', spelled_add, spelled_add, Multiset.map_add,
    Multiset.map_add, add_right_inj] at hpushed
  obtain ⟨x, hx⟩ := Multiset.exists_mem_of_ne_zero hne
  have hmem : (textURL pushURL (x.1.flatMap (tagText h.sprintAtom)), x.2)
      ∈ (spelled (tagText h.sprintAtom) right).map (fun y => (textURL pushURL y.1, y.2)) :=
    hpushed ▸ Multiset.mem_map_of_mem _ (Multiset.mem_map_of_mem _ hx)
  obtain ⟨y', hy', hurl⟩ := Multiset.mem_map.mp hmem
  obtain ⟨y, hy, rfl⟩ := Multiset.mem_map.mp hy'
  obtain ⟨p, hp₁, hptags, hpurl⟩ := exists_post pushURL h v node timestamp tags
    (hobs ▸ Multiset.mem_add.mpr (Or.inr hx))
  obtain ⟨p', hp₂, hptags', hpurl'⟩ := exists_post pushURL h v node timestamp tags
    (hobs' ▸ Multiset.mem_add.mpr (Or.inr hy))
  have htexts := hapart o o' p hp₁ p' hp₂
    (hpurl.trans ((congrArg Prod.fst hurl).symm.trans hpurl'.symm))
  rw [hptags, hptags'] at htexts
  refine hwords x hx y hy ?_
  rw [← toList_instanceText, ← toList_instanceText, htexts]

/-- **WHEN THE URLS DO NOT DEPEND ON THE ORDER**: over any two walks of a row, all its
    metrics go to the same URLs if on each level, where a metric is at or below it, any
    two of the tags that are present have texts that can change places: where there are
    no two different ones.  Unless the hash of texts collides, they do only then. -/
theorem push_url_order_iff (hv : HasType Γ v (.struct n)) (hp : Placed node)
    (hc : Good Γ c node n) :
    ((rowForest h v node).Orderless (tagText h.sprintAtom) →
      ∀ (o₁ o₂ : RangeOrder) (c' : NameCache), Good Γ c' node n →
        pushed pushURL h v node timestamp tags o₁ c
          = pushed pushURL h v node timestamp tags o₂ c') ∧
    (HashApart pushURL h v node timestamp tags c →
      ((∀ o₁ o₂ : RangeOrder, pushed pushURL h v node timestamp tags o₁ c
          = pushed pushURL h v node timestamp tags o₂ c) ↔
        (rowForest h v node).Orderless (tagText h.sprintAtom))) := by
  have hsame := pushed_eq_of_orderless pushURL h timestamp tags hv hp hc
  refine ⟨hsame, fun hapart => ⟨fun hall => ?_, fun horderless o₁ o₂ =>
    hsame horderless o₁ o₂ c hc⟩⟩
  by_contra horder
  obtain ⟨o, o', hne⟩ := exists_pushed_ne pushURL h timestamp tags hv hp hc hapart horder
  exact hne (hall o o')

end Posts

/-! ## A policy on an interface -/

/-- The statistics of a policy: two tags, a metric, and a container with another. -/
def policyNode : MetricsSpecNode :=
  .mk [0] "" false .container ""
    [.mk [0, 0] "interface_name" false .tag "interface_name" [],
     .mk [0, 1] "policy_name" false .tag "policy_name" [],
     .mk [0, 2] "state" false .sensor "state" [],
     .mk [0, 3] "stats" false .container "stats"
      [.mk [0, 3, 0] "transmit_bytes" false .sensor "stats__transmit_bytes" []]]

/-- The handler, with reflected strings printed as they are. -/
def reflectedPrometheus : Handler :=
  prometheusHandler sampleFloats
    (fun v => match v with
      | .reflected (.scalar (.string s)) => s
      | _ => "") (fun _ => "")

inductive PolicyType where
  | interface
  | policy
  | stats

/-- Rows with one of the tags, and rows with both. -/
def policyDecls : TypeDecls PolicyType
  | .interface => [(⟨"interface_name", none⟩, .other), (⟨"stats", none⟩, .ptr (.struct .stats))]
  | .policy => [(⟨"interface_name", none⟩, .other), (⟨"policy_name", none⟩, .other),
      (⟨"state", none⟩, .other), (⟨"stats", none⟩, .ptr (.struct .stats))]
  | .stats => [(⟨"transmit_bytes", none⟩, .other)]

def statsRow : RefVal := .struct (policyDecls.structFields .stats) [.scalar (.uint64 9)]

def interfaceRow : RefVal :=
  .struct (policyDecls.structFields .interface) [.scalar (.string "eth0"), .ptr statsRow]

def policyRow : RefVal :=
  .struct (policyDecls.structFields .policy)
    [.scalar (.string "eth0"), .scalar (.string "gold"), .scalar (.uint64 1), .ptr statsRow]

theorem placed_policyNode : Placed policyNode := by
  have hleaf : ∀ (ptr : List Nat) (name : String) (ty : NodeType) (fq : String),
      Placed (.mk ptr name false ty fq []) :=
    fun _ _ _ _ => .mk (fun _ hc => absurd hc List.not_mem_nil) List.nodup_nil
      (fun _ hc => absurd hc List.not_mem_nil)
  refine .mk ?_ (by decide) ?_
  · simp [MetricsSpecNode.ptr]
  · simp only [List.forall_mem_cons]
    refine ⟨hleaf _ _ _ _, hleaf _ _ _ _, hleaf _ _ _ _, .mk ?_ (by decide) ?_,
      List.forall_mem_nil _⟩
    · simp [MetricsSpecNode.ptr]
    · simpa using hleaf _ _ _ _

/-- With one tag on the level, the metric of the container goes to one URL. -/
theorem push_url_order_interface :
    (HasType policyDecls interfaceRow (.struct .interface) ∧ Placed policyNode ∧
      Good policyDecls ⟨[], [], 0⟩ policyNode .interface) ∧
    (rowForest reflectedPrometheus interfaceRow policyNode).Orderless
      (tagText reflectedPrometheus.sprintAtom) ∧
    ∀ o₁ o₂ : RangeOrder,
      pushed "http://gw" reflectedPrometheus interfaceRow policyNode 7 [] o₁ ⟨[], [], 0⟩
        = pushed "http://gw" reflectedPrometheus interfaceRow policyNode 7 [] o₂ ⟨[], [], 0⟩ := by
  have hv : HasType policyDecls interfaceRow (.struct .interface) :=
    ⟨rfl, trivial, ⟨rfl, trivial, trivial⟩, trivial⟩
  have hc : Good policyDecls ⟨[], [], 0⟩ policyNode .interface := PipelineNameCache.good_empty 0
  have hforest : rowForest reflectedPrometheus interfaceRow policyNode
      = .level [⟨"interface_name", .reflected (.scalar (.string "eth0"))⟩] []
          (.level [] [⟨"stats__transmit_bytes", .reflected (.scalar (.uint64 9))⟩] .nil .nil)
          .nil := rfl
  have horderless : (rowForest reflectedPrometheus interfaceRow policyNode).Orderless
      (tagText reflectedPrometheus.sprintAtom) := by
    rw [hforest]
    simp [Orderless]
  exact ⟨⟨hv, placed_policyNode, hc⟩, horderless, fun o₁ o₂ =>
    (push_url_order_iff "http://gw" reflectedPrometheus 7 [] hv placed_policyNode hc).1 horderless
      o₁ o₂ ⟨[], [], 0⟩ hc⟩

/-- The orders of the maps, backwards. -/
def backwards : RangeOrder := ⟨fun _ m => m.reverse, fun _ m => List.reverse_perm m⟩

/-- With both tags the metrics go to other URLs when the maps are ranged over
    backwards: that of the level, and that of the container, which has no tag itself. -/
theorem push_url_depends_on_order :
    HasType policyDecls policyRow (.struct .policy) ∧
    pushed "http://gw" reflectedPrometheus policyRow policyNode 7 [] stored ⟨[], [], 0⟩
      ≠ pushed "http://gw" reflectedPrometheus policyRow policyNode 7 [] backwards ⟨[], [], 0⟩ ∧
    (posts "http://gw" reflectedPrometheus policyRow policyNode 7 [] stored ⟨[], [], 0⟩).map
        Post.url
      = ["http://gw_18073591916280232867", "http://gw_18073591916280232867"] ∧
    (posts "http://gw" reflectedPrometheus policyRow policyNode 7 [] backwards ⟨[], [], 0⟩).map
        Post.url
      = ["http://gw_11413738749648999449", "http://gw_11413738749648999449"] := by
  refine ⟨⟨rfl, trivial, trivial, trivial, ⟨rfl, trivial, trivial⟩, trivial⟩, fun heq => ?_,
    by decide +kernel, by decide +kernel⟩
  have hurls := congrArg (Multiset.map Prod.fst) heq
  revert hurls
  decide +kernel

end PipelinePushOrder
