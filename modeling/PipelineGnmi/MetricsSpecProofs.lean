import PipelineGnmi.GoMapProofs
import PipelineGnmi.DataMsgProofs

/-! # The metrics specification

    `metrics.go`: the operator's specification is a forest of named nodes, read
    from JSON; `buildSpecDB` types every node (sensor, tag or container), names
    the leaves by their path and files the children of a container under their
    names, one map for each type.

    `SensorAt` says the same of the specification as written: which chains of
    names lead from a node to a sensor, and what the sensor is called.
    `sensorAt_iff_builtAt` is the bridge: over distinct sibling names the maps
    of the built tree find exactly the paths of the specification. -/

namespace PipelineMetricsSpec

open PipelineMessage PipelineDataMsg

/-! ## What reaches an output handler -/

/-- `reflect.StructField`: the Go name and the `protobuf` tag, if there is
    one. -/
structure StructField where
  name : String
  tag : Option String
  deriving DecidableEq, Repr

/-- A reflected value of a generated protobuf struct. -/
inductive RefVal where
  | scalar (v : Scalar)
  | nilPtr
  | ptr (v : RefVal)
  | struct (typ : List StructField) (fields : List RefVal)
  | slice (vs : List RefVal)

/-- The dynamic values a `metricsAtom` may hold. -/
inductive AtomVal where
  | none
  | scalar (v : Scalar)
  | decimal64 (digits : Int64) (precision : UInt32)
  | reflected (v : RefVal)

/-- `metricsAtom`. -/
structure MetricsAtom where
  key : String
  val : AtomVal

/-- The calls a producer makes, in order: on the output handler, and on the
    statistics table for tracked sensors. -/
inductive MetricEvent where
  | buildMetric (tags : List MetricsAtom) (sensor : MetricsAtom) (ts : UInt64)
  | flushMetric (tags : List MetricsAtom) (ts : UInt64)
  | statRecordUpdate (key : String) (ts : UInt64)

/-! ## The specification as read -/

/-- `metricsSpecNode` as unmarshalled from JSON; `null` is a nil pointer. -/
inductive SpecNode where
  | null
  | node (name : String) (tag track : Bool) (fields : List SpecNode)

namespace SpecNode

def name : SpecNode → String
  | null => ""
  | node n _ _ _ => n

def fields : SpecNode → List SpecNode
  | null => []
  | node _ _ _ fs => fs

end SpecNode

/-- The naming side of a `metricsOutputHandler`, and `%v` as `fmt` prints it for
    the two kinds of value the module prints. -/
structure Handler where
  adaptSensorName : String → String
  adaptTagName : String → String
  sprintAtom : AtomVal → String
  sprintNode : SpecNode → String

/-- `metricsSpecNodeType`. -/
inductive NodeType where
  | sensor
  | tag
  | container
  deriving DecidableEq, Repr

/-- `metricsSpecNode` once built.  `ptr` is the identity of the node, its place
    in the specification; the per-stream caches of internal names hang off
    it. -/
inductive MetricsSpecNode where
  | mk (ptr : List Nat) (name : String) (track : Bool) (nodeType : NodeType)
      (fqName : String) (fields : List MetricsSpecNode)

namespace MetricsSpecNode

def ptr : MetricsSpecNode → List Nat
  | mk p _ _ _ _ _ => p

def name : MetricsSpecNode → String
  | mk _ n _ _ _ _ => n

def track : MetricsSpecNode → Bool
  | mk _ _ t _ _ _ => t

def nodeType : MetricsSpecNode → NodeType
  | mk _ _ _ ty _ _ => ty

def fqName : MetricsSpecNode → String
  | mk _ _ _ _ fq _ => fq

def fields : MetricsSpecNode → List MetricsSpecNode
  | mk _ _ _ _ _ fs => fs

/-- `fieldsMap`. -/
def fieldsMap (node : MetricsSpecNode) : List (String × MetricsSpecNode) :=
  GoMap.collect (fun _ => true) name node.fields

/-- `fieldsMapsByType`. -/
def fieldsMapByType (node : MetricsSpecNode) (ty : NodeType) : List (String × MetricsSpecNode) :=
  GoMap.collect (fun c => decide (c.nodeType = ty)) name node.fields

end MetricsSpecNode

/-- The path of a node below `path`: an empty name adds nothing. -/
def joinPath (path conjoinsymbol name : String) : String :=
  if name ≠ "" then
    if path ≠ "" then path ++ conjoinsymbol ++ name else name
  else path

mutual

/-- `buildSpecDBSubtree`; `ptr` is the place of the node. -/
def buildSpecDBSubtree (h : Handler) (conjoinsymbol : String) :
    SpecNode → List Nat → String → Except Failure MetricsSpecNode
  | .null, _, _ => .error .nilPointer
  | .node name tag track fields, ptr, path =>
      let path := joinPath path conjoinsymbol name
      if tag then
        if fields.length ≠ 0 then
          .error (.error ("Node " ++ h.sprintNode (.node name tag track fields)
            ++ " is labelled 'Tag' but contains 'Fields'\n"))
        else .ok (.mk ptr name track .tag (h.adaptTagName path) [])
      else if fields.length ≠ 0 then
        match buildSpecDBFields h conjoinsymbol fields ptr path 0 with
        | .error f => .error f
        | .ok children => .ok (.mk ptr name track .container "" children)
      else .ok (.mk ptr name track .sensor (h.adaptSensorName path) [])

/-- The loop of `buildSpecDBSubtree` over the children, the first error
    ending it. -/
def buildSpecDBFields (h : Handler) (conjoinsymbol : String) :
    List SpecNode → List Nat → String → Nat → Except Failure (List MetricsSpecNode)
  | [], _, _, _ => .ok []
  | child :: rest, ptr, path, i =>
      match buildSpecDBSubtree h conjoinsymbol child (ptr ++ [i]) path with
      | .error f => .error f
      | .ok c =>
        match buildSpecDBFields h conjoinsymbol rest ptr path (i + 1) with
        | .error f => .error f
        | .ok cs => .ok (c :: cs)

end

/-- The loop of `buildSpecDB`, from the base paths filed so far. -/
def buildSpecDBLoop (h : Handler) :
    List (String × SpecNode) → Nat → List (String × MetricsSpecNode) →
      Except Failure (List (String × MetricsSpecNode))
  | [], _, db => .ok db
  | (basepath, spec) :: rest, i, db =>
      match buildSpecDBSubtree h "__" spec [i] "" with
      | .error f => .error f
      | .ok node => buildSpecDBLoop h rest (i + 1) (GoMap.set db basepath node)

/-- `buildSpecDB`. -/
def buildSpecDB (h : Handler) (specSet : List (String × SpecNode)) :
    Except Failure (List (String × MetricsSpecNode)) :=
  buildSpecDBLoop h specSet 0 []

/-! ## Paths of the specification -/

/-- The chains of names leading from a node of the specification through
    containers to a sensor leaf, with the name the sensor goes by; `path` is
    the path above the node. -/
inductive SensorAt (h : Handler) :
    String → SpecNode → List String → String → Prop where
  | leaf {path name : String} {track : Bool} {fields : List SpecNode}
      {n : String} {trk : Bool} :
      .node n false trk [] ∈ fields →
      SensorAt h path (.node name false track fields) [n]
        (h.adaptSensorName (joinPath (joinPath path "__" name) "__" n))
  | step {path name : String} {track : Bool} {fields : List SpecNode}
      {n : String} {trk : Bool} {sub : List SpecNode} {names : List String}
      {fqName : String} :
      .node n false trk sub ∈ fields → sub ≠ [] →
      SensorAt h (joinPath path "__" name) (.node n false trk sub) names fqName →
      SensorAt h path (.node name false track fields) (n :: names) fqName

/-- Sibling fields have distinct names, at every level. -/
inductive DistinctSiblings : SpecNode → Prop where
  | null : DistinctSiblings .null
  | node {name : String} {tag track : Bool} {fields : List SpecNode} :
      (fields.map SpecNode.name).Nodup → (∀ c ∈ fields, DistinctSiblings c) →
      DistinctSiblings (.node name tag track fields)

/-- The same chains through the maps of the built tree. -/
inductive BuiltAt : MetricsSpecNode → List String → String → Prop where
  | leaf {node c : MetricsSpecNode} {n : String} :
      GoMap.get (node.fieldsMapByType .sensor) n = some c →
      BuiltAt node [n] c.fqName
  | step {node c : MetricsSpecNode} {n : String} {names : List String}
      {fqName : String} :
      GoMap.get (node.fieldsMapByType .container) n = some c →
      BuiltAt c names fqName → BuiltAt node (n :: names) fqName

variable {h : Handler} {sym path : String} {raw : SpecNode} {node c : MetricsSpecNode}
  {cs : List MetricsSpecNode}

/-- The built children stand for the children as read, one for one. -/
theorem buildSpecDBFields_forall₂ :
    ∀ (fields : List SpecNode) {ptr : List Nat} {path : String} {i : Nat}
      {cs : List MetricsSpecNode},
      buildSpecDBFields h sym fields ptr path i = .ok cs →
      List.Forall₂ (fun raw c => ∃ p, buildSpecDBSubtree h sym raw p path = .ok c)
        fields cs := by
  intro fields
  induction fields with
  | nil =>
      intro ptr path i cs hb
      cases hb
      exact .nil
  | cons child rest ih =>
      intro ptr path i cs hb
      unfold buildSpecDBFields at hb
      split at hb
      · exact nomatch hb
      · next c hc =>
          split at hb
          · exact nomatch hb
          · next cs' hcs =>
              cases hb
              exact .cons ⟨_, hc⟩ (ih hcs)

/-- **BUILD CASES**: a node that builds is a tag without fields, a container
    whose children build, or a sensor. -/
theorem buildSpecDBSubtree_cases {ptr : List Nat}
    (hb : buildSpecDBSubtree h sym raw ptr path = .ok node) :
    ∃ name tag track fields, raw = .node name tag track fields ∧
      ((tag = true ∧ fields = [] ∧ node = .mk ptr name track .tag
          (h.adaptTagName (joinPath path sym name)) []) ∨
       (tag = false ∧ fields ≠ [] ∧ ∃ cs, node = .mk ptr name track .container "" cs ∧
          List.Forall₂ (fun r c => ∃ p,
            buildSpecDBSubtree h sym r p (joinPath path sym name) = .ok c) fields cs) ∨
       (tag = false ∧ fields = [] ∧ node = .mk ptr name track .sensor
          (h.adaptSensorName (joinPath path sym name)) [])) := by
  cases raw with
  | null => exact nomatch hb
  | node name tag track fields =>
      refine ⟨name, tag, track, fields, rfl, ?_⟩
      unfold buildSpecDBSubtree at hb
      cases tag with
      | true =>
          by_cases hf : fields = []
          · subst hf
            exact Or.inl ⟨rfl, rfl, (Except.ok.inj hb).symm⟩
          · have hlen : fields.length ≠ 0 := fun h0 => hf (List.length_eq_zero_iff.mp h0)
            simp only [if_true, if_pos hlen] at hb
            exact nomatch hb
      | false =>
          by_cases hf : fields = []
          · subst hf
            exact Or.inr (Or.inr ⟨rfl, rfl, (Except.ok.inj hb).symm⟩)
          · have hlen : fields.length ≠ 0 := fun h0 => hf (List.length_eq_zero_iff.mp h0)
            simp only [Bool.false_eq_true, if_false, if_pos hlen] at hb
            refine Or.inr (Or.inl ⟨rfl, hf, ?_⟩)
            split at hb
            · exact nomatch hb
            · next cs hcs =>
                exact ⟨cs, (Except.ok.inj hb).symm, buildSpecDBFields_forall₂ fields hcs⟩

/-- A built node keeps its name. -/
theorem buildSpecDBSubtree_name {ptr : List Nat}
    (hb : buildSpecDBSubtree h sym raw ptr path = .ok node) : node.name = raw.name := by
  obtain ⟨name, tag, track, fields, rfl, hcase⟩ := buildSpecDBSubtree_cases hb
  rcases hcase with ⟨-, -, rfl⟩ | ⟨-, -, cs, rfl, -⟩ | ⟨-, -, rfl⟩ <;> rfl

/-- Built siblings have the names of the siblings as read. -/
theorem forall₂_built_names {fields : List SpecNode} (hf : List.Forall₂ (fun raw c => ∃ p,
      buildSpecDBSubtree h sym raw p path = .ok c) fields cs) :
    cs.map MetricsSpecNode.name = fields.map SpecNode.name := by
  induction hf with
  | nil => rfl
  | cons hb _ ih =>
      obtain ⟨p, hb⟩ := hb
      rw [List.map_cons, List.map_cons, ih, buildSpecDBSubtree_name hb]

/-- The built child of a child as read. -/
theorem forall₂_built_of_mem {fields : List SpecNode} (hf : List.Forall₂ (fun raw c => ∃ p,
      buildSpecDBSubtree h sym raw p path = .ok c) fields cs) (hr : raw ∈ fields) :
    ∃ c ∈ cs, ∃ p, buildSpecDBSubtree h sym raw p path = .ok c := by
  induction hf with
  | nil => exact nomatch hr
  | @cons r c rs cs hb _ ih =>
      rcases List.mem_cons.mp hr with rfl | hr
      · exact ⟨c, List.mem_cons_self .., hb⟩
      · obtain ⟨c', hc', hb'⟩ := ih hr
        exact ⟨c', List.mem_cons_of_mem _ hc', hb'⟩

/-- The child as read of a built child. -/
theorem forall₂_built_mem {fields : List SpecNode} (hf : List.Forall₂ (fun raw c => ∃ p,
      buildSpecDBSubtree h sym raw p path = .ok c) fields cs) (hc : c ∈ cs) :
    ∃ raw ∈ fields, ∃ p, buildSpecDBSubtree h sym raw p path = .ok c := by
  induction hf with
  | nil => exact nomatch hc
  | @cons r c' rs cs hb _ ih =>
      rcases List.mem_cons.mp hc with rfl | hc
      · exact ⟨r, List.mem_cons_self .., hb⟩
      · obtain ⟨r', hr', hb'⟩ := ih hc
        exact ⟨r', List.mem_cons_of_mem _ hr', hb'⟩

/-- The map of a type finds the built children of that type by name. -/
theorem get_fieldsMapByType {ptr : List Nat} {name : String} {track : Bool} {ty : NodeType}
    {fq : String} {fields : List SpecNode} (hf : List.Forall₂ (fun raw c => ∃ p,
      buildSpecDBSubtree h sym raw p path = .ok c) fields cs)
    (hnd : (fields.map SpecNode.name).Nodup) (want : NodeType) {n : String} :
    GoMap.get ((MetricsSpecNode.mk ptr name track ty fq cs).fieldsMapByType want) n
        = some c ↔ c ∈ cs ∧ c.nodeType = want ∧ c.name = n := by
  have hnames : (cs.map MetricsSpecNode.name).Nodup := by
    rw [forall₂_built_names hf]
    exact hnd
  have hget := GoMap.get_collect (p := fun c => decide (c.nodeType = want)) hnames
    (k := n) (c := c)
  rw [decide_eq_true_iff] at hget
  exact hget

/-- Only a container has paths below it. -/
theorem builtAt_container {ptr : List Nat} (hb : buildSpecDBSubtree h sym raw ptr path = .ok node)
    {ty : NodeType} {n : String} (hg : GoMap.get (node.fieldsMapByType ty) n = some c) :
    ∃ name track fields cs, raw = .node name false track fields ∧
      node = .mk ptr name track .container "" cs ∧
      List.Forall₂ (fun r c => ∃ p,
        buildSpecDBSubtree h sym r p (joinPath path sym name) = .ok c) fields cs := by
  obtain ⟨name, tag, track, fields, rfl, hcase⟩ := buildSpecDBSubtree_cases hb
  rcases hcase with ⟨-, -, rfl⟩ | ⟨rfl, -, cs, rfl, hf⟩ | ⟨-, -, rfl⟩
  · exact nomatch hg
  · exact ⟨name, track, fields, cs, rfl, rfl, hf⟩
  · exact nomatch hg

/-- Every path of the specification is found through the maps. -/
theorem builtAt_of_sensorAt {names : List String} {fqName : String}
    (hs : SensorAt h path raw names fqName) :
    ∀ {ptr : List Nat} {node : MetricsSpecNode},
      buildSpecDBSubtree h "__" raw ptr path = .ok node → DistinctSiblings raw →
      BuiltAt node names fqName := by
  induction hs with
  | @leaf path name track fields n trk hmem =>
      intro ptr node hb hd
      cases hd with
      | node hnd _ =>
          obtain ⟨_, _, _, _, heq, hcase⟩ := buildSpecDBSubtree_cases hb
          cases heq
          rcases hcase with ⟨ht, -, -⟩ | ⟨-, -, cs, rfl, hf⟩ | ⟨-, rfl, -⟩
          · exact nomatch ht
          · obtain ⟨c, hc, p, hbc⟩ := forall₂_built_of_mem hf hmem
            cases hbc
            exact .leaf ((get_fieldsMapByType hf hnd .sensor).mpr ⟨hc, rfl, rfl⟩)
          · exact nomatch hmem
  | @step path name track fields n trk sub names fqName hmem hsub hs ih =>
      intro ptr node hb hd
      cases hd with
      | node hnd hdc =>
          obtain ⟨_, _, _, _, heq, hcase⟩ := buildSpecDBSubtree_cases hb
          cases heq
          rcases hcase with ⟨ht, -, -⟩ | ⟨-, -, cs, rfl, hf⟩ | ⟨-, rfl, -⟩
          · exact nomatch ht
          · obtain ⟨c, hc, p, hbc⟩ := forall₂_built_of_mem hf hmem
            have hat := ih hbc (hdc _ hmem)
            -- a child that builds with fields of its own is a container
            obtain ⟨_, _, _, _, heq, hcase⟩ := buildSpecDBSubtree_cases hbc
            cases heq
            rcases hcase with ⟨ht, -, -⟩ | ⟨-, -, cs', rfl, -⟩ | ⟨-, rfl, -⟩
            · exact nomatch ht
            · exact .step ((get_fieldsMapByType hf hnd .container).mpr ⟨hc, rfl, rfl⟩) hat
            · exact absurd rfl hsub
          · exact nomatch hmem

/-- Whatever is found through the maps is a path of the specification. -/
theorem sensorAt_of_builtAt {names : List String} {fqName : String}
    (hat : BuiltAt node names fqName) :
    ∀ {raw : SpecNode} {ptr : List Nat} {path : String},
      buildSpecDBSubtree h "__" raw ptr path = .ok node → DistinctSiblings raw →
      SensorAt h path raw names fqName := by
  induction hat with
  | @leaf node c n hg =>
      intro raw ptr path hb hd
      obtain ⟨name, track, fields, cs, rfl, rfl, hf⟩ := builtAt_container hb hg
      cases hd with
      | node hnd _ =>
          obtain ⟨hc, hty, hn⟩ := (get_fieldsMapByType hf hnd .sensor).mp hg
          obtain ⟨rawc, hmem, p, hbc⟩ := forall₂_built_mem hf hc
          obtain ⟨n', tag, trk, sub, rfl, hcase⟩ := buildSpecDBSubtree_cases hbc
          rcases hcase with ⟨-, -, rfl⟩ | ⟨-, -, cs', rfl, -⟩ | ⟨rfl, rfl, rfl⟩
          · exact nomatch hty
          · exact nomatch hty
          · cases hn
            exact .leaf hmem
  | @step node c n names fqName hg _ ih =>
      intro raw ptr path hb hd
      obtain ⟨name, track, fields, cs, rfl, rfl, hf⟩ := builtAt_container hb hg
      cases hd with
      | node hnd hdc =>
          obtain ⟨hc, hty, hn⟩ := (get_fieldsMapByType hf hnd .container).mp hg
          obtain ⟨rawc, hmem, p, hbc⟩ := forall₂_built_mem hf hc
          have hs := ih hbc (hdc _ hmem)
          obtain ⟨n', tag, trk, sub, rfl, hcase⟩ := buildSpecDBSubtree_cases hbc
          rcases hcase with ⟨-, -, rfl⟩ | ⟨rfl, hsub, cs', rfl, -⟩ | ⟨-, -, rfl⟩
          · exact nomatch hty
          · cases hn
            exact .step hmem hsub hs
          · exact nomatch hty

/-- **THE MAPS FIND THE PATHS**: over distinct sibling names, a chain of names
    leads to a sensor through the maps of the built tree exactly when it spells
    a path of the specification, and to the same name. -/
theorem sensorAt_iff_builtAt {ptr : List Nat}
    (hb : buildSpecDBSubtree h "__" raw ptr path = .ok node) (hd : DistinctSiblings raw)
    (names : List String) (fqName : String) :
    SensorAt h path raw names fqName ↔ BuiltAt node names fqName :=
  ⟨fun hs => builtAt_of_sensorAt hs hb hd, fun hat => sensorAt_of_builtAt hat hb hd⟩

/-! ## The database -/

/-- The specification in force for a base path: the last one given for it. -/
def specRoot : List (String × SpecNode) → String → Option SpecNode
  | [], _ => none
  | (basepath, spec) :: rest, k =>
      match specRoot rest k with
      | some later => some later
      | none => if basepath = k then some spec else none

theorem specRoot_mem : ∀ {specSet : List (String × SpecNode)} {k : String}
    {spec : SpecNode}, specRoot specSet k = some spec → (k, spec) ∈ specSet := by
  intro specSet
  induction specSet with
  | nil => intro k spec h; exact nomatch h
  | cons entry rest ih =>
      intro k spec h
      obtain ⟨bp, s⟩ := entry
      unfold specRoot at h
      split at h
      · next later hl =>
          cases h
          exact List.mem_cons_of_mem _ (ih hl)
      · split at h
        · next hbp =>
            cases h
            subst hbp
            exact List.mem_cons_self ..
        · exact nomatch h

/-- The loop of `buildSpecDB` files, for every base path, the specification in
    force, built; other base paths keep what they had. -/
theorem get_buildSpecDBLoop :
    ∀ (specSet : List (String × SpecNode)) {i : Nat}
      {db db' : List (String × MetricsSpecNode)},
      buildSpecDBLoop h specSet i db = .ok db' →
      ∀ {basepath : String} {node : MetricsSpecNode},
        GoMap.get db' basepath = some node →
        (specRoot specSet basepath = none ∧ GoMap.get db basepath = some node) ∨
          ∃ spec ptr, specRoot specSet basepath = some spec ∧
            buildSpecDBSubtree h "__" spec ptr "" = .ok node := by
  intro specSet
  induction specSet with
  | nil =>
      intro i db db' hb basepath node hg
      cases hb
      exact Or.inl ⟨rfl, hg⟩
  | cons entry rest ih =>
      intro i db db' hb basepath node hg
      obtain ⟨bp, spec⟩ := entry
      unfold buildSpecDBLoop at hb
      split at hb
      · cases hb
      · next root hroot =>
          rcases ih hb hg with ⟨hnone, hset⟩ | ⟨later, ptr, hlater, hbuilt⟩
          · by_cases hbp : bp = basepath
            · subst hbp
              -- the entry this iteration set, and none after it replaced
              rw [GoMap.get_set_self] at hset
              cases hset
              exact Or.inr ⟨spec, [i], by simp [specRoot, hnone], hroot⟩
            · rw [GoMap.get_set_ne db root (Ne.symm hbp)] at hset
              exact Or.inl ⟨by simp [specRoot, hnone, hbp], hset⟩
          · exact Or.inr ⟨later, ptr, by simp [specRoot, hlater], hbuilt⟩

/-- **THE DATABASE FILES THE SPECIFICATION IN FORCE**. -/
theorem get_buildSpecDB {specSet : List (String × SpecNode)} {db : List (String × MetricsSpecNode)}
    (hdb : buildSpecDB h specSet = .ok db) {basepath : String}
    (hg : GoMap.get db basepath = some node) :
    ∃ spec ptr, specRoot specSet basepath = some spec ∧
      buildSpecDBSubtree h "__" spec ptr "" = .ok node := by
  rcases get_buildSpecDBLoop specSet hdb hg with ⟨-, hnil⟩ | hfiled
  · exact nomatch hnil
  · exact hfiled

end PipelineMetricsSpec
