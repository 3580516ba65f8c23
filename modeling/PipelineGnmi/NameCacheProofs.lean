import PipelineGnmi.GpbMetricsProofs

/-! # The cache of internal names

    `produceGPBMetricsForNode` (`codec_gpb.go`) looks the children of a
    specification node up by their Go names.  The names are taken from the struct
    the node meets first, and kept for every message after it.

    The walk without a cache takes the names from the struct at hand
    (`uncachedForNode`).  With it, a walk makes the same calls
    (`follows_forNode`) as long as whatever reaches a node has the type the names
    were taken from.  That is so because Go is typed: the type a node is met with
    is settled by the type at the root and the names on the way (`Below`).  What a
    walk changes in the cache lies below the node it starts at (`Touches`), so that
    one part of a specification does not get in the way of another. -/

namespace PipelineNameCache

open PipelineMessage PipelineDataMsg PipelineMetricsSpec PipelineGpbKvMetrics PipelineGpbMetrics

/-! ## Go types -/

/-- The types of generated fields.  `other` is whatever is not walked: scalars,
    interfaces and maps. -/
inductive GoType (τ : Type) where
  | other
  | ptr (t : GoType τ)
  | slice (t : GoType τ)
  | struct (name : τ)

/-- The struct types and their fields. -/
def TypeDecls (τ : Type) : Type := τ → List (StructField × GoType τ)

variable {τ : Type}

namespace TypeDecls

/-- The fields as `reflect` shows them. -/
def structFields (Γ : TypeDecls τ) (n : τ) : List StructField := (Γ n).map Prod.fst

def fieldTypes (Γ : TypeDecls τ) (n : τ) : List (GoType τ) := (Γ n).map Prod.snd

end TypeDecls

mutual

/-- A value of a type. -/
def HasType (Γ : TypeDecls τ) : RefVal → GoType τ → Prop
  | .scalar _, .other => True
  | .nilPtr, .other => True
  | .nilPtr, .ptr _ => True
  | .ptr v, .ptr t => HasType Γ v t
  | .slice vs, .slice t => AllHaveType Γ vs t
  | .struct typ vals, .struct n => typ = Γ.structFields n ∧ HaveTypes Γ vals (Γ.fieldTypes n)
  | _, _ => False

/-- The elements of a slice. -/
def AllHaveType (Γ : TypeDecls τ) : List RefVal → GoType τ → Prop
  | [], _ => True
  | v :: vs, t => HasType Γ v t ∧ AllHaveType Γ vs t

/-- The fields of a struct. -/
def HaveTypes (Γ : TypeDecls τ) : List RefVal → List (GoType τ) → Prop
  | [], [] => True
  | v :: vs, t :: ts => HasType Γ v t ∧ HaveTypes Γ vs ts
  | _, _ => False

end

/-- The struct type a value of this type is walked as. -/
def structType : GoType τ → Option τ
  | .struct n => some n
  | _ => none

/-- The struct type an element of a slice is walked as. -/
def elementType : GoType τ → Option τ
  | .ptr t => structType t
  | .struct n => some n
  | _ => none

/-- The struct type a container is walked as. -/
def containerType : GoType τ → Option τ
  | .ptr t => structType t
  | .struct n => some n
  | .slice t => elementType t
  | .other => none

/-! ## The walk without a cache -/

/-- The names the children of a node have in a struct. -/
def namesOf (node : MetricsSpecNode) (typ : List StructField) : NameCache :=
  ⟨[], cacheFieldNames node typ [], 0⟩

/-- A walk that takes its names from the struct at hand; what it counts are the
    maps ranged over. -/
abbrev UncachedWalk := MetricsSpecNode → UInt64 → List MetricsAtom → Nat →
  List MetricEvent × Nat

def uncachedContainers (names : NameCache) (typ : List StructField)
    (walks : List UncachedWalk) (tags : List MetricsAtom) (timestamp : UInt64) :
    List (String × MetricsSpecNode) → Nat → List MetricEvent × Nat
  | [], n => ([], n)
  | (containerName, containerNode) :: rest, n =>
      match (fieldIndex typ (names.lookupName containerName containerNode)).bind
        (walks[·]?) with
      | none => uncachedContainers names typ walks tags timestamp rest n
      | some walk =>
          let r := walk containerNode timestamp tags n
          let r' := uncachedContainers names typ walks tags timestamp rest r.2
          (r.1 ++ r'.1, r'.2)

def uncachedStruct (h : Handler) (order : RangeOrder) (typ : List StructField)
    (vals : List RefVal) (walks : List UncachedWalk) : UncachedWalk :=
  fun node timestamp tags n =>
    let names := namesOf node typ
    let tags := refTags h typ vals names (order.visit n (node.fieldsMapByType .tag)) tags
    let built := refSensors typ vals names tags timestamp
      (order.visit (n + 1) (node.fieldsMapByType .sensor))
    let flushed : List MetricEvent :=
      if built.length ≠ 0 then [.flushMetric tags timestamp] else []
    let below := uncachedContainers names typ walks tags timestamp
      (order.visit (n + 2) (node.fieldsMapByType .container)) (n + 3)
    (built ++ flushed ++ below.1, below.2)

def uncachedNone : UncachedWalk := fun _ _ _ n => ([], n)

mutual

/-- `produceGPBMetricsForNode` without the cache. -/
def uncachedForNode (h : Handler) (order : RangeOrder) : RefVal → UncachedWalk
  | .struct typ vals => uncachedStruct h order typ vals (uncachedWalks h order vals)
  | _ => uncachedNone

def uncachedContainer (h : Handler) (order : RangeOrder) : RefVal → UncachedWalk
  | .ptr v => uncachedForNode h order v
  | .struct typ vals => uncachedStruct h order typ vals (uncachedWalks h order vals)
  | .slice vs => uncachedSlice h order vs
  | _ => uncachedNone

def uncachedElement (h : Handler) (order : RangeOrder) : RefVal → UncachedWalk
  | .ptr v => uncachedForNode h order v
  | .struct typ vals => uncachedStruct h order typ vals (uncachedWalks h order vals)
  | _ => uncachedNone

def uncachedSlice (h : Handler) (order : RangeOrder) : List RefVal → UncachedWalk
  | [] => uncachedNone
  | v :: vs => fun node timestamp tags n =>
      let r := uncachedElement h order v node timestamp tags n
      let r' := uncachedSlice h order vs node timestamp tags r.2
      (r.1 ++ r'.1, r'.2)

def uncachedWalks (h : Handler) (order : RangeOrder) : List RefVal → List UncachedWalk
  | [] => []
  | v :: vs => uncachedContainer h order v :: uncachedWalks h order vs

end

/-! ## The names a struct gives -/

/-- Names are laid over those there were. -/
theorem get_cacheFieldNames (node : MetricsSpecNode) (q : List Nat) :
    ∀ (typ : List StructField) (names : List (List Nat × String)),
      GoMap.get (cacheFieldNames node typ names) q =
        (GoMap.get (cacheFieldNames node typ []) q).or (GoMap.get names q) := by
  intro typ
  induction typ with
  | nil => exact fun names => rfl
  | cons fldtype rest ih =>
      intro names
      unfold cacheFieldNames at ih ⊢
      rw [List.foldl_cons, List.foldl_cons, ih]
      cases GoMap.get node.fieldsMap (codecGPBExtractFieldName fldtype) with
      | none => rfl
      | some child =>
          show Option.or _ (GoMap.get (GoMap.set names child.ptr fldtype.name) q) =
            (GoMap.get (rest.foldl _ (GoMap.set [] child.ptr fldtype.name)) q).or _
          rw [ih (GoMap.set [] child.ptr fldtype.name), Option.or_assoc]
          congr 1
          by_cases hq : q = child.ptr
          · rw [hq, GoMap.get_set_self, GoMap.get_set_self]
            rfl
          · rw [GoMap.get_set_ne _ _ hq, GoMap.get_set_ne _ _ hq]
            rfl

/-- Only children are given names. -/
theorem child_of_name {node : MetricsSpecNode} {q : List Nat} {s : String} :
    ∀ {typ : List StructField}, GoMap.get (cacheFieldNames node typ []) q = some s →
      ∃ child ∈ node.fields, child.ptr = q := by
  intro typ
  induction typ with
  | nil => exact fun h => by cases h
  | cons fldtype rest ih =>
      intro h
      unfold cacheFieldNames at h ih
      rw [List.foldl_cons] at h
      cases hchild : GoMap.get node.fieldsMap (codecGPBExtractFieldName fldtype) with
      | none =>
          rw [hchild] at h
          exact ih h
      | some child =>
          rw [hchild] at h
          have hsplit := get_cacheFieldNames node q rest (GoMap.set [] child.ptr fldtype.name)
          by_cases hq : q = child.ptr
          · exact ⟨child, (GoMap.mem_of_get_collect hchild).1, hq.symm⟩
          · rw [GoMap.get_set_ne _ _ hq, GoMap.get_nil, Option.or_none] at hsplit
            exact ih (hsplit.symm.trans h)

/-! ## Places -/

/-- Places of one length that lead to one place. -/
theorem eq_of_prefixes {p p' q : List Nat} (h : p <+: q) (h' : p' <+: q)
    (hlen : p.length = p'.length) : p = p' :=
  (List.prefix_of_prefix_length_le h h' (Nat.le_of_eq hlen)).eq_of_length hlen

/-- Every node below has its own place, below that of its parent. -/
inductive Placed : MetricsSpecNode → Prop where
  | mk {ptr : List Nat} {name : String} {track : Bool} {ty : NodeType} {fq : String}
      {fields : List MetricsSpecNode} :
      (∀ child ∈ fields, ∃ i, child.ptr = ptr ++ [i]) →
      (fields.map MetricsSpecNode.ptr).Nodup → (∀ child ∈ fields, Placed child) →
      Placed (.mk ptr name track ty fq fields)

section Placed

variable {node child other : MetricsSpecNode}

theorem Placed.of_child (h : Placed node) (hc : child ∈ node.fields) : Placed child := by
  cases h with
  | mk _ _ hall => exact hall child hc

theorem Placed.child_ptr (h : Placed node) (hc : child ∈ node.fields) :
    ∃ i, child.ptr = node.ptr ++ [i] := by
  cases h with
  | mk hptr _ _ => exact hptr child hc

theorem Placed.eq_of_ptr (h : Placed node) (hc : child ∈ node.fields) (ho : other ∈ node.fields)
    (heq : child.ptr = other.ptr) : child = other := by
  cases h with
  | mk _ hnodup _ => exact List.inj_on_of_nodup_map hnodup hc ho heq

theorem Placed.not_prefix (h : Placed node) (hc : child ∈ node.fields) :
    ¬ child.ptr <+: node.ptr := by
  intro hprefix
  obtain ⟨i, hi⟩ := h.child_ptr hc
  have hlen := hprefix.length_le
  rw [hi, List.length_append, List.length_singleton] at hlen
  omega

theorem mem_fields_of_mem_map {ty : NodeType} {name : String}
    (h : (name, child) ∈ node.fieldsMapByType ty) : child ∈ node.fields ∧ child.name = name :=
  have hfiled := GoMap.mem_collect h
  ⟨hfiled.1, hfiled.2.2⟩

end Placed

/-! ## What a walk changes -/

/-- From `c` to `c'` only nodes at or below `p` were cached, and only nodes below
    `p` given names. -/
structure Touches (p : List Nat) (c c' : NameCache) : Prop where
  cached : ∀ q, ¬ p <+: q → (q ∈ c'.cached ↔ q ∈ c.cached)
  names : ∀ q, (p <+: q → q = p) → GoMap.get c'.internalName q = GoMap.get c.internalName q

section Touches

variable {p p' : List Nat} {c c' c'' : NameCache}

theorem Touches.refl (p : List Nat) (c : NameCache) : Touches p c c :=
  ⟨fun _ _ => Iff.rfl, fun _ _ => rfl⟩

theorem Touches.trans (h : Touches p c c') (h' : Touches p c' c'') : Touches p c c'' :=
  ⟨fun q hq => (h'.cached q hq).trans (h.cached q hq),
    fun q hq => (h'.names q hq).trans (h.names q hq)⟩

theorem Touches.above (h : Touches p' c c') (hp : p <+: p') : Touches p c c' := by
  refine ⟨fun q hq => h.cached q (fun hq' => hq (hp.trans hq')), fun q hq => h.names q ?_⟩
  intro hq'
  have heq : q = p := hq (hp.trans hq')
  subst heq
  exact hp.eq_of_length (Nat.le_antisymm hp.length_le hq'.length_le)

end Touches

/-! ## Which types reach a node -/

section Types

variable (Γ : TypeDecls τ)

/-- A node that is met with the struct type `n` hands its container `child` values
    walked as `n'`. -/
def ChildType (node : MetricsSpecNode) (n : τ) (child : MetricsSpecNode) (n' : τ) : Prop :=
  ∃ name i t, (name, child) ∈ node.fieldsMapByType .container ∧
    fieldIndex (Γ.structFields n)
      ((namesOf node (Γ.structFields n)).lookupName name child) = some i ∧
    (Γ.fieldTypes n)[i]? = some t ∧ containerType t = some n'

/-- From a node met with `n`, values walked as `k` reach the node `below`. -/
inductive Below : MetricsSpecNode → τ → MetricsSpecNode → τ → Prop where
  | refl (node : MetricsSpecNode) (n : τ) : Below node n node n
  | step {node child below : MetricsSpecNode} {n n' k : τ} :
      ChildType Γ node n child n' → Below child n' below k → Below node n below k

/-- The children of a node have the names of the struct type if they were cached,
    and else none. -/
def GoodAt (c : NameCache) (node : MetricsSpecNode) (n : τ) : Prop :=
  ∀ child ∈ node.fields,
    (node.ptr ∈ c.cached → GoMap.get c.internalName child.ptr =
      GoMap.get (cacheFieldNames node (Γ.structFields n) []) child.ptr) ∧
    (node.ptr ∉ c.cached → GoMap.get c.internalName child.ptr = none)

/-- The cache is good wherever values get to from here. -/
def Good (c : NameCache) (node : MetricsSpecNode) (n : τ) : Prop :=
  ∀ below k, Below Γ node n below k → GoodAt Γ c below k

end Types

section Good

variable {Γ : TypeDecls τ} {c c' : NameCache} {node child below : MetricsSpecNode} {n n' k : τ}

theorem ChildType.mem (h : ChildType Γ node n child n') : child ∈ node.fields := by
  obtain ⟨name, i, t, hmem, -⟩ := h
  exact (mem_fields_of_mem_map hmem).1

/-- **ONE TYPE FOR A NODE**: the type of the field a container is looked up in
    settles what its values are walked as. -/
theorem childType_iff {name : String} {i : Nat} {t : GoType τ}
    (hmem : (name, child) ∈ node.fieldsMapByType .container) (hindex : fieldIndex (Γ.structFields n)
      ((namesOf node (Γ.structFields n)).lookupName name child) = some i)
    (ht : (Γ.fieldTypes n)[i]? = some t) :
    ChildType Γ node n child n' ↔ containerType t = some n' := by
  refine ⟨?_, fun hn' => ⟨name, i, t, hmem, hindex, ht, hn'⟩⟩
  rintro ⟨name', i', t', hmem', hindex', ht', hn'⟩
  rw [← (mem_fields_of_mem_map hmem').2, (mem_fields_of_mem_map hmem).2, hindex] at hindex'
  cases hindex'
  rw [ht] at ht'
  cases ht'
  exact hn'

theorem Below.placed (h : Below Γ node n below k) (hp : Placed node) :
    Placed below ∧ node.ptr <+: below.ptr := by
  induction h with
  | refl node n => exact ⟨hp, List.prefix_rfl⟩
  | step hchild _ ih =>
      obtain ⟨hplaced, hprefix⟩ := ih (hp.of_child hchild.mem)
      obtain ⟨i, hi⟩ := hp.child_ptr hchild.mem
      exact ⟨hplaced, List.IsPrefix.trans ⟨[i], hi.symm⟩ hprefix⟩

theorem good_iff : Good Γ c node n ↔
    GoodAt Γ c node n ∧ ∀ child n', ChildType Γ node n child n' → Good Γ c child n' := by
  constructor
  · intro h
    exact ⟨h node n (.refl node n), fun child n' hchild below k hbelow =>
      h below k (.step hchild hbelow)⟩
  · rintro ⟨hat, hchildren⟩ below k hbelow
    cases hbelow with
    | refl => exact hat
    | step hchild hbelow => exact hchildren _ _ hchild _ _ hbelow

/-- Nothing is cached. -/
theorem good_empty (ranges : Nat) : Good Γ ⟨[], [], ranges⟩ node n := by
  intro below k _ child _
  exact ⟨fun hcached => absurd hcached List.not_mem_nil, fun _ => rfl⟩

/-- What is not at or below the place that was touched stays good. -/
theorem GoodAt.touched {p : List Nat} (h : GoodAt Γ c node n) (ht : Touches p c c')
    (hp : Placed node) (hnot : ¬ p <+: node.ptr) : GoodAt Γ c' node n := by
  intro child hc
  obtain ⟨i, hi⟩ := hp.child_ptr hc
  have hchild : p <+: child.ptr → child.ptr = p := by
    intro hprefix
    rw [hi] at hprefix ⊢
    rcases List.prefix_concat_iff.mp hprefix with heq | hprefix
    · exact heq.symm
    · exact absurd hprefix hnot
  rw [ht.names child.ptr hchild, ht.cached node.ptr hnot]
  exact h child hc

theorem Good.touched {p : List Nat} (h : Good Γ c node n) (ht : Touches p c c') (hp : Placed node)
    (hnot : ∀ q, node.ptr <+: q → ¬ p <+: q) : Good Γ c' node n := by
  intro below k hbelow
  obtain ⟨hplaced, hprefix⟩ := hbelow.placed hp
  exact (h below k hbelow).touched ht hplaced (hnot below.ptr hprefix)

/-- **A CHILD AT A TIME**: a walk of one child keeps the node good if it keeps the
    child good. -/
theorem Good.of_child (h : Good Γ c node n) (hp : Placed node) (hc : child ∈ node.fields)
    (ht : Touches child.ptr c c')
    (hchild : ∀ n', ChildType Γ node n child n' → Good Γ c' child n') : Good Γ c' node n := by
  obtain ⟨hat, hchildren⟩ := good_iff.mp h
  obtain ⟨i, hi⟩ := hp.child_ptr hc
  refine good_iff.mpr ⟨hat.touched ht hp (hp.not_prefix hc), ?_⟩
  intro other n' hother
  by_cases heq : other = child
  · subst heq
    exact hchild n' hother
  · refine (hchildren other n' hother).touched ht (hp.of_child hother.mem) ?_
    intro q hq hq'
    obtain ⟨j, hj⟩ := hp.child_ptr hother.mem
    have hlen : other.ptr.length = child.ptr.length := by
      rw [hi, hj, List.length_append, List.length_append]
      rfl
    exact heq (hp.eq_of_ptr hother.mem hc (eq_of_prefixes hq hq' hlen))

/-- **A NODE MEETS A STRUCT**: if its names are not cached they are taken from the
    struct, and the cache is as good as it was. -/
theorem good_cacheInternalNames (h : Good Γ c node n) (hp : Placed node) :
    Good Γ (cacheInternalNames node (Γ.structFields n) c) node n ∧
      Touches node.ptr c (cacheInternalNames node (Γ.structFields n) c) ∧
      node.ptr ∈ (cacheInternalNames node (Γ.structFields n) c).cached ∧
      (cacheInternalNames node (Γ.structFields n) c).ranges = c.ranges := by
  unfold cacheInternalNames
  by_cases hcached : node.ptr ∈ c.cached
  · rw [if_pos hcached]
    exact ⟨h, .refl _ _, hcached, rfl⟩
  · rw [if_neg hcached]
    obtain ⟨hat, hchildren⟩ := good_iff.mp h
    have hnew : ∀ q, (∀ child ∈ node.fields, child.ptr ≠ q) →
        GoMap.get (cacheFieldNames node (Γ.structFields n) c.internalName) q =
          GoMap.get c.internalName q := by
      intro q hq
      rw [get_cacheFieldNames]
      cases hname : GoMap.get (cacheFieldNames node (Γ.structFields n) []) q with
      | none => rfl
      | some s =>
          obtain ⟨child, hc, hptr⟩ := child_of_name hname
          exact absurd hptr (hq child hc)
    refine ⟨good_iff.mpr ⟨?_, ?_⟩, ⟨?_, ?_⟩, List.mem_cons_self, rfl⟩
    · intro child hc
      refine ⟨fun _ => ?_, fun hnot => absurd List.mem_cons_self hnot⟩
      rw [get_cacheFieldNames, (hat child hc).2 hcached, Option.or_none]
    · -- further down nothing changes: the new names are those of the children
      intro child n' hchild below k hbelow grandchild hg
      obtain ⟨hplaced, hprefix⟩ := hbelow.placed (hp.of_child hchild.mem)
      have hdeep : node.ptr.length < below.ptr.length := by
        have hlen := hprefix.length_le
        obtain ⟨i, hi⟩ := hp.child_ptr hchild.mem
        rw [hi, List.length_append, List.length_singleton] at hlen
        exact hlen
      have hnames : ∀ other ∈ node.fields, other.ptr ≠ grandchild.ptr := by
        intro other ho heq
        have hlen := congrArg List.length heq
        obtain ⟨i, hi⟩ := hp.child_ptr ho
        obtain ⟨j, hj⟩ := hplaced.child_ptr hg
        simp only [hi, hj, List.length_append, List.length_singleton] at hlen
        omega
      have hptr : below.ptr ≠ node.ptr := fun heq => by rw [heq] at hdeep; omega
      rw [hnew _ hnames]
      simp only [List.mem_cons, hptr, false_or]
      exact hchildren child n' hchild below k hbelow grandchild hg
    · intro q hq
      have hne : q ≠ node.ptr := fun heq => hq (heq ▸ List.prefix_rfl)
      simp only [List.mem_cons, hne, false_or]
    · intro q hq
      refine hnew q (fun child hc heq => ?_)
      obtain ⟨i, hi⟩ := hp.child_ptr hc
      have hself : q = node.ptr := hq ⟨[i], by rw [← heq, hi]⟩
      have hlen := congrArg List.length (heq.trans hself)
      rw [hi, List.length_append, List.length_singleton] at hlen
      omega

/-- Where the names are cached, a child is looked up by the name the struct gives
    it. -/
theorem GoodAt.lookupName (h : GoodAt Γ c node n) (hcached : node.ptr ∈ c.cached)
    (hc : child ∈ node.fields) (name : String) :
    c.lookupName name child = (namesOf node (Γ.structFields n)).lookupName name child := by
  unfold NameCache.lookupName
  rw [(h child hc).1 hcached]
  rfl

end Good

/-! ## The walk follows the walk without a cache -/

section Level

variable {c c' : NameCache} {entries : List (String × MetricsSpecNode)}

theorem refTags_congr (h : Handler) (typ : List StructField) (vals : List RefVal)
    (hnames : ∀ e ∈ entries, c.lookupName e.1 e.2 = c'.lookupName e.1 e.2) :
    ∀ tags, refTags h typ vals c entries tags = refTags h typ vals c' entries tags := by
  induction entries with
  | nil => exact fun tags => rfl
  | cons e rest ih =>
      intro tags
      have hrest := ih (fun e he => hnames e (List.mem_cons_of_mem _ he))
      unfold refTags
      rw [hnames e List.mem_cons_self]
      split
      · exact hrest tags
      · exact hrest _

theorem refSensors_congr (typ : List StructField) (vals : List RefVal) (tags : List MetricsAtom)
    (timestamp : UInt64) (hnames : ∀ e ∈ entries, c.lookupName e.1 e.2 = c'.lookupName e.1 e.2) :
    refSensors typ vals c tags timestamp entries
      = refSensors typ vals c' tags timestamp entries := by
  induction entries with
  | nil => rfl
  | cons e rest ih =>
      have hrest := ih (fun e he => hnames e (List.mem_cons_of_mem _ he))
      unfold refSensors
      rw [hnames e List.mem_cons_self, hrest]

end Level

section Follows

variable (Γ : TypeDecls τ)

/-- From the cache `c`, a walk below a node has done what it would have done
    without a cache: it made the same calls, left the cache good, and touched it
    below the node only. -/
structure Agrees (r : List MetricEvent × NameCache) (uncached : List MetricEvent × Nat)
    (t : Option τ) (node : MetricsSpecNode) (c : NameCache) : Prop where
  calls : r.1 = uncached.1
  ranges : r.2.ranges = uncached.2
  good : ∀ n, t = some n → Good Γ r.2 node n
  touches : Touches node.ptr c r.2

/-- A walk of values of this type agrees with the one without a cache, from any
    good cache. -/
def Follows (walk : Walk) (uncached : UncachedWalk) (t : Option τ) : Prop :=
  ∀ node timestamp tags c, Placed node → (∀ n, t = some n → Good Γ c node n) →
    Agrees Γ (walk node timestamp tags c) (uncached node timestamp tags c.ranges) t node c

/-- The walks of the fields of a struct. -/
def AllFollow : List Walk → List UncachedWalk → List (GoType τ) → Prop
  | [], [], [] => True
  | w :: ws, u :: us, t :: ts => Follows Γ w u (containerType t) ∧ AllFollow ws us ts
  | _, _, _ => False

variable {Γ}

theorem agrees_refl {t : Option τ} {node : MetricsSpecNode} {c : NameCache}
    (hgood : ∀ n, t = some n → Good Γ c node n) : Agrees Γ ([], c) ([], c.ranges) t node c :=
  ⟨rfl, rfl, hgood, .refl node.ptr c⟩

theorem Agrees.seq {r r' : List MetricEvent × NameCache} {q q' : List MetricEvent × Nat}
    {t : Option τ} {node : MetricsSpecNode} {c : NameCache} (h : Agrees Γ r q t node c)
    (h' : Agrees Γ r' q' t node r.2) : Agrees Γ (r.1 ++ r'.1, r'.2) (q.1 ++ q'.1, q'.2) t node c :=
  ⟨by rw [h.calls, h'.calls], h'.ranges, h'.good, h.touches.trans h'.touches⟩

/-- What was done below a child was done below its parent. -/
theorem Agrees.of_child {r : List MetricEvent × NameCache} {q : List MetricEvent × Nat}
    {t : Option τ} {node child : MetricsSpecNode} {n : τ} {c : NameCache}
    (h : Agrees Γ r q t child c) (hp : Placed node) (hc : child ∈ node.fields)
    (hgood : Good Γ c node n) (ht : ∀ n', ChildType Γ node n child n' → t = some n') :
    Agrees Γ r q (some n) node c := by
  refine ⟨h.calls, h.ranges, ?_, ?_⟩
  · intro _ hn
    cases hn
    exact hgood.of_child hp hc h.touches (fun n' hchild => h.good n' (ht n' hchild))
  · obtain ⟨i, hi⟩ := hp.child_ptr hc
    exact h.touches.above ⟨[i], hi.symm⟩

theorem follows_none (t : Option τ) : Follows Γ noWalk uncachedNone t :=
  fun _ _ _ _ _ hgood => agrees_refl hgood

/-- What is at a place in the walks. -/
theorem AllFollow.at {ws : List Walk} {us : List UncachedWalk} {ts : List (GoType τ)}
    (h : AllFollow Γ ws us ts) : ∀ i : Nat,
      (ws[i]? = none ∧ us[i]? = none) ∨ ∃ w u t, ws[i]? = some w ∧ us[i]? = some u ∧
        ts[i]? = some t ∧ Follows Γ w u (containerType t) := by
  induction ws generalizing us ts with
  | nil =>
      cases us with
      | nil => exact fun i => Or.inl ⟨rfl, rfl⟩
      | cons u us => cases h
  | cons w ws ih =>
      cases us with
      | nil => cases h
      | cons u us =>
          cases ts with
          | nil => cases h
          | cons t ts =>
              intro i
              cases i with
              | zero => exact Or.inr ⟨w, u, t, rfl, rfl, rfl, h.1⟩
              | succ i => exact ih h.2 i

section Struct

variable {node : MetricsSpecNode} {n : τ} {walks : List Walk} {us : List UncachedWalk}

/-- The loop over the containers of a level, once the names are cached. -/
theorem agrees_containers (hp : Placed node) (hall : AllFollow Γ walks us (Γ.fieldTypes n))
    (tags : List MetricsAtom) (timestamp : UInt64) :
    ∀ {entries : List (String × MetricsSpecNode)},
      (∀ e ∈ entries, e ∈ node.fieldsMapByType .container) →
      ∀ {c : NameCache}, Good Γ c node n → node.ptr ∈ c.cached →
        Agrees Γ (refContainers (Γ.structFields n) walks tags timestamp entries c)
          (uncachedContainers (namesOf node (Γ.structFields n)) (Γ.structFields n) us tags
            timestamp entries c.ranges) (some n) node c := by
  intro entries
  induction entries with
  | nil =>
      intro _ c hgood _
      exact agrees_refl (fun _ h => Option.some.inj h ▸ hgood)
  | cons e rest ih =>
      intro hmem c hgood hcached
      have hrest : ∀ e ∈ rest, e ∈ node.fieldsMapByType .container :=
        fun e he => hmem e (List.mem_cons_of_mem _ he)
      have he : (e.1, e.2) ∈ node.fieldsMapByType .container := hmem e List.mem_cons_self
      have hc : e.2 ∈ node.fields := (mem_fields_of_mem_map he).1
      have hname := (good_iff.mp hgood).1.lookupName hcached hc e.1
      unfold refContainers uncachedContainers
      rw [hname]
      cases hindex : fieldIndex (Γ.structFields n)
          ((namesOf node (Γ.structFields n)).lookupName e.1 e.2) with
      | none => exact ih hrest hgood hcached
      | some i =>
          rcases hall.at i with ⟨hw, hu⟩ | ⟨w, u, t, hw, hu, ht, hfollows⟩
          · simp only [Option.bind_some, hw, hu]
            exact ih hrest hgood hcached
          · simp only [Option.bind_some, hw, hu]
            have htype : ∀ n', ChildType Γ node n e.2 n' ↔ containerType t = some n' :=
              fun n' => childType_iff he hindex ht
            have hwalk := hfollows e.2 timestamp tags c (hp.of_child hc)
              (fun n' hn' => (good_iff.mp hgood).2 e.2 n' ((htype n').mpr hn'))
            have hbelow := hwalk.of_child hp hc hgood (fun n' => (htype n').mp)
            have hothers := ih hrest (hbelow.good n rfl)
              ((hwalk.touches.cached node.ptr (hp.not_prefix hc)).mpr hcached)
            rw [hwalk.ranges] at hothers
            exact hbelow.seq hothers

/-- **A STRUCT**: one level of the walk. -/
theorem follows_struct (h : Handler) (order : RangeOrder) (vals : List RefVal)
    (hall : AllFollow Γ walks us (Γ.fieldTypes n)) :
    Follows Γ (structWalk h order (Γ.structFields n) vals walks)
      (uncachedStruct h order (Γ.structFields n) vals us) (some n) := by
  intro node timestamp tags c hp hgood
  obtain ⟨hgood', htouches, hcached, hranges⟩ := good_cacheInternalNames (hgood n rfl) hp
  have hnames : ∀ (ty : NodeType) (k : Nat), ∀ e ∈ order.visit k (node.fieldsMapByType ty),
      (cacheInternalNames node (Γ.structFields n) c).lookupName e.1 e.2 =
        (namesOf node (Γ.structFields n)).lookupName e.1 e.2 := by
    intro ty k e he
    have hmem : (e.1, e.2) ∈ node.fieldsMapByType ty := (order.perm k _).mem_iff.mp he
    exact (good_iff.mp hgood').1.lookupName hcached (mem_fields_of_mem_map hmem).1 e.1
  unfold structWalk uncachedStruct
  simp only [refTags_congr h _ vals (hnames .tag _), refSensors_congr _ vals _ _ (hnames .sensor _),
    hranges]
  -- what is good or touched does not depend on the counter
  have hcount : Touches node.ptr c
      { cacheInternalNames node (Γ.structFields n) c with ranges := c.ranges + 3 } :=
    ⟨htouches.cached, htouches.names⟩
  have hbelow := fun tags => agrees_containers hp hall tags timestamp
    (fun e he => (order.perm (c.ranges + 2) (node.fieldsMapByType .container)).mem_iff.mp he)
    (c := { cacheInternalNames node (Γ.structFields n) c with ranges := c.ranges + 3 })
    hgood' hcached
  exact ⟨congrArg _ (hbelow _).calls, (hbelow _).ranges, (hbelow _).good,
    hcount.trans (hbelow _).touches⟩

end Struct

mutual

/-- **THE WALK FOLLOWS THE WALK WITHOUT A CACHE**, by recursion on the value. -/
theorem follows_forNode (h : Handler) (order : RangeOrder) : ∀ {v : RefVal} {t : GoType τ},
    HasType Γ v t → Follows Γ (produceGPBMetricsForNode h order v) (uncachedForNode h order v)
      (structType t)
  | .struct typ vals, .struct n, ⟨htyp, hvals⟩ => by
      subst htyp
      exact follows_struct h order vals (follows_walks h order hvals)
  | .scalar _, _, _ => follows_none _
  | .nilPtr, _, _ => follows_none _
  | .ptr _, _, _ => follows_none _
  | .slice _, _, _ => follows_none _

theorem follows_container (h : Handler) (order : RangeOrder) : ∀ {v : RefVal} {t : GoType τ},
    HasType Γ v t → Follows Γ (containerWalk h order v) (uncachedContainer h order v)
      (containerType t)
  | .ptr _, .ptr _, hv => follows_forNode h order hv
  | .struct typ vals, .struct n, ⟨htyp, hvals⟩ => by
      subst htyp
      exact follows_struct h order vals (follows_walks h order hvals)
  | .slice _, .slice _, hvs => follows_slice h order hvs
  | .scalar _, _, _ => follows_none _
  | .nilPtr, _, _ => follows_none _

theorem follows_element (h : Handler) (order : RangeOrder) : ∀ {v : RefVal} {t : GoType τ},
    HasType Γ v t → Follows Γ (elementWalk h order v) (uncachedElement h order v)
      (elementType t)
  | .ptr _, .ptr _, hv => follows_forNode h order hv
  | .struct typ vals, .struct n, ⟨htyp, hvals⟩ => by
      subst htyp
      exact follows_struct h order vals (follows_walks h order hvals)
  | .slice _, _, _ => follows_none _
  | .scalar _, _, _ => follows_none _
  | .nilPtr, _, _ => follows_none _

theorem follows_slice (h : Handler) (order : RangeOrder) : ∀ {vs : List RefVal} {t : GoType τ},
    AllHaveType Γ vs t → Follows Γ (sliceWalk h order vs) (uncachedSlice h order vs)
      (elementType t)
  | [], _, _ => follows_none _
  | _ :: _, _, ⟨hv, hvs⟩ => by
      intro node timestamp tags c hp hgood
      have hfirst := follows_element h order hv node timestamp tags c hp hgood
      have hothers := follows_slice h order hvs node timestamp tags _ hp hfirst.good
      rw [hfirst.ranges] at hothers
      exact hfirst.seq hothers

theorem follows_walks (h : Handler) (order : RangeOrder) : ∀ {vs : List RefVal}
    {ts : List (GoType τ)}, HaveTypes Γ vs ts →
      AllFollow Γ (containerWalks h order vs) (uncachedWalks h order vs) ts
  | [], [], _ => trivial
  | _ :: _, _ :: _, ⟨hv, hvs⟩ => ⟨follows_container h order hv, follows_walks h order hvs⟩

end

end Follows

/-! ## A specification that was built -/

mutual

theorem placed_subtree {h : Handler} {sym : String} : ∀ (raw : SpecNode) {ptr : List Nat}
    {path : String} {node : MetricsSpecNode},
    buildSpecDBSubtree h sym raw ptr path = .ok node → node.ptr = ptr ∧ Placed node
  | .null, _, _, _, hb => by cases hb
  | .node name tag track fields, ptr, path, node, hb => by
      have hleaf : ∀ ty fq, Placed (.mk ptr name track ty fq []) :=
        fun ty fq => .mk (by simp) List.nodup_nil (by simp)
      unfold buildSpecDBSubtree at hb
      simp only at hb
      split at hb
      · split at hb
        · cases hb
        · cases hb
          exact ⟨rfl, hleaf _ _⟩
      · split at hb
        · split at hb
          · cases hb
          · next children hchildren =>
              cases hb
              obtain ⟨hptrs, hplaced⟩ := placed_fields fields hchildren
              refine ⟨rfl, .mk ?_ ?_ hplaced⟩
              · intro child hc
                have hptr := List.mem_map_of_mem (f := MetricsSpecNode.ptr) hc
                rw [hptrs] at hptr
                obtain ⟨j, -, hj⟩ := List.mem_map.mp hptr
                exact ⟨j, hj.symm⟩
              · rw [hptrs]
                refine List.Nodup.map ?_ List.nodup_range'
                intro j j' heq
                exact List.singleton_inj.mp (List.append_cancel_left heq)
        · cases hb
          exact ⟨rfl, hleaf _ _⟩

/-- The children are placed one after another. -/
theorem placed_fields {h : Handler} {sym : String} : ∀ (fields : List SpecNode)
    {ptr : List Nat} {path : String} {i : Nat} {cs : List MetricsSpecNode},
    buildSpecDBFields h sym fields ptr path i = .ok cs →
      cs.map MetricsSpecNode.ptr = (List.range' i cs.length).map (fun j => ptr ++ [j]) ∧
        ∀ c ∈ cs, Placed c
  | [], _, _, _, _, hb => by
      cases hb
      exact ⟨rfl, by simp⟩
  | child :: rest, ptr, path, i, cs, hb => by
      unfold buildSpecDBFields at hb
      split at hb
      · cases hb
      · next c hc =>
          split at hb
          · cases hb
          · next cs' hcs =>
              cases hb
              obtain ⟨hptr, hplaced⟩ := placed_subtree child hc
              obtain ⟨hptrs, hall⟩ := placed_fields rest hcs
              refine ⟨?_, ?_⟩
              · rw [List.map_cons, List.length_cons, List.range'_succ, List.map_cons, hptr, hptrs]
              · intro c' hc'
                rcases List.mem_cons.mp hc' with rfl | hc'
                · exact hplaced
                · exact hall c' hc'

end

/-- The roots of a database: each is placed, and one base path has it. -/
structure Rooted (db : List (String × MetricsSpecNode)) (i : Nat) : Prop where
  placed : ∀ {path root}, GoMap.get db path = some root → Placed root ∧ ∃ j < i, root.ptr = [j]
  apart : ∀ {path path' root root'}, GoMap.get db path = some root →
    GoMap.get db path' = some root' → root.ptr = root'.ptr → path = path'

theorem Rooted.set {db : List (String × MetricsSpecNode)} {i : Nat} (h : Rooted db i)
    {root : MetricsSpecNode} (hptr : root.ptr = [i]) (hplaced : Placed root) (path : String) :
    Rooted (GoMap.set db path root) (i + 1) := by
  -- a root that was there has an earlier place
  have hearlier : ∀ {path' root'}, GoMap.get db path' = some root' → root'.ptr ≠ root.ptr := by
    intro path' root' hget heq
    obtain ⟨j, hj, hptr'⟩ := (h.placed hget).2
    rw [hptr, hptr'] at heq
    exact Nat.ne_of_lt hj (List.singleton_inj.mp heq)
  refine ⟨?_, ?_⟩
  · intro path' root' hget
    by_cases hpath : path' = path
    · rw [hpath, GoMap.get_set_self] at hget
      cases hget
      exact ⟨hplaced, i, Nat.lt_succ_self i, hptr⟩
    · rw [GoMap.get_set_ne _ _ hpath] at hget
      obtain ⟨hplaced', j, hj, hptr'⟩ := h.placed hget
      exact ⟨hplaced', j, Nat.lt_succ_of_lt hj, hptr'⟩
  · intro path₁ path₂ root₁ root₂ hget₁ hget₂ heq
    by_cases hpath₁ : path₁ = path
    · by_cases hpath₂ : path₂ = path
      · rw [hpath₁, hpath₂]
      · rw [hpath₁, GoMap.get_set_self] at hget₁
        rw [GoMap.get_set_ne _ _ hpath₂] at hget₂
        cases hget₁
        exact absurd heq.symm (hearlier hget₂)
    · rw [GoMap.get_set_ne _ _ hpath₁] at hget₁
      by_cases hpath₂ : path₂ = path
      · rw [hpath₂, GoMap.get_set_self] at hget₂
        cases hget₂
        exact absurd heq (hearlier hget₁)
      · rw [GoMap.get_set_ne _ _ hpath₂] at hget₂
        exact h.apart hget₁ hget₂ heq

theorem rooted_loop {h : Handler} : ∀ (specSet : List (String × SpecNode)) {i : Nat}
    {db db' : List (String × MetricsSpecNode)}, Rooted db i →
    buildSpecDBLoop h specSet i db = .ok db' → ∃ j, Rooted db' j := by
  intro specSet
  induction specSet with
  | nil =>
      intro i db db' hdb hb
      cases hb
      exact ⟨i, hdb⟩
  | cons entry rest ih =>
      intro i db db' hdb hb
      unfold buildSpecDBLoop at hb
      split at hb
      · cases hb
      · next root hroot =>
          obtain ⟨hptr, hplaced⟩ := placed_subtree entry.2 hroot
          exact ih (hdb.set hptr hplaced entry.1) hb

/-- **A DATABASE THAT WAS BUILT** has its roots apart. -/
theorem rooted_buildSpecDB {h : Handler} {specSet : List (String × SpecNode)}
    {db : List (String × MetricsSpecNode)} (hb : buildSpecDB h specSet = .ok db) :
    ∃ j, Rooted db j := by
  refine rooted_loop specSet (i := 0) ⟨?_, ?_⟩ hb
  · intro path root hget
    cases hget
  · intro path path' root root' hget
    cases hget

end PipelineNameCache
