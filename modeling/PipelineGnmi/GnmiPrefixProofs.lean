import PipelineGnmi.GnmiClientProofs

/-! # The prefix of a notification is a factoring

    A gNMI target may put any leading part of a path into the prefix of the
    notification.  `produceMetrics` (`codec_gnmi.go`) runs one loop over the
    elements of the prefix and another over those of the path, and the second
    leaves out the separator after its last element.

    As long as the path of the update is not empty, the last element is its
    last, and the two loops together do what the second alone does on the whole
    list (`updateElems_append`).  So where the prefix ends makes no difference
    to the metric; only the `EncodingPath` tag tells. -/

namespace PipelineGnmiPrefix

open PipelineMessage PipelineDataMsg PipelineMetricsSpec PipelineTagCoherence
open PipelineGnmiClient (updateElems_path)

/-- **TWO LOOPS ARE ONE**: the prefix and a path that is not empty, as one
    path. -/
theorem updateElems_append {post : List GnmiPathElem} (hpost : post ≠ []) :
    ∀ (pre : List GnmiPathElem) (path : String) (tags : List MetricsAtom),
      updateElems (pre ++ post) path tags
        = updateElems post (prefixElems pre path tags).1 (prefixElems pre path tags).2 := by
  intro pre
  induction pre with
  | nil => intro path tags; rfl
  | cons e rest ih =>
      intro path tags
      -- something follows every element of the prefix, so it gets its slash
      have hlen : (rest ++ post).length > 0 := by
        have := List.length_pos_iff.mpr hpost
        rw [List.length_append]
        omega
      rw [List.cons_append, updateElems, prefixElems]
      simp only [if_pos hlen]
      exact ih _ _

/-- Tags that were there before are left in front. -/
theorem updateElems_tags_append (front : List MetricsAtom) :
    ∀ (elems : List GnmiPathElem) (path : String) (tags : List MetricsAtom),
      (updateElems elems path (front ++ tags)).2
        = front ++ (updateElems elems path tags).2 := by
  intro elems
  induction elems with
  | nil => intro path tags; rfl
  | cons e rest ih =>
      intro path tags
      simp only [updateElems]
      rw [List.append_assoc, ih]

/-! ## Any order of the keys -/

/-- An element as two iterations over its keys show it. -/
structure SameElem (a b : GnmiPathElem) : Prop where
  name : a.name = b.name
  key : a.key.Perm b.key

/-- The order of the keys moves the tags and leaves the path. -/
theorem updateElems_reorder {as bs : List GnmiPathElem} (h : List.Forall₂ SameElem as bs) :
    ∀ (path : String) (tags tags' : List MetricsAtom), tags.Perm tags' →
      (updateElems as path tags).1 = (updateElems bs path tags').1 ∧
        (updateElems as path tags).2.Perm (updateElems bs path tags').2 := by
  induction h with
  | nil => intro path tags tags' hp; exact ⟨rfl, hp⟩
  | @cons a b as bs hab hrest ih =>
      intro path tags tags' hp
      have hlen : as.length = bs.length := hrest.length_eq
      simp only [updateElems, hab.name, hlen]
      exact ih _ _ _ (hp.append (hab.key.map _))

/-! ## The factoring -/

/-- The message of one update of `elems`, some leading part of which is its
    prefix and the rest of which, not empty, is its path; the keys of each
    element come in any order.  The origin and the target of the path itself
    are whatever the target sent. -/
structure Factors (source : MsgProducer) (target origin : String) (ts : Int64)
    (elems : List GnmiPathElem) (v : GnmiTypedValue) (m : DataMsgGNMI) : Prop where
  source_eq : m.source = source
  timestamp_eq : m.notification.timestamp = ts
  split : ∃ pre post porigin ptarget, post ≠ [] ∧
    List.Forall₂ SameElem elems (pre ++ post) ∧
    m.notification.pfx = some ⟨origin, pre, target⟩ ∧
    m.notification.update = [⟨some ⟨porigin, post, ptarget⟩, some v⟩]

/-- What the builders start from, whatever the prefix. -/
def startPath (origin : String) : String := if origin ≠ "" then origin ++ ":" else "/"

def startTags (source : MsgProducer) (target : String) : List MetricsAtom :=
  [⟨"Producer", .scalar (.string source)⟩, ⟨"Target", .scalar (.string target)⟩]

/-- The calls made for a factored message are those for the whole list as the
    path, up to the `EncodingPath` and the order of the keys. -/
theorem produceMetrics_factored {source : MsgProducer} {target origin : String}
    {ts : Int64} {elems : List GnmiPathElem} {v : GnmiTypedValue} {val : AtomVal}
    {m : DataMsgGNMI} (hv : gnmiValue v = some val)
    (hm : Factors source target origin ts elems v m) :
    ∃ encodingPath tags flushed,
      produceMetricsGNMI m =
        ([.buildMetric (⟨"EncodingPath", encodingPath⟩ :: tags)
            ⟨(updateElems elems (startPath origin) (startTags source target)).1, val⟩
            (ts / 1000000).toUInt64,
          .flushMetric flushed (ts / 1000000).toUInt64], none) ∧
      tags.Perm (updateElems elems (startPath origin) (startTags source target)).2 := by
  obtain ⟨pre, post, porigin, ptarget, hpost, hsame, hpfx, hupdate⟩ := hm.split
  let common := prefixElems pre (startPath origin) (startTags source target)
  have hwhole : updateElems (pre ++ post) (startPath origin) (startTags source target)
      = updateElems post common.1 common.2 := updateElems_append hpost pre _ _
  obtain ⟨hpath, htags⟩ :=
    updateElems_reorder hsame (startPath origin) _ _ (List.Perm.refl (startTags source target))
  rw [hwhole] at hpath htags
  -- the tag of the prefix stands in front and leaves the rest alone
  let encoding : MetricsAtom :=
    ⟨"EncodingPath", .scalar (.string (String.ofList common.1.toList.dropLast))⟩
  have hprefix : prefixTags source ⟨origin, pre, target⟩ = (common.1, encoding :: common.2) :=
    rfl
  have hfront : (updateElems post common.1 (encoding :: common.2)).2
      = encoding :: (updateElems post common.1 common.2).2 :=
    updateElems_tags_append [encoding] post common.1 common.2
  have hsensor : (updateElems post common.1 (encoding :: common.2)).1
      = (updateElems elems (startPath origin) (startTags source target)).1 :=
    ((updateElems_path _ _ _).trans (updateElems_path _ _ _).symm).trans hpath.symm
  refine ⟨encoding.val, (updateElems post common.1 common.2).2, encoding :: common.2, ?_,
    htags.symm⟩
  simp only [produceMetricsGNMI, hpfx, hupdate, hm.source_eq, hm.timestamp_eq, hprefix]
  rw [produceUpdates_cons rfl rfl, hv]
  simp only [produceUpdates, hfront, hsensor]
  rfl

/-- **WHERE THE PREFIX ENDS MAKES NO DIFFERENCE**: two factorings of one update
    build one metric, under the same sensor, with the same value and timestamp
    and the same tags but for the `EncodingPath`. -/
theorem prefix_is_factoring {source : MsgProducer} {target origin : String} {ts : Int64}
    {elems : List GnmiPathElem} {v : GnmiTypedValue} {val : AtomVal}
    {m₁ m₂ : DataMsgGNMI} (hv : gnmiValue v = some val)
    (h₁ : Factors source target origin ts elems v m₁)
    (h₂ : Factors source target origin ts elems v m₂) :
    ∃ sensor encodingPath₁ encodingPath₂ tags₁ tags₂ flushed₁ flushed₂,
      produceMetricsGNMI m₁ =
        ([.buildMetric (⟨"EncodingPath", encodingPath₁⟩ :: tags₁) ⟨sensor, val⟩
            (ts / 1000000).toUInt64,
          .flushMetric flushed₁ (ts / 1000000).toUInt64], none) ∧
      produceMetricsGNMI m₂ =
        ([.buildMetric (⟨"EncodingPath", encodingPath₂⟩ :: tags₂) ⟨sensor, val⟩
            (ts / 1000000).toUInt64,
          .flushMetric flushed₂ (ts / 1000000).toUInt64], none) ∧
      tags₁.Perm tags₂ := by
  obtain ⟨enc₁, tags₁, flushed₁, hcalls₁, hperm₁⟩ := produceMetrics_factored hv h₁
  obtain ⟨enc₂, tags₂, flushed₂, hcalls₂, hperm₂⟩ := produceMetrics_factored hv h₂
  exact ⟨_, enc₁, enc₂, tags₁, tags₂, flushed₁, flushed₂, hcalls₁, hcalls₂,
    hperm₁.trans hperm₂.symm⟩

/-- One interface counter, its interface in the prefix or in the path; the two
    keys of the interface come in either order. -/
def inPrefix : DataMsgGNMI :=
  ⟨[], "r1", ⟨1000000, some ⟨"openconfig", [⟨"interface", [("name", "eth0"), ("unit", "1")]⟩], "t"⟩,
    [⟨some ⟨"", [⟨"mtu", []⟩], ""⟩, some (.uintVal 1500)⟩]⟩, false⟩

def inPath : DataMsgGNMI :=
  ⟨[], "r1", ⟨1000000, some ⟨"openconfig", [], "t"⟩,
    [⟨some ⟨"", [⟨"interface", [("unit", "1"), ("name", "eth0")]⟩, ⟨"mtu", []⟩], ""⟩,
      some (.uintVal 1500)⟩]⟩, false⟩

theorem prefix_is_factoring_mtu :
    ∃ sensor encodingPath₁ encodingPath₂ tags₁ tags₂ flushed₁ flushed₂,
      produceMetricsGNMI inPrefix =
        ([.buildMetric (⟨"EncodingPath", encodingPath₁⟩ :: tags₁)
            ⟨sensor, .scalar (.uint64 1500)⟩ ((1000000 : Int64) / 1000000).toUInt64,
          .flushMetric flushed₁ ((1000000 : Int64) / 1000000).toUInt64], none) ∧
      produceMetricsGNMI inPath =
        ([.buildMetric (⟨"EncodingPath", encodingPath₂⟩ :: tags₂)
            ⟨sensor, .scalar (.uint64 1500)⟩ ((1000000 : Int64) / 1000000).toUInt64,
          .flushMetric flushed₂ ((1000000 : Int64) / 1000000).toUInt64], none) ∧
      tags₁.Perm tags₂ := by
  let elems : List GnmiPathElem :=
    [⟨"interface", [("name", "eth0"), ("unit", "1")]⟩, ⟨"mtu", []⟩]
  have hmtu : SameElem ⟨"mtu", []⟩ ⟨"mtu", []⟩ := ⟨rfl, List.Perm.refl _⟩
  have h₁ : Factors "r1" "t" "openconfig" 1000000 elems (.uintVal 1500) inPrefix :=
    ⟨rfl, rfl, [⟨"interface", [("name", "eth0"), ("unit", "1")]⟩], [⟨"mtu", []⟩], "", "",
      List.cons_ne_nil _ _,
      .cons ⟨rfl, List.Perm.refl _⟩ (.cons hmtu .nil), rfl, rfl⟩
  have h₂ : Factors "r1" "t" "openconfig" 1000000 elems (.uintVal 1500) inPath :=
    ⟨rfl, rfl, [], [⟨"interface", [("unit", "1"), ("name", "eth0")]⟩, ⟨"mtu", []⟩], "", "",
      List.cons_ne_nil _ _,
      .cons ⟨rfl, List.Perm.swap _ _ _⟩ (.cons hmtu .nil), rfl, rfl⟩
  exact prefix_is_factoring rfl h₁ h₂

end PipelineGnmiPrefix
