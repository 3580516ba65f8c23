import PipelineGnmi.CompactProofs
import PipelineGnmi.JsonpbProofs
import PipelineGnmi.TagCoherenceProofs

/-! # A notification in the gNMI client

    What `gnmiClient.loop` (`xport_gnmi.go`) does with one update of the
    subscription: it writes the target into the prefix, drops the updates the
    selectors do not name, and hands the rest to the codec.  The outputs then
    ask the message for metrics, for its meta data or for a byte stream.

    Prefix, path and value are pointers, and all of them optional on the wire.
    `survives_iff` says exactly which notifications are handled without
    following a nil one.

    The selectors are compared with the prefix and the path rendered apart and
    put together, while the sensors are named by one builder that runs over
    both.  `selectorKey_eq_sensorKey_iff` says when the two names are the same
    one. -/

namespace PipelineGnmiClient

open PipelineMessage PipelineDataMsg PipelineMetricsSpec PipelineGpbKvMetrics
open PipelineTagCoherence PipelineJsonpb

/-! ## The handling of one notification -/

/-- `gnmiClient`, the fields the handling of a notification reads. -/
structure GnmiClient where
  name : String
  server : String
  selectors : List String
  jsonUInt64Compat : Bool

variable {p : GnmiPath} (source : MsgProducer) (marshal : GnmiNotification → Except GoError Octets)
  (pfx path : GnmiPath)

/-- The name an update is looked up by. -/
def selectorKey (pfx path : GnmiPath) : String :=
  decodeGNMIPath pfx ++ decodeGNMIPath path

/-- The lookup of one update; its path is followed without a test. -/
def selected (client : GnmiClient) (pfx : GnmiPath) (update : GnmiUpdate) : Except Failure Bool :=
  match update.path with
  | none => .error .nilPointer
  | some path => .ok (decide (selectorKey pfx path ∈ client.selectors))

/-- The prefilter, which compacts the updates in place. -/
def prefilter (client : GnmiClient) (pfx : GnmiPath) (n : GnmiNotification) :
    Except Failure GnmiNotification :=
  if client.selectors.length > 0 then do
    let update ← Compact.compact (selected client pfx) n.update
    pure { n with update := update }
  else pure n

/-- `codecGNMI.notificationToDataMsgs`; `marshal` is `proto.Marshal`. -/
def notificationToDataMsgs (client : GnmiClient) (n : GnmiNotification) :
    Except Failure (List DataMsg) :=
  match marshal n with
  | .error err => .error (.error err)
  | .ok block => .ok [.gnmi ⟨block, client.server, n, client.jsonUInt64Compat⟩]

/-- The update case of `gnmiClient.loop`, up to the messages it pushes.  An
    error ends the loop, a panic the process. -/
def handleUpdate (client : GnmiClient) (n : GnmiNotification) : Except Failure (List DataMsg) :=
  match n.pfx with
  | none => .error .nilPointer
  | some p => do
      -- work around XR not honoring the target field
      let pfx := { p with target := client.name }
      let n ← prefilter client pfx { n with pfx := some pfx }
      notificationToDataMsgs marshal client n

/-- `dataMsgMetaData`. -/
structure DataMsgMetaData where
  path : String
  identifier : String
  deriving DecidableEq

/-- `dataMsgGNMI.getMetaData`. -/
def getMetaData (m : DataMsgGNMI) : Except Failure DataMsgMetaData :=
  match getMetaDataPath (.gnmi m) with
  | none => .error .nilPointer
  | some (.ok path) => .ok ⟨path, m.source⟩
  | some (.error _) => .ok ⟨"", m.source⟩

/-- `dataMsgGNMI.produceByteStream`; `reflect` shows the marshaller the fields
    of the notification. -/
def produceByteStream (reflect : GnmiNotification → List Field)
    (spec : DataMsgStreamSpec) (m : DataMsgGNMI) : Except Failure (Option Octets) :=
  match spec.streamType with
  | .msgDefault | .gpb => .ok (some m.original)
  | .json => do
      let json ← marshalToString ⟨m.jsonUInt64Compat, false⟩ (reflect m.notification)
      pure (some json.toUTF8.toList)
  | t => .error (.error ("gnmi codec: reformat msg to ["
      ++ dataMsgStreamTypeString t ++ "] is not supported"))

/-! ## Nil pointers -/

/-- The three things an output may ask of a message, none of which follows a
    nil pointer. -/
structure Consumable (m : DataMsgGNMI) : Prop where
  metrics : ∀ text, (produceMetricsGNMI m).2 ≠ some (.panic text)
  metaData : NoPanic (getMetaData m)
  byteStream : ∀ reflect spec, NoPanic (produceByteStream reflect spec m)

/-- The notification is handled, and its message consumed, without following a
    nil pointer. -/
def Survives (client : GnmiClient) (n : GnmiNotification) : Prop :=
  NoPanic (handleUpdate marshal client n) ∧
    ∀ dMs, handleUpdate marshal client n = .ok dMs →
      ∀ dM ∈ dMs, ∃ m, dM = .gnmi m ∧ Consumable m

/-- The updates a client asks for: all of them, if it has no selectors. -/
def Wanted (client : GnmiClient) (pfx path : GnmiPath) : Prop :=
  client.selectors = [] ∨ selectorKey pfx path ∈ client.selectors

/-- A notification with a prefix, whose updates have a path, and a value where
    the client asks for it. -/
def WellShaped (client : GnmiClient) (n : GnmiNotification) : Prop :=
  ∃ p, n.pfx = some p ∧ ∀ u ∈ n.update, ∃ path, u.path = some path ∧
    (Wanted client p path → u.val.isSome)

/-- Rendering never follows a pointer of the message. -/
theorem produceByteStream_noPanic (reflect : GnmiNotification → List Field)
    (spec : DataMsgStreamSpec) (m : DataMsgGNMI) : NoPanic (produceByteStream reflect spec m) := by
  unfold produceByteStream
  split
  · exact noPanic_ok _
  · exact noPanic_ok _
  · exact (marshalValue_noPanic _ _).bind (fun _ => noPanic_ok _)
  · intro text h
    cases h

variable {m : DataMsgGNMI} {client : GnmiClient} {n : GnmiNotification} (u : GnmiPath)

/-- The meta data need the prefix only. -/
theorem getMetaData_noPanic (hp : m.notification.pfx = some p) : NoPanic (getMetaData m) := by
  simp only [getMetaData, getMetaDataPath, hp]
  exact noPanic_ok _

/-- The only way the updates fail. -/
theorem produceUpdates_failure (path : String) (tags : List MetricsAtom)
    (ts : UInt64) : ∀ updates : List GnmiUpdate,
      (produceUpdates path tags ts updates).2 = none ∨
        (produceUpdates path tags ts updates).2 = some .nilPointer := by
  intro updates
  induction updates with
  | nil => exact Or.inl rfl
  | cons u rest ih =>
      cases hp : u.path with
      | none =>
          right
          simp only [produceUpdates, hp]
      | some p =>
          cases hv : u.val with
          | none =>
              right
              simp only [produceUpdates, hp, hv]
          | some v =>
              rw [produceUpdates_cons hp hv]
              cases gnmiValue v with
              | none => exact ih
              | some val => exact ih

/-- A message with a prefix is consumed safely exactly when its updates are
    complete. -/
theorem consumable_iff (hp : m.notification.pfx = some p) :
    Consumable m ↔ Complete m.notification.update := by
  let path := (prefixTags m.source p).1
  let tags := (prefixTags m.source p).2
  let ts := (m.notification.timestamp / 1000000).toUInt64
  have hfailed := produceUpdates_failed path tags ts m.notification.update
  have hmetrics : (produceMetricsGNMI m).2
      = (produceUpdates path tags ts m.notification.update).2 := by
    simp only [produceMetricsGNMI, hp]
    split
    · next failure hf => exact hf.symm
    · next hf => exact hf.symm
  constructor
  · intro hm
    rw [← hfailed]
    rcases produceUpdates_failure path tags ts m.notification.update with h | h
    · exact h
    · exact absurd (hmetrics.trans h) (hm.metrics _)
  · intro hcomplete
    refine ⟨?_, getMetaData_noPanic hp, fun reflect spec => produceByteStream_noPanic _ _ _⟩
    intro text
    rw [hmetrics, hfailed.mpr hcomplete]
    exact (Option.some_ne_none _).symm

/-- Where the lookup fails, and what it decides elsewhere. -/
theorem selected_eq (client : GnmiClient) (pfx : GnmiPath) {u : GnmiUpdate}
    {path : GnmiPath} (hu : u.path = some path) :
    selected client pfx u = .ok (decide (selectorKey pfx path ∈ client.selectors)) := by
  rw [selected, hu]

theorem prefilter_all (hsel : client.selectors = []) (pfx : GnmiPath) (n : GnmiNotification) :
    prefilter client pfx n = .ok n := by
  have hlen : ¬ client.selectors.length > 0 := by
    rw [hsel]
    exact Nat.lt_irrefl 0
  rw [prefilter, if_neg hlen]
  rfl

/-- With selectors, the prefilter keeps the updates they name, or it meets an
    update without a path. -/
theorem prefilter_selectors (hsel : client.selectors ≠ []) (pfx : GnmiPath) (n : GnmiNotification) :
    ((∀ u ∈ n.update, u.path.isSome) ∧ prefilter client pfx n =
        .ok { n with update := n.update.filter (Compact.verdict (selected client pfx)) }) ∨
      ((∃ u ∈ n.update, u.path = none) ∧
        prefilter client pfx n = .error .nilPointer) := by
  rw [prefilter, if_pos (List.length_pos_iff.mpr hsel)]
  rcases Compact.compact_cases (selected client pfx) n.update with
    ⟨hall, hok⟩ | ⟨u, hu, e, he, herr⟩
  · left
    refine ⟨?_, by rw [hok]; rfl⟩
    intro u hu
    have hsome := hall u hu
    cases hpath : u.path with
    | none =>
        rw [selected, hpath] at hsome
        cases hsome
    | some path => rfl
  · right
    cases hpath : u.path with
    | none =>
        rw [selected, hpath] at he
        cases he
        exact ⟨⟨u, hu, hpath⟩, by rw [herr]; rfl⟩
    | some path =>
        rw [selected_eq client pfx hpath] at he
        cases he

/-- A notification that passes the prefilter is handled safely exactly when
    what is left of it is complete, if it can be marshalled. -/
theorem survives_prefiltered {marshal : GnmiNotification → Except GoError Octets}
    {n' : GnmiNotification} {q : GnmiPath} (hp : n.pfx = some p)
    (hpre : prefilter client { p with target := client.name }
      { n with pfx := some { p with target := client.name } } = .ok n') (hq : n'.pfx = some q) :
    Survives marshal client n ↔
      ∀ block, marshal n' = .ok block → Complete n'.update := by
  have hhandle : handleUpdate marshal client n
      = notificationToDataMsgs marshal client n' := by
    simp only [handleUpdate, hp, hpre]
    rfl
  rw [Survives, hhandle, notificationToDataMsgs]
  cases marshal n' with
  | error err =>
      refine ⟨fun _ _ h => ?_, fun _ => ⟨?_, ?_⟩⟩
      · cases h
      · intro text h
        cases h
      · intro dMs h
        cases h
  | ok block =>
      constructor
      · rintro ⟨-, hconsume⟩ _ _
        obtain ⟨m, hm, hcons⟩ := hconsume _ rfl _ (List.mem_singleton_self _)
        cases hm
        exact (consumable_iff hq).mp hcons
      · intro hcomplete
        refine ⟨noPanic_ok _, ?_⟩
        intro dMs hdMs dM hdM
        cases hdMs
        rw [List.mem_singleton] at hdM
        exact ⟨_, hdM, (consumable_iff hq).mpr (hcomplete block rfl)⟩

/-- What is left by the prefilter is complete exactly when the updates the
    selectors name have their value; all of them have their path. -/
theorem complete_filter_iff (client : GnmiClient) (pfx : GnmiPath)
    {updates : List GnmiUpdate} (hpath : ∀ u ∈ updates, u.path.isSome) :
    Complete (updates.filter (Compact.verdict (selected client pfx))) ↔
      ∀ u ∈ updates, ∃ path, u.path = some path ∧
        (selectorKey pfx path ∈ client.selectors → u.val.isSome) := by
  have hverdict : ∀ u path, u.path = some path →
      (Compact.verdict (selected client pfx) u = true ↔
        selectorKey pfx path ∈ client.selectors) := by
    intro u path hu
    rw [Compact.verdict, selected_eq client pfx hu, decide_eq_true_iff]
  constructor
  · intro hcomplete u hu
    obtain ⟨path, hup⟩ := Option.isSome_iff_exists.mp (hpath u hu)
    refine ⟨path, hup, fun hkey => ?_⟩
    exact (hcomplete u (List.mem_filter.mpr ⟨hu, (hverdict u path hup).mpr hkey⟩)).2
  · intro hvals u hu
    obtain ⟨hu, hkept⟩ := List.mem_filter.mp hu
    obtain ⟨path, hup, hval⟩ := hvals u hu
    exact ⟨hpath u hu, hval ((hverdict u path hup).mp hkept)⟩

/-- The prefilter meets an update without a path, or leaves a notification with
    the same prefix. -/
theorem prefilter_cases (client : GnmiClient) (pfx : GnmiPath) (n : GnmiNotification) :
    (∃ n', prefilter client pfx n = .ok n' ∧ n'.pfx = n.pfx) ∨
      prefilter client pfx n = .error .nilPointer := by
  by_cases hsel : client.selectors = []
  · exact Or.inl ⟨n, prefilter_all hsel pfx n, rfl⟩
  · rcases prefilter_selectors hsel pfx n with ⟨-, hok⟩ | ⟨-, herr⟩
    · exact Or.inl ⟨_, hok, rfl⟩
    · exact Or.inr herr

/-- What the prefilter leaves is complete exactly when every update has a path,
    and a value where it is wanted. -/
theorem prefilter_complete_iff (client : GnmiClient) (pfx : GnmiPath) (n : GnmiNotification) :
    (∃ n', prefilter client pfx n = .ok n' ∧ Complete n'.update) ↔
      ∀ u ∈ n.update, ∃ path, u.path = some path ∧
        (Wanted client pfx path → u.val.isSome) := by
  by_cases hsel : client.selectors = []
  · rw [prefilter_all hsel]
    simp only [Except.ok.injEq, exists_eq_left']
    refine forall₂_congr (fun u _ => ?_)
    rw [Option.isSome_iff_exists]
    constructor
    · rintro ⟨⟨path, hup⟩, hval⟩
      exact ⟨path, hup, fun _ => hval⟩
    · rintro ⟨path, hup, hval⟩
      exact ⟨⟨path, hup⟩, hval (Or.inl hsel)⟩
  · have hwanted : ∀ path, Wanted client pfx path ↔ selectorKey pfx path ∈ client.selectors :=
      fun path => or_iff_right hsel
    simp only [hwanted]
    rcases prefilter_selectors hsel pfx n with ⟨hpaths, hok⟩ | ⟨⟨u, hu, hnone⟩, herr⟩
    · rw [hok]
      simp only [Except.ok.injEq, exists_eq_left']
      exact complete_filter_iff client pfx hpaths
    · rw [herr]
      constructor
      · rintro ⟨n', h, -⟩
        cases h
      · intro h
        obtain ⟨path, hup, -⟩ := h u hu
        rw [hnone] at hup
        cases hup

/-- A notification with a prefix is survived, however it marshals, exactly when
    the prefilter leaves a complete one. -/
theorem survives_iff_prefiltered (hp : n.pfx = some p) :
    (∀ marshal, Survives marshal client n) ↔
      ∃ n', prefilter client { p with target := client.name }
        { n with pfx := some { p with target := client.name } } = .ok n' ∧
          Complete n'.update := by
  rcases prefilter_cases client { p with target := client.name }
      { n with pfx := some { p with target := client.name } } with ⟨n', hpre, hq⟩ | herr
  · simp only [survives_prefiltered hp hpre hq, hpre, Except.ok.injEq, exists_eq_left']
    -- a marshaller that accepts everything leaves the shape to decide
    exact ⟨fun h => h (fun _ => .ok []) [] rfl, fun h _ _ _ => h⟩
  · constructor
    · intro h
      obtain ⟨hpanic, -⟩ := h (fun _ => .ok [])
      simp only [handleUpdate, hp, herr] at hpanic
      exact absurd rfl (hpanic _)
    · rintro ⟨n', h, -⟩
      rw [herr] at h
      cases h

/-- **A NOTIFICATION IS SURVIVED EXACTLY WHEN IT IS WELL SHAPED**, however it
    marshals. -/
theorem survives_iff (client : GnmiClient) (n : GnmiNotification) :
    (∀ marshal, Survives marshal client n) ↔ WellShaped client n := by
  cases hp : n.pfx with
  | none =>
      constructor
      · intro h
        obtain ⟨hpanic, -⟩ := h (fun _ => .ok [])
        rw [handleUpdate, hp] at hpanic
        exact absurd rfl (hpanic _)
      · rintro ⟨p, hp', -⟩
        rw [hp] at hp'
        cases hp'
  | some p =>
      rw [survives_iff_prefiltered hp, prefilter_complete_iff, WellShaped, hp]
      simp only [Option.some.injEq, exists_eq_left']
      -- the selectors do not look at the target
      exact Iff.rfl

/-- An update without a prefix, as a target may send it. -/
def bareNotification : GnmiNotification :=
  { timestamp := 0
    pfx := none
    update := [⟨some ⟨"", [⟨"interfaces", []⟩], ""⟩, some (.uintVal 1)⟩] }

/-- A client without selectors. -/
def plainClient : GnmiClient := ⟨"mygnmirouter", "10.49.234.114:57777", [], false⟩

/-- The client follows the prefix that is not there. -/
theorem bareNotification_not_survived :
    ¬ Survives (fun _ => .ok []) plainClient bareNotification := by
  rintro ⟨hpanic, -⟩
  exact absurd rfl (hpanic _)

/-! ## Selectors -/

/-- The path of a prefix as the metrics are named by it. -/
theorem prefixElems_path : ∀ (elems : List GnmiPathElem) (path : String) (tags : List MetricsAtom),
    (prefixElems elems path tags).1 = path ++ String.join (elems.map (fun e => e.name ++ "/")) := by
  intro elems
  induction elems with
  | nil => intro path tags; simp [prefixElems]
  | cons e rest ih =>
      intro path tags
      rw [prefixElems, ih]
      simp [String.append_assoc]

/-- The path of an update after the path of its prefix. -/
theorem updateElems_path : ∀ (elems : List GnmiPathElem) (path : String)
    (tags : List MetricsAtom), (updateElems elems path tags).1 = path ++ joinElems elems := by
  intro elems
  induction elems with
  | nil => intro path tags; simp [updateElems, joinElems]
  | cons e rest ih =>
      intro path tags
      rw [updateElems, ih]
      cases rest with
      | nil => simp [joinElems]
      | cons e' rest => simp [joinElems, String.append_assoc]

/-- Elements each followed by a slash, and elements separated by slashes. -/
theorem join_slash : ∀ {elems : List GnmiPathElem}, elems ≠ [] →
    String.join (elems.map (fun e => e.name ++ "/")) = joinElems elems ++ "/" := by
  intro elems
  induction elems with
  | nil => intro h; exact absurd rfl h
  | cons e rest ih =>
      intro _
      cases rest with
      | nil => simp [joinElems]
      | cons e' rest =>
          show _ = e.name ++ "/" ++ joinElems (e' :: rest) ++ "/"
          rw [List.map_cons, String.join_cons, ih (List.cons_ne_nil _ _),
            String.append_assoc, String.append_assoc, String.append_assoc]

/-- The sensor of an update, as `produceMetrics` names it. -/
def sensorKey (source : MsgProducer) (pfx path : GnmiPath) : String :=
  (updateElems path.elem (prefixTags source pfx).1 (prefixTags source pfx).2).1

/-- What `decodeGNMIPath` writes before the elements. -/
def lead (path : GnmiPath) : String :=
  if path.origin ≠ "" then path.origin ++ ":"
  else if path.elem ≠ [] then "/" else ""

/-- What `produceMetrics` writes before the elements. -/
def root (pfx : GnmiPath) : String :=
  if pfx.origin ≠ "" then pfx.origin ++ ":" else "/"

/-- The two names of an update share its elements, so they are told apart by
    what stands before. -/
theorem selectorKey_eq_sensorKey_iff_lead (p u : GnmiPath) :
    selectorKey p u = sensorKey source p u ↔
      lead p ++ joinElems p.elem ++ lead u
        = root p ++ String.join (p.elem.map (fun e => e.name ++ "/")) := by
  have hsensor : sensorKey source p u
      = root p ++ String.join (p.elem.map (fun e => e.name ++ "/")) ++ joinElems u.elem := by
    rw [sensorKey, updateElems_path]
    exact congrArg (· ++ _) (prefixElems_path _ _ _)
  have hselector : selectorKey p u
      = lead p ++ joinElems p.elem ++ lead u ++ joinElems u.elem :=
    String.append_assoc.symm
  rw [hsensor, hselector, String.append_left_inj]

/-- A prefix that is an origin and nothing else. -/
def BareOrigin (pfx : GnmiPath) : Prop := pfx.origin ≠ "" ∧ pfx.elem = []

/-- A path without an origin, and with elements unless the prefix is a bare
    origin: the shapes on which both renderings put the same separators. -/
def KeysAlike (pfx path : GnmiPath) : Prop :=
  path.origin = "" ∧ (path.elem = [] ↔ BareOrigin pfx)

theorem origin_colon_ne_slash {s : String} (hs : s ≠ "") : s ++ ":" ≠ "/" := by
  have hlen : s.length ≠ 0 := fun h => hs (String.length_eq_zero_iff.mp h)
  intro h
  have hl := congrArg String.length h
  rw [String.length_append] at hl
  exact hlen (Nat.succ_inj.mp hl)

theorem lead_eq_empty_iff : lead u = "" ↔ u.origin = "" ∧ u.elem = [] := by
  unfold lead
  by_cases ho : u.origin = ""
  · by_cases he : u.elem = []
    · simp [ho, he]
    · simp [ho, he]
  · simp [ho]

theorem lead_eq_slash_iff : lead u = "/" ↔ u.origin = "" ∧ u.elem ≠ [] := by
  unfold lead
  by_cases ho : u.origin = ""
  · by_cases he : u.elem = []
    · simp [ho, he]
    · simp [ho, he]
  · simp [ho, origin_colon_ne_slash ho]

/-- **THE TWO NAMES OF AN UPDATE AGREE ON EXACTLY THESE SHAPES**. -/
theorem selectorKey_eq_sensorKey_iff (p u : GnmiPath) :
    selectorKey p u = sensorKey source p u ↔ KeysAlike p u := by
  rw [selectorKey_eq_sensorKey_iff_lead, KeysAlike, BareOrigin]
  by_cases he : p.elem = []
  · have hjoin : lead p ++ joinElems p.elem ++ lead u = lead p ++ lead u := by
      rw [he]
      simp [joinElems]
    have hroot : root p ++ String.join (p.elem.map (fun e => e.name ++ "/")) = root p := by
      rw [he]
      simp
    rw [hjoin, hroot]
    by_cases ho : p.origin = ""
    · -- nothing stands before the path but its own lead
      have hlead : lead p = "" := (lead_eq_empty_iff p).mpr ⟨ho, he⟩
      have hr : root p = "/" := if_neg (not_not.mpr ho)
      rw [hlead, hr, String.empty_append, lead_eq_slash_iff]
      simp [ho]
    · -- the origin stands before both, and the path must add nothing
      have hlead : lead p = root p := by
        rw [lead, root, if_pos ho, if_pos ho]
      have hself : root p ++ lead u = root p ↔ lead u = "" := by
        conv_lhs => rhs; rw [← String.append_empty (s := root p)]
        exact String.append_right_inj _
      rw [hlead, hself, lead_eq_empty_iff]
      simp [ho, he]
  · -- the prefix has elements: the path must add the separator
    have hlead : lead p = root p := by
      rw [lead, root, if_pos he]
    rw [hlead, join_slash he, ← String.append_assoc, String.append_right_inj,
      lead_eq_slash_iff]
    simp [he]

/-- A notification whose updates have their paths. -/
def notificationOf (ts : Int64) (p : GnmiPath)
    (updates : List (GnmiPath × Option GnmiTypedValue)) : GnmiNotification :=
  ⟨ts, some p, updates.map (fun u => ⟨some u.1, u.2⟩)⟩

/-- The updates whose sensor is among the selectors. -/
def named (client : GnmiClient) (pfx : GnmiPath) (u : GnmiUpdate) : Bool :=
  match u.path with
  | none => false
  | some path => decide (sensorKey client.server pfx path ∈ client.selectors)

/-- The prefilter leaves the updates whose sensors the selectors name, in
    their order. -/
def KeepsNamed (client : GnmiClient) (pfx : GnmiPath) (n : GnmiNotification) : Prop :=
  prefilter client pfx n = .ok { n with update := n.update.filter (named client pfx) }

/-- The prefilter decides each update by its own name for it. -/
theorem keepsNamed_iff (hsel : client.selectors ≠ []) (ts : Int64) (p : GnmiPath)
    (updates : List (GnmiPath × Option GnmiTypedValue)) :
    KeepsNamed client p (notificationOf ts p updates) ↔
      ∀ u ∈ updates, selectorKey p u.1 ∈ client.selectors ↔
        sensorKey client.server p u.1 ∈ client.selectors := by
  have hpre : prefilter client p (notificationOf ts p updates)
      = .ok { notificationOf ts p updates with
          update := (notificationOf ts p updates).update.filter
            (Compact.verdict (selected client p)) } := by
    rcases prefilter_selectors hsel p (notificationOf ts p updates) with
      ⟨-, hok⟩ | ⟨⟨u, hu, hnone⟩, -⟩
    · exact hok
    · obtain ⟨_, -, rfl⟩ := List.mem_map.mp hu
      cases hnone
  rw [KeepsNamed, hpre, Except.ok.injEq, GnmiNotification.mk.injEq]
  simp only [true_and, Compact.filter_eq_filter_iff, notificationOf,
    List.forall_mem_map]
  refine forall₂_congr (fun u _ => ?_)
  rw [Compact.verdict, selected_eq client p rfl, named, decide_eq_true_iff,
    decide_eq_true_iff]

/-- **THE SELECTORS KEEP WHAT THEY NAME ON THE SHAPES THAT ARE NAMED ALIKE**:
    for one client, up to updates both of whose names it lists or neither, and
    for every client exactly then. -/
theorem prefilter_keeps_named_iff (ts : Int64) (p : GnmiPath)
    (updates : List (GnmiPath × Option GnmiTypedValue)) :
    (∀ client : GnmiClient, client.selectors ≠ [] →
      (KeepsNamed client p (notificationOf ts p updates) ↔
        ∀ u ∈ updates, KeysAlike p u.1 ∨
          (selectorKey p u.1 ∈ client.selectors ↔
            sensorKey client.server p u.1 ∈ client.selectors))) ∧
    ((∀ client : GnmiClient, client.selectors ≠ [] →
        KeepsNamed client p (notificationOf ts p updates)) ↔
      ∀ u ∈ updates, KeysAlike p u.1) := by
  -- alike names are the same name, so they are listed together
  have halike : ∀ (client : GnmiClient) (path : GnmiPath), KeysAlike p path →
      (selectorKey p path ∈ client.selectors ↔
        sensorKey client.server p path ∈ client.selectors) := by
    intro client path h
    rw [(selectorKey_eq_sensorKey_iff client.server p path).mpr h]
  constructor
  · intro client hsel
    rw [keepsNamed_iff hsel]
    constructor
    · exact fun h u hu => Or.inr (h u hu)
    · intro h u hu
      rcases h u hu with ha | hs
      · exact halike client u.1 ha
      · exact hs
  · constructor
    · -- a client that lists the one name tells it from the other
      intro h u hu
      let client : GnmiClient := ⟨"", "", [selectorKey p u.1], false⟩
      have hsel : client.selectors ≠ [] := List.cons_ne_nil _ _
      have hkeys := (keepsNamed_iff hsel ts p updates).mp (h client hsel) u hu
      have hsensor := hkeys.mp (List.mem_singleton_self _)
      exact (selectorKey_eq_sensorKey_iff "" p u.1).mp
        (List.mem_singleton.mp hsensor).symm
    · intro h client hsel
      rw [keepsNamed_iff hsel]
      exact fun u hu => halike client u.1 (h u hu)

/-- The model a target serves as the origin of its prefix, and the counter
    below it as the path of an update. -/
def statsdPrefix : GnmiPath := ⟨"Cisco-IOS-XR-infra-statsd-oper", [], "mygnmirouter"⟩

def packetsSent : GnmiPath :=
  ⟨"", [⟨"infra-statistics", []⟩, ⟨"interfaces", []⟩, ⟨"interface", [("name", "eth0")]⟩,
    ⟨"latest", []⟩, ⟨"generic-counters", []⟩, ⟨"packets-sent", []⟩], ""⟩

/-- A client that selects the counter by the name it is exported under. -/
def statsdClient : GnmiClient :=
  ⟨"mygnmirouter", "10.49.234.114:57777",
    ["Cisco-IOS-XR-infra-statsd-oper:infra-statistics/interfaces/interface/latest/"
      ++ "generic-counters/packets-sent"],
    false⟩

/-- The selected counter is dropped. -/
theorem packetsSent_dropped :
    sensorKey statsdClient.server statsdPrefix packetsSent ∈ statsdClient.selectors ∧
      ¬ KeepsNamed statsdClient statsdPrefix
        (notificationOf 0 statsdPrefix [(packetsSent, some (.uintVal 7))]) := by
  have hsensor : sensorKey statsdClient.server statsdPrefix packetsSent
      ∈ statsdClient.selectors := by
    refine List.mem_singleton.mpr ?_
    rw [sensorKey, updateElems_path]
    decide
  refine ⟨hsensor, ?_⟩
  rw [keepsNamed_iff (List.cons_ne_nil _ _)]
  intro h
  have hselector := (h _ (List.mem_singleton_self _)).mpr hsensor
  have halike := (selectorKey_eq_sensorKey_iff statsdClient.server statsdPrefix
    packetsSent).mp ((List.mem_singleton.mp hselector).trans
      (List.mem_singleton.mp hsensor).symm)
  exact absurd (halike.2.mpr ⟨by decide, rfl⟩) (List.cons_ne_nil _ _)

end PipelineGnmiClient
