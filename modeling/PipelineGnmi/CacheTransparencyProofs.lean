import Mathlib.Logic.Function.Basic
import PipelineGnmi.GpbStreamProofs
import PipelineGnmi.NameCacheProofs

/-! # Caches do not change what outputs see

    A GPB message keeps the table its rows were decoded into (`cachedDecodeTbl`),
    and a metrics specification keeps internal names in its nodes.  Both are filled
    by whichever call of `produceByteStream` or `produceMetrics` comes first, and
    read by every output that has the message or the specification.

    `answer` is a call with the caches as they are, `run` any number of them, in any
    order, over any messages and specifications.  Every call is answered as it
    would be with nothing cached (`caches_invisible`).  The orders in which maps
    are ranged over come with the call, so that the two are compared under the same
    orders. -/

namespace PipelineCaches

open PipelineMessage PipelineDataMsg PipelineMetricsSpec PipelineGpbKvMetrics
open PipelineGpbMetrics PipelineNameCache PipelineJsonpb
open PipelineGpbStream (StreamEnv FloatFormat MsgToFilter Row decodedRow hexRow serialiseBatch
  serialiseEvents produceTemplate codecGPBJSONifyDataGPBKV assertionPanic codecMarshaler
  reflectTelemetry headerOf)

/-! ## The table of a message -/

/-- The table as `cachedDecodeTbl` has it. -/
abbrev Table := Option (List GpbDecodeRow)

/-- `getGPBDecodedTbl`: the table, and what is cached from now on. -/
def getGPBDecodedTbl (archive : String → Option ReflectionSet) (t : Telemetry)
    (cachedDecodeTbl : Table) : Table × Table :=
  match cachedDecodeTbl with
  | some tbl => (some tbl, some tbl)
  | none =>
      match t.dataGpb with
      | none => (none, none)
      | some rows =>
          match archive t.encodingPath with
          | none => (none, none)
          | some mapping =>
              let tbl := rows.map (fun row =>
                ⟨row.timestamp, mapping.keys.map (fun decode => decode row.keys),
                  mapping.content row.content⟩)
              (some tbl, some tbl)

/-- What is cached is what decoding gives. -/
def TableOk (archive : String → Option ReflectionSet) (t : Telemetry) (tbl : Table) : Prop :=
  tbl = none ∨ tbl = PipelineGpbMetrics.getGPBDecodedTbl archive t

theorem getGPBDecodedTbl_eq {archive : String → Option ReflectionSet} {t : Telemetry}
    {tbl : Table} (h : TableOk archive t tbl) :
    getGPBDecodedTbl archive t tbl = (PipelineGpbMetrics.getGPBDecodedTbl archive t,
      PipelineGpbMetrics.getGPBDecodedTbl archive t) := by
  have hload : getGPBDecodedTbl archive t none = (PipelineGpbMetrics.getGPBDecodedTbl archive t,
      PipelineGpbMetrics.getGPBDecodedTbl archive t) := by
    unfold getGPBDecodedTbl PipelineGpbMetrics.getGPBDecodedTbl
    cases t.dataGpb with
    | none => rfl
    | some rows => cases archive t.encodingPath <;> rfl
  rcases h with rfl | rfl
  · exact hload
  · cases hdecoded : PipelineGpbMetrics.getGPBDecodedTbl archive t with
    | none => rw [hload, hdecoded]
    | some rows => rfl

/-! ## Streams -/

section Streams

variable (env : StreamEnv)

/-- `codecGPBJSONifyDataGPB`. -/
def codecGPBJSONifyDataGPB (t : Telemetry) (cached : Table) : List (Row (List Char)) × Table :=
  let tbl := getGPBDecodedTbl env.archive t cached
  (match tbl.1 with
    | none =>
        match t.dataGpb with
        | none => []
        | some rows => rows.map hexRow
    | some rows => rows.map (decodedRow env), tbl.2)

/-- The rows to serialise, from where the message has them. -/
def rowsToSerialise (t : Telemetry) (cached : Table) :
    Except Failure (List (Row (List Char))) × Table :=
  match t.dataGpb with
  | some _ =>
      let rows := codecGPBJSONifyDataGPB env t cached
      (.ok rows.1, rows.2)
  | none =>
      match codecGPBJSONifyDataGPBKV env.floats t.dataGpbkv with
      | none => (.error assertionPanic, cached)
      | some rows => (.ok rows, cached)

/-- JSON and JSON events, up to how the rows are serialised. -/
def produceRows (m : DataMsgGPB) (serialise : MsgProducer → List Char → List (Row (List Char)) →
      Except Failure (Option Octets)) (cached : Table) :
    Except Failure (Option Octets) × Table :=
  let collected := rowsToSerialise env m.cachedDecode cached
  (do
    let rows ← collected.1
    let telemetry ← marshalToString codecMarshaler
      (reflectTelemetry env.floats (headerOf m.cachedDecode))
    serialise m.source telemetry.toList rows, collected.2)

/-- `dataMsgGPB.produceByteStream`. -/
def produceByteStream (spec : DataMsgStreamSpec) (m : DataMsgGPB) (cached : Table) :
    Except Failure (Option Octets) × Table :=
  match spec.streamType with
  | .gpb | .msgDefault => (.ok (some m.original), cached)
  | .template => (produceTemplate env spec.context m, cached)
  | .jsonEvents => produceRows env m serialiseEvents cached
  | .json => produceRows env m serialiseBatch cached
  | t => (.error (.error ("GPB CODEC: reformat GPB msg to ["
      ++ dataMsgStreamTypeString t ++ "] is not supported")), cached)

end Streams

section Streams

variable {env : StreamEnv} {t : Telemetry} {m : DataMsgGPB} {cached : Table}

theorem rowsToSerialise_eq (h : TableOk env.archive t cached) :
    (rowsToSerialise env t cached).1 = PipelineGpbStream.rowsToSerialise env t ∧
      TableOk env.archive t (rowsToSerialise env t cached).2 := by
  unfold rowsToSerialise PipelineGpbStream.rowsToSerialise
  cases hdata : t.dataGpb with
  | none =>
      cases codecGPBJSONifyDataGPBKV env.floats t.dataGpbkv with
      | none => exact ⟨rfl, h⟩
      | some rows => exact ⟨rfl, h⟩
  | some rows =>
      simp only [codecGPBJSONifyDataGPB, PipelineGpbStream.codecGPBJSONifyDataGPB,
        getGPBDecodedTbl_eq h]
      exact ⟨rfl, Or.inr rfl⟩

theorem produceRows_eq (h : TableOk env.archive m.cachedDecode cached)
    (serialise : MsgProducer → List Char → List (Row (List Char)) →
      Except Failure (Option Octets)) :
    (produceRows env m serialise cached).1 = PipelineGpbStream.produceRows env m serialise ∧
      TableOk env.archive m.cachedDecode (produceRows env m serialise cached).2 := by
  obtain ⟨hrows, htable⟩ := rowsToSerialise_eq h
  refine ⟨?_, htable⟩
  show (rowsToSerialise env m.cachedDecode cached).1 >>= _ = _
  rw [hrows]
  rfl

/-- **A STREAM IS THE STREAM** of a message with nothing cached. -/
theorem produceByteStream_eq (env : StreamEnv) (spec : DataMsgStreamSpec)
    (h : TableOk env.archive m.cachedDecode cached) :
    (produceByteStream env spec m cached).1 = PipelineGpbStream.produceByteStream env spec m ∧
      TableOk env.archive m.cachedDecode (produceByteStream env spec m cached).2 := by
  obtain ⟨streamType, context⟩ := spec
  cases streamType with
  | jsonEvents => exact produceRows_eq h serialiseEvents
  | json => exact produceRows_eq h serialiseBatch
  | _ => exact ⟨rfl, h⟩

end Streams

/-! ## Metrics -/

/-- `dataMsgGPB.produceMetrics`: the calls made, and what is cached from now on in
    the message and in the specification. -/
def produceMetrics (env : MetricsEnv) (m : DataMsgGPB) (cached : Table) (c : NameCache) :
    List MetricEvent × Table × NameCache :=
  match GoMap.get env.specDB m.cachedDecode.encodingPath with
  | none => ([], cached, c)
  | some node =>
      match m.cachedDecode.dataGpb with
      | some _ =>
          let tbl := getGPBDecodedTbl env.archive m.cachedDecode cached
          match tbl.1 with
          | none => ([], tbl.2, c)
          | some rows =>
              let r := produceGPBRows env.handler env.order node m.cachedDecode.msgTimestamp
                (baseTags m) rows c
              (r.1, tbl.2, r.2)
      | none => (produceGPBKVMetrics env.handler node m.cachedDecode (baseTags m), cached, c)

/-- The loop over the decoded rows without a cache of names. -/
def uncachedRows (h : Handler) (order : RangeOrder) (node : MetricsSpecNode)
    (parentTimestamp : UInt64) (tags : List MetricsAtom) :
    List GpbDecodeRow → Nat → List MetricEvent × Nat
  | [], n => ([], n)
  | row :: rest, n =>
      let timestamp := if row.timestamp ≠ 0 then row.timestamp else parentTimestamp
      let tagsCopy := tags ++ (match row.keys with
        | none => []
        | some keys => keyTags h keys)
      let r := uncachedForNode h order row.content node timestamp tagsCopy n
      let r' := uncachedRows h order node parentTimestamp tags rest r.2
      (r.1 ++ r'.1, r'.2)

/-- `produceMetrics` with no cache at all. -/
def uncachedMetrics (env : MetricsEnv) (m : DataMsgGPB) : List MetricEvent :=
  match GoMap.get env.specDB m.cachedDecode.encodingPath with
  | none => []
  | some node =>
      match m.cachedDecode.dataGpb with
      | some _ =>
          match PipelineGpbMetrics.getGPBDecodedTbl env.archive m.cachedDecode with
          | none => []
          | some rows => (uncachedRows env.handler env.order node m.cachedDecode.msgTimestamp
              (baseTags m) rows 0).1
      | none => produceGPBKVMetrics env.handler node m.cachedDecode (baseTags m)

/-- The reflection set of a path: what is decoded has the registered type. -/
structure TypedSet {τ : Type} (Γ : TypeDecls τ) where
  content : Octets → RefVal
  contentType : τ
  typed : ∀ b, HasType Γ (content b) (.struct contentType)
  keys : Option (Octets → RefVal)

/-- The model registry: a path has a fixed Go type, and decoding is a function of
    the octets. -/
structure Registry (τ : Type) where
  decls : TypeDecls τ
  sets : String → Option (TypedSet decls)

variable {τ : Type}

/-- `EncodingPathToMessageReflectionSet`. -/
def Registry.archive (R : Registry τ) (path : String) : Option ReflectionSet :=
  (R.sets path).map (fun set => ⟨set.content, set.keys⟩)

/-- The names in a specification are good for what is registered. -/
def GoodSpec (R : Registry τ) (db : List (String × MetricsSpecNode)) (c : NameCache) : Prop :=
  ∀ path root set, GoMap.get db path = some root → R.sets path = some set →
    Good R.decls c root set.contentType

section Metrics

variable {R : Registry τ}

/-- The rows of a table have the type of its path. -/
theorem typed_rows {t : Telemetry} {rows : List GpbDecodeRow}
    (h : PipelineGpbMetrics.getGPBDecodedTbl R.archive t = some rows) :
    ∃ set, R.sets t.encodingPath = some set ∧
      ∀ row ∈ rows, HasType R.decls row.content (.struct set.contentType) := by
  unfold PipelineGpbMetrics.getGPBDecodedTbl Registry.archive at h
  cases hset : R.sets t.encodingPath with
  | none =>
      rw [hset] at h
      split at h <;> cases h
  | some set =>
      rw [hset] at h
      split at h
      · cases h
      · cases h
        refine ⟨set, rfl, ?_⟩
        intro row hrow
        obtain ⟨raw, -, rfl⟩ := List.mem_map.mp hrow
        exact set.typed raw.content

theorem agrees_rows (h : Handler) (order : RangeOrder) {node : MetricsSpecNode} {n : τ}
    {Γ : TypeDecls τ} (hp : Placed node) (parentTimestamp : UInt64) (tags : List MetricsAtom) :
    ∀ {rows : List GpbDecodeRow}, (∀ row ∈ rows, HasType Γ row.content (.struct n)) →
      ∀ {c : NameCache}, Good Γ c node n →
        Agrees Γ (produceGPBRows h order node parentTimestamp tags rows c)
          (uncachedRows h order node parentTimestamp tags rows c.ranges) (some n) node c := by
  intro rows
  induction rows with
  | nil =>
      intro _ c hgood
      exact agrees_refl (fun _ hn => Option.some.inj hn ▸ hgood)
  | cons row rest ih =>
      intro htyped c hgood
      have hrow := follows_forNode h order (htyped row List.mem_cons_self) node
        (if row.timestamp ≠ 0 then row.timestamp else parentTimestamp)
        (tags ++ (match row.keys with
          | none => []
          | some keys => keyTags h keys)) c hp (fun _ hn => Option.some.inj hn ▸ hgood)
      have hrest := ih (fun r hr => htyped r (List.mem_cons_of_mem _ hr)) (hrow.good n rfl)
      rw [hrow.ranges] at hrest
      exact hrow.seq hrest

/-- One root is walked, the others are not touched. -/
theorem GoodSpec.walked {db : List (String × MetricsSpecNode)} {c c' : NameCache} {j : Nat}
    (h : GoodSpec R db c) (hdb : Rooted db j) {path : String} {root : MetricsSpecNode}
    {set : TypedSet R.decls} (hroot : GoMap.get db path = some root)
    (hset : R.sets path = some set) (hgood : Good R.decls c' root set.contentType)
    (htouches : Touches root.ptr c c') : GoodSpec R db c' := by
  intro path' root' set' hroot' hset'
  by_cases hpath : path' = path
  · subst hpath
    cases hroot.symm.trans hroot'
    cases hset.symm.trans hset'
    exact hgood
  · obtain ⟨-, i, -, hptr⟩ := hdb.placed hroot
    obtain ⟨hplaced', i', -, hptr'⟩ := hdb.placed hroot'
    refine (h path' root' set' hroot' hset').touched htouches hplaced' ?_
    intro q hq hq'
    have hlen : root'.ptr.length = root.ptr.length := by rw [hptr, hptr']; rfl
    exact hpath (hdb.apart hroot' hroot (eq_of_prefixes hq hq' hlen))

/-- **METRICS ARE THE METRICS** of a message and a specification with nothing
    cached. -/
theorem produceMetrics_eq (env : MetricsEnv) (harchive : env.archive = R.archive) {j : Nat}
    (hdb : Rooted env.specDB j) {m : DataMsgGPB} {cached : Table} {c : NameCache}
    (htable : TableOk env.archive m.cachedDecode cached) (hgood : GoodSpec R env.specDB c)
    (hranges : c.ranges = 0) :
    (produceMetrics env m cached c).1 = uncachedMetrics env m ∧
      TableOk env.archive m.cachedDecode (produceMetrics env m cached c).2.1 ∧
      GoodSpec R env.specDB (produceMetrics env m cached c).2.2 := by
  unfold produceMetrics uncachedMetrics
  cases hnode : GoMap.get env.specDB m.cachedDecode.encodingPath with
  | none => exact ⟨rfl, htable, hgood⟩
  | some node =>
      cases m.cachedDecode.dataGpb with
      | none => exact ⟨rfl, htable, hgood⟩
      | some _ =>
          simp only [getGPBDecodedTbl_eq htable]
          cases hrows : PipelineGpbMetrics.getGPBDecodedTbl env.archive m.cachedDecode with
          | none => exact ⟨rfl, Or.inl rfl, hgood⟩
          | some rows =>
              have htyped := hrows
              rw [harchive] at htyped
              obtain ⟨set, hset, hcontent⟩ := typed_rows htyped
              have hwalk := agrees_rows env.handler env.order (hdb.placed hnode).1
                m.cachedDecode.msgTimestamp (baseTags m) hcontent (hgood _ _ _ hnode hset)
              rw [hranges] at hwalk
              exact ⟨hwalk.calls, Or.inr hrows.symm,
                hgood.walked hdb hnode hset (hwalk.good _ rfl) hwalk.touches⟩

end Metrics

/-! ## Any number of calls -/

/-- A metrics specification as an output has it: its database was built for its
    handler. -/
structure MetricsSpec where
  handler : Handler
  specSet : List (String × SpecNode)
  specDB : List (String × MetricsSpecNode)
  built : buildSpecDB handler specSet = .ok specDB

/-- Messages `ι` and specifications `κ`, and what streams and metrics depend on
    besides. -/
structure Outputs (τ ι κ : Type) where
  registry : Registry τ
  floats : FloatFormat
  view : RefVal → Except GoError (List Field)
  execute : String → MsgToFilter → Except GoError Octets
  msgs : ι → DataMsgGPB
  specs : κ → MetricsSpec

/-- What is cached in each message and in each specification. -/
structure Caches (ι κ : Type) where
  tables : ι → Table
  names : κ → NameCache

/-- A call by some output; the orders of the maps it ranges over are its own. -/
inductive Call (ι κ : Type) where
  | produceByteStream (msg : ι) (spec : DataMsgStreamSpec)
  | produceMetrics (msg : ι) (spec : κ) (order : RangeOrder)

inductive Answer where
  | stream (r : Except Failure (Option Octets))
  | metrics (calls : List MetricEvent)

variable {ι κ : Type}

namespace Outputs

def streamEnv (O : Outputs τ ι κ) : StreamEnv :=
  ⟨O.floats, O.registry.archive, O.view, O.execute⟩

def metricsEnv (O : Outputs τ ι κ) (k : κ) (order : RangeOrder) : MetricsEnv :=
  ⟨(O.specs k).handler, (O.specs k).specDB, O.registry.archive, order⟩

/-- A call, from what is cached to what is cached after it. -/
def answer [DecidableEq ι] [DecidableEq κ] (O : Outputs τ ι κ) (s : Caches ι κ) :
    Call ι κ → Answer × Caches ι κ
  | .produceByteStream i spec =>
      let r := produceByteStream O.streamEnv spec (O.msgs i) (s.tables i)
      (.stream r.1, { s with tables := Function.update s.tables i r.2 })
  | .produceMetrics i k order =>
      let r := produceMetrics (O.metricsEnv k order) (O.msgs i) (s.tables i)
        { s.names k with ranges := 0 }
      (.metrics r.1, ⟨Function.update s.tables i r.2.1, Function.update s.names k r.2.2⟩)

/-- Calls one after another. -/
def run [DecidableEq ι] [DecidableEq κ] (O : Outputs τ ι κ) :
    Caches ι κ → List (Call ι κ) → List Answer
  | _, [] => []
  | s, call :: rest => (O.answer s call).1 :: O.run (O.answer s call).2 rest

end Outputs

/-- Messages just decoded and specifications just built. -/
def fresh (ι κ : Type) : Caches ι κ := ⟨fun _ => none, fun _ => ⟨[], [], 0⟩⟩

/-- Whatever is cached is right. -/
structure Sound (O : Outputs τ ι κ) (s : Caches ι κ) : Prop where
  tables : ∀ i, TableOk O.registry.archive (O.msgs i).cachedDecode (s.tables i)
  names : ∀ k, GoodSpec O.registry (O.specs k).specDB (s.names k)

/-- The answer to a call where nothing is cached at all. -/
def uncachedAnswer (O : Outputs τ ι κ) : Call ι κ → Answer
  | .produceByteStream i spec =>
      .stream (PipelineGpbStream.produceByteStream O.streamEnv spec (O.msgs i))
  | .produceMetrics i k order => .metrics (uncachedMetrics (O.metricsEnv k order) (O.msgs i))

theorem sound_fresh (O : Outputs τ ι κ) : Sound O (fresh ι κ) := by
  refine ⟨fun _ => Or.inl rfl, ?_⟩
  intro k path root set _ _
  exact good_empty 0

section Run

variable [DecidableEq ι] [DecidableEq κ] (O : Outputs τ ι κ)

/-- **A CALL**: from sound caches it is answered as without any, and leaves them
    sound. -/
theorem answer_of_sound {s : Caches ι κ} (h : Sound O s) (call : Call ι κ) :
    (O.answer s call).1 = uncachedAnswer O call ∧ Sound O (O.answer s call).2 := by
  have htables : ∀ {i : ι} {tbl : Table},
      TableOk O.registry.archive (O.msgs i).cachedDecode tbl →
      ∀ i', TableOk O.registry.archive (O.msgs i').cachedDecode
        (Function.update s.tables i tbl i') := by
    intro i tbl hok i'
    by_cases hi : i' = i
    · subst hi
      rw [Function.update_self]
      exact hok
    · rw [Function.update_of_ne hi]
      exact h.tables i'
  cases call with
  | produceByteStream i spec =>
      obtain ⟨hstream, htable⟩ := produceByteStream_eq O.streamEnv spec (h.tables i)
      exact ⟨congrArg Answer.stream hstream, htables htable, h.names⟩
  | produceMetrics i k order =>
      obtain ⟨j, hdb⟩ := rooted_buildSpecDB (O.specs k).built
      obtain ⟨hcalls, htable, hgood⟩ := produceMetrics_eq (O.metricsEnv k order)
        (c := { s.names k with ranges := 0 }) rfl hdb (h.tables i) (h.names k) rfl
      refine ⟨congrArg Answer.metrics hcalls, htables htable, ?_⟩
      intro k'
      by_cases hk : k' = k
      · subst hk
        show GoodSpec _ _ (Function.update s.names k' _ k')
        rw [Function.update_self]
        exact hgood
      · show GoodSpec _ _ (Function.update s.names k _ k')
        rw [Function.update_of_ne hk]
        exact h.names k'

theorem run_of_sound (calls : List (Call ι κ)) : ∀ {s : Caches ι κ}, Sound O s →
    O.run s calls = calls.map (uncachedAnswer O) := by
  induction calls with
  | nil => exact fun _ => rfl
  | cons call rest ih =>
      intro s hs
      obtain ⟨hanswer, hsound⟩ := answer_of_sound O hs call
      rw [Outputs.run, hanswer, ih hsound, List.map_cons]

/-- **CACHES DO NOT CHANGE WHAT OUTPUTS SEE**: for any messages and metrics
    specifications, in any sequence of calls, every call is answered as it would
    be on a message just decoded and a specification just built, under the same
    orders of the maps. -/
theorem caches_invisible (calls : List (Call ι κ)) :
    O.run (fresh ι κ) calls = calls.map (fun call => (O.answer (fresh ι κ) call).1) := by
  rw [run_of_sound O calls (sound_fresh O)]
  refine List.map_congr_left (fun call _ => ?_)
  exact (answer_of_sound O (sound_fresh O) call).1.symm

end Run

/-- A registry of one struct, whose only field is named otherwise in Go. -/
def upRegistry : Registry Unit where
  decls := fun _ => [(⟨"Up", some "varint,1,opt,name=up"⟩, .other)]
  sets := fun _ => some
    { content := fun _ => .struct [⟨"Up", some "varint,1,opt,name=up"⟩] [.scalar (.bool true)]
      contentType := ()
      typed := fun _ => ⟨rfl, trivial, trivial⟩
      keys := none }

def upOutputs : Outputs Unit Unit Unit where
  registry := upRegistry
  floats := ⟨fun _ => .ofNat 0, fun _ => .ofNat 0⟩
  view := fun _ => .error ""
  execute := fun _ _ => .ok []
  msgs := fun _ => ⟨[], "r1", { sampleKv.cachedDecode with dataGpb := some [⟨5, [], [1]⟩] }⟩
  specs := fun _ => ⟨sampleEnv.handler, sampleSpec, sampleEnv.specDB, rfl⟩

-- The first call leaves the table and the Go name behind.
example : let s := (upOutputs.answer (fresh Unit Unit) (.produceMetrics () () sampleEnv.order)).2
    (s.tables ()).isSome = true ∧ (s.names ()).internalName = [([0, 0], "Up")] :=
  ⟨rfl, rfl⟩

end PipelineCaches
