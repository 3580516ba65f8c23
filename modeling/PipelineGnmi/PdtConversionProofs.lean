import PipelineGnmi.DataMsgProofs

/-! # Converting legacy PDT messages

    `codecGPBLegacyPDTBlockToDataMsgs` of `codec_gpb.go` flattens the tables of
    a PDT header into the rows of one compact message, which has room for one
    path.  The loop keeps the path in the target itself, and an empty path there
    means that none was seen yet.

    So tables without a path are passed over as long as they come first
    (`Led`), and a message that mixes them with tables of another path is
    accepted under the latter.  `pdt_conversion_iff` says that nothing else is
    wrong with the conversion. -/

namespace PipelinePdt

open PipelineMessage PipelineDataMsg

/-- The rows of the tables, in the order of the tables; a row is both keys and
    content. -/
def pdtRows (tables : List PdtTable) : List TelemetryRowGPB :=
  tables.flatMap (fun table => table.row.map (fun row => ⟨0, row, row⟩))

/-- Every table carries this path. -/
def Carries (tables : List PdtTable) (path : String) : Prop :=
  ∀ table ∈ tables, table.policyPath = path

def HasRows (tables : List PdtTable) : Prop :=
  ∃ table ∈ tables, table.row ≠ []

variable {tables : List PdtTable} {path : String}

theorem pdtRows_ne_nil : pdtRows tables ≠ [] ↔ HasRows tables := by
  simp [pdtRows, HasRows]

/-- Tables without a path, and behind them tables of this path; it is empty only
    if all of them are. -/
def Led (tables : List PdtTable) (path : String) : Prop :=
  ∃ blank rest, tables = blank ++ rest ∧ Carries blank "" ∧ Carries rest path ∧
    (rest = [] → path = "")

/-! ## The loop over the tables -/

theorem pdtTables_carries (h : Carries tables path) (rows : List TelemetryRowGPB) :
    pdtTables tables path rows = .ok (path, rows ++ pdtRows tables) := by
  induction tables generalizing rows with
  | nil => simp [pdtTables, pdtRows]
  | cons table rest ih =>
      obtain ⟨htable, hrest⟩ := List.forall_mem_cons.mp h
      have hsame : (if path = "" then table.policyPath else path) = path := by
        rw [htable]
        exact ite_self _
      rw [pdtTables, if_neg (fun hne => hne.2 htable.symm), hsame, ih hrest]
      simp [pdtRows]

variable {rows : List TelemetryRowGPB} {r : String × List TelemetryRowGPB}

/-- Once a path was seen, no other is accepted. -/
theorem carries_of_pdtTables (hpath : path ≠ "") (h : pdtTables tables path rows = .ok r) :
    Carries tables path := by
  induction tables generalizing rows with
  | nil => exact List.forall_mem_nil _
  | cons table rest ih =>
      by_cases htable : path = table.policyPath
      · rw [pdtTables, if_neg (fun hne => hne.2 htable), if_neg hpath] at h
        exact List.forall_mem_cons.mpr ⟨htable.symm, ih h⟩
      · rw [pdtTables, if_pos ⟨hpath, htable⟩] at h
        cases h

/-- Tables without a path leave the loop as it was, but for their rows. -/
theorem pdtTables_blank {blank : List PdtTable} (h : Carries blank "")
    (rest : List PdtTable) (rows : List TelemetryRowGPB) :
    pdtTables (blank ++ rest) "" rows = pdtTables rest "" (rows ++ pdtRows blank) := by
  induction blank generalizing rows with
  | nil => simp [pdtRows]
  | cons table blank ih =>
      obtain ⟨htable, hblank⟩ := List.forall_mem_cons.mp h
      rw [List.cons_append, pdtTables, if_neg (fun hne => hne.1 rfl), if_pos rfl, htable,
        ih hblank]
      simp [pdtRows]

/-- **WHAT THE LOOP ACCEPTS**: leading tables without a path, and behind them
    tables of one path. -/
theorem pdtTables_ok_iff :
    pdtTables tables "" rows = .ok r ↔ Led tables r.1 ∧ r.2 = rows ++ pdtRows tables := by
  constructor
  · intro h
    induction tables generalizing rows with
    | nil =>
        cases h
        exact ⟨⟨[], [], rfl, List.forall_mem_nil _, List.forall_mem_nil _, fun _ => rfl⟩,
          (List.append_nil _).symm⟩
    | cons table rest ih =>
        by_cases htable : table.policyPath = ""
        · have hone : Carries [table] "" := List.forall_mem_singleton.mpr htable
          rw [← List.singleton_append, pdtTables_blank hone] at h
          obtain ⟨⟨blank, tail, rfl, hblank, htail, hnil⟩, hrows⟩ := ih h
          refine ⟨⟨table :: blank, tail, rfl, ?_, htail, hnil⟩, ?_⟩
          · exact List.forall_mem_cons.mpr ⟨htable, hblank⟩
          · rw [hrows]
            simp [pdtRows]
        · -- from here on the loop compares with the path of this table
          rw [pdtTables, if_neg (fun hne => hne.1 rfl), if_pos rfl] at h
          have hrest := carries_of_pdtTables htable h
          rw [pdtTables_carries hrest] at h
          cases h
          refine ⟨⟨[], table :: rest, rfl, List.forall_mem_nil _, ?_, ?_⟩, ?_⟩
          · exact List.forall_mem_cons.mpr ⟨rfl, hrest⟩
          · exact fun hnil => absurd hnil (List.cons_ne_nil _ _)
          · simp [pdtRows]
  · rintro ⟨⟨blank, rest, rfl, hblank, hrest, hnil⟩, hrows⟩
    have hr : r = (r.1, rows ++ pdtRows blank ++ pdtRows rest) := by
      refine Prod.ext rfl ?_
      rw [hrows]
      simp [pdtRows]
    rw [pdtTables_blank hblank, hr]
    cases rest with
    | nil =>
        rw [hnil rfl]
        simp [pdtTables, pdtRows]
    | cons table tail =>
        obtain ⟨htable, htail⟩ := List.forall_mem_cons.mp hrest
        rw [pdtTables, if_neg (fun hne => hne.1 rfl), if_pos rfl, htable,
          pdtTables_carries htail]
        simp [pdtRows]

/-! ## The conversion -/

/-- The telemetry a header is converted to, with this path and these rows. -/
def pdtTarget (old : PdtHeader) (path : String) (rows : List TelemetryRowGPB) : Telemetry where
  nodeIdStr := some old.identifier
  subscriptionIdStr := some old.policyName
  encodingPath := path
  collectionId := 0
  collectionStartTime := old.startTime
  msgTimestamp := old.startTime
  dataGpbkv := []
  dataGpb := some rows
  collectionEndTime := old.endTime

section Conversion

variable {lib : ProtoLib} {xlation : String → Option String} {source : MsgProducer}
  {block : Octets} {old : PdtHeader}

/-- A header converts as the loop over its tables goes, unless there are no
    rows. -/
theorem conversion_ok_iff (hold : lib.unmarshalPdt block = .ok old)
    (hmarshal : ∀ t, ∃ b, lib.marshal t = .ok b) {r : Option (List DataMsg)} :
    codecGPBLegacyPDTBlockToDataMsgs lib xlation source block = .ok r ↔
      HasRows old.tables ∧ ∃ path content, Led old.tables path ∧
        lib.marshal (pdtTarget old path (pdtRows old.tables)) = .ok content ∧
        r = some (codecGPBBlockAndTelemMsgToDataMsgs xlation source content
          (pdtTarget old path (pdtRows old.tables))) := by
  rw [codecGPBLegacyPDTBlockToDataMsgs, hold, ← pdtRows_ne_nil]
  cases htables : pdtTables old.tables "" [] with
  | error err =>
      constructor
      · intro h
        simp only [bind, Except.bind, htables] at h
        cases h
      · rintro ⟨-, path, content, hled, -⟩
        have hok := pdtTables_ok_iff (r := (path, [] ++ pdtRows old.tables)).mpr ⟨hled, rfl⟩
        rw [htables] at hok
        cases hok
  | ok accepted =>
      obtain ⟨path, rows⟩ := accepted
      obtain ⟨hled, rfl : rows = [] ++ pdtRows old.tables⟩ := pdtTables_ok_iff.mp htables
      obtain ⟨content, hcontent⟩ := hmarshal (pdtTarget old path (pdtRows old.tables))
      simp only [bind, Except.bind, htables, List.nil_append]
      by_cases hrows : pdtRows old.tables = []
      · rw [if_pos hrows]
        constructor
        · intro h
          cases h
        · exact fun h => absurd hrows h.1
      · rw [if_neg hrows]
        have hmarshalled := hcontent
        rw [pdtTarget] at hmarshalled
        simp only [hmarshalled]
        constructor
        · intro h
          exact ⟨hrows, path, content, hled, hcontent, (Except.ok.inj h).symm⟩
        · rintro ⟨-, path', content', hled', hcontent', rfl⟩
          -- the loop is a function, so the path it settles on is the only one
          have hok := pdtTables_ok_iff (r := (path', [] ++ pdtRows old.tables)).mpr ⟨hled', rfl⟩
          rw [htables] at hok
          cases hok
          rw [hcontent] at hcontent'
          cases hcontent'
          rfl

end Conversion

/-- What the conversion owes a header: it is accepted exactly if its tables
    carry one path and have a row, and becomes the message with that path, before
    it is translated, and all the rows. -/
structure Converts (lib : ProtoLib) (xlation : String → Option String) (source : MsgProducer)
    (block : Octets) (old : PdtHeader) : Prop where
  accepted : (∃ r, codecGPBLegacyPDTBlockToDataMsgs lib xlation source block = .ok r) ↔
    (∃ path, Carries old.tables path) ∧ HasRows old.tables
  converted : ∀ r, codecGPBLegacyPDTBlockToDataMsgs lib xlation source block = .ok r →
    ∃ path content, Carries old.tables path ∧
      lib.marshal (pdtTarget old path (pdtRows old.tables)) = .ok content ∧
      r = some (codecGPBBlockAndTelemMsgToDataMsgs xlation source content
        (pdtTarget old path (pdtRows old.tables)))

/-- Tables without a path lead tables that have one. -/
def BlankLed (tables : List PdtTable) : Prop :=
  ∃ path, path ≠ "" ∧ Led tables path ∧ ∃ table ∈ tables, table.policyPath = ""

theorem led_of_carries (h : Carries tables path) (hrows : HasRows tables) : Led tables path := by
  obtain ⟨table, hmem, -⟩ := hrows
  refine ⟨[], tables, rfl, List.forall_mem_nil _, h, ?_⟩
  rintro rfl
  exact absurd hmem List.not_mem_nil

theorem carries_of_led (h : Led tables path) (hblank : ¬ BlankLed tables) :
    Carries tables path := by
  obtain ⟨blank, rest, rfl, hempty, hrest, -⟩ := id h
  intro table hmem
  by_cases hpath : path = ""
  · rw [hpath] at hrest ⊢
    rcases List.mem_append.mp hmem with hmem | hmem
    · exact hempty table hmem
    · exact hrest table hmem
  · rcases List.mem_append.mp hmem with hin | hin
    · exact absurd ⟨path, hpath, h, table, hmem, hempty table hin⟩ hblank
    · exact hrest table hin

/-- **PDT CONVERSION**: a header is converted as it should be unless it has rows
    and tables without a path lead its other tables. -/
theorem pdt_conversion_iff (lib : ProtoLib) (xlation : String → Option String)
    (source : MsgProducer) (block : Octets) (old : PdtHeader)
    (hold : lib.unmarshalPdt block = .ok old) (hmarshal : ∀ t, ∃ b, lib.marshal t = .ok b) :
    Converts lib xlation source block old ↔
      ¬ (HasRows old.tables ∧ BlankLed old.tables) := by
  constructor
  · rintro h ⟨hrows, path, hpath, hled, table, hmem, hempty⟩
    obtain ⟨content, hcontent⟩ := hmarshal (pdtTarget old path (pdtRows old.tables))
    have hok : codecGPBLegacyPDTBlockToDataMsgs lib xlation source block = .ok _ :=
      (conversion_ok_iff hold hmarshal).mpr ⟨hrows, path, content, hled, hcontent, rfl⟩
    obtain ⟨⟨common, hcarries⟩, -⟩ := h.accepted.mp ⟨_, hok⟩
    -- the path of the message is one of its tables', and so is the empty one
    obtain ⟨blank, rest, heq, -, hrest, hnil⟩ := hled
    have hcommon : common = "" := (hcarries table hmem).symm.trans hempty
    cases rest with
    | nil => exact hpath (hnil rfl)
    | cons last tail =>
        have hlast : last ∈ old.tables := by
          rw [heq]
          exact List.mem_append_right _ (List.mem_cons_self ..)
        refine hpath ?_
        rw [← hrest last (List.mem_cons_self ..), hcarries last hlast, hcommon]
  · intro hno
    refine ⟨⟨?_, ?_⟩, ?_⟩
    · rintro ⟨r, hr⟩
      obtain ⟨hrows, path, -, hled, -⟩ := (conversion_ok_iff hold hmarshal).mp hr
      exact ⟨⟨path, carries_of_led hled (fun hblank => hno ⟨hrows, hblank⟩)⟩, hrows⟩
    · rintro ⟨⟨path, hcarries⟩, hrows⟩
      obtain ⟨content, hcontent⟩ := hmarshal (pdtTarget old path (pdtRows old.tables))
      exact ⟨_, (conversion_ok_iff hold hmarshal).mpr
        ⟨hrows, path, content, led_of_carries hcarries hrows, hcontent, rfl⟩⟩
    · intro r hr
      obtain ⟨hrows, path, content, hled, hcontent, rfl⟩ :=
        (conversion_ok_iff hold hmarshal).mp hr
      exact ⟨path, content, carries_of_led hled (fun hblank => hno ⟨hrows, hblank⟩),
        hcontent, rfl⟩

/-- A library that reads this header from these octets, and writes those of what it
    converts to. -/
def readsHeader (block target : Octets) (old : PdtHeader) : ProtoLib where
  marshal := fun _ => .ok target
  unmarshal := fun _ => .error "not telemetry"
  unmarshalPdt := fun b => if b = block then .ok old else .error "not a header"

/-- A header with a table of one row for each of these paths. -/
def headerOver (paths : List String) : PdtHeader :=
  ⟨"r1", "policy", 5, 6, paths.map (fun path => ⟨path, [[1]]⟩)⟩

/-- Its octets in front of the tables: policy, identifier and the two times. -/
def headerOctets : Octets :=
  [0x12, 6, 0x70, 0x6f, 0x6c, 0x69, 0x63, 0x79, 0x22, 2, 0x72, 0x31, 0x28, 5, 0x30, 6]

/-- A row under the path `a`, and one under none. -/
def pathOctets : Octets := [0x3a, 6, 0x0a, 1, 0x61, 0x12, 1, 1]

def blankOctets : Octets := [0x3a, 3, 0x12, 1, 1]

/-- Telemetry with two such rows under the path `a`. -/
def twoRowOctets : Octets :=
  [0x32, 1, 0x61, 0x48, 5, 0x50, 5, 0x62, 16, 0x0a, 6, 0x52, 1, 1, 0x5a, 1, 1, 0x0a, 6, 0x52, 1,
    1, 0x5a, 1, 1, 0x68, 6, 0x0a, 2, 0x72, 0x31, 0x1a, 6, 0x70, 0x6f, 0x6c, 0x69, 0x63, 0x79]

/-- Two tables of one path. -/
def onePathBlock : Octets := headerOctets ++ pathOctets ++ pathOctets

/-- A table without a path in front of one with a path. -/
def mixedBlock : Octets := headerOctets ++ blankOctets ++ pathOctets

/-- Two tables of one path convert. -/
theorem pdt_conversion_one_path :
    Converts (readsHeader onePathBlock twoRowOctets (headerOver ["a", "a"])) (fun _ => none) "r1"
      onePathBlock (headerOver ["a", "a"]) := by
  refine (pdt_conversion_iff _ _ _ _ _ rfl (fun _ => ⟨twoRowOctets, rfl⟩)).mpr ?_
  rintro ⟨-, _, -, -, table, hmem, hempty⟩
  simp only [headerOver, List.map_cons, List.map_nil, List.mem_cons, List.not_mem_nil,
    or_false, or_self] at hmem
  rw [hmem] at hempty
  exact absurd hempty (by decide)

/-- The header with the table without a path is accepted, and the rows of both go
    under the path of the second. -/
theorem pdt_converts_mixed_paths :
    codecGPBLegacyPDTBlockToDataMsgs (readsHeader mixedBlock twoRowOctets (headerOver ["", "a"]))
          (fun _ => none) "r1" mixedBlock
        = .ok (some [.gpb ⟨twoRowOctets, "r1", pdtTarget (headerOver ["", "a"]) "a"
            [⟨0, [1], [1]⟩, ⟨0, [1], [1]⟩]⟩]) ∧
      ¬ Converts (readsHeader mixedBlock twoRowOctets (headerOver ["", "a"])) (fun _ => none) "r1"
        mixedBlock (headerOver ["", "a"]) := by
  have hok : codecGPBLegacyPDTBlockToDataMsgs
      (readsHeader mixedBlock twoRowOctets (headerOver ["", "a"])) (fun _ => none) "r1" mixedBlock
        = .ok (some [.gpb ⟨twoRowOctets, "r1", pdtTarget (headerOver ["", "a"]) "a"
            [⟨0, [1], [1]⟩, ⟨0, [1], [1]⟩]⟩]) := rfl
  refine ⟨hok, fun h => ?_⟩
  obtain ⟨⟨path, hcarries⟩, -⟩ := h.accepted.mp ⟨_, hok⟩
  have hfirst : "" = path := hcarries ⟨"", [[1]]⟩ (List.mem_cons_self ..)
  have hsecond : "a" = path := hcarries ⟨"a", [[1]]⟩
    (List.mem_cons_of_mem _ (List.mem_cons_self ..))
  exact absurd (hfirst.trans hsecond.symm) (by decide)

end PipelinePdt
