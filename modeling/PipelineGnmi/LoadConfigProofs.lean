import PipelineGnmi.OutputConfigProofs

/-! # Loading a configuration

    `loadConfig` of `pipeline.go`: over the sections of the file, start the
    output modules and collect their data channels, then start the input modules
    on the channels collected.  A section without a stage or a type, or of a type
    that is not known, refuses the whole file; a module whose `configure` returns
    an error is left out.

    A module that returns no error is taken at its word: what it returned as its
    data channel goes to every input.  So a nil channel is handed out exactly
    when a tap section misfires (`outputs_wired_iff`). -/

namespace PipelineLoadConfig

open PipelineMessage PipelineOutputConfig

/-- `outputNode`. -/
structure OutputNode where
  name : String
  dataChan : Option Nat
  ctrlChan : Option Nat
  deriving DecidableEq, Repr

/-- The nodes of the conductor, and the data channels for the inputs. -/
structure Conductor where
  dataChans : List (Option Nat)
  outputNodes : List (String × OutputNode)
  inputNodes : List (String × Option Nat)
  deriving DecidableEq, Repr

/-- The results of `configure` of an input module. -/
structure InputConfigured where
  err : Option GoError
  ctrlChan : Option Nat

/-- The configuration file as it was read, and the input modules by type. -/
structure Site where
  env : Env
  readConfig : Except GoError NodeConfig
  inputNodeModules : String →
    Option (NodeConfig → String → List (Option Nat) → Except Failure InputConfigured)

/-- The type of a section, if it is of this stage. -/
def sectionType (nc : NodeConfig) (stage name : String) : Except Failure (Option String) :=
  -- no default inheritance
  if name = "default" then .ok none
  else
    match nc.getString name "stage" with
    | .error err => .error (.error ("Sections require a 'stage' attribute: " ++ err ++ "\n"))
    | .ok modstage =>
        if modstage ≠ stage then .ok none
        else
          match nc.getString name "type" with
          | .error err =>
              .error (.error ("Sections require a 'type' attribute: " ++ err ++ "\n"))
          | .ok modtype => .ok (some modtype)

/-- The loop over output sections, one section. -/
def outputSection (env : Env) (nc : NodeConfig) (c : Conductor) (name : String) :
    Except Failure Conductor :=
  match sectionType nc "xport_output" name with
  | .error failure => .error failure
  | .ok none => .ok c
  | .ok (some modtype) =>
      match outputNodeModules modtype with
      | none => .error (.error
          ("Unsupported 'type' attribute for output module [" ++ modtype ++ "]\n"))
      | some m =>
          match configure env nc name m with
          | .error failure => .error failure
          | .ok ⟨some _, _, _⟩ => .ok c
          | .ok ⟨none, dataChan, ctrlChan⟩ => .ok { c with
              dataChans := c.dataChans ++ [dataChan]
              outputNodes := GoMap.set c.outputNodes name ⟨name, dataChan, ctrlChan⟩ }

/-- The loop over input sections, one section. -/
def inputSection (site : Site) (nc : NodeConfig) (c : Conductor) (name : String) :
    Except Failure Conductor :=
  match sectionType nc "xport_input" name with
  | .error failure => .error failure
  | .ok none => .ok c
  | .ok (some modtype) =>
      match site.inputNodeModules modtype with
      | none => .error (.error
          ("Unsupported 'type' attribute for input module [" ++ modtype ++ "]\n"))
      | some inputConfigure =>
          match inputConfigure nc name c.dataChans with
          | .error failure => .error failure
          | .ok ⟨some _, _⟩ => .ok c
          | .ok ⟨none, ctrlChan⟩ => .ok { c with
              inputNodes := GoMap.set c.inputNodes name ctrlChan }

/-- `loadConfig`. -/
def loadConfig (site : Site) : Except Failure Conductor :=
  match site.readConfig with
  | .error err => .error (.error err)
  | .ok nc => do
      let c ← nc.getSections.foldlM (outputSection site.env nc) ⟨[], [], []⟩
      nc.getSections.foldlM (inputSection site nc) c

/-! ## The channels handed out -/

/-- A section that configures this output module. -/
def IsOutput (nc : NodeConfig) (name : String) (m : OutputModule) : Prop :=
  ∃ modtype, sectionType nc "xport_output" name = .ok (some modtype) ∧
    outputNodeModules modtype = some m

/-- Every data channel, of the inputs and of the output nodes, is made. -/
def AllWired (c : Conductor) : Prop :=
  (∀ ch ∈ c.dataChans, ch ≠ none) ∧ ∀ e ∈ c.outputNodes, e.2.dataChan ≠ none

/-- A tap section that misfires. -/
def Misfiring (nc : NodeConfig) (name : String) : Prop :=
  IsOutput nc name .tap ∧ TapMisfires nc name

/-- The data channels are those of the output nodes at least. -/
def NodesListed (c : Conductor) : Prop :=
  ∀ e ∈ c.outputNodes, e.2.dataChan ∈ c.dataChans

variable {c c' : Conductor} {nc : NodeConfig} {name : String} {site : Site}

/-- **ONE OUTPUT SECTION** hands out a nil channel exactly when it misfires. -/
theorem outputSection_spec {env : Env} (h : outputSection env nc c name = .ok c') :
    (none ∈ c'.dataChans ↔ none ∈ c.dataChans ∨ Misfiring nc name) ∧
      (NodesListed c → NodesListed c') := by
  unfold outputSection at h
  split at h
  · exact nomatch h
  · -- not an output section
    next htype =>
      cases h
      refine ⟨⟨Or.inl, ?_⟩, id⟩
      rintro (hin | ⟨⟨modtype, htap, -⟩, -⟩)
      · exact hin
      · rw [htype] at htap
        exact nomatch htap
  · next modtype htype =>
      split at h
      · exact nomatch h
      · next m hm =>
          have hmisfiring : Misfiring nc name ↔ Silent (configure env nc name m) := by
            rw [silent_configure_iff]
            constructor
            · rintro ⟨⟨modtype', htap, hm'⟩, hmis⟩
              rw [htype] at htap
              cases htap
              rw [hm] at hm'
              exact ⟨Option.some.inj hm', hmis⟩
            · rintro ⟨rfl, hmis⟩
              exact ⟨⟨modtype, htype, hm⟩, hmis⟩
          rw [hmisfiring]
          split at h
          · exact nomatch h
          · -- refused with an error: left out
            next err _ _ hconf =>
              cases h
              refine ⟨⟨Or.inl, ?_⟩, id⟩
              rintro (hin | ⟨r, hr, herr, -⟩)
              · exact hin
              · rw [hconf] at hr
                cases hr
                exact nomatch herr
          · next dataChan ctrlChan hconf =>
              cases h
              -- accepted without an error: its channel is listed even when it is nil
              have hsilent : Silent (configure env nc name m) ↔ dataChan = none := by
                rw [hconf]
                constructor
                · rintro ⟨r, hr, -, hnil⟩
                  cases hr
                  exact hnil
                · exact fun hnil => ⟨_, rfl, rfl, hnil⟩
              refine ⟨?_, ?_⟩
              · rw [hsilent, List.mem_append, List.mem_singleton]
                exact or_congr_right eq_comm
              · intro hlisted e he
                rcases List.mem_cons.mp he with rfl | hold
                · exact List.mem_append_right _ (List.mem_singleton_self _)
                · exact List.mem_append_left _ (hlisted e (List.mem_filter.mp hold).1)

/-- The loop over output sections, by induction on the sections. -/
theorem outputSections_spec {env : Env} {nc : NodeConfig} :
    ∀ {sections : List String} {c c' : Conductor},
      sections.foldlM (outputSection env nc) c = .ok c' →
      (none ∈ c'.dataChans ↔
        none ∈ c.dataChans ∨ ∃ name ∈ sections, Misfiring nc name) ∧
      (NodesListed c → NodesListed c')
  | [], c, c', h => by
      cases h
      refine ⟨⟨Or.inl, ?_⟩, id⟩
      rintro (hin | ⟨name, hname, -⟩)
      · exact hin
      · exact nomatch hname
  | name :: rest, c, c', h => by
      rw [List.foldlM_cons] at h
      cases hone : outputSection env nc c name with
      | error failure =>
          rw [hone] at h
          exact nomatch h
      | ok mid =>
          rw [hone] at h
          obtain ⟨hnil, hlisted⟩ := outputSection_spec hone
          obtain ⟨hnil', hlisted'⟩ := outputSections_spec h
          refine ⟨?_, hlisted' ∘ hlisted⟩
          rw [hnil', hnil, or_assoc, List.exists_mem_cons_iff]

/-- Input sections add no output. -/
theorem inputSection_keeps (h : inputSection site nc c name = .ok c') :
    c'.dataChans = c.dataChans ∧ c'.outputNodes = c.outputNodes := by
  unfold inputSection at h
  split at h
  · exact nomatch h
  · cases h
    exact ⟨rfl, rfl⟩
  · split at h
    · exact nomatch h
    · split at h
      · exact nomatch h
      · cases h
        exact ⟨rfl, rfl⟩
      · cases h
        exact ⟨rfl, rfl⟩

theorem inputSections_keep {site : Site} {nc : NodeConfig} :
    ∀ {sections : List String} {c c' : Conductor},
      sections.foldlM (inputSection site nc) c = .ok c' →
      c'.dataChans = c.dataChans ∧ c'.outputNodes = c.outputNodes
  | [], c, c', h => by
      cases h
      exact ⟨rfl, rfl⟩
  | name :: rest, c, c', h => by
      rw [List.foldlM_cons] at h
      cases hone : inputSection site nc c name with
      | error failure =>
          rw [hone] at h
          exact nomatch h
      | ok mid =>
          rw [hone] at h
          obtain ⟨hchans, hnodes⟩ := inputSection_keeps hone
          obtain ⟨hchans', hnodes'⟩ := inputSections_keep h
          exact ⟨hchans'.trans hchans, hnodes'.trans hnodes⟩

/-- The channels of an accepted file are made exactly when no tap section
    misfires. -/
theorem allWired_loadConfig_iff (hread : site.readConfig = .ok nc) (h : loadConfig site = .ok c) :
    AllWired c ↔ ∀ name ∈ nc.getSections, ¬ Misfiring nc name := by
  rw [loadConfig, hread] at h
  cases houtputs : nc.getSections.foldlM (outputSection site.env nc) ⟨[], [], []⟩ with
  | error failure =>
      simp only [houtputs] at h
      exact nomatch h
  | ok mid =>
      simp only [houtputs] at h
      obtain ⟨hchans, hnodes⟩ := inputSections_keep h
      obtain ⟨hnil, hlisted⟩ := outputSections_spec houtputs
      -- inputs come second and leave the outputs as they are
      have hmid : NodesListed mid := hlisted (fun e he => nomatch he)
      have hmisfiring : none ∈ mid.dataChans ↔ ∃ name ∈ nc.getSections, Misfiring nc name := by
        rw [hnil]
        exact or_iff_right (fun hin => nomatch hin)
      rw [AllWired, hchans, hnodes]
      constructor
      · rintro ⟨hall, -⟩ name hname hmis
        exact hall none (hmisfiring.mpr ⟨name, hname, hmis⟩) rfl
      · intro hno
        have hall : ∀ ch ∈ mid.dataChans, ch ≠ none := by
          rintro ch hch rfl
          obtain ⟨name, hname, hmis⟩ := hmisfiring.mp hch
          exact hno name hname hmis
        exact ⟨hall, fun e he => hall _ (hmid e he)⟩

/-- **CONFIGURED MEANS WIRED, EXCEPT FOR THE RAW TAP**: an output section is
    refused with an error or gets its channels exactly when its options allow
    for it, and the channels of an accepted file are all made exactly when no
    tap section misfires. -/
theorem outputs_wired_iff (site : Site) :
    (∀ nc name m, Wired (configure site.env nc name m) ↔ Wires site.env nc name m) ∧
    ∀ nc c, site.readConfig = .ok nc → loadConfig site = .ok c →
      (AllWired c ↔ ∀ name ∈ nc.getSections, ¬ Misfiring nc name) :=
  ⟨wired_configure_iff site.env, fun _ _ hread h => allWired_loadConfig_iff hread h⟩

/-- Options given section by section; a number and a flag are read off their
    texts. -/
def configOf (sections : List (String × List (String × String))) : NodeConfig where
  getSections := sections.map Prod.fst
  getString name option :=
    match (GoMap.get sections name).bind (GoMap.get · option) with
    | some v => .ok v
    | none => .error "option not found"
  getInt name option :=
    match ((GoMap.get sections name).bind (GoMap.get · option)).bind String.toInt? with
    | some v => .ok v
    | none => .error "option not found"
  getBool name option :=
    match (GoMap.get sections name).bind (GoMap.get · option) with
    | some v => .ok (decide (v = "true"))
    | none => .error "option not found"

/-- No files and no inputs; only the tap can be set up. -/
def bareSite (nc : NodeConfig) : Site where
  env :=
    { readFile := fun _ => .error "no such file"
      parseTemplate := fun _ _ => .ok ()
      unmarshalSpec := fun _ => .ok []
      parseKafkaVersion := fun _ => .ok ()
      influxCredentials := fun _ _ => .ok ()
      prometheusHandler := ⟨id, id, fun _ => "", fun _ => ""⟩
      influxHandler := ⟨id, id, fun _ => "", fun _ => ""⟩
      testOutputHandler := none
      maxChanCap := 2 ^ 32 }
  readConfig := .ok nc
  inputNodeModules := fun _ => none

/-- A raw tap with an encoding. -/
def rawTapConfig : NodeConfig :=
  configOf [("default", []), ("mytap", [("stage", "xport_output"), ("type", "tap"),
    ("file", "dump.bin"), ("raw", "true"), ("encoding", "gpb")])]

/-- The file is accepted, and its inputs are given a nil channel. -/
theorem rawTap_not_wired :
    configure (bareSite rawTapConfig).env rawTapConfig "mytap" .tap = .ok ⟨none, none, none⟩ ∧
    ∃ c, loadConfig (bareSite rawTapConfig) = .ok c ∧ c.dataChans = [none] ∧
      ¬ Wired (configure (bareSite rawTapConfig).env rawTapConfig "mytap" .tap) ∧
      ¬ AllWired c := by
  refine ⟨rfl, _, rfl, rfl, ?_, ?_⟩
  · rintro ⟨r, hr, hwired⟩
    cases hr
    rcases hwired with h | h
    · exact h rfl
    · exact h.1 rfl
  · intro h
    exact h.1 none (List.mem_singleton_self _) rfl

end PipelineLoadConfig
