import PipelineGnmi.KafkaKeyProofs
import PipelineGnmi.MetricsSpecProofs
import PipelineGnmi.TapProofs

/-! # Configuring the output modules

    `configure` of the four output modules (`tap.go`, `xport_kafka.go`,
    `metrics.go`, `xport_grpc_out.go`).  Each reads its options in turn, gives up
    with `return err, nil, nil` on the first that is not usable, and otherwise
    makes its channels and starts.  What is read of the world beyond the
    configuration file is in `Env`.

    Most early returns carry the error that caused them.  The tap has two that
    return whatever the last lookup left in `err`: nil when the lookup found its
    option (`avoids_tapSettings_iff`). -/

namespace PipelineOutputConfig

open PipelineMessage PipelineDataMsg PipelineKafkaKey PipelineMetricsSpec PipelineTap

/-- What `nodeConfig` answers about a section and an option. -/
structure NodeConfig where
  getSections : List String
  getString : String → String → Except GoError String
  getInt : String → String → Except GoError Int
  getBool : String → String → Except GoError Bool

variable {α ε : Type}

/-- `v, _ := GetBool(..)`. -/
def NodeConfig.flag (nc : NodeConfig) (name option : String) : Bool :=
  match nc.getBool name option with
  | .ok v => v
  | .error _ => false

/-- `v, _ := GetString(..)`. -/
def NodeConfig.text (nc : NodeConfig) (name option : String) : String :=
  match nc.getString name option with
  | .ok v => v
  | .error _ => ""

/-- `v, err := GetString(..)`, with a default on error. -/
def NodeConfig.textOr (nc : NodeConfig) (name option default : String) : String :=
  match nc.getString name option with
  | .ok v => v
  | .error _ => default

/-- `DATACHANNELDEPTH`. -/
def dataChannelDepthDefault : Int := 1000

/-- The `datachanneldepth` of a section. -/
def NodeConfig.dataChannelDepth (nc : NodeConfig) (name : String) : Int :=
  match nc.getInt name "datachanneldepth" with
  | .ok depth => depth
  | .error _ => dataChannelDepthDefault

/-- Files, libraries and the process: the text of a file, parsing a template,
    unmarshalling a metrics specification, `sarama.ParseKafkaVersion`, collecting
    the credentials for influx, the naming sides of the handlers, the handler
    tests install, and the largest capacity `make` takes. -/
structure Env where
  readFile : String → Except GoError String
  parseTemplate : String → String → Except GoError Unit
  unmarshalSpec : String → Except GoError (List (String × SpecNode))
  parseKafkaVersion : String → Except GoError Unit
  influxCredentials : String → String → Except GoError Unit
  prometheusHandler : Handler
  influxHandler : Handler
  testOutputHandler : Option Handler
  maxChanCap : Nat

/-! ## Returning early -/

/-- How `configure` ends when it does not start its module. -/
inductive Exit where
  | returned (err : Option GoError)
  | panicked (text : String)
  deriving DecidableEq, Repr

/-- `if err != nil { return err, nil, nil }`. -/
def orReturn : Except GoError α → Except Exit α
  | .ok a => .ok a
  | .error err => .error (.returned (some err))

/-- The same after a call that may also panic. -/
def orReturnFailure : Except Failure α → Except Exit α
  | .ok a => .ok a
  | .error (.error err) => .error (.returned (some err))
  | .error (.panic text) => .error (.panicked text)

/-- A module that was started, with its channels, each by its capacity. -/
structure Started (α : Type) where
  settings : α
  dataChan : Nat
  ctrlChan : Nat

/-- Make the channels and start the module. -/
def start (env : Env) (depth : Int) (settings : α) : Except Exit (Started α) :=
  if 0 ≤ depth ∧ depth ≤ env.maxChanCap then .ok ⟨settings, depth.toNat, 0⟩
  else .error (.panicked "makechan: size out of range")

/-- The three results of `configure`, a nil channel being none. -/
structure Configured where
  err : Option GoError
  dataChan : Option Nat
  ctrlChan : Option Nat
  deriving DecidableEq, Repr

def results : Except Exit (Started α) → Except Failure Configured
  | .ok started => .ok ⟨none, some started.dataChan, some started.ctrlChan⟩
  | .error (.returned err) => .ok ⟨err, none, none⟩
  | .error (.panicked text) => .error (.panic text)

/-! ## The modules -/

/-- Read and parse a template. -/
def loadTemplate (env : Env) (name file : String) : Except GoError String := do
  let templateSpec ← env.readFile file
  env.parseTemplate name templateSpec
  pure templateSpec

/-- `dataMsgStreamSpecFromConfig`. -/
def dataMsgStreamSpecFromConfig (env : Env) (nc : NodeConfig) (name : String) :
    Except GoError DataMsgStreamSpec := do
  let encoding ← nameToEncoding (nc.textOr name "encoding" "json")
  match dataMsgStreamTypeFromEncoding encoding with
  | .template =>
      let templateFileName ← (nc.getString name "template").mapError
        (fun err => "encoding='template' requires a template option [" ++ err ++ "]")
      let templateSpec ← (env.readFile templateFileName).mapError
        (fun err => "read template file [" ++ err ++ "]")
      (env.parseTemplate name templateSpec).mapError
        (fun err => "parsing template [" ++ err ++ "]")
      pure ⟨.template, some templateSpec⟩
  | streamType => pure ⟨streamType, none⟩

/-- The two checks the tap makes of a raw dump; `err` is what the lookup of
    `datachanneldepth` left. -/
def rawDumpCheck (nc : NodeConfig) (name : String) (countOnly : Bool)
    (err : Option GoError) : Except Exit Unit :=
  if countOnly then .error (.returned err)
  else
    match nc.getString name "encoding" with
    | .ok _ => .error (.returned none)
    | .error _ => .ok ()

/-- The `err` of a lookup. -/
def lookupErr : Except GoError α → Option GoError
  | .ok _ => none
  | .error err => some err

/-- `configure` of the tap, up to its channels. -/
def tapSettings (env : Env) (nc : NodeConfig) (name : String) :
    Except Exit TapOutputModule := do
  let filename ← orReturn (nc.getString name "file")
  let err := lookupErr (nc.getInt name "datachanneldepth")
  let countOnly := nc.flag name "countonly"
  let rawDump := nc.flag name "raw"
  if rawDump then rawDumpCheck nc name countOnly err else pure ()
  let streamSpec ← orReturn (dataMsgStreamSpecFromConfig env nc name)
  pure ⟨name, filename, countOnly, rawDump, streamSpec⟩

/-- `sarama.RequiredAcks`. -/
inductive RequiredAcks where
  | noResponse
  | waitForLocal
  | waitForAll
  deriving DecidableEq, Repr

/-- The `required_acks` option; an unknown value is only logged. -/
def requiredAcksOf : Except GoError String → RequiredAcks
  | .ok "none" => .noResponse
  | .ok "local" => .waitForLocal
  | .ok "commit" => .waitForAll
  | _ => .noResponse

/-- What goes into `kafkaProducerConfig`; the topic extractor is the topic and the
    template it works from. -/
structure KafkaProducerSettings where
  name : String
  brokerList : List String
  topic : String
  topicTemplate : Option String
  keySpec : KafkaKeySpec
  streamSpec : DataMsgStreamSpec
  requiredAcks : RequiredAcks
  logData : Bool
  kafkaVersion : String

/-- `KAFKATOPICDEFAULT`. -/
def kafkaTopicDefault : String := "telemetry"

/-- The topic template, when one is configured. -/
def topicTemplateOf (env : Env) (nc : NodeConfig) (name : String) : Except Exit (Option String) :=
  match nc.getString name "topic_metadata_template" with
  | .error _ => .ok none
  | .ok file => do
      let templateSpec ← orReturn (loadTemplate env name file)
      pure (some templateSpec)

/-- `configure` of the Kafka producer, up to its channels. -/
def kafkaSettings (env : Env) (nc : NodeConfig) (name : String) :
    Except Exit KafkaProducerSettings := do
  let brokers ← orReturn (nc.getString name "brokers")
  let topicTemplate ← topicTemplateOf env nc name
  let topic := nc.textOr name "topic" kafkaTopicDefault
  let keyopt := nc.textOr name "key" ""
  let streamSpec ← orReturn (dataMsgStreamSpecFromConfig env nc name)
  let keySpec ← orReturn
    ((keyExtractionMethod keyopt).elim (.error "kafka: key not a valid value") .ok)
  let requiredAcks := requiredAcksOf (nc.getString name "required_acks")
  let kafkaVersion ← orReturn (nc.getString name "kafkaversion")
  orReturn (env.parseKafkaVersion kafkaVersion)
  pure ⟨name, splitAt ',' brokers, topic, topicTemplate, keySpec, streamSpec,
    requiredAcks, nc.flag name "logdata", kafkaVersion⟩

/-- `metricsPrometheusNew`. -/
def metricsPrometheusNew (env : Env) (nc : NodeConfig) (name : String) :
    Except GoError Handler := do
  let _pushGWAddress ← nc.getString name "pushgw"
  pure env.prometheusHandler

/-- `metricsInfluxNew`. -/
def metricsInfluxNew (env : Env) (nc : NodeConfig) (name : String) :
    Except GoError Handler := do
  let metricsfilename := nc.text name "dump"
  let influxServer := nc.text name "influx"
  if influxServer = "" ∧ metricsfilename = "" then
    throw ("attribute 'influx' required for influx metric export. "
      ++ "Specify URL of the form http://[ipv6-host%zone]:port or "
      ++ "http://influx.example.com:port. "
      ++ "Alternatively specify 'dump' option to just log points.")
  let _database ← nc.getString name "database"
  if influxServer = "" then pure env.influxHandler
  else do
    env.influxCredentials name influxServer
    pure env.influxHandler

/-- `metricsTypeMap` and the switch on it: the handler of an `output`.  Every
    value of the map has its case, so the default of the switch is not
    reached. -/
def metricsHandler (env : Env) (nc : NodeConfig) (name output : String) : Except GoError Handler :=
  match output with
  | "prometheus" => metricsPrometheusNew env nc name
  | "influx" => metricsInfluxNew env nc name
  | "test" => env.testOutputHandler.elim (.error "test metric extraction unset") .ok
  | _ => .error ("invalid 'output' [" ++ output
      ++ "], must be one of [map[influx:1 prometheus:0 test:2]]")

/-- `metricsOutputModule`. -/
structure MetricsOutputModule where
  name : String
  inputSpecFile : String
  output : String
  outputHandler : Handler
  specDB : List (String × MetricsSpecNode)
  statSensorCount : Int

/-- `configure` of the metrics extraction, up to its channels. -/
def metricsSettings (env : Env) (nc : NodeConfig) (name : String) :
    Except Exit MetricsOutputModule := do
  let inputSpecFile ← orReturn (nc.getString name "file")
  let specByteStream ← orReturn (env.readFile inputSpecFile)
  let specSet ← orReturn (env.unmarshalSpec specByteStream)
  let output ← orReturn (nc.getString name "output")
  let outputHandler ← orReturn (metricsHandler env nc name output)
  let specDB ← orReturnFailure (buildSpecDB outputHandler specSet)
  let statSensorCount := (nc.getInt name "statsensorcount").toOption.getD 0
  pure ⟨name, inputSpecFile, output, outputHandler, specDB, statSensorCount⟩

/-- `grpcOutLocalServerConfig`. -/
structure GrpcOutLocalServerConfig where
  name : String
  server : String
  streamSpec : DataMsgStreamSpec
  logData : Bool
  tls : Bool
  tlsPem : String
  tlsServername : String
  tlsKey : String

/-- `configure` of the gRPC output, up to its channels. -/
def grpcSettings (env : Env) (nc : NodeConfig) (name : String) :
    Except Exit GrpcOutLocalServerConfig := do
  let server ← orReturn (nc.getString name "listen")
  let streamSpec ← orReturn (dataMsgStreamSpecFromConfig env nc name)
  pure ⟨name, server, streamSpec, nc.flag name "logdata", nc.flag name "tls",
    nc.text name "tls_pem", nc.text name "tls_servername", nc.text name "tls_key"⟩

/-- `outputNodeModules`. -/
inductive OutputModule where
  | kafka
  | tap
  | metrics
  | grpc
  deriving DecidableEq, Repr

def outputNodeModules : String → Option OutputModule
  | "kafka" => some .kafka
  | "tap" => some .tap
  | "metrics" => some .metrics
  | "grpc" => some .grpc
  | _ => none

/-- `configure`. -/
def configure (env : Env) (nc : NodeConfig) (name : String) :
    OutputModule → Except Failure Configured
  | .kafka => results (kafkaSettings env nc name >>= start env (nc.dataChannelDepth name))
  | .tap => results (tapSettings env nc name >>= start env (nc.dataChannelDepth name))
  | .metrics => results (metricsSettings env nc name >>= start env (nc.dataChannelDepth name))
  | .grpc => results (grpcSettings env nc name >>= start env (nc.dataChannelDepth name))

/-! ## How the modules can end early -/

/-- No bad end comes of the call. -/
def Avoids (bad : Exit → Prop) (r : Except Exit α) : Prop :=
  ∀ exit, r = .error exit → ¬ bad exit

variable {bad : Exit → Prop}

variable {β : Type} {a : α} (r : Except Exit (Started α)) (env : Env) (nc : NodeConfig)
  (name : String) (m : OutputModule)

/-- Steps in sequence, as far as they are come to. -/
theorem avoids_bind_iff {r : Except Exit α} {f : α → Except Exit β} :
    Avoids bad (r >>= f) ↔ Avoids bad r ∧ ∀ a, r = .ok a → Avoids bad (f a) := by
  cases r with
  | error exit =>
      constructor
      · intro h
        refine ⟨?_, fun a ha => nomatch ha⟩
        intro e he
        cases he
        exact h exit rfl
      · intro h e he
        cases he
        exact h.1 exit rfl
  | ok a =>
      constructor
      · intro h
        refine ⟨fun e he => (nomatch he), ?_⟩
        intro a' ha
        cases ha
        exact h
      · intro h
        exact h.2 a rfl

theorem avoids_ok (a : α) : Avoids bad (.ok a : Except Exit α) :=
  fun _ h => nomatch h

theorem avoids_error_iff {exit : Exit} : Avoids bad (.error exit : Except Exit α) ↔ ¬ bad exit := by
  constructor
  · exact fun h => h exit rfl
  · intro h e he
    cases he
    exact h

/-- The capacity asked for is one `make` takes. -/
def DepthOk (env : Env) (nc : NodeConfig) (name : String) : Prop :=
  0 ≤ nc.dataChannelDepth name ∧ nc.dataChannelDepth name ≤ env.maxChanCap

/-- The tap is asked for a raw dump that it refuses without an error: one that
    only counts, with a readable depth, or one with an encoding. -/
def TapMisfires (nc : NodeConfig) (name : String) : Prop :=
  (∃ file, nc.getString name "file" = .ok file) ∧ nc.flag name "raw" = true ∧
    ((nc.flag name "countonly" = true ∧
        ∃ depth, nc.getInt name "datachanneldepth" = .ok depth) ∨
      (nc.flag name "countonly" = false ∧
        ∃ encoding, nc.getString name "encoding" = .ok encoding))

/-- Building the metrics specification comes to a null node. -/
def SpecPanics (env : Env) (nc : NodeConfig) (name text : String) : Prop :=
  ∃ file bytes specSet output handler,
    nc.getString name "file" = .ok file ∧ env.readFile file = .ok bytes ∧
    env.unmarshalSpec bytes = .ok specSet ∧ nc.getString name "output" = .ok output ∧
    metricsHandler env nc name output = .ok handler ∧
    buildSpecDB handler specSet = .error (.panic text)

/-! ## The options the modules need -/

/-- The call has a result. -/
def Given (x : Except ε α) : Prop := ∃ a, x = .ok a

theorem given_ok (a : α) : Given (.ok a : Except ε α) := ⟨a, rfl⟩

theorem not_given_error (err : ε) : ¬ Given (.error err : Except ε α) := by
  rintro ⟨a, ha⟩
  exact nomatch ha

theorem given_bind_iff {x : Except ε α} {f : α → Except ε β} :
    Given (x >>= f) ↔ ∃ a, x = .ok a ∧ Given (f a) := by
  cases x with
  | error err =>
      refine iff_of_false (not_given_error err) ?_
      rintro ⟨a, ha, -⟩
      exact nomatch ha
  | ok a =>
      constructor
      · exact fun h => ⟨a, rfl, h⟩
      · rintro ⟨a', ha, h⟩
        cases ha
        exact h

theorem orReturn_eq_ok_iff {x : Except GoError α} : orReturn x = .ok a ↔ x = .ok a := by
  cases x with
  | error err => exact ⟨fun h => (nomatch h), fun h => nomatch h⟩
  | ok a' =>
      constructor
      · intro h
        cases h
        rfl
      · intro h
        cases h
        rfl

theorem orReturnFailure_eq_ok_iff {x : Except Failure α} :
    orReturnFailure x = .ok a ↔ x = .ok a := by
  rcases x with (err | text) | a'
  · exact ⟨fun h => (nomatch h), fun h => nomatch h⟩
  · exact ⟨fun h => (nomatch h), fun h => nomatch h⟩
  · constructor
    · intro h
      cases h
      rfl
    · intro h
      cases h
      rfl

/-- The options a module needs before it makes its channels. -/
def Complete (env : Env) (nc : NodeConfig) (name : String) : OutputModule → Prop
  | .kafka => Given (nc.getString name "brokers") ∧
      (∀ file, nc.getString name "topic_metadata_template" = .ok file →
        Given (loadTemplate env name file)) ∧
      Given (dataMsgStreamSpecFromConfig env nc name) ∧
      keyExtractionMethod (nc.textOr name "key" "") ≠ none ∧
      ∃ version, nc.getString name "kafkaversion" = .ok version ∧
        Given (env.parseKafkaVersion version)
  | .tap => Given (nc.getString name "file") ∧
      (nc.flag name "raw" = true → nc.flag name "countonly" = false ∧
        ¬ Given (nc.getString name "encoding")) ∧
      Given (dataMsgStreamSpecFromConfig env nc name)
  | .metrics => ∃ file bytes specSet output handler,
      nc.getString name "file" = .ok file ∧ env.readFile file = .ok bytes ∧
      env.unmarshalSpec bytes = .ok specSet ∧ nc.getString name "output" = .ok output ∧
      metricsHandler env nc name output = .ok handler ∧ Given (buildSpecDB handler specSet)
  | .grpc => Given (nc.getString name "listen") ∧
      Given (dataMsgStreamSpecFromConfig env nc name)

theorem given_topicTemplateOf_iff :
    Given (topicTemplateOf env nc name) ↔
      ∀ file, nc.getString name "topic_metadata_template" = .ok file →
        Given (loadTemplate env name file) := by
  unfold topicTemplateOf
  cases nc.getString name "topic_metadata_template" with
  | error err => exact ⟨fun _ _ h => (nomatch h), fun _ => given_ok none⟩
  | ok file =>
      rw [given_bind_iff]
      constructor
      · rintro ⟨templateSpec, hload, -⟩ file' hfile
        cases hfile
        exact ⟨templateSpec, orReturn_eq_ok_iff.mp hload⟩
      · intro h
        obtain ⟨templateSpec, hload⟩ := h file rfl
        exact ⟨templateSpec, orReturn_eq_ok_iff.mpr hload, given_ok _⟩

theorem given_kafkaSettings_iff :
    Given (kafkaSettings env nc name) ↔ Complete env nc name .kafka := by
  have hkey : ∀ k, (keyExtractionMethod (nc.textOr name "key" "")).elim
      (.error "kafka: key not a valid value") .ok = (.ok k : Except GoError KafkaKeySpec) ↔
        keyExtractionMethod (nc.textOr name "key" "") = some k := by
    intro k
    cases keyExtractionMethod (nc.textOr name "key" "") with
    | none => exact ⟨fun h => (nomatch h), fun h => nomatch h⟩
    | some k' =>
        constructor
        · intro h
          cases h
          rfl
        · intro h
          cases h
          rfl
  unfold kafkaSettings
  simp only [given_bind_iff, orReturn_eq_ok_iff, hkey]
  constructor
  · rintro ⟨brokers, hbrokers, template, htemplate, spec, hspec, k, hk, version, hversion,
      u, hparse, -⟩
    refine ⟨⟨brokers, hbrokers⟩, (given_topicTemplateOf_iff env nc name).mp ⟨_, htemplate⟩,
      ⟨spec, hspec⟩, ?_, version, hversion, ⟨_, hparse⟩⟩
    rw [hk]
    exact fun h => nomatch h
  · rintro ⟨⟨brokers, hbrokers⟩, htemplate, ⟨spec, hspec⟩, hkeyopt, version, hversion,
      ⟨_, hparse⟩⟩
    obtain ⟨template, ht⟩ := (given_topicTemplateOf_iff env nc name).mpr htemplate
    obtain ⟨k, hk⟩ := Option.ne_none_iff_exists'.mp hkeyopt
    exact ⟨brokers, hbrokers, template, ht, spec, hspec, k, hk, version, hversion, _, hparse,
      given_ok _⟩

theorem given_grpcSettings_iff : Given (grpcSettings env nc name) ↔ Complete env nc name .grpc := by
  unfold grpcSettings
  simp only [given_bind_iff, orReturn_eq_ok_iff]
  constructor
  · rintro ⟨server, hserver, spec, hspec, -⟩
    exact ⟨⟨server, hserver⟩, ⟨spec, hspec⟩⟩
  · rintro ⟨⟨server, hserver⟩, ⟨spec, hspec⟩⟩
    exact ⟨server, hserver, spec, hspec, given_ok _⟩

theorem given_metricsSettings_iff :
    Given (metricsSettings env nc name) ↔ Complete env nc name .metrics := by
  unfold metricsSettings
  simp only [given_bind_iff, orReturn_eq_ok_iff, orReturnFailure_eq_ok_iff]
  constructor
  · rintro ⟨file, hf, bytes, hb, specSet, hs, output, ho, handler, hh, db, hdb, -⟩
    exact ⟨file, bytes, specSet, output, handler, hf, hb, hs, ho, hh, ⟨db, hdb⟩⟩
  · rintro ⟨file, bytes, specSet, output, handler, hf, hb, hs, ho, hh, ⟨db, hdb⟩⟩
    exact ⟨file, hf, bytes, hb, specSet, hs, output, ho, handler, hh, db, hdb, given_ok _⟩

theorem given_tapSettings_iff : Given (tapSettings env nc name) ↔ Complete env nc name .tap := by
  have hcheck : ∀ (countOnly : Bool) (err : Option GoError),
      Given (rawDumpCheck nc name countOnly err) ↔
        countOnly = false ∧ ¬ Given (nc.getString name "encoding") := by
    intro countOnly err
    unfold rawDumpCheck
    cases countOnly with
    | true =>
        rw [if_pos rfl]
        exact iff_of_false (not_given_error _) (fun h => nomatch h.1)
    | false =>
        rw [if_neg Bool.false_ne_true]
        cases nc.getString name "encoding" with
        | ok encoding =>
            exact iff_of_false (not_given_error _) (fun h => h.2 (given_ok encoding))
        | error err => exact iff_of_true (given_ok ()) ⟨rfl, not_given_error err⟩
  -- both branches of the raw flag go on with the stream specification
  have hrest : ∀ (filename : String) (rawDump : Bool), Given (do
      let streamSpec ← orReturn (dataMsgStreamSpecFromConfig env nc name)
      pure (⟨name, filename, nc.flag name "countonly", rawDump, streamSpec⟩ :
        TapOutputModule)) ↔ Given (dataMsgStreamSpecFromConfig env nc name) := by
    intro filename rawDump
    rw [given_bind_iff]
    constructor
    · rintro ⟨spec, hspec, -⟩
      exact ⟨spec, orReturn_eq_ok_iff.mp hspec⟩
    · rintro ⟨spec, hspec⟩
      exact ⟨spec, orReturn_eq_ok_iff.mpr hspec, given_ok _⟩
  unfold tapSettings Complete
  rw [given_bind_iff]
  cases hraw : nc.flag name "raw" with
  | false =>
      constructor
      · rintro ⟨filename, hfile, h⟩
        exact ⟨⟨filename, orReturn_eq_ok_iff.mp hfile⟩, fun h => (nomatch h),
          (hrest filename false).mp h⟩
      · rintro ⟨⟨filename, hfile⟩, -, h⟩
        exact ⟨filename, orReturn_eq_ok_iff.mpr hfile, (hrest filename false).mpr h⟩
  | true =>
      constructor
      · rintro ⟨filename, hfile, h⟩
        obtain ⟨u, hu, h⟩ := given_bind_iff.mp h
        exact ⟨⟨filename, orReturn_eq_ok_iff.mp hfile⟩, fun _ => (hcheck _ _).mp ⟨u, hu⟩,
          (hrest filename true).mp h⟩
      · rintro ⟨⟨filename, hfile⟩, hraw', h⟩
        obtain ⟨u, hu⟩ := (hcheck (nc.flag name "countonly")
          (lookupErr (nc.getInt name "datachanneldepth"))).mpr (hraw' rfl)
        exact ⟨filename, orReturn_eq_ok_iff.mpr hfile,
          given_bind_iff.mpr ⟨u, hu, (hrest filename true).mpr h⟩⟩

/-! ## How the options lead to a bad end -/

section Settings

-- returning an error is never bad
variable {bad : Exit → Prop} (hbad : ∀ err, ¬ bad (.returned (some err)))
include hbad

/-- A lookup whose error is returned, in front of the rest. -/
theorem avoids_orReturn_bind_iff {β : Type} {x : Except GoError α} {f : α → Except Exit β} :
    Avoids bad (orReturn x >>= f) ↔ ∀ a, x = .ok a → Avoids bad (f a) := by
  rw [avoids_bind_iff]
  cases x with
  | error err =>
      constructor
      · exact fun _ a ha => nomatch ha
      · exact fun _ => ⟨avoids_error_iff.mpr (hbad err), fun a ha => nomatch ha⟩
  | ok a =>
      constructor
      · intro h a' ha
        cases ha
        exact h.2 a rfl
      · intro h
        refine ⟨avoids_ok a, ?_⟩
        intro a' ha
        cases ha
        exact h a rfl

variable (env : Env) (nc : NodeConfig) (name : String)

/-- The checks of a raw dump: the first returns the error of another lookup, the
    second is taken when there is none. -/
theorem avoids_rawDumpCheck_iff (countOnly : Bool) :
    Avoids bad
        (rawDumpCheck nc name countOnly (lookupErr (nc.getInt name "datachanneldepth"))) ↔
      ((countOnly = true ∧ ∃ depth, nc.getInt name "datachanneldepth" = .ok depth) ∨
        (countOnly = false ∧ ∃ encoding, nc.getString name "encoding" = .ok encoding) →
        ¬ bad (.returned none)) := by
  cases countOnly with
  | true =>
      rw [rawDumpCheck, if_pos rfl, avoids_error_iff]
      cases hdepth : nc.getInt name "datachanneldepth" with
      -- this lookup succeeded, so the error the branch returns is nil
      | ok depth => exact ⟨fun h _ => h, fun h => h (Or.inl ⟨rfl, depth, rfl⟩)⟩
      | error err =>
          refine ⟨?_, fun _ => hbad err⟩
          rintro - (⟨-, depth, h⟩ | ⟨h, -⟩)
          · exact nomatch h
          · exact nomatch h
  | false =>
      rw [rawDumpCheck, if_neg Bool.false_ne_true]
      cases hencoding : nc.getString name "encoding" with
      | ok encoding =>
          exact ⟨fun h _ => avoids_error_iff.mp h,
            fun h => avoids_error_iff.mpr (h (Or.inr ⟨rfl, encoding, rfl⟩))⟩
      | error err =>
          refine ⟨?_, fun _ => avoids_ok ()⟩
          rintro - (⟨h, -⟩ | ⟨-, encoding, h⟩)
          · exact nomatch h
          · exact nomatch h

/-- **THE TAP'S NIL RETURN** is taken exactly by the raw dumps it misfires on. -/
theorem avoids_tapSettings_iff :
    Avoids bad (tapSettings env nc name) ↔
      (TapMisfires nc name → ¬ bad (.returned none)) := by
  have hrest : ∀ (filename : String) (rawDump : Bool), Avoids bad (do
      let streamSpec ← orReturn (dataMsgStreamSpecFromConfig env nc name)
      pure (⟨name, filename, nc.flag name "countonly", rawDump, streamSpec⟩ :
        TapOutputModule)) := by
    intro filename rawDump
    exact (avoids_orReturn_bind_iff hbad).mpr (fun _ _ => avoids_ok _)
  unfold tapSettings TapMisfires
  rw [avoids_orReturn_bind_iff hbad]
  cases hraw : nc.flag name "raw" with
  | false =>
      constructor
      · rintro - ⟨-, h, -⟩
        exact nomatch h
      · exact fun _ filename _ => hrest filename false
  | true =>
      have hcheck := avoids_rawDumpCheck_iff hbad nc name (nc.flag name "countonly")
      constructor
      · rintro h ⟨⟨file, hfile⟩, -, hmis⟩
        exact hcheck.mp (avoids_bind_iff.mp (h file hfile)).1 hmis
      · intro h filename hfile
        refine avoids_bind_iff.mpr ⟨?_, fun _ _ => hrest filename true⟩
        exact hcheck.mpr (fun hmis => h ⟨⟨filename, hfile⟩, rfl, hmis⟩)

/-- The Kafka producer refuses with an error. -/
theorem avoids_kafkaSettings : Avoids bad (kafkaSettings env nc name) := by
  have htemplate : Avoids bad (topicTemplateOf env nc name) := by
    unfold topicTemplateOf
    split
    · exact avoids_ok _
    · exact (avoids_orReturn_bind_iff hbad).mpr (fun _ _ => avoids_ok _)
  unfold kafkaSettings
  refine (avoids_orReturn_bind_iff hbad).mpr (fun brokers _ => ?_)
  refine avoids_bind_iff.mpr ⟨htemplate, fun topicTemplate _ => ?_⟩
  refine (avoids_orReturn_bind_iff hbad).mpr (fun streamSpec _ => ?_)
  refine (avoids_orReturn_bind_iff hbad).mpr (fun keySpec _ => ?_)
  refine (avoids_orReturn_bind_iff hbad).mpr (fun kafkaVersion _ => ?_)
  exact (avoids_orReturn_bind_iff hbad).mpr (fun _ _ => avoids_ok _)

/-- The gRPC output refuses with an error. -/
theorem avoids_grpcSettings : Avoids bad (grpcSettings env nc name) := by
  unfold grpcSettings
  refine (avoids_orReturn_bind_iff hbad).mpr (fun server _ => ?_)
  exact (avoids_orReturn_bind_iff hbad).mpr (fun _ _ => avoids_ok _)

theorem avoids_orReturnFailure_iff (r : Except Failure α) :
    Avoids bad (orReturnFailure r) ↔
      ∀ text, r = .error (.panic text) → ¬ bad (.panicked text) := by
  rcases r with (err | text) | a
  · exact ⟨fun _ _ h => (nomatch h), fun _ => avoids_error_iff.mpr (hbad err)⟩
  · constructor
    · intro h text' ht
      cases ht
      exact avoids_error_iff.mp h
    · exact fun h => avoids_error_iff.mpr (h text rfl)
  · exact ⟨fun _ _ h => (nomatch h), fun _ => avoids_ok a⟩

/-- The metrics extraction refuses with an error, unless it panics over its
    specification. -/
theorem avoids_metricsSettings_iff :
    Avoids bad (metricsSettings env nc name) ↔
      ∀ text, SpecPanics env nc name text → ¬ bad (.panicked text) := by
  unfold metricsSettings SpecPanics
  simp only [avoids_orReturn_bind_iff hbad, avoids_bind_iff,
    avoids_orReturnFailure_iff hbad]
  constructor
  · rintro h text ⟨file, bytes, specSet, output, handler, hf, hb, hs, ho, hh, hpanic⟩
    exact (h file hf bytes hb specSet hs output ho handler hh).1 text hpanic
  · intro h file hf bytes hb specSet hs output ho handler hh
    refine ⟨?_, fun _ _ => avoids_ok _⟩
    intro text hpanic
    exact h text ⟨file, bytes, specSet, output, handler, hf, hb, hs, ho, hh, hpanic⟩

end Settings

/-! ## Error or channels -/

/-- The call returned an error, or both channels. -/
def Wired (r : Except Failure Configured) : Prop :=
  ∃ c, r = .ok c ∧ (c.err ≠ none ∨ (c.dataChan ≠ none ∧ c.ctrlChan ≠ none))

/-- The call returned neither an error nor a data channel. -/
def Silent (r : Except Failure Configured) : Prop :=
  ∃ c, r = .ok c ∧ c.err = none ∧ c.dataChan = none

/-- An end without an error returned. -/
def NoError (exit : Exit) : Prop := ∀ err, exit ≠ .returned (some err)

theorem wired_results_iff : Wired (results r) ↔ Avoids NoError r := by
  rcases r with (err | text) | started
  · rw [avoids_error_iff]
    cases err with
    | none =>
        constructor
        · rintro ⟨c, hc, hwired⟩ -
          cases hc
          rcases hwired with h | h
          · exact h rfl
          · exact h.1 rfl
        · exact fun h => absurd (fun err he => nomatch he) h
    | some err =>
        constructor
        · exact fun _ h => h err rfl
        · exact fun _ => ⟨_, rfl, Or.inl (fun h => nomatch h)⟩
  · rw [avoids_error_iff]
    constructor
    · rintro ⟨c, hc, -⟩
      exact nomatch hc
    · exact fun h => absurd (fun err he => nomatch he) h
  · constructor
    · exact fun _ => avoids_ok started
    · exact fun _ => ⟨_, rfl, Or.inr ⟨fun h => (nomatch h), fun h => nomatch h⟩⟩

theorem silent_results_iff : Silent (results r) ↔ ¬ Avoids (· = .returned none) r := by
  rcases r with (err | text) | started
  · rw [avoids_error_iff, not_not]
    constructor
    · rintro ⟨c, hc, herr, -⟩
      cases hc
      exact congrArg Exit.returned herr
    · intro h
      cases h
      exact ⟨_, rfl, rfl, rfl⟩
  · rw [avoids_error_iff]
    constructor
    · rintro ⟨c, hc, -⟩
      exact nomatch hc
    · exact fun h => absurd (fun he => nomatch he) h
  · constructor
    · rintro ⟨c, hc, -, hnil⟩
      cases hc
      exact nomatch hnil
    · exact fun h => absurd (avoids_ok started) h

/-- The settings, then the channels. -/
theorem avoids_module_iff {env : Env} {nc : NodeConfig} {name : String} {settings : Except Exit α} :
    Avoids bad (settings >>= start env (nc.dataChannelDepth name)) ↔
      Avoids bad settings ∧ (bad (.panicked "makechan: size out of range") →
        Given settings → DepthOk env nc name) := by
  rw [avoids_bind_iff]
  refine and_congr_right (fun _ => ?_)
  unfold start
  -- `make` comes last, so its panic needs complete settings
  by_cases hdepth : DepthOk env nc name
  · simp only [if_pos (show _ ∧ _ from hdepth)]
    exact ⟨fun _ _ _ => hdepth, fun _ s _ => avoids_ok _⟩
  · simp only [if_neg (show ¬ (_ ∧ _) from hdepth), avoids_error_iff]
    constructor
    · rintro h hb ⟨s, hs⟩
      exact absurd hb (h s hs)
    · exact fun h s hs hb => hdepth (h hb ⟨s, hs⟩)

/-- What the options of a section have to be like: with a depth that `make`
    takes, if the options are complete otherwise; for the tap no misfiring raw
    dump, and for the metrics no null node. -/
structure Wires (env : Env) (nc : NodeConfig) (name : String) (m : OutputModule) : Prop where
  depth : Complete env nc name m → DepthOk env nc name
  raw : m = .tap → ¬ TapMisfires nc name
  spec : m = .metrics → ∀ text, ¬ SpecPanics env nc name text

/-- **ERROR OR CHANNELS**, module by module. -/
theorem wired_configure_iff : Wired (configure env nc name m) ↔ Wires env nc name m := by
  have hbad : ∀ err, ¬ NoError (.returned (some err)) := fun err h => h err rfl
  have hpanic : ∀ text, NoError (.panicked text) := fun _ _ he => nomatch he
  have hnil : NoError (.returned none) := fun _ he => nomatch he
  -- an oversized channel is a panic, which counts as bad here
  have hdepth : ∀ P : Prop, (NoError (.panicked "makechan: size out of range") → P) ↔ P :=
    fun P => ⟨fun h => h (hpanic _), fun h _ => h⟩
  cases m with
  | kafka =>
      rw [configure, wired_results_iff, avoids_module_iff, hdepth, given_kafkaSettings_iff]
      constructor
      · exact fun h => ⟨h.2, fun he => (nomatch he), fun he => nomatch he⟩
      · exact fun h => ⟨avoids_kafkaSettings hbad env nc name, h.depth⟩
  | tap =>
      rw [configure, wired_results_iff, avoids_module_iff, hdepth, given_tapSettings_iff,
        avoids_tapSettings_iff hbad]
      constructor
      · exact fun h => ⟨h.2, fun _ hm => h.1 hm hnil, fun he => nomatch he⟩
      · exact fun h => ⟨fun hm => absurd hm (h.raw rfl), h.depth⟩
  | metrics =>
      rw [configure, wired_results_iff, avoids_module_iff, hdepth,
        given_metricsSettings_iff, avoids_metricsSettings_iff hbad]
      constructor
      · exact fun h => ⟨h.2, fun he => (nomatch he), fun _ t ht => h.1 t ht (hpanic t)⟩
      · exact fun h => ⟨fun t ht => absurd ht (h.spec rfl t), h.depth⟩
  | grpc =>
      rw [configure, wired_results_iff, avoids_module_iff, hdepth, given_grpcSettings_iff]
      constructor
      · exact fun h => ⟨h.2, fun he => (nomatch he), fun he => nomatch he⟩
      · exact fun h => ⟨avoids_grpcSettings hbad env nc name, h.depth⟩

/-- **ONLY THE TAP IS SILENT**, and only over a misfiring raw dump. -/
theorem silent_configure_iff :
    Silent (configure env nc name m) ↔ m = .tap ∧ TapMisfires nc name := by
  have hbad : ∀ err, ¬ (.returned (some err) : Exit) = .returned none := fun _ h => nomatch h
  have hpanic : ∀ text, ¬ (.panicked text : Exit) = .returned none := fun _ h => nomatch h
  -- a panic is not silent, so the channels do not matter
  have hmodule : ∀ {α : Type} (settings : Except Exit α),
      Silent (results (settings >>= start env (nc.dataChannelDepth name))) ↔
        ¬ Avoids (· = .returned none) settings := by
    intro α settings
    rw [silent_results_iff, avoids_module_iff]
    exact not_congr (and_iff_left (fun h => absurd h (hpanic _)))
  cases m with
  | kafka =>
      rw [configure, hmodule]
      exact iff_of_false (not_not.mpr (avoids_kafkaSettings hbad env nc name))
        (fun h => nomatch h.1)
  | tap =>
      rw [configure, hmodule, avoids_tapSettings_iff hbad]
      constructor
      · intro h
        by_contra hno
        exact h (fun hm => absurd ⟨rfl, hm⟩ hno)
      · exact fun h havoid => havoid h.2 rfl
  | metrics =>
      rw [configure, hmodule, avoids_metricsSettings_iff hbad]
      exact iff_of_false (not_not.mpr (fun t _ => hpanic t)) (fun h => nomatch h.1)
  | grpc =>
      rw [configure, hmodule]
      exact iff_of_false (not_not.mpr (avoids_grpcSettings hbad env nc name))
        (fun h => nomatch h.1)

end PipelineOutputConfig
