import PipelineGnmi.CryptProofs
import PipelineGnmi.LoadConfigProofs
import PipelineGnmi.ShutdownProofs

/-! # Configuring the input modules

    `configure` of the six input modules, and what becomes of the process that
    `loadConfig` starts from a file.

    The options of a section are checked one by one, and some settings get past the
    checks that the module cannot work with: the gRPC and Kafka inputs take any name
    of an encoding, and find out that there is no codec for it, or nothing to ask a
    router for, when they are running.  They then return, and nobody is there to
    answer SHUTDOWN (`loaded_stops_iff`). -/

namespace PipelineInputConfig

open PipelineMessage PipelineDataMsg PipelineKafkaKey PipelineOutputConfig PipelineLoadConfig
open PipelineCrypt PipelineNodes PipelineShutdown
open PipelineGrpcSupervisor (GrpcConfig mapEncapToGRPCEncode)
open PipelineKafkaConsumer (KafkaConsumerConfig)
open PipelineReplay (ReplayInputModule)

/-! ## The modules -/

/-- The process the modules are configured in: what it reads beyond the options, and
    the user at the terminal, who does answer in the end. -/
structure Host (Key : Type) where
  env : Env
  resolveUDPAddr : String → Except GoError Unit
  listenTCP : String → Except GoError Unit
  crypt : CryptEnv Key
  flags : Flags
  random : String → Nat
  attempts : String → List Attempt
  answers : ∀ name, (cryptCollect (attempts name)).isSome = true
  reqID : String → Int64
  getOptions : NodeConfig → String → List String
  getFloat64 : NodeConfig → String → String → Except GoError UInt64

/-- `handleConfig` returns. -/
theorem handleConfig_isSome {Key : Type} (host : Host Key) (nc : NodeConfig) (name : String) :
    (handleConfig host.crypt (host.random name) host.flags (host.attempts name) nc name).isSome
      = true := by
  unfold handleConfig
  split
  · rfl
  · rw [Option.isSome_map]
    exact host.answers name

/-- What `handleConfig` makes of a section. -/
def credentials {Key : Type} (host : Host Key) (nc : NodeConfig) (name : String) :
    Except GoError UserPasswordCollector :=
  ((handleConfig host.crypt (host.random name) host.flags (host.attempts name) nc name).get
    (handleConfig_isSome host nc name)).result

/-- `v, _ := GetInt(..)`. -/
def intOption (nc : NodeConfig) (name option : String) : Int :=
  (nc.getInt name option).toOption.getD 0

/-- `serverUDP`, as it is set up. -/
structure UdpSettings where
  name : String
  bindpoint : String
  encap : String
  logData : Bool
  rxBuf : Int

/-- `configure` of the UDP input. -/
def udpSettings {Key : Type} (host : Host Key) (nc : NodeConfig) (name : String) :
    Except GoError UdpSettings := do
  let listen ← nc.getString name "listen"
  host.resolveUDPAddr listen
  pure ⟨name, listen, nc.textOr name "encap" "st", nc.flag name "logdata",
    intOption nc name "rxbuf"⟩

/-- `serverTCP`, as it is set up. -/
structure TcpSettings where
  name : String
  bindpoint : String
  encap : String
  logData : Bool
  keepalive : Int

/-- `configure` of the TCP input, with `addTCPServer`. -/
def tcpSettings {Key : Type} (host : Host Key) (nc : NodeConfig) (name : String) :
    Except GoError TcpSettings := do
  let listen ← nc.getString name "listen"
  host.listenTCP listen
  pure ⟨name, listen, nc.textOr name "encap" "st", nc.flag name "logdata",
    intOption nc name "keepalive_seconds"⟩

/-- `kafkaConsumerConfig`, with what only the library reads of it. -/
structure KafkaConsumerSettings where
  consumer : KafkaConsumerConfig
  topic : String
  consumerGroup : String
  brokerList : List String
  kafkaVersion : String

/-- The `encoding` of a Kafka input, JSON if there is none. -/
def consumerEncoding (nc : NodeConfig) (name : String) : Except GoError Encoding :=
  match nc.getString name "encoding" with
  | .error _ => .ok .json
  | .ok encodingopt => nameToEncoding encodingopt

/-- `configure` of the Kafka input. -/
def kafkaInputSettings {Key : Type} (host : Host Key) (nc : NodeConfig) (name : String) :
    Except GoError KafkaConsumerSettings := do
  let brokers ← nc.getString name "brokers"
  let consumerGroup ← nc.getString name "consumergroup"
  let enc ← consumerEncoding nc name
  let rawKafkaVersion ← nc.getString name "kafkaversion"
  host.env.parseKafkaVersion rawKafkaVersion
  let keySpec ← (keyExtractionMethod (nc.textOr name "key" "")).elim
    (.error "kafka: key not a valid value") .ok
  pure ⟨⟨name, keySpec, enc, nc.flag name "logdata"⟩, nc.textOr name "topic" kafkaTopicDefault,
    consumerGroup, splitAt ',' brokers, rawKafkaVersion⟩

/-- `unicode.IsSpace`. -/
def isSpace (c : Char) : Bool :=
  let n := c.toNat
  (9 ≤ n && n ≤ 13) || n == 0x20 || n == 0x85 || n == 0xa0 || n == 0x1680 ||
    (0x2000 ≤ n && n ≤ 0x200a) || n == 0x2028 || n == 0x2029 || n == 0x202f || n == 0x205f ||
    n == 0x3000

/-- `strings.TrimSpace`. -/
def trimSpace (s : String) : String :=
  String.ofList (((s.toList.dropWhile isSpace).reverse.dropWhile isSpace).reverse)

/-- `extractSubscriptions`. -/
def extractSubscriptions (subcfg : String) : List String := (splitAt ',' subcfg).map trimSpace

/-- `grpcRemoteServer` and `grpcLocalServer`. -/
inductive GrpcServer where
  | remote (server : String) (subscriptions : List String) (reqID : Int64)
      (auth : UserPasswordCollector)
  | onHost (server : String)

/-- `grpcBlock`, as it is set up. -/
structure GrpcInputSettings where
  name : String
  server : GrpcServer
  encap : Encoding
  encodingRequest : Encoding
  logData : Bool
  tls : Bool
  tlsPem : String
  tlsServername : String
  tlsKey : String

/-- The `encap` of a gRPC input. -/
def encapOption (nc : NodeConfig) (name : String) : String :=
  if nc.text name "encap" = "" then "gpb" else nc.text name "encap"

/-- The `encoding` a dialin input asks for. -/
def encodingOption (nc : NodeConfig) (name : String) : String :=
  let encoding := nc.text name "encoding"
  if encoding = "" then "gpbkv" else if encoding = "gpb" then "gpbcompact" else encoding

/-- `configureRemoteServer`. -/
def configureRemoteServer {Key : Type} (host : Host Key) (nc : NodeConfig)
    (name serverSockAddr : String) : Except GoError GrpcServer := do
  let subcfg ← nc.getString name "subscriptions"
  let auth ← credentials host nc name
  pure (.remote serverSockAddr (extractSubscriptions subcfg) (host.reqID name) auth)

/-- The server of a gRPC input and the encoding to ask for; dialout asks for none, and
    leaves the first of them all there is. -/
def grpcServer {Key : Type} (host : Host Key) (nc : NodeConfig) (name : String) :
    Except GoError (GrpcServer × Encoding) :=
  match nc.getString name "server" with
  | .ok serverSockAddr =>
      if encapOption nc name ≠ "gpb" ∧ encapOption nc name ≠ encodingOption nc name then
        .error "grpc misconfiguration, 'encap' and 'encoding' do not match"
      else do
        let encodingRequest ← nameToEncoding (encodingOption nc name)
        let server ← configureRemoteServer host nc name serverSockAddr
        pure (server, encodingRequest)
  | .error _ =>
      match nc.getString name "listen" with
      | .ok serverSockAddr => .ok (.onHost serverSockAddr, .gpbCompact)
      | .error _ => .error ("attribute 'server' (dialin - pipeline2router connection) or  "
          ++ "'listen' (dialout - router2pipeline connection)  must be "
          ++ "specified for gRPC client")

/-- `configure` of the gRPC input. -/
def grpcInputSettings {Key : Type} (host : Host Key) (nc : NodeConfig) (name : String) :
    Except GoError GrpcInputSettings := do
  let (server, encodingRequest) ← grpcServer host nc name
  let streamType ← nameToEncoding (encapOption nc name)
  pure ⟨name, server, streamType, encodingRequest, nc.flag name "logdata", nc.flag name "tls",
    nc.text name "tls_pem", nc.text name "tls_servername", nc.text name "tls_key"⟩

/-- `replayInputModule`, as it is set up. -/
structure ReplaySettings where
  replay : ReplayInputModule
  logData : Bool
  delayUsec : Int

/-- `REPLAY_DELAY_DEFAULT_USEC`. -/
def replayDelayDefaultUsec : Int := 200000

/-- `configure` of the replay input; `loop` is not looked at beside `firstn`. -/
def replaySettings (nc : NodeConfig) (name : String) : Except GoError ReplaySettings := do
  let filename ← nc.getString name "file"
  let firstN := intOption nc name "firstn"
  pure ⟨⟨name, filename, firstN, decide (firstN = 0) && nc.flag name "loop"⟩,
    nc.flag name "logdata", (nc.getInt name "delayusec").toOption.getD replayDelayDefaultUsec⟩

/-- `gnmiClient`, as it is set up; a float is its bits. -/
structure GnmiSettings where
  name : String
  auth : UserPasswordCollector
  server : String
  logData : Bool
  tls : Bool
  tlsPEM : String
  tlsHostname : String
  tlsKey : String
  heartbeatInterval : UInt64
  paths : List String
  selectors : List String
  jsonUInt64Compat : Bool

/-- The bits of -1. -/
def noHeartbeat : UInt64 := 0xbff0000000000000

/-- The values of the options whose names start with this; `select` names come after
    those that start with `path`. -/
def optionsFrom {Key : Type} (host : Host Key) (nc : NodeConfig) (name : String)
    (p : String → Bool) : List String :=
  ((host.getOptions nc name).filter p).map (nc.text name)

/-- `configure` of the gNMI input. -/
def gnmiSettings {Key : Type} (host : Host Key) (nc : NodeConfig) (name : String) :
    Except GoError GnmiSettings := do
  let isPath := fun (key : String) => key.startsWith "path"
  let isSelector := fun (key : String) => !key.startsWith "path" && key.startsWith "select"
  let auth ← credentials host nc name
  pure
    { name := name, auth := auth, server := nc.text name "server"
      logData := nc.flag name "logdata", tls := nc.flag name "tls"
      tlsPEM := nc.text name "tls_pem", tlsHostname := nc.text name "tls_hostname"
      tlsKey := nc.text name "tls_key"
      heartbeatInterval :=
        (host.getFloat64 nc name "heartbeat_interval").toOption.getD noHeartbeat
      paths := optionsFrom host nc name isPath
      selectors := (optionsFrom host nc name isSelector).dedup
      jsonUInt64Compat := nc.flag name "json_uint64_compat" }

/-- `inputNodeModules`. -/
inductive InputModule where
  | replay
  | tcp
  | grpc
  | kafka
  | udp
  | gnmi
  deriving DecidableEq, Repr

def inputNodeModules : String → Option InputModule
  | "replay" => some .replay
  | "tcp" => some .tcp
  | "grpc" => some .grpc
  | "kafka" => some .kafka
  | "udp" => some .udp
  | "gnmi" => some .gnmi
  | _ => none

/-- A module that was started. -/
inductive InputSettings where
  | replay (r : ReplaySettings)
  | tcp (t : TcpSettings)
  | grpc (g : GrpcInputSettings)
  | kafka (k : KafkaConsumerSettings)
  | udp (u : UdpSettings)
  | gnmi (g : GnmiSettings)

/-- `configure`, up to the control channel. -/
def inputSettings {Key : Type} (host : Host Key) (nc : NodeConfig) (name : String) :
    InputModule → Except GoError InputSettings
  | .replay => (replaySettings nc name).map .replay
  | .tcp => (tcpSettings host nc name).map .tcp
  | .grpc => (grpcInputSettings host nc name).map .grpc
  | .kafka => (kafkaInputSettings host nc name).map .kafka
  | .udp => (udpSettings host nc name).map .udp
  | .gnmi => (gnmiSettings host nc name).map .gnmi

/-- `configure`. -/
def configureInput {Key : Type} (host : Host Key) (m : InputModule) (nc : NodeConfig)
    (name : String) (_ : List (Option Nat)) : Except Failure InputConfigured :=
  match inputSettings host nc name m with
  | .error err => .ok ⟨some err, none⟩
  | .ok _ => .ok ⟨none, some 0⟩

/-- The file, with the modules there are. -/
def site {Key : Type} (host : Host Key) (nc : NodeConfig) : Site where
  env := host.env
  readConfig := .ok nc
  inputNodeModules := fun modtype => (inputNodeModules modtype).map (configureInput host)

/-! ## The nodes they start -/

/-- What the nodes find when they run: the codecs, what is rendered and what the tap
    prints, which files can be opened, and the nodes that are not modelled here. -/
structure World (M : Type) : Type 1 where
  decode : Encoding → Codec M
  render : Renderers
  texts : PipelineTap.TapTexts
  openFile : String → Option Octets
  rest : String → NodeKind M

/-- What the sticky loops read of the block. -/
def GrpcInputSettings.config (g : GrpcInputSettings) : GrpcConfig where
  encap := g.encap
  encodingRequest := g.encodingRequest
  tls := g.tls
  tlsPem := g.tlsPem
  subscriptions :=
    match g.server with
    | .remote _ subscriptions _ _ => subscriptions
    | .onHost _ => []

variable {M : Type}

def inputKind (w : World M) (caps : List Nat) (name : String) : InputSettings → NodeKind M
  | .udp u => .udp u.name u.encap caps
  | .kafka k => .kafka k.consumer caps
  | .grpc g =>
      match g.server with
      | .remote server _ reqID _ => .dialin g.config server reqID caps
      | .onHost _ => .dialout g.config caps
  | .replay r => .replay r.replay (w.openFile r.replay.filename) (caps.map fun _ => [])
  | .tcp _ => w.rest name
  | .gnmi _ => w.rest name

/-! ## Settings a module cannot work with -/

/-- The name of an encoding that is only ever written. -/
def Unread (encoding : String) : Prop := encoding = "json_events" ∨ encoding = "template"

instance (encoding : String) : Decidable (Unread encoding) :=
  inferInstanceAs (Decidable (encoding = "json_events" ∨ encoding = "template"))

/-- What a dialin section is told to ask for, or the credentials it is to load, may be
    the end of it. -/
def DialinDoomed (nc : NodeConfig) (name : String) : Prop :=
  Unread (encodingOption nc name) ∨
    (nc.flag name "tls" = true ∧ nc.text name "tls_pem" ≠ "")

def DialoutDoomed (nc : NodeConfig) (name : String) : Prop :=
  Unread (encapOption nc name) ∨ nc.flag name "tls" = true

/-- The options of the section may be the end of its node. -/
def InputDoomed (w : World M) (caps : List Nat) (nc : NodeConfig) (name : String) :
    InputModule → Prop
  | .udp => False
  | .kafka => ∃ encoding, nc.getString name "encoding" = .ok encoding ∧ Unread encoding
  | .grpc => (Given (nc.getString name "server") ∧ DialinDoomed nc name) ∨
      (¬ Given (nc.getString name "server") ∧ DialoutDoomed nc name)
  | .replay => ∃ r, replaySettings nc name = .ok r ∧
      ¬ Reliable (replayInput w.decode r.replay (w.openFile r.replay.filename)
        (caps.map fun _ => []))
  | .tcp => ¬ (w.rest name).Sound w.decode
  | .gnmi => ¬ (w.rest name).Sound w.decode

variable {enc : Encoding} {encoding : String} {decode : Encoding → Codec M} {α : Type}

/-- The names of encodings are those of different ones. -/
theorem nameToEncoding_names (h : nameToEncoding encoding = .ok enc) :
    (Unread encoding ↔ enc = .jsonEvents ∨ enc = .template) ∧
      (encoding = "gpb" ↔ enc = .gpb) := by
  simp only [nameToEncoding] at h
  split at h <;> cases h <;> decide

/-- The encodings there is a codec for. -/
theorem codec_iff (h : nameToEncoding encoding = .ok enc) :
    (∃ codec, getCodec decode enc = .ok codec) ↔ ¬ Unread encoding := by
  rw [(nameToEncoding_names h).1]
  cases enc with
  | jsonEvents => exact iff_of_false (fun ⟨_, hc⟩ => by cases hc) (fun hno => hno (Or.inl rfl))
  | template => exact iff_of_false (fun ⟨_, hc⟩ => by cases hc) (fun hno => hno (Or.inr rfl))
  | _ => exact iff_of_true ⟨_, rfl⟩ (by decide)

/-- The encodings a router can be asked for. -/
theorem request_iff (h : nameToEncoding encoding = .ok enc) (hgpb : encoding ≠ "gpb") :
    (∃ e, mapEncapToGRPCEncode enc = .ok e) ↔ ¬ Unread encoding := by
  obtain ⟨hunread, hname⟩ := nameToEncoding_names h
  rw [hunread]
  cases enc with
  | gpb => exact absurd (hname.mpr rfl) hgpb
  | jsonEvents => exact iff_of_false (fun ⟨_, hc⟩ => by cases hc) (fun hno => hno (Or.inl rfl))
  | template => exact iff_of_false (fun ⟨_, hc⟩ => by cases hc) (fun hno => hno (Or.inr rfl))
  | _ => exact iff_of_true ⟨_, rfl⟩ (by decide)

theorem encodingOption_ne_gpb (nc : NodeConfig) (name : String) :
    encodingOption nc name ≠ "gpb" := by
  simp only [encodingOption]
  split
  · decide
  · split
    · decide
    · next hne => exact hne

/-! ## What an accepted section comes to -/

variable {ε β : Type} {cfg : GrpcConfig} {settings : InputSettings} {depth : Int}
  {dataChan : Option Nat} {m' : OutputModule}

theorem bind_eq_ok_iff {x : Except ε α} {f : α → Except ε β} {b : β} :
    x >>= f = .ok b ↔ ∃ a, x = .ok a ∧ f a = .ok b := by
  cases x with
  | error err => exact iff_of_false (fun h => by cases h) (fun ⟨_, h, _⟩ => by cases h)
  | ok a => exact ⟨fun h => ⟨a, rfl, h⟩, fun ⟨_, ha, h⟩ => by cases ha; exact h⟩

theorem map_eq_ok_iff {x : Except ε α} {f : α → β} {b : β} :
    x.map f = .ok b ↔ ∃ a, x = .ok a ∧ f a = b := by
  cases x with
  | error err => exact iff_of_false (fun h => by cases h) (fun ⟨_, h, _⟩ => by cases h)
  | ok a =>
      constructor
      · intro h
        exact ⟨a, rfl, Except.ok.inj h⟩
      · rintro ⟨_, ha, rfl⟩
        cases ha
        rfl

variable {Key : Type} {host : Host Key} {nc : NodeConfig} {name : String}

/-- The encoding of a Kafka input that was accepted. -/
theorem kafkaInputSettings_encoding {k : KafkaConsumerSettings}
    (h : kafkaInputSettings host nc name = .ok k) :
    consumerEncoding nc name = .ok k.consumer.msgEncoding := by
  unfold kafkaInputSettings at h
  obtain ⟨brokers, -, h⟩ := bind_eq_ok_iff.mp h
  obtain ⟨consumerGroup, -, h⟩ := bind_eq_ok_iff.mp h
  obtain ⟨enc, henc, h⟩ := bind_eq_ok_iff.mp h
  obtain ⟨version, -, h⟩ := bind_eq_ok_iff.mp h
  obtain ⟨-, -, h⟩ := bind_eq_ok_iff.mp h
  obtain ⟨keySpec, -, h⟩ := bind_eq_ok_iff.mp h
  cases h
  exact henc

theorem kafka_codec_iff (h : consumerEncoding nc name = .ok enc) :
    (∃ codec, getCodec decode enc = .ok codec) ↔
      ¬ ∃ encoding, nc.getString name "encoding" = .ok encoding ∧ Unread encoding := by
  unfold consumerEncoding at h
  split at h
  · next err hnone =>
      cases h
      refine iff_of_true ⟨_, rfl⟩ ?_
      rintro ⟨encoding, hsome, -⟩
      cases hnone.symm.trans hsome
  · next encoding hsome =>
      rw [codec_iff h, hsome]
      constructor
      · rintro hno ⟨_, heq, hun⟩
        cases heq
        exact hno hun
      · exact fun hno hun => hno ⟨encoding, rfl, hun⟩

/-- A dialin section that was accepted: the two encodings go together. -/
theorem grpcServer_remote {server : GrpcServer} (h : grpcServer host nc name = .ok (server, enc)) :
    (Given (nc.getString name "server") ∧ (∃ sock subs reqID auth,
        server = .remote sock subs reqID auth) ∧ nameToEncoding (encodingOption nc name) = .ok enc ∧
        (encapOption nc name = "gpb" ∨ encapOption nc name = encodingOption nc name)) ∨
      (¬ Given (nc.getString name "server") ∧ ∃ sock, server = .onHost sock) := by
  unfold grpcServer at h
  split at h
  · next sock hsock =>
      split at h
      · cases h
      · next hmatch =>
          obtain ⟨request, hrequest, h⟩ := bind_eq_ok_iff.mp h
          obtain ⟨server', hserver, h⟩ := bind_eq_ok_iff.mp h
          cases h
          unfold configureRemoteServer at hserver
          obtain ⟨subcfg, -, hserver⟩ := bind_eq_ok_iff.mp hserver
          obtain ⟨auth, -, hserver⟩ := bind_eq_ok_iff.mp hserver
          cases hserver
          refine Or.inl ⟨⟨sock, hsock⟩, ⟨_, _, _, _, rfl⟩, hrequest, ?_⟩
          by_contra hno
          exact hmatch (not_or.mp hno)
  · next err hnone =>
      have hno : ¬ Given (nc.getString name "server") := by
        rw [hnone]
        exact not_given_error err
      split at h
      · next sock hlisten =>
          cases h
          exact Or.inr ⟨hno, sock, rfl⟩
      · cases h

theorem grpcInputSettings_spec {g : GrpcInputSettings}
    (h : grpcInputSettings host nc name = .ok g) :
    grpcServer host nc name = .ok (g.server, g.encodingRequest) ∧
      nameToEncoding (encapOption nc name) = .ok g.encap ∧
      g.tls = nc.flag name "tls" ∧ g.tlsPem = nc.text name "tls_pem" := by
  unfold grpcInputSettings at h
  obtain ⟨⟨server, request⟩, hserver, h⟩ := bind_eq_ok_iff.mp h
  obtain ⟨encap, hencap, h⟩ := bind_eq_ok_iff.mp h
  cases h
  exact ⟨hserver, hencap, rfl, rfl⟩

/-- **A DIALIN SECTION** lasts if it asks for what routers have, and there are no
    credentials to load. -/
theorem dialin_configured_iff (hencap : nameToEncoding (encapOption nc name) = .ok cfg.encap)
    (hrequest : nameToEncoding (encodingOption nc name) = .ok cfg.encodingRequest)
    (hmatch : encapOption nc name = "gpb" ∨ encapOption nc name = encodingOption nc name)
    (htls : cfg.tls = nc.flag name "tls") (hpem : cfg.tlsPem = nc.text name "tls_pem") :
    Configured decode cfg .dialin ↔ ¬ DialinDoomed nc name := by
  have hasked := request_iff hrequest (encodingOption_ne_gpb nc name)
  have hcodec : (∃ codec, getCodec decode cfg.encap = .ok codec) ↔ _ := codec_iff hencap
  constructor
  · rintro ⟨hencode, -, hcreds⟩ (hun | ⟨hflag, hne⟩)
    · exact hasked.mp (hencode rfl) hun
    · rw [← htls] at hflag
      exact hne (hpem.symm.trans (hcreds hflag).2)
  · intro hno
    obtain ⟨hread, hcreds⟩ := not_or.mp hno
    refine ⟨fun _ => hasked.mpr hread, fun _ => hcodec.mpr ?_, fun hflag => ⟨rfl, ?_⟩⟩
    · rcases hmatch with hgpb | hsame
      · rw [hgpb]
        decide
      · rw [hsame]
        exact hread
    · by_contra hne
      rw [hpem] at hne
      exact hcreds ⟨htls.symm.trans hflag, hne⟩

theorem dialout_configured_iff (hencap : nameToEncoding (encapOption nc name) = .ok cfg.encap)
    (htls : cfg.tls = nc.flag name "tls") :
    Configured decode cfg .dialout ↔ ¬ DialoutDoomed nc name := by
  have hcodec : (∃ codec, getCodec decode cfg.encap = .ok codec) ↔ _ := codec_iff hencap
  constructor
  · rintro ⟨-, hc, hcreds⟩ (hun | hflag)
    · exact hcodec.mp (hc (fun h => by cases h)) hun
    · rw [← htls] at hflag
      cases (hcreds hflag).1
  · intro hno
    obtain ⟨hread, hcreds⟩ := not_or.mp hno
    exact ⟨fun h => (by cases h), fun _ => hcodec.mpr hread,
      fun hflag => absurd (htls.symm.trans hflag) hcreds⟩

variable {w : World M} {env : Env} {ctrlChan : Option Nat} {m : OutputModule} {c : Conductor}

/-- **AN INPUT IS SOUND EXACTLY IF ITS SECTION IS NOT DOOMED**. -/
theorem inputKind_sound_iff {caps : List Nat} {m : InputModule}
    (h : inputSettings host nc name m = .ok settings) :
    (inputKind w caps name settings).Sound w.decode ↔ ¬ InputDoomed w caps nc name m := by
  cases m with
  | udp =>
      obtain ⟨u, -, rfl⟩ := map_eq_ok_iff.mp h
      exact iff_of_true trivial id
  | kafka =>
      obtain ⟨k, hk, rfl⟩ := map_eq_ok_iff.mp h
      exact kafka_codec_iff (kafkaInputSettings_encoding hk)
  | grpc =>
      obtain ⟨g, hg, rfl⟩ := map_eq_ok_iff.mp h
      obtain ⟨hserver, hencap, htls, hpem⟩ := grpcInputSettings_spec hg
      rcases grpcServer_remote hserver with
        ⟨hgiven, ⟨sock, subs, reqID, auth, hremote⟩, hrequest, hmatch⟩ | ⟨hno, sock, hlocal⟩
      · simp only [inputKind, hremote]
        refine (dialin_configured_iff hencap hrequest hmatch htls hpem).trans ?_
        refine not_congr ⟨fun hd => Or.inl ⟨hgiven, hd⟩, ?_⟩
        rintro (⟨-, hd⟩ | ⟨hno, -⟩)
        · exact hd
        · exact absurd hgiven hno
      · simp only [inputKind, hlocal]
        refine (dialout_configured_iff hencap htls).trans ?_
        refine not_congr ⟨fun hd => Or.inr ⟨hno, hd⟩, ?_⟩
        rintro (⟨hgiven, -⟩ | ⟨-, hd⟩)
        · exact absurd hgiven hno
        · exact hd
  | replay =>
      obtain ⟨r, hr, rfl⟩ := map_eq_ok_iff.mp h
      constructor
      · rintro hsound ⟨r', hr', hun⟩
        cases hr.symm.trans hr'
        exact hun hsound
      · intro hno
        by_contra hun
        exact hno ⟨r, hr, hun⟩
  | tcp =>
      obtain ⟨-, -, rfl⟩ := map_eq_ok_iff.mp h
      exact not_not.symm
  | gnmi =>
      obtain ⟨-, -, rfl⟩ := map_eq_ok_iff.mp h
      exact not_not.symm

/-! ## The outputs -/

/-- An output whose channels are nil: nobody is there to take SHUTDOWN. -/
def unwired : PipelineConductor.Node Unit Unit where
  sys := ⟨(), fun _ _ => none⟩
  shutdown := fun _ => ()
  ctrl := fun _ => true
  acked := fun _ => false
  ctrl_shutdown := fun _ => rfl
  acked_step := fun h _ => h
  deaf := fun _ _ => rfl

theorem unwired_not_reliable : ¬ Reliable unwired :=
  not_reliable_of_mute (Transition.Leads.refl _ _ _) (mute_of_halted (fun _ => rfl) rfl)

def outputKind (env : Env) (w : World M) (nc : NodeConfig) (name : String) :
    OutputModule → NodeKind M
  | .tap =>
      match tapSettings env nc name with
      | .ok t => .tap w.render w.texts t (w.openFile t.filename)
      | .error _ => .other unwired
  | .grpc =>
      match grpcSettings env nc name with
      | .ok g => .grpcOut ⟨.gpbCompact, .gpbCompact, g.tls, g.tlsPem, []⟩
      | .error _ => .other unwired
  | .kafka => w.rest name
  | .metrics => w.rest name

/-- The same of an output: a raw tap is not started, the file of a tap cannot be opened,
    or there are credentials to load. -/
def OutputDoomed (w : World M) (nc : NodeConfig) (name : String) : OutputModule → Prop
  | .tap => TapMisfires nc name ∨
      ∃ file, nc.getString name "file" = .ok file ∧ w.openFile file = none
  | .grpc => nc.flag name "tls" = true
  | .kafka => ¬ (w.rest name).Sound w.decode
  | .metrics => ¬ (w.rest name).Sound w.decode

theorem tapSettings_filename {t : PipelineTap.TapOutputModule}
    (h : tapSettings env nc name = .ok t) : nc.getString name "file" = .ok t.filename := by
  unfold tapSettings at h
  obtain ⟨filename, hfile, h⟩ := bind_eq_ok_iff.mp h
  rw [orReturn_eq_ok_iff] at hfile
  rw [hfile]
  -- with the checks of a raw dump or without
  simp only at h
  split at h
  · obtain ⟨-, -, h⟩ := bind_eq_ok_iff.mp h
    obtain ⟨streamSpec, -, h⟩ := bind_eq_ok_iff.mp h
    cases h
    rfl
  · obtain ⟨streamSpec, -, h⟩ := bind_eq_ok_iff.mp h
    cases h
    rfl

theorem grpcSettings_tls {g : GrpcOutLocalServerConfig} (h : grpcSettings env nc name = .ok g) :
    g.tls = nc.flag name "tls" := by
  unfold grpcSettings at h
  obtain ⟨server, -, h⟩ := bind_eq_ok_iff.mp h
  obtain ⟨streamSpec, -, h⟩ := bind_eq_ok_iff.mp h
  cases h
  rfl

/-- A section that has its data channel has its settings. -/
theorem settings_of_results {x : Except Exit α} {dataChan : Nat}
    (h : results (x >>= start env depth) = .ok ⟨none, some dataChan, ctrlChan⟩) :
    ∃ settings, x = .ok settings := by
  cases x with
  | ok settings => exact ⟨settings, rfl⟩
  | error exit =>
      cases exit with
      | returned err => cases h
      | panicked text => cases h

/-- A module that has its settings has its channels, or there is no process. -/
theorem results_wired (settings : α) :
    results ((.ok settings : Except Exit α) >>= start env depth) ≠ .ok ⟨none, none, ctrlChan⟩ := by
  show results (start env depth settings) ≠ _
  unfold start
  split
  · exact fun h => by cases h
  · exact fun h => by cases h

/-- Only the tap is accepted without its channels. -/
theorem silent_iff (h : configure env nc name m = .ok ⟨none, dataChan, ctrlChan⟩) :
    dataChan = none ↔ m = .tap ∧ TapMisfires nc name := by
  rw [← silent_configure_iff env nc name m]
  constructor
  · exact fun hnil => ⟨_, h, rfl, hnil⟩
  · rintro ⟨r, hr, -, hnil⟩
    cases h.symm.trans hr
    exact hnil

/-- **AN OUTPUT IS SOUND EXACTLY IF ITS SECTION IS NOT DOOMED**. -/
theorem outputKind_sound_iff (h : configure env nc name m = .ok ⟨none, dataChan, ctrlChan⟩) :
    (outputKind env w nc name m).Sound w.decode ↔ ¬ OutputDoomed w nc name m := by
  cases m with
  | kafka => exact not_not.symm
  | metrics => exact not_not.symm
  | tap =>
      cases dataChan with
      | none =>
          have hmis := ((silent_iff h).mp rfl).2
          refine iff_of_false ?_ (fun hno => hno (Or.inl hmis))
          have hbad : ∃ exit, tapSettings env nc name = .error exit := by
            cases ht : tapSettings env nc name with
            | error exit => exact ⟨exit, rfl⟩
            | ok t =>
                have hrun : results (tapSettings env nc name >>=
                    start env (nc.dataChannelDepth name)) = .ok ⟨none, none, ctrlChan⟩ := h
                rw [ht] at hrun
                exact absurd hrun (results_wired t)
          obtain ⟨exit, hexit⟩ := hbad
          simp only [outputKind, hexit]
          exact unwired_not_reliable
      | some dataChan =>
          have hno : ¬ TapMisfires nc name := fun hmis => by
            cases (silent_iff h).mpr ⟨rfl, hmis⟩
          obtain ⟨t, ht⟩ := settings_of_results h
          have hfile := tapSettings_filename ht
          simp only [outputKind, ht]
          constructor
          · rintro hopen (hmis | ⟨file, hfile', hnone⟩)
            · exact hno hmis
            · cases hfile.symm.trans hfile'
              have hsome : (w.openFile t.filename).isSome = true := hopen
              rw [hnone] at hsome
              cases hsome
          · intro hdoomed
            show (w.openFile t.filename).isSome = true
            rw [Option.isSome_iff_ne_none]
            exact fun hnone => hdoomed (Or.inr ⟨_, hfile, hnone⟩)
  | grpc =>
      obtain ⟨dataChan, rfl⟩ : ∃ d, dataChan = some d := by
        cases dataChan with
        | none => cases ((silent_iff h).mp rfl).1
        | some d => exact ⟨d, rfl⟩
      obtain ⟨g, hg⟩ := settings_of_results h
      have htls := grpcSettings_tls hg
      simp only [outputKind, hg]
      constructor
      · rintro ⟨-, -, hcreds⟩ hflag
        cases (hcreds (htls.trans hflag)).1
      · intro hno
        exact ⟨fun h => (by cases h), fun h => absurd rfl h,
          fun hflag => absurd (htls.symm.trans hflag) hno⟩

/-! ## The nodes of a file -/

/-- A section that configures this input module. -/
def IsInput (nc : NodeConfig) (name : String) (m : InputModule) : Prop :=
  ∃ modtype, sectionType nc "xport_input" name = .ok (some modtype) ∧
    inputNodeModules modtype = some m

/-- The stage of a section is one text. -/
theorem stage_of_sectionType {stage modtype : String}
    (h : sectionType nc stage name = .ok (some modtype)) :
    nc.getString name "stage" = .ok stage := by
  unfold sectionType at h
  split at h
  · cases h
  · split at h
    · cases h
    · next modstage hstage =>
        split at h
        · cases h
        · next hsame =>
            rw [hstage, not_not.mp hsame]

theorem not_input_of_output {m : InputModule} (h : IsInput nc name m) (h' : IsOutput nc name m') :
    False := by
  obtain ⟨modtype, hin, -⟩ := h
  obtain ⟨modtype', hout, -⟩ := h'
  have hsame := (stage_of_sectionType hin).symm.trans (stage_of_sectionType hout)
  exact absurd (Except.ok.inj hsame) (by decide)

theorem IsInput.unique {m m' : InputModule} (h : IsInput nc name m) (h' : IsInput nc name m') :
    m = m' := by
  obtain ⟨modtype, htype, hm⟩ := h
  obtain ⟨modtype', htype', hm'⟩ := h'
  cases htype.symm.trans htype'
  exact Option.some.inj (hm.symm.trans hm')

theorem isOutput_unique (h : IsOutput nc name m) (h' : IsOutput nc name m') : m = m' := by
  obtain ⟨modtype, htype, hm⟩ := h
  obtain ⟨modtype', htype', hm'⟩ := h'
  cases htype.symm.trans htype'
  exact Option.some.inj (hm.symm.trans hm')

/-- The nodes of a conductor come from sections that were accepted, each of them
    once. -/
structure Loaded (host : Host Key) (nc : NodeConfig) (c : Conductor) : Prop where
  inputs : ∀ e ∈ c.inputNodes, ∃ m settings, IsInput nc e.1 m ∧
    inputSettings host nc e.1 m = .ok settings
  outputs : ∀ e ∈ c.outputNodes, ∃ m ctrlChan, IsOutput nc e.1 m ∧
    configure host.env nc e.1 m = .ok ⟨none, e.2.dataChan, ctrlChan⟩
  inputNames : (c.inputNodes.map Prod.fst).Nodup
  outputNames : (c.outputNodes.map Prod.fst).Nodup

theorem nodup_set {V : Type} {m : List (String × V)} (h : (m.map Prod.fst).Nodup) (k : String)
    (v : V) : ((GoMap.set m k v).map Prod.fst).Nodup := by
  refine List.nodup_cons.mpr ⟨?_, ?_⟩
  · rintro hk
    obtain ⟨e, he, heq⟩ := List.mem_map.mp hk
    exact absurd heq (of_decide_eq_true (List.mem_filter.mp he).2)
  · exact h.sublist (List.filter_sublist.map Prod.fst)

theorem Loaded.outputSection {c' : Conductor} (hc : Loaded host nc c)
    (h : outputSection host.env nc c name = .ok c') : Loaded host nc c' := by
  unfold PipelineLoadConfig.outputSection at h
  split at h
  · cases h
  · cases h
    exact hc
  · next modtype htype =>
      split at h
      · cases h
      · next m hm =>
          split at h
          · cases h
          · cases h
            exact hc
          · next dataChan ctrlChan hconf =>
              cases h
              refine ⟨hc.inputs, ?_, hc.inputNames, nodup_set hc.outputNames _ _⟩
              intro e he
              rcases List.mem_cons.mp he with rfl | hold
              · exact ⟨m, ctrlChan, ⟨modtype, htype, hm⟩, hconf⟩
              · exact hc.outputs e (List.mem_filter.mp hold).1

theorem Loaded.inputSection {c' : Conductor} (hc : Loaded host nc c)
    (h : inputSection (site host nc) nc c name = .ok c') : Loaded host nc c' := by
  unfold PipelineLoadConfig.inputSection at h
  split at h
  · cases h
  · cases h
    exact hc
  · next modtype htype =>
      split at h
      · cases h
      · next inputConfigure hm =>
          obtain ⟨m, hmodule, rfl⟩ := Option.map_eq_some_iff.mp hm
          split at h
          · cases h
          · cases h
            exact hc
          · next ctrlChan hconf =>
              cases h
              refine ⟨?_, hc.outputs, nodup_set hc.inputNames _ _, hc.outputNames⟩
              intro e he
              rcases List.mem_cons.mp he with rfl | hold
              · unfold configureInput at hconf
                split at hconf
                · cases hconf
                · next settings hsettings =>
                    exact ⟨m, settings, ⟨modtype, htype, hmodule⟩, hsettings⟩
              · exact hc.inputs e (List.mem_filter.mp hold).1

/-- What every section keeps the loop over them keeps. -/
theorem foldlM_invariant {I : Conductor → Prop} {f : Conductor → String → Except Failure Conductor}
    (hf : ∀ c name c', I c → f c name = .ok c' → I c') :
    ∀ (sections : List String) {c c' : Conductor}, I c → sections.foldlM f c = .ok c' → I c' := by
  intro sections
  induction sections with
  | nil =>
      intro c c' hc h
      cases h
      exact hc
  | cons name rest ih =>
      intro c c' hc h
      rw [List.foldlM_cons] at h
      obtain ⟨mid, hmid, hrest⟩ := bind_eq_ok_iff.mp h
      exact ih (hf c name mid hc hmid) hrest

/-- **THE NODES ARE THOSE OF THE SECTIONS**. -/
theorem loaded_of_loadConfig (h : loadConfig (site host nc) = .ok c) : Loaded host nc c := by
  have hbegin : Loaded host nc ⟨[], [], []⟩ := by
    refine ⟨fun e he => ?_, fun e he => ?_, List.nodup_nil, List.nodup_nil⟩
    · cases he
    · cases he
  obtain ⟨mid, houtputs, hinputs⟩ := bind_eq_ok_iff.mp h
  have hmid := foldlM_invariant (fun _ _ _ hc hs => hc.outputSection hs) _ hbegin houtputs
  exact foldlM_invariant (fun _ _ _ hc hs => hc.inputSection hs) _ hmid hinputs

/-- The input module of a section, as it was started. -/
def startedInput (host : Host Key) (nc : NodeConfig) (name : String) : Option InputSettings :=
  match sectionType nc "xport_input" name with
  | .ok (some modtype) =>
      (inputNodeModules modtype).bind (fun m => (inputSettings host nc name m).toOption)
  | _ => none

/-- The output module of a section. -/
def startedOutput (nc : NodeConfig) (name : String) : Option OutputModule :=
  match sectionType nc "xport_output" name with
  | .ok (some modtype) => outputNodeModules modtype
  | _ => none

def nodeKind (host : Host Key) (w : World M) (nc : NodeConfig) (caps : List Nat)
    (name : String) : NodeKind M :=
  match startedInput host nc name, startedOutput nc name with
  | some settings, _ => inputKind w caps name settings
  | none, some m => outputKind host.env w nc name m
  | none, none => w.rest name

theorem nodeKind_input {caps : List Nat} {m : InputModule} (h : IsInput nc name m)
    (hs : inputSettings host nc name m = .ok settings) :
    nodeKind host w nc caps name = inputKind w caps name settings := by
  obtain ⟨modtype, htype, hm⟩ := h
  have hstarted : startedInput host nc name = some settings := by
    simp only [startedInput, htype, hm, Option.bind_some, hs]
    rfl
  simp only [nodeKind, hstarted]

theorem nodeKind_output {caps : List Nat} (h : IsOutput nc name m) :
    nodeKind host w nc caps name = outputKind host.env w nc name m := by
  have hno : startedInput host nc name = none := by
    unfold startedInput
    split
    · next modtype htype =>
        cases hm : inputNodeModules modtype with
        | none => rfl
        | some m' => exact (not_input_of_output ⟨modtype, htype, hm⟩ h).elim
    · rfl
  obtain ⟨modtype, htype, hm⟩ := h
  have hstarted : startedOutput nc name = some m := by
    simp only [startedOutput, htype, hm]
  simp only [nodeKind, hno, hstarted]

/-- The capacities of the data channels that were made; a tap that was not started is
    the end of the shutdown, whatever the inputs do with its nil channel. -/
def caps (c : Conductor) : List Nat := c.dataChans.filterMap id

/-- The nodes of a file that was loaded. -/
def plan {c : Conductor} (hc : Loaded host nc c) (w : World M) : Plan String M where
  kind := nodeKind host w nc (caps c)
  inputNodes := c.inputNodes.map Prod.fst
  outputNodes := c.outputNodes.map Prod.fst
  nodup := by
    refine List.nodup_append.mpr ⟨hc.inputNames, hc.outputNames, ?_⟩
    rintro i hi o ho rfl
    obtain ⟨e, he, rfl⟩ := List.mem_map.mp hi
    obtain ⟨e', he', heq⟩ := List.mem_map.mp ho
    obtain ⟨m, -, hin, -⟩ := hc.inputs e he
    obtain ⟨m', -, hout, -⟩ := hc.outputs e' he'
    rw [heq] at hout
    exact not_input_of_output hin hout

/-- The section may be the end of its node. -/
def Doomed (w : World M) (caps : List Nat) (nc : NodeConfig) (name : String) : Prop :=
  (∃ m, IsInput nc name m ∧ InputDoomed w caps nc name m) ∨
    ∃ m, IsOutput nc name m ∧ OutputDoomed w nc name m

theorem nodeKind_sound_iff (hc : Loaded host nc c) (w : World M)
    (hname : name ∈ c.inputNodes.map Prod.fst ++ c.outputNodes.map Prod.fst) :
    (nodeKind host w nc (caps c) name).Sound w.decode ↔ ¬ Doomed w (caps c) nc name := by
  rcases List.mem_append.mp hname with hin | hout
  · obtain ⟨e, he, rfl⟩ := List.mem_map.mp hin
    obtain ⟨m, settings, hm, hsettings⟩ := hc.inputs e he
    rw [nodeKind_input hm hsettings, inputKind_sound_iff hsettings]
    refine not_congr ⟨fun hd => Or.inl ⟨m, hm, hd⟩, ?_⟩
    rintro (⟨m', hm', hd⟩ | ⟨m', hm', -⟩)
    · rw [hm.unique hm']
      exact hd
    · exact (not_input_of_output hm hm').elim
  · obtain ⟨e, he, rfl⟩ := List.mem_map.mp hout
    obtain ⟨m, ctrlChan, hm, hconf⟩ := hc.outputs e he
    rw [nodeKind_output hm, outputKind_sound_iff hconf]
    refine not_congr ⟨fun hd => Or.inr ⟨m, hm, hd⟩, ?_⟩
    rintro (⟨m', hm', -⟩ | ⟨m', hm', hd⟩)
    · exact (not_input_of_output hm' hm).elim
    · rw [isOutput_unique hm hm']
      exact hd

/-- **A CONFIGURATION CAN BE STOPPED EXACTLY IF NO SECTION OF IT IS DOOMED**: the process
    that is started from a file can be shut down from whatever state it gets to exactly
    if none of the sections that were accepted has settings that may be the end of its
    node. -/
theorem loaded_stops_iff {c : Conductor} (h : loadConfig (site host nc) = .ok c) (w : World M) :
    Stops ((plan (loaded_of_loadConfig h) w).pipeline w.decode) ↔
      ∀ name ∈ c.inputNodes.map Prod.fst ++ c.outputNodes.map Prod.fst,
        ¬ Doomed w (caps c) nc name := by
  refine stops_iff_reliable.trans ?_
  refine forall_congr' fun name => forall_congr' fun hname => ?_
  exact (NodeKind.reliable_iff _).trans (nodeKind_sound_iff (loaded_of_loadConfig h) w hname)

/-- A process that has nothing to open but its files, and a user who answers. -/
def quietHost (nc : NodeConfig) : Host Unit where
  env := (bareSite nc).env
  resolveUDPAddr := fun _ => .ok ()
  listenTCP := fun _ => .ok ()
  crypt := toyEnv
  flags := ⟨"", "pipeline.conf"⟩
  random := fun _ => 0
  attempts := fun _ => [⟨[114], false, false, .ok [112]⟩]
  answers := fun _ => rfl
  reqID := fun _ => 1
  getOptions := fun _ _ => []
  getFloat64 := fun _ _ _ => .error "option not found"

def quietWorld : World Octets where
  decode := wholeBlocks
  render := PipelineReplay.sampleRender
  texts := PipelineReplay.sampleTexts
  openFile := fun _ => some []
  rest := fun name => .udp name "st" []

/-- A router that is asked for JSON events, and a tap. -/
def eventsDialin : NodeConfig :=
  configOf [("router", [("stage", "xport_input"), ("type", "grpc"), ("server", "r1:57400"),
      ("encoding", "json_events"), ("subscriptions", "cpu, memory")]),
    ("mytap", [("stage", "xport_output"), ("type", "tap"), ("file", "dump.txt")])]

/-- The file is accepted, and the process it starts may not be stopped. -/
theorem loaded_stops_iff_events :
    ∃ (c : Conductor) (h : loadConfig (site (quietHost eventsDialin) eventsDialin) = .ok c),
      c.inputNodes.map Prod.fst = ["router"] ∧
      ¬ Stops ((plan (loaded_of_loadConfig h) quietWorld).pipeline quietWorld.decode) := by
  have hload : ∃ c, loadConfig (site (quietHost eventsDialin) eventsDialin) = .ok c ∧
      c.inputNodes.map Prod.fst = ["router"] := ⟨_, rfl, rfl⟩
  obtain ⟨c, h, hnames⟩ := hload
  refine ⟨c, h, hnames, fun hstops => ?_⟩
  refine (loaded_stops_iff h quietWorld).mp hstops "router" ?_ ?_
  · rw [hnames]
    exact List.mem_append_left _ (List.mem_singleton_self _)
  · exact Or.inl ⟨.grpc, ⟨"grpc", rfl, rfl⟩, Or.inl ⟨⟨"r1:57400", rfl⟩, Or.inl (Or.inl rfl)⟩⟩

end PipelineInputConfig
