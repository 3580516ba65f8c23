import PipelineGnmi.NodesProofs

/-! # Shutting a whole pipeline down

    The conductor over the nodes that are modelled, and over others of which no more
    is known than that they are nodes.

    * `pipeline_quiet`: once an output is asked to stop, the UDP, Kafka, dialin and
      replay inputs send nothing any more, whatever else is in the pipeline.
    * `pipeline_hangs`: a node that returned without an answer holds up the
      shutdown for good, and if it is an input no output is ever asked.
    * `pipeline_stops_iff`: the process can be stopped at any time exactly if every
      node is sound, which its configuration decides. -/

namespace PipelineShutdown

open Transition Projection PipelineMessage PipelineDataMsg PipelineConductor PipelineNodes
open PipelineGrpcSupervisor (GrpcConfig)

/-! ## Any nodes -/

section AnyNodes

variable {ι : Type} [DecidableEq ι] {σ α : ι → Type} {pl : Pipeline ι σ α}

/-- The process can be stopped whatever it has been doing. -/
def Stops (pl : Pipeline ι σ α) : Prop :=
  ∀ s, Reach (conductor pl) anyStep s → s.main = .waiting →
    ∃ t, Leads (conductor pl) (fun _ => True) s t ∧ t.main = .exited

variable {s t : State ι σ} {i : ι}

theorem reach_leads (hs : Reach (conductor pl) anyStep s)
    (h : Leads (conductor pl) (fun _ => True) s t) : Reach (conductor pl) anyStep t := by
  obtain ⟨labels, -, he⟩ := h
  exact reach_exec labels (fun _ _ _ => trivial) hs he

/-- A node that was left to itself. -/
theorem leads_apart {u : σ i} (hu : Leads (pl.node i).sys (pl.node i).Own (pl.node i).sys.init u) :
    Leads (conductor pl) (fun _ => True) (conductor pl).init ((conductor pl).init.setNode i u) :=
  leads_own rfl hu

/-- Reliable nodes can do their part in any state. -/
theorem ready_of_reliable (h : ∀ i ∈ pl.inputNodes ++ pl.outputNodes, Reliable (pl.node i))
    (hs : Reach (conductor pl) anyStep s) : Ready pl s := by
  intro i hi
  have hrun : Reach (resume (conductor pl) (conductor pl).init) anyStep s := hs
  obtain ⟨-, hcourse⟩ := course_of_reach (inv_init pl) hrun i
  rcases hcourse with ⟨hiff, hl⟩ | ⟨-, hyes, t, u, hl, hn, hl'⟩
  · refine ⟨fun hreq => absurd (hiff.mp hreq) List.not_mem_nil, fun _ => ?_⟩
    exact (h i hi).serves _ hl
  · refine ⟨fun _ => ?_, fun hno => absurd hyes hno⟩
    exact (h i hi).answers t u _ hl hn hl'

/-- The conductor at the range over the nodes of a stage asks any of them first. -/
theorem leads_ask (hs : Onward pl s) {stage : Stage} {left : List ι}
    (hpc : s.pc = .ranging stage left) (hi : i ∈ left) (hopen : i ∉ s.closed) {v : σ i}
    (hn : (pl.node i).sys.next (s.nodes i) ((pl.node i).shutdown (s.nodes i)) = some v) :
    ∃ t, Leads (conductor pl) (fun _ => True) s t ∧ t.main = .waiting ∧ i ∈ t.requested ∧
      t.nodes i = v ∧ t.over = false := by
  have hup : ({ s with pc := .sending stage (left.erase i) i } : State ι σ).over = false :=
    State.up hs.main (fun h => by cases h)
  have hrequest : step pl { s with pc := .sending stage (left.erase i) i } .request
      = some { s.setNode i v with
          pc := .receiving stage (left.erase i) i, requested := s.requested ++ [i] } := by
    simp only [step, hup, hopen, hn, Bool.false_eq_true, if_false]
    rfl
  have hrange : Leads (conductor pl) _ s _ := leads_range (s.ne_exited_of_waiting hs.main) hpc hi
  refine ⟨_, hrange.trans (goes hrequest), hs.main,
    List.mem_append_right _ (List.mem_singleton_self i), s.setNode_self i v, ?_⟩
  exact State.up hs.main (fun h => by cases h)

/-- A node that was left to itself can be the next one asked. -/
theorem leads_asked (h : Stops pl) (hi : i ∈ pl.inputNodes ++ pl.outputNodes) {u v : σ i}
    (hu : Leads (pl.node i).sys (pl.node i).Own (pl.node i).sys.init u)
    (hn : (pl.node i).sys.next u ((pl.node i).shutdown u) = some v) :
    ∃ t, Reach (conductor pl) anyStep t ∧ t.main = .waiting ∧ i ∈ t.requested ∧
      t.nodes i = v ∧ t.over = false := by
  let s : State ι σ := (conductor pl).init.setNode i u
  have hs : Reach (conductor pl) anyStep s := reach_leads .init (leads_apart hu)
  obtain ⟨e, he, hexit⟩ := h s hs rfl
  have hready : Ready pl s := (inv_of_reach hs).ready_of_exits (reach_of_leads he) hexit
  let w : State ι σ := { s with pc := .ranging .inputs pl.inputNodes, pending := false }
  have hwake : Leads (conductor pl) (fun _ => True) s w := leads_wake pl rfl rfl
  have hw : Onward pl w :=
    ⟨(inv_of_reach hs).leads hwake, rfl, fun j hj hnot => (hready j hj).2 hnot⟩
  have hwu : w.nodes i = u := State.setNode_self _ i u
  rcases List.mem_append.mp hi with hin | hout
  · obtain ⟨t, ht, hrest⟩ := leads_ask hw rfl hin List.not_mem_nil (by rw [hwu]; exact hn)
    exact ⟨t, reach_leads hs (hwake.trans ht), hrest⟩
  · -- an output: the inputs are stopped first, and leave it where it is
    have hnotin : i ∉ pl.inputNodes := fun hin =>
      (List.nodup_append.mp pl.nodup).2.2 i hin i hout rfl
    obtain ⟨x, hx, hox, hpcx, hsame⟩ := hw.passAll rfl
    let y : State ι σ := { x with pc := .ranging .outputs pl.outputNodes }
    have hend : Leads (conductor pl) (fun _ => True) x y :=
      leads_inputsEnd (x.ne_exited_of_waiting hox.main) hpcx
    have hy : Onward pl y := ⟨hox.inv.leads hend, hox.main, hox.serves⟩
    have hopen : i ∉ y.closed := by
      have hplace := hy.inv.first hy.main
      obtain ⟨hclosed, hasked⟩ : y.closed = y.requested ∧ Asked pl y.requested pl.outputNodes
        .outputs := hplace
      rw [hclosed]
      exact fun hreq => (List.nodup_append.mp hasked.nodup).2.2 i hreq i hout rfl
    have hyu : y.nodes i = u := (hsame i hnotin).trans hwu
    obtain ⟨t, ht, hrest⟩ := leads_ask hy rfl hout hopen (by rw [hyu]; exact hn)
    exact ⟨t, reach_leads hs (hwake.trans (hx.trans (hend.trans ht))), hrest⟩

/-- **A PIPELINE OF RELIABLE NODES**: the process can be stopped at any time exactly
    if every node is reliable on its own. -/
theorem stops_iff_reliable :
    Stops pl ↔ ∀ i ∈ pl.inputNodes ++ pl.outputNodes, Reliable (pl.node i) := by
  constructor
  · intro h i hi
    constructor
    · intro u hu
      have hs := reach_leads .init (leads_apart hu)
      obtain ⟨e, he, hexit⟩ := h _ hs rfl
      have hready := (inv_of_reach hs).ready_of_exits (reach_of_leads he) hexit
      have hserves := (hready i hi).2 List.not_mem_nil
      rw [State.setNode_self] at hserves
      exact hserves
    · intro u v w hu hn hw
      obtain ⟨t, ht, hmain, hreq, hnode, hup⟩ := leads_asked h hi hu hn
      -- the node goes on to `w` while the conductor waits
      have hgo : Leads (conductor pl) (fun _ => True) t (t.setNode i w) :=
        leads_own hup (by rw [hnode]; exact hw)
      have hs := reach_leads ht hgo
      obtain ⟨e, he, hexit⟩ := h _ hs hmain
      have hready := (inv_of_reach hs).ready_of_exits (reach_of_leads he) hexit
      have hanswers := (hready i hi).1 hreq
      rw [State.setNode_self] at hanswers
      exact hanswers
  · intro h s hs hmain
    exact (inv_of_reach hs).exits_of_ready hmain (ready_of_reliable h hs)

/-- While a node is mute `run` is not released. -/
theorem waiting_of_mute (hi : i ∈ pl.inputNodes ++ pl.outputNodes)
    (hs : Reach (conductor pl) anyStep s) (hmute : Mute (pl.node i) (s.nodes i))
    (ht : Reach (resume (conductor pl) s) anyStep t) :
    (pl.node i).acked (t.nodes i) = false ∧ t.main = .waiting := by
  have hunanswered := hmute _ (((shows_node pl i).resume s).reach ht)
  refine ⟨hunanswered, ?_⟩
  by_contra hmain
  obtain ⟨hinv, -⟩ := course_of_reach (inv_of_reach hs) ht i
  obtain ⟨hasked, hclosed, -⟩ := hinv.again hmain
  have hacked := hinv.acked i (hclosed ▸ (hasked.mem_iff i).mpr hi)
  rw [hunanswered] at hacked
  cases hacked

end AnyNodes

/-! ## The nodes there are -/

section Kinds

open PipelineUdpServer PipelineKafkaConsumer PipelineGrpcDialin PipelineGrpcDialout
open PipelineReplay PipelineCtrlService PipelineTap

/-- The nodes that are modelled, and any other. -/
inductive NodeKind (M : Type) : Type 1 where
  | udp (name encap : String) (caps : List Nat)
  | kafka (cfg : KafkaConsumerConfig) (caps : List Nat)
  | dialin (cfg : GrpcConfig) (server : MsgProducer) (reqID : Int64) (caps : List Nat)
  | dialout (cfg : GrpcConfig) (caps : List Nat)
  | replay (t : ReplayInputModule) (opened : Option Octets) (dataChans : List (List M))
  | grpcOut (cfg : GrpcConfig)
  | tap (render : Renderers) (texts : TapTexts) (t : TapOutputModule) (opened : Option Octets)
  | other {τ β : Type} (n : Node τ β)

namespace NodeKind

variable {M : Type}

def state : NodeKind M → Type
  | udp _ _ _ => ServerState M
  | kafka _ _ => ConsumerState M
  | dialin _ _ _ _ => Dialin M
  | dialout _ _ => Dialout M
  | replay _ _ _ => ReplayNode M
  | grpcOut _ => Supervisor.State PipelineGrpcSupervisor.Stage
  | tap _ _ _ _ => TapNode
  | @other _ τ _ _ => τ

def label : NodeKind M → Type
  | udp _ _ _ => UdpLabel
  | kafka _ _ => ConsumerLabel
  | dialin _ _ _ _ => DialinLabel
  | dialout _ _ => DialoutLabel
  | replay _ _ _ => ReplayLabel
  | grpcOut _ => Supervisor.Label PipelineGrpcSupervisor.Event
  | tap _ _ _ _ => TapEvent
  | @other _ _ β _ => β

variable (decode : Encoding → Codec M)

def node : (k : NodeKind M) → Node k.state k.label
  | udp name encap caps => udpNode decode name encap caps
  | kafka cfg caps => kafkaNode cfg decode caps
  | dialin cfg server reqID caps => (dialinInput decode cfg server reqID caps).node
  | dialout cfg caps => (dialoutInput decode cfg caps).node
  | replay t opened dataChans => replayInput decode t opened dataChans
  | grpcOut cfg => (PipelineNodes.grpcOut decode cfg).node
  | tap render texts t opened => tapOutput render texts t opened
  | other n => n

/-- What the node has sent on its data channels. -/
def sent : (k : NodeKind M) → k.state → List (List (Option M))
  | udp _ _ _, s => Quiescence.sent (ServerState.dataChans s)
  | kafka _ _, s => Quiescence.sent (ConsumerState.dataChans s)
  | dialin _ _ _ _, s => Quiescence.sent (Dialin.dataChans s)
  | dialout _ _, s => Quiescence.sent (Dialout.dataChans s)
  | replay _ _ _, s => (ReplayNode.feeder s).dataChans.map (List.map some)
  | _, _ => []

/-- The inputs that are done with their data channels when they answer. -/
def Quiet : NodeKind M → Prop
  | udp _ _ _ => True
  | kafka _ _ => True
  | dialin _ _ _ _ => True
  | replay _ _ _ => True
  | _ => False

/-- The node has returned for good, or one of its goroutines has, and there was no
    answer to SHUTDOWN. -/
def Defunct : (k : NodeKind M) → k.state → Prop
  | kafka _ _, s => ConsumerState.pc s = .returned ∧ ConsumerState.shutdownAccepted s = false
  | dialin _ _ _ _, s => Supervisor.SomeQuit (Dialin.block s)
  | dialout _ _, s => Supervisor.SomeQuit (Dialout.block s)
  | replay _ _ _, s => ReplayNode.pc s = .terminated ∧ ReplayNode.shutdownAcked s = false
  | grpcOut _, s => Supervisor.SomeQuit s
  | tap _ _ _ _, s => (TapNode.tap s).returned = true ∧ TapNode.shutdownAcked s = false
  | _, _ => False

/-- The configuration of the node leaves it no return but on SHUTDOWN. -/
def Sound : NodeKind M → Prop
  | udp _ _ _ => True
  | kafka cfg _ => ∃ codec, getCodec decode cfg.msgEncoding = .ok codec
  | dialin cfg _ _ _ => Configured decode cfg .dialin
  | dialout cfg _ => Configured decode cfg .dialout
  | replay t opened dataChans => Reliable (replayInput decode t opened dataChans)
  | grpcOut cfg => Configured decode cfg .output
  | tap _ _ _ opened => opened.isSome = true
  | other n => Reliable n

variable {decode}

variable {k : NodeKind M}

theorem still (hk : k.Quiet) :
    Still (k.node decode).sys (fun s => (k.node decode).acked s = true) k.sent := by
  cases k with
  | udp name encap caps => exact udp_still decode name encap caps
  | kafka cfg caps => exact kafka_still cfg decode caps
  | dialin cfg server reqID caps => exact dialin_still server reqID caps
  | replay t opened dataChans =>
      intro s hs hacked u hu
      have hsame : (ReplayNode.feeder u).dataChans = (ReplayNode.feeder s).dataChans :=
        replay_still decode t opened dataChans s hs hacked u hu
      show (ReplayNode.feeder u).dataChans.map _ = (ReplayNode.feeder s).dataChans.map _
      rw [hsame]
  | _ => exact hk.elim

theorem mute_of_defunct {s : k.state} (hs : Reach (k.node decode).sys anyStep s) (h : k.Defunct s) :
    Mute (k.node decode) s := by
  cases k with
  | kafka cfg caps => exact kafka_mute h
  | dialin cfg server reqID caps =>
      exact (dialinInput decode cfg server reqID caps).mute_of_quit hs h
  | dialout cfg caps => exact (dialoutInput decode cfg caps).mute_of_quit hs h
  | replay t opened dataChans => exact replay_mute h
  | grpcOut cfg => exact (PipelineNodes.grpcOut decode cfg).mute_of_quit hs h
  | tap render texts t opened => exact tap_mute h
  | udp name encap caps => exact h.elim
  | other n => exact h.elim

/-- **A NODE IS RELIABLE EXACTLY IF ITS CONFIGURATION IS SOUND**. -/
theorem reliable_iff (k : NodeKind M) : Reliable (k.node decode) ↔ k.Sound decode := by
  cases k with
  | udp name encap caps => exact iff_of_true (udp_reliable decode name encap caps) trivial
  | kafka cfg caps => exact kafka_reliable_iff cfg decode caps
  | dialin cfg server reqID caps =>
      exact (dialin_reliable_iff server reqID caps).trans lasting_iff
  | dialout cfg caps => exact (dialout_reliable_iff caps).trans lasting_iff
  | replay t opened dataChans => exact Iff.rfl
  | grpcOut cfg => exact grpcOut_reliable_iff.trans lasting_iff
  | tap render texts t opened => exact tap_reliable_iff render texts t opened
  | other n => exact Iff.rfl

end NodeKind

/-- The nodes of a configuration. -/
structure Plan (ι M : Type) : Type 1 where
  kind : ι → NodeKind M
  inputNodes : List ι
  outputNodes : List ι
  nodup : (inputNodes ++ outputNodes).Nodup

variable {ι M : Type}

def Plan.pipeline (decode : Encoding → Codec M) (plan : Plan ι M) :
    Pipeline ι (fun i => (plan.kind i).state) (fun i => (plan.kind i).label) where
  node := fun i => (plan.kind i).node decode
  inputNodes := plan.inputNodes
  outputNodes := plan.outputNodes
  nodup := plan.nodup

variable [DecidableEq ι] {decode : Encoding → Codec M} {plan : Plan ι M}

/-! ## Quiet inputs -/

/-- **THE OUTPUTS ARE ASKED WHEN THE INPUTS ARE QUIET**: from then on the inputs that
    are done with their data channels when they answer send nothing, in any
    interleaving and in any company. -/
theorem pipeline_quiet {s t : State ι (fun i => (plan.kind i).state)}
    (hs : Reach (conductor (plan.pipeline decode)) anyStep s) {o i : ι}
    (ho : o ∈ plan.outputNodes) (hreq : o ∈ s.requested) (hi : i ∈ plan.inputNodes)
    (hquiet : (plan.kind i).Quiet)
    (ht : Reach (resume (conductor (plan.pipeline decode)) s) anyStep t) :
    (plan.kind i).sent (t.nodes i) = (plan.kind i).sent (s.nodes i) := by
  have hacked : ((plan.kind i).node decode).acked (s.nodes i) = true :=
    (inv_of_reach hs).inputs_acked ho hreq hi
  exact (shows_node (plan.pipeline decode) i).still (NodeKind.still hquiet) hs hacked ht

/-- A Kafka input with this encoding, and a tap. -/
def kafkaToTap (enc : Encoding) : Plan Bool Octets where
  kind := fun i => bif i then .tap sampleRender sampleTexts sampleTap (some [])
    else .kafka ⟨"inkafka", .id, enc, false⟩ [1]
  inputNodes := [false]
  outputNodes := [true]
  nodup := List.nodup_cons.mpr
    ⟨fun h => Bool.false_ne_true (List.mem_singleton.mp h), List.nodup_singleton _⟩

/-- A message is passed on, then both nodes are asked to stop. -/
def kafkaToTapRun : List (Label Bool (fun i => ((kafkaToTap .json).kind i).label)) :=
  [.own false (ConsumerLabel.connect true), .own false (ConsumerLabel.consume ⟨"", [7]⟩),
    .own false (ConsumerLabel.deliver false), .signal, .wake, .range false, .request, .answer,
    .close, .rangeEnd, .range true, .request]

/-- What was sent is received, and nothing is added. -/
theorem pipeline_quiet_kafka :
    ∃ s t, exec (conductor ((kafkaToTap .json).pipeline wholeBlocks))
        (conductor ((kafkaToTap .json).pipeline wholeBlocks)).init kafkaToTapRun = some s ∧
      exec (conductor ((kafkaToTap .json).pipeline wholeBlocks)) s
        [.own false (ConsumerLabel.drain 0)] = some t ∧
      ((kafkaToTap .json).kind false).sent (s.nodes false) = [[some [7]]] ∧
      ((kafkaToTap .json).kind false).sent (t.nodes false)
        = ((kafkaToTap .json).kind false).sent (s.nodes false) := by
  have hs : ∃ s, exec (conductor ((kafkaToTap .json).pipeline wholeBlocks))
        (conductor ((kafkaToTap .json).pipeline wholeBlocks)).init kafkaToTapRun = some s ∧
      s.requested = [false, true] ∧
      ((kafkaToTap .json).kind false).sent (s.nodes false) = [[some [7]]] ∧
      ∃ t, exec (conductor ((kafkaToTap .json).pipeline wholeBlocks)) s
        [.own false (ConsumerLabel.drain 0)] = some t :=
    ⟨_, rfl, rfl, rfl, _, rfl⟩
  obtain ⟨s, he, hreq, hsent, t, he'⟩ := hs
  refine ⟨s, t, he, he', hsent, ?_⟩
  refine pipeline_quiet (reach_exec _ (fun _ _ _ => trivial) .init he) (o := true)
    (List.mem_singleton_self _) ?_ (List.mem_singleton_self _) trivial
    (reach_of_leads ⟨_, fun _ _ => trivial, he'⟩)
  rw [hreq]
  exact List.mem_cons_of_mem _ (List.mem_singleton_self _)

/-! ## Nodes that hold up the shutdown -/

/-- **A DEFUNCT NODE HOLDS UP THE SHUTDOWN** for good: `run` is never released.  If
    the node is an input, no output is ever asked to stop. -/
theorem pipeline_hangs {s t : State ι (fun i => (plan.kind i).state)}
    (hs : Reach (conductor (plan.pipeline decode)) anyStep s) {i : ι}
    (hi : i ∈ plan.inputNodes ++ plan.outputNodes) (hdefunct : (plan.kind i).Defunct (s.nodes i))
    (ht : Reach (resume (conductor (plan.pipeline decode)) s) anyStep t) :
    t.main = .waiting ∧ (i ∈ plan.inputNodes → ∀ o ∈ plan.outputNodes, o ∉ t.requested) := by
  have hmute : Mute ((plan.kind i).node decode) (s.nodes i) :=
    NodeKind.mute_of_defunct ((shows_node (plan.pipeline decode) i).reach hs) hdefunct
  obtain ⟨hunanswered, hmain⟩ := waiting_of_mute hi hs hmute ht
  refine ⟨hmain, fun hin o ho hreq => ?_⟩
  have hinv := (course_of_reach (inv_of_reach hs) ht i).1
  have hacked := hinv.inputs_acked ho hreq hin
  rw [hunanswered] at hacked
  cases hacked

/-- The Kafka input finds no codec for JSON events: a signal gets the conductor as
    far as that, and the tap goes on. -/
theorem pipeline_hangs_kafka :
    ∃ t, exec (conductor ((kafkaToTap .jsonEvents).pipeline wholeBlocks))
        (conductor ((kafkaToTap .jsonEvents).pipeline wholeBlocks)).init
        [.signal, .wake, .range false, .own true (TapEvent.dataClosed)] = some t ∧
      t.main = .waiting ∧ true ∉ t.requested := by
  have ht : ∃ t, exec (conductor ((kafkaToTap .jsonEvents).pipeline wholeBlocks))
        (conductor ((kafkaToTap .jsonEvents).pipeline wholeBlocks)).init
        [.signal, .wake, .range false, .own true (TapEvent.dataClosed)] = some t := ⟨_, rfl⟩
  obtain ⟨t, he⟩ := ht
  have hdefunct : ((kafkaToTap .jsonEvents).kind false).Defunct
      ((conductor ((kafkaToTap .jsonEvents).pipeline wholeBlocks)).init.nodes false) := ⟨rfl, rfl⟩
  obtain ⟨hmain, hnone⟩ := pipeline_hangs .init (i := false) (List.mem_cons_self ..) hdefunct
    (reach_of_leads ⟨_, fun _ _ => trivial, he⟩)
  exact ⟨t, he, hmain, hnone (List.mem_singleton_self _) true (List.mem_singleton_self _)⟩

/-! ## Stopping at any time -/

/-- **THE PROCESS CAN BE STOPPED AT ANY TIME EXACTLY IF EVERY NODE IS SOUND**. -/
theorem pipeline_stops_iff (decode : Encoding → Codec M) (plan : Plan ι M) :
    (∀ s, Reach (conductor (plan.pipeline decode)) anyStep s → s.main = .waiting →
      ∃ t, Leads (conductor (plan.pipeline decode)) (fun _ => True) s t ∧ t.main = .exited) ↔
      ∀ i ∈ plan.inputNodes ++ plan.outputNodes, (plan.kind i).Sound decode := by
  refine stops_iff_reliable.trans ?_
  refine forall_congr' fun i => imp_congr_right fun _ => ?_
  exact NodeKind.reliable_iff (plan.kind i)

end Kinds

end PipelineShutdown
