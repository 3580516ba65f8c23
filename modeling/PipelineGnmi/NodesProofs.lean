import PipelineGnmi.ConductorProofs
import PipelineGnmi.CtrlServiceProofs
import PipelineGnmi.GrpcDialinProofs
import PipelineGnmi.GrpcDialoutProofs
import PipelineGnmi.InputQuiescenceProofs

/-! # The nodes of a pipeline

    What the conductor needs to know of a node, for the nodes that are modelled:
    how it takes SHUTDOWN and whether it has answered.  Of each of them it is shown

    * whether it is still once it has answered;
    * when it is mute, that is never going to answer;
    * when it is reliable: whatever it has been doing it can come to take SHUTDOWN,
      and then to answer.

    The gRPC nodes are supervisors with goroutines around them, and are treated
    together (`Supervised`). -/

namespace PipelineNodes

open GoChan Sweep Transition Projection Quiescence PipelineMessage PipelineDataMsg
open PipelineConductor (Node)

/-! ## Mute and reliable nodes -/

section Notions

variable {σ α : Type}

/-- The node will not answer any more. -/
def Mute (n : Node σ α) (s : σ) : Prop :=
  ∀ t, Reach (resume n.sys s) anyStep t → n.acked t = false

/-- Whatever it has been doing, the node can come to take SHUTDOWN, and whatever it
    does then it can come to answer. -/
structure Reliable (n : Node σ α) : Prop where
  serves : ∀ u, Leads n.sys n.Own n.sys.init u → n.Serves u
  answers : ∀ u v w, Leads n.sys n.Own n.sys.init u → n.sys.next u (n.shutdown u) = some v →
    Leads n.sys n.Own v w → n.Answers w

variable {n : Node σ α} {s : σ}

/-- A node that takes no step any more and has not answered is mute. -/
theorem mute_of_halted (h : ∀ a, n.sys.next s a = none) (hs : n.acked s = false) : Mute n s := by
  intro t ht
  have hsame : t = s := by
    refine ht.invariant (I := fun u => u = s) rfl ?_
    rintro u a v rfl _ hn
    exact absurd ((h a).symm.trans hn) (Option.some_ne_none v).symm
  rw [hsame]
  exact hs

/-- A node that may come to be mute is not reliable. -/
theorem not_reliable_of_mute {u : σ} (hu : Leads n.sys n.Own n.sys.init u) (hmute : Mute n u) :
    ¬ Reliable n := by
  intro h
  obtain ⟨t, v, ht, hv, w, hw, hacked⟩ := h.serves u hu
  have hany : ∀ {a b : σ}, Leads n.sys n.Own a b → Leads n.sys (fun _ => True) a b :=
    fun ⟨labels, _, he⟩ => ⟨labels, fun _ _ => trivial, he⟩
  have hrun : Leads n.sys (fun _ => True) u w :=
    (hany ht).trans ((Leads.single trivial hv).trans (hany hw))
  rw [hmute w (reach_of_leads hrun)] at hacked
  cases hacked

variable {I : σ → Prop} {t : σ}

/-- What a run on its own keeps. -/
theorem own_invariant (hs : I s)
    (hstep : ∀ u a v, I u → n.ctrl a = false → n.sys.next u a = some v → I v)
    (h : Leads n.sys n.Own s t) : I t := by
  obtain ⟨labels, hown, he⟩ := h
  induction labels generalizing s with
  | nil => exact Option.some.inj he ▸ hs
  | cons a rest ih =>
      obtain ⟨u, hu, hrest⟩ := Option.bind_eq_some_iff.mp he
      exact ih (hstep s a u hs (hown a (List.mem_cons_self ..)) hu)
        (fun b hb => hown b (List.mem_cons_of_mem _ hb)) hrest

theorem reach_own (n : Node σ α) (hs : Reach n.sys anyStep s) (h : Leads n.sys n.Own s t) :
    Reach n.sys anyStep t :=
  own_invariant (I := fun u => Reach n.sys anyStep u) hs
    (fun _ _ _ hu _ hn => .next hu trivial hn) h

/-- **A NODE IS RELIABLE** if a place where it was not asked lets it come to be, and
    a place where it was lets it come to answer. -/
theorem reliable_of {J : σ → Prop} (hinit : I n.sys.init)
    (hI : ∀ u a v, I u → n.ctrl a = false → n.sys.next u a = some v → I v)
    (hask : ∀ u v, I u → n.sys.next u (n.shutdown u) = some v → J v)
    (hJ : ∀ u a v, J u → n.ctrl a = false → n.sys.next u a = some v → J v)
    (htakes : ∀ u, I u → ∃ t v, Leads n.sys n.Own u t ∧ n.sys.next t (n.shutdown t) = some v)
    (hanswers : ∀ u, J u → n.Answers u) : Reliable n := by
  constructor
  · intro u hu
    have hIu := own_invariant hinit hI hu
    obtain ⟨t, v, ht, hv⟩ := htakes u hIu
    exact ⟨t, v, ht, hv, hanswers v (hask t v (own_invariant hIu hI ht) hv)⟩
  · intro u v w hu hv hw
    exact hanswers w (own_invariant (hask u v (own_invariant hinit hI hu) hv) hJ hw)

end Notions

/-! ## Supervisors -/

/-- A system around a supervisor: its steps are steps of the supervisor or leave it
    alone, and it takes a label of the supervisor as one of its own. -/
structure Supervised (τ β ω ε : Type) where
  sys : System τ β
  prog : Supervisor.Program ω ε
  view : τ → Supervisor.State ω
  block : Supervisor.Label ε → β
  ctrl : β → Bool
  ctrl_shutdown : ctrl (block .shutdown) = true
  init : view sys.init = (Supervisor.supervisor prog).init
  step : ∀ {s t : τ} {l : β}, sys.next s l = some t →
    (view t = view s ∧ ctrl l = false) ∨
      ∃ a, a.ctrl = ctrl l ∧ Supervisor.step prog (view s) a = some (view t)
  shutdown_step : ∀ {s t : τ}, sys.next s (block .shutdown) = some t →
    Supervisor.step prog (view s) .shutdown = some (view t)

namespace Supervised

variable {τ β ω ε : Type} (v : Supervised τ β ω ε)

theorem shows : Shows v.sys (Supervisor.supervisor v.prog) v.view := by
  refine ⟨v.init, fun hn => ?_⟩
  rcases v.step hn with ⟨hsame, -⟩ | ⟨a, -, ha⟩
  · exact Or.inl hsame
  · exact Or.inr ⟨a, ha⟩

variable {s : τ}

/-- What the steps of the supervisor keep, the steps of the whole keep. -/
theorem view_step {I : Supervisor.State ω → Prop} {t : τ} {l : β} (hs : I (v.view s))
    (h : ∀ a, a.ctrl = v.ctrl l →
      Supervisor.step v.prog (v.view s) a = some (v.view t) → I (v.view t))
    (hn : v.sys.next s l = some t) : I (v.view t) := by
  rcases v.step hn with ⟨hsame, -⟩ | ⟨a, ha, hstep⟩
  · rw [hsame]
    exact hs
  · exact h a ha hstep

/-- The supervisor has answered, and is gone. -/
def acked (s : τ) : Bool := (v.view s).acked && decide ((v.view s).pc = .returned)

theorem acked_iff : v.acked s = true ↔ (v.view s).acked = true ∧ (v.view s).pc = .returned := by
  rw [acked, Bool.and_eq_true, decide_eq_true_iff]

/-- The supervisor as a node. -/
def node : Node τ β where
  sys := v.sys
  shutdown := fun _ => v.block .shutdown
  ctrl := v.ctrl
  acked := v.acked
  ctrl_shutdown := fun _ => v.ctrl_shutdown
  acked_step := by
    intro s t l hacked hn
    obtain ⟨ha, hpc⟩ := v.acked_iff.mp hacked
    rcases v.step hn with ⟨hsame, -⟩ | ⟨a, -, hstep⟩
    · rw [acked, hsame]
      exact hacked
    · exact v.acked_iff.mpr
        ⟨Supervisor.acked_step hstep ha, Supervisor.returned_step hstep hpc⟩
  deaf := by
    intro s l hacked hl
    cases hn : v.sys.next s l with
    | none => rfl
    | some t =>
        rcases v.step hn with ⟨-, hctrl⟩ | ⟨a, ha, hstep⟩
        · rw [hl] at hctrl
          cases hctrl
        · rw [Supervisor.step_ctrl_returned v.prog (v.acked_iff.mp hacked).2 (ha.trans hl)] at hstep
          cases hstep

/-- Where a worker has quit the node is mute. -/
theorem mute_of_quit (hs : Reach v.sys anyStep s) (hquit : Supervisor.SomeQuit (v.view s)) :
    Mute v.node s := by
  intro t ht
  have hall : Reach v.sys anyStep t ∧ Supervisor.SomeQuit (v.view t) := by
    refine ht.invariant (I := fun u => Reach v.sys anyStep u ∧ Supervisor.SomeQuit (v.view u))
      ⟨hs, hquit⟩ ?_
    rintro u l w ⟨hu, hq⟩ _ hn
    exact ⟨.next hu trivial hn, v.view_step hq (fun _ _ hstep => hq.step hstep) hn⟩
  cases hacked : v.node.acked t with
  | false => rfl
  | true =>
      have hinv := Supervisor.inv_of_reach (v.shows.reach hall.1)
      exact absurd (v.acked_iff.mp hacked).2 (hinv.unsettled hall.2)

/-- The labels of the supervisor by which it comes to its answer. -/
def Onward (P : ε → Prop) (l : Supervisor.Label ε) : Prop :=
  l = .wake ∨ l = .shutdown ∨ Supervisor.Answering P l

variable {P : ε → Prop}

/-- **A SUPERVISOR IS RELIABLE** if none of its workers quits, it can take the steps
    towards its answer, and once it is asked the worker that runs can be brought
    to where it signals. -/
theorem reliable (hquit : ∀ c w e, v.prog.next c w e ≠ some .quit)
    (hlift : ∀ s l b, Reach v.sys anyStep s → Onward P l →
      Supervisor.step v.prog (v.view s) l = some b →
      ∃ t, v.sys.next s (v.block l) = some t ∧ v.view t = b)
    (hown : ∀ l, Onward P l → l ≠ .shutdown → v.ctrl (v.block l) = false)
    (hsettle : ∀ s, Reach v.sys anyStep s → (v.view s).Shut →
      ∃ t, Leads v.sys v.node.Own s t ∧ (v.view t).Shut ∧
        ∀ (k : Nat) (w : ω) (c : Bool), (v.view t).workers[k]? = some ⟨.running w, c⟩ →
          Supervisor.Signals v.prog P w) : Reliable v.node := by
  have hkeep : ∀ {u : τ} {l : β} {t : τ}, Reach v.sys anyStep u → v.sys.next u l = some t →
      Reach v.sys anyStep t := fun hu hn => .next hu trivial hn
  refine reliable_of
    (I := fun u => Reach v.sys anyStep u ∧ Supervisor.Unasked (v.view u))
    (J := fun u => Reach v.sys anyStep u ∧ (v.view u).Shut) ?_ ?_ ?_ ?_ ?_ ?_
  · refine ⟨.init, ?_⟩
    show Supervisor.Unasked (v.view v.sys.init)
    rw [v.init]
    exact Or.inr rfl
  · rintro u l t ⟨hu, hun⟩ hl hn
    exact ⟨hkeep hu hn, v.view_step hun (fun _ ha hstep => hun.step (ha.trans hl) hstep) hn⟩
  · rintro u t ⟨hu, hun⟩ hn
    exact ⟨hkeep hu hn, Supervisor.shut_of_shutdown (v.shutdown_step hn)⟩
  · rintro u l t ⟨hu, hshut⟩ hl hn
    exact ⟨hkeep hu hn,
      v.view_step hshut (fun _ _ hstep => Supervisor.shut_step hstep hshut) hn⟩
  · rintro u ⟨hu, hun⟩
    have htakes : ∀ s, Reach v.sys anyStep s → (v.view s).pc = .selecting →
        ∃ t, v.sys.next s (v.block .shutdown) = some t := by
      intro s hs hpc
      obtain ⟨b, hb⟩ := Supervisor.shutdown_enabled v.prog hpc
      obtain ⟨t, ht, -⟩ := hlift s .shutdown b hs (Or.inr (Or.inl rfl)) hb
      exact ⟨t, ht⟩
    rcases hun with hpc | hpc
    · have hwake : Supervisor.step v.prog (v.view u) .wake
          = some { v.view u with pc := .selecting } := if_pos hpc
      obtain ⟨t, ht, hview⟩ := hlift u .wake _ hu (Or.inl rfl) hwake
      obtain ⟨w, hw⟩ := htakes t (hkeep hu ht) (by rw [hview])
      refine ⟨t, w, Leads.single ?_ ht, hw⟩
      exact hown .wake (Or.inl rfl) (fun h => by cases h)
    · obtain ⟨w, hw⟩ := htakes u hu hpc
      exact ⟨u, w, Leads.refl _ _ _, hw⟩
  · rintro u ⟨hu, hshut⟩
    obtain ⟨t, ht, hshut', hsig⟩ := hsettle u hu hshut
    have hreach : Reach v.sys anyStep t := reach_own v.node hu ht
    have hview := v.shows.reach hreach
    obtain ⟨b, hb, hpc, hacked⟩ := Supervisor.leads_acked hview hshut'
      (Supervisor.not_someQuit hquit hview) hsig
    -- the whole follows the supervisor to its answer
    obtain ⟨w, hw, rfl, -⟩ := leads_lift v.view (C := v.sys)
      (J := fun s => Reach v.sys anyStep s) (K := v.node.Own) (by
        intro s a b hs ha hstep
        have hon : Onward P a := Or.inr (Or.inr ha)
        obtain ⟨w, hw, rfl⟩ := hlift s a b hs hon hstep
        refine ⟨_, w, hown a hon ?_, hw, rfl, hkeep hs hw⟩
        rintro rfl
        exact ha) hreach hb
    exact ⟨w, ht.trans hw, v.acked_iff.mpr ⟨hacked, hpc⟩⟩

/-- **A SUPERVISOR IS NOT RELIABLE** if its first worker may quit and it can take the
    steps to there. -/
theorem not_reliable (h : Supervisor.Quitting v.prog P v.prog.start)
    (hlift : ∀ s l b, Reach v.sys anyStep s → Supervisor.Starting P l →
      Supervisor.step v.prog (v.view s) l = some b →
      ∃ t, v.sys.next s (v.block l) = some t ∧ v.view t = b)
    (hown : ∀ l, Supervisor.Starting P l → v.ctrl (v.block l) = false) : ¬ Reliable v.node := by
  obtain ⟨b, hb, hquit⟩ := Supervisor.init_leads_quit h
  rw [← v.init] at hb
  obtain ⟨t, ht, rfl, hreach⟩ := leads_lift v.view (C := v.sys)
    (J := fun s => Reach v.sys anyStep s) (K := v.node.Own) (by
      intro s a b hs ha hstep
      obtain ⟨w, hw, rfl⟩ := hlift s a b hs ha hstep
      exact ⟨_, w, hown a ha, hw, rfl, .next hs trivial hw⟩) .init hb
  exact not_reliable_of_mute ht (v.mute_of_quit hreach hquit)

end Supervised

/-! ## The sticky loops -/

section Grpc

open PipelineGrpcSupervisor

variable {M : Type} {decode : Encoding → Codec M} {cfg : GrpcConfig}

/-- The stages of a sticky loop. -/
def has : Kind → Stage → Bool
  | .dialin, .encode => true
  | .dialin, .codec => true
  | .dialin, .tls => true
  | .dialin, .dial => true
  | .dialin, .subscribing _ _ => true
  | .dialin, .subscribed _ => true
  | .dialout, .codec => true
  | .dialout, .tls => true
  | .dialout, .listen => true
  | .dialout, .accepting => true
  | .dialout, .stopping => true
  | .output, .tls => true
  | .output, .listen => true
  | .output, .feeding _ => true
  | .output, .draining => true
  | .output, .stopping => true
  | _, _ => false

theorem has_start (decode : Encoding → Codec M) (cfg : GrpcConfig) (kind : Kind) :
    has kind (stickyLoop decode cfg kind).start = true := by
  cases kind <;> rfl

variable {kind : Kind} {w : Stage}

variable {c : Bool} {P : Event → Prop} {l : Supervisor.Label Event}

theorem has_next {w' : Stage} {e : Event}
    (h : (stickyLoop decode cfg kind).next c w e = some (.goto w')) : has kind w' = true := by
  cases kind with
  | dialin =>
      simp only [stickyLoop, remoteStickyLoop] at h
      split at h
      · split at h <;> cases h
        rfl
      · split at h <;> cases h
        rfl
      · split at h <;> cases h
        rfl
      · split at h <;> cases h
        rfl
      all_goals cases h
      all_goals rfl
  | dialout =>
      simp only [stickyLoop, localStickyLoop] at h
      split at h
      · split at h <;> cases h
        rfl
      · split at h <;> cases h
        rfl
      · split at h <;> cases h
        rfl
      · split at h <;> cases h
        rfl
      all_goals cases h
      all_goals rfl
  | output =>
      simp only [stickyLoop, outStickyLoop] at h
      split at h
      · split at h <;> cases h
        rfl
      · split at h <;> cases h
        rfl
      · cases h
        rfl
      · cases h
        rfl
      · split at h <;> cases h
        rfl
      all_goals cases h
      all_goals rfl

/-- A sticky loop that runs is at one of its stages. -/
theorem has_of_reach {b : Supervisor.State Stage} (h : Reach (grpc decode cfg kind) anyStep b)
    {k : Nat} (hk : b.workers[k]? = some ⟨.running w, c⟩) : has kind w = true := by
  let p : Nat → Supervisor.Status Stage → Prop :=
    fun _ st => ∀ w, st = .running w → has kind w = true
  have hall : ∀ (k : Nat) (v : Supervisor.Worker Stage), b.workers[k]? = some v → p k v.status := by
    refine h.invariant (I := fun b => ∀ (k : Nat) (v : Supervisor.Worker Stage),
      b.workers[k]? = some v → p k v.status) (fun _ _ hv => by cases hv) ?_
    intro u l t hu _ hn
    refine Supervisor.workers_step (p := p) (q := p) hn hu (fun _ _ _ h => h) ?_ ?_ ?_
    · intro w hw
      rw [← Supervisor.Status.running.inj hw]
      exact has_start decode cfg kind
    · intro k _ _ w hw
      cases hw
    · intro k e w c o _ _ ho _ w' hw'
      cases o with
      | goto w'' =>
          rw [← Supervisor.Status.running.inj hw']
          exact has_next ho
      | signal => cases hw'
      | quit => cases hw'
  exact hall k _ hk w rfl

/-- No return of the sticky loop is final. -/
def Lasting (decode : Encoding → Codec M) (cfg : GrpcConfig) (kind : Kind) : Prop :=
  ∀ w e, ¬ Fatal decode cfg kind w e

theorem Lasting.no_quit (h : Lasting decode cfg kind) (c : Bool) (w : Stage) (e : Event) :
    (stickyLoop decode cfg kind).next c w e ≠ some .quit :=
  fun hq => h w e ((stickyLoop_quits_iff decode cfg kind c w e).mp hq)

/-- A configuration that leaves a sticky loop no final return: the encoding it asks for
    and the one that comes are known, and there are no credentials to load. -/
structure Configured (decode : Encoding → Codec M) (cfg : GrpcConfig) (kind : Kind) : Prop where
  encode : kind = .dialin → ∃ enc, mapEncapToGRPCEncode cfg.encodingRequest = .ok enc
  codec : kind ≠ .output → ∃ codec, getCodec decode cfg.encap = .ok codec
  tls : cfg.tls = true → kind = .dialin ∧ cfg.tlsPem = ""

theorem lasting_iff : Lasting decode cfg kind ↔ Configured decode cfg kind := by
  constructor
  · intro h
    refine ⟨fun hkind => ?_, fun hkind => ?_, fun htls => ?_⟩
    · cases he : mapEncapToGRPCEncode cfg.encodingRequest with
      | ok enc => exact ⟨enc, rfl⟩
      | error err => exact absurd ⟨hkind, err, he⟩ (h .encode (.call true))
    · cases hc : getCodec decode cfg.encap with
      | ok codec => exact ⟨codec, rfl⟩
      | error err => exact absurd ⟨hkind, err, hc⟩ (h .codec (.call true))
    · by_contra hno
      refine h .tls (.call false) ⟨htls, fun hkind hpem => hno ⟨hkind, hpem⟩, rfl⟩
  · rintro h w e hf
    cases e with
    | call ok =>
        cases w with
        | encode =>
            obtain ⟨hkind, err, herr⟩ := hf
            obtain ⟨enc, henc⟩ := h.encode hkind
            cases henc.symm.trans herr
        | codec =>
            obtain ⟨hkind, err, herr⟩ := hf
            obtain ⟨codec, hcodec⟩ := h.codec hkind
            cases hcodec.symm.trans herr
        | tls =>
            obtain ⟨hkind, hpem⟩ := h.tls hf.1
            exact hf.2.1 hkind hpem
        | _ => exact hf.elim
    | _ => cases w <;> exact hf.elim

/-- The answers to calls. -/
def Called (e : Event) : Prop := ∃ ok, e = .call ok

/-- A server that is cancelled stops and signals. -/
theorem out_signals (hw : has .output w = true) :
    Supervisor.Signals (outStickyLoop cfg) (fun _ => True) w := by
  have hstopping : Supervisor.Signals (outStickyLoop cfg) (fun _ => True) .stopping :=
    .now (e := .call true) trivial rfl
  have hdraining : Supervisor.Signals (outStickyLoop cfg) (fun _ => True) .draining :=
    .later (e := .call true) trivial rfl hstopping
  have hlisten : Supervisor.Signals (outStickyLoop cfg) (fun _ => True) .listen :=
    .now (e := .call false) trivial rfl
  cases w with
  | tls =>
      refine .later (e := .call true) trivial ?_ hlisten
      simp [outStickyLoop]
  | listen => exact hlisten
  | feeding dataChan =>
      refine .later (e := .ctxDone) trivial ?_ hdraining
      cases dataChan <;> rfl
  | draining => exact hdraining
  | stopping => exact hstopping
  | _ => cases hw

theorem local_signals (h : Lasting decode cfg .dialout) (hw : has .dialout w = true) :
    Supervisor.Signals (localStickyLoop decode cfg) (fun _ => True) w := by
  have hstopping : Supervisor.Signals (localStickyLoop decode cfg) (fun _ => True) .stopping :=
    .now (e := .call true) trivial rfl
  have hlisten : Supervisor.Signals (localStickyLoop decode cfg) (fun _ => True) .listen :=
    .now (e := .call false) trivial rfl
  have htls : Supervisor.Signals (localStickyLoop decode cfg) (fun _ => True) .tls := by
    refine .later (e := .call true) trivial ?_ hlisten
    simp [localStickyLoop]
  cases w with
  | codec =>
      obtain ⟨codec, hcodec⟩ := (lasting_iff.mp h).codec (fun hk => by cases hk)
      refine .later (e := .call true) trivial ?_ htls
      simp only [localStickyLoop, hcodec]
  | tls => exact htls
  | listen => exact hlisten
  | accepting => exact .later (e := .ctxDone) trivial rfl hstopping
  | stopping => exact hstopping
  | _ => cases hw

/-- A connection without subscriptions is given up, by answers to calls alone. -/
theorem remote_signals (h : Lasting decode cfg .dialin) (hw : has .dialin w = true)
    (hlive : PipelineGrpcDialin.Stage.live w = 0) :
    Supervisor.Signals (remoteStickyLoop decode cfg) Called w := by
  have hsubscribed : Supervisor.Signals (remoteStickyLoop decode cfg) Called (.subscribed 0) :=
    .now (e := .call true) ⟨true, rfl⟩ rfl
  have hsubscribing : ∀ subs,
      Supervisor.Signals (remoteStickyLoop decode cfg) Called (.subscribing subs 0) := by
    intro subs
    induction subs with
    | nil => exact .later (e := .call true) ⟨true, rfl⟩ rfl hsubscribed
    | cons sub rest ih => exact .later (e := .call false) ⟨false, rfl⟩ rfl ih
  have hdial : Supervisor.Signals (remoteStickyLoop decode cfg) Called .dial :=
    .now (e := .call false) ⟨false, rfl⟩ rfl
  have htls : Supervisor.Signals (remoteStickyLoop decode cfg) Called .tls := by
    refine .later (e := .call true) ⟨true, rfl⟩ ?_ hdial
    simp [remoteStickyLoop]
  have hcodec : Supervisor.Signals (remoteStickyLoop decode cfg) Called .codec := by
    obtain ⟨codec, hc⟩ := (lasting_iff.mp h).codec (fun hk => by cases hk)
    refine .later (e := .call true) ⟨true, rfl⟩ ?_ htls
    simp only [remoteStickyLoop, hc]
  cases w with
  | encode =>
      obtain ⟨enc, he⟩ := (lasting_iff.mp h).encode rfl
      refine .later (e := .call true) ⟨true, rfl⟩ ?_ hcodec
      simp only [remoteStickyLoop, he]
  | codec => exact hcodec
  | tls => exact htls
  | dial => exact hdial
  | subscribing subs live =>
      obtain rfl : live = 0 := hlive
      exact hsubscribing subs
  | subscribed live =>
      obtain rfl : live = 0 := hlive
      exact hsubscribed
  | _ => cases hw

/-- A sticky loop with a final return may come to it, by answers to calls alone. -/
theorem quitting_of_fatal (h : ¬ Lasting decode cfg kind) :
    Supervisor.Quitting (stickyLoop decode cfg kind) Called
      (stickyLoop decode cfg kind).start := by
  rw [lasting_iff] at h
  have hquit : ∀ {w : Stage} (ok : Bool), Fatal decode cfg kind w (.call ok) →
      Supervisor.Quitting (stickyLoop decode cfg kind) Called w := fun {w} ok hf =>
    .now (e := .call ok) ⟨ok, rfl⟩ ((stickyLoop_quits_iff decode cfg kind false w _).mpr hf)
  -- each of the stages is final, or is passed with what is wrong still ahead
  have htls : ¬ (cfg.tls = true → kind = .dialin ∧ cfg.tlsPem = "") →
      Supervisor.Quitting (stickyLoop decode cfg kind) Called .tls := by
    intro hno
    obtain ⟨htls, hpem⟩ := Classical.not_imp.mp hno
    exact hquit false ⟨htls, fun hkind hempty => hpem ⟨hkind, hempty⟩, rfl⟩
  have hcodec : kind ≠ .output →
      ¬ ((∃ codec, getCodec decode cfg.encap = .ok codec) ∧
        (cfg.tls = true → kind = .dialin ∧ cfg.tlsPem = "")) →
      Supervisor.Quitting (stickyLoop decode cfg kind) Called .codec := by
    intro hkind hno
    cases hc : getCodec decode cfg.encap with
    | error err => exact hquit true ⟨hkind, err, hc⟩
    | ok codec =>
        refine .later (e := .call true) ⟨true, rfl⟩ ?_ (htls fun ht => hno ⟨⟨codec, hc⟩, ht⟩)
        cases kind with
        | dialin => simp only [stickyLoop, remoteStickyLoop, hc]
        | dialout => simp only [stickyLoop, localStickyLoop, hc]
        | output => exact absurd rfl hkind
  cases kind with
  | dialin =>
      show Supervisor.Quitting _ _ Stage.encode
      cases he : mapEncapToGRPCEncode cfg.encodingRequest with
      | error err => exact hquit true ⟨rfl, err, he⟩
      | ok enc =>
          refine .later (e := .call true) ⟨true, rfl⟩ ?_ (hcodec (fun hk => by cases hk)
            fun hno => h ⟨fun _ => ⟨enc, he⟩, fun _ => hno.1, hno.2⟩)
          simp only [stickyLoop, remoteStickyLoop, he]
  | dialout =>
      exact hcodec (fun hk => by cases hk)
        fun hno => h ⟨fun hk => (by cases hk), fun _ => hno.1, hno.2⟩
  | output => exact htls fun ht => h ⟨fun hk => (by cases hk), fun hk => absurd rfl hk, ht⟩

/-! ## The gRPC output -/

variable (decode cfg) in
/-- `grpcOutputModule`, down to its clients. -/
def grpcOut : Supervised (Supervisor.State Stage) (Supervisor.Label Event) Stage Event where
  sys := grpc decode cfg .output
  prog := outStickyLoop cfg
  view := id
  block := id
  ctrl := Supervisor.Label.ctrl
  ctrl_shutdown := rfl
  init := rfl
  step := fun h => Or.inr ⟨_, rfl, h⟩
  shutdown_step := id

/-- The labels towards the answer are not reads of the control channel. -/
theorem ctrl_of_onward (hl : Supervised.Onward P l) (hne : l ≠ .shutdown) : l.ctrl = false := by
  rcases hl with rfl | rfl | hl
  · rfl
  · exact absurd rfl hne
  · cases l <;> first | rfl | exact hl.elim

theorem ctrl_of_starting (hl : Supervisor.Starting P l) : l.ctrl = false := by
  cases l <;> first | rfl | exact hl.elim

theorem grpcOut_reliable (h : Lasting decode cfg .output) : Reliable (grpcOut decode cfg).node := by
  refine (grpcOut decode cfg).reliable (P := fun _ => True) h.no_quit ?_ ?_ ?_
  · intro s l b _ _ hstep
    exact ⟨b, hstep, rfl⟩
  · exact fun l hl hne => ctrl_of_onward hl hne
  · intro s hs hshut
    exact ⟨s, Leads.refl _ _ _, hshut, fun k w c hk => out_signals (has_of_reach hs hk)⟩

/-- **THE GRPC OUTPUT IS RELIABLE** exactly if no return of its server is final. -/
theorem grpcOut_reliable_iff : Reliable (grpcOut decode cfg).node ↔ Lasting decode cfg .output := by
  refine ⟨fun h => ?_, grpcOut_reliable⟩
  by_contra hfatal
  refine (grpcOut decode cfg).not_reliable (P := Called) (quitting_of_fatal hfatal) ?_ ?_ h
  · intro s l b _ _ hstep
    exact ⟨b, hstep, rfl⟩
  · exact fun l hl => ctrl_of_starting hl

/-! ## The gRPC input, dialed out to -/

section Dialout

open PipelineGrpcDialout

def dialoutCtrl : DialoutLabel → Bool
  | .block l => l.ctrl
  | _ => false

variable (decode cfg) in
/-- The dialout server as a supervisor with its handlers. -/
def dialoutInput (caps : List Nat) : Supervised (Dialout M) DialoutLabel Stage Event where
  sys := dialout decode cfg caps
  prog := localStickyLoop decode cfg
  view := Dialout.block
  block := .block
  ctrl := dialoutCtrl
  ctrl_shutdown := rfl
  init := rfl
  step := by
    intro s t l h
    cases dialoutMove_of_step h with
    | block hb => exact Or.inr ⟨_, rfl, hb⟩
    | _ => exact Or.inl ⟨rfl, rfl⟩
  shutdown_step := by
    intro s t h
    have hstep : dialoutStep decode cfg s (.block .shutdown) = some t := h
    cases dialoutMove_of_step hstep with
    | block hb => exact hb

/-- The block goes on whatever its handlers do. -/
theorem dialout_block {caps : List Nat} {s : Dialout M} {l : Supervisor.Label Event}
    {b : Supervisor.State Stage} (hs : Reach (dialout decode cfg caps) anyStep s)
    (h : Supervisor.step (localStickyLoop decode cfg) s.block l = some b) :
    ∃ t, (dialout decode cfg caps).next s (.block l) = some t ∧ t.block = b := by
  have hsafe : s.crashed = false := (PipelineGrpcDialout.inv_of_reach hs).safe
  refine ⟨{ s with
    block := b, controlCtx := (linksCtx decode cfg s.block l).or s.controlCtx }, ?_, rfl⟩
  show dialoutStep decode cfg s (.block l) = _
  simp only [dialoutStep, hsafe, h, Bool.false_eq_true, if_false]

theorem dialout_reliable (h : Lasting decode cfg .dialout) (caps : List Nat) :
    Reliable (dialoutInput decode cfg caps).node := by
  refine (dialoutInput decode cfg caps).reliable (P := fun _ => True) h.no_quit ?_ ?_ ?_
  · exact fun s l b hs _ hstep => dialout_block hs hstep
  · exact fun l hl hne => ctrl_of_onward hl hne
  · intro s hs hshut
    have hblock : Reach (grpc decode cfg .dialout) anyStep s.block :=
      PipelineGrpcDialout.shows_block.reach hs
    exact ⟨s, Leads.refl _ _ _, hshut, fun k w c hk => local_signals h (has_of_reach hblock hk)⟩

/-- **THE DIALOUT SERVER IS RELIABLE** exactly if no return of it is final. -/
theorem dialout_reliable_iff (caps : List Nat) :
    Reliable (dialoutInput decode cfg caps).node ↔ Lasting decode cfg .dialout := by
  refine ⟨fun h => ?_, fun h => dialout_reliable h caps⟩
  by_contra hfatal
  refine (dialoutInput decode cfg caps).not_reliable (P := Called) (quitting_of_fatal hfatal)
    ?_ ?_ h
  · exact fun s l b hs _ hstep => dialout_block hs hstep
  · exact fun l hl => ctrl_of_starting hl

end Dialout

/-! ## The gRPC input, dialing in -/

section Dialin

open PipelineGrpcDialin
open Relay (Pc)

def dialinCtrl : DialinLabel → Bool
  | .block l => l.ctrl
  | _ => false

variable {server : MsgProducer} {reqID : Int64} {caps : List Nat}

variable (decode cfg) in
/-- The dialin client as a supervisor with its subscriptions. -/
def dialinInput (server : MsgProducer) (reqID : Int64) (caps : List Nat) :
    Supervised (Dialin M) DialinLabel Stage Event where
  sys := dialin decode cfg server reqID caps
  prog := remoteStickyLoop decode cfg
  view := Dialin.block
  block := .block
  ctrl := dialinCtrl
  ctrl_shutdown := rfl
  init := rfl
  step := by
    intro s t l h
    cases dialinMove_of_step h with
    | block hl hb hcreate => exact Or.inr ⟨_, rfl, hb⟩
    | subscribed hb hcreate => exact Or.inr ⟨_, rfl, hb⟩
    | ended hj hstep hend hb => exact Or.inr ⟨.work _ .subEnd, rfl, hb⟩
    | _ => exact Or.inl ⟨rfl, rfl⟩
  shutdown_step := by
    intro s t h
    have hstep : dialinStep decode cfg server s (.block .shutdown) = some t := h
    cases dialinMove_of_step hstep with
    | block hl hb hcreate => exact hb
    | subscribed hb hcreate => exact hb

variable {s : Dialin M}

variable {sub : Subscription M}

/-- A goroutine that runs was started by the last sticky loop, whose context is
    cancelled once SHUTDOWN was taken. -/
theorem ctxDone_of_running (hs : Reach (dialin decode cfg server reqID caps) anyStep s)
    (hshut : s.block.Shut) (hsub : sub ∈ s.subs) (hrun : sub.stream.pc.running = true) :
    Supervisor.ctxDone s.block sub.loop = true := by
  have hblock := shows_block.reach hs
  have hinv := Supervisor.inv_of_reach hblock
  have hpos := running_pos hsub hrun
  rw [(PipelineGrpcDialin.inv_of_reach hs).live] at hpos
  unfold liveOf at hpos
  split at hpos
  · next w hw =>
      have hsig : w.status.signals = 0 := by
        cases hst : w.status with
        | running stage => rfl
        | quit => rfl
        | _ =>
            rw [hst] at hpos
            exact absurd hpos (Nat.lt_irrefl 0)
      have hlast := hinv.last_of_not_signalled hw hsig
      rw [s.block.length_signals] at hlast
      exact (Supervisor.cancelsLast_of_reach hblock sub.loop).mpr ⟨hlast, hshut⟩
  · exact absurd hpos (Nat.lt_irrefl 0)

/-- The goroutines that run. -/
def busy (s : Dialin M) : Nat := s.subs.countP (fun sub => sub.stream.pc.running)

theorem running_of_busy (h : busy s = 0) (k : Nat) : running s.subs k = 0 := by
  rw [busy, List.countP_eq_zero] at h
  rw [running, List.countP_eq_zero]
  intro sub hsub hand
  exact h sub hsub (Bool.and_eq_true_iff.mp hand).2

/-- A step by which a goroutine returns. -/
theorem leads_return (hs : Reach (dialin decode cfg server reqID caps) anyStep s) {j : Nat}
    (ev : Relay.Event CreateSubsReply) (hj : s.subs[j]? = some sub)
    (hstep : Relay.step (singleSubscription (decode cfg.encap) server)
      (Supervisor.ctxDone s.block sub.loop) s.dataChans sub.stream ev
        = .ok ({ sub.stream with pc := .returned }, s.dataChans)) :
    ∃ t, (dialin decode cfg server reqID caps).next s (.sub j ev) = some t ∧
      (s.block.Shut → t.block.Shut) ∧ busy t + 1 = busy s := by
  have hinv := PipelineGrpcDialin.inv_of_reach hs
  obtain ⟨hrun, hlive⟩ := hinv.counted hj hstep
  obtain ⟨b, hb⟩ := block_subEnd decode cfg hlive
  refine ⟨{ setStream s j sub { sub.stream with pc := .returned } s.dataChans with block := b },
    ?_, fun hshut => Supervisor.shut_step hb hshut, countP_set_of_drop hj hrun rfl⟩
  show dialinStep decode cfg server s (.sub j ev) = _
  simp only [dialinStep, hinv.safe, hj, hstep, Pc.running, hb, Bool.false_eq_true, if_false]

/-- Once SHUTDOWN was taken, a goroutine that runs can be brought to return. -/
theorem leads_fewer (hs : Reach (dialin decode cfg server reqID caps) anyStep s)
    (hshut : s.block.Shut) (hbusy : 0 < busy s) :
    ∃ t, Leads (dialin decode cfg server reqID caps) (fun l => dialinCtrl l = false) s t ∧
      t.block.Shut ∧ busy t + 1 = busy s := by
  obtain ⟨sub, hsub, hrun⟩ := List.countP_pos_iff.mp hbusy
  obtain ⟨j, hj⟩ := List.mem_iff_getElem?.mp hsub
  have hdone := ctxDone_of_running hs hshut hsub hrun
  cases hpc : sub.stream.pc with
  | receiving =>
      -- the receive fails and the stream is drained
      let st : Relay.Stream CreateSubsReply M := { sub.stream with pc := .draining }
      have hfail : (dialin decode cfg server reqID caps).next s (.sub j .fail)
          = some (setStream s j sub st s.dataChans) := by
        have hstep : Relay.step (singleSubscription (decode cfg.encap) server)
            (Supervisor.ctxDone s.block sub.loop) s.dataChans sub.stream .fail
              = .ok (st, s.dataChans) := by
          simp only [Relay.step, hpc, hdone, singleSubscription, Bool.and_true, if_true]
          rfl
        show dialinStep decode cfg server s (.sub j .fail) = _
        simp only [dialinStep, (PipelineGrpcDialin.inv_of_reach hs).safe, hj, hstep,
          Bool.false_eq_true, if_false]
        rfl
      have hlt : j < s.subs.length := (List.getElem?_eq_some_iff.mp hj).1
      have hj' : (setStream s j sub st s.dataChans).subs[j]? = some { sub with stream := st } :=
        List.getElem?_set_self hlt
      obtain ⟨t, ht, htshut, htbusy⟩ := leads_return (.next hs trivial hfail) .drained hj' rfl
      have hsame : busy (setStream s j sub st s.dataChans) = busy s :=
        countP_set_of_eq hj hrun.symm
      have hlead : Leads (dialin decode cfg server reqID caps) (fun l => dialinCtrl l = false) s
          (setStream s j sub st s.dataChans) := Leads.single rfl hfail
      exact ⟨t, leads_step hlead rfl ht, htshut hshut, htbusy.trans hsame⟩
  | draining =>
      obtain ⟨t, ht, htshut, htbusy⟩ := leads_return hs .drained hj (by
        simp only [Relay.step, hpc])
      exact ⟨t, Leads.single rfl ht, htshut hshut, htbusy⟩
  | pushing msgs i =>
      obtain ⟨t, ht, htshut, htbusy⟩ := leads_return hs .cancel hj (by
        simp only [Relay.step, hpc, hdone, if_true])
      exact ⟨t, Leads.single rfl ht, htshut hshut, htbusy⟩
  | returned =>
      rw [hpc] at hrun
      cases hrun

/-- And so can all of them. -/
theorem leads_idle : ∀ (n : Nat) {s : Dialin M},
    Reach (dialin decode cfg server reqID caps) anyStep s → s.block.Shut → busy s = n →
    ∃ t, Leads (dialin decode cfg server reqID caps) (fun l => dialinCtrl l = false) s t ∧
      t.block.Shut ∧ busy t = 0 := by
  intro n
  induction n with
  | zero => exact fun {s} _ hshut hbusy => ⟨s, Leads.refl _ _ _, hshut, hbusy⟩
  | succ n ih =>
      intro s hs hshut hbusy
      obtain ⟨u, hu, hushut, hubusy⟩ := leads_fewer hs hshut (by omega)
      have hreach : Reach (dialin decode cfg server reqID caps) anyStep u :=
        reach_own (dialinInput decode cfg server reqID caps).node hs hu
      obtain ⟨t, ht, htshut, htbusy⟩ := ih hreach hushut (by omega)
      exact ⟨t, hu.trans ht, htshut, htbusy⟩

/-- The block goes on whatever its subscriptions do; the end of one is theirs. -/
theorem dialin_block {l : Supervisor.Label Event} {b : Supervisor.State Stage}
    (hs : Reach (dialin decode cfg server reqID caps) anyStep s) (hne : ∀ k, l ≠ .work k .subEnd)
    (h : Supervisor.step (remoteStickyLoop decode cfg) s.block l = some b) :
    ∃ t, (dialin decode cfg server reqID caps).next s (.block l) = some t ∧ t.block = b := by
  have hsafe : s.crashed = false := (PipelineGrpcDialin.inv_of_reach hs).safe
  cases hcreate : createSubs s.block l with
  | none =>
      refine ⟨{ s with block := b }, ?_, rfl⟩
      show dialinStep decode cfg server s (.block l) = _
      simp only [dialinStep, hsafe, h, hcreate, Bool.false_eq_true, if_false]
  | some call =>
      obtain ⟨k, sub, ok⟩ := call
      refine ⟨subscribe cfg s k sub ok b, ?_, rfl⟩
      show dialinStep decode cfg server s (.block l) = _
      simp only [dialinStep, hsafe, h, hcreate, Bool.false_eq_true, if_false]

theorem dialin_reliable (h : Lasting decode cfg .dialin) (server : MsgProducer) (reqID : Int64)
    (caps : List Nat) : Reliable (dialinInput decode cfg server reqID caps).node := by
  refine (dialinInput decode cfg server reqID caps).reliable (P := Called) h.no_quit ?_ ?_ ?_
  · intro s l b hs hl hstep
    refine dialin_block hs ?_ hstep
    rintro k rfl
    rcases hl with hl | hl | ⟨ok, hl⟩ <;> cases hl
  · exact fun l hl hne => ctrl_of_onward hl hne
  · intro s hs hshut
    obtain ⟨t, ht, htshut, hbusy⟩ := leads_idle _ hs hshut rfl
    refine ⟨t, ht, htshut, fun k w c hk => ?_⟩
    have hreach : Reach (dialin decode cfg server reqID caps) anyStep t :=
      reach_own (dialinInput decode cfg server reqID caps).node hs ht
    have hblock : Reach (grpc decode cfg .dialin) anyStep t.block := shows_block.reach hreach
    refine remote_signals h (has_of_reach hblock hk) ?_
    have hlive := (PipelineGrpcDialin.inv_of_reach hreach).live k
    rw [running_of_busy hbusy, liveOf, show t.block.workers[k]? = _ from hk] at hlive
    exact hlive.symm

/-- **THE DIALIN CLIENT IS RELIABLE** exactly if no return of it is final. -/
theorem dialin_reliable_iff (server : MsgProducer) (reqID : Int64) (caps : List Nat) :
    Reliable (dialinInput decode cfg server reqID caps).node ↔ Lasting decode cfg .dialin := by
  refine ⟨fun h => ?_, fun h => dialin_reliable h server reqID caps⟩
  by_contra hfatal
  refine (dialinInput decode cfg server reqID caps).not_reliable (P := Called)
    (quitting_of_fatal hfatal) ?_ ?_ h
  · intro s l b hs hl hstep
    refine dialin_block hs ?_ hstep
    rintro k rfl
    obtain ⟨ok, hl⟩ := hl
    cases hl
  · exact fun l hl => ctrl_of_starting hl

/-- Once it has answered, nothing is sent. -/
theorem dialin_still (server : MsgProducer) (reqID : Int64) (caps : List Nat) :
    Still (dialinInput decode cfg server reqID caps).sys
      (fun s => (dialinInput decode cfg server reqID caps).node.acked s = true)
      (fun s => sent s.dataChans) := by
  refine still_of_silent ?_
  intro s a t hs hacked hn
  have ha : Acked s := ((dialinInput decode cfg server reqID caps).acked_iff.mp hacked).1
  exact ⟨(dialinInput decode cfg server reqID caps).node.acked_step hacked hn,
    (silent_step hs ha hn).2⟩

end Dialin

end Grpc

/-! ## The UDP input -/

section Udp

open PipelineEncapSt PipelineUdpServer
open PipelineInputQuiescence (UdpAcked UdpInv OfReceiver received_of_step udpInv_step udp_quiescent)

variable {M : Type}

def udpCtrl : UdpLabel → Bool
  | .ctrl _ => true
  | _ => false

/-- `serverUDP` as a node. -/
def udpNode (decode : Encoding → Codec M) (name encap : String) (caps : List Nat) :
    Node (ServerState M) UdpLabel where
  sys := udpServer decode name encap caps
  shutdown := fun _ => .ctrl .shutdown
  ctrl := udpCtrl
  acked := fun s => decide (s.supervisor = .returned)
  ctrl_shutdown := fun _ => rfl
  acked_step := by
    intro s t l hacked hn
    have hs : s.supervisor = .returned := of_decide_eq_true hacked
    have hstep : udpStep decode name encap s l = some t := hn
    refine decide_eq_true ?_
    by_cases hl : OfReceiver l
    · exact (received_of_step hstep hl).supervisor.trans hs
    · cases moves_of_step hstep with
      | arrived _ => exact hs
      | collected _ _ => exact hs
      | drained _ _ => exact hs
      | listened hwait _ => cases hwait.symm.trans hs
      | woken hsleep => cases hsleep.symm.trans hs
      | ignored _ => exact hs
      | shutUnbound hwait _ => cases hwait.symm.trans hs
      | shutBound hwait _ => cases hwait.symm.trans hs
      | closed hclosing _ => cases hclosing.symm.trans hs
      | _ => exact absurd trivial hl
  deaf := by
    intro s l hacked hl
    have hs : s.supervisor = .returned := of_decide_eq_true hacked
    cases l with
    | ctrl id =>
        have hwait : s.supervisor ≠ .waiting := by
          rw [hs]
          exact Supervisor.noConfusion
        show udpStep decode name encap s (.ctrl id) = none
        simp only [udpStep, if_neg hwait]
    | _ => cases hl

theorem udp_still (decode : Encoding → Codec M) (name encap : String) (caps : List Nat) :
    Still (udpNode decode name encap caps).sys
      (fun s => (udpNode decode name encap caps).acked s = true) (fun s => sent s.dataChans) := by
  intro s hs hacked t ht
  have hs' : UdpAcked s := of_decide_eq_true (p := s.supervisor = .returned) hacked
  exact udp_quiescent decode name encap caps s hs hs' t ht

/-- The receiver runs or has said that it is done, and what it has in hand it can
    offer. -/
structure UdpOk (s : ServerState M) : Prop where
  inv : UdpInv s
  opened : AllOpen s.dataChans
  alive : s.closedListener = true ∨ PipelineInputQuiescence.Running s.receiver
  placed : Placed s.dataChans.length (offerPlace s.receiver)

variable {s t : ServerState M} {conn : Nat} {parser : EncapSTParser M}
variable {decode : Encoding → Codec M} {encap name : String}

theorem udpOk_stop (hopen : AllOpen s.dataChans) : UdpOk (stop s) :=
  ⟨⟨fun h => h.elim, fun h => h.elim, fun h => h.elim⟩, hopen, Or.inl rfl, placed_none _⟩

variable {d : Datagram} {l : UdpLabel}

theorem udpOk_goOn {msgs : List M} {i : Nat} (hopen : AllOpen s.dataChans)
    (hinv : UdpInv (goOn s conn parser d msgs i)) : UdpOk (goOn s conn parser d msgs i) := by
  unfold goOn at hinv ⊢
  cases hp : place s.dataChans.length msgs i with
  | none =>
      rw [hp] at hinv
      exact ⟨hinv, hopen, Or.inr trivial, placed_none _⟩
  | some p =>
      rw [hp] at hinv
      exact ⟨hinv, hopen, Or.inr trivial, placed_of_place hp⟩

/-- **ONE STEP OF THE UDP SERVER**. -/
theorem udpOk_step (hs : UdpOk s) (h : udpStep decode name encap s l = some t) : UdpOk t := by
  have hinv := udpInv_step hs.inv h
  cases moves_of_step h with
  | arrived _ => exact ⟨hinv, hs.opened, hs.alive, hs.placed⟩
  | collected _ _ => exact ⟨hinv, hs.opened, hs.alive, hs.placed⟩
  | @drained i m ch ch' hch hrecv =>
      refine ⟨hinv, hs.opened.recv hch hrecv, hs.alive, ?_⟩
      show Placed (s.dataChans.set i ch').length (offerPlace s.receiver)
      rw [List.length_set]
      exact hs.placed
  | @listened osOk hwait hclosed =>
      simp only [listenUDP] at hinv ⊢
      split at hinv
      · next hok => exact if_pos hok ▸ ⟨hinv, hs.opened, Or.inr trivial, placed_none _⟩
      · next hok => exact if_neg hok ▸ ⟨hinv, hs.opened, Or.inl hclosed, hs.placed⟩
  | woken _ => exact ⟨hinv, hs.opened, hs.alive, hs.placed⟩
  | ignored _ => exact hs
  | shutUnbound _ _ => exact ⟨hinv, hs.opened, hs.alive, hs.placed⟩
  | shutBound _ _ => exact ⟨hinv, hs.opened, hs.alive, hs.placed⟩
  | closed _ _ => exact ⟨hinv, hs.opened, hs.alive, hs.placed⟩
  | noParser _ _ _ => exact udpOk_stop hs.opened
  | started _ _ _ => exact ⟨hinv, hs.opened, Or.inr trivial, placed_none _⟩
  | noBuffer _ _ => exact udpOk_stop hs.opened
  | received hr hn hsock =>
      unfold handleDatagram at hinv ⊢
      split at hinv
      · exact udpOk_stop hs.opened
      · exact ⟨hinv, hs.opened, Or.inr trivial, placed_none _⟩
      · exact udpOk_goOn hs.opened hinv
  | readFailed _ => exact udpOk_stop hs.opened
  | passed _ _ _ => exact udpOk_goOn hs.opened hinv
  | offered _ hch hsend => exact udpOk_goOn (hs.opened.send hch hsend) hinv
  | offerPanic _ hch hpanic => exact absurd hpanic (hs.opened.send_ne_panic hch _ false)
  | abandoned _ _ => exact udpOk_stop hs.opened

/-- The receiver can come to its end. -/
def Ends (decode : Encoding → Codec M) (name encap : String) (caps : List Nat)
    (s : ServerState M) : Prop :=
  ∃ t, Leads (udpServer decode name encap caps) (udpNode decode name encap caps).Own s t ∧
    t.closedListener = true ∧ t.supervisor = s.supervisor

variable (caps : List Nat)

theorem reading_ends (hr : s.receiver = .reading conn parser) : Ends decode name encap caps s := by
  refine ⟨stop s, Leads.single rfl (a := .readError) ?_, rfl, rfl⟩
  show udpStep decode name encap s .readError = _
  simp only [udpStep, hr]

/-- Where `goOn` leaves the server: reading, or at the next place. -/
theorem goOn_rests (s : ServerState M) (conn : Nat) (parser : EncapSTParser M) (d : Datagram)
    (msgs : List M) (i : Nat) :
    (goOn s conn parser d msgs i).supervisor = s.supervisor ∧
      (goOn s conn parser d msgs i).cancelled = s.cancelled ∧
      (goOn s conn parser d msgs i).dataChans = s.dataChans ∧
      ((goOn s conn parser d msgs i).receiver = .reading conn parser ∨
        ∃ msgs' i', place s.dataChans.length msgs i = some (msgs', i') ∧
          (goOn s conn parser d msgs i).receiver = .delivering conn parser d msgs' i') := by
  unfold goOn
  cases hp : place s.dataChans.length msgs i with
  | none => exact ⟨rfl, rfl, rfl, Or.inl rfl⟩
  | some p => exact ⟨rfl, rfl, rfl, Or.inr ⟨p.1, p.2, rfl, rfl⟩⟩

/-- Cancelled, the receiver gives up at the first channel with room and passes over
    those without: by induction on the sends that are left. -/
theorem delivering_ends (k : Nat) :
    ∀ (s : ServerState M) (msgs : List M) (i : Nat),
      s.receiver = .delivering conn parser d msgs i → s.cancelled = true →
      Placed s.dataChans.length (offerPlace s.receiver) →
      Sweep.left s.dataChans.length (some (msgs, i)) = k → Ends decode name encap caps s := by
  induction k using Nat.strong_induction_on with
  | _ k ih =>
      intro s msgs i hr hcancelled hplaced hk
      rw [hr] at hplaced
      obtain ⟨hlt, msg, rest, rfl⟩ := hplaced msgs i rfl
      have hch := List.getElem?_eq_getElem hlt
      by_cases hfull : s.dataChans[i].cap = s.dataChans[i].buf.length
      · have hpass : udpStep decode name encap s .offer
            = some (goOn s conn parser d (msg :: rest) (i + 1)) := by
          simp only [udpStep, hr, hch, if_pos hfull]
        obtain ⟨hsup, hcan, hchans, hnext⟩ := goOn_rests s conn parser d (msg :: rest) (i + 1)
        have hends : Ends decode name encap caps
            (goOn s conn parser d (msg :: rest) (i + 1)) := by
          rcases hnext with hread | ⟨msgs', i', hp, hr'⟩
          · exact reading_ends caps hread
          · have hleft := left_next hlt msg rest
            rw [hp] at hleft
            refine ih (Sweep.left s.dataChans.length (some (msgs', i'))) (by omega) _ msgs' i' hr'
              (hcan.trans hcancelled) ?_ (by rw [hchans])
            rw [hr', hchans]
            exact placed_of_place hp
        obtain ⟨t, ht, hclosed, hsup'⟩ := hends
        exact ⟨t, Leads.trans (Leads.single rfl (a := .offer) hpass) ht, hclosed,
          hsup'.trans hsup⟩
      · refine ⟨stop s, Leads.single rfl (a := .cancel) ?_, rfl, rfl⟩
        show udpStep decode name encap s .cancel = _
        simp only [udpStep, hr, hch]
        exact if_pos ⟨hcancelled, hfull⟩

/-- Cancelled, the receiver can always come to its end. -/
theorem UdpOk.ends (hs : UdpOk s) (hcancelled : s.cancelled = true) :
    Ends decode name encap caps s := by
  rcases hs.alive with hclosed | hrun
  · exact ⟨s, Leads.refl .., hclosed, rfl⟩
  · cases hr : s.receiver with
    | stopped => exact (hr ▸ hrun).elim
    | crashed => exact (hr ▸ hrun).elim
    | starting =>
        obtain ⟨conn, hconn⟩ := Option.ne_none_iff_exists'.mp (hs.inv.listener hrun)
        cases hp : getNewEncapParser decode name encap none with
        | error err =>
            refine ⟨stop s, Leads.single rfl (a := .start) ?_, rfl, rfl⟩
            show udpStep decode name encap s .start = _
            simp only [udpStep, hr, hconn, hp]
        | ok parser =>
            have hreads : Ends decode name encap caps { s with receiver := .reading conn parser } :=
              reading_ends caps rfl
            obtain ⟨t, ht, hend⟩ := hreads
            refine ⟨t, Leads.trans (Leads.single rfl (a := .start) ?_) ht, hend⟩
            show udpStep decode name encap s .start = _
            simp only [udpStep, hr, hconn, hp]
    | reading conn parser => exact reading_ends caps hr
    | delivering conn parser d msgs i =>
        exact delivering_ends caps _ s msgs i hr hcancelled hs.placed rfl

/-- What the supervisor does on its own: it binds and sleeps, and comes to its end
    when the receiver has. -/
inductive Drifts : Supervisor → Supervisor → Prop where
  | same (p : Supervisor) : Drifts p p
  | sleeps : Drifts .waiting .sleeping
  | wakes : Drifts .sleeping .waiting
  | ends : Drifts .closing .returned

theorem drifts_of_step (hl : udpCtrl l = false) (h : udpStep decode name encap s l = some t) :
    t.cancelled = s.cancelled ∧ Drifts s.supervisor t.supervisor := by
  have hgo : ∀ (s' : ServerState M) (conn : Nat) (parser : EncapSTParser M) (d : Datagram)
      (msgs : List M) (i : Nat), s'.cancelled = s.cancelled → s'.supervisor = s.supervisor →
      (goOn s' conn parser d msgs i).cancelled = s.cancelled ∧
        Drifts s.supervisor (goOn s' conn parser d msgs i).supervisor := by
    intro s' conn parser d msgs i hcan hsup
    obtain ⟨hsup', hcan', -, -⟩ := goOn_rests s' conn parser d msgs i
    rw [hsup', hsup]
    exact ⟨hcan'.trans hcan, .same _⟩
  cases moves_of_step h with
  | arrived _ => exact ⟨rfl, .same _⟩
  | collected _ _ => exact ⟨rfl, .same _⟩
  | drained _ _ => exact ⟨rfl, .same _⟩
  | listened hwait _ =>
      simp only [listenUDP]
      split
      · exact ⟨rfl, .same _⟩
      · rw [hwait]
        exact ⟨rfl, .sleeps⟩
  | woken hsleep =>
      rw [hsleep]
      exact ⟨rfl, .wakes⟩
  | ignored _ => cases hl
  | shutUnbound _ _ => cases hl
  | shutBound _ _ => cases hl
  | closed hclosing _ =>
      rw [hclosing]
      exact ⟨rfl, .ends⟩
  | noParser _ _ _ => exact ⟨rfl, .same _⟩
  | started _ _ _ => exact ⟨rfl, .same _⟩
  | noBuffer _ _ => exact ⟨rfl, .same _⟩
  | received _ _ _ =>
      unfold handleDatagram
      split
      · exact ⟨rfl, .same _⟩
      · exact ⟨rfl, .same _⟩
      · exact hgo _ _ _ _ _ _ rfl rfl
  | readFailed _ => exact ⟨rfl, .same _⟩
  | passed _ _ _ => exact hgo _ _ _ _ _ _ rfl rfl
  | offered _ _ _ => exact hgo _ _ _ _ _ _ rfl rfl
  | offerPanic _ _ _ => exact ⟨rfl, .same _⟩
  | abandoned _ _ => exact ⟨rfl, .same _⟩

/-- SHUTDOWN was not taken. -/
def Unstopped (s : ServerState M) : Prop :=
  UdpOk s ∧ (s.supervisor = .waiting ∨ s.supervisor = .sleeping)

/-- SHUTDOWN was taken. -/
def Stopping (s : ServerState M) : Prop :=
  UdpOk s ∧ s.cancelled = true ∧ (s.supervisor = .closing ∨ s.supervisor = .returned)

theorem stopping_of_shutdown (hs : UdpOk s)
    (h : udpStep decode name encap s (.ctrl .shutdown) = some t) : Stopping t := by
  have hok := udpOk_step hs h
  cases moves_of_step h with
  | ignored hne => exact absurd rfl hne
  | shutUnbound _ _ => exact ⟨hok, rfl, Or.inr rfl⟩
  | shutBound _ _ => exact ⟨hok, rfl, Or.inl rfl⟩

/-- **THE UDP INPUT IS RELIABLE**. -/
theorem udp_reliable (decode : Encoding → Codec M) (name encap : String) (caps : List Nat) :
    Reliable (udpNode decode name encap caps) := by
  refine reliable_of (I := Unstopped) (J := Stopping) ?_ ?_ ?_ ?_ ?_ ?_
  · exact ⟨⟨⟨fun h => h.elim, fun h => h.elim, fun h => h.elim⟩, allOpen_make caps,
      Or.inl rfl, placed_none _⟩, Or.inl rfl⟩
  · rintro u l v ⟨hok, hsup⟩ hl hn
    refine ⟨udpOk_step hok hn, ?_⟩
    generalize hp : u.supervisor = p at hsup
    generalize hq : v.supervisor = q
    have hdrift := (drifts_of_step hl hn).2
    rw [hp, hq] at hdrift
    cases hdrift with
    | same _ => exact hsup
    | sleeps => exact Or.inr rfl
    | wakes => exact Or.inl rfl
    | ends => exact hsup.elim (fun h => by cases h) (fun h => by cases h)
  · intro u v hu hn
    have hstep : udpStep decode name encap u (.ctrl .shutdown) = some v := hn
    exact stopping_of_shutdown hu.1 hstep
  · rintro u l v ⟨hok, hcan, hsup⟩ hl hn
    obtain ⟨hcan', hdrift⟩ := drifts_of_step hl hn
    refine ⟨udpOk_step hok hn, hcan'.trans hcan, ?_⟩
    generalize hp : u.supervisor = p at hsup hdrift
    generalize hq : v.supervisor = q at hdrift
    cases hdrift with
    | same _ => exact hsup
    | sleeps => exact hsup.elim (fun h => by cases h) (fun h => by cases h)
    | wakes => exact hsup.elim (fun h => by cases h) (fun h => by cases h)
    | ends => exact Or.inr rfl
  · rintro u ⟨hok, hsup⟩
    -- the supervisor wakes if it sleeps, and then takes what comes on its channel
    have htakes : ∀ {w : ServerState M}, w.supervisor = .waiting →
        ∃ v, udpStep decode name encap w (.ctrl .shutdown) = some v := by
      intro w hw
      simp only [udpStep, if_pos hw]
      cases w.listener with
      | none => exact ⟨_, rfl⟩
      | some conn => exact ⟨_, rfl⟩
    rcases hsup with hwait | hsleep
    · obtain ⟨v, hv⟩ := htakes hwait
      exact ⟨u, v, Leads.refl .., hv⟩
    · obtain ⟨v, hv⟩ := htakes (w := { u with supervisor := .waiting }) rfl
      exact ⟨_, v, Leads.single rfl (a := .wake) (if_pos hsleep), hv⟩
  · rintro u ⟨hok, hcan, hsup⟩
    rcases hsup with hclosing | hret
    · have hends : Ends decode name encap caps u := hok.ends caps hcan
      obtain ⟨t, ht, hclosed, hsup'⟩ := hends
      refine ⟨{ t with supervisor := .returned },
        ht.trans (Leads.single rfl (a := .closed) ?_), rfl⟩
      exact if_pos ⟨hsup'.trans hclosing, hclosed⟩
    · exact ⟨u, Leads.refl .., decide_eq_true hret⟩

end Udp

/-! ## The Kafka input -/

section Kafka

open PipelineKafkaConsumer

variable {M : Type}

/-- The control requests, in the outer select and in that of a delivery. -/
def kafkaCtrl : ConsumerLabel → Bool
  | .ctrl _ => true
  | .deliverCtrl _ => true
  | _ => false

/-- SHUTDOWN comes to the select the consumer is in. -/
def kafkaShutdown (s : ConsumerState M) : ConsumerLabel :=
  match s.pc with
  | .delivering _ _ _ => .deliverCtrl .shutdown
  | _ => .ctrl .shutdown

/-- The consumer returned on SHUTDOWN. -/
def kafkaAcked (s : ConsumerState M) : Bool :=
  match s.pc with
  | .returned => s.shutdownAccepted
  | _ => false

variable {s t : ConsumerState M} {cfg : KafkaConsumerConfig} {codec : Codec M}

theorem kafkaAcked_iff : kafkaAcked s = true ↔ s.pc = .returned ∧ s.shutdownAccepted = true := by
  unfold kafkaAcked
  cases s.pc <;> simp

variable {l : ConsumerLabel} {decode : Encoding → Codec M}

/-- A consumer that returned does nothing; what it sent is received. -/
theorem returned_drains (hs : s.pc = .returned) (h : consumerStep cfg codec s l = some t) :
    kafkaCtrl l = false ∧ t.pc = .returned ∧ t.shutdownAccepted = s.shutdownAccepted ∧
      sent t.dataChans = sent s.dataChans := by
  cases moves_of_step h with
  | drained hch hrecv => exact ⟨rfl, hs, rfl, sent_recv hch hrecv⟩
  | connected hpc => cases hpc.symm.trans hs
  | ignored hpc => cases hpc.symm.trans hs
  | restarted hpc => cases hpc.symm.trans hs
  | flushedNone hpc _ => cases hpc.symm.trans hs
  | flushed hpc _ => cases hpc.symm.trans hs
  | flushPanic hpc _ _ => cases hpc.symm.trans hs
  | consumed hpc _ => cases hpc.symm.trans hs
  | served hpc => cases hpc.symm.trans hs
  | delivered hpc _ _ => cases hpc.symm.trans hs
  | deliverPanic hpc _ _ => cases hpc.symm.trans hs
  | interrupted hpc => cases hpc.symm.trans hs

/-- `maintainKafkaConsumerConnection` as a node. -/
def kafkaNode (cfg : KafkaConsumerConfig) (decode : Encoding → Codec M) (caps : List Nat) :
    Node (ConsumerState M) ConsumerLabel where
  sys := consumer cfg decode caps
  shutdown := kafkaShutdown
  ctrl := kafkaCtrl
  acked := kafkaAcked
  ctrl_shutdown := by
    intro s
    unfold kafkaShutdown
    split <;> rfl
  acked_step := by
    intro s t l hacked hn
    obtain ⟨hpc, hacc⟩ := kafkaAcked_iff.mp hacked
    obtain ⟨-, hpc', hacc', -⟩ := returned_drains hpc hn
    exact kafkaAcked_iff.mpr ⟨hpc', hacc'.trans hacc⟩
  deaf := by
    intro s l hacked hl
    cases hn : (consumer cfg decode caps).next s l with
    | none => rfl
    | some t =>
        have hno := (returned_drains (kafkaAcked_iff.mp hacked).1 hn).1
        rw [hl] at hno
        cases hno

theorem kafka_still (cfg : KafkaConsumerConfig) (decode : Encoding → Codec M) (caps : List Nat) :
    Still (kafkaNode cfg decode caps).sys (fun s => (kafkaNode cfg decode caps).acked s = true)
      (fun s => sent s.dataChans) := by
  refine still_of_silent ?_
  intro s l t _ hacked hn
  have hpc := (kafkaAcked_iff.mp hacked).1
  exact ⟨(kafkaNode cfg decode caps).acked_step hacked hn, (returned_drains hpc hn).2.2.2⟩

/-- A consumer that returned and did not answer is mute. -/
theorem kafka_mute {caps : List Nat} (hs : s.pc = .returned ∧ s.shutdownAccepted = false) :
    Mute (kafkaNode cfg decode caps) s := by
  intro t ht
  have hkept : t.pc = .returned ∧ t.shutdownAccepted = false := by
    refine ht.invariant (I := fun u => u.pc = .returned ∧ u.shutdownAccepted = false) hs ?_
    rintro u l v ⟨hpc, hacc⟩ _ hn
    obtain ⟨-, hpc', hacc', -⟩ := returned_drains hpc hn
    exact ⟨hpc', hacc'.trans hacc⟩
  refine Bool.eq_false_iff.mpr fun hacked => ?_
  have hacc := (kafkaAcked_iff.mp hacked).2
  rw [hkept.2] at hacc
  cases hacc

theorem accepted_goOn (s : ConsumerState M) (data : ConsumerMessage) (dMs : List M) (i : Nat) :
    (goOn s data dMs i).shutdownAccepted = s.shutdownAccepted := by
  unfold goOn
  split <;> rfl

/-- SHUTDOWN is accepted from the control channel alone. -/
theorem accepted_step (hl : kafkaCtrl l = false) (h : consumerStep cfg codec s l = some t) :
    t.shutdownAccepted = s.shutdownAccepted := by
  cases moves_of_step h with
  | consumed _ _ => exact accepted_goOn ..
  | delivered _ _ _ => exact accepted_goOn ..
  | served _ => cases hl
  | interrupted _ => cases hl
  | _ => rfl

/-- The select the consumer is in takes SHUTDOWN. -/
theorem kafkaShutdown_taken (cfg : KafkaConsumerConfig) (codec : Codec M)
    (hs : s.pc = .selecting ∨ ∃ data dMs i, s.pc = .delivering data dMs i) :
    consumerStep cfg codec s (kafkaShutdown s)
      = some { s with pc := .returned, shutdownAccepted := true } := by
  rcases hs with hpc | ⟨data, dMs, i, hpc⟩
  · simp only [kafkaShutdown, consumerStep, hpc, handleCtrlMsg]
  · simp only [kafkaShutdown, consumerStep, hpc, handleCtrlMsg]

/-- SHUTDOWN is taken by a return. -/
theorem acked_of_shutdown (h : consumerStep cfg codec s (kafkaShutdown s) = some t) :
    kafkaAcked t = true := by
  by_cases hs : s.pc = .selecting ∨ ∃ data dMs i, s.pc = .delivering data dMs i
  · rw [kafkaShutdown_taken cfg codec hs] at h
    cases h
    rfl
  · cases hpc : s.pc with
    | selecting => exact absurd (Or.inl hpc) hs
    | delivering data dMs i => exact absurd (Or.inr ⟨data, dMs, i, hpc⟩) hs
    | connecting => simp only [kafkaShutdown, consumerStep, hpc] at h; cases h
    | returned => simp only [kafkaShutdown, consumerStep, hpc] at h; cases h
    | crashed => simp only [kafkaShutdown, consumerStep, hpc] at h; cases h

/-- **THE KAFKA INPUT IS RELIABLE** when its encoding has a codec. -/
theorem kafka_reliable (caps : List Nat)
    (hcodec : ∃ codec, getCodec decode cfg.msgEncoding = .ok codec) :
    Reliable (kafkaNode cfg decode caps) := by
  obtain ⟨codec, hok⟩ := hcodec
  refine reliable_of (I := fun s => PipelineCtrlService.Serves s ∧ s.shutdownAccepted = false)
    (J := fun s => kafkaAcked s = true) ?_ ?_ ?_ ?_ ?_ ?_
  · refine ⟨⟨?_, fun hne => absurd rfl hne, allOpen_make caps⟩, rfl⟩
    simp only [kafkaNode, consumer, hok]
    rfl
  · rintro u l v ⟨hserves, hacc⟩ hl hn
    exact ⟨PipelineCtrlService.serves_step hserves hn, (accepted_step hl hn).trans hacc⟩
  · exact fun u v _ hn => acked_of_shutdown hn
  · exact fun u l v hacked _ hn => (kafkaNode cfg decode caps).acked_step hacked hn
  · rintro u ⟨hserves, hacc⟩
    have hplace := hserves.atPlace
    cases hpc : u.pc with
    | connecting =>
        -- a connection, made or not, brings it to its select
        have hconnect : consumerStep cfg (decode cfg.msgEncoding) u (.connect false)
            = some { u with pc := .selecting, connected := false, retryScheduled := true } := by
          simp only [consumerStep, hpc, Bool.not_false]
        exact ⟨_, _, Leads.single rfl (a := .connect false) hconnect,
          kafkaShutdown_taken cfg (decode cfg.msgEncoding)
            (s := { u with pc := .selecting, connected := false, retryScheduled := true })
            (Or.inl rfl)⟩
    | selecting => exact ⟨u, _, Leads.refl .., kafkaShutdown_taken _ _ (Or.inl hpc)⟩
    | delivering data dMs i =>
        exact ⟨u, _, Leads.refl .., kafkaShutdown_taken _ _ (Or.inr ⟨data, dMs, i, hpc⟩)⟩
    | returned =>
        rw [hpc] at hplace
        have hyes : u.shutdownAccepted = true := hplace
        rw [hacc] at hyes
        cases hyes
    | crashed =>
        rw [hpc] at hplace
        exact hplace.elim
  · exact fun u hacked => ⟨u, Leads.refl .., hacked⟩

/-- **THE CODEC DECIDES**: without one the Kafka input is mute from the start. -/
theorem kafka_reliable_iff (cfg : KafkaConsumerConfig) (decode : Encoding → Codec M)
    (caps : List Nat) : Reliable (kafkaNode cfg decode caps) ↔
      ∃ codec, getCodec decode cfg.msgEncoding = .ok codec := by
  refine ⟨fun h => ?_, kafka_reliable caps⟩
  cases hget : getCodec decode cfg.msgEncoding with
  | ok codec => exact ⟨codec, rfl⟩
  | error err =>
      refine absurd h (not_reliable_of_mute (Leads.refl ..) (kafka_mute ⟨?_, rfl⟩))
      simp only [kafkaNode, consumer, hget]

end Kafka

/-! ## The replay input -/

section Replay

open PipelineEncapSt PipelineReplay PipelineCtrlService

variable {M : Type}

def replayCtrl : ReplayLabel → Bool
  | .ctrl _ => true
  | _ => false

variable (decode : Encoding → Codec M) (t : ReplayInputModule)

variable {s : ReplayNode M}

/-- A goroutine that is gone takes no step. -/
theorem terminated_halts (hs : s.pc = .terminated) (l : ReplayLabel) :
    replayStep decode t s l = none := by
  have hne : ∀ {pc : ReplayPc}, pc ≠ .terminated → s.pc ≠ pc := by
    intro pc hpc heq
    exact hpc (heq.symm.trans hs)
  cases l with
  | tick => exact if_neg fun h => hne (fun h => by cases h) h.1
  | iterate full => exact if_neg (hne fun h => by cases h)
  | restart opened => exact if_neg (hne fun h => by cases h)
  | ctrl id => exact if_neg (hne fun h => by cases h)

/-- `replayInputFeederLoopSticky` as a node. -/
def replayInput (opened : Option Octets) (dataChans : List (List M)) :
    Node (ReplayNode M) ReplayLabel where
  sys := replayNode decode t opened dataChans
  shutdown := fun _ => .ctrl .shutdown
  ctrl := replayCtrl
  acked := fun s => decide (s.pc = .terminated) && s.shutdownAcked
  ctrl_shutdown := fun _ => rfl
  acked_step := by
    intro s u l hacked hn
    have hpc : s.pc = .terminated := of_decide_eq_true (Bool.and_eq_true_iff.mp hacked).1
    cases (terminated_halts decode t hpc l).symm.trans hn
  deaf := by
    intro s l hacked _
    have hpc : s.pc = .terminated := of_decide_eq_true (Bool.and_eq_true_iff.mp hacked).1
    exact terminated_halts decode t hpc l

theorem replay_still (opened : Option Octets) (dataChans : List (List M)) :
    Still (replayInput decode t opened dataChans).sys
      (fun s => (replayInput decode t opened dataChans).acked s = true)
      (fun s => s.feeder.dataChans) := by
  refine still_of_halted _ ?_
  intro s l hacked
  exact terminated_halts decode t (of_decide_eq_true (Bool.and_eq_true_iff.mp hacked).1) l

/-- A replay that ran out of its archive is mute. -/
theorem replay_mute {decode : Encoding → Codec M} {t : ReplayInputModule} {opened : Option Octets}
    {dataChans : List (List M)} (hs : s.pc = .terminated ∧ s.shutdownAcked = false) :
    Mute (replayInput decode t opened dataChans) s := by
  refine mute_of_halted (terminated_halts decode t hs.1) ?_
  show (decide (s.pc = .terminated) && s.shutdownAcked) = false
  rw [hs.2, Bool.and_false]

end Replay

/-! ## The tap -/

section Tap

open PipelineTap PipelineCtrlService

def tapCtrl : TapEvent → Bool
  | .ctrl _ => true
  | _ => false

variable (render : Renderers) (texts : TapTexts) (t : TapOutputModule) (opened : Option Octets)

variable {s : TapNode}

theorem returned_halts (hs : s.tap.returned = true) (l : TapEvent) :
    (tapNode render texts t opened).next s l = none := by
  show (tapStep render texts t s.tap l).map _ = none
  simp only [tapStep, if_pos hs, Option.map_none]

/-- `tapOutputFeederLoop` as a node. -/
def tapOutput : Node TapNode TapEvent where
  sys := tapNode render texts t opened
  shutdown := fun _ => .ctrl .shutdown
  ctrl := tapCtrl
  acked := fun s => s.tap.returned && s.shutdownAcked
  ctrl_shutdown := fun _ => rfl
  acked_step := by
    intro s u l hacked hn
    cases (returned_halts render texts t opened (Bool.and_eq_true_iff.mp hacked).1 l).symm.trans hn
  deaf := by
    intro s l hacked _
    exact returned_halts render texts t opened (Bool.and_eq_true_iff.mp hacked).1 l

theorem tap_mute {render : Renderers} {texts : TapTexts} {t : TapOutputModule}
    {opened : Option Octets} (hs : s.tap.returned = true ∧ s.shutdownAcked = false) :
    Mute (tapOutput render texts t opened) s := by
  refine mute_of_halted (returned_halts render texts t opened hs.1) ?_
  show (s.tap.returned && s.shutdownAcked) = false
  rw [hs.2, Bool.and_false]

/-- **THE TAP IS RELIABLE** when its file opened: it is in its select all the time. -/
theorem tap_reliable (archive : Octets) : Reliable (tapOutput render texts t (some archive)) := by
  refine reliable_of (I := fun s => s.tap.returned = false)
    (J := fun s => (s.tap.returned && s.shutdownAcked) = true) rfl ?_ ?_ ?_ ?_ ?_
  · intro u l v hu hl hn
    obtain ⟨st, hstep, rfl⟩ := Option.map_eq_some_iff.mp hn
    refine Bool.eq_false_iff.mpr fun hret => ?_
    have hanswers := tap_returns hstep hret
    cases l with
    | ctrl id => cases hl
    | timeout => cases hanswers
    | data msg => cases hanswers
    | dataClosed => cases hanswers
  · intro u v hu hn
    obtain ⟨st, hstep, rfl⟩ := Option.map_eq_some_iff.mp hn
    have hu' : u.tap.returned = false := hu
    simp only [tapOutput, tapStep, hu', Bool.false_eq_true, if_false, Option.some.injEq] at hstep
    subst hstep
    show (true && (u.shutdownAcked || decide (u.tap.acks + 1 = u.tap.acks + 1))) = true
    rw [decide_eq_true rfl, Bool.or_true]
    rfl
  · exact fun u l v hacked _ hn => (tapOutput render texts t (some archive)).acked_step hacked hn
  · intro u hu
    have hu' : u.tap.returned = false := hu
    have hstep : tapStep render texts t u.tap (.ctrl .shutdown)
        = some { u.tap with w := u.tap.w.flush, acks := u.tap.acks + 1, returned := true } := by
      simp only [tapStep, hu', Bool.false_eq_true, if_false]
    exact ⟨u, _, Leads.refl .., Option.map_eq_some_iff.mpr ⟨_, hstep, rfl⟩⟩
  · exact fun u hacked => ⟨u, Leads.refl .., hacked⟩

/-- **THE FILE DECIDES**: without one the tap is mute from the start. -/
theorem tap_reliable_iff : Reliable (tapOutput render texts t opened) ↔ opened.isSome = true := by
  cases opened with
  | some archive => exact iff_of_true (tap_reliable render texts t archive) rfl
  | none =>
      refine iff_of_false (not_reliable_of_mute (Leads.refl ..) (tap_mute ⟨rfl, rfl⟩)) ?_
      exact Bool.false_ne_true

end Tap

end PipelineNodes
