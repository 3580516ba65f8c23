import PipelineGnmi.ProjectionProofs

/-! # The conductor — shutting the pipeline down

    `run` of `pipeline.go`.  A goroutine ranges over the signals of the process;
    for each it goes over the inputs and then over the outputs, in whatever order
    the range over a map takes.  It sends SHUTDOWN on the control channel of a
    node, waits for the answer, and closes the channel.  Then it releases `run`,
    and the process comes to its end.

    A node is any system with a label by which it takes SHUTDOWN; the nodes go on
    with their own work all the while.  `shutdown_in_order` is what the goroutine
    guarantees in every interleaving, and `shutdown_completes_iff` says when it
    gets to its end: as long as every node can still answer. -/

namespace PipelineConductor

open Transition Projection

/-- A node of the pipeline: its program, the label by which it takes SHUTDOWN off
    its control channel where it is, all the labels by which it reads the channel,
    and whether it has answered.  A node that has answered does not read the channel again, so
    that it never sees it closed. -/
structure Node (σ α : Type) where
  sys : System σ α
  shutdown : σ → α
  ctrl : α → Bool
  acked : σ → Bool
  ctrl_shutdown : ∀ s, ctrl (shutdown s) = true
  acked_step : ∀ {s t : σ} {a : α}, acked s = true → sys.next s a = some t → acked t = true
  deaf : ∀ {s : σ} {a : α}, acked s = true → ctrl a = true → sys.next s a = none

/-- A step of the node that does not touch its control channel. -/
def Node.Own {σ α : Type} (n : Node σ α) (a : α) : Prop := n.ctrl a = false

/-- The nodes of the conductor, `inputNodes` and `outputNodes` being the keys of
    its maps. -/
structure Pipeline (ι : Type) (σ α : ι → Type) where
  node : ∀ i, Node (σ i) (α i)
  inputNodes : List ι
  outputNodes : List ι
  nodup : (inputNodes ++ outputNodes).Nodup

/-- Which of the two loops. -/
inductive Stage where
  | inputs
  | outputs
  deriving DecidableEq

/-- Where the goroutine is: at the range over the signals, at the range over the
    nodes with those it has not come to, sending SHUTDOWN, waiting for the answer,
    about to close the channel, or releasing `run`. -/
inductive Pc (ι : Type) where
  | waiting
  | ranging (stage : Stage) (left : List ι)
  | sending (stage : Stage) (left : List ι) (i : ι)
  | receiving (stage : Stage) (left : List ι) (i : ι)
  | closing (stage : Stage) (left : List ι) (i : ι)
  | finished
  | crashed

/-- Where `run` is: before `<-cleanupDone`, past it, or at its end. -/
inductive Main where
  | waiting
  | leaving
  | exited
  deriving DecidableEq

/-- The conductor and its nodes.  `pending` is the signal in `signalChan`,
    `requested` are the nodes that took SHUTDOWN, in order, and `closed` those
    whose control channel is closed. -/
structure State (ι : Type) (σ : ι → Type) where
  pc : Pc ι
  pending : Bool
  main : Main
  nodes : ∀ i, σ i
  requested : List ι
  closed : List ι

inductive Label (ι : Type) (α : ι → Type) where
  | signal
  | wake
  | range (i : ι)
  | rangeEnd
  | request
  | answer
  | close
  | cleanup
  | exit
  | own (i : ι) (a : α i)

variable {ι : Type} {σ α : ι → Type}

/-- The process has ended, at the end of `run` or in a panic. -/
def State.over (s : State ι σ) : Bool :=
  match s.main, s.pc with
  | .exited, _ => true
  | _, .crashed => true
  | _, _ => false

variable {s : State ι σ}

/-- The process is up until `run` returns, unless it has crashed. -/
theorem State.up_of_ne (hm : s.main ≠ .exited) (hpc : s.pc ≠ .crashed) : s.over = false := by
  unfold State.over
  cases hmain : s.main with
  | exited => exact absurd hmain hm
  | _ =>
      cases hs : s.pc with
      | crashed => exact absurd hs hpc
      | _ => rfl

theorem State.ne_exited_of_waiting (hm : s.main = .waiting) : s.main ≠ .exited := by
  rw [hm]
  exact fun h => by cases h

theorem State.ne_exited_of_leaving (hm : s.main = .leaving) : s.main ≠ .exited := by
  rw [hm]
  exact fun h => by cases h

theorem State.up (hm : s.main = .waiting) (hpc : s.pc ≠ .crashed) : s.over = false :=
  s.up_of_ne (s.ne_exited_of_waiting hm) hpc

section Model

variable [DecidableEq ι]

/-- The node `i` goes on to another state. -/
def State.setNode (s : State ι σ) (i : ι) (u : σ i) : State ι σ :=
  { s with nodes := Function.update s.nodes i u }

/-- One step of the goroutine, of `run`, of a node or of the operating system.
    `signalChan` holds one signal, and more are dropped; a send on a closed
    channel and closing one again are panics. -/
def step (pl : Pipeline ι σ α) (s : State ι σ) (l : Label ι α) : Option (State ι σ) :=
  if s.over then none
  else match l, s.pc with
  | .signal, _ => some { s with pending := true }
  | .wake, .waiting =>
      if s.pending then
        some { s with pc := .ranging .inputs pl.inputNodes, pending := false }
      else none
  | .range i, .ranging stage left =>
      if i ∈ left then some { s with pc := .sending stage (left.erase i) i } else none
  | .rangeEnd, .ranging .inputs [] => some { s with pc := .ranging .outputs pl.outputNodes }
  | .rangeEnd, .ranging .outputs [] => some { s with pc := .finished }
  | .request, .sending stage left i =>
      if i ∈ s.closed then some { s with pc := .crashed }
      else
        match (pl.node i).sys.next (s.nodes i) ((pl.node i).shutdown (s.nodes i)) with
        | none => none
        | some u => some { s.setNode i u with
            pc := .receiving stage left i, requested := s.requested ++ [i] }
  | .answer, .receiving stage left i =>
      if (pl.node i).acked (s.nodes i) then some { s with pc := .closing stage left i } else none
  | .close, .closing stage left i =>
      if i ∈ s.closed then some { s with pc := .crashed }
      else some { s with pc := .ranging stage left, closed := s.closed ++ [i] }
  | .cleanup, .finished =>
      if s.main = .waiting then some { s with pc := .waiting, main := .leaving } else none
  | .exit, _ => if s.main = .leaving then some { s with main := .exited } else none
  | .own i a, _ =>
      if (pl.node i).ctrl a then none
      else
        match (pl.node i).sys.next (s.nodes i) a with
        | none => none
        | some u => some (s.setNode i u)
  | _, _ => none

/-- The pipeline as it was started. -/
def conductor (pl : Pipeline ι σ α) : System (State ι σ) (Label ι α) where
  init :=
    { pc := .waiting, pending := false, main := .waiting
      nodes := fun i => (pl.node i).sys.init, requested := [], closed := [] }
  next := step pl

/-! ## What a step can do -/

/-- The steps there are, each with the place it is taken from. -/
inductive Move (pl : Pipeline ι σ α) (s : State ι σ) : Label ι α → State ι σ → Prop where
  | signalled : Move pl s .signal { s with pending := true }
  | woken : s.pc = .waiting →
      Move pl s .wake { s with pc := .ranging .inputs pl.inputNodes, pending := false }
  | ranged {stage : Stage} {left : List ι} {i : ι} : s.pc = .ranging stage left → i ∈ left →
      Move pl s (.range i) { s with pc := .sending stage (left.erase i) i }
  | inputsDone : s.pc = .ranging .inputs [] →
      Move pl s .rangeEnd { s with pc := .ranging .outputs pl.outputNodes }
  | outputsDone : s.pc = .ranging .outputs [] → Move pl s .rangeEnd { s with pc := .finished }
  | sendPanic {stage : Stage} {left : List ι} {i : ι} : s.pc = .sending stage left i →
      i ∈ s.closed → Move pl s .request { s with pc := .crashed }
  | asked {stage : Stage} {left : List ι} {i : ι} {u : σ i} : s.pc = .sending stage left i →
      i ∉ s.closed → (pl.node i).sys.next (s.nodes i) ((pl.node i).shutdown (s.nodes i)) = some u →
      Move pl s .request { s.setNode i u with
        pc := .receiving stage left i, requested := s.requested ++ [i] }
  | answered {stage : Stage} {left : List ι} {i : ι} : s.pc = .receiving stage left i →
      (pl.node i).acked (s.nodes i) = true →
      Move pl s .answer { s with pc := .closing stage left i }
  | closePanic {stage : Stage} {left : List ι} {i : ι} : s.pc = .closing stage left i →
      i ∈ s.closed → Move pl s .close { s with pc := .crashed }
  | closed {stage : Stage} {left : List ι} {i : ι} : s.pc = .closing stage left i →
      i ∉ s.closed →
      Move pl s .close { s with pc := .ranging stage left, closed := s.closed ++ [i] }
  | cleaned : s.pc = .finished → s.main = .waiting →
      Move pl s .cleanup { s with pc := .waiting, main := .leaving }
  | exited : s.main = .leaving → Move pl s .exit { s with main := .exited }
  | own {i : ι} {a : α i} {u : σ i} : (pl.node i).Own a →
      (pl.node i).sys.next (s.nodes i) a = some u → Move pl s (.own i a) (s.setNode i u)

/-- **EVERY STEP IS ONE OF THESE**, taken while the process is up. -/
theorem move_of_step {pl : Pipeline ι σ α} {s t : State ι σ} {l : Label ι α}
    (h : step pl s l = some t) : s.over = false ∧ Move pl s l t := by
  unfold step at h
  split at h
  · cases h
  · next hup =>
      refine ⟨Bool.eq_false_of_not_eq_true hup, ?_⟩
      split at h
      · cases h
        exact .signalled
      · next hpc =>
          split at h
          · cases h
            exact .woken hpc
          · cases h
      · next hpc =>
          split at h
          · next hi =>
              cases h
              exact .ranged hpc hi
          · cases h
      · next hpc =>
          cases h
          exact .inputsDone hpc
      · next hpc =>
          cases h
          exact .outputsDone hpc
      · next hpc =>
          split at h
          · next hc =>
              cases h
              exact .sendPanic hpc hc
          · next hc =>
              split at h
              · cases h
              · next u hu =>
                  cases h
                  exact .asked hpc hc hu
      · next hpc =>
          split at h
          · next hacked =>
              cases h
              exact .answered hpc hacked
          · cases h
      · next hpc =>
          split at h
          · next hc =>
              cases h
              exact .closePanic hpc hc
          · next hc =>
              cases h
              exact .closed hpc hc
      · next hpc =>
          split at h
          · next hm =>
              cases h
              exact .cleaned hpc hm
          · cases h
      · split at h
        · next hm =>
            cases h
            exact .exited hm
        · cases h
      · split at h
        · cases h
        · next hown =>
            split at h
            · cases h
            · next u hu =>
                cases h
                exact .own (Bool.eq_false_of_not_eq_true hown) hu
      · cases h

theorem State.setNode_self (s : State ι σ) (i : ι) (u : σ i) : (s.setNode i u).nodes i = u :=
  Function.update_self ..

theorem State.setNode_ne (s : State ι σ) {i j : ι} (h : j ≠ i) (u : σ i) :
    (s.setNode i u).nodes j = s.nodes j :=
  Function.update_of_ne h ..

theorem State.setNode_setNode (s : State ι σ) (i : ι) (u v : σ i) :
    (s.setNode i u).setNode i v = s.setNode i v := by
  simp only [State.setNode, Function.update_idem]

end Model

/-! ## In order -/

/-- The nodes a stage ranges over. -/
def Pipeline.nodesOf (pl : Pipeline ι σ α) : Stage → List ι
  | .inputs => pl.inputNodes
  | .outputs => pl.outputNodes

/-- All the nodes were asked that come before those of `left` in this stage. -/
def Asked (pl : Pipeline ι σ α) (requested left : List ι) : Stage → Prop
  | .inputs => (requested ++ left).Perm pl.inputNodes
  | .outputs => ∃ ins outs, requested = ins ++ outs ∧ ins.Perm pl.inputNodes ∧
      (outs ++ left).Perm pl.outputNodes

/-- The goroutine on its way through the nodes: only the node it waits for was
    asked and has its channel open. -/
def Place (pl : Pipeline ι σ α) (requested closed : List ι) : Pc ι → Prop
  | .waiting => requested = [] ∧ closed = []
  | .ranging stage left => closed = requested ∧ Asked pl requested left stage
  | .sending stage left i => closed = requested ∧ Asked pl requested (i :: left) stage
  | .receiving stage left i => requested = closed ++ [i] ∧ Asked pl requested left stage
  | .closing stage left i => requested = closed ++ [i] ∧ Asked pl requested left stage
  | .finished => closed = requested ∧ Asked pl requested [] .outputs
  | .crashed => False

/-- The goroutine on its way again, with another signal: it gets no further than
    the first node. -/
def Within (pl : Pipeline ι σ α) : Pc ι → Prop
  | .ranging .inputs left => left = pl.inputNodes
  | .ranging .outputs left => left = pl.outputNodes ∧ pl.inputNodes = []
  | .sending stage _ i => i ∈ pl.nodesOf stage
  | .receiving _ _ _ => False
  | .closing _ _ _ => False
  | .finished => pl.inputNodes ++ pl.outputNodes = []
  | _ => True

/-- What holds in every state: the first way through the nodes up to the release
    of `run`, and all the nodes stopped from there on. -/
structure Inv (pl : Pipeline ι σ α) (s : State ι σ) : Prop where
  first : s.main = .waiting → Place pl s.requested s.closed s.pc
  again : s.main ≠ .waiting →
    Asked pl s.requested [] .outputs ∧ s.closed = s.requested ∧ Within pl s.pc
  acked : ∀ i ∈ s.closed, (pl.node i).acked (s.nodes i) = true
  closing : ∀ {stage left i}, s.pc = .closing stage left i →
    (pl.node i).acked (s.nodes i) = true

variable {i : ι} {left requested : List ι} {pl : Pipeline ι σ α} {stage : Stage} {pc : Pc ι}

/-- The node is asked. -/
theorem Asked.ask (h : Asked pl requested (i :: left) stage) :
    Asked pl (requested ++ [i]) left stage := by
  cases stage with
  | inputs =>
      show ((requested ++ [i]) ++ left).Perm _
      rw [List.append_assoc]
      exact h
  | outputs =>
      obtain ⟨ins, outs, heq, hins, houts⟩ := h
      refine ⟨ins, outs ++ [i], by rw [heq, List.append_assoc], hins, ?_⟩
      rw [List.append_assoc]
      exact houts

/-- The outputs come after all the inputs. -/
theorem Asked.outputs (h : Asked pl requested [] .inputs) :
    Asked pl requested pl.outputNodes .outputs := by
  refine ⟨requested, [], (List.append_nil _).symm, ?_, List.Perm.refl _⟩
  have hperm : (requested ++ []).Perm pl.inputNodes := h
  rw [List.append_nil] at hperm
  exact hperm

/-- Who was asked is a node of the pipeline. -/
theorem Asked.mem_iff (h : Asked pl requested [] .outputs) (i : ι) :
    i ∈ requested ↔ i ∈ pl.inputNodes ++ pl.outputNodes := by
  obtain ⟨ins, outs, rfl, hins, houts⟩ := h
  rw [List.append_nil] at houts
  rw [List.mem_append, List.mem_append, hins.mem_iff, houts.mem_iff]

/-- Nobody is asked twice. -/
theorem Asked.nodup (h : Asked pl requested left stage) : (requested ++ left).Nodup := by
  cases stage with
  | inputs =>
      have hperm : (requested ++ left).Perm pl.inputNodes := h
      exact hperm.nodup_iff.mpr (List.Nodup.of_append_left pl.nodup)
  | outputs =>
      obtain ⟨ins, outs, rfl, hins, houts⟩ := h
      rw [List.append_assoc]
      exact (hins.append houts).nodup_iff.mpr pl.nodup

/-- Those still to be asked are nodes of the stage. -/
theorem Asked.mem (h : Asked pl requested left stage) (hi : i ∈ left) :
    i ∈ pl.inputNodes ++ pl.outputNodes := by
  cases stage with
  | inputs =>
      have hperm : (requested ++ left).Perm pl.inputNodes := h
      exact List.mem_append_left _ (hperm.mem_iff.mp (List.mem_append_right _ hi))
  | outputs =>
      obtain ⟨ins, outs, -, -, houts⟩ := h
      exact List.mem_append_right _ (houts.mem_iff.mp (List.mem_append_right _ hi))

/-- The next to be asked was not asked yet. -/
theorem Asked.fresh (h : Asked pl requested (i :: left) stage) : i ∉ requested := by
  intro hi
  exact (List.nodup_append.mp h.nodup).2.2 i hi i (List.mem_cons_self ..) rfl

/-- The channel of the last one asked is open, if those before it are closed. -/
theorem Asked.last_open {closed : List ι} (h : Asked pl requested left stage)
    (hlast : requested = closed ++ [i]) : i ∉ closed := by
  have hnodup := h.nodup
  rw [hlast, List.append_assoc] at hnodup
  exact fun hi => (List.nodup_append.mp hnodup).2.2 i hi i (List.mem_cons_self ..) rfl

/-- Who was asked is a node. -/
theorem Asked.mem_requested (h : Asked pl requested left stage) (hi : i ∈ requested) :
    i ∈ pl.inputNodes ++ pl.outputNodes := by
  cases stage with
  | inputs =>
      have hperm : (requested ++ left).Perm pl.inputNodes := h
      exact List.mem_append_left _ (hperm.mem_iff.mp (List.mem_append_left _ hi))
  | outputs =>
      obtain ⟨ins, outs, rfl, hins, houts⟩ := h
      exact ((hins.append houts).mem_iff).mp
        (List.append_assoc ins outs left ▸ List.mem_append_left left hi)

theorem mem_of_nodesOf (h : i ∈ pl.nodesOf stage) : i ∈ pl.inputNodes ++ pl.outputNodes := by
  cases stage with
  | inputs => exact List.mem_append_left _ h
  | outputs => exact List.mem_append_right _ h

/-- The goroutine goes on from one place to another, and the nodes stay as they
    are. -/
theorem Inv.goTo (hs : Inv pl s)
    (hfirst : Place pl s.requested s.closed s.pc → Place pl s.requested s.closed pc)
    (hagain : Within pl s.pc → Within pl pc)
    (hclosing : ∀ {stage left i}, pc = .closing stage left i →
      (pl.node i).acked (s.nodes i) = true) : Inv pl { s with pc := pc } := by
  refine ⟨fun hm => hfirst (hs.first hm), fun hm => ?_, hs.acked, hclosing⟩
  obtain ⟨hasked, hclosed, hwithin⟩ := hs.again hm
  exact ⟨hasked, hclosed, hagain hwithin⟩

/-- A control channel that is open belongs to a node still to be stopped: the
    process is not over. -/
theorem Inv.main_of_open (hs : Inv pl s) (hi : i ∈ pl.inputNodes ++ pl.outputNodes)
    (hopen : i ∉ s.closed) : s.main = .waiting := by
  by_contra hm
  obtain ⟨hasked, hclosed, -⟩ := hs.again hm
  rw [hclosed, hasked.mem_iff] at hopen
  exact hopen hi

/-- One control channel at most is open of the nodes that were asked. -/
theorem Place.closed {closed : List ι} (h : Place pl requested closed pc) :
    closed = requested ∨ ∃ i, requested = closed ++ [i] := by
  cases pc with
  | waiting => exact Or.inl (h.2.trans h.1.symm)
  | ranging stage left => exact Or.inl h.1
  | sending stage left i => exact Or.inl h.1
  | receiving stage left i => exact Or.inr ⟨i, h.1⟩
  | closing stage left i => exact Or.inr ⟨i, h.1⟩
  | finished => exact Or.inl h.1
  | crashed => exact h.elim

/-- The requests are a beginning of all the inputs and then all the outputs. -/
theorem Place.order {closed : List ι} (h : Place pl requested closed pc) :
    ∃ ins outs, ins.Perm pl.inputNodes ∧ outs.Perm pl.outputNodes ∧
      requested <+: ins ++ outs := by
  have hasked : ∀ {left : List ι} {stage : Stage}, Asked pl requested left stage →
      ∃ ins outs, ins.Perm pl.inputNodes ∧ outs.Perm pl.outputNodes ∧
        requested <+: ins ++ outs := by
    intro left stage ha
    cases stage with
    | inputs =>
        refine ⟨_, _, ha, List.Perm.refl _, ?_⟩
        rw [List.append_assoc]
        exact List.prefix_append ..
    | outputs =>
        obtain ⟨ins, outs, rfl, hins, houts⟩ := ha
        refine ⟨ins, outs ++ left, hins, houts, ?_⟩
        rw [← List.append_assoc]
        exact List.prefix_append ..
  cases pc with
  | waiting =>
      rw [h.1]
      exact ⟨_, _, List.Perm.refl _, List.Perm.refl _, List.nil_prefix⟩
  | crashed => exact h.elim
  | _ => exact hasked h.2

/-- All that were asked have their channel closed, up to the last. -/
theorem Inv.closed (hs : Inv pl s) :
    s.closed = s.requested ∨ ∃ i, s.requested = s.closed ++ [i] := by
  by_cases hm : s.main = .waiting
  · exact (hs.first hm).closed
  · exact Or.inl (hs.again hm).2.1

theorem Inv.order (hs : Inv pl s) :
    ∃ ins outs, ins.Perm pl.inputNodes ∧ outs.Perm pl.outputNodes ∧
      s.requested <+: ins ++ outs := by
  by_cases hm : s.main = .waiting
  · exact (hs.first hm).order
  · obtain ⟨ins, outs, heq, hins, houts⟩ := (hs.again hm).1
    rw [List.append_nil] at houts
    exact ⟨ins, outs, hins, houts, heq ▸ List.prefix_rfl⟩

theorem Inv.answered (hs : Inv pl s) {before after : List ι}
    (heq : s.requested = before ++ i :: after) {j : ι} (hj : j ∈ before) :
    (pl.node j).acked (s.nodes j) = true := by
  refine hs.acked j ?_
  rcases hs.closed with hall | ⟨last, hlast⟩
  · rw [hall, heq]
    exact List.mem_append_left _ hj
  · have hdrop := congrArg List.dropLast (hlast.symm.trans heq)
    rw [List.dropLast_concat, List.dropLast_append_of_ne_nil (List.cons_ne_nil i after)] at hdrop
    rw [hdrop]
    exact List.mem_append_left _ hj

/-- Once an output was asked, every input has answered. -/
theorem Inv.inputs_acked (hs : Inv pl s) {o : ι} (ho : o ∈ pl.outputNodes) (hreq : o ∈ s.requested)
    (hi : i ∈ pl.inputNodes) : (pl.node i).acked (s.nodes i) = true := by
  obtain ⟨ins, outs, hins, houts, hpre⟩ := hs.order
  have hnotin : o ∉ ins := fun hin =>
    (List.nodup_append.mp pl.nodup).2.2 o (hins.mem_iff.mp hin) o ho rfl
  -- a beginning that holds an output has all the inputs before it
  obtain ⟨more, hsplit⟩ : ins <+: s.requested := by
    rcases List.prefix_or_prefix_of_prefix hpre (List.prefix_append ins outs) with h | h
    · exact absurd (h.subset hreq) hnotin
    · exact h
  have hmore : o ∈ more := by
    rw [← hsplit] at hreq
    exact (List.mem_append.mp hreq).resolve_left hnotin
  obtain ⟨x, y, rfl⟩ := List.append_of_mem hmore
  have heq : s.requested = (ins ++ x) ++ o :: y := by rw [← hsplit, List.append_assoc]
  exact hs.answered heq (List.mem_append_left _ (hins.mem_iff.mpr hi))

/-- Whoever was asked before has its channel closed when the next one is. -/
theorem Inv.fresh (hs : Inv pl s) (hpc : s.pc = .sending stage left i) (hopen : i ∉ s.closed) :
    i ∉ s.requested := by
  by_cases hm : s.main = .waiting
  · have hplace := hs.first hm
    rw [hpc] at hplace
    exact hplace.2.fresh
  · rw [← (hs.again hm).2.1]
    exact hopen

/-! ## The nodes on their own -/

/-- On its own the node comes to answer. -/
def Node.Answers {σ α : Type} (n : Node σ α) (s : σ) : Prop :=
  ∃ w, Leads n.sys n.Own s w ∧ n.acked w = true

/-- On its own the node comes to take SHUTDOWN, and then to answer. -/
def Node.Serves {σ α : Type} (n : Node σ α) (s : σ) : Prop :=
  ∃ t u, Leads n.sys n.Own s t ∧ n.sys.next t (n.shutdown t) = some u ∧ n.Answers u

/-- What a step is to one of the nodes. -/
inductive NodeMove (pl : Pipeline ι σ α) (i : ι) (s t : State ι σ) : Prop where
  | idle (hsame : t.nodes i = s.nodes i) (hreq : i ∈ t.requested ↔ i ∈ s.requested)
  | own {a : α i} (hown : (pl.node i).Own a)
      (hn : (pl.node i).sys.next (s.nodes i) a = some (t.nodes i))
      (hreq : i ∈ t.requested ↔ i ∈ s.requested)
  | asked {stage : Stage} {left : List ι} (hpc : s.pc = .sending stage left i)
      (hopen : i ∉ s.closed) (hreq : i ∈ t.requested)
      (hn : (pl.node i).sys.next (s.nodes i) ((pl.node i).shutdown (s.nodes i)) = some (t.nodes i))

/-- What a node has been doing since it was in `s₀`: its own work, and being asked
    if it had not been before. -/
def Course {β γ : Type} (n : Node β γ) (asked₀ : Prop) (s₀ : β) (asked : Prop) (s : β) : Prop :=
  ((asked ↔ asked₀) ∧ Leads n.sys n.Own s₀ s) ∨
    (¬ asked₀ ∧ asked ∧
      ∃ t u, Leads n.sys n.Own s₀ t ∧ n.sys.next t (n.shutdown t) = some u ∧ Leads n.sys n.Own u s)

/-- One step of the whole, by what it is to the node. -/
theorem Course.move {t : State ι σ} {asked₀ : Prop} {s₀ : σ i} (hs : Inv pl s)
    (hc : Course (pl.node i) asked₀ s₀ (i ∈ s.requested) (s.nodes i)) (h : NodeMove pl i s t) :
    Course (pl.node i) asked₀ s₀ (i ∈ t.requested) (t.nodes i) := by
  cases h with
  | idle hsame hreq =>
      rw [Course, hsame, hreq]
      exact hc
  | own hown hn hreq =>
      rw [Course, hreq]
      rcases hc with ⟨hiff, hl⟩ | ⟨hnot, hyes, v, u, hl, hv, hl'⟩
      · exact Or.inl ⟨hiff, leads_step hl hown hn⟩
      · exact Or.inr ⟨hnot, hyes, v, u, hl, hv, leads_step hl' hown hn⟩
  | asked hpc hopen hreq hn =>
      have hfresh := hs.fresh hpc hopen
      rcases hc with ⟨hiff, hl⟩ | ⟨-, hyes, -⟩
      · exact Or.inr ⟨fun h => hfresh (hiff.mpr h), hreq, _, _, hl, hn, Leads.refl _ _ _⟩
      · exact absurd hyes hfresh

section Steps

variable [DecidableEq ι]
variable {i : ι} {left : List ι} {pl : Pipeline ι σ α} {stage : Stage} {s t : State ι σ}
variable {l : Label ι α}

/-- A node comes next in the order the range takes. -/
theorem Asked.range {requested : List ι} (h : Asked pl requested left stage) (hi : i ∈ left) :
    Asked pl requested (i :: left.erase i) stage := by
  have hperm : (i :: left.erase i).Perm left := (List.perm_cons_erase hi).symm
  cases stage with
  | inputs => exact (hperm.append_left requested).trans h
  | outputs =>
      obtain ⟨ins, outs, heq, hins, houts⟩ := h
      exact ⟨ins, outs, heq, hins, (hperm.append_left outs).trans houts⟩

/-- A step of a node leaves the answers of all the others alone, and its own. -/
theorem acked_setNode {j : ι} {u : σ i}
    (hi : (pl.node i).acked (s.nodes i) = true → (pl.node i).acked u = true)
    (hj : (pl.node j).acked (s.nodes j) = true) :
    (pl.node j).acked ((s.setNode i u).nodes j) = true := by
  by_cases h : j = i
  · subst h
    rw [State.setNode_self]
    exact hi hj
  · rw [State.setNode_ne s h]
    exact hj

/-- Nothing happens to the nodes, or the goroutine asks one that was not asked. -/
theorem Inv.setNode (hs : Inv pl s) {u : σ i}
    (hi : (pl.node i).acked (s.nodes i) = true → (pl.node i).acked u = true) :
    Inv pl (s.setNode i u) :=
  ⟨hs.first, hs.again, fun j hj => acked_setNode hi (hs.acked j hj),
    fun hpc => acked_setNode hi (hs.closing hpc)⟩

/-- **EVERY STEP KEEPS THE ORDER**. -/
theorem Inv.move (hs : Inv pl s) (h : Move pl s l t) : Inv pl t := by
  cases h with
  | signalled => exact ⟨hs.first, hs.again, hs.acked, hs.closing⟩
  | woken hpc =>
      have hgo : Inv pl { s with pc := .ranging .inputs pl.inputNodes } := by
        refine hs.goTo ?_ (fun _ => rfl) (fun h => by cases h)
        rw [hpc]
        rintro ⟨hreq, hclosed⟩
        refine ⟨hclosed.trans hreq.symm, ?_⟩
        show (s.requested ++ pl.inputNodes).Perm pl.inputNodes
        rw [hreq]
        exact List.Perm.refl _
      exact ⟨hgo.first, hgo.again, hgo.acked, hgo.closing⟩
  | @ranged stage left i hpc hi =>
      refine hs.goTo ?_ ?_ (fun h => by cases h)
      · rw [hpc]
        exact fun h => ⟨h.1, h.2.range hi⟩
      · rw [hpc]
        intro hwithin
        cases stage with
        | inputs => exact (show left = pl.inputNodes from hwithin) ▸ hi
        | outputs => exact hwithin.1 ▸ hi
  | inputsDone hpc =>
      refine hs.goTo ?_ ?_ (fun h => by cases h)
      · rw [hpc]
        exact fun h => ⟨h.1, Asked.outputs h.2⟩
      · rw [hpc]
        exact fun h => ⟨rfl, Eq.symm h⟩
  | outputsDone hpc =>
      refine hs.goTo ?_ ?_ (fun h => by cases h)
      · rw [hpc]
        exact id
      · rw [hpc]
        rintro ⟨houts, hins⟩
        show pl.inputNodes ++ pl.outputNodes = []
        rw [hins, ← houts]
        rfl
  | sendPanic hpc hc =>
      refine hs.goTo ?_ (fun _ => trivial) (fun h => by cases h)
      -- on the first way through, the channel of the next node is open
      rw [hpc]
      exact fun h => h.2.fresh (h.1 ▸ hc)
  | @asked stage left i u hpc hc hn =>
      have hkeeps : (pl.node i).acked (s.nodes i) = true → (pl.node i).acked u = true := by
        intro hacked
        exact (pl.node i).acked_step hacked hn
      refine ⟨fun hm => ?_, fun hm => ?_, (hs.setNode hkeeps).acked, fun h => by cases h⟩
      · have hplace := hs.first hm
        rw [hpc] at hplace
        refine ⟨?_, hplace.2.ask⟩
        show s.requested ++ [i] = s.closed ++ [i]
        rw [hplace.1]
      · have hwithin := (hs.again hm).2.2
        rw [hpc] at hwithin
        exact absurd (hs.main_of_open (mem_of_nodesOf hwithin) hc) hm
  | answered hpc hacked =>
      refine hs.goTo ?_ ?_ ?_
      · rw [hpc]
        exact id
      · rw [hpc]
        exact id
      · intro stage left i heq
        cases heq
        exact hacked
  | closePanic hpc hc =>
      refine hs.goTo ?_ (fun _ => trivial) (fun h => by cases h)
      rw [hpc]
      exact fun h => h.2.last_open h.1 hc
  | @closed stage left i hpc hc =>
      refine ⟨fun hm => ?_, fun hm => ?_, fun j hj => ?_, fun h => by cases h⟩
      · have hplace := hs.first hm
        rw [hpc] at hplace
        exact ⟨hplace.1.symm, hplace.2⟩
      · have hwithin := (hs.again hm).2.2
        rw [hpc] at hwithin
        exact hwithin.elim
      · rcases List.mem_append.mp hj with hj | hj
        · exact hs.acked j hj
        · rw [List.mem_singleton.mp hj]
          exact hs.closing hpc
  | cleaned hpc hm =>
      refine ⟨fun hm' => (by cases hm'), fun _ => ?_, hs.acked, fun h => by cases h⟩
      have hplace := hs.first hm
      rw [hpc] at hplace
      exact ⟨hplace.2, hplace.1, trivial⟩
  | exited hm =>
      have hnot : s.main ≠ .waiting := by
        rw [hm]
        exact fun h => by cases h
      exact ⟨fun hm' => (by cases hm'), fun _ => hs.again hnot, hs.acked, hs.closing⟩
  | own hown hn => exact hs.setNode (fun h => (pl.node _).acked_step h hn)

theorem inv_init (pl : Pipeline ι σ α) : Inv pl (conductor pl).init :=
  ⟨fun _ => ⟨rfl, rfl⟩, fun h => absurd rfl h, fun _ hi => absurd hi List.not_mem_nil,
    fun h => by cases h⟩

/-- The order is kept along every run. -/
theorem inv_of_reach {P : State ι σ → Label ι α → Prop} (h : Reach (conductor pl) P s) : Inv pl s :=
  h.invariant (inv_init pl) (fun _ _ _ hs _ hn => hs.move (move_of_step hn).2)

/-- What the conductor guarantees at any time. -/
structure InOrder (pl : Pipeline ι σ α) (s : State ι σ) : Prop where
  /-- The nodes are asked one after the other, the inputs in some order and then
      the outputs in some order, each of them once. -/
  order : ∃ ins outs, ins.Perm pl.inputNodes ∧ outs.Perm pl.outputNodes ∧
    s.requested <+: ins ++ outs
  /-- A node is asked only when all those before it have answered. -/
  answered : ∀ (before after : List ι) (i : ι), s.requested = before ++ i :: after →
    ∀ j ∈ before, (pl.node j).acked (s.nodes j) = true
  /-- A control channel is closed once, and after the answer. -/
  closed : s.closed.Nodup ∧ ∀ i ∈ s.closed, (pl.node i).acked (s.nodes i) = true
  /-- There is no panic before `run` is released. -/
  sound : s.pc = .crashed → s.main ≠ .waiting
  /-- `run` is released when every node has answered. -/
  complete : s.main ≠ .waiting →
    ∀ i ∈ pl.inputNodes ++ pl.outputNodes, (pl.node i).acked (s.nodes i) = true

/-- **SHUTDOWN IS IN ORDER**, in every interleaving of the conductor, its nodes
    and the signals. -/
theorem shutdown_in_order {pl : Pipeline ι σ α} {s : State ι σ}
    (h : Reach (conductor pl) anyStep s) : InOrder pl s := by
  have hs := inv_of_reach h
  obtain ⟨ins, outs, hins, houts, hpre⟩ := hs.order
  have hnodup : s.requested.Nodup :=
    hpre.sublist.nodup ((hins.append houts).nodup_iff.mpr pl.nodup)
  refine ⟨⟨ins, outs, hins, houts, hpre⟩, fun _ _ _ heq _ hj => hs.answered heq hj, ⟨?_, hs.acked⟩,
    ?_, ?_⟩
  · rcases hs.closed with hall | ⟨last, hlast⟩
    · rw [hall]
      exact hnodup
    · rw [hlast] at hnodup
      exact List.Nodup.of_append_left hnodup
  · intro hpc hm
    have hplace := hs.first hm
    rw [hpc] at hplace
    exact hplace
  · intro hm i hi
    obtain ⟨hasked, hclosed, -⟩ := hs.again hm
    refine hs.acked i ?_
    rw [hclosed]
    exact (hasked.mem_iff i).mpr hi

/-- A node that takes SHUTDOWN whenever it comes, and answers with the same
    step. -/
def promptNode : Node Bool Unit where
  sys := { init := false, next := fun s _ => if s then none else some true }
  shutdown := fun _ => ()
  ctrl := fun _ => true
  acked := id
  ctrl_shutdown := fun _ => rfl
  acked_step := by
    intro s t _ hacked hn
    rw [show s = true from hacked] at hn
    cases hn
  deaf := by
    intro s _ hacked _
    rw [show s = true from hacked]
    rfl

/-- One such node on either side. -/
def promptPipeline : Pipeline Bool (fun _ => Bool) (fun _ => Unit) where
  node := fun _ => promptNode
  inputNodes := [false]
  outputNodes := [true]
  nodup := by decide

/-- A whole way through both of them, up to the release of `run`. -/
def promptRun : List (Label Bool (fun _ => Unit)) :=
  [.signal, .wake, .range false, .request, .answer, .close, .rangeEnd, .range true, .request,
    .answer, .close, .rangeEnd, .cleanup]

/-- The input is asked, the output is asked, and the process ends. -/
theorem shutdown_in_order_prompt :
    ∃ s, Reach (conductor promptPipeline) anyStep s ∧ s.requested = [false, true] ∧
      s.main = .exited ∧ InOrder promptPipeline s := by
  have hs : ∃ s, exec (conductor promptPipeline) (conductor promptPipeline).init
      (promptRun ++ [.exit]) = some s ∧ s.requested = [false, true] ∧ s.main = .exited :=
    ⟨_, rfl, rfl, rfl⟩
  obtain ⟨s, he, hreq, hexit⟩ := hs
  have hreach := reach_exec (P := anyStep) _ (fun _ _ _ => trivial) .init he
  exact ⟨s, hreach, hreq, hexit, shutdown_in_order hreach⟩

/-! ## Getting to the end -/

/-- A node is left alone, takes a step of its own, or is asked. -/
theorem Move.node (h : Move pl s l t) (i : ι) : NodeMove pl i s t := by
  cases h with
  | @asked stage left j u hpc hc hn =>
      by_cases hij : i = j
      · subst hij
        refine .asked hpc hc (List.mem_append_right _ (List.mem_singleton_self i)) ?_
        show _ = some ((s.setNode i u).nodes i)
        rw [State.setNode_self]
        exact hn
      · refine .idle (State.setNode_ne s hij u) ?_
        show i ∈ s.requested ++ [j] ↔ i ∈ s.requested
        rw [List.mem_append, List.mem_singleton, or_iff_left hij]
  | @own j a u hown hn =>
      by_cases hij : i = j
      · subst hij
        refine .own hown ?_ Iff.rfl
        rw [State.setNode_self]
        exact hn
      · exact .idle (State.setNode_ne s hij u) Iff.rfl
  | _ => exact .idle rfl Iff.rfl

/-- **EVERY NODE RUNS AS IT WOULD ON ITS OWN**. -/
theorem shows_node (pl : Pipeline ι σ α) (i : ι) :
    Shows (conductor pl) (pl.node i).sys (fun s => s.nodes i) := by
  refine ⟨rfl, ?_⟩
  intro s t l hn
  cases (move_of_step hn).2.node i with
  | idle hsame _ => exact Or.inl hsame
  | own _ hn _ => exact Or.inr ⟨_, hn⟩
  | asked _ _ _ hn => exact Or.inr ⟨_, hn⟩

/-- The course of a node along a whole run. -/
theorem course_of_reach (hs : Inv pl s) (h : Reach (resume (conductor pl) s) anyStep t) (i : ι) :
    Inv pl t ∧ Course (pl.node i) (i ∈ s.requested) (s.nodes i) (i ∈ t.requested) (t.nodes i) := by
  refine h.invariant (I := fun v => Inv pl v ∧
    Course (pl.node i) (i ∈ s.requested) (s.nodes i) (i ∈ v.requested) (v.nodes i)) ?_ ?_
  · exact ⟨hs, Or.inl ⟨Iff.rfl, Leads.refl _ _ _⟩⟩
  · rintro u l v ⟨hu, hc⟩ _ hn
    have hmove := (move_of_step hn).2
    exact ⟨hu.move hmove, hc.move hu (hmove.node i)⟩

/-- Every node can still do its part for the conductor. -/
def Ready (pl : Pipeline ι σ α) (s : State ι σ) : Prop :=
  ∀ i ∈ pl.inputNodes ++ pl.outputNodes,
    (i ∈ s.requested → (pl.node i).Answers (s.nodes i)) ∧
    (i ∉ s.requested → (pl.node i).Serves (s.nodes i))

/-- A process that gets to its end has had all its answers. -/
theorem Inv.ready_of_exits (hs : Inv pl s) (h : Reach (resume (conductor pl) s) anyStep t)
    (hexit : t.main = .exited) : Ready pl s := by
  intro i hi
  obtain ⟨ht, hc⟩ := course_of_reach hs h i
  have hm : t.main ≠ .waiting := by
    rw [hexit]
    exact fun h => by cases h
  obtain ⟨hasked, hclosed, -⟩ := ht.again hm
  have hreq : i ∈ t.requested := (hasked.mem_iff i).mpr hi
  have hacked : (pl.node i).acked (t.nodes i) = true := ht.acked i (hclosed ▸ hreq)
  constructor
  · intro hasked₀
    rcases hc with ⟨-, hl⟩ | ⟨hnot, -⟩
    · exact ⟨_, hl, hacked⟩
    · exact absurd hasked₀ hnot
  · intro hnot
    rcases hc with ⟨hiff, -⟩ | ⟨-, -, v, u, hl, hn, hl'⟩
    · exact absurd (hiff.mp hreq) hnot
    · exact ⟨v, u, hl, hn, _, hl', hacked⟩

theorem goes (h : step pl s l = some t) : Leads (conductor pl) (fun _ => True) s t :=
  Leads.single (a := l) trivial h

/-- The range goes on to a node it has not come to. -/
theorem leads_range (hm : s.main ≠ .exited) (hpc : s.pc = .ranging stage left) (hi : i ∈ left) :
    Leads (conductor pl) (fun _ => True) s { s with pc := .sending stage (left.erase i) i } := by
  have hup : s.over = false := s.up_of_ne hm (by rw [hpc]; exact fun h => by cases h)
  refine goes (l := .range i) ?_
  simp only [step, hup, hpc, hi, Bool.false_eq_true, if_false, if_true]

/-- Past the inputs come the outputs. -/
theorem leads_inputsEnd (hm : s.main ≠ .exited) (hpc : s.pc = .ranging .inputs []) :
    Leads (conductor pl) (fun _ => True) s { s with pc := .ranging .outputs pl.outputNodes } := by
  have hup : s.over = false := s.up_of_ne hm (by rw [hpc]; exact fun h => by cases h)
  refine goes (l := .rangeEnd) ?_
  simp only [step, hup, hpc, Bool.false_eq_true, if_false]

/-- A node gets on with its own work. -/
theorem leads_own : ∀ {s : State ι σ} {u : σ i},
    s.over = false → Leads (pl.node i).sys (pl.node i).Own (s.nodes i) u →
    Leads (conductor pl) (fun _ => True) s (s.setNode i u) := by
  intro s u hup h
  obtain ⟨labels, hown, he⟩ := h
  induction labels generalizing s with
  | nil =>
      have hu : s.nodes i = u := Option.some.inj he
      have hsame : s.setNode i u = s := by
        rw [State.setNode, ← hu, Function.update_eq_self]
      rw [hsame]
      exact Leads.refl _ _ _
  | cons a rest ih =>
      obtain ⟨v, hv, hrest⟩ := Option.bind_eq_some_iff.mp he
      have hstep : step pl s (.own i a) = some (s.setNode i v) := by
        have hctrl : (pl.node i).ctrl a = false := hown a (List.mem_cons_self ..)
        simp only [step, hup, hctrl, hv, Bool.false_eq_true, if_false]
      refine (goes hstep).trans ?_
      have hgo := ih (s := s.setNode i v) hup
        (fun b hb => hown b (List.mem_cons_of_mem _ hb)) (by rw [State.setNode_self]; exact hrest)
      rw [State.setNode_setNode] at hgo
      exact hgo

/-- From the answer on, the goroutine closes the channel and goes on. -/
theorem leads_answer (hm : s.main = .waiting) (hpc : s.pc = .receiving stage left i)
    (hopen : i ∉ s.closed) (hans : (pl.node i).Answers (s.nodes i)) :
    ∃ w, Leads (conductor pl) (fun _ => True) s
      { s.setNode i w with pc := .ranging stage left, closed := s.closed ++ [i] } := by
  obtain ⟨w, hl, hacked⟩ := hans
  have hup : s.over = false := s.up hm (by rw [hpc]; exact fun h => by cases h)
  have hanswer : step pl (s.setNode i w) .answer
      = some { s.setNode i w with pc := .closing stage left i } := by
    have hup' : (s.setNode i w).over = false := hup
    have hpc' : (s.setNode i w).pc = .receiving stage left i := hpc
    simp only [step, hup', hpc', State.setNode_self, hacked, Bool.false_eq_true, if_false, if_true]
  have hclose : step pl { s.setNode i w with pc := .closing stage left i } .close
      = some { s.setNode i w with pc := .ranging stage left, closed := s.closed ++ [i] } := by
    have hup' : ({ s.setNode i w with pc := .closing stage left i } : State ι σ).over = false :=
      State.up hm (fun h => by cases h)
    have hopen' : i ∉ (s.setNode i w).closed := hopen
    simp only [step, hup', hopen', Bool.false_eq_true, if_false]
    rfl
  exact ⟨w, (leads_own hup hl).trans ((goes hanswer).trans (goes hclose))⟩

/-- The goroutine at a node that can still be stopped gets past it. -/
theorem leads_serve (hm : s.main = .waiting) (hpc : s.pc = .sending stage left i)
    (hopen : i ∉ s.closed) (hserves : (pl.node i).Serves (s.nodes i)) :
    ∃ w, Leads (conductor pl) (fun _ => True) s { s.setNode i w with
      pc := .ranging stage left, requested := s.requested ++ [i], closed := s.closed ++ [i] } := by
  obtain ⟨t, u, hl, hn, hans⟩ := hserves
  have hup : s.over = false := s.up hm (by rw [hpc]; exact fun h => by cases h)
  let v : State ι σ := { s.setNode i u with
    pc := .receiving stage left i, requested := s.requested ++ [i] }
  have hrequest : step pl (s.setNode i t) .request = some v := by
    have hup' : (s.setNode i t).over = false := hup
    have hpc' : (s.setNode i t).pc = .sending stage left i := hpc
    have hopen' : i ∉ (s.setNode i t).closed := hopen
    simp only [step, hup', hpc', hopen', State.setNode_self, State.setNode_setNode, hn,
      Bool.false_eq_true, if_false]
    rfl
  have hans' : (pl.node i).Answers (v.nodes i) := by
    show (pl.node i).Answers ((s.setNode i u).nodes i)
    rw [State.setNode_self]
    exact hans
  obtain ⟨w, hw⟩ := leads_answer (s := v) hm rfl hopen hans'
  refine ⟨w, (leads_own hup hl).trans ((goes hrequest).trans ?_)⟩
  have hnodes : v.setNode i w = { s.setNode i w with
      pc := .receiving stage left i, requested := s.requested ++ [i] } := by
    simp only [v, State.setNode, Function.update_idem]
  rw [hnodes] at hw
  exact hw

/-- The conductor on its way, with nodes ahead that can all be stopped. -/
structure Onward (pl : Pipeline ι σ α) (s : State ι σ) : Prop where
  inv : Inv pl s
  main : s.main = .waiting
  serves : ∀ i ∈ pl.inputNodes ++ pl.outputNodes, i ∉ s.requested →
    (pl.node i).Serves (s.nodes i)

theorem Inv.leads (hs : Inv pl s) (h : Leads (conductor pl) (fun _ => True) s t) : Inv pl t :=
  (reach_of_leads h).invariant (I := Inv pl) hs (fun _ _ _ hu _ hn => hu.move (move_of_step hn).2)

/-- Past one node, with the others where they were. -/
theorem Onward.pass (hs : Onward pl s) (hpc : s.pc = .sending stage left i) :
    ∃ t, Leads (conductor pl) (fun _ => True) s t ∧ Onward pl t ∧ t.pc = .ranging stage left ∧
      ∀ j, j ≠ i → t.nodes j = s.nodes j := by
  have hplace := hs.inv.first hs.main
  rw [hpc] at hplace
  have hopen : i ∉ s.closed := hplace.1 ▸ hplace.2.fresh
  obtain ⟨w, hl⟩ := leads_serve hs.main hpc hopen
    (hs.serves i (hplace.2.mem (List.mem_cons_self ..)) hplace.2.fresh)
  refine ⟨_, hl, ⟨hs.inv.leads hl, hs.main, fun j hj hnot => ?_⟩, rfl,
    fun j hj => State.setNode_ne s hj w⟩
  obtain ⟨hj', hne⟩ : j ∉ s.requested ∧ j ≠ i := by
    refine ⟨fun h => hnot (List.mem_append_left _ h), fun h => hnot ?_⟩
    rw [h]
    exact List.mem_append_right _ (List.mem_singleton_self i)
  show (pl.node j).Serves ((s.setNode i w).nodes j)
  rw [State.setNode_ne s hne]
  exact hs.serves j hj hj'

/-- Past all the nodes of a stage, by induction on those left. -/
theorem Onward.passAll : ∀ {left : List ι} {s : State ι σ}, Onward pl s →
    s.pc = .ranging stage left →
    ∃ t, Leads (conductor pl) (fun _ => True) s t ∧ Onward pl t ∧ t.pc = .ranging stage [] ∧
      ∀ j, j ∉ left → t.nodes j = s.nodes j := by
  intro left
  induction left with
  | nil => exact fun {s} hs hpc => ⟨s, Leads.refl _ _ _, hs, hpc, fun _ _ => rfl⟩
  | cons i rest ih =>
      intro s hs hpc
      let t : State ι σ := { s with pc := .sending stage rest i }
      have hrange : Leads (conductor pl) (fun _ => True) s t := by
        have hgo : Leads (conductor pl) _ s _ :=
          leads_range (s.ne_exited_of_waiting hs.main) hpc (List.mem_cons_self ..)
        rwa [List.erase_cons_head] at hgo
      have ht : Onward pl t := ⟨hs.inv.leads hrange, hs.main, hs.serves⟩
      obtain ⟨u, hu, hou, hpcu, hsame⟩ := ht.pass rfl
      obtain ⟨v, hv, hov, hpcv, hsame'⟩ := ih hou hpcu
      refine ⟨v, hrange.trans (hu.trans hv), hov, hpcv, fun j hj => ?_⟩
      obtain ⟨hne, hrest⟩ := List.ne_and_not_mem_of_not_mem_cons hj
      exact (hsame' j hrest).trans (hsame j hne)

/-- Once every node has answered, `run` is released and returns. -/
theorem leads_exit (pl : Pipeline ι σ α) (hm : s.main = .waiting) (hpc : s.pc = .finished) :
    ∃ t, Leads (conductor pl) (fun _ => True) s t ∧ t.main = .exited := by
  have hup : s.over = false := s.up hm (by rw [hpc]; exact fun h => by cases h)
  have hcleanup : step pl s .cleanup = some { s with pc := .waiting, main := .leaving } := by
    simp only [step, hup, hpc, hm, Bool.false_eq_true, if_false, if_true]
  have hexit : step pl { s with pc := .waiting, main := .leaving } .exit
      = some { s with pc := .waiting, main := .exited } := rfl
  exact ⟨_, (goes hcleanup).trans (goes hexit), rfl⟩

/-- From the outputs to the end. -/
theorem Onward.outputs (hs : Onward pl s) (hpc : s.pc = .ranging .outputs left) :
    ∃ t, Leads (conductor pl) (fun _ => True) s t ∧ t.main = .exited := by
  obtain ⟨t, ht, hot, hpct, -⟩ := hs.passAll hpc
  have hend : step pl t .rangeEnd = some { t with pc := .finished } := by
    have hup : t.over = false := t.up hot.main (by rw [hpct]; exact fun h => by cases h)
    simp only [step, hup, hpct, Bool.false_eq_true, if_false]
  obtain ⟨u, hu, hexit⟩ := leads_exit pl (s := { t with pc := .finished }) hot.main rfl
  exact ⟨u, ht.trans ((goes hend).trans hu), hexit⟩

/-- From either stage to the end. -/
theorem Onward.ranging (hs : Onward pl s) (hpc : s.pc = .ranging stage left) :
    ∃ t, Leads (conductor pl) (fun _ => True) s t ∧ t.main = .exited := by
  cases stage with
  | outputs => exact hs.outputs hpc
  | inputs =>
      obtain ⟨t, ht, hot, hpct, -⟩ := hs.passAll hpc
      let u : State ι σ := { t with pc := .ranging .outputs pl.outputNodes }
      have hend : Leads (conductor pl) (fun _ => True) t u :=
        leads_inputsEnd (t.ne_exited_of_waiting hot.main) hpct
      have hu : Onward pl u := ⟨hot.inv.leads hend, hot.main, hot.serves⟩
      obtain ⟨v, hv, hexit⟩ := hu.outputs rfl
      exact ⟨v, ht.trans (hend.trans hv), hexit⟩

/-- A signal starts the goroutine on its way. -/
theorem leads_wake (pl : Pipeline ι σ α) (hup : s.over = false) (hpc : s.pc = .waiting) :
    Leads (conductor pl) (fun _ => True) s
      { s with pc := .ranging .inputs pl.inputNodes, pending := false } := by
  have hwake : ∀ t : State ι σ, t.over = false → t.pc = .waiting → t.pending = true →
      step pl t .wake
        = some { t with pc := .ranging .inputs pl.inputNodes, pending := false } := by
    intro t hupt hpct hpending
    simp only [step, hupt, hpct, hpending, Bool.false_eq_true, if_false, if_true]
  have hsignal : step pl s .signal = some { s with pending := true } := by
    simp only [step, hup, Bool.false_eq_true, if_false]
  exact (goes hsignal).trans (goes (hwake { s with pending := true } hup hpc rfl))

/-- Where every node can do its part, the conductor gets to its end. -/
theorem Inv.exits_of_ready (hs : Inv pl s) (hm : s.main = .waiting) (hready : Ready pl s) :
    ∃ t, Leads (conductor pl) (fun _ => True) s t ∧ t.main = .exited := by
  have hon : Onward pl s := ⟨hs, hm, fun i hi => (hready i hi).2⟩
  have hplace := hs.first hm
  -- from the range over the nodes on, with the nodes ahead as they are
  have hfrom : ∀ {t : State ι σ} {stage : Stage} {left : List ι},
      Leads (conductor pl) (fun _ => True) s t → t.main = .waiting →
      t.pc = .ranging stage left → t.requested = s.requested →
      (∀ j, j ∉ s.requested → t.nodes j = s.nodes j) →
      ∃ u, Leads (conductor pl) (fun _ => True) s u ∧ u.main = .exited := by
    intro t stage left hl htm hpc hreq hnodes
    have ht : Onward pl t := by
      refine ⟨hs.leads hl, htm, fun j hj hnot => ?_⟩
      rw [hreq] at hnot
      rw [hnodes j hnot]
      exact hon.serves j hj hnot
    obtain ⟨u, hu, hexit⟩ := ht.ranging hpc
    exact ⟨u, hl.trans hu, hexit⟩
  cases hpc : s.pc with
  | waiting =>
      have hup : s.over = false := s.up hm (by rw [hpc]; exact fun h => by cases h)
      exact hfrom (leads_wake pl hup hpc) hm rfl rfl (fun _ _ => rfl)
  | ranging stage left => exact hon.ranging hpc
  | sending stage left i =>
      obtain ⟨t, ht, hot, hpct, -⟩ := hon.pass hpc
      obtain ⟨u, hu, hexit⟩ := hot.ranging hpct
      exact ⟨u, ht.trans hu, hexit⟩
  | receiving stage left i =>
      rw [hpc] at hplace
      obtain ⟨hlast, hasked⟩ := hplace
      have hi : i ∈ s.requested := by
        rw [hlast]
        exact List.mem_append_right _ (List.mem_singleton_self i)
      obtain ⟨w, hl⟩ := leads_answer hm hpc (hasked.last_open hlast)
        ((hready i (hasked.mem_requested hi)).1 hi)
      refine hfrom (t := { s.setNode i w with
        pc := .ranging stage left, closed := s.closed ++ [i] }) hl hm rfl rfl ?_
      intro j hj
      have hne : j ≠ i := fun h => hj (h ▸ hi)
      exact State.setNode_ne s hne w
  | closing stage left i =>
      rw [hpc] at hplace
      have hclose : step pl s .close
          = some { s with pc := .ranging stage left, closed := s.closed ++ [i] } := by
        have hup : s.over = false := s.up hm (by rw [hpc]; exact fun h => by cases h)
        have hopen : i ∉ s.closed := hplace.2.last_open hplace.1
        simp only [step, hup, hpc, hopen, Bool.false_eq_true, if_false]
      exact hfrom (goes hclose) hm rfl rfl (fun _ _ => rfl)
  | finished => exact leads_exit pl hm hpc
  | crashed =>
      rw [hpc] at hplace
      exact hplace.elim

/-- **THE PROCESS COMES TO ITS END EXACTLY IF EVERY NODE CAN STILL ANSWER**: from
    any state before `run` is released, whatever the nodes have been doing. -/
theorem shutdown_completes_iff {pl : Pipeline ι σ α} {s : State ι σ}
    (h : Reach (conductor pl) anyStep s) (hm : s.main = .waiting) :
    (∃ t, Leads (conductor pl) (fun _ => True) s t ∧ t.main = .exited) ↔ Ready pl s := by
  have hs := inv_of_reach h
  constructor
  · rintro ⟨t, ht, hexit⟩
    exact hs.ready_of_exits (reach_of_leads ht) hexit
  · exact hs.exits_of_ready hm

/-- Both nodes can answer, and the process ends. -/
theorem shutdown_completes_prompt :
    Ready promptPipeline (conductor promptPipeline).init ∧
      ∃ t, Leads (conductor promptPipeline) (fun _ => True) (conductor promptPipeline).init t ∧
        t.main = .exited := by
  have hready : Ready promptPipeline (conductor promptPipeline).init := by
    intro i _
    refine ⟨fun h => absurd h List.not_mem_nil, fun _ => ?_⟩
    exact ⟨false, true, Leads.refl _ _ _, rfl, true, Leads.refl _ _ _, rfl⟩
  exact ⟨hready, (shutdown_completes_iff .init rfl).mpr hready⟩

/-! ## A second signal -/

/-- Once `run` is released, whatever is sent on a control channel is sent on a
    closed one. -/
theorem Inv.leads_crash_sending (hs : Inv pl s) (hm : s.main = .leaving)
    (hpc : s.pc = .sending stage left i) :
    ∃ t, Leads (conductor pl) (fun _ => True) s t ∧ t.pc = .crashed := by
  obtain ⟨hasked, hclosed, hwithin⟩ := hs.again (by rw [hm]; exact fun h => by cases h)
  rw [hpc] at hwithin
  have hi : i ∈ s.closed := by
    rw [hclosed]
    exact (hasked.mem_iff i).mpr (mem_of_nodesOf hwithin)
  have hup : s.over = false := s.up_of_ne (s.ne_exited_of_leaving hm)
    (by rw [hpc]; exact fun h => by cases h)
  have hrequest : step pl s .request = some { s with pc := .crashed } := by
    simp only [step, hup, hpc, hi, Bool.false_eq_true, if_false, if_true]
  exact ⟨_, goes hrequest, rfl⟩

theorem Inv.leads_crash_ranging (hs : Inv pl s) (hm : s.main = .leaving)
    (hpc : s.pc = .ranging stage left) (hleft : left ≠ []) :
    ∃ t, Leads (conductor pl) (fun _ => True) s t ∧ t.pc = .crashed := by
  obtain ⟨i, rest, rfl⟩ := List.exists_cons_of_ne_nil hleft
  have hrange : Leads (conductor pl) _ s _ :=
    leads_range (s.ne_exited_of_leaving hm) hpc (List.mem_cons_self ..)
  obtain ⟨t, ht, hcrash⟩ := (hs.leads hrange).leads_crash_sending hm rfl
  exact ⟨t, hrange.trans ht, hcrash⟩

/-- The range over the inputs comes to a node, if not then to the outputs. -/
theorem Inv.leads_crash_inputs (hs : Inv pl s) (hm : s.main = .leaving)
    (hpc : s.pc = .ranging .inputs pl.inputNodes) (hne : pl.inputNodes ++ pl.outputNodes ≠ []) :
    ∃ t, Leads (conductor pl) (fun _ => True) s t ∧ t.pc = .crashed := by
  by_cases hins : pl.inputNodes = []
  · rw [hins] at hpc
    have hend : Leads (conductor pl) _ s _ := leads_inputsEnd (s.ne_exited_of_leaving hm) hpc
    rw [hins, List.nil_append] at hne
    obtain ⟨t, ht, hcrash⟩ := (hs.leads hend).leads_crash_ranging hm rfl hne
    exact ⟨t, hend.trans ht, hcrash⟩
  · exact hs.leads_crash_ranging hm hpc hins

/-- Without nodes there is no channel to send on. -/
theorem Inv.no_crash (hs : Inv pl s) (hm : s.main ≠ .waiting) (hup : s.pc ≠ .crashed)
    (hnone : pl.inputNodes ++ pl.outputNodes = []) (h : Reach (resume (conductor pl) s) anyStep t) :
    t.pc ≠ .crashed := by
  have hnot : ∀ (i : ι) (stage : Stage), i ∉ pl.nodesOf stage := by
    intro i stage hi
    have hmem := mem_of_nodesOf hi
    rw [hnone] at hmem
    exact List.not_mem_nil hmem
  have hall := h.invariant
    (I := fun v => Inv pl v ∧ v.main ≠ .waiting ∧ v.pc ≠ .crashed) ⟨hs, hm, hup⟩ (by
      rintro u l v ⟨hu, hmu, hcu⟩ _ hn
      have hmove := (move_of_step hn).2
      refine ⟨hu.move hmove, ?_⟩
      have hwithin := (hu.again hmu).2.2
      cases hmove with
      | signalled => exact ⟨hmu, hcu⟩
      | own _ _ => exact ⟨hmu, hcu⟩
      | exited _ => exact ⟨fun h => (by cases h), hcu⟩
      | cleaned _ hm' => exact absurd hm' hmu
      | sendPanic hpc _ =>
          rw [hpc] at hwithin
          exact absurd hwithin (hnot _ _)
      | closePanic hpc _ =>
          rw [hpc] at hwithin
          exact hwithin.elim
      | _ => exact ⟨hmu, fun h => by cases h⟩)
  exact hall.2.2

/-- **A SECOND SIGNAL MAY BRING THE PROCESS DOWN**: between the release of `run` and
    its return, if there is any node at all.  The goroutine is back at its range
    over the signals, and would stop the nodes again. -/
theorem second_signal_panics_iff {pl : Pipeline ι σ α} {s : State ι σ}
    (h : Reach (conductor pl) anyStep s) (hm : s.main = .leaving) (hup : s.pc ≠ .crashed) :
    (∃ t, Leads (conductor pl) (fun _ => True) s t ∧ t.pc = .crashed) ↔
      pl.inputNodes ++ pl.outputNodes ≠ [] := by
  have hs := inv_of_reach h
  have hmain : s.main ≠ .waiting := by
    rw [hm]
    exact fun h => by cases h
  constructor
  · rintro ⟨t, ht, hcrash⟩ hnone
    exact hs.no_crash hmain hup hnone (reach_of_leads ht) hcrash
  · intro hne
    have hwithin := (hs.again hmain).2.2
    cases hpc : s.pc with
    | waiting =>
        have hl := leads_wake pl
          (s.up_of_ne (by rw [hm]; exact fun h => by cases h) hup) hpc
        obtain ⟨t, ht, hcrash⟩ := (hs.leads hl).leads_crash_inputs hm rfl hne
        exact ⟨t, hl.trans ht, hcrash⟩
    | ranging stage left =>
        rw [hpc] at hwithin
        cases stage with
        | inputs =>
            obtain rfl : left = pl.inputNodes := hwithin
            exact hs.leads_crash_inputs hm hpc hne
        | outputs =>
            obtain ⟨rfl, hins⟩ := hwithin
            rw [hins, List.nil_append] at hne
            exact hs.leads_crash_ranging hm hpc hne
    | sending stage left i => exact hs.leads_crash_sending hm hpc
    | receiving stage left i =>
        rw [hpc] at hwithin
        exact hwithin.elim
    | closing stage left i =>
        rw [hpc] at hwithin
        exact hwithin.elim
    | finished =>
        rw [hpc] at hwithin
        exact absurd hwithin hne
    | crashed => exact absurd hpc hup

/-- After the whole way through, a second signal finds the channels closed. -/
theorem second_signal_panics_prompt :
    ∃ s, Reach (conductor promptPipeline) anyStep s ∧ s.main = .leaving ∧
      ∃ t, Leads (conductor promptPipeline) (fun _ => True) s t ∧ t.pc = .crashed := by
  have hs : ∃ s, exec (conductor promptPipeline) (conductor promptPipeline).init promptRun
      = some s ∧ s.main = .leaving ∧ s.pc = .waiting := ⟨_, rfl, rfl, rfl⟩
  obtain ⟨s, he, hm, hpc⟩ := hs
  have hreach := reach_exec (P := anyStep) _ (fun _ _ _ => trivial) .init he
  refine ⟨s, hreach, hm, (second_signal_panics_iff hreach hm ?_).mpr ?_⟩
  · rw [hpc]
    exact fun h => by cases h
  · exact List.cons_ne_nil _ _

end Steps

end PipelineConductor
