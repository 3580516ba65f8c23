import PipelineGnmi.DrainProofs
import PipelineGnmi.MessageRouterProofs

/-! # The Influx output

    `metrics_influx.go` puts a message router between the data channel and a
    number of workers, each with a channel of its own.  The router is given a
    round robin and gives up on a message once every worker was tried; the
    control loop (`metrics.go`) closes `shutdownChan` on SHUTDOWN and waits for
    the workers before it answers.

    The router then takes what is queued, and closes the channels of the workers;
    a worker leaves when its channel is closed and empty.  So by the time the
    last of them is gone every message has come through: the sum of what is
    handled, dropped, in hand and queued is what the router has dealt with
    (`Flow`), and in the end nothing is in hand or queued (`influx_drains`). -/

namespace PipelineInflux

open GoChan Transition Drain PipelineMessageRouter

variable {M : Type}

variable {t : RouterState M} {ch : Chan M} {c : Nat} {a : RouterLabel M} (depth : Nat)
  (workers : Int) (procs : Nat)

/-- The workers to set up, given what is configured and `GOMAXPROCS`, which is
    one more than `procs`. -/
def workerCount (workers : Int) (procs : Nat) : Int :=
  if workers = 0 then 1
  else if workers > procs + 1 then procs + 1
  else workers

/-- The `handleCongested` of the Influx output. -/
def handleCongested (workers attempts : Nat) : CongestionAction :=
  if attempts < workers then .reroute else .drop

/-- Where a worker is: (re)connecting to the server, waiting for a message,
    handling one, or gone. -/
inductive WorkerPc (M : Type) where
  | connecting
  | receiving
  | handling (msg : M)
  | exited

/-- Where the control loop of a metrics output is: `waiting` has told the workers
    to leave, and waits for them. -/
inductive CtrlPc where
  | serving
  | waiting
  | returned
  deriving DecidableEq

/-- The output: `shutdownChan` says that the channel of that name is closed,
    `atRequest` what the router had taken and what was queued when SHUTDOWN was
    sent, and `handled` are the messages the workers are through with. -/
structure InfluxOutput (M : Type) where
  ctrl : CtrlPc
  shutdownChan : Bool
  router : RouterState M
  lastWorker : Nat
  workers : List (WorkerPc M)
  atRequest : Option (List M × List M)
  handled : List M
  crashed : Bool

inductive InfluxLabel (M : Type) where
  | router (a : RouterLabel M)
  | request
  | takeShutdown
  | ack
  | connect (c : Nat)
  | receive (c : Nat)
  | handle (c : Nat) (failed : Bool)
  | exit (c : Nat)

/-- The steps of the router its owner allows: messages come in until the inputs
    stop, and `route` and `handleCongested` answer as they do here.  A worker
    receives by itself. -/
def admits (s : InfluxOutput M) : RouterLabel M → Bool
  | .produce _ => s.atRequest.isNone
  | .handIn _ => s.atRequest.isNone
  | .work _ => false
  | .shutdown => s.shutdownChan
  | .route c => decide (c = (s.lastWorker + 1) % s.workers.length)
  | .answer action =>
      match s.router.pc with
      | .congested _ i _ => decide (action = handleCongested s.workers.length i)
      | _ => false
  | _ => true

/-- The round robin moves on with each call. -/
def advance (s : InfluxOutput M) : RouterLabel M → Nat
  | .route c => c
  | _ => s.lastWorker

def isExited : WorkerPc M → Bool
  | .exited => true
  | _ => false

/-- One step of the router, of a worker, of the control loop, of the inputs or of
    the conductor.  A worker that fails on a message counts it and connects
    anew. -/
def influxStep (s : InfluxOutput M) (l : InfluxLabel M) : Option (InfluxOutput M) :=
  if s.crashed = true then none
  else match l with
  | .router a =>
      if admits s a = true then
        (routerStep s.router a).map (fun r => { s with router := r, lastWorker := advance s a })
      else none
  | .request =>
      match s.atRequest with
      | none => some { s with atRequest := some (s.router.taken, s.router.dataChanIn.buf) }
      | some _ => none
  | .takeShutdown =>
      if s.ctrl = .serving ∧ s.atRequest.isSome = true then
        some { s with ctrl := .waiting, shutdownChan := true }
      else none
  | .ack =>
      if s.ctrl = .waiting ∧ s.workers.all isExited = true then
        some { s with ctrl := .returned }
      else none
  | .connect c =>
      match s.workers[c]? with
      | some .connecting => some { s with workers := s.workers.set c .receiving }
      | _ => none
  | .receive c =>
      match s.workers[c]?, s.router.dataChansOut[c]? with
      | some .receiving, some ch =>
          match ch.recv with
          | some (msg, ch') =>
              some { s with
                router := { s.router with dataChansOut := s.router.dataChansOut.set c ch' }
                workers := s.workers.set c (.handling msg) }
          | none => none
      | _, _ => none
  | .handle c failed =>
      match s.workers[c]? with
      | some (.handling msg) =>
          some { s with
            workers := s.workers.set c (if failed then .connecting else .receiving)
            handled := s.handled ++ [msg] }
      | _ => none
  | .exit c =>
      match s.workers[c]?, s.router.dataChansOut[c]? with
      | some .receiving, some ch =>
          if ch.isClosed = true ∧ ch.buf.length = 0 then
            some { s with workers := s.workers.set c .exited }
          else none
      | _, _ => none

/-- The output with data channels of this depth; a negative number of workers
    panics when they are set up. -/
def influxOutput :
    System (InfluxOutput M) (InfluxLabel M) where
  init :=
    { ctrl := .serving, shutdownChan := false
      router := (router depth
        (List.replicate (workerCount workers procs).toNat depth)).init
      lastWorker := 0
      workers := List.replicate (workerCount workers procs).toNat .connecting
      atRequest := none, handled := []
      crashed := decide (workerCount workers procs < 0) }
  next := influxStep

/-- The messages that were given up. -/
def dropped (fates : List (M × Fate)) : List M :=
  fates.filterMap (fun f => if f.2 = .dropped then some f.1 else none)

/-- The messages the output is through with: handled, or dropped and counted. -/
def doneWith (s : InfluxOutput M) : List M := s.handled ++ dropped s.router.fates

def InfluxAcked (s : InfluxOutput M) : Prop := s.ctrl = .returned

def InfluxComplete (s : InfluxOutput M) : Prop := Complete s.atRequest (doneWith s)

/-! ## What the router does with a message -/

/-- The router gets no answer that makes it block on a worker. -/
def Unblocked : Pc M → Prop
  | .blocking _ _ _ => False
  | _ => True

variable {msg : M} {r : RouterState M} {w' : WorkerPc M} {chans : List (Chan M)}
  (fates : List (M × Fate))

theorem dropped_put (msg : M) (c : Nat) : dropped (fates ++ [(msg, .put c)]) = dropped fates := by
  simp [dropped]

theorem dropped_drop (msg : M) : dropped (fates ++ [(msg, .dropped)]) = dropped fates ++ [msg] := by
  simp [dropped]

/-- What a step of the router does to its workers' channels: nothing they would
    see, a message on one of them, or a message dropped. -/
inductive Deals (s t : RouterState M) : Prop where
  | quiet (hfates : t.fates = s.fates)
      (hbufs : t.dataChansOut.map Chan.buf = s.dataChansOut.map Chan.buf)
      (hclosed : ∀ (c : Nat) (ch : Chan M), s.dataChansOut[c]? = some ch →
        ch.isClosed = true → t.dataChansOut[c]? = some ch)
  | put (msg : M) (c : Nat) (ch : Chan M) (hfates : t.fates = s.fates ++ [(msg, .put c)])
      (hch : s.dataChansOut[c]? = some ch) (hopen : ch.isClosed = false)
      (hchans : t.dataChansOut = s.dataChansOut.set c (ch.put msg))
  | drop (msg : M) (hfates : t.fates = s.fates ++ [(msg, .dropped)])
      (hchans : t.dataChansOut = s.dataChansOut)

variable {s : InfluxOutput M} {w : WorkerPc M}

theorem Deals.same {s : RouterState M} (hfates : t.fates = s.fates)
    (hchans : t.dataChansOut = s.dataChansOut) : Deals s t := by
  refine .quiet hfates (by rw [hchans]) ?_
  intro c ch hch _
  rw [hchans]
  exact hch

/-- A channel that is closed stays as it is. -/
theorem Deals.closed {s : RouterState M} (h : Deals s t) (hch : s.dataChansOut[c]? = some ch)
    (hclosed : ch.isClosed = true) : t.dataChansOut[c]? = some ch := by
  cases h with
  | quiet _ _ hkept => exact hkept c ch hch hclosed
  | put msg c' ch' _ hch' hopen hchans =>
      have hne : c' ≠ c := by
        rintro rfl
        rw [hch] at hch'
        cases hch'
        rw [hclosed] at hopen
        cases hopen
      rw [hchans, List.getElem?_set_ne hne]
      exact hch
  | drop msg _ hchans =>
      rw [hchans]
      exact hch

theorem Deals.length_eq {s : RouterState M} (h : Deals s t) :
    t.dataChansOut.length = s.dataChansOut.length := by
  cases h with
  | quiet _ hbufs _ =>
      have hlen := congrArg List.length hbufs
      rw [List.length_map, List.length_map] at hlen
      exact hlen
  | put msg c ch _ _ _ hchans => rw [hchans, List.length_set]
  | drop msg _ hchans => rw [hchans]

theorem deals_of_moves {s : RouterState M} (h : Moves s a t) (hinv : RouterInv s)
    (hun : Unblocked s.pc) (hwork : ∀ c, a ≠ .work c) : Deals s t := by
  cases h with
  | @sent _ msg c ch ch' receiver after hpc hch hsend =>
      rcases hpc with ⟨hpc, -⟩ | ⟨⟨i, hpc⟩, -⟩
      · obtain ⟨ch₀, hch₀, hroom⟩ := hinv.roomKept msg c hpc
        rw [hch] at hch₀
        cases hch₀
        obtain ⟨hopen, rfl⟩ := Chan.send_of_room hroom hsend
        exact .put msg c ch rfl hch hopen rfl
      · rw [hpc] at hun
        exact hun.elim
  | @dropped msg i c hpc => exact .drop msg rfl rfl
  | @worked c ch ch' msg hch hrecv => exact absurd rfl (hwork c)
  | @closedOne j ch ch' _ hch hclose =>
      obtain ⟨hbuf, hopen⟩ := Chan.close_spec hclose
      refine .quiet rfl (map_set_of_eq hch hbuf) ?_
      intro c y hy hclosed
      have hne : j ≠ c := by
        rintro rfl
        rw [hch] at hy
        cases hy
        rw [hopen] at hclosed
        cases hclosed
      rw [List.getElem?_set_ne hne]
      exact hy
  | _ => exact .same rfl rfl

theorem unblocked_backFrom (s : RouterState M) : Unblocked (backFrom s) := by
  unfold backFrom
  cases s.left <;> trivial

theorem unblocked_moves {s : RouterState M} (h : Moves s a t) (hun : Unblocked s.pc)
    (ha : a ≠ .answer .sendAndBlock) : Unblocked t.pc := by
  cases h with
  | produced _ => exact hun
  | worked _ _ => exact hun
  | expired _ => exact hun
  | sent hpc _ _ =>
      rcases hpc with ⟨-, rfl⟩ | ⟨-, rfl⟩
      · exact unblocked_backFrom s
      · trivial
  | dropped _ => exact unblocked_backFrom s
  | stopped _ _ => exact unblocked_backFrom s
  | cleaned _ => exact unblocked_backFrom s
  | block _ => exact absurd rfl ha
  | _ => trivial

variable {l : InfluxLabel M}

/-- A message that a waiting router takes was next in the data channel, unless it
    was handed in. -/
theorem took_source {s : RouterState M} (hpc : s.pc = .selecting)
    (h : routerStep s a = some { s with
      dataChanIn := ch, taken := s.taken ++ [msg], pc := .routing msg 0 }) :
    (∃ m, a = .handIn m) ∨ s.dataChanIn.recv = some (msg, ch) := by
  have hstays : ∀ u : RouterState M, some u = some { s with
      dataChanIn := ch, taken := s.taken ++ [msg], pc := .routing msg 0 } →
        u.pc ≠ .selecting := by
    intro u heq hu
    rw [Option.some.inj heq] at hu
    cases hu
  cases a with
  | handIn m => exact Or.inl ⟨m, rfl⟩
  | take =>
      simp only [routerStep, hpc] at h
      split at h
      · next m ch' _ hrecv =>
          have heq := Option.some.inj h
          have hmsg : [m] = [msg] := List.append_cancel_left (congrArg RouterState.taken heq)
          have hch : ch' = ch := congrArg RouterState.dataChanIn heq
          rw [← hch, ← List.head_eq_of_cons_eq hmsg]
          exact Or.inr hrecv
      · cases h
  | produce m =>
      simp only [routerStep] at h
      split at h
      · exact (hstays _ h hpc).elim
      · cases h
  | work c =>
      simp only [routerStep] at h
      split at h
      · cases h
      · split at h
        · cases h
        · exact (hstays _ h hpc).elim
  | expire =>
      simp only [routerStep] at h
      split at h
      · exact (hstays _ h hpc).elim
      · cases h
  | shutdown =>
      simp only [routerStep, hpc] at h
      cases congrArg RouterState.pc (Option.some.inj h)
  | _ =>
      -- these wait for another state of the router
      simp only [routerStep, hpc] at h
      cases h

/-- The input side: what is taken was next in the data channel, unless it came in
    just then, and the drain length is read of what is there. -/
theorem input_step {s : RouterState M} (h : routerStep s a = some t) :
    ((∀ msg, a ≠ .produce msg ∧ a ≠ .handIn msg) →
        t.taken ++ t.dataChanIn.buf = s.taken ++ s.dataChanIn.buf) ∧
      (t.snapshot = s.snapshot ∨
        s.pc = .readingLen ∧ t.snapshot = some (s.taken, s.dataChanIn.buf)) := by
  have hquiet : ∀ u : RouterState M, u.taken = s.taken → u.dataChanIn = s.dataChanIn →
      u.snapshot = s.snapshot →
      ((∀ msg, a ≠ .produce msg ∧ a ≠ .handIn msg) →
          u.taken ++ u.dataChanIn.buf = s.taken ++ s.dataChanIn.buf) ∧
        (u.snapshot = s.snapshot ∨
          s.pc = .readingLen ∧ u.snapshot = some (s.taken, s.dataChanIn.buf)) := by
    intro u htaken hchan hsnap
    rw [htaken, hchan]
    exact ⟨fun _ => rfl, Or.inl hsnap⟩
  have htook : ∀ msg ch, s.dataChanIn.recv = some (msg, ch) →
      (s.taken ++ [msg]) ++ ch.buf = s.taken ++ s.dataChanIn.buf := by
    intro msg ch hrecv
    rw [List.append_assoc, (Chan.recv_spec hrecv).2.2]
    rfl
  cases moves_of_step h with
  | produced _ => exact ⟨fun hin => absurd rfl (hin _).1, Or.inl rfl⟩
  | @took _ msg ch hpc =>
      refine ⟨?_, Or.inl rfl⟩
      intro hin
      rcases took_source hpc h with ⟨m, hm⟩ | hrecv
      · exact absurd hm (hin m).2
      · exact htook msg ch hrecv
  | readLen hpc => exact ⟨fun _ => rfl, Or.inr ⟨hpc, rfl⟩⟩
  | @drainedOne _ msg ch _ _ hrecv => exact ⟨fun _ => htook msg ch hrecv, Or.inl rfl⟩
  | _ => exact hquiet _ rfl rfl rfl

theorem readingLen_moves {s : RouterState M} (h : Moves s a t) (ht : t.pc = .readingLen) :
    s.pc = .readingLen ∨ a = .shutdown := by
  have hback : backFrom s ≠ .readingLen := by
    unfold backFrom
    cases s.left <;> (intro hpc; cases hpc)
  cases h with
  | produced _ => exact Or.inl ht
  | worked _ _ => exact Or.inl ht
  | expired _ => exact Or.inl ht
  | shutDown _ => exact Or.inr rfl
  | sent hpc _ _ =>
      rcases hpc with ⟨-, rfl⟩ | ⟨-, rfl⟩
      · exact absurd ht hback
      · cases ht
  | dropped _ => exact absurd ht hback
  | stopped _ _ => exact absurd ht hback
  | cleaned _ => exact absurd ht hback
  | _ => cases ht

/-! ## Every run -/

/-- The message a worker is busy with. -/
def workerHand : WorkerPc M → List M
  | .handling msg => [msg]
  | _ => []

/-- Every message that met its fate is done with, in a worker's hand, or in a
    worker's channel. -/
def Flow (s : InfluxOutput M) : Prop :=
  (↑(s.router.fates.map Prod.fst) : Multiset M)
    = ↑(doneWith s) + ↑(s.workers.flatMap workerHand)
      + ↑(s.router.dataChansOut.flatMap Chan.buf)

/-- The invariant of the output. -/
structure InfluxInv (s : InfluxOutput M) : Prop where
  router : RouterInv s.router
  unblocked : Unblocked s.router.pc
  flow : Flow s
  matched : s.workers.length = s.router.dataChansOut.length
  left : ∀ c : Nat, s.workers[c]? = some .exited →
    ∃ ch, s.router.dataChansOut[c]? = some ch ∧ ch.isClosed = true ∧ ch.buf = []
  kept : ∀ before queued, s.atRequest = some (before, queued) →
    s.router.taken ++ s.router.dataChanIn.buf = before ++ queued
  drained : ∀ b q, s.router.snapshot = some (b, q) →
    ∃ before queued, s.atRequest = some (before, queued) ∧ b ++ q = before ++ queued
  told : s.shutdownChan = true → s.atRequest ≠ none
  asked : s.router.pc = .readingLen → s.shutdownChan = true
  answered : InfluxAcked s → s.workers.all isExited = true
  staffed : s.crashed = false → 0 < s.workers.length
  running : InfluxAcked s → s.crashed = false

theorem Flow.deals (hs : Flow s) (h : Deals s.router r) (lastWorker : Nat) :
    Flow { s with router := r, lastWorker := lastWorker } := by
  unfold Flow doneWith at hs ⊢
  cases h with
  | quiet hfates hbufs _ =>
      show (↑(r.fates.map Prod.fst) : Multiset M)
        = ↑(s.handled ++ dropped r.fates) + _ + ↑(r.dataChansOut.flatMap Chan.buf)
      have hflat : r.dataChansOut.flatMap Chan.buf = s.router.dataChansOut.flatMap Chan.buf := by
        rw [List.flatMap_def, List.flatMap_def, hbufs]
      rw [hfates, hflat]
      exact hs
  | put msg c ch hfates hch hopen hchans =>
      have hset := coe_flatMap_set Chan.buf (ch.put msg) hch
      rw [show (ch.put msg).buf = ch.buf ++ [msg] from rfl, ← Multiset.coe_add, ← add_assoc,
        add_right_comm] at hset
      have hbufs := add_right_cancel hset
      show (↑(r.fates.map Prod.fst) : Multiset M)
        = ↑(s.handled ++ dropped r.fates) + _ + ↑(r.dataChansOut.flatMap Chan.buf)
      rw [hfates, hchans, hbufs, dropped_put, List.map_append, ← Multiset.coe_add, hs, ← add_assoc]
      rfl
  | drop msg hfates hchans =>
      show (↑(r.fates.map Prod.fst) : Multiset M)
        = ↑(s.handled ++ dropped r.fates) + _ + ↑(r.dataChansOut.flatMap Chan.buf)
      have hdone : (↑(s.handled ++ (dropped s.router.fates ++ [msg])) : Multiset M)
          = ↑(s.handled ++ dropped s.router.fates) + ↑[msg] := by
        rw [Multiset.coe_add, List.append_assoc]
      rw [hfates, hchans, dropped_drop, hdone, List.map_append, ← Multiset.coe_add, hs]
      show _ + (↑[msg] : Multiset M) = _
      abel

/-- The output after a worker's step: the worker, its channel and the messages
    handled. -/
def workerMoved (s : InfluxOutput M) (c : Nat) (w : WorkerPc M) (chans : List (Chan M))
    (handled : List M) : InfluxOutput M :=
  { s with
    router := { s.router with dataChansOut := chans }
    workers := s.workers.set c w
    handled := handled }

/-- A worker passes its messages on. -/
theorem Flow.moved (hs : Flow s) (hw : s.workers[c]? = some w) {handled : List M}
    (hbalance : (↑handled + ↑(workerHand w') + ↑(chans.flatMap Chan.buf) : Multiset M)
      = ↑s.handled + ↑(workerHand w) + ↑(s.router.dataChansOut.flatMap Chan.buf)) :
    Flow (workerMoved s c w' chans handled) := by
  have hset := coe_flatMap_set workerHand w' hw
  unfold Flow doneWith at hs ⊢
  refine add_right_cancel (b := (↑(workerHand w) : Multiset M)) ?_
  show (↑(s.router.fates.map Prod.fst) : Multiset M) + ↑(workerHand w)
    = ↑(handled ++ dropped s.router.fates) + ↑((s.workers.set c w').flatMap workerHand)
      + ↑(chans.flatMap Chan.buf) + ↑(workerHand w)
  rw [← Multiset.coe_add] at hs ⊢
  rw [hs]
  calc (↑s.handled + ↑(dropped s.router.fates) + ↑(s.workers.flatMap workerHand)
          + ↑(s.router.dataChansOut.flatMap Chan.buf) + ↑(workerHand w) : Multiset M)
      = (↑s.handled + ↑(workerHand w) + ↑(s.router.dataChansOut.flatMap Chan.buf))
          + ↑(dropped s.router.fates) + ↑(s.workers.flatMap workerHand) := by abel
    _ = (↑handled + ↑(workerHand w') + ↑(chans.flatMap Chan.buf))
          + ↑(dropped s.router.fates) + ↑(s.workers.flatMap workerHand) := by rw [hbalance]
    _ = ↑handled + ↑(dropped s.router.fates) + ↑(chans.flatMap Chan.buf)
          + (↑(s.workers.flatMap workerHand) + ↑(workerHand w')) := by abel
    _ = ↑handled + ↑(dropped s.router.fates) + ↑(chans.flatMap Chan.buf)
          + (↑((s.workers.set c w').flatMap workerHand) + ↑(workerHand w)) := by rw [hset]
    _ = ↑handled + ↑(dropped s.router.fates) + ↑((s.workers.set c w').flatMap workerHand)
          + ↑(chans.flatMap Chan.buf) + ↑(workerHand w) := by abel

/-- A worker that is not gone keeps the output from answering. -/
theorem InfluxInv.unanswered (hs : InfluxInv s) (hw : s.workers[c]? = some w)
    (hbusy : isExited w = false) : ¬ InfluxAcked s := by
  intro hacked
  have hexit := List.all_eq_true.mp (hs.answered hacked) w (List.mem_of_getElem? hw)
  rw [hbusy] at hexit
  cases hexit

/-- **A WORKER'S STEP** keeps the invariant, if it passes its messages on, touches
    no channel but its own, and leaves that closed and empty should it go. -/
theorem InfluxInv.moved {s : InfluxOutput M} (hs : InfluxInv s) {c : Nat}
    {w w' : WorkerPc M} (hw : s.workers[c]? = some w) (hbusy : isExited w = false)
    {chans : List (Chan M)} {handled : List M}
    (hrouter : RouterInv { s.router with dataChansOut := chans })
    (hbalance : (↑handled + ↑(workerHand w') + ↑(chans.flatMap Chan.buf) : Multiset M)
      = ↑s.handled + ↑(workerHand w) + ↑(s.router.dataChansOut.flatMap Chan.buf))
    (hlen : chans.length = s.router.dataChansOut.length)
    (hothers : ∀ c' : Nat, c' ≠ c → chans[c']? = s.router.dataChansOut[c']?)
    (hgone : w' = .exited → ∃ ch, chans[c]? = some ch ∧ ch.isClosed = true ∧ ch.buf = []) :
    InfluxInv (workerMoved s c w' chans handled) where
  router := hrouter
  unblocked := hs.unblocked
  flow := hs.flow.moved hw hbalance
  matched := by
    show (s.workers.set c w').length = chans.length
    rw [List.length_set, hlen]
    exact hs.matched
  left := by
    intro c' hc'
    rcases getElem?_set_cases hc' with ⟨rfl, hw'⟩ | ⟨hne, hold⟩
    · exact hgone hw'.symm
    · obtain ⟨ch, hch, hrest⟩ := hs.left c' hold
      exact ⟨ch, (hothers c' hne).trans hch, hrest⟩
  kept := hs.kept
  drained := hs.drained
  told := hs.told
  asked := hs.asked
  answered := fun hacked => absurd hacked (hs.unanswered hw hbusy)
  staffed := by
    intro hrun
    show 0 < (s.workers.set c w').length
    rw [List.length_set]
    exact hs.staffed hrun
  running := hs.running

/-- **A STEP OF THE ROUTER** keeps the invariant. -/
theorem InfluxInv.routed (hs : InfluxInv s) (hallow : admits s a = true)
    (h : routerStep s.router a = some r) :
    InfluxInv { s with router := r, lastWorker := advance s a } := by
  have hmoves := moves_of_step h
  have hdeals : Deals s.router r := by
    refine deals_of_moves hmoves hs.router hs.unblocked ?_
    rintro c rfl
    cases hallow
  have hblock : a ≠ .answer .sendAndBlock := by
    rintro rfl
    simp only [admits] at hallow
    split at hallow
    · next i _ _ =>
        have hno : CongestionAction.sendAndBlock = handleCongested s.workers.length i :=
          of_decide_eq_true hallow
        unfold handleCongested at hno
        split at hno <;> cases hno
    · cases hallow
  -- messages come in only before the request
  have hstopped : s.atRequest ≠ none → ∀ msg, a ≠ .produce msg ∧ a ≠ .handIn msg := by
    intro hreq msg
    have hno : s.atRequest.isNone ≠ true := fun hnone => hreq (Option.isNone_iff_eq_none.mp hnone)
    refine ⟨?_, ?_⟩
    · rintro rfl
      exact hno hallow
    · rintro rfl
      exact hno hallow
  obtain ⟨hin, hsnap⟩ := input_step h
  have hkept : ∀ before queued, s.atRequest = some (before, queued) →
      r.taken ++ r.dataChanIn.buf = before ++ queued := by
    intro before queued hreq
    rw [hin (hstopped (by rw [hreq]; exact Option.some_ne_none _))]
    exact hs.kept before queued hreq
  refine ⟨routerInv_step h hs.router, unblocked_moves hmoves hs.unblocked hblock,
    hs.flow.deals hdeals _, ?_, ?_, hkept, ?_, hs.told, ?_, hs.answered, hs.staffed,
    hs.running⟩
  · show s.workers.length = r.dataChansOut.length
    rw [hdeals.length_eq]
    exact hs.matched
  · intro c hc
    obtain ⟨ch, hch, hclosed, hbuf⟩ := hs.left c hc
    exact ⟨ch, hdeals.closed hch hclosed, hclosed, hbuf⟩
  · intro b q hbq
    rcases hsnap with hsame | ⟨hpc, hread⟩
    · rw [hsame] at hbq
      exact hs.drained b q hbq
    · rw [hread] at hbq
      cases hbq
      obtain ⟨⟨before, queued⟩, hreq⟩ :=
        Option.ne_none_iff_exists'.mp (hs.told (hs.asked hpc))
      exact ⟨before, queued, hreq, hs.kept before queued hreq⟩
  · intro hpc
    rcases readingLen_moves hmoves hpc with hwas | rfl
    · exact hs.asked hwas
    · exact hallow

/-- A receive takes one message from the channels. -/
theorem coe_bufs_recv {ch' : Chan M} (hch : chans[c]? = some ch)
    (hrecv : ch.recv = some (msg, ch')) :
    (↑((chans.set c ch').flatMap Chan.buf) + ↑[msg] : Multiset M)
      = ↑(chans.flatMap Chan.buf) := by
  have hset := coe_flatMap_set Chan.buf ch' hch
  rw [(Chan.recv_spec hrecv).2.2, ← List.singleton_append, ← Multiset.coe_add,
    ← add_assoc] at hset
  exact add_right_cancel hset

/-- A worker's step away from its channel. -/
theorem InfluxInv.stayed (hs : InfluxInv s) (hw : s.workers[c]? = some w)
    (hbusy : isExited w = false) {handled : List M}
    (hbalance : (↑handled + ↑(workerHand w') : Multiset M) = ↑s.handled + ↑(workerHand w))
    (hgone : w' = .exited →
      ∃ ch, s.router.dataChansOut[c]? = some ch ∧ ch.isClosed = true ∧ ch.buf = []) :
    InfluxInv (workerMoved s c w' s.router.dataChansOut handled) :=
  hs.moved hw hbusy hs.router (by rw [hbalance]) rfl (fun _ _ => rfl) hgone

/-- The effect of a step of the output, with what it requires. -/
inductive Acts (s : InfluxOutput M) : InfluxLabel M → InfluxOutput M → Prop where
  | routed {a : RouterLabel M} {r : RouterState M} : admits s a = true →
      routerStep s.router a = some r →
      Acts s (.router a) { s with router := r, lastWorker := advance s a }
  | requested : s.atRequest = none →
      Acts s .request { s with atRequest := some (s.router.taken, s.router.dataChanIn.buf) }
  | told : s.atRequest.isSome = true →
      Acts s .takeShutdown { s with ctrl := .waiting, shutdownChan := true }
  | acked : s.workers.all isExited = true → Acts s .ack { s with ctrl := .returned }
  | connected {c : Nat} : s.workers[c]? = some .connecting →
      Acts s (.connect c) (workerMoved s c .receiving s.router.dataChansOut s.handled)
  | received {c : Nat} {ch ch' : Chan M} {msg : M} : s.workers[c]? = some .receiving →
      s.router.dataChansOut[c]? = some ch → ch.recv = some (msg, ch') →
      Acts s (.receive c)
        (workerMoved s c (.handling msg) (s.router.dataChansOut.set c ch') s.handled)
  | handled {c : Nat} {failed : Bool} {msg : M} : s.workers[c]? = some (.handling msg) →
      Acts s (.handle c failed)
        (workerMoved s c (if failed then .connecting else .receiving) s.router.dataChansOut
          (s.handled ++ [msg]))
  | left {c : Nat} {ch : Chan M} : s.workers[c]? = some .receiving →
      s.router.dataChansOut[c]? = some ch → ch.isClosed = true → ch.buf = [] →
      Acts s (.exit c) (workerMoved s c .exited s.router.dataChansOut s.handled)

/-- **STEP CASES**: every step of a running output acts as listed. -/
theorem acts_of_step {t : InfluxOutput M} (h : influxStep s l = some t) :
    s.crashed = false ∧ Acts s l t := by
  unfold influxStep at h
  split at h
  · cases h
  next hrun =>
    refine ⟨Bool.eq_false_iff.mpr hrun, ?_⟩
    cases l with
    | router a =>
        simp only at h
        split at h
        · next hallow =>
            obtain ⟨r, hr, rfl⟩ := Option.map_eq_some_iff.mp h
            exact .routed hallow hr
        · cases h
    | request =>
        simp only at h
        split at h
        · next hnone =>
            cases h
            exact .requested hnone
        · cases h
    | takeShutdown =>
        simp only at h
        split at h
        · next hreq =>
            cases h
            exact .told hreq.2
        · cases h
    | ack =>
        simp only at h
        split at h
        · next hall =>
            cases h
            exact .acked hall.2
        · cases h
    | connect c =>
        simp only at h
        split at h
        · next hw =>
            cases h
            exact .connected hw
        · cases h
    | receive c =>
        simp only at h
        split at h
        · next ch hw hch =>
            split at h
            · next msg ch' hrecv =>
                cases h
                exact .received hw hch hrecv
            · cases h
        · cases h
    | handle c failed =>
        simp only at h
        split at h
        · next msg hw =>
            cases h
            exact .handled hw
        · cases h
    | exit c =>
        simp only at h
        split at h
        · next ch hw hch =>
            split at h
            · next hempty =>
                cases h
                exact .left hw hch hempty.1 (List.length_eq_zero_iff.mp hempty.2)
            · cases h
        · cases h

theorem influxInv_step {t : InfluxOutput M} (hs : InfluxInv s) (h : influxStep s l = some t) :
    InfluxInv t := by
  obtain ⟨hrun, hacts⟩ := acts_of_step h
  cases hacts with
  | routed hallow hr => exact hs.routed hallow hr
  | requested hnone =>
      refine ⟨hs.router, hs.unblocked, hs.flow, hs.matched, hs.left, ?_, ?_,
        fun _ => Option.some_ne_none _, hs.asked, hs.answered, hs.staffed, hs.running⟩
      · intro before queued hreq
        cases hreq
        rfl
      · intro b q hbq
        obtain ⟨before, queued, hreq, -⟩ := hs.drained b q hbq
        rw [hnone] at hreq
        cases hreq
  | told hreq =>
      refine ⟨hs.router, hs.unblocked, hs.flow, hs.matched, hs.left, hs.kept, hs.drained,
        fun _ => Option.isSome_iff_ne_none.mp hreq, fun _ => rfl, fun hacked => ?_,
        hs.staffed, fun hacked => ?_⟩
      · cases hacked
      · cases hacked
  | acked hall =>
      exact ⟨hs.router, hs.unblocked, hs.flow, hs.matched, hs.left, hs.kept, hs.drained,
        hs.told, hs.asked, fun _ => hall, hs.staffed, fun _ => hrun⟩
  | connected hw => exact hs.stayed hw rfl rfl (fun hno => by cases hno)
  | @received c ch ch' msg hw hch hrecv =>
      have hwork : routerStep s.router (.work c)
          = some { s.router with dataChansOut := s.router.dataChansOut.set c ch' } := by
        simp only [routerStep, hch, hrecv]
      refine hs.moved hw rfl (routerInv_step hwork hs.router) ?_ List.length_set
        (fun c' hne => List.getElem?_set_ne (Ne.symm hne)) (fun hno => by cases hno)
      -- the message goes from the channel to the worker's hand
      show (↑s.handled + ↑[msg] + ↑((s.router.dataChansOut.set c ch').flatMap Chan.buf) :
          Multiset M)
        = ↑s.handled + ↑([] : List M) + ↑(s.router.dataChansOut.flatMap Chan.buf)
      rw [← coe_bufs_recv hch hrecv, Multiset.coe_nil]
      abel
  | @handled c failed msg hw =>
      refine hs.stayed hw rfl ?_ ?_
      · rw [← Multiset.coe_add]
        cases failed with
        | true => exact add_zero _
        | false => exact add_zero _
      · cases failed with
        | true => exact fun hno => by cases hno
        | false => exact fun hno => by cases hno
  | @left c ch hw hch hclosed hbuf =>
      exact hs.stayed hw rfl rfl (fun _ => ⟨ch, hch, hclosed, hbuf⟩)

theorem workerCount_pos {workers : Int} {procs : Nat} (h : ¬ workerCount workers procs < 0) :
    0 < (workerCount workers procs).toNat := by
  unfold workerCount at h ⊢
  by_cases hzero : workers = 0
  · rw [if_pos hzero]
    decide
  · rw [if_neg hzero] at h ⊢
    by_cases hmany : workers > procs + 1
    · rw [if_pos hmany]
      omega
    · rw [if_neg hmany] at h ⊢
      omega

theorem influxInv_init :
    InfluxInv (influxOutput depth workers procs : System (InfluxOutput M) _).init where
  router := routerInv_init _ _
  unblocked := trivial
  flow := by
    have hhands : (List.replicate (workerCount workers procs).toNat
        (WorkerPc.connecting : WorkerPc M)).flatMap workerHand = [] := by
      rw [List.flatMap_eq_nil_iff]
      intro w hw
      rw [List.eq_of_mem_replicate hw]
      rfl
    have hbufs : ((List.replicate (workerCount workers procs).toNat depth).map
        (Chan.make : Nat → Chan M)).flatMap Chan.buf = [] := by
      rw [List.flatMap_eq_nil_iff]
      intro ch hch
      obtain ⟨cap, -, rfl⟩ := List.mem_map.mp hch
      rfl
    unfold Flow
    simp only [influxOutput, router, hhands, hbufs, doneWith]
    rfl
  matched := by
    show (List.replicate _ _).length = ((List.replicate _ _).map _).length
    rw [List.length_map, List.length_replicate, List.length_replicate]
  left := by
    intro c hc
    have hmem := List.mem_of_getElem? hc
    cases List.eq_of_mem_replicate hmem
  kept := fun _ _ hreq => by cases hreq
  drained := fun _ _ hbq => by cases hbq
  told := fun h => absurd h Bool.false_ne_true
  asked := fun h => by cases h
  answered := fun h => by cases h
  staffed := by
    intro hrun
    show 0 < (List.replicate _ _).length
    rw [List.length_replicate]
    exact workerCount_pos (of_decide_eq_false hrun)
  running := fun h => by cases h

theorem eq_exited (h : isExited w = true) : w = .exited := by
  cases w with
  | exited => rfl
  | connecting => cases h
  | receiving => cases h
  | handling msg => cases h

/-- With all workers gone, every channel is closed and empty, and nothing is in
    hand. -/
theorem InfluxInv.emptied (hs : InfluxInv s) (hall : s.workers.all isExited = true) :
    s.workers.flatMap workerHand = [] ∧
      ∀ (c : Nat) (ch : Chan M), s.router.dataChansOut[c]? = some ch →
        ch.isClosed = true ∧ ch.buf = [] := by
  have hgone : ∀ w ∈ s.workers, w = .exited := fun w hw =>
    eq_exited (List.all_eq_true.mp hall w hw)
  refine ⟨?_, ?_⟩
  · rw [List.flatMap_eq_nil_iff]
    intro w hw
    rw [hgone w hw]
    rfl
  · intro c ch hch
    have hlt : c < s.workers.length := by
      rw [hs.matched]
      exact (List.getElem?_eq_some_iff.mp hch).1
    have hw := List.getElem?_eq_getElem hlt
    rw [hgone _ (List.getElem_mem hlt)] at hw
    obtain ⟨ch', hch', hclosed, hbuf⟩ := hs.left c hw
    rw [hch] at hch'
    cases hch'
    exact ⟨hclosed, hbuf⟩

/-- A router that has closed a channel is past its drain loop. -/
theorem closing_of_closedAt {pc : Pc M} (h : closedAt pc c = true) :
    (∃ next, pc = .closing next) ∨ pc = .returned := by
  cases pc with
  | closing next => exact Or.inl ⟨next, rfl⟩
  | returned => exact Or.inr rfl
  | _ => cases h

/-- **THE INFLUX OUTPUT DRAINS**, in every run. -/
theorem influx_drains :
    Drains (influxOutput depth workers procs : System (InfluxOutput M) _) anyStep InfluxAcked
      InfluxComplete := by
  intro s hreach hacked
  have hs : InfluxInv s := hreach.invariant (I := InfluxInv) (influxInv_init depth workers procs)
    (fun _ _ _ hs _ hstep => influxInv_step hs hstep)
  obtain ⟨hhands, hchans⟩ := hs.emptied (hs.answered hacked)
  -- there is a channel, and it is closed: the router has drained the input
  have hlt : 0 < s.router.dataChansOut.length := by
    rw [← hs.matched]
    exact hs.staffed (hs.running hacked)
  have hch := List.getElem?_eq_getElem hlt
  have hclosed := (hs.router.carried 0 _ hch).isClosed
  rw [(hchans 0 _ hch).1] at hclosed
  obtain ⟨b, q, hsnap, hfates⟩ := hs.router.safe.drained (closing_of_closedAt hclosed.symm)
  obtain ⟨before, queued, hreq, hall⟩ := hs.drained b q hsnap
  have hbufs : s.router.dataChansOut.flatMap Chan.buf = [] := by
    rw [List.flatMap_eq_nil_iff]
    intro ch hmem
    obtain ⟨c, hc⟩ := List.getElem?_of_mem hmem
    exact (hchans c ch hc).2
  have hflow := hs.flow
  unfold Flow at hflow
  rw [hhands, hbufs, hfates, hall, Multiset.coe_nil, add_zero, add_zero] at hflow
  exact ⟨before, queued, hreq, (Multiset.coe_eq_coe.mp hflow).symm⟩

end PipelineInflux
