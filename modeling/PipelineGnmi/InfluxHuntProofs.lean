import PipelineGnmi.InfluxOutputProofs

/-! # Hunting for a worker

    What `handleMsg` of `message_router.go` does with one message when `route`
    and `handleCongested` are those of `metrics_influx.go`: it goes round the
    workers, from the one after the last it used, puts the message on the first
    channel with room, and drops it once `handleCongested` was asked for the
    attempt after the round.

    The hunt is followed in the runs of the whole output, from any state in which
    `handleMsg` is about to start, so the workers drain their channels between
    any two actions of the router.  Beside the state a record is kept of what
    every call of `route` found, and of how many actions the router took. -/

namespace PipelineInfluxHunt

open GoChan Transition PipelineMessageRouter PipelineInflux

variable {M : Type}

/-- The router is inside `handleMsg`. -/
def inHandleMsg : Pc M → Bool
  | .routing _ _ => true
  | .sending _ _ => true
  | .congested _ _ _ => true
  | .blocking _ _ _ => true
  | .stopping => true
  | .awaitingTimer => true
  | _ => false

/-- The record of a hunt: the workers probed, each with whether there was room in
    its channel, and the number of actions of the router. -/
structure Record where
  probes : List (Nat × Bool)
  steps : Nat

/-- `len(r.dataChansOut[c]) < cap(r.dataChansOut[c])`. -/
def roomAt (chans : List (Chan M)) (c : Nat) : Bool :=
  match chans[c]? with
  | some ch => ch.hasRoom
  | none => false

/-- The actions of `handleMsg` itself. -/
def isOwn : RouterLabel M → Bool
  | .route _ => true
  | .send => true
  | .answer _ => true
  | _ => false

/-- What a step adds to the record. -/
def record (s : InfluxOutput M) (l : InfluxLabel M) (h : Record) : Record :=
  match l with
  | .router (.route c) => ⟨h.probes ++ [(c, roomAt s.router.dataChansOut c)], h.steps + 1⟩
  | .router a => if isOwn a then ⟨h.probes, h.steps + 1⟩ else h
  | _ => h

/-- The runs of the output from a state on, with the record. -/
def hunt (s : InfluxOutput M) : System (InfluxOutput M × Record) (InfluxLabel M) :=
  withHistory ⟨s, influxStep⟩ ⟨[], 0⟩ record

/-- A run is followed up to the return of `handleMsg`. -/
def handling (u : InfluxOutput M × Record) (_ : InfluxLabel M) : Prop :=
  inHandleMsg u.1.router.pc = true

/-- No channel is closed. -/
def Opened (chans : List (Chan M)) : Prop :=
  ∀ (c : Nat) (ch : Chan M), chans[c]? = some ch → ch.isClosed = false

/-- `handleMsg` is about to start with this message: there is a worker, and a
    channel that is open for each.  Anything may be in the channels, and the
    round robin may stand anywhere. -/
structure Ready (s : InfluxOutput M) (msg : M) : Prop where
  pc : s.router.pc = .routing msg 0
  running : s.crashed = false
  staffed : 0 < s.workers.length
  matched : s.router.dataChansOut.length = s.workers.length
  opened : Opened s.router.dataChansOut

/-! ## What the others do meanwhile -/

/-- The workers took messages from the channels, and that is all. -/
def Eased (chans chans' : List (Chan M)) : Prop :=
  chans'.length = chans.length ∧
    ∀ (c : Nat) (ch : Chan M), chans[c]? = some ch →
      ∃ ch', chans'[c]? = some ch' ∧ ch'.isClosed = ch.isClosed ∧
        (ch.hasRoom = true → ch'.hasRoom = true)

theorem Eased.refl (chans : List (Chan M)) : Eased chans chans :=
  ⟨rfl, fun _ ch hch => ⟨ch, hch, rfl, id⟩⟩

variable {ch : Chan M} {msg : M} {chans : List (Chan M)} {c i workers : Nat} {r : RouterState M}
  {s : InfluxOutput M} {l : InfluxLabel M} {probes : List (Nat × Bool)} {h : Record}
  {u : InfluxOutput M × Record}

theorem eased_recv {ch' : Chan M} (hch : chans[c]? = some ch) (hrecv : ch.recv = some (msg, ch')) :
    Eased chans (chans.set c ch') := by
  refine ⟨List.length_set, ?_⟩
  intro d x hx
  by_cases hd : c = d
  · subst hd
    rw [hch] at hx
    cases hx
    have hlen : c < chans.length := (List.getElem?_eq_some_iff.mp hch).1
    have hlog : ch'.isClosed = ch.isClosed := by
      rw [Chan.isClosed, Chan.isClosed, (Chan.recv_spec hrecv).1]
    exact ⟨ch', List.getElem?_set_self hlen, hlog, Chan.hasRoom_recv hrecv⟩
  · exact ⟨x, by rw [List.getElem?_set_ne hd]; exact hx, rfl, id⟩

theorem Eased.opened {chans' : List (Chan M)} (h : Eased chans chans') (ho : Opened chans) :
    Opened chans' := by
  intro c ch' hch'
  have hlt : c < chans.length := by
    rw [← h.1]
    exact (List.getElem?_eq_some_iff.mp hch').1
  have hch := List.getElem?_eq_getElem hlt
  obtain ⟨x, hx, hclosed, -⟩ := h.2 c _ hch
  rw [hch'] at hx
  cases hx
  rw [hclosed]
  exact ho c _ hch

/-- Room that was seen is still there. -/
theorem Eased.roomAt {chans chans' : List (Chan M)} (h : Eased chans chans') {c : Nat}
    (hroom : roomAt chans c = true) : roomAt chans' c = true := by
  unfold PipelineInfluxHunt.roomAt at hroom ⊢
  split at hroom
  · next ch hch =>
      obtain ⟨ch', hch', -, hkeep⟩ := h.2 c ch hch
      rw [hch']
      exact hkeep hroom
  · cases hroom

/-- The places of `handleMsg` the Influx closures lead to. -/
inductive Hunting (msg : M) : Pc M → Prop where
  | routing (i : Nat) : Hunting msg (.routing msg i)
  | sending (c : Nat) : Hunting msg (.sending msg c)
  | congested (i c : Nat) : Hunting msg (.congested msg i c)

/-- What a step leaves to the router: its place in `handleMsg`, what became of
    messages, the round robin, the workers, and channels that are no fuller. -/
structure Aside (s t : InfluxOutput M) : Prop where
  pc : t.router.pc = s.router.pc
  fates : t.router.fates = s.router.fates
  lastWorker : t.lastWorker = s.lastWorker
  staff : t.workers.length = s.workers.length
  crashed : t.crashed = s.crashed
  chans : Eased s.router.dataChansOut t.router.dataChansOut

variable {r' : RouterState M} {a : RouterLabel M} {t : InfluxOutput M} {n start : Nat}

/-- Inputs and the timer do not touch the router's message. -/
theorem routerStep_aside (hpc : Hunting msg r.pc) (hown : isOwn a = false)
    (hwork : ∀ c, a ≠ .work c) (h : routerStep r a = some r') :
    r'.pc = r.pc ∧ r'.fates = r.fates ∧ r'.dataChansOut = r.dataChansOut := by
  cases a with
  | produce m =>
      simp only [routerStep] at h
      split at h
      · cases h
        exact ⟨rfl, rfl, rfl⟩
      · cases h
  | expire =>
      simp only [routerStep] at h
      split at h
      · cases h
        exact ⟨rfl, rfl, rfl⟩
      · cases h
  | work c => exact absurd rfl (hwork c)
  | route c => cases hown
  | send => cases hown
  | answer action => cases hown
  | _ =>
      -- the other actions belong to other places of the router
      generalize hp : r.pc = p at hpc
      cases hpc <;> simp [routerStep, hp] at h

/-- A step that is not the router's own. -/
def isAside : InfluxLabel M → Bool
  | .router a => !isOwn a
  | _ => true

theorem record_aside (hl : isAside l = true) (h : Record) : record s l h = h := by
  cases l with
  | router a =>
      cases a with
      | route c => cases hl
      | send => cases hl
      | answer action => cases hl
      | _ => rfl
  | _ => rfl

/-- A worker's step away from the channels. -/
theorem Aside.worker (s : InfluxOutput M) (c : Nat) (w : WorkerPc M) (handled : List M) :
    Aside s (workerMoved s c w s.router.dataChansOut handled) :=
  ⟨rfl, rfl, rfl, List.length_set, rfl, .refl _⟩

/-- **THE OTHERS STAND ASIDE**: whoever else takes a step, the router's message,
    the round robin and the records stay, and the channels get no fuller. -/
theorem aside_step (hpc : Hunting msg s.router.pc) (hl : isAside l = true)
    (h : influxStep s l = some t) : Aside s t := by
  obtain ⟨-, hacts⟩ := acts_of_step h
  cases hacts with
  | @routed a r hallow hr =>
      have hown : isOwn a = false := by simpa only [isAside, Bool.not_eq_true'] using hl
      have hwork : ∀ c, a ≠ .work c := by
        rintro c rfl
        cases hallow
      obtain ⟨h1, h2, h3⟩ := routerStep_aside hpc hown hwork hr
      have hlast : advance s a = s.lastWorker := by
        cases a with
        | route c => cases hown
        | _ => rfl
      exact ⟨h1, h2, hlast, rfl, rfl, by rw [h3]; exact .refl _⟩
  | requested _ => exact ⟨rfl, rfl, rfl, rfl, rfl, .refl _⟩
  | told _ => exact ⟨rfl, rfl, rfl, rfl, rfl, .refl _⟩
  | acked _ => exact ⟨rfl, rfl, rfl, rfl, rfl, .refl _⟩
  | connected _ => exact Aside.worker s _ _ _
  | received _ hch hrecv =>
      exact ⟨rfl, rfl, rfl, List.length_set, rfl, eased_recv hch hrecv⟩
  | handled _ => exact Aside.worker s _ _ _
  | left _ _ _ _ => exact Aside.worker s _ _ _

/-! ## What the router does -/

/-- The output after an action of `handleMsg`. -/
def routed (s : InfluxOutput M) (r : RouterState M) (lastWorker : Nat) : InfluxOutput M :=
  { s with router := r, lastWorker := lastWorker }

/-- `route` is asked, and the length of the channel it names is compared. -/
def probed (r : RouterState M) (msg : M) (i c : Nat) : RouterState M :=
  { r with pc := if roomAt r.dataChansOut c then .sending msg c else .congested msg i c }

theorem influxStep_router (hrun : s.crashed = false) (a : RouterLabel M) :
    influxStep s (.router a) = if admits s a = true then
      (routerStep s.router a).map (fun r => routed s r (advance s a)) else none := by
  have hno : ¬ s.crashed = true := Bool.eq_false_iff.mp hrun
  unfold influxStep
  exact if_neg hno

theorem step_route (hrun : s.crashed = false) (hpc : s.router.pc = .routing msg i)
    (hc : c = (s.lastWorker + 1) % s.workers.length) (hlt : c < s.router.dataChansOut.length) :
    influxStep s (.router (.route c)) = some (routed s (probed s.router msg i c) c) := by
  have hallow : admits s (.route c) = true := decide_eq_true hc
  have hch := List.getElem?_eq_getElem hlt
  rw [influxStep_router hrun, if_pos hallow]
  simp only [routerStep, hpc, hch, probed, roomAt]
  split <;> rfl

theorem step_send (hrun : s.crashed = false) (hpc : s.router.pc = .sending msg c)
    (hch : s.router.dataChansOut[c]? = some ch) (hopen : ch.isClosed = false)
    (hroom : ch.hasRoom = true) :
    influxStep s (.router .send) = some (routed s { s.router with
      pc := backFrom s.router
      dataChansOut := s.router.dataChansOut.set c (ch.put msg)
      fates := s.router.fates ++ [(msg, .put c)] } s.lastWorker) := by
  have hallow : admits s .send = true := rfl
  rw [influxStep_router hrun, if_pos hallow]
  simp only [routerStep, hpc, sendOn, hch, Chan.send_eq_put hopen hroom]
  rfl

theorem step_reroute (hrun : s.crashed = false) (hpc : s.router.pc = .congested msg i c)
    (hi : i < s.workers.length) :
    influxStep s (.router (.answer (handleCongested s.workers.length i)))
      = some (routed s { s.router with pc := .routing msg (i + 1) } s.lastWorker) := by
  have hanswer : handleCongested s.workers.length i = .reroute := if_pos hi
  have hallow : admits s (.answer .reroute) = true := by
    simp only [admits, hpc, hanswer, decide_true]
  rw [hanswer, influxStep_router hrun, if_pos hallow]
  simp only [routerStep, hpc]
  rfl

theorem step_drop (hrun : s.crashed = false) (hpc : s.router.pc = .congested msg i c)
    (hi : ¬ i < s.workers.length) :
    influxStep s (.router (.answer (handleCongested s.workers.length i)))
      = some (routed s { s.router with
          fates := s.router.fates ++ [(msg, .dropped)], pc := backFrom s.router }
          s.lastWorker) := by
  have hanswer : handleCongested s.workers.length i = .drop := if_neg hi
  have hallow : admits s (.answer .drop) = true := by
    simp only [admits, hpc, hanswer, decide_true]
  rw [hanswer, influxStep_router hrun, if_pos hallow]
  simp only [routerStep, hpc]
  rfl

/-- The one action of `handleMsg` that is next. -/
def nextAction (s : InfluxOutput M) : RouterLabel M :=
  match s.router.pc with
  | .routing _ _ => .route ((s.lastWorker + 1) % s.workers.length)
  | .congested _ i _ => .answer (handleCongested s.workers.length i)
  | _ => .send

/-- The closures leave the router no choice. -/
theorem eq_nextAction (hpc : Hunting msg s.router.pc) (hown : isOwn a = true)
    (h : influxStep s (.router a) = some t) : a = nextAction s := by
  obtain ⟨-, hacts⟩ := acts_of_step h
  obtain ⟨hallow, hr⟩ := hacts
  generalize hp : s.router.pc = p at hpc
  cases a with
  | route c =>
      cases hpc with
      | routing i =>
          rw [nextAction, hp]
          exact congrArg RouterLabel.route (of_decide_eq_true hallow)
      | sending d => simp [routerStep, hp] at hr
      | congested i d => simp [routerStep, hp] at hr
  | send =>
      cases hpc with
      | routing i => simp [routerStep, hp] at hr
      | sending d => rw [nextAction, hp]
      | congested i d => simp [routerStep, hp] at hr
  | answer action =>
      cases hpc with
      | routing i => simp [routerStep, hp] at hr
      | sending d => simp [routerStep, hp] at hr
      | congested i d =>
          simp only [admits, hp] at hallow
          rw [nextAction, hp]
          exact congrArg RouterLabel.answer (of_decide_eq_true hallow)
  | _ => cases hown

/-! ## The record of a hunt -/

/-- So many workers were probed, and each was found full. -/
def Full (probes : List (Nat × Bool)) (n : Nat) : Prop :=
  probes.length = n ∧ ∀ p ∈ probes, p.2 = false

theorem Full.snoc (h : Full probes n) (c : Nat) : Full (probes ++ [(c, false)]) (n + 1) := by
  refine ⟨by rw [List.length_append, h.1]; rfl, ?_⟩
  intro p hp
  rcases List.mem_append.mp hp with hp | hp
  · exact h.2 p hp
  · rw [List.mem_singleton.mp hp]

/-- The probes go round the workers, from the one after `start`. -/
def Round (start workers : Nat) (probes : List (Nat × Bool)) : Prop :=
  ∀ (j : Nat) (p : Nat × Bool), probes[j]? = some p → p.1 = (start + 1 + j) % workers

theorem Round.snoc (h : Round start workers probes) (room : Bool) :
    Round start workers (probes ++ [((start + 1 + probes.length) % workers, room)]) := by
  intro j p hp
  by_cases hj : j < probes.length
  · rw [List.getElem?_append_left hj] at hp
    exact h j p hp
  · have hlen := (List.getElem?_eq_some_iff.mp hp).1
    rw [List.length_append, List.length_singleton] at hlen
    have hlast : j = probes.length := by omega
    subst hlast
    rw [List.getElem?_concat_length] at hp
    cases hp
    rfl

/-- A round of all workers comes by each. -/
theorem round_reaches (start : Nat) (hc : c < workers) :
    ∃ j, j < workers ∧ (start + 1 + j) % workers = c := by
  have hpos : 0 < workers := Nat.zero_lt_of_lt hc
  have hfirst : (start + 1) % workers < workers := Nat.mod_lt _ hpos
  by_cases hle : (start + 1) % workers ≤ c
  · refine ⟨c - (start + 1) % workers, by omega, ?_⟩
    rw [← Nat.mod_add_mod, Nat.add_sub_cancel' hle]
    exact Nat.mod_eq_of_lt hc
  · refine ⟨c + workers - (start + 1) % workers, by omega, ?_⟩
    rw [← Nat.mod_add_mod, Nat.add_sub_cancel' (by omega), Nat.add_mod_right]
    exact Nat.mod_eq_of_lt hc

/-- Once the round is complete, every worker was found full. -/
theorem Round.found_full (h : Round start workers probes) (hfull : Full probes n) (hn : workers ≤ n)
    (hc : c < workers) : (c, false) ∈ probes := by
  obtain ⟨j, hj, hjc⟩ := round_reaches start hc
  have hlt : j < probes.length := by
    rw [hfull.1]
    omega
  have hget := List.getElem?_eq_getElem hlt
  have hmem := List.mem_of_getElem? hget
  have hp : probes[j] = (c, false) := by
    refine Prod.ext ?_ (hfull.2 _ hmem)
    rw [h j _ hget, hjc]
  rw [← hp]
  exact hmem

/-- The last thing that happened to the worker's channel is that the message was
    put on it. -/
def PutOn (r : RouterState M) (msg : M) (c : Nat) : Prop :=
  ∃ ch, r.dataChansOut[c]? = some ch ∧ ch.log.getLast? = some (some msg)

/-- Where a hunt is, with what its record then says. -/
inductive Phase (s : InfluxOutput M) (msg : M) (r : RouterState M) (h : Record) : Prop where
  | routing {i : Nat} : r.pc = .routing msg i → i ≤ s.workers.length → Full h.probes i →
      h.steps = 2 * i → r.fates = s.router.fates → Phase s msg r h
  | congested {i c : Nat} : r.pc = .congested msg i c → i ≤ s.workers.length →
      Full h.probes (i + 1) → h.steps = 2 * i + 1 → r.fates = s.router.fates → Phase s msg r h
  | sending {i c : Nat} {before : List (Nat × Bool)} : r.pc = .sending msg c →
      i ≤ s.workers.length → Full before i → h.probes = before ++ [(c, true)] →
      h.steps = 2 * i + 1 → r.fates = s.router.fates → roomAt r.dataChansOut c = true →
      Phase s msg r h
  | delivered {i c : Nat} {before : List (Nat × Bool)} : inHandleMsg r.pc = false →
      i ≤ s.workers.length → Full before i → h.probes = before ++ [(c, true)] →
      h.steps = 2 * i + 2 → r.fates = s.router.fates ++ [(msg, .put c)] → PutOn r msg c →
      Phase s msg r h
  | dropped : inHandleMsg r.pc = false → Full h.probes (s.workers.length + 1) →
      h.steps = 2 * s.workers.length + 2 → r.fates = s.router.fates ++ [(msg, .dropped)] →
      Phase s msg r h

/-- The invariant of the hunt that starts in `s`. -/
structure HuntInv (s : InfluxOutput M) (msg : M) (u : InfluxOutput M × Record) : Prop where
  running : u.1.crashed = false
  staff : u.1.workers.length = s.workers.length
  matched : u.1.router.dataChansOut.length = s.workers.length
  opened : Opened u.1.router.dataChansOut
  last : u.1.lastWorker ≡ s.lastWorker + u.2.probes.length [MOD s.workers.length]
  round : Round s.lastWorker s.workers.length u.2.probes
  phase : Phase s msg u.1.router u.2

theorem huntInv_init (hs : Ready s msg) :
    HuntInv s msg (hunt s).init where
  running := hs.running
  staff := rfl
  matched := hs.matched
  opened := hs.opened
  last := rfl
  round := fun _ _ hp => by cases hp
  phase := .routing hs.pc (Nat.zero_le _) ⟨rfl, fun _ hp => by cases hp⟩ rfl rfl

theorem Phase.hunting (hp : Phase s msg r h) (hin : inHandleMsg r.pc = true) :
    Hunting msg r.pc := by
  cases hp with
  | @routing i hpc _ _ _ _ => rw [hpc]; exact .routing i
  | @congested i c hpc _ _ _ _ => rw [hpc]; exact .congested i c
  | @sending i c _ hpc _ _ _ _ _ _ => rw [hpc]; exact .sending c
  | delivered hout _ _ _ _ _ _ => rw [hout] at hin; cases hin
  | dropped hout _ _ _ => rw [hout] at hin; cases hin

/-- The others keep the phase: room that was seen stays. -/
theorem Phase.aside (hp : Phase s msg r h) (hin : inHandleMsg r.pc = true) (hpc' : r'.pc = r.pc)
    (hfates' : r'.fates = r.fates) (hchans : Eased r.dataChansOut r'.dataChansOut) :
    Phase s msg r' h := by
  cases hp with
  | routing hpc hi hfull hsteps hfates =>
      exact .routing (hpc'.trans hpc) hi hfull hsteps (hfates'.trans hfates)
  | congested hpc hi hfull hsteps hfates =>
      exact .congested (hpc'.trans hpc) hi hfull hsteps (hfates'.trans hfates)
  | sending hpc hi hfull hprobes hsteps hfates hroom =>
      exact .sending (hpc'.trans hpc) hi hfull hprobes hsteps (hfates'.trans hfates)
        (hchans.roomAt hroom)
  | delivered hout _ _ _ _ _ _ => rw [hout] at hin; cases hin
  | dropped hout _ _ _ => rw [hout] at hin; cases hin

theorem HuntInv.aside {s t : InfluxOutput M} {msg : M} {u : InfluxOutput M × Record}
    (hi : HuntInv s msg u) (hin : inHandleMsg u.1.router.pc = true) (ht : Aside u.1 t) :
    HuntInv s msg (t, u.2) where
  running := ht.crashed.trans hi.running
  staff := ht.staff.trans hi.staff
  matched := ht.chans.1.trans hi.matched
  opened := ht.chans.opened hi.opened
  last := by
    show t.lastWorker ≡ _ [MOD _]
    rw [ht.lastWorker]
    exact hi.last
  round := hi.round
  phase := hi.phase.aside hin ht.pc ht.fates ht.chans

theorem inHandleMsg_backFrom (r : RouterState M) : inHandleMsg (backFrom r) = false := by
  unfold backFrom
  cases r.left <;> rfl

/-- The index `route` answers next. -/
theorem HuntInv.next_index (hi : HuntInv s msg u) : (u.1.lastWorker + 1) % u.1.workers.length
      = (s.lastWorker + 1 + u.2.probes.length) % s.workers.length := by
  rw [hi.staff, Nat.add_right_comm]
  exact hi.last.add_right 1

theorem HuntInv.probe (hi : HuntInv s msg u) (hle : i ≤ s.workers.length)
    (hfull : Full u.2.probes i) (hsteps : u.2.steps = 2 * i)
    (hfates : u.1.router.fates = s.router.fates)
    (hc : c = (u.1.lastWorker + 1) % u.1.workers.length) :
    HuntInv s msg (routed u.1 (probed u.1.router msg i c) c,
      ⟨u.2.probes ++ [(c, roomAt u.1.router.dataChansOut c)], u.2.steps + 1⟩) where
  running := hi.running
  staff := hi.staff
  matched := hi.matched
  opened := hi.opened
  last := by
    show c % _ = _
    rw [hc, hi.next_index, Nat.mod_mod, List.length_append, List.length_singleton,
      Nat.add_right_comm, Nat.add_assoc]
  round := by
    show Round _ _ (u.2.probes ++ [(c, _)])
    rw [hc, hi.next_index]
    exact hi.round.snoc _
  phase := by
    by_cases hroom : roomAt u.1.router.dataChansOut c = true
    · have hpc' : (probed u.1.router msg i c).pc = .sending msg c := if_pos hroom
      rw [hroom]
      exact .sending hpc' hle hfull rfl (congrArg (· + 1) hsteps) hfates hroom
    · have hpc' : (probed u.1.router msg i c).pc = .congested msg i c := if_neg hroom
      rw [Bool.eq_false_iff.mpr hroom]
      exact .congested hpc' hle (hfull.snoc c) (congrArg (· + 1) hsteps) hfates

/-- An action that asks for no index. -/
theorem HuntInv.act (hi : HuntInv s msg u)
    (hlen : r.dataChansOut.length = u.1.router.dataChansOut.length) (ho : Opened r.dataChansOut)
    (hp : Phase s msg r ⟨u.2.probes, u.2.steps + 1⟩) :
    HuntInv s msg (routed u.1 r u.1.lastWorker, ⟨u.2.probes, u.2.steps + 1⟩) where
  running := hi.running
  staff := hi.staff
  matched := hlen.trans hi.matched
  opened := ho
  last := hi.last
  round := hi.round
  phase := hp

theorem opened_put (ho : Opened chans) (hch : chans[c]? = some ch) (msg : M) :
    Opened (chans.set c (ch.put msg)) := by
  intro d x hx
  by_cases hd : c = d
  · subst hd
    have hlt : c < chans.length := (List.getElem?_eq_some_iff.mp hch).1
    rw [List.getElem?_set_self hlt] at hx
    cases hx
    have hopen := ho c ch hch
    rw [Chan.isClosed] at hopen ⊢
    show (ch.log ++ [some msg]).any Option.isNone = false
    rw [List.any_append, hopen]
    rfl
  · rw [List.getElem?_set_ne hd] at hx
    exact ho d x hx

/-- The channel the router saw room in. -/
theorem exists_of_roomAt (h : roomAt chans c = true) :
    ∃ ch, chans[c]? = some ch ∧ ch.hasRoom = true := by
  unfold roomAt at h
  split at h
  · next ch hch => exact ⟨ch, hch, h⟩
  · cases h

/-- **THE HUNT GOES ON**: in `handleMsg` the router's next action is possible,
    and keeps the invariant. -/
theorem HuntInv.next (hs : 0 < s.workers.length) (hi : HuntInv s msg u)
    (hin : inHandleMsg u.1.router.pc = true) :
    ∃ t, influxStep u.1 (.router (nextAction u.1)) = some t ∧
      HuntInv s msg (t, record u.1 (.router (nextAction u.1)) u.2) := by
  cases hi.phase with
  | @routing i hpc hle hfull hsteps hfates =>
      have hlt : (u.1.lastWorker + 1) % u.1.workers.length < u.1.router.dataChansOut.length := by
        rw [hi.matched, hi.staff]
        exact Nat.mod_lt _ hs
      rw [nextAction, hpc]
      exact ⟨_, step_route hi.running hpc rfl hlt, hi.probe hle hfull hsteps hfates rfl⟩
  | @congested i c hpc hle hfull hsteps hfates =>
      rw [nextAction, hpc]
      by_cases hmore : i < u.1.workers.length
      · refine ⟨_, step_reroute hi.running hpc hmore, hi.act rfl hi.opened ?_⟩
        rw [hi.staff] at hmore
        exact .routing rfl hmore hfull (by show u.2.steps + 1 = _; omega) hfates
      · refine ⟨_, step_drop hi.running hpc hmore, hi.act rfl hi.opened ?_⟩
        rw [hi.staff] at hmore
        obtain rfl : i = s.workers.length := by omega
        exact .dropped (inHandleMsg_backFrom _) hfull (by show u.2.steps + 1 = _; omega)
          (congrArg (· ++ [(msg, Fate.dropped)]) hfates)
  | @sending i c before hpc hle hfull hprobes hsteps hfates hroom =>
      obtain ⟨ch, hch, hfree⟩ := exists_of_roomAt hroom
      have hlt : c < u.1.router.dataChansOut.length := (List.getElem?_eq_some_iff.mp hch).1
      rw [nextAction, hpc]
      refine ⟨_, step_send hi.running hpc hch (hi.opened c ch hch) hfree,
        hi.act List.length_set (opened_put hi.opened hch msg) ?_⟩
      refine .delivered (inHandleMsg_backFrom _) hle hfull hprobes
        (by show u.2.steps + 1 = _; omega) (congrArg (· ++ [(msg, Fate.put c)]) hfates) ?_
      exact ⟨_, List.getElem?_set_self hlt, List.getLast?_concat⟩
  | delivered hout _ _ _ _ _ _ => rw [hout] at hin; cases hin
  | dropped hout _ _ _ => rw [hout] at hin; cases hin

theorem huntInv_step {v : InfluxOutput M × Record} (hs : 0 < s.workers.length)
    (hi : HuntInv s msg u) (hin : inHandleMsg u.1.router.pc = true)
    (h : (hunt s).next u l = some v) : HuntInv s msg v := by
  obtain ⟨t, ht, rfl⟩ := Option.map_eq_some_iff.mp h
  have hpc := hi.phase.hunting hin
  by_cases hl : isAside l = true
  · rw [record_aside hl]
    exact hi.aside hin (aside_step hpc hl ht)
  · cases l with
    | router a =>
        have hown : isOwn a = true := by
          simpa only [isAside, Bool.not_eq_true', Bool.not_eq_false] using hl
        obtain rfl := eq_nextAction hpc hown ht
        obtain ⟨t', ht', hkeep⟩ := hi.next hs hin
        obtain rfl : t' = t := Option.some.inj (ht'.symm.trans ht)
        exact hkeep
    | _ => exact absurd rfl hl

/-! ## Every hunt -/

/-- What holds all through a hunt that started in `s`: `route` is asked at most
    once more than there are workers, and names a worker each time; the router
    can go on, and returns after at most twice as many actions; and when it has
    returned, the message is on the channel of the one worker that was found with
    room, the last that was probed, or it is dropped and every worker was found
    full. -/
structure Hunted (s : InfluxOutput M) (msg : M) (u : InfluxOutput M × Record) : Prop where
  calls : u.2.probes.length ≤ s.workers.length + 1
  inRange : ∀ p ∈ u.2.probes, p.1 < s.workers.length
  enabled : inHandleMsg u.1.router.pc = true →
    ∃ a t, isOwn a = true ∧ influxStep u.1 (.router a) = some t
  bounded : u.2.steps ≤ 2 * (s.workers.length + 1)
  outcome : inHandleMsg u.1.router.pc = false →
    (∃ before c, u.2.probes = before ++ [(c, true)] ∧ (∀ p ∈ before, p.2 = false) ∧
      u.1.router.fates = s.router.fates ++ [(msg, .put c)] ∧ PutOn u.1.router msg c) ∨
    ((∀ c < s.workers.length, (c, false) ∈ u.2.probes) ∧
      u.1.router.fates = s.router.fates ++ [(msg, .dropped)])

theorem isOwn_nextAction (s : InfluxOutput M) : isOwn (nextAction s) = true := by
  unfold nextAction
  split <;> rfl

theorem Phase.bounds (hp : Phase s msg r h) :
    h.probes.length ≤ s.workers.length + 1 ∧ h.steps ≤ 2 * (s.workers.length + 1) := by
  cases hp with
  | routing _ hle hfull hsteps _ =>
      rw [hfull.1, hsteps]
      omega
  | congested _ hle hfull hsteps _ =>
      rw [hfull.1, hsteps]
      omega
  | sending _ hle hfull hprobes hsteps _ _ =>
      rw [hprobes, List.length_append, hfull.1, List.length_singleton, hsteps]
      omega
  | delivered _ hle hfull hprobes hsteps _ _ =>
      rw [hprobes, List.length_append, hfull.1, List.length_singleton, hsteps]
      omega
  | dropped _ hfull hsteps _ =>
      rw [hfull.1, hsteps]
      omega

theorem HuntInv.outcome (hi : HuntInv s msg u) (hout : inHandleMsg u.1.router.pc = false) :
    (∃ before c, u.2.probes = before ++ [(c, true)] ∧ (∀ p ∈ before, p.2 = false) ∧
      u.1.router.fates = s.router.fates ++ [(msg, .put c)] ∧ PutOn u.1.router msg c) ∨
    ((∀ c < s.workers.length, (c, false) ∈ u.2.probes) ∧
      u.1.router.fates = s.router.fates ++ [(msg, .dropped)]) := by
  cases hi.phase with
  | routing hpc _ _ _ _ => rw [hpc] at hout; cases hout
  | congested hpc _ _ _ _ => rw [hpc] at hout; cases hout
  | sending hpc _ _ _ _ _ _ => rw [hpc] at hout; cases hout
  | @delivered i c before _ _ hfull hprobes _ hfates hput =>
      exact Or.inl ⟨before, c, hprobes, hfull.2, hfates, hput⟩
  | dropped _ hfull _ hfates =>
      exact Or.inr ⟨fun c hc => hi.round.found_full hfull (Nat.le_succ _) hc, hfates⟩

/-- **EVERY HUNT ENDS**, with the message on the first channel that had room when
    it was probed, or dropped after a full round, whatever the workers drain
    meanwhile. -/
theorem influx_hunts {s : InfluxOutput M} {msg : M} (hs : Ready s msg)
    {u : InfluxOutput M × Record} (hu : Reach (hunt s) handling u) : Hunted s msg u := by
  have hi : HuntInv s msg u := hu.invariant (I := HuntInv s msg) (huntInv_init hs)
    (fun _ _ _ hi hin hn => huntInv_step hs.staffed hi hin hn)
  refine ⟨hi.phase.bounds.1, ?_, ?_, hi.phase.bounds.2, hi.outcome⟩
  · intro p hp
    obtain ⟨j, hj⟩ := List.getElem?_of_mem hp
    rw [hi.round j p hj]
    exact Nat.mod_lt _ hs.staffed
  · intro hin
    obtain ⟨t, ht, -⟩ := hi.next hs.staffed hin
    exact ⟨_, t, isOwn_nextAction _, ht⟩

/-- Two workers, the second of which is behind. -/
def oneBehind : InfluxOutput Nat where
  ctrl := .serving
  shutdownChan := false
  router :=
    { pc := .routing 7 0, dataChanIn := Chan.make 1
      dataChansOut := [Chan.make 1, (Chan.make 1).put 5]
      timer := ⟨false, false⟩, left := none, taken := [5, 7], fates := [(5, .put 1)]
      snapshot := none }
  lastWorker := 0
  workers := [.receiving, .connecting]
  atRequest := none
  handled := []
  crashed := false

theorem oneBehind_ready : Ready oneBehind 7 := by
  refine ⟨rfl, rfl, by decide, rfl, ?_⟩
  intro c ch hch
  match c, hch with
  | 0, hch => cases hch; rfl
  | 1, hch => cases hch; rfl

/-- The second worker is probed first and is found full; the message goes to the
    other. -/
theorem oneBehind_hunts : ∃ u, Reach (hunt oneBehind) handling u ∧
    inHandleMsg u.1.router.pc = false ∧ u.2.probes = [(1, false), (0, true)] ∧
    Hunted oneBehind 7 u := by
  have h1 : Reach (hunt oneBehind) handling _ := .next .init rfl (a := .router (.route 1)) rfl
  have h2 := Reach.next h1 rfl (a := .router (.answer .reroute)) rfl
  have h3 := Reach.next h2 rfl (a := .router (.route 0)) rfl
  have h4 := Reach.next h3 rfl (a := .router .send) rfl
  exact ⟨_, h4, rfl, rfl, influx_hunts oneBehind_ready h4⟩

end PipelineInfluxHunt
