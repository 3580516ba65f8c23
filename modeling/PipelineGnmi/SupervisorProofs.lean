import PipelineGnmi.TransitionProofs

/-! # A supervisor and the workers it restarts

    The pattern is common in Go: a supervisor selects over control requests and
    a `done` channel.  When `done` is closed it makes a new channel, leaves it
    in the field the worker will read, and starts the next worker under a fresh
    context.  On shutdown it cancels the context and waits for `done` once more.
    A goroutine closes the first channel to get things going.

    A worker leaves in one of two ways: it closes `done` and returns (`signal`),
    or it returns without closing it (`quit`).  Which channel a worker closes is
    whichever the field holds when it gets there.

    `Inv` ties the channels to the workers: the channels are the first one and
    one for each worker, each closed as often as its worker signalled.  So one
    worker at most is running (`one_running`), whatever the workers do; and the
    supervisor waits for a worker that can still answer exactly as long as none
    quits (`served_of_noQuit`, `quit_stalls`). -/

namespace Supervisor

open Transition

variable {ω ε : Type}

/-- What one step of a worker leads to. -/
inductive Outcome (ω : Type) where
  | goto (w : ω)
  | signal
  | quit

/-- A worker's program: where it starts, and its steps, given whether its
    context is cancelled. -/
structure Program (ω ε : Type) where
  start : ω
  next : Bool → ω → ε → Option (Outcome ω)

/-- A worker that signalled is `leaving` until it has returned. -/
inductive Status (ω : Type) where
  | running (w : ω)
  | leaving
  | returned
  | quit

namespace Status

/-- How often the worker closed a channel. -/
def signals : Status ω → Nat
  | running _ => 0
  | leaving => 1
  | returned => 1
  | quit => 0

def Running : Status ω → Prop
  | running _ => True
  | _ => False

/-- The worker returned without a signal. -/
def HasQuit : Status ω → Prop
  | quit => True
  | _ => False

theorem Running.signals {st : Status ω} (h : st.Running) : st.signals = 0 := by
  cases st with
  | running w => rfl
  | leaving => exact h.elim
  | returned => exact h.elim
  | quit => exact h.elim

theorem signals_le_one (st : Status ω) : st.signals ≤ 1 := by
  cases st with
  | running w => exact Nat.zero_le 1
  | leaving => exact le_rfl
  | returned => exact le_rfl
  | quit => exact Nat.zero_le 1

end Status

structure Worker (ω : Type) where
  status : Status ω
  cancelled : Bool

inductive Pc where
  | selecting
  | sleeping
  | waiting
  | acking
  | returned
  deriving DecidableEq

/-- The supervisor, the channels made so far and the workers started so far.
    `done` is the channel in the field, `closes` says how often each channel
    was closed, and `cancel` whose context would be cancelled. -/
structure State (ω : Type) where
  pc : Pc
  primed : Bool
  done : Nat
  closes : List Nat
  cancel : Option Nat
  workers : List (Worker ω)
  acked : Bool

inductive Label (ε : Type) where
  | prime
  | retry
  | wake
  | report
  | unknown
  | shutdown
  | collect
  | ack
  | work (k : Nat) (e : ε)
  | leave (k : Nat)

namespace State

/-- The channel in the field is closed. -/
def isDone (s : State ω) : Bool := decide (0 < s.closes.getD s.done 0)

/-- `close(done)`, on the channel the field holds now. -/
def closeDone (s : State ω) : State ω :=
  { s with closes := s.closes.set s.done (s.closes.getD s.done 0 + 1) }

/-- The worker `k` goes on with another status. -/
def setStatus (s : State ω) (k : Nat) (w : Worker ω) (st : Status ω) : State ω :=
  { s with workers := s.workers.set k { w with status := st } }

end State

/-- One step of the supervisor, of the goroutine that primes it, or of a
    worker. -/
def step (prog : Program ω ε) (s : State ω) : Label ε → Option (State ω)
  | .prime => if s.primed then none else some { s.closeDone with primed := true }
  | .retry =>
      if s.pc = .selecting ∧ s.isDone = true then
        some { s with
          pc := .sleeping
          done := s.closes.length
          closes := s.closes ++ [0]
          cancel := some s.workers.length
          workers := s.workers ++ [⟨.running prog.start, false⟩] }
      else none
  | .wake => if s.pc = .sleeping then some { s with pc := .selecting } else none
  | .report => if s.pc = .selecting then some s else none
  | .unknown => if s.pc = .selecting then some s else none
  | .shutdown =>
      if s.pc = .selecting then
        match s.cancel with
        | some k => some { s with
            pc := .waiting
            workers := s.workers.modify k (fun w => { w with cancelled := true }) }
        | none => some { s with pc := .acking }
      else none
  | .collect =>
      if s.pc = .waiting ∧ s.isDone = true then some { s with pc := .acking } else none
  | .ack =>
      if s.pc = .acking then some { s with pc := .returned, acked := true } else none
  | .work k e =>
      match s.workers[k]? with
      | some ⟨.running w, c⟩ =>
          match prog.next c w e with
          | none => none
          | some (.goto w') => some (s.setStatus k ⟨.running w, c⟩ (.running w'))
          | some .signal => some (s.setStatus k ⟨.running w, c⟩ .leaving).closeDone
          | some .quit => some (s.setStatus k ⟨.running w, c⟩ .quit)
      | _ => none
  | .leave k =>
      match s.workers[k]? with
      | some ⟨.leaving, c⟩ => some (s.setStatus k ⟨.leaving, c⟩ .returned)
      | _ => none

/-- The supervisor with its first channel, before anything ran. -/
def supervisor (prog : Program ω ε) : System (State ω) (Label ε) where
  init :=
    { pc := .selecting, primed := false, done := 0, closes := [0], cancel := none
      workers := [], acked := false }
  next := step prog

/-! ## What a step can do -/

/-- The steps by what they change: the first channel, the workers by one, the
    place of the supervisor, the context of a worker, or the status of one. -/
inductive Change (prog : Program ω ε) (s : State ω) : Label ε → State ω → Prop where
  | primed : s.primed = false → Change prog s .prime { s.closeDone with primed := true }
  | started : s.pc = .selecting → s.isDone = true →
      Change prog s .retry { s with
        pc := .sleeping, done := s.closes.length, closes := s.closes ++ [0]
        cancel := some s.workers.length
        workers := s.workers ++ [⟨.running prog.start, false⟩] }
  | idled (l : Label ε) : s.pc = .sleeping ∨ s.pc = .selecting →
      Change prog s l { s with pc := .selecting }
  | settled (l : Label ε) : (s.pc = .selecting ∧ s.cancel = none) ∨
      (s.pc = .waiting ∧ s.isDone = true) → (s.pc = .selecting → l = .shutdown) →
      Change prog s l { s with pc := .acking }
  | cancelled (k : Nat) : s.pc = .selecting → s.cancel = some k →
      Change prog s .shutdown { s with
        pc := .waiting
        workers := s.workers.modify k (fun w => { w with cancelled := true }) }
  | acked : s.pc = .acking → Change prog s .ack { s with pc := .returned, acked := true }
  | went (k : Nat) (e : ε) (w w' : ω) (c : Bool) : s.workers[k]? = some ⟨.running w, c⟩ →
      Change prog s (.work k e) (s.setStatus k ⟨.running w, c⟩ (.running w'))
  | signalled (k : Nat) (e : ε) (w : ω) (c : Bool) : s.workers[k]? = some ⟨.running w, c⟩ →
      Change prog s (.work k e) (s.setStatus k ⟨.running w, c⟩ .leaving).closeDone
  | quit (k : Nat) (e : ε) (w : ω) (c : Bool) : s.workers[k]? = some ⟨.running w, c⟩ →
      prog.next c w e = some .quit →
      Change prog s (.work k e) (s.setStatus k ⟨.running w, c⟩ .quit)
  | left (k : Nat) (c : Bool) : s.workers[k]? = some ⟨.leaving, c⟩ →
      Change prog s (.leave k) (s.setStatus k ⟨.leaving, c⟩ .returned)

/-- Every step is one of these. -/
theorem change_of_step {prog : Program ω ε} {s t : State ω} {l : Label ε}
    (h : step prog s l = some t) : Change prog s l t := by
  -- a request that is only answered leaves the supervisor where it was
  have hidle : s.pc = .selecting → Change prog s l { s with pc := .selecting } :=
    fun hpc => .idled l (Or.inr hpc)
  have hsame : s.pc = .selecting → ({ s with pc := .selecting } : State ω) = s := by
    intro hpc
    rw [← hpc]
  cases l with
  | prime =>
      simp only [step] at h
      split at h
      · cases h
      · next hp =>
          cases h
          exact .primed (Bool.eq_false_of_not_eq_true hp)
  | retry =>
      simp only [step] at h
      split at h
      · next hg =>
          cases h
          exact .started hg.1 hg.2
      · cases h
  | wake =>
      simp only [step] at h
      split at h
      · next hpc =>
          cases h
          exact .idled _ (Or.inl hpc)
      · cases h
  | report =>
      simp only [step] at h
      split at h
      · next hpc =>
          cases h
          exact hsame hpc ▸ hidle hpc
      · cases h
  | unknown =>
      simp only [step] at h
      split at h
      · next hpc =>
          cases h
          exact hsame hpc ▸ hidle hpc
      · cases h
  | shutdown =>
      simp only [step] at h
      split at h
      · next hpc =>
          split at h
          · next k hk =>
              cases h
              exact .cancelled k hpc hk
          · next hk =>
              cases h
              exact .settled _ (Or.inl ⟨hpc, hk⟩) (fun _ => rfl)
      · cases h
  | collect =>
      simp only [step] at h
      split at h
      · next hg =>
          cases h
          exact .settled _ (Or.inr hg) (fun hsel => (by cases hsel.symm.trans hg.1))
      · cases h
  | ack =>
      simp only [step] at h
      split at h
      · next hpc =>
          cases h
          exact .acked hpc
      · cases h
  | work k e =>
      simp only [step] at h
      split at h
      · next w c hk =>
          split at h
          · cases h
          · next w' hn =>
              cases h
              exact .went k e w w' c hk
          · next hn =>
              cases h
              exact .signalled k e w c hk
          · next hn =>
              cases h
              exact .quit k e w c hk hn
      · cases h
  | leave k =>
      simp only [step] at h
      split at h
      · next c hk =>
          cases h
          exact .left k c hk
      · cases h

variable {k j : Nat} {prog : Program ω ε} {s t : State ω} {l : Label ε} {w : ω}

/-- A step of a worker, by what its program comes to. -/
theorem work_of_step {e : ε} (h : step prog s (.work k e) = some t) :
    ∃ w c, s.workers[k]? = some ⟨.running w, c⟩ ∧
      ((∃ w', prog.next c w e = some (.goto w') ∧
          t = s.setStatus k ⟨.running w, c⟩ (.running w')) ∨
        (prog.next c w e = some .signal ∧
          t = (s.setStatus k ⟨.running w, c⟩ .leaving).closeDone) ∨
        (prog.next c w e = some .quit ∧ t = s.setStatus k ⟨.running w, c⟩ .quit)) := by
  simp only [step] at h
  split at h
  · next w c hk =>
      refine ⟨w, c, hk, ?_⟩
      split at h
      · cases h
      · next w' hn =>
          cases h
          exact Or.inl ⟨w', hn, rfl⟩
      · next hn =>
          cases h
          exact Or.inr (Or.inl ⟨hn, rfl⟩)
      · next hn =>
          cases h
          exact Or.inr (Or.inr ⟨hn, rfl⟩)
  · cases h

/-- A worker that runs stays where it is while others move. -/
theorem running_kept {c : Bool} (h : step prog s l = some t) (hl : ∀ e, l ≠ .work k e)
    (hk : s.workers[k]? = some ⟨.running w, c⟩) : ∃ c', t.workers[k]? = some ⟨.running w, c'⟩ := by
  have hlt : k < s.workers.length := (List.getElem?_eq_some_iff.mp hk).1
  have hset : ∀ {j : Nat} {v : Worker ω} {st : Status ω}, j ≠ k →
      (s.setStatus j v st).workers[k]? = some ⟨.running w, c⟩ := fun hne =>
    (List.getElem?_set_ne hne).trans hk
  have hne : ∀ {j : Nat} {e : ε}, l = .work j e → j ≠ k := by
    rintro j e rfl rfl
    exact hl e rfl
  cases change_of_step h with
  | primed _ => exact ⟨c, hk⟩
  | started _ _ => exact ⟨c, (List.getElem?_append_left hlt).trans hk⟩
  | idled _ _ => exact ⟨c, hk⟩
  | settled _ _ => exact ⟨c, hk⟩
  | cancelled j _ _ =>
      show ∃ c', (s.workers.modify j _)[k]? = _
      rw [List.getElem?_modify, hk]
      by_cases hj : j = k
      · exact ⟨true, by simp [hj]⟩
      · exact ⟨c, by simp [hj]⟩
  | acked _ => exact ⟨c, hk⟩
  | went j e _ _ _ _ => exact ⟨c, hset (hne rfl)⟩
  | signalled j e _ _ _ => exact ⟨c, hset (hne rfl)⟩
  | quit j e _ _ _ _ => exact ⟨c, hset (hne rfl)⟩
  | left j c' hj =>
      refine ⟨c, hset ?_⟩
      rintro rfl
      rw [hk] at hj
      cases hj

/-! ## Contexts -/

/-- The context of the worker `k` is cancelled. -/
def ctxDone (s : State ω) (k : Nat) : Bool :=
  match s.workers[k]? with
  | some w => w.cancelled
  | none => false

theorem ctxDone_iff : ctxDone s k = true ↔ ∃ w, s.workers[k]? = some w ∧ w.cancelled = true := by
  unfold ctxDone
  cases s.workers[k]? with
  | none => exact ⟨fun h => absurd h Bool.false_ne_true, fun ⟨_, h, _⟩ => by cases h⟩
  | some w => exact ⟨fun h => ⟨w, rfl, h⟩, fun ⟨_, h, hw⟩ => Option.some.inj h ▸ hw⟩

/-- A worker goes on with its context. -/
theorem ctxDone_setStatus {v : Worker ω} (hj : s.workers[j]? = some v) (st : Status ω) (k : Nat) :
    ctxDone (s.setStatus j v st) k = ctxDone s k := by
  show (match (s.workers.set j { v with status := st })[k]? with
    | some w => w.cancelled | none => false) = _
  by_cases hjk : j = k
  · subst hjk
    rw [List.getElem?_set_self (List.getElem?_eq_some_iff.mp hj).1, ctxDone, hj]
  · rw [List.getElem?_set_ne hjk]
    rfl

/-- Cancelling a context leaves the others. -/
theorem ctxDone_modify (h : t.workers = s.workers.modify j (fun w => { w with cancelled := true }))
    (k : Nat) :
    ctxDone t k = true ↔ ctxDone s k = true ∨ (k = j ∧ j < s.workers.length) := by
  rw [ctxDone_iff, ctxDone_iff, h]
  by_cases hj : j = k
  · subst hj
    rw [List.getElem?_modify_eq]
    cases hw : s.workers[j]? with
    | none =>
        have hlen := List.getElem?_eq_none_iff.mp hw
        constructor
        · rintro ⟨w, h, -⟩
          cases h
        · rintro (⟨w, h, -⟩ | ⟨-, h⟩)
          · cases h
          · omega
    | some w =>
        have hlt := (List.getElem?_eq_some_iff.mp hw).1
        exact ⟨fun _ => Or.inr ⟨rfl, hlt⟩, fun _ => ⟨{ w with cancelled := true }, rfl, rfl⟩⟩
  · rw [List.getElem?_modify_ne _ _ hj]
    exact ⟨Or.inl, fun h => h.resolve_right (fun h' => hj h'.1.symm)⟩

/-- A context that is cancelled stays so. -/
theorem ctxDone_step (h : step prog s l = some t) (hk : ctxDone s k = true) :
    ctxDone t k = true := by
  cases change_of_step h with
  | started hpc hd =>
      obtain ⟨w, hw, hdone⟩ := ctxDone_iff.mp hk
      have hlt : k < s.workers.length := (List.getElem?_eq_some_iff.mp hw).1
      exact ctxDone_iff.mpr ⟨w, (List.getElem?_append_left hlt).trans hw, hdone⟩
  | cancelled j hpc hc => exact (ctxDone_modify rfl k).mpr (Or.inl hk)
  | went j e w w' c hj => exact (ctxDone_setStatus hj _ k).trans hk
  | signalled j e w c hj => exact (ctxDone_setStatus hj _ k).trans hk
  | quit j e w c hj hn => exact (ctxDone_setStatus hj _ k).trans hk
  | left j c hj => exact (ctxDone_setStatus hj _ k).trans hk
  | _ => exact hk

/-- What was acknowledged stays so. -/
theorem acked_step (h : step prog s l = some t) (ha : s.acked = true) : t.acked = true := by
  cases change_of_step h with
  | acked hpc => rfl
  | _ => exact ha

/-! ## Channels and workers -/

def State.statuses (s : State ω) : List (Status ω) := s.workers.map Worker.status

/-- What each worker contributed to its channel. -/
def State.signals (s : State ω) : List Nat := s.statuses.map Status.signals

theorem State.signals_of_worker {w : Worker ω} (hk : s.workers[k]? = some w) :
    s.signals[k]? = some w.status.signals := by
  rw [State.signals, State.statuses, List.getElem?_map, List.getElem?_map, hk]
  rfl

theorem State.length_signals (s : State ω) : s.signals.length = s.workers.length := by
  rw [State.signals, State.statuses, List.length_map, List.length_map]

/-- Cancelling a context changes no status. -/
theorem statuses_cancel (ws : List (Worker ω)) (k : Nat) :
    (ws.modify k (fun w => { w with cancelled := true })).map Worker.status
      = ws.map Worker.status := by
  refine List.ext_getElem? (fun j => ?_)
  rw [List.getElem?_map, List.getElem?_map, List.getElem?_modify]
  cases ws[j]? with
  | none => rfl
  | some w =>
      by_cases hj : k = j
      · simp [hj]
      · simp [hj]

/-- The status a step leaves its worker with. -/
def Outcome.status : Outcome ω → Status ω
  | .goto w => .running w
  | .signal => .leaving
  | .quit => .quit

/-- **WHAT IS KNOWN OF EACH WORKER** after a step, given what was known before: of
    a new one, of the one that took the step, of one that has returned, and of the
    others. -/
theorem workers_step {p q : Nat → Status ω → Prop} (h : step prog s l = some t)
    (hs : ∀ k w, s.workers[k]? = some w → p k w.status)
    (hsame : ∀ k st, (∀ e, l ≠ .work k e) → p k st → q k st)
    (hstart : q s.workers.length (.running prog.start))
    (hleave : ∀ k, l = .leave k → p k .leaving → q k .returned)
    (hwork : ∀ k e w c o, l = .work k e → s.workers[k]? = some ⟨.running w, c⟩ →
      prog.next c w e = some o → p k (.running w) → q k o.status) :
    ∀ k w, t.workers[k]? = some w → q k w.status := by
  intro j v hv
  by_cases hl : ∃ k e, l = .work k e
  · obtain ⟨k, e, rfl⟩ := hl
    obtain ⟨w, c, hk, hout⟩ := work_of_step h
    obtain ⟨o, hn, hworkers⟩ : ∃ o, prog.next c w e = some o ∧
        t.workers = s.workers.set k ⟨o.status, c⟩ := by
      rcases hout with ⟨w', hn, rfl⟩ | ⟨hn, rfl⟩ | ⟨hn, rfl⟩
      · exact ⟨_, hn, rfl⟩
      · exact ⟨_, hn, rfl⟩
      · exact ⟨_, hn, rfl⟩
    rw [hworkers] at hv
    by_cases hj : k = j
    · subst hj
      rw [List.getElem?_set_self (List.getElem?_eq_some_iff.mp hk).1] at hv
      rw [← Option.some.inj hv]
      exact hwork k e w c o rfl hk hn (hs k _ hk)
    · rw [List.getElem?_set_ne hj] at hv
      refine hsame j _ (fun e' heq => ?_) (hs j v hv)
      cases heq
      exact hj rfl
  · have hnot : ∀ k e, l ≠ .work k e := fun k e heq => hl ⟨k, e, heq⟩
    cases change_of_step h with
    | started hpc hd =>
        by_cases hj : j < s.workers.length
        · exact hsame j _ (hnot j) (hs j v ((List.getElem?_append_left hj).symm.trans hv))
        · have hv' := (List.getElem?_append_right (Nat.le_of_not_lt hj)).symm.trans hv
          have hlt := (List.getElem?_eq_some_iff.mp hv').1
          obtain rfl : j = s.workers.length := by
            rw [List.length_singleton] at hlt
            omega
          rw [List.mem_singleton.mp (List.mem_of_getElem? hv')]
          exact hstart
    | cancelled k hpc hc =>
        have hst := congrArg (fun l : List (Status ω) => l[j]?) (statuses_cancel s.workers k)
        simp only [List.getElem?_map] at hst
        rw [hv] at hst
        obtain ⟨w, hw, heq⟩ := Option.map_eq_some_iff.mp hst.symm
        rw [← heq]
        exact hsame j _ (hnot j) (hs j w hw)
    | left k c hk =>
        by_cases hj : k = j
        · subst hj
          have hv' := (List.getElem?_set_self (List.getElem?_eq_some_iff.mp hk).1).symm.trans hv
          rw [← Option.some.inj hv']
          exact hleave k rfl (hs k _ hk)
        · exact hsame j _ (hnot j) (hs j v ((List.getElem?_set_ne hj).symm.trans hv))
    | went k e w w' c hk => exact absurd rfl (hnot k e)
    | signalled k e w c hk => exact absurd rfl (hnot k e)
    | quit k e w c hk hn => exact absurd rfl (hnot k e)
    | _ => exact hsame j _ (hnot j) (hs j v hv)

/-- The supervisor's own fields against what the workers signalled: the channels
    are the first one and one for each worker; all workers but the last have
    signalled, and all of them once the supervisor is about to answer. -/
structure Books (s : State ω) (signals : List Nat) : Prop where
  closes : s.closes = s.primed.toNat :: signals
  done : s.done = signals.length
  primed : signals ≠ [] → s.primed = true
  earlier : ∀ k, k + 1 < signals.length → signals[k]? = some 1
  cancel : ∀ k, s.cancel = some k → k + 1 = signals.length
  cancelNone : s.cancel = none → signals = []
  waiting : s.pc = .waiting → signals ≠ []
  settled : s.pc = .acking ∨ s.pc = .returned → ∀ n ∈ signals, n = 1
  acked : s.acked = true → s.pc = .returned

def Inv (s : State ω) : Prop := Books s s.signals

/-- The channel in the field, as the books have it. -/
theorem Books.isDone_iff {signals : List Nat} (hs : Books s signals) :
    s.isDone = true ↔ 0 < (s.primed.toNat :: signals).getD signals.length 0 := by
  rw [State.isDone, hs.closes, hs.done, decide_eq_true_iff]

/-- It is closed exactly when the last worker signalled. -/
theorem Books.isDone_last {signals : List Nat} (hs : Books s signals) {n : Nat}
    (hk : signals[k]? = some n) (hlast : k + 1 = signals.length) : s.isDone = true ↔ 0 < n := by
  rw [hs.isDone_iff, ← hlast, List.getD_eq_getElem?_getD, List.getElem?_cons_succ, hk]
  rfl

/-- Once it is closed, the first channel is, and every worker has signalled. -/
theorem Books.all_signalled {signals : List Nat} (hs : Books s signals) (hle : ∀ n ∈ signals, n ≤ 1)
    (hd : s.isDone = true) : s.primed = true ∧ ∀ n ∈ signals, n = 1 := by
  constructor
  · by_cases hne : signals = []
    · rw [hs.isDone_iff, hne] at hd
      cases hp : s.primed with
      | true => rfl
      | false =>
          rw [hp] at hd
          exact absurd hd (Nat.lt_irrefl 0)
    · exact hs.primed hne
  · intro n hn
    obtain ⟨k, hk⟩ := List.mem_iff_getElem?.mp hn
    have hlt : k < signals.length := (List.getElem?_eq_some_iff.mp hk).1
    by_cases hlast : k + 1 < signals.length
    · have h1 := hs.earlier k hlast
      rw [hk] at h1
      exact Option.some.inj h1
    · have h0 := (hs.isDone_last hk (by omega)).mp hd
      have := hle n hn
      omega

theorem State.signals_le_one (s : State ω) : ∀ n ∈ s.signals, n ≤ 1 := by
  intro n hn
  obtain ⟨st, -, rfl⟩ := List.mem_map.mp hn
  exact st.signals_le_one

/-- A worker that has not signalled is the last. -/
theorem Inv.last_of_not_signalled (hs : Inv s) {w : Worker ω} (hk : s.workers[k]? = some w)
    (hw : w.status.signals = 0) : k + 1 = s.signals.length := by
  have hsig := State.signals_of_worker hk
  have hlt : k < s.signals.length := (List.getElem?_eq_some_iff.mp hsig).1
  by_contra hne
  have h1 := hs.earlier k (by omega)
  rw [hsig, hw] at h1
  cases h1

/-- What the workers signalled, after one of them changed. -/
theorem State.signals_setStatus (w : Worker ω) (st : Status ω) :
    (s.setStatus k w st).signals = s.signals.set k st.signals := by
  rw [State.signals, State.statuses, State.setStatus, List.map_set, List.map_set]
  rfl

/-- A change of status that signals nothing leaves the books as they are. -/
theorem Inv.setStatus {s : State ω} (hs : Inv s) {k : Nat} {w : Worker ω} {st : Status ω}
    (hk : s.workers[k]? = some w) (hsig : st.signals = w.status.signals) :
    Inv (s.setStatus k w st) := by
  have hsame : (s.setStatus k w st).signals = s.signals := by
    obtain ⟨hlt, hget⟩ := List.getElem?_eq_some_iff.mp (State.signals_of_worker hk)
    rw [State.signals_setStatus, hsig, ← hget, List.set_getElem_self]
  rw [Inv, hsame]
  exact ⟨hs.closes, hs.done, hs.primed, hs.earlier, hs.cancel, hs.cancelNone, hs.waiting,
    hs.settled, hs.acked⟩

/-- A signal closes the channel of the worker that gave it. -/
theorem Inv.signal (hs : Inv s) {w : Worker ω} (hk : s.workers[k]? = some w)
    (hw : w.status.signals = 0) : Inv (s.setStatus k w .leaving).closeDone := by
  have hlast := hs.last_of_not_signalled hk hw
  have hsig := State.signals_of_worker hk
  have hnew : (s.setStatus k w .leaving).closeDone.signals = s.signals.set k 1 :=
    State.signals_setStatus w .leaving
  have hlen : (s.signals.set k 1).length = s.signals.length := List.length_set
  have hne : ∀ {l : List Nat}, l.length = s.signals.length → s.signals ≠ [] → l ≠ [] := by
    intro l hl hne hnil
    rw [hnil] at hl
    exact hne (List.length_eq_zero_iff.mp hl.symm)
  rw [Inv, hnew]
  refine ⟨?_, hs.done.trans hlen.symm, ?_, ?_, ?_, ?_, ?_, ?_, hs.acked⟩
  · -- the field still holds the channel that was made for this worker
    show s.closes.set s.done (s.closes.getD s.done 0 + 1) = s.primed.toNat :: _
    rw [hs.closes, hs.done, ← hlast, List.getD_eq_getElem?_getD, List.getElem?_cons_succ,
      hsig, hw, List.set_cons_succ]
    rfl
  · intro _
    exact hs.primed (fun h => by rw [h] at hlast; cases hlast)
  · intro j hj
    rw [hlen] at hj
    rw [List.getElem?_set_ne (by omega)]
    exact hs.earlier j hj
  · intro j hj
    rw [hlen]
    exact hs.cancel j hj
  · intro hc
    have hnil := hs.cancelNone hc
    rw [hnil] at hlast
    cases hlast
  · intro hpc
    exact hne hlen (hs.waiting hpc)
  · intro hpc n hn
    rcases List.mem_or_eq_of_mem_set hn with h | h
    · exact hs.settled hpc n h
    · exact h

/-- Before it returns the supervisor has acknowledged nothing. -/
theorem Books.acked_of_ne_returned {signals : List Nat} (hs : Books s signals)
    (hpc : s.pc ≠ .returned) {pc : Pc} : s.acked = true → pc = .returned :=
  fun ha => absurd (hs.acked ha) hpc

/-- The supervisor goes on, where the books allow it. -/
theorem Books.goTo {signals : List Nat} (hs : Books s signals) (hpc : s.pc ≠ .returned) {pc : Pc}
    (hwaiting : pc = .waiting → signals ≠ [])
    (hsettled : pc = .acking ∨ pc = .returned → ∀ n ∈ signals, n = 1) :
    Books { s with pc := pc } signals :=
  ⟨hs.closes, hs.done, hs.primed, hs.earlier, hs.cancel, hs.cancelNone, hwaiting, hsettled,
    hs.acked_of_ne_returned hpc⟩

/-- The first channel is closed once.  Nothing was started before, so the field
    still holds it. -/
theorem Inv.prime (hs : Inv s) (hp : s.primed = false) :
    Inv { s.closeDone with primed := true } := by
  have hnil : s.signals = [] := by
    by_contra hne
    rw [hs.primed hne] at hp
    cases hp
  have hcloses := hs.closes
  have hdone := hs.done
  rw [hnil, hp] at hcloses
  rw [hnil] at hdone
  have hs' : Books { s.closeDone with primed := true } s.signals := by
    refine ⟨?_, hs.done, fun _ => rfl, hs.earlier, hs.cancel, hs.cancelNone,
      hs.waiting, hs.settled, hs.acked⟩
    show s.closes.set s.done (s.closes.getD s.done 0 + 1) = _
    rw [hcloses, hdone, hnil]
    rfl
  exact hs'

/-- A new worker with a new channel, once all the others have signalled. -/
theorem Inv.start (hs : Inv s) (hpc : s.pc = .selecting) (hd : s.isDone = true) (w : ω) :
    Inv { s with
      pc := .sleeping, done := s.closes.length, closes := s.closes ++ [0]
      cancel := some s.workers.length
      workers := s.workers ++ [⟨.running w, false⟩] } := by
  obtain ⟨hprimed, hones⟩ := Books.all_signalled hs s.signals_le_one hd
  have hnew : ({ s with
      pc := .sleeping, done := s.closes.length, closes := s.closes ++ [0]
      cancel := some s.workers.length
      workers := s.workers ++ [⟨.running w, false⟩] } : State ω).signals = s.signals ++ [0] := by
    rw [State.signals, State.statuses, List.map_append, List.map_append]
    rfl
  have hlen' : (s.signals ++ [0]).length = s.signals.length + 1 :=
    List.length_append
  rw [Inv, hnew]
  refine ⟨?_, ?_, fun _ => hprimed, ?_, ?_, ?_, ?_, ?_,
    Books.acked_of_ne_returned hs (by rw [hpc]; intro h; cases h)⟩
  · show s.closes ++ [0] = _
    rw [hs.closes]
    rfl
  · show s.closes.length = _
    rw [hs.closes, hlen']
    rfl
  · intro k hk
    rw [hlen'] at hk
    have hlt : k < s.signals.length := by omega
    rw [List.getElem?_append_left hlt, List.getElem?_eq_getElem hlt,
      hones _ (List.getElem_mem hlt)]
  · intro k hk
    rw [hlen', ← Option.some.inj hk, s.length_signals]
  · intro hc
    cases hc
  · intro hpc
    cases hpc
  · intro hpc
    rcases hpc with h | h <;> cases h

/-- **EVERY STEP KEEPS THE BOOKS**. -/
theorem Inv.change (hs : Inv s) (h : Change prog s l t) : Inv t := by
  cases h with
  | primed hp => exact hs.prime hp
  | started hpc hd => exact hs.start hpc hd prog.start
  | idled _ hpc =>
      refine Books.goTo hs ?_ ?_ ?_
      · rcases hpc with h | h <;> rw [h] <;> intro hr <;> cases hr
      · intro h
        cases h
      · intro h
        rcases h with h | h <;> cases h
  | settled _ hg =>
      refine Books.goTo hs ?_ ?_ ?_
      · rcases hg with ⟨h, -⟩ | ⟨h, -⟩ <;> rw [h] <;> intro hr <;> cases hr
      · intro h
        cases h
      · intro _
        rcases hg with ⟨-, hc⟩ | ⟨-, hd⟩
        · rw [hs.cancelNone hc]
          exact fun n hn => absurd hn List.not_mem_nil
        · exact (Books.all_signalled hs s.signals_le_one hd).2
  | cancelled k hpc hc =>
      have hsame : ({ s with
          pc := .waiting
          workers := s.workers.modify k (fun w => { w with cancelled := true }) } :
            State ω).signals = s.signals :=
        congrArg (List.map Status.signals) (statuses_cancel s.workers k)
      have hmoved : Books { s with pc := .waiting } s.signals := by
        refine Books.goTo hs ?_ ?_ ?_
        · rw [hpc]
          intro h
          cases h
        · intro _ hnil
          have hlast := hs.cancel k hc
          rw [hnil] at hlast
          cases hlast
        · intro h
          rcases h with h | h <;> cases h
      rw [Inv, hsame]
      -- the books do not look into the workers
      exact ⟨hmoved.closes, hmoved.done, hmoved.primed, hmoved.earlier, hmoved.cancel,
        hmoved.cancelNone, hmoved.waiting, hmoved.settled, hmoved.acked⟩
  | acked hpc =>
      refine ⟨hs.closes, hs.done, hs.primed, hs.earlier, hs.cancel, hs.cancelNone, ?_, ?_, ?_⟩
      · intro h
        cases h
      · intro _
        exact hs.settled (Or.inl hpc)
      · intro _
        rfl
  | went k e w w' c hk => exact hs.setStatus hk rfl
  | signalled k e w c hk => exact hs.signal hk rfl
  | quit k e w c hk hn => exact hs.setStatus hk rfl
  | left k c hk => exact hs.setStatus hk rfl

theorem inv_init (prog : Program ω ε) : Inv (supervisor prog).init := by
  refine ⟨rfl, rfl, ?_, ?_, ?_, ?_, ?_, ?_, ?_⟩
  · intro h
    exact absurd rfl h
  · intro k hk
    exact absurd hk (Nat.not_lt_zero _)
  · intro k hk
    cases hk
  · intro _
    rfl
  · intro h
    cases h
  · intro h
    rcases h with h | h <;> cases h
  · intro h
    cases h

/-- The books are kept along every run, whatever the workers do. -/
theorem inv_of_reach {P : State ω → Label ε → Prop} (h : Reach (supervisor prog) P s) : Inv s :=
  h.invariant (inv_init prog) (fun _ _ _ hs _ hn => hs.change (change_of_step hn))

/-! ## Who is cancelled -/

/-- The request to shut down was taken. -/
def State.Shut (s : State ω) : Prop := s.pc = .waiting ∨ s.pc = .acking ∨ s.pc = .returned

instance (s : State ω) : Decidable s.Shut :=
  inferInstanceAs (Decidable (s.pc = .waiting ∨ s.pc = .acking ∨ s.pc = .returned))

theorem State.not_shut (h : s.pc = .sleeping ∨ s.pc = .selecting) : ¬ s.Shut := by
  rintro (h' | h' | h') <;> rcases h with h | h <;> rw [h] at h' <;> cases h'

/-- A request that was taken stays so. -/
theorem shut_step (h : step prog s l = some t) (hs : s.Shut) : t.Shut := by
  cases change_of_step h with
  | started hpc hd => exact absurd hs (State.not_shut (Or.inr hpc))
  | idled _ hpc => exact absurd hs (State.not_shut hpc)
  | settled _ hg => exact Or.inr (Or.inl rfl)
  | cancelled k hpc hc => exact Or.inl rfl
  | acked hpc => exact Or.inr (Or.inr rfl)
  | _ => exact hs

/-- The request can be taken in the select. -/
theorem shutdown_enabled (prog : Program ω ε) (hpc : s.pc = .selecting) :
    ∃ t, step prog s .shutdown = some t := by
  simp only [step, if_pos hpc]
  cases s.cancel <;> exact ⟨_, rfl⟩

theorem shut_of_shutdown (h : step prog s .shutdown = some t) : t.Shut := by
  simp only [step] at h
  split at h
  · split at h
    · cases h
      exact Or.inl rfl
    · cases h
      exact Or.inr (Or.inl rfl)
  · cases h

/-- Only the last worker is ever cancelled, and that by the request. -/
def CancelsLast (s : State ω) : Prop :=
  ∀ k, ctxDone s k = true ↔ k + 1 = s.workers.length ∧ s.Shut

theorem CancelsLast.change (hs : CancelsLast s) (hinv : Inv s) (h : Change prog s l t) :
    CancelsLast t := by
  -- before the request nobody is cancelled
  have hnone : s.pc = .sleeping ∨ s.pc = .selecting → ∀ k, ¬ ctxDone s k = true :=
    fun hpc k hk => State.not_shut hpc ((hs k).mp hk).2
  have hset : ∀ {j : Nat} {v : Worker ω} (st : Status ω), s.workers[j]? = some v →
      CancelsLast (s.setStatus j v st) := by
    intro j v st hj k
    rw [ctxDone_setStatus hj, hs k]
    show _ ↔ k + 1 = (s.workers.set j _).length ∧ _
    rw [List.length_set]
    rfl
  cases h with
  | primed hp => exact hs
  | started hpc hd =>
      intro k
      refine iff_of_false (fun hk => ?_) (fun hk => State.not_shut (Or.inl rfl) hk.2)
      obtain ⟨w, hw, hdone⟩ := ctxDone_iff.mp hk
      by_cases hlt : k < s.workers.length
      · exact hnone (Or.inr hpc) k
          (ctxDone_iff.mpr ⟨w, (List.getElem?_append_left hlt).symm.trans hw, hdone⟩)
      · have hw' := (List.getElem?_append_right (Nat.le_of_not_lt hlt)).symm.trans hw
        rw [List.mem_singleton.mp (List.mem_of_getElem? hw')] at hdone
        cases hdone
  | idled _ hpc =>
      intro k
      exact iff_of_false (hnone hpc k) (fun hk => State.not_shut (Or.inr rfl) hk.2)
  | settled _ hg =>
      intro k
      rcases hg with ⟨hpc, hc⟩ | ⟨hpc, -⟩
      · -- nobody was started
        refine iff_of_false (hnone (Or.inr hpc) k) (fun hk => ?_)
        have hlen := s.length_signals
        rw [hinv.cancelNone hc] at hlen
        have := hk.1.trans hlen.symm
        cases this
      · have hshut : s.Shut := Or.inl hpc
        exact (hs k).trans (and_congr_right fun _ => iff_of_true hshut (Or.inr (Or.inl rfl)))
  | cancelled j hpc hc =>
      intro k
      have hlast := hinv.cancel j hc
      rw [s.length_signals] at hlast
      rw [ctxDone_modify rfl k]
      show _ ↔ k + 1 = (s.workers.modify j _).length ∧ _
      rw [List.length_modify]
      constructor
      · rintro (hk | ⟨rfl, -⟩)
        · exact absurd hk (hnone (Or.inr hpc) k)
        · exact ⟨hlast, Or.inl rfl⟩
      · rintro ⟨hk, -⟩
        exact Or.inr ⟨by omega, by omega⟩
  | acked hpc =>
      intro k
      have hshut : s.Shut := Or.inr (Or.inl hpc)
      exact (hs k).trans (and_congr_right fun _ => iff_of_true hshut (Or.inr (Or.inr rfl)))
  | went k e w w' c hk => exact hset _ hk
  | signalled k e w c hk => exact hset _ hk
  | quit k e w c hk hn => exact hset _ hk
  | left k c hk => exact hset _ hk

variable {P : State ω → Label ε → Prop}

/-- **ONLY THE LAST WORKER IS CANCELLED**, along every run. -/
theorem cancelsLast_of_reach (h : Reach (supervisor prog) P s) : CancelsLast s := by
  have hall : Inv s ∧ CancelsLast s := by
    refine h.invariant (I := fun s => Inv s ∧ CancelsLast s) ⟨inv_init prog, ?_⟩ ?_
    · intro k
      exact iff_of_false (fun h => by cases h) (fun h => by cases h.1)
    · rintro u l v ⟨hinv, hu⟩ _ hn
      exact ⟨hinv.change (change_of_step hn), hu.change hinv (change_of_step hn)⟩
  exact hall.2

/-! ## One worker at a time -/

/-- What the supervisor guarantees about its workers: at most one that has not
    signalled is running; no channel is closed twice; a worker was started only
    after the channel of the one before was closed; and none is running
    unsignalled once the shutdown has been answered. -/
structure OneWorker (s : State ω) : Prop where
  unique : ∀ (i j : Nat) (wi wj : Worker ω), s.workers[i]? = some wi → s.workers[j]? = some wj →
    wi.status.Running → wj.status.Running → i = j
  once : ∀ n ∈ s.closes, n ≤ 1
  inTurn : ∀ k, k + 1 < s.workers.length → s.closes[k + 1]? = some 1
  quiet : s.acked = true → ∀ w ∈ s.workers, ¬ w.status.Running

/-- **ONE WORKER, AND NO SIGNAL TWICE**. -/
theorem Inv.oneWorker (hs : Inv s) : OneWorker s := by
  have hlen := s.length_signals
  constructor
  · intro i j wi wj hi hj hri hrj
    have h1 := hs.last_of_not_signalled hi hri.signals
    have h2 := hs.last_of_not_signalled hj hrj.signals
    omega
  · intro n hn
    rw [hs.closes] at hn
    rcases List.mem_cons.mp hn with rfl | hn
    · exact Bool.toNat_le _
    · exact s.signals_le_one n hn
  · intro k hk
    rw [hs.closes, List.getElem?_cons_succ]
    exact hs.earlier k (by omega)
  · intro ha w hw hr
    have h1 := hs.settled (Or.inr (hs.acked ha)) w.status.signals
      (List.mem_map_of_mem (List.mem_map_of_mem hw))
    rw [hr.signals] at h1
    cases h1

/-! ## Waiting for a worker that can answer -/

/-- A supervisor that waits for its worker has its answer, or the worker, the
    last one started, is still running. -/
def Served (s : State ω) : Prop :=
  s.pc = .waiting → s.isDone = true ∨
    ∃ k w, k + 1 = s.workers.length ∧ s.workers[k]? = some w ∧ w.status.Running

/-- The step is a worker's return without a signal. -/
def Quits (prog : Program ω ε) (s : State ω) (l : Label ε) : Prop :=
  ∃ k e w c, l = .work k e ∧ s.workers[k]? = some ⟨.running w, c⟩ ∧
    prog.next c w e = some .quit

/-- No worker has quit. -/
def NoneQuit (s : State ω) : Prop := ∀ st ∈ s.statuses, ¬ st.HasQuit

theorem NoneQuit.setStatus {s : State ω} (hs : NoneQuit s) (k : Nat) (w : Worker ω)
    {st : Status ω} (hst : ¬ st.HasQuit) : NoneQuit (s.setStatus k w st) := by
  intro v hv
  rw [State.statuses, State.setStatus, List.map_set] at hv
  rcases List.mem_or_eq_of_mem_set hv with h | rfl
  · exact hs v h
  · exact hst

theorem NoneQuit.change (hs : NoneQuit s) (hq : ¬ Quits prog s l) (h : Change prog s l t) :
    NoneQuit t := by
  cases h with
  | primed hp => exact hs
  | started hpc hd =>
      intro st hst
      rw [State.statuses, List.map_append] at hst
      rcases List.mem_append.mp hst with h | h
      · exact hs st h
      · rw [List.mem_singleton.mp h]
        exact id
  | idled _ hpc => exact hs
  | settled _ hg => exact hs
  | cancelled k hpc hc =>
      intro st hst
      rw [State.statuses, statuses_cancel] at hst
      exact hs st hst
  | acked hpc => exact hs
  | went k e w w' c hk => exact hs.setStatus k _ id
  | signalled k e w c hk => exact hs.setStatus k _ id
  | quit k e w c hk hn => exact absurd ⟨k, e, w, c, rfl, hk, hn⟩ hq
  | left k c hk => exact hs.setStatus k _ id

/-- **A SUPERVISOR IS SERVED AS LONG AS NO WORKER QUITS**. -/
theorem served_of_noQuit (h : Reach (supervisor prog) (fun s l => ¬ Quits prog s l) s) :
    Served s := by
  have hinv := inv_of_reach h
  have hnone : NoneQuit s :=
    h.invariant (fun _ hst => absurd hst List.not_mem_nil)
      (fun _ _ _ hs hq hn => hs.change hq (change_of_step hn))
  intro hpc
  have hpos : 0 < s.signals.length := List.length_pos_iff.mpr (hinv.waiting hpc)
  have hlen := s.length_signals
  let k := s.workers.length - 1
  have hlt : k < s.workers.length := by omega
  have hk : s.workers[k]? = some s.workers[k] := List.getElem?_eq_getElem hlt
  have hlast : k + 1 = s.workers.length := by omega
  cases hst : s.workers[k].status with
  | running w => exact Or.inr ⟨k, _, hlast, hk, by rw [hst]; trivial⟩
  | leaving =>
      refine Or.inl ((Books.isDone_last hinv (State.signals_of_worker hk)
        (hlast.trans hlen.symm)).mpr ?_)
      rw [hst]
      exact Nat.one_pos
  | returned =>
      refine Or.inl ((Books.isDone_last hinv (State.signals_of_worker hk)
        (hlast.trans hlen.symm)).mpr ?_)
      rw [hst]
      exact Nat.one_pos
  | quit =>
      refine absurd ?_ (hnone s.workers[k].status
        (List.mem_map_of_mem (List.getElem_mem hlt)))
      rw [hst]
      trivial

theorem leads_step (h : step prog s l = some t) : Leads (supervisor prog) (fun _ => True) s t :=
  Leads.single (a := l) trivial h

/-- A supervisor that waits for a worker that quit is not served. -/
theorem Inv.not_served (hs : Inv s) {st : Status ω} (hpc : s.pc = .waiting)
    (hk : s.statuses[k]? = some st) (hq : st.HasQuit) (hlast : k + 1 = s.workers.length) :
    ¬ Served s := by
  have hsig : s.signals[k]? = some 0 := by
    rw [State.signals, List.getElem?_map, hk]
    cases st with
    | running w => exact hq.elim
    | leaving => exact hq.elim
    | returned => exact hq.elim
    | quit => rfl
  intro hserved
  rcases hserved hpc with hd | ⟨j, w, hj, hw, hr⟩
  · exact absurd ((Books.isDone_last hs hsig (hlast.trans s.length_signals.symm)).mp hd)
      (Nat.lt_irrefl 0)
  · obtain rfl : j = k := by omega
    rw [State.statuses, List.getElem?_map, hw] at hk
    rw [← Option.some.inj hk] at hq
    cases hst : w.status with
    | running w' =>
        rw [hst] at hq
        exact hq
    | leaving =>
        rw [hst] at hq
        exact hq
    | returned =>
        rw [hst] at hq
        exact hq
    | quit =>
        rw [hst] at hr
        exact hr

/-- **A WORKER THAT QUITS STALLS ITS SUPERVISOR**: from there a shutdown leads
    to a supervisor that waits for nothing. -/
theorem quit_stalls (h : Reach (supervisor prog) P s) (hq : Quits prog s l)
    (hn : (supervisor prog).next s l = some t) :
    ∃ u, Leads (supervisor prog) (fun _ => True) t u ∧ ¬ Served u := by
  obtain ⟨k, e, w, c, rfl, hk, hquit⟩ := hq
  have hinv := inv_of_reach h
  have ht : t = s.setStatus k ⟨.running w, c⟩ .quit := by
    have hn' : step prog s (.work k e) = some t := hn
    simp only [step, hk, hquit] at hn'
    exact (Option.some.inj hn').symm
  have htinv : Inv t := ht ▸ hinv.setStatus hk rfl
  have hlast : k + 1 = s.signals.length := hinv.last_of_not_signalled hk rfl
  have hlen : t.workers.length = s.workers.length := by
    rw [ht]
    exact List.length_set
  have hlt : k < s.workers.length := (List.getElem?_eq_some_iff.mp hk).1
  have htk : t.statuses[k]? = some .quit := by
    rw [ht, State.statuses, State.setStatus, List.getElem?_map,
      List.getElem?_set_self hlt]
    rfl
  have htlast : k + 1 = t.workers.length := by
    rw [hlen, hlast, s.length_signals]
  have hpc : t.pc = s.pc := by rw [ht]; rfl
  -- a shutdown taken in the select
  have hshutdown : ∀ v : State ω, Inv v → v.pc = .selecting → v.statuses[k]? = some .quit →
      k + 1 = v.workers.length →
      ∃ u, Leads (supervisor prog) (fun _ => True) v u ∧ ¬ Served u := by
    intro v hv hvpc hvk hvlast
    cases hc : v.cancel with
    | none =>
        have hnil := hv.cancelNone hc
        have := v.length_signals
        rw [hnil] at this
        rw [← hvlast] at this
        cases this
    | some j =>
        let u : State ω := { v with
          pc := .waiting
          workers := v.workers.modify j (fun w => { w with cancelled := true }) }
        have hstep : step prog v .shutdown = some u := by
          simp only [u, step, if_pos hvpc, hc]
        have huk : u.statuses[k]? = some .quit := by
          rw [State.statuses, statuses_cancel]
          exact hvk
        have hulast : k + 1 = u.workers.length := hvlast.trans (List.length_modify ..).symm
        exact ⟨u, leads_step hstep,
          (hv.change (change_of_step hstep)).not_served rfl huk trivial hulast⟩
  cases hs : s.pc with
  | selecting => exact hshutdown t htinv (hpc.trans hs) htk htlast
  | sleeping =>
      have hwake : step prog t .wake = some { t with pc := .selecting } := by
        simp only [step, if_pos (hpc.trans hs)]
      obtain ⟨u, hu, hnot⟩ := hshutdown { t with pc := .selecting }
        (htinv.change (change_of_step hwake)) rfl htk htlast
      exact ⟨u, (leads_step hwake).trans hu, hnot⟩
  | waiting => exact ⟨t, Leads.refl _ _ _, htinv.not_served (hpc.trans hs) htk trivial htlast⟩
  | acking =>
      have h1 := hinv.settled (Or.inl hs) _
        (List.mem_of_getElem? (State.signals_of_worker hk))
      cases h1
  | returned =>
      have h1 := hinv.settled (Or.inr hs) _
        (List.mem_of_getElem? (State.signals_of_worker hk))
      cases h1

/-! ## The answer to a shutdown -/

/-- A worker that has quit has, for good. -/
def SomeQuit (s : State ω) : Prop :=
  ∃ (k : Nat) (w : Worker ω), s.workers[k]? = some w ∧ w.status.HasQuit

theorem SomeQuit.setStatus (h : SomeQuit s) {v : Worker ω} (hj : s.workers[j]? = some v)
    (hv : ¬ v.status.HasQuit) (st : Status ω) : SomeQuit (s.setStatus j v st) := by
  obtain ⟨k, w, hw, hq⟩ := h
  have hne : j ≠ k := by
    rintro rfl
    rw [hw] at hj
    exact hv (Option.some.inj hj ▸ hq)
  exact ⟨k, w, (List.getElem?_set_ne hne).trans hw, hq⟩

theorem SomeQuit.step (h : SomeQuit s) (hn : step prog s l = some t) : SomeQuit t := by
  cases change_of_step hn with
  | started hpc hd =>
      obtain ⟨k, w, hw, hq⟩ := h
      have hlt : k < s.workers.length := (List.getElem?_eq_some_iff.mp hw).1
      exact ⟨k, w, (List.getElem?_append_left hlt).trans hw, hq⟩
  | cancelled j hpc hc =>
      obtain ⟨k, w, hw, hq⟩ := h
      have hst := congrArg (fun l : List (Status ω) => l[k]?) (statuses_cancel s.workers j)
      simp only [List.getElem?_map] at hst
      rw [hw] at hst
      obtain ⟨w', hw', heq⟩ := Option.map_eq_some_iff.mp hst
      exact ⟨k, w', hw', heq ▸ hq⟩
  | went j e w w' c hj => exact h.setStatus hj id _
  | signalled j e w c hj => exact h.setStatus hj id _
  | quit j e w c hj hn => exact h.setStatus hj id _
  | left j c hj => exact h.setStatus hj id _
  | _ => exact h

/-- A program that never quits. -/
theorem not_someQuit (hprog : ∀ c w e, prog.next c w e ≠ some .quit)
    (h : Reach (supervisor prog) P s) : ¬ SomeQuit s := by
  have hnone : NoneQuit s := by
    refine h.invariant (fun _ hst => absurd hst List.not_mem_nil) ?_
    intro u l v hu _ hn
    refine hu.change ?_ (change_of_step hn)
    rintro ⟨k, e, w, c, -, -, hquit⟩
    exact hprog c w e hquit
  rintro ⟨k, w, hw, hq⟩
  exact hnone w.status (List.mem_map_of_mem (List.mem_of_getElem? hw)) hq

/-- While it has, the supervisor does not come to answer. -/
theorem Inv.unsettled (hs : Inv s) (h : SomeQuit s) : s.pc ≠ .returned := by
  intro hpc
  obtain ⟨k, w, hw, hq⟩ := h
  have hone := hs.settled (Or.inr hpc) _ (List.mem_of_getElem? (State.signals_of_worker hw))
  cases hst : w.status with
  | quit =>
      rw [hst] at hone
      cases hone
  | _ =>
      rw [hst] at hq
      exact hq

/-- The supervisor returns for good, and reads its control channel no more. -/
theorem returned_step (h : step prog s l = some t) (hpc : s.pc = .returned) : t.pc = .returned := by
  cases change_of_step h with
  | primed hp => exact hpc
  | started hsel hd =>
      rw [hpc] at hsel
      cases hsel
  | idled _ hidle => rcases hidle with h | h <;> rw [hpc] at h <;> cases h
  | settled _ hg => rcases hg with ⟨h, -⟩ | ⟨h, -⟩ <;> rw [hpc] at h <;> cases h
  | cancelled k hsel hc =>
      rw [hpc] at hsel
      cases hsel
  | acked hack => rfl
  | _ => exact hpc

/-- The labels by which the supervisor reads its control channel. -/
def Label.ctrl : Label ε → Bool
  | .shutdown => true
  | .report => true
  | .unknown => true
  | _ => false

theorem step_ctrl_returned (prog : Program ω ε) (hpc : s.pc = .returned) (hl : l.ctrl = true) :
    step prog s l = none := by
  have hnot : ¬ s.pc = .selecting := by
    rw [hpc]
    exact fun h => by cases h
  cases l with
  | shutdown => exact if_neg hnot
  | report => exact if_neg hnot
  | unknown => exact if_neg hnot
  | _ => cases hl

/-- Before the request the supervisor is in its select, or asleep in it. -/
def Unasked (s : State ω) : Prop := s.pc = .sleeping ∨ s.pc = .selecting

/-- Without a request it stays there. -/
theorem Unasked.step (hs : Unasked s) (hl : l.ctrl = false) (h : step prog s l = some t) :
    Unasked t := by
  have hnot : ∀ {pc : Pc}, s.pc = pc → pc = .sleeping ∨ pc = .selecting := fun h => h ▸ hs
  cases change_of_step h with
  | started _ _ => exact Or.inl rfl
  | idled _ _ => exact Or.inr rfl
  | settled _ hg hctrl =>
      rcases hg with ⟨hsel, -⟩ | ⟨hwait, -⟩
      · rw [hctrl hsel] at hl
        cases hl
      · rcases hnot hwait with h' | h' <;> cases h'
  | cancelled _ _ _ => cases hl
  | acked hack => rcases hnot hack with h' | h' <;> cases h'
  | _ => exact hs

/-- The answer is the last thing. -/
theorem acked_of_returned (h : Reach (supervisor prog) P s) :
    s.pc = .returned → s.acked = true := by
  refine h.invariant (I := fun s => s.pc = .returned → s.acked = true) (fun h => by cases h) ?_
  intro u l v hu _ hn hpc
  cases change_of_step hn with
  | acked hack => rfl
  | idled _ hidle => cases hpc
  | settled _ hg => cases hpc
  | started hsel hd => cases hpc
  | cancelled k hsel hc => cases hpc
  | _ => exact hu hpc

/-- A worker of this program, once cancelled, can come to signal, by events of
    `P`. -/
inductive Signals (prog : Program ω ε) (P : ε → Prop) : ω → Prop where
  | now {w : ω} {e : ε} (he : P e) (h : prog.next true w e = some .signal) : Signals prog P w
  | later {w w' : ω} {e : ε} (he : P e) (h : prog.next true w e = some (.goto w'))
      (hw : Signals prog P w') : Signals prog P w

/-- The steps of workers by events of `P`, and those by which the supervisor comes
    to answer. -/
def Answering (P : ε → Prop) : Label ε → Prop
  | .work _ e => P e
  | .collect => True
  | .ack => True
  | _ => False

/-- The worker is brought to its signal. -/
theorem leads_signal {P : ε → Prop} (hw : Signals prog P w) :
    ∀ {s : State ω} {k : Nat}, Inv s → s.workers[k]? = some ⟨.running w, true⟩ →
    ∃ t, Leads (supervisor prog) (Answering P) s t ∧ Inv t ∧ t.pc = s.pc ∧ t.isDone = true := by
  induction hw with
  | @now w e he h =>
      intro s k hs hk
      let t := (s.setStatus k ⟨.running w, true⟩ .leaving).closeDone
      have hstep : step prog s (.work k e) = some t := by
        simp only [step, hk, h]
        rfl
      have ht : Inv t := hs.signal hk rfl
      have hlast := hs.last_of_not_signalled hk rfl
      have hlt : k < s.workers.length := (List.getElem?_eq_some_iff.mp hk).1
      have htk : t.workers[k]? = some ⟨.leaving, true⟩ := List.getElem?_set_self hlt
      have hlen : k + 1 = t.signals.length := by
        rw [t.length_signals, hlast, s.length_signals]
        exact (List.length_set ..).symm
      refine ⟨t, Leads.single (a := .work k e) he hstep, ht, rfl, ?_⟩
      exact (Books.isDone_last ht (State.signals_of_worker htk) hlen).mpr Nat.one_pos
  | @later w w' e he h _ ih =>
      intro s k hs hk
      have hstep : step prog s (.work k e)
          = some (s.setStatus k ⟨.running w, true⟩ (.running w')) := by
        simp only [step, hk, h]
      have hlt : k < s.workers.length := (List.getElem?_eq_some_iff.mp hk).1
      obtain ⟨t, ht, hinv, hpc, hdone⟩ := ih (s := s.setStatus k ⟨.running w, true⟩ (.running w'))
        (k := k) (hs.setStatus hk rfl) (List.getElem?_set_self hlt)
      exact ⟨t, (Leads.single (a := .work k e) he hstep).trans ht, hinv, hpc, hdone⟩

/-- **A SHUTDOWN THAT WAS TAKEN CAN BE ANSWERED**, if no worker has quit and the last
    one, if it runs, can come to signal. -/
theorem leads_acked {P : ε → Prop} (hs : Reach (supervisor prog) anyStep s) (hshut : s.Shut)
    (hquit : ¬ SomeQuit s)
    (hsig : ∀ (k : Nat) (w : ω) (c : Bool), s.workers[k]? = some ⟨.running w, c⟩ →
      Signals prog P w) :
    ∃ t, Leads (supervisor prog) (Answering P) s t ∧ t.pc = .returned ∧ t.acked = true := by
  have hinv := inv_of_reach hs
  have hack : ∀ u : State ω, u.pc = .acking →
      ∃ t, Leads (supervisor prog) (Answering P) u t ∧ t.pc = .returned ∧ t.acked = true := by
    intro u hpc
    have hstep : step prog u .ack = some { u with pc := .returned, acked := true } := if_pos hpc
    exact ⟨_, Leads.single (a := .ack) trivial hstep, rfl, rfl⟩
  have hcollect : ∀ u : State ω, u.pc = .waiting → u.isDone = true →
      ∃ t, Leads (supervisor prog) (Answering P) u t ∧ t.pc = .returned ∧ t.acked = true := by
    intro u hpc hdone
    have hstep : step prog u .collect = some { u with pc := .acking } := if_pos ⟨hpc, hdone⟩
    obtain ⟨t, ht, hret⟩ := hack { u with pc := .acking } rfl
    exact ⟨t, (Leads.single (a := .collect) trivial hstep).trans ht, hret⟩
  rcases hshut with hpc | hpc | hpc
  · have hpos : 0 < s.signals.length := List.length_pos_iff.mpr (hinv.waiting hpc)
    have hlen := s.length_signals
    -- the last worker has signalled, or is brought to it
    obtain ⟨k, hlast⟩ : ∃ k, k + 1 = s.workers.length := ⟨s.workers.length - 1, by omega⟩
    have hlt : k < s.workers.length := by omega
    obtain ⟨w, hw⟩ : ∃ w, s.workers[k]? = some w := ⟨_, List.getElem?_eq_getElem hlt⟩
    have hdone := Books.isDone_last hinv (State.signals_of_worker hw) (hlast.trans hlen.symm)
    obtain ⟨st, c⟩ := w
    cases st with
    | running stage =>
        have hc : c = true := by
          obtain ⟨v, hv, hcancelled⟩ := ctxDone_iff.mp
            ((cancelsLast_of_reach hs k).mpr ⟨hlast, Or.inl hpc⟩)
          rw [hw] at hv
          rw [← Option.some.inj hv] at hcancelled
          exact hcancelled
        subst hc
        obtain ⟨u, hu, -, hupc, hudone⟩ := leads_signal (hsig k stage true hw) hinv hw
        obtain ⟨t, ht, hret⟩ := hcollect u (hupc.trans hpc) hudone
        exact ⟨t, hu.trans ht, hret⟩
    | leaving => exact hcollect s hpc (hdone.mpr Nat.one_pos)
    | returned => exact hcollect s hpc (hdone.mpr Nat.one_pos)
    | quit => exact absurd ⟨k, _, hw, trivial⟩ hquit
  · exact hack s hpc
  · exact ⟨s, Leads.refl _ _ _, hpc, acked_of_returned hs hpc⟩

/-- A worker of this program, not cancelled, can come to quit, by events of `P`. -/
inductive Quitting (prog : Program ω ε) (P : ε → Prop) : ω → Prop where
  | now {w : ω} {e : ε} (he : P e) (h : prog.next false w e = some .quit) : Quitting prog P w
  | later {w w' : ω} {e : ε} (he : P e) (h : prog.next false w e = some (.goto w'))
      (hw : Quitting prog P w') : Quitting prog P w

/-- The start of a worker, and its steps by events of `P`. -/
def Starting (P : ε → Prop) : Label ε → Prop
  | .work _ e => P e
  | .prime => True
  | .retry => True
  | _ => False

/-- The worker is brought to quit. -/
theorem leads_quit {P : ε → Prop} (hw : Quitting prog P w) :
    ∀ {s : State ω} {k : Nat}, s.workers[k]? = some ⟨.running w, false⟩ →
    ∃ t, Leads (supervisor prog) (Starting P) s t ∧ SomeQuit t := by
  induction hw with
  | @now w e he h =>
      intro s k hk
      have hstep : step prog s (.work k e) = some (s.setStatus k ⟨.running w, false⟩ .quit) := by
        simp only [step, hk, h]
      have hlt : k < s.workers.length := (List.getElem?_eq_some_iff.mp hk).1
      exact ⟨_, Leads.single (a := .work k e) he hstep, k, ⟨.quit, false⟩,
        List.getElem?_set_self hlt, trivial⟩
  | @later w w' e he h _ ih =>
      intro s k hk
      have hstep : step prog s (.work k e)
          = some (s.setStatus k ⟨.running w, false⟩ (.running w')) := by
        simp only [step, hk, h]
      have hlt : k < s.workers.length := (List.getElem?_eq_some_iff.mp hk).1
      obtain ⟨t, ht, hquit⟩ := ih (s := s.setStatus k ⟨.running w, false⟩ (.running w'))
        (k := k) (List.getElem?_set_self hlt)
      exact ⟨t, (Leads.single (a := .work k e) he hstep).trans ht, hquit⟩

/-- **THE FIRST WORKER MAY QUIT** where the program can come to it. -/
theorem init_leads_quit {P : ε → Prop} (h : Quitting prog P prog.start) :
    ∃ t, Leads (supervisor prog) (Starting P) (supervisor prog).init t ∧ SomeQuit t := by
  have hstarted : ∃ s, Leads (supervisor prog) (Starting P) (supervisor prog).init s ∧
      s.workers[0]? = some ⟨.running prog.start, false⟩ := by
    refine ⟨_, ⟨[.prime, .retry], ?_, rfl⟩, rfl⟩
    intro l hl
    rcases List.mem_cons.mp hl with rfl | hl
    · trivial
    · rw [List.mem_singleton.mp hl]
      trivial
  obtain ⟨s, hs, hk⟩ := hstarted
  obtain ⟨t, ht, hquit⟩ := leads_quit h hk
  exact ⟨t, hs.trans ht, hquit⟩

end Supervisor
