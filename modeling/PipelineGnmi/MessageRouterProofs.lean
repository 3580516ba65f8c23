import PipelineGnmi.GoChanProofs
import PipelineGnmi.TransitionProofs

/-! # The message router

    `dataMsgRouter` of `message_router.go`: one goroutine takes messages from
    `dataChanIn` and puts each on one of the output channels, which workers
    drain.  Where a message goes (`route`) and what becomes of it when the
    channel is full (`handleCongested`) is up to the owner of the router; here
    both are labels of the step, so they may depend on anything.

    A step of the system is one atomic action of the router, of an input stage,
    of a worker or of the timer.  `taken` and `fates` record which messages
    were taken and what became of them; `router_safe` says that the records and
    the histories of the channels agree in every reachable state. -/

namespace PipelineMessageRouter

open GoChan Transition

/-- `dataMsgRouterCongestionAction`; any other value goes round the loop like a
    reroute. -/
inductive CongestionAction where
  | drop
  | reroute
  | sendAndBlock
  | other
  deriving DecidableEq, Repr

/-- What became of a message. -/
inductive Fate where
  | put (outChanIndex : Nat)
  | dropped
  deriving DecidableEq, Repr

/-- `time.Timer`: whether it is running, and whether its channel holds an
    expiry that was not received. -/
structure Timer where
  active : Bool
  fired : Bool
  deriving DecidableEq, Repr

/-- Where the router is in `run` and `handleMsg`. -/
inductive Pc (M : Type) where
  | starting
  | selecting
  | routing (msg : M) (i : Nat)
  | sending (msg : M) (outChanIndex : Nat)
  | congested (msg : M) (i outChanIndex : Nat)
  | blocking (msg : M) (i outChanIndex : Nat)
  | stopping
  | awaitingTimer
  | readingLen
  | draining
  | closing (next : Nat)
  | returned
  | crashed

/-- The router, its channels and its timer.  `left` is the count of the drain
    loop once shutdown began; `snapshot` keeps what had been taken and what was
    buffered when the drain length was read. -/
structure RouterState (M : Type) where
  pc : Pc M
  dataChanIn : Chan M
  dataChansOut : List (Chan M)
  timer : Timer
  left : Option Nat
  taken : List M
  fates : List (M × Fate)
  snapshot : Option (List M × List M)

inductive RouterLabel (M : Type) where
  | produce (msg : M)
  | handIn (msg : M)
  | work (outChanIndex : Nat)
  | expire
  | setup (stale : Bool)
  | take
  | shutdown
  | readLen
  | drainNext
  | route (outChanIndex : Nat)
  | send
  | answer (action : CongestionAction)
  | ship (receiver : Bool)
  | timeout
  | stopTimer
  | receiveTimer
  | closeNext

variable {M : Type}

/-- Where `handleMsg` returns to: the select loop, or the drain loop. -/
def backFrom (s : RouterState M) : Pc M :=
  match s.left with
  | none => .selecting
  | some _ => .draining

/-- `r.dataChansOut[c] <- msg`, the message being done with if it goes
    through. -/
def sendOn (s : RouterState M) (msg : M) (c : Nat) (receiver : Bool) (after : Pc M) :
    Option (RouterState M) :=
  match s.dataChansOut[c]? with
  | none => none
  | some ch =>
      match ch.send msg receiver with
      | .ok ch' => some { s with
          pc := after
          dataChansOut := s.dataChansOut.set c ch'
          fates := s.fates ++ [(msg, .put c)] }
      | .blocked => none
      | .panic => some { s with pc := .crashed }

/-- One step.  An input stage or a worker that has nothing to do, and a router
    that waits, have no step; `route` answers are valid indices. -/
def routerStep (s : RouterState M) : RouterLabel M → Option (RouterState M)
  | .produce msg =>
      match s.dataChanIn.send msg false with
      | .ok ch => some { s with dataChanIn := ch }
      | _ => none
  | .handIn msg =>
      -- an unbuffered `dataChanIn` hands over while the router waits in select
      match s.pc, s.dataChanIn.send msg true with
      | .selecting, .ok ch =>
          if s.dataChanIn.cap = 0 then
            some { s with dataChanIn := ch, taken := s.taken ++ [msg], pc := .routing msg 0 }
          else none
      | _, _ => none
  | .work c =>
      match s.dataChansOut[c]? with
      | none => none
      | some ch =>
          match ch.recv with
          | none => none
          | some (_, ch') => some { s with dataChansOut := s.dataChansOut.set c ch' }
  | .expire =>
      if s.timer.active then some { s with timer := ⟨false, true⟩ } else none
  | .setup stale =>
      -- the new timer may have expired before it was stopped
      match s.pc with
      | .starting => some { s with pc := .selecting, timer := ⟨false, stale⟩ }
      | _ => none
  | .take =>
      match s.pc, s.dataChanIn.recv with
      | .selecting, some (msg, ch) =>
          some { s with dataChanIn := ch, taken := s.taken ++ [msg], pc := .routing msg 0 }
      | _, _ => none
  | .shutdown =>
      match s.pc with
      | .selecting => some { s with pc := .readingLen }
      | _ => none
  | .readLen =>
      match s.pc with
      | .readingLen => some { s with
          pc := .draining
          left := some s.dataChanIn.buf.length
          snapshot := some (s.taken, s.dataChanIn.buf) }
      | _ => none
  | .drainNext =>
      match s.pc, s.left with
      | .draining, some 0 => some { s with pc := .closing 0 }
      | .draining, some (n + 1) =>
          match s.dataChanIn.recv with
          | none => none
          | some (msg, ch) => some { s with
              dataChanIn := ch
              taken := s.taken ++ [msg]
              left := some n
              pc := .routing msg 0 }
      | _, _ => none
  | .route c =>
      match s.pc, s.dataChansOut[c]? with
      | .routing msg i, some ch =>
          if ch.hasRoom then some { s with pc := .sending msg c }
          else some { s with pc := .congested msg i c }
      | _, _ => none
  | .send =>
      match s.pc with
      | .sending msg c => sendOn s msg c false (backFrom s)
      | _ => none
  | .answer action =>
      match s.pc with
      | .congested msg i c =>
          match action with
          | .drop => some { s with fates := s.fates ++ [(msg, .dropped)], pc := backFrom s }
          | .sendAndBlock => some { s with
              timer := { s.timer with active := true }, pc := .blocking msg i c }
          | _ => some { s with pc := .routing msg (i + 1) }
      | _ => none
  | .ship receiver =>
      match s.pc with
      | .blocking msg _ c => sendOn s msg c receiver .stopping
      | _ => none
  | .timeout =>
      match s.pc with
      | .blocking msg i _ =>
          if s.timer.fired then
            some { s with timer := { s.timer with fired := false }, pc := .routing msg (i + 1) }
          else none
      | _ => none
  | .stopTimer =>
      match s.pc with
      | .stopping =>
          if s.timer.active then
            some { s with timer := { s.timer with active := false }, pc := backFrom s }
          else some { s with pc := .awaitingTimer }
      | _ => none
  | .receiveTimer =>
      match s.pc with
      | .awaitingTimer =>
          if s.timer.fired then
            some { s with timer := { s.timer with fired := false }, pc := backFrom s }
          else none
      | _ => none
  | .closeNext =>
      match s.pc with
      | .closing j =>
          match s.dataChansOut[j]? with
          | none => some { s with pc := .returned }
          | some ch =>
              match ch.close with
              | .ok ch' => some { s with
                  dataChansOut := s.dataChansOut.set j ch', pc := .closing (j + 1) }
              | _ => some { s with pc := .crashed }
      | _ => none

/-- The router with an input channel and output channels of these
    capacities. -/
def router (capIn : Nat) (capsOut : List Nat) : System (RouterState M) (RouterLabel M) where
  init :=
    { pc := .starting, dataChanIn := Chan.make capIn
      dataChansOut := capsOut.map Chan.make
      timer := ⟨true, false⟩, left := none, taken := [], fates := [], snapshot := none }
  next := routerStep

/-! ## What a step can do -/

/-- The effect of a step, with what it requires. -/
inductive Moves (s : RouterState M) : RouterLabel M → RouterState M → Prop where
  | produced {msg : M} {ch : Chan M} :
      s.dataChanIn.send msg false = .ok ch → Moves s (.produce msg) { s with dataChanIn := ch }
  | worked {c : Nat} {ch ch' : Chan M} {msg : M} :
      s.dataChansOut[c]? = some ch → ch.recv = some (msg, ch') →
      Moves s (.work c) { s with dataChansOut := s.dataChansOut.set c ch' }
  | expired : s.timer.active = true → Moves s .expire { s with timer := ⟨false, true⟩ }
  | setUp {stale : Bool} : s.pc = .starting →
      Moves s (.setup stale) { s with pc := .selecting, timer := ⟨false, stale⟩ }
  | took {a : RouterLabel M} {msg : M} {ch : Chan M} : s.pc = .selecting →
      Moves s a { s with dataChanIn := ch, taken := s.taken ++ [msg], pc := .routing msg 0 }
  | shutDown : s.pc = .selecting → Moves s .shutdown { s with pc := .readingLen }
  | readLen : s.pc = .readingLen →
      Moves s .readLen { s with
        pc := .draining
        left := some s.dataChanIn.buf.length
        snapshot := some (s.taken, s.dataChanIn.buf) }
  | drainedAll : s.pc = .draining → s.left = some 0 →
      Moves s .drainNext { s with pc := .closing 0 }
  | drainedOne {n : Nat} {msg : M} {ch : Chan M} : s.pc = .draining →
      s.left = some (n + 1) → s.dataChanIn.recv = some (msg, ch) →
      Moves s .drainNext { s with
        dataChanIn := ch, taken := s.taken ++ [msg], left := some n, pc := .routing msg 0 }
  | roomy {msg : M} {i c : Nat} {ch : Chan M} : s.pc = .routing msg i →
      s.dataChansOut[c]? = some ch → ch.hasRoom = true →
      Moves s (.route c) { s with pc := .sending msg c }
  | full {msg : M} {i c : Nat} : s.pc = .routing msg i →
      Moves s (.route c) { s with pc := .congested msg i c }
  | sent {a : RouterLabel M} {msg : M} {c : Nat} {ch ch' : Chan M} {receiver : Bool}
      {after : Pc M} :
      (s.pc = .sending msg c ∧ after = backFrom s ∨
        (∃ i, s.pc = .blocking msg i c) ∧ after = .stopping) →
      s.dataChansOut[c]? = some ch → ch.send msg receiver = .ok ch' →
      Moves s a { s with
        pc := after
        dataChansOut := s.dataChansOut.set c ch'
        fates := s.fates ++ [(msg, .put c)] }
  | sendPanic {a : RouterLabel M} {msg : M} {c : Nat} {ch : Chan M} {receiver : Bool} :
      (s.pc = .sending msg c ∨ ∃ i, s.pc = .blocking msg i c) →
      s.dataChansOut[c]? = some ch → ch.send msg receiver = .panic →
      Moves s a { s with pc := .crashed }
  | dropped {msg : M} {i c : Nat} : s.pc = .congested msg i c →
      Moves s (.answer .drop) { s with fates := s.fates ++ [(msg, .dropped)], pc := backFrom s }
  | block {msg : M} {i c : Nat} : s.pc = .congested msg i c →
      Moves s (.answer .sendAndBlock)
        { s with timer := { s.timer with active := true }, pc := .blocking msg i c }
  | again {a : RouterLabel M} {msg : M} {i c : Nat} : s.pc = .congested msg i c →
      Moves s a { s with pc := .routing msg (i + 1) }
  | timedOut {msg : M} {i c : Nat} : s.pc = .blocking msg i c →
      Moves s .timeout
        { s with timer := { s.timer with fired := false }, pc := .routing msg (i + 1) }
  | stopped : s.pc = .stopping → s.timer.active = true →
      Moves s .stopTimer { s with timer := { s.timer with active := false }, pc := backFrom s }
  | stopLate : s.pc = .stopping → s.timer.active = false →
      Moves s .stopTimer { s with pc := .awaitingTimer }
  | cleaned : s.pc = .awaitingTimer →
      Moves s .receiveTimer { s with timer := { s.timer with fired := false }, pc := backFrom s }
  | closedOne {j : Nat} {ch ch' : Chan M} : s.pc = .closing j →
      s.dataChansOut[j]? = some ch → ch.close = .ok ch' →
      Moves s .closeNext
        { s with dataChansOut := s.dataChansOut.set j ch', pc := .closing (j + 1) }
  | closePanic {j : Nat} {ch : Chan M} : s.pc = .closing j →
      s.dataChansOut[j]? = some ch → ch.close = .panic →
      Moves s .closeNext { s with pc := .crashed }
  | closedAll {j : Nat} : s.pc = .closing j → s.dataChansOut[j]? = none →
      Moves s .closeNext { s with pc := .returned }

variable {msg : M} {t s : RouterState M} {a : RouterLabel M} (c : Nat) (fates : List (M × Fate))

theorem moves_sendOn (a : RouterLabel M) {c : Nat} {receiver : Bool} {after : Pc M}
    (hpc : s.pc = .sending msg c ∧ after = backFrom s ∨
      (∃ i, s.pc = .blocking msg i c) ∧ after = .stopping)
    (h : sendOn s msg c receiver after = some t) : Moves s a t := by
  unfold sendOn at h
  split at h
  · exact nomatch h
  · next ch hch =>
      split at h
      · next ch' hsend =>
          cases h
          exact .sent hpc hch hsend
      · exact nomatch h
      · next hsend =>
          cases h
          refine .sendPanic ?_ hch hsend
          rcases hpc with ⟨h1, -⟩ | ⟨h1, -⟩
          · exact Or.inl h1
          · exact Or.inr h1

/-- **STEP CASES**: every step of the router moves as listed. -/
theorem moves_of_step (h : routerStep s a = some t) : Moves s a t := by
  cases a with
  | produce msg =>
      simp only [routerStep] at h
      split at h
      · next ch hs => cases h; exact .produced hs
      · exact nomatch h
  | handIn msg =>
      simp only [routerStep] at h
      split at h
      · next ch hpc _ =>
          split at h
          · cases h; exact .took hpc
          · exact nomatch h
      · exact nomatch h
  | work c =>
      simp only [routerStep] at h
      split at h
      · exact nomatch h
      · next ch hch =>
          split at h
          · exact nomatch h
          · next hrecv => cases h; exact .worked hch hrecv
  | expire =>
      simp only [routerStep] at h
      split at h
      · next hactive => cases h; exact .expired hactive
      · exact nomatch h
  | setup stale =>
      simp only [routerStep] at h
      split at h
      · next hpc => cases h; exact .setUp hpc
      · exact nomatch h
  | take =>
      simp only [routerStep] at h
      split at h
      · next hpc _ => cases h; exact .took hpc
      · exact nomatch h
  | shutdown =>
      simp only [routerStep] at h
      split at h
      · next hpc => cases h; exact .shutDown hpc
      · exact nomatch h
  | readLen =>
      simp only [routerStep] at h
      split at h
      · next hpc => cases h; exact .readLen hpc
      · exact nomatch h
  | drainNext =>
      simp only [routerStep] at h
      split at h
      · next hpc hleft => cases h; exact .drainedAll hpc hleft
      · next n hpc hleft =>
          split at h
          · exact nomatch h
          · next hrecv => cases h; exact .drainedOne hpc hleft hrecv
      · exact nomatch h
  | route c =>
      simp only [routerStep] at h
      split at h
      · next ch hpc hch =>
          split at h
          · next hroom => cases h; exact .roomy hpc hch hroom
          · cases h; exact .full hpc
      · exact nomatch h
  | send =>
      simp only [routerStep] at h
      split at h
      · next hpc => exact moves_sendOn _ (Or.inl ⟨hpc, rfl⟩) h
      · exact nomatch h
  | answer action =>
      simp only [routerStep] at h
      split at h
      · next hpc =>
          split at h
          · cases h; exact .dropped hpc
          · cases h; exact .block hpc
          · cases h; exact .again hpc
      · exact nomatch h
  | ship receiver =>
      simp only [routerStep] at h
      split at h
      · next hpc => exact moves_sendOn _ (Or.inr ⟨⟨_, hpc⟩, rfl⟩) h
      · exact nomatch h
  | timeout =>
      simp only [routerStep] at h
      split at h
      · next hpc =>
          split at h
          · cases h; exact .timedOut hpc
          · exact nomatch h
      · exact nomatch h
  | stopTimer =>
      simp only [routerStep] at h
      split at h
      · next hpc =>
          split at h
          · next hactive => cases h; exact .stopped hpc hactive
          · next hactive =>
              cases h
              exact .stopLate hpc (Bool.eq_false_of_not_eq_true hactive)
      · exact nomatch h
  | receiveTimer =>
      simp only [routerStep] at h
      split at h
      · next hpc =>
          split at h
          · cases h; exact .cleaned hpc
          · exact nomatch h
      · exact nomatch h
  | closeNext =>
      simp only [routerStep] at h
      split at h
      · next hpc =>
          split at h
          · next hch => cases h; exact .closedAll hpc hch
          · next ch hch =>
              split at h
              · next hclose => cases h; exact .closedOne hpc hch hclose
              · next hclose =>
                  cases h
                  refine .closePanic hpc hch ?_
                  cases hc : ch.close with
                  | ok ch' => exact absurd hc (hclose ch')
                  | blocked => exact absurd hc (by unfold Chan.close; split <;> simp)
                  | panic => rfl
      · exact nomatch h

/-! ## Accounting for messages -/

/-- The message the router is busy with. -/
def inHand : Pc M → List M
  | .routing msg _ => [msg]
  | .sending msg _ => [msg]
  | .congested msg _ _ => [msg]
  | .blocking msg _ _ => [msg]
  | _ => []

/-- The messages whose fate was to be put on a channel, in order. -/
def putsTo (c : Nat) (fates : List (M × Fate)) : List M :=
  fates.filterMap (fun f => if f.2 = .put c then some f.1 else none)

/-- Whether the router has closed a channel. -/
def closedAt : Pc M → Nat → Bool
  | .closing next, c => decide (c < next)
  | .returned, _ => true
  | _, _ => false

theorem inHand_backFrom (s : RouterState M) : inHand (backFrom s) = [] := by
  unfold backFrom
  cases s.left <;> rfl

theorem closedAt_backFrom (s : RouterState M) (c : Nat) : closedAt (backFrom s) c = false := by
  unfold backFrom
  cases s.left <;> rfl

theorem putsTo_dropped (msg : M) : putsTo c (fates ++ [(msg, .dropped)]) = putsTo c fates := by
  simp [putsTo]

theorem putsTo_put_self (msg : M) :
    putsTo c (fates ++ [(msg, .put c)]) = putsTo c fates ++ [msg] := by
  simp [putsTo]

theorem putsTo_put_ne {c c' : Nat} (h : c ≠ c') (fates : List (M × Fate)) (msg : M) :
    putsTo c (fates ++ [(msg, .put c')]) = putsTo c fates := by
  simp [putsTo, Ne.symm h]

/-- Every channel carried the messages put on it, in the order they were taken,
    and was closed once if the router has closed it. -/
def Carried (s : RouterState M) : Prop :=
  ∀ (c : Nat) (ch : Chan M), s.dataChansOut[c]? = some ch →
    ch.Carries (putsTo c s.fates) (closedAt s.pc c)

/-- A move that touches neither the output channels nor the fates nor what is
    closed. -/
theorem Carried.quiet (hi : Carried s) (hout : t.dataChansOut = s.dataChansOut)
    (hfates : t.fates = s.fates) (hclosed : ∀ c, closedAt t.pc c = closedAt s.pc c) :
    Carried t := by
  intro c ch hch
  rw [hout] at hch
  rw [hfates, hclosed]
  exact hi c ch hch

/-- The channel of a pending send is open. -/
theorem Carried.send_ne_panic {s : RouterState M} (hi : Carried s) {msg : M} {c : Nat}
    (hpc : s.pc = .sending msg c ∨ ∃ i, s.pc = .blocking msg i c) {ch : Chan M}
    (hch : s.dataChansOut[c]? = some ch) (receiver : Bool) : ch.send msg receiver ≠ .panic := by
  have hopen : closedAt s.pc c = false := by
    rcases hpc with hpc | ⟨i, hpc⟩ <;> rw [hpc] <;> rfl
  have hcarries := hi c ch hch
  rw [hopen] at hcarries
  exact hcarries.send_ne_panic msg receiver

/-- The next channel to close is still open. -/
theorem Carried.close_ok (hi : Carried s) {j : Nat} (hpc : s.pc = .closing j) {ch : Chan M}
    (hch : s.dataChansOut[j]? = some ch) :
    ∃ ch', ch.close = .ok ch' ∧ ch'.Carries (putsTo j s.fates) true := by
  have hj := hi j ch hch
  rw [hpc, closedAt, decide_eq_false (Nat.lt_irrefl j)] at hj
  exact hj.close

theorem carried_step (h : Moves s a t) (hi : Carried s) : Carried t := by
  cases h with
  | produced _ => exact hi
  | expired _ => exact hi
  | @worked c ch ch' msg hch hrecv =>
      -- receiving changes no history
      intro c' y hy
      rcases getElem?_set_cases hy with ⟨rfl, rfl⟩ | ⟨-, hold⟩
      · have hc := hi c' ch hch
        unfold Chan.Carries at hc ⊢
        rw [(Chan.recv_spec hrecv).1]
        exact hc
      · exact hi c' y hold
  | setUp hpc => exact hi.quiet rfl rfl (fun c => by rw [hpc]; rfl)
  | took hpc => exact hi.quiet rfl rfl (fun c => by rw [hpc]; rfl)
  | shutDown hpc => exact hi.quiet rfl rfl (fun c => by rw [hpc]; rfl)
  | readLen hpc => exact hi.quiet rfl rfl (fun c => by rw [hpc]; rfl)
  | drainedAll hpc _ =>
      refine hi.quiet rfl rfl ?_
      intro c
      rw [hpc]
      simp [closedAt]
  | drainedOne hpc _ _ => exact hi.quiet rfl rfl (fun c => by rw [hpc]; rfl)
  | roomy hpc _ _ => exact hi.quiet rfl rfl (fun c => by rw [hpc]; rfl)
  | full hpc => exact hi.quiet rfl rfl (fun c => by rw [hpc]; rfl)
  | @sent _ msg c ch ch' receiver after hpc hch hsend =>
      have hopen : ∀ c, closedAt s.pc c = false ∧ closedAt after c = false := by
        intro c
        rcases hpc with ⟨hpc, rfl⟩ | ⟨⟨i, hpc⟩, rfl⟩
        · exact ⟨by rw [hpc]; rfl, closedAt_backFrom s c⟩
        · exact ⟨by rw [hpc]; rfl, rfl⟩
      intro c' y hy
      rw [(hopen c').2]
      rcases getElem?_set_cases hy with ⟨rfl, rfl⟩ | ⟨hne, hold⟩
      · have hc := hi c' ch hch
        rw [(hopen c').1] at hc
        rw [putsTo_put_self]
        exact hc.send hsend
      · have hc := hi c' y hold
        rw [(hopen c').1] at hc
        rw [putsTo_put_ne hne]
        exact hc
  | sendPanic hpc _ _ =>
      rcases hpc with hpc | ⟨i, hpc⟩
      · exact hi.quiet rfl rfl (fun c => by rw [hpc]; rfl)
      · exact hi.quiet rfl rfl (fun c => by rw [hpc]; rfl)
  | dropped hpc =>
      intro c ch hch
      have hc := hi c ch hch
      rw [hpc] at hc
      rw [closedAt_backFrom, putsTo_dropped]
      exact hc
  | block hpc => exact hi.quiet rfl rfl (fun c => by rw [hpc]; rfl)
  | again hpc => exact hi.quiet rfl rfl (fun c => by rw [hpc]; rfl)
  | timedOut hpc => exact hi.quiet rfl rfl (fun c => by rw [hpc]; rfl)
  | stopped hpc _ => exact hi.quiet rfl rfl (fun c => by rw [closedAt_backFrom, hpc]; rfl)
  | stopLate hpc _ => exact hi.quiet rfl rfl (fun c => by rw [hpc]; rfl)
  | cleaned hpc => exact hi.quiet rfl rfl (fun c => by rw [closedAt_backFrom, hpc]; rfl)
  | @closedOne j ch ch' hpc hch hclose =>
      obtain ⟨ch'', hclose', hcarries⟩ := hi.close_ok hpc hch
      rw [hclose'] at hclose
      cases hclose
      intro c' y hy
      rcases getElem?_set_cases hy with ⟨rfl, rfl⟩ | ⟨hne, hold⟩
      · rw [closedAt, decide_eq_true (Nat.lt_succ_self c')]
        exact hcarries
      · have hc := hi c' y hold
        rw [hpc] at hc
        have hsame : closedAt (.closing (j + 1) : Pc M) c' = closedAt (.closing j : Pc M) c' := by
          simp only [closedAt, decide_eq_decide]
          omega
        rw [hsame]
        exact hc
  | @closePanic j ch hpc hch hclose =>
      obtain ⟨ch'', hclose', -⟩ := hi.close_ok hpc hch
      rw [hclose'] at hclose
      exact nomatch hclose
  | @closedAll j hpc hnone =>
      intro c ch hch
      have hc := hi c ch hch
      have hlt : c < j := by
        have hlen : c < s.dataChansOut.length := (List.getElem?_eq_some_iff.mp hch).1
        have hout : s.dataChansOut.length ≤ j := List.getElem?_eq_none_iff.mp hnone
        omega
      rw [hpc, closedAt, decide_eq_true hlt] at hc
      exact hc

/-- No send and no close of the router panics. -/
theorem running_step (h : Moves s a t) (hi : Carried s) (hr : s.pc ≠ .crashed) :
    t.pc ≠ .crashed := by
  have hback : backFrom s ≠ .crashed := by
    unfold backFrom
    cases s.left <;> exact fun h => nomatch h
  cases h with
  | produced _ => exact hr
  | worked _ _ => exact hr
  | expired _ => exact hr
  | @sent _ msg c ch ch' receiver after hpc hch hsend =>
      rcases hpc with ⟨-, rfl⟩ | ⟨-, rfl⟩
      · exact hback
      · exact fun h => nomatch h
  | @sendPanic _ msg c ch receiver hpc hch hsend =>
      exact absurd hsend (hi.send_ne_panic hpc hch receiver)
  | dropped _ => exact hback
  | stopped _ _ => exact hback
  | cleaned _ => exact hback
  | @closePanic j ch hpc hch hclose =>
      obtain ⟨ch'', hclose', -⟩ := hi.close_ok hpc hch
      rw [hclose'] at hclose
      exact nomatch hclose
  | _ => exact fun h => nomatch h

/-- Every message taken has its fate, but for the one in hand. -/
def Accounted (s : RouterState M) : Prop :=
  s.taken = s.fates.map Prod.fst ++ inHand s.pc

/-- A move that takes no message and completes none. -/
theorem Accounted.quiet (hi : Accounted s) (htaken : t.taken = s.taken) (hfates : t.fates = s.fates)
    (hhand : inHand t.pc = inHand s.pc) : Accounted t := by
  unfold Accounted at hi ⊢
  rw [htaken, hfates, hhand]
  exact hi

/-- A move that completes the message in hand. -/
theorem Accounted.done (hi : Accounted s) {fate : Fate} (htaken : t.taken = s.taken)
    (hfates : t.fates = s.fates ++ [(msg, fate)]) (hhand : inHand s.pc = [msg])
    (hhand' : inHand t.pc = []) : Accounted t := by
  unfold Accounted at hi ⊢
  rw [htaken, hfates, hi, hhand, hhand', List.map_append, List.append_nil]
  rfl

/-- A move that takes a message with none in hand. -/
theorem Accounted.take (hi : Accounted s) (htaken : t.taken = s.taken ++ [msg])
    (hfates : t.fates = s.fates) (hhand : inHand s.pc = []) (hhand' : inHand t.pc = [msg]) :
    Accounted t := by
  unfold Accounted at hi ⊢
  rw [htaken, hfates, hi, hhand, hhand', List.append_nil]

theorem accounted_step (h : Moves s a t) (hc : Carried s) (hi : Accounted s) : Accounted t := by
  cases h with
  | produced _ => exact hi
  | worked _ _ => exact hi
  | expired _ => exact hi
  | setUp hpc => exact hi.quiet rfl rfl (by rw [hpc]; rfl)
  | took hpc => exact hi.take rfl rfl (by rw [hpc]; rfl) rfl
  | shutDown hpc => exact hi.quiet rfl rfl (by rw [hpc]; rfl)
  | readLen hpc => exact hi.quiet rfl rfl (by rw [hpc]; rfl)
  | drainedAll hpc _ => exact hi.quiet rfl rfl (by rw [hpc]; rfl)
  | drainedOne hpc _ _ => exact hi.take rfl rfl (by rw [hpc]; rfl) rfl
  | roomy hpc _ _ => exact hi.quiet rfl rfl (by rw [hpc]; rfl)
  | full hpc => exact hi.quiet rfl rfl (by rw [hpc]; rfl)
  | sent hpc _ _ =>
      rcases hpc with ⟨hpc, rfl⟩ | ⟨⟨i, hpc⟩, rfl⟩
      · exact hi.done rfl rfl (by rw [hpc]; rfl) (inHand_backFrom s)
      · exact hi.done rfl rfl (by rw [hpc]; rfl) rfl
  | @sendPanic _ msg c ch receiver hpc hch hsend =>
      exact absurd hsend (hc.send_ne_panic hpc hch receiver)
  | dropped hpc => exact hi.done rfl rfl (by rw [hpc]; rfl) (inHand_backFrom s)
  | block hpc => exact hi.quiet rfl rfl (by rw [hpc]; rfl)
  | again hpc => exact hi.quiet rfl rfl (by rw [hpc]; rfl)
  | timedOut hpc => exact hi.quiet rfl rfl (by rw [hpc]; rfl)
  | stopped hpc _ => exact hi.quiet rfl rfl (by rw [hpc, inHand_backFrom]; rfl)
  | stopLate hpc _ => exact hi.quiet rfl rfl (by rw [hpc]; rfl)
  | cleaned hpc => exact hi.quiet rfl rfl (by rw [hpc, inHand_backFrom]; rfl)
  | closedOne hpc _ _ => exact hi.quiet rfl rfl (by rw [hpc]; rfl)
  | closePanic hpc _ _ => exact hi.quiet rfl rfl (by rw [hpc]; rfl)
  | closedAll hpc _ => exact hi.quiet rfl rfl (by rw [hpc]; rfl)

/-! ## The guarded send -/

/-- Once the router has seen room on a channel, the room stays until it
    sends: workers only make more. -/
def RoomKept (s : RouterState M) : Prop :=
  ∀ (msg : M) (c : Nat), s.pc = .sending msg c →
    ∃ ch, s.dataChansOut[c]? = some ch ∧ ch.hasRoom = true

theorem backFrom_ne_sending (s : RouterState M) (msg : M) (c : Nat) :
    backFrom s ≠ .sending msg c := by
  unfold backFrom
  cases s.left <;> exact fun h => nomatch h

theorem roomKept_step (h : Moves s a t) (hi : RoomKept s) : RoomKept t := by
  intro msg c hpc
  cases h with
  | produced _ => exact hi msg c hpc
  | expired _ => exact hi msg c hpc
  | @worked c' ch ch' _ hch hrecv =>
      obtain ⟨y, hy, hroom⟩ := hi msg c hpc
      by_cases hc : c' = c
      · subst hc
        rw [hch] at hy
        cases hy
        have hlen : c' < s.dataChansOut.length := (List.getElem?_eq_some_iff.mp hch).1
        exact ⟨ch', List.getElem?_set_self hlen, Chan.hasRoom_recv hrecv hroom⟩
      · exact ⟨y, by rw [List.getElem?_set_ne hc]; exact hy, hroom⟩
  | @roomy msg' i c' ch _ hch hroom =>
      cases hpc
      exact ⟨ch, hch, hroom⟩
  | sent hfrom _ _ =>
      rcases hfrom with ⟨-, rfl⟩ | ⟨-, rfl⟩
      · exact absurd hpc (backFrom_ne_sending s msg c)
      · exact nomatch hpc
  | dropped _ => exact absurd hpc (backFrom_ne_sending s msg c)
  | stopped _ _ => exact absurd hpc (backFrom_ne_sending s msg c)
  | cleaned _ => exact absurd hpc (backFrom_ne_sending s msg c)
  | _ => exact nomatch hpc

/-! ## The timer -/

/-- A blocking send runs with the timer armed or expired, so that cleaning the
    timer up never waits for an expiry that will not come. -/
def TimerReady : Pc M → Timer → Prop
  | .blocking _ _ _, timer => timer.active = true ∨ timer.fired = true
  | .stopping, timer => timer.active = true ∨ timer.fired = true
  | .awaitingTimer, timer => timer.fired = true
  | _, _ => True

theorem timerReady_backFrom (s : RouterState M) (timer : Timer) :
    TimerReady (backFrom s) timer := by
  unfold backFrom
  cases s.left <;> trivial

theorem timerReady_step (h : Moves s a t) (hi : TimerReady s.pc s.timer) :
    TimerReady t.pc t.timer := by
  cases h with
  | produced _ => exact hi
  | worked _ _ => exact hi
  | expired _ =>
      cases hpc : s.pc with
      | blocking _ _ _ => exact Or.inr rfl
      | stopping => exact Or.inr rfl
      | awaitingTimer => rfl
      | _ => trivial
  | sent hfrom _ _ =>
      rcases hfrom with ⟨-, rfl⟩ | ⟨⟨i, hpc⟩, rfl⟩
      · exact timerReady_backFrom s _
      · rw [hpc] at hi
        exact hi
  | dropped _ => exact timerReady_backFrom s _
  | stopped _ _ => exact timerReady_backFrom s _
  | cleaned _ => exact timerReady_backFrom s _
  | block _ => exact Or.inl rfl
  | stopLate hpc hidle =>
      rw [hpc] at hi
      rcases hi with hactive | hfired
      · rw [hidle] at hactive
        exact nomatch hactive
      · exact hfired
  | _ => trivial

/-! ## Draining -/

/-- Which loop the router can be in, by its drain count. -/
def PhaseOk : Pc M → Option Nat → Prop
  | .starting, left => left = none
  | .selecting, left => left = none
  | .readingLen, left => left = none
  | .draining, left => left.isSome = true
  | .closing _, left => left = some 0
  | .returned, left => left = some 0
  | _, _ => True

/-- How far the drain has come: of the messages buffered when its length was
    read, some are taken and the others are next in the input channel. -/
def DrainOk (s : RouterState M) : Prop :=
  match s.left with
  | none => True
  | some n => ∃ before done todo extra,
      s.snapshot = some (before, done ++ todo) ∧ todo.length = n ∧
      s.taken = before ++ done ∧ s.dataChanIn.buf = todo ++ extra

theorem phaseOk_backFrom (s : RouterState M) : PhaseOk (backFrom s) s.left := by
  unfold backFrom
  cases hleft : s.left <;> rfl

theorem phaseOk_step (h : Moves s a t) (hi : PhaseOk s.pc s.left) : PhaseOk t.pc t.left := by
  cases h with
  | produced _ => exact hi
  | worked _ _ => exact hi
  | expired _ => exact hi
  | setUp hpc => rw [hpc] at hi; exact hi
  | took _ => trivial
  | shutDown hpc => rw [hpc] at hi; exact hi
  | readLen _ => rfl
  | drainedAll _ hleft => exact hleft
  | drainedOne _ _ _ => trivial
  | roomy _ _ _ => trivial
  | full _ => trivial
  | sent hfrom _ _ =>
      rcases hfrom with ⟨-, rfl⟩ | ⟨-, rfl⟩
      · exact phaseOk_backFrom s
      · trivial
  | sendPanic _ _ _ => trivial
  | dropped _ => exact phaseOk_backFrom s
  | block _ => trivial
  | again _ => trivial
  | timedOut _ => trivial
  | stopped _ _ => exact phaseOk_backFrom s
  | stopLate _ _ => trivial
  | cleaned _ => exact phaseOk_backFrom s
  | closedOne hpc _ _ => rw [hpc] at hi; exact hi
  | closePanic _ _ _ => trivial
  | closedAll hpc _ => rw [hpc] at hi; exact hi

/-- A move that leaves the input side alone. -/
theorem DrainOk.quiet (hi : DrainOk s) (hleft : t.left = s.left)
    (hsnapshot : t.snapshot = s.snapshot) (htaken : t.taken = s.taken)
    (hin : t.dataChanIn = s.dataChanIn) : DrainOk t := by
  unfold DrainOk at hi ⊢
  rw [hleft, hsnapshot, htaken, hin]
  exact hi

theorem drainOk_step (h : Moves s a t) (hp : PhaseOk s.pc s.left) (hi : DrainOk s) : DrainOk t := by
  cases h with
  | @produced msg ch hsend =>
      -- what is produced meanwhile queues up behind
      unfold DrainOk at hi ⊢
      simp only
      split
      · trivial
      · next n hleft =>
          rw [hleft] at hi
          obtain ⟨before, done, todo, extra, hsnap, hlen, htaken, hbuf⟩ := hi
          refine ⟨before, done, todo, extra ++ [msg], hsnap, hlen, htaken, ?_⟩
          rw [Chan.send_buffered hsend, hbuf, List.append_assoc]
  | took hpc =>
      rw [hpc] at hp
      have hleft : s.left = none := hp
      unfold DrainOk
      simp only [hleft]
  | readLen _ => exact ⟨s.taken, [], s.dataChanIn.buf, [], rfl, rfl, (List.append_nil _).symm,
      (List.append_nil _).symm⟩
  | @drainedOne n msg ch _ hleft hrecv =>
      unfold DrainOk at hi
      rw [hleft] at hi
      obtain ⟨before, done, todo, extra, hsnap, hlen, htaken, hbuf⟩ := hi
      cases todo with
      | nil => exact nomatch hlen
      | cons x todo =>
          obtain ⟨-, -, hbuf'⟩ := Chan.recv_spec hrecv
          rw [hbuf, List.cons_append] at hbuf'
          injection hbuf' with hx hrest
          subst hx
          refine ⟨before, done ++ [x], todo, extra, ?_, Nat.succ.inj hlen, ?_, hrest.symm⟩
          · rw [List.append_assoc]
            exact hsnap
          · show s.taken ++ [x] = before ++ (done ++ [x])
            rw [htaken, List.append_assoc]
  | _ => exact hi.quiet rfl rfl rfl rfl

/-! ## Every run -/

/-- A message is only put on a channel that is there. -/
def Destined (s : RouterState M) : Prop :=
  ∀ (msg : M) (c : Nat), (msg, Fate.put c) ∈ s.fates → c < s.dataChansOut.length

theorem destined_step (h : Moves s a t) (hi : Destined s) : Destined t := by
  cases h with
  | worked _ _ =>
      intro msg c hm
      rw [List.length_set]
      exact hi msg c hm
  | @sent _ msg' c' ch ch' _ _ _ hch _ =>
      intro msg c hm
      rw [List.length_set]
      rcases List.mem_append.mp hm with hm | hm
      · exact hi msg c hm
      · cases List.mem_singleton.mp hm
        exact (List.getElem?_eq_some_iff.mp hch).1
  | @dropped msg' i c' _ =>
      intro msg c hm
      rcases List.mem_append.mp hm with hm | hm
      · exact hi msg c hm
      · exact nomatch List.mem_singleton.mp hm
  | closedOne _ _ _ =>
      intro msg c hm
      rw [List.length_set]
      exact hi msg c hm
  | _ => exact hi

/-- What a step does to the fates, and when it drops. -/
theorem fates_step (h : Moves s a t) :
    t.fates = s.fates ∨ (∃ msg c, t.fates = s.fates ++ [(msg, .put c)]) ∨
      a = .answer .drop := by
  cases h with
  | sent _ _ _ => exact Or.inr (Or.inl ⟨_, _, rfl⟩)
  | dropped _ => exact Or.inr (Or.inr rfl)
  | _ => exact Or.inl rfl

/-- The invariant of the router. -/
structure RouterInv (s : RouterState M) : Prop where
  carried : Carried s
  running : s.pc ≠ .crashed
  accounted : Accounted s
  destined : Destined s
  roomKept : RoomKept s
  timerReady : TimerReady s.pc s.timer
  phase : PhaseOk s.pc s.left
  drain : DrainOk s

theorem routerInv_step (h : routerStep s a = some t) (hi : RouterInv s) : RouterInv t := by
  have hm := moves_of_step h
  exact ⟨carried_step hm hi.carried, running_step hm hi.carried hi.running,
    accounted_step hm hi.carried hi.accounted, destined_step hm hi.destined,
    roomKept_step hm hi.roomKept, timerReady_step hm hi.timerReady,
    phaseOk_step hm hi.phase, drainOk_step hm hi.phase hi.drain⟩

theorem routerInv_init (capIn : Nat) (capsOut : List Nat) :
    RouterInv (router capIn capsOut : System (RouterState M) (RouterLabel M)).init := by
  refine ⟨?_, fun h => (nomatch h), rfl, fun _ _ h => (nomatch h),
    fun _ _ h => (nomatch h), trivial, rfl, trivial⟩
  intro c ch hch
  obtain ⟨cap, -, rfl⟩ := List.mem_map.mp (List.mem_of_getElem? hch)
  exact Chan.carries_make cap

/-- What the router guarantees in a state: nothing it does panics; every
    message taken was put on exactly one channel exactly once, or dropped, or
    is in hand; each channel carried what was put on it in the order taken, was
    closed at most once and carried nothing after; the guarded send goes
    through; the receives of the drain find their message; once channels are
    being closed, everything buffered when the drain length was read has met
    its fate; cleaning up the timer does not wait; and only the answer DROP
    drops. -/
structure RouterSafe (s : RouterState M) : Prop where
  running : s.pc ≠ .crashed
  accounted : s.taken = s.fates.map Prod.fst ++ inHand s.pc
  destined : ∀ (msg : M) (c : Nat), (msg, Fate.put c) ∈ s.fates → c < s.dataChansOut.length
  carried : ∀ (c : Nat) (ch : Chan M), s.dataChansOut[c]? = some ch →
    ch.Carries (putsTo c s.fates) (closedAt s.pc c)
  guarded : ∀ (msg : M) (c : Nat), s.pc = .sending msg c →
    ∃ ch ch', s.dataChansOut[c]? = some ch ∧ ch.send msg false = .ok ch'
  drainable : ∀ n, s.pc = .draining → s.left = some (n + 1) → s.dataChanIn.recv.isSome
  drained : (∃ next, s.pc = .closing next) ∨ s.pc = .returned →
    ∃ before buffered, s.snapshot = some (before, buffered) ∧
      s.fates.map Prod.fst = before ++ buffered
  cleanUp : s.pc = .awaitingTimer → s.timer.fired = true
  answered : ∀ a t, routerStep s a = some t → ∀ msg,
    t.fates = s.fates ++ [(msg, .dropped)] → a = .answer .drop

theorem RouterInv.safe (hi : RouterInv s) : RouterSafe s where
  running := hi.running
  accounted := hi.accounted
  destined := hi.destined
  carried := hi.carried
  guarded := by
    intro msg c hpc
    obtain ⟨ch, hch, hroom⟩ := hi.roomKept msg c hpc
    have hcarries := hi.carried c ch hch
    rw [hpc] at hcarries
    exact ⟨ch, ch.put msg, hch, Chan.send_eq_put hcarries.isClosed hroom msg false⟩
  drainable := by
    intro n _ hleft
    have hd := hi.drain
    unfold DrainOk at hd
    rw [hleft] at hd
    obtain ⟨before, done, todo, extra, -, hlen, -, hbuf⟩ := hd
    cases todo with
    | nil => cases hlen
    | cons x todo =>
        rw [Chan.recv, hbuf]
        rfl
  drained := by
    intro hpc
    have hleft : s.left = some 0 := by
      have hp := hi.phase
      rcases hpc with ⟨next, hpc⟩ | hpc
      · rw [hpc] at hp
        exact hp
      · rw [hpc] at hp
        exact hp
    have hhand : inHand s.pc = [] := by
      rcases hpc with ⟨next, hpc⟩ | hpc <;> rw [hpc] <;> rfl
    have hacc := hi.accounted
    have hd := hi.drain
    unfold DrainOk at hd
    rw [hleft] at hd
    obtain ⟨before, done, todo, extra, hsnap, hlen, htaken, -⟩ := hd
    obtain rfl := List.length_eq_zero_iff.mp hlen
    rw [List.append_nil] at hsnap
    refine ⟨before, done, hsnap, ?_⟩
    rw [Accounted, hhand, List.append_nil] at hacc
    rw [← hacc, htaken]
  cleanUp := by
    intro hpc
    have ht := hi.timerReady
    rw [hpc] at ht
    exact ht
  answered := by
    intro a t hstep msg hdrop
    rcases fates_step (moves_of_step hstep) with hsame | ⟨m, c, hput⟩ | hanswer
    · rw [hsame] at hdrop
      exact absurd (congrArg List.length hdrop) (by simp)
    · rw [hput] at hdrop
      exact absurd (List.append_cancel_left hdrop) (by simp)
    · exact hanswer

/-- **THE ROUTER NEITHER LOSES NOR DUPLICATES**: whatever the capacities, the
    routes, the answers of the policy and the interleaving. -/
theorem router_safe (capIn : Nat) (capsOut : List Nat) (s : RouterState M)
    (h : Reach (router capIn capsOut) anyStep s) : RouterSafe s :=
  (h.invariant (routerInv_init capIn capsOut)
    (fun _ _ _ hi _ hstep => routerInv_step hstep hi)).safe

/-- One worker of capacity one: the second message waits for the worker while
    the router drains. -/
def shutdownRun : List (RouterLabel Nat) :=
  [.setup false, .produce 7, .produce 8, .take, .route 0, .send, .shutdown, .readLen,
    .drainNext, .route 0, .answer .sendAndBlock, .work 0, .ship false, .expire, .stopTimer,
    .receiveTimer, .drainNext, .closeNext, .closeNext]

theorem router_safe_shutdown :
    ∃ s, exec (router 2 [1]) (router 2 [1]).init shutdownRun = some s ∧
      s.fates = [(7, .put 0), (8, .put 0)] ∧ closedAt s.pc 0 = true ∧ RouterSafe s :=
  ⟨_, rfl, rfl, rfl, router_safe 2 [1] _ (reach_exec shutdownRun (fun _ _ _ => trivial) .init rfl)⟩

end PipelineMessageRouter
