import Mathlib.Tactic

/-! # Go channels

    A channel is its capacity, what is buffered in it, and its history: `log`
    has an entry for every send and for every close, in order, and `rcvd` what
    the receivers took.  Sending on a closed channel and closing one twice are
    panics; a send that cannot go through blocks.

    The order, the multiplicity and the closing of what went through a channel
    are all statements about its log (`Carries`). -/

namespace GoChan

variable {M : Type}

/-- A channel with its history; `none` in the log is a close. -/
structure Chan (M : Type) where
  cap : Nat
  buf : List M
  log : List (Option M)
  rcvd : List M

/-- What an operation on a channel comes to. -/
inductive Outcome (α : Type) where
  | ok (a : α)
  | blocked
  | panic

namespace Chan

variable {m : M} {c c' : Chan M} {receiver : Bool} {msgs : List M} (cap : Nat)

/-- `make(chan M, cap)`. -/
def make (cap : Nat) : Chan M := ⟨cap, [], [], []⟩

/-- Whether the channel has been closed. -/
def isClosed (c : Chan M) : Bool := c.log.any Option.isNone

/-- `len(c) < cap(c)`. -/
def hasRoom (c : Chan M) : Bool := decide (c.buf.length < c.cap)

/-- A send into the buffer. -/
def put (c : Chan M) (m : M) : Chan M :=
  { c with buf := c.buf ++ [m], log := c.log ++ [some m] }

/-- A send straight to a waiting receiver. -/
def handOver (c : Chan M) (m : M) : Chan M :=
  { c with log := c.log ++ [some m], rcvd := c.rcvd ++ [m] }

/-- `c <- m`; an unbuffered channel needs a receiver that waits. -/
def send (c : Chan M) (m : M) (receiver : Bool) : Outcome (Chan M) :=
  if c.isClosed then .panic
  else if c.hasRoom then .ok (c.put m)
  else if c.cap = 0 ∧ receiver = true then .ok (c.handOver m)
  else .blocked

/-- `<-c`, from the buffer. -/
def recv (c : Chan M) : Option (M × Chan M) :=
  match c.buf with
  | [] => none
  | m :: rest => some (m, { c with buf := rest, rcvd := c.rcvd ++ [m] })

/-- `close(c)`. -/
def close (c : Chan M) : Outcome (Chan M) :=
  if c.isClosed then .panic else .ok { c with log := c.log ++ [none] }

/-- The channel carried exactly these messages, in this order, and was then
    closed once, or is still open. -/
def Carries (c : Chan M) (msgs : List M) (closed : Bool) : Prop :=
  c.log = msgs.map some ++ (if closed then [none] else [])

theorem carries_make : (make cap : Chan M).Carries [] false := rfl

theorem Carries.isClosed {c : Chan M} {msgs : List M} {closed : Bool}
    (h : c.Carries msgs closed) : c.isClosed = closed := by
  rw [Chan.isClosed, h, List.any_append]
  cases closed <;> simp

/-- A send that goes through goes through an open channel, into the buffer or
    to a waiting receiver. -/
theorem send_cases (hs : c.send m receiver = .ok c') :
    c.isClosed = false ∧ ((c.hasRoom = true ∧ c' = c.put m) ∨
      (c.hasRoom = false ∧ c.cap = 0 ∧ receiver = true ∧ c' = c.handOver m)) := by
  unfold Chan.send at hs
  split at hs
  · cases hs
  · next hopen =>
      refine ⟨Bool.eq_false_iff.mpr hopen, ?_⟩
      split at hs
      · next hroom =>
          cases hs
          exact Or.inl ⟨hroom, rfl⟩
      · next hroom =>
          split at hs
          · next hwait =>
              cases hs
              exact Or.inr ⟨Bool.eq_false_iff.mpr hroom, hwait.1, hwait.2, rfl⟩
          · cases hs

/-- A send is one more entry of the log. -/
theorem send_log (hs : c.send m receiver = .ok c') : c'.log = c.log ++ [some m] := by
  rcases (send_cases hs).2 with ⟨-, rfl⟩ | ⟨-, -, -, rfl⟩ <;> rfl

theorem send_cap (hs : c.send m receiver = .ok c') : c'.cap = c.cap := by
  rcases (send_cases hs).2 with ⟨-, rfl⟩ | ⟨-, -, -, rfl⟩ <;> rfl

/-- **A SEND ADDS ONE MESSAGE** at the end of what an open channel carries. -/
theorem Carries.send (h : c.Carries msgs false) (hs : c.send m receiver = .ok c') :
    c'.Carries (msgs ++ [m]) false := by
  rw [Carries, send_log hs, h]
  simp

/-- A send without a waiting receiver goes into the buffer. -/
theorem send_buffered (h : c.send m false = .ok c') : c'.buf = c.buf ++ [m] := by
  rcases (send_cases h).2 with ⟨-, rfl⟩ | ⟨-, -, hwait, -⟩
  · rfl
  · exact absurd hwait Bool.false_ne_true

/-- An open channel with room takes the message into its buffer. -/
theorem send_eq_put (hopen : c.isClosed = false) (hroom : c.hasRoom = true) (m : M)
    (receiver : Bool) : c.send m receiver = .ok (c.put m) := by
  rw [Chan.send, hopen, if_neg Bool.false_ne_true, if_pos hroom]

/-- A send where there is room goes into the buffer of an open channel. -/
theorem send_of_room (hroom : c.hasRoom = true) (hs : c.send m receiver = .ok c') :
    c.isClosed = false ∧ c' = c.put m := by
  obtain ⟨hopen, ⟨-, rfl⟩ | ⟨hfull, -⟩⟩ := send_cases hs
  · exact ⟨hopen, rfl⟩
  · exact absurd hroom (Bool.eq_false_iff.mp hfull)

/-- An open channel does not panic on a send. -/
theorem Carries.send_ne_panic (h : c.Carries msgs false) (m : M) (receiver : Bool) :
    c.send m receiver ≠ .panic := by
  unfold Chan.send
  rw [h.isClosed, if_neg Bool.false_ne_true]
  split
  · exact fun hp => nomatch hp
  · split <;> exact fun hp => nomatch hp

/-- A close leaves the buffer alone, and happens to an open channel only. -/
theorem close_spec (h : c.close = .ok c') : c'.buf = c.buf ∧ c.isClosed = false := by
  unfold Chan.close at h
  split at h
  · cases h
  · next hopen =>
      cases h
      exact ⟨rfl, Bool.eq_false_iff.mpr hopen⟩

/-- An open channel can be closed. -/
theorem Carries.close {c : Chan M} {msgs : List M} (h : c.Carries msgs false) :
    ∃ c', c.close = .ok c' ∧ c'.Carries msgs true := by
  refine ⟨{ c with log := c.log ++ [none] }, ?_, ?_⟩
  · rw [Chan.close, h.isClosed, if_neg Bool.false_ne_true]
  · rw [Carries, h]
    simp

/-- A receive leaves the history of sends alone, and makes room. -/
theorem recv_spec (h : c.recv = some (m, c')) :
    c'.log = c.log ∧ c'.cap = c.cap ∧ c.buf = m :: c'.buf := by
  unfold recv at h
  split at h
  · exact nomatch h
  · next hbuf =>
      cases h
      exact ⟨rfl, rfl, hbuf⟩

theorem Carries.recv {closed : Bool} (h : c.Carries msgs closed) (hr : c.recv = some (m, c')) :
    c'.Carries msgs closed := by
  rw [Carries, (recv_spec hr).1]
  exact h

theorem hasRoom_recv (h : c.recv = some (m, c')) (hroom : c.hasRoom = true) :
    c'.hasRoom = true := by
  obtain ⟨-, hcap, hbuf⟩ := recv_spec h
  rw [hasRoom, decide_eq_true_iff, hbuf, List.length_cons] at hroom
  rw [hasRoom, decide_eq_true_iff, hcap]
  omega

theorem send_le_cap (h : c.buf.length ≤ c.cap) (hs : c.send m receiver = .ok c') :
    c'.buf.length ≤ c'.cap := by
  rcases (send_cases hs).2 with ⟨hroom, rfl⟩ | ⟨-, -, -, rfl⟩
  · rw [hasRoom, decide_eq_true_iff] at hroom
    show (c.buf ++ [m]).length ≤ c.cap
    rw [List.length_append, List.length_singleton]
    exact hroom
  · exact h

theorem recv_le_cap (h : c.buf.length ≤ c.cap) (hr : c.recv = some (m, c')) :
    c'.buf.length ≤ c'.cap := by
  obtain ⟨-, hcap, hbuf⟩ := recv_spec hr
  rw [hbuf, List.length_cons] at h
  rw [hcap]
  omega

/-- A message for an open channel gets through, if need be after one receive. -/
theorem Carries.send_soon (h : c.Carries msgs false) (hcap : c.buf.length ≤ c.cap) (m : M) :
    (∃ c', c.send m true = .ok c') ∨
      ∃ x c₁ c', c.recv = some (x, c₁) ∧ c₁.send m true = .ok c' := by
  by_cases hroom : c.hasRoom = true
  · exact Or.inl ⟨c.put m, send_eq_put h.isClosed hroom m true⟩
  · by_cases hzero : c.cap = 0
    · refine Or.inl ⟨c.handOver m, ?_⟩
      rw [Chan.send, h.isClosed, if_neg Bool.false_ne_true, if_neg hroom,
        if_pos ⟨hzero, rfl⟩]
    · -- the channel is full, so there is something to receive
      rw [hasRoom, decide_eq_true_iff] at hroom
      cases hbuf : c.buf with
      | nil =>
          rw [hbuf, List.length_nil] at hroom
          omega
      | cons x rest =>
          rw [hbuf, List.length_cons] at hcap
          let c₁ : Chan M := { c with buf := rest, rcvd := c.rcvd ++ [x] }
          have hopen : c₁.isClosed = false := h.isClosed
          have hroom₁ : c₁.hasRoom = true := decide_eq_true hcap
          refine Or.inr ⟨x, c₁, c₁.put m, ?_, send_eq_put hopen hroom₁ m true⟩
          rw [Chan.recv, hbuf]

/-- A buffered channel, holding no more than it can. -/
def Buffered (c : Chan M) : Prop := 0 < c.cap ∧ c.buf.length ≤ c.cap

theorem buffered_make {cap : Nat} (h : 0 < cap) : (make cap : Chan M).Buffered :=
  ⟨h, Nat.zero_le _⟩

theorem Buffered.send (h : c.Buffered) (hs : c.send m receiver = .ok c') : c'.Buffered := by
  have hle := send_le_cap h.2 hs
  refine ⟨?_, hle⟩
  rw [send_cap hs]
  exact h.1

theorem Buffered.recv (h : c.Buffered) (hr : c.recv = some (m, c')) : c'.Buffered := by
  refine ⟨?_, recv_le_cap h.2 hr⟩
  rw [(recv_spec hr).2.1]
  exact h.1

/-- An open buffered channel that is not full takes a message. -/
theorem Buffered.send_ok (h : c.Buffered) (hopen : c.Carries msgs false)
    (hroom : c.cap ≠ c.buf.length) (m : M) : ∃ c', c.send m false = .ok c' := by
  have hlt : c.buf.length < c.cap := by
    have := h.2
    omega
  exact ⟨c.put m, send_eq_put hopen.isClosed (decide_eq_true hlt) m false⟩

/-- A full buffered channel can be received from, and is then no longer
    full. -/
theorem Buffered.recv_ok (h : c.Buffered) (hfull : c.cap = c.buf.length) :
    ∃ m c', c.recv = some (m, c') ∧ c'.cap ≠ c'.buf.length := by
  have hpos := h.1
  unfold Chan.recv
  cases hbuf : c.buf with
  | nil =>
      rw [hfull, hbuf] at hpos
      exact absurd hpos (Nat.lt_irrefl 0)
  | cons m rest =>
      refine ⟨m, _, rfl, ?_⟩
      show c.cap ≠ rest.length
      rw [hfull, hbuf, List.length_cons]
      exact Nat.succ_ne_self _

/-- What went into the channel was received or is buffered. -/
def Conserves (c : Chan M) : Prop := c.log.filterMap id = c.rcvd ++ c.buf

theorem conserves_make : (make cap : Chan M).Conserves := rfl

theorem Conserves.send (h : c.Conserves) (hs : c.send m false = .ok c') : c'.Conserves := by
  rcases (send_cases hs).2 with ⟨-, rfl⟩ | ⟨-, -, hwait, -⟩
  · show (c.log ++ [some m]).filterMap id = c.rcvd ++ (c.buf ++ [m])
    rw [List.filterMap_append, show c.log.filterMap id = _ from h, ← List.append_assoc]
    rfl
  · exact absurd hwait Bool.false_ne_true

theorem Conserves.recv {c c' : Chan M} {m : M} (h : c.Conserves) (hr : c.recv = some (m, c')) :
    c'.Conserves := by
  unfold Chan.recv at hr
  split at hr
  · cases hr
  · next rest hbuf =>
      cases hr
      show c.log.filterMap id = (c.rcvd ++ [m]) ++ rest
      rw [show c.log.filterMap id = _ from h, hbuf, List.append_assoc]
      rfl

theorem Conserves.close {c c' : Chan M} (h : c.Conserves) (hc : c.close = .ok c') :
    c'.Conserves ∧ c'.isClosed = true := by
  unfold Chan.close at hc
  split at hc
  · cases hc
  · cases hc
    constructor
    · show (c.log ++ [none]).filterMap id = c.rcvd ++ c.buf
      rw [List.filterMap_append, show c.log.filterMap id = _ from h]
      exact List.append_nil _
    · show (c.log ++ [none]).any Option.isNone = true
      rw [List.any_append]
      exact Bool.or_true _

/-- Of a channel that carried these messages. -/
theorem Conserves.carried (h : c.Conserves) {closed : Bool} (hc : c.Carries msgs closed) :
    msgs = c.rcvd ++ c.buf := by
  rw [← h, hc]
  cases closed <;> simp

end Chan

variable {α : Type} {c : Nat}

variable {y x : α} {l : List α} {q : α → Bool}

/-- A channel of an updated list is the new one or an old one. -/
theorem getElem?_set_cases {c' : Nat} (h : (l.set c x)[c']? = some y) :
    (c' = c ∧ y = x) ∨ (c' ≠ c ∧ l[c']? = some y) := by
  by_cases hc : c' = c
  · subst hc
    rw [List.getElem?_set_self'] at h
    obtain ⟨_, -, rfl⟩ := Option.map_eq_some_iff.mp h
    exact Or.inl ⟨rfl, rfl⟩
  · rw [List.getElem?_set_ne (Ne.symm hc)] at h
    exact Or.inr ⟨hc, h⟩

/-- What a projection sees of an updated list, if it does not see the update. -/
theorem map_set_of_eq {β : Type} {f : α → β} (h : l[c]? = some x) (hf : f y = f x) :
    (l.set c y).map f = l.map f := by
  refine List.ext_getElem? (fun j => ?_)
  rw [List.getElem?_map, List.getElem?_map]
  by_cases hj : j = c
  · rw [hj, List.getElem?_set_self', h]
    exact congrArg some hf
  · rw [List.getElem?_set_ne (Ne.symm hj)]

theorem countP_set_of_eq (h : l[c]? = some x) (hq : q y = q x) :
    (l.set c y).countP q = l.countP q := by
  have hmap : ∀ m : List α, m.countP q = (m.map q).countP id := by
    intro m
    rw [List.countP_map]
    rfl
  rw [hmap, hmap, map_set_of_eq h hq]

/-- And loses one entry to one that does not count. -/
theorem countP_set_of_drop (h : l[c]? = some x) (hx : q x = true) (hy : q y = false) :
    (l.set c y).countP q + 1 = l.countP q := by
  obtain ⟨hlt, hget⟩ := List.getElem?_eq_some_iff.mp h
  have hpos : 0 < l.countP q := List.countP_pos_iff.mpr ⟨x, List.mem_of_getElem? h, hx⟩
  rw [List.countP_set hlt, hget, if_pos hx, if_neg (by rw [hy]; exact Bool.false_ne_true)]
  omega

end GoChan
