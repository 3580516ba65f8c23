import PipelineGnmi.GoChanProofs
import PipelineGnmi.GoMapProofs
import PipelineGnmi.TransitionProofs

/-! # The clients of the gRPC output server

    Each client that pulls (`Pull` of `xport_grpc_out.go`) has a channel of its
    own, registered in a map under a running number.  The feeder goes over the
    map for every message, and leaves out the clients whose channel is full.  A
    client is taken out of the map by its own `Pull` on the way out, or by the
    server for all of them, whichever comes first; whoever does it closes the
    channel.

    Every operation on the map holds the mutex.  Adding and removing are single
    steps; feeding is not, since the clients go on receiving from their
    channels while it looks at them one after the other, in any order.

    `fed` and `drops` of a pull are kept beside the program: the messages fed
    while it was registered, and those counted as dropped on its behalf. -/

namespace PipelineGrpcOut

open GoChan Transition

variable {D : Type}

/-- Where a `Pull` is: in its select, sending to its client, on the way out, or
    past `removeChild`. -/
inductive PullPc (D : Type) where
  | selecting
  | sending (msg : D)
  | out
  | removed
  | returned

/-- A `Pull` with its `grpcOutConnToClient` and its number in the map. -/
structure Pull (D : Type) where
  endpoint : String
  dataChan : Chan D
  childId : UInt64
  pc : PullPc D
  fed : List D
  drops : Nat

/-- `feedAllChildren` in progress: the children it has yet to look at, and the
    one it found room at. -/
structure Feed (D : Type) where
  data : D
  left : List (UInt64 × Nat)
  sending : Option Nat

/-- `grpcOutLocalServer`; a client is the number of its `Pull`.  The counters
    are the peers they were incremented for. -/
structure OutServer (D : Type) where
  childrenIndex : UInt64
  children : List (UInt64 × Nat)
  childrenWG : Nat
  pulls : List (Pull D)
  feeding : Option (Feed D)
  countersDrops : List String
  countersMsgs : List String
  countersErrors : List String
  panicked : Bool

inductive OutLabel (D : Type) where
  | start (endpoint : String)
  | recv (k : Nat)
  | chanClosed (k : Nat)
  | send (k : Nat) (ok : Bool)
  | cancel (k : Nat)
  | remove (k : Nat)
  | done (k : Nat)
  | removeAll (order : List (UInt64 × Nat))
  | feed (data : D)
  | visit (e : UInt64 × Nat)
  | push
  | feedEnd

namespace OutServer

def setPull (s : OutServer D) (k : Nat) (p : Pull D) : OutServer D :=
  { s with pulls := s.pulls.set k p }

/-- `addChild`, from a `Pull` that has just made its channel. -/
def addChild (depth : Nat) (s : OutServer D) (endpoint : String) : OutServer D :=
  { s with
    childrenWG := s.childrenWG + 1
    childrenIndex := s.childrenIndex + 1
    children := GoMap.set s.children (s.childrenIndex + 1) s.pulls.length
    pulls := s.pulls ++ [⟨endpoint, Chan.make depth, s.childrenIndex + 1, .selecting, [], 0⟩] }

/-- `removeChildUnprotected`: closing a closed channel is a panic. -/
def removeChildUnprotected (s : OutServer D) (index : UInt64) : OutServer D :=
  match GoMap.get s.children index with
  | none => s
  | some k =>
      match s.pulls[k]? with
      | none => s
      | some p =>
          match p.dataChan.close with
          | .ok c => { s.setPull k { p with dataChan := c } with
              children := GoMap.del s.children index }
          | _ => { s with panicked := true }

/-- The loop of `removeAllChildren`, in the order the range takes. -/
def removeAllChildren (s : OutServer D) (order : List (UInt64 × Nat)) : OutServer D :=
  order.foldl (fun s e => s.removeChildUnprotected e.1) s

/-- The pull of every registered child is fed the message. -/
def feedPulls (s : OutServer D) (data : D) : List (Pull D) :=
  s.pulls.mapIdx (fun k p =>
    if k ∈ s.children.map Prod.snd then { p with fed := p.fed ++ [data] } else p)

end OutServer

variable {s t : OutServer D} {k : Nat} {p q : Pull D} (depth : Nat)

/-- One step of a `Pull`, of the feeder or of the server that removes all.
    While the feeder is at work it has the mutex. -/
def outStep (s : OutServer D) : OutLabel D → Option (OutServer D)
  | .start endpoint =>
      match s.feeding with
      | none => some (s.addChild depth endpoint)
      | some _ => none
  | .recv k =>
      match s.pulls[k]? with
      | some p =>
          match p.pc, p.dataChan.recv with
          | .selecting, some (msg, c) =>
              some (s.setPull k { p with pc := .sending msg, dataChan := c })
          | _, _ => none
      | none => none
  | .chanClosed k =>
      match s.pulls[k]? with
      | some p =>
          match p.pc, p.dataChan.recv with
          | .selecting, none =>
              if p.dataChan.isClosed then some (s.setPull k { p with pc := .out }) else none
          | _, _ => none
      | none => none
  | .send k ok =>
      match s.pulls[k]? with
      | some p =>
          match p.pc with
          | .sending _ =>
              if ok then some (s.setPull k { p with pc := .selecting })
              else some { s.setPull k { p with pc := .out } with
                countersErrors := s.countersErrors ++ [p.endpoint] }
          | _ => none
      | none => none
  | .cancel k =>
      match s.pulls[k]? with
      | some p =>
          match p.pc with
          | .selecting => some (s.setPull k { p with pc := .out })
          | _ => none
      | none => none
  | .remove k =>
      match s.feeding, s.pulls[k]? with
      | none, some p =>
          match p.pc with
          | .out =>
              some ((s.setPull k { p with pc := .removed }).removeChildUnprotected p.childId)
          | _ => none
      | _, _ => none
  | .done k =>
      match s.pulls[k]? with
      | some p =>
          match p.pc with
          | .removed => some { s.setPull k { p with pc := .returned } with
              childrenWG := s.childrenWG - 1
              panicked := s.panicked || decide (s.childrenWG = 0) }
          | _ => none
      | none => none
  | .removeAll order =>
      match s.feeding with
      | none => if order.isPerm s.children then some (s.removeAllChildren order) else none
      | some _ => none
  | .feed data =>
      match s.feeding with
      | none => some { s with
          feeding := some ⟨data, s.children, none⟩, pulls := s.feedPulls data }
      | some _ => none
  | .visit e =>
      match s.feeding with
      | some ⟨data, left, none⟩ =>
          match s.pulls[e.2]? with
          | some p =>
              if e ∉ left then none
              else if p.dataChan.buf.length = p.dataChan.cap then
                some { s.setPull e.2 { p with drops := p.drops + 1 } with
                  feeding := some ⟨data, left.erase e, none⟩
                  countersDrops := s.countersDrops ++ [p.endpoint] }
              else some { s with feeding := some ⟨data, left.erase e, some e.2⟩ }
          | none => none
      | _ => none
  | .push =>
      match s.feeding with
      | some ⟨data, left, some k⟩ =>
          match s.pulls[k]? with
          | some p =>
              match p.dataChan.send data false with
              | .ok c => some { s.setPull k { p with dataChan := c } with
                  feeding := some ⟨data, left, none⟩
                  countersMsgs := s.countersMsgs ++ [p.endpoint] }
              | .blocked => none
              | .panic => some { s with panicked := true }
          | none => none
      | _ => none
  | .feedEnd =>
      match s.feeding with
      | some ⟨_, [], none⟩ => some { s with feeding := none }
      | _ => none

/-- The output server before its first client. -/
def outServer : System (OutServer D) (OutLabel D) where
  init :=
    { childrenIndex := 0, children := [], childrenWG := 0, pulls := [], feeding := none
      countersDrops := [], countersMsgs := [], countersErrors := [], panicked := false }
  next := outStep depth

/-! ## What a step can do -/

/-- The steps there are, each with the place it is taken from. -/
inductive OutMove (depth : Nat) (s : OutServer D) : OutLabel D → OutServer D → Prop where
  | start {endpoint : String} : s.feeding = none →
      OutMove depth s (.start endpoint) (s.addChild depth endpoint)
  | recv {k : Nat} {p : Pull D} {msg : D} {c : Chan D} : s.pulls[k]? = some p →
      p.pc = .selecting → p.dataChan.recv = some (msg, c) →
      OutMove depth s (.recv k) (s.setPull k { p with pc := .sending msg, dataChan := c })
  | chanClosed {k : Nat} {p : Pull D} : s.pulls[k]? = some p → p.pc = .selecting →
      OutMove depth s (.chanClosed k) (s.setPull k { p with pc := .out })
  | sendOk {k : Nat} {p : Pull D} {msg : D} : s.pulls[k]? = some p → p.pc = .sending msg →
      OutMove depth s (.send k true) (s.setPull k { p with pc := .selecting })
  | sendFailed {k : Nat} {p : Pull D} {msg : D} : s.pulls[k]? = some p → p.pc = .sending msg →
      OutMove depth s (.send k false) { s.setPull k { p with pc := .out } with
        countersErrors := s.countersErrors ++ [p.endpoint] }
  | cancel {k : Nat} {p : Pull D} : s.pulls[k]? = some p → p.pc = .selecting →
      OutMove depth s (.cancel k) (s.setPull k { p with pc := .out })
  | remove {k : Nat} {p : Pull D} : s.feeding = none → s.pulls[k]? = some p → p.pc = .out →
      OutMove depth s (.remove k)
        ((s.setPull k { p with pc := .removed }).removeChildUnprotected p.childId)
  | done {k : Nat} {p : Pull D} : s.pulls[k]? = some p → p.pc = .removed →
      OutMove depth s (.done k) { s.setPull k { p with pc := .returned } with
        childrenWG := s.childrenWG - 1
        panicked := s.panicked || decide (s.childrenWG = 0) }
  | removeAll {order : List (UInt64 × Nat)} : s.feeding = none →
      OutMove depth s (.removeAll order) (s.removeAllChildren order)
  | feed {data : D} : s.feeding = none →
      OutMove depth s (.feed data) { s with
        feeding := some ⟨data, s.children, none⟩, pulls := s.feedPulls data }
  | visitFull {e : UInt64 × Nat} {data : D} {left : List (UInt64 × Nat)} {p : Pull D} :
      s.feeding = some ⟨data, left, none⟩ → s.pulls[e.2]? = some p → e ∈ left →
      OutMove depth s (.visit e) { s.setPull e.2 { p with drops := p.drops + 1 } with
        feeding := some ⟨data, left.erase e, none⟩
        countersDrops := s.countersDrops ++ [p.endpoint] }
  | visitRoom {e : UInt64 × Nat} {data : D} {left : List (UInt64 × Nat)} {p : Pull D} :
      s.feeding = some ⟨data, left, none⟩ → s.pulls[e.2]? = some p → e ∈ left →
      ¬ p.dataChan.buf.length = p.dataChan.cap →
      OutMove depth s (.visit e) { s with feeding := some ⟨data, left.erase e, some e.2⟩ }
  | push {data : D} {left : List (UInt64 × Nat)} {k : Nat} {p : Pull D} {c : Chan D} :
      s.feeding = some ⟨data, left, some k⟩ → s.pulls[k]? = some p →
      p.dataChan.send data false = .ok c →
      OutMove depth s .push { s.setPull k { p with dataChan := c } with
        feeding := some ⟨data, left, none⟩
        countersMsgs := s.countersMsgs ++ [p.endpoint] }
  | pushPanic {data : D} {left : List (UInt64 × Nat)} {k : Nat} {p : Pull D} :
      s.feeding = some ⟨data, left, some k⟩ → s.pulls[k]? = some p →
      p.dataChan.send data false = .panic → OutMove depth s .push { s with panicked := true }
  | feedEnd {data : D} : s.feeding = some ⟨data, [], none⟩ →
      OutMove depth s .feedEnd { s with feeding := none }

variable {left : List (UInt64 × Nat)} {data : D} {e : UInt64 × Nat}

/-- **EVERY STEP IS ONE OF THESE**. -/
theorem outStep_move {depth : Nat} {l : OutLabel D} (h : outStep depth s l = some t) :
    OutMove depth s l t := by
  cases l with
  | start endpoint =>
      simp only [outStep] at h
      split at h
      · next hfree =>
          cases h
          exact .start hfree
      · cases h
  | recv k =>
      simp only [outStep] at h
      split at h
      · next p hk =>
          split at h
          · next msg c hpc hr =>
              cases h
              exact .recv hk hpc hr
          · cases h
      · cases h
  | chanClosed k =>
      simp only [outStep] at h
      split at h
      · next p hk =>
          split at h
          · next hpc hr =>
              split at h
              · cases h
                exact .chanClosed hk hpc
              · cases h
          · cases h
      · cases h
  | send k ok =>
      simp only [outStep] at h
      split at h
      · next p hk =>
          split at h
          · next msg hpc =>
              cases ok with
              | true =>
                  cases h
                  exact .sendOk hk hpc
              | false =>
                  cases h
                  exact .sendFailed hk hpc
          · cases h
      · cases h
  | cancel k =>
      simp only [outStep] at h
      split at h
      · next p hk =>
          split at h
          · next hpc =>
              cases h
              exact .cancel hk hpc
          · cases h
      · cases h
  | remove k =>
      simp only [outStep] at h
      split at h
      · next p hfree hk =>
          split at h
          · next hpc =>
              cases h
              exact .remove hfree hk hpc
          · cases h
      · cases h
  | done k =>
      simp only [outStep] at h
      split at h
      · next p hk =>
          split at h
          · next hpc =>
              cases h
              exact .done hk hpc
          · cases h
      · cases h
  | removeAll order =>
      simp only [outStep] at h
      split at h
      · next hfree =>
          split at h
          · cases h
            exact .removeAll hfree
          · cases h
      · cases h
  | feed data =>
      simp only [outStep] at h
      split at h
      · next hfree =>
          cases h
          exact .feed hfree
      · cases h
  | visit e =>
      simp only [outStep] at h
      split at h
      · next data left hf =>
          split at h
          · next p hk =>
              split at h
              · cases h
              · next he =>
                  split at h
                  · cases h
                    exact .visitFull hf hk (not_not.mp he)
                  · next hroom =>
                      cases h
                      exact .visitRoom hf hk (not_not.mp he) hroom
          · cases h
      · cases h
  | push =>
      simp only [outStep] at h
      split at h
      · next data left k hf =>
          split at h
          · next p hk =>
              split at h
              · next c hsend =>
                  cases h
                  exact .push hf hk hsend
              · cases h
              · next hsend =>
                  cases h
                  exact .pushPanic hf hk hsend
          · cases h
      · cases h
  | feedEnd =>
      simp only [outStep] at h
      split at h
      · next data hf =>
          cases h
          exact .feedEnd hf
      · cases h

/-! ## Accounts -/

/-- What the feeder has still to do for the pull `k`. -/
def OutServer.pending (s : OutServer D) (k : Nat) : List D :=
  match s.feeding with
  | none => []
  | some f => if k ∈ f.left.map Prod.snd ∨ f.sending = some k then [f.data] else []

/-- A channel that took messages and then perhaps was closed, once; what it
    took and what it is about to be given come from what was fed, in order,
    and the drops make up for the rest. -/
def Account (pending : List D) (p : Pull D) : Prop :=
  ∃ enqueued closed, p.dataChan.Carries enqueued closed ∧
    (enqueued ++ pending).Sublist p.fed ∧
    enqueued.length + p.drops + pending.length = p.fed.length

/-- What is counted of a pull. -/
structure Book where
  endpoint : String
  childId : UInt64
  drops : Nat
  returned : Bool

def Pull.book (p : Pull D) : Book :=
  ⟨p.endpoint, p.childId, p.drops,
    match p.pc with
    | .returned => true
    | _ => false⟩

def OutServer.books (s : OutServer D) : List Book := s.pulls.map Pull.book

/-- The drops counted for a peer, over its pulls. -/
def dropsOf (books : List Book) (peer : String) : Nat :=
  (books.map (fun b => if b.endpoint = peer then b.drops else 0)).sum

/-- The numbers of the server against its pulls. -/
structure Counted (s : OutServer D) (books : List Book) : Prop where
  index : s.childrenIndex = UInt64.ofNat books.length
  ids : ∀ k b, books[k]? = some b → b.childId = UInt64.ofNat (k + 1)
  wg : s.childrenWG = books.countP (fun b => !b.returned)
  drops : ∀ peer, s.countersDrops.count peer = dropsOf books peer

/-- The map against the pulls: each registered once, with an open channel. -/
structure Registered (s : OutServer D) : Prop where
  refs : (s.children.map Prod.snd).Nodup
  isOpen : ∀ e ∈ s.children, ∃ p, s.pulls[e.2]? = some p ∧ p.dataChan.isClosed = false

/-- The feeder looks at registered children, each once, and the one it found
    room at still has it. -/
structure Feeding (s : OutServer D) (f : Feed D) : Prop where
  left : ∀ e ∈ f.left, e ∈ s.children
  once : (f.left.map Prod.snd).Nodup
  sending : ∀ k, f.sending = some k → k ∈ s.children.map Prod.snd ∧
    k ∉ f.left.map Prod.snd ∧ ∃ p, s.pulls[k]? = some p ∧ p.dataChan.hasRoom = true

structure Inv (s : OutServer D) : Prop where
  counted : Counted s s.books
  registered : Registered s
  feeding : ∀ f, s.feeding = some f → Feeding s f
  accounts : ∀ k p, s.pulls[k]? = some p → Account (s.pending k) p
  bounded : ∀ p ∈ s.pulls, p.dataChan.buf.length ≤ p.dataChan.cap
  safe : s.panicked = false

/-! ## Steps of a client -/

/-- **ONE PULL CHANGES**: what has to be shown of a step that changes one pull
    and leaves the registration alone. -/
theorem Inv.replace (hs : Inv s) (hk : s.pulls[k]? = some p) (hpulls : t.pulls = s.pulls.set k q)
    (hchildren : t.children = s.children) (hsafe : t.panicked = false)
    (hclosed : q.dataChan.isClosed = p.dataChan.isClosed)
    (hbounded : q.dataChan.buf.length ≤ q.dataChan.cap) (hcounted : Counted t t.books)
    (hfeeding : ∀ f, t.feeding = some f → Feeding t f)
    (hpending : ∀ j, j ≠ k → t.pending j = s.pending j) (haccount : Account (t.pending k) q) :
    Inv t := by
  have hlt : k < s.pulls.length := (List.getElem?_eq_some_iff.mp hk).1
  refine ⟨hcounted, ⟨hchildren ▸ hs.registered.refs, ?_⟩, hfeeding, ?_, ?_, hsafe⟩
  · intro e he
    rw [hchildren] at he
    obtain ⟨r, hr, hopen⟩ := hs.registered.isOpen e he
    rw [hpulls]
    by_cases hj : e.2 = k
    · rw [hj, hk] at hr
      cases hr
      exact ⟨q, by rw [hj, List.getElem?_set_self hlt], hclosed.trans hopen⟩
    · exact ⟨r, by rw [List.getElem?_set_ne (Ne.symm hj), hr], hopen⟩
  · intro j r hr
    rw [hpulls] at hr
    rcases getElem?_set_cases hr with ⟨rfl, rfl⟩ | ⟨hne, hr⟩
    · exact haccount
    · rw [hpending j hne]
      exact hs.accounts j r hr
  · intro r hr
    rw [hpulls] at hr
    rcases List.mem_or_eq_of_mem_set hr with h | rfl
    · exact hs.bounded r h
    · exact hbounded

/-- A step of a pull that leaves the history of its channel and the drops
    alone. -/
structure Quiet (p q : Pull D) : Prop where
  fed : q.fed = p.fed
  drops : q.drops = p.drops
  log : q.dataChan.log = p.dataChan.log
  room : p.dataChan.hasRoom = true → q.dataChan.hasRoom = true
  bounded : p.dataChan.buf.length ≤ p.dataChan.cap → q.dataChan.buf.length ≤ q.dataChan.cap

theorem Quiet.account (h : Quiet p q) {pending : List D} (ha : Account pending p) :
    Account pending q := by
  obtain ⟨enqueued, closed, hcarries, hsub, hlen⟩ := ha
  refine ⟨enqueued, closed, ?_, ?_, ?_⟩
  · rw [Chan.Carries, h.log]
    exact hcarries
  · rw [h.fed]
    exact hsub
  · rw [h.fed, h.drops]
    exact hlen

/-- Such a step keeps the invariant, if the counters are kept. -/
theorem Inv.quiet (hs : Inv s) (hk : s.pulls[k]? = some p) (hq : Quiet p q)
    (hpulls : t.pulls = s.pulls.set k q) (hchildren : t.children = s.children)
    (hsafe : t.panicked = false) (hfeeding : t.feeding = s.feeding) (hcounted : Counted t t.books) :
    Inv t := by
  have hpending : ∀ j, t.pending j = s.pending j := by
    intro j
    rw [OutServer.pending, OutServer.pending, hfeeding]
  have hlt : k < s.pulls.length := (List.getElem?_eq_some_iff.mp hk).1
  have hclosed : q.dataChan.isClosed = p.dataChan.isClosed := by
    rw [Chan.isClosed, Chan.isClosed, hq.log]
  refine hs.replace hk hpulls hchildren hsafe hclosed
    (hq.bounded (hs.bounded p (List.mem_of_getElem? hk))) hcounted ?_
    (fun j _ => hpending j) ?_
  · intro f hf
    have hfeed := hs.feeding f (hfeeding ▸ hf)
    refine ⟨fun e he => hchildren ▸ hfeed.left e he, hfeed.once, ?_⟩
    intro j hj
    obtain ⟨hmem, hnot, r, hr, hroom⟩ := hfeed.sending j hj
    refine ⟨hchildren ▸ hmem, hnot, ?_⟩
    -- the feeder is the only sender, so room it found does not go away
    rw [hpulls]
    by_cases hjk : j = k
    · rw [hjk, hk] at hr
      cases hr
      exact ⟨q, by rw [hjk, List.getElem?_set_self hlt], hq.room hroom⟩
    · exact ⟨r, by rw [List.getElem?_set_ne (Ne.symm hjk), hr], hroom⟩
  · rw [hpending]
    exact hq.account (hs.accounts k p hk)

/-- The counters do not see a pull move on, as long as it does not return. -/
theorem Counted.setPull (hs : Counted s s.books) (hk : s.pulls[k]? = some p)
    (hbook : q.book = p.book) (hpulls : t.pulls = s.pulls.set k q)
    (hindex : t.childrenIndex = s.childrenIndex) (hwg : t.childrenWG = s.childrenWG)
    (hdrops : t.countersDrops = s.countersDrops) : Counted t t.books := by
  have hbooks : t.books = s.books := by
    rw [OutServer.books, hpulls]
    exact map_set_of_eq hk hbook
  rw [hbooks]
  exact ⟨hindex ▸ hs.index, hs.ids, hwg ▸ hs.wg, hdrops ▸ hs.drops⟩

/-- Moving on in `Pull` is quiet. -/
theorem quiet_pc (p : Pull D) (pc : PullPc D) : Quiet p { p with pc := pc } :=
  ⟨rfl, rfl, rfl, id, id⟩

/-- Receiving is quiet. -/
theorem quiet_recv {msg : D} {c : Chan D} (hr : p.dataChan.recv = some (msg, c)) :
    Quiet p { p with pc := .sending msg, dataChan := c } := by
  obtain ⟨hlog, hcap, hbuf⟩ := Chan.recv_spec hr
  refine ⟨rfl, rfl, hlog, Chan.hasRoom_recv hr, ?_⟩
  intro hle
  rw [hbuf, List.length_cons] at hle
  show c.buf.length ≤ c.cap
  rw [hcap]
  omega

/-! ## Registration -/

/-- **REMOVING A CHILD KEEPS THE INVARIANT**, whoever does it: the channel it
    closes is open, since it is registered. -/
theorem Inv.removeChild (hs : Inv s) (hfree : s.feeding = none) (index : UInt64) :
    Inv (s.removeChildUnprotected index) ∧
      (s.removeChildUnprotected index).feeding = none := by
  unfold OutServer.removeChildUnprotected
  cases hget : GoMap.get s.children index with
  | none => exact ⟨hs, hfree⟩
  | some k =>
      have hmem := GoMap.mem_of_get hget
      obtain ⟨p, hk, hopen⟩ := hs.registered.isOpen _ hmem
      obtain ⟨enqueued, closed, hcarries, hsub, hlen⟩ := hs.accounts k p hk
      obtain rfl : closed = false := hcarries.isClosed.symm.trans hopen
      obtain ⟨c, hclose, hcarries'⟩ := hcarries.close
      have hc : c = { p.dataChan with log := p.dataChan.log ++ [none] } := by
        rw [Chan.close, hopen, if_neg Bool.false_ne_true] at hclose
        cases hclose
        rfl
      have hk' : s.pulls[k]? = some p := hk
      simp only [hk', hclose]
      have hbooks : (s.setPull k { p with dataChan := c }).books = s.books :=
        map_set_of_eq hk rfl
      have hsublist : (GoMap.del s.children index).Sublist s.children := List.filter_sublist
      refine ⟨⟨?_, ⟨?_, ?_⟩, ?_, ?_, ?_, hs.safe⟩, hfree⟩
      · show Counted _ (s.setPull k { p with dataChan := c }).books
        rw [hbooks]
        exact ⟨hs.counted.index, hs.counted.ids, hs.counted.wg, hs.counted.drops⟩
      · exact hs.registered.refs.sublist (hsublist.map Prod.snd)
      · -- another entry is of another pull, whose channel stays open
        intro e he
        have he' := hsublist.subset he
        have hne : e.2 ≠ k := by
          intro heq
          have := List.inj_on_of_nodup_map hs.registered.refs he' hmem heq
          rw [this] at he
          exact absurd (List.mem_filter.mp he).2 (by simp)
        obtain ⟨r, hr, hropen⟩ := hs.registered.isOpen e he'
        exact ⟨r, by rw [← hr]; exact List.getElem?_set_ne (Ne.symm hne), hropen⟩
      · intro f hf
        have hf' : s.feeding = some f := hf
        rw [hfree] at hf'
        cases hf'
      · intro j r hr
        rcases getElem?_set_cases hr with ⟨rfl, rfl⟩ | ⟨-, hr⟩
        · exact ⟨enqueued, true, hcarries', hsub, hlen⟩
        · exact hs.accounts j r hr
      · intro r hr
        rcases List.mem_or_eq_of_mem_set hr with h | rfl
        · exact hs.bounded r h
        · rw [hc]
          exact hs.bounded p (List.mem_of_getElem? hk)

/-- All of them, in any order. -/
theorem Inv.removeAll : ∀ (order : List (UInt64 × Nat)) {s : OutServer D}, Inv s →
    s.feeding = none → Inv (s.removeAllChildren order) := by
  intro order
  induction order with
  | nil => intro s hs _; exact hs
  | cons e rest ih =>
      intro s hs hfree
      obtain ⟨hs', hfree'⟩ := hs.removeChild hfree e.1
      exact ih hs' hfree'

/-- Nothing is pending while nothing is fed. -/
theorem OutServer.pending_free (hfree : s.feeding = none) (k : Nat) : s.pending k = [] := by
  rw [OutServer.pending, hfree]

/-- A new client has a fresh number, and an open channel with nothing in it. -/
theorem Inv.addChild {s : OutServer D} (hs : Inv s) (hfree : s.feeding = none) (depth : Nat)
    (endpoint : String) : Inv (s.addChild depth endpoint) := by
  let q : Pull D := ⟨endpoint, Chan.make depth, s.childrenIndex + 1, .selecting, [], 0⟩
  have hlen : s.books.length = s.pulls.length := List.length_map _
  have hbooks : (s.addChild depth endpoint).books = s.books ++ [q.book] := by
    rw [OutServer.books, OutServer.addChild, List.map_append]
    rfl
  have hnew : s.childrenIndex + 1 = UInt64.ofNat (s.books.length + 1) := by
    rw [hs.counted.index, UInt64.ofNat_add]
    rfl
  -- every entry is of a pull that was there before
  have hbelow : ∀ e ∈ s.children, e.2 < s.pulls.length := by
    intro e he
    obtain ⟨p, hp, -⟩ := hs.registered.isOpen e he
    exact (List.getElem?_eq_some_iff.mp hp).1
  have hsublist : (GoMap.del s.children (s.childrenIndex + 1)).Sublist s.children :=
    List.filter_sublist
  refine ⟨?_, ⟨?_, ?_⟩, ?_, ?_, ?_, hs.safe⟩
  · rw [hbooks]
    refine ⟨?_, ?_, ?_, ?_⟩
    · rw [List.length_append]
      exact hnew
    · intro k b hb
      rcases Nat.lt_or_ge k s.books.length with hlt | hge
      · rw [List.getElem?_append_left hlt] at hb
        exact hs.counted.ids k b hb
      · rw [List.getElem?_append_right hge] at hb
        obtain ⟨hzero, hb'⟩ := List.getElem?_eq_some_iff.mp hb
        have hk : k = s.books.length := by
          rw [List.length_singleton] at hzero
          omega
        subst hk
        rw [Nat.sub_self] at hb
        cases hb
        exact hnew
    · rw [List.countP_append, ← hs.counted.wg]
      rfl
    · intro peer
      rw [dropsOf, List.map_append, List.sum_append]
      have hzero : (([q.book].map (fun b => if b.endpoint = peer then b.drops else 0)).sum)
          = 0 := by
        simp [Pull.book, q]
      rw [hzero, Nat.add_zero]
      exact hs.counted.drops peer
  · show (s.pulls.length :: (GoMap.del s.children (s.childrenIndex + 1)).map Prod.snd).Nodup
    refine List.nodup_cons.mpr ⟨?_, hs.registered.refs.sublist (hsublist.map Prod.snd)⟩
    intro hmem
    obtain ⟨e, he, heq⟩ := List.mem_map.mp hmem
    exact absurd (hbelow e (hsublist.subset he)) (by omega)
  · intro e he
    rcases List.mem_cons.mp he with rfl | he
    · exact ⟨q, List.getElem?_concat_length, rfl⟩
    · obtain ⟨p, hp, hopen⟩ := hs.registered.isOpen e (hsublist.subset he)
      refine ⟨p, ?_, hopen⟩
      rw [← hp]
      exact List.getElem?_append_left (hbelow e (hsublist.subset he))
  · intro f hf
    have hf' : s.feeding = some f := hf
    rw [hfree] at hf'
    cases hf'
  · intro k p hp
    have hpend : (s.addChild depth endpoint).pending k = s.pending k := rfl
    rw [hpend]
    rcases Nat.lt_or_ge k s.pulls.length with hlt | hge
    · refine hs.accounts k p ?_
      rw [← hp]
      exact (List.getElem?_append_left hlt).symm
    · have hp' : (s.pulls ++ [q])[k]? = some p := hp
      rw [List.getElem?_append_right hge] at hp'
      have hmem := List.mem_of_getElem? hp'
      rw [List.mem_singleton.mp hmem, OutServer.pending_free hfree]
      exact ⟨[], false, Chan.carries_make depth, List.Sublist.refl _, rfl⟩
  · intro p hp
    rcases List.mem_append.mp hp with h | h
    · exact hs.bounded p h
    · rw [List.mem_singleton.mp h]
      exact Nat.zero_le _

/-- A pull that is done leaves the wait group, which counted it. -/
theorem Inv.done (hs : Inv s) (hk : s.pulls[k]? = some p) (hpc : p.pc = .removed) :
    Inv { s.setPull k { p with pc := .returned } with
      childrenWG := s.childrenWG - 1
      panicked := s.panicked || decide (s.childrenWG = 0) } := by
  have hbook : p.book = ⟨p.endpoint, p.childId, p.drops, false⟩ := by
    rw [Pull.book, hpc]
  have hget : s.books[k]? = some ⟨p.endpoint, p.childId, p.drops, false⟩ := by
    rw [OutServer.books, List.getElem?_map, hk, ← hbook]
    rfl
  obtain ⟨hlt, hat⟩ := List.getElem?_eq_some_iff.mp hget
  have hbooks : (s.setPull k { p with pc := .returned }).books
      = s.books.set k ⟨p.endpoint, p.childId, p.drops, true⟩ := by
    rw [OutServer.books, OutServer.setPull, List.map_set]
    rfl
  have hpos : 0 < s.childrenWG := by
    rw [hs.counted.wg, List.countP_pos_iff]
    exact ⟨_, List.mem_of_getElem? hget, rfl⟩
  refine hs.quiet hk (quiet_pc p .returned) rfl rfl ?_ rfl ?_
  · show (s.panicked || decide (s.childrenWG = 0)) = false
    rw [hs.safe, decide_eq_false (Nat.ne_of_gt hpos)]
    rfl
  · show Counted _ (s.setPull k { p with pc := .returned }).books
    rw [hbooks]
    refine ⟨?_, ?_, ?_, ?_⟩
    · rw [List.length_set]
      exact hs.counted.index
    · intro j b hb
      rcases getElem?_set_cases hb with ⟨rfl, rfl⟩ | ⟨-, hb⟩
      · have hid : p.childId = _ := hs.counted.ids _ _ hget
        exact hid
      · exact hs.counted.ids j b hb
    · show s.childrenWG - 1 = _
      rw [List.countP_set hlt, hat, hs.counted.wg]
      rfl
    · intro peer
      have hsame : dropsOf (s.books.set k ⟨p.endpoint, p.childId, p.drops, true⟩) peer
          = dropsOf s.books peer := congrArg List.sum (map_set_of_eq hget rfl)
      rw [hsame]
      exact hs.counted.drops peer

/-! ## Steps of the feeder -/

theorem OutServer.pending_feeding {sending : Option Nat}
    (hf : s.feeding = some ⟨data, left, sending⟩) (k : Nat) :
    s.pending k = if k ∈ left.map Prod.snd ∨ sending = some k then [data] else [] := by
  rw [OutServer.pending, hf]

/-- The pulls that are left after one was looked at. -/
theorem mem_refs_erase (hnd : (left.map Prod.snd).Nodup) (he : e ∈ left) (k : Nat) :
    k ∈ (left.erase e).map Prod.snd ↔ k ∈ left.map Prod.snd ∧ k ≠ e.2 := by
  have hleft : left.Nodup := hnd.of_map
  constructor
  · intro hk
    obtain ⟨x, hx, rfl⟩ := List.mem_map.mp hk
    obtain ⟨hne, hx⟩ := hleft.mem_erase_iff.mp hx
    exact ⟨List.mem_map_of_mem hx, fun heq => hne (List.inj_on_of_nodup_map hnd hx he heq)⟩
  · rintro ⟨hk, hne⟩
    obtain ⟨x, hx, rfl⟩ := List.mem_map.mp hk
    exact List.mem_map_of_mem (hleft.mem_erase_iff.mpr ⟨fun heq => hne (heq ▸ rfl), hx⟩)

/-- A message is fed to the children that are registered. -/
theorem Inv.feed (hs : Inv s) (hfree : s.feeding = none) (data : D) :
    Inv { s with feeding := some ⟨data, s.children, none⟩, pulls := s.feedPulls data } := by
  let t : OutServer D :=
    { s with feeding := some ⟨data, s.children, none⟩, pulls := s.feedPulls data }
  have hget : ∀ k, (s.feedPulls data)[k]? = s.pulls[k]?.map (fun p =>
      if k ∈ s.children.map Prod.snd then { p with fed := p.fed ++ [data] } else p) :=
    fun k => List.getElem?_mapIdx
  -- feeding changes what was fed and nothing else
  have hpull : ∀ {k q}, (s.feedPulls data)[k]? = some q → ∃ p, s.pulls[k]? = some p ∧
      q.book = p.book ∧ q.dataChan = p.dataChan ∧
      q.fed = p.fed ++ (if k ∈ s.children.map Prod.snd then [data] else []) := by
    intro k q hq
    rw [hget] at hq
    obtain ⟨p, hp, rfl⟩ := Option.map_eq_some_iff.mp hq
    refine ⟨p, hp, ?_⟩
    split
    · exact ⟨rfl, rfl, rfl⟩
    · exact ⟨rfl, rfl, (List.append_nil _).symm⟩
  have hbooks : t.books = s.books := by
    refine List.ext_getElem? (fun k => ?_)
    rw [OutServer.books, OutServer.books, List.getElem?_map, List.getElem?_map]
    show ((s.feedPulls data)[k]?).map Pull.book = _
    cases hq : (s.feedPulls data)[k]? with
    | none =>
        rw [hget, Option.map_eq_none_iff] at hq
        rw [hq]
    | some q =>
        obtain ⟨p, hp, hbook, -, -⟩ := hpull hq
        rw [hp]
        exact congrArg some hbook
  refine ⟨?_, ⟨hs.registered.refs, ?_⟩, ?_, ?_, ?_, hs.safe⟩
  · show Counted t t.books
    rw [hbooks]
    exact ⟨hs.counted.index, hs.counted.ids, hs.counted.wg, hs.counted.drops⟩
  · intro e he
    obtain ⟨p, hp, hopen⟩ := hs.registered.isOpen e he
    refine ⟨{ p with fed := p.fed ++ [data] }, ?_, hopen⟩
    show (s.feedPulls data)[e.2]? = _
    rw [hget, hp, Option.map_some, if_pos (List.mem_map_of_mem he)]
  · intro f hf
    cases hf
    exact ⟨fun _ he => he, hs.registered.refs, fun _ hk => by cases hk⟩
  · intro k q hq
    obtain ⟨p, hp, hbook, hchan, hfed⟩ := hpull hq
    obtain ⟨enqueued, closed, hcarries, hsub, hlen⟩ := hs.accounts k p hp
    have hdrops : q.drops = p.drops := congrArg Book.drops hbook
    rw [OutServer.pending_free hfree, List.append_nil] at hsub
    rw [OutServer.pending_free hfree, List.length_nil, Nat.add_zero] at hlen
    have hpend : t.pending k = if k ∈ s.children.map Prod.snd then [data] else [] := by
      rw [OutServer.pending_feeding (s := t) rfl]
      exact if_congr (or_iff_left (Option.some_ne_none k).symm) rfl rfl
    refine ⟨enqueued, closed, by rw [hchan]; exact hcarries, ?_, ?_⟩
    · show (enqueued ++ t.pending k).Sublist q.fed
      rw [hpend, hfed]
      exact hsub.append (List.Sublist.refl _)
    · show _ + (t.pending k).length = _
      rw [hpend, hfed, hdrops, List.length_append, hlen]
  · intro q hq
    obtain ⟨k, hk⟩ := List.mem_iff_getElem?.mp hq
    obtain ⟨p, hp, -, hchan, -⟩ := hpull hk
    rw [hchan]
    exact hs.bounded p (List.mem_of_getElem? hp)

/-- One more drop for its peer. -/
theorem dropsOf_set (peer : String) : ∀ (books : List Book) (k : Nat) (b : Book),
    books[k]? = some b →
      dropsOf (books.set k { b with drops := b.drops + 1 }) peer
        = dropsOf books peer + (if b.endpoint = peer then 1 else 0) := by
  intro books
  induction books with
  | nil => intro k b hb; cases hb
  | cons x rest ih =>
      intro k b hb
      cases k with
      | zero =>
          cases hb
          simp only [dropsOf, List.set_cons_zero, List.map_cons, List.sum_cons]
          split <;> omega
      | succ k =>
          have := ih k b hb
          simp only [dropsOf] at this
          simp only [dropsOf, List.set_cons_succ, List.map_cons, List.sum_cons, this]
          omega

/-- A child whose channel is full is passed over, and counted. -/
theorem Inv.visit_full (hs : Inv s) (hf : s.feeding = some ⟨data, left, none⟩) (he : e ∈ left)
    (hk : s.pulls[e.2]? = some p) :
    Inv { s.setPull e.2 { p with drops := p.drops + 1 } with
      feeding := some ⟨data, left.erase e, none⟩
      countersDrops := s.countersDrops ++ [p.endpoint] } := by
  have hfeed := hs.feeding _ hf
  have hget : s.books[e.2]? = some p.book := by
    rw [OutServer.books, List.getElem?_map, hk]
    rfl
  have hbooks : (s.setPull e.2 { p with drops := p.drops + 1 }).books
      = s.books.set e.2 { p.book with drops := p.book.drops + 1 } := by
    rw [OutServer.books, OutServer.setPull, List.map_set]
    rfl
  refine hs.replace hk rfl rfl hs.safe rfl (hs.bounded p (List.mem_of_getElem? hk)) ?_ ?_ ?_ ?_
  · show Counted _ (s.setPull e.2 { p with drops := p.drops + 1 }).books
    rw [hbooks]
    refine ⟨?_, ?_, ?_, ?_⟩
    · rw [List.length_set]
      exact hs.counted.index
    · intro j b hb
      rcases getElem?_set_cases hb with ⟨rfl, rfl⟩ | ⟨-, hb⟩
      · exact hs.counted.ids _ p.book hget
      · exact hs.counted.ids j b hb
    · refine hs.counted.wg.trans (countP_set_of_eq hget ?_).symm
      rfl
    · intro peer
      show (s.countersDrops ++ [p.endpoint]).count peer = _
      rw [List.count_append, hs.counted.drops peer, dropsOf_set peer _ _ _ hget,
        List.count_singleton]
      exact congrArg _ (if_congr beq_iff_eq rfl rfl)
  · intro f hfeq
    cases hfeq
    exact ⟨fun x hx => hfeed.left x (List.mem_of_mem_erase hx),
      hfeed.once.sublist (List.erase_sublist.map Prod.snd), fun _ hj => by cases hj⟩
  · intro j hj
    rw [OutServer.pending_feeding rfl, OutServer.pending_feeding hf]
    refine if_congr (or_congr_left ?_) rfl rfl
    rw [mem_refs_erase hfeed.once he]
    exact and_iff_left hj
  · -- what was about to be given is dropped instead
    obtain ⟨enqueued, closed, hcarries, hsub, hlen⟩ := hs.accounts e.2 p hk
    rw [OutServer.pending_feeding hf, if_pos (Or.inl (List.mem_map_of_mem he))] at hsub hlen
    rw [OutServer.pending_feeding rfl, if_neg]
    · refine ⟨enqueued, closed, hcarries, ?_, ?_⟩
      · rw [List.append_nil]
        exact (List.sublist_append_left _ _).trans hsub
      · show enqueued.length + (p.drops + 1) + 0 = p.fed.length
        rw [List.length_singleton] at hlen
        omega
    · rintro (h | h)
      · exact ((mem_refs_erase hfeed.once he e.2).mp h).2 rfl
      · cases h

/-- A child whose channel has room is about to get the message. -/
theorem Inv.visit_room (hs : Inv s) (hf : s.feeding = some ⟨data, left, none⟩) (he : e ∈ left)
    (hk : s.pulls[e.2]? = some p) (hroom : p.dataChan.buf.length ≠ p.dataChan.cap) :
    Inv { s with feeding := some ⟨data, left.erase e, some e.2⟩ } := by
  have hfeed := hs.feeding _ hf
  refine ⟨⟨hs.counted.index, hs.counted.ids, hs.counted.wg, hs.counted.drops⟩,
    ⟨hs.registered.refs, hs.registered.isOpen⟩, ?_, ?_, hs.bounded, hs.safe⟩
  · intro f hfeq
    cases hfeq
    refine ⟨fun x hx => hfeed.left x (List.mem_of_mem_erase hx),
      hfeed.once.sublist (List.erase_sublist.map Prod.snd), ?_⟩
    intro j hj
    cases hj
    refine ⟨List.mem_map_of_mem (hfeed.left e he),
      fun h => ((mem_refs_erase hfeed.once he e.2).mp h).2 rfl, p, hk, ?_⟩
    rw [Chan.hasRoom, decide_eq_true_iff]
    have := hs.bounded p (List.mem_of_getElem? hk)
    omega
  · intro k q hq
    have hpend : OutServer.pending { s with feeding := some ⟨data, left.erase e, some e.2⟩ } k
        = s.pending k := by
      rw [OutServer.pending_feeding rfl, OutServer.pending_feeding hf]
      refine if_congr ?_ rfl rfl
      rw [mem_refs_erase hfeed.once he, Option.some.injEq]
      constructor
      · rintro (h | h)
        · exact Or.inl h.1
        · exact Or.inl (h ▸ List.mem_map_of_mem he)
      · rintro (h | h)
        · by_cases hke : k = e.2
          · exact Or.inr hke.symm
          · exact Or.inl ⟨h, hke⟩
        · cases h
    rw [hpend]
    exact hs.accounts k q hq

/-- **THE FEEDER'S SEND GOES THROUGH**: the channel is open and has the room the
    feeder found. -/
theorem Inv.push_ok (hs : Inv s) (hf : s.feeding = some ⟨data, left, some k⟩) :
    ∃ p, s.pulls[k]? = some p ∧ p.dataChan.isClosed = false ∧
      p.dataChan.send data false = .ok (p.dataChan.put data) ∧
      p.dataChan.buf.length < p.dataChan.cap := by
  obtain ⟨hmem, -, p, hk, hroom⟩ := (hs.feeding _ hf).sending k rfl
  obtain ⟨e, he, heq⟩ := List.mem_map.mp hmem
  obtain ⟨r, hr, hopen⟩ := hs.registered.isOpen e he
  rw [heq, hk] at hr
  cases hr
  exact ⟨p, hk, hopen, Chan.send_eq_put hopen hroom data false, of_decide_eq_true hroom⟩

theorem Inv.push (hs : Inv s) (hf : s.feeding = some ⟨data, left, some k⟩)
    (hk : s.pulls[k]? = some p) (hopen : p.dataChan.isClosed = false)
    (hroom : p.dataChan.buf.length < p.dataChan.cap) :
    Inv { s.setPull k { p with dataChan := p.dataChan.put data } with
      feeding := some ⟨data, left, none⟩
      countersMsgs := s.countersMsgs ++ [p.endpoint] } := by
  have hfeed := hs.feeding _ hf
  obtain ⟨-, hnot, -⟩ := hfeed.sending k rfl
  obtain ⟨enqueued, closed, hcarries, hsub, hlen⟩ := hs.accounts k p hk
  obtain rfl : closed = false := hcarries.isClosed.symm.trans hopen
  have hcarries' : (p.dataChan.put data).Carries (enqueued ++ [data]) false := by
    show p.dataChan.log ++ [some data] = _
    rw [hcarries]
    simp
  rw [OutServer.pending_feeding hf, if_pos (Or.inr rfl)] at hsub hlen
  refine hs.replace hk rfl rfl hs.safe ?_ ?_
    (hs.counted.setPull (q := { p with dataChan := p.dataChan.put data }) hk rfl rfl rfl rfl
      rfl) ?_ ?_ ?_
  · exact hcarries'.isClosed.trans hopen.symm
  · show (p.dataChan.buf ++ [data]).length ≤ p.dataChan.cap
    rw [List.length_append]
    exact hroom
  · intro f hfeq
    cases hfeq
    exact ⟨hfeed.left, hfeed.once, fun _ hj => by cases hj⟩
  · intro j hj
    rw [OutServer.pending_feeding rfl, OutServer.pending_feeding hf]
    refine if_congr (or_congr_right ?_) rfl rfl
    constructor
    · intro h
      cases h
    · intro h
      exact absurd (Option.some.inj h).symm hj
  · rw [OutServer.pending_feeding rfl, if_neg]
    · refine ⟨enqueued ++ [data], false, hcarries', ?_, ?_⟩
      · rw [List.append_nil]
        exact hsub
      · show (enqueued ++ [data]).length + p.drops + 0 = p.fed.length
        rw [List.length_singleton] at hlen
        rw [List.length_append, List.length_singleton]
        omega
    · rintro (h | h)
      · exact hnot h
      · cases h

/-- Feeding is over when no child is left. -/
theorem Inv.feedEnd (hs : Inv s) (hf : s.feeding = some ⟨data, [], none⟩) :
    Inv { s with feeding := none } := by
  refine ⟨⟨hs.counted.index, hs.counted.ids, hs.counted.wg, hs.counted.drops⟩,
    ⟨hs.registered.refs, hs.registered.isOpen⟩, (fun _ h => by cases h), ?_, hs.bounded,
    hs.safe⟩
  intro k p hk
  have hpend : s.pending k = [] := by
    rw [OutServer.pending_feeding hf, if_neg]
    rintro (h | h)
    · exact absurd h List.not_mem_nil
    · cases h
  have haccount := hs.accounts k p hk
  rw [hpend] at haccount
  exact haccount

/-! ## Runs -/

/-- A step of a pull that is quiet and does not return. -/
theorem Inv.movePull (hs : Inv s) (hk : s.pulls[k]? = some p) (hq : Quiet p q)
    (hbook : q.book = p.book) : Inv (s.setPull k q) :=
  hs.quiet hk hq rfl rfl hs.safe rfl (hs.counted.setPull hk hbook rfl rfl rfl rfl)

/-- **EVERY STEP KEEPS THE INVARIANT**. -/
theorem Inv.step {depth : Nat} {l : OutLabel D} (hs : Inv s) (h : outStep depth s l = some t) :
    Inv t := by
  cases outStep_move h with
  | start hfree => exact hs.addChild hfree depth _
  | recv hk hpc hr => exact hs.movePull hk (quiet_recv hr) (by simp only [Pull.book, hpc])
  | chanClosed hk hpc => exact hs.movePull hk (quiet_pc _ .out) (by simp only [Pull.book, hpc])
  | sendOk hk hpc => exact hs.movePull hk (quiet_pc _ .selecting) (by simp only [Pull.book, hpc])
  | sendFailed hk hpc =>
      exact hs.quiet hk (quiet_pc _ .out) rfl rfl hs.safe rfl
        (hs.counted.setPull hk (by simp only [Pull.book, hpc]) rfl rfl rfl rfl)
  | cancel hk hpc => exact hs.movePull hk (quiet_pc _ .out) (by simp only [Pull.book, hpc])
  | @remove k p hfree hk hpc =>
      have hmoved : Inv (s.setPull k { p with pc := .removed }) :=
        hs.movePull hk (quiet_pc p .removed) (by simp only [Pull.book, hpc])
      exact (hmoved.removeChild hfree p.childId).1
  | done hk hpc => exact hs.done hk hpc
  | removeAll hfree => exact Inv.removeAll _ hs hfree
  | feed hfree => exact hs.feed hfree _
  | visitFull hf hk he => exact hs.visit_full hf he hk
  | visitRoom hf hk he hroom => exact hs.visit_room hf he hk hroom
  | push hf hk hsend =>
      -- the send the invariant promises is the one that was made
      obtain ⟨p, hk', hopen, hsend', hroom⟩ := hs.push_ok hf
      cases hk.symm.trans hk'
      cases hsend.symm.trans hsend'
      exact hs.push hf hk hopen hroom
  | pushPanic hf hk hsend =>
      obtain ⟨p, hk', -, hsend', -⟩ := hs.push_ok hf
      cases hk.symm.trans hk'
      cases hsend.symm.trans hsend'
  | feedEnd hf => exact hs.feedEnd hf

theorem inv_init : Inv (outServer depth : System (OutServer D) _).init := by
  refine ⟨⟨rfl, ?_, rfl, fun _ => rfl⟩, ⟨List.nodup_nil, ?_⟩, (fun _ h => by cases h), ?_, ?_, rfl⟩
  · intro k b hb
    cases hb
  · intro e he
    cases he
  · intro k p hp
    cases hp
  · intro p hp
    cases hp

theorem inv_of_reach {depth : Nat} {P : OutServer D → OutLabel D → Prop}
    (h : Reach (outServer depth) P s) : Inv s :=
  h.invariant (inv_init depth) (fun _ _ _ hs _ hn => hs.step hn)

theorem Inv.childId_eq (hs : Inv s) (hk : s.pulls[k]? = some p) :
    p.childId = UInt64.ofNat (k + 1) := by
  refine hs.counted.ids k p.book ?_
  rw [OutServer.books, List.getElem?_map, hk]
  rfl

/-- The steps of `feedAllChildren` itself. -/
def FeederLabel : OutLabel D → Prop
  | .visit _ => True
  | .push => True
  | .feedEnd => True
  | _ => False

/-- A send that is due goes through, and leaves the feeder with the rest. -/
theorem Inv.leads_push (hs : Inv s) (depth : Nat) (hf : s.feeding = some ⟨data, left, some k⟩) :
    ∃ t, Leads (outServer depth) FeederLabel s t ∧ Inv t ∧
      t.feeding = some ⟨data, left, none⟩ := by
  obtain ⟨p, hk, hopen, hsend, hroom⟩ := hs.push_ok hf
  refine ⟨_, Leads.single (a := .push) trivial ?_, hs.push hf hk hopen hroom, rfl⟩
  show outStep depth s .push = _
  simp only [outStep, hf, hk, hsend]

/-- **FEEDING COMES TO ITS END BY ITSELF**, whatever the clients do or leave
    undone. -/
theorem Inv.feeder_finishes {depth : Nat} : ∀ (left : List (UInt64 × Nat))
    {s : OutServer D}, Inv s → s.feeding = some ⟨data, left, none⟩ →
      ∃ t, Leads (outServer depth) FeederLabel s t ∧ t.feeding = none := by
  intro left
  induction left with
  | nil =>
      intro s _ hf
      refine ⟨{ s with feeding := none }, Leads.single (a := .feedEnd) trivial ?_, rfl⟩
      show outStep depth s .feedEnd = _
      simp only [outStep, hf]
  | cons e rest ih =>
      intro s hs hf
      have he : e ∈ e :: rest := List.mem_cons_self ..
      obtain ⟨p, hk, -⟩ := hs.registered.isOpen e ((hs.feeding _ hf).left e he)
      have herase : (e :: rest).erase e = rest := List.erase_cons_head ..
      by_cases hfull : p.dataChan.buf.length = p.dataChan.cap
      · have hinv := hs.visit_full hf he hk
        rw [herase] at hinv
        obtain ⟨t, hlead, ht⟩ := ih hinv rfl
        refine ⟨t, (Leads.single (a := .visit e) trivial ?_).trans hlead, ht⟩
        show outStep depth s (.visit e) = _
        simp only [outStep, hf, hk, if_neg (not_not.mpr he), if_pos hfull, herase]
      · have hinv := hs.visit_room hf he hk hfull
        rw [herase] at hinv
        obtain ⟨u, hpush, hu, hfu⟩ := hinv.leads_push depth rfl
        obtain ⟨t, hlead, ht⟩ := ih hu hfu
        refine ⟨t, (Leads.single (a := .visit e) trivial ?_).trans (hpush.trans hlead), ht⟩
        show outStep depth s (.visit e) = _
        simp only [outStep, hf, hk, if_neg (not_not.mpr he), if_neg hfull, herase]

/-- The registry as its clients and its feeder see it. -/
structure RegistrySafe (depth : Nat) (s : OutServer D) : Prop where
  /-- No channel was closed twice or sent on after it was closed. -/
  noPanic : s.panicked = false
  /-- What a feed in progress has to do it can do by itself. -/
  neverBlocks : s.feeding ≠ none →
    ∃ t, Leads (outServer depth) FeederLabel s t ∧ t.feeding = none
  /-- The numbers are given out in turn, as a `uint64` counts. -/
  ids : ∀ (i j : Nat) (p q : Pull D), s.pulls[i]? = some p → s.pulls[j]? = some q →
    (p.childId = q.childId ↔ i % 2 ^ 64 = j % 2 ^ 64)
  /-- The wait group counts the pulls that are not done. -/
  wg : s.childrenWG = s.pulls.countP (fun p => !p.book.returned)
  /-- A channel carries messages and then at most one close; the messages are
      taken from those fed, and with the drops they make up all of them, but
      for the one the feeder has in hand. -/
  accounts : ∀ (k : Nat) (p : Pull D), s.pulls[k]? = some p → Account (s.pending k) p
  /-- The drops are counted by peer. -/
  drops : ∀ peer, s.countersDrops.count peer = dropsOf s.books peer

theorem ofNat_succ_inj_iff (i j : Nat) :
    UInt64.ofNat (i + 1) = UInt64.ofNat (j + 1) ↔ i % 2 ^ 64 = j % 2 ^ 64 := by
  rw [← UInt64.toNat_inj, UInt64.toNat_ofNat', UInt64.toNat_ofNat']
  omega

/-- **THE REGISTRY IS SAFE UNDER ANY INTERLEAVING**. -/
theorem registry_safe {depth : Nat} {s : OutServer D}
    (h : Reach (outServer depth) anyStep s) : RegistrySafe depth s := by
  have hs := inv_of_reach h
  refine ⟨hs.safe, ?_, ?_, ?_, hs.accounts, hs.counted.drops⟩
  · intro hne
    obtain ⟨⟨data, left, sending⟩, hf⟩ := Option.ne_none_iff_exists'.mp hne
    cases sending with
    | none => exact hs.feeder_finishes left hf
    | some k =>
        obtain ⟨u, hpush, hu, hfu⟩ := hs.leads_push depth hf
        obtain ⟨t, hlead, ht⟩ := hu.feeder_finishes left hfu
        exact ⟨t, hpush.trans hlead, ht⟩
  · intro i j p q hp hq
    rw [hs.childId_eq hp, hs.childId_eq hq]
    exact ofNat_succ_inj_iff i j
  · rw [hs.counted.wg, OutServer.books, List.countP_map]
    rfl

/-- Two clients; one is fed twice and receives nothing, so that its channel of
    one is full the second time, and is then cancelled; the server removes the
    other. -/
theorem registry_safe_two_clients :
    ∃ s : OutServer Nat, Reach (outServer 1) anyStep s ∧ s.countersDrops = ["a"] ∧
      s.children = [] ∧ RegistrySafe 1 s := by
  let labels : List (OutLabel Nat) :=
    [.start "a", .start "b", .feed 7, .visit (1, 0), .push, .visit (2, 1), .push,
      .feedEnd, .recv 1, .send 1 true, .feed 8, .visit (2, 1), .push, .visit (1, 0), .feedEnd,
      .cancel 0, .remove 0, .done 0, .removeAll [(2, 1)], .recv 1, .send 1 true, .chanClosed 1,
      .remove 1, .done 1]
  have hs := reach_exec (S := (outServer 1 : System (OutServer Nat) _)) (P := anyStep) labels
    (fun _ _ _ => trivial) .init rfl
  exact ⟨_, hs, rfl, rfl, registry_safe hs⟩

/-- A client comes and goes while there is no other. -/
theorem exec_pull (hfree : s.feeding = none) (hempty : s.children = []) :
    ∃ t, exec (outServer depth) s [.start "", .cancel s.pulls.length, .remove s.pulls.length,
        .done s.pulls.length] = some t ∧
      t.feeding = none ∧ t.children = [] ∧
      ∃ p : Pull D, p.pc = .returned ∧ t.pulls = s.pulls ++ [p] := by
  have hset : ∀ p q : Pull D, (s.pulls ++ [p]).set s.pulls.length q = s.pulls ++ [q] := by
    intro p q
    rw [List.set_append_right _ _ (Nat.le_refl _), Nat.sub_self]
    rfl
  obtain ⟨ch, hclose⟩ : ∃ ch, (Chan.make depth : Chan D).close = .ok ch := ⟨_, rfl⟩
  refine ⟨{ s with
    childrenIndex := s.childrenIndex + 1, children := []
    pulls := s.pulls ++ [⟨"", ch, s.childrenIndex + 1, .returned, [], 0⟩] }, ?_, hfree, rfl,
    _, rfl, rfl⟩
  simp [exec, outServer, outStep, OutServer.addChild, hfree, hempty, GoMap.set, hset,
    OutServer.setPull, OutServer.removeChildUnprotected, GoMap.get, GoMap.del, hclose]

/-- Any number of clients may have come, each after the one before it was gone. -/
theorem reach_pulls : ∀ n : Nat, ∃ s : OutServer D,
    Reach (outServer depth) anyStep s ∧ s.feeding = none ∧ s.children = [] ∧
      s.pulls.length = n ∧ ∀ p ∈ s.pulls, p.pc = .returned := by
  intro n
  induction n with
  | zero => exact ⟨_, .init, rfl, rfl, rfl, fun p hp => absurd hp List.not_mem_nil⟩
  | succ n ih =>
      obtain ⟨s, hs, hfree, hempty, hlen, hgone⟩ := ih
      obtain ⟨t, hexec, htfree, htempty, p, hp, hpulls⟩ := exec_pull depth hfree hempty
      refine ⟨t, reach_exec _ (fun _ _ _ => trivial) hs hexec, htfree, htempty, ?_, ?_⟩
      · rw [hpulls, List.length_append, hlen]
        rfl
      · intro q hq
        rw [hpulls] at hq
        rcases List.mem_append.mp hq with hq | hq
        · exact hgone q hq
        · rw [List.mem_singleton.mp hq]
          exact hp

/-- After 2^64 clients, one at a time, the next one has the number of the first. -/
theorem childId_reused :
    ∃ s : OutServer Unit, Reach (outServer 1) anyStep s ∧ (∀ p ∈ s.pulls, p.pc = .returned) ∧
      ∃ (i j : Nat) (p q : Pull Unit), i ≠ j ∧ s.pulls[i]? = some p ∧ s.pulls[j]? = some q ∧
        p.childId = q.childId := by
  obtain ⟨s, hs, -, -, hlen, hgone⟩ := reach_pulls (D := Unit) 1 (2 ^ 64 + 1)
  have hinv := inv_of_reach hs
  have h0 : 0 < s.pulls.length := by omega
  have h1 : 2 ^ 64 < s.pulls.length := by omega
  refine ⟨s, hs, hgone, 0, 2 ^ 64, s.pulls[0], s.pulls[2 ^ 64], by omega,
    List.getElem?_eq_getElem h0, List.getElem?_eq_getElem h1, ?_⟩
  rw [hinv.childId_eq (List.getElem?_eq_getElem h0),
    hinv.childId_eq (List.getElem?_eq_getElem h1), ofNat_succ_inj_iff]
  omega

end PipelineGrpcOut
