import PipelineGnmi.GoChanProofs

/-! # Sending a list of messages to every channel

    The loop nest `for msg { for chan { chan <- msg } }` as the places it goes
    through.  `Owes` says what is still to be sent at a place: the channels before
    the current one have the current message, the others are one message behind.
    `Swept` ties that to the channels.  Sending at a place leads to the next one
    (`Swept.send`), and when the nest is through every channel carried the whole
    list in order. -/

namespace Sweep

open GoChan

variable {M : Type}

/-- Where the nest over `n` channels stands with these messages to go, at the
    channel of index `i`: none when it is through. -/
def place (n : Nat) : List M → Nat → Option (List M × Nat)
  | [], _ => none
  | msg :: rest, i =>
      if i < n then some (msg :: rest, i)
      else if n = 0 ∨ rest.length = 0 then none
      else some (rest, 0)

/-- Every channel is open and carried exactly these messages. -/
def AllCarry (chans : List (Chan M)) (msgs : List M) : Prop :=
  ∀ (j : Nat) (ch : Chan M), chans[j]? = some ch → ch.Carries msgs false

/-- New channels carried nothing. -/
theorem allCarry_make (caps : List Nat) : AllCarry (caps.map Chan.make : List (Chan M)) [] := by
  intro j ch hch
  obtain ⟨cap, -, rfl⟩ := List.mem_map.mp (List.mem_of_getElem? hch)
  exact Chan.carries_make cap

/-- Every channel is open, and holds no more than it can. -/
def AllOpen (chans : List (Chan M)) : Prop :=
  ∀ (j : Nat) (ch : Chan M), chans[j]? = some ch →
    (∃ msgs, ch.Carries msgs false) ∧ ch.buf.length ≤ ch.cap

theorem allOpen_make (caps : List Nat) : AllOpen (caps.map Chan.make : List (Chan M)) := by
  intro j ch hch
  refine ⟨⟨[], allCarry_make caps j ch hch⟩, ?_⟩
  obtain ⟨cap, -, rfl⟩ := List.mem_map.mp (List.mem_of_getElem? hch)
  exact Nat.zero_le _

theorem AllOpen.send {chans : List (Chan M)} (h : AllOpen chans) {i : Nat}
    {ch ch' : Chan M} {msg : M} {receiver : Bool} (hch : chans[i]? = some ch)
    (hs : ch.send msg receiver = .ok ch') : AllOpen (chans.set i ch') := by
  intro j c hc
  rcases getElem?_set_cases hc with ⟨-, rfl⟩ | ⟨-, hc⟩
  · obtain ⟨⟨msgs, hcarries⟩, hle⟩ := h i ch hch
    exact ⟨⟨msgs ++ [msg], hcarries.send hs⟩, Chan.send_le_cap hle hs⟩
  · exact h j c hc

variable {chans : List (Chan M)} {i n : Nat} {ch : Chan M} {at_ : Option (List M × Nat)}
  {before all : List M}

theorem AllOpen.recv (h : AllOpen chans) {ch' : Chan M} {m : M} (hch : chans[i]? = some ch)
    (hrecv : ch.recv = some (m, ch')) : AllOpen (chans.set i ch') := by
  intro j c hc
  rcases getElem?_set_cases hc with ⟨-, rfl⟩ | ⟨-, hc⟩
  · obtain ⟨⟨msgs, hcarries⟩, hle⟩ := h i ch hch
    exact ⟨⟨msgs, hcarries.recv hrecv⟩, Chan.recv_le_cap hle hrecv⟩
  · exact h j c hc

theorem AllOpen.send_ne_panic {chans : List (Chan M)} (h : AllOpen chans) {i : Nat}
    {ch : Chan M} (hch : chans[i]? = some ch) (msg : M) (receiver : Bool) :
    ch.send msg receiver ≠ .panic := by
  obtain ⟨⟨msgs, hcarries⟩, -⟩ := h i ch hch
  exact hcarries.send_ne_panic msg receiver

/-- A place of the nest has a message for a channel that exists. -/
theorem place_some {i' : Nat} {msgs msgs' : List M} (h : place n msgs i = some (msgs', i')) :
    i' < n ∧ ∃ msg rest, msgs' = msg :: rest := by
  cases msgs with
  | nil => cases h
  | cons msg rest =>
      rw [place] at h
      split at h
      · next hlt =>
          cases h
          exact ⟨hlt, msg, rest, rfl⟩
      · split at h
        · cases h
        · next hmore =>
            cases h
            cases msgs' with
            | nil => exact absurd (Or.inr rfl) hmore
            | cons msg' rest' =>
                exact ⟨Nat.pos_of_ne_zero (fun hz => hmore (Or.inl hz)), msg', rest', rfl⟩

/-- A goroutine at this place, if any, has a message for a channel that exists. -/
def Placed (n : Nat) (at_ : Option (List M × Nat)) : Prop :=
  ∀ msgs i, at_ = some (msgs, i) → i < n ∧ ∃ msg rest, msgs = msg :: rest

theorem placed_none (n : Nat) : Placed n (none : Option (List M × Nat)) :=
  fun _ _ h => (by cases h)

theorem placed_of_place {msgs : List M} (h : place n msgs i = at_) : Placed n at_ :=
  fun _ _ heq => place_some (h.trans heq)

theorem Placed.in_hand (h : Placed n at_) (hne : at_ ≠ none) :
    ∃ msg rest i, at_ = some (msg :: rest, i) ∧ i < n := by
  obtain ⟨⟨msgs, i⟩, heq⟩ := Option.ne_none_iff_exists'.mp hne
  obtain ⟨hi, msg, rest, rfl⟩ := h msgs i heq
  exact ⟨msg, rest, i, heq, hi⟩

/-- What a goroutine that goes through such nests does to the channels and to its
    place: it leaves the nest, it begins another, or it sends the current message. -/
inductive Turn (chans : List (Chan M)) (at_ : Option (List M × Nat)) :
    List (Chan M) → Option (List M × Nat) → Prop where
  | leaves : Turn chans at_ chans none
  | begins (msgs : List M) (hnone : at_ = none) :
      Turn chans at_ chans (place chans.length msgs 0)
  | sends {msg : M} {rest : List M} {i : Nat} {ch ch' : Chan M} {receiver : Bool}
      (hat : at_ = some (msg :: rest, i)) (hch : chans[i]? = some ch)
      (hsend : ch.send msg receiver = .ok ch') :
      Turn chans at_ (chans.set i ch') (place (chans.set i ch').length (msg :: rest) (i + 1))

section Turn

variable {chans chans' : List (Chan M)} {before after : Option (List M × Nat)}

theorem Turn.length (h : Turn chans before chans' after) : chans'.length = chans.length := by
  cases h with
  | leaves => rfl
  | begins => rfl
  | sends => exact List.length_set

theorem Turn.allOpen (h : Turn chans before chans' after) (hopen : AllOpen chans) :
    AllOpen chans' := by
  cases h with
  | leaves => exact hopen
  | begins => exact hopen
  | sends _ hch hsend => exact hopen.send hch hsend

theorem Turn.placed (h : Turn chans before chans' after) : Placed chans'.length after := by
  cases h with
  | leaves => exact placed_none _
  | begins => exact placed_of_place rfl
  | sends => exact placed_of_place rfl

/-- Nothing in hand, nothing sent. -/
theorem Turn.same (h : Turn chans none chans' after) : chans' = chans := by
  cases h with
  | leaves => rfl
  | begins => rfl
  | sends hat => cases hat

end Turn

/-- Past the last channel the nest starts over with the rest. -/
theorem place_wrap (hn : 0 < n) (hi : n ≤ i) (msg : M) (rest : List M) :
    place n (msg :: rest) i = place n rest 0 := by
  rw [place, if_neg (Nat.not_lt.mpr hi)]
  cases rest with
  | nil => rw [if_pos (Or.inr List.length_nil), place]
  | cons msg' rest' =>
      have hmore : ¬ (n = 0 ∨ (msg' :: rest').length = 0) := by
        rw [List.length_cons]
        omega
      rw [if_neg hmore, place, if_pos hn]

/-- How many sends are left at a place. -/
def left (n : Nat) : Option (List M × Nat) → Nat
  | none => 0
  | some (msgs, i) => msgs.length * n - i

/-- Each send leaves one less. -/
theorem left_next (hi : i < n) (msg : M) (rest : List M) :
    left n (place n (msg :: rest) (i + 1)) + 1 = left n (some (msg :: rest, i)) := by
  have hsucc : (msg :: rest).length * n = rest.length * n + n := by
    rw [List.length_cons, Nat.succ_mul]
  by_cases hlast : i + 1 < n
  · rw [place, if_pos hlast]
    simp only [left]
    omega
  · rw [place_wrap (by omega) (by omega)]
    cases rest with
    | nil =>
        simp only [place, left]
        simp only [List.length_nil, Nat.zero_mul] at hsucc
        omega
    | cons msg' rest' =>
        rw [place, if_pos (by omega)]
        simp only [left]
        omega

/-! ## The sequences of messages alone -/

/-- What the sequences come to when the nest is through with its messages. -/
def due (out : List (List M)) : Option (List M × Nat) → List (List M)
  | none => out
  | some (msgs, i) => out.mapIdx (fun j o => o ++ (if j < i then msgs.tail else msgs))

/-- From the start of the nest every sequence gets all the messages. -/
theorem due_start (out : List (List M)) (msgs : List M) :
    due out (place out.length msgs 0) = out.map (· ++ msgs) := by
  cases msgs with
  | nil => simp [place, due]
  | cons msg rest =>
      by_cases hn : 0 < out.length
      · rw [place, if_pos hn]
        refine List.ext_getElem (by simp [due]) (fun j _ _ => ?_)
        simp [due]
      · have hnil : out = [] := List.length_eq_zero_iff.mp (by omega)
        subst hnil
        rfl

/-- Appending the current message leaves the same to come. -/
theorem due_next {out : List (List M)} (hi : i < out.length) (msg : M) (rest : List M) :
    due (out.modify i (· ++ [msg])) (place out.length (msg :: rest) (i + 1))
      = due out (some (msg :: rest, i)) := by
  have hlen : (out.modify i (· ++ [msg])).length = out.length := List.length_modify ..
  by_cases hlast : i + 1 < out.length
  · rw [place, if_pos hlast]
    refine List.ext_getElem (by simp [due]) (fun j _ _ => ?_)
    simp only [due, List.getElem_mapIdx, List.getElem_modify]
    by_cases hj : i = j
    · subst hj
      simp
    · have hlt : j < i + 1 ↔ j < i := by omega
      simp [hj, hlt]
  · -- that was the last sequence, and the others have the message
    rw [place_wrap (by omega) (by omega), ← hlen, due_start]
    refine List.ext_getElem (by simp [due]) (fun j hj _ => ?_)
    rw [List.length_map, hlen] at hj
    simp only [due, List.getElem_map, List.getElem_mapIdx, List.getElem_modify]
    by_cases hji : i = j
    · subst hji
      simp
    · have hlt : j < i := by omega
      simp [hji, hlt]

/-- Nothing that is in a sequence is taken back. -/
theorem due_extends {out : List (List M)} (p : Option (List M × Nat)) {o : List M}
    (ho : o ∈ out) : ∃ d ∈ due out p, o <+: d := by
  cases p with
  | none => exact ⟨o, ho, List.prefix_rfl⟩
  | some q =>
      obtain ⟨j, hj, rfl⟩ := List.mem_iff_getElem.mp ho
      refine ⟨_, List.mem_iff_getElem.mpr ⟨j, by simpa [due] using hj, rfl⟩, ?_⟩
      simp [due]

variable {out : List (List M)} {total : List M}

/-- What was sent on the channels and is still in hand comes to `total` on each of
    them. -/
structure Owes (n : Nat) (out : List (List M)) (place : Option (List M × Nat))
    (total : List M) : Prop where
  length : out.length = n
  due : due out place = List.replicate n total

theorem owes_paid (n : Nat) (total : List M) : Owes n (List.replicate n total) none total :=
  ⟨List.length_replicate .., rfl⟩

theorem Owes.paid {o : List M} (h : Owes n out none total) (ho : o ∈ out) : o = total := by
  have hout : out = List.replicate n total := h.due
  rw [hout] at ho
  exact List.eq_of_mem_replicate ho

/-- More messages to send. -/
theorem Owes.more (h : Owes n out none total) (msgs : List M) :
    Owes n out (place n msgs 0) (total ++ msgs) := by
  refine ⟨h.length, ?_⟩
  have hout : out = List.replicate n total := h.due
  rw [← h.length, due_start, h.length, hout, List.map_replicate]

/-- One of them is sent. -/
theorem Owes.send (h : Owes n out (some (msg :: rest, i)) total) (hi : i < n) :
    Owes n (out.modify i (· ++ [msg])) (place n (msg :: rest) (i + 1)) total := by
  refine ⟨(List.length_modify ..).trans h.length, ?_⟩
  have hlt : i < out.length := h.length ▸ hi
  rw [← h.length, due_next hlt, h.length]
  exact h.due

/-- Nothing else was sent. -/
theorem Owes.begins {o : List M} (h : Owes n out p total) (ho : o ∈ out) : o <+: total := by
  obtain ⟨d, hd, hpre⟩ := due_extends p ho
  rw [h.due] at hd
  rwa [List.eq_of_mem_replicate hd] at hpre

/-- A channel is at most one message ahead of those behind it. -/
theorem Owes.abreast {j : Nat} {oj ok : List M} (h : Owes n out p total) (hjk : j ≤ k)
    (hj : out[j]? = some oj) (hk : out[k]? = some ok) : ok <+: oj ∧ oj.length ≤ ok.length + 1 := by
  have hdue : ∀ m, (Sweep.due out p)[m]? = if m < n then some total else none := by
    intro m
    rw [h.due, List.getElem?_replicate]
  have hin : ∀ {m o}, out[m]? = some o → m < n :=
    fun ho => h.length ▸ (List.getElem?_eq_some_iff.mp ho).1
  have hle : ok.length ≤ oj.length ∧ oj.length ≤ ok.length + 1 := by
    cases p with
    | none =>
        rw [h.paid (List.mem_of_getElem? hj), h.paid (List.mem_of_getElem? hk)]
        exact ⟨Nat.le_refl _, Nat.le_succ _⟩
    | some q =>
        -- a channel that has the current message waits for one message less
        have hlen : ∀ {m : Nat} {o}, out[m]? = some o →
            o.length + (if m < q.2 then q.1.length - 1 else q.1.length) = total.length := by
          intro m o ho
          have hm := hdue m
          simp only [Sweep.due, List.getElem?_mapIdx, ho, Option.map_some, if_pos (hin ho),
            Option.some.injEq] at hm
          rw [← hm, List.length_append]
          split
          · rw [List.length_tail]
          · rfl
        have hjlen := hlen hj
        have hklen := hlen hk
        split at hjlen <;> split at hklen <;> omega
  have hbegins := h.begins (List.mem_of_getElem? hk)
  exact ⟨List.prefix_of_prefix_length_le hbegins (h.begins (List.mem_of_getElem? hj)) hle.1, hle.2⟩

/-! ## The channels -/

/-- How far the channels are at a place of the nest over `all`, having carried
    `before` when it started. -/
def Swept (chans : List (Chan M)) (before all : List M) (at_ : Option (List M × Nat)) : Prop :=
  Placed chans.length at_ ∧ ∃ out, Owes chans.length out at_ (before ++ all) ∧
    ∀ (j : Nat) (ch : Chan M), chans[j]? = some ch →
      ∃ part, out[j]? = some (before ++ part) ∧ ch.Carries (before ++ part) false

/-- The channels at the end of the nest. -/
theorem swept_none : Swept chans before all none ↔ AllCarry chans (before ++ all) := by
  constructor
  · rintro ⟨-, out, howes, hcarry⟩ j ch hch
    obtain ⟨part, hpart, hcarries⟩ := hcarry j ch hch
    rw [← howes.paid (List.mem_of_getElem? hpart)]
    exact hcarries
  · intro h
    refine ⟨placed_none _, _, owes_paid _ _, fun j ch hch => ⟨all, ?_, h j ch hch⟩⟩
    rw [List.getElem?_replicate, if_pos (List.getElem?_eq_some_iff.mp hch).1]

/-- The channels at the start of the nest. -/
theorem swept_start (h : AllCarry chans before) (all : List M) :
    Swept chans before all (place chans.length all 0) := by
  refine ⟨placed_of_place rfl, _, (owes_paid _ before).more all, fun j ch hch => ⟨[], ?_, ?_⟩⟩
  · rw [List.getElem?_replicate, if_pos (List.getElem?_eq_some_iff.mp hch).1, List.append_nil]
  · rw [List.append_nil]
    exact h j ch hch

/-- **A SEND LEADS TO THE NEXT PLACE**. -/
theorem Swept.send {msg : M} {rest : List M} (h : Swept chans before all (some (msg :: rest, i)))
    {ch' : Chan M} {receiver : Bool} (hch : chans[i]? = some ch)
    (hs : ch.send msg receiver = .ok ch') :
    Swept (chans.set i ch') before all (place chans.length (msg :: rest) (i + 1)) := by
  obtain ⟨-, out, howes, hcarry⟩ := h
  rw [Swept, List.length_set]
  refine ⟨placed_of_place rfl, _, howes.send (List.getElem?_eq_some_iff.mp hch).1,
    fun j c hc => ?_⟩
  rcases getElem?_set_cases hc with ⟨rfl, rfl⟩ | ⟨hne, hc⟩
  · obtain ⟨part, hpart, hcarries⟩ := hcarry j ch hch
    refine ⟨part ++ [msg], ?_, ?_⟩
    · rw [List.getElem?_modify_eq, hpart, ← List.append_assoc]
      rfl
    · rw [← List.append_assoc]
      exact hcarries.send hs
  · rw [List.getElem?_modify_ne _ _ (Ne.symm hne)]
    exact hcarry j c hc

theorem Swept.opened (h : Swept chans before all at_) (hch : chans[i]? = some ch) :
    ∃ msgs, ch.Carries msgs false := by
  obtain ⟨-, out, -, hcarry⟩ := h
  obtain ⟨part, -, hcarries⟩ := hcarry i ch hch
  exact ⟨_, hcarries⟩

theorem Swept.send_ne_panic (h : Swept chans before all at_) (hch : chans[i]? = some ch) (msg : M)
    (receiver : Bool) : ch.send msg receiver ≠ .panic := by
  obtain ⟨_, hcarries⟩ := h.opened hch
  exact hcarries.send_ne_panic msg receiver

/-- A receive from one of the channels changes nothing that was sent. -/
theorem Swept.recv (h : Swept chans before all at_) {ch' : Chan M} {m : M}
    (hch : chans[i]? = some ch) (hrecv : ch.recv = some (m, ch')) :
    Swept (chans.set i ch') before all at_ := by
  obtain ⟨hplaced, out, howes, hcarry⟩ := h
  rw [Swept, List.length_set]
  refine ⟨hplaced, out, howes, fun j c hc => ?_⟩
  rcases getElem?_set_cases hc with ⟨rfl, rfl⟩ | ⟨-, hc⟩
  · obtain ⟨part, hpart, hcarries⟩ := hcarry j ch hch
    exact ⟨part, hpart, hcarries.recv hrecv⟩
  · exact hcarry j c hc

/-- At every place, a channel carried what came before and a beginning of the
    list. -/
theorem Swept.carries (h : Swept chans before all at_) (hch : ch ∈ chans) :
    ∃ part, part <+: all ∧ ch.Carries (before ++ part) false := by
  obtain ⟨-, out, howes, hcarry⟩ := h
  obtain ⟨j, hj⟩ := List.mem_iff_getElem?.mp hch
  obtain ⟨part, hpart, hcarries⟩ := hcarry j ch hj
  have hbegins := howes.begins (List.mem_of_getElem? hpart)
  exact ⟨part, (List.prefix_append_right_inj before).mp hbegins, hcarries⟩

/-- Of two channels the nest is ahead with the first, by one message at most. -/
theorem Swept.abreast (h : Swept chans before all at_) {j k : Nat} (hjk : j ≤ k) {chj chk : Chan M}
    (hj : chans[j]? = some chj) (hk : chans[k]? = some chk) :
    ∃ ahead behind, chj.Carries ahead false ∧ chk.Carries behind false ∧
      ahead <+: before ++ all ∧ behind <+: ahead ∧ ahead.length ≤ behind.length + 1 := by
  obtain ⟨-, out, howes, hcarry⟩ := h
  obtain ⟨pj, hpj, hcj⟩ := hcarry j chj hj
  obtain ⟨pk, hpk, hck⟩ := hcarry k chk hk
  obtain ⟨hpre, hlen⟩ := howes.abreast hjk hpj hpk
  exact ⟨_, _, hcj, hck, howes.begins (List.mem_of_getElem? hpj), hpre, hlen⟩

end Sweep
