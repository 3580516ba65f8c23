import PipelineGnmi.ReplayProofs

/-! # One tick of the replay input

    The inner loop of `replayInputFeederLoop` (`replay.go`) iterates until a
    message is produced, and goes back to the start of the archive when there
    is nothing left to read.  Nothing left to read is also what it finds behind
    a header that ends the archive, so an archive may have it go round without
    ever producing a message.

    `Barren` says which archives these are, without the parser: frames that
    make no message, then at most a header.  Every tick terminates unless the
    replay loops over a barren archive (`ticks_terminate_iff`).

    With `firstn` set the configuration leaves looping off, so the replay ends
    with the archive, however many messages were asked for
    (`firstn_wraps_iff`). -/

namespace PipelineReplayTick

open PipelineMessage PipelineDataMsg PipelineEncapSt PipelineFrames PipelineReplay

variable {M : Type}

/-! ## Archives that make no message -/

/-- The octets make no message and end between two blocks: frames without
    messages, then nothing or a header. -/
inductive Barren (decode : Encoding → Codec M) (source : MsgProducer) : Octets → Prop where
  | nil : Barren decode source []
  | hdr {hdr : Octets} {e : Encoding} :
      HdrOk hdr e → 1 ≤ (decodeHdr hdr).msglen → Barren decode source hdr
  | frame {f rest : Octets} :
      FrameResult decode source f none → Barren decode source rest →
      Barren decode source (f ++ rest)

section Ticks

variable {decode : Encoding → Codec M} {t : ReplayInputModule}
  {full : Nat → Nat → Nat → Bool} {st : ReplayState M}

/-- The loop is through within so many iterations; if it produced messages, it
    did so between two frames. -/
def Through (decode : Encoding → Codec M) (t : ReplayInputModule)
    (full : Nat → Nat → Nat → Bool) (fuel : Nat) (st : ReplayState M) : Prop :=
  ∃ r, innerLoop decode t full fuel st = some r ∧ ∀ st', r = .produced st' →
    Idle decode t.producer st'.parser ∧ st'.archive = st.archive

variable {st' : ReplayState M} {fuel : Nat}

theorem through_returned {err : Option GoError} (h : innerIter decode t full st = .returned err st')
    (fuel : Nat) : Through decode t full (fuel + 1) st :=
  ⟨_, innerLoop_returned h fuel, fun _ h => by cases h⟩

theorem Through.of_again (h : innerIter decode t full st = .again st')
    (harch : st'.archive = st.archive) (hst : Through decode t full fuel st') :
    Through decode t full (fuel + 1) st := by
  obtain ⟨r, hr, hprod⟩ := hst
  refine ⟨r, (skips_again h fuel).trans hr, ?_⟩
  intro st'' hst''
  rw [← harch]
  exact hprod st'' hst''

/-- The replay starts over. -/
def StartsOver (decode : Encoding → Codec M) (t : ReplayInputModule)
    (full : Nat → Nat → Nat → Bool) (n : Nat) (st : ReplayState M) : Prop :=
  t.loop = true ∧ ∃ p, Idle decode t.producer p ∧
    Skips decode t full n st { st with unread := st.archive, parser := p }

theorem eof_cases {n : Nat} (hbuf : nextBlockBuffer st.parser = .ok n) (hn : 0 < n)
    (hun : st.unread = []) :
    (t.loop = false ∧ Through decode t full 1 st) ∨ StartsOver decode t full 1 st := by
  have heof := @innerIter_eof M decode t full st n hbuf hn hun
  rcases heof with ⟨hloop, h⟩ | ⟨hloop, p, hi, h⟩
  · exact Or.inl ⟨hloop, through_returned h 0⟩
  · exact Or.inr ⟨hloop, p, hi, skips_again h⟩

/-- What becomes of the payload of a header. -/
theorem pending_cases {p : EncapSTParser M} (hi : Idle decode t.producer p)
    {hdr : EncapSTHdr} {e : Encoding} (he : msgEncapEncoding hdr.msgEncap = some e)
    (hp : st.parser = pending decode p hdr e) (hle : hdr.msglen ≤ encStMaxPayload) :
    Through decode t full 1 st ∨
      (∃ payload rest, st.unread = payload ++ rest ∧ 1 ≤ hdr.msglen ∧
        payload.length = hdr.msglen.toNat ∧ decode e t.producer payload = .ok none ∧
        innerIter decode t full st
          = .again { st with parser := settled decode p hdr e, unread := rest }) ∨
      (1 ≤ hdr.msglen ∧ st.unread = [] ∧ StartsOver decode t full 1 st) := by
  by_cases hzero : hdr.msglen = 0
  · -- the parser has no buffer to offer
    have hbuf : nextBlockBuffer st.parser = .error "ENCAP  ST: req 0 size buffer" := by
      rw [hp]
      exact if_pos hzero
    have hiter : innerIter decode t full st
        = .returned (some "ENCAP  ST: req 0 size buffer") { st with done := true } := by
      simp only [innerIter, hbuf]
    exact Or.inl (through_returned hiter 0)
  · have hpos : 1 ≤ hdr.msglen := UInt32.pos_iff_ne_zero.mpr hzero
    have hbuf : nextBlockBuffer st.parser = .ok hdr.msglen.toNat := by
      rw [hp, nextBlockBuffer_pending decode p e hle hpos]
    by_cases hlt : st.unread.length < hdr.msglen.toNat
    · by_cases hnil : st.unread = []
      · have hsome := Nat.pos_of_ne_zero (msglen_ne_zero hpos)
        rcases @eof_cases M decode t full st _ hbuf hsome hnil with ⟨-, h⟩ | h
        · exact Or.inl h
        · exact Or.inr (Or.inr ⟨hpos, hnil, h⟩)
      · obtain ⟨st', h⟩ := innerIter_short hbuf hlt hnil
        exact Or.inl (through_returned h 0)
    · have hlen : (st.unread.take hdr.msglen.toNat).length = hdr.msglen.toNat := by
        rw [List.length_take]
        omega
      have hun := (List.take_append_drop hdr.msglen.toNat st.unread).symm
      have hiter := @innerIter_payload M decode t full st p hi hdr e hp hpos hle _ _ hlen hun
      cases hd : decode e t.producer (st.unread.take hdr.msglen.toNat) with
      | error err =>
          rw [hd] at hiter
          exact Or.inl (through_returned hiter 0)
      | ok r =>
          rw [hd] at hiter
          cases r with
          | none => exact Or.inr (Or.inl ⟨_, _, hun, hpos, hlen, hd, hiter⟩)
          | some msgs =>
              refine Or.inl ⟨_, innerLoop_produced hiter 0, ?_⟩
              intro st' hst'
              cases hst'
              exact ⟨idle_settled hi he, rfl⟩

/-- **FROM FRAME TO FRAME**: the loop is through, or passes a frame that makes no
    message, or starts over from what is left of a barren archive. -/
theorem idle_cases (hi : Idle decode t.producer st.parser) :
    Through decode t full 2 st ∨
      (∃ f st', FrameResult decode t.producer f none ∧ st.unread = f ++ st'.unread ∧
        Idle decode t.producer st'.parser ∧ st'.archive = st.archive ∧
        Skips decode t full 2 st st') ∨
      (Barren decode t.producer st.unread ∧ ∃ n, 0 < n ∧ StartsOver decode t full n st) := by
  have hbuf := nextBlockBuffer_idle hi
  by_cases hlt : st.unread.length < encStHdrSize
  · by_cases hnil : st.unread = []
    · rcases @eof_cases M decode t full st _ hbuf (by decide) hnil with ⟨-, r, hr, hprod⟩ | h
      · exact Or.inl ⟨r, innerLoop_mono hr 1, hprod⟩
      · exact Or.inr (Or.inr ⟨hnil ▸ .nil, 1, Nat.one_pos, h⟩)
    · obtain ⟨st', h⟩ := @innerIter_short M decode t full st _ hbuf hlt hnil
      exact Or.inl (through_returned h 1)
  · have hsize : (st.unread.take encStHdrSize).length = encStHdrSize := by
      rw [List.length_take]
      omega
    have hun := (List.take_append_drop encStHdrSize st.unread).symm
    generalize st.unread.take encStHdrSize = hdr at hsize hun
    generalize st.unread.drop encStHdrSize = rest at hun
    rcases nextBlock_hdr hi hsize with ⟨e, he, hflag, hle, -⟩ | ⟨-, p', err, hrefused⟩
    · have hok : HdrOk hdr e := ⟨hsize, he, hflag, hle⟩
      have hiter := @innerIter_hdr M decode t full st hi hdr rest e hok hun
      rcases @pending_cases M decode t full (behindHdr decode st hdr e rest)
          st.parser hi (decodeHdr hdr) e he rfl hle with
        h | ⟨payload, rest', hrest, hpos, hlen, hd, h⟩ | ⟨hpos, hrest, hloop, p, hp, h⟩
      · exact Or.inl (Through.of_again hiter rfl h)
      · refine Or.inr (Or.inl ⟨hdr ++ payload, _, ?_, ?_, idle_settled hi he, ?_,
          (skips_again hiter).trans (skips_again h)⟩)
        · exact ⟨hdr, payload, e, rfl, hsize, he, hflag, hpos, hle, hlen, hd⟩
        · rw [hun, List.append_assoc]
          exact congrArg (hdr ++ ·) hrest
        · rfl
      · refine Or.inr (Or.inr ⟨?_, 2, by decide, hloop, p, hp,
          (skips_again hiter).trans h⟩)
        obtain rfl : rest = [] := hrest
        rw [hun, List.append_nil]
        exact .hdr hok hpos
    · have hiter : innerIter decode t full st
          = .returned (some err) { st with parser := p', unread := rest, done := true } := by
        simp only [innerIter, hbuf, hun, readFull_append hsize, hrefused]
      exact Or.inl (through_returned hiter 1)

/-- A loop that has something to find is through in the end. -/
theorem through_of_not_barren (hi : Idle decode t.producer st.parser)
    (hb : ¬ Barren decode t.producer st.unread) : ∃ fuel, Through decode t full fuel st := by
  -- on what is left to read: a frame that is passed shortens it
  induction hn : st.unread.length using Nat.strong_induction_on generalizing st with
  | _ n ih =>
      rcases @idle_cases M decode t full st hi with
        h | ⟨f, st', hf, hun, hi', harch, hskip⟩ | ⟨h, -⟩
      · exact ⟨2, h⟩
      · have hlt : st'.unread.length < n := by
          have hpos := validFrame_length_pos ⟨none, hf, rfl⟩
          rw [← hn, hun, List.length_append]
          omega
        obtain ⟨fuel, r, hr, hprod⟩ :=
          ih _ hlt hi' (fun h => hb (hun ▸ .frame hf h)) rfl
        exact ⟨fuel + 2, r, (hskip fuel).trans hr, fun st'' h => harch ▸ hprod st'' h⟩
      · exact absurd h hb

/-- What is left of a barren archive is read to its end, where the replay ends
    or starts over. -/
theorem barren_cases {s : Octets} (hb : Barren decode t.producer s)
    (hi : Idle decode t.producer st.parser) (hun : st.unread = s) :
    (t.loop = false ∧ ∃ fuel, Through decode t full fuel st) ∨
      ∃ n, 0 < n ∧ StartsOver decode t full n st := by
  induction hb generalizing st with
  | nil =>
      rcases @eof_cases M decode t full st _ (nextBlockBuffer_idle hi) (by decide) hun with
        ⟨hloop, h⟩ | h
      · exact Or.inl ⟨hloop, 1, h⟩
      · exact Or.inr ⟨1, Nat.one_pos, h⟩
  | @hdr hdr e hok hpos =>
      have hiter := @innerIter_hdr M decode t full st hi hdr [] e hok
        (by rw [hun, List.append_nil])
      have hbuf := nextBlockBuffer_pending decode st.parser e hok.len hpos
      have hsome := Nat.pos_of_ne_zero (msglen_ne_zero hpos)
      rcases @eof_cases M decode t full (behindHdr decode st hdr e []) _ hbuf hsome rfl with
        ⟨hloop, h⟩ | ⟨hloop, p, hp, h⟩
      · exact Or.inl ⟨hloop, 2, Through.of_again hiter rfl h⟩
      · exact Or.inr ⟨2, by decide, hloop, p, hp, (skips_again hiter).trans h⟩
  | @frame f rest hf _ ih =>
      obtain ⟨hdr, payload, e, rfl, hsize, he, hflag, hpos, hle, hlen, hd⟩ := hf
      have hiter := @innerIter_hdr M decode t full st hi hdr (payload ++ rest) e
        ⟨hsize, he, hflag, hle⟩ (by rw [hun, List.append_assoc])
      have hpay := @innerIter_payload M decode t full
        (behindHdr decode st hdr e (payload ++ rest)) st.parser hi (decodeHdr hdr) e rfl hpos
        hle payload rest hlen rfl
      rw [hd] at hpay
      have hskip := (skips_again hiter).trans (skips_again hpay)
      rcases @ih (behindFrame decode st hdr e rest) (idle_settled hi he) rfl with
        ⟨hloop, fuel, r, hr, hprod⟩ | ⟨n, hn, hloop, p, hp, h⟩
      · exact Or.inl ⟨hloop, fuel + 2, r, (hskip fuel).trans hr, hprod⟩
      · exact Or.inr ⟨n + 2, by omega, hloop, p, hp, hskip.trans h⟩

/-- **A TICK IS THROUGH**, unless the replay loops over a barren archive. -/
theorem tick_through (hi : Idle decode t.producer st.parser)
    (hb : ¬ (t.loop = true ∧ Barren decode t.producer st.archive)) :
    ∃ fuel, Through decode t full fuel st := by
  by_cases hleft : Barren decode t.producer st.unread
  · rcases @barren_cases M decode t full st _ hleft hi rfl with
      ⟨-, h⟩ | ⟨n, -, hloop, p, hp, hskip⟩
    · exact h
    · have hfruit : ¬ Barren decode t.producer st.archive := fun h => hb ⟨hloop, h⟩
      obtain ⟨fuel, r, hr, hprod⟩ := @through_of_not_barren M decode t full
        { st with unread := st.archive, parser := p } hp hfruit
      exact ⟨fuel + n, r, (hskip fuel).trans hr, hprod⟩
  · exact through_of_not_barren hi hleft

/-- Looping over a barren archive never ends. -/
theorem innerLoop_barren (hloop : t.loop = true) {archive : Octets}
    (hb : Barren decode t.producer archive) :
    ∀ (fuel : Nat) (st : ReplayState M), Idle decode t.producer st.parser →
      st.archive = archive → st.unread = archive → innerLoop decode t full fuel st = none := by
  intro fuel
  induction fuel using Nat.strong_induction_on with
  | _ fuel ih =>
      intro st hi harch hun
      cases hr : innerLoop decode t full fuel st with
      | none => rfl
      | some r =>
          rcases @barren_cases M decode t full st _ hb hi hun with
            ⟨hoff, -⟩ | ⟨n, hn, -, p, hp, hskip⟩
          · rw [hloop] at hoff
            cases hoff
          · obtain ⟨fuel', hfuel, hr'⟩ := hskip.through hr
            have hnone := ih fuel' (by omega) { st with unread := st.archive, parser := p } hp
              harch harch
            rw [hnone] at hr'
            cases hr'

theorem tick_barren (hloop : t.loop = true) (hb : Barren decode t.producer st.archive)
    (hi : Idle decode t.producer st.parser) (hun : st.unread = st.archive)
    (hdone : st.done = false) : tick decode t full fuel st = none := by
  rw [tick, if_neg (by rw [hdone]; exact Bool.false_ne_true),
    innerLoop_barren hloop hb fuel st hi rfl hun]

theorem innerLoop_ne_again : ∀ (fuel : Nat) (st st' : ReplayState M),
    innerLoop decode t full fuel st ≠ some (.again st') := by
  intro fuel
  induction fuel with
  | zero =>
      intro st st' h
      cases h
  | succ fuel ih =>
      intro st st' h
      unfold innerLoop at h
      cases hiter : innerIter decode t full st with
      | again st₁ =>
          simp only [hiter] at h
          exact ih st₁ st' h
      | produced st₁ =>
          simp only [hiter] at h
          cases h
      | returned err st₁ =>
          simp only [hiter] at h
          cases h

/-- Between ticks the parser is between frames. -/
theorem tick_idle (hi : Idle decode t.producer st.parser)
    (hb : ¬ (t.loop = true ∧ Barren decode t.producer st.archive))
    (h : tick decode t full fuel st = some (.running st')) :
    Idle decode t.producer st'.parser ∧ st'.archive = st.archive := by
  unfold tick at h
  split at h
  · cases h
    exact ⟨hi, rfl⟩
  · obtain ⟨fuel', r, hr, hprod⟩ := @tick_through M decode t full st hi hb
    cases hloop : innerLoop decode t full fuel st with
    | none =>
        rw [hloop] at h
        cases h
    | some r' =>
        rw [hloop] at h
        cases r' with
        | again st₁ => exact absurd hloop (innerLoop_ne_again fuel st st₁)
        | produced st₁ =>
            cases h
            exact hprod _ (innerLoop_unique hr hloop)
        | returned err st₁ => cases h

theorem ticks_idle :
    ∀ (k : Nat) {st st' : ReplayState M}, Idle decode t.producer st.parser →
      ¬ (t.loop = true ∧ Barren decode t.producer st.archive) →
      ticks decode t full fuel k st = some (.running st') →
      Idle decode t.producer st'.parser ∧ st'.archive = st.archive := by
  intro k
  induction k with
  | zero =>
      intro st st' hi _ h
      cases h
      exact ⟨hi, rfl⟩
  | succ k ih =>
      intro st st' hi hb h
      unfold ticks at h
      split at h
      · cases h
      · next st₁ htick =>
          obtain ⟨hi₁, harch⟩ := tick_idle hi hb htick
          obtain ⟨hi', harch'⟩ := ih hi₁ (by rw [harch]; exact hb) h
          exact ⟨hi', harch'.trans harch⟩
      · cases h

end Ticks

/-- **EVERY TICK TERMINATES, UNLESS THE REPLAY LOOPS OVER A BARREN ARCHIVE**, in
    whatever state the ticks before have left the feeder. -/
theorem ticks_terminate_iff (decode : Encoding → Codec M) (t : ReplayInputModule)
    (full : Nat → Nat → Nat → Bool) (archive : Octets) (dataChans : List (List M)) :
    ∃ start, startFeeder decode t archive dataChans = .ok start ∧
      ((∀ k fuel st, ticks decode t full fuel k start = some (.running st) →
          ∃ fuel' f, tick decode t full fuel' st = some f) ↔
        ¬ (t.loop = true ∧ Barren decode t.producer archive)) := by
  obtain ⟨p, hi, hstart⟩ := startFeeder_idle decode t archive dataChans
  refine ⟨_, hstart, ?_, ?_⟩
  · rintro hall ⟨hloop, hb⟩
    obtain ⟨fuel, f, hf⟩ := hall 0 0 _ rfl
    rw [tick_barren hloop hb hi rfl rfl] at hf
    cases hf
  · intro hb k fuel st hst
    obtain ⟨hi', harch⟩ := @ticks_idle M decode t full fuel k
      ⟨p, archive, archive, false, 0, dataChans⟩ st hi hb hst
    obtain ⟨fuel', r, hr, -⟩ := @tick_through M decode t full st hi' (by rw [harch]; exact hb)
    refine ⟨fuel', ?_⟩
    unfold tick
    rw [hr]
    split
    · exact ⟨_, rfl⟩
    · cases r <;> exact ⟨_, rfl⟩

variable {archive : Octets} {st : ReplayState M} {n : Nat} {msgs : List M} (lib : ProtoLib)
  (xlation : String → Option String)

/-- A codec that returns no error returns messages. -/
theorem blockToDataMsgs_ne_nil (e : Encoding) (source : MsgProducer) (block : Octets) :
    blockToDataMsgs lib xlation e source block ≠ .ok none := by
  intro h
  cases e with
  | gpb =>
      obtain ⟨tel, -, hnone⟩ := codecGPB_ok h
      cases hnone
  | gpbCompact =>
      obtain ⟨target, newContent, -, hnone⟩ := codecGPBLegacyPDT_ok h
      cases hnone
  | json => cases h
  | _ => cases h

/-- The codecs of this program make a message or an error of any block, so a
    barren archive is empty or a header. -/
theorem barren_iff (source : MsgProducer) (s : Octets) :
    Barren (blockToDataMsgs lib xlation) source s ↔
      s = [] ∨ ∃ e, HdrOk s e ∧ 1 ≤ (decodeHdr s).msglen := by
  constructor
  · intro h
    cases h with
    | nil => exact Or.inl rfl
    | hdr hok hpos => exact Or.inr ⟨_, hok, hpos⟩
    | frame hf _ =>
        obtain ⟨hdr, payload, e, -, -, -, -, -, -, -, hd⟩ := hf
        exact absurd hd (blockToDataMsgs_ne_nil lib xlation e source payload)
  · rintro (rfl | ⟨e, hok, hpos⟩)
    · exact .nil
    · exact .hdr hok hpos

/-- A replay in a loop. -/
def loopingReplay : ReplayInputModule := ⟨"replay_bin", "dump.bin", 0, true⟩

variable {decode : Encoding → Codec M} {t : ReplayInputModule} {fuel : Nat} (source : MsgProducer)

/-- In a loop over a barren archive the first tick goes round for ever. -/
theorem barren_spins (hloop : t.loop = true) (hb : Barren decode t.producer archive)
    (full : Nat → Nat → Nat → Bool) (dataChans : List (List M)) :
    ∃ start, startFeeder decode t archive dataChans = .ok start ∧
      ∀ fuel, tick decode t full fuel start = none := by
  obtain ⟨p, hi, hstart⟩ := startFeeder_idle decode t archive dataChans
  exact ⟨_, hstart, fun _ => tick_barren hloop hb hi rfl rfl⟩

/-- No more than the header of a JSON message of two octets. -/
def headerOnly : Octets := [0, 1, 0, 2, 0, 1, 0, 0, 0, 0, 0, 2]

theorem headerOnly_barren : Barren wholeBlocks source headerOnly :=
  .hdr (e := .json) ⟨rfl, rfl, rfl, by decide⟩ (by decide)

/-- An archive with nothing in it, and one with no more than a header. -/
theorem barren_archive_spins :
    (∃ start, startFeeder wholeBlocks loopingReplay [] [[]] = .ok start ∧
      ∀ fuel, tick wholeBlocks loopingReplay (fun _ _ _ => false) fuel start = none) ∧
    (∃ start, startFeeder wholeBlocks loopingReplay headerOnly [[]] = .ok start ∧
      ∀ fuel, tick wholeBlocks loopingReplay (fun _ _ _ => false) fuel start = none) :=
  ⟨barren_spins rfl .nil _ _, barren_spins rfl (headerOnly_barren _) _ _⟩

/-! ## A number of messages -/

/-- `configure`, what it makes of the options of a replay input; looping is only
    asked for when no number of messages is. -/
def configure (name filename : String) (firstn : Option Int) (loop : Option Bool) :
    ReplayInputModule where
  name := name
  filename := filename
  firstN := firstn.getD 0
  loop := if firstn.getD 0 = 0 then loop.getD false else false

/-- A feeder that is done only waits. -/
theorem ticks_done {full : Nat → Nat → Nat → Bool} (h : st.done = true) :
    ∀ k, ticks decode t full fuel k st = some (.running st) := by
  intro k
  induction k with
  | zero => rfl
  | succ k ih =>
      have htick : tick decode t full fuel st = some (.running st) := by
        rw [tick, if_pos h]
      rw [ticks, htick]
      exact ih

/-- The feeder is where so many ticks leave it, running or returned without an
    error. -/
def After (decode : Encoding → Codec M) (t : ReplayInputModule) (fuel k : Nat)
    (st st' : ReplayState M) : Prop :=
  ticks decode t neverFull fuel k st = some (.running st') ∨
    ticks decode t neverFull fuel k st = some (.returned none st')

theorem After.of_tick {k : Nat} {st₁ st' : ReplayState M}
    (h : tick decode t neverFull fuel st = some (.running st₁))
    (hafter : After decode t fuel k st₁ st') : After decode t fuel (k + 1) st st' := by
  unfold After ticks
  rw [h]
  exact hafter

/-- A run over an archive of frames with a limit and without looping: a frame
    for each tick, until either runs out. -/
theorem ticks_firstn (hloop : t.loop = false) (hfirst : t.firstN = n) (hfuel : 2 ≤ fuel) :
    ∀ (fs : List (Octets × M)) (st : ReplayState M),
      Idle decode t.producer st.parser → st.done = false → st.count < n →
      st.unread = (fs.map Prod.fst).flatten →
      (∀ x ∈ fs, FrameResult decode t.producer x.1 (some [x.2])) →
      ∀ k, ∃ st', After decode t fuel k st st' ∧
        st'.dataChans
          = st.dataChans.map (· ++ (fs.map Prod.snd).take (min k (n - st.count))) := by
  intro fs
  induction fs with
  | nil =>
      intro st hi hdone _ hun _ k
      refine ⟨st, ?_, by simp⟩
      cases k with
      | zero => exact Or.inl rfl
      | succ k =>
          have hend := tick_end hloop hi hdone hun (show 1 ≤ fuel by omega)
          exact Or.inr (by rw [ticks, hend])
  | cons x rest ih =>
      intro st hi hdone hcount hun hfs k
      cases k with
      | zero => exact ⟨st, Or.inl rfl, by simp⟩
      | succ k =>
          obtain ⟨p', hi', htick⟩ := tick_frame hi hdone hun (hfs x List.mem_cons_self) hfuel
          have hrest : ∀ y ∈ rest, FrameResult decode t.producer y.1 (some [y.2]) :=
            fun y hy => hfs y (List.mem_cons_of_mem _ hy)
          by_cases hlast : st.count + 1 = n
          · -- the last message asked for: the feeder is done, and stays where it is
            have hdec : decide ((st.count + 1 : Int) = t.firstN ∧ t.firstN ≠ 0) = true :=
              decide_eq_true (by rw [hfirst]; omega)
            rw [hdec] at htick
            refine ⟨_, After.of_tick htick (Or.inl (ticks_done rfl k)), ?_⟩
            rw [show min (k + 1) (n - st.count) = 1 by omega, List.map_cons, List.take_succ_cons,
              List.take_zero]
          · have hdec : decide ((st.count + 1 : Int) = t.firstN ∧ t.firstN ≠ 0) = false :=
              decide_eq_false (by rw [hfirst]; omega)
            rw [hdec] at htick
            obtain ⟨st', hafter, hchans⟩ := ih
              { st with
                parser := p'
                unread := (rest.map Prod.fst).flatten
                dataChans := st.dataChans.map (· ++ [x.2])
                count := st.count + 1
                done := false } hi' rfl (by simp only; omega) rfl hrest k
            refine ⟨st', After.of_tick htick hafter, ?_⟩
            rw [hchans, List.map_map, show min (k + 1) (n - st.count)
              = min k (n - (st.count + 1)) + 1 by omega, List.map_cons, List.take_succ_cons]
            refine List.map_congr_left ?_
            intro c _
            show c ++ [x.2] ++ _ = _
            rw [List.append_assoc]
            rfl

/-- The replay delivers these messages to every channel, one for each tick, and
    nothing more however many ticks follow. -/
def DeliversExactly (decode : Encoding → Codec M) (t : ReplayInputModule) (archive : Octets)
    (dataChans : List (List M)) (out : List M) : Prop :=
  ∃ start, startFeeder decode t archive dataChans = .ok start ∧
    ∀ fuel, 2 ≤ fuel → ∀ k, out.length ≤ k →
      ∃ st, After decode t fuel k start st ∧ st.dataChans = dataChans.map (· ++ out)

/-- What is delivered is one thing, if there is a channel to see it on. -/
theorem deliversExactly_unique {dataChans : List (List M)} (hne : dataChans ≠ [])
    {out out' : List M} (h : DeliversExactly decode t archive dataChans out)
    (h' : DeliversExactly decode t archive dataChans out') : out = out' := by
  obtain ⟨start, hstart, hrun⟩ := h
  obtain ⟨start', hstart', hrun'⟩ := h'
  obtain rfl : start = start' := Except.ok.inj (hstart.symm.trans hstart')
  obtain ⟨st, hst, hout⟩ := hrun 2 (Nat.le_refl 2) (max out.length out'.length) (by omega)
  obtain ⟨st', hst', hout'⟩ := hrun' 2 (Nat.le_refl 2) (max out.length out'.length) (by omega)
  have hsame : st = st' := by
    rcases hst with h | h <;> rcases hst' with h' | h' <;> rw [h] at h' <;> cases h' <;> rfl
  rw [← hsame, hout] at hout'
  obtain ⟨c, rest, rfl⟩ := List.exists_cons_of_ne_nil hne
  rw [List.map_cons, List.map_cons] at hout'
  exact List.append_cancel_left (List.head_eq_of_cons_eq hout')

/-- The first `n` messages of the archive replayed over and over. -/
def wrapped (msgs : List M) (n : Nat) : List M :=
  (List.range n).filterMap (fun i => msgs[i % msgs.length]?)

theorem wrapped_succ (msgs : List M) (n : Nat) :
    wrapped msgs (n + 1) = wrapped msgs n ++ (msgs[n % msgs.length]?).toList := by
  rw [wrapped, List.range_succ, List.filterMap_append, ← wrapped, List.filterMap_cons]
  cases msgs[n % msgs.length]? with
  | none => rfl
  | some m => rfl

theorem wrapped_eq_take : ∀ {n : Nat}, n ≤ msgs.length → wrapped msgs n = msgs.take n := by
  intro n
  induction n with
  | zero => intro _; rfl
  | succ n ih =>
      intro hle
      rw [wrapped_succ, ih (by omega), Nat.mod_eq_of_lt (by omega), List.take_add_one]

theorem length_wrapped (hne : msgs ≠ []) : ∀ n, (wrapped msgs n).length = n := by
  intro n
  induction n with
  | zero => rfl
  | succ n ih =>
      have hlt : n % msgs.length < msgs.length :=
        Nat.mod_lt _ (List.length_pos_iff.mpr hne)
      rw [wrapped_succ, List.length_append, ih, List.getElem?_eq_getElem hlt]
      rfl

/-- What is delivered of an archive when `n` messages are asked for. -/
theorem firstn_delivers (hloop : t.loop = false) (hpos : 0 < n) (hfirst : t.firstN = n)
    (fs : List (Octets × M)) (hframes : ∀ x ∈ fs, FrameResult decode t.producer x.1 (some [x.2]))
    (dataChans : List (List M)) :
    DeliversExactly decode t (fs.map Prod.fst).flatten dataChans
      ((fs.map Prod.snd).take n) := by
  obtain ⟨p, hi, hstart⟩ := startFeeder_idle decode t (fs.map Prod.fst).flatten dataChans
  refine ⟨_, hstart, ?_⟩
  intro fuel hfuel k hk
  obtain ⟨st, hafter, hchans⟩ := ticks_firstn hloop hfirst hfuel fs
    ⟨p, (fs.map Prod.fst).flatten, (fs.map Prod.fst).flatten, false, 0, dataChans⟩
    hi rfl hpos rfl hframes k
  refine ⟨st, hafter, ?_⟩
  -- enough ticks for all of the archive, or for all that was asked for
  have htake : (fs.map Prod.snd).take (min k (n - 0)) = (fs.map Prod.snd).take n := by
    rw [List.length_take] at hk
    by_cases hkn : n ≤ k
    · rw [show min k (n - 0) = n by omega]
    · rw [List.take_of_length_le (by omega), List.take_of_length_le (by omega)]
  rw [hchans]
  simp only [htake]

/-- **A NUMBER OF MESSAGES DOES NOT WRAP**: with `firstn` set to `n`, an archive
    delivers its first `n` messages and no more; that is the documented sequence
    exactly when the archive has as many. -/
theorem firstn_wraps_iff (decode : Encoding → Codec M) (name filename : String)
    (loop : Option Bool) (n : Nat) (hpos : 0 < n) (fs : List (Octets × M)) (hne : fs ≠ [])
    (hframes : ∀ x ∈ fs, FrameResult decode (configure name filename (some n) loop).producer
      x.1 (some [x.2]))
    (dataChans : List (List M)) (hchans : dataChans ≠ []) :
    DeliversExactly decode (configure name filename (some n) loop) (fs.map Prod.fst).flatten
        dataChans ((fs.map Prod.snd).take n) ∧
      (DeliversExactly decode (configure name filename (some n) loop)
          (fs.map Prod.fst).flatten dataChans (wrapped (fs.map Prod.snd) n) ↔
        n ≤ fs.length) := by
  have hn : (n : Int) ≠ 0 := by omega
  have hloop : (configure name filename (some n) loop).loop = false := if_neg hn
  have htaken := firstn_delivers hloop hpos rfl fs hframes dataChans
  refine ⟨htaken, ?_, ?_⟩
  · intro hwrapped
    have heq := deliversExactly_unique hchans hwrapped htaken
    have hlen := congrArg List.length heq
    rw [length_wrapped (by simpa using hne), List.length_take, List.length_map] at hlen
    omega
  · intro hle
    rw [wrapped_eq_take (by rw [List.length_map]; exact hle)]
    exact htaken

/-- A JSON frame of one octet. -/
def octetFrame (b : UInt8) : Octets := [0, 1, 0, 2, 0, 1, 0, 0, 0, 0, 0, 1, b]

theorem frameResult_octetFrame (b : UInt8) :
    FrameResult wholeBlocks source (octetFrame b) (some [[b]]) :=
  ⟨[0, 1, 0, 2, 0, 1, 0, 0, 0, 0, 0, 1], [b], .json, rfl, rfl, rfl, rfl, by decide, by decide,
    rfl, rfl⟩

/-- Two frames. -/
def octetFrames : List (Octets × Octets) := [(octetFrame 7, [7]), (octetFrame 8, [8])]

theorem octetFrames_result :
    ∀ x ∈ octetFrames, FrameResult wholeBlocks source x.1 (some [x.2]) := by
  intro x hx
  rcases List.mem_cons.mp hx with rfl | hx
  · exact frameResult_octetFrame source 7
  · rw [List.mem_singleton.mp hx]
    exact frameResult_octetFrame source 8

theorem firstn_wraps_two :
    DeliversExactly wholeBlocks (configure "replay_bin" "dump.bin" (some (2 : Nat)) none)
        (octetFrames.map Prod.fst).flatten [[]] ((octetFrames.map Prod.snd).take 2) ∧
      (DeliversExactly wholeBlocks (configure "replay_bin" "dump.bin" (some (2 : Nat)) none)
          (octetFrames.map Prod.fst).flatten [[]] (wrapped (octetFrames.map Prod.snd) 2) ↔
        2 ≤ octetFrames.length) :=
  firstn_wraps_iff wholeBlocks "replay_bin" "dump.bin" none 2 (by decide) octetFrames
    (List.cons_ne_nil _ _) (octetFrames_result _) [[]] (List.cons_ne_nil _ _)

/-- Five messages are asked for, and two delivered. -/
theorem firstn_five_stops :
    DeliversExactly wholeBlocks (configure "replay_bin" "dump.bin" (some 5) none)
        (octetFrames.map Prod.fst).flatten [[]] [[7], [8]] ∧
      ¬ DeliversExactly wholeBlocks (configure "replay_bin" "dump.bin" (some 5) none)
        (octetFrames.map Prod.fst).flatten [[]] [[7], [8], [7], [8], [7]] := by
  have htaken : DeliversExactly wholeBlocks (configure "replay_bin" "dump.bin" (some 5) none)
      (octetFrames.map Prod.fst).flatten [[]] [[7], [8]] :=
    firstn_delivers (n := 5) rfl (by decide) rfl octetFrames (octetFrames_result _) [[]]
  refine ⟨htaken, ?_⟩
  intro hwrapped
  have heq := deliversExactly_unique (List.cons_ne_nil _ _) hwrapped htaken
  exact absurd heq (by decide)

end PipelineReplayTick
