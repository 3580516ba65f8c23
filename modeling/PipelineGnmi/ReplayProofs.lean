import PipelineGnmi.FramesProofs
import PipelineGnmi.TapProofs

/-! # The replay input — reading an archive back

    `replayInputFeederLoop` (`replay.go`).  One tick runs the inner loop until
    a message is produced: `innerIter` is one iteration, `innerLoop` iterates
    it, and the number of iterations is a parameter, because nothing in the
    source bounds it.  `ticks` runs the feeder for a number of ticks.

    The headline is `replay_undoes_tap`: an archive written by the raw tap is
    replayed message for message.  A frame the tap writes is a `ValidFrame`
    (`frameResult_rawFrame`), because the tables of the writer and of the reader
    are inverse where messages can come from; a valid frame is one tick
    (`tick_frame`). -/

namespace PipelineReplay

open PipelineMessage PipelineDataMsg PipelineEncapSt PipelineFrames PipelineTap
open Transition

variable {M : Type}

/-- `io.ReadFull` on a file: `eof` when nothing at all was left. -/
inductive ReadResult where
  | full (buffer rest : Octets)
  | eof
  | unexpectedEOF
  deriving DecidableEq

variable {fuel : Nat} {xlation : String → Option String} {lib : ProtoLib}
  (decode : Encoding → Codec M) (n : Nat)

def readFull (n : Nat) (unread : Octets) : ReadResult :=
  if n ≤ unread.length then .full (unread.take n) (unread.drop n)
  else if unread = [] then .eof
  else .unexpectedEOF

/-- `replayInputModule`, as configured. -/
structure ReplayInputModule where
  name : String
  filename : String
  firstN : Int
  loop : Bool

/-- The producer replayed messages are attributed to, `t.String()`. -/
def ReplayInputModule.producer (t : ReplayInputModule) : MsgProducer :=
  t.name ++ ":" ++ t.filename

/-- The feeder: the archive, what is unread of it, and the sequences sent on
    the data channels. -/
structure ReplayState (M : Type) where
  parser : EncapSTParser M
  archive : Octets
  unread : Octets
  done : Bool
  count : Nat
  dataChans : List (List M)

/-- One iteration of the inner loop: go round, break with messages produced, or
    return from the feeder. -/
inductive InnerStep (M : Type) where
  | again (st : ReplayState M)
  | produced (st : ReplayState M)
  | returned (err : Option GoError) (st : ReplayState M)

/-- Spray over the channels, skipping the ones that are full: `full n j i` says
    whether channel `i` is full when the `j`-th message of block `n` is
    offered. -/
def offer (full : Nat → Nat → Nat → Bool) (n : Nat) (msgs : List M)
    (dataChans : List (List M)) : List (List M) :=
  msgs.zipIdx.foldl (fun chans mj =>
    chans.zipIdx.map (fun ci =>
      if full n mj.2 ci.2 then ci.1 else ci.1 ++ [mj.1])) dataChans

variable (st : ReplayState M)

/-- One iteration of the inner loop.  Going back to the start takes a fresh
    parser along; should that fail, the parser is nil and the next call on it
    is fatal. -/
def innerIter (t : ReplayInputModule) (full : Nat → Nat → Nat → Bool) (st : ReplayState M) :
    InnerStep M :=
  match nextBlockBuffer st.parser with
  | .error err => .returned (some err) { st with done := true }
  | .ok n =>
    match readFull n st.unread with
    | .unexpectedEOF =>
        .returned (some "unexpected EOF") { st with unread := [], done := true }
    | .eof =>
        if t.loop then
          match getNewEncapParser decode t.name "st" (some t.producer) with
          | .error _ =>
              .returned (some "invalid memory address or nil pointer dereference") st
          | .ok p => .again { st with unread := st.archive, parser := p }
        else .returned none st
    | .full buffer rest =>
      match nextBlock st.parser buffer none with
      | (p, .error err) =>
          .returned (some err) { st with parser := p, unread := rest, done := true }
      | (p, .ok none) => .again { st with parser := p, unread := rest }
      | (p, .ok (some msgs)) =>
          .produced
            { st with
              parser := p
              unread := rest
              dataChans := offer full st.count msgs st.dataChans
              count := st.count + 1
              done := st.done || decide ((st.count + 1 : Int) = t.firstN ∧ t.firstN ≠ 0) }

/-- The inner loop, given up after `fuel` iterations. -/
def innerLoop (decode : Encoding → Codec M) (t : ReplayInputModule)
    (full : Nat → Nat → Nat → Bool) : Nat → ReplayState M → Option (InnerStep M)
  | 0, _ => none
  | fuel + 1, st =>
    match innerIter decode t full st with
    | .again st => innerLoop decode t full fuel st
    | r => some r

/-- The feeder between ticks. -/
inductive Feeder (M : Type) where
  | running (st : ReplayState M)
  | returned (err : Option GoError) (st : ReplayState M)

/-- One tick. -/
def tick (t : ReplayInputModule) (full : Nat → Nat → Nat → Bool) (fuel : Nat) (st : ReplayState M) :
    Option (Feeder M) :=
  if st.done then some (.running st)
  else match innerLoop decode t full fuel st with
  | none => none
  | some (.again st) => some (.running st)
  | some (.produced st) => some (.running st)
  | some (.returned err st) => some (.returned err st)

/-- A number of ticks; a feeder that has returned sees no more of them. -/
def ticks (decode : Encoding → Codec M) (t : ReplayInputModule)
    (full : Nat → Nat → Nat → Bool) (fuel : Nat) :
    Nat → ReplayState M → Option (Feeder M)
  | 0, st => some (.running st)
  | n + 1, st =>
    match tick decode t full fuel st with
    | none => none
    | some (.running st) => ticks decode t full fuel n st
    | some (.returned err st) => some (.returned err st)

/-- The feeder as it starts on an archive. -/
def startFeeder (t : ReplayInputModule) (archive : Octets) (dataChans : List (List M)) :
    Except GoError (ReplayState M) := do
  let p ← getNewEncapParser decode t.name "st" (some t.producer)
  pure
    { parser := p
      archive := archive
      unread := archive
      done := false
      count := 0
      dataChans := dataChans }

/-! ## Iterations -/

/-- A header that is accepted. -/
structure HdrOk (hdr : Octets) (e : Encoding) : Prop where
  size : hdr.length = encStHdrSize
  encap : msgEncapEncoding (decodeHdr hdr).msgEncap = some e
  flag : (decodeHdr hdr).msgflag = encStHdrMsgFlagsNone
  len : (decodeHdr hdr).msglen ≤ encStMaxPayload

theorem readFull_append {n : Nat} {block rest : Octets} (h : block.length = n) :
    readFull n (block ++ rest) = .full block rest := by
  rw [readFull, if_pos (by rw [List.length_append]; omega), List.take_left' h,
    List.drop_left' h]

/-- The feeder behind an accepted header. -/
def behindHdr (decode : Encoding → Codec M) (st : ReplayState M) (hdr : Octets)
    (e : Encoding) (rest : Octets) : ReplayState M :=
  { st with parser := pending decode st.parser (decodeHdr hdr) e, unread := rest }

/-- The feeder behind a frame whose codec made no messages. -/
def behindFrame (decode : Encoding → Codec M) (st : ReplayState M) (hdr : Octets)
    (e : Encoding) (rest : Octets) : ReplayState M :=
  { st with parser := settled decode st.parser (decodeHdr hdr) e, unread := rest }

section Iterations

variable {decode : Encoding → Codec M} {t : ReplayInputModule}
  {full : Nat → Nat → Nat → Bool} {st : ReplayState M}

/-- A header that is accepted is followed by its payload. -/
theorem innerIter_hdr (hi : Idle decode t.producer st.parser) {hdr rest : Octets}
    {e : Encoding} (hok : HdrOk hdr e) (hun : st.unread = hdr ++ rest) :
    innerIter decode t full st = .again (behindHdr decode st hdr e rest) := by
  simp only [behindHdr, innerIter, nextBlockBuffer_idle hi, hun, readFull_append hok.size,
    nextBlock_hdr_ok hi hok.size hok.encap hok.flag hok.len]

/-- What happens to a payload, by what its codec makes of it. -/
theorem innerIter_payload {p : EncapSTParser M} (hi : Idle decode t.producer p)
    {hdr : EncapSTHdr} {e : Encoding} (hp : st.parser = pending decode p hdr e)
    (hpos : 1 ≤ hdr.msglen) (hle : hdr.msglen ≤ encStMaxPayload) {payload rest : Octets}
    (hlen : payload.length = hdr.msglen.toNat) (hun : st.unread = payload ++ rest) :
    innerIter decode t full st =
      match decode e t.producer payload with
      | .error err => .returned (some err)
          { st with parser := settled decode p hdr e, unread := rest, done := true }
      | .ok none => .again { st with parser := settled decode p hdr e, unread := rest }
      | .ok (some msgs) => .produced
          { st with
            parser := settled decode p hdr e
            unread := rest
            dataChans := offer full st.count msgs st.dataChans
            count := st.count + 1
            done := st.done || decide ((st.count + 1 : Int) = t.firstN ∧ t.firstN ≠ 0) } := by
  simp only [innerIter, hp, nextBlockBuffer_pending decode p e hle hpos, hun,
    readFull_append hlen, nextBlock_payload hi]
  cases decode e t.producer payload with
  | error err => rfl
  | ok r => cases r <;> rfl

variable {n fuel : Nat} {st' : ReplayState M}

/-- With nothing left to read, the replay ends or starts over. -/
theorem innerIter_eof (hbuf : nextBlockBuffer st.parser = .ok n) (hn : 0 < n)
    (hun : st.unread = []) :
    (t.loop = false ∧ innerIter decode t full st = .returned none st) ∨
      (t.loop = true ∧ ∃ p, Idle decode t.producer p ∧
        innerIter decode t full st = .again { st with unread := st.archive, parser := p }) := by
  have hread : readFull n st.unread = .eof := by
    rw [hun, readFull, List.length_nil, if_neg (Nat.not_le.mpr hn), if_pos rfl]
  cases hloop : t.loop with
  | false =>
      refine Or.inl ⟨rfl, ?_⟩
      simp only [innerIter, hbuf, hread, hloop, Bool.false_eq_true, if_false]
  | true =>
      obtain ⟨p, hp, hi⟩ := idle_new decode t.name t.producer
      refine Or.inr ⟨rfl, p, hi, ?_⟩
      simp only [innerIter, hbuf, hread, hloop, if_true, hp]

/-- Part of a block is an error. -/
theorem innerIter_short (hbuf : nextBlockBuffer st.parser = .ok n) (hlt : st.unread.length < n)
    (hne : st.unread ≠ []) :
    ∃ st', innerIter decode t full st = .returned (some "unexpected EOF") st' := by
  have hread : readFull n st.unread = .unexpectedEOF := by
    rw [readFull, if_neg (Nat.not_le.mpr hlt), if_neg hne]
  exact ⟨{ st with unread := [], done := true }, by simp only [innerIter, hbuf, hread]⟩

/-- After `n` iterations the inner loop goes on from another state. -/
def Skips (decode : Encoding → Codec M) (t : ReplayInputModule)
    (full : Nat → Nat → Nat → Bool) (n : Nat) (st st' : ReplayState M) : Prop :=
  ∀ fuel, innerLoop decode t full (fuel + n) st = innerLoop decode t full fuel st'

theorem skips_again (h : innerIter decode t full st = .again st') :
    Skips decode t full 1 st st' := by
  intro fuel
  rw [innerLoop, h]

theorem Skips.trans {m : Nat} {st₁ st₂ st₃ : ReplayState M} (h₁ : Skips decode t full m st₁ st₂)
    (h₂ : Skips decode t full n st₂ st₃) : Skips decode t full (n + m) st₁ st₃ := by
  intro fuel
  rw [← Nat.add_assoc, h₁, h₂]

/-- More iterations change nothing once the loop is through. -/
theorem innerLoop_mono : ∀ {fuel : Nat} {st : ReplayState M} {r : InnerStep M},
    innerLoop decode t full fuel st = some r →
    ∀ more, innerLoop decode t full (fuel + more) st = some r := by
  intro fuel
  induction fuel with
  | zero =>
      intro st r h
      cases h
  | succ fuel ih =>
      intro st r h more
      rw [Nat.succ_add]
      unfold innerLoop at h ⊢
      cases hiter : innerIter decode t full st with
      | again st' =>
          simp only [hiter] at h ⊢
          exact ih h more
      | produced st' =>
          simp only [hiter] at h ⊢
          exact h
      | returned err st' =>
          simp only [hiter] at h ⊢
          exact h

/-- Two runs of the loop that are through came to the same. -/
theorem innerLoop_unique {fuel' : Nat} {r r' : InnerStep M}
    (h : innerLoop decode t full fuel st = some r)
    (h' : innerLoop decode t full fuel' st = some r') : r = r' := by
  have h1 := innerLoop_mono h fuel'
  have h2 := innerLoop_mono h' fuel
  rw [Nat.add_comm fuel' fuel, h1] at h2
  exact Option.some.inj h2

/-- A loop that is through and skips is through behind the skip. -/
theorem Skips.through {r : InnerStep M} (hs : Skips decode t full n st st')
    (h : innerLoop decode t full fuel st = some r) :
    ∃ fuel', fuel' + n = fuel ∧ innerLoop decode t full fuel' st' = some r := by
  by_cases hle : n ≤ fuel
  · obtain ⟨fuel', rfl⟩ : ∃ k, fuel = k + n := ⟨fuel - n, by omega⟩
    exact ⟨fuel', rfl, (hs fuel').symm.trans h⟩
  · have hmore := innerLoop_mono h (n - fuel)
    rw [show fuel + (n - fuel) = 0 + n by omega, hs 0] at hmore
    cases hmore

theorem innerLoop_produced (h : innerIter decode t full st = .produced st') (fuel : Nat) :
    innerLoop decode t full (fuel + 1) st = some (.produced st') := by
  rw [innerLoop, h]

theorem innerLoop_returned {err : Option GoError}
    (h : innerIter decode t full st = .returned err st') (fuel : Nat) :
    innerLoop decode t full (fuel + 1) st = some (.returned err st') := by
  rw [innerLoop, h]

theorem tick_produced (hdone : st.done = false)
    (h : innerLoop decode t full fuel st = some (.produced st')) :
    tick decode t full fuel st = some (.running st') := by
  rw [tick, if_neg (by rw [hdone]; exact Bool.false_ne_true), h]

theorem tick_returned {err : Option GoError} (hdone : st.done = false)
    (h : innerLoop decode t full fuel st = some (.returned err st')) :
    tick decode t full fuel st = some (.returned err st') := by
  rw [tick, if_neg (by rw [hdone]; exact Bool.false_ne_true), h]

end Iterations

/-! ## One frame is one tick -/

/-- No channel is ever full. -/
def neverFull : Nat → Nat → Nat → Bool := fun _ _ _ => false

/-- With room everywhere, offering is spraying. -/
theorem offer_neverFull (msgs : List M) (dataChans : List (List M)) :
    offer neverFull n msgs dataChans = dataChans.map (· ++ msgs) := by
  rw [← spray_eq]
  have hstep : ∀ (l : List (M × Nat)) (chans : List (List M)),
      l.foldl (fun chans mj => chans.zipIdx.map (fun ci =>
        if neverFull n mj.2 ci.2 then ci.1 else ci.1 ++ [mj.1])) chans
      = spray (l.map Prod.fst) chans := by
    intro l
    induction l with
    | nil => intro chans; rfl
    | cons mj rest ih =>
        intro chans
        show List.foldl _ (chans.zipIdx.map _) rest = _
        rw [ih]
        show spray _ _ = spray (rest.map Prod.fst) (chans.map (· ++ [mj.1]))
        congr 1
        have hmap : (chans.zipIdx.map (fun ci => ci.1 ++ [mj.1]))
            = (chans.zipIdx.map Prod.fst).map (· ++ [mj.1]) := by
          rw [List.map_map]
          rfl
        rw [List.zipIdx_map_fst] at hmap
        exact hmap
  show List.foldl _ dataChans msgs.zipIdx = _
  rw [hstep, List.zipIdx_map_fst]

/-- **ONE FRAME, ONE TICK**: a frame carrying messages is read in two
    iterations and delivered to every channel. -/
theorem tick_frame {decode : Encoding → Codec M} {t : ReplayInputModule} {st : ReplayState M}
    (hi : Idle decode t.producer st.parser) (hdone : st.done = false) {f rest : Octets}
    (hun : st.unread = f ++ rest) {ms : List M} (hf : FrameResult decode t.producer f (some ms))
    (hfuel : 2 ≤ fuel) :
    ∃ p', Idle decode t.producer p' ∧
      tick decode t neverFull fuel st = some (.running
        { st with
          parser := p'
          unread := rest
          dataChans := st.dataChans.map (· ++ ms)
          count := st.count + 1
          done := decide ((st.count + 1 : Int) = t.firstN ∧ t.firstN ≠ 0) }) := by
  obtain ⟨hdr, payload, e, rfl, hl, he, hflag, hpos, hle, hp, hd⟩ := hf
  obtain ⟨fuel, rfl⟩ : ∃ k, fuel = k + 2 := ⟨fuel - 2, by omega⟩
  refine ⟨settled decode st.parser (decodeHdr hdr) e, idle_settled hi he, ?_⟩
  -- first iteration: the header
  have h1 : innerIter decode t neverFull st
      = .again (behindHdr decode st hdr e (payload ++ rest)) :=
    innerIter_hdr hi ⟨hl, he, hflag, hle⟩ (by rw [hun, List.append_assoc])
  -- second iteration: the payload, decoded by the header's own codec
  have h2 := @innerIter_payload M decode t neverFull
    (behindHdr decode st hdr e (payload ++ rest)) st.parser hi (decodeHdr hdr) e rfl hpos hle
    payload rest hp rfl
  rw [hd] at h2
  have hinner := (skips_again h1 (fuel + 1)).trans (innerLoop_produced h2 fuel)
  rw [tick_produced hdone hinner]
  simp only [behindHdr, offer_neverFull, hdone, Bool.false_or]

/-- At the end of the archive a feeder that does not loop returns. -/
theorem tick_end {decode : Encoding → Codec M} {t : ReplayInputModule} (hloop : t.loop = false)
    {st : ReplayState M} (hi : Idle decode t.producer st.parser) (hdone : st.done = false)
    (hun : st.unread = []) (hfuel : 1 ≤ fuel) :
    tick decode t neverFull fuel st = some (.returned none st) := by
  obtain ⟨fuel, rfl⟩ : ∃ k, fuel = k + 1 := ⟨fuel - 1, by omega⟩
  rcases @innerIter_eof M decode t neverFull st _ (nextBlockBuffer_idle hi) (by decide) hun with
    ⟨-, h1⟩ | ⟨hon, -⟩
  · exact tick_returned hdone (innerLoop_returned h1 fuel)
  · rw [hloop] at hon
    cases hon

/-- A run over an archive of frames, looping off and no message limit: one
    frame for each tick, and the tick after the last one ends the run. -/
theorem ticks_frames {decode : Encoding → Codec M} {t : ReplayInputModule} (hloop : t.loop = false)
    (hfirst : t.firstN = 0) (hfuel : 2 ≤ fuel) :
    ∀ (fs : List (Octets × List M)) (st : ReplayState M),
      Idle decode t.producer st.parser → st.done = false →
      st.unread = (fs.map Prod.fst).flatten →
      (∀ x ∈ fs, FrameResult decode t.producer x.1 (some x.2)) →
      (∀ k ≤ fs.length, ∃ st', ticks decode t neverFull fuel k st = some (.running st')
        ∧ st'.dataChans = st.dataChans.map (· ++ ((fs.take k).map Prod.snd).flatten)) ∧
      (∀ k, fs.length < k → ∃ st',
        ticks decode t neverFull fuel k st = some (.returned none st')
        ∧ st'.dataChans = st.dataChans.map (· ++ (fs.map Prod.snd).flatten)) := by
  intro fs
  induction fs with
  | nil =>
      intro st hi hdone hun _
      constructor
      · intro k hk
        have h0 : k = 0 := Nat.le_zero.mp hk
        subst h0
        exact ⟨st, rfl, by simp⟩
      · intro k hk
        obtain ⟨k, rfl⟩ : ∃ j, k = j + 1 := ⟨k - 1, by
          rw [List.length_nil] at hk
          omega⟩
        refine ⟨st, ?_, by simp⟩
        simp only [ticks, tick_end hloop hi hdone hun (show 1 ≤ fuel by omega)]
  | cons x rest ih =>
      intro st hi hdone hun hfs
      obtain ⟨p', hi', htick⟩ := tick_frame hi hdone hun
        (hfs x (List.mem_cons_self ..)) hfuel
      -- without a limit, `done` is never set
      rw [hfirst] at htick
      have hrest := ih
        { st with
          parser := p'
          unread := (rest.map Prod.fst).flatten
          dataChans := st.dataChans.map (· ++ x.2)
          count := st.count + 1
          done := false } hi' rfl rfl
        (fun y hy => hfs y (List.mem_cons_of_mem _ hy))
      have hstep : ∀ k, ticks decode t neverFull fuel (k + 1) st
          = ticks decode t neverFull fuel k
            { st with
              parser := p'
              unread := (rest.map Prod.fst).flatten
              dataChans := st.dataChans.map (· ++ x.2)
              count := st.count + 1
              done := false } := by
        intro k
        simp only [ticks, htick, ne_eq, not_true_eq_false, and_false, decide_false]
      constructor
      · intro k hk
        cases k with
        | zero => exact ⟨st, rfl, by simp⟩
        | succ k =>
            rw [List.length_cons] at hk
            obtain ⟨st', hst, hch⟩ := hrest.1 k (by omega)
            refine ⟨st', by rw [hstep]; exact hst, ?_⟩
            rw [hch, List.map_map]
            refine List.map_congr_left ?_
            intro c _
            simp
      · intro k hk
        rw [List.length_cons] at hk
        obtain ⟨k, rfl⟩ : ∃ j, k = j + 1 := ⟨k - 1, by omega⟩
        obtain ⟨st', hst, hch⟩ := hrest.2 k (by omega)
        refine ⟨st', by rw [hstep]; exact hst, ?_⟩
        rw [hch, List.map_map]
        refine List.map_congr_left ?_
        intro c _
        simp

/-! ## Replaying undoes tapping -/

/-- The message came out of one of the codecs whose messages the tap archives:
    GPB, its legacy form, or JSON. -/
def ProducedByCodec (lib : ProtoLib) (xlation : String → Option String) (msg : DataMsg) : Prop :=
  ∃ e ∈ [Encoding.gpb, .gpbCompact, .json], ∃ source block msgs,
    blockToDataMsgs lib xlation e source block = .ok (some msgs) ∧ msg ∈ msgs

/-- What a message and its replay have in common: everything but the
    producer. -/
structure SameMsg (msg replayed : DataMsg) : Prop where
  original : replayed.original = msg.original
  streamType : replayed.getDataMsgStreamType = msg.getDataMsgStreamType
  telemetry : replayed.telemetry = msg.telemetry

/-- A legacy block that converts keeps octets that decode to its telemetry
    before translation. -/
theorem legacy_produced (hinv : lib.Inverts) {source : MsgProducer} {block : Octets}
    {msgs : List DataMsg} (h : codecGPBLegacyPDTBlockToDataMsgs lib xlation source block
      = .ok (some msgs)) :
    ∃ t b, lib.unmarshal b = .ok t ∧
      msgs = codecGPBBlockAndTelemMsgToDataMsgs xlation source b t := by
  obtain ⟨t, b, hm, hmsgs⟩ := codecGPBLegacyPDT_ok h
  exact ⟨t, b, hinv _ _ hm, Option.some.inj hmsgs⟩

/-- Where archivable messages come from: a JSON message is its octets, a GPB
    message is the translation of what its octets decode to. -/
theorem produced_cases (hinv : lib.Inverts) {msg : DataMsg} (h : ProducedByCodec lib xlation msg) :
    (∃ b src, msg = .json ⟨b, src⟩) ∨
      ∃ b src t, msg = .gpb ⟨b, src, translatePath xlation t⟩ ∧
        lib.unmarshal b = .ok t := by
  obtain ⟨e, he, source, block, msgs, hok, hmem⟩ := h
  -- one case for each codec: GPB, its legacy form, JSON
  rcases List.mem_cons.mp he with rfl | he
  · refine Or.inr ?_
    obtain ⟨t, hu, hmsgs⟩ := codecGPB_ok hok
    rw [Option.some.inj hmsgs] at hmem
    exact ⟨block, source, t, List.mem_singleton.mp hmem, hu⟩
  · rcases List.mem_cons.mp he with rfl | he
    · refine Or.inr ?_
      obtain ⟨t, b, hu, hmsgs⟩ := legacy_produced hinv hok
      rw [hmsgs] at hmem
      exact ⟨b, source, t, List.mem_singleton.mp hmem, hu⟩
    · refine Or.inl ?_
      have hj := List.mem_singleton.mp he
      subst hj
      have hmsgs := Option.some.inj (Except.ok.inj hok)
      rw [← hmsgs] at hmem
      exact ⟨block, source, List.mem_singleton.mp hmem⟩

theorem decodeHdr_tapHdr (encst : UInt16) (b : Octets) :
    decodeHdr (encodeHdr (tapHdr encst b)) = tapHdr encst b := by
  have h := decodeHdr_encodeHdr (tapHdr encst b) []
  rwa [List.append_nil] at h

/-- A header written by the tap in front of a payload within bounds is accepted
    and frames exactly that payload. -/
theorem frameResult_tapHdr {decode : Encoding → Codec M} {source : MsgProducer}
    (encst : UInt16) {e : Encoding} (he : msgEncapEncoding encst = some e)
    {b : Octets} (hpos : 1 ≤ b.length) (hle : b.length ≤ encStMaxPayload.toNat)
    {r : Option (List M)} (hd : decode e source b = .ok r) :
    FrameResult decode source (encodeHdr (tapHdr encst b) ++ b) r := by
  have hmax : encStMaxPayload.toNat = 1048576 := rfl
  have hdec := decodeHdr_tapHdr encst b
  have hlen : (UInt32.ofNat b.length).toNat = b.length := by
    rw [UInt32.toNat_ofNat']
    exact Nat.mod_eq_of_lt (by omega)
  refine ⟨encodeHdr (tapHdr encst b), b, e, rfl, length_encodeHdr _, ?_, ?_, ?_,
    ?_, ?_, hd⟩
  · rw [hdec]
    exact he
  · rw [hdec]
    rfl
  · rw [hdec]
    refine UInt32.le_iff_toNat_le.mpr ?_
    show (1 : UInt32).toNat ≤ (UInt32.ofNat b.length).toNat
    rw [hlen]
    exact hpos
  · rw [hdec]
    refine UInt32.le_iff_toNat_le.mpr ?_
    show (UInt32.ofNat b.length).toNat ≤ _
    rw [hlen]
    exact hle
  · rw [hdec]
    exact hlen.symm

/-- **A TAPPED MESSAGE IS A FRAME OF ITSELF**: the frame the tap writes for a
    message decodes, for any producer, to a message like it. -/
theorem frameResult_rawFrame (hinv : lib.Inverts) {msg : DataMsg}
    (h : ProducedByCodec lib xlation msg) (hpos : 1 ≤ msg.original.length)
    (hle : msg.original.length ≤ encStMaxPayload.toNat) (source : MsgProducer) :
    ∃ replayed, SameMsg msg replayed ∧
      FrameResult (blockToDataMsgs lib xlation) source (rawFrame msg)
        (some [replayed]) := by
  rcases produced_cases hinv h with ⟨b, src, rfl⟩ | ⟨b, src, t, rfl, hu⟩
  · refine ⟨.json ⟨b, source⟩, ⟨rfl, rfl, rfl⟩, ?_⟩
    exact frameResult_tapHdr encStHdrMsgEncapJson rfl hpos hle rfl
  · refine ⟨.gpb ⟨b, source, translatePath xlation t⟩, ⟨rfl, rfl, rfl⟩, ?_⟩
    refine frameResult_tapHdr encStHdrMsgEncapGpb rfl hpos hle ?_
    show codecGPBBlockToDataMsgs lib xlation source b = _
    rw [codecGPBBlockToDataMsgs, hu]
    rfl

/-- The frames of tapped messages, paired with the messages they replay to. -/
theorem frames_of_tapped (hinv : lib.Inverts) (source : MsgProducer) :
    ∀ msgs : List DataMsg, (∀ msg ∈ msgs, ProducedByCodec lib xlation msg ∧
        1 ≤ msg.original.length ∧ msg.original.length ≤ encStMaxPayload.toNat) →
      ∃ (replayed : List DataMsg) (fs : List (Octets × List DataMsg)),
        List.Forall₂ SameMsg msgs replayed ∧
        fs.map Prod.fst = msgs.map rawFrame ∧
        fs.map Prod.snd = replayed.map (fun d => [d]) ∧
        ∀ x ∈ fs, FrameResult (blockToDataMsgs lib xlation) source x.1 (some x.2) := by
  intro msgs
  induction msgs with
  | nil => intro _; exact ⟨[], [], .nil, rfl, rfl, fun _ h => nomatch h⟩
  | cons m rest ih =>
      intro hm
      obtain ⟨hpm, hpos, hle⟩ := hm m (List.mem_cons_self ..)
      obtain ⟨d, hsame, hframe⟩ := frameResult_rawFrame hinv hpm hpos hle source
      obtain ⟨ds, fs, hs, h1, h2, h3⟩ :=
        ih (fun x hx => hm x (List.mem_cons_of_mem _ hx))
      refine ⟨d :: ds, (rawFrame m, [d]) :: fs, .cons hsame hs, ?_, ?_, ?_⟩
      · rw [List.map_cons, List.map_cons, h1]
      · rw [List.map_cons, List.map_cons, h2]
      · intro x hx
        rcases List.mem_cons.mp hx with rfl | hx
        · exact hframe
        · exact h3 x hx

/-- Replaying an archive once, with room downstream and however many iterations
    a tick is allowed from two on, delivers exactly `replayed` to every channel,
    one message a tick, and then the feeder returns without an error. -/
def ReplaysTo (r : ReplayInputModule) (archive : Octets) (dataChans : List (List M))
    (replayed : List M) : Prop :=
  ∃ start, startFeeder decode r archive dataChans = .ok start ∧
    ∀ fuel, 2 ≤ fuel →
      (∀ k ≤ replayed.length, ∃ st,
        ticks decode r neverFull fuel k start = some (.running st) ∧
        st.dataChans = dataChans.map (· ++ replayed.take k)) ∧
      (∀ k, replayed.length < k → ∃ st,
        ticks decode r neverFull fuel k start = some (.returned none st) ∧
        st.dataChans = dataChans.map (· ++ replayed))

/-- The feeder starts between frames, at the start of the archive. -/
theorem startFeeder_idle (t : ReplayInputModule) (archive : Octets) (dataChans : List (List M)) :
    ∃ p, Idle decode t.producer p ∧
      startFeeder decode t archive dataChans
        = .ok ⟨p, archive, archive, false, 0, dataChans⟩ := by
  obtain ⟨p, hp, hi⟩ := idle_new decode t.name t.producer
  refine ⟨p, hi, ?_⟩
  rw [startFeeder, hp]
  rfl

/-- An archive of frames replays to their messages. -/
theorem replaysTo_frames {decode : Encoding → Codec M} {r : ReplayInputModule}
    (hloop : r.loop = false) (hfirst : r.firstN = 0) (dataChans : List (List M)) {replayed : List M}
    {fs : List (Octets × List M)} (hsnd : fs.map Prod.snd = replayed.map (fun d => [d]))
    (hframes : ∀ x ∈ fs, FrameResult decode r.producer x.1 (some x.2)) :
    ReplaysTo decode r (fs.map Prod.fst).flatten dataChans replayed := by
  obtain ⟨p, hi, hstart⟩ :=
    startFeeder_idle decode r (fs.map Prod.fst).flatten dataChans
  have hall : (fs.map Prod.snd).flatten = replayed := by
    rw [hsnd, ← List.flatMap_def, List.flatMap_singleton']
  have htake : ∀ k, ((fs.take k).map Prod.snd).flatten = replayed.take k := by
    intro k
    rw [List.map_take, hsnd, ← List.map_take, ← List.flatMap_def,
      List.flatMap_singleton']
  have hlen : fs.length = replayed.length := by
    have := congrArg List.length hsnd
    rwa [List.length_map, List.length_map] at this
  refine ⟨_, hstart, ?_⟩
  intro fuel hfuel
  obtain ⟨hrun, hend⟩ := ticks_frames hloop hfirst hfuel fs
    ⟨p, (fs.map Prod.fst).flatten, (fs.map Prod.fst).flatten, false, 0,
      dataChans⟩ hi rfl rfl hframes
  rw [hlen] at hrun hend
  constructor
  · intro k hk
    obtain ⟨st, hst, hch⟩ := hrun k hk
    rw [htake] at hch
    exact ⟨st, hst, hch⟩
  · intro k hk
    obtain ⟨st, hst, hch⟩ := hend k hk
    rw [hall] at hch
    exact ⟨st, hst, hch⟩

/-- **REPLAYING UNDOES TAPPING**: the archive a raw tap leaves after any
    messages of the archivable codecs within the payload bounds, with any
    REPORT requests between them, replays to as many messages in the same
    order, each the same message up to its producer. -/
theorem replay_undoes_tap {lib : ProtoLib} (hinv : lib.Inverts)
    (xlation : String → Option String) (render : Renderers) (texts : TapTexts)
    (t : TapOutputModule) (hraw : t.rawDump = true) (hcount : t.countOnly = false)
    (r : ReplayInputModule) (hloop : r.loop = false) (hfirst : r.firstN = 0)
    (evs : List TapEvent) (hev : ∀ ev ∈ evs, InService ev)
    (hprod : ∀ msg ∈ evs.filterMap dataOf, ProducedByCodec lib xlation msg ∧
      1 ≤ msg.original.length ∧ msg.original.length ≤ encStMaxPayload.toNat)
    (dataChans : List (List DataMsg)) :
    ∃ st replayed,
      exec (tap render texts t (some [])) (tap render texts t (some [])).init
        (evs ++ [.ctrl .shutdown]) = some st ∧
      List.Forall₂ SameMsg (evs.filterMap dataOf) replayed ∧
      ReplaysTo (blockToDataMsgs lib xlation) r st.w.file dataChans replayed := by
  obtain ⟨st, hexec, hfile⟩ := tap_archive render texts t hraw hcount evs hev
  obtain ⟨replayed, fs, hsame, hfst, hsnd, hframes⟩ :=
    frames_of_tapped hinv r.producer (evs.filterMap dataOf) hprod
  refine ⟨st, replayed, hexec, hsame, ?_⟩
  rw [hfile, ← hfst]
  exact replaysTo_frames hloop hfirst dataChans hsnd hframes

/-! ### A tapped session -/

/-- The legacy block of one row under the path `a`. -/
def samplePdt : Octets := [0x12, 1, 0x70, 0x22, 1, 0x6e, 0x3a, 6, 0x0a, 1, 0x61, 0x12, 1, 1]

/-- The telemetry it converts to, as `proto.Marshal` writes it: the fields of a oneof,
    here the node and the subscription, come last. -/
def sampleGpb : Octets :=
  [0x32, 1, 0x61, 0x62, 8, 0x0a, 6, 0x52, 1, 1, 0x5a, 1, 1, 0x0a, 1, 0x6e, 0x1a, 1, 0x70]

/-- The same from a router, in the order of the field numbers. -/
def routerGpb : Octets :=
  [0x0a, 1, 0x6e, 0x1a, 1, 0x70, 0x32, 1, 0x61, 0x62, 8, 0x0a, 6, 0x52, 1, 1, 0x5a, 1, 1]

def sampleTelemetry : Telemetry :=
  { nodeIdStr := some "n"
    subscriptionIdStr := some "p"
    encodingPath := "a"
    collectionId := 0
    collectionStartTime := 0
    msgTimestamp := 0
    dataGpbkv := []
    dataGpb := some [⟨0, [1], [1]⟩]
    collectionEndTime := 0 }

/-- The protobuf library on these octets. -/
def sampleLib : ProtoLib where
  marshal t :=
    if t.nodeIdStr = some "n" ∧ t.subscriptionIdStr = some "p" ∧
        t.encodingPath = "a" ∧ t.collectionId = 0 ∧ t.collectionStartTime = 0 ∧
        t.msgTimestamp = 0 ∧ t.dataGpbkv.isEmpty = true ∧
        t.dataGpb = some [⟨0, [1], [1]⟩] ∧ t.collectionEndTime = 0 then
      .ok sampleGpb
    else .error "not a sample"
  unmarshal b :=
    if b = sampleGpb ∨ b = routerGpb then .ok sampleTelemetry else .error "not a sample"
  unmarshalPdt b :=
    if b = samplePdt then .ok ⟨"n", "p", 0, 0, [⟨"a", [[1]]⟩]⟩
    else .error "not a sample"

theorem sampleLib_inverts : sampleLib.Inverts := by
  intro t b h
  simp only [sampleLib] at h ⊢
  split at h
  next hc =>
    rw [← Except.ok.inj h, if_pos (Or.inl rfl)]
    obtain ⟨h1, h2, h3, h4, h5, h6, h7, h8, h9⟩ := hc
    cases t
    simp_all [sampleTelemetry]
  next => exact nomatch h

/-- The path `a` is known to consumers as `b`. -/
def sampleXlation (path : String) : Option String :=
  if path = "a" then some "b" else none

/-- The three messages of the session: GPB, legacy GPB and JSON. -/
def sampleMsgs : List DataMsg :=
  [.gpb ⟨routerGpb, "router", { sampleTelemetry with encodingPath := "b" }⟩,
   .gpb ⟨sampleGpb, "old", { sampleTelemetry with encodingPath := "b" }⟩,
   .json ⟨[0x7b, 0x7d], "collector"⟩]

theorem sampleMsgs_produced : ∀ msg ∈ sampleMsgs, ProducedByCodec sampleLib sampleXlation msg ∧
      1 ≤ msg.original.length ∧ msg.original.length ≤ encStMaxPayload.toNat := by
  intro msg hm
  rcases List.mem_cons.mp hm with rfl | hm
  · exact ⟨⟨.gpb, by simp, "router", routerGpb, _, rfl, List.mem_singleton.mpr rfl⟩,
      by decide, by decide⟩
  · rcases List.mem_cons.mp hm with rfl | hm
    · exact ⟨⟨.gpbCompact, by simp, "old", samplePdt, _, rfl,
        List.mem_singleton.mpr rfl⟩, by decide, by decide⟩
    · rw [List.mem_singleton.mp hm]
      exact ⟨⟨.json, by simp, "collector", [0x7b, 0x7d], _, rfl,
        List.mem_singleton.mpr rfl⟩, by decide, by decide⟩

/-- The raw arm renders nothing. -/
def sampleRender : Renderers :=
  ⟨fun _ _ => .ok none, fun _ => .ok none, fun _ => .ok none, fun _ => .ok none⟩

def sampleTexts : TapTexts := ⟨fun _ => [], fun _ _ _ _ => []⟩

def sampleTap : TapOutputModule :=
  ⟨"tap_out_bin", "dump.bin", false, true, dataMsgStreamSpecDefault⟩

/-- The session is replayed to two channels. -/
theorem replay_undoes_tap_session :
    ∃ st replayed,
      exec (tap sampleRender sampleTexts sampleTap (some []))
        (tap sampleRender sampleTexts sampleTap (some [])).init
        (sampleMsgs.map .data ++ [.ctrl .shutdown]) = some st ∧
      List.Forall₂ SameMsg ((sampleMsgs.map TapEvent.data).filterMap dataOf) replayed ∧
      ReplaysTo (blockToDataMsgs sampleLib sampleXlation)
        ⟨"replay_bin", "dump.bin", 0, false⟩ st.w.file [[], []] replayed := by
  refine replay_undoes_tap sampleLib_inverts sampleXlation sampleRender sampleTexts
    sampleTap rfl rfl ⟨"replay_bin", "dump.bin", 0, false⟩ rfl rfl
    (sampleMsgs.map .data) ?_ ?_ [[], []]
  · intro ev hev
    obtain ⟨msg, -, rfl⟩ := List.mem_map.mp hev
    exact Or.inl ⟨msg, rfl⟩
  · have hback : (sampleMsgs.map TapEvent.data).filterMap dataOf = sampleMsgs := by
      rw [List.filterMap_map]
      exact List.filterMap_some
    rw [hback]
    exact sampleMsgs_produced

end PipelineReplay
