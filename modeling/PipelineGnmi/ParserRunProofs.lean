import PipelineGnmi.TransitionProofs
import PipelineGnmi.EncapStProofs

/-! # Whole runs of the parser

    `nextBlock` and `nextBlockBuffer` (`encap_st.go`) over any sequence of
    calls, in both modes.

    A datagram parser is in one state for good, and what it caches it caches
    for an encapsulation: a call answers as it does on a fresh parser, whatever
    the calls before it were and whether they failed (`datagram_history_irrelevant`).

    A stream parser alternates between a header and its payload.  The length of
    a header is tested against the maximum when the header is accepted, and
    against zero only when the buffer for the payload is asked for, so a run
    without an error may end in a header that the parser cannot follow
    (`canFollow_iff`). -/

namespace PipelineParserRun

open PipelineMessage PipelineEncapSt Transition

variable {M : Type}

/-! ## Datagrams -/

/-- Calls with a datagram and its source, on whatever they return. -/
def datagramCalls (parser : EncapSTParser M) :
    System (EncapSTParser M) (Octets × MsgProducer) where
  init := parser
  next p call := some (nextBlock p call.1 (some call.2)).1

variable {p parser : EncapSTParser M} {decode : Encoding → Codec M} {block : Octets}

/-- Every call leaves the parser ready for the next. -/
theorem reach_datagramReady (hready : DatagramReady decode parser)
    (h : Reach (datagramCalls parser) anyStep p) : DatagramReady decode p := by
  refine h.invariant hready ?_
  intro q call q' hq _ hnext
  obtain ⟨p', hp', hready'⟩ := nextBlock_datagram hq call.2 call.1
  have hq' : (nextBlock q call.1 (some call.2)).1 = q' := Option.some.inj hnext
  rw [hp'] at hq'
  exact hq' ▸ hready'

/-- **DATAGRAMS ARE PARSED INDEPENDENTLY OF HISTORY**: after any calls on a
    datagram parser, a call returns what it returns on the fresh parser, and the
    parser waits for a whole datagram before and after it. -/
theorem datagram_history_irrelevant (decode : Encoding → Codec M) (name : String) :
    ∃ fresh, getNewEncapParser decode name "st" none = .ok fresh ∧
      ∀ p, Reach (datagramCalls fresh) anyStep p →
        p.state = .waitForAll ∧
        ∀ (block : Octets) (source : MsgProducer),
          (nextBlock p block (some source)).2 = (nextBlock fresh block (some source)).2 ∧
          (nextBlock p block (some source)).1.state = .waitForAll := by
  obtain ⟨fresh, hnew, hready⟩ := datagramReady_new decode name
  refine ⟨fresh, hnew, ?_⟩
  intro p hreach
  have hp := reach_datagramReady hready hreach
  refine ⟨hp.state, ?_⟩
  intro block source
  obtain ⟨p', hcall, hp'⟩ := nextBlock_datagram hp source block
  obtain ⟨f', hfresh, -⟩ := nextBlock_datagram hready source block
  rw [hcall, hfresh]
  exact ⟨rfl, hp'.state⟩

/-! ## Streams -/

/-- A stream parser, and the last header it was given. -/
structure StreamRun (M : Type) where
  parser : EncapSTParser M
  hdr : Option EncapSTHdr

/-- A call that returns no error. -/
def streamCall (s : StreamRun M) (call : Octets × Option MsgProducer) : Option (StreamRun M) :=
  match nextBlock s.parser call.1 call.2 with
  | (_, .error _) => none
  | (p, .ok _) =>
      some ⟨p, if s.parser.state = .waitForHdr then some (decodeHdr call.1) else s.hdr⟩

/-- Calls none of which returns an error. -/
def streamCalls (parser : EncapSTParser M) :
    System (StreamRun M) (Octets × Option MsgProducer) where
  init := ⟨parser, none⟩
  next := streamCall

/-- The parser waits for a header, or for the payload of the last one, which is
    not too long. -/
def Alternates (s : StreamRun M) : Prop :=
  s.parser.state = .waitForHdr ∨
    (s.parser.state = .waitForData ∧ ∃ hdr, s.hdr = some hdr ∧
      s.parser.nextBlockSize = hdr.msglen ∧ hdr.msglen ≤ encStMaxPayload)

theorem readHdr_eq {rest : Octets} {hdr : EncapSTHdr} (h : readHdr block = .ok (hdr, rest)) :
    hdr = decodeHdr block := by
  unfold readHdr at h
  split at h
  · cases h
  · cases h
    rfl

/-- What a header does that is accepted, whatever the source. -/
theorem nextBlock_accepts {p' : EncapSTParser M} (hstate : p.state = .waitForHdr)
    {source : Option MsgProducer} {r : Option (List M)}
    (h : nextBlock p block source = (p', .ok r)) :
    p'.state = .waitForData ∧ p'.nextBlockSize = (decodeHdr block).msglen ∧
      (decodeHdr block).msglen ≤ encStMaxPayload := by
  -- the source is stored before the state is looked at
  obtain ⟨q, hq, hcall⟩ : ∃ q : EncapSTParser M, q.state = .waitForHdr ∧
      nextBlock p block source = nextBlock q block none := by
    cases source with
    | none => exact ⟨p, hstate, rfl⟩
    | some src => exact ⟨{ p with source := some src }, hstate, rfl⟩
  rw [hcall] at h
  simp only [nextBlock, hq] at h
  cases hread : readHdr block with
  | error err =>
      simp only [hread] at h
      cases h
  | ok read =>
      obtain ⟨hdr, rest⟩ := read
      obtain rfl := readHdr_eq hread
      simp only [hread] at h
      cases hcache : cacheCodec q (decodeHdr block).msgEncap with
      | error err =>
          simp only [hcache] at h
          cases h
      | ok q' =>
          simp only [hcache] at h
          split at h
          · cases h
          · next hlen =>
              split at h
              · cases h
              · cases h
                exact ⟨rfl, rfl, UInt32.not_lt.mp hlen⟩

theorem nextBlock_takes (hstate : p.state = .waitForData) (block : Octets)
    (source : Option MsgProducer) : (nextBlock p block source).1.state = .waitForHdr := by
  cases source <;> simp only [nextBlock, hstate]

/-- **A STREAM PARSER ALTERNATES** as long as no call returns an error. -/
theorem reach_alternates {source : MsgProducer} (hidle : Idle decode source parser)
    {s : StreamRun M} (h : Reach (streamCalls parser) anyStep s) : Alternates s := by
  refine h.invariant (I := Alternates) (Or.inl hidle.state) ?_
  intro s call t hs _ hnext
  change streamCall s call = some t at hnext
  unfold streamCall at hnext
  split at hnext
  · cases hnext
  · next p r hcall =>
      cases hnext
      rcases hs with hhdr | ⟨hdata, -⟩
      · obtain ⟨hstate, hsize, hle⟩ := nextBlock_accepts hhdr hcall
        exact Or.inr ⟨hstate, _, if_pos hhdr, hsize, hle⟩
      · have htakes := nextBlock_takes hdata call.1 call.2
        rw [hcall] at htakes
        exact Or.inl htakes

/-- The parser can go on: it asks for a header, or for as many octets as the
    last header announced, which are some and not too many. -/
def CanFollow (s : StreamRun M) : Prop :=
  match s.parser.state with
  | .waitForHdr => nextBlockBuffer s.parser = .ok encStHdrSize
  | .waitForData => ∃ hdr, s.hdr = some hdr ∧ 0 < hdr.msglen ∧
      hdr.msglen ≤ encStMaxPayload ∧ nextBlockBuffer s.parser = .ok hdr.msglen.toNat
  | .waitForAll => False

/-- The last header was accepted and announces nothing. -/
def EmptyPayload (s : StreamRun M) : Prop :=
  s.parser.state = .waitForData ∧ ∃ hdr, s.hdr = some hdr ∧ hdr.msglen = 0

/-- **ONLY AN EMPTY PAYLOAD CANNOT BE FOLLOWED**: in every state a stream parser
    reaches without an error, it can go on exactly when the header it has just
    accepted announces a payload. -/
theorem canFollow_iff (decode : Encoding → Codec M) (name : String) (source : MsgProducer) :
    ∃ parser, getNewEncapParser decode name "st" (some source) = .ok parser ∧
      ∀ s, Reach (streamCalls parser) anyStep s → (CanFollow s ↔ ¬ EmptyPayload s) := by
  obtain ⟨parser, hnew, hidle⟩ := idle_new decode name source
  refine ⟨parser, hnew, ?_⟩
  intro s hreach
  rcases reach_alternates hidle hreach with hhdr | ⟨hdata, hdr, hs, hsize, hle⟩
  · refine iff_of_true ?_ ?_
    · simp only [CanFollow, hhdr, nextBlockBuffer]
    · rintro ⟨hdata, -⟩
      rw [hhdr] at hdata
      cases hdata
  · simp only [CanFollow, EmptyPayload, hdata, hs, nextBlockBuffer, hsize]
    constructor
    · rintro ⟨hdr', hhdr', hpos, -⟩ ⟨-, hdr'', hhdr'', hzero⟩
      cases hhdr'
      cases hhdr''
      rw [hzero] at hpos
      exact absurd hpos (by decide)
    · intro hempty
      have hne : hdr.msglen ≠ 0 := fun hzero => hempty ⟨trivial, hdr, rfl, hzero⟩
      refine ⟨hdr, rfl, UInt32.pos_iff_ne_zero.mpr hne, hle, ?_⟩
      rw [if_neg hne, if_neg (UInt32.not_lt.mpr hle)]

/-- A JSON header that announces no payload. -/
def emptyJsonHdr : Octets := [0, 1, 0, 2, 0, 1, 0, 0, 0, 0, 0, 0]

/-- It is accepted, and then there is no buffer to read into. -/
theorem emptyJsonHdr_not_followed :
    ∃ parser s, getNewEncapParser wholeBlocks "tcp_in" "st" (some "router:5432") = .ok parser ∧
      exec (streamCalls parser) (streamCalls parser).init [(emptyJsonHdr, none)] = some s ∧
      nextBlockBuffer s.parser = .error "ENCAP  ST: req 0 size buffer" :=
  ⟨_, _, rfl, rfl, rfl⟩

end PipelineParserRun
