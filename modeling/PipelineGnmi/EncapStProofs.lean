import PipelineGnmi.BigEndianProofs
import PipelineGnmi.MessageProofs

/-! # The streaming telemetry header and its parser

    `encap_st.go`: a 12-byte big-endian header followed by its payload.  The
    parser is a small state machine carrying the codec of the last header, the
    encapsulation it was cached for and the size of the pending payload.

    The parser is generic in the messages its codecs build.  What this file
    establishes once and for all is `CacheOk`: a cached codec is always the one
    its cached encapsulation names, so a header is decoded by its OWN codec
    whatever was parsed before (`cacheCodec_ok`). -/

namespace PipelineEncapSt

open PipelineMessage BigEndian

variable {M : Type}

/-- `ENC_ST_MAX_DGRAM`. -/
def encStMaxDgram : UInt32 := 64 * 1024

/-- `ENC_ST_MAX_PAYLOAD`. -/
def encStMaxPayload : UInt32 := 1024 * 1024

/-- `ENC_ST_HDR_MSG_FLAGS_NONE`. -/
def encStHdrMsgFlagsNone : UInt16 := 0

/-- `ENC_ST_HDR_VERSION`. -/
def encStHdrVersion : UInt16 := 1

/-- `ENC_ST_HDR_MSG_TYPE_TELEMETRY_DATA`. -/
def encStHdrMsgTypeTelemetryData : UInt16 := 1

/-- `ENC_ST_HDR_MSG_ENCAP_GPB`. -/
def encStHdrMsgEncapGpb : UInt16 := 1

/-- `ENC_ST_HDR_MSG_ENCAP_JSON`. -/
def encStHdrMsgEncapJson : UInt16 := 2

/-- `ENC_ST_HDR_MSG_ENCAP_GPB_COMPACT`. -/
def encStHdrMsgEncapGpbCompact : UInt16 := 3

/-- `ENC_ST_HDR_MSG_ENCAP_GPB_KV`. -/
def encStHdrMsgEncapGpbKv : UInt16 := 4

/-- `encapSTHdr`. -/
structure EncapSTHdr where
  msgType : UInt16
  msgEncap : UInt16
  msgHdrVersion : UInt16
  msgflag : UInt16
  msglen : UInt32
  deriving DecidableEq, Repr

/-- `binary.Size(hdr)`, also `ENC_ST_HDR_MSG_SIZE`. -/
def encStHdrSize : Nat := 12

/-- The fields of a header, read from its first twelve octets. -/
def decodeHdr (b : Octets) : EncapSTHdr where
  msgType := UInt16.ofNat (beNat (b.take 2))
  msgEncap := UInt16.ofNat (beNat ((b.drop 2).take 2))
  msgHdrVersion := UInt16.ofNat (beNat ((b.drop 4).take 2))
  msgflag := UInt16.ofNat (beNat ((b.drop 6).take 2))
  msglen := UInt32.ofNat (beNat ((b.drop 8).take 4))

/-- `binary.Read(hdrbuf, binary.BigEndian, &hdr)`: the header and the unread
    remainder. -/
def readHdr (b : Octets) : Except GoError (EncapSTHdr × Octets) :=
  if b.length < encStHdrSize then
    .error (if b = [] then "EOF" else "unexpected EOF")
  else .ok (decodeHdr b, b.drop encStHdrSize)

/-- `binary.Write(w, binary.BigEndian, hdr)`. -/
def encodeHdr (hdr : EncapSTHdr) : Octets :=
  beBytes 2 hdr.msgType.toNat ++ (beBytes 2 hdr.msgEncap.toNat
    ++ (beBytes 2 hdr.msgHdrVersion.toNat
      ++ (beBytes 2 hdr.msgflag.toNat ++ beBytes 4 hdr.msglen.toNat)))

@[simp] theorem length_encodeHdr (hdr : EncapSTHdr) : (encodeHdr hdr).length = encStHdrSize := by
  simp [encodeHdr, encStHdrSize]

/-- **HEADER ROUND TRIP**: a written header is read back, whatever follows. -/
theorem decodeHdr_encodeHdr (hdr : EncapSTHdr) (rest : Octets) :
    decodeHdr (encodeHdr hdr ++ rest) = hdr := by
  have h16 : ∀ v : UInt16, UInt16.ofNat (beNat (beBytes 2 v.toNat)) = v := by
    intro v
    rw [beNat_beBytes (by simpa using v.toNat_lt)]
    exact UInt16.ofNat_toNat
  have h32 : ∀ v : UInt32, UInt32.ofNat (beNat (beBytes 4 v.toNat)) = v := by
    intro v
    rw [beNat_beBytes (by simpa using v.toNat_lt)]
    exact UInt32.ofNat_toNat
  cases hdr with
  | mk ty en ve fl ln =>
      simp only [decodeHdr, encodeHdr, EncapSTHdr.mk.injEq]
      refine ⟨?_, ?_, ?_, ?_, ?_⟩
      · rw [List.append_assoc, List.take_left' (by simp)]
        exact h16 ty
      · rw [List.append_assoc, List.drop_left' (by simp), List.append_assoc,
          List.take_left' (by simp)]
        exact h16 en
      · rw [show (4 : Nat) = 2 + 2 from rfl, ← List.drop_drop, List.append_assoc,
          List.drop_left' (by simp), List.append_assoc, List.drop_left' (by simp),
          List.append_assoc, List.take_left' (by simp)]
        exact h16 ve
      · rw [show (6 : Nat) = 2 + (2 + 2) from rfl, ← List.drop_drop,
          ← List.drop_drop, List.append_assoc, List.drop_left' (by simp),
          List.append_assoc, List.drop_left' (by simp), List.append_assoc,
          List.drop_left' (by simp), List.append_assoc,
          List.take_left' (by simp)]
        exact h16 fl
      · rw [show (8 : Nat) = 2 + (2 + (2 + 2)) from rfl, ← List.drop_drop,
          ← List.drop_drop, ← List.drop_drop, List.append_assoc,
          List.drop_left' (by simp), List.append_assoc, List.drop_left' (by simp),
          List.append_assoc, List.drop_left' (by simp), List.append_assoc,
          List.drop_left' (by simp), List.take_left' (by simp)]
        exact h32 ln

/-- `encapSTFromEncoding`. -/
def encapSTFromEncoding : Encoding → Except GoError UInt16
  | .gpb => .ok encStHdrMsgEncapGpb
  | .json => .ok encStHdrMsgEncapJson
  | .gpbKv => .ok encStHdrMsgEncapGpbKv
  | enc => .error ("Failed to produce encapSTHdrMsgEncap from " ++ toString enc.number)

/-- `encapSTParseState`. -/
inductive EncapSTParseState where
  | waitForHdr
  | waitForData
  | waitForAll
  deriving DecidableEq, Repr

/-- `encapSTParser`.  The `hdr` buffer is not kept: it is scratch space that
    every read overwrites, and only its length is ever used. -/
structure EncapSTParser (M : Type) where
  name : String
  codecs : Encoding → Option (Codec M)
  cachedMsgEncap : UInt16
  nextCodec : Option (Codec M)
  nextBlockSize : UInt32
  state : EncapSTParseState
  source : Option MsgProducer

variable {e : Encoding} {encap : UInt16} {source : MsgProducer} (decode : Encoding → Codec M)
  (name : String)

/-- `getNewEncapSTParser`: a nil source asks for a datagram parser.  All codecs
    are set up, or the parser is refused. -/
def getNewEncapSTParser (source : Option MsgProducer) : Except GoError (EncapSTParser M) :=
  let p : EncapSTParser M :=
    { name := name
      codecs := fun _ => none
      cachedMsgEncap := 0
      nextCodec := none
      nextBlockSize := 0
      state := if source = none then .waitForAll else .waitForHdr
      source := source }
  codecSupport.foldlM (fun p e => do
    let c ← getCodec decode e
    pure { p with codecs := Function.update p.codecs e (some c) }) p

/-- `getNewEncapParser`. -/
def getNewEncapParser (encap : String) (source : Option MsgProducer) :
    Except GoError (EncapSTParser M) :=
  if encap = "st" then getNewEncapSTParser decode name source
  else .error "ENCAP: failed to produce parser"

/-- `nextBlockBuffer`: the length of the buffer to fill next. -/
def nextBlockBuffer (p : EncapSTParser M) : Except GoError Nat :=
  match p.state with
  | .waitForData =>
      if p.nextBlockSize = 0 then .error "ENCAP  ST: req 0 size buffer"
      else if encStMaxPayload < p.nextBlockSize then
        .error ("ENCAP  ST: req " ++ toString p.nextBlockSize ++ " size buf, max "
          ++ toString encStMaxPayload)
      else .ok p.nextBlockSize.toNat
  | .waitForHdr => .ok encStHdrSize
  | .waitForAll => .ok encStMaxDgram.toNat

/-- The switch of `cacheCodec`: the encoding a header's encapsulation names. -/
def msgEncapEncoding (encap : UInt16) : Option Encoding :=
  if encap = encStHdrMsgEncapGpb then some .gpb
  else if encap = encStHdrMsgEncapGpbCompact then some .gpbCompact
  else if encap = encStHdrMsgEncapGpbKv then some .gpbKv
  else if encap = encStHdrMsgEncapJson then some .json
  else none

/-- `cacheCodec`. -/
def cacheCodec (p : EncapSTParser M) (encap : UInt16) : Except GoError (EncapSTParser M) :=
  if p.nextCodec.isNone || encap ≠ p.cachedMsgEncap then
    match msgEncapEncoding encap with
    | some e => .ok { p with nextCodec := p.codecs e, cachedMsgEncap := encap }
    | none => .error ("ENCAP ST: no codec for msg encap [" ++ toString encap ++ "]")
  else .ok p

/-- `p.nextCodec.blockToDataMsgs(p.source, block)`, the nil codec answering as
    the stream branch of `nextBlock` does.  A codec calls `source.String()`
    first thing, so a nil source is fatal there. -/
def decodeWith (p : EncapSTParser M) (block : Octets) : Except GoError (Option (List M)) :=
  match p.nextCodec, p.source with
  | some c, some src => c src block
  | some _, none => .error "invalid memory address or nil pointer dereference"
  | none, _ => .error "ENCAP ST: codec not setup for decode"

/-- `nextBlock`: the parser after the call, and what the call returned. -/
def nextBlock (p : EncapSTParser M) (block : Octets) (source : Option MsgProducer) :
    EncapSTParser M × Except GoError (Option (List M)) :=
  let p := match source with
    | some src => { p with source := some src }
    | none => p
  match p.state with
  | .waitForAll =>
      match readHdr block with
      | .error err => (p, .error err)
      | .ok (hdr, unread) =>
        match cacheCodec p hdr.msgEncap with
        | .error err => (p, .error err)
        | .ok p =>
          if unread.length % 2 ^ 32 < hdr.msglen.toNat then
            (p, .error ("ENCAP ST: drop datagram, payload len expect "
              ++ toString hdr.msglen ++ ", have " ++ toString unread.length))
          else if hdr.msgflag ≠ encStHdrMsgFlagsNone then
            (p, .error "ENCAP ST: flag in header unsupported (zlib?)")
          else (p, decodeWith p unread)
  | .waitForData =>
      let p := { p with nextBlockSize := 0, state := .waitForHdr }
      (p, decodeWith p block)
  | .waitForHdr =>
      match readHdr block with
      | .error err => (p, .error err)
      | .ok (hdr, _) =>
        match cacheCodec p hdr.msgEncap with
        | .error err => (p, .error err)
        | .ok p =>
          if encStMaxPayload < hdr.msglen then
            (p, .error ("ENCAP ST: nextBlockBuffer failed; msg too long ["
              ++ toString hdr.msglen ++ "]"))
          else if hdr.msgflag ≠ encStHdrMsgFlagsNone then
            (p, .error "ENCAP ST: flag in header unsupported (zlib?)")
          else
            ({ p with nextBlockSize := hdr.msglen, state := .waitForData },
              .ok none)

/-! ## The codec cache -/

/-- The codecs a successfully created parser holds: one for each supported
    encoding, none for the encodings that are only produced. -/
def CodecsFrom (p : EncapSTParser M) : Prop :=
  ∀ e ∈ codecSupport, p.codecs e = some (decode e)

/-- A cached codec is the one the cached encapsulation names. -/
def CacheOk (p : EncapSTParser M) : Prop :=
  ∀ c, p.nextCodec = some c →
    ∃ e, msgEncapEncoding p.cachedMsgEncap = some e ∧ c = decode e

variable {p : EncapSTParser M}

/-- Every encapsulation with an encoding names a supported one. -/
theorem msgEncapEncoding_supported (h : msgEncapEncoding encap = some e) : e ∈ codecSupport := by
  unfold msgEncapEncoding at h
  split at h
  · cases h; decide
  · split at h
    · cases h; decide
    · split at h
      · cases h; decide
      · split at h
        · cases h; decide
        · exact nomatch h

/-- The parser a connection starts from. -/
theorem getNewEncapSTParser_ok (source : Option MsgProducer) :
    ∃ p, getNewEncapSTParser decode name source = .ok p ∧
      CodecsFrom decode p ∧ p.nextCodec = none ∧ p.source = source ∧
      p.state = (if source = none then .waitForAll else .waitForHdr) := by
  refine ⟨_, rfl, ?_, rfl, rfl, rfl⟩
  intro e he
  fin_cases he <;> rfl

/-- **THE CACHE IS TRANSPARENT**: caching the codec of an encapsulation
    succeeds exactly when the encapsulation names an encoding, and then the
    codec in use is that encoding's own, whatever was cached before. -/
theorem cacheCodec_ok {decode : Encoding → Codec M} (hc : CodecsFrom decode p)
    (hk : CacheOk decode p) (he : msgEncapEncoding encap = some e) :
    cacheCodec p encap
      = .ok { p with nextCodec := some (decode e), cachedMsgEncap := encap } := by
  unfold cacheCodec
  by_cases hmiss : (p.nextCodec.isNone || encap ≠ p.cachedMsgEncap) = true
  · rw [if_pos hmiss, he]
    show Except.ok _ = Except.ok _
    rw [hc e (msgEncapEncoding_supported he)]
  · rw [if_neg hmiss]
    -- a hit: the cached encapsulation is this one, so `CacheOk` names its codec
    simp only [Bool.or_eq_true, Option.isNone_iff_eq_none, ne_eq,
      decide_eq_true_eq, not_or, not_not] at hmiss
    obtain ⟨hsome, heq⟩ := hmiss
    obtain ⟨c, hcc⟩ := Option.ne_none_iff_exists'.mp hsome
    obtain ⟨e', he', hce⟩ := hk c hcc
    have hee : e' = e := by
      rw [← heq, he] at he'
      exact (Option.some.inj he').symm
    cases p with
    | mk n cs cached nc sz st src =>
        simp only at hcc heq
        rw [hcc, ← heq, hce, hee]

/-- An encapsulation naming no encoding is refused, cached codec or not. -/
theorem cacheCodec_error {decode : Encoding → Codec M} (hk : CacheOk decode p)
    (he : msgEncapEncoding encap = none) :
    cacheCodec p encap
      = .error ("ENCAP ST: no codec for msg encap [" ++ toString encap ++ "]") := by
  unfold cacheCodec
  by_cases hmiss : (p.nextCodec.isNone || encap ≠ p.cachedMsgEncap) = true
  · rw [if_pos hmiss, he]
  · exfalso
    simp only [Bool.or_eq_true, Option.isNone_iff_eq_none, ne_eq,
      decide_eq_true_eq, not_or, not_not] at hmiss
    obtain ⟨hsome, heq⟩ := hmiss
    obtain ⟨c, hcc⟩ := Option.ne_none_iff_exists'.mp hsome
    obtain ⟨e', he', -⟩ := hk c hcc
    rw [← heq, he] at he'
    exact nomatch he'

/-! ## The parser between frames -/

/-- A stream parser that has just finished a frame, or has not begun. -/
structure Idle (decode : Encoding → Codec M) (source : MsgProducer)
    (p : EncapSTParser M) : Prop where
  codecs : CodecsFrom decode p
  cache : CacheOk decode p
  state : p.state = .waitForHdr
  source : p.source = some source

/-- A freshly created stream parser is idle. -/
theorem idle_new (source : MsgProducer) :
    ∃ p, getNewEncapParser decode name "st" (some source) = .ok p ∧
      Idle decode source p := by
  obtain ⟨p, hp, hc, hn, hs, hst⟩ :=
    getNewEncapSTParser_ok decode name (some source)
  refine ⟨p, ?_, hc, ?_, ?_, hs⟩
  · rw [getNewEncapParser, if_pos rfl]
    exact hp
  · intro c hcc
    rw [hn] at hcc
    exact nomatch hcc
  · rw [hst, if_neg (by simp)]

/-- The parser waiting for the payload of an accepted header. -/
def pending (p : EncapSTParser M) (hdr : EncapSTHdr) (e : Encoding) : EncapSTParser M :=
  { p with
    nextCodec := some (decode e)
    cachedMsgEncap := hdr.msgEncap
    nextBlockSize := hdr.msglen
    state := .waitForData }

/-- The parser once that payload has been handed to the codec. -/
def settled (p : EncapSTParser M) (hdr : EncapSTHdr) (e : Encoding) : EncapSTParser M :=
  { pending decode p hdr e with nextBlockSize := 0, state := .waitForHdr }

/-- A settled parser is idle again, with the frame's own codec cached. -/
theorem idle_settled {decode : Encoding → Codec M} (hi : Idle decode source p) {hdr : EncapSTHdr}
    (he : msgEncapEncoding hdr.msgEncap = some e) :
    Idle decode source (settled decode p hdr e) := by
  refine ⟨hi.codecs, ?_, rfl, hi.source⟩
  intro c hc
  exact ⟨e, he, (Option.some.inj hc).symm⟩

/-- **HEADER STEP**: an idle parser accepts twelve octets exactly when they
    name an encoding, carry no flag and do not exceed the payload bound. -/
theorem nextBlock_hdr {decode : Encoding → Codec M} (hi : Idle decode source p) {hdr : Octets}
    (hl : hdr.length = encStHdrSize) :
    (∃ e, msgEncapEncoding (decodeHdr hdr).msgEncap = some e ∧
      (decodeHdr hdr).msgflag = encStHdrMsgFlagsNone ∧
      (decodeHdr hdr).msglen ≤ encStMaxPayload ∧
      nextBlock p hdr none = (pending decode p (decodeHdr hdr) e, .ok none)) ∨
    ((∀ e, msgEncapEncoding (decodeHdr hdr).msgEncap = some e →
        (decodeHdr hdr).msgflag = encStHdrMsgFlagsNone →
        ¬ (decodeHdr hdr).msglen ≤ encStMaxPayload) ∧
      ∃ p' err, nextBlock p hdr none = (p', .error err)) := by
  have hread : readHdr hdr = .ok (decodeHdr hdr, hdr.drop encStHdrSize) := by
    rw [readHdr, if_neg (by omega)]
  cases he : msgEncapEncoding (decodeHdr hdr).msgEncap with
  | none =>
      have herr := cacheCodec_error hi.cache he
      refine Or.inr ⟨fun e h => (nomatch h), ?_⟩
      simp only [nextBlock, hi.state, hread, herr]
      exact ⟨_, _, rfl⟩
  | some e =>
      have hcache := cacheCodec_ok hi.codecs hi.cache he
      by_cases hlen : encStMaxPayload < (decodeHdr hdr).msglen
      · refine Or.inr ⟨fun _ _ _ hle => absurd hlen (UInt32.not_lt.mpr hle), ?_⟩
        simp only [nextBlock, hi.state, hread, hcache]
        rw [if_pos hlen]
        exact ⟨_, _, rfl⟩
      · by_cases hflag : (decodeHdr hdr).msgflag = encStHdrMsgFlagsNone
        · refine Or.inl ⟨e, rfl, hflag, UInt32.not_lt.mp hlen, ?_⟩
          simp only [nextBlock, hi.state, hread, hcache]
          rw [if_neg hlen, if_neg (not_not.mpr hflag)]
          rfl
        · refine Or.inr ⟨fun _ _ h => absurd h hflag, ?_⟩
          simp only [nextBlock, hi.state, hread, hcache]
          rw [if_neg hlen, if_pos hflag]
          exact ⟨_, _, rfl⟩

/-- The accepting case of the header step. -/
theorem nextBlock_hdr_ok {decode : Encoding → Codec M} (hi : Idle decode source p) {hdr : Octets}
    (hl : hdr.length = encStHdrSize) (he : msgEncapEncoding (decodeHdr hdr).msgEncap = some e)
    (hflag : (decodeHdr hdr).msgflag = encStHdrMsgFlagsNone)
    (hle : (decodeHdr hdr).msglen ≤ encStMaxPayload) :
    nextBlock p hdr none = (pending decode p (decodeHdr hdr) e, .ok none) := by
  rcases nextBlock_hdr hi hl with ⟨e', he', -, -, hok⟩ | ⟨hbad, -⟩
  · rw [he] at he'
    rw [Option.some.inj he']
    exact hok
  · exact absurd hle (hbad e he hflag)

/-- **PAYLOAD STEP**: the payload goes to the codec of its own header. -/
theorem nextBlock_payload {decode : Encoding → Codec M} (hi : Idle decode source p)
    (hdr : EncapSTHdr) (e : Encoding) (payload : Octets) :
    nextBlock (pending decode p hdr e) payload none
      = (settled decode p hdr e, decode e source payload) := by
  show (settled decode p hdr e,
    decodeWith (settled decode p hdr e) payload) = _
  have hsrc : (settled decode p hdr e).source = some source := hi.source
  rw [decodeWith, hsrc]
  rfl

/-- A payload length from 1 on is not zero as a buffer size. -/
theorem msglen_ne_zero {n : UInt32} (h : 1 ≤ n) : n.toNat ≠ 0 := by
  have h1 : (1 : UInt32).toNat ≤ n.toNat := UInt32.le_iff_toNat_le.mp h
  have h2 : (1 : UInt32).toNat = 1 := rfl
  omega

/-- The buffer for the payload of an accepted header. -/
theorem nextBlockBuffer_pending (p : EncapSTParser M) {hdr : EncapSTHdr} (e : Encoding)
    (hle : hdr.msglen ≤ encStMaxPayload) (hpos : 1 ≤ hdr.msglen) :
    nextBlockBuffer (pending decode p hdr e) = .ok hdr.msglen.toNat := by
  have hne : hdr.msglen ≠ 0 := by
    intro h0
    exact msglen_ne_zero hpos (by rw [h0]; rfl)
  show (if hdr.msglen = 0 then _ else if encStMaxPayload < hdr.msglen then _
    else Except.ok hdr.msglen.toNat) = _
  rw [if_neg hne, if_neg (UInt32.not_lt.mpr hle)]

/-- An idle parser asks for a header. -/
theorem nextBlockBuffer_idle {decode : Encoding → Codec M} (hi : Idle decode source p) :
    nextBlockBuffer p = .ok encStHdrSize := by
  rw [nextBlockBuffer, hi.state]

/-! ## The parser on datagrams -/

/-- A datagram parser, before or after any number of datagrams. -/
structure DatagramReady (decode : Encoding → Codec M) (p : EncapSTParser M) : Prop where
  codecs : CodecsFrom decode p
  cache : CacheOk decode p
  state : p.state = .waitForAll

/-- A freshly created parser without a source is ready for datagrams. -/
theorem datagramReady_new :
    ∃ p, getNewEncapParser decode name "st" none = .ok p ∧ DatagramReady decode p := by
  obtain ⟨p, hp, hc, hn, -, hst⟩ := getNewEncapSTParser_ok decode name none
  refine ⟨p, ?_, hc, ?_, ?_⟩
  · rw [getNewEncapParser, if_pos rfl]
    exact hp
  · intro c hcc
    rw [hn] at hcc
    exact nomatch hcc
  · rw [hst, if_pos rfl]

/-- What one datagram is worth, from its own octets alone. -/
def parseDatagram (source : MsgProducer) (block : Octets) : Except GoError (Option (List M)) :=
  match readHdr block with
  | .error err => .error err
  | .ok (hdr, unread) =>
    match msgEncapEncoding hdr.msgEncap with
    | none => .error ("ENCAP ST: no codec for msg encap [" ++ toString hdr.msgEncap ++ "]")
    | some e =>
      if unread.length % 2 ^ 32 < hdr.msglen.toNat then
        .error ("ENCAP ST: drop datagram, payload len expect "
          ++ toString hdr.msglen ++ ", have " ++ toString unread.length)
      else if hdr.msgflag ≠ encStHdrMsgFlagsNone then
        .error "ENCAP ST: flag in header unsupported (zlib?)"
      else decode e source unread

/-- **DATAGRAMS ARE INDEPENDENT**: whatever a datagram parser was fed before, it
    answers the next datagram by that datagram's own octets, and is ready for
    the one after it. -/
theorem nextBlock_datagram {decode : Encoding → Codec M} (hr : DatagramReady decode p)
    (source : MsgProducer) (block : Octets) :
    ∃ p', nextBlock p block (some source) = (p', parseDatagram decode source block) ∧
      DatagramReady decode p' := by
  obtain ⟨name, codecs, cachedMsgEncap, nextCodec, nextBlockSize, state, source'⟩ := p
  obtain rfl : state = .waitForAll := hr.state
  -- the source of the datagram replaces the one before
  have hset : DatagramReady decode ⟨name, codecs, cachedMsgEncap, nextCodec,
      nextBlockSize, .waitForAll, some source⟩ := ⟨hr.codecs, hr.cache, rfl⟩
  simp only [nextBlock, parseDatagram]
  cases readHdr block with
  | error err => exact ⟨_, rfl, hset⟩
  | ok read =>
      obtain ⟨hdr, unread⟩ := read
      simp only
      cases he : msgEncapEncoding hdr.msgEncap with
      | none =>
          rw [cacheCodec_error hset.cache he]
          exact ⟨_, rfl, hset⟩
      | some e =>
          rw [cacheCodec_ok hset.codecs hset.cache he]
          refine ⟨⟨name, codecs, hdr.msgEncap, some (decode e), nextBlockSize,
            .waitForAll, some source⟩, ?_, hset.codecs, ?_, rfl⟩
          · simp only
            split
            · rfl
            · split <;> rfl
          · intro c hc
            exact ⟨e, he, (Option.some.inj hc).symm⟩

/-- A datagram parser asks for the longest datagram there is. -/
theorem nextBlockBuffer_datagram {decode : Encoding → Codec M} (hr : DatagramReady decode p) :
    nextBlockBuffer p = .ok encStMaxDgram.toNat := by
  rw [nextBlockBuffer, hr.state]

end PipelineEncapSt
