import PipelineGnmi.UdpServerProofs

/-! # Datagram mode against stream mode

    `nextBlock` (`encap_st.go`) reads the same header in two branches.  On a
    stream the header says how many octets to read next, and the codec is given
    these.  In a datagram the header is checked against what is left of the
    datagram, and the codec is given ALL that is left.

    So the two modes agree on a datagram exactly when nothing follows the
    payload its header announces, as far as the codec can tell
    (`datagram_agrees_iff`). -/

namespace PipelineDatagramMode

open PipelineMessage PipelineEncapSt PipelineUdpServer

variable {M : Type}

variable (decode : Encoding → Codec M) (name : String) (d : Datagram)

/-- What a fresh stream parser makes of a header and then of a payload. -/
def streamParse (source : MsgProducer) (hdr payload : Octets) : Except GoError (Option (List M)) :=
  match getNewEncapParser decode name "st" (some source) with
  | .error err => .error err
  | .ok p =>
    match nextBlock p hdr none with
    | (_, .error err) => .error err
    | (p, .ok _) => (nextBlock p payload none).2

/-- The payload length a datagram announces. -/
def msglen (d : Datagram) : Nat := (decodeHdr d.payload).msglen.toNat

/-- What follows the header of a datagram. -/
def body (d : Datagram) : Octets := d.payload.drop encStHdrSize

/-- The payload the header of a datagram announces. -/
def announced (d : Datagram) : Octets := (body d).take (msglen d)

/-- Datagram mode returns what stream mode returns: if a datagram parser, fed
    anything before, accepts the datagram, then a fresh stream parser returns the
    same messages for its header and the announced payload. -/
def Agrees (decode : Encoding → Codec M) (name : String) (d : Datagram) : Prop :=
  ∀ p, DatagramReady decode p → ∀ msgs,
    (nextBlock p d.payload (some d.remoteAddr)).2 = .ok msgs →
      streamParse decode name d.remoteAddr (d.payload.take encStHdrSize) (announced d)
        = .ok msgs

/-- The header is one a datagram may have: it names the encoding `e`, announces
    no more than there is and carries no flag. -/
structure HeaderOk (d : Datagram) (e : Encoding) : Prop where
  size : encStHdrSize ≤ d.payload.length
  encap : msgEncapEncoding (decodeHdr d.payload).msgEncap = some e
  len : msglen d ≤ (body d).length
  flag : (decodeHdr d.payload).msgflag = encStHdrMsgFlagsNone

/-- Octets follow the announced payload. -/
def Trailing (d : Datagram) : Prop := encStHdrSize + msglen d < d.payload.length

theorem length_body : (body d).length = d.payload.length - encStHdrSize :=
  List.length_drop

/-- Without trailing octets the announced payload is all there is. -/
theorem announced_eq_body {d : Datagram} (h : ¬ Trailing d) : announced d = body d := by
  refine List.take_of_length_le ?_
  rw [length_body]
  unfold Trailing at h
  omega

/-- With trailing octets the announced payload is shorter. -/
theorem announced_length_lt {d : Datagram} {e : Encoding} (hok : HeaderOk d e)
    (h : Trailing d) : (announced d).length < (body d).length := by
  have hsize := hok.size
  unfold Trailing at h
  rw [announced, List.length_take, length_body]
  omega

/-- The header is the first twelve octets, whatever follows. -/
theorem decodeHdr_take {b : Octets} : decodeHdr (b.take encStHdrSize) = decodeHdr b := by
  have h12 : encStHdrSize = 12 := rfl
  simp only [decodeHdr, List.take_take, List.drop_take, h12]
  rfl

/-- **DATAGRAM MODE**: the datagram is accepted when its header is and the codec
    accepts everything behind it. -/
theorem parseDatagram_ok_iff (msgs : Option (List M)) :
    parseDatagram decode d.remoteAddr d.payload = .ok msgs ↔
      ∃ e, HeaderOk d e ∧ decode e d.remoteAddr (body d) = .ok msgs := by
  -- a datagram is too short for its length to wrap around
  have hmod : (body d).length % 2 ^ 32 = (body d).length := by
    have hsize := d.size
    refine Nat.mod_eq_of_lt ?_
    rw [length_body]
    omega
  unfold parseDatagram readHdr
  by_cases hshort : d.payload.length < encStHdrSize
  · rw [if_pos hshort]
    constructor
    · exact fun h => nomatch h
    · rintro ⟨e, hok, -⟩
      exact absurd hok.size (Nat.not_le.mpr hshort)
  · rw [if_neg hshort]
    simp only
    cases he : msgEncapEncoding (decodeHdr d.payload).msgEncap with
    | none =>
        constructor
        · exact fun h => nomatch h
        · rintro ⟨e, hok, -⟩
          have hencap := hok.encap
          rw [he] at hencap
          exact nomatch hencap
    | some e =>
        simp only
        change (if (body d).length % 2 ^ 32 < msglen d then _ else _) = _ ↔ _
        rw [hmod]
        constructor
        · intro h
          split at h
          · exact nomatch h
          · next hlen =>
              split at h
              · exact nomatch h
              · next hflag =>
                  exact ⟨e, ⟨Nat.not_lt.mp hshort, he, Nat.not_lt.mp hlen, not_not.mp hflag⟩, h⟩
        · rintro ⟨e', hok, h⟩
          have hencap := hok.encap
          rw [he] at hencap
          cases hencap
          rw [if_neg (Nat.not_lt.mpr hok.len), if_neg (not_not.mpr hok.flag)]
          exact h

/-- **STREAM MODE**: behind a header a datagram may have, the codec is given the
    payload. -/
theorem streamParse_eq {d : Datagram} {e : Encoding} (hok : HeaderOk d e) (payload : Octets) :
    streamParse decode name d.remoteAddr (d.payload.take encStHdrSize) payload
      = decode e d.remoteAddr payload := by
  obtain ⟨p, hnew, hi⟩ := idle_new decode name d.remoteAddr
  have hl : (d.payload.take encStHdrSize).length = encStHdrSize := by
    rw [List.length_take, Nat.min_eq_left hok.size]
  -- what a datagram can announce never exceeds the bound on a stream
  have hle : (decodeHdr d.payload).msglen ≤ encStMaxPayload := by
    have hlen := hok.len
    have hsize := d.size
    have hmax : encStMaxPayload.toNat = 1048576 := rfl
    rw [length_body] at hlen
    rw [UInt32.le_iff_toNat_le, hmax]
    unfold msglen at hlen
    omega
  have hstep := nextBlock_hdr_ok hi hl (e := e) (by rw [decodeHdr_take]; exact hok.encap)
    (by rw [decodeHdr_take]; exact hok.flag) (by rw [decodeHdr_take]; exact hle)
  rw [streamParse, hnew]
  simp only
  rw [hstep]
  simp only
  rw [nextBlock_payload hi]

/-- The codec cannot tell the announced payload from the whole rest, when it
    accepts that. -/
def Blind (codec : Codec M) (d : Datagram) : Prop :=
  ∀ msgs, codec d.remoteAddr (body d) = .ok msgs → codec d.remoteAddr (announced d) = .ok msgs

/-- The modes agree when the codec is blind to what trails. -/
theorem agrees_iff_blind :
    Agrees decode name d ↔ ∀ e, HeaderOk d e → Trailing d → Blind (decode e) d := by
  constructor
  · intro h e hok _ msgs hwhole
    obtain ⟨p, -, hready⟩ := datagramReady_new decode name
    obtain ⟨p', hnext, -⟩ := nextBlock_datagram hready d.remoteAddr d.payload
    rw [← streamParse_eq decode name hok]
    refine h p hready msgs ?_
    rw [hnext]
    exact (parseDatagram_ok_iff decode d msgs).mpr ⟨e, hok, hwhole⟩
  · intro h p hready msgs haccept
    obtain ⟨p', hnext, -⟩ := nextBlock_datagram hready d.remoteAddr d.payload
    rw [hnext] at haccept
    obtain ⟨e, hok, hwhole⟩ := (parseDatagram_ok_iff decode d msgs).mp haccept
    rw [streamParse_eq decode name hok]
    by_cases htrail : Trailing d
    · exact h e hok htrail msgs hwhole
    · rw [announced_eq_body htrail]
      exact hwhole

/-- A codec that accepts blocks of one length. -/
def exactly (n : Nat) : Encoding → Codec M :=
  fun _ _ block => if block.length = n then .ok none else .error "unexpected length"

/-- **THE MODES AGREE UNLESS OCTETS TRAIL**: for each codec, exactly when it is
    blind to what trails the announced payload; for all codecs, exactly when
    nothing trails it. -/
theorem datagram_agrees_iff (name : String) (d : Datagram) :
    (∀ decode : Encoding → Codec M,
      Agrees decode name d ↔ ∀ e, HeaderOk d e → Trailing d → Blind (decode e) d) ∧
    ((∀ decode : Encoding → Codec M, Agrees decode name d) ↔
      ∀ e, HeaderOk d e → ¬ Trailing d) := by
  refine ⟨fun decode => agrees_iff_blind decode name d, ?_⟩
  constructor
  · intro h e hok htrail
    -- a codec that minds the length sees the difference
    have hblind := (agrees_iff_blind _ name d).mp (h (exactly (body d).length)) e hok htrail
      none (if_pos rfl)
    unfold exactly at hblind
    rw [if_neg (Nat.ne_of_lt (announced_length_lt hok htrail))] at hblind
    exact nomatch hblind
  · intro h decode
    exact (agrees_iff_blind decode name d).mpr (fun e hok htrail => absurd htrail (h e hok))

/-- A JSON datagram that announces one octet and holds two. -/
def trailingDatagram : Datagram :=
  ⟨"10.0.0.1", [0, 1, 0, 2, 0, 1, 0, 0, 0, 0, 0, 1, 123, 125], by decide⟩

/-- The octet behind the payload reaches the codec. -/
theorem trailing_reaches_codec :
    freshParse wholeBlocks "udpin" "st" trailingDatagram = .ok (some [[123, 125]]) ∧
    streamParse wholeBlocks "udpin" "10.0.0.1" (trailingDatagram.payload.take encStHdrSize)
      (announced trailingDatagram) = .ok (some [[123]]) ∧
    ¬ Agrees wholeBlocks "udpin" trailingDatagram := by
  refine ⟨rfl, rfl, ?_⟩
  intro h
  obtain ⟨p, -, hready⟩ := datagramReady_new wholeBlocks "udpin"
  obtain ⟨p', hnext, -⟩ := nextBlock_datagram hready trailingDatagram.remoteAddr
    trailingDatagram.payload
  have hsame := h p hready (some [[123, 125]]) (by rw [hnext]; rfl)
  exact absurd (congrArg (fun r => (r.toOption.bind id).map List.flatten) hsame) (by decide)

end PipelineDatagramMode
