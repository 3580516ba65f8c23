import PipelineGnmi.FramesProofs

/-! # Stream framing — the TCP loop equals its grammar

    `handleConnection` (`xport_tcp.go`) alternates `nextBlockBuffer`,
    `io.ReadFull` and `nextBlock` over the octets of one connection and sprays
    what comes out over the data channels.

    The route to the headline `handleConnection_framing`: between frames the
    parser is `Idle`, whatever it decoded before, and

    * from an idle parser a valid frame is delivered and leaves an idle parser
      (`connectionLoop_frame`), and without one nothing is delivered
      (`connectionLoop_stuck`);
    * valid frames are a prefix code (`validFrame_prefix_unique`), so the
      greedy loop finds the maximal prefix. -/

namespace PipelineTcpStream

open PipelineMessage PipelineEncapSt PipelineFrames

variable {M : Type}

/-- `io.ReadFull` on what is left of the connection; `none` when the peer
    closes before the buffer is full. -/
def readFull (n : Nat) (s : Octets) : Option (Octets × Octets) :=
  if n ≤ s.length then some (s.take n, s.drop n) else none

variable {n : Nat} {s : Octets} {p : EncapSTParser M} {decode : Encoding → Codec M}
  {source : MsgProducer}

/-- What is left after a full read is shorter by the buffer. -/
theorem readFull_length {b rest : Octets} (h : readFull n s = some (b, rest)) :
    rest.length + n = s.length := by
  unfold readFull at h
  split at h
  next hle =>
    cases h
    rw [List.length_drop]
    omega
  next => exact nomatch h

/-- The loop of `handleConnection`, over the unread octets and the sequences
    sent so far on the data channels. -/
def connectionLoop (p : EncapSTParser M) (s : Octets) (dataChans : List (List M)) : List (List M) :=
  match nextBlockBuffer p with
  | .error _ => dataChans
  | .ok n =>
    if _hn : n = 0 then dataChans
    else
      match _hr : readFull n s with
      | none => dataChans
      | some (buffer, rest) =>
        match nextBlock p buffer none with
        | (_, .error _) => dataChans
        | (p, .ok none) => connectionLoop p rest dataChans
        | (p, .ok (some msgs)) => connectionLoop p rest (spray msgs dataChans)
termination_by s.length
decreasing_by
  all_goals
    have := readFull_length _hr
    omega

/-- `handleConnection`, up to the end of the stream. -/
def handleConnection (decode : Encoding → Codec M) (name encap : String)
    (remoteAddr : MsgProducer) (s : Octets) (dataChans : List (List M)) : List (List M) :=
  match getNewEncapParser decode name encap (some remoteAddr) with
  | .error _ => dataChans
  | .ok p => connectionLoop p s dataChans

/-! ## The loop -/

/-- A failed buffer request ends the loop. -/
theorem connectionLoop_no_buffer {err : GoError} (h : nextBlockBuffer p = .error err) (s : Octets)
    (dataChans : List (List M)) : connectionLoop p s dataChans = dataChans := by
  rw [connectionLoop, h]

/-- So does a request for no octets. -/
theorem connectionLoop_empty (h : nextBlockBuffer p = .ok 0) (s : Octets)
    (dataChans : List (List M)) : connectionLoop p s dataChans = dataChans := by
  rw [connectionLoop, h]
  rfl

/-- A stream too short for the requested buffer ends the loop. -/
theorem connectionLoop_short (h : nextBlockBuffer p = .ok n) (hs : s.length < n)
    (dataChans : List (List M)) : connectionLoop p s dataChans = dataChans := by
  have hr : readFull n s = none := if_neg (by omega)
  rw [connectionLoop, h]
  simp only
  rw [dif_neg (by omega), hr]

/-- One full iteration of the loop. -/
theorem connectionLoop_read (h : nextBlockBuffer p = .ok n) (hn : n ≠ 0) {b rest : Octets}
    (hb : b.length = n) (dataChans : List (List M)) :
    connectionLoop p (b ++ rest) dataChans
      = match nextBlock p b none with
        | (_, .error _) => dataChans
        | (p, .ok none) => connectionLoop p rest dataChans
        | (p, .ok (some msgs)) => connectionLoop p rest (spray msgs dataChans) := by
  have hr : readFull n (b ++ rest) = some (b, rest) := by
    rw [readFull, if_pos (by rw [List.length_append]; omega), List.take_left' hb,
      List.drop_left' hb]
  rw [connectionLoop, h]
  simp only
  rw [dif_neg hn, hr]

/-- Whatever the octets, the loop delivers the same messages to every channel.
    The induction is on the length of the stream. -/
theorem connectionLoop_yields (p : EncapSTParser M) (s : Octets) :
    ∃ msgs, ∀ dataChans, connectionLoop p s dataChans = dataChans.map (· ++ msgs) := by
  induction hlen : s.length using Nat.strong_induction_on generalizing p s with
  | h len ih =>
      have hnone : (∀ dataChans, connectionLoop p s dataChans = dataChans) →
          ∃ msgs, ∀ dataChans, connectionLoop p s dataChans = dataChans.map (· ++ msgs) :=
        fun hstop => ⟨[], fun dataChans => by rw [hstop]; simp⟩
      cases hbuf : nextBlockBuffer p with
      | error err => exact hnone (connectionLoop_no_buffer hbuf s)
      | ok n =>
          by_cases hn : n = 0
          · subst hn
            exact hnone (connectionLoop_empty hbuf s)
          by_cases hshort : s.length < n
          · exact hnone (connectionLoop_short hbuf hshort)
          obtain ⟨b, rest, rfl, hb⟩ : ∃ b rest, s = b ++ rest ∧ b.length = n :=
            ⟨s.take n, s.drop n, (List.take_append_drop ..).symm, by
              rw [List.length_take]; omega⟩
          have hrest : rest.length < len := by
            rw [List.length_append] at hlen
            omega
          cases hnext : nextBlock p b none with
          | mk p' r =>
              cases r with
              | error err =>
                  refine hnone (fun dataChans => ?_)
                  rw [connectionLoop_read hbuf hn hb, hnext]
              | ok r =>
                  obtain ⟨msgs, hmsgs⟩ := ih rest.length hrest p' rest rfl
                  refine ⟨r.getD [] ++ msgs, fun dataChans => ?_⟩
                  rw [connectionLoop_read hbuf hn hb, hnext]
                  cases r with
                  | none => simp [hmsgs]
                  | some first => simp [spray_eq, hmsgs]

/-- **FRAME STEP**: from an idle parser a valid frame is delivered to every
    channel, and the parser is idle again. -/
theorem connectionLoop_frame (hi : Idle decode source p) {f : Octets} {ms : List M}
    (hf : ValidFrame decode source f ms) (rest : Octets) :
    ∃ p', Idle decode source p' ∧ ∀ dataChans,
      connectionLoop p (f ++ rest) dataChans
        = connectionLoop p' rest (dataChans.map (· ++ ms)) := by
  obtain ⟨r, ⟨hdr, payload, e, rfl, hl, he, hflag, hpos, hle, hp, hd⟩, rfl⟩ := hf
  refine ⟨settled decode p (decodeHdr hdr) e, idle_settled hi he, ?_⟩
  have hstep := nextBlock_hdr_ok hi hl he hflag hle
  intro dataChans
  rw [List.append_assoc,
    connectionLoop_read (nextBlockBuffer_idle hi) (by decide) hl, hstep]
  simp only
  rw [connectionLoop_read (nextBlockBuffer_pending decode p e hle hpos)
    (msglen_ne_zero hpos) hp, nextBlock_payload hi, hd]
  cases r with
  | none => simp [msgsOf]
  | some msgs =>
      simp only [msgsOf, Option.getD_some]
      rw [spray_eq]

/-- **STUCK STEP**: a stream that does not open with a valid frame delivers
    nothing. -/
theorem connectionLoop_stuck (hi : Idle decode source p)
    (hno : ∀ f rest ms, s = f ++ rest → ¬ ValidFrame decode source f ms)
    (dataChans : List (List M)) : connectionLoop p s dataChans = dataChans := by
  by_cases hs : s.length < encStHdrSize
  · exact connectionLoop_short (nextBlockBuffer_idle hi) hs dataChans
  · obtain ⟨hdr, body, rfl, hl⟩ : ∃ hdr body, s = hdr ++ body ∧
        hdr.length = encStHdrSize :=
      ⟨s.take encStHdrSize, s.drop encStHdrSize,
        (List.take_append_drop ..).symm, by rw [List.length_take]; omega⟩
    rw [connectionLoop_read (nextBlockBuffer_idle hi) (by decide) hl]
    rcases nextBlock_hdr hi hl with ⟨e, he, hflag, hle, hok⟩ | ⟨-, p', err, hbad⟩
    · -- the header is accepted, so it is the payload that is wrong
      rw [hok]
      simp only
      by_cases hpos : 1 ≤ (decodeHdr hdr).msglen
      · have hbuf := nextBlockBuffer_pending decode p e hle hpos
        by_cases hshort : body.length < (decodeHdr hdr).msglen.toNat
        · exact connectionLoop_short hbuf hshort dataChans
        · obtain ⟨payload, rest, rfl, hp⟩ : ∃ payload rest,
              body = payload ++ rest ∧
              payload.length = (decodeHdr hdr).msglen.toNat :=
            ⟨body.take (decodeHdr hdr).msglen.toNat,
              body.drop (decodeHdr hdr).msglen.toNat,
              (List.take_append_drop ..).symm, by rw [List.length_take]; omega⟩
          rw [connectionLoop_read hbuf (msglen_ne_zero hpos) hp,
            nextBlock_payload hi]
          cases hd : decode e source payload with
          | error err => rfl
          | ok r =>
              refine absurd ?_ (hno (hdr ++ payload) rest (msgsOf r)
                (List.append_assoc ..).symm)
              exact ⟨r, ⟨hdr, payload, e, rfl, hl, he, hflag, hpos, hle, hp, hd⟩, rfl⟩
      · -- a zero length is accepted in the header but gets no buffer
        have hzero : (decodeHdr hdr).msglen = 0 := by
          rw [UInt32.le_iff_toNat_le] at hpos
          have h2 : (1 : UInt32).toNat = 1 := rfl
          refine UInt32.toNat_inj.mp ?_
          have h3 : (0 : UInt32).toNat = 0 := rfl
          omega
        have hreq : nextBlockBuffer (pending decode p (decodeHdr hdr) e)
            = .error "ENCAP  ST: req 0 size buffer" := by
          show (if (decodeHdr hdr).msglen = 0 then _ else _) = _
          rw [if_pos hzero]
        exact connectionLoop_no_buffer hreq body dataChans
    · rw [hbad]

/-- The loop from an idle parser delivers the maximal framed prefix.  The
    induction is on the length of the stream; a valid opening frame is the
    first frame of every framed prefix, because frames are a prefix code. -/
theorem connectionLoop_framing :
    ∀ (n : Nat) (s : Octets) (p : EncapSTParser M), s.length ≤ n →
      Idle decode source p → ∃ pre msgs, MaximalFramed decode source s pre msgs ∧
        ∀ dataChans, connectionLoop p s dataChans = dataChans.map (· ++ msgs) := by
  intro n
  induction n with
  | zero =>
      intro s p hs hi
      have hnil : s = [] := List.length_eq_zero_iff.mp (Nat.le_zero.mp hs)
      subst hnil
      refine ⟨[], [], ⟨List.prefix_rfl, Frames.nil, ?_⟩, ?_⟩
      · intro pre' _ hpre _
        exact hpre
      · intro dataChans
        rw [connectionLoop_short (nextBlockBuffer_idle hi) (by decide)]
        simp
  | succ n ih =>
      intro s p hs hi
      by_cases hex : ∃ f rest ms, s = f ++ rest ∧ ValidFrame decode source f ms
      · obtain ⟨f, rest, ms, rfl, hf⟩ := hex
        have hpos := validFrame_length_pos hf
        obtain ⟨p', hi', hstep⟩ := connectionLoop_frame hi hf rest
        have hrest : rest.length ≤ n := by
          rw [List.length_append] at hs
          omega
        obtain ⟨pre, msgs, hmax, hall⟩ := ih rest p' hrest hi'
        refine ⟨f ++ pre, ms ++ msgs, ⟨?_, ?_, ?_⟩, ?_⟩
        · exact (List.prefix_append_right_inj f).mpr hmax.isPrefix
        · exact Frames.cons hf hmax.framed
        · intro pre' msgs' hpre hfr
          cases hfr with
          | nil => exact List.nil_prefix
          | @cons g gs ns nss hg hgs =>
              obtain ⟨t, ht⟩ := hpre
              rw [List.append_assoc] at ht
              -- any other framed prefix opens with this very frame
              obtain ⟨rfl, -⟩ := validFrame_prefix_unique hg hf ht
              have hgr : gs <+: rest := ⟨t, List.append_cancel_left ht⟩
              exact (List.prefix_append_right_inj g).mpr
                (hmax.maximal gs nss hgr hgs)
        · intro dataChans
          rw [hstep, hall, List.map_map]
          refine List.map_congr_left ?_
          intro c _
          simp
      -- no frame opens the stream: the empty prefix is maximal
      · have hno : ∀ f rest ms, s = f ++ rest → ¬ ValidFrame decode source f ms :=
          fun f rest ms h hf => hex ⟨f, rest, ms, h, hf⟩
        refine ⟨[], [], ⟨List.nil_prefix, Frames.nil, ?_⟩, ?_⟩
        · intro pre' _ hpre hfr
          cases hfr with
          | nil => exact List.prefix_rfl
          | cons hg _ =>
              obtain ⟨t, ht⟩ := hpre
              rw [List.append_assoc] at ht
              exact absurd hg (hno _ _ _ ht.symm)
        · intro dataChans
          rw [connectionLoop_stuck hi hno]
          simp

/-- **STREAM FRAMING EQUALS ITS GRAMMAR**: over any octets received on a
    connection, every data channel receives exactly the messages of the maximal
    framed prefix, which is unique, and nothing after it. -/
theorem handleConnection_framing (decode : Encoding → Codec M) (name : String)
    (remoteAddr : MsgProducer) (s : Octets) :
    ∃ pre msgs, MaximalFramed decode remoteAddr s pre msgs ∧
      (∀ pre' msgs', MaximalFramed decode remoteAddr s pre' msgs' →
        pre' = pre ∧ msgs' = msgs) ∧
      ∀ dataChans, handleConnection decode name "st" remoteAddr s dataChans
        = dataChans.map (· ++ msgs) := by
  obtain ⟨p, hp, hi⟩ := idle_new decode name remoteAddr
  obtain ⟨pre, msgs, hmax, hloop⟩ :=
    connectionLoop_framing s.length s p (Nat.le_refl _) hi
  refine ⟨pre, msgs, hmax, fun _ _ h => maximalFramed_unique hmax h, ?_⟩
  intro dataChans
  rw [handleConnection, hp]
  exact hloop dataChans

end PipelineTcpStream
