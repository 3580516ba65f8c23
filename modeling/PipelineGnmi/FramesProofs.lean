import PipelineGnmi.EncapStProofs

/-! # The grammar of a telemetry stream

    What the octets of a connection or of an archive mean, stated without the
    parser: `ValidFrame` is one frame with the messages its own codec makes of
    it, `Frames` a concatenation of frames, `MaximalFramed` the longest framed
    prefix of a stream.  Frames are a prefix code
    (`validFrame_prefix_unique`), so a stream has ONE maximal framed prefix
    and it determines its messages (`maximalFramed_unique`). -/

namespace PipelineFrames

open PipelineMessage PipelineEncapSt

variable {M : Type}

/-- The messages a codec result stands for; the nil slice carries none. -/
def msgsOf (r : Option (List M)) : List M := r.getD []

/-- One frame, with what the codec named by its own header returns on exactly
    its payload. -/
def FrameResult (decode : Encoding → Codec M) (source : MsgProducer)
    (f : Octets) (r : Option (List M)) : Prop :=
  ∃ hdr payload e, f = hdr ++ payload ∧ hdr.length = encStHdrSize ∧
    msgEncapEncoding (decodeHdr hdr).msgEncap = some e ∧
    (decodeHdr hdr).msgflag = encStHdrMsgFlagsNone ∧
    1 ≤ (decodeHdr hdr).msglen ∧ (decodeHdr hdr).msglen ≤ encStMaxPayload ∧
    payload.length = (decodeHdr hdr).msglen.toNat ∧
    decode e source payload = .ok r

/-- One valid frame and its messages. -/
def ValidFrame (decode : Encoding → Codec M) (source : MsgProducer)
    (f : Octets) (msgs : List M) : Prop :=
  ∃ r, FrameResult decode source f r ∧ msgs = msgsOf r

/-- A concatenation of valid frames, with their messages in order. -/
inductive Frames (decode : Encoding → Codec M) (source : MsgProducer) :
    Octets → List M → Prop where
  | nil : Frames decode source [] []
  | cons {f fs : Octets} {ms mss : List M} :
      ValidFrame decode source f ms → Frames decode source fs mss →
      Frames decode source (f ++ fs) (ms ++ mss)

/-- The longest prefix of `s` that is a concatenation of valid frames. -/
structure MaximalFramed (decode : Encoding → Codec M) (source : MsgProducer)
    (s pre : Octets) (msgs : List M) : Prop where
  isPrefix : pre <+: s
  framed : Frames decode source pre msgs
  maximal : ∀ pre' msgs', pre' <+: s → Frames decode source pre' msgs' →
    pre' <+: pre

variable {decode : Encoding → Codec M} {ms : List M} {s : Octets} {source : MsgProducer}

/-- **FRAMES ARE A PREFIX CODE**: two valid frames opening the same stream are
    the same frame with the same messages. -/
theorem validFrame_prefix_unique {f g t : Octets} {ns : List M} (hf : ValidFrame decode source f ms)
    (hg : ValidFrame decode source g ns) (h : f ++ s = g ++ t) : f = g ∧ ms = ns := by
  obtain ⟨r1, ⟨h1, p1, e1, rfl, hl1, he1, -, -, -, hp1, hd1⟩, rfl⟩ := hf
  obtain ⟨r2, ⟨h2, p2, e2, rfl, hl2, he2, -, -, -, hp2, hd2⟩, rfl⟩ := hg
  rw [List.append_assoc, List.append_assoc] at h
  -- headers have one length, and the header fixes the payload's
  obtain ⟨rfl, hrest⟩ := List.append_inj h (hl1.trans hl2.symm)
  obtain ⟨rfl, -⟩ := List.append_inj hrest (hp1.trans hp2.symm)
  have hee : e1 = e2 := Option.some.inj (he1.symm.trans he2)
  subst hee
  have hrr : r1 = r2 := Except.ok.inj (hd1.symm.trans hd2)
  rw [hrr]
  exact ⟨rfl, rfl⟩

/-- A valid frame is not empty: it carries at least its header. -/
theorem validFrame_length_pos {f : Octets} (hf : ValidFrame decode source f ms) : 0 < f.length := by
  obtain ⟨-, ⟨hdr, payload, -, rfl, hl, -⟩, -⟩ := hf
  have h12 : hdr.length = 12 := hl
  rw [List.length_append]
  omega

/-- Framed octets determine their messages. -/
theorem frames_msgs_unique {ns : List M} (hm : Frames decode source s ms)
    (hn : Frames decode source s ns) : ms = ns := by
  induction hm generalizing ns with
  | nil =>
      -- the index has to be a variable before `hn` can be split
      generalize hs : ([] : Octets) = s at hn
      cases hn with
      | nil => rfl
      | cons hf _ =>
          have hpos := validFrame_length_pos hf
          have hlen := congrArg List.length hs
          rw [List.length_append, List.length_nil] at hlen
          omega
  | @cons f fs ms₁ mss hf _ ih =>
      generalize hs : f ++ fs = s at hn
      cases hn with
      | nil =>
          have hpos := validFrame_length_pos hf
          have hlen := congrArg List.length hs
          rw [List.length_append, List.length_nil] at hlen
          omega
      | cons hg hrest =>
          obtain ⟨rfl, rfl⟩ := validFrame_prefix_unique hf hg hs
          rw [ih (List.append_cancel_left hs ▸ hrest)]

/-- The maximal framed prefix and its messages are unique. -/
theorem maximalFramed_unique {pre pre' : Octets} {ms' : List M}
    (h : MaximalFramed decode source s pre ms) (h' : MaximalFramed decode source s pre' ms') :
    pre' = pre ∧ ms' = ms := by
  have h1 := h.maximal pre' ms' h'.isPrefix h'.framed
  have h2 := h'.maximal pre ms h.isPrefix h.framed
  have heq : pre' = pre := h1.eq_of_length (Nat.le_antisymm h1.length_le h2.length_le)
  subst heq
  exact ⟨rfl, frames_msgs_unique h'.framed h.framed⟩

end PipelineFrames
