import PipelineGnmi.ReplayTickProofs

/-! # Messages that are too long for an archive

    The raw tap (`tap.go`) writes a frame for a message of any length, with the
    length cut to 32 bits.  The replay input reads the archive with the stream
    parser (`encap_st.go`), which refuses a length above its maximum, and a
    refused header ends the replay.

    So an archive is replayed to its end exactly when no message in it is longer
    than the maximum (`archive_replayable_iff`); the messages behind one that is
    longer are out of reach. -/

namespace PipelineRawArchive

open PipelineMessage PipelineDataMsg PipelineEncapSt PipelineFrames PipelineTap
open PipelineReplay PipelineReplayTick Transition

variable {lib : ProtoLib} {xlation : String → Option String} {t : ReplayInputModule}

/-- The archivable codecs keep the octets of a block as they are. -/
theorem blockToDataMsgs_original {e : Encoding} (he : e = .json ∨ e = .gpb)
    {source : MsgProducer} {block : Octets} {msgs : List DataMsg}
    (h : blockToDataMsgs lib xlation e source block = .ok (some msgs)) :
    ∃ d, msgs = [d] ∧ d.original = block := by
  rcases he with rfl | rfl
  · cases h
    exact ⟨_, rfl, rfl⟩
  · obtain ⟨tel, -, hmsgs⟩ := codecGPB_ok h
    exact ⟨_, Option.some.inj hmsgs, rfl⟩

/-- The frame of an archivable message: a JSON or a GPB header and its octets. -/
theorem rawFrame_eq (hinv : lib.Inverts) {msg : DataMsg} (h : ProducedByCodec lib xlation msg) :
    ∃ encst e, (e = .json ∨ e = .gpb) ∧ msgEncapEncoding encst = some e ∧
      rawFrame msg = encodeHdr (tapHdr encst msg.original) ++ msg.original := by
  rcases produced_cases hinv h with ⟨b, src, rfl⟩ | ⟨b, src, tel, rfl, -⟩
  · exact ⟨encStHdrMsgEncapJson, .json, Or.inl rfl, rfl, rfl⟩
  · exact ⟨encStHdrMsgEncapGpb, .gpb, Or.inr rfl, rfl, rfl⟩

/-- A header that announces too much ends the replay. -/
theorem innerIter_refused {st : ReplayState DataMsg} {full : Nat → Nat → Nat → Bool}
    (hi : Idle (blockToDataMsgs lib xlation) t.producer st.parser) {hdr rest : Octets}
    (hsize : hdr.length = encStHdrSize) (hun : st.unread = hdr ++ rest)
    (hlong : encStMaxPayload < (decodeHdr hdr).msglen) :
    ∃ err st', innerIter (blockToDataMsgs lib xlation) t full st = .returned (some err) st' ∧
      st'.dataChans = st.dataChans := by
  rcases nextBlock_hdr hi hsize with ⟨e, -, -, hle, -⟩ | ⟨-, p', err, hrefused⟩
  · exact absurd hlong (UInt32.not_lt.mpr hle)
  · refine ⟨err, { st with parser := p', unread := rest, done := true }, ?_, rfl⟩
    simp only [innerIter, nextBlockBuffer_idle hi, hun, readFull_append hsize, hrefused]

/-- A JSON or GPB header with enough behind it: the tick ends the replay, or
    delivers a message of the length announced. -/
theorem tick_announced {st : ReplayState DataMsg}
    (hi : Idle (blockToDataMsgs lib xlation) t.producer st.parser) (hdone : st.done = false)
    {hdr body : Octets} {e : Encoding} (he : e = .json ∨ e = .gpb) (hok : HdrOk hdr e)
    (hun : st.unread = hdr ++ body) (hbody : (decodeHdr hdr).msglen.toNat ≤ body.length) :
    (∃ err st', tick (blockToDataMsgs lib xlation) t neverFull 2 st
        = some (.returned (some err) st')) ∨
      ∃ d st', tick (blockToDataMsgs lib xlation) t neverFull 2 st = some (.running st') ∧
        st'.dataChans = st.dataChans.map (· ++ [d]) ∧
        d.original.length = (decodeHdr hdr).msglen.toNat := by
  have hiter := @innerIter_hdr _ _ t neverFull st hi _ _ e hok hun
  generalize hst₁ : behindHdr (blockToDataMsgs lib xlation) st hdr e body = st₁ at hiter
  have hparser : st₁.parser
      = pending (blockToDataMsgs lib xlation) st.parser (decodeHdr hdr) e := by
    rw [← hst₁]
    rfl
  by_cases hzero : (decodeHdr hdr).msglen = 0
  · have hbuf : nextBlockBuffer st₁.parser = .error "ENCAP  ST: req 0 size buffer" := by
      rw [hparser]
      exact if_pos hzero
    have hstop : innerIter (blockToDataMsgs lib xlation) t neverFull st₁
        = .returned (some "ENCAP  ST: req 0 size buffer") { st₁ with done := true } := by
      simp only [innerIter, hbuf]
    exact Or.inl ⟨_, _, tick_returned hdone
      ((skips_again hiter 1).trans (innerLoop_returned hstop 0))⟩
  · have hpos : 1 ≤ (decodeHdr hdr).msglen := UInt32.pos_iff_ne_zero.mpr hzero
    have hlen : (body.take (decodeHdr hdr).msglen.toNat).length
        = (decodeHdr hdr).msglen.toNat := by
      rw [List.length_take]
      omega
    have hpay := @innerIter_payload _ _ t neverFull st₁ st.parser hi (decodeHdr hdr) e hparser
      hpos hok.len _ _ hlen (by rw [List.take_append_drop, ← hst₁]; rfl)
    cases hd : blockToDataMsgs lib xlation e t.producer
        (body.take (decodeHdr hdr).msglen.toNat) with
    | error err =>
        rw [hd] at hpay
        exact Or.inl ⟨err, _, tick_returned hdone
          ((skips_again hiter 1).trans (innerLoop_returned hpay 0))⟩
    | ok r =>
        rw [hd] at hpay
        cases r with
        | none => exact absurd hd (blockToDataMsgs_ne_nil lib xlation e _ _)
        | some msgs =>
            obtain ⟨d, rfl, horig⟩ := blockToDataMsgs_original he hd
            refine Or.inr ⟨d, _, tick_produced hdone
              ((skips_again hiter 1).trans (innerLoop_produced hpay 0)), ?_, by rw [horig, hlen]⟩
            rw [← hst₁]
            exact offer_neverFull _ _ _

/-- **A MESSAGE THAT IS TOO LONG**: the tick that comes to its frame ends the
    replay, or delivers a message that is not longer than the maximum. -/
theorem tick_overlong (hinv : lib.Inverts) {st : ReplayState DataMsg}
    (hi : Idle (blockToDataMsgs lib xlation) t.producer st.parser) (hdone : st.done = false)
    {msg : DataMsg} (hmsg : ProducedByCodec lib xlation msg)
    (hlong : encStMaxPayload.toNat < msg.original.length) {rest : Octets}
    (hun : st.unread = rawFrame msg ++ rest) :
    (∃ err st', tick (blockToDataMsgs lib xlation) t neverFull 2 st
        = some (.returned (some err) st')) ∨
      ∃ d st', tick (blockToDataMsgs lib xlation) t neverFull 2 st = some (.running st') ∧
        st'.dataChans = st.dataChans.map (· ++ [d]) ∧
        d.original.length ≤ encStMaxPayload.toNat := by
  obtain ⟨encst, e, he, hencap, hframe⟩ := rawFrame_eq hinv hmsg
  rw [hframe, List.append_assoc] at hun
  have hdec := decodeHdr_tapHdr encst msg.original
  have hsize := length_encodeHdr (tapHdr encst msg.original)
  by_cases hover : encStMaxPayload < (tapHdr encst msg.original).msglen
  · obtain ⟨err, st', hiter, -⟩ := @innerIter_refused lib xlation t st neverFull hi _ _ hsize hun
      (by rw [hdec]; exact hover)
    exact Or.inl ⟨err, st', tick_returned hdone (innerLoop_returned hiter 1)⟩
  · -- the length was cut to 32 bits: what the header announces is only a beginning
    have hle := UInt32.not_lt.mp hover
    have hmax : (tapHdr encst msg.original).msglen.toNat ≤ encStMaxPayload.toNat :=
      UInt32.le_iff_toNat_le.mp hle
    have hok : HdrOk (encodeHdr (tapHdr encst msg.original)) e :=
      ⟨hsize, by rw [hdec]; exact hencap, by rw [hdec]; rfl, by rw [hdec]; exact hle⟩
    have hbody : (decodeHdr (encodeHdr (tapHdr encst msg.original))).msglen.toNat
        ≤ (msg.original ++ rest).length := by
      rw [hdec, List.length_append]
      omega
    rcases tick_announced hi hdone he hok hun hbody with h | ⟨d, st', htick, hchans, hlen⟩
    · exact Or.inl h
    · rw [hdec] at hlen
      exact Or.inr ⟨d, st', htick, hchans, by omega⟩

/-! ## Archives -/

/-- The messages are replayed to the channels, one for each tick. -/
def Replayed (lib : ProtoLib) (xlation : String → Option String) (t : ReplayInputModule)
    (st : ReplayState DataMsg) (replayed : List DataMsg) : Prop :=
  ∀ k ≤ replayed.length, ∃ st',
    ticks (blockToDataMsgs lib xlation) t neverFull 2 k st = some (.running st') ∧
      st'.dataChans = st.dataChans.map (· ++ replayed.take k)

/-- The first message replayed is what the first tick delivers. -/
theorem Replayed.head {st st₁ : ReplayState DataMsg} {d d' : DataMsg} {ds : List DataMsg}
    (h : Replayed lib xlation t st (d' :: ds)) (hne : st.dataChans ≠ [])
    (htick : tick (blockToDataMsgs lib xlation) t neverFull 2 st = some (.running st₁))
    (hchans : st₁.dataChans = st.dataChans.map (· ++ [d])) : d = d' := by
  obtain ⟨st', hst', hout⟩ := h 1 (by simp)
  rw [ticks, htick] at hst'
  cases hst'
  rw [hchans] at hout
  obtain ⟨c, rest, hcs⟩ := List.exists_cons_of_ne_nil hne
  rw [hcs, List.map_cons, List.map_cons] at hout
  exact List.head_eq_of_cons_eq (List.append_cancel_left (List.head_eq_of_cons_eq hout))

/-- The rest is replayed by the ticks that follow. -/
theorem Replayed.tail {st st₁ : ReplayState DataMsg} {d : DataMsg} {ds : List DataMsg}
    (h : Replayed lib xlation t st (d :: ds))
    (htick : tick (blockToDataMsgs lib xlation) t neverFull 2 st = some (.running st₁))
    (hchans : st₁.dataChans = st.dataChans.map (· ++ [d])) : Replayed lib xlation t st₁ ds := by
  intro k hk
  obtain ⟨st', hst', hout⟩ := h (k + 1) (by rw [List.length_cons]; omega)
  rw [ticks, htick] at hst'
  refine ⟨st', hst', ?_⟩
  rw [hout, hchans, List.map_map, List.take_succ_cons]
  refine List.map_congr_left ?_
  intro c _
  exact (List.append_assoc c [d] (ds.take k)).symm

/-- Tapped messages that are all replayed are all short enough. -/
theorem short_of_replayed (hinv : lib.Inverts) (hfirst : t.firstN = 0) :
    ∀ (msgs replayed : List DataMsg) (st : ReplayState DataMsg),
      Idle (blockToDataMsgs lib xlation) t.producer st.parser → st.done = false →
      st.dataChans ≠ [] → st.unread = (msgs.map rawFrame).flatten →
      (∀ msg ∈ msgs, ProducedByCodec lib xlation msg ∧ 1 ≤ msg.original.length) →
      List.Forall₂ SameMsg msgs replayed → Replayed lib xlation t st replayed →
      ∀ msg ∈ msgs, msg.original.length ≤ encStMaxPayload.toNat := by
  intro msgs
  induction msgs with
  | nil =>
      intro replayed st _ _ _ _ _ _ _ msg hmsg
      exact absurd hmsg List.not_mem_nil
  | cons m rest ih =>
      intro replayed st hi hdone hne hun hprod hsame hreplayed
      obtain ⟨hm, hpos⟩ := hprod m List.mem_cons_self
      cases hsame with
      | @cons _ d _ ds hmd hsame =>
          have hle : m.original.length ≤ encStMaxPayload.toNat := by
            by_contra hlong
            rcases tick_overlong hinv hi hdone hm (by omega) hun with
              ⟨err, st₁, htick⟩ | ⟨d', st₁, htick, hchans, hshort⟩
            · obtain ⟨st', hst', -⟩ := hreplayed 1 (by simp)
              rw [ticks, htick] at hst'
              cases hst'
            · obtain rfl := hreplayed.head hne htick hchans
              rw [hmd.original] at hshort
              exact hlong hshort
          obtain ⟨d', -, hframe⟩ := frameResult_rawFrame hinv hm hpos hle t.producer
          obtain ⟨p', hi', htick⟩ := tick_frame hi hdone hun hframe (Nat.le_refl 2)
          rw [hfirst] at htick
          obtain rfl := hreplayed.head hne htick rfl
          have htail := hreplayed.tail htick rfl
          have hrest := ih ds _ hi' (by simp) (by simpa using hne) rfl
            (fun msg h => hprod msg (List.mem_cons_of_mem _ h)) hsame htail
          intro msg hmsg
          rcases List.mem_cons.mp hmsg with rfl | hmsg
          · exact hle
          · exact hrest msg hmsg

/-- **WHICH ARCHIVES ARE REPLAYABLE**: what a raw tap has written for any
    messages of the archivable codecs is replayed message for message exactly
    when none of them is longer than the parser takes. -/
theorem archive_replayable_iff (hinv : lib.Inverts) (render : Renderers) (texts : TapTexts)
    (tapOut : TapOutputModule) (hraw : tapOut.rawDump = true)
    (hcount : tapOut.countOnly = false) (hloop : t.loop = false) (hfirst : t.firstN = 0)
    (evs : List TapEvent) (hev : ∀ ev ∈ evs, InService ev) (hprod : ∀ msg ∈ evs.filterMap dataOf,
      ProducedByCodec lib xlation msg ∧ 1 ≤ msg.original.length)
    (dataChans : List (List DataMsg)) (hne : dataChans ≠ []) :
    ∃ st, exec (tap render texts tapOut (some [])) (tap render texts tapOut (some [])).init
        (evs ++ [.ctrl .shutdown]) = some st ∧
      ((∃ replayed, List.Forall₂ SameMsg (evs.filterMap dataOf) replayed ∧
          ReplaysTo (blockToDataMsgs lib xlation) t st.w.file dataChans replayed) ↔
        ∀ msg ∈ evs.filterMap dataOf, msg.original.length ≤ encStMaxPayload.toNat) := by
  obtain ⟨st, hexec, hfile⟩ := tap_archive render texts tapOut hraw hcount evs hev
  refine ⟨st, hexec, ?_, ?_⟩
  · rintro ⟨replayed, hsame, start, hstart, hrun⟩
    obtain ⟨p, hi, hok⟩ := startFeeder_idle (blockToDataMsgs lib xlation) t st.w.file dataChans
    obtain rfl := Except.ok.inj (hok.symm.trans hstart)
    exact short_of_replayed hinv hfirst _ replayed
      ⟨p, st.w.file, st.w.file, false, 0, dataChans⟩ hi rfl hne hfile hprod hsame
      (hrun 2 (Nat.le_refl 2)).1
  · intro hshort
    obtain ⟨replayed, fs, hsame, hfst, hsnd, hframes⟩ :=
      frames_of_tapped hinv t.producer (evs.filterMap dataOf)
        (fun msg h => ⟨(hprod msg h).1, (hprod msg h).2, hshort msg h⟩)
    refine ⟨replayed, hsame, ?_⟩
    rw [hfile, ← hfst]
    exact replaysTo_frames hloop hfirst dataChans hsnd hframes

/-- The session of `sampleMsgs` is replayable. -/
theorem sampleMsgs_replayable :
    ∃ st, exec (tap sampleRender sampleTexts sampleTap (some []))
        (tap sampleRender sampleTexts sampleTap (some [])).init
        (sampleMsgs.map .data ++ [.ctrl .shutdown]) = some st ∧
      ((∃ replayed, List.Forall₂ SameMsg ((sampleMsgs.map TapEvent.data).filterMap dataOf)
            replayed ∧
          ReplaysTo (blockToDataMsgs sampleLib sampleXlation)
            ⟨"replay_bin", "dump.bin", 0, false⟩ st.w.file [[], []] replayed) ↔
        ∀ msg ∈ (sampleMsgs.map TapEvent.data).filterMap dataOf,
          msg.original.length ≤ encStMaxPayload.toNat) := by
  refine archive_replayable_iff sampleLib_inverts sampleRender sampleTexts sampleTap rfl rfl rfl
    rfl (sampleMsgs.map .data) ?_ ?_ [[], []] (List.cons_ne_nil _ _)
  · intro ev hev
    obtain ⟨msg, -, rfl⟩ := List.mem_map.mp hev
    exact Or.inl ⟨msg, rfl⟩
  · intro msg hmsg
    rw [List.filterMap_map, show dataOf ∘ TapEvent.data = some from rfl,
      List.filterMap_some] at hmsg
    exact ⟨(sampleMsgs_produced msg hmsg).1, (sampleMsgs_produced msg hmsg).2.1⟩

/-- Behind a message that is announced as too long nothing is replayed. -/
theorem overlong_ends_replay {full : Nat → Nat → Nat → Bool} {b rest : Octets}
    (hlong : encStMaxPayload < UInt32.ofNat b.length) {start : ReplayState DataMsg}
    (hi : Idle (blockToDataMsgs lib xlation) t.producer start.parser) (hdone : start.done = false)
    (hun : start.unread = encodeHdr (tapHdr encStHdrMsgEncapJson b) ++ (b ++ rest)) (k : Nat) :
    ∃ err st, ticks (blockToDataMsgs lib xlation) t full 2 (k + 1) start
        = some (.returned (some err) st) ∧ st.dataChans = start.dataChans := by
  obtain ⟨err, st, hiter, hchans⟩ := @innerIter_refused lib xlation t start full hi _ _
    (length_encodeHdr _) hun (by rw [decodeHdr_tapHdr]; exact hlong)
  refine ⟨err, st, ?_, hchans⟩
  rw [ticks, tick_returned hdone (innerLoop_returned hiter 1)]

/-- An octet more than the parser takes, and a short message after it. -/
def overlongMsgs : List DataMsg :=
  [.json ⟨List.replicate 1048577 0x20, "collector"⟩, .json ⟨[0x7b, 0x7d], "collector"⟩]

/-- The tap archives both, and neither is replayed. -/
theorem overlongMsgs_not_replayed :
    ∃ st, exec (tap sampleRender sampleTexts sampleTap (some []))
        (tap sampleRender sampleTexts sampleTap (some [])).init
        (overlongMsgs.map .data ++ [.ctrl .shutdown]) = some st ∧
      ∃ start, startFeeder (blockToDataMsgs sampleLib sampleXlation)
          ⟨"replay_bin", "dump.bin", 0, false⟩ st.w.file [[]] = .ok start ∧
        ∀ k, ∃ err st', ticks (blockToDataMsgs sampleLib sampleXlation)
            ⟨"replay_bin", "dump.bin", 0, false⟩ neverFull 2 (k + 1) start
            = some (.returned (some err) st') ∧ st'.dataChans = [[]] := by
  obtain ⟨st, hexec, hfile⟩ := tap_archive sampleRender sampleTexts sampleTap rfl rfl
    (overlongMsgs.map .data) (by
      intro ev hev
      obtain ⟨msg, -, rfl⟩ := List.mem_map.mp hev
      exact Or.inl ⟨msg, rfl⟩)
  obtain ⟨p, hi, hstart⟩ := startFeeder_idle (blockToDataMsgs sampleLib sampleXlation)
    ⟨"replay_bin", "dump.bin", 0, false⟩ st.w.file [[]]
  refine ⟨st, hexec, _, hstart, ?_⟩
  have hlong : encStMaxPayload
      < UInt32.ofNat (List.replicate 1048577 (0x20 : UInt8)).length := by
    rw [List.length_replicate]
    decide
  have hun : st.w.file
      = encodeHdr (tapHdr encStHdrMsgEncapJson (List.replicate 1048577 0x20))
        ++ (List.replicate 1048577 0x20
          ++ rawFrame (.json ⟨[0x7b, 0x7d], "collector"⟩)) := by
    rw [hfile, List.filterMap_map, show dataOf ∘ TapEvent.data = some from rfl,
      List.filterMap_some, overlongMsgs, List.map_cons, List.map_cons, List.map_nil,
      List.flatten_cons, List.flatten_cons, List.flatten_nil, List.append_nil,
      ← List.append_assoc]
    rfl
  exact overlong_ends_replay hlong hi rfl hun

end PipelineRawArchive
