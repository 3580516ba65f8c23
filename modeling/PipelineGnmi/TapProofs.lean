import PipelineGnmi.TransitionProofs
import PipelineGnmi.EncapStProofs
import PipelineGnmi.DataMsgProofs

/-! # The tap output — writing an archive

    `tapOutputFeederLoop` (`tap.go`) as a labelled transition system: one label
    for each arm of its `select`.  Everything it writes goes through a
    `bufio.Writer`, so the octets of a message may sit in the buffer until a
    later write or the flush on SHUTDOWN; `BufWriter.content` is what the file
    holds once flushed, and it only ever grows by what is written
    (`write_content`).

    With `raw = true` every archivable message appends one streaming telemetry
    frame (`tapRaw_content`), whatever else the loop serves in between
    (`tap_archive`). -/

namespace PipelineTap

open PipelineMessage PipelineDataMsg PipelineEncapSt Transition

/-! ## Buffered writing -/

/-- `bufio.NewWriter`'s buffer size. -/
def bufioSize : Nat := 4096

/-- A `bufio.Writer` over a file: what reached the file, what is buffered. -/
structure BufWriter where
  file : Octets
  buf : Octets
  deriving DecidableEq

namespace BufWriter

variable (w : BufWriter)

/-- `Flush`. -/
def flush (w : BufWriter) : BufWriter := ⟨w.file ++ w.buf, []⟩

/-- `Write`: fill and flush while the data does not fit; data that does not fit
    an empty buffer bypasses it. -/
def write (w : BufWriter) (p : Octets) : BufWriter :=
  let available := bufioSize - w.buf.length
  if p.length ≤ available then ⟨w.file, w.buf ++ p⟩
  else if w.buf = [] then ⟨w.file ++ p, []⟩
  else
    let w := (⟨w.file, w.buf ++ p.take available⟩ : BufWriter).flush
    let p := p.drop available
    if p.length ≤ bufioSize then ⟨w.file, p⟩ else ⟨w.file ++ p, []⟩

/-- What the file will hold once the buffer is flushed. -/
def content (w : BufWriter) : Octets := w.file ++ w.buf

/-- Flushing loses nothing and leaves nothing behind. -/
theorem flush_file : w.flush.file = w.content := rfl

/-- **BUFFERING IS TRANSPARENT**: a write appends its octets, wherever the
    buffer boundary falls. -/
theorem write_content (p : Octets) : (w.write p).content = w.content ++ p := by
  unfold write
  by_cases hfit : p.length ≤ bufioSize - w.buf.length
  · simp only [if_pos hfit, content, List.append_assoc]
  · by_cases hnil : w.buf = []
    · simp only [if_neg hfit, if_pos hnil]
      simp only [content, hnil, List.append_nil]
    · simp only [if_neg hfit, if_neg hnil, flush]
      have hsplit : p.take (bufioSize - w.buf.length)
          ++ p.drop (bufioSize - w.buf.length) = p := List.take_append_drop ..
      by_cases hrest : (p.drop (bufioSize - w.buf.length)).length ≤ bufioSize
      · rw [if_pos hrest]
        simp only [content, List.append_assoc, hsplit]
      · rw [if_neg hrest]
        simp only [content, List.append_assoc, List.append_nil, hsplit]

end BufWriter

/-! ## The feeder loop -/

/-- `tapOutputModule`, the fields the loop reads. -/
structure TapOutputModule where
  name : String
  filename : String
  countOnly : Bool
  rawDump : Bool
  streamSpec : DataMsgStreamSpec

/-- The human readable texts, which mix the clock, `hex.Dump` and
    `json.Indent`: the periodic count, and the dump of one message, given whether
    it is in hexadecimal only and the error of the requested stream type if that
    failed. -/
structure TapTexts where
  countLine : Nat → Octets
  dump : Bool → DataMsg → Option GoError → Octets → Octets

/-- The state of the loop; `returned` once the goroutine is gone. -/
structure TapState where
  w : BufWriter
  msgsOK : Nat
  msgsNOK : Nat
  dataChanNil : Bool
  acks : Nat
  returned : Bool

/-- The arms of the `select`. -/
inductive TapEvent where
  | timeout
  | data (msg : DataMsg)
  | dataClosed
  | ctrl (id : MsgID)

/-- The header the tap writes in front of a message. -/
def tapHdr (encst : UInt16) (b : Octets) : EncapSTHdr where
  msgType := encStHdrMsgTypeTelemetryData
  msgEncap := encst
  msgHdrVersion := encStHdrVersion
  msgflag := encStHdrMsgFlagsNone
  msglen := UInt32.ofNat b.length

variable (render : Renderers) (texts : TapTexts) (t : TapOutputModule)

/-- The raw arm: each of the three lookups may refuse the message. -/
def tapRaw (w : BufWriter) (msg : DataMsg) : BufWriter :=
  match produceByteStream render dataMsgStreamSpecDefault msg with
  | .error _ => w
  | .ok b =>
    match dataMsgStreamTypeToEncoding msg.getDataMsgStreamType with
    | .error _ => w
    | .ok enc =>
      match encapSTFromEncoding enc with
      | .error _ => w
      | .ok encst =>
        (w.write (encodeHdr (tapHdr encst (b.getD [])))).write (b.getD [])

/-- The readable arm: fall back on the default stream when the requested one
    fails, skip the message when there is nothing to generate. -/
def tapDump (st : TapState) (msg : DataMsg) : TapState :=
  let hexOnly := !dataMsgStreamSpecTextBased t.streamSpec
  match produceByteStream render t.streamSpec msg with
  | .ok none => st
  | .ok (some b) =>
      { st with
        msgsOK := st.msgsOK + 1
        w := (st.w.write (texts.dump hexOnly msg none b)).flush }
  | .error errStreamType =>
    match produceByteStream render dataMsgStreamSpecDefault msg with
    | .error _ => { st with msgsNOK := st.msgsNOK + 1 }
    | .ok b =>
        { st with
          msgsOK := st.msgsOK + 1
          w := (st.w.write (texts.dump hexOnly msg (some errStreamType)
            (b.getD []))).flush }

/-- One arm of the `select`; an arm that cannot fire is not enabled. -/
def tapStep (st : TapState) (ev : TapEvent) : Option TapState :=
  if st.returned then none
  else match ev with
  | .timeout =>
      if t.countOnly then
        some { st with w := (st.w.write (texts.countLine st.msgsOK)).flush }
      else none
  | .data msg =>
      if st.dataChanNil then none
      else if t.countOnly then some { st with msgsOK := st.msgsOK + 1 }
      else if t.rawDump then some { st with w := tapRaw render st.w msg }
      else some (tapDump render texts t st msg)
  | .dataClosed =>
      if st.dataChanNil then none else some { st with dataChanNil := true }
  | .ctrl .report => some { st with acks := st.acks + 1 }
  | .ctrl .shutdown =>
      some { st with w := st.w.flush, acks := st.acks + 1, returned := true }
  | .ctrl .ack => some st

/-- `tapOutputFeederLoop`: `opened` is the outcome of opening the file for
    appending, with the content it already had. -/
def tap (opened : Option Octets) : System TapState TapEvent where
  init :=
    { w := ⟨opened.getD [], []⟩
      msgsOK := 0
      msgsNOK := 0
      dataChanNil := false
      acks := 0
      returned := opened.isNone }
  next := tapStep render texts t

/-! ## The archive -/

/-- The encapsulation a message is archived under, if it can be. -/
def archiveEncap (msg : DataMsg) : Option UInt16 :=
  match dataMsgStreamTypeToEncoding msg.getDataMsgStreamType with
  | .error _ => none
  | .ok enc => (encapSTFromEncoding enc).toOption

/-- The octets the raw arm appends for a message. -/
def rawFrame (msg : DataMsg) : Octets :=
  match archiveEncap msg with
  | none => []
  | some encst => encodeHdr (tapHdr encst msg.original) ++ msg.original

/-- The raw arm appends the message's frame. -/
theorem tapRaw_content (w : BufWriter) (msg : DataMsg) :
    (tapRaw render w msg).content = w.content ++ rawFrame msg := by
  rw [tapRaw, produceByteStream_default]
  simp only [rawFrame, archiveEncap]
  cases dataMsgStreamTypeToEncoding msg.getDataMsgStreamType with
  | error err =>
      show w.content = w.content ++ []
      rw [List.append_nil]
  | ok enc =>
      simp only
      cases encapSTFromEncoding enc with
      | error err =>
          show w.content = w.content ++ []
          rw [List.append_nil]
      | ok encst =>
          show ((w.write _).write msg.original).content = w.content ++ (_ ++ msg.original)
          rw [BufWriter.write_content, BufWriter.write_content, List.append_assoc]
          rfl

/-- The messages among the events of a run. -/
def dataOf : TapEvent → Option DataMsg
  | .data msg => some msg
  | _ => none

/-- The events of a raw tap in service: data and REPORT requests. -/
def InService (ev : TapEvent) : Prop :=
  (∃ msg, ev = .data msg) ∨ ev = .ctrl .report

/-- A raw tap in service takes every such event, and its content grows by the
    frames of the messages. -/
theorem tap_service (opened : Option Octets) (hraw : t.rawDump = true)
    (hcount : t.countOnly = false) :
    ∀ (evs : List TapEvent) (st : TapState), st.returned = false →
      st.dataChanNil = false → (∀ ev ∈ evs, InService ev) →
      ∃ st', exec (tap render texts t opened) st evs = some st' ∧
        st'.returned = false ∧
        st'.w.content = st.w.content ++ ((evs.filterMap dataOf).map rawFrame).flatten := by
  intro evs
  induction evs with
  | nil =>
      intro st hr _ _
      exact ⟨st, rfl, hr, by simp⟩
  | cons ev rest ih =>
      intro st hr hd hev
      have hrest : ∀ e ∈ rest, InService e := fun e he =>
        hev e (List.mem_cons_of_mem _ he)
      rcases hev ev (List.mem_cons_self ..) with ⟨msg, rfl⟩ | rfl
      · have hstep : tapStep render texts t st (.data msg)
            = some { st with w := tapRaw render st.w msg } := by
          simp only [tapStep, hr, hd, hcount, hraw, Bool.false_eq_true, if_false,
            if_true]
        obtain ⟨st', he, hr', hc⟩ :=
          ih { st with w := tapRaw render st.w msg } hr hd hrest
        refine ⟨st', ?_, hr', ?_⟩
        · show (tapStep render texts t st (.data msg)).bind _ = some st'
          rw [hstep]
          exact he
        · rw [hc]
          show (tapRaw render st.w msg).content ++ _ = _
          rw [tapRaw_content, List.append_assoc]
          rfl
      · have hstep : tapStep render texts t st (.ctrl .report)
            = some { st with acks := st.acks + 1 } := by
          simp only [tapStep, hr, Bool.false_eq_true, if_false]
        obtain ⟨st', he, hr', hc⟩ :=
          ih { st with acks := st.acks + 1 } hr hd hrest
        refine ⟨st', ?_, hr', hc⟩
        show (tapStep render texts t st (.ctrl .report)).bind _ = some st'
        rw [hstep]
        exact he

/-- **THE ARCHIVE**: a raw tap on a new file, shut down after any messages with
    any REPORT requests between them, has written exactly their frames. -/
theorem tap_archive (hraw : t.rawDump = true) (hcount : t.countOnly = false) (evs : List TapEvent)
    (hev : ∀ ev ∈ evs, InService ev) :
    ∃ st, exec (tap render texts t (some [])) (tap render texts t (some [])).init
        (evs ++ [.ctrl .shutdown]) = some st ∧
      st.w.file = ((evs.filterMap dataOf).map rawFrame).flatten := by
  obtain ⟨st, he, hr, hc⟩ := tap_service render texts t (some []) hraw hcount evs
    (tap render texts t (some [])).init rfl rfl hev
  have hstep : tapStep render texts t st (.ctrl .shutdown)
      = some { st with w := st.w.flush, acks := st.acks + 1, returned := true } := by
    simp only [tapStep, hr, Bool.false_eq_true, if_false]
  refine ⟨_, exec_append_singleton he hstep, ?_⟩
  show st.w.flush.file = _
  rw [BufWriter.flush_file, hc]
  rfl

end PipelineTap
