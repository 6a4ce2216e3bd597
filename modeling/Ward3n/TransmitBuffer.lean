import Ward3n.CcidDriver
import Ward3n.AppletEffects

/-!
# What a response is made of

Every response is a header and a body, built over the bytes the transmit buffer
held before. The header is always written whole. So is the body, but for one
message: SetParameters answers with as many parameter bytes as the request
declares, and copies them only if the request really carried them.
-/

namespace TransmitBuffer

open CellMemory MachineWords ApduCodec CryptoBackend PivApplet CcidDriver AppletEffects

@[simp] theorem headerBytes_length (messageType : UInt8) (dwLength : Nat)
    (seq s0 s1 s2 : UInt8) : (headerBytes messageType dwLength seq s0 s1 s2).length = 10 := by
  simp [headerBytes]

theorem read_header (out : Memory UInt8) {header : List UInt8} (hlen : header.length = 10) :
    read (write out 0 header) ccidHeaderLen = header := by
  have hread := read_write_zero out header
  rwa [hlen] at hread

/-- A header, and a body written behind it. -/
theorem read_block (out : Memory UInt8) {header : List UInt8} (hlen : header.length = 10)
    (body : List UInt8) :
    read (write (write out 0 header) ccidHeaderLen body) (ccidHeaderLen + body.length) =
      header ++ body := by
  rw [read_write_append, read_header out hlen]

/-- A header written in front of a body that is already there. -/
theorem read_header_first (out q : Memory UInt8) {header : List UInt8} (hlen : header.length = 10)
    (n : Nat) :
    read (write (putBack out ccidHeaderLen q) 0 header) (ccidHeaderLen + n) =
      header ++ read q n := by
  rw [read_add, read_header _ hlen]
  have hframe := read_write_frame (putBack out ccidHeaderLen q) 0 header (k := ccidHeaderLen)
    (n := n) (Or.inl (by rw [hlen]; decide))
  rw [hframe, advance_putBack]

theorem queue_response (s : Ccid) (response : Memory UInt8 × Nat) :
    (queue s response).response = read response.1 response.2 := rfl

theorem makeSlotStatus_bytes (powered : Bool) (out : Memory UInt8)
    (seq cmdStatus error clock : UInt8) :
    read (makeSlotStatus powered out seq cmdStatus error clock).1
        (makeSlotStatus powered out seq cmdStatus error clock).2 =
      headerBytes rdrToPcSlotStatus ([] : List UInt8).length seq (cmdStatus ||| iccStatus powered)
        error clock ++ [] :=
  (read_header out (headerBytes_length _ _ _ _ _ _)).trans (List.append_nil _).symm

theorem makeDataBlock_bytes (powered : Bool) (out : Memory UInt8) (seq cmdStatus error : UInt8)
    (data : List UInt8) :
    read (makeDataBlock powered out seq cmdStatus error data).1
        (makeDataBlock powered out seq cmdStatus error data).2 =
      headerBytes rdrToPcDataBlock data.length seq (cmdStatus ||| iccStatus powered) error 0 ++
        data :=
  read_block out (headerBytes_length _ _ _ _ _ _) data

/-- The request declares more parameter bytes than it carries, and few enough to answer. -/
def ShortParameters (msg : Memory UInt8) (msgLen : Nat) : Prop :=
  (readHeader msg).messageType = pcToRdrSetParameters ∧ 0 < (readHeader msg).dwLength ∧
    (readHeader msg).dwLength ≤ ccidBufSize - ccidHeaderLen ∧
    msgLen < ccidHeaderLen + (readHeader msg).dwLength

/-- The parameter bytes of the answer. -/
def parameterLength (msg : Memory UInt8) : Nat :=
  if (readHeader msg).dwLength > ccidBufSize - ccidHeaderLen then 0 else (readHeader msg).dwLength

theorem parameterLength_le (msg : Memory UInt8) :
    parameterLength msg ≤ ccidBufSize - ccidHeaderLen := by
  simp only [parameterLength]
  split <;> omega

theorem add32_parameterLength (msg : Memory UInt8) :
    add32 ccidHeaderLen (parameterLength msg) = ccidHeaderLen + parameterLength msg := by
  have hle := parameterLength_le msg
  have hsize : ccidBufSize - ccidHeaderLen = 502 := rfl
  have hheader : ccidHeaderLen = 10 := rfl
  exact add32_of_lt (by omega)

/-- The header of the answer. -/
def parametersHeader (msg : Memory UInt8) : List UInt8 :=
  headerBytes rdrToPcParameters (parameterLength msg) (readHeader msg).seq (cmdOk ||| iccActive) 0
    (readHeader msg).specific2

@[simp] theorem parametersHeader_length (msg : Memory UInt8) : (parametersHeader msg).length = 10 :=
  headerBytes_length _ _ _ _ _ _

theorem setParameters_eq (out msg : Memory UInt8) (msgLen : Nat) :
    setParameters out msg msgLen =
      (if parameterLength msg > 0 ∧ ccidHeaderLen + parameterLength msg ≤ msgLen then
        write (write out 0 (parametersHeader msg)) ccidHeaderLen
          (read (advance msg ccidHeaderLen) (parameterLength msg))
      else write out 0 (parametersHeader msg),
      ccidHeaderLen + parameterLength msg) := by
  have hadd := add32_parameterLength msg
  unfold parametersHeader parameterLength at *
  simp only [setParameters, hadd]

/-- Whatever stands behind the header, the answer to SetParameters begins with it. -/
theorem setParameters_header (out msg : Memory UInt8) (msgLen : Nat) :
    ∃ rest, rest.length = parameterLength msg ∧
      read (setParameters out msg msgLen).1 (setParameters out msg msgLen).2 =
        parametersHeader msg ++ rest := by
  rw [setParameters_eq]
  refine ⟨_, read_length _ _,
    (read_add _ ccidHeaderLen (parameterLength msg)).trans (congrArg (· ++ _) ?_)⟩
  have hheader := read_header out (parametersHeader_length msg)
  split
  · rw [read_write_before _ _ (Nat.le_refl ccidHeaderLen), hheader]
  · exact hheader

theorem setParameters_bytes (out : Memory UInt8) {msg : Memory UInt8} {msgLen : Nat}
    (htype : (readHeader msg).messageType = pcToRdrSetParameters)
    (hfull : ¬ ShortParameters msg msgLen) :
    read (setParameters out msg msgLen).1 (setParameters out msg msgLen).2 =
      parametersHeader msg ++ read (advance msg ccidHeaderLen) (parameterLength msg) := by
  rw [setParameters_eq]
  by_cases hsome : parameterLength msg = 0
  · rw [hsome]
    exact (read_header out (parametersHeader_length msg)).trans (List.append_nil _).symm
  · have hcarried : parameterLength msg > 0 ∧ ccidHeaderLen + parameterLength msg ≤ msgLen := by
      refine ⟨Nat.pos_of_ne_zero hsome, ?_⟩
      by_contra hshort
      have hsmall : ¬ (readHeader msg).dwLength > ccidBufSize - ccidHeaderLen := by
        intro hbig
        exact hsome (if_pos hbig)
      have hlength : parameterLength msg = (readHeader msg).dwLength := if_neg hsmall
      exact hfull ⟨htype, by omega, by omega, by omega⟩
    rw [if_pos hcarried]
    have hblock := read_block out (parametersHeader_length msg)
      (read (advance msg ccidHeaderLen) (parameterLength msg))
    rwa [read_length] at hblock

theorem setDataRateAndClock_bytes (msg : Memory UInt8) (msgLen : Nat) :
    ∃ body : List UInt8, body.length = 8 ∧ ∀ out,
      read (setDataRateAndClock out msg msgLen).1 (setDataRateAndClock out msg msgLen).2 =
        headerBytes rdrToPcDataRateAndClock body.length (readHeader msg).seq
          (cmdOk ||| iccActive) 0 0 ++ body := by
  simp only [setDataRateAndClock]
  by_cases hecho : (readHeader msg).dwLength ≥ 8 ∧ ccidHeaderLen + 8 ≤ msgLen
  · refine ⟨read (advance msg ccidHeaderLen) 8, read_length _ _, fun out => ?_⟩
    simp only [if_pos hecho]
    exact read_block out (headerBytes_length _ _ _ _ _ _) _
  · refine ⟨toBytes 4 0x00000DFC ++ toBytes 4 0x000025CD, rfl, fun out => ?_⟩
    simp only [if_neg hecho]
    rw [← List.append_assoc, ← read_block out (headerBytes_length _ _ _ _ _ _)]
    exact read_write_append _ (ccidHeaderLen + 4) (toBytes 4 0x000025CD)

/-- The response is a header that declares its body, the same whatever the buffer held. -/
def Framed (k : Backend) (amb : Ambient) (s : Ccid) (card : Card) (msg : Memory UInt8)
    (msgLen : Nat) : Prop :=
  ∃ messageType s0 s1 s2 body, ∀ tx,
    (processMessage k amb { s with txBuf := tx } card msg msgLen).ccid.response =
      headerBytes messageType body.length (readHeader msg).seq s0 s1 s2 ++ body

section Responses

variable (k : Backend) (amb : Ambient) (s : Ccid) (card : Card) (msg : Memory UInt8) (msgLen : Nat)

/-- A forwarded APDU is answered with what the applet wrote behind the header. -/
theorem forwarded_response (hfwd : Forwards s msg msgLen) :
    (processXfrBlock k amb s card msg msgLen).ccid.response =
      headerBytes rdrToPcDataBlock (forward k amb s card msg).answer.length (readHeader msg).seq
        (cmdOk ||| iccActive) 0 0 ++ (forward k amb s card msg).answer := by
  have hcount : (forward k amb s card msg).answer.length = (forward k amb s card msg).len := by
    rw [Handled.answer, read_length]
  rw [processXfrBlock_forwards k amb s card msg msgLen hfwd, hcount]
  exact read_header_first s.txBuf _ (headerBytes_length _ _ _ _ _ _) _

theorem refused_response (htype : (readHeader msg).messageType = pcToRdrXfrBlock)
    (hfwd : ¬ Forwards s msg msgLen) :
    (processXfrBlock k amb s card msg msgLen).ccid.response =
      headerBytes rdrToPcDataBlock ([] : List UInt8).length (readHeader msg).seq
        (cmdFailed ||| iccStatus s.iccPowered) 0x01 0 ++ [] := by
  rw [processXfrBlock_refuses k amb s card msg msgLen htype hfwd]
  exact makeDataBlock_bytes s.iccPowered s.txBuf (readHeader msg).seq cmdFailed 0x01 []

/-- The answer of an APDU is a body of at most 256 bytes and a status word, whatever the
buffer held. -/
theorem forward_answer : ∃ r, Effect k amb card (forwardedCmd msg) r ∧ r.body.length ≤ 256 ∧
    ∀ tx, (forward k amb { s with txBuf := tx } card msg).answer = r.body ++ swBytes r.sw := by
  obtain ⟨r, heffect, hshows⟩ := pivProcessApdu_effect k amb card (advance msg ccidHeaderLen)
    (readHeader msg).dwLength (show 258 ≤ ccidBufSize - ccidHeaderLen by decide)
  exact ⟨r, heffect, heffect.body_length_le, fun tx => (hshows _).answer⟩

theorem processXfrBlock_response (htype : (readHeader msg).messageType = pcToRdrXfrBlock) :
    ∃ s0 s1 body, ∀ tx,
      (processXfrBlock k amb { s with txBuf := tx } card msg msgLen).ccid.response =
        headerBytes rdrToPcDataBlock body.length (readHeader msg).seq s0 s1 0 ++ body := by
  by_cases hfwd : Forwards s msg msgLen
  · obtain ⟨r, _, _, hanswer⟩ := forward_answer k amb s card msg
    refine ⟨cmdOk ||| iccActive, 0, r.body ++ swBytes r.sw, fun tx => ?_⟩
    rw [← hanswer tx]
    exact forwarded_response k amb _ card msg msgLen hfwd
  · exact ⟨cmdFailed ||| iccStatus s.iccPowered, 0x01, [], fun tx =>
      refused_response k amb { s with txBuf := tx } card msg msgLen htype hfwd⟩

theorem framed_of_full (hlen : ccidHeaderLen ≤ msgLen) (hfull : ¬ ShortParameters msg msgLen) :
    Framed k amb s card msg msgLen := by
  simp only [Framed, processMessage]
  simp only [if_neg (Nat.not_lt.mpr hlen)]
  by_cases hon : (readHeader msg).messageType = pcToRdrIccPowerOn
  · simp only [if_pos hon]
    exact ⟨_, _, _, _, atr, fun tx => makeDataBlock_bytes true tx (readHeader msg).seq cmdOk 0 atr⟩
  simp only [if_neg hon]
  by_cases hoff : (readHeader msg).messageType = pcToRdrIccPowerOff
  · simp only [if_pos hoff]
    exact ⟨_, _, _, _, [], fun tx => makeSlotStatus_bytes false tx (readHeader msg).seq cmdOk 0 0⟩
  simp only [if_neg hoff]
  by_cases hstatus : (readHeader msg).messageType = pcToRdrGetSlotStatus
  · simp only [if_pos hstatus]
    exact ⟨_, _, _, _, [], fun tx => makeSlotStatus_bytes _ tx (readHeader msg).seq cmdOk 0 0⟩
  simp only [if_neg hstatus]
  by_cases hxfr : (readHeader msg).messageType = pcToRdrXfrBlock
  · simp only [if_pos hxfr]
    obtain ⟨s0, s1, body, hbody⟩ := processXfrBlock_response k amb s card msg msgLen hxfr
    exact ⟨_, s0, s1, _, body, hbody⟩
  simp only [if_neg hxfr]
  by_cases habort : (readHeader msg).messageType = pcToRdrAbort
  · simp only [if_pos habort]
    exact ⟨_, _, _, _, [], fun tx => makeSlotStatus_bytes _ tx (readHeader msg).seq cmdOk 0 0⟩
  simp only [if_neg habort]
  by_cases hparameters : (readHeader msg).messageType = pcToRdrSetParameters
  · simp only [if_pos hparameters]
    refine ⟨rdrToPcParameters, cmdOk ||| iccActive, 0, (readHeader msg).specific2,
      read (advance msg ccidHeaderLen) (parameterLength msg), fun tx => ?_⟩
    simp only [queue_response, read_length]
    exact setParameters_bytes tx hparameters hfull
  simp only [if_neg hparameters]
  by_cases hclock : (readHeader msg).messageType = pcToRdrSetDataRateAndClock
  · simp only [if_pos hclock]
    obtain ⟨body, _, hbody⟩ := setDataRateAndClock_bytes msg msgLen
    exact ⟨_, _, _, _, body, hbody⟩
  simp only [if_neg hclock]
  exact ⟨_, _, _, _, [], fun tx => makeSlotStatus_bytes _ tx (readHeader msg).seq cmdFailed 0 0⟩

theorem processXfrBlock_responseLen (htype : (readHeader msg).messageType = pcToRdrXfrBlock) :
    (processXfrBlock k amb s card msg msgLen).ccid.responseLen ≤ ccidBufSize := by
  have hsize : ccidHeaderLen + 258 ≤ ccidBufSize := by decide
  by_cases hfwd : Forwards s msg msgLen
  · obtain ⟨r, _, hbody, hanswer⟩ := forward_answer k amb s card msg
    have hcount : (forward k amb s card msg).answer.length = r.body.length + 2 := by
      rw [← swBytes_length r.sw, ← List.length_append]
      exact congrArg List.length (hanswer s.txBuf)
    rw [Handled.answer, read_length] at hcount
    rw [processXfrBlock_forwards k amb s card msg msgLen hfwd]
    simp only [queue]
    omega
  · rw [processXfrBlock_refuses k amb s card msg msgLen htype hfwd]
    exact (by decide : ccidHeaderLen + 0 ≤ ccidBufSize)

/-- Every response fits the buffer it is built in. -/
theorem processMessage_responseLen (hlen : ccidHeaderLen ≤ msgLen) :
    (processMessage k amb s card msg msgLen).ccid.responseLen ≤ ccidBufSize := by
  have hparameters := parameterLength_le msg
  have hroom : ccidHeaderLen + (ccidBufSize - ccidHeaderLen) = ccidBufSize := by decide
  have hstatus : ccidHeaderLen ≤ ccidBufSize := by decide
  simp only [processMessage]
  simp only [if_neg (Nat.not_lt.mpr hlen)]
  repeat' split
  · exact (by decide : ccidHeaderLen + atr.length ≤ ccidBufSize)
  · exact hstatus
  · exact hstatus
  · exact processXfrBlock_responseLen k amb s card msg msgLen (by assumption)
  · exact hstatus
  · simp only [queue, setParameters_eq]
    omega
  · exact (by decide : ccidHeaderLen + 8 ≤ ccidBufSize)
  · exact hstatus

/-- A short SetParameters message is answered with the header alone; the parameter bytes it
announces are those the buffer held before. -/
theorem short_response (hshort : ShortParameters msg msgLen) (hlen : ccidHeaderLen ≤ msgLen) :
    (processMessage k amb s card msg msgLen).ccid.response =
      read (write s.txBuf 0 (parametersHeader msg)) (ccidHeaderLen + parameterLength msg) := by
  obtain ⟨htype, hsome, hsmall, hcarried⟩ := hshort
  have hlength : parameterLength msg = (readHeader msg).dwLength :=
    if_neg (Nat.not_lt.mpr hsmall)
  have hmissing : ¬ (parameterLength msg > 0 ∧ ccidHeaderLen + parameterLength msg ≤ msgLen) := by
    omega
  rw [processMessage_setParameters k amb s card msg msgLen htype hlen, queue_response,
    setParameters_eq, if_neg hmissing]

/-- The first of them is the tenth byte of the buffer. -/
theorem short_shows_buffer (hshort : ShortParameters msg msgLen) (hlen : ccidHeaderLen ≤ msgLen)
    (tx : Memory UInt8) :
    (processMessage k amb { s with txBuf := tx } card msg msgLen).ccid.response[10]? =
      some (tx 10) := by
  have hlength : parameterLength msg = (readHeader msg).dwLength :=
    if_neg (Nat.not_lt.mpr hshort.2.2.1)
  have hsome : 10 < ccidHeaderLen + parameterLength msg := by
    rw [hlength]
    exact Nat.lt_add_of_pos_right hshort.2.1
  rw [short_response k amb _ card msg msgLen hshort hlen, read_getElem? _ hsome]
  have hbehind := write_after tx 0 (parametersHeader msg) (i := 10) (by simp)
  exact congrArg some hbehind

/-- Nothing of the transmit buffer's earlier contents reaches the response. -/
def FreshResponse : Prop :=
  ∀ tx tx', (processMessage k amb { s with txBuf := tx } card msg msgLen).ccid.response =
    (processMessage k amb { s with txBuf := tx' } card msg msgLen).ccid.response

theorem not_fresh_of_short (hshort : ShortParameters msg msgLen) (hlen : ccidHeaderLen ≤ msgLen) :
    ¬ FreshResponse k amb s card msg msgLen := by
  intro hfresh
  have hzero := short_shows_buffer k amb s card msg msgLen hshort hlen fun _ => 0
  have hone := short_shows_buffer k amb s card msg msgLen hshort hlen fun _ => 1
  rw [hfresh _ fun _ => 1, hone] at hzero
  cases hzero

/-- The only message whose response shows earlier contents of the buffer is a SetParameters
that carries fewer parameter bytes than it declares. -/
theorem fresh_response_iff (hlen : ccidHeaderLen ≤ msgLen) :
    FreshResponse k amb s card msg msgLen ↔ ¬ ShortParameters msg msgLen := by
  constructor
  · intro hfresh hshort
    exact not_fresh_of_short k amb s card msg msgLen hshort hlen hfresh
  · intro hfull tx tx'
    obtain ⟨_, _, _, _, _, hbody⟩ := framed_of_full k amb s card msg msgLen hlen hfull
    rw [hbody tx, hbody tx']

end Responses

/-- An unpowered slot with nothing pending. -/
def emptySlot : Ccid :=
  { iccPowered := false, rxBuf := fun _ => 0, txBuf := fun _ => 0, responsePending := false,
    responseLen := 0 }

/-- SetParameters that declares five bytes for T=1 and carries none. -/
def bareParameters : Memory UInt8 := write (fun _ => 0) 0 [0x61, 5, 0, 0, 0, 0, 0, 1, 0, 0]

def sampleCard : Card := { piv := pivAtReset, dev := DeviceState.atReset }

theorem fresh_response_iff_sample :
    FreshResponse sampleBackend (ambientAt 0) emptySlot sampleCard bareParameters 15 ↔
      ¬ ShortParameters bareParameters 15 :=
  fresh_response_iff sampleBackend (ambientAt 0) emptySlot sampleCard bareParameters 15 (by decide)

theorem stale_parameters_shown :
    ccidHeaderLen ≤ 10 ∧
      ¬ FreshResponse sampleBackend (ambientAt 0) emptySlot sampleCard bareParameters 10 := by
  have hheld : ccidHeaderLen ≤ 10 := by decide
  have hshort : ShortParameters bareParameters 10 := ⟨rfl, by decide, by decide, by decide⟩
  exact ⟨hheld, not_fresh_of_short _ _ _ _ _ 10 hshort hheld⟩

end TransmitBuffer
