import Ward3n.PivApplet

/-!
# The CCID class driver

The message dispatcher and the transfer callbacks of `ccid.c`. The receive and
transmit buffers are single static buffers: a response is built in the transmit
buffer over whatever the previous response left there. Lengths taken from a
message header are 32-bit words and are added as such.
-/

namespace CcidDriver

open CellMemory MachineWords ApduCodec CryptoBackend PivApplet

def pcToRdrIccPowerOn : UInt8 := 0x62
def pcToRdrIccPowerOff : UInt8 := 0x63
def pcToRdrGetSlotStatus : UInt8 := 0x65
def pcToRdrXfrBlock : UInt8 := 0x6F
def pcToRdrAbort : UInt8 := 0x72
def pcToRdrSetParameters : UInt8 := 0x61
def pcToRdrSetDataRateAndClock : UInt8 := 0x73
def rdrToPcDataBlock : UInt8 := 0x80
def rdrToPcSlotStatus : UInt8 := 0x81
def rdrToPcParameters : UInt8 := 0x82
def rdrToPcDataRateAndClock : UInt8 := 0x84

def ccidHeaderLen : Nat := 10
def ccidBufSize : Nat := 512
def iccActive : UInt8 := 0x00
def iccInactive : UInt8 := 0x01
def cmdOk : UInt8 := 0x00
def cmdFailed : UInt8 := 0x40

/-- `_atr` -/
def atr : List UInt8 := [0x3B, 0x10, 0x01, 0x11]

/-- `_icc_powered`, the two buffers, and the pending response. -/
structure Ccid where
  iccPowered : Bool
  rxBuf : Memory UInt8
  txBuf : Memory UInt8
  responsePending : Bool
  responseLen : Nat

/-- The fields of `ccid_header_t` the driver reads. -/
structure Header where
  messageType : UInt8
  dwLength : Nat
  seq : UInt8
  specific2 : UInt8

def readHeader (msg : Memory UInt8) : Header :=
  { messageType := msg 0, dwLength := ofBytes (read (advance msg 1) 4), seq := msg 6,
    specific2 := msg 9 }

/-- The ten header bytes of a response; `bSlot` is 0. -/
def headerBytes (messageType : UInt8) (dwLength : Nat) (seq s0 s1 s2 : UInt8) : List UInt8 :=
  [messageType] ++ toBytes 4 dwLength ++ [0, seq, s0, s1, s2]

/-- A message to the reader: its type and its payload. -/
def hostMessage (messageType : UInt8) (payload : List UInt8) : List UInt8 :=
  [messageType] ++ toBytes 4 payload.length ++ [0, 0, 0, 0, 0] ++ payload

def iccStatus (powered : Bool) : UInt8 := if powered then iccActive else iccInactive

/-- `_make_slot_status` -/
def makeSlotStatus (powered : Bool) (out : Memory UInt8) (seq cmdStatus error clock : UInt8) :
    Memory UInt8 × Nat :=
  (write out 0
    (headerBytes rdrToPcSlotStatus 0 seq (cmdStatus ||| iccStatus powered) error clock),
    ccidHeaderLen)

/-- `_make_data_block` -/
def makeDataBlock (powered : Bool) (out : Memory UInt8) (seq cmdStatus error : UInt8)
    (data : List UInt8) : Memory UInt8 × Nat :=
  let out := write out 0
    (headerBytes rdrToPcDataBlock data.length seq (cmdStatus ||| iccStatus powered) error 0)
  (write out ccidHeaderLen data, ccidHeaderLen + data.length)

/-- An APDU as it was answered: the command the parser made of it, and the answer. -/
structure Exchange where
  cmd : Option ApduCmd
  answer : List UInt8

/-- What processing one message leaves: the driver, the card, and the APDU that was
forwarded, with the hash given to `crypto_sign` if it was called. -/
structure Processed where
  ccid : Ccid
  card : Card
  exchange : Option Exchange
  signed : Option (List UInt8)

/-- Record a response built in the transmit buffer as pending. -/
def queue (s : Ccid) (response : Memory UInt8 × Nat) : Ccid :=
  { s with txBuf := response.1, responseLen := response.2, responsePending := true }

@[simp] theorem queue_rxBuf (s : Ccid) (response : Memory UInt8 × Nat) :
    (queue s response).rxBuf = s.rxBuf := rfl

/-- The XfrBlock branch of `_process_message`. The bound check adds in 32 bits. -/
def processXfrBlock (k : Backend) (amb : Ambient) (s : Ccid) (card : Card) (msg : Memory UInt8)
    (msgLen : Nat) : Processed :=
  let req := readHeader msg
  let refusal : Processed :=
    { ccid := queue s (makeDataBlock s.iccPowered s.txBuf req.seq cmdFailed 0x01 []), card := card,
      exchange := none, signed := none }
  if s.iccPowered = false then refusal
  else if req.dwLength = 0 ∨ add32 ccidHeaderLen req.dwLength > msgLen then refusal
  else
    let apduIn := advance msg ccidHeaderLen
    let h := pivProcessApdu k amb card apduIn req.dwLength (advance s.txBuf ccidHeaderLen)
      (ccidBufSize - ccidHeaderLen)
    let tx := putBack s.txBuf ccidHeaderLen h.out
    let tx := write tx 0 (headerBytes rdrToPcDataBlock h.len req.seq (cmdOk ||| iccActive) 0 0)
    { ccid := queue s (tx, ccidHeaderLen + h.len), card := h.card,
      exchange := some { cmd := apduParse apduIn req.dwLength, answer := h.answer },
      signed := h.signed }

/-- The SetParameters branch: the parameters are echoed when the message holds them all. -/
def setParameters (out : Memory UInt8) (msg : Memory UInt8) (msgLen : Nat) : Memory UInt8 × Nat :=
  let req := readHeader msg
  let plen := if req.dwLength > ccidBufSize - ccidHeaderLen then 0 else req.dwLength
  let out := write out 0
    (headerBytes rdrToPcParameters plen req.seq (cmdOk ||| iccActive) 0 req.specific2)
  let out :=
    if plen > 0 ∧ add32 ccidHeaderLen plen ≤ msgLen then
      write out ccidHeaderLen (read (advance msg ccidHeaderLen) plen)
    else out
  (out, ccidHeaderLen + plen)

/-- The SetDataRateAndClockFrequency branch. -/
def setDataRateAndClock (out : Memory UInt8) (msg : Memory UInt8) (msgLen : Nat) :
    Memory UInt8 × Nat :=
  let req := readHeader msg
  let out := write out 0
    (headerBytes rdrToPcDataRateAndClock 8 req.seq (cmdOk ||| iccActive) 0 0)
  let out :=
    if req.dwLength ≥ 8 ∧ ccidHeaderLen + 8 ≤ msgLen then
      write out ccidHeaderLen (read (advance msg ccidHeaderLen) 8)
    else
      write (write out ccidHeaderLen (toBytes 4 0x00000DFC)) (ccidHeaderLen + 4)
        (toBytes 4 0x000025CD)
  (out, ccidHeaderLen + 8)

/-- `_process_message` -/
def processMessage (k : Backend) (amb : Ambient) (s : Ccid) (card : Card) (msg : Memory UInt8)
    (msgLen : Nat) : Processed :=
  let respond (s : Ccid) (card : Card) (response : Memory UInt8 × Nat) : Processed :=
    { ccid := queue s response, card := card, exchange := none, signed := none }
  let req := readHeader msg
  if msgLen < ccidHeaderLen then { ccid := s, card := card, exchange := none, signed := none }
  else if req.messageType = pcToRdrIccPowerOn then
    let s := { s with iccPowered := true }
    respond s { card with piv := pivInit card.piv }
      (makeDataBlock s.iccPowered s.txBuf req.seq cmdOk 0 atr)
  else if req.messageType = pcToRdrIccPowerOff then
    let s := { s with iccPowered := false }
    respond s card (makeSlotStatus s.iccPowered s.txBuf req.seq cmdOk 0 0)
  else if req.messageType = pcToRdrGetSlotStatus then
    respond s card (makeSlotStatus s.iccPowered s.txBuf req.seq cmdOk 0 0)
  else if req.messageType = pcToRdrXfrBlock then processXfrBlock k amb s card msg msgLen
  else if req.messageType = pcToRdrAbort then
    respond s card (makeSlotStatus s.iccPowered s.txBuf req.seq cmdOk 0 0)
  else if req.messageType = pcToRdrSetParameters then
    respond s card (setParameters s.txBuf msg msgLen)
  else if req.messageType = pcToRdrSetDataRateAndClock then
    respond s card (setDataRateAndClock s.txBuf msg msgLen)
  else respond s card (makeSlotStatus s.iccPowered s.txBuf req.seq cmdFailed 0 0)

/-- The bytes of the pending response. -/
def Ccid.response (s : Ccid) : List UInt8 := read s.txBuf s.responseLen

/-- `_ccid_init` -/
def ccidInit (s : Ccid) : Ccid :=
  { s with iccPowered := false, responsePending := false, responseLen := 0, rxBuf := fun _ => 0,
           txBuf := fun _ => 0 }

/-- `_ccid_reset` -/
def ccidReset (s : Ccid) : Ccid := { s with iccPowered := false, responsePending := false }

/-- `_ccid_xfer_cb` for a bulk OUT transfer that left the given bytes at the front of the
receive buffer. -/
def ccidXferOut (k : Backend) (amb : Ambient) (s : Ccid) (card : Card) (bytes : List UInt8) :
    Processed :=
  let s := { s with rxBuf := write s.rxBuf 0 bytes }
  if bytes.length ≥ ccidHeaderLen then processMessage k amb s card s.rxBuf bytes.length
  else { ccid := s, card := card, exchange := none, signed := none }

/-- `ccid_task`, where `claimed` is the answer of `usbd_edpt_claim`: the length of the IN
transfer started, if one is. -/
def ccidTask (s : Ccid) (claimed : Bool) : Ccid × Option Nat :=
  if s.responsePending = false then (s, none)
  else if claimed = false then (s, none)
  else ({ s with responsePending := false }, some (s.responseLen % 2 ^ 16))

/-- The message is an XfrBlock whose APDU goes to the applet. -/
def Forwards (s : Ccid) (msg : Memory UInt8) (msgLen : Nat) : Prop :=
  (readHeader msg).messageType = pcToRdrXfrBlock ∧ s.iccPowered = true ∧
    (readHeader msg).dwLength ≠ 0 ∧ add32 ccidHeaderLen (readHeader msg).dwLength ≤ msgLen

instance (s : Ccid) (msg : Memory UInt8) (msgLen : Nat) : Decidable (Forwards s msg msgLen) := by
  unfold Forwards
  infer_instance

/-- The command the applet parses out of a message that is forwarded. -/
def forwardedCmd (msg : Memory UInt8) : Option ApduCmd :=
  apduParse (advance msg ccidHeaderLen) (readHeader msg).dwLength

/-- What the applet does with a message that is forwarded. -/
def forward (k : Backend) (amb : Ambient) (s : Ccid) (card : Card) (msg : Memory UInt8) : Handled :=
  pivProcessApdu k amb card (advance msg ccidHeaderLen) (readHeader msg).dwLength
    (advance s.txBuf ccidHeaderLen) (ccidBufSize - ccidHeaderLen)

section Messages

variable (k : Backend) (amb : Ambient) (s : Ccid) (card : Card) (msg : Memory UInt8) (msgLen : Nat)

theorem processXfrBlock_forwards (hfwd : Forwards s msg msgLen) :
    processXfrBlock k amb s card msg msgLen =
      { ccid := queue s
          (write (putBack s.txBuf ccidHeaderLen (forward k amb s card msg).out) 0
            (headerBytes rdrToPcDataBlock (forward k amb s card msg).len (readHeader msg).seq
              (cmdOk ||| iccActive) 0 0),
            ccidHeaderLen + (forward k amb s card msg).len)
        card := (forward k amb s card msg).card
        exchange := some { cmd := forwardedCmd msg, answer := (forward k amb s card msg).answer }
        signed := (forward k amb s card msg).signed } := by
  obtain ⟨_, hpowered, hsome, hroom⟩ := hfwd
  simp only [processXfrBlock]
  rw [if_neg (by simp [hpowered]), if_neg (by omega)]
  rfl

theorem processXfrBlock_refuses (htype : (readHeader msg).messageType = pcToRdrXfrBlock)
    (hfwd : ¬ Forwards s msg msgLen) :
    processXfrBlock k amb s card msg msgLen =
      { ccid := queue s
          (makeDataBlock s.iccPowered s.txBuf (readHeader msg).seq cmdFailed 0x01 [])
        card := card, exchange := none, signed := none } := by
  simp only [processXfrBlock]
  by_cases hpowered : s.iccPowered = false
  · rw [if_pos hpowered]
  · have hlen : (readHeader msg).dwLength = 0 ∨
        add32 ccidHeaderLen (readHeader msg).dwLength > msgLen := by
      by_contra hlen
      simp only [not_or, Nat.not_lt, gt_iff_lt] at hlen
      exact hfwd ⟨htype, by simpa using hpowered, hlen⟩
    rw [if_neg hpowered, if_pos hlen]

theorem processMessage_xfrBlock (htype : (readHeader msg).messageType = pcToRdrXfrBlock)
    (hlen : ccidHeaderLen ≤ msgLen) :
    processMessage k amb s card msg msgLen = processXfrBlock k amb s card msg msgLen := by
  simp only [processMessage, htype]
  rw [if_neg (Nat.not_lt.mpr hlen)]
  rfl

theorem processMessage_setParameters
    (htype : (readHeader msg).messageType = pcToRdrSetParameters) (hlen : ccidHeaderLen ≤ msgLen) :
    processMessage k amb s card msg msgLen =
      { ccid := queue s (setParameters s.txBuf msg msgLen), card := card, exchange := none,
        signed := none } := by
  simp only [processMessage, htype]
  rw [if_neg (Nat.not_lt.mpr hlen)]
  rfl

theorem processMessage_setDataRateAndClock
    (htype : (readHeader msg).messageType = pcToRdrSetDataRateAndClock)
    (hlen : ccidHeaderLen ≤ msgLen) :
    processMessage k amb s card msg msgLen =
      { ccid := queue s (setDataRateAndClock s.txBuf msg msgLen), card := card, exchange := none,
        signed := none } := by
  simp only [processMessage, htype]
  rw [if_neg (Nat.not_lt.mpr hlen)]
  rfl

/-- All a message can do besides building its response: switch the slot on or off, forward
an APDU, or nothing. -/
theorem processMessage_cases (hlen : ccidHeaderLen ≤ msgLen) :
    ((readHeader msg).messageType = pcToRdrIccPowerOn ∧ ∃ response,
      processMessage k amb s card msg msgLen =
        { ccid := queue { s with iccPowered := true } response,
          card := { card with piv := pivInit card.piv }, exchange := none, signed := none }) ∨
    ((readHeader msg).messageType = pcToRdrIccPowerOff ∧ ∃ response,
      processMessage k amb s card msg msgLen =
        { ccid := queue { s with iccPowered := false } response, card := card, exchange := none,
          signed := none }) ∨
    (Forwards s msg msgLen ∧ ∃ response, processMessage k amb s card msg msgLen =
      { ccid := queue s response, card := (forward k amb s card msg).card,
        exchange := some { cmd := forwardedCmd msg, answer := (forward k amb s card msg).answer },
        signed := (forward k amb s card msg).signed }) ∨
    (¬ Forwards s msg msgLen ∧ (readHeader msg).messageType ≠ pcToRdrIccPowerOn ∧
      (readHeader msg).messageType ≠ pcToRdrIccPowerOff ∧ ∃ response,
      processMessage k amb s card msg msgLen =
        { ccid := queue s response, card := card, exchange := none, signed := none }) := by
  simp only [processMessage]
  simp only [if_neg (Nat.not_lt.mpr hlen)]
  by_cases hon : (readHeader msg).messageType = pcToRdrIccPowerOn
  · simp only [if_pos hon]
    exact Or.inl ⟨hon, _, rfl⟩
  simp only [if_neg hon]
  by_cases hoff : (readHeader msg).messageType = pcToRdrIccPowerOff
  · simp only [if_pos hoff]
    exact Or.inr (Or.inl ⟨hoff, _, rfl⟩)
  simp only [if_neg hoff]
  by_cases hfwd : Forwards s msg msgLen
  · rw [if_neg (by rw [hfwd.1]; decide), if_pos hfwd.1]
    exact Or.inr (Or.inr (Or.inl ⟨hfwd, _, processXfrBlock_forwards k amb s card msg msgLen hfwd⟩))
  refine Or.inr (Or.inr (Or.inr ⟨hfwd, hon, hoff, ?_⟩))
  repeat' split
  all_goals first
    | exact ⟨_, rfl⟩
    | exact ⟨_, processXfrBlock_refuses k amb s card msg msgLen (by assumption) hfwd⟩

theorem processMessage_pending (hlen : ccidHeaderLen ≤ msgLen) :
    (processMessage k amb s card msg msgLen).ccid.responsePending = true := by
  rcases processMessage_cases k amb s card msg msgLen hlen with ⟨_, _, heq⟩ | ⟨_, _, heq⟩ |
    ⟨_, _, heq⟩ | ⟨_, _, _, _, heq⟩ <;> rw [heq] <;> rfl

end Messages

end CcidDriver
