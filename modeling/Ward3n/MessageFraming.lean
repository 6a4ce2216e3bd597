import Ward3n.TransmitBuffer
import Ward3n.SessionGate

/-!
# Lengths on the wire

Whatever a message declares, its response is framed: the header announces the
body that follows, and the two fit the buffer. The length a request declares is
checked less well. The driver adds the header to it in 32 bits, so the largest
lengths come out small and pass for lengths that were received.
-/

namespace MessageFraming

open CellMemory MachineWords ApduCodec CryptoBackend PivApplet CcidDriver AppletEffects
  TransmitBuffer

section Requests

variable (k : Backend) (amb : Ambient) (s : Ccid) (card : Card) (msg : Memory UInt8) (msgLen : Nat)

theorem dwLength_lt : (readHeader msg).dwLength < 2 ^ 32 := by
  have hlt := ofBytes_lt (read (advance msg 1) 4)
  rw [read_length] at hlt
  exact hlt

/-- An XfrBlock message is taken at its word: an APDU is passed on exactly when the message
holds the bytes it declares, it is those bytes, and any other message is refused. -/
structure LengthExact : Prop where
  forwarded : (processMessage k amb s card msg msgLen).exchange.isSome = true ↔
    1 ≤ (readHeader msg).dwLength ∧ ccidHeaderLen + (readHeader msg).dwLength ≤ msgLen
  passed : 1 ≤ (readHeader msg).dwLength → ccidHeaderLen + (readHeader msg).dwLength ≤ msgLen →
    read (advance msg ccidHeaderLen) (readHeader msg).dwLength =
        ((read msg msgLen).drop ccidHeaderLen).take (readHeader msg).dwLength ∧
      (processMessage k amb s card msg msgLen).card = (forward k amb s card msg).card ∧
      (processMessage k amb s card msg msgLen).signed = (forward k amb s card msg).signed ∧
      (processMessage k amb s card msg msgLen).exchange =
        some ⟨forwardedCmd msg, (forward k amb s card msg).answer⟩
  refused : ¬ (1 ≤ (readHeader msg).dwLength ∧
      ccidHeaderLen + (readHeader msg).dwLength ≤ msgLen) →
    (processMessage k amb s card msg msgLen).ccid.response =
        headerBytes rdrToPcDataBlock 0 (readHeader msg).seq cmdFailed 0x01 0 ∧
      (processMessage k amb s card msg msgLen).card = card ∧
      (processMessage k amb s card msg msgLen).signed = none

variable {s msg msgLen}

/-- Below the wrap-around the driver compares what it should. -/
theorem forwards_iff (htype : (readHeader msg).messageType = pcToRdrXfrBlock)
    (hpowered : s.iccPowered = true) (hsmall : (readHeader msg).dwLength < 2 ^ 32 - 10) :
    Forwards s msg msgLen ↔
      1 ≤ (readHeader msg).dwLength ∧ ccidHeaderLen + (readHeader msg).dwLength ≤ msgLen := by
  have hheader : ccidHeaderLen = 10 := rfl
  have hsum : add32 ccidHeaderLen (readHeader msg).dwLength =
      ccidHeaderLen + (readHeader msg).dwLength := add32_of_lt (by omega)
  rw [Forwards, hsum]
  constructor
  · rintro ⟨_, _, hsome, hroom⟩
    exact ⟨Nat.pos_of_ne_zero hsome, hroom⟩
  · rintro ⟨hsome, hroom⟩
    exact ⟨htype, hpowered, Nat.ne_of_gt hsome, hroom⟩

/-- Above it, every length passes. -/
theorem forwards_of_wrapped (htype : (readHeader msg).messageType = pcToRdrXfrBlock)
    (hpowered : s.iccPowered = true) (hlen : ccidHeaderLen ≤ msgLen)
    (hlarge : 2 ^ 32 - 10 ≤ (readHeader msg).dwLength) : Forwards s msg msgLen := by
  have hheader : ccidHeaderLen = 10 := rfl
  have hlt := dwLength_lt msg
  have hsum : add32 ccidHeaderLen (readHeader msg).dwLength =
      ccidHeaderLen + (readHeader msg).dwLength - 2 ^ 32 := add32_of_ge (by omega) (by omega)
  refine ⟨htype, hpowered, by omega, ?_⟩
  rw [hsum]
  omega

theorem forwarded_exchange (hlen : ccidHeaderLen ≤ msgLen) (hfwd : Forwards s msg msgLen) :
    (processMessage k amb s card msg msgLen).card = (forward k amb s card msg).card ∧
      (processMessage k amb s card msg msgLen).signed = (forward k amb s card msg).signed ∧
      (processMessage k amb s card msg msgLen).exchange =
        some ⟨forwardedCmd msg, (forward k amb s card msg).answer⟩ := by
  rw [processMessage_xfrBlock k amb s card msg msgLen hfwd.1 hlen,
    processXfrBlock_forwards k amb s card msg msgLen hfwd]
  exact ⟨rfl, rfl, rfl⟩

theorem declared_bytes (hroom : ccidHeaderLen + (readHeader msg).dwLength ≤ msgLen) :
    read (advance msg ccidHeaderLen) (readHeader msg).dwLength =
      ((read msg msgLen).drop ccidHeaderLen).take (readHeader msg).dwLength := by
  have hsplit : ccidHeaderLen + (msgLen - ccidHeaderLen) = msgLen := by omega
  rw [← hsplit, read_drop, read_take _ (by omega)]

/-- A powered slot takes XfrBlock messages at their word exactly when the declared length and
the header do not pass 2^32 together. -/
theorem length_exact_iff (htype : (readHeader msg).messageType = pcToRdrXfrBlock)
    (hpowered : s.iccPowered = true) (hlen : 10 ≤ msgLen ∧ msgLen ≤ 512) :
    LengthExact k amb s card msg msgLen ↔ (readHeader msg).dwLength < 2 ^ 32 - 10 := by
  have hheader : ccidHeaderLen = 10 := rfl
  have hheld : ccidHeaderLen ≤ msgLen := hlen.1
  constructor
  · intro hexact
    by_contra hlarge
    have hfwd := forwards_of_wrapped htype hpowered hheld (Nat.not_lt.mp hlarge)
    have hexchange := (forwarded_exchange k amb card hheld hfwd).2.2
    have hroom := (hexact.forwarded.mp (by rw [hexchange]; rfl)).2
    omega
  · intro hsmall
    have hiff : Forwards s msg msgLen ↔ 1 ≤ (readHeader msg).dwLength ∧
        ccidHeaderLen + (readHeader msg).dwLength ≤ msgLen := forwards_iff htype hpowered hsmall
    constructor
    · constructor
      · intro hsome
        by_contra hno
        have hfwd : ¬ Forwards s msg msgLen := fun hfwd => hno (hiff.mp hfwd)
        rw [processMessage_xfrBlock k amb s card msg msgLen htype hheld,
          processXfrBlock_refuses k amb s card msg msgLen htype hfwd] at hsome
        cases hsome
      · intro hheld'
        rw [(forwarded_exchange k amb card hheld (hiff.mpr hheld')).2.2]
        rfl
    · intro hsome hroom
      exact ⟨declared_bytes hroom, forwarded_exchange k amb card hheld (hiff.mpr ⟨hsome, hroom⟩)⟩
    · intro hno
      have hfwd : ¬ Forwards s msg msgLen := fun hfwd => hno (hiff.mp hfwd)
      have hresponse := refused_response k amb s card msg msgLen htype hfwd
      rw [hpowered] at hresponse
      rw [processMessage_xfrBlock k amb s card msg msgLen htype hheld]
      refine ⟨hresponse, ?_⟩
      rw [processXfrBlock_refuses k amb s card msg msgLen htype hfwd]
      exact ⟨rfl, rfl⟩

end Requests

/-- SELECT of the PIV AID as an XfrBlock message of 26 bytes. -/
def selectMessage : Memory UInt8 :=
  write (fun _ => 0) 0 (hostMessage pcToRdrXfrBlock SessionGate.selectApdu)

def poweredSlot : Ccid := { emptySlot with iccPowered := true }

theorem length_exact_iff_sample :
    LengthExact sampleBackend (ambientAt 0) poweredSlot sampleCard selectMessage 26 ↔
      (readHeader selectMessage).dwLength < 2 ^ 32 - 10 :=
  length_exact_iff sampleBackend (ambientAt 0) sampleCard rfl rfl (by decide)

/-- An XfrBlock header alone, declaring 2^32 - 1 bytes, received over that message. -/
def wrappedMessage : Memory UInt8 :=
  write selectMessage 0 [0x6F, 0xFF, 0xFF, 0xFF, 0xFF, 0, 0, 1, 0, 0]

/-- The ten bytes are taken for an APDU, and the earlier SELECT is carried out again. -/
theorem wrapped_length_forwarded :
    (readHeader wrappedMessage).messageType = pcToRdrXfrBlock ∧ poweredSlot.iccPowered = true ∧
      (processMessage sampleBackend (ambientAt 0) poweredSlot sampleCard wrappedMessage
        10).card.piv.selected = true ∧
      ¬ LengthExact sampleBackend (ambientAt 0) poweredSlot sampleCard wrappedMessage 10 := by
  refine ⟨rfl, rfl, by decide, fun hexact => ?_⟩
  exact absurd (hexact.forwarded.mp (by decide)) (by decide)

/-- The header of a response announces its body, fits the buffer with it, and names slot 0
and the message it answers. -/
structure WellFramed (seq : UInt8) (response : List UInt8) : Prop where
  length : response.length = 10 + ofBytes ((response.drop 1).take 4)
  fits : response.length ≤ ccidBufSize
  slot : response[5]? = some 0
  sequence : response[6]? = some seq

theorem wellFramed_of_header {messageType seq s0 s1 s2 : UInt8} {body response : List UInt8}
    (h : response = headerBytes messageType body.length seq s0 s1 s2 ++ body)
    (hfits : response.length ≤ ccidBufSize) : WellFramed seq response := by
  have hsize : ccidBufSize = 512 := rfl
  have hcount : response.length = 10 + body.length := by simp [h]
  have hfield : (response.drop 1).take 4 = toBytes 4 body.length := by
    rw [h]
    rfl
  constructor
  · rw [hfield, ofBytes_toBytes_of_lt (by omega), hcount]
  · exact hfits
  · rw [h]
    rfl
  · rw [h]
    rfl

section Responses

variable (k : Backend) (amb : Ambient) (s : Ccid) (card : Card) (msg : Memory UInt8) (msgLen : Nat)

/-- Every response is a header that announces its body. -/
theorem response_framed (hlen : ccidHeaderLen ≤ msgLen) :
    ∃ messageType s0 s1 s2 body, (processMessage k amb s card msg msgLen).ccid.response =
      headerBytes messageType body.length (readHeader msg).seq s0 s1 s2 ++ body := by
  by_cases hshort : ShortParameters msg msgLen
  · obtain ⟨rest, hlength, hrest⟩ := setParameters_header s.txBuf msg msgLen
    refine ⟨rdrToPcParameters, cmdOk ||| iccActive, 0, (readHeader msg).specific2, rest, ?_⟩
    rw [processMessage_setParameters k amb s card msg msgLen hshort.1 hlen, queue_response, hrest,
      hlength]
    rfl
  · obtain ⟨messageType, s0, s1, s2, body, hbody⟩ :=
      framed_of_full k amb s card msg msgLen hlen hshort
    exact ⟨messageType, s0, s1, s2, body, hbody s.txBuf⟩

/-- A message makes one response pending, and changes nothing else but the power switch. -/
theorem one_response (hlen : ccidHeaderLen ≤ msgLen) :
    ∃ powered response, (processMessage k amb s card msg msgLen).ccid =
      queue { s with iccPowered := powered } response := by
  rcases processMessage_cases k amb s card msg msgLen hlen with ⟨_, response, heq⟩ |
    ⟨_, response, heq⟩ | ⟨_, response, heq⟩ | ⟨_, _, _, response, heq⟩
  · exact ⟨true, response, by rw [heq]⟩
  · exact ⟨false, response, by rw [heq]⟩
  · exact ⟨s.iccPowered, response, by rw [heq]⟩
  · exact ⟨s.iccPowered, response, by rw [heq]⟩

theorem forwards_of_exchange (hlen : ccidHeaderLen ≤ msgLen) {x : Exchange}
    (hx : (processMessage k amb s card msg msgLen).exchange = some x) :
    Forwards s msg msgLen ∧ x = ⟨forwardedCmd msg, (forward k amb s card msg).answer⟩ := by
  rcases processMessage_cases k amb s card msg msgLen hlen with ⟨_, response, heq⟩ |
    ⟨_, response, heq⟩ | ⟨hfwd, response, heq⟩ | ⟨_, _, _, response, heq⟩
  · rw [heq] at hx
    cases hx
  · rw [heq] at hx
    cases hx
  · rw [heq] at hx
    cases hx
    exact ⟨hfwd, rfl⟩
  · rw [heq] at hx
    cases hx

/-- Every message is answered by one well-framed response. When it carried an APDU, the body
is what the applet answered, its status word at the end, and the whole stays below the
message length the device advertises. -/
theorem responses_framed (hlen : 10 ≤ msgLen ∧ msgLen ≤ 512) :
    (∃ powered response, (processMessage k amb s card msg msgLen).ccid =
      queue { s with iccPowered := powered } response) ∧
    (processMessage k amb s card msg msgLen).ccid.responsePending = true ∧
    WellFramed (readHeader msg).seq (processMessage k amb s card msg msgLen).ccid.response ∧
    ∀ x, (processMessage k amb s card msg msgLen).exchange = some x →
      (processMessage k amb s card msg msgLen).ccid.response.drop 10 = x.answer ∧
      (∃ r, Effect k amb card x.cmd r ∧ x.answer = r.body ++ swBytes r.sw) ∧
      2 ≤ x.answer.length ∧ x.answer.length ≤ 258 ∧
      (processMessage k amb s card msg msgLen).ccid.response.length ≤ 268 := by
  have hheld : ccidHeaderLen ≤ msgLen := hlen.1
  refine ⟨one_response k amb s card msg msgLen hheld,
    processMessage_pending k amb s card msg msgLen hheld, ?_, ?_⟩
  · obtain ⟨_, _, _, _, body, hbody⟩ := response_framed k amb s card msg msgLen hheld
    apply wellFramed_of_header hbody
    rw [Ccid.response, read_length]
    exact processMessage_responseLen k amb s card msg msgLen hheld
  · intro x hx
    obtain ⟨hfwd, rfl⟩ := forwards_of_exchange k amb s card msg msgLen hheld hx
    obtain ⟨r, heffect, hbody, hshown⟩ := forward_answer k amb s card msg
    have hanswer : (forward k amb s card msg).answer = r.body ++ swBytes r.sw := hshown s.txBuf
    have hcount : (forward k amb s card msg).answer.length = r.body.length + 2 := by
      rw [hanswer, List.length_append, swBytes_length]
    have hresponse := forwarded_response k amb s card msg msgLen hfwd
    rw [← processMessage_xfrBlock k amb s card msg msgLen hfwd.1 hheld] at hresponse
    have hbounds : 2 ≤ (forward k amb s card msg).answer.length ∧
        (forward k amb s card msg).answer.length ≤ 258 := by omega
    dsimp only
    refine ⟨?_, ⟨r, heffect, hanswer⟩, hbounds.1, hbounds.2, ?_⟩
    · rw [hresponse]
      exact List.drop_left' (headerBytes_length _ _ _ _ _ _)
    · rw [hresponse, List.length_append, headerBytes_length]
      omega

end Responses

theorem responses_framed_sample :
    WellFramed 0 (processMessage sampleBackend (ambientAt 0) poweredSlot sampleCard selectMessage
      26).ccid.response :=
  (responses_framed sampleBackend (ambientAt 0) poweredSlot sampleCard selectMessage 26
    (by decide)).2.2.1

end MessageFraming
