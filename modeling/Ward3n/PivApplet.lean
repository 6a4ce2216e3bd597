import Ward3n.ApduCodec
import Ward3n.CryptoBackend
import Ward3n.DeviceState

/-!
# The PIV applet

The state and the handlers of `piv.c`. A handler is given the buffer its caller
supplies and returns it changed, together with the number of bytes answered; the
answer is what a reader of that many bytes finds. Everything a handler touches
besides the buffer is in the card: the applet's own variables and those of the
authorization state machine. A call of `crypto_sign` is reported with the hash
it was given.

GET DATA and GENERAL AUTHENTICATE are each cut in two: the checks, which end in
a status word or in what was asked for, and the part that acts on it.
-/

namespace PivApplet

open CellMemory MachineWords ApduCodec CryptoBackend DeviceState

def pivTagCcc : List UInt8 := [0x5F, 0xC1, 0x07]
def pivTagChuid : List UInt8 := [0x5F, 0xC1, 0x02]
def pivTagCert9A : List UInt8 := [0x5F, 0xC1, 0x05]
def pivAid : List UInt8 := [0xA0, 0x00, 0x00, 0x03, 0x08, 0x00, 0x00, 0x10, 0x00, 0x01, 0x00]
def pivAidLen : Nat := 11
def pivPinRefApp : UInt8 := 0x80
def pivDatTag : UInt8 := 0x7C
def pivDatResponse : UInt8 := 0x82
def pivDatChallenge : UInt8 := 0x81
def pivPinPadByte : UInt8 := 0xFF

/-- `PIV_DEFAULT_PIN`, the ASCII string 123456. -/
def pivDefaultPin : List UInt8 := [0x31, 0x32, 0x33, 0x34, 0x35, 0x36]

/-- `_ccc_data` -/
def cccData : List UInt8 :=
  [0x53, 0x33, 0xF0, 0x15, 0xA0, 0x00, 0x00, 0x01, 0x16, 0xFF, 0x02] ++ List.replicate 14 0x00 ++
  [0xF1, 0x01, 0x21, 0xF2, 0x01, 0x21, 0xF3, 0x00, 0xF4, 0x01, 0x00, 0xF5, 0x01, 0x10, 0xF6, 0x00,
   0xF7, 0x00, 0xFA, 0x00, 0xFB, 0x00, 0xFC, 0x00, 0xFD, 0x00, 0xFE, 0x00]

/-- `_chuid_data` -/
def chuidData : List UInt8 :=
  [0x53, 0x3B, 0x30, 0x19] ++ List.replicate 25 0x00 ++
  [0x34, 0x10, 0x57, 0x41, 0x52, 0x44, 0x33, 0x4E, 0x00, 0x01, 0xAA, 0xBB, 0xCC, 0xDD, 0xEE, 0xFF,
   0x00, 0x01, 0x35, 0x08, 0x32, 0x30, 0x39, 0x39, 0x31, 0x32, 0x33, 0x31, 0x3E, 0x00, 0xFE, 0x00]

/-- The static `fci` of SELECT. -/
def fci : List UInt8 :=
  [0x61, 0x11, 0x4F, 0x0B, 0xA0, 0x00, 0x00, 0x03, 0x08, 0x00, 0x00, 0x10, 0x00, 0x01, 0x00,
   0x79, 0x02, 0x4F, 0x00]

/-- The static `disc` of GET DATA. -/
def disc : List UInt8 :=
  [0x7E, 0x12, 0x4F, 0x0B, 0xA0, 0x00, 0x00, 0x03, 0x08, 0x00, 0x00, 0x10, 0x00, 0x01, 0x00,
   0x5F, 0x2F, 0x02, 0x40, 0x00]

/-- The size of `chain_buf`. -/
def chainBufSize : Nat := 4096

/-- The variable `_piv`. -/
structure Piv where
  selected : Bool
  pinVerified : Bool
  chainBuf : Memory UInt8
  chainLen : Nat
  chainOffset : Nat

/-- All the state an APDU can read or change, besides the buffers. -/
structure Card where
  piv : Piv
  dev : Device

/-- What the environment answers while one APDU is handled: the clock, and the signature
primitive should it be called. -/
structure Ambient where
  now : Nat
  pkSign : PkSign

/-- The outcome of handling one APDU. -/
structure Handled where
  card : Card
  out : Memory UInt8
  len : Nat
  signed : Option (List UInt8)

/-- The bytes handed back to the caller. -/
def Handled.answer (h : Handled) : List UInt8 := read h.out h.len

/-- The variable as the C runtime initialises it. -/
def pivAtReset : Piv :=
  { selected := false, pinVerified := false, chainBuf := fun _ => 0, chainLen := 0,
    chainOffset := 0 }

/-- `piv_init` -/
def pivInit (piv : Piv) : Piv :=
  { selected := false, pinVerified := false,
    chainBuf := enclose chainBufSize (fun _ => 0) piv.chainBuf, chainLen := 0, chainOffset := 0 }

/-- `_ber_len_write` -/
def berLenWrite (len : Nat) : List UInt8 :=
  if len < 0x80 then [UInt8.ofNat len]
  else if len ≤ 0xFF then [0x81, UInt8.ofNat len]
  else [0x82, UInt8.ofNat (len >>> 8), UInt8.ofNat (len &&& 0xFF)]

/-- Finalize a response without a call of `crypto_sign`. -/
def finish (card : Card) (r : ApduResp) (sw : Nat) : Handled :=
  let (out, len) := apduRespFinalize r sw
  { card := card, out := out, len := len, signed := none }

/-- `_handle_select` -/
def handleSelect (card : Card) (cmd : ApduCmd) (out : Memory UInt8) (outCap : Nat) : Handled :=
  let r := apduRespInit out outCap
  if cmd.p1 ≠ 0x04 then finish card r swIncorrectP1P2
  else if cmd.hasLc = false ∨ cmd.lc < pivAidLen then finish card r swWrongData
  else if read cmd.data pivAidLen ≠ pivAid then finish card r swFileNotFound
  else
    finish { card with piv := { card.piv with selected := true } } (apduRespAppend r fci).2 swOk

/-- The PIN buffer VERIFY compares with: the PIN bytes, padded to 8. -/
def expectedPin : List UInt8 :=
  pivDefaultPin ++ List.replicate (8 - pivDefaultPin.length) pivPinPadByte

/-- `_handle_verify` -/
def handleVerify (card : Card) (cmd : ApduCmd) (out : Memory UInt8) (outCap : Nat) : Handled :=
  let r := apduRespInit out outCap
  if cmd.p1 ≠ 0x00 then finish card r swIncorrectP1P2
  else if cmd.p2 ≠ pivPinRefApp then finish card r swReferencedDataNotFound
  else if cmd.hasLc = false ∨ cmd.lc = 0 then finish card r 0x63C3
  else if cmd.lc ≠ 8 then finish card r swWrongLength
  else if read cmd.data 8 ≠ expectedPin then
    finish { card with piv := { card.piv with pinVerified := false } } r swSecurityNotSatisfied
  else finish { card with piv := { card.piv with pinVerified := true } } r swOk

/-- The certificate data object, as `_handle_get_data` builds it in `cert_obj`. -/
def certObject (certDer : List UInt8) : List UInt8 :=
  let certLen := certDer.length
  let innerLen := 2 + certLen + 3 + 2
  let innerLen := if certLen ≥ 0x80 then innerLen + 1 else innerLen
  let innerLen := if certLen > 0xFF then innerLen + 1 else innerLen
  [0x53] ++ berLenWrite innerLen ++ [0x70] ++ berLenWrite certLen ++ certDer ++
    [0x71, 0x01, 0x00] ++ [0xFE, 0x00]

/-- The data object for a tag of the given length. A three-byte tag is compared whole,
wherever the command data ends. -/
def dataObject (k : Backend) (tagLen : UInt8) (tag : Memory UInt8) : Option (List UInt8) :=
  if tagLen = 3 then
    if read tag 3 = pivTagCcc then some cccData
    else if read tag 3 = pivTagChuid then some chuidData
    else if read tag 3 = pivTagCert9A then
      let certDer := cryptoGetCertDer k keyRef9A 3994
      if certDer.length = 0 then none else some (certObject certDer)
    else none
  else if tag 0 = 0x7E then some disc
  else none

/-- The checks of GET DATA: the object asked for, or the status word of the refusal. -/
def requestedObject (k : Backend) (cmd : ApduCmd) : Except Nat (List UInt8) :=
  if cmd.p1 ≠ 0x3F ∨ cmd.p2 ≠ 0xFF then .error swIncorrectP1P2
  else if cmd.hasLc = false ∨ cmd.lc < 3 ∨ cmd.data 0 ≠ 0x5C then .error swWrongData
  else
    let tagLen := cmd.data 1
    if tagLen ≠ 3 ∧ tagLen ≠ 1 then .error swWrongData
    else
      match dataObject k tagLen (advance cmd.data 2) with
      | none => .error swReferencedDataNotFound
      | some obj => .ok obj

/-- The Le a handler works with. -/
def effectiveLe (cmd : ApduCmd) : Nat := if cmd.hasLe then cmd.le else 256

/-- The status word announcing bytes still to be fetched. -/
def swRemaining (remaining : Nat) : Nat := swMoreData (if remaining > 0xFF then 0xFF else remaining)

/-- `_handle_get_data` -/
def handleGetData (k : Backend) (card : Card) (cmd : ApduCmd) (out : Memory UInt8)
    (outCap : Nat) : Handled :=
  let r := apduRespInit out outCap
  match requestedObject k cmd with
  | .error sw => finish card r sw
  | .ok obj =>
    let le := effectiveLe cmd
    if obj.length ≤ le then finish card (apduRespAppend r obj).2 swOk
    else
      let piv := { card.piv with
        chainBuf := write card.piv.chainBuf 0 obj, chainLen := obj.length, chainOffset := le }
      finish { card with piv := piv } (apduRespAppend r (obj.take le)).2
        (swRemaining (obj.length - le))

/-- `_handle_get_response` -/
def handleGetResponse (card : Card) (cmd : ApduCmd) (out : Memory UInt8) (outCap : Nat) :
    Handled :=
  let r := apduRespInit out outCap
  if card.piv.chainOffset ≥ card.piv.chainLen then finish card r swConditionsNotSatisfied
  else
    let le := effectiveLe cmd
    let available := card.piv.chainLen - card.piv.chainOffset
    let sendNow := if available ≤ le then available else le
    let r := (apduRespAppend r (read (advance card.piv.chainBuf card.piv.chainOffset) sendNow)).2
    let piv := { card.piv with chainOffset := card.piv.chainOffset + sendNow }
    let card := { card with piv := piv }
    if piv.chainOffset ≥ piv.chainLen then finish card r swOk
    else finish card r (swRemaining (piv.chainLen - piv.chainOffset))

/-- The template behind its length byte, read at index `p` with `rem` bytes remaining: the
index and length of the challenge. -/
def challengeWindow (data : Memory UInt8) (p rem : Nat) : Option (Nat × Nat) :=
  if rem < 2 ∨ data p ≠ pivDatResponse ∨ data (p + 1) ≠ 0x00 then none
  else
    let p := p + 2
    let rem := sub32 rem 2
    if rem < 2 ∨ data p ≠ pivDatChallenge then none
    else
      let p := p + 1
      let rem := sub32 rem 1
      let hashLen := (data p).toNat
      let p := p + 1
      let rem := sub32 rem 1
      if rem < hashLen ∨ hashLen = 0 ∨ hashLen > 64 then none else some (p, hashLen)

/-- The parse of the dynamic authentication template. The outer length is skipped, not
compared with anything. -/
def templateChallenge (data : Memory UInt8) (lc : Nat) : Option (Nat × Nat) :=
  if data 0 ≠ pivDatTag then none
  else
    let p := 1
    let rem := sub32 lc 1
    if rem = 0 then none
    else if data p < 0x80 then challengeWindow data (p + 1) (sub32 rem 1)
    else if data p = 0x81 ∧ rem ≥ 2 then challengeWindow data (p + 2) (sub32 rem 2)
    else none

/-- The checks of GENERAL AUTHENTICATE before the user-presence check: the challenge, or
the status word of the refusal. -/
def requestedChallenge (piv : Piv) (cmd : ApduCmd) : Except Nat (List UInt8) :=
  if cmd.p1 ≠ algEcdsaP256 then .error swIncorrectP1P2
  else if cmd.p2 ≠ keyRef9A then .error swReferencedDataNotFound
  else if piv.pinVerified = false then .error swSecurityNotSatisfied
  else if cmd.hasLc = false ∨ cmd.lc < 4 then .error swWrongLength
  else
    match templateChallenge cmd.data cmd.lc with
    | none => .error swWrongData
    | some (p, hashLen) => .ok (read (advance cmd.data p) hashLen)

/-- The signature template `7C (2+s) 82 s sig`. -/
def pushSignature (r : ApduResp) (sig : List UInt8) : ApduResp :=
  let r := (apduRespPush r pivDatTag).2
  let r := (apduRespPush r (UInt8.ofNat (2 + sig.length))).2
  let r := (apduRespPush r pivDatResponse).2
  let r := (apduRespPush r (UInt8.ofNat sig.length)).2
  (apduRespAppend r sig).2

/-- `_handle_general_authenticate` -/
def handleGeneralAuthenticate (k : Backend) (amb : Ambient) (card : Card) (cmd : ApduCmd)
    (out : Memory UInt8) (outCap : Nat) : Handled :=
  let r := apduRespInit out outCap
  match requestedChallenge card.piv cmd with
  | .error sw => finish card r sw
  | .ok hash =>
    if devStateIsAuthorized card.dev = false then
      finish { card with dev := devStateRequestAuth card.dev amb.now } r swConditionsNotSatisfied
    else
      let (consumed, dev) := devStateConsumeAuth card.dev
      if consumed = false then finish { card with dev := dev } r swConditionsNotSatisfied
      else
        let dev := devStateBeginProcessing dev
        let sig := cryptoSign k amb.pkSign cmd.p2 cmd.p1 hash 72
        let card := { card with dev := devStateOpComplete dev }
        if sig.length = 0 then { finish card r swUnknown with signed := some hash }
        else { finish card (pushSignature r sig) swOk with signed := some hash }

/-- The answers `piv_process_apdu` writes itself, past the response builder. -/
def bareAnswer (card : Card) (out : Memory UInt8) (sw : Nat) : Handled :=
  { card := card, out := write out 0 (swBytes sw), len := 2, signed := none }

/-- The instructions that need the applet selected. -/
def handleSelected (k : Backend) (amb : Ambient) (card : Card) (cmd : ApduCmd)
    (out : Memory UInt8) (outCap : Nat) : Handled :=
  if cmd.ins = 0x20 then handleVerify card cmd out outCap
  else if cmd.ins = 0xCB then handleGetData k card cmd out outCap
  else if cmd.ins = 0xC0 then handleGetResponse card cmd out outCap
  else if cmd.ins = 0x87 then handleGeneralAuthenticate k amb card cmd out outCap
  else bareAnswer card out swInsNotSupported

/-- `piv_process_apdu` -/
def pivProcessApdu (k : Backend) (amb : Ambient) (card : Card) (apduIn : Memory UInt8)
    (inLen : Nat) (apduOut : Memory UInt8) (outCap : Nat) : Handled :=
  match apduParse apduIn inLen with
  | none => bareAnswer card apduOut swUnknown
  | some cmd =>
    if cmd.cla ≠ 0x00 then bareAnswer card apduOut swClaNotSupported
    else if cmd.ins = 0xA4 then handleSelect card cmd apduOut outCap
    else if card.piv.selected = false then bareAnswer card apduOut swConditionsNotSatisfied
    else handleSelected k amb card cmd apduOut outCap

/-- A clock reading, and the sample signer. -/
def ambientAt (now : Nat) : Ambient := { now := now, pkSign := sampleSigner }

end PivApplet
