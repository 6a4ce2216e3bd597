import Ward3n.AuthenticationTemplate
import Ward3n.ChainedResponses
import Ward3n.ShortApdus
import Ward3n.UserButton

/-!
# What the reader and its card are for

The abstract model: a reader with one slot and, in it, a card that keeps two
flags, the rest of an object being fetched and a phase of the authorization.
Commands and objects are lists, there is no buffer, no pointer, no deadline
variable and no word arithmetic. The card is given its objects and its signature
function. An object answered whole leaves the rest of an earlier one as it is.
-/

namespace ReaderSpecification

open MachineWords ApduCodec CryptoBackend DeviceState UserButton PivApplet CcidDriver ShortApdus
  PartedDelivery ChainedResponses AppletEffects AuthenticationTemplate

/-- The card, as its holder knows it. -/
structure Token where
  selected : Bool
  verified : Bool
  rest : List UInt8
  phase : Phase
  deriving DecidableEq

/-- A command answered: the card behind it, the data and the status word, and the hash that
was signed or should have been. -/
structure Answer where
  token : Token
  body : List UInt8
  sw : Nat
  signed : Option (List UInt8)

def Answer.bytes (a : Answer) : List UInt8 := a.body ++ swBytes a.sw

/-- The Le of a command: 256 unless it is given. -/
def wanted (c : ShortCommand) : Nat := c.le.getD 256

/-- The object of a GET DATA: `5C 01 t` or `5C 03 t t t`, with anything behind it. -/
def requestedTag (data : List UInt8) : Option (List UInt8) :=
  match data with
  | 0x5C :: n :: t :: tag =>
    if n = 3 then some ((t :: tag).take 3) else if n = 1 then some [t] else none
  | _ => none

/-- The challenge of `82 00 81 n h`, with anything behind it. -/
def challengeBehind : List UInt8 → Option (List UInt8)
  | 0x82 :: 0x00 :: 0x81 :: n :: rest =>
    if rest.length < n.toNat ∨ n = 0 ∨ n.toNat > 64 then none else some (rest.take n.toNat)
  | _ => none

/-- The challenge of a template: the outer length is skipped. -/
def challengeOf : List UInt8 → Option (List UInt8)
  | 0x7C :: b :: rest =>
    if b < 0x80 then challengeBehind rest
    else if b = 0x81 then challengeBehind (rest.drop 1) else none
  | _ => none

namespace Token

variable (t : Token) (c : ShortCommand)

def refuse (sw : Nat) : Answer := { token := t, body := [], sw := sw, signed := none }

def select : Answer :=
  if c.p1 ≠ 0x04 then t.refuse swIncorrectP1P2
  else if c.data.length < pivAidLen then t.refuse swWrongData
  else if c.data.take pivAidLen ≠ pivAid then t.refuse swFileNotFound
  else { token := { t with selected := true }, body := fci, sw := swOk, signed := none }

def verify : Answer :=
  if c.p1 ≠ 0x00 then t.refuse swIncorrectP1P2
  else if c.p2 ≠ pivPinRefApp then t.refuse swReferencedDataNotFound
  else if c.data = [] then t.refuse 0x63C3
  else if c.data.length ≠ 8 then t.refuse swWrongLength
  else if c.data = expectedPin then { t.refuse swOk with token := { t with verified := true } }
  else { t.refuse swSecurityNotSatisfied with token := { t with verified := false } }

def getData (object : List UInt8 → Option (List UInt8)) : Answer :=
  if c.p1 ≠ 0x3F ∨ c.p2 ≠ 0xFF then t.refuse swIncorrectP1P2
  else
    match requestedTag c.data with
    | none => t.refuse swWrongData
    | some tag =>
      match object tag with
      | none => t.refuse swReferencedDataNotFound
      | some obj =>
        if obj.length ≤ wanted c then { t.refuse swOk with body := obj }
        else
          let part := nextPart chainMarks obj (wanted c)
          { token := { t with rest := obj.drop (wanted c) }, body := part.body, sw := part.mark,
            signed := none }

def getResponse : Answer :=
  let part := nextPart chainMarks t.rest (wanted c)
  { token := { t with rest := t.rest.drop (wanted c) }, body := part.body, sw := part.mark,
    signed := none }

def authenticate (sign : List UInt8 → List UInt8) (now : Nat) : Answer :=
  if c.p1 ≠ algEcdsaP256 then t.refuse swIncorrectP1P2
  else if c.p2 ≠ keyRef9A then t.refuse swReferencedDataNotFound
  else if t.verified = false then t.refuse swSecurityNotSatisfied
  else if c.data.length < 4 then t.refuse swWrongLength
  else
    match challengeOf c.data with
    | none => t.refuse swWrongData
    | some hash =>
      match t.phase with
      | .authorized _ =>
        let sig := sign hash
        { token := { t with phase := .idle }
          body := if sig = [] then [] else signatureTemplate sig
          sw := if sig = [] then swUnknown else swOk
          signed := some hash }
      | _ =>
        { t.refuse swConditionsNotSatisfied with token := { t with phase := t.phase.request now } }

def answer (object : List UInt8 → Option (List UInt8)) (sign : List UInt8 → List UInt8)
    (now : Nat) : Answer :=
  if c.cla ≠ 0x00 then t.refuse swClaNotSupported
  else if c.ins = 0xA4 then t.select c
  else if t.selected = false then t.refuse swConditionsNotSatisfied
  else if c.ins = 0x20 then t.verify c
  else if c.ins = 0xCB then t.getData c object
  else if c.ins = 0xC0 then t.getResponse c
  else if c.ins = 0x87 then t.authenticate c sign now
  else t.refuse swInsNotSupported

/-- The card behind a power-on. The authorization is not part of the applet. -/
def reset : Token := { t with selected := false, verified := false, rest := [] }

end Token

/-- The messages the reader knows. -/
def knownTypes : List UInt8 :=
  [pcToRdrIccPowerOn, pcToRdrIccPowerOff, pcToRdrGetSlotStatus, pcToRdrXfrBlock, pcToRdrAbort,
    pcToRdrSetParameters, pcToRdrSetDataRateAndClock]

/-- What a message asks of the reader. -/
inductive Request
  | iccPowerOn
  | iccPowerOff
  | getSlotStatus
  | abort
  | xfrBlock (c : ShortCommand)
  | setParameters (protocolNum : UInt8) (parameters : List UInt8) (fits : parameters.length ≤ 502)
  | setDataRateAndClock (rates : List UInt8) (fits : rates.length ≤ 502)
  | other (messageType : UInt8) (payload : List UInt8) (fits : payload.length ≤ 502)
      (unknown : messageType ∉ knownTypes)

def Request.messageType : Request → UInt8
  | .iccPowerOn => pcToRdrIccPowerOn
  | .iccPowerOff => pcToRdrIccPowerOff
  | .getSlotStatus => pcToRdrGetSlotStatus
  | .abort => pcToRdrAbort
  | .xfrBlock _ => pcToRdrXfrBlock
  | .setParameters .. => pcToRdrSetParameters
  | .setDataRateAndClock .. => pcToRdrSetDataRateAndClock
  | .other messageType .. => messageType

def Request.payload : Request → List UInt8
  | .xfrBlock c => c.bytes
  | .setParameters _ parameters _ => parameters
  | .setDataRateAndClock rates _ => rates
  | .other _ payload .. => payload
  | _ => []

/-- The last byte of the header, which only SetParameters gives a meaning. -/
def Request.specific2 : Request → UInt8
  | .setParameters protocolNum .. => protocolNum
  | _ => 0

structure Message where
  seq : UInt8
  request : Request

/-- The message as it is sent. -/
def Message.bytes (m : Message) : List UInt8 :=
  [m.request.messageType] ++ toBytes 4 m.request.payload.length ++
    [0, m.seq, 0, 0, m.request.specific2] ++ m.request.payload

/-- The reader: its power switch, the button beside it, and the card. -/
structure Reader where
  powered : Bool
  button : Button
  token : Token

def Reader.atBoot : Reader :=
  { powered := false, button := UserButton.atReset,
    token := { selected := false, verified := false, rest := [], phase := .idle } }

/-- What the host and the key see of the reader. -/
inductive Sight
  | response (bytes : List UInt8)
  | signCall (now : Nat) (hash : List UInt8)
  deriving DecidableEq

/-- The clock rate and the data rate of a reader that was told none. -/
def defaultRates : List UInt8 := toBytes 4 0x00000DFC ++ toBytes 4 0x000025CD

namespace Reader

variable (r : Reader) (seq : UInt8)

def slotStatus (cmdStatus : UInt8) : List UInt8 :=
  headerBytes rdrToPcSlotStatus 0 seq (cmdStatus ||| iccStatus r.powered) 0 0

/-- A command reaches the card only while the slot is powered. -/
def xfrBlock (object : List UInt8 → Option (List UInt8)) (sign : List UInt8 → List UInt8)
    (now : Nat) (c : ShortCommand) : Reader × List Sight :=
  if r.powered = false then
    (r, [.response (headerBytes rdrToPcDataBlock 0 seq (cmdFailed ||| iccInactive) 0x01 0)])
  else
    let a := r.token.answer c object sign now
    ({ r with token := a.token }, a.signed.toList.map (Sight.signCall now) ++
      [.response (headerBytes rdrToPcDataBlock a.bytes.length seq (cmdOk ||| iccActive) 0 0 ++
        a.bytes)])

def receive (object : List UInt8 → Option (List UInt8)) (sign : List UInt8 → List UInt8)
    (now : Nat) (m : Message) : Reader × List Sight :=
  match m.request with
  | .iccPowerOn =>
    ({ r with powered := true, token := r.token.reset },
      [.response (headerBytes rdrToPcDataBlock atr.length m.seq (cmdOk ||| iccActive) 0 0 ++ atr)])
  | .iccPowerOff =>
    ({ r with powered := false },
      [.response (headerBytes rdrToPcSlotStatus 0 m.seq (cmdOk ||| iccInactive) 0 0)])
  | .getSlotStatus | .abort => (r, [.response (r.slotStatus m.seq cmdOk)])
  | .xfrBlock c => r.xfrBlock m.seq object sign now c
  | .setParameters protocolNum parameters _ =>
    (r, [.response (headerBytes rdrToPcParameters parameters.length m.seq (cmdOk ||| iccActive) 0
      protocolNum ++ parameters)])
  | .setDataRateAndClock rates _ =>
    (r, [.response (headerBytes rdrToPcDataRateAndClock 8 m.seq (cmdOk ||| iccActive) 0 0 ++
      if 8 ≤ rates.length then rates.take 8 else defaultRates)])
  | .other .. => (r, [.response (r.slotStatus m.seq cmdFailed)])

end Reader

/-- What happens to the reader: a message, with the time and the signature function it finds,
and what else the world does. -/
inductive Occurrence
  | message (m : Message) (now : Nat) (sign : List UInt8 → List UInt8)
  | busReset
  | unplugged
  | edge (gpio now : Nat)
  | poll (sample : Sample)
  | tick (now : Nat)

def Reader.step (object : List UInt8 → Option (List UInt8)) (r : Reader) :
    Occurrence → Reader × List Sight
  | .message m now sign => r.receive object sign now m
  | .busReset => ({ r with powered := false }, [])
  | .unplugged => ({ r with token := { r.token with phase := .idle } }, [])
  | .edge gpio now => ({ r with button := gpioIrq r.button gpio now }, [])
  | .poll sample =>
    ({ r with
        button := (buttonWasPressed r.button DeviceState.atReset sample).2.1
        token := { r.token with
          phase :=
            if Confirms r.button sample then r.token.phase.press sample.stamp
            else r.token.phase } }, [])
  | .tick now => ({ r with token := { r.token with phase := r.token.phase.expire now } }, [])

end ReaderSpecification
