import Ward3n.CcidDriver
import Ward3n.UserButton
import Ward3n.TracedRuns

/-!
# The firmware as a machine

All the state of the running device, and the events that move it: completed bulk
transfers, the calls of the main loop of `main.c`, bus resets and unmounts, and
button interrupts. A step also reports what happened while it ran, in the order
in which it happened; no step reads that report.

The bulk IN endpoint is the part of TinyUSB the driver relies on: a transfer can
be claimed only when none is in progress, and a transfer in progress takes its
bytes from the transmit buffer piece by piece until it completes.
-/

namespace Firmware

open CellMemory CryptoBackend PivApplet CcidDriver DeviceState UserButton TracedRuns

/-- A bulk IN transfer in progress: what was taken from the buffer so far, and its length. -/
structure InTransfer where
  sent : List UInt8
  total : Nat

structure State where
  ccid : Ccid
  card : Card
  button : Button
  inTransfer : Option InTransfer

inductive Event
  /-- a bulk OUT transfer completes with these bytes, and its callback runs -/
  | bulkOut (bytes : List UInt8) (amb : Ambient)
  /-- the IN transfer in progress takes up to `n` more bytes from the transmit buffer -/
  | inRead (n : Nat)
  /-- the IN transfer in progress completes, if it has taken all its bytes -/
  | inComplete
  /-- `ccid_task`; the endpoint can be claimed if it is idle and this says so -/
  | ccidTask (available : Bool)
  | busReset
  | umount (now : Nat)
  | gpioIrq (gpio now : Nat)
  | poll (s : Sample)
  | tick (now : Nat)

inductive Observation
  | powerOn
  | powerOff
  | busReset
  /-- `crypto_sign` is called with this hash -/
  | signCall (now : Nat) (hash : List UInt8)
  /-- `_state` is left for another state -/
  | moved (src dst : DevState) (now : Nat)
  /-- an APDU was answered -/
  | exchange (x : Exchange)
  /-- `_process_message` has a response ready -/
  | response (bytes : List UInt8)
  /-- a bulk IN transfer completed with these bytes -/
  | transmitted (bytes : List UInt8)
  /-- a falling edge on the button pin -/
  | fallingEdge (now : Nat)
  /-- `button_was_pressed` confirms a press and will return true -/
  | pressConfirmed (now : Nat)

/-- The state in which the main loop is entered, after `dev_state_init`, `piv_init`,
`button_init` and `tusb_init`. -/
def boot : State :=
  { ccid := ccidInit
      { iccPowered := false, rxBuf := fun _ => 0, txBuf := fun _ => 0, responsePending := false,
        responseLen := 0 }
    card := { piv := pivInit pivAtReset, dev := devStateInit DeviceState.atReset }
    button := UserButton.atReset
    inTransfer := none }

def movedObs (d d' : Device) (now : Nat) : List Observation :=
  if d.state = d'.state then [] else [.moved d.state d'.state now]

def powerObs (messageType : UInt8) : List Observation :=
  if messageType = pcToRdrIccPowerOn then [.powerOn]
  else if messageType = pcToRdrIccPowerOff then [.powerOff]
  else []

/-- What is observed while a received message is processed. -/
def messageObs (s : State) (p : Processed) (now : Nat) : List Observation :=
  powerObs (readHeader p.ccid.rxBuf).messageType ++
    p.signed.toList.map (fun hash => .signCall now hash) ++
    movedObs s.card.dev p.card.dev now ++
    p.exchange.toList.map .exchange ++ [.response p.ccid.response]

def step (k : Backend) (s : State) : Event → State × List Observation
  | .bulkOut bytes amb =>
    let p := ccidXferOut k amb s.ccid s.card bytes
    ({ s with ccid := p.ccid, card := p.card },
      if bytes.length ≥ ccidHeaderLen then messageObs s p amb.now else [])
  | .inRead n =>
    match s.inTransfer with
    | none => (s, [])
    | some t =>
      let taken := read (advance s.ccid.txBuf t.sent.length) (min n (t.total - t.sent.length))
      ({ s with inTransfer := some { t with sent := t.sent ++ taken } }, [])
  | .inComplete =>
    match s.inTransfer with
    | none => (s, [])
    | some t =>
      if t.sent.length = t.total then ({ s with inTransfer := none }, [.transmitted t.sent])
      else (s, [])
  | .ccidTask available =>
    let (ccid, started) := CcidDriver.ccidTask s.ccid (available && s.inTransfer.isNone)
    match started with
    | none => ({ s with ccid := ccid }, [])
    | some total => ({ s with ccid := ccid, inTransfer := some { sent := [], total := total } }, [])
  | .busReset => ({ s with ccid := ccidReset s.ccid, inTransfer := none }, [.busReset])
  | .umount now =>
    let dev := devStateInit s.card.dev
    ({ s with card := { s.card with dev := dev } }, movedObs s.card.dev dev now)
  | .gpioIrq gpio now =>
    ({ s with button := UserButton.gpioIrq s.button gpio now },
      if gpio = buttonPin then [.fallingEdge now] else [])
  | .poll sample =>
    let (pressed, button, dev) := buttonWasPressed s.button s.card.dev sample
    ({ s with button := button, card := { s.card with dev := dev } },
      (if pressed then [.pressConfirmed sample.stamp] else []) ++
        movedObs s.card.dev dev sample.stamp)
  | .tick now =>
    let dev := devStateTick s.card.dev now
    ({ s with card := { s.card with dev := dev } }, movedObs s.card.dev dev now)

/-- The state after a run from boot. -/
def run (k : Backend) (es : List Event) : State := exec (step k) boot es

/-- What was observed along a run from boot. -/
def history (k : Backend) (es : List Event) : List Observation := trace (step k) boot es

/-- The clock readings made by an event, in order. -/
def Event.readings : Event → List Nat
  | .bulkOut _ amb => [amb.now]
  | .umount now => [now]
  | .gpioIrq _ now => [now]
  | .poll s => [s.now, s.stamp]
  | .tick now => [now]
  | _ => []

/-- The clock never runs backwards along a run. -/
def ClockRuns (es : List Event) : Prop := (es.flatMap Event.readings).Pairwise (· ≤ ·)

instance (es : List Event) : Decidable (ClockRuns es) := by
  unfold ClockRuns
  infer_instance

/-- Where the main loop stands: which of its calls comes next. -/
inductive LoopPoint
  | tudTask
  | button
  | tick
  deriving DecidableEq

/-- The main loop: any number of USB events inside `tud_task`, then `ccid_task`, one button
poll and one tick. Interrupts may arrive anywhere; the IN endpoint works on its own. -/
def loopNext : LoopPoint → Event → Option LoopPoint
  | at_, .gpioIrq _ _ => some at_
  | at_, .inRead _ => some at_
  | .tudTask, .bulkOut _ _ => some .tudTask
  | .tudTask, .inComplete => some .tudTask
  | .tudTask, .busReset => some .tudTask
  | .tudTask, .umount _ => some .tudTask
  | .tudTask, .ccidTask _ => some .button
  | .button, .poll _ => some .tick
  | .tick, .tick _ => some .tudTask
  | _, _ => none

/-- The events come in an order the main loop can produce. -/
def FollowsLoop (es : List Event) : Prop := (es.foldlM loopNext .tudTask).isSome = true

instance (es : List Event) : Decidable (FollowsLoop es) := by
  unfold FollowsLoop
  infer_instance

theorem run_append (k : Backend) (es fs : List Event) :
    run k (es ++ fs) = exec (step k) (run k es) fs :=
  exec_append boot es fs

theorem history_append (k : Backend) (es fs : List Event) :
    history k (es ++ fs) = history k es ++ trace (step k) (run k es) fs :=
  trace_append boot es fs

end Firmware
