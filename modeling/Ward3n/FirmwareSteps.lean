import Ward3n.Firmware
import Ward3n.AppletEffects

/-!
# What one step of the firmware does

The step function seen from the card, the power switch and the button: the
buffers, the pending response and the IN endpoint are left out. Invariants over
whole runs go through the cases given here, and never open the driver or an APDU
handler again.
-/

namespace FirmwareSteps

open CellMemory ApduCodec CryptoBackend DeviceState UserButton PivApplet CcidDriver Firmware
  AppletEffects

/-- The receive buffer once a transfer has completed. -/
def received (s : State) (bytes : List UInt8) : Memory UInt8 := write s.ccid.rxBuf 0 bytes

/-- The driver once a transfer has completed, before the message is looked at. -/
def receive (s : State) (bytes : List UInt8) : Ccid := { s.ccid with rxBuf := received s bytes }

/-- A completed transfer carries a message that hands an APDU to the applet. -/
def Delivers (s : State) (bytes : List UInt8) : Prop :=
  ccidHeaderLen ≤ bytes.length ∧ Forwards s.ccid (received s bytes) bytes.length

instance (s : State) (bytes : List UInt8) : Decidable (Delivers s bytes) := by
  unfold Delivers
  infer_instance

/-- Observations that concern the endpoint only. -/
def Outward (o : Observation) : Prop :=
  (∃ bytes, o = .response bytes) ∨ ∃ bytes, o = .transmitted bytes

def signObs (now : Nat) (signed : Option (List UInt8)) : List Observation :=
  signed.toList.map fun hash => .signCall now hash

/-- The cases of a step. -/
inductive StepEffect (k : Backend) (s : State) : Event → State → List Observation → Prop
  | quiet {e : Event} {s' : State} {obs : List Observation}
      (hmessage : ∀ bytes amb, e = .bulkOut bytes amb → ¬ Delivers s bytes)
      (hpoll : ∀ sample, e ≠ .poll sample)
      (hpowered : s'.ccid.iccPowered = s.ccid.iccPowered) (hcard : s'.card = s.card)
      (hbutton : s'.button = s.button) (hobs : ∀ o ∈ obs, Outward o) : StepEffect k s e s' obs
  | powerOn {bytes response : List UInt8} {amb : Ambient} {s' : State}
      (hmessage : ¬ Delivers s bytes) (hpowered : s'.ccid.iccPowered = true)
      (hcard : s'.card = { s.card with piv := pivInit s.card.piv })
      (hbutton : s'.button = s.button) :
      StepEffect k s (.bulkOut bytes amb) s' [.powerOn, .response response]
  | powerOff {bytes response : List UInt8} {amb : Ambient} {s' : State}
      (hmessage : ¬ Delivers s bytes) (hpowered : s'.ccid.iccPowered = false)
      (hcard : s'.card = s.card) (hbutton : s'.button = s.button) :
      StepEffect k s (.bulkOut bytes amb) s' [.powerOff, .response response]
  | apdu {bytes response : List UInt8} {amb : Ambient} {s' : State} {r : Reply}
      (hmessage : Delivers s bytes)
      (heffect : Effect k amb s.card (forwardedCmd (received s bytes)) r)
      (hpowered : s'.ccid.iccPowered = s.ccid.iccPowered) (hcard : s'.card = r.card)
      (hbutton : s'.button = s.button) :
      StepEffect k s (.bulkOut bytes amb) s' (signObs amb.now r.signed ++
        movedObs s.card.dev r.card.dev amb.now ++
        [.exchange ⟨forwardedCmd (received s bytes), r.bytes⟩, .response response])
  | reset {s' : State} (hpowered : s'.ccid.iccPowered = false) (hcard : s'.card = s.card)
      (hbutton : s'.button = s.button) : StepEffect k s .busReset s' [.busReset]
  | umount {now : Nat} {s' : State} (hpowered : s'.ccid.iccPowered = s.ccid.iccPowered)
      (hcard : s'.card = { s.card with dev := devStateInit s.card.dev })
      (hbutton : s'.button = s.button) :
      StepEffect k s (.umount now) s' (movedObs s.card.dev (devStateInit s.card.dev) now)
  | edge {gpio now : Nat} {s' : State} (hpowered : s'.ccid.iccPowered = s.ccid.iccPowered)
      (hcard : s'.card = s.card) (hbutton : s'.button = UserButton.gpioIrq s.button gpio now) :
      StepEffect k s (.gpioIrq gpio now) s' (if gpio = buttonPin then [.fallingEdge now] else [])
  | press {sample : Sample} {s' : State} (hconfirms : Confirms s.button sample)
      (hpowered : s'.ccid.iccPowered = s.ccid.iccPowered)
      (hcard : s'.card = { s.card with dev := devStateButtonPressed s.card.dev sample.stamp })
      (hbutton : s'.button.edgeSeen = false) :
      StepEffect k s (.poll sample) s' (.pressConfirmed sample.stamp ::
        movedObs s.card.dev (devStateButtonPressed s.card.dev sample.stamp) sample.stamp)
  | noPress {sample : Sample} {s' : State} (hconfirms : ¬ Confirms s.button sample)
      (hpowered : s'.ccid.iccPowered = s.ccid.iccPowered) (hcard : s'.card = s.card)
      (hbutton : s'.button.edgeSeen = true → s.button.edgeSeen = true) :
      StepEffect k s (.poll sample) s' []
  | tick {now : Nat} {s' : State} (hpowered : s'.ccid.iccPowered = s.ccid.iccPowered)
      (hcard : s'.card = { s.card with dev := devStateTick s.card.dev now })
      (hbutton : s'.button = s.button) :
      StepEffect k s (.tick now) s' (movedObs s.card.dev (devStateTick s.card.dev now) now)

variable (k : Backend) (s : State)

@[simp] theorem movedObs_self (d : Device) (now : Nat) : movedObs d d now = [] := by
  simp [movedObs]

theorem movedObs_press {d : Device} (h : d.state = .waitingButton) (now : Nat) :
    movedObs d (devStateButtonPressed d now) now = [.moved .waitingButton .authorized now] := by
  simp [movedObs, devStateButtonPressed, h]

theorem ccidTask_powered (c : Ccid) (claimed : Bool) :
    (CcidDriver.ccidTask c claimed).1.iccPowered = c.iccPowered := by
  simp only [CcidDriver.ccidTask]
  repeat' split
  all_goals rfl

/-- What the driver makes of a whole message. -/
def processed (bytes : List UInt8) (amb : Ambient) : Processed :=
  processMessage k amb (receive s bytes) s.card (received s bytes) bytes.length

theorem step_message {bytes : List UInt8} (amb : Ambient) (hlen : ccidHeaderLen ≤ bytes.length) :
    step k s (.bulkOut bytes amb) =
      ({ s with ccid := (processed k s bytes amb).ccid, card := (processed k s bytes amb).card },
        messageObs s (processed k s bytes amb) amb.now) := by
  have hxfer : ccidXferOut k amb s.ccid s.card bytes = processed k s bytes amb := if_pos hlen
  simp only [step, ge_iff_le, if_pos hlen, hxfer]

/-- A transfer shorter than a header only fills the buffer. -/
theorem step_fragment {bytes : List UInt8} (amb : Ambient)
    (hshort : ¬ ccidHeaderLen ≤ bytes.length) :
    step k s (.bulkOut bytes amb) = ({ s with ccid := receive s bytes }, []) := by
  have hxfer : ccidXferOut k amb s.ccid s.card bytes =
      { ccid := receive s bytes, card := s.card, exchange := none, signed := none } := if_neg hshort
  simp only [step, ge_iff_le, if_neg hshort, hxfer]

/-- Only an XfrBlock carries an APDU. -/
theorem not_delivers_of_type {bytes : List UInt8} {messageType : UInt8}
    (htype : (readHeader (received s bytes)).messageType = messageType)
    (hother : messageType ≠ pcToRdrXfrBlock) : ¬ Delivers s bytes := by
  intro h
  exact hother (htype.symm.trans h.2.1)

theorem undelivered {bytes : List UInt8} (amb : Ambient) (h : ¬ Delivers s bytes) :
    ∀ bytes' amb', Event.bulkOut bytes amb = .bulkOut bytes' amb' → ¬ Delivers s bytes' := by
  rintro bytes' amb' heq
  cases heq
  exact h

@[simp] theorem powerObs_on : powerObs pcToRdrIccPowerOn = [.powerOn] := rfl

@[simp] theorem powerObs_off : powerObs pcToRdrIccPowerOff = [.powerOff] := rfl

@[simp] theorem powerObs_xfrBlock : powerObs pcToRdrXfrBlock = [] := rfl

theorem bulkOut_effect (bytes : List UInt8) (amb : Ambient) :
    StepEffect k s (.bulkOut bytes amb) (step k s (.bulkOut bytes amb)).1
      (step k s (.bulkOut bytes amb)).2 := by
  by_cases hlen : ccidHeaderLen ≤ bytes.length
  swap
  · have hmessage : ¬ Delivers s bytes := fun h => hlen h.1
    rw [step_fragment k s amb hlen]
    exact .quiet (undelivered s amb hmessage) (by simp) rfl rfl rfl (by simp)
  have hrx : (receive s bytes).rxBuf = received s bytes := rfl
  simp only [step_message k s amb hlen, processed, messageObs]
  rcases processMessage_cases k amb (receive s bytes) s.card (received s bytes) bytes.length hlen
    with ⟨htype, response, heq⟩ | ⟨htype, response, heq⟩ | ⟨hfwd, response, heq⟩ |
      ⟨hfwd, hon, hoff, response, heq⟩
  · have hmessage : ¬ Delivers s bytes := not_delivers_of_type s htype (by decide)
    simp only [heq, queue_rxBuf, hrx, htype, powerObs_on, movedObs_self]
    exact .powerOn hmessage rfl rfl rfl
  · have hmessage : ¬ Delivers s bytes := not_delivers_of_type s htype (by decide)
    simp only [heq, queue_rxBuf, hrx, htype, powerObs_off, movedObs_self]
    exact .powerOff hmessage rfl rfl rfl
  · obtain ⟨r, heffect, hshows⟩ := pivProcessApdu_effect k amb s.card
      (advance (received s bytes) ccidHeaderLen) (readHeader (received s bytes)).dwLength
      (show 258 ≤ ccidBufSize - ccidHeaderLen by decide)
    have hshows : Shows (forward k amb (receive s bytes) s.card (received s bytes)) r := hshows _
    simp only [heq, queue_rxBuf, hshows.card, hshows.answer, hshows.signed]
    rw [hrx, hfwd.1, powerObs_xfrBlock]
    have happly : StepEffect k s (.bulkOut bytes amb)
        { s with ccid := queue (receive s bytes) response, card := r.card }
        (signObs amb.now r.signed ++ movedObs s.card.dev r.card.dev amb.now ++
          [.exchange ⟨forwardedCmd (received s bytes), r.bytes⟩,
            .response (queue (receive s bytes) response).response]) :=
      .apdu ⟨hlen, hfwd⟩ heffect rfl rfl rfl
    simpa only [signObs, Option.toList_some, List.map_cons, List.map_nil, List.nil_append,
      List.append_assoc, List.cons_append] using happly
  · have hobs : powerObs (readHeader (received s bytes)).messageType = [] := by
      simp [powerObs, hon, hoff]
    have hmessage : ¬ Delivers s bytes := fun h => hfwd h.2
    simp only [heq, queue_rxBuf, hrx, hobs, movedObs_self]
    exact .quiet (undelivered s amb hmessage) (by simp) rfl rfl rfl (by simp [Outward])

theorem poll_effect (sample : Sample) :
    StepEffect k s (.poll sample) (step k s (.poll sample)).1 (step k s (.poll sample)).2 := by
  simp only [step]
  rcases poll_cases s.button s.card.dev sample with ⟨hconfirms, heq⟩ | ⟨hconfirms, b', heq, hedge⟩
  · rw [heq]
    exact .press hconfirms rfl rfl rfl
  · rw [heq]
    simp only [movedObs_self]
    exact .noPress hconfirms rfl rfl hedge

/-- Every step is one of the cases. -/
theorem step_effect (e : Event) : StepEffect k s e (step k s e).1 (step k s e).2 := by
  cases e with
  | bulkOut bytes amb => exact bulkOut_effect k s bytes amb
  | inRead n =>
    simp only [step]
    cases s.inTransfer with
    | none => exact .quiet (by simp) (by simp) rfl rfl rfl (by simp)
    | some t => exact .quiet (by simp) (by simp) rfl rfl rfl (by simp)
  | inComplete =>
    simp only [step]
    cases s.inTransfer with
    | none => exact .quiet (by simp) (by simp) rfl rfl rfl (by simp)
    | some t =>
      by_cases hall : t.sent.length = t.total
      · simp only [if_pos hall]
        exact .quiet (by simp) (by simp) rfl rfl rfl (by simp [Outward])
      · simp only [if_neg hall]
        exact .quiet (by simp) (by simp) rfl rfl rfl (by simp)
  | ccidTask available =>
    have hpowered := ccidTask_powered s.ccid (available && s.inTransfer.isNone)
    simp only [step]
    split
    · exact .quiet (by simp) (by simp) hpowered rfl rfl (by simp)
    · exact .quiet (by simp) (by simp) hpowered rfl rfl (by simp)
  | busReset => exact .reset rfl rfl rfl
  | umount now => exact .umount rfl rfl rfl
  | gpioIrq gpio now => exact .edge rfl rfl rfl
  | poll sample => exact poll_effect k s sample
  | tick now => exact .tick rfl rfl rfl

/-- The interrupt and the poll. -/
def touchesButton : Event → Bool
  | .gpioIrq _ _ | .poll _ => true
  | _ => false

/-- Only these two touch the button. -/
theorem button_untouched {e : Event} (hother : touchesButton e = false) :
    (step k s e).1.button = s.button := by
  cases e with
  | gpioIrq | poll => cases hother
  | bulkOut | busReset | umount | tick => rfl
  | inRead | inComplete | ccidTask =>
    simp only [step]
    repeat' split
    all_goals rfl

theorem touchesButton_cases (e : Event) : (∃ gpio now, e = .gpioIrq gpio now) ∨
    (∃ sample, e = .poll sample) ∨ touchesButton e = false := by
  cases e with
  | gpioIrq gpio now => exact Or.inl ⟨gpio, now, rfl⟩
  | poll sample => exact Or.inr (Or.inl ⟨sample, rfl⟩)
  | bulkOut | inRead | inComplete | ccidTask | busReset | umount | tick =>
    exact Or.inr (Or.inr rfl)

theorem mem_signObs {now : Nat} {signed : Option (List UInt8)} {o : Observation} :
    o ∈ signObs now signed ↔ ∃ hash, signed = some hash ∧ o = .signCall now hash := by
  cases signed with
  | none => simp [signObs]
  | some hash => simp [signObs]

theorem mem_movedObs {d d' : Device} {now : Nat} {o : Observation} (h : o ∈ movedObs d d' now) :
    d.state ≠ d'.state ∧ o = .moved d.state d'.state now := by
  simp only [movedObs] at h
  split at h
  · cases h
  · rename_i hne
    exact ⟨hne, List.mem_singleton.mp h⟩

/-- A signature is asked for with this hash, and the device is authorized. -/
def Signs (s : State) (bytes hash : List UInt8) : Prop :=
  Delivers s bytes ∧ AsksToSign s.card (forwardedCmd (received s bytes)) hash ∧
    devStateIsAuthorized s.card.dev = true

theorem signCall_mem_iff (e : Event) (now : Nat) (hash : List UInt8) :
    .signCall now hash ∈ (step k s e).2 ↔
      ∃ bytes amb, e = .bulkOut bytes amb ∧ now = amb.now ∧ Signs s bytes hash := by
  have heffect := step_effect k s e
  generalize (step k s e).1 = s' at heffect
  generalize (step k s e).2 = obs at heffect
  constructor
  · intro hmem
    cases heffect with
    | @apdu bytes response amb _ r hmessage heffect =>
      simp only [List.mem_append, List.mem_cons, List.not_mem_nil, or_false, mem_signObs,
        reduceCtorEq] at hmem
      rcases hmem with ⟨hash', hsigned, heq⟩ | hmoved
      · cases heq
        exact ⟨bytes, amb, rfl, rfl, hmessage, (heffect.signed_iff hash).mp hsigned⟩
      · cases (mem_movedObs hmoved).2
    | quiet _ _ _ _ _ hobs =>
      rcases hobs _ hmem with ⟨_, heq⟩ | ⟨_, heq⟩ <;> cases heq
    | edge =>
      split at hmem <;> simp at hmem
    | powerOn | powerOff | reset | noPress => simp at hmem
    | umount | tick => cases (mem_movedObs hmem).2
    | press =>
      rcases List.mem_cons.mp hmem with heq | hmoved
      · cases heq
      · cases (mem_movedObs hmoved).2
  · rintro ⟨bytes, amb, rfl, rfl, hmessage, hsigns⟩
    cases heffect with
    | quiet hother => exact absurd hmessage (hother bytes amb rfl)
    | powerOn hother | powerOff hother => exact absurd hmessage hother
    | apdu _ heffect =>
      rw [(heffect.signed_iff hash).mpr hsigns]
      simp [signObs]

end FirmwareSteps
