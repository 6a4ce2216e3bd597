import Mathlib.Data.Int.Notation

/-!
# The authorization state machine

The static variables and functions of `device_state.c`. Times are microseconds
since boot; the 64-bit counter of the SDK does not wrap within the life of a
device, so they are unbounded here. Each function that reads the clock is given
its own reading.

The second half is the meaning of the state machine: a phase remembers when it
was entered, and every operation of the source carries out the operation of the
same purpose on phases. The stored deadline is then the entry time of the phase
plus the length of its window.
-/

namespace DeviceState

def authWindowMs : Nat := 10000
def waitButtonTimeoutMs : Nat := 30000

/-- `dev_state_t` -/
inductive DevState
  | idle
  | waitingButton
  | authorized
  | processing
  deriving DecidableEq, Repr

/-- The variables `_state`, `_deadline` and `_auth_consumed`. -/
structure Device where
  state : DevState
  deadline : Nat
  authConsumed : Bool
  deriving DecidableEq, Repr

/-- `absolute_time_diff_us`: positive when `stop` lies after `start`. -/
def absoluteTimeDiffUs (start stop : Nat) : Int := (stop : Int) - (start : Int)

/-- `make_timeout_time_ms` -/
def makeTimeoutTimeMs (now ms : Nat) : Nat := now + ms * 1000

/-- The variables as the C runtime initialises them. -/
def atReset : Device := { state := .idle, deadline := 0, authConsumed := false }

/-- `dev_state_init` -/
def devStateInit (d : Device) : Device := { d with state := .idle, authConsumed := false }

/-- `dev_state_tick` -/
def devStateTick (d : Device) (now : Nat) : Device :=
  match d.state with
  | .waitingButton =>
    if absoluteTimeDiffUs now d.deadline ≤ 0 then { d with state := .idle } else d
  | .authorized =>
    if absoluteTimeDiffUs now d.deadline ≤ 0 then { d with authConsumed := true, state := .idle }
    else d
  | _ => d

/-- `dev_state_request_auth` -/
def devStateRequestAuth (d : Device) (now : Nat) : Device :=
  if d.state = .idle then
    { d with state := .waitingButton, deadline := makeTimeoutTimeMs now waitButtonTimeoutMs }
  else d

/-- `dev_state_button_pressed` -/
def devStateButtonPressed (d : Device) (now : Nat) : Device :=
  if d.state = .waitingButton then
    { state := .authorized, deadline := makeTimeoutTimeMs now authWindowMs, authConsumed := false }
  else d

/-- `dev_state_begin_processing` -/
def devStateBeginProcessing (d : Device) : Device :=
  if d.state = .authorized then { d with state := .processing } else d

/-- `dev_state_op_complete` -/
def devStateOpComplete (d : Device) : Device := { d with state := .idle }

/-- `dev_state_consume_auth` -/
def devStateConsumeAuth (d : Device) : Bool × Device :=
  if d.state = .authorized ∧ d.authConsumed = false then (true, { d with authConsumed := true })
  else (false, d)

/-- `dev_state_is_authorized`. The deadline is not consulted. -/
def devStateIsAuthorized (d : Device) : Bool :=
  decide (d.state = .authorized ∧ d.authConsumed = false)

/-- Consuming succeeds exactly when the preceding check does. -/
theorem consume_eq_isAuthorized (d : Device) :
    (devStateConsumeAuth d).1 = devStateIsAuthorized d := by
  simp only [devStateConsumeAuth, devStateIsAuthorized]
  split <;> simp [*]

theorem request_of_busy {d : Device} (h : d.state ≠ .idle) (now : Nat) :
    devStateRequestAuth d now = d := if_neg h

theorem press_of_not_waiting {d : Device} (h : d.state ≠ .waitingButton) (now : Nat) :
    devStateButtonPressed d now = d := if_neg h

/-- The tick ends the wait for a press, and never begins it. -/
theorem waiting_of_tick {d : Device} {now : Nat}
    (h : (devStateTick d now).state = .waitingButton) : d.state = .waitingButton := by
  simp only [devStateTick] at h
  cases hstate : d.state with
  | waitingButton => rfl
  | idle | processing =>
    simp only [hstate] at h
    exact absurd h (by decide)
  | authorized =>
    simp only [hstate] at h
    split at h
    · cases h
    · exact hstate.symm.trans h

/-- The device is not newly authorized: only a press can do that. -/
def Calm (d d' : Device) : Prop := d'.state = .authorized → d.state = .authorized

theorem calm_init (d : Device) : Calm d (devStateInit d) := fun h => by cases h

theorem calm_request (d : Device) (now : Nat) : Calm d (devStateRequestAuth d now) := by
  simp only [Calm, devStateRequestAuth]
  split
  · intro h
    cases h
  · exact id

theorem calm_tick (d : Device) (now : Nat) : Calm d (devStateTick d now) := by
  simp only [Calm, devStateTick]
  cases hstate : d.state with
  | authorized => exact fun _ => rfl
  | idle | processing => exact fun h => hstate.symm.trans h
  | waitingButton =>
    simp only
    split
    · intro h
      cases h
    · exact fun h => hstate.symm.trans h

theorem calm_opComplete (d d' : Device) : Calm d (devStateOpComplete d') := fun h => by cases h

/-- What the machine means: the phase it is in, and since when. -/
inductive Phase
  | idle
  | waiting (since : Nat)
  | authorized (since : Nat)
  deriving DecidableEq, Repr

namespace Phase

def request (now : Nat) : Phase → Phase
  | idle => waiting now
  | p => p

def press (now : Nat) : Phase → Phase
  | waiting _ => authorized now
  | p => p

def expire (now : Nat) : Phase → Phase
  | waiting t => if makeTimeoutTimeMs t waitButtonTimeoutMs ≤ now then idle else waiting t
  | authorized t => if makeTimeoutTimeMs t authWindowMs ≤ now then idle else authorized t
  | p => p

end Phase

/-- The device is in a phase when its variables hold what the phase says. PROCESSING is
in no phase, nor is an authorization that was consumed. -/
def InPhase (d : Device) : Phase → Prop
  | .idle => d.state = .idle
  | .waiting t => d.state = .waitingButton ∧ d.deadline = makeTimeoutTimeMs t waitButtonTimeoutMs
  | .authorized t => d.state = .authorized ∧ d.authConsumed = false ∧
      d.deadline = makeTimeoutTimeMs t authWindowMs

variable {d : Device} {p : Phase}

theorem inPhase_init (d : Device) : InPhase (devStateInit d) .idle := rfl

theorem inPhase_request (h : InPhase d p) (now : Nat) :
    InPhase (devStateRequestAuth d now) (p.request now) := by
  cases p with
  | idle =>
    have hidle : d.state = .idle := h
    simp only [devStateRequestAuth, if_pos hidle]
    exact ⟨rfl, rfl⟩
  | waiting t => simpa [devStateRequestAuth, Phase.request, h.1] using h
  | authorized t => simpa [devStateRequestAuth, Phase.request, h.1] using h

theorem inPhase_press (h : InPhase d p) (now : Nat) :
    InPhase (devStateButtonPressed d now) (p.press now) := by
  cases p with
  | idle =>
    have hidle : d.state = .idle := h
    simpa [devStateButtonPressed, Phase.press, hidle] using h
  | waiting t =>
    simp only [devStateButtonPressed, if_pos h.1]
    exact ⟨rfl, rfl, rfl⟩
  | authorized t => simpa [devStateButtonPressed, Phase.press, h.1] using h

theorem expired_iff (now deadline : Nat) :
    absoluteTimeDiffUs now deadline ≤ 0 ↔ deadline ≤ now := by
  simp only [absoluteTimeDiffUs]
  omega

theorem inPhase_tick (h : InPhase d p) (now : Nat) :
    InPhase (devStateTick d now) (p.expire now) := by
  cases p with
  | idle =>
    have hidle : d.state = .idle := h
    simpa [devStateTick, Phase.expire, hidle] using h
  | waiting t =>
    obtain ⟨hstate, hdeadline⟩ := h
    simp only [devStateTick, hstate, Phase.expire, expired_iff, hdeadline]
    by_cases hdue : makeTimeoutTimeMs t waitButtonTimeoutMs ≤ now
    · rw [if_pos hdue, if_pos hdue]
      rfl
    · rw [if_neg hdue, if_neg hdue]
      exact ⟨hstate, hdeadline⟩
  | authorized t =>
    obtain ⟨hstate, hfresh, hdeadline⟩ := h
    simp only [devStateTick, hstate, Phase.expire, expired_iff, hdeadline]
    by_cases hdue : makeTimeoutTimeMs t authWindowMs ≤ now
    · rw [if_pos hdue, if_pos hdue]
      rfl
    · rw [if_neg hdue, if_neg hdue]
      exact ⟨hstate, hfresh, hdeadline⟩

/-- The check succeeds in an authorized phase and in no other. -/
theorem isAuthorized_iff (h : InPhase d p) :
    devStateIsAuthorized d = true ↔ ∃ t, p = .authorized t := by
  cases p with
  | idle =>
    have hidle : d.state = .idle := h
    simp [devStateIsAuthorized, hidle]
  | waiting t => simp [devStateIsAuthorized, h.1]
  | authorized t => simp [devStateIsAuthorized, h.1, h.2.1]

/-- Check, consume, begin and complete together end the authorization. -/
theorem inPhase_spend (d : Device) :
    InPhase (devStateOpComplete (devStateBeginProcessing (devStateConsumeAuth d).2)) .idle := rfl

end DeviceState
