import Ward3n.DeviceState

/-!
# The user-presence button

The edge interrupt and the debounced poll of `button.c`. The interrupt touches
only the edge flag and its time, and does so only while the flag is clear, so an
interrupt that arrives inside a poll has the effect of one that arrives just
before or just after it: both functions are atomic steps here.
-/

namespace UserButton

open DeviceState

def buttonPin : Nat := 9
def buttonDebounceMs : Nat := 30

/-- The variables `_edge_seen`, `_press_confirmed` and `_edge_time`. -/
structure Button where
  edgeSeen : Bool
  pressConfirmed : Bool
  edgeTime : Nat
  deriving DecidableEq, Repr

def atReset : Button := { edgeSeen := false, pressConfirmed := false, edgeTime := 0 }

/-- `_gpio_irq` -/
def gpioIrq (b : Button) (gpio now : Nat) : Button :=
  if gpio = buttonPin ∧ b.edgeSeen = false then { b with edgeSeen := true, edgeTime := now } else b

/-- What one poll reads from the hardware, in order: the clock, the pin (low while the
button is held), and the clock again when the press is passed on. -/
structure Sample where
  now : Nat
  pinHigh : Bool
  stamp : Nat
  deriving DecidableEq, Repr

/-- The milliseconds since the recorded edge. The C division truncates. -/
def elapsedMs (b : Button) (s : Sample) : Int :=
  (absoluteTimeDiffUs b.edgeTime s.now).tdiv 1000

/-- `button_was_pressed` -/
def buttonWasPressed (b : Button) (d : Device) (s : Sample) : Bool × Button × Device :=
  if b.edgeSeen = false then (false, b, d)
  else if elapsedMs b s < buttonDebounceMs then (false, b, d)
  else
    let b := { b with edgeSeen := false }
    if s.pinHigh = false then
      (true, { b with pressConfirmed := true }, devStateButtonPressed d s.stamp)
    else (false, b, d)

/-- The window in microseconds: the truncation loses nothing. -/
theorem elapsedMs_lt_iff (b : Button) (s : Sample) :
    elapsedMs b s < buttonDebounceMs ↔ s.now < b.edgeTime + 30000 := by
  simp only [elapsedMs, absoluteTimeDiffUs, buttonDebounceMs]
  have hsign : Int.sign 1000 = 1 := rfl
  rw [Int.tdiv_eq_ediv]
  split <;> omega

theorem poll_clear {b : Button} (h : b.edgeSeen = false) (d : Device) (s : Sample) :
    buttonWasPressed b d s = (false, b, d) := if_pos h

/-- Within the debounce time a poll does nothing. -/
theorem poll_young {b : Button} (d : Device) {s : Sample} (h : s.now < b.edgeTime + 30000) :
    buttonWasPressed b d s = (false, b, d) := by
  have hyoung := (elapsedMs_lt_iff b s).mpr h
  simp only [buttonWasPressed, if_pos hyoung, ite_self]

/-- After it a poll clears the edge, and answers with the level of the pin. -/
theorem poll_old {b : Button} (d : Device) {s : Sample} (hseen : b.edgeSeen = true)
    (hold : b.edgeTime + 30000 ≤ s.now) : (buttonWasPressed b d s).1 = !s.pinHigh ∧
      (buttonWasPressed b d s).2.1.edgeSeen = false := by
  have hyoung : ¬ elapsedMs b s < buttonDebounceMs := by
    rw [elapsedMs_lt_iff]
    omega
  simp only [buttonWasPressed, hseen, if_neg hyoung]
  cases s.pinHigh <;> exact ⟨rfl, rfl⟩

/-- The answer and the button do not depend on the device. -/
theorem poll_device (b : Button) (d d' : Device) (s : Sample) :
    (buttonWasPressed b d s).1 = (buttonWasPressed b d' s).1 ∧
      (buttonWasPressed b d s).2.1 = (buttonWasPressed b d' s).2.1 := by
  simp only [buttonWasPressed]
  repeat' split
  all_goals exact ⟨rfl, rfl⟩

/-- The poll confirms a press: an edge is recorded, it is old enough, and the pin is low. -/
def Confirms (b : Button) (s : Sample) : Prop :=
  b.edgeSeen = true ∧ ¬ elapsedMs b s < buttonDebounceMs ∧ s.pinHigh = false

instance (b : Button) (s : Sample) : Decidable (Confirms b s) := by
  unfold Confirms
  infer_instance

/-- All a poll can do: report a press and clear the edge, or leave the device alone. -/
theorem poll_cases (b : Button) (d : Device) (s : Sample) :
    (Confirms b s ∧ buttonWasPressed b d s =
      (true, { edgeSeen := false, pressConfirmed := true, edgeTime := b.edgeTime },
        devStateButtonPressed d s.stamp)) ∨
    (¬ Confirms b s ∧ ∃ b', buttonWasPressed b d s = (false, b', d) ∧
      (b'.edgeSeen = true → b.edgeSeen = true)) := by
  simp only [buttonWasPressed, Confirms]
  cases hseen : b.edgeSeen with
  | false => exact Or.inr ⟨by simp, b, by simp, by simp [hseen]⟩
  | true =>
    by_cases hyoung : elapsedMs b s < buttonDebounceMs
    · exact Or.inr ⟨by simp [hyoung], b, by simp [hyoung], fun _ => rfl⟩
    · cases hpin : s.pinHigh with
      | false => exact Or.inl ⟨⟨rfl, hyoung, rfl⟩, by simp [hyoung]⟩
      | true => exact Or.inr ⟨by simp, { b with edgeSeen := false }, by simp [hyoung], by simp⟩

/-- A poll leaves the time of the edge alone. -/
theorem poll_edgeTime (b : Button) (d : Device) (s : Sample) :
    (buttonWasPressed b d s).2.1.edgeTime = b.edgeTime := by
  simp only [buttonWasPressed]
  repeat' split
  all_goals rfl

/-- A bounce behind a recorded edge is ignored. -/
theorem gpioIrq_pending {b : Button} (h : b.edgeSeen = true) (gpio now : Nat) :
    gpioIrq b gpio now = b := by
  simp [gpioIrq, h]

theorem gpioIrq_fresh {b : Button} (h : b.edgeSeen = false) (now : Nat) :
    gpioIrq b buttonPin now = { b with edgeSeen := true, edgeTime := now } :=
  if_pos ⟨rfl, h⟩

theorem gpioIrq_edgeSeen (b : Button) (gpio now : Nat) (h : (gpioIrq b gpio now).edgeSeen = true) :
    b.edgeSeen = true ∨ gpio = buttonPin := by
  simp only [gpioIrq] at h
  split at h
  · rename_i hedge
    exact Or.inr hedge.1
  · exact Or.inl h

end UserButton
