import Ward3n.AuthorizationWindow
import Ward3n.PixelWire

/-!
# What the light says

The firmware with the animation of `neopixel.c` beside it: the last call of the
main loop, and the callbacks of `main.c` that put the LED out. The animation
reads the state of the device and the clock, and nothing reads the animation.

A colour is set from the state of the moment and stays until the next refresh,
which comes no sooner than the period of that state. What the LED shows is
therefore a colour of the state the device is in, or of one that it left less
than a period ago.
-/

namespace StatusLight

open TracedRuns CryptoBackend DeviceState PivApplet CcidDriver Firmware
  AppletEffects FirmwareSteps SessionGate AuthorizationWindow
open PixelWire (Colour)

/-- `_next_tick` and `_blink_on` -/
structure Light where
  nextTick : Nat
  blinkOn : Bool
  deriving DecidableEq

/-- The variables as the C runtime initialises them. -/
def lightAtReset : Light := { nextTick := 0, blinkOn := false }

/-- The colour of `neopixel_off` -/
def dark : Colour := ⟨0, 0, 0⟩

/-- The colour `main` sets before it initialises the crypto backend -/
def initRed : Colour := ⟨40, 0, 0⟩

/-- `time_reached` -/
def timeReached (target now : Nat) : Bool := decide (target ≤ now)

/-- `neopixel_tick`: the first reading is that of `time_reached`, the second that of
`make_timeout_time_ms`. The colour is that of the call of `neopixel_set`, if there is one. -/
def neopixelTick (l : Light) (state : DevState) (now stamp : Nat) : Light × Option Colour :=
  if timeReached l.nextTick now then
    match state with
    | .idle => ({ l with nextTick := makeTimeoutTimeMs stamp 500 }, some ⟨0, 0, 20⟩)
    | .waitingButton =>
      ({ nextTick := makeTimeoutTimeMs stamp 200, blinkOn := !l.blinkOn },
        some (if !l.blinkOn then ⟨80, 60, 0⟩ else dark))
    | .authorized => ({ l with nextTick := makeTimeoutTimeMs stamp 250 }, some ⟨0, 60, 0⟩)
    | .processing =>
      ({ nextTick := makeTimeoutTimeMs stamp 100, blinkOn := !l.blinkOn },
        some ⟨if !l.blinkOn then 0 else 0, if !l.blinkOn then 80 else 0, 0⟩)
  else (l, none)

structure Board where
  firmware : State
  light : Light

inductive BoardEvent
  | firmware (e : Event)
  | neopixelTick (now stamp : Nat)
  /-- `tud_suspend_cb` -/
  | suspend

inductive BoardObservation
  | firmware (o : Observation)
  /-- `neopixel_tick` sets the LED -/
  | refresh (c : Colour) (now stamp : Nat)
  /-- a callback puts the LED out -/
  | putOut

/-- What `tud_umount_cb` does before it resets the device state. -/
def callbackObs : Event → List BoardObservation
  | .umount _ => [.putOut]
  | _ => []

def bootBoard : Board := { firmware := boot, light := lightAtReset }

def boardStep (k : Backend) (b : Board) : BoardEvent → Board × List BoardObservation
  | .firmware e =>
    ({ b with firmware := (step k b.firmware e).1 },
      callbackObs e ++ (step k b.firmware e).2.map .firmware)
  | .neopixelTick now stamp =>
    ({ b with light := (neopixelTick b.light b.firmware.card.dev.state now stamp).1 },
      (neopixelTick b.light b.firmware.card.dev.state now stamp).2.toList.map fun c =>
        .refresh c now stamp)
  | .suspend => (b, [.putOut])

def boardRun (k : Backend) (es : List BoardEvent) : Board := exec (boardStep k) bootBoard es

def boardHistory (k : Backend) (es : List BoardEvent) : List BoardObservation :=
  trace (boardStep k) bootBoard es

/-- The clock readings made by an event, in order. -/
def BoardEvent.readings : BoardEvent → List Nat
  | .firmware e => e.readings
  | .neopixelTick now stamp => [now, stamp]
  | .suspend => []

/-- The clock never runs backwards along a run. -/
def BoardClockRuns (es : List BoardEvent) : Prop :=
  (es.flatMap BoardEvent.readings).Pairwise (· ≤ ·)

instance (es : List BoardEvent) : Decidable (BoardClockRuns es) := by
  unfold BoardClockRuns
  infer_instance

/-- What the firmware did, without the light. -/
def said : BoardObservation → Option Observation
  | .firmware o => some o
  | _ => none

section Firmware

theorem said_callback (e : Event) : (callbackObs e).filterMap said = [] := by
  cases e <;> rfl

theorem said_map (obs : List Observation) :
    (obs.map BoardObservation.firmware).filterMap said = obs := by
  rw [List.filterMap_map]
  exact List.filterMap_some

end Firmware

section Moves

/-- A step moves the state once at most, and reports it with a reading of its own. -/
theorem step_moves (k : Backend) (s : State) (e : Event) :
    ∃ before after now, (step k s e).2 =
        before ++ movedObs s.card.dev (step k s e).1.card.dev now ++ after ∧
      (∀ o ∈ before ++ after, ¬ Moves o) ∧
      (s.card.dev.state ≠ (step k s e).1.card.dev.state → now ∈ e.readings) := by
  have heffect := step_effect k s e
  generalize (step k s e).1 = s' at heffect
  generalize (step k s e).2 = obs at heffect
  have still : s'.card.dev = s.card.dev → (∀ o ∈ obs, ¬ Moves o) →
      ∃ before after now, obs = before ++ movedObs s.card.dev s'.card.dev now ++ after ∧
        (∀ o ∈ before ++ after, ¬ Moves o) ∧
        (s.card.dev.state ≠ s'.card.dev.state → now ∈ e.readings) := by
    intro hdev hquiet
    refine ⟨obs, [], 0, ?_, by simpa using hquiet, fun hne => absurd (by rw [hdev]) hne⟩
    rw [hdev, movedObs_self, List.append_nil, List.append_nil]
  cases heffect with
  | quiet _ _ _ hcard _ hobs =>
    refine still (by rw [hcard]) fun o ho => ?_
    rcases hobs o ho with ⟨_, rfl⟩ | ⟨_, rfl⟩ <;> exact id
  | powerOn _ _ hcard | powerOff _ _ hcard | reset _ hcard | noPress _ _ hcard =>
    exact still (by rw [hcard]) (by simp [Moves])
  | edge _ hcard => exact still (by rw [hcard]) (forall_mem_ite id)
  | @apdu bytes response amb _ r _ _ _ hcard =>
    refine ⟨signObs amb.now r.signed, _, amb.now, by rw [hcard], ?_, fun _ => by
      simp [Event.readings]⟩
    intro o ho
    simp only [signObs, List.mem_append, List.mem_map, List.mem_cons, List.not_mem_nil,
      or_false] at ho
    rcases ho with ⟨_, _, rfl⟩ | rfl | rfl <;> exact id
  | @umount now _ _ hcard =>
    exact ⟨[], [], now, by rw [hcard]; simp, by simp, fun _ => by simp [Event.readings]⟩
  | @press sample _ _ _ hcard =>
    exact ⟨[.pressConfirmed sample.stamp], [], sample.stamp, by rw [hcard]; simp,
      by simp [Moves], fun _ => by simp [Event.readings]⟩
  | @tick now _ _ hcard =>
    exact ⟨[], [], now, by rw [hcard]; simp, by simp, fun _ => by simp [Event.readings]⟩

/-- The state last entered. -/
def lastEntered (h : List Observation) : DevState :=
  h.foldl (fun state o =>
    match o with
    | .moved _ dst _ => dst
    | _ => state) .idle

theorem lastEntered_still {h t : List Observation} (hstill : ∀ o ∈ t, ¬ Moves o) :
    lastEntered (h ++ t) = lastEntered h := by
  induction t using List.reverseRecOn with
  | nil => rw [List.append_nil]
  | append_singleton t o ih =>
    have hrest := ih fun x hx => hstill x (List.mem_append_left _ hx)
    have ho := hstill o (by simp)
    rw [← List.append_assoc, lastEntered, List.foldl_append]
    cases o with
    | moved => exact absurd trivial ho
    | powerOn | powerOff | busReset | signCall | exchange | response | transmitted | fallingEdge
    | pressConfirmed => exact hrest

theorem lastEntered_moved {h : List Observation} {d d' : Device} (hlast : lastEntered h = d.state)
    (now : Nat) : lastEntered (h ++ movedObs d d' now) = d'.state := by
  by_cases hsame : d.state = d'.state
  · rw [movedObs, if_pos hsame, List.append_nil, hlast, hsame]
  · simp only [movedObs, if_neg hsame, lastEntered, List.foldl_append, List.foldl_cons,
      List.foldl_nil]

/-- The device is in the state its history last entered. -/
theorem lastEntered_step (k : Backend) {h : List Observation} {s : State} (e : Event)
    (hlast : lastEntered h = s.card.dev.state) :
    lastEntered (h ++ (step k s e).2) = (step k s e).1.card.dev.state := by
  obtain ⟨before, after, now, hobs, hstill, _⟩ := step_moves k s e
  have hbefore : lastEntered (h ++ before) = s.card.dev.state :=
    (lastEntered_still fun o ho => hstill o (List.mem_append_left _ ho)).trans hlast
  rw [hobs, ← List.append_assoc, ← List.append_assoc,
    lastEntered_still fun o ho => hstill o (List.mem_append_right _ ho)]
  exact lastEntered_moved hbefore now

end Moves

/-- The colour that stands for a state -/
def signal : DevState → Colour
  | .idle => ⟨0, 0, 20⟩
  | .waitingButton => ⟨80, 60, 0⟩
  | .authorized => ⟨0, 60, 0⟩
  | .processing => ⟨0, 80, 0⟩

/-- The milliseconds for which a refresh made in a state is good -/
def period : DevState → Nat
  | .idle => 500
  | .waitingButton => 200
  | .authorized => 250
  | .processing => 100

def blinking : DevState → Bool
  | .waitingButton | .processing => true
  | .idle | .authorized => false

/-- The blink flag after a refresh -/
def nextBlink (blinkOn : Bool) (state : DevState) : Bool :=
  if blinking state then !blinkOn else blinkOn

/-- The colour a refresh leaves behind, with its blink flag -/
def frame (blinkOn : Bool) (state : DevState) : Colour :=
  if blinking state && !blinkOn then dark else signal state

section Refreshing

variable (l : Light) (state : DevState) {now : Nat}

theorem neopixelTick_due (h : l.nextTick ≤ now) (stamp : Nat) :
    neopixelTick l state now stamp =
      ({ nextTick := makeTimeoutTimeMs stamp (period state), blinkOn := nextBlink l.blinkOn state },
        some (frame (nextBlink l.blinkOn state) state)) := by
  have hreached : timeReached l.nextTick now = true := decide_eq_true h
  simp only [neopixelTick, hreached]
  cases state with
  | idle | authorized => rfl
  | waitingButton | processing => cases l.blinkOn <;> rfl

theorem neopixelTick_early (h : now < l.nextTick) (stamp : Nat) :
    neopixelTick l state now stamp = (l, none) := by
  have hearly : timeReached l.nextTick now = false := decide_eq_false (Nat.not_le.mpr h)
  simp only [neopixelTick, hearly]
  rfl

variable (k : Backend) (b : Board)

theorem boardStep_due (h : b.light.nextTick ≤ now) (stamp : Nat) :
    boardStep k b (.neopixelTick now stamp) =
      ({ b with light :=
          { nextTick := makeTimeoutTimeMs stamp (period b.firmware.card.dev.state),
            blinkOn := nextBlink b.light.blinkOn b.firmware.card.dev.state } },
        [.refresh (frame (nextBlink b.light.blinkOn b.firmware.card.dev.state)
          b.firmware.card.dev.state) now stamp]) := by
  simp only [boardStep, neopixelTick_due b.light b.firmware.card.dev.state h]
  rfl

theorem boardStep_early (h : now < b.light.nextTick) (stamp : Nat) :
    boardStep k b (.neopixelTick now stamp) = (b, []) := by
  simp only [boardStep, neopixelTick_early b.light b.firmware.card.dev.state h]
  rfl

end Refreshing

section Signals

/-- The refresh shows the blink of a wait. -/
def Blinks : BoardObservation → Prop
  | .refresh c _ _ => c = signal .waitingButton ∨ c = dark
  | _ => False

instance (o : BoardObservation) : Decidable (Blinks o) := by
  cases o with
  | refresh c now stamp => exact inferInstanceAs (Decidable (c = signal .waitingButton ∨ c = dark))
  | firmware | putOut => exact isFalse id

def blinks (h : List BoardObservation) : Nat := h.countP (Blinks ·)

/-- The last refresh -/
def lastRefresh (h : List BoardObservation) : Option (Colour × Nat) :=
  h.foldl (fun last o =>
    match o with
    | .refresh c _ stamp => some (c, stamp)
    | _ => last) none

/-- The period of a refresh that set this colour -/
def rest (c : Colour) : Nat :=
  if c = signal .idle then 500 else if c = signal .authorized then 250 else 200

/-- A refresh comes after the period of the one before it. It says that nothing is open; or
it is one of the alternating blinks of an open wait, counted over all waits; or it says that a
press has authorized the device. -/
def Tells (past : List BoardObservation) : BoardObservation → Prop
  | .refresh c now _ =>
    (∀ c' stamp', lastRefresh past = some (c', stamp') →
      makeTimeoutTimeMs stamp' (rest c') ≤ now) ∧
    ((lastEntered (past.filterMap said) = .idle ∧ c = signal .idle) ∨
      (∃ t, Entered (past.filterMap said) (.waiting t) ∧
        c = if blinks past % 2 = 0 then signal .waitingButton else dark) ∨
      ∃ t, Entered (past.filterMap said) (.authorized t) ∧ c = signal .authorized)
  | _ => True

/-- The light goes by what was observed. -/
structure Informed (h : List BoardObservation) (b : Board) : Prop where
  window : Window (h.filterMap said) b.firmware
  entered : lastEntered (h.filterMap said) = b.firmware.card.dev.state
  blink : b.light.blinkOn = decide (blinks h % 2 = 1)
  paced : ∀ c stamp, lastRefresh h = some (c, stamp) →
    makeTimeoutTimeMs stamp (rest c) = b.light.nextTick

variable {h : List BoardObservation} {b : Board}

theorem blinks_concat (o : BoardObservation) :
    blinks (h ++ [o]) = blinks h + if Blinks o then 1 else 0 := by
  simp only [blinks, List.countP_append, List.countP_singleton, decide_eq_true_eq]

/-- What is no refresh changes neither the count nor the last one. -/
theorem not_refreshed {t : List BoardObservation}
    (hother : ∀ o ∈ t, ∀ c now stamp, o ≠ .refresh c now stamp) :
    blinks (h ++ t) = blinks h ∧ lastRefresh (h ++ t) = lastRefresh h := by
  induction t using List.reverseRecOn with
  | nil => rw [List.append_nil]; exact ⟨rfl, rfl⟩
  | append_singleton t o ih =>
    obtain ⟨hblinks, hlast⟩ := ih fun x hx => hother x (List.mem_append_left _ hx)
    have ho := hother o (by simp)
    rw [← List.append_assoc, blinks_concat, hblinks, lastRefresh, List.foldl_append]
    cases o with
    | refresh c now stamp => exact absurd rfl (ho c now stamp)
    | firmware | putOut => exact ⟨rfl, hlast⟩

theorem firmware_refreshes_nothing (k : Backend) (b : Board) (e : Event) :
    ∀ o ∈ (boardStep k b (.firmware e)).2, ∀ c now stamp,
      o ≠ BoardObservation.refresh c now stamp := by
  intro o ho c now stamp
  rcases List.mem_append.mp ho with ho | ho
  · cases e with
    | umount =>
      rw [List.mem_singleton.mp ho]
      exact nofun
    | bulkOut | inRead | inComplete | ccidTask | busReset | gpioIrq | poll | tick => cases ho
  · obtain ⟨x, _, rfl⟩ := List.mem_map.mp ho
    exact nofun

theorem said_firmware (k : Backend) (b : Board) (e : Event) :
    (boardStep k b (.firmware e)).2.filterMap said = (step k b.firmware e).2 := by
  simp only [boardStep, List.filterMap_append, said_callback, said_map, List.nil_append]

/-- The phase of the device and the state it is in name each other. -/
theorem tells_frame (hinformed : Informed h b) {now : Nat} (hdue : b.light.nextTick ≤ now)
    (stamp : Nat) :
    Tells h (.refresh (frame (nextBlink b.light.blinkOn b.firmware.card.dev.state)
      b.firmware.card.dev.state) now stamp) := by
  obtain ⟨p, hin, hentered⟩ := hinformed.window
  refine ⟨fun c' stamp' hlast => ?_, ?_⟩
  · rw [hinformed.paced c' stamp' hlast]
    exact hdue
  · cases p with
    | idle =>
      have hidle : b.firmware.card.dev.state = .idle := hin
      rw [hidle]
      exact Or.inl ⟨hinformed.entered.trans hidle, rfl⟩
    | waiting t =>
      refine Or.inr (Or.inl ⟨t, hentered, ?_⟩)
      rw [hin.1, hinformed.blink]
      rcases Nat.mod_two_eq_zero_or_one (blinks h) with heven | hodd
      · rw [heven]
        rfl
      · rw [hodd]
        rfl
    | authorized t =>
      rw [hin.1]
      exact Or.inr (Or.inr ⟨t, hentered, rfl⟩)

theorem informed_refresh (hinformed : Informed h b) (now stamp : Nat) :
    Informed (h ++ [.refresh (frame (nextBlink b.light.blinkOn b.firmware.card.dev.state)
        b.firmware.card.dev.state) now stamp])
      { b with light :=
          { nextTick := makeTimeoutTimeMs stamp (period b.firmware.card.dev.state),
            blinkOn := nextBlink b.light.blinkOn b.firmware.card.dev.state } } := by
  have hsaid : (h ++ [BoardObservation.refresh (frame (nextBlink b.light.blinkOn
      b.firmware.card.dev.state) b.firmware.card.dev.state) now stamp]).filterMap said =
      h.filterMap said := by
    rw [List.filterMap_append]
    exact List.append_nil _
  obtain ⟨p, hin, _⟩ := hinformed.window
  have hblink := hinformed.blink
  refine ⟨by rw [hsaid]; exact hinformed.window, by rw [hsaid]; exact hinformed.entered, ?_, ?_⟩
  · rw [blinks_concat]
    simp only
    cases p with
    | idle =>
      have hidle : b.firmware.card.dev.state = .idle := hin
      rw [hidle]
      exact hblink
    | authorized t =>
      rw [hin.1]
      exact hblink
    | waiting t =>
      have hone : Blinks (.refresh (frame (nextBlink b.light.blinkOn .waitingButton)
          .waitingButton) now stamp) := by
        cases b.light.blinkOn
        · exact Or.inl rfl
        · exact Or.inr rfl
      rw [hin.1, if_pos hone, nextBlink, hblink]
      rcases Nat.mod_two_eq_zero_or_one (blinks h) with heven | hodd
      · simp [blinking, heven, Nat.add_mod]
      · simp [blinking, hodd, Nat.add_mod]
  · intro c' stamp' hlast
    rw [lastRefresh, List.foldl_append] at hlast
    obtain ⟨rfl, rfl⟩ := Prod.mk.inj (Option.some.inj hlast)
    cases p with
    | idle =>
      have hidle : b.firmware.card.dev.state = .idle := hin
      simp only [hidle]
      rfl
    | authorized t =>
      simp only [hin.1]
      rfl
    | waiting t =>
      simp only [hin.1]
      cases b.light.blinkOn <;> rfl

theorem informed_step (k : Backend) (h : List BoardObservation) (b : Board) (e : BoardEvent)
    (hinformed : Informed h b) : Informed (h ++ (boardStep k b e).2) (boardStep k b e).1 := by
  cases e with
  | firmware e =>
    obtain ⟨hblinks, hlast⟩ := not_refreshed (h := h) (firmware_refreshes_nothing k b e)
    refine ⟨?_, ?_, by rw [hblinks]; exact hinformed.blink, by rw [hlast]; exact hinformed.paced⟩
    · rw [List.filterMap_append, said_firmware]
      exact window_step k _ b.firmware e hinformed.window
    · rw [List.filterMap_append, said_firmware]
      exact lastEntered_step k e hinformed.entered
  | neopixelTick now stamp =>
    rcases Nat.lt_or_ge now b.light.nextTick with hearly | hdue
    · rw [boardStep_early k b hearly, List.append_nil]
      exact hinformed
    · rw [boardStep_due k b hdue]
      exact informed_refresh hinformed now stamp
  | suspend =>
    have hsaid : (h ++ [BoardObservation.putOut]).filterMap said = h.filterMap said := by
      rw [List.filterMap_append]
      exact List.append_nil _
    obtain ⟨hblinks, hlast⟩ := not_refreshed (h := h) (t := [.putOut]) (by simp)
    exact ⟨by rw [boardStep, hsaid]; exact hinformed.window,
      by rw [boardStep, hsaid]; exact hinformed.entered,
      by rw [boardStep, hblinks]; exact hinformed.blink,
      by rw [boardStep, hlast]; exact hinformed.paced⟩

theorem tells_step (k : Backend) (h : List BoardObservation) (b : Board) (e : BoardEvent)
    (hinformed : Informed h b) : AtEach (fun past => Tells (h ++ past)) (boardStep k b e).2 := by
  cases e with
  | firmware e =>
    refine atEach_of_forall fun past o ho => ?_
    have hother := firmware_refreshes_nothing k b e o ho
    cases o with
    | refresh c now stamp => exact absurd rfl (hother c now stamp)
    | firmware | putOut => trivial
  | neopixelTick now stamp =>
    rcases Nat.lt_or_ge now b.light.nextTick with hearly | hdue
    · rw [boardStep_early k b hearly]
      exact atEach_nil _
    · rw [boardStep_due k b hdue, atEach_cons, List.append_nil]
      exact ⟨tells_frame hinformed hdue stamp, atEach_nil _⟩
  | suspend => exact atEach_of_forall fun past o ho => by rw [List.mem_singleton.mp ho]; trivial

theorem informed_boot : Informed [] bootBoard := ⟨window_boot, rfl, rfl, nofun⟩

/-- Every refresh of every run tells the state the history has led to, at its pace. -/
theorem refreshes_tell (k : Backend) (es : List BoardEvent) : AtEach Tells (boardHistory k es) :=
  atEach_trace (tells_step k) (informed_step k) informed_boot es

end Signals

/-- What the LED shows. -/
def shown (h : List BoardObservation) : Colour :=
  h.foldl (fun colour o =>
    match o with
    | .refresh c _ _ => c
    | .putOut => dark
    | .firmware _ => colour) initRed

section Staleness

/-- The device is in this state still, or left it after the reading `since`. -/
def InSince (h : List BoardObservation) (b : Board) (q : DevState) (since : Nat) : Prop :=
  b.firmware.card.dev.state = q ∨ ∃ dst t, .firmware (.moved q dst t) ∈ h ∧ since ≤ t

/-- The LED is dark or shows a state, the state it was refreshed in; before the first refresh
one is due at once. -/
def Shows (times : List Nat) (h : List BoardObservation) (b : Board) : Prop :=
  b.light.nextTick = 0 ∨
    ∃ r ∈ times, ∃ q, b.light.nextTick = makeTimeoutTimeMs r (period q) ∧
      (shown h = dark ∨ shown h = signal q) ∧ InSince h b q r

variable {h : List BoardObservation} {b : Board} {times : List Nat}

@[simp] theorem shown_refresh (c : Colour) (now stamp : Nat) :
    shown (h ++ [.refresh c now stamp]) = c := by
  simp only [shown, List.foldl_append, List.foldl_cons, List.foldl_nil]

@[simp] theorem shown_putOut : shown (h ++ [.putOut]) = dark := by
  simp only [shown, List.foldl_append, List.foldl_cons, List.foldl_nil]

theorem frame_cases (blinkOn : Bool) (q : DevState) :
    frame blinkOn q = dark ∨ frame blinkOn q = signal q := by
  simp only [frame]
  split
  · exact Or.inl rfl
  · exact Or.inr rfl

theorem shown_firmware (obs : List Observation) :
    shown (h ++ obs.map .firmware) = shown h := by
  induction obs using List.reverseRecOn with
  | nil => rw [List.map_nil, List.append_nil]
  | append_singleton obs o ih =>
    rw [List.map_append, ← List.append_assoc, shown, List.foldl_append]
    exact ih

/-- A callback leaves what is shown, or puts it out. -/
theorem shown_callback (e : Event) :
    shown (h ++ callbackObs e) = shown h ∨ shown (h ++ callbackObs e) = dark := by
  cases e with
  | umount =>
    right
    exact shown_putOut
  | bulkOut | inRead | inComplete | ccidTask | busReset | gpioIrq | poll | tick =>
    left
    exact congrArg shown (List.append_nil h)

theorem InSince.firmware {q : DevState} {since : Nat} (hin : InSince h b q since) (k : Backend)
    {e : Event} (hclock : ∀ now ∈ e.readings, since ≤ now) :
    InSince (h ++ (boardStep k b (.firmware e)).2) (boardStep k b (.firmware e)).1 q since := by
  rcases hin with hstate | ⟨dst, t, hmoved, hsince⟩
  · obtain ⟨before, after, now, hobs, _, hreading⟩ := step_moves k b.firmware e
    by_cases hsame : b.firmware.card.dev.state = (step k b.firmware e).1.card.dev.state
    · exact Or.inl (hsame.symm.trans hstate)
    · refine Or.inr ⟨(step k b.firmware e).1.card.dev.state, now, ?_, hclock now (hreading hsame)⟩
      have hmove : Observation.moved q (step k b.firmware e).1.card.dev.state now ∈
          (step k b.firmware e).2 := by
        rw [hobs, movedObs, if_neg hsame, hstate]
        simp
      exact List.mem_append_right _ (List.mem_append_right _ (List.mem_map_of_mem hmove))
  · exact Or.inr ⟨dst, t, List.mem_append_left _ hmoved, hsince⟩

theorem shows_step (k : Backend) (e : BoardEvent) (hclock : ∀ r ∈ times, ∀ now ∈ e.readings,
    r ≤ now) (hshows : Shows times h b) :
    Shows (times ++ e.readings) (h ++ (boardStep k b e).2) (boardStep k b e).1 := by
  cases e with
  | firmware e =>
    rcases hshows with hfirst | ⟨r, hr, q, hnext, hcolour, hin⟩
    · exact Or.inl hfirst
    · refine Or.inr ⟨r, List.mem_append_left _ hr, q, hnext, ?_, hin.firmware k (hclock r hr)⟩
      rw [boardStep, ← List.append_assoc, shown_firmware]
      rcases shown_callback (h := h) e with hkept | hput
      · rw [hkept]
        exact hcolour
      · exact Or.inl hput
  | neopixelTick now stamp =>
    rcases Nat.lt_or_ge now b.light.nextTick with hearly | hdue
    · rw [boardStep_early k b hearly, List.append_nil]
      rcases hshows with hfirst | ⟨r, hr, q, hrest⟩
      · exact Or.inl hfirst
      · exact Or.inr ⟨r, List.mem_append_left _ hr, q, hrest⟩
    · rw [boardStep_due k b hdue]
      refine Or.inr ⟨stamp, List.mem_append_right _ (by simp [BoardEvent.readings]),
        b.firmware.card.dev.state, rfl, ?_, Or.inl rfl⟩
      rw [shown_refresh]
      exact frame_cases _ _
  | suspend =>
    rcases hshows with hfirst | ⟨r, hr, q, hnext, _, hin⟩
    · exact Or.inl hfirst
    · refine Or.inr ⟨r, List.mem_append_left _ hr, q, hnext, Or.inl shown_putOut, ?_⟩
      rcases hin with hstate | ⟨dst, t, hmoved, hsince⟩
      · exact Or.inl hstate
      · exact Or.inr ⟨dst, t, List.mem_append_left _ hmoved, hsince⟩

theorem shows_run (k : Backend) (es : List BoardEvent) (hclock : BoardClockRuns es) :
    Shows (es.flatMap BoardEvent.readings) (boardHistory k es) (boardRun k es) := by
  induction es using List.reverseRecOn with
  | nil => exact Or.inl rfl
  | append_singleton es e ih =>
    rw [BoardClockRuns, List.flatMap_append, List.pairwise_append] at hclock
    obtain ⟨hbefore, _, hordered⟩ := hclock
    have hone : [e].flatMap BoardEvent.readings = e.readings := by simp
    rw [hone] at hordered
    have hstep := shows_step k e hordered (ih hbefore)
    rw [List.flatMap_append, hone, boardHistory, boardRun, trace_append, exec_append]
    rw [trace, trace_nil, List.append_nil]
    exact hstep

/-- The LED shows the state the device is in, or one that it left less than that state's period
ago, or nothing. -/
def Current (h : List BoardObservation) (b : Board) (now : Nat) : Prop :=
  shown h = dark ∨
    ∃ q, shown h = signal q ∧
      (b.firmware.card.dev.state = q ∨
        ∃ dst t, .firmware (.moved q dst t) ∈ h ∧ now < makeTimeoutTimeMs t (period q))

/-- What the LED shows is current after every tick. -/
theorem signal_current (k : Backend) (es : List BoardEvent) {now stamp : Nat}
    (hclock : BoardClockRuns (es ++ [.neopixelTick now stamp])) :
    Current (boardHistory k (es ++ [.neopixelTick now stamp]))
      (boardRun k (es ++ [.neopixelTick now stamp])) now := by
  have hbefore : BoardClockRuns es := by
    rw [BoardClockRuns, List.flatMap_append, List.pairwise_append] at hclock
    exact hclock.1
  have hshows := shows_run k es hbefore
  have hhistory : boardHistory k (es ++ [.neopixelTick now stamp]) =
      boardHistory k es ++ (boardStep k (boardRun k es) (.neopixelTick now stamp)).2 := by
    rw [boardHistory, trace_append, trace, trace_nil, List.append_nil]
    rfl
  have hrun : boardRun k (es ++ [.neopixelTick now stamp]) =
      (boardStep k (boardRun k es) (.neopixelTick now stamp)).1 := by
    rw [boardRun, exec_append]
    rfl
  rw [hhistory, hrun]
  generalize boardRun k es = b at hshows
  generalize boardHistory k es = h at hshows
  rcases Nat.lt_or_ge now b.light.nextTick with hearly | hdue
  · rw [boardStep_early k b hearly, List.append_nil]
    rcases hshows with hfirst | ⟨r, _, q, hnext, hcolour, hin⟩
    · rw [hfirst] at hearly
      exact absurd hearly (Nat.not_lt_zero now)
    · refine hcolour.imp_right fun hsignal => ⟨q, hsignal, hin.imp_right ?_⟩
      rintro ⟨dst, t, hmoved, hsince⟩
      refine ⟨dst, t, hmoved, ?_⟩
      rw [hnext] at hearly
      exact Nat.lt_of_lt_of_le hearly (Nat.add_le_add_right hsince _)
  · rw [boardStep_due k b hdue, Current, shown_refresh]
    refine (frame_cases _ _).imp_right fun hsignal => ?_
    exact ⟨b.firmware.card.dev.state, hsignal, Or.inl rfl⟩

/-- A request at 1 ms, between two ticks. -/
def requestedBetween : List BoardEvent :=
  [.neopixelTick 0 0, .firmware (.bulkOut (hostMessage pcToRdrIccPowerOn []) (ambientAt 10)),
    .firmware (apduAt 11 selectApdu), .firmware (apduAt 12 verifyApdu),
    .firmware (apduAt 1000 signApdu)]

theorem signal_current_request :
    Current (boardHistory sampleBackend (requestedBetween ++ [.neopixelTick 499999 499999]))
      (boardRun sampleBackend (requestedBetween ++ [.neopixelTick 499999 499999])) 499999 :=
  signal_current sampleBackend requestedBetween (by decide)

end Staleness

end StatusLight
