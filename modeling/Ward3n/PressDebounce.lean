import Ward3n.PressAccounting

/-!
# One physical press

The level of the button pin over time, with the bounces at both ends of a press,
and the polls made meanwhile. An interrupt runs at every falling edge, ahead of
a poll that finds the new level. The first edge starts the only debounce window
that can end in a confirmation: those behind it are ignored until a poll has
cleared it, and those of the release start windows that end with the pin high.
-/

namespace PressDebounce

open CryptoBackend DeviceState UserButton Firmware TracedRuns FirmwareSteps PressAccounting

/-- A moment of the pin: the level it has then, and the poll made then, if one is, with the
device it may pass a press on to and its second reading of the clock. -/
structure Moment where
  time : Nat
  pinHigh : Bool
  polled : Option (Device × Nat)

/-- The variables of the button, and the level the pin had last. -/
structure Pin where
  button : Button
  high : Bool

/-- What `button_was_pressed` returned, and when. -/
structure Answer where
  time : Nat
  pressed : Bool

/-- The button once the interrupt has run, if the pin fell. -/
def Pin.hear (p : Pin) (m : Moment) : Button :=
  if p.high = true ∧ m.pinHigh = false then gpioIrq p.button buttonPin m.time else p.button

def pinStep (p : Pin) (m : Moment) : Pin × List Answer :=
  match m.polled with
  | none => ({ button := p.hear m, high := m.pinHigh }, [])
  | some (d, stamp) =>
    let (pressed, button, _) :=
      buttonWasPressed (p.hear m) d { now := m.time, pinHigh := m.pinHigh, stamp := stamp }
    ({ button := button, high := m.pinHigh }, [{ time := m.time, pressed := pressed }])

/-- From 30 ms behind `e` the pin is low until `r`, and from 30 ms behind `r` it is high. In
between it may bounce. -/
structure Levels (e r : Nat) (ms : List Moment) : Prop where
  ordered : ms.Pairwise fun m m' => m.time ≤ m'.time
  low : ∀ m ∈ ms, e + 30000 ≤ m.time → m.time < r → m.pinHigh = false
  high : ∀ m ∈ ms, r + 30000 ≤ m.time → m.pinHigh = true

/-- One press: the pin, high before, first falls at `e`, and is released at `r`. -/
structure PressTrace (e r : Nat) (ms : List Moment) : Prop extends Levels e r ms where
  held : e + 30000 ≤ r
  falls : ∃ before first after, ms = before ++ first :: after ∧
    (∀ m ∈ before, m.pinHigh = true) ∧ first.time = e ∧ first.pinHigh = false

/-- A poll is made while the press is held and debounced. -/
def PolledWhileHeld (e r : Nat) (m : Moment) : Prop :=
  m.polled.isSome = true ∧ e + 30000 ≤ m.time ∧ m.time < r

/-- The press is confirmed at most once, never within 30 ms, and once if it is polled while
it is held. -/
structure ConfirmedOnce (e r : Nat) (ms : List Moment) (answers : List Answer) : Prop where
  once : answers.countP Answer.pressed ≤ 1
  late : ∀ a ∈ answers, a.pressed = true → e + 30000 ≤ a.time
  sure : (∃ m ∈ ms, PolledWhileHeld e r m) → answers.countP Answer.pressed = 1

theorem countP_unpressed {answers : List Answer} (h : ∀ a ∈ answers, a.pressed = false) :
    answers.countP Answer.pressed = 0 := by
  rw [List.countP_eq_zero]
  intro a ha hpressed
  rw [h a ha] at hpressed
  cases hpressed

/-- The press is over or confirmed: an edge that is recorded belongs to the release. -/
structure Settled (r last : Nat) (p : Pin) : Prop where
  edge : p.button.edgeSeen = true → r ≤ p.button.edgeTime
  level : p.high = true → r ≤ last

/-- The first edge of the press is recorded. -/
def Pending (e : Nat) (p : Pin) : Prop := p.button.edgeSeen = true ∧ p.button.edgeTime = e

section Steps

variable {e r last : Nat} {p : Pin} {m : Moment}

theorem Settled.hear (hsettled : Settled r last p) (hlast : last ≤ m.time)
    (hseen : (p.hear m).edgeSeen = true) : r ≤ (p.hear m).edgeTime := by
  by_cases hfall : p.high = true ∧ m.pinHigh = false
  · have hr := hsettled.level hfall.1
    simp only [Pin.hear, if_pos hfall]
    cases hedge : p.button.edgeSeen with
    | true =>
      rw [gpioIrq_pending hedge]
      exact hsettled.edge hedge
    | false =>
      rw [gpioIrq_fresh hedge]
      exact Nat.le_trans hr hlast
  · simp only [Pin.hear, if_neg hfall] at hseen ⊢
    exact hsettled.edge hseen

/-- After the press, no poll answers true: an edge of the release is old enough only when the
pin is high for good. -/
theorem settled_step (hsettled : Settled r last p) (hlast : last ≤ m.time)
    (hlow : m.time < r → m.pinHigh = false) (hhigh : r + 30000 ≤ m.time → m.pinHigh = true) :
    Settled r m.time (pinStep p m).1 ∧ ∀ a ∈ (pinStep p m).2, a.pressed = false := by
  have hedge : (p.hear m).edgeSeen = true → r ≤ (p.hear m).edgeTime := hsettled.hear hlast
  have hlevel : m.pinHigh = true → r ≤ m.time := by
    intro hup
    by_contra hbefore
    rw [hlow (Nat.lt_of_not_le hbefore)] at hup
    cases hup
  simp only [pinStep]
  cases m.polled with
  | none => exact ⟨⟨hedge, hlevel⟩, by simp⟩
  | some poll =>
    obtain ⟨d, stamp⟩ := poll
    dsimp only
    generalize hsample : Sample.mk m.time m.pinHigh stamp = sample
    have hnow : sample.now = m.time := by rw [← hsample]
    have hpin : sample.pinHigh = m.pinHigh := by rw [← hsample]
    cases hseen : (p.hear m).edgeSeen with
    | false =>
      rw [poll_clear hseen]
      exact ⟨⟨hedge, hlevel⟩, by simp⟩
    | true =>
      have hr := hedge hseen
      by_cases hyoung : sample.now < (p.hear m).edgeTime + 30000
      · rw [poll_young d hyoung]
        exact ⟨⟨hedge, hlevel⟩, by simp⟩
      · obtain ⟨hanswer, hcleared⟩ := poll_old d hseen (Nat.le_of_not_lt hyoung)
        have hup : m.pinHigh = true := hhigh (by omega)
        rw [hpin, hup] at hanswer
        refine ⟨⟨fun hpending => ?_, hlevel⟩, by simpa using hanswer⟩
        rw [hcleared] at hpending
        cases hpending

/-- A bounce of the press changes nothing. -/
theorem Pending.hear (hpending : Pending e p) : p.hear m = p.button := by
  simp only [Pin.hear]
  split
  · exact gpioIrq_pending hpending.1 buttonPin m.time
  · rfl

/-- The first poll that finds the press debounced decides it. -/
theorem pending_step (hpending : Pending e p)
    (hlow : e + 30000 ≤ m.time → m.time < r → m.pinHigh = false) :
    (Pending e (pinStep p m).1 ∧ (∀ a ∈ (pinStep p m).2, a.pressed = false) ∧
      ¬ PolledWhileHeld e r m) ∨
    (e + 30000 ≤ m.time ∧ Settled r m.time (pinStep p m).1 ∧
      (pinStep p m).2 = [{ time := m.time, pressed := !m.pinHigh }]) := by
  have htime : p.button.edgeTime = e := hpending.2
  simp only [pinStep, hpending.hear, PolledWhileHeld]
  cases m.polled with
  | none => exact Or.inl ⟨hpending, by simp, by simp⟩
  | some poll =>
    obtain ⟨d, stamp⟩ := poll
    dsimp only
    generalize hsample : Sample.mk m.time m.pinHigh stamp = sample
    have hnow : sample.now = m.time := by rw [← hsample]
    have hpin : sample.pinHigh = m.pinHigh := by rw [← hsample]
    by_cases hyoung : sample.now < p.button.edgeTime + 30000
    · rw [poll_young d hyoung]
      exact Or.inl ⟨hpending, by simp, by omega⟩
    · obtain ⟨hanswer, hcleared⟩ := poll_old d hpending.1 (Nat.le_of_not_lt hyoung)
      have hold : e + 30000 ≤ m.time := by omega
      refine Or.inr ⟨hold, ⟨fun hseen => ?_, fun hup => ?_⟩, ?_⟩
      · rw [hcleared] at hseen
        cases hseen
      · by_contra hbefore
        rw [hlow hold (Nat.lt_of_not_le hbefore)] at hup
        cases hup
      · rw [hanswer, hpin]

/-- Without an edge on record, a pin that stays high moves nothing. -/
theorem quiet_step (hclear : p.button.edgeSeen = false) (hhigh : p.high = true)
    (hstays : m.pinHigh = true) :
    (pinStep p m).1 = p ∧ ∀ a ∈ (pinStep p m).2, a.pressed = false := by
  have hhear : p.hear m = p.button := by simp [Pin.hear, hstays]
  have hsame : Pin.mk p.button m.pinHigh = p := by rw [hstays, ← hhigh]
  simp only [pinStep, hhear]
  cases m.polled with
  | none => exact ⟨hsame, by simp⟩
  | some poll =>
    dsimp only
    rw [poll_clear hclear]
    exact ⟨hsame, by simp⟩

/-- The first edge starts the debounce window. -/
theorem first_step (hclear : p.button.edgeSeen = false) (hhigh : p.high = true)
    (hfalls : m.pinHigh = false) : Pending m.time (pinStep p m).1 ∧
      ∀ a ∈ (pinStep p m).2, a.pressed = false := by
  have hhear : p.hear m = { p.button with edgeSeen := true, edgeTime := m.time } := by
    rw [Pin.hear, if_pos ⟨hhigh, hfalls⟩, gpioIrq_fresh hclear]
  simp only [pinStep, hhear]
  cases m.polled with
  | none => exact ⟨⟨rfl, rfl⟩, by simp⟩
  | some poll =>
    dsimp only
    rw [poll_young poll.1 (Nat.lt_add_of_pos_right (by decide))]
    exact ⟨⟨rfl, rfl⟩, by simp⟩

end Steps

section Runs

variable {e r last : Nat} {p : Pin} {ms ms' : List Moment}

theorem Levels.right (ms : List Moment) (h : Levels e r (ms ++ ms')) : Levels e r ms' where
  ordered := (List.pairwise_append.mp h.ordered).2.1
  low m hm := h.low m (List.mem_append_right ms hm)
  high m hm := h.high m (List.mem_append_right ms hm)

/-- A pin that has not fallen yet answers no poll. -/
theorem quiet_run (hclear : p.button.edgeSeen = false) (hhigh : p.high = true)
    (hstays : ∀ m ∈ ms, m.pinHigh = true) :
    exec pinStep p ms = p ∧ ∀ a ∈ trace pinStep p ms, a.pressed = false := by
  induction ms with
  | nil => exact ⟨rfl, by simp⟩
  | cons m ms ih =>
    obtain ⟨hsame, hanswers⟩ := quiet_step hclear hhigh (hstays m List.mem_cons_self)
    obtain ⟨hrest, htail⟩ := ih fun x hx => hstays x (List.mem_cons_of_mem m hx)
    simp only [exec, trace, hsame]
    exact ⟨hrest, List.forall_mem_append.mpr ⟨hanswers, htail⟩⟩

theorem settled_run (hsettled : Settled r last p) (hover : e + 30000 ≤ last)
    (hlevels : Levels e r ms) (hlast : ∀ m ∈ ms, last ≤ m.time) :
    ∀ a ∈ trace pinStep p ms, a.pressed = false := by
  induction ms generalizing p last with
  | nil => simp
  | cons m ms ih =>
    have hfirst : last ≤ m.time := hlast m List.mem_cons_self
    obtain ⟨hnext, hanswers⟩ := settled_step hsettled hfirst
      (hlevels.low m List.mem_cons_self (Nat.le_trans hover hfirst))
      (hlevels.high m List.mem_cons_self)
    have htail := ih hnext (Nat.le_trans hover hfirst) (hlevels.right [m])
      (List.pairwise_cons.mp hlevels.ordered).1
    exact List.forall_mem_append.mpr ⟨hanswers, htail⟩

/-- Answers that are all false, in front of a press that has yet to be polled. -/
theorem ConfirmedOnce.behind {answers answers' : List Answer}
    (h : ConfirmedOnce e r ms' answers') (hfalse : ∀ a ∈ answers, a.pressed = false)
    (hunpolled : ∀ m ∈ ms, ¬ PolledWhileHeld e r m) :
    ConfirmedOnce e r (ms ++ ms') (answers ++ answers') := by
  have hcount : (answers ++ answers').countP Answer.pressed = answers'.countP Answer.pressed := by
    rw [List.countP_append, countP_unpressed hfalse, Nat.zero_add]
  constructor
  · rw [hcount]
    exact h.once
  · intro a ha hpressed
    rcases List.mem_append.mp ha with ha | ha
    · rw [hfalse a ha] at hpressed
      cases hpressed
    · exact h.late a ha hpressed
  · rintro ⟨m, hm, hpolled⟩
    rw [hcount]
    rcases List.mem_append.mp hm with hm | hm
    · exact absurd hpolled (hunpolled m hm)
    · exact h.sure ⟨m, hm, hpolled⟩

/-- From the first edge on. Induction on the moments: each leaves the press undecided, or
decides it, and then no later one answers true. -/
theorem pending_run (hpending : Pending e p) (hlevels : Levels e r ms) :
    ConfirmedOnce e r ms (trace pinStep p ms) := by
  induction ms generalizing p with
  | nil => exact ⟨Nat.zero_le 1, by simp, by simp⟩
  | cons m ms ih =>
    have hlow := hlevels.low m List.mem_cons_self
    have hrest : Levels e r ms := hlevels.right [m]
    rcases pending_step hpending hlow with ⟨hnext, hanswers, hunpolled⟩ | ⟨hold, hsettled, hanswer⟩
    · have hone : ∀ x ∈ [m], ¬ PolledWhileHeld e r x := by
        intro x hx
        rwa [List.mem_singleton.mp hx]
      exact (ih hnext hrest).behind hanswers hone
    · have hlater : ∀ x ∈ ms, m.time ≤ x.time := (List.pairwise_cons.mp hlevels.ordered).1
      have htail := settled_run hsettled hold hrest hlater
      have hcount : (trace pinStep p (m :: ms)).countP Answer.pressed =
          if m.pinHigh = true then 0 else 1 := by
        rw [trace, List.countP_append, countP_unpressed htail, hanswer]
        cases m.pinHigh <;> rfl
      constructor
      · rw [hcount]
        split <;> omega
      · intro a ha hpressed
        rw [trace, hanswer] at ha
        rcases List.mem_cons.mp ha with rfl | ha
        · exact hold
        · rw [htail a ha] at hpressed
          cases hpressed
      · rintro ⟨x, hx, _, _, hbefore⟩
        have hheld : m.time < r := by
          rcases List.mem_cons.mp hx with rfl | hx
          · exact hbefore
          · exact Nat.lt_of_le_of_lt (hlater x hx) hbefore
        rw [hcount, hlow hold hheld]
        rfl

end Runs

/-- A press is confirmed once: for any bounces at its two ends, and any polls. -/
theorem press_confirmed_once {e r : Nat} {ms : List Moment} (b : Button)
    (hclear : b.edgeSeen = false) (hpress : PressTrace e r ms) :
    ConfirmedOnce e r ms (trace pinStep { button := b, high := true } ms) := by
  obtain ⟨before, first, after, rfl, hbefore, htime, hfalls⟩ := hpress.falls
  obtain ⟨hsame, hquiet⟩ := quiet_run (p := { button := b, high := true }) hclear rfl hbefore
  obtain ⟨hpending, hanswers⟩ := first_step (p := { button := b, high := true }) hclear rfl hfalls
  rw [htime] at hpending
  have hlevels : Levels e r ([first] ++ after) := hpress.toLevels.right before
  have hearly : ∀ m ∈ before, m.time ≤ e := by
    intro m hm
    rw [← htime]
    exact (List.pairwise_append.mp hpress.ordered).2.2 m hm first List.mem_cons_self
  have hunpolled : ∀ m, m.time ≤ e → ¬ PolledWhileHeld e r m := by
    rintro m hle ⟨_, hold, _⟩
    omega
  have hfirst : ∀ m ∈ [first], ¬ PolledWhileHeld e r m := by
    intro m hm
    rw [List.mem_singleton.mp hm]
    exact hunpolled first (Nat.le_of_eq htime)
  have hafter := pending_run hpending (hlevels.right [first])
  rw [trace_append, hsame]
  exact (hafter.behind hanswers hfirst).behind hquiet fun m hm => hunpolled m (hearly m hm)

def pollAt (time : Nat) (pinHigh : Bool) : Moment :=
  { time := time, pinHigh := pinHigh, polled := some (DeviceState.atReset, time) }

def changeAt (time : Nat) (pinHigh : Bool) : Moment :=
  { time := time, pinHigh := pinHigh, polled := none }

/-- A press that bounces at both ends, polled every 10 ms. -/
def bouncedPress : List Moment :=
  [pollAt 0 true, changeAt 1000 false, changeAt 1200 true, changeAt 1300 false, pollAt 10000 false,
    changeAt 15000 true, pollAt 20000 true, changeAt 25000 false, pollAt 30000 false,
    pollAt 40000 false, changeAt 50000 true, pollAt 50000 true, changeAt 50100 false,
    pollAt 60000 false, changeAt 60500 true, pollAt 80100 true, pollAt 90000 true]

theorem press_confirmed_once_sample :
    (trace pinStep { button := UserButton.atReset, high := true } bouncedPress).countP
      Answer.pressed = 1 := by
  have hpress : PressTrace 1000 50000 bouncedPress := by
    refine { ordered := by decide, low := by decide, high := by decide, held := by decide,
             falls := ?_ }
    exact ⟨[pollAt 0 true], _, _, rfl, by decide, rfl, rfl⟩
  have hpolled : PolledWhileHeld 1000 50000 (pollAt 40000 false) := ⟨rfl, by decide, by decide⟩
  exact (press_confirmed_once UserButton.atReset rfl hpress).sure
    ⟨pollAt 40000 false, by simp [bouncedPress], hpolled⟩

section InFirmware

variable (k : Backend) (s : State)

/-- What an event of the firmware does to the button, and what a poll answers. -/
def buttonStep (b : Button) : Event → Button × List Bool
  | .gpioIrq gpio now => (gpioIrq b gpio now, [])
  | .poll sample =>
    let (pressed, b, _) := buttonWasPressed b DeviceState.atReset sample
    (b, [pressed])
  | _ => (b, [])

/-- The events of a moment, after one that left the pin at this level. -/
def Moment.events (wasHigh : Bool) (m : Moment) : List Event :=
  (if wasHigh = true ∧ m.pinHigh = false then [.gpioIrq buttonPin m.time] else []) ++
    m.polled.toList.map fun poll => .poll { now := m.time, pinHigh := m.pinHigh, stamp := poll.2 }

def pinEvents : Bool → List Moment → List Event
  | _, [] => []
  | wasHigh, m :: ms => m.events wasHigh ++ pinEvents m.pinHigh ms

theorem buttonStep_untouched {e : Event} (hother : touchesButton e = false) (b : Button) :
    buttonStep b e = (b, []) := by
  cases e with
  | gpioIrq | poll => cases hother
  | bulkOut | inRead | inComplete | ccidTask | busReset | umount | tick => rfl

/-- The firmware does to the button what its events say, and observes the answers that are
true. -/
theorem buttonStep_firmware (e : Event) : (step k s e).1.button = (buttonStep s.button e).1 ∧
    (step k s e).2.countP isConfirmation = (buttonStep s.button e).2.countP id := by
  rcases touchesButton_cases e with ⟨gpio, now, rfl⟩ | ⟨sample, rfl⟩ | hother
  · exact ⟨rfl, unconfirmed k s _ (by simp)⟩
  · obtain ⟨hanswer, hbutton⟩ := poll_device s.button s.card.dev DeviceState.atReset sample
    refine ⟨hbutton, ?_⟩
    simp only [step, buttonStep, ← hanswer, List.countP_append,
      countP_movedObs (f := isConfirmation) fun _ _ => rfl]
    cases (buttonWasPressed s.button s.card.dev sample).1 <;> rfl
  · have hpoll : ∀ sample, e ≠ .poll sample := by
      rintro sample rfl
      cases hother
    rw [buttonStep_untouched hother, button_untouched k s hother, unconfirmed k s e hpoll]
    exact ⟨rfl, rfl⟩

/-- The events of a moment do what the moment does. -/
theorem buttonStep_moment (p : Pin) (m : Moment) :
    exec buttonStep p.button (m.events p.high) = (pinStep p m).1.button ∧
      trace buttonStep p.button (m.events p.high) = (pinStep p m).2.map Answer.pressed := by
  have hhear : exec buttonStep p.button (if p.high = true ∧ m.pinHigh = false then
        [Event.gpioIrq buttonPin m.time] else []) = p.hear m ∧
      trace buttonStep p.button (if p.high = true ∧ m.pinHigh = false then
        [Event.gpioIrq buttonPin m.time] else []) = [] := by
    rw [Pin.hear]
    split <;> exact ⟨rfl, rfl⟩
  rw [Moment.events, exec_append, trace_append, hhear.1, hhear.2, List.nil_append]
  simp only [pinStep]
  cases m.polled with
  | none => exact ⟨rfl, rfl⟩
  | some poll =>
    obtain ⟨d, stamp⟩ := poll
    obtain ⟨hanswer, hbutton⟩ := poll_device (p.hear m) DeviceState.atReset d
      { now := m.time, pinHigh := m.pinHigh, stamp := stamp }
    exact ⟨hbutton, congrArg (fun pressed => [pressed]) hanswer⟩

theorem buttonStep_pin (p : Pin) (ms : List Moment) :
    trace buttonStep p.button (pinEvents p.high ms) = (trace pinStep p ms).map Answer.pressed := by
  induction ms generalizing p with
  | nil => rfl
  | cons m ms ih =>
    obtain ⟨hbutton, hanswers⟩ := buttonStep_moment p m
    have hlevel : (pinStep p m).1.high = m.pinHigh := by
      simp only [pinStep]
      split <;> rfl
    rw [pinEvents, trace_append, hbutton, hanswers, ← hlevel, ih (pinStep p m).1, trace,
      List.map_append]

/-- Whatever else the firmware does: where the events of its button are those of a pin, the
presses it confirms are the polls of that pin that were answered with true. -/
theorem confirmations_of_pin {es : List Event} {level : Bool} {ms : List Moment}
    (hpin : es.filter touchesButton = pinEvents level ms) :
    (trace (step k) s es).countP isConfirmation =
      (trace pinStep { button := s.button, high := level } ms).countP Answer.pressed := by
  have hevents : (trace (step k) s es).countP isConfirmation =
      (trace buttonStep s.button (es.filter touchesButton)).countP id := by
    clear hpin
    induction es generalizing s with
    | nil => rfl
    | cons e es ih =>
      obtain ⟨hbutton, hcount⟩ := buttonStep_firmware k s e
      rw [trace, List.countP_append, hcount, ih (step k s e).1, hbutton]
      cases htouches : touchesButton e with
      | true => rw [List.filter_cons_of_pos htouches, trace, List.countP_append]
      | false =>
        rw [buttonStep_untouched htouches, List.filter_cons_of_neg (by simp [htouches])]
        exact Nat.zero_add _
  rw [hevents, hpin, buttonStep_pin { button := s.button, high := level } ms, List.countP_map]
  rfl

end InFirmware

end PressDebounce
