import Ward3n.PixelLatch
import Ward3n.StatusLight

/-!
# The light as the LED shows it

The board together with the state machine that drives its LED, and the LED. All
run on: cycles pass between any two events of the board, and `neopixel_set`
blocks the main loop, though not the interrupts, until its word fits into the
FIFO.

What the LED shows are then colours the board set, and they say what the
refreshes say. A callback can put the light out just before a refresh; the LED
passes the second of two colours on that come so close to each other.
-/

namespace SignalOnWire

open TracedRuns CryptoBackend DeviceState PivApplet CcidDriver Firmware SessionGate
  AuthorizationWindow PioProgram PixelWire PixelLatch StatusLight

structure Whole where
  board : Board
  lit : LitLine
  /-- the colours whose `neopixel_set` has not returned -/
  pending : List Colour

inductive WholeEvent
  | board (e : BoardEvent)
  | cycle
  /-- `pio_sm_put_blocking` looks for room again -/
  | retry

/-- What goes on while the main loop is blocked. -/
def interrupts : BoardEvent → Bool
  | .firmware (.gpioIrq _ _) | .firmware (.inRead _) => true
  | _ => false

/-- The call of `neopixel_set` behind an observation -/
def setCall : BoardObservation → Option Colour
  | .refresh c _ _ => some c
  | .putOut => some dark
  | .firmware _ => none

/-- The main loop is entered with the colour of `main` on its way. -/
def bootWhole (reset : Nat) : Whole :=
  { board := bootBoard, lit := (litStep reset .init (.put (sendPixel initRed))).1, pending := [] }

def wholeStep (reset : Nat) (k : Backend) (w : Whole) : WholeEvent → Whole × List BoardObservation
  | .board e =>
    if w.pending = [] ∨ interrupts e = true then
      ({ w with
          board := (boardStep k w.board e).1
          pending := w.pending ++ (boardStep k w.board e).2.filterMap setCall },
        (boardStep k w.board e).2)
    else (w, [])
  | .cycle => ({ w with lit := (litStep reset w.lit .cycle).1 }, [])
  | .retry =>
    match w.pending with
    | [] => (w, [])
    | c :: rest =>
      if w.lit.line.fifo.length < ws2812.depth then
        ({ w with lit := (litStep reset w.lit (.put (sendPixel c))).1, pending := rest }, [])
      else (w, [])

def wholeRun (reset : Nat) (k : Backend) (es : List WholeEvent) : Whole :=
  exec (wholeStep reset k) (bootWhole reset) es

def wholeHistory (reset : Nat) (k : Backend) (es : List WholeEvent) : List BoardObservation :=
  trace (wholeStep reset k) (bootWhole reset) es

/-- What was set, first of all by `main`. -/
def setColours (h : List BoardObservation) : List Colour := initRed :: h.filterMap setCall

/-- A word goes to the line only when the LED is ready for it. -/
def Calm (w : Whole) : WholeEvent → Prop
  | .retry => w.pending = [] ∨ w.lit.Ready
  | .board _ | .cycle => True

section Composition

variable {reset : Nat} {h : List BoardObservation} {w : Whole} {ds : List Drive}

/-- The line was driven with the colours set so far, but for those that wait; the board keeps
its word. -/
structure Driven (reset : Nat) (h : List BoardObservation) (w : Whole) (ds : List Drive) :
    Prop where
  lit : w.lit = exec (litStep reset) .init (ds.map Drive.event)
  colours : colours Machine.init ds ++ w.pending = setColours h
  board : Informed h w.board
  tells : AtEach Tells h

/-- The line takes one more drive. -/
theorem Driven.drive (hdriven : Driven reset h w ds) (d : Drive) {rest : List Colour}
    (htaken : PixelWire.colours w.lit.line [d] ++ rest = w.pending) :
    Driven reset h { w with lit := (litStep reset w.lit d.event).1, pending := rest }
      (ds ++ [d]) := by
  refine ⟨?_, ?_, hdriven.board, hdriven.tells⟩
  · rw [List.map_append, exec_append, ← hdriven.lit]
    rfl
  · have hline : exec (step ws2812) Machine.init (ds.map Drive.event) = w.lit.line := by
      rw [hdriven.lit, exec_line]
      rfl
    rw [← hdriven.colours, colours_append, hline, List.append_assoc, htaken]

theorem Driven.act (hdriven : Driven reset h w ds) (k : Backend) (e : BoardEvent) :
    Driven reset (h ++ (boardStep k w.board e).2)
      { w with
        board := (boardStep k w.board e).1
        pending := w.pending ++ (boardStep k w.board e).2.filterMap setCall } ds := by
  refine ⟨hdriven.lit, ?_, ?_, ?_⟩
  · rw [setColours, List.filterMap_append, ← List.cons_append, ← List.append_assoc,
      hdriven.colours]
    rfl
  · exact informed_step k _ w.board e hdriven.board
  · rw [atEach_append]
    exact ⟨hdriven.tells, tells_step k _ w.board e hdriven.board⟩

/-- What an event of the whole does to the line, calmly if the event is calm. -/
theorem driven_step (k : Backend) (hdriven : Driven reset h w ds) (e : WholeEvent) :
    ∃ more, Driven reset (h ++ (wholeStep reset k w e).2) (wholeStep reset k w e).1 (ds ++ more) ∧
      (Calm w e → AllSteps (litStep reset) Unhurried w.lit (more.map Drive.event)) := by
  cases e with
  | board e =>
    refine ⟨[], ?_, fun _ => trivial⟩
    simp only [wholeStep, List.append_nil]
    split
    · exact hdriven.act k e
    · rw [List.append_nil]
      exact hdriven
  | cycle =>
    refine ⟨[.cycle], ?_, fun _ => ⟨trivial, trivial⟩⟩
    rw [wholeStep, List.append_nil]
    exact hdriven.drive .cycle rfl
  | retry =>
    simp only [wholeStep, Calm]
    cases hpending : w.pending with
    | nil =>
      refine ⟨[], ?_, fun _ => trivial⟩
      rw [List.append_nil, List.append_nil]
      exact hdriven
    | cons c rest =>
      simp only
      split
      · rename_i hroom
        refine ⟨[.set c], ?_, fun hcalm => ⟨hcalm.resolve_left nofun, trivial⟩⟩
        rw [List.append_nil]
        refine hdriven.drive (.set c) ?_
        rw [hpending, PixelWire.colours, if_pos hroom]
        rfl
      · refine ⟨[], ?_, fun _ => trivial⟩
        rw [List.append_nil, List.append_nil]
        exact hdriven

theorem driven_boot : Driven reset [] (bootWhole reset) [.set initRed] :=
  ⟨rfl, rfl, informed_boot, atEach_nil _⟩

theorem driven_run (reset : Nat) (k : Backend) (es : List WholeEvent) :
    ∃ ds, Driven reset (wholeHistory reset k es) (wholeRun reset k es) ds := by
  refine history_invariant (J := fun h w => ∃ ds, Driven reset h w ds) ?_ ⟨_, driven_boot⟩ es
  rintro h w e ⟨ds, hdriven⟩
  obtain ⟨more, hmore, _⟩ := driven_step k hdriven e
  exact ⟨ds ++ more, hmore⟩

/-- A calm run drives its line unhurriedly. -/
theorem calm_run {k : Backend} {es : List WholeEvent}
    (hcalm : AllSteps (wholeStep reset k) Calm (bootWhole reset) es) :
    ∃ ds, Driven reset (wholeHistory reset k es) (wholeRun reset k es) ds ∧
      AllSteps (litStep reset) Unhurried .init (ds.map Drive.event) := by
  refine guarded_history (h := []) (J := fun h w => ∃ ds, Driven reset h w ds ∧
    AllSteps (litStep reset) Unhurried .init (ds.map Drive.event)) ?_ ⟨_, driven_boot, ?_⟩ hcalm
  · rintro h w e hcalm ⟨ds, hdriven, hunhurried⟩
    obtain ⟨more, hmore, hcalmly⟩ := driven_step k hdriven e
    refine ⟨ds ++ more, hmore, ?_⟩
    rw [List.map_append]
    refine allSteps_append.mpr ⟨hunhurried, ?_⟩
    rw [← hdriven.lit]
    exact hcalmly hcalm
  · exact ⟨⟨rfl, rfl⟩, trivial⟩

/-- Cycles by themselves. -/
theorem exec_cycles (k : Backend) (w : Whole) (n : Nat) :
    exec (wholeStep reset k) w (List.replicate n .cycle) =
      { w with lit := exec (litStep reset) w.lit (List.replicate n .cycle) } := by
  induction n generalizing w with
  | zero => rfl
  | succ n ih => exact ih (wholeStep reset k w .cycle).1

/-- The LED is ready when nothing was set for a while. -/
theorem ready_waited (hreset : 7 ≤ reset) (k : Backend) (es : List WholeEvent) {n : Nat}
    (hn : drainCycles + reset ≤ n) :
    (wholeRun reset k (es ++ List.replicate n .cycle)).lit.Ready := by
  obtain ⟨ds, hdriven⟩ := driven_run reset k es
  have hready := ready_drained hreset (ds.map Drive.event) hn
  rw [exec_append, ← hdriven.lit] at hready
  rw [wholeRun, exec_append, exec_cycles]
  exact hready

end Composition

/-- What a colour stands for, once this was observed. -/
def Means (past : List BoardObservation) (c : Colour) : Prop :=
  (c = signal .idle ∧ lastEntered (past.filterMap said) = .idle) ∨
    (c = signal .waitingButton ∧ ∃ t, Entered (past.filterMap said) (.waiting t)) ∨
    (c = signal .authorized ∧ ∃ t, Entered (past.filterMap said) (.authorized t))

section Meaning

theorem means_of_tells {past : List BoardObservation} {c : Colour} {now stamp : Nat}
    (htells : Tells past (.refresh c now stamp)) (hlit : c ≠ dark) : Means past c := by
  rcases htells.2 with ⟨hidle, hc⟩ | ⟨t, hentered, hc⟩ | ⟨t, hentered, hc⟩
  · exact Or.inl ⟨hc, hidle⟩
  · split at hc
    · exact Or.inr (Or.inl ⟨hc, t, hentered⟩)
    · exact absurd hc hlit
  · exact Or.inr (Or.inr ⟨hc, t, hentered⟩)

theorem means_of_set {h : List BoardObservation} (htells : AtEach Tells h) {c : Colour}
    (hset : c ∈ h.filterMap setCall) (hlit : c ≠ dark) : ∃ past, past <+: h ∧ Means past c := by
  obtain ⟨o, ho, hcall⟩ := List.mem_filterMap.mp hset
  obtain ⟨past, later, rfl⟩ := List.append_of_mem ho
  cases o with
  | firmware o => cases hcall
  | putOut => exact absurd (Option.some.inj hcall).symm hlit
  | refresh c' now stamp =>
    cases hcall
    exact ⟨past, List.prefix_append past _, means_of_tells (htells past _ later rfl) hlit⟩

end Meaning

section Waiting

variable {reset n : Nat} {k : Backend} {es : List WholeEvent}

theorem calm_cycles (w : Whole) (n : Nat) :
    AllSteps (wholeStep reset k) Calm w (List.replicate n .cycle) := by
  induction n generalizing w with
  | zero => trivial
  | succ n ih => exact ⟨trivial, ih (wholeStep reset k w .cycle).1⟩

/-- A retry is calm behind a wait. -/
theorem calm_waited (hreset : 7 ≤ reset) (hn : drainCycles + reset ≤ n)
    (hcalm : AllSteps (wholeStep reset k) Calm (bootWhole reset) es) :
    AllSteps (wholeStep reset k) Calm (bootWhole reset)
      (es ++ List.replicate n .cycle ++ [.retry]) := by
  have hready := ready_waited hreset k es hn
  exact allSteps_append.mpr
    ⟨allSteps_append.mpr ⟨hcalm, calm_cycles _ n⟩, Or.inr hready, trivial⟩

/-- It takes one colour, and the board is as it was. -/
theorem waited_run (hreset : 7 ≤ reset) (k : Backend) (es : List WholeEvent)
    (hn : drainCycles + reset ≤ n) :
    ∃ lit, wholeRun reset k (es ++ List.replicate n .cycle ++ [.retry]) =
      { wholeRun reset k es with lit := lit, pending := (wholeRun reset k es).pending.tail } := by
  have hready := ready_waited hreset k es hn
  have hwaited : wholeRun reset k (es ++ List.replicate n .cycle) =
      { wholeRun reset k es with
        lit := (wholeRun reset k (es ++ List.replicate n .cycle)).lit } := by
    rw [wholeRun, exec_append, exec_cycles]
    rfl
  rw [wholeRun, exec_append, ← wholeRun, hwaited]
  generalize (wholeRun reset k (es ++ List.replicate n .cycle)).lit = lit at hready
  generalize wholeRun reset k es = w
  have hroom : lit.line.fifo.length < ws2812.depth := by
    have hwork := hready.1
    simp only [work] at hwork
    have hdepth : ws2812.depth = 8 := rfl
    omega
  simp only [exec, wholeStep]
  cases hpending : w.pending with
  | nil => exact ⟨lit, rfl⟩
  | cons c rest =>
    simp only [if_pos hroom]
    exact ⟨_, rfl⟩

end Waiting

/-- The login, a request and a tick. -/
def requestTicked : List WholeEvent :=
  [.board (.firmware (.bulkOut (hostMessage pcToRdrIccPowerOn []) (ambientAt 10))),
    .board (.firmware (apduAt 11 selectApdu)), .board (.firmware (apduAt 12 verifyApdu)),
    .board (.firmware (apduAt 1000 signApdu)), .board (.neopixelTick 1001 1001)]

/-- Its colour is sent, and that of one more tick, each when the LED is ready. -/
def requestShown : List WholeEvent :=
  requestTicked ++ List.replicate (drainCycles + 400) .cycle ++ [.retry] ++
    [.board (.neopixelTick 500000 500000)] ++ List.replicate (drainCycles + 400) .cycle ++ [.retry]

theorem calm_requestShown :
    AllSteps (wholeStep 400 sampleBackend) Calm (bootWhole 400) requestShown := by
  refine calm_waited (by decide) (Nat.le_refl _) (allSteps_append.mpr ⟨?_, trivial, trivial⟩)
  refine calm_waited (by decide) (Nat.le_refl _) ?_
  exact ⟨trivial, trivial, trivial, trivial, trivial, trivial⟩

theorem pending_requestShown : (wholeRun 400 sampleBackend requestShown).pending = [] := by
  obtain ⟨_, hfirst⟩ := waited_run (by decide : 7 ≤ 400) sampleBackend requestTicked
    (Nat.le_refl (drainCycles + 400))
  obtain ⟨_, hlast⟩ := waited_run (by decide : 7 ≤ 400) sampleBackend
    (requestTicked ++ List.replicate (drainCycles + 400) .cycle ++ [.retry] ++
      [.board (.neopixelTick 500000 500000)]) (Nat.le_refl (drainCycles + 400))
  rw [requestShown, hlast, wholeRun, exec_append, ← wholeRun, hfirst]
  rfl

end SignalOnWire
