import Mathlib.Algebra.GroupWithZero.Nat
import Ward3n.PixelWire

/-!
# The waveform, cycle by cycle

While there are bits to send, the line follows a fixed pattern for each of them.
A one takes the ten cycles that the header of `ws2812.pio` promises for every
bit. A zero rises for two cycles, and is over after eight: the delay of the last
instruction is that of the other low phase.
-/

namespace PixelTiming

open TracedRuns PioProgram PixelWire

/-- The levels of the line. -/
def levels (h : List Output) : List Bool :=
  h.filterMap fun
    | .level high => some high
    | .accepted _ => none

/-- The line while a bit is sent. -/
def waveform : Bool → List Bool
  | true => List.replicate 3 false ++ List.replicate 7 true
  | false => List.replicate 3 false ++ List.replicate 2 true ++ List.replicate 3 false

/-- The cycles for all of them. -/
def duration (bits : List Bool) : Nat := (bits.map fun bit => (waveform bit).length).sum

/-- The next instruction takes a bit, if there is one; the register has had its turn. -/
structure Ready (m : Machine) : Prop where
  pc : m.pc = 0
  delay : m.delay = 0
  settled : refill ws2812 m = m

/-- So many cycles show these levels, and lead there. -/
def Runs (m : Machine) (n : Nat) (shown : List Bool) (m' : Machine) : Prop :=
  levels (trace (step ws2812) m (List.replicate n .cycle)) = shown ∧
    exec (step ws2812) m (List.replicate n .cycle) = m'

section Bits

variable {m m' m'' : Machine} {bit : Bool} {rest : List Bool}

theorem levels_append (h t : List Output) : levels (h ++ t) = levels h ++ levels t :=
  List.filterMap_append

theorem levels_replicate (n : Nat) (high : Bool) :
    levels (List.replicate n (.level high)) = List.replicate n high := by
  induction n with
  | zero => rfl
  | succ n ih => exact congrArg (high :: ·) ih

theorem Runs.trans {n n' : Nat} {shown shown' : List Bool} (h : Runs m n shown m')
    (h' : Runs m' n' shown' m'') : Runs m (n + n') (shown ++ shown') m'' := by
  obtain ⟨hshown, hend⟩ := h
  constructor
  · rw [List.replicate_add, trace_append, levels_append, hshown, hend, h'.1]
  · rw [List.replicate_add, exec_append, hend, h'.2]

/-- An instruction of the program, and its delay. -/
theorem runs_instruction (h : cycle ws2812 m = refill ws2812 m') {n : Nat}
    (hn : m'.delay + 1 = n) :
    Runs m n (List.replicate n m'.pin) { refill ws2812 m' with delay := 0 } := by
  obtain ⟨htrace, hexec⟩ := trace_instruction (p := ws2812) (by decide) h
  rw [hn] at htrace hexec
  exact ⟨by rw [htrace, levels_replicate], hexec⟩

theorem Ready.more (h : Ready m) (hsome : unsent ws2812 m ≠ []) : m.count < 24 := by
  by_contra hempty
  have hempty : ws2812.threshold ≤ m.count := Nat.not_lt.mp hempty
  have hfifo : m.fifo ≠ [] := by
    intro hnone
    rw [unsent_empty hempty, hnone] at hsome
    exact hsome rfl
  have hless := refill_fifo_lt hempty hfifo
  rw [h.settled] at hless
  exact Nat.lt_irrefl _ hless

/-- `out`: the low phase in front of a bit. -/
theorem runs_out (h : Ready m) (hunsent : unsent ws2812 m = bit :: rest) :
    ∃ m', Runs m 3 (List.replicate 3 false) m' ∧ m'.pc = 1 ∧ m'.delay = 0 ∧
      taken m' .xZero = !bit ∧ unsent ws2812 m' = rest := by
  have hmore : m.count < 24 := h.more (by rw [hunsent]; exact List.cons_ne_nil _ _)
  have htake : unsent ws2812 m = m.osr.getMsbD 0 :: unsent ws2812 (shiftOut 1 m) :=
    unsent_shiftOut (by decide) hmore
  obtain ⟨hbit, hrest⟩ := List.cons.inj (hunsent.symm.trans htake)
  refine ⟨_, runs_instruction (cycle_outs h.pc h.delay hmore) rfl, refill_pc _ _, rfl, ?_, ?_⟩
  · rw [hbit, ← taken_shiftOut m]
    simp only [taken, refill_x]
  · rw [hrest]
    exact unsent_refill ws2812 { shiftOut 1 m with pc := 1, delay := 2, pin := false }

/-- `jmp !x`: the high phase of every bit. -/
theorem runs_branch (hpc : m.pc = 1) (hdelay : m.delay = 0) (hx : taken m .xZero = !bit)
    (hunsent : unsent ws2812 m = rest) :
    ∃ m', Runs m 2 (List.replicate 2 true) m' ∧ m'.pc = (if bit then 2 else 3) ∧ m'.delay = 0 ∧
      unsent ws2812 m' = rest := by
  refine ⟨_, runs_instruction (cycle_branches hpc hdelay hx) rfl, refill_pc _ _, rfl, ?_⟩
  rw [← hunsent]
  exact unsent_refill ws2812 { m with pc := if bit then 2 else 3, delay := 1, pin := true }

/-- `do_one` or `do_zero`: the rest of the bit. -/
theorem runs_rest (hpc : m.pc = if bit then 2 else 3) (hdelay : m.delay = 0)
    (hunsent : unsent ws2812 m = rest) :
    ∃ m', Runs m (if bit then 5 else 3) (List.replicate (if bit then 5 else 3) bit) m' ∧
      Ready m' ∧ unsent ws2812 m' = rest := by
  have hsettled : ∀ m' : Machine, refill ws2812 { refill ws2812 m' with delay := 0 } =
      { refill ws2812 m' with delay := 0 } := by
    intro m'
    rw [refill_with_delay, refill_refill (by decide)]
  cases bit with
  | true =>
    refine ⟨_, runs_instruction (cycle_doOne hpc hdelay) rfl, ⟨refill_pc _ _, rfl, hsettled _⟩, ?_⟩
    rw [← hunsent]
    exact unsent_refill ws2812 { m with pc := 0, delay := 4, pin := true }
  | false =>
    refine ⟨_, runs_instruction (cycle_doZero hpc hdelay) rfl, ⟨refill_pc _ _, rfl, hsettled _⟩, ?_⟩
    rw [← hunsent]
    exact unsent_refill ws2812 { m with pc := 0, delay := 2, pin := false }

/-- One bit: its waveform, and the queue without it. -/
theorem runs_bit (h : Ready m) (hunsent : unsent ws2812 m = bit :: rest) :
    ∃ m', Runs m (waveform bit).length (waveform bit) m' ∧ Ready m' ∧ unsent ws2812 m' = rest := by
  obtain ⟨m₁, hout, hpc₁, hdelay₁, hx, hrest₁⟩ := runs_out h hunsent
  obtain ⟨m₂, hbranch, hpc₂, hdelay₂, hrest₂⟩ := runs_branch hpc₁ hdelay₁ hx hrest₁
  obtain ⟨m₃, hlast, hready, hrest₃⟩ := runs_rest hpc₂ hdelay₂ hrest₂
  refine ⟨m₃, ?_, hready, hrest₃⟩
  have hall := (hout.trans hbranch).trans hlast
  cases bit <;> exact hall

end Bits

/-- As long as there are bits, they follow one another without a gap, across the words of the
FIFO, each with its waveform. -/
theorem queue_waveform {m : Machine} (h : Ready m) :
    ∃ m', Runs m (duration (unsent ws2812 m)) ((unsent ws2812 m).flatMap waveform) m' ∧
      Ready m' ∧ unsent ws2812 m' = [] := by
  generalize hbits : unsent ws2812 m = bits
  induction bits generalizing m with
  | nil => exact ⟨m, ⟨rfl, rfl⟩, h, hbits⟩
  | cons bit bits ih =>
    obtain ⟨m₁, hfirst, hready, hrest⟩ := runs_bit h hbits
    obtain ⟨m₂, hothers, hend, hnone⟩ := ih hready hrest
    refine ⟨m₂, ?_, hend, hnone⟩
    have hall := hfirst.trans hothers
    simpa [duration] using hall

/-- Calls of `neopixel_set`. -/
def puts (cs : List Colour) : List Event := cs.map fun c => .put (sendPixel c)

section Colours

variable {m : Machine}

/-- Words for which there is room wait in the FIFO, and the line does not notice. -/
theorem runs_puts (m : Machine) (cs : List Colour) (hroom : m.fifo.length + cs.length ≤ 8) :
    exec (step ws2812) m (puts cs) = { m with fifo := m.fifo ++ cs.map sendPixel } ∧
      levels (trace (step ws2812) m (puts cs)) = [] := by
  induction cs generalizing m with
  | nil => exact ⟨by rw [List.map_nil, List.append_nil]; rfl, rfl⟩
  | cons c cs ih =>
    rw [List.length_cons] at hroom
    have hput : step ws2812 m (.put (sendPixel c)) =
        ({ m with fifo := m.fifo ++ [sendPixel c] }, [.accepted (sendPixel c)]) :=
      if_pos (show m.fifo.length < 8 by omega)
    obtain ⟨hexec, hlevels⟩ := ih { m with fifo := m.fifo ++ [sendPixel c] }
      (by simp only [List.length_append, List.length_singleton]; omega)
    constructor
    · rw [puts, List.map_cons, exec, hput, ← puts, hexec]
      simp
    · rw [puts, List.map_cons, trace, hput, ← puts, levels_append, hlevels]
      rfl

theorem unsent_colours (hempty : 24 ≤ m.count) (cs : List Colour) :
    unsent ws2812 { m with fifo := cs.map sendPixel } = cs.flatMap colourBits := by
  have hcolours : (cs.map sendPixel).flatMap (topBits 24) = cs.flatMap colourBits := by
    rw [List.flatMap_map]
    congr 1
    funext c
    exact topBits_sendPixel c
  rw [← hcolours]
  exact unsent_empty (m := { m with fifo := cs.map sendPixel }) hempty

/-- The cycle in which the register takes the first word of a resting line. -/
theorem runs_wake (h : Resting m) (hempty : 24 ≤ m.count) (words : List (BitVec 32)) :
    ∃ m', Runs { m with fifo := words } 1 [false] m' ∧ Ready m' ∧
      unsent ws2812 m' = unsent ws2812 { m with fifo := words } := by
  have hcycle : cycle ws2812 { m with fifo := words } =
      refill ws2812 { m with fifo := words, pin := false } :=
    cycle_stalls h.pc h.delay hempty
  refine ⟨_, runs_instruction hcycle (by simp only [h.delay]), ⟨?_, rfl, ?_⟩, ?_⟩
  · exact (refill_pc _ _).trans h.pc
  · rw [refill_with_delay, refill_refill (by decide)]
  · exact unsent_refill ws2812 { m with fifo := words, pin := false }

end Colours

/-- Colours set while the line rests, after any run: one low cycle, and then exactly the waveforms
of their bits, green before red before blue, each with the highest bit first. -/
theorem colours_waveform (es : List Event) (hrest : work (exec (step ws2812) Machine.init es) = 0)
    {cs : List Colour} (hroom : cs.length ≤ 8) :
    levels (trace (step ws2812) (exec (step ws2812) Machine.init es)
        (puts cs ++ List.replicate (1 + duration (cs.flatMap colourBits)) .cycle)) =
      false :: (cs.flatMap colourBits).flatMap waveform := by
  obtain ⟨_, _, _, hplace, _, _⟩ := onWire_run es
  generalize exec (step ws2812) Machine.init es = m at hrest hplace
  have hresting := (resting_of_work hplace hrest).1
  have hempty : 24 ≤ m.count := hresting.count
  obtain ⟨hexec, hquiet⟩ := runs_puts m cs (by rw [hresting.fifo]; simpa using hroom)
  rw [hresting.fifo, List.nil_append] at hexec
  obtain ⟨m₁, hwake, hready, hqueue⟩ := runs_wake hresting hempty (cs.map sendPixel)
  obtain ⟨m₂, hsend, _, _⟩ := queue_waveform hready
  rw [hqueue, unsent_colours hempty] at hsend
  rw [trace_append, levels_append, hquiet, hexec, List.nil_append, (hwake.trans hsend).1]
  rfl

/-- Yellow was sent, and the line came to rest. -/
def afterYellow : List Event :=
  [.put (sendPixel ⟨80, 60, 0⟩)] ++ List.replicate drainCycles .cycle

/-- Green and dark, one right behind the other -/
theorem colours_waveform_behind_yellow :
    levels (trace (step ws2812) (exec (step ws2812) Machine.init afterYellow)
        (puts [⟨0, 60, 0⟩, ⟨0, 0, 0⟩] ++
          List.replicate (1 + duration ([⟨0, 60, 0⟩, ⟨0, 0, 0⟩].flatMap colourBits)) .cycle)) =
      false :: ([⟨0, 60, 0⟩, ⟨0, 0, 0⟩].flatMap colourBits).flatMap waveform :=
  colours_waveform afterYellow (work_drained _ (Nat.le_refl _)) (Nat.le_of_ble_eq_true rfl)

end PixelTiming
