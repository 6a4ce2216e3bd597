import Ward3n.TracedRuns

/-!
# Programs of a PIO state machine

The part of the instruction set that a transmitter needs: shifting bits out of a
register, jumping, and waiting, each with a level for the side-set pin and a
delay. The output shift register refills itself from the FIFO once enough bits
have left it: in the cycle in which the last of them leaves, or in any later one
in which there is something to take. An `out` that finds it empty stalls.

For the program the register and the FIFO behind it are one queue of bits.
-/

namespace PioProgram

open TracedRuns

/-- What a `jmp` tests. -/
inductive Condition
  | always
  | xZero
  deriving DecidableEq

inductive Op
  /-- `out x, n`, to the left -/
  | out (n : Nat)
  | jmp (condition : Condition) (target : Nat)
  | nop
  deriving DecidableEq

structure Instr where
  op : Op
  side : Bool
  delay : Nat
  deriving DecidableEq

/-- The instructions, where they wrap, after how many bits the register refills, and how many
words wait behind it. -/
structure Program where
  code : List Instr
  wrapTarget : Nat
  wrap : Nat
  threshold : Nat
  depth : Nat

structure Machine where
  pc : Nat
  delay : Nat
  pin : Bool
  x : BitVec 32
  osr : BitVec 32
  count : Nat
  fifo : List (BitVec 32)
  deriving DecidableEq

/-- A state machine that was just initialised: the pin is low, the register is empty. -/
def Machine.init : Machine :=
  { pc := 0, delay := 0, pin := false, x := 0, osr := 0, count := 32, fifo := [] }

/-- Autopull. -/
def refill (p : Program) (m : Machine) : Machine :=
  if p.threshold ≤ m.count then
    match m.fifo with
    | [] => m
    | word :: rest => { m with osr := word, count := 0, fifo := rest }
  else m

def shiftOut (n : Nat) (m : Machine) : Machine :=
  { m with x := m.osr >>> (32 - n), osr := m.osr <<< n, count := min 32 (m.count + n) }

def follow (p : Program) (m : Machine) : Nat := if m.pc = p.wrap then p.wrapTarget else m.pc + 1

/-- An instruction is done: the next one waits for its delay. -/
def retire (i : Instr) (pc : Nat) (m : Machine) : Machine :=
  { m with pc := pc, delay := i.delay, pin := i.side }

def taken (m : Machine) : Condition → Bool
  | .always => true
  | .xZero => decide (m.x = 0)

def execute (p : Program) (i : Instr) (m : Machine) : Machine :=
  match i.op with
  | .out n =>
    if p.threshold ≤ m.count then { m with pin := i.side }
    else retire i (follow p m) (shiftOut n m)
  | .jmp condition target => retire i (if taken m condition then target else follow p m) m
  | .nop => retire i (follow p m) m

/-- One cycle of the state machine. -/
def cycle (p : Program) (m : Machine) : Machine :=
  if 0 < m.delay then refill p { m with delay := m.delay - 1 }
  else
    match p.code[m.pc]? with
    | none => m
    | some i => refill p (execute p i m)

inductive Event
  | cycle
  /-- a word is put into the FIFO, if there is room -/
  | put (word : BitVec 32)

inductive Output
  /-- the level of the pin during a cycle -/
  | level (high : Bool)
  /-- a word went into the FIFO -/
  | accepted (word : BitVec 32)
  deriving DecidableEq

def step (p : Program) (m : Machine) : Event → Machine × List Output
  | .cycle => (cycle p m, [.level (cycle p m).pin])
  | .put word =>
    if m.fifo.length < p.depth then ({ m with fifo := m.fifo ++ [word] }, [.accepted word])
    else (m, [])

/-- The first bits of a word, the highest first. -/
def topBits (n : Nat) (word : BitVec 32) : List Bool := (List.range n).map word.getMsbD

/-- The bits that have yet to be shifted out. -/
def unsent (p : Program) (m : Machine) : List Bool :=
  topBits (p.threshold - m.count) m.osr ++ m.fifo.flatMap (topBits p.threshold)

section Refilling

variable (p : Program) (m : Machine)

@[simp] theorem refill_pc : (refill p m).pc = m.pc := by
  simp only [refill]
  repeat' split
  all_goals rfl

@[simp] theorem refill_delay : (refill p m).delay = m.delay := by
  simp only [refill]
  repeat' split
  all_goals rfl

@[simp] theorem refill_pin : (refill p m).pin = m.pin := by
  simp only [refill]
  repeat' split
  all_goals rfl

@[simp] theorem refill_x : (refill p m).x = m.x := by
  simp only [refill]
  repeat' split
  all_goals rfl

theorem refill_fifo_le : (refill p m).fifo.length ≤ m.fifo.length := by
  simp only [refill]
  split
  · split
    · exact Nat.le_refl _
    · rename_i hfifo
      rw [hfifo]
      exact Nat.le_succ _
  · exact Nat.le_refl _

variable {p m}

theorem refill_empty (hcount : p.threshold ≤ m.count) (hfifo : m.fifo = []) : refill p m = m := by
  simp only [refill, if_pos hcount, hfifo]

theorem refill_fifo_lt (hcount : p.threshold ≤ m.count) (hfifo : m.fifo ≠ []) :
    (refill p m).fifo.length < m.fifo.length := by
  simp only [refill, if_pos hcount]
  cases hlist : m.fifo with
  | nil => exact absurd hlist hfifo
  | cons word rest => exact Nat.lt_succ_self _

theorem refill_full (hcount : m.count < p.threshold) : refill p m = m :=
  if_neg (Nat.not_le.mpr hcount)

/-- The register refills itself at most once. -/
theorem refill_refill (hthreshold : 0 < p.threshold) : refill p (refill p m) = refill p m := by
  rcases Nat.lt_or_ge m.count p.threshold with hfull | hcount
  · rw [refill_full hfull, refill_full hfull]
  cases hfifo : m.fifo with
  | nil => rw [refill_empty hcount hfifo, refill_empty hcount hfifo]
  | cons word rest =>
    have hword : refill p m = { m with osr := word, count := 0, fifo := rest } := by
      simp only [refill, if_pos hcount, hfifo]
    rw [hword]
    exact refill_full hthreshold

theorem refill_with_delay (delay : Nat) :
    refill p { m with delay := delay } = { refill p m with delay := delay } := by
  simp only [refill]
  repeat' split
  all_goals rfl

end Refilling

section Cycles

variable {p : Program} {m : Machine}

theorem cycle_delayed (h : 0 < m.delay) :
    cycle p m = refill p { m with delay := m.delay - 1 } := if_pos h

theorem cycle_execute {i : Instr} (hdelay : m.delay = 0) (hfetch : p.code[m.pc]? = some i) :
    cycle p m = refill p (execute p i m) := by
  have hready : ¬ 0 < m.delay := by omega
  simp only [cycle, if_neg hready, hfetch]

end Cycles

section Queue

variable {p : Program} {m : Machine}

@[simp] theorem topBits_length (n : Nat) (word : BitVec 32) : (topBits n word).length = n := by
  simp [topBits]

@[simp] theorem topBits_zero (word : BitVec 32) : topBits 0 word = [] := rfl

theorem topBits_succ (n : Nat) (word : BitVec 32) :
    topBits (n + 1) word = word.getMsbD 0 :: topBits n (word <<< 1) := by
  simp only [topBits, List.range_succ_eq_map, List.map_cons, List.map_map]
  congr 1
  apply List.map_congr_left
  intro i _
  simp [Function.comp]

/-- Refilling the register moves no bit past another. -/
@[simp] theorem unsent_refill (p : Program) (m : Machine) : unsent p (refill p m) = unsent p m := by
  simp only [refill]
  split
  · rename_i hempty
    cases hfifo : m.fifo with
    | nil => rfl
    | cons word rest => simp [unsent, hfifo, Nat.sub_eq_zero_of_le hempty]
  · rfl

theorem unsent_empty (hcount : p.threshold ≤ m.count) :
    unsent p m = m.fifo.flatMap (topBits p.threshold) := by
  rw [unsent, Nat.sub_eq_zero_of_le hcount, topBits_zero, List.nil_append]

/-- `out x, 1` takes the first bit of the queue. -/
theorem unsent_shiftOut (hsize : p.threshold ≤ 32) (hcount : m.count < p.threshold) :
    unsent p m = m.osr.getMsbD 0 :: unsent p (shiftOut 1 m) := by
  obtain ⟨left, hleft⟩ : ∃ left, p.threshold - m.count = left + 1 :=
    ⟨p.threshold - m.count - 1, by omega⟩
  have hnext : p.threshold - min 32 (m.count + 1) = left := by omega
  simp only [unsent, shiftOut, hnext]
  rw [hleft, topBits_succ, List.cons_append]

/-- After it, x is zero when the bit is. -/
theorem taken_shiftOut (m : Machine) :
    taken (shiftOut 1 m) .xZero = !m.osr.getMsbD 0 := by
  have hmsb : m.osr.getMsbD 0 = decide (2 ^ 31 ≤ m.osr.toNat) := BitVec.msb_eq_decide m.osr
  have hzero : m.osr >>> (32 - 1) = 0 ↔ ¬ 2 ^ 31 ≤ m.osr.toNat := by
    rw [← BitVec.toNat_inj, BitVec.toNat_ushiftRight, Nat.shiftRight_eq_div_pow]
    have hrange := m.osr.isLt
    have hnone : (0 : BitVec 32).toNat = 0 := rfl
    rw [hnone]
    omega
  simp only [taken, shiftOut, hzero, hmsb, decide_not]

theorem unsent_put (word : BitVec 32) :
    unsent p { m with fifo := m.fifo ++ [word] } = unsent p m ++ topBits p.threshold word := by
  simp [unsent]

end Queue

section Delays

variable {p : Program} {m m' : Machine}

/-- Once the register has had its turn, a delay only counts down. -/
theorem trace_delay (hthreshold : 0 < p.threshold) (m : Machine) (delay : Nat) :
    trace (step p) { refill p m with delay := delay } (List.replicate delay .cycle) =
        List.replicate delay (.level m.pin) ∧
      exec (step p) { refill p m with delay := delay } (List.replicate delay .cycle) =
        { refill p m with delay := 0 } := by
  induction delay with
  | zero => exact ⟨rfl, rfl⟩
  | succ delay ih =>
    have hnext : cycle p { refill p m with delay := delay + 1 } =
        { refill p m with delay := delay } := by
      rw [cycle_delayed (Nat.succ_pos delay)]
      simp only [Nat.add_sub_cancel]
      rw [refill_with_delay, refill_refill hthreshold]
    have hstep : step p { refill p m with delay := delay + 1 } .cycle =
        ({ refill p m with delay := delay }, [.level m.pin]) := by
      rw [step, hnext, ← refill_pin p m]
    constructor
    · rw [List.replicate_succ, trace, hstep, ih.1]
      rfl
    · rw [List.replicate_succ, exec, hstep]
      exact ih.2

/-- An instruction and its delay hold the level it sets. -/
theorem trace_instruction (hthreshold : 0 < p.threshold) (h : cycle p m = refill p m') :
    trace (step p) m (List.replicate (m'.delay + 1) .cycle) =
        List.replicate (m'.delay + 1) (.level m'.pin) ∧
      exec (step p) m (List.replicate (m'.delay + 1) .cycle) = { refill p m' with delay := 0 } := by
  have hsame : refill p m' = { refill p m' with delay := m'.delay } := by
    have hdelay := refill_delay p m'
    rw [← hdelay]
  obtain ⟨htrace, hexec⟩ := trace_delay hthreshold m' m'.delay
  rw [← hsame] at htrace hexec
  have hpin : (refill p m').pin = m'.pin := refill_pin p m'
  simp only [List.replicate_succ, trace, exec, step, h, htrace, hexec, hpin]
  exact ⟨rfl, trivial⟩

end Delays

end PioProgram
