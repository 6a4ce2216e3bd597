import Ward3n.FairProgress
import Ward3n.PioProgram

/-!
# The wire to the LED

The program of `ws2812.pio` on the state machine that `neopixel_init` sets up,
with the words that `_send_pixel` puts into its FIFO. At the other end of the
wire a receiver measures how long the line is high. Words come at any moment;
between two words the line may rest for as long as it takes.
-/

namespace PixelWire

open TracedRuns FairProgress PioProgram

/-- `ws2812`: `out`, `jmp`, `do_one` and `do_zero`, with the register set up by
`ws2812_program_init`. -/
def ws2812 : Program where
  code := [⟨.out 1, false, 2⟩, ⟨.jmp .xZero 3, true, 1⟩, ⟨.jmp .always 0, true, 4⟩,
    ⟨.nop, false, 2⟩]
  wrapTarget := 0
  wrap := 3
  threshold := 24
  depth := 8

structure Colour where
  red : UInt8
  green : UInt8
  blue : UInt8
  deriving DecidableEq

/-- The word of `_send_pixel`. -/
def sendPixel (c : Colour) : BitVec 32 :=
  (c.green.toBitVec.setWidth 32 <<< 24) ||| (c.red.toBitVec.setWidth 32 <<< 16) |||
    (c.blue.toBitVec.setWidth 32 <<< 8)

/-- What is known of the line: for how long it has been high, and the lengths of the pulses. -/
structure Receiver where
  high : Nat
  pulses : List Nat
  deriving DecidableEq

def Receiver.hear (r : Receiver) : Output → Receiver
  | .level true => { r with high := r.high + 1 }
  | .level false => if r.high = 0 then r else { high := 0, pulses := r.pulses ++ [r.high] }
  | .accepted _ => r

def heard (h : List Output) : Receiver := h.foldl Receiver.hear { high := 0, pulses := [] }

/-- The cycles for which a bit holds the line high. -/
def pulse (bit : Bool) : Nat := if bit then 7 else 2

/-- The words that went into the FIFO. -/
def acceptedWords (h : List Output) : List (BitVec 32) :=
  h.filterMap fun
    | .accepted word => some word
    | .level _ => none

/-- Where the program is: the bit whose pulse is not over, and for how long the line has been
high for it. -/
inductive Place (m : Machine) : List Bool → Nat → Prop
  | idle (hpc : m.pc = 0) (hpin : m.pin = false) (hdelay : m.delay ≤ 2) : Place m [] 0
  | start {bit : Bool} (hpc : m.pc = 1) (hpin : m.pin = false) (hdelay : m.delay ≤ 2)
      (hx : taken m .xZero = !bit) : Place m [bit] 0
  | doOne {high : Nat} (hpc : m.pc = 2) (hpin : m.pin = true) (hdelay : m.delay ≤ 1)
      (hhigh : high + m.delay = 2) : Place m [true] high
  | doZero {high : Nat} (hpc : m.pc = 3) (hpin : m.pin = true) (hdelay : m.delay ≤ 1)
      (hhigh : high + m.delay = 2) : Place m [false] high
  | last {high : Nat} (hpc : m.pc = 0) (hpin : m.pin = true) (hdelay : m.delay ≤ 4)
      (hhigh : high + m.delay = 7) : Place m [true] high

/-- What a cycle does for the receiver: it ends the pulses of the bits `done`. -/
structure Transmits (m m' : Machine) (wire : List Bool) (high : Nat) (done wire' : List Bool)
    (high' : Nat) : Prop where
  place : Place m' wire' high'
  heard : ∀ pulses, Receiver.hear { high := high, pulses := pulses } (.level m'.pin) =
    { high := high', pulses := pulses ++ done.map pulse }
  queue : wire ++ unsent ws2812 m = done ++ wire' ++ unsent ws2812 m'

section Instructions

variable {m : Machine}

theorem cycle_stalls (hpc : m.pc = 0) (hdelay : m.delay = 0) (hempty : 24 ≤ m.count) :
    cycle ws2812 m = refill ws2812 { m with pin := false } := by
  have hfetch : ws2812.code[m.pc]? = some ⟨.out 1, false, 2⟩ := by rw [hpc]; rfl
  rw [cycle_execute hdelay hfetch]
  exact congrArg (refill ws2812) (if_pos hempty)

theorem cycle_outs (hpc : m.pc = 0) (hdelay : m.delay = 0) (hmore : m.count < 24) :
    cycle ws2812 m = refill ws2812 { shiftOut 1 m with pc := 1, delay := 2, pin := false } := by
  have hfetch : ws2812.code[m.pc]? = some ⟨.out 1, false, 2⟩ := by rw [hpc]; rfl
  have hnext : follow ws2812 m = 1 := by rw [follow, hpc]; rfl
  rw [cycle_execute hdelay hfetch]
  refine congrArg (refill ws2812) ((if_neg (Nat.not_le.mpr hmore)).trans ?_)
  rw [retire, hnext]

theorem cycle_branches {bit : Bool} (hpc : m.pc = 1) (hdelay : m.delay = 0)
    (hx : taken m .xZero = !bit) :
    cycle ws2812 m =
      refill ws2812 { m with pc := if bit then 2 else 3, delay := 1, pin := true } := by
  have hfetch : ws2812.code[m.pc]? = some ⟨.jmp .xZero 3, true, 1⟩ := by rw [hpc]; rfl
  have hnext : follow ws2812 m = 2 := by rw [follow, hpc]; rfl
  rw [cycle_execute hdelay hfetch]
  simp only [execute, hx, hnext, retire]
  cases bit <;> rfl

theorem cycle_doOne (hpc : m.pc = 2) (hdelay : m.delay = 0) :
    cycle ws2812 m = refill ws2812 { m with pc := 0, delay := 4, pin := true } := by
  have hfetch : ws2812.code[m.pc]? = some ⟨.jmp .always 0, true, 4⟩ := by rw [hpc]; rfl
  rw [cycle_execute hdelay hfetch]
  rfl

theorem cycle_doZero (hpc : m.pc = 3) (hdelay : m.delay = 0) :
    cycle ws2812 m = refill ws2812 { m with pc := 0, delay := 2, pin := false } := by
  have hfetch : ws2812.code[m.pc]? = some ⟨.nop, false, 2⟩ := by rw [hpc]; rfl
  have hnext : follow ws2812 m = 0 := by rw [follow, hpc]; rfl
  rw [cycle_execute hdelay hfetch]
  simp only [execute, retire, hnext]

end Instructions

section Cycles

variable {m : Machine} {wire : List Bool} {high : Nat}

theorem Place.low (h : Place m wire high) (hpin : m.pin = false) : high = 0 := by
  cases h with
  | idle | start => rfl
  | doOne _ hhigh | doZero _ hhigh | last _ hhigh =>
    rw [hpin] at hhigh
    cases hhigh

theorem Place.idle_wire (h : Place m wire high) (hpc : m.pc = 0) (hpin : m.pin = false) :
    wire = [] := by
  cases h with
  | idle => rfl
  | start hno | doOne hno | doZero hno =>
    rw [hpc] at hno
    cases hno
  | last _ hno =>
    rw [hpin] at hno
    cases hno

/-- The state of the program is all that matters for its place. -/
theorem Place.congr {m' : Machine} (h : Place m wire high) (hpc : m'.pc = m.pc)
    (hpin : m'.pin = m.pin) (hdelay : m'.delay = m.delay) (hx : m'.x = m.x) :
    Place m' wire high := by
  cases h with
  | idle h1 h2 h3 => exact .idle (hpc.trans h1) (hpin.trans h2) (hdelay ▸ h3)
  | start h1 h2 h3 h4 =>
    refine .start (hpc.trans h1) (hpin.trans h2) (hdelay ▸ h3) ?_
    simpa only [taken, hx] using h4
  | doOne h1 h2 h3 h4 => exact .doOne (hpc.trans h1) (hpin.trans h2) (hdelay ▸ h3) (hdelay ▸ h4)
  | doZero h1 h2 h3 h4 => exact .doZero (hpc.trans h1) (hpin.trans h2) (hdelay ▸ h3) (hdelay ▸ h4)
  | last h1 h2 h3 h4 => exact .last (hpc.trans h1) (hpin.trans h2) (hdelay ▸ h3) (hdelay ▸ h4)

theorem Place.refilled (h : Place m wire high) : Place (refill ws2812 m) wire high :=
  h.congr (refill_pc _ _) (refill_pin _ _) (refill_delay _ _) (refill_x _ _)

/-- A cycle that a delay takes. -/
theorem waits (hplace : Place m wire high) (hdelay : 0 < m.delay) :
    ∃ high', Transmits m (cycle ws2812 m) wire high [] wire high' := by
  rw [cycle_delayed hdelay]
  refine ⟨if m.pin then high + 1 else high, Place.refilled ?_, fun pulses => ?_, ?_⟩
  · cases hplace with
    | idle hpc hlow hshort =>
      simp only [hlow]
      exact .idle hpc rfl (by simp only; omega)
    | start hpc hlow hshort hx =>
      simp only [hlow]
      exact .start hpc rfl (by simp only; omega) hx
    | doOne hpc hhigh hshort hsum =>
      simp only [hhigh]
      exact .doOne hpc rfl (by simp only; omega) (by simp only [if_true]; omega)
    | doZero hpc hhigh hshort hsum =>
      simp only [hhigh]
      exact .doZero hpc rfl (by simp only; omega) (by simp only [if_true]; omega)
    | last hpc hhigh hshort hsum =>
      simp only [hhigh]
      exact .last hpc rfl (by simp only; omega) (by simp only [if_true]; omega)
  · rw [refill_pin]
    cases hpin : m.pin with
    | false =>
      have hnone := hplace.low hpin
      simp [Receiver.hear, hnone]
    | true => simp [Receiver.hear]
  · rw [unsent_refill]
    rfl

/-- The `out` at the start of a bit ends the pulse of the bit before it, whether there is a
bit to take or not. -/
theorem outs {pulsing : List Bool} (hpc : m.pc = 0) (hdelay : m.delay = 0)
    (hpulse : ∀ pulses, Receiver.hear { high := high, pulses := pulses } (.level false) =
      { high := 0, pulses := pulses ++ pulsing.map pulse }) :
    ∃ wire', Transmits m (cycle ws2812 m) pulsing high pulsing wire' 0 := by
  rcases Nat.lt_or_ge m.count 24 with hmore | hempty
  · have htake : unsent ws2812 m = m.osr.getMsbD 0 :: unsent ws2812 (shiftOut 1 m) :=
      unsent_shiftOut (by decide) hmore
    rw [cycle_outs hpc hdelay hmore]
    refine ⟨[m.osr.getMsbD 0], Place.refilled (.start rfl rfl (Nat.le_refl 2) ?_),
      fun pulses => ?_, ?_⟩
    · exact taken_shiftOut m
    · rw [refill_pin]
      exact hpulse pulses
    · rw [unsent_refill, htake, List.append_assoc]
      rfl
  · rw [cycle_stalls hpc hdelay hempty]
    refine ⟨[], Place.refilled (.idle hpc rfl (by simp only; omega)), fun pulses => ?_, ?_⟩
    · rw [refill_pin]
      exact hpulse pulses
    · rw [unsent_refill, List.append_nil]
      rfl

/-- The cycles in which an instruction begins. -/
theorem executes (hplace : Place m wire high) (hdelay : m.delay = 0) :
    ∃ done wire' high', Transmits m (cycle ws2812 m) wire high done wire' high' := by
  cases hplace with
  | idle hpc hpin _ =>
    obtain ⟨wire', h⟩ : ∃ wire', Transmits m (cycle ws2812 m) [] 0 [] wire' 0 :=
      outs hpc hdelay fun pulses => by simp [Receiver.hear]
    exact ⟨[], wire', 0, h⟩
  | last hpc hpin _ hsum =>
    have hseven : high = 7 := by omega
    obtain ⟨wire', h⟩ : ∃ wire', Transmits m (cycle ws2812 m) [true] high [true] wire' 0 :=
      outs hpc hdelay fun pulses => by simp [Receiver.hear, hseven, pulse]
    exact ⟨[true], wire', 0, h⟩
  | @start bit hpc hpin _ hx =>
    rw [cycle_branches hpc hdelay hx]
    refine ⟨[], [bit], 1, Place.refilled ?_, fun pulses => ?_, ?_⟩
    · cases bit with
      | false => exact .doZero rfl rfl (Nat.le_refl 1) rfl
      | true => exact .doOne rfl rfl (Nat.le_refl 1) rfl
    · rw [refill_pin]
      simp [Receiver.hear]
    · rw [unsent_refill]
      rfl
  | doOne hpc hpin _ hsum =>
    rw [cycle_doOne hpc hdelay]
    refine ⟨[], [true], high + 1, Place.refilled (.last rfl rfl (Nat.le_refl 4) ?_),
      fun pulses => ?_, ?_⟩
    · simp only
      omega
    · rw [refill_pin]
      simp [Receiver.hear]
    · rw [unsent_refill]
      rfl
  | doZero hpc hpin _ hsum =>
    have htwo : high = 2 := by omega
    rw [cycle_doZero hpc hdelay]
    refine ⟨[false], [], 0, Place.refilled (.idle rfl rfl (Nat.le_refl 2)), fun pulses => ?_, ?_⟩
    · rw [refill_pin]
      simp [Receiver.hear, htwo, pulse]
    · rw [unsent_refill]
      rfl

theorem transmits (hplace : Place m wire high) :
    ∃ done wire' high', Transmits m (cycle ws2812 m) wire high done wire' high' := by
  rcases Nat.eq_zero_or_pos m.delay with hdelay | hdelay
  · exact executes hplace hdelay
  · obtain ⟨high', h⟩ := waits hplace hdelay
    exact ⟨[], wire, high', h⟩

end Cycles

/-- The pulses heard are those of the bits that are through; the bits of the words put into the
FIFO are those, the one on the wire, and those that wait. -/
def OnWire (h : List Output) (m : Machine) : Prop :=
  ∃ sent wire high, Place m wire high ∧
    heard h = { high := high, pulses := sent.map pulse } ∧
    (acceptedWords h).flatMap (topBits 24) = sent ++ wire ++ unsent ws2812 m

section Runs

theorem heard_append (h t : List Output) : heard (h ++ t) = t.foldl Receiver.hear (heard h) :=
  List.foldl_append

theorem acceptedWords_append (h t : List Output) :
    acceptedWords (h ++ t) = acceptedWords h ++ acceptedWords t := List.filterMap_append

theorem onWire_step (h : List Output) (m : Machine) (e : Event) (hwire : OnWire h m) :
    OnWire (h ++ (step ws2812 m e).2) (step ws2812 m e).1 := by
  obtain ⟨sent, wire, high, hplace, hheard, hbits⟩ := hwire
  cases e with
  | cycle =>
    obtain ⟨done, wire', high', hplace', hhears, hqueue⟩ := transmits hplace
    refine ⟨sent ++ done, wire', high', hplace', ?_, ?_⟩
    · simp only [step, heard_append, hheard, List.foldl_cons, List.foldl_nil, hhears,
        List.map_append]
    · have hnone : acceptedWords [.level (cycle ws2812 m).pin] = [] := rfl
      simp only [step, acceptedWords_append, hnone, List.append_nil]
      rw [hbits, List.append_assoc, hqueue, List.append_assoc, List.append_assoc, List.append_assoc]
  | put word =>
    simp only [step]
    split
    · refine ⟨sent, wire, high, hplace.congr rfl rfl rfl rfl, ?_, ?_⟩
      · rw [heard_append, hheard]
        rfl
      · have hone : acceptedWords [.accepted word] = [word] := rfl
        rw [acceptedWords_append, hone, List.flatMap_append, hbits, unsent_put]
        simp [ws2812]
    · rw [List.append_nil]
      exact ⟨sent, wire, high, hplace, hheard, hbits⟩

theorem onWire_init : OnWire [] Machine.init :=
  ⟨[], [], 0, .idle rfl rfl (Nat.zero_le 2), rfl, rfl⟩

/-- Whenever the words come, the bits on the wire are theirs, in order. -/
theorem onWire_run (es : List Event) :
    OnWire (trace (step ws2812) Machine.init es) (exec (step ws2812) Machine.init es) :=
  history_invariant onWire_step onWire_init es

end Runs

/-- The number a byte's bits stand for, the highest first. -/
def byteOf (bits : List Bool) : UInt8 :=
  UInt8.ofNat (bits.foldl (fun n bit => 2 * n + bit.toNat) 0)

/-- Green comes first, then red and blue. -/
def colourOf (bits : List Bool) : Colour :=
  { red := byteOf ((bits.drop 8).take 8), green := byteOf (bits.take 8),
    blue := byteOf (bits.drop 16) }

section Colours

/-- The bits of a byte, the highest first. -/
def byteBits (b : UInt8) : List Bool := (List.range 8).map b.toBitVec.getMsbD

/-- The bits of a colour, as they are sent. -/
def colourBits (c : Colour) : List Bool := byteBits c.green ++ byteBits c.red ++ byteBits c.blue

theorem byteOf_byteBits (b : UInt8) : byteOf (byteBits b) = b := by
  have hall : ∀ n < 256, byteOf (byteBits (UInt8.ofNat n)) = UInt8.ofNat n := by decide +kernel
  have hb := hall b.toNat b.toNat_lt
  rwa [UInt8.ofNat_toNat] at hb

/-- The word holds the three bytes behind one another; its last eight bits are never sent. -/
theorem topBits_sendPixel (c : Colour) : topBits 24 (sendPixel c) = colourBits c := by
  have hrange : List.range 24 =
      List.range 8 ++ (List.range 8).map (· + 8) ++ (List.range 8).map (· + 16) := rfl
  rw [topBits, colourBits, hrange, List.map_append, List.map_append, List.map_map, List.map_map]
  have hgreen : ∀ i < 8, (sendPixel c).getMsbD i = c.green.toBitVec.getMsbD i := by
    intro i hi
    simp [sendPixel, show ¬ 24 ≤ i + 16 by omega, show ¬ 24 ≤ i + 8 by omega]
  have hred : ∀ i < 8, (sendPixel c).getMsbD (i + 8) = c.red.toBitVec.getMsbD i := by
    intro i hi
    simp [sendPixel, show ¬ 8 ≤ i by omega]
  have hblue : ∀ i < 8, (sendPixel c).getMsbD (i + 16) = c.blue.toBitVec.getMsbD i := by
    intro i hi
    simp [sendPixel]
  congr 1
  · congr 1
    · exact List.map_congr_left fun i hi => hgreen i (List.mem_range.mp hi)
    · exact List.map_congr_left fun i hi => hred i (List.mem_range.mp hi)
  · exact List.map_congr_left fun i hi => hblue i (List.mem_range.mp hi)

/-- The word of a colour is read back as the colour. -/
theorem colourOf_sendPixel (c : Colour) : colourOf (topBits 24 (sendPixel c)) = c := by
  have hlen : ∀ b, (byteBits b).length = 8 := fun b => by simp [byteBits]
  have hgreen : (byteBits c.green ++ byteBits c.red ++ byteBits c.blue).take 8 =
      byteBits c.green := by
    rw [List.append_assoc, List.take_left' (hlen _)]
  have hrest : (byteBits c.green ++ byteBits c.red ++ byteBits c.blue).drop 8 =
      byteBits c.red ++ byteBits c.blue := by
    rw [List.append_assoc, List.drop_left' (hlen _)]
  have hblue : (byteBits c.green ++ byteBits c.red ++ byteBits c.blue).drop 16 =
      byteBits c.blue := List.drop_left' (by rw [List.length_append, hlen, hlen])
  rw [topBits_sendPixel, colourBits, colourOf, hgreen, hrest, hblue, List.take_left' (hlen _),
    byteOf_byteBits, byteOf_byteBits, byteOf_byteBits]

end Colours

/-- What drives the wire: the clock of the state machine, and the calls of `neopixel_set`. -/
inductive Drive
  | cycle
  | set (c : Colour)

def Drive.event : Drive → Event
  | .cycle => .cycle
  | .set c => .put (sendPixel c)

/-- The colours whose words went into the FIFO. A call that finds no room there waits, and is
made again. -/
def colours : Machine → List Drive → List Colour
  | _, [] => []
  | m, .cycle :: ds => colours (step ws2812 m .cycle).1 ds
  | m, .set c :: ds =>
    (if m.fifo.length < ws2812.depth then [c] else []) ++
      colours (step ws2812 m (.put (sendPixel c))).1 ds

/-- How long an instruction takes until the line rests. -/
def rank (m : Machine) : Nat :=
  if m.pc = 0 then if m.pin then m.delay + 1 else m.delay
  else if m.pc = 1 then m.delay + 8
  else if m.pc = 2 then m.delay + 6
  else m.delay + 3

/-- The work that is left before the line rests for good. -/
def work (m : Machine) : Nat := rank m + 11 * (unsent ws2812 m).length + m.fifo.length

section Liveness

variable {m : Machine} {wire : List Bool} {high : Nat}

theorem rank_refill (m : Machine) : rank (refill ws2812 m) = rank m := by
  simp only [rank, refill_pc, refill_pin, refill_delay]

theorem work_refill_le (m : Machine) : work (refill ws2812 m) ≤ work m := by
  have hfifo := refill_fifo_le ws2812 m
  simp only [work, rank_refill, unsent_refill]
  omega

/-- Where the next bit begins: a bit is taken, or a word, or the line comes to rest. -/
theorem work_out (hpc : m.pc = 0) (hdelay : m.delay = 0) (hwork : 0 < work m) :
    work (cycle ws2812 m) < work m := by
  rcases Nat.lt_or_ge m.count 24 with hmore | hempty
  · have htake : unsent ws2812 m = m.osr.getMsbD 0 :: unsent ws2812 (shiftOut 1 m) :=
      unsent_shiftOut (by decide) hmore
    have hqueue : unsent ws2812 { shiftOut 1 m with pc := 1, delay := 2, pin := false } =
        unsent ws2812 (shiftOut 1 m) := rfl
    rw [cycle_outs hpc hdelay hmore]
    refine Nat.lt_of_le_of_lt (work_refill_le _) ?_
    simp only [work, rank, htake, hqueue, List.length_cons]
    simp only [shiftOut, Nat.one_ne_zero, if_false, if_true]
    omega
  · have hqueue : unsent ws2812 { m with pin := false } = unsent ws2812 m := rfl
    have hrest : rank { m with pin := false } = 0 := by simp [rank, hpc, hdelay]
    rw [cycle_stalls hpc hdelay hempty]
    cases hpin : m.pin with
    | true =>
      have hrank : rank m = 1 := by simp [rank, hpc, hpin, hdelay]
      refine Nat.lt_of_le_of_lt (work_refill_le _) ?_
      simp only [work, hqueue, hrest, hrank]
      omega
    | false =>
      have hrank : rank m = 0 := by simp [rank, hpc, hpin, hdelay]
      have hsome : m.fifo ≠ [] := by
        intro hnone
        simp [work, hrank, unsent_empty (p := ws2812) hempty, hnone] at hwork
      have hfewer : (refill ws2812 { m with pin := false }).fifo.length < m.fifo.length :=
        refill_fifo_lt (p := ws2812) (m := { m with pin := false }) hempty hsome
      simp only [work, rank_refill, unsent_refill, hqueue, hrest, hrank]
      omega

/-- A cycle does some of the work, as long as there is any. -/
theorem work_cycle (hplace : Place m wire high) (hwork : 0 < work m) :
    work (cycle ws2812 m) < work m := by
  rcases Nat.eq_zero_or_pos m.delay with hdelay | hdelay
  · cases hplace with
    | idle hpc | last hpc => exact work_out hpc hdelay hwork
    | @start bit hpc _ _ hx =>
      rw [cycle_branches hpc hdelay hx]
      refine Nat.lt_of_le_of_lt (work_refill_le _) ?_
      have hqueue : unsent ws2812 { m with pc := if bit then 2 else 3, delay := 1, pin := true } =
          unsent ws2812 m := rfl
      simp only [work, rank, hqueue, hpc, hdelay]
      cases bit <;> simp
    | doOne hpc =>
      rw [cycle_doOne hpc hdelay]
      refine Nat.lt_of_le_of_lt (work_refill_le _) ?_
      have hqueue : unsent ws2812 { m with pc := 0, delay := 4, pin := true } =
          unsent ws2812 m := rfl
      simp only [work, rank, hqueue, hpc, hdelay]
      simp
    | doZero hpc =>
      rw [cycle_doZero hpc hdelay]
      refine Nat.lt_of_le_of_lt (work_refill_le _) ?_
      have hqueue : unsent ws2812 { m with pc := 0, delay := 2, pin := false } =
          unsent ws2812 m := rfl
      simp only [work, rank, hqueue, hpc, hdelay]
      simp
  · rw [cycle_delayed hdelay]
    refine Nat.lt_of_le_of_lt (work_refill_le _) ?_
    have hqueue : unsent ws2812 { m with delay := m.delay - 1 } = unsent ws2812 m := rfl
    simp only [work, rank, hqueue]
    split <;> [split; (split <;> [skip; split])] <;> omega

/-- With the work done the line rests, and nothing waits. -/
structure Resting (m : Machine) : Prop where
  pc : m.pc = 0
  pin : m.pin = false
  delay : m.delay = 0
  unsent : unsent ws2812 m = []
  fifo : m.fifo = []

theorem resting_of_work (hplace : Place m wire high) (hwork : work m = 0) :
    Resting m ∧ wire = [] := by
  have hrank : rank m = 0 := by
    simp only [work] at hwork
    omega
  have hunsent : unsent ws2812 m = [] := by
    apply List.length_eq_zero_iff.mp
    simp only [work] at hwork
    omega
  have hfifo : m.fifo = [] := by
    apply List.length_eq_zero_iff.mp
    simp only [work] at hwork
    omega
  cases hplace with
  | idle hpc hpin =>
    simp only [rank, hpc, hpin, if_true, Bool.false_eq_true, if_false] at hrank
    exact ⟨⟨hpc, hpin, hrank, hunsent, hfifo⟩, rfl⟩
  | start hpc | doOne hpc | doZero hpc | last hpc hpin =>
    simp_all [rank]

theorem Resting.count (h : Resting m) : 24 ≤ m.count := by
  by_contra hmore
  have htake := unsent_shiftOut (p := ws2812) (m := m) (by decide) (Nat.not_le.mp hmore)
  rw [h.unsent] at htake
  cases htake

theorem Resting.cycle (h : Resting m) : cycle ws2812 m = m := by
  have hempty := h.count
  have hsame : { m with pin := false } = m := by rw [← h.pin]
  rw [cycle_stalls h.pc h.delay hempty, hsame]
  exact refill_empty (p := ws2812) hempty h.fifo

/-- Cycles alone finish the work. -/
theorem line_progress :
    Progress (step ws2812) (fun e => e = .cycle) (fun m => ∃ wire high, Place m wire high) work
      (fun _ => ()) (fun _ _ => True) where
  keeps := by
    rintro m e ⟨wire, high, hplace⟩ rfl
    obtain ⟨_, wire', high', hplace', _, _⟩ := transmits hplace
    exact ⟨wire', high', hplace'⟩
  falls := by
    rintro m e ⟨wire, high, hplace⟩ rfl
    rcases Nat.eq_zero_or_pos (work m) with hdone | hwork
    · have hsame := (resting_of_work hplace hdone).1.cycle
      exact Or.inr ⟨congrArg work hsame, rfl⟩
    · exact Or.inl (work_cycle hplace hwork)
  helps := by
    rintro m e ⟨wire, high, hplace⟩ rfl hwork _
    exact work_cycle hplace hwork

theorem Place.rank_le (h : Place m wire high) : rank m ≤ 10 := by
  cases h with
  | idle hpc hpin hdelay | last hpc hpin hdelay =>
    simp [rank, hpc, hpin]
    omega
  | start hpc _ hdelay | doOne hpc _ hdelay | doZero hpc _ hdelay =>
    simp [rank, hpc]
    omega

/-- The FIFO never holds more than it has room for. -/
theorem fifo_run (es : List Event) : (exec (step ws2812) Machine.init es).fifo.length ≤ 8 := by
  apply state_invariant (P := fun m : Machine => m.fifo.length ≤ 8)
  · intro m e hroom
    cases e with
    | cycle =>
      have hrefill : ∀ m', m'.fifo = m.fifo → (refill ws2812 m').fifo.length ≤ 8 := by
        intro m' hsame
        refine Nat.le_trans (refill_fifo_le ws2812 m') ?_
        rwa [hsame]
      simp only [step, PioProgram.cycle]
      repeat' split
      · exact hrefill _ rfl
      · exact hroom
      · refine hrefill _ ?_
        simp only [execute]
        repeat' split
        all_goals rfl
    | put word =>
      simp only [step]
      split
      · rename_i hless
        simp only [List.length_append, List.length_singleton]
        exact hless
      · exact hroom
  · exact Nat.zero_le 8

theorem words_length (words : List (BitVec 32)) :
    (words.flatMap (topBits 24)).length = 24 * words.length := by
  induction words with
  | nil => rfl
  | cons word words ih =>
    rw [List.flatMap_cons, List.length_append, topBits_length, ih, List.length_cons]
    omega

/-- The most that can be left to do. -/
def drainCycles : Nat := 10 + 11 * (24 + 24 * 8) + 8

theorem work_run (es : List Event) : work (exec (step ws2812) Machine.init es) ≤ drainCycles := by
  obtain ⟨_, _, _, hplace, _, _⟩ := onWire_run es
  have hrank := hplace.rank_le
  have hfifo := fifo_run es
  generalize exec (step ws2812) Machine.init es = m at hrank hfifo
  have hqueue : (unsent ws2812 m).length ≤ 24 + 24 * m.fifo.length := by
    have hthreshold : ws2812.threshold = 24 := rfl
    rw [unsent, List.length_append, topBits_length, hthreshold, words_length]
    omega
  simp only [work, drainCycles]
  omega

end Liveness

section Pulses

theorem acceptedWords_drives (m : Machine) (ds : List Drive) :
    acceptedWords (trace (step ws2812) m (ds.map Drive.event)) = (colours m ds).map sendPixel := by
  induction ds generalizing m with
  | nil => rfl
  | cons d ds ih =>
    rw [List.map_cons, trace, acceptedWords_append, ih]
    cases d with
    | cycle => rfl
    | set c =>
      simp only [Drive.event, colours, step]
      split <;> rfl

/-- The words put in stand for the colours. -/
theorem bits_colours (m : Machine) (ds : List Drive) :
    (acceptedWords (trace (step ws2812) m (ds.map Drive.event))).flatMap (topBits 24) =
      (colours m ds).flatMap colourBits := by
  rw [acceptedWords_drives, List.flatMap_map]
  congr 1
  funext c
  exact topBits_sendPixel c

theorem colours_append (m : Machine) (ds es : List Drive) :
    colours m (ds ++ es) =
      colours m ds ++ colours (exec (step ws2812) m (ds.map Drive.event)) es := by
  induction ds generalizing m with
  | nil => rfl
  | cons d ds ih =>
    cases d with
    | cycle => exact ih (step ws2812 m .cycle).1
    | set c =>
      have hrest := ih (step ws2812 m (.put (sendPixel c))).1
      rw [List.cons_append, colours, colours, hrest, List.append_assoc]
      rfl

/-- Cycles take no colours. -/
theorem colours_cycles (m : Machine) (n : Nat) : colours m (List.replicate n .cycle) = [] := by
  induction n generalizing m with
  | zero => rfl
  | succ n ih => exact ih (step ws2812 m .cycle).1

/-- Left to itself for long enough, the state machine comes to rest. -/
theorem work_drained (es : List Event) {n : Nat} (hn : drainCycles ≤ n) :
    work (exec (step ws2812) Machine.init (es ++ List.replicate n .cycle)) = 0 := by
  obtain ⟨_, wire, high, hplace, _, _⟩ := onWire_run es
  have hrounds : (List.replicate n [Event.cycle]).flatten = List.replicate n .cycle := by simp
  rw [exec_append, ← hrounds]
  apply line_progress.finished ⟨wire, high, hplace⟩
  · intro round hround e he
    rw [List.eq_of_mem_replicate hround] at he
    exact List.mem_singleton.mp he
  · intro round hround m _ _
    rw [List.eq_of_mem_replicate hround]
    exact ⟨.cycle, List.mem_singleton_self _, trivial⟩
  · rw [List.length_replicate]
    exact Nat.le_trans (work_run es) hn

/-- The lengths of the pulses that stand for these colours -/
def pulseTrain (cs : List Colour) : List Nat := (cs.flatMap colourBits).map pulse

/-- No pulse is heard that is not one of the colours set, and none out of order. -/
theorem heard_front (ds : List Drive) :
    (heard (trace (step ws2812) Machine.init (ds.map Drive.event))).pulses <+:
      pulseTrain (colours Machine.init ds) := by
  obtain ⟨sent, wire, high, _, hheard, hbits⟩ := onWire_run (ds.map Drive.event)
  rw [pulseTrain, ← bits_colours Machine.init ds, hbits, hheard, List.append_assoc,
    List.map_append]
  exact List.prefix_append _ _

/-- Cycles at the end change nothing about the colours set. -/
theorem drives_drained (ds : List Drive) (n : Nat) :
    ds.map Drive.event ++ List.replicate n Event.cycle =
        (ds ++ List.replicate n Drive.cycle).map Drive.event ∧
      colours Machine.init (ds ++ List.replicate n .cycle) = colours Machine.init ds := by
  constructor
  · rw [List.map_append, List.map_replicate]
    rfl
  · rw [colours_append, colours_cycles, List.append_nil]

/-- All of them are heard, once the line was left to itself for long enough. -/
theorem heard_drained (ds : List Drive) {n : Nat} (hn : drainCycles ≤ n) :
    (heard (trace (step ws2812) Machine.init
        (ds.map Drive.event ++ List.replicate n .cycle))).pulses =
      pulseTrain (colours Machine.init ds) := by
  obtain ⟨hdrives, hcolours⟩ := drives_drained ds n
  have hwork := work_drained (ds.map Drive.event) hn
  rw [hdrives] at hwork ⊢
  obtain ⟨sent, wire, high, hplace, hheard, hbits⟩ :=
    onWire_run ((ds ++ List.replicate n Drive.cycle).map Drive.event)
  obtain ⟨hrest, hwire⟩ := resting_of_work hplace hwork
  rw [pulseTrain, ← hcolours, ← bits_colours, hbits, hheard, hwire, hrest.unsent,
    List.append_nil, List.append_nil]

/-- Whenever `neopixel_set` is called, the pulses on the wire are those of the bits of the colours
it was called with, one for each bit and in their order; and they are all there once the state
machine was left to itself for long enough. -/
theorem wire_carries (ds : List Drive) :
    (heard (trace (step ws2812) Machine.init (ds.map Drive.event))).pulses <+:
        pulseTrain (colours Machine.init ds) ∧
      ∀ n, drainCycles ≤ n →
        (heard (trace (step ws2812) Machine.init
          (ds.map Drive.event ++ List.replicate n .cycle))).pulses =
            pulseTrain (colours Machine.init ds) :=
  ⟨heard_front ds, fun _ hn => heard_drained ds hn⟩

end Pulses

/-- Two colours, the second while the first is on the wire. -/
def yellowThenOff : List Drive :=
  [.set ⟨80, 60, 0⟩, .cycle, .cycle, .cycle, .cycle, .set ⟨0, 0, 0⟩]

theorem wire_carries_yellow :
    (heard (trace (step ws2812) Machine.init (yellowThenOff.map Drive.event ++
      List.replicate drainCycles .cycle))).pulses =
        pulseTrain (colours Machine.init yellowThenOff) :=
  (wire_carries yellowThenOff).2 drainCycles (Nat.le_refl _)

end PixelWire
