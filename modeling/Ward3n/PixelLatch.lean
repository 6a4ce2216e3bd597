import Ward3n.PixelWire

/-!
# What the LED makes of the wire

A WS2812 takes the first 24 bits behind a reset and passes the others on. Once
the line has been low for its reset time, it shows what it took and is ready for
more. The reset time is left open: 50 microseconds are 400 cycles, and anything
longer than the low phase between two bits will do.

A second colour that follows the first without a reset in between is therefore
not shown. What is shown are colours that were set, whole and in order; and all
of them are, when each finds the LED ready.
-/

namespace PixelLatch

open TracedRuns PioProgram PixelWire

/-- For how many cycles the line has been high, or low, the bits taken since the last reset, and
what was shown so far -/
structure Led where
  high : Nat
  low : Nat
  bits : List Bool
  shown : List Colour
  deriving DecidableEq

/-- The end of a pulse. It is a one if it is longer than half a bit time. -/
def Led.fall (l : Led) : Led :=
  if l.high = 0 then l
  else
    { l with
      high := 0
      bits := if l.bits.length < 24 then l.bits ++ [decide (5 ≤ l.high)] else l.bits }

/-- A reset. What is not a whole colour is forgotten. -/
def Led.latch (l : Led) : Led :=
  { l with
    bits := []
    shown := if l.bits.length = 24 then l.shown ++ [colourOf l.bits] else l.shown }

def Led.hear (reset : Nat) (l : Led) : Output → Led
  | .level true => { l with high := l.high + 1, low := 0 }
  | .level false =>
    let l := { l.fall with low := l.low + 1 }
    if l.low = reset then l.latch else l
  | .accepted _ => l

/-- The state machine, with the LED at the end of its line -/
structure LitLine where
  line : Machine
  led : Led
  deriving DecidableEq

def LitLine.init : LitLine :=
  { line := Machine.init, led := { high := 0, low := 0, bits := [], shown := [] } }

def litStep (reset : Nat) (s : LitLine) (e : Event) : LitLine × List Output :=
  ({ line := (step ws2812 s.line e).1,
     led := (step ws2812 s.line e).2.foldl (Led.hear reset) s.led }, (step ws2812 s.line e).2)

/-- The line rests, and the LED has been reset since its last colour. -/
def LitLine.Ready (s : LitLine) : Prop := work s.line = 0 ∧ s.led.bits = []

instance (s : LitLine) : Decidable s.Ready := by
  unfold LitLine.Ready
  infer_instance

/-- `neopixel_set` is called when the LED is ready. -/
def Unhurried (s : LitLine) : Event → Prop
  | .put _ => s.Ready
  | .cycle => True

section Lines

theorem exec_line (reset : Nat) (s : LitLine) (es : List Event) :
    (exec (litStep reset) s es).line = exec (step ws2812) s.line es := by
  induction es generalizing s with
  | nil => rfl
  | cons e es ih => exact ih (litStep reset s e).1

theorem trace_line (reset : Nat) (s : LitLine) (es : List Event) :
    trace (litStep reset) s es = trace (step ws2812) s.line es := by
  induction es generalizing s with
  | nil => rfl
  | cons e es ih => exact congrArg _ (ih (litStep reset s e).1)

end Lines

section Words

/-- The bits of the word in this place -/
theorem words_window {words : List (BitVec 32)} {n : Nat} (hn : n < words.length) :
    ((words.flatMap (topBits 24)).drop (24 * n)).take 24 = topBits 24 words[n] := by
  induction words generalizing n with
  | nil => cases hn
  | cons word words ih =>
    cases n with
    | zero => exact List.take_left' (topBits_length 24 word)
    | succ n =>
      have hskip : ((word :: words).flatMap (topBits 24)).drop (24 * (n + 1)) =
          (words.flatMap (topBits 24)).drop (24 * n) := by
        rw [List.flatMap_cons, Nat.mul_succ, Nat.add_comm, ← List.drop_drop,
          List.drop_left' (topBits_length 24 word)]
      rw [hskip]
      exact ih (Nat.lt_of_succ_lt_succ hn)

/-- A window that is not full grows by the bit that comes in. -/
theorem window_append (bits : List Bool) (bit : Bool) {n : Nat} (hn : n ≤ bits.length) :
    ((bits ++ [bit]).drop n).take 24 =
      if ((bits.drop n).take 24).length < 24 then (bits.drop n).take 24 ++ [bit]
      else (bits.drop n).take 24 := by
  rw [List.drop_append_of_le_length hn]
  generalize bits.drop n = front
  rw [List.length_take]
  split
  · rename_i hless
    have hshort : front.length < 24 := by omega
    rw [List.take_of_length_le (by rw [List.length_append, List.length_singleton]; omega),
      List.take_of_length_le (by omega)]
  · rename_i hfull
    rw [List.take_append_of_le_length (by omega)]

/-- The window on a word is full once the bits go on to a later one. -/
theorem window_word {words : List (BitVec 32)} {sent rest : List Bool} {n n' : Nat}
    (hqueue : words.flatMap (topBits 24) = sent ++ rest) (hsent : sent.length = 24 * n')
    (hmore : n < n') :
    ∃ hn : n < words.length, (sent.drop (24 * n)).take 24 = topBits 24 words[n] := by
  have hcount := congrArg List.length hqueue
  rw [words_length, List.length_append] at hcount
  have hn : n < words.length := by omega
  refine ⟨hn, ?_⟩
  rw [← words_window hn, hqueue, List.drop_append_of_le_length (by omega),
    List.take_append_of_le_length]
  rw [List.length_drop]
  omega

end Words

/-- For how long the line can have been low while a word is on it -/
def Brisk (m : Machine) (low : Nat) : Prop :=
  if m.pin then low = 0 else low + m.delay ≤ if m.pc = 0 then 3 else 6

theorem Brisk.low_le {m : Machine} {low : Nat} (h : Brisk m low) : low ≤ 6 := by
  simp only [Brisk] at h
  repeat' split at h
  all_goals omega

section Timing

variable {m : Machine} {wire : List Bool} {high low : Nat}

/-- The bits that are through, with the one on the wire, end where the register stands in its
word. -/
theorem aligned {words : List (BitVec 32)} {sent : List Bool}
    (hqueue : words.flatMap (topBits 24) = sent ++ wire ++ unsent ws2812 m) :
    (sent.length + wire.length + (24 - m.count)) % 24 = 0 := by
  have hlen := congrArg List.length hqueue
  have hrest : (unsent ws2812 m).length = 24 - m.count + 24 * m.fifo.length := by
    rw [unsent, List.length_append, topBits_length, ← words_length]
    rfl
  rw [words_length, List.length_append, List.length_append, hrest] at hlen
  omega

/-- While the program does not wait for a word, the line is never low for long. -/
theorem brisk_cycle (hplace : Place m wire high) (h : Brisk m low)
    (hmore : m.pc = 0 → m.delay = 0 → m.count < 24) :
    Brisk (cycle ws2812 m) (if (cycle ws2812 m).pin then 0 else low + 1) := by
  rcases Nat.eq_zero_or_pos m.delay with hdelay | hdelay
  · cases hplace with
    | idle hpc hpin =>
      rw [cycle_outs hpc hdelay (hmore hpc hdelay)]
      simp only [Brisk, hpin, hpc, Bool.false_eq_true, if_false, if_true] at h
      simp only [Brisk, refill_pin, refill_delay, refill_pc, Bool.false_eq_true, Nat.one_ne_zero,
        if_false]
      omega
    | last hpc hpin =>
      rw [cycle_outs hpc hdelay (hmore hpc hdelay)]
      simp only [Brisk, hpin, if_true] at h
      simp only [Brisk, refill_pin, refill_delay, refill_pc, Bool.false_eq_true, Nat.one_ne_zero,
        if_false]
      omega
    | start hpc _ _ hx =>
      rw [cycle_branches hpc hdelay hx]
      simp only [Brisk, refill_pin, if_true]
    | doOne hpc =>
      rw [cycle_doOne hpc hdelay]
      simp only [Brisk, refill_pin, if_true]
    | doZero hpc hpin =>
      rw [cycle_doZero hpc hdelay]
      simp only [Brisk, hpin, if_true] at h
      simp only [Brisk, refill_pin, refill_delay, refill_pc, Bool.false_eq_true, if_false, if_true]
      omega
  · rw [cycle_delayed hdelay]
    simp only [Brisk, refill_pin, refill_delay, refill_pc] at h ⊢
    cases hpin : m.pin with
    | true => simp
    | false =>
      simp only [hpin, Bool.false_eq_true, if_false] at h ⊢
      omega

theorem refill_count (h : 24 ≤ m.count) :
    (24 - (refill ws2812 m).count) % 24 = 0 := by
  have hempty : ws2812.threshold ≤ m.count := h
  simp only [refill, if_pos hempty]
  split
  · omega
  · exact Nat.mod_self 24

end Timing

/-- Of the words that went into the FIFO these bits are through. The LED takes bits of the `n`-th
of them, or it passes on what comes behind it. -/
structure Attends (reset : Nat) (words : List (BitVec 32)) (s : LitLine) (sent wire : List Bool)
    (n : Nat) : Prop where
  place : Place s.line wire s.led.high
  queue : words.flatMap (topBits 24) = sent ++ wire ++ unsent ws2812 s.line
  begun : 24 * n ≤ sent.length
  bits : s.led.bits = (sent.drop (24 * n)).take 24
  brisk : sent.length % 24 ≠ 0 ∨ s.line.pin = true → Brisk s.line s.led.low
  latched : reset ≤ s.led.low → s.led.bits = []

/-- The colour of a word -/
def wordColour (word : BitVec 32) : Colour := colourOf (topBits 24 word)

/-- A reset behind a whole word shows it. -/
def Advances (words : List (BitVec 32)) (n n' : Nat) (shown shown' : List Colour) : Prop :=
  (n' = n ∧ shown' = shown) ∨
    ∃ h : n < words.length, n < n' ∧ shown' = shown ++ [wordColour words[n]]

section Steps

variable {reset n : Nat} {words : List (BitVec 32)} {s : LitLine} {sent wire done wire' : List Bool}
  {high' : Nat}

/-- A cycle with a high line ends no pulse. -/
theorem transmits_high (h : Transmits s.line (cycle ws2812 s.line) wire s.led.high done wire' high')
    (hpin : (cycle ws2812 s.line).pin = true) : done = [] ∧ high' = s.led.high + 1 := by
  have hheard := h.heard []
  rw [hpin] at hheard
  obtain ⟨hhigh, hpulses⟩ := Receiver.mk.inj hheard
  exact ⟨List.map_eq_nil_iff.mp hpulses.symm, hhigh.symm⟩

/-- A cycle with a low line ends the pulse, if there was one. -/
theorem transmits_low (h : Transmits s.line (cycle ws2812 s.line) wire s.led.high done wire' high')
    (hpin : (cycle ws2812 s.line).pin = false) : high' = 0 ∧
      (s.led.high = 0 ∧ done = [] ∨
        s.led.high ≠ 0 ∧ ∃ bit, done = [bit] ∧ s.led.high = pulse bit) := by
  have hheard := h.heard []
  rw [hpin] at hheard
  simp only [Receiver.hear, List.nil_append] at hheard
  split at hheard
  · rename_i hlow
    obtain ⟨hhigh, hpulses⟩ := Receiver.mk.inj hheard
    exact ⟨hhigh.symm.trans hlow, Or.inl ⟨hlow, List.map_eq_nil_iff.mp hpulses.symm⟩⟩
  · rename_i hhad
    obtain ⟨hhigh, hpulses⟩ := Receiver.mk.inj hheard
    obtain ⟨bit, rfl, hbit⟩ := List.map_eq_singleton_iff.mp hpulses.symm
    exact ⟨hhigh.symm, Or.inr ⟨hhad, bit, rfl, hbit.symm⟩⟩

/-- What is still to come, one cycle later -/
theorem Attends.queue_cycle (h : Attends reset words s sent wire n)
    (htrans : Transmits s.line (cycle ws2812 s.line) wire s.led.high done wire' high') :
    words.flatMap (topBits 24) =
      (sent ++ done) ++ wire' ++ unsent ws2812 (cycle ws2812 s.line) := by
  rw [h.queue, List.append_assoc, htrans.queue]
  simp only [List.append_assoc]

/-- While the LED measures a pulse the line is high. -/
theorem Attends.pin_high (h : Attends reset words s sent wire n) (hhigh : s.led.high ≠ 0) :
    s.line.pin = true := by
  by_contra hlow
  exact hhigh (h.place.low (by simpa using hlow))

/-- What is through stays through. -/
theorem Attends.begun_cycle (h : Attends reset words s sent wire n) (done : List Bool) :
    24 * n ≤ (sent ++ done).length := by
  rw [List.length_append]
  exact Nat.le_add_right_of_le h.begun

/-- The line keeps its pace. -/
theorem brisk_next (h : Attends reset words s sent wire n)
    (htrans : Transmits s.line (cycle ws2812 s.line) wire s.led.high done wire' high')
    (hbusy : (sent ++ done).length % 24 ≠ 0 ∨ (cycle ws2812 s.line).pin = true) :
    Brisk (cycle ws2812 s.line) (if (cycle ws2812 s.line).pin then 0 else s.led.low + 1) := by
  cases hpin : (cycle ws2812 s.line).pin with
  | true => simp [Brisk, hpin]
  | false =>
    have hmid : (sent ++ done).length % 24 ≠ 0 := by
      rcases hbusy with hmid | hno
      · exact hmid
      · rw [hpin] at hno
        cases hno
    have hbrisk : Brisk s.line s.led.low := by
      apply h.brisk
      rcases (transmits_low htrans hpin).2 with ⟨_, rfl⟩ | ⟨hhad, _⟩
      · rw [List.append_nil] at hmid
        exact Or.inl hmid
      · exact Or.inr (h.pin_high hhad)
    have hnext := brisk_cycle h.place hbrisk fun hpc hdelay => by
      -- a program that waits for a word stands behind a whole one
      by_contra hempty
      have hempty : 24 ≤ s.line.count := Nat.not_lt.mp hempty
      have hstall := cycle_stalls hpc hdelay hempty
      have hstays : (cycle ws2812 s.line).pc = 0 := by rw [hstall, refill_pc, hpc]
      have hcount : (24 - (cycle ws2812 s.line).count) % 24 = 0 := by
        rw [hstall]
        exact refill_count (m := { s.line with pin := false }) hempty
      have hwire := htrans.place.idle_wire hstays hpin
      have haligned := aligned (h.queue_cycle htrans)
      rw [hwire, List.length_nil] at haligned
      omega
    rwa [hpin] at hnext

/-- The bit whose pulse is over is taken, if there is room for it. -/
theorem fall_bits (h : Attends reset words s sent wire n)
    (htrans : Transmits s.line (cycle ws2812 s.line) wire s.led.high done wire' high')
    (hpin : (cycle ws2812 s.line).pin = false) :
    s.led.fall.bits = ((sent ++ done).drop (24 * n)).take 24 ∧ s.led.fall.high = 0 ∧
      s.led.fall.shown = s.led.shown := by
  rcases (transmits_low htrans hpin).2 with ⟨hlow, rfl⟩ | ⟨hhad, bit, rfl, hpulse⟩
  · simp only [Led.fall, if_pos hlow, List.append_nil]
    exact ⟨h.bits, hlow, trivial⟩
  · have hbit : decide (5 ≤ s.led.high) = bit := by
      rw [hpulse]
      cases bit <;> rfl
    simp only [Led.fall, if_neg hhad, hbit, h.bits, window_append sent bit h.begun, and_self]

/-- A cycle with a high line -/
theorem attends_high (hreset : 7 ≤ reset) (h : Attends reset words s sent wire n)
    (hpin : (cycle ws2812 s.line).pin = true) :
    ∃ wire', Attends reset words (litStep reset s .cycle).1 sent wire' n ∧
      (litStep reset s .cycle).1.led.shown = s.led.shown := by
  obtain ⟨done, wire', high', htrans⟩ := transmits h.place
  have hqueue := h.queue_cycle htrans
  have hplace := htrans.place
  obtain ⟨rfl, rfl⟩ := transmits_high htrans hpin
  rw [List.append_nil] at hqueue
  simp only [litStep, step, List.foldl_cons, List.foldl_nil, hpin]
  refine ⟨wire', ⟨hplace, hqueue, h.begun, h.bits, fun _ => ?_, fun hlong => ?_⟩, rfl⟩
  · simp only [Brisk, hpin, Led.hear, if_true]
  · have hpos : reset ≤ 0 := hlong
    omega

/-- A cycle with a low line, before the reset or long after it -/
theorem attends_low (hreset : 7 ≤ reset) (h : Attends reset words s sent wire n)
    (hpin : (cycle ws2812 s.line).pin = false) (hnot : s.led.low + 1 ≠ reset) :
    ∃ sent' wire', Attends reset words (litStep reset s .cycle).1 sent' wire' n ∧
      (litStep reset s .cycle).1.led.shown = s.led.shown := by
  obtain ⟨done, wire', high', htrans⟩ := transmits h.place
  have hplace := htrans.place
  have hbrisk := brisk_next h htrans
  obtain ⟨rfl, -⟩ := transmits_low htrans hpin
  obtain ⟨hbits, hhigh, hshown⟩ := fall_bits h htrans hpin
  rw [hpin] at hbrisk
  simp only [Bool.false_eq_true, or_false, if_false] at hbrisk
  simp only [litStep, step, List.foldl_cons, List.foldl_nil, hpin, Led.hear, if_neg hnot]
  refine ⟨sent ++ done, wire', ⟨?_, h.queue_cycle htrans, h.begun_cycle done, hbits, ?_,
    fun hlong => ?_⟩, hshown⟩
  · simp only [hhigh]
    exact hplace
  · rintro (hmid | hhi)
    · exact hbrisk hmid
    · rw [hpin] at hhi
      cases hhi
  · have hlow : reset ≤ s.led.low := by
      have hnext : reset ≤ s.led.low + 1 := hlong
      omega
    have hidle : s.led.high = 0 := by
      by_contra hhad
      have hshort := (h.brisk (Or.inr (h.pin_high hhad))).low_le
      omega
    simp only [Led.fall, if_pos hidle]
    exact h.latched hlow

/-- The cycle of the reset. The line was low for so long that it stands behind a whole word. -/
theorem attends_reset (hreset : 7 ≤ reset) (h : Attends reset words s sent wire n)
    (hpin : (cycle ws2812 s.line).pin = false) (hnow : s.led.low + 1 = reset) :
    ∃ sent' wire' n', Attends reset words (litStep reset s .cycle).1 sent' wire' n' ∧
      Advances words n n' s.led.shown (litStep reset s .cycle).1.led.shown := by
  obtain ⟨done, wire', high', htrans⟩ := transmits h.place
  have hqueue := h.queue_cycle htrans
  have hbegun := h.begun_cycle done
  have hplace := htrans.place
  have hbrisk := brisk_next h htrans
  obtain ⟨rfl, -⟩ := transmits_low htrans hpin
  obtain ⟨hbits, hhigh, hshown⟩ := fall_bits h htrans hpin
  rw [hpin] at hbrisk
  simp only [Bool.false_eq_true, or_false, if_false] at hbrisk
  generalize sent ++ done = sent' at hqueue hbegun hbits hbrisk
  have hwhole : sent'.length % 24 = 0 := by
    by_contra hmid
    have hshort := (hbrisk hmid).low_le
    omega
  obtain ⟨n', hn'⟩ := Nat.dvd_of_mod_eq_zero hwhole
  have hnone : (sent'.drop (24 * n')).take 24 = [] := by
    rw [← hn', List.drop_length, List.take_nil]
  simp only [litStep, step, List.foldl_cons, List.foldl_nil, hpin, Led.hear, if_pos hnow]
  refine ⟨sent', wire', n', ⟨?_, hqueue, Nat.le_of_eq hn'.symm, hnone.symm, ?_, fun _ => rfl⟩, ?_⟩
  · simp only [Led.latch, hhigh]
    exact hplace
  · rintro (hmid | hhi)
    · exact absurd hwhole hmid
    · rw [hpin] at hhi
      cases hhi
  · simp only [Led.latch, hbits, hshown]
    rcases Nat.lt_or_ge n n' with hmore | hsame
    · rw [List.append_assoc] at hqueue
      obtain ⟨hn, hword⟩ := window_word hqueue hn' hmore
      rw [hword, if_pos (topBits_length 24 _)]
      exact Or.inr ⟨hn, hmore, rfl⟩
    · have heq : n' = n := by omega
      rw [← heq, hnone]
      exact Or.inl ⟨rfl, rfl⟩

theorem attends_cycle (hreset : 7 ≤ reset) (h : Attends reset words s sent wire n) :
    ∃ sent' wire' n', Attends reset words (litStep reset s .cycle).1 sent' wire' n' ∧
      Advances words n n' s.led.shown (litStep reset s .cycle).1.led.shown := by
  cases hpin : (cycle ws2812 s.line).pin with
  | true =>
    obtain ⟨wire', hattends, hshown⟩ := attends_high hreset h hpin
    exact ⟨sent, wire', n, hattends, Or.inl ⟨rfl, hshown⟩⟩
  | false =>
    by_cases hnow : s.led.low + 1 = reset
    · exact attends_reset hreset h hpin hnow
    · obtain ⟨sent', wire', hattends, hshown⟩ := attends_low hreset h hpin hnow
      exact ⟨sent', wire', n, hattends, Or.inl ⟨rfl, hshown⟩⟩

theorem Attends.le_words (h : Attends reset words s sent wire n) : n ≤ words.length := by
  have hlen := congrArg List.length h.queue
  have hbegun := h.begun
  rw [words_length, List.length_append, List.length_append] at hlen
  omega

/-- A word that goes into the FIFO is not noticed by the LED. -/
theorem attends_put (h : Attends reset words s sent wire n) (word : BitVec 32) :
    Attends reset (words ++ [word])
      { s with line := { s.line with fifo := s.line.fifo ++ [word] } } sent wire n := by
  refine ⟨h.place.congr rfl rfl rfl rfl, ?_, h.begun, h.bits, h.brisk, h.latched⟩
  rw [List.flatMap_append, h.queue, unsent_put]
  simp [ws2812]

theorem attends_init (reset : Nat) : Attends reset [] .init [] [] 0 :=
  ⟨.idle rfl rfl (Nat.zero_le 2), rfl, Nat.le_refl 0, rfl, (by simp [LitLine.init, Machine.init]),
    fun _ => rfl⟩

end Steps

/-- The LED has shown these words, in order, and perhaps not all of them. -/
def ShowsSome (words : List (BitVec 32)) (n : Nat) (shown : List Colour) : Prop :=
  shown.Sublist ((words.take n).map wordColour)

/-- The LED has shown all these words but for the last one, which may be on its way. -/
def ShowsAll (words : List (BitVec 32)) (n : Nat) (shown : List Colour) : Prop :=
  shown = (words.take n).map wordColour ∧ words.length ≤ n + 1

section Shown

variable {words : List (BitVec 32)} {n n' : Nat} {shown shown' : List Colour}

theorem take_word (hn : n < words.length) :
    (words.take (n + 1)).map wordColour =
      (words.take n).map wordColour ++ [wordColour words[n]] := by
  rw [← List.take_append_getElem hn, List.map_append, List.map_singleton]

theorem showsSome_advances (h : ShowsSome words n shown)
    (hadvances : Advances words n n' shown shown') : ShowsSome words n' shown' := by
  rcases hadvances with ⟨rfl, rfl⟩ | ⟨hn, hmore, rfl⟩
  · exact h
  · have hfirst : (shown ++ [wordColour words[n]]).Sublist
        ((words.take (n + 1)).map wordColour) := by
      rw [take_word hn]
      exact h.append_right _
    exact hfirst.trans ((List.take_sublist_take_left hmore).map wordColour)

theorem showsAll_advances (h : ShowsAll words n shown) (hle : n' ≤ words.length)
    (hadvances : Advances words n n' shown shown') : ShowsAll words n' shown' := by
  obtain ⟨hshown, hlast⟩ := h
  rcases hadvances with ⟨rfl, rfl⟩ | ⟨hn, hmore, rfl⟩
  · exact ⟨hshown, hlast⟩
  · have hone : n' = n + 1 := by omega
    rw [hone, ShowsAll, take_word hn, hshown]
    exact ⟨rfl, by omega⟩

end Shown

section Runs

variable {reset : Nat}

/-- At any interleaving of cycles and words, the LED attends to the words that went in. -/
theorem showsSome_step (hreset : 7 ≤ reset) (h : List Output) (s : LitLine) (e : Event)
    (hshows : ∃ sent wire n, Attends reset (acceptedWords h) s sent wire n ∧
      ShowsSome (acceptedWords h) n s.led.shown) :
    ∃ sent wire n, Attends reset (acceptedWords (h ++ (litStep reset s e).2))
        (litStep reset s e).1 sent wire n ∧
      ShowsSome (acceptedWords (h ++ (litStep reset s e).2)) n (litStep reset s e).1.led.shown := by
  obtain ⟨sent, wire, n, hattends, hshown⟩ := hshows
  cases e with
  | cycle =>
    have hwords : acceptedWords (h ++ (litStep reset s .cycle).2) = acceptedWords h := by
      rw [acceptedWords_append]
      exact List.append_nil _
    obtain ⟨sent', wire', n', hattends', hadvances⟩ := attends_cycle hreset hattends
    rw [hwords]
    exact ⟨sent', wire', n', hattends', showsSome_advances hshown hadvances⟩
  | put word =>
    simp only [litStep, step]
    split
    · have hwords : acceptedWords (h ++ [.accepted word]) = acceptedWords h ++ [word] :=
        acceptedWords_append h _
      rw [hwords]
      refine ⟨sent, wire, n, attends_put hattends word, ?_⟩
      rw [ShowsSome, List.take_append_of_le_length hattends.le_words]
      exact hshown
    · rw [List.append_nil]
      exact ⟨sent, wire, n, hattends, hshown⟩

theorem showsSome_run (hreset : 7 ≤ reset) (es : List Event) :
    ∃ sent wire n, Attends reset (acceptedWords (trace (litStep reset) .init es))
        (exec (litStep reset) .init es) sent wire n ∧
      ShowsSome (acceptedWords (trace (litStep reset) .init es)) n
        (exec (litStep reset) .init es).led.shown :=
  history_invariant (J := fun h s => ∃ sent wire n, Attends reset (acceptedWords h) s sent wire n ∧
      ShowsSome (acceptedWords h) n s.led.shown) (showsSome_step hreset)
    ⟨[], [], 0, attends_init reset, List.nil_sublist _⟩ es

/-- Where the LED is ready it has shown everything. -/
theorem ready_words {words : List (BitVec 32)} {s : LitLine} {sent wire : List Bool} {n : Nat}
    (h : Attends reset words s sent wire n) (hready : s.Ready) : n = words.length := by
  obtain ⟨hrest, hwire⟩ := resting_of_work h.place hready.1
  have hlen := congrArg List.length h.queue
  have hbits := congrArg List.length (h.bits.symm.trans hready.2)
  have hle := h.le_words
  rw [words_length, hwire, hrest.unsent, List.append_nil, List.append_nil] at hlen
  rw [List.length_take, List.length_drop, List.length_nil] at hbits
  omega

theorem showsAll_step (hreset : 7 ≤ reset) (h : List Output) (s : LitLine) (e : Event)
    (hunhurried : Unhurried s e)
    (hshows : ∃ sent wire n, Attends reset (acceptedWords h) s sent wire n ∧
      ShowsAll (acceptedWords h) n s.led.shown) :
    ∃ sent wire n, Attends reset (acceptedWords (h ++ (litStep reset s e).2))
        (litStep reset s e).1 sent wire n ∧
      ShowsAll (acceptedWords (h ++ (litStep reset s e).2)) n (litStep reset s e).1.led.shown := by
  obtain ⟨sent, wire, n, hattends, hshown⟩ := hshows
  cases e with
  | cycle =>
    have hwords : acceptedWords (h ++ (litStep reset s .cycle).2) = acceptedWords h := by
      rw [acceptedWords_append]
      exact List.append_nil _
    obtain ⟨sent', wire', n', hattends', hadvances⟩ := attends_cycle hreset hattends
    rw [hwords]
    exact ⟨sent', wire', n', hattends', showsAll_advances hshown hattends'.le_words hadvances⟩
  | put word =>
    -- the LED is ready, so that the word is the only one it has not shown
    have hcount := ready_words hattends hunhurried
    simp only [litStep, step]
    split
    · have hwords : acceptedWords (h ++ [.accepted word]) = acceptedWords h ++ [word] :=
        acceptedWords_append h _
      rw [hwords]
      refine ⟨sent, wire, n, attends_put hattends word, ?_, ?_⟩
      · rw [List.take_append_of_le_length hattends.le_words]
        exact hshown.1
      · rw [List.length_append, List.length_singleton, hcount]
    · rw [List.append_nil]
      exact ⟨sent, wire, n, hattends, hshown⟩

theorem showsAll_run (hreset : 7 ≤ reset) {es : List Event}
    (hunhurried : AllSteps (litStep reset) Unhurried .init es) :
    ∃ sent wire n, Attends reset (acceptedWords (trace (litStep reset) .init es))
        (exec (litStep reset) .init es) sent wire n ∧
      ShowsAll (acceptedWords (trace (litStep reset) .init es)) n
        (exec (litStep reset) .init es).led.shown :=
  guarded_history (h := [])
    (J := fun h s => ∃ sent wire n, Attends reset (acceptedWords h) s sent wire n ∧
      ShowsAll (acceptedWords h) n s.led.shown) (showsAll_step hreset)
    ⟨[], [], 0, attends_init reset, rfl, Nat.zero_le 1⟩ hunhurried

variable (reset) in
/-- A resting line stays low. -/
theorem rest_cycles {s : LitLine} (hrest : Resting s.line) (n : Nat) :
    (exec (litStep reset) s (List.replicate n .cycle)).line = s.line ∧
      (exec (litStep reset) s (List.replicate n .cycle)).led.low = s.led.low + n := by
  induction n generalizing s with
  | zero => exact ⟨rfl, rfl⟩
  | succ n ih =>
    have hline : (litStep reset s .cycle).1.line = s.line := hrest.cycle
    have hlow : (litStep reset s .cycle).1.led.low = s.led.low + 1 := by
      simp only [litStep, step, hrest.cycle, hrest.pin, List.foldl_cons, List.foldl_nil, Led.hear]
      split <;> rfl
    obtain ⟨hsame, hlater⟩ := ih (s := (litStep reset s .cycle).1) (hline ▸ hrest)
    rw [List.replicate_succ, exec]
    exact ⟨hsame.trans hline, by rw [hlater, hlow]; omega⟩

/-- Left to themselves for long enough, the line comes to rest and the LED gets its reset. -/
theorem ready_drained (hreset : 7 ≤ reset) (es : List Event) {n : Nat}
    (hn : drainCycles + reset ≤ n) :
    (exec (litStep reset) .init (es ++ List.replicate n .cycle)).Ready := by
  have hsplit : es ++ List.replicate n Event.cycle =
      (es ++ List.replicate drainCycles .cycle) ++ List.replicate (n - drainCycles) .cycle := by
    rw [List.append_assoc, List.replicate_append_replicate, Nat.add_sub_cancel' (by omega)]
  obtain ⟨_, _, _, hattends, _⟩ := showsSome_run hreset (es ++ List.replicate drainCycles .cycle)
  have hwork : work (exec (litStep reset) .init (es ++ List.replicate drainCycles .cycle)).line =
      0 := by
    rw [exec_line]
    exact work_drained es (Nat.le_refl _)
  have hrest := (resting_of_work hattends.place hwork).1
  obtain ⟨hline, hlow⟩ := rest_cycles reset hrest (n - drainCycles)
  obtain ⟨_, _, _, hattends', _⟩ := showsSome_run hreset (es ++ List.replicate n .cycle)
  rw [hsplit, exec_append] at hattends' ⊢
  exact ⟨by rw [hline, hwork], hattends'.latched (by omega)⟩

variable (reset) in
theorem accepted_colours (ds : List Drive) :
    (acceptedWords (trace (litStep reset) .init (ds.map Drive.event))).map wordColour =
      colours Machine.init ds := by
  have hwords := acceptedWords_drives Machine.init ds
  rw [trace_line]
  refine (congrArg (List.map wordColour) hwords).trans ?_
  rw [List.map_map]
  refine (List.map_congr_left fun c _ => ?_).trans (List.map_id _)
  exact colourOf_sendPixel c

theorem shown_sublist (hreset : 7 ≤ reset) (ds : List Drive) :
    (exec (litStep reset) .init (ds.map Drive.event)).led.shown.Sublist
      (colours Machine.init ds) := by
  obtain ⟨_, _, n, _, hshown⟩ := showsSome_run hreset (ds.map Drive.event)
  rw [← accepted_colours reset ds]
  exact hshown.trans ((List.take_sublist _ _).map wordColour)

/-- Cycles call `neopixel_set` nowhere. -/
theorem unhurried_cycles (s : LitLine) (n : Nat) :
    AllSteps (litStep reset) Unhurried s (List.replicate n .cycle) := by
  induction n generalizing s with
  | zero => trivial
  | succ n ih => exact ⟨trivial, ih (litStep reset s .cycle).1⟩

theorem shown_unhurried (hreset : 7 ≤ reset) {ds : List Drive}
    (hunhurried : AllSteps (litStep reset) Unhurried .init (ds.map Drive.event)) {n : Nat}
    (hn : drainCycles + reset ≤ n) :
    (exec (litStep reset) .init (ds.map Drive.event ++ List.replicate n .cycle)).led.shown =
      colours Machine.init ds := by
  have hready := ready_drained hreset (ds.map Drive.event) hn
  obtain ⟨hdrives, hcolours⟩ := drives_drained ds n
  have hcycles : AllSteps (litStep reset) Unhurried .init
      (ds.map Drive.event ++ List.replicate n .cycle) :=
    allSteps_append.mpr ⟨hunhurried, unhurried_cycles _ n⟩
  obtain ⟨_, _, m, hattends, hshown, _⟩ := showsAll_run hreset hcycles
  rw [hshown, ready_words hattends hready, List.take_length, hdrives, accepted_colours reset,
    hcolours]

end Runs

/-- Whenever `neopixel_set` is called, the LED shows colours it was called with, whole and in their
order. Left alone for the drain and the reset time it is ready again; and if each call finds it
ready, it shows them all. -/
theorem led_shows {reset : Nat} (hreset : 7 ≤ reset) (ds : List Drive) :
    (exec (litStep reset) .init (ds.map Drive.event)).led.shown.Sublist
        (colours Machine.init ds) ∧
      ∀ n, drainCycles + reset ≤ n →
        (exec (litStep reset) .init (ds.map Drive.event ++ List.replicate n .cycle)).Ready ∧
        (AllSteps (litStep reset) Unhurried .init (ds.map Drive.event) →
          (exec (litStep reset) .init
            (ds.map Drive.event ++ List.replicate n .cycle)).led.shown =
              colours Machine.init ds) := by
  refine ⟨shown_sublist hreset ds, fun n hn => ⟨?_, fun hunhurried => ?_⟩⟩
  · exact ready_drained hreset (ds.map Drive.event) hn
  · exact shown_unhurried hreset hunhurried hn

/-- Yellow, and dark as soon as the LED is ready again, with the reset time of the WS2812. -/
def yellowThenDark : List Drive :=
  .set ⟨80, 60, 0⟩ :: List.replicate (drainCycles + 400) .cycle ++ [.set ⟨0, 0, 0⟩]

theorem unhurried_yellowThenDark :
    AllSteps (litStep 400) Unhurried .init (yellowThenDark.map Drive.event) := by
  have hready := ready_drained (by decide : 7 ≤ 400) [.put (sendPixel ⟨80, 60, 0⟩)]
    (Nat.le_refl (drainCycles + 400))
  have hfirst : LitLine.init.Ready := by decide
  rw [yellowThenDark, List.map_append, List.map_cons, List.map_replicate, allSteps_append]
  exact ⟨⟨hfirst, unhurried_cycles _ _⟩, hready, trivial⟩

theorem led_shows_both :
    (exec (litStep 400) .init
      (yellowThenDark.map Drive.event ++ List.replicate (drainCycles + 400) .cycle)).led.shown =
        colours Machine.init yellowThenDark :=
  ((led_shows (by decide) yellowThenDark).2 _ (Nat.le_refl _)).2 unhurried_yellowThenDark

end PixelLatch
