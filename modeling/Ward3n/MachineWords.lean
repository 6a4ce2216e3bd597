import Mathlib.Tactic.Ring
import Mathlib.Tactic.NormNum

/-!
# Fixed-width machine words

Unsigned 32-bit arithmetic on naturals with its wrap-around written out, and
the little-endian byte form of an unsigned word of any width. Sums and
differences are only equal to the mathematical ones under the stated bounds.
-/

namespace MachineWords

/-- Unsigned 32-bit addition. -/
def add32 (a b : Nat) : Nat := (a + b) % 2 ^ 32

/-- Unsigned 32-bit subtraction: below zero it continues from the top. -/
def sub32 (a b : Nat) : Nat := (a + 2 ^ 32 - b) % 2 ^ 32

theorem add32_of_lt {a b : Nat} (h : a + b < 2 ^ 32) : add32 a b = a + b :=
  Nat.mod_eq_of_lt h

theorem sub32_of_le {a b : Nat} (hb : b ≤ a) (ha : a < 2 ^ 32) : sub32 a b = a - b := by
  have hsplit : a + 2 ^ 32 - b = (a - b) + 2 ^ 32 := by omega
  rw [sub32, hsplit, Nat.add_mod_right, Nat.mod_eq_of_lt (by omega)]

/-- The `w` bytes of a word, least significant first. -/
def toBytes : Nat → Nat → List UInt8
  | 0, _ => []
  | w + 1, n => UInt8.ofNat n :: toBytes w (n / 256)

/-- The word with the given bytes, least significant first. -/
def ofBytes : List UInt8 → Nat
  | [] => 0
  | b :: bytes => b.toNat + 256 * ofBytes bytes

theorem ofBytes_lt (bytes : List UInt8) : ofBytes bytes < 256 ^ bytes.length := by
  induction bytes with
  | nil => simp [ofBytes]
  | cons b bytes ih =>
    have hb := b.toNat_lt
    rw [ofBytes, List.length_cons, pow_succ]
    omega

/-- A sum that passes the top continues from zero. -/
theorem add32_of_ge {a b : Nat} (h : 2 ^ 32 ≤ a + b) (hlt : a + b < 2 ^ 32 + 2 ^ 32) :
    add32 a b = a + b - 2 ^ 32 := by
  rw [add32, Nat.mod_eq_sub_mod h, Nat.mod_eq_of_lt (by omega)]

@[simp] theorem toBytes_length (w n : Nat) : (toBytes w n).length = w := by
  induction w generalizing n with
  | zero => rfl
  | succ w ih => simp [toBytes, ih]

theorem ofBytes_toBytes (w n : Nat) : ofBytes (toBytes w n) = n % 256 ^ w := by
  induction w generalizing n with
  | zero => simp [toBytes, ofBytes, Nat.mod_one]
  | succ w ih =>
    have hbyte : (UInt8.ofNat n).toNat = n % 256 := by simp
    rw [toBytes, ofBytes, ih, hbyte, pow_succ', Nat.mod_mul]

theorem ofBytes_toBytes_of_lt {w n : Nat} (h : n < 256 ^ w) : ofBytes (toBytes w n) = n := by
  rw [ofBytes_toBytes, Nat.mod_eq_of_lt h]

end MachineWords
