import Ward3n.CellMemory

/-!
# Checked accesses

A pointer program with its accesses checked: a load outside the object ends the
run with a fault, and so does taking a counter below zero. When the checked
program of an unchecked one never faults and has its results, every access of
the unchecked one was inside the object and every counter above zero.
-/

namespace CheckedAccess

open CellMemory

universe u
variable {α : Type u}

inductive Fault
  | outside (index : Nat)
  | belowZero
  deriving DecidableEq, Repr

/-- A load from an object of `size` cells. -/
def load (p : Memory α) (size i : Nat) : Except Fault α :=
  if i < size then .ok (p i) else .error (.outside i)

/-- A copy of `n` cells out of such an object. -/
def loadBlock (p : Memory α) (size off n : Nat) : Except Fault (List α) :=
  if off + n ≤ size then .ok (read (advance p off) n) else .error (.outside (off + n))

/-- Take `n` from an unsigned counter. -/
def lower (count n : Nat) : Except Fault Nat :=
  if n ≤ count then .ok (count - n) else .error .belowZero

variable {p : Memory α} {size : Nat}

theorem load_of_lt {i : Nat} (h : i < size) : load p size i = .ok (p i) := if_pos h

theorem loadBlock_of_le {off n : Nat} (h : off + n ≤ size) :
    loadBlock p size off n = .ok (read (advance p off) n) := if_pos h

theorem lower_of_le {count n : Nat} (h : n ≤ count) : lower count n = .ok (count - n) := if_pos h

@[simp] theorem ok_bind {β γ : Type u} (b : β) (f : β → Except Fault γ) :
    (Except.ok b >>= f) = f b := rfl

end CheckedAccess
