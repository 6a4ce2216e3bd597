import Mathlib.Data.List.Basic
import Mathlib.Data.List.Infix

/-!
# Pointers as unbounded cell memories

A pointer of a C program is the function sending an offset to the cell found
there. Reading a block gives a list, and copying a list into memory changes
exactly the cells it covers. Nothing bounds an offset: an access past the end
of an object is a read of whatever lies behind it, so a program that stays in
its object has to be shown to do so.
-/

namespace CellMemory

universe u
variable {α : Type u}

/-- The cells found at and after an address. -/
abbrev Memory (α : Type u) := Nat → α

/-- Pointer arithmetic: the address `k` cells further on. -/
def advance (p : Memory α) (k : Nat) : Memory α := fun i => p (k + i)

/-- The first `n` cells. -/
def read (p : Memory α) (n : Nat) : List α := (List.range n).map p

/-- Copy a list into memory, starting at offset `off`. -/
def write (p : Memory α) (off : Nat) (cells : List α) : Memory α :=
  fun i => if off ≤ i then (cells[i - off]?).getD (p i) else p i

/-- Put back a block that was changed through the pointer `advance p k`. -/
def putBack (p : Memory α) (k : Nat) (q : Memory α) : Memory α :=
  fun i => if i < k then p i else q (i - k)

/-- Two memories hold the same first `n` cells. -/
def Agree (n : Nat) (p q : Memory α) : Prop := ∀ i, i < n → p i = q i

theorem Agree.mono {m n : Nat} {p q : Memory α} (hmn : m ≤ n) (h : Agree n p q) :
    Agree m p q :=
  fun i hi => h i (by omega)

theorem Agree.advance {n : Nat} {p q : Memory α} (h : Agree n p q) (k : Nat) :
    Agree (n - k) (advance p k) (advance q k) :=
  fun i hi => h (k + i) (by omega)

@[simp] theorem advance_apply (p : Memory α) (k i : Nat) : advance p k i = p (k + i) := rfl

@[simp] theorem advance_advance (p : Memory α) (j k : Nat) :
    advance (advance p j) k = advance p (j + k) := by
  funext i
  simp only [advance_apply, Nat.add_assoc]

@[simp] theorem read_zero (p : Memory α) : read p 0 = [] := rfl

@[simp] theorem read_length (p : Memory α) (n : Nat) : (read p n).length = n := by
  simp [read]

theorem read_getElem? (p : Memory α) {n i : Nat} (h : i < n) : (read p n)[i]? = some (p i) := by
  simp [read, h]

theorem read_add (p : Memory α) (m n : Nat) :
    read p (m + n) = read p m ++ read (advance p m) n := by
  simp only [read, List.range_add, List.map_append, List.map_map]
  rfl

theorem read_eq_iff {p q : Memory α} {n : Nat} : read p n = read q n ↔ Agree n p q := by
  constructor
  · intro h i hi
    have hcell := congrArg (fun cells => cells[i]?) h
    simpa [read_getElem? p hi, read_getElem? q hi] using hcell
  · intro h
    apply List.map_congr_left
    intro i hi
    exact h i (List.mem_range.mp hi)

theorem read_congr {p q : Memory α} {n : Nat} (h : Agree n p q) : read p n = read q n :=
  read_eq_iff.mpr h

theorem read_take (p : Memory α) {m n : Nat} (h : m ≤ n) : (read p n).take m = read p m := by
  obtain ⟨k, rfl⟩ := Nat.exists_eq_add_of_le h
  rw [read_add, List.take_append_of_le_length (by simp)]
  exact List.take_of_length_le (by simp)

theorem read_drop (p : Memory α) (m n : Nat) :
    (read p (m + n)).drop m = read (advance p m) n := by
  rw [read_add, List.drop_append_of_le_length (by simp), List.drop_of_length_le (by simp)]
  rfl

/-- The cells of a block found between two others. -/
theorem read_between {p : Memory α} {xs ys zs : List α} {n : Nat}
    (h : read p n = xs ++ ys ++ zs) : read (advance p xs.length) ys.length = ys := by
  have hcount : n = xs.length + ys.length + zs.length := by
    have hlen := congrArg List.length h
    simpa [List.length_append, Nat.add_assoc] using hlen
  rw [hcount, read_add] at h
  have hblock := (List.append_inj h (by simp)).1
  rw [read_add] at hblock
  exact (List.append_inj hblock (by simp)).2

theorem cell_of_read {p : Memory α} {n i : Nat} {cells : List α} {a : α} (h : read p n = cells)
    (ha : cells[i]? = some a) : p i = a := by
  have hi : i < n := by
    obtain ⟨hi, _⟩ := List.getElem?_eq_some_iff.mp ha
    rwa [← h, read_length] at hi
  rw [← h, read_getElem? p hi] at ha
  exact Option.some.inj ha

theorem write_before (p : Memory α) (off : Nat) (cells : List α) {i : Nat} (h : i < off) :
    write p off cells i = p i := by
  simp only [write, if_neg (Nat.not_le.mpr h)]

theorem write_inside (p : Memory α) (off : Nat) (cells : List α) {i : Nat}
    (h : i < cells.length) : write p off cells (off + i) = cells[i] := by
  simp [write, h]

theorem write_after (p : Memory α) (off : Nat) (cells : List α) {i : Nat}
    (h : off + cells.length ≤ i) : write p off cells i = p i := by
  have hout : cells[i - off]? = none := List.getElem?_eq_none (by omega)
  simp [write, hout]

/-- Two lists written one behind the other are one list written. -/
theorem write_append (p : Memory α) (off : Nat) (xs ys : List α) :
    write (write p off xs) (off + xs.length) ys = write p off (xs ++ ys) := by
  funext i
  by_cases hfirst : i < off + xs.length
  · rw [write_before _ _ _ hfirst]
    simp only [write]
    split
    · rw [List.getElem?_append_left (by omega)]
    · rfl
  · have hbehind : off ≤ i := by omega
    simp only [write, if_pos hbehind, if_pos (Nat.not_lt.mp hfirst)]
    rw [List.getElem?_append_right (by omega),
      List.getElem?_eq_none (by omega : xs.length ≤ i - off), Nat.sub_sub]
    rfl

/-- The order of the two copies does not matter. -/
theorem write_append_first (p : Memory α) (off : Nat) (xs ys : List α) :
    write (write p (off + xs.length) ys) off xs = write p off (xs ++ ys) := by
  rw [← write_append]
  funext i
  by_cases hfirst : i < off + xs.length
  · rw [write_before _ _ _ hfirst]
    simp only [write, if_neg (Nat.not_le.mpr hfirst)]
  · rw [write_after _ _ _ (Nat.not_lt.mp hfirst)]
    simp only [write, if_pos (Nat.not_lt.mp hfirst)]
    split
    · rw [List.getElem?_eq_none (by omega : xs.length ≤ i - off)]
      rfl
    · rfl

theorem Agree.write {n : Nat} {p q : Memory α} (h : Agree n p q) (off : Nat) (cells : List α) :
    Agree n (write p off cells) (write q off cells) := by
  intro i hi
  simp only [CellMemory.write, h i hi]

/-- A block of `n` cells in the middle of other memory. -/
def enclose (n : Nat) (p around : Memory α) : Memory α := fun i => if i < n then p i else around i

theorem agree_enclose (n : Nat) (p around : Memory α) : Agree n p (enclose n p around) := by
  intro i hi
  simp only [enclose, if_pos hi]

theorem read_write_before (p : Memory α) {n off : Nat} (cells : List α) (h : n ≤ off) :
    read (write p off cells) n = read p n :=
  read_congr fun i hi => write_before p off cells (by omega)

theorem read_write_self (p : Memory α) (off : Nat) (cells : List α) :
    read (advance (write p off cells) off) cells.length = cells := by
  apply List.ext_getElem (by simp)
  intro i hi hc
  simp [read, write_inside p off cells hc]

/-- A copy that lies wholly in front of a block, or wholly behind it, leaves it alone. -/
theorem read_write_frame (p : Memory α) (off : Nat) (cells : List α) {k n : Nat}
    (h : off + cells.length ≤ k ∨ k + n ≤ off) :
    read (advance (write p off cells) k) n = read (advance p k) n := by
  apply read_congr
  intro i hi
  simp only [advance_apply]
  rcases h with h | h
  · exact write_after p off cells (by omega)
  · exact write_before p off cells (by omega)

/-- Appending at the end of what was written extends the block read by the appended cells. -/
theorem read_write_append (p : Memory α) (n : Nat) (cells : List α) :
    read (write p n cells) (n + cells.length) = read p n ++ cells := by
  rw [read_add, read_write_before p cells (Nat.le_refl n), read_write_self]

@[simp] theorem read_write_zero (p : Memory α) (cells : List α) :
    read (write p 0 cells) cells.length = cells := by
  simpa using read_write_append p 0 cells

@[simp] theorem advance_putBack (p : Memory α) (k : Nat) (q : Memory α) :
    advance (putBack p k q) k = q := by
  funext i
  simp only [advance_apply, putBack, if_neg (Nat.not_lt.mpr (Nat.le_add_right k i)),
    Nat.add_sub_cancel_left]

theorem putBack_write (p : Memory α) (k : Nat) (cells : List α) :
    putBack p k (write (advance p k) 0 cells) = write p k cells := by
  funext i
  simp only [putBack, write]
  by_cases hbefore : i < k
  · rw [if_pos hbefore, if_neg (Nat.not_le.mpr hbefore)]
  · rw [if_neg hbefore, if_pos (Nat.zero_le _), if_pos (Nat.not_lt.mp hbefore), Nat.sub_zero,
      advance_apply, Nat.add_sub_cancel' (Nat.not_lt.mp hbefore)]

end CellMemory
