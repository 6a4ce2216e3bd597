import Ward3n.CellMemory

/-!
# Chains of descriptors

A descriptor begins with its length, which counts the whole of it, and its kind.
Descriptors stand one behind the other, and a program goes from one to the next
by adding the length to a pointer. On a chain that is laid out in memory this
visits its descriptors, in order and whole.
-/

namespace DescriptorChains

open CellMemory

/-- A descriptor without the two bytes that say its length and kind -/
structure Descriptor where
  kind : UInt8
  body : List UInt8
  fits : body.length + 2 < 256

namespace Descriptor

def length (d : Descriptor) : Nat := d.body.length + 2

def bytes (d : Descriptor) : List UInt8 := UInt8.ofNat d.length :: d.kind :: d.body

@[simp] theorem bytes_length (d : Descriptor) : d.bytes.length = d.length := rfl

end Descriptor

def chainBytes (ds : List Descriptor) : List UInt8 := ds.flatMap Descriptor.bytes

/-- The number of bytes a chain takes up. -/
def chainLength (ds : List Descriptor) : Nat := (chainBytes ds).length

/-- The length byte, the kind, and the pointer to what follows -/
def descLen (p : Memory UInt8) : Nat := (p 0).toNat

def descType (p : Memory UInt8) : UInt8 := p 1

def descNext (p : Memory UInt8) : Memory UInt8 := advance p (descLen p)

/-- The chain stands at this address. -/
def Points (p : Memory UInt8) (ds : List Descriptor) : Prop :=
  read p (chainLength ds) = chainBytes ds

section Chains

variable {p : Memory UInt8} {d : Descriptor} {ds es : List Descriptor}

@[simp] theorem chainLength_nil : chainLength [] = 0 := rfl

@[simp] theorem chainLength_cons (d : Descriptor) (ds : List Descriptor) :
    chainLength (d :: ds) = d.length + chainLength ds := by
  rw [chainLength, chainBytes, List.flatMap_cons, List.length_append, d.bytes_length]
  rfl

theorem chainLength_append (ds es : List Descriptor) :
    chainLength (ds ++ es) = chainLength ds + chainLength es := by
  induction ds with
  | nil => rw [List.nil_append, chainLength_nil, Nat.zero_add]
  | cons d ds ih => rw [List.cons_append, chainLength_cons, chainLength_cons, ih, Nat.add_assoc]

theorem Descriptor.length_pos (d : Descriptor) : 0 < d.length := Nat.succ_pos _

/-- What stands at the front of a chain is its first descriptor. -/
theorem Points.first (h : Points p (d :: ds)) : read p d.length = d.bytes := by
  have hfront : (read p (chainLength (d :: ds))).take d.length = d.bytes := by
    rw [h, chainBytes, List.flatMap_cons]
    exact List.take_left' d.bytes_length
  rwa [read_take p (by rw [chainLength_cons]; exact Nat.le_add_right _ _)] at hfront

theorem Points.len (h : Points p (d :: ds)) : descLen p = d.length := by
  have hcell : p 0 = UInt8.ofNat d.length := cell_of_read h.first rfl
  rw [descLen, hcell, UInt8.toNat_ofNat']
  exact Nat.mod_eq_of_lt d.fits

theorem Points.kind (h : Points p (d :: ds)) : descType p = d.kind := cell_of_read h.first rfl

/-- A byte of the descriptor, counted from its front -/
theorem Points.cell (h : Points p (d :: ds)) {i : Nat} {b : UInt8} (hb : d.body[i]? = some b) :
    p (i + 2) = b := cell_of_read h.first hb

theorem Points.next (h : Points p (d :: ds)) : Points (descNext p) ds := by
  have hrest : (read p (chainLength (d :: ds))).drop d.length = chainBytes ds := by
    rw [h, chainBytes, List.flatMap_cons]
    exact List.drop_left' d.bytes_length
  rwa [chainLength_cons, read_drop, ← h.len] at hrest

/-- A chain written to memory stands there. -/
theorem points_write (p : Memory UInt8) (ds : List Descriptor) :
    Points (write p 0 (chainBytes ds)) ds := read_write_zero p (chainBytes ds)

end Chains

end DescriptorChains
