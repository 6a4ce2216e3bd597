import Mathlib.Data.List.Basic

/-!
# Definite-length BER-TLV with one-byte tags

Objects whose length takes the short form or one of the long forms with one or
two length bytes. The reader is strict: a length has to be in the shortest form
that holds it, the value has to be there in full, and a sequence of objects has
to end where the input ends. It reads back what the writer wrote, and nothing
else, so an object has exactly one encoding.
-/

namespace BerTlv

def maxLength : Nat := 0xFFFF

/-- The five low bits of a tag that goes on in further bytes are all ones. -/
def OneByte (tag : UInt8) : Prop := tag.toNat % 32 ≠ 31

instance (tag : UInt8) : Decidable (OneByte tag) := by
  unfold OneByte
  infer_instance

structure Tlv where
  tag : UInt8
  value : List UInt8
  oneByte : OneByte tag
  fits : value.length ≤ maxLength

/-- The shortest form of a length. -/
def lengthBytes (n : Nat) : List UInt8 :=
  if n < 0x80 then [UInt8.ofNat n]
  else if n < 0x100 then [0x81, UInt8.ofNat n]
  else [0x82, UInt8.ofNat (n / 256), UInt8.ofNat n]

def Tlv.bytes (t : Tlv) : List UInt8 := t.tag :: (lengthBytes t.value.length ++ t.value)

def readLength : List UInt8 → Option (Nat × List UInt8)
  | [] => none
  | first :: rest =>
    if first.toNat < 0x80 then some (first.toNat, rest)
    else if first = 0x81 then
      match rest with
      | low :: rest => if low.toNat < 0x80 then none else some (low.toNat, rest)
      | [] => none
    else if first = 0x82 then
      match rest with
      | high :: low :: rest => if high = 0 then none else some (high.toNat * 256 + low.toNat, rest)
      | _ => none
    else none

def readTlv : List UInt8 → Option (Tlv × List UInt8)
  | [] => none
  | tag :: input =>
    match readLength input with
    | none => none
    | some (n, rest) =>
      if h : OneByte tag ∧ n ≤ maxLength ∧ n ≤ rest.length then
        some (⟨tag, rest.take n, h.1, Nat.le_trans (List.length_take_le n rest) h.2.1⟩,
          rest.drop n)
      else none

/-- Objects up to the end of the input, as many as the fuel allows. -/
def readWithin : Nat → List UInt8 → Option (List Tlv)
  | _, [] => some []
  | 0, _ :: _ => none
  | fuel + 1, input =>
    match readTlv input with
    | none => none
    | some (t, rest) => (readWithin fuel rest).map (t :: ·)

/-- All the objects of an input. An object has at least one byte, so the fuel suffices. -/
def readTlvs (input : List UInt8) : Option (List Tlv) := readWithin input.length input

theorem readLength_lengthBytes {n : Nat} (h : n ≤ maxLength) (rest : List UInt8) :
    readLength (lengthBytes n ++ rest) = some (n, rest) := by
  have hmax : maxLength = 65535 := rfl
  have hlow : (UInt8.ofNat n).toNat = n % 256 := by simp
  have hhigh : (UInt8.ofNat (n / 256)).toNat = n / 256 % 256 := by simp
  simp only [lengthBytes]
  by_cases hshort : n < 0x80
  · have hbyte : (UInt8.ofNat n).toNat = n := by omega
    simp [readLength, hshort, hbyte]
  by_cases hone : n < 0x100
  · have hbyte : (UInt8.ofNat n).toNat = n := by omega
    simp [readLength, hshort, hone, hbyte]
  · have hsum : (UInt8.ofNat (n / 256)).toNat * 256 + (UInt8.ofNat n).toNat = n := by omega
    have hne : UInt8.ofNat (n / 256) ≠ 0 := by
      intro hzero
      have hbyte := congrArg UInt8.toNat hzero
      rw [hhigh] at hbyte
      simp at hbyte
      omega
    simp only [if_neg hshort, if_neg hone, List.cons_append, List.nil_append, readLength, hsum,
      if_neg hne]
    simp

theorem readLength_sound {input rest : List UInt8} {n : Nat}
    (h : readLength input = some (n, rest)) : input = lengthBytes n ++ rest := by
  cases input with
  | nil => cases h
  | cons first input =>
    have hfirst := first.toNat_lt
    simp only [readLength] at h
    by_cases hshort : first.toNat < 0x80
    · rw [if_pos hshort] at h
      cases h
      simp [lengthBytes, hshort]
    rw [if_neg hshort] at h
    by_cases hone : first = 0x81
    · rw [if_pos hone] at h
      cases input with
      | nil => cases h
      | cons low input =>
        have hlow := low.toNat_lt
        simp only at h
        by_cases hmin : low.toNat < 0x80
        · rw [if_pos hmin] at h
          cases h
        · rw [if_neg hmin] at h
          cases h
          simp [lengthBytes, hmin, hone, hlow]
    rw [if_neg hone] at h
    by_cases htwo : first = 0x82
    swap
    · rw [if_neg htwo] at h
      cases h
    rw [if_pos htwo] at h
    match input, h with
    | high :: low :: input, h =>
      have hhigh := high.toNat_lt
      have hlow := low.toNat_lt
      simp only at h
      by_cases hmin : high = 0
      · rw [if_pos hmin] at h
        cases h
      · rw [if_neg hmin] at h
        cases h
        have hpos : 0 < high.toNat := Nat.pos_of_ne_zero fun hz => hmin (UInt8.toNat_inj.mp hz)
        have hdiv : (high.toNat * 256 + low.toNat) / 256 = high.toNat := by omega
        have hbyte : UInt8.ofNat (high.toNat * 256 + low.toNat) = low := by
          apply UInt8.toNat_inj.mp
          simp
        have hlarge : ¬ high.toNat * 256 + low.toNat < 0x80 := by omega
        have hlarger : ¬ high.toNat * 256 + low.toNat < 0x100 := by omega
        simp only [lengthBytes, if_neg hlarge, if_neg hlarger, hdiv, hbyte, htwo,
          UInt8.ofNat_toNat, List.cons_append, List.nil_append]

theorem readTlv_bytes (t : Tlv) (rest : List UInt8) :
    readTlv (t.bytes ++ rest) = some (t, rest) := by
  have hcheck : OneByte t.tag ∧ t.value.length ≤ maxLength ∧
      t.value.length ≤ (t.value ++ rest).length := ⟨t.oneByte, t.fits, by simp⟩
  simp only [Tlv.bytes, List.cons_append, List.append_assoc, readTlv,
    readLength_lengthBytes t.fits]
  rw [dif_pos hcheck]
  simp

theorem readTlv_sound {input rest : List UInt8} {t : Tlv} (h : readTlv input = some (t, rest)) :
    input = t.bytes ++ rest := by
  cases input with
  | nil => cases h
  | cons tag input =>
    simp only [readTlv] at h
    cases hlength : readLength input with
    | none =>
      rw [hlength] at h
      cases h
    | some found =>
      obtain ⟨n, behind⟩ := found
      rw [hlength] at h
      simp only at h
      split at h
      · rename_i hcheck
        cases h
        have hcount : (behind.take n).length = n := List.length_take_of_le hcheck.2.2
        simp only [Tlv.bytes, hcount, List.cons_append, List.append_assoc,
          List.take_append_drop]
        rw [readLength_sound hlength]
      · cases h

/-- Fuel for every byte is enough to read back a sequence. -/
theorem readWithin_bytes (ts : List Tlv) (fuel : Nat)
    (hfuel : (ts.flatMap Tlv.bytes).length ≤ fuel) :
    readWithin fuel (ts.flatMap Tlv.bytes) = some ts := by
  induction ts generalizing fuel with
  | nil =>
    cases fuel <;> rfl
  | cons t ts ih =>
    rw [List.flatMap_cons] at hfuel ⊢
    cases fuel with
    | zero => simp [Tlv.bytes] at hfuel
    | succ fuel =>
      have hrest : (ts.flatMap Tlv.bytes).length ≤ fuel := by
        simp only [Tlv.bytes, List.length_append, List.length_cons] at hfuel
        omega
      have hread := readTlv_bytes t (ts.flatMap Tlv.bytes)
      simp only [Tlv.bytes, List.cons_append] at hread ⊢
      simp only [readWithin, hread]
      rw [ih fuel hrest]
      rfl

theorem readWithin_sound {fuel : Nat} {input : List UInt8} {ts : List Tlv}
    (h : readWithin fuel input = some ts) : input = ts.flatMap Tlv.bytes := by
  induction fuel generalizing input ts with
  | zero =>
    cases input with
    | nil =>
      cases h
      rfl
    | cons => cases h
  | succ fuel ih =>
    cases input with
    | nil =>
      cases h
      rfl
    | cons first input =>
      simp only [readWithin] at h
      cases hread : readTlv (first :: input) with
      | none =>
        rw [hread] at h
        cases h
      | some found =>
        obtain ⟨t, rest⟩ := found
        rw [hread] at h
        obtain ⟨later, hlater, rfl⟩ := Option.map_eq_some_iff.mp h
        rw [List.flatMap_cons, ← ih hlater]
        exact readTlv_sound hread

/-- The objects of an input are the ones it is the encoding of. -/
theorem readTlvs_eq_some_iff {input : List UInt8} {ts : List Tlv} :
    readTlvs input = some ts ↔ input = ts.flatMap Tlv.bytes := by
  constructor
  · exact readWithin_sound
  · rintro rfl
    exact readWithin_bytes ts _ (Nat.le_refl _)

end BerTlv
