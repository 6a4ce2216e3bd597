import Ward3n.CellMemory
import Mathlib.Data.Nat.Bitwise

/-!
# ISO 7816-4 short APDUs

The command parser and the response builder of `apdu.c`. A parsed command keeps
a pointer to its data inside the receive buffer, so a handler that reads past
`lc` sees the bytes behind the command. The builder writes into the buffer of
its caller and reserves two bytes for the status word.
-/

namespace ApduCodec

open CellMemory

def swOk : Nat := 0x9000
def swMoreData (n : Nat) : Nat := 0x6100 ||| (n &&& 0xFF)
def swWrongLength : Nat := 0x6700
def swSecurityNotSatisfied : Nat := 0x6982
def swConditionsNotSatisfied : Nat := 0x6985
def swIncorrectP1P2 : Nat := 0x6A86
def swReferencedDataNotFound : Nat := 0x6A88
def swInsNotSupported : Nat := 0x6D00
def swClaNotSupported : Nat := 0x6E00
def swUnknown : Nat := 0x6F00
def swFileNotFound : Nat := 0x6A82
def swWrongData : Nat := 0x6A80

/-- `apdu_cmd_t`. `data` is a pointer into the buffer that was parsed. -/
structure ApduCmd where
  cla : UInt8
  ins : UInt8
  p1 : UInt8
  p2 : UInt8
  lc : Nat
  data : Memory UInt8
  le : Nat
  hasLc : Bool
  hasLe : Bool

/-- The pointer of a cleared command. No handler follows it: each checks `hasLc` first. -/
def nullData : Memory UInt8 := fun _ => 0

/-- The Le byte, where 00 stands for 256. -/
def leValue (b : UInt8) : Nat := if b = 0 then 256 else b.toNat

/-- `apdu_parse`: `none` is the result false. -/
def apduParse (raw : Memory UInt8) (rawLen : Nat) : Option ApduCmd :=
  if rawLen < 4 then none
  else
    let out : ApduCmd :=
      { cla := raw 0, ins := raw 1, p1 := raw 2, p2 := raw 3, lc := 0, data := nullData, le := 0,
        hasLc := false, hasLe := false }
    if rawLen = 4 then some out
    else if rawLen = 5 then some { out with hasLe := true, le := leValue (raw 4) }
    else
      let lc := (raw 4).toNat
      let idx := 5 + lc
      if idx > rawLen then none
      else
        let out := { out with hasLc := true, lc := lc, data := advance raw 5 }
        if idx < rawLen then some { out with hasLe := true, le := leValue (raw idx) }
        else some out

theorem leValue_pos (b : UInt8) : 0 < leValue b := by
  simp only [leValue]
  split
  · decide
  · rename_i hb
    have hne : b.toNat ≠ 0 := fun h => hb (UInt8.toNat_inj.mp h)
    omega

theorem leValue_le (b : UInt8) : leValue b ≤ 256 := by
  simp only [leValue]
  have hb := b.toNat_lt
  split <;> omega

/-- What an accepted command looks like. The data it declares lies inside the input,
but nothing is said about input left over behind it. -/
structure Accepted (raw : Memory UInt8) (rawLen : Nat) (cmd : ApduCmd) : Prop where
  header : 4 ≤ rawLen ∧ cmd.cla = raw 0 ∧ cmd.ins = raw 1 ∧ cmd.p1 = raw 2 ∧ cmd.p2 = raw 3
  body : cmd.hasLc = true →
    6 ≤ rawLen ∧ 5 + cmd.lc ≤ rawLen ∧ cmd.lc = (raw 4).toNat ∧ cmd.data = advance raw 5
  noBody : cmd.hasLc = false → cmd.lc = 0
  expected : cmd.hasLe = true → 0 < cmd.le ∧ cmd.le ≤ 256

theorem apduParse_accepted {raw : Memory UInt8} {rawLen : Nat} {cmd : ApduCmd}
    (h : apduParse raw rawLen = some cmd) : Accepted raw rawLen cmd := by
  simp only [apduParse] at h
  by_cases hshort : rawLen < 4
  · rw [if_pos hshort] at h
    cases h
  rw [if_neg hshort] at h
  have hheader : 4 ≤ rawLen := by omega
  by_cases hfour : rawLen = 4
  · rw [if_pos hfour] at h
    cases h
    exact ⟨⟨hheader, rfl, rfl, rfl, rfl⟩, by simp, by simp, by simp⟩
  rw [if_neg hfour] at h
  by_cases hfive : rawLen = 5
  · rw [if_pos hfive] at h
    cases h
    exact ⟨⟨hheader, rfl, rfl, rfl, rfl⟩, by simp, by simp,
      fun _ => ⟨leValue_pos _, leValue_le _⟩⟩
  rw [if_neg hfive] at h
  by_cases htrunc : 5 + (raw 4).toNat > rawLen
  · rw [if_pos htrunc] at h
    cases h
  rw [if_neg htrunc] at h
  have hbody : 6 ≤ rawLen ∧ 5 + (raw 4).toNat ≤ rawLen := by omega
  by_cases hle : 5 + (raw 4).toNat < rawLen
  · rw [if_pos hle] at h
    cases h
    exact ⟨⟨hheader, rfl, rfl, rfl, rfl⟩, fun _ => ⟨hbody.1, hbody.2, rfl, rfl⟩, by simp,
      fun _ => ⟨leValue_pos _, leValue_le _⟩⟩
  · rw [if_neg hle] at h
    cases h
    exact ⟨⟨hheader, rfl, rfl, rfl, rfl⟩, fun _ => ⟨hbody.1, hbody.2, rfl, rfl⟩, by simp, by simp⟩

theorem Accepted.lc_le {raw : Memory UInt8} {rawLen : Nat} {cmd : ApduCmd}
    (h : Accepted raw rawLen cmd) : cmd.lc ≤ 255 ∧ cmd.lc ≤ rawLen - 5 := by
  cases hhas : cmd.hasLc with
  | true =>
    obtain ⟨_, hlen, hcount, _⟩ := h.body hhas
    have hbyte := (raw 4).toNat_lt
    omega
  | false =>
    have hnone := h.noBody hhas
    omega

/-- Two commands that differ at most in the bytes found from offset `n` of their data on. -/
structure CmdAgree (n : Nat) (c d : ApduCmd) : Prop where
  scalars : c = { d with data := c.data }
  data : Agree n c.data d.data

/-- The parser looks at no byte of the buffer from `rawLen` on. -/
theorem apduParse_agree {raw raw' : Memory UInt8} {rawLen : Nat} (h : Agree rawLen raw raw') :
    (apduParse raw rawLen = none ∧ apduParse raw' rawLen = none) ∨
      ∃ c d, apduParse raw rawLen = some c ∧ apduParse raw' rawLen = some d ∧
        CmdAgree (rawLen - 5) c d := by
  have hnull : ∀ n, Agree n nullData nullData := fun n i _ => rfl
  by_cases hshort : rawLen < 4
  · exact Or.inl (by simp [apduParse, hshort])
  have h0 := h 0 (by omega)
  have h1 := h 1 (by omega)
  have h2 := h 2 (by omega)
  have h3 := h 3 (by omega)
  by_cases hfour : rawLen = 4
  · exact Or.inr ⟨_, _, by rw [apduParse, if_neg hshort, if_pos hfour],
      by rw [apduParse, if_neg hshort, if_pos hfour], by simp [h0, h1, h2, h3], hnull _⟩
  have h4 := h 4 (by omega)
  by_cases hfive : rawLen = 5
  · exact Or.inr ⟨_, _, by rw [apduParse, if_neg hshort, if_neg hfour, if_pos hfive],
      by rw [apduParse, if_neg hshort, if_neg hfour, if_pos hfive],
      by simp [h0, h1, h2, h3, h4], hnull _⟩
  by_cases htrunc : 5 + (raw 4).toNat > rawLen
  · have htrunc' : 5 + (raw' 4).toNat > rawLen := h4 ▸ htrunc
    exact Or.inl ⟨by rw [apduParse, if_neg hshort, if_neg hfour, if_neg hfive, if_pos htrunc],
      by rw [apduParse, if_neg hshort, if_neg hfour, if_neg hfive, if_pos htrunc']⟩
  have htrunc' : ¬ 5 + (raw' 4).toNat > rawLen := h4 ▸ htrunc
  right
  by_cases hle : 5 + (raw 4).toNat < rawLen
  · have hle' : 5 + (raw' 4).toNat < rawLen := h4 ▸ hle
    have hlast := h (5 + (raw' 4).toNat) hle'
    exact ⟨_, _,
      by rw [apduParse, if_neg hshort, if_neg hfour, if_neg hfive, if_neg htrunc, if_pos hle],
      by rw [apduParse, if_neg hshort, if_neg hfour, if_neg hfive, if_neg htrunc', if_pos hle'],
      by simp only [h0, h1, h2, h3, h4, hlast], h.advance 5⟩
  · have hle' : ¬ 5 + (raw' 4).toNat < rawLen := h4 ▸ hle
    exact ⟨_, _,
      by rw [apduParse, if_neg hshort, if_neg hfour, if_neg hfive, if_neg htrunc, if_neg hle],
      by rw [apduParse, if_neg hshort, if_neg hfour, if_neg hfive, if_neg htrunc', if_neg hle'],
      by simp only [h0, h1, h2, h3, h4], h.advance 5⟩

/-- `apdu_resp_t` -/
structure ApduResp where
  buf : Memory UInt8
  capacity : Nat
  len : Nat
  sw : Nat

/-- `apdu_resp_init` -/
def apduRespInit (buf : Memory UInt8) (capacity : Nat) : ApduResp :=
  { buf := buf, capacity := capacity, len := 0, sw := swOk }

/-- `apdu_resp_append`. Every caller in the repository drops the result. -/
def apduRespAppend (r : ApduResp) (data : List UInt8) : Bool × ApduResp :=
  if data.length = 0 then (true, r)
  else if r.len + data.length + 2 > r.capacity then (false, r)
  else (true, { r with buf := write r.buf r.len data, len := r.len + data.length })

/-- `apdu_resp_push` -/
def apduRespPush (r : ApduResp) (byte : UInt8) : Bool × ApduResp := apduRespAppend r [byte]

/-- The two bytes of a status word, SW1 first. -/
def swBytes (sw : Nat) : List UInt8 := [UInt8.ofNat (sw >>> 8), UInt8.ofNat (sw &&& 0xFF)]

/-- `apdu_resp_finalize`: the buffer and the total length. -/
def apduRespFinalize (r : ApduResp) (sw : Nat) : Memory UInt8 × Nat :=
  (write r.buf r.len (swBytes sw), r.len + 2)

/-- The body built so far. -/
def ApduResp.body (r : ApduResp) : List UInt8 := read r.buf r.len

/-- What an append leaves of the body: all of the old one, and the data if it fitted. -/
def extend (capacity : Nat) (body data : List UInt8) : List UInt8 :=
  if body.length + data.length + 2 > capacity then body else body ++ data

@[simp] theorem apduRespInit_body (buf : Memory UInt8) (capacity : Nat) :
    (apduRespInit buf capacity).body = [] := rfl

@[simp] theorem apduRespInit_capacity (buf : Memory UInt8) (capacity : Nat) :
    (apduRespInit buf capacity).capacity = capacity := rfl

@[simp] theorem apduRespAppend_capacity (r : ApduResp) (data : List UInt8) :
    (apduRespAppend r data).2.capacity = r.capacity := by
  simp only [apduRespAppend]
  split <;> [skip; split] <;> rfl

theorem apduRespAppend_body (r : ApduResp) (data : List UInt8) :
    (apduRespAppend r data).2.body = extend r.capacity r.body data := by
  unfold apduRespAppend extend ApduResp.body
  rw [read_length]
  by_cases hempty : data.length = 0
  · rw [if_pos hempty, List.eq_nil_of_length_eq_zero hempty]
    simp
  rw [if_neg hempty]
  by_cases hfull : r.len + data.length + 2 > r.capacity
  · rw [if_pos hfull, if_pos hfull]
  · rw [if_neg hfull, if_neg hfull]
    exact read_write_append r.buf r.len data

theorem apduRespPush_body (r : ApduResp) (byte : UInt8) :
    (apduRespPush r byte).2.body = extend r.capacity r.body [byte] :=
  apduRespAppend_body r [byte]

@[simp] theorem apduRespPush_capacity (r : ApduResp) (byte : UInt8) :
    (apduRespPush r byte).2.capacity = r.capacity :=
  apduRespAppend_capacity r [byte]

/-- The bytes answered are the body and the status word, whatever the buffer held before. -/
theorem apduRespFinalize_bytes (r : ApduResp) (sw : Nat) :
    read (apduRespFinalize r sw).1 (apduRespFinalize r sw).2 = r.body ++ swBytes sw :=
  read_write_append r.buf r.len (swBytes sw)

theorem extend_fits {capacity : Nat} {body data : List UInt8}
    (h : body.length + data.length + 2 ≤ capacity) : extend capacity body data = body ++ data := by
  simp [extend, Nat.not_lt.mpr h]

/-- The status word of an answer: its last two bytes. -/
def statusWord (answer : List UInt8) : Nat :=
  match answer.reverse with
  | sw2 :: sw1 :: _ => sw1.toNat * 256 + sw2.toNat
  | _ => 0

/-- The answer without its status word. -/
def answerBody (answer : List UInt8) : List UInt8 := answer.take (answer.length - 2)

@[simp] theorem swBytes_length (sw : Nat) : (swBytes sw).length = 2 := rfl

@[simp] theorem answerBody_append (body : List UInt8) (sw : Nat) :
    answerBody (body ++ swBytes sw) = body := by
  simp [answerBody]

theorem statusWord_append (body : List UInt8) {sw : Nat} (h : sw < 0x10000) :
    statusWord (body ++ swBytes sw) = sw := by
  have hhigh : (UInt8.ofNat (sw >>> 8)).toNat = sw / 256 := by
    rw [Nat.shiftRight_eq_div_pow]
    simp
    omega
  have hlow : (UInt8.ofNat (sw &&& 0xFF)).toNat = sw % 256 := by
    rw [show (0xFF : Nat) = 2 ^ 8 - 1 by rfl, Nat.and_two_pow_sub_one_eq_mod]
    simp
  simp only [statusWord, swBytes, List.reverse_append, List.reverse_cons, List.reverse_nil,
    List.nil_append, List.cons_append, hhigh, hlow]
  omega

theorem swMoreData_eq {n : Nat} (h : n ≤ 0xFF) : swMoreData n = 0x6100 + n := by
  have hmask : n &&& 0xFF = n := by
    rw [show (0xFF : Nat) = 2 ^ 8 - 1 by rfl, Nat.and_two_pow_sub_one_eq_mod]
    exact Nat.mod_eq_of_lt (by omega)
  have hor := Nat.two_pow_add_eq_or_of_lt (i := 8) (b := n) (by omega) 0x61
  rw [swMoreData, hmask]
  exact hor.symm

end ApduCodec
