import Ward3n.ApduCodec

/-!
# Short APDUs, written and parsed

The four short cases of ISO 7816-4 as one kind of command, with its encoding,
and the parser measured against it from both sides: every short command is
parsed to its own fields, and what is parsed is held against the bytes it came
from. The second fails when bytes are left over behind Le, which is how an
extended APDU looks to a parser of short ones.
-/

namespace ShortApdus

open CellMemory ApduCodec

/-- A short command. No data is the empty list; Le is 256 for the byte 00. -/
structure ShortCommand where
  cla : UInt8
  ins : UInt8
  p1 : UInt8
  p2 : UInt8
  data : List UInt8
  le : Option Nat
  data_short : data.length ≤ 255
  le_range : ∀ n ∈ le, 1 ≤ n ∧ n ≤ 256

/-- Lc and the data, or nothing. -/
def bodyBytes : List UInt8 → List UInt8
  | [] => []
  | b :: data => UInt8.ofNat (b :: data).length :: b :: data

/-- Le, or nothing. -/
def leBytes (le : Option Nat) : List UInt8 := le.toList.map UInt8.ofNat

/-- The encoding of the standard. -/
def ShortCommand.bytes (c : ShortCommand) : List UInt8 :=
  [c.cla, c.ins, c.p1, c.p2] ++ bodyBytes c.data ++ leBytes c.le

/-- What a handler finds in a parsed command. -/
structure Fields where
  cla : UInt8
  ins : UInt8
  p1 : UInt8
  p2 : UInt8
  hasLc : Bool
  lc : Nat
  data : List UInt8
  hasLe : Bool
  le : Nat
  deriving DecidableEq

def fields (cmd : ApduCmd) : Fields :=
  { cla := cmd.cla, ins := cmd.ins, p1 := cmd.p1, p2 := cmd.p2, hasLc := cmd.hasLc, lc := cmd.lc,
    data := read cmd.data cmd.lc, hasLe := cmd.hasLe, le := cmd.le }

/-- The fields of the command itself. -/
def ShortCommand.fields (c : ShortCommand) : Fields :=
  { cla := c.cla, ins := c.ins, p1 := c.p1, p2 := c.p2, hasLc := !c.data.isEmpty,
    lc := c.data.length, data := c.data, hasLe := c.le.isSome, le := c.le.getD 0 }

theorem leValue_ofNat {n : Nat} (h : 1 ≤ n ∧ n ≤ 256) : leValue (UInt8.ofNat n) = n := by
  have hbyte : (UInt8.ofNat n).toNat = n % 256 := by simp
  simp only [leValue]
  by_cases hfull : n = 256
  · rw [hfull]
    rfl
  · have hne : UInt8.ofNat n ≠ 0 := by
      intro hzero
      rw [hzero] at hbyte
      have hz : (0 : UInt8).toNat = 0 := rfl
      omega
    rw [if_neg hne]
    omega

section Parsing

variable {raw : Memory UInt8}

theorem header_of_read {n : Nat} {a b c d : UInt8} {rest : List UInt8}
    (h : read raw n = [a, b, c, d] ++ rest) : raw 0 = a ∧ raw 1 = b ∧ raw 2 = c ∧ raw 3 = d :=
  ⟨cell_of_read h rfl, cell_of_read h rfl, cell_of_read h rfl, cell_of_read h rfl⟩

/-- Without data the command is told by its length. -/
theorem apduParse_bodiless {a b c d : UInt8} {le : Option Nat} {n : Nat}
    (hle : ∀ m ∈ le, 1 ≤ m ∧ m ≤ 256) (hn : n = 4 + le.toList.length)
    (h : read raw n = [a, b, c, d] ++ leBytes le) :
    apduParse raw n = some
      { cla := a, ins := b, p1 := c, p2 := d, lc := 0, data := nullData, le := le.getD 0,
        hasLc := false, hasLe := le.isSome } := by
  obtain ⟨h0, h1, h2, h3⟩ := header_of_read h
  cases le with
  | none =>
    have hfour : n = 4 := hn
    simp [apduParse, hfour, h0, h1, h2, h3]
  | some m =>
    have hfive : n = 5 := hn
    have h4 : raw 4 = UInt8.ofNat m := cell_of_read h rfl
    simp [apduParse, hfive, h0, h1, h2, h3, h4, leValue_ofNat (hle m rfl)]

/-- With data, Lc says where the data ends, and one byte may follow. -/
theorem apduParse_body {a b c d : UInt8} {data : List UInt8} {le : Option Nat} {n : Nat}
    (hdata : data ≠ [] ∧ data.length ≤ 255) (hle : ∀ m ∈ le, 1 ≤ m ∧ m ≤ 256)
    (hn : n = 5 + data.length + le.toList.length)
    (h : read raw n = [a, b, c, d] ++ (UInt8.ofNat data.length :: data) ++ leBytes le) :
    apduParse raw n = some
      { cla := a, ins := b, p1 := c, p2 := d, lc := data.length, data := advance raw 5,
        le := le.getD 0, hasLc := true, hasLe := le.isSome } := by
  rw [List.append_assoc] at h
  obtain ⟨h0, h1, h2, h3⟩ := header_of_read h
  have hpos := List.length_pos_of_ne_nil hdata.1
  have h4 : (raw 4).toNat = data.length := by
    have hcell : raw 4 = UInt8.ofNat data.length := cell_of_read h rfl
    rw [hcell]
    simp
    omega
  have hfour : ¬ n < 4 ∧ n ≠ 4 ∧ n ≠ 5 := by omega
  simp only [apduParse]
  rw [if_neg hfour.1, if_neg hfour.2.1, if_neg hfour.2.2, h4, if_neg (by omega)]
  cases le with
  | none =>
    have hend : n = 5 + data.length := hn
    rw [if_neg (by omega), h0, h1, h2, h3]
    rfl
  | some m =>
    have hend : n = 5 + data.length + 1 := hn
    have hlast : raw (5 + data.length) = UInt8.ofNat m := by
      have hcells : read raw n = (a :: b :: c :: d :: UInt8.ofNat data.length :: data) ++
        [UInt8.ofNat m] := h
      have hcount : (a :: b :: c :: d :: UInt8.ofNat data.length :: data).length =
          5 + data.length := by
        simp only [List.length_cons]
        omega
      apply cell_of_read hcells
      rw [← hcount]
      exact List.getElem?_concat_length
    rw [if_pos (by omega), h0, h1, h2, h3, hlast, leValue_ofNat (hle m rfl)]
    rfl

/-- Parsing the encoding of a command gives the fields of the command. -/
theorem apduParse_bytes (c : ShortCommand) (h : read raw c.bytes.length = c.bytes) :
    (apduParse raw c.bytes.length).map fields = some c.fields := by
  obtain ⟨cla, ins, p1, p2, data, le, hshort, hle⟩ := c
  cases data with
  | nil =>
    have hparse := apduParse_bodiless hle
      (by simp [ShortCommand.bytes, bodyBytes, leBytes]; omega) h
    rw [hparse]
    rfl
  | cons b data =>
    have hparse := apduParse_body ⟨by simp, hshort⟩ hle
      (by simp [ShortCommand.bytes, bodyBytes, leBytes]; omega) h
    have hdata : read (advance raw 5) (b :: data).length = b :: data := by
      have hsplit : ∃ n, read raw n =
          [cla, ins, p1, p2, UInt8.ofNat (b :: data).length] ++ (b :: data) ++ leBytes le := ⟨_, h⟩
      exact read_between hsplit.choose_spec
    rw [hparse]
    simp only [Option.map_some, fields, hdata]
    rfl

end Parsing

theorem ShortCommand.ext_fields {c d : ShortCommand} (h : c.fields = d.fields) : c = d := by
  have hle : c.le = d.le := by
    have hsome := congrArg Fields.hasLe h
    have hvalue := congrArg Fields.le h
    simp only [ShortCommand.fields] at hsome hvalue
    cases hc : c.le <;> cases hd : d.le <;> simp_all
  have hcla := congrArg Fields.cla h
  have hins := congrArg Fields.ins h
  have hp1 := congrArg Fields.p1 h
  have hp2 := congrArg Fields.p2 h
  have hdata := congrArg Fields.data h
  simp only [ShortCommand.fields] at hcla hins hp1 hp2 hdata
  cases c
  cases d
  simp_all

/-- Decoding undoes encoding: in a buffer with anything behind the command, each command gives
its own fields, so two commands never parse alike, and Le is never 0 when it is there. -/
theorem short_round_trip :
    (∀ (c : ShortCommand) (buf : Memory UInt8),
      (apduParse (write buf 0 c.bytes) c.bytes.length).map fields = some c.fields) ∧
    (∀ (c d : ShortCommand) (buf buf' : Memory UInt8),
      (apduParse (write buf 0 c.bytes) c.bytes.length).map fields =
        (apduParse (write buf' 0 d.bytes) d.bytes.length).map fields → c = d) ∧
    (∀ (raw : Memory UInt8) (rawLen : Nat) (cmd : ApduCmd),
      apduParse raw rawLen = some cmd → cmd.hasLe = true → cmd.le ≠ 0) := by
  have parsed : ∀ (c : ShortCommand) (buf : Memory UInt8),
      (apduParse (write buf 0 c.bytes) c.bytes.length).map fields = some c.fields :=
    fun c buf => apduParse_bytes c (read_write_zero buf c.bytes)
  refine ⟨parsed, ?_, ?_⟩
  · intro c d buf buf' hsame
    rw [parsed c buf, parsed d buf'] at hsame
    exact ShortCommand.ext_fields (Option.some.inj hsame)
  · intro raw rawLen cmd hparse hle
    exact Nat.ne_of_gt ((apduParse_accepted hparse).expected hle).1

/-- The bytes a parsed command stands for. -/
def Fields.bytes (f : Fields) : List UInt8 :=
  [f.cla, f.ins, f.p1, f.p2] ++ (if f.hasLc then UInt8.ofNat f.lc :: f.data else []) ++
    (if f.hasLe then [UInt8.ofNat f.le] else [])

/-- An APDU with extended lengths and an Lc or Le behind the fifth byte 00: Le alone, data
alone, or data and Le. -/
def ExtendedApdu (raw : Memory UInt8) (rawLen : Nat) : Prop :=
  raw 4 = 0 ∧ (rawLen = 7 ∨ rawLen = 7 + ((raw 5).toNat * 256 + (raw 6).toNat) ∨
    rawLen = 7 + ((raw 5).toNat * 256 + (raw 6).toNat) + 2)

/-- What is accepted is the command it was parsed to and nothing more. -/
structure AccountsForInput (raw : Memory UInt8) (rawLen : Nat) : Prop where
  exact : ∀ cmd, apduParse raw rawLen = some cmd → read raw rawLen = (fields cmd).bytes
  extended : ExtendedApdu raw rawLen → apduParse raw rawLen = none

theorem ofNat_leValue (b : UInt8) : UInt8.ofNat (leValue b) = b := by
  simp only [leValue]
  split
  · rename_i hzero
    rw [hzero]
    rfl
  · exact UInt8.ofNat_toNat

/-- An input that goes on behind the Le byte is parsed as if it ended there. -/
theorem apduParse_overlong {raw : Memory UInt8} {rawLen : Nat}
    (h : 6 + (raw 4).toNat < rawLen) :
    ∃ cmd, apduParse raw rawLen = some cmd ∧ (fields cmd).bytes.length = 6 + (raw 4).toNat := by
  have hlong : ¬ rawLen < 4 ∧ rawLen ≠ 4 ∧ rawLen ≠ 5 ∧ ¬ 5 + (raw 4).toNat > rawLen ∧
      5 + (raw 4).toNat < rawLen := by omega
  obtain ⟨h0, h1, h2, h3, h4⟩ := hlong
  refine ⟨_, by rw [apduParse, if_neg h0, if_neg h1, if_neg h2, if_neg h3, if_pos h4], ?_⟩
  simp [fields, Fields.bytes]
  omega

/-- An input that does not is accounted for byte by byte. -/
theorem apduParse_exact {raw : Memory UInt8} {rawLen : Nat} (h : rawLen ≤ 6 + (raw 4).toNat)
    {cmd : ApduCmd} (hparse : apduParse raw rawLen = some cmd) :
    read raw rawLen = (fields cmd).bytes := by
  have hheader : read raw 4 = [raw 0, raw 1, raw 2, raw 3] := rfl
  simp only [apduParse] at hparse
  by_cases hshort : rawLen < 4
  · rw [if_pos hshort] at hparse
    cases hparse
  rw [if_neg hshort] at hparse
  by_cases hfour : rawLen = 4
  · rw [if_pos hfour] at hparse
    cases hparse
    rw [hfour]
    rfl
  rw [if_neg hfour] at hparse
  by_cases hfive : rawLen = 5
  · rw [if_pos hfive] at hparse
    cases hparse
    rw [hfive]
    simp only [fields, Fields.bytes, ofNat_leValue]
    rfl
  rw [if_neg hfive] at hparse
  by_cases htrunc : 5 + (raw 4).toNat > rawLen
  · rw [if_pos htrunc] at hparse
    cases hparse
  rw [if_neg htrunc] at hparse
  have hbody : read raw (5 + (raw 4).toNat) =
      [raw 0, raw 1, raw 2, raw 3] ++ (raw 4 :: read (advance raw 5) (raw 4).toNat) :=
    read_add raw 5 (raw 4).toNat
  by_cases hle : 5 + (raw 4).toNat < rawLen
  · rw [if_pos hle] at hparse
    cases hparse
    have hend : rawLen = 5 + (raw 4).toNat + 1 := by omega
    have hlast : read (advance raw (5 + (raw 4).toNat)) 1 = [raw (5 + (raw 4).toNat)] := rfl
    simp only [fields, Fields.bytes, ofNat_leValue, UInt8.ofNat_toNat, if_true]
    rw [hend, read_add, hbody, hlast]
  · rw [if_neg hle] at hparse
    cases hparse
    have hend : rawLen = 5 + (raw 4).toNat := by omega
    simp only [fields, Fields.bytes, UInt8.ofNat_toNat, if_true]
    rw [hend, hbody]
    simp

/-- Input is dropped exactly when it goes on behind the place of the Le byte. -/
theorem accounts_for_input_iff (raw : Memory UInt8) (rawLen : Nat) :
    AccountsForInput raw rawLen ↔ rawLen ≤ 6 + (raw 4).toNat := by
  constructor
  · intro haccounts
    by_contra hlong
    obtain ⟨cmd, hparse, hcount⟩ := apduParse_overlong (Nat.not_le.mp hlong)
    have hbytes := congrArg List.length (haccounts.exact cmd hparse)
    rw [read_length] at hbytes
    omega
  · intro hend
    constructor
    · intro cmd hparse
      exact apduParse_exact hend hparse
    · rintro ⟨hzero, hlen⟩
      have hz : (0 : UInt8).toNat = 0 := rfl
      rw [hzero] at hend
      omega

/-- GET DATA for the certificate with an extended Lc. -/
def extendedGetData : Memory UInt8 :=
  write nullData 0 [0x00, 0xCB, 0x3F, 0xFF, 0x00, 0x00, 0x05, 0x5C, 0x03, 0x5F, 0xC1, 0x05]

theorem extended_parsed_as_short :
    ExtendedApdu extendedGetData 12 ∧ (apduParse extendedGetData 12).map fields = some
      { cla := 0x00, ins := 0xCB, p1 := 0x3F, p2 := 0xFF, hasLc := true, lc := 0, data := [],
        hasLe := true, le := 256 } ∧ ¬ AccountsForInput extendedGetData 12 := by
  have hextended : ExtendedApdu extendedGetData 12 := ⟨by decide, by decide⟩
  refine ⟨hextended, by decide, fun haccounts => ?_⟩
  have hnone := congrArg Option.isSome (haccounts.extended hextended)
  exact absurd hnone (by decide)

end ShortApdus
