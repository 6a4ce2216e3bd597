import Ward3n.AppletEffects
import Ward3n.CheckedAccess

/-!
# The dynamic authentication template

The parser of GENERAL AUTHENTICATE walks over `7C L 82 00 81 n h` with a pointer
and a count of the bytes that remain, both moved by hand. The same walk with
every access checked never faults. The data it accepts are those of this shape,
with two liberties: the value of L plays no part, and bytes behind h are left
unread.
-/

namespace AuthenticationTemplate

open CellMemory MachineWords ApduCodec CryptoBackend DeviceState PivApplet AppletEffects
  CheckedAccess

section Arithmetic

variable {data : Memory UInt8} {lc p rem : Nat}

/-- The parse of the template behind its length, without wrap-around. -/
theorem challengeWindow_eq (hrem : rem < 2 ^ 32) :
    challengeWindow data p rem =
      if rem < 2 ∨ data p ≠ pivDatResponse ∨ data (p + 1) ≠ 0x00 then none
      else if rem - 2 < 2 ∨ data (p + 2) ≠ pivDatChallenge then none
      else if rem - 4 < (data (p + 3)).toNat ∨ (data (p + 3)).toNat = 0 ∨
        (data (p + 3)).toNat > 64 then none
      else some (p + 4, (data (p + 3)).toNat) := by
  simp only [challengeWindow]
  by_cases hresponse : rem < 2 ∨ data p ≠ pivDatResponse ∨ data (p + 1) ≠ 0x00
  · rw [if_pos hresponse, if_pos hresponse]
  have htwo : sub32 rem 2 = rem - 2 := sub32_of_le (by omega) hrem
  rw [if_neg hresponse, if_neg hresponse, htwo]
  by_cases hchallenge : rem - 2 < 2 ∨ data (p + 2) ≠ pivDatChallenge
  · rw [if_pos hchallenge, if_pos hchallenge]
  have hthree : sub32 (rem - 2) 1 = rem - 3 := by
    rw [sub32_of_le (by omega) (by omega)]
    omega
  have hfour : sub32 (rem - 3) 1 = rem - 4 := by
    rw [sub32_of_le (by omega) (by omega)]
    omega
  rw [if_neg hchallenge, if_neg hchallenge, hthree, hfour]

/-- The whole parse, without wrap-around. -/
theorem templateChallenge_eq (hpos : 0 < lc) (hlc : lc < 2 ^ 32) :
    templateChallenge data lc =
      if data 0 ≠ pivDatTag then none
      else if lc = 1 then none
      else if data 1 < 0x80 then challengeWindow data 2 (lc - 2)
      else if data 1 = 0x81 ∧ 3 ≤ lc then challengeWindow data 3 (lc - 3)
      else none := by
  have hone : sub32 lc 1 = lc - 1 := sub32_of_le hpos hlc
  simp only [templateChallenge, hone]
  by_cases htag : data 0 ≠ pivDatTag
  · rw [if_pos htag, if_pos htag]
  by_cases hend : lc = 1
  · rw [if_neg htag, if_neg htag, if_pos hend, if_pos (by omega)]
  have htwo : sub32 (lc - 1) 1 = lc - 2 := by
    rw [sub32_of_le (by omega) (by omega)]
    omega
  rw [if_neg htag, if_neg htag, if_neg hend, if_neg (by omega), htwo]
  by_cases hshort : data 1 < 0x80
  · rw [if_pos hshort, if_pos hshort]
  rw [if_neg hshort, if_neg hshort]
  by_cases hlong : data 1 = 0x81 ∧ 3 ≤ lc
  · have hthree : sub32 (lc - 1) 2 = lc - 3 := by
      rw [sub32_of_le (by omega) (by omega)]
      omega
    rw [if_pos hlong, if_pos ⟨hlong.1, by omega⟩, hthree]
  · rw [if_neg hlong, if_neg fun h => hlong ⟨h.1, by omega⟩]

end Arithmetic

section Checked

/-- `challengeWindow` on the command data of `lc` bytes, with its accesses checked in the
order in which they are made. -/
def checkedWindow (data : Memory UInt8) (lc p rem : Nat) : Except Fault (Option (Nat × Nat)) :=
  if rem < 2 then .ok none
  else do
    let tag ← load data lc p
    if tag ≠ pivDatResponse then .ok none
    else
      let len ← load data lc (p + 1)
      if len ≠ 0x00 then .ok none
      else
        let p := p + 2
        let rem ← lower rem 2
        if rem < 2 then .ok none
        else
          let tag ← load data lc p
          if tag ≠ pivDatChallenge then .ok none
          else
            let p := p + 1
            let rem ← lower rem 1
            let hashLen ← load data lc p
            let p := p + 1
            let rem ← lower rem 1
            if rem < hashLen.toNat ∨ hashLen.toNat = 0 ∨ hashLen.toNat > 64 then .ok none
            else .ok (some (p, hashLen.toNat))

/-- `templateChallenge`, checked. The outer length is loaded where the source loads it. -/
def checkedTemplate (data : Memory UInt8) (lc : Nat) : Except Fault (Option (Nat × Nat)) := do
  let tag ← load data lc 0
  if tag ≠ pivDatTag then .ok none
  else
    let rem ← lower lc 1
    if rem = 0 then .ok none
    else
      let first ← load data lc 1
      if first < 0x80 then
        let rem ← lower rem 1
        checkedWindow data lc 2 rem
      else if first = 0x81 ∧ rem ≥ 2 then
        let _datLen ← load data lc 2
        let rem ← lower rem 2
        checkedWindow data lc 3 rem
      else .ok none

variable {data : Memory UInt8} {lc : Nat}

/-- The index and the count always add up to the end of the data, so a byte that the count
allows for is inside. -/
theorem checkedWindow_eq {p rem : Nat} (hend : p + rem = lc) (hlc : lc < 2 ^ 32) :
    checkedWindow data lc p rem = .ok (challengeWindow data p rem) := by
  rw [challengeWindow_eq (by omega)]
  simp only [checkedWindow]
  by_cases hshort : rem < 2
  · rw [if_pos hshort, if_pos (Or.inl hshort)]
  rw [if_neg hshort, load_of_lt (by omega), ok_bind]
  by_cases htag : data p ≠ pivDatResponse
  · rw [if_pos htag, if_pos (Or.inr (Or.inl htag))]
  rw [if_neg htag, load_of_lt (by omega), ok_bind]
  by_cases hempty : data (p + 1) ≠ 0x00
  · rw [if_pos hempty, if_pos (Or.inr (Or.inr hempty))]
  have hresponse : ¬ (rem < 2 ∨ data p ≠ pivDatResponse ∨ data (p + 1) ≠ 0x00) := by
    simp only [not_or]
    exact ⟨hshort, htag, hempty⟩
  rw [if_neg hempty, if_neg hresponse, lower_of_le (by omega), ok_bind]
  by_cases hshort' : rem - 2 < 2
  · rw [if_pos hshort', if_pos (Or.inl hshort')]
  rw [if_neg hshort', load_of_lt (by omega), ok_bind]
  by_cases htag' : data (p + 2) ≠ pivDatChallenge
  · rw [if_pos htag', if_pos (Or.inr htag')]
  have hcount : rem - 2 - 1 - 1 = rem - 4 := by omega
  rw [if_neg htag', if_neg (not_or.mpr ⟨hshort', htag'⟩), lower_of_le (by omega), ok_bind,
    load_of_lt (by omega), ok_bind, lower_of_le (by omega), ok_bind, hcount]
  split <;> rfl

/-- With its accesses checked, the parse never faults and comes to the same result. -/
theorem checkedTemplate_eq (hpos : 0 < lc) (hlc : lc < 2 ^ 32) :
    checkedTemplate data lc = .ok (templateChallenge data lc) := by
  rw [templateChallenge_eq hpos hlc]
  simp only [checkedTemplate]
  rw [load_of_lt hpos, ok_bind]
  by_cases htag : data 0 ≠ pivDatTag
  · rw [if_pos htag, if_pos htag]
  rw [if_neg htag, if_neg htag, lower_of_le (by omega), ok_bind]
  by_cases hend : lc = 1
  · rw [if_pos hend, if_pos (by omega)]
  rw [if_neg hend, if_neg (by omega), load_of_lt (by omega), ok_bind]
  by_cases hshort : data 1 < 0x80
  · have hcount : lc - 1 - 1 = lc - 2 := by omega
    rw [if_pos hshort, if_pos hshort, lower_of_le (by omega), ok_bind, hcount]
    exact checkedWindow_eq (by omega) hlc
  rw [if_neg hshort, if_neg hshort]
  by_cases hlong : data 1 = 0x81 ∧ 3 ≤ lc
  · have hcount : lc - 1 - 2 = lc - 3 := by omega
    rw [if_pos hlong, if_pos ⟨hlong.1, by omega⟩, load_of_lt (by omega), ok_bind,
      lower_of_le (by omega), ok_bind, hcount]
    exact checkedWindow_eq (by omega) hlc
  · rw [if_neg hlong, if_neg fun h => hlong ⟨h.1, by omega⟩]

end Checked

/-- The outer length: its short form, or the form with one length byte behind 81. -/
inductive LengthField : List UInt8 → Prop
  | short {b : UInt8} (h : b < 0x80) : LengthField [b]
  | long (b : UInt8) : LengthField [0x81, b]

/-- The template `7C L 82 00 81 n h` for a challenge, with a given length field L. -/
def template (field hash : List UInt8) : List UInt8 :=
  [pivDatTag] ++ field ++
    ([pivDatResponse, 0x00, pivDatChallenge, UInt8.ofNat hash.length] ++ hash)

/-- The data begins with a template for this challenge. -/
def Carries (bytes hash : List UInt8) : Prop :=
  ∃ field rest, LengthField field ∧ (1 ≤ hash.length ∧ hash.length ≤ 64) ∧
    bytes = template field hash ++ rest

section Shape

variable {data : Memory UInt8} {lc p rem start n : Nat} {hash : List UInt8}

/-- What is found behind the outer length when a challenge is found. -/
theorem window_shape (hrem : rem < 2 ^ 32) (h : challengeWindow data p rem = some (start, n)) :
    (1 ≤ n ∧ n ≤ 64) ∧ ∃ rest, read (advance data p) rem =
      [pivDatResponse, 0x00, pivDatChallenge, UInt8.ofNat n] ++ read (advance data start) n ++
        rest := by
  rw [challengeWindow_eq hrem] at h
  split at h
  · cases h
  rename_i hresponse
  split at h
  · cases h
  rename_i hchallenge
  split at h
  · cases h
  rename_i hcount
  cases h
  simp only [not_or, not_not] at hresponse hchallenge hcount
  refine ⟨by omega, read (advance data (p + 4 + (data (p + 3)).toNat))
    (rem - 4 - (data (p + 3)).toNat), ?_⟩
  have hhead : read (advance data p) 4 = [data p, data (p + 1), data (p + 2), data (p + 3)] := rfl
  have hsplit : rem = 4 + (data (p + 3)).toNat + (rem - 4 - (data (p + 3)).toNat) := by omega
  rw [hsplit, read_add, read_add, hhead, hresponse.2.1, hresponse.2.2, hchallenge.2,
    UInt8.ofNat_toNat, advance_advance, advance_advance, ← Nat.add_assoc]
  congr 3
  omega

theorem window_of_shape {rest : List UInt8} (hrem : rem < 2 ^ 32)
    (hhash : 1 ≤ hash.length ∧ hash.length ≤ 64)
    (h : read (advance data p) rem =
      [pivDatResponse, 0x00, pivDatChallenge, UInt8.ofNat hash.length] ++ hash ++ rest) :
    challengeWindow data p rem = some (p + 4, hash.length) ∧
      read (advance data (p + 4)) hash.length = hash := by
  have hcount : rem = 4 + hash.length + rest.length := by
    have hlen := congrArg List.length h
    rw [read_length] at hlen
    simp at hlen
    omega
  have h0 : advance data p 0 = pivDatResponse := cell_of_read h rfl
  have h1 : advance data p 1 = 0x00 := cell_of_read h rfl
  have h2 : advance data p 2 = pivDatChallenge := cell_of_read h rfl
  have h3 : advance data p 3 = UInt8.ofNat hash.length := cell_of_read h rfl
  rw [advance_apply] at h0 h1 h2 h3
  have hbyte : (data (p + 3)).toNat = hash.length := by
    rw [h3]
    simp
    omega
  constructor
  · rw [challengeWindow_eq hrem, hbyte, if_neg, if_neg, if_neg]
    · omega
    · simp only [not_or, not_not]
      exact ⟨by omega, h2⟩
    · simp only [not_or, not_not]
      exact ⟨by omega, h0, h1⟩
  · rw [← advance_advance]
    exact read_between h

theorem templateChallenge_carries (hpos : 0 < lc) (hlc : lc < 2 ^ 32)
    (h : templateChallenge data lc = some (start, n)) :
    Carries (read data lc) (read (advance data start) n) := by
  rw [templateChallenge_eq hpos hlc] at h
  by_cases htag : data 0 ≠ pivDatTag
  · rw [if_pos htag] at h
    cases h
  by_cases hend : lc = 1
  · rw [if_neg htag, if_pos hend] at h
    cases h
  rw [if_neg htag, if_neg hend] at h
  have htag : data 0 = pivDatTag := not_not.mp htag
  by_cases hshort : data 1 < 0x80
  · rw [if_pos hshort] at h
    obtain ⟨hcount, rest, hread⟩ := window_shape (by omega) h
    have hsplit : lc = 2 + (lc - 2) := by omega
    have hhead : read data 2 = [data 0, data 1] := rfl
    refine ⟨[data 1], rest, .short hshort, by rwa [read_length], ?_⟩
    rw [hsplit, read_add, hhead, hread, htag, template, read_length]
    simp
  rw [if_neg hshort] at h
  by_cases hlong : data 1 = 0x81 ∧ 3 ≤ lc
  · rw [if_pos hlong] at h
    obtain ⟨hcount, rest, hread⟩ := window_shape (by omega) h
    have hsplit : lc = 3 + (lc - 3) := by omega
    have hhead : read data 3 = [data 0, data 1, data 2] := rfl
    refine ⟨[0x81, data 2], rest, .long (data 2), by rwa [read_length], ?_⟩
    rw [hsplit, read_add, hhead, hread, htag, hlong.1, template, read_length]
    simp
  · rw [if_neg hlong] at h
    cases h

theorem templateChallenge_of_carries (hlc : lc < 2 ^ 32) (h : Carries (read data lc) hash) :
    ∃ start, templateChallenge data lc = some (start, hash.length) ∧
      read (advance data start) hash.length = hash := by
  obtain ⟨field, rest, hfield, hhash, hread⟩ := h
  have hcount := congrArg List.length hread
  rw [read_length] at hcount
  simp only [template, List.length_append, List.length_cons, List.length_nil] at hcount
  have htag : data 0 = pivDatTag := cell_of_read hread rfl
  rw [templateChallenge_eq (by omega) hlc, if_neg (not_not.mpr htag), if_neg (by omega)]
  cases hfield with
  | @short b hshort =>
    have hfirst : data 1 = b := cell_of_read hread rfl
    have htail : read (advance data 2) (lc - 2) =
        [pivDatResponse, 0x00, pivDatChallenge, UInt8.ofNat hash.length] ++ hash ++ rest := by
      have hsplit : 2 + (lc - 2) = lc := by simp at hcount; omega
      rw [← read_drop, hsplit, hread]
      rfl
    rw [if_pos (by rwa [hfirst])]
    exact ⟨2 + 4, window_of_shape (by omega) hhash htail⟩
  | long b =>
    have hfirst : data 1 = 0x81 := cell_of_read hread rfl
    have htail : read (advance data 3) (lc - 3) =
        [pivDatResponse, 0x00, pivDatChallenge, UInt8.ofNat hash.length] ++ hash ++ rest := by
      have hsplit : 3 + (lc - 3) = lc := by simp at hcount; omega
      rw [← read_drop, hsplit, hread]
      rfl
    rw [hfirst, if_neg (by decide), if_pos ⟨rfl, by simp at hcount; omega⟩]
    exact ⟨3 + 4, window_of_shape (by omega) hhash htail⟩

end Shape

/-- The checks of GENERAL AUTHENTICATE in front of the template. -/
structure Admitted (piv : Piv) (cmd : ApduCmd) : Prop where
  alg : cmd.p1 = algEcdsaP256
  keyRef : cmd.p2 = keyRef9A
  pin : piv.pinVerified = true
  body : cmd.hasLc = true ∧ 4 ≤ cmd.lc

section Requests

variable {k : Backend} {amb : Ambient} {card : Card} {piv : Piv} {cmd : ApduCmd}
  {hash : List UInt8}

theorem Admitted.requestedChallenge_eq (h : Admitted piv cmd) :
    requestedChallenge piv cmd =
      (templateChallenge cmd.data cmd.lc).elim (.error swWrongData)
        fun window => .ok (read (advance cmd.data window.1) window.2) := by
  have hlc : ¬ (cmd.hasLc = false ∨ cmd.lc < 4) := by
    simp only [not_or, Bool.not_eq_false, Nat.not_lt]
    exact h.body
  simp only [requestedChallenge]
  rw [if_neg (not_not.mpr h.alg), if_neg (not_not.mpr h.keyRef), if_neg (by simp [h.pin]),
    if_neg hlc]
  cases templateChallenge cmd.data cmd.lc <;> rfl

theorem admitted_of_ok (h : requestedChallenge piv cmd = .ok hash) : Admitted piv cmd := by
  have hpin := requestedChallenge_verified h
  simp only [requestedChallenge] at h
  split at h
  · cases h
  rename_i halg
  split at h
  · cases h
  rename_i hkey
  split at h
  · cases h
  split at h
  · cases h
  rename_i hlc
  simp only [not_or, Bool.not_eq_false, Nat.not_lt] at hlc
  exact ⟨not_not.mp halg, not_not.mp hkey, hpin, hlc⟩

/-- A GENERAL AUTHENTICATE gets as far as the presence check with the challenge its data
carries, if the checks in front of the template pass. -/
theorem requestedChallenge_ok_iff (hlc : cmd.lc ≤ 255) :
    requestedChallenge piv cmd = .ok hash ↔
      Admitted piv cmd ∧ Carries (read cmd.data cmd.lc) hash := by
  constructor
  · intro h
    have hadmitted := admitted_of_ok h
    have hbody := hadmitted.body
    rw [hadmitted.requestedChallenge_eq] at h
    cases htemplate : templateChallenge cmd.data cmd.lc with
    | none =>
      rw [htemplate] at h
      cases h
    | some window =>
      rw [htemplate] at h
      cases h
      exact ⟨hadmitted, templateChallenge_carries (by omega) (by omega) htemplate⟩
  · rintro ⟨hadmitted, hcarries⟩
    obtain ⟨start, htemplate, hread⟩ := templateChallenge_of_carries (by omega) hcarries
    rw [hadmitted.requestedChallenge_eq, htemplate, Option.elim_some, hread]

theorem requestedChallenge_error_of_not (hlc : cmd.lc ≤ 255) (hadmitted : Admitted piv cmd)
    (h : ∀ hash, ¬ Carries (read cmd.data cmd.lc) hash) :
    requestedChallenge piv cmd = .error swWrongData := by
  have hbody := hadmitted.body
  rw [hadmitted.requestedChallenge_eq]
  cases htemplate : templateChallenge cmd.data cmd.lc with
  | none => rfl
  | some window =>
    exact absurd (templateChallenge_carries (by omega) (by omega) htemplate) (h _)

theorem asksToSign_iff (hcmd : Dispatched card cmd 0x87) :
    AsksToSign card (some cmd) hash ↔ requestedChallenge card.piv cmd = .ok hash := by
  constructor
  · rintro ⟨c, hc, _, hrequest⟩
    cases hc
    exact hrequest
  · intro hrequest
    exact ⟨cmd, rfl, hcmd, hrequest⟩

end Requests

/-- The template with its correct outer length, in the short form or the form with 81. -/
def WellFormed (bytes hash : List UInt8) : Prop :=
  bytes = template [UInt8.ofNat (4 + hash.length)] hash ∨
    bytes = template [0x81, UInt8.ofNat (4 + hash.length)] hash

instance (bytes hash : List UInt8) : Decidable (WellFormed bytes hash) := by
  unfold WellFormed
  infer_instance

theorem WellFormed.carries {bytes hash : List UInt8} (h : WellFormed bytes hash)
    (hhash : 1 ≤ hash.length ∧ hash.length ≤ 64) : Carries bytes hash := by
  rcases h with rfl | rfl
  · refine ⟨_, [], .short ?_, hhash, (List.append_nil _).symm⟩
    rw [UInt8.lt_iff_toNat_lt]
    simp
    omega
  · exact ⟨_, [], .long _, hhash, (List.append_nil _).symm⟩

/-- The parse stays inside the data with its count above zero. A well-formed template gets its
challenge to the presence check, and, once authorized, the challenge to `crypto_sign` and
the signature back in its template. -/
theorem template_extraction (k : Backend) (amb : Ambient) (card : Card) :
    (∀ (data : Memory UInt8) (lc : Nat), 4 ≤ lc → lc ≤ 255 →
      checkedTemplate data lc = .ok (templateChallenge data lc)) ∧
    (∀ (apduIn : Memory UInt8) (inLen : Nat) (cmd : ApduCmd) (hash : List UInt8),
      apduParse apduIn inLen = some cmd → Dispatched card cmd 0x87 → Admitted card.piv cmd →
      1 ≤ hash.length ∧ hash.length ≤ 64 → WellFormed (read cmd.data cmd.lc) hash →
      AsksToSign card (some cmd) hash ∧
      (devStateIsAuthorized card.dev = true → hash.length = 32 → ∀ out,
        (pivProcessApdu k amb card apduIn inLen out 502).signed = some hash ∧
        ∀ sig, cryptoSign k amb.pkSign keyRef9A algEcdsaP256 hash 72 = sig → sig ≠ [] →
          (pivProcessApdu k amb card apduIn inLen out 502).answer =
            [0x7C, UInt8.ofNat (2 + sig.length), 0x82, UInt8.ofNat sig.length] ++ sig ++
              [0x90, 0x00])) := by
  constructor
  · intro data lc hlow hhigh
    exact checkedTemplate_eq (by omega) (by omega)
  intro apduIn inLen cmd hash hparse hcmd hadmitted hhash hformed
  have hlc := (apduParse_accepted hparse).lc_le
  have hrequest : requestedChallenge card.piv cmd = .ok hash :=
    (requestedChallenge_ok_iff hlc.1).mpr ⟨hadmitted, hformed.carries hhash⟩
  refine ⟨(asksToSign_iff hcmd).mpr hrequest, fun hauth _ out => ?_⟩
  obtain ⟨r, heffect, hshows⟩ := pivProcessApdu_effect k amb card apduIn inLen
    (show 258 ≤ 502 by decide)
  rw [(hshows out).signed, (hshows out).answer]
  rw [hparse] at heffect
  constructor
  · exact (heffect.signed_iff hash).mpr ⟨(asksToSign_iff hcmd).mpr hrequest, hauth⟩
  · rintro sig hsig hsome
    rw [← hadmitted.keyRef, ← hadmitted.alg] at hsig
    rcases heffect.authenticate_cases hcmd with ⟨_, herror, _⟩ | ⟨hash', hok, hcases⟩
    · rw [hrequest] at herror
      cases herror
    rw [hrequest] at hok
    cases hok
    rcases hcases with ⟨hno, _⟩ | ⟨_, hnone, _⟩ | ⟨_, _, hr⟩
    · rw [hauth] at hno
      cases hno
    · exact absurd (hsig.symm.trans hnone) hsome
    · have hwords : swBytes swOk = [0x90, 0x00] := by decide
      rw [hr, hsig, Reply.bytes, hwords]
      rfl

/-- A card after SELECT and VERIFY, with a press just taken. -/
def pressedCard : Card :=
  { piv := { pivAtReset with selected := true, pinVerified := true },
    dev := devStateButtonPressed (devStateRequestAuth DeviceState.atReset 0) 0 }

/-- GENERAL AUTHENTICATE over the given command data. -/
def authenticateApdu (data : List UInt8) : List UInt8 :=
  [0x00, 0x87, 0x11, 0x9A, UInt8.ofNat data.length] ++ data

def authenticateCmd (data : List UInt8) : ApduCmd :=
  { cla := 0x00, ins := 0x87, p1 := 0x11, p2 := 0x9A, lc := data.length,
    data := advance (write nullData 0 (authenticateApdu data)) 5, le := 0, hasLc := true,
    hasLe := false }

def sampleHash : List UInt8 := List.replicate 32 0xAB

def sampleTemplate : List UInt8 := template [0x24] sampleHash

theorem template_extraction_sample :
    AsksToSign pressedCard (some (authenticateCmd sampleTemplate)) sampleHash ∧
      (pivProcessApdu sampleBackend (ambientAt 1) pressedCard
        (write nullData 0 (authenticateApdu sampleTemplate)) 43 nullData 502).signed =
          some sampleHash := by
  have hsample := (template_extraction sampleBackend (ambientAt 1) pressedCard).2
    (write nullData 0 (authenticateApdu sampleTemplate)) 43 (authenticateCmd sampleTemplate)
    sampleHash rfl ⟨rfl, rfl, rfl⟩ ⟨rfl, rfl, rfl, rfl, by decide⟩ (by decide) (by decide)
  exact ⟨hsample.1, (hsample.2 rfl (by decide) nullData).1⟩

/-- The data the parser takes for a template are those that begin with one: all others are
refused, and nothing changes. -/
theorem accepted_template_shape (k : Backend) (amb : Ambient) (card : Card)
    (apduIn : Memory UInt8) (inLen : Nat) (cmd : ApduCmd)
    (hparse : apduParse apduIn inLen = some cmd) (hcmd : Dispatched card cmd 0x87)
    (hadmitted : Admitted card.piv cmd) :
    (∀ hash, AsksToSign card (some cmd) hash ↔ Carries (read cmd.data cmd.lc) hash) ∧
    ((∀ hash, ¬ Carries (read cmd.data cmd.lc) hash) → ∀ out,
      (pivProcessApdu k amb card apduIn inLen out 502).answer = [0x6A, 0x80] ∧
      (pivProcessApdu k amb card apduIn inLen out 502).card = card) := by
  have hlc := (apduParse_accepted hparse).lc_le
  constructor
  · intro hash
    rw [asksToSign_iff hcmd, requestedChallenge_ok_iff hlc.1]
    exact ⟨And.right, And.intro hadmitted⟩
  · intro hnone out
    have herror := requestedChallenge_error_of_not hlc.1 hadmitted hnone
    obtain ⟨r, heffect, hshows⟩ := pivProcessApdu_effect k amb card apduIn inLen
      (show 258 ≤ 502 by decide)
    rw [hparse] at heffect
    rw [(hshows out).answer, (hshows out).card]
    rcases heffect.authenticate_cases hcmd with ⟨sw, hother, rfl⟩ | ⟨hash, hok, _⟩
    · rw [herror] at hother
      cases hother
      exact ⟨(by decide : swBytes swWrongData = [0x6A, 0x80]), rfl⟩
    · rw [herror] at hok
      cases hok

theorem accepted_template_shape_sample :
    (∀ hash, AsksToSign pressedCard (some (authenticateCmd sampleTemplate)) hash ↔
      Carries (read (authenticateCmd sampleTemplate).data
        (authenticateCmd sampleTemplate).lc) hash) ∧
    ((∀ hash, ¬ Carries (read (authenticateCmd sampleTemplate).data
        (authenticateCmd sampleTemplate).lc) hash) → ∀ out,
      (pivProcessApdu sampleBackend (ambientAt 1) pressedCard
        (write nullData 0 (authenticateApdu sampleTemplate)) 43 out 502).answer = [0x6A, 0x80] ∧
      (pivProcessApdu sampleBackend (ambientAt 1) pressedCard
        (write nullData 0 (authenticateApdu sampleTemplate)) 43 out 502).card = pressedCard) :=
  accepted_template_shape sampleBackend (ambientAt 1) pressedCard
    (write nullData 0 (authenticateApdu sampleTemplate)) 43 (authenticateCmd sampleTemplate) rfl
    ⟨rfl, rfl, rfl⟩ ⟨rfl, rfl, rfl, rfl, by decide⟩

/-- The outer length of a well-formed template is the number of bytes behind it. -/
theorem WellFormed.outer {bytes hash : List UInt8} (h : WellFormed bytes hash) :
    (bytes[1]? = some (UInt8.ofNat (4 + hash.length)) ∧ bytes.length = 6 + hash.length) ∨
      bytes[1]? = some 0x81 := by
  rcases h with rfl | rfl
  · refine Or.inl ⟨rfl, ?_⟩
    simp only [template, List.length_append, List.length_cons, List.length_nil]
    omega
  · exact Or.inr rfl

/-- The card before the user is asked. -/
def verifiedCard : Card :=
  { piv := { pivAtReset with selected := true, pinVerified := true }, dev := DeviceState.atReset }

/-- The data is no template, and the user is asked for a press to sign with it. -/
structure AcceptedLoosely (data hash : List UInt8) : Prop where
  malformed : ∀ hash, ¬ WellFormed data hash
  asks : AsksToSign verifiedCard
    (apduParse (write nullData 0 (authenticateApdu data)) (authenticateApdu data).length) hash
  answer : (pivProcessApdu sampleBackend (ambientAt 1) verifiedCard
    (write nullData 0 (authenticateApdu data)) (authenticateApdu data).length nullData 502).answer =
      [0x69, 0x85]
  waits : (pivProcessApdu sampleBackend (ambientAt 1) verifiedCard
    (write nullData 0 (authenticateApdu data)) (authenticateApdu data).length nullData
      502).card.dev.state = .waitingButton

/-- A one-byte challenge in a template with outer length 0, and in one with a byte too many. -/
theorem loose_templates_accepted :
    AcceptedLoosely (template [0x00] [0xAB]) [0xAB] ∧
      AcceptedLoosely (template [0x05] [0xAB] ++ [0xFF]) [0xAB] := by
  constructor
  · refine ⟨fun hash hformed => ?_, ⟨_, rfl, ⟨rfl, rfl, rfl⟩, rfl⟩, by decide, by decide⟩
    rcases hformed.outer with ⟨hfirst, hcount⟩ | hfirst
    · have hone : hash.length = 1 := by
        have hseven : 7 = 6 + hash.length := hcount
        omega
      rw [hone] at hfirst
      exact absurd hfirst (by decide)
    · exact absurd hfirst (by decide)
  · refine ⟨fun hash hformed => ?_, ⟨_, rfl, ⟨rfl, rfl, rfl⟩, rfl⟩, by decide, by decide⟩
    rcases hformed.outer with ⟨hfirst, hcount⟩ | hfirst
    · have htwo : hash.length = 2 := by
        have height : 8 = 6 + hash.length := hcount
        omega
      rw [htwo] at hfirst
      exact absurd hfirst (by decide)
    · exact absurd hfirst (by decide)

end AuthenticationTemplate
