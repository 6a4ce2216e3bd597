import Ward3n.AuthenticationTemplate

/-!
# What an APDU can read

A command keeps a pointer into the receive buffer, where bytes of an earlier
message lie behind the input. Each handler is followed with two buffers that
agree on the input: SELECT, VERIFY and GENERAL AUTHENTICATE compare lengths
before they read, GET RESPONSE reads nothing, and GET DATA compares a three-byte
tag that may run past the end of its command data.
-/

namespace InputConfinement

open CellMemory ApduCodec CryptoBackend DeviceState PivApplet AppletEffects
  AuthenticationTemplate

section Handlers

variable {k : Backend} {amb : Ambient} {card : Card} {cmd : ApduCmd} {p : Memory UInt8}
  {out : Memory UInt8} {outCap : Nat}

theorem handleSelect_agree (h : Agree cmd.lc p cmd.data) :
    handleSelect card { cmd with data := p } out outCap = handleSelect card cmd out outCap := by
  simp only [handleSelect]
  by_cases hlc : cmd.hasLc = false ∨ cmd.lc < pivAidLen
  · simp only [if_pos hlc]
  · have hread : read p pivAidLen = read cmd.data pivAidLen := read_congr (h.mono (by omega))
    simp only [if_neg hlc, hread]

theorem handleVerify_agree (h : Agree cmd.lc p cmd.data) :
    handleVerify card { cmd with data := p } out outCap = handleVerify card cmd out outCap := by
  simp only [handleVerify]
  by_cases hlc : cmd.lc ≠ 8
  · simp only [if_pos hlc]
  · have hread : read p 8 = read cmd.data 8 := read_congr (h.mono (by omega))
    simp only [if_neg hlc, hread]

/-- The challenge lies inside what remained of the template. -/
theorem challengeWindow_inside {data : Memory UInt8} {i rem start hashLen : Nat}
    (hrem : rem < 2 ^ 32) (h : challengeWindow data i rem = some (start, hashLen)) :
    start + hashLen ≤ i + rem := by
  rw [challengeWindow_eq hrem] at h
  split at h
  · cases h
  split at h
  · cases h
  split at h
  · cases h
  cases h
  omega

theorem challengeWindow_agree {data data' : Memory UInt8} {i rem : Nat} (hrem : rem < 2 ^ 32)
    (h : Agree (i + rem) data data') :
    challengeWindow data i rem = challengeWindow data' i rem := by
  rw [challengeWindow_eq hrem, challengeWindow_eq hrem]
  by_cases hshort : rem < 2
  · rw [if_pos (Or.inl hshort), if_pos (Or.inl hshort)]
  rw [h i (by omega), h (i + 1) (by omega)]
  by_cases hshort' : rem - 2 < 2
  · simp [hshort']
  · rw [h (i + 2) (by omega), h (i + 3) (by omega)]

theorem templateChallenge_agree {data data' : Memory UInt8} {lc : Nat} (hpos : 0 < lc)
    (hlc : lc < 2 ^ 32) (h : Agree lc data data') :
    templateChallenge data lc = templateChallenge data' lc := by
  rw [templateChallenge_eq hpos hlc, templateChallenge_eq hpos hlc, h 0 hpos]
  by_cases hend : lc = 1
  · simp [hend]
  have hwindow : challengeWindow data 2 (lc - 2) = challengeWindow data' 2 (lc - 2) :=
    challengeWindow_agree (by omega) (h.mono (by omega))
  rw [h 1 (by omega), hwindow]
  by_cases hthree : 3 ≤ lc
  · have hwindow' : challengeWindow data 3 (lc - 3) = challengeWindow data' 3 (lc - 3) :=
      challengeWindow_agree (by omega) (h.mono (by omega))
    rw [hwindow']
  · simp [hthree]

theorem templateChallenge_inside {data : Memory UInt8} {lc start hashLen : Nat} (hpos : 0 < lc)
    (hlc : lc < 2 ^ 32) (h : templateChallenge data lc = some (start, hashLen)) :
    start + hashLen ≤ lc := by
  rw [templateChallenge_eq hpos hlc] at h
  split at h
  · cases h
  split at h
  · cases h
  split at h
  · have hinside := challengeWindow_inside (by omega) h
    omega
  split at h
  · have hinside := challengeWindow_inside (by omega) h
    omega
  · cases h

theorem requestedChallenge_agree (hlc : cmd.lc < 2 ^ 32) (h : Agree cmd.lc p cmd.data) :
    requestedChallenge card.piv { cmd with data := p } = requestedChallenge card.piv cmd := by
  simp only [requestedChallenge]
  by_cases hshort : cmd.hasLc = false ∨ cmd.lc < 4
  · simp only [if_pos hshort]
  have hpos : 0 < cmd.lc := by omega
  rw [templateChallenge_agree hpos hlc h]
  cases htemplate : templateChallenge cmd.data cmd.lc with
  | none => rfl
  | some window =>
    obtain ⟨start, hashLen⟩ := window
    have hinside := templateChallenge_inside hpos hlc htemplate
    have hread : read (advance p start) hashLen = read (advance cmd.data start) hashLen :=
      read_congr ((h.advance start).mono (by omega))
    simp only [hread]

theorem handleGeneralAuthenticate_agree (hlc : cmd.lc < 2 ^ 32) (h : Agree cmd.lc p cmd.data) :
    handleGeneralAuthenticate k amb card { cmd with data := p } out outCap =
      handleGeneralAuthenticate k amb card cmd out outCap := by
  simp only [handleGeneralAuthenticate, requestedChallenge_agree hlc h]

/-- GET DATA is confined when the outcome of its tag comparison is. -/
theorem handleGetData_agree (h : Agree cmd.lc p cmd.data)
    (htag : cmd.p1 = 0x3F ∧ cmd.p2 = 0xFF → cmd.hasLc = true → 3 ≤ cmd.lc → cmd.data 0 = 0x5C →
      dataObject k (cmd.data 1) (advance p 2) = dataObject k (cmd.data 1) (advance cmd.data 2)) :
    handleGetData k card { cmd with data := p } out outCap =
      handleGetData k card cmd out outCap := by
  have hrequest : requestedObject k { cmd with data := p } = requestedObject k cmd := by
    simp only [requestedObject]
    by_cases hp : cmd.p1 ≠ 0x3F ∨ cmd.p2 ≠ 0xFF
    · simp only [if_pos hp]
    by_cases hlc : cmd.lc < 3
    · simp [hlc]
    rw [h 0 (by omega), h 1 (by omega)]
    by_cases hchecks : cmd.hasLc = false ∨ cmd.lc < 3 ∨ cmd.data 0 ≠ 0x5C
    · simp only [if_pos hchecks]
    simp only [not_or, not_not, Bool.not_eq_false, Nat.not_lt] at hp hchecks
    rw [htag hp hchecks.1 hchecks.2.1 hchecks.2.2]
  simp only [handleGetData, hrequest]
  rfl

end Handlers

/-- The inputs that end inside a three-byte tag which may still become a known one: the tag
cut after 5F, or after 5F C1 with the last byte, if any, taken for Le. -/
def truncatedTags : List (List UInt8) :=
  [[0x00, 0xCB, 0x3F, 0xFF, 0x03, 0x5C, 0x03, 0x5F],
    [0x00, 0xCB, 0x3F, 0xFF, 0x03, 0x5C, 0x03, 0x5F, 0xC1],
    [0x00, 0xCB, 0x3F, 0xFF, 0x04, 0x5C, 0x03, 0x5F, 0xC1]]

theorem read_three (tag : Memory UInt8) : read tag 3 = [tag 0, tag 1, tag 2] := rfl

/-- No object has a tag that does not begin with 5F C1. -/
theorem dataObject_unknown (k : Backend) (tag : Memory UInt8) (h : tag 0 ≠ 0x5F ∨ tag 1 ≠ 0xC1) :
    dataObject k 3 tag = none := by
  have hne : ∀ last, read tag 3 ≠ [0x5F, 0xC1, last] := by
    intro last heq
    rw [read_three] at heq
    injection heq with h0 heq
    injection heq with h1 heq
    exact h.elim (fun hne => hne h0) fun hne => hne h1
  simp only [dataObject, if_true, pivTagCcc, pivTagChuid, pivTagCert9A, hne, if_false]

/-- Any two inputs with the same `rawLen` bytes, and different ones behind them, have the
same answer and leave the same card. -/
def Confined (k : Backend) (amb : Ambient) (card : Card) (raw : Memory UInt8) (rawLen : Nat)
    (out : Memory UInt8) (outCap : Nat) : Prop :=
  ∀ raw', Agree rawLen raw raw' →
    (pivProcessApdu k amb card raw' rawLen out outCap).answer =
        (pivProcessApdu k amb card raw rawLen out outCap).answer ∧
      (pivProcessApdu k amb card raw' rawLen out outCap).card =
        (pivProcessApdu k amb card raw rawLen out outCap).card

/-- A tag comparison that runs past the input is decided inside it, unless the input is one
of the truncated requests. -/
theorem dataObject_agree (k : Backend) {raw raw' : Memory UInt8} {rawLen : Nat} {cmd : ApduCmd}
    (hagree : Agree rawLen raw raw') (haccepted : Accepted raw rawLen cmd)
    (hcla : cmd.cla = 0x00) (hins : cmd.ins = 0xCB) (hp : cmd.p1 = 0x3F ∧ cmd.p2 = 0xFF)
    (hbody : cmd.hasLc = true) (hlc : 3 ≤ cmd.lc) (htag : raw 5 = 0x5C)
    (hfull : read raw rawLen ∉ truncatedTags) :
    dataObject k (raw 6) (advance raw' 7) = dataObject k (raw 6) (advance raw 7) := by
  obtain ⟨_, hlen, hcount, _⟩ := haccepted.body hbody
  obtain ⟨_, h0, h1, h2, h3⟩ := haccepted.header
  have h7 : raw' 7 = raw 7 := (hagree 7 (by omega)).symm
  by_cases hthree : raw 6 = 3
  swap
  · have hfirst : advance raw' 7 0 = advance raw 7 0 := h7
    simp only [dataObject, if_neg hthree, hfirst]
  rw [hthree]
  by_cases hlong : 10 ≤ rawLen
  · have hread : read (advance raw' 7) 3 = read (advance raw 7) 3 :=
      read_congr fun i hi => (hagree (7 + i) (by omega)).symm
    simp only [dataObject, if_true, hread]
  by_cases h5F : raw 7 = 0x5F
  swap
  · rw [dataObject_unknown k (advance raw 7) (Or.inl h5F),
      dataObject_unknown k (advance raw' 7) (Or.inl (by simpa [h7] using h5F))]
  have hhead : read raw 8 = [0x00, 0xCB, 0x3F, 0xFF, UInt8.ofNat cmd.lc, 0x5C, 0x03, 0x5F] := by
    have hlist : read raw 8 = [raw 0, raw 1, raw 2, raw 3, raw 4, raw 5, raw 6, raw 7] := rfl
    rw [hlist, ← h0, ← h1, ← h2, ← h3, hcla, hins, hp.1, hp.2, htag, hthree, h5F, hcount,
      UInt8.ofNat_toNat]
  by_cases height : rawLen = 8
  · have hlc3 : cmd.lc = 3 := by omega
    rw [hlc3] at hhead
    rw [height, hhead] at hfull
    exact absurd (by decide) hfull
  have hnine : rawLen = 9 := by omega
  have h8 : raw' 8 = raw 8 := (hagree 8 (by omega)).symm
  by_cases hC1 : raw 8 = 0xC1
  swap
  · rw [dataObject_unknown k (advance raw 7) (Or.inr hC1),
      dataObject_unknown k (advance raw' 7) (Or.inr (by simpa [h8] using hC1))]
  have hnext : read raw 9 = read raw 8 ++ [raw 8] := read_add raw 8 1
  rw [hnine, hnext, hhead, hC1] at hfull
  have hlc34 : cmd.lc = 3 ∨ cmd.lc = 4 := by omega
  rcases hlc34 with hlc34 | hlc34 <;> rw [hlc34] at hfull <;> exact absurd (by decide) hfull

/-- An input that is not a truncated request is confined. -/
theorem confined_of_full (k : Backend) (amb : Ambient) (card : Card) (raw : Memory UInt8)
    (rawLen : Nat) (out : Memory UInt8) (outCap : Nat)
    (hfull : card.piv.selected = true → read raw rawLen ∉ truncatedTags) :
    Confined k amb card raw rawLen out outCap := by
  intro raw' hagree
  suffices hsame : pivProcessApdu k amb card raw' rawLen out outCap =
      pivProcessApdu k amb card raw rawLen out outCap by
    rw [hsame]
    exact ⟨rfl, rfl⟩
  simp only [pivProcessApdu]
  rcases apduParse_agree hagree with ⟨hparse, hparse'⟩ | ⟨cmd, cmd', hparse, hparse', hcmd⟩
  · rw [hparse, hparse']
  rw [hparse, hparse']
  have haccepted := apduParse_accepted hparse
  have haccepted' := apduParse_accepted hparse'
  obtain ⟨p, rfl⟩ : ∃ p, cmd = { cmd' with data := p } := ⟨_, hcmd.scalars⟩
  have hsmall := haccepted'.lc_le
  have hdata : Agree cmd'.lc p cmd'.data := hcmd.data.mono hsmall.2
  simp only
  by_cases hcla : cmd'.cla ≠ 0x00
  · simp only [if_pos hcla]
  by_cases hselect : cmd'.ins = 0xA4
  · simp only [if_neg hcla, if_pos hselect, handleSelect_agree hdata]
  by_cases hselected : card.piv.selected = false
  · simp only [if_neg hcla, if_neg hselect, if_pos hselected]
  simp only [if_neg hcla, if_neg hselect, if_neg hselected, handleSelected]
  by_cases hverify : cmd'.ins = 0x20
  · simp only [if_pos hverify, handleVerify_agree hdata]
  by_cases hgetData : cmd'.ins = 0xCB
  · simp only [if_neg hverify, if_pos hgetData]
    refine (handleGetData_agree hdata fun hp hbody hlc htag => ?_).symm
    obtain ⟨_, hlen, _, hp5⟩ := haccepted.body hbody
    obtain ⟨_, _, _, hp5'⟩ := haccepted'.body hbody
    have h5 : raw 5 = raw' 5 := hagree 5 (by omega)
    have h6 : raw 6 = raw' 6 := hagree 6 (by omega)
    have hobject := dataObject_agree k hagree haccepted (not_not.mp hcla) hgetData hp hbody hlc
      (h5.trans (by simpa [hp5'] using htag)) (hfull (by simpa using hselected))
    simp only at hp5
    rw [hp5, hp5', advance_advance, advance_advance, advance_apply, ← h6]
    exact hobject.symm
  by_cases hgetResponse : cmd'.ins = 0xC0
  · simp only [if_neg hverify, if_neg hgetData, if_pos hgetResponse]
    rfl
  by_cases hauthenticate : cmd'.ins = 0x87
  · simp only [if_neg hverify, if_neg hgetData, if_neg hgetResponse, if_pos hauthenticate,
      handleGeneralAuthenticate_agree (by omega) hdata]
  · simp only [if_neg hverify, if_neg hgetData, if_neg hgetResponse, if_neg hauthenticate]

/-- The input completed behind its end, to the tag 5F C1 `last`. -/
def completed (raw : Memory UInt8) (last : UInt8) : Memory UInt8 :=
  fun i => if i = 8 then 0xC1 else if i = 9 then last else raw i

theorem completed_agree {raw : Memory UInt8} {rawLen : Nat}
    (htruncated : read raw rawLen ∈ truncatedTags) (last : UInt8) :
    Agree rawLen raw (completed raw last) := by
  have hlen : rawLen ≤ 9 ∧ (rawLen = 9 → raw 8 = 0xC1) := by
    simp only [truncatedTags, List.mem_cons, List.not_mem_nil, or_false] at htruncated
    rcases htruncated with h | h | h
    · have hcount : rawLen = 8 := by simpa using congrArg List.length h
      omega
    all_goals
      have hcount : rawLen = 9 := by simpa using congrArg List.length h
      subst hcount
      refine ⟨Nat.le_refl 9, fun _ => ?_⟩
      have hcell : (read raw 9)[8]? = some 0xC1 := by rw [h]; rfl
      rw [read_getElem? raw (by decide)] at hcell
      exact Option.some.inj hcell
  intro i hi
  simp only [completed]
  by_cases h8 : i = 8
  · rw [if_pos h8, h8]
    exact hlen.2 (by omega)
  · rw [if_neg h8, if_neg (by omega)]

/-- A truncated input parses as a GET DATA whose tag starts at its last data byte. -/
theorem truncated_parse {raw : Memory UInt8} {rawLen : Nat}
    (htruncated : read raw rawLen ∈ truncatedTags) :
    ∃ cmd, apduParse raw rawLen = some cmd ∧ cmd.cla = 0x00 ∧ cmd.ins = 0xCB ∧ cmd.p1 = 0x3F ∧
      cmd.p2 = 0xFF ∧ cmd.hasLc = true ∧ 3 ≤ cmd.lc ∧ cmd.data = advance raw 5 ∧
      193 ≤ effectiveLe cmd ∧ raw 5 = 0x5C ∧ raw 6 = 0x03 ∧ raw 7 = 0x5F := by
  simp only [truncatedTags, List.mem_cons, List.not_mem_nil, or_false] at htruncated
  rcases htruncated with h | h | h
  · have hcount : rawLen = 8 := by simpa using congrArg List.length h
    subst hcount
    have hcells : [raw 0, raw 1, raw 2, raw 3, raw 4, raw 5, raw 6, raw 7] = _ := h
    simp only [List.cons.injEq, and_true] at hcells
    obtain ⟨h0, h1, h2, h3, h4, h5, h6, h7⟩ := hcells
    simp [apduParse, h0, h1, h2, h3, h4, h5, h6, h7, effectiveLe]
  all_goals
    have hcount : rawLen = 9 := by simpa using congrArg List.length h
    subst hcount
    have hcells : [raw 0, raw 1, raw 2, raw 3, raw 4, raw 5, raw 6, raw 7, raw 8] = _ := h
    simp only [List.cons.injEq, and_true] at hcells
    obtain ⟨h0, h1, h2, h3, h4, h5, h6, h7, h8⟩ := hcells
    simp [apduParse, h0, h1, h2, h3, h4, h5, h6, h7, h8, effectiveLe, leValue]

theorem finish_statusWord (card : Card) (r : ApduResp) {sw : Nat} (h : sw < 0x10000) :
    statusWord (finish card r sw).answer = sw := by
  rw [(shows_finish card r sw).answer]
  exact statusWord_append _ h

/-- A truncated input is handled as the request that its completion makes it. -/
theorem truncated_handled (k : Backend) (amb : Ambient) {card : Card} {raw : Memory UInt8}
    {rawLen : Nat} (out : Memory UInt8) (outCap : Nat) (hselected : card.piv.selected = true)
    (htruncated : read raw rawLen ∈ truncatedTags) (last : UInt8) :
    ∃ cmd, 193 ≤ effectiveLe cmd ∧
      pivProcessApdu k amb card (completed raw last) rawLen out outCap =
        handleGetData k card cmd out outCap ∧
      requestedObject k cmd =
        (dataObject k 3 (advance (completed raw last) 7)).elim
          (.error swReferencedDataNotFound) .ok := by
  have hcompleted : read (completed raw last) rawLen ∈ truncatedTags := by
    rwa [← read_congr (completed_agree htruncated last)]
  obtain ⟨cmd, hparse, hcla, hins, hp1, hp2, hbody, hlc, hdata, hle, h5, h6, _⟩ :=
    truncated_parse hcompleted
  refine ⟨cmd, hle, ?_, ?_⟩
  · simp [pivProcessApdu, hparse, hcla, hins, hselected, handleSelected]
  · have h0 : cmd.data 0 = 0x5C := by rw [hdata]; exact h5
    have h1 : cmd.data 1 = 3 := by rw [hdata]; exact h6
    have hshort : ¬ cmd.lc < 3 := by omega
    simp only [requestedObject, hp1, hp2, hbody, h0, h1, hshort]
    simp only [hdata, advance_advance]
    cases dataObject k 3 (advance (completed raw last) 7) <;> simp

/-- What lies behind a truncated input decides between an object and a refusal. -/
theorem truncated_statusWord (k : Backend) (amb : Ambient) {card : Card} {raw : Memory UInt8}
    {rawLen : Nat} (out : Memory UInt8) (outCap : Nat) (hselected : card.piv.selected = true)
    (htruncated : read raw rawLen ∈ truncatedTags) :
    statusWord (pivProcessApdu k amb card (completed raw 0x07) rawLen out outCap).answer = swOk ∧
      statusWord (pivProcessApdu k amb card (completed raw 0x00) rawLen out outCap).answer =
        swReferencedDataNotFound := by
  have handled := truncated_handled k amb out outCap hselected htruncated
  have h7 : ∀ last, read (advance (completed raw last) 7) 3 = [0x5F, 0xC1, last] := by
    intro last
    obtain ⟨_, _, _, _, _, _, _, _, _, _, _, _, h7⟩ := truncated_parse htruncated
    rw [read_three]
    simp [completed, h7]
  constructor
  · obtain ⟨cmd, hle, hprocess, hrequest⟩ := handled 0x07
    have hobject : requestedObject k cmd = .ok cccData := by
      rw [hrequest]
      simp [dataObject, h7, pivTagCcc]
    have hfits : cccData.length ≤ effectiveLe cmd :=
      Nat.le_trans (by decide : cccData.length ≤ 193) hle
    rw [hprocess]
    simp only [handleGetData, hobject, if_pos hfits]
    exact finish_statusWord _ _ (by decide)
  · obtain ⟨cmd, hle, hprocess, hrequest⟩ := handled 0x00
    have hobject : requestedObject k cmd = .error swReferencedDataNotFound := by
      rw [hrequest]
      simp [dataObject, h7, pivTagCcc, pivTagChuid, pivTagCert9A]
    rw [hprocess]
    simp only [handleGetData, hobject]
    exact finish_statusWord _ _ (by decide)

/-- The inputs whose outcome depends on what lies behind them are the truncated requests,
to a selected applet. -/
theorem confined_iff (k : Backend) (amb : Ambient) (card : Card) (raw : Memory UInt8)
    (rawLen : Nat) (out : Memory UInt8) (outCap : Nat) :
    Confined k amb card raw rawLen out outCap ↔
      ¬ (card.piv.selected = true ∧ read raw rawLen ∈ truncatedTags) := by
  constructor
  · rintro hconfined ⟨hselected, htruncated⟩
    obtain ⟨hccc, hnone⟩ := truncated_statusWord k amb out outCap hselected htruncated
    rw [(hconfined _ (completed_agree htruncated 0x07)).1] at hccc
    rw [(hconfined _ (completed_agree htruncated 0x00)).1, hccc] at hnone
    exact absurd hnone (by decide)
  · intro hfull
    exact confined_of_full k amb card raw rawLen out outCap fun hselected htruncated =>
      hfull ⟨hselected, htruncated⟩

/-- An applet that was just selected. -/
def selectedCard : Card :=
  { piv := { pivAtReset with selected := true }, dev := DeviceState.atReset }

/-- GET DATA whose command data ends after the first byte of a three-byte tag. -/
def cutRequest : Memory UInt8 :=
  write (fun _ => 0) 0 [0x00, 0xCB, 0x3F, 0xFF, 0x03, 0x5C, 0x03, 0x5F]

/-- An earlier GET DATA for the CHUID left the rest of its tag behind the cut request. -/
theorem cut_request_completed :
    ¬ Confined sampleBackend (ambientAt 0) selectedCard cutRequest 8 (fun _ => 0) 502 := by
  intro hconfined
  have hsame := (hconfined (write cutRequest 8 [0xC1, 0x02]) fun i hi =>
    (write_before cutRequest 8 _ hi).symm).1
  exact absurd (congrArg List.length hsame) (by decide)

end InputConfinement
