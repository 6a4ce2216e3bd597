import Ward3n.ReaderSpecification

/-!
# The applet does what the card is specified to do

Each handler is compared with the operation of the abstract card of the same
purpose, on a command that arrives encoded. The chain buffer with its offset
holds the rest of an object, and the variables of the authorization a phase. One
kind of command is left out: a GET DATA that declares a three-byte tag and ends
before it, whose tag is read from whatever lies behind the command.
-/

namespace TokenRefinement

open CellMemory MachineWords ApduCodec CryptoBackend DeviceState PivApplet ShortApdus
  PartedDelivery ChainedResponses AppletEffects AuthenticationTemplate ReaderSpecification

/-- What a handler finds when it is given an encoded command. -/
structure Parsed (cmd : ApduCmd) (c : ShortCommand) : Prop where
  cla : cmd.cla = c.cla
  ins : cmd.ins = c.ins
  p1 : cmd.p1 = c.p1
  p2 : cmd.p2 = c.p2
  hasLc : cmd.hasLc = !c.data.isEmpty
  lc : cmd.lc = c.data.length
  data : read cmd.data c.data.length = c.data
  le : effectiveLe cmd = wanted c

/-- A GET DATA holds the whole of the tag it declares. -/
def Whole (c : ShortCommand) : Prop :=
  c.ins = 0xCB → c.data[1]? = some 0x03 → 5 ≤ c.data.length

instance (c : ShortCommand) : Decidable (Whole c) := by
  unfold Whole
  infer_instance

/-- The card holds what the abstract one does. -/
structure Holds (card : Card) (t : Token) : Prop where
  selected : card.piv.selected = t.selected
  verified : card.piv.pinVerified = t.verified
  rest : pending card.piv = t.rest
  phase : InPhase card.dev t.phase

/-- A handler leaves and answers what the abstract operation does. -/
structure Answers (h : Handled) (a : Answer) : Prop where
  token : Holds h.card a.token
  bytes : h.answer = a.bytes
  signed : h.signed = a.signed

section Parsing

variable {cmd : ApduCmd} {c : ShortCommand}

theorem parsed_of_fields (h : fields cmd = c.fields) : Parsed cmd c := by
  have hlc : cmd.lc = c.data.length := congrArg Fields.lc h
  have hdata : read cmd.data cmd.lc = c.data := congrArg Fields.data h
  have hhas : cmd.hasLe = c.le.isSome := congrArg Fields.hasLe h
  have hle : cmd.le = c.le.getD 0 := congrArg Fields.le h
  refine ⟨congrArg Fields.cla h, congrArg Fields.ins h, congrArg Fields.p1 h,
    congrArg Fields.p2 h, congrArg Fields.hasLc h, hlc, by rwa [← hlc], ?_⟩
  simp only [effectiveLe, wanted, hhas, hle]
  cases c.le <;> rfl

/-- An encoded command, wherever it lies in memory, is parsed to itself. -/
theorem parsed_of_read {raw : Memory UInt8} (h : read raw c.bytes.length = c.bytes) :
    ∃ cmd, apduParse raw c.bytes.length = some cmd ∧ Parsed cmd c := by
  have hparse := apduParse_bytes c h
  cases hcmd : apduParse raw c.bytes.length with
  | none =>
    rw [hcmd] at hparse
    cases hparse
  | some cmd =>
    rw [hcmd, Option.map_some] at hparse
    exact ⟨cmd, rfl, parsed_of_fields (Option.some.inj hparse)⟩

theorem Parsed.bodiless_iff (h : Parsed cmd c) {n : Nat} (hn : 0 < n) :
    (cmd.hasLc = false ∨ cmd.lc < n) ↔ c.data.length < n := by
  rw [h.hasLc, h.lc]
  cases c.data with
  | nil => simpa using hn
  | cons b data => simp

theorem Parsed.front (h : Parsed cmd c) {n : Nat} (hn : n ≤ c.data.length) :
    read cmd.data n = c.data.take n := by
  rw [← h.data, read_take _ hn]

theorem Parsed.cell (h : Parsed cmd c) {i : Nat} {b : UInt8} (hb : c.data[i]? = some b) :
    cmd.data i = b := cell_of_read h.data hb

end Parsing

section Templates

variable {bytes hash rest : List UInt8}

theorem challengeBehind_eq_some :
    challengeBehind bytes = some hash ↔ (1 ≤ hash.length ∧ hash.length ≤ 64) ∧ ∃ rest,
      bytes = [pivDatResponse, 0x00, pivDatChallenge, UInt8.ofNat hash.length] ++ hash ++ rest := by
  constructor
  · intro h
    unfold challengeBehind at h
    split at h
    swap
    · cases h
    rename_i n rest
    split at h
    · cases h
    rename_i hcount
    simp only [not_or, Nat.not_lt] at hcount
    cases h
    have hpos : n.toNat ≠ 0 := fun hzero => hcount.2.1 (UInt8.toNat_inj.mp hzero)
    have hlen : (rest.take n.toNat).length = n.toNat := by
      rw [List.length_take, Nat.min_eq_left hcount.1]
    refine ⟨by omega, rest.drop n.toNat, ?_⟩
    rw [hlen, UInt8.ofNat_toNat, List.append_assoc, List.take_append_drop]
    rfl
  · rintro ⟨hhash, rest, rfl⟩
    have hbyte : (UInt8.ofNat hash.length).toNat = hash.length := by
      simp
      omega
    have hpos : UInt8.ofNat hash.length ≠ 0 := by
      intro hzero
      rw [hzero] at hbyte
      have hz : (0 : UInt8).toNat = 0 := rfl
      omega
    have hroom : ¬ ((hash ++ rest).length < hash.length ∨ UInt8.ofNat hash.length = 0 ∨
        hash.length > 64) := by
      simp only [not_or, List.length_append]
      exact ⟨by omega, hpos, by omega⟩
    show challengeBehind (0x82 :: 0x00 :: 0x81 :: UInt8.ofNat hash.length :: (hash ++ rest)) = _
    rw [challengeBehind, hbyte, if_neg hroom, List.take_left]

/-- The reader of lists finds the challenge that a template carries. -/
theorem challengeOf_eq_some : challengeOf bytes = some hash ↔ Carries bytes hash := by
  constructor
  · intro h
    unfold challengeOf at h
    split at h
    swap
    · cases h
    rename_i b rest
    split at h
    · rename_i hshort
      obtain ⟨hhash, tail, rfl⟩ := challengeBehind_eq_some.mp h
      exact ⟨[b], tail, .short hshort, hhash, by simp [template]; rfl⟩
    split at h
    · rename_i hlong
      obtain ⟨hhash, tail, hdrop⟩ := challengeBehind_eq_some.mp h
      cases rest with
      | nil => cases hdrop
      | cons l rest =>
        rw [List.drop_one, List.tail_cons] at hdrop
        refine ⟨[0x81, l], tail, .long l, hhash, ?_⟩
        rw [hlong, hdrop]
        simp [template]
        rfl
    · cases h
  · rintro ⟨field, rest, hfield, hhash, rfl⟩
    have hbehind := challengeBehind_eq_some.mpr ⟨hhash, rest, rfl⟩
    cases hfield with
    | @short b hshort =>
      show challengeOf (0x7C :: b :: (_ ++ hash ++ rest)) = _
      rw [challengeOf, if_pos hshort]
      exact hbehind
    | long b =>
      show challengeOf (0x7C :: 0x81 :: b :: (_ ++ hash ++ rest)) = _
      rw [challengeOf, if_neg (by decide), if_pos rfl, List.drop_one, List.tail_cons]
      exact hbehind

end Templates

/-- The objects of the key store by their tags. -/
def objects (k : Backend) (tag : List UInt8) : Option (List UInt8) :=
  if tag = pivTagCcc then some cccData
  else if tag = pivTagChuid then some chuidData
  else if tag = pivTagCert9A then
    let certDer := cryptoGetCertDer k keyRef9A 3994
    if certDer = [] then none else some (certObject certDer)
  else if tag = [0x7E] then some disc
  else none

/-- The signature function of the card. -/
def signer (k : Backend) (amb : Ambient) (hash : List UInt8) : List UInt8 :=
  cryptoSign k amb.pkSign keyRef9A algEcdsaP256 hash 72

section Objects

variable {k : Backend} {cmd : ApduCmd} {c : ShortCommand}

theorem dataObject_three (tag : Memory UInt8) : dataObject k 3 tag = objects k (read tag 3) := by
  have hlong : read tag 3 ≠ [0x7E] := fun h => by simpa using congrArg List.length h
  simp only [dataObject, objects, if_pos, if_neg hlong, List.length_eq_zero_iff]

theorem dataObject_one (tag : Memory UInt8) : dataObject k 1 tag = objects k [tag 0] := by
  have hshort : ∀ t : List UInt8, t.length = 3 → [tag 0] ≠ t := by
    rintro t ht rfl
    cases ht
  simp only [dataObject, objects, if_neg (by decide : ¬ (1 : UInt8) = 3),
    if_neg (hshort pivTagCcc rfl), if_neg (hshort pivTagChuid rfl),
    if_neg (hshort pivTagCert9A rfl), List.cons.injEq, and_true]

theorem requestedTag_none {data : List UInt8} (h : data.length < 3 ∨ data[0]? ≠ some 0x5C) :
    requestedTag data = none := by
  unfold requestedTag
  split
  · simp at h
    omega
  · rfl

/-- The checks of GET DATA find the object with the tag that is asked for. -/
theorem requestedObject_eq (h : Parsed cmd c) (hins : c.ins = 0xCB) (hwhole : Whole c) :
    requestedObject k cmd =
      if c.p1 ≠ 0x3F ∨ c.p2 ≠ 0xFF then .error swIncorrectP1P2
      else (requestedTag c.data).elim (.error swWrongData) fun tag =>
        (objects k tag).elim (.error swReferencedDataNotFound) .ok := by
  have hbodiless : (cmd.hasLc = false ∨ cmd.lc < 3 ∨ cmd.data 0 ≠ 0x5C) ↔
      c.data.length < 3 ∨ cmd.data 0 ≠ 0x5C := by
    rw [← or_assoc, h.bodiless_iff (by decide)]
  simp only [requestedObject, h.p1, h.p2, hbodiless]
  by_cases hp : c.p1 ≠ 0x3F ∨ c.p2 ≠ 0xFF
  · rw [if_pos hp, if_pos hp]
  rw [if_neg hp, if_neg hp]
  by_cases hlen : c.data.length < 3
  · rw [if_pos (Or.inl hlen), requestedTag_none (Or.inl hlen), Option.elim_none]
  obtain ⟨a, n, t, tag, hdata⟩ : ∃ a n t tag, c.data = a :: n :: t :: tag := by
    rcases hdata : c.data with _ | ⟨a, _ | ⟨n, _ | ⟨t, tag⟩⟩⟩
    · simp [hdata] at hlen
    · simp [hdata] at hlen
    · simp [hdata] at hlen
    · exact ⟨a, n, t, tag, rfl⟩
  have h0 : cmd.data 0 = a := h.cell (by rw [hdata]; rfl)
  have h1 : cmd.data 1 = n := h.cell (by rw [hdata]; rfl)
  have h2 : advance cmd.data 2 0 = t := h.cell (i := 2) (by rw [hdata]; rfl)
  rw [h0, h1, hdata]
  by_cases hfirst : a = 0x5C
  swap
  · rw [if_pos (Or.inr hfirst), requestedTag_none (Or.inr (by simpa using hfirst)),
      Option.elim_none]
  rw [if_neg (by simp [hfirst]), hfirst, requestedTag]
  by_cases hthree : n = 3
  · have hroom := hwhole hins (by rw [hdata, hthree]; rfl)
    have htag : read (advance cmd.data 2) 3 = (t :: tag).take 3 := by
      rw [← read_drop, h.front hroom, hdata]
      rfl
    rw [if_neg (by simp [hthree]), if_pos hthree, hthree, dataObject_three, htag, Option.elim_some]
    cases objects k ((t :: tag).take 3) <;> rfl
  by_cases hone : n = 1
  · rw [if_neg (by simp [hone]), if_neg hthree, if_pos hone, hone, dataObject_one, h2,
      Option.elim_some]
    cases objects k [t] <;> rfl
  · rw [if_pos ⟨hthree, hone⟩, if_neg hthree, if_neg hone]
    rfl

end Objects

section Handlers

variable {k : Backend} {amb : Ambient} {card : Card} {cmd : ApduCmd} {c : ShortCommand}
  {t : Token} {out : Memory UInt8}

theorem Holds.with_phase (h : Holds card t) {dev : Device} {phase : Phase}
    (hphase : InPhase dev phase) :
    Holds { card with dev := dev } { t with phase := phase } :=
  ⟨h.selected, h.verified, h.rest, hphase⟩

/-- What is shown as a reply is an answer of the abstract card. -/
theorem answers_of_shows {h : Handled} {r : Reply} {a : Answer} (hshows : Shows h r)
    (htoken : Holds r.card a.token) (hbody : r.body = a.body) (hsw : r.sw = a.sw)
    (hsigned : r.signed = a.signed) : Answers h a := by
  refine ⟨by rwa [hshows.card], ?_, hshows.signed.trans hsigned⟩
  rw [hshows.answer, Reply.bytes, Answer.bytes, hbody, hsw]

theorem refuse_answers (hold : Holds card t) (out : Memory UInt8) (sw : Nat) :
    Answers (finish card (apduRespInit out 502) sw) (t.refuse sw) :=
  answers_of_shows (shows_finish card _ sw) hold rfl rfl rfl

theorem handleSelect_answers (hcmd : Parsed cmd c) (hold : Holds card t) :
    Answers (handleSelect card cmd out 502) (t.select c) := by
  simp only [handleSelect, Token.select, hcmd.p1]
  by_cases hp1 : c.p1 ≠ 0x04
  · simp only [if_pos hp1]
    exact refuse_answers hold out _
  have hbodiless := hcmd.bodiless_iff (show 0 < pivAidLen by decide)
  by_cases hlc : c.data.length < pivAidLen
  · simp only [if_neg hp1, if_pos (hbodiless.mpr hlc), if_pos hlc]
    exact refuse_answers hold out _
  have haid : read cmd.data pivAidLen = c.data.take pivAidLen := hcmd.front (by omega)
  simp only [if_neg hp1, if_neg fun h => hlc (hbodiless.mp h), if_neg hlc, haid]
  by_cases hother : c.data.take pivAidLen ≠ pivAid
  · simp only [if_pos hother]
    exact refuse_answers hold out _
  · simp only [if_neg hother]
    exact answers_of_shows (shows_append _ swOk (by decide) out)
      ⟨rfl, hold.verified, hold.rest, hold.phase⟩ rfl rfl rfl

theorem handleVerify_answers (hcmd : Parsed cmd c) (hold : Holds card t) :
    Answers (handleVerify card cmd out 502) (t.verify c) := by
  have hempty : (cmd.hasLc = false ∨ cmd.lc = 0) ↔ c.data = [] := by
    have hone := hcmd.bodiless_iff (show 0 < 1 by decide)
    rwa [Nat.lt_one_iff, Nat.lt_one_iff, List.length_eq_zero_iff] at hone
  simp only [handleVerify, Token.verify, hcmd.p1, hcmd.p2, hempty]
  by_cases hp1 : c.p1 ≠ 0x00
  · simp only [if_pos hp1]
    exact refuse_answers hold out _
  by_cases hp2 : c.p2 ≠ pivPinRefApp
  · simp only [if_neg hp1, if_pos hp2]
    exact refuse_answers hold out _
  by_cases hnone : c.data = []
  · simp only [if_neg hp1, if_neg hp2, if_pos hnone]
    exact refuse_answers hold out _
  simp only [if_neg hp1, if_neg hp2, if_neg hnone, hcmd.lc]
  by_cases hlen : c.data.length ≠ 8
  · simp only [if_pos hlen]
    exact refuse_answers hold out _
  have hpin : read cmd.data 8 = c.data := by
    rw [← not_not.mp hlen]
    exact hcmd.data
  simp only [if_neg hlen, hpin]
  by_cases hright : c.data = expectedPin
  · simp only [if_pos hright, if_neg (not_not.mpr hright)]
    exact answers_of_shows (shows_finish _ _ swOk)
      ⟨hold.selected, rfl, hold.rest, hold.phase⟩ rfl rfl rfl
  · simp only [if_neg hright, if_pos hright]
    exact answers_of_shows (shows_finish _ _ swSecurityNotSatisfied)
      ⟨hold.selected, rfl, hold.rest, hold.phase⟩ rfl rfl rfl

theorem wanted_le (c : ShortCommand) : wanted c ≤ 256 := by
  simp only [wanted]
  cases hle : c.le with
  | none => exact Nat.le_refl 256
  | some n => exact (c.le_range n hle).2

theorem handleGetData_answers (hcmd : Parsed cmd c) (hold : Holds card t) (hins : c.ins = 0xCB)
    (hwhole : Whole c) :
    Answers (handleGetData k card cmd out 502) (t.getData c (objects k)) := by
  have hle := wanted_le c
  simp only [handleGetData, Token.getData, requestedObject_eq hcmd hins hwhole, hcmd.le]
  by_cases hp : c.p1 ≠ 0x3F ∨ c.p2 ≠ 0xFF
  · simp only [if_pos hp]
    exact refuse_answers hold out _
  simp only [if_neg hp]
  cases requestedTag c.data with
  | none => exact refuse_answers hold out _
  | some tag =>
    simp only [Option.elim_some]
    cases objects k tag with
    | none => exact refuse_answers hold out _
    | some obj =>
      simp only [Option.elim_some]
      by_cases hfits : obj.length ≤ wanted c
      · simp only [if_pos hfits]
        exact answers_of_shows (shows_append card swOk (by omega) out) hold rfl rfl rfl
      · have hlong := Nat.not_le.mp hfits
        have htake : (obj.take (wanted c)).length + 2 ≤ 502 := by
          rw [List.length_take]
          omega
        simp only [if_neg hfits, nextPart_long hlong]
        refine answers_of_shows (shows_append _ _ htake out) ?_ rfl (swRemaining_eq _) rfl
        exact ⟨hold.selected, hold.verified,
          pending_opened card.piv obj (Nat.le_of_lt hlong), hold.phase⟩

theorem handleGetResponse_answers (k : Backend) (amb : Ambient) (hcmd : Parsed cmd c)
    (hold : Holds card t) (hins : Dispatched card cmd 0xC0) :
    Answers (handleGetResponse card cmd out 502) (t.getResponse c) := by
  have hle : effectiveLe cmd ≤ 256 := hcmd.le ▸ wanted_le c
  obtain ⟨r, heffect, hshows⟩ : ∃ r, Effect k amb card (some cmd) r ∧
      ∀ out, Shows (handleGetResponse card cmd out 502) r :=
    handleGetResponse_effect (show 258 ≤ 502 by decide) hle hins
  obtain ⟨hpart, hpending⟩ := getResponse_part heffect hins
  rw [hcmd.le, hold.rest] at hpart hpending
  have hcard : r.signed = none ∧ r.card.dev = card.dev ∧
      r.card.piv.selected = card.piv.selected ∧
      r.card.piv.pinVerified = card.piv.pinVerified := by
    rcases heffect.getResponse_cases hins with ⟨_, rfl⟩ | ⟨_, rfl⟩ <;> exact ⟨rfl, rfl, rfl, rfl⟩
  refine answers_of_shows (hshows out) ⟨?_, ?_, hpending, ?_⟩ (congrArg Part.body hpart)
    (congrArg Part.mark hpart) hcard.1
  · exact hcard.2.2.1.trans hold.selected
  · exact hcard.2.2.2.trans hold.verified
  · rw [hcard.2.1]
    exact hold.phase

/-- The checks of GENERAL AUTHENTICATE find the challenge of the template. -/
theorem requestedChallenge_eq (hcmd : Parsed cmd c) (hold : Holds card t) :
    requestedChallenge card.piv cmd =
      if c.p1 ≠ algEcdsaP256 then .error swIncorrectP1P2
      else if c.p2 ≠ keyRef9A then .error swReferencedDataNotFound
      else if t.verified = false then .error swSecurityNotSatisfied
      else if c.data.length < 4 then .error swWrongLength
      else (challengeOf c.data).elim (.error swWrongData) .ok := by
  have hbodiless := hcmd.bodiless_iff (show 0 < 4 by decide)
  have hshort := c.data_short
  by_cases hadmitted : Admitted card.piv cmd
  · have hlc : 4 ≤ c.data.length := hcmd.lc ▸ hadmitted.body.2
    rw [if_neg (not_not.mpr (hcmd.p1 ▸ hadmitted.alg)),
      if_neg (not_not.mpr (hcmd.p2 ▸ hadmitted.keyRef)),
      if_neg (by rw [← hold.verified, hadmitted.pin]; decide), if_neg (by omega)]
    have hdata : read cmd.data cmd.lc = c.data := by
      rw [hcmd.lc]
      exact hcmd.data
    cases hchallenge : challengeOf c.data with
    | none =>
      refine requestedChallenge_error_of_not (by rw [hcmd.lc]; omega) hadmitted fun hash hno => ?_
      rw [hdata, ← challengeOf_eq_some, hchallenge] at hno
      cases hno
    | some hash =>
      refine (requestedChallenge_ok_iff (by rw [hcmd.lc]; omega)).mpr ⟨hadmitted, ?_⟩
      rw [hdata]
      exact challengeOf_eq_some.mp hchallenge
  · simp only [requestedChallenge, hcmd.p1, hcmd.p2, hbodiless, hold.verified]
    by_cases halg : c.p1 ≠ algEcdsaP256
    · rw [if_pos halg, if_pos halg]
    by_cases hkey : c.p2 ≠ keyRef9A
    · rw [if_neg halg, if_neg halg, if_pos hkey, if_pos hkey]
    by_cases hpin : t.verified = false
    · rw [if_neg halg, if_neg halg, if_neg hkey, if_neg hkey, if_pos hpin, if_pos hpin]
    by_cases hlc : c.data.length < 4
    · rw [if_neg halg, if_neg halg, if_neg hkey, if_neg hkey, if_neg hpin, if_neg hpin, if_pos hlc,
        if_pos hlc]
    have hbody : ¬ (cmd.hasLc = false ∨ cmd.lc < 4) := fun h => hlc (hbodiless.mp h)
    simp only [not_or, Bool.not_eq_false, Nat.not_lt] at hbody
    exact absurd ⟨hcmd.p1.trans (not_not.mp halg), hcmd.p2.trans (not_not.mp hkey),
      hold.verified.trans (by simpa using hpin), hbody⟩ hadmitted

theorem handleGeneralAuthenticate_answers (hcmd : Parsed cmd c) (hold : Holds card t) :
    Answers (handleGeneralAuthenticate k amb card cmd out 502)
      (t.authenticate c (signer k amb) amb.now) := by
  simp only [handleGeneralAuthenticate, Token.authenticate, requestedChallenge_eq hcmd hold]
  by_cases halg : c.p1 ≠ algEcdsaP256
  · simp only [if_pos halg]
    exact refuse_answers hold out _
  by_cases hkey : c.p2 ≠ keyRef9A
  · simp only [if_neg halg, if_pos hkey]
    exact refuse_answers hold out _
  by_cases hpin : t.verified = false
  · simp only [if_neg halg, if_neg hkey, if_pos hpin]
    exact refuse_answers hold out _
  by_cases hlc : c.data.length < 4
  · simp only [if_neg halg, if_neg hkey, if_neg hpin, if_pos hlc]
    exact refuse_answers hold out _
  simp only [if_neg halg, if_neg hkey, if_neg hpin, if_neg hlc]
  cases challengeOf c.data with
  | none => exact refuse_answers hold out _
  | some hash =>
    have hauth := isAuthorized_iff hold.phase
    have hkeys : cmd.p2 = keyRef9A ∧ cmd.p1 = algEcdsaP256 :=
      ⟨hcmd.p2.trans (not_not.mp hkey), hcmd.p1.trans (not_not.mp halg)⟩
    simp only [Option.elim_some, hkeys.1, hkeys.2]
    cases hphase : t.phase with
    | idle | waiting _ =>
      have hno : devStateIsAuthorized card.dev = false := by
        rw [← Bool.not_eq_true, hauth, hphase]
        simp
      simp only [if_pos hno]
      exact answers_of_shows (shows_finish _ _ _)
        (hold.with_phase (hphase ▸ inPhase_request hold.phase amb.now)) rfl rfl rfl
    | authorized since =>
      have hyes : devStateIsAuthorized card.dev = true := hauth.mpr ⟨since, hphase⟩
      have hconsume : (devStateConsumeAuth card.dev).1 = true := by
        rw [consume_eq_isAuthorized, hyes]
      have hspent := hold.with_phase (inPhase_spend card.dev)
      simp only [hyes, hconsume, Bool.true_eq_false, if_false, List.length_eq_zero_iff]
      by_cases hsig : cryptoSign k amb.pkSign keyRef9A algEcdsaP256 hash 72 = []
      · have hnone : signer k amb hash = [] := hsig
        simp only [if_pos hsig, if_pos hnone]
        exact answers_of_shows (shows_signed _ _ swUnknown hash) hspent rfl rfl rfl
      · have hsome : signer k amb hash ≠ [] := hsig
        have hlen := cryptoSign_length_le k amb.pkSign keyRef9A algEcdsaP256 hash 72
        simp only [if_neg hsig, if_neg hsome]
        exact answers_of_shows (shows_signed _ _ swOk hash) hspent
          (pushSignature_body (by omega) out) rfl rfl

/-- `piv_process_apdu` on an encoded command does what the card is specified to do, wherever the
command lies in memory, whatever lies behind it and whatever the output buffer held. -/
theorem pivProcessApdu_answers {raw : Memory UInt8} (hraw : read raw c.bytes.length = c.bytes)
    (hwhole : Whole c) (hold : Holds card t) :
    Answers (pivProcessApdu k amb card raw c.bytes.length out 502)
      (t.answer c (objects k) (signer k amb) amb.now) := by
  obtain ⟨cmd, hparse, hcmd⟩ := parsed_of_read hraw
  have bare : ∀ sw, Answers (bareAnswer card out sw) (t.refuse sw) := fun sw =>
    answers_of_shows (shows_bareAnswer card out sw) hold rfl rfl rfl
  simp only [pivProcessApdu, Token.answer, hparse, hcmd.cla, hcmd.ins, hold.selected]
  by_cases hcla : c.cla ≠ 0x00
  · simp only [if_pos hcla]
    exact bare _
  by_cases hselect : c.ins = 0xA4
  · simp only [if_neg hcla, if_pos hselect]
    exact handleSelect_answers hcmd hold
  by_cases hselected : t.selected = false
  · simp only [if_neg hcla, if_neg hselect, if_pos hselected]
    exact bare _
  simp only [if_neg hcla, if_neg hselect, if_neg hselected, handleSelected, hcmd.ins]
  have hcla : cmd.cla = 0x00 := hcmd.cla.trans (not_not.mp hcla)
  have hselected : card.piv.selected = true := hold.selected.trans (by simpa using hselected)
  by_cases hverify : c.ins = 0x20
  · simp only [if_pos hverify]
    exact handleVerify_answers hcmd hold
  by_cases hgetData : c.ins = 0xCB
  · simp only [if_neg hverify, if_pos hgetData]
    exact handleGetData_answers hcmd hold hgetData hwhole
  by_cases hgetResponse : c.ins = 0xC0
  · simp only [if_neg hverify, if_neg hgetData, if_pos hgetResponse]
    exact handleGetResponse_answers k amb hcmd hold
      ⟨hselected, hcla, hcmd.ins.trans hgetResponse⟩
  by_cases hauthenticate : c.ins = 0x87
  · simp only [if_neg hverify, if_neg hgetData, if_neg hgetResponse, if_pos hauthenticate]
    exact handleGeneralAuthenticate_answers hcmd hold
  · simp only [if_neg hverify, if_neg hgetData, if_neg hgetResponse, if_neg hauthenticate]
    exact bare _

end Handlers

end TokenRefinement
