import Ward3n.PivApplet

/-!
# What one APDU does

Every way in which an APDU can be handled, as a table: the conditions under
which a row applies, and the card, the body and the status word it leaves. The
handlers are followed once, to show that each outcome is a row of the table;
later developments reason from the rows. The table needs room for the largest
body, 256 bytes and a status word, which the driver always gives.
-/

namespace AppletEffects

open CellMemory ApduCodec CryptoBackend DeviceState PivApplet

/-- The outcome of an APDU as the host and the card see it. -/
structure Reply where
  card : Card
  body : List UInt8
  sw : Nat
  signed : Option (List UInt8)

def Reply.bytes (r : Reply) : List UInt8 := r.body ++ swBytes r.sw

/-- The buffers a handler returns hold this reply. -/
structure Shows (h : Handled) (r : Reply) : Prop where
  card : h.card = r.card
  answer : h.answer = r.bytes
  signed : h.signed = r.signed

/-- The command is dispatched to the handler of an instruction of the selected applet. -/
def Dispatched (card : Card) (cmd : ApduCmd) (ins : UInt8) : Prop :=
  card.piv.selected = true ∧ cmd.cla = 0x00 ∧ cmd.ins = ins

/-- SELECT of the PIV AID. -/
def SelectsPiv (cmd : ApduCmd) : Prop :=
  cmd.cla = 0x00 ∧ cmd.ins = 0xA4 ∧ cmd.p1 = 0x04 ∧ cmd.hasLc = true ∧ pivAidLen ≤ cmd.lc ∧
    read cmd.data pivAidLen = pivAid

/-- VERIFY of the application PIN with an 8-byte PIN. -/
def PresentsPin (cmd : ApduCmd) : Prop :=
  cmd.cla = 0x00 ∧ cmd.ins = 0x20 ∧ cmd.p1 = 0x00 ∧ cmd.p2 = pivPinRefApp ∧ cmd.hasLc = true ∧
    cmd.lc = 8

/-- The refusals: a status word that is not a success, with an empty body. -/
inductive Refused (k : Backend) (card : Card) : Option ApduCmd → Nat → Prop
  | malformed : Refused k card none swUnknown
  | cla {cmd : ApduCmd} (hcla : cmd.cla ≠ 0x00) : Refused k card (some cmd) swClaNotSupported
  | select {cmd : ApduCmd} {sw : Nat} (hcla : cmd.cla = 0x00) (hins : cmd.ins = 0xA4)
      (hsw : sw ∈ [swIncorrectP1P2, swWrongData, swFileNotFound]) : Refused k card (some cmd) sw
  | notSelected {cmd : ApduCmd} (hcla : cmd.cla = 0x00) (hins : cmd.ins ≠ 0xA4)
      (hselected : card.piv.selected = false) :
      Refused k card (some cmd) swConditionsNotSatisfied
  | verify {cmd : ApduCmd} {sw : Nat} (hcmd : Dispatched card cmd 0x20)
      (hsw : sw ∈ [swIncorrectP1P2, swReferencedDataNotFound, 0x63C3, swWrongLength]) :
      Refused k card (some cmd) sw
  | getData {cmd : ApduCmd} {sw : Nat} (hcmd : Dispatched card cmd 0xCB)
      (hrequest : requestedObject k cmd = .error sw) : Refused k card (some cmd) sw
  | getResponse {cmd : ApduCmd} (hcmd : Dispatched card cmd 0xC0)
      (hdone : card.piv.chainLen ≤ card.piv.chainOffset) :
      Refused k card (some cmd) swConditionsNotSatisfied
  | authenticate {cmd : ApduCmd} {sw : Nat} (hcmd : Dispatched card cmd 0x87)
      (hrequest : requestedChallenge card.piv cmd = .error sw) : Refused k card (some cmd) sw
  | unsupported {cmd : ApduCmd} (hselected : card.piv.selected = true) (hcla : cmd.cla = 0x00)
      (hins : cmd.ins ∉ [0xA4, 0x20, 0xCB, 0xC0, 0x87]) :
      Refused k card (some cmd) swInsNotSupported

/-- The bytes a GET RESPONSE takes from the chain. -/
def chainPart (piv : Piv) (cmd : ApduCmd) : Nat :=
  if piv.chainLen - piv.chainOffset ≤ effectiveLe cmd then piv.chainLen - piv.chainOffset
  else effectiveLe cmd

/-- The status word of a part that ends at offset `reached` of `total` bytes. -/
def partStatus (reached total : Nat) : Nat :=
  if total ≤ reached then swOk else swRemaining (total - reached)

/-- The device after an authorization was consumed and the operation completed. -/
def spend (d : Device) : Device :=
  devStateOpComplete (devStateBeginProcessing (devStateConsumeAuth d).2)

/-- The signature template `7C (2+s) 82 s` in front of a signature. -/
def signatureTemplate (sig : List UInt8) : List UInt8 :=
  [pivDatTag, UInt8.ofNat (2 + sig.length), pivDatResponse, UInt8.ofNat sig.length] ++ sig

/-- The table of effects. -/
inductive Effect (k : Backend) (amb : Ambient) (card : Card) : Option ApduCmd → Reply → Prop
  | refused {cmd : Option ApduCmd} {sw : Nat} (h : Refused k card cmd sw) :
      Effect k amb card cmd ⟨card, [], sw, none⟩
  | selected {cmd : ApduCmd} (hcmd : SelectsPiv cmd) :
      Effect k amb card (some cmd)
        ⟨{ card with piv := { card.piv with selected := true } }, fci, swOk, none⟩
  | pinAccepted {cmd : ApduCmd} (hselected : card.piv.selected = true) (hcmd : PresentsPin cmd)
      (hpin : read cmd.data 8 = expectedPin) :
      Effect k amb card (some cmd)
        ⟨{ card with piv := { card.piv with pinVerified := true } }, [], swOk, none⟩
  | pinRejected {cmd : ApduCmd} (hselected : card.piv.selected = true) (hcmd : PresentsPin cmd)
      (hpin : read cmd.data 8 ≠ expectedPin) :
      Effect k amb card (some cmd)
        ⟨{ card with piv := { card.piv with pinVerified := false } }, [],
          swSecurityNotSatisfied, none⟩
  | delivered {cmd : ApduCmd} {obj : List UInt8} (hcmd : Dispatched card cmd 0xCB)
      (hrequest : requestedObject k cmd = .ok obj) (hfits : obj.length ≤ effectiveLe cmd) :
      Effect k amb card (some cmd) ⟨card, obj, swOk, none⟩
  | chained {cmd : ApduCmd} {obj : List UInt8} (hcmd : Dispatched card cmd 0xCB)
      (hrequest : requestedObject k cmd = .ok obj) (hlong : effectiveLe cmd < obj.length) :
      Effect k amb card (some cmd)
        ⟨{ card with piv := { card.piv with
            chainBuf := write card.piv.chainBuf 0 obj, chainLen := obj.length,
            chainOffset := effectiveLe cmd } },
          obj.take (effectiveLe cmd), swRemaining (obj.length - effectiveLe cmd), none⟩
  | continued {cmd : ApduCmd} (hcmd : Dispatched card cmd 0xC0)
      (hopen : card.piv.chainOffset < card.piv.chainLen) :
      Effect k amb card (some cmd)
        ⟨{ card with piv := { card.piv with
            chainOffset := card.piv.chainOffset + chainPart card.piv cmd } },
          read (advance card.piv.chainBuf card.piv.chainOffset) (chainPart card.piv cmd),
          partStatus (card.piv.chainOffset + chainPart card.piv cmd) card.piv.chainLen, none⟩
  | requested {cmd : ApduCmd} {hash : List UInt8} (hcmd : Dispatched card cmd 0x87)
      (hrequest : requestedChallenge card.piv cmd = .ok hash)
      (hauth : devStateIsAuthorized card.dev = false) :
      Effect k amb card (some cmd)
        ⟨{ card with dev := devStateRequestAuth card.dev amb.now }, [],
          swConditionsNotSatisfied, none⟩
  | signFailed {cmd : ApduCmd} {hash : List UInt8} (hcmd : Dispatched card cmd 0x87)
      (hrequest : requestedChallenge card.piv cmd = .ok hash)
      (hauth : devStateIsAuthorized card.dev = true)
      (hsig : cryptoSign k amb.pkSign cmd.p2 cmd.p1 hash 72 = []) :
      Effect k amb card (some cmd)
        ⟨{ card with dev := spend card.dev }, [], swUnknown, some hash⟩
  | signed {cmd : ApduCmd} {hash sig : List UInt8} (hcmd : Dispatched card cmd 0x87)
      (hrequest : requestedChallenge card.piv cmd = .ok hash)
      (hauth : devStateIsAuthorized card.dev = true)
      (hsig : cryptoSign k amb.pkSign cmd.p2 cmd.p1 hash 72 = sig) (hsome : sig ≠ []) :
      Effect k amb card (some cmd)
        ⟨{ card with dev := spend card.dev }, signatureTemplate sig, swOk, some hash⟩

section Handlers

variable {k : Backend} {amb : Ambient} {card : Card} {cmd : ApduCmd} {outCap : Nat}

theorem shows_finish (card : Card) (r : ApduResp) (sw : Nat) :
    Shows (finish card r sw) ⟨card, r.body, sw, none⟩ :=
  ⟨rfl, apduRespFinalize_bytes r sw, rfl⟩

theorem shows_bareAnswer (card : Card) (out : Memory UInt8) (sw : Nat) :
    Shows (bareAnswer card out sw) ⟨card, [], sw, none⟩ :=
  ⟨rfl, read_write_zero out (swBytes sw), rfl⟩

theorem shows_signed (card : Card) (r : ApduResp) (sw : Nat) (hash : List UInt8) :
    Shows { finish card r sw with signed := some hash } ⟨card, r.body, sw, some hash⟩ :=
  ⟨rfl, (shows_finish card r sw).answer, rfl⟩

/-- A single append that fits shows its data as the body. -/
theorem shows_append (card : Card) {data : List UInt8} (sw : Nat)
    (h : data.length + 2 ≤ outCap) (out : Memory UInt8) :
    Shows (finish card (apduRespAppend (apduRespInit out outCap) data).2 sw)
      ⟨card, data, sw, none⟩ := by
  have hbody : (apduRespAppend (apduRespInit out outCap) data).2.body = data := by
    rw [apduRespAppend_body, apduRespInit_body, apduRespInit_capacity,
      extend_fits (by simpa using h), List.nil_append]
  have hshows := shows_finish card (apduRespAppend (apduRespInit out outCap) data).2 sw
  rwa [hbody] at hshows

theorem pushSignature_body {sig : List UInt8} (h : sig.length + 6 ≤ outCap) (out : Memory UInt8) :
    (pushSignature (apduRespInit out outCap) sig).body = signatureTemplate sig := by
  have push : ∀ (body : List UInt8) (byte : UInt8), body.length ≤ 3 →
      extend outCap body [byte] = body ++ [byte] := by
    intro body byte hbody
    exact extend_fits (by rw [List.length_singleton]; omega)
  simp only [pushSignature, signatureTemplate]
  simp only [apduRespAppend_body, apduRespPush_body, apduRespPush_capacity, apduRespInit_body,
    apduRespInit_capacity]
  rw [push [] _ (by decide), push ([] ++ _) _ (by simp), push ([] ++ _ ++ _) _ (by simp),
    push ([] ++ _ ++ _ ++ _) _ (by simp), extend_fits (by simp; omega)]
  rfl

theorem handleSelect_effect (hcap : 258 ≤ outCap) (hcla : cmd.cla = 0x00) (hins : cmd.ins = 0xA4) :
    ∃ r, Effect k amb card (some cmd) r ∧ ∀ out, Shows (handleSelect card cmd out outCap) r := by
  have refuse : ∀ sw, sw ∈ [swIncorrectP1P2, swWrongData, swFileNotFound] →
      ∃ r, Effect k amb card (some cmd) r ∧
        ∀ out, Shows (finish card (apduRespInit out outCap) sw) r :=
    fun sw hsw => ⟨_, .refused (.select hcla hins hsw), fun _ => shows_finish card _ sw⟩
  simp only [handleSelect]
  by_cases hp1 : cmd.p1 ≠ 0x04
  · simp only [if_pos hp1]
    exact refuse _ (by simp)
  by_cases hlc : cmd.hasLc = false ∨ cmd.lc < pivAidLen
  · simp only [if_neg hp1, if_pos hlc]
    exact refuse _ (by simp)
  by_cases haid : read cmd.data pivAidLen ≠ pivAid
  · simp only [if_neg hp1, if_neg hlc, if_pos haid]
    exact refuse _ (by simp)
  simp only [if_neg hp1, if_neg hlc, if_neg haid]
  simp only [not_or, Bool.not_eq_false, Nat.not_lt] at hlc
  have hcmd : SelectsPiv cmd :=
    ⟨hcla, hins, not_not.mp hp1, hlc.1, hlc.2, not_not.mp haid⟩
  exact ⟨_, .selected hcmd, shows_append _ swOk (by simp [fci]; omega)⟩

theorem handleVerify_effect (hcmd : Dispatched card cmd 0x20) :
    ∃ r, Effect k amb card (some cmd) r ∧ ∀ out, Shows (handleVerify card cmd out outCap) r := by
  have refuse : ∀ sw, sw ∈ [swIncorrectP1P2, swReferencedDataNotFound, 0x63C3, swWrongLength] →
      ∃ r, Effect k amb card (some cmd) r ∧
        ∀ out, Shows (finish card (apduRespInit out outCap) sw) r :=
    fun sw hsw => ⟨_, .refused (.verify hcmd hsw), fun _ => shows_finish card _ sw⟩
  simp only [handleVerify]
  by_cases hp1 : cmd.p1 ≠ 0x00
  · simp only [if_pos hp1]
    exact refuse _ (by simp)
  by_cases hp2 : cmd.p2 ≠ pivPinRefApp
  · simp only [if_neg hp1, if_pos hp2]
    exact refuse _ (by simp)
  by_cases hempty : cmd.hasLc = false ∨ cmd.lc = 0
  · simp only [if_neg hp1, if_neg hp2, if_pos hempty]
    exact refuse _ (by simp)
  by_cases hlen : cmd.lc ≠ 8
  · simp only [if_neg hp1, if_neg hp2, if_neg hempty, if_pos hlen]
    exact refuse _ (by simp)
  simp only [if_neg hp1, if_neg hp2, if_neg hempty, if_neg hlen]
  simp only [not_or, Bool.not_eq_false] at hempty
  have hpresents : PresentsPin cmd :=
    ⟨hcmd.2.1, hcmd.2.2, not_not.mp hp1, not_not.mp hp2, hempty.1, not_not.mp hlen⟩
  by_cases hpin : read cmd.data 8 ≠ expectedPin
  · simp only [if_pos hpin]
    exact ⟨_, .pinRejected hcmd.1 hpresents hpin,
      fun _ => shows_finish _ _ swSecurityNotSatisfied⟩
  · simp only [if_neg hpin]
    exact ⟨_, .pinAccepted hcmd.1 hpresents (not_not.mp hpin),
      fun _ => shows_finish _ _ swOk⟩

theorem handleGetData_effect (hcap : 258 ≤ outCap) (hle : effectiveLe cmd ≤ 256)
    (hcmd : Dispatched card cmd 0xCB) :
    ∃ r, Effect k amb card (some cmd) r ∧ ∀ out, Shows (handleGetData k card cmd out outCap) r := by
  simp only [handleGetData]
  cases hrequest : requestedObject k cmd with
  | error sw => exact ⟨_, .refused (.getData hcmd hrequest), fun _ => shows_finish card _ sw⟩
  | ok obj =>
    by_cases hfits : obj.length ≤ effectiveLe cmd
    · simp only [if_pos hfits]
      exact ⟨_, .delivered hcmd hrequest hfits, shows_append card swOk (by omega)⟩
    · simp only [if_neg hfits]
      exact ⟨_, .chained hcmd hrequest (Nat.not_le.mp hfits),
        shows_append _ _ (by rw [List.length_take]; omega)⟩

theorem handleGetResponse_open (hopen : card.piv.chainOffset < card.piv.chainLen)
    (out : Memory UInt8) :
    handleGetResponse card cmd out outCap =
      finish
        { card with piv := { card.piv with
            chainOffset := card.piv.chainOffset + chainPart card.piv cmd } }
        (apduRespAppend (apduRespInit out outCap)
          (read (advance card.piv.chainBuf card.piv.chainOffset) (chainPart card.piv cmd))).2
        (partStatus (card.piv.chainOffset + chainPart card.piv cmd) card.piv.chainLen) := by
  simp only [handleGetResponse, partStatus]
  simp only [if_neg (Nat.not_le.mpr hopen)]
  exact (apply_ite (finish _ _) _ _ _).symm

theorem handleGetResponse_effect (hcap : 258 ≤ outCap) (hle : effectiveLe cmd ≤ 256)
    (hcmd : Dispatched card cmd 0xC0) :
    ∃ r, Effect k amb card (some cmd) r ∧
      ∀ out, Shows (handleGetResponse card cmd out outCap) r := by
  by_cases hopen : card.piv.chainOffset < card.piv.chainLen
  · have hpart : chainPart card.piv cmd ≤ 256 := by
      simp only [chainPart]
      split <;> omega
    simp only [handleGetResponse_open hopen]
    exact ⟨_, .continued hcmd hopen, shows_append _ _ (by rw [read_length]; omega)⟩
  · have hdone : card.piv.chainOffset ≥ card.piv.chainLen := Nat.not_lt.mp hopen
    simp only [handleGetResponse]
    simp only [if_pos hdone]
    exact ⟨_, .refused (.getResponse hcmd hdone), fun _ => shows_finish card _ _⟩

theorem handleGeneralAuthenticate_effect (hcap : 258 ≤ outCap) (hcmd : Dispatched card cmd 0x87) :
    ∃ r, Effect k amb card (some cmd) r ∧
      ∀ out, Shows (handleGeneralAuthenticate k amb card cmd out outCap) r := by
  simp only [handleGeneralAuthenticate]
  cases hrequest : requestedChallenge card.piv cmd with
  | error sw => exact ⟨_, .refused (.authenticate hcmd hrequest), fun _ => shows_finish card _ sw⟩
  | ok hash =>
    cases hauth : devStateIsAuthorized card.dev with
    | false =>
      simp only [if_pos]
      exact ⟨_, .requested hcmd hrequest hauth, fun _ => shows_finish _ _ _⟩
    | true =>
      have hconsume : (devStateConsumeAuth card.dev).1 = true := by
        rw [consume_eq_isAuthorized, hauth]
      simp only [hconsume, Bool.true_eq_false, if_false]
      by_cases hsig : (cryptoSign k amb.pkSign cmd.p2 cmd.p1 hash 72).length = 0
      · simp only [if_pos hsig]
        exact ⟨_, .signFailed hcmd hrequest hauth (List.eq_nil_of_length_eq_zero hsig),
          fun _ => shows_signed _ _ _ hash⟩
      · simp only [if_neg hsig]
        have hlen := cryptoSign_length_le k amb.pkSign cmd.p2 cmd.p1 hash 72
        refine ⟨_, .signed hcmd hrequest hauth rfl fun h => hsig (by rw [h]; rfl), fun out => ?_⟩
        have hshows := shows_signed { card with dev := spend card.dev }
          (pushSignature (apduRespInit out outCap)
            (cryptoSign k amb.pkSign cmd.p2 cmd.p1 hash 72)) swOk hash
        rwa [pushSignature_body (by omega)] at hshows

end Handlers

theorem effectiveLe_le {raw : Memory UInt8} {rawLen : Nat} {cmd : ApduCmd}
    (h : apduParse raw rawLen = some cmd) : effectiveLe cmd ≤ 256 := by
  simp only [effectiveLe]
  split
  · rename_i hle
    exact ((apduParse_accepted h).expected hle).2
  · exact Nat.le_refl 256

theorem effectiveLe_pos {raw : Memory UInt8} {rawLen : Nat} {cmd : ApduCmd}
    (h : apduParse raw rawLen = some cmd) : 0 < effectiveLe cmd := by
  simp only [effectiveLe]
  split
  · rename_i hle
    exact ((apduParse_accepted h).expected hle).1
  · decide

/-- Whatever `piv_process_apdu` does is a row of the table, the same one whatever the output
buffer held before. -/
theorem pivProcessApdu_effect (k : Backend) (amb : Ambient) (card : Card) (apduIn : Memory UInt8)
    (inLen : Nat) {outCap : Nat} (hcap : 258 ≤ outCap) :
    ∃ r, Effect k amb card (apduParse apduIn inLen) r ∧
      ∀ apduOut, Shows (pivProcessApdu k amb card apduIn inLen apduOut outCap) r := by
  simp only [pivProcessApdu]
  cases hparse : apduParse apduIn inLen with
  | none => exact ⟨_, .refused .malformed, fun _ => shows_bareAnswer card _ swUnknown⟩
  | some cmd =>
    have hle := effectiveLe_le hparse
    by_cases hcla : cmd.cla ≠ 0x00
    · simp only [if_pos hcla]
      exact ⟨_, .refused (.cla hcla), fun _ => shows_bareAnswer card _ swClaNotSupported⟩
    simp only [if_neg hcla]
    have hcla : cmd.cla = 0x00 := not_not.mp hcla
    by_cases hselect : cmd.ins = 0xA4
    · simp only [if_pos hselect]
      exact handleSelect_effect hcap hcla hselect
    simp only [if_neg hselect]
    by_cases hselected : card.piv.selected = false
    · simp only [if_pos hselected]
      exact ⟨_, .refused (.notSelected hcla hselect hselected), fun _ => shows_bareAnswer card _ _⟩
    simp only [if_neg hselected]
    have hselected : card.piv.selected = true := by simpa using hselected
    simp only [handleSelected]
    by_cases hverify : cmd.ins = 0x20
    · simp only [if_pos hverify]
      exact handleVerify_effect ⟨hselected, hcla, hverify⟩
    by_cases hgetData : cmd.ins = 0xCB
    · simp only [if_neg hverify, if_pos hgetData]
      exact handleGetData_effect hcap hle ⟨hselected, hcla, hgetData⟩
    by_cases hgetResponse : cmd.ins = 0xC0
    · simp only [if_neg hverify, if_neg hgetData, if_pos hgetResponse]
      exact handleGetResponse_effect hcap hle ⟨hselected, hcla, hgetResponse⟩
    by_cases hauthenticate : cmd.ins = 0x87
    · simp only [if_neg hverify, if_neg hgetData, if_neg hgetResponse, if_pos hauthenticate]
      exact handleGeneralAuthenticate_effect hcap ⟨hselected, hcla, hauthenticate⟩
    simp only [if_neg hverify, if_neg hgetData, if_neg hgetResponse, if_neg hauthenticate]
    have hins : cmd.ins ∉ [0xA4, 0x20, 0xCB, 0xC0, 0x87] := by simp [*]
    exact ⟨_, .refused (.unsupported hselected hcla hins), fun _ => shows_bareAnswer card _ _⟩

theorem requestedObject_error {k : Backend} {cmd : ApduCmd} {sw : Nat}
    (h : requestedObject k cmd = .error sw) :
    sw ∈ [swIncorrectP1P2, swWrongData, swReferencedDataNotFound] := by
  simp only [requestedObject] at h
  repeat' split at h
  all_goals cases h
  all_goals simp

theorem requestedChallenge_error {piv : Piv} {cmd : ApduCmd} {sw : Nat}
    (h : requestedChallenge piv cmd = .error sw) :
    sw ∈ [swIncorrectP1P2, swReferencedDataNotFound, swSecurityNotSatisfied, swWrongLength,
      swWrongData] := by
  simp only [requestedChallenge] at h
  repeat' split at h
  all_goals cases h
  all_goals simp

theorem requestedChallenge_verified {piv : Piv} {cmd : ApduCmd} {hash : List UInt8}
    (h : requestedChallenge piv cmd = .ok hash) : piv.pinVerified = true := by
  cases hverified : piv.pinVerified with
  | true => rfl
  | false =>
    simp only [requestedChallenge, hverified, if_true] at h
    split at h
    · cases h
    · split at h <;> cases h

def refusalWords : List Nat :=
  [swUnknown, swClaNotSupported, swConditionsNotSatisfied, swInsNotSupported, swIncorrectP1P2,
    swWrongData, swFileNotFound, swReferencedDataNotFound, 0x63C3, swWrongLength,
    swSecurityNotSatisfied]

theorem Refused.mem {k : Backend} {card : Card} {cmd : Option ApduCmd} {sw : Nat}
    (h : Refused k card cmd sw) : sw ∈ refusalWords := by
  cases h with
  | select _ _ hsw =>
    exact (by decide : [swIncorrectP1P2, swWrongData, swFileNotFound] ⊆ refusalWords) hsw
  | verify _ hsw =>
    exact (by decide : [swIncorrectP1P2, swReferencedDataNotFound, 0x63C3, swWrongLength] ⊆
      refusalWords) hsw
  | getData _ hrequest =>
    exact (by decide : [swIncorrectP1P2, swWrongData, swReferencedDataNotFound] ⊆ refusalWords)
      (requestedObject_error hrequest)
  | authenticate _ hrequest =>
    exact (by decide : [swIncorrectP1P2, swReferencedDataNotFound, swSecurityNotSatisfied,
      swWrongLength, swWrongData] ⊆ refusalWords) (requestedChallenge_error hrequest)
  | malformed | cla | notSelected | getResponse | unsupported => simp [refusalWords]

/-- No refusal reads as a success, complete or partial. -/
theorem Refused.word {k : Backend} {card : Card} {cmd : Option ApduCmd} {sw : Nat}
    (h : Refused k card cmd sw) : sw < 0x10000 ∧ sw ≠ swOk ∧ sw / 256 ≠ 0x61 := by
  have words : ∀ sw ∈ refusalWords, sw < 0x10000 ∧ sw ≠ swOk ∧ sw / 256 ≠ 0x61 := by decide
  exact words sw h.mem

theorem swRemaining_eq (n : Nat) : swRemaining n = 0x6100 + min n 0xFF := by
  simp only [swRemaining]
  rw [swMoreData_eq (by split <;> omega)]
  split <;> omega

theorem partStatus_lt (reached total : Nat) : partStatus reached total < 0x10000 := by
  simp only [partStatus]
  split
  · decide
  · rw [swRemaining_eq]
    omega

theorem chainPart_le (piv : Piv) (cmd : ApduCmd) : chainPart piv cmd ≤ effectiveLe cmd := by
  simp only [chainPart]
  split <;> omega

/-- Every status word fits its two bytes. -/
theorem Effect.sw_lt {k : Backend} {amb : Ambient} {card : Card} {cmd : Option ApduCmd} {r : Reply}
    (h : Effect k amb card cmd r) : r.sw < 0x10000 := by
  cases h with
  | refused hrefused => exact hrefused.word.1
  | chained =>
    show swRemaining _ < 0x10000
    rw [swRemaining_eq]
    omega
  | continued => exact partStatus_lt _ _
  | selected | pinAccepted | delivered | signed => exact (by decide : swOk < 0x10000)
  | pinRejected => exact (by decide : swSecurityNotSatisfied < 0x10000)
  | requested => exact (by decide : swConditionsNotSatisfied < 0x10000)
  | signFailed => exact (by decide : swUnknown < 0x10000)

theorem Effect.body_length_le {k : Backend} {amb : Ambient} {card : Card} {raw : Memory UInt8}
    {rawLen : Nat} {r : Reply} (h : Effect k amb card (apduParse raw rawLen) r) :
    r.body.length ≤ 256 := by
  generalize hparse : apduParse raw rawLen = cmd at h
  cases h with
  | delivered _ _ hfits => exact Nat.le_trans hfits (effectiveLe_le hparse)
  | chained _ _ hlong =>
    rw [List.length_take]
    exact Nat.le_trans (Nat.min_le_left _ _) (effectiveLe_le hparse)
  | continued =>
    rw [read_length]
    exact Nat.le_trans (chainPart_le _ _) (effectiveLe_le hparse)
  | @signed cmd hash sig _ _ _ hsig =>
    have hlen := cryptoSign_length_le k amb.pkSign cmd.p2 cmd.p1 hash 72
    rw [hsig] at hlen
    simp only [signatureTemplate, List.length_append, List.length_cons, List.length_nil]
    omega
  | selected => exact (by decide : fci.length ≤ 256)
  | refused | pinAccepted | pinRejected | requested | signFailed => exact Nat.zero_le _

/-- The command is a GENERAL AUTHENTICATE that gets as far as the user-presence check. -/
def AsksToSign (card : Card) (cmd : Option ApduCmd) (hash : List UInt8) : Prop :=
  ∃ c, cmd = some c ∧ Dispatched card c 0x87 ∧ requestedChallenge card.piv c = .ok hash

theorem Dispatched.ins_eq {card : Card} {cmd : ApduCmd} {i j : UInt8}
    (h : Dispatched card cmd i) (h' : Dispatched card cmd j) : i = j :=
  h.2.2.symm.trans h'.2.2

/-- A refusal of a dispatched command comes from the checks of its own handler. -/
theorem Refused.dispatched {k : Backend} {card : Card} {cmd : ApduCmd} {sw : Nat} {ins : UInt8}
    (h : Refused k card (some cmd) sw) (hcmd : Dispatched card cmd ins)
    (hins : ins ∈ [0x20, 0xCB, 0xC0, 0x87]) :
    ins = 0x20 ∨ (ins = 0xCB ∧ requestedObject k cmd = .error sw) ∨
    (ins = 0xC0 ∧ card.piv.chainLen ≤ card.piv.chainOffset ∧ sw = swConditionsNotSatisfied) ∨
    (ins = 0x87 ∧ requestedChallenge card.piv cmd = .error sw) := by
  cases h with
  | cla hcla => exact absurd hcmd.2.1 hcla
  | select _ hother =>
    rw [← hcmd.2.2, hother] at hins
    exact absurd hins (by decide)
  | notSelected _ _ hselected =>
    rw [hcmd.1] at hselected
    cases hselected
  | verify hother => exact Or.inl (hcmd.ins_eq hother)
  | getData hother herror => exact Or.inr (Or.inl ⟨hcmd.ins_eq hother, herror⟩)
  | getResponse hother hdone =>
    exact Or.inr (Or.inr (Or.inl ⟨hcmd.ins_eq hother, hdone, rfl⟩))
  | authenticate hother herror =>
    exact Or.inr (Or.inr (Or.inr ⟨hcmd.ins_eq hother, herror⟩))
  | unsupported _ _ hother =>
    rw [hcmd.2.2] at hother
    exact absurd (List.mem_cons_of_mem _ hins) hother

/-- The three outcomes of GET DATA. -/
theorem Effect.getData_cases {k : Backend} {amb : Ambient} {card : Card} {cmd : ApduCmd}
    {r : Reply} (h : Effect k amb card (some cmd) r) (hcmd : Dispatched card cmd 0xCB) :
    (∃ sw, requestedObject k cmd = .error sw ∧ r = ⟨card, [], sw, none⟩) ∨
    (∃ obj, requestedObject k cmd = .ok obj ∧ obj.length ≤ effectiveLe cmd ∧
      r = ⟨card, obj, swOk, none⟩) ∨
    (∃ obj, requestedObject k cmd = .ok obj ∧ effectiveLe cmd < obj.length ∧
      r = ⟨{ card with piv := { card.piv with
              chainBuf := write card.piv.chainBuf 0 obj, chainLen := obj.length,
              chainOffset := effectiveLe cmd } },
            obj.take (effectiveLe cmd), swRemaining (obj.length - effectiveLe cmd), none⟩) := by
  cases h with
  | refused hrefused =>
    rcases hrefused.dispatched hcmd (by decide) with hno | ⟨_, herror⟩ | ⟨hno, _⟩ | ⟨hno, _⟩
    · exact absurd hno (by decide)
    · exact Or.inl ⟨_, herror, rfl⟩
    · exact absurd hno (by decide)
    · exact absurd hno (by decide)
  | delivered _ hrequest hfits => exact Or.inr (Or.inl ⟨_, hrequest, hfits, rfl⟩)
  | chained _ hrequest hlong => exact Or.inr (Or.inr ⟨_, hrequest, hlong, rfl⟩)
  | selected hother | pinAccepted _ hother | pinRejected _ hother =>
    exact absurd (hcmd.2.2.symm.trans hother.2.1) (by decide)
  | continued hother | requested hother | signFailed hother | signed hother =>
    exact absurd (hcmd.ins_eq hother) (by decide)

/-- The two outcomes of GET RESPONSE. -/
theorem Effect.getResponse_cases {k : Backend} {amb : Ambient} {card : Card} {cmd : ApduCmd}
    {r : Reply} (h : Effect k amb card (some cmd) r) (hcmd : Dispatched card cmd 0xC0) :
    (card.piv.chainLen ≤ card.piv.chainOffset ∧
      r = ⟨card, [], swConditionsNotSatisfied, none⟩) ∨
    (card.piv.chainOffset < card.piv.chainLen ∧
      r = ⟨{ card with piv := { card.piv with
              chainOffset := card.piv.chainOffset + chainPart card.piv cmd } },
            read (advance card.piv.chainBuf card.piv.chainOffset) (chainPart card.piv cmd),
            partStatus (card.piv.chainOffset + chainPart card.piv cmd) card.piv.chainLen,
            none⟩) := by
  cases h with
  | refused hrefused =>
    rcases hrefused.dispatched hcmd (by decide) with hno | ⟨hno, _⟩ | ⟨_, hdone, rfl⟩ | ⟨hno, _⟩
    · exact absurd hno (by decide)
    · exact absurd hno (by decide)
    · exact Or.inl ⟨hdone, rfl⟩
    · exact absurd hno (by decide)
  | continued _ hopen => exact Or.inr ⟨hopen, rfl⟩
  | selected hother | pinAccepted _ hother | pinRejected _ hother =>
    exact absurd (hcmd.2.2.symm.trans hother.2.1) (by decide)
  | delivered hother | chained hother | requested hother | signFailed hother | signed hother =>
    exact absurd (hcmd.ins_eq hother) (by decide)

/-- The four outcomes of GENERAL AUTHENTICATE. -/
theorem Effect.authenticate_cases {k : Backend} {amb : Ambient} {card : Card} {cmd : ApduCmd}
    {r : Reply} (h : Effect k amb card (some cmd) r) (hcmd : Dispatched card cmd 0x87) :
    (∃ sw, requestedChallenge card.piv cmd = .error sw ∧ r = ⟨card, [], sw, none⟩) ∨
    ∃ hash, requestedChallenge card.piv cmd = .ok hash ∧
      ((devStateIsAuthorized card.dev = false ∧
        r = ⟨{ card with dev := devStateRequestAuth card.dev amb.now }, [],
          swConditionsNotSatisfied, none⟩) ∨
      (devStateIsAuthorized card.dev = true ∧
        cryptoSign k amb.pkSign cmd.p2 cmd.p1 hash 72 = [] ∧
        r = ⟨{ card with dev := spend card.dev }, [], swUnknown, some hash⟩) ∨
      (devStateIsAuthorized card.dev = true ∧
        cryptoSign k amb.pkSign cmd.p2 cmd.p1 hash 72 ≠ [] ∧
        r = ⟨{ card with dev := spend card.dev },
          signatureTemplate (cryptoSign k amb.pkSign cmd.p2 cmd.p1 hash 72), swOk,
          some hash⟩)) := by
  cases h with
  | refused hrefused =>
    rcases hrefused.dispatched hcmd (by decide) with hno | ⟨hno, _⟩ | ⟨hno, _⟩ | ⟨_, herror⟩
    · exact absurd hno (by decide)
    · exact absurd hno (by decide)
    · exact absurd hno (by decide)
    · exact Or.inl ⟨_, herror, rfl⟩
  | requested _ hrequest hauth => exact Or.inr ⟨_, hrequest, Or.inl ⟨hauth, rfl⟩⟩
  | signFailed _ hrequest hauth hsig =>
    exact Or.inr ⟨_, hrequest, Or.inr (Or.inl ⟨hauth, hsig, rfl⟩)⟩
  | signed _ hrequest hauth hsig hsome =>
    subst hsig
    exact Or.inr ⟨_, hrequest, Or.inr (Or.inr ⟨hauth, hsome, rfl⟩)⟩
  | selected hother | pinAccepted _ hother | pinRejected _ hother =>
    exact absurd (hcmd.2.2.symm.trans hother.2.1) (by decide)
  | delivered hother | chained hother | continued hother =>
    exact absurd (hcmd.ins_eq hother) (by decide)

/-- Until the applet is selected, only SELECT gets through. -/
theorem Effect.notSelected {k : Backend} {amb : Ambient} {card : Card} {cmd : ApduCmd}
    {r : Reply} (h : Effect k amb card (some cmd) r) (hselected : card.piv.selected = false)
    (hcla : cmd.cla = 0x00) (hins : cmd.ins ≠ 0xA4) :
    r = ⟨card, [], swConditionsNotSatisfied, none⟩ := by
  have hclosed : ∀ ins, ¬ Dispatched card cmd ins := by
    rintro ins ⟨hopen, _⟩
    rw [hselected] at hopen
    cases hopen
  cases h with
  | refused hrefused =>
    cases hrefused with
    | notSelected => rfl
    | cla hother => exact absurd hcla hother
    | select _ hother => exact absurd hother hins
    | verify hcmd | getData hcmd | getResponse hcmd | authenticate hcmd =>
      exact absurd hcmd (hclosed _)
    | unsupported hopen =>
      rw [hselected] at hopen
      cases hopen
  | selected hother => exact absurd hother.2.1 hins
  | pinAccepted hopen | pinRejected hopen =>
    rw [hselected] at hopen
    cases hopen
  | delivered hcmd | chained hcmd | continued hcmd | requested hcmd | signFailed hcmd
  | signed hcmd => exact absurd hcmd (hclosed _)

/-- `crypto_sign` is called exactly when the presence check finds an authorization. -/
theorem Effect.signed_iff {k : Backend} {amb : Ambient} {card : Card} {cmd : Option ApduCmd}
    {r : Reply} (h : Effect k amb card cmd r) (hash : List UInt8) :
    r.signed = some hash ↔
      AsksToSign card cmd hash ∧ devStateIsAuthorized card.dev = true := by
  constructor
  · intro hsigned
    cases h with
    | signFailed hcmd hrequest hauth | signed hcmd hrequest hauth =>
      cases hsigned
      exact ⟨⟨_, rfl, hcmd, hrequest⟩, hauth⟩
    | refused | selected | pinAccepted | pinRejected | delivered | chained | continued
    | requested => cases hsigned
  · rintro ⟨⟨c, hc, hcmd, hrequest⟩, hauth⟩
    cases h with
    | refused hrefused =>
      subst hc
      rcases hrefused.dispatched hcmd (by decide) with hno | ⟨hno, _⟩ | ⟨hno, _⟩ | ⟨_, herror⟩
      · exact absurd hno (by decide)
      · exact absurd hno (by decide)
      · exact absurd hno (by decide)
      · rw [hrequest] at herror
        cases herror
    | selected hother | pinAccepted _ hother | pinRejected _ hother =>
      cases hc
      exact absurd (hcmd.2.2.symm.trans hother.2.1) (by decide)
    | delivered hother | chained hother | continued hother =>
      cases hc
      exact absurd (hcmd.ins_eq hother) (by decide)
    | requested _ _ hno =>
      rw [hauth] at hno
      cases hno
    | signFailed _ hother | signed _ hother =>
      cases hc
      rw [hrequest] at hother
      cases hother
      rfl

/-- The three ways an APDU treats the authorization: not at all, asking for one, spending it. -/
theorem Effect.device_cases {k : Backend} {amb : Ambient} {card : Card} {cmd : Option ApduCmd}
    {r : Reply} (h : Effect k amb card cmd r) :
    (r.signed = none ∧ r.card.dev = card.dev) ∨
    (r.signed = none ∧ r.card.dev = devStateRequestAuth card.dev amb.now) ∨
    (∃ hash, r.signed = some hash ∧ devStateIsAuthorized card.dev = true ∧
      r.card.dev = spend card.dev) := by
  cases h with
  | requested => exact Or.inr (Or.inl ⟨rfl, rfl⟩)
  | signFailed _ _ hauth | signed _ _ hauth => exact Or.inr (Or.inr ⟨_, rfl, hauth, rfl⟩)
  | refused | selected | pinAccepted | pinRejected | delivered | chained | continued =>
    exact Or.inl ⟨rfl, rfl⟩

/-- The device waits for a press if it did before, or if it was idle and is asked to sign. -/
theorem Effect.waiting_iff {k : Backend} {amb : Ambient} {card : Card} {cmd : Option ApduCmd}
    {r : Reply} (h : Effect k amb card cmd r) :
    r.card.dev.state = .waitingButton ↔ card.dev.state = .waitingButton ∨
      card.dev.state = .idle ∧ ∃ hash, AsksToSign card cmd hash := by
  by_cases hasks : ∃ hash, AsksToSign card cmd hash
  · obtain ⟨hash, c, rfl, hcmd, hrequest⟩ := hasks
    have hasks : ∃ hash, AsksToSign card (some c) hash := ⟨hash, c, rfl, hcmd, hrequest⟩
    have hspent : (spend card.dev).state = .idle := rfl
    have hauthorized : devStateIsAuthorized card.dev = true → card.dev.state = .authorized := by
      intro hauth
      exact (of_decide_eq_true hauth).1
    rcases h.authenticate_cases hcmd with ⟨_, herror, _⟩ | ⟨hash', _, ⟨_, rfl⟩ | ⟨hauth, _, rfl⟩ |
      ⟨hauth, _, rfl⟩⟩
    · rw [hrequest] at herror
      cases herror
    · simp only [devStateRequestAuth, hasks, and_true]
      split
      · rename_i hidle
        simp [hidle]
      · rename_i hbusy
        simp [hbusy]
    · simp [hspent, hauthorized hauth]
    · simp [hspent, hauthorized hauth]
  · have hsame : r.card.dev = card.dev := by
      cases h with
      | requested hcmd hrequest | signFailed hcmd hrequest | signed hcmd hrequest =>
        exact absurd ⟨_, _, rfl, hcmd, hrequest⟩ hasks
      | refused | selected | pinAccepted | pinRejected | delivered | chained | continued => rfl
    rw [hsame]
    simp [hasks]

theorem Effect.calm {k : Backend} {amb : Ambient} {card : Card} {cmd : Option ApduCmd} {r : Reply}
    (h : Effect k amb card cmd r) : Calm card.dev r.card.dev := by
  rcases h.device_cases with ⟨_, hdev⟩ | ⟨_, hdev⟩ | ⟨_, _, _, hdev⟩
  · rw [hdev]
    exact id
  · rw [hdev]
    exact calm_request card.dev amb.now
  · rw [hdev]
    exact calm_opComplete card.dev _

/-- A VERIFY is refused with other words than that for a wrong PIN. -/
theorem Refused.verify_word {k : Backend} {card : Card} {cmd : ApduCmd} {sw : Nat}
    (h : Refused k card (some cmd) sw) (hins : cmd.ins = 0x20) : sw ≠ swSecurityNotSatisfied := by
  have words : swSecurityNotSatisfied ∉ [swClaNotSupported, swConditionsNotSatisfied,
      swInsNotSupported, swIncorrectP1P2, swReferencedDataNotFound, 0x63C3, swWrongLength] := by
    decide
  rintro rfl
  apply words
  cases h with
  | select _ hother => exact absurd (hins.symm.trans hother) (by decide)
  | verify _ hsw =>
    exact (by decide : [swIncorrectP1P2, swReferencedDataNotFound, 0x63C3, swWrongLength] ⊆ _) hsw
  | getData hother | authenticate hother =>
    exact absurd (hins.symm.trans hother.2.2) (by decide)

/-- The four ways an APDU treats the two flags of a session. -/
theorem Effect.flag_cases {k : Backend} {amb : Ambient} {card : Card} {cmd : Option ApduCmd}
    {r : Reply} (h : Effect k amb card cmd r) :
    (∃ c, cmd = some c ∧ SelectsPiv c ∧ r.sw = swOk ∧ r.signed = none ∧ r.card.dev = card.dev ∧
      r.card.piv = { card.piv with selected := true }) ∨
    (∃ c, cmd = some c ∧ PresentsPin c ∧ card.piv.selected = true ∧ r.sw = swOk ∧
      r.signed = none ∧ r.card.dev = card.dev ∧
      r.card.piv = { card.piv with pinVerified := true }) ∨
    (r.card.piv = { card.piv with pinVerified := false }) ∨
    (r.card.piv.selected = card.piv.selected ∧ r.card.piv.pinVerified = card.piv.pinVerified ∧
      ∀ c, cmd = some c → c.ins = 0x20 → r.sw ≠ swSecurityNotSatisfied) := by
  cases h with
  | selected hcmd => exact Or.inl ⟨_, rfl, hcmd, rfl, rfl, rfl, rfl⟩
  | pinAccepted hselected hcmd =>
    exact Or.inr (Or.inl ⟨_, rfl, hcmd, hselected, rfl, rfl, rfl, rfl⟩)
  | pinRejected => exact Or.inr (Or.inr (Or.inl rfl))
  | refused hrefused =>
    refine Or.inr (Or.inr (Or.inr ⟨rfl, rfl, ?_⟩))
    rintro c rfl hins
    exact hrefused.verify_word hins
  | delivered hother | chained hother | continued hother | requested hother | signFailed hother
  | signed hother =>
    refine Or.inr (Or.inr (Or.inr ⟨rfl, rfl, ?_⟩))
    intro c hc hins
    cases hc
    exact absurd (hins.symm.trans hother.2.2) (by decide)

theorem answerBody_bytes (r : Reply) : answerBody r.bytes = r.body := answerBody_append r.body r.sw

theorem Effect.statusWord_bytes {k : Backend} {amb : Ambient} {card : Card}
    {cmd : Option ApduCmd} {r : Reply} (h : Effect k amb card cmd r) :
    statusWord r.bytes = r.sw :=
  statusWord_append r.body h.sw_lt

end AppletEffects
