import Ward3n.ChainOwnership

/-!
# What a command leaves alone

A frame condition for each part of the applet: the commands and answers without
which it stays as it is. A call that fails changes nothing, a wrong PIN apart,
and before the applet is selected nothing but SELECT reaches it. What the flags
are at the end of a run can then be told from the commands and answers alone.
-/

namespace AppletFrame

open CellMemory ApduCodec CryptoBackend DeviceState PivApplet CcidDriver TracedRuns AppletEffects
  ChainedResponses ChainOwnership

universe u

def insSelect : UInt8 := 0xA4
def insVerify : UInt8 := 0x20

/-- The fields of a chained response. -/
def chain (piv : Piv) : Memory UInt8 × Nat × Nat := (piv.chainBuf, piv.chainLen, piv.chainOffset)

/-- A part of the applet stays as it is unless the condition holds. -/
def ChangesOnlyIf {α : Type u} (part : Piv → α) (before after : Card) (condition : Prop) : Prop :=
  part after.piv ≠ part before.piv → condition

/-- VERIFY compares a PIN of 8 bytes, and it is not the right one. -/
def WrongPin (card : Card) (cmd : Option ApduCmd) : Prop :=
  card.piv.selected = true ∧ ∃ c, cmd = some c ∧ PresentsPin c ∧ read c.data 8 ≠ expectedPin

/-- `pin_verified` behind a VERIFY answered with a status word. -/
def verifiedAfter (sw : Nat) (verified : Bool) : Bool :=
  if sw = swOk then true else if sw = swSecurityNotSatisfied then false else verified

/-- The frame of one call: the command, the card around it and the answer. -/
structure Framed (cmd : Option ApduCmd) (before after : Card) (answer : List UInt8) : Prop where
  selected : ChangesOnlyIf Piv.selected before after
    (before.piv.selected = false ∧ after.piv.selected = true ∧ Instructs insSelect cmd ∧
      statusWord answer = swOk)
  pinVerified : ChangesOnlyIf Piv.pinVerified before after (Instructs insVerify cmd)
  verify : Instructs insVerify cmd →
    after.piv.pinVerified = verifiedAfter (statusWord answer) before.piv.pinVerified ∧
      (statusWord answer = swSecurityNotSatisfied ↔ WrongPin before cmd)
  chained : ChangesOnlyIf chain before after
    ((Instructs insGetData cmd ∧ statusWord answer / 256 = 0x61) ∨
      (Instructs insGetResponse cmd ∧ answerBody answer ≠ []))
  failed : ¬ Succeeds (statusWord answer) → ¬ WrongPin before cmd → after.piv = before.piv
  wrongPin : WrongPin before cmd → statusWord answer = swSecurityNotSatisfied ∧
    after.piv = { before.piv with pinVerified := false }
  unselected : before.piv.selected = false → ¬ Instructs insSelect cmd → after = before

section Rows

variable {k : Backend} {amb : Ambient} {card : Card} {cmd : Option ApduCmd} {r : Reply}

theorem selected_frame (h : Effect k amb card cmd r) :
    ChangesOnlyIf Piv.selected card r.card
      (card.piv.selected = false ∧ r.card.piv.selected = true ∧ Instructs insSelect cmd ∧
        r.sw = swOk) := by
  intro hchange
  cases h with
  | selected hcmd =>
    have hbefore : card.piv.selected = false := by simpa using hchange.symm
    exact ⟨hbefore, rfl, ⟨_, rfl, hcmd.1, hcmd.2.1⟩, rfl⟩
  | refused | pinAccepted | pinRejected | delivered | chained | continued | requested
  | signFailed | signed => exact absurd rfl hchange

theorem pinVerified_frame (h : Effect k amb card cmd r) :
    ChangesOnlyIf Piv.pinVerified card r.card (Instructs insVerify cmd) := by
  intro hchange
  cases h with
  | pinAccepted _ hcmd | pinRejected _ hcmd => exact ⟨_, rfl, hcmd.1, hcmd.2.1⟩
  | refused | selected | delivered | chained | continued | requested | signFailed | signed =>
    exact absurd rfl hchange

/-- A GET RESPONSE that reaches the chain delivers at least one byte of it. -/
theorem chain_frame (h : Effect k amb card cmd r) (hle : ∀ c, cmd = some c → 0 < effectiveLe c) :
    ChangesOnlyIf chain card r.card
      ((Instructs insGetData cmd ∧ r.sw / 256 = 0x61) ∨
        (Instructs insGetResponse cmd ∧ r.body ≠ [])) := by
  intro hchange
  cases h with
  | chained hcmd hrequest hlong =>
    refine Or.inl ⟨⟨_, rfl, hcmd.2⟩, ?_⟩
    simp only [swRemaining_eq]
    omega
  | @continued c hcmd hopen =>
    refine Or.inr ⟨⟨_, rfl, hcmd.2⟩, ?_⟩
    have hpart : 0 < chainPart card.piv c := by
      have hpos := hle c rfl
      simp only [chainPart]
      split <;> omega
    apply List.ne_nil_of_length_pos
    simpa using hpart
  | refused | selected | pinAccepted | pinRejected | delivered | requested | signFailed
  | signed => exact absurd rfl hchange

/-- The flag follows the word a VERIFY is answered with. A wrong PIN is the only VERIFY that
can be answered 6982. -/
theorem verify_frame (h : Effect k amb card cmd r) (hcmd : Instructs insVerify cmd) :
    r.card.piv.pinVerified = verifiedAfter r.sw card.piv.pinVerified ∧
      (r.sw = swSecurityNotSatisfied → WrongPin card cmd) := by
  obtain ⟨c, rfl, hcla, hins⟩ := hcmd
  cases h with
  | refused hrefused =>
    have hok := hrefused.word.2.1
    have hsecurity := hrefused.verify_word hins
    exact ⟨by rw [verifiedAfter, if_neg hok, if_neg hsecurity], fun h => absurd h hsecurity⟩
  | pinAccepted => exact ⟨rfl, fun h => absurd h (by decide : swOk ≠ swSecurityNotSatisfied)⟩
  | pinRejected hselected hpresents hpin =>
    exact ⟨rfl, fun _ => ⟨hselected, c, rfl, hpresents, hpin⟩⟩
  | selected hother => exact absurd (hins.symm.trans hother.2.1) (by decide)
  | delivered hother | chained hother | continued hother | requested hother | signFailed hother
  | signed hother => exact absurd (hins.symm.trans hother.2.2) (by decide)

/-- Every row that writes to the applet is answered as a success, the wrong PIN apart. -/
theorem failed_frame (h : Effect k amb card cmd r) (hfail : ¬ Succeeds r.sw)
    (hpin : ¬ WrongPin card cmd) : r.card.piv = card.piv := by
  cases h with
  | selected | pinAccepted => exact absurd (Or.inl rfl) hfail
  | pinRejected hselected hpresents hwrong =>
    exact absurd ⟨hselected, _, rfl, hpresents, hwrong⟩ hpin
  | chained =>
    refine absurd (Or.inr ?_) hfail
    simp only [swRemaining_eq]
    omega
  | continued =>
    refine absurd ?_ hfail
    simp only [Succeeds, partStatus]
    split
    · exact Or.inl rfl
    · rw [swRemaining_eq]
      omega
  | refused | delivered | requested | signFailed | signed => rfl

theorem unselected_frame (h : Effect k amb card cmd r) (hselected : card.piv.selected = false)
    (hno : ¬ Instructs insSelect cmd) : r.card = card := by
  have hclosed : ¬ card.piv.selected = true := by simp [hselected]
  cases h with
  | refused => rfl
  | selected hcmd => exact absurd ⟨_, rfl, hcmd.1, hcmd.2.1⟩ hno
  | pinAccepted hopen | pinRejected hopen => exact absurd hopen hclosed
  | delivered hcmd | chained hcmd | continued hcmd | requested hcmd | signFailed hcmd
  | signed hcmd => exact absurd hcmd.1 hclosed

/-- SELECT answered 9000 has selected the applet. -/
theorem select_done (h : Effect k amb card cmd r) (hcmd : Instructs insSelect cmd)
    (hok : r.sw = swOk) : r.card.piv.selected = true := by
  obtain ⟨c, rfl, hcla, hins⟩ := hcmd
  cases h with
  | refused hrefused => exact absurd hok hrefused.word.2.1
  | selected => rfl
  | pinAccepted _ hother | pinRejected _ hother =>
    exact absurd (hins.symm.trans hother.2.1) (by decide)
  | delivered hother | chained hother | continued hother | requested hother | signFailed hother
  | signed hother => exact absurd (hins.symm.trans hother.2.2) (by decide)

end Rows

section Calls

variable (k : Backend) (amb : Ambient) (card : Card) (raw : Memory UInt8) (len : Nat)
  (out : Memory UInt8)

/-- The handler gets as far as the comparison, whatever the output buffer. -/
theorem wrongPin_shows (outCap : Nat) (hwrong : WrongPin card (apduParse raw len)) :
    Shows (pivProcessApdu k amb card raw len out outCap)
      ⟨{ card with piv := { card.piv with pinVerified := false } }, [], swSecurityNotSatisfied,
        none⟩ := by
  obtain ⟨hselected, c, hparse, ⟨hcla, hins, hp1, hp2, hhas, hlc⟩, hpin⟩ := hwrong
  have hverify : pivProcessApdu k amb card raw len out outCap = handleVerify card c out outCap := by
    simp [pivProcessApdu, handleSelected, hparse, hcla, hins, hselected]
  have hrejected : handleVerify card c out outCap =
      finish { card with piv := { card.piv with pinVerified := false } } (apduRespInit out outCap)
        swSecurityNotSatisfied := by
    simp [handleVerify, hp1, hp2, hhas, hlc, hpin]
  rw [hverify, hrejected]
  exact shows_finish _ _ _

/-- Every call keeps the frame. -/
theorem applet_framed :
    Framed (apduParse raw len) card
      (pivProcessApdu k amb card raw len out (ccidBufSize - ccidHeaderLen)).card
      (pivProcessApdu k amb card raw len out (ccidBufSize - ccidHeaderLen)).answer := by
  obtain ⟨r, heffect, hshows⟩ := pivProcessApdu_effect k amb card raw len
    (show 258 ≤ ccidBufSize - ccidHeaderLen by decide)
  have hword := heffect.statusWord_bytes
  have hwrong : WrongPin card (apduParse raw len) → r.sw = swSecurityNotSatisfied ∧
      r.card.piv = { card.piv with pinVerified := false } := by
    intro hpin
    have hrejected := wrongPin_shows k amb card raw len out (ccidBufSize - ccidHeaderLen) hpin
    have hcard := (hshows out).card.symm.trans hrejected.card
    have hbytes := (hshows out).answer.symm.trans hrejected.answer
    rw [hbytes, Reply.bytes, statusWord_append _
      (show swSecurityNotSatisfied < 0x10000 by decide)] at hword
    exact ⟨hword.symm, by rw [hcard]⟩
  rw [(hshows out).card, (hshows out).answer]
  constructor
  · rw [hword]
    exact selected_frame heffect
  · exact pinVerified_frame heffect
  · intro hcmd
    obtain ⟨hflag, hpin⟩ := verify_frame heffect hcmd
    rw [hword]
    exact ⟨hflag, hpin, fun h => (hwrong h).1⟩
  · rw [hword, answerBody_bytes]
    exact chain_frame heffect fun c hc => effectiveLe_pos hc
  · rw [hword]
    exact failed_frame heffect
  · rw [hword]
    exact hwrong
  · exact unselected_frame heffect

end Calls

/-- The flags of a session, as the host keeps account of them. -/
structure Flags where
  selected : Bool
  verified : Bool
  deriving DecidableEq

def flags (piv : Piv) : Flags := { selected := piv.selected, verified := piv.pinVerified }

/-- What the host notes of an exchange. -/
def Flags.after (f : Flags) (x : Exchange) : Flags :=
  { selected := f.selected || decide (Instructs insSelect x.cmd ∧ statusWord x.answer = swOk)
    verified :=
      if Instructs insVerify x.cmd then verifiedAfter (statusWord x.answer) f.verified
      else f.verified }

theorem flags_step {k : Backend} {amb : Ambient} {card : Card} {cmd : Option ApduCmd} {r : Reply}
    (h : Effect k amb card cmd r) : flags r.card.piv = (flags card.piv).after ⟨cmd, r.bytes⟩ := by
  have hword := h.statusWord_bytes
  have hselected : r.card.piv.selected =
      (card.piv.selected || decide (Instructs insSelect cmd ∧ r.sw = swOk)) := by
    by_cases hdone : Instructs insSelect cmd ∧ r.sw = swOk
    · rw [select_done h hdone.1 hdone.2, decide_eq_true hdone, Bool.or_true]
    · rw [decide_eq_false hdone, Bool.or_false]
      by_contra hchange
      exact hdone (selected_frame h hchange).2.2
  have hverified : r.card.piv.pinVerified =
      if Instructs insVerify cmd then verifiedAfter r.sw card.piv.pinVerified
      else card.piv.pinVerified := by
    split
    · rename_i hcmd
      exact (verify_frame h hcmd).1
    · rename_i hcmd
      by_contra hchange
      exact hcmd (pinVerified_frame h hchange)
  simp only [flags, Flags.after, hword, hselected, hverified]

/-- The flags at the end of a run are the ones the host has noted. -/
theorem flags_run (k : Backend) (piv : Piv) (is : List Input) :
    flags (exec (apduStep k) piv is) =
      (trace (apduStep k) piv is).foldl Flags.after (flags piv) := by
  apply history_invariant (J := fun h piv' => flags piv' = h.foldl Flags.after (flags piv))
  · intro h piv' i hnoted
    obtain ⟨r, heffect, hstep⟩ := apduStep_effect k piv' i
    rw [hstep, List.foldl_append, ← hnoted]
    exact flags_step heffect
  · rfl

end AppletFrame
