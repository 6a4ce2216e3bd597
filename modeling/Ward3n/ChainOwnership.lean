import Ward3n.ChainedResponses

/-!
# Whose bytes GET RESPONSE returns

The history of a session says what the last successful GET DATA left to be
fetched. The chain buffer says what GET RESPONSE will return. The two agree as
long as no GET DATA that needs no chain is answered over an open one: that path
returns its object and leaves the chain of the earlier object as it was.
-/

namespace ChainOwnership

open CellMemory ApduCodec CryptoBackend DeviceState PivApplet CcidDriver TracedRuns AppletEffects
  PartedDelivery ChainedResponses

/-- The status word of a command that was carried out, in full or in part. -/
def Succeeds (sw : Nat) : Prop := sw = swOk ∨ sw / 256 = 0x61

instance (sw : Nat) : Decidable (Succeeds sw) := by
  unfold Succeeds
  infer_instance

/-- What an exchange leaves of the object that was requested last. -/
def leftover (k : Backend) (rest : List UInt8) (x : Exchange) : List UInt8 :=
  match x.cmd with
  | none => rest
  | some c =>
    if Instructs insGetResponse x.cmd then rest.drop (answerBody x.answer).length
    else if Instructs insGetData x.cmd ∧ Succeeds (statusWord x.answer) then
      match requestedObject k c with
      | .error _ => rest
      | .ok obj => obj.drop (answerBody x.answer).length
    else rest

/-- What the last successful GET DATA of a history requested and did not get yet. -/
def outstanding (k : Backend) (h : List Exchange) : List UInt8 := h.foldl (leftover k) []

/-- A GET RESPONSE continues the object that was requested last, and is refused when
nothing is left of it. -/
def Continues (k : Backend) (past : List Exchange) (x : Exchange) : Prop :=
  Instructs insGetResponse x.cmd →
    answerBody x.answer <+: outstanding k past ∧
      (outstanding k past = [] →
        answerBody x.answer = [] ∧ statusWord x.answer = swConditionsNotSatisfied)

def NeverStale (k : Backend) (h : List Exchange) : Prop := AtEach (Continues k) h

/-- A GET DATA whose object fits its Le arrives while a chain is open. -/
def Orphans (k : Backend) (piv : Piv) (i : Input) : Prop :=
  piv.chainOffset < piv.chainLen ∧
    ∃ c obj, i.cmd = some c ∧ Dispatched (i.card piv) c 0xCB ∧ requestedObject k c = .ok obj ∧
      obj.length ≤ effectiveLe c

section Steps

variable {k : Backend} {amb : Ambient} {card : Card} {piv : Piv} {i : Input} {r : Reply}

theorem outstanding_snoc (k : Backend) (h : List Exchange) (x : Exchange) :
    outstanding k (h ++ [x]) = leftover k (outstanding k h) x := by
  simp [outstanding]

theorem leftover_getResponse {rest : List UInt8} {cmd : Option ApduCmd}
    (h : Instructs insGetResponse cmd) (r : Reply) :
    leftover k rest ⟨cmd, r.bytes⟩ = rest.drop r.body.length := by
  obtain ⟨c, rfl, hc⟩ := h
  simp only [leftover, if_pos (show Instructs insGetResponse (some c) from ⟨c, rfl, hc⟩),
    answerBody_bytes]

theorem leftover_kept {rest : List UInt8} {cmd : Option ApduCmd} {answer : List UInt8}
    (hresponse : ¬ Instructs insGetResponse cmd)
    (hdata : ¬ (Instructs insGetData cmd ∧ Succeeds (statusWord answer))) :
    leftover k rest ⟨cmd, answer⟩ = rest := by
  cases cmd with
  | none => rfl
  | some c => simp only [leftover, if_neg hresponse, if_neg hdata]

theorem leftover_getData {rest obj : List UInt8} {cmd : ApduCmd} {answer : List UInt8}
    (hdata : Instructs insGetData (some cmd)) (hsucceeds : Succeeds (statusWord answer))
    (hrequest : requestedObject k cmd = .ok obj) :
    leftover k rest ⟨some cmd, answer⟩ = obj.drop (answerBody answer).length := by
  have hresponse : ¬ Instructs insGetResponse (some cmd) := by
    obtain ⟨c, hc, _, hins⟩ := hdata
    cases hc
    rintro ⟨c', hc', _, hins'⟩
    cases hc'
    exact absurd (hins.symm.trans hins') (by decide)
  simp only [leftover, if_neg hresponse, if_pos (And.intro hdata hsucceeds), hrequest]

theorem drop_taken (rest : List UInt8) (n : Nat) :
    rest.drop (rest.take n).length = rest.drop n := by
  rw [List.length_take]
  rcases Nat.le_total n rest.length with hle | hle
  · rw [Nat.min_eq_left hle]
  · rw [Nat.min_eq_right hle, List.drop_of_length_le (Nat.le_refl _), List.drop_of_length_le hle]

/-- GET RESPONSE takes the front of what is pending, and nothing at all unless selected. -/
theorem getResponse_takes {cmd : Option ApduCmd} (h : Effect k amb card cmd r)
    (hresponse : Instructs insGetResponse cmd) :
    r.body <+: pending card.piv ∧
      pending r.card.piv = (pending card.piv).drop r.body.length ∧
      (pending card.piv = [] → r.body = [] ∧ r.sw = swConditionsNotSatisfied) := by
  obtain ⟨c, rfl, hcla, hins⟩ := hresponse
  cases hselected : card.piv.selected with
  | true =>
    obtain ⟨hpart, hpending⟩ := getResponse_part h ⟨hselected, hcla, hins⟩
    have hbody : r.body = (pending card.piv).take (effectiveLe c) := congrArg Part.body hpart
    refine ⟨?_, by rw [hpending, hbody, drop_taken], fun hnil => ?_⟩
    · rw [hbody]
      exact List.take_prefix _ _
    · rw [hnil, nextPart_nil] at hpart
      exact ⟨congrArg Part.body hpart, congrArg Part.mark hpart⟩
  | false =>
    rw [h.notSelected hselected hcla (by rw [hins]; decide)]
    exact ⟨List.nil_prefix, rfl, fun _ => ⟨rfl, rfl⟩⟩

/-- When the chain holds what the history says is outstanding, a GET RESPONSE continues it. -/
theorem continues_step {h : List Exchange} {cmd : Option ApduCmd}
    (hchain : outstanding k h = pending card.piv) (heffect : Effect k amb card cmd r) :
    Continues k h ⟨cmd, r.bytes⟩ := by
  intro hresponse
  obtain ⟨hfront, _, hrefused⟩ := getResponse_takes heffect hresponse
  rw [hchain, answerBody_bytes, heffect.statusWord_bytes]
  exact ⟨hfront, hrefused⟩

/-- The three outcomes of GET DATA, seen from the history: its word tells whether it was
carried out. -/
theorem getData_outstanding {rest : List UInt8} {c : ApduCmd} (h : Effect k amb card (some c) r)
    (hcmd : Dispatched card c 0xCB) :
    (∃ sw, requestedObject k c = .error sw ∧
      leftover k rest ⟨some c, r.bytes⟩ = rest ∧ r.card = card) ∨
    (∃ obj, requestedObject k c = .ok obj ∧ obj.length ≤ effectiveLe c ∧
      leftover k rest ⟨some c, r.bytes⟩ = [] ∧ r.card = card) ∨
    (∃ obj, requestedObject k c = .ok obj ∧ effectiveLe c < obj.length ∧
      leftover k rest ⟨some c, r.bytes⟩ = pending r.card.piv) := by
  have hdata : Instructs insGetData (some c) := ⟨c, rfl, hcmd.2⟩
  have hresponse : ¬ Instructs insGetResponse (some c) := by
    rintro ⟨c', hc, _, hins⟩
    cases hc
    exact absurd (hcmd.2.2.symm.trans hins) (by decide)
  have hsw := h.statusWord_bytes
  cases hrequest : requestedObject k c with
  | error sw =>
    rcases h.getData_cases hcmd with ⟨sw', herror, rfl⟩ | ⟨obj, hobj, _⟩ | ⟨obj, hobj, _⟩
    · have hfails : ¬ Succeeds sw' := by
        have hword := (Refused.getData hcmd herror).word
        exact fun hsucceeds => hsucceeds.elim hword.2.1 hword.2.2
      refine Or.inl ⟨sw, rfl, leftover_kept hresponse fun hno => hfails ?_, rfl⟩
      rw [hsw] at hno
      exact hno.2
    · rw [hrequest] at hobj
      cases hobj
    · rw [hrequest] at hobj
      cases hobj
  | ok obj =>
    rcases getData_part h hcmd hrequest with ⟨hfits, hbody, hok, hcard⟩ |
      ⟨hlong, hbody, hmore, hpending, _⟩
    · have hsucceeds : Succeeds (statusWord r.bytes) := by
        rw [hsw, hok]
        exact Or.inl rfl
      refine Or.inr (Or.inl ⟨obj, rfl, hfits, ?_, hcard⟩)
      rw [leftover_getData hdata hsucceeds hrequest, answerBody_bytes, hbody,
        List.drop_of_length_le (Nat.le_refl _)]
    · have hsucceeds : Succeeds (statusWord r.bytes) := by
        rw [hsw, hmore]
        refine Or.inr ?_
        simp only [chainMarks]
        omega
      refine Or.inr (Or.inr ⟨obj, rfl, hlong, ?_⟩)
      rw [leftover_getData hdata hsucceeds hrequest, answerBody_bytes, hbody, hpending,
        List.length_take, Nat.min_eq_left (Nat.le_of_lt hlong)]

/-- A command that orphans no chain leaves the chain and the history in agreement. -/
theorem outstanding_step {h : List Exchange}
    (hchain : outstanding k h = pending piv) (heffect : Effect k i.amb (i.card piv) i.cmd r)
    (horphans : ¬ Orphans k piv i) :
    outstanding k (h ++ [⟨i.cmd, r.bytes⟩]) = pending r.card.piv := by
  rw [outstanding_snoc, hchain]
  by_cases hresponse : Instructs insGetResponse i.cmd
  · rw [leftover_getResponse hresponse, (getResponse_takes heffect hresponse).2.1]
    rfl
  by_cases hdata : ∃ c, i.cmd = some c ∧ Dispatched (i.card piv) c 0xCB
  · obtain ⟨c, hc, hcmd⟩ := hdata
    rw [hc] at heffect ⊢
    rcases getData_outstanding heffect hcmd with ⟨_, _, hkept, hcard⟩ |
      ⟨obj, hrequest, hfits, hnone, hcard⟩ | ⟨_, _, _, hopened⟩
    · rw [hkept, hcard]
      rfl
    · have hclosed : pending piv = [] := by
        refine pending_eq_nil_iff.mpr (Nat.not_lt.mp fun hopen => ?_)
        exact horphans ⟨hopen, c, obj, hc, hcmd, hrequest, hfits⟩
      rw [hnone, hcard]
      exact hclosed.symm
    · exact hopened
  · have hno : ∀ c, i.cmd = some c →
        ¬ Dispatched (i.card piv) c 0xCB ∧ ¬ Dispatched (i.card piv) c 0xC0 :=
      fun c hc => ⟨fun h => hdata ⟨c, hc, h⟩, fun h => hresponse ⟨c, hc, h.2⟩⟩
    obtain ⟨selected, verified, hpiv⟩ := chain_kept heffect hno
    have hkept : leftover k (pending piv) ⟨i.cmd, r.bytes⟩ = pending piv := by
      refine leftover_kept hresponse ?_
      rintro ⟨⟨c, hc, hcla, hins⟩, hsucceeds⟩
      rw [hc] at heffect
      have hselected : (i.card piv).piv.selected = false := by
        cases hselected : (i.card piv).piv.selected with
        | false => rfl
        | true => exact absurd ⟨c, hc, hselected, hcla, hins⟩ hdata
      rw [heffect.statusWord_bytes, heffect.notSelected hselected hcla (by rw [hins]; decide)]
        at hsucceeds
      exact absurd hsucceeds (by decide : ¬ Succeeds swConditionsNotSatisfied)
    rw [hkept, hpiv]
    rfl

end Steps

/-- In every run in which no chain is orphaned, each GET RESPONSE continues the object that
was requested last. -/
theorem never_stale (k : Backend) (start : Piv) (is : List Input)
    (hwhole : AllSteps (apduStep k) (fun piv i => ¬ Orphans k piv i) (pivInit start) is) :
    NeverStale k (trace (apduStep k) (pivInit start) is) := by
  have hrun := guarded_history (h := [])
    (J := fun h (piv : Piv) => NeverStale k h ∧ outstanding k h = pending piv)
    (fun h piv i horphans hj => by
      obtain ⟨r, heffect, hstep⟩ := apduStep_effect k piv i
      rw [hstep]
      refine ⟨atEach_append.mpr ⟨hj.1, ?_⟩, outstanding_step hj.2 heffect horphans⟩
      rw [atEach_cons, List.append_nil]
      exact ⟨continues_step hj.2 heffect, atEach_nil _⟩)
    ⟨atEach_nil _, rfl⟩ hwhole
  exact hrun.1

/-- After an orphaned chain the next GET RESPONSE returns bytes of it. -/
theorem orphan_returned (k : Backend) (start : Piv) (is : List Input) (i j : Input)
    (horphans : Orphans k (exec (apduStep k) (pivInit start) is) i)
    (hj : Instructs insGetResponse j.cmd) :
    ¬ NeverStale k (trace (apduStep k) (pivInit start) (is ++ [i, j])) := by
  intro hnever
  obtain ⟨r, heffect, hstep⟩ := apduStep_effect k (exec (apduStep k) (pivInit start) is) i
  obtain ⟨r', heffect', hstep'⟩ := apduStep_effect k r.card.piv j
  rw [trace_append, trace, trace, hstep, NeverStale, atEach_append] at hnever
  generalize trace (apduStep k) (pivInit start) is = h at hnever
  generalize exec (apduStep k) (pivInit start) is = piv at heffect horphans
  simp only [hstep', trace_nil, List.append_nil, List.cons_append, List.nil_append, atEach_cons,
    atEach_nil, and_true] at hnever
  obtain ⟨hopen, c, obj, hc, hcmd, hrequest, hfits⟩ := horphans
  have hselected := hcmd.1
  rw [hc] at heffect hnever
  have hnone : outstanding k (h ++ [⟨some c, r.bytes⟩]) = [] ∧ r.card = i.card piv := by
    rw [outstanding_snoc]
    rcases getData_outstanding heffect hcmd with ⟨_, herror, _⟩ | ⟨_, _, _, hnone⟩ |
      ⟨obj', hrequest', hlong, _⟩
    · rw [hrequest] at herror
      cases herror
    · exact hnone
    · rw [hrequest] at hrequest'
      cases hrequest'
      exact absurd hfits (Nat.not_le.mpr hlong)
  have hbody : r'.body = [] := by
    have hrefused := (hnever.2.2 hj).2 hnone.1
    rw [answerBody_bytes] at hrefused
    exact hrefused.1
  rw [hnone.2] at heffect'
  obtain ⟨c', hc', hcla, hins⟩ := hj
  rw [hc'] at heffect'
  obtain ⟨hpart, _⟩ := getResponse_part heffect' ⟨hselected, hcla, hins⟩
  have htaken : (pending piv).take (effectiveLe c') = [] := by
    rw [← hbody]
    exact (congrArg Part.body hpart).symm
  have hpos := effectiveLe_pos hc'
  have hlen := congrArg List.length htaken
  rw [List.length_take, pending_length, List.length_nil] at hlen
  omega

/-- The certificate is read in part, and then the CHUID in full. -/
def abandonedRun : List Input := [selectInput, getDataInput pivTagCert9A]

/-- GET RESPONSE then returns the rest of the certificate. -/
theorem certificate_returned_for_chuid :
    ¬ NeverStale certificateBackend (trace (apduStep certificateBackend) (pivInit pivAtReset)
      (abandonedRun ++ [getDataInput pivTagChuid, getResponseInput 0x00])) :=
  orphan_returned certificateBackend pivAtReset abandonedRun
    (getDataInput pivTagChuid) (getResponseInput 0x00)
    ⟨by decide +kernel, _, chuidData, rfl, ⟨by decide +kernel, by decide, by decide⟩, rfl,
      by decide⟩ (by decide)

/-- The certificate read to its end, and then the CHUID. -/
theorem never_stale_sample :
    NeverStale certificateBackend (trace (apduStep certificateBackend) (pivInit pivAtReset)
      (abandonedRun ++
        [getResponseInput 0x00, getDataInput pivTagChuid, getResponseInput 0x00])) :=
  never_stale certificateBackend pivAtReset _
    ⟨by rintro ⟨hopen, _⟩; exact absurd hopen (by decide),
      by rintro ⟨hopen, _⟩; exact absurd hopen (by decide),
      by rintro ⟨_, c, obj, hc, hcmd, _⟩; cases hc; exact absurd hcmd.2.2 (by decide),
      by rintro ⟨hopen, _⟩; exact absurd hopen (by decide +kernel),
      by rintro ⟨hopen, _⟩; exact absurd hopen (by decide +kernel), trivial⟩

end ChainOwnership
