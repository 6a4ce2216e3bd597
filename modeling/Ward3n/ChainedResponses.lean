import Ward3n.AppletEffects
import Ward3n.CcidDriver
import Ward3n.PartedDelivery
import Ward3n.TracedRuns

/-!
# Objects longer than one response

GET DATA answers with the front of an object that is longer than its Le, and
keeps all of it in the chain buffer for the GET RESPONSE commands that follow.
Seen from the host, a session hands out what is pending in pieces: the run of
the applet is compared with that delivery, command by command.
-/

namespace ChainedResponses

open CellMemory ApduCodec CryptoBackend DeviceState PivApplet CcidDriver TracedRuns AppletEffects
  PartedDelivery

/-- A call of `piv_process_apdu`: the input, the authorization it meets, what the environment
answers, and the buffer of the caller. Presses and ticks fall between the calls. -/
structure Input where
  raw : Memory UInt8
  len : Nat
  dev : Device
  amb : Ambient
  out : Memory UInt8

def Input.cmd (i : Input) : Option ApduCmd := apduParse i.raw i.len

/-- The card as the call finds it. -/
def Input.card (i : Input) (piv : Piv) : Card := { piv := piv, dev := i.dev }

@[simp] theorem Input.card_piv (i : Input) (piv : Piv) : (i.card piv).piv = piv := rfl

/-- One call, with the room the driver gives for the answer. -/
def apduStep (k : Backend) (piv : Piv) (i : Input) : Piv × List Exchange :=
  let h := pivProcessApdu k i.amb (i.card piv) i.raw i.len i.out (ccidBufSize - ccidHeaderLen)
  (h.card.piv, [{ cmd := i.cmd, answer := h.answer }])

/-- The command has this instruction, in the only class the applet takes. -/
def Instructs (ins : UInt8) (cmd : Option ApduCmd) : Prop :=
  ∃ c, cmd = some c ∧ c.cla = 0x00 ∧ c.ins = ins

instance (ins : UInt8) : (cmd : Option ApduCmd) → Decidable (Instructs ins cmd)
  | none => isFalse (by rintro ⟨c, hc, _⟩; cases hc)
  | some c => decidable_of_iff (c.cla = 0x00 ∧ c.ins = ins)
      ⟨fun h => ⟨c, rfl, h⟩, by rintro ⟨_, hc, h⟩; cases hc; exact h⟩

def insGetData : UInt8 := 0xCB
def insGetResponse : UInt8 := 0xC0

/-- The words of a chained response. -/
def chainMarks : Marks Nat where
  more left := 0x6100 + min left 0xFF
  complete := swOk
  exhausted := swConditionsNotSatisfied
  more_ne := by
    intro left
    unfold swOk
    omega
  exhausted_ne := by decide

/-- The answer of a GET DATA or GET RESPONSE, taken apart. -/
def asPart (x : Exchange) : Option (Part UInt8 Nat) :=
  if Instructs insGetData x.cmd ∨ Instructs insGetResponse x.cmd then
    some { body := answerBody x.answer, mark := statusWord x.answer }
  else none

/-- The parts of objects handed out in a run, in order. -/
def parts (h : List Exchange) : List (Part UInt8 Nat) := h.filterMap asPart

/-- What is left in the chain buffer. -/
def pending (piv : Piv) : List UInt8 :=
  read (advance piv.chainBuf piv.chainOffset) (piv.chainLen - piv.chainOffset)

/-- The chain stays inside its buffer. -/
structure Bounded (piv : Piv) : Prop where
  offset : piv.chainOffset ≤ piv.chainLen
  total : piv.chainLen ≤ 4096

section Steps

variable {k : Backend} {amb : Ambient} {card : Card} {cmd : Option ApduCmd} {c : ApduCmd}
  {r : Reply}

theorem apduStep_effect (k : Backend) (piv : Piv) (i : Input) :
    ∃ r, Effect k i.amb (i.card piv) i.cmd r ∧
      apduStep k piv i = (r.card.piv, [⟨i.cmd, r.bytes⟩]) := by
  obtain ⟨r, heffect, hshows⟩ := pivProcessApdu_effect k i.amb (i.card piv) i.raw i.len
    (show 258 ≤ ccidBufSize - ccidHeaderLen by decide)
  exact ⟨r, heffect, by simp only [apduStep, (hshows i.out).card, (hshows i.out).answer]⟩

@[simp] theorem pending_length (piv : Piv) :
    (pending piv).length = piv.chainLen - piv.chainOffset := read_length _ _

theorem pending_eq_nil_iff {piv : Piv} : pending piv = [] ↔ piv.chainLen ≤ piv.chainOffset := by
  rw [← List.length_eq_zero_iff, pending_length]
  omega

/-- The chain that GET DATA opens is the object, of which `n` bytes went out. -/
theorem pending_opened (piv : Piv) (obj : List UInt8) {n : Nat} (hn : n ≤ obj.length) :
    pending { piv with
        chainBuf := write piv.chainBuf 0 obj, chainLen := obj.length, chainOffset := n } =
      obj.drop n := by
  obtain ⟨left, hleft⟩ := Nat.exists_eq_add_of_le hn
  have hwhole : read (write piv.chainBuf 0 obj) (n + left) = obj := by
    rw [← hleft, read_write_zero]
  have hdrop := read_drop (write piv.chainBuf 0 obj) n left
  rw [hwhole] at hdrop
  rw [hdrop, pending]
  simp only [hleft, Nat.add_sub_cancel_left]

theorem chainPart_read (piv : Piv) (c : ApduCmd) :
    read (advance piv.chainBuf piv.chainOffset) (chainPart piv c) =
      (pending piv).take (effectiveLe c) := by
  simp only [chainPart, pending]
  split
  · rename_i hfits
    exact (List.take_of_length_le (by rwa [read_length])).symm
  · rename_i hlong
    exact (read_take _ (by omega)).symm

theorem pending_continued (piv : Piv) (c : ApduCmd) :
    pending { piv with chainOffset := piv.chainOffset + chainPart piv c } =
      (pending piv).drop (effectiveLe c) := by
  by_cases hfits : piv.chainLen - piv.chainOffset ≤ effectiveLe c
  · rw [List.drop_of_length_le (by rwa [pending_length]), pending_eq_nil_iff]
    simp only [chainPart, if_pos hfits]
    omega
  · obtain ⟨left, hleft⟩ := Nat.exists_eq_add_of_le (Nat.le_of_not_le hfits)
    have hdrop := read_drop (advance piv.chainBuf piv.chainOffset) (effectiveLe c) left
    rw [← hleft, advance_advance] at hdrop
    have hcount : piv.chainLen - (piv.chainOffset + effectiveLe c) = left := by omega
    simp only [pending, chainPart, if_neg hfits, hcount, hdrop]

/-- GET RESPONSE hands out the next part of what is pending. -/
theorem getResponse_part (h : Effect k amb card (some c) r) (hcmd : Dispatched card c 0xC0) :
    (⟨r.body, r.sw⟩ : Part UInt8 Nat) =
        nextPart chainMarks (pending card.piv) (effectiveLe c) ∧
      pending r.card.piv = (pending card.piv).drop (effectiveLe c) := by
  rcases h.getResponse_cases hcmd with ⟨hdone, rfl⟩ | ⟨hopen, rfl⟩
  · simp only [pending_eq_nil_iff.mpr hdone, nextPart_nil, List.drop_nil, and_true]
    rfl
  · refine ⟨?_, pending_continued card.piv c⟩
    have hsome : pending card.piv ≠ [] := fun hnil =>
      absurd (pending_eq_nil_iff.mp hnil) (Nat.not_le.mpr hopen)
    have hlen := pending_length card.piv
    rw [chainPart_read]
    by_cases hfits : card.piv.chainLen - card.piv.chainOffset ≤ effectiveLe c
    · rw [nextPart_fits hsome (by omega), List.take_of_length_le (by omega), partStatus, chainPart,
        if_pos hfits, if_pos (by omega)]
      rfl
    · rw [nextPart_long (by omega), partStatus, chainPart, if_neg hfits, if_neg (by omega),
        swRemaining_eq, hlen, Nat.sub_sub]
      rfl

/-- GET DATA hands out the first part of its object. The rest of it is pending, if there is
a rest; what was pending before is left alone if there is none. -/
theorem getData_part {obj : List UInt8} (h : Effect k amb card (some c) r)
    (hcmd : Dispatched card c 0xCB) (hrequest : requestedObject k c = .ok obj) :
    (obj.length ≤ effectiveLe c ∧ r.body = obj ∧ r.sw = swOk ∧ r.card = card) ∨
    (effectiveLe c < obj.length ∧ r.body = obj.take (effectiveLe c) ∧
      r.sw = chainMarks.more (obj.length - effectiveLe c) ∧
      pending r.card.piv = obj.drop (effectiveLe c) ∧
      r.card.piv.selected = card.piv.selected) := by
  rcases h.getData_cases hcmd with ⟨sw, herror, _⟩ | ⟨obj', hrequest', hfits, rfl⟩ |
    ⟨obj', hrequest', hlong, rfl⟩
  · rw [hrequest] at herror
    cases herror
  · rw [hrequest] at hrequest'
    cases hrequest'
    exact Or.inl ⟨hfits, rfl, rfl, rfl⟩
  · rw [hrequest] at hrequest'
    cases hrequest'
    exact Or.inr ⟨hlong, rfl, swRemaining_eq _, pending_opened card.piv obj (Nat.le_of_lt hlong),
      rfl⟩

/-- Nothing else touches the chain. -/
theorem chain_kept (h : Effect k amb card cmd r)
    (hno : ∀ c, cmd = some c → ¬ Dispatched card c 0xCB ∧ ¬ Dispatched card c 0xC0) :
    ∃ selected verified,
      r.card.piv = { card.piv with selected := selected, pinVerified := verified } := by
  cases h with
  | chained hcmd => exact absurd hcmd (hno _ rfl).1
  | continued hcmd => exact absurd hcmd (hno _ rfl).2
  | selected | pinAccepted | pinRejected | refused | delivered | requested | signFailed
  | signed => exact ⟨_, _, rfl⟩

theorem selected_kept (h : Effect k amb card cmd r) (hselected : card.piv.selected = true) :
    r.card.piv.selected = true := by
  cases h with
  | selected => rfl
  | refused | pinAccepted | pinRejected | delivered | chained | continued | requested
  | signFailed | signed => exact hselected

theorem berLenWrite_length_le (n : Nat) : (berLenWrite n).length ≤ 3 := by
  simp only [berLenWrite]
  repeat' split
  all_goals simp

theorem certObject_length_le (der : List UInt8) :
    (certObject der).length ≤ der.length + 13 := by
  have hbound := berLenWrite_length_le
  simp only [certObject, List.length_append, List.length_cons, List.length_nil]
  have hinner := hbound der.length
  split <;> split <;> (have houter := hbound; grind)

/-- No object is longer than the chain buffer. -/
theorem requestedObject_length_le {obj : List UInt8} (h : requestedObject k c = .ok obj) :
    obj.length ≤ 4096 := by
  simp only [requestedObject] at h
  repeat' split at h
  all_goals cases h
  rename_i hobj
  simp only [dataObject] at hobj
  repeat' split at hobj
  all_goals cases hobj
  · exact (by decide : cccData.length ≤ 4096)
  · exact (by decide : chuidData.length ≤ 4096)
  · have hder := cryptoGetCertDer_length_le k keyRef9A 3994
    have hlen := certObject_length_le (cryptoGetCertDer k keyRef9A 3994)
    omega
  · exact (by decide : disc.length ≤ 4096)

theorem bounded_effect (h : Effect k amb card cmd r) (hbounded : Bounded card.piv) :
    Bounded r.card.piv := by
  cases h with
  | chained _ hrequest hlong => exact ⟨Nat.le_of_lt hlong, requestedObject_length_le hrequest⟩
  | continued =>
    refine ⟨?_, hbounded.total⟩
    have hoffset := hbounded.offset
    simp only [chainPart]
    split <;> omega
  | refused | selected | pinAccepted | pinRejected | delivered | requested | signFailed
  | signed => exact ⟨hbounded.offset, hbounded.total⟩

end Steps

section Runs

variable {k : Backend}

/-- The Le of a GET RESPONSE. -/
def requestedLe (i : Input) : Option Nat :=
  if Instructs insGetResponse i.cmd then i.cmd.map effectiveLe else none

def requests (is : List Input) : List Nat := is.filterMap requestedLe

theorem requests_pos {is : List Input} : ∀ n ∈ requests is, 0 < n := by
  intro n hn
  obtain ⟨i, _, hle⟩ := List.mem_filterMap.mp hn
  simp only [requestedLe] at hle
  split at hle
  · obtain ⟨c, hc, rfl⟩ := Option.map_eq_some_iff.mp hle
    exact effectiveLe_pos hc
  · cases hle

theorem asPart_bytes {amb : Ambient} {card : Card} {cmd : Option ApduCmd} {r : Reply}
    (h : Effect k amb card cmd r)
    (hcmd : Instructs insGetData cmd ∨ Instructs insGetResponse cmd) :
    asPart ⟨cmd, r.bytes⟩ = some ⟨r.body, r.sw⟩ := by
  rw [asPart, if_pos hcmd, h.statusWord_bytes, answerBody_bytes]

theorem bounded_run (k : Backend) (start : Piv) (is : List Input) :
    Bounded (exec (apduStep k) (pivInit start) is) := by
  refine state_invariant ?_ ⟨Nat.le_refl 0, Nat.zero_le 4096⟩ is
  intro piv i hbounded
  obtain ⟨r, heffect, hstep⟩ := apduStep_effect k piv i
  rw [hstep]
  exact bounded_effect heffect hbounded

theorem parts_trace_cons {piv piv' : Piv} {i : Input} {x : Exchange}
    (hstep : apduStep k piv i = (piv', [x])) (is : List Input) :
    parts (trace (apduStep k) piv (i :: is)) =
      (asPart x).toList ++ parts (trace (apduStep k) piv' is) := by
  rw [trace, hstep, parts, List.filterMap_append, parts]
  cases hpart : asPart x with
  | none => rw [List.filterMap_cons_none hpart]; rfl
  | some p => rw [List.filterMap_cons_some hpart]; rfl

/-- Without a new GET DATA, a session delivers what is pending, whatever comes in between. -/
theorem parts_deliver (k : Backend) (piv : Piv) (hselected : piv.selected = true)
    {is : List Input} (hdata : ∀ i ∈ is, ¬ Instructs insGetData i.cmd) :
    parts (trace (apduStep k) piv is) = deliver chainMarks (pending piv) (requests is) := by
  induction is generalizing piv with
  | nil => rfl
  | cons i is ih =>
    have hfirst := hdata i List.mem_cons_self
    have hlater : ∀ j ∈ is, ¬ Instructs insGetData j.cmd :=
      fun j hj => hdata j (List.mem_cons_of_mem i hj)
    obtain ⟨r, heffect, hstep⟩ := apduStep_effect k piv i
    have hrest := ih r.card.piv (selected_kept heffect hselected) hlater
    rw [parts_trace_cons hstep, hrest]
    by_cases hresponse : Instructs insGetResponse i.cmd
    · obtain ⟨c, hc, hcla, hins⟩ := hresponse
      have hresponse : Instructs insGetResponse i.cmd := ⟨c, hc, hcla, hins⟩
      have hpart := asPart_bytes heffect (Or.inr hresponse)
      have hle : requestedLe i = some (effectiveLe c) := by
        rw [requestedLe, if_pos hresponse, hc, Option.map_some]
      rw [hc] at heffect
      obtain ⟨hnext, hpending⟩ := getResponse_part heffect ⟨hselected, hcla, hins⟩
      rw [Input.card_piv] at hnext hpending
      have hrequests : requests (i :: is) = effectiveLe c :: requests is :=
        List.filterMap_cons_some hle
      rw [hrequests, deliver, ← hnext, ← hpending, hpart]
      rfl
    · have hother : asPart ⟨i.cmd, r.bytes⟩ = none := by
        rw [asPart, if_neg (not_or.mpr ⟨hfirst, hresponse⟩)]
      have hle : requestedLe i = none := by rw [requestedLe, if_neg hresponse]
      have hno : ∀ c, i.cmd = some c →
          ¬ Dispatched (i.card piv) c 0xCB ∧ ¬ Dispatched (i.card piv) c 0xC0 :=
        fun c hc => ⟨fun h => hfirst ⟨c, hc, h.2⟩, fun h => hresponse ⟨c, hc, h.2⟩⟩
      obtain ⟨selected, verified, hpiv⟩ := chain_kept heffect hno
      have hrequests : requests (i :: is) = requests is := List.filterMap_cons_none hle
      rw [hrequests, hother, hpiv]
      rfl

/-- GET DATA for the tag of the certificate, as the handler recognises it. -/
def RequestsCertificate (cmd : Option ApduCmd) : Prop :=
  ∃ c, cmd = some c ∧ c.cla = 0x00 ∧ c.ins = insGetData ∧ c.p1 = 0x3F ∧ c.p2 = 0xFF ∧
    c.hasLc = true ∧ 3 ≤ c.lc ∧ read c.data 5 = [0x5C, 0x03] ++ pivTagCert9A

theorem requestedObject_certificate (hinit : k.initialized = true)
    (hcert : 0 < k.certLen ∧ k.certLen ≤ 3994) {c : ApduCmd}
    (h : RequestsCertificate (some c)) :
    requestedObject k c = .ok (certObject (read k.certDer k.certLen)) := by
  obtain ⟨c', hc, _, _, hp1, hp2, hhas, hlc, hdata⟩ := h
  cases hc
  have htag : c.data 0 = 0x5C ∧ c.data 1 = 0x03 := by
    have h0 := read_getElem? c.data (n := 5) (i := 0) (by omega)
    have h1 := read_getElem? c.data (n := 5) (i := 1) (by omega)
    rw [hdata] at h0 h1
    exact ⟨(Option.some.inj h0).symm, (Option.some.inj h1).symm⟩
  have hbytes : read (advance c.data 2) 3 = pivTagCert9A := by
    rw [← read_drop, hdata]
    rfl
  have hder : cryptoGetCertDer k keyRef9A 3994 = read k.certDer k.certLen := by
    rw [cryptoGetCertDer, if_neg (by simp [hinit]), if_neg (by omega)]
  have hsome : (read k.certDer k.certLen).length ≠ 0 := by
    rw [read_length]
    omega
  have hobj : dataObject k 3 (advance c.data 2) =
      some (certObject (read k.certDer k.certLen)) := by
    rw [dataObject, if_pos rfl, hbytes, if_neg (by decide), if_neg (by decide), if_pos rfl, hder]
    simp only [if_neg hsome]
  simp only [requestedObject]
  rw [if_neg (by simp [hp1, hp2]), if_neg (by simp [hhas, htag.1]; omega)]
  simp only [htag.2]
  rw [if_neg (by decide), hobj]

/-- The certificate object reaches the host whole, whatever the Le of each command and
whatever else is sent in between; the chain never leaves its buffer. -/
theorem certificate_reassembles (k : Backend) (start : Piv) (prior : List Input) (g : Input)
    (es : List Input) (hinit : k.initialized = true)
    (hcert : 0 < k.certLen ∧ k.certLen ≤ 3994)
    (hselected : (exec (apduStep k) (pivInit start) prior).selected = true)
    (hg : RequestsCertificate g.cmd) (hes : ∀ i ∈ es, ¬ Instructs insGetData i.cmd) :
    Reassembles chainMarks (certObject (read k.certDer k.certLen))
        (parts (trace (apduStep k) (exec (apduStep k) (pivInit start) prior) (g :: es))) ∧
      ∀ p, p <+: prior ++ g :: es → Bounded (exec (apduStep k) (pivInit start) p) := by
  refine ⟨?_, fun p _ => bounded_run k start p⟩
  generalize exec (apduStep k) (pivInit start) prior = piv at hselected
  have hrequest := hg
  obtain ⟨c, hc, hcla, hins, _⟩ := hg
  obtain ⟨r, heffect, hstep⟩ := apduStep_effect k piv g
  have hpart := asPart_bytes heffect (Or.inl ⟨c, hc, hcla, hins⟩)
  have hrest := parts_deliver k r.card.piv (selected_kept heffect hselected) hes
  have hobj := requestedObject_certificate hinit hcert (hc ▸ hrequest)
  rw [hc] at heffect
  have hparts : parts (trace (apduStep k) piv (g :: es)) =
      ⟨r.body, r.sw⟩ :: deliver chainMarks (pending r.card.piv) (requests es) := by
    rw [parts_trace_cons hstep, hrest, hpart]
    rfl
  rw [hparts]
  rcases getData_part heffect ⟨hselected, hcla, hins⟩ hobj with ⟨_, hbody, hsw, _⟩ |
    ⟨hlong, hbody, hsw, hpending, _⟩
  · rw [hbody, hsw]
    exact whole_reassembles _ _
  · have hsome : certObject (read k.certDer k.certLen) ≠ [] := by
      intro hnil
      rw [hnil] at hlong
      exact Nat.not_lt_zero _ hlong
    have hfirst : (⟨r.body, r.sw⟩ : Part UInt8 Nat) =
        nextPart chainMarks (certObject (read k.certDer k.certLen)) (effectiveLe c) := by
      rw [nextPart_long hlong, hbody, hsw]
    have hpos : ∀ n ∈ effectiveLe c :: requests es, 0 < n := by
      intro n hn
      rcases List.mem_cons.mp hn with rfl | hn
      · exact effectiveLe_pos hc
      · exact requests_pos n hn
    rw [hfirst, hpending]
    exact deliver_reassembles hsome hpos

end Runs

def inputOf (bytes : List UInt8) : Input :=
  { raw := write (fun _ => 0) 0 bytes, len := bytes.length, dev := DeviceState.atReset,
    amb := ambientAt 0, out := fun _ => 0 }

/-- A key store with a certificate of 300 bytes. -/
def certificateBackend : Backend :=
  { initialized := true, certLen := 300, certDer := fun _ => 0x30 }

def selectInput : Input := inputOf ([0x00, 0xA4, 0x04, 0x00, 0x0B] ++ pivAid)

/-- GET DATA for a three-byte tag, with Le 00. -/
def getDataInput (tag : List UInt8) : Input :=
  inputOf ([0x00, 0xCB, 0x3F, 0xFF, 0x05, 0x5C, 0x03] ++ tag ++ [0x00])

def getResponseInput (le : UInt8) : Input := inputOf [0x00, 0xC0, 0x00, 0x00, le]

/-- Five parts of a certificate, with a VERIFY in between, and one GET RESPONSE too many. -/
def retrieval : List Input :=
  [getResponseInput 0x10, inputOf ([0x00, 0x20, 0x00, 0x80, 0x08] ++ expectedPin),
    getResponseInput 0x01, getResponseInput 0x20, getResponseInput 0x00, getResponseInput 0x00]

theorem certificate_reassembles_sample :
    Reassembles chainMarks
        (certObject (read certificateBackend.certDer certificateBackend.certLen))
        (parts (trace (apduStep certificateBackend)
          (exec (apduStep certificateBackend) (pivInit pivAtReset) [selectInput])
          (getDataInput pivTagCert9A :: retrieval))) ∧
      ∀ p, p <+: [selectInput] ++ getDataInput pivTagCert9A :: retrieval →
        Bounded (exec (apduStep certificateBackend) (pivInit pivAtReset) p) :=
  certificate_reassembles certificateBackend pivAtReset [selectInput]
    (getDataInput pivTagCert9A) retrieval rfl (by decide) (by decide)
    ⟨_, rfl, by decide⟩ (by decide)

end ChainedResponses
