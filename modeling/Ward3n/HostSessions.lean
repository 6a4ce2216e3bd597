import Ward3n.PatientHost
import Ward3n.SessionIsolation

/-!
# Sessions of a host

Two things a host comes for, from the power-on to the last byte: an object of
the card, fetched part by part, and a signature, which takes two requests and a
press in between. The device may have been through anything before, with any
host, as long as no response of that time is still on its way. The host of the
session is patient, and everything but a bus reset may happen between its
messages: interrupts, polls, ticks and the work of the endpoint. What it has
collected in the end is followed through the reader.
-/

namespace HostSessions

open CellMemory ApduCodec CryptoBackend DeviceState UserButton PivApplet CcidDriver Firmware
  TracedRuns StepSimulation ShortApdus FirmwareSteps PartedDelivery ChainedResponses AppletEffects
  TransmitBuffer ResponseDelivery ReaderSpecification TokenRefinement ReaderRefinement
  BufferConfinement SessionIsolation PatientHost

/-- The requests among what happens. -/
def requests (hs : List Happening) : List Request :=
  hs.filterMap fun
    | .message m _ => some m.request
    | .other .. => none

/-- A response of the reader as the host takes it apart: the payload behind the header of ten
bytes, its data and its status word. -/
def partOf (response : List UInt8) : Part UInt8 Nat :=
  { body := answerBody (response.drop ccidHeaderLen)
    mark := statusWord (response.drop ccidHeaderLen) }

/-- SELECT of the PIV applet. -/
def Selects (c : ShortCommand) : Prop :=
  c.cla = 0x00 ∧ c.ins = 0xA4 ∧ c.p1 = 0x04 ∧ pivAidLen ≤ c.data.length ∧
    c.data.take pivAidLen = pivAid

/-- GET DATA for the object with this tag. -/
def Fetches (tag : List UInt8) (c : ShortCommand) : Prop :=
  c.cla = 0x00 ∧ c.ins = 0xCB ∧ c.p1 = 0x3F ∧ c.p2 = 0xFF ∧ requestedTag c.data = some tag ∧
    Whole c

/-- GET RESPONSE. -/
def Continues (c : ShortCommand) : Prop := c.cla = 0x00 ∧ c.ins = 0xC0

/-- VERIFY with the PIN. -/
def Presents (c : ShortCommand) : Prop :=
  c.cla = 0x00 ∧ c.ins = 0x20 ∧ c.p1 = 0x00 ∧ c.p2 = pivPinRefApp ∧ c.data = expectedPin

/-- GENERAL AUTHENTICATE with this challenge. -/
def Asks (hash : List UInt8) (c : ShortCommand) : Prop :=
  c.cla = 0x00 ∧ c.ins = 0x87 ∧ c.p1 = algEcdsaP256 ∧ c.p2 = keyRef9A ∧ 4 ≤ c.data.length ∧
    challengeOf c.data = some hash

section Commands

variable {t : Token} {c : ShortCommand} {object : List UInt8 → Option (List UInt8)}
  {sign : List UInt8 → List UInt8} {now : Nat}

theorem answer_select (h : Selects c) : t.answer c object sign now =
    { token := { t with selected := true }, body := fci, sw := swOk, signed := none } := by
  obtain ⟨hcla, hins, hp1, hlen, haid⟩ := h
  simp only [Token.answer, Token.select, hcla, hins, hp1, haid, if_neg (Nat.not_lt.mpr hlen),
    ne_eq, not_true_eq_false, if_false, if_true]

theorem answer_verify (h : Presents c) (hselected : t.selected = true) :
    t.answer c object sign now = { t.refuse swOk with token := { t with verified := true } } := by
  obtain ⟨hcla, hins, hp1, hp2, hdata⟩ := h
  have hsome : c.data ≠ [] := by rw [hdata]; decide
  have hlen : c.data.length = 8 := by rw [hdata]; rfl
  have hother : (0x20 : UInt8) ≠ 0xA4 := by decide
  simp only [Token.answer, Token.verify, hcla, hins, hp1, hp2, hselected, if_neg hother,
    if_neg hsome, hlen, if_pos hdata, ne_eq, not_true_eq_false, if_false, if_true,
    Bool.true_eq_false]

/-- The first part of an object, when nothing of another one is left. -/
theorem answer_getData {tag obj : List UInt8} (h : Fetches tag c) (hselected : t.selected = true)
    (hrest : t.rest = []) (hobject : object tag = some obj) (hsome : obj ≠ []) :
    t.answer c object sign now =
      { token := { t with rest := obj.drop (wanted c) }
        body := (nextPart chainMarks obj (wanted c)).body
        sw := (nextPart chainMarks obj (wanted c)).mark
        signed := none } := by
  obtain ⟨hcla, hins, hp1, hp2, htag, _⟩ := h
  have hother : (0xCB : UInt8) ≠ 0xA4 ∧ (0xCB : UInt8) ≠ 0x20 := by decide
  have hhandler : t.answer c object sign now = t.getData c object := by
    simp only [Token.answer, hcla, hins, hselected, if_neg hother.1, if_neg hother.2, ne_eq,
      not_true_eq_false, if_false, if_true, Bool.true_eq_false]
  have hmode : ¬ (c.p1 ≠ 0x3F ∨ c.p2 ≠ 0xFF) := by simp [hp1, hp2]
  simp only [hhandler, Token.getData, if_neg hmode, htag, hobject]
  by_cases hfits : obj.length ≤ wanted c
  · rw [if_pos hfits, nextPart_fits hsome hfits, List.drop_of_length_le hfits, ← hrest]
    rfl
  · rw [if_neg hfits]

theorem answer_getResponse (h : Continues c) (hselected : t.selected = true) :
    t.answer c object sign now =
      { token := { t with rest := t.rest.drop (wanted c) }
        body := (nextPart chainMarks t.rest (wanted c)).body
        sw := (nextPart chainMarks t.rest (wanted c)).mark
        signed := none } := by
  have hother : (0xC0 : UInt8) ≠ 0xA4 ∧ (0xC0 : UInt8) ≠ 0x20 ∧ (0xC0 : UInt8) ≠ 0xCB := by decide
  simp only [Token.answer, Token.getResponse, h.1, h.2, hselected, if_neg hother.1,
    if_neg hother.2.1, if_neg hother.2.2, ne_eq, not_true_eq_false, if_false, if_true,
    Bool.true_eq_false]

/-- Without an authorization the request opens the wait for a press. -/
theorem answer_request {hash : List UInt8} (h : Asks hash c) (hselected : t.selected = true)
    (hverified : t.verified = true) (hidle : t.phase = .idle) :
    t.answer c object sign now =
      { t.refuse swConditionsNotSatisfied with token := { t with phase := .waiting now } } := by
  obtain ⟨hcla, hins, hp1, hp2, hlen, hhash⟩ := h
  have hother : (0x87 : UInt8) ≠ 0xA4 ∧ (0x87 : UInt8) ≠ 0x20 ∧ (0x87 : UInt8) ≠ 0xCB ∧
      (0x87 : UInt8) ≠ 0xC0 := by decide
  simp only [Token.answer, Token.authenticate, hcla, hins, hp1, hp2, hselected, hverified, hhash,
    hidle, if_neg hother.1, if_neg hother.2.1, if_neg hother.2.2.1, if_neg hother.2.2.2,
    if_neg (Nat.not_lt.mpr hlen), ne_eq, not_true_eq_false, if_false, if_true, Bool.true_eq_false]
  rfl

/-- With one it is answered with the signature. -/
theorem answer_sign {hash : List UInt8} (h : Asks hash c) (hselected : t.selected = true)
    (hverified : t.verified = true) {since : Nat} (hphase : t.phase = .authorized since)
    (hsign : sign hash ≠ []) :
    t.answer c object sign now =
      { token := { t with phase := .idle }, body := signatureTemplate (sign hash), sw := swOk,
        signed := some hash } := by
  obtain ⟨hcla, hins, hp1, hp2, hlen, hhash⟩ := h
  have hother : (0x87 : UInt8) ≠ 0xA4 ∧ (0x87 : UInt8) ≠ 0x20 ∧ (0x87 : UInt8) ≠ 0xCB ∧
      (0x87 : UInt8) ≠ 0xC0 := by decide
  simp only [Token.answer, Token.authenticate, hcla, hins, hp1, hp2, hselected, hverified, hhash,
    hphase, if_neg hother.1, if_neg hother.2.1, if_neg hother.2.2.1, if_neg hother.2.2.2,
    if_neg (Nat.not_lt.mpr hlen), if_neg hsign, ne_eq, not_true_eq_false, if_false, if_true,
    Bool.true_eq_false]

end Commands

section Responses

/-- The block that carries the answer of the card to a command. -/
def answerBlock (seq : UInt8) (a : Answer) : List UInt8 :=
  headerBytes rdrToPcDataBlock a.bytes.length seq (cmdOk ||| iccActive) 0 0 ++ a.bytes

/-- The host finds the data and the status word behind the header. -/
theorem partOf_answerBlock (seq : UInt8) {a : Answer} (hsw : a.sw < 0x10000) :
    partOf (answerBlock seq a) = ⟨a.body, a.sw⟩ := by
  have hdrop : (answerBlock seq a).drop ccidHeaderLen = a.body ++ swBytes a.sw :=
    List.drop_left' (headerBytes_length _ _ _ _ _ _)
  rw [partOf, hdrop, answerBody_append, statusWord_append a.body hsw]

theorem mark_lt (rest : List UInt8) (n : Nat) :
    (nextPart chainMarks rest n).mark < 0x10000 := by
  cases rest with
  | nil =>
    rw [nextPart_nil]
    decide
  | cons b rest =>
    simp only [nextPart]
    split
    · decide
    · simp only [chainMarks]
      omega

theorem objects_ne_nil {k : Backend} {tag obj : List UInt8} (h : objects k tag = some obj) :
    obj ≠ [] := by
  simp only [objects] at h
  repeat' split at h
  all_goals cases h
  all_goals exact List.cons_ne_nil _ _

end Responses

/-- The switch, the flags and the rest of an object are left alone. -/
structure Keeps (r r' : Reader) : Prop where
  powered : r'.powered = r.powered
  selected : r'.token.selected = r.token.selected
  verified : r'.token.verified = r.token.verified
  rest : r'.token.rest = r.token.rest

section Runs

variable {k : Backend} {r : Reader}

theorem keeps_refl (r : Reader) : Keeps r r := ⟨rfl, rfl, rfl, rfl⟩

theorem Keeps.trans {r₁ r₂ r₃ : Reader} (h : Keeps r₁ r₂) (h' : Keeps r₂ r₃) : Keeps r₁ r₃ :=
  ⟨h'.powered.trans h.powered, h'.selected.trans h.selected, h'.verified.trans h.verified,
    h'.rest.trans h.rest⟩

/-- Between the messages nothing is shown, and nothing but the bus touches the session. -/
theorem noticed_keeps (object : List UInt8 → Option (List UInt8)) (r : Reader) {e : Event}
    (hbus : e ≠ .busReset) :
    Keeps r (exec (Reader.step object) r (noticed e)) ∧
      trace (Reader.step object) r (noticed e) = [] := by
  cases e with
  | busReset => exact absurd rfl hbus
  | bulkOut | inRead | inComplete | ccidTask => exact ⟨keeps_refl r, rfl⟩
  | umount | gpioIrq | poll | tick => exact ⟨⟨rfl, rfl, rfl, rfl⟩, rfl⟩

/-- The part of a run of the reader that belongs to these happenings. -/
def shown (k : Backend) (r : Reader) (hs : List Happening) : List Sight :=
  trace (Reader.step (objects k)) r (hs.flatMap (occurrences k))

def reached (k : Backend) (r : Reader) (hs : List Happening) : Reader :=
  exec (Reader.step (objects k)) r (hs.flatMap (occurrences k))

theorem shown_append (hs hs' : List Happening) :
    shown k r (hs ++ hs') = shown k r hs ++ shown k (reached k r hs) hs' := by
  rw [shown, List.flatMap_append, trace_append]
  rfl

theorem reached_append (hs hs' : List Happening) :
    reached k r (hs ++ hs') = reached k (reached k r hs) hs' := by
  rw [reached, List.flatMap_append, exec_append]
  rfl

/-- Without messages nothing is shown, and the session stays. -/
theorem background_run {hs : List Happening} (hnone : requests hs = [])
    (hbus : .busReset ∉ hs.map Happening.event) (r : Reader) :
    shown k r hs = [] ∧ Keeps r (reached k r hs) := by
  induction hs generalizing r with
  | nil => exact ⟨rfl, keeps_refl r⟩
  | cons h hs ih =>
    rw [List.map_cons, List.mem_cons, not_or] at hbus
    cases h with
    | message m amb => cases hnone
    | other e quiet =>
      obtain ⟨hkeeps, hfirst⟩ := noticed_keeps (objects k) r (e := e) fun h => hbus.1 h.symm
      obtain ⟨hshown, hrest⟩ := ih hnone hbus.2 (exec (Reader.step (objects k)) r (noticed e))
      constructor
      · rw [shown, List.flatMap_cons, occurrences, trace_append, hfirst]
        exact hshown
      · rw [reached, List.flatMap_cons, occurrences, exec_append]
        exact hkeeps.trans hrest

/-- What comes before the first message is not seen, and leaves the session alone. -/
theorem first_message {hs : List Happening} {q : Request} {qs : List Request}
    (hrequests : requests hs = q :: qs) (hbus : .busReset ∉ hs.map Happening.event) (r : Reader) :
    ∃ m amb rest r', m.request = q ∧ requests rest = qs ∧
      .busReset ∉ rest.map Happening.event ∧ Keeps r r' ∧
      shown k r hs = (r'.receive (objects k) (signer k amb) amb.now m).2 ++
        shown k (r'.receive (objects k) (signer k amb) amb.now m).1 rest ∧
      reached k r hs = reached k (r'.receive (objects k) (signer k amb) amb.now m).1 rest := by
  induction hs generalizing r with
  | nil => cases hrequests
  | cons h hs ih =>
    rw [List.map_cons, List.mem_cons, not_or] at hbus
    cases h with
    | message m amb =>
      obtain ⟨hq, hqs⟩ := List.cons.inj hrequests
      exact ⟨m, amb, hs, r, hq, hqs, hbus.2, keeps_refl r, rfl, rfl⟩
    | other e quiet =>
      obtain ⟨hkeeps, hnone⟩ := noticed_keeps (objects k) r (e := e) fun h => hbus.1 h.symm
      obtain ⟨m, amb, rest, r', hq, hqs, hrest, hkeeps', hshown, hreached⟩ :=
        ih hrequests hbus.2 (exec (Reader.step (objects k)) r (noticed e))
      refine ⟨m, amb, rest, r', hq, hqs, hrest, hkeeps.trans hkeeps', ?_, ?_⟩
      · rw [← hshown, shown, List.flatMap_cons, occurrences, trace_append, hnone]
        rfl
      · rw [← hreached, reached, List.flatMap_cons, occurrences, exec_append]
        rfl

theorem answers_append (h t : List Sight) : answers (h ++ t) = answers h ++ answers t :=
  List.filterMap_append

/-- A command to the powered card is answered in a block of its own. -/
theorem receive_command {m : Message} {c : ShortCommand} (hrequest : m.request = .xfrBlock c)
    (hpowered : r.powered = true) (object : List UInt8 → Option (List UInt8))
    (sign : List UInt8 → List UInt8) (now : Nat) :
    (r.receive object sign now m).1 =
        { r with token := (r.token.answer c object sign now).token } ∧
      answers (r.receive object sign now m).2 =
        [answerBlock m.seq (r.token.answer c object sign now)] := by
  have hon : ¬ r.powered = false := by simp [hpowered]
  simp only [Reader.receive, hrequest, Reader.xfrBlock, if_neg hon, true_and]
  cases (r.token.answer c object sign now).signed <;> rfl

/-- The first command after anything else. -/
theorem first_command {hs : List Happening} {c : ShortCommand} {qs : List Request}
    (hrequests : requests hs = .xfrBlock c :: qs) (hbus : .busReset ∉ hs.map Happening.event)
    (hpowered : r.powered = true) :
    ∃ seq amb rest r', requests rest = qs ∧ .busReset ∉ rest.map Happening.event ∧ Keeps r r' ∧
      answers (shown k r hs) =
        answerBlock seq (r'.token.answer c (objects k) (signer k amb) amb.now) ::
          answers (shown k
            { r' with token := (r'.token.answer c (objects k) (signer k amb) amb.now).token }
            rest) ∧
      reached k r hs = reached k
        { r' with token := (r'.token.answer c (objects k) (signer k amb) amb.now).token }
        rest := by
  obtain ⟨m, amb, rest, r', hq, hqs, hrest, hkeeps, hshown, hreached⟩ :=
    first_message hrequests hbus r
  obtain ⟨hafter, hblock⟩ := receive_command hq (hkeeps.powered.trans hpowered) (objects k)
    (signer k amb) amb.now
  refine ⟨m.seq, amb, rest, r', hqs, hrest, hkeeps, ?_, ?_⟩
  · rw [hshown, answers_append, hblock, hafter]
    rfl
  · rw [hreached, hafter]

/-- Power-on and SELECT begin a session in which nothing is left of an earlier one. -/
theorem opened {hs : List Happening} {select : ShortCommand} {qs : List Request}
    (hselect : Selects select) (hrequests : requests hs = .iccPowerOn :: .xfrBlock select :: qs)
    (hbus : .busReset ∉ hs.map Happening.event) (r : Reader) :
    ∃ rest r', requests rest = qs ∧ .busReset ∉ rest.map Happening.event ∧
      r'.powered = true ∧ r'.token.selected = true ∧ r'.token.rest = [] ∧
      (answers (shown k r hs)).drop 2 = answers (shown k r' rest) ∧
      2 ≤ (answers (shown k r hs)).length ∧ reached k r hs = reached k r' rest := by
  obtain ⟨m, amb, rest, r₁, hq, hqs, hbus₁, _, hshown, hreached⟩ :=
    first_message (k := k) hrequests hbus r
  have hon : r₁.receive (objects k) (signer k amb) amb.now m =
      ({ r₁ with powered := true, token := r₁.token.reset },
        [.response (headerBytes rdrToPcDataBlock atr.length m.seq (cmdOk ||| iccActive) 0 0 ++
          atr)]) := by
    simp only [Reader.receive, hq]
  obtain ⟨seq, amb', rest', r₂, hqs', hbus₂, hkeeps, hanswers, hreached'⟩ :=
    first_command (k := k) hqs hbus₁
      (r := { r₁ with powered := true, token := r₁.token.reset }) rfl
  rw [answer_select hselect] at hanswers hreached'
  refine ⟨rest', { r₂ with token := { r₂.token with selected := true } }, hqs', hbus₂,
    hkeeps.powered, rfl, hkeeps.rest, ?_, ?_, ?_⟩
  · rw [hshown, hon, answers_append, hanswers]
    rfl
  · rw [hshown, hon, answers_append, hanswers]
    exact Nat.le_add_left 2 _
  · rw [hreached, hon, hreached']

/-- The rest of an object comes in as it was asked for. -/
theorem continues_run {cs : List ShortCommand} (hcs : ∀ c ∈ cs, Continues c) {hs : List Happening}
    (hrequests : requests hs = cs.map .xfrBlock) (hbus : .busReset ∉ hs.map Happening.event)
    (r : Reader) (hpowered : r.powered = true) (hselected : r.token.selected = true) :
    (answers (shown k r hs)).map partOf =
      deliver chainMarks r.token.rest (cs.map wanted) := by
  induction cs generalizing hs r with
  | nil =>
    rw [(background_run hrequests hbus r).1]
    rfl
  | cons c cs ih =>
    obtain ⟨seq, amb, rest, r', hqs, hrest, hkeeps, hanswers, _⟩ :=
      first_command (k := k) hrequests hbus hpowered
    have hpowered' : r'.powered = true := hkeeps.powered.trans hpowered
    have hselected' : r'.token.selected = true := hkeeps.selected.trans hselected
    rw [answer_getResponse (hcs c List.mem_cons_self) hselected'] at hanswers
    have hlater := ih (fun x hx => hcs x (List.mem_cons_of_mem c hx)) hqs hrest
      { r' with token := { r'.token with rest := r'.token.rest.drop (wanted c) } } hpowered'
      hselected'
    rw [hanswers, List.map_cons, hlater, partOf_answerBlock seq (mark_lt _ _), List.map_cons,
      deliver, ← hkeeps.rest]

/-- A session that fetches an object: two answers to the power-on and the SELECT, and then the
object as it was asked for. -/
theorem fetch_shown {tag obj : List UInt8} (hobject : objects k tag = some obj)
    {select fetch : ShortCommand} {cs : List ShortCommand} (hselect : Selects select)
    (hfetch : Fetches tag fetch) (hcs : ∀ c ∈ cs, Continues c) {script : List Happening}
    (hrequests : requests script =
      .iccPowerOn :: .xfrBlock select :: .xfrBlock fetch :: cs.map .xfrBlock)
    (hbus : .busReset ∉ script.map Happening.event) (r : Reader) :
    ((answers (shown k r script)).drop 2).map partOf =
      deliver chainMarks obj ((fetch :: cs).map wanted) := by
  obtain ⟨rest, r₁, hqs, hbus₁, hpowered, hselected, hnone, hopened, _, _⟩ :=
    opened (k := k) hselect hrequests hbus r
  obtain ⟨seq, amb, rest', r₂, hqs', hbus₂, hkeeps, hanswers, _⟩ :=
    first_command (k := k) hqs hbus₁ hpowered
  have hpowered' : r₂.powered = true := hkeeps.powered.trans hpowered
  have hselected' : r₂.token.selected = true := hkeeps.selected.trans hselected
  rw [answer_getData hfetch hselected' (hkeeps.rest.trans hnone) hobject
    (objects_ne_nil hobject)] at hanswers
  have hlater := continues_run (k := k) hcs hqs' hbus₂
    { r₂ with token := { r₂.token with rest := obj.drop (wanted fetch) } } hpowered' hselected'
  rw [hopened, hanswers, List.map_cons, hlater, partOf_answerBlock seq (mark_lt _ _),
    List.map_cons, deliver]

end Runs

section Transport

variable {k : Backend} {script : List Happening}

/-- A script of commands that hold the tags they declare. -/
theorem script_whole (hqs : ∀ c, .xfrBlock c ∈ requests script → Whole c) :
    ∀ h ∈ script, h.Whole := by
  intro h hmem
  cases h with
  | other => trivial
  | message m amb =>
    intro c hrequest
    exact hqs c (List.mem_filterMap.mpr ⟨.message m amb, hmem, congrArg some hrequest⟩)

/-- What a patient host has collected in a session, once nothing is outstanding. -/
theorem collected_session {es : List Event} (hsettled : Settled (run k es)) {p : Phase}
    (hphase : InPhase (run k es).card.dev p) {size : Nat} (hsize : 0 < size)
    (hwhole : ∀ h ∈ script, h.Whole)
    (hpatient : Patient k (run k es) (script.map Happening.event)) (rounds : List (List Event))
    (hquiet : ∀ round ∈ rounds, ∀ e ∈ round, Quiet e)
    (hserved : ∀ round ∈ rounds, Served size round)
    (hcount : pieces size ccidBufSize + 2 ≤ rounds.length) :
    transmitted (trace (step k) (run k es) (script.map Happening.event ++ rounds.flatten)) =
      answers (shown k (readerOf (run k es) p) script) :=
  collected_all (models_readerOf hphase) hsettled (sized_run k es) hsize script hwhole hpatient
    rounds hquiet hserved hcount

end Transport

theorem absent_range : ∀ n ∈ (none : Option Nat), 1 ≤ n ∧ n ≤ 256 :=
  fun n h => absurd h (Option.not_mem_none n)

theorem ccidTask_carries_none (bytes : List UInt8) (amb : Ambient)
    (h : Event.ccidTask true = .bulkOut bytes amb) : bytes.length < ccidHeaderLen := by
  cases h

theorem inRead_carries_none (bytes : List UInt8) (amb : Ambient)
    (h : Event.inRead 64 = .bulkOut bytes amb) : bytes.length < ccidHeaderLen := by
  cases h

theorem inComplete_carries_none (bytes : List UInt8) (amb : Ambient)
    (h : Event.inComplete = .bulkOut bytes amb) : bytes.length < ccidHeaderLen := by
  cases h

/-- The endpoint brings a short response out. -/
def bringsOut : List Happening :=
  [.other (.ccidTask true) ccidTask_carries_none, .other (.inRead 64) inRead_carries_none,
    .other .inComplete inComplete_carries_none]

def discovery : List Happening :=
  [.message ⟨1, .iccPowerOn⟩ (ambientAt 0)] ++ bringsOut ++
    [.message ⟨2, .xfrBlock selectCommand⟩ (ambientAt 5)] ++ bringsOut ++
    [.message ⟨3, .xfrBlock discoveryCommand⟩ (ambientAt 10)] ++ bringsOut ++
    [.message ⟨4, .xfrBlock restCommand⟩ (ambientAt 15)]

/-- A host that talks over itself, breaks off in the middle of a response and resets the bus -/
def unrulyRun : List Event :=
  [.bulkOut [0x6F, 0xFA, 0xFF, 0xFF, 0xFF, 0, 0, 0, 0, 0, 0x00] (ambientAt 0),
    .bulkOut (hostMessage pcToRdrIccPowerOn []) (ambientAt 1), .ccidTask true, .inRead 3,
    .bulkOut (hostMessage pcToRdrXfrBlock selectCommand.bytes) (ambientAt 2), .busReset]

theorem settled_unrulyRun : Settled (run sampleBackend unrulyRun) :=
  settled_busReset sampleBackend (run sampleBackend (unrulyRun.take 5))

/-- A host stays patient while it sends nothing. -/
theorem patient_background {k : Backend} {s : State} (hs : List Happening) {idle : List Happening}
    (h : Patient k s (hs.map Happening.event)) (hnone : requests idle = [])
    (hbus : .busReset ∉ idle.map Happening.event) :
    Patient k s ((hs ++ idle).map Happening.event) := by
  induction idle generalizing hs with
  | nil => rwa [List.append_nil]
  | cons x idle ih =>
    rw [List.map_cons, List.mem_cons, not_or] at hbus
    cases x with
    | message m amb => cases hnone
    | other e quiet =>
      have hnext : Patient k s ((hs ++ [Happening.other e quiet]).map Happening.event) := by
        rw [List.map_append]
        refine h.concat ?_
        rintro (hwhole | heq)
        · cases e with
          | bulkOut bytes amb => exact absurd hwhole (Nat.not_le.mpr (quiet bytes amb rfl))
          | inRead | inComplete | ccidTask | busReset | umount | gpioIrq | poll | tick =>
            exact absurd hwhole id
        · exact absurd heq.symm hbus.1
      have hrest := ih (hs ++ [.other e quiet]) hnext hnone hbus.2
      rwa [List.append_assoc] at hrest

theorem patient_message {k : Backend} {s : State} (hs : List Happening)
    (h : Patient k s (hs.map Happening.event)) (m : Message) (amb : Ambient)
    (hdue : (transmitted (trace (step k) s (hs.map Happening.event))).length =
      messages (hs.map Happening.event)) :
    Patient k s ((hs ++ [Happening.message m amb]).map Happening.event) := by
  rw [List.map_append]
  exact h.concat fun _ => hdue

theorem discovery_patient :
    Patient sampleBackend (run sampleBackend unrulyRun) (discovery.map Happening.event) := by
  have brings : ∀ hs, Patient sampleBackend (run sampleBackend unrulyRun)
      (hs.map Happening.event) → Patient sampleBackend (run sampleBackend unrulyRun)
      ((hs ++ bringsOut).map Happening.event) :=
    fun hs h => patient_background hs h rfl (by simp [bringsOut, Happening.event])
  have hpowered := brings _ (patient_message [] (patient_nil sampleBackend _)
    ⟨1, .iccPowerOn⟩ (ambientAt 0) rfl)
  have hselected := brings _ (patient_message _ hpowered ⟨2, .xfrBlock selectCommand⟩
    (ambientAt 5) (by decide))
  have hfetched := brings _ (patient_message _ hselected ⟨3, .xfrBlock discoveryCommand⟩
    (ambientAt 10) (by decide))
  exact patient_message _ hfetched ⟨4, .xfrBlock restCommand⟩ (ambientAt 15) (by decide)

end HostSessions
