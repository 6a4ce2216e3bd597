import Ward3n.HostSessions

/-!
# A signature, from the PIN to the response

The other thing a host comes for. It powers the card on, selects the applet,
presents the PIN and asks for a signature; the holder of the card presses the
button; the host asks again. The second request is signed if the first one found
no window open, the press was confirmed, and no tick found a deadline passed in
between. Polls, interrupts, ticks and endpoint work may fall anywhere.
-/

namespace SigningSession

open CellMemory ApduCodec CryptoBackend DeviceState UserButton PivApplet CcidDriver Firmware
  TracedRuns StepSimulation ShortApdus FirmwareSteps PartedDelivery ChainedResponses AppletEffects
  TransmitBuffer ResponseDelivery ReaderSpecification TokenRefinement ReaderRefinement
  SessionIsolation PatientHost HostSessions

/-- No tick finds the deadline of the open window passed, and the device stays plugged in. -/
def Timely (s : State) : Event → Prop
  | .tick now => now < s.card.dev.deadline
  | .umount _ => False
  | _ => True

def Granted : Phase → Prop
  | .authorized _ => True
  | _ => False

/-- `button_was_pressed` in the main loop. -/
def polled (sample : Sample) : Happening := .other (.poll sample) (by rintro _ _ ⟨⟩)

/-- The messages of a host that wants a signature, and what happens between them. -/
structure Attempt where
  opening : List Happening
  select : ShortCommand
  present : ShortCommand
  opening_requests :
    requests opening = [.iccPowerOn, .xfrBlock select, .xfrBlock present]
  selects : Selects select
  presents : Presents present
  first : Message
  firstAmb : Ambient
  waiting : List Happening
  press : Sample
  holding : List Happening
  second : Message
  secondAmb : Ambient
  waiting_requests : requests waiting = []
  holding_requests : requests holding = []

namespace Attempt

/-- Up to the first request, with it, and up to the press. -/
def untilRequest (a : Attempt) : List Happening := a.opening ++ [.message a.first a.firstAmb]

def untilPress (a : Attempt) : List Happening := a.untilRequest ++ a.waiting

/-- Between the two requests. -/
def between (a : Attempt) : List Happening := a.waiting ++ polled a.press :: a.holding

def happenings (a : Attempt) : List Happening :=
  a.untilRequest ++ (a.between ++ [.message a.second a.secondAmb])

end Attempt

section Phases

variable {k : Backend} {s : State} {r : Reader}

/-- Nothing that is timely closes a window. -/
theorem timely_noticed (hmodels : Models s r) {e : Event} (htimely : Timely s e) :
    (r.token.phase ≠ .idle →
      (exec (Reader.step (objects k)) r (noticed e)).token.phase ≠ .idle) ∧
    (Granted r.token.phase →
      Granted (exec (Reader.step (objects k)) r (noticed e)).token.phase) := by
  have hin := hmodels.token.phase
  cases e with
  | bulkOut | inRead | inComplete | ccidTask | busReset | gpioIrq => exact ⟨id, id⟩
  | umount => exact absurd htimely id
  | poll sample =>
    simp only [noticed, exec, Reader.step]
    by_cases hconfirms : Confirms r.button sample
    · rw [if_pos hconfirms]
      cases r.token.phase with
      | idle => exact ⟨fun hno => absurd rfl hno, id⟩
      | waiting | authorized => exact ⟨fun _ => by simp [Phase.press], fun _ => trivial⟩
    · rw [if_neg hconfirms]
      exact ⟨id, id⟩
  | tick now =>
    have hnow : now < s.card.dev.deadline := htimely
    simp only [noticed, exec, Reader.step]
    cases hphase : r.token.phase with
    | idle => exact ⟨fun hno => absurd rfl hno, id⟩
    | waiting t =>
      rw [hphase] at hin
      have hopen : ¬ makeTimeoutTimeMs t waitButtonTimeoutMs ≤ now := by
        rw [← hin.2]
        exact Nat.not_le.mpr hnow
      simp only [Phase.expire, if_neg hopen]
      exact ⟨id, id⟩
    | authorized t =>
      rw [hphase] at hin
      have hopen : ¬ makeTimeoutTimeMs t authWindowMs ≤ now := by
        rw [← hin.2.2]
        exact Nat.not_le.mpr hnow
      simp only [Phase.expire, if_neg hopen]
      exact ⟨id, id⟩

/-- Over a stretch without messages, an open window stays open and a granted one granted. -/
theorem timely_run {hs : List Happening} (hnone : requests hs = []) (hmodels : Models s r)
    (htimely : AllSteps (step k) Timely s (hs.map Happening.event)) :
    (r.token.phase ≠ .idle → (reached k r hs).token.phase ≠ .idle) ∧
      (Granted r.token.phase → Granted (reached k r hs).token.phase) := by
  induction hs generalizing s r with
  | nil => exact ⟨id, id⟩
  | cons h hs ih =>
    cases h with
    | message m amb => cases hnone
    | other e quiet =>
      obtain ⟨hfirst, hrest⟩ := htimely
      obtain ⟨hopen, hgranted⟩ := timely_noticed (k := k) hmodels hfirst
      obtain ⟨hopen', hgranted'⟩ := ih hnone (other_follows (k := k) hmodels e quiet).1 hrest
      have hreached : reached k r (.other e quiet :: hs) =
          reached k (exec (Reader.step (objects k)) r (noticed e)) hs := by
        rw [reached, List.flatMap_cons, occurrences, exec_append]
        rfl
      rw [hreached]
      exact ⟨fun h => hopen' (hopen h), fun h => hgranted' (hgranted h)⟩

/-- A confirmed press grants what an open window waits for. -/
theorem granted_polled {sample : Sample} (hopen : r.token.phase ≠ .idle)
    (hconfirms : Confirms r.button sample) :
    Granted (reached k r [polled sample]).token.phase := by
  simp only [reached, polled, List.flatMap_cons, List.flatMap_nil, List.append_nil, occurrences,
    noticed, exec, Reader.step, if_pos hconfirms]
  cases hphase : r.token.phase with
  | idle => exact absurd hphase hopen
  | waiting | authorized => trivial

end Phases

section Signing

variable {k : Backend} {r : Reader}

/-- The opening of the session is answered three times, and leaves the PIN verified. -/
theorem opening_run (a : Attempt) (hbus : .busReset ∉ a.opening.map Happening.event) (r : Reader) :
    (answers (shown k r a.opening)).length = 3 ∧ (reached k r a.opening).powered = true ∧
      (reached k r a.opening).token.selected = true ∧
      (reached k r a.opening).token.verified = true := by
  obtain ⟨rest, r₁, hqs, hbus₁, hpowered, hselected, _, hdrop, htwo, hreached⟩ :=
    opened (k := k) a.selects a.opening_requests hbus r
  obtain ⟨seq, amb, rest', r₂, hqs', hbus₂, hkeeps, hanswers, hreached'⟩ :=
    first_command (k := k) hqs hbus₁ hpowered
  have hselected' : r₂.token.selected = true := hkeeps.selected.trans hselected
  rw [answer_verify a.presents hselected'] at hanswers hreached'
  obtain ⟨hnone, hkept⟩ := background_run (k := k) hqs' hbus₂
    { r₂ with token := { r₂.token with verified := true } }
  have hone : (answers (shown k r₁ rest)).length = 1 := by
    rw [hanswers]
    exact congrArg (fun t => (answers t).length + 1) hnone
  have hreach : reached k r a.opening =
      reached k { r₂ with token := { r₂.token with verified := true } } rest' := by
    rw [hreached, hreached']
  rw [hreach]
  refine ⟨?_, hkept.powered.trans (hkeeps.powered.trans hpowered),
    hkept.selected.trans hselected', hkept.verified⟩
  have hlen := congrArg List.length hdrop
  rw [List.length_drop, hone] at hlen
  omega

/-- A single command. -/
theorem command_run {m : Message} {c : ShortCommand} (amb : Ambient)
    (hrequest : m.request = .xfrBlock c) (hpowered : r.powered = true) :
    answers (shown k r [.message m amb]) =
        [answerBlock m.seq (r.token.answer c (objects k) (signer k amb) amb.now)] ∧
      reached k r [.message m amb] =
        { r with token := (r.token.answer c (objects k) (signer k amb) amb.now).token } := by
  obtain ⟨hafter, hblock⟩ := receive_command hrequest hpowered (objects k) (signer k amb) amb.now
  refine ⟨?_, hafter⟩
  rw [← hblock]
  exact congrArg answers (List.append_nil _)

theorem requests_append (hs hs' : List Happening) :
    requests (hs ++ hs') = requests hs ++ requests hs' := List.filterMap_append

variable {a : Attempt} {ask ask' : ShortCommand}

theorem between_requests (a : Attempt) : requests a.between = [] := by
  rw [Attempt.between, requests_append, a.waiting_requests]
  exact a.holding_requests

theorem attempt_whole {hash hash' : List UInt8} (hask : Asks hash ask) (hask' : Asks hash' ask')
    (hfirst : a.first.request = .xfrBlock ask) (hsecond : a.second.request = .xfrBlock ask') :
    ∀ h ∈ a.happenings, h.Whole := by
  have hone : requests [.message a.first a.firstAmb] = [.xfrBlock ask] := congrArg ([·]) hfirst
  have htwo : requests [.message a.second a.secondAmb] = [.xfrBlock ask'] :=
    congrArg ([·]) hsecond
  refine script_whole fun c hc => ?_
  rw [Attempt.happenings, Attempt.untilRequest, requests_append, requests_append, requests_append,
    a.opening_requests, between_requests, hone, htwo] at hc
  simp only [List.mem_append, List.mem_cons, List.not_mem_nil, or_false, false_or,
    Request.xfrBlock.injEq, reduceCtorEq] at hc
  rcases hc with ((rfl | rfl) | rfl) | rfl
  · exact fun hins => absurd (a.selects.2.1.symm.trans hins) (by decide)
  · exact fun hins => absurd (a.presents.2.1.symm.trans hins) (by decide)
  · exact fun hins => absurd (hask.2.1.symm.trans hins) (by decide)
  · exact fun hins => absurd (hask'.2.1.symm.trans hins) (by decide)

/-- The press falls into the window that the first request opened, and the authorization is
there when the second one comes. -/
theorem granted_between {s : State} (hmodels : Models s r) (hopen : r.token.phase ≠ .idle)
    (hpress : Confirms (exec (step k) s (a.waiting.map Happening.event)).button a.press)
    (htimely : AllSteps (step k) Timely s (a.between.map Happening.event)) :
    Granted (reached k r a.between).token.phase := by
  rw [Attempt.between, List.map_append, allSteps_append] at htimely
  obtain ⟨hwaiting, hpolled, hholding⟩ := htimely
  have hwhole : ∀ h ∈ a.waiting, h.Whole := script_whole (by rw [a.waiting_requests]; simp)
  have hwaited : Models (exec (step k) s (a.waiting.map Happening.event))
      (reached k r a.waiting) := exec_models k hmodels hwhole
  have hstill := (timely_run a.waiting_requests hmodels hwaiting).1 hopen
  have hpressed := granted_polled (k := k) hstill (hwaited.button ▸ hpress)
  have hmodels' := (other_follows (k := k) hwaited (.poll a.press) (by rintro _ _ ⟨⟩)).1
  have hreached : reached k r a.between =
      reached k (reached k (reached k r a.waiting) [polled a.press]) a.holding := by
    rw [Attempt.between, reached_append, ← reached_append [polled a.press] a.holding]
    rfl
  rw [hreached]
  exact (timely_run a.holding_requests hmodels' hholding).2 hpressed

end Signing

def verifyCommand : ShortCommand :=
  { cla := 0x00, ins := 0x20, p1 := 0x00, p2 := pivPinRefApp, data := expectedPin, le := none,
    data_short := Nat.le_of_ble_eq_true rfl, le_range := absent_range }

def askCommand : ShortCommand :=
  { cla := 0x00, ins := 0x87, p1 := algEcdsaP256, p2 := keyRef9A
    data := [0x7C, 0x24, 0x82, 0x00, 0x81, 0x20] ++ List.replicate 32 0xAB, le := none
    data_short := Nat.le_of_ble_eq_true rfl, le_range := absent_range }

/-- The button falls a second after the first request, and is polled thirty milliseconds later. -/
def pressedInTime : Attempt where
  opening := [.message ⟨1, .iccPowerOn⟩ (ambientAt 0)] ++ bringsOut ++
    [.message ⟨2, .xfrBlock selectCommand⟩ (ambientAt 5)] ++ bringsOut ++
    [.message ⟨3, .xfrBlock verifyCommand⟩ (ambientAt 10)] ++ bringsOut
  select := selectCommand
  present := verifyCommand
  opening_requests := rfl
  selects := ⟨rfl, rfl, rfl, by decide, rfl⟩
  presents := ⟨rfl, rfl, rfl, rfl, rfl⟩
  first := ⟨4, .xfrBlock askCommand⟩
  firstAmb := ambientAt 15
  waiting := bringsOut ++ [.other (.gpioIrq buttonPin 1000000) (by rintro _ _ ⟨⟩)]
  press := { now := 1030000, pinHigh := false, stamp := 1030000 }
  holding := [.other (.tick 1030001) (by rintro _ _ ⟨⟩)]
  second := ⟨5, .xfrBlock askCommand⟩
  secondAmb := ambientAt 1040000
  waiting_requests := rfl
  holding_requests := rfl

theorem pressedInTime_patient :
    Patient sampleBackend (run sampleBackend unrulyRun)
      (pressedInTime.happenings.map Happening.event) := by
  have brings : ∀ hs, Patient sampleBackend (run sampleBackend unrulyRun)
      (hs.map Happening.event) → Patient sampleBackend (run sampleBackend unrulyRun)
      ((hs ++ bringsOut).map Happening.event) :=
    fun hs h => patient_background hs h rfl (by simp [bringsOut, Happening.event])
  have hpowered := brings _ (patient_message [] (patient_nil sampleBackend _)
    ⟨1, .iccPowerOn⟩ (ambientAt 0) rfl)
  have hselected := brings _ (patient_message _ hpowered ⟨2, .xfrBlock selectCommand⟩
    (ambientAt 5) (by decide))
  have hverified := brings _ (patient_message _ hselected ⟨3, .xfrBlock verifyCommand⟩
    (ambientAt 10) (by decide))
  have hasked := patient_message _ hverified ⟨4, .xfrBlock askCommand⟩ (ambientAt 15) (by decide)
  have hpressed := patient_background pressedInTime.untilRequest hasked
    (between_requests pressedInTime) (by simp [pressedInTime, Attempt.between, bringsOut, polled,
      Happening.event])
  have hsecond := patient_message _ hpressed ⟨5, .xfrBlock askCommand⟩ (ambientAt 1040000)
    (by decide)
  rwa [List.append_assoc] at hsecond

end SigningSession
