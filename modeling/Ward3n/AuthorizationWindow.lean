import Ward3n.SessionGate

/-!
# The two windows of an authorization

The device variables carry out a phase, and the phase is the one last entered in
the history: a waiting phase by a request, an authorized phase by a confirmed
press. Each window closes at the entry time plus its length, whatever is asked
or pressed in the meantime. Only the tick looks at the clock, so a signature or
a press that comes after the deadline and before the tick still counts.
-/

namespace AuthorizationWindow

open CryptoBackend DeviceState UserButton PivApplet CcidDriver Firmware TracedRuns AppletEffects
  FirmwareSteps SessionGate

/-- The observation is a change of `_state`. -/
def Moves : Observation → Prop
  | .moved _ _ _ => True
  | _ => False

/-- The history last entered this phase: by a request, or by a press confirmed just then. -/
def Entered (h : List Observation) : Phase → Prop
  | .idle => True
  | .waiting t => Since (fun o => ¬ Moves o) (fun _ o => o = .moved .idle .waitingButton t) h
  | .authorized t => Since (fun o => ¬ Moves o)
      (fun past o => o = .moved .waitingButton .authorized t ∧
        ∃ earlier, past = earlier ++ [.pressConfirmed t]) h

/-- The device is in the phase its history last entered. -/
def Window (h : List Observation) (s : State) : Prop := ∃ p, InPhase s.card.dev p ∧ Entered h p

theorem Entered.append {h t : List Observation} {p : Phase} (hentered : Entered h p)
    (hstill : ∀ o ∈ t, ¬ Moves o) : Entered (h ++ t) p := by
  cases p with
  | idle => trivial
  | waiting since => exact Since.append hentered hstill
  | authorized since => exact Since.append hentered hstill

/-- A history enters one waiting phase at most. -/
theorem waiting_unique {h : List Observation} {t t' : Nat} (hentered : Entered h (.waiting t))
    (hentered' : Entered h (.waiting t')) : t = t' := by
  obtain ⟨_, o, heq, heq'⟩ := since_unique hentered hentered'
    (fun _ o ho hstill => hstill (ho ▸ trivial)) (fun _ o ho hstill => hstill (ho ▸ trivial))
  cases heq.symm.trans heq'
  rfl

theorem authorized_unique {h : List Observation} {t t' : Nat}
    (hentered : Entered h (.authorized t)) (hentered' : Entered h (.authorized t')) : t = t' := by
  obtain ⟨_, o, heq, heq'⟩ := since_unique hentered hentered'
    (fun _ o ho hstill => hstill (ho.1 ▸ trivial)) (fun _ o ho hstill => hstill (ho.1 ▸ trivial))
  cases heq.1.symm.trans heq'.1
  rfl

section Moves

variable {h : List Observation} {d : Device} {p : Phase}

theorem entered_request (hin : InPhase d p) (hentered : Entered h p) (now : Nat) :
    Entered (h ++ movedObs d (devStateRequestAuth d now) now) (p.request now) := by
  cases p with
  | idle =>
    have hidle : d.state = .idle := hin
    have hobs : movedObs d (devStateRequestAuth d now) now = [.moved .idle .waitingButton now] := by
      simp [movedObs, devStateRequestAuth, hidle]
    rw [hobs]
    exact since_of_mark rfl (by simp)
  | waiting t | authorized t =>
    have hsame := request_of_busy (by rw [hin.1]; decide : d.state ≠ .idle) now
    rw [hsame, movedObs_self, List.append_nil]
    exact hentered

theorem entered_press (hin : InPhase d p) (hentered : Entered h p) (now : Nat) :
    Entered (h ++ .pressConfirmed now :: movedObs d (devStateButtonPressed d now) now)
      (p.press now) := by
  cases p with
  | idle => trivial
  | waiting t =>
    rw [movedObs_press hin.1, List.append_cons]
    exact since_of_mark ⟨rfl, h, rfl⟩ (by simp)
  | authorized t =>
    have hsame := press_of_not_waiting (by rw [hin.1]; decide : d.state ≠ .waitingButton) now
    rw [hsame, movedObs_self]
    exact hentered.append (by simp [Moves])

theorem entered_tick (hin : InPhase d p) (hentered : Entered h p) (now : Nat) :
    Entered (h ++ movedObs d (devStateTick d now) now) (p.expire now) := by
  cases p with
  | idle => trivial
  | waiting t =>
    by_cases hdue : makeTimeoutTimeMs t waitButtonTimeoutMs ≤ now
    · simp only [Phase.expire, if_pos hdue]
      trivial
    · have hsame : devStateTick d now = d := by
        simp only [devStateTick, hin.1, hin.2, expired_iff, if_neg hdue]
      rw [hsame, movedObs_self, List.append_nil]
      simpa only [Phase.expire, if_neg hdue] using hentered
  | authorized t =>
    by_cases hdue : makeTimeoutTimeMs t authWindowMs ≤ now
    · simp only [Phase.expire, if_pos hdue]
      trivial
    · have hsame : devStateTick d now = d := by
        simp only [devStateTick, hin.1, hin.2.2, expired_iff, if_neg hdue]
      rw [hsame, movedObs_self, List.append_nil]
      simpa only [Phase.expire, if_neg hdue] using hentered

end Moves

theorem window_apdu {k : Backend} {h : List Observation} {s s' : State} {amb : Ambient}
    {cmd : Option ApduCodec.ApduCmd} {r : Reply} {response : List UInt8} (hwindow : Window h s)
    (heffect : Effect k amb s.card cmd r) (hcard : s'.card = r.card) :
    Window (h ++ (signObs amb.now r.signed ++ movedObs s.card.dev r.card.dev amb.now ++
      [.exchange ⟨cmd, r.bytes⟩, .response response])) s' := by
  obtain ⟨p, hin, hentered⟩ := hwindow
  rcases heffect.device_cases with ⟨hsigned, hdev⟩ | ⟨hsigned, hdev⟩ | ⟨hash, _, _, hdev⟩
  · refine ⟨p, by rw [hcard, hdev]; exact hin, hentered.append ?_⟩
    rw [hsigned, hdev, movedObs_self]
    simp [signObs, Moves]
  · refine ⟨p.request amb.now, by rw [hcard, hdev]; exact inPhase_request hin amb.now, ?_⟩
    rw [hsigned, hdev]
    have hrequest := (entered_request hin hentered amb.now).append
      (t := [.exchange ⟨cmd, r.bytes⟩, .response response]) (by simp [Moves])
    simpa [signObs] using hrequest
  · exact ⟨.idle, by rw [hcard, hdev]; exact inPhase_spend s.card.dev, trivial⟩

/-- Every step keeps the device in the phase its history last entered. -/
theorem window_step (k : Backend) (h : List Observation) (s : State) (e : Event)
    (hwindow : Window h s) : Window (h ++ (step k s e).2) (step k s e).1 := by
  have heffect := step_effect k s e
  generalize (step k s e).1 = s' at heffect
  generalize (step k s e).2 = obs at heffect
  cases heffect with
  | apdu _ heffect _ hcard => exact window_apdu hwindow heffect hcard
  | quiet _ _ _ hcard _ hobs =>
    obtain ⟨p, hin, hentered⟩ := hwindow
    refine ⟨p, by rw [hcard]; exact hin, hentered.append fun o ho => ?_⟩
    rcases hobs o ho with ⟨_, rfl⟩ | ⟨_, rfl⟩ <;> exact id
  | powerOn _ _ hcard | powerOff _ _ hcard | reset _ hcard | noPress _ _ hcard =>
    obtain ⟨p, hin, hentered⟩ := hwindow
    exact ⟨p, by rw [hcard]; exact hin, hentered.append (by simp [Moves])⟩
  | edge _ hcard =>
    obtain ⟨p, hin, hentered⟩ := hwindow
    exact ⟨p, by rw [hcard]; exact hin, hentered.append (forall_mem_ite id)⟩
  | umount _ hcard => exact ⟨.idle, by rw [hcard]; exact inPhase_init s.card.dev, trivial⟩
  | press _ _ hcard =>
    obtain ⟨p, hin, hentered⟩ := hwindow
    exact ⟨_, by rw [hcard]; exact inPhase_press hin _, entered_press hin hentered _⟩
  | tick _ hcard =>
    obtain ⟨p, hin, hentered⟩ := hwindow
    exact ⟨_, by rw [hcard]; exact inPhase_tick hin _, entered_tick hin hentered _⟩

theorem window_boot : Window [] boot := ⟨.idle, rfl, trivial⟩

theorem window_run (k : Backend) (es : List Event) : Window (history k es) (run k es) :=
  history_invariant (window_step k) window_boot es

theorem state_of_movedObs {d d' : Device} {now : Nat} (h : ∀ o ∈ movedObs d d' now, ¬ Moves o) :
    d.state = d'.state := by
  by_contra hne
  exact h (.moved d.state d'.state now) (by simp [movedObs, hne]) trivial

theorem tick_unmoved {d : Device} {now : Nat} (h : d.state = (devStateTick d now).state) :
    devStateTick d now = d := by
  cases hstate : d.state with
  | waitingButton | authorized =>
    by_cases hdue : absoluteTimeDiffUs now d.deadline ≤ 0
    · simp [devStateTick, hstate, hdue] at h
    · simp [devStateTick, hstate, hdue]
  | idle | processing => simp [devStateTick, hstate]

/-- Outside IDLE, a step that does not move the state leaves the whole device alone. -/
theorem device_unmoved (k : Backend) (s : State) (e : Event) (hopen : s.card.dev.state ≠ .idle)
    (hstill : ∀ o ∈ (step k s e).2, ¬ Moves o) : (step k s e).1.card.dev = s.card.dev := by
  have heffect := step_effect k s e
  generalize (step k s e).1 = s' at heffect
  generalize (step k s e).2 = obs at heffect hstill
  cases heffect with
  | quiet _ _ _ hcard | powerOn _ _ hcard | powerOff _ _ hcard | reset _ hcard
  | noPress _ _ hcard | edge _ hcard => rw [hcard]
  | apdu _ heffect _ hcard =>
    have hsame := state_of_movedObs fun o ho =>
      hstill o (List.mem_append_left _ (List.mem_append_right _ ho))
    rw [hcard]
    rcases heffect.device_cases with ⟨_, hdev⟩ | ⟨_, hdev⟩ | ⟨_, _, _, hdev⟩
    · exact hdev
    · rw [hdev, request_of_busy hopen]
    · rw [hdev] at hsame
      exact absurd hsame hopen
  | umount => exact absurd (state_of_movedObs hstill) hopen
  | press _ _ hcard =>
    have hsame := state_of_movedObs fun o ho => hstill o (List.mem_cons_of_mem _ ho)
    rw [hcard]
    by_cases hwaiting : s.card.dev.state = .waitingButton
    · simp [devStateButtonPressed, hwaiting] at hsame
    · exact press_of_not_waiting hwaiting _
  | tick _ hcard =>
    rw [hcard]
    exact tick_unmoved (state_of_movedObs hstill)

theorem device_unmoved_run (k : Backend) (s : State) (fs : List Event)
    (hopen : s.card.dev.state ≠ .idle) (hstill : ∀ o ∈ trace (step k) s fs, ¬ Moves o) :
    (exec (step k) s fs).card.dev = s.card.dev := by
  induction fs generalizing s with
  | nil => rfl
  | cons e fs ih =>
    have hfirst := device_unmoved k s e hopen fun o ho => hstill o (List.mem_append_left _ ho)
    rw [exec, ih _ (by rw [hfirst]; exact hopen) fun o ho => hstill o (List.mem_append_right _ ho),
      hfirst]

/-- Between steps the device is never PROCESSING, an authorization is never a consumed one,
and each window ends at the time its state was entered plus its length. Nothing that
leaves the state where it is moves the deadline. -/
theorem authorization_invariant (k : Backend) (es : List Event) :
    (run k es).card.dev.state ≠ .processing ∧
    ((run k es).card.dev.state = .authorized → (run k es).card.dev.authConsumed = false) ∧
    (devStateIsAuthorized (run k es).card.dev = true →
      (devStateConsumeAuth (run k es).card.dev).1 = true) ∧
    ((run k es).card.dev.state = .waitingButton → ∃ t, Entered (history k es) (.waiting t) ∧
      (run k es).card.dev.deadline = makeTimeoutTimeMs t waitButtonTimeoutMs) ∧
    ((run k es).card.dev.state = .authorized → ∃ t, Entered (history k es) (.authorized t) ∧
      (run k es).card.dev.deadline = makeTimeoutTimeMs t authWindowMs) ∧
    ∀ fs, (run k es).card.dev.state ≠ .idle →
      (∀ o ∈ trace (step k) (run k es) fs, ¬ Moves o) →
      (run k (es ++ fs)).card.dev.deadline = (run k es).card.dev.deadline := by
  have hlast : ∀ fs, (run k es).card.dev.state ≠ .idle →
      (∀ o ∈ trace (step k) (run k es) fs, ¬ Moves o) →
      (run k (es ++ fs)).card.dev.deadline = (run k es).card.dev.deadline := by
    intro fs hopen hstill
    rw [run_append, device_unmoved_run k _ fs hopen hstill]
  have hconsume : devStateIsAuthorized (run k es).card.dev = true →
      (devStateConsumeAuth (run k es).card.dev).1 = true := by
    rw [consume_eq_isAuthorized]
    exact id
  obtain ⟨p, hin, hentered⟩ := window_run k es
  cases p with
  | idle =>
    have hidle : (run k es).card.dev.state = .idle := hin
    exact ⟨by simp [hidle], by simp [hidle], hconsume, by simp [hidle], by simp [hidle], hlast⟩
  | waiting t =>
    exact ⟨by simp [hin.1], by simp [hin.1], hconsume, fun _ => ⟨t, hentered, hin.2⟩,
      by simp [hin.1], hlast⟩
  | authorized t =>
    exact ⟨by simp [hin.1], fun _ => hin.2.1, hconsume, by simp [hin.1],
      fun _ => ⟨t, hentered, hin.2.2⟩, hlast⟩

/-- What is done under a window is done before it closes: a signature under the window of
the press, and a press under the window of the request. -/
def InTime (past : List Observation) : Observation → Prop
  | .signCall now _ =>
    ∃ t, Entered past (.authorized t) ∧ now < makeTimeoutTimeMs t authWindowMs
  | .moved .waitingButton .authorized now =>
    ∃ t, Entered past (.waiting t) ∧ now < makeTimeoutTimeMs t waitButtonTimeoutMs
  | _ => True

/-- Every signature and every authorization of a history was in time. -/
def DeadlinesKept (h : List Observation) : Prop := AtEach InTime h

/-- The event uses a window that has closed and was not yet ticked away: a signature is
asked for, or a press confirmed, with the deadline behind. -/
def Late (s : State) : Event → Prop
  | .bulkOut bytes amb => s.card.dev.deadline ≤ amb.now ∧ ∃ hash, Signs s bytes hash
  | .poll sample => s.card.dev.deadline ≤ sample.stamp ∧ s.card.dev.state = .waitingButton ∧
      Confirms s.button sample
  | _ => False

theorem inTime_sign_iff {h : List Observation} {s : State} (hwindow : Window h s) {now : Nat}
    {hash : List UInt8} (hauth : devStateIsAuthorized s.card.dev = true) :
    InTime h (.signCall now hash) ↔ now < s.card.dev.deadline := by
  obtain ⟨p, hin, hentered⟩ := hwindow
  obtain ⟨t, rfl⟩ := (isAuthorized_iff hin).mp hauth
  rw [hin.2.2]
  constructor
  · rintro ⟨t', hentered', hlt⟩
    rwa [authorized_unique hentered hentered']
  · intro hlt
    exact ⟨t, hentered, hlt⟩

theorem inTime_press_iff {h : List Observation} {s : State} (hwindow : Window h s) {now : Nat}
    (hwaiting : s.card.dev.state = .waitingButton) :
    InTime h (.moved .waitingButton .authorized now) ↔ now < s.card.dev.deadline := by
  obtain ⟨p, hin, hentered⟩ := hwindow
  cases p with
  | idle =>
    have hidle : s.card.dev.state = .idle := hin
    exact absurd (hwaiting.symm.trans hidle) (by decide)
  | authorized t => exact absurd (hwaiting.symm.trans hin.1) (by decide)
  | waiting t =>
    rw [hin.2]
    constructor
    · rintro ⟨t', hentered', hlt⟩
      rwa [waiting_unique hentered hentered']
    · intro hlt
      exact ⟨t, hentered, hlt⟩

/-- A move that does not authorize the device is under no window. -/
theorem inTime_moved {past : List Observation} {d d' : Device} {now : Nat} {o : Observation}
    (ho : o ∈ movedObs d d' now) (hcalm : Calm d d') : InTime past o := by
  obtain ⟨hne, rfl⟩ := mem_movedObs ho
  cases hstate : d'.state with
  | authorized => exact absurd ((hcalm hstate).trans hstate.symm) hne
  | idle | waitingButton | processing => cases d.state <;> trivial

/-- An APDU is in time unless it signs with the deadline behind. -/
theorem inTime_apdu_iff {k : Backend} {h : List Observation} {s : State}
    {bytes response : List UInt8} {amb : Ambient} {r : Reply} (hwindow : Window h s)
    (hmessage : Delivers s bytes)
    (heffect : Effect k amb s.card (forwardedCmd (received s bytes)) r) :
    AtEach (fun past => InTime (h ++ past)) (signObs amb.now r.signed ++
      movedObs s.card.dev r.card.dev amb.now ++
      [.exchange ⟨forwardedCmd (received s bytes), r.bytes⟩, .response response]) ↔
        ¬ Late s (.bulkOut bytes amb) := by
  have hothers : ∀ past, ∀ o ∈ movedObs s.card.dev r.card.dev amb.now ++
      [.exchange ⟨forwardedCmd (received s bytes), r.bytes⟩, .response response],
      InTime past o := by
    intro past o ho
    simp only [List.mem_append, List.mem_cons, List.not_mem_nil, or_false] at ho
    rcases ho with ho | rfl | rfl
    · exact inTime_moved ho heffect.calm
    · trivial
    · trivial
  cases hsigned : r.signed with
  | none =>
    refine iff_of_true (atEach_of_forall fun past => hothers (h ++ past)) ?_
    rintro ⟨_, hash, hsigns⟩
    rw [(heffect.signed_iff hash).mpr hsigns.2] at hsigned
    cases hsigned
  | some hash =>
    obtain ⟨hasks, hauth⟩ := (heffect.signed_iff hash).mp hsigned
    have hrest : AtEach (fun past => InTime (h ++ .signCall amb.now hash :: past))
        (movedObs s.card.dev r.card.dev amb.now ++
          [.exchange ⟨forwardedCmd (received s bytes), r.bytes⟩, .response response]) :=
      atEach_of_forall fun past => hothers (h ++ .signCall amb.now hash :: past)
    simp only [signObs, Option.toList_some, List.map_cons, List.map_nil, List.cons_append,
      List.nil_append, atEach_cons, List.append_nil, hrest, and_true]
    rw [inTime_sign_iff hwindow hauth, ← Nat.not_le]
    exact not_congr ⟨fun hlate => ⟨hlate, hash, hmessage, hasks, hauth⟩, fun hlate => hlate.1⟩

/-- A confirmed press is in time unless it authorizes with the deadline behind. -/
theorem inTime_poll_iff {h : List Observation} {s : State} {sample : Sample}
    (hwindow : Window h s) (hconfirms : Confirms s.button sample) :
    AtEach (fun past => InTime (h ++ past)) (.pressConfirmed sample.stamp ::
      movedObs s.card.dev (devStateButtonPressed s.card.dev sample.stamp) sample.stamp) ↔
        ¬ Late s (.poll sample) := by
  by_cases hwaiting : s.card.dev.state = .waitingButton
  · have hpressed : Window (h ++ [.pressConfirmed sample.stamp]) s := by
      obtain ⟨p, hin, hentered⟩ := hwindow
      exact ⟨p, hin, hentered.append (by simp [Moves])⟩
    rw [movedObs_press hwaiting, atEach_cons, atEach_cons, inTime_press_iff hpressed hwaiting,
      ← Nat.not_le]
    simp only [InTime, atEach_nil, and_true, true_and]
    exact not_congr ⟨fun hlate => ⟨hlate, hwaiting, hconfirms⟩, fun hlate => hlate.1⟩
  · refine iff_of_true ?_ fun hlate => hwaiting hlate.2.1
    simp [press_of_not_waiting hwaiting, InTime]

/-- A step is in time exactly when its event is not late. -/
theorem inTime_step_iff (k : Backend) (h : List Observation) (s : State) (e : Event)
    (hwindow : Window h s) :
    AtEach (fun past => InTime (h ++ past)) (step k s e).2 ↔ ¬ Late s e := by
  have heffect := step_effect k s e
  generalize (step k s e).1 = s' at heffect
  generalize (step k s e).2 = obs at heffect
  cases heffect with
  | quiet hmessage hpoll _ _ _ hobs =>
    refine iff_of_true (atEach_of_forall fun past o ho => ?_) ?_
    · rcases hobs o ho with ⟨_, rfl⟩ | ⟨_, rfl⟩ <;> trivial
    · cases e with
      | bulkOut bytes amb =>
        rintro ⟨_, hash, hsigns⟩
        exact hmessage bytes amb rfl hsigns.1
      | poll sample => exact absurd rfl (hpoll sample)
      | inRead | inComplete | ccidTask | busReset | umount | gpioIrq | tick => exact id
  | powerOn hmessage | powerOff hmessage =>
    refine iff_of_true (by simp [InTime]) ?_
    rintro ⟨_, hash, hsigns⟩
    exact hmessage hsigns.1
  | apdu hmessage heffect => exact inTime_apdu_iff hwindow hmessage heffect
  | reset => exact iff_of_true (by simp [InTime]) id
  | umount =>
    exact iff_of_true (atEach_of_forall fun past o ho => inTime_moved ho (calm_init _)) id
  | edge =>
    exact iff_of_true (atEach_of_forall fun past => forall_mem_ite trivial) id
  | noPress hconfirms => exact iff_of_true (atEach_nil _) fun hlate => hconfirms hlate.2.2
  | press hconfirms => exact inTime_poll_iff hwindow hconfirms
  | tick =>
    exact iff_of_true (atEach_of_forall fun past o ho => inTime_moved ho (calm_tick _ _)) id

/-- The deadlines are kept in exactly those runs none of whose steps is late. -/
theorem deadlines_kept_iff (k : Backend) (es : List Event) :
    DeadlinesKept (history k es) ↔ AllSteps (step k) (fun s e => ¬ Late s e) boot es :=
  atEach_trace_iff (h := []) (inTime_step_iff k) (window_step k) window_boot es

theorem late_breaks (k : Backend) (es : List Event) (e : Event) (hlate : Late (run k es) e) :
    ¬ DeadlinesKept (history k (es ++ [e])) := by
  intro hkept
  rw [DeadlinesKept, history_append, atEach_append] at hkept
  have hlast : AtEach (fun past => InTime (history k es ++ past)) (step k (run k es) e).2 := by
    simpa only [trace, List.append_nil] using hkept.2
  exact (inTime_step_iff k _ _ e (window_run k es)).mp hlast hlate

/-- Three passes of the main loop: the login and a first request, the press, and then
nothing until the tick just before the end of the window. -/
def waitedRun : List Event :=
  [.bulkOut (hostMessage pcToRdrIccPowerOn []) (ambientAt 0),
    apduAt 1 selectApdu, apduAt 2 verifyApdu, apduAt 3 signApdu, .ccidTask true,
    .poll { now := 4, pinHigh := true, stamp := 4 }, .tick 5, .gpioIrq buttonPin 1000000,
    .ccidTask true, .poll { now := 1030000, pinHigh := false, stamp := 1030000 },
    .tick 1030001, .ccidTask true, .poll { now := 11029998, pinHigh := true, stamp := 11029998 },
    .tick 11029999]

/-- A request that arrives a microsecond after that tick is signed, ten seconds after the
press. -/
theorem deadlines_missed :
    FollowsLoop (waitedRun ++ [apduAt 11030000 signApdu]) ∧
      ClockRuns (waitedRun ++ [apduAt 11030000 signApdu]) ∧
      ¬ DeadlinesKept (history sampleBackend (waitedRun ++ [apduAt 11030000 signApdu])) := by
  have hsign : .signCall 11030000 (List.replicate 32 0xAB) ∈
      (step sampleBackend (run sampleBackend waitedRun) (apduAt 11030000 signApdu)).2 :=
    List.mem_of_getElem? (i := 0) rfl
  obtain ⟨bytes, amb, heq, _, hsigns⟩ := (signCall_mem_iff _ _ _ _ _).mp hsign
  cases heq
  exact ⟨by decide, by decide, late_breaks _ _ _ ⟨by decide, _, hsigns⟩⟩

end AuthorizationWindow
