import Ward3n.AuthorizationWindow

/-!
# The order of request and press

The interrupt records one falling edge and keeps it until a poll finds it old
enough. A request that arrives in between starts to wait for a press with an
edge already on record, and the next poll takes that edge for the press the
request asked for. An edge recorded while the device waits is always newer than
the request.
-/

namespace PressOrder

open ApduCodec CryptoBackend DeviceState UserButton PivApplet CcidDriver Firmware TracedRuns
  AppletEffects FirmwareSteps SessionGate AuthorizationWindow

/-- The device waits for a press. -/
def Waiting (s : State) : Prop := s.card.dev.state = .waitingButton

/-- An edge is on record. -/
def EdgePending (s : State) : Prop := s.button.edgeSeen = true

/-- The message is a GENERAL AUTHENTICATE that makes an idle device wait for a press. -/
structure Requests (s : State) (bytes : List UInt8) : Prop where
  delivers : Delivers s bytes
  asks : ∃ hash, AsksToSign s.card (forwardedCmd (received s bytes)) hash
  idle : s.card.dev.state = .idle

/-- The request the device waits for came after this part of the run. -/
def RequestedAfter (k : Backend) (es before : List Event) : Prop :=
  ∃ bytes amb after, Requests (run k before) bytes ∧
    BeganWith (step k) Waiting boot es before (.bulkOut bytes amb) after

/-- The edge on record, the one a poll measures its age from, came after this part of the
run. -/
def EdgeAfter (k : Backend) (es before : List Event) : Prop :=
  ∃ now after, (run k es).button.edgeTime = now ∧
    BeganWith (step k) EdgePending boot es before (.gpioIrq buttonPin now) after

/-- The edge on record came after the request the device waits for. -/
def EdgeFollowsRequest (k : Backend) (es : List Event) : Prop :=
  ∃ before before', RequestedAfter k es before ∧ EdgeAfter k es before' ∧
    before.length < before'.length

/-- A poll at the end of the run that moves the device from WAITING_BUTTON to AUTHORIZED
confirms an edge that came after the request. -/
def PollFollowsRequest (k : Backend) (es : List Event) (sample : Sample) : Prop :=
  Waiting (run k es) → (step k (run k es) (.poll sample)).1.card.dev.state = .authorized →
    EdgeFollowsRequest k es

/-- A request makes the device wait while an edge is on record. -/
def RequestsOverEdge (s : State) : Event → Prop
  | .bulkOut bytes _ => Requests s bytes ∧ EdgePending s
  | _ => False

section Steps

variable (k : Backend) {s : State} {e : Event}

/-- Only a request makes the device wait. -/
theorem request_of_waiting (hfresh : ¬ Waiting s) (hwaiting : Waiting (step k s e).1) :
    ∃ bytes amb, e = .bulkOut bytes amb ∧ Requests s bytes := by
  have heffect := step_effect k s e
  generalize (step k s e).1 = s' at heffect hwaiting
  generalize (step k s e).2 = obs at heffect
  have hsame : s'.card.dev = s.card.dev → False := by
    intro hdev
    rw [Waiting, hdev] at hwaiting
    exact hfresh hwaiting
  cases heffect with
  | quiet _ _ _ hcard | powerOn _ _ hcard | powerOff _ _ hcard | reset _ hcard | edge _ hcard
  | noPress _ _ hcard => exact (hsame (by rw [hcard])).elim
  | @apdu bytes _ amb _ r hdelivers heffect _ hcard =>
    rw [Waiting, hcard] at hwaiting
    rcases heffect.waiting_iff.mp hwaiting with hold | ⟨hidle, hasks⟩
    · exact absurd hold hfresh
    · exact ⟨bytes, amb, rfl, hdelivers, hasks, hidle⟩
  | umount _ hcard =>
    rw [Waiting, hcard] at hwaiting
    cases hwaiting
  | press _ _ hcard =>
    have hdev : s'.card.dev = s.card.dev := by
      rw [hcard]
      exact press_of_not_waiting hfresh _
    exact (hsame hdev).elim
  | tick _ hcard =>
    rw [Waiting, hcard] at hwaiting
    exact absurd (waiting_of_tick hwaiting) hfresh

/-- A request makes the device wait, and does not touch the button. -/
theorem waiting_of_request {bytes : List UInt8} (hrequests : Requests s bytes) (amb : Ambient) :
    Waiting (step k s (.bulkOut bytes amb)).1 ∧
      (step k s (.bulkOut bytes amb)).1.button = s.button := by
  have heffect := step_effect k s (.bulkOut bytes amb)
  generalize (step k s (.bulkOut bytes amb)).1 = s' at heffect
  generalize (step k s (.bulkOut bytes amb)).2 = obs at heffect
  cases heffect with
  | quiet hother => exact absurd hrequests.delivers (hother bytes amb rfl)
  | powerOn hother | powerOff hother => exact absurd hrequests.delivers hother
  | apdu _ heffect _ hcard hbutton =>
    refine ⟨?_, hbutton⟩
    rw [Waiting, hcard]
    exact heffect.waiting_iff.mpr (Or.inr ⟨hrequests.idle, hrequests.asks⟩)

/-- Only an edge on the button pin is put on record. -/
theorem edge_of_pending (hfresh : ¬ EdgePending s) (hpending : EdgePending (step k s e).1) :
    ∃ now, e = .gpioIrq buttonPin now ∧ (step k s e).1.button.edgeTime = now := by
  have hclear : s.button.edgeSeen = false := by simpa [EdgePending] using hfresh
  rcases touchesButton_cases e with ⟨gpio, now, rfl⟩ | ⟨sample, rfl⟩ | hother
  · rcases gpioIrq_edgeSeen s.button gpio now hpending with hold | rfl
    · exact absurd hold hfresh
    · refine ⟨now, rfl, ?_⟩
      rw [step, gpioIrq_fresh hclear]
  · have hnothing : (step k s (.poll sample)).1.button = s.button := by
      simp only [step, buttonWasPressed, hclear]
      rfl
    rw [EdgePending, hnothing] at hpending
    exact absurd hpending hfresh
  · rw [EdgePending, button_untouched k s hother] at hpending
    exact absurd hpending hfresh

/-- An edge on record keeps its time. -/
theorem edgeTime_step (hpending : EdgePending s) :
    (step k s e).1.button.edgeTime = s.button.edgeTime := by
  rcases touchesButton_cases e with ⟨gpio, now, rfl⟩ | ⟨sample, rfl⟩ | hother
  · simp only [step, gpioIrq_pending hpending]
  · exact poll_edgeTime s.button s.card.dev sample
  · rw [button_untouched k s hother]

end Steps

section Runs

variable (k : Backend) {es : List Event}

theorem run_concat (es : List Event) (e : Event) : run k (es ++ [e]) = (step k (run k es) e).1 :=
  run_append k es [e]

/-- A device that waits was asked to. -/
theorem exists_requestedAfter (hwaiting : Waiting (run k es)) :
    ∃ before, RequestedAfter k es before := by
  have hstart : ¬ Waiting boot := by
    intro hwaiting
    cases hwaiting
  obtain ⟨before, e, after, hbegan⟩ := exists_beganWith hstart hwaiting
  obtain ⟨bytes, amb, rfl, hrequests⟩ := request_of_waiting k hbegan.fresh hbegan.entered
  exact ⟨before, bytes, amb, after, hrequests, hbegan⟩

/-- The request stays the one the device waits for as long as it waits. -/
theorem RequestedAfter.concat {before : List Event} {e : Event} (h : RequestedAfter k es before)
    (hwaiting : Waiting (run k (es ++ [e]))) : RequestedAfter k (es ++ [e]) before := by
  obtain ⟨bytes, amb, after, hrequests, hbegan⟩ := h
  exact ⟨bytes, amb, after ++ [e], hrequests, hbegan.concat hwaiting⟩

/-- The edge stays on record, with its time, until it is cleared. -/
theorem EdgeAfter.concat {before : List Event} {e : Event} (h : EdgeAfter k es before)
    (hbefore : EdgePending (run k es)) (hpending : EdgePending (run k (es ++ [e]))) :
    EdgeAfter k (es ++ [e]) before := by
  obtain ⟨now, after, htime, hbegan⟩ := h
  refine ⟨now, after ++ [e], ?_, hbegan.concat hpending⟩
  rw [run_concat, edgeTime_step k hbefore, htime]

theorem RequestedAfter.shorter {before : List Event} (h : RequestedAfter k es before) :
    before.length < es.length := by
  obtain ⟨_, _, _, _, hbegan⟩ := h
  exact hbegan.shorter

theorem EdgeAfter.shorter {before : List Event} (h : EdgeAfter k es before) :
    before.length < es.length := by
  obtain ⟨_, _, _, hbegan⟩ := h
  exact hbegan.shorter

/-- The step that puts an edge on record. -/
theorem edgeAfter_last {e : Event} (hfresh : ¬ EdgePending (run k es))
    (hpending : EdgePending (run k (es ++ [e]))) : EdgeAfter k (es ++ [e]) es := by
  have hstep := hpending
  rw [run_concat] at hstep
  obtain ⟨now, rfl, htime⟩ := edge_of_pending k hfresh hstep
  refine ⟨now, [], ?_, beganWith_last hfresh hpending⟩
  rw [run_concat, htime]

/-- An edge on record came from the button pin. -/
theorem exists_edgeAfter (hpending : EdgePending (run k es)) :
    ∃ before, EdgeAfter k es before := by
  induction es using List.reverseRecOn with
  | nil => cases hpending
  | append_singleton es e ih =>
    by_cases hrecorded : EdgePending (run k es)
    · obtain ⟨before, hedge⟩ := ih hrecorded
      exact ⟨before, hedge.concat k hrecorded hpending⟩
    · exact ⟨es, edgeAfter_last k hrecorded hpending⟩

/-- While no request falls on an edge on record, an edge on record in a waiting device is
newer than the request. Induction on the run: the last step keeps both, records the edge,
or is a request, which finds no edge. -/
theorem edge_follows_request
    (hguard : AllSteps (step k) (fun s e => ¬ RequestsOverEdge s e) boot es)
    (hwaiting : Waiting (run k es)) (hpending : EdgePending (run k es)) :
    EdgeFollowsRequest k es := by
  induction es using List.reverseRecOn with
  | nil => cases hwaiting
  | append_singleton es e ih =>
    obtain ⟨hguard', hlast, _⟩ := allSteps_append.mp hguard
    by_cases hwaited : Waiting (run k es)
    · by_cases hrecorded : EdgePending (run k es)
      · obtain ⟨before, before', hrequest, hedge, horder⟩ := ih hguard' hwaited hrecorded
        exact ⟨before, before', hrequest.concat k hwaiting, hedge.concat k hrecorded hpending,
          horder⟩
      · obtain ⟨before, hrequest⟩ := exists_requestedAfter k hwaited
        exact ⟨before, es, hrequest.concat k hwaiting, edgeAfter_last k hrecorded hpending,
          hrequest.shorter k⟩
    · rw [run_concat] at hwaiting hpending
      obtain ⟨bytes, amb, rfl, hrequests⟩ := request_of_waiting k hwaited hwaiting
      rw [EdgePending, (waiting_of_request k hrequests amb).2] at hpending
      exact absurd ⟨hrequests, hpending⟩ hlast

/-- A poll that confirms an edge older than the request authorizes the request all the same. -/
theorem not_follows_of_older {before before' : List Event} {sample : Sample}
    (hrequest : RequestedAfter k es before) (hedge : EdgeAfter k es before')
    (holder : before'.length ≤ before.length) (hconfirms : Confirms (run k es).button sample) :
    ¬ PollFollowsRequest k es sample := by
  intro hfollows
  have hwaiting : Waiting (run k es) := by
    obtain ⟨_, _, _, _, hbegan⟩ := hrequest
    exact hbegan.holds
  have hauthorized : (step k (run k es) (.poll sample)).1.card.dev.state = .authorized := by
    rcases poll_cases (run k es).button (run k es).card.dev sample with ⟨_, heq⟩ | ⟨hnot, _⟩
    · simp only [step, heq]
      exact congrArg Device.state (if_pos hwaiting)
    · exact absurd hconfirms hnot
  obtain ⟨found, found', hrequest', hedge', horder⟩ := hfollows hwaiting hauthorized
  obtain ⟨_, _, _, _, hbegan⟩ := hrequest
  obtain ⟨_, _, _, _, hbegan'⟩ := hrequest'
  obtain ⟨_, _, _, hedge⟩ := hedge
  obtain ⟨_, _, _, hedge'⟩ := hedge'
  rw [hbegan'.unique hbegan, hedge'.unique hedge] at horder
  omega

end Runs

/-- Once the edge on record is old enough, a poll that finds the pin low confirms it. -/
theorem confirms_of_pending {b : Button} (hpending : b.edgeSeen = true) {sample : Sample}
    (hold : b.edgeTime + 30000 ≤ sample.now) (hlow : sample.pinHigh = false) :
    Confirms b sample := by
  refine ⟨hpending, ?_, hlow⟩
  rw [elapsedMs_lt_iff]
  omega

/-- The device was idle until the request: the edge on record is from before it, and the
first poll that finds it old enough authorizes the request. -/
theorem not_follows_of_requestsOverEdge (k : Backend) {es : List Event} {e : Event}
    (hover : RequestsOverEdge (run k es) e) {sample : Sample}
    (hold : (run k es).button.edgeTime + 30000 ≤ sample.now) (hlow : sample.pinHigh = false) :
    ¬ PollFollowsRequest k (es ++ [e]) sample := by
  cases e with
  | bulkOut bytes amb =>
    obtain ⟨hrequests, hpending⟩ := hover
    obtain ⟨hwaiting, hbutton⟩ := waiting_of_request k hrequests amb
    have hfresh : ¬ Waiting (run k es) := by
      rw [Waiting, hrequests.idle]
      decide
    rw [← run_concat] at hwaiting hbutton
    have hrequest : RequestedAfter k (es ++ [.bulkOut bytes amb]) es :=
      ⟨bytes, amb, [], hrequests, beganWith_last hfresh hwaiting⟩
    obtain ⟨before, hedge⟩ := exists_edgeAfter k hpending
    have hstill : EdgePending (run k (es ++ [.bulkOut bytes amb])) := by
      rw [EdgePending, hbutton]
      exact hpending
    refine not_follows_of_older k hrequest (hedge.concat k hpending hstill)
      (Nat.le_of_lt (hedge.shorter k)) ?_
    rw [hbutton]
    exact confirms_of_pending hpending hold hlow
  | inRead | inComplete | ccidTask | busReset | umount | gpioIrq | poll | tick => exact hover.elim

/-- Behind a run in which no request fell on an edge on record, a poll that authorizes confirms an
edge newer than the request. -/
theorem poll_follows_request (k : Backend) {es : List Event}
    (hguard : AllSteps (step k) (fun s e => ¬ RequestsOverEdge s e) boot es) (sample : Sample) :
    PollFollowsRequest k es sample := by
  intro hwaiting hauthorized
  have hpending : EdgePending (run k es) := by
    rcases poll_cases (run k es).button (run k es).card.dev sample with
      ⟨hconfirms, _⟩ | ⟨_, _, heq, _⟩
    · exact hconfirms.1
    · simp only [step, heq] at hauthorized
      exact absurd (hwaiting.symm.trans hauthorized) (by decide)
  exact edge_follows_request k hguard hwaiting hpending

/-- The polls that the run itself makes -/
theorem polls_follow_requests (k : Backend) {es : List Event}
    (hguard : AllSteps (step k) (fun s e => ¬ RequestsOverEdge s e) boot es)
    {before after : List Event} {sample : Sample} (hsplit : es = before ++ .poll sample :: after) :
    PollFollowsRequest k before sample := by
  rw [hsplit] at hguard
  exact poll_follows_request k (allSteps_append.mp hguard).1 sample

/-- Every poll that turns a request into an authorization confirms an edge newer than the
request, at whatever point of the run it comes, if and only if no request of the run falls
on an edge that is on record. -/
theorem authorization_follows_request_iff (k : Backend) (es : List Event) :
    (∀ before sample, before <+: es → PollFollowsRequest k before sample) ↔
      AllSteps (step k) (fun s e => ¬ RequestsOverEdge s e) boot es := by
  constructor
  · intro hfollows
    refine allSteps_iff.mpr fun before e after hsplit hover => ?_
    have hprefix : before ++ [e] <+: es := ⟨after, by simp [hsplit]⟩
    exact not_follows_of_requestsOverEdge k hover (Nat.le_refl _) rfl
      (hfollows (before ++ [e]) ⟨(run k before).button.edgeTime + 30000, false, 0⟩ hprefix)
  · rintro hguard before sample ⟨after, rfl⟩
    exact poll_follows_request k (allSteps_append.mp hguard).1 sample

/-- One pass of the main loop with the login, and a press that nobody asked for. -/
def pressedEarly : List Event :=
  [.bulkOut (hostMessage pcToRdrIccPowerOn []) (ambientAt 0),
    apduAt 1 selectApdu, apduAt 2 verifyApdu, .ccidTask true,
    .poll { now := 4, pinHigh := true, stamp := 4 }, .tick 5, .gpioIrq buttonPin 1000000]

/-- The request comes 20 ms later, still within the debounce time. -/
def requestedLate : List Event := pressedEarly ++ [apduAt 1020000 signApdu] ++ [.ccidTask true]

def debouncedSample : Sample := { now := 1030000, pinHigh := false, stamp := 1030000 }

/-- The next poll of the loop confirms the press, and the request is authorized by it. -/
theorem earlier_press_authorizes :
    FollowsLoop (requestedLate ++ [.poll debouncedSample]) ∧
      ClockRuns (requestedLate ++ [.poll debouncedSample]) ∧
      ¬ PollFollowsRequest sampleBackend requestedLate debouncedSample := by
  refine ⟨by decide, by decide, ?_⟩
  have hfresh : ¬ Waiting (run sampleBackend pressedEarly) := by
    intro hwaiting
    cases hwaiting
  have hasked : Waiting (run sampleBackend (pressedEarly ++ [apduAt 1020000 signApdu])) := rfl
  have hrequest : RequestedAfter sampleBackend (pressedEarly ++ [apduAt 1020000 signApdu])
      pressedEarly := by
    have hstep := hasked
    rw [run_concat] at hstep
    obtain ⟨bytes, amb, heq, hrequests⟩ := request_of_waiting sampleBackend hfresh hstep
    exact ⟨bytes, amb, [], hrequests, heq ▸ beganWith_last hfresh hasked⟩
  have hrecorded : EdgePending (run sampleBackend pressedEarly) := rfl
  obtain ⟨before, hedge⟩ := exists_edgeAfter sampleBackend hrecorded
  have hpending : EdgePending (run sampleBackend (pressedEarly ++ [apduAt 1020000 signApdu])) := rfl
  exact not_follows_of_older sampleBackend (hrequest.concat sampleBackend rfl)
    ((hedge.concat sampleBackend hrecorded hpending).concat sampleBackend hpending rfl)
    (Nat.le_of_lt (hedge.shorter sampleBackend)) (confirms_of_pending rfl (by decide) rfl)

end PressOrder
