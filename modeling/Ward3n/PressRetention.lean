import Ward3n.AuthenticationTemplate
import Ward3n.AuthorizationWindow
import Ward3n.KeyStoreBoots

/-!
# Presses lost to requests that cannot be signed

The applet takes challenges of 1 to 64 bytes, the key store signs 32 bytes and
nothing else, and the authorization is consumed between the two checks. A
request with a challenge of another length therefore costs the user a press, or
asks for one in vain. No other request that fails does.
-/

namespace PressRetention

open ApduCodec CryptoBackend DeviceState PivApplet CcidDriver Firmware TracedRuns AppletEffects
  FirmwareSteps SessionGate KeyStoreBoots AuthenticationTemplate AuthorizationWindow

/-- No answer to this request can be a signature: its data holds no challenge of 32 bytes. -/
def Unsignable (cmd : ApduCmd) : Prop :=
  ∀ hash, Carries (CellMemory.read cmd.data cmd.lc) hash → hash.length ≠ 32

/-- What a failed GENERAL AUTHENTICATE leaves of the device. -/
structure Retains (cmd : ApduCmd) (d d' : Device) (sw : Nat) : Prop where
  authorized : sw ≠ swOk → devStateIsAuthorized d = true →
    devStateIsAuthorized d' = true ∧ d'.deadline = d.deadline
  idle : Unsignable cmd → d.state = .idle → d'.state = .idle

/-- The request passes every check of the applet, with a challenge that is not a hash, while
there is an authorization to lose or one that would be asked for. -/
structure Wastes (card : Card) (cmd : ApduCmd) : Prop where
  selected : card.piv.selected = true
  admitted : Admitted card.piv cmd
  challenge : ∃ hash, Carries (CellMemory.read cmd.data cmd.lc) hash ∧ hash.length ≠ 32
  device : devStateIsAuthorized card.dev = true ∨ card.dev.state = .idle

section Replies

variable {k : Backend} {amb : Ambient} {card : Card} {cmd : ApduCmd} {r : Reply}

theorem retains_same (d : Device) (sw : Nat) : Retains cmd d d sw :=
  ⟨fun _ hauth => ⟨hauth, rfl⟩, fun _ hidle => hidle⟩

theorem not_authorized_of_idle {d : Device} (h : d.state = .idle) :
    devStateIsAuthorized d = false := by
  simp [devStateIsAuthorized, h]

theorem wastes_lost (heffect : Effect k amb card (some cmd) r) (hcmd : Dispatched card cmd 0x87)
    (hlc : cmd.lc ≤ 255) (hwastes : Wastes card cmd) : ¬ Retains cmd card.dev r.card.dev r.sw := by
  intro hretains
  obtain ⟨hash, hcarries, hlen⟩ := hwastes.challenge
  have hrequest := (requestedChallenge_ok_iff hlc).mpr ⟨hwastes.admitted, hcarries⟩
  have hunsigned : cryptoSign k amb.pkSign cmd.p2 cmd.p1 hash 72 = [] :=
    cryptoSign_of_length_ne k amb.pkSign cmd.p2 cmd.p1 hlen 72
  have hunsignable : Unsignable cmd := by
    intro hash' hcarries'
    have hrequest' := (requestedChallenge_ok_iff hlc).mpr ⟨hwastes.admitted, hcarries'⟩
    rw [hrequest] at hrequest'
    cases hrequest'
    exact hlen
  rcases heffect.authenticate_cases hcmd with ⟨_, herror, _⟩ | ⟨hash', hok, hcases⟩
  · rw [hrequest] at herror
    cases herror
  rw [hrequest] at hok
  cases hok
  rcases hcases with ⟨hauth, rfl⟩ | ⟨hauth, _, rfl⟩ | ⟨_, hsigned, _⟩
  · have hidle : card.dev.state = .idle := by
      rcases hwastes.device with hopen | hidle
      · rw [hauth] at hopen
        cases hopen
      · exact hidle
    have hstill := hretains.idle hunsignable hidle
    simp [devStateRequestAuth, hidle] at hstill
  · have hkept := (hretains.authorized (show swUnknown ≠ swOk by decide) hauth).1
    have hspent : (spend card.dev).state = .idle := rfl
    rw [not_authorized_of_idle hspent] at hkept
    cases hkept
  · exact hsigned hunsigned

theorem retains_of_not_wastes (hinit : k.initialized = true) (hpk : amb.pkSign.Succeeds)
    (heffect : Effect k amb card (some cmd) r) (hcmd : Dispatched card cmd 0x87)
    (hlc : cmd.lc ≤ 255) (hwastes : ¬ Wastes card cmd) :
    Retains cmd card.dev r.card.dev r.sw := by
  rcases heffect.authenticate_cases hcmd with ⟨_, _, rfl⟩ | ⟨hash, hok, hcases⟩
  · exact retains_same card.dev _
  obtain ⟨hadmitted, hcarries⟩ := (requestedChallenge_ok_iff hlc).mp hok
  by_cases hlen : hash.length = 32
  · have hsignable : ¬ Unsignable cmd := fun h => h hash hcarries hlen
    rcases hcases with ⟨hauth, rfl⟩ | ⟨_, hnone, _⟩ | ⟨_, _, rfl⟩
    · refine ⟨fun _ hopen => ?_, fun h => absurd h hsignable⟩
      rw [hauth] at hopen
      cases hopen
    · rw [hadmitted.keyRef, hadmitted.alg] at hnone
      exact absurd hnone (cryptoSign_ne_nil hinit hpk hlen)
    · exact ⟨fun hfailed => absurd rfl hfailed, fun h => absurd h hsignable⟩
  · have hclosed : devStateIsAuthorized card.dev ≠ true ∧ card.dev.state ≠ .idle := by
      constructor
      · exact fun hauth => hwastes ⟨hcmd.1, hadmitted, ⟨hash, hcarries, hlen⟩, Or.inl hauth⟩
      · exact fun hidle => hwastes ⟨hcmd.1, hadmitted, ⟨hash, hcarries, hlen⟩, Or.inr hidle⟩
    exact ⟨fun _ hauth => absurd hauth hclosed.1, fun _ hidle => absurd hidle hclosed.2⟩

/-- A GENERAL AUTHENTICATE leaves the device what it should exactly when it is not wasteful. -/
theorem retains_iff (hinit : k.initialized = true) (hpk : amb.pkSign.Succeeds)
    (heffect : Effect k amb card (some cmd) r) (hcla : cmd.cla = 0x00) (hins : cmd.ins = 0x87)
    (hlc : cmd.lc ≤ 255) : Retains cmd card.dev r.card.dev r.sw ↔ ¬ Wastes card cmd := by
  cases hselected : card.piv.selected with
  | false =>
    rw [heffect.notSelected hselected hcla (by rw [hins]; decide)]
    refine iff_of_true (retains_same card.dev _) fun hwastes => ?_
    rw [hwastes.selected] at hselected
    cases hselected
  | true =>
    have hcmd : Dispatched card cmd 0x87 := ⟨hselected, hcla, hins⟩
    constructor
    · intro hretains hwastes
      exact wastes_lost heffect hcmd hlc hwastes hretains
    · exact retains_of_not_wastes hinit hpk heffect hcmd hlc

end Replies

/-- A message that hands this GENERAL AUTHENTICATE to the applet. -/
structure Asks (s : State) (bytes : List UInt8) (cmd : ApduCmd) : Prop where
  delivers : Delivers s bytes
  parsed : forwardedCmd (received s bytes) = some cmd
  cla : cmd.cla = 0x00
  ins : cmd.ins = 0x87

/-- A step that answers a GENERAL AUTHENTICATE with anything but 9000 leaves an authorization
as it was, and asks for none that no signature could follow. The signature primitive is
taken to succeed. -/
def KeepsPress (k : Backend) (s : State) : Event → Prop
  | .bulkOut bytes amb => amb.pkSign.Succeeds → ∀ cmd, Asks s bytes cmd →
      ∀ x, .exchange x ∈ (step k s (.bulkOut bytes amb)).2 →
        Retains cmd s.card.dev (step k s (.bulkOut bytes amb)).1.card.dev (statusWord x.answer)
  | _ => True

/-- The event delivers a wasteful request. -/
def Wasteful (s : State) : Event → Prop
  | .bulkOut bytes amb => amb.pkSign.Succeeds ∧ ∃ cmd, Asks s bytes cmd ∧ Wastes s.card cmd
  | _ => False

/-- A message that asks is answered by one exchange, as a row of the table of effects. -/
theorem asks_effect (k : Backend) (amb : Ambient) {s : State} {bytes : List UInt8} {cmd : ApduCmd}
    (h : Asks s bytes cmd) :
    ∃ r, Effect k amb s.card (some cmd) r ∧
      (step k s (.bulkOut bytes amb)).1.card = r.card ∧
      ∀ x, .exchange x ∈ (step k s (.bulkOut bytes amb)).2 ↔ x = ⟨some cmd, r.bytes⟩ := by
  have heffect := step_effect k s (.bulkOut bytes amb)
  generalize (step k s (.bulkOut bytes amb)).1 = s' at heffect
  generalize (step k s (.bulkOut bytes amb)).2 = obs at heffect
  cases heffect with
  | quiet hother => exact absurd h.delivers (hother bytes amb rfl)
  | powerOn hother | powerOff hother => exact absurd h.delivers hother
  | @apdu _ _ _ _ r _ heffect _ hcard =>
    rw [h.parsed] at heffect
    refine ⟨r, heffect, hcard, fun x => ?_⟩
    rw [h.parsed]
    constructor
    · intro hmem
      simp only [List.mem_append, List.mem_cons, List.not_mem_nil, or_false, reduceCtorEq,
        Observation.exchange.injEq] at hmem
      rcases hmem with (hsign | hmoved) | hx
      · obtain ⟨_, _, heq⟩ := mem_signObs.mp hsign
        cases heq
      · cases (mem_movedObs hmoved).2
      · exact hx
    · rintro rfl
      simp

theorem keepsPress_iff {k : Backend} (hk : Booted k) (s : State) (e : Event) :
    KeepsPress k s e ↔ ¬ Wasteful s e := by
  cases e with
  | bulkOut bytes amb =>
    constructor
    · rintro hkeeps ⟨hpk, cmd, hasks, hwastes⟩
      obtain ⟨r, heffect, hcard, hexchange⟩ := asks_effect k amb hasks
      have hretains := hkeeps hpk cmd hasks _ ((hexchange _).mpr rfl)
      have hlc := (apduParse_accepted hasks.parsed).lc_le
      rw [hcard, heffect.statusWord_bytes] at hretains
      exact (retains_iff hk.initialized hpk heffect hasks.cla hasks.ins hlc.1).mp hretains hwastes
    · intro hwasteful hpk cmd hasks x hx
      obtain ⟨r, heffect, hcard, hexchange⟩ := asks_effect k amb hasks
      have hlc := (apduParse_accepted hasks.parsed).lc_le
      rw [(hexchange x).mp hx, hcard, heffect.statusWord_bytes]
      apply (retains_iff hk.initialized hpk heffect hasks.cla hasks.ins hlc.1).mpr
      exact fun hwastes => hwasteful ⟨hpk, cmd, hasks, hwastes⟩
  | inRead | inComplete | ccidTask | busReset | umount | gpioIrq | poll | tick =>
    exact iff_of_true trivial id

/-- Along every run from boot, failed requests keep the user's press exactly when none of
them is wasteful. -/
theorem press_kept_iff (k : Backend) (hk : Booted k) (es : List Event) :
    AllSteps (step k) (KeepsPress k) boot es ↔
      AllSteps (step k) (fun s e => ¬ Wasteful s e) boot es :=
  allSteps_congr (keepsPress_iff hk) boot es

/-- The login, a first request and the press that confirms it, up to the next tick. -/
def pressedLoop : List Event := waitedRun.take 11

/-- The key store of a device after its first boot. -/
def bootedBackend : Backend := (sampleBoot.init erasedFlash).2.1

theorem bootedBackend_booted : Booted bootedBackend :=
  ⟨sampleBoot.calls, sampleBoot.ram, erasedFlash, _, rfl⟩

theorem press_kept_iff_sample :
    AllSteps (step bootedBackend) (KeepsPress bootedBackend) boot pressedLoop ↔
      AllSteps (step bootedBackend) (fun s e => ¬ Wasteful s e) boot pressedLoop :=
  press_kept_iff bootedBackend bootedBackend_booted pressedLoop

/-- GENERAL AUTHENTICATE with a challenge of 20 bytes. -/
def shortHash : List UInt8 := List.replicate 20 0xAB

def shortRequest : Event := apduAt 1030002 (authenticateApdu (template [0x18] shortHash))

/-- The press is confirmed, and the request with 20 bytes spends it on the answer 6F00. -/
theorem short_request_spends_press :
    FollowsLoop (pressedLoop ++ [shortRequest]) ∧ ClockRuns (pressedLoop ++ [shortRequest]) ∧
      devStateIsAuthorized (run bootedBackend pressedLoop).card.dev = true ∧
      ¬ KeepsPress bootedBackend (run bootedBackend pressedLoop) shortRequest := by
  have hauth : devStateIsAuthorized (run bootedBackend pressedLoop).card.dev = true := by decide
  refine ⟨by decide, by decide, hauth, fun hkeeps => ?_⟩
  have hasks : ∃ cmd, Asks (run bootedBackend pressedLoop)
      (hostMessage pcToRdrXfrBlock (authenticateApdu (template [0x18] shortHash))) cmd ∧
      Wastes (run bootedBackend pressedLoop).card cmd := by
    refine ⟨_, ⟨by decide, rfl, rfl, rfl⟩, rfl, ⟨rfl, rfl, rfl, rfl, by decide⟩, ?_, Or.inl hauth⟩
    exact ⟨shortHash, ⟨[0x18], [], .short (by decide), by decide, rfl⟩, by decide⟩
  exact (keepsPress_iff bootedBackend_booted _ shortRequest).mp hkeeps
    ⟨sampleSigner_succeeds, hasks⟩

end PressRetention
