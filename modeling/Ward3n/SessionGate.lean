import Ward3n.FirmwareSteps

/-!
# The session in front of the key

A signature needs three things of the session it falls in: the slot was powered
on and neither powered off nor reset since, the applet was then selected, and
the PIN was then verified and not presented wrongly afterwards. The flags of the
driver and the applet are tied to the history of the device, one flag to each.
-/

namespace SessionGate

open ApduCodec CryptoBackend PivApplet CcidDriver UserButton Firmware TracedRuns
  AppletEffects FirmwareSteps

/-- The observation ends a session, or starts a new one. -/
def Cuts : Observation → Prop
  | .powerOn | .powerOff | .busReset => True
  | _ => False

/-- A VERIFY answered 6982. -/
def RejectsPin : Observation → Prop
  | .exchange x => ∃ c, x.cmd = some c ∧ c.ins = 0x20 ∧ statusWord x.answer = swSecurityNotSatisfied
  | _ => False

/-- A SELECT of the PIV AID answered 9000. -/
def SelectDone : Observation → Prop
  | .exchange x => ∃ c, x.cmd = some c ∧ SelectsPiv c ∧ statusWord x.answer = swOk
  | _ => False

/-- A VERIFY of an 8-byte PIN answered 9000. -/
def VerifyDone : Observation → Prop
  | .exchange x => ∃ c, x.cmd = some c ∧ PresentsPin c ∧ statusWord x.answer = swOk
  | _ => False

/-- The slot was powered on, and neither powered off nor reset since. -/
def Powered : List Observation → Prop :=
  Since (fun o => ¬ Cuts o) fun _ o => o = .powerOn

/-- In that session the applet was selected. -/
def Selected : List Observation → Prop :=
  Since (fun o => ¬ Cuts o) fun past o => SelectDone o ∧ Powered past

/-- After that the PIN was verified, and no wrong PIN was presented since. -/
def Verified : List Observation → Prop :=
  Since (fun o => ¬ Cuts o ∧ ¬ RejectsPin o) fun past o => VerifyDone o ∧ Selected past

/-- What the flags say about the past. The applet's flags count only while the slot is
powered: losing power leaves them set, and powering on clears them. -/
structure Gate (h : List Observation) (s : State) : Prop where
  powered : s.ccid.iccPowered = true → Powered h
  selected : s.ccid.iccPowered = true → s.card.piv.selected = true → Selected h
  verified : s.ccid.iccPowered = true → s.card.piv.pinVerified = true → Verified h

/-- Observations that leave every session as it is. -/
def Harmless (o : Observation) : Prop := ¬ Cuts o ∧ ¬ RejectsPin o

theorem Gate.append {h obs : List Observation} {s s' : State} (hgate : Gate h s)
    (hobs : ∀ o ∈ obs, Harmless o) (hpowered : s'.ccid.iccPowered = s.ccid.iccPowered)
    (hselected : s'.card.piv.selected = s.card.piv.selected)
    (hverified : s'.card.piv.pinVerified = s.card.piv.pinVerified) : Gate (h ++ obs) s' := by
  have hcuts : ∀ o ∈ obs, ¬ Cuts o := fun o ho => (hobs o ho).1
  constructor
  · intro hp
    exact (hgate.powered (hpowered ▸ hp)).append hcuts
  · intro hp hs
    exact (hgate.selected (hpowered ▸ hp) (hselected ▸ hs)).append hcuts
  · intro hp hv
    exact (hgate.verified (hpowered ▸ hp) (hverified ▸ hv)).append hobs

theorem gate_unpowered {h : List Observation} {s : State} (hoff : s.ccid.iccPowered = false) :
    Gate h s := by
  constructor
  all_goals
    intro hp
    rw [hoff] at hp
    cases hp

theorem harmless_of_outward {o : Observation} (h : Outward o) : Harmless o := by
  rcases h with ⟨_, rfl⟩ | ⟨_, rfl⟩ <;> exact ⟨id, id⟩

theorem harmless_of_moved {d d' : DeviceState.Device} {now : Nat} {o : Observation}
    (h : o ∈ movedObs d d' now) : Harmless o := by
  rw [(mem_movedObs h).2]
  exact ⟨id, id⟩

theorem harmless_of_sign {now : Nat} {signed : Option (List UInt8)} {o : Observation}
    (h : o ∈ signObs now signed) : Harmless o := by
  obtain ⟨hash, _, rfl⟩ := mem_signObs.mp h
  exact ⟨id, id⟩

/-- An APDU leaves the session it falls in. -/
theorem uncut_of_apdu {d d' : DeviceState.Device} {now : Nat} {signed : Option (List UInt8)}
    {x : Exchange} {response : List UInt8} {o : Observation}
    (ho : o ∈ signObs now signed ++ movedObs d d' now ++ [.exchange x, .response response]) :
    ¬ Cuts o := by
  simp only [List.mem_append, List.mem_cons, List.not_mem_nil, or_false] at ho
  rcases ho with (ho | ho) | rfl | rfl
  · exact (harmless_of_sign ho).1
  · exact (harmless_of_moved ho).1
  · exact id
  · exact id

theorem harmless_of_press {d d' : DeviceState.Device} {now : Nat} {o : Observation}
    (ho : o ∈ .pressConfirmed now :: movedObs d d' now) : Harmless o := by
  rcases List.mem_cons.mp ho with rfl | ho
  · exact ⟨id, id⟩
  · exact harmless_of_moved ho

/-- An APDU keeps the flags true to the past: a flag it raises is raised by the answered
command the session asks for, and a rejected PIN lowers the flag it may not leave up. -/
theorem gate_apdu {k : Backend} {h : List Observation} {s s' : State} {amb : Ambient}
    {cmd : Option ApduCmd} {r : Reply} {response : List UInt8} (hgate : Gate h s)
    (heffect : Effect k amb s.card cmd r) (hpowered : s'.ccid.iccPowered = s.ccid.iccPowered)
    (hcard : s'.card = r.card) :
    Gate (h ++ (signObs amb.now r.signed ++ movedObs s.card.dev r.card.dev amb.now ++
      [.exchange ⟨cmd, r.bytes⟩, .response response])) s' := by
  have hsw := heffect.statusWord_bytes
  have hcuts : ∀ o ∈ signObs amb.now r.signed ++ movedObs s.card.dev r.card.dev amb.now ++
      [.exchange ⟨cmd, r.bytes⟩, .response response], ¬ Cuts o := fun o ho => uncut_of_apdu ho
  have hlast : ∀ o ∈ [Observation.response response], Harmless o := by
    intro o ho
    exact harmless_of_outward (Or.inl ⟨response, List.mem_singleton.mp ho⟩)
  rcases heffect.flag_cases with ⟨c, rfl, hcmd, hok, hsigned, hdev, hpiv⟩ |
    ⟨c, rfl, hcmd, hselected, hok, hsigned, hdev, hpiv⟩ | hpiv | ⟨hselected, hverified, hpin⟩
  · rw [hsigned, hdev, movedObs_self]
    have hpiv' := hcard ▸ hpiv
    refine ⟨fun hp => ?_, fun hp _ => ?_, fun hp hv => ?_⟩
    · exact (hgate.powered (hpowered ▸ hp)).append fun o ho =>
        hcuts o (by rw [hsigned, hdev, movedObs_self]; exact ho)
    · exact since_of_mark ⟨⟨c, rfl, hcmd, hsw.trans hok⟩, hgate.powered (hpowered ▸ hp)⟩
        fun o ho => (hlast o ho).1
    · have hold : s.card.piv.pinVerified = true := by rw [hpiv'] at hv; exact hv
      refine (hgate.verified (hpowered ▸ hp) hold).append ?_
      intro o ho
      rcases List.mem_cons.mp ho with rfl | ho
      · refine ⟨id, ?_⟩
        rintro ⟨c', hc', hins, _⟩
        cases hc'
        exact absurd (hins.symm.trans hcmd.2.1) (by decide)
      · exact hlast o ho
  · rw [hsigned, hdev, movedObs_self]
    have hpiv' := hcard ▸ hpiv
    have hkeep : ∀ o ∈ [Observation.exchange ⟨some c, r.bytes⟩, .response response], ¬ Cuts o :=
      fun o ho => hcuts o (by rw [hsigned, hdev, movedObs_self]; exact ho)
    refine ⟨fun hp => ?_, fun hp _ => ?_, fun hp _ => ?_⟩
    · exact (hgate.powered (hpowered ▸ hp)).append hkeep
    · exact (hgate.selected (hpowered ▸ hp) hselected).append hkeep
    · exact since_of_mark
        ⟨⟨c, rfl, hcmd, hsw.trans hok⟩, hgate.selected (hpowered ▸ hp) hselected⟩ hlast
  · have hpiv' := hcard ▸ hpiv
    refine ⟨fun hp => ?_, fun hp hs => ?_, fun _ hv => ?_⟩
    · exact (hgate.powered (hpowered ▸ hp)).append hcuts
    · have hold : s.card.piv.selected = true := by rw [hpiv'] at hs; exact hs
      exact (hgate.selected (hpowered ▸ hp) hold).append hcuts
    · rw [hpiv'] at hv
      cases hv
  · refine hgate.append ?_ hpowered (by rw [hcard, hselected]) (by rw [hcard, hverified])
    intro o ho
    refine ⟨hcuts o ho, ?_⟩
    simp only [List.mem_append, List.mem_cons, List.not_mem_nil, or_false] at ho
    rcases ho with (ho | ho) | rfl | rfl
    · exact (harmless_of_sign ho).2
    · exact (harmless_of_moved ho).2
    · rintro ⟨c, hc, hins, hrejected⟩
      exact hpin c hc hins (hsw.symm.trans hrejected)
    · exact id

/-- Every step keeps the flags true to the past. -/
theorem gate_step (k : Backend) (h : List Observation) (s : State) (e : Event) (hgate : Gate h s) :
    Gate (h ++ (step k s e).2) (step k s e).1 := by
  have heffect := step_effect k s e
  generalize (step k s e).1 = s' at heffect
  generalize (step k s e).2 = obs at heffect
  cases heffect with
  | quiet _ _ hpowered hcard _ hobs =>
    exact hgate.append (fun o ho => harmless_of_outward (hobs o ho)) hpowered (by rw [hcard])
      (by rw [hcard])
  | powerOn _ _ hcard =>
    have hpiv : s'.card.piv = pivInit s.card.piv := by rw [hcard]
    refine ⟨fun _ => since_of_mark rfl ?_, fun _ hs => ?_, fun _ hv => ?_⟩
    · intro o ho
      rw [List.mem_singleton.mp ho]
      exact id
    · rw [hpiv] at hs
      cases hs
    · rw [hpiv] at hv
      cases hv
  | powerOff _ hoff | reset hoff => exact gate_unpowered hoff
  | apdu _ heffect hpowered hcard => exact gate_apdu hgate heffect hpowered hcard
  | umount hpowered hcard | tick hpowered hcard =>
    exact hgate.append (fun o ho => harmless_of_moved ho) hpowered (by rw [hcard]) (by rw [hcard])
  | edge hpowered hcard =>
    exact hgate.append (forall_mem_ite ⟨id, id⟩) hpowered (by rw [hcard]) (by rw [hcard])
  | press _ hpowered hcard =>
    exact hgate.append (fun o ho => harmless_of_press ho) hpowered (by rw [hcard]) (by rw [hcard])
  | noPress _ hpowered hcard =>
    exact hgate.append (by simp) hpowered (by rw [hcard]) (by rw [hcard])

theorem gate_run (k : Backend) (es : List Event) : Gate (history k es) (run k es) :=
  history_invariant (gate_step k) (gate_unpowered rfl) es

/-- A signature is made in a powered slot, in the session of the last power-on, after a
SELECT and then a VERIFY of that same session, with no wrong PIN in between. -/
theorem signature_in_verified_session (k : Backend) (es : List Event) (e : Event) (now : Nat)
    (hash : List UInt8) (hsign : .signCall now hash ∈ (step k (run k es) e).2) :
    (run k es).ccid.iccPowered = true ∧ Verified (history k es) := by
  obtain ⟨bytes, amb, _, _, hdelivers, ⟨c, _, _, hrequest⟩, _⟩ :=
    (signCall_mem_iff k (run k es) e now hash).mp hsign
  have hpowered : (run k es).ccid.iccPowered = true := hdelivers.2.2.1
  exact ⟨hpowered, (gate_run k es).verified hpowered (requestedChallenge_verified hrequest)⟩

def apduAt (now : Nat) (apdu : List UInt8) : Event :=
  .bulkOut (hostMessage pcToRdrXfrBlock apdu) (ambientAt now)

def selectApdu : List UInt8 := [0x00, 0xA4, 0x04, 0x00, 0x0B] ++ pivAid

def verifyApdu : List UInt8 := [0x00, 0x20, 0x00, 0x80, 0x08] ++ expectedPin

def signApdu : List UInt8 :=
  [0x00, 0x87, 0x11, 0x9A, 0x26, 0x7C, 0x24, 0x82, 0x00, 0x81, 0x20] ++ List.replicate 32 0xAB

/-- Power on, SELECT, VERIFY, a first GENERAL AUTHENTICATE, and a press that confirms it. -/
def pressedRun : List Event :=
  [.bulkOut (hostMessage pcToRdrIccPowerOn []) (ambientAt 0),
    apduAt 1 selectApdu, apduAt 2 verifyApdu, apduAt 3 signApdu, .gpioIrq buttonPin 1000000,
    .poll { now := 1030000, pinHigh := false, stamp := 1030000 }]

theorem signature_in_verified_session_sample :
    (run sampleBackend pressedRun).ccid.iccPowered = true ∧
      Verified (history sampleBackend pressedRun) :=
  signature_in_verified_session sampleBackend pressedRun (apduAt 1040000 signApdu) 1040000
    (List.replicate 32 0xAB) (List.mem_of_getElem? (i := 0) rfl)

end SessionGate
