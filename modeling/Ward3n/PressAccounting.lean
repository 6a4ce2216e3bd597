import Ward3n.FirmwareSteps

/-!
# One signature for one press

Three counters run against each other. An edge recorded by the interrupt is good
for one confirmation, a confirmation for one authorization, and an authorization
for one signature; what was recorded and not yet used is a credit of one in the
state. Timeouts, unmounts and failed signatures only lose credit.
-/

namespace PressAccounting

open CryptoBackend DeviceState UserButton PivApplet CcidDriver Firmware TracedRuns AppletEffects
  FirmwareSteps

def isSignCall : Observation → Bool
  | .signCall _ _ => true
  | _ => false

/-- A transition from WAITING_BUTTON to AUTHORIZED. -/
def isAuthorization : Observation → Bool
  | .moved .waitingButton .authorized _ => true
  | _ => false

/-- A poll that returns true. -/
def isConfirmation : Observation → Bool
  | .pressConfirmed _ => true
  | _ => false

def isEdge : Observation → Bool
  | .fallingEdge _ => true
  | _ => false

/-- An authorization not yet spent. -/
def authCredit (s : State) : Nat := if s.card.dev.state = .authorized then 1 else 0

/-- An edge not yet polled away. -/
def edgeCredit (s : State) : Nat := if s.button.edgeSeen = true then 1 else 0

theorem authCredit_calm {s s' : State} (h : Calm s.card.dev s'.card.dev) :
    authCredit s' ≤ authCredit s := by
  simp only [authCredit]
  by_cases hauth : s'.card.dev.state = .authorized
  · rw [if_pos hauth, if_pos (h hauth)]
  · rw [if_neg hauth]
    exact Nat.zero_le _

theorem edgeCredit_le {s s' : State} (h : s'.button.edgeSeen = true → s.button.edgeSeen = true) :
    edgeCredit s' ≤ edgeCredit s := by
  simp only [edgeCredit]
  by_cases hseen : s'.button.edgeSeen = true
  · rw [if_pos hseen, if_pos (h hseen)]
  · rw [if_neg hseen]
    exact Nat.zero_le _

section Counts

variable {f : Observation → Bool} {d d' : Device} {now : Nat}

theorem countP_outward {obs : List Observation} (hobs : ∀ o ∈ obs, Outward o)
    (hother : ∀ bytes, f (.response bytes) = false ∧ f (.transmitted bytes) = false) :
    obs.countP f = 0 := by
  rw [List.countP_eq_zero]
  intro o ho
  rcases hobs o ho with ⟨bytes, rfl⟩ | ⟨bytes, rfl⟩
  · simp [(hother bytes).1]
  · simp [(hother bytes).2]

theorem countP_movedObs_le (f : Observation → Bool) (d d' : Device) (now : Nat) :
    (movedObs d d' now).countP f ≤ 1 := by
  refine Nat.le_trans List.countP_le_length ?_
  simp only [movedObs]
  split <;> simp

theorem countP_movedObs (hother : ∀ src dst, f (.moved src dst now) = false) :
    (movedObs d d' now).countP f = 0 := by
  rw [List.countP_eq_zero]
  intro o ho
  simp [(mem_movedObs ho).2, hother]

theorem countP_movedObs_calm (h : Calm d d') :
    (movedObs d d' now).countP isAuthorization = 0 := by
  rw [List.countP_eq_zero]
  intro o ho
  obtain ⟨hne, rfl⟩ := mem_movedObs ho
  cases hdst : d'.state with
  | authorized => exact absurd ((h hdst).trans hdst.symm) hne
  | idle | waitingButton | processing => cases d.state <;> simp [isAuthorization]

theorem countP_signObs (hother : ∀ hash, f (.signCall now hash) = false)
    (signed : Option (List UInt8)) : (signObs now signed).countP f = 0 := by
  rw [List.countP_eq_zero]
  intro o ho
  obtain ⟨hash, _, rfl⟩ := mem_signObs.mp ho
  simp [hother]

end Counts

variable (k : Backend) (s : State) (e : Event)

/-- A step signs at most on credit, and settles it. -/
theorem signatures_step :
    (step k s e).2.countP isSignCall ≤ authCredit s ∧
      (step k s e).2.countP isSignCall + authCredit (step k s e).1 ≤
        (step k s e).2.countP isAuthorization + authCredit s := by
  have heffect := step_effect k s e
  generalize (step k s e).1 = s' at heffect
  generalize (step k s e).2 = obs at heffect
  have calm : obs.countP isSignCall = 0 → Calm s.card.dev s'.card.dev →
      obs.countP isSignCall ≤ authCredit s ∧
        obs.countP isSignCall + authCredit s' ≤ obs.countP isAuthorization + authCredit s := by
    intro hnone hcalm
    have hcredit := authCredit_calm hcalm
    omega
  cases heffect with
  | quiet _ _ _ hcard _ hobs =>
    exact calm (countP_outward hobs fun _ => ⟨rfl, rfl⟩) (by rw [hcard]; exact id)
  | powerOn _ _ hcard | powerOff _ _ hcard | reset _ hcard | noPress _ _ hcard =>
    exact calm (by simp [isSignCall]) (by rw [hcard]; exact id)
  | edge _ hcard =>
    exact calm (by split <;> simp [isSignCall]) (by rw [hcard]; exact id)
  | umount _ hcard =>
    exact calm (countP_movedObs fun _ _ => rfl) (by rw [hcard]; exact calm_init _)
  | tick _ hcard =>
    exact calm (countP_movedObs fun _ _ => rfl) (by rw [hcard]; exact calm_tick _ _)
  | @apdu bytes response amb _ r _ heffect _ hcard =>
    have hmoved : (movedObs s.card.dev r.card.dev amb.now).countP isSignCall = 0 :=
      countP_movedObs fun _ _ => rfl
    rcases heffect.device_cases with ⟨hsigned, _⟩ | ⟨hsigned, _⟩ | ⟨hash, hsigned, hauth, hdev⟩
    · exact calm (by simp [hsigned, hmoved, signObs, isSignCall])
        (by rw [hcard]; exact heffect.calm)
    · exact calm (by simp [hsigned, hmoved, signObs, isSignCall])
        (by rw [hcard]; exact heffect.calm)
    · have hstate : s.card.dev.state = .authorized := by
        exact (of_decide_eq_true hauth).1
      have hspent : authCredit s' = 0 := by
        simp [authCredit, hcard, hdev, spend, devStateOpComplete]
      have hone : authCredit s = 1 := by simp [authCredit, hstate]
      simp only [hsigned, signObs, Option.toList_some, List.map_cons, List.map_nil,
        List.countP_append, List.countP_cons, List.countP_nil, hmoved, hspent, hone, isSignCall,
        if_true, Bool.false_eq_true, if_false]
      omega
  | @press sample _ hconfirms _ hcard =>
    by_cases hwaiting : s.card.dev.state = .waitingButton
    · have hcredit : authCredit s' ≤ 1 := by
        simp only [authCredit]
        split <;> omega
      rw [movedObs_press hwaiting]
      simp only [List.countP_cons, List.countP_nil, isSignCall, isAuthorization, if_true,
        Bool.false_eq_true, if_false]
      omega
    · have hsame := press_of_not_waiting hwaiting sample.stamp
      refine calm ?_ (by rw [hcard, hsame]; exact id)
      rw [hsame, movedObs_self]
      simp [isSignCall]

/-- Within a step, an authorization comes after the confirmation it is due to. -/
theorem authorizations_step {p : List Observation} (hp : p <+: (step k s e).2) :
    p.countP isAuthorization ≤ p.countP isConfirmation := by
  have heffect := step_effect k s e
  generalize (step k s e).1 = s' at heffect
  generalize (step k s e).2 = obs at heffect hp
  have calm : obs.countP isAuthorization = 0 →
      p.countP isAuthorization ≤ p.countP isConfirmation := by
    intro hnone
    have hle := hp.sublist.countP_le (p := isAuthorization)
    omega
  cases heffect with
  | quiet _ _ _ _ _ hobs => exact calm (countP_outward hobs fun _ => ⟨rfl, rfl⟩)
  | powerOn | powerOff | reset | noPress => exact calm (by simp [isAuthorization])
  | edge => exact calm (by split <;> simp [isAuthorization])
  | umount => exact calm (countP_movedObs_calm (calm_init _))
  | tick => exact calm (countP_movedObs_calm (calm_tick _ _))
  | apdu _ heffect =>
    refine calm ?_
    rw [List.countP_append, List.countP_append, countP_signObs (fun _ => rfl),
      countP_movedObs_calm heffect.calm]
    simp [isAuthorization]
  | @press sample =>
    cases p with
    | nil => simp
    | cons o q =>
      obtain ⟨rest, hrest⟩ := hp
      obtain ⟨rfl, hq⟩ := List.cons.inj hrest
      have hfront : q <+: movedObs s.card.dev (devStateButtonPressed s.card.dev sample.stamp)
          sample.stamp := ⟨rest, hq⟩
      have hle := Nat.le_trans (hfront.sublist.countP_le (p := isAuthorization))
        (countP_movedObs_le _ _ _ _)
      simp only [List.countP_cons, isAuthorization, isConfirmation, if_true, Bool.false_eq_true,
        if_false]
      omega

/-- Only a poll confirms an edge. -/
theorem unconfirmed (hpoll : ∀ sample, e ≠ .poll sample) :
    (step k s e).2.countP isConfirmation = 0 := by
  have heffect := step_effect k s e
  generalize (step k s e).1 = s' at heffect
  generalize (step k s e).2 = obs at heffect
  cases heffect with
  | quiet _ _ _ _ _ hobs => exact countP_outward hobs fun _ => ⟨rfl, rfl⟩
  | powerOn | powerOff | reset => rfl
  | umount | tick => exact countP_movedObs fun _ _ => rfl
  | apdu =>
    rw [List.countP_append, List.countP_append, countP_signObs (fun _ => rfl),
      countP_movedObs fun _ _ => rfl]
    rfl
  | edge => split <;> rfl
  | press | noPress => exact absurd rfl (hpoll _)

/-- A step confirms at most one edge recorded before, and clears the record. -/
theorem confirmations_step :
    (step k s e).2.countP isConfirmation ≤ edgeCredit s ∧
      (step k s e).2.countP isConfirmation + edgeCredit (step k s e).1 ≤
        (step k s e).2.countP isEdge + edgeCredit s := by
  have hquiet := unconfirmed k s e
  have heffect := step_effect k s e
  generalize (step k s e).1 = s' at heffect
  generalize (step k s e).2 = obs at heffect hquiet
  have idle : obs.countP isConfirmation = 0 →
      (s'.button.edgeSeen = true → s.button.edgeSeen = true) →
      obs.countP isConfirmation ≤ edgeCredit s ∧
        obs.countP isConfirmation + edgeCredit s' ≤ obs.countP isEdge + edgeCredit s := by
    intro hnone hseen
    have hcredit := edgeCredit_le hseen
    omega
  cases heffect with
  | quiet _ hpoll _ _ hbutton => exact idle (hquiet hpoll) (by rw [hbutton]; exact id)
  | powerOn _ _ _ hbutton | powerOff _ _ _ hbutton | reset _ _ hbutton | umount _ _ hbutton
  | tick _ _ hbutton | apdu _ _ _ _ hbutton =>
    exact idle (hquiet (by simp)) (by rw [hbutton]; exact id)
  | noPress _ _ _ hbutton => exact idle (by simp) hbutton
  | @edge gpio now _ _ _ hbutton =>
    by_cases hpin : gpio = buttonPin
    · have hcredit : edgeCredit s' ≤ 1 := by
        simp only [edgeCredit]
        split <;> omega
      rw [if_pos hpin]
      simp only [List.countP_cons, List.countP_nil, isConfirmation, isEdge, if_true,
        Bool.false_eq_true, if_false]
      omega
    · refine idle (by simp [hpin]) fun hseen => ?_
      rw [hbutton] at hseen
      exact (gpioIrq_edgeSeen s.button gpio now hseen).resolve_right hpin
  | press hconfirms _ _ hbutton =>
    have hone : edgeCredit s = 1 := by simp [edgeCredit, hconfirms.1]
    have hspent : edgeCredit s' = 0 := by simp [edgeCredit, hbutton]
    rw [List.countP_cons, countP_movedObs fun _ _ => rfl]
    simp only [isConfirmation, if_true, hone, hspent]
    omega

/-- Every signature so far was followed by a confirmed press. -/
def Renewed (h : List Observation) : Prop :=
  ∀ past now hash mid, h = past ++ .signCall now hash :: mid → ∃ t, .pressConfirmed t ∈ mid

theorem Renewed.append {h t : List Observation} (hrenewed : Renewed h)
    (hnone : ∀ o ∈ t, isSignCall o = false) : Renewed (h ++ t) := by
  intro past now hash mid heq
  rcases List.append_eq_append_iff.mp heq with ⟨as, _, ht⟩ | ⟨bs, hh, hmid⟩
  · have hbad := hnone (.signCall now hash) (by rw [ht]; simp)
    cases hbad
  · cases bs with
    | nil =>
      have hbad := hnone (.signCall now hash) (by rw [← List.nil_append t, ← hmid]; simp)
      cases hbad
    | cons o bs =>
      obtain ⟨rfl, rfl⟩ := List.cons.inj hmid
      obtain ⟨press, hpress⟩ := hrenewed past now hash bs hh
      exact ⟨press, List.mem_append_left _ hpress⟩

theorem renewed_press (h : List Observation) (stamp : Nat) {t : List Observation}
    (hnone : ∀ o ∈ t, isSignCall o = false) : Renewed (h ++ .pressConfirmed stamp :: t) := by
  intro past now hash mid heq
  rcases List.append_eq_append_iff.mp heq with ⟨as, _, ht⟩ | ⟨bs, hh, hmid⟩
  · cases as with
    | nil => cases (List.cons.inj ht).1
    | cons o as =>
      have hbad := hnone (.signCall now hash) (by rw [(List.cons.inj ht).2]; simp)
      cases hbad
  · cases bs with
    | nil => cases (List.cons.inj hmid).1
    | cons o bs =>
      obtain ⟨rfl, rfl⟩ := List.cons.inj hmid
      exact ⟨stamp, by simp⟩

/-- An authorized device has been pressed since its last signature. -/
def Paid (h : List Observation) (s : State) : Prop :=
  s.card.dev.state = .authorized → Renewed h

theorem movedObs_unsigned {d d' : Device} {now : Nat} :
    ∀ o ∈ movedObs d d' now, isSignCall o = false := by
  intro o ho
  rw [(mem_movedObs ho).2]
  rfl

/-- A step that does not sign, and authorizes nothing, leaves the device paid. -/
theorem Paid.append {h obs : List Observation} {s s' : State} (hpaid : Paid h s)
    (hcalm : Calm s.card.dev s'.card.dev) (hnone : ∀ o ∈ obs, isSignCall o = false) :
    Paid (h ++ obs) s' :=
  fun hauth => (hpaid (hcalm hauth)).append hnone

theorem paid_step (h : List Observation) (hpaid : Paid h s) :
    Paid (h ++ (step k s e).2) (step k s e).1 := by
  have heffect := step_effect k s e
  generalize (step k s e).1 = s' at heffect
  generalize (step k s e).2 = obs at heffect
  cases heffect with
  | quiet _ _ _ hcard _ hobs =>
    refine hpaid.append (by rw [hcard]; exact id) fun o ho => ?_
    rcases hobs o ho with ⟨_, rfl⟩ | ⟨_, rfl⟩ <;> rfl
  | powerOn _ _ hcard | powerOff _ _ hcard | reset _ hcard | noPress _ _ hcard =>
    exact hpaid.append (by rw [hcard]; exact id) (by simp [isSignCall])
  | edge _ hcard =>
    exact hpaid.append (by rw [hcard]; exact id) (forall_mem_ite rfl)
  | umount _ hcard => exact hpaid.append (by rw [hcard]; exact calm_init _) movedObs_unsigned
  | tick _ hcard => exact hpaid.append (by rw [hcard]; exact calm_tick _ _) movedObs_unsigned
  | press => exact fun _ => renewed_press h _ movedObs_unsigned
  | @apdu bytes response amb _ r _ heffect _ hcard =>
    have unsigned : r.signed = none → Paid (h ++ (signObs amb.now r.signed ++
        movedObs s.card.dev r.card.dev amb.now ++
        [.exchange ⟨forwardedCmd (received s bytes), r.bytes⟩, .response response])) s' := by
      intro hsigned
      refine hpaid.append (by rw [hcard]; exact heffect.calm) fun o ho => ?_
      rw [hsigned] at ho
      rcases List.mem_append.mp ho with ho | ho
      · exact movedObs_unsigned o ho
      · simp only [List.mem_cons, List.not_mem_nil, or_false] at ho
        rcases ho with rfl | rfl <;> rfl
    rcases heffect.device_cases with ⟨hsigned, _⟩ | ⟨hsigned, _⟩ | ⟨_, _, _, hdev⟩
    · exact unsigned hsigned
    · exact unsigned hsigned
    · intro hauth
      rw [hcard, hdev] at hauth
      cases hauth

/-- What a signature asks of its past. -/
def SignedAfresh (past : List Observation) (o : Observation) : Prop :=
  isSignCall o = true → Renewed past

theorem signedAfresh_step (h : List Observation) (hpaid : Paid h s) :
    AtEach (fun past => SignedAfresh (h ++ past)) (step k s e).2 := by
  rintro past o later heq hsign
  cases o with
  | signCall now hash =>
    have hmem : .signCall now hash ∈ (step k s e).2 := by rw [heq]; simp
    obtain ⟨_, _, _, _, _, _, hauth⟩ := (signCall_mem_iff k s e now hash).mp hmem
    have hstate : s.card.dev.state = .authorized := (of_decide_eq_true hauth).1
    have hone := (signatures_step k s e).1
    have hcredit : authCredit s = 1 := by simp [authCredit, hstate]
    rw [heq, List.countP_append, List.countP_cons_of_pos rfl, hcredit] at hone
    have hnone : past.countP isSignCall = 0 := by omega
    refine (hpaid hstate).append fun o ho => ?_
    simpa using List.countP_eq_zero.mp hnone o ho
  | powerOn | powerOff | busReset | moved | exchange | response | transmitted | fallingEdge
  | pressConfirmed => cases hsign

/-- The counters of a history at every point of it, and the press between two signatures. -/
structure PressesAccounted (h : List Observation) : Prop where
  signatures : ∀ p, p <+: h → p.countP isSignCall ≤ p.countP isAuthorization
  authorizations : ∀ p, p <+: h → p.countP isAuthorization ≤ p.countP isConfirmation
  confirmations : ∀ p, p <+: h → p.countP isConfirmation ≤ p.countP isEdge
  between : ∀ past now hash mid now' hash' later,
    h = past ++ .signCall now hash :: (mid ++ .signCall now' hash' :: later) →
    ∃ t, .pressConfirmed t ∈ mid

theorem presses_accounted (k : Backend) (es : List Event) : PressesAccounted (history k es) where
  signatures := fun p hp => by
    have hle := tally_le (a := isSignCall) (b := isAuthorization) authCredit
      (fun s e p hp => by
        have hcount := hp.sublist.countP_le (p := isSignCall)
        have hcredit := (signatures_step k s e).1
        omega)
      (fun s e => (signatures_step k s e).2) boot es hp
    exact hle
  authorizations := fun p hp => by
    have hle := tally_le (a := isAuthorization) (b := isConfirmation) (fun _ => 0)
      (fun s e p hp => authorizations_step k s e hp)
      (fun s e => authorizations_step k s e List.prefix_rfl) boot es hp
    exact hle
  confirmations := fun p hp => by
    have hle := tally_le (a := isConfirmation) (b := isEdge) edgeCredit
      (fun s e p hp => by
        have hcount := hp.sublist.countP_le (p := isConfirmation)
        have hcredit := (confirmations_step k s e).1
        omega)
      (fun s e => (confirmations_step k s e).2) boot es hp
    exact hle
  between := by
    intro past now hash mid now' hash' later heq
    have hafresh := atEach_trace (Q := SignedAfresh) (J := Paid)
      (fun h s e => signedAfresh_step k s e h) (fun h s e => paid_step k s e h)
      (s := boot) (fun hauth => by cases hauth) es
    rw [← List.cons_append, ← List.append_assoc] at heq
    exact hafresh _ _ _ heq rfl past now hash mid rfl

end PressAccounting
