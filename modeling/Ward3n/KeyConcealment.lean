import Ward3n.SignatureTraces

/-!
# What can be learnt of the private key

Two devices with one certificate and different keys, used in the same way over
their whole lives. A certificate names its public key, so that the second device
may be one that only pretends: it answers for the first without its key.

Whatever its signatures are, it shows the same but for the answers that were
signed, and what the endpoint brings out until the bus is reset. And if it is
told the signatures it shows the same altogether: all there is to be learnt of
the private key is in the signatures.
-/

namespace KeyConcealment

open CellMemory TracedRuns CryptoBackend FlashPersistence PivApplet CcidDriver Firmware
  StatusLight DeviceLife KeyStoreBoots SignatureTraces
open SessionGate (pressedRun apduAt signApdu)

/-- Two sectors that differ at most in the private and the public key. -/
def SameOutsideKey (flash flash' : Memory UInt8) : Prop :=
  ∀ i, i < ksOffsetPrivkey ∨ ksOffsetCertLen ≤ i → flash i = flash' i

/-- The outcomes of generating a key, with one certificate. -/
inductive SameMaterial : Except Int KeyMaterial → Except Int KeyMaterial → Prop
  | error (ret : Int) : SameMaterial (.error ret) (.error ret)
  | ok {m m' : KeyMaterial} (certDer : m.certDer = m'.certDer) : SameMaterial (.ok m) (.ok m')

/-- What comes of importing the record in the sector -/
def importOf (calls : BootCalls) (flash : Memory UInt8) : Int :=
  calls.importKey (flashRead flash).privkey (flashRead flash).pubkeyX (flashRead flash).pubkeyY

/-- mbedTLS succeeds or fails for both devices alike: it takes the keys that the two sectors hold,
or refuses them. -/
structure SameCalls (flash flash' : Memory UInt8) (calls calls' : BootCalls) : Prop where
  seed : calls.seed = calls'.seed
  importKey : flashIsInitialized flash = true → importOf calls flash = importOf calls' flash'
  generate : SameMaterial calls.generate calls'.generate

section Boots

variable {flash flash' : Memory UInt8}

theorem read_outside (h : SameOutsideKey flash flash') {k n : Nat}
    (hplace : k + n ≤ ksOffsetPrivkey ∨ ksOffsetCertLen ≤ k) :
    read (advance flash k) n = read (advance flash' k) n := by
  apply read_congr
  intro i hi
  apply h
  omega

theorem initialized_same (h : SameOutsideKey flash flash') :
    flashIsInitialized flash = flashIsInitialized flash' := by
  rw [flashIsInitialized, flashIsInitialized, read_outside h (Or.inl (by decide))]

/-- The record but for its keys. -/
theorem flashRead_same (h : SameOutsideKey flash flash') :
    (flashRead flash).certLen = (flashRead flash').certLen ∧
      (flashRead flash).certDer = (flashRead flash').certDer := by
  have hlen : read (advance flash ksOffsetCertLen) 2 = read (advance flash' ksOffsetCertLen) 2 :=
    read_outside h (Or.inr (Nat.le_refl _))
  have hder : ∀ n, read (advance flash ksOffsetCertDer) n =
      read (advance flash' ksOffsetCertDer) n := fun n => read_outside h (Or.inr (by decide))
  simp only [flashRead, hlen, hder, and_self]

theorem write_outside {p q : Memory UInt8} (off : Nat) {cells cells' : List UInt8} {i : Nat}
    (hp : p i = q i) (hcells : cells.length = cells'.length)
    (hout : i < off ∨ off + cells.length ≤ i) : write p off cells i = write q off cells' i := by
  rcases hout with hout | hout
  · rw [write_before p off cells hout, write_before q off cells' hout, hp]
  · rw [write_after p off cells hout, write_after q off cells' (hcells ▸ hout), hp]

theorem write_at {p q : Memory UInt8} (off : Nat) (cells : List UInt8) {i : Nat} (hp : p i = q i) :
    write p off cells i = write q off cells i := by
  simp only [write, hp]

/-- The keys take up the bytes between the magic and the length of the certificate. -/
theorem sectorImage_same (m m' : KeyMaterial) (certDer : Memory UInt8) (certLen : Nat) :
    SameOutsideKey (sectorImage m.privkey m.pubkeyX m.pubkeyY certDer certLen)
      (sectorImage m'.privkey m'.pubkeyX m'.pubkeyY certDer certLen) := by
  have hpriv : ksOffsetPrivkey + 32 ≤ ksOffsetCertLen := by decide
  have hx : ksOffsetPrivkey ≤ ksOffsetPubkeyX ∧ ksOffsetPubkeyX + 32 ≤ ksOffsetCertLen := by decide
  have hy : ksOffsetPrivkey ≤ ksOffsetPubkeyY ∧ ksOffsetPubkeyY + 32 ≤ ksOffsetCertLen := by decide
  intro i hi
  have hhead : recordHead m.privkey m.pubkeyX m.pubkeyY certLen i =
      recordHead m'.privkey m'.pubkeyX m'.pubkeyY certLen i := by
    unfold recordHead
    apply write_at
    apply write_outside _ _ (m.pubkeyY_length.trans m'.pubkeyY_length.symm)
    · rw [m.pubkeyY_length]
      omega
    apply write_outside _ _ (m.pubkeyX_length.trans m'.pubkeyX_length.symm)
    · rw [m.pubkeyX_length]
      omega
    apply write_outside _ rfl (m.privkey_length.trans m'.privkey_length.symm)
    rw [m.privkey_length]
    omega
  unfold sectorImage
  split
  · exact write_at _ _ hhead
  · exact hhead

theorem flashSave_same (h : SameOutsideKey flash flash') (m m' : KeyMaterial)
    (certDer : Memory UInt8) (certLen pages : Nat) :
    SameOutsideKey (flashSave flash m.privkey m.pubkeyX m.pubkeyY certDer certLen pages)
      (flashSave flash' m'.privkey m'.pubkeyX m'.pubkeyY certDer certLen pages) := by
  intro i hi
  have himage := sectorImage_same m m' certDer certLen i hi
  simp only [flashSave, flashRangeProgram, flashRangeErase, himage, h i hi]

/-- The outcome of a boot does not depend on the key. -/
theorem init_same {calls calls' : BootCalls} (hcalls : SameCalls flash flash' calls calls')
    (h : SameOutsideKey flash flash') (b : Backend) :
    (cryptoBackendInit calls b flash).1 = (cryptoBackendInit calls' b flash').1 ∧
      (cryptoBackendInit calls b flash).2.1 = (cryptoBackendInit calls' b flash').2.1 ∧
      SameOutsideKey (cryptoBackendInit calls b flash).2.2
        (cryptoBackendInit calls' b flash').2.2 := by
  obtain ⟨hseed, himport, hgenerate⟩ := hcalls
  by_cases hfail : calls.seed ≠ 0
  · rw [cryptoBackendInit, cryptoBackendInit, ← hseed, if_pos hfail, if_pos hfail]
    exact ⟨rfl, rfl, h⟩
  have hfail' : ¬ calls'.seed ≠ 0 := hseed ▸ hfail
  have hinit := initialized_same h
  obtain ⟨hlen, hder⟩ := flashRead_same h
  rw [cryptoBackendInit, cryptoBackendInit, if_neg hfail, if_neg hfail', ← hinit]
  by_cases hrecord : flashIsInitialized flash = true
  · have hsame := himport hrecord
    simp only [importOf] at hsame
    simp only [if_pos hrecord, flashLoad, hsame, hlen, hder]
    split <;> exact ⟨rfl, rfl, h⟩
  · simp only [if_neg hrecord, generateAndPersist]
    generalize calls.generate = made at hgenerate
    generalize calls'.generate = made' at hgenerate
    cases hgenerate with
    | error ret =>
      simp only
      split <;> exact ⟨rfl, rfl, h⟩
    | @ok m m' hcert =>
      simp only [hcert]
      exact ⟨rfl, rfl, flashSave_same h m m' _ _ 16⟩

end Boots

/-- Two lives at the same point, with firmware states that are related. -/
inductive SameStage (R : State → State → Prop) : Stage → Stage → Prop
  | off : SameStage R .off .off
  | halted : SameStage R .halted .halted
  | serving {p p' : Serving} (backend : p.backend = p'.backend)
      (light : p.board.light = p'.board.light) (firmware : R p.board.firmware p'.board.firmware) :
      SameStage R (.serving p) (.serving p')

structure SameLife (R : State → State → Prop) (l l' : Life) : Prop where
  flash : SameOutsideKey l.flash l'.flash
  stage : SameStage R l.stage l'.stage

/-- Both devices are used in the same way. What a save that was cut leaves behind is the same
but for the keys, and each signature draws what it likes. -/
inductive SameUse (flash flash' : Memory UInt8) : LifeEvent → LifeEvent → Prop
  | powerUp {calls calls' : BootCalls} (hcalls : SameCalls flash flash' calls calls') :
      SameUse flash flash' (.powerUp calls none) (.powerUp calls' none)
  | cut {calls calls' : BootCalls} {left left' : Memory UInt8}
      (hcalls : SameCalls flash flash' calls calls') (hleft : SameOutsideKey left left') :
      SameUse flash flash' (.powerUp calls (some left)) (.powerUp calls' (some left'))
  | powerLoss : SameUse flash flash' .powerLoss .powerLoss
  | loop (e : BoardEvent) (drawn drawn' : List UInt8) :
      SameUse flash flash' (.loop e drawn) (.loop e drawn')

def LifeEvent.Full : LifeEvent → Prop
  | .loop (.firmware e) _ => SignatureTraces.Full e
  | _ => True

/-- What the firmware shows, in a life. -/
def inLife (f : Observation → Bool) : LifeObservation → Bool
  | .board (.firmware o) => f o
  | _ => false

def lifeConcealed (signed : Bool) (obs : List LifeObservation) : List LifeObservation :=
  if obs.any (inLife signs) then obs.filter (fun o => !inLife holdsAnswer o)
  else if signed then obs.filter (fun o => !inLife bringsOut o)
  else obs

/-- Whether there was a signature since the last boot or bus reset -/
def lifeSignedSince (signed : Bool) (e : LifeEvent) (obs : List LifeObservation) : Bool :=
  match e with
  | .powerUp _ _ | .loop (.firmware .busReset) _ => false
  | _ => signed || obs.any (inLife signs)

/-- A device, and whether its endpoint may show that it signed. -/
structure Watched where
  life : Life
  signed : Bool

def watchStep (sign : SignFunction) (w : Watched) (e : LifeEvent) :
    Watched × List (List LifeObservation) :=
  ({ life := (lifeStep sign w.life e).1
     signed := lifeSignedSince w.signed e (lifeStep sign w.life e).2 },
    [lifeConcealed w.signed (lifeStep sign w.life e).2])

/-- What each event of a life shows, but for the signatures. -/
def lifeViews (sign : SignFunction) (flash : Memory UInt8) (es : List LifeEvent) :
    List (List LifeObservation) :=
  trace (watchStep sign) { life := unpowered flash, signed := false } es

/-- Both devices at once -/
def bothStep (sign sign' : SignFunction) (l : Life × Life) (e : LifeEvent × LifeEvent) :
    (Life × Life) × List (LifeObservation ⊕ LifeObservation) :=
  (((lifeStep sign l.1 e.1).1, (lifeStep sign' l.2 e.2).1),
    (lifeStep sign l.1 e.1).2.map .inl ++ (lifeStep sign' l.2 e.2).2.map .inr)

def UsedAlike (l : Life × Life) (e : LifeEvent × LifeEvent) : Prop :=
  SameUse l.1.flash l.2.flash e.1 e.2

/-- The primitive that an event of the main loop finds -/
def primitive (sign : SignFunction) (l : Life) : LifeEvent → Option PkSign
  | .loop _ drawn =>
    match l.stage with
    | .serving p => some (sign p.key drawn)
    | _ => none
  | _ => none

/-- What one device signs in this event, the other signs with the same signature. -/
def SignaturesTold (sign sign' : SignFunction) (l : Life × Life) (e : LifeEvent × LifeEvent) :
    Prop :=
  ∀ now hash, .board (.firmware (.signCall now hash)) ∈ (lifeStep sign l.1 e.1).2 →
    ∀ pk ∈ primitive sign l.1 e.1, ∀ pk' ∈ primitive sign' l.2 e.2, SignsAlike pk pk' hash

section Lives

variable {sign sign' : SignFunction} {R R' : State → State → Prop} {l l' : Life}

theorem interrupted_same {calls calls' : BootCalls} {flash flash' left left' : Memory UInt8}
    (hcalls : SameCalls flash flash' calls calls') (h : SameOutsideKey flash flash')
    (hleft : SameOutsideKey left left') :
    SameOutsideKey (interrupted calls flash left) (interrupted calls' flash' left') := by
  have hok : calls.generate.isOk = calls'.generate.isOk := by
    have hgenerate := hcalls.generate
    generalize calls.generate = made at hgenerate ⊢
    generalize calls'.generate = made' at hgenerate ⊢
    cases hgenerate <;> rfl
  rw [interrupted, interrupted, ← hcalls.seed, ← initialized_same h, ← hok]
  split
  · exact hleft
  · exact h

/-- A boot goes the same way in both lives. -/
theorem boot_same (sign sign' : SignFunction) (hboot : R' boot boot) (h : SameLife R l l')
    {calls calls' : BootCalls} (hcalls : SameCalls l.flash l'.flash calls calls') :
    SameLife R' (lifeStep sign l (.powerUp calls none)).1
        (lifeStep sign' l' (.powerUp calls' none)).1 ∧
      (lifeStep sign l (.powerUp calls none)).2 = (lifeStep sign' l' (.powerUp calls' none)).2 := by
  obtain ⟨hret, hbackend, hflash⟩ := init_same hcalls h.flash backendAtReset
  obtain ⟨ret, backend, flash, hinit⟩ : ∃ ret backend flash,
      cryptoBackendInit calls backendAtReset l.flash = (ret, backend, flash) := ⟨_, _, _, rfl⟩
  obtain ⟨ret', backend', flash', hinit'⟩ : ∃ ret backend flash,
      cryptoBackendInit calls' backendAtReset l'.flash = (ret, backend, flash) := ⟨_, _, _, rfl⟩
  rw [hinit, hinit'] at hret hbackend hflash
  simp only at hret hbackend hflash
  subst hret hbackend
  by_cases hzero : ret = 0
  · rw [hzero] at hinit hinit'
    rw [powerUp_serves sign hinit, powerUp_serves sign' hinit']
    have hfirmware : R' bootBoard.firmware bootBoard.firmware := hboot
    exact ⟨⟨hflash, .serving rfl rfl hfirmware⟩, rfl⟩
  · rw [powerUp_halts sign hinit hzero, powerUp_halts sign' hinit' hzero]
    exact ⟨⟨hflash, .halted⟩, rfl⟩

/-- What an event of the firmware shows in a life. -/
def firmwareShows (callback : List BoardObservation) (obs : List Observation) :
    List LifeObservation :=
  (callback ++ obs.map BoardObservation.firmware).map LifeObservation.board

theorem callback_silent (f : Observation → Bool) (e : Event) :
    ∀ o ∈ (callbackObs e).map LifeObservation.board, inLife f o = false := by
  cases e <;> simp [callbackObs, inLife]

theorem filter_firmwareShows (f : Observation → Bool) (e : Event) (obs : List Observation) :
    (firmwareShows (callbackObs e) obs).filter (fun o => !inLife f o) =
      firmwareShows (callbackObs e) (obs.filter (fun o => !f o)) := by
  have hcallback : ((callbackObs e).map LifeObservation.board).filter (fun o => !inLife f o) =
      (callbackObs e).map LifeObservation.board := by
    apply List.filter_eq_self.mpr
    intro o ho
    rw [callback_silent f e o ho]
    rfl
  rw [firmwareShows, firmwareShows, List.map_append, List.map_append, List.filter_append,
    hcallback, List.map_map, List.map_map, List.filter_map]
  rfl

theorem any_firmwareShows (f : Observation → Bool) (e : Event) (obs : List Observation) :
    (firmwareShows (callbackObs e) obs).any (inLife f) = obs.any f := by
  have hcallback : ((callbackObs e).map LifeObservation.board).any (inLife f) = false := by
    rw [List.any_eq_false]
    intro o ho
    rw [callback_silent f e o ho]
    exact Bool.false_ne_true
  rw [firmwareShows, List.map_append, List.any_append, hcallback, Bool.false_or, List.map_map,
    List.any_map]
  rfl

theorem lifeConcealed_firmware (signed : Bool) (e : Event) (obs : List Observation) :
    lifeConcealed signed (firmwareShows (callbackObs e) obs) =
      firmwareShows (callbackObs e) (concealed signed obs) := by
  rw [lifeConcealed, concealed, any_firmwareShows, filter_firmwareShows, filter_firmwareShows]
  split
  · rfl
  · split <;> rfl

theorem lifeSignedSince_firmware (signed : Bool) (e : Event) (drawn : List UInt8)
    (obs : List Observation) :
    lifeSignedSince signed (.loop (.firmware e) drawn) (firmwareShows (callbackObs e) obs) =
      signedSince signed e obs := by
  cases e with
  | busReset => rfl
  | bulkOut | inRead | inComplete | ccidTask | umount | gpioIrq | poll | tick =>
    simp only [lifeSignedSince, signedSince, any_firmwareShows]

theorem callbackObs_signer (pk : PkSign) (e : Event) :
    callbackObs (withSigner pk e) = callbackObs e := by
  cases e <;> rfl

/-- What an event of the firmware does in a main loop. -/
def firmwareOf (sign : SignFunction) (p : Serving) (e : Event) (drawn : List UInt8) :
    State × List Observation :=
  step p.backend p.board.firmware (withSigner (sign p.key drawn) e)

theorem loop_firmware {flash : Memory UInt8} (p : Serving) (e : Event) (drawn : List UInt8) :
    lifeStep sign { flash := flash, stage := .serving p } (.loop (.firmware e) drawn) =
      ({ flash := flash, stage := .serving { p with
          board := { p.board with firmware := (firmwareOf sign p e drawn).1 } } },
        firmwareShows (callbackObs e) (firmwareOf sign p e drawn).2) := by
  rw [← callbackObs_signer (sign p.key drawn) e]
  rfl

/-- An event goes the same way in both lives, if the events of the firmware do. -/
theorem life_step {V : Type} {v : List LifeObservation → V} (hboot : R' boot boot)
    (hcard : ∀ s t, R s t → s.card = t.card) (h : SameLife R l l') {e e' : LifeEvent}
    (huse : SameUse l.flash l'.flash e e')
    (hkeep : ∀ x drawn, e = .loop x drawn → (∀ f, x ≠ .firmware f) → ∀ s t, R s t → R' s t)
    (hfirmware : ∀ p p' f drawn drawn', l.stage = .serving p → l'.stage = .serving p' →
      e = .loop (.firmware f) drawn → e' = .loop (.firmware f) drawn' → p.backend = p'.backend →
      R p.board.firmware p'.board.firmware →
      R' (firmwareOf sign p f drawn).1 (firmwareOf sign' p' f drawn').1 ∧
        v (firmwareShows (callbackObs f) (firmwareOf sign p f drawn).2) =
          v (firmwareShows (callbackObs f) (firmwareOf sign' p' f drawn').2)) :
    SameLife R' (lifeStep sign l e).1 (lifeStep sign' l' e').1 ∧
      v (lifeStep sign l e).2 = v (lifeStep sign' l' e').2 := by
  cases huse with
  | powerUp hcalls =>
    obtain ⟨hsame, hobs⟩ := boot_same sign sign' hboot h hcalls
    exact ⟨hsame, by rw [hobs]⟩
  | cut hcalls hleft => exact ⟨⟨interrupted_same hcalls h.flash hleft, .off⟩, rfl⟩
  | powerLoss => exact ⟨⟨h.flash, .off⟩, rfl⟩
  | loop e drawn drawn' =>
    obtain ⟨flash, stage⟩ := l
    obtain ⟨flash', stage'⟩ := l'
    obtain ⟨hflash, hstage⟩ := h
    simp only at hflash hstage
    cases hstage with
    | off => exact ⟨⟨hflash, .off⟩, rfl⟩
    | halted => exact ⟨⟨hflash, .halted⟩, rfl⟩
    | @serving p p' hbackend hlight hrelated =>
      cases e with
      | firmware e =>
        obtain ⟨hstate, hview⟩ := hfirmware p p' e drawn drawn' rfl rfl rfl rfl hbackend hrelated
        rw [loop_firmware, loop_firmware]
        exact ⟨⟨hflash, .serving hbackend hlight hstate⟩, hview⟩
      | neopixelTick now stamp =>
        have hdev := hcard _ _ hrelated
        have hkept := hkeep _ drawn rfl (by simp) _ _ hrelated
        simp only [lifeStep, signedWith, boardStep, hlight, hdev]
        exact ⟨⟨hflash, .serving hbackend rfl hkept⟩, trivial⟩
      | suspend =>
        have hkept := hkeep _ drawn rfl (by simp) _ _ hrelated
        exact ⟨⟨hflash, .serving hbackend hlight hkept⟩, rfl⟩

variable (sign sign') in
/-- The lives agree on everything but the signatures. -/
theorem life_concealed {signed : Bool} (h : SameLife (Related signed) l l') {e e' : LifeEvent}
    (huse : SameUse l.flash l'.flash e e') (hfull : LifeEvent.Full e) :
    SameLife (Related (lifeSignedSince signed e (lifeStep sign l e).2)) (lifeStep sign l e).1
        (lifeStep sign' l' e').1 ∧
      (lifeConcealed signed (lifeStep sign l e).2, (lifeStep sign l e).2.any (inLife signs)) =
        (lifeConcealed signed (lifeStep sign' l' e').2,
          (lifeStep sign' l' e').2.any (inLife signs)) := by
  apply life_step (v := fun obs => (lifeConcealed signed obs, obs.any (inLife signs)))
    (related_refl _ _) (fun _ _ hsame => hsame.1.card) h huse
  · rintro x drawn rfl hother s t hrelated
    refine hrelated.mono fun hnone => ?_
    cases x with
    | firmware f => exact absurd rfl (hother f)
    | neopixelTick | suspend => exact (Bool.or_eq_false_iff.mp hnone).1
  · rintro p p' f drawn drawn' hserving - rfl rfl hbackend hrelated
    obtain ⟨hstate, hobs⟩ := step_concealed p.backend hrelated (sign p.key drawn)
      (sign' p'.key drawn') f hfull
    have hsigns := step_signs p.backend hrelated.1 (sign p.key drawn) (sign' p'.key drawn') hfull
    obtain ⟨flash, stage⟩ := l
    cases hserving
    rw [loop_firmware, lifeSignedSince_firmware, lifeConcealed_firmware, lifeConcealed_firmware,
      any_firmwareShows, any_firmwareShows]
    simp only [firmwareOf, ← hbackend]
    exact ⟨hstate, by rw [hobs, hsigns]⟩

/-- Told the signatures they agree on everything. -/
theorem life_told (h : SameLife Eq l l') {e e' : LifeEvent}
    (huse : SameUse l.flash l'.flash e e') (htold : SignaturesTold sign sign' (l, l') (e, e')) :
    SameLife Eq (lifeStep sign l e).1 (lifeStep sign' l' e').1 ∧
      (lifeStep sign l e).2 = (lifeStep sign' l' e').2 := by
  apply life_step (v := id) rfl (fun _ _ hsame => congrArg State.card hsame) h huse
    (fun _ _ _ _ _ _ hsame => hsame)
  rintro p p' f drawn drawn' hserving hserving' rfl rfl hbackend hrelated
  have hsame : firmwareOf sign p f drawn = firmwareOf sign' p' f drawn' := by
    have hsigner := step_signer p.backend p.board.firmware (sign p.key drawn)
      (sign' p'.key drawn') f
    rw [firmwareOf, firmwareOf, ← hbackend, ← hrelated]
    refine hsigner.same fun now hash hcall => htold now hash ?_ _ ?_ _ ?_
    · obtain ⟨flash, stage⟩ := l
      cases hserving
      rw [loop_firmware]
      exact List.mem_map_of_mem (List.mem_append_right _ (List.mem_map_of_mem hcall))
    · simp only [primitive, hserving]
      rfl
    · simp only [primitive, hserving']
      rfl
  rw [hsame]
  exact ⟨rfl, rfl⟩

theorem lifeSignedSince_same {flash flash' : Memory UInt8} {e e' : LifeEvent}
    (huse : SameUse flash flash' e e') (signed : Bool) {obs obs' : List LifeObservation}
    (hsigns : obs.any (inLife signs) = obs'.any (inLife signs)) :
    lifeSignedSince signed e obs = lifeSignedSince signed e' obs' := by
  cases huse with
  | powerUp | cut => rfl
  | powerLoss => simp only [lifeSignedSince, hsigns]
  | loop e drawn drawn' =>
    cases e with
    | neopixelTick | suspend => simp only [lifeSignedSince, hsigns]
    | firmware e =>
      cases e with
      | busReset => rfl
      | bulkOut | inRead | inComplete | ccidTask | umount | gpioIrq | poll | tick =>
        simp only [lifeSignedSince, hsigns]

theorem views_same (w w' : Watched) (hsigned : w.signed = w'.signed)
    (h : SameLife (Related w.signed) w.life w'.life) {es : List (LifeEvent × LifeEvent)}
    (hes : AllSteps (bothStep sign sign') UsedAlike (w.life, w'.life) es)
    (hfull : ∀ e ∈ es, LifeEvent.Full e.1) :
    trace (watchStep sign) w (es.map Prod.fst) = trace (watchStep sign') w' (es.map Prod.snd) := by
  induction es generalizing w w' with
  | nil => rfl
  | cons e es ih =>
    obtain ⟨hlife, hview⟩ := life_concealed sign sign' h hes.1 (hfull e List.mem_cons_self)
    obtain ⟨hshown, hsigns⟩ := Prod.mk.inj hview
    have hflag := lifeSignedSince_same hes.1 w.signed hsigns
    rw [hsigned] at hflag
    have hrest := ih (watchStep sign w e.1).1 (watchStep sign' w' e.2).1
      (by simpa only [watchStep, hsigned] using hflag) hlife hes.2
      (fun x hx => hfull x (List.mem_cons_of_mem e hx))
    rw [hsigned] at hshown
    rw [List.map_cons, List.map_cons, trace, trace, hrest]
    simp only [watchStep, hsigned, hshown]

theorem histories_same (h : SameLife Eq l l') {es : List (LifeEvent × LifeEvent)}
    (hes : AllSteps (bothStep sign sign') UsedAlike (l, l') es)
    (htold : AllSteps (bothStep sign sign') (SignaturesTold sign sign') (l, l') es) :
    trace (lifeStep sign) l (es.map Prod.fst) = trace (lifeStep sign') l' (es.map Prod.snd) := by
  induction es generalizing l l' with
  | nil => rfl
  | cons e es ih =>
    obtain ⟨hlife, hobs⟩ := life_told h hes.1 htold.1
    rw [List.map_cons, List.map_cons, trace, trace, hobs, ih hlife hes.2 htold.2]

end Lives

/-- The private key shows in signatures and in nothing else: two devices with one certificate,
whatever their keys and their signature primitives, that are used in the same way over their
lives show the same at every step, but for the answers that were signed and, from there to the
next bus reset or boot, for what the endpoint brings out. They show the same altogether if their
signatures are the same, and so as long as nothing was signed. -/
theorem key_concealed (sign sign' : SignFunction) {flash flash' : Memory UInt8}
    (hflash : SameOutsideKey flash flash') {es : List (LifeEvent × LifeEvent)}
    (hes : AllSteps (bothStep sign sign') UsedAlike (unpowered flash, unpowered flash') es) :
    ((∀ e ∈ es, LifeEvent.Full e.1) →
      lifeViews sign flash (es.map Prod.fst) = lifeViews sign' flash' (es.map Prod.snd)) ∧
    (AllSteps (bothStep sign sign') (SignaturesTold sign sign')
        (unpowered flash, unpowered flash') es →
      lifeHistory sign flash (es.map Prod.fst) = lifeHistory sign' flash' (es.map Prod.snd)) := by
  constructor
  · intro hfull
    exact views_same ⟨unpowered flash, false⟩ ⟨unpowered flash', false⟩ rfl ⟨hflash, .off⟩ hes
      hfull
  · intro htold
    exact histories_same ⟨hflash, .off⟩ hes htold

/-- Another key -/
def otherMaterial : KeyMaterial :=
  { privkey := List.replicate 32 7, pubkeyX := List.replicate 32 8, pubkeyY := List.replicate 32 9,
    certDer := [], privkey_length := by decide, pubkeyX_length := by decide,
    pubkeyY_length := by decide }

/-- A signature primitive that knows no key, and says what it draws -/
def toldSign : SignFunction := fun _ drawn =>
  { run := fun _ room => if drawn.length ≤ room then .ok drawn else .error (-1)
    fits := by
      intro hash room sig h
      split at h
      · cases h
        assumption
      · cases h }

/-- Keys were stored on both devices, and no certificate. -/
def storedKey (m : KeyMaterial) : Memory UInt8 :=
  sectorImage m.privkey m.pubkeyX m.pubkeyY (fun _ => 0) 0

/-- mbedTLS takes any private key but zero. -/
def importingCalls : BootCalls :=
  { sampleBoot.calls with
    importKey := fun privkey _ _ => if privkey = List.replicate 32 0 then -0x4C80 else 0 }

/-- The host logs in and asks for a signature until it gets one, and collects it; it resets the
bus, and asks for the slot status. The second device draws these bytes. -/
def requestTogether (drawn : List UInt8) : List (LifeEvent × LifeEvent) :=
  (.powerUp importingCalls none, .powerUp importingCalls none) ::
    (pressedRun ++ [apduAt 1040000 signApdu, .ccidTask true, .inRead 512, .inComplete, .busReset,
      .bulkOut (hostMessage pcToRdrGetSlotStatus []) (ambientAt 1050000), .ccidTask true,
      .inRead 512, .inComplete]).map fun e => (.loop (.firmware e) [], .loop (.firmware e) drawn)

theorem requestTogether_alike (drawn : List UInt8) :
    AllSteps (bothStep sampleSign toldSign) UsedAlike
      (unpowered (storedKey sampleMaterial), unpowered (storedKey otherMaterial))
      (requestTogether drawn) := by
  constructor
  · exact .powerUp ⟨rfl, fun _ => by decide +kernel, .ok rfl⟩
  · apply allSteps_iff.mpr
    rintro before e after hsplit
    obtain ⟨f, _, rfl⟩ := List.mem_map.mp (hsplit ▸ List.mem_append_right before List.mem_cons_self)
    exact .loop _ _ _

theorem requestTogether_full (drawn : List UInt8) :
    ∀ e ∈ requestTogether drawn, LifeEvent.Full e.1 := by
  intro e he
  rcases List.mem_cons.mp he with rfl | he
  · trivial
  · obtain ⟨f, hf, rfl⟩ := List.mem_map.mp he
    simp only [pressedRun, List.cons_append, List.nil_append, List.mem_cons, List.not_mem_nil,
      or_false] at hf
    rcases hf with rfl | rfl | rfl | rfl | rfl | rfl | rfl | rfl | rfl | rfl | rfl | rfl | rfl |
      rfl | rfl
    all_goals first
      | trivial
      | exact fun _ hshort => absurd hshort.1 (by decide)

theorem mem_primitive {sign : SignFunction} {l : Life} {e : LifeEvent} {pk : PkSign}
    (h : pk ∈ primitive sign l e) : ∃ key x drawn, e = .loop x drawn ∧ pk = sign key drawn := by
  cases e with
  | powerUp | powerLoss => cases h
  | loop x drawn =>
    simp only [primitive] at h
    split at h
    · cases h
      exact ⟨_, x, drawn, rfl, rfl⟩
    · cases h

/-- The second device is told the signature that the first one makes. -/
theorem requestTogether_told (l : Life × Life) :
    AllSteps (bothStep sampleSign toldSign) (SignaturesTold sampleSign toldSign) l
      (requestTogether (List.replicate 70 0x30)) := by
  apply allSteps_iff.mpr
  rintro before ⟨e, e'⟩ after hsplit now hash - pk hpk pk' hpk' -
  obtain ⟨_, _, _, _, rfl⟩ := mem_primitive hpk
  obtain ⟨_, x, drawn, hloop, rfl⟩ := mem_primitive hpk'
  have hmem : (e, e') ∈ requestTogether (List.replicate 70 0x30) :=
    hsplit ▸ List.mem_append_right before List.mem_cons_self
  rcases List.mem_cons.mp hmem with hboot | hmem
  · cases hboot
    cases hloop
  · obtain ⟨f, _, hf⟩ := List.mem_map.mp hmem
    cases hf
    cases hloop
    rfl

/-- A second device without signatures, and one that is told those of the first -/
theorem key_concealed_request :
    (lifeHistory sampleSign (storedKey sampleMaterial) ((requestTogether []).map Prod.fst)).any
        (inLife signs) = true ∧
      lifeViews sampleSign (storedKey sampleMaterial) ((requestTogether []).map Prod.fst) =
        lifeViews toldSign (storedKey otherMaterial) ((requestTogether []).map Prod.snd) ∧
      lifeHistory sampleSign (storedKey sampleMaterial)
          ((requestTogether (List.replicate 70 0x30)).map Prod.fst) =
        lifeHistory toldSign (storedKey otherMaterial)
          ((requestTogether (List.replicate 70 0x30)).map Prod.snd) := by
  have hflash : SameOutsideKey (storedKey sampleMaterial) (storedKey otherMaterial) :=
    sectorImage_same sampleMaterial otherMaterial _ _
  refine ⟨by decide +kernel, ?_, ?_⟩
  · exact (key_concealed sampleSign toldSign hflash (requestTogether_alike _)).1
      (requestTogether_full _)
  · exact (key_concealed sampleSign toldSign hflash (requestTogether_alike _)).2
      (requestTogether_told _)

end KeyConcealment
