import Ward3n.KeyStoreBoots
import Ward3n.StatusLight
import Ward3n.TokenRefinement

/-!
# The device over its life

`main` around everything else. A boot loads the key record or makes one, and
then serves, or hangs with the LED red; power may be lost at any moment, also in
the middle of a save, and what an interrupted save leaves in the sector is
anything. The sector is all that outlives a boot.

Once the sector holds a record nothing writes to it again, and a host is only
served from a boot that holds the stored record in memory. The device therefore
shows one certificate and signs with one key over its whole life, the key
and the certificate of the record the sector holds in the end.
-/

namespace DeviceLife

open CellMemory TracedRuns ApduCodec CryptoBackend FlashPersistence KeyStoreBoots DeviceState
  PivApplet CcidDriver Firmware AppletEffects FirmwareSteps ChainedResponses StatusLight
open TokenRefinement (objects)
open PixelWire (Colour)
open SessionGate (apduAt selectApdu signApdu pressedRun)

/-- `mbedtls_pk_sign` with a private key and the bytes it draws from the generator -/
abbrev SignFunction := List UInt8 → List UInt8 → PkSign

/-- The variables of the key store as the C runtime initialises them. -/
def backendAtReset : Backend := { initialized := false, certLen := 0, certDer := fun _ => 0 }

/-- The colour `main` hangs with. -/
def initFailed : Colour := ⟨255, 0, 0⟩

/-- What the main loop runs on: the private key in `_pk_9a`, the key store, and the board. -/
structure Serving where
  key : List UInt8
  backend : Backend
  board : Board

inductive Stage
  | off
  | serving (p : Serving)
  /-- the endless loop behind a failed `crypto_backend_init` -/
  | halted

structure Life where
  flash : Memory UInt8
  stage : Stage

inductive LifeEvent
  /-- power comes back and `main` starts; `cut` is what power lost before the main loop leaves in
  the sector, should a save have begun -/
  | powerUp (calls : BootCalls) (cut : Option (Memory UInt8))
  | powerLoss
  /-- an event of the main loop, and what a signature would draw from the generator -/
  | loop (e : BoardEvent) (drawn : List UInt8)

inductive LifeObservation
  /-- `main` sets the LED -/
  | set (c : Colour)
  | board (o : BoardObservation)

/-- The private key in `_pk_9a` once `crypto_backend_init` has returned 0. -/
def keyInUse (calls : BootCalls) (flash : Memory UInt8) : List UInt8 :=
  if flashIsInitialized flash then (flashRead flash).privkey
  else
    match calls.generate with
    | .error _ => []
    | .ok m => m.privkey

/-- The sector after a boot that lost power. It is written to only by `_flash_save`. -/
def interrupted (calls : BootCalls) (flash left : Memory UInt8) : Memory UInt8 :=
  if calls.seed = 0 ∧ flashIsInitialized flash = false ∧ calls.generate.isOk = true then left
  else flash

/-- The signature primitive an APDU finds is that of the key in use. -/
def withSigner (pk : PkSign) : Event → Event
  | .bulkOut bytes amb => .bulkOut bytes { amb with pkSign := pk }
  | e => e

def signedWith (pk : PkSign) : BoardEvent → BoardEvent
  | .firmware e => .firmware (withSigner pk e)
  | e => e

def lifeStep (sign : SignFunction) (l : Life) : LifeEvent → Life × List LifeObservation
  | .powerUp calls none =>
    let (ret, backend, flash) := cryptoBackendInit calls backendAtReset l.flash
    if ret ≠ 0 then ({ flash := flash, stage := .halted }, [.set initRed, .set initFailed])
    else
      ({ flash := flash, stage := .serving
          { key := keyInUse calls l.flash, backend := backend, board := bootBoard } },
        [.set initRed])
  | .powerUp calls (some left) =>
    ({ flash := interrupted calls l.flash left, stage := .off }, [.set initRed])
  | .powerLoss => ({ l with stage := .off }, [])
  | .loop e drawn =>
    match l.stage with
    | .serving p =>
      let (board, obs) := boardStep p.backend p.board (signedWith (sign p.key drawn) e)
      ({ l with stage := .serving { p with board := board } }, obs.map .board)
    | _ => (l, [])

/-- The device as it is before it is powered for the first time. -/
def unpowered (flash : Memory UInt8) : Life := { flash := flash, stage := .off }

def lifeRun (sign : SignFunction) (flash : Memory UInt8) (es : List LifeEvent) : Life :=
  exec (lifeStep sign) (unpowered flash) es

def lifeHistory (sign : SignFunction) (flash : Memory UInt8) (es : List LifeEvent) :
    List LifeObservation :=
  trace (lifeStep sign) (unpowered flash) es

/-- An APDU was answered. -/
def answered (x : Exchange) : LifeObservation := .board (.firmware (.exchange x))

/-- What the calls of mbedTLS promise: a failure has a code, and a certificate has room in the
sector. -/
structure Dependable (calls : BootCalls) : Prop where
  fails : ∀ ret, calls.generate = .error ret → ret ≠ 0
  fits : ∀ m, calls.generate = .ok m → m.certDer.length ≤ ksMaxCertLen

def LifeEvent.Dependable : LifeEvent → Prop
  | .powerUp calls _ => DeviceLife.Dependable calls
  | _ => True

section Boots

/-- The key store a boot makes of a record. -/
def keyStore (r : LoadedRecord) : Backend :=
  { initialized := true, certLen := r.certLen, certDer := write backendAtReset.certDer 0 r.certDer }

/-- The main loop runs on the record in the sector. -/
structure RunsOn (flash : Memory UInt8) (key : List UInt8) (b : Backend) : Prop where
  initialized : flashIsInitialized flash = true
  key : key = (flashRead flash).privkey
  backend : b = keyStore (flashRead flash)

variable {calls : BootCalls} {b : Backend} {flash flash' : Memory UInt8}

/-- A boot that comes through runs on what the sector holds now. -/
theorem boot_runsOn (hcalls : Dependable calls)
    (hinit : cryptoBackendInit calls backendAtReset flash = (0, b, flash')) :
    RunsOn flash' (keyInUse calls flash) b := by
  by_cases hseed : calls.seed = 0
  swap
  · rw [cryptoBackendInit, if_pos hseed] at hinit
    exact absurd (congrArg Prod.fst hinit) hseed
  by_cases hrecord : flashIsInitialized flash = true
  · simp only [cryptoBackendInit, hseed, hrecord, flashLoad, if_true] at hinit
    rw [if_neg (not_not.mpr rfl)] at hinit
    split at hinit
    · rename_i hret
      exact absurd (congrArg Prod.fst hinit) hret
    · cases hinit
      exact ⟨hrecord, by rw [keyInUse, if_pos hrecord], rfl⟩
  · have hnone : flashIsInitialized flash = false := by simpa using hrecord
    cases hgenerate : calls.generate with
    | error ret =>
      have hret := hcalls.fails ret hgenerate
      simp only [cryptoBackendInit, hseed, hnone, generateAndPersist, hgenerate] at hinit
      rw [if_neg (not_not.mpr rfl)] at hinit
      simp only [Bool.false_eq_true, if_false, if_pos hret] at hinit
      exact absurd (congrArg Prod.fst hinit) hret
    | ok m =>
      have hfits := hcalls.fits m hgenerate
      have hboot : Boot.init ⟨calls, backendAtReset⟩ flash = _ :=
        init_generates hnone ⟨hseed, hgenerate⟩ hfits
      have hholds := saved_holds flash backendAtReset.certDer hfits
      cases hinit.symm.trans hboot
      refine ⟨hholds.initialized, ?_, ?_⟩
      · rw [hholds.record, keyInUse, hnone, hgenerate]
        rfl
      · rw [hholds.record]
        rfl

/-- A boot that finds a record leaves it alone, whether it comes through or not. -/
theorem boot_keeps (calls : BootCalls) (hrecord : flashIsInitialized flash = true) :
    (cryptoBackendInit calls backendAtReset flash).2.2 = flash := by
  have hstep := bootStep_initialized hrecord ⟨calls, backendAtReset⟩
  rwa [bootStep, Boot.init] at hstep

theorem interrupted_keeps (hrecord : flashIsInitialized flash = true) (left : Memory UInt8) :
    interrupted calls flash left = flash := by
  rw [interrupted, if_neg]
  rintro ⟨_, hnone, _⟩
  rw [hrecord] at hnone
  cases hnone

end Boots

/-- The tag in the command data of GET DATA, as the handler reads it. -/
def tagOf (cmd : ApduCmd) : List UInt8 := read (advance cmd.data 2) (cmd.data 1).toNat

/-- The answer to an APDU is one that this record stands behind: the data of GET DATA and GET
RESPONSE come from its objects, and a signature is one under its key. -/
structure Belongs (sign : SignFunction) (r : LoadedRecord) (x : Exchange) : Prop where
  object : ∀ cmd, x.cmd = some cmd → cmd.ins = 0xCB → answerBody x.answer ≠ [] →
    ∃ obj, objects (keyStore r) (tagOf cmd) = some obj ∧
      answerBody x.answer = obj.take (effectiveLe cmd)
  rest : ∀ cmd, x.cmd = some cmd → cmd.ins = 0xC0 →
    ∃ tag obj, objects (keyStore r) tag = some obj ∧ answerBody x.answer <:+: obj
  signature : ∀ cmd, x.cmd = some cmd → cmd.ins = 0x87 → answerBody x.answer ≠ [] →
    ∃ p n drawn sig, templateChallenge cmd.data cmd.lc = some (p, n) ∧
      (sign r.privkey drawn).run (read (advance cmd.data p) n) 72 = .ok sig ∧
      answerBody x.answer = signatureTemplate sig

section Exchanges

variable {k : Backend} {amb : Ambient} {card : Card} {cmd : ApduCmd} {r : Reply}

theorem requestedObject_held {obj : List UInt8} (h : requestedObject k cmd = .ok obj) :
    objects k (tagOf cmd) = some obj := by
  simp only [requestedObject] at h
  split at h
  · cases h
  split at h
  · cases h
  split at h
  · cases h
  rename_i hlen
  split at h
  · cases h
  rename_i obj' hobj
  cases h
  by_cases hthree : cmd.data 1 = 3
  · rw [hthree, TokenRefinement.dataObject_three] at hobj
    rw [tagOf, hthree]
    exact hobj
  · have hone : cmd.data 1 = 1 := by
      by_contra hone
      exact hlen ⟨hthree, hone⟩
    rw [hone, TokenRefinement.dataObject_one] at hobj
    rw [tagOf, hone]
    exact hobj

theorem requestedChallenge_read {piv : Piv} {hash : List UInt8}
    (h : requestedChallenge piv cmd = .ok hash) :
    ∃ p n, templateChallenge cmd.data cmd.lc = some (p, n) ∧
      hash = read (advance cmd.data p) n := by
  simp only [requestedChallenge] at h
  repeat' split at h
  all_goals first
    | cases h
      exact ⟨_, _, by assumption, rfl⟩
    | cases h

/-- A signature comes from the primitive. -/
theorem cryptoSign_run {pk : PkSign} {keyRef alg : UInt8} {hash : List UInt8} {room : Nat}
    (h : cryptoSign k pk keyRef alg hash room ≠ []) :
    pk.run hash room = .ok (cryptoSign k pk keyRef alg hash room) := by
  simp only [cryptoSign] at h ⊢
  repeat' split at h
  all_goals first
    | exact absurd rfl h
    | skip
  rename_i hinit hkey hhash hroom _ sig hrun
  simp only [if_neg hinit, if_neg hkey, if_neg hhash, if_neg hroom, hrun]

/-- Data in the answer to GET DATA is the front of an object. -/
theorem object_body (h : Effect k amb card (some cmd) r) (hins : cmd.ins = 0xCB)
    (hdata : r.body ≠ []) :
    ∃ obj, objects k (tagOf cmd) = some obj ∧ r.body = obj.take (effectiveLe cmd) := by
  cases h with
  | refused | pinAccepted | pinRejected | requested | signFailed => exact absurd rfl hdata
  | selected hother => exact absurd (hins.symm.trans hother.2.1) (by decide)
  | delivered _ hrequest hfits =>
    exact ⟨_, requestedObject_held hrequest, (List.take_of_length_le hfits).symm⟩
  | chained _ hrequest => exact ⟨_, requestedObject_held hrequest, rfl⟩
  | continued hother | signed hother =>
    exact absurd (hins.symm.trans hother.2.2) (by decide)

/-- Data in the answer to GENERAL AUTHENTICATE is a signature of its challenge. -/
theorem signature_body (h : Effect k amb card (some cmd) r) (hins : cmd.ins = 0x87)
    (hdata : r.body ≠ []) :
    ∃ p n sig, templateChallenge cmd.data cmd.lc = some (p, n) ∧
      amb.pkSign.run (read (advance cmd.data p) n) 72 = .ok sig ∧
      r.body = signatureTemplate sig := by
  cases h with
  | refused | pinAccepted | pinRejected | requested | signFailed => exact absurd rfl hdata
  | selected hother => exact absurd (hins.symm.trans hother.2.1) (by decide)
  | delivered hother | chained hother | continued hother =>
    exact absurd (hins.symm.trans hother.2.2) (by decide)
  | signed _ hrequest _ hsig hsome =>
    obtain ⟨p, n, htemplate, rfl⟩ := requestedChallenge_read hrequest
    subst hsig
    exact ⟨p, n, _, htemplate, cryptoSign_run hsome, rfl⟩

/-- What is left in the chain buffer is the end of an object. -/
def ChainHolds (k : Backend) (piv : Piv) : Prop :=
  ∃ tag obj, objects k tag = some obj ∧ pending piv <:+ obj

theorem chainHolds_of_nil {piv : Piv} (h : pending piv = []) : ChainHolds k piv :=
  ⟨pivTagCcc, cccData, rfl, h ▸ List.nil_suffix⟩

/-- Data in the answer to GET RESPONSE is a piece of an object. -/
theorem rest_body (h : Effect k amb card (some cmd) r) (hins : cmd.ins = 0xC0)
    (hchain : ChainHolds k card.piv) : ∃ tag obj, objects k tag = some obj ∧ r.body <:+: obj := by
  obtain ⟨tag, obj, hobj, hsuffix⟩ := hchain
  cases h with
  | refused | pinAccepted | pinRejected | requested | signFailed =>
    exact ⟨tag, obj, hobj, List.nil_infix⟩
  | selected hother => exact absurd (hins.symm.trans hother.2.1) (by decide)
  | delivered hother | chained hother | signed hother =>
    exact absurd (hins.symm.trans hother.2.2) (by decide)
  | continued _ =>
    refine ⟨tag, obj, hobj, ?_⟩
    rw [chainPart_read]
    exact (List.take_prefix _ _).isInfix.trans hsuffix.isInfix

/-- The chain buffer only ever gets objects. -/
theorem chainHolds_effect {c : Option ApduCmd} (h : Effect k amb card c r)
    (hchain : ChainHolds k card.piv) : ChainHolds k r.card.piv := by
  cases h with
  | refused | selected | pinAccepted | pinRejected | delivered | requested | signFailed
  | signed => exact hchain
  | chained _ hrequest hlong =>
    refine ⟨_, _, requestedObject_held hrequest, ?_⟩
    rw [pending_opened _ _ (Nat.le_of_lt hlong)]
    exact List.drop_suffix _ _
  | continued _ =>
    obtain ⟨tag, obj, hobj, hsuffix⟩ := hchain
    refine ⟨tag, obj, hobj, ?_⟩
    rw [pending_continued]
    exact (List.drop_suffix _ _).trans hsuffix

end Exchanges

section Steps

variable {sign : SignFunction} {r : LoadedRecord} {drawn : List UInt8} {k : Backend}

theorem withSigner_pkSign {pk : PkSign} {e : Event} {bytes : List UInt8} {amb : Ambient}
    (h : withSigner pk e = .bulkOut bytes amb) : amb.pkSign = pk := by
  cases e with
  | bulkOut =>
    cases h
    rfl
  | inRead | inComplete | ccidTask | busReset | umount | gpioIrq | poll | tick => cases h

/-- An APDU is answered only by a forwarded message. -/
theorem exchange_mem {s s' : State} {e : Event} {obs : List Observation}
    (heffect : StepEffect k s e s' obs) {x : Exchange} (hx : .exchange x ∈ obs) :
    ∃ bytes amb reply, e = .bulkOut bytes amb ∧
      Effect k amb s.card (forwardedCmd (received s bytes)) reply ∧
      x = ⟨forwardedCmd (received s bytes), reply.bytes⟩ := by
  cases heffect with
  | quiet _ _ _ _ _ hobs => rcases hobs _ hx with ⟨_, heq⟩ | ⟨_, heq⟩ <;> cases heq
  | powerOn | powerOff | reset | noPress => simp at hx
  | @apdu bytes response amb _ reply hmessage heffect =>
    simp only [List.mem_append, List.mem_cons, List.not_mem_nil, or_false, mem_signObs,
      Observation.exchange.injEq, reduceCtorEq, or_false] at hx
    rcases hx with (⟨_, _, heq⟩ | hmoved) | heq
    · cases heq
    · cases (mem_movedObs hmoved).2
    · exact ⟨bytes, amb, reply, rfl, heffect, heq⟩
  | umount | tick => cases (mem_movedObs hx).2
  | edge => split at hx <;> simp at hx
  | press =>
    rcases List.mem_cons.mp hx with heq | hmoved
    · cases heq
    · cases (mem_movedObs hmoved).2

theorem effect_belongs {amb : Ambient} {card : Card} {cmd : Option ApduCmd} {reply : Reply}
    (h : Effect (keyStore r) amb card cmd reply) (hpk : amb.pkSign = sign r.privkey drawn)
    (hchain : ChainHolds (keyStore r) card.piv) : Belongs sign r ⟨cmd, reply.bytes⟩ := by
  refine ⟨?_, ?_, ?_⟩
  · rintro c rfl hins hdata
    simp only [answerBody_bytes] at hdata ⊢
    exact object_body h hins hdata
  · rintro c rfl hins
    simp only [answerBody_bytes]
    exact rest_body h hins hchain
  · rintro c rfl hins hdata
    simp only [answerBody_bytes] at hdata ⊢
    obtain ⟨p, n, sig, htemplate, hrun, hbody⟩ := signature_body h hins hdata
    rw [hpk] at hrun
    exact ⟨p, n, drawn, sig, htemplate, hrun, hbody⟩

theorem chainHolds_step {s : State} (e : Event) (hchain : ChainHolds k s.card.piv) :
    ChainHolds k (step k s e).1.card.piv := by
  have heffect := step_effect k s e
  generalize (step k s e).1 = s' at heffect ⊢
  generalize (step k s e).2 = obs at heffect
  cases heffect with
  | quiet _ _ _ hcard | powerOff _ _ hcard | reset _ hcard | umount _ hcard | edge _ hcard
  | press _ _ hcard | noPress _ _ hcard | tick _ hcard =>
    rw [hcard]
    exact hchain
  | powerOn _ _ hcard =>
    rw [hcard]
    exact chainHolds_of_nil rfl
  | apdu _ heffect _ hcard =>
    rw [hcard]
    exact chainHolds_effect heffect hchain

/-- An event of the main loop answers for the record in use. -/
theorem loop_belongs (sign : SignFunction) (r : LoadedRecord) (b : Board) (e : BoardEvent)
    (drawn : List UInt8) (hchain : ChainHolds (keyStore r) b.firmware.card.piv) :
    ChainHolds (keyStore r)
        (boardStep (keyStore r) b (signedWith (sign r.privkey drawn) e)).1.firmware.card.piv ∧
      ∀ x, .firmware (.exchange x) ∈
        (boardStep (keyStore r) b (signedWith (sign r.privkey drawn) e)).2 → Belongs sign r x := by
  cases e with
  | neopixelTick | suspend => exact ⟨hchain, fun x hx => by simp [signedWith, boardStep] at hx⟩
  | firmware e =>
    refine ⟨chainHolds_step _ hchain, fun x hx => ?_⟩
    have hsaid : Observation.exchange x ∈
        (step (keyStore r) b.firmware (withSigner (sign r.privkey drawn) e)).2 := by
      rw [← said_firmware]
      exact List.mem_filterMap.mpr ⟨_, hx, rfl⟩
    obtain ⟨bytes, amb, reply, he, heffect, rfl⟩ := exchange_mem (step_effect _ _ _) hsaid
    exact effect_belongs heffect (withSigner_pkSign he) hchain

end Steps

/-- What the device has shown belongs to the record in the sector, and so does what it runs on. -/
structure OneIdentity (sign : SignFunction) (h : List LifeObservation) (l : Life) : Prop where
  shown : ∀ x, answered x ∈ h →
    flashIsInitialized l.flash = true ∧ Belongs sign (flashRead l.flash) x
  runs : ∀ p, l.stage = .serving p → RunsOn l.flash p.key p.backend
  chain : ∀ p, l.stage = .serving p → ChainHolds p.backend p.board.firmware.card.piv

section Life

variable {sign : SignFunction} {h : List LifeObservation} {l : Life}

theorem powerUp_serves (sign : SignFunction) {calls : BootCalls} {backend : Backend}
    {flash : Memory UInt8}
    (hinit : cryptoBackendInit calls backendAtReset l.flash = (0, backend, flash)) :
    lifeStep sign l (.powerUp calls none) =
      ({ flash := flash, stage := .serving
          { key := keyInUse calls l.flash, backend := backend, board := bootBoard } },
        [.set initRed]) := by
  simp only [lifeStep, hinit]
  rfl

theorem powerUp_halts (sign : SignFunction) {calls : BootCalls} {ret : Int} {backend : Backend}
    {flash : Memory UInt8}
    (hinit : cryptoBackendInit calls backendAtReset l.flash = (ret, backend, flash))
    (hret : ret ≠ 0) :
    lifeStep sign l (.powerUp calls none) =
      ({ flash := flash, stage := .halted }, [.set initRed, .set initFailed]) := by
  simp only [lifeStep, hinit, if_pos hret]

/-- A power-up that shows nothing and leaves a record alone. -/
theorem OneIdentity.powerUp (hid : OneIdentity sign h l) {flash : Memory UInt8}
    (hkeeps : flashIsInitialized l.flash = true → flash = l.flash) {obs : List LifeObservation}
    (hobs : ∀ x, answered x ∉ obs) {stage : Stage}
    (hruns : ∀ p, stage = .serving p → RunsOn flash p.key p.backend)
    (hchain : ∀ p, stage = .serving p → ChainHolds p.backend p.board.firmware.card.piv) :
    OneIdentity sign (h ++ obs) { flash := flash, stage := stage } := by
  refine ⟨fun x hx => ?_, hruns, hchain⟩
  rcases List.mem_append.mp hx with hx | hx
  · have hshown := hid.shown x hx
    rw [hkeeps hshown.1]
    exact hshown
  · exact absurd hx (hobs x)

/-- A step after which the main loop does not run. -/
theorem OneIdentity.down (hid : OneIdentity sign h l) {flash : Memory UInt8}
    (hkeeps : flashIsInitialized l.flash = true → flash = l.flash) {obs : List LifeObservation}
    (hobs : ∀ x, answered x ∉ obs) {stage : Stage} (hdown : ∀ p, stage ≠ .serving p) :
    OneIdentity sign (h ++ obs) { flash := flash, stage := stage } :=
  hid.powerUp hkeeps hobs (fun p hp => absurd hp (hdown p)) (fun p hp => absurd hp (hdown p))

theorem identity_step (h : List LifeObservation) (l : Life) (e : LifeEvent)
    (he : e.Dependable) (hid : OneIdentity sign h l) :
    OneIdentity sign (h ++ (lifeStep sign l e).2) (lifeStep sign l e).1 := by
  cases e with
  | powerUp calls cut =>
    cases cut with
    | some left =>
      simp only [lifeStep]
      exact hid.down (fun hrecord => interrupted_keeps hrecord left) (by simp [answered]) (by simp)
    | none =>
      obtain ⟨ret, backend, flash, hinit⟩ : ∃ ret backend flash,
          cryptoBackendInit calls backendAtReset l.flash = (ret, backend, flash) := ⟨_, _, _, rfl⟩
      have hkeeps : flashIsInitialized l.flash = true → flash = l.flash := by
        intro hrecord
        have hsame := boot_keeps calls hrecord
        rwa [hinit] at hsame
      by_cases hret : ret = 0
      · rw [hret] at hinit
        rw [powerUp_serves sign hinit]
        refine hid.powerUp hkeeps (by simp [answered]) ?_ ?_
        · rintro _ ⟨⟩
          have hcalls : Dependable calls := he
          exact boot_runsOn hcalls hinit
        · rintro _ ⟨⟩
          exact chainHolds_of_nil rfl
      · rw [powerUp_halts sign hinit hret]
        exact hid.down hkeeps (by simp [answered]) (by simp)
  | powerLoss =>
    simp only [lifeStep]
    exact hid.down (fun _ => rfl) (by simp) (by simp)
  | loop e drawn =>
    simp only [lifeStep]
    cases hstage : l.stage with
    | off | halted =>
      rw [List.append_nil]
      exact hid
    | serving p =>
      obtain ⟨hrecord, hkey, hbackend⟩ := hid.runs p hstage
      have hchain := hid.chain p hstage
      rw [hbackend] at hchain
      have hloop := loop_belongs sign (flashRead l.flash) p.board e drawn hchain
      rw [← hkey, ← hbackend] at hloop
      obtain ⟨hchain', hbelongs⟩ := hloop
      refine ⟨fun x hx => ?_, ?_, ?_⟩
      · rcases List.mem_append.mp hx with hx | hx
        · exact hid.shown x hx
        · obtain ⟨o, ho, heq⟩ := List.mem_map.mp hx
          cases heq
          exact ⟨hrecord, hbelongs x ho⟩
      · rintro _ ⟨⟩
        exact ⟨hrecord, hkey, hbackend⟩
      · rintro _ ⟨⟩
        exact hchain'

theorem identity_run (sign : SignFunction) (flash : Memory UInt8) {es : List LifeEvent}
    (hcalls : ∀ e ∈ es, e.Dependable) :
    OneIdentity sign (lifeHistory sign flash es) (lifeRun sign flash es) := by
  have hdown : ∀ p, (unpowered flash).stage ≠ .serving p := by simp [unpowered]
  have hstart : OneIdentity sign [] (unpowered flash) :=
    ⟨by simp, fun p hp => absurd hp (hdown p), fun p hp => absurd hp (hdown p)⟩
  have hall : AllSteps (lifeStep sign) (fun _ e => e.Dependable) (unpowered flash) es :=
    allSteps_of_mem hcalls _
  exact guarded_history (fun h l e he hid => identity_step h l e he hid) hstart hall

/-- A record is never overwritten. -/
theorem flash_kept (hrecord : flashIsInitialized l.flash = true) (es : List LifeEvent) :
    (exec (lifeStep sign) l es).flash = l.flash := by
  have hstep : ∀ (l' : Life) (e : LifeEvent), l'.flash = l.flash →
      (lifeStep sign l' e).1.flash = l.flash := by
    intro l' e hsame
    rw [← hsame] at hrecord ⊢
    cases e with
    | powerUp calls cut =>
      cases cut with
      | some left => exact interrupted_keeps hrecord left
      | none =>
        have hkeeps := boot_keeps calls hrecord
        simp only [lifeStep]
        split <;> exact hkeeps
    | powerLoss => rfl
    | loop e drawn =>
      simp only [lifeStep]
      split <;> rfl
  exact state_invariant (P := fun l' : Life => l'.flash = l.flash) hstep rfl es

/-- The record, if there is one, is that of a key made on the device. -/
def MadeIn (es : List LifeEvent) (flash : Memory UInt8) : Prop :=
  flashIsInitialized flash = true → ∃ calls m, .powerUp calls none ∈ es ∧
    calls.generate = .ok m ∧ flashRead flash = savedRecord m

/-- A boot that comes to write a record writes that of the key it made. -/
theorem madeIn_boot {calls : BootCalls} (hcalls : Dependable calls) {es : List LifeEvent}
    (hmem : .powerUp calls none ∈ es) {flash : Memory UInt8} (hmade : MadeIn es flash) :
    MadeIn es (cryptoBackendInit calls backendAtReset flash).2.2 := by
  by_cases hrecord : flashIsInitialized flash = true
  · rw [boot_keeps calls hrecord]
    exact hmade
  have hnone : flashIsInitialized flash = false := by simpa using hrecord
  by_cases hseed : calls.seed = 0
  swap
  · rw [cryptoBackendInit, if_pos hseed]
    exact hmade
  cases hgenerate : calls.generate with
  | error ret =>
    have hflash : (cryptoBackendInit calls backendAtReset flash).2.2 = flash := by
      simp only [cryptoBackendInit, hseed, hnone, generateAndPersist, hgenerate]
      split
      · rename_i hno
        exact absurd rfl hno
      · simp only [Bool.false_eq_true, if_false]
        split <;> rfl
    rw [hflash]
    exact hmade
  | ok m =>
    have hfits := hcalls.fits m hgenerate
    have hboot : Boot.init ⟨calls, backendAtReset⟩ flash = _ :=
      init_generates hnone ⟨hseed, hgenerate⟩ hfits
    rw [Boot.init] at hboot
    rw [hboot]
    exact fun _ => ⟨calls, m, hmem, hgenerate, (saved_holds flash _ hfits).record⟩

theorem madeIn_run (sign : SignFunction) {flash : Memory UInt8} {es : List LifeEvent}
    (hcalls : ∀ e ∈ es, e.Dependable) (hblank : flashIsInitialized flash = false)
    (huncut : ∀ calls left, .powerUp calls (some left) ∉ es) :
    MadeIn es (lifeRun sign flash es).flash := by
  have hstart : MadeIn es (unpowered flash).flash := by
    intro hrecord
    rw [show (unpowered flash).flash = flash from rfl, hblank] at hrecord
    cases hrecord
  have hall : AllSteps (lifeStep sign) (fun _ e => e ∈ es) (unpowered flash) es :=
    allSteps_of_mem (fun _ he => he) _
  refine guarded_history (J := fun _ l => MadeIn es l.flash) (h := []) ?_ hstart hall
  intro _ l e hmem hmade
  cases e with
  | powerUp calls cut =>
    cases cut with
    | some left => exact absurd hmem (huncut calls left)
    | none =>
      have hboot := madeIn_boot (hcalls _ hmem) hmem hmade
      simp only [lifeStep]
      split <;> exact hboot
  | powerLoss => exact hmade
  | loop e drawn =>
    simp only [lifeStep]
    split <;> exact hmade

end Life

/-- One device, one identity: over a life with any number of boots, failures and power cuts,
every answer belongs to the record that the sector holds in the end, and from the first
moment it holds one on it holds that one. A device that was blank, and whose saves were not
cut, holds the record of a key that one of its boots made. -/
theorem one_identity (sign : SignFunction) (flash : Memory UInt8) {es : List LifeEvent}
    (hcalls : ∀ e ∈ es, e.Dependable) :
    (∀ x, answered x ∈ lifeHistory sign flash es →
      flashIsInitialized (lifeRun sign flash es).flash = true ∧
        Belongs sign (flashRead (lifeRun sign flash es).flash) x) ∧
    (∀ before after, es = before ++ after →
      flashIsInitialized (lifeRun sign flash before).flash = true →
        (lifeRun sign flash es).flash = (lifeRun sign flash before).flash) ∧
    (flashIsInitialized flash = false → (∀ calls left, .powerUp calls (some left) ∉ es) →
      MadeIn es (lifeRun sign flash es).flash) := by
  refine ⟨(identity_run sign flash hcalls).shown, ?_, madeIn_run sign hcalls⟩
  rintro before after rfl hrecord
  rw [lifeRun, exec_append]
  exact flash_kept hrecord after

/-- GET DATA of the certificate -/
def certificateApdu : List UInt8 :=
  [0x00, 0xCB, 0x3F, 0xFF, 0x05, 0x5C, 0x03, 0x5F, 0xC1, 0x05, 0x10]

/-- The first boot of a device loses power in its save before anything was programmed; the
second makes a key and serves the host. On the third the host gets a signature, and the first
two pieces of the certificate. -/
def sampleLife : List LifeEvent :=
  [.powerUp sampleBoot.calls (some erasedFlash),
    .powerUp sampleBoot.calls none,
    .loop (.firmware (.bulkOut (hostMessage pcToRdrIccPowerOn []) (ambientAt 10))) [],
    .loop (.firmware (apduAt 11 selectApdu)) [],
    .powerLoss,
    .powerUp sampleBoot.calls none] ++
  (pressedRun ++ [apduAt 1040000 signApdu, apduAt 1040001 certificateApdu,
    apduAt 1040002 [0x00, 0xC0, 0x00, 0x00, 0x08]]).map fun e => .loop (.firmware e) []

def sampleSign : SignFunction := fun _ _ => sampleSigner

theorem sampleBoot_dependable : Dependable sampleBoot.calls where
  fails := nofun
  fits := by
    rintro m ⟨⟩
    rw [sampleMaterial_length]
    decide

def answers (h : List LifeObservation) : List Exchange :=
  h.filterMap fun
    | .board (.firmware (.exchange x)) => some x
    | _ => none

theorem one_identity_sample :
    (answers (lifeHistory sampleSign erasedFlash sampleLife)).map Exchange.answer =
        [fci ++ swBytes swOk, fci ++ swBytes swOk, swBytes swOk, swBytes swConditionsNotSatisfied,
          signatureTemplate (List.replicate 70 0x30) ++ swBytes swOk,
          (certObject sampleMaterial.certDer).take 16 ++ swBytes (swRemaining 397),
          ((certObject sampleMaterial.certDer).drop 16).take 8 ++ swBytes (swRemaining 389)] ∧
      ∀ x, answered x ∈ lifeHistory sampleSign erasedFlash sampleLife →
        Belongs sampleSign (flashRead (lifeRun sampleSign erasedFlash sampleLife).flash) x := by
  constructor
  · decide +kernel
  · intro x hx
    have hcalls : ∀ e ∈ sampleLife, e.Dependable := by
      intro e he
      rcases List.mem_append.mp he with he | he
      · simp only [List.mem_cons, List.not_mem_nil, or_false] at he
        rcases he with rfl | rfl | rfl | rfl | rfl | rfl
        all_goals first
          | trivial
          | exact sampleBoot_dependable
      · obtain ⟨f, _, rfl⟩ := List.mem_map.mp he
        trivial
    exact ((one_identity sampleSign erasedFlash hcalls).1 x hx).2

end DeviceLife
