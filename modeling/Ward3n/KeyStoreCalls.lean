import Ward3n.CallProtocols
import Ward3n.CryptoBackend

/-!
# The calls that set up the key store

`crypto_backend_init`, `_flash_load` and `_generate_and_persist`, call by call:
each call into mbedTLS may return an error, and the functions return early or go
to their clean-up. What mbedTLS and the Pico SDK ask of their callers is a
protocol over the contexts.
-/

namespace KeyStoreCalls

open CellMemory CryptoBackend CallProtocols

/-- The calls made while booting, under the names they are called by -/
inductive Call
  | entropyInit
  | ctrDrbgInit
  | ctrDrbgSeed
  | getUniqueBoardId
  | pkInit
  | pkFree
  | pkSetup
  | ecpReadKey
  | ecpGroupInit
  | ecpPointInit
  | ecpGroupLoad
  | ecpPointReadBinary
  | ecpGroupFree
  | ecpPointFree
  | ecpKeypairCalcPublic
  | ecpGenKey
  | ecpWriteKeyExt
  | ecpWritePublicKey
  | x509writeCrtInit
  | mpiInit
  | setSubjectKey
  | setIssuerKey
  | setVersion
  | setMdAlg
  | setSubjectName
  | setIssuerName
  | mpiReadBinary
  | setSerial
  | setValidity
  | setBasicConstraints
  | setSubjectKeyIdentifier
  | setAuthorityKeyIdentifier
  | setKeyUsage
  | setExtension
  | x509writeCrtDer
  | saveAndDisableInterrupts
  | flashRangeErase
  | flashRangeProgram
  | restoreInterrupts
  | x509writeCrtFree
  | mpiFree
  deriving DecidableEq

/-- The calls that return a code the functions look at -/
def checked : List Call :=
  [.ctrDrbgSeed, .pkSetup, .ecpGenKey, .ecpWriteKeyExt, .ecpWritePublicKey, .setSubjectName,
    .setIssuerName, .mpiReadBinary, .setSerial, .setValidity, .setBasicConstraints,
    .setSubjectKeyIdentifier, .setAuthorityKeyIdentifier, .setKeyUsage, .setExtension,
    .ecpKeypairCalcPublic]

/-- What the calls answer. -/
structure Answers where
  code : Call → Int
  /-- `mbedtls_ecp_read_key` of a private key -/
  readKey : List UInt8 → Int
  /-- `mbedtls_ecp_group_load`, whose code nobody looks at -/
  groupLoad : Int
  /-- `mbedtls_ecp_point_read_binary` of an encoded point -/
  pointReadBinary : List UInt8 → Int
  privkey : List UInt8
  pubOlen : Nat
  pubkeyRaw : List UInt8
  /-- `mbedtls_x509write_crt_der`: an error, or the bytes at the end of the buffer -/
  certDer : Except Int (List UInt8)
  privkey_length : privkey.length = 32
  pubkeyRaw_length : pubkeyRaw.length = 65
  certDer_error : ∀ ret, certDer = .error ret → ret < 0

namespace Answers

variable (a : Answers)

/-- The code of a call that is made for its effect alone is taken to be 0. -/
def ret (c : Call) : Int := if c ∈ checked then a.code c else 0

/-- The exported key, and the certificate made for it -/
def material (der : List UInt8) : KeyMaterial where
  privkey := a.privkey
  pubkeyX := (a.pubkeyRaw.drop 1).take 32
  pubkeyY := (a.pubkeyRaw.drop 33).take 32
  certDer := der
  privkey_length := a.privkey_length
  pubkeyX_length := by simp [a.pubkeyRaw_length]
  pubkeyY_length := by simp [a.pubkeyRaw_length]

end Answers

/-- The settings of the certificate, in order -/
def certificateCalls : List Call :=
  [.setSubjectKey, .setIssuerKey, .setVersion, .setMdAlg, .setSubjectName, .setIssuerName,
    .getUniqueBoardId, .mpiReadBinary, .setSerial, .setValidity, .setBasicConstraints,
    .setSubjectKeyIdentifier, .setAuthorityKeyIdentifier, .setKeyUsage, .setExtension]

/-- The end of `_flash_save` -/
def flashCalls : List Call :=
  [.saveAndDisableInterrupts, .flashRangeErase, .flashRangeProgram, .restoreInterrupts]

section Functions

variable (a : Answers)

/-- The export of the public key: a length other than 65 is the error -1. -/
def writePublicKey : Script Call Unit :=
  (Script.attempt .ecpWritePublicKey (a.ret .ecpWritePublicKey)).andThen fun _ =>
    if a.pubOlen ≠ 65 then .fail (-1) else .give ()

/-- The certificate as DER. A length of 0 ends the function with its code, which is 0. -/
def writeCrtDer : Script Call (List UInt8) :=
  match a.certDer with
  | .error ret => (Script.attempt .x509writeCrtDer ret).andThen fun _ => .fail ret
  | .ok der =>
    (Script.attempt .x509writeCrtDer 0).andThen fun _ =>
      if der = [] then .fail 0 else .give der

/-- `_generate_and_persist`, between the initialisation of the certificate and `cert_cleanup` -/
def certify : Script Call KeyMaterial :=
  (Script.attemptAll a.ret certificateCalls).andThen fun _ =>
  (writeCrtDer a).andThen fun der =>
  (Script.attemptAll a.ret flashCalls).andThen fun _ => .give (a.material der)

/-- `_generate_and_persist` -/
def generateCalls : Script Call KeyMaterial :=
  (Script.attemptAll a.ret [.pkFree, .pkInit, .pkSetup, .ecpGenKey, .ecpWriteKeyExt]).andThen
    fun _ =>
  (writePublicKey a).andThen fun _ =>
  (Script.attemptAll a.ret [.x509writeCrtInit, .mpiInit]).andThen fun _ =>
  (certify a).finallyDo [.x509writeCrtFree, .mpiFree]

/-- `_flash_load` of a record with this key. The point is parsed, and freed either way. -/
def loadCalls (privkey pubkeyX pubkeyY : List UInt8) : Script Call Unit :=
  (Script.attemptAll a.ret [.pkFree, .pkInit, .pkSetup]).andThen fun _ =>
  (Script.attempt .ecpReadKey (a.readKey privkey)).andThen fun _ =>
  (Script.attemptAll a.ret [.ecpGroupInit, .ecpPointInit]).andThen fun _ =>
  (Script.perform .ecpGroupLoad a.groupLoad).andThen fun _ =>
  ((Script.attempt .ecpPointReadBinary
    (a.pointReadBinary ([0x04] ++ pubkeyX ++ pubkeyY))).finallyDo
      [.ecpGroupFree, .ecpPointFree]).andThen fun _ =>
  .attempt .ecpKeypairCalcPublic (a.ret .ecpKeypairCalcPublic)

/-- The calls at the beginning of `crypto_backend_init` -/
def seedCalls : Script Call Unit :=
  .attemptAll a.ret [.entropyInit, .ctrDrbgInit, .pkInit, .getUniqueBoardId, .ctrDrbgSeed]

/-- The key is loaded, or made and stored: then it is the result. -/
def keyCalls (flash : Memory UInt8) : Script Call (Option KeyMaterial) :=
  if flashIsInitialized flash then
    (loadCalls a (flashRead flash).privkey (flashRead flash).pubkeyX
      (flashRead flash).pubkeyY).andThen fun _ => .give none
  else (generateCalls a).andThen fun m => .give (some m)

/-- `crypto_backend_init` -/
def initCalls (flash : Memory UInt8) : Script Call (Option KeyMaterial) :=
  (seedCalls a).andThen fun _ => keyCalls a flash

/-- The outcomes the calls amount to -/
def bootCalls : BootCalls where
  seed := (seedCalls a).code
  importKey := fun privkey pubkeyX pubkeyY => (loadCalls a privkey pubkeyX pubkeyY).code
  generate := (generateCalls a).outcome

end Functions

/-- A random generator: its memory is raw, initialised, or it was seeded. -/
inductive Drbg
  | raw
  | ready
  | seeded
  deriving DecidableEq

/-- A key context: raw, initialised, set up for a kind of key, with a private key alone, or with
both. -/
inductive Pk
  | raw
  | empty
  | setUp
  | secret
  | keyed
  deriving DecidableEq

/-- The contexts, and what is done to the flash -/
structure Contexts where
  entropy : Bool
  drbg : Drbg
  pk : Pk
  /-- a certificate, and the settings made -/
  crt : Option (List Call)
  /-- a number, and whether it was read -/
  mpi : Option Bool
  group : Bool
  point : Bool
  /-- a certificate was written, with the key it is for -/
  certified : Bool
  interrupts : Bool
  erased : Bool
  saved : Bool
  deriving DecidableEq

/-- The settings a certificate needs -/
def needed : List Call :=
  [.setSubjectKey, .setIssuerKey, .setMdAlg, .setSubjectName, .setIssuerName, .setSerial,
    .setValidity]

/-- The setting is made on a certificate that has these. -/
def settable (q : Contexts) (before : List Call) : Bool :=
  match q.crt with
  | none => false
  | some made => before.all fun c => made.contains c

/-- When mbedTLS and the SDK can be called: a context is initialised only while it is raw or freed,
and freed only behind that, nothing is used before it was initialised, no key is generated from an
unseeded generator, and the flash is changed with the interrupts off, once there is something to
store. -/
def ready (q : Contexts) : Call → Bool
  | .entropyInit => !q.entropy
  | .ctrDrbgInit => q.drbg = .raw
  | .ctrDrbgSeed => q.entropy && q.drbg = .ready
  | .getUniqueBoardId => true
  | .pkInit => q.pk = .raw
  | .pkFree => q.pk ≠ .raw
  | .pkSetup => q.pk = .empty
  | .ecpReadKey => q.pk = .setUp
  | .ecpGroupInit => !q.group
  | .ecpPointInit => !q.point
  | .ecpGroupLoad => q.group
  | .ecpPointReadBinary => q.group && q.point
  | .ecpGroupFree => q.group
  | .ecpPointFree => q.point
  | .ecpKeypairCalcPublic => q.pk = .secret && q.drbg = .seeded
  | .ecpGenKey => q.pk = .setUp && q.drbg = .seeded
  | .ecpWriteKeyExt | .ecpWritePublicKey => q.pk = .keyed
  | .x509writeCrtInit => q.crt.isNone
  | .mpiInit => q.mpi.isNone
  | .setSubjectKey | .setIssuerKey => settable q [] && q.pk = .keyed
  | .setVersion | .setMdAlg | .setSubjectName | .setIssuerName | .setValidity => settable q []
  | .setBasicConstraints | .setKeyUsage | .setExtension => settable q [.setVersion]
  | .mpiReadBinary => q.mpi.isSome
  | .setSerial => settable q [] && q.mpi = some true
  | .setSubjectKeyIdentifier => settable q [.setVersion, .setSubjectKey]
  | .setAuthorityKeyIdentifier => settable q [.setVersion, .setIssuerKey]
  | .x509writeCrtDer => settable q needed && q.pk = .keyed && q.drbg = .seeded
  | .saveAndDisableInterrupts => q.interrupts
  | .flashRangeErase => !q.interrupts && q.certified
  | .flashRangeProgram => !q.interrupts && q.erased
  | .restoreInterrupts => !q.interrupts
  | .x509writeCrtFree => q.crt.isSome
  | .mpiFree => q.mpi.isSome

/-- What a call does that succeeds. -/
def done (q : Contexts) : Call → Contexts
  | .entropyInit => { q with entropy := true }
  | .ctrDrbgInit => { q with drbg := .ready }
  | .ctrDrbgSeed => { q with drbg := .seeded }
  | .pkInit => { q with pk := .empty }
  | .pkFree => { q with pk := .raw }
  | .pkSetup => { q with pk := .setUp }
  | .ecpReadKey => { q with pk := .secret }
  | .ecpGroupInit => { q with group := true }
  | .ecpPointInit => { q with point := true }
  | .ecpGroupFree => { q with group := false }
  | .ecpPointFree => { q with point := false }
  | .ecpKeypairCalcPublic | .ecpGenKey => { q with pk := .keyed }
  | .x509writeCrtInit => { q with crt := some [] }
  | .mpiInit => { q with mpi := some false }
  | .mpiReadBinary => { q with mpi := some true }
  | .x509writeCrtDer => { q with certified := true }
  | .saveAndDisableInterrupts => { q with interrupts := false }
  | .flashRangeErase => { q with erased := true }
  | .flashRangeProgram => { q with saved := true }
  | .restoreInterrupts => { q with interrupts := true }
  | .x509writeCrtFree => { q with crt := none }
  | .mpiFree => { q with mpi := none }
  | .getUniqueBoardId | .ecpGroupLoad | .ecpPointReadBinary | .ecpWriteKeyExt
  | .ecpWritePublicKey => q
  -- what is left are the settings of the certificate
  | c => { q with crt := q.crt.map (c :: ·) }

def library : Protocol Contexts Call := { ready := ready, done := done }

/-- The contexts when the device is switched on -/
def atPowerUp : Contexts :=
  { entropy := false, drbg := .raw, pk := .raw, crt := none, mpi := none, group := false,
    point := false, certified := false, interrupts := true, erased := false, saved := false }

/-- Nothing is held that only a function needs, the interrupts are on, and the sector was erased
exactly if it was programmed. -/
def Tidy (stored : Bool) (q : Contexts) : Prop :=
  q.crt = none ∧ q.mpi = none ∧ q.group = false ∧ q.point = false ∧ q.interrupts = true ∧
    q.erased = stored ∧ q.saved = stored

instance (stored : Bool) (q : Contexts) : Decidable (Tidy stored q) := by
  unfold Tidy
  infer_instance

/-- The key context and the generator can be used. -/
def Usable (q : Contexts) : Prop := q.pk = .keyed ∧ q.drbg = .seeded

instance (q : Contexts) : Decidable (Usable q) := by
  unfold Usable
  infer_instance

/-- The end of a function that returns this code -/
def Returned (stored : Bool) (code : Int) (q : Contexts) : Prop :=
  Tidy stored q ∧ (code = 0 → Usable q)

/-- The contexts behind the beginning of `crypto_backend_init` -/
def seededContexts : Contexts := { atPowerUp with entropy := true, drbg := .seeded, pk := .empty }

/-- A stored key was imported, without its public key. -/
def importedContexts : Contexts := { seededContexts with pk := .secret }

/-- A key was generated. -/
def generatedContexts : Contexts := { seededContexts with pk := .keyed }

/-- A certificate for it is begun. -/
def certifyingContexts : Contexts := { generatedContexts with crt := some [], mpi := some false }

section Discipline

variable (a : Answers)

theorem returned_of_fail {code : Int} (hcode : code ≠ 0) {stored : Bool} {q : Contexts}
    (htidy : Tidy stored q) : Returned stored code q :=
  ⟨htidy, fun hno => absurd hno hcode⟩

theorem returned_of_tidy {cs : List Call} {states : List Contexts}
    (htidy : ∀ q ∈ states, Tidy false q) :
    ∀ c ∈ cs, a.ret c ≠ 0 → ∀ q ∈ states, Returned false (a.ret c) q :=
  fun _ _ hcode q hq => returned_of_fail hcode (htidy q hq)

/-- Calls whose code is not looked at do not fail. -/
theorem unchecked_silent {cs : List Call} (hcs : ∀ c ∈ cs, c ∉ checked) {P : Call → Prop} :
    ∀ c ∈ cs, a.ret c ≠ 0 → P c :=
  fun c hc hcode => absurd (if_neg (hcs c hc)) hcode

theorem seedCalls_keeps :
    Keeps library atPowerUp (seedCalls a) (fun _ q => q = seededContexts) (Returned false) :=
  keeps_attemptAll rfl (returned_of_tidy a (by decide))

/-- The group and the point are freed, whether the stored point could be parsed or not. -/
theorem pointReadBinary_keeps (code : Int) :
    Keeps library { importedContexts with group := true, point := true }
      ((Script.attempt .ecpPointReadBinary code).finallyDo [.ecpGroupFree, .ecpPointFree])
      (fun _ q => q = importedContexts) (Returned false) := by
  have hparse : Keeps library { importedContexts with group := true, point := true }
      (.attempt .ecpPointReadBinary code)
      (fun _ q => q = { importedContexts with group := true, point := true })
      (fun code q => q = { importedContexts with group := true, point := true } ∧ code ≠ 0) :=
    keeps_attempt rfl code fun hcode => ⟨rfl, hcode⟩
  apply hparse.finallyDo
  · rintro _ q rfl
    exact ⟨importedContexts, rfl, rfl⟩
  · rintro code q ⟨rfl, hcode⟩
    exact ⟨importedContexts, rfl, returned_of_fail hcode
      (show Tidy false importedContexts by decide)⟩

theorem loadCalls_keeps (privkey pubkeyX pubkeyY : List UInt8) :
    Keeps library seededContexts (loadCalls a privkey pubkeyX pubkeyY)
      (fun _ q => Returned false 0 q) (Returned false) := by
  refine (keeps_attemptAll rfl (returned_of_tidy a (by decide))).andThen ?_
  rintro _ q rfl
  refine (keeps_attempt rfl _ fun hcode => returned_of_fail hcode (by decide)).andThen ?_
  rintro _ q rfl
  refine (keeps_attemptAll rfl (unchecked_silent a (by decide))).andThen ?_
  rintro _ q rfl
  refine (keeps_perform rfl rfl _).andThen ?_
  rintro _ q rfl
  refine (pointReadBinary_keeps _).andThen ?_
  rintro _ q rfl
  have hlast : Keeps library importedContexts
      (.attempt .ecpKeypairCalcPublic (a.ret .ecpKeypairCalcPublic))
      (fun _ q => q = generatedContexts) (Returned false) :=
    keeps_attempt rfl _ fun hcode => returned_of_fail hcode (by decide)
  apply hlast.mono
  · rintro _ q rfl
    exact ⟨by decide, fun _ => by decide⟩
  · intro code q hbad
    exact hbad

/-- What the clean-up of the certificate finds -/
def Certifying (stored : Bool) (code : Int) (q : Contexts) : Prop :=
  q.crt.isSome = true ∧ q.mpi.isSome = true ∧
    Returned stored code { q with crt := none, mpi := none }

theorem certifying_of_fail {code : Int} (hcode : code ≠ 0) {q : Contexts}
    (hcrt : q.crt.isSome = true) (hmpi : q.mpi.isSome = true)
    (htidy : Tidy false { q with crt := none, mpi := none }) : Certifying false code q :=
  ⟨hcrt, hmpi, returned_of_fail hcode htidy⟩

/-- The certificate and the number are freed, however their use ended. -/
theorem cleanup_certifying {stored : Bool} {code : Int} {q : Contexts}
    (h : Certifying stored code q) :
    ∃ q', library.walk q ([Call.x509writeCrtFree, Call.mpiFree].map (·, 0)) = some q' ∧
      Returned stored code q' := by
  obtain ⟨hcrt, hmpi, hreturned⟩ := h
  refine ⟨{ q with crt := none, mpi := none }, ?_, hreturned⟩
  simp [Protocol.walk, Protocol.next, library, ready, done, hcrt, hmpi]

/-- An empty certificate ends the function as if it had succeeded, with nothing stored. -/
theorem writeCrtDer_keeps :
    Keeps library (certificateCalls.foldl done certifyingContexts) (writeCrtDer a)
      (fun _ q =>
        q = { certificateCalls.foldl done certifyingContexts with certified := true })
      (Certifying false) := by
  simp only [writeCrtDer]
  cases hder : a.certDer with
  | error ret =>
    have hret : ret ≠ 0 := Int.ne_of_lt (a.certDer_error ret hder)
    refine (keeps_attempt rfl ret fun hcode =>
      certifying_of_fail hcode rfl rfl (by decide)).andThen ?_
    rintro _ q rfl
    exact keeps_fail (certifying_of_fail hret rfl rfl (by decide))
  | ok der =>
    refine (keeps_attempt rfl 0 fun hno => absurd rfl hno).andThen ?_
    rintro _ q rfl
    split
    · exact keeps_fail ⟨rfl, rfl, by decide, fun _ => by decide⟩
    · exact keeps_give rfl

theorem certify_keeps :
    Keeps library certifyingContexts (certify a) (fun _ q => Certifying true 0 q)
      (Certifying false) := by
  refine (keeps_attemptAll rfl fun c _ hcode q hq => ?_).andThen ?_
  · have hstates : ∀ q ∈ (library.path certifyingContexts certificateCalls).getD [],
        q.crt.isSome = true ∧ q.mpi.isSome = true ∧
          Tidy false { q with crt := none, mpi := none } := by decide
    obtain ⟨hcrt, hmpi, htidy⟩ := hstates q hq
    exact certifying_of_fail hcode hcrt hmpi htidy
  rintro _ q rfl
  refine (writeCrtDer_keeps a).andThen ?_
  rintro der q rfl
  refine (keeps_attemptAll rfl (unchecked_silent a (by decide))).andThen ?_
  rintro _ q rfl
  exact keeps_give ⟨rfl, rfl, by decide, fun _ => by decide⟩

theorem writePublicKey_keeps :
    Keeps library generatedContexts (writePublicKey a) (fun _ q => q = generatedContexts)
      (Returned false) := by
  refine (keeps_attempt rfl _ fun hcode => returned_of_fail hcode (by decide)).andThen ?_
  rintro _ q rfl
  split
  · exact keeps_fail (returned_of_fail (by decide) (by decide))
  · exact keeps_give rfl

theorem generateCalls_keeps :
    Keeps library seededContexts (generateCalls a) (fun _ q => Returned true 0 q)
      (Returned false) := by
  refine (keeps_attemptAll rfl (returned_of_tidy a (by decide))).andThen ?_
  rintro _ q rfl
  refine (writePublicKey_keeps a).andThen ?_
  rintro _ q rfl
  refine (keeps_attemptAll rfl (unchecked_silent a (by decide))).andThen ?_
  rintro _ q rfl
  apply (certify_keeps a).finallyDo
  · intro m q hcertifying
    exact cleanup_certifying hcertifying
  · intro code q hcertifying
    exact cleanup_certifying hcertifying

theorem initCalls_keeps (flash : Memory UInt8) :
    Keeps library atPowerUp (initCalls a flash) (fun m q => Returned m.isSome 0 q)
      (Returned false) := by
  refine (seedCalls_keeps a).andThen ?_
  rintro _ q rfl
  simp only [keyCalls]
  split
  · refine (loadCalls_keeps a _ _ _).andThen fun _ q hloaded => ?_
    exact keeps_give hloaded
  · refine (generateCalls_keeps a).andThen fun m q hgenerated => ?_
    exact keeps_give hgenerated

end Discipline

section Outcomes

variable (a : Answers) (b : Backend) (flash : Memory UInt8)

/-- The calls come to what `crypto_backend_init` returns, and it changes the flash only when they
end with a key stored. -/
structure Amounts (result : Int × Backend × Memory UInt8) (s : Script Call (Option KeyMaterial)) :
    Prop where
  code : result.1 = s.code
  flash : result.2.2 = flash ∨ ∃ m, s.outcome = .ok (some m)

theorem amounts_initialized (hinit : flashIsInitialized flash = true)
    (hseed : (seedCalls a).code = 0) :
    Amounts flash (cryptoBackendInit (bootCalls a) b flash) (keyCalls a flash) := by
  have hcode : (keyCalls a flash).code = (loadCalls a (flashRead flash).privkey
      (flashRead flash).pubkeyX (flashRead flash).pubkeyY).code := by
    simp only [keyCalls, hinit, if_true]
    exact Script.code_give _ fun _ => none
  rw [cryptoBackendInit, if_neg (show ¬ (bootCalls a).seed ≠ 0 from not_not.mpr hseed)]
  simp only [hinit, if_true, flashLoad, bootCalls]
  constructor
  · rw [hcode]
    split
    · rfl
    · rename_i hzero
      exact (not_not.mp hzero).symm
  · refine Or.inl ?_
    split <;> rfl

theorem amounts_generated (hempty : flashIsInitialized flash = false)
    (hseed : (seedCalls a).code = 0) :
    Amounts flash (cryptoBackendInit (bootCalls a) b flash) (keyCalls a flash) := by
  have hcode : (keyCalls a flash).code = (generateCalls a).code := by
    simp only [keyCalls, hempty, Bool.false_eq_true, if_false]
    exact Script.code_give _ some
  have houtcome : (keyCalls a flash).outcome = (generateCalls a).outcome.map some := by
    simp only [keyCalls, hempty, Bool.false_eq_true, if_false]
    exact Script.andThen_give _ some
  rw [cryptoBackendInit, if_neg (show ¬ (bootCalls a).seed ≠ 0 from not_not.mpr hseed)]
  simp only [hempty, Bool.false_eq_true, if_false, generateAndPersist, bootCalls]
  cases hgenerate : (generateCalls a).outcome with
  | ok m =>
    refine ⟨?_, Or.inr ⟨m, by rw [houtcome, hgenerate]; rfl⟩⟩
    rw [hcode]
    simp only [Script.code, hgenerate]
    rfl
  | error ret =>
    constructor
    · rw [hcode]
      simp only [Script.code, hgenerate]
      split
      · rfl
      · rename_i hzero
        exact (not_not.mp hzero).symm
    · refine Or.inl ?_
      simp only
      split <;> rfl

theorem init_amounts :
    Amounts flash (cryptoBackendInit (bootCalls a) b flash) (initCalls a flash) := by
  by_cases hseed : (seedCalls a).code = 0
  · have houtcome : (initCalls a flash).outcome = (keyCalls a flash).outcome :=
      Script.andThen_ok (Script.attemptAll_ok hseed) _
    have hkey : Amounts flash (cryptoBackendInit (bootCalls a) b flash) (keyCalls a flash) := by
      cases hinit : flashIsInitialized flash with
      | true => exact amounts_initialized a b flash hinit hseed
      | false => exact amounts_generated a b flash hinit hseed
    refine ⟨hkey.code.trans ?_, ?_⟩
    · simp only [Script.code, houtcome]
    · rw [houtcome]
      exact hkey.flash
  · have houtcome : (initCalls a flash).outcome = .error (seedCalls a).code :=
      Script.andThen_fails hseed _
    rw [cryptoBackendInit, if_pos (show (bootCalls a).seed ≠ 0 from hseed)]
    refine ⟨?_, Or.inl rfl⟩
    simp only [Script.code, houtcome]
    rfl

end Outcomes

/-- Nothing fails, and the certificate has 300 bytes. -/
def firstBoot : Answers where
  code := fun _ => 0
  readKey := fun _ => 0
  groupLoad := 0
  pointReadBinary := fun _ => 0
  privkey := List.replicate 32 0x11
  pubOlen := 65
  pubkeyRaw := 0x04 :: List.replicate 64 0x22
  certDer := .ok (List.replicate 300 0x30)
  privkey_length := by decide
  pubkeyRaw_length := by decide
  certDer_error := nofun

end KeyStoreCalls
