import Ward3n.CheckedAccess
import Ward3n.FlashPersistence
import Ward3n.TracedRuns

/-!
# The key record from boot to boot

The first boot generates a key, keeps its certificate in memory and writes the
record; every later boot reads the record back. A completed save is read back
whole, so all boots serve the same certificate. The reads of a boot stay inside
the sector whatever it holds, with or without a record of this firmware.
-/

namespace KeyStoreBoots

open CellMemory MachineWords CryptoBackend FlashPersistence CheckedAccess TracedRuns

section Sector

/-- The copy of the certificate, checked. Nothing is copied for a length of 0. -/
def checkedCertDer (p : Memory UInt8) (certLen : Nat) : Except Fault (List UInt8) :=
  if certLen > 0 then loadBlock p flashSectorSize ksOffsetCertDer certLen else .ok []

/-- `flashRead` on the 4096 bytes of the sector, with its copies checked. -/
def checkedRead (p : Memory UInt8) : Except Fault LoadedRecord := do
  let privkey ← loadBlock p flashSectorSize ksOffsetPrivkey 32
  let pubkeyX ← loadBlock p flashSectorSize ksOffsetPubkeyX 32
  let pubkeyY ← loadBlock p flashSectorSize ksOffsetPubkeyY 32
  let stored ← loadBlock p flashSectorSize ksOffsetCertLen 2
  let certLen := if ofBytes stored > ksMaxCertLen then 0 else ofBytes stored
  let certDer ← checkedCertDer p certLen
  pure { privkey, pubkeyX, pubkeyY, certLen, certDer }

variable (p : Memory UInt8)

theorem flashRead_certLen_le : (flashRead p).certLen ≤ ksMaxCertLen := by
  simp only [flashRead]
  split
  · exact Nat.zero_le _
  · rename_i hmax
    exact Nat.not_lt.mp hmax

@[simp] theorem flashRead_certDer_length :
    (flashRead p).certDer.length = (flashRead p).certLen := read_length _ _

theorem checkedCertDer_eq {certLen : Nat} (h : certLen ≤ ksMaxCertLen) :
    checkedCertDer p certLen = .ok (read (advance p ksOffsetCertDer) certLen) := by
  have hmax : ksOffsetCertDer + ksMaxCertLen = flashSectorSize := by decide
  rw [checkedCertDer]
  split
  · exact loadBlock_of_le (by omega)
  · rename_i hnone
    rw [Nat.eq_zero_of_not_pos hnone]
    rfl

/-- The copies stay inside the sector, whatever it holds. -/
theorem checkedRead_eq : checkedRead p = .ok (flashRead p) := by
  have hcert := checkedCertDer_eq p (flashRead_certLen_le p)
  simp only [flashRead] at hcert
  simp only [checkedRead]
  rw [loadBlock_of_le (by decide), loadBlock_of_le (by decide), loadBlock_of_le (by decide),
    loadBlock_of_le (by decide)]
  simp only [ok_bind, hcert]
  rfl

end Sector

/-- The sector after a completed save of the material, over whatever it held. -/
def saved (flash buffer : Memory UInt8) (m : KeyMaterial) : Memory UInt8 :=
  cutSave flash buffer m 16

/-- The sector holds the record of this material. -/
structure Holds (flash : Memory UInt8) (m : KeyMaterial) : Prop where
  initialized : flashIsInitialized flash = true
  record : flashRead flash = savedRecord m

/-- The sixteen pages reach to the end of the longest certificate. -/
theorem saved_holds (flash buffer : Memory UInt8) {m : KeyMaterial}
    (hcert : m.certDer.length ≤ ksMaxCertLen) : Holds (saved flash buffer m) m := by
  have hpages : (0 : Nat) < 16 := by decide
  constructor
  · exact cutSave_initialized flash buffer m 16 hpages
  · have hwhole : read (advance (saved flash buffer m) ksOffsetCertDer) m.certDer.length =
        m.certDer := by
      apply (cutSave_certDer_iff flash buffer m 16 hcert).mpr
      intro i hi hmissing
      have hend : flashPageSize * 16 = ksMaxCertLen + ksOffsetCertDer := by decide
      omega
    have hrecord := cutSave_record flash buffer m 16 hpages hcert
    rw [← saved, hwhole] at hrecord
    exact hrecord

/-- One boot: the outcomes of mbedTLS, and the variables as they are before
`crypto_backend_init`. -/
structure Boot where
  calls : BootCalls
  ram : Backend

def Boot.init (boot : Boot) (flash : Memory UInt8) : Int × Backend × Memory UInt8 :=
  cryptoBackendInit boot.calls boot.ram flash

/-- A boot as a step on the key sector; what it leaves in memory is what can be seen. -/
def bootStep (flash : Memory UInt8) (boot : Boot) : Memory UInt8 × List (Int × Backend) :=
  let (ret, backend, flash) := boot.init flash
  (flash, [(ret, backend)])

/-- The random generator is seeded, and a new key is generated. -/
def Boot.Generates (boot : Boot) (m : KeyMaterial) : Prop :=
  boot.calls.seed = 0 ∧ boot.calls.generate = .ok m

/-- The random generator is seeded, and the stored key can be imported. -/
def Boot.Imports (boot : Boot) (m : KeyMaterial) : Prop :=
  boot.calls.seed = 0 ∧ boot.calls.importKey m.privkey m.pubkeyX m.pubkeyY = 0

/-- The key store with the certificate in memory. -/
def Boot.serving (boot : Boot) (m : KeyMaterial) : Backend :=
  { initialized := true, certLen := m.certDer.length,
    certDer := write boot.ram.certDer 0 m.certDer }

/-- `crypto_backend_init` succeeds, and the applet gets this certificate. -/
def Serves (result : Int × Backend × Memory UInt8) (m : KeyMaterial) : Prop :=
  result.1 = 0 ∧ cryptoGetCertDer result.2.1 keyRef9A 3994 = m.certDer

section Boots

variable {m : KeyMaterial} {flash : Memory UInt8} {boot : Boot}

theorem serves_serving (hcert : 1 ≤ m.certDer.length ∧ m.certDer.length ≤ 3994)
    (flash : Memory UInt8) : Serves (0, boot.serving m, flash) m := by
  refine ⟨rfl, ?_⟩
  have hopen : ¬ ((boot.serving m).initialized = false ∨ keyRef9A ≠ keyRef9A) := by
    simp [Boot.serving]
  have hroom : ¬ ((boot.serving m).certLen = 0 ∨ (boot.serving m).certLen > 3994) := by
    simp only [Boot.serving]
    omega
  rw [cryptoGetCertDer, if_neg hopen, if_neg hroom]
  exact read_write_zero _ m.certDer

/-- The load of a held record hands the key to mbedTLS and the certificate to memory. -/
theorem flashLoad_holds (hholds : Holds flash m) (calls : BootCalls) (b : Backend) :
    flashLoad calls b flash = (calls.importKey m.privkey m.pubkeyX m.pubkeyY,
      { b with certLen := m.certDer.length, certDer := write b.certDer 0 m.certDer }) := by
  simp only [flashLoad, hholds.record, savedRecord]

theorem init_generates (hempty : flashIsInitialized flash = false) (hboot : boot.Generates m)
    (hcert : m.certDer.length ≤ ksMaxCertLen) :
    boot.init flash = (0, boot.serving m, saved flash boot.ram.certDer m) := by
  have hlen : m.certDer.length % 2 ^ 16 = m.certDer.length := by
    have hmax : ksMaxCertLen < 2 ^ 16 := by decide
    exact Nat.mod_eq_of_lt (by omega)
  simp only [Boot.init, cryptoBackendInit, hboot.1, hempty, generateAndPersist, hboot.2, hlen]
  rfl

theorem init_imports (hholds : Holds flash m) (hboot : boot.Imports m) :
    boot.init flash = (0, boot.serving m, flash) := by
  simp only [Boot.init, cryptoBackendInit, hboot.1, hholds.initialized,
    flashLoad_holds hholds boot.calls boot.ram, hboot.2]
  rfl

/-- A boot that finds a record does not write to the sector, even when it fails. -/
theorem bootStep_initialized (hinit : flashIsInitialized flash = true) (boot : Boot) :
    (bootStep flash boot).1 = flash := by
  simp only [bootStep, Boot.init, cryptoBackendInit, hinit, if_true]
  split
  · rfl
  · split <;> rfl

theorem holds_step (boot : Boot) (hholds : Holds flash m) : Holds (bootStep flash boot).1 m := by
  rw [bootStep_initialized hholds.initialized boot]
  exact hholds

theorem holds_run (hholds : Holds flash m) (boots : List Boot) :
    Holds (exec bootStep flash boots) m :=
  state_invariant (P := fun flash => Holds flash m) (fun _ boot => holds_step boot) hholds boots

end Boots

/-- What a key record is for: the save is read back, and all boots serve one certificate. -/
structure RoundTrip (m : KeyMaterial) : Prop where
  initialized : ∀ flash buffer, flashIsInitialized (saved flash buffer m) = true
  record : ∀ flash buffer, flashRead (saved flash buffer m) = savedRecord m
  loaded : ∀ flash buffer calls b, flashLoad calls b (saved flash buffer m) =
    (calls.importKey m.privkey m.pubkeyX m.pubkeyY,
      { b with certLen := m.certDer.length, certDer := write b.certDer 0 m.certDer })
  firstBoot : ∀ (flash : Memory UInt8) (first : Boot), flashIsInitialized flash = false →
    first.Generates m → Serves (first.init flash) m
  laterBoots : ∀ (flash : Memory UInt8) (first boot : Boot) (between : List Boot),
    flashIsInitialized flash = false → first.Generates m → boot.Imports m →
      Serves (boot.init (exec bootStep flash (first :: between))) m

/-- The record survives every number of boots, and no sector content leads a load astray. -/
theorem key_store_round_trip (m : KeyMaterial)
    (hcert : 1 ≤ m.certDer.length ∧ m.certDer.length ≤ 3994) :
    RoundTrip m ∧ ∀ sector, flashIsInitialized sector = true →
      checkedRead sector = .ok (flashRead sector) ∧
        (flashRead sector).certDer.length = (flashRead sector).certLen ∧
        (flashRead sector).certLen ≤ 3994 := by
  have hmax : ksMaxCertLen = 3994 := by decide
  have hfits : m.certDer.length ≤ ksMaxCertLen := by omega
  refine ⟨⟨?_, ?_, ?_, ?_, ?_⟩, ?_⟩
  · intro flash buffer
    exact (saved_holds flash buffer hfits).initialized
  · intro flash buffer
    exact (saved_holds flash buffer hfits).record
  · intro flash buffer
    exact flashLoad_holds (saved_holds flash buffer hfits)
  · intro flash first hempty hfirst
    rw [init_generates hempty hfirst hfits]
    exact serves_serving hcert _
  · intro flash first boot between hempty hfirst hboot
    have hstart : (bootStep flash first).1 = saved flash first.ram.certDer m := by
      rw [bootStep, init_generates hempty hfirst hfits]
    have hholds : Holds (bootStep flash first).1 m := by
      rw [hstart]
      exact saved_holds flash _ hfits
    rw [exec, init_imports (holds_run hholds between) hboot]
    exact serves_serving hcert _
  · intro sector _
    have hlen := flashRead_certLen_le sector
    exact ⟨checkedRead_eq sector, flashRead_certDer_length sector, by omega⟩

/-- The erased sector of a new device. -/
def erasedFlash : Memory UInt8 := fun _ => 0xFF

/-- A boot on which every call of mbedTLS succeeds. -/
def sampleBoot : Boot :=
  { calls := { seed := 0, importKey := fun _ _ _ => 0, generate := .ok sampleMaterial }
    ram := { initialized := false, certLen := 0, certDer := fun _ => 0 } }

/-- The third boot of a device, and the sector it reads. -/
theorem key_store_round_trip_sample :
    Serves (sampleBoot.init (exec bootStep erasedFlash [sampleBoot, sampleBoot]))
        sampleMaterial ∧
      checkedRead (saved erasedFlash (fun _ => 0) sampleMaterial) =
        .ok (savedRecord sampleMaterial) := by
  obtain ⟨htrip, hinside⟩ := key_store_round_trip sampleMaterial
    (by rw [sampleMaterial_length]; decide)
  constructor
  · exact htrip.laterBoots erasedFlash sampleBoot sampleBoot [sampleBoot] (by decide) ⟨rfl, rfl⟩
      ⟨rfl, rfl⟩
  · rw [(hinside _ (htrip.initialized erasedFlash _)).1, htrip.record]

end KeyStoreBoots
