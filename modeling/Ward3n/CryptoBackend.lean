import Ward3n.CellMemory
import Ward3n.MachineWords

/-!
# The software crypto backend and its flash record

What `crypto_backend_soft.c` computes around the calls into mbedTLS: the flash
sector it writes and reads back, the boot decision between loading and
generating, and the guards of the certificate and signature accessors. The
outcomes of mbedTLS are parameters. The key context itself never appears in a
value the firmware compares, so it is part of those outcomes.

The key sector is a memory of its own: offset 0 is its first byte. Erasing
fills it with ones, and programming writes whole pages in ascending order.
-/

namespace CryptoBackend

open CellMemory MachineWords

def keyRef9A : UInt8 := 0x9A
def algEcdsaP256 : UInt8 := 0x11

def flashSectorSize : Nat := 4096
def flashPageSize : Nat := 256
def keyStorageMagic : Nat := 0xA3B1C057
def ksOffsetMagic : Nat := 0
def ksOffsetPrivkey : Nat := 4
def ksOffsetPubkeyX : Nat := 36
def ksOffsetPubkeyY : Nat := 68
def ksOffsetCertLen : Nat := 100
def ksOffsetCertDer : Nat := 102
def ksMaxCertLen : Nat := flashSectorSize - ksOffsetCertDer

/-- The variables `_initialized`, `_cert_9a_len` and `_cert_9a_der`. -/
structure Backend where
  initialized : Bool
  certLen : Nat
  certDer : Memory UInt8

/-- Freshly generated material: the exported key and the certificate made for it. -/
structure KeyMaterial where
  privkey : List UInt8
  pubkeyX : List UInt8
  pubkeyY : List UInt8
  certDer : List UInt8
  privkey_length : privkey.length = 32
  pubkeyX_length : pubkeyX.length = 32
  pubkeyY_length : pubkeyY.length = 32

/-- The outcomes of the mbedTLS calls made while booting: seeding, importing a stored key
(private key, X, Y), and generating new material. -/
structure BootCalls where
  seed : Int
  importKey : List UInt8 → List UInt8 → List UInt8 → Int
  generate : Except Int KeyMaterial

/-- One call of `mbedtls_pk_sign`: the hash and the room for the signature. It writes no
more than there is room for. -/
structure PkSign where
  run : List UInt8 → Nat → Except Int (List UInt8)
  fits : ∀ hash room sig, run hash room = .ok sig → sig.length ≤ room

/-- `flash_range_erase` on the key sector. -/
def flashRangeErase (flash : Memory UInt8) : Memory UInt8 :=
  fun i => if i < flashSectorSize then 0xFF else flash i

/-- `flash_range_program` on the key sector, after `pages` of its pages. -/
def flashRangeProgram (flash image : Memory UInt8) (pages : Nat) : Memory UInt8 :=
  fun i => if i < flashPageSize * pages then image i else flash i

/-- `_flash_is_initialized` -/
def flashIsInitialized (p : Memory UInt8) : Bool :=
  ofBytes (read (advance p ksOffsetMagic) 4) == keyStorageMagic

/-- The sector image assembled by `_flash_save`. -/
def sectorImage (privkey pubkeyX pubkeyY : List UInt8) (certDer : Memory UInt8) (certLen : Nat) :
    Memory UInt8 :=
  let sector : Memory UInt8 := fun _ => 0xFF
  let sector := write sector ksOffsetMagic (toBytes 4 keyStorageMagic)
  let sector := write sector ksOffsetPrivkey privkey
  let sector := write sector ksOffsetPubkeyX pubkeyX
  let sector := write sector ksOffsetPubkeyY pubkeyY
  let sector := write sector ksOffsetCertLen (toBytes 2 certLen)
  if certLen ≠ 0 ∧ certLen ≤ ksMaxCertLen then
    write sector ksOffsetCertDer (read certDer certLen)
  else sector

/-- `_flash_save`, run until `pages` pages were programmed; all 16 when it completes. -/
def flashSave (flash : Memory UInt8) (privkey pubkeyX pubkeyY : List UInt8)
    (certDer : Memory UInt8) (certLen pages : Nat) : Memory UInt8 :=
  flashRangeProgram (flashRangeErase flash)
    (sectorImage privkey pubkeyX pubkeyY certDer certLen) pages

/-- What `_flash_load` reads from the sector. -/
structure LoadedRecord where
  privkey : List UInt8
  pubkeyX : List UInt8
  pubkeyY : List UInt8
  certLen : Nat
  certDer : List UInt8
  deriving DecidableEq

/-- The reads of `_flash_load`: a certificate length over the maximum counts as 0. -/
def flashRead (p : Memory UInt8) : LoadedRecord :=
  let stored := ofBytes (read (advance p ksOffsetCertLen) 2)
  let certLen := if stored > ksMaxCertLen then 0 else stored
  { privkey := read (advance p ksOffsetPrivkey) 32
    pubkeyX := read (advance p ksOffsetPubkeyX) 32
    pubkeyY := read (advance p ksOffsetPubkeyY) 32
    certLen := certLen
    certDer := read (advance p ksOffsetCertDer) certLen }

/-- `_flash_load` -/
def flashLoad (calls : BootCalls) (b : Backend) (p : Memory UInt8) : Int × Backend :=
  let r := flashRead p
  (calls.importKey r.privkey r.pubkeyX r.pubkeyY,
    { b with certLen := r.certLen, certDer := write b.certDer 0 r.certDer })

/-- `_generate_and_persist` -/
def generateAndPersist (calls : BootCalls) (b : Backend) (flash : Memory UInt8) :
    Int × Backend × Memory UInt8 :=
  match calls.generate with
  | .error ret => (ret, b, flash)
  | .ok m =>
    let b := { b with certLen := m.certDer.length % 2 ^ 16, certDer := write b.certDer 0 m.certDer }
    (0, b, flashSave flash m.privkey m.pubkeyX m.pubkeyY b.certDer b.certLen 16)

/-- `crypto_backend_init` -/
def cryptoBackendInit (calls : BootCalls) (b : Backend) (flash : Memory UInt8) :
    Int × Backend × Memory UInt8 :=
  if calls.seed ≠ 0 then (calls.seed, b, flash)
  else
    let (ret, b, flash) :=
      if flashIsInitialized flash then
        let (ret, b) := flashLoad calls b flash
        (ret, b, flash)
      else generateAndPersist calls b flash
    if ret ≠ 0 then (ret, b, flash) else (0, { b with initialized := true }, flash)

/-- `crypto_get_cert_der`: the bytes copied out, none when it returns 0. -/
def cryptoGetCertDer (b : Backend) (keyRef : UInt8) (bufLen : Nat) : List UInt8 :=
  if b.initialized = false ∨ keyRef ≠ keyRef9A then []
  else if b.certLen = 0 ∨ b.certLen > bufLen then []
  else read b.certDer b.certLen

/-- `crypto_sign`: the signature bytes, none when it returns 0. -/
def cryptoSign (b : Backend) (pk : PkSign) (keyRef alg : UInt8) (hash : List UInt8)
    (sigOutLen : Nat) : List UInt8 :=
  if b.initialized = false then []
  else if keyRef ≠ keyRef9A ∨ alg ≠ algEcdsaP256 then []
  else if hash.length ≠ 32 then []
  else if sigOutLen < 72 then []
  else
    match pk.run hash sigOutLen with
    | .error _ => []
    | .ok sig => sig

theorem cryptoGetCertDer_length_le (b : Backend) (keyRef : UInt8) (bufLen : Nat) :
    (cryptoGetCertDer b keyRef bufLen).length ≤ bufLen := by
  simp only [cryptoGetCertDer]
  split
  · exact Nat.zero_le _
  · split
    · exact Nat.zero_le _
    · rename_i hlen
      rw [read_length]
      omega

theorem cryptoSign_length_le (b : Backend) (pk : PkSign) (keyRef alg : UInt8) (hash : List UInt8)
    (sigOutLen : Nat) : (cryptoSign b pk keyRef alg hash sigOutLen).length ≤ sigOutLen := by
  simp only [cryptoSign]
  repeat' split
  all_goals first
    | exact Nat.zero_le _
    | exact pk.fits _ _ _ (by assumption)

/-- A challenge that is no SHA-256 hash is refused before the primitive is called. -/
theorem cryptoSign_of_length_ne (b : Backend) (pk : PkSign) (keyRef alg : UInt8)
    {hash : List UInt8} (h : hash.length ≠ 32) (sigOutLen : Nat) :
    cryptoSign b pk keyRef alg hash sigOutLen = [] := by
  simp only [cryptoSign, if_pos h]
  split
  · rfl
  · split <;> rfl

/-- `main` goes on to serve the host only with a key store whose initialisation returned 0. -/
def Booted (b : Backend) : Prop :=
  ∃ calls before flash flash', cryptoBackendInit calls before flash = (0, b, flash')

theorem Booted.initialized {b : Backend} (h : Booted b) : b.initialized = true := by
  obtain ⟨calls, before, flash, flash', hinit⟩ := h
  simp only [cryptoBackendInit] at hinit
  split at hinit
  · rename_i hseed
    exact absurd (congrArg Prod.fst hinit) hseed
  split at hinit <;> split at hinit
  all_goals first
    | exact (congrArg (fun result => result.2.1.initialized) hinit).symm
    | exact absurd (congrArg Prod.fst hinit) (by assumption)

/-- The signature primitive succeeds on every hash it is called with. -/
def PkSign.Succeeds (pk : PkSign) : Prop :=
  ∀ hash, hash.length = 32 → ∃ sig, pk.run hash 72 = .ok sig ∧ sig ≠ []

theorem cryptoSign_ne_nil {b : Backend} {pk : PkSign} (hinit : b.initialized = true)
    (hpk : pk.Succeeds) {hash : List UInt8} (hhash : hash.length = 32) :
    cryptoSign b pk keyRef9A algEcdsaP256 hash 72 ≠ [] := by
  obtain ⟨sig, hrun, hsig⟩ := hpk hash hhash
  have hkey : ¬ (keyRef9A ≠ keyRef9A ∨ algEcdsaP256 ≠ algEcdsaP256) := by simp
  rw [cryptoSign, if_neg (by simp [hinit]), if_neg hkey, if_neg (not_not.mpr hhash),
    if_neg (by decide)]
  simp only [hrun]
  exact hsig

/-- A signer whose signatures have 70 bytes. -/
def sampleSigner : PkSign where
  run := fun _ room => if 70 ≤ room then .ok (List.replicate 70 0x30) else .error (-1)
  fits := by
    intro hash room sig h
    split at h
    · cases h
      rw [List.length_replicate]
      omega
    · cases h

theorem sampleSigner_succeeds : sampleSigner.Succeeds :=
  fun _ _ => ⟨List.replicate 70 0x30, rfl, by decide⟩

/-- A key store without a certificate. -/
def sampleBackend : Backend := { initialized := true, certLen := 0, certDer := fun _ => 0 }

end CryptoBackend
