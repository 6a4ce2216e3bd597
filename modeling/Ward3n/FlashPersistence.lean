import Ward3n.CryptoBackend

/-!
# The key record across a power cut

The sector image holds its fields at their offsets, and a save that was cut
short leaves the first pages of the image and erased cells behind them. The
magic lies in the first page, in front of everything else, so one page is
enough for a record to be accepted: whether it is whole then depends on the
certificate bytes whose pages were still to come.
-/

namespace FlashPersistence

open CellMemory MachineWords CryptoBackend

section Image

variable {privkey pubkeyX pubkeyY : List UInt8} (certDer : Memory UInt8) (certLen : Nat)

/-- The sector before the certificate is copied in. -/
def recordHead (privkey pubkeyX pubkeyY : List UInt8) (certLen : Nat) : Memory UInt8 :=
  write (write (write (write (write (fun _ => 0xFF) ksOffsetMagic (toBytes 4 keyStorageMagic))
    ksOffsetPrivkey privkey) ksOffsetPubkeyX pubkeyX) ksOffsetPubkeyY pubkeyY) ksOffsetCertLen
    (toBytes 2 certLen)

theorem sectorImage_head {k n : Nat} (h : k + n ≤ ksOffsetCertDer) :
    read (advance (sectorImage privkey pubkeyX pubkeyY certDer certLen) k) n =
      read (advance (recordHead privkey pubkeyX pubkeyY certLen) k) n := by
  unfold sectorImage
  simp only
  split
  · exact read_write_frame _ _ _ (Or.inr h)
  · rfl

theorem sectorImage_magic :
    read (advance (sectorImage privkey pubkeyX pubkeyY certDer certLen) ksOffsetMagic) 4 =
      toBytes 4 keyStorageMagic := by
  rw [sectorImage_head _ _ (by decide), recordHead, read_write_frame _ _ _ (Or.inr (by decide)),
    read_write_frame _ _ _ (Or.inr (by decide)), read_write_frame _ _ _ (Or.inr (by decide)),
    read_write_frame _ _ _ (Or.inr (by decide))]
  exact read_write_self _ _ (toBytes 4 keyStorageMagic)

theorem sectorImage_privkey (hpriv : privkey.length = 32) :
    read (advance (sectorImage privkey pubkeyX pubkeyY certDer certLen) ksOffsetPrivkey) 32 =
      privkey := by
  rw [sectorImage_head _ _ (by decide), recordHead, read_write_frame _ _ _ (Or.inr (by decide)),
    read_write_frame _ _ _ (Or.inr (by decide)), read_write_frame _ _ _ (Or.inr (by decide)),
    ← hpriv]
  exact read_write_self _ _ privkey

theorem sectorImage_pubkeyX (hx : pubkeyX.length = 32) :
    read (advance (sectorImage privkey pubkeyX pubkeyY certDer certLen) ksOffsetPubkeyX) 32 =
      pubkeyX := by
  rw [sectorImage_head _ _ (by decide), recordHead, read_write_frame _ _ _ (Or.inr (by decide)),
    read_write_frame _ _ _ (Or.inr (by decide)), ← hx]
  exact read_write_self _ _ pubkeyX

theorem sectorImage_pubkeyY (hy : pubkeyY.length = 32) :
    read (advance (sectorImage privkey pubkeyX pubkeyY certDer certLen) ksOffsetPubkeyY) 32 =
      pubkeyY := by
  rw [sectorImage_head _ _ (by decide), recordHead, read_write_frame _ _ _ (Or.inr (by decide)),
    ← hy]
  exact read_write_self _ _ pubkeyY

theorem sectorImage_certLen :
    read (advance (sectorImage privkey pubkeyX pubkeyY certDer certLen) ksOffsetCertLen) 2 =
      toBytes 2 certLen := by
  rw [sectorImage_head _ _ (by decide), recordHead]
  exact read_write_self _ _ (toBytes 2 certLen)

theorem sectorImage_certDer (hmax : certLen ≤ ksMaxCertLen) :
    read (advance (sectorImage privkey pubkeyX pubkeyY certDer certLen) ksOffsetCertDer) certLen =
      read certDer certLen := by
  by_cases hnone : certLen = 0
  · rw [hnone]
    rfl
  · unfold sectorImage
    simp only [if_pos (And.intro hnone hmax)]
    have hself := read_write_self (recordHead privkey pubkeyX pubkeyY certLen) ksOffsetCertDer
      (read certDer certLen)
    rwa [read_length] at hself

end Image

/-- What a save wrote, as `_flash_load` should find it. -/
def savedRecord (m : KeyMaterial) : LoadedRecord :=
  { privkey := m.privkey, pubkeyX := m.pubkeyX, pubkeyY := m.pubkeyY,
    certLen := m.certDer.length, certDer := m.certDer }

/-- The key sector when power is lost after `pages` pages of a save; the certificate buffer
holds the certificate, over whatever it held before. -/
def cutSave (flash buffer : Memory UInt8) (m : KeyMaterial) (pages : Nat) : Memory UInt8 :=
  flashSave flash m.privkey m.pubkeyX m.pubkeyY (write buffer 0 m.certDer) m.certDer.length pages

/-- The next boot finds no record, or the whole of it. -/
def Recovers (flash buffer : Memory UInt8) (m : KeyMaterial) (pages : Nat) : Prop :=
  flashIsInitialized (cutSave flash buffer m pages) = false ∨
    flashRead (cutSave flash buffer m pages) = savedRecord m

section CutSave

variable (flash buffer : Memory UInt8) (m : KeyMaterial) (pages : Nat)

/-- The image of the whole record. -/
def fullImage : Memory UInt8 :=
  sectorImage m.privkey m.pubkeyX m.pubkeyY (write buffer 0 m.certDer) m.certDer.length

theorem cutSave_programmed {i : Nat} (h : i < flashPageSize * pages) :
    cutSave flash buffer m pages i = fullImage buffer m i := if_pos h

theorem cutSave_erased {i : Nat} (h : flashPageSize * pages ≤ i) (hsector : i < flashSectorSize) :
    cutSave flash buffer m pages i = 0xFF := by
  simp only [cutSave, flashSave, flashRangeProgram, flashRangeErase, if_neg (Nat.not_lt.mpr h),
    if_pos hsector]

/-- The fields in front of the certificate lie in the first page. -/
theorem cutSave_head (hpages : 0 < pages) {k n : Nat} (h : k + n ≤ ksOffsetCertDer) :
    read (advance (cutSave flash buffer m pages) k) n =
      read (advance (fullImage buffer m) k) n := by
  apply read_congr
  intro i hi
  have hpage : ksOffsetCertDer ≤ flashPageSize * 1 := by decide
  have hmore := Nat.mul_le_mul_left flashPageSize hpages
  exact cutSave_programmed flash buffer m pages (by omega)

theorem cutSave_unprogrammed : flashIsInitialized (cutSave flash buffer m 0) = false := by
  have hcells : read (advance (cutSave flash buffer m 0) ksOffsetMagic) 4 =
      read (fun _ => 0xFF) 4 := by
    apply read_congr
    intro i hi
    have hsector : ksOffsetMagic + i < flashSectorSize := Nat.lt_trans
      (Nat.add_lt_add_left hi ksOffsetMagic) (by decide)
    exact cutSave_erased flash buffer m 0 (Nat.zero_le _) hsector
  rw [flashIsInitialized, hcells]
  decide

theorem cutSave_initialized (hpages : 0 < pages) :
    flashIsInitialized (cutSave flash buffer m pages) = true := by
  rw [flashIsInitialized, cutSave_head flash buffer m pages hpages (by decide), fullImage,
    sectorImage_magic]
  decide

/-- The certificate reads back whole when the pages still to come would have left their
erased cells as they are. -/
theorem cutSave_certDer_iff (hcert : m.certDer.length ≤ ksMaxCertLen) :
    read (advance (cutSave flash buffer m pages) ksOffsetCertDer) m.certDer.length = m.certDer ↔
      ∀ i (h : i < m.certDer.length), flashPageSize * pages ≤ ksOffsetCertDer + i →
        m.certDer[i] = 0xFF := by
  have himage : read (advance (fullImage buffer m) ksOffsetCertDer) m.certDer.length =
      m.certDer := by
    rw [fullImage, sectorImage_certDer _ _ hcert, read_write_zero]
  have hcell : ∀ i (h : i < m.certDer.length),
      fullImage buffer m (ksOffsetCertDer + i) = m.certDer[i] := by
    intro i h
    have hget := read_getElem? (advance (fullImage buffer m) ksOffsetCertDer) h
    rw [himage, List.getElem?_eq_getElem h] at hget
    exact (Option.some.inj hget).symm
  have hsector : ∀ i, i < m.certDer.length → ksOffsetCertDer + i < flashSectorSize := by
    intro i h
    have hmax : ksMaxCertLen + ksOffsetCertDer = flashSectorSize := by decide
    omega
  have hagree : read (advance (cutSave flash buffer m pages) ksOffsetCertDer) m.certDer.length =
      m.certDer ↔ Agree m.certDer.length (advance (cutSave flash buffer m pages) ksOffsetCertDer)
        (advance (fullImage buffer m) ksOffsetCertDer) := by
    rw [← read_eq_iff, himage]
  rw [hagree]
  constructor
  · intro hsame i h hmissing
    rw [← hcell i h]
    exact (hsame i h).symm.trans (cutSave_erased flash buffer m pages hmissing (hsector i h))
  · intro hones i h
    by_cases hprogrammed : ksOffsetCertDer + i < flashPageSize * pages
    · exact cutSave_programmed flash buffer m pages hprogrammed
    · have hmissing := Nat.not_lt.mp hprogrammed
      simp only [advance_apply]
      rw [cutSave_erased flash buffer m pages hmissing (hsector i h), hcell i h,
        hones i h hmissing]

/-- The record in front of the certificate bytes, once a page is programmed. -/
theorem cutSave_record (hpages : 0 < pages) (hcert : m.certDer.length ≤ ksMaxCertLen) :
    flashRead (cutSave flash buffer m pages) =
      { savedRecord m with
        certDer :=
          read (advance (cutSave flash buffer m pages) ksOffsetCertDer) m.certDer.length } := by
  have hmax : ksMaxCertLen < 256 ^ 2 := by decide
  have hlen : ofBytes (read (advance (cutSave flash buffer m pages) ksOffsetCertLen) 2) =
      m.certDer.length := by
    rw [cutSave_head flash buffer m pages hpages (by decide), fullImage, sectorImage_certLen,
      ofBytes_toBytes_of_lt (by omega)]
  have hpriv := cutSave_head flash buffer m pages hpages (k := ksOffsetPrivkey) (n := 32)
    (by decide)
  have hx := cutSave_head flash buffer m pages hpages (k := ksOffsetPubkeyX) (n := 32) (by decide)
  have hy := cutSave_head flash buffer m pages hpages (k := ksOffsetPubkeyY) (n := 32) (by decide)
  simp only [flashRead, hlen, if_neg (Nat.not_lt.mpr hcert), hpriv, hx, hy, fullImage,
    sectorImage_privkey _ _ m.privkey_length, sectorImage_pubkeyX _ _ m.pubkeyX_length,
    sectorImage_pubkeyY _ _ m.pubkeyY_length, savedRecord]

theorem recovers_certDer (hpages : 0 < pages) (hcert : m.certDer.length ≤ ksMaxCertLen) :
    Recovers flash buffer m pages ↔
      read (advance (cutSave flash buffer m pages) ksOffsetCertDer) m.certDer.length =
        m.certDer := by
  rw [Recovers, cutSave_initialized flash buffer m pages hpages,
    cutSave_record flash buffer m pages hpages hcert]
  constructor
  · rintro (hno | hsame)
    · cases hno
    · exact congrArg LoadedRecord.certDer hsame
  · intro hsame
    right
    rw [hsame]
    rfl

/-- A cut save is recovered from exactly when no page was programmed, or the certificate
bytes of the missing pages are those of an erased cell. -/
theorem recovers_iff (hcert : m.certDer.length ≤ ksMaxCertLen) :
    Recovers flash buffer m pages ↔
      pages = 0 ∨ ∀ i (h : i < m.certDer.length), flashPageSize * pages ≤ ksOffsetCertDer + i →
        m.certDer[i] = 0xFF := by
  by_cases hnone : pages = 0
  · rw [hnone]
    exact iff_of_true (Or.inl (cutSave_unprogrammed flash buffer m)) (Or.inl rfl)
  · rw [recovers_certDer flash buffer m pages (Nat.pos_of_ne_zero hnone) hcert,
      cutSave_certDer_iff flash buffer m pages hcert, or_iff_right hnone]

end CutSave

/-- Key material with a certificate of 400 bytes, which takes two pages. -/
def sampleMaterial : KeyMaterial :=
  { privkey := List.replicate 32 1, pubkeyX := List.replicate 32 2, pubkeyY := List.replicate 32 3,
    certDer := List.replicate 400 0x30, privkey_length := by decide, pubkeyX_length := by decide,
    pubkeyY_length := by decide }

theorem sampleMaterial_length : sampleMaterial.certDer.length = 400 := List.length_replicate

theorem sampleMaterial_getElem {i : Nat} (h : i < sampleMaterial.certDer.length) :
    sampleMaterial.certDer[i] = 0x30 := List.getElem_replicate h

theorem recovers_iff_sample :
    Recovers (fun _ => 0) (fun _ => 0) sampleMaterial 2 ↔
      2 = 0 ∨ ∀ i (h : i < sampleMaterial.certDer.length),
        flashPageSize * 2 ≤ ksOffsetCertDer + i → sampleMaterial.certDer[i] = 0xFF :=
  recovers_iff (fun _ => 0) (fun _ => 0) sampleMaterial 2
    (by rw [sampleMaterial_length]; decide)

/-- Power lost after the first of two pages: the record is accepted, with erased cells for
the rest of the certificate. -/
theorem torn_record_accepted :
    1 ≤ sampleMaterial.certDer.length ∧ sampleMaterial.certDer.length ≤ 3994 ∧
      ¬ Recovers (fun _ => 0) (fun _ => 0) sampleMaterial 1 := by
  have hlen := sampleMaterial_length
  have hmax : sampleMaterial.certDer.length ≤ ksMaxCertLen := by rw [hlen]; decide
  refine ⟨by omega, by omega, ?_⟩
  intro hrecovers
  have hcert := (recovers_certDer _ _ sampleMaterial 1 (by decide) hmax).mp hrecovers
  have hlast := (cutSave_certDer_iff _ _ sampleMaterial 1 hmax).mp hcert 399 (by omega) (by decide)
  rw [sampleMaterial_getElem] at hlast
  exact absurd hlast (by decide)

end FlashPersistence
