import Ward3n.BerTlv
import Ward3n.ChainedResponses

/-!
# The certificate object as BER-TLV

The object is assembled front to back, so its outer length is computed before
the inner length is written: a formula has to foresee how many bytes the inner
length will take. The objects meant are put together here with the writer of
the TLV library, and the assembled bytes are shown to be that encoding.
-/

namespace CertificateObject

open CellMemory ApduCodec CryptoBackend PivApplet ChainedResponses BerTlv

/-- The length writer of the applet gives the shortest form. -/
theorem berLenWrite_eq {n : Nat} (h : n ≤ maxLength) : berLenWrite n = lengthBytes n := by
  have hmax : maxLength = 65535 := rfl
  have hlow : UInt8.ofNat (n &&& 0xFF) = UInt8.ofNat n := by
    apply UInt8.toNat_inj.mp
    rw [show (0xFF : Nat) = 2 ^ 8 - 1 by rfl, Nat.and_two_pow_sub_one_eq_mod]
    simp
  simp only [berLenWrite, lengthBytes]
  by_cases hshort : n < 0x80
  · rw [if_pos hshort, if_pos hshort]
  by_cases hone : n ≤ 0xFF
  · rw [if_neg hshort, if_pos hone, if_neg hshort, if_pos (by omega)]
  · rw [if_neg hshort, if_neg hone, if_neg hshort, if_neg (by omega), hlow,
      Nat.shiftRight_eq_div_pow]

/-- The certificate, as object 70. -/
def certTlv (der : List UInt8) (h : der.length ≤ maxLength) : Tlv :=
  { tag := 0x70, value := der, oneByte := by decide, fits := h }

/-- Object 71: the certificate is not compressed. -/
def certInfoTlv : Tlv :=
  { tag := 0x71, value := [0x00], oneByte := by decide, fits := by decide }

/-- Object FE: no error detection code. -/
def errorCodeTlv : Tlv :=
  { tag := 0xFE, value := [], oneByte := by decide, fits := by decide }

section Object

variable {der : List UInt8}

/-- The content of object 53. -/
def content (der : List UInt8) (h : der.length ≤ maxLength) : List UInt8 :=
  [certTlv der h, certInfoTlv, errorCodeTlv].flatMap Tlv.bytes

theorem content_eq (h : der.length ≤ maxLength) :
    content der h = [0x70] ++ lengthBytes der.length ++ der ++ [0x71, 0x01, 0x00] ++
      [0xFE, 0x00] := by
  have hinfo : certInfoTlv.bytes = [0x71, 0x01, 0x00] := rfl
  have hcode : errorCodeTlv.bytes = [0xFE, 0x00] := rfl
  simp only [content, List.flatMap_cons, List.flatMap_nil, hinfo, hcode]
  simp [Tlv.bytes, certTlv]

/-- The outer length, as it is computed before the inner one is written. -/
def foreseenLength (certLen : Nat) : Nat :=
  2 + certLen + 3 + 2 + (if certLen ≥ 0x80 then 1 else 0) + (if certLen > 0xFF then 1 else 0)

/-- The formula foresees the length byte by byte. -/
theorem content_length (h : der.length ≤ maxLength) :
    (content der h).length = foreseenLength der.length := by
  rw [content_eq]
  simp only [List.length_append, List.length_cons, List.length_nil, lengthBytes, foreseenLength]
  by_cases hshort : der.length < 0x80
  · rw [if_pos hshort, if_neg (by omega), if_neg (by omega)]
    simp only [List.length_cons, List.length_nil]
  by_cases hone : der.length < 0x100
  · rw [if_neg hshort, if_pos hone, if_pos (by omega), if_neg (by omega)]
    simp only [List.length_cons, List.length_nil]
    omega
  · rw [if_neg hshort, if_neg hone, if_pos (by omega), if_pos (by omega)]
    simp only [List.length_cons, List.length_nil]
    omega

theorem foreseenLength_le (n : Nat) : foreseenLength n ≤ n + 9 := by
  simp only [foreseenLength]
  split <;> split <;> omega

/-- Object 53 around the three. -/
def objectTlv (der : List UInt8) (h : der.length ≤ ksMaxCertLen) : Tlv :=
  { tag := 0x53
    value := content der (Nat.le_trans h (by decide))
    oneByte := by decide
    fits := by
      have hlen := foreseenLength_le der.length
      have hmax : ksMaxCertLen + 9 ≤ maxLength := by decide
      rw [content_length]
      omega }

/-- The bytes assembled are the encoding of the objects meant. -/
theorem certObject_eq (h : der.length ≤ ksMaxCertLen) :
    certObject der = (objectTlv der h).bytes := by
  have hfits := (objectTlv der h).fits
  have hlen : der.length ≤ maxLength := Nat.le_trans h (by decide)
  have hcount : (objectTlv der h).value.length = foreseenLength der.length := content_length hlen
  have hforeseen : (if der.length > 0xFF then
        (if der.length ≥ 0x80 then 2 + der.length + 3 + 2 + 1 else 2 + der.length + 3 + 2) + 1
      else if der.length ≥ 0x80 then 2 + der.length + 3 + 2 + 1 else 2 + der.length + 3 + 2) =
      foreseenLength der.length := by
    simp only [foreseenLength]
    split <;> split <;> rfl
  rw [hcount] at hfits
  simp only [certObject, hforeseen, berLenWrite_eq hfits, berLenWrite_eq hlen, Tlv.bytes, hcount]
  simp only [objectTlv, content_eq, List.cons_append, List.nil_append, List.append_assoc]

end Object

/-- Read strictly, the object is one object 53 with nothing behind it, and its content is the
certificate, the uncompressed mark and an empty error detection code. -/
structure StrictCertificate (der obj : List UInt8) : Prop where
  objects : ∃ outer cert info code, readTlvs obj = some [outer] ∧ outer.tag = 0x53 ∧
    readTlvs outer.value = some [cert, info, code] ∧
    (cert.tag = 0x70 ∧ cert.value = der) ∧
    (info.tag = 0x71 ∧ info.value = [0x00]) ∧
    (code.tag = 0xFE ∧ code.value = [])
  fits : obj.length ≤ 4096

theorem certObject_strict {der : List UInt8} (h : der.length ≤ ksMaxCertLen) :
    StrictCertificate der (certObject der) := by
  have hmax : ksMaxCertLen = 3994 := by decide
  have hlen := certObject_length_le der
  constructor
  · refine ⟨objectTlv der h, certTlv der (Nat.le_trans h (by decide)), certInfoTlv, errorCodeTlv,
      ?_, rfl, ?_, ⟨rfl, rfl⟩, ⟨rfl, rfl⟩, ⟨rfl, rfl⟩⟩
    · apply readTlvs_eq_some_iff.mpr
      rw [certObject_eq h]
      simp
    · exact readTlvs_eq_some_iff.mpr rfl
  · omega

/-- GET DATA for the certificate builds a well-formed object, whatever the certificate. -/
theorem certificate_object_strict (k : Backend) (c : ApduCmd) (hinit : k.initialized = true)
    (hcert : 0 < k.certLen ∧ k.certLen ≤ 3994) (hc : RequestsCertificate (some c)) :
    ∃ obj, requestedObject k c = .ok obj ∧
      StrictCertificate (read k.certDer k.certLen) obj := by
  have hmax : ksMaxCertLen = 3994 := by decide
  refine ⟨_, requestedObject_certificate hinit hcert hc, certObject_strict ?_⟩
  rw [read_length]
  omega

/-- GET DATA for the tag of the certificate. -/
def certificateRequest : ApduCmd :=
  { cla := 0x00, ins := 0xCB, p1 := 0x3F, p2 := 0xFF, lc := 5,
    data := write nullData 0 ([0x5C, 0x03] ++ pivTagCert9A), le := 256, hasLc := true,
    hasLe := true }

theorem certificate_object_strict_sample :
    ∃ obj, requestedObject certificateBackend certificateRequest = .ok obj ∧
      StrictCertificate (read certificateBackend.certDer certificateBackend.certLen) obj :=
  certificate_object_strict certificateBackend certificateRequest rfl (by decide)
    ⟨certificateRequest, rfl, by decide⟩

end CertificateObject
