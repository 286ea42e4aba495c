import SovereignLattice.Crypto.Curve
import SovereignLattice.Crypto.Sha256
import Mathlib.Data.List.TakeWhile

/-!
# Text and fingerprints

The strings of the evidence modules: their bytes, trimming, hexadecimal digits,
and the fingerprint of a byte string, `sha256:` before the lower-case digest.
-/

namespace SovereignLattice

/-- `str::as_bytes`. -/
def utf8 (text : String) : Bytes :=
  text.toByteArray.data.toList

/-- `char::is_whitespace`, the Unicode property `White_Space`. -/
def isWhitespace (c : Char) : Bool :=
  let code := c.toNat
  (9 ≤ code ∧ code ≤ 13) ∨ code = 0x20 ∨ code = 0x85 ∨ code = 0xA0 ∨
    code = 0x1680 ∨ (0x2000 ≤ code ∧ code ≤ 0x200A) ∨ code = 0x2028 ∨
    code = 0x2029 ∨ code = 0x202F ∨ code = 0x205F ∨ code = 0x3000

/-- `str::trim`. -/
def trim (text : String) : String :=
  String.ofList
    (((text.toList.dropWhile isWhitespace).reverse).dropWhile isWhitespace).reverse

/-- The character of a number below sixteen. -/
def hexDigit (value : Nat) : Char :=
  if value < 10 then Char.ofNat (48 + value) else Char.ofNat (87 + value)

/-- Two lower-case digits for each byte. -/
def lowerHex (bytes : Bytes) : String :=
  String.ofList
    (bytes.flatMap fun byte => [hexDigit (byte.toNat / 16),
      hexDigit (byte.toNat % 16)])

/-- `format!("sha256:{:x}", Sha256::digest(bytes))`. -/
def fingerprint (bytes : Bytes) : String :=
  "sha256:" ++ lowerHex (sha256 bytes).toList

/-- `u8::is_ascii_hexdigit`. -/
def isAsciiHexdigit (byte : UInt8) : Bool :=
  (48 ≤ byte ∧ byte ≤ 57) ∨ (65 ≤ byte ∧ byte ≤ 70) ∨ (97 ≤ byte ∧ byte ≤ 102)

/-- `u8::is_ascii_uppercase`. -/
def isAsciiUppercase (byte : UInt8) : Bool :=
  65 ≤ byte ∧ byte ≤ 90

/-- The shape of a fingerprint, up to the digits that are allowed. -/
def sha256Shape (digit : UInt8 → Bool) (value : String) : Bool :=
  (utf8 value).length = 71 ∧ (utf8 "sha256:").isPrefixOf (utf8 value) ∧
    ((utf8 value).drop 7).all digit

/-! ## Bytes of a text -/

theorem utf8_injective : Function.Injective utf8 := by
  intro first second same
  apply String.toByteArray_inj.mp
  apply ByteArray.ext
  exact Array.toList_inj.mp same

theorem utf8_eq_flatMap (text : String) :
    utf8 text = text.toList.flatMap String.utf8EncodeChar := by
  rw [utf8, ← String.utf8Encode_toList, List.utf8Encode]
  simp

@[simp]
theorem utf8_append (first second : String) :
    utf8 (first ++ second) = utf8 first ++ utf8 second := by
  rw [utf8_eq_flatMap, utf8_eq_flatMap, utf8_eq_flatMap, String.toList_append,
    List.flatMap_append]

/-! ## Hexadecimal digits -/

theorem hexDigit_injective {first second : Nat} (firstSmall : first < 16)
    (secondSmall : second < 16) (same : hexDigit first = hexDigit second) :
    first = second := by
  have table : ∀ left right : Fin 16,
      hexDigit left = hexDigit right → left = right := by
    decide +kernel
  have equal := table ⟨first, firstSmall⟩ ⟨second, secondSmall⟩ same
  exact Fin.mk.inj equal

theorem lowerHex_injective : Function.Injective lowerHex := by
  intro first second same
  have digits := congrArg String.toList same
  rw [lowerHex, lowerHex, String.toList_ofList, String.toList_ofList] at digits
  clear same
  induction first generalizing second with
  | nil =>
      cases second with
      | nil => rfl
      | cons => simp at digits
  | cons byte rest inductionHypothesis =>
      cases second with
      | nil => simp at digits
      | cons other others =>
          simp only [List.flatMap_cons, List.cons_append, List.nil_append,
            List.cons.injEq] at digits
          rcases digits with ⟨high, low, tails⟩
          have byteSmall := byte.toNat_lt
          have otherSmall := other.toNat_lt
          have sameHigh := hexDigit_injective (by omega) (by omega) high
          have sameLow := hexDigit_injective (by omega) (by omega) low
          have sameByte : byte = other := UInt8.toNat_inj.mp (by omega)
          rw [sameByte, inductionHypothesis tails]

/-- Fingerprints are as good as the digests in them. -/
theorem fingerprint_inj {first second : Bytes} :
    fingerprint first = fingerprint second ↔ sha256 first = sha256 second := by
  constructor
  · intro same
    have hex : lowerHex (sha256 first).toList = lowerHex (sha256 second).toList := by
      apply String.toList_inj.mp
      have characters := congrArg String.toList same
      rw [fingerprint, fingerprint, String.toList_append, String.toList_append]
        at characters
      exact List.append_cancel_left characters
    exact Vector.toList_inj.mp (lowerHex_injective hex)
  · intro same
    rw [fingerprint, fingerprint, same]

/-- The byte of a digit. -/
def hexDigitByte (value : Nat) : UInt8 :=
  UInt8.ofNat (hexDigit value).toNat

/-- Each digit takes one byte. -/
theorem utf8EncodeChar_hexDigit {value : Nat} (small : value < 16) :
    String.utf8EncodeChar (hexDigit value) = [hexDigitByte value] := by
  have table : ∀ digit : Fin 16,
      String.utf8EncodeChar (hexDigit digit) = [hexDigitByte digit] := by
    decide +kernel
  exact table ⟨value, small⟩

theorem utf8_lowerHex (bytes : Bytes) :
    utf8 (lowerHex bytes) = bytes.flatMap fun byte =>
      [hexDigitByte (byte.toNat / 16), hexDigitByte (byte.toNat % 16)] := by
  rw [utf8_eq_flatMap, lowerHex, String.toList_ofList, List.flatMap_assoc]
  apply List.flatMap_congr
  intro byte _
  have small := byte.toNat_lt
  have high := utf8EncodeChar_hexDigit (show byte.toNat / 16 < 16 by omega)
  have low := utf8EncodeChar_hexDigit (show byte.toNat % 16 < 16 by omega)
  rw [List.flatMap_cons, List.flatMap_singleton, high, low]
  rfl

@[simp]
theorem length_utf8_lowerHex (bytes : Bytes) :
    (utf8 (lowerHex bytes)).length = 2 * bytes.length := by
  rw [utf8_lowerHex]
  induction bytes with
  | nil => rfl
  | cons byte rest inductionHypothesis =>
      rw [List.flatMap_cons, List.length_append, inductionHypothesis]
      simp only [List.length_cons, List.length_nil]
      omega

/-- Its bytes are lower-case hexadecimal digits. -/
theorem utf8_lowerHex_digits (bytes : Bytes) :
    ∀ byte ∈ utf8 (lowerHex bytes),
      isAsciiHexdigit byte = true ∧ isAsciiUppercase byte = false := by
  have table : ∀ digit : Fin 16, isAsciiHexdigit (hexDigitByte digit) = true ∧
      isAsciiUppercase (hexDigitByte digit) = false := by
    decide +kernel
  intro digit member
  rw [utf8_lowerHex, List.mem_flatMap] at member
  rcases member with ⟨byte, _, either⟩
  have small := byte.toNat_lt
  simp only [List.mem_cons, List.not_mem_nil, or_false] at either
  rcases either with rfl | rfl
  · exact table ⟨byte.toNat / 16, by omega⟩
  · exact table ⟨byte.toNat % 16, by omega⟩

@[simp]
theorem length_utf8_fingerprint (bytes : Bytes) :
    (utf8 (fingerprint bytes)).length = 71 := by
  rw [fingerprint, utf8_append, List.length_append, length_utf8_lowerHex,
    Vector.length_toList]
  decide +kernel

/-- A fingerprint has the shape that the checks ask for. -/
theorem sha256Shape_fingerprint {digit : UInt8 → Bool}
    (lower : ∀ byte, isAsciiHexdigit byte = true →
      isAsciiUppercase byte = false → digit byte = true) (bytes : Bytes) :
    sha256Shape digit (fingerprint bytes) = true := by
  have marker : (utf8 "sha256:").length = 7 := by decide +kernel
  have split : utf8 (fingerprint bytes) =
      utf8 "sha256:" ++ utf8 (lowerHex (sha256 bytes).toList) :=
    utf8_append _ _
  rw [sha256Shape, decide_eq_true_eq]
  refine ⟨length_utf8_fingerprint bytes, ?_, ?_⟩
  · rw [List.isPrefixOf_iff_prefix, split]
    exact List.prefix_append _ _
  · rw [split, ← marker, List.drop_left, List.all_eq_true]
    intro byte member
    have lowerCase := utf8_lowerHex_digits (sha256 bytes).toList byte member
    exact lower byte lowerCase.1 lowerCase.2

end SovereignLattice
