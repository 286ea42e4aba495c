import Mathlib.Algebra.Order.Group.Nat
import Mathlib.Tactic.Ring

/-!
# Fixed-width big-endian byte strings

Natural numbers as big-endian byte lists of a given width, and back.  A fixed
width makes the encoding injective on the numbers that fit, and lets a
concatenation of fields be split again.
-/

namespace SovereignLattice

/-- The `width` low bytes of a number, most significant first. -/
def beBytes : Nat → Nat → List UInt8
  | 0, _ => []
  | width + 1, value => UInt8.ofNat (value / 256 ^ width) :: beBytes width value

/-- The number that a big-endian byte list denotes. -/
def ofBeBytes (bytes : List UInt8) : Nat :=
  bytes.foldl (fun value byte => value * 256 + byte.toNat) 0

@[simp]
theorem length_beBytes (width value : Nat) :
    (beBytes width value).length = width := by
  induction width with
  | zero => rfl
  | succ width inductionHypothesis => simp [beBytes, inductionHypothesis]

private theorem foldl_beBytes (width value start : Nat) :
    (beBytes width value).foldl (fun total byte => total * 256 + byte.toNat)
        start =
      start * 256 ^ width + value % 256 ^ width := by
  induction width generalizing start with
  | zero => simp [beBytes, Nat.mod_one]
  | succ width inductionHypothesis =>
      rw [beBytes, List.foldl_cons, inductionHypothesis]
      have digit :
          (UInt8.ofNat (value / 256 ^ width)).toNat =
            value / 256 ^ width % 256 := by
        simp
      have split :
          value % 256 ^ (width + 1) =
            value % 256 ^ width + 256 ^ width * (value / 256 ^ width % 256) :=
        Nat.mod_pow_succ
      rw [digit, split, Nat.pow_succ]
      ring

/-- Decoding an encoding gives the number back, up to the width. -/
theorem ofBeBytes_beBytes (width value : Nat) :
    ofBeBytes (beBytes width value) = value % 256 ^ width := by
  rw [ofBeBytes, foldl_beBytes]
  simp

theorem ofBeBytes_beBytes_of_lt {width value : Nat}
    (fits : value < 256 ^ width) :
    ofBeBytes (beBytes width value) = value := by
  rw [ofBeBytes_beBytes, Nat.mod_eq_of_lt fits]

private theorem foldl_bytes (bytes : List UInt8) (start : Nat) :
    bytes.foldl (fun total byte => total * 256 + byte.toNat) start =
      start * 256 ^ bytes.length + ofBeBytes bytes := by
  induction bytes generalizing start with
  | nil => simp [ofBeBytes]
  | cons byte rest inductionHypothesis =>
      rw [ofBeBytes, List.foldl_cons, List.foldl_cons, inductionHypothesis,
        inductionHypothesis, List.length_cons, Nat.pow_succ]
      ring

private theorem ofBeBytes_cons (byte : UInt8) (rest : List UInt8) :
    ofBeBytes (byte :: rest) =
      byte.toNat * 256 ^ rest.length + ofBeBytes rest := by
  rw [ofBeBytes, List.foldl_cons, foldl_bytes]
  ring

theorem ofBeBytes_lt (bytes : List UInt8) :
    ofBeBytes bytes < 256 ^ bytes.length := by
  induction bytes with
  | nil => simp [ofBeBytes]
  | cons byte rest inductionHypothesis =>
      have digit : byte.toNat + 1 ≤ 256 := byte.toNat_lt
      have scaled := Nat.mul_le_mul_right (256 ^ rest.length) digit
      rw [ofBeBytes_cons, List.length_cons, Nat.pow_succ]
      rw [Nat.succ_mul] at scaled
      omega

private theorem div_add_mul_pow (quotient value width : Nat) :
    (quotient * 256 ^ width + value) / 256 ^ width =
      quotient + value / 256 ^ width := by
  have positive : 0 < 256 ^ width := Nat.pow_pos (by decide)
  rw [Nat.add_comm, Nat.add_mul_div_right _ _ positive, Nat.add_comm]

/-- Only the bytes below the width are encoded. -/
private theorem beBytes_add_mul_pow (width quotient value : Nat) :
    beBytes width (quotient * 256 ^ width + value) = beBytes width value := by
  induction width generalizing quotient with
  | zero => rfl
  | succ width inductionHypothesis =>
      have regrouped : quotient * 256 ^ (width + 1) + value =
          quotient * 256 * 256 ^ width + value := by
        rw [Nat.pow_succ]
        ring
      rw [regrouped, beBytes, beBytes, inductionHypothesis, div_add_mul_pow]
      congr 1
      apply UInt8.toNat_inj.mp
      rw [UInt8.toNat_ofNat', UInt8.toNat_ofNat']
      omega

/-- Encoding at their own width gives the bytes back. -/
theorem beBytes_ofBeBytes (bytes : List UInt8) :
    beBytes bytes.length (ofBeBytes bytes) = bytes := by
  induction bytes with
  | nil => rfl
  | cons byte rest inductionHypothesis =>
      have small := ofBeBytes_lt rest
      rw [ofBeBytes_cons, List.length_cons, beBytes, beBytes_add_mul_pow,
        inductionHypothesis, div_add_mul_pow, Nat.div_eq_of_lt small,
        Nat.add_zero, UInt8.ofNat_toNat]

/-- `u64::to_be_bytes`. -/
def u64Bytes (value : UInt64) : List UInt8 :=
  beBytes 8 value.toNat

/-- `u32::to_be_bytes`. -/
def u32Bytes (value : UInt32) : List UInt8 :=
  beBytes 4 value.toNat

/-- `u64::from_be_bytes`. -/
def u64OfBytes (bytes : List UInt8) : UInt64 :=
  UInt64.ofNat (ofBeBytes bytes)

/-- `u32::from_be_bytes`. -/
def u32OfBytes (bytes : List UInt8) : UInt32 :=
  UInt32.ofNat (ofBeBytes bytes)

@[simp]
theorem length_u64Bytes (value : UInt64) : (u64Bytes value).length = 8 :=
  length_beBytes 8 value.toNat

@[simp]
theorem length_u32Bytes (value : UInt32) : (u32Bytes value).length = 4 :=
  length_beBytes 4 value.toNat

@[simp]
theorem u64OfBytes_u64Bytes (value : UInt64) :
    u64OfBytes (u64Bytes value) = value := by
  have fits : value.toNat < 256 ^ 8 := by
    simpa using value.toNat_lt
  rw [u64OfBytes, u64Bytes, ofBeBytes_beBytes_of_lt fits, UInt64.ofNat_toNat]

@[simp]
theorem u32OfBytes_u32Bytes (value : UInt32) :
    u32OfBytes (u32Bytes value) = value := by
  have fits : value.toNat < 256 ^ 4 := by
    simpa using value.toNat_lt
  rw [u32OfBytes, u32Bytes, ofBeBytes_beBytes_of_lt fits, UInt32.ofNat_toNat]

/-- Eight bytes are the encoding of the number that they denote. -/
theorem u64Bytes_u64OfBytes {bytes : List UInt8} (length : bytes.length = 8) :
    u64Bytes (u64OfBytes bytes) = bytes := by
  have small := ofBeBytes_lt bytes
  have recoded := beBytes_ofBeBytes bytes
  rw [length] at small recoded
  rw [u64Bytes, u64OfBytes, UInt64.toNat_ofNat_of_lt' small, recoded]

/-- Four bytes are the encoding of the number that they denote. -/
theorem u32Bytes_u32OfBytes {bytes : List UInt8} (length : bytes.length = 4) :
    u32Bytes (u32OfBytes bytes) = bytes := by
  have small := ofBeBytes_lt bytes
  have recoded := beBytes_ofBeBytes bytes
  rw [length] at small recoded
  rw [u32Bytes, u32OfBytes, UInt32.toNat_ofNat_of_lt' small, recoded]

theorem u64Bytes_injective {first second : UInt64}
    (same : u64Bytes first = u64Bytes second) : first = second := by
  rw [← u64OfBytes_u64Bytes first, same, u64OfBytes_u64Bytes]

theorem u32Bytes_injective {first second : UInt32}
    (same : u32Bytes first = u32Bytes second) : first = second := by
  rw [← u32OfBytes_u32Bytes first, same, u32OfBytes_u32Bytes]

/-! ## Fields of a byte string -/

/-- `&bytes[start..stop]`. -/
def slice (bytes : List UInt8) (start stop : Nat) : List UInt8 :=
  (bytes.drop start).take (stop - start)

/-- A field of a byte string that is written field by field. -/
theorem slice_field {fields : List (List UInt8)} {bytes rest field : List UInt8}
    (layout : bytes = fields.flatten ++ rest) (index : Nat)
    (isField : fields[index]? = some field) {start stop : Nat}
    (before : (fields.take index).flatten.length = start)
    (width : start + field.length = stop) : slice bytes start stop = field := by
  rcases List.getElem?_eq_some_iff.mp isField with ⟨inside, same⟩
  have split : bytes = (fields.take index).flatten ++
      (field ++ ((fields.drop (index + 1)).flatten ++ rest)) := by
    calc
      bytes = (fields.take index ++ fields.drop index).flatten ++ rest := by
        rw [List.take_append_drop, layout]
      _ = (fields.take index).flatten ++
          (field ++ ((fields.drop (index + 1)).flatten ++ rest)) := by
        rw [List.drop_eq_getElem_cons inside, same]
        simp
  have size : stop - start = field.length := by omega
  rw [split, slice, List.drop_left' before, size, List.take_left' rfl]

@[simp]
theorem length_slice {bytes : List UInt8} {start stop : Nat}
    (inside : stop ≤ bytes.length) :
    (slice bytes start stop).length = stop - start := by
  rw [slice, List.length_take, List.length_drop]
  omega

/-- Neighbouring slices join. -/
theorem slice_append {bytes : List UInt8} {start middle stop : Nat}
    (first : start ≤ middle) (second : middle ≤ stop) :
    slice bytes start middle ++ slice bytes middle stop =
      slice bytes start stop := by
  have moved : bytes.drop middle = (bytes.drop start).drop (middle - start) := by
    rw [List.drop_drop]
    congr 1
    omega
  have total : stop - start = (middle - start) + (stop - middle) := by
    omega
  rw [slice, slice, slice, moved, total, List.take_add]

theorem slice_zero (bytes : List UInt8) (stop : Nat) :
    slice bytes 0 stop = bytes.take stop := by
  rw [slice, List.drop_zero, Nat.sub_zero]

/-- A slice of one byte. -/
theorem slice_one {bytes : List UInt8} {start : Nat}
    (inside : start < bytes.length) :
    slice bytes start (start + 1) = [bytes.getD start 0] := by
  have width : start + 1 - start = 1 := by omega
  rw [slice, width, List.drop_eq_getElem_cons inside, List.take_succ_cons,
    List.take_zero]
  simp [List.getElem?_eq_getElem inside]

/-- Blocks of one length are read back from their concatenation. -/
theorem flatten_injective_of_length {α : Type*} {length : Nat}
    (positive : 0 < length) {first second : List (List α)}
    (firstLengths : ∀ block ∈ first, block.length = length)
    (secondLengths : ∀ block ∈ second, block.length = length)
    (same : first.flatten = second.flatten) : first = second := by
  have sizes : ∀ blocks : List (List α),
      (∀ block ∈ blocks, block.length = length) →
        blocks.map List.length = List.replicate blocks.length length := by
    intro blocks lengths
    rw [List.map_congr_left lengths, List.map_const']
  have totals := congrArg List.length same
  rw [List.length_flatten, List.length_flatten, sizes first firstLengths,
    sizes second secondLengths, List.sum_replicate_nat,
    List.sum_replicate_nat] at totals
  have counts : first.length = second.length :=
    Nat.eq_of_mul_eq_mul_right positive totals
  rw [List.eq_iff_flatten_eq, sizes first firstLengths,
    sizes second secondLengths, counts]
  exact ⟨same, rfl⟩

end SovereignLattice
