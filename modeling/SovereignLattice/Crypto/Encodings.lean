import SovereignLattice.Crypto.ThresholdBls
import SovereignLattice.Foundations.BigEndian

/-!
# Byte encodings of scalars and of public keys

The canonical encodings of the `bls12_381` crate that key generation puts on the
wire: scalars in 32 bytes and points of the second group in 96.
-/

namespace SovereignLattice

/-- The canonical encodings of scalars and of points of the second group. -/
class Encodings [Curve] where
  /-- `Scalar::to_bytes`. -/
  scalarToBytes : Scalar → Bytes
  /-- `Scalar::from_bytes`, on 32-byte strings. -/
  scalarFromBytes : Bytes → Option Scalar
  /-- `G2Affine::to_compressed`. -/
  g2ToCompressed : G2Projective → Bytes
  /-- `G2Affine::from_compressed`, on 96-byte strings. -/
  g2FromCompressed : Bytes → Option G2Projective
  length_scalarToBytes : ∀ scalar, (scalarToBytes scalar).length = 32
  scalarFromBytes_scalarToBytes : ∀ scalar,
    scalarFromBytes (scalarToBytes scalar) = some scalar
  scalarToBytes_of_scalarFromBytes : ∀ bytes scalar,
    scalarFromBytes bytes = some scalar → scalarToBytes scalar = bytes
  length_g2ToCompressed : ∀ point, (g2ToCompressed point).length = 96
  g2FromCompressed_g2ToCompressed : ∀ point,
    g2FromCompressed (g2ToCompressed point) = some point
  g2ToCompressed_of_g2FromCompressed : ∀ bytes point,
    g2FromCompressed bytes = some point → g2ToCompressed point = bytes

namespace Encodings

attribute [simp] length_scalarToBytes scalarFromBytes_scalarToBytes
  length_g2ToCompressed g2FromCompressed_g2ToCompressed

variable [Curve] [Encodings]

theorem g2ToCompressed_injective :
    Function.Injective (g2ToCompressed : G2Projective → Bytes) := by
  intro first second same
  have decoded := congrArg g2FromCompressed same
  simpa using decoded

end Encodings

/-- The encodings of a list of commitments, one after the other. -/
def commitmentBytes [Curve] [Encodings] (commitments : List G2Projective) :
    Bytes :=
  (commitments.map Encodings.g2ToCompressed).flatten

section Commitments

variable [Curve] [Encodings]

@[simp]
theorem commitmentBytes_nil : commitmentBytes [] = [] :=
  rfl

@[simp]
theorem commitmentBytes_cons (commitment : G2Projective)
    (rest : List G2Projective) :
    commitmentBytes (commitment :: rest) =
      Encodings.g2ToCompressed commitment ++ commitmentBytes rest :=
  rfl

@[simp]
theorem length_commitmentBytes (commitments : List G2Projective) :
    (commitmentBytes commitments).length = 96 * commitments.length := by
  induction commitments with
  | nil => rfl
  | cons commitment rest inductionHypothesis =>
      simp only [commitmentBytes_cons, List.length_append,
        Encodings.length_g2ToCompressed, inductionHypothesis, List.length_cons]
      omega

/-- The encoding of each commitment has one length, so equally long lists can be
read back. -/
theorem commitmentBytes_injective {first second : List G2Projective}
    (same : commitmentBytes first = commitmentBytes second) : first = second := by
  have lengths : ∀ commitments : List G2Projective,
      ∀ block ∈ commitments.map Encodings.g2ToCompressed, block.length = 96 := by
    intro commitments block member
    rcases List.mem_map.mp member with ⟨commitment, _, rfl⟩
    exact Encodings.length_g2ToCompressed commitment
  have blocks := flatten_injective_of_length (by decide) (lengths first)
    (lengths second) same
  exact List.map_injective_iff.mpr Encodings.g2ToCompressed_injective blocks

end Commitments

end SovereignLattice
