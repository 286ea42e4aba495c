import Mathlib.Data.ZMod.Basic
import Mathlib.Algebra.Field.ZMod

/-!
# The pairing-friendly curve

What the engine uses of the `bls12_381` crate: a scalar field of prime order,
two groups that it acts on, a pairing, hashing to the first group and the
compressed encoding of its points.  The laws are the documented ones: the
pairing is bilinear and non-degenerate, and compression is canonical.
-/

namespace SovereignLattice

/-- The curve library, as far as the engine depends on it. -/
class Curve where
  /-- The order of the scalar field. -/
  order : Nat
  [order_prime : Fact order.Prime]
  /-- `G1Projective`, the group of signatures. -/
  G1 : Type
  /-- `G2Projective`, the group of public keys. -/
  G2 : Type
  /-- `Gt`, the target of the pairing. -/
  Gt : Type
  [g1Group : AddCommGroup G1]
  [g1Module : Module (ZMod order) G1]
  [g1DecidableEq : DecidableEq G1]
  [g2Group : AddCommGroup G2]
  [g2Module : Module (ZMod order) G2]
  [g2DecidableEq : DecidableEq G2]
  [gtDecidableEq : DecidableEq Gt]
  /-- `G2Projective::generator()`. -/
  g2Generator : G2
  /-- `bls12_381::pairing`. -/
  pairing : G1 → G2 → Gt
  /-- `HashToCurve::hash_to_curve(msg, dst)`. -/
  hashToCurve : List UInt8 → List UInt8 → G1
  /-- `G1Affine::to_compressed`. -/
  toCompressed : G1 → List UInt8
  /-- `G1Affine::from_compressed`, on 48-byte strings. -/
  fromCompressed : List UInt8 → Option G1
  pairing_smul : ∀ (scalar : ZMod order) (point : G1) (key : G2),
    pairing (scalar • point) key = pairing point (scalar • key)
  pairing_generator_injective :
    Function.Injective fun point => pairing point g2Generator
  length_toCompressed : ∀ point, (toCompressed point).length = 48
  fromCompressed_toCompressed : ∀ point,
    fromCompressed (toCompressed point) = some point
  toCompressed_of_fromCompressed : ∀ bytes point,
    fromCompressed bytes = some point → toCompressed point = bytes

attribute [reducible] Curve.g1Group Curve.g1Module Curve.g1DecidableEq
  Curve.g2Group Curve.g2Module Curve.g2DecidableEq Curve.gtDecidableEq

attribute [instance] Curve.order_prime Curve.g1Group Curve.g1Module
  Curve.g1DecidableEq Curve.g2Group Curve.g2Module Curve.g2DecidableEq
  Curve.gtDecidableEq

attribute [simp] Curve.length_toCompressed Curve.fromCompressed_toCompressed

/-- `Scalar`, the field of secret keys. -/
abbrev Scalar [Curve] : Type :=
  ZMod Curve.order

/-- `G1Projective`. -/
abbrev G1Projective [Curve] : Type :=
  Curve.G1

/-- `G2Projective`. -/
abbrev G2Projective [Curve] : Type :=
  Curve.G2

/-- A byte string of the wire and log formats. -/
abbrev Bytes : Type :=
  List UInt8

end SovereignLattice
