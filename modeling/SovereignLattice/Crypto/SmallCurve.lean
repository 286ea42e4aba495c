import SovereignLattice.Crypto.Encodings
import Mathlib.Tactic.NormNum.Prime

/-!
# A small curve

The laws of `Curve` are satisfiable: the integers modulo 251 act on themselves,
multiplication is a non-degenerate pairing, and a scalar fits into one byte of
an encoded point.  Everything here computes, so runs over it can be evaluated.
-/

namespace SovereignLattice
namespace SmallCurve

instance order_prime : Fact (Nat.Prime 251) :=
  ⟨by norm_num⟩

/-- A scalar that depends on every byte of the message. -/
def hashBytes (msg : Bytes) : ZMod 251 :=
  msg.foldl (fun hash byte => hash * 6 + (byte.toNat : ZMod 251) + 1) 0

/-- A number is one byte after some zero bytes. -/
def padded (zeros : Nat) (value : ZMod 251) : Bytes :=
  List.replicate zeros 0 ++ [UInt8.ofNat value.val]

def unpadded (zeros : Nat) (bytes : Bytes) : Option (ZMod 251) :=
  let value : ZMod 251 := ((bytes.getD zeros 0).toNat : ZMod 251)
  if padded zeros value = bytes then some value else none

theorem unpadded_padded (zeros : Nat) (value : ZMod 251) :
    unpadded zeros (padded zeros value) = some value := by
  have small : value.val < 256 := (ZMod.val_lt value).trans (by decide)
  have byte : (UInt8.ofNat value.val).toNat = value.val := by
    rw [UInt8.toNat_ofNat']
    exact Nat.mod_eq_of_lt small
  have last : (padded zeros value).getD zeros 0 = UInt8.ofNat value.val := by
    simp [padded, List.getD_eq_getElem?_getD]
  rw [unpadded]
  rw [last, byte, ZMod.natCast_zmod_val, if_pos rfl]

theorem padded_of_unpadded (zeros : Nat) (bytes : Bytes) (value : ZMod 251)
    (decoded : unpadded zeros bytes = some value) :
    padded zeros value = bytes := by
  unfold unpadded at decoded
  dsimp only at decoded
  split at decoded
  · rename_i same
    rw [Option.some.injEq] at decoded
    rw [← decoded]
    exact same
  · cases decoded

theorem length_padded (zeros : Nat) (value : ZMod 251) :
    (padded zeros value).length = zeros + 1 := by
  simp [padded]

/-- A point is one byte after 47 zero bytes. -/
def compress (point : ZMod 251) : Bytes :=
  padded 47 point

def decompress (bytes : Bytes) : Option (ZMod 251) :=
  unpadded 47 bytes

end SmallCurve

/-- The small curve. -/
@[reducible]
def smallCurve : Curve where
  order := 251
  G1 := ZMod 251
  G2 := ZMod 251
  Gt := ZMod 251
  g2Generator := 1
  pairing left right := left * right
  hashToCurve msg _ := SmallCurve.hashBytes msg
  toCompressed := SmallCurve.compress
  fromCompressed := SmallCurve.decompress
  pairing_smul scalar point key := by
    simp only [smul_eq_mul]
    ring
  pairing_generator_injective := by
    intro first second same
    simpa using same
  length_toCompressed := SmallCurve.length_padded 47
  fromCompressed_toCompressed := SmallCurve.unpadded_padded 47
  toCompressed_of_fromCompressed := SmallCurve.padded_of_unpadded 47

section SmallEncodings

attribute [local instance] smallCurve

/-- Scalars and public keys of the small curve in 32 and 96 bytes. -/
@[reducible]
def smallEncodings : Encodings where
  scalarToBytes := SmallCurve.padded 31
  scalarFromBytes := SmallCurve.unpadded 31
  g2ToCompressed := SmallCurve.padded 95
  g2FromCompressed := SmallCurve.unpadded 95
  length_scalarToBytes := SmallCurve.length_padded 31
  scalarFromBytes_scalarToBytes := SmallCurve.unpadded_padded 31
  scalarToBytes_of_scalarFromBytes := SmallCurve.padded_of_unpadded 31
  length_g2ToCompressed := SmallCurve.length_padded 95
  g2FromCompressed_g2ToCompressed := SmallCurve.unpadded_padded 95
  g2ToCompressed_of_g2FromCompressed := SmallCurve.padded_of_unpadded 95

end SmallEncodings

end SovereignLattice
