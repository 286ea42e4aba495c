import SovereignLattice.Crypto.SmallCurve
import SovereignLattice.Network.Connection
import SovereignLattice.Pbft.DealtKeys
import SovereignLattice.Replica.RecordLog

/-!
# Four replicas over the small curve

The smallest membership that tolerates a fault, with keys dealt from one
polynomial of three coefficients, as the tests of the engine deal them.
-/

namespace SovereignLattice
namespace SmallCluster

attribute [local instance] smallCurve

def coefficients : List Scalar :=
  [11, 5, 3].map Nat.cast

/-- The secret key of a node. -/
def share (id : UInt32) : Scalar :=
  powerSum (evaluationPoint id) coefficients

def publicKeys : AssocMap UInt32 G2Projective :=
  [0, 1, 2, 3].foldl
    (fun keys id => keys.insert id (share id • Curve.g2Generator)) ∅

/-- A property of every node of the membership, node by node. -/
theorem forall_nodeIds {holds : UInt32 → Prop} :
    (∀ id ∈ nodeIds 4, holds id) ↔
      holds 0 ∧ holds 1 ∧ holds 2 ∧ holds 3 := by
  have members : nodeIds 4 = {0, 1, 2, 3} := by decide
  rw [members]
  simp only [Finset.mem_insert, Finset.mem_singleton, forall_eq_or_imp,
    forall_eq]

def topology : Topology where
  totalNodes := 4
  f := 1
  quorumSize := 3
  registeredNodes := nodeIds 4
  publicKeys := publicKeys
  masterPublicKey := powerSum (0 : Scalar) coefficients • Curve.g2Generator
  totalNodes_eq := rfl
  quorumSize_eq := rfl
  registeredNodes_eq := rfl
  registered_hasKey := forall_nodeIds.mpr (by decide +kernel)

theorem dealtKeys_topology : DealtKeys topology coefficients where
  degree := by decide
  small := by decide
  master := rfl
  shares := forall_nodeIds.mpr (by decide +kernel)

/-- A message that its sender has signed. -/
def signed (phase : Phase) (view seq : UInt64) (digest : Digest)
    (sender : UInt32) : PbftMessage :=
  signMessage phase view seq digest sender (share sender)

/-- A digest of equal bytes. -/
def digestOf (byte : UInt8) : Digest :=
  Vector.replicate 32 byte

/-- The same vote from three of the four nodes, delivered. -/
def fromQuorum (phase : Phase) (view seq : UInt64) (digest : Digest) :
    List ReplicaEvent :=
  [0, 1, 2].map fun sender => .deliver (signed phase view seq digest sender)

end SmallCluster
end SovereignLattice
