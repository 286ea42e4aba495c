import SovereignLattice.Pbft.VoteLedger

/-!
# Keys from one polynomial

Where the public keys and the master key are those of one polynomial, a quorum
of verified votes always passes the threshold check.
-/

namespace SovereignLattice

variable [Curve]

/-- Public keys and master key are those of the shares and of the constant term
of one polynomial of at most a quorum of coefficients. -/
structure DealtKeys (topology : Topology) (coefficients : List Scalar) :
    Prop where
  degree : coefficients.length ≤ topology.quorumSize
  small : topology.totalNodes < Curve.order
  master : topology.masterPublicKey =
    powerSum (0 : Scalar) coefficients • Curve.g2Generator
  shares : ∀ id ∈ topology.registeredNodes, topology.publicKeys.get? id =
    some (powerSum (evaluationPoint id) coefficients • Curve.g2Generator)

variable {topology : Topology} {coefficients : List Scalar}

/-- With dealt keys a quorum of verified votes passes the threshold check. -/
theorem DealtKeys.certified (dealt : DealtKeys topology coefficients)
    {phase : Phase} {key : ProposalKey} {sigs : SignatureMap}
    (verifies : ∀ sender signature, sigs.get? sender = some signature →
      topology.Verifies phase key sender signature)
    (quorum : topology.quorumSize ≤ sigs.len) :
    verifyThresholdSignature (canonicalMsg phase.toU8 key.1 key.2.1 key.2.2)
      sigs topology.masterPublicKey topology.quorumSize = true := by
  rw [dealt.master]
  apply verifyThresholdSignature_of_shares dealt.degree quorum
  intro sender signature stored
  rcases verifies sender signature stored with ⟨registered, pk, key, verified⟩
  have share := dealt.shares sender registered
  rw [key, Option.some.injEq] at share
  rw [share, verifyBlsSignature_iff] at verified
  rw [topology.registeredNodes_eq] at registered
  rcases toNat_lt_of_mem_nodeIds registered with ⟨below, word⟩
  have small := dealt.small
  exact ⟨⟨word, by omega⟩, verified⟩

/-- With dealt keys a node has one signature for each vote. -/
theorem DealtKeys.signature_unique (dealt : DealtKeys topology coefficients)
    {phase : Phase} {key : ProposalKey} {sender : UInt32}
    {signature other : G1Projective}
    (verifies : topology.Verifies phase key sender signature)
    (otherVerifies : topology.Verifies phase key sender other) :
    signature = other := by
  rcases verifies with ⟨registered, pk, known, verified⟩
  rcases otherVerifies with ⟨_, otherPk, otherKnown, otherVerified⟩
  have share := dealt.shares sender registered
  rw [known, Option.some.injEq] at share
  rw [known, Option.some.injEq] at otherKnown
  rw [share, verifyBlsSignature_iff] at verified
  rw [← otherKnown, share, verifyBlsSignature_iff] at otherVerified
  rw [verified, otherVerified]

/-- The threshold check of one more verified vote. -/
theorem DealtKeys.certified_withVote (dealt : DealtKeys topology coefficients)
    {phase : Phase} {votes : VoteMap} {key : ProposalKey} {sender : UInt32}
    {signature : G1Projective} (authentic : topology.Authentic phase votes)
    (verifies : topology.Verifies phase key sender signature)
    (quorum : topology.quorumSize ≤ (votes.withVote key sender signature).len) :
    verifyThresholdSignature (canonicalMsg phase.toU8 key.1 key.2.1 key.2.2)
      (votes.withVote key sender signature) topology.masterPublicKey
        topology.quorumSize = true := by
  have stored := authentic.insert_withVote verifies
  exact dealt.certified
    (stored key _ (AssocMap.get?_insert_self _ _ _)) quorum

end SovereignLattice
