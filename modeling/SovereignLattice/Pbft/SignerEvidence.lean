import SovereignLattice.Pbft.Certificates
import SovereignLattice.Crypto.SmallCurve

/-!
# What a verified certificate says about its signers

`verify` checks one interpolated signature.  With keys from one polynomial this
pins down the signers only up to errors that cancel at zero, and says nothing
about the entries beyond the smallest ids.
-/

namespace SovereignLattice

section Attestation

variable [Curve]

/-- The nodes below `nodes` have the shares of one polynomial as their keys, and
the master key is that of its constant term. -/
structure SharedRegistry (nodes : Nat) (publicKeys : AssocMap UInt32 G2Projective)
    (masterPk : G2Projective) (coefficients : List Scalar) : Prop where
  master : masterPk = powerSum (0 : Scalar) coefficients • Curve.g2Generator
  keys : ∀ id : UInt32, publicKeys.get? id =
    if id.toNat < nodes then
      some (powerSum (evaluationPoint id) coefficients • Curve.g2Generator)
    else
      none

/-- The entry's id has a key, and the signature verifies under it. -/
def attestedBy (publicKeys : AssocMap UInt32 G2Projective) (msg : Bytes)
    (id : UInt32) (sig : G1Projective) : Bool :=
  match publicKeys.get? id with
  | some pk => verifyBlsSignature msg sig pk
  | none => false

/-- At least a quorum of entries, and in fact every entry, is a signature of a
registered node. -/
def SignersAttested (nodes : Nat) (publicKeys : AssocMap UInt32 G2Projective)
    (quorumSize : Nat) (msg : Bytes) (signatures : SignatureMap) : Prop :=
  quorumSize ≤ signatures.entries.countP
      (fun entry => entry.1.toNat < nodes ∧
        attestedBy publicKeys msg entry.1 entry.2) ∧
    ∀ id sig, signatures.get? id = some sig →
      id.toNat < nodes ∧ attestedBy publicKeys msg id sig = true

/-- The entries of which none is false, and those whose false entries the
threshold check is bound to notice. -/
def FaultsShow (nodes : Nat) (coefficients : List Scalar) (quorumSize : Nat)
    (msg : Bytes) (signatures : SignatureMap) : Prop :=
  signatures.len < quorumSize ∨
    ¬ Set.InjOn evaluationPoint {id | id ∈ thresholdIds signatures quorumSize} ∨
    interpolatedError coefficients msg signatures
      (thresholdIds signatures quorumSize) ≠ 0 ∨
    ∀ id sig, signatures.get? id = some sig →
      id.toNat < nodes ∧ shareError coefficients msg id sig = 0

def PreparedCertificate.signedMsg (cert : PreparedCertificate) : Bytes :=
  canonicalMsg Phase.prepare.toU8 cert.view cert.seq cert.digest

def CommitCertificate.signedMsg (cert : CommitCertificate) : Bytes :=
  canonicalMsg Phase.commit.toU8 cert.view cert.seq cert.digest

variable {nodes quorumSize : Nat} {publicKeys : AssocMap UInt32 G2Projective}
variable {masterPk : G2Projective} {coefficients : List Scalar}
variable {msg : Bytes} {signatures : SignatureMap}

theorem SharedRegistry.attestedBy_iff
    (registry : SharedRegistry nodes publicKeys masterPk coefficients)
    {id : UInt32} (registered : id.toNat < nodes) (sig : G1Projective) :
    attestedBy publicKeys msg id sig = true ↔
      shareError coefficients msg id sig = 0 := by
  rw [attestedBy, registry.keys id, if_pos registered]
  dsimp only
  rw [verifyBlsSignature_iff, shareError, sub_eq_zero]

theorem signersAttested_iff (enough : quorumSize ≤ signatures.len) :
    SignersAttested nodes publicKeys quorumSize msg signatures ↔
      ∀ id sig, signatures.get? id = some sig →
        id.toNat < nodes ∧ attestedBy publicKeys msg id sig = true := by
  constructor
  · intro attested
    exact attested.2
  · intro every
    refine ⟨?_, every⟩
    have all : signatures.entries.countP
        (fun entry => entry.1.toNat < nodes ∧
          attestedBy publicKeys msg entry.1 entry.2) = signatures.len := by
      rw [AssocMap.len, List.countP_eq_length]
      intro entry member
      exact decide_eq_true
        (every entry.1 entry.2 (AList.mem_lookup_iff.mpr member))
    rw [all]
    exact enough

theorem SharedRegistry.attests_iff
    (registry : SharedRegistry nodes publicKeys masterPk coefficients)
    (degree : coefficients.length ≤ quorumSize) :
    (verifyThresholdSignature msg signatures masterPk quorumSize = true →
        SignersAttested nodes publicKeys quorumSize msg signatures) ↔
      FaultsShow nodes coefficients quorumSize msg signatures := by
  have errorFree :
      (∀ id sig, signatures.get? id = some sig →
          id.toNat < nodes ∧ attestedBy publicKeys msg id sig = true) ↔
        ∀ id sig, signatures.get? id = some sig →
          id.toNat < nodes ∧ shareError coefficients msg id sig = 0 := by
    constructor
    · intro every id sig stored
      rcases every id sig stored with ⟨registered, attested⟩
      exact ⟨registered, (registry.attestedBy_iff registered sig).mp attested⟩
    · intro every id sig stored
      rcases every id sig stored with ⟨registered, share⟩
      exact ⟨registered, (registry.attestedBy_iff registered sig).mpr share⟩
  rw [registry.master, verifyThresholdSignature_iff degree, FaultsShow]
  constructor
  · intro sound
    by_cases enough : quorumSize ≤ signatures.len
    · by_cases distinct :
          Set.InjOn evaluationPoint {id | id ∈ thresholdIds signatures quorumSize}
      · by_cases cancels : interpolatedError coefficients msg signatures
            (thresholdIds signatures quorumSize) = 0
        · have attested := sound ⟨enough, distinct, cancels⟩
          rw [signersAttested_iff enough, errorFree] at attested
          exact Or.inr (Or.inr (Or.inr attested))
        · exact Or.inr (Or.inr (Or.inl cancels))
      · exact Or.inr (Or.inl distinct)
    · exact Or.inl (Nat.not_le.mp enough)
  · intro shows verified
    rcases verified with ⟨enough, distinct, cancels⟩
    rcases shows with few | collision | noticed | every
    · exact absurd enough (Nat.not_le.mpr few)
    · exact absurd distinct collision
    · exact absurd cancels noticed
    · rw [signersAttested_iff enough, errorFree]
      exact every

/-- One false entry among the smallest ids cannot be cancelled by the others:
no other id may stand at the point zero, which the wrapping addition gives to
the last one. -/
theorem interpolatedError_ne_zero_of_single {ids : List UInt32} {faulty : UInt32}
    (distinct : Set.InjOn evaluationPoint {id | id ∈ ids})
    (member : faulty ∈ ids)
    (nonzero : ∀ id ∈ ids, id ≠ faulty → evaluationPoint id ≠ 0)
    (wrong : shareError coefficients msg faulty (signatures.getD faulty 0) ≠ 0)
    (others : ∀ id ∈ ids, id ≠ faulty →
      shareError coefficients msg id (signatures.getD id 0) = 0) :
    interpolatedError coefficients msg signatures ids ≠ 0 := by
  have alone : interpolatedError coefficients msg signatures ids =
      weightAtZero ids.toFinset evaluationPoint faulty •
        shareError coefficients msg faulty (signatures.getD faulty 0) := by
    apply Finset.sum_eq_single_of_mem faulty (List.mem_toFinset.mpr member)
    intro id other different
    rw [others id (List.mem_toFinset.mp other) different, smul_zero]
  have weight : weightAtZero ids.toFinset evaluationPoint faulty ≠ 0 := by
    apply mul_ne_zero
    · rw [Finset.prod_ne_zero_iff]
      intro id other
      rw [Finset.mem_erase, List.mem_toFinset] at other
      exact neg_ne_zero.mpr (nonzero id other.2 other.1)
    · apply inv_ne_zero
      rw [Finset.prod_ne_zero_iff]
      intro id other vanishes
      rw [Finset.mem_erase, List.mem_toFinset] at other
      exact other.1 (distinct member other.2 (sub_eq_zero.mp vanishes)).symm
  rw [alone]
  exact smul_ne_zero weight wrong

/-- A certificate that verifies attests its signers exactly when its false
entries cannot hide from the interpolation. -/
theorem certificates_attest_signers_iff
    (registry : SharedRegistry nodes publicKeys masterPk coefficients)
    (degree : coefficients.length ≤ quorumSize) :
    (∀ cert : PreparedCertificate,
      (cert.verify quorumSize masterPk = true →
          SignersAttested nodes publicKeys quorumSize cert.signedMsg
            cert.signatures) ↔
        FaultsShow nodes coefficients quorumSize cert.signedMsg
          cert.signatures) ∧
      ∀ cert : CommitCertificate,
        (cert.verify quorumSize masterPk = true →
            SignersAttested nodes publicKeys quorumSize cert.signedMsg
              cert.signatures) ↔
          FaultsShow nodes coefficients quorumSize cert.signedMsg
            cert.signatures := by
  constructor
  · intro cert
    exact registry.attests_iff degree
  · intro cert
    exact registry.attests_iff degree

end Attestation

section SmallRegistry

attribute [local instance] smallCurve

def sharedCoefficients : List Scalar :=
  [5, 7, 9].map Nat.cast

def sharedKeys : AssocMap UInt32 G2Projective :=
  [0, 1, 2, 3].foldl
    (fun keys id => keys.insert id
      (powerSum (evaluationPoint id) sharedCoefficients • Curve.g2Generator))
    ∅

theorem sharedRegistry_sharedKeys :
    SharedRegistry 4 sharedKeys
      (powerSum (0 : Scalar) sharedCoefficients • Curve.g2Generator)
      sharedCoefficients where
  master := rfl
  keys id := by
    rw [sharedKeys, AssocMap.get?_foldl_insert]
    have registered : id ∈ ([0, 1, 2, 3] : List UInt32) ↔ id.toNat < 4 := by
      simp only [List.mem_cons, List.not_mem_nil, or_false, ← UInt32.toNat_inj]
      simp
      omega
    simp only [registered, AssocMap.get?_empty]

/-- A certificate whose entries are the shares of their ids, each off by a
multiple of the hashed message. -/
def certificateWithErrors (errors : List (UInt32 × Nat)) :
    PreparedCertificate where
  view := 1
  seq := 1
  digest := zeroDigest
  signatures :=
    let msg := canonicalMsg Phase.prepare.toU8 1 1 zeroDigest
    errors.foldl
      (fun signatures entry => signatures.insert entry.1
        (signBlsMessage msg
            (powerSum (evaluationPoint entry.1) sharedCoefficients) +
          (entry.2 : Scalar) • hashMessageToCurve msg))
      ∅

/-- Two certificates that verify without attesting their signers: in the first
an entry beyond the smallest three has an id that no node has, in the second
two errors among exactly three entries cancel. -/
theorem certificates_attest_signers_unattested :
    ¬ ((certificateWithErrors [(0, 0), (1, 0), (2, 0), (9, 1)]).verify 3
          (powerSum (0 : Scalar) sharedCoefficients • Curve.g2Generator) = true →
        SignersAttested 4 sharedKeys 3
          (certificateWithErrors [(0, 0), (1, 0), (2, 0), (9, 1)]).signedMsg
          (certificateWithErrors [(0, 0), (1, 0), (2, 0), (9, 1)]).signatures) ∧
      ¬ ((certificateWithErrors [(0, 1), (1, 1), (2, 0)]).verify 3
            (powerSum (0 : Scalar) sharedCoefficients • Curve.g2Generator) =
              true →
          SignersAttested 4 sharedKeys 3
            (certificateWithErrors [(0, 1), (1, 1), (2, 0)]).signedMsg
            (certificateWithErrors [(0, 1), (1, 1), (2, 0)]).signatures) := by
  constructor
  · intro sound
    have attested := sound (by decide +kernel)
    have stored : (certificateWithErrors
        [(0, 0), (1, 0), (2, 0), (9, 1)]).signatures.get? 9 ≠ none := by
      decide +kernel
    rcases Option.ne_none_iff_exists'.mp stored with ⟨sig, found⟩
    exact absurd (attested.2 9 sig found).1 (by decide)
  · intro sound
    have attested := (sound (by decide +kernel)).1
    exact absurd attested (by decide +kernel)

theorem certificates_attest_signers_three_shares :
    SignersAttested 4 sharedKeys 3
      (certificateWithErrors [(0, 0), (1, 0), (2, 0)]).signedMsg
      (certificateWithErrors [(0, 0), (1, 0), (2, 0)]).signatures := by
  have exactly := certificates_attest_signers_iff sharedRegistry_sharedKeys
    (show sharedCoefficients.length ≤ 3 by decide)
  apply (exactly.1 (certificateWithErrors [(0, 0), (1, 0), (2, 0)])).mpr
  · refine Or.inr (Or.inr (Or.inr ?_))
    have entries : ∀ entry ∈ (certificateWithErrors
        [(0, 0), (1, 0), (2, 0)]).signatures.entries,
          entry.1.toNat < 4 ∧ shareError sharedCoefficients (certificateWithErrors
            [(0, 0), (1, 0), (2, 0)]).signedMsg entry.1 entry.2 = 0 := by
      decide +kernel
    intro id sig stored
    exact entries ⟨id, sig⟩ (AList.mem_lookup_iff.mp stored)
  · decide +kernel

end SmallRegistry

end SovereignLattice
