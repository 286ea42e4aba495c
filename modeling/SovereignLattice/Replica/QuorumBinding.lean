import SovereignLattice.Pbft.Selection
import SovereignLattice.Replica.SmallCluster

/-!
# What a verified new-view certificate binds to

`NewViewCertificate::verify` takes the highest slot over all votes of the
certificate and counts the quorum over the authentic ones.  The certificate binds to
the slot of its authentic votes exactly where one of these reports the highest
sequence.
-/

namespace SovereignLattice

section QuorumBinding

variable [Curve]

namespace NewViewCertificate

/-- The sender has a key under which its vote verifies for the target view. -/
def authenticates (cert : NewViewCertificate)
    (publicKeys : AssocMap UInt32 G2Projective) (sender : UInt32) : Bool :=
  match cert.viewChangeVotes.get? sender, publicKeys.get? sender with
  | some (seq, digest, signature), some pk =>
      verifyBlsSignature
        (canonicalMsg Phase.viewChange.toU8 cert.targetView seq digest)
        signature pk
  | _, _ => false

def authenticVotes (cert : NewViewCertificate)
    (publicKeys : AssocMap UInt32 G2Projective) : ViewChangeVotes :=
  cert.viewChangeVotes.retain (cert.authenticates publicKeys)

/-- The certificate binds to a quorum of authentic votes and to their highest
slot. -/
def BindsAuthentic (cert : NewViewCertificate) (quorumSize : Nat)
    (masterPk : G2Projective) (publicKeys : AssocMap UInt32 G2Projective) :
    Prop :=
  quorumSize ≤ (cert.authenticVotes publicKeys).len ∧
    ∃ seq digest,
      highestViewChangeSlot (cert.authenticVotes publicKeys) =
          some (seq, digest) ∧
        match cert.selectedPreparedCertificate with
        | some prepared =>
            prepared.seq = seq ∧ prepared.digest = digest ∧
              prepared.view < cert.targetView ∧
              prepared.verify quorumSize masterPk = true
        | none => seq = 0

/-- Some authentic vote reports the highest sequence of all votes. -/
def HighestIsAuthentic (cert : NewViewCertificate)
    (publicKeys : AssocMap UInt32 G2Projective) : Prop :=
  ∃ maxSeq digest, HighestSeq cert.viewChangeVotes maxSeq ∧
    Reports (cert.authenticVotes publicKeys) maxSeq digest

variable {cert : NewViewCertificate} {quorumSize : Nat}
variable {masterPk : G2Projective} {publicKeys : AssocMap UInt32 G2Projective}

theorem validCount_eq : cert.validCount publicKeys =
    (cert.authenticVotes publicKeys).len := by
  rw [validCount, authenticVotes, AssocMap.len, AssocMap.retain,
    List.countP_eq_length_filter]
  congr 1
  apply List.filter_congr
  rintro ⟨sender, seq, digest, signature⟩ member
  have stored : cert.viewChangeVotes.get? sender =
      some (seq, digest, signature) :=
    AList.mem_lookup_iff.mpr member
  rw [authenticates, stored]
  cases publicKeys.get? sender <;> rfl

theorem reports_of_authentic {seq : UInt64} {digest : Digest}
    (reported : Reports (cert.authenticVotes publicKeys) seq digest) :
    Reports cert.viewChangeVotes seq digest := by
  rcases reported with ⟨sender, signature, stored⟩
  exact ⟨sender, signature, (AssocMap.get?_of_retain stored).2⟩

theorem slot_of_verify
    (verified : cert.verify quorumSize masterPk publicKeys = true) :
    quorumSize ≤ cert.validCount publicKeys ∧
      ∃ maxSeq digest,
        highestViewChangeSlot cert.viewChangeVotes = some (maxSeq, digest) ∧
          match cert.selectedPreparedCertificate with
          | some prepared =>
              prepared.seq = maxSeq ∧ prepared.digest = digest ∧
                prepared.view < cert.targetView ∧
                prepared.verify quorumSize masterPk = true
          | none => maxSeq = 0 := by
  rw [verify] at verified
  split at verified
  · cases verified
  split at verified
  · cases verified
  rename_i maxSeq digest slot
  cases selection : cert.selectedPreparedCertificate with
  | some prepared =>
      rw [selection] at verified
      dsimp only at verified
      split_ifs at verified with forged unfit
      rw [Bool.not_eq_true, Bool.not_eq_false'] at forged
      rw [not_or, not_or, not_not, not_not] at unfit
      exact ⟨of_decide_eq_true verified, maxSeq, digest, slot, unfit.2.1,
        unfit.2.2, UInt64.not_le.mp unfit.1, forged⟩
  | none =>
      rw [selection] at verified
      dsimp only at verified
      split_ifs at verified with positive
      have zero : maxSeq = 0 := by grind
      exact ⟨of_decide_eq_true verified, maxSeq, digest, slot, zero⟩

/-- Where an authentic vote reports the highest sequence, the authentic votes have
the slot of all votes. -/
theorem slot_of_highestIsAuthentic {maxSeq : UInt64} {digest : Digest}
    (slot : highestViewChangeSlot cert.viewChangeVotes = some (maxSeq, digest))
    (highest : cert.HighestIsAuthentic publicKeys) :
    highestViewChangeSlot (cert.authenticVotes publicKeys) =
      some (maxSeq, digest) := by
  rcases highest with ⟨topSeq, reported, overall, authentic⟩
  obtain rfl := overall.unique (highestSeq_of_slot slot)
  have among : HighestSeq (cert.authenticVotes publicKeys) topSeq :=
    ⟨⟨reported, authentic⟩, fun seq digest voted =>
      overall.2 seq digest (reports_of_authentic voted)⟩
  by_cases positive : 0 < topSeq
  · rcases (highestViewChangeSlot_eq_some_iff positive).mp slot with
      ⟨_, _, unique⟩
    obtain rfl := unique reported (reports_of_authentic authentic)
    exact highestViewChangeSlot_of_unique among positive authentic
      fun other voted => unique other (reports_of_authentic voted)
  · obtain rfl : topSeq = 0 := by grind
    rw [highestViewChangeSlot_of_zero overall] at slot
    rw [highestViewChangeSlot_of_zero among, slot]

/-- A verified certificate binds to its authentic quorum exactly where one of the
authentic votes reports the highest sequence of all. -/
theorem bindsAuthentic_iff
    (verified : cert.verify quorumSize masterPk publicKeys = true) :
    cert.BindsAuthentic quorumSize masterPk publicKeys ↔
      cert.HighestIsAuthentic publicKeys := by
  rcases slot_of_verify verified with ⟨enough, maxSeq, digest, slot, fits⟩
  rw [validCount_eq] at enough
  constructor
  · rintro ⟨_, seq, named, authenticSlot, binds⟩
    have sameSeq : seq = maxSeq := by
      cases selection : cert.selectedPreparedCertificate with
      | some prepared =>
          rw [selection] at fits binds
          exact binds.1.symm.trans fits.1
      | none =>
          rw [selection] at fits binds
          exact Eq.trans binds fits.symm
    rcases (highestSeq_of_slot authenticSlot).1 with ⟨reported, authentic⟩
    exact ⟨maxSeq, reported, highestSeq_of_slot slot, sameSeq ▸ authentic⟩
  · intro highest
    exact ⟨enough, maxSeq, digest, slot_of_highestIsAuthentic slot highest, fits⟩

end NewViewCertificate

end QuorumBinding

section SmallRun

open SmallCluster

attribute [local instance] smallCurve

def preparedAtFive : PreparedCertificate where
  view := 0
  seq := 5
  digest := digestOf 7
  signatures := [0, 1, 2].foldl (fun sigs sender =>
    sigs.insert sender (signed .prepare 0 5 (digestOf 7) sender).signature) ∅

/-- A certificate for view 1: three nodes report no value, and under an id without a
key stands a vote for sequence 5 that nobody signed. -/
def boundToForgery : NewViewCertificate where
  targetView := 1
  viewChangeVotes :=
    ([0, 1, 2].foldl (fun votes sender => votes.insert sender
      (0, digestOf 0, (signed .viewChange 1 0 (digestOf 0) sender).signature))
      (∅ : ViewChangeVotes)).insert 9 (5, digestOf 7, 0)
  selectedPreparedCertificate := some preparedAtFive

/-- A certificate for view 1 in which one of the three nodes reports sequence 5. -/
def boundToReport : NewViewCertificate where
  targetView := 1
  viewChangeVotes :=
    ([0, 1].foldl (fun votes sender => votes.insert sender
      (0, digestOf 0, (signed .viewChange 1 0 (digestOf 0) sender).signature))
      (∅ : ViewChangeVotes)).insert 2
        (5, digestOf 7, (signed .viewChange 1 5 (digestOf 7) 2).signature)
  selectedPreparedCertificate := some preparedAtFive

theorem bindsAuthentic_atReport :
    boundToReport.verify topology.quorumSize topology.masterPublicKey
        topology.publicKeys = true ∧
      boundToReport.BindsAuthentic topology.quorumSize topology.masterPublicKey
        topology.publicKeys := by
  have verified : boundToReport.verify topology.quorumSize
      topology.masterPublicKey topology.publicKeys = true := by
    decide +kernel
  refine ⟨verified, ?_⟩
  apply (NewViewCertificate.bindsAuthentic_iff verified).mpr
  have slot : highestViewChangeSlot boundToReport.viewChangeVotes =
      some (5, digestOf 7) := by
    decide +kernel
  have authentic : (boundToReport.authenticVotes topology.publicKeys).get? 2 =
      some (5, digestOf 7, (signed .viewChange 1 5 (digestOf 7) 2).signature) := by
    decide +kernel
  exact ⟨5, digestOf 7, highestSeq_of_slot slot, 2, _, authentic⟩

theorem boundToForgery_verifies :
    ¬ ∀ (cert : NewViewCertificate) (quorumSize : Nat)
        (masterPk : G2Projective) (publicKeys : AssocMap UInt32 G2Projective),
      1 ≤ quorumSize →
        cert.verify quorumSize masterPk publicKeys = true →
          cert.BindsAuthentic quorumSize masterPk publicKeys := by
  intro binds
  have verified : boundToForgery.verify topology.quorumSize
      topology.masterPublicKey topology.publicKeys = true := by
    decide +kernel
  rcases binds boundToForgery _ _ _ topology.quorumSize_pos verified with
    ⟨_, seq, digest, slot, fits⟩
  have zero : highestViewChangeSlot
      (boundToForgery.authenticVotes topology.publicKeys) =
        some (0, zeroDigest) := by
    decide +kernel
  rw [zero] at slot
  cases slot
  exact absurd fits.1 (by decide)

end SmallRun

end SovereignLattice
