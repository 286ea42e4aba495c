import SovereignLattice.Pbft.ChainInvariant

/-!
# Certificates are determined by votes

The chain says that every certificate rests on a quorum of votes.  A complete
ledger also has the converse: every quorum of votes has its certificate.  Two
such ledgers with the same votes at a slot have the same certificates there.
-/

namespace SovereignLattice

variable [Curve]

/-- Votes are for proposals, and every quorum has formed its certificate. -/
structure VoteLedger.Complete (quorumSize : Nat) (ledger : VoteLedger) :
    Prop where
  prepare_proposed : ∀ key sigs,
    ledger.prepareVotes.get? key = some sigs → key ∈ ledger.proposals
  prepared_of_quorum : ∀ key sigs,
    ledger.prepareVotes.get? key = some sigs → quorumSize ≤ sigs.len →
      ledger.prepared.get? (slotOf key) = some (preparedCertificateOf key sigs)
  commit_proposed : ∀ key sigs,
    ledger.commitVotes.get? key = some sigs → key ∈ ledger.proposals
  commits_of_quorum : ∀ key sigs,
    ledger.commitVotes.get? key = some sigs → quorumSize ≤ sigs.len →
      ledger.commits.get? (slotOf key) = some (commitCertificateOf key sigs) ∧
        ledger.committed.get? (slotOf key) = some key.2.2

namespace VoteLedger.Complete

variable {topology : Topology} {ledger : VoteLedger} {quorumSize : Nat}

theorem initially (quorumSize : Nat) :
    VoteLedger.Complete quorumSize VoteLedger.empty := by
  constructor <;> simp [VoteLedger.empty]

theorem propose (complete : VoteLedger.Complete quorumSize ledger)
    (key : ProposalKey) :
    VoteLedger.Complete quorumSize (ledger.propose key) where
  prepare_proposed voted sigs stored :=
    Finset.mem_insert_of_mem (complete.prepare_proposed voted sigs stored)
  prepared_of_quorum := complete.prepared_of_quorum
  commit_proposed voted sigs stored :=
    Finset.mem_insert_of_mem (complete.commit_proposed voted sigs stored)
  commits_of_quorum := complete.commits_of_quorum

/-- Proposals of one slot are equal. -/
theorem eq_of_slotOf {first second : ProposalKey}
    (chain : CertificateChain topology ledger)
    (firstProposed : first ∈ ledger.proposals)
    (secondProposed : second ∈ ledger.proposals)
    (same : slotOf first = slotOf second) : first = second := by
  obtain ⟨view, seq, digest⟩ := first
  obtain ⟨view', seq', digest'⟩ := second
  rcases Prod.mk.inj same with ⟨rfl, rfl⟩
  have sameDigest : digest = digest' :=
    chain.proposal_unique _ _ digest digest' firstProposed secondProposed
  rw [sameDigest]

theorem recordPrepare (complete : VoteLedger.Complete quorumSize ledger)
    (chain : CertificateChain topology ledger) {key : ProposalKey}
    (proposed : key ∈ ledger.proposals) (sender : UInt32)
    (signature : G1Projective) :
    VoteLedger.Complete quorumSize
      (ledger.recordPrepare quorumSize key sender signature) where
  prepare_proposed voted sigs stored := by
    simp only [VoteLedger.recordPrepare, AssocMap.get?_insert] at stored
    split at stored
    · rename_i same
      exact same ▸ proposed
    · exact complete.prepare_proposed voted sigs stored
  prepared_of_quorum voted sigs stored quorum := by
    simp only [VoteLedger.recordPrepare] at stored ⊢
    rw [AssocMap.get?_insert] at stored
    by_cases same : voted = key
    · rw [if_pos same, Option.some.injEq] at stored
      subst same stored
      rw [if_pos quorum]
      exact AssocMap.get?_insert_self _ _ _
    · rw [if_neg same] at stored
      have otherSlot : slotOf voted ≠ slotOf key := fun sameSlot =>
        same (eq_of_slotOf chain (complete.prepare_proposed voted sigs stored)
          proposed sameSlot)
      have before := complete.prepared_of_quorum voted sigs stored quorum
      split
      · rw [AssocMap.get?_insert_of_ne _ _ otherSlot]
        exact before
      · exact before
  commit_proposed := complete.commit_proposed
  commits_of_quorum := complete.commits_of_quorum

theorem recordCommit (complete : VoteLedger.Complete quorumSize ledger)
    (chain : CertificateChain topology ledger) {key : ProposalKey}
    (proposed : key ∈ ledger.proposals) (sender : UInt32)
    (signature : G1Projective) :
    VoteLedger.Complete quorumSize
      (ledger.recordCommit quorumSize key sender signature) where
  prepare_proposed := complete.prepare_proposed
  prepared_of_quorum := complete.prepared_of_quorum
  commit_proposed voted sigs stored := by
    simp only [VoteLedger.recordCommit, AssocMap.get?_insert] at stored
    split at stored
    · rename_i same
      exact same ▸ proposed
    · exact complete.commit_proposed voted sigs stored
  commits_of_quorum voted sigs stored quorum := by
    simp only [VoteLedger.recordCommit] at stored ⊢
    rw [AssocMap.get?_insert] at stored
    by_cases same : voted = key
    · rw [if_pos same, Option.some.injEq] at stored
      subst same stored
      rw [if_pos quorum, if_pos quorum]
      exact ⟨AssocMap.get?_insert_self _ _ _, AssocMap.get?_insert_self _ _ _⟩
    · rw [if_neg same] at stored
      have otherSlot : slotOf voted ≠ slotOf key := fun sameSlot =>
        same (eq_of_slotOf chain (complete.commit_proposed voted sigs stored)
          proposed sameSlot)
      have before := complete.commits_of_quorum voted sigs stored quorum
      split
      · rw [AssocMap.get?_insert_of_ne _ _ otherSlot,
          AssocMap.get?_insert_of_ne _ _ otherSlot]
        exact before
      · exact before

theorem recordCheckpoint (complete : VoteLedger.Complete quorumSize ledger)
    (key : ProposalKey) (sender : UInt32) (signature : G1Projective) :
    VoteLedger.Complete quorumSize
      (ledger.recordCheckpoint key sender signature) where
  prepare_proposed := complete.prepare_proposed
  prepared_of_quorum := complete.prepared_of_quorum
  commit_proposed := complete.commit_proposed
  commits_of_quorum := complete.commits_of_quorum

theorem restrict (complete : VoteLedger.Complete quorumSize ledger)
    (keep : UInt64 → Bool) :
    VoteLedger.Complete quorumSize (ledger.restrict keep) where
  prepare_proposed key sigs stored := by
    rcases AssocMap.get?_of_retain stored with ⟨kept, before⟩
    exact Finset.mem_filter.mpr
      ⟨complete.prepare_proposed key sigs before, kept⟩
  prepared_of_quorum key sigs stored quorum := by
    rcases AssocMap.get?_of_retain stored with ⟨kept, before⟩
    simp only [VoteLedger.restrict, AssocMap.get?_retain]
    rw [if_pos (by exact kept)]
    exact complete.prepared_of_quorum key sigs before quorum
  commit_proposed key sigs stored := by
    rcases AssocMap.get?_of_retain stored with ⟨kept, before⟩
    exact Finset.mem_filter.mpr ⟨complete.commit_proposed key sigs before, kept⟩
  commits_of_quorum key sigs stored quorum := by
    rcases AssocMap.get?_of_retain stored with ⟨kept, before⟩
    simp only [VoteLedger.restrict, AssocMap.get?_retain]
    rw [if_pos (by exact kept), if_pos (by exact kept)]
    exact complete.commits_of_quorum key sigs before quorum

end VoteLedger.Complete

/-! ## Equal votes, equal certificates -/

section Determined

variable {topology : Topology} {first second : VoteLedger}

theorem prepared_of_sameVotes (chain : CertificateChain topology first)
    (complete : second.Complete topology.quorumSize) {view seq : UInt64}
    (sameVotes : ∀ digest, first.prepareVotes.get? (view, seq, digest) =
      second.prepareVotes.get? (view, seq, digest))
    {cert : PreparedCertificate}
    (stored : first.prepared.get? (view, seq) = some cert) :
    second.prepared.get? (view, seq) = some cert := by
  rcases chain.prepared_chain view seq cert stored with
    ⟨sameView, sameSeq, _, votes, quorum, _⟩
  rw [sameVotes] at votes
  have found := complete.prepared_of_quorum _ _ votes quorum
  obtain ⟨certView, certSeq, digest, signatures⟩ := cert
  subst sameView sameSeq
  exact found

theorem commit_of_sameVotes (chain : CertificateChain topology first)
    (complete : second.Complete topology.quorumSize) {view seq : UInt64}
    (sameVotes : ∀ digest, first.commitVotes.get? (view, seq, digest) =
      second.commitVotes.get? (view, seq, digest))
    {cert : CommitCertificate}
    (stored : first.commits.get? (view, seq) = some cert) :
    second.commits.get? (view, seq) = some cert ∧
      second.committed.get? (view, seq) = some cert.digest := by
  rcases chain.commit_chain view seq cert stored with
    ⟨sameView, sameSeq, _, votes, quorum, _⟩
  rw [sameVotes] at votes
  rcases complete.commits_of_quorum _ _ votes quorum with ⟨found, committed⟩
  obtain ⟨certView, certSeq, digest, signatures⟩ := cert
  subst sameView sameSeq
  exact ⟨found, committed⟩

theorem committed_of_sameVotes (chain : CertificateChain topology first)
    (complete : second.Complete topology.quorumSize) {view seq : UInt64}
    (sameVotes : ∀ digest, first.commitVotes.get? (view, seq, digest) =
      second.commitVotes.get? (view, seq, digest))
    {digest : Digest}
    (stored : first.committed.get? (view, seq) = some digest) :
    second.committed.get? (view, seq) = some digest := by
  have present : (first.commits.get? (view, seq)).isSome :=
    (chain.committed_keys _).mpr (Option.isSome_of_mem stored)
  rcases Option.isSome_iff_exists.mp present with ⟨cert, certified⟩
  rcases chain.commit_chain view seq cert certified with ⟨_, _, sameDigest, _⟩
  rw [stored, Option.some.injEq] at sameDigest
  rw [sameDigest]
  exact (commit_of_sameVotes chain complete sameVotes certified).2

omit [Curve] in
private theorem eq_of_transfer {V : Type} {left right : Option V}
    (forward : ∀ value, left = some value → right = some value)
    (backward : ∀ value, right = some value → left = some value) :
    left = right :=
  Option.ext fun value => ⟨forward value, backward value⟩

/-- At a slot with the same votes, chained and complete ledgers agree on all
three certificate maps. -/
theorem certificates_eq_of_sameVotes
    (firstChain : CertificateChain topology first)
    (secondChain : CertificateChain topology second)
    (firstComplete : first.Complete topology.quorumSize)
    (secondComplete : second.Complete topology.quorumSize) {view seq : UInt64}
    (samePrepares : ∀ digest, first.prepareVotes.get? (view, seq, digest) =
      second.prepareVotes.get? (view, seq, digest))
    (sameCommits : ∀ digest, first.commitVotes.get? (view, seq, digest) =
      second.commitVotes.get? (view, seq, digest)) :
    first.prepared.get? (view, seq) = second.prepared.get? (view, seq) ∧
      first.commits.get? (view, seq) = second.commits.get? (view, seq) ∧
      first.committed.get? (view, seq) = second.committed.get? (view, seq) := by
  have preparesBack := fun digest => (samePrepares digest).symm
  have commitsBack := fun digest => (sameCommits digest).symm
  refine ⟨?_, ?_, ?_⟩
  · exact eq_of_transfer
      (fun _ => prepared_of_sameVotes firstChain secondComplete samePrepares)
      (fun _ => prepared_of_sameVotes secondChain firstComplete preparesBack)
  · exact eq_of_transfer
      (fun _ stored =>
        (commit_of_sameVotes firstChain secondComplete sameCommits stored).1)
      (fun _ stored =>
        (commit_of_sameVotes secondChain firstComplete commitsBack stored).1)
  · exact eq_of_transfer
      (fun _ => committed_of_sameVotes firstChain secondComplete sameCommits)
      (fun _ => committed_of_sameVotes secondChain firstComplete commitsBack)

end Determined
end SovereignLattice
