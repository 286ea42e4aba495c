import SovereignLattice.Pbft.State

/-!
# The vote ledger

What a replica knows about its slots: accepted proposals, the votes for them,
and the certificates that the votes have formed.  The live handler and the
replay of the log both maintain such a ledger with the operations below, so an
invariant that the operations preserve holds of both.
-/

namespace SovereignLattice

variable [Curve]

structure VoteLedger where
  proposals : Finset ProposalKey
  prepareVotes : VoteMap
  commitVotes : VoteMap
  checkpointVotes : VoteMap
  prepared : AssocMap (UInt64 × UInt64) PreparedCertificate
  commits : AssocMap (UInt64 × UInt64) CommitCertificate
  committed : AssocMap (UInt64 × UInt64) Digest

/-- The signatures for a key after one more vote. -/
def VoteMap.withVote (votes : VoteMap) (key : ProposalKey) (sender : UInt32)
    (signature : G1Projective) : SignatureMap :=
  (votes.getD key ∅).insert sender signature

/-- The slot of a proposal key. -/
def slotOf (key : ProposalKey) : UInt64 × UInt64 :=
  (key.1, key.2.1)

/-- The prepared certificate that signatures for a key form. -/
def preparedCertificateOf (key : ProposalKey) (signatures : SignatureMap) :
    PreparedCertificate where
  view := key.1
  seq := key.2.1
  digest := key.2.2
  signatures := signatures

/-- The commit certificate that signatures for a key form. -/
def commitCertificateOf (key : ProposalKey) (signatures : SignatureMap) :
    CommitCertificate where
  view := key.1
  seq := key.2.1
  digest := key.2.2
  signatures := signatures

namespace VoteLedger

def empty : VoteLedger where
  proposals := ∅
  prepareVotes := ∅
  commitVotes := ∅
  checkpointVotes := ∅
  prepared := ∅
  commits := ∅
  committed := ∅

def propose (ledger : VoteLedger) (key : ProposalKey) : VoteLedger :=
  { ledger with proposals := insert key ledger.proposals }

/-- Record a prepare vote; with a quorum, (re)write the slot's certificate. -/
def recordPrepare (ledger : VoteLedger) (quorumSize : Nat) (key : ProposalKey)
    (sender : UInt32) (signature : G1Projective) : VoteLedger :=
  let sigs := ledger.prepareVotes.withVote key sender signature
  { ledger with
    prepareVotes := ledger.prepareVotes.insert key sigs
    prepared :=
      if quorumSize ≤ sigs.len then
        ledger.prepared.insert (slotOf key) (preparedCertificateOf key sigs)
      else
        ledger.prepared }

/-- Record a commit vote; with a quorum, commit the slot. -/
def recordCommit (ledger : VoteLedger) (quorumSize : Nat) (key : ProposalKey)
    (sender : UInt32) (signature : G1Projective) : VoteLedger :=
  let sigs := ledger.commitVotes.withVote key sender signature
  { ledger with
    commitVotes := ledger.commitVotes.insert key sigs
    commits :=
      if quorumSize ≤ sigs.len then
        ledger.commits.insert (slotOf key) (commitCertificateOf key sigs)
      else
        ledger.commits
    committed :=
      if quorumSize ≤ sigs.len then
        ledger.committed.insert (slotOf key) key.2.2
      else
        ledger.committed }

def recordCheckpoint (ledger : VoteLedger) (key : ProposalKey)
    (sender : UInt32) (signature : G1Projective) : VoteLedger :=
  { ledger with
    checkpointVotes := ledger.checkpointVotes.insert key
      (ledger.checkpointVotes.withVote key sender signature) }

/-- Forget everything about the sequences that fail the test. -/
def restrict (ledger : VoteLedger) (keep : UInt64 → Bool) : VoteLedger where
  proposals := ledger.proposals.filter fun key => keep key.2.1
  prepareVotes := ledger.prepareVotes.retain fun key => keep key.2.1
  commitVotes := ledger.commitVotes.retain fun key => keep key.2.1
  checkpointVotes := ledger.checkpointVotes.retain fun key => keep key.2.1
  prepared := ledger.prepared.retain fun slot => keep slot.2
  commits := ledger.commits.retain fun slot => keep slot.2
  committed := ledger.committed.retain fun slot => keep slot.2

theorem restrict_eq_self {ledger : VoteLedger} {keep : UInt64 → Bool}
    (always : ∀ seq, keep seq = true) : ledger.restrict keep = ledger := by
  have proposals : (ledger.proposals.filter fun key => keep key.2.1) =
      ledger.proposals :=
    Finset.filter_true_of_mem fun key _ => always key.2.1
  rw [restrict]
  rw [proposals]
  simp only [AssocMap.retain_eq_self fun key : ProposalKey => always key.2.1,
    AssocMap.retain_eq_self fun slot : UInt64 × UInt64 => always slot.2]

section Quorum

variable {ledger : VoteLedger} {quorumSize : Nat} {key : ProposalKey}
variable {sender : UInt32} {signature : G1Projective}

theorem recordPrepare_of_quorum
    (quorum : quorumSize ≤
      (ledger.prepareVotes.withVote key sender signature).len) :
    ledger.recordPrepare quorumSize key sender signature =
      { ledger with
        prepareVotes := ledger.prepareVotes.insert key
          (ledger.prepareVotes.withVote key sender signature)
        prepared := ledger.prepared.insert (slotOf key)
          (preparedCertificateOf key
            (ledger.prepareVotes.withVote key sender signature)) } := by
  simp only [recordPrepare, if_pos quorum]

theorem recordPrepare_of_few
    (few : (ledger.prepareVotes.withVote key sender signature).len <
      quorumSize) :
    ledger.recordPrepare quorumSize key sender signature =
      { ledger with
        prepareVotes := ledger.prepareVotes.insert key
          (ledger.prepareVotes.withVote key sender signature) } := by
  simp only [recordPrepare, if_neg (Nat.not_le.mpr few)]

theorem get?_prepared_recordPrepare (ledger : VoteLedger) (quorumSize : Nat)
    (key : ProposalKey) (sender : UInt32) (signature : G1Projective)
    (slot : UInt64 × UInt64) :
    (ledger.recordPrepare quorumSize key sender signature).prepared.get? slot =
      if quorumSize ≤ (ledger.prepareVotes.withVote key sender signature).len ∧
          slot = slotOf key then
        some (preparedCertificateOf key
          (ledger.prepareVotes.withVote key sender signature))
      else
        ledger.prepared.get? slot := by
  by_cases quorum : quorumSize ≤
      (ledger.prepareVotes.withVote key sender signature).len
  · rw [recordPrepare_of_quorum quorum]
    simp only [AssocMap.get?_insert, quorum, true_and]
  · rw [recordPrepare_of_few (Nat.lt_of_not_le quorum),
      if_neg fun both => quorum both.1]

theorem recordCommit_of_quorum
    (quorum : quorumSize ≤
      (ledger.commitVotes.withVote key sender signature).len) :
    ledger.recordCommit quorumSize key sender signature =
      { ledger with
        commitVotes := ledger.commitVotes.insert key
          (ledger.commitVotes.withVote key sender signature)
        commits := ledger.commits.insert (slotOf key)
          (commitCertificateOf key
            (ledger.commitVotes.withVote key sender signature))
        committed := ledger.committed.insert (slotOf key) key.2.2 } := by
  simp only [recordCommit, if_pos quorum]

theorem recordCommit_of_few
    (few : (ledger.commitVotes.withVote key sender signature).len <
      quorumSize) :
    ledger.recordCommit quorumSize key sender signature =
      { ledger with
        commitVotes := ledger.commitVotes.insert key
          (ledger.commitVotes.withVote key sender signature) } := by
  simp only [recordCommit, if_neg (Nat.not_le.mpr few)]

theorem get?_commits_recordCommit (ledger : VoteLedger) (quorumSize : Nat)
    (key : ProposalKey) (sender : UInt32) (signature : G1Projective)
    (slot : UInt64 × UInt64) :
    (ledger.recordCommit quorumSize key sender signature).commits.get? slot =
      if quorumSize ≤ (ledger.commitVotes.withVote key sender signature).len ∧
          slot = slotOf key then
        some (commitCertificateOf key
          (ledger.commitVotes.withVote key sender signature))
      else
        ledger.commits.get? slot := by
  by_cases quorum : quorumSize ≤
      (ledger.commitVotes.withVote key sender signature).len
  · rw [recordCommit_of_quorum quorum]
    simp only [AssocMap.get?_insert, quorum, true_and]
  · rw [recordCommit_of_few (Nat.lt_of_not_le quorum),
      if_neg fun both => quorum both.1]

end Quorum

end VoteLedger

/-! ## The certificate chain -/

/-- The sender is registered and the signature verifies under its key for
exactly this phase, view, sequence and digest. -/
def Topology.Verifies (topology : Topology) (phase : Phase) (key : ProposalKey)
    (sender : UInt32) (signature : G1Projective) : Prop :=
  sender ∈ topology.registeredNodes ∧
    ∃ pk, topology.publicKeys.get? sender = some pk ∧
      verifyBlsSignature
        (canonicalMsg phase.toU8 key.1 key.2.1 key.2.2) signature pk = true

/-- Every vote of the map has the property. -/
def VoteMap.All (votes : VoteMap)
    (holds : ProposalKey → UInt32 → G1Projective → Prop) : Prop :=
  ∀ key sigs, votes.get? key = some sigs →
    ∀ sender signature, sigs.get? sender = some signature →
      holds key sender signature

/-- Every vote of the map verifies for the phase. -/
def Topology.Authentic (topology : Topology) (phase : Phase) (votes : VoteMap) :
    Prop :=
  votes.All (topology.Verifies phase)

/-- Certificates rest on votes, votes on proposals, and a slot has one
digest. -/
structure CertificateChain (topology : Topology) (ledger : VoteLedger) :
    Prop where
  proposal_unique : ∀ view seq digest digest',
    (view, seq, digest) ∈ ledger.proposals →
      (view, seq, digest') ∈ ledger.proposals → digest = digest'
  prepareVotes_authentic : topology.Authentic .prepare ledger.prepareVotes
  commitVotes_authentic : topology.Authentic .commit ledger.commitVotes
  checkpointVotes_authentic :
    topology.Authentic .checkpoint ledger.checkpointVotes
  prepared_chain : ∀ view seq cert,
    ledger.prepared.get? (view, seq) = some cert →
      cert.view = view ∧ cert.seq = seq ∧
        (view, seq, cert.digest) ∈ ledger.proposals ∧
        ledger.prepareVotes.get? (view, seq, cert.digest) =
          some cert.signatures ∧
        topology.quorumSize ≤ cert.signatures.len ∧
        cert.verify topology.quorumSize topology.masterPublicKey = true
  committed_keys : ∀ slot,
    (ledger.commits.get? slot).isSome ↔ (ledger.committed.get? slot).isSome
  commit_chain : ∀ view seq cert,
    ledger.commits.get? (view, seq) = some cert →
      cert.view = view ∧ cert.seq = seq ∧
        ledger.committed.get? (view, seq) = some cert.digest ∧
        ledger.commitVotes.get? (view, seq, cert.digest) =
          some cert.signatures ∧
        topology.quorumSize ≤ cert.signatures.len ∧
        cert.verify topology.quorumSize topology.masterPublicKey = true ∧
        ∃ prepared, ledger.prepared.get? (view, seq) = some prepared ∧
          prepared.digest = cert.digest

/-! ## Votes and their authenticity -/

theorem VoteMap.withVote_get? (votes : VoteMap) (key : ProposalKey)
    (sender other : UInt32) (signature : G1Projective) :
    (votes.withVote key sender signature).get? other =
      if other = sender then some signature else (votes.getD key ∅).get? other :=
  AssocMap.get?_insert _ _ _ _

theorem VoteMap.keySet_withVote (votes : VoteMap) (key : ProposalKey)
    (sender : UInt32) (signature : G1Projective) :
    (votes.withVote key sender signature).keySet =
      insert sender (votes.getD key ∅).keySet :=
  AssocMap.keySet_insert _ _ _

theorem VoteMap.card_withVote (votes : VoteMap) (key : ProposalKey)
    (sender : UInt32) (signature : G1Projective) :
    (votes.withVote key sender signature).len =
      (insert sender (votes.getD key ∅).keySet).card := by
  rw [← AssocMap.card_keySet, keySet_withVote]

theorem VoteMap.getD_insert_withVote (votes : VoteMap) (key : ProposalKey)
    (sender : UInt32) (signature : G1Projective) :
    (votes.insert key (votes.withVote key sender signature)).getD key ∅ =
      votes.withVote key sender signature :=
  AssocMap.getD_of_get? ∅ (AssocMap.get?_insert_self _ _ _)

theorem VoteMap.len_le_withVote {votes : VoteMap} {key : ProposalKey}
    {sigs : SignatureMap} (stored : votes.get? key = some sigs)
    (sender : UInt32) (signature : G1Projective) :
    sigs.len ≤ (votes.withVote key sender signature).len := by
  rw [VoteMap.withVote, AssocMap.getD_of_get? ∅ stored]
  exact AssocMap.len_le_len_insert sigs sender signature

namespace VoteMap.All

variable {votes : VoteMap} {holds : ProposalKey → UInt32 → G1Projective → Prop}

theorem empty : VoteMap.All ∅ holds := by
  intro key sigs stored
  simp at stored

theorem insert_withVote (all : votes.All holds) {key : ProposalKey}
    {sender : UInt32} {signature : G1Projective}
    (new : holds key sender signature) :
    VoteMap.All (votes.insert key (votes.withVote key sender signature))
      holds := by
  intro tested sigs stored voter found voted
  rw [AssocMap.get?_insert] at stored
  by_cases same : tested = key
  · rw [if_pos same, Option.some.injEq] at stored
    subst same stored
    rw [VoteMap.withVote_get?] at voted
    by_cases self : voter = sender
    · rw [if_pos self, Option.some.injEq] at voted
      subst self voted
      exact new
    · rw [if_neg self] at voted
      cases earlier : votes.get? tested with
      | none => simp [AssocMap.getD, earlier] at voted
      | some before =>
          rw [AssocMap.getD_of_get? ∅ earlier] at voted
          exact all tested before earlier voter found voted
  · rw [if_neg same] at stored
    exact all tested sigs stored voter found voted

theorem retain (all : votes.All holds) (keep : ProposalKey → Bool) :
    VoteMap.All (votes.retain keep) holds := by
  intro key sigs stored
  rw [AssocMap.get?_retain] at stored
  split at stored
  · exact all key sigs stored
  · cases stored

theorem mono {weaker : ProposalKey → UInt32 → G1Projective → Prop}
    (all : votes.All holds)
    (implies : ∀ key sender signature, holds key sender signature →
      weaker key sender signature) : votes.All weaker := by
  intro key sigs stored sender signature voted
  exact implies key sender signature
    (all key sigs stored sender signature voted)

end VoteMap.All

/-! ## The operations preserve the chain -/

namespace CertificateChain

variable {topology : Topology} {ledger : VoteLedger}

theorem initially (topology : Topology) :
    CertificateChain topology VoteLedger.empty where
  proposal_unique := by simp [VoteLedger.empty]
  prepareVotes_authentic := VoteMap.All.empty
  commitVotes_authentic := VoteMap.All.empty
  checkpointVotes_authentic := VoteMap.All.empty
  prepared_chain := by simp [VoteLedger.empty]
  committed_keys := by simp [VoteLedger.empty]
  commit_chain := by simp [VoteLedger.empty]

theorem propose (chain : CertificateChain topology ledger) {key : ProposalKey}
    (fresh : ∀ digest, (key.1, key.2.1, digest) ∈ ledger.proposals →
      digest = key.2.2) :
    CertificateChain topology (ledger.propose key) where
  proposal_unique := by
    obtain ⟨keyView, keySeq, keyDigest⟩ := key
    intro view seq digest digest' first second
    simp only [VoteLedger.propose, Finset.mem_insert, Prod.mk.injEq]
      at first second fresh
    rcases first with ⟨rfl, rfl, rfl⟩ | first
    · rcases second with ⟨_, _, rfl⟩ | second
      · rfl
      · exact (fresh digest' second).symm
    · rcases second with ⟨rfl, rfl, rfl⟩ | second
      · exact fresh digest first
      · exact chain.proposal_unique view seq digest digest' first second
  prepareVotes_authentic := chain.prepareVotes_authentic
  commitVotes_authentic := chain.commitVotes_authentic
  checkpointVotes_authentic := chain.checkpointVotes_authentic
  prepared_chain := by
    intro view seq cert stored
    rcases chain.prepared_chain view seq cert stored with
      ⟨sameView, sameSeq, proposed, rest⟩
    exact ⟨sameView, sameSeq, Finset.mem_insert_of_mem proposed, rest⟩
  committed_keys := chain.committed_keys
  commit_chain := chain.commit_chain

/-- A certificate stored at the slot of a proposed key has the key's digest. -/
theorem digest_of_prepared (chain : CertificateChain topology ledger)
    {key : ProposalKey} (proposed : key ∈ ledger.proposals)
    {cert : PreparedCertificate}
    (stored : ledger.prepared.get? (slotOf key) = some cert) :
    cert.digest = key.2.2 := by
  obtain ⟨_, _, certProposed, _⟩ := chain.prepared_chain key.1 key.2.1 cert stored
  exact chain.proposal_unique key.1 key.2.1 _ _ certProposed proposed

/-- Recording a Prepare keeps the digest of every prepared slot. -/
theorem prepared_kept (chain : CertificateChain topology ledger)
    {quorumSize : Nat} {key : ProposalKey} (proposed : key ∈ ledger.proposals)
    (sender : UInt32) (signature : G1Projective) {slot : UInt64 × UInt64}
    {cert : PreparedCertificate} (held : ledger.prepared.get? slot = some cert) :
    ∃ later, (ledger.recordPrepare quorumSize key sender
        signature).prepared.get? slot = some later ∧
      later.digest = cert.digest := by
  rw [VoteLedger.get?_prepared_recordPrepare]
  split
  · rename_i written
    rcases written with ⟨_, rfl⟩
    exact ⟨_, rfl, (chain.digest_of_prepared proposed held).symm⟩
  · exact ⟨cert, held, rfl⟩

/-- The certificate found at a slot after a prepare: the new one or an old one of
another slot, never an old one of this slot below the quorum. -/
theorem prepared_recordPrepare_cases (chain : CertificateChain topology ledger)
    {key : ProposalKey} (proposed : key ∈ ledger.proposals) {sender : UInt32}
    {signature : G1Projective} {slot : UInt64 × UInt64}
    {cert : PreparedCertificate}
    (stored : (ledger.recordPrepare topology.quorumSize key sender
      signature).prepared.get? slot = some cert) :
    (slot = slotOf key ∧
        topology.quorumSize ≤
          (ledger.prepareVotes.withVote key sender signature).len ∧
        cert = preparedCertificateOf key
          (ledger.prepareVotes.withVote key sender signature)) ∨
      (slot ≠ slotOf key ∧ ledger.prepared.get? slot = some cert) := by
  rw [VoteLedger.get?_prepared_recordPrepare] at stored
  by_cases same : slot = slotOf key
  · subst same
    by_cases quorum : topology.quorumSize ≤
        (ledger.prepareVotes.withVote key sender signature).len
    · rw [if_pos ⟨quorum, rfl⟩, Option.some.injEq] at stored
      exact Or.inl ⟨rfl, quorum, stored.symm⟩
    · rw [if_neg fun both => quorum both.1] at stored
      have sameDigest := chain.digest_of_prepared proposed stored
      rcases chain.prepared_chain key.1 key.2.1 cert stored with
        ⟨_, _, _, votes, size, _⟩
      rw [sameDigest] at votes
      have grows := VoteMap.len_le_withVote votes sender signature
      exact absurd (size.trans grows) quorum
  · rw [if_neg fun both => same both.2] at stored
    exact Or.inr ⟨same, stored⟩

theorem recordPrepare (chain : CertificateChain topology ledger)
    {key : ProposalKey} {sender : UInt32} {signature : G1Projective}
    (proposed : key ∈ ledger.proposals)
    (verifies : topology.Verifies .prepare key sender signature)
    (certified :
      topology.quorumSize ≤
          (ledger.prepareVotes.withVote key sender signature).len →
        (preparedCertificateOf key
          (ledger.prepareVotes.withVote key sender signature)).verify
            topology.quorumSize topology.masterPublicKey = true) :
    CertificateChain topology
      (ledger.recordPrepare topology.quorumSize key sender signature) where
  proposal_unique := chain.proposal_unique
  prepareVotes_authentic :=
    chain.prepareVotes_authentic.insert_withVote verifies
  commitVotes_authentic := chain.commitVotes_authentic
  checkpointVotes_authentic := chain.checkpointVotes_authentic
  prepared_chain := by
    intro view seq cert stored
    rcases chain.prepared_recordPrepare_cases proposed stored with
      ⟨sameSlot, quorum, rfl⟩ | ⟨otherSlot, before⟩
    · rcases Prod.mk.inj sameSlot with ⟨rfl, rfl⟩
      exact ⟨rfl, rfl, proposed, AssocMap.get?_insert_self _ _ _, quorum,
        certified quorum⟩
    · rcases chain.prepared_chain view seq cert before with
        ⟨sameView, sameSeq, certProposed, votes, size, verified⟩
      refine ⟨sameView, sameSeq, certProposed, ?_, size, verified⟩
      have otherKey : (view, seq, cert.digest) ≠ key := by
        intro same
        exact otherSlot (by rw [← same]; rfl)
      exact (AssocMap.get?_insert_of_ne _ _ otherKey).trans votes
  committed_keys := chain.committed_keys
  commit_chain := by
    intro view seq cert stored
    obtain ⟨sameView, sameSeq, digest, votes, size, verified, prepared,
      found, sameDigest⟩ := chain.commit_chain view seq cert stored
    rcases chain.prepared_kept proposed sender signature found with
      ⟨later, held, kept⟩
    exact ⟨sameView, sameSeq, digest, votes, size, verified, later, held,
      kept.trans sameDigest⟩

/-- The commit certificate found at a slot after a commit, in the same way. -/
theorem commits_recordCommit_cases (chain : CertificateChain topology ledger)
    {key : ProposalKey} {prepared : PreparedCertificate}
    (backed : ledger.prepared.get? (slotOf key) = some prepared)
    (backedDigest : prepared.digest = key.2.2) {sender : UInt32}
    {signature : G1Projective} {slot : UInt64 × UInt64} {cert : CommitCertificate}
    (stored : (ledger.recordCommit topology.quorumSize key sender
      signature).commits.get? slot = some cert) :
    (slot = slotOf key ∧
        topology.quorumSize ≤
          (ledger.commitVotes.withVote key sender signature).len ∧
        cert = commitCertificateOf key
          (ledger.commitVotes.withVote key sender signature)) ∨
      (slot ≠ slotOf key ∧ ledger.commits.get? slot = some cert) := by
  rw [VoteLedger.get?_commits_recordCommit] at stored
  by_cases same : slot = slotOf key
  · subst same
    by_cases quorum : topology.quorumSize ≤
        (ledger.commitVotes.withVote key sender signature).len
    · rw [if_pos ⟨quorum, rfl⟩, Option.some.injEq] at stored
      exact Or.inl ⟨rfl, quorum, stored.symm⟩
    · rw [if_neg fun both => quorum both.1] at stored
      rcases chain.commit_chain key.1 key.2.1 cert stored with
        ⟨_, _, _, votes, size, _, found, atSlot, sameDigest⟩
      have sameCert : found = prepared :=
        Option.some.inj (atSlot.symm.trans backed)
      rw [← sameDigest, sameCert, backedDigest] at votes
      have grows := VoteMap.len_le_withVote votes sender signature
      exact absurd (size.trans grows) quorum
  · rw [if_neg fun both => same both.2] at stored
    exact Or.inr ⟨same, stored⟩

theorem recordCommit (chain : CertificateChain topology ledger)
    {key : ProposalKey} {sender : UInt32} {signature : G1Projective}
    {prepared : PreparedCertificate}
    (backed : ledger.prepared.get? (slotOf key) = some prepared)
    (backedDigest : prepared.digest = key.2.2)
    (verifies : topology.Verifies .commit key sender signature)
    (certified :
      topology.quorumSize ≤
          (ledger.commitVotes.withVote key sender signature).len →
        (commitCertificateOf key
          (ledger.commitVotes.withVote key sender signature)).verify
            topology.quorumSize topology.masterPublicKey = true) :
    CertificateChain topology
      (ledger.recordCommit topology.quorumSize key sender signature) where
  proposal_unique := chain.proposal_unique
  prepareVotes_authentic := chain.prepareVotes_authentic
  commitVotes_authentic :=
    chain.commitVotes_authentic.insert_withVote verifies
  checkpointVotes_authentic := chain.checkpointVotes_authentic
  prepared_chain := chain.prepared_chain
  committed_keys := by
    intro slot
    simp only [VoteLedger.recordCommit]
    split
    · rw [AssocMap.get?_insert, AssocMap.get?_insert]
      split
      · simp
      · exact chain.committed_keys slot
    · exact chain.committed_keys slot
  commit_chain := by
    intro view seq cert stored
    rcases chain.commits_recordCommit_cases backed backedDigest stored with
      ⟨sameSlot, quorum, rfl⟩ | ⟨otherSlot, before⟩
    · rcases Prod.mk.inj sameSlot with ⟨rfl, rfl⟩
      refine ⟨rfl, rfl, ?_, AssocMap.get?_insert_self _ _ _, quorum,
        certified quorum, prepared, backed, backedDigest⟩
      simp only [VoteLedger.recordCommit]
      rw [if_pos quorum]
      exact AssocMap.get?_insert_self _ _ _
    · rcases chain.commit_chain view seq cert before with
        ⟨sameView, sameSeq, digest, votes, size, verified, found⟩
      refine ⟨sameView, sameSeq, ?_, ?_, size, verified, found⟩
      · simp only [VoteLedger.recordCommit]
        split
        · rw [AssocMap.get?_insert_of_ne _ _ otherSlot]
          exact digest
        · exact digest
      · have otherKey : (view, seq, cert.digest) ≠ key := by
          intro same
          exact otherSlot (by rw [← same]; rfl)
        exact (AssocMap.get?_insert_of_ne _ _ otherKey).trans votes

theorem recordCheckpoint (chain : CertificateChain topology ledger)
    {key : ProposalKey} {sender : UInt32} {signature : G1Projective}
    (verifies : topology.Verifies .checkpoint key sender signature) :
    CertificateChain topology
      (ledger.recordCheckpoint key sender signature) where
  proposal_unique := chain.proposal_unique
  prepareVotes_authentic := chain.prepareVotes_authentic
  commitVotes_authentic := chain.commitVotes_authentic
  checkpointVotes_authentic :=
    chain.checkpointVotes_authentic.insert_withVote verifies
  prepared_chain := chain.prepared_chain
  committed_keys := chain.committed_keys
  commit_chain := chain.commit_chain

/-- Pruning by sequence removes whole slots, so the chain survives it. -/
theorem restrict (chain : CertificateChain topology ledger)
    (keep : UInt64 → Bool) :
    CertificateChain topology (ledger.restrict keep) where
  proposal_unique := by
    intro view seq digest digest' first second
    exact chain.proposal_unique view seq digest digest'
      (Finset.mem_filter.mp first).1 (Finset.mem_filter.mp second).1
  prepareVotes_authentic := chain.prepareVotes_authentic.retain _
  commitVotes_authentic := chain.commitVotes_authentic.retain _
  checkpointVotes_authentic := chain.checkpointVotes_authentic.retain _
  prepared_chain := by
    intro view seq cert stored
    rcases AssocMap.get?_of_retain stored with ⟨kept, before⟩
    rcases chain.prepared_chain view seq cert before with
      ⟨sameView, sameSeq, proposed, votes, size, verified⟩
    refine ⟨sameView, sameSeq, Finset.mem_filter.mpr ⟨proposed, kept⟩, ?_,
      size, verified⟩
    simp only [VoteLedger.restrict, AssocMap.get?_retain]
    rw [if_pos kept]
    exact votes
  committed_keys := by
    intro slot
    simp only [VoteLedger.restrict, AssocMap.get?_retain]
    split
    · exact chain.committed_keys slot
    · simp
  commit_chain := by
    intro view seq cert stored
    rcases AssocMap.get?_of_retain stored with ⟨kept, before⟩
    obtain ⟨sameView, sameSeq, digest, votes, size, verified, prepared, found,
      sameDigest⟩ := chain.commit_chain view seq cert before
    refine ⟨sameView, sameSeq, ?_, ?_, size, verified, prepared, ?_,
      sameDigest⟩
    · simp only [VoteLedger.restrict, AssocMap.get?_retain]
      rw [if_pos kept]
      exact digest
    · simp only [VoteLedger.restrict, AssocMap.get?_retain]
      rw [if_pos kept]
      exact votes
    · simp only [VoteLedger.restrict, AssocMap.get?_retain]
      rw [if_pos kept]
      exact found

end CertificateChain
end SovereignLattice
