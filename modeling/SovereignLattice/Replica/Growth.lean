import SovereignLattice.Pbft.Progress
import SovereignLattice.Replica.SmallCluster

/-!
# The protocol state only grows

A call never lowers a counter, never changes the digest of a slot and never loses
a signer; entries go away only below a checkpoint that has become stable.
-/

namespace SovereignLattice

section Growth

variable [Curve]

/-- Every entry is still there with a value that has grown out of its own, or it is
gone because a later checkpoint covers its sequence. -/
def KeepsAbove {K V : Type} [DecidableEq K] (seqOf : K → UInt64)
    (grown : V → V → Prop) (earlier checkpoint : UInt64)
    (before after : AssocMap K V) : Prop :=
  ∀ key value, before.get? key = some value →
    (∃ later, after.get? key = some later ∧ grown value later) ∨
      (after.get? key = none ∧ earlier < checkpoint ∧ seqOf key ≤ checkpoint)

namespace KeepsAbove

variable {K V : Type} [DecidableEq K] {seqOf : K → UInt64}
variable {grown : V → V → Prop} {earlier checkpoint : UInt64}
variable {map : AssocMap K V}

omit [Curve] in
theorem refl (grows : ∀ value, grown value value) :
    KeepsAbove seqOf grown earlier checkpoint map map :=
  fun _ value stored => Or.inl ⟨value, stored, grows value⟩

omit [Curve] in
theorem insert (grows : ∀ value, grown value value) {key : K} {value : V}
    (replaced : ∀ before, map.get? key = some before → grown before value) :
    KeepsAbove seqOf grown earlier checkpoint map (map.insert key value) := by
  intro tested before stored
  by_cases same : tested = key
  · subst tested
    exact Or.inl ⟨value, map.get?_insert_self key value, replaced before stored⟩
  · refine Or.inl ⟨before, ?_, grows before⟩
    rw [AssocMap.get?_insert_of_ne _ _ same]
    exact stored

omit [Curve] in
/-- Dropping what is not above the checkpoint. -/
theorem retain (grows : ∀ value, grown value value)
    (risen : earlier < checkpoint) :
    KeepsAbove seqOf grown earlier checkpoint map
      (map.retain fun key => seqOf key > checkpoint) := by
  intro key value stored
  rw [AssocMap.get?_retain]
  by_cases above : seqOf key > checkpoint
  · exact Or.inl ⟨value, by simpa [above] using stored, grows value⟩
  · exact Or.inr ⟨by simp [above], risen, UInt64.not_lt.mp above⟩

end KeepsAbove

/-- The signers of the later map include those of the earlier one. -/
def MoreSigners (before after : SignatureMap) : Prop :=
  before.keySet ⊆ after.keySet

/-- The digest is the same and no signer is lost. -/
def PreparedGrown (before after : PreparedCertificate) : Prop :=
  after.digest = before.digest ∧ MoreSigners before.signatures after.signatures

/-- The digest is the same and no signer is lost. -/
def CommitGrown (before after : CommitCertificate) : Prop :=
  after.digest = before.digest ∧ MoreSigners before.signatures after.signatures

/-- What a call of the handler may do to the protocol state. -/
structure Grows (before after : PbftState) : Prop where
  currentView : before.currentView ≤ after.currentView
  highestSeq : before.highestSeq ≤ after.highestSeq
  lastStableCheckpoint :
    before.lastStableCheckpoint ≤ after.lastStableCheckpoint
  committedDigest :
    KeepsAbove Prod.snd Eq before.lastStableCheckpoint
      after.lastStableCheckpoint before.committedDigest after.committedDigest
  preparedCertificates :
    KeepsAbove Prod.snd PreparedGrown before.lastStableCheckpoint
      after.lastStableCheckpoint before.preparedCertificates
      after.preparedCertificates
  commitCertificates :
    KeepsAbove Prod.snd CommitGrown before.lastStableCheckpoint
      after.lastStableCheckpoint before.commitCertificates
      after.commitCertificates
  prepareVotes :
    KeepsAbove (fun key : ProposalKey => key.2.1) MoreSigners
      before.lastStableCheckpoint after.lastStableCheckpoint before.prepareVotes
      after.prepareVotes
  commitVotes :
    KeepsAbove (fun key : ProposalKey => key.2.1) MoreSigners
      before.lastStableCheckpoint after.lastStableCheckpoint before.commitVotes
      after.commitVotes

theorem MoreSigners.refl (signatures : SignatureMap) :
    MoreSigners signatures signatures :=
  Finset.Subset.refl _

theorem PreparedGrown.refl (cert : PreparedCertificate) :
    PreparedGrown cert cert :=
  ⟨rfl, MoreSigners.refl _⟩

theorem CommitGrown.refl (cert : CommitCertificate) : CommitGrown cert cert :=
  ⟨rfl, MoreSigners.refl _⟩

/-- One more vote keeps the signers. -/
theorem VoteMap.moreSigners_withVote {votes : VoteMap} {key : ProposalKey}
    {sigs : SignatureMap} (stored : votes.get? key = some sigs)
    (sender : UInt32) (signature : G1Projective) :
    MoreSigners sigs (votes.withVote key sender signature) := by
  rw [MoreSigners, VoteMap.withVote, AssocMap.getD_of_get? ∅ stored,
    AssocMap.keySet_insert]
  exact Finset.subset_insert sender sigs.keySet

namespace VoteLedger

variable {ledger : VoteLedger} {topology : Topology} {key : ProposalKey}
variable {sender : UInt32} {signature : G1Projective}

/-- A rewritten prepared certificate has the slot's digest and all its signers. -/
theorem preparedGrown_recordPrepare (chain : CertificateChain topology ledger)
    (proposed : key ∈ ledger.proposals) (earlier checkpoint : UInt64) :
    KeepsAbove Prod.snd PreparedGrown earlier checkpoint ledger.prepared
      (ledger.recordPrepare topology.quorumSize key sender signature).prepared := by
  by_cases quorum : topology.quorumSize ≤
      (ledger.prepareVotes.withVote key sender signature).len
  · rw [recordPrepare_of_quorum quorum]
    apply KeepsAbove.insert PreparedGrown.refl
    intro cert stored
    have sameDigest := chain.digest_of_prepared proposed stored
    rcases chain.prepared_chain key.1 key.2.1 cert stored with
      ⟨_, _, _, votes, _⟩
    rw [sameDigest] at votes
    exact ⟨sameDigest.symm, VoteMap.moreSigners_withVote votes _ _⟩
  · rw [recordPrepare_of_few (Nat.lt_of_not_le quorum)]
    exact KeepsAbove.refl PreparedGrown.refl

/-- A commit certificate at the slot of a key that a prepared certificate backs has
the key's digest. -/
theorem digest_of_committed (chain : CertificateChain topology ledger)
    {prepared : PreparedCertificate}
    (backed : ledger.prepared.get? (slotOf key) = some prepared)
    (backedDigest : prepared.digest = key.2.2) {cert : CommitCertificate}
    (stored : ledger.commits.get? (slotOf key) = some cert) :
    cert.digest = key.2.2 ∧
      ledger.committed.get? (slotOf key) = some key.2.2 ∧
      ledger.commitVotes.get? key = some cert.signatures := by
  obtain ⟨_, _, committed, votes, _, _, found, held, sameDigest⟩ :=
    chain.commit_chain key.1 key.2.1 cert stored
  have same : found = prepared := Option.some.inj (held.symm.trans backed)
  subst same
  have certDigest : cert.digest = key.2.2 := sameDigest.symm.trans backedDigest
  rw [certDigest] at committed votes
  exact ⟨certDigest, committed, votes⟩

/-- A rewritten commit certificate has the slot's digest and all its signers, and the
committed digest is rewritten with itself. -/
theorem commitGrown_recordCommit (chain : CertificateChain topology ledger)
    {prepared : PreparedCertificate}
    (backed : ledger.prepared.get? (slotOf key) = some prepared)
    (backedDigest : prepared.digest = key.2.2) (earlier checkpoint : UInt64) :
    KeepsAbove Prod.snd CommitGrown earlier checkpoint ledger.commits
        (ledger.recordCommit topology.quorumSize key sender signature).commits ∧
      KeepsAbove Prod.snd Eq earlier checkpoint ledger.committed
        (ledger.recordCommit topology.quorumSize key sender
          signature).committed := by
  by_cases quorum : topology.quorumSize ≤
      (ledger.commitVotes.withVote key sender signature).len
  · rw [recordCommit_of_quorum quorum]
    constructor
    · apply KeepsAbove.insert CommitGrown.refl
      intro cert stored
      rcases digest_of_committed chain backed backedDigest stored with
        ⟨certDigest, _, votes⟩
      exact ⟨certDigest.symm, VoteMap.moreSigners_withVote votes _ _⟩
    · apply KeepsAbove.insert fun _ => rfl
      intro digest stored
      have held : (ledger.commits.get? (slotOf key)).isSome := by
        rw [chain.committed_keys, stored]
        rfl
      rcases Option.isSome_iff_exists.mp held with ⟨cert, found⟩
      rcases digest_of_committed chain backed backedDigest found with
        ⟨_, committed, _⟩
      exact Option.some.inj (stored.symm.trans committed)
  · rw [recordCommit_of_few (Nat.lt_of_not_le quorum)]
    exact ⟨KeepsAbove.refl CommitGrown.refl, KeepsAbove.refl fun _ => rfl⟩

end VoteLedger

theorem Grows.refl (state : PbftState) : Grows state state where
  currentView := UInt64.le_refl _
  highestSeq := UInt64.le_refl _
  lastStableCheckpoint := UInt64.le_refl _
  committedDigest := KeepsAbove.refl fun _ => rfl
  preparedCertificates := KeepsAbove.refl PreparedGrown.refl
  commitCertificates := KeepsAbove.refl CommitGrown.refl
  prepareVotes := KeepsAbove.refl MoreSigners.refl
  commitVotes := KeepsAbove.refl MoreSigners.refl

/-- An accepted message only adds, but for what its checkpoint covers. -/
theorem PbftState.Stages.grows {state staged : PbftState} {msg : PbftMessage}
    {response : Response} (stages : PbftState.Stages state msg response staged)
    (newer : msg.phase = .checkpoint → state.lastStableCheckpoint < msg.seq)
    (chain : state.Chained) : Grows state staged := by
  have same := Grows.refl state
  cases stages with
  | prePrepare phase view leader unique fresh =>
      exact { same with highestSeq := le_max_left _ _ }
  | prepare _ phase view proposed certified answer =>
      exact
        { same with
          preparedCertificates :=
            VoteLedger.preparedGrown_recordPrepare chain proposed _ _
          prepareVotes :=
            KeepsAbove.insert MoreSigners.refl fun _ stored =>
              VoteMap.moreSigners_withVote stored _ _ }
  | commit _ cert phase view proposed held certView certSeq certDigest verified
      certified answer =>
      have found := chain.get?_of_mem_values held
      rw [certView, certSeq] at found
      have backed : state.ledger.prepared.get? (slotOf msg.proposalKey) =
          some cert := found
      rcases VoteLedger.commitGrown_recordCommit chain backed certDigest
          state.lastStableCheckpoint state.lastStableCheckpoint with
        ⟨commits, committed⟩
      exact
        { same with
          committedDigest := committed
          commitCertificates := commits
          commitVotes :=
            KeepsAbove.insert MoreSigners.refl fun _ stored =>
              VoteMap.moreSigners_withVote stored _ _ }
  | viewChangeVote phase later backed few => exact { same with }
  | viewChangeQuorum maxSeq digest selected phase later backed quorum slot
      selection found verified =>
      have raised : state.highestSeq ≤ raisedSeq state.highestSeq selected := by
        cases selected with
        | none => exact UInt64.le_refl _
        | some cert => exact le_max_left _ _
      exact
        { same with
          currentView := UInt64.le_of_lt later
          highestSeq := raised }
  | checkpointVote phase view few => exact { same with }
  | checkpointQuorum phase view quorum =>
      exact
        { same with
          lastStableCheckpoint := UInt64.le_of_lt (newer phase)
          committedDigest := KeepsAbove.retain (fun _ => rfl) (newer phase)
          preparedCertificates :=
            KeepsAbove.retain PreparedGrown.refl (newer phase)
          commitCertificates := KeepsAbove.retain CommitGrown.refl (newer phase)
          prepareVotes := KeepsAbove.retain MoreSigners.refl (newer phase)
          commitVotes := KeepsAbove.retain MoreSigners.refl (newer phase) }

/-- One call only adds, whatever it answers. -/
theorem PbftState.handleMessage_grows {state : PbftState} (chain : state.Chained)
    (msg : PbftMessage) (io : WalIo) :
    Grows state (state.handleMessage msg io).2 := by
  apply handleMessage_invariant (Grows state) ?_ ?_ (Grows.refl state)
  · intro after wal failed grows
    exact { grows with }
  · intro response staged stages _ newer
    exact stages.grows newer chain

/-! ## Committed digests over many calls -/

/-- If the call makes a checkpoint stable, it is one below the sequence. -/
def StabilizesBelow (seq : UInt64) (state : PbftState)
    (call : PbftMessage × WalIo) : Prop :=
  (state.handleMessage call.1 call.2).2.lastStableCheckpoint ≠
      state.lastStableCheckpoint →
    (state.handleMessage call.1 call.2).2.lastStableCheckpoint < seq

/-- The digest is committed in the slot. -/
def HoldsCommitted (slot : UInt64 × UInt64) (digest : Digest) (state : PbftState) :
    Prop :=
  state.Chained ∧ state.committedDigest.get? slot = some digest

/-- A committed digest stays until a checkpoint covers its slot. -/
theorem committedDigest_stays {state : PbftState} (chain : state.Chained)
    {slot : UInt64 × UInt64} {digest : Digest}
    (committed : state.committedDigest.get? slot = some digest)
    {calls : List (PbftMessage × WalIo)}
    (below : Along handleStep (StabilizesBelow slot.2) state calls) :
    (state.handleAll calls).committedDigest.get? slot = some digest := by
  have preserved : ∀ current call next, HoldsCommitted slot digest current →
      StabilizesBelow slot.2 current call →
        handleStep current call = some next → HoldsCommitted slot digest next := by
    intro current call next holds stable stepped
    rw [handleStep, Option.some.injEq] at stepped
    subst stepped
    refine ⟨PbftState.handleMessage_chained holds.1 call.1 call.2, ?_⟩
    have grows := PbftState.handleMessage_grows holds.1 call.1 call.2
    rcases grows.committedDigest slot digest holds.2 with
      ⟨later, found, same⟩ | ⟨_, risen, covered⟩
    · rw [found, same]
    · have moved := UInt64.ne_of_lt risen
      exact absurd covered (UInt64.not_le.mpr (stable moved.symm))
  exact (invariant_of_along preserved ⟨chain, committed⟩ below
    (run_handleStep state calls)).2

/-- The closure answers a completed commit quorum after storing its digest. -/
theorem PbftState.committed_of_onCommit {state : PbftState} {msg : PbftMessage}
    (answer : (state.onCommit msg).1 = .ok .committedOk) :
    (state.onCommit msg).2.committedDigest.get? (msg.view, msg.seq) =
      some msg.digest := by
  rw [onCommit] at answer ⊢
  split_ifs at answer ⊢
  dsimp only at answer ⊢
  split_ifs at answer ⊢
  · exact AssocMap.get?_insert_self _ _ _
  · simp at answer

theorem PbftState.Stages.commit_of_committedOk {state staged : PbftState}
    {msg : PbftMessage}
    (stages : PbftState.Stages state msg .committedOk staged) :
    msg.phase = .commit := by
  cases stages with
  | prepare _ _ _ _ _ answer => simp at answer
  | commit _ _ phase => exact phase

/-- The handler reports a commit only of the digest that it has stored. -/
theorem PbftState.committed_of_committedOk {state : PbftState}
    {msg : PbftMessage} {io : WalIo}
    (answer : (state.handleMessage msg io).1 = .ok .committedOk) :
    (state.handleMessage msg io).2.committedDigest.get? (msg.view, msg.seq) =
      some msg.digest := by
  have inner : ¬ IsShellAnswer (state.handleMessage msg io).1 := by
    simp [IsShellAnswer, answer]
  rcases stage_of_handleMessage inner with ⟨_, staged, accepted⟩
  rcases accepted .committedOk answer with ⟨wal, after⟩
  rw [answer] at staged
  have phase := (stage_ok (Prod.ext staged rfl)).commit_of_committedOk
  have commits : state.stage msg = state.onCommit msg := by simp [stage, phase]
  rw [commits] at staged after
  rw [after]
  exact committed_of_onCommit staged

/-- From any recovered state and after any calls, the state only grows, and a
digest that was reported as committed stays committed until a checkpoint at or
above its sequence stabilises. -/
theorem liveState_onlyGrows {totalNodes : Nat}
    {initialPublicKeys : AssocMap UInt32 G2Projective}
    {masterPublicKey : G2Projective} {wal : WriteAheadLog} {initial : PbftState}
    (started : newWithWalPath totalNodes initialPublicKeys masterPublicKey wal =
      .ok initial)
    (calls : List (PbftMessage × WalIo)) (msg : PbftMessage) (io : WalIo) :
    Grows (initial.handleAll calls)
        ((initial.handleAll calls).handleMessage msg io).2 ∧
      (((initial.handleAll calls).handleMessage msg io).1 = .ok .committedOk →
        ∀ later,
          Along handleStep (StabilizesBelow msg.seq)
              ((initial.handleAll calls).handleMessage msg io).2 later →
            (((initial.handleAll calls).handleMessage msg io).2.handleAll
              later).committedDigest.get? (msg.view, msg.seq) =
                some msg.digest) := by
  have chain : (initial.handleAll calls).Chained :=
    PbftState.handleAll_chained (chained_of_started started) calls
  refine ⟨PbftState.handleMessage_grows chain msg io, ?_⟩
  intro answer later below
  have chainAfter := PbftState.handleMessage_chained chain msg io
  exact committedDigest_stays chainAfter
    (PbftState.committed_of_committedOk answer) below

end Growth

section SmallRun

open SmallCluster

attribute [local instance] smallCurve

/-- A proposal, its prepares and two of its commits. -/
def oneCommitMissing : List (PbftMessage × WalIo) :=
  (signed .prePrepare 0 1 (digestOf 7) 0 ::
    [0, 1, 2].map (signed .prepare 0 1 (digestOf 7)) ++
    [0, 1].map (signed .commit 0 1 (digestOf 7))).map fun msg => (msg, .durable)

/-- The theorem at the call that completes a commit quorum. -/
theorem liveState_onlyGrows_atCommit :
    ((topology.fresh.handleAll oneCommitMissing).handleMessage
          (signed .commit 0 1 (digestOf 7) 2) .durable).1 = .ok .committedOk ∧
      Grows (topology.fresh.handleAll oneCommitMissing)
        ((topology.fresh.handleAll oneCommitMissing).handleMessage
          (signed .commit 0 1 (digestOf 7) 2) .durable).2 := by
  have answer : ((topology.fresh.handleAll oneCommitMissing).handleMessage
      (signed .commit 0 1 (digestOf 7) 2) .durable).1 = .ok .committedOk := by
    decide +kernel
  exact ⟨answer, (liveState_onlyGrows topology.fresh_started oneCommitMissing
    (signed .commit 0 1 (digestOf 7) 2) .durable).1⟩

end SmallRun

end SovereignLattice
