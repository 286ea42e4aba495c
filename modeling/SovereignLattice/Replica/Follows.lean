import SovereignLattice.Replica.LogView

/-!
# Ledgers that follow a log

A ledger follows a log on the sequences of a test when it holds exactly the
proposals and votes that the log has for them.  Each operation of the ledger
follows one more record, and pruning follows compaction.
-/

namespace SovereignLattice

variable [Curve]

structure VoteLedger.Follows (keep : UInt64 → Bool) (ledger : VoteLedger)
    (log : List Record) : Prop where
  proposals : ∀ key, keep key.2.1 = true →
    (key ∈ ledger.proposals ↔ key ∈ proposalsIn log)
  prepareVotes : ∀ key, keep key.2.1 = true →
    ledger.prepareVotes.get? key = votesIn .prepare log key
  commitVotes : ∀ key, keep key.2.1 = true →
    ledger.commitVotes.get? key = votesIn .commit log key
  checkpointVotes : ∀ key, keep key.2.1 = true →
    ledger.checkpointVotes.get? key = votesIn .checkpoint log key

namespace VoteLedger.Follows

variable {keep : UInt64 → Bool} {ledger : VoteLedger} {log : List Record}
variable {record : Record}

theorem initially (keep : UInt64 → Bool) :
    VoteLedger.Follows keep VoteLedger.empty [] := by
  constructor <;> intros <;> rfl

private theorem votes_other {votes : VoteMap} {phase other : Phase}
    (samePhase : record.phase = other.toU8) (different : other ≠ phase)
    (before : ∀ key, keep key.2.1 = true →
      votes.get? key = votesIn phase log key) :
    ∀ key, keep key.2.1 = true →
      votes.get? key = votesIn phase (log ++ [record]) key := by
  intro key kept
  rw [votesIn_concat_of_phase_ne samePhase different]
  exact before key kept

private theorem proposals_other {proposals : Finset ProposalKey} {other : Phase}
    (samePhase : record.phase = other.toU8) (different : other ≠ .prePrepare)
    (before : ∀ key, keep key.2.1 = true →
      (key ∈ proposals ↔ key ∈ proposalsIn log)) :
    ∀ key, keep key.2.1 = true →
      (key ∈ proposals ↔ key ∈ proposalsIn (log ++ [record])) := by
  intro key kept
  rw [mem_proposalsIn_concat_of_phase_ne samePhase different]
  exact before key kept

/-- A view-change record leaves every ledger as it was. -/
theorem viewChange (follows : VoteLedger.Follows keep ledger log)
    (phase : record.phase = Phase.viewChange.toU8) :
    VoteLedger.Follows keep ledger (log ++ [record]) where
  proposals := proposals_other phase (by decide) follows.proposals
  prepareVotes := votes_other phase (by decide) follows.prepareVotes
  commitVotes := votes_other phase (by decide) follows.commitVotes
  checkpointVotes := votes_other phase (by decide) follows.checkpointVotes

theorem propose (follows : VoteLedger.Follows keep ledger log)
    (phase : record.phase = Phase.prePrepare.toU8) :
    VoteLedger.Follows keep (ledger.propose record.proposalKey)
      (log ++ [record]) where
  proposals key kept := by
    rw [mem_proposalsIn_concat, VoteLedger.propose, Finset.mem_insert,
      follows.proposals key kept]
    constructor
    · intro either
      rcases either with rfl | member
      · exact Or.inr ⟨phase, rfl⟩
      · exact Or.inl member
    · intro either
      rcases either with member | ⟨_, rfl⟩
      · exact Or.inr member
      · exact Or.inl rfl
  prepareVotes := votes_other phase (by decide) follows.prepareVotes
  commitVotes := votes_other phase (by decide) follows.commitVotes
  checkpointVotes := votes_other phase (by decide) follows.checkpointVotes

theorem recordPrepare (follows : VoteLedger.Follows keep ledger log)
    (phase : record.phase = Phase.prepare.toU8) (quorumSize : Nat) :
    VoteLedger.Follows keep
      (ledger.recordPrepare quorumSize record.proposalKey record.senderId
        record.signature)
      (log ++ [record]) where
  proposals := proposals_other phase (by decide) follows.proposals
  prepareVotes key kept :=
    insert_withVote_follows phase (follows.prepareVotes key kept)
  commitVotes := votes_other phase (by decide) follows.commitVotes
  checkpointVotes := votes_other phase (by decide) follows.checkpointVotes

theorem recordCommit (follows : VoteLedger.Follows keep ledger log)
    (phase : record.phase = Phase.commit.toU8) (quorumSize : Nat) :
    VoteLedger.Follows keep
      (ledger.recordCommit quorumSize record.proposalKey record.senderId
        record.signature)
      (log ++ [record]) where
  proposals := proposals_other phase (by decide) follows.proposals
  prepareVotes := votes_other phase (by decide) follows.prepareVotes
  commitVotes key kept :=
    insert_withVote_follows phase (follows.commitVotes key kept)
  checkpointVotes := votes_other phase (by decide) follows.checkpointVotes

theorem recordCheckpoint (follows : VoteLedger.Follows keep ledger log)
    (phase : record.phase = Phase.checkpoint.toU8) :
    VoteLedger.Follows keep
      (ledger.recordCheckpoint record.proposalKey record.senderId
        record.signature)
      (log ++ [record]) where
  proposals := proposals_other phase (by decide) follows.proposals
  prepareVotes := votes_other phase (by decide) follows.prepareVotes
  commitVotes := votes_other phase (by decide) follows.commitVotes
  checkpointVotes key kept :=
    insert_withVote_follows phase (follows.checkpointVotes key kept)

/-- Pruning the ledger follows compaction of the log, on the sequences that
survive both. -/
theorem restrict (follows : VoteLedger.Follows keep ledger log)
    {kept test : UInt64 → Bool} {minSeq : UInt64}
    (survivors : ∀ seq, kept seq = true →
      keep seq = true ∧ test seq = true ∧ minSeq ≤ seq) :
    VoteLedger.Follows kept (ledger.restrict test) (compact minSeq log) where
  proposals key survives := by
    rcases survivors _ survives with ⟨before, passes, above⟩
    rw [VoteLedger.restrict, Finset.mem_filter, mem_proposalsIn_compact,
      follows.proposals key before]
    exact and_congr_right fun _ => ⟨fun _ => above, fun _ => passes⟩
  prepareVotes key survives := by
    rcases survivors _ survives with ⟨before, passes, above⟩
    simp only [VoteLedger.restrict, AssocMap.get?_retain, passes, if_true]
    rw [votesIn_compact above, follows.prepareVotes key before]
  commitVotes key survives := by
    rcases survivors _ survives with ⟨before, passes, above⟩
    simp only [VoteLedger.restrict, AssocMap.get?_retain, passes, if_true]
    rw [votesIn_compact above, follows.commitVotes key before]
  checkpointVotes key survives := by
    rcases survivors _ survives with ⟨before, passes, above⟩
    simp only [VoteLedger.restrict, AssocMap.get?_retain, passes, if_true]
    rw [votesIn_compact above, follows.checkpointVotes key before]

/-- Pruning alone, with the log as it is. -/
theorem restrict_same (follows : VoteLedger.Follows (fun _ => true) ledger log)
    (test : UInt64 → Bool) :
    VoteLedger.Follows test (ledger.restrict test) log where
  proposals key passes := by
    rw [VoteLedger.restrict, Finset.mem_filter, follows.proposals key rfl]
    exact and_iff_left passes
  prepareVotes key passes := by
    simp only [VoteLedger.restrict, AssocMap.get?_retain, passes, if_true]
    exact follows.prepareVotes key rfl
  commitVotes key passes := by
    simp only [VoteLedger.restrict, AssocMap.get?_retain, passes, if_true]
    exact follows.commitVotes key rfl
  checkpointVotes key passes := by
    simp only [VoteLedger.restrict, AssocMap.get?_retain, passes, if_true]
    exact follows.checkpointVotes key rfl

end VoteLedger.Follows

/-- The vote that is about to be stored counts the log's signers after it. -/
theorem len_withVote {votes : VoteMap} {log : List Record} {record : Record}
    {phase : Phase} (samePhase : record.phase = phase.toU8)
    (follows : votes.get? record.proposalKey =
      votesIn phase log record.proposalKey) :
    (votes.withVote record.proposalKey record.senderId record.signature).len =
      (signersIn phase (log ++ [record]) record.proposalKey).card := by
  have after := insert_withVote_follows samePhase follows
  rw [AssocMap.get?_insert_self] at after
  exact (card_signersIn after.symm).symm

end SovereignLattice
