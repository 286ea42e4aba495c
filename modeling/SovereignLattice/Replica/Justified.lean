import SovereignLattice.Replica.Machine

/-!
# Logs that a live handler writes

Each record of such a log is authenticated and rests on earlier records of the
log: a prepare vote on the proposal, a commit vote on a prepare quorum, a
view-change vote on a prepare quorum of an earlier view.  All of that evidence
has the record's own sequence, so compaction keeps it together.
-/

namespace SovereignLattice

variable [Curve]

namespace Topology

/-- What the earlier records must hold for a record of a phase. -/
def Supported (topology : Topology) (log : List Record) (record : Record) :
    Phase → Prop
  | .prePrepare => record.senderId = topology.getExpectedLeader record.view
  | .prepare => record.proposalKey ∈ proposalsIn log
  | .commit =>
      record.proposalKey ∈ proposalsIn log ∧
        topology.quorumSize ≤ (signersIn .prepare log record.proposalKey).card
  | .viewChange =>
      0 < record.seq → ∃ view < record.view,
        topology.quorumSize ≤
          (signersIn .prepare log (view, record.seq, record.digest)).card
  | .checkpoint => True

/-- A record that the live handler may append to the log. -/
def Justified (topology : Topology) (log : List Record) (record : Record) :
    Prop :=
  ∃ phase : Phase, record.phase = phase.toU8 ∧
    topology.Verifies phase record.proposalKey record.senderId
      record.signature ∧
    topology.Supported log record phase

inductive WellFormed (topology : Topology) : List Record → Prop
  | nil : WellFormed topology []
  | concat {log : List Record} {record : Record}
      (before : WellFormed topology log)
      (justified : topology.Justified log record) :
      WellFormed topology (log ++ [record])

variable {topology : Topology} {log : List Record} {record : Record}

theorem Justified.compact {minSeq : UInt64}
    (justified : topology.Justified log record) (kept : minSeq ≤ record.seq) :
    topology.Justified (compact minSeq log) record := by
  obtain ⟨phase, samePhase, verifies, supported⟩ := justified
  refine ⟨phase, samePhase, verifies, ?_⟩
  cases phase with
  | prePrepare => exact supported
  | prepare => exact mem_proposalsIn_compact.mpr ⟨supported, kept⟩
  | commit =>
      obtain ⟨proposed, quorum⟩ := supported
      refine ⟨mem_proposalsIn_compact.mpr ⟨proposed, kept⟩, ?_⟩
      rw [signersIn_compact kept]
      exact quorum
  | viewChange =>
      intro positive
      rcases supported positive with ⟨view, earlier, quorum⟩
      refine ⟨view, earlier, ?_⟩
      rw [signersIn_compact kept]
      exact quorum
  | checkpoint => trivial

/-- Compaction keeps a log well formed. -/
theorem WellFormed.compact (wellFormed : topology.WellFormed log)
    (minSeq : UInt64) : topology.WellFormed (compact minSeq log) := by
  induction wellFormed with
  | nil => exact .nil
  | concat before justified inductionHypothesis =>
      rw [compact_concat]
      split
      · rename_i kept
        exact .concat inductionHypothesis (justified.compact kept)
      · exact inductionHypothesis

end Topology

/-! ## The invariant of a running replica -/

/-- The state of a replica agrees with the log that it has written: exactly on
the sequences that survive its stable checkpoint, and with the log holding at
least as much on the others. -/
structure Tracks (topology : Topology) (state : PbftState) (log : List Record) :
    Prop where
  sameTopology : state.toTopology = topology
  file : state.wal = ⟨encodeLog log⟩
  chain : CertificateChain topology state.ledger
  complete : state.ledger.Complete topology.quorumSize
  follows : state.ledger.Follows (survives state.lastStableCheckpoint) log
  stable : topology.HighestStable log state.lastStableCheckpoint
  wellFormed : topology.WellFormed log
  proposals_logged : state.prePreparedProposals ⊆ proposalsIn log
  prepares_logged : ∀ key sigs, state.prepareVotes.get? key = some sigs →
    sigs.keySet ⊆ signersIn .prepare log key
  proposal_views : ∀ key ∈ state.prePreparedProposals,
    key.1 ≤ state.currentView

namespace Tracks

variable {topology : Topology} {state : PbftState} {log : List Record}

/-- A prepared certificate rests on a logged quorum of an entered view. -/
theorem prepared_logged (tracks : Tracks topology state log)
    {cert : PreparedCertificate}
    (held : cert ∈ state.preparedCertificates.values) :
    cert.view ≤ state.currentView ∧
      topology.quorumSize ≤
        (signersIn .prepare log (cert.view, cert.seq, cert.digest)).card := by
  have stored := tracks.chain.get?_of_mem_values held
  rcases tracks.chain.prepared_chain _ _ cert stored with
    ⟨_, _, proposed, votes, quorum, _⟩
  refine ⟨tracks.proposal_views _ proposed, quorum.trans ?_⟩
  rw [← AssocMap.card_keySet]
  exact Finset.card_le_card (tracks.prepares_logged _ _ votes)

/-- The record of an accepted message is justified by the log. -/
theorem justified (tracks : Tracks topology state log) {msg : PbftMessage}
    {response : Response} {staged : PbftState}
    (authenticated : state.Authenticated msg)
    (stages : PbftState.Stages state msg response staged) :
    topology.Justified log msg.toRecord := by
  rw [PbftState.Authenticated] at authenticated
  rw [tracks.sameTopology] at authenticated
  refine ⟨msg.phase, rfl, authenticated, ?_⟩
  cases stages with
  | prePrepare phase view leader unique fresh =>
      rw [phase]
      rw [tracks.sameTopology] at leader
      exact leader
  | prepare _ phase view proposed certified answer =>
      rw [phase]
      exact tracks.proposals_logged proposed
  | commit _ cert phase view proposed held certView certSeq certDigest verified
      certified answer =>
      rw [phase]
      rcases tracks.prepared_logged held with ⟨_, quorum⟩
      rw [certView, certSeq, certDigest] at quorum
      exact ⟨tracks.proposals_logged proposed, quorum⟩
  | viewChangeVote phase later backed few =>
      rw [phase]
      intro positive
      rcases backed positive with ⟨cert, held, certSeq, certDigest, _⟩
      rcases tracks.prepared_logged held with ⟨entered, quorum⟩
      rw [certSeq, certDigest] at quorum
      exact ⟨cert.view, UInt64.lt_of_le_of_lt entered later, quorum⟩
  | viewChangeQuorum maxSeq digest selected phase later backed quorum slot
      selection found verified =>
      rw [phase]
      intro positive
      rcases backed positive with ⟨cert, held, certSeq, certDigest, _⟩
      rcases tracks.prepared_logged held with ⟨entered, quorum⟩
      rw [certSeq, certDigest] at quorum
      exact ⟨cert.view, UInt64.lt_of_le_of_lt entered later, quorum⟩
  | checkpointVote phase => rw [phase]; trivial
  | checkpointQuorum phase => rw [phase]; trivial

end Tracks
end SovereignLattice
