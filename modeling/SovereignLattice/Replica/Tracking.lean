import SovereignLattice.Pbft.Progress
import SovereignLattice.Replica.Justified

/-!
# Every reachable replica tracks its log

The step lemmas of the tracking invariant, one for each way in which an event
can change a replica, and the invariant of whole runs that follows.
-/

namespace SovereignLattice

variable [Curve]

namespace PbftState.Stages

variable {state staged : PbftState} {msg : PbftMessage} {response : Response}

theorem complete {quorumSize : Nat} (stages : Stages state msg response staged)
    (chain : state.Chained) (size : state.quorumSize = quorumSize)
    (complete : state.ledger.Complete quorumSize) :
    staged.ledger.Complete quorumSize := by
  subst size
  cases stages with
  | prePrepare => exact complete.propose _
  | prepare _ phase view proposed => exact complete.recordPrepare chain proposed _ _
  | commit _ cert phase view proposed =>
      exact complete.recordCommit chain proposed _ _
  | viewChangeVote => exact complete
  | viewChangeQuorum => exact complete
  | checkpointVote => exact complete.recordCheckpoint _ _ _
  | checkpointQuorum =>
      have kept := (complete.recordCheckpoint msg.proposalKey msg.senderId
        msg.signature).restrict fun seq => decide (seq > msg.seq)
      exact kept

theorem follows {keep : UInt64 → Bool} {log : List Record}
    (stages : Stages state msg response staged)
    (unstable : response ≠ .checkpointStabilized)
    (follows : state.ledger.Follows keep log) :
    staged.ledger.Follows keep (log ++ [msg.toRecord]) := by
  have samePhase : ∀ {phase : Phase}, msg.phase = phase →
      msg.toRecord.phase = phase.toU8 := congrArg Phase.toU8
  cases stages with
  | prePrepare phase => exact follows.propose (samePhase phase)
  | prepare _ phase => exact follows.recordPrepare (samePhase phase) _
  | commit _ cert phase => exact follows.recordCommit (samePhase phase) _
  | viewChangeVote phase => exact follows.viewChange (samePhase phase)
  | viewChangeQuorum _ _ _ phase => exact follows.viewChange (samePhase phase)
  | checkpointVote phase => exact follows.recordCheckpoint (samePhase phase)
  | checkpointQuorum => exact absurd rfl unstable

theorem stable {topology : Topology} {log : List Record}
    (stages : Stages state msg response staged)
    (unstable : response ≠ .checkpointStabilized)
    (newer : msg.phase = .checkpoint → state.lastStableCheckpoint < msg.seq)
    (size : state.quorumSize = topology.quorumSize)
    (follows : state.ledger.Follows (survives state.lastStableCheckpoint) log)
    (highest : topology.HighestStable log state.lastStableCheckpoint) :
    topology.HighestStable (log ++ [msg.toRecord])
      staged.lastStableCheckpoint := by
  rw [stages.lastStableCheckpoint_eq unstable]
  by_cases phase : msg.phase = .checkpoint
  · have samePhase : msg.toRecord.phase = Phase.checkpoint.toU8 :=
      congrArg Phase.toU8 phase
    have kept := survives_of_lt (newer phase)
    have counted := len_withVote samePhase
      (follows.checkpointVotes msg.toRecord.proposalKey kept)
    apply highest.vote
    intro quorum
    rw [Topology.CheckpointQuorumIn] at quorum
    rw [← counted] at quorum
    cases stages with
    | checkpointVote _ view few =>
        rw [size] at few
        exact absurd quorum (Nat.not_le.mpr few)
    | checkpointQuorum => exact unstable rfl
    | prePrepare other => rw [other] at phase; cases phase
    | prepare _ other => rw [other] at phase; cases phase
    | commit _ _ other => rw [other] at phase; cases phase
    | viewChangeVote other => rw [other] at phase; cases phase
    | viewChangeQuorum _ _ _ other => rw [other] at phase; cases phase
  · exact highest.other rfl phase

theorem proposals_logged {log : List Record}
    (stages : Stages state msg response staged)
    (logged : state.prePreparedProposals ⊆ proposalsIn log) :
    staged.prePreparedProposals ⊆ proposalsIn (log ++ [msg.toRecord]) := by
  have older : state.prePreparedProposals ⊆
      proposalsIn (log ++ [msg.toRecord]) :=
    logged.trans (proposalsIn_subset_concat log msg.toRecord)
  cases stages with
  | prePrepare phase =>
      have here : msg.proposalKey ∈ proposalsIn (log ++ [msg.toRecord]) :=
        (mem_proposalsIn_concat log msg.toRecord).mpr
          (Or.inr ⟨congrArg Phase.toU8 phase, rfl⟩)
      exact Finset.insert_subset here older
  | checkpointQuorum =>
      intro key member
      exact older (Finset.mem_filter.mp member).1
  | _ => exact older

theorem prepares_logged {log : List Record}
    (stages : Stages state msg response staged)
    (logged : ∀ key sigs, state.prepareVotes.get? key = some sigs →
      sigs.keySet ⊆ signersIn .prepare log key) :
    ∀ key sigs, staged.prepareVotes.get? key = some sigs →
      sigs.keySet ⊆ signersIn .prepare (log ++ [msg.toRecord]) key := by
  have older : ∀ key sigs, state.prepareVotes.get? key = some sigs →
      sigs.keySet ⊆ signersIn .prepare (log ++ [msg.toRecord]) key :=
    fun key sigs stored =>
      (logged key sigs stored).trans (signersIn_subset_concat _ key)
  cases stages with
  | prepare _ phase =>
      intro key sigs stored
      have inserted :
          (state.prepareVotes.insert msg.proposalKey
            (state.prepareVotes.withVote msg.proposalKey msg.senderId
              msg.signature)).get? key = some sigs := stored
      rw [AssocMap.get?_insert] at inserted
      split at inserted
      · rename_i here
        subst here
        rw [Option.some.injEq] at inserted
        subst inserted
        intro sender member
        rw [VoteMap.withVote, AssocMap.keySet_insert, Finset.mem_insert]
          at member
        apply mem_signersIn_concat.mpr
        rcases member with rfl | member
        · exact Or.inr ⟨congrArg Phase.toU8 phase, rfl, rfl⟩
        · left
          cases before : state.prepareVotes.get? msg.proposalKey with
          | none => simp [AssocMap.getD, before] at member
          | some earlier =>
              rw [AssocMap.getD_of_get? ∅ before] at member
              exact logged _ earlier before member
      · exact older key sigs inserted
  | checkpointQuorum =>
      intro key sigs stored
      exact older key sigs (AssocMap.get?_of_retain stored).2
  | _ => exact older

end PbftState.Stages

/-! ## The step lemmas -/

namespace Tracks

variable {topology : Topology} {state next : PbftState}
variable {log nextLog : List Record}

theorem quorumSize_eq (tracks : Tracks topology state log) :
    state.quorumSize = topology.quorumSize :=
  congrArg Topology.quorumSize tracks.sameTopology

/-- What an accepted message keeps of the ledger, whatever it is. -/
theorem chain_and_complete (tracks : Tracks topology state log)
    {msg : PbftMessage} {response : Response} {staged : PbftState}
    (authenticated : state.Authenticated msg)
    (stages : PbftState.Stages state msg response staged) :
    CertificateChain topology staged.ledger ∧
      staged.ledger.Complete topology.quorumSize := by
  have chained : state.Chained := by
    rw [PbftState.Chained]
    rw [tracks.sameTopology]
    exact tracks.chain
  have chain := stages.chained authenticated chained
  rw [PbftState.Chained] at chain
  rw [stages.sameTopology, tracks.sameTopology] at chain
  exact ⟨chain, stages.complete chained tracks.quorumSize_eq tracks.complete⟩

theorem accepted (tracks : Tracks topology state log) {msg : PbftMessage}
    {response : Response} {staged : PbftState}
    (authenticated : state.Authenticated msg)
    (newer : msg.phase = .checkpoint → state.lastStableCheckpoint < msg.seq)
    (stages : PbftState.Stages state msg response staged)
    (unstable : response ≠ .checkpointStabilized) :
    Tracks topology
      { staged with wal := ⟨encodeLog (log ++ [msg.toRecord])⟩ }
      (log ++ [msg.toRecord]) := by
  rcases tracks.chain_and_complete authenticated stages with
    ⟨chain, complete⟩
  have follows := stages.follows unstable tracks.follows
  rw [← stages.lastStableCheckpoint_eq unstable] at follows
  exact
    { sameTopology := stages.sameTopology.trans tracks.sameTopology
      file := rfl
      chain := chain
      complete := complete
      follows := follows
      stable := stages.stable unstable newer tracks.quorumSize_eq tracks.follows
        tracks.stable
      wellFormed :=
        .concat tracks.wellFormed (tracks.justified authenticated stages)
      proposals_logged := stages.proposals_logged tracks.proposals_logged
      prepares_logged := stages.prepares_logged tracks.prepares_logged
      proposal_views := stages.proposal_views tracks.proposal_views }

theorem stabilized (tracks : Tracks topology state log) {msg : PbftMessage}
    {staged : PbftState} (authenticated : state.Authenticated msg)
    (newer : state.lastStableCheckpoint < msg.seq)
    (stages : PbftState.Stages state msg .checkpointStabilized staged) :
    Tracks topology
      { staged with
        wal := ⟨encodeLog (compact msg.seq (log ++ [msg.toRecord]))⟩ }
      (compact msg.seq (log ++ [msg.toRecord])) := by
  rcases tracks.chain_and_complete authenticated stages with
    ⟨chain, complete⟩
  have same : staged.toTopology = topology :=
    stages.sameTopology.trans tracks.sameTopology
  have logged := stages.proposals_logged tracks.proposals_logged
  have prepares := stages.prepares_logged tracks.prepares_logged
  have views := stages.proposal_views tracks.proposal_views
  have justified := tracks.justified authenticated stages
  obtain ⟨phase, view, quorum, rfl⟩ := stages.stabilized_inv
  have samePhase : msg.toRecord.phase = Phase.checkpoint.toU8 :=
    congrArg Phase.toU8 phase
  have positive : 0 < msg.seq := UInt64.lt_of_le_of_lt UInt64.zero_le newer
  have survivors : ∀ seq, survives msg.seq seq = true →
      survives state.lastStableCheckpoint seq = true ∧
        decide (seq > msg.seq) = true ∧ msg.seq ≤ seq := by
    intro seq survived
    rw [survives] at survived
    rw [if_pos positive, decide_eq_true_eq] at survived
    exact ⟨survives_of_lt (UInt64.lt_trans newer survived),
      decide_eq_true survived, UInt64.le_of_lt survived⟩
  have follows :=
    (tracks.follows.recordCheckpoint samePhase).restrict survivors
  have kept := survives_of_lt newer
  have highest :
      topology.HighestStable (log ++ [msg.toRecord]) msg.seq := by
    have counted := len_withVote samePhase
      (tracks.follows.checkpointVotes msg.toRecord.proposalKey kept)
    rw [tracks.quorumSize_eq] at quorum
    have raised := tracks.stable.quorum (quorum.trans counted.le)
    have here : msg.toRecord.seq > state.lastStableCheckpoint := newer
    rwa [if_pos here] at raised
  exact
    { sameTopology := same
      file := rfl
      chain := chain
      complete := complete
      follows := follows
      stable := highest.compact
      wellFormed := (tracks.wellFormed.concat justified).compact msg.seq
      proposals_logged := by
        intro key member
        have above := of_decide_eq_true (Finset.mem_filter.mp member).2
        exact mem_proposalsIn_compact.mpr
          ⟨logged member, UInt64.le_of_lt above⟩
      prepares_logged := by
        intro key sigs stored
        have above := of_decide_eq_true (AssocMap.get?_of_retain stored).1
        rw [signersIn_compact (UInt64.le_of_lt above)]
        exact prepares key sigs stored
      proposal_views := views }

theorem delivered (tracks : Tracks topology state log) {msg : PbftMessage}
    {answer : Except PbftError Response}
    (delivered : Delivered state log msg answer next nextLog) :
    Tracks topology next nextLog := by
  cases delivered with
  | rejected error => exact tracks
  | obsolete => exact tracks
  | accepted response staged authenticated newer stages unstable =>
      exact tracks.accepted authenticated newer stages unstable
  | stabilized staged authenticated newer stages =>
      exact tracks.stabilized authenticated newer stages

end Tracks

/-- A recovered replica tracks the log that it was recovered from. -/
theorem Topology.Reflects.tracks {topology : Topology} {log : List Record}
    {recovered : Recovered} (reflects : topology.Reflects log recovered)
    (wellFormed : topology.WellFormed log) :
    Tracks topology (topology.recoveredState recovered ⟨encodeLog log⟩) log where
  sameTopology := rfl
  file := rfl
  chain := reflects.chain.restrict _
  complete := reflects.complete.restrict _
  follows := reflects.follows.restrict_same _
  stable := reflects.stable
  wellFormed := wellFormed
  proposals_logged key member :=
    (reflects.follows.proposals key rfl).mp (Finset.mem_filter.mp member).1
  prepares_logged key sigs stored := by
    have votes := (AssocMap.get?_of_retain stored).2
    have same := reflects.follows.prepareVotes key rfl
    rw [signersIn, ← same]
    have unfolded : recovered.ledger.prepareVotes.get? key = some sigs := votes
    rw [unfolded, Option.getD_some]
  proposal_views key member := by
    have logged := (reflects.follows.proposals key rfl).mp
      (Finset.mem_filter.mp member).1
    rcases (mem_proposalsIn log).mp logged with ⟨record, stored, phase, rfl⟩
    have ordinary : record.phase ≤ Phase.commit.toU8 := by
      rw [phase]
      decide
    exact reflects.view.bound _ (.ordinary record stored ordinary rfl)

/-- Restarting a tracking replica, when recovery accepts its log. -/
theorem Tracks.restarted {topology : Topology} {state next : PbftState}
    {log : List Record} (tracks : Tracks topology state log)
    (ok : topology.recover state.wal = .ok next) :
    topology.Reflects log (topology.replayAll log) ∧
      next = topology.recoveredState (topology.replayAll log)
        ⟨encodeLog log⟩ ∧
      Tracks topology next log := by
  rw [tracks.file] at ok
  rcases Topology.recover_encodeLog.mp ok with ⟨clean, rfl⟩
  have reflects := Topology.reflects_of_clean clean
  exact ⟨reflects, rfl, reflects.tracks tracks.wellFormed⟩

/-- A replica started on an empty log tracks it. -/
theorem tracks_fresh (topology : Topology) :
    Tracks topology topology.fresh [] :=
  (Topology.Reflects.initially topology).tracks .nil

theorem Tracks.step {topology : Topology} {state next : PbftState}
    {log : List Record} (tracks : Tracks topology state log)
    {event : ReplicaEvent} (stepped : replicaStep state event = some next) :
    ∃ nextLog, Tracks topology next nextLog := by
  cases event with
  | deliver msg =>
      have file : state.wal.file = encodeLog log := by rw [tracks.file]
      rcases handleMessage_delivered file msg with ⟨nextLog, delivered⟩
      rw [replicaStep, Option.some.injEq] at stepped
      rw [stepped] at delivered
      exact ⟨nextLog, tracks.delivered delivered⟩
  | restart =>
      rw [replicaStep_restart, tracks.sameTopology] at stepped
      exact ⟨log, (tracks.restarted stepped).2.2⟩

/-- Every replica that a run reaches tracks its log. -/
theorem tracks_of_run {topology : Topology} {final : PbftState}
    {events : List ReplicaEvent}
    (reached : run replicaStep topology.fresh events = some final) :
    ∃ log, Tracks topology final log := by
  have preserved : ∀ state event next, (∃ log, Tracks topology state log) →
      replicaStep state event = some next →
        ∃ log, Tracks topology next log := by
    rintro state event next ⟨log, tracks⟩ stepped
    exact tracks.step stepped
  exact invariant_of_run preserved ⟨[], tracks_fresh topology⟩ reached

/-- A restart at the end of a run is recovery with the original arguments. -/
theorem replicaStep_restart_of_run {topology : Topology} {final : PbftState}
    {events : List ReplicaEvent}
    (reached : run replicaStep topology.fresh events = some final)
    {recovered : PbftState} :
    newWithWalPath topology.totalNodes topology.publicKeys
        topology.masterPublicKey final.wal = .ok recovered ↔
      replicaStep final .restart = some recovered := by
  rcases tracks_of_run reached with ⟨log, tracks⟩
  obtain rfl := tracks.sameTopology
  rw [replicaStep_restart, newWithWalPath_self]

end SovereignLattice
