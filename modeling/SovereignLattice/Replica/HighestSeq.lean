import SovereignLattice.Replica.SmallCluster
import SovereignLattice.Replica.Tracking

/-!
# The highest sequence across restarts

Replay takes the highest sequence of all records; the live handler raises its
counter for proposals and for the certificate of a new view.  Votes are for
proposals that the counter has seen, so the two agree up to checkpoint votes.
-/

namespace SovereignLattice

section HighestSeq

variable [Curve]

/-- The highest sequence among the records, or zero. -/
structure HighestSeqIn (log : List Record) (highest : UInt64) : Prop where
  bound : ∀ record ∈ log, record.seq ≤ highest
  attained : highest = 0 ∨ ∃ record ∈ log, record.seq = highest

namespace HighestSeqIn

variable {log : List Record} {record : Record} {highest : UInt64}

theorem initially : HighestSeqIn [] 0 where
  bound _ member := by cases member
  attained := Or.inl rfl

theorem unique {other : UInt64} (first : HighestSeqIn log highest)
    (second : HighestSeqIn log other) : highest = other := by
  have below : ∀ {left right : UInt64}, HighestSeqIn log left →
      HighestSeqIn log right → left ≤ right := by
    intro left right leftHighest rightHighest
    rcases leftHighest.attained with rfl | ⟨record, member, rfl⟩
    · exact UInt64.zero_le
    · exact rightHighest.bound record member
  exact UInt64.le_antisymm (below first second) (below second first)

/-- A record that the bound covers. -/
theorem concat (highestIn : HighestSeqIn log highest)
    (below : record.seq ≤ highest) : HighestSeqIn (log ++ [record]) highest where
  bound stored member := by
    rcases List.mem_append.mp member with before | here
    · exact highestIn.bound stored before
    · rw [List.mem_singleton.mp here]
      exact below
  attained := by
    rcases highestIn.attained with zero | ⟨stored, member, same⟩
    · exact Or.inl zero
    · exact Or.inr ⟨stored, List.mem_append_left _ member, same⟩

/-- A record that raises the bound. -/
theorem raise (highestIn : HighestSeqIn log highest)
    (above : highest < record.seq) :
    HighestSeqIn (log ++ [record]) record.seq where
  bound stored member := by
    rcases List.mem_append.mp member with before | here
    · exact UInt64.le_of_lt
        (UInt64.lt_of_le_of_lt (highestIn.bound stored before) above)
    · rw [List.mem_singleton.mp here]
      exact UInt64.le_refl _
  attained := Or.inr ⟨record, by simp, rfl⟩

theorem max (highestIn : HighestSeqIn log highest) (record : Record) :
    HighestSeqIn (log ++ [record]) (max highest record.seq) := by
  by_cases above : highest < record.seq
  · rw [max_eq_right_of_lt above]
    exact highestIn.raise above
  · have below : record.seq ≤ highest := UInt64.not_lt.mp above
    rw [max_eq_left_of_le below]
    exact highestIn.concat below

/-- Compaction at or below the highest sequence keeps it. -/
theorem compact {minSeq : UInt64} (highestIn : HighestSeqIn log highest)
    (below : minSeq ≤ highest) : HighestSeqIn (compact minSeq log) highest where
  bound stored member := highestIn.bound stored (List.mem_filter.mp member).1
  attained := by
    rcases highestIn.attained with zero | ⟨stored, member, rfl⟩
    · exact Or.inl zero
    · exact Or.inr
        ⟨stored, List.mem_filter.mpr ⟨member, decide_eq_true below⟩, rfl⟩

end HighestSeqIn

/-! ## Replay -/

namespace Topology

theorem observe_seq (recovered : Recovered) (record : Record) :
    (observe recovered record).recoveredSeq =
      if record.seq > recovered.recoveredSeq then record.seq
      else recovered.recoveredSeq := by
  unfold observe
  dsimp only
  split_ifs <;> rfl

/-- No transition of replay moves the observed sequence. -/
theorem Replays.recoveredSeq_eq {topology : Topology}
    {recovered next : Recovered} {record : Record}
    (replays : Replays topology recovered record next) :
    next.recoveredSeq = (observe recovered record).recoveredSeq := by
  cases replays <;> rfl

/-- The observed sequence is the highest of the records. -/
def ReplayHighest (log : List Record) (recovered : Recovered) : Prop :=
  HighestSeqIn log recovered.recoveredSeq

theorem highestSeqIn_of_clean {topology : Topology} {log : List Record}
    (clean : (topology.replayAll log).recoveryError = false) :
    HighestSeqIn log (topology.replayAll log).recoveredSeq := by
  have preserved : ∀ log recovered record next, ReplayHighest log recovered →
      Replays topology recovered record next →
        ReplayHighest (log ++ [record]) next := by
    intro log recovered record next highestIn replays
    rw [ReplayHighest, replays.recoveredSeq_eq, observe_seq]
    split
    · rename_i above
      exact highestIn.raise above
    · rename_i notAbove
      exact highestIn.concat (UInt64.not_lt.mp notAbove)
  have initially : ReplayHighest [] Recovered.initial := HighestSeqIn.initially
  exact replayAll_invariant initially preserved clean

end Topology

/-! ## The live handler -/

/-- An accepted checkpoint vote is for a sequence that the counter has reached. -/
def CheckpointsObserved (state : PbftState) (event : ReplicaEvent) : Prop :=
  ∀ msg, event = .deliver msg → msg.phase = .checkpoint →
    state.Authenticated msg → msg.view = state.currentView →
      state.lastStableCheckpoint < msg.seq → msg.seq ≤ state.highestSeq

section Steps

variable {topology : Topology} {state next : PbftState} {log : List Record}
variable {msg : PbftMessage}

theorem HighestSeqIn.proposal_le (highestIn : HighestSeqIn log state.highestSeq)
    (tracks : Tracks topology state log) {key : ProposalKey}
    (proposed : key ∈ state.prePreparedProposals) :
    key.2.1 ≤ state.highestSeq := by
  rcases (mem_proposalsIn log).mp (tracks.proposals_logged proposed) with
    ⟨record, member, _, rfl⟩
  exact highestIn.bound record member

theorem HighestSeqIn.prepared_le (highestIn : HighestSeqIn log state.highestSeq)
    (tracks : Tracks topology state log) {cert : PreparedCertificate}
    (held : cert ∈ state.preparedCertificates.values) :
    cert.seq ≤ state.highestSeq := by
  have stored := tracks.chain.get?_of_mem_values held
  rcases tracks.chain.prepared_chain _ _ cert stored with ⟨_, _, proposed, _⟩
  exact highestIn.proposal_le tracks proposed

/-- The selected certificate of a new view raises nothing. -/
theorem HighestSeqIn.raisedSeq_eq (highestIn : HighestSeqIn log state.highestSeq)
    (tracks : Tracks topology state log) {maxSeq : UInt64} {digest : Digest}
    {selected : Option PreparedCertificate}
    (selection : selected =
      boundCertificate state.preparedCertificates.values msg.view maxSeq digest
        state.quorumSize state.masterPublicKey) :
    PbftState.raisedSeq state.highestSeq selected = state.highestSeq := by
  cases selected with
  | none => rfl
  | some cert =>
      have held : cert ∈ state.preparedCertificates.values := by
        rw [boundCertificate] at selection
        split at selection
        · exact (select_mem selection.symm).1
        · cases selection
      exact max_eq_left_of_le (highestIn.prepared_le tracks held)

/-- The counter after an accepted message is the highest sequence of the log with its
record. -/
theorem HighestSeqIn.stages {response : Response} {staged : PbftState}
    (highestIn : HighestSeqIn log state.highestSeq)
    (tracks : Tracks topology state log)
    (observed : msg.phase = .checkpoint → msg.seq ≤ state.highestSeq)
    (stages : PbftState.Stages state msg response staged) :
    HighestSeqIn (log ++ [msg.toRecord]) staged.highestSeq := by
  have reported : (0 < msg.seq → ∃ cert ∈ state.preparedCertificates.values,
      cert.seq = msg.seq ∧ cert.digest = msg.digest ∧
        cert.verify state.quorumSize state.masterPublicKey = true) →
      msg.seq ≤ state.highestSeq := by
    intro backed
    by_cases positive : 0 < msg.seq
    · rcases backed positive with ⟨cert, held, same, _⟩
      rw [← same]
      exact highestIn.prepared_le tracks held
    · exact UInt64.le_trans (UInt64.not_lt.mp positive) UInt64.zero_le
  cases stages with
  | prePrepare => exact highestIn.max msg.toRecord
  | prepare _ phase view proposed =>
      exact highestIn.concat (highestIn.proposal_le tracks proposed)
  | commit _ cert phase view proposed =>
      exact highestIn.concat (highestIn.proposal_le tracks proposed)
  | viewChangeVote phase later backed =>
      exact highestIn.concat (reported backed)
  | viewChangeQuorum maxSeq digest selected phase later backed quorum slot
      selection =>
      have kept := highestIn.raisedSeq_eq tracks selection
      have appended : HighestSeqIn (log ++ [msg.toRecord]) state.highestSeq :=
        highestIn.concat (reported backed)
      rw [← kept] at appended
      exact appended
  | checkpointVote phase => exact highestIn.concat (observed phase)
  | checkpointQuorum phase => exact highestIn.concat (observed phase)

theorem HighestSeqIn.delivered {nextLog : List Record}
    {answer : Except PbftError Response}
    (highestIn : HighestSeqIn log state.highestSeq)
    (tracks : Tracks topology state log)
    (observed : CheckpointsObserved state (.deliver msg))
    (delivered : Delivered state log msg answer next nextLog) :
    HighestSeqIn nextLog next.highestSeq := by
  cases delivered with
  | rejected error => exact highestIn
  | obsolete => exact highestIn
  | accepted response staged authenticated newer stages unstable =>
      apply highestIn.stages tracks ?_ stages
      intro phase
      have view : msg.view = state.currentView := by
        cases stages with
        | checkpointVote _ view => exact view
        | checkpointQuorum _ view => exact view
        | _ => simp_all
      exact observed msg rfl phase authenticated view (newer phase)
  | stabilized staged authenticated newer stages =>
      obtain ⟨phase, view, _, built⟩ := stages.stabilized_inv
      have seen := observed msg rfl phase authenticated view newer
      have appended := highestIn.stages tracks (fun _ => seen) stages
      have unchanged : staged.highestSeq = state.highestSeq := by
        rw [built]
        rfl
      exact appended.compact (unchanged ▸ seen)

/-- The counter of the replica is the highest sequence of its log. -/
def TracksHighest (topology : Topology) (state : PbftState) : Prop :=
  ∃ log, Tracks topology state log ∧ HighestSeqIn log state.highestSeq

theorem TracksHighest.step {event : ReplicaEvent}
    (reached : TracksHighest topology state)
    (observed : CheckpointsObserved state event)
    (stepped : replicaStep state event = some next) :
    TracksHighest topology next := by
  rcases reached with ⟨log, tracks, highestIn⟩
  cases event with
  | deliver msg =>
      have file : state.wal.file = encodeLog log := by rw [tracks.file]
      rcases handleMessage_delivered file msg with ⟨nextLog, delivered⟩
      rw [replicaStep, Option.some.injEq] at stepped
      rw [stepped] at delivered
      exact ⟨nextLog, tracks.delivered delivered,
        highestIn.delivered tracks observed delivered⟩
  | restart =>
      rw [replicaStep_restart, tracks.sameTopology] at stepped
      rcases tracks.restarted stepped with ⟨_, rfl, tracksNext⟩
      rw [tracks.file] at stepped
      have clean := (Topology.recover_encodeLog.mp stepped).1
      exact ⟨log, tracksNext, Topology.highestSeqIn_of_clean clean⟩

end Steps

/-- In every run from an empty log whose accepted checkpoint votes are for sequences
that the counter has reached, recovery finds the counter that the replica had. -/
theorem highestSeq_recovered {totalNodes : Nat}
    {initialPublicKeys : AssocMap UInt32 G2Projective}
    {masterPublicKey : G2Projective} {initial final recovered : PbftState}
    {events : List ReplicaEvent}
    (started : newWithWalPath totalNodes initialPublicKeys masterPublicKey
      ⟨[]⟩ = .ok initial)
    (observed : Along replicaStep CheckpointsObserved initial events)
    (reached : run replicaStep initial events = some final)
    (ok : newWithWalPath totalNodes initialPublicKeys masterPublicKey final.wal =
      .ok recovered) :
    recovered.highestSeq = final.highestSeq := by
  rcases fresh_of_started started with ⟨topology, rfl, recovery⟩
  have initially : TracksHighest topology topology.fresh :=
    ⟨[], tracks_fresh topology, HighestSeqIn.initially⟩
  have preserved : ∀ state event next, TracksHighest topology state →
      CheckpointsObserved state event → replicaStep state event = some next →
        TracksHighest topology next :=
    fun _ _ _ before allowed stepped => before.step allowed stepped
  rcases invariant_of_along preserved initially observed reached with
    ⟨log, tracks, highestIn⟩
  rw [recovery, tracks.file] at ok
  rcases Topology.recover_encodeLog.mp ok with ⟨clean, rfl⟩
  exact (Topology.highestSeqIn_of_clean clean).unique highestIn

end HighestSeq

section SmallRun

open SmallCluster

attribute [local instance] smallCurve

/-- The leader proposes sequence 5, and a checkpoint stabilises. -/
def proposeThenCheckpoint (stable : UInt64) : List ReplicaEvent :=
  [.deliver (signed .prePrepare 0 5 (digestOf 7) 0)] ++
    fromQuorum .checkpoint 0 stable (digestOf 9)

/-- A test of one delivery: a checkpoint vote is for a sequence that the counter has
reached. -/
def checkpointsObservedCheck (replica : RecordReplica) (msg : PbftMessage) : Bool :=
  decide (msg.phase = .checkpoint → msg.seq ≤ replica.1.highestSeq)

/-- The theorem at a checkpoint of the proposed sequence. -/
theorem highestSeq_recovered_atFive :
    ∃ final recovered : PbftState,
      run replicaStep topology.fresh (proposeThenCheckpoint 5) = some final ∧
        newWithWalPath topology.totalNodes topology.publicKeys
          topology.masterPublicKey final.wal = .ok recovered ∧
        recovered.highestSeq = final.highestSeq ∧
        recovered.lastStableCheckpoint = 5 := by
  have computed :
      (run recordStep (topology.fresh, []) (proposeThenCheckpoint 5)).any
        (fun replica => replica.restarted.any fun next =>
          decide (next.1.lastStableCheckpoint = 5)) = true := by
    decide +kernel
  rcases RecordReplica.exists_run computed with ⟨replica, reached, checked⟩
  rcases (Option.any_eq_true _ _).mp checked with ⟨next, restarted, stable⟩
  have restarts : replicaStep replica.stored .restart = some next.stored := by
    rw [replica.restart_stored, restarted]
    rfl
  have ok := (replicaStep_restart_of_run reached).mpr restarts
  have sound : ∀ replica msg, checkpointsObservedCheck replica msg = true →
      msg.phase = .checkpoint → replica.stored.Authenticated msg →
        msg.view = replica.stored.currentView →
        replica.stored.lastStableCheckpoint < msg.seq →
          msg.seq ≤ replica.stored.highestSeq :=
    fun replica msg checked phase _ _ _ => of_decide_eq_true checked phase
  have observed : Along replicaStep CheckpointsObserved topology.fresh
      (proposeThenCheckpoint 5) :=
    RecordReplica.along_of_check sound (by decide +kernel)
  exact ⟨replica.stored, next.stored, reached, ok,
    highestSeq_recovered topology.fresh_started observed reached ok,
    of_decide_eq_true stable⟩

/-- One vote for a checkpoint above every proposal is enough for recovery to find
another counter. -/
theorem highestSeq_raised_byRestart :
    newWithWalPath topology.totalNodes topology.publicKeys
        topology.masterPublicKey ⟨[]⟩ = .ok topology.fresh ∧
      ∃ final recovered : PbftState,
        run replicaStep topology.fresh
            [.deliver (signed .checkpoint 0 5 (digestOf 9) 1)] = some final ∧
          newWithWalPath topology.totalNodes topology.publicKeys
            topology.masterPublicKey final.wal = .ok recovered ∧
          final.highestSeq = 0 ∧ recovered.highestSeq = 5 := by
  refine ⟨topology.fresh_started, ?_⟩
  have computed :
      (run recordStep (topology.fresh, [])
          [.deliver (signed .checkpoint 0 5 (digestOf 9) 1)]).any
        (fun replica => replica.restarted.any fun next =>
          decide (replica.1.highestSeq = 0 ∧ next.1.highestSeq = 5)) = true := by
    decide +kernel
  rcases RecordReplica.exists_run computed with ⟨replica, reached, checked⟩
  rcases (Option.any_eq_true _ _).mp checked with ⟨next, restarted, counters⟩
  have restarts : replicaStep replica.stored .restart = some next.stored := by
    rw [replica.restart_stored, restarted]
    rfl
  exact ⟨replica.stored, next.stored, reached,
    (replicaStep_restart_of_run reached).mpr restarts, of_decide_eq_true counters⟩

end SmallRun

end SovereignLattice
