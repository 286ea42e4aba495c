import SovereignLattice.Replica.SmallCluster
import SovereignLattice.Replica.Tracking

/-!
# The current view across crashes

The view that a replica is in is at most the view that its log gives evidence
of, as long as every view-change quorum that completes in memory is complete in
the log as well.  Compaction can take votes of such a quorum out of the log
before the quorum completes; it never takes away the evidence of a view that
the replica is already in.
-/

namespace SovereignLattice

section ViewDurability

variable [Curve]

/-- The vote completes a quorum and passes the checks of the view-change branch:
the certificate that it reports is held, and the certificate of the quorum's highest
slot is found and makes a genuine new-view certificate. -/
def PbftState.CompletesQuorum (state : PbftState) (msg : PbftMessage) : Prop :=
  state.quorumSize ≤ (state.supportersWith msg).len ∧
  (0 < msg.seq → ∃ cert ∈ state.preparedCertificates.values,
    cert.seq = msg.seq ∧ cert.digest = msg.digest ∧
      cert.verify state.quorumSize state.masterPublicKey = true) ∧
  ∃ maxSeq digest selected,
    highestViewChangeSlot (state.supportersWith msg) = some (maxSeq, digest) ∧
    selected = boundCertificate state.preparedCertificates.values msg.view maxSeq
      digest state.quorumSize state.masterPublicKey ∧
    (0 < maxSeq → selected.isSome) ∧
    NewViewCertificate.verify
      { targetView := msg.view, viewChangeVotes := state.supportersWith msg,
        selectedPreparedCertificate := selected }
      state.quorumSize state.masterPublicKey state.publicKeys = true

/-- A view-change vote that completes a quorum in memory completes it in the
log too. -/
def QuorumLogged (state : PbftState) (event : ReplicaEvent) : Prop :=
  ∀ msg, event = .deliver msg → msg.phase = .viewChange →
    state.Authenticated msg → state.currentView < msg.view →
      state.CompletesQuorum msg →
        state.toTopology.ViewQuorumIn (state.wal.records ++ [msg.toRecord])
          msg.view

/-- The log gives evidence of a view or of a later one. -/
def ViewBacked (topology : Topology) (current : UInt64) (log : List Record) :
    Prop :=
  current = 0 ∨ ∃ view, current ≤ view ∧ topology.Evidence log view

namespace ViewBacked

variable {topology : Topology} {state : PbftState} {log : List Record}

theorem concat {current : UInt64} (backed : ViewBacked topology current log)
    (record : Record) : ViewBacked topology current (log ++ [record]) := by
  rcases backed with zero | ⟨view, later, evidence⟩
  · exact Or.inl zero
  · exact Or.inr ⟨view, later, evidence.concat record⟩

theorem accepted (backed : ViewBacked topology state.currentView log)
    {msg : PbftMessage} {response : Response} {staged : PbftState}
    (stages : PbftState.Stages state msg response staged)
    (unstable : response ≠ .checkpointStabilized)
    (logged : msg.phase = .viewChange → state.currentView < msg.view →
      state.CompletesQuorum msg →
        topology.ViewQuorumIn (log ++ [msg.toRecord]) msg.view) :
    ViewBacked topology staged.currentView (log ++ [msg.toRecord]) := by
  cases stages with
  | viewChangeQuorum maxSeq digest selected phase later checked quorum slot
      selection found verified =>
      have completes : state.CompletesQuorum msg :=
        ⟨quorum, checked, maxSeq, digest, selected, slot, selection, found, verified⟩
      exact Or.inr ⟨msg.view, UInt64.le_refl _,
        .viewQuorum (logged phase later completes)⟩
  | checkpointQuorum => exact absurd rfl unstable
  | _ => exact backed.concat msg.toRecord

/-- Stabilising a checkpoint leaves its own votes as evidence of the view. -/
theorem stabilized (tracks : Tracks topology state log)
    {msg : PbftMessage} {staged : PbftState}
    (newer : state.lastStableCheckpoint < msg.seq)
    (stages : PbftState.Stages state msg .checkpointStabilized staged) :
    ViewBacked topology staged.currentView
      (compact msg.seq (log ++ [msg.toRecord])) := by
  obtain ⟨phase, view, quorum, rfl⟩ := stages.stabilized_inv
  have samePhase : msg.toRecord.phase = Phase.checkpoint.toU8 :=
    congrArg Phase.toU8 phase
  have counted := len_withVote samePhase
    (tracks.follows.checkpointVotes msg.toRecord.proposalKey
      (survives_of_lt newer))
  have size : state.quorumSize = topology.quorumSize :=
    congrArg Topology.quorumSize tracks.sameTopology
  have kept :
      signersIn .checkpoint (compact msg.seq (log ++ [msg.toRecord]))
          msg.proposalKey =
        signersIn .checkpoint (log ++ [msg.toRecord]) msg.proposalKey :=
    signersIn_compact (UInt64.le_refl _)
  have complete : topology.CheckpointQuorumIn
      (compact msg.seq (log ++ [msg.toRecord])) msg.proposalKey := by
    rw [Topology.CheckpointQuorumIn]
    rw [kept, ← size]
    exact quorum.trans counted.le
  exact Or.inr ⟨msg.view, UInt64.le_of_eq view.symm,
    .checkpoint msg.seq msg.digest complete⟩

end ViewBacked

/-- The answer `VIEW_CHANGE_OK` means that the view has been entered. -/
theorem PbftState.currentView_of_viewChangeOk {state : PbftState}
    {msg : PbftMessage} {io : WalIo}
    (answered : (state.handleMessage msg io).1 = .ok .viewChangeOk) :
    (state.handleMessage msg io).2.currentView = msg.view := by
  rcases state.exists_outcome msg io with
    ⟨answer, next, handled, outcome⟩
  simp only [handled] at answered ⊢
  subst answered
  cases outcome with
  | accepted _ staged running authenticated newer stages unstable =>
      cases stages with
      | prepare _ _ _ _ _ answer =>
          rcases answer with answer | answer <;> cases answer
      | commit _ _ _ _ _ _ _ _ _ _ _ answer =>
          rcases answer with answer | answer <;> cases answer
      | viewChangeQuorum => rfl

/-- What the durability argument carries along a run: the tracked log, the
evidence in it, and a lower bound of the view. -/
def DurableFrom (topology : Topology) (bound : UInt64) (state : PbftState) :
    Prop :=
  bound ≤ state.currentView ∧
    ∃ log, Tracks topology state log ∧ ViewBacked topology state.currentView log

section Steps

variable {topology : Topology} {bound : UInt64} {state next : PbftState}

/-- Recovery finds at least the current view. -/
theorem currentView_le_recovered {log : List Record}
    (tracks : Tracks topology state log)
    (backed : ViewBacked topology state.currentView log)
    (ok : topology.recover state.wal = .ok next) :
    state.currentView ≤ next.currentView := by
  rcases tracks.restarted ok with ⟨reflects, rfl, _⟩
  rcases backed with zero | ⟨view, later, evidence⟩
  · rw [zero]
    exact UInt64.zero_le
  · exact UInt64.le_trans later (reflects.view.bound view evidence)

theorem DurableFrom.delivered {log nextLog : List Record} {msg : PbftMessage}
    {answer : Except PbftError Response} (tracks : Tracks topology state log)
    (backed : ViewBacked topology state.currentView log)
    (logged : QuorumLogged state (.deliver msg))
    (delivered : Delivered state log msg answer next nextLog) :
    state.currentView ≤ next.currentView ∧
      ViewBacked topology next.currentView nextLog := by
  cases delivered with
  | rejected error => exact ⟨UInt64.le_refl _, backed⟩
  | obsolete => exact ⟨UInt64.le_refl _, backed⟩
  | accepted response staged authenticated newer stages unstable =>
      have complete : msg.phase = .viewChange →
          state.currentView < msg.view → state.CompletesQuorum msg →
            topology.ViewQuorumIn (log ++ [msg.toRecord]) msg.view := by
        intro phase later completes
        have inLog := logged msg rfl phase authenticated later completes
        rwa [tracks.file, records_encodeLog, tracks.sameTopology] at inLog
      have kept := backed.accepted stages unstable complete
      exact ⟨stages.currentView_le, kept⟩
  | stabilized staged authenticated newer stages =>
      have kept := ViewBacked.stabilized tracks newer stages
      exact ⟨stages.currentView_le, kept⟩

theorem DurableFrom.step {event : ReplicaEvent}
    (durable : DurableFrom topology bound state)
    (logged : QuorumLogged state event)
    (stepped : replicaStep state event = some next) :
    DurableFrom topology bound next := by
  obtain ⟨above, log, tracks, backed⟩ := durable
  cases event with
  | deliver msg =>
      have file : state.wal.file = encodeLog log := by rw [tracks.file]
      rcases handleMessage_delivered file msg with ⟨nextLog, delivered⟩
      rw [replicaStep, Option.some.injEq] at stepped
      rw [stepped] at delivered
      rcases DurableFrom.delivered tracks backed logged delivered with
        ⟨rises, stillBacked⟩
      exact ⟨UInt64.le_trans above rises, nextLog, tracks.delivered delivered,
        stillBacked⟩
  | restart =>
      rw [replicaStep_restart, tracks.sameTopology] at stepped
      have rises := currentView_le_recovered tracks backed stepped
      rcases tracks.restarted stepped with ⟨reflects, rfl, tracksNext⟩
      refine ⟨UInt64.le_trans above rises, log, tracksNext, ?_⟩
      rcases reflects.view.attained with zero | evidence
      · exact Or.inl zero
      · exact Or.inr ⟨_, UInt64.le_refl _, evidence⟩

end Steps

/-- In every run whose view-change quorums are complete in the log, recovery
finds at least the view before the crash, and no later state is below a view
that was entered. -/
theorem currentView_durable {totalNodes : Nat}
    {initialPublicKeys : AssocMap UInt32 G2Projective}
    {masterPublicKey : G2Projective} {initial final : PbftState}
    {events : List ReplicaEvent}
    (started : newWithWalPath totalNodes initialPublicKeys masterPublicKey
      ⟨[]⟩ = .ok initial)
    (reached : run replicaStep initial events = some final)
    (logged : Along replicaStep QuorumLogged initial events) :
    (∀ recovered,
      newWithWalPath totalNodes initialPublicKeys masterPublicKey final.wal =
          .ok recovered →
        final.currentView ≤ recovered.currentView) ∧
    (∀ earlier msg rest before,
      events = earlier ++ .deliver msg :: rest →
      run replicaStep initial earlier = some before →
      (before.handleMessage msg .durable).1 = .ok .viewChangeOk →
        msg.view ≤ final.currentView) := by
  rcases fresh_of_started started with ⟨topology, rfl, recovery⟩
  have durableStart : DurableFrom topology 0 topology.fresh :=
    ⟨UInt64.zero_le, [], tracks_fresh topology, Or.inl rfl⟩
  have preserved : ∀ bound state event next,
      DurableFrom topology bound state → QuorumLogged state event →
        replicaStep state event = some next →
          DurableFrom topology bound next :=
    fun _ _ _ _ durable logged stepped => durable.step logged stepped
  constructor
  · intro recovered ok
    rw [recovery] at ok
    rcases invariant_of_along (preserved 0) durableStart logged reached with
      ⟨_, log, tracks, backed⟩
    exact currentView_le_recovered tracks backed ok
  · intro earlier msg rest before split ran answered
    subst split
    have durableBefore : DurableFrom topology 0 before :=
      invariant_of_along (preserved 0) durableStart (along_of_append logged) ran
    have remaining := along_append ran logged
    rcases run_append_eq_some.mp reached with ⟨middle, ranAgain, continued⟩
    rw [ran, Option.some.injEq] at ranAgain
    subst ranAgain
    rcases run_cons_eq_some.mp continued with ⟨next, stepped, finished⟩
    rcases durableBefore.step remaining.1 stepped with ⟨_, durableNext⟩
    have entered : next.currentView = msg.view := by
      rw [replicaStep, Option.some.injEq] at stepped
      rw [← stepped]
      exact PbftState.currentView_of_viewChangeOk answered
    have durable : DurableFrom topology msg.view next :=
      ⟨UInt64.le_of_eq entered.symm, durableNext⟩
    exact (invariant_of_along (preserved msg.view) durable
      (remaining.2 next stepped) finished).1

end ViewDurability

section SmallRun

open SmallCluster

attribute [local instance] smallCurve

/-- A view-change vote for view 1 that reports no certificate. -/
def viewOneVote (sender : UInt32) : PbftMessage :=
  signed .viewChange 1 0 (digestOf 0) sender

/-- View 1 is entered before a checkpoint in it, and the replica restarts. -/
def quorumBeforeCheckpoint : List ReplicaEvent :=
  [0, 1, 2].map (fun sender => .deliver (viewOneVote sender)) ++
    fromQuorum .checkpoint 1 3 (digestOf 0xcc) ++ [.restart]

/-- A checkpoint of view 0 comes between the votes for view 1. -/
def checkpointBeforeQuorum : List ReplicaEvent :=
  [0, 1].map (fun sender => .deliver (viewOneVote sender)) ++
    fromQuorum .checkpoint 0 1 (digestOf 0xcc) ++ [.deliver (viewOneVote 2)]

/-- A test of one delivery: a view-change vote completes no quorum, or one in the
log. -/
def quorumLoggedCheck (replica : RecordReplica) (msg : PbftMessage) : Bool :=
  decide (msg.phase = .viewChange →
    replica.1.quorumSize ≤ (replica.1.supportersWith msg).len →
      replica.1.toTopology.ViewQuorumIn (replica.2 ++ [msg.toRecord]) msg.view)

theorem quorumIn_of_check {replica : RecordReplica} {msg : PbftMessage}
    (checked : quorumLoggedCheck replica msg = true) (phase : msg.phase = .viewChange)
    (completes : replica.stored.CompletesQuorum msg) :
    replica.stored.toTopology.ViewQuorumIn
      (replica.stored.wal.records ++ [msg.toRecord]) msg.view := by
  have records : replica.stored.wal.records = replica.2 :=
    records_encodeLog replica.2
  rw [records]
  exact of_decide_eq_true checked phase completes.1

/-- The theorem at a run with a checkpoint and a restart. -/
theorem currentView_durable_afterCheckpoint :
    ∃ final : PbftState,
      run replicaStep topology.fresh quorumBeforeCheckpoint = some final ∧
        final.currentView = 1 ∧
        ∀ recovered, newWithWalPath topology.totalNodes topology.publicKeys
            topology.masterPublicKey final.wal = .ok recovered →
          final.currentView ≤ recovered.currentView := by
  have computed :
      (run recordStep (topology.fresh, []) quorumBeforeCheckpoint).any
        (fun replica => decide (replica.1.currentView = 1)) = true := by
    decide +kernel
  rcases RecordReplica.exists_run computed with ⟨replica, reached, entered⟩
  refine ⟨replica.stored, reached, of_decide_eq_true entered, ?_⟩
  have sound : ∀ replica msg, quorumLoggedCheck replica msg = true →
      msg.phase = .viewChange → replica.stored.Authenticated msg →
        replica.stored.currentView < msg.view →
        replica.stored.CompletesQuorum msg →
          replica.stored.toTopology.ViewQuorumIn
            (replica.stored.wal.records ++ [msg.toRecord]) msg.view :=
    fun _ _ checked phase _ _ completes => quorumIn_of_check checked phase completes
  have logged :
      Along replicaStep QuorumLogged topology.fresh quorumBeforeCheckpoint :=
    RecordReplica.along_of_check sound (by decide +kernel)
  exact (currentView_durable topology.fresh_started reached logged).1

/-- A checkpoint between two view-change votes takes the first ones out of the
log: the view that the last one enters is not recovered. -/
theorem enteredView_lost :
    newWithWalPath topology.totalNodes topology.publicKeys
        topology.masterPublicKey ⟨[]⟩ = .ok topology.fresh ∧
      ∃ final recovered : PbftState,
        run replicaStep topology.fresh checkpointBeforeQuorum = some final ∧
          newWithWalPath topology.totalNodes topology.publicKeys
            topology.masterPublicKey final.wal = .ok recovered ∧
          recovered.currentView < final.currentView := by
  refine ⟨topology.fresh_started, ?_⟩
  have computed :
      (run recordStep (topology.fresh, []) checkpointBeforeQuorum).any
        (fun replica => replica.restarted.any fun next =>
          decide (next.1.currentView < replica.1.currentView)) = true := by
    decide +kernel
  rcases RecordReplica.exists_run computed with ⟨replica, reached, checked⟩
  rcases (Option.any_eq_true _ _).mp checked with ⟨next, restarted, lower⟩
  have ok : replicaStep replica.stored .restart = some next.stored := by
    rw [replica.restart_stored, restarted]
    rfl
  exact ⟨replica.stored, next.stored, reached,
    (replicaStep_restart_of_run reached).mpr ok, of_decide_eq_true lower⟩

end SmallRun

end SovereignLattice
