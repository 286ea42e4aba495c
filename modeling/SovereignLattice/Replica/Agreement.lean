import SovereignLattice.Replica.SmallCluster
import SovereignLattice.Replica.Tracking

/-!
# Recovery agrees with the state before the crash

Above the stable checkpoint a recovered replica has the live replica's
proposals, votes and certificates.  As long as no checkpoint has stabilised,
the log is the whole history and replay mirrors the live handler exactly, views
included.
-/

namespace SovereignLattice

section Agreement

variable [Curve]

section AboveCheckpoint

variable {topology : Topology} {state recovered : PbftState}
variable {log : List Record}

/-- Two states that track one log have the same stable checkpoint. -/
theorem Tracks.lastStableCheckpoint_eq (tracks : Tracks topology state log)
    (other : Tracks topology recovered log) :
    recovered.lastStableCheckpoint = state.lastStableCheckpoint :=
  other.stable.unique tracks.stable

/-- Two states that track one log agree on every sequence above its stable
checkpoint. -/
theorem Tracks.ledger_eq (tracks : Tracks topology state log)
    (other : Tracks topology recovered log) {view seq : UInt64}
    (above : state.lastStableCheckpoint < seq) :
    (∀ digest,
      ((view, seq, digest) ∈ recovered.prePreparedProposals ↔
        (view, seq, digest) ∈ state.prePreparedProposals) ∧
      recovered.prepareVotes.get? (view, seq, digest) =
        state.prepareVotes.get? (view, seq, digest) ∧
      recovered.commitVotes.get? (view, seq, digest) =
        state.commitVotes.get? (view, seq, digest) ∧
      recovered.checkpointVotes.get? (view, seq, digest) =
        state.checkpointVotes.get? (view, seq, digest)) ∧
    recovered.preparedCertificates.get? (view, seq) =
      state.preparedCertificates.get? (view, seq) ∧
    recovered.commitCertificates.get? (view, seq) =
      state.commitCertificates.get? (view, seq) ∧
    recovered.committedDigest.get? (view, seq) =
      state.committedDigest.get? (view, seq) := by
  have kept := survives_of_lt above
  have keptOther := kept
  rw [← tracks.lastStableCheckpoint_eq other] at keptOther
  have prepares : ∀ digest,
      recovered.ledger.prepareVotes.get? (view, seq, digest) =
        state.ledger.prepareVotes.get? (view, seq, digest) := fun digest =>
    (other.follows.prepareVotes (view, seq, digest) keptOther).trans
      (tracks.follows.prepareVotes (view, seq, digest) kept).symm
  have commits : ∀ digest,
      recovered.ledger.commitVotes.get? (view, seq, digest) =
        state.ledger.commitVotes.get? (view, seq, digest) := fun digest =>
    (other.follows.commitVotes (view, seq, digest) keptOther).trans
      (tracks.follows.commitVotes (view, seq, digest) kept).symm
  refine ⟨?_, certificates_eq_of_sameVotes other.chain tracks.chain
    other.complete tracks.complete prepares commits⟩
  intro digest
  refine ⟨?_, prepares digest, commits digest, ?_⟩
  · exact (other.follows.proposals (view, seq, digest) keptOther).trans
      (tracks.follows.proposals (view, seq, digest) kept).symm
  · exact (other.follows.checkpointVotes (view, seq, digest) keptOther).trans
      (tracks.follows.checkpointVotes (view, seq, digest) kept).symm

end AboveCheckpoint

/-! ## Before the first checkpoint -/

/-- Replay of the log gives the live state back, field by field. -/
structure Mirrors (topology : Topology) (state : PbftState) (log : List Record) :
    Prop where
  tracks : Tracks topology state log
  unstable : state.lastStableCheckpoint = 0
  clean : (topology.replayAll log).recoveryError = false
  ledger : (topology.replayAll log).ledger = state.ledger
  view : (topology.replayAll log).recoveredView = state.currentView
  viewVotes : (topology.replayAll log).recoveredViewChangeVotes =
    state.viewChangeVotes
  newViews : (topology.replayAll log).recoveredNewViewCertificates =
    state.newViewCertificates

namespace Mirrors

variable {topology : Topology} {state next : PbftState}
variable {log nextLog : List Record}

/-- The recovered state of a mirrored log. -/
theorem recoveredState_eq (mirrors : Mirrors topology state log)
    (wal : WriteAheadLog) :
    (topology.recoveredState (topology.replayAll log) wal).ledger =
        state.ledger ∧
      (topology.recoveredState (topology.replayAll log)
        wal).lastStableCheckpoint = 0 := by
  have reflects := Topology.reflects_of_clean mirrors.clean
  have stable : (topology.replayAll log).recoveredStableCheckpoint = 0 := by
    rw [← mirrors.unstable]
    exact reflects.stable.unique mirrors.tracks.stable
  rw [Topology.ledger_recoveredState, stable, mirrors.ledger]
  refine ⟨VoteLedger.restrict_eq_self fun seq => ?_, stable⟩
  rfl

theorem restarted (mirrors : Mirrors topology state log)
    (ok : topology.recover state.wal = .ok next) :
    Mirrors topology next log := by
  rcases mirrors.tracks.restarted ok with ⟨_, rfl, tracks⟩
  rcases mirrors.recoveredState_eq ⟨encodeLog log⟩ with ⟨ledger, unstable⟩
  exact
    { tracks := tracks
      unstable := unstable
      clean := mirrors.clean
      ledger := mirrors.ledger.trans ledger.symm
      view := rfl
      viewVotes := rfl
      newViews := rfl }

section Observed

variable {msg : PbftMessage}

private theorem phase_toRecord {phase : Phase} (here : msg.phase = phase) :
    msg.toRecord.phase = phase.toU8 :=
  congrArg Phase.toU8 here

/-- The record of a message of the current view leaves the recovered view. -/
theorem observe_view_of_eq (mirrors : Mirrors topology state log)
    (view : msg.view = state.currentView) :
    (Topology.observe (topology.replayAll log) msg.toRecord).recoveredView =
      state.currentView := by
  have notLater :
      msg.toRecord.view ≤ (topology.replayAll log).recoveredView := by
    rw [mirrors.view]
    exact UInt64.le_of_eq view
  rw [Topology.observe_view_of_le notLater, mirrors.view]

/-- So does the record of a view-change vote. -/
theorem observe_view_of_viewChange (mirrors : Mirrors topology state log)
    (phase : msg.phase = .viewChange) :
    (Topology.observe (topology.replayAll log) msg.toRecord).recoveredView =
      state.currentView := by
  rw [Topology.observe_view_of_phase (by rw [phase_toRecord phase]; decide),
    mirrors.view]

theorem observe_clean (mirrors : Mirrors topology state log) :
    (Topology.observe (topology.replayAll log) msg.toRecord).recoveryError =
      false :=
  (Topology.observe_recoveryError _ _).trans mirrors.clean

theorem observe_newViews (mirrors : Mirrors topology state log) :
    (Topology.observe (topology.replayAll log)
        msg.toRecord).recoveredNewViewCertificates =
      state.newViewCertificates :=
  (Topology.observe_newViewCertificates _ _).trans mirrors.newViews

theorem supportersWith_eq (mirrors : Mirrors topology state log) :
    (topology.replayAll log).supportersWith msg.toRecord =
      state.supportersWith msg := by
  unfold Recovered.supportersWith PbftState.supportersWith
  rw [mirrors.viewVotes]
  rfl

/-- Storing the view-change vote stores what the live replica stores. -/
theorem withSupporters_eq (mirrors : Mirrors topology state log) :
    ((Topology.observe (topology.replayAll log)
        msg.toRecord).withSupporters msg.toRecord).recoveredViewChangeVotes =
      state.viewChangeVotes.insert msg.view (state.supportersWith msg) := by
  rw [Recovered.withSupporters]
  simp only [Topology.observe_viewChangeVotes, Topology.supportersWith_observe,
    mirrors.supportersWith_eq, mirrors.viewVotes]
  rfl

/-- A certificate behind a vote for a later view also stands behind its record. -/
theorem supports_of_backed (mirrors : Mirrors topology state log)
    (later : state.currentView < msg.view)
    (backed : 0 < msg.seq → ∃ cert ∈ state.preparedCertificates.values,
      cert.seq = msg.seq ∧ cert.digest = msg.digest ∧
        cert.verify state.quorumSize state.masterPublicKey = true)
    (positive : 0 < msg.toRecord.seq) :
    ∃ cert ∈ (topology.replayAll log).ledger.prepared.values,
      cert.supports msg.toRecord.view msg.toRecord.seq msg.toRecord.digest
        state.quorumSize state.masterPublicKey = true := by
  rcases backed positive with ⟨cert, held, certSeq, certDigest, verified⟩
  have entered := (mirrors.tracks.prepared_logged held).1
  rw [mirrors.ledger]
  refine ⟨cert, held, ?_⟩
  rw [PreparedCertificate.supports]
  exact decide_eq_true
    ⟨UInt64.lt_of_le_of_lt entered later, certSeq, certDigest, verified⟩

/-- Replay of the record gives the state after the message. -/
def ReplaysTo (topology : Topology) (log : List Record) (msg : PbftMessage)
    (staged : PbftState) : Prop :=
  ∃ recovered,
    Topology.Replays topology (topology.replayAll log) msg.toRecord recovered ∧
    recovered.recoveryError = false ∧
    recovered.ledger = staged.ledger ∧
    recovered.recoveredView = staged.currentView ∧
    recovered.recoveredViewChangeVotes = staged.viewChangeVotes ∧
    recovered.recoveredNewViewCertificates = staged.newViewCertificates

/-- A record of the current view that only changes the ledger does. -/
theorem replaysTo_withLedger (mirrors : Mirrors topology state log)
    {ledger : VoteLedger} (view : msg.view = state.currentView)
    (replays : Topology.Replays topology (topology.replayAll log) msg.toRecord
      ((Topology.observe (topology.replayAll log) msg.toRecord).withLedger
        ledger)) :
    ReplaysTo topology log msg (state.withLedger ledger) := by
  refine ⟨_, replays, mirrors.observe_clean, rfl, mirrors.observe_view_of_eq view,
    ?_, mirrors.observe_newViews⟩
  exact (Topology.observe_viewChangeVotes _ _).trans mirrors.viewVotes

end Observed

/-- The record of an accepted message replays to the state after it. -/
theorem replays (mirrors : Mirrors topology state log) {msg : PbftMessage}
    {response : Response} {staged : PbftState}
    (authenticated : state.Authenticated msg)
    (stages : PbftState.Stages state msg response staged)
    (unstable : response ≠ .checkpointStabilized) :
    ReplaysTo topology log msg staged := by
  obtain rfl := mirrors.tracks.sameTopology
  rw [PbftState.Authenticated] at authenticated
  have supporters := @supportersWith_eq _ _ _ _ msg mirrors
  have sameLedger :
      (Topology.observe (state.toTopology.replayAll log)
        msg.toRecord).ledger = state.ledger :=
    (Topology.observe_ledger _ _).trans mirrors.ledger
  cases stages with
  | prePrepare phase view leader unique fresh =>
      rw [phase] at authenticated
      have replays : Topology.Replays state.toTopology
          (state.toTopology.replayAll log) msg.toRecord _ :=
        .prePrepare (phase_toRecord phase) authenticated leader
          (by rw [mirrors.ledger]; exact unique)
      rw [mirrors.ledger] at replays
      exact mirrors.replaysTo_withLedger view replays
  | prepare _ phase view proposed certified answer =>
      rw [phase] at authenticated
      have replays : Topology.Replays state.toTopology
          (state.toTopology.replayAll log) msg.toRecord _ :=
        .prepare (phase_toRecord phase) authenticated
          (by rw [mirrors.ledger]; exact proposed)
          (by rw [mirrors.ledger]; exact certified)
      rw [mirrors.ledger] at replays
      exact mirrors.replaysTo_withLedger view replays
  | commit _ cert phase view proposed held certView certSeq certDigest verified
      certified answer =>
      rw [phase] at authenticated
      have replays : Topology.Replays state.toTopology
          (state.toTopology.replayAll log) msg.toRecord _ :=
        .commit cert (phase_toRecord phase) authenticated
          (by rw [mirrors.ledger]; exact proposed)
          (by rw [mirrors.ledger]; exact held) certView certSeq certDigest
          verified (by rw [mirrors.ledger]; exact certified)
      rw [mirrors.ledger] at replays
      exact mirrors.replaysTo_withLedger view replays
  | viewChangeVote phase later backed few =>
      rw [phase] at authenticated
      have replays : Topology.Replays state.toTopology
          (state.toTopology.replayAll log) msg.toRecord _ :=
        .viewChangeVote (phase_toRecord phase) authenticated
          (mirrors.supports_of_backed later backed) (by rw [supporters]; exact few)
      exact ⟨_, replays, mirrors.observe_clean, sameLedger,
        mirrors.observe_view_of_viewChange phase, mirrors.withSupporters_eq,
        mirrors.observe_newViews⟩
  | viewChangeQuorum maxSeq digest selected phase later backed quorum slot
      selection found verified =>
      rw [phase] at authenticated
      have replays : Topology.Replays state.toTopology
          (state.toTopology.replayAll log) msg.toRecord _ :=
        .viewChangeQuorum maxSeq digest selected (phase_toRecord phase)
          authenticated (mirrors.supports_of_backed later backed)
          (by rw [supporters]; exact quorum) (by rw [supporters]; exact slot)
          (by rw [mirrors.ledger]; exact selection) found
          (by rw [supporters]; exact verified)
      rw [supporters, mirrors.newViews,
        mirrors.observe_view_of_viewChange phase] at replays
      have raised : max state.currentView msg.view = msg.view := by
        have unfolded : max state.currentView msg.view =
            if state.currentView ≤ msg.view then msg.view
            else state.currentView := rfl
        rw [unfolded, if_pos (UInt64.le_of_lt later)]
      exact ⟨_, replays, mirrors.observe_clean, sameLedger, raised,
        mirrors.withSupporters_eq, rfl⟩
  | checkpointVote phase view few =>
      rw [phase] at authenticated
      have replays : Topology.Replays state.toTopology
          (state.toTopology.replayAll log) msg.toRecord _ :=
        .checkpointVote (phase_toRecord phase) authenticated
          (by rw [mirrors.ledger]; exact few)
      rw [mirrors.ledger] at replays
      exact mirrors.replaysTo_withLedger view replays
  | checkpointQuorum => exact absurd rfl unstable

theorem delivered (mirrors : Mirrors topology state log) {msg : PbftMessage}
    {answer : Except PbftError Response}
    (delivered : Delivered state log msg answer next nextLog)
    (unstable : answer ≠ .ok .checkpointStabilized) :
    Mirrors topology next nextLog := by
  have tracks := mirrors.tracks.delivered delivered
  cases delivered with
  | rejected error => exact mirrors
  | obsolete => exact mirrors
  | accepted response staged authenticated newer stages notStable =>
      rcases mirrors.replays authenticated stages notStable with
        ⟨recovered, replays, clean, ledger, view, viewVotes, newViews⟩
      have same :=
        Topology.replayRecord_eq_of_replays mirrors.clean replays
      rw [← Topology.replayAll_concat] at same
      subst same
      exact
        { tracks := tracks
          unstable :=
            (stages.lastStableCheckpoint_eq notStable).trans mirrors.unstable
          clean := clean
          ledger := ledger
          view := view
          viewVotes := viewVotes
          newViews := newViews }
  | stabilized staged authenticated newer stages => exact absurd rfl unstable

end Mirrors

/-- The event is not a message that stabilises a checkpoint. -/
def NotStabilizing (state : PbftState) (event : ReplicaEvent) : Prop :=
  ∀ msg, event = .deliver msg →
    (state.handleMessage msg .durable).1 ≠ .ok .checkpointStabilized

theorem Mirrors.step {topology : Topology} {state next : PbftState}
    {event : ReplicaEvent}
    (mirrors : ∃ log, Mirrors topology state log)
    (unstable : NotStabilizing state event)
    (stepped : replicaStep state event = some next) :
    ∃ log, Mirrors topology next log := by
  obtain ⟨log, mirrors⟩ := mirrors
  cases event with
  | deliver msg =>
      have file : state.wal.file = encodeLog log := by rw [mirrors.tracks.file]
      rcases handleMessage_delivered file msg with ⟨nextLog, delivered⟩
      rw [replicaStep, Option.some.injEq] at stepped
      rw [stepped] at delivered
      exact ⟨nextLog, mirrors.delivered delivered (unstable msg rfl)⟩
  | restart =>
      rw [replicaStep_restart, mirrors.tracks.sameTopology] at stepped
      exact ⟨log, mirrors.restarted stepped⟩

theorem mirrors_fresh (topology : Topology) :
    Mirrors topology topology.fresh [] where
  tracks := tracks_fresh topology
  unstable := rfl
  clean := rfl
  ledger := rfl
  view := rfl
  viewVotes := rfl
  newViews := rfl

/-- For every run of a replica, whatever it recovers from its log agrees with
its state before the crash: in the stable checkpoint, above it in all seven
maps, and before the first checkpoint in the views as well. -/
theorem recovery_agrees {totalNodes : Nat}
    {initialPublicKeys : AssocMap UInt32 G2Projective}
    {masterPublicKey : G2Projective} {initial final recovered : PbftState}
    {events : List ReplicaEvent}
    (started : newWithWalPath totalNodes initialPublicKeys masterPublicKey
      ⟨[]⟩ = .ok initial)
    (reached : run replicaStep initial events = some final)
    (ok : newWithWalPath totalNodes initialPublicKeys masterPublicKey
      final.wal = .ok recovered) :
    recovered.lastStableCheckpoint = final.lastStableCheckpoint ∧
    (∀ view seq, final.lastStableCheckpoint < seq →
      (∀ digest,
        ((view, seq, digest) ∈ recovered.prePreparedProposals ↔
          (view, seq, digest) ∈ final.prePreparedProposals) ∧
        recovered.prepareVotes.get? (view, seq, digest) =
          final.prepareVotes.get? (view, seq, digest) ∧
        recovered.commitVotes.get? (view, seq, digest) =
          final.commitVotes.get? (view, seq, digest) ∧
        recovered.checkpointVotes.get? (view, seq, digest) =
          final.checkpointVotes.get? (view, seq, digest)) ∧
      recovered.preparedCertificates.get? (view, seq) =
        final.preparedCertificates.get? (view, seq) ∧
      recovered.commitCertificates.get? (view, seq) =
        final.commitCertificates.get? (view, seq) ∧
      recovered.committedDigest.get? (view, seq) =
        final.committedDigest.get? (view, seq)) ∧
    (Along replicaStep NotStabilizing initial events →
      recovered.currentView = final.currentView ∧
      recovered.viewChangeVotes = final.viewChangeVotes ∧
      recovered.newViewCertificates = final.newViewCertificates) := by
  rcases fresh_of_started started with ⟨topology, rfl, recovery⟩
  rw [recovery] at ok
  rcases tracks_of_run reached with ⟨log, tracks⟩
  have other := (tracks.restarted ok).2.2
  refine ⟨tracks.lastStableCheckpoint_eq other, ?_, ?_⟩
  · intro view seq above
    exact tracks.ledger_eq other above
  · intro unstable
    have mirrored : ∃ log, Mirrors topology final log :=
      invariant_of_along (fun _ _ _ => Mirrors.step)
        ⟨[], mirrors_fresh topology⟩ unstable reached
    obtain ⟨history, mirrors⟩ := mirrored
    rcases mirrors.tracks.restarted ok with ⟨_, rfl, _⟩
    exact ⟨mirrors.view, mirrors.viewVotes, mirrors.newViews⟩

end Agreement

section SmallRun

open SmallCluster

attribute [local instance] smallCurve

/-- The theorem at a run with a committed slot, a stable checkpoint below it
and a restart. -/
theorem recovery_agrees_afterCheckpoint :
    ∃ final recovered : PbftState,
      run replicaStep topology.fresh
          (.deliver (signed .prePrepare 0 5 (digestOf 0xaa) 0) ::
            fromQuorum .prepare 0 5 (digestOf 0xaa) ++
            fromQuorum .commit 0 5 (digestOf 0xaa) ++
            fromQuorum .checkpoint 0 2 (digestOf 0xcc) ++
            [.restart, .deliver (signed .prePrepare 0 6 (digestOf 0xbb) 0)]) =
        some final ∧
      recovered.lastStableCheckpoint = final.lastStableCheckpoint ∧
      final.lastStableCheckpoint = 2 ∧
      recovered.committedDigest.get? (0, 5) =
        final.committedDigest.get? (0, 5) := by
  have computed : (run recordStep (topology.fresh, [])
      (.deliver (signed .prePrepare 0 5 (digestOf 0xaa) 0) ::
        fromQuorum .prepare 0 5 (digestOf 0xaa) ++
        fromQuorum .commit 0 5 (digestOf 0xaa) ++
        fromQuorum .checkpoint 0 2 (digestOf 0xcc) ++
        [.restart, .deliver (signed .prePrepare 0 6 (digestOf 0xbb) 0)])).any
      (fun replica => replica.restarted.isSome &&
        decide (replica.1.lastStableCheckpoint = 2)) = true := by
    decide +kernel
  rcases RecordReplica.exists_run computed with ⟨replica, reached, passes⟩
  rcases (Bool.and_eq_true _ _).mp passes with ⟨restarts, stable⟩
  rcases Option.isSome_iff_exists.mp restarts with ⟨next, restarted⟩
  have ok : replicaStep replica.stored .restart = some next.stored := by
    rw [replica.restart_stored, restarted]
    rfl
  obtain ⟨sameStable, above, _⟩ := recovery_agrees topology.fresh_started
    reached ((replicaStep_restart_of_run reached).mpr ok)
  have stableTwo : replica.stored.lastStableCheckpoint = 2 :=
    of_decide_eq_true stable
  exact ⟨replica.stored, next.stored, reached, sameStable, stableTwo,
    (above 0 5 (by rw [stableTwo]; decide)).2.2.2⟩

end SmallRun

end SovereignLattice
