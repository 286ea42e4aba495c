import SovereignLattice.Foundations.Runs
import SovereignLattice.Replica.Replay

/-!
# A replica over time

A replica handles messages and may crash between two calls; it restarts from
its own log with the keys that it had.  All file operations succeed here, so
the log is always a whole number of records.
-/

namespace SovereignLattice

variable [Curve]

inductive ReplicaEvent where
  | deliver (msg : PbftMessage)
  | restart

/-- One event; a restart that recovery refuses has no next state. -/
def replicaStep (state : PbftState) : ReplicaEvent → Option PbftState
  | .deliver msg => some (state.handleMessage msg .durable).2
  | .restart =>
      (newWithWalPath state.totalNodes state.publicKeys state.masterPublicKey
        state.wal).toOption

/-- The constructor's checks accept the fields of a topology again. -/
theorem Topology.new_self (topology : Topology) :
    Topology.new topology.totalNodes topology.publicKeys
      topology.masterPublicKey = .ok topology := by
  obtain ⟨totalNodes, f, quorumSize, registeredNodes, publicKeys,
    masterPublicKey, shape, quorum, registered, keys⟩ := topology
  subst shape quorum registered
  have faults : (3 * f + 1 - 1) / 3 = f := by omega
  have nonzero : ¬ 3 * f + 1 = 0 := by omega
  have shape : ¬ 3 * f + 1 ≠ 3 * ((3 * f + 1 - 1) / 3) + 1 := by omega
  rw [Topology.new]
  rw [if_neg nonzero, dif_neg shape, dif_pos keys]
  simp only [faults]

theorem newWithWalPath_self (topology : Topology) (wal : WriteAheadLog) :
    newWithWalPath topology.totalNodes topology.publicKeys
      topology.masterPublicKey wal = topology.recover wal := by
  rw [newWithWalPath, topology.new_self]

theorem replicaStep_restart {state next : PbftState} :
    replicaStep state .restart = some next ↔
      state.toTopology.recover state.wal = .ok next := by
  rw [replicaStep]
  rw [newWithWalPath_self]
  cases state.toTopology.recover state.wal with
  | error error => simp [Except.toOption]
  | ok recovered => simp [Except.toOption]

/-! ## The start -/

/-- The state that the constructor makes from an empty log. -/
def Topology.fresh (topology : Topology) : PbftState :=
  topology.recoveredState Recovered.initial ⟨[]⟩

theorem Topology.recover_empty (topology : Topology) :
    topology.recover ⟨[]⟩ = .ok topology.fresh := by
  have empty : encodeLog [] = ([] : Bytes) := rfl
  rw [← empty, Topology.recover_encodeLog]
  exact ⟨rfl, rfl⟩

theorem Topology.fresh_started (topology : Topology) :
    newWithWalPath topology.totalNodes topology.publicKeys
      topology.masterPublicKey ⟨[]⟩ = .ok topology.fresh := by
  rw [newWithWalPath_self, topology.recover_empty]

/-- A replica started on an empty log is fresh, and later recoveries with the
same arguments use the same topology. -/
theorem fresh_of_started {totalNodes : Nat}
    {initialPublicKeys : AssocMap UInt32 G2Projective}
    {masterPublicKey : G2Projective} {initial : PbftState}
    (started : newWithWalPath totalNodes initialPublicKeys masterPublicKey
      ⟨[]⟩ = .ok initial) :
    ∃ topology : Topology, initial = topology.fresh ∧
      ∀ wal, newWithWalPath totalNodes initialPublicKeys masterPublicKey wal =
        topology.recover wal := by
  rcases newWithWalPath_eq_ok.mp started with ⟨topology, built, recovers⟩
  rw [topology.recover_empty, Except.ok.injEq] at recovers
  refine ⟨topology, recovers.symm, ?_⟩
  intro wal
  rw [newWithWalPath, built]

/-! ## One delivery -/

/-- What delivering a message does to a replica whose log holds `log`, when
every file operation succeeds. -/
inductive Delivered (state : PbftState) (log : List Record)
    (msg : PbftMessage) :
    Except PbftError Response → PbftState → List Record → Prop
  | rejected (error : PbftError) :
      Delivered state log msg (.error error) state log
  | obsolete : Delivered state log msg (.ok .checkpointObsolete) state log
  | accepted (response : Response) (staged : PbftState)
      (authenticated : state.Authenticated msg)
      (newer : msg.phase = .checkpoint → state.lastStableCheckpoint < msg.seq)
      (stages : PbftState.Stages state msg response staged)
      (unstable : response ≠ .checkpointStabilized) :
      Delivered state log msg (.ok response)
        { staged with wal := ⟨encodeLog (log ++ [msg.toRecord])⟩ }
        (log ++ [msg.toRecord])
  | stabilized (staged : PbftState)
      (authenticated : state.Authenticated msg)
      (newer : state.lastStableCheckpoint < msg.seq)
      (stages : PbftState.Stages state msg .checkpointStabilized staged) :
      Delivered state log msg (.ok .checkpointStabilized)
        { staged with
          wal := ⟨encodeLog (compact msg.seq (log ++ [msg.toRecord]))⟩ }
        (compact msg.seq (log ++ [msg.toRecord]))

theorem handleMessage_delivered {state : PbftState} {log : List Record}
    (file : state.wal.file = encodeLog log) (msg : PbftMessage) :
    ∃ nextLog, Delivered state log msg (state.handleMessage msg .durable).1
      (state.handleMessage msg .durable).2 nextLog := by
  rcases state.exists_outcome msg .durable with ⟨answer, next, handled, outcome⟩
  simp only [handled]
  have appended :
      state.wal.file ++ msg.toRecord.encode =
        encodeLog (log ++ [msg.toRecord]) := by
    rw [encodeLog_append, encodeLog_singleton, file]
  have pruning := pruneBytes_encodeLog msg.seq (log ++ [msg.toRecord])
  cases outcome with
  | unavailable failed => exact ⟨log, .rejected _⟩
  | rejected error notAppend notPrune => exact ⟨log, .rejected error⟩
  | obsolete phase old => exact ⟨log, .obsolete⟩
  | appendFailed written failed => cases failed
  | accepted response staged running authenticated newer stages unstable =>
      rw [appended]
      exact ⟨_, .accepted response staged authenticated newer stages unstable⟩
  | stabilized staged image running authenticated newer stages pruned =>
      rw [appended, pruning] at pruned
      cases pruned
      exact ⟨_, .stabilized staged authenticated newer stages⟩
  | pruneFailed staged wal authenticated newer stages cause =>
      rw [appended, pruning] at cause
      rcases cause with notSynced | ⟨error, failed⟩
      · exact absurd rfl notSynced
      · cases failed

end SovereignLattice
