import SovereignLattice.Replica.Machine

/-!
# A replica with a list of records for a log

The same replica, with the bytes of its log replaced by the records that they
encode.  Storing the log as bytes simulates it step by step, so runs can be
computed and argued about on records.
-/

namespace SovereignLattice

variable [Curve]

/-- A replica state, whose own log is not looked at, and its records. -/
abbrev RecordReplica : Type :=
  PbftState × List Record

/-- The replica whose log file encodes the records. -/
def RecordReplica.stored (replica : RecordReplica) : PbftState :=
  { replica.1 with wal := ⟨encodeLog replica.2⟩ }

/-- `handleMessage` with a list of records for a log. -/
def RecordReplica.handle (replica : RecordReplica) (msg : PbftMessage) :
    Except PbftError Response × RecordReplica :=
  if replica.1.walFailed then
    (.error .walUnavailable, replica)
  else if registered : msg.senderId ∈ replica.1.registeredNodes then
    let pk := replica.1.publicKeyOf msg.senderId registered
    if !verifyBlsSignature msg.canonicalBytes msg.signature pk then
      (.error .cryptoAuthFailed, replica)
    else if msg.phase = .checkpoint ∧
        msg.seq ≤ replica.1.lastStableCheckpoint then
      (.ok .checkpointObsolete, replica)
    else
      match replica.1.stage msg with
      | (.error error, _) => (.error error, replica)
      | (.ok response, staged) =>
          if response = .checkpointStabilized then
            (.ok response,
              (staged, compact msg.seq (replica.2 ++ [msg.toRecord])))
          else
            (.ok response, (staged, replica.2 ++ [msg.toRecord]))
  else
    (.error .authFailed, replica)

def RecordReplica.restarted (replica : RecordReplica) : Option RecordReplica :=
  let recovered := replica.1.toTopology.replayAll replica.2
  if recovered.recoveryError then
    none
  else
    some (replica.1.toTopology.recoveredState recovered ⟨[]⟩, replica.2)

def recordStep (replica : RecordReplica) : ReplicaEvent → Option RecordReplica
  | .deliver msg => some (replica.handle msg).2
  | .restart => replica.restarted

namespace RecordReplica

theorem stage_stored (replica : RecordReplica) (msg : PbftMessage) :
    replica.stored.stage msg =
      ((replica.1.stage msg).1,
        stored ((replica.1.stage msg).2, replica.2)) := by
  obtain ⟨state, log⟩ := replica
  unfold stored PbftState.stage
  dsimp only
  cases msg.phase with
  | prePrepare =>
      simp only [PbftState.onPrePrepare]
      split_ifs <;> rfl
  | prepare =>
      simp only [PbftState.onPrepare]
      split_ifs <;> rfl
  | commit =>
      simp only [PbftState.onCommit]
      split_ifs <;> rfl
  | viewChange =>
      simp only [PbftState.onViewChange, PbftState.enterNewView]
      split_ifs
      · rfl
      · rfl
      · cases highestViewChangeSlot _ with
        | none => rfl
        | some slot =>
            dsimp only
            split_ifs <;> rfl
      · rfl
  | checkpoint =>
      simp only [PbftState.onCheckpoint]
      split_ifs <;> rfl

/-- Appending and compacting records is what `persist` does to the file. -/
theorem persist_stored (replica : RecordReplica) {msg : PbftMessage}
    {response : Response} {staged : PbftState}
    (accepted : replica.1.stage msg = (.ok response, staged)) :
    PbftState.persist replica.stored.snapshot msg .durable response
        (stored (staged, replica.2)) =
      (.ok response,
        stored (staged,
          if response = .checkpointStabilized then
            compact msg.seq (replica.2 ++ [msg.toRecord])
          else
            replica.2 ++ [msg.toRecord])) := by
  have appended :
      encodeLog replica.2 ++ msg.toRecord.encode =
        encodeLog (replica.2 ++ [msg.toRecord]) := by
    rw [encodeLog_append, encodeLog_singleton]
  rw [PbftState.persist]
  simp only [WalIo.durable, WriteAheadLog.appendEntry, stored, appended]
  by_cases stable : response = .checkpointStabilized
  · subst stable
    have phase := (PbftState.stage_ok accepted).checkpoint_of_stabilized
    rw [if_pos ⟨phase, rfl⟩, if_pos rfl]
    simp only [WriteAheadLog.pruneBefore, pruneBytes_encodeLog]
    rfl
  · rw [if_neg fun both => stable both.2, if_neg stable]

theorem handle_stored (replica : RecordReplica) (msg : PbftMessage) :
    replica.stored.handleMessage msg .durable =
      ((replica.handle msg).1, (replica.handle msg).2.stored) := by
  have closure := replica.stage_stored msg
  have shell := PbftState.stage_sameShell replica.stored msg
  have rolledBack := PbftState.restoreState_snapshot shell
  rw [closure] at rolledBack
  unfold PbftState.handleMessage handle
  have sameFailed : replica.stored.walFailed = replica.1.walFailed := rfl
  have sameNodes : replica.stored.registeredNodes =
    replica.1.registeredNodes := rfl
  rw [sameFailed, closure]
  by_cases failed : replica.1.walFailed = true
  · rw [if_pos failed, if_pos failed]
  rw [if_neg failed, if_neg failed]
  by_cases registered : msg.senderId ∈ replica.1.registeredNodes
  · rw [dif_pos (by exact registered), dif_pos registered]
    dsimp only
    by_cases forged : (!verifyBlsSignature msg.canonicalBytes msg.signature
        (replica.1.publicKeyOf msg.senderId registered)) = true
    · rw [if_pos (by exact forged), if_pos forged]
    rw [if_neg (by exact forged), if_neg forged]
    by_cases obsolete : msg.phase = .checkpoint ∧
        msg.seq ≤ replica.1.lastStableCheckpoint
    · rw [if_pos (by exact obsolete), if_pos obsolete]
    rw [if_neg (by exact obsolete), if_neg obsolete]
    cases outcome : replica.1.stage msg with
    | mk answer staged =>
        rw [outcome] at rolledBack
        cases answer with
        | error error =>
            dsimp only at rolledBack ⊢
            rw [rolledBack]
        | ok response =>
            dsimp only
            rw [replica.persist_stored outcome]
            by_cases stable : response = .checkpointStabilized
            · rw [if_pos stable, if_pos stable]
            · rw [if_neg stable, if_neg stable]
  · rw [dif_neg (by exact registered), dif_neg registered]

theorem restart_stored (replica : RecordReplica) :
    replicaStep replica.stored .restart = replica.restarted.map stored := by
  apply Option.ext
  intro next
  rw [replicaStep_restart]
  have file : replica.stored.wal = ⟨encodeLog replica.2⟩ := rfl
  have sameTopology : replica.stored.toTopology = replica.1.toTopology := rfl
  rw [file, sameTopology, Topology.recover_encodeLog, Option.map_eq_some_iff]
  unfold restarted
  dsimp only
  cases failed : (replica.1.toTopology.replayAll replica.2).recoveryError with
  | true => simp
  | false =>
      simp only [Bool.false_eq_true, if_false, true_and, Option.some.injEq]
      constructor
      · rintro rfl
        exact ⟨_, rfl, rfl⟩
      · intro answer
        rcases answer with ⟨_, rfl, rfl⟩
        rfl

/-- Storing the log as bytes simulates the record replica. -/
theorem replicaStep_stored (replica : RecordReplica) (event : ReplicaEvent) :
    replicaStep replica.stored event =
      (recordStep replica event).map stored := by
  cases event with
  | deliver msg =>
      rw [replicaStep, handle_stored]
      rfl
  | restart => exact replica.restart_stored

theorem run_stored (replica : RecordReplica) (events : List ReplicaEvent) :
    run replicaStep replica.stored events =
      (run recordStep replica events).map stored :=
  run_represent replicaStep_stored replica events

end RecordReplica

/-- A check that a computed run passes holds of a state that the replica
reaches. -/
theorem RecordReplica.exists_run {topology : Topology}
    {events : List ReplicaEvent} {check : RecordReplica → Bool}
    (computed :
      (run recordStep (topology.fresh, []) events).any check = true) :
    ∃ replica : RecordReplica,
      run replicaStep topology.fresh events = some replica.stored ∧
        check replica = true := by
  cases ran : run recordStep (topology.fresh, []) events with
  | none => simp [ran] at computed
  | some replica =>
  rw [ran, Option.any_some] at computed
  refine ⟨replica, ?_, computed⟩
  have stored : RecordReplica.stored (topology.fresh, []) = topology.fresh := rfl
  rw [← stored, run_stored, ran]
  rfl

/-- A condition on deliveries, checked along a computed run. -/
theorem RecordReplica.along_of_check {topology : Topology}
    {events : List ReplicaEvent} {check : RecordReplica → PbftMessage → Bool}
    {condition : PbftState → PbftMessage → Prop}
    (sound : ∀ replica msg, check replica msg = true →
      condition replica.stored msg)
    (computed : checkAlong recordStep
      (fun replica event =>
        match event with
        | .deliver msg => check replica msg
        | .restart => true)
      (topology.fresh, []) events = true) :
    Along replicaStep
      (fun state event => ∀ msg, event = .deliver msg → condition state msg)
      topology.fresh events := by
  have along : Along recordStep
      (fun replica event => ∀ msg, event = .deliver msg →
        condition replica.stored msg) (topology.fresh, []) events := by
    apply along_of_checkAlong ?_ computed
    rintro replica event checked msg rfl
    exact sound replica msg checked
  have represented : Along replicaStep
      (fun state event => ∀ msg, event = .deliver msg → condition state msg)
      (RecordReplica.stored (topology.fresh, [])) events :=
    along_represent replicaStep_stored along
  exact represented

end SovereignLattice
