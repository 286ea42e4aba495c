import SovereignLattice.Replica.Growth
import SovereignLattice.Replica.Tracking
import SovereignLattice.Replica.VoteBacking

/-!
# A replica whose file operations may fail

A failed append leaves any part of a record in the log and a failed compaction
leaves the old file or the new one; the replica then refuses every message until
it is restarted.  What it holds in memory is what some list of records says, and
the records of the file never say less.
-/

namespace SovereignLattice

section FailingLog

variable [Curve]

/-! ## What a call does to the file -/

namespace PbftState

/-- A call changes nothing, or it persists a message that the closure has accepted. -/
theorem handleMessage_unchanged_or_persists (state : PbftState) (msg : PbftMessage)
    (io : WalIo) :
    (state.handleMessage msg io).2 = state ∨
      state.walFailed = false ∧ state.Authenticated msg ∧
        (msg.phase = .checkpoint → state.lastStableCheckpoint < msg.seq) ∧
        ∃ response staged, state.stage msg = (.ok response, staged) ∧
          state.handleMessage msg io =
            persist state.snapshot msg io response staged := by
  rw [handleMessage]
  cases running : state.walFailed with
  | true => exact Or.inl rfl
  | false =>
      rw [if_neg (by decide)]
      by_cases registered : msg.senderId ∈ state.registeredNodes
      · rw [dif_pos registered]
        dsimp only
        split_ifs with forged obsolete
        · exact Or.inl rfl
        · exact Or.inl rfl
        · rw [Bool.not_eq_true, Bool.not_eq_false'] at forged
          have authenticated : state.Authenticated msg :=
            ⟨registered, _, (Option.some_get _).symm, forged⟩
          have shell := stage_sameShell state msg
          cases outcome : state.stage msg with
          | mk answer staged =>
              rw [outcome] at shell
              cases answer with
              | error error => exact Or.inl (restoreState_snapshot shell)
              | ok response =>
                  refine Or.inr ⟨rfl, authenticated, ?_, response, staged, rfl, rfl⟩
                  intro phase
                  have notOld : ¬ msg.seq ≤ state.lastStableCheckpoint :=
                    fun old => obsolete ⟨phase, old⟩
                  grind
      · rw [dif_neg registered]
        exact Or.inl rfl

/-- What persisting an accepted message leaves, when the file held `log`: the state,
the records that its memory reflects, the records of the file and the bytes after
them. -/
inductive Persisted (state : PbftState) (log : List Record) (msg : PbftMessage) :
    PbftState → List Record → List Record → Bytes → Prop
  | appended (response : Response) (staged : PbftState)
      (stages : Stages state msg response staged)
      (unstable : response ≠ .checkpointStabilized) :
      Persisted state log msg
        { staged with wal := ⟨encodeLog (log ++ [msg.toRecord])⟩ }
        (log ++ [msg.toRecord]) (log ++ [msg.toRecord]) []
  | compacted (staged : PbftState)
      (stages : Stages state msg .checkpointStabilized staged) :
      Persisted state log msg
        { staged with
          wal := ⟨encodeLog (compact msg.seq (log ++ [msg.toRecord]))⟩ }
        (compact msg.seq (log ++ [msg.toRecord]))
        (compact msg.seq (log ++ [msg.toRecord])) []
  | torn (response : Response) (staged : PbftState) (written : Nat)
      (stages : Stages state msg response staged) (short : written < recordLen) :
      Persisted state log msg (state.appendFailed msg written) log log
        (msg.toRecord.encode.take written)
  | unsynced (response : Response) (staged : PbftState) (written : Nat)
      (stages : Stages state msg response staged) (long : recordLen ≤ written) :
      Persisted state log msg (state.appendFailed msg written) log
        (log ++ [msg.toRecord]) []
  | uncompacted (staged : PbftState)
      (stages : Stages state msg .checkpointStabilized staged) :
      Persisted state log msg
        { staged with
          wal := ⟨encodeLog (log ++ [msg.toRecord])⟩
          walFailed := true }
        (compact msg.seq (log ++ [msg.toRecord])) (log ++ [msg.toRecord]) []
  | renamed (staged : PbftState)
      (stages : Stages state msg .checkpointStabilized staged) :
      Persisted state log msg
        { staged with
          wal := ⟨encodeLog (compact msg.seq (log ++ [msg.toRecord]))⟩
          walFailed := true }
        (compact msg.seq (log ++ [msg.toRecord]))
        (compact msg.seq (log ++ [msg.toRecord])) []

/-- Persisting ends in one of these ways, whatever the file operations answer. -/
theorem persist_persisted {state staged : PbftState} {log : List Record}
    {msg : PbftMessage} {response : Response} (io : WalIo)
    (file : state.wal.file = encodeLog log)
    (accepted : state.stage msg = (.ok response, staged)) :
    ∃ memory disk torn, Persisted state log msg
      (persist state.snapshot msg io response staged).2 memory disk torn := by
  have stages := stage_ok accepted
  have shell := stage_sameShell state msg
  rw [accepted] at shell
  have sameWal : staged.wal = state.wal := shell.2.1
  have whole : state.wal.file ++ msg.toRecord.encode =
      encodeLog (log ++ [msg.toRecord]) := by
    rw [encodeLog_append, encodeLog_singleton, file]
  have pruning : pruneBytes msg.seq (encodeLog (log ++ [msg.toRecord])) =
      .ok (encodeLog (compact msg.seq (log ++ [msg.toRecord]))) :=
    pruneBytes_encodeLog msg.seq (log ++ [msg.toRecord])
  unfold persist
  cases io.append with
  | failed written =>
      simp only [WriteAheadLog.appendEntry, sameWal]
      rw [restoreState_wal shell]
      by_cases short : written < recordLen
      · exact ⟨_, _, _, .torn response staged written stages short⟩
      · exact ⟨_, _, _,
          .unsynced response staged written stages (Nat.not_lt.mp short)⟩
  | synced =>
      simp only [WriteAheadLog.appendEntry, sameWal, whole]
      by_cases stable : response = .checkpointStabilized
      · subst stable
        rw [if_pos ⟨stages.checkpoint_of_stabilized, rfl⟩]
        unfold WriteAheadLog.pruneBefore
        simp only [pruning]
        cases io.prune with
        | synced => exact ⟨_, _, _, .compacted staged stages⟩
        | failed moved =>
            cases moved with
            | true => exact ⟨_, _, _, .renamed staged stages⟩
            | false => exact ⟨_, _, _, .uncompacted staged stages⟩
      · rw [if_neg fun both => stable both.2]
        exact ⟨_, _, _, .appended response staged stages stable⟩

end PbftState

/-! ## Memory and file -/

/-- One list of records says nothing that the other does not say. -/
structure RecordsWithin (log other : List Record) : Prop where
  proposals : proposalsIn log ⊆ proposalsIn other
  signers : ∀ phase key, signersIn phase log key ⊆ signersIn phase other key

namespace RecordsWithin

theorem refl (log : List Record) : RecordsWithin log log :=
  ⟨Finset.Subset.refl _, fun _ _ => Finset.Subset.refl _⟩

theorem concat (log : List Record) (record : Record) :
    RecordsWithin log (log ++ [record]) :=
  ⟨proposalsIn_subset_concat log record, signersIn_subset_concat⟩

theorem compact (minSeq : UInt64) (log : List Record) :
    RecordsWithin (compact minSeq log) log where
  proposals _ member := (mem_proposalsIn_compact.mp member).1
  signers := signersIn_compact_subset

theorem quorum {topology : Topology} {log other : List Record} {key : ProposalKey}
    (within : RecordsWithin log other)
    (quorum : topology.CheckpointQuorumIn log key) :
    topology.CheckpointQuorumIn other key :=
  quorum.trans (Finset.card_le_card (within.signers .checkpoint key))

end RecordsWithin

/-- The memory of the replica reflects one list of records, the file starts with
another one that says at least as much, and while the replica is running the two are
the same and the file holds nothing else. -/
structure OnDisk (topology : Topology) (state : PbftState)
    (memory disk : List Record) (torn : Bytes) : Prop where
  tracks : Tracks topology { state with wal := ⟨encodeLog memory⟩ } memory
  file : state.wal.file = encodeLog disk ++ torn
  wellFormed : topology.WellFormed disk
  short : torn.length < recordLen
  behind : RecordsWithin memory disk
  running : state.walFailed = false → disk = memory ∧ torn = []

theorem Tracks.withWalFailed {topology : Topology} {state : PbftState}
    {log : List Record} (tracks : Tracks topology state log) (failed : Bool) :
    Tracks topology { state with walFailed := failed } log :=
  { tracks with }

/-- A tracking replica that can write is on disk as it is in memory. -/
theorem Tracks.onDisk {topology : Topology} {state : PbftState} {log : List Record}
    (tracks : Tracks topology state log) : OnDisk topology state log log [] where
  tracks := by
    rw [← tracks.file]
    exact tracks
  file := by rw [tracks.file, List.append_nil]
  wellFormed := tracks.wellFormed
  short := by decide
  behind := .refl log
  running _ := ⟨rfl, rfl⟩

namespace OnDisk

variable {topology : Topology} {state next : PbftState}
variable {memory disk : List Record} {torn : Bytes}

theorem tracks_of_running (onDisk : OnDisk topology state memory disk torn)
    (running : state.walFailed = false) : Tracks topology state memory := by
  rcases onDisk.running running with ⟨rfl, rfl⟩
  have same : state.wal = ⟨encodeLog disk⟩ := by
    rw [← List.append_nil (encodeLog disk), ← onDisk.file]
  have tracks := onDisk.tracks
  rwa [← same] at tracks

theorem restarted (onDisk : OnDisk topology state memory disk torn)
    (ok : topology.recover state.wal = .ok next) :
    topology.Reflects disk (topology.replayAll disk) ∧
      next = topology.recoveredState (topology.replayAll disk)
        ⟨encodeLog disk⟩ := by
  rcases Topology.exists_records_of_recover ok with ⟨records, whole⟩
  have file := onDisk.file
  rw [whole] at file
  rcases prefix_of_encodeLog_append file.symm with ⟨more, rfl⟩
  rw [encodeLog_append] at file
  have rest : encodeLog more = torn := List.append_cancel_left file
  have nothing : more = [] := by
    cases more with
    | nil => rfl
    | cons record later =>
        have short := onDisk.short
        rw [← rest, encodeLog_cons, List.length_append, length_encode] at short
        omega
  subst nothing
  rw [List.append_nil] at whole
  rw [whole] at ok
  rcases Topology.recover_encodeLog.mp ok with ⟨clean, rfl⟩
  exact ⟨Topology.reflects_of_clean clean, rfl⟩

theorem onDisk_restarted (onDisk : OnDisk topology state memory disk torn)
    (ok : topology.recover state.wal = .ok next) :
    OnDisk topology next disk disk [] := by
  rcases onDisk.restarted ok with ⟨reflects, rfl⟩
  exact (reflects.tracks onDisk.wellFormed).onDisk

/-- The logs after a persisted message.  What holds of a list of records, survives
the record of the message and survives compaction at a checkpoint with a quorum
holds of both. -/
theorem persisted {msg : PbftMessage} {log memory disk : List Record} {torn : Bytes}
    {holds : List Record → Prop} (tracks : Tracks topology state log)
    (authenticated : state.Authenticated msg)
    (newer : msg.phase = .checkpoint → state.lastStableCheckpoint < msg.seq)
    (concat : ∀ response staged, PbftState.Stages state msg response staged →
      holds log → holds (log ++ [msg.toRecord]))
    (compacts : ∀ records view seq digest, 0 < seq →
      topology.CheckpointQuorumIn records (view, seq, digest) → holds records →
        holds (compact seq records))
    (before : holds log)
    (persisted : PbftState.Persisted state log msg next memory disk torn) :
    OnDisk topology next memory disk torn ∧ holds memory ∧ holds disk := by
  have concatenated : ∀ {response : Response} {staged : PbftState},
      PbftState.Stages state msg response staged →
        topology.WellFormed (log ++ [msg.toRecord]) := fun stages =>
    tracks.wellFormed.concat (tracks.justified authenticated stages)
  have quorum : ∀ {staged : PbftState},
      PbftState.Stages state msg .checkpointStabilized staged →
        0 < msg.seq ∧ topology.CheckpointQuorumIn (log ++ [msg.toRecord])
          (msg.view, msg.seq, msg.digest) := by
    intro staged stages
    obtain ⟨phase, _, quorum, _⟩ := stages.stabilized_inv
    have above := newer phase
    refine ⟨UInt64.lt_of_le_of_lt UInt64.zero_le above, ?_⟩
    have samePhase : msg.toRecord.phase = Phase.checkpoint.toU8 :=
      congrArg Phase.toU8 phase
    have counted := len_withVote samePhase
      (tracks.follows.checkpointVotes msg.toRecord.proposalKey
        (survives_of_lt above))
    rw [tracks.quorumSize_eq] at quorum
    exact quorum.trans counted.le
  cases persisted with
  | appended response staged stages unstable =>
      have after := concat _ _ stages before
      exact ⟨(tracks.accepted authenticated newer stages unstable).onDisk, after,
        after⟩
  | compacted staged stages =>
      rcases quorum stages with ⟨positive, complete⟩
      have after := compacts _ _ _ _ positive complete (concat _ _ stages before)
      exact ⟨(tracks.stabilized authenticated (newer stages.stabilized_inv.1)
        stages).onDisk, after, after⟩
  | torn response staged written stages short =>
      have bytes : (msg.toRecord.encode.take written).length < recordLen := by
        rw [List.length_take]
        omega
      have onDisk := tracks.onDisk
      refine ⟨⟨onDisk.tracks.withWalFailed true, ?_, tracks.wellFormed, bytes,
        .refl log, fun running => absurd running Bool.true_eq_false_eq_False⟩, before,
        before⟩
      rw [PbftState.appendFailed, tracks.file]
  | unsynced response staged written stages long =>
      have onDisk := tracks.onDisk
      refine ⟨⟨onDisk.tracks.withWalFailed true, ?_, concatenated stages, by decide,
        .concat log _, fun running => absurd running Bool.true_eq_false_eq_False⟩,
        before, concat _ _ stages before⟩
      have all : msg.toRecord.encode.take written = msg.toRecord.encode :=
        List.take_of_length_le (by rw [length_encode]; exact long)
      rw [PbftState.appendFailed, tracks.file, all, encodeLog_append,
        encodeLog_singleton, List.append_nil]
  | uncompacted staged stages =>
      rcases quorum stages with ⟨positive, complete⟩
      have appended := concat _ _ stages before
      have stabilized := tracks.stabilized authenticated
        (newer stages.stabilized_inv.1) stages
      exact ⟨⟨stabilized.withWalFailed true, (List.append_nil _).symm,
        concatenated stages, by decide, .compact _ _,
        fun running => absurd running Bool.true_eq_false_eq_False⟩,
        compacts _ _ _ _ positive complete appended, appended⟩
  | renamed staged stages =>
      rcases quorum stages with ⟨positive, complete⟩
      have after := compacts _ _ _ _ positive complete (concat _ _ stages before)
      have stabilized := tracks.stabilized authenticated
        (newer stages.stabilized_inv.1) stages
      exact ⟨⟨stabilized.withWalFailed true, (List.append_nil _).symm,
        stabilized.wellFormed, by decide, .refl _,
        fun running => absurd running Bool.true_eq_false_eq_False⟩, after, after⟩

end OnDisk

/-! ## Runs -/

/-- Both lists of records of a replica after an event. -/
theorem OnDisk.step {topology : Topology} {state next : PbftState}
    {memory disk : List Record} {torn : Bytes} {holds : List Record → Prop}
    {event : LifeEvent} (onDisk : OnDisk topology state memory disk torn)
    (concat : ∀ msg io response staged, event = .handle msg io →
      state.Authenticated msg → PbftState.Stages state msg response staged →
        holds memory → holds (memory ++ [msg.toRecord]))
    (compacts : ∀ records view seq digest, 0 < seq →
      topology.CheckpointQuorumIn records (view, seq, digest) → holds records →
        holds (compact seq records))
    (inMemory : holds memory) (inFile : holds disk)
    (stepped : lifeStep state event = some next) :
    ∃ memory disk torn, OnDisk topology next memory disk torn ∧ holds memory ∧
      holds disk := by
  cases event with
  | handle msg io =>
      rw [lifeStep, Option.some.injEq] at stepped
      rcases state.handleMessage_unchanged_or_persists msg io with
        same | ⟨running, authenticated, newer, response, staged, accepted, ends⟩
      · rw [same] at stepped
        subst stepped
        exact ⟨memory, disk, torn, onDisk, inMemory, inFile⟩
      · have tracks := onDisk.tracks_of_running running
        have file : state.wal.file = encodeLog memory := by rw [tracks.file]
        rcases PbftState.persist_persisted io file accepted with
          ⟨memory, disk, torn, persisted⟩
        rw [← ends, stepped] at persisted
        exact ⟨memory, disk, torn, OnDisk.persisted tracks authenticated newer
          (fun response staged => concat msg io response staged rfl authenticated)
          compacts inMemory persisted⟩
  | restart =>
      have sameTopology : state.toTopology = topology := onDisk.tracks.sameTopology
      have ok := replicaStep_restart.mp stepped
      rw [sameTopology] at ok
      exact ⟨disk, disk, [], onDisk.onDisk_restarted ok, inFile, inFile⟩

/-- What survives every record and every compaction at a checkpoint with a quorum is
kept on disk from one point of a run to every later one. -/
theorem onDisk_of_run {topology : Topology} {state final : PbftState}
    {memory disk : List Record} {torn : Bytes} {holds : List Record → Prop}
    {events : List LifeEvent} (onDisk : OnDisk topology state memory disk torn)
    (concat : ∀ records record, holds records → holds (records ++ [record]))
    (compacts : ∀ records view seq digest, 0 < seq →
      topology.CheckpointQuorumIn records (view, seq, digest) → holds records →
        holds (compact seq records))
    (inMemory : holds memory) (inFile : holds disk)
    (reached : run lifeStep state events = some final) :
    ∃ memory disk torn, OnDisk topology final memory disk torn ∧ holds memory ∧
      holds disk := by
  have preserved : ∀ state event next,
      (∃ memory disk torn, OnDisk topology state memory disk torn ∧ holds memory ∧
        holds disk) →
      lifeStep state event = some next →
        ∃ memory disk torn, OnDisk topology next memory disk torn ∧ holds memory ∧
          holds disk := by
    rintro state event next ⟨memory, disk, torn, onDisk, inMemory, inFile⟩ stepped
    exact onDisk.step (fun msg _ _ _ _ _ _ => concat memory msg.toRecord) compacts
      inMemory inFile stepped
  exact invariant_of_run preserved
    ⟨memory, disk, torn, onDisk, inMemory, inFile⟩ reached

def AnyRecords (_ : List Record) : Prop := True

theorem exists_onDisk_of_run {topology : Topology} {final : PbftState}
    {events : List LifeEvent}
    (reached : run lifeStep topology.fresh events = some final) :
    ∃ memory disk torn, OnDisk topology final memory disk torn := by
  have start : AnyRecords [] := trivial
  have kept : ∀ records record, AnyRecords records →
      AnyRecords (records ++ [record]) := fun _ _ _ => trivial
  have compacts : ∀ records view seq digest, 0 < seq →
      topology.CheckpointQuorumIn records (view, seq, digest) → AnyRecords records →
        AnyRecords (compact seq records) := fun _ _ _ _ _ _ _ => trivial
  rcases onDisk_of_run (tracks_fresh topology).onDisk kept compacts start start
    reached with ⟨memory, disk, torn, onDisk, _⟩
  exact ⟨memory, disk, torn, onDisk⟩

/-! ## What a log has settled -/

/-- The records hold the quorum of a checkpoint at or above the sequence. -/
def Topology.Covers (topology : Topology) (seq : UInt64) (log : List Record) : Prop :=
  ∃ stable, topology.CheckpointQuorumIn log stable ∧ 0 < stable.2.1 ∧
    seq ≤ stable.2.1

/-- The records hold a quorum of a phase for the key, or a checkpoint covers its
sequence. -/
def Topology.Settled (topology : Topology) (phase : Phase) (key : ProposalKey)
    (log : List Record) : Prop :=
  topology.quorumSize ≤ (signersIn phase log key).card ∨ topology.Covers key.2.1 log

section Settled

variable {topology : Topology} {phase : Phase} {key : ProposalKey}
variable {log other : List Record} {view seq bound : UInt64} {digest : Digest}

theorem Topology.Covers.within (covers : topology.Covers bound log)
    (within : RecordsWithin log other) : topology.Covers bound other := by
  rcases covers with ⟨stable, quorum, above⟩
  exact ⟨stable, within.quorum quorum, above⟩

/-- Compaction at a checkpoint with a quorum keeps the quorum of that checkpoint and
of every later one. -/
theorem Topology.Covers.compact (covers : topology.Covers bound log)
    (positive : 0 < seq)
    (complete : topology.CheckpointQuorumIn log (view, seq, digest)) :
    topology.Covers bound (compact seq log) := by
  have keepsStable : ∀ stable : ProposalKey,
      topology.CheckpointQuorumIn log stable → seq ≤ stable.2.1 →
        topology.CheckpointQuorumIn (SovereignLattice.compact seq log) stable := by
    intro stable quorum kept
    rw [Topology.CheckpointQuorumIn, signersIn_compact kept]
    exact quorum
  rcases covers with ⟨stable, quorum, above, covered⟩
  by_cases kept : seq ≤ stable.2.1
  · exact ⟨stable, keepsStable stable quorum kept, above, covered⟩
  · have below : bound ≤ seq :=
      UInt64.le_trans covered (UInt64.le_of_lt (UInt64.not_le.mp kept))
    exact ⟨(view, seq, digest), keepsStable _ complete (UInt64.le_refl _), positive,
      below⟩

theorem Topology.Settled.within (settled : topology.Settled phase key log)
    (within : RecordsWithin log other) : topology.Settled phase key other := by
  rcases settled with quorum | covers
  · exact Or.inl (quorum.trans (Finset.card_le_card (within.signers phase key)))
  · exact Or.inr (covers.within within)

/-- Compaction keeps the quorum of the key, or its checkpoint covers the key. -/
theorem Topology.Settled.compact (settled : topology.Settled phase key log)
    (positive : 0 < seq)
    (complete : topology.CheckpointQuorumIn log (view, seq, digest)) :
    topology.Settled phase key (compact seq log) := by
  by_cases kept : seq ≤ key.2.1
  · rcases settled with quorum | covers
    · left
      rw [signersIn_compact kept]
      exact quorum
    · exact Or.inr (covers.compact positive complete)
  · have covered : topology.Covers key.2.1 log :=
      ⟨_, complete, positive, UInt64.le_of_lt (UInt64.not_le.mp kept)⟩
    exact Or.inr (covered.compact positive complete)

end Settled

/-- The replica remembers a committed digest, or its stable checkpoint covers the
slot. -/
def PbftState.CommittedOrCovered (state : PbftState) (slot : UInt64 × UInt64)
    (digest : Digest) : Prop :=
  state.committedDigest.get? slot = some digest ∨
    0 < state.lastStableCheckpoint ∧ slot.2 ≤ state.lastStableCheckpoint

/-- The replica remembers a prepared digest, or its stable checkpoint covers the
slot. -/
def PbftState.PreparedOrCovered (state : PbftState) (slot : UInt64 × UInt64)
    (digest : Digest) : Prop :=
  (∃ cert, state.preparedCertificates.get? slot = some cert ∧
      cert.digest = digest) ∨
    0 < state.lastStableCheckpoint ∧ slot.2 ≤ state.lastStableCheckpoint

namespace Tracks

variable {topology : Topology} {state : PbftState} {log : List Record}
variable {view seq : UInt64} {digest : Digest}

theorem covers_iff (tracks : Tracks topology state log) :
    topology.Covers seq log ↔
      0 < state.lastStableCheckpoint ∧ seq ≤ state.lastStableCheckpoint := by
  constructor
  · rintro ⟨stable, quorum, positive, covers⟩
    have below := tracks.stable.bound stable quorum
    exact ⟨UInt64.lt_of_lt_of_le positive below, UInt64.le_trans covers below⟩
  · rintro ⟨positive, covered⟩
    rcases tracks.stable.attained with zero | ⟨stable, same, quorum⟩
    · rw [zero] at positive
      exact absurd positive (UInt64.lt_irrefl 0)
    · rw [← same] at positive covered
      exact ⟨stable, quorum, positive, covered⟩

theorem survives_or_covered (state : PbftState) (seq : UInt64) :
    survives state.lastStableCheckpoint seq = true ∨
      0 < state.lastStableCheckpoint ∧ seq ≤ state.lastStableCheckpoint := by
  rw [survives]
  by_cases positive : state.lastStableCheckpoint > 0
  · by_cases above : seq > state.lastStableCheckpoint
    · left
      rw [if_pos positive, decide_eq_true_eq]
      exact above
    · exact Or.inr ⟨positive, UInt64.not_lt.mp above⟩
  · left
    rw [if_neg positive]

/-- What the replica has committed, its log has settled, and the other way round. -/
theorem committedOrCovered_iff (tracks : Tracks topology state log) :
    state.CommittedOrCovered (view, seq) digest ↔
      topology.Settled .commit (view, seq, digest) log := by
  constructor
  · rintro (committed | ⟨positive, covered⟩)
    · rcases survives_or_covered state seq with kept | ⟨positive, covered⟩
      · have present : (state.ledger.commits.get? (view, seq)).isSome := by
          rw [tracks.chain.committed_keys]
          exact Option.isSome_of_mem committed
        rcases Option.isSome_iff_exists.mp present with ⟨cert, stored⟩
        rcases tracks.chain.commit_chain view seq cert stored with
          ⟨_, _, sameDigest, votes, quorum, _⟩
        have same : cert.digest = digest :=
          Option.some.inj (sameDigest.symm.trans committed)
        rw [same, tracks.follows.commitVotes _ kept] at votes
        left
        rw [card_signersIn votes]
        exact quorum
      · exact Or.inr (tracks.covers_iff.mpr ⟨positive, covered⟩)
    · exact Or.inr (tracks.covers_iff.mpr ⟨positive, covered⟩)
  · rintro (quorum | covers)
    · rcases survives_or_covered state seq with kept | covered
      · have some : 0 < (signersIn .commit log (view, seq, digest)).card :=
          Nat.lt_of_lt_of_le topology.quorumSize_pos quorum
        rcases exists_votesIn some with ⟨sigs, votes⟩
        rw [card_signersIn votes] at quorum
        rw [← tracks.follows.commitVotes _ kept] at votes
        exact Or.inl (tracks.complete.commits_of_quorum _ sigs votes quorum).2
      · exact Or.inr covered
    · exact Or.inr (tracks.covers_iff.mp covers)

/-- What the replica has prepared, its log has settled, and the other way round. -/
theorem preparedOrCovered_iff (tracks : Tracks topology state log) :
    state.PreparedOrCovered (view, seq) digest ↔
      topology.Settled .prepare (view, seq, digest) log := by
  constructor
  · rintro (⟨cert, stored, rfl⟩ | ⟨positive, covered⟩)
    · rcases survives_or_covered state seq with kept | ⟨positive, covered⟩
      · rcases tracks.chain.prepared_chain view seq cert stored with
          ⟨_, _, _, votes, quorum, _⟩
        rw [tracks.follows.prepareVotes _ kept] at votes
        left
        rw [card_signersIn votes]
        exact quorum
      · exact Or.inr (tracks.covers_iff.mpr ⟨positive, covered⟩)
    · exact Or.inr (tracks.covers_iff.mpr ⟨positive, covered⟩)
  · rintro (quorum | covers)
    · rcases survives_or_covered state seq with kept | covered
      · have some : 0 < (signersIn .prepare log (view, seq, digest)).card :=
          Nat.lt_of_lt_of_le topology.quorumSize_pos quorum
        rcases exists_votesIn some with ⟨sigs, votes⟩
        rw [card_signersIn votes] at quorum
        rw [← tracks.follows.prepareVotes _ kept] at votes
        exact Or.inl ⟨_, tracks.complete.prepared_of_quorum _ sigs votes quorum, rfl⟩
      · exact Or.inr covered
    · exact Or.inr (tracks.covers_iff.mp covers)

end Tracks

/-- Over every run with any messages, any failures of the file operations and any
restarts: what was committed or prepared at some point stays committed or prepared
with the same digest until the stable checkpoint covers its slot, and the stable
checkpoint never falls. -/
theorem decisions_durable {totalNodes : Nat}
    {initialPublicKeys : AssocMap UInt32 G2Projective}
    {masterPublicKey : G2Projective} {initial middle final : PbftState}
    {earlier later : List LifeEvent}
    (started : newWithWalPath totalNodes initialPublicKeys masterPublicKey
      ⟨[]⟩ = .ok initial)
    (before : run lifeStep initial earlier = some middle)
    (after : run lifeStep middle later = some final) :
    middle.lastStableCheckpoint ≤ final.lastStableCheckpoint ∧
      (∀ slot digest, middle.CommittedOrCovered slot digest →
        final.CommittedOrCovered slot digest) ∧
      (∀ slot digest, middle.PreparedOrCovered slot digest →
        final.PreparedOrCovered slot digest) := by
  rcases fresh_of_started started with ⟨topology, rfl, _⟩
  rcases exists_onDisk_of_run before with ⟨memory, disk, torn, onDisk⟩
  have settles : ∀ phase key, topology.Settled phase key memory →
      ∃ log, Tracks topology { final with wal := ⟨encodeLog log⟩ } log ∧
        topology.Settled phase key log := by
    intro phase key settled
    rcases onDisk_of_run onDisk
        (fun records record settled => settled.within (.concat records record))
        (fun _ _ _ _ positive complete settled => settled.compact positive complete)
        settled (settled.within onDisk.behind) after with
      ⟨log, _, _, ended, settledAfter, _⟩
    exact ⟨log, ended.tracks, settledAfter⟩
  refine ⟨?_, ?_, ?_⟩
  · by_cases positive : 0 < middle.lastStableCheckpoint
    · have covers : topology.Covers middle.lastStableCheckpoint memory :=
        onDisk.tracks.covers_iff.mpr ⟨positive, UInt64.le_refl _⟩
      rcases onDisk_of_run onDisk
          (fun records record covers => covers.within (.concat records record))
          (fun _ _ _ _ above complete covers => covers.compact above complete)
          covers (covers.within onDisk.behind) after with
        ⟨log, _, _, ended, coversAfter, _⟩
      exact (ended.tracks.covers_iff.mp coversAfter).2
    · exact UInt64.le_trans (UInt64.not_lt.mp positive) UInt64.zero_le
  · rintro ⟨view, seq⟩ digest committed
    have settled := onDisk.tracks.committedOrCovered_iff.mp committed
    rcases settles .commit _ settled with ⟨log, tracks, settledAfter⟩
    exact tracks.committedOrCovered_iff.mpr settledAfter
  · rintro ⟨view, seq⟩ digest prepared
    have settled := onDisk.tracks.preparedOrCovered_iff.mp prepared
    rcases settles .prepare _ settled with ⟨log, tracks, settledAfter⟩
    exact tracks.preparedOrCovered_iff.mpr settledAfter

/-! ## What the replica has answered -/

/-- What an answer of the handler reports to the sender of a message. -/
def PbftState.Honours (state : PbftState) (msg : PbftMessage) :
    Except PbftError Response → Prop
  | .ok .committedOk => state.CommittedOrCovered (msg.view, msg.seq) msg.digest
  | .ok .certificateOkPrepared =>
      state.PreparedOrCovered (msg.view, msg.seq) msg.digest
  | .ok .checkpointStabilized => msg.seq ≤ state.lastStableCheckpoint
  | .ok _ => True
  | .error _ => True

namespace PbftState

theorem prepared_of_onPrepare {state : PbftState} {msg : PbftMessage}
    (answer : (state.onPrepare msg).1 = .ok .certificateOkPrepared) :
    ∃ cert, (state.onPrepare msg).2.preparedCertificates.get? (msg.view, msg.seq) =
      some cert ∧ cert.digest = msg.digest := by
  rw [onPrepare] at answer ⊢
  split_ifs at answer ⊢
  dsimp only at answer ⊢
  split_ifs at answer ⊢
  · exact ⟨_, AssocMap.get?_insert_self _ _ _, rfl⟩
  · simp at answer

theorem Stages.prepare_of_certificateOk {state staged : PbftState}
    {msg : PbftMessage}
    (stages : Stages state msg .certificateOkPrepared staged) :
    msg.phase = .prepare := by
  cases stages with
  | prepare _ phase => exact phase
  | commit _ _ _ _ _ _ _ _ _ _ _ answer => simp at answer

theorem handleMessage_honours (state : PbftState) (msg : PbftMessage) (io : WalIo) :
    (state.handleMessage msg io).2.Honours msg (state.handleMessage msg io).1 := by
  have accepted : ∀ response, (state.handleMessage msg io).1 = .ok response →
      response ≠ .checkpointObsolete →
      (state.stage msg).1 = .ok response ∧
        ∃ wal, (state.handleMessage msg io).2 =
          { (state.stage msg).2 with wal := wal } := by
    intro response answered inner
    have notShell : ¬ IsShellAnswer (state.handleMessage msg io).1 := by
      simp [IsShellAnswer, answered, inner]
    rcases stage_of_handleMessage notShell with ⟨_, closure, keeps⟩
    exact ⟨closure.trans answered, keeps response answered⟩
  cases answered : (state.handleMessage msg io).1 with
  | error error => trivial
  | ok response =>
      cases response with
      | committedOk => exact Or.inl (committed_of_committedOk answered)
      | certificateOkPrepared =>
          rcases accepted _ answered (by decide) with ⟨closure, wal, after⟩
          have phase := (stage_ok (Prod.ext closure rfl)).prepare_of_certificateOk
          have prepares : state.stage msg = state.onPrepare msg := by
            simp [stage, phase]
          rw [prepares] at closure after
          rw [after]
          exact Or.inl (prepared_of_onPrepare closure)
      | checkpointStabilized =>
          rcases accepted _ answered (by decide) with ⟨closure, wal, after⟩
          obtain ⟨_, _, _, staged⟩ :=
            (stage_ok (Prod.ext closure rfl)).stabilized_inv
          have raised : (state.stage msg).2.lastStableCheckpoint = msg.seq :=
            congrArg PbftState.lastStableCheckpoint staged
          rw [after]
          exact UInt64.le_of_eq raised.symm
      | _ => trivial

end PbftState

/-- Over every run with any messages, any failures of the file operations and any
restarts, the replica honours every answer that it has given: what it reported as
committed or as prepared it holds with the same digest until its stable checkpoint
covers the slot, and its stable checkpoint stays at or above every checkpoint that it
reported as stable. -/
theorem answers_honoured {totalNodes : Nat}
    {initialPublicKeys : AssocMap UInt32 G2Projective}
    {masterPublicKey : G2Projective} {initial middle final : PbftState}
    {earlier later : List LifeEvent} {msg : PbftMessage} {io : WalIo}
    (started : newWithWalPath totalNodes initialPublicKeys masterPublicKey
      ⟨[]⟩ = .ok initial)
    (before : run lifeStep initial earlier = some middle)
    (after : run lifeStep initial (earlier ++ .handle msg io :: later) =
      some final) :
    final.Honours msg (middle.handleMessage msg io).1 := by
  rcases run_append_eq_some.mp after with ⟨again, ran, continued⟩
  rw [before, Option.some.injEq] at ran
  subst ran
  rcases run_cons_eq_some.mp continued with ⟨next, stepped, finished⟩
  have through : run lifeStep initial (earlier ++ [.handle msg io]) = some next := by
    rw [run_append, before, Option.bind_some, run_cons, stepped]
    rfl
  obtain ⟨stable, committed, prepared⟩ :=
    decisions_durable started through finished
  have honours := middle.handleMessage_honours msg io
  rw [lifeStep, Option.some.injEq] at stepped
  rw [stepped] at honours
  cases answered : (middle.handleMessage msg io).1 with
  | error error => trivial
  | ok response =>
      rw [answered] at honours
      cases response with
      | committedOk => exact committed _ _ honours
      | certificateOkPrepared => exact prepared _ _ honours
      | checkpointStabilized => exact UInt64.le_trans honours stable
      | _ => trivial

end FailingLog

section SmallRun

open SmallCluster

attribute [local instance] smallCurve

def beforeCommit : List PbftMessage :=
  signed .prePrepare 0 1 (digestOf 7) 0 ::
    [0, 1, 2].map (signed .prepare 0 1 (digestOf 7)) ++
    [0, 1].map (signed .commit 0 1 (digestOf 7))

/-- The third commit is written; the fourth one reaches the file but is not synced,
and the replica restarts. -/
def commitThenUnsynced : List LifeEvent :=
  [.handle (signed .commit 0 1 (digestOf 7) 2) .durable,
    .handle (signed .commit 0 1 (digestOf 7) 3) ⟨.failed 101, .synced⟩]

def commitRecords : List Record :=
  (beforeCommit ++ [2, 3].map (signed .commit 0 1 (digestOf 7))).map
    PbftMessage.toRecord

theorem answers_honoured_afterUnsynced :
    ∃ middle final : PbftState,
      run lifeStep topology.fresh
          (beforeCommit.map fun msg => .handle msg .durable) = some middle ∧
        (middle.handleMessage (signed .commit 0 1 (digestOf 7) 2) .durable).1 =
          .ok .committedOk ∧
        run lifeStep topology.fresh
          ((beforeCommit.map fun msg => .handle msg .durable) ++
            (commitThenUnsynced ++ [.restart])) = some final ∧
        final.CommittedOrCovered (0, 1) (digestOf 7) := by
  have computed : (run lifeStep topology.fresh
      (beforeCommit.map fun msg => .handle msg .durable)).any (fun middle =>
        decide ((middle.handleMessage (signed .commit 0 1 (digestOf 7) 2)
          .durable).1 = .ok .committedOk) &&
        (run lifeStep middle commitThenUnsynced).any fun stopped =>
          decide (stopped.wal.file = encodeLog commitRecords)) = true := by
    decide +kernel
  rcases (Option.any_eq_true _ _).mp computed with ⟨middle, before, checked⟩
  rcases Bool.and_eq_true_iff.mp checked with ⟨answered, continues⟩
  rcases (Option.any_eq_true _ _).mp continues with ⟨stopped, stops, file⟩
  have reached : run lifeStep topology.fresh
      ((beforeCommit.map fun msg => .handle msg .durable) ++ commitThenUnsynced) =
        some stopped := by
    rw [run_append, before, Option.bind_some, stops]
  rcases exists_onDisk_of_run reached with ⟨_, _, _, onDisk⟩
  have sameTopology : stopped.toTopology = topology := onDisk.tracks.sameTopology
  have wal : stopped.wal = ⟨encodeLog commitRecords⟩ := by
    rw [← of_decide_eq_true file]
  have clean : (topology.replayAll commitRecords).recoveryError = false := by
    decide +kernel
  have accepted : ∃ final, topology.recover stopped.wal = .ok final := by
    rw [wal]
    exact ⟨_, Topology.recover_encodeLog.mpr ⟨clean, rfl⟩⟩
  rcases accepted with ⟨final, recovers⟩
  rw [← sameTopology] at recovers
  have restarted : lifeStep stopped .restart = some final :=
    replicaStep_restart.mpr recovers
  have ended : run lifeStep topology.fresh
      ((beforeCommit.map fun msg => .handle msg .durable) ++
        (commitThenUnsynced ++ [.restart])) = some final := by
    rw [← List.append_assoc, run_append, reached, Option.bind_some, run_cons,
      restarted]
    rfl
  have honoured := answers_honoured topology.fresh_started before ended
  rw [of_decide_eq_true answered] at honoured
  exact ⟨middle, final, before, of_decide_eq_true answered, ended, honoured⟩

end SmallRun

end SovereignLattice
