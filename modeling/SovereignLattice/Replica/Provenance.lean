import SovereignLattice.Replica.FailingLog

/-!
# What a replica believes has been said to it

The view that a replica is in, its proposals, its certificates and its stable
checkpoint all go back to messages that have been delivered to it: a proposal to one
from the leader of its view, everything else to a quorum of distinct senders.  The
log carries this across restarts, since every record in it was a delivered message.
-/

namespace SovereignLattice

section Provenance

variable [Curve]

/-! ## Messages of a run -/

namespace Topology

/-- An authentic message of the phase and key, from the sender, was delivered. -/
def Received (topology : Topology) (events : List LifeEvent) (phase : Phase)
    (key : ProposalKey) (sender : UInt32) : Prop :=
  ∃ msg io, .handle msg io ∈ events ∧ msg.phase = phase ∧ msg.proposalKey = key ∧
    msg.senderId = sender ∧
    topology.Verifies phase key sender msg.signature

/-- The proposal came from the leader of its view. -/
def ProposalReceived (topology : Topology) (events : List LifeEvent)
    (key : ProposalKey) : Prop :=
  topology.Received events .prePrepare key (topology.getExpectedLeader key.1)

/-- A quorum of senders voted for the key. -/
def QuorumReceived (topology : Topology) (events : List LifeEvent) (phase : Phase)
    (key : ProposalKey) : Prop :=
  ∃ senders : Finset UInt32, topology.quorumSize ≤ senders.card ∧
    ∀ sender ∈ senders, topology.Received events phase key sender

/-- The replica starts in the view, or a quorum of senders voted for it. -/
def ViewReached (topology : Topology) (events : List LifeEvent) (view : UInt64) :
    Prop :=
  view = 0 ∨ ∃ senders : Finset UInt32, topology.quorumSize ≤ senders.card ∧
    ∀ sender ∈ senders, ∃ seq digest,
      topology.Received events .viewChange (view, seq, digest) sender

section Later

variable {topology : Topology} {events : List LifeEvent} {phase : Phase}
variable {key : ProposalKey} {sender : UInt32} {view : UInt64}

theorem Received.later (received : topology.Received events phase key sender)
    (event : LifeEvent) :
    topology.Received (events ++ [event]) phase key sender := by
  rcases received with ⟨msg, io, member, fields⟩
  exact ⟨msg, io, List.mem_append_left _ member, fields⟩

theorem QuorumReceived.later (received : topology.QuorumReceived events phase key)
    (event : LifeEvent) : topology.QuorumReceived (events ++ [event]) phase key := by
  rcases received with ⟨senders, quorum, each⟩
  exact ⟨senders, quorum, fun sender member => (each sender member).later event⟩

theorem ViewReached.later (reached : topology.ViewReached events view)
    (event : LifeEvent) : topology.ViewReached (events ++ [event]) view := by
  rcases reached with zero | ⟨senders, quorum, each⟩
  · exact Or.inl zero
  · refine Or.inr ⟨senders, quorum, ?_⟩
    intro sender member
    rcases each sender member with ⟨seq, digest, received⟩
    exact ⟨seq, digest, received.later event⟩

theorem received_last {state : PbftState} {msg : PbftMessage} (io : WalIo)
    (sameTopology : state.toTopology = topology)
    (authenticated : state.Authenticated msg) :
    topology.Received (events ++ [.handle msg io]) msg.phase msg.proposalKey
      msg.senderId := by
  rw [PbftState.Authenticated, sameTopology] at authenticated
  exact ⟨msg, io, by simp, rfl, rfl, rfl, authenticated⟩

end Later

/-! ## The records of the log -/

/-- A record was a delivered message, a proposal from its leader, for a view that was
reached. -/
structure Founded (topology : Topology) (events : List LifeEvent) (record : Record)
    (phase : Phase) : Prop where
  phase_eq : record.phase = phase.toU8
  received :
    topology.Received events phase record.proposalKey record.senderId
  leader : phase = .prePrepare →
    record.senderId = topology.getExpectedLeader record.view
  reached : phase ≠ .viewChange → topology.ViewReached events record.view

def LogFounded (topology : Topology) (events : List LifeEvent)
    (log : List Record) : Prop :=
  ∀ record ∈ log, ∃ phase, topology.Founded events record phase

theorem LogFounded.later {topology : Topology} {events : List LifeEvent}
    {log : List Record} (founded : topology.LogFounded events log)
    (event : LifeEvent) : topology.LogFounded (events ++ [event]) log := by
  intro record member
  rcases founded record member with ⟨phase, record⟩
  exact ⟨phase, record.phase_eq, record.received.later event, record.leader,
    fun other => (record.reached other).later event⟩

end Topology

/-- What records add to a set one by one goes back to one of them. -/
theorem exists_record_of_mem (senders : List Record → Finset UInt32)
    {added : Record → UInt32 → Prop} (empty : senders [] = ∅)
    (concat : ∀ log record sender, sender ∈ senders (log ++ [record]) →
      sender ∈ senders log ∨ added record sender)
    {log : List Record} {sender : UInt32} (member : sender ∈ senders log) :
    ∃ record ∈ log, added record sender := by
  induction log using List.reverseRecOn with
  | nil =>
      rw [empty] at member
      exact absurd member (Finset.notMem_empty sender)
  | append_singleton log last inductionHypothesis =>
      rcases concat log last sender member with earlier | here
      · rcases inductionHypothesis earlier with ⟨record, held, adds⟩
        exact ⟨record, List.mem_append_left _ held, adds⟩
      · exact ⟨last, by simp, here⟩

theorem exists_record_of_signer {phase : Phase} {log : List Record}
    {key : ProposalKey} {sender : UInt32} (member : sender ∈ signersIn phase log key) :
    ∃ record ∈ log, record.phase = phase.toU8 ∧ record.proposalKey = key ∧
      record.senderId = sender :=
  exists_record_of_mem (fun log => signersIn phase log key) rfl
    (fun _ _ _ => mem_signersIn_concat.mp) member

theorem exists_record_of_viewSender {log : List Record} {view : UInt64}
    {sender : UInt32} (member : sender ∈ viewSendersIn log view) :
    ∃ record ∈ log, record.phase = Phase.viewChange.toU8 ∧ record.view = view ∧
      record.senderId = sender :=
  exists_record_of_mem (fun log => viewSendersIn log view) rfl
    (fun _ _ _ => mem_viewSendersIn_concat.mp) member

namespace Topology.LogFounded

variable {topology : Topology} {events : List LifeEvent} {log : List Record}

theorem of_phase (founded : topology.LogFounded events log) {record : Record}
    {phase : Phase} (member : record ∈ log) (phase_eq : record.phase = phase.toU8) :
    topology.Founded events record phase := by
  rcases founded record member with ⟨other, record⟩
  have same : other = phase :=
    Phase.toU8_injective (record.phase_eq.symm.trans phase_eq)
  exact same ▸ record

theorem signer (founded : topology.LogFounded events log) {phase : Phase}
    {key : ProposalKey} {sender : UInt32}
    (member : sender ∈ signersIn phase log key) :
    topology.Received events phase key sender := by
  rcases exists_record_of_signer member with ⟨record, held, phase_eq, rfl, rfl⟩
  exact (founded.of_phase held phase_eq).received

theorem quorum (founded : topology.LogFounded events log) {phase : Phase}
    {key : ProposalKey}
    (quorum : topology.quorumSize ≤ (signersIn phase log key).card) :
    topology.QuorumReceived events phase key :=
  ⟨signersIn phase log key, quorum, fun _ member => founded.signer member⟩

theorem viewSender (founded : topology.LogFounded events log) {view : UInt64}
    {sender : UInt32} (member : sender ∈ viewSendersIn log view) :
    ∃ seq digest, topology.Received events .viewChange (view, seq, digest)
      sender := by
  rcases exists_record_of_viewSender member with ⟨record, held, phase_eq, rfl, rfl⟩
  exact ⟨record.seq, record.digest, (founded.of_phase held phase_eq).received⟩

theorem proposal (founded : topology.LogFounded events log) {key : ProposalKey}
    (member : key ∈ proposalsIn log) :
    topology.ProposalReceived events key ∧ topology.ViewReached events key.1 := by
  rcases (mem_proposalsIn log).mp member with ⟨record, held, phase_eq, rfl⟩
  have record' := founded.of_phase held phase_eq
  have received := record'.received
  rw [record'.leader rfl] at received
  exact ⟨received, record'.reached (by decide)⟩

/-- Durable evidence of a view goes back to a quorum for it. -/
theorem evidence (founded : topology.LogFounded events log) {view : UInt64}
    (evidence : topology.Evidence log view) : topology.ViewReached events view := by
  cases evidence with
  | ordinary record held ordinary same =>
      subst same
      rcases founded record held with ⟨phase, record'⟩
      apply record'.reached
      rintro rfl
      rw [record'.phase_eq] at ordinary
      exact absurd ordinary (by decide)
  | viewQuorum quorum =>
      exact Or.inr ⟨viewSendersIn log view, quorum,
        fun _ member => founded.viewSender member⟩
  | checkpoint seq digest quorum =>
      have some : 0 < (signersIn .checkpoint log (view, seq, digest)).card :=
        Nat.lt_of_lt_of_le topology.quorumSize_pos quorum
      rcases Finset.card_pos.mp some with ⟨sender, member⟩
      rcases exists_record_of_signer member with ⟨record, held, phase_eq, same, _⟩
      have reached := (founded.of_phase held phase_eq).reached (by decide)
      have sameView : record.view = view := congrArg Prod.fst same
      rwa [sameView] at reached

end Topology.LogFounded

/-! ## The state of the replica -/

/-- Every stored vote of a phase was a delivered message. -/
def VoteMap.Heard (votes : VoteMap) (topology : Topology) (events : List LifeEvent)
    (phase : Phase) : Prop :=
  ∀ key sigs, votes.get? key = some sigs →
    ∀ sender ∈ sigs.keySet, topology.Received events phase key sender

namespace VoteMap.Heard

variable {votes : VoteMap} {topology : Topology} {events : List LifeEvent}
variable {phase : Phase}

theorem later (heard : votes.Heard topology events phase) (event : LifeEvent) :
    votes.Heard topology (events ++ [event]) phase :=
  fun key sigs stored sender member => (heard key sigs stored sender member).later event

theorem insert (heard : votes.Heard topology events phase) {key : ProposalKey}
    {sender : UInt32} {signature : G1Projective}
    (received : topology.Received events phase key sender) :
    VoteMap.Heard (votes.insert key (votes.withVote key sender signature)) topology
      events phase := by
  intro voted sigs stored voter member
  rw [AssocMap.get?_insert] at stored
  split at stored
  · rename_i here
    rw [Option.some.injEq] at stored
    subst here stored
    rw [VoteMap.keySet_withVote, Finset.mem_insert] at member
    rcases member with rfl | earlier
    · exact received
    · cases before : votes.get? voted with
      | none => simp [AssocMap.getD, before] at earlier
      | some older =>
          rw [AssocMap.getD_of_get? ∅ before] at earlier
          exact heard voted older before voter earlier
  · exact heard voted sigs stored voter member

theorem retain (heard : votes.Heard topology events phase)
    (keep : ProposalKey → Bool) :
    VoteMap.Heard (votes.retain keep) topology events phase :=
  fun key sigs stored => heard key sigs (AssocMap.get?_of_retain stored).2

end VoteMap.Heard

/-- Everything in the state goes back to delivered messages. -/
structure PbftState.Founded (state : PbftState) (topology : Topology)
    (events : List LifeEvent) : Prop where
  view : topology.ViewReached events state.currentView
  proposals : ∀ key ∈ state.prePreparedProposals,
    topology.ProposalReceived events key ∧ topology.ViewReached events key.1
  prepareVotes : state.prepareVotes.Heard topology events .prepare
  commitVotes : state.commitVotes.Heard topology events .commit
  checkpointVotes : state.checkpointVotes.Heard topology events .checkpoint
  viewChangeVotes : ∀ view votes, state.viewChangeVotes.get? view = some votes →
    ∀ sender ∈ votes.keySet, ∃ seq digest,
      topology.Received events .viewChange (view, seq, digest) sender
  stable : state.lastStableCheckpoint = 0 ∨ ∃ view digest,
    topology.QuorumReceived events .checkpoint
      (view, state.lastStableCheckpoint, digest)

namespace PbftState.Founded

variable {state staged : PbftState} {topology : Topology} {events : List LifeEvent}
variable {msg : PbftMessage} {response : Response}

theorem later (founded : state.Founded topology events) (event : LifeEvent) :
    state.Founded topology (events ++ [event]) where
  view := founded.view.later event
  proposals key member :=
    ⟨(founded.proposals key member).1.later event,
      (founded.proposals key member).2.later event⟩
  prepareVotes := founded.prepareVotes.later event
  commitVotes := founded.commitVotes.later event
  checkpointVotes := founded.checkpointVotes.later event
  viewChangeVotes view votes stored sender member := by
    rcases founded.viewChangeVotes view votes stored sender member with
      ⟨seq, digest, received⟩
    exact ⟨seq, digest, received.later event⟩
  stable := by
    rcases founded.stable with zero | ⟨view, digest, quorum⟩
    · exact Or.inl zero
    · exact Or.inr ⟨view, digest, quorum.later event⟩

/-- The supporters of a view after one more vote. -/
theorem supporters (founded : state.Founded topology events)
    (received : topology.Received events .viewChange msg.proposalKey msg.senderId) :
    ∀ sender ∈ (state.supportersWith msg).keySet, ∃ seq digest,
      topology.Received events .viewChange (msg.view, seq, digest) sender := by
  intro sender member
  rw [PbftState.supportersWith, AssocMap.keySet_insert, Finset.mem_insert] at member
  rcases member with rfl | earlier
  · exact ⟨msg.seq, msg.digest, received⟩
  · cases before : state.viewChangeVotes.get? msg.view with
    | none => simp [AssocMap.getD, before] at earlier
    | some older =>
        rw [AssocMap.getD_of_get? ∅ before] at earlier
        exact founded.viewChangeVotes msg.view older before sender earlier

theorem withSupporters (founded : state.Founded topology events)
    (received : topology.Received events .viewChange msg.proposalKey msg.senderId) :
    ∀ view votes, (state.withSupporters msg).viewChangeVotes.get? view = some votes →
      ∀ sender ∈ votes.keySet, ∃ seq digest,
        topology.Received events .viewChange (view, seq, digest) sender := by
  intro view votes stored
  have inserted : (state.viewChangeVotes.insert msg.view
      (state.supportersWith msg)).get? view = some votes := stored
  rw [AssocMap.get?_insert] at inserted
  split at inserted
  · rename_i here
    rw [Option.some.injEq] at inserted
    subst here inserted
    exact founded.supporters received
  · exact founded.viewChangeVotes view votes inserted

/-- Every accepted transition of the handler, for a message that was received. -/
theorem stages (founded : state.Founded topology events)
    (sameTopology : state.toTopology = topology)
    (received : topology.Received events msg.phase msg.proposalKey msg.senderId)
    (stages : Stages state msg response staged) : staged.Founded topology events := by
  cases stages with
  | prePrepare phase view leader unique fresh =>
      rw [phase, leader, sameTopology] at received
      refine { founded with proposals := ?_ }
      intro key member
      rcases Finset.mem_insert.mp member with rfl | earlier
      · have reached := founded.view
        rw [← view] at reached
        exact ⟨received, reached⟩
      · exact founded.proposals key earlier
  | prepare _ phase =>
      rw [phase] at received
      exact { founded with prepareVotes := founded.prepareVotes.insert received }
  | commit _ cert phase =>
      rw [phase] at received
      exact { founded with commitVotes := founded.commitVotes.insert received }
  | viewChangeVote phase =>
      rw [phase] at received
      exact { founded with viewChangeVotes := founded.withSupporters received }
  | viewChangeQuorum maxSeq digest selected phase later backed quorum =>
      rw [phase] at received
      have size : state.quorumSize = topology.quorumSize :=
        congrArg Topology.quorumSize sameTopology
      rw [size, ← AssocMap.card_keySet] at quorum
      exact { founded with
        view := Or.inr ⟨_, quorum, founded.supporters received⟩
        viewChangeVotes := founded.withSupporters received }
  | checkpointVote phase =>
      rw [phase] at received
      exact { founded with
        checkpointVotes := founded.checkpointVotes.insert received }
  | checkpointQuorum phase view quorum =>
      rw [phase] at received
      have size : state.quorumSize = topology.quorumSize :=
        congrArg Topology.quorumSize sameTopology
      have votes : VoteMap.Heard (state.checkpointVotes.insert msg.proposalKey
          (state.checkpointVotes.withVote msg.proposalKey msg.senderId
            msg.signature)) topology events .checkpoint :=
        founded.checkpointVotes.insert received
      rw [size, ← AssocMap.card_keySet] at quorum
      exact
        { view := founded.view
          proposals := fun key member =>
            founded.proposals key (Finset.mem_filter.mp member).1
          prepareVotes := founded.prepareVotes.retain _
          commitVotes := founded.commitVotes.retain _
          checkpointVotes := votes.retain _
          viewChangeVotes := founded.viewChangeVotes
          stable := Or.inr ⟨msg.view, msg.digest, _, quorum,
            votes msg.proposalKey _ (AssocMap.get?_insert_self _ _ _)⟩ }

/-- What recovery makes of records that were delivered messages. -/
theorem recovered {log : List Record} {recovered : Recovered}
    (log_founded : topology.LogFounded events log)
    (reflects : topology.Reflects log recovered) (wal : WriteAheadLog) :
    (topology.recoveredState recovered wal).Founded topology events := by
  have votes : ∀ {votes : VoteMap} {phase : Phase} (keep : ProposalKey → Bool),
      (∀ key, votes.get? key = votesIn phase log key) →
        VoteMap.Heard (votes.retain keep) topology events phase := by
    intro votes phase keep follows key sigs stored sender member
    have logged := (AssocMap.get?_of_retain stored).2
    rw [follows] at logged
    apply log_founded.signer
    rw [signersIn, logged, Option.getD_some]
    exact member
  refine
    { view := ?_
      proposals := ?_
      prepareVotes := votes _ fun key => reflects.follows.prepareVotes key rfl
      commitVotes := votes _ fun key => reflects.follows.commitVotes key rfl
      checkpointVotes := votes _ fun key => reflects.follows.checkpointVotes key rfl
      viewChangeVotes := ?_
      stable := ?_ }
  · rcases reflects.view.attained with zero | evidence
    · exact Or.inl zero
    · exact log_founded.evidence evidence
  · intro key member
    exact log_founded.proposal ((reflects.follows.proposals key rfl).mp
      (Finset.mem_filter.mp member).1)
  · intro view votes stored sender member
    have logged := (reflects.viewVotes view).symm.trans stored
    apply log_founded.viewSender
    rw [viewSendersIn, logged, Option.getD_some]
    exact member
  · rcases reflects.stable.attained with zero | ⟨⟨view, seq, digest⟩, same, quorum⟩
    · exact Or.inl zero
    · subst same
      exact Or.inr ⟨view, digest, log_founded.quorum quorum⟩

end PbftState.Founded

/-! ## Runs -/

/-- The record of an accepted message that was received. -/
theorem Topology.LogFounded.concat {topology : Topology} {events : List LifeEvent}
    {log : List Record} {state staged : PbftState} {msg : PbftMessage}
    {response : Response} (founded : topology.LogFounded events log)
    (before : state.Founded topology events)
    (sameTopology : state.toTopology = topology)
    (received : topology.Received events msg.phase msg.proposalKey msg.senderId)
    (stages : PbftState.Stages state msg response staged) :
    topology.LogFounded events (log ++ [msg.toRecord]) := by
  have entered : msg.view = state.currentView →
      topology.ViewReached events msg.view := fun view => view ▸ before.view
  intro record member
  rw [List.mem_append, List.mem_singleton] at member
  rcases member with earlier | rfl
  · exact founded record earlier
  refine ⟨msg.phase, rfl, received, ?_, ?_⟩
  · intro phase
    cases stages with
    | prePrepare _ view leader =>
        rw [sameTopology] at leader
        exact leader
    | prepare _ other => rw [other] at phase; cases phase
    | commit _ _ other => rw [other] at phase; cases phase
    | viewChangeVote other => rw [other] at phase; cases phase
    | viewChangeQuorum _ _ _ other => rw [other] at phase; cases phase
    | checkpointVote other => rw [other] at phase; cases phase
    | checkpointQuorum other => rw [other] at phase; cases phase
  · intro ordinary
    cases stages with
    | prePrepare _ view => exact entered view
    | prepare _ _ view => exact entered view
    | commit _ _ _ view => exact entered view
    | viewChangeVote phase => exact absurd phase ordinary
    | viewChangeQuorum _ _ _ phase => exact absurd phase ordinary
    | checkpointVote _ view => exact entered view
    | checkpointQuorum _ view => exact entered view

theorem PbftState.Founded.handled {topology : Topology} {events : List LifeEvent}
    {state : PbftState} (founded : state.Founded topology events)
    (sameTopology : state.toTopology = topology) (msg : PbftMessage) (io : WalIo) :
    (state.handleMessage msg io).2.Founded topology
      (events ++ [.handle msg io]) := by
  have before := founded.later (.handle msg io)
  apply handleMessage_invariant
    (fun current => current.Founded topology (events ++ [LifeEvent.handle msg io]))
    (fun _ _ _ holds => { holds with }) ?_ before
  exact fun _ _ stages authenticated _ => before.stages sameTopology
    (Topology.received_last io sameTopology authenticated) stages

/-- The invariant of a run: the state and both lists of records go back to delivered
messages. -/
def Sourced (topology : Topology) (events : List LifeEvent) (state : PbftState) :
    Prop :=
  state.Founded topology events ∧
    ∃ memory disk torn, OnDisk topology state memory disk torn ∧
      topology.LogFounded events memory ∧ topology.LogFounded events disk

theorem Sourced.step {topology : Topology} {events : List LifeEvent}
    {state next : PbftState} {event : LifeEvent}
    (sourced : Sourced topology events state)
    (stepped : lifeStep state event = some next) :
    Sourced topology (events ++ [event]) next := by
  obtain ⟨founded, memory, disk, torn, onDisk, inMemory, inFile⟩ := sourced
  have sameTopology : state.toTopology = topology := onDisk.tracks.sameTopology
  have before := founded.later event
  constructor
  · cases event with
    | handle msg io =>
        rw [lifeStep, Option.some.injEq] at stepped
        subst stepped
        exact founded.handled sameTopology msg io
    | restart =>
        have ok := replicaStep_restart.mp stepped
        rw [sameTopology] at ok
        rcases onDisk.restarted ok with ⟨reflects, rfl⟩
        exact .recovered (inFile.later .restart) reflects _
  · apply onDisk.step ?_ ?_ (inMemory.later event) (inFile.later event) stepped
    · rintro msg io response staged rfl authenticated stages logged
      exact logged.concat before sameTopology
        (Topology.received_last io sameTopology authenticated) stages
    · intro records view seq digest _ _ logged record member
      exact logged record (List.mem_filter.mp member).1

/-- What a replica holds and what was delivered to it. -/
structure Provenance (topology : Topology) (events : List LifeEvent)
    (state : PbftState) : Prop where
  entered : topology.ViewReached events state.currentView
  proposed : ∀ key ∈ state.prePreparedProposals,
    topology.ProposalReceived events key ∧ topology.ViewReached events key.1
  prepared : ∀ view seq cert,
    state.preparedCertificates.get? (view, seq) = some cert →
      topology.ProposalReceived events (view, seq, cert.digest) ∧
        topology.QuorumReceived events .prepare (view, seq, cert.digest)
  committed : ∀ view seq digest,
    state.committedDigest.get? (view, seq) = some digest →
      topology.ProposalReceived events (view, seq, digest) ∧
        topology.QuorumReceived events .prepare (view, seq, digest) ∧
        topology.QuorumReceived events .commit (view, seq, digest)
  stable : state.lastStableCheckpoint = 0 ∨ ∃ view digest,
    topology.QuorumReceived events .checkpoint
      (view, state.lastStableCheckpoint, digest)

/-- A quorum of stored votes was received. -/
theorem VoteMap.Heard.quorum {votes : VoteMap} {topology : Topology}
    {events : List LifeEvent} {phase : Phase} {key : ProposalKey}
    {sigs : SignatureMap} (heard : votes.Heard topology events phase)
    (stored : votes.get? key = some sigs)
    (quorum : topology.quorumSize ≤ sigs.len) :
    topology.QuorumReceived events phase key := by
  rw [← AssocMap.card_keySet] at quorum
  exact ⟨sigs.keySet, quorum, heard key sigs stored⟩

theorem Sourced.provenance {topology : Topology} {events : List LifeEvent}
    {state : PbftState} (sourced : Sourced topology events state) :
    Provenance topology events state := by
  obtain ⟨founded, memory, _, _, onDisk, _⟩ := sourced
  have chain : CertificateChain topology state.ledger := onDisk.tracks.chain
  have prepared : ∀ view seq cert,
      state.preparedCertificates.get? (view, seq) = some cert →
        topology.ProposalReceived events (view, seq, cert.digest) ∧
          topology.QuorumReceived events .prepare (view, seq, cert.digest) := by
    intro view seq cert stored
    rcases chain.prepared_chain view seq cert stored with
      ⟨_, _, proposed, votes, quorum, _⟩
    exact ⟨(founded.proposals _ proposed).1,
      founded.prepareVotes.quorum votes quorum⟩
  refine ⟨founded.view, founded.proposals, prepared, ?_, founded.stable⟩
  intro view seq digest committed
  have present : (state.ledger.commits.get? (view, seq)).isSome := by
    rw [chain.committed_keys]
    exact Option.isSome_of_mem committed
  rcases Option.isSome_iff_exists.mp present with ⟨cert, stored⟩
  rcases chain.commit_chain view seq cert stored with
    ⟨_, _, sameDigest, votes, quorum, _, certificate, held, preparedDigest⟩
  obtain rfl : cert.digest = digest :=
    Option.some.inj (sameDigest.symm.trans committed)
  have backing := prepared view seq certificate held
  rw [preparedDigest] at backing
  exact ⟨backing.1, backing.2, founded.commitVotes.quorum votes quorum⟩

/-- Over every run with any messages, any failures of the file operations and any
restarts, what the replica holds was said to it: every proposal by the leader of its
view, every certificate, every view and every stable checkpoint by a quorum. -/
theorem provenance_of_run {totalNodes : Nat}
    {initialPublicKeys : AssocMap UInt32 G2Projective}
    {masterPublicKey : G2Projective} {initial final : PbftState}
    {events : List LifeEvent}
    (started : newWithWalPath totalNodes initialPublicKeys masterPublicKey
      ⟨[]⟩ = .ok initial)
    (reached : run lifeStep initial events = some final) :
    Provenance final.toTopology events final := by
  rcases fresh_of_started started with ⟨topology, rfl, _⟩
  have empty : topology.LogFounded [] [] :=
    fun record member => absurd member List.not_mem_nil
  have start : Sourced topology [] topology.fresh :=
    ⟨.recovered empty (Topology.Reflects.initially topology) _, [], [], [],
      (tracks_fresh topology).onDisk, empty, empty⟩
  have sourced := invariant_of_history
    (fun _ _ _ _ before stepped => Sourced.step before stepped) start reached
  have sameTopology : final.toTopology = topology := by
    obtain ⟨_, _, _, _, onDisk, _⟩ := sourced
    exact onDisk.tracks.sameTopology
  rw [sameTopology]
  exact sourced.provenance

end Provenance

section SmallRun

open SmallCluster

attribute [local instance] smallCurve

/-- View 1 is entered, its leader proposes, a quorum prepares and commits, and an
append fails. -/
def commitInViewOne : List LifeEvent :=
  ([0, 1, 2].map (signed .viewChange 1 0 (digestOf 0)) ++
    [signed .prePrepare 1 3 (digestOf 7) 1] ++
    [0, 1, 2].map (signed .prepare 1 3 (digestOf 7)) ++
    [0, 1, 2].map (signed .commit 1 3 (digestOf 7))).map
      (fun msg => .handle msg .durable) ++
    [.handle (signed .commit 1 3 (digestOf 7) 3) ⟨.failed 7, .synced⟩]

/-- The theorem at a commit in view 1: the leader and a quorum have been heard. -/
theorem provenance_of_run_inViewOne :
    ∃ final, run lifeStep topology.fresh commitInViewOne = some final ∧
      final.committedDigest.get? (1, 3) = some (digestOf 7) ∧
      final.toTopology.ProposalReceived commitInViewOne (1, 3, digestOf 7) ∧
      final.toTopology.ViewReached commitInViewOne 1 := by
  have computed : (run lifeStep topology.fresh commitInViewOne).any (fun final =>
      decide (final.currentView = 1 ∧
        final.committedDigest.get? (1, 3) = some (digestOf 7))) = true := by
    decide +kernel
  rcases (Option.any_eq_true _ _).mp computed with ⟨final, reached, checked⟩
  rcases of_decide_eq_true checked with ⟨view, committed⟩
  have provenance := provenance_of_run topology.fresh_started reached
  have entered := provenance.entered
  rw [view] at entered
  exact ⟨final, reached, committed, (provenance.committed 1 3 _ committed).1, entered⟩

end SmallRun

end SovereignLattice
