import SovereignLattice.Replica.SmallCluster

/-!
# The stable checkpoint as a low watermark

A checkpoint and a recovery leave nothing at or below the stable checkpoint in the
seven maps.  Every vote that the handler accepts later is for a proposal that is
still there, so only a proposal at or below the checkpoint can bring one of these
sequences back.
-/

namespace SovereignLattice

section Watermark

variable [Curve]

/-- Every sequence that the ledger knows something about satisfies the condition. -/
structure VoteLedger.AllSeqs (holds : UInt64 → Prop) (ledger : VoteLedger) :
    Prop where
  proposals : ∀ key ∈ ledger.proposals, holds key.2.1
  prepareVotes : ∀ key ∈ ledger.prepareVotes.keySet, holds key.2.1
  commitVotes : ∀ key ∈ ledger.commitVotes.keySet, holds key.2.1
  checkpointVotes : ∀ key ∈ ledger.checkpointVotes.keySet, holds key.2.1
  prepared : ∀ slot ∈ ledger.prepared.keySet, holds slot.2
  commits : ∀ slot ∈ ledger.commits.keySet, holds slot.2
  committed : ∀ slot ∈ ledger.committed.keySet, holds slot.2

namespace VoteLedger.AllSeqs

variable {holds : UInt64 → Prop} {ledger : VoteLedger} {key : ProposalKey}
variable {sender : UInt32} {signature : G1Projective} {quorumSize : Nat}

theorem propose (all : ledger.AllSeqs holds) (here : holds key.2.1) :
    (ledger.propose key).AllSeqs holds :=
  { all with
    proposals := by
      intro stored member
      rcases Finset.mem_insert.mp member with rfl | before
      · exact here
      · exact all.proposals stored before }

theorem recordPrepare (all : ledger.AllSeqs holds) (here : holds key.2.1) :
    (ledger.recordPrepare quorumSize key sender signature).AllSeqs holds :=
  { all with
    prepareVotes := AssocMap.forall_keySet_insert all.prepareVotes here
    prepared := by
      simp only [VoteLedger.recordPrepare]
      split
      · exact AssocMap.forall_keySet_insert all.prepared here
      · exact all.prepared }

theorem recordCommit (all : ledger.AllSeqs holds) (here : holds key.2.1) :
    (ledger.recordCommit quorumSize key sender signature).AllSeqs holds :=
  { all with
    commitVotes := AssocMap.forall_keySet_insert all.commitVotes here
    commits := by
      simp only [VoteLedger.recordCommit]
      split
      · exact AssocMap.forall_keySet_insert all.commits here
      · exact all.commits
    committed := by
      simp only [VoteLedger.recordCommit]
      split
      · exact AssocMap.forall_keySet_insert all.committed here
      · exact all.committed }

theorem recordCheckpoint (all : ledger.AllSeqs holds) (here : holds key.2.1) :
    (ledger.recordCheckpoint key sender signature).AllSeqs holds :=
  { all with
    checkpointVotes := AssocMap.forall_keySet_insert all.checkpointVotes here }

/-- Pruning leaves the sequences that pass its test. -/
theorem restrict (ledger : VoteLedger) {keep : UInt64 → Bool}
    (sound : ∀ seq, keep seq = true → holds seq) :
    (ledger.restrict keep).AllSeqs holds where
  proposals _ member := sound _ (Finset.mem_filter.mp member).2
  prepareVotes key member :=
    sound _ (AssocMap.forall_keySet_retain _ _ key member)
  commitVotes key member :=
    sound _ (AssocMap.forall_keySet_retain _ _ key member)
  checkpointVotes key member :=
    sound _ (AssocMap.forall_keySet_retain _ _ key member)
  prepared slot member :=
    sound _ (AssocMap.forall_keySet_retain _ _ slot member)
  commits slot member :=
    sound _ (AssocMap.forall_keySet_retain _ _ slot member)
  committed slot member :=
    sound _ (AssocMap.forall_keySet_retain _ _ slot member)

end VoteLedger.AllSeqs

namespace PbftState

/-- With a stable checkpoint, nothing at or below it is known. -/
def AboveWatermark (state : PbftState) : Prop :=
  0 < state.lastStableCheckpoint →
    state.ledger.AllSeqs fun seq => state.lastStableCheckpoint < seq

/-- A proposal that the leader of the current view has signed is above the stable
checkpoint, where there is one.  A stopped replica may be sent anything. -/
def LeaderProposesAbove (state : PbftState) (call : PbftMessage × WalIo) : Prop :=
  state.walFailed = false → call.1.phase = .prePrepare →
    state.Authenticated call.1 →
    call.1.view = state.currentView →
    call.1.senderId = state.getExpectedLeader call.1.view →
      state.lastStableCheckpoint = 0 ∨ state.lastStableCheckpoint < call.1.seq

theorem AboveWatermark.proposal_above {state : PbftState} {key : ProposalKey}
    (above : state.AboveWatermark) (positive : 0 < state.lastStableCheckpoint)
    (proposed : key ∈ state.prePreparedProposals) :
    state.lastStableCheckpoint < key.2.1 :=
  (above positive).proposals key proposed

theorem Stages.aboveWatermark {state staged : PbftState} {msg : PbftMessage}
    {response : Response} {io : WalIo} (stages : Stages state msg response staged)
    (running : state.walFailed = false) (authenticated : state.Authenticated msg)
    (newer : msg.phase = .checkpoint → state.lastStableCheckpoint < msg.seq)
    (proposes : state.LeaderProposesAbove (msg, io))
    (above : state.AboveWatermark) : staged.AboveWatermark := by
  intro positive
  cases stages with
  | prePrepare phase view leader =>
      rcases proposes running phase authenticated view leader with zero | higher
      · have stable : 0 < state.lastStableCheckpoint := positive
        rw [zero] at stable
        exact absurd stable (UInt64.lt_irrefl 0)
      · exact (above positive).propose higher
  | prepare _ phase view proposed =>
      exact (above positive).recordPrepare ((above positive).proposals _ proposed)
  | commit _ cert phase view proposed =>
      exact (above positive).recordCommit ((above positive).proposals _ proposed)
  | viewChangeVote => exact above positive
  | viewChangeQuorum => exact above positive
  | checkpointVote phase => exact (above positive).recordCheckpoint (newer phase)
  | checkpointQuorum =>
      exact VoteLedger.AllSeqs.restrict _ fun seq kept => of_decide_eq_true kept

theorem AboveWatermark.handle {state : PbftState} {msg : PbftMessage} {io : WalIo}
    (above : state.AboveWatermark) (proposes : state.LeaderProposesAbove (msg, io)) :
    (state.handleMessage msg io).2.AboveWatermark := by
  cases running : state.walFailed with
  | true =>
      rw [handleMessage_of_walFailed running]
      exact above
  | false =>
      apply handleMessage_invariant AboveWatermark ?_ ?_ above
      · exact fun _ _ _ holds => holds
      · intro response staged stages authenticated newer
        exact stages.aboveWatermark running authenticated newer proposes above

/-- Recovery prunes what its own stable checkpoint covers. -/
theorem aboveWatermark_of_recover {topology : Topology} {wal : WriteAheadLog}
    {state : PbftState} (ok : topology.recover wal = .ok state) :
    state.AboveWatermark := by
  rcases Topology.recover_eq_ok.mp ok with ⟨recovered, _, _, rfl⟩
  intro positive
  rw [Topology.ledger_recoveredState]
  apply VoteLedger.AllSeqs.restrict
  intro seq kept
  have stable : 0 < recovered.recoveredStableCheckpoint := positive
  rw [survives, if_pos stable] at kept
  exact of_decide_eq_true kept

end PbftState

/-- In every run from a recovered state in which the leaders propose above the stable
checkpoint, all seven maps stay above it. -/
theorem aboveWatermark_of_proposesAbove {totalNodes : Nat}
    {initialPublicKeys : AssocMap UInt32 G2Projective}
    {masterPublicKey : G2Projective} {wal : WriteAheadLog}
    {initial final : PbftState} {calls : List (PbftMessage × WalIo)}
    (started : newWithWalPath totalNodes initialPublicKeys masterPublicKey wal =
      .ok initial)
    (proposes : Along handleStep PbftState.LeaderProposesAbove initial calls)
    (reached : run handleStep initial calls = some final) :
    final.AboveWatermark := by
  rcases newWithWalPath_eq_ok.mp started with ⟨topology, _, recovers⟩
  apply invariant_of_along ?_ (PbftState.aboveWatermark_of_recover recovers)
    proposes reached
  intro state call next above higher stepped
  rw [handleStep, Option.some.injEq] at stepped
  subst stepped
  exact above.handle higher

end Watermark

section SmallRun

open SmallCluster

attribute [local instance] smallCurve

/-- A checkpoint at sequence 5, as calls, and then the leader's proposal. -/
def checkpointThenPropose (seq : UInt64) : List (PbftMessage × WalIo) :=
  [0, 1, 2].map (fun sender =>
    (signed .checkpoint 0 5 (digestOf 7) sender, WalIo.durable)) ++
  [(signed .prePrepare 0 seq (digestOf 7) 0, .durable)]

/-- A test of one call: a proposal is above the stable checkpoint. -/
def proposesAboveCheck (state : PbftState) (call : PbftMessage × WalIo) : Bool :=
  decide (call.1.phase = .prePrepare →
    state.lastStableCheckpoint = 0 ∨ state.lastStableCheckpoint < call.1.seq)

theorem leaderProposesAbove_of_check {state : PbftState} {call : PbftMessage × WalIo}
    (checked : proposesAboveCheck state call = true) :
    state.LeaderProposesAbove call :=
  fun _ phase _ _ _ => of_decide_eq_true checked phase

/-- The theorem at a run that proposes above its checkpoint. -/
theorem aboveWatermark_aboveFive :
    (topology.fresh.handleAll (checkpointThenPropose 6)).lastStableCheckpoint = 5 ∧
      (topology.fresh.handleAll (checkpointThenPropose 6)).AboveWatermark := by
  have stable : (topology.fresh.handleAll
      (checkpointThenPropose 6)).lastStableCheckpoint = 5 := by
    decide +kernel
  have reached := run_handleStep topology.fresh (checkpointThenPropose 6)
  have proposes : Along handleStep PbftState.LeaderProposesAbove topology.fresh
      (checkpointThenPropose 6) :=
    along_of_checkAlong (fun _ _ => leaderProposesAbove_of_check)
      (by decide +kernel)
  exact ⟨stable,
    aboveWatermark_of_proposesAbove topology.fresh_started proposes reached⟩

/-- A proposal at the stable checkpoint is accepted. -/
theorem proposalAtCheckpoint_accepted :
    newWithWalPath topology.totalNodes topology.publicKeys
        topology.masterPublicKey ⟨[]⟩ = .ok topology.fresh ∧
      ¬ (topology.fresh.handleAll (checkpointThenPropose 5)).AboveWatermark := by
  have facts : (topology.fresh.handleAll
        (checkpointThenPropose 5)).lastStableCheckpoint = 5 ∧
      (0, 5, digestOf 7) ∈ (topology.fresh.handleAll
        (checkpointThenPropose 5)).prePreparedProposals := by
    decide +kernel
  refine ⟨topology.fresh_started, ?_⟩
  generalize topology.fresh.handleAll (checkpointThenPropose 5) = state at facts ⊢
  rcases facts with ⟨stable, proposed⟩
  intro above
  have positive : 0 < state.lastStableCheckpoint := by
    rw [stable]
    exact of_decide_eq_true rfl
  have higher := above.proposal_above positive proposed
  rw [stable] at higher
  exact UInt64.lt_irrefl 5 higher

end SmallRun

end SovereignLattice
