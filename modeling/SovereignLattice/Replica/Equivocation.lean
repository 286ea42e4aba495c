import SovereignLattice.Replica.Tracking
import SovereignLattice.Replica.Watermark

/-!
# Leader equivocation over a whole run

An accepted proposal stays known until a stable checkpoint covers its sequence,
across restarts too.  A second digest for its slot is refused as long as the
handler is given no proposal that the stable checkpoint covers.
-/

namespace SovereignLattice

section Equivocation

variable [Curve]

/-- A delivered proposal of the leader of the current view is above the stable
checkpoint, where there is one. -/
def ProposesAbove (state : PbftState) (event : ReplicaEvent) : Prop :=
  ∀ msg, event = .deliver msg → state.LeaderProposesAbove (msg, .durable)

/-- The proposal is known, or a stable checkpoint covers it. -/
def RemembersOrCovers (topology : Topology) (key : ProposalKey)
    (state : PbftState) : Prop :=
  (∃ log, Tracks topology state log) ∧
    (key ∈ state.prePreparedProposals ∨
      0 < state.lastStableCheckpoint ∧
        key.2.1 ≤ state.lastStableCheckpoint)

namespace PbftState

/-- The answer `INBOUND_OK_PREPREPARE`, read back. -/
theorem stages_of_inboundOk {state : PbftState} {msg : PbftMessage}
    {io : WalIo}
    (answered : (state.handleMessage msg io).1 = .ok .inboundOkPreprepare) :
    (state.LeaderProposesAbove (msg, io) →
        state.lastStableCheckpoint = 0 ∨ state.lastStableCheckpoint < msg.seq) ∧
      (∀ digest, (msg.view, msg.seq, digest) ∈ state.prePreparedProposals →
        digest = msg.digest) ∧
      msg.proposalKey ∈ (state.handleMessage msg io).2.prePreparedProposals := by
  rcases state.exists_outcome msg io with
    ⟨answer, next, handled, outcome⟩
  simp only [handled] at answered ⊢
  subst answered
  cases outcome with
  | accepted _ staged running authenticated newer stages unstable =>
      cases stages with
      | prePrepare phase view leader unique fresh =>
          refine ⟨?_, unique, Finset.mem_insert_self _ _⟩
          exact fun proposes => proposes running phase authenticated view leader
      | prepare _ _ _ _ _ answer =>
          rcases answer with answer | answer <;> cases answer
      | commit _ _ _ _ _ _ _ _ _ _ _ answer =>
          rcases answer with answer | answer <;> cases answer

end PbftState

namespace RemembersOrCovers

variable {topology : Topology} {key : ProposalKey} {state next : PbftState}

theorem delivered {log nextLog : List Record} {msg : PbftMessage}
    {answer : Except PbftError Response}
    (delivered : Delivered state log msg answer next nextLog)
    (remembers : key ∈ state.prePreparedProposals ∨
      0 < state.lastStableCheckpoint ∧
        key.2.1 ≤ state.lastStableCheckpoint) :
    key ∈ next.prePreparedProposals ∨
      0 < next.lastStableCheckpoint ∧ key.2.1 ≤ next.lastStableCheckpoint := by
  cases delivered with
  | rejected error => exact remembers
  | obsolete => exact remembers
  | accepted response staged authenticated newer stages unstable =>
      rcases remembers with known | covered
      · exact Or.inl (stages.proposals_subset unstable known)
      · rw [← stages.lastStableCheckpoint_eq unstable] at covered
        exact Or.inr covered
  | stabilized staged authenticated newer stages =>
      obtain ⟨phase, view, quorum, rfl⟩ := stages.stabilized_inv
      have positive : 0 < msg.seq :=
        UInt64.lt_of_le_of_lt UInt64.zero_le newer
      by_cases above : msg.seq < key.2.1
      · rcases remembers with known | ⟨_, covered⟩
        · exact Or.inl (Finset.mem_filter.mpr ⟨known, decide_eq_true above⟩)
        · have impossible := UInt64.lt_of_le_of_lt covered newer
          exact absurd above (UInt64.not_lt.mpr (UInt64.le_of_lt impossible))
      · exact Or.inr ⟨positive, UInt64.not_lt.mp above⟩

theorem restarted {log : List Record} (tracks : Tracks topology state log)
    (ok : topology.recover state.wal = .ok next)
    (remembers : key ∈ state.prePreparedProposals ∨
      0 < state.lastStableCheckpoint ∧
        key.2.1 ≤ state.lastStableCheckpoint) :
    key ∈ next.prePreparedProposals ∨
      0 < next.lastStableCheckpoint ∧ key.2.1 ≤ next.lastStableCheckpoint := by
  have other := (tracks.restarted ok).2.2
  have sameStable : next.lastStableCheckpoint = state.lastStableCheckpoint :=
    other.stable.unique tracks.stable
  have follows := other.follows
  rw [sameStable] at follows ⊢
  rcases remembers with known | covered
  · by_cases kept : survives state.lastStableCheckpoint key.2.1 = true
    · left
      exact (follows.proposals key kept).mpr
        ((tracks.follows.proposals key kept).mp known)
    · right
      rw [survives] at kept
      split at kept
      · rename_i positive
        rw [decide_eq_true_eq] at kept
        exact ⟨positive, UInt64.not_lt.mp kept⟩
      · exact absurd rfl kept
  · exact Or.inr covered

theorem step {event : ReplicaEvent}
    (remembers : RemembersOrCovers topology key state)
    (stepped : replicaStep state event = some next) :
    RemembersOrCovers topology key next := by
  obtain ⟨⟨log, tracks⟩, known⟩ := remembers
  refine ⟨tracks.step stepped, ?_⟩
  cases event with
  | deliver msg =>
      have file : state.wal.file = encodeLog log := by rw [tracks.file]
      rcases handleMessage_delivered file msg with ⟨nextLog, delivered⟩
      rw [replicaStep, Option.some.injEq] at stepped
      rw [stepped] at delivered
      exact RemembersOrCovers.delivered delivered known
  | restart =>
      rw [replicaStep_restart, tracks.sameTopology] at stepped
      exact RemembersOrCovers.restarted tracks stepped known

end RemembersOrCovers

/-- Proposals that are accepted at two points of a run for one slot have the
same digest. -/
def AcceptsOneDigest (initial : PbftState) (events : List ReplicaEvent) :
    Prop :=
  ∀ earlier first middle second rest before between,
    events = earlier ++ .deliver first :: middle ++ .deliver second :: rest →
    run replicaStep initial earlier = some before →
    (before.handleMessage first .durable).1 = .ok .inboundOkPreprepare →
    run replicaStep initial (earlier ++ .deliver first :: middle) =
      some between →
    (between.handleMessage second .durable).1 = .ok .inboundOkPreprepare →
    first.view = second.view → first.seq = second.seq →
      first.digest = second.digest

/-- In every run whose leaders propose above the stable checkpoint, no slot has
two digests accepted. -/
theorem acceptsOneDigest_of_proposesAbove {totalNodes : Nat}
    {initialPublicKeys : AssocMap UInt32 G2Projective}
    {masterPublicKey : G2Projective} {initial : PbftState}
    {events : List ReplicaEvent}
    (started : newWithWalPath totalNodes initialPublicKeys masterPublicKey
      ⟨[]⟩ = .ok initial)
    (proposesAbove : Along replicaStep ProposesAbove initial events) :
    AcceptsOneDigest initial events := by
  rcases fresh_of_started started with ⟨topology, rfl, _⟩
  intro earlier first middle second rest before between split ran firstAccepted
    ranOn secondAccepted sameView sameSeq
  subst split
  rcases run_append_eq_some.mp ranOn with ⟨beforeAgain, ranAgain, continued⟩
  rw [ran, Option.some.injEq] at ranAgain
  subst ranAgain
  rcases run_cons_eq_some.mp continued with ⟨after, stepped, reached⟩
  have known : RemembersOrCovers topology first.proposalKey after := by
    rcases tracks_of_run ran with ⟨log, tracks⟩
    refine ⟨tracks.step stepped, Or.inl ?_⟩
    rw [replicaStep, Option.some.injEq] at stepped
    rw [← stepped]
    exact (PbftState.stages_of_inboundOk firstAccepted).2.2
  have remembers : RemembersOrCovers topology first.proposalKey between :=
    invariant_of_run (fun _ _ _ => RemembersOrCovers.step) known reached
  rcases PbftState.stages_of_inboundOk secondAccepted with
    ⟨guarded, unique, _⟩
  have above := guarded ((along_append ranOn proposesAbove).1 second rfl)
  rcases remembers.2 with member | ⟨positive, covered⟩
  · apply unique
    rw [← sameView, ← sameSeq]
    exact member
  · have coveredSeq : second.seq ≤ between.lastStableCheckpoint := by
      rw [← sameSeq]
      exact covered
    rcases above with zero | above
    · rw [zero] at positive
      exact absurd positive (UInt64.lt_irrefl 0)
    · exact absurd above (UInt64.not_lt.mpr coveredSeq)

end Equivocation

section SmallRun

open SmallCluster

attribute [local instance] smallCurve

/-- The theorem at a run with an equivocating proposal and a checkpoint. -/
theorem oneDigest_aboveCheckpoint :
    AcceptsOneDigest topology.fresh
      (.deliver (signed .prePrepare 0 5 (digestOf 0xaa) 0) ::
        .deliver (signed .prePrepare 0 5 (digestOf 0xbb) 0) ::
        fromQuorum .checkpoint 0 5 (digestOf 0xaa) ++
        [.restart, .deliver (signed .prePrepare 0 6 (digestOf 0xbb) 0)]) := by
  apply acceptsOneDigest_of_proposesAbove topology.fresh_started
  have sound : ∀ (replica : RecordReplica) (msg : PbftMessage),
      proposesAboveCheck replica.stored (msg, .durable) = true →
        replica.stored.LeaderProposesAbove (msg, .durable) :=
    fun _ _ => leaderProposesAbove_of_check
  exact RecordReplica.along_of_check sound (by decide +kernel)

/-- Once a checkpoint at its sequence is stable, a proposal is forgotten, and
the leader's other proposal for the slot is accepted too. -/
theorem secondDigest_accepted :
    newWithWalPath topology.totalNodes topology.publicKeys
        topology.masterPublicKey ⟨[]⟩ = .ok topology.fresh ∧
      ¬ AcceptsOneDigest topology.fresh
        (.deliver (signed .prePrepare 0 5 (digestOf 0xaa) 0) ::
          fromQuorum .checkpoint 0 5 (digestOf 0xaa) ++
          [.deliver (signed .prePrepare 0 5 (digestOf 0xbb) 0)]) := by
  refine ⟨topology.fresh_started, ?_⟩
  intro oneDigest
  have firstAccepted : (topology.fresh.handleMessage
      (signed .prePrepare 0 5 (digestOf 0xaa) 0) .durable).1 =
        .ok .inboundOkPreprepare := by
    decide +kernel
  have computed : (run recordStep (topology.fresh, [])
      (.deliver (signed .prePrepare 0 5 (digestOf 0xaa) 0) ::
        fromQuorum .checkpoint 0 5 (digestOf 0xaa))).any
        (fun replica =>
          (replica.handle (signed .prePrepare 0 5 (digestOf 0xbb) 0)).1 =
            .ok .inboundOkPreprepare) = true := by
    decide +kernel
  rcases RecordReplica.exists_run computed with ⟨replica, reached, answered⟩
  have secondAccepted : (replica.stored.handleMessage
      (signed .prePrepare 0 5 (digestOf 0xbb) 0) .durable).1 =
        .ok .inboundOkPreprepare := by
    rw [RecordReplica.handle_stored]
    exact of_decide_eq_true answered
  have same := oneDigest [] _ _ _ [] topology.fresh replica.stored rfl rfl
    firstAccepted reached secondAccepted rfl rfl
  exact absurd same (by decide)

end SmallRun

end SovereignLattice
