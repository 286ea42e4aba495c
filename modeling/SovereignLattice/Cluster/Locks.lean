import SovereignLattice.Cluster.Agreement

/-!
# Agreement across views

The handler accepts a proposal of a later view whatever certificates it holds.
As long as the proposals that open a slot agree with the certificates that the
replica has for the sequence, a committed digest stays locked through every view
change.
-/

namespace SovereignLattice

section Locks

variable [Curve]

/-- The vote that the specification asks for in a view change: a later view, with
the sequence and digest of the highest prepared certificate, or zero. -/
def specVote (state : PbftState) (view seq : UInt64) (digest : Digest) : Bool :=
  decide (state.currentView < view) &&
    if state.preparedCertificates.values.isEmpty then
      decide (seq = 0 ∧ digest = zeroDigest)
    else
      state.preparedCertificates.values.any fun cert =>
        decide (cert.seq = seq ∧ cert.digest = digest) &&
          state.preparedCertificates.values.all fun other =>
            decide (other.seq < cert.seq ∨
              other.seq = cert.seq ∧ other.view ≤ cert.view)

/-- A proposal of the leader that opens a slot in the current view of a correct
replica has the digest of every certificate that the replica holds at that
sequence.  A stopped replica may be sent anything. -/
def RespectsLocks (config : ClusterConfig) (cluster : Cluster)
    (action : ClusterAction) : Prop :=
  ∀ id msg io state, action = .deliver id (.pbft msg) io → config.Correct id →
    (cluster.nodes id).state = some state → state.walFailed = false →
    msg.phase = .prePrepare → state.Authenticated msg →
    msg.view = state.currentView →
    msg.senderId = state.getExpectedLeader msg.view →
    (∀ digest, (msg.view, msg.seq, digest) ∉ state.prePreparedProposals) →
    ∀ cert ∈ state.preparedCertificates.values, cert.seq = msg.seq →
      msg.digest = cert.digest

/-- Later proposals repeat the digest of a prepared certificate. -/
def KeepsLocks (state : PbftState) : Prop :=
  ∀ view seq cert, state.preparedCertificates.get? (view, seq) = some cert →
    ∀ later digest, view < later →
      (later, seq, digest) ∈ state.prePreparedProposals → digest = cert.digest

theorem KeepsLocks.stages {config : ClusterConfig}
    {signed : List (UInt32 × Bytes)} {state staged : PbftState}
    {msg : PbftMessage} {response : Response} (keeps : KeepsLocks state)
    (accounted : Accounted config signed state)
    (respects : msg.phase = .prePrepare → msg.view = state.currentView →
      msg.senderId = state.getExpectedLeader msg.view →
      (∀ digest, (msg.view, msg.seq, digest) ∉ state.prePreparedProposals) →
      ∀ cert ∈ state.preparedCertificates.values, cert.seq = msg.seq →
        msg.digest = cert.digest)
    (stages : PbftState.Stages state msg response staged) :
    KeepsLocks staged := by
  intro view seq cert held later digest below member
  rcases stages.prepared_cases held with before | ⟨slot, current, _⟩
  · rcases stages.proposals_cases member with
      known | ⟨here, phase, current, leader, opens⟩
    · exact keeps view seq cert before later digest below known
    · rcases Prod.mk.inj here with ⟨rfl, rest⟩
      rcases Prod.mk.inj rest with ⟨rfl, rfl⟩
      obtain ⟨_, certSeq, _⟩ := accounted.chain.prepared_chain view _ cert before
      exact respects phase current leader opens cert
        (AssocMap.mem_values_iff.mpr ⟨_, before⟩) certSeq
  · -- the certificate is of the current view, so nothing later is proposed
    rcases Prod.mk.inj slot with ⟨rfl, rfl⟩
    rcases stages.proposals_cases member with known | ⟨here, _⟩
    · have entered := accounted.proposal_views _ known
      rw [← current] at entered
      exact absurd below (UInt64.not_lt.mpr entered)
    · rcases Prod.mk.inj here with ⟨rfl, _⟩
      exact absurd below (UInt64.lt_irrefl _)

/-- Every correct replica keeps its locks. -/
def Locked (config : ClusterConfig) (cluster : Cluster) : Prop :=
  ∀ id state, config.Correct id → (cluster.nodes id).state = some state →
    KeepsLocks state

theorem Locked.step {config : ClusterConfig} {cluster next : Cluster}
    {action : ClusterAction} (sound : Sound config cluster)
    (locked : Locked config cluster)
    (respects : RespectsLocks config cluster action)
    (stepped : cluster.step config action = some next) :
    Locked config next := by
  intro id after correct heldNext
  rcases sound.replicas id correct with ⟨before, held, accounted, _⟩
  have keeps := locked id before correct held
  rcases sound.replica_step stepped correct held heldNext with
    rfl | ⟨msg, io, rfl, received⟩
  · exact keeps
  · generalize (before.handleMessage msg io).1 = answer at received
    cases received with
    | unchanged => exact keeps
    | accepted response staged wal running authenticated stages unstable =>
        have kept := keeps.stages accounted
          (fun phase view leader opens => respects id msg io before rfl correct
            held running phase authenticated view leader opens) stages
        exact kept

/-- What the argument about locks knows about a cluster. -/
def SoundlyLocked (config : ClusterConfig) (cluster : Cluster) : Prop :=
  Sound config cluster ∧ Locked config cluster

theorem locked_of_along {config : ClusterConfig} {cluster : Cluster}
    {actions : List ClusterAction}
    (reached : run (Cluster.step config) config.start actions = some cluster)
    (respects : Along (Cluster.step config) (RespectsLocks config) config.start
      actions) :
    SoundlyLocked config cluster := by
  have initially : SoundlyLocked config config.start := by
    refine ⟨Sound.start config, ?_⟩
    intro id state correct held view seq cert stored
    cases held
    cases stored
  have preserved : ∀ current action next, SoundlyLocked config current →
      RespectsLocks config current action →
        current.step config action = some next → SoundlyLocked config next :=
    fun _ _ _ both allowed stepped =>
      ⟨both.1.step stepped, Locked.step both.1 both.2 allowed stepped⟩
  exact invariant_of_along preserved initially respects reached

/-- Proposals at one sequence have one digest, whatever their views. -/
def AgreeAtSeq (key other : ProposalKey) : Prop :=
  key.2.1 = other.2.1 → key.2.2 = other.2.2

/-- In every run whose proposals respect the locks, all digests that correct
replicas have committed at one sequence are the same, whatever the views. -/
theorem agreement_across_views {config : ClusterConfig} {cluster : Cluster}
    {actions : List ClusterAction}
    (reached : run (Cluster.step config) config.start actions = some cluster)
    (respects : Along (Cluster.step config) (RespectsLocks config) config.start
      actions)
    {a b : UInt32} (aCorrect : config.Correct a) (bCorrect : config.Correct b)
    {stateA stateB : PbftState}
    (heldA : (cluster.nodes a).state = some stateA)
    (heldB : (cluster.nodes b).state = some stateB)
    {viewA viewB seq : UInt64} {digestA digestB : Digest}
    (committedA : stateA.committedDigest.get? (viewA, seq) = some digestA)
    (committedB : stateB.committedDigest.get? (viewB, seq) = some digestB) :
    digestA = digestB := by
  rcases locked_of_along reached respects with ⟨sound, locked⟩
  suffices together : AgreeAtSeq (viewA, seq, digestA) (viewB, seq, digestB) from
    together rfl
  apply sound.related_of_committed ?_ aCorrect bCorrect heldA heldB committedA
    committedB
  rintro id state correct held accounted ⟨view, seq, digest⟩
    ⟨view', _, digest'⟩ first second rfl
  rcases sound.replicas id correct with ⟨_, same, _, backed⟩
  rw [held, Option.some.injEq] at same
  subst same
  have keeps := locked id state correct held
  rcases backed _ first with ⟨proposed, cert, prepared, certDigest⟩
  rcases backed _ second with ⟨proposed', cert', prepared', certDigest'⟩
  dsimp only at certDigest certDigest'
  by_cases earlier : view < view'
  · exact certDigest.symm.trans
      (keeps view _ cert prepared view' digest' earlier proposed').symm
  by_cases later : view' < view
  · exact (keeps view' _ cert' prepared' view digest later proposed).trans
      certDigest'
  · have sameView : view = view' :=
      UInt64.le_antisymm (UInt64.not_lt.mp later) (UInt64.not_lt.mp earlier)
    subst sameView
    exact accounted.chain.proposal_unique view _ digest digest' proposed proposed'

end Locks

section SmallRun

attribute [local instance] smallCurve

open SmallCluster

/-- Nodes 2 and 3 decide the first slot in view 0, change to view 1 with the
votes of the specification, and decide it again as its leader, node 1,
proposes. -/
def decideAgain (byte : UInt8) : List ClusterAction :=
  .propose 0 0 1 (digestOf 0xaa) :: decideSlot 0 1 (digestOf 0xaa) 0 ++
    [.vote 2 1 1 (digestOf 0xaa), .vote 3 1 1 (digestOf 0xaa),
      .inject (.pbft (signed .viewChange 1 1 (digestOf 0xaa) 1))] ++
    deliverBoth ([1, 2, 3].map (signed .viewChange 1 1 (digestOf 0xaa))) ++
    .inject (.pbft (signed .prePrepare 1 1 (digestOf byte) 1)) ::
      decideSlot 1 1 (digestOf byte) 1

/-- A test of one action: a proposal agrees with the certificates that its receiver
holds for the sequence. -/
def respectsLocksCheck (cluster : Cluster) : ClusterAction → Bool
  | .deliver id (.pbft msg) _ =>
      (cluster.nodes id).state.all fun state =>
        decide (msg.phase = .prePrepare →
          ∀ cert ∈ state.preparedCertificates.values, cert.seq = msg.seq →
            msg.digest = cert.digest)
  | _ => true

theorem respectsLocks_of_check {config : ClusterConfig} {cluster : Cluster}
    {action : ClusterAction} (checked : respectsLocksCheck cluster action = true) :
    RespectsLocks config cluster action := by
  rintro id msg io state rfl _ held _ phase _ _ _ _
  rw [respectsLocksCheck, held, Option.all_some] at checked
  exact of_decide_eq_true checked phase

/-- The theorem at the run that proposes the decided digest again. -/
theorem agreement_across_views_repeated :
    ∃ (cluster : Cluster) (stateA stateB : PbftState) (digestA digestB : Digest),
      run (Cluster.step (config specVote)) (config specVote).start
          (decideAgain 0xaa) = some cluster ∧
        (cluster.nodes 2).state = some stateA ∧
        (cluster.nodes 3).state = some stateB ∧
        stateA.committedDigest.get? (0, 1) = some digestA ∧
        stateB.committedDigest.get? (1, 1) = some digestB ∧
        digestA = digestB := by
  have computed : (run (Cluster.step (config specVote)) (config specVote).start
      (decideAgain 0xaa)).any (fun cluster =>
        (committedAt cluster 2 (0, 1)).isSome &&
          (committedAt cluster 3 (1, 1)).isSome) = true := by
    decide +kernel
  obtain ⟨cluster, stateA, stateB, digestA, digestB, reached, heldA, heldB,
    committedA, committedB⟩ := exists_committedAt computed
  have respects : Along (Cluster.step (config specVote))
      (RespectsLocks (config specVote)) (config specVote).start
      (decideAgain 0xaa) :=
    along_of_checkAlong (fun _ _ => respectsLocks_of_check) (by decide +kernel)
  exact ⟨cluster, stateA, stateB, digestA, digestB, reached, heldA, heldB,
    committedA, committedB,
    agreement_across_views reached respects (by decide) (by decide) heldA heldB
      committedA committedB⟩

/-- With a Byzantine leader of view 1, a correct replica commits two digests at
one sequence. -/
theorem decided_twice :
    ∃ (cluster : Cluster) (state : PbftState),
      run (Cluster.step (config specVote)) (config specVote).start
          (decideAgain 0xbb) = some cluster ∧
        (config specVote).Correct 2 ∧
        (cluster.nodes 2).state = some state ∧
        state.committedDigest.get? (0, 1) = some (digestOf 0xaa) ∧
        state.committedDigest.get? (1, 1) = some (digestOf 0xbb) ∧
        digestOf 0xaa ≠ digestOf 0xbb := by
  have computed : (run (Cluster.step (config specVote)) (config specVote).start
      (decideAgain 0xbb)).any (fun cluster =>
        (cluster.nodes 2).state.any fun state =>
          decide (state.committedDigest.get? (0, 1) = some (digestOf 0xaa) ∧
            state.committedDigest.get? (1, 1) = some (digestOf 0xbb))) =
        true := by
    decide +kernel
  rcases (Option.any_eq_true _ _).mp computed with ⟨cluster, reached, decided⟩
  rcases (Option.any_eq_true _ _).mp decided with ⟨state, held, checked⟩
  rcases of_decide_eq_true checked with ⟨first, second⟩
  exact ⟨cluster, state, reached, by decide, held, first, second, by decide⟩

end SmallRun

end SovereignLattice
