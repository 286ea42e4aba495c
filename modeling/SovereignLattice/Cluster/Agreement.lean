import SovereignLattice.Cluster.Accounting
import SovereignLattice.Foundations.Quorums
import SovereignLattice.Replica.SmallCluster

/-!
# Agreement within a view

A committed slot rests on a quorum of commit votes, the votes of correct nodes
in it were signed by them, and a correct node backs what it signs by its one
proposal for the slot.
-/

namespace SovereignLattice

section Agreement

variable [Curve]

variable {config : ClusterConfig} {cluster : Cluster}

/-- A committed slot has a quorum of registered signers, and each correct one of
them has signed the commit. -/
theorem Accounted.committed_quorum {signed : List (UInt32 × Bytes)}
    {state : PbftState} (accounted : Accounted config signed state)
    {view seq : UInt64} {digest : Digest}
    (committed : state.committedDigest.get? (view, seq) = some digest) :
    ∃ quorum : Finset UInt32, quorum ⊆ config.topology.registeredNodes ∧
      2 * config.topology.f + 1 ≤ quorum.card ∧
      ∀ node ∈ quorum, node ∉ config.byzantine →
        (node, statement .commit (view, seq, digest)) ∈ signed := by
  have chain := accounted.chain
  rw [PbftState.Chained] at chain
  rw [accounted.sameTopology] at chain
  have present : (state.ledger.committed.get? (view, seq)).isSome :=
    Option.isSome_iff_exists.mpr ⟨digest, committed⟩
  obtain ⟨cert, stored⟩ := Option.isSome_iff_exists.mp
    ((chain.committed_keys (view, seq)).mpr present)
  rcases chain.commit_chain view seq cert stored with
    ⟨_, _, sameDigest, votes, size, _⟩
  have same : cert.digest = digest :=
    Option.some.inj (sameDigest.symm.trans committed)
  rw [same] at votes
  have voted : ∀ node ∈ cert.signatures.keySet, ∃ signature,
      cert.signatures.get? node = some signature := fun node member =>
    AssocMap.mem_keys_iff.mp member
  refine ⟨cert.signatures.keySet, ?_, ?_, ?_⟩
  · intro node member
    rcases voted node member with ⟨signature, found⟩
    exact (chain.commitVotes_authentic _ _ votes node signature found).1
  · rw [AssocMap.card_keySet, ← config.topology.quorumSize_eq]
    exact size
  · intro node member correct
    rcases voted node member with ⟨signature, found⟩
    exact accounted.commitVotes _ _ votes node signature found correct

/-- The node has signed a commit of the proposal. -/
def SignedCommit (cluster : Cluster) (id : UInt32) (key : ProposalKey) : Prop :=
  (id, statement .commit key) ∈ cluster.signed

/-- What relates the commits of every correct node relates all commits of
correct replicas. -/
theorem Sound.related_of_committed (sound : Sound config cluster)
    {related : ProposalKey → ProposalKey → Prop}
    (consistent : ∀ id state, config.Correct id →
      (cluster.nodes id).state = some state →
      Accounted config cluster.signed state → ∀ key other,
        (id, statement .commit key) ∈ cluster.signed →
        (id, statement .commit other) ∈ cluster.signed → related key other)
    {a b : UInt32} (aCorrect : config.Correct a) (bCorrect : config.Correct b)
    {stateA stateB : PbftState}
    (heldA : (cluster.nodes a).state = some stateA)
    (heldB : (cluster.nodes b).state = some stateB)
    {viewA viewB seqA seqB : UInt64} {digestA digestB : Digest}
    (committedA : stateA.committedDigest.get? (viewA, seqA) = some digestA)
    (committedB : stateB.committedDigest.get? (viewB, seqB) = some digestB) :
    related (viewA, seqA, digestA) (viewB, seqB, digestB) := by
  rcases sound.replicas a aCorrect with ⟨_, sameA, accountedA, _⟩
  rcases sound.replicas b bCorrect with ⟨_, sameB, accountedB, _⟩
  rw [heldA, Option.some.injEq] at sameA
  rw [heldB, Option.some.injEq] at sameB
  subst sameA sameB
  rcases accountedA.committed_quorum committedA with
    ⟨quorumA, membersA, sizeA, signedA⟩
  rcases accountedB.committed_quorum committedB with
    ⟨quorumB, membersB, sizeB, signedB⟩
  refine related_of_quorums (SignedCommit cluster)
    config.topology.card_registeredNodes_le config.byzantine_few ?_ membersA
    membersB sizeA sizeB signedA signedB
  intro id registered correct key other
  rcases sound.replicas id ⟨registered, correct⟩ with ⟨state, held, accounted, _⟩
  exact consistent id state ⟨registered, correct⟩ held accounted key other

theorem sound_of_run {actions : List ClusterAction}
    (reached : run (Cluster.step config) config.start actions = some cluster) :
    Sound config cluster :=
  invariant_of_run (fun _ _ _ sound stepped => sound.step stepped)
    (Sound.start config) reached

/-- Proposals of one slot have one digest. -/
def AgreeInSlot (key other : ProposalKey) : Prop :=
  key.1 = other.1 → key.2.1 = other.2.1 → key.2.2 = other.2.2

/-- A correct node backs its commits by its one proposal for the slot. -/
theorem Sound.digest_unique (sound : Sound config cluster) {a b : UInt32}
    (aCorrect : config.Correct a) (bCorrect : config.Correct b)
    {stateA stateB : PbftState}
    (heldA : (cluster.nodes a).state = some stateA)
    (heldB : (cluster.nodes b).state = some stateB)
    {view seq : UInt64} {digestA digestB : Digest}
    (committedA : stateA.committedDigest.get? (view, seq) = some digestA)
    (committedB : stateB.committedDigest.get? (view, seq) = some digestB) :
    digestA = digestB := by
  suffices together : AgreeInSlot (view, seq, digestA) (view, seq, digestB) from
    together rfl rfl
  apply sound.related_of_committed ?_ aCorrect bCorrect heldA heldB committedA
    committedB
  rintro id state correct held accounted ⟨view, seq, digest⟩ ⟨_, _, digest'⟩
    first second rfl rfl
  rcases sound.replicas id correct with ⟨_, same, _, backed⟩
  rw [held, Option.some.injEq] at same
  subst same
  exact accounted.chain.proposal_unique view seq digest digest'
    (backed _ first).1 (backed _ second).1

/-- Two correct replicas that have committed a slot have committed the same
digest in it. -/
theorem agreement_in_view {actions : List ClusterAction}
    (reached : run (Cluster.step config) config.start actions = some cluster)
    {a b : UInt32} (aCorrect : config.Correct a) (bCorrect : config.Correct b)
    {stateA stateB : PbftState}
    (heldA : (cluster.nodes a).state = some stateA)
    (heldB : (cluster.nodes b).state = some stateB)
    {view seq : UInt64} {digestA digestB : Digest}
    (committedA : stateA.committedDigest.get? (view, seq) = some digestA)
    (committedB : stateB.committedDigest.get? (view, seq) = some digestB) :
    digestA = digestB := by
  have sound := sound_of_run reached
  exact sound.digest_unique aCorrect bCorrect heldA heldB committedA committedB

end Agreement

/-! ## Four nodes, one of them Byzantine -/

section SmallRun

attribute [local instance] smallCurve

namespace SmallCluster

def config (votePolicy : PbftState → UInt64 → UInt64 → Digest → Bool) :
    ClusterConfig where
  topology := topology
  byzantine := {1}
  byzantine_few := by decide
  secretKey := share
  votePolicy := votePolicy

def deliverBoth (msgs : List PbftMessage) : List ClusterAction :=
  [2, 3].flatMap fun id =>
    msgs.map fun msg => .deliver id (.pbft msg) .durable

/-- Nodes 2 and 3 decide a proposed slot with the votes of node 1. -/
def decideSlot (view seq : UInt64) (digest : Digest) (leader : UInt32) :
    List ClusterAction :=
  deliverBoth [signed .prePrepare view seq digest leader] ++
    [.inject (.pbft (signed .prepare view seq digest 1))] ++
    deliverBoth ([1, 2, 3].map (signed .prepare view seq digest)) ++
    [.inject (.pbft (signed .commit view seq digest 1))] ++
    deliverBoth ([1, 2, 3].map (signed .commit view seq digest))

def committedAt (cluster : Cluster) (id : UInt32) (slot : UInt64 × UInt64) :
    Option Digest :=
  (cluster.nodes id).state.bind fun state => state.committedDigest.get? slot

theorem exists_committedAt {result : Option Cluster} {nodeA nodeB : UInt32}
    {slotA slotB : UInt64 × UInt64}
    (computed : result.any (fun cluster =>
      (committedAt cluster nodeA slotA).isSome &&
        (committedAt cluster nodeB slotB).isSome) = true) :
    ∃ cluster stateA stateB digestA digestB,
      result = some cluster ∧ (cluster.nodes nodeA).state = some stateA ∧
        (cluster.nodes nodeB).state = some stateB ∧
        stateA.committedDigest.get? slotA = some digestA ∧
        stateB.committedDigest.get? slotB = some digestB := by
  rcases (Option.any_eq_true _ _).mp computed with ⟨cluster, reached, decided⟩
  rcases (Bool.and_eq_true _ _).mp decided with ⟨first, second⟩
  rcases Option.isSome_iff_exists.mp first with ⟨digestA, foundA⟩
  rcases Option.isSome_iff_exists.mp second with ⟨digestB, foundB⟩
  rcases Option.bind_eq_some_iff.mp foundA with ⟨stateA, heldA, committedA⟩
  rcases Option.bind_eq_some_iff.mp foundB with ⟨stateB, heldB, committedB⟩
  exact ⟨cluster, stateA, stateB, digestA, digestB, reached, heldA, heldB,
    committedA, committedB⟩

end SmallCluster

open SmallCluster

theorem agreement_in_view_decided :
    ∃ (cluster : Cluster) (stateA stateB : PbftState) (digestA digestB : Digest),
      run (Cluster.step (config fun _ _ _ _ => true))
          (config fun _ _ _ _ => true).start
          (.propose 0 0 1 (digestOf 0xaa) ::
            decideSlot 0 1 (digestOf 0xaa) 0) = some cluster ∧
        (cluster.nodes 2).state = some stateA ∧
        (cluster.nodes 3).state = some stateB ∧
        stateA.committedDigest.get? (0, 1) = some digestA ∧
        stateB.committedDigest.get? (0, 1) = some digestB ∧
        digestA = digestB := by
  have computed : (run (Cluster.step (config fun _ _ _ _ => true))
      (config fun _ _ _ _ => true).start
      (.propose 0 0 1 (digestOf 0xaa) ::
        decideSlot 0 1 (digestOf 0xaa) 0)).any (fun cluster =>
          (committedAt cluster 2 (0, 1)).isSome &&
            (committedAt cluster 3 (0, 1)).isSome) = true := by
    decide +kernel
  obtain ⟨cluster, stateA, stateB, digestA, digestB, reached, heldA, heldB,
    committedA, committedB⟩ := exists_committedAt computed
  exact ⟨cluster, stateA, stateB, digestA, digestB, reached, heldA, heldB,
    committedA, committedB,
    agreement_in_view reached (by decide) (by decide) heldA heldB committedA
      committedB⟩

end SmallRun

end SovereignLattice
