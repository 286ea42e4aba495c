import SovereignLattice.Cluster.Locks

/-!
# View-change reports cover decisions

A decision rests on correct nodes that hold its prepared certificate and keep it.
Every quorum of a view change has one of them, and the vote that the
specification asks it for reports the decided sequence or a later one.
-/

namespace SovereignLattice

section Reports

variable [Curve]

/-- The replica of the node holds a prepared certificate for the key. -/
def Cluster.HoldsPrepared (cluster : Cluster) (id : UInt32) (key : ProposalKey) : Prop :=
  ∃ state cert, (cluster.nodes id).state = some state ∧
    state.preparedCertificates.get? (slotOf key) = some cert ∧
    cert.digest = key.2.2

/-- The vote that the specification asks for reports at least the sequence of a held
certificate, and at this sequence one of its view or a later one. -/
theorem specVote_covers {state : PbftState} (chain : state.Chained)
    {view seq : UInt64} {cert : PreparedCertificate}
    (held : state.preparedCertificates.get? (view, seq) = some cert)
    {target reported : UInt64} {digest : Digest}
    (voted : specVote state target reported digest = true) :
    seq ≤ reported ∧ ∃ best ∈ state.preparedCertificates.values,
      best.seq = reported ∧ best.digest = digest ∧
        (reported = seq → view ≤ best.view) := by
  obtain ⟨certView, certSeq, _⟩ := chain.prepared_chain view seq cert held
  have member : cert ∈ state.preparedCertificates.values :=
    AssocMap.mem_values_iff.mpr ⟨_, held⟩
  have present : state.preparedCertificates.values.isEmpty = false := by
    cases values : state.preparedCertificates.values with
    | nil =>
        rw [values] at member
        cases member
    | cons => rfl
  rw [specVote, present, if_neg (by decide), Bool.and_eq_true,
    List.any_eq_true] at voted
  obtain ⟨_, best, bestMember, checked⟩ := voted
  rw [Bool.and_eq_true, List.all_eq_true] at checked
  rcases of_decide_eq_true checked.1 with ⟨bestSeq, bestDigest⟩
  have highest := of_decide_eq_true (checked.2 cert member)
  rw [certSeq, certView, bestSeq] at highest
  refine ⟨?_, best, bestMember, bestSeq, bestDigest, ?_⟩
  · rcases highest with below | ⟨same, _⟩
    · exact UInt64.le_of_lt below
    · exact UInt64.le_of_eq same
  · rintro rfl
    rcases highest with below | ⟨_, later⟩
    · exact absurd below (UInt64.lt_irrefl _)
    · exact later

variable {config : ClusterConfig} {cluster : Cluster}

/-- A correct node holds what it has signed a commit for. -/
theorem Sound.holdsPrepared (sound : Sound config cluster) {id : UInt32}
    (correct : config.Correct id) {key : ProposalKey}
    (made : (id, statement .commit key) ∈ cluster.signed) :
    cluster.HoldsPrepared id key := by
  rcases sound.replicas id correct with ⟨state, held, _, backed⟩
  rcases backed key made with ⟨_, cert, stored, digest⟩
  exact ⟨state, cert, held, stored, digest⟩

/-- In every run, once a correct replica has decided, more than `f` correct
replicas hold the prepared certificate.  Any quorum has a correct member that
does, and the view-change vote of the specification makes it report the decided
sequence or a later one; at the decided sequence it reports a certificate of the
decided view or a later one. -/
theorem decision_reported {actions : List ClusterAction}
    (reached : run (Cluster.step config) config.start actions = some cluster)
    {id : UInt32} (correct : config.Correct id) {state : PbftState}
    (held : (cluster.nodes id).state = some state)
    {view seq : UInt64} {digest : Digest}
    (committed : state.committedDigest.get? (view, seq) = some digest) :
    (∃ holders : Finset UInt32, config.topology.f + 1 ≤ holders.card ∧
      ∀ node ∈ holders, config.Correct node ∧
        cluster.HoldsPrepared node (view, seq, digest)) ∧
    ∀ quorum : Finset UInt32, quorum ⊆ config.topology.registeredNodes →
      2 * config.topology.f + 1 ≤ quorum.card →
      ∃ node ∈ quorum, config.Correct node ∧
        cluster.HoldsPrepared node (view, seq, digest) ∧
        ∀ voter target reported reportedDigest,
          (cluster.nodes node).state = some voter →
          specVote voter target reported reportedDigest = true →
          seq ≤ reported ∧ ∃ best ∈ voter.preparedCertificates.values,
            best.seq = reported ∧ best.digest = reportedDigest ∧
              (reported = seq → view ≤ best.view) := by
  have sound := sound_of_run reached
  rcases sound.replicas id correct with ⟨_, same, accounted, _⟩
  rw [held, Option.some.injEq] at same
  subst same
  rcases accounted.committed_quorum committed with ⟨signers, members, size, made⟩
  constructor
  · refine ⟨signers \ config.byzantine, ?_, ?_⟩
    · have few := config.byzantine_few
      have remain := Finset.le_card_sdiff config.byzantine signers
      omega
    · intro node member
      rcases Finset.mem_sdiff.mp member with ⟨signer, honest⟩
      have nodeCorrect : config.Correct node := ⟨members signer, honest⟩
      exact ⟨nodeCorrect, sound.holdsPrepared nodeCorrect (made node signer honest)⟩
  · intro quorum quorumMembers quorumSize
    obtain ⟨node, signer, member, honest⟩ :=
      exists_correct_in_both config.topology.card_registeredNodes_le
        config.byzantine_few members quorumMembers size quorumSize
    have nodeCorrect : config.Correct node := ⟨members signer, honest⟩
    have holds := sound.holdsPrepared nodeCorrect (made node signer honest)
    refine ⟨node, member, nodeCorrect, holds, ?_⟩
    intro voter target reported reportedDigest voterHeld voted
    rcases holds with ⟨holder, cert, holderHeld, stored, _⟩
    rw [voterHeld, Option.some.injEq] at holderHeld
    subst holderHeld
    rcases sound.replicas node nodeCorrect with ⟨_, sameVoter, voterAccounted, _⟩
    rw [voterHeld, Option.some.injEq] at sameVoter
    subst sameVoter
    exact specVote_covers voterAccounted.chain stored voted

end Reports

section SmallRun

attribute [local instance] smallCurve

open SmallCluster

/-- The theorem at a decision of node 2 and the quorum of the other three nodes. -/
theorem decision_reported_toOthers :
    ∃ (cluster : Cluster) (state : PbftState) (digest : Digest),
      run (Cluster.step (config specVote)) (config specVote).start
          (decideAgain 0xaa) = some cluster ∧
        (cluster.nodes 2).state = some state ∧
        state.committedDigest.get? (0, 1) = some digest ∧
        ∃ node ∈ ({0, 1, 3} : Finset UInt32),
          cluster.HoldsPrepared node (0, 1, digest) := by
  have computed : (run (Cluster.step (config specVote)) (config specVote).start
      (decideAgain 0xaa)).any (fun cluster =>
        (committedAt cluster 2 (0, 1)).isSome &&
          (committedAt cluster 3 (1, 1)).isSome) = true := by
    decide +kernel
  obtain ⟨cluster, state, _, digest, _, reached, held, _, committed, _⟩ :=
    exists_committedAt computed
  have reported := (decision_reported reached (by decide) held committed).2
    {0, 1, 3} (by decide) (by decide)
  obtain ⟨node, member, _, holds, _⟩ := reported
  exact ⟨cluster, state, digest, reached, held, committed, node, member, holds⟩

end SmallRun

end SovereignLattice
