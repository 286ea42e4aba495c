import SovereignLattice.Dkg.Bootstrap

/-!
# The registry of public keys

The master key is summed by `finalize_dkg` over the configured ids, the registry by
`main` over the collected dealers.  When the loop has ended and finalisation
succeeds, both are evaluations of one list of commitments.
-/

namespace SovereignLattice

theorem foldl_skip_add {ι M : Type*} [AddCommMonoid M] (items : List ι)
    (skip : ι → Prop) [DecidablePred skip] (value : ι → M) (start : M) :
    items.foldl
        (fun total item => if skip item then total else total + value item)
        start =
      start + ((items.filter fun item => ¬ skip item).map value).sum := by
  induction items generalizing start with
  | nil => simp
  | cons item rest inductionHypothesis =>
      rw [List.foldl_cons, inductionHypothesis]
      by_cases skipped : skip item
      · simp [skipped]
      · simp [skipped, add_assoc]

section Registry

variable [Curve] [Encodings]

namespace NodeConfig

variable {config : NodeConfig} {ingest : Ingest}
variable {secretPolynomial : List Scalar}

/-- The node's own commitments and those of every configured peer. -/
def dealtCommitments (config : NodeConfig) (ingest : Ingest) :
    List (List G2Projective) :=
  ingest.session.generateCommitments ::
    config.peers.map fun id => ingest.collectedPeers.getD id []

/-- The commitments to the sum of all dealt polynomials. -/
def jointCommitments (config : NodeConfig) (ingest : Ingest) :
    List G2Projective :=
  pointwiseSum config.threshold (config.dealtCommitments ingest)

omit [Encodings] in
theorem Sound.length_dealtCommitments
    (sound : config.Sound secretPolynomial ingest)
    (length : secretPolynomial.length = config.threshold)
    (complete : ingest.collectedPeers.keySet = config.peers.toFinset) :
    ∀ commitments ∈ config.dealtCommitments ingest,
      commitments.length = config.threshold := by
  intro commitments member
  rcases List.mem_cons.mp member with rfl | member
  · rw [DkgSession.generateCommitments, List.length_map, sound.polynomial, length]
  · rcases List.mem_map.mp member with ⟨id, peer, rfl⟩
    rw [← List.mem_toFinset, ← complete, AssocMap.mem_keySet,
      AssocMap.mem_keys_iff] at peer
    rcases peer with ⟨held, stored⟩
    rw [AssocMap.getD_of_get? [] stored]
    rw [sound.collected] at stored
    rw [sound.checked.length id held stored, sound.threshold]

omit [Encodings] in
theorem Sound.sum_commitmentsOf (sound : config.Sound secretPolynomial ingest)
    (word : config.totalNodes < 2 ^ 32)
    (below : config.nodeId.toNat < config.totalNodes)
    (length : secretPolynomial.length = config.threshold)
    (complete : ingest.collectedPeers.keySet = config.peers.toFinset)
    (x : Scalar) :
    ((participants config.totalNodes).map fun id =>
        powerSum x (ingest.session.commitmentsOf id)).sum =
      powerSum x (config.jointCommitments ingest) := by
  have member := (mem_participants word).mpr below
  have lengths := sound.length_dealtCommitments length complete
  have own : ingest.session.commitmentsOf config.nodeId =
      ingest.session.generateCommitments := by
    rw [← sound.nodeId]
    exact DkgSession.commitmentsOf_self
  have others : ∀ id ∈ config.peers,
      powerSum x (ingest.session.commitmentsOf id) =
        powerSum x (ingest.collectedPeers.getD id []) := by
    intro id peer
    have other : id ≠ ingest.session.nodeId := by
      rw [sound.nodeId]
      exact ((mem_peers word).mp peer).2
    rw [DkgSession.commitmentsOf_peer other, sound.collected]
  rw [jointCommitments, powerSum_pointwiseSum x lengths, dealtCommitments,
    List.map_cons, List.sum_cons, List.map_map,
    ← sum_filter_ne (nodup_participants word) member, own, ← peers,
    List.map_congr_left others]
  rfl

omit [Encodings] in
theorem Sound.registryKey_eq (sound : config.Sound secretPolynomial ingest)
    (word : config.totalNodes < 2 ^ 32)
    (length : secretPolynomial.length = config.threshold)
    (complete : ingest.collectedPeers.keySet = config.peers.toFinset)
    (id : UInt32) :
    config.registryKey ingest id =
      powerSum (evaluationPoint id) (config.jointCommitments ingest) := by
  have lengths := sound.length_dealtCommitments length complete
  have known : ingest.collectedPeers.keys.Perm config.peers := by
    apply (List.perm_ext_iff_of_nodup ingest.collectedPeers.keys_nodup
      (nodup_peers word)).mpr
    intro peerId
    rw [← AssocMap.mem_keySet, complete, List.mem_toFinset]
  have noneSkipped : (ingest.collectedPeers.entries.filter fun entry =>
      ¬ entry.1 = config.nodeId) = ingest.collectedPeers.entries := by
    apply List.filter_eq_self.mpr
    intro entry member
    have peer : entry.1 ∈ config.peers :=
      known.mem_iff.mp (List.mem_map_of_mem member)
    simpa using ((mem_peers word).mp peer).2
  have collected := ingest.collectedPeers.map_entries_eq []
    fun _ commitments => powerSum (evaluationPoint id) commitments
  have dealt := (known.map fun peerId =>
    powerSum (evaluationPoint id) (ingest.collectedPeers.getD peerId [])).sum_eq
  rw [registryKey, foldl_skip_add, noneSkipped, collected, dealt,
    jointCommitments, powerSum_pointwiseSum _ lengths, dealtCommitments,
    List.map_cons, List.sum_cons, List.map_map, DkgSession.generateCommitments,
    powerSum_map_smul]
  rfl

omit [Encodings] in
theorem Sound.sum_shareOf_smul (sound : config.Sound secretPolynomial ingest)
    (word : config.totalNodes < 2 ^ 32)
    (complete : ingest.collectedPeers.keySet = config.peers.toFinset) :
    ((participants config.totalNodes).map ingest.session.shareOf).sum •
        Curve.g2Generator =
      ((participants config.totalNodes).map fun id =>
        powerSum (evaluationPoint config.nodeId)
          (ingest.session.commitmentsOf id)).sum := by
  rw [List.sum_smul, List.map_map]
  apply congrArg List.sum
  apply List.map_congr_left
  intro id known
  by_cases own : id = config.nodeId
  · rw [← sound.nodeId] at own ⊢
    subst own
    rw [DkgSession.commitmentsOf_self, DkgSession.generateCommitments,
      powerSum_map_smul]
    simp [DkgSession.shareOf, DkgSession.evaluateShareFor]
  · have held : id ∈ ingest.collectedPeers.keySet := by
      rw [complete, List.mem_toFinset, mem_peers word]
      exact ⟨(mem_participants word).mp known, own⟩
    rw [AssocMap.mem_keySet, AssocMap.mem_keys_iff, sound.collected] at held
    rcases held with ⟨commitments, stored⟩
    rcases sound.checked.share id commitments stored with ⟨share, sent, verified⟩
    rw [← sound.nodeId] at own ⊢
    rw [DkgSession.commitmentsOf_peer own, AssocMap.getD_of_get? [] stored,
      ← verified]
    simp [DkgSession.shareOf, own, AssocMap.getD_of_get? 0 sent]

omit [Encodings] in
theorem get?_registry (config : NodeConfig) (ingest : Ingest)
    (word : config.totalNodes < 2 ^ 32) {id : UInt32}
    (below : id.toNat < config.totalNodes) :
    (config.registry ingest).get? id = some (config.registryKey ingest id) := by
  rw [registry, AssocMap.get?_foldl_insert,
    if_pos ((mem_participants word).mpr below)]

omit [Encodings] in
/-- When finalisation succeeds with as many dealers as the node has peers, exactly
the peers have been collected. -/
theorem Sound.complete_of_finalizeDkg
    (sound : config.Sound secretPolynomial ingest)
    (word : config.totalNodes < 2 ^ 32)
    (below : config.nodeId.toNat < config.totalNodes)
    (positive : 1 ≤ config.threshold)
    (length : secretPolynomial.length = config.threshold)
    (count : ingest.collectedPeers.len = config.totalNodes - 1)
    {result : Scalar × G2Projective}
    (finalized : ingest.session.finalizeDkg (participants config.totalNodes) =
      .ok result) :
    ingest.collectedPeers.keySet = config.peers.toFinset := by
  have inside :=
    ((sound.finalizeDkg_eq_ok word below positive length).mp finalized).1
  apply (Finset.eq_of_subset_of_card_le inside ?_).symm
  rw [AssocMap.card_keySet, count, card_peers word below]

end NodeConfig

/-- When a bootstrap succeeds, the master key, the registry and the node's final
share all belong to the sum of its own commitments and the accepted ones of exactly
the other configured nodes. -/
theorem bootstrap_keysConsistent {config : NodeConfig}
    {secretPolynomial : List Scalar} {events : List InboundEvent}
    {final : Ingest} {share : Scalar} {masterPk : G2Projective}
    (word : config.totalNodes < 2 ^ 32)
    (below : config.nodeId.toNat < config.totalNodes)
    (positive : 1 ≤ config.threshold)
    (length : secretPolynomial.length = config.threshold)
    (ended : config.ingestLoop (config.start secretPolynomial) events =
      some (.ok final))
    (finalized : final.session.finalizeDkg (participants config.totalNodes) =
      .ok (share, masterPk)) :
    final.session.secretPolynomial = secretPolynomial ∧
      final.collectedPeers.keySet = config.peers.toFinset ∧
      (∀ id commitments, final.collectedPeers.get? id = some commitments →
        ∃ msg, .message msg ∈ events ∧ config.Accepts msg ∧ msg.fromNode = id ∧
          msg.commitments = commitments) ∧
      ∃ keys : List G2Projective, keys = config.jointCommitments final ∧
        keys.length = config.threshold ∧ keys[0]? = some masterPk ∧
        (∀ id : UInt32, id.toNat < config.totalNodes →
          (config.registry final).get? id =
            some (∑ k : Fin keys.length,
              ((id.toNat + 1 : Nat) : Scalar) ^ (k : Nat) • keys[k])) ∧
        (config.registry final).get? config.nodeId =
          some (share • Curve.g2Generator) := by
  rcases NodeConfig.len_of_ingestLoop_ok ended with ⟨sound, count⟩
  have complete := sound.complete_of_finalizeDkg word below positive length count
    finalized
  have sums := ((sound.finalizeDkg_eq_ok word below positive length).mp
    finalized).2
  rw [Prod.mk.injEq] at sums
  rcases sums with ⟨shareSum, keySum⟩
  have evaluated := sound.sum_commitmentsOf word below length complete
  have size : (config.jointCommitments final).length = config.threshold :=
    length_pointwiseSum (sound.length_dealtCommitments length complete)
  refine ⟨sound.polynomial, complete, ?_, _, rfl, size, ?_, ?_, ?_⟩
  · intro id commitments held
    rcases NodeConfig.ingestLoop_ok ended with ⟨msgs, rest, same, rfl, _⟩
    rcases NodeConfig.exists_sent_of_collected held with ⟨msg, sent, facts⟩
    refine ⟨msg, ?_, facts⟩
    rw [same]
    exact List.mem_append_left rest (List.mem_map_of_mem sent)
  · rw [evaluated] at keySum
    cases joint : config.jointCommitments final with
    | nil =>
        rw [joint, List.length_nil] at size
        omega
    | cons key rest =>
        rw [joint, powerSum_zero_cons] at keySum
        rw [keySum]
        rfl
  · intro id known
    have point : evaluationPoint id = ((id.toNat + 1 : Nat) : Scalar) :=
      evaluationPoint_eq (by omega)
    rw [NodeConfig.get?_registry config final word known,
      sound.registryKey_eq word length complete, powerSum_eq_sum, point]
  · rw [NodeConfig.get?_registry config final word below,
      sound.registryKey_eq word length complete, shareSum,
      sound.sum_shareOf_smul word complete, evaluated]

end Registry

section SmallRun

attribute [local instance] smallCurve smallEncodings

def smallConfig (nodeId : UInt32) : NodeConfig where
  nodeId := nodeId
  totalNodes := 3
  threshold := 2

def shareMessage (fromNode toNode : UInt32) (coefficients : List Nat) :
    DkgShareMessage :=
  (DkgSession.new fromNode 2 3 (coefficients.map Nat.cast)).shareMessageFor toNode

/-- Both peers' messages, one of them twice and one with a wrong share. -/
def smallEvents : List InboundEvent :=
  [.message { shareMessage 2 0 [4, 5] with share := 1 },
    .message (shareMessage 2 0 [4, 5]), .message (shareMessage 2 0 [6, 7]),
    .message (shareMessage 1 0 [8, 9])]

theorem bootstrap_keysConsistent_threeNodes :
    ∃ final share masterPk,
      (smallConfig 0).ingestLoop ((smallConfig 0).start [2, 3]) smallEvents =
          some (.ok final) ∧
        final.session.finalizeDkg (participants 3) = .ok (share, masterPk) ∧
        ((smallConfig 0).registry final).get? 0 =
          some (share • Curve.g2Generator) := by
  have evaluated : ((smallConfig 0).ingestLoop ((smallConfig 0).start [2, 3])
      smallEvents).bind (fun ended => ended.toOption.map fun final =>
        final.session.finalizeDkg (participants 3)) =
      some (.ok (31, (14 : Scalar) • Curve.g2Generator)) := by
    decide +kernel
  rcases NodeConfig.exists_final_of_eval evaluated with ⟨final, ended, finalized⟩
  have consistent := bootstrap_keysConsistent (by decide) (by decide) (by decide)
    rfl ended finalized
  rcases consistent with ⟨_, _, _, keys, _, _, _, _, own⟩
  exact ⟨final, _, _, ended, finalized, own⟩

end SmallRun

end SovereignLattice
