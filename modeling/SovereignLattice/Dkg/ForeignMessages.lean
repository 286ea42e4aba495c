import SovereignLattice.Dkg.Registry

/-!
# Messages under foreign names

A share message is checked against the key that it carries, so anybody can sign one
under any sender id, and the ingest loop counts it.  It does no harm once every
configured peer has been collected, and makes finalisation fail otherwise.
-/

namespace SovereignLattice

section ForeignMessages

variable [Curve] [Encodings]

namespace NodeConfig

variable {config : NodeConfig} {ingest : Ingest}
variable {secretPolynomial : List Scalar} {msgs : List DkgShareMessage}

/-- A peer has sent a message that passes all checks. -/
def HeardFrom (config : NodeConfig) (msgs : List DkgShareMessage)
    (id : UInt32) : Prop :=
  ∃ msg ∈ msgs, config.Accepts msg ∧ msg.fromNode = id

/-- No message passes under a foreign name before all peers have been heard. -/
def PeersFirst (config : NodeConfig) (msgs : List DkgShareMessage) : Prop :=
  ∀ before msg after, msgs = before ++ msg :: after → config.Accepts msg →
    msg.fromNode ∉ config.peers →
      ∀ peer ∈ config.peers, config.HeardFrom before peer

/-- Messages that bring enough dealers make the loop end, at the first of their
prefixes that does. -/
theorem ingestLoop_messages
    (enough : config.totalNodes - 1 ≤
      (config.ingestAll ingest msgs).collectedPeers.len) :
    ∃ consumed, consumed <+: msgs ∧
      config.ingestLoop ingest (msgs.map .message) =
        some (.ok (config.ingestAll ingest consumed)) ∧
      ∀ earlier, earlier <+: consumed → earlier ≠ consumed →
        (config.ingestAll ingest earlier).collectedPeers.len <
          config.totalNodes - 1 := by
  induction msgs generalizing ingest with
  | nil =>
      refine ⟨[], List.prefix_refl _, ?_, ?_⟩
      · have stopped : ¬ ingest.collectedPeers.len < config.totalNodes - 1 :=
          Nat.not_lt.mpr enough
        exact ingestLoop_of_enough stopped []
      · intro earlier before other
        exact absurd (List.prefix_nil.mp before) other
  | cons msg rest inductionHypothesis =>
      rw [List.map_cons]
      by_cases few : ingest.collectedPeers.len < config.totalNodes - 1
      · rw [ingestLoop_message few]
        rcases inductionHypothesis enough with ⟨consumed, inside, ended, fewer⟩
        refine ⟨msg :: consumed, (List.prefix_cons_inj msg).mpr inside, ended, ?_⟩
        intro earlier before other
        cases earlier with
        | nil => exact few
        | cons first more =>
            rcases List.cons_prefix_cons.mp before with ⟨rfl, within⟩
            exact fewer more within fun whole => other (by rw [whole])
      · refine ⟨[], List.nil_prefix, ingestLoop_of_enough few _, ?_⟩
        intro earlier before other
        exact absurd (List.prefix_nil.mp before) other

theorem enough_of_heardFrom (secretPolynomial : List Scalar)
    (word : config.totalNodes < 2 ^ 32)
    (below : config.nodeId.toNat < config.totalNodes)
    (heard : ∀ peer ∈ config.peers, config.HeardFrom msgs peer) :
    config.totalNodes - 1 ≤
      (config.ingestAll (config.start secretPolynomial)
        msgs).collectedPeers.len := by
  rw [← card_peers word below, ← AssocMap.card_keySet]
  apply Finset.card_le_card
  intro peer member
  rw [mem_collected]
  exact heard peer (List.mem_toFinset.mp member)

theorem consumed_eq_peers_iff {consumed : List DkgShareMessage}
    (word : config.totalNodes < 2 ^ 32)
    (below : config.nodeId.toNat < config.totalNodes)
    (inside : consumed <+: msgs)
    (count : (config.ingestAll (config.start secretPolynomial)
      consumed).collectedPeers.len = config.totalNodes - 1)
    (fewer : ∀ earlier, earlier <+: consumed → earlier ≠ consumed →
      (config.ingestAll (config.start secretPolynomial)
        earlier).collectedPeers.len < config.totalNodes - 1) :
    (config.ingestAll (config.start secretPolynomial)
        consumed).collectedPeers.keySet = config.peers.toFinset ↔
      config.PeersFirst msgs := by
  constructor
  · intro collected before msg after split accepts foreign peer known
    have heard : config.HeardFrom consumed peer := by
      apply (mem_collected config secretPolynomial consumed peer).mp
      rw [collected]
      exact List.mem_toFinset.mpr known
    have upTo : before ++ [msg] <+: msgs := ⟨after, by rw [split]; simp⟩
    rcases List.prefix_or_prefix_of_prefix upTo inside with reached | stopped
    · have counted : msg.fromNode ∈ config.peers.toFinset := by
        rw [← collected, mem_collected]
        exact ⟨msg, reached.subset (by simp), accepts, rfl⟩
      exact absurd (List.mem_toFinset.mp counted) foreign
    · rcases heard with ⟨sent, member, sentAccepts, named⟩
      rcases List.mem_append.mp (stopped.subset member) with earlier | last
      · exact ⟨sent, earlier, sentAccepts, named⟩
      · rw [List.mem_singleton] at last
        rw [← last, named] at foreign
        exact absurd known foreign
  · intro peersFirst
    apply Finset.eq_of_subset_of_card_le
    · intro id collected
      rw [mem_collected] at collected
      rcases collected with ⟨msg, member, accepts, rfl⟩
      rw [List.mem_toFinset]
      by_contra foreign
      rcases List.append_of_mem member with ⟨before, after, split⟩
      rcases inside with ⟨later, whole⟩
      have heard := peersFirst before msg (after ++ later)
        (by rw [← whole, split]; simp) accepts foreign
      have enough := enough_of_heardFrom secretPolynomial word below heard
      have few := fewer before ⟨msg :: after, split.symm⟩ (by rw [split]; simp)
      omega
    · rw [AssocMap.card_keySet, count, card_peers word below]

end NodeConfig

/-- Suppose that every configured peer's valid message arrives.  Then the loop ends
with exactly the peers and finalisation succeeds if and only if no message passes
the checks under a foreign name before that. -/
theorem ingest_completes_iff {config : NodeConfig}
    {secretPolynomial : List Scalar} {msgs : List DkgShareMessage}
    (word : config.totalNodes < 2 ^ 32)
    (below : config.nodeId.toNat < config.totalNodes)
    (positive : 1 ≤ config.threshold)
    (length : secretPolynomial.length = config.threshold)
    (heard : ∀ peer ∈ config.peers, config.HeardFrom msgs peer) :
    (∃ final, config.ingestLoop (config.start secretPolynomial)
          (msgs.map .message) = some (.ok final) ∧
        final.collectedPeers.keySet = config.peers.toFinset ∧
        ∃ result, final.session.finalizeDkg (participants config.totalNodes) =
          .ok result) ↔
      config.PeersFirst msgs := by
  rcases NodeConfig.ingestLoop_messages
    (NodeConfig.enough_of_heardFrom secretPolynomial word below heard) with
    ⟨consumed, inside, ended, fewer⟩
  rcases NodeConfig.len_of_ingestLoop_ok ended with ⟨sound, count⟩
  have exact := NodeConfig.consumed_eq_peers_iff word below inside count fewer
  rw [← exact]
  constructor
  · intro completes
    rcases completes with ⟨final, reached, collected, _⟩
    rw [ended, Option.some.injEq, Except.ok.injEq] at reached
    rw [reached]
    exact collected
  · intro collected
    have finalized := (sound.finalizeDkg_eq_ok word below positive length).mpr
      ⟨collected.ge, rfl⟩
    exact ⟨_, ended, collected, _, finalized⟩

end ForeignMessages

section SmallRun

attribute [local instance] smallCurve smallEncodings

/-- A message that names no configured node, and then the peers' messages. -/
def derailingMessages : List DkgShareMessage :=
  [shareMessage 7 0 [6, 7], shareMessage 1 0 [8, 9], shareMessage 2 0 [4, 5]]

/-- The same messages with the foreign one last. -/
def harmlessMessages : List DkgShareMessage :=
  [shareMessage 1 0 [8, 9], shareMessage 2 0 [4, 5], shareMessage 7 0 [6, 7]]

theorem heardFrom_bothPeers {msgs : List DkgShareMessage}
    (accepted : ∀ msg ∈ msgs, (smallConfig 0).Accepts msg)
    (first : shareMessage 1 0 [8, 9] ∈ msgs)
    (second : shareMessage 2 0 [4, 5] ∈ msgs) :
    ∀ peer ∈ (smallConfig 0).peers, (smallConfig 0).HeardFrom msgs peer := by
  have peers : (smallConfig 0).peers = [1, 2] := by decide
  intro peer known
  rw [peers, List.mem_pair] at known
  rcases known with rfl | rfl
  · exact ⟨_, first, accepted _ first, rfl⟩
  · exact ⟨_, second, accepted _ second, rfl⟩

/-- All peers' messages arrive, the loop ends, and finalisation misses a share. -/
theorem derailingMessages_missShare :
    (∀ peer ∈ (smallConfig 0).peers,
        (smallConfig 0).HeardFrom derailingMessages peer) ∧
      (∀ msg ∈ derailingMessages, (smallConfig 0).Accepts msg) ∧
      ∃ final, (smallConfig 0).ingestLoop ((smallConfig 0).start [2, 3])
          (derailingMessages.map .message) = some (.ok final) ∧
        final.collectedPeers.keys = [1, 7] ∧
        final.session.finalizeDkg (participants 3) =
          .error .missingShareFromPeer := by
  have accepted : ∀ msg ∈ derailingMessages, (smallConfig 0).Accepts msg := by
    decide +kernel
  refine ⟨?_, accepted, ?_⟩
  · exact heardFrom_bothPeers accepted (by simp [derailingMessages])
      (by simp [derailingMessages])
  · have derailed : ((smallConfig 0).ingestLoop ((smallConfig 0).start [2, 3])
        (derailingMessages.map .message)).bind
          (fun ended => ended.toOption.map fun final =>
            (final.collectedPeers.keys,
              final.session.finalizeDkg (participants 3))) =
        some ([1, 7], .error .missingShareFromPeer) := by
      decide +kernel
    rcases NodeConfig.exists_final_of_eval derailed with ⟨final, ended, same⟩
    exact ⟨final, ended, Prod.mk.inj same⟩

theorem ingest_completes_iff_threeNodes :
    ∃ final, (smallConfig 0).ingestLoop ((smallConfig 0).start [2, 3])
        (harmlessMessages.map .message) = some (.ok final) ∧
      final.collectedPeers.keySet = (smallConfig 0).peers.toFinset ∧
      ∃ result, final.session.finalizeDkg (participants 3) = .ok result := by
  have accepted : ∀ msg ∈ harmlessMessages, (smallConfig 0).Accepts msg := by
    decide +kernel
  have acceptedFirst : ∀ msg ∈ harmlessMessages.take 2,
      (smallConfig 0).Accepts msg :=
    fun msg member => accepted msg (List.mem_of_mem_take member)
  have heard := heardFrom_bothPeers acceptedFirst (by simp [harmlessMessages])
    (by simp [harmlessMessages])
  have heardAll := heardFrom_bothPeers accepted (by simp [harmlessMessages])
    (by simp [harmlessMessages])
  have peersFirst : (smallConfig 0).PeersFirst harmlessMessages := by
    intro before msg after split _ foreign
    have configured : ∀ earlier ∈ harmlessMessages.take 2,
        earlier.fromNode ∈ (smallConfig 0).peers := by
      decide +kernel
    rcases before with _ | ⟨first, _ | ⟨second, rest⟩⟩
    · cases split
      exact absurd (configured _ (by simp [harmlessMessages])) foreign
    · cases split
      exact absurd (configured _ (by simp [harmlessMessages])) foreign
    · intro peer known
      rcases heard peer known with ⟨sent, member, facts⟩
      refine ⟨sent, ?_, facts⟩
      have within : sent ∈ [first, second] := by simpa [split] using member
      exact List.mem_append_left rest within
  exact (ingest_completes_iff (by decide) (by decide) (by decide) rfl
    heardAll).mpr peersFirst

end SmallRun

end SovereignLattice
