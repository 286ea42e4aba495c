import SovereignLattice.Pbft.ChainInvariant

/-!
# What an accepted message keeps

The view never falls, proposals stay at or below it, and until a checkpoint
stabilises the proposals and the digests of the prepared certificates stay.
-/

namespace SovereignLattice

variable [Curve]

namespace PbftState.Stages

variable {state staged : PbftState} {msg : PbftMessage} {response : Response}

theorem sameTopology (stages : Stages state msg response staged) :
    staged.toTopology = state.toTopology := by
  cases stages <;> rfl

/-- What a stabilising message does. -/
theorem stabilized_inv
    (stages : Stages state msg .checkpointStabilized staged) :
    msg.phase = .checkpoint ∧ msg.view = state.currentView ∧
      state.quorumSize ≤ (state.checkpointVotes.withVote msg.proposalKey
        msg.senderId msg.signature).len ∧
      staged =
        { state.withLedger ((state.ledger.recordCheckpoint msg.proposalKey
            msg.senderId msg.signature).restrict fun seq => seq > msg.seq) with
          lastStableCheckpoint := msg.seq } := by
  cases stages with
  | prepare _ _ _ _ _ answer =>
      rcases answer with answer | answer <;> cases answer
  | commit _ _ _ _ _ _ _ _ _ _ _ answer =>
      rcases answer with answer | answer <;> cases answer
  | checkpointQuorum phase view quorum => exact ⟨phase, view, quorum, rfl⟩

theorem lastStableCheckpoint_eq (stages : Stages state msg response staged)
    (unstable : response ≠ .checkpointStabilized) :
    staged.lastStableCheckpoint = state.lastStableCheckpoint := by
  cases stages with
  | checkpointQuorum => exact absurd rfl unstable
  | _ => rfl

/-- Accepted messages never lower the view. -/
theorem currentView_le (stages : Stages state msg response staged) :
    state.currentView ≤ staged.currentView := by
  cases stages with
  | viewChangeQuorum _ _ _ phase later => exact UInt64.le_of_lt later
  | _ => exact UInt64.le_refl _

/-- Without a checkpoint becoming stable, proposals are only added. -/
theorem proposals_subset (stages : Stages state msg response staged)
    (unstable : response ≠ .checkpointStabilized) :
    state.prePreparedProposals ⊆ staged.prePreparedProposals := by
  cases stages with
  | prePrepare => exact Finset.subset_insert _ _
  | checkpointQuorum => exact absurd rfl unstable
  | _ => exact Finset.Subset.refl _

/-- A proposal after an accepted message was known before, or is the message, from
the leader of the current view and for an open slot. -/
theorem proposals_cases (stages : Stages state msg response staged)
    {key : ProposalKey} (member : key ∈ staged.prePreparedProposals) :
    key ∈ state.prePreparedProposals ∨
      key = msg.proposalKey ∧ msg.phase = .prePrepare ∧
        msg.view = state.currentView ∧
        msg.senderId = state.getExpectedLeader msg.view ∧
        ∀ digest, (msg.view, msg.seq, digest) ∉ state.prePreparedProposals := by
  cases stages with
  | prePrepare phase view leader unique fresh =>
      rcases Finset.mem_insert.mp member with here | before
      · refine Or.inr ⟨here, phase, view, leader, ?_⟩
        intro digest known
        have same := unique digest known
        subst same
        exact fresh known
      · exact Or.inl before
  | checkpointQuorum => exact Or.inl (Finset.mem_filter.mp member).1
  | _ => exact Or.inl member

theorem proposal_views (stages : Stages state msg response staged)
    (entered : ∀ key ∈ state.prePreparedProposals,
      key.1 ≤ state.currentView) :
    ∀ key ∈ staged.prePreparedProposals, key.1 ≤ staged.currentView := by
  intro key member
  rcases stages.proposals_cases member with before | ⟨rfl, _, view, _⟩
  · exact UInt64.le_trans (entered key before) stages.currentView_le
  · exact UInt64.le_trans (UInt64.le_of_eq view) stages.currentView_le

/-- A new-view certificate after an accepted message was stored before, or is of
the later view that the message has entered. -/
theorem newViews_cases (stages : Stages state msg response staged)
    {view : UInt64} {newView : NewViewCertificate}
    (stored : staged.newViewCertificates.get? view = some newView) :
    state.newViewCertificates.get? view = some newView ∨
      view = staged.currentView ∧ state.currentView < view := by
  cases stages with
  | viewChangeQuorum _ _ _ phase later =>
      dsimp only at stored
      rw [AssocMap.get?_insert] at stored
      split at stored
      · rename_i here
        exact Or.inr ⟨here, here ▸ later⟩
      · exact Or.inl stored
  | _ => exact Or.inl stored

/-- A prepared certificate after an accepted message was held before, or certifies
the message. -/
theorem prepared_cases (stages : Stages state msg response staged)
    {slot : UInt64 × UInt64} {cert : PreparedCertificate}
    (held : staged.preparedCertificates.get? slot = some cert) :
    state.preparedCertificates.get? slot = some cert ∨
      slot = (msg.view, msg.seq) ∧ msg.view = state.currentView ∧
        msg.proposalKey ∈ state.prePreparedProposals ∧
        cert.digest = msg.digest := by
  cases stages with
  | prepare _ phase view proposed =>
      have recorded := VoteLedger.get?_prepared_recordPrepare state.ledger
        state.quorumSize msg.proposalKey msg.senderId msg.signature slot
      have found := recorded.symm.trans held
      split at found
      · rename_i written
        rw [Option.some.injEq] at found
        exact Or.inr ⟨written.2, view, proposed,
          congrArg PreparedCertificate.digest found.symm⟩
      · exact Or.inl found
  | checkpointQuorum => exact Or.inl (AssocMap.get?_of_retain held).2
  | _ => exact Or.inl held

/-- Until a checkpoint stabilises, a slot keeps its prepared digest. -/
theorem prepared_kept (stages : Stages state msg response staged)
    (unstable : response ≠ .checkpointStabilized) (chain : state.Chained)
    {view seq : UInt64} {cert : PreparedCertificate}
    (held : state.preparedCertificates.get? (view, seq) = some cert) :
    ∃ later, staged.preparedCertificates.get? (view, seq) = some later ∧
      later.digest = cert.digest := by
  cases stages with
  | prepare _ phase view' proposed => exact chain.prepared_kept proposed _ _ held
  | checkpointQuorum => exact absurd rfl unstable
  | _ => exact ⟨cert, held, rfl⟩

end PbftState.Stages

/-- No call changes the membership or the keys. -/
theorem PbftState.handleMessage_sameTopology (state : PbftState) (msg : PbftMessage)
    (io : WalIo) : (state.handleMessage msg io).2.toTopology = state.toTopology := by
  apply handleMessage_invariant (fun current => current.toTopology = state.toTopology)
    (fun _ _ _ same => same) ?_ rfl
  exact fun _ _ stages _ _ => stages.sameTopology

theorem PbftState.handleAll_sameTopology (state : PbftState)
    (calls : List (PbftMessage × WalIo)) :
    (state.handleAll calls).toTopology = state.toTopology :=
  handleAll_invariant (fun current => current.toTopology = state.toTopology)
    (fun current msg io same =>
      (current.handleMessage_sameTopology msg io).trans same) rfl calls

end SovereignLattice
