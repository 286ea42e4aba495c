import SovereignLattice.Replica.Follows
import SovereignLattice.Wal.ShortReads

/-!
# What replay recovers

As long as no check fails, the captured variables of the replay closure are
what the records say: the ledger and the view-change votes follow the log, the
stable checkpoint is the highest one with a quorum, and the recovered view is
at least every view that the log gives evidence of.
-/

namespace SovereignLattice

variable [Curve]

namespace Topology

/-- The checkpoint quorums among the records. -/
def CheckpointQuorumIn (topology : Topology) (log : List Record)
    (key : ProposalKey) : Prop :=
  topology.quorumSize ≤ (signersIn .checkpoint log key).card

/-- The view-change quorums among the records. -/
def ViewQuorumIn (topology : Topology) (log : List Record) (view : UInt64) :
    Prop :=
  topology.quorumSize ≤ (viewSendersIn log view).card

instance (topology : Topology) (log : List Record) (view : UInt64) :
    Decidable (topology.ViewQuorumIn log view) :=
  inferInstanceAs (Decidable (_ ≤ _))

/-- The three kinds of durable evidence that a view has been entered. -/
inductive Evidence (topology : Topology) (log : List Record) (view : UInt64) :
    Prop
  | ordinary (record : Record) (member : record ∈ log)
      (phase : record.phase ≤ Phase.commit.toU8) (same : record.view = view)
  | viewQuorum (quorum : topology.ViewQuorumIn log view)
  | checkpoint (seq : UInt64) (digest : Digest)
      (quorum : topology.CheckpointQuorumIn log (view, seq, digest))

/-- The highest sequence with a checkpoint quorum, or zero. -/
structure HighestStable (topology : Topology) (log : List Record)
    (stable : UInt64) : Prop where
  bound : ∀ key, topology.CheckpointQuorumIn log key → key.2.1 ≤ stable
  attained : stable = 0 ∨
    ∃ key, key.2.1 = stable ∧ topology.CheckpointQuorumIn log key

/-- The highest view with evidence, or zero. -/
structure HighestView (topology : Topology) (log : List Record)
    (highest : UInt64) : Prop where
  bound : ∀ view, topology.Evidence log view → view ≤ highest
  attained : highest = 0 ∨ topology.Evidence log highest

/-- The captured variables after the records, when no check has failed. -/
structure Reflects (topology : Topology) (log : List Record)
    (recovered : Recovered) : Prop where
  chain : CertificateChain topology recovered.ledger
  complete : recovered.ledger.Complete topology.quorumSize
  follows : recovered.ledger.Follows (fun _ => true) log
  viewVotes : ∀ view,
    recovered.recoveredViewChangeVotes.get? view = viewVotesIn log view
  stable : topology.HighestStable log recovered.recoveredStableCheckpoint
  view : topology.HighestView log recovered.recoveredView
  unambiguous : ∀ view votes, viewVotesIn log view = some votes →
    topology.quorumSize ≤ votes.len → (highestViewChangeSlot votes).isSome

section OneRecord

variable {topology : Topology} {recovered next : Recovered} {record : Record}
variable {log : List Record}

theorem le_observe_view (recovered : Recovered) (record : Record) :
    recovered.recoveredView ≤ (observe recovered record).recoveredView := by
  rw [observe_view]
  split <;> grind

theorem view_le_observe (recovered : Recovered)
    (ordinary : record.phase ≤ Phase.commit.toU8) :
    record.view ≤ (observe recovered record).recoveredView := by
  rw [observe_view]
  split <;> grind

/-- No transition of replay lowers the observed view. -/
theorem Replays.observe_view_le
    (replays : Replays topology recovered record next) :
    (observe recovered record).recoveredView ≤ next.recoveredView := by
  cases replays with
  | viewChangeQuorum => exact SovereignLattice.le_max_left _ _
  | checkpointQuorum => exact SovereignLattice.le_max_left _ _
  | _ => exact UInt64.le_refl _

theorem checkpointQuorumIn_concat_of_phase_ne {phase : Phase}
    {key : ProposalKey} (samePhase : record.phase = phase.toU8)
    (different : phase ≠ .checkpoint) :
    topology.CheckpointQuorumIn (log ++ [record]) key ↔
      topology.CheckpointQuorumIn log key := by
  rw [CheckpointQuorumIn, signersIn,
    votesIn_concat_of_phase_ne samePhase different, ← signersIn,
    ← CheckpointQuorumIn]

theorem checkpointQuorumIn_concat_of_key_ne {key : ProposalKey}
    (different : record.proposalKey ≠ key) :
    topology.CheckpointQuorumIn (log ++ [record]) key ↔
      topology.CheckpointQuorumIn log key := by
  have same : votesIn .checkpoint (log ++ [record]) key =
      votesIn .checkpoint log key := by
    rw [votesIn_concat, castVote, if_neg fun both => different both.2]
  rw [CheckpointQuorumIn, signersIn, same, ← signersIn, ← CheckpointQuorumIn]

/-- Evidence after one more record is older evidence or rests on it. -/
theorem Evidence.of_concat {view : UInt64}
    (evidence : topology.Evidence (log ++ [record]) view) :
    topology.Evidence log view ∨
      record.view = view ∧
        (record.phase ≤ Phase.commit.toU8 ∨
          record.phase = Phase.viewChange.toU8 ∧
            topology.ViewQuorumIn (log ++ [record]) view ∨
          record.phase = Phase.checkpoint.toU8 ∧
            topology.CheckpointQuorumIn (log ++ [record])
              record.proposalKey) := by
  cases evidence with
  | ordinary stored member phase same =>
      rw [List.mem_append, List.mem_singleton] at member
      rcases member with before | rfl
      · exact Or.inl (.ordinary stored before phase same)
      · exact Or.inr ⟨same, Or.inl phase⟩
  | viewQuorum quorum =>
      by_cases here :
          record.phase = Phase.viewChange.toU8 ∧ record.view = view
      · exact Or.inr ⟨here.2, Or.inr (Or.inl ⟨here.1, quorum⟩)⟩
      · left
        apply Evidence.viewQuorum
        rwa [ViewQuorumIn, viewSendersIn, viewVotesIn_concat, castViewVote,
          if_neg here, ← viewSendersIn, ← ViewQuorumIn] at quorum
  | checkpoint seq digest quorum =>
      by_cases here : record.phase = Phase.checkpoint.toU8 ∧
          record.proposalKey = (view, seq, digest)
      · right
        rw [← here.2] at quorum
        exact ⟨congrArg Prod.fst here.2, Or.inr (Or.inr ⟨here.1, quorum⟩)⟩
      · left
        apply Evidence.checkpoint seq digest
        rwa [CheckpointQuorumIn, signersIn, votesIn_concat, castVote,
          if_neg here, ← signersIn, ← CheckpointQuorumIn] at quorum

theorem Evidence.concat {view : UInt64} (evidence : topology.Evidence log view)
    (record : Record) : topology.Evidence (log ++ [record]) view := by
  cases evidence with
  | ordinary stored member phase same =>
      exact .ordinary stored (List.mem_append_left [record] member) phase same
  | viewQuorum quorum =>
      exact .viewQuorum (quorum.trans (Finset.card_le_card
        fun _ member => mem_viewSendersIn_concat.mpr (Or.inl member)))
  | checkpoint seq digest quorum =>
      exact .checkpoint seq digest (quorum.trans (Finset.card_le_card
        (signersIn_subset_concat _ _)))

/-! ## The stable checkpoint -/

namespace HighestStable

variable {stable : UInt64}

theorem initially : topology.HighestStable [] 0 where
  bound key quorum := by
    have positive := topology.quorumSize_pos
    have none : (signersIn .checkpoint [] key).card = 0 := rfl
    rw [CheckpointQuorumIn, none] at quorum
    omega
  attained := Or.inl rfl

theorem unique {other : UInt64} (highest : topology.HighestStable log stable)
    (otherHighest : topology.HighestStable log other) : stable = other := by
  have below : ∀ {left right : UInt64}, topology.HighestStable log left →
      topology.HighestStable log right → left ≤ right := by
    intro left right leftHighest rightHighest
    rcases leftHighest.attained with rfl | ⟨key, rfl, quorum⟩
    · grind
    · exact rightHighest.bound key quorum
  exact UInt64.le_antisymm (below highest otherHighest)
    (below otherHighest highest)

private theorem attained_concat (highest : topology.HighestStable log stable)
    (record : Record) : stable = 0 ∨ ∃ key, key.2.1 = stable ∧
      topology.CheckpointQuorumIn (log ++ [record]) key := by
  rcases highest.attained with zero | ⟨key, same, quorum⟩
  · exact Or.inl zero
  · exact Or.inr ⟨key, same, quorum.trans
      (Finset.card_le_card (signersIn_subset_concat _ key))⟩

theorem other (highest : topology.HighestStable log stable) {phase : Phase}
    (samePhase : record.phase = phase.toU8) (different : phase ≠ .checkpoint) :
    topology.HighestStable (log ++ [record]) stable where
  bound key quorum := by
    rw [checkpointQuorumIn_concat_of_phase_ne samePhase different] at quorum
    exact highest.bound key quorum
  attained := attained_concat highest record

theorem vote (highest : topology.HighestStable log stable)
    (few : ¬ topology.CheckpointQuorumIn (log ++ [record])
      record.proposalKey) :
    topology.HighestStable (log ++ [record]) stable where
  bound key quorum := by
    have elsewhere : record.proposalKey ≠ key := fun same =>
      few (same ▸ quorum)
    rw [checkpointQuorumIn_concat_of_key_ne elsewhere] at quorum
    exact highest.bound key quorum
  attained := attained_concat highest record

theorem quorum (highest : topology.HighestStable log stable)
    (quorum : topology.CheckpointQuorumIn (log ++ [record])
      record.proposalKey) :
    topology.HighestStable (log ++ [record])
      (if record.seq > stable then record.seq else stable) where
  bound key quorumAt := by
    by_cases here : record.proposalKey = key
    · subst here
      simp only [Record.proposalKey]
      split <;> grind
    · rw [checkpointQuorumIn_concat_of_key_ne here] at quorumAt
      have below := highest.bound key quorumAt
      split <;> grind
  attained := by
    split
    · exact Or.inr ⟨record.proposalKey, rfl, quorum⟩
    · exact attained_concat highest record

/-- Compaction at the stable checkpoint keeps its evidence. -/
theorem compact (highest : topology.HighestStable log stable) :
    topology.HighestStable (compact stable log) stable where
  bound key quorum :=
    highest.bound key (quorum.trans
      (Finset.card_le_card (signersIn_compact_subset _ key)))
  attained := by
    rcases highest.attained with zero | ⟨key, same, quorum⟩
    · exact Or.inl zero
    · refine Or.inr ⟨key, same, ?_⟩
      rw [CheckpointQuorumIn, signersIn_compact (same ▸ UInt64.le_refl _)]
      exact quorum

end HighestStable

/-! ## One record -/

theorem Replays.complete (replays : Replays topology recovered record next)
    (chain : CertificateChain topology recovered.ledger)
    (complete : recovered.ledger.Complete topology.quorumSize) :
    next.ledger.Complete topology.quorumSize := by
  cases replays with
  | prePrepare phase verifies leader unique => exact complete.propose _
  | prepare phase verifies proposed certified =>
      exact complete.recordPrepare chain proposed _ _
  | commit cert phase verifies proposed held certView certSeq certDigest
      verified certified =>
      exact complete.recordCommit chain proposed _ _
  | viewChangeVote phase verifies backed few =>
      rw [← observe_ledger recovered record] at complete
      exact complete
  | viewChangeQuorum maxSeq digest selected phase verifies backed quorum slot
      selection found verified =>
      rw [← observe_ledger recovered record] at complete
      exact complete
  | checkpointVote phase verifies few => exact complete.recordCheckpoint _ _ _
  | checkpointQuorum phase verifies quorum =>
      exact complete.recordCheckpoint _ _ _

theorem Replays.follows (replays : Replays topology recovered record next)
    (follows : recovered.ledger.Follows (fun _ => true) log) :
    next.ledger.Follows (fun _ => true) (log ++ [record]) := by
  cases replays with
  | prePrepare phase verifies leader unique => exact follows.propose phase
  | prepare phase verifies proposed certified =>
      exact follows.recordPrepare phase _
  | commit cert phase verifies proposed held certView certSeq certDigest
      verified certified =>
      exact follows.recordCommit phase _
  | viewChangeVote phase verifies backed few =>
      rw [← observe_ledger recovered record] at follows
      exact follows.viewChange phase
  | viewChangeQuorum maxSeq digest selected phase verifies backed quorum slot
      selection found verified =>
      rw [← observe_ledger recovered record] at follows
      exact follows.viewChange phase
  | checkpointVote phase verifies few => exact follows.recordCheckpoint phase
  | checkpointQuorum phase verifies quorum =>
      exact follows.recordCheckpoint phase

/-- Storing a view-change vote follows the log. -/
theorem insert_supportersWith_follows
    {votes : AssocMap UInt64 ViewChangeVotes} {supporters : ViewChangeVotes}
    (phase : record.phase = Phase.viewChange.toU8)
    (follows : ∀ view, votes.get? view = viewVotesIn log view)
    (added : supporters = (votes.getD record.view ∅).insert record.senderId
      (record.seq, record.digest, record.signature))
    (view : UInt64) :
    (votes.insert record.view supporters).get? view =
      viewVotesIn (log ++ [record]) view := by
  rw [viewVotesIn_concat, castViewVote, AssocMap.get?_insert, added]
  by_cases same : view = record.view
  · subst same
    rw [if_pos rfl, if_pos ⟨phase, rfl⟩, AssocMap.getD, follows]
  · rw [if_neg same, if_neg fun both => same both.2.symm, follows]

theorem Replays.viewVotes (replays : Replays topology recovered record next)
    (follows : ∀ view,
      recovered.recoveredViewChangeVotes.get? view = viewVotesIn log view) :
    ∀ view, next.recoveredViewChangeVotes.get? view =
      viewVotesIn (log ++ [record]) view := by
  have stored : ∀ view,
      ((observe recovered record).withSupporters
          record).recoveredViewChangeVotes.get? view =
        ((recovered.recoveredViewChangeVotes.insert record.view
          (recovered.supportersWith record)).get? view) := by
    intro view
    rw [Recovered.withSupporters]
    simp only [observe_viewChangeVotes, supportersWith_observe]
  have unchanged : ∀ {phase : Phase}, record.phase = phase.toU8 →
      phase ≠ .viewChange → ∀ view,
        (observe recovered record).recoveredViewChangeVotes.get? view =
          viewVotesIn (log ++ [record]) view := by
    intro phase samePhase different view
    rw [viewVotesIn_concat_of_phase_ne samePhase different, ← follows view,
      observe_viewChangeVotes]
  cases replays with
  | prePrepare phase => exact unchanged phase (by decide)
  | prepare phase => exact unchanged phase (by decide)
  | commit cert phase => exact unchanged phase (by decide)
  | viewChangeVote phase verifies backed few =>
      intro view
      rw [stored]
      exact insert_supportersWith_follows phase follows rfl view
  | viewChangeQuorum maxSeq digest selected phase verifies backed quorum slot
      selection found verified =>
      intro view
      exact (stored view).trans
        (insert_supportersWith_follows phase follows rfl view)
  | checkpointVote phase => exact unchanged phase (by decide)
  | checkpointQuorum phase => exact unchanged phase (by decide)

theorem Replays.stable (replays : Replays topology recovered record next)
    (follows : recovered.ledger.Follows (fun _ => true) log)
    (highest : topology.HighestStable log
      recovered.recoveredStableCheckpoint) :
    topology.HighestStable (log ++ [record])
      next.recoveredStableCheckpoint := by
  have unchanged : ∀ {phase : Phase}, record.phase = phase.toU8 →
      phase ≠ .checkpoint →
        topology.HighestStable (log ++ [record])
          (observe recovered record).recoveredStableCheckpoint := by
    intro phase samePhase different
    rw [observe_stableCheckpoint]
    exact highest.other samePhase different
  cases replays with
  | prePrepare phase => exact unchanged phase (by decide)
  | prepare phase => exact unchanged phase (by decide)
  | commit cert phase => exact unchanged phase (by decide)
  | viewChangeVote phase => exact unchanged phase (by decide)
  | viewChangeQuorum _ _ _ phase => exact unchanged phase (by decide)
  | checkpointVote phase verifies few =>
      rw [len_withVote phase (follows.checkpointVotes _ rfl)] at few
      have kept := highest.vote (Nat.not_le.mpr few)
      rw [← observe_stableCheckpoint recovered record] at kept
      exact kept
  | checkpointQuorum phase verifies quorum =>
      rw [len_withVote phase (follows.checkpointVotes _ rfl)] at quorum
      exact highest.quorum quorum

/-- The supporters of a replayed view-change record are the log's. -/
theorem supportersWith_follows (phase : record.phase = Phase.viewChange.toU8)
    (follows : ∀ view,
      recovered.recoveredViewChangeVotes.get? view = viewVotesIn log view) :
    viewVotesIn (log ++ [record]) record.view =
      some (recovered.supportersWith record) := by
  rw [← insert_supportersWith_follows phase follows rfl]
  exact AssocMap.get?_insert_self _ _ _

theorem card_viewSendersIn {view : UInt64} {votes : ViewChangeVotes}
    (stored : viewVotesIn log view = some votes) :
    (viewSendersIn log view).card = votes.len := by
  rw [viewSendersIn, stored, Option.getD_some, AssocMap.card_keySet]

/-- A replayed view-change record with a quorum enters its view. -/
theorem Replays.entered_of_viewQuorum
    (replays : Replays topology recovered record next)
    (viewVotes : ∀ view,
      recovered.recoveredViewChangeVotes.get? view = viewVotesIn log view)
    (samePhase : record.phase = Phase.viewChange.toU8)
    (quorum : topology.ViewQuorumIn (log ++ [record]) record.view) :
    record.view ≤ next.recoveredView ∧
      (highestViewChangeSlot (recovered.supportersWith record)).isSome := by
  have counted :=
    card_viewSendersIn (supportersWith_follows samePhase viewVotes)
  have impossible : ∀ {phase : Phase}, record.phase = phase.toU8 →
      phase ≠ .viewChange → False := by
    intro phase other different
    exact different (Phase.toU8_injective (other.symm.trans samePhase))
  cases replays with
  | prePrepare phase => exact (impossible phase (by decide)).elim
  | prepare phase => exact (impossible phase (by decide)).elim
  | commit cert phase => exact (impossible phase (by decide)).elim
  | viewChangeVote phase verifies backed few =>
      rw [← counted] at few
      exact absurd quorum (Nat.not_le.mpr few)
  | viewChangeQuorum maxSeq digest selected phase verifies backed full slot =>
      exact ⟨SovereignLattice.le_max_right _ _, by rw [slot]; rfl⟩
  | checkpointVote phase => exact (impossible phase (by decide)).elim
  | checkpointQuorum phase => exact (impossible phase (by decide)).elim

/-- A replayed checkpoint vote with a quorum proves its view active. -/
theorem Replays.entered_of_checkpointQuorum
    (replays : Replays topology recovered record next)
    (follows : recovered.ledger.Follows (fun _ => true) log)
    (samePhase : record.phase = Phase.checkpoint.toU8)
    (quorum : topology.CheckpointQuorumIn (log ++ [record])
      record.proposalKey) :
    record.view ≤ next.recoveredView := by
  have counted := len_withVote samePhase (follows.checkpointVotes _ rfl)
  have impossible : ∀ {phase : Phase}, record.phase = phase.toU8 →
      phase ≠ .checkpoint → False := by
    intro phase other different
    exact different (Phase.toU8_injective (other.symm.trans samePhase))
  cases replays with
  | prePrepare phase => exact (impossible phase (by decide)).elim
  | prepare phase => exact (impossible phase (by decide)).elim
  | commit cert phase => exact (impossible phase (by decide)).elim
  | viewChangeVote phase => exact (impossible phase (by decide)).elim
  | viewChangeQuorum _ _ _ phase => exact (impossible phase (by decide)).elim
  | checkpointVote phase verifies few =>
      rw [counted] at few
      exact absurd quorum (Nat.not_le.mpr few)
  | checkpointQuorum phase verifies full =>
      exact SovereignLattice.le_max_right _ _

theorem Replays.view_bound (replays : Replays topology recovered record next)
    (follows : recovered.ledger.Follows (fun _ => true) log)
    (viewVotes : ∀ view,
      recovered.recoveredViewChangeVotes.get? view = viewVotesIn log view)
    (highest : topology.HighestView log recovered.recoveredView) :
    ∀ view, topology.Evidence (log ++ [record]) view →
      view ≤ next.recoveredView := by
  intro view evidence
  have rises := le_observe_view recovered record
  have rest := replays.observe_view_le
  rcases evidence.of_concat with
    older | ⟨rfl, ordinary | ⟨phase, quorum⟩ | ⟨phase, quorum⟩⟩
  · have before := highest.bound view older
    grind
  · have here := view_le_observe recovered ordinary
    grind
  · exact (replays.entered_of_viewQuorum viewVotes phase quorum).1
  · exact replays.entered_of_checkpointQuorum follows phase quorum

/-- Observing a record moves the view only to the record's own. -/
theorem observe_view_attained (record : Record)
    (highest : topology.HighestView log recovered.recoveredView) :
    (observe recovered record).recoveredView = 0 ∨
      topology.Evidence (log ++ [record])
        (observe recovered record).recoveredView := by
  rw [observe_view]
  split
  · rename_i moved
    exact Or.inr (.ordinary record (by simp) moved.1 rfl)
  · rcases highest.attained with zero | evidence
    · exact Or.inl zero
    · exact Or.inr (evidence.concat record)

theorem Replays.view_attained (replays : Replays topology recovered record next)
    (follows : recovered.ledger.Follows (fun _ => true) log)
    (viewVotes : ∀ view,
      recovered.recoveredViewChangeVotes.get? view = viewVotesIn log view)
    (highest : topology.HighestView log recovered.recoveredView) :
    next.recoveredView = 0 ∨
      topology.Evidence (log ++ [record]) next.recoveredView := by
  have observed := observe_view_attained record highest
  have raised : ∀ view, topology.Evidence (log ++ [record]) view →
      max (observe recovered record).recoveredView view = 0 ∨
        topology.Evidence (log ++ [record])
          (max (observe recovered record).recoveredView view) := by
    intro view evidence
    have unfolded : max (observe recovered record).recoveredView view =
        if (observe recovered record).recoveredView ≤ view then view
        else (observe recovered record).recoveredView := rfl
    rw [unfolded]
    split
    · exact Or.inr evidence
    · exact observed
  cases replays with
  | viewChangeQuorum _ _ _ phase verifies backed quorum =>
      have counted := card_viewSendersIn (supportersWith_follows phase viewVotes)
      exact raised record.view (.viewQuorum (quorum.trans counted.ge))
  | checkpointQuorum phase verifies quorum =>
      have counted := len_withVote phase (follows.checkpointVotes _ rfl)
      exact raised record.view
        (.checkpoint record.seq record.digest (quorum.trans counted.le))
  | _ => exact observed

theorem Replays.unambiguous (replays : Replays topology recovered record next)
    (viewVotes : ∀ view,
      recovered.recoveredViewChangeVotes.get? view = viewVotesIn log view)
    (before : ∀ view votes, viewVotesIn log view = some votes →
      topology.quorumSize ≤ votes.len →
        (highestViewChangeSlot votes).isSome) :
    ∀ view votes, viewVotesIn (log ++ [record]) view = some votes →
      topology.quorumSize ≤ votes.len →
        (highestViewChangeSlot votes).isSome := by
  intro view votes stored quorum
  by_cases here : record.phase = Phase.viewChange.toU8 ∧ record.view = view
  · obtain ⟨phase, rfl⟩ := here
    rw [← card_viewSendersIn stored] at quorum
    have supporters := supportersWith_follows phase viewVotes
    rw [supporters, Option.some.injEq] at stored
    rw [← stored]
    exact (replays.entered_of_viewQuorum viewVotes phase quorum).2
  · rw [viewVotesIn_concat, castViewVote, if_neg here] at stored
    exact before view votes stored quorum

/-- One accepted record keeps the recovered variables in step with the log. -/
theorem Reflects.step (reflects : topology.Reflects log recovered)
    (replays : Replays topology recovered record next) :
    topology.Reflects (log ++ [record]) next where
  chain := replays.chain reflects.chain
  complete := replays.complete reflects.chain reflects.complete
  follows := replays.follows reflects.follows
  viewVotes := replays.viewVotes reflects.viewVotes
  stable := replays.stable reflects.follows reflects.stable
  view :=
    { bound := replays.view_bound reflects.follows reflects.viewVotes
        reflects.view
      attained := replays.view_attained reflects.follows reflects.viewVotes
        reflects.view }
  unambiguous := replays.unambiguous reflects.viewVotes reflects.unambiguous

end OneRecord

/-! ## All records -/

/-- The captured variables after a list of records. -/
def replayAll (topology : Topology) (log : List Record) : Recovered :=
  log.foldl topology.replayRecord Recovered.initial

theorem replayAll_concat (topology : Topology) (log : List Record)
    (record : Record) :
    topology.replayAll (log ++ [record]) =
      topology.replayRecord (topology.replayAll log) record := by
  simp [replayAll]

theorem Reflects.initially (topology : Topology) :
    topology.Reflects [] Recovered.initial where
  chain := CertificateChain.initially topology
  complete := VoteLedger.Complete.initially topology.quorumSize
  follows := VoteLedger.Follows.initially _
  viewVotes _ := rfl
  stable := HighestStable.initially
  view :=
    { bound := by
        intro view evidence
        have positive := topology.quorumSize_pos
        cases evidence with
        | ordinary record member => cases member
        | viewQuorum quorum =>
            have none : (viewSendersIn [] view).card = 0 := rfl
            rw [ViewQuorumIn, none] at quorum
            omega
        | checkpoint seq digest quorum =>
            have none :
                (signersIn .checkpoint [] (view, seq, digest)).card = 0 := rfl
            rw [CheckpointQuorumIn, none] at quorum
            omega
      attained := Or.inl rfl }
  unambiguous view votes stored := by cases stored

/-- What holds of the empty log and is kept by every record that passes its check
holds of every log without a failed check. -/
theorem replayAll_invariant {topology : Topology}
    {invariant : List Record → Recovered → Prop}
    (initially : invariant [] Recovered.initial)
    (preserved : ∀ log recovered record next, invariant log recovered →
      Replays topology recovered record next → invariant (log ++ [record]) next)
    {log : List Record}
    (clean : (topology.replayAll log).recoveryError = false) :
    invariant log (topology.replayAll log) := by
  induction log using List.reverseRecOn with
  | nil => exact initially
  | append_singleton log record inductionHypothesis =>
      rw [replayAll_concat] at clean ⊢
      rcases replayRecord_ok clean with ⟨before, replays⟩
      exact preserved log _ record _ (inductionHypothesis before) replays

/-- A replay without a failed check reflects the records. -/
theorem reflects_of_clean {topology : Topology} {log : List Record}
    (clean : (topology.replayAll log).recoveryError = false) :
    topology.Reflects log (topology.replayAll log) :=
  replayAll_invariant (Reflects.initially topology)
    (fun _ _ _ _ reflects replays => reflects.step replays) clean

/-- Recovery from a written log. -/
theorem recover_encodeLog {topology : Topology} {log : List Record}
    {state : PbftState} :
    topology.recover ⟨encodeLog log⟩ = .ok state ↔
      (topology.replayAll log).recoveryError = false ∧
        topology.recoveredState (topology.replayAll log) ⟨encodeLog log⟩ =
          state := by
  rw [recover_eq_ok]
  have replayed :
      WriteAheadLog.replayLog ⟨encodeLog log⟩ topology.replayRecord
          Recovered.initial = (.ok (), topology.replayAll log) :=
    replayBytes_encodeLog _ log _
  rw [replayed]
  constructor
  · intro replayed
    rcases replayed with ⟨recovered, same, clean, result⟩
    rcases Prod.mk.inj same with ⟨_, rfl⟩
    exact ⟨clean, result⟩
  · intro both
    rcases both with ⟨clean, result⟩
    exact ⟨_, rfl, clean, result⟩

/-- A log that recovery accepts is a list of records. -/
theorem exists_records_of_recover {topology : Topology} {wal : WriteAheadLog}
    {state : PbftState} (ok : topology.recover wal = .ok state) :
    ∃ log, wal = ⟨encodeLog log⟩ := by
  rcases exists_records wal.file with ⟨log, rest, split, stopped⟩
  rcases recover_eq_ok.mp ok with ⟨recovered, replayed, _, _⟩
  rw [WriteAheadLog.replayLog, split, replayBytes_append] at replayed
  have whole := (replayBytes_stopped topology.replayRecord
    (log.foldl topology.replayRecord Recovered.initial) stopped).2
  have empty : rest = [] := whole.mp (by rw [replayed])
  rw [empty, List.append_nil] at split
  refine ⟨log, ?_⟩
  cases wal
  exact congrArg WriteAheadLog.mk split

end Topology
end SovereignLattice
