import SovereignLattice.Pbft.LedgerCompleteness

/-!
# What a list of records says

The proposals and votes that a log holds, key by key, without any of the checks
of replay.  Appending a record changes one key; compaction leaves the keys of
the sequences that it keeps as they were.
-/

namespace SovereignLattice

variable [Curve]

/-- The proposals among the records. -/
def proposalsIn (log : List Record) : Finset ProposalKey :=
  ((log.filter fun record =>
    decide (record.phase = Phase.prePrepare.toU8)).map
      Record.proposalKey).toFinset

/-- One record's effect on the votes of a phase for a key. -/
def castVote (phase : Phase) (key : ProposalKey) (votes : Option SignatureMap)
    (record : Record) : Option SignatureMap :=
  if record.phase = phase.toU8 ∧ record.proposalKey = key then
    some ((votes.getD ∅).insert record.senderId record.signature)
  else
    votes

/-- The votes of a phase for a key among the records. -/
def votesIn (phase : Phase) (log : List Record) (key : ProposalKey) :
    Option SignatureMap :=
  log.foldl (castVote phase key) none

/-- The signers of a phase for a key among the records. -/
def signersIn (phase : Phase) (log : List Record) (key : ProposalKey) :
    Finset UInt32 :=
  ((votesIn phase log key).getD ∅).keySet

/-- One record's effect on the view-change votes for a view. -/
def castViewVote (view : UInt64) (votes : Option ViewChangeVotes)
    (record : Record) : Option ViewChangeVotes :=
  if record.phase = Phase.viewChange.toU8 ∧ record.view = view then
    some ((votes.getD ∅).insert record.senderId
      (record.seq, record.digest, record.signature))
  else
    votes

/-- The view-change votes for a view among the records. -/
def viewVotesIn (log : List Record) (view : UInt64) : Option ViewChangeVotes :=
  log.foldl (castViewVote view) none

/-- The senders of view-change votes for a view among the records. -/
def viewSendersIn (log : List Record) (view : UInt64) : Finset UInt32 :=
  ((viewVotesIn log view).getD ∅).keySet

/-! ## One more record -/

section Append

variable (log : List Record) (record : Record)

theorem votesIn_concat (phase : Phase) (key : ProposalKey) :
    votesIn phase (log ++ [record]) key =
      castVote phase key (votesIn phase log key) record := by
  simp [votesIn]

theorem viewVotesIn_concat (view : UInt64) :
    viewVotesIn (log ++ [record]) view =
      castViewVote view (viewVotesIn log view) record := by
  simp [viewVotesIn]

theorem mem_proposalsIn {key : ProposalKey} :
    key ∈ proposalsIn log ↔
      ∃ stored ∈ log, stored.phase = Phase.prePrepare.toU8 ∧
        stored.proposalKey = key := by
  simp [proposalsIn, and_assoc]

theorem mem_proposalsIn_concat {key : ProposalKey} :
    key ∈ proposalsIn (log ++ [record]) ↔
      key ∈ proposalsIn log ∨
        record.phase = Phase.prePrepare.toU8 ∧ record.proposalKey = key := by
  simp only [mem_proposalsIn, List.mem_append, List.mem_singleton, or_and_right,
    exists_or, exists_eq_left]

theorem proposalsIn_subset_concat :
    proposalsIn log ⊆ proposalsIn (log ++ [record]) := by
  intro key member
  exact (mem_proposalsIn_concat log record).mpr (Or.inl member)

variable {log record}

theorem votesIn_concat_of_phase_ne {phase other : Phase}
    (samePhase : record.phase = other.toU8) (different : other ≠ phase)
    (key : ProposalKey) :
    votesIn phase (log ++ [record]) key = votesIn phase log key := by
  rw [votesIn_concat, castVote, if_neg]
  intro vote
  rcases vote with ⟨samePhase', _⟩
  exact different (Phase.toU8_injective (samePhase.symm.trans samePhase'))

theorem viewVotesIn_concat_of_phase_ne {other : Phase}
    (samePhase : record.phase = other.toU8) (different : other ≠ .viewChange)
    (view : UInt64) :
    viewVotesIn (log ++ [record]) view = viewVotesIn log view := by
  rw [viewVotesIn_concat, castViewVote, if_neg]
  intro vote
  rcases vote with ⟨samePhase', _⟩
  exact different (Phase.toU8_injective (samePhase.symm.trans samePhase'))

theorem mem_proposalsIn_concat_of_phase_ne {other : Phase} {key : ProposalKey}
    (samePhase : record.phase = other.toU8) (different : other ≠ .prePrepare) :
    key ∈ proposalsIn (log ++ [record]) ↔ key ∈ proposalsIn log := by
  rw [mem_proposalsIn_concat]
  constructor
  · intro either
    rcases either with member | ⟨samePhase', _⟩
    · exact member
    · exact absurd (Phase.toU8_injective (samePhase.symm.trans samePhase'))
        different
  · exact Or.inl

/-- Storing a vote follows the log at every key where it did before. -/
theorem insert_withVote_follows {votes : VoteMap} {phase : Phase}
    {key : ProposalKey} (samePhase : record.phase = phase.toU8)
    (follows : votes.get? key = votesIn phase log key) :
    (votes.insert record.proposalKey
      (votes.withVote record.proposalKey record.senderId
        record.signature)).get? key =
      votesIn phase (log ++ [record]) key := by
  rw [votesIn_concat, castVote, AssocMap.get?_insert]
  by_cases same : key = record.proposalKey
  · subst same
    rw [if_pos rfl, if_pos ⟨samePhase, rfl⟩, VoteMap.withVote, AssocMap.getD,
      follows]
  · rw [if_neg same, if_neg fun both => same both.2.symm, follows]

theorem mem_signersIn_concat {phase : Phase} {key : ProposalKey}
    {sender : UInt32} :
    sender ∈ signersIn phase (log ++ [record]) key ↔
      sender ∈ signersIn phase log key ∨
        record.phase = phase.toU8 ∧ record.proposalKey = key ∧
          record.senderId = sender := by
  rw [signersIn, votesIn_concat, castVote, AssocMap.mem_keySet_insert_ite,
    and_assoc]
  rfl

theorem signersIn_subset_concat (phase : Phase) (key : ProposalKey) :
    signersIn phase log key ⊆ signersIn phase (log ++ [record]) key :=
  fun _ member => mem_signersIn_concat.mpr (Or.inl member)

theorem mem_viewSendersIn_concat {view : UInt64} {sender : UInt32} :
    sender ∈ viewSendersIn (log ++ [record]) view ↔
      sender ∈ viewSendersIn log view ∨
        record.phase = Phase.viewChange.toU8 ∧ record.view = view ∧
          record.senderId = sender := by
  rw [viewSendersIn, viewVotesIn_concat, castViewVote,
    AssocMap.mem_keySet_insert_ite, and_assoc]
  rfl

end Append

/-- Every stored view-change vote is that of a record. -/
theorem exists_record_of_viewVote {log : List Record} {view : UInt64}
    {votes : ViewChangeVotes} {sender : UInt32} {seq : UInt64}
    {digest : Digest} {signature : G1Projective}
    (stored : viewVotesIn log view = some votes)
    (vote : votes.get? sender = some (seq, digest, signature)) :
    ∃ record ∈ log, record.phase = Phase.viewChange.toU8 ∧
      record.view = view ∧ record.seq = seq ∧ record.digest = digest ∧
      record.senderId = sender ∧ record.signature = signature := by
  induction log using List.reverseRecOn generalizing votes with
  | nil => cases stored
  | append_singleton log record inductionHypothesis =>
      have older : ∀ {earlier : ViewChangeVotes},
          viewVotesIn log view = some earlier →
          earlier.get? sender = some (seq, digest, signature) →
          ∃ record' ∈ log ++ [record],
            record'.phase = Phase.viewChange.toU8 ∧ record'.view = view ∧
            record'.seq = seq ∧ record'.digest = digest ∧
            record'.senderId = sender ∧ record'.signature = signature := by
        intro earlier found voted
        rcases inductionHypothesis found voted with ⟨record', member, fields⟩
        exact ⟨record', List.mem_append_left _ member, fields⟩
      rw [viewVotesIn_concat, castViewVote] at stored
      split at stored
      · rename_i here
        rw [Option.some.injEq] at stored
        subst stored
        rw [AssocMap.get?_insert] at vote
        split at vote
        · rename_i self
          rcases Option.some.inj vote with ⟨rfl, rfl, rfl⟩
          exact ⟨record, by simp, here.1, here.2, rfl, rfl, self.symm, rfl⟩
        · cases before : viewVotesIn log view with
          | none => simp [before] at vote
          | some earlier =>
              rw [before, Option.getD_some] at vote
              exact older before vote
      · exact older stored vote

/-- The number of signers is the number of stored votes. -/
theorem card_signersIn {phase : Phase} {log : List Record} {key : ProposalKey}
    {sigs : SignatureMap} (votes : votesIn phase log key = some sigs) :
    (signersIn phase log key).card = sigs.len := by
  rw [signersIn, votes, Option.getD_some, AssocMap.card_keySet]

/-- A quorum of signers has votes. -/
theorem exists_votesIn {phase : Phase} {log : List Record} {key : ProposalKey}
    (some : 0 < (signersIn phase log key).card) :
    ∃ sigs, votesIn phase log key = Option.some sigs := by
  cases votes : votesIn phase log key with
  | none => simp [signersIn, votes] at some
  | some sigs => exact ⟨sigs, rfl⟩

/-! ## Compaction -/

/-- The records that `prune_before` keeps. -/
def compact (minSeq : UInt64) (log : List Record) : List Record :=
  log.filter fun record => minSeq ≤ record.seq

section Compact

variable {minSeq : UInt64} {log : List Record}

theorem compact_concat (minSeq : UInt64) (log : List Record) (record : Record) :
    compact minSeq (log ++ [record]) =
      if minSeq ≤ record.seq then compact minSeq log ++ [record]
      else compact minSeq log := by
  unfold compact
  rw [List.filter_append]
  split <;> rename_i kept <;> simp [kept]

theorem votesIn_compact {phase : Phase} {key : ProposalKey}
    (kept : minSeq ≤ key.2.1) :
    votesIn phase (compact minSeq log) key = votesIn phase log key := by
  induction log using List.reverseRecOn with
  | nil => rfl
  | append_singleton log record inductionHypothesis =>
      rw [compact_concat, votesIn_concat]
      split
      · rw [votesIn_concat, inductionHypothesis]
      · rename_i dropped
        rw [inductionHypothesis, castVote, if_neg]
        intro same
        rcases same with ⟨_, rfl⟩
        exact dropped kept

theorem signersIn_compact {phase : Phase} {key : ProposalKey}
    (kept : minSeq ≤ key.2.1) :
    signersIn phase (compact minSeq log) key = signersIn phase log key := by
  rw [signersIn, votesIn_compact kept, ← signersIn]

/-- Compaction only removes signers. -/
theorem signersIn_compact_subset (phase : Phase) (key : ProposalKey) :
    signersIn phase (compact minSeq log) key ⊆ signersIn phase log key := by
  induction log using List.reverseRecOn with
  | nil => exact Finset.Subset.refl _
  | append_singleton log record inductionHypothesis =>
      intro sender member
      rw [compact_concat] at member
      split at member
      · rcases mem_signersIn_concat.mp member with before | here
        · exact mem_signersIn_concat.mpr (Or.inl (inductionHypothesis before))
        · exact mem_signersIn_concat.mpr (Or.inr here)
      · exact mem_signersIn_concat.mpr (Or.inl (inductionHypothesis member))

theorem mem_proposalsIn_compact {key : ProposalKey} :
    key ∈ proposalsIn (compact minSeq log) ↔
      key ∈ proposalsIn log ∧ minSeq ≤ key.2.1 := by
  simp only [mem_proposalsIn, compact, List.mem_filter, decide_eq_true_eq]
  constructor
  · intro entry
    rcases entry with ⟨record, ⟨member, kept⟩, samePhase, rfl⟩
    exact ⟨⟨record, member, samePhase, rfl⟩, kept⟩
  · intro entry
    rcases entry with ⟨⟨record, member, samePhase, rfl⟩, kept⟩
    exact ⟨record, ⟨member, kept⟩, samePhase, rfl⟩

end Compact
end SovereignLattice
