import SovereignLattice.Foundations.AssocMap
import SovereignLattice.Foundations.CheckedArithmetic
import SovereignLattice.Foundations.Quorums
import SovereignLattice.Pbft.Messages

/-!
# The quorum tracker (`quorum_tracker.rs`)

Two maps collect the senders of the prepare and commit votes for each view,
sequence and digest.  A call answers whether its vote has crossed the threshold.
-/

namespace SovereignLattice

/-- `View(pub u64)`. -/
structure View where
  number : UInt64
  deriving DecidableEq

/-- The key of both maps. -/
abbrev VoteKey : Type :=
  View × UInt64 × Digest

structure QuorumTracker where
  prepareVotes : AssocMap VoteKey (Finset UInt32)
  commitVotes : AssocMap VoteKey (Finset UInt32)

inductive VoteKind where
  | prepare
  | commit
  deriving DecidableEq, Repr

/-- The arguments of a call, and which of the two calls it is. -/
structure Vote where
  kind : VoteKind
  view : View
  seq : UInt64
  digest : Digest
  sender : UInt32

/-- What a vote is for. -/
def Vote.subject (vote : Vote) : VoteKind × VoteKey :=
  (vote.kind, vote.view, vote.seq, vote.digest)

namespace QuorumTracker

def new : QuorumTracker where
  prepareVotes := ∅
  commitVotes := ∅

/-- Nothing is the result where `2 * f + 1` overflows. -/
def hasQuorum (votersCount : Nat) (f : UInt64) : Option Bool := do
  let doubled ← Checked.mul 2 f
  let quorum ← Checked.add doubled 1
  some (decide (quorum.toNat ≤ votersCount))

/-- The body of both calls, on the map of one kind. -/
def addVote (votes : AssocMap VoteKey (Finset UInt32)) (key : VoteKey)
    (sender : UInt32) (f : UInt64) :
    Option (Bool × AssocMap VoteKey (Finset UInt32)) := do
  let voters := votes.getD key ∅
  let alreadyHadQuorum ← hasQuorum voters.card f
  let voters := insert sender voters
  let nowHasQuorum ← hasQuorum voters.card f
  some (!alreadyHadQuorum && nowHasQuorum, votes.insert key voters)

def addPrepare (tracker : QuorumTracker) (view : View) (seq : UInt64)
    (digest : Digest) (sender : UInt32) (f : UInt64) :
    Option (Bool × QuorumTracker) := do
  let (crossed, votes) ← addVote tracker.prepareVotes (view, seq, digest) sender f
  some (crossed, { tracker with prepareVotes := votes })

def addCommit (tracker : QuorumTracker) (view : View) (seq : UInt64)
    (digest : Digest) (sender : UInt32) (f : UInt64) :
    Option (Bool × QuorumTracker) := do
  let (crossed, votes) ← addVote tracker.commitVotes (view, seq, digest) sender f
  some (crossed, { tracker with commitVotes := votes })

def add (f : UInt64) (tracker : QuorumTracker) (vote : Vote) :
    Option (Bool × QuorumTracker) :=
  match vote.kind with
  | .prepare => tracker.addPrepare vote.view vote.seq vote.digest vote.sender f
  | .commit => tracker.addCommit vote.view vote.seq vote.digest vote.sender f

/-- The answers to a list of calls. -/
def answers (f : UInt64) : QuorumTracker → List Vote → Option (List Bool)
  | _, [] => some []
  | tracker, vote :: rest => do
      let (crossed, next) ← tracker.add f vote
      let others ← answers f next rest
      some (crossed :: others)

/-- The senders of the votes for a subject, in the order of their votes. -/
def senders (subject : VoteKind × VoteKey) (votes : List Vote) : List UInt32 :=
  (votes.filter fun vote => vote.subject = subject).map Vote.sender

/-- The answers to the votes for a subject. -/
def answersFor (subject : VoteKind × VoteKey) (votes : List Vote)
    (results : List Bool) : List Bool :=
  ((votes.zip results).filter fun pair => pair.1.subject = subject).map Prod.snd

/-- For a subject with enough distinct senders one call answers yes, the one that
brings the last sender that was missing.  The other votes have no effect on it. -/
structure TriggersOnce (f : UInt64) (votes : List Vote) (results : List Bool)
    (subject : VoteKind × VoteKey) : Prop where
  once : (answersFor subject votes results).count true =
    if 2 * f.toNat + 1 ≤ (senders subject votes).toFinset.card then 1 else 0
  crossing : ∀ before vote rest, votes = before ++ vote :: rest →
    vote.subject = subject →
      (results[before.length]? = some true ↔
        vote.sender ∉ senders subject before ∧
          (senders subject before).toFinset.card = 2 * f.toNat)
  unaffected :
    answers f new (votes.filter fun vote => vote.subject = subject) =
      some (answersFor subject votes results)

/-- The senders that the tracker has recorded for a subject. -/
def voters (tracker : QuorumTracker) : VoteKind × VoteKey → Finset UInt32
  | (.prepare, key) => tracker.prepareVotes.getD key ∅
  | (.commit, key) => tracker.commitVotes.getD key ∅

@[simp]
theorem voters_new (subject : VoteKind × VoteKey) : new.voters subject = ∅ := by
  rcases subject with ⟨kind, key⟩
  cases kind <;> rfl

variable {f : UInt64}

theorem hasQuorum_eq (fits : 2 * f.toNat + 1 < 2 ^ 64) (votersCount : Nat) :
    hasQuorum votersCount f = some (decide (2 * f.toNat + 1 ≤ votersCount)) := by
  obtain ⟨doubled, multiplied, product⟩ :=
    @Checked.mul_eq_some 2 f 2 _ rfl rfl (by omega)
  obtain ⟨quorum, added, sum⟩ :=
    @Checked.add_eq_some doubled 1 _ 1 product rfl fits
  rw [hasQuorum, multiplied, Option.bind_eq_bind, Option.bind_some, added,
    Option.bind_some, sum]

/-- A vote is recorded under its key, and answered by whether its sender is the
last that was missing. -/
theorem addVote_eq (fits : 2 * f.toNat + 1 < 2 ^ 64)
    (votes : AssocMap VoteKey (Finset UInt32)) (key : VoteKey) (sender : UInt32) :
    addVote votes key sender f =
      some (crosses (2 * f.toNat + 1) (votes.getD key ∅) sender,
        votes.insert key (insert sender (votes.getD key ∅))) := by
  simp only [addVote, hasQuorum_eq fits, Option.bind_eq_bind, Option.bind_some]
  congr 2
  rw [crosses]
  by_cases known : sender ∈ votes.getD key ∅
  · rw [Finset.insert_eq_of_mem known]
    simp [known]
  · rw [Finset.card_insert_of_notMem known]
    simp only [known, not_false_eq_true, true_and]
    rw [← decide_not, ← Bool.decide_and, decide_eq_decide]
    omega

theorem getD_record (votes : AssocMap VoteKey (Finset UInt32)) (key other : VoteKey)
    (sender : UInt32) :
    (votes.insert key (insert sender (votes.getD key ∅))).getD other ∅ =
      if key = other then insert sender (votes.getD other ∅)
      else votes.getD other ∅ := by
  rw [AssocMap.getD_insert]
  by_cases same : key = other
  · subst same
    rfl
  · rw [if_neg (Ne.symm same), if_neg same]

/-- Both calls do so on the voters of the vote's own subject. -/
theorem add_eq (fits : 2 * f.toNat + 1 < 2 ^ 64) (tracker : QuorumTracker)
    (vote : Vote) :
    ∃ next, tracker.add f vote =
        some (crosses (2 * f.toNat + 1) (tracker.voters vote.subject) vote.sender,
          next) ∧
      ∀ subject, next.voters subject =
        if vote.subject = subject then
          insert vote.sender (tracker.voters subject)
        else
          tracker.voters subject := by
  rcases vote with ⟨kind, view, seq, digest, sender⟩
  cases kind with
  | prepare =>
      refine ⟨{ tracker with
        prepareVotes := tracker.prepareVotes.insert (view, seq, digest)
          (insert sender (tracker.prepareVotes.getD (view, seq, digest) ∅)) },
        ?_, ?_⟩
      · rw [add, addPrepare, addVote_eq fits]
        rfl
      · rintro ⟨_ | _, other⟩
        · simp [Vote.subject, voters, getD_record]
        · simp [Vote.subject, voters]
  | commit =>
      refine ⟨{ tracker with
        commitVotes := tracker.commitVotes.insert (view, seq, digest)
          (insert sender (tracker.commitVotes.getD (view, seq, digest) ∅)) },
        ?_, ?_⟩
      · rw [add, addCommit, addVote_eq fits]
        rfl
      · rintro ⟨_ | _, other⟩
        · simp [Vote.subject, voters]
        · simp [Vote.subject, voters, getD_record]

theorem senders_cons (subject : VoteKind × VoteKey) (vote : Vote)
    (rest : List Vote) :
    senders subject (vote :: rest) =
      if vote.subject = subject then vote.sender :: senders subject rest
      else senders subject rest := by
  by_cases here : vote.subject = subject <;> simp [senders, here]

theorem answersFor_cons (subject : VoteKind × VoteKey) (vote : Vote)
    (rest : List Vote) (result : Bool) (others : List Bool) :
    answersFor subject (vote :: rest) (result :: others) =
      if vote.subject = subject then result :: answersFor subject rest others
      else answersFor subject rest others := by
  by_cases here : vote.subject = subject <;> simp [answersFor, here]

/-- The first call answers, and the others are answered from where it leads. -/
theorem answers_cons (fits : 2 * f.toNat + 1 < 2 ^ 64) (tracker : QuorumTracker)
    (vote : Vote) (rest : List Vote) :
    ∃ next, answers f tracker (vote :: rest) =
        (answers f next rest).map
          (crosses (2 * f.toNat + 1) (tracker.voters vote.subject) vote.sender :: ·) ∧
      ∀ subject, next.voters subject =
        if vote.subject = subject then
          insert vote.sender (tracker.voters subject)
        else
          tracker.voters subject := by
  obtain ⟨next, added, recorded⟩ := add_eq fits tracker vote
  refine ⟨next, ?_, recorded⟩
  rw [answers, added, Option.bind_eq_bind, Option.bind_some]
  rw [Option.map_eq_bind]
  rfl

/-- No call overflows, and the answers for each subject are the crossings of
its senders. -/
theorem answers_eq (fits : 2 * f.toNat + 1 < 2 ^ 64) (tracker : QuorumTracker)
    (votes : List Vote) :
    ∃ results, answers f tracker votes = some results ∧
      results.length = votes.length ∧ ∀ subject,
        answersFor subject votes results =
          crossings (2 * f.toNat + 1) (tracker.voters subject)
            (senders subject votes) := by
  induction votes generalizing tracker with
  | nil => exact ⟨[], rfl, rfl, fun _ => rfl⟩
  | cons vote rest inductionHypothesis =>
      obtain ⟨next, unfolded, recorded⟩ := answers_cons fits tracker vote rest
      obtain ⟨others, answered, length, crossed⟩ := inductionHypothesis next
      rw [answered, Option.map_some] at unfolded
      refine ⟨_, unfolded, congrArg Nat.succ length, ?_⟩
      intro subject
      rw [answersFor_cons, senders_cons, crossed, recorded]
      by_cases here : vote.subject = subject
      · subst here
        rw [if_pos rfl, if_pos rfl, if_pos rfl, crossings]
      · rw [if_neg here, if_neg here, if_neg here]

/-- What the call at a given place answers. -/
theorem answer_at (fits : 2 * f.toNat + 1 < 2 ^ 64) {tracker : QuorumTracker}
    {before rest : List Vote} {vote : Vote} {results : List Bool}
    (answered : answers f tracker (before ++ vote :: rest) = some results) :
    results[before.length]? =
      some (crosses (2 * f.toNat + 1)
        (tracker.voters vote.subject ∪ (senders vote.subject before).toFinset)
        vote.sender) := by
  induction before generalizing tracker results with
  | nil =>
      obtain ⟨next, unfolded, _⟩ := answers_cons fits tracker vote rest
      rw [List.nil_append, unfolded] at answered
      rcases Option.map_eq_some_iff.mp answered with ⟨others, _, rfl⟩
      simp [senders]
  | cons first between inductionHypothesis =>
      obtain ⟨next, unfolded, recorded⟩ :=
        answers_cons fits tracker first (between ++ vote :: rest)
      rw [List.cons_append, unfolded] at answered
      rcases Option.map_eq_some_iff.mp answered with ⟨others, later, rfl⟩
      rw [List.length_cons, List.getElem?_cons_succ, inductionHypothesis later,
        recorded, senders_cons]
      by_cases here : first.subject = vote.subject
      · rw [if_pos here, if_pos here, List.toFinset_cons, Finset.insert_union,
          Finset.union_insert]
      · rw [if_neg here, if_neg here]

/-- Each answer to the votes for one subject is an answer for it. -/
theorem answersFor_filter (subject : VoteKind × VoteKey) (votes : List Vote)
    {results : List Bool}
    (length : results.length =
      (votes.filter fun vote => vote.subject = subject).length) :
    answersFor subject (votes.filter fun vote => vote.subject = subject) results =
      results := by
  rw [answersFor, List.filter_eq_self.mpr, List.map_snd_zip length.le]
  intro pair member
  exact (List.mem_filter.mp (List.of_mem_zip member).1).2

/-- Whatever the order of the calls, every subject is triggered once. -/
theorem triggersOnce_answers (fits : 2 * f.toNat + 1 < 2 ^ 64)
    (votes : List Vote) :
    ∃ results, answers f new votes = some results ∧
      results.length = votes.length ∧
        ∀ subject, TriggersOnce f votes results subject := by
  obtain ⟨results, answered, length, crossed⟩ := answers_eq fits new votes
  refine ⟨results, answered, length, ?_⟩
  intro subject
  refine ⟨?_, ?_, ?_⟩
  · rw [crossed, count_crossings, voters_new, Finset.empty_union]
    simp
  · intro before vote rest split here
    subst split here
    rw [answer_at fits answered, voters_new, Finset.empty_union]
    simp [crosses]
  · obtain ⟨own, ownAnswered, ownLength, ownCrossed⟩ :=
      answers_eq fits new (votes.filter fun vote => vote.subject = subject)
    have sameSenders : senders subject
        (votes.filter fun vote => vote.subject = subject) =
          senders subject votes := by
      simp [senders]
    rw [ownAnswered, crossed, ← sameSenders, ← ownCrossed,
      answersFor_filter subject votes ownLength]

/-- Two prepare votes, one of them twice, a commit vote, and two more. -/
def sixVotes : List Vote :=
  [(.prepare, 1), (.prepare, 2), (.prepare, 2), (.commit, 3), (.prepare, 3),
    (.prepare, 4)].map fun (kind, sender) =>
      { kind, view := ⟨0⟩, seq := 1, digest := Vector.replicate 32 0, sender }

/-- Only the third sender's prepare vote is answered yes. -/
theorem triggersOnce_sixVotes :
    answers 1 new sixVotes = some [false, false, false, false, true, false] ∧
      ∃ results, answers 1 new sixVotes = some results ∧
        results.length = sixVotes.length ∧
          ∀ subject, TriggersOnce 1 sixVotes results subject :=
  ⟨by decide +kernel, triggersOnce_answers (by decide) sixVotes⟩

end QuorumTracker
end SovereignLattice
