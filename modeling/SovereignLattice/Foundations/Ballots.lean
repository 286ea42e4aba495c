import Mathlib.Logic.Function.Basic
import Mathlib.Data.List.Perm.Basic

/-!
# Ballots in any order

A table says which subjects have been voted on and what each voter has said about
them.  Where no voter says two things about one subject, ballots can be entered in
any order and as often as one likes.  A collector is a machine that does nothing
but enter the ballots of the messages that it accepts, so its runs inherit both.
-/

namespace SovereignLattice

section Folds

variable {State Action : Type*} {step : State → Action → State}

/-- Among actions that commute, repeating one changes nothing if repeating it at once
changes nothing. -/
theorem foldl_repeated {first second third : List Action} {action : Action}
    (commute : ∀ one ∈ action :: (second ++ third),
      ∀ other ∈ action :: (second ++ third), ∀ state,
        step (step state one) other = step (step state other) one)
    (idempotent : ∀ state,
      step (step state action) action = step state action) (state : State) :
    (first ++ action :: (second ++ action :: third)).foldl step state =
      (first ++ action :: (second ++ third)).foldl step state := by
  rw [List.foldl_append, List.foldl_append]
  rw [List.foldl_cons, List.foldl_cons]
  have moved : (second ++ action :: third).Perm (action :: (second ++ third)) :=
    List.perm_middle
  have commuteMoved : ∀ one ∈ second ++ action :: third,
      ∀ other ∈ second ++ action :: third, ∀ state,
        step (step state one) other = step (step state other) one :=
    fun one oneMem other otherMem =>
      commute one (moved.subset oneMem) other (moved.subset otherMem)
  rw [moved.foldl_eq' commuteMoved]
  rw [List.foldl_cons, idempotent]

end Folds

/-- What each voter has said about each subject that has been voted on. -/
abbrev Table (Subject Voter Opinion : Type*) : Type _ :=
  Subject → Option (Voter → Option Opinion)

structure Ballot (Subject Voter Opinion : Type*) where
  subject : Subject
  voter : Voter
  opinion : Opinion

variable {Subject Voter Opinion : Type*}

/-- The two ballots are not of one voter with two opinions about one subject. -/
def Ballot.Agrees (ballot other : Ballot Subject Voter Opinion) : Prop :=
  ballot.subject = other.subject → ballot.voter = other.voter →
    ballot.opinion = other.opinion

section Enter

variable [DecidableEq Subject] [DecidableEq Voter]

/-- What the voters have said about a subject, nothing where it is new. -/
def Table.about (table : Table Subject Voter Opinion) (subject : Subject) :
    Voter → Option Opinion :=
  (table subject).getD fun _ => none

def Table.enter (table : Table Subject Voter Opinion)
    (ballot : Ballot Subject Voter Opinion) : Table Subject Voter Opinion :=
  Function.update table ballot.subject
    (some (Function.update (table.about ballot.subject) ballot.voter
      (some ballot.opinion)))

theorem Table.enter_self (table : Table Subject Voter Opinion)
    (ballot : Ballot Subject Voter Opinion) :
    (table.enter ballot).enter ballot = table.enter ballot := by
  have said : (table.enter ballot).about ballot.subject =
      Function.update (table.about ballot.subject) ballot.voter
        (some ballot.opinion) := by
    simp [Table.about, Table.enter]
  conv_lhs => rw [Table.enter, said, Function.update_idem]
  rw [Table.enter, Function.update_idem]

theorem Table.enter_comm (table : Table Subject Voter Opinion)
    {ballot other : Ballot Subject Voter Opinion} (agrees : ballot.Agrees other) :
    (table.enter ballot).enter other = (table.enter other).enter ballot := by
  obtain ⟨subject, voter, opinion⟩ := ballot
  obtain ⟨subject', voter', opinion'⟩ := other
  by_cases sameSubject : subject = subject'
  · subst sameSubject
    by_cases sameVoter : voter = voter'
    · subst sameVoter
      have sameOpinion : opinion = opinion' := agrees rfl rfl
      rw [sameOpinion]
    · have swapped := Function.update_comm sameVoter (some opinion)
        (some opinion') (table.about subject)
      simp only [Table.enter, Table.about, Function.update_self,
        Function.update_idem, Option.getD_some] at swapped ⊢
      rw [swapped]
  · have others : subject' ≠ subject := Ne.symm sameSubject
    simp only [Table.enter, Table.about, Function.update_of_ne others,
      Function.update_of_ne sameSubject]
    exact Function.update_comm sameSubject _ _ table

end Enter

/-! ## Machines that collect ballots -/

/-- A machine that enters the ballots of the messages it accepts and keeps the rest
of its state, on which alone acceptance depends. -/
structure Collector (State Message Rest Subject Voter Opinion : Type*)
    [DecidableEq Subject] [DecidableEq Voter] where
  step : State → Message → State
  ready : State → Prop
  ours : Message → Prop
  rest : State → Rest
  table : State → Table Subject Voter Opinion
  accepts : Rest → Message → Prop
  ballot : Message → Ballot Subject Voter Opinion
  ready_step : ∀ {state msg}, ready state → ours msg → ready (step state msg)
  rest_step : ∀ {state msg}, ready state → ours msg →
    rest (step state msg) = rest state
  table_accepted : ∀ {state msg}, ready state → ours msg →
    accepts (rest state) msg →
      table (step state msg) = (table state).enter (ballot msg)
  table_refused : ∀ {state msg}, ready state → ours msg →
    ¬ accepts (rest state) msg → table (step state msg) = table state
  agrees : ∀ {state msg other}, ready state → ours msg → ours other →
    accepts (rest state) msg → accepts (rest state) other →
      (ballot msg).Agrees (ballot other)

namespace Collector

variable {State Message Rest : Type*} [DecidableEq Subject] [DecidableEq Voter]
variable (collector : Collector State Message Rest Subject Voter Opinion)

open Classical in
/-- The table after one message, for a given rest of the state. -/
noncomputable def count (rest : Rest) (table : Table Subject Voter Opinion)
    (msg : Message) : Table Subject Voter Opinion :=
  if collector.accepts rest msg then
    table.enter (collector.ballot msg)
  else
    table

theorem count_self (rest : Rest) (table : Table Subject Voter Opinion)
    (msg : Message) :
    collector.count rest (collector.count rest table msg) msg =
      collector.count rest table msg := by
  by_cases accepted : collector.accepts rest msg
  · simp only [count, if_pos accepted, Table.enter_self]
  · simp only [count, if_neg accepted]

variable {collector} {state : State}

theorem count_comm (ready : collector.ready state) {msg other : Message}
    (ours : collector.ours msg) (oursToo : collector.ours other)
    (table : Table Subject Voter Opinion) :
    collector.count (collector.rest state)
        (collector.count (collector.rest state) table msg) other =
      collector.count (collector.rest state)
        (collector.count (collector.rest state) table other) msg := by
  by_cases accepted : collector.accepts (collector.rest state) msg
  · by_cases acceptedToo : collector.accepts (collector.rest state) other
    · simp only [count, if_pos accepted, if_pos acceptedToo]
      exact Table.enter_comm table
        (collector.agrees ready ours oursToo accepted acceptedToo)
    · simp only [count, if_pos accepted, if_neg acceptedToo]
  · simp only [count, if_neg accepted]

/-- One message is counted. -/
theorem table_step (ready : collector.ready state) {msg : Message}
    (ours : collector.ours msg) :
    collector.table (collector.step state msg) =
      collector.count (collector.rest state) (collector.table state) msg := by
  by_cases accepted : collector.accepts (collector.rest state) msg
  · rw [count, if_pos accepted]
    exact collector.table_accepted ready ours accepted
  · rw [count, if_neg accepted]
    exact collector.table_refused ready ours accepted

/-- What a collector has after all messages. -/
theorem foldl_step (ready : collector.ready state) {msgs : List Message}
    (ours : ∀ msg ∈ msgs, collector.ours msg) :
    collector.ready (msgs.foldl collector.step state) ∧
      collector.rest (msgs.foldl collector.step state) =
        collector.rest state ∧
      collector.table (msgs.foldl collector.step state) =
        msgs.foldl (collector.count (collector.rest state))
          (collector.table state) := by
  induction msgs generalizing state with
  | nil => exact ⟨ready, rfl, rfl⟩
  | cons msg rest inductionHypothesis =>
      have here := ours msg List.mem_cons_self
      have kept := collector.rest_step ready here
      rcases inductionHypothesis (collector.ready_step ready here)
          fun other member => ours other (List.mem_cons_of_mem msg member) with
        ⟨readyAfter, restAfter, tableAfter⟩
      rw [kept] at restAfter tableAfter
      rw [table_step ready here] at tableAfter
      exact ⟨readyAfter, restAfter, tableAfter⟩

section Observed

variable {Observation : Type*} {observe : State → Observation}

/-- What rest and table determine does not depend on the order of the messages. -/
theorem observe_perm
    (determined : ∀ {first second : State}, collector.ready first →
      collector.ready second → collector.rest first = collector.rest second →
        collector.table first = collector.table second →
          observe first = observe second)
    (ready : collector.ready state) {msgs permuted : List Message}
    (ours : ∀ msg ∈ msgs, collector.ours msg) (perm : msgs.Perm permuted) :
    observe (permuted.foldl collector.step state) =
      observe (msgs.foldl collector.step state) := by
  have oursPermuted : ∀ msg ∈ permuted, collector.ours msg :=
    fun msg member => ours msg (perm.mem_iff.mpr member)
  rcases foldl_step ready ours with ⟨readyAfter, rest, table⟩
  rcases foldl_step ready oursPermuted with
    ⟨readyPermuted, restPermuted, tablePermuted⟩
  apply determined readyPermuted readyAfter (restPermuted.trans rest.symm)
  rw [table, tablePermuted]
  exact (perm.foldl_eq'
    (fun msg member other memberToo =>
      count_comm ready (ours msg member) (ours other memberToo)) _).symm

/-- What rest and table determine does not change with a second copy of a
message. -/
theorem observe_copy
    (determined : ∀ {first second : State}, collector.ready first →
      collector.ready second → collector.rest first = collector.rest second →
        collector.table first = collector.table second →
          observe first = observe second)
    (ready : collector.ready state) {first second third : List Message}
    {msg : Message}
    (ours : ∀ voted ∈ first ++ msg :: (second ++ third), collector.ours voted) :
    observe ((first ++ msg :: (second ++ msg :: third)).foldl
        collector.step state) =
      observe ((first ++ msg :: (second ++ third)).foldl
        collector.step state) := by
  have oursLater : ∀ voted ∈ msg :: (second ++ third), collector.ours voted :=
    fun voted member => ours voted (List.mem_append_right first member)
  have oursCopied : ∀ voted ∈ first ++ msg :: (second ++ msg :: third),
      collector.ours voted := by
    intro voted member
    apply ours voted
    simp only [List.mem_append, List.mem_cons] at member ⊢
    tauto
  rcases foldl_step ready ours with ⟨readyAfter, rest, table⟩
  rcases foldl_step ready oursCopied with ⟨readyCopied, restCopied, tableCopied⟩
  apply determined readyCopied readyAfter (restCopied.trans rest.symm)
  rw [table, tableCopied]
  exact foldl_repeated
    (fun one member other memberToo =>
      count_comm ready (oursLater one member) (oursLater other memberToo))
    (fun counted => collector.count_self _ counted msg) _

end Observed

end Collector
end SovereignLattice
