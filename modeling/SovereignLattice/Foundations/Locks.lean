import Mathlib.Data.List.Basic

/-!
# Locks and the tasks that hold them

The holder of a lock is recorded at the lock, and which agents stand inside its
critical section is read off the agents.  The two agree in every reachable state, and
from that two agents are never inside at once.
-/

namespace SovereignLattice

universe u v

variable {Agent : Type u} {inside later : Agent → Prop}

/-- The recorded holder is the one agent inside the critical section. -/
def Guards (holder : Option Agent) (inside : Agent → Prop) : Prop :=
  ∀ agent, holder = some agent ↔ inside agent

namespace Guards

theorem exclusive {holder : Option Agent} (guards : Guards holder inside)
    {first second : Agent} (firstInside : inside first)
    (secondInside : inside second) : first = second := by
  have firstHolds := (guards first).mpr firstInside
  have secondHolds := (guards second).mpr secondInside
  rw [firstHolds] at secondHolds
  exact Option.some.inj secondHolds

theorem empty_of_free (guards : Guards none inside) (agent : Agent) :
    ¬ inside agent := by
  intro isInside
  cases (guards agent).mpr isInside

theorem congr {holder : Option Agent} (guards : Guards holder inside)
    (same : ∀ agent, later agent ↔ inside agent) : Guards holder later :=
  fun agent => (guards agent).trans (same agent).symm

theorem acquire (guards : Guards none inside) {agent : Agent}
    (entered : later agent)
    (others : ∀ other, other ≠ agent → (later other ↔ inside other)) :
    Guards (some agent) later := by
  intro other
  constructor
  · intro same
    rw [Option.some.injEq] at same
    exact same ▸ entered
  · intro isInside
    by_cases same : other = agent
    · rw [same]
    · exact absurd ((others other same).mp isInside) (guards.empty_of_free other)

theorem release {agent : Agent} (guards : Guards (some agent) inside)
    (gone : ¬ later agent)
    (others : ∀ other, other ≠ agent → (later other ↔ inside other)) :
    Guards none later := by
  intro other
  constructor
  · intro impossible
    cases impossible
  · intro isInside
    by_cases same : other = agent
    · exact absurd (same ▸ isInside) gone
    · have held := (guards other).mpr ((others other same).mp isInside)
      exact absurd (Option.some.inj held).symm same

end Guards

/-! ## Tasks in a list -/

section Tasks

variable {Task : Type v} {tasks : List Task} {index : Nat} {old new : Task}

/-- Some task stands at the place and satisfies the condition. -/
def StandsAt (tasks : List Task) (condition : Task → Prop) (index : Nat) : Prop :=
  ∃ task, tasks[index]? = some task ∧ condition task

theorem getElem?_set_of_stands (stands : tasks[index]? = some old) (new : Task)
    (place : Nat) :
    (tasks.set index new)[place]? =
      if place = index then some new else tasks[place]? := by
  have bound : index < tasks.length := (List.getElem?_eq_some_iff.mp stands).1
  by_cases same : place = index
  · subst same
    rw [List.getElem?_set_self bound, if_pos rfl]
  · rw [List.getElem?_set_ne (Ne.symm same), if_neg same]

theorem standsAt_set {condition : Task → Prop}
    (stands : tasks[index]? = some old) (new : Task) (place : Nat) :
    StandsAt (tasks.set index new) condition place ↔
      if place = index then condition new else StandsAt tasks condition place := by
  rw [StandsAt, getElem?_set_of_stands stands]
  split
  · simp
  · rfl

theorem standsAt_of_stands {condition : Task → Prop}
    (stands : tasks[index]? = some old) :
    StandsAt tasks condition index ↔ condition old := by
  simp [StandsAt, stands]

/-- A task that moves without changing the condition changes it nowhere. -/
theorem standsAt_set_of_iff {condition : Task → Prop}
    (stands : tasks[index]? = some old) (same : condition new ↔ condition old)
    (place : Nat) :
    StandsAt (tasks.set index new) condition place ↔
      StandsAt tasks condition place := by
  rw [standsAt_set stands]
  split
  · rename_i here
    subst here
    rw [same, standsAt_of_stands stands]
  · rfl

theorem standsAt_concat {condition : Task → Prop} (fresh : ¬ condition new)
    (place : Nat) :
    StandsAt (tasks ++ [new]) condition place ↔
      StandsAt tasks condition place := by
  rw [StandsAt, StandsAt, List.getElem?_append]
  split
  · rfl
  · rename_i beyond
    have none : tasks[place]? = none :=
      List.getElem?_eq_none (Nat.le_of_not_lt beyond)
    rw [none, List.getElem?_singleton]
    split <;> simp [fresh]

/-- Counting after one task has moved. -/
theorem countP_set (condition : Task → Bool) (stands : tasks[index]? = some old)
    (new : Task) :
    (tasks.set index new).countP condition + (if condition old then 1 else 0) =
      tasks.countP condition + if condition new then 1 else 0 := by
  induction tasks generalizing index with
  | nil => simp at stands
  | cons task rest inductionHypothesis =>
      cases index with
      | zero =>
          rw [List.getElem?_cons_zero, Option.some.injEq] at stands
          subst stands
          simp only [List.set_cons_zero, List.countP_cons]
          omega
      | succ place =>
          rw [List.getElem?_cons_succ] at stands
          have rest := inductionHypothesis stands
          simp only [List.set_cons_succ, List.countP_cons]
          omega

/-- Collecting from the tasks after one of them has moved. -/
theorem filterMap_set_perm {Item : Type u} (collect : Task → Option Item)
    (stands : tasks[index]? = some old) (new : Task) :
    ((collect old).toList ++ (tasks.set index new).filterMap collect).Perm
      ((collect new).toList ++ tasks.filterMap collect) := by
  induction tasks generalizing index with
  | nil => simp at stands
  | cons task rest inductionHypothesis =>
      cases index with
      | zero =>
          rw [List.getElem?_cons_zero, Option.some.injEq] at stands
          subst stands
          rw [List.set_cons_zero]
          cases before : collect task <;> cases after : collect new <;>
            simp [before, after, List.Perm.swap]
      | succ place =>
          rw [List.getElem?_cons_succ] at stands
          have moved := inductionHypothesis stands
          rw [List.set_cons_succ]
          cases first : collect task with
          | none =>
              rw [List.filterMap_cons_none first, List.filterMap_cons_none first]
              exact moved
          | some item =>
              rw [List.filterMap_cons_some first, List.filterMap_cons_some first]
              exact List.perm_middle.trans
                ((moved.cons item).trans List.perm_middle.symm)

end Tasks

end SovereignLattice
