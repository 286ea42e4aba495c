import SovereignLattice.Foundations.Runs

/-!
# Simulation of a run by the actions that it performs

One step of a concrete machine performs a list of abstract actions, which may be
empty.  When every step keeps a relation to the abstract machine, a whole run performs
an abstract run.
-/

namespace SovereignLattice

universe u v w x

variable {State : Type u} {Action : Type v} {Spec : Type w} {Point : Type x}

/-- The abstract actions that a run performs, in the order of its steps. -/
def linearisation (step : State → Action → Option State)
    (points : State → Action → List Point) : State → List Action → List Point
  | _, [] => []
  | state, action :: rest =>
      points state action ++
        match step state action with
        | none => []
        | some next => linearisation step points next rest

section Rules

variable {step : State → Action → Option State}
variable {points : State → Action → List Point}
variable {specStep : Spec → Point → Option Spec}

theorem linearisation_cons {state next : State} {action : Action}
    (stepped : step state action = some next) (rest : List Action) :
    linearisation step points state (action :: rest) =
      points state action ++ linearisation step points next rest := by
  rw [linearisation, stepped]

theorem linearisation_append {state middle : State} {initial : List Action}
    (reached : run step state initial = some middle) (suffix : List Action) :
    linearisation step points state (initial ++ suffix) =
      linearisation step points state initial ++
        linearisation step points middle suffix := by
  induction initial generalizing state with
  | nil =>
      rw [run_nil, Option.some.injEq] at reached
      rw [reached]
      rfl
  | cons action rest inductionHypothesis =>
      rcases run_cons_eq_some.mp reached with ⟨next, stepped, continued⟩
      rw [List.cons_append, linearisation_cons stepped,
        linearisation_cons stepped, inductionHypothesis continued,
        List.append_assoc]

/-- Where in a run an abstract action is performed. -/
theorem mem_linearisation {state final : State} {actions : List Action}
    (reached : run step state actions = some final) {point : Point}
    (member : point ∈ linearisation step points state actions) :
    ∃ earlier action rest middle, actions = earlier ++ action :: rest ∧
      run step state earlier = some middle ∧ point ∈ points middle action := by
  induction actions generalizing state with
  | nil => cases member
  | cons action rest inductionHypothesis =>
      rcases run_cons_eq_some.mp reached with ⟨next, stepped, continued⟩
      rw [linearisation_cons stepped, List.mem_append] at member
      rcases member with here | later
      · exact ⟨[], action, rest, state, rfl, rfl, here⟩
      · rcases inductionHypothesis continued later with
          ⟨earlier, other, suffix, middle, rfl, before, performed⟩
        exact ⟨action :: earlier, other, suffix, middle, rfl,
          run_cons_eq_some.mpr ⟨next, stepped, before⟩, performed⟩

/-- A relation that every step keeps, together with what the step performs, relates
the end of a run to the end of the run of all that it performs. -/
theorem simulation_of_run {relates : State → Spec → Prop}
    (simulated : ∀ state action next spec, relates state spec →
      step state action = some next →
        ∃ after, run specStep spec (points state action) = some after ∧
          relates next after)
    {state final : State} {spec : Spec} {actions : List Action}
    (initially : relates state spec)
    (reached : run step state actions = some final) :
    ∃ specFinal,
      run specStep spec (linearisation step points state actions) =
          some specFinal ∧
        relates final specFinal := by
  induction actions generalizing state spec with
  | nil =>
      rw [run_nil, Option.some.injEq] at reached
      subst reached
      exact ⟨spec, rfl, initially⟩
  | cons action rest inductionHypothesis =>
      rcases run_cons_eq_some.mp reached with ⟨next, stepped, continued⟩
      rcases simulated state action next spec initially stepped with
        ⟨after, performed, related⟩
      rcases inductionHypothesis related continued with
        ⟨specFinal, ended, finallyRelated⟩
      refine ⟨specFinal, ?_, finallyRelated⟩
      rw [linearisation_cons stepped]
      exact run_append_eq_some.mpr ⟨after, performed, ended⟩

end Rules

end SovereignLattice
