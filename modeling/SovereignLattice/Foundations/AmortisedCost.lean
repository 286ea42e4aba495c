import SovereignLattice.Foundations.Runs
import Mathlib.Algebra.GroupWithZero.Nat

/-!
# Amortised cost of runs

A bound on what a whole run costs, from what one step costs against a potential of
the states.  Actions may bring credit of their own, so the bound also covers runs
that the environment feeds.
-/

namespace SovereignLattice

universe u v

variable {State : Type u} {Action : Type v} {step : State → Action → Option State}

/-- Amortised cost: what the steps of a run cost is paid for by the potential at
its start and by the credit that its actions bring. -/
theorem cost_le_of_potential {cost credit : Action → Nat} {potential : State → Nat}
    (pays : ∀ state action next, step state action = some next →
      cost action + potential next ≤ potential state + credit action)
    {state final : State} {actions : List Action}
    (reached : run step state actions = some final) :
    (actions.map cost).sum + potential final ≤
      potential state + (actions.map credit).sum := by
  induction actions generalizing state with
  | nil =>
      rw [run_nil, Option.some.injEq] at reached
      subst reached
      simp only [List.map_nil, List.sum_nil]
      omega
  | cons action rest inductionHypothesis =>
      rcases run_cons_eq_some.mp reached with ⟨next, stepped, continued⟩
      have first := pays state action next stepped
      have others := inductionHypothesis continued
      simp only [List.map_cons, List.sum_cons]
      omega

end SovereignLattice
