import SovereignLattice.Epoch.Manager

/-!
# Replayed transitions

The manager compares a transition's epoch with the current one, but never looks at
the epoch of the set that it installs.  Transitions cannot be replayed exactly in
the runs in which every accepted one leads to a later epoch.
-/

namespace SovereignLattice
namespace EpochManager

/-- The run takes the transitions one by one; this is where it stands after
some of them. -/
def after (manager : EpochManager) (transitions : List EpochTransition) :
    EpochManager :=
  transitions.foldl (fun manager transition =>
    (manager.applyTransition transition).2) manager

theorem run_step (manager : EpochManager) (transitions : List EpochTransition) :
    run step manager transitions = some (manager.after transitions) :=
  run_eq_foldl (fun _ _ => rfl) manager transitions

/-- Epochs increase, applied transitions are refused from then on, and refused
calls change nothing. -/
structure ReplaySafe (manager : EpochManager)
    (transitions : List EpochTransition) : Prop where
  increases : ∀ before transition rest,
    transitions = before ++ transition :: rest →
      ((manager.after before).applyTransition transition).1 = .ok () →
        (manager.after before).currentState.epochId <
          (manager.after (before ++ [transition])).currentState.epochId
  appliedOnce : ∀ before transition between rest,
    transitions = before ++ transition :: between ++ transition :: rest →
      ((manager.after before).applyTransition transition).1 = .ok () →
        ((manager.after (before ++ transition :: between)).applyTransition
          transition).1 = .error .invalidEpochTransition
  unchanged : ∀ before transition rest error,
    transitions = before ++ transition :: rest →
      ((manager.after before).applyTransition transition).1 = .error error →
        manager.after (before ++ [transition]) = manager.after before

/-- A transition that is accepted leads to a later epoch. -/
def LeadsOn (manager : EpochManager) (transition : EpochTransition) : Prop :=
  manager.Accepts transition →
    manager.currentState.epochId < transition.nextValidatorSet.epochId

theorem after_append (manager : EpochManager)
    (initial suffix : List EpochTransition) :
    manager.after (initial ++ suffix) = (manager.after initial).after suffix :=
  List.foldl_append

theorem after_concat (manager : EpochManager) (initial : List EpochTransition)
    (transition : EpochTransition) :
    manager.after (initial ++ [transition]) =
      ((manager.after initial).applyTransition transition).2 := by
  rw [after_append]
  rfl

theorem epochId_le_applyTransition {manager : EpochManager}
    {transition : EpochTransition} (leads : manager.LeadsOn transition) :
    manager.currentState.epochId ≤
      (manager.applyTransition transition).2.currentState.epochId := by
  by_cases accepted : manager.Accepts transition
  · rw [applyTransition_of_accepts accepted]
    exact UInt64.le_of_lt (leads accepted)
  · rw [applyTransition_of_not_accepts accepted]
    exact UInt64.le_refl _

theorem epochId_le_after {manager : EpochManager}
    {transitions : List EpochTransition}
    (leads : Along step LeadsOn manager transitions) :
    manager.currentState.epochId ≤
      (manager.after transitions).currentState.epochId := by
  have preserved : ∀ (state : EpochManager) transition next,
      manager.currentState.epochId ≤ state.currentState.epochId →
        LeadsOn state transition → step state transition = some next →
          manager.currentState.epochId ≤ next.currentState.epochId := by
    intro state transition next holds leads stepped
    cases stepped
    exact UInt64.le_trans holds (epochId_le_applyTransition leads)
  exact invariant_of_along preserved (UInt64.le_refl _) leads
    (run_step manager transitions)

theorem applyTransition_of_ne {manager : EpochManager}
    {transition : EpochTransition}
    (other : transition.currentEpoch ≠ manager.currentState.epochId) :
    (manager.applyTransition transition).1 = .error .invalidEpochTransition := by
  rw [applyTransition, if_pos other]

theorem appliedOnce_of_along {manager : EpochManager}
    {transition : EpochTransition} {between : List EpochTransition}
    (leads : Along step LeadsOn manager (transition :: between))
    (accepted : manager.Accepts transition) :
    ((manager.after (transition :: between)).applyTransition transition).1 =
      .error .invalidEpochTransition := by
  have increased := leads.1 accepted
  have kept := epochId_le_after (leads.2 _ rfl)
  rw [applyTransition_of_accepts accepted] at kept
  apply applyTransition_of_ne
  rw [accepted.1]
  exact UInt64.ne_of_lt (UInt64.lt_of_lt_of_le increased kept)

/-- Replays are excluded exactly along the runs in which every accepted transition
leads to a later epoch. -/
theorem replaySafe_iff (manager : EpochManager)
    (transitions : List EpochTransition) :
    ReplaySafe manager transitions ↔
      Along step LeadsOn manager transitions := by
  constructor
  · intro safe
    rw [along_iff]
    intro earlier transition rest state placed reached accepted
    rw [run_step, Option.some.injEq] at reached
    subst reached
    have increased := safe.increases earlier transition rest placed
      (applyTransition_ok_iff.mpr accepted)
    rw [after_concat, applyTransition_of_accepts accepted] at increased
    exact increased
  · intro leads
    refine ⟨?_, ?_, ?_⟩
    · intro before transition rest split applied
      subst split
      have accepted := applyTransition_ok_iff.mp applied
      have here := along_append (run_step manager before) leads
      rw [after_concat, applyTransition_of_accepts accepted]
      exact here.1 accepted
    · intro before transition between rest split applied
      subst split
      have here := along_append (run_step manager before) (along_of_append leads)
      rw [after_append]
      exact appliedOnce_of_along here (applyTransition_ok_iff.mp applied)
    · intro before transition rest error split refused
      rw [after_concat]
      apply applyTransition_of_not_accepts
      intro accepted
      rw [applyTransition_ok_iff.mpr accepted] at refused
      cases refused

def soleValidator : ValidatorSet where
  epochId := 1
  validators := (∅ : AssocMap UInt32 BlsPubKey).insert 1 (Vector.replicate 48 0)
  totalPower := 1

/-- A transition from the first epoch to the first epoch, signed by it. -/
def toSameEpoch : EpochTransition where
  currentEpoch := 1
  nextValidatorSet := soleValidator
  transitionQc := []
  signers := {1}

/-- The transition to the same epoch is applied, and applied again. -/
theorem replaySafe_to_same_epoch :
    ¬ ReplaySafe { currentState := soleValidator } [toSameEpoch, toSameEpoch] := by
  intro safe
  have refused := safe.appliedOnce [] toSameEpoch [] [] rfl (by decide +kernel)
  exact absurd refused (by decide +kernel)

end EpochManager
end SovereignLattice
