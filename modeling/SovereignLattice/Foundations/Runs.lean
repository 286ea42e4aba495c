import Mathlib.Data.List.Induction

/-!
# Runs of a partial state machine

A machine is a function that takes a state and an action to the next state, or
refuses the action.  A run feeds it a list of actions.  Properties of whole
runs follow from properties of one step by the rules at the end.
-/

namespace SovereignLattice

universe u v

variable {State : Type u} {Action : Type v}

/-- Feed a list of actions to a machine; a refused action refuses the run. -/
def run (step : State → Action → Option State) :
    State → List Action → Option State
  | state, [] => some state
  | state, action :: rest =>
      (step state action).bind fun next => run step next rest

/-- The condition holds of every action of the list in the state that the run
has reached when the action is taken. -/
def Along (step : State → Action → Option State)
    (condition : State → Action → Prop) : State → List Action → Prop
  | _, [] => True
  | state, action :: rest =>
      condition state action ∧
        ∀ next, step state action = some next →
          Along step condition next rest

section Rules

variable {step : State → Action → Option State}

@[simp]
theorem run_nil (state : State) : run step state [] = some state :=
  rfl

theorem run_cons (state : State) (action : Action) (rest : List Action) :
    run step state (action :: rest) =
      (step state action).bind fun next => run step next rest :=
  rfl

theorem run_cons_eq_some {state final : State} {action : Action}
    {rest : List Action} :
    run step state (action :: rest) = some final ↔
      ∃ next, step state action = some next ∧ run step next rest = some final := by
  rw [run_cons, Option.bind_eq_some_iff]

theorem run_append (state : State) (initial suffix : List Action) :
    run step state (initial ++ suffix) =
      (run step state initial).bind fun middle => run step middle suffix := by
  induction initial generalizing state with
  | nil => rfl
  | cons action rest inductionHypothesis =>
      rw [List.cons_append, run_cons, run_cons, Option.bind_assoc]
      congr
      funext next
      exact inductionHypothesis next

theorem run_append_eq_some {state final : State}
    {initial suffix : List Action} :
    run step state (initial ++ suffix) = some final ↔
      ∃ middle, run step state initial = some middle ∧
        run step middle suffix = some final := by
  rw [run_append, Option.bind_eq_some_iff]

/-- The run of a machine that never refuses is a fold. -/
theorem run_eq_foldl {next : State → Action → State}
    (total : ∀ state action, step state action = some (next state action))
    (state : State) (actions : List Action) :
    run step state actions = some (actions.foldl next state) := by
  induction actions generalizing state with
  | nil => rfl
  | cons action rest inductionHypothesis =>
      rw [run_cons, total, Option.bind_some, List.foldl_cons]
      exact inductionHypothesis (next state action)

theorem along_append {condition : State → Action → Prop} {state middle : State}
    {initial suffix : List Action}
    (reached : run step state initial = some middle)
    (along : Along step condition state (initial ++ suffix)) :
    Along step condition middle suffix := by
  induction initial generalizing state with
  | nil =>
      rw [run_nil, Option.some.injEq] at reached
      exact reached ▸ along
  | cons action rest inductionHypothesis =>
      rcases run_cons_eq_some.mp reached with ⟨next, stepped, continued⟩
      exact inductionHypothesis continued (along.2 next stepped)

theorem along_of_append {condition : State → Action → Prop} {state : State}
    {initial suffix : List Action}
    (along : Along step condition state (initial ++ suffix)) :
    Along step condition state initial := by
  induction initial generalizing state with
  | nil => exact trivial
  | cons action rest inductionHypothesis =>
      exact ⟨along.1, fun next stepped =>
        inductionHypothesis (along.2 next stepped)⟩

/-- An invariant that every step allowed by the condition preserves holds at
the end of every run whose steps all meet the condition. -/
theorem invariant_of_along {condition : State → Action → Prop}
    {invariant : State → Prop}
    (preserved : ∀ state action next,
      invariant state → condition state action →
        step state action = some next → invariant next)
    {state final : State} {actions : List Action}
    (initially : invariant state)
    (along : Along step condition state actions)
    (reached : run step state actions = some final) :
    invariant final := by
  induction actions generalizing state with
  | nil =>
      rw [run_nil, Option.some.injEq] at reached
      exact reached ▸ initially
  | cons action rest inductionHypothesis =>
      rcases run_cons_eq_some.mp reached with ⟨next, stepped, continued⟩
      exact inductionHypothesis
        (preserved state action next initially along.1 stepped)
        (along.2 next stepped) continued

/-- A condition that every step meets holds along every run. -/
theorem along_of_forall {condition : State → Action → Prop}
    (always : ∀ state action, condition state action) :
    ∀ (actions : List Action) (state : State),
      Along step condition state actions
  | [], _ => trivial
  | action :: rest, state =>
      ⟨always state action, fun next _ => along_of_forall always rest next⟩

/-- The invariant rule without a condition on the steps. -/
theorem invariant_of_run {invariant : State → Prop}
    (preserved : ∀ state action next,
      invariant state → step state action = some next → invariant next)
    {state final : State} {actions : List Action}
    (initially : invariant state)
    (reached : run step state actions = some final) :
    invariant final := by
  have along : Along step (fun _ _ => True) state actions :=
    along_of_forall (fun _ _ => trivial) actions state
  exact invariant_of_along
    (fun before action next holds _ stepped =>
      preserved before action next holds stepped)
    initially along reached

/-- The invariant rule for an invariant that also speaks of the actions taken so
far. -/
theorem invariant_of_history {invariant : List Action → State → Prop}
    (preserved : ∀ earlier state action next,
      invariant earlier state → step state action = some next →
        invariant (earlier ++ [action]) next)
    {state final : State} {actions : List Action}
    (initially : invariant [] state)
    (reached : run step state actions = some final) :
    invariant actions final := by
  induction actions using List.reverseRecOn generalizing final with
  | nil =>
      rw [run_nil, Option.some.injEq] at reached
      exact reached ▸ initially
  | append_singleton earlier action inductionHypothesis =>
      rcases run_append_eq_some.mp reached with ⟨middle, before, last⟩
      rcases run_cons_eq_some.mp last with ⟨next, stepped, ended⟩
      rw [run_nil, Option.some.injEq] at ended
      subst ended
      exact preserved earlier middle action next (inductionHypothesis before) stepped

/-- The condition in terms of the places where an action can stand. -/
theorem along_iff {condition : State → Action → Prop} {state : State}
    {actions : List Action} :
    Along step condition state actions ↔
      ∀ earlier action rest middle, actions = earlier ++ action :: rest →
        run step state earlier = some middle → condition middle action := by
  constructor
  · intro along earlier action rest middle placed reached
    subst placed
    exact (along_append reached along).1
  · intro everywhere
    induction actions generalizing state with
    | nil => trivial
    | cons action rest inductionHypothesis =>
        refine ⟨everywhere [] action rest state rfl rfl, ?_⟩
        intro next stepped
        apply inductionHypothesis
        intro earlier later suffix middle placed reached
        apply everywhere (action :: earlier) later suffix middle
        · rw [placed, List.cons_append]
        · exact run_cons_eq_some.mpr ⟨next, stepped, reached⟩

/-- Every state that the run visits, the first one included. -/
def Visits (step : State → Action → Option State) (visited : State → Prop)
    (state : State) (actions : List Action) : Prop :=
  ∀ earlier middle, earlier <+: actions →
    run step state earlier = some middle → visited middle

theorem Visits.before {visited : State → Prop} {state : State}
    {initial suffix : List Action}
    (visits : Visits step visited state (initial ++ suffix)) :
    Visits step visited state initial :=
  fun earlier middle isPrefix reached =>
    visits earlier middle (isPrefix.trans (List.prefix_append _ _)) reached

theorem Visits.after {visited : State → Prop} {state middle : State}
    {initial suffix : List Action}
    (visits : Visits step visited state (initial ++ suffix))
    (reached : run step state initial = some middle) :
    Visits step visited middle suffix := by
  intro earlier later isPrefix continued
  apply visits (initial ++ earlier) later
  · exact (List.prefix_append_right_inj initial).mpr isPrefix
  · exact run_append_eq_some.mpr ⟨middle, reached, continued⟩

/-- The invariant rule where steps need to keep it only on the way to a state of the
kind that the run visits. -/
theorem invariant_of_visits {visited invariant : State → Prop}
    (preserved : ∀ state action next,
      invariant state → step state action = some next → visited next →
        invariant next)
    {state final : State} {actions : List Action}
    (initially : invariant state)
    (visits : Visits step visited state actions)
    (reached : run step state actions = some final) : invariant final := by
  induction actions generalizing state with
  | nil =>
      rw [run_nil, Option.some.injEq] at reached
      exact reached ▸ initially
  | cons action rest inductionHypothesis =>
      rcases run_cons_eq_some.mp reached with ⟨next, stepped, continued⟩
      have first : run step state [action] = some next :=
        run_cons_eq_some.mpr ⟨next, stepped, rfl⟩
      have here : visited next :=
        visits [action] next (List.prefix_append [action] rest) first
      exact inductionHypothesis (preserved state action next initially stepped here)
        (Visits.after visits first) continued

/-- Where a step keeps the invariant exactly under its condition, a run keeps it all
the way exactly when every step meets the condition. -/
theorem visits_iff_along {invariant : State → Prop}
    {condition : State → Action → Prop}
    (keeps : ∀ state action next, invariant state →
      step state action = some next → (invariant next ↔ condition state action))
    (total : ∀ state action, ∃ next, step state action = some next)
    {state : State} (initially : invariant state) (actions : List Action) :
    Visits step invariant state actions ↔
      Along step condition state actions := by
  induction actions generalizing state with
  | nil =>
      refine ⟨fun _ => trivial, ?_⟩
      intro _ earlier middle isPrefix reached
      rw [List.prefix_nil.mp isPrefix, run_nil, Option.some.injEq] at reached
      exact reached ▸ initially
  | cons action rest inductionHypothesis =>
      constructor
      · intro visits
        have later : ∀ next, step state action = some next →
            invariant next ∧ Visits step invariant next rest := by
          intro next stepped
          have first : run step state [action] = some next :=
            run_cons_eq_some.mpr ⟨next, stepped, rfl⟩
          exact ⟨visits [action] next (List.prefix_append [action] rest) first,
            Visits.after visits first⟩
        constructor
        · rcases total state action with ⟨next, stepped⟩
          exact (keeps state action next initially stepped).mp (later next stepped).1
        · intro next stepped
          rcases later next stepped with ⟨holds, visitsRest⟩
          exact (inductionHypothesis holds).mp visitsRest
      · rintro ⟨allowed, along⟩ earlier middle isPrefix reached
        cases earlier with
        | nil =>
            rw [run_nil, Option.some.injEq] at reached
            exact reached ▸ initially
        | cons first others =>
            rcases List.cons_prefix_cons.mp isPrefix with ⟨rfl, restPrefix⟩
            rcases run_cons_eq_some.mp reached with ⟨next, stepped, continued⟩
            have holds := (keeps state first next initially stepped).mpr allowed
            exact (inductionHypothesis holds).mpr (along next stepped) others middle
              restPrefix continued

end Rules

/-! ## Machines that simulate each other -/

section Simulation

universe w

variable {Abstract : Type w} {step : State → Action → Option State}
variable {abstractStep : Abstract → Action → Option Abstract}
variable {represent : Abstract → State}

/-- A step-by-step simulation carries whole runs over. -/
theorem run_represent
    (simulates : ∀ state action, step (represent state) action =
      (abstractStep state action).map represent)
    (state : Abstract) (actions : List Action) :
    run step (represent state) actions =
      (run abstractStep state actions).map represent := by
  induction actions generalizing state with
  | nil => rfl
  | cons action rest inductionHypothesis =>
      rw [run_cons, run_cons, simulates]
      cases abstractStep state action with
      | none => rfl
      | some next => exact inductionHypothesis next

theorem along_represent
    (simulates : ∀ state action, step (represent state) action =
      (abstractStep state action).map represent)
    {condition : State → Action → Prop} {state : Abstract}
    {actions : List Action}
    (along : Along abstractStep
      (fun current action => condition (represent current) action) state
        actions) :
    Along step condition (represent state) actions := by
  induction actions generalizing state with
  | nil => trivial
  | cons action rest inductionHypothesis =>
      refine ⟨along.1, ?_⟩
      intro next stepped
      rw [simulates, Option.map_eq_some_iff] at stepped
      obtain ⟨abstractNext, taken, rfl⟩ := stepped
      exact inductionHypothesis (along.2 abstractNext taken)

end Simulation

/-- Whether a decidable condition holds along a run, computed. -/
def checkAlong (step : State → Action → Option State)
    (condition : State → Action → Bool) : State → List Action → Bool
  | _, [] => true
  | state, action :: rest =>
      condition state action &&
        match step state action with
        | none => true
        | some next => checkAlong step condition next rest

theorem along_of_checkAlong {step : State → Action → Option State}
    {check : State → Action → Bool} {condition : State → Action → Prop}
    (sound : ∀ state action, check state action = true →
      condition state action)
    {state : State} {actions : List Action}
    (checked : checkAlong step check state actions = true) :
    Along step condition state actions := by
  induction actions generalizing state with
  | nil => trivial
  | cons action rest inductionHypothesis =>
      rw [checkAlong, Bool.and_eq_true] at checked
      refine ⟨sound state action checked.1, ?_⟩
      intro next stepped
      have continued := checked.2
      rw [stepped] at continued
      exact inductionHypothesis continued

end SovereignLattice
