import SovereignLattice.Foundations.AssocMap
import Mathlib.Algebra.BigOperators.Group.List.Basic
import Mathlib.Algebra.BigOperators.Group.Finset.Basic

/-!
# Loops over a list

Loops whose steps may fail, loops that add up values, also over the entries of a
map, and a loop that multiplies up two products and skips one item of the list.
-/

namespace SovereignLattice

universe u v w

variable {Item : Type u} {State : Type v}

section Failing

variable {step : State → Item → Option State} {items : List Item}

theorem foldlM_eq_some {next : State → Item → State}
    (succeeds : ∀ item ∈ items, ∀ state, step state item = some (next state item))
    (start : State) :
    items.foldlM step start = some (items.foldl next start) := by
  induction items generalizing start with
  | nil => rfl
  | cons item rest inductionHypothesis =>
      rw [List.foldlM_cons, succeeds item List.mem_cons_self,
        Option.bind_eq_bind, Option.bind_some, List.foldl_cons]
      exact inductionHypothesis
        (fun other member => succeeds other (List.mem_cons_of_mem item member)) _

/-- An item that no state survives ends the loop. -/
theorem foldlM_eq_none {item : Item} (member : item ∈ items)
    (fails : ∀ state, step state item = none) (start : State) :
    items.foldlM step start = none := by
  induction items generalizing start with
  | nil => cases member
  | cons first rest inductionHypothesis =>
      rw [List.foldlM_cons, Option.bind_eq_bind, Option.bind_eq_none_iff]
      intro reached stepped
      rcases List.mem_cons.mp member with same | later
      · rw [← same, fails] at stepped
        cases stepped
      · exact inductionHypothesis later reached

end Failing

theorem mapM_eq_some {Value : Type w} {step : Item → Option Value}
    {value : Item → Value} {items : List Item}
    (succeeds : ∀ item ∈ items, step item = some (value item)) :
    items.mapM step = some (items.map value) := by
  induction items with
  | nil => rfl
  | cons item rest inductionHypothesis =>
      have tail := inductionHypothesis fun other member =>
        succeeds other (List.mem_cons_of_mem item member)
      rw [List.mapM_cons, succeeds item List.mem_cons_self, Option.bind_eq_bind,
        Option.bind_some, tail]
      rfl

theorem mapM_eq_none {Value : Type w} {step : Item → Option Value}
    {items : List Item} {item : Item} (member : item ∈ items)
    (fails : step item = none) : items.mapM step = none := by
  induction items with
  | nil => cases member
  | cons first rest inductionHypothesis =>
      rw [List.mapM_cons, Option.bind_eq_bind, Option.bind_eq_none_iff]
      intro value stepped
      rcases List.mem_cons.mp member with same | later
      · rw [← same, fails] at stepped
        cases stepped
      · rw [inductionHypothesis later]
        rfl

theorem foldl_add_eq_sum {Value : Type w} [AddMonoid Value] (value : Item → Value)
    (items : List Item) (start : Value) :
    items.foldl (fun total item => total + value item) start =
      start + (items.map value).sum := by
  induction items generalizing start with
  | nil => simp
  | cons item rest inductionHypothesis =>
      rw [List.foldl_cons, inductionHypothesis, List.map_cons, List.sum_cons,
        add_assoc]

/-- A loop that adds up the values of the items that pass a test, and notes whether
there are any. -/
theorem foldl_sum_found {Value : Type w} [AddMonoid Value] (test : Item → Bool)
    (value : Item → Value) (items : List Item) (start : Value) (found : Bool) :
    items.foldl
        (fun (state : Value × Bool) item =>
          if test item then (state.1 + value item, true) else state)
        (start, found) =
      (start + ((items.filter test).map value).sum, found || items.any test) := by
  induction items generalizing start found with
  | nil => simp
  | cons item rest inductionHypothesis =>
      rw [List.foldl_cons]
      by_cases passes : test item = true
      · rw [if_pos passes, inductionHypothesis]
        simp [passes, add_assoc]
      · rw [if_neg passes, inductionHypothesis]
        simp [passes]

section Entries

variable {Key : Type u} [DecidableEq Key] {Stored : Type v}
variable {Value : Type w} [AddCommMonoid Value]

theorem sum_entries (map : AssocMap Key Stored) (default : Stored)
    (value : Key → Stored → Value) :
    (map.entries.map fun entry => value entry.1 entry.2).sum =
      ∑ key ∈ map.keySet, value key (map.getD key default) := by
  rw [map.map_entries_eq default]
  rfl

theorem sum_entries_filter (map : AssocMap Key Stored) (default : Stored)
    (test : Key → Bool) (value : Key → Stored → Value) :
    ((map.entries.filter fun entry => test entry.1).map
        fun entry => value entry.1 entry.2).sum =
      ∑ key ∈ map.keySet.filter fun key => test key = true,
        value key (map.getD key default) := by
  have kept := sum_entries (map.retain test) default value
  rw [map.keySet_retain] at kept
  refine kept.trans (Finset.sum_congr rfl ?_)
  intro key member
  have passes : test key = true := (Finset.mem_filter.mp member).2
  rw [AssocMap.getD, AssocMap.get?_retain, if_pos passes]
  rfl

theorem any_entries (map : AssocMap Key Stored) (test : Key → Bool) :
    (map.entries.any fun entry => test entry.1) = true ↔
      (map.keySet.filter fun key => test key = true).Nonempty := by
  rw [List.any_eq_true]
  constructor
  · intro listed
    rcases listed with ⟨⟨key, stored⟩, member, passes⟩
    have found : map.get? key = some stored := AList.mem_lookup_iff.mpr member
    exact ⟨key, Finset.mem_filter.mpr
      ⟨AssocMap.mem_keys_iff.mpr ⟨stored, found⟩, passes⟩⟩
  · intro nonempty
    rcases nonempty with ⟨key, member⟩
    rw [Finset.mem_filter, AssocMap.mem_keySet, AssocMap.mem_keys_iff] at member
    rcases member with ⟨⟨stored, found⟩, passes⟩
    exact ⟨⟨key, stored⟩, AList.mem_lookup_iff.mp found, passes⟩

end Entries

section Skipping

variable {Value : Type w} [CommMonoid Value] [DecidableEq Item]

/-- Two products over the items other than one of them. -/
theorem foldl_products_skipping (first second : Item → Value) (items : List Item)
    (skipped : Item) (left right : Value) :
    items.foldl
        (fun (state : Value × Value) item =>
          if skipped = item then state
          else (state.1 * first item, state.2 * second item))
        (left, right) =
      (left * ((items.filter (skipped ≠ ·)).map first).prod,
        right * ((items.filter (skipped ≠ ·)).map second).prod) := by
  induction items generalizing left right with
  | nil => simp
  | cons item rest inductionHypothesis =>
      rw [List.foldl_cons]
      by_cases same : skipped = item
      · rw [if_pos same, inductionHypothesis]
        simp [same]
      · rw [if_neg same, inductionHypothesis]
        simp [same, mul_assoc]

theorem prod_filter_ne {items : List Item} (nodup : items.Nodup) (skipped : Item)
    (factor : Item → Value) :
    ((items.filter (skipped ≠ ·)).map factor).prod =
      ∏ item ∈ items.toFinset.erase skipped, factor item := by
  have filtered : (items.filter (skipped ≠ ·)).Nodup := nodup.filter _
  rw [← List.prod_toFinset factor filtered]
  apply Finset.prod_congr
  · ext item
    simp only [ne_eq, List.mem_toFinset, List.mem_filter, Finset.mem_erase,
      decide_eq_true_eq]
    constructor
    · intro both
      rcases both with ⟨member, different⟩
      exact ⟨fun same => different same.symm, member⟩
    · intro both
      rcases both with ⟨different, member⟩
      exact ⟨member, fun same => different same.symm⟩
  · intro item _
    rfl

end Skipping

end SovereignLattice
