import Mathlib.Data.Finset.Card
import Mathlib.Tactic.Linarith

/-!
# Quorum intersection

The counting facts behind a `3 * f + 1` membership with quorums of size
`2 * f + 1`, for finite sets over any type.
-/

namespace SovereignLattice

universe u

variable {Node : Type u} [DecidableEq Node]
variable {members left right faulty : Finset Node} {f : Nat}

/-- Two sets of members overlap at least as far as they do not fit side by side. -/
theorem card_add_card_le_card_inter (leftMembers : left ⊆ members)
    (rightMembers : right ⊆ members) :
    left.card + right.card ≤ members.card + (left ∩ right).card := by
  have unionBound : (left ∪ right).card ≤ members.card :=
    Finset.card_le_card (Finset.union_subset leftMembers rightMembers)
  have inclusionExclusion := Finset.card_union_add_card_inter left right
  omega

theorem exists_card_inter_eq {size : Nat} (fits : size ≤ members.card) :
    ∃ left ⊆ members, ∃ right ⊆ members, left.card = size ∧ right.card = size ∧
      (left ∩ right).card = 2 * size - members.card := by
  obtain ⟨left, leftMembers, leftSize⟩ := Finset.exists_subset_card_eq fits
  have others : (members \ left).card = members.card - size := by
    rw [Finset.card_sdiff_of_subset leftMembers, leftSize]
  by_cases apart : size ≤ members.card - size
  · obtain ⟨right, rightMembers, rightSize⟩ :=
      Finset.exists_subset_card_eq (apart.trans_eq others.symm)
    refine ⟨left, leftMembers, right, rightMembers.trans Finset.sdiff_subset,
      leftSize, rightSize, ?_⟩
    have disjoint : left ∩ right = ∅ := by
      rw [← Finset.disjoint_iff_inter_eq_empty]
      exact Finset.disjoint_sdiff.mono_right rightMembers
    rw [disjoint, Finset.card_empty]
    omega
  · obtain ⟨right, contains, rightMembers, rightSize⟩ :=
      Finset.exists_subsuperset_card_eq
        (Finset.sdiff_subset : members \ left ⊆ members)
        (show (members \ left).card ≤ size by omega) fits
    refine ⟨left, leftMembers, right, rightMembers, leftSize, rightSize, ?_⟩
    have covers : left ∪ right = members := by
      apply Finset.Subset.antisymm (Finset.union_subset leftMembers rightMembers)
      intro node member
      by_cases inLeft : node ∈ left
      · exact Finset.mem_union_left right inLeft
      · exact Finset.mem_union_right left
          (contains (Finset.mem_sdiff.mpr ⟨member, inLeft⟩))
    have inclusionExclusion := Finset.card_union_add_card_inter left right
    rw [covers] at inclusionExclusion
    omega

theorem quorum_intersection
    (size : members.card ≤ 3 * f + 1)
    (leftMembers : left ⊆ members) (rightMembers : right ⊆ members)
    (leftQuorum : 2 * f + 1 ≤ left.card)
    (rightQuorum : 2 * f + 1 ≤ right.card) :
    f + 1 ≤ (left ∩ right).card := by
  have overlap := card_add_card_le_card_inter leftMembers rightMembers
  omega

omit [DecidableEq Node] in
theorem exists_correct_of_card_lt
    (few : faulty.card ≤ f) (many : f + 1 ≤ left.card) :
    ∃ node ∈ left, node ∉ faulty := by
  apply Finset.exists_mem_notMem_of_card_lt_card
  omega

theorem exists_correct_in_both
    (size : members.card ≤ 3 * f + 1) (few : faulty.card ≤ f)
    (leftMembers : left ⊆ members) (rightMembers : right ⊆ members)
    (leftQuorum : 2 * f + 1 ≤ left.card)
    (rightQuorum : 2 * f + 1 ≤ right.card) :
    ∃ node, node ∈ left ∧ node ∈ right ∧ node ∉ faulty := by
  have shared :=
    quorum_intersection size leftMembers rightMembers leftQuorum rightQuorum
  rcases exists_correct_of_card_lt few shared with ⟨node, member, correct⟩
  exact ⟨node, (Finset.mem_inter.mp member).1, (Finset.mem_inter.mp member).2,
    correct⟩

/-- Values with a quorum of votes each are related, if the votes of every correct
node are. -/
theorem related_of_quorums {Value : Type*} (voted : Node → Value → Prop)
    {related : Value → Value → Prop} {first second : Value}
    (size : members.card ≤ 3 * f + 1) (few : faulty.card ≤ f)
    (consistent : ∀ node ∈ members, node ∉ faulty → ∀ value other,
      voted node value → voted node other → related value other)
    (leftMembers : left ⊆ members) (rightMembers : right ⊆ members)
    (leftQuorum : 2 * f + 1 ≤ left.card)
    (rightQuorum : 2 * f + 1 ≤ right.card)
    (leftVoted : ∀ node ∈ left, node ∉ faulty → voted node first)
    (rightVoted : ∀ node ∈ right, node ∉ faulty → voted node second) :
    related first second := by
  obtain ⟨node, inLeft, inRight, correct⟩ :=
    exists_correct_in_both size few leftMembers rightMembers leftQuorum
      rightQuorum
  exact consistent node (leftMembers inLeft) correct first second
    (leftVoted node inLeft correct) (rightVoted node inRight correct)

section Crossings

/-- The node brings the set up to a size. -/
def crosses (size : Nat) (seen : Finset Node) (node : Node) : Bool :=
  decide (node ∉ seen ∧ seen.card + 1 = size)

/-- Which nodes of a list bring a growing set up to a size. -/
def crossings (size : Nat) : Finset Node → List Node → List Bool
  | _, [] => []
  | seen, node :: rest =>
      crosses size seen node :: crossings size (insert node seen) rest

theorem count_crossings (size : Nat) (seen : Finset Node) (nodes : List Node) :
    (crossings size seen nodes).count true =
      if seen.card < size ∧ size ≤ (seen ∪ nodes.toFinset).card then 1 else 0 := by
  induction nodes generalizing seen with
  | nil =>
      rw [List.toFinset_nil, Finset.union_empty, if_neg (by omega)]
      rfl
  | cons node rest inductionHypothesis =>
      have absorbed : insert node seen ∪ rest.toFinset =
          seen ∪ (node :: rest).toFinset := by
        rw [List.toFinset_cons, Finset.insert_union, Finset.union_insert]
      have grows : (insert node seen).card ≤ (seen ∪ (node :: rest).toFinset).card := by
        rw [← absorbed]
        exact Finset.card_le_card Finset.subset_union_left
      rw [crossings, crosses, List.count_cons, inductionHypothesis, absorbed]
      generalize (seen ∪ (node :: rest).toFinset).card = total at grows ⊢
      by_cases known : node ∈ seen
      · rw [Finset.insert_eq_of_mem known]
        simp [known]
      · rw [Finset.card_insert_of_notMem known] at grows ⊢
        by_cases last : seen.card + 1 = size
        · have reached : seen.card < size ∧ size ≤ total := by
            omega
          simp [known, last, reached]
        · have same : (seen.card + 1 < size ∧ size ≤ total) ↔
              seen.card < size ∧ size ≤ total := by
            omega
          simp [last, same]

end Crossings

end SovereignLattice
