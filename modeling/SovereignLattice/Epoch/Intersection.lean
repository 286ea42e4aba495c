import SovereignLattice.Epoch.Manager
import SovereignLattice.Foundations.Quorums

/-!
# Intersecting quorums in every epoch

The threshold is computed from `total_power`, the signers are counted, and nothing
ties the two together in the set that a transition installs.  Quorums intersect
enough exactly when the power is not too small for the number of validators.
-/

namespace SovereignLattice
namespace ValidatorSet

/-- The threshold can be computed, and any two accepted signer sets share more
than a third of the others of a validator. -/
structure QuorumsIntersect (set : ValidatorSet) : Prop where
  threshold : set.quorumThreshold.isSome
  overlap : ∀ (left right : Finset UInt32) (leftQc rightQc : QuorumCertificate),
    set.verifyQuorum left leftQc = .ok () →
      set.verifyQuorum right rightQc = .ok () →
        (set.validators.len - 1) / 3 < (left ∩ right).card

/-- The power does not overflow and is at least the number of validators, or one
less where that makes no difference. -/
def PowerFits (set : ValidatorSet) : Prop :=
  set.totalPower.toNat < 2 ^ 63 ∧
    (set.validators.len ≤ set.totalPower.toNat ∨
      (set.validators.len = set.totalPower.toNat + 1 ∧
        set.validators.len % 3 ≠ 2))

instance (set : ValidatorSet) : Decidable set.PowerFits :=
  inferInstanceAs (Decidable (_ ∧ _))

theorem quorumThreshold_of_lt {set : ValidatorSet}
    (small : set.totalPower.toNat < 2 ^ 63) :
    ∃ threshold, set.quorumThreshold = some threshold ∧
      threshold.toNat = set.totalPower.toNat * 2 / 3 + 1 := by
  obtain ⟨doubled, multiplied, product⟩ :=
    @Checked.mul_eq_some set.totalPower 2 _ 2 rfl rfl (by omega)
  have third : (doubled / 3).toNat = set.totalPower.toNat * 2 / 3 := by
    rw [UInt64.toNat_div, product]
    rfl
  obtain ⟨threshold, added, sum⟩ :=
    @Checked.add_eq_some (doubled / 3) 1 _ 1 third rfl (by omega)
  refine ⟨threshold, ?_, sum⟩
  rw [quorumThreshold, multiplied]
  exact added

theorem quorumThreshold_eq_none {set : ValidatorSet}
    (large : 2 ^ 63 ≤ set.totalPower.toNat) : set.quorumThreshold = none := by
  have overflows : 2 ^ 64 ≤ set.totalPower.toNat * (2 : UInt64).toNat := by
    show 2 ^ 64 ≤ set.totalPower.toNat * 2
    omega
  rw [quorumThreshold, Checked.mul_eq_none overflows]
  rfl

theorem verifyQuorum_ok_iff {set : ValidatorSet} {signers : Finset UInt32}
    {qc : QuorumCertificate} :
    set.verifyQuorum signers qc = .ok () ↔
      set.totalPower.toNat < 2 ^ 63 ∧ signers ⊆ set.validators.keySet ∧
        set.totalPower.toNat * 2 / 3 < signers.card := by
  rw [verifyQuorum]
  by_cases known : signers ⊆ set.validators.keySet
  · rw [if_neg (not_not.mpr known)]
    by_cases small : set.totalPower.toNat < 2 ^ 63
    · obtain ⟨threshold, computed, value⟩ := quorumThreshold_of_lt small
      rw [computed]
      dsimp only
      by_cases few : signers.card < threshold.toNat
      · rw [if_pos few]
        refine iff_of_false nofun ?_
        rintro ⟨_, _, enough⟩
        omega
      · rw [if_neg few]
        exact iff_of_true rfl ⟨small, known, by omega⟩
    · rw [quorumThreshold_eq_none (Nat.not_lt.mp small)]
      exact iff_of_false nofun fun both => small both.1
  · rw [if_pos known]
    exact iff_of_false nofun fun both => known both.2.1

/-- The condition on the power is exact. -/
theorem quorumsIntersect_iff (set : ValidatorSet) :
    set.QuorumsIntersect ↔ set.PowerFits := by
  by_cases small : set.totalPower.toNat < 2 ^ 63
  · have size : set.validators.keySet.card = set.validators.len :=
      AssocMap.card_keySet _
    constructor
    · intro intersect
      refine ⟨small, ?_⟩
      by_cases fits : set.totalPower.toNat * 2 / 3 + 1 ≤ set.validators.keySet.card
      · obtain ⟨left, leftMembers, right, rightMembers, leftSize, rightSize,
          shared⟩ := exists_card_inter_eq fits
        have overlap := intersect.overlap left right [] []
          (verifyQuorum_ok_iff.mpr ⟨small, leftMembers, leftSize.ge⟩)
          (verifyQuorum_ok_iff.mpr ⟨small, rightMembers, rightSize.ge⟩)
        omega
      · omega
    · intro power
      obtain ⟨_, computed, _⟩ := quorumThreshold_of_lt small
      refine ⟨by rw [computed]; rfl, ?_⟩
      intro left right leftQc rightQc leftAccepted rightAccepted
      rcases verifyQuorum_ok_iff.mp leftAccepted with
        ⟨_, leftMembers, leftQuorum⟩
      rcases verifyQuorum_ok_iff.mp rightAccepted with
        ⟨_, rightMembers, rightQuorum⟩
      have overlap := card_add_card_le_card_inter leftMembers rightMembers
      rcases power.2 with enough | ⟨oneLess, residue⟩
      · omega
      · have shape : set.validators.len = 3 * (set.validators.len / 3) ∨
            set.validators.len = 3 * (set.validators.len / 3) + 1 := by
          omega
        rcases shape with shape | shape <;> omega
  · constructor
    · intro intersect
      have computed := intersect.threshold
      rw [quorumThreshold_eq_none (Nat.not_lt.mp small)] at computed
      cases computed
    · intro power
      exact absurd power.1 small

end ValidatorSet

namespace EpochManager

/-- The transition is for the current epoch, and more than two thirds of the
power are distinct validators that signed it. -/
def CarriesQuorum (manager : EpochManager) (transition : EpochTransition) : Prop :=
  transition.currentEpoch = manager.currentState.epochId ∧
    transition.signers ⊆ manager.currentState.validators.keySet ∧
      manager.currentState.totalPower.toNat * 2 / 3 < transition.signers.card

/-- A set that is installed has no validators, or a power that fits them. -/
def InstallsFitting (manager : EpochManager) (transition : EpochTransition) :
    Prop :=
  manager.CarriesQuorum transition →
    1 ≤ transition.nextValidatorSet.validators.len →
      transition.nextValidatorSet.PowerFits

/-- In every state reached, quorums intersect if there are validators. -/
def QuorumsIntersectAlong (manager : EpochManager)
    (transitions : List EpochTransition) : Prop :=
  ∀ before later, before <+: transitions →
    run step manager before = some later →
      1 ≤ later.currentState.validators.len →
        later.currentState.QuorumsIntersect

theorem accepts_iff {manager : EpochManager} {transition : EpochTransition} :
    manager.Accepts transition ↔
      manager.currentState.totalPower.toNat < 2 ^ 63 ∧
        manager.CarriesQuorum transition := by
  rw [Accepts, ValidatorSet.verifyQuorum_ok_iff, CarriesQuorum]
  exact and_left_comm

theorem powerFits_applyTransition {manager : EpochManager}
    {transition : EpochTransition}
    (fits : 1 ≤ manager.currentState.validators.len →
      manager.currentState.PowerFits)
    (installs : manager.InstallsFitting transition) :
    1 ≤ (manager.applyTransition transition).2.currentState.validators.len →
      (manager.applyTransition transition).2.currentState.PowerFits := by
  by_cases accepted : manager.Accepts transition
  · rw [applyTransition_of_accepts accepted]
    exact installs (accepts_iff.mp accepted).2
  · rw [applyTransition_of_not_accepts accepted]
    exact fits

theorem installsFitting_of_quorumsIntersect {manager : EpochManager}
    {transition : EpochTransition}
    (here : 1 ≤ manager.currentState.validators.len →
      manager.currentState.QuorumsIntersect)
    (next : 1 ≤ (manager.applyTransition transition).2.currentState.validators.len →
      (manager.applyTransition transition).2.currentState.QuorumsIntersect) :
    manager.InstallsFitting transition := by
  intro carries nonempty
  have validators : 1 ≤ manager.currentState.validators.len := by
    have members := Finset.card_le_card carries.2.1
    rw [AssocMap.card_keySet] at members
    have enough := carries.2.2
    omega
  have current : manager.currentState.PowerFits :=
    (ValidatorSet.quorumsIntersect_iff _).mp (here validators)
  have accepted : manager.Accepts transition :=
    accepts_iff.mpr ⟨current.1, carries⟩
  rw [applyTransition_of_accepts accepted] at next
  exact (ValidatorSet.quorumsIntersect_iff _).mp (next nonempty)

/-- A set that is not empty has a fitting power. -/
def HoldsFitting (manager : EpochManager) : Prop :=
  1 ≤ manager.currentState.validators.len → manager.currentState.PowerFits

/-- From a set whose power is its number of validators, quorums intersect in every
reachable set exactly when all installed sets fit. -/
theorem quorumsIntersectAlong_iff {manager : EpochManager}
    {transitions : List EpochTransition}
    (power : manager.currentState.totalPower.toNat =
      manager.currentState.validators.len) :
    manager.QuorumsIntersectAlong transitions ↔
      Along step InstallsFitting manager transitions := by
  constructor
  · intro intersect
    rw [along_iff]
    intro earlier transition rest state placed reached
    subst placed
    apply installsFitting_of_quorumsIntersect
    · exact intersect earlier state (List.prefix_append _ _) reached
    · apply intersect (earlier ++ [transition])
      · exact ⟨rest, List.append_assoc _ _ _⟩
      · exact run_append_eq_some.mpr ⟨state, reached, rfl⟩
  · rintro installs before later ⟨rest, rfl⟩ reached
    have initially : HoldsFitting manager := by
      intro _
      have few := manager.currentState.validators.len_le_two_pow
      exact ⟨by omega, Or.inl power.ge⟩
    have preserved : ∀ state transition next, HoldsFitting state →
        InstallsFitting state transition → step state transition = some next →
          HoldsFitting next := by
      intro state transition next before allowed stepped
      cases stepped
      exact powerFits_applyTransition before allowed
    intro nonempty
    apply (ValidatorSet.quorumsIntersect_iff _).mpr
    exact invariant_of_along preserved initially (along_of_append installs)
      reached nonempty

def sole : EpochManager where
  currentState :=
    { epochId := 1
      validators := (∅ : AssocMap UInt32 BlsPubKey).insert 1 (Vector.replicate 48 0)
      totalPower := 1 }

/-- It hands over to four validators with some power. -/
def toFour (totalPower : UInt64) : EpochTransition where
  currentEpoch := 1
  nextValidatorSet :=
    { epochId := 2
      validators := [1, 2, 3, 4].foldl
        (fun validators id => validators.insert id (Vector.replicate 48 0)) ∅
      totalPower := totalPower }
  transitionQc := []
  signers := {1}

theorem quorumsIntersectAlong_toFour : sole.QuorumsIntersectAlong [toFour 4] := by
  apply (quorumsIntersectAlong_iff (by decide +kernel)).mpr
  exact ⟨fun _ _ => by decide +kernel, fun _ _ => trivial⟩

/-- With power one each of them is a quorum of its own. -/
theorem not_quorumsIntersectAlong_toFour :
    sole.currentState.totalPower.toNat = sole.currentState.validators.len ∧
      1 ≤ sole.currentState.validators.len ∧
        ¬ sole.QuorumsIntersectAlong [toFour 1] := by
  refine ⟨by decide +kernel, by decide +kernel, ?_⟩
  intro intersect
  have four := intersect [toFour 1] _ List.prefix_rfl rfl (by decide +kernel)
  have shared := four.overlap {1} {2} [] [] (by decide +kernel) (by decide +kernel)
  exact absurd shared (by decide +kernel)

end EpochManager
end SovereignLattice
