import SovereignLattice.Dkg.MultiDealer
import SovereignLattice.Crypto.SmallCurve

/-!
# The joint key of several dealers

What commitments and shares say of the dealers that are still qualified follows
their last calls of `deal`, whatever else happened.  The sum over all the
commitments also counts dealers that dealt again after they had been disqualified.
-/

namespace SovereignLattice

section JointKey

variable [Curve]

namespace MultiDealerDkg

open Feldman

/-- A dealer's polynomial after one more call. -/
def latestAfter (t dealer : UInt32) (latest : Option (List Scalar)) :
    MultiDealerCall → Option (List Scalar)
  | .deal dealerId random =>
      if dealerId = dealer then some (coefficients t random) else latest
  | .fileComplaint _ => latest
  | .resolveAndDisqualify => latest

/-- The polynomial that a dealer dealt last. -/
def latestPolynomial (t dealer : UInt32) (calls : List MultiDealerCall) :
    Option (List Scalar) :=
  calls.foldl (latestAfter t dealer) none

/-- A dealer's latest polynomial, the empty one where it has not dealt. -/
def latest (t : UInt32) (calls : List MultiDealerCall) (dealer : UInt32) :
    List Scalar :=
  (latestPolynomial t dealer calls).getD []

def dealerOf : MultiDealerCall → Option UInt32
  | .deal dealerId _ => some dealerId
  | .fileComplaint _ => none
  | .resolveAndDisqualify => none

/-- The dealers that have dealt and are not disqualified. -/
def qualified (calls : List MultiDealerCall) (dkg : MultiDealerDkg) :
    Finset UInt32 :=
  (calls.filterMap dealerOf).toFinset.filter (· ∉ dkg.disqualified)

/-- The value at a recipient of the polynomial with the given coefficients. -/
def valueAt (coeffs : List Scalar) (recipient : UInt32) : Scalar :=
  ∑ k : Fin coeffs.length, coeffs.get k * (recipient.toNat : Scalar) ^ (k : Nat)

/-- The sum of the `C_0` over the commitments. -/
def groupKey (dkg : MultiDealerDkg) : G2Projective :=
  (dkg.commitments.entries.map fun entry => entry.2.commitments.headD 0).sum

/-- The part of the group key that belongs to disqualified dealers. -/
def strayKey (dkg : MultiDealerDkg) : G2Projective :=
  ((dkg.commitments.entries.filter fun entry => entry.1 ∈ dkg.disqualified).map
    fun entry => entry.2.commitments.headD 0).sum

/-- A recipient's final share is the sum of the values of the latest polynomials of
the qualified dealers, and there is none exactly when there are no such dealers. -/
def FinalSharesMatch (n t : UInt32) (calls : List MultiDealerCall)
    (dkg : MultiDealerDkg) : Prop :=
  ∀ r, 1 ≤ r → r ≤ n →
    dkg.finalShare r =
      if qualified calls dkg = ∅ then
        none
      else
        some (∑ dealer ∈ qualified calls dkg, valueAt (latest t calls dealer) r)

/-- Any `t` final shares interpolate to the secret of the group key. -/
def GroupKeyMatches (n t : UInt32) (dkg : MultiDealerDkg) : Prop :=
  ∀ (chosen : Finset UInt32) (share : UInt32 → Scalar),
    chosen.card = t.toNat →
      (∀ r ∈ chosen, 1 ≤ r ∧ r ≤ n ∧ dkg.finalShare r = some (share r)) →
        dkg.groupKey =
          (∑ r ∈ chosen, weightAtZero chosen point r * share r) • Curve.g2Generator

/-- Nobody deals after having been disqualified. -/
def DealsQualified (dkg : MultiDealerDkg) : MultiDealerCall → Prop
  | .deal dealerId _ => dealerId ∉ dkg.disqualified
  | .fileComplaint _ => True
  | .resolveAndDisqualify => True

instance decidableDealsQualified (dkg : MultiDealerDkg) :
    ∀ call, Decidable (dkg.DealsQualified call)
  | .deal dealerId _ => inferInstanceAs (Decidable (dealerId ∉ dkg.disqualified))
  | .fileComplaint _ => inferInstanceAs (Decidable True)
  | .resolveAndDisqualify => inferInstanceAs (Decidable True)

/-! ## What the state says of the qualified dealers -/

theorem latestPolynomial_concat (t dealer : UInt32) (calls : List MultiDealerCall)
    (call : MultiDealerCall) :
    latestPolynomial t dealer (calls ++ [call]) =
      latestAfter t dealer (latestPolynomial t dealer calls) call := by
  rw [latestPolynomial, List.foldl_append]
  rfl

/-- A dealer has a latest polynomial when it has dealt. -/
theorem isSome_latestPolynomial (t dealer : UInt32) (calls : List MultiDealerCall) :
    (latestPolynomial t dealer calls).isSome ↔ dealer ∈ calls.filterMap dealerOf := by
  induction calls using List.reverseRecOn with
  | nil => simp [latestPolynomial]
  | append_singleton earlier call inductionHypothesis =>
      rw [latestPolynomial_concat, List.filterMap_append, List.mem_append,
        ← inductionHypothesis]
      cases call with
      | deal dealerId random =>
          by_cases same : dealerId = dealer
          · simp [latestAfter, dealerOf, same]
          · simp [latestAfter, dealerOf, same, Ne.symm same]
      | fileComplaint complaint => simp [latestAfter, dealerOf]
      | resolveAndDisqualify => simp [latestAfter, dealerOf]

theorem mem_qualified {calls : List MultiDealerCall} {dkg : MultiDealerDkg}
    {dealer : UInt32} (t : UInt32) :
    dealer ∈ qualified calls dkg ↔
      (latestPolynomial t dealer calls).isSome ∧ dealer ∉ dkg.disqualified := by
  rw [qualified, Finset.mem_filter, List.mem_toFinset, isSome_latestPolynomial]

/-- The commitments and the shares of the qualified dealers are those of their
latest polynomials. -/
structure Represents (n t : UInt32) (calls : List MultiDealerCall)
    (dkg : MultiDealerDkg) : Prop where
  n_eq : dkg.n = n
  t_eq : dkg.t = t
  commitments : ∀ dealer, dealer ∉ dkg.disqualified →
    dkg.commitments.get? dealer =
      (latestPolynomial t dealer calls).map fun coeffs =>
        ⟨dealer, coeffs.map fun a => a • Curve.g2Generator⟩
  shares : ∀ dealer r, dealer ∉ dkg.disqualified →
    dkg.shares.get? (dealer, r) =
      if r ∈ recipients n then
        (latestPolynomial t dealer calls).map (powerSum (point r))
      else
        none

namespace Represents

variable {n t : UInt32} {calls : List MultiDealerCall} {dkg next : MultiDealerDkg}

theorem new (n t : UInt32) : Represents n t [] (MultiDealerDkg.new n t) where
  n_eq := rfl
  t_eq := rfl
  commitments _ _ := rfl
  shares _ _ _ := (ite_self _).symm

theorem deal (represents : Represents n t calls dkg) (dealerId : UInt32)
    (random : Nat → Scalar) :
    Represents n t (calls ++ [.deal dealerId random])
      (dkg.deal dealerId random).2 where
  n_eq := represents.n_eq
  t_eq := represents.t_eq
  commitments dealer allowed := by
    rw [get?_commitments_deal, latestPolynomial_concat, latestAfter, represents.t_eq]
    by_cases same : dealer = dealerId
    · subst same
      rw [if_pos rfl, if_pos rfl]
      rfl
    · rw [if_neg same, if_neg (Ne.symm same)]
      exact represents.commitments dealer allowed
  shares dealer r allowed := by
    rw [get?_shares_deal, latestPolynomial_concat, latestAfter, represents.t_eq,
      represents.n_eq]
    by_cases same : dealer = dealerId
    · subst same
      by_cases listed : r ∈ recipients n
      · simp [listed]
      · rw [if_neg fun both => listed both.2, if_neg listed]
        exact (represents.shares dealer r allowed).trans (if_neg listed)
    · rw [if_neg fun both => same both.1, if_neg (Ne.symm same)]
      exact represents.shares dealer r allowed

/-- What a resolution leaves of the qualified dealers is unchanged. -/
theorem removes {out : UInt32 → Prop} (represents : Represents n t calls dkg)
    (removes : Removes dkg next out) : Represents n t calls next where
  n_eq := removes.n.trans represents.n_eq
  t_eq := removes.t.trans represents.t_eq
  commitments dealer allowed := by
    rw [removes.disqualified, not_or] at allowed
    rw [removes.commitments_kept dealer allowed.2]
    exact represents.commitments dealer allowed.1
  shares dealer r allowed := by
    rw [removes.disqualified, not_or] at allowed
    rw [removes.shares_kept dealer r allowed.2]
    exact represents.shares dealer r allowed.1

/-- A call that is not of `deal` leaves the latest polynomials alone. -/
theorem concat (represents : Represents n t calls dkg) (call : MultiDealerCall)
    (other : ∀ dealer latest, latestAfter t dealer latest call = latest) :
    Represents n t (calls ++ [call]) dkg where
  n_eq := represents.n_eq
  t_eq := represents.t_eq
  commitments dealer allowed := by
    rw [latestPolynomial_concat, other]
    exact represents.commitments dealer allowed
  shares dealer r allowed := by
    rw [latestPolynomial_concat, other]
    exact represents.shares dealer r allowed

theorem of_run (reached : run step (MultiDealerDkg.new n t) calls = some dkg) :
    Represents n t calls dkg := by
  refine invariant_of_history ?_ (Represents.new n t) reached
  intro earlier state call after represents stepped
  rcases step_cases stepped with
    ⟨dealerId, random, rfl, rfl⟩ | ⟨complaint, rfl, rfl⟩ | ⟨rfl, _, removes⟩
  · exact represents.deal dealerId random
  · have later := represents.concat (.fileComplaint complaint) fun _ _ => rfl
    exact ⟨later.n_eq, later.t_eq, later.commitments, later.shares⟩
  · exact (represents.removes removes).concat .resolveAndDisqualify fun _ _ => rfl

end Represents

/-! ## Final shares -/

section FinalShares

variable {n t : UInt32} {calls : List MultiDealerCall} {dkg : MultiDealerDkg}

theorem latestPolynomial_eq {dealer : UInt32}
    (member : dealer ∈ qualified calls dkg) :
    latestPolynomial t dealer calls = some (latest t calls dealer) := by
  rcases Option.isSome_iff_exists.mp ((mem_qualified t).mp member).1 with
    ⟨coeffs, dealt⟩
  rw [latest, dealt]
  rfl

/-- The shares that `final_share` adds up are one from each qualified dealer. -/
theorem countedKeys_eq (represents : Represents n t calls dkg) {r : UInt32}
    (listed : r ∈ recipients n) :
    dkg.countedKeys r = (qualified calls dkg).image fun dealer => (dealer, r) := by
  ext key
  rcases key with ⟨dealer, recipient⟩
  rw [countedKeys, Finset.mem_filter, AssocMap.mem_keySet, AssocMap.mem_keys_iff,
    Finset.mem_image]
  constructor
  · intro stored
    rcases stored with ⟨⟨share, found⟩, rfl, allowed⟩
    rw [represents.shares dealer recipient allowed, if_pos listed,
      Option.map_eq_some_iff] at found
    rcases found with ⟨coeffs, dealt, _⟩
    exact ⟨dealer, (mem_qualified t).mpr ⟨by rw [dealt]; rfl, allowed⟩, rfl⟩
  · intro image
    rcases image with ⟨other, member, same⟩
    rcases Prod.mk.inj same with ⟨rfl, rfl⟩
    have allowed := ((mem_qualified t).mp member).2
    refine ⟨⟨powerSum (point r) (latest t calls other), ?_⟩, rfl, allowed⟩
    rw [represents.shares other r allowed, if_pos listed, latestPolynomial_eq member]
    rfl

/-- The final share of a recipient: one value for each qualified dealer. -/
theorem finalShare_eq (represents : Represents n t calls dkg) {r : UInt32}
    (listed : r ∈ recipients n) :
    dkg.finalShare r =
      if qualified calls dkg = ∅ then
        none
      else
        some (∑ dealer ∈ qualified calls dkg,
          powerSum (point r) (latest t calls dealer)) := by
  have summands : ∑ key ∈ dkg.countedKeys r, dkg.shares.getD key 0 =
      ∑ dealer ∈ qualified calls dkg, powerSum (point r) (latest t calls dealer) := by
    rw [countedKeys_eq represents listed,
      Finset.sum_image fun _ _ _ _ same => (Prod.mk.inj same).1]
    apply Finset.sum_congr rfl
    intro dealer member
    apply AssocMap.getD_of_get?
    rw [represents.shares dealer r ((mem_qualified t).mp member).2, if_pos listed,
      latestPolynomial_eq member]
    rfl
  have somebody : (dkg.countedKeys r).Nonempty ↔ ¬ qualified calls dkg = ∅ := by
    rw [countedKeys_eq represents listed, Finset.image_nonempty,
      Finset.nonempty_iff_ne_empty]
  rw [finalShare_eq_sum, summands]
  by_cases nobody : qualified calls dkg = ∅
  · rw [if_pos nobody, if_neg fun found => somebody.mp found nobody]
  · rw [if_neg nobody, if_pos (somebody.mpr nobody)]

theorem powerSum_point (coeffs : List Scalar) (r : UInt32) :
    powerSum (point r) coeffs = valueAt coeffs r := by
  rw [powerSum_eq_sum, valueAt]
  apply Finset.sum_congr rfl
  intro k _
  rw [smul_eq_mul, mul_comm, point, List.get_eq_getElem]
  rfl

theorem finalSharesMatch (represents : Represents n t calls dkg) :
    FinalSharesMatch n t calls dkg := by
  intro r positive atMost
  rw [finalShare_eq represents (mem_recipients.mpr ⟨positive, atMost⟩)]
  simp only [powerSum_point]

/-! ## The group key -/

theorem headD_commitments (coeffs : List Scalar) :
    (coeffs.map fun a => a • Curve.g2Generator).headD 0 =
      powerSum (0 : Scalar) coeffs • Curve.g2Generator := by
  cases coeffs with
  | nil => simp
  | cons a rest => rw [powerSum_zero_cons, List.map_cons, List.headD_cons]

/-- The commitments in the map that are not stray are those of the qualified
dealers. -/
theorem filter_keySet_commitments (represents : Represents n t calls dkg) :
    (dkg.commitments.keySet.filter fun dealer => dealer ∉ dkg.disqualified) =
      qualified calls dkg := by
  ext dealer
  rw [Finset.mem_filter, AssocMap.mem_keySet, AssocMap.mem_keys_iff,
    mem_qualified t]
  refine and_congr_left fun allowed => ?_
  rw [represents.commitments dealer allowed, ← Option.isSome_iff_exists,
    Option.isSome_map]

/-- The commitment to a dealer's constant term, as `group_key` reads it. -/
def constantTerm (dkg : MultiDealerDkg) (dealer : UInt32) : G2Projective :=
  (dkg.commitments.getD dealer ⟨0, []⟩).commitments.headD 0

/-- The group key is the sum of the constant terms of the qualified dealers, in the
exponent, and of the stray commitments. -/
theorem groupKey_eq (represents : Represents n t calls dkg) :
    dkg.groupKey =
      ∑ dealer ∈ qualified calls dkg,
          powerSum (0 : Scalar) (latest t calls dealer) • Curve.g2Generator +
        dkg.strayKey := by
  have all : dkg.groupKey =
      ∑ dealer ∈ dkg.commitments.keySet, dkg.constantTerm dealer :=
    sum_entries dkg.commitments ⟨0, []⟩ fun _ stored => stored.commitments.headD 0
  have stray := sum_entries_filter dkg.commitments ⟨0, []⟩
    (fun dealer => decide (dealer ∈ dkg.disqualified))
    fun _ stored => stored.commitments.headD 0
  simp only [decide_eq_true_eq] at stray
  have constants : ∀ dealer ∈ qualified calls dkg, dkg.constantTerm dealer =
      powerSum (0 : Scalar) (latest t calls dealer) • Curve.g2Generator := by
    intro dealer member
    have stored : dkg.commitments.get? dealer =
        some ⟨dealer, (latest t calls dealer).map fun a => a • Curve.g2Generator⟩ := by
      rw [represents.commitments dealer ((mem_qualified t).mp member).2,
        latestPolynomial_eq member]
      rfl
    rw [← headD_commitments]
    exact congrArg (fun found => found.commitments.headD 0)
      (AssocMap.getD_of_get? ⟨0, []⟩ stored)
  rw [all, strayKey, stray, ← Finset.sum_congr rfl constants,
    ← filter_keySet_commitments represents, add_comm]
  exact (Finset.sum_filter_add_sum_filter_not _ _ _).symm

theorem length_latest_le (t : UInt32) (calls : List MultiDealerCall)
    (dealer : UInt32) : (latest t calls dealer).length ≤ t.toNat := by
  induction calls using List.reverseRecOn with
  | nil => exact Nat.zero_le _
  | append_singleton earlier call inductionHypothesis =>
      rw [latest, latestPolynomial_concat]
      cases call with
      | deal dealerId random =>
          rw [latestAfter]
          by_cases same : dealerId = dealer
          · rw [if_pos same, Option.getD_some, length_coefficients]
          · rw [if_neg same]
            exact inductionHypothesis
      | fileComplaint complaint => exact inductionHypothesis
      | resolveAndDisqualify => exact inductionHypothesis

/-- Interpolating final shares of `t` recipients gives the sum of the secrets of the
qualified dealers. -/
theorem interpolate_finalShares (represents : Represents n t calls dkg)
    (order : n.toNat < Curve.order) {chosen : Finset UInt32}
    {share : UInt32 → Scalar} (card : chosen.card = t.toNat)
    (shares : ∀ r ∈ chosen, 1 ≤ r ∧ r ≤ n ∧ dkg.finalShare r = some (share r)) :
    (∑ r ∈ chosen, weightAtZero chosen point r * share r) • Curve.g2Generator =
      ∑ dealer ∈ qualified calls dkg,
        powerSum (0 : Scalar) (latest t calls dealer) • Curve.g2Generator := by
  have values : ∀ r ∈ chosen, share r =
      ∑ dealer ∈ qualified calls dkg, powerSum (point r) (latest t calls dealer) := by
    intro r member
    rcases shares r member with ⟨positive, atMost, found⟩
    rw [finalShare_eq represents (mem_recipients.mpr ⟨positive, atMost⟩),
      Option.ite_none_left_eq_some, Option.some.injEq] at found
    exact found.2.symm
  have distinct : Set.InjOn point (chosen : Set UInt32) :=
    (point_injOn order).mono fun r member => (shares r member).2.1
  calc
    (∑ r ∈ chosen, weightAtZero chosen point r * share r) • Curve.g2Generator =
        ∑ r ∈ chosen, ∑ dealer ∈ qualified calls dkg,
          weightAtZero chosen point r •
            (powerSum (point r) (latest t calls dealer) • Curve.g2Generator) := by
      rw [Finset.sum_smul]
      apply Finset.sum_congr rfl
      intro r member
      rw [values r member, Finset.mul_sum, Finset.sum_smul]
      simp only [mul_smul]
    _ = ∑ dealer ∈ qualified calls dkg, ∑ r ∈ chosen,
          weightAtZero chosen point r •
            (powerSum (point r) (latest t calls dealer) • Curve.g2Generator) :=
      Finset.sum_comm
    _ = _ := by
      apply Finset.sum_congr rfl
      intro dealer _
      exact sum_weightAtZero_smul distinct
        (card ▸ length_latest_le t calls dealer) Curve.g2Generator

/-- The group key belongs to the final shares exactly when the stray commitments
cancel out, or nobody is qualified and there are no final shares. -/
theorem groupKeyMatches_iff (represents : Represents n t calls dkg)
    (order : n.toNat < Curve.order) (positive : 1 ≤ t) (atMost : t ≤ n) :
    GroupKeyMatches n t dkg ↔ qualified calls dkg = ∅ ∨ dkg.strayKey = 0 := by
  constructor
  · intro matching
    by_cases nobody : qualified calls dkg = ∅
    · exact Or.inl nobody
    right
    have shares : ∀ r ∈ (recipients t).toFinset,
        1 ≤ r ∧ r ≤ n ∧ dkg.finalShare r = some (∑ dealer ∈ qualified calls dkg,
          powerSum (point r) (latest t calls dealer)) := by
      intro r member
      have range := mem_recipients.mp (List.mem_toFinset.mp member)
      have below : r ≤ n := UInt32.le_trans range.2 atMost
      refine ⟨range.1, below, ?_⟩
      rw [finalShare_eq represents (mem_recipients.mpr ⟨range.1, below⟩),
        if_neg nobody]
    have interpolated :=
      interpolate_finalShares represents order (card_recipients t) shares
    have key := matching _ _ (card_recipients t) shares
    rw [interpolated, groupKey_eq represents] at key
    exact add_eq_left.mp key
  · intro either chosen share card shares
    rcases either with nobody | cancels
    · have nonempty : chosen.Nonempty := by
        rw [← Finset.card_pos, card]
        exact UInt32.le_iff_toNat_le.mp positive
      rcases nonempty with ⟨r, member⟩
      rcases shares r member with ⟨first, last, found⟩
      rw [finalShare_eq represents (mem_recipients.mpr ⟨first, last⟩),
        if_pos nobody] at found
      cases found
    · rw [interpolate_finalShares represents order card shares,
        groupKey_eq represents, cancels, add_zero]

end FinalShares

/-! ## Runs in which only qualified dealers deal -/

/-- Nothing is stored for a disqualified dealer. -/
def NoStray (dkg : MultiDealerDkg) : Prop :=
  ∀ dealer ∈ dkg.disqualified, dkg.commitments.get? dealer = none

theorem noStray_step {dkg next : MultiDealerDkg} {call : MultiDealerCall}
    (clean : dkg.NoStray) (qualified : dkg.DealsQualified call)
    (stepped : dkg.step call = some next) : next.NoStray := by
  intro dealer out
  rcases step_cases stepped with
    ⟨dealerId, random, rfl, rfl⟩ | ⟨complaint, rfl, rfl⟩ | ⟨rfl, _, removes⟩
  · have different : dealer ≠ dealerId := fun same => qualified (same ▸ out)
    rw [get?_commitments_deal, if_neg different]
    exact clean dealer out
  · exact clean dealer out
  · by_cases struck : dkg.t.toNat < countAgainst dkg.complaints dealer
    · exact removes.commitments_out dealer struck
    · rw [removes.commitments_kept dealer struck]
      exact clean dealer (((removes.disqualified dealer).mp out).resolve_right struck)

theorem strayKey_of_noStray {dkg : MultiDealerDkg} (clean : dkg.NoStray) :
    dkg.strayKey = 0 := by
  have nothing :
      (dkg.commitments.entries.filter fun entry => entry.1 ∈ dkg.disqualified) =
        [] := by
    rw [List.filter_eq_nil_iff]
    rintro ⟨dealer, stored⟩ member out
    have found : dkg.commitments.get? dealer = some stored :=
      AList.mem_lookup_iff.mpr member
    rw [clean dealer (of_decide_eq_true out)] at found
    cases found
  rw [strayKey, nothing]
  rfl

/-- Final shares follow the qualified dealers in every run.  The group key does where
no stray commitments remain in it, as in every run in which nobody deals after having
been disqualified. -/
theorem joint_key_exact (n t : UInt32) (positive : 1 ≤ t) (atMost : t ≤ n)
    (order : n.toNat < Curve.order) (calls : List MultiDealerCall)
    (dkg : MultiDealerDkg) (reached : run step (new n t) calls = some dkg) :
    FinalSharesMatch n t calls dkg ∧
      (GroupKeyMatches n t dkg ↔ qualified calls dkg = ∅ ∨ dkg.strayKey = 0) ∧
      (Along step DealsQualified (new n t) calls → GroupKeyMatches n t dkg) := by
  have represents : Represents n t calls dkg := Represents.of_run reached
  have exactly := groupKeyMatches_iff represents order positive atMost
  refine ⟨finalSharesMatch represents, exactly, ?_⟩
  intro along
  have initially : (new n t).NoStray := fun _ out =>
    absurd out (Finset.notMem_empty _)
  have clean : dkg.NoStray :=
    invariant_of_along (fun _ _ _ => noStray_step) initially along reached
  exact exactly.mpr (Or.inr (strayKey_of_noStray clean))

end MultiDealerDkg

end JointKey

section SmallDealers

attribute [local instance] smallCurve

namespace MultiDealerDkg

def complain (fromParty against : UInt32) : MultiDealerCall :=
  .fileComplaint ⟨fromParty, against, ⟨fromParty, 0⟩⟩

/-- The dealers 1 and 2 deal `5 + 7 x` and `11 + 14 x`, and three parties have the
second one disqualified. -/
def secondDisqualified : List MultiDealerCall :=
  [.deal 1 fun k => ((5 + 2 * k : Nat) : Scalar),
    .deal 2 fun k => ((11 + 3 * k : Nat) : Scalar),
    complain 1 2, complain 3 2, complain 4 2, .resolveAndDisqualify]

/-- The second dealer deals `20 + 21 x` after that. -/
def secondDealsAgain : List MultiDealerCall :=
  secondDisqualified ++ [.deal 2 fun k => ((20 + k : Nat) : Scalar)]

theorem joint_key_exact_second_disqualified :
    ∃ dkg, run step (new 4 2) secondDisqualified = some dkg ∧
      GroupKeyMatches 4 2 dkg ∧
      dkg.finalShare 3 = some ((26 : Nat) : Scalar) := by
  have runs : (run step (new 4 2) secondDisqualified).isSome = true := by
    decide +kernel
  rcases Option.isSome_iff_exists.mp runs with ⟨dkg, reached⟩
  have exactly := joint_key_exact 4 2 (by decide) (by decide) (by decide)
    secondDisqualified dkg reached
  have along : Along step DealsQualified (new 4 2) secondDisqualified := by
    have checked : checkAlong step (fun dkg call => decide (dkg.DealsQualified call))
        (new 4 2) secondDisqualified = true := by
      decide +kernel
    exact along_of_checkAlong (fun _ _ => of_decide_eq_true) checked
  have share : (run step (new 4 2) secondDisqualified).bind (finalShare · 3) =
      some ((26 : Nat) : Scalar) := by
    decide +kernel
  rw [reached] at share
  exact ⟨dkg, reached, exactly.2.2 along, share⟩

/-- The group key and the final shares of two recipients. -/
def keyAndShares (dkg : MultiDealerDkg) :
    G2Projective × Option Scalar × Option Scalar :=
  (dkg.groupKey, dkg.finalShare 1, dkg.finalShare 2)

/-- The shares 12 and 19 of the recipients 1 and 2. -/
def twoShares (r : UInt32) : Scalar :=
  if r = 1 then (12 : Nat) else (19 : Nat)

/-- The constant term 20 of a disqualified dealer is in the group key, and no final
share knows of it. -/
theorem joint_key_counts_disqualified :
    ∃ dkg, run step (new 4 2) secondDealsAgain = some dkg ∧
      ¬ GroupKeyMatches 4 2 dkg := by
  have evaluated : (run step (new 4 2) secondDealsAgain).map keyAndShares =
      some (((25 : Nat) : Scalar), some ((12 : Nat) : Scalar),
        some ((19 : Nat) : Scalar)) := by
    decide +kernel
  rcases Option.map_eq_some_iff.mp evaluated with ⟨dkg, reached, values⟩
  rcases Prod.mk.inj values with ⟨key, shares⟩
  rcases Prod.mk.inj shares with ⟨first, second⟩
  refine ⟨dkg, reached, ?_⟩
  intro matching
  have same := matching {1, 2} twoShares rfl (by
    intro r member
    rcases Finset.mem_insert.mp member with rfl | other
    · exact ⟨by decide, by decide, first⟩
    · rw [Finset.mem_singleton.mp other]
      exact ⟨by decide, by decide, second⟩)
  rw [key] at same
  revert same
  decide +kernel

end MultiDealerDkg

end SmallDealers

end SovereignLattice
