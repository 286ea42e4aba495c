import SovereignLattice.Crypto.SmallCurve
import SovereignLattice.Crypto.ThresholdBls
import SovereignLattice.Dkg.JointKey

/-!
# The key generation in one call (`feldman_dkg.rs`)

`run_feldman_dkg` lets the parties `1..=n` deal one after the other and hands every
party the sum of its shares.  The joint public key is that of the sum of the
polynomials, so the parties' shares sign for it, and several dealers that deal
separately end with the same shares.
-/

namespace SovereignLattice

section FeldmanRun

variable [Curve]

namespace FeldmanDkg

open MultiDealerDkg

structure DkgCommitment where
  index : UInt32
  /-- `g^{a0}, g^{a1}, …` -/
  commitments : List G2Projective

structure DkgOutput where
  secretShare : Scalar
  publicKey : G2Projective
  verificationPoints : List G2Projective

/-- What all parties have published and sent. -/
structure Dealt where
  allCommits : List DkgCommitment
  /-- The shares by sender and receiver. -/
  allShares : AssocMap (UInt32 × UInt32) Scalar

/-- The body of the first loop, with the numbers that the party draws. -/
def dealParty (n t : UInt32) (random : Nat → Scalar) (dealt : Dealt) (i : UInt32) :
    Dealt :=
  let coeffs := coefficients t random
  { allCommits := dealt.allCommits ++
      [{ index := i, commitments := coeffs.map fun a => a • Curve.g2Generator }]
    allShares := (recipients n).foldl
      (fun shares j => shares.insert (i, j) (powerSum (point j) coeffs))
      dealt.allShares }

def dealAll (n t : UInt32) (random : UInt32 → Nat → Scalar) : Dealt :=
  (recipients n).foldl (fun dealt i => dealParty n t (random i) dealt i)
    { allCommits := [], allShares := ∅ }

/-- The body of the second loop; an index that is out of range ends it with nothing. -/
def output (n : UInt32) (dealt : Dealt) (i : UInt32) : Option DkgOutput := do
  let myShare ← (recipients n).foldlM
    (fun share j => (dealt.allShares.get? (j, i)).map (share + ·)) 0
  let pk ← dealt.allCommits.foldlM
    (fun pk c => c.commitments[0]?.map (pk + ·)) 0
  let verificationPoints ← dealt.allCommits.mapM fun c => c.commitments[0]?
  return { secretShare := myShare, publicKey := pk, verificationPoints }

def runFeldmanDkg (n t : UInt32) (random : UInt32 → Nat → Scalar) :
    Option (List DkgOutput) :=
  (recipients n).mapM (output n (dealAll n t random))

/-! ## The two loops -/

variable {n t : UInt32} {random : UInt32 → Nat → Scalar}

/-- The polynomial of a party. -/
def polynomial (t : UInt32) (random : UInt32 → Nat → Scalar) (i : UInt32) :
    List Scalar :=
  coefficients t (random i)

/-- The sum of the parties' polynomials. -/
def summedPolynomial (n t : UInt32) (random : UInt32 → Nat → Scalar) : List Scalar :=
  pointwiseSum t.toNat ((recipients n).map (polynomial t random))

/-- The polynomial of a party in the group, at its commitments. -/
def commitmentOf (t : UInt32) (random : UInt32 → Nat → Scalar) (i : UInt32) :
    DkgCommitment where
  index := i
  commitments := (polynomial t random i).map fun a => a • Curve.g2Generator

theorem allCommits_dealAll :
    (dealAll n t random).allCommits =
      (recipients n).map (commitmentOf t random) := by
  have collected : ∀ (parties : List UInt32) (start : Dealt),
      (parties.foldl (fun dealt i => dealParty n t (random i) dealt i)
        start).allCommits =
          start.allCommits ++ parties.map (commitmentOf t random) := by
    intro parties
    induction parties with
    | nil => simp
    | cons party rest inductionHypothesis =>
        intro start
        rw [List.foldl_cons, inductionHypothesis, List.map_cons, dealParty,
          List.append_assoc]
        rfl
  exact collected (recipients n) _

theorem get?_allShares_dealAll {sender receiver : UInt32}
    (sends : sender ∈ recipients n) (receives : receiver ∈ recipients n) :
    (dealAll n t random).allShares.get? (sender, receiver) =
      some (powerSum (point receiver) (polynomial t random sender)) := by
  have row : ∀ (dealer : UInt32) (shares : AssocMap (UInt32 × UInt32) Scalar),
      ((recipients n).foldl (fun shares j => shares.insert (dealer, j)
          (powerSum (point j) (polynomial t random dealer))) shares).get?
          (sender, receiver) =
        if sender = dealer then
          some (powerSum (point receiver) (polynomial t random sender))
        else
          shares.get? (sender, receiver) := by
    intro dealer shares
    rw [AssocMap.get?_foldl_insert_row]
    by_cases same : sender = dealer
    · subst same
      rw [if_pos ⟨rfl, receives⟩, if_pos rfl]
    · rw [if_neg fun both => same both.1, if_neg same]
  have rows : ∀ (parties : List UInt32) (start : Dealt),
      (parties.foldl (fun dealt i => dealParty n t (random i) dealt i)
          start).allShares.get? (sender, receiver) =
        if sender ∈ parties then
          some (powerSum (point receiver) (polynomial t random sender))
        else
          start.allShares.get? (sender, receiver) := by
    intro parties
    induction parties with
    | nil => simp
    | cons party rest inductionHypothesis =>
        intro start
        have here := row party start.allShares
        rw [List.foldl_cons, inductionHypothesis]
        by_cases later : sender ∈ rest
        · rw [if_pos later, if_pos (List.mem_cons_of_mem party later)]
        · rw [if_neg later]
          refine here.trans ?_
          by_cases same : sender = party
          · rw [if_pos same, if_pos (same ▸ List.mem_cons_self)]
          · rw [if_neg same, if_neg (by simp [same, later])]
  exact (rows (recipients n) _).trans (if_pos sends)

/-- What a party ends with. -/
def finalOutput (n t : UInt32) (random : UInt32 → Nat → Scalar) (i : UInt32) :
    DkgOutput where
  secretShare := powerSum (point i) (summedPolynomial n t random)
  publicKey := powerSum (0 : Scalar) (summedPolynomial n t random) •
    Curve.g2Generator
  verificationPoints := (recipients n).map fun j =>
    powerSum (0 : Scalar) (polynomial t random j) • Curve.g2Generator

theorem length_polynomial (i : UInt32) :
    (polynomial t random i).length = t.toNat :=
  length_coefficients t (random i)

theorem powerSum_summedPolynomial (x : Scalar) :
    powerSum x (summedPolynomial n t random) =
      ((recipients n).map fun j => powerSum x (polynomial t random j)).sum := by
  have lengths : ∀ items ∈ (recipients n).map (polynomial t random),
      items.length = t.toNat := by
    intro items member
    rcases List.mem_map.mp member with ⟨i, _, rfl⟩
    exact length_polynomial i
  rw [summedPolynomial, powerSum_pointwiseSum x lengths, List.map_map]
  rfl

/-- The first commitment of a party commits to its secret. -/
theorem head_commitments (positive : 1 ≤ t) (i : UInt32) :
    (commitmentOf t random i).commitments[0]? =
      some (powerSum (0 : Scalar) (polynomial t random i) • Curve.g2Generator) := by
  have size : (polynomial t random i).length = t.toNat := length_polynomial i
  have nonempty : 1 ≤ t.toNat := UInt32.le_iff_toNat_le.mp positive
  rw [commitmentOf]
  cases coeffs : polynomial t random i with
  | nil =>
      rw [coeffs, List.length_nil] at size
      omega
  | cons constant rest =>
      rw [powerSum_zero_cons]
      rfl

theorem output_dealAll (positive : 1 ≤ t) {i : UInt32} (party : i ∈ recipients n) :
    output n (dealAll n t random) i = some (finalOutput n t random i) := by
  have received : ∀ j ∈ recipients n, ∀ share : Scalar,
      ((dealAll n t random).allShares.get? (j, i)).map (share + ·) =
        some (share + powerSum (point i) (polynomial t random j)) := by
    intro j sends share
    rw [get?_allShares_dealAll sends party]
    rfl
  have published : ∀ j ∈ recipients n, ∀ pk : G2Projective,
      (commitmentOf t random j).commitments[0]?.map (pk + ·) =
        some (pk + powerSum (0 : Scalar) (polynomial t random j) •
          Curve.g2Generator) := by
    intro j _ pk
    rw [head_commitments positive]
    rfl
  have shares : (recipients n).foldlM (fun share j =>
      ((dealAll n t random).allShares.get? (j, i)).map (share + ·)) 0 =
        some (powerSum (point i) (summedPolynomial n t random)) := by
    rw [foldlM_eq_some received, foldl_add_eq_sum, zero_add,
      powerSum_summedPolynomial]
  have keys : (dealAll n t random).allCommits.foldlM
      (fun pk c => c.commitments[0]?.map (pk + ·)) 0 =
        some (powerSum (0 : Scalar) (summedPolynomial n t random) •
          Curve.g2Generator) := by
    rw [allCommits_dealAll, List.foldlM_map, foldlM_eq_some published,
      foldl_add_eq_sum, zero_add, powerSum_summedPolynomial, List.sum_smul,
      List.map_map]
    rfl
  have points : ((dealAll n t random).allCommits.mapM fun c =>
      c.commitments[0]?) = some ((recipients n).map fun j =>
        powerSum (0 : Scalar) (polynomial t random j) • Curve.g2Generator) := by
    rw [allCommits_dealAll, List.mapM_map]
    exact mapM_eq_some fun j _ => head_commitments positive j
  rw [output, shares, Option.bind_eq_bind, Option.bind_some, keys]
  rw [Option.bind_eq_bind, Option.bind_some, points]
  rfl

theorem runFeldmanDkg_eq_some (positive : 1 ≤ t) :
    runFeldmanDkg n t random =
      some ((recipients n).map (finalOutput n t random)) :=
  mapM_eq_some fun _ party => output_dealAll positive party

/-- Without coefficients there is no first commitment. -/
theorem runFeldmanDkg_zero (nonempty : 1 ≤ n) : runFeldmanDkg n 0 random = none := by
  have first : (1 : UInt32) ∈ recipients n :=
    mem_recipients.mpr ⟨UInt32.le_refl 1, nonempty⟩
  have fails : ∀ pk : G2Projective,
      (commitmentOf 0 random 1).commitments[0]?.map (pk + ·) = none :=
    fun _ => rfl
  have panics : output n (dealAll n 0 random) 1 = none := by
    have keys : (dealAll n 0 random).allCommits.foldlM
        (fun pk c => c.commitments[0]?.map (pk + ·)) 0 = none := by
      rw [allCommits_dealAll, List.foldlM_map]
      exact foldlM_eq_none first fails 0
    simp [output, keys]
  exact mapM_eq_none first panics

/-! ## The same dealers, one by one -/

omit [Curve] in
theorem nodup_recipients (n : UInt32) : (recipients n).Nodup := by
  have bound := n.toNat_lt
  have size : UInt32.size = 2 ^ 32 := rfl
  refine List.Nodup.map_on ?_ List.nodup_range
  intro i first j second same
  have iBelow := List.mem_range.mp first
  have jBelow := List.mem_range.mp second
  have equal := congrArg UInt32.toNat same
  rw [UInt32.toNat_ofNat_of_lt' (by omega), UInt32.toNat_ofNat_of_lt' (by omega)]
    at equal
  exact Nat.succ_injective equal

/-- The polynomial that a party dealt last, when nobody else and nothing else comes
in between. -/
theorem latestPolynomial_deals (order : List UInt32) {dealer : UInt32}
    (dealt : dealer ∈ order) :
    latestPolynomial t dealer (order.map fun j => .deal j (random j)) =
      some (polynomial t random dealer) := by
  induction order using List.reverseRecOn with
  | nil => cases dealt
  | append_singleton earlier last inductionHypothesis =>
      rw [List.map_append, List.map_singleton, latestPolynomial_concat, latestAfter]
      by_cases same : last = dealer
      · subst same
        rw [if_pos rfl]
        rfl
      · rw [if_neg same]
        rw [List.mem_append, List.mem_singleton] at dealt
        exact inductionHypothesis (dealt.resolve_right fun other => same other.symm)

/-- Dealing never fails and disqualifies nobody. -/
theorem exists_run_deals (n t : UInt32) (random : UInt32 → Nat → Scalar)
    (order : List UInt32) :
    ∃ dkg, run step (MultiDealerDkg.new n t)
        (order.map fun j => .deal j (random j)) = some dkg ∧
      dkg.disqualified = ∅ := by
  induction order using List.reverseRecOn with
  | nil => exact ⟨_, rfl, rfl⟩
  | append_singleton earlier last inductionHypothesis =>
      rcases inductionHypothesis with ⟨dkg, reached, nobody⟩
      refine ⟨(dkg.deal last (random last)).2, ?_, nobody⟩
      rw [List.map_append, run_append, reached]
      rfl

theorem finalShare_deals {order : List UInt32}
    (everybody : ∀ j, j ∈ order ↔ j ∈ recipients n) {i : UInt32}
    (party : i ∈ recipients n) {dkg : MultiDealerDkg}
    (reached : run step (MultiDealerDkg.new n t)
      (order.map fun j => .deal j (random j)) = some dkg) :
    dkg.finalShare i = some (powerSum (point i) (summedPolynomial n t random)) := by
  rcases exists_run_deals n t random order with
    ⟨same, again, nobody⟩
  rw [reached, Option.some.injEq] at again
  subst again
  have dealers : (order.map fun j => MultiDealerCall.deal j (random j)).filterMap
      dealerOf = order := by
    rw [List.filterMap_map]
    exact List.filterMap_some
  have qualifies : qualified (order.map fun j => .deal j (random j)) dkg =
      (recipients n).toFinset := by
    ext j
    rw [qualified, nobody, dealers]
    simp [everybody]
  have somebody : (recipients n).toFinset ≠ ∅ :=
    Finset.ne_empty_of_mem (List.mem_toFinset.mpr party)
  rw [finalShare_eq (Represents.of_run reached) party, qualifies, if_neg somebody,
    powerSum_summedPolynomial, ← List.sum_toFinset _ (nodup_recipients n)]
  apply congrArg some
  apply Finset.sum_congr rfl
  intro j member
  have dealt : j ∈ order := (everybody j).mpr (List.mem_toFinset.mp member)
  rw [latest, latestPolynomial_deals order dealt]
  rfl

/-! ## The shares sign -/

omit [Curve] in
theorem getElem?_recipients {id : UInt32} (below : id.toNat < n.toNat) :
    (recipients n)[id.toNat]? = some (id + 1) := by
  have bound := n.toNat_lt
  have size : UInt32.size = 2 ^ 32 := rfl
  rw [recipients, List.getElem?_map, List.getElem?_range below]
  apply congrArg some
  apply UInt32.toNat_inj.mp
  rw [UInt32.toNat_ofNat_of_lt' (by omega), UInt32.toNat_add]
  have one : (1 : UInt32).toNat = 1 := rfl
  rw [one, Nat.mod_eq_of_lt (by omega)]

/-- The recipient `id + 1` has the point of the node `id`. -/
theorem point_succ {id : UInt32} (below : id.toNat < n.toNat) :
    point (id + 1) = evaluationPoint id := by
  have bound := n.toNat_lt
  rw [point, evaluationPoint_eq (by omega), UInt32.toNat_add]
  have one : (1 : UInt32).toNat = 1 := rfl
  rw [one, Nat.mod_eq_of_lt (by omega)]

end FeldmanDkg

open FeldmanDkg MultiDealerDkg

/-- For every number of parties below the field order, every positive threshold and
every choice of random numbers: the call succeeds with one output for each party; all
of them carry one public key, the sum of their verification points; signatures with the
outputs' shares, under their positions, verify under that key for every threshold from
`t` on that they reach; and parties that deal one by one, in any order and any number
of times, end with the same shares. -/
theorem feldmanDkg_signs {n t : UInt32} (random : UInt32 → Nat → Scalar)
    (positive : 1 ≤ t) (small : n.toNat < Curve.order) :
    ∃ (outputs : List DkgOutput) (key : G2Projective),
      runFeldmanDkg n t random = some outputs ∧ outputs.length = n.toNat ∧
      (∀ output ∈ outputs,
        output.publicKey = key ∧ output.verificationPoints.sum = key) ∧
      (∀ (msg : Bytes) (signatures : AssocMap UInt32 G1Projective)
        (threshold : Nat),
        t.toNat ≤ threshold → threshold ≤ signatures.len →
        (∀ id sig, signatures.get? id = some sig →
          ∃ output, outputs[id.toNat]? = some output ∧
            sig = signBlsMessage msg output.secretShare) →
        verifyThresholdSignature msg signatures key threshold = true) ∧
      ∀ (order : List UInt32) (dkg : MultiDealerDkg),
        (∀ j, j ∈ order ↔ j ∈ recipients n) →
        run MultiDealerDkg.step (MultiDealerDkg.new n t)
            (order.map fun j => .deal j (random j)) = some dkg →
        ∀ id : UInt32, id.toNat < n.toNat →
          ∃ output, outputs[id.toNat]? = some output ∧
            dkg.finalShare (id + 1) = some output.secretShare := by
  have atPosition : ∀ id : UInt32, id.toNat < n.toNat →
      ((recipients n).map (finalOutput n t random))[id.toNat]? =
        some (finalOutput n t random (id + 1)) := by
    intro id below
    rw [List.getElem?_map, getElem?_recipients below]
    rfl
  have size : (recipients n).length = n.toNat := by
    rw [recipients, List.length_map, List.length_range]
  have lengths : ∀ items ∈ (recipients n).map (polynomial t random),
      items.length = t.toNat := by
    intro items member
    rcases List.mem_map.mp member with ⟨i, _, rfl⟩
    exact length_polynomial i
  refine ⟨_, powerSum (0 : Scalar) (summedPolynomial n t random) • Curve.g2Generator,
    runFeldmanDkg_eq_some positive, by rw [List.length_map, size], ?_, ?_, ?_⟩
  · intro output member
    rcases List.mem_map.mp member with ⟨i, _, rfl⟩
    refine ⟨rfl, ?_⟩
    rw [powerSum_summedPolynomial, List.sum_smul, List.map_map]
    rfl
  · intro msg signatures threshold degree enough signed
    apply verifyThresholdSignature_of_shares ?_ enough ?_
    · rw [summedPolynomial, length_pointwiseSum lengths]
      exact degree
    · intro id sig stored
      rcases signed id sig stored with ⟨output, listed, signature⟩
      have below : id.toNat < n.toNat := by
        have inside := (List.getElem?_eq_some_iff.mp listed).1
        rwa [List.length_map, size] at inside
      rw [atPosition id below, Option.some.injEq] at listed
      subst listed
      have word := n.toNat_lt
      refine ⟨⟨by omega, by omega⟩, ?_⟩
      rw [signature, finalOutput, point_succ below]
  · intro order dkg everybody reached id below
    refine ⟨_, atPosition id below, ?_⟩
    have party : id + 1 ∈ recipients n :=
      List.mem_of_getElem? (getElem?_recipients below)
    exact finalShare_deals everybody party reached

end FeldmanRun

section SmallRun

open FeldmanDkg MultiDealerDkg

attribute [local instance] smallCurve

/-- Fixed numbers for every party. -/
def smallRandom (party : UInt32) (draw : Nat) : Scalar :=
  Nat.cast (party.toNat * 5 + draw * draw + 1)

/-- The theorem at three parties and signatures of the first and the third. -/
theorem feldmanDkg_signs_threeParties :
    ∃ outputs key, runFeldmanDkg 3 2 smallRandom = some outputs ∧
      outputs.length = 3 ∧
      ∀ first third, outputs[0]? = some first → outputs[2]? = some third →
        verifyThresholdSignature [1, 2, 3]
          ((AssocMap.insert ∅ 0 (signBlsMessage [1, 2, 3] first.secretShare)).insert 2
            (signBlsMessage [1, 2, 3] third.secretShare)) key 2 = true := by
  have positive : (1 : UInt32) ≤ 2 := by decide
  have small : (3 : UInt32).toNat < Curve.order := by decide
  rcases feldmanDkg_signs smallRandom positive small with
    ⟨outputs, key, computed, length, _, signs, _⟩
  refine ⟨outputs, key, computed, length, ?_⟩
  intro first third isFirst isThird
  refine signs [1, 2, 3] _ 2 (Nat.le_refl 2) ?_ ?_
  · exact Nat.le_refl 2
  intro id sig stored
  rw [AssocMap.get?_insert] at stored
  split at stored
  · rename_i here
    subst here
    cases stored
    exact ⟨third, isThird, rfl⟩
  · rw [AssocMap.get?_insert] at stored
    split at stored
    · rename_i here
      subst here
      cases stored
      exact ⟨first, isFirst, rfl⟩
    · cases stored

end SmallRun

end SovereignLattice
