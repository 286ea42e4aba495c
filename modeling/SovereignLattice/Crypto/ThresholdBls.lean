import SovereignLattice.Crypto.Curve
import SovereignLattice.Foundations.AssocMap
import SovereignLattice.Foundations.Interpolation
import SovereignLattice.Foundations.Loops
import Mathlib.Data.List.Sort
import Mathlib.Algebra.CharP.Basic

/-!
# Threshold BLS signatures (`threshold_bls.rs`)

Signing, single verification, and the verification of a threshold of signature
shares by interpolation at zero over the smallest signer ids.

The main result is completeness: any large enough set of shares made with keys
on one polynomial passes the threshold check against the polynomial's constant
term, whichever signers took part.
-/

namespace SovereignLattice

variable [Curve]

/-- The domain separation tag `DST`. -/
def dst : Bytes :=
  "SOVEREIGN_LATTICE_PBFT_V1_BLS_SIG".toUTF8.toList

def hashMessageToCurve (msg : Bytes) : G1Projective :=
  Curve.hashToCurve msg dst

def signBlsMessage (msg : Bytes) (sk : Scalar) : G1Projective :=
  sk • hashMessageToCurve msg

def verifyBlsSignature (msg : Bytes) (sig : G1Projective) (pk : G2Projective) :
    Bool :=
  let left := Curve.pairing sig Curve.g2Generator
  let right := Curve.pairing (hashMessageToCurve msg) pk
  left = right

/-- `Scalar::from((id + 1) as u64)`, the point at which a node's share is
taken.  The addition on `u32` wraps, as in a build without overflow checks; a build with
them panics at the last id and agrees on all others. -/
def evaluationPoint (id : UInt32) : Scalar :=
  ((id + 1).toNat : Scalar)

/-- The Lagrange coefficient of `idI` among `ids`, or nothing where the
denominator has no inverse. -/
def lagrangeCoefficient (ids : List UInt32) (idI : UInt32) : Option Scalar :=
  let xI := evaluationPoint idI
  let products :=
    ids.foldl
      (fun (state : Scalar × Scalar) idJ =>
        if idI = idJ then
          state
        else
          let xJ := evaluationPoint idJ
          (state.1 * -xJ, state.2 * (xI - xJ)))
      (1, 1)
  if products.2 = 0 then
    none
  else
    some (products.1 * products.2⁻¹)

/-- The loop of `verify_threshold_signature` over the chosen ids.  Every id is
a key of the map, so the lookup never fails. -/
def reconstructSignature (signatures : AssocMap UInt32 G1Projective)
    (ids : List UInt32) : Option G1Projective :=
  ids.foldlM
    (fun reconstructedSig idI => do
      let sigI ← signatures.get? idI
      let lambdaI ← lagrangeCoefficient ids idI
      some (reconstructedSig + lambdaI • sigI))
    0

/-- The smallest `threshold` signer ids. -/
def thresholdIds (signatures : AssocMap UInt32 G1Projective) (threshold : Nat) :
    List UInt32 :=
  (signatures.keys.insertionSort (· ≤ ·)).take threshold

def verifyThresholdSignature (msg : Bytes)
    (signatures : AssocMap UInt32 G1Projective) (masterPk : G2Projective)
    (threshold : Nat) : Bool :=
  if signatures.len < threshold then
    false
  else
    match reconstructSignature signatures (thresholdIds signatures threshold) with
    | some reconstructedSig => verifyBlsSignature msg reconstructedSig masterPk
    | none => false

/-- A point pairs with the generator like a message with the key of a scalar
exactly when it is the scalar's multiple of the message. -/
theorem pairing_eq_iff (sig message : G1Projective) (sk : Scalar) :
    Curve.pairing sig Curve.g2Generator =
        Curve.pairing message (sk • Curve.g2Generator) ↔
      sig = sk • message := by
  rw [← Curve.pairing_smul]
  exact Curve.pairing_generator_injective.eq_iff

/-- A signature verifies under the key of a scalar exactly when that scalar
signed the message. -/
theorem verifyBlsSignature_iff (msg : Bytes) (sig : G1Projective) (sk : Scalar) :
    verifyBlsSignature msg sig (sk • Curve.g2Generator) = true ↔
      sig = signBlsMessage msg sk := by
  simp only [verifyBlsSignature, decide_eq_true_eq, signBlsMessage]
  exact pairing_eq_iff sig (hashMessageToCurve msg) sk

theorem verifyBlsSignature_sign (msg : Bytes) (sk : Scalar) :
    verifyBlsSignature msg (signBlsMessage msg sk)
      (sk • Curve.g2Generator) = true :=
  (verifyBlsSignature_iff msg _ sk).mpr rfl

/-! ## The Lagrange loop -/

section LagrangeLoop

/-- With distinct evaluation points the loop computes the interpolation weight
at zero. -/
theorem lagrangeCoefficient_eq {ids : List UInt32} (nodup : ids.Nodup)
    (distinct : Set.InjOn evaluationPoint {id | id ∈ ids})
    {idI : UInt32} (member : idI ∈ ids) :
    lagrangeCoefficient ids idI =
      some (weightAtZero ids.toFinset evaluationPoint idI) := by
  have nonzero :
      (∏ idJ ∈ ids.toFinset.erase idI,
        (evaluationPoint idI - evaluationPoint idJ)) ≠ 0 := by
    rw [Finset.prod_ne_zero_iff]
    intro idJ other vanishes
    rw [Finset.mem_erase, List.mem_toFinset] at other
    exact other.1 (distinct member other.2 (sub_eq_zero.mp vanishes)).symm
  simp only [lagrangeCoefficient, foldl_products_skipping, one_mul,
    prod_filter_ne nodup, nonzero, if_false, weightAtZero]

/-- A second id with the same evaluation point leaves the loop without an
inverse. -/
theorem lagrangeCoefficient_eq_none {ids : List UInt32} {idI idJ : UInt32}
    (member : idJ ∈ ids) (different : idI ≠ idJ)
    (collide : evaluationPoint idI = evaluationPoint idJ) :
    lagrangeCoefficient ids idI = none := by
  have factor :
      (0 : Scalar) ∈ (ids.filter (idI ≠ ·)).map fun other =>
        evaluationPoint idI - evaluationPoint other := by
    rw [List.mem_map]
    exact ⟨idJ, List.mem_filter.mpr ⟨member, by simpa using different⟩,
      sub_eq_zero.mpr collide⟩
  have vanishes :
      ((ids.filter (idI ≠ ·)).map fun other =>
        evaluationPoint idI - evaluationPoint other).prod = 0 :=
    List.prod_eq_zero factor
  simp only [lagrangeCoefficient, foldl_products_skipping, one_mul, vanishes,
    if_true]

end LagrangeLoop

/-! ## Completeness of the threshold check -/

omit [Curve] in
private theorem u32_toNat_succ {id : UInt32} (small : id.toNat + 1 < 2 ^ 32) :
    (id + 1).toNat = id.toNat + 1 := by
  rw [UInt32.toNat_add]
  exact Nat.mod_eq_of_lt small

/-- The `u32` addition does not wrap for the ids of nodes. -/
theorem evaluationPoint_eq {id : UInt32} (small : id.toNat + 1 < 2 ^ 32) :
    evaluationPoint id = ((id.toNat + 1 : Nat) : Scalar) := by
  rw [evaluationPoint, u32_toNat_succ small]

/-- Evaluation points of different ids below the field order differ. -/
theorem evaluationPoint_injOn {ids : Set UInt32}
    (small : ∀ id ∈ ids, id.toNat + 1 < 2 ^ 32 ∧ id.toNat + 1 < Curve.order) :
    Set.InjOn evaluationPoint ids := by
  intro first firstMember second secondMember same
  rcases small first firstMember with ⟨firstWord, firstOrder⟩
  rcases small second secondMember with ⟨secondWord, secondOrder⟩
  rw [evaluationPoint, evaluationPoint, u32_toNat_succ firstWord,
    u32_toNat_succ secondWord, ZMod.natCast_eq_natCast_iff'] at same
  rw [Nat.mod_eq_of_lt firstOrder, Nat.mod_eq_of_lt secondOrder] at same
  exact UInt32.toNat_inj.mp (Nat.succ_injective same)

theorem mem_keys_of_mem_thresholdIds
    {signatures : AssocMap UInt32 G1Projective} {threshold : Nat} {id : UInt32}
    (member : id ∈ thresholdIds signatures threshold) :
    id ∈ signatures.keys :=
  (List.perm_insertionSort _ _).mem_iff.mp (List.mem_of_mem_take member)

theorem nodup_thresholdIds
    (signatures : AssocMap UInt32 G1Projective) (threshold : Nat) :
    (thresholdIds signatures threshold).Nodup := by
  have sorted : (signatures.keys.insertionSort (· ≤ ·)).Nodup :=
    (List.perm_insertionSort _ _).nodup_iff.mpr signatures.keys_nodup
  exact sorted.sublist (List.take_sublist _ _)

theorem length_thresholdIds
    {signatures : AssocMap UInt32 G1Projective} {threshold : Nat}
    (enough : threshold ≤ signatures.len) :
    (thresholdIds signatures threshold).length = threshold := by
  rw [thresholdIds, List.length_take, List.length_insertionSort,
    AssocMap.length_keys]
  exact Nat.min_eq_left enough

/-- What an entry lacks of being the share of its id: the zero point for the
share of the polynomial with these coefficients. -/
def shareError (coefficients : List Scalar) (msg : Bytes) (id : UInt32)
    (sig : G1Projective) : G1Projective :=
  sig - signBlsMessage msg (powerSum (evaluationPoint id) coefficients)

/-- The errors of the chosen entries, as interpolation at zero weighs them. -/
def interpolatedError (coefficients : List Scalar) (msg : Bytes)
    (signatures : AssocMap UInt32 G1Projective) (ids : List UInt32) :
    G1Projective :=
  ∑ id ∈ ids.toFinset, weightAtZero ids.toFinset evaluationPoint id •
    shareError coefficients msg id (signatures.getD id 0)

/-- The loop reconstructs the master signature up to the interpolated error. -/
theorem reconstructSignature_eq {msg : Bytes}
    {signatures : AssocMap UInt32 G1Projective} {coefficients : List Scalar}
    {ids : List UInt32} (nodup : ids.Nodup)
    (known : ∀ id ∈ ids, id ∈ signatures.keys)
    (degree : coefficients.length ≤ ids.length)
    (distinct : Set.InjOn evaluationPoint {id | id ∈ ids}) :
    reconstructSignature signatures ids =
      some (signBlsMessage msg (powerSum (0 : Scalar) coefficients) +
        interpolatedError coefficients msg signatures ids) := by
  have stored : ∀ id ∈ ids,
      signatures.get? id = some (signatures.getD id 0) := by
    intro id member
    rcases AssocMap.mem_keys_iff.mp (known id member) with ⟨sig, found⟩
    rw [AssocMap.getD_of_get? 0 found, found]
  have weighted : ∀ id ∈ ids,
      lagrangeCoefficient ids id =
        some (weightAtZero ids.toFinset evaluationPoint id) :=
    fun id member => lagrangeCoefficient_eq nodup distinct member
  have succeeds : ∀ id ∈ ids, ∀ reconstructedSig : G1Projective,
      (do
        let sigI ← signatures.get? id
        let lambdaI ← lagrangeCoefficient ids id
        some (reconstructedSig + lambdaI • sigI)) =
      some (reconstructedSig +
        weightAtZero ids.toFinset evaluationPoint id • signatures.getD id 0) := by
    intro id member reconstructedSig
    rw [stored id member, weighted id member]
    rfl
  have shares :
      ∑ id ∈ ids.toFinset, weightAtZero ids.toFinset evaluationPoint id •
          signBlsMessage msg (powerSum (evaluationPoint id) coefficients) =
        signBlsMessage msg (powerSum (0 : Scalar) coefficients) := by
    apply sum_weightAtZero_smul
    · intro first firstMember second secondMember
      exact distinct (by simpa using firstMember) (by simpa using secondMember)
    · rw [List.toFinset_card_of_nodup nodup]
      exact degree
  rw [reconstructSignature, foldlM_eq_some succeeds, foldl_add_eq_sum, zero_add,
    ← List.sum_toFinset _ nodup, ← shares, interpolatedError,
    ← Finset.sum_add_distrib]
  congr 1
  apply Finset.sum_congr rfl
  intro id _
  rw [shareError, ← smul_add, add_sub_cancel]

/-- The loop fails on ids whose evaluation points collide. -/
theorem reconstructSignature_eq_none
    (signatures : AssocMap UInt32 G1Projective) {ids : List UInt32}
    (collision : ¬ Set.InjOn evaluationPoint {id | id ∈ ids}) :
    reconstructSignature signatures ids = none := by
  simp only [Set.InjOn, not_forall] at collision
  obtain ⟨idI, memberI, idJ, memberJ, collide, different⟩ := collision
  have failed := lagrangeCoefficient_eq_none memberJ different collide
  apply foldlM_eq_none memberI
  intro reconstructedSig
  rw [failed]
  cases signatures.get? idI <;> rfl

/-- The verdict of the threshold check, exactly: there are enough entries, and
the errors of the smallest ids cancel in the interpolation. -/
theorem verifyThresholdSignature_iff {msg : Bytes}
    {signatures : AssocMap UInt32 G1Projective} {coefficients : List Scalar}
    {threshold : Nat} (degree : coefficients.length ≤ threshold) :
    verifyThresholdSignature msg signatures
        (powerSum (0 : Scalar) coefficients • Curve.g2Generator) threshold =
          true ↔
      threshold ≤ signatures.len ∧
        Set.InjOn evaluationPoint {id | id ∈ thresholdIds signatures threshold} ∧
        interpolatedError coefficients msg signatures
          (thresholdIds signatures threshold) = 0 := by
  rw [verifyThresholdSignature]
  by_cases few : signatures.len < threshold
  · rw [if_pos few]
    constructor
    · intro impossible
      cases impossible
    · intro all
      exact absurd few (Nat.not_lt.mpr all.1)
  rw [if_neg few]
  have enough : threshold ≤ signatures.len := Nat.not_lt.mp few
  by_cases distinct :
      Set.InjOn evaluationPoint {id | id ∈ thresholdIds signatures threshold}
  · have reconstructed := @reconstructSignature_eq _ msg signatures coefficients _
      (nodup_thresholdIds signatures threshold)
      (fun id member => mem_keys_of_mem_thresholdIds member)
      (degree.trans_eq (length_thresholdIds enough).symm) distinct
    rw [reconstructed]
    dsimp only
    rw [verifyBlsSignature_iff, add_eq_left]
    constructor
    · intro cancels
      exact ⟨enough, distinct, cancels⟩
    · intro all
      exact all.2.2
  · rw [reconstructSignature_eq_none signatures distinct]
    constructor
    · intro impossible
      cases impossible
    · intro all
      exact absurd all.2.1 distinct

/-- Every set of at least `threshold` signature shares on one message, made
with keys on a polynomial of at most `threshold` coefficients, passes the
threshold check against the constant term's key. -/
theorem verifyThresholdSignature_of_shares
    {msg : Bytes} {signatures : AssocMap UInt32 G1Projective}
    {coefficients : List Scalar} {threshold : Nat}
    (degree : coefficients.length ≤ threshold)
    (enough : threshold ≤ signatures.len)
    (shares : ∀ id sig, signatures.get? id = some sig →
      (id.toNat + 1 < 2 ^ 32 ∧ id.toNat + 1 < Curve.order) ∧
        sig = signBlsMessage msg (powerSum (evaluationPoint id) coefficients)) :
    verifyThresholdSignature msg signatures
      (powerSum (0 : Scalar) coefficients • Curve.g2Generator) threshold = true := by
  have stored : ∀ id ∈ thresholdIds signatures threshold,
      ∃ sig, signatures.get? id = some sig := fun id member =>
    AssocMap.mem_keys_iff.mp (mem_keys_of_mem_thresholdIds member)
  rw [verifyThresholdSignature_iff degree]
  refine ⟨enough, ?_, ?_⟩
  · apply evaluationPoint_injOn
    intro id member
    obtain ⟨sig, found⟩ := stored id member
    exact (shares id sig found).1
  · apply Finset.sum_eq_zero
    intro id member
    obtain ⟨sig, found⟩ := stored id (List.mem_toFinset.mp member)
    rw [shareError, AssocMap.getD_of_get? 0 found, (shares id sig found).2,
      sub_self, smul_zero]

end SovereignLattice
