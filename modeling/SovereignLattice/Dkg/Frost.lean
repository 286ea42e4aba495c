import SovereignLattice.Crypto.SmallCurve
import SovereignLattice.Crypto.ThresholdBls
import SovereignLattice.Dkg.KeyGeneration
import SovereignLattice.Foundations.Loops
import Mathlib.Data.Nat.Digits.Defs

/-!
# Threshold signatures from a trusted dealer (`frost_sim.rs`)

The dealer hands out evaluations of one polynomial, and a signature is
interpolated from the first `threshold` shares of a list.  The coefficients are
computed place by place, so a node that appears twice leaves a denominator of
zero, and the loop does not get past it.
-/

namespace SovereignLattice

/-- `G1Projective::generator()`, which only this scheme uses. -/
class G1Generator [Curve] where
  g1Generator : G1Projective

section Scheme

variable [Curve]

structure FrostKeyShare where
  nodeId : UInt32
  secretShare : Scalar
  publicKey : G2Projective
  verificationKeys : AssocMap UInt32 G2Projective

structure SignatureShare where
  nodeId : UInt32
  share : G1Projective

inductive FrostError where
  | notEnoughShares
  deriving DecidableEq, Repr

def FrostError.text : FrostError → String
  | .notEnoughShares => "Not enough shares to aggregate"

/-- `Scalar::from_bytes_wide`, little-endian. -/
def fromBytesWide (bytes : Bytes) : Scalar :=
  (Nat.ofDigits 256 (bytes.map UInt8.toNat) : Nat)

namespace Frost

/-- The dealer's keys for given coefficients.  Nothing is the result where there
is no coefficient to take as the secret. -/
def trustedDealer (coeffs : List Scalar) (totalNodes : Nat) :
    Option (G2Projective × AssocMap UInt32 FrostKeyShare) := do
  let groupSecret ← coeffs.head?
  let groupPublic := groupSecret • Curve.g2Generator
  let share (i : UInt32) := powerSum (evaluationPoint i) coeffs
  let verificationKeys : AssocMap UInt32 G2Projective :=
    (participants totalNodes).foldl
      (fun keys i => keys.insert i (share i • Curve.g2Generator)) ∅
  let secretShares : AssocMap UInt32 Scalar :=
    (participants totalNodes).foldl (fun shares i => shares.insert i (share i)) ∅
  let keyShares ← (participants totalNodes).foldlM
    (fun (keyShares : AssocMap UInt32 FrostKeyShare) i => do
      let secretShare ← secretShares.get? i
      some (keyShares.insert i
        { nodeId := i
          secretShare
          publicKey := groupPublic
          verificationKeys }))
    ∅
  some (groupPublic, keyShares)

/-- The point `h` of both `sign` and `verify_group_signature`: the first 32 bytes
of the message as a scalar. -/
def messagePoint [G1Generator] (msg : Bytes) : G1Projective :=
  let len := min msg.length 32
  let msgHash := msg.take len ++ List.replicate (32 - len) 0
  let bytes := msgHash ++ List.replicate 32 0
  fromBytesWide bytes • G1Generator.g1Generator

def sign [G1Generator] (msg : Bytes) (keyShare : FrostKeyShare) : SignatureShare where
  nodeId := keyShare.nodeId
  share := keyShare.secretShare • messagePoint msg

/-- The coefficient of the share at place `i`.  Nothing is the result of
`den.invert().unwrap()` where the denominator is zero. -/
def lagrangeCoeff (subset : List SignatureShare) (threshold i : Nat) :
    Option Scalar := do
  let shareI ← subset[i]?
  let xI := evaluationPoint shareI.nodeId
  let products ← (List.range threshold).foldlM
    (fun (state : Scalar × Scalar) j =>
      if i = j then
        some state
      else do
        let shareJ ← subset[j]?
        let xJ := evaluationPoint shareJ.nodeId
        some (state.1 * xJ, state.2 * (xJ - xI)))
    (1, 1)
  if products.2 = 0 then
    none
  else
    some (products.1 * products.2⁻¹)

/-- The outer option is the panic of the `unwrap`. -/
def aggregate (shares : List SignatureShare) (threshold : Nat) :
    Option (Except FrostError G1Projective) :=
  if shares.length < threshold then
    some (.error .notEnoughShares)
  else do
    let subset := shares.take threshold
    let aggregatedSig ← (List.range threshold).foldlM
      (fun aggregatedSig i => do
        let lagrangeCoeff ← lagrangeCoeff subset threshold i
        let shareI ← subset[i]?
        some (aggregatedSig + lagrangeCoeff • shareI.share))
      0
    some (.ok aggregatedSig)

def verifyGroupSignature [G1Generator] (msg : Bytes) (signature : G1Projective)
    (groupPublicKey : G2Projective) : Bool :=
  let pairingSig := Curve.pairing signature Curve.g2Generator
  let pairingMsg := Curve.pairing (messagePoint msg) groupPublicKey
  pairingSig = pairingMsg

/-! ## The dealer -/

section Dealer

variable {coeffs : List Scalar} {totalNodes : Nat}

omit [Curve] in
/-- The ids that the dealer deals to, below the largest of the type. -/
theorem mem_dealt {id : UInt32} (member : id ∈ participants totalNodes) :
    id.toNat + 1 < 2 ^ 32 ∧ id.toNat < totalNodes := by
  have word : totalNodes % 2 ^ 32 < 2 ^ 32 := Nat.mod_lt _ (by decide)
  have wrapped : participants totalNodes = participants (totalNodes % 2 ^ 32) := by
    rw [participants, participants, Nat.mod_mod]
  rw [wrapped, mem_participants word] at member
  have below : totalNodes % 2 ^ 32 ≤ totalNodes := Nat.mod_le _ _
  exact ⟨by omega, by omega⟩

/-- The key share that the dealer gives to a node. -/
def dealtKeyShare (secret : Scalar) (rest : List Scalar) (totalNodes : Nat)
    (id : UInt32) : FrostKeyShare where
  nodeId := id
  secretShare := powerSum (evaluationPoint id) (secret :: rest)
  publicKey := secret • Curve.g2Generator
  verificationKeys := (participants totalNodes).foldl
    (fun (keys : AssocMap UInt32 G2Projective) i =>
      keys.insert i (powerSum (evaluationPoint i) (secret :: rest) •
        Curve.g2Generator)) ∅

/-- The public key is that of the value at zero, every node has a key share, and
each is an evaluation of the polynomial at the point of its node. -/
theorem trustedDealer_cons (secret : Scalar) (rest : List Scalar) (totalNodes : Nat) :
    ∃ keyShares, trustedDealer (secret :: rest) totalNodes =
        some (powerSum (0 : Scalar) (secret :: rest) • Curve.g2Generator, keyShares) ∧
      (∀ id ∈ participants totalNodes, ∃ keyShare ∈ keyShares.values,
        keyShare.nodeId = id) ∧
      ∀ keyShare ∈ keyShares.values, keyShare.nodeId ∈ participants totalNodes ∧
        keyShare.secretShare =
          powerSum (evaluationPoint keyShare.nodeId) (secret :: rest) := by
  have succeeds : ∀ i ∈ participants totalNodes,
      ∀ keyShares : AssocMap UInt32 FrostKeyShare,
        (do
          let secretShare ← ((participants totalNodes).foldl
            (fun (shares : AssocMap UInt32 Scalar) i =>
              shares.insert i (powerSum (evaluationPoint i) (secret :: rest)))
            ∅).get? i
          some (keyShares.insert i
            { dealtKeyShare secret rest totalNodes i with secretShare })) =
        some (keyShares.insert i (dealtKeyShare secret rest totalNodes i)) := by
    intro i member keyShares
    rw [AssocMap.get?_foldl_insert, if_pos member]
    rfl
  refine ⟨(participants totalNodes).foldl
    (fun (keyShares : AssocMap UInt32 FrostKeyShare) i =>
      keyShares.insert i (dealtKeyShare secret rest totalNodes i)) ∅, ?_, ?_, ?_⟩
  · have loop := foldlM_eq_some succeeds ∅
    rw [powerSum_zero_cons, trustedDealer]
    exact congrArg
      (Option.bind · fun keyShares => some (secret • Curve.g2Generator, keyShares))
      loop
  · intro id member
    refine ⟨dealtKeyShare secret rest totalNodes id,
      AssocMap.mem_values_iff.mpr ⟨id, ?_⟩, rfl⟩
    rw [AssocMap.get?_foldl_insert, if_pos member]
  · intro dealt member
    rcases AssocMap.mem_values_iff.mp member with ⟨id, stored⟩
    rw [AssocMap.get?_foldl_insert] at stored
    by_cases known : id ∈ participants totalNodes
    · rw [if_pos known, Option.some.injEq] at stored
      subst stored
      exact ⟨known, rfl⟩
    · rw [if_neg known, AssocMap.get?_empty] at stored
      cases stored

end Dealer

/-! ## Interpolation by place -/

section Aggregation

variable {subset : List SignatureShare} {threshold : Nat}

/-- The point of the share at a place. -/
def placePoint (subset : List SignatureShare) (place : Nat) : Scalar :=
  (subset[place]?).elim 0 fun share => evaluationPoint share.nodeId

theorem placePoint_eq {place : Nat} (inside : place < subset.length) :
    placePoint subset place = evaluationPoint subset[place].nodeId := by
  rw [placePoint, List.getElem?_eq_getElem inside]
  rfl

/-- The loop over the other places computes its two products. -/
theorem lagrangeCoeff_eq_ite (length : subset.length = threshold) {i : Nat}
    (inside : i < threshold) :
    lagrangeCoeff subset threshold i =
      if (∏ j ∈ (Finset.range threshold).erase i,
          (placePoint subset j - placePoint subset i)) = 0 then
        none
      else
        some ((∏ j ∈ (Finset.range threshold).erase i, placePoint subset j) *
          (∏ j ∈ (Finset.range threshold).erase i,
            (placePoint subset j - placePoint subset i))⁻¹) := by
  subst length
  have succeeds : ∀ j ∈ List.range subset.length, ∀ state : Scalar × Scalar,
      (if i = j then
          some state
        else do
          let shareJ ← subset[j]?
          let xJ := evaluationPoint shareJ.nodeId
          some (state.1 * xJ,
            state.2 * (xJ - evaluationPoint subset[i].nodeId))) =
        some (if i = j then state
          else (state.1 * placePoint subset j,
            state.2 * (placePoint subset j - placePoint subset i))) := by
    intro j member state
    have present := List.mem_range.mp member
    by_cases same : i = j
    · rw [if_pos same, if_pos same]
    · rw [if_neg same, if_neg same, List.getElem?_eq_getElem present,
        placePoint_eq present, placePoint_eq inside]
      rfl
  rw [lagrangeCoeff, List.getElem?_eq_getElem inside, Option.bind_eq_bind,
    Option.bind_some]
  dsimp only
  rw [foldlM_eq_some succeeds, foldl_products_skipping,
    prod_filter_ne List.nodup_range, prod_filter_ne List.nodup_range,
    List.toFinset_range, one_mul, one_mul]
  rfl

/-- With distinct points it is the weight of the place when interpolating
at zero. -/
theorem lagrangeCoeff_eq (length : subset.length = threshold)
    (distinct : Set.InjOn (placePoint subset) (Finset.range threshold)) {i : Nat}
    (inside : i < threshold) :
    lagrangeCoeff subset threshold i =
      some (weightAtZero (Finset.range threshold) (placePoint subset) i) := by
  have nonzero : (∏ j ∈ (Finset.range threshold).erase i,
      (placePoint subset j - placePoint subset i)) ≠ 0 := by
    rw [Finset.prod_ne_zero_iff]
    intro j other vanishes
    rw [Finset.mem_erase] at other
    have member : i ∈ Finset.range threshold := Finset.mem_range.mpr inside
    exact other.1 (distinct other.2 member (sub_eq_zero.mp vanishes))
  rw [lagrangeCoeff_eq_ite length inside, if_neg nonzero, weightAtZero,
    ← Finset.prod_inv_distrib, ← Finset.prod_inv_distrib,
    ← Finset.prod_mul_distrib, ← Finset.prod_mul_distrib]
  congr 1
  apply Finset.prod_congr rfl
  intro j _
  rw [← neg_sub, inv_neg, neg_mul_comm]

/-- A second place with the same node leaves no inverse. -/
theorem lagrangeCoeff_eq_none (length : subset.length = threshold) {i j : Nat}
    (insideI : i < subset.length) (insideJ : j < subset.length) (different : j ≠ i)
    (repeated : subset[i].nodeId = subset[j].nodeId) :
    lagrangeCoeff subset threshold i = none := by
  have vanishes : (∏ j ∈ (Finset.range threshold).erase i,
      (placePoint subset j - placePoint subset i)) = 0 := by
    apply Finset.prod_eq_zero
      (Finset.mem_erase.mpr
        ⟨different, Finset.mem_range.mpr (insideJ.trans_eq length)⟩)
    rw [placePoint_eq insideI, placePoint_eq insideJ, repeated, sub_self]
  rw [lagrangeCoeff_eq_ite length (insideI.trans_eq length), if_pos vanishes]

theorem nodup_nodeIds_iff (shares : List SignatureShare) :
    (shares.map SignatureShare.nodeId).Nodup ↔
      ∀ i j (insideI : i < shares.length) (insideJ : j < shares.length),
        i < j → shares[i].nodeId ≠ shares[j].nodeId := by
  rw [List.nodup_iff_pairwise_ne, List.pairwise_map, List.pairwise_iff_getElem]

/-- The points of different nodes below the field order differ. -/
theorem injOn_placePoint
    (distinct : (subset.map SignatureShare.nodeId).Nodup)
    (small : ∀ share ∈ subset, share.nodeId.toNat + 1 < 2 ^ 32 ∧
      share.nodeId.toNat + 1 < Curve.order) :
    Set.InjOn (placePoint subset) (Finset.range subset.length) := by
  have points : Set.InjOn evaluationPoint
      {id | id ∈ subset.map SignatureShare.nodeId} := by
    apply evaluationPoint_injOn
    intro id member
    rcases List.mem_map.mp member with ⟨share, listed, rfl⟩
    exact small share listed
  have nodeOf : ∀ place (inside : place < subset.length),
      subset[place].nodeId ∈ subset.map SignatureShare.nodeId :=
    fun place inside => List.mem_map_of_mem (List.getElem_mem inside)
  rw [nodup_nodeIds_iff] at distinct
  intro i memberI j memberJ same
  have insideI : i < subset.length := by simpa using memberI
  have insideJ : j < subset.length := by simpa using memberJ
  rw [placePoint_eq insideI, placePoint_eq insideJ] at same
  have nodes := points (nodeOf i insideI) (nodeOf j insideJ) same
  rcases Nat.lt_trichotomy i j with before | rfl | after
  · exact absurd nodes (distinct i j insideI insideJ before)
  · rfl
  · exact absurd nodes.symm (distinct j i insideJ insideI after)

theorem aggregate_of_lt {shares : List SignatureShare}
    (few : shares.length < threshold) :
    aggregate shares threshold = some (.error .notEnoughShares) :=
  if_pos few

/-- Two of the first shares are of one node. -/
theorem aggregate_of_repeated {shares : List SignatureShare}
    (enough : threshold ≤ shares.length)
    (repeated : ¬ ((shares.take threshold).map SignatureShare.nodeId).Nodup) :
    aggregate shares threshold = none := by
  have length : (shares.take threshold).length = threshold :=
    List.length_take_of_le enough
  simp only [nodup_nodeIds_iff, not_forall, not_not] at repeated
  obtain ⟨i, j, insideI, insideJ, before, same⟩ := repeated
  have failed := lagrangeCoeff_eq_none length insideI insideJ before.ne' same
  have loop : (List.range threshold).foldlM
      (fun aggregatedSig i => do
        let lagrangeCoeff ← lagrangeCoeff (shares.take threshold) threshold i
        let shareI ← (shares.take threshold)[i]?
        some (aggregatedSig + lagrangeCoeff • shareI.share))
      (0 : G1Projective) = none := by
    apply foldlM_eq_none (List.mem_range.mpr (insideI.trans_eq length))
    intro aggregatedSig
    rw [failed]
    rfl
  rw [aggregate, if_neg (Nat.not_lt.mpr enough)]
  dsimp only
  rw [loop]
  rfl

/-- Enough first shares of different nodes interpolate to the value at zero. -/
theorem aggregate_of_distinct {shares : List SignatureShare}
    {coeffs : List Scalar} {point : G1Projective}
    (enough : threshold ≤ shares.length) (degree : coeffs.length ≤ threshold)
    (distinct : ((shares.take threshold).map SignatureShare.nodeId).Nodup)
    (small : ∀ share ∈ shares, share.nodeId.toNat + 1 < 2 ^ 32 ∧
      share.nodeId.toNat + 1 < Curve.order)
    (dealt : ∀ share ∈ shares,
      share.share = powerSum (evaluationPoint share.nodeId) coeffs • point) :
    aggregate shares threshold =
      some (.ok (powerSum (0 : Scalar) coeffs • point)) := by
  have length : (shares.take threshold).length = threshold :=
    List.length_take_of_le enough
  have points : Set.InjOn (placePoint (shares.take threshold))
      (Finset.range threshold) := by
    have firsts := injOn_placePoint distinct
      fun share member => small share (List.mem_of_mem_take member)
    rwa [length] at firsts
  have succeeds : ∀ i ∈ List.range threshold, ∀ aggregatedSig : G1Projective,
      (do
        let lagrangeCoeff ← lagrangeCoeff (shares.take threshold) threshold i
        let shareI ← (shares.take threshold)[i]?
        some (aggregatedSig + lagrangeCoeff • shareI.share)) =
      some (aggregatedSig +
        weightAtZero (Finset.range threshold) (placePoint (shares.take threshold)) i •
          (powerSum (placePoint (shares.take threshold) i) coeffs • point)) := by
    intro i member aggregatedSig
    have inside := List.mem_range.mp member
    have present : i < (shares.take threshold).length := inside.trans_eq length.symm
    have listed : (shares.take threshold)[i] ∈ shares :=
      List.mem_of_mem_take (List.getElem_mem present)
    rw [lagrangeCoeff_eq length points inside, List.getElem?_eq_getElem present,
      placePoint_eq present, ← dealt _ listed]
    rfl
  have interpolated := sum_weightAtZero_smul points
    (degree.trans_eq (Finset.card_range threshold).symm) point
  rw [aggregate, if_neg (Nat.not_lt.mpr enough)]
  dsimp only
  rw [foldlM_eq_some succeeds, foldl_add_eq_sum, zero_add,
    ← List.sum_toFinset _ List.nodup_range, List.toFinset_range, interpolated]
  rfl

end Aggregation

/-! ## Signatures of the dealt keys -/

section Signatures

variable [G1Generator]

theorem verifyGroupSignature_iff (msg : Bytes) (signature : G1Projective)
    (secret : Scalar) :
    verifyGroupSignature msg signature (secret • Curve.g2Generator) = true ↔
      signature = secret • messagePoint msg := by
  simp only [verifyGroupSignature, decide_eq_true_eq]
  exact pairing_eq_iff signature (messagePoint msg) secret

/-- Every share of the list is the signature of a dealt key on the message. -/
def SignedBy (keyShares : AssocMap UInt32 FrostKeyShare) (msg : Bytes)
    (shares : List SignatureShare) : Prop :=
  ∀ share ∈ shares, ∃ keyShare ∈ keyShares.values, share = sign msg keyShare

/-- The call returns an error, or this signature. -/
def Returns (shares : List SignatureShare) (threshold : Nat)
    (signature : G1Projective) : Prop :=
  (∃ error, aggregate shares threshold = some (.error error)) ∨
    aggregate shares threshold = some (.ok signature)

/-- For each message there is one signature that the group key accepts, and
`aggregate` returns it or an error exactly for the lists that are too short or
have different nodes in the first `threshold` places. -/
theorem returns_iff {coeffs : List Scalar} {totalNodes : Nat}
    {groupPublic : G2Projective} {keyShares : AssocMap UInt32 FrostKeyShare}
    (field : totalNodes + 1 < Curve.order)
    (dealt : trustedDealer coeffs totalNodes = some (groupPublic, keyShares))
    (msg : Bytes) :
    ∃ signature, verifyGroupSignature msg signature groupPublic = true ∧
      ∀ shares, SignedBy keyShares msg shares →
        (Returns shares coeffs.length signature ↔
          shares.length < coeffs.length ∨
            ((shares.take coeffs.length).map SignatureShare.nodeId).Nodup) := by
  cases coeffs with
  | nil => cases dealt
  | cons secret rest =>
      obtain ⟨filled, output, _, evaluations⟩ :=
        trustedDealer_cons secret rest totalNodes
      rw [output, Option.some.injEq, Prod.mk.injEq] at dealt
      rcases dealt with ⟨rfl, rfl⟩
      refine ⟨_, (verifyGroupSignature_iff msg _ _).mpr rfl, ?_⟩
      intro shares signed
      have small : ∀ share ∈ shares, share.nodeId.toNat + 1 < 2 ^ 32 ∧
          share.nodeId.toNat + 1 < Curve.order := by
        intro share member
        rcases signed share member with ⟨keyShare, listed, rfl⟩
        rcases mem_dealt (evaluations keyShare listed).1 with ⟨word, below⟩
        exact ⟨word, (Nat.succ_lt_succ below).trans_le field.le⟩
      have values : ∀ share ∈ shares, share.share =
          powerSum (evaluationPoint share.nodeId) (secret :: rest) •
            messagePoint msg := by
        intro share member
        rcases signed share member with ⟨keyShare, listed, rfl⟩
        rw [sign, (evaluations keyShare listed).2]
      by_cases few : shares.length < (secret :: rest).length
      · exact iff_of_true (Or.inl ⟨_, aggregate_of_lt few⟩) (Or.inl few)
      have enough := Nat.not_lt.mp few
      by_cases distinct :
          ((shares.take (secret :: rest).length).map SignatureShare.nodeId).Nodup
      · exact iff_of_true
          (Or.inr (aggregate_of_distinct enough le_rfl distinct small values))
          (Or.inr distinct)
      · apply iff_of_false
        · rw [Returns, aggregate_of_repeated enough distinct]
          rintro (⟨error, impossible⟩ | impossible) <;> cases impossible
        · rintro (short | nodes)
          · exact few short
          · exact distinct nodes

end Signatures

end Frost

end Scheme

section SmallRun

attribute [local instance] smallCurve

/-- One generates the small curve. -/
@[reducible]
def smallGenerator : G1Generator where
  g1Generator := (1 : ZMod 251)

attribute [local instance] smallGenerator

/-- The theorem for two of three nodes. -/
theorem Frost.returns_iff_threeNodes :
    ∃ groupPublic keyShares signature,
      Frost.trustedDealer [1, 1] 3 = some (groupPublic, keyShares) ∧
        Frost.verifyGroupSignature [1] signature groupPublic = true ∧
          ∀ shares, Frost.SignedBy keyShares [1] shares →
            (Frost.Returns shares 2 signature ↔
              shares.length < 2 ∨
                ((shares.take 2).map SignatureShare.nodeId).Nodup) := by
  obtain ⟨keyShares, dealt, _⟩ := Frost.trustedDealer_cons 1 [1] 3
  obtain ⟨signature, verifies, returned⟩ :=
    Frost.returns_iff (by decide) dealt [1]
  exact ⟨_, keyShares, signature, dealt, verifies, returned⟩

/-- The first node's share twice is a list on which the call panics. -/
theorem Frost.aggregate_repeated :
    ∃ groupPublic keyShares, ∃ share,
      Frost.trustedDealer [1, 1] 3 = some (groupPublic, keyShares) ∧
        Frost.SignedBy keyShares [1] [share, share] ∧
          share.nodeId = 0 ∧ Frost.aggregate [share, share] 2 = none := by
  obtain ⟨keyShares, dealt, everyNode, _⟩ := Frost.trustedDealer_cons 1 [1] 3
  obtain ⟨keyShare, listed, node⟩ := everyNode 0 (by decide)
  refine ⟨_, keyShares, Frost.sign [1] keyShare, dealt, ?_, node, ?_⟩
  · intro share member
    rw [List.mem_pair, or_self] at member
    exact ⟨keyShare, listed, member⟩
  · apply Frost.aggregate_of_repeated (Nat.le_refl 2)
    simp

end SmallRun

end SovereignLattice
