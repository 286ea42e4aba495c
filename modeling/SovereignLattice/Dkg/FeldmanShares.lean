import SovereignLattice.Dkg.Session
import SovereignLattice.Crypto.SmallCurve

/-!
# Feldman share checks (`dkg.rs`, `pedersen_vss.rs`)

A session and the standalone verifier check a share against commitments in the
exponent.  In a group of prime order both accept exactly the value of the
committed polynomial at the receiver's point, which is what a dealer's session
evaluates.
-/

namespace SovereignLattice

section FeldmanChecks

variable [Curve]

namespace PedersenVss

/-- `evaluation_point`, on `u32` as in a build without overflow checks. -/
def evaluationPoint (nodeId : UInt32) : Scalar :=
  ((nodeId + 1).toNat : Scalar)

def verifyFeldmanShare (participantId : UInt32) (secretShare : Scalar)
    (publicCommitments : List G2Projective) : Bool :=
  let x := evaluationPoint participantId
  let expectedPk :=
    (publicCommitments.foldl
      (fun (state : G2Projective × Scalar) commitment =>
        (state.1 + state.2 • commitment, state.2 * x))
      (0, 1)).1
  let actualPk := secretShare • Curve.g2Generator
  actualPk = expectedPk

/-- The two files agree on the evaluation domain. -/
theorem evaluationPoint_eq_session (nodeId : UInt32) :
    evaluationPoint nodeId = SovereignLattice.evaluationPoint nodeId :=
  rfl

/-- The verifier compares with the power sum of the commitments. -/
theorem verifyFeldmanShare_iff (participantId : UInt32) (secretShare : Scalar)
    (publicCommitments : List G2Projective) :
    verifyFeldmanShare participantId secretShare publicCommitments = true ↔
      secretShare • Curve.g2Generator =
        powerSum (SovereignLattice.evaluationPoint participantId)
          publicCommitments := by
  rw [← evaluationPoint_eq_session, verifyFeldmanShare, powerSum,
    decide_eq_true_eq]

end PedersenVss

/-- The polynomial's value at a node's point: the coefficient of the `k`-th power
of the id plus one is the `k`-th of the list. -/
def shareAt (coefficients : List Scalar) (nodeId : UInt32) : Scalar :=
  ∑ k : Fin coefficients.length,
    coefficients[k] * ((nodeId.toNat + 1 : Nat) : Scalar) ^ (k : Nat)

/-- The commitments to a polynomial's coefficients. -/
def commitmentsTo (coefficients : List Scalar) : List G2Projective :=
  coefficients.map fun coefficient => coefficient • Curve.g2Generator

theorem powerSum_eq_shareAt (coefficients : List Scalar) {nodeId : UInt32}
    (small : nodeId.toNat + 1 < 2 ^ 32) :
    powerSum (evaluationPoint nodeId) coefficients =
      shareAt coefficients nodeId := by
  rw [powerSum_eq_sum, shareAt, evaluationPoint_eq small]
  apply Finset.sum_congr rfl
  intro k _
  rw [smul_eq_mul, mul_comm]

/-- In a group of prime order the commitment check is the equation in the
field. -/
theorem smul_generator_eq_iff (generator : Curve.g2Generator ≠ (0 : Curve.G2))
    (share : Scalar) (coefficients : List Scalar) {nodeId : UInt32}
    (small : nodeId.toNat + 1 < 2 ^ 32) :
    share • Curve.g2Generator =
        powerSum (evaluationPoint nodeId) (commitmentsTo coefficients) ↔
      share = shareAt coefficients nodeId := by
  rw [commitmentsTo, powerSum_map_smul, powerSum_eq_shareAt coefficients small]
  exact (smul_left_injective Scalar generator).eq_iff

namespace DkgSession

theorem evaluateShareFor_eq (dealer : DkgSession) {nodeId : UInt32}
    (small : nodeId.toNat + 1 < 2 ^ 32) :
    dealer.evaluateShareFor nodeId =
      shareAt dealer.secretPolynomial nodeId :=
  powerSum_eq_shareAt dealer.secretPolynomial small

/-- The two ways in which a share comes in, and what is stored. -/
theorem processIncomingShare_cases (session : DkgSession) (fromNode : UInt32)
    (share : Scalar) (commitments : List G2Projective) :
    (commitments.length = session.threshold ∧
      share • Curve.g2Generator =
        powerSum (evaluationPoint session.nodeId) commitments ∧
      session.processIncomingShare fromNode share commitments =
        (.ok (),
          { session with
            receivedShares := session.receivedShares.insert fromNode share
            receivedCommitments :=
              session.receivedCommitments.insert fromNode commitments })) ∨
    (¬ (commitments.length = session.threshold ∧
        share • Curve.g2Generator =
          powerSum (evaluationPoint session.nodeId) commitments) ∧
      ∃ error, session.processIncomingShare fromNode share commitments =
        (.error error, session)) := by
  rw [processIncomingShare]
  by_cases length : commitments.length = session.threshold
  · rw [if_neg (not_not.mpr length)]
    dsimp only
    by_cases matching : share • Curve.g2Generator =
        powerSum (evaluationPoint session.nodeId) commitments
    · rw [if_neg (not_not.mpr matching)]
      exact Or.inl ⟨length, matching, rfl⟩
    · rw [if_pos matching]
      exact Or.inr ⟨fun both => matching both.2, _, rfl⟩
  · rw [if_pos length]
    exact Or.inr ⟨fun both => length both.1, _, rfl⟩

theorem processIncomingShare_ok_iff (session : DkgSession) (fromNode : UInt32)
    (share : Scalar) (commitments : List G2Projective) :
    (session.processIncomingShare fromNode share commitments).1 = .ok () ↔
      commitments.length = session.threshold ∧
        share • Curve.g2Generator =
          powerSum (evaluationPoint session.nodeId) commitments := by
  rcases session.processIncomingShare_cases fromNode share commitments with
    ⟨length, matching, accepted⟩ | ⟨rejected, error, result⟩
  · rw [accepted]
    exact iff_of_true rfl ⟨length, matching⟩
  · rw [result]
    exact iff_of_false nofun rejected

theorem processIncomingShare_error (session : DkgSession) (fromNode : UInt32)
    (share : Scalar) (commitments : List G2Projective) {error : DkgError}
    (failed : (session.processIncomingShare fromNode share commitments).1 =
      .error error) :
    (session.processIncomingShare fromNode share commitments).2 = session := by
  rcases session.processIncomingShare_cases fromNode share commitments with
    ⟨_, _, accepted⟩ | ⟨_, other, result⟩
  · rw [accepted] at failed
    cases failed
  · rw [result]

end DkgSession

/-- Share checking is exact, the same in both files, and agrees with what a
dealer evaluates; a refused share leaves the session as it was. -/
theorem feldman_checks_exact (generator : Curve.g2Generator ≠ (0 : Curve.G2))
    (session : DkgSession) (small : session.nodeId.toNat + 1 < 2 ^ 32)
    (fromNode : UInt32) (share : Scalar) (coefficients : List Scalar) :
    ((session.processIncomingShare fromNode share
        (commitmentsTo coefficients)).1 = .ok () ↔
      (commitmentsTo coefficients).length = session.threshold ∧
        share = shareAt coefficients session.nodeId) ∧
      (∀ dealer : DkgSession, dealer.secretPolynomial = coefficients →
        dealer.generateCommitments = commitmentsTo coefficients ∧
          dealer.evaluateShareFor session.nodeId =
            shareAt coefficients session.nodeId) ∧
      (PedersenVss.verifyFeldmanShare session.nodeId share
          (commitmentsTo coefficients) = true ↔
        share = shareAt coefficients session.nodeId) ∧
      ∀ (commitments : List G2Projective) (error : DkgError),
        (session.processIncomingShare fromNode share commitments).1 =
            .error error →
          ∀ dealer : UInt32,
            (session.processIncomingShare fromNode share
                commitments).2.receivedShares.get? dealer =
                session.receivedShares.get? dealer ∧
              (session.processIncomingShare fromNode share
                  commitments).2.receivedCommitments.get? dealer =
                session.receivedCommitments.get? dealer := by
  refine ⟨?_, ?_, ?_, ?_⟩
  · rw [DkgSession.processIncomingShare_ok_iff,
      smul_generator_eq_iff generator share coefficients small]
  · intro dealer polynomial
    subst polynomial
    exact ⟨rfl, dealer.evaluateShareFor_eq small⟩
  · rw [PedersenVss.verifyFeldmanShare_iff,
      smul_generator_eq_iff generator share coefficients small]
  · intro commitments error failed dealer
    rw [session.processIncomingShare_error fromNode share commitments failed]
    exact ⟨rfl, rfl⟩

end FeldmanChecks

section SmallSession

attribute [local instance] smallCurve

/-- Over the small curve the third node accepts the value of the polynomial
`5 + 7 x + 9 x ^ 2` at 3. -/
theorem feldman_checks_exact_small :
    let coefficients : List Scalar := [5, 7, 9].map Nat.cast
    let session := DkgSession.new 2 3 4 []
    (session.processIncomingShare 0 (107 : Nat) (commitmentsTo coefficients)).1 =
        .ok () ∧
      PedersenVss.verifyFeldmanShare session.nodeId (107 : Nat)
        (commitmentsTo coefficients) = true := by
  intro coefficients session
  have exactly := feldman_checks_exact (by decide) session (by decide) 0
    ((107 : Nat) : Scalar) coefficients
  have value : ((107 : Nat) : Scalar) = shareAt coefficients session.nodeId := by
    decide +kernel
  exact ⟨exactly.1.mpr ⟨rfl, value⟩, exactly.2.2.1.mpr value⟩

end SmallSession

end SovereignLattice
