import SovereignLattice.Crypto.ThresholdBls

/-!
# `DkgSession` (`dkg.rs`)

One node's side of the distributed key generation: its secret polynomial, the
shares and commitments that it deals, the check of what it receives and the
final sums.
-/

namespace SovereignLattice

variable [Curve]

structure DkgSession where
  nodeId : UInt32
  threshold : Nat
  totalNodes : Nat
  secretPolynomial : List Scalar
  receivedShares : AssocMap UInt32 Scalar
  receivedCommitments : AssocMap UInt32 (List G2Projective)

/-- The error strings of a session.  `indexOutOfBounds` is the panic of `[0]` on
an empty list of commitments. -/
inductive DkgError where
  | invalidCommitmentsLength
  | feldmanVssVerificationFailed
  | missingShareFromPeer
  | missingCommitmentsFromPeer
  | indexOutOfBounds
  deriving DecidableEq, Repr

def DkgError.text : DkgError → String
  | .invalidCommitmentsLength => "INVALID_COMMITMENTS_LENGTH"
  | .feldmanVssVerificationFailed => "FELDMAN_VSS_VERIFICATION_FAILED"
  | .missingShareFromPeer => "MISSING_SHARE_FROM_PEER"
  | .missingCommitmentsFromPeer => "MISSING_COMMITMENTS_FROM_PEER"
  | .indexOutOfBounds => "index out of bounds"

namespace DkgSession

/-- A new session, given the coefficients that it draws at random. -/
def new (nodeId : UInt32) (threshold totalNodes : Nat)
    (secretPolynomial : List Scalar) : DkgSession where
  nodeId := nodeId
  threshold := threshold
  totalNodes := totalNodes
  secretPolynomial := secretPolynomial
  receivedShares := ∅
  receivedCommitments := ∅

def generateCommitments (session : DkgSession) : List G2Projective :=
  session.secretPolynomial.map fun coeff => coeff • Curve.g2Generator

def evaluateShareFor (session : DkgSession) (nodeId : UInt32) : Scalar :=
  powerSum (evaluationPoint nodeId) session.secretPolynomial

def processIncomingShare (session : DkgSession) (fromNode : UInt32)
    (share : Scalar) (commitments : List G2Projective) :
    Except DkgError Unit × DkgSession :=
  if commitments.length ≠ session.threshold then
    (.error .invalidCommitmentsLength, session)
  else
    let expectedG2 := powerSum (evaluationPoint session.nodeId) commitments
    let actualG2 := share • Curve.g2Generator
    if actualG2 ≠ expectedG2 then
      (.error .feldmanVssVerificationFailed, session)
    else
      (.ok (),
        { session with
          receivedShares := session.receivedShares.insert fromNode share
          receivedCommitments :=
            session.receivedCommitments.insert fromNode commitments })

/-- One round of the loop of `finalize_dkg`. -/
def addPeer (session : DkgSession) (sums : Scalar × G2Projective)
    (peerId : UInt32) : Except DkgError (Scalar × G2Projective) :=
  if peerId = session.nodeId then
    .ok sums
  else
    match session.receivedShares.get? peerId with
    | none => .error .missingShareFromPeer
    | some share =>
        match session.receivedCommitments.get? peerId with
        | none => .error .missingCommitmentsFromPeer
        | some [] => .error .indexOutOfBounds
        | some (commit :: _) => .ok (sums.1 + share, sums.2 + commit)

/-- The final secret share and the master public key. -/
def finalizeDkg (session : DkgSession) (expectedParticipants : List UInt32) :
    Except DkgError (Scalar × G2Projective) :=
  match session.generateCommitments with
  | [] => .error .indexOutOfBounds
  | commit :: _ =>
      expectedParticipants.foldlM session.addPeer
        (session.evaluateShareFor session.nodeId, 0 + commit)

/-! ## Honest dealers -/

/-- What an honest dealer sends passes the check of an honest receiver with the
same threshold. -/
theorem processIncomingShare_honest {receiver dealer : DkgSession}
    (length : dealer.secretPolynomial.length = receiver.threshold) :
    receiver.processIncomingShare dealer.nodeId
        (dealer.evaluateShareFor receiver.nodeId) dealer.generateCommitments =
      (.ok (),
        { receiver with
          receivedShares := receiver.receivedShares.insert dealer.nodeId
            (dealer.evaluateShareFor receiver.nodeId)
          receivedCommitments := receiver.receivedCommitments.insert
            dealer.nodeId dealer.generateCommitments }) := by
  have sameLength :
      dealer.generateCommitments.length = receiver.threshold := by
    rw [generateCommitments, List.length_map, length]
  have verified :
      dealer.evaluateShareFor receiver.nodeId • Curve.g2Generator =
        powerSum (evaluationPoint receiver.nodeId)
          dealer.generateCommitments :=
    (powerSum_map_smul _ _ _).symm
  rw [processIncomingShare]
  rw [if_neg (not_not.mpr sameLength)]
  dsimp only
  rw [if_neg (not_not.mpr verified)]

end DkgSession

end SovereignLattice
