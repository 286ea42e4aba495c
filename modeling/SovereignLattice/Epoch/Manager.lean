import SovereignLattice.Foundations.AssocMap
import SovereignLattice.Foundations.CheckedArithmetic
import SovereignLattice.Foundations.Runs

/-!
# Epochs and validator sets (`epoch.rs`)

A manager holds the current validator set and replaces it by the next one of a
transition that is meant for the current epoch and signed by a quorum.
-/

namespace SovereignLattice

/-- `[u8; 48]`. -/
abbrev BlsPubKey : Type :=
  Vector UInt8 48

/-- `Vec<u8>`. -/
abbrev QuorumCertificate : Type :=
  List UInt8

structure ValidatorSet where
  epochId : UInt64
  validators : AssocMap UInt32 BlsPubKey
  totalPower : UInt64
  deriving DecidableEq

/-- The error strings of the module.  `arithmeticOverflow` is the panic of
`total_power * 2`. -/
inductive EpochError where
  | arithmeticOverflow
  | unauthorizedSignerInQuorum
  | missingQuorumCertificate
  | invalidEpochTransition
  deriving DecidableEq, Repr

def EpochError.text : EpochError → String
  | .arithmeticOverflow => "attempt to multiply with overflow"
  | .unauthorizedSignerInQuorum => "UNAUTHORIZED_SIGNER_IN_QUORUM"
  | .missingQuorumCertificate => "MISSING_QUORUM_CERTIFICATE"
  | .invalidEpochTransition => "INVALID_EPOCH_TRANSITION"

namespace ValidatorSet

/-- `quorum_threshold`.  The product and the sum are those of a build with overflow
checks, where leaving `u64` panics: there is no threshold then. -/
def quorumThreshold (set : ValidatorSet) : Option UInt64 := do
  let doubled ← Checked.mul set.totalPower 2
  Checked.add (doubled / 3) 1

/-- The loop over the signers finds a stranger or counts all of them. -/
def verifyQuorum (set : ValidatorSet) (signers : Finset UInt32)
    (_qc : QuorumCertificate) : Except EpochError Unit :=
  if ¬ signers ⊆ set.validators.keySet then
    .error .unauthorizedSignerInQuorum
  else
    let votingPower := signers.card
    match set.quorumThreshold with
    | none => .error .arithmeticOverflow
    | some threshold =>
        if votingPower < threshold.toNat then
          .error .missingQuorumCertificate
        else
          .ok ()

end ValidatorSet

structure EpochTransition where
  currentEpoch : UInt64
  nextValidatorSet : ValidatorSet
  transitionQc : QuorumCertificate
  signers : Finset UInt32
  deriving DecidableEq

structure EpochManager where
  currentState : ValidatorSet
  deriving DecidableEq

namespace EpochManager

def applyTransition (manager : EpochManager) (transition : EpochTransition) :
    Except EpochError Unit × EpochManager :=
  if transition.currentEpoch ≠ manager.currentState.epochId then
    (.error .invalidEpochTransition, manager)
  else
    match manager.currentState.verifyQuorum transition.signers
        transition.transitionQc with
    | .error error => (.error error, manager)
    | .ok _ => (.ok (), { currentState := transition.nextValidatorSet })

/-- A call as a step; a rejected call is one too. -/
def step (manager : EpochManager) (transition : EpochTransition) :
    Option EpochManager :=
  some (manager.applyTransition transition).2

/-- The transition is for the current epoch and carries a quorum. -/
def Accepts (manager : EpochManager) (transition : EpochTransition) : Prop :=
  transition.currentEpoch = manager.currentState.epochId ∧
    manager.currentState.verifyQuorum transition.signers
      transition.transitionQc = .ok ()

/-- A call either installs the next set of an accepted transition or changes
nothing. -/
theorem applyTransition_cases (manager : EpochManager)
    (transition : EpochTransition) :
    (manager.Accepts transition ∧ manager.applyTransition transition =
      (.ok (), { currentState := transition.nextValidatorSet })) ∨
    (¬ manager.Accepts transition ∧ ∃ error,
      manager.applyTransition transition = (.error error, manager)) := by
  rw [applyTransition]
  by_cases current : transition.currentEpoch = manager.currentState.epochId
  · rw [if_neg (not_not.mpr current)]
    cases verdict : manager.currentState.verifyQuorum transition.signers
        transition.transitionQc with
    | error error =>
        refine Or.inr ⟨?_, error, rfl⟩
        intro accepted
        rw [accepted.2] at verdict
        cases verdict
    | ok => exact Or.inl ⟨⟨current, verdict⟩, rfl⟩
  · rw [if_pos current]
    exact Or.inr ⟨fun accepted => current accepted.1, _, rfl⟩

theorem applyTransition_ok_iff {manager : EpochManager}
    {transition : EpochTransition} :
    (manager.applyTransition transition).1 = .ok () ↔
      manager.Accepts transition := by
  rcases manager.applyTransition_cases transition with
    ⟨accepted, result⟩ | ⟨rejected, error, result⟩
  · rw [result]
    exact iff_of_true rfl accepted
  · rw [result]
    exact iff_of_false nofun rejected

theorem applyTransition_of_accepts {manager : EpochManager}
    {transition : EpochTransition} (accepted : manager.Accepts transition) :
    (manager.applyTransition transition).2.currentState =
      transition.nextValidatorSet := by
  rcases manager.applyTransition_cases transition with
    ⟨_, result⟩ | ⟨rejected, _⟩
  · rw [result]
  · exact absurd accepted rejected

theorem applyTransition_of_not_accepts {manager : EpochManager}
    {transition : EpochTransition} (rejected : ¬ manager.Accepts transition) :
    (manager.applyTransition transition).2 = manager := by
  rcases manager.applyTransition_cases transition with
    ⟨accepted, _⟩ | ⟨_, _, result⟩
  · exact absurd accepted rejected
  · rw [result]

end EpochManager

end SovereignLattice
