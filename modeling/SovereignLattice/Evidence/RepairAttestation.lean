import SovereignLattice.Evidence.Text

/-!
# Repair attestations (`repair_attestation.rs`)

The root of an eligible repair hashes two fingerprints and the problem id with
zero bytes between them.  Fingerprints have one length, so the zero bytes of a
problem id do no harm.
-/

namespace SovereignLattice

structure RepairAttestationInput where
  propagationEnvelopeDigest : String
  sentinelObservationDigest : String
  repairProblemId : String
  nativeReplayVerified : Bool
  deriving DecidableEq

structure RepairAttestation where
  schema : String
  attestedRoot : String
  repairProblemId : String
  eligible : Bool
  claimBoundary : String
  deriving DecidableEq

namespace RepairAttestationInput

def validSha256 (value : String) : Bool :=
  sha256Shape (fun byte => isAsciiHexdigit byte && !isAsciiUppercase byte) value

def eligible (input : RepairAttestationInput) : Bool :=
  input.nativeReplayVerified && validSha256 input.propagationEnvelopeDigest &&
    validSha256 input.sentinelObservationDigest &&
    !(trim input.repairProblemId = "" : Bool)

/-- What the hasher is fed. -/
def material (input : RepairAttestationInput) : Bytes :=
  utf8 "causal-assurance-repair-attestation/v1" ++ [0] ++
    utf8 input.propagationEnvelopeDigest ++ [0] ++
    utf8 input.sentinelObservationDigest ++ [0] ++
    utf8 input.repairProblemId

end RepairAttestationInput

def attestRepairRoot (input : RepairAttestationInput) : RepairAttestation where
  schema := "causal-assurance-repair-attestation/v1"
  attestedRoot :=
    if input.eligible then fingerprint input.material else "UNATTESTED"
  repairProblemId := input.repairProblemId
  eligible := input.eligible
  claimBoundary := "Sovereign-Lattice attests the supplied evidence root only. " ++
    "It does not independently prove target-protocol safety, native replay " ++
    "semantics, or global repair correctness."

namespace RepairAttestationInput

theorem length_of_validSha256 {value : String} (valid : validSha256 value = true) :
    (utf8 value).length = 71 := by
  rw [validSha256, sha256Shape, decide_eq_true_eq] at valid
  exact valid.1

/-- The material of an eligible input determines its texts. -/
theorem material_injective {first second : RepairAttestationInput}
    (firstEligible : first.eligible = true)
    (secondEligible : second.eligible = true)
    (same : first.material = second.material) : first = second := by
  simp only [eligible, Bool.and_eq_true] at firstEligible secondEligible
  rcases firstEligible with ⟨⟨⟨firstReplayed, firstEnvelope⟩, firstObservation⟩, _⟩
  rcases secondEligible with
    ⟨⟨⟨secondReplayed, secondEnvelope⟩, secondObservation⟩, _⟩
  have envelopes := (length_of_validSha256 firstEnvelope).trans
    (length_of_validSha256 secondEnvelope).symm
  have observations := (length_of_validSha256 firstObservation).trans
    (length_of_validSha256 secondObservation).symm
  simp only [material, List.append_assoc] at same
  have fields := List.append_cancel_left (List.append_cancel_left same)
  rcases List.append_inj fields envelopes with ⟨sameEnvelope, rest⟩
  rcases List.append_inj (List.append_cancel_left rest) observations with
    ⟨sameObservation, rest⟩
  have sameProblem := utf8_injective (List.append_cancel_left rest)
  cases first
  cases second
  rw [mk.injEq]
  exact ⟨utf8_injective sameEnvelope, utf8_injective sameObservation,
    sameProblem, firstReplayed.trans secondReplayed.symm⟩

/-- No length prefix starts like the material of a repair. -/
theorem head_material (input : RepairAttestationInput) :
    input.material.head? = some 0x63 := by
  have schema : (utf8 "causal-assurance-repair-attestation/v1").head? =
      some 0x63 := by
    decide +kernel
  simp only [material, List.append_assoc]
  rw [List.head?_append, schema]
  rfl

end RepairAttestationInput

end SovereignLattice
