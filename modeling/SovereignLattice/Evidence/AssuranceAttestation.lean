import SovereignLattice.Evidence.Text
import SovereignLattice.Foundations.LengthPrefix

/-!
# Assurance attestations (`assurance_attestation.rs`)

A reviewer's decision about a certificate, the digest that binds its fields, and
the material that the reviewer's key signs.
-/

namespace SovereignLattice

/-- `ATTESTATION_SCHEMA`. -/
def attestationSchema : String :=
  "causal-assurance-attestation/v2"

/-- `SIGNATURE_SCHEMA`. -/
def signatureSchema : String :=
  "causal-assurance-attestation-signature/v1"

inductive ReviewDecision where
  | confirmed
  | rejected
  | abstained
  deriving DecidableEq, Repr

def ReviewDecision.asStr : ReviewDecision → String
  | .confirmed => "CONFIRMED"
  | .rejected => "REJECTED"
  | .abstained => "ABSTAINED"

structure AssuranceAttestation where
  schema : String
  certificateDigest : String
  reviewerId : String
  decision : ReviewDecision
  scopeDigest : String
  attestationDigest : String
  deriving DecidableEq

/-- The error strings of the module.  `fieldTooLong` is the panic of `expect`. -/
inductive AttestationError where
  | fieldTooLong
  | reviewerRequired
  | digestsNotFingerprints
  | certificateBindingMismatch
  | scopeBindingMismatch
  | attestationDigestMismatch
  | invalidHexadecimal
  | unexpectedSchemaOrAlgorithm
  | invalidSignerKeyId
  | keyIdMismatch
  | signerNotPinned
  | invalidPublicKey
  | signatureVerificationFailed
  deriving DecidableEq, Repr

def AttestationError.text : AttestationError → String
  | .fieldTooLong => "attestation field exceeds u32 length"
  | .reviewerRequired => "reviewer id is required"
  | .digestsNotFingerprints =>
      "certificate and scope digests must be SHA-256 fingerprints"
  | .certificateBindingMismatch => "certificate digest binding mismatch"
  | .scopeBindingMismatch => "scope digest binding mismatch"
  | .attestationDigestMismatch => "attestation digest mismatch"
  | .invalidHexadecimal => "invalid hexadecimal value"
  | .unexpectedSchemaOrAlgorithm =>
      "unexpected attestation signature schema or algorithm"
  | .invalidSignerKeyId => "invalid signer key id"
  | .keyIdMismatch => "public key fingerprint does not match envelope key id"
  | .signerNotPinned => "attestation signer is not the pinned expected key"
  | .invalidPublicKey => "invalid Ed25519 public key"
  | .signatureVerificationFailed =>
      "Ed25519 attestation signature verification failed"

namespace AssuranceAttestation

def validSha256 (value : String) : Bool :=
  sha256Shape isAsciiHexdigit value

def pushLengthPrefixed (output field : Bytes) :
    Except AttestationError Bytes :=
  pushField .fieldTooLong output field

def attestationMaterial (certificateDigest reviewerId : String)
    (decision : ReviewDecision) (scopeDigest : String) :
    Except AttestationError Bytes :=
  [attestationSchema, certificateDigest, reviewerId, decision.asStr,
    scopeDigest].foldlM
      (fun output field => pushLengthPrefixed output (utf8 field)) []

def signatureMaterial (attestationDigest keyId : String) :
    Except AttestationError Bytes :=
  [signatureSchema, attestationDigest, keyId].foldlM
    (fun output field => pushLengthPrefixed output (utf8 field)) []

def new (certificateDigest reviewerId : String) (decision : ReviewDecision)
    (scopeDigest : String) : Except AttestationError AssuranceAttestation :=
  if trim reviewerId = "" then
    .error .reviewerRequired
  else if !validSha256 certificateDigest ∨ !validSha256 scopeDigest then
    .error .digestsNotFingerprints
  else do
    let material ← attestationMaterial certificateDigest reviewerId decision
      scopeDigest
    .ok
      { schema := attestationSchema
        certificateDigest := certificateDigest
        reviewerId := reviewerId
        decision := decision
        scopeDigest := scopeDigest
        attestationDigest := fingerprint material }

def verifyBinding (attestation : AssuranceAttestation)
    (certificateDigest scopeDigest : String) : Except AttestationError Unit :=
  if attestation.certificateDigest ≠ certificateDigest then
    .error .certificateBindingMismatch
  else if attestation.scopeDigest ≠ scopeDigest then
    .error .scopeBindingMismatch
  else do
    let material ← attestationMaterial attestation.certificateDigest
      attestation.reviewerId attestation.decision attestation.scopeDigest
    let expected := fingerprint material
    if expected ≠ attestation.attestationDigest then
      .error .attestationDigestMismatch
    else
      .ok ()

/-! ## Materials -/

/-- The fields that an attestation digest hashes. -/
def attestationFields (certificateDigest reviewerId : String)
    (decision : ReviewDecision) (scopeDigest : String) : List String :=
  [attestationSchema, certificateDigest, reviewerId, decision.asStr, scopeDigest]

theorem attestationMaterial_ok {certificateDigest reviewerId : String}
    {decision : ReviewDecision} {scopeDigest : String} {material : Bytes} :
    attestationMaterial certificateDigest reviewerId decision scopeDigest =
        .ok material ↔
      (∀ field ∈ attestationFields certificateDigest reviewerId decision
        scopeDigest, (utf8 field).length < 2 ^ 32) ∧
        material = lengthPrefixedAll ((attestationFields certificateDigest
          reviewerId decision scopeDigest).map utf8) := by
  have written := @foldlM_pushField _ _ AttestationError.fieldTooLong utf8
    (attestationFields certificateDigest reviewerId decision scopeDigest) []
    material
  rw [List.nil_append] at written
  exact written

theorem signatureMaterial_ok {attestationDigest keyId : String}
    {material : Bytes} :
    signatureMaterial attestationDigest keyId = .ok material ↔
      (∀ field ∈ [signatureSchema, attestationDigest, keyId],
        (utf8 field).length < 2 ^ 32) ∧
        material = lengthPrefixedAll
          ([signatureSchema, attestationDigest, keyId].map utf8) := by
  have written := @foldlM_pushField _ _ AttestationError.fieldTooLong utf8
    [signatureSchema, attestationDigest, keyId] [] material
  rw [List.nil_append] at written
  exact written

theorem asStr_injective : Function.Injective ReviewDecision.asStr := by
  intro first second same
  cases first <;> cases second <;> first | rfl | exact absurd same (by decide)

/-- The material determines the fields that an attestation names. -/
theorem attestationMaterial_injective
    {certificateDigest reviewerId certificateDigest' reviewerId' : String}
    {decision decision' : ReviewDecision} {scopeDigest scopeDigest' : String}
    {material : Bytes}
    (first : attestationMaterial certificateDigest reviewerId decision
      scopeDigest = .ok material)
    (second : attestationMaterial certificateDigest' reviewerId' decision'
      scopeDigest' = .ok material) :
    certificateDigest = certificateDigest' ∧ reviewerId = reviewerId' ∧
      decision = decision' ∧ scopeDigest = scopeDigest' := by
  rcases attestationMaterial_ok.mp first with ⟨firstShort, encoded⟩
  rcases attestationMaterial_ok.mp second with ⟨secondShort, encoded'⟩
  have fields := lengthPrefixedAll_injective (List.forall_mem_map.mpr firstShort)
    (List.forall_mem_map.mpr secondShort) (encoded.symm.trans encoded')
  have texts := List.map_injective_iff.mpr utf8_injective fields
  simp only [attestationFields, List.cons.injEq, true_and, and_true] at texts
  exact ⟨texts.1, texts.2.1, asStr_injective texts.2.2.1, texts.2.2.2⟩

/-- What is signed determines the attestation digest and the key id. -/
theorem signatureMaterial_injective {attestationDigest keyId : String}
    {attestationDigest' keyId' : String} {material : Bytes}
    (first : signatureMaterial attestationDigest keyId = .ok material)
    (second : signatureMaterial attestationDigest' keyId' = .ok material) :
    attestationDigest = attestationDigest' ∧ keyId = keyId' := by
  rcases signatureMaterial_ok.mp first with ⟨firstShort, encoded⟩
  rcases signatureMaterial_ok.mp second with ⟨secondShort, encoded'⟩
  have fields := lengthPrefixedAll_injective (List.forall_mem_map.mpr firstShort)
    (List.forall_mem_map.mpr secondShort) (encoded.symm.trans encoded')
  have texts := List.map_injective_iff.mpr utf8_injective fields
  simp only [List.cons.injEq, true_and, and_true] at texts
  exact texts

/-- A new attestation holds its arguments and the digest of their material. -/
theorem new_ok {certificateDigest reviewerId : String}
    {decision : ReviewDecision} {scopeDigest : String}
    {attestation : AssuranceAttestation}
    (created : new certificateDigest reviewerId decision scopeDigest =
      .ok attestation) :
    ∃ material,
      attestationMaterial certificateDigest reviewerId decision scopeDigest =
          .ok material ∧
        attestation =
          { schema := attestationSchema
            certificateDigest := certificateDigest
            reviewerId := reviewerId
            decision := decision
            scopeDigest := scopeDigest
            attestationDigest := fingerprint material } := by
  rw [new] at created
  split at created
  · cases created
  split at created
  · cases created
  rcases bind_eq_ok.mp created with ⟨material, written, result⟩
  cases result
  exact ⟨material, written, rfl⟩

/-- A binding is accepted exactly for the digests that the attestation names,
when its own digest is that of its fields. -/
theorem verifyBinding_ok {attestation : AssuranceAttestation}
    {certificateDigest scopeDigest : String} :
    attestation.verifyBinding certificateDigest scopeDigest = .ok () ↔
      attestation.certificateDigest = certificateDigest ∧
        attestation.scopeDigest = scopeDigest ∧
        ∃ material,
          attestationMaterial attestation.certificateDigest
              attestation.reviewerId attestation.decision
              attestation.scopeDigest = .ok material ∧
            attestation.attestationDigest = fingerprint material := by
  rw [verifyBinding]
  constructor
  · intro accepted
    split at accepted
    · cases accepted
    rename_i certificate
    split at accepted
    · cases accepted
    rename_i scope
    rcases bind_eq_ok.mp accepted with ⟨material, written, compared⟩
    dsimp only at compared
    split at compared
    · cases compared
    rename_i digest
    exact ⟨not_not.mp certificate, not_not.mp scope, material, written,
      (not_not.mp digest).symm⟩
  · intro all
    rcases all with ⟨rfl, rfl, material, written, digest⟩
    rw [if_neg (not_not.mpr rfl), if_neg (not_not.mpr rfl), bind_eq_ok]
    refine ⟨material, written, ?_⟩
    dsimp only
    rw [if_neg (not_not.mpr digest.symm)]

end AssuranceAttestation

end SovereignLattice
