import SovereignLattice.Evidence.AssuranceAttestation

/-!
# Signed attestations (`assurance_attestation.rs`)

An envelope around an attestation: the reviewer's key, its fingerprint, and a
signature on the attestation digest.  Verification trusts the embedded key only
under a pinned fingerprint.
-/

namespace SovereignLattice

/-- The signature library, as far as the envelope depends on it. -/
class Ed25519 where
  SigningKey : Type
  VerifyingKey : Type
  /-- `SigningKey::verifying_key`. -/
  verifyingKey : SigningKey → VerifyingKey
  /-- `VerifyingKey::to_bytes`. -/
  toBytes : VerifyingKey → Vector UInt8 32
  /-- `VerifyingKey::from_bytes`. -/
  fromBytes : Vector UInt8 32 → Option VerifyingKey
  /-- `Signer::sign`, as the bytes of the signature. -/
  sign : SigningKey → Bytes → Vector UInt8 64
  /-- `Verifier::verify`. -/
  verify : VerifyingKey → Bytes → Vector UInt8 64 → Bool
  fromBytes_toBytes : ∀ key, fromBytes (toBytes key) = some key
  toBytes_of_fromBytes : ∀ bytes key,
    fromBytes bytes = some key → toBytes key = bytes

/-- A record of what the holders of keys have signed, and with which result. -/
abbrev SigningLog [Ed25519] : Type :=
  Ed25519.SigningKey → Bytes → Vector UInt8 64 → Prop

/-- A signature verifies under a key exactly when the key's holder has signed
exactly that message. -/
def Ed25519.Ideal [Ed25519] (signed : SigningLog) : Prop :=
  ∀ (key : Ed25519.VerifyingKey) (msg : Bytes) (signature : Vector UInt8 64),
    Ed25519.verify key msg signature = true ↔
      ∃ holder, Ed25519.verifyingKey holder = key ∧ signed holder msg signature

structure SignedAssuranceAttestation where
  schema : String
  attestation : AssuranceAttestation
  algorithm : String
  keyId : String
  publicKeyHex : String
  signatureHex : String
  deriving DecidableEq

/-- `format!("{byte:02x}")` for each byte. -/
def hexEncode (bytes : Bytes) : String :=
  lowerHex bytes

/-- The value of a hexadecimal digit of either case. -/
def hexValue (digit : UInt8) : UInt8 :=
  if digit ≤ 57 then
    digit - 48
  else if digit ≤ 70 then
    digit - 55
  else
    digit - 87

/-- `hex_decode::<N>`.  Both bytes of a slice are digits, so `from_str_radix` does
not fail. -/
def hexDecode (width : Nat) (value : String) :
    Except AttestationError (Vector UInt8 width) :=
  let bytes := utf8 value
  if bytes.length ≠ width * 2 ∨ !bytes.all isAsciiHexdigit then
    .error .invalidHexadecimal
  else
    .ok (Vector.ofFn fun index =>
      hexValue (bytes.getD (2 * index) 0) * 16 +
        hexValue (bytes.getD (2 * index + 1) 0))

def signerKeyId (publicKey : Vector UInt8 32) : String :=
  fingerprint publicKey.toList

namespace SignedAssuranceAttestation

open AssuranceAttestation

variable [Ed25519]

def sign (attestation : AssuranceAttestation)
    (signingKey : Ed25519.SigningKey) :
    Except AttestationError SignedAssuranceAttestation := do
  attestation.verifyBinding attestation.certificateDigest attestation.scopeDigest
  let publicKey := Ed25519.toBytes (Ed25519.verifyingKey signingKey)
  let keyId := signerKeyId publicKey
  let material ← signatureMaterial attestation.attestationDigest keyId
  let signature := Ed25519.sign signingKey material
  .ok
    { schema := signatureSchema
      attestation := attestation
      algorithm := "Ed25519"
      keyId := keyId
      publicKeyHex := hexEncode publicKey.toList
      signatureHex := hexEncode signature.toList }

def verify (signed : SignedAssuranceAttestation)
    (expectedKeyId certificateDigest scopeDigest : String) :
    Except AttestationError Unit :=
  if signed.schema ≠ signatureSchema ∨ signed.algorithm ≠ "Ed25519" then
    .error .unexpectedSchemaOrAlgorithm
  else if !validSha256 expectedKeyId ∨ !validSha256 signed.keyId then
    .error .invalidSignerKeyId
  else do
    signed.attestation.verifyBinding certificateDigest scopeDigest
    let publicKey ← hexDecode 32 signed.publicKeyHex
    let actualKeyId := signerKeyId publicKey
    if actualKeyId ≠ signed.keyId then
      .error .keyIdMismatch
    else if actualKeyId ≠ expectedKeyId then
      .error .signerNotPinned
    else
      match Ed25519.fromBytes publicKey with
      | none => .error .invalidPublicKey
      | some verifyingKey => do
          let signature ← hexDecode 64 signed.signatureHex
          let material ← signatureMaterial
            signed.attestation.attestationDigest actualKeyId
          if Ed25519.verify verifyingKey material signature then
            .ok ()
          else
            .error .signatureVerificationFailed

end SignedAssuranceAttestation

/-! ## Hexadecimal round trip -/

theorem getD_hexDigits (bytes : Bytes) (index : Nat) (inside : index < bytes.length) :
    let digits := bytes.flatMap fun byte =>
      [hexDigitByte (byte.toNat / 16), hexDigitByte (byte.toNat % 16)]
    digits.getD (2 * index) 0 = hexDigitByte (bytes[index].toNat / 16) ∧
      digits.getD (2 * index + 1) 0 = hexDigitByte (bytes[index].toNat % 16) := by
  induction bytes generalizing index with
  | nil => exact absurd inside (Nat.not_lt_zero _)
  | cons byte rest inductionHypothesis =>
      cases index with
      | zero => exact ⟨rfl, rfl⟩
      | succ index =>
          have inRest : index < rest.length := Nat.lt_of_succ_lt_succ inside
          exact inductionHypothesis index inRest

theorem hexValue_hexDigitByte {byte : UInt8} :
    hexValue (hexDigitByte (byte.toNat / 16)) * 16 +
      hexValue (hexDigitByte (byte.toNat % 16)) = byte := by
  have table : ∀ digit : Fin 16,
      (hexValue (hexDigitByte digit)).toNat = digit := by
    decide +kernel
  have small := byte.toNat_lt
  have high := table ⟨byte.toNat / 16, by omega⟩
  have low := table ⟨byte.toNat % 16, by omega⟩
  dsimp only at high low
  apply UInt8.toNat_inj.mp
  rw [UInt8.toNat_add, UInt8.toNat_mul, high, low]
  have sixteen : (16 : UInt8).toNat = 16 := rfl
  rw [sixteen]
  omega

/-- Decoding gives the encoded bytes back. -/
theorem hexDecode_hexEncode {width : Nat} (bytes : Vector UInt8 width) :
    hexDecode width (hexEncode bytes.toList) = .ok bytes := by
  have shape : ¬ ((utf8 (hexEncode bytes.toList)).length ≠ width * 2 ∨
      (!(utf8 (hexEncode bytes.toList)).all isAsciiHexdigit) = true) := by
    rw [not_or, not_not, hexEncode, length_utf8_lowerHex, Vector.length_toList]
    refine ⟨Nat.mul_comm 2 width, ?_⟩
    rw [Bool.not_eq_true, Bool.not_eq_false', List.all_eq_true]
    intro byte member
    exact (utf8_lowerHex_digits _ byte member).1
  rw [hexDecode]
  rw [if_neg shape, hexEncode, utf8_lowerHex]
  congr 1
  apply Vector.ext
  intro index inside
  rw [Vector.getElem_ofFn]
  have digits := getD_hexDigits bytes.toList index (by simpa using inside)
  dsimp only at digits ⊢
  rw [digits.1, digits.2, hexValue_hexDigitByte, Vector.getElem_toList]

namespace SignedAssuranceAttestation

open AssuranceAttestation

/-- The fields of the signed material are short. -/
theorem signatureMaterial_fingerprints (attested key : Bytes) :
    signatureMaterial (fingerprint attested) (fingerprint key) =
      .ok (lengthPrefixedAll
        ([signatureSchema, fingerprint attested, fingerprint key].map utf8)) := by
  have schema : (utf8 signatureSchema).length < 2 ^ 32 := by decide +kernel
  rw [signatureMaterial_ok]
  refine ⟨?_, rfl⟩
  simp only [List.forall_mem_cons, length_utf8_fingerprint]
  exact ⟨schema, by decide, by decide, by simp⟩

theorem validSha256_fingerprint (bytes : Bytes) :
    validSha256 (fingerprint bytes) = true :=
  sha256Shape_fingerprint (fun _ digit _ => digit) bytes

variable [Ed25519]

/-- Signing an attestation whose digest is that of its fields. -/
theorem sign_eq {attestation : AssuranceAttestation} {material : Bytes}
    (written : attestationMaterial attestation.certificateDigest
      attestation.reviewerId attestation.decision attestation.scopeDigest =
        .ok material)
    (digest : attestation.attestationDigest = fingerprint material)
    (signingKey : Ed25519.SigningKey) :
    ∃ msg,
      signatureMaterial attestation.attestationDigest
          (signerKeyId (Ed25519.toBytes (Ed25519.verifyingKey signingKey))) =
        .ok msg ∧
      sign attestation signingKey = .ok
        { schema := signatureSchema
          attestation := attestation
          algorithm := "Ed25519"
          keyId := signerKeyId
            (Ed25519.toBytes (Ed25519.verifyingKey signingKey))
          publicKeyHex := hexEncode
            (Ed25519.toBytes (Ed25519.verifyingKey signingKey)).toList
          signatureHex := hexEncode (Ed25519.sign signingKey msg).toList } := by
  have msg := signatureMaterial_fingerprints material
    (Ed25519.toBytes (Ed25519.verifyingKey signingKey)).toList
  rw [← digest, ← signerKeyId] at msg
  have bound : attestation.verifyBinding attestation.certificateDigest
      attestation.scopeDigest = .ok () :=
    verifyBinding_ok.mpr ⟨rfl, rfl, material, written, digest⟩
  refine ⟨_, msg, ?_⟩
  rw [sign, bound, bind_eq_ok]
  refine ⟨(), rfl, ?_⟩
  dsimp only
  rw [msg]
  rfl

/-- The checks of `verify`, all together. -/
theorem verify_ok {signed : SignedAssuranceAttestation}
    {expectedKeyId certificateDigest scopeDigest : String} :
    signed.verify expectedKeyId certificateDigest scopeDigest = .ok () ↔
      (signed.schema = signatureSchema ∧ signed.algorithm = "Ed25519" ∧
        validSha256 expectedKeyId = true ∧ validSha256 signed.keyId = true) ∧
        signed.attestation.verifyBinding certificateDigest scopeDigest =
          .ok () ∧
        ∃ publicKey, hexDecode 32 signed.publicKeyHex = .ok publicKey ∧
          signerKeyId publicKey = signed.keyId ∧
          signerKeyId publicKey = expectedKeyId ∧
          ∃ verifyingKey, Ed25519.fromBytes publicKey = some verifyingKey ∧
            ∃ signature, hexDecode 64 signed.signatureHex = .ok signature ∧
              ∃ msg, signatureMaterial signed.attestation.attestationDigest
                  (signerKeyId publicKey) = .ok msg ∧
                Ed25519.verify verifyingKey msg signature = true := by
  rw [verify]
  constructor
  · intro accepted
    split at accepted
    · cases accepted
    rename_i labels
    split at accepted
    · cases accepted
    rename_i shapes
    rcases bind_eq_ok.mp accepted with ⟨_, bound, accepted⟩
    rcases bind_eq_ok.mp accepted with ⟨publicKey, decoded, accepted⟩
    dsimp only at accepted
    split at accepted
    · cases accepted
    rename_i enveloped
    split at accepted
    · cases accepted
    rename_i pinned
    split at accepted
    · cases accepted
    rename_i verifyingKey known
    rcases bind_eq_ok.mp accepted with ⟨signature, read, accepted⟩
    rcases bind_eq_ok.mp accepted with ⟨msg, written, accepted⟩
    split at accepted
    · rename_i verified
      rw [not_or, not_not, not_not] at labels
      rw [not_or, Bool.not_eq_true, Bool.not_eq_true, Bool.not_eq_false',
        Bool.not_eq_false'] at shapes
      exact ⟨⟨labels.1, labels.2, shapes⟩, bound, publicKey, decoded,
        not_not.mp enveloped, not_not.mp pinned, verifyingKey, known, signature,
        read, msg, written, verified⟩
    · cases accepted
  · intro all
    rcases all with ⟨⟨schema, algorithm, expected, held⟩, bound, publicKey, decoded,
      enveloped, pinned, verifyingKey, known, signature, read, msg, written,
      verified⟩
    rw [schema, algorithm, expected, held, if_neg (by simp), if_neg (by decide),
      bind_eq_ok]
    refine ⟨(), bound, bind_eq_ok.mpr ⟨publicKey, decoded, ?_⟩⟩
    dsimp only
    rw [if_neg (not_not.mpr enveloped), if_neg (not_not.mpr pinned), known]
    dsimp only
    rw [read, written]
    exact if_pos verified

theorem attestation_of_sign {attestation : AssuranceAttestation}
    {signingKey : Ed25519.SigningKey} {envelope : SignedAssuranceAttestation}
    (signed : sign attestation signingKey = .ok envelope) :
    envelope.attestation = attestation := by
  rcases bind_eq_ok.mp signed with ⟨_, _, continued⟩
  rcases bind_eq_ok.mp continued with ⟨_, _, result⟩
  cases result
  rfl

/-- Keys with one id are one key, where the hash is injective. -/
theorem verifyingKey_eq_of_signerKeyId {inputs : Set Bytes}
    (injective : Set.InjOn sha256 inputs) {first second : Ed25519.VerifyingKey}
    (firstInput : (Ed25519.toBytes first).toList ∈ inputs)
    (secondInput : (Ed25519.toBytes second).toList ∈ inputs)
    (sameId : signerKeyId (Ed25519.toBytes first) =
      signerKeyId (Ed25519.toBytes second)) : first = second := by
  rw [signerKeyId, signerKeyId, fingerprint_inj] at sameId
  have sameBytes := Vector.toList_inj.mp (injective firstInput secondInput sameId)
  have decoded := congrArg Ed25519.fromBytes sameBytes
  rw [Ed25519.fromBytes_toBytes, Ed25519.fromBytes_toBytes, Option.some.injEq]
    at decoded
  exact decoded

/-- An attestation that its holder signs verifies under the holder's key id. -/
theorem verify_sign {signed : SigningLog} (ideal : Ed25519.Ideal signed)
    {signingKey : Ed25519.SigningKey}
    {certificateDigest reviewerId scopeDigest : String} {decision : ReviewDecision}
    {attestation : AssuranceAttestation}
    (created : AssuranceAttestation.new certificateDigest reviewerId decision
      scopeDigest = .ok attestation)
    (performed : ∀ msg, signatureMaterial attestation.attestationDigest
        (signerKeyId (Ed25519.toBytes (Ed25519.verifyingKey signingKey))) = .ok msg →
      signed signingKey msg (Ed25519.sign signingKey msg)) :
    ∃ envelope, sign attestation signingKey = .ok envelope ∧
      envelope.verify envelope.keyId certificateDigest scopeDigest = .ok () := by
  rcases new_ok created with ⟨material, written, fields⟩
  have named : attestationMaterial attestation.certificateDigest
      attestation.reviewerId attestation.decision attestation.scopeDigest =
        .ok material := by
    rw [fields]
    exact written
  have digest : attestation.attestationDigest = fingerprint material := by
    rw [fields]
  have certificate : attestation.certificateDigest = certificateDigest := by
    rw [fields]
  have scope : attestation.scopeDigest = scopeDigest := by
    rw [fields]
  obtain ⟨msg, msgWritten, envelope⟩ := sign_eq named digest signingKey
  refine ⟨_, envelope, ?_⟩
  rw [verify_ok]
  refine ⟨⟨rfl, rfl, validSha256_fingerprint _, validSha256_fingerprint _⟩,
    verifyBinding_ok.mpr ⟨certificate, scope, material, named, digest⟩, _,
    hexDecode_hexEncode _, rfl, rfl, _, Ed25519.fromBytes_toBytes _, _,
    hexDecode_hexEncode _, msg, msgWritten, ?_⟩
  rw [ideal]
  exact ⟨signingKey, rfl, performed msg msgWritten⟩

/-- Honestly signed attestations verify under their signer's key id, the call's own
signature being on record; what verifies under a pinned key id was signed by that
key's holder, for exactly the fields that it names. -/
theorem signed_attestations_sound_and_complete {signed : SigningLog}
    (ideal : Ed25519.Ideal signed) {inputs : Set Bytes}
    (injective : Set.InjOn sha256 inputs) :
    (∀ (signingKey : Ed25519.SigningKey) (certificateDigest reviewerId : String)
        (decision : ReviewDecision) (scopeDigest : String)
        (attestation : AssuranceAttestation),
      AssuranceAttestation.new certificateDigest reviewerId decision
          scopeDigest = .ok attestation →
        (∀ msg, signatureMaterial attestation.attestationDigest
            (signerKeyId (Ed25519.toBytes (Ed25519.verifyingKey signingKey))) =
              .ok msg →
          signed signingKey msg (Ed25519.sign signingKey msg)) →
          ∃ envelope, sign attestation signingKey = .ok envelope ∧
            envelope.verify envelope.keyId certificateDigest scopeDigest =
              .ok ()) ∧
      ∀ (envelope : SignedAssuranceAttestation)
        (expectedKeyId certificateDigest scopeDigest : String),
        envelope.verify expectedKeyId certificateDigest scopeDigest = .ok () →
          envelope.attestation.certificateDigest = certificateDigest ∧
            envelope.attestation.scopeDigest = scopeDigest ∧
            ∃ holder material msg signature,
              signerKeyId (Ed25519.toBytes (Ed25519.verifyingKey holder)) =
                  expectedKeyId ∧
                attestationMaterial envelope.attestation.certificateDigest
                    envelope.attestation.reviewerId
                    envelope.attestation.decision
                    envelope.attestation.scopeDigest = .ok material ∧
                envelope.attestation.attestationDigest = fingerprint material ∧
                signatureMaterial (fingerprint material) expectedKeyId =
                  .ok msg ∧
                signed holder msg signature ∧
                (∀ other : Ed25519.VerifyingKey,
                  (Ed25519.toBytes other).toList ∈ inputs →
                    (Ed25519.toBytes
                        (Ed25519.verifyingKey holder)).toList ∈ inputs →
                      signerKeyId (Ed25519.toBytes other) = expectedKeyId →
                        other = Ed25519.verifyingKey holder) ∧
                (∀ (otherDigest otherKeyId : String),
                  signatureMaterial otherDigest otherKeyId = .ok msg →
                    otherDigest = fingerprint material ∧
                      otherKeyId = expectedKeyId) ∧
                ∀ (otherCertificate otherReviewer : String)
                  (otherDecision : ReviewDecision) (otherScope : String)
                  (otherMaterial : Bytes),
                  attestationMaterial otherCertificate otherReviewer
                      otherDecision otherScope = .ok otherMaterial →
                    material ∈ inputs → otherMaterial ∈ inputs →
                      fingerprint otherMaterial = fingerprint material →
                        otherCertificate =
                            envelope.attestation.certificateDigest ∧
                          otherReviewer = envelope.attestation.reviewerId ∧
                          otherDecision = envelope.attestation.decision ∧
                          otherScope = envelope.attestation.scopeDigest := by
  constructor
  · intro signingKey certificateDigest reviewerId decision scopeDigest attestation
      created performed
    exact verify_sign ideal created performed
  · intro envelope expectedKeyId certificateDigest scopeDigest accepted
    rcases verify_ok.mp accepted with ⟨_, bound, publicKey, _, _, pinned,
      verifyingKey, known, signature, _, msg, msgWritten, verified⟩
    rcases verifyBinding_ok.mp bound with
      ⟨certificate, scope, material, written, digest⟩
    rcases (ideal _ _ _).mp verified with ⟨holder, key, recorded⟩
    have bytes : Ed25519.toBytes (Ed25519.verifyingKey holder) = publicKey := by
      rw [key]
      exact Ed25519.toBytes_of_fromBytes publicKey verifyingKey known
    rw [digest, pinned] at msgWritten
    refine ⟨certificate, scope, holder, material, msg, signature, ?_, written,
      digest, msgWritten, recorded, ?_, ?_, ?_⟩
    · rw [bytes, pinned]
    · intro other otherInput holderInput samePin
      rw [← pinned, ← bytes] at samePin
      exact verifyingKey_eq_of_signerKeyId injective otherInput holderInput samePin
    · intro otherDigest otherKeyId otherWritten
      exact signatureMaterial_injective otherWritten msgWritten
    · intro otherCertificate otherReviewer otherDecision otherScope otherMaterial
        otherWritten materialInput otherInput sameDigest
      have sameMaterial := injective otherInput materialInput
        (fingerprint_inj.mp sameDigest)
      subst sameMaterial
      exact attestationMaterial_injective otherWritten written

end SignedAssuranceAttestation

/-! ## A signed confirmation -/

section KeyedHash

/-- A stand-in for the library: a key verifies what it hashes to itself. -/
@[reducible]
def keyedHash : Ed25519 where
  SigningKey := Vector UInt8 32
  VerifyingKey := Vector UInt8 32
  verifyingKey := id
  toBytes := id
  fromBytes := some
  sign key msg := sha256 (key.toList ++ msg) ++ sha256 (msg ++ key.toList)
  verify key msg signature :=
    signature = sha256 (key.toList ++ msg) ++ sha256 (msg ++ key.toList)
  fromBytes_toBytes _ := rfl
  toBytes_of_fromBytes _ _ decoded := Option.some.inj decoded.symm

attribute [local instance] keyedHash

theorem ideal_keyedHash : Ed25519.Ideal
    fun holder msg signature => signature = Ed25519.sign holder msg := by
  intro key msg signature
  constructor
  · intro verified
    exact ⟨key, rfl, of_decide_eq_true verified⟩
  · intro found
    rcases found with ⟨holder, rfl, same⟩
    exact decide_eq_true same

/-- What is hashed for a reviewer's confirmation. -/
def confirmedMaterial : Bytes :=
  lengthPrefixedAll ((AssuranceAttestation.attestationFields (fingerprint [])
    "reviewer-1" .confirmed (fingerprint [0])).map utf8)

def reviewerKey : Vector UInt8 32 :=
  Vector.replicate 32 7

/-- The bytes that are hashed for the confirmation and for its key id. -/
def confirmedInputs : Set Bytes :=
  {confirmedMaterial, reviewerKey.toList}

theorem injOn_confirmedInputs : Set.InjOn sha256 confirmedInputs := by
  have apart : sha256 confirmedMaterial ≠ sha256 reviewerKey.toList := by
    decide +kernel
  rintro first (rfl | rfl) second (rfl | rfl) same
  · rfl
  · exact absurd same apart
  · exact absurd same.symm apart
  · rfl

theorem confirmedMaterial_written : AssuranceAttestation.attestationMaterial
    (fingerprint []) "reviewer-1" .confirmed (fingerprint [0]) =
      .ok confirmedMaterial := by
  have fixed : (utf8 attestationSchema).length < 2 ^ 32 ∧
      (utf8 "reviewer-1").length < 2 ^ 32 ∧
      (utf8 ReviewDecision.confirmed.asStr).length < 2 ^ 32 := by
    decide +kernel
  rw [AssuranceAttestation.attestationMaterial_ok]
  refine ⟨?_, rfl⟩
  simp only [AssuranceAttestation.attestationFields, List.forall_mem_cons,
    length_utf8_fingerprint]
  exact ⟨fixed.1, by decide, fixed.2.1, fixed.2.2, by decide, by simp⟩

/-- A reviewer's confirmation is signed and verifies, and among the inputs of the hash
nothing else has its digest or its key id. -/
theorem signed_attestations_sound_and_complete_confirmed :
    ∃ attestation envelope holder,
      AssuranceAttestation.new (fingerprint []) "reviewer-1" .confirmed
          (fingerprint [0]) = .ok attestation ∧
        SignedAssuranceAttestation.sign attestation reviewerKey = .ok envelope ∧
        envelope.verify envelope.keyId (fingerprint []) (fingerprint [0]) =
          .ok () ∧
        signerKeyId
          (Ed25519.toBytes (Ed25519.verifyingKey holder)) = envelope.keyId ∧
        (∀ other : Ed25519.VerifyingKey,
          (Ed25519.toBytes other).toList ∈ confirmedInputs →
            (Ed25519.toBytes (Ed25519.verifyingKey holder)).toList ∈
                confirmedInputs →
              signerKeyId (Ed25519.toBytes other) =
                  envelope.keyId →
                other = Ed25519.verifyingKey holder) ∧
        ∀ otherCertificate otherReviewer otherDecision otherScope otherMaterial,
          AssuranceAttestation.attestationMaterial otherCertificate otherReviewer
              otherDecision otherScope = .ok otherMaterial →
            otherMaterial ∈ confirmedInputs →
              fingerprint otherMaterial = fingerprint confirmedMaterial →
                otherCertificate = fingerprint [] ∧
                  otherReviewer = "reviewer-1" ∧ otherDecision = .confirmed ∧
                  otherScope = fingerprint [0] := by
  have created : ∃ attestation, AssuranceAttestation.new (fingerprint [])
      "reviewer-1" .confirmed (fingerprint [0]) = .ok attestation := by
    have valid := fun bytes =>
      SignedAssuranceAttestation.validSha256_fingerprint bytes
    rw [AssuranceAttestation.new, if_neg (by decide), valid, valid,
      if_neg (by decide), confirmedMaterial_written]
    exact ⟨_, rfl⟩
  rcases created with ⟨attestation, created⟩
  have results :=
    SignedAssuranceAttestation.signed_attestations_sound_and_complete
      ideal_keyedHash injOn_confirmedInputs
  obtain ⟨envelope, signed, verified⟩ := results.1 reviewerKey _ _ _ _ attestation
    created (fun _ _ => rfl)
  obtain ⟨_, _, holder, material, _, _, pinned, written, _, _, _, sameKey, _, binds⟩ :=
    results.2 envelope envelope.keyId _ _ verified
  have carried : envelope.attestation = attestation :=
    SignedAssuranceAttestation.attestation_of_sign signed
  rcases AssuranceAttestation.new_ok created with ⟨found, foundWritten, fields⟩
  rw [confirmedMaterial_written, Except.ok.injEq] at foundWritten
  rw [carried, fields] at written binds
  rw [confirmedMaterial_written, Except.ok.injEq] at written
  subst written
  refine ⟨attestation, envelope, holder, created, signed, verified, pinned, sameKey, ?_⟩
  intro otherCertificate otherReviewer otherDecision otherScope otherMaterial
    otherWritten otherInput sameDigest
  exact binds _ _ _ _ otherMaterial otherWritten (Or.inl rfl) otherInput sameDigest

end KeyedHash

end SovereignLattice
