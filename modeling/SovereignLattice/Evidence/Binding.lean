import SovereignLattice.Evidence.AssuranceAttestation
import SovereignLattice.Evidence.PackageRoot
import SovereignLattice.Evidence.RepairAttestation

/-!
# Evidence digests bind what they name

Where SHA-256 tells the inputs involved apart, equal roots are roots of equal
packages, equal attested roots of equal repairs, and equal attestation digests of
equal attestations; and no two kinds of hashed or signed material coincide.
-/

namespace SovereignLattice

/-- The arguments of `canonical_package_root`. -/
structure EvidencePackage where
  runId : String
  subject : String
  artifacts : List RootArtifact
  deriving DecidableEq

namespace EvidencePackage

def root (package : EvidencePackage) : Except PackageRootError String :=
  canonicalPackageRoot package.runId package.subject package.artifacts

def material (package : EvidencePackage) : Except PackageRootError Bytes :=
  PackageRoot.material package.runId package.subject package.artifacts

/-- Everything that is hashed for a package's root. -/
def hashedInputs (package : EvidencePackage) : Set Bytes :=
  {input | package.material = .ok input ∨
    ∃ artifact ∈ package.artifacts, artifact.bytes = input}

/-- Accepted packages with one root are one package. -/
theorem eq_of_root {first second : EvidencePackage} {digest : String}
    {inputs : Set Bytes} (injective : Set.InjOn sha256 inputs)
    (firstInputs : first.hashedInputs ⊆ inputs)
    (secondInputs : second.hashedInputs ⊆ inputs)
    (firstRoot : first.root = .ok digest)
    (secondRoot : second.root = .ok digest) : first = second := by
  rcases bind_eq_ok.mp firstRoot with ⟨firstMaterial, written, hashed⟩
  rcases bind_eq_ok.mp secondRoot with ⟨secondMaterial, written', hashed'⟩
  have digests : fingerprint firstMaterial = fingerprint secondMaterial := by
    rw [Except.ok.injEq] at hashed hashed'
    exact hashed.trans hashed'.symm
  have materials : firstMaterial = secondMaterial :=
    injective (firstInputs (Or.inl written)) (secondInputs (Or.inl written'))
      (fingerprint_inj.mp digests)
  rcases PackageRoot.material_ok.mp written with
    ⟨⟨_, _, shortRun, shortSubject, _, fit⟩, encoded⟩
  rcases PackageRoot.material_ok.mp written' with
    ⟨⟨_, _, shortRun', shortSubject', _, fit'⟩, encoded'⟩
  have fields := lengthPrefixedAll_injective
    (fit.packageFields_short shortRun shortSubject)
    (fit'.packageFields_short shortRun' shortSubject')
    (encoded.symm.trans (materials.trans encoded'))
  have texts := List.map_injective_iff.mpr utf8_injective fields
  simp only [PackageRoot.packageFields, List.cons_append, List.nil_append,
    List.cons.injEq, true_and] at texts
  rcases texts with ⟨sameRun, sameSubject, sameArtifacts⟩
  have artifacts : first.artifacts = second.artifacts := by
    apply fit.eq_of_fields fit' _ sameArtifacts
    intro left member right other sameDigest
    exact injective (firstInputs (Or.inr ⟨left, member, rfl⟩))
      (secondInputs (Or.inr ⟨right, other, rfl⟩)) sameDigest
  cases first
  cases second
  rw [mk.injEq]
  exact ⟨sameRun, sameSubject, artifacts⟩

end EvidencePackage

/-! ## Kinds of material -/

inductive MaterialKind where
  | package
  | attestation
  | signature
  | repair
  deriving DecidableEq, Repr

/-- The bytes that the engine hashes or signs for a kind of evidence. -/
inductive IsMaterial : MaterialKind → Bytes → Prop
  | package {package : EvidencePackage} {bytes : Bytes} :
      package.material = .ok bytes → IsMaterial .package bytes
  | attestation {certificateDigest reviewerId : String}
      {decision : ReviewDecision} {scopeDigest : String} {bytes : Bytes} :
      AssuranceAttestation.attestationMaterial certificateDigest reviewerId
        decision scopeDigest = .ok bytes → IsMaterial .attestation bytes
  | signature {attestationDigest keyId : String} {bytes : Bytes} :
      AssuranceAttestation.signatureMaterial attestationDigest keyId = .ok bytes →
        IsMaterial .signature bytes
  | repair (input : RepairAttestationInput) :
      IsMaterial .repair input.material

/-- The first field of a length-prefixed material. -/
def MaterialKind.schema : MaterialKind → String
  | .package => signedPackageRootSchema
  | .attestation => attestationSchema
  | .signature => signatureSchema
  | .repair => "causal-assurance-repair-attestation/v1"

theorem MaterialKind.schema_injective : Function.Injective MaterialKind.schema := by
  intro first second same
  cases first <;> cases second <;> first | rfl | exact absurd same (by decide)

theorem MaterialKind.length_schema (kind : MaterialKind) :
    (utf8 kind.schema).length < 2 ^ 24 := by
  cases kind <;> decide +kernel

/-- Every material but a repair's starts with its schema behind the length. -/
theorem IsMaterial.starts {kind : MaterialKind} {bytes : Bytes}
    (material : IsMaterial kind bytes) :
    (kind = .repair ∧ bytes.head? = some 0x63) ∨
      (kind ≠ .repair ∧ ∃ rest, bytes =
        lengthPrefixedAll (utf8 kind.schema :: rest)) := by
  cases material with
  | package written =>
      exact Or.inr ⟨nofun, _, (PackageRoot.material_ok.mp written).2⟩
  | attestation written =>
      exact Or.inr ⟨nofun, _,
        (AssuranceAttestation.attestationMaterial_ok.mp written).2⟩
  | signature written =>
      exact Or.inr ⟨nofun, _,
        (AssuranceAttestation.signatureMaterial_ok.mp written).2⟩
  | repair input =>
      exact Or.inl ⟨rfl, input.head_material⟩

/-- Bytes are material of one kind only. -/
theorem IsMaterial.kind_unique {first second : MaterialKind} {bytes : Bytes}
    (firstMaterial : IsMaterial first bytes)
    (secondMaterial : IsMaterial second bytes) : first = second := by
  rcases firstMaterial.starts with ⟨rfl, head⟩ | ⟨_, rest, encoded⟩
  · rcases secondMaterial.starts with ⟨rfl, _⟩ | ⟨_, rest, encoded⟩
    · rfl
    · rw [encoded, head_lengthPrefixedAll second.length_schema] at head
      exact absurd head (by decide)
  · rcases secondMaterial.starts with ⟨rfl, head⟩ | ⟨_, rest', encoded'⟩
    · rw [encoded, head_lengthPrefixedAll first.length_schema] at head
      exact absurd head (by decide)
    · by_contra different
      have schemas : utf8 first.schema ≠ utf8 second.schema := fun same =>
        different (MaterialKind.schema_injective (utf8_injective same))
      have short : ∀ kind : MaterialKind, (utf8 kind.schema).length < 2 ^ 32 :=
        fun kind => kind.length_schema.trans (by decide)
      exact lengthPrefixedAll_ne_of_head (short first) (short second) schemas
        (encoded.symm.trans encoded')

/-- Equal evidence digests are digests of equal evidence, of one kind. -/
theorem evidence_digests_bind {inputs : Set Bytes}
    (injective : Set.InjOn sha256 inputs) :
    (∀ (first second : EvidencePackage) (digest : String),
      first.hashedInputs ⊆ inputs → second.hashedInputs ⊆ inputs →
        first.root = .ok digest → second.root = .ok digest → first = second) ∧
      (∀ package : EvidencePackage,
        (∃ digest, package.root = .ok digest) ↔
          trim package.runId ≠ "" ∧ trim package.subject ≠ "" ∧
            PackageRoot.Short package.runId ∧
            PackageRoot.Short package.subject ∧
            (package.artifacts.length = 3 ∨ package.artifacts.length = 4) ∧
            ∀ index (inside : index < package.artifacts.length),
              PackageRoot.roles[index]? = some package.artifacts[index].role ∧
                package.artifacts[index].sha256 =
                  fingerprint package.artifacts[index].bytes ∧
                package.artifacts[index].bindsTo =
                  (package.artifacts.take index).map fun artifact =>
                    fingerprint artifact.bytes) ∧
      (∀ first second : RepairAttestationInput,
        first.material ∈ inputs → second.material ∈ inputs →
          (attestRepairRoot first).eligible = true →
            (attestRepairRoot second).eligible = true →
              (attestRepairRoot first).attestedRoot =
                  (attestRepairRoot second).attestedRoot →
                first.propagationEnvelopeDigest =
                    second.propagationEnvelopeDigest ∧
                  first.sentinelObservationDigest =
                    second.sentinelObservationDigest ∧
                  first.repairProblemId = second.repairProblemId) ∧
      (∀ (certificateDigest reviewerId certificateDigest' reviewerId' : String)
          (decision decision' : ReviewDecision)
          (scopeDigest scopeDigest' : String)
          (first second : AssuranceAttestation),
        AssuranceAttestation.new certificateDigest reviewerId decision
            scopeDigest = .ok first →
          AssuranceAttestation.new certificateDigest' reviewerId' decision'
              scopeDigest' = .ok second →
            (∀ material, AssuranceAttestation.attestationMaterial
                certificateDigest reviewerId decision scopeDigest =
                  .ok material → material ∈ inputs) →
              (∀ material, AssuranceAttestation.attestationMaterial
                  certificateDigest' reviewerId' decision' scopeDigest' =
                    .ok material → material ∈ inputs) →
                first.attestationDigest = second.attestationDigest →
                  first = second) ∧
      ∀ (firstKind secondKind : MaterialKind) (bytes : Bytes),
        IsMaterial firstKind bytes → IsMaterial secondKind bytes →
          firstKind = secondKind := by
  refine ⟨?_, ?_, ?_, ?_, ?_⟩
  · intro first second digest firstInputs secondInputs firstRoot secondRoot
    exact EvidencePackage.eq_of_root injective firstInputs secondInputs firstRoot
      secondRoot
  · intro package
    exact canonicalPackageRoot_accepts_iff
  · intro first second firstInput secondInput firstEligible secondEligible same
    have firstRoot : (attestRepairRoot first).attestedRoot =
        fingerprint first.material := if_pos firstEligible
    have secondRoot : (attestRepairRoot second).attestedRoot =
        fingerprint second.material := if_pos secondEligible
    rw [firstRoot, secondRoot, fingerprint_inj] at same
    have equal := RepairAttestationInput.material_injective firstEligible
      secondEligible (injective firstInput secondInput same)
    rw [equal]
    exact ⟨rfl, rfl, rfl⟩
  · intro certificateDigest reviewerId certificateDigest' reviewerId' decision
      decision' scopeDigest scopeDigest' first second created created' firstInput
      secondInput same
    rcases AssuranceAttestation.new_ok created with ⟨material, written, rfl⟩
    rcases AssuranceAttestation.new_ok created' with ⟨material', written', rfl⟩
    have materials := injective (firstInput _ written) (secondInput _ written')
      (fingerprint_inj.mp same)
    subst materials
    rcases AssuranceAttestation.attestationMaterial_injective written written' with
      ⟨rfl, rfl, rfl, rfl⟩
    rfl
  · intro firstKind secondKind bytes firstMaterial secondMaterial
    exact firstMaterial.kind_unique secondMaterial

/-! ## Two runs with the same artifacts -/

/-- A base package of three empty artifacts. -/
def emptyPackage (runId : String) : EvidencePackage where
  runId := runId
  subject := "generic-system"
  artifacts :=
    [{ role := "WITNESS", bytes := [], sha256 := fingerprint [], bindsTo := [] },
      { role := "EVIDENCE", bytes := [], sha256 := fingerprint [],
        bindsTo := [fingerprint []] },
      { role := "WORKBENCH", bytes := [], sha256 := fingerprint [],
        bindsTo := [fingerprint [], fingerprint []] }]

/-- The bytes that the root of such a package hashes. -/
def emptyPackageBytes (runId : String) : Bytes :=
  lengthPrefixedAll ((PackageRoot.packageFields runId "generic-system"
    (emptyPackage runId).artifacts).map utf8)

theorem hashedInputs_emptyPackage {runId : String} {inputs : Set Bytes}
    (empty : [] ∈ inputs) (bytes : emptyPackageBytes runId ∈ inputs) :
    (emptyPackage runId).hashedInputs ⊆ inputs := by
  intro input hashed
  rcases hashed with written | ⟨artifact, member, rfl⟩
  · rw [(PackageRoot.material_ok.mp written).2]
    exact bytes
  · have blank : artifact.bytes = [] := by
      simp only [emptyPackage, List.mem_cons, List.not_mem_nil, or_false] at member
      rcases member with rfl | rfl | rfl <;> rfl
    rw [blank]
    exact empty

/-- The package of a named run has a root, and another run's root differs. -/
theorem evidence_digests_bind_runs :
    (∃ digest, (emptyPackage "run-1").root = .ok digest) ∧
      (emptyPackage "run-1").root ≠ (emptyPackage "run-2").root := by
  have distinct : ([[], emptyPackageBytes "run-1", emptyPackageBytes "run-2"].map
      sha256).Nodup := by
    decide +kernel
  have injective : Set.InjOn sha256 {input | input ∈
      [[], emptyPackageBytes "run-1", emptyPackageBytes "run-2"]} :=
    fun _ first _ second same => List.inj_on_of_nodup_map distinct first second same
  have bound := evidence_digests_bind injective
  have accepted : ∃ digest, (emptyPackage "run-1").root = .ok digest := by
    rw [bound.2.1]
    refine ⟨by decide, by decide, ?_, ?_, Or.inl rfl, ?_⟩
    · unfold PackageRoot.Short
      decide +kernel
    · unfold PackageRoot.Short
      decide +kernel
    · intro index inside
      rcases index with _ | _ | _ | index
      · exact ⟨rfl, rfl, rfl⟩
      · exact ⟨rfl, rfl, rfl⟩
      · exact ⟨rfl, rfl, rfl⟩
      · exact absurd inside (by simp [emptyPackage])
  refine ⟨accepted, ?_⟩
  intro same
  rcases accepted with ⟨digest, root⟩
  have equal := bound.1 (emptyPackage "run-1") (emptyPackage "run-2") digest
    (hashedInputs_emptyPackage (by simp) (by simp))
    (hashedInputs_emptyPackage (by simp) (by simp)) root (same.symm.trans root)
  exact absurd (congrArg EvidencePackage.runId equal) (by decide)

end SovereignLattice
