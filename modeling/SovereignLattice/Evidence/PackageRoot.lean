import SovereignLattice.Evidence.Text
import SovereignLattice.Foundations.LengthPrefix

/-!
# Package roots (`signed_package_root.rs`)

The root of an evidence package hashes its fields behind their lengths.  A package
is accepted exactly when its artifacts have the right roles, digests and bindings,
and then the hashed bytes determine everything that the package names.
-/

namespace SovereignLattice

/-- `SIGNED_PACKAGE_ROOT_SCHEMA`. -/
def signedPackageRootSchema : String :=
  "causal-assurance-signed-root/v2"

/-- `PORTABLE_PACKAGE_SCHEMA`. -/
def portablePackageSchema : String :=
  "causal-assurance-portable-package/v2"

structure RootArtifact where
  role : String
  bytes : Bytes
  sha256 : String
  bindsTo : List String
  deriving DecidableEq

inductive PackageRootError where
  | canonicalFieldTooLong
  | invalidPackageShape
  | invalidArtifact
  | artifactDigestMismatch
  | artifactBindingMismatch
  deriving DecidableEq, Repr

def PackageRootError.text : PackageRootError → String
  | .canonicalFieldTooLong => "canonical field exceeds u32 length"
  | .invalidPackageShape => "invalid package shape"
  | .invalidArtifact => "invalid artifact"
  | .artifactDigestMismatch => "artifact digest mismatch"
  | .artifactBindingMismatch => "artifact binding mismatch"

namespace PackageRoot

def validSha256 (value : String) : Bool :=
  sha256Shape isAsciiHexdigit value

def pushLengthPrefixed (output : Bytes) (field : String) :
    Except PackageRootError Bytes :=
  pushField .canonicalFieldTooLong output (utf8 field)

def roles : List String :=
  ["WITNESS", "EVIDENCE", "WORKBENCH", "ATTESTATION"]

/-- One round of the loop over the artifacts.  There are at most four of them, so
`ROLES[index]` is in bounds. -/
def addArtifact (state : Bytes × List String) (item : RootArtifact × Nat) :
    Except PackageRootError (Bytes × List String) :=
  let (material, recomputed) := state
  let (artifact, index) := item
  if roles[index]? ≠ some artifact.role ∨ !validSha256 artifact.sha256 then
    .error .invalidArtifact
  else
    let actual := fingerprint artifact.bytes
    if actual ≠ artifact.sha256 then
      .error .artifactDigestMismatch
    else if artifact.bindsTo.length ≠ recomputed.length ∨
        (artifact.bindsTo.zip recomputed).any fun pair => pair.1 ≠ pair.2 then
      .error .artifactBindingMismatch
    else do
      let material ← [toString index, artifact.role, actual,
        toString artifact.bindsTo.length].foldlM pushLengthPrefixed material
      let material ← artifact.bindsTo.foldlM pushLengthPrefixed material
      .ok (material, recomputed ++ [actual])

/-- The bytes that `canonical_package_root` hashes. -/
def material (runId subject : String) (artifacts : List RootArtifact) :
    Except PackageRootError Bytes :=
  if trim runId = "" ∨ trim subject = "" ∨
      ¬ (artifacts.length = 3 ∨ artifacts.length = 4) then
    .error .invalidPackageShape
  else do
    let material ← [signedPackageRootSchema, portablePackageSchema, runId,
      subject].foldlM pushLengthPrefixed []
    let (material, _) ← artifacts.zipIdx.foldlM addArtifact (material, [])
    .ok material

end PackageRoot

def canonicalPackageRoot (runId subject : String)
    (artifacts : List RootArtifact) : Except PackageRootError String := do
  let material ← PackageRoot.material runId subject artifacts
  .ok (fingerprint material)

namespace PackageRoot

/-! ## What a round accepts -/

/-- The field fits its length prefix. -/
def Short (field : String) : Prop :=
  (utf8 field).length < 2 ^ 32

theorem short_fingerprint (bytes : Bytes) : Short (fingerprint bytes) := by
  rw [Short, length_utf8_fingerprint]
  decide

theorem foldlM_pushLengthPrefixed {fields : List String} {output result : Bytes} :
    fields.foldlM pushLengthPrefixed output = .ok result ↔
      (∀ field ∈ fields, Short field) ∧
        result = output ++ lengthPrefixedAll (fields.map utf8) :=
  foldlM_pushField

/-- The fields of one artifact. -/
def artifactFields (earlier : List String) (artifact : RootArtifact) :
    List String :=
  [toString earlier.length, artifact.role, fingerprint artifact.bytes,
    toString artifact.bindsTo.length] ++ artifact.bindsTo

/-- What the artifact after `earlier` has to be: the next role, the digest of its
bytes, and the digests before it. -/
structure Fits (earlier : List String) (artifact : RootArtifact) : Prop where
  role : roles[earlier.length]? = some artifact.role
  digest : artifact.sha256 = fingerprint artifact.bytes
  bindings : artifact.bindsTo = earlier

theorem zip_any_ne {first second : List String}
    (lengths : first.length = second.length) :
    ((first.zip second).any fun pair => pair.1 ≠ pair.2) = false ↔
      first = second := by
  induction first generalizing second with
  | nil =>
      cases second with
      | nil => simp
      | cons => simp at lengths
  | cons head tail inductionHypothesis =>
      cases second with
      | nil => simp at lengths
      | cons other others =>
          rw [List.length_cons, List.length_cons, Nat.succ_inj] at lengths
          rw [List.zip_cons_cons, List.any_cons, Bool.or_eq_false_iff,
            inductionHypothesis lengths, List.cons.injEq]
          simp

/-- The fields of a fitting artifact are short. -/
theorem Fits.short {earlier : List String} {artifact : RootArtifact}
    (fits : Fits earlier artifact) (digests : ∀ digest ∈ earlier, Short digest) :
    ∀ field ∈ artifactFields earlier artifact, Short field := by
  have bound : earlier.length < roles.length := by
    by_contra outside
    have missing := fits.role
    rw [List.getElem?_eq_none (Nat.not_lt.mp outside)] at missing
    cases missing
  have role : Short artifact.role := by
    have known : ∀ role ∈ roles, Short role := by
      unfold Short
      decide +kernel
    exact known _ (List.mem_of_getElem? fits.role)
  have number : ∀ count < roles.length, Short (toString count) := by
    unfold Short
    decide +kernel
  intro field member
  rw [artifactFields, List.mem_append, fits.bindings] at member
  rcases member with fixed | binding
  · simp only [List.mem_cons, List.not_mem_nil, or_false] at fixed
    rcases fixed with rfl | rfl | rfl | rfl
    · exact number _ bound
    · exact role
    · exact short_fingerprint _
    · exact number _ bound
  · exact digests field binding

/-- The two writing steps of a round append the artifact's fields. -/
theorem writeArtifact_ok {material : Bytes} {earlier : List String}
    {artifact : RootArtifact} {next : Bytes × List String} :
    (do
      let material ← [toString earlier.length, artifact.role,
        fingerprint artifact.bytes, toString artifact.bindsTo.length].foldlM
          pushLengthPrefixed material
      let material ← artifact.bindsTo.foldlM pushLengthPrefixed material
      (.ok (material, earlier ++ [fingerprint artifact.bytes]) :
        Except PackageRootError (Bytes × List String))) = .ok next ↔
      (∀ field ∈ artifactFields earlier artifact, Short field) ∧
        next = (material ++
            lengthPrefixedAll ((artifactFields earlier artifact).map utf8),
          earlier ++ [fingerprint artifact.bytes]) := by
  rw [← bind_assoc, ← List.foldlM_append, ← artifactFields, bind_eq_ok]
  simp only [foldlM_pushLengthPrefixed, Except.ok.injEq]
  constructor
  · intro found
    rcases found with ⟨_, ⟨short, rfl⟩, rfl⟩
    exact ⟨short, rfl⟩
  · intro both
    exact ⟨_, ⟨both.1, rfl⟩, both.2.symm⟩

/-- An artifact fits if none of the three checks of a round rejects it. -/
theorem fits_iff_not_rejected {earlier : List String} {artifact : RootArtifact} :
    Fits earlier artifact ↔
      ¬ (roles[earlier.length]? ≠ some artifact.role ∨
          (!validSha256 artifact.sha256) = true) ∧
        ¬ fingerprint artifact.bytes ≠ artifact.sha256 ∧
        ¬ (artifact.bindsTo.length ≠ earlier.length ∨
          ((artifact.bindsTo.zip earlier).any fun pair => pair.1 ≠ pair.2) =
            true) := by
  constructor
  · intro fits
    refine ⟨?_, not_not.mpr fits.digest.symm, ?_⟩
    · rw [not_or, not_not, fits.digest, validSha256,
        sha256Shape_fingerprint fun _ digit _ => digit]
      exact ⟨fits.role, by decide⟩
    · rw [not_or, not_not, Bool.not_eq_true, fits.bindings]
      exact ⟨rfl, (zip_any_ne rfl).mpr rfl⟩
  · intro passed
    rcases passed with ⟨shape, digest, bindings⟩
    rw [not_or, not_not] at shape bindings
    rw [not_not] at digest
    have bound : artifact.bindsTo = earlier :=
      (zip_any_ne bindings.1).mp (by simpa using bindings.2)
    exact ⟨shape.1, digest.symm, bound⟩

/-- A round accepts exactly a fitting artifact and appends its fields. -/
theorem addArtifact_ok {material : Bytes} {earlier : List String}
    {artifact : RootArtifact} {next : Bytes × List String}
    (digests : ∀ digest ∈ earlier, Short digest) :
    addArtifact (material, earlier) (artifact, earlier.length) = .ok next ↔
      Fits earlier artifact ∧
        next = (material ++
            lengthPrefixedAll ((artifactFields earlier artifact).map utf8),
          earlier ++ [fingerprint artifact.bytes]) := by
  rw [addArtifact]
  dsimp only
  constructor
  · intro accepted
    split at accepted
    · cases accepted
    rename_i shape
    split at accepted
    · cases accepted
    rename_i digest
    split at accepted
    · cases accepted
    rename_i bindings
    exact ⟨fits_iff_not_rejected.mpr ⟨shape, digest, bindings⟩,
      (writeArtifact_ok.mp accepted).2⟩
  · intro both
    rcases both with ⟨fits, result⟩
    rcases fits_iff_not_rejected.mp fits with ⟨shape, digest, bindings⟩
    rw [if_neg shape, if_neg digest, if_neg bindings]
    exact writeArtifact_ok.mpr ⟨fits.short digests, result⟩

/-! ## The whole package -/

/-- Every artifact fits after those before it. -/
def AllFit : List String → List RootArtifact → Prop
  | _, [] => True
  | earlier, artifact :: rest =>
      Fits earlier artifact ∧
        AllFit (earlier ++ [fingerprint artifact.bytes]) rest

/-- The fields of the artifacts, in order. -/
def artifactsFields : List String → List RootArtifact → List String
  | _, [] => []
  | earlier, artifact :: rest =>
      artifactFields earlier artifact ++
        artifactsFields (earlier ++ [fingerprint artifact.bytes]) rest

theorem forall_short_concat {earlier : List String}
    (digests : ∀ digest ∈ earlier, Short digest) (bytes : Bytes) :
    ∀ digest ∈ earlier ++ [fingerprint bytes], Short digest := by
  intro digest member
  rcases List.mem_append.mp member with before | last
  · exact digests digest before
  · rw [List.mem_singleton.mp last]
    exact short_fingerprint bytes

/-- The loop accepts exactly the fitting artifacts and appends their fields. -/
theorem foldlM_addArtifact {artifacts : List RootArtifact} {material : Bytes}
    {earlier : List String} {final : Bytes × List String}
    (digests : ∀ digest ∈ earlier, Short digest) :
    (artifacts.zipIdx earlier.length).foldlM addArtifact (material, earlier) =
        .ok final ↔
      AllFit earlier artifacts ∧
        final = (material ++
            lengthPrefixedAll ((artifactsFields earlier artifacts).map utf8),
          earlier ++ artifacts.map fun artifact => fingerprint artifact.bytes) := by
  induction artifacts generalizing material earlier with
  | nil =>
      rw [List.zipIdx_nil, List.foldlM_nil]
      simp [AllFit, artifactsFields, pure, Except.pure, eq_comm]
  | cons artifact rest inductionHypothesis =>
      have tail := fun material => @inductionHypothesis material _
        (forall_short_concat digests artifact.bytes)
      rw [List.length_append, List.length_singleton] at tail
      rw [List.zipIdx_cons, List.foldlM_cons, bind_eq_ok]
      simp only [addArtifact_ok digests, AllFit, artifactsFields, List.map_append,
        lengthPrefixedAll_append, List.map_cons]
      constructor
      · intro found
        rcases found with ⟨_, ⟨fits, rfl⟩, loop⟩
        rcases (tail _).mp loop with ⟨all, result⟩
        refine ⟨⟨fits, all⟩, ?_⟩
        rw [result, List.append_assoc, List.append_assoc, List.singleton_append]
      · intro both
        rcases both with ⟨⟨fits, all⟩, result⟩
        refine ⟨_, ⟨fits, rfl⟩, (tail _).mpr ⟨all, ?_⟩⟩
        rw [result, List.append_assoc, List.append_assoc, List.singleton_append]

theorem AllFit.short {earlier : List String} {artifacts : List RootArtifact}
    (all : AllFit earlier artifacts) (digests : ∀ digest ∈ earlier, Short digest) :
    ∀ field ∈ artifactsFields earlier artifacts, Short field := by
  induction artifacts generalizing earlier with
  | nil => simp [artifactsFields]
  | cons artifact rest inductionHypothesis =>
      intro field member
      rcases List.mem_append.mp member with own | later
      · exact all.1.short digests field own
      · exact inductionHypothesis all.2
          (forall_short_concat digests artifact.bytes) field later

/-- The fields that a package's root hashes. -/
def packageFields (runId subject : String) (artifacts : List RootArtifact) :
    List String :=
  [signedPackageRootSchema, portablePackageSchema, runId, subject] ++
    artifactsFields [] artifacts

theorem short_schemas :
    Short signedPackageRootSchema ∧ Short portablePackageSchema := by
  unfold Short
  decide +kernel

/-- What is accepted, and the bytes that are hashed then. -/
theorem material_ok {runId subject : String} {artifacts : List RootArtifact}
    {result : Bytes} :
    material runId subject artifacts = .ok result ↔
      (trim runId ≠ "" ∧ trim subject ≠ "" ∧ Short runId ∧ Short subject ∧
        (artifacts.length = 3 ∨ artifacts.length = 4) ∧ AllFit [] artifacts) ∧
        result = lengthPrefixedAll
          ((packageFields runId subject artifacts).map utf8) := by
  have loop := fun header final =>
    @foldlM_addArtifact artifacts header [] final (by simp)
  rw [material]
  by_cases shape : trim runId = "" ∨ trim subject = "" ∨
      ¬ (artifacts.length = 3 ∨ artifacts.length = 4)
  · rw [if_pos shape]
    constructor
    · intro impossible
      cases impossible
    · intro both
      rcases both with ⟨⟨named, about, _, _, count, _⟩, _⟩
      rcases shape with blank | blank | other
      · exact absurd blank named
      · exact absurd blank about
      · exact absurd count other
  rw [if_neg shape]
  rw [not_or, not_or, not_not] at shape
  simp only [bind_eq_ok, foldlM_pushLengthPrefixed]
  constructor
  · intro found
    rcases found with ⟨_, ⟨short, rfl⟩, ⟨final, digests⟩, folded, same⟩
    rcases (loop _ _).mp folded with ⟨all, written⟩
    cases same
    simp only [List.forall_mem_cons] at short
    refine ⟨⟨shape.1, shape.2.1, short.2.2.1, short.2.2.2.1, shape.2.2, all⟩, ?_⟩
    rw [packageFields, List.map_append, lengthPrefixedAll_append]
    exact congrArg Prod.fst written
  · intro both
    rcases both with ⟨⟨_, _, shortRun, shortSubject, _, all⟩, rfl⟩
    have header : ∀ field ∈ [signedPackageRootSchema, portablePackageSchema,
        runId, subject], Short field := by
      simp only [List.forall_mem_cons]
      exact ⟨short_schemas.1, short_schemas.2, shortRun, shortSubject, by simp⟩
    refine ⟨_, ⟨header, rfl⟩, _, (loop _ _).mpr ⟨all, rfl⟩, ?_⟩
    rw [packageFields, List.map_append, lengthPrefixedAll_append]
    rfl

theorem AllFit.packageFields_short {runId subject : String}
    {artifacts : List RootArtifact} (all : AllFit [] artifacts)
    (shortRun : Short runId) (shortSubject : Short subject) :
    ∀ field ∈ (packageFields runId subject artifacts).map utf8,
      field.length < 2 ^ 32 := by
  intro field member
  rw [List.mem_map] at member
  rcases member with ⟨text, listed, rfl⟩
  rw [packageFields, List.mem_append] at listed
  rcases listed with header | artifact
  · simp only [List.mem_cons, List.not_mem_nil, or_false] at header
    rcases header with rfl | rfl | rfl | rfl
    · exact short_schemas.1
    · exact short_schemas.2
    · exact shortRun
    · exact shortSubject
  · exact all.short (by simp) text artifact

/-- Fitting artifacts are determined by their fields, as far as the hash tells
contents apart. -/
theorem AllFit.eq_of_fields {earlier : List String}
    {first second : List RootArtifact} (firstFit : AllFit earlier first)
    (secondFit : AllFit earlier second)
    (injective : ∀ left ∈ first, ∀ right ∈ second,
      SovereignLattice.sha256 left.bytes = SovereignLattice.sha256 right.bytes →
        left.bytes = right.bytes)
    (same : artifactsFields earlier first = artifactsFields earlier second) :
    first = second := by
  induction first generalizing earlier second with
  | nil =>
      cases second with
      | nil => rfl
      | cons artifact rest => simp [artifactsFields, artifactFields] at same
  | cons left rest inductionHypothesis =>
      cases second with
      | nil => simp [artifactsFields, artifactFields] at same
      | cons right others =>
          rcases firstFit with ⟨leftFits, restFit⟩
          rcases secondFit with ⟨rightFits, othersFit⟩
          simp only [artifactsFields, artifactFields, leftFits.bindings,
            rightFits.bindings, List.cons_append, List.nil_append,
            List.cons.injEq, true_and] at same
          rcases same with ⟨sameRole, sameDigest, tails⟩
          have sameBytes : left.bytes = right.bytes :=
            injective left List.mem_cons_self right List.mem_cons_self
              (fingerprint_inj.mp sameDigest)
          have sameArtifact : left = right := by
            cases left
            cases right
            simp only at sameRole sameBytes
            have digests := leftFits.digest.trans
              (sameDigest.trans rightFits.digest.symm)
            have bindings := leftFits.bindings.trans rightFits.bindings.symm
            simp only at digests bindings
            rw [sameRole, sameBytes, digests, bindings]
          rw [← sameDigest] at othersFit tails
          have sameRest := inductionHypothesis restFit othersFit
            (fun left member right other => injective left
              (List.mem_cons_of_mem _ member) right
              (List.mem_cons_of_mem _ other))
            (List.append_cancel_left tails)
          rw [sameArtifact, sameRest]

/-- The condition on the artifacts, artifact by artifact. -/
theorem allFit_iff {earlier : List String} {artifacts : List RootArtifact} :
    AllFit earlier artifacts ↔
      ∀ index (inside : index < artifacts.length),
        roles[earlier.length + index]? = some artifacts[index].role ∧
          artifacts[index].sha256 = fingerprint artifacts[index].bytes ∧
          artifacts[index].bindsTo = earlier ++
            (artifacts.take index).map fun artifact =>
              fingerprint artifact.bytes := by
  induction artifacts generalizing earlier with
  | nil => simp [AllFit]
  | cons artifact rest inductionHypothesis =>
      rw [AllFit, inductionHypothesis]
      constructor
      · intro both index inside
        rcases both with ⟨fits, tail⟩
        cases index with
        | zero => exact ⟨fits.role, fits.digest, by simpa using fits.bindings⟩
        | succ index =>
            have inTail : index < rest.length := Nat.lt_of_succ_lt_succ inside
            have later := tail index inTail
            rw [List.length_append, List.length_singleton, Nat.add_assoc,
              Nat.add_comm 1 index] at later
            simpa using later
      · intro every
        have first := every 0 (Nat.succ_pos _)
        refine ⟨⟨first.1, first.2.1, by simpa using first.2.2⟩, ?_⟩
        intro index inside
        have later := every (index + 1) (Nat.succ_lt_succ inside)
        rw [List.length_append, List.length_singleton, Nat.add_assoc,
          Nat.add_comm 1 index]
        simpa using later

end PackageRoot

/-- Exactly the well-formed packages have a root. -/
theorem canonicalPackageRoot_accepts_iff {runId subject : String}
    {artifacts : List RootArtifact} :
    (∃ root, canonicalPackageRoot runId subject artifacts = .ok root) ↔
      trim runId ≠ "" ∧ trim subject ≠ "" ∧ PackageRoot.Short runId ∧
        PackageRoot.Short subject ∧
        (artifacts.length = 3 ∨ artifacts.length = 4) ∧
        ∀ index (inside : index < artifacts.length),
          PackageRoot.roles[index]? = some artifacts[index].role ∧
            artifacts[index].sha256 = fingerprint artifacts[index].bytes ∧
            artifacts[index].bindsTo = (artifacts.take index).map fun artifact =>
              fingerprint artifact.bytes := by
  have fits := @PackageRoot.allFit_iff [] artifacts
  simp only [List.length_nil, Nat.zero_add, List.nil_append] at fits
  rw [← fits]
  simp only [canonicalPackageRoot, bind_eq_ok,
    PackageRoot.material_ok, Except.ok.injEq]
  constructor
  · intro accepted
    rcases accepted with ⟨_, _, ⟨conditions, _⟩, _⟩
    exact conditions
  · intro conditions
    exact ⟨_, _, ⟨conditions, rfl⟩, rfl⟩

end SovereignLattice
