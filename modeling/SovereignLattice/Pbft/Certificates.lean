import SovereignLattice.Crypto.ThresholdBls
import SovereignLattice.Pbft.Messages
import Mathlib.Data.List.Sort

/-!
# Quorum certificates

Prepared, commit and new-view certificates with their `verify` functions, and
the two selection functions of the view change.
-/

namespace SovereignLattice

variable [Curve]

/-- Signatures by signer id, `HashMap<u32, G1Projective>`. -/
abbrev SignatureMap : Type :=
  AssocMap UInt32 G1Projective

/-- View-change votes by sender: reported sequence, digest and signature. -/
abbrev ViewChangeVotes : Type :=
  AssocMap UInt32 (UInt64 × Digest × G1Projective)

structure PreparedCertificate where
  view : UInt64
  seq : UInt64
  digest : Digest
  signatures : SignatureMap
  deriving DecidableEq

def PreparedCertificate.verify (cert : PreparedCertificate) (quorumSize : Nat)
    (masterPk : G2Projective) : Bool :=
  verifyThresholdSignature
    (canonicalMsg Phase.prepare.toU8 cert.view cert.seq cert.digest)
    cert.signatures masterPk quorumSize

structure CommitCertificate where
  view : UInt64
  seq : UInt64
  digest : Digest
  signatures : SignatureMap
  deriving DecidableEq

def CommitCertificate.verify (cert : CommitCertificate) (quorumSize : Nat)
    (masterPk : G2Projective) : Bool :=
  verifyThresholdSignature
    (canonicalMsg Phase.commit.toU8 cert.view cert.seq cert.digest)
    cert.signatures masterPk quorumSize

structure NewViewCertificate where
  targetView : UInt64
  viewChangeVotes : ViewChangeVotes
  selectedPreparedCertificate : Option PreparedCertificate
  deriving DecidableEq

/-- `[0u8; 32]`. -/
def zeroDigest : Digest :=
  Vector.replicate 32 0

/-- The loop of `highest_view_change_slot` over the votes at the maximum
sequence; `none` is its early return on two digests. -/
def digestAtMax (maxSeq : UInt64) :
    List (UInt64 × Digest × G1Projective) → Option Digest →
      Option (Option Digest)
  | [], found => some found
  | (seq, digest, _) :: rest, found =>
      if seq ≠ maxSeq then
        digestAtMax maxSeq rest found
      else
        match found with
        | some existing =>
            if existing ≠ digest then
              none
            else
              digestAtMax maxSeq rest (some existing)
        | none => digestAtMax maxSeq rest (some digest)

def highestViewChangeSlot (votes : ViewChangeVotes) :
    Option (UInt64 × Digest) := do
  let maxSeq ← (votes.values.map fun vote => vote.1).max?
  if maxSeq = 0 then
    return (0, zeroDigest)
  let found ← digestAtMax maxSeq votes.values none
  found.map fun digest => (maxSeq, digest)

/-- The signer ids of a certificate, sorted. -/
def PreparedCertificate.signers (cert : PreparedCertificate) : List UInt32 :=
  cert.signatures.keys.insertionSort (· ≤ ·)

/-- The comparison of `select_highest_prepared_certificate`: later views first,
then smaller signer lists. -/
def PreparedCertificate.sortsBefore (a b : PreparedCertificate) : Bool :=
  ((compare b.view a.view).then (compare a.signers b.signers)).isLE

/-- The filter of `select_highest_prepared_certificate`. -/
def PreparedCertificate.supports (cert : PreparedCertificate)
    (targetView seq : UInt64) (digest : Digest) (quorumSize : Nat)
    (masterPk : G2Projective) : Bool :=
  cert.view < targetView ∧ cert.seq = seq ∧ cert.digest = digest ∧
    cert.verify quorumSize masterPk

def selectHighestPreparedCertificate (certificates : List PreparedCertificate)
    (targetView seq : UInt64) (digest : Digest) (quorumSize : Nat)
    (masterPk : G2Projective) : Option PreparedCertificate :=
  let candidates := certificates.filter fun cert =>
    cert.supports targetView seq digest quorumSize masterPk
  (candidates.insertionSort fun a b => a.sortsBefore b).head?

/-- `bound_cert` of the view change: nothing is selected where the quorum
reports no prepared value. -/
def boundCertificate (certificates : List PreparedCertificate)
    (targetView maxQuorumSeq : UInt64) (bestDigest : Digest) (quorumSize : Nat)
    (masterPk : G2Projective) : Option PreparedCertificate :=
  if maxQuorumSeq > 0 then
    selectHighestPreparedCertificate certificates targetView maxQuorumSeq
      bestDigest quorumSize masterPk
  else
    none

/-- The votes of a new-view certificate whose sender has a key and whose
signature verifies under it. -/
def NewViewCertificate.validCount (cert : NewViewCertificate)
    (publicKeys : AssocMap UInt32 G2Projective) : Nat :=
  cert.viewChangeVotes.entries.countP fun entry =>
    match publicKeys.get? entry.1 with
    | some pk =>
        verifyBlsSignature
          (canonicalMsg Phase.viewChange.toU8 cert.targetView entry.2.1
            entry.2.2.1)
          entry.2.2.2 pk
    | none => false

def NewViewCertificate.verify (cert : NewViewCertificate) (quorumSize : Nat)
    (masterPk : G2Projective) (publicKeys : AssocMap UInt32 G2Projective) :
    Bool :=
  if cert.viewChangeVotes.len < quorumSize then
    false
  else
    match highestViewChangeSlot cert.viewChangeVotes with
    | none => false
    | some (maxQuorumSeq, bestDigest) =>
        match cert.selectedPreparedCertificate with
        | some prepared =>
            if !prepared.verify quorumSize masterPk then
              false
            else if prepared.view ≥ cert.targetView ∨
                prepared.seq ≠ maxQuorumSeq ∨ prepared.digest ≠ bestDigest then
              false
            else
              quorumSize ≤ cert.validCount publicKeys
        | none =>
            if maxQuorumSeq > 0 then
              false
            else
              quorumSize ≤ cert.validCount publicKeys

/-! ## Facts about the selection functions -/

/-- A selected certificate is one of the candidates. -/
theorem select_mem {certificates : List PreparedCertificate}
    {targetView seq : UInt64} {digest : Digest} {quorumSize : Nat}
    {masterPk : G2Projective} {cert : PreparedCertificate}
    (selected : selectHighestPreparedCertificate certificates targetView seq
      digest quorumSize masterPk = some cert) :
    cert ∈ certificates ∧
      cert.supports targetView seq digest quorumSize masterPk = true := by
  rw [selectHighestPreparedCertificate, List.head?_eq_some_iff] at selected
  obtain ⟨rest, sorted⟩ := selected
  have member :
      cert ∈ (certificates.filter fun candidate =>
        candidate.supports targetView seq digest quorumSize masterPk).insertionSort
          fun a b => a.sortsBefore b = true := by
    rw [sorted]
    exact List.mem_cons_self
  rw [(List.perm_insertionSort _ _).mem_iff] at member
  exact List.mem_filter.mp member

/-- Selection succeeds as soon as there is a candidate. -/
theorem select_isSome {certificates : List PreparedCertificate}
    {targetView seq : UInt64} {digest : Digest} {quorumSize : Nat}
    {masterPk : G2Projective} {candidate : PreparedCertificate}
    (member : candidate ∈ certificates)
    (supports : candidate.supports targetView seq digest quorumSize masterPk =
      true) :
    ∃ cert, selectHighestPreparedCertificate certificates targetView seq digest
      quorumSize masterPk = some cert := by
  have filtered :
      candidate ∈ (certificates.filter fun cert =>
        cert.supports targetView seq digest quorumSize masterPk).insertionSort
          fun a b => a.sortsBefore b = true := by
    rw [(List.perm_insertionSort _ _).mem_iff]
    exact List.mem_filter.mpr ⟨member, supports⟩
  rw [selectHighestPreparedCertificate]
  cases sorted : (certificates.filter fun cert =>
      cert.supports targetView seq digest quorumSize masterPk).insertionSort
        fun a b => a.sortsBefore b = true with
  | nil =>
      rw [sorted] at filtered
      cases filtered
  | cons first rest => exact ⟨first, rfl⟩

theorem digestAtMax_mem {maxSeq : UInt64} {digest : Digest}
    {votes : List (UInt64 × Digest × G1Projective)} {found : Option Digest}
    (result : digestAtMax maxSeq votes found = some (some digest)) :
    found = some digest ∨ ∃ signature, (maxSeq, digest, signature) ∈ votes := by
  induction votes generalizing found with
  | nil =>
      rw [digestAtMax, Option.some.injEq] at result
      exact Or.inl result
  | cons vote rest inductionHypothesis =>
      obtain ⟨seq, reported, signature⟩ := vote
      unfold digestAtMax at result
      split at result
      · rcases inductionHypothesis result with start | ⟨sig, member⟩
        · exact Or.inl start
        · exact Or.inr ⟨sig, List.mem_cons_of_mem _ member⟩
      rename_i atMax
      rw [not_not] at atMax
      split at result
      · split at result
        · cases result
        rcases inductionHypothesis result with start | ⟨sig, member⟩
        · exact Or.inl start
        · exact Or.inr ⟨sig, List.mem_cons_of_mem _ member⟩
      · rcases inductionHypothesis result with start | ⟨sig, member⟩
        · rw [Option.some.injEq] at start
          subst atMax start
          exact Or.inr ⟨signature, List.mem_cons_self⟩
        · exact Or.inr ⟨sig, List.mem_cons_of_mem _ member⟩

/-- A positive highest slot is one that some vote reports. -/
theorem highestViewChangeSlot_mem {votes : ViewChangeVotes} {maxSeq : UInt64}
    {digest : Digest}
    (slot : highestViewChangeSlot votes = some (maxSeq, digest))
    (positive : 0 < maxSeq) :
    ∃ sender signature, votes.get? sender = some (maxSeq, digest, signature) := by
  rw [highestViewChangeSlot] at slot
  rw [Option.bind_eq_bind, Option.bind_eq_some_iff] at slot
  obtain ⟨highest, _, slot⟩ := slot
  split at slot
  · cases slot
    exact absurd positive (UInt64.lt_irrefl 0)
  rw [Option.bind_eq_bind, Option.bind_eq_some_iff] at slot
  obtain ⟨found, result, slot⟩ := slot
  cases found with
  | none => cases slot
  | some reported =>
      cases slot
      rcases digestAtMax_mem result with nothing | ⟨signature, member⟩
      · cases nothing
      · rcases AssocMap.mem_values_iff.mp member with ⟨sender, stored⟩
        exact ⟨sender, signature, stored⟩

/-- A new-view certificate verifies when its votes are a quorum of verified
ones, its highest slot is unambiguous and its selection fits the slot. -/
theorem NewViewCertificate.verify_of {cert : NewViewCertificate}
    {quorumSize : Nat} {masterPk : G2Projective}
    {publicKeys : AssocMap UInt32 G2Projective} {maxSeq : UInt64}
    {digest : Digest} (quorum : quorumSize ≤ cert.viewChangeVotes.len)
    (slot : highestViewChangeSlot cert.viewChangeVotes = some (maxSeq, digest))
    (selected : ∀ prepared, cert.selectedPreparedCertificate = some prepared →
      prepared.supports cert.targetView maxSeq digest quorumSize masterPk = true)
    (nothing : cert.selectedPreparedCertificate = none → maxSeq = 0)
    (verified : ∀ sender seq digest signature,
      cert.viewChangeVotes.get? sender = some (seq, digest, signature) →
        ∃ pk, publicKeys.get? sender = some pk ∧
          verifyBlsSignature
            (canonicalMsg Phase.viewChange.toU8 cert.targetView seq digest)
            signature pk = true) :
    cert.verify quorumSize masterPk publicKeys = true := by
  have all : cert.validCount publicKeys = cert.viewChangeVotes.len := by
    rw [validCount]
    rw [AssocMap.len, List.countP_eq_length]
    intro entry member
    obtain ⟨pk, key, valid⟩ := verified entry.1 entry.2.1 entry.2.2.1 entry.2.2.2
      (AList.mem_lookup_iff.mpr member)
    rw [key]
    exact valid
  rw [verify]
  rw [if_neg (Nat.not_lt.mpr quorum), slot]
  dsimp only
  cases selection : cert.selectedPreparedCertificate with
  | some prepared =>
      have supports := selected prepared selection
      rw [PreparedCertificate.supports] at supports
      rcases of_decide_eq_true supports with ⟨earlier, sameSeq, sameDigest, valid⟩
      have fits : ¬ (prepared.view ≥ cert.targetView ∨ prepared.seq ≠ maxSeq ∨
          prepared.digest ≠ digest) := by
        intro either
        rcases either with later | otherSeq | otherDigest
        · exact absurd earlier (UInt64.not_lt.mpr later)
        · exact otherSeq sameSeq
        · exact otherDigest sameDigest
      dsimp only
      rw [valid, if_neg (by decide), if_neg fits, all]
      exact decide_eq_true quorum
  | none =>
      have zero := nothing selection
      dsimp only
      rw [zero, if_neg (by decide), all]
      exact decide_eq_true quorum

/-- The certificate that the view change builds from a quorum of verified votes
verifies, provided that something is selected for a positive slot. -/
theorem NewViewCertificate.verify_bound {supporters : ViewChangeVotes}
    {certificates : List PreparedCertificate} {targetView maxSeq : UInt64}
    {digest : Digest} {quorumSize : Nat} {masterPk : G2Projective}
    {publicKeys : AssocMap UInt32 G2Projective}
    (quorum : quorumSize ≤ supporters.len)
    (slot : highestViewChangeSlot supporters = some (maxSeq, digest))
    (found : 0 < maxSeq → (boundCertificate certificates targetView maxSeq digest
      quorumSize masterPk).isSome)
    (verified : ∀ sender seq digest signature,
      supporters.get? sender = some (seq, digest, signature) →
        ∃ pk, publicKeys.get? sender = some pk ∧
          verifyBlsSignature
            (canonicalMsg Phase.viewChange.toU8 targetView seq digest)
            signature pk = true) :
    NewViewCertificate.verify
      { targetView := targetView
        viewChangeVotes := supporters
        selectedPreparedCertificate := boundCertificate certificates targetView
          maxSeq digest quorumSize masterPk }
      quorumSize masterPk publicKeys = true := by
  apply NewViewCertificate.verify_of quorum slot ?_ ?_ verified
  · intro prepared selection
    dsimp only at selection
    rw [boundCertificate] at selection
    split at selection
    · exact (select_mem selection).2
    · cases selection
  · intro nothing
    dsimp only at nothing
    by_contra nonzero
    have positive : 0 < maxSeq := by grind
    have present := found positive
    rw [nothing] at present
    cases present

end SovereignLattice
