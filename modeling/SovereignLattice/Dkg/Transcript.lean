import SovereignLattice.Crypto.Encodings
import SovereignLattice.Crypto.Sha256
import SovereignLattice.Crypto.SmallCurve
import SovereignLattice.Dkg.Finalize

/-!
# Commitment transcripts

A transcript concatenates each dealer's id and commitments without a count or a
length.  Sessions hold commitment lists of one length only, so equal transcripts
are transcripts of equal maps, and equal maps give one master key.
-/

namespace SovereignLattice

section Transcript

variable [Curve] [Encodings]

/-- One dealer's part of a transcript. -/
def entryBytes (entry : UInt32 × List G2Projective) : Bytes :=
  u32Bytes entry.1 ++ commitmentBytes entry.2

/-- `canonical_bytes` of `compute_commitment_transcript`. -/
def transcriptBytes (commitments : AssocMap UInt32 (List G2Projective)) :
    Bytes :=
  let sortedKeys := commitments.keys.insertionSort (· ≤ ·)
  sortedKeys.flatMap fun id =>
    u32Bytes id ++
      match commitments.get? id with
      | some commList => commitmentBytes commList
      | none => []

def computeCommitmentTranscript
    (commitments : AssocMap UInt32 (List G2Projective)) : Vector UInt8 32 :=
  sha256 (transcriptBytes commitments)

inductive TranscriptError where
  | transcriptEquivocationDetected
  deriving DecidableEq, Repr

def TranscriptError.text : TranscriptError → String
  | .transcriptEquivocationDetected => "TRANSCRIPT_EQUIVOCATION_DETECTED"

namespace DkgSession

def transcriptHash (session : DkgSession) : Vector UInt8 32 :=
  computeCommitmentTranscript session.allCommitments

def verifyTranscriptConsistency (session : DkgSession)
    (peerHashes : AssocMap UInt32 (Vector UInt8 32)) :
    Except TranscriptError Unit :=
  let myHash := session.transcriptHash
  if peerHashes.values.any fun hash => hash ≠ myHash then
    .error .transcriptEquivocationDetected
  else
    .ok ()

end DkgSession

/-! ## Equal transcripts -/

/-- The entries of a map in the order of the transcript. -/
def sortedEntries (commitments : AssocMap UInt32 (List G2Projective)) :
    List (UInt32 × List G2Projective) :=
  (commitments.keys.insertionSort (· ≤ ·)).map fun id =>
    (id, commitments.getD id [])

omit [Encodings] in
theorem mem_sortedEntries {commitments : AssocMap UInt32 (List G2Projective)}
    {id : UInt32} {commList : List G2Projective} :
    (id, commList) ∈ sortedEntries commitments ↔
      commitments.get? id = some commList := by
  rw [sortedEntries]
  rw [List.mem_map]
  constructor
  · intro found
    rcases found with ⟨known, member, same⟩
    rw [(List.perm_insertionSort _ _).mem_iff, AssocMap.mem_keys_iff] at member
    rcases member with ⟨stored, held⟩
    rw [AssocMap.getD_of_get? [] held, Prod.mk.injEq] at same
    rw [← same.1, ← same.2]
    exact held
  · intro held
    refine ⟨id, ?_, by rw [AssocMap.getD_of_get? [] held]⟩
    rw [(List.perm_insertionSort _ _).mem_iff, AssocMap.mem_keys_iff]
    exact ⟨commList, held⟩

theorem transcriptBytes_eq (commitments : AssocMap UInt32 (List G2Projective)) :
    transcriptBytes commitments =
      ((sortedEntries commitments).map entryBytes).flatten := by
  rw [sortedEntries, List.map_map, ← List.flatMap_def, transcriptBytes]
  apply List.flatMap_congr
  intro id _
  cases held : commitments.get? id with
  | none => simp [entryBytes, AssocMap.getD, held]
  | some commList => simp [entryBytes, AssocMap.getD, held]

theorem entryBytes_injective :
    Function.Injective (entryBytes : UInt32 × List G2Projective → Bytes) := by
  intro first second same
  rcases List.append_inj same (by simp) with ⟨sameId, sameList⟩
  exact Prod.ext (u32Bytes_injective sameId) (commitmentBytes_injective sameList)

/-- Maps whose lists have one length are read back from their transcripts. -/
theorem transcriptBytes_injective
    {first second : AssocMap UInt32 (List G2Projective)} {length : Nat}
    (firstLengths : ∀ id commList, first.get? id = some commList →
      commList.length = length)
    (secondLengths : ∀ id commList, second.get? id = some commList →
      commList.length = length)
    (same : transcriptBytes first = transcriptBytes second) (id : UInt32) :
    first.get? id = second.get? id := by
  have blocks : ∀ commitments : AssocMap UInt32 (List G2Projective),
      (∀ id commList, commitments.get? id = some commList →
        commList.length = length) →
      ∀ block ∈ (sortedEntries commitments).map entryBytes,
        block.length = 4 + 96 * length := by
    intro commitments lengths block member
    rcases List.mem_map.mp member with ⟨⟨id, commList⟩, entry, rfl⟩
    have size := lengths id commList (mem_sortedEntries.mp entry)
    simp [entryBytes, size]
  rw [transcriptBytes_eq, transcriptBytes_eq] at same
  have sameBlocks := flatten_injective_of_length (by omega)
    (blocks first firstLengths) (blocks second secondLengths) same
  have sameEntries : sortedEntries first = sortedEntries second :=
    List.map_injective_iff.mpr entryBytes_injective sameBlocks
  apply Option.ext
  intro commList
  rw [← mem_sortedEntries, ← mem_sortedEntries, sameEntries]

/-! ## Sessions -/

namespace DkgSession

/-- The session of a node with a polynomial of `threshold` coefficients, after any
incoming shares. -/
def Reached (threshold : Nat) (session : DkgSession) : Prop :=
  ∃ nodeId totalNodes secretPolynomial calls,
    secretPolynomial.length = threshold ∧
      session = (DkgSession.new nodeId threshold totalNodes
        secretPolynomial).processAll calls

variable {threshold : Nat} {session : DkgSession}

omit [Encodings] in
/-- All commitment lists that a session knows have the length of the threshold. -/
theorem Reached.length (reached : Reached threshold session) :
    session.secretPolynomial.length = threshold ∧
      ∀ id commList, session.allCommitments.get? id = some commList →
        commList.length = threshold := by
  rcases reached with ⟨nodeId, totalNodes, polynomial, calls, size, rfl⟩
  rcases processAll_checked (Checked.new nodeId threshold totalNodes polynomial)
      calls with ⟨checked, _, sameThreshold, samePolynomial⟩
  have own : ((DkgSession.new nodeId threshold totalNodes polynomial).processAll
      calls).secretPolynomial.length = threshold := by
    rw [samePolynomial]
    exact size
  refine ⟨own, ?_⟩
  intro id commList held
  rw [allCommitments, AssocMap.get?_insert] at held
  split at held
  · rw [Option.some.injEq] at held
    rw [← held, generateCommitments, List.length_map]
    exact own
  · rw [checked.length id commList held, sameThreshold]
    rfl

omit [Encodings] in
/-- The master key depends on the commitments that the session knows only. -/
theorem masterKey_of_finalizeDkg (nonempty : session.secretPolynomial ≠ [])
    {participants : List UInt32} (nodup : participants.Nodup)
    (member : session.nodeId ∈ participants) {share : Scalar}
    {masterPk : G2Projective}
    (finalized : session.finalizeDkg participants = .ok (share, masterPk)) :
    masterPk = (participants.map fun id =>
      powerSum (0 : Scalar) (session.allCommitments.getD id [])).sum := by
  rcases (finalizeDkg_eq_ok nodup member nonempty).mp finalized with ⟨_, sums⟩
  exact congrArg Prod.snd sums

end DkgSession

/-- If a session finds another one's transcript consistent with its own, both know
the same commitments, and they finalise with one master key. -/
theorem transcript_bindsMasterKey {first second : DkgSession} {threshold : Nat}
    (positive : 1 ≤ threshold)
    (firstReached : DkgSession.Reached threshold first)
    (secondReached : DkgSession.Reached threshold second)
    (injective : Set.InjOn sha256
      {transcriptBytes first.allCommitments,
        transcriptBytes second.allCommitments})
    {peerHashes : AssocMap UInt32 (Vector UInt8 32)} {peerId : UInt32}
    (contained : peerHashes.get? peerId = some second.transcriptHash)
    (consistent : first.verifyTranscriptConsistency peerHashes = .ok ()) :
    (∀ id, first.allCommitments.get? id = second.allCommitments.get? id) ∧
      ∀ participants : List UInt32, participants.Nodup →
        first.nodeId ∈ participants → second.nodeId ∈ participants →
          ∀ firstShare firstKey secondShare secondKey,
            first.finalizeDkg participants = .ok (firstShare, firstKey) →
            second.finalizeDkg participants = .ok (secondShare, secondKey) →
              firstKey = secondKey := by
  have sameHash : second.transcriptHash = first.transcriptHash := by
    have member := AssocMap.mem_values_iff.mpr ⟨peerId, contained⟩
    by_contra different
    have detected : (peerHashes.values.any fun hash =>
        hash ≠ first.transcriptHash) = true := by
      rw [List.any_eq_true]
      exact ⟨_, member, decide_eq_true different⟩
    rw [DkgSession.verifyTranscriptConsistency, if_pos detected] at consistent
    cases consistent
  have sameBytes : transcriptBytes first.allCommitments =
      transcriptBytes second.allCommitments :=
    injective (by simp) (by simp) sameHash.symm
  rcases firstReached.length with ⟨firstSize, firstLengths⟩
  rcases secondReached.length with ⟨secondSize, secondLengths⟩
  have same := transcriptBytes_injective firstLengths secondLengths sameBytes
  refine ⟨same, ?_⟩
  intro participants nodup firstMember secondMember firstShare firstKey
    secondShare secondKey firstFinal secondFinal
  have firstNonempty : first.secretPolynomial ≠ [] :=
    List.ne_nil_of_length_pos (by omega)
  have secondNonempty : second.secretPolynomial ≠ [] :=
    List.ne_nil_of_length_pos (by omega)
  rw [DkgSession.masterKey_of_finalizeDkg firstNonempty nodup firstMember
      firstFinal,
    DkgSession.masterKey_of_finalizeDkg secondNonempty nodup secondMember
      secondFinal]
  simp only [AssocMap.getD, same]

end Transcript

section SmallRun

attribute [local instance] smallCurve smallEncodings

/-- The polynomials of two dealers. -/
def twoPolynomials (id : UInt32) : List Scalar :=
  [id.toNat + 2, 3 * id.toNat + 1].map Nat.cast

/-- One of two dealers, with what the other has sent to it. -/
def oneOfTwo (id other : UInt32) : DkgSession :=
  (DkgSession.new id 2 2 (twoPolynomials id)).processAll
    [(other, powerSum (evaluationPoint id) (twoPolynomials other),
      (twoPolynomials other).map fun coeff => coeff • Curve.g2Generator)]

/-- The hash that the second dealer publishes. -/
def publishedHashes : AssocMap UInt32 (Vector UInt8 32) :=
  AssocMap.insert ∅ 1 (oneOfTwo 1 0).transcriptHash

/-- The theorem at two dealers that have heard each other. -/
theorem transcript_bindsMasterKey_twoDealers :
    ∃ firstShare firstKey secondShare secondKey,
      (oneOfTwo 0 1).finalizeDkg [0, 1] = .ok (firstShare, firstKey) ∧
        (oneOfTwo 1 0).finalizeDkg [0, 1] = .ok (secondShare, secondKey) ∧
        firstKey = secondKey := by
  have sameBytes : transcriptBytes (oneOfTwo 0 1).allCommitments =
      transcriptBytes (oneOfTwo 1 0).allCommitments := by
    decide +kernel
  have injective : Set.InjOn sha256
      {transcriptBytes (oneOfTwo 0 1).allCommitments,
        transcriptBytes (oneOfTwo 1 0).allCommitments} := by
    rw [sameBytes]
    simp
  have consistent : (oneOfTwo 0 1).verifyTranscriptConsistency publishedHashes =
      .ok () := by
    have sameHash : (oneOfTwo 1 0).transcriptHash =
        (oneOfTwo 0 1).transcriptHash :=
      congrArg sha256 sameBytes.symm
    have published : publishedHashes.values = [(oneOfTwo 1 0).transcriptHash] :=
      rfl
    simp [DkgSession.verifyTranscriptConsistency, published, sameHash]
  have firstReached : DkgSession.Reached 2 (oneOfTwo 0 1) :=
    ⟨0, 2, twoPolynomials 0, _, rfl, rfl⟩
  have secondReached : DkgSession.Reached 2 (oneOfTwo 1 0) :=
    ⟨1, 2, twoPolynomials 1, _, rfl, rfl⟩
  have firstFinal : (oneOfTwo 0 1).finalizeDkg [0, 1] =
      .ok (10, (5 : Scalar) • Curve.g2Generator) := by
    decide +kernel
  have secondFinal : (oneOfTwo 1 0).finalizeDkg [0, 1] =
      .ok (15, (5 : Scalar) • Curve.g2Generator) := by
    decide +kernel
  have binds := transcript_bindsMasterKey (by decide) firstReached secondReached
    injective (AssocMap.get?_insert_self _ _ _) consistent
  exact ⟨_, _, _, _, firstFinal, secondFinal,
    binds.2 [0, 1] (by decide) (by decide) (by decide) _ _ _ _ firstFinal
      secondFinal⟩

end SmallRun

end SovereignLattice
