import SovereignLattice.Dkg.ShareMessage
import SovereignLattice.Network.Connection
import SovereignLattice.Pbft.SignerEvidence

/-!
# What is signed

The bytes of a signature carry neither a kind nor a length.  Votes take 49
bytes, view-change payloads 56, and shares with `k` commitments `40 + 96 k`, so
equal bytes are of one kind; within a kind every field has its place.  The
copies of the vote encoding at the checking sites agree.
-/

namespace SovereignLattice

variable [Curve] [Encodings]

/-- A place where the engine assembles bytes to check a signature on them. -/
inductive SignedItem where
  /-- `handle_message`. -/
  | message (msg : PbftMessage)
  /-- The replay of a log record. -/
  | replayed (record : Record)
  /-- `PreparedCertificate::verify`. -/
  | prepared (cert : PreparedCertificate)
  /-- `CommitCertificate::verify`. -/
  | committed (cert : CommitCertificate)
  /-- A vote in `NewViewCertificate::verify`. -/
  | newView (cert : NewViewCertificate) (seq : UInt64) (digest : Digest)
  /-- `ViewChangePayload::canonical_bytes`. -/
  | viewChange (payload : ViewChangePayload)
  /-- `DkgShareMessage::canonical_bytes`. -/
  | dkgShare (msg : DkgShareMessage)

/-- What a signature says. -/
inductive SignedStatement where
  | vote (phase : UInt8) (view seq : UInt64) (digest : Digest)
  | viewChange (targetView preparedView preparedSeq : UInt64) (digest : Digest)
  | dkgShare (fromNode toNode : UInt32) (share : Scalar)
      (commitments : List G2Projective)

/-- The vote that an entry of a new-view certificate signs. -/
def NewViewCertificate.voteMsg (cert : NewViewCertificate) (seq : UInt64)
    (digest : Digest) : Bytes :=
  canonicalMsg Phase.viewChange.toU8 cert.targetView seq digest

namespace SignedItem

/-- The bytes that are assembled there. -/
def bytes : SignedItem → Bytes
  | message msg => msg.canonicalBytes
  | replayed record => record.canonicalBytes
  | prepared cert => cert.signedMsg
  | committed cert => cert.signedMsg
  | newView cert seq digest => cert.voteMsg seq digest
  | viewChange payload => payload.canonicalBytes
  | dkgShare msg => msg.canonicalBytes

/-- The statement that they stand for. -/
def statement : SignedItem → SignedStatement
  | message msg => .vote msg.phase.toU8 msg.view msg.seq msg.digest
  | replayed record => .vote record.phase record.view record.seq record.digest
  | prepared cert => .vote Phase.prepare.toU8 cert.view cert.seq cert.digest
  | committed cert => .vote Phase.commit.toU8 cert.view cert.seq cert.digest
  | newView cert seq digest =>
      .vote Phase.viewChange.toU8 cert.targetView seq digest
  | viewChange payload =>
      .viewChange payload.targetView payload.preparedView payload.preparedSeq
        payload.digest
  | dkgShare msg => .dkgShare msg.fromNode msg.toNode msg.share msg.commitments

end SignedItem

namespace SignedStatement

/-- The encoding of a statement, one layout for each kind. -/
def encode : SignedStatement → Bytes
  | vote phase view seq digest => canonicalMsg phase view seq digest
  | viewChange targetView preparedView preparedSeq digest =>
      u64Bytes targetView ++ u64Bytes preparedView ++ u64Bytes preparedSeq ++
        digest.toList
  | dkgShare fromNode toNode share commitments =>
      u32Bytes fromNode ++ (u32Bytes toNode ++
        (Encodings.scalarToBytes share ++ commitmentBytes commitments))

@[simp]
theorem length_encode_vote (phase : UInt8) (view seq : UInt64)
    (digest : Digest) : (encode (.vote phase view seq digest)).length = 49 := by
  simp [encode, canonicalMsg]

@[simp]
theorem length_encode_viewChange (targetView preparedView preparedSeq : UInt64)
    (digest : Digest) :
    (encode (.viewChange targetView preparedView preparedSeq digest)).length =
      56 := by
  simp [encode]

@[simp]
theorem length_encode_dkgShare (fromNode toNode : UInt32) (share : Scalar)
    (commitments : List G2Projective) :
    (encode (.dkgShare fromNode toNode share commitments)).length =
      40 + 96 * commitments.length := by
  simp [encode]
  omega

theorem viewChange_of_encode {targetView preparedView preparedSeq : UInt64}
    {targetView' preparedView' preparedSeq' : UInt64} {digest digest' : Digest}
    (same : encode (.viewChange targetView preparedView preparedSeq digest) =
      encode (.viewChange targetView' preparedView' preparedSeq' digest')) :
    SignedStatement.viewChange targetView preparedView preparedSeq digest =
      .viewChange targetView' preparedView' preparedSeq' digest' := by
  simp only [encode, List.append_assoc] at same
  rcases List.append_inj same (by simp) with ⟨sameTarget, rest⟩
  rcases List.append_inj rest (by simp) with ⟨sameView, rest⟩
  rcases List.append_inj rest (by simp) with ⟨sameSeq, sameDigest⟩
  rw [u64Bytes_injective sameTarget, u64Bytes_injective sameView,
    u64Bytes_injective sameSeq, Vector.toList_inj.mp sameDigest]

theorem dkgShare_of_encode {fromNode toNode fromNode' toNode' : UInt32}
    {share share' : Scalar} {commitments commitments' : List G2Projective}
    (same : encode (.dkgShare fromNode toNode share commitments) =
      encode (.dkgShare fromNode' toNode' share' commitments')) :
    SignedStatement.dkgShare fromNode toNode share commitments =
      .dkgShare fromNode' toNode' share' commitments' := by
  rcases List.append_inj same (by simp) with ⟨sameFrom, rest⟩
  rcases List.append_inj rest (by simp) with ⟨sameTo, rest⟩
  rcases List.append_inj rest (by simp) with ⟨sameShare, sameCommitments⟩
  have decoded := congrArg Encodings.scalarFromBytes sameShare
  rw [Encodings.scalarFromBytes_scalarToBytes,
    Encodings.scalarFromBytes_scalarToBytes, Option.some.injEq] at decoded
  rw [u32Bytes_injective sameFrom, u32Bytes_injective sameTo, decoded,
    commitmentBytes_injective sameCommitments]

/-- Equal bytes are one statement: the lengths tell the kinds apart. -/
theorem encode_injective :
    Function.Injective (encode : SignedStatement → Bytes) := by
  intro first second same
  have lengths := congrArg List.length same
  cases first with
  | vote phase view seq digest =>
      cases second with
      | vote phase' view' seq' digest' =>
          rcases canonicalMsg_injective same with ⟨rfl, rfl, rfl, rfl⟩
          rfl
      | viewChange =>
          rw [length_encode_vote, length_encode_viewChange] at lengths
          omega
      | dkgShare =>
          rw [length_encode_vote, length_encode_dkgShare] at lengths
          omega
  | viewChange targetView preparedView preparedSeq digest =>
      cases second with
      | vote =>
          rw [length_encode_viewChange, length_encode_vote] at lengths
          omega
      | viewChange => exact viewChange_of_encode same
      | dkgShare =>
          rw [length_encode_viewChange, length_encode_dkgShare] at lengths
          omega
  | dkgShare fromNode toNode share commitments =>
      cases second with
      | vote =>
          rw [length_encode_dkgShare, length_encode_vote] at lengths
          omega
      | viewChange =>
          rw [length_encode_dkgShare, length_encode_viewChange] at lengths
          omega
      | dkgShare => exact dkgShare_of_encode same

end SignedStatement

/-- Every site encodes the statement that it checks, so the copies agree. -/
theorem SignedItem.bytes_eq_encode (item : SignedItem) :
    item.bytes = item.statement.encode := by
  cases item <;> rfl

/-! ## The checks are on these bytes -/

omit [Encodings] in
theorem Topology.verifies_of_authenticates {topology : Topology}
    {record : Record} (authentic : topology.authenticates record = true) :
    ∃ pk, topology.publicKeys.get? record.senderId = some pk ∧
      verifyBlsSignature record.canonicalBytes record.signature pk = true := by
  rw [authenticates] at authentic
  split at authentic
  · cases authentic
  split at authentic
  · cases authentic
  · rename_i pk known
    exact ⟨pk, known, authentic⟩

omit [Encodings] in
/-- A message is handled only with a signature on its bytes. -/
theorem PbftState.verifies_of_handleMessage {state : PbftState}
    {msg : PbftMessage} {io : WalIo} {response : Response}
    (accepted : (state.handleMessage msg io).1 = .ok response) :
    ∃ pk, state.publicKeys.get? msg.senderId = some pk ∧
      verifyBlsSignature msg.canonicalBytes msg.signature pk = true := by
  rw [handleMessage] at accepted
  split at accepted
  · cases accepted
  split at accepted
  · rename_i registered
    refine ⟨state.publicKeyOf msg.senderId registered,
      (Option.some_get _).symm, ?_⟩
    by_contra forged
    rw [Bool.not_eq_true] at forged
    dsimp only at accepted
    rw [forged] at accepted
    cases accepted
  · cases accepted

omit [Encodings] in
theorem PbftState.verifies_of_handleViewChangePayload {state : PbftState}
    {payload : ViewChangePayload}
    (accepted : state.handleViewChangePayload payload = .ok ()) :
    ∃ pk, state.publicKeys.get? payload.senderId = some pk ∧
      verifyBlsSignature payload.canonicalBytes payload.signature pk = true := by
  rw [handleViewChangePayload] at accepted
  split at accepted
  · rename_i registered
    refine ⟨state.publicKeyOf payload.senderId registered,
      (Option.some_get _).symm, ?_⟩
    by_contra forged
    rw [Bool.not_eq_true] at forged
    dsimp only at accepted
    rw [forged] at accepted
    cases accepted
  · cases accepted

/-- Signed bytes determine the statement and its kind, and the sites that check
one statement check the same bytes. -/
theorem signed_statements_distinct :
    (∀ first second : SignedItem,
      first.bytes = second.bytes ↔ first.statement = second.statement) ∧
      (∀ (topology : Topology) (record : Record),
        topology.authenticates record = true →
          ∃ pk, topology.publicKeys.get? record.senderId = some pk ∧
            verifyBlsSignature (SignedItem.replayed record).bytes record.signature
              pk = true) ∧
      (∀ (state : PbftState) (msg : PbftMessage) (io : WalIo)
          (response : Response),
        (state.handleMessage msg io).1 = .ok response →
          ∃ pk, state.publicKeys.get? msg.senderId = some pk ∧
            verifyBlsSignature (SignedItem.message msg).bytes msg.signature pk =
              true) ∧
      (∀ (cert : PreparedCertificate) (quorumSize : Nat) (pk : G2Projective),
        cert.verify quorumSize pk =
          verifyThresholdSignature (SignedItem.prepared cert).bytes
            cert.signatures pk quorumSize) ∧
      (∀ (cert : CommitCertificate) (quorumSize : Nat) (pk : G2Projective),
        cert.verify quorumSize pk =
          verifyThresholdSignature (SignedItem.committed cert).bytes
            cert.signatures pk quorumSize) ∧
      (∀ (cert : NewViewCertificate) (keys : AssocMap UInt32 G2Projective),
        cert.validCount keys = cert.viewChangeVotes.entries.countP fun entry =>
          match keys.get? entry.1 with
          | some pk =>
              verifyBlsSignature
                (SignedItem.newView cert entry.2.1 entry.2.2.1).bytes
                entry.2.2.2 pk
          | none => false) ∧
      (∀ (state : PbftState) (payload : ViewChangePayload),
        state.handleViewChangePayload payload = .ok () →
          ∃ pk, state.publicKeys.get? payload.senderId = some pk ∧
            verifyBlsSignature (SignedItem.viewChange payload).bytes
              payload.signature pk = true) ∧
      ∀ (msg : DkgShareMessage) (pk : G2Projective) (rest : List G2Projective),
        msg.commitments = pk :: rest →
          msg.verifySignature =
            verifyBlsSignature (SignedItem.dkgShare msg).bytes msg.signature pk := by
  refine ⟨?_, ?_, ?_, ?_, ?_, ?_, ?_, ?_⟩
  · intro first second
    rw [first.bytes_eq_encode, second.bytes_eq_encode]
    exact SignedStatement.encode_injective.eq_iff
  · intro topology record authentic
    exact Topology.verifies_of_authenticates authentic
  · intro state msg io response accepted
    exact PbftState.verifies_of_handleMessage accepted
  · intro cert quorumSize pk
    rfl
  · intro cert quorumSize pk
    rfl
  · intro cert keys
    rfl
  · intro state payload accepted
    exact PbftState.verifies_of_handleViewChangePayload accepted
  · intro msg pk rest commitments
    rw [DkgShareMessage.verifySignature, commitments]
    rfl

end SovereignLattice
