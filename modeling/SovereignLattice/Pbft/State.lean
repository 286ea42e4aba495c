import SovereignLattice.Pbft.Certificates
import SovereignLattice.Wal.WriteAheadLog

/-!
# The state of a replica

`Topology` is what the constructor fixes for good: the membership, the quorum
size and the keys, with what the constructor has checked about them.
`PbftState` adds the protocol fields and the log.
-/

namespace SovereignLattice

theorem le_max_left (left right : UInt64) : left ≤ max left right := by
  have unfolded : max left right = if left ≤ right then right else left := rfl
  grind

theorem le_max_right (left right : UInt64) : right ≤ max left right := by
  have unfolded : max left right = if left ≤ right then right else left := rfl
  grind

theorem max_eq_left_of_le {left right : UInt64} (below : right ≤ left) :
    max left right = left := by
  have unfolded : max left right = if left ≤ right then right else left := rfl
  grind

theorem max_eq_right_of_lt {left right : UInt64} (above : left < right) :
    max left right = right := by
  have unfolded : max left right = if left ≤ right then right else left := rfl
  grind

/-- The ids of `0..total_nodes as u32`. -/
def nodeIds (totalNodes : Nat) : Finset UInt32 :=
  ((List.range (totalNodes % 2 ^ 32)).map UInt32.ofNat).toFinset

theorem card_nodeIds_le (totalNodes : Nat) :
    (nodeIds totalNodes).card ≤ totalNodes := by
  have bound := List.toFinset_card_le
    ((List.range (totalNodes % 2 ^ 32)).map UInt32.ofNat)
  rw [List.length_map, List.length_range] at bound
  exact bound.trans (Nat.mod_le _ _)

theorem toNat_lt_of_mem_nodeIds {totalNodes : Nat} {id : UInt32}
    (member : id ∈ nodeIds totalNodes) :
    id.toNat < totalNodes ∧ id.toNat + 1 < 2 ^ 32 := by
  rw [nodeIds, List.mem_toFinset, List.mem_map] at member
  obtain ⟨index, inRange, rfl⟩ := member
  have below : index < totalNodes % 2 ^ 32 := List.mem_range.mp inRange
  have truncated : totalNodes % 2 ^ 32 < 2 ^ 32 :=
    Nat.mod_lt _ (by decide)
  have reduced : totalNodes % 2 ^ 32 ≤ totalNodes := Nat.mod_le _ _
  have wordSize : UInt32.size = 2 ^ 32 := rfl
  have word : (UInt32.ofNat index).toNat = index :=
    UInt32.toNat_ofNat_of_lt' (by omega)
  omega

/-- The errors of `PbftState::new_with_wal_path` on a log that could be opened.
`arithmeticOverflow` is the panic of `total_nodes - 1` on zero. -/
inductive NewError where
  | arithmeticOverflow
  | topologyViolation
  | registryViolation
  | walReplayError
  deriving DecidableEq, Repr

/-- The error strings of `handle_message`. -/
inductive PbftError where
  | walUnavailable
  | authFailed
  | cryptoAuthFailed
  | viewMismatch
  | leaderViolation
  | equivocationDetected
  | duplicateProposal
  | orphanPrepare
  | certificateVerificationFailed
  | orphanCommit
  | safetyViolation
  | viewChangeInvalid
  | certificateInvalid
  | conflictingViewChangeDigests
  | missingQuorumCertificate
  | newViewVerificationFailed
  | walError
  | walPruneError
  deriving DecidableEq, Repr

def PbftError.text : PbftError → String
  | .walUnavailable => "WAL_UNAVAILABLE"
  | .authFailed => "AUTH_FAILED"
  | .cryptoAuthFailed => "CRYPTO_AUTH_FAILED"
  | .viewMismatch => "VIEW_MISMATCH"
  | .leaderViolation => "LEADER_VIOLATION"
  | .equivocationDetected => "EQUIVOCATION_DETECTED"
  | .duplicateProposal => "DUPLICATE_PROPOSAL"
  | .orphanPrepare => "ORPHAN_PREPARE"
  | .certificateVerificationFailed => "CERTIFICATE_VERIFICATION_FAILED"
  | .orphanCommit => "ORPHAN_COMMIT"
  | .safetyViolation => "SAFETY_VIOLATION"
  | .viewChangeInvalid => "VIEW_CHANGE_INVALID"
  | .certificateInvalid => "CERTIFICATE_INVALID"
  | .conflictingViewChangeDigests => "CONFLICTING_VIEW_CHANGE_DIGESTS"
  | .missingQuorumCertificate => "MISSING_QUORUM_CERTIFICATE"
  | .newViewVerificationFailed => "NEW_VIEW_VERIFICATION_FAILED"
  | .walError => "WAL_ERROR"
  | .walPruneError => "WAL_PRUNE_ERROR"

/-- The success strings of `handle_message`. -/
inductive Response where
  | checkpointObsolete
  | inboundOkPreprepare
  | voteOkPrepare
  | certificateOkPrepared
  | voteOkCommit
  | committedOk
  | voteOkViewChange
  | viewChangeOk
  | voteOkCheckpoint
  | checkpointStabilized
  deriving DecidableEq, Repr

def Response.text : Response → String
  | .checkpointObsolete => "CHECKPOINT_OBSOLETE"
  | .inboundOkPreprepare => "INBOUND_OK_PREPREPARE"
  | .voteOkPrepare => "VOTE_OK_PREPARE"
  | .certificateOkPrepared => "CERTIFICATE_OK_PREPARED"
  | .voteOkCommit => "VOTE_OK_COMMIT"
  | .committedOk => "COMMITTED_OK"
  | .voteOkViewChange => "VOTE_OK_VIEW_CHANGE"
  | .viewChangeOk => "VIEW_CHANGE_OK"
  | .voteOkCheckpoint => "VOTE_OK_CHECKPOINT"
  | .checkpointStabilized => "CHECKPOINT_STABILIZED"

variable [Curve]

/-- Every id has a public key. -/
def HasKeys (publicKeys : AssocMap UInt32 G2Projective) (ids : Finset UInt32) :
    Prop :=
  ∀ id ∈ ids, (publicKeys.get? id).isSome

/-- Checked id by id, over the set only. -/
instance (publicKeys : AssocMap UInt32 G2Projective) (ids : Finset UInt32) :
    Decidable (HasKeys publicKeys ids) :=
  Finset.decidableDforallFinset

/-- The fields that never change after construction. -/
structure Topology where
  totalNodes : Nat
  f : Nat
  quorumSize : Nat
  registeredNodes : Finset UInt32
  publicKeys : AssocMap UInt32 G2Projective
  masterPublicKey : G2Projective
  totalNodes_eq : totalNodes = 3 * f + 1
  quorumSize_eq : quorumSize = 2 * f + 1
  registeredNodes_eq : registeredNodes = nodeIds totalNodes
  registered_hasKey : HasKeys publicKeys registeredNodes

namespace Topology

/-- The checks that `new_with_wal_path` makes before it opens the log. -/
def new (totalNodes : Nat) (initialPublicKeys : AssocMap UInt32 G2Projective)
    (masterPublicKey : G2Projective) : Except NewError Topology :=
  if totalNodes = 0 then
    .error .arithmeticOverflow
  else if shape : totalNodes ≠ 3 * ((totalNodes - 1) / 3) + 1 then
    .error .topologyViolation
  else if keys : HasKeys initialPublicKeys (nodeIds totalNodes) then
    .ok
      { totalNodes := totalNodes
        f := (totalNodes - 1) / 3
        quorumSize := 2 * ((totalNodes - 1) / 3) + 1
        registeredNodes := nodeIds totalNodes
        publicKeys := initialPublicKeys
        masterPublicKey := masterPublicKey
        totalNodes_eq := not_not.mp shape
        quorumSize_eq := rfl
        registeredNodes_eq := rfl
        registered_hasKey := keys }
  else
    .error .registryViolation

def getExpectedLeader (topology : Topology) (view : UInt64) : UInt32 :=
  UInt32.ofNat (view.toNat % topology.totalNodes)

/-- `public_keys.get(&sender_id).unwrap()` of a registered sender. -/
def publicKeyOf (topology : Topology) (id : UInt32)
    (registered : id ∈ topology.registeredNodes) : G2Projective :=
  (topology.publicKeys.get? id).get (topology.registered_hasKey id registered)

theorem card_registeredNodes_le (topology : Topology) :
    topology.registeredNodes.card ≤ 3 * topology.f + 1 := by
  rw [topology.registeredNodes_eq, ← topology.totalNodes_eq]
  exact card_nodeIds_le topology.totalNodes

theorem quorumSize_pos (topology : Topology) : 0 < topology.quorumSize := by
  rw [topology.quorumSize_eq]
  omega

end Topology

/-- The key of a proposal or of a vote: view, sequence and digest. -/
abbrev ProposalKey : Type :=
  UInt64 × UInt64 × Digest

/-- Votes for proposals: the signatures collected for each key. -/
abbrev VoteMap : Type :=
  AssocMap ProposalKey SignatureMap

structure PbftState extends Topology where
  currentView : UInt64
  highestSeq : UInt64
  lastStableCheckpoint : UInt64
  preparedCertificates : AssocMap (UInt64 × UInt64) PreparedCertificate
  commitCertificates : AssocMap (UInt64 × UInt64) CommitCertificate
  newViewCertificates : AssocMap UInt64 NewViewCertificate
  committedDigest : AssocMap (UInt64 × UInt64) Digest
  prePreparedProposals : Finset ProposalKey
  prepareVotes : VoteMap
  commitVotes : VoteMap
  checkpointVotes : VoteMap
  viewChangeVotes : AssocMap UInt64 ViewChangeVotes
  wal : WriteAheadLog
  walFailed : Bool

/-- `retain(|&(_, s, _)| s > c)` on a vote map. -/
def VoteMap.above (votes : VoteMap) (checkpoint : UInt64) : VoteMap :=
  votes.retain fun key => key.2.1 > checkpoint

end SovereignLattice
