import SovereignLattice.Pbft.HandleMessage

/-!
# `PbftState::new_with_wal_path`

The replay closure with its captured variables, the final pruning, and the
constructor.  Replay is written separately from the live handler in the code,
and it is translated separately here.
-/

namespace SovereignLattice

variable [Curve]

/-- The variables that the replay closure captures. -/
structure Recovered where
  recoveredView : UInt64
  recoveredSeq : UInt64
  recoveredStableCheckpoint : UInt64
  recoveredProposals : Finset ProposalKey
  recoveredPrepareVotes : VoteMap
  recoveredCommitVotes : VoteMap
  recoveredCheckpointVotes : VoteMap
  recoveredViewChangeVotes : AssocMap UInt64 ViewChangeVotes
  recoveredCertificates : AssocMap (UInt64 × UInt64) PreparedCertificate
  recoveredCommitCertificates : AssocMap (UInt64 × UInt64) CommitCertificate
  recoveredNewViewCertificates : AssocMap UInt64 NewViewCertificate
  recoveredCommitted : AssocMap (UInt64 × UInt64) Digest
  recoveryError : Bool

namespace Recovered

def initial : Recovered where
  recoveredView := 0
  recoveredSeq := 0
  recoveredStableCheckpoint := 0
  recoveredProposals := ∅
  recoveredPrepareVotes := ∅
  recoveredCommitVotes := ∅
  recoveredCheckpointVotes := ∅
  recoveredViewChangeVotes := ∅
  recoveredCertificates := ∅
  recoveredCommitCertificates := ∅
  recoveredNewViewCertificates := ∅
  recoveredCommitted := ∅
  recoveryError := false

/-- `recovery_error = true; return`. -/
def fail (recovered : Recovered) : Recovered :=
  { recovered with recoveryError := true }

end Recovered

/-- The slot and digest of a record. -/
def Record.proposalKey (record : Record) : ProposalKey :=
  (record.view, record.seq, record.digest)

/-- The bytes that a record's signature must cover. -/
def Record.canonicalBytes (record : Record) : Bytes :=
  canonicalMsg record.phase record.view record.seq record.digest

/-- The condition of the pruning after the replay: without a stable checkpoint
nothing is dropped. -/
def survives (stable seq : UInt64) : Bool :=
  if stable > 0 then seq > stable else true

omit [Curve] in
theorem survives_of_lt {stable seq : UInt64} (above : stable < seq) :
    survives stable seq = true := by
  rw [survives]
  split
  · exact decide_eq_true above
  · rfl

namespace Topology

/-- A record from a registered node with a valid signature and a known
phase. -/
def authenticates (topology : Topology) (record : Record) : Bool :=
  if record.phase > Phase.checkpoint.toU8 ∨
      record.senderId ∉ topology.registeredNodes then
    false
  else
    match topology.publicKeys.get? record.senderId with
    | none => false
    | some senderPk =>
        verifyBlsSignature record.canonicalBytes record.signature senderPk

/-- The pre-prepare checks of replay: the leader of the view, and no other
digest for the slot. -/
def rejectsProposal (topology : Topology) (recovered : Recovered)
    (record : Record) : Bool :=
  record.senderId ≠ UInt32.ofNat (record.view.toNat % topology.totalNodes) ∨
    ∃ key ∈ recovered.recoveredProposals,
      key.1 = record.view ∧ key.2.1 = record.seq ∧ key.2.2 ≠ record.digest

/-- The updates of the recovered view and sequence that precede the `match`. -/
def observe (recovered : Recovered) (record : Record) : Recovered :=
  let viewed :=
    if record.phase ≤ Phase.commit.toU8 ∧
        record.view > recovered.recoveredView then
      { recovered with recoveredView := record.view }
    else
      recovered
  if record.seq > viewed.recoveredSeq then
    { viewed with recoveredSeq := record.seq }
  else
    viewed

def replayPrepare (topology : Topology) (recovered : Recovered)
    (record : Record) : Recovered :=
  if record.proposalKey ∉ recovered.recoveredProposals then
    recovered.fail
  else
    let sigs := (recovered.recoveredPrepareVotes.getD record.proposalKey
      ∅).insert record.senderId record.signature
    let voted := { recovered with
      recoveredPrepareVotes :=
        recovered.recoveredPrepareVotes.insert record.proposalKey sigs }
    if sigs.len ≥ topology.quorumSize then
      let cert : PreparedCertificate :=
        { view := record.view, seq := record.seq, digest := record.digest,
          signatures := sigs }
      if !cert.verify topology.quorumSize topology.masterPublicKey then
        voted.fail
      else
        { voted with
          recoveredCertificates :=
            voted.recoveredCertificates.insert (record.view, record.seq) cert }
    else
      voted

def replayCommit (topology : Topology) (recovered : Recovered)
    (record : Record) : Recovered :=
  if record.proposalKey ∉ recovered.recoveredProposals ∨
      !recovered.recoveredCertificates.values.any fun cert =>
        cert.view = record.view ∧ cert.seq = record.seq ∧
          cert.digest = record.digest ∧
          cert.verify topology.quorumSize topology.masterPublicKey then
    recovered.fail
  else
    let sigs := (recovered.recoveredCommitVotes.getD record.proposalKey
      ∅).insert record.senderId record.signature
    let voted := { recovered with
      recoveredCommitVotes :=
        recovered.recoveredCommitVotes.insert record.proposalKey sigs }
    if sigs.len ≥ topology.quorumSize then
      let commitCert : CommitCertificate :=
        { view := record.view, seq := record.seq, digest := record.digest,
          signatures := sigs }
      if !commitCert.verify topology.quorumSize topology.masterPublicKey then
        voted.fail
      else
        { voted with
          recoveredCommitCertificates :=
            voted.recoveredCommitCertificates.insert (record.view, record.seq)
              commitCert
          recoveredCommitted :=
            voted.recoveredCommitted.insert (record.view, record.seq)
              record.digest }
    else
      voted

/-- The part of the view-change arm after the quorum is complete. -/
def replayNewView (topology : Topology) (recovered : Recovered)
    (record : Record) (supporters : ViewChangeVotes) : Recovered :=
  match highestViewChangeSlot supporters with
  | none => recovered.fail
  | some (maxQuorumSeq, bestDigest) =>
      let selected :=
        boundCertificate recovered.recoveredCertificates.values record.view
          maxQuorumSeq bestDigest topology.quorumSize topology.masterPublicKey
      if maxQuorumSeq > 0 ∧ selected.isNone then
        recovered.fail
      else
        let newViewCert : NewViewCertificate :=
          { targetView := record.view, viewChangeVotes := supporters,
            selectedPreparedCertificate := selected }
        if !newViewCert.verify topology.quorumSize topology.masterPublicKey
            topology.publicKeys then
          recovered.fail
        else
          { recovered with
            recoveredView := max recovered.recoveredView record.view
            recoveredNewViewCertificates :=
              recovered.recoveredNewViewCertificates.insert record.view
                newViewCert }

def replayViewChange (topology : Topology) (recovered : Recovered)
    (record : Record) : Recovered :=
  if record.seq > 0 ∧ !recovered.recoveredCertificates.values.any fun cert =>
      cert.supports record.view record.seq record.digest topology.quorumSize
        topology.masterPublicKey then
    recovered.fail
  else
    let supporters := (recovered.recoveredViewChangeVotes.getD record.view
      ∅).insert record.senderId (record.seq, record.digest, record.signature)
    let voted := { recovered with
      recoveredViewChangeVotes :=
        recovered.recoveredViewChangeVotes.insert record.view supporters }
    if supporters.len ≥ topology.quorumSize then
      topology.replayNewView voted record supporters
    else
      voted

def replayCheckpoint (topology : Topology) (recovered : Recovered)
    (record : Record) : Recovered :=
  let supporters := (recovered.recoveredCheckpointVotes.getD record.proposalKey
    ∅).insert record.senderId record.signature
  let voted := { recovered with
    recoveredCheckpointVotes :=
      recovered.recoveredCheckpointVotes.insert record.proposalKey supporters }
  if supporters.len ≥ topology.quorumSize then
    { voted with
      recoveredStableCheckpoint :=
        if record.seq > voted.recoveredStableCheckpoint then
          record.seq
        else
          voted.recoveredStableCheckpoint
      recoveredView := max voted.recoveredView record.view }
  else
    voted

/-- The `match phase_u8` of the closure. -/
def replayPhase (topology : Topology) (recovered : Recovered)
    (record : Record) : Recovered :=
  match record.phase.toNat with
  | 0 =>
      { recovered with
        recoveredProposals :=
          insert record.proposalKey recovered.recoveredProposals }
  | 1 => topology.replayPrepare recovered record
  | 2 => topology.replayCommit recovered record
  | 3 => topology.replayViewChange recovered record
  | 4 => topology.replayCheckpoint recovered record
  | _ => recovered.fail

/-- The replay closure of `new_with_wal_path`. -/
def replayRecord (topology : Topology) (recovered : Recovered)
    (record : Record) : Recovered :=
  if recovered.recoveryError then
    recovered
  else if !topology.authenticates record then
    recovered.fail
  else if record.phase = Phase.prePrepare.toU8 ∧
      topology.rejectsProposal recovered record then
    recovered.fail
  else
    topology.replayPhase (observe recovered record) record

/-- The pruning after the replay and the construction of the state. -/
def recoveredState (topology : Topology) (recovered : Recovered)
    (wal : WriteAheadLog) : PbftState :=
  let stable := recovered.recoveredStableCheckpoint
  let keep := survives stable
  { topology with
    currentView := recovered.recoveredView
    highestSeq := recovered.recoveredSeq
    lastStableCheckpoint := stable
    preparedCertificates :=
      recovered.recoveredCertificates.retain fun slot => keep slot.2
    commitCertificates :=
      recovered.recoveredCommitCertificates.retain fun slot => keep slot.2
    newViewCertificates := recovered.recoveredNewViewCertificates
    committedDigest :=
      recovered.recoveredCommitted.retain fun slot => keep slot.2
    prePreparedProposals :=
      recovered.recoveredProposals.filter fun key => keep key.2.1
    prepareVotes :=
      recovered.recoveredPrepareVotes.retain fun key => keep key.2.1
    commitVotes :=
      recovered.recoveredCommitVotes.retain fun key => keep key.2.1
    checkpointVotes :=
      recovered.recoveredCheckpointVotes.retain fun key => keep key.2.1
    viewChangeVotes := recovered.recoveredViewChangeVotes
    wal := wal
    walFailed := false }

/-- Recovery from a log, given the constructor's checked topology. -/
def recover (topology : Topology) (wal : WriteAheadLog) :
    Except NewError PbftState :=
  match wal.replayLog topology.replayRecord Recovered.initial with
  | (.error _, _) => .error .walReplayError
  | (.ok _, recovered) =>
      if recovered.recoveryError then
        .error .walReplayError
      else
        .ok (topology.recoveredState recovered wal)

end Topology

/-- `PbftState::new_with_wal_path`, on a log file that could be opened. -/
def newWithWalPath (totalNodes : Nat)
    (initialPublicKeys : AssocMap UInt32 G2Projective)
    (masterPublicKey : G2Projective) (wal : WriteAheadLog) :
    Except NewError PbftState :=
  match Topology.new totalNodes initialPublicKeys masterPublicKey with
  | .error error => .error error
  | .ok topology => topology.recover wal

end SovereignLattice
