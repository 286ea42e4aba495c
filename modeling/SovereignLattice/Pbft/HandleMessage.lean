import SovereignLattice.Pbft.State

/-!
# `PbftState::handle_message`

The closure of `handle_message` mutates the state before some of its checks,
so each phase returns the state that it has reached also with an error, and the
rollback is the separate step that the code makes of it: a snapshot of twelve
fields, restored on every error of the closure and on a failed append.
-/

namespace SovereignLattice

variable [Curve]

/-- The outcomes of the two log operations that one call may make. -/
structure WalIo where
  append : AppendIo
  prune : PruneIo

/-- Every file operation succeeds. -/
def WalIo.durable : WalIo where
  append := .synced
  prune := .synced

/-- The rollback image. -/
structure Snapshot where
  currentView : UInt64
  highestSeq : UInt64
  lastStableCheckpoint : UInt64
  preparedCertificates : AssocMap (UInt64 × UInt64) PreparedCertificate
  commitCertificates : AssocMap (UInt64 × UInt64) CommitCertificate
  newViewCertificates : AssocMap UInt64 NewViewCertificate
  committedDigest : AssocMap (UInt64 × UInt64) Digest
  prePreparedProposals : Finset ProposalKey
  prepareVotes : VoteMap
  commitVotes : VoteMap
  checkpointVotes : VoteMap
  viewChangeVotes : AssocMap UInt64 ViewChangeVotes

def PbftMessage.toRecord (msg : PbftMessage) : Record where
  view := msg.view
  seq := msg.seq
  phase := msg.phase.toU8
  senderId := msg.senderId
  digest := msg.digest
  signature := msg.signature

namespace PbftState

def snapshot (state : PbftState) : Snapshot where
  currentView := state.currentView
  highestSeq := state.highestSeq
  lastStableCheckpoint := state.lastStableCheckpoint
  preparedCertificates := state.preparedCertificates
  commitCertificates := state.commitCertificates
  newViewCertificates := state.newViewCertificates
  committedDigest := state.committedDigest
  prePreparedProposals := state.prePreparedProposals
  prepareVotes := state.prepareVotes
  commitVotes := state.commitVotes
  checkpointVotes := state.checkpointVotes
  viewChangeVotes := state.viewChangeVotes

def restoreState (image : Snapshot) (state : PbftState) : PbftState :=
  { state with
    currentView := image.currentView
    highestSeq := image.highestSeq
    lastStableCheckpoint := image.lastStableCheckpoint
    preparedCertificates := image.preparedCertificates
    commitCertificates := image.commitCertificates
    newViewCertificates := image.newViewCertificates
    committedDigest := image.committedDigest
    prePreparedProposals := image.prePreparedProposals
    prepareVotes := image.prepareVotes
    commitVotes := image.commitVotes
    checkpointVotes := image.checkpointVotes
    viewChangeVotes := image.viewChangeVotes }

/-- What the closure of `handle_message` returns, with the state it leaves. -/
abbrev Staged : Type :=
  Except PbftError Response × PbftState

def onPrePrepare (state : PbftState) (msg : PbftMessage) : Staged :=
  if msg.view ≠ state.currentView then
    (.error .viewMismatch, state)
  else if msg.senderId ≠ state.getExpectedLeader msg.view then
    (.error .leaderViolation, state)
  else if ∃ key ∈ state.prePreparedProposals,
      key.1 = msg.view ∧ key.2.1 = msg.seq ∧ key.2.2 ≠ msg.digest then
    (.error .equivocationDetected, state)
  else if msg.proposalKey ∈ state.prePreparedProposals then
    (.error .duplicateProposal, state)
  else
    (.ok .inboundOkPreprepare,
      { state with
        prePreparedProposals :=
          insert msg.proposalKey state.prePreparedProposals
        highestSeq := max state.highestSeq msg.seq })

def onPrepare (state : PbftState) (msg : PbftMessage) : Staged :=
  if msg.view ≠ state.currentView then
    (.error .viewMismatch, state)
  else if msg.proposalKey ∉ state.prePreparedProposals then
    (.error .orphanPrepare, state)
  else
    let sigs := (state.prepareVotes.getD msg.proposalKey ∅).insert
      msg.senderId msg.signature
    let voted := { state with
      prepareVotes := state.prepareVotes.insert msg.proposalKey sigs }
    if sigs.len ≥ state.quorumSize then
      let cert : PreparedCertificate :=
        { view := msg.view, seq := msg.seq, digest := msg.digest,
          signatures := sigs }
      if !cert.verify state.quorumSize state.masterPublicKey then
        (.error .certificateVerificationFailed, voted)
      else
        (.ok .certificateOkPrepared,
          { voted with
            preparedCertificates :=
              voted.preparedCertificates.insert (msg.view, msg.seq) cert })
    else
      (.ok .voteOkPrepare, voted)

def onCommit (state : PbftState) (msg : PbftMessage) : Staged :=
  if msg.view ≠ state.currentView then
    (.error .viewMismatch, state)
  else if msg.proposalKey ∉ state.prePreparedProposals then
    (.error .orphanCommit, state)
  else if !state.preparedCertificates.values.any fun cert =>
      cert.view = msg.view ∧ cert.seq = msg.seq ∧ cert.digest = msg.digest ∧
        cert.verify state.quorumSize state.masterPublicKey then
    (.error .safetyViolation, state)
  else if ∃ existing,
      state.committedDigest.get? (msg.view, msg.seq) = some existing ∧
        existing ≠ msg.digest then
    (.error .equivocationDetected, state)
  else
    let sigs := (state.commitVotes.getD msg.proposalKey ∅).insert
      msg.senderId msg.signature
    let voted := { state with
      commitVotes := state.commitVotes.insert msg.proposalKey sigs }
    if sigs.len ≥ state.quorumSize then
      let commitCert : CommitCertificate :=
        { view := msg.view, seq := msg.seq, digest := msg.digest,
          signatures := sigs }
      if !commitCert.verify state.quorumSize state.masterPublicKey then
        (.error .certificateVerificationFailed, voted)
      else
        (.ok .committedOk,
          { voted with
            commitCertificates :=
              voted.commitCertificates.insert (msg.view, msg.seq) commitCert
            committedDigest :=
              voted.committedDigest.insert (msg.view, msg.seq) msg.digest })
    else
      (.ok .voteOkCommit, voted)

/-- `highest_seq` after a new view has bound a certificate. -/
def raisedSeq (highestSeq : UInt64) : Option PreparedCertificate → UInt64
  | some cert => max highestSeq cert.seq
  | none => highestSeq

/-- The part of the view-change branch after the quorum is complete. -/
def enterNewView (state : PbftState) (msg : PbftMessage)
    (supporters : ViewChangeVotes) : Staged :=
  let entered := { state with currentView := msg.view }
  match highestViewChangeSlot supporters with
  | none => (.error .conflictingViewChangeDigests, entered)
  | some (maxQuorumSeq, bestDigest) =>
      let boundCert :=
        boundCertificate entered.preparedCertificates.values msg.view
          maxQuorumSeq bestDigest entered.quorumSize entered.masterPublicKey
      if maxQuorumSeq > 0 ∧ boundCert.isNone then
        (.error .missingQuorumCertificate, entered)
      else
        let raised :=
          { entered with highestSeq := raisedSeq entered.highestSeq boundCert }
        let newViewCert : NewViewCertificate :=
          { targetView := msg.view, viewChangeVotes := supporters,
            selectedPreparedCertificate := boundCert }
        if !newViewCert.verify raised.quorumSize raised.masterPublicKey
            raised.publicKeys then
          (.error .newViewVerificationFailed, raised)
        else
          (.ok .viewChangeOk,
            { raised with
              newViewCertificates :=
                raised.newViewCertificates.insert msg.view newViewCert })

def onViewChange (state : PbftState) (msg : PbftMessage) : Staged :=
  if msg.view ≤ state.currentView then
    (.error .viewChangeInvalid, state)
  else if msg.seq > 0 ∧ !state.preparedCertificates.values.any fun cert =>
      cert.seq = msg.seq ∧ cert.digest = msg.digest ∧
        cert.verify state.quorumSize state.masterPublicKey then
    (.error .certificateInvalid, state)
  else
    let supporters := (state.viewChangeVotes.getD msg.view ∅).insert
      msg.senderId (msg.seq, msg.digest, msg.signature)
    let voted := { state with
      viewChangeVotes := state.viewChangeVotes.insert msg.view supporters }
    if supporters.len ≥ state.quorumSize then
      voted.enterNewView msg supporters
    else
      (.ok .voteOkViewChange, voted)

def onCheckpoint (state : PbftState) (msg : PbftMessage) : Staged :=
  if msg.view ≠ state.currentView then
    (.error .viewMismatch, state)
  else
    let sigs := (state.checkpointVotes.getD msg.proposalKey ∅).insert
      msg.senderId msg.signature
    let voted := { state with
      checkpointVotes := state.checkpointVotes.insert msg.proposalKey sigs }
    if sigs.len ≥ state.quorumSize then
      (.ok .checkpointStabilized,
        { voted with
          lastStableCheckpoint := msg.seq
          prePreparedProposals :=
            voted.prePreparedProposals.filter fun key =>
              decide (key.2.1 > msg.seq)
          prepareVotes := voted.prepareVotes.above msg.seq
          commitVotes := voted.commitVotes.above msg.seq
          preparedCertificates :=
            voted.preparedCertificates.retain fun slot => slot.2 > msg.seq
          commitCertificates :=
            voted.commitCertificates.retain fun slot => slot.2 > msg.seq
          committedDigest :=
            voted.committedDigest.retain fun slot => slot.2 > msg.seq
          checkpointVotes := voted.checkpointVotes.above msg.seq })
    else
      (.ok .voteOkCheckpoint, voted)

/-- The `match msg.phase` of the closure. -/
def stage (state : PbftState) (msg : PbftMessage) : Staged :=
  match msg.phase with
  | .prePrepare => state.onPrePrepare msg
  | .prepare => state.onPrepare msg
  | .commit => state.onCommit msg
  | .viewChange => state.onViewChange msg
  | .checkpoint => state.onCheckpoint msg

/-- The end of `handle_message`: append the record, then compact the log where
the message stabilised a checkpoint. -/
def persist (image : Snapshot) (msg : PbftMessage) (io : WalIo)
    (response : Response) (staged : PbftState) : Staged :=
  match staged.wal.appendEntry msg.toRecord io.append with
  | (.error _, wal) =>
      (.error .walError,
        { restoreState image { staged with wal := wal } with
          walFailed := true })
  | (.ok _, wal) =>
      let appended := { staged with wal := wal }
      if msg.phase = .checkpoint ∧ response = .checkpointStabilized then
        match appended.wal.pruneBefore msg.seq io.prune with
        | (.error _, wal) =>
            (.error .walPruneError,
              { appended with wal := wal, walFailed := true })
        | (.ok _, wal) => (.ok response, { appended with wal := wal })
      else
        (.ok response, appended)

def handleMessage (state : PbftState) (msg : PbftMessage) (io : WalIo) :
    Staged :=
  if state.walFailed then
    (.error .walUnavailable, state)
  else if registered : msg.senderId ∈ state.registeredNodes then
    let pk := state.publicKeyOf msg.senderId registered
    if !verifyBlsSignature msg.canonicalBytes msg.signature pk then
      (.error .cryptoAuthFailed, state)
    else if msg.phase = .checkpoint ∧ msg.seq ≤ state.lastStableCheckpoint then
      (.ok .checkpointObsolete, state)
    else
      match state.stage msg with
      | (.error error, staged) =>
          (.error error, restoreState state.snapshot staged)
      | (.ok response, staged) =>
          persist state.snapshot msg io response staged
  else
    (.error .authFailed, state)

end PbftState
end SovereignLattice
