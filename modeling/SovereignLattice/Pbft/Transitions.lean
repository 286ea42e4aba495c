import SovereignLattice.Pbft.HandleMessage
import SovereignLattice.Pbft.VoteLedger

/-!
# What a call of the handler can do

Every message that the closure accepts is one of seven transitions, with its
guards, and every call of the handler has one of a few outcomes.  Invariants
of the live handler are proved by cases on these.
-/

namespace SovereignLattice

variable [Curve]

namespace PbftState

/-- The slot-level part of the state. -/
def ledger (state : PbftState) : VoteLedger where
  proposals := state.prePreparedProposals
  prepareVotes := state.prepareVotes
  commitVotes := state.commitVotes
  checkpointVotes := state.checkpointVotes
  prepared := state.preparedCertificates
  commits := state.commitCertificates
  committed := state.committedDigest

def withLedger (state : PbftState) (ledger : VoteLedger) : PbftState :=
  { state with
    prePreparedProposals := ledger.proposals
    prepareVotes := ledger.prepareVotes
    commitVotes := ledger.commitVotes
    checkpointVotes := ledger.checkpointVotes
    preparedCertificates := ledger.prepared
    commitCertificates := ledger.commits
    committedDigest := ledger.committed }

/-- The supporters of a target view after one more view-change vote. -/
def supportersWith (state : PbftState) (msg : PbftMessage) : ViewChangeVotes :=
  (state.viewChangeVotes.getD msg.view ∅).insert msg.senderId
    (msg.seq, msg.digest, msg.signature)

/-- The state after a view-change vote has been stored. -/
def withSupporters (state : PbftState) (msg : PbftMessage) : PbftState :=
  { state with
    viewChangeVotes :=
      state.viewChangeVotes.insert msg.view (state.supportersWith msg) }

/-- The accepted transitions: response and state for each branch of the closure
that succeeds, with the guards that it has passed. -/
inductive Stages (state : PbftState) (msg : PbftMessage) :
    Response → PbftState → Prop
  | prePrepare
      (phase : msg.phase = .prePrepare)
      (view : msg.view = state.currentView)
      (leader : msg.senderId = state.getExpectedLeader msg.view)
      (unique : ∀ digest, (msg.view, msg.seq, digest) ∈
        state.prePreparedProposals → digest = msg.digest)
      (fresh : msg.proposalKey ∉ state.prePreparedProposals) :
      Stages state msg .inboundOkPreprepare
        { state.withLedger (state.ledger.propose msg.proposalKey) with
          highestSeq := max state.highestSeq msg.seq }
  | prepare (response : Response)
      (phase : msg.phase = .prepare)
      (view : msg.view = state.currentView)
      (proposed : msg.proposalKey ∈ state.prePreparedProposals)
      (certified : state.quorumSize ≤ (state.prepareVotes.withVote
          msg.proposalKey msg.senderId msg.signature).len →
        (preparedCertificateOf msg.proposalKey (state.prepareVotes.withVote
          msg.proposalKey msg.senderId msg.signature)).verify
            state.quorumSize state.masterPublicKey = true)
      (answer : response = .certificateOkPrepared ∨ response = .voteOkPrepare) :
      Stages state msg response
        (state.withLedger (state.ledger.recordPrepare state.quorumSize
          msg.proposalKey msg.senderId msg.signature))
  | commit (response : Response) (cert : PreparedCertificate)
      (phase : msg.phase = .commit)
      (view : msg.view = state.currentView)
      (proposed : msg.proposalKey ∈ state.prePreparedProposals)
      (held : cert ∈ state.preparedCertificates.values)
      (certView : cert.view = msg.view)
      (certSeq : cert.seq = msg.seq)
      (certDigest : cert.digest = msg.digest)
      (verified : cert.verify state.quorumSize state.masterPublicKey = true)
      (certified : state.quorumSize ≤ (state.commitVotes.withVote
          msg.proposalKey msg.senderId msg.signature).len →
        (commitCertificateOf msg.proposalKey (state.commitVotes.withVote
          msg.proposalKey msg.senderId msg.signature)).verify
            state.quorumSize state.masterPublicKey = true)
      (answer : response = .committedOk ∨ response = .voteOkCommit) :
      Stages state msg response
        (state.withLedger (state.ledger.recordCommit state.quorumSize
          msg.proposalKey msg.senderId msg.signature))
  | viewChangeVote
      (phase : msg.phase = .viewChange)
      (later : state.currentView < msg.view)
      (backed : 0 < msg.seq → ∃ cert ∈ state.preparedCertificates.values,
        cert.seq = msg.seq ∧ cert.digest = msg.digest ∧
          cert.verify state.quorumSize state.masterPublicKey = true)
      (few : (state.supportersWith msg).len < state.quorumSize) :
      Stages state msg .voteOkViewChange (state.withSupporters msg)
  | viewChangeQuorum (maxSeq : UInt64) (digest : Digest)
      (selected : Option PreparedCertificate)
      (phase : msg.phase = .viewChange)
      (later : state.currentView < msg.view)
      (backed : 0 < msg.seq → ∃ cert ∈ state.preparedCertificates.values,
        cert.seq = msg.seq ∧ cert.digest = msg.digest ∧
          cert.verify state.quorumSize state.masterPublicKey = true)
      (quorum : state.quorumSize ≤ (state.supportersWith msg).len)
      (slot : highestViewChangeSlot (state.supportersWith msg) =
        some (maxSeq, digest))
      (selection : selected =
        boundCertificate state.preparedCertificates.values msg.view maxSeq
          digest state.quorumSize state.masterPublicKey)
      (found : 0 < maxSeq → selected.isSome)
      (verified : NewViewCertificate.verify
        { targetView := msg.view, viewChangeVotes := state.supportersWith msg,
          selectedPreparedCertificate := selected }
        state.quorumSize state.masterPublicKey state.publicKeys = true) :
      Stages state msg .viewChangeOk
        { state.withSupporters msg with
          currentView := msg.view
          highestSeq := raisedSeq state.highestSeq selected
          newViewCertificates := state.newViewCertificates.insert msg.view
            { targetView := msg.view,
              viewChangeVotes := state.supportersWith msg,
              selectedPreparedCertificate := selected } }
  | checkpointVote
      (phase : msg.phase = .checkpoint)
      (view : msg.view = state.currentView)
      (few : (state.checkpointVotes.withVote msg.proposalKey msg.senderId
        msg.signature).len < state.quorumSize) :
      Stages state msg .voteOkCheckpoint
        (state.withLedger (state.ledger.recordCheckpoint msg.proposalKey
          msg.senderId msg.signature))
  | checkpointQuorum
      (phase : msg.phase = .checkpoint)
      (view : msg.view = state.currentView)
      (quorum : state.quorumSize ≤ (state.checkpointVotes.withVote
        msg.proposalKey msg.senderId msg.signature).len) :
      Stages state msg .checkpointStabilized
        { state.withLedger ((state.ledger.recordCheckpoint msg.proposalKey
            msg.senderId msg.signature).restrict fun seq => seq > msg.seq) with
          lastStableCheckpoint := msg.seq }

/-! ## The closure of the live handler -/

theorem onPrePrepare_ok {state staged : PbftState} {msg : PbftMessage}
    {response : Response} (phase : msg.phase = .prePrepare)
    (ok : state.onPrePrepare msg = (.ok response, staged)) :
    Stages state msg response staged := by
  rw [onPrePrepare] at ok
  split at ok
  · cases ok
  rename_i view
  split at ok
  · cases ok
  rename_i leader
  split at ok
  · cases ok
  rename_i unique
  split at ok
  · cases ok
  rename_i fresh
  cases ok
  refine .prePrepare phase (not_not.mp view) (not_not.mp leader) ?_ fresh
  intro digest member
  by_contra different
  exact unique ⟨_, member, rfl, rfl, different⟩

theorem onPrepare_ok {state staged : PbftState} {msg : PbftMessage}
    {response : Response} (phase : msg.phase = .prepare)
    (ok : state.onPrepare msg = (.ok response, staged)) :
    Stages state msg response staged := by
  rw [onPrepare] at ok
  split at ok
  · cases ok
  rename_i view
  split at ok
  · cases ok
  rename_i proposed
  dsimp only at ok
  split at ok
  · rename_i quorum
    split at ok
    · cases ok
    rename_i verified
    rw [Bool.not_eq_true, Bool.not_eq_false'] at verified
    cases ok
    have result := Stages.prepare .certificateOkPrepared phase
      (not_not.mp view) (not_not.mp proposed) (fun _ => verified) (Or.inl rfl)
    have enough : state.quorumSize ≤ (state.ledger.prepareVotes.withVote
        msg.proposalKey msg.senderId msg.signature).len := quorum
    rw [VoteLedger.recordPrepare_of_quorum enough] at result
    exact result
  · rename_i few
    cases ok
    have result := Stages.prepare .voteOkPrepare phase
      (not_not.mp view) (not_not.mp proposed) (fun quorum => absurd quorum few)
      (Or.inr rfl)
    have short : (state.ledger.prepareVotes.withVote msg.proposalKey msg.senderId
        msg.signature).len < state.quorumSize := Nat.lt_of_not_le few
    rw [VoteLedger.recordPrepare_of_few short] at result
    exact result

theorem onCommit_ok {state staged : PbftState} {msg : PbftMessage}
    {response : Response} (phase : msg.phase = .commit)
    (ok : state.onCommit msg = (.ok response, staged)) :
    Stages state msg response staged := by
  rw [onCommit] at ok
  split at ok
  · cases ok
  rename_i view
  split at ok
  · cases ok
  rename_i proposed
  split at ok
  · cases ok
  rename_i backed
  split at ok
  · cases ok
  simp only [Bool.not_eq_true', Bool.not_eq_false, List.any_eq_true,
    decide_eq_true_eq] at backed
  obtain ⟨cert, held, certView, certSeq, certDigest, verified⟩ := backed
  dsimp only at ok
  split at ok
  · rename_i quorum
    split at ok
    · cases ok
    rename_i certified
    rw [Bool.not_eq_true, Bool.not_eq_false'] at certified
    cases ok
    have result := Stages.commit .committedOk cert phase
      (not_not.mp view) (not_not.mp proposed) held certView certSeq certDigest
      verified (fun _ => certified) (Or.inl rfl)
    have enough : state.quorumSize ≤ (state.ledger.commitVotes.withVote
        msg.proposalKey msg.senderId msg.signature).len := quorum
    rw [VoteLedger.recordCommit_of_quorum enough] at result
    exact result
  · rename_i few
    cases ok
    have result := Stages.commit .voteOkCommit cert phase
      (not_not.mp view) (not_not.mp proposed) held certView certSeq certDigest
      verified (fun quorum => absurd quorum few) (Or.inr rfl)
    have short : (state.ledger.commitVotes.withVote msg.proposalKey msg.senderId
        msg.signature).len < state.quorumSize := Nat.lt_of_not_le few
    rw [VoteLedger.recordCommit_of_few short] at result
    exact result

theorem onViewChange_ok {state staged : PbftState} {msg : PbftMessage}
    {response : Response} (phase : msg.phase = .viewChange)
    (ok : state.onViewChange msg = (.ok response, staged)) :
    Stages state msg response staged := by
  rw [onViewChange] at ok
  split at ok
  · cases ok
  rename_i later
  split at ok
  · cases ok
  rename_i unbacked
  have after : state.currentView < msg.view := by grind
  have backed : 0 < msg.seq → ∃ cert ∈ state.preparedCertificates.values,
      cert.seq = msg.seq ∧ cert.digest = msg.digest ∧
        cert.verify state.quorumSize state.masterPublicKey = true := by
    intro positive
    simpa [positive] using unbacked
  dsimp only at ok
  split at ok
  · rename_i quorum
    rw [enterNewView] at ok
    dsimp only at ok
    split at ok
    · cases ok
    rename_i maxSeq digest slot
    split at ok
    · cases ok
    rename_i found
    split at ok
    · cases ok
    rename_i verified
    rw [Bool.not_eq_true, Bool.not_eq_false'] at verified
    cases ok
    refine .viewChangeQuorum maxSeq digest _ phase after backed quorum slot rfl
      ?_ verified
    intro positive
    rw [Option.isSome_iff_ne_none]
    intro missing
    exact found ⟨positive, Option.isNone_iff_eq_none.mpr missing⟩
  · rename_i few
    cases ok
    exact .viewChangeVote phase after backed (Nat.lt_of_not_le few)

theorem onCheckpoint_ok {state staged : PbftState} {msg : PbftMessage}
    {response : Response} (phase : msg.phase = .checkpoint)
    (ok : state.onCheckpoint msg = (.ok response, staged)) :
    Stages state msg response staged := by
  rw [onCheckpoint] at ok
  split at ok
  · cases ok
  rename_i view
  dsimp only at ok
  split at ok
  · rename_i quorum
    cases ok
    exact .checkpointQuorum phase (not_not.mp view) quorum
  · rename_i few
    cases ok
    exact .checkpointVote phase (not_not.mp view) (Nat.lt_of_not_le few)

/-- Whatever the closure accepts is one of the seven transitions. -/
theorem stage_ok {state staged : PbftState} {msg : PbftMessage}
    {response : Response} (ok : state.stage msg = (.ok response, staged)) :
    Stages state msg response staged := by
  rw [stage] at ok
  cases phase : msg.phase with
  | prePrepare => exact onPrePrepare_ok phase (by rwa [phase] at ok)
  | prepare => exact onPrepare_ok phase (by rwa [phase] at ok)
  | commit => exact onCommit_ok phase (by rwa [phase] at ok)
  | viewChange => exact onViewChange_ok phase (by rwa [phase] at ok)
  | checkpoint => exact onCheckpoint_ok phase (by rwa [phase] at ok)

/-! ## What the closure leaves alone -/

/-- Same topology, same log, same failure flag. -/
def SameShell (state staged : PbftState) : Prop :=
  staged.toTopology = state.toTopology ∧ staged.wal = state.wal ∧
    staged.walFailed = state.walFailed

theorem stage_sameShell (state : PbftState) (msg : PbftMessage) :
    SameShell state (state.stage msg).2 := by
  have refl : SameShell state state := ⟨rfl, rfl, rfl⟩
  rw [stage]
  cases msg.phase with
  | prePrepare =>
      simp only [onPrePrepare]
      split_ifs <;> exact refl
  | prepare =>
      simp only [onPrepare]
      split_ifs <;> exact refl
  | commit =>
      simp only [onCommit]
      split_ifs <;> exact refl
  | viewChange =>
      simp only [onViewChange, enterNewView]
      split_ifs
      · exact refl
      · exact refl
      · cases highestViewChangeSlot _ with
        | none => exact refl
        | some slot =>
            dsimp only
            split_ifs <;> exact refl
      · exact refl
  | checkpoint =>
      simp only [onCheckpoint]
      split_ifs <;> exact refl

/-- The snapshot covers everything that the closure can change. -/
theorem restoreState_snapshot {state staged : PbftState}
    (shell : SameShell state staged) :
    restoreState state.snapshot staged = state := by
  obtain ⟨topology, wal, walFailed⟩ := shell
  cases state
  cases staged
  subst topology wal walFailed
  rfl

/-- The snapshot does not cover the log: what was written stays. -/
theorem restoreState_wal {state staged : PbftState} (shell : SameShell state staged)
    (wal : WriteAheadLog) :
    restoreState state.snapshot { staged with wal := wal } =
      { state with wal := wal } := by
  have shellAfter : SameShell { state with wal := wal } { staged with wal := wal } :=
    ⟨shell.1, rfl, shell.2.2⟩
  exact restoreState_snapshot shellAfter

/-! ## The whole handler -/

/-- The message comes from a registered node and its signature verifies. -/
def Authenticated (state : PbftState) (msg : PbftMessage) : Prop :=
  state.toTopology.Verifies msg.phase msg.proposalKey msg.senderId msg.signature

/-- The state that a failed append leaves: rolled back, stopped, with a torn
record in the log. -/
def appendFailed (state : PbftState) (msg : PbftMessage) (written : Nat) :
    PbftState :=
  { state with
    wal := ⟨state.wal.file ++ msg.toRecord.encode.take written⟩
    walFailed := true }

/-- The outcomes of `handleMessage`. -/
inductive Outcome (state : PbftState) (msg : PbftMessage) (io : WalIo) :
    Except PbftError Response → PbftState → Prop
  | unavailable (failed : state.walFailed = true) :
      Outcome state msg io (.error .walUnavailable) state
  | rejected (error : PbftError)
      (notAppend : error ≠ .walError) (notPrune : error ≠ .walPruneError) :
      Outcome state msg io (.error error) state
  | obsolete (phase : msg.phase = .checkpoint)
      (old : msg.seq ≤ state.lastStableCheckpoint) :
      Outcome state msg io (.ok .checkpointObsolete) state
  | appendFailed (written : Nat) (failed : io.append = .failed written) :
      Outcome state msg io (.error .walError) (state.appendFailed msg written)
  | accepted (response : Response) (staged : PbftState)
      (running : state.walFailed = false)
      (authenticated : state.Authenticated msg)
      (newer : msg.phase = .checkpoint → state.lastStableCheckpoint < msg.seq)
      (stages : Stages state msg response staged)
      (unstable : response ≠ .checkpointStabilized) :
      Outcome state msg io (.ok response)
        { staged with wal := ⟨state.wal.file ++ msg.toRecord.encode⟩ }
  | stabilized (staged : PbftState) (image : Bytes)
      (running : state.walFailed = false)
      (authenticated : state.Authenticated msg)
      (newer : state.lastStableCheckpoint < msg.seq)
      (stages : Stages state msg .checkpointStabilized staged)
      (pruned : pruneBytes msg.seq (state.wal.file ++ msg.toRecord.encode) =
        .ok image) :
      Outcome state msg io (.ok .checkpointStabilized)
        { staged with wal := ⟨image⟩ }
  | pruneFailed (staged : PbftState) (wal : WriteAheadLog)
      (authenticated : state.Authenticated msg)
      (newer : state.lastStableCheckpoint < msg.seq)
      (stages : Stages state msg .checkpointStabilized staged)
      (cause : io.prune ≠ .synced ∨ ∃ error,
        pruneBytes msg.seq (state.wal.file ++ msg.toRecord.encode) =
          .error error) :
      Outcome state msg io (.error .walPruneError)
        { staged with wal := wal, walFailed := true }

theorem Stages.response_ne {state staged : PbftState} {msg : PbftMessage}
    {response : Response} (stages : Stages state msg response staged) :
    response ≠ .checkpointObsolete := by
  cases stages with
  | prepare _ _ _ _ _ answer => rcases answer with rfl | rfl <;> decide
  | commit _ _ _ _ _ _ _ _ _ _ _ answer =>
      rcases answer with rfl | rfl <;> decide
  | _ => decide

theorem Stages.checkpoint_of_stabilized {state staged : PbftState}
    {msg : PbftMessage}
    (stages : Stages state msg .checkpointStabilized staged) :
    msg.phase = .checkpoint := by
  cases stages with
  | prepare _ _ _ _ _ answer =>
      rcases answer with answer | answer <;> cases answer
  | commit _ _ _ _ _ _ _ _ _ _ _ answer =>
      rcases answer with answer | answer <;> cases answer
  | checkpointQuorum phase => exact phase

/-- The closure never answers with one of the log errors. -/
theorem stage_error_ne {state staged : PbftState} {msg : PbftMessage}
    {error : PbftError} (failed : state.stage msg = (.error error, staged)) :
    error ≠ .walError ∧ error ≠ .walPruneError := by
  rw [stage] at failed
  cases phase : msg.phase with
  | prePrepare =>
      simp only [phase, onPrePrepare] at failed
      split_ifs at failed <;> cases failed <;> decide
  | prepare =>
      simp only [phase, onPrepare] at failed
      split_ifs at failed <;> cases failed <;> decide
  | commit =>
      simp only [phase, onCommit] at failed
      split_ifs at failed <;> cases failed <;> decide
  | viewChange =>
      simp only [phase, onViewChange, enterNewView] at failed
      split_ifs at failed
      · cases failed
        decide
      · cases failed
        decide
      · split at failed
        · cases failed
          decide
        · split_ifs at failed <;> cases failed <;> decide
      · cases failed
  | checkpoint =>
      simp only [phase, onCheckpoint] at failed
      split_ifs at failed <;> cases failed
      decide

/-- The outcomes of the persisting end, for a closure that accepted. -/
theorem persist_outcome {state staged : PbftState} {msg : PbftMessage}
    {io : WalIo} {response : Response}
    (running : state.walFailed = false)
    (authenticated : state.Authenticated msg)
    (newer : msg.phase = .checkpoint → state.lastStableCheckpoint < msg.seq)
    (shell : SameShell state staged)
    (stages : Stages state msg response staged) :
    Outcome state msg io (persist state.snapshot msg io response staged).1
      (persist state.snapshot msg io response staged).2 := by
  have sameWal : staged.wal = state.wal := shell.2.1
  unfold persist
  cases append : io.append with
  | failed written =>
      simp only [WriteAheadLog.appendEntry, sameWal]
      rw [restoreState_wal shell]
      exact .appendFailed written append
  | synced =>
      simp only [WriteAheadLog.appendEntry, sameWal]
      by_cases stable : response = .checkpointStabilized
      · subst stable
        have phase := stages.checkpoint_of_stabilized
        rw [if_pos ⟨phase, rfl⟩]
        unfold WriteAheadLog.pruneBefore
        cases prune : io.prune with
        | synced =>
            cases pruned : pruneBytes msg.seq
                (state.wal.file ++ msg.toRecord.encode) with
            | error error =>
                exact .pruneFailed staged _ authenticated (newer phase) stages
                  (Or.inr ⟨error, pruned⟩)
            | ok image =>
                exact .stabilized staged image running authenticated
                  (newer phase) stages pruned
        | failed renamed =>
            have cause : io.prune ≠ .synced := by simp [prune]
            cases pruneBytes msg.seq
                (state.wal.file ++ msg.toRecord.encode) with
            | error error =>
                exact .pruneFailed staged _ authenticated (newer phase) stages
                  (Or.inl cause)
            | ok image =>
                exact .pruneFailed staged _ authenticated (newer phase) stages
                  (Or.inl cause)
      · rw [if_neg fun both => stable both.2]
        exact .accepted response staged running authenticated newer stages stable

/-- Every call of the handler has one of these outcomes. -/
theorem handleMessage_outcome (state : PbftState) (msg : PbftMessage)
    (io : WalIo) :
    Outcome state msg io (state.handleMessage msg io).1
      (state.handleMessage msg io).2 := by
  rw [handleMessage]
  cases running : state.walFailed with
  | true => exact .unavailable running
  | false =>
      rw [if_neg (by decide)]
      by_cases registered : msg.senderId ∈ state.registeredNodes
      · rw [dif_pos registered]
        dsimp only
        split_ifs with forged obsolete
        · exact .rejected .cryptoAuthFailed (by decide) (by decide)
        · exact .obsolete obsolete.1 obsolete.2
        · rw [Bool.not_eq_true, Bool.not_eq_false'] at forged
          have authenticated : state.Authenticated msg :=
            ⟨registered, _, (Option.some_get _).symm, forged⟩
          have shell := stage_sameShell state msg
          cases outcome : state.stage msg with
          | mk answer staged =>
              rw [outcome] at shell
              cases answer with
              | error error =>
                  dsimp only at shell ⊢
                  rw [restoreState_snapshot shell]
                  rcases stage_error_ne outcome with ⟨notAppend, notPrune⟩
                  exact .rejected error notAppend notPrune
              | ok response =>
                  have newer : msg.phase = .checkpoint →
                      state.lastStableCheckpoint < msg.seq := by
                    intro phase
                    have notOld : ¬ msg.seq ≤ state.lastStableCheckpoint :=
                      fun old => obsolete ⟨phase, old⟩
                    grind
                  exact persist_outcome running authenticated newer shell
                    (stage_ok outcome)
      · rw [dif_neg registered]
        exact .rejected .authFailed (by decide) (by decide)

/-- The result of a call, with the outcome that it is. -/
theorem exists_outcome (state : PbftState) (msg : PbftMessage) (io : WalIo) :
    ∃ answer after, state.handleMessage msg io = (answer, after) ∧
      Outcome state msg io answer after :=
  ⟨_, _, rfl, handleMessage_outcome state msg io⟩

end PbftState
end SovereignLattice
