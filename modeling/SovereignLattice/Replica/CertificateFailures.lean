import SovereignLattice.Pbft.Progress
import SovereignLattice.Replica.SmallCluster

/-!
# Certificates always verify

The handler checks every certificate that it has just assembled.  With keys from
one polynomial these checks cannot fail, since every stored vote was verified
when it arrived; the view-change votes need an invariant of their own.
-/

namespace SovereignLattice

section CertificateFailures

variable [Curve]

/-- Every stored view-change vote verifies for its own target view. -/
def Topology.ViewVotesAuthentic (topology : Topology)
    (votes : AssocMap UInt64 ViewChangeVotes) : Prop :=
  ∀ view supporters, votes.get? view = some supporters →
    ∀ sender seq digest signature,
      supporters.get? sender = some (seq, digest, signature) →
        topology.Verifies .viewChange (view, seq, digest) sender signature

namespace Topology.ViewVotesAuthentic

variable {topology : Topology} {votes : AssocMap UInt64 ViewChangeVotes}

theorem empty : topology.ViewVotesAuthentic ∅ := by
  intro view supporters stored
  simp at stored

/-- One more verified vote among the supporters of its target view. -/
theorem supporter (authentic : topology.ViewVotesAuthentic votes)
    {key : ProposalKey} {sender : UInt32} {signature : G1Projective}
    (verifies : topology.Verifies .viewChange key sender signature)
    {voter : UInt32} {seq : UInt64} {digest : Digest} {voted : G1Projective}
    (stored : ((votes.getD key.1 ∅).insert sender
      (key.2.1, key.2.2, signature)).get? voter = some (seq, digest, voted)) :
    topology.Verifies .viewChange (key.1, seq, digest) voter voted := by
  rw [AssocMap.get?_insert] at stored
  by_cases own : voter = sender
  · subst own
    rw [if_pos rfl, Option.some.injEq] at stored
    cases stored
    exact verifies
  · rw [if_neg own] at stored
    cases known : votes.get? key.1 with
    | none => simp [AssocMap.getD, known] at stored
    | some supporters =>
        rw [AssocMap.getD_of_get? ∅ known] at stored
        exact authentic key.1 supporters known voter seq digest voted stored

theorem insert (authentic : topology.ViewVotesAuthentic votes)
    {key : ProposalKey} {sender : UInt32} {signature : G1Projective}
    (verifies : topology.Verifies .viewChange key sender signature) :
    topology.ViewVotesAuthentic (votes.insert key.1
      ((votes.getD key.1 ∅).insert sender (key.2.1, key.2.2, signature))) := by
  intro view supporters stored voter seq digest voted found
  rw [AssocMap.get?_insert] at stored
  by_cases same : view = key.1
  · subst same
    rw [if_pos rfl, Option.some.injEq] at stored
    subst stored
    exact authentic.supporter verifies found
  · rw [if_neg same] at stored
    exact authentic view supporters stored voter seq digest voted found

end Topology.ViewVotesAuthentic

/-- Every stored vote of a state verifies. -/
structure VotesVerified (state : PbftState) : Prop where
  chain : state.Chained
  viewVotes : state.toTopology.ViewVotesAuthentic state.viewChangeVotes

namespace VotesVerified

theorem stages {state staged : PbftState} {msg : PbftMessage}
    {response : Response}
    (transition : PbftState.Stages state msg response staged)
    (authenticated : state.Authenticated msg) (verified : VotesVerified state) :
    VotesVerified staged := by
  refine ⟨transition.chained authenticated verified.chain, ?_⟩
  rw [PbftState.Authenticated] at authenticated
  cases transition with
  | prePrepare => exact verified.viewVotes
  | prepare => exact verified.viewVotes
  | commit => exact verified.viewVotes
  | viewChangeVote phase later backed few =>
      rw [phase] at authenticated
      exact verified.viewVotes.insert authenticated
  | viewChangeQuorum maxSeq digest selected phase =>
      rw [phase] at authenticated
      exact verified.viewVotes.insert authenticated
  | checkpointVote => exact verified.viewVotes
  | checkpointQuorum => exact verified.viewVotes

theorem handleMessage {state : PbftState} (verified : VotesVerified state)
    (msg : PbftMessage) (io : WalIo) :
    VotesVerified (state.handleMessage msg io).2 := by
  apply PbftState.handleMessage_invariant VotesVerified ?_ ?_ verified
  · intro before wal failed holds
    exact ⟨holds.chain, holds.viewVotes⟩
  · intro response staged transition authenticated _
    exact verified.stages transition authenticated

theorem handleAll {state : PbftState} (verified : VotesVerified state)
    (calls : List (PbftMessage × WalIo)) :
    VotesVerified (state.handleAll calls) :=
  PbftState.handleAll_invariant VotesVerified
    (fun _ msg io before => before.handleMessage msg io) verified calls

end VotesVerified

/-- The view-change votes that replay has found verify. -/
def ReplayVerified (topology : Topology) (recovered : Recovered) : Prop :=
  topology.ViewVotesAuthentic recovered.recoveredViewChangeVotes

/-- Replay verifies every vote that it stores. -/
theorem votesVerified_of_recover {topology : Topology} {wal : WriteAheadLog}
    {state : PbftState} (ok : topology.recover wal = .ok state) :
    VotesVerified state := by
  have preserved : ∀ current record next, ReplayVerified topology current →
      Topology.Replays topology current record next →
        ReplayVerified topology next := by
    intro current record next authentic replays
    have observed : ReplayVerified topology (Topology.observe current record) := by
      simpa [ReplayVerified] using authentic
    cases replays with
    | viewChangeVote phase verifies backed few => exact observed.insert verifies
    | viewChangeQuorum maxSeq digest selected phase verifies =>
        exact observed.insert verifies
    | _ => exact observed
  have initially : ReplayVerified topology Recovered.initial :=
    Topology.ViewVotesAuthentic.empty
  refine ⟨Topology.recover_chained ok, ?_⟩
  rcases Topology.recover_invariant initially preserved ok with
    ⟨recovered, authentic, rfl⟩
  exact authentic

/-! ## The checks of the handler -/

section Checks

variable {state : PbftState} {msg : PbftMessage} {coefficients : List Scalar}

theorem onPrepare_certified (dealt : DealtKeys state.toTopology coefficients)
    (verified : VotesVerified state)
    (verifies : state.toTopology.Verifies .prepare msg.proposalKey msg.senderId
      msg.signature) :
    (state.onPrepare msg).1 ≠ .error .certificateVerificationFailed := by
  intro answer
  rw [PbftState.onPrepare] at answer
  split at answer
  · simp at answer
  split at answer
  · simp at answer
  dsimp only at answer
  split_ifs at answer with quorum failed
  · have certified := dealt.certified_withVote
      verified.chain.prepareVotes_authentic verifies quorum
    rw [Bool.not_eq_true'] at failed
    exact absurd (certified.symm.trans failed) (by decide)

theorem onCommit_certified (dealt : DealtKeys state.toTopology coefficients)
    (verified : VotesVerified state)
    (verifies : state.toTopology.Verifies .commit msg.proposalKey msg.senderId
      msg.signature) :
    (state.onCommit msg).1 ≠ .error .certificateVerificationFailed := by
  intro answer
  rw [PbftState.onCommit] at answer
  split at answer
  · simp at answer
  split at answer
  · simp at answer
  split at answer
  · simp at answer
  split at answer
  · simp at answer
  dsimp only at answer
  split_ifs at answer with quorum failed
  · have certified := dealt.certified_withVote
      verified.chain.commitVotes_authentic verifies quorum
    rw [Bool.not_eq_true'] at failed
    exact absurd (certified.symm.trans failed) (by decide)

/-- A verified prepare for a known proposal is recorded. -/
theorem onPrepare_records (dealt : DealtKeys state.toTopology coefficients)
    (verified : VotesVerified state)
    (verifies : state.toTopology.Verifies .prepare msg.proposalKey msg.senderId
      msg.signature)
    (view : msg.view = state.currentView)
    (proposed : msg.proposalKey ∈ state.prePreparedProposals) :
    ∃ response, state.onPrepare msg =
      (.ok response, state.withLedger (state.ledger.recordPrepare
        state.quorumSize msg.proposalKey msg.senderId msg.signature)) := by
  rw [PbftState.onPrepare]
  rw [if_neg (not_not.mpr view), if_neg (not_not.mpr proposed)]
  dsimp only
  split
  · rename_i quorum
    have certified := dealt.certified_withVote
      verified.chain.prepareVotes_authentic verifies quorum
    refine ⟨.certificateOkPrepared, ?_⟩
    have enough : state.quorumSize ≤ (state.ledger.prepareVotes.withVote
        msg.proposalKey msg.senderId msg.signature).len := quorum
    rw [VoteLedger.recordPrepare_of_quorum enough, if_neg]
    · rfl
    · rw [Bool.not_eq_true', Bool.not_eq_false]
      exact certified
  · rename_i few
    refine ⟨.voteOkPrepare, ?_⟩
    have short : (state.ledger.prepareVotes.withVote msg.proposalKey msg.senderId
        msg.signature).len < state.quorumSize := Nat.lt_of_not_le few
    rw [VoteLedger.recordPrepare_of_few short]
    rfl

/-- A verified commit for a prepared slot is recorded. -/
theorem onCommit_records (dealt : DealtKeys state.toTopology coefficients)
    (verified : VotesVerified state)
    (verifies : state.toTopology.Verifies .commit msg.proposalKey msg.senderId
      msg.signature)
    (view : msg.view = state.currentView)
    (proposed : msg.proposalKey ∈ state.prePreparedProposals)
    {cert : PreparedCertificate}
    (prepared : state.preparedCertificates.get? (msg.view, msg.seq) = some cert)
    (agrees : ∀ existing,
      state.committedDigest.get? (msg.view, msg.seq) = some existing →
        existing = msg.digest) :
    ∃ response, state.onCommit msg =
      (.ok response, state.withLedger (state.ledger.recordCommit
        state.quorumSize msg.proposalKey msg.senderId msg.signature)) := by
  have backed : (state.preparedCertificates.values.any fun cert =>
      cert.view = msg.view ∧ cert.seq = msg.seq ∧ cert.digest = msg.digest ∧
        cert.verify state.quorumSize state.masterPublicKey) = true := by
    rcases verified.chain.prepared_chain msg.view msg.seq cert prepared with
      ⟨sameView, sameSeq, _, _, _, valid⟩
    have sameDigest := verified.chain.digest_of_prepared proposed prepared
    rw [List.any_eq_true]
    exact ⟨cert, AssocMap.mem_values_iff.mpr ⟨_, prepared⟩,
      decide_eq_true ⟨sameView, sameSeq, sameDigest, valid⟩⟩
  have unopposed : ¬ ∃ existing,
      state.committedDigest.get? (msg.view, msg.seq) = some existing ∧
        existing ≠ msg.digest := by
    intro opposed
    rcases opposed with ⟨existing, stored, different⟩
    exact different (agrees existing stored)
  rw [PbftState.onCommit]
  rw [if_neg (not_not.mpr view), if_neg (not_not.mpr proposed), backed,
    if_neg (by decide), if_neg unopposed]
  dsimp only
  split
  · rename_i quorum
    have certified := dealt.certified_withVote
      verified.chain.commitVotes_authentic verifies quorum
    refine ⟨.committedOk, ?_⟩
    have enough : state.quorumSize ≤ (state.ledger.commitVotes.withVote
        msg.proposalKey msg.senderId msg.signature).len := quorum
    rw [VoteLedger.recordCommit_of_quorum enough, if_neg]
    · rfl
    · rw [Bool.not_eq_true', Bool.not_eq_false]
      exact certified
  · rename_i few
    refine ⟨.voteOkCommit, ?_⟩
    have short : (state.ledger.commitVotes.withVote msg.proposalKey msg.senderId
        msg.signature).len < state.quorumSize := Nat.lt_of_not_le few
    rw [VoteLedger.recordCommit_of_few short]
    rfl

/-- The assembled new-view certificate verifies, for any keys. -/
theorem onViewChange_verified (verified : VotesVerified state)
    (verifies : state.toTopology.Verifies .viewChange msg.proposalKey msg.senderId
      msg.signature) :
    (state.onViewChange msg).1 ≠ .error .newViewVerificationFailed := by
  intro answer
  rw [PbftState.onViewChange] at answer
  split at answer
  · simp at answer
  split at answer
  · simp at answer
  dsimp only at answer
  split_ifs at answer with quorum
  · rw [PbftState.enterNewView] at answer
    dsimp only at answer
    split at answer
    · simp at answer
    rename_i maxSeq digest slot
    split_ifs at answer with missing failed
    · simp at answer
    · rw [Bool.not_eq_true'] at failed
      have found : 0 < maxSeq →
          (boundCertificate state.preparedCertificates.values msg.view maxSeq
            digest state.quorumSize state.masterPublicKey).isSome := by
        intro positive
        rw [Option.isSome_iff_ne_none]
        intro nothing
        exact missing ⟨positive, Option.isNone_iff_eq_none.mpr nothing⟩
      have valid := NewViewCertificate.verify_bound quorum slot found
        fun _ _ _ _ voted => (verified.viewVotes.supporter verifies voted).2
      exact absurd (valid.symm.trans failed) (by decide)

/-- The closure accepts every certificate that it assembles. -/
theorem stage_certified (dealt : DealtKeys state.toTopology coefficients)
    (verified : VotesVerified state) (authenticated : state.Authenticated msg) :
    (state.stage msg).1 ≠ .error .certificateVerificationFailed ∧
      (state.stage msg).1 ≠ .error .newViewVerificationFailed := by
  rw [PbftState.Authenticated] at authenticated
  rw [PbftState.stage]
  cases phase : msg.phase with
  | prePrepare =>
      simp only [PbftState.onPrePrepare]
      split_ifs <;> simp
  | prepare =>
      rw [phase] at authenticated
      refine ⟨onPrepare_certified dealt verified authenticated, ?_⟩
      simp only [PbftState.onPrepare]
      split_ifs <;> simp
  | commit =>
      rw [phase] at authenticated
      refine ⟨onCommit_certified dealt verified authenticated, ?_⟩
      simp only [PbftState.onCommit]
      split_ifs <;> simp
  | viewChange =>
      rw [phase] at authenticated
      refine ⟨?_, onViewChange_verified verified authenticated⟩
      simp only [PbftState.onViewChange, PbftState.enterNewView]
      split_ifs
      · simp
      · simp
      · split
        · simp
        · split_ifs <;> simp
      · simp
  | checkpoint =>
      simp only [PbftState.onCheckpoint]
      split_ifs <;> simp

end Checks

/-- With keys from one polynomial no call after recovery reports a certificate
that fails to verify, and every quorum of verified votes passes the threshold
check. -/
theorem certificateFailures_unreachable {totalNodes : Nat}
    {initialPublicKeys : AssocMap UInt32 G2Projective}
    {masterPublicKey : G2Projective} {wal : WriteAheadLog} {initial : PbftState}
    (started : newWithWalPath totalNodes initialPublicKeys masterPublicKey wal =
      .ok initial)
    {coefficients : List Scalar}
    (dealt : DealtKeys initial.toTopology coefficients) :
    (∀ (calls : List (PbftMessage × WalIo)) (msg : PbftMessage) (io : WalIo),
      ((initial.handleAll calls).handleMessage msg io).1 ≠
          .error .certificateVerificationFailed ∧
        ((initial.handleAll calls).handleMessage msg io).1 ≠
          .error .newViewVerificationFailed) ∧
    (∀ (phase : Phase) (key : ProposalKey) (sigs : SignatureMap),
      (∀ sender signature, sigs.get? sender = some signature →
        initial.toTopology.Verifies phase key sender signature) →
      initial.quorumSize ≤ sigs.len →
        verifyThresholdSignature
          (canonicalMsg phase.toU8 key.1 key.2.1 key.2.2) sigs
            initial.masterPublicKey initial.quorumSize = true) := by
  rcases newWithWalPath_eq_ok.mp started with ⟨topology, _, recovers⟩
  have verifiedInitial := votesVerified_of_recover recovers
  refine ⟨?_, fun _ _ _ verifies quorum => dealt.certified verifies quorum⟩
  intro calls msg io
  have verified := verifiedInitial.handleAll calls
  have sameTopology := initial.handleAll_sameTopology calls
  by_cases shell : PbftState.IsShellAnswer
      ((initial.handleAll calls).handleMessage msg io).1
  · constructor
    all_goals
      intro answer
      simp [PbftState.IsShellAnswer, answer] at shell
  · rcases PbftState.stage_of_handleMessage shell with
      ⟨authenticated, answered, _⟩
    rw [← answered]
    exact stage_certified (sameTopology ▸ dealt) verified authenticated

end CertificateFailures

section SmallRun

open SmallCluster

attribute [local instance] smallCurve

/-- A proposal and two of its prepares, the first from the highest id. -/
def onePrepareMissing : List (PbftMessage × WalIo) :=
  (signed .prePrepare 0 1 (digestOf 7) 0 ::
    [3, 1].map (signed .prepare 0 1 (digestOf 7))).map fun msg => (msg, .durable)

/-- The theorem at the call that assembles a prepared certificate. -/
theorem certificateFailures_unreachable_atPrepare :
    ((topology.fresh.handleAll onePrepareMissing).handleMessage
          (signed .prepare 0 1 (digestOf 7) 2) .durable).1 =
        .ok .certificateOkPrepared ∧
      ((topology.fresh.handleAll onePrepareMissing).handleMessage
          (signed .prepare 0 1 (digestOf 7) 2) .durable).1 ≠
        .error .certificateVerificationFailed := by
  have answer : ((topology.fresh.handleAll onePrepareMissing).handleMessage
      (signed .prepare 0 1 (digestOf 7) 2) .durable).1 =
        .ok .certificateOkPrepared := by
    decide +kernel
  have unreachable := certificateFailures_unreachable topology.fresh_started
    dealtKeys_topology
  exact ⟨answer, (unreachable.1 onePrepareMissing
    (signed .prepare 0 1 (digestOf 7) 2) .durable).1⟩

end SmallRun

end SovereignLattice
