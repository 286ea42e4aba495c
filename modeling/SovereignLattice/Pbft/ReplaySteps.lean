import SovereignLattice.Pbft.Recovery
import SovereignLattice.Pbft.VoteLedger

/-!
# What a replayed record can do

A record that replay accepts is one of seven transitions, as in the live
handler; here the relation and the closure agree in both directions, so it also
says which records replay accepts.
-/

namespace SovereignLattice

variable [Curve]

namespace Recovered

/-- The slot-level part of the recovered state. -/
def ledger (recovered : Recovered) : VoteLedger where
  proposals := recovered.recoveredProposals
  prepareVotes := recovered.recoveredPrepareVotes
  commitVotes := recovered.recoveredCommitVotes
  checkpointVotes := recovered.recoveredCheckpointVotes
  prepared := recovered.recoveredCertificates
  commits := recovered.recoveredCommitCertificates
  committed := recovered.recoveredCommitted

def withLedger (recovered : Recovered) (ledger : VoteLedger) : Recovered :=
  { recovered with
    recoveredProposals := ledger.proposals
    recoveredPrepareVotes := ledger.prepareVotes
    recoveredCommitVotes := ledger.commitVotes
    recoveredCheckpointVotes := ledger.checkpointVotes
    recoveredCertificates := ledger.prepared
    recoveredCommitCertificates := ledger.commits
    recoveredCommitted := ledger.committed }

/-- The supporters of a target view after one more view-change record. -/
def supportersWith (recovered : Recovered) (record : Record) :
    ViewChangeVotes :=
  (recovered.recoveredViewChangeVotes.getD record.view ∅).insert
    record.senderId (record.seq, record.digest, record.signature)

def withSupporters (recovered : Recovered) (record : Record) : Recovered :=
  { recovered with
    recoveredViewChangeVotes :=
      recovered.recoveredViewChangeVotes.insert record.view
        (recovered.supportersWith record) }

end Recovered

namespace Topology

section Observe

variable (recovered : Recovered) (record : Record)

/-- `observe` only moves the recovered view and sequence. -/
theorem observe_eq :
    observe recovered record =
      { recovered with
        recoveredView := (observe recovered record).recoveredView
        recoveredSeq := (observe recovered record).recoveredSeq } := by
  unfold observe
  dsimp only
  split_ifs <;> rfl

@[simp]
theorem observe_ledger : (observe recovered record).ledger = recovered.ledger := by
  rw [observe_eq]
  rfl

@[simp]
theorem observe_viewChangeVotes :
    (observe recovered record).recoveredViewChangeVotes =
      recovered.recoveredViewChangeVotes := by
  rw [observe_eq]

@[simp]
theorem observe_newViewCertificates :
    (observe recovered record).recoveredNewViewCertificates =
      recovered.recoveredNewViewCertificates := by
  rw [observe_eq]

@[simp]
theorem observe_stableCheckpoint :
    (observe recovered record).recoveredStableCheckpoint =
      recovered.recoveredStableCheckpoint := by
  rw [observe_eq]

@[simp]
theorem observe_recoveryError :
    (observe recovered record).recoveryError = recovered.recoveryError := by
  rw [observe_eq]

@[simp]
theorem supportersWith_observe :
    (observe recovered record).supportersWith record =
      recovered.supportersWith record := by
  rw [Recovered.supportersWith, observe_viewChangeVotes,
    ← Recovered.supportersWith]

theorem observe_view :
    (observe recovered record).recoveredView =
      if record.phase ≤ Phase.commit.toU8 ∧
          record.view > recovered.recoveredView then
        record.view
      else
        recovered.recoveredView := by
  unfold observe
  dsimp only
  split_ifs <;> rfl

variable {recovered record}

theorem observe_view_of_le (notLater : record.view ≤ recovered.recoveredView) :
    (observe recovered record).recoveredView = recovered.recoveredView := by
  rw [observe_view, if_neg]
  intro both
  rcases both with ⟨_, later⟩
  exact absurd later (UInt64.not_lt.mpr notLater)

theorem observe_view_of_phase (voting : ¬ record.phase ≤ Phase.commit.toU8) :
    (observe recovered record).recoveredView = recovered.recoveredView := by
  rw [observe_view, if_neg fun both => voting both.1]

end Observe

/-- The accepted transitions of the replay closure. -/
inductive Replays (topology : Topology) (recovered : Recovered)
    (record : Record) : Recovered → Prop
  | prePrepare
      (phase : record.phase = Phase.prePrepare.toU8)
      (verifies : topology.Verifies .prePrepare record.proposalKey
        record.senderId record.signature)
      (leader : record.senderId = topology.getExpectedLeader record.view)
      (unique : ∀ digest, (record.view, record.seq, digest) ∈
        recovered.ledger.proposals → digest = record.digest) :
      Replays topology recovered record
        ((observe recovered record).withLedger
          (recovered.ledger.propose record.proposalKey))
  | prepare
      (phase : record.phase = Phase.prepare.toU8)
      (verifies : topology.Verifies .prepare record.proposalKey
        record.senderId record.signature)
      (proposed : record.proposalKey ∈ recovered.ledger.proposals)
      (certified : topology.quorumSize ≤
          (recovered.ledger.prepareVotes.withVote record.proposalKey
            record.senderId record.signature).len →
        (preparedCertificateOf record.proposalKey
          (recovered.ledger.prepareVotes.withVote record.proposalKey
            record.senderId record.signature)).verify topology.quorumSize
              topology.masterPublicKey = true) :
      Replays topology recovered record
        ((observe recovered record).withLedger
          (recovered.ledger.recordPrepare topology.quorumSize
            record.proposalKey record.senderId record.signature))
  | commit (cert : PreparedCertificate)
      (phase : record.phase = Phase.commit.toU8)
      (verifies : topology.Verifies .commit record.proposalKey
        record.senderId record.signature)
      (proposed : record.proposalKey ∈ recovered.ledger.proposals)
      (held : cert ∈ recovered.ledger.prepared.values)
      (certView : cert.view = record.view)
      (certSeq : cert.seq = record.seq)
      (certDigest : cert.digest = record.digest)
      (verified : cert.verify topology.quorumSize topology.masterPublicKey =
        true)
      (certified : topology.quorumSize ≤
          (recovered.ledger.commitVotes.withVote record.proposalKey
            record.senderId record.signature).len →
        (commitCertificateOf record.proposalKey
          (recovered.ledger.commitVotes.withVote record.proposalKey
            record.senderId record.signature)).verify topology.quorumSize
              topology.masterPublicKey = true) :
      Replays topology recovered record
        ((observe recovered record).withLedger
          (recovered.ledger.recordCommit topology.quorumSize
            record.proposalKey record.senderId record.signature))
  | viewChangeVote
      (phase : record.phase = Phase.viewChange.toU8)
      (verifies : topology.Verifies .viewChange record.proposalKey
        record.senderId record.signature)
      (backed : 0 < record.seq → ∃ cert ∈ recovered.ledger.prepared.values,
        cert.supports record.view record.seq record.digest topology.quorumSize
          topology.masterPublicKey = true)
      (few : (recovered.supportersWith record).len < topology.quorumSize) :
      Replays topology recovered record
        ((observe recovered record).withSupporters record)
  | viewChangeQuorum (maxSeq : UInt64) (digest : Digest)
      (selected : Option PreparedCertificate)
      (phase : record.phase = Phase.viewChange.toU8)
      (verifies : topology.Verifies .viewChange record.proposalKey
        record.senderId record.signature)
      (backed : 0 < record.seq → ∃ cert ∈ recovered.ledger.prepared.values,
        cert.supports record.view record.seq record.digest topology.quorumSize
          topology.masterPublicKey = true)
      (quorum : topology.quorumSize ≤ (recovered.supportersWith record).len)
      (slot : highestViewChangeSlot (recovered.supportersWith record) =
        some (maxSeq, digest))
      (selection : selected =
        boundCertificate recovered.ledger.prepared.values record.view maxSeq
          digest topology.quorumSize topology.masterPublicKey)
      (found : 0 < maxSeq → selected.isSome)
      (verified : NewViewCertificate.verify
        { targetView := record.view,
          viewChangeVotes := recovered.supportersWith record,
          selectedPreparedCertificate := selected }
        topology.quorumSize topology.masterPublicKey topology.publicKeys =
          true) :
      Replays topology recovered record
        { (observe recovered record).withSupporters record with
          recoveredView :=
            max (observe recovered record).recoveredView record.view
          recoveredNewViewCertificates :=
            recovered.recoveredNewViewCertificates.insert record.view
              { targetView := record.view,
                viewChangeVotes := recovered.supportersWith record,
                selectedPreparedCertificate := selected } }
  | checkpointVote
      (phase : record.phase = Phase.checkpoint.toU8)
      (verifies : topology.Verifies .checkpoint record.proposalKey
        record.senderId record.signature)
      (few : (recovered.ledger.checkpointVotes.withVote record.proposalKey
        record.senderId record.signature).len < topology.quorumSize) :
      Replays topology recovered record
        ((observe recovered record).withLedger
          (recovered.ledger.recordCheckpoint record.proposalKey
            record.senderId record.signature))
  | checkpointQuorum
      (phase : record.phase = Phase.checkpoint.toU8)
      (verifies : topology.Verifies .checkpoint record.proposalKey
        record.senderId record.signature)
      (quorum : topology.quorumSize ≤
        (recovered.ledger.checkpointVotes.withVote record.proposalKey
          record.senderId record.signature).len) :
      Replays topology recovered record
        { (observe recovered record).withLedger
            (recovered.ledger.recordCheckpoint record.proposalKey
              record.senderId record.signature) with
          recoveredStableCheckpoint :=
            if record.seq > recovered.recoveredStableCheckpoint then
              record.seq
            else
              recovered.recoveredStableCheckpoint
          recoveredView :=
            max (observe recovered record).recoveredView record.view }

/-- An accepted transition fails no check. -/
theorem Replays.clean {topology : Topology} {recovered next : Recovered}
    {record : Record} (replays : Replays topology recovered record next)
    (clean : recovered.recoveryError = false) : next.recoveryError = false := by
  rw [← observe_recoveryError recovered record] at clean
  cases replays <;> exact clean

/-! ## The closure and the relation agree -/

/-- An authenticated record is a vote of some phase that verifies. -/
theorem authenticates_iff {topology : Topology} {record : Record} :
    topology.authenticates record = true ↔
      ∃ phase : Phase, record.phase = phase.toU8 ∧
        topology.Verifies phase record.proposalKey record.senderId
          record.signature := by
  rw [authenticates]
  constructor
  · intro authentic
    split at authentic
    · cases authentic
    rename_i known
    rw [not_or, not_not] at known
    obtain ⟨small, registered⟩ := known
    split at authentic
    · cases authentic
    rename_i pk key
    rcases Phase.exists_toU8 small with ⟨phase, samePhase⟩
    refine ⟨phase, samePhase, registered, pk, key, ?_⟩
    rwa [Record.canonicalBytes, samePhase] at authentic
  · intro authentic
    rcases authentic with ⟨phase, samePhase, registered, pk, key, verified⟩
    have small : ¬ record.phase > Phase.checkpoint.toU8 := by
      rw [samePhase]
      exact Phase.toU8_le phase
    rw [if_neg (not_or.mpr ⟨small, not_not.mpr registered⟩), key]
    dsimp only
    rwa [Record.canonicalBytes, samePhase]

section Phases

variable {topology : Topology} {recovered : Recovered} {record : Record}

theorem rejectsProposal_iff :
    topology.rejectsProposal recovered record = false ↔
      record.senderId = topology.getExpectedLeader record.view ∧
        ∀ digest, (record.view, record.seq, digest) ∈
          recovered.ledger.proposals → digest = record.digest := by
  rw [rejectsProposal]
  rw [decide_eq_false_iff_not, not_or, not_not]
  constructor
  · intro both
    rcases both with ⟨leader, unique⟩
    refine ⟨leader, ?_⟩
    intro digest member
    by_contra different
    exact unique ⟨_, member, rfl, rfl, different⟩
  · intro both
    rcases both with ⟨leader, unique⟩
    refine ⟨leader, ?_⟩
    intro other
    rcases other with ⟨⟨view, seq, digest⟩, member, rfl, rfl, different⟩
    exact different (unique digest member)

theorem replayPrepare_ok
    (clean : (topology.replayPrepare recovered record).recoveryError = false) :
    record.proposalKey ∈ recovered.ledger.proposals ∧
      (topology.quorumSize ≤
          (recovered.ledger.prepareVotes.withVote record.proposalKey
            record.senderId record.signature).len →
        (preparedCertificateOf record.proposalKey
          (recovered.ledger.prepareVotes.withVote record.proposalKey
            record.senderId record.signature)).verify topology.quorumSize
              topology.masterPublicKey = true) := by
  rw [replayPrepare] at clean
  split at clean
  · cases clean
  rename_i proposed
  refine ⟨not_not.mp proposed, ?_⟩
  intro quorum
  dsimp only at clean
  split at clean
  · split at clean
    · cases clean
    · rename_i verified
      rwa [Bool.not_eq_true, Bool.not_eq_false'] at verified
  · rename_i few
    exact absurd quorum few

theorem replayPrepare_eq
    (proposed : record.proposalKey ∈ recovered.ledger.proposals)
    (certified : topology.quorumSize ≤
          (recovered.ledger.prepareVotes.withVote record.proposalKey
            record.senderId record.signature).len →
        (preparedCertificateOf record.proposalKey
          (recovered.ledger.prepareVotes.withVote record.proposalKey
            record.senderId record.signature)).verify topology.quorumSize
              topology.masterPublicKey = true) :
    topology.replayPrepare recovered record =
      recovered.withLedger
        (recovered.ledger.recordPrepare topology.quorumSize record.proposalKey
          record.senderId record.signature) := by
  rw [replayPrepare]
  split
  · rename_i orphan
    exact absurd proposed orphan
  dsimp only
  split
  · rename_i quorum
    split
    · rename_i failed
      rw [Bool.not_eq_true'] at failed
      exact absurd (failed.symm.trans (certified quorum)) (by decide)
    · have enough : topology.quorumSize ≤
          (recovered.ledger.prepareVotes.withVote record.proposalKey record.senderId
            record.signature).len := quorum
      rw [VoteLedger.recordPrepare_of_quorum enough]
      rfl
  · rename_i few
    have short : (recovered.ledger.prepareVotes.withVote record.proposalKey
        record.senderId record.signature).len < topology.quorumSize :=
      Nat.lt_of_not_le few
    rw [VoteLedger.recordPrepare_of_few short]
    rfl

theorem replayCommit_ok
    (clean : (topology.replayCommit recovered record).recoveryError = false) :
    record.proposalKey ∈ recovered.ledger.proposals ∧
      (∃ cert ∈ recovered.ledger.prepared.values, cert.view = record.view ∧
        cert.seq = record.seq ∧ cert.digest = record.digest ∧
        cert.verify topology.quorumSize topology.masterPublicKey = true) ∧
      (topology.quorumSize ≤
          (recovered.ledger.commitVotes.withVote record.proposalKey
            record.senderId record.signature).len →
        (commitCertificateOf record.proposalKey
          (recovered.ledger.commitVotes.withVote record.proposalKey
            record.senderId record.signature)).verify topology.quorumSize
              topology.masterPublicKey = true) := by
  rw [replayCommit] at clean
  split at clean
  · cases clean
  rename_i guards
  simp only [not_or, not_not, Bool.not_eq_true', Bool.not_eq_false,
    List.any_eq_true, decide_eq_true_eq] at guards
  refine ⟨guards.1, guards.2, ?_⟩
  intro quorum
  dsimp only at clean
  split at clean
  · split at clean
    · cases clean
    · rename_i verified
      rwa [Bool.not_eq_true, Bool.not_eq_false'] at verified
  · rename_i few
    exact absurd quorum few

theorem replayCommit_eq
    (proposed : record.proposalKey ∈ recovered.ledger.proposals)
    (backed : ∃ cert ∈ recovered.ledger.prepared.values,
      cert.view = record.view ∧ cert.seq = record.seq ∧
        cert.digest = record.digest ∧
        cert.verify topology.quorumSize topology.masterPublicKey = true)
    (certified : topology.quorumSize ≤
          (recovered.ledger.commitVotes.withVote record.proposalKey
            record.senderId record.signature).len →
        (commitCertificateOf record.proposalKey
          (recovered.ledger.commitVotes.withVote record.proposalKey
            record.senderId record.signature)).verify topology.quorumSize
              topology.masterPublicKey = true) :
    topology.replayCommit recovered record =
      recovered.withLedger
        (recovered.ledger.recordCommit topology.quorumSize record.proposalKey
          record.senderId record.signature) := by
  have guards : ¬ (record.proposalKey ∉ recovered.recoveredProposals ∨
      (!recovered.recoveredCertificates.values.any fun cert =>
        cert.view = record.view ∧ cert.seq = record.seq ∧
          cert.digest = record.digest ∧
          cert.verify topology.quorumSize topology.masterPublicKey) = true) := by
    simp only [not_or, not_not, Bool.not_eq_true', Bool.not_eq_false,
      List.any_eq_true, decide_eq_true_eq]
    exact ⟨proposed, backed⟩
  rw [replayCommit]
  rw [if_neg guards]
  dsimp only
  split
  · rename_i quorum
    split
    · rename_i failed
      rw [Bool.not_eq_true'] at failed
      exact absurd (failed.symm.trans (certified quorum)) (by decide)
    · have enough : topology.quorumSize ≤
          (recovered.ledger.commitVotes.withVote record.proposalKey record.senderId
            record.signature).len := quorum
      rw [VoteLedger.recordCommit_of_quorum enough]
      rfl
  · rename_i few
    have short : (recovered.ledger.commitVotes.withVote record.proposalKey
        record.senderId record.signature).len < topology.quorumSize :=
      Nat.lt_of_not_le few
    rw [VoteLedger.recordCommit_of_few short]
    rfl

theorem replayCheckpoint_of_few
    (few : (recovered.ledger.checkpointVotes.withVote record.proposalKey
      record.senderId record.signature).len < topology.quorumSize) :
    topology.replayCheckpoint recovered record =
      recovered.withLedger
        (recovered.ledger.recordCheckpoint record.proposalKey record.senderId
          record.signature) := by
  rw [replayCheckpoint]
  dsimp only
  split
  · rename_i quorum
    exact absurd quorum (Nat.not_le.mpr few)
  · rfl

theorem replayCheckpoint_of_quorum
    (quorum : topology.quorumSize ≤
      (recovered.ledger.checkpointVotes.withVote record.proposalKey
        record.senderId record.signature).len) :
    topology.replayCheckpoint recovered record =
      { recovered.withLedger
          (recovered.ledger.recordCheckpoint record.proposalKey
            record.senderId record.signature) with
        recoveredStableCheckpoint :=
          if record.seq > recovered.recoveredStableCheckpoint then
            record.seq
          else
            recovered.recoveredStableCheckpoint
        recoveredView := max recovered.recoveredView record.view } := by
  rw [replayCheckpoint]
  dsimp only
  split
  · rfl
  · rename_i few
    exact absurd quorum few

/-- The checks of a completed view-change quorum and what they leave. -/
theorem replayNewView_ok {supporters : ViewChangeVotes}
    (clean : (topology.replayNewView recovered record
      supporters).recoveryError = false) :
    ∃ maxSeq digest selected,
      highestViewChangeSlot supporters = some (maxSeq, digest) ∧
      selected = boundCertificate recovered.recoveredCertificates.values
        record.view maxSeq digest topology.quorumSize
          topology.masterPublicKey ∧
      (0 < maxSeq → selected.isSome) ∧
      NewViewCertificate.verify
        { targetView := record.view, viewChangeVotes := supporters,
          selectedPreparedCertificate := selected }
        topology.quorumSize topology.masterPublicKey topology.publicKeys =
          true := by
  rw [replayNewView] at clean
  split at clean
  · cases clean
  rename_i maxSeq digest slot
  dsimp only at clean
  split at clean
  · cases clean
  rename_i found
  split at clean
  · cases clean
  rename_i verified
  rw [Bool.not_eq_true, Bool.not_eq_false'] at verified
  refine ⟨maxSeq, digest, _, slot, rfl, ?_, verified⟩
  intro positive
  rw [Option.isSome_iff_ne_none]
  intro missing
  exact found ⟨positive, Option.isNone_iff_eq_none.mpr missing⟩

theorem replayNewView_eq {supporters : ViewChangeVotes} {maxSeq : UInt64}
    {digest : Digest} {selected : Option PreparedCertificate}
    (slot : highestViewChangeSlot supporters = some (maxSeq, digest))
    (selection : selected =
      boundCertificate recovered.recoveredCertificates.values record.view
        maxSeq digest topology.quorumSize topology.masterPublicKey)
    (found : 0 < maxSeq → selected.isSome)
    (verified : NewViewCertificate.verify
      { targetView := record.view, viewChangeVotes := supporters,
        selectedPreparedCertificate := selected }
      topology.quorumSize topology.masterPublicKey topology.publicKeys = true) :
    topology.replayNewView recovered record supporters =
      { recovered with
        recoveredView := max recovered.recoveredView record.view
        recoveredNewViewCertificates :=
          recovered.recoveredNewViewCertificates.insert record.view
            { targetView := record.view, viewChangeVotes := supporters,
              selectedPreparedCertificate := selected } } := by
  subst selection
  rw [replayNewView]
  rw [slot]
  dsimp only
  rw [if_neg, if_neg]
  · rw [verified]
    decide
  · intro both
    rcases both with ⟨positive, missing⟩
    have present := found positive
    rw [Option.isNone_iff_eq_none] at missing
    rw [missing] at present
    cases present

/-! ### One record -/

theorem replayViewChange_ok
    (clean : (topology.replayViewChange recovered record).recoveryError =
      false) :
    (0 < record.seq → ∃ cert ∈ recovered.ledger.prepared.values,
      cert.supports record.view record.seq record.digest topology.quorumSize
        topology.masterPublicKey = true) ∧
    (topology.quorumSize ≤ (recovered.supportersWith record).len →
      (topology.replayNewView (recovered.withSupporters record) record
        (recovered.supportersWith record)).recoveryError = false) := by
  rw [replayViewChange] at clean
  split at clean
  · cases clean
  rename_i unbacked
  constructor
  · intro positive
    have found : recovered.recoveredCertificates.values.any (fun cert =>
        cert.supports record.view record.seq record.digest topology.quorumSize
          topology.masterPublicKey) = true := by
      simpa [positive] using unbacked
    exact List.any_eq_true.mp found
  · intro quorum
    dsimp only at clean
    split at clean
    · exact clean
    · rename_i few
      exact absurd quorum few

/-- A view-change record that reports nothing, or a held certificate. -/
theorem replayViewChange_of_backed
    (backed : 0 < record.seq → ∃ cert ∈ recovered.ledger.prepared.values,
      cert.supports record.view record.seq record.digest topology.quorumSize
        topology.masterPublicKey = true) :
    topology.replayViewChange recovered record =
      if topology.quorumSize ≤ (recovered.supportersWith record).len then
        topology.replayNewView (recovered.withSupporters record) record
          (recovered.supportersWith record)
      else
        recovered.withSupporters record := by
  rw [replayViewChange]
  split
  · rename_i unbacked
    simp only [Bool.not_eq_true', List.any_eq_false] at unbacked
    rcases backed unbacked.1 with ⟨cert, held, supports⟩
    exact absurd supports (unbacked.2 cert held)
  · rfl

/-- The closure, for an authenticated record that is no rejected proposal. -/
theorem replayRecord_eq_replayPhase {phase : Phase}
    (clean : recovered.recoveryError = false)
    (samePhase : record.phase = phase.toU8)
    (verifies : topology.Verifies phase record.proposalKey record.senderId
      record.signature)
    (admitted : record.phase = Phase.prePrepare.toU8 →
      topology.rejectsProposal recovered record = false) :
    topology.replayRecord recovered record =
      topology.replayPhase (observe recovered record) record := by
  have authentic : topology.authenticates record = true :=
    authenticates_iff.mpr ⟨phase, samePhase, verifies⟩
  rw [replayRecord]
  rw [clean, authentic, if_neg (by decide), if_neg (by decide), if_neg]
  intro both
  rcases both with ⟨proposal, rejected⟩
  rw [admitted proposal] at rejected
  cases rejected

/-- The arm of `replayPhase` for a phase. -/
def replayArm (topology : Topology) (recovered : Recovered) (record : Record) :
    Phase → Recovered
  | .prePrepare =>
      recovered.withLedger (recovered.ledger.propose record.proposalKey)
  | .prepare => topology.replayPrepare recovered record
  | .commit => topology.replayCommit recovered record
  | .viewChange => topology.replayViewChange recovered record
  | .checkpoint => topology.replayCheckpoint recovered record

theorem replayPhase_eq {phase : Phase} (samePhase : record.phase = phase.toU8) :
    topology.replayPhase recovered record =
      topology.replayArm recovered record phase := by
  rw [replayPhase]
  rw [samePhase]
  cases phase <;> rfl

/-- The closure for an authenticated record is the arm of its phase. -/
theorem replayRecord_eq_replayArm {phase : Phase}
    (clean : recovered.recoveryError = false)
    (samePhase : record.phase = phase.toU8)
    (verifies : topology.Verifies phase record.proposalKey record.senderId
      record.signature)
    (admitted : record.phase = Phase.prePrepare.toU8 →
      topology.rejectsProposal recovered record = false) :
    topology.replayRecord recovered record =
      topology.replayArm (observe recovered record) record phase := by
  rw [replayRecord_eq_replayPhase clean samePhase verifies admitted,
    replayPhase_eq samePhase]

theorem prepared_withSupporters_observe (recovered : Recovered) (record : Record) :
    ((observe recovered record).withSupporters record).recoveredCertificates =
      recovered.ledger.prepared :=
  congrArg VoteLedger.prepared (observe_ledger recovered record)

/-- Replay accepts every record that one of the transitions describes. -/
theorem replayRecord_eq_of_replays {next : Recovered}
    (clean : recovered.recoveryError = false)
    (replays : Replays topology recovered record next) :
    topology.replayRecord recovered record = next := by
  have admitted : ∀ {phase : Phase}, record.phase = phase.toU8 →
      phase ≠ .prePrepare → record.phase = Phase.prePrepare.toU8 →
        topology.rejectsProposal recovered record = false := by
    intro phase samePhase different proposal
    exact absurd (Phase.toU8_injective (samePhase.symm.trans proposal)) different
  cases replays with
  | prePrepare phase verifies leader unique =>
      rw [replayRecord_eq_replayArm clean phase verifies
        fun _ => rejectsProposal_iff.mpr ⟨leader, unique⟩, replayArm, observe_ledger]
  | prepare phase verifies proposed certified =>
      rw [replayRecord_eq_replayArm clean phase verifies
        (admitted phase (by decide)), replayArm]
      rw [replayPrepare_eq (by rwa [observe_ledger])
        (by rwa [observe_ledger]), observe_ledger]
  | commit cert phase verifies proposed held certView certSeq certDigest
      verified certified =>
      rw [replayRecord_eq_replayArm clean phase verifies
        (admitted phase (by decide)), replayArm]
      rw [replayCommit_eq (by rwa [observe_ledger])
        (by
          rw [observe_ledger]
          exact ⟨cert, held, certView, certSeq, certDigest, verified⟩)
        (by rwa [observe_ledger]), observe_ledger]
  | viewChangeVote phase verifies backed few =>
      rw [replayRecord_eq_replayArm clean phase verifies
        (admitted phase (by decide)), replayArm]
      rw [replayViewChange_of_backed (by rwa [observe_ledger]),
        supportersWith_observe, if_neg (Nat.not_le.mpr few)]
  | viewChangeQuorum maxSeq digest selected phase verifies backed quorum slot
      selection found verified =>
      rw [replayRecord_eq_replayArm clean phase verifies
        (admitted phase (by decide)), replayArm]
      rw [replayViewChange_of_backed (by rwa [observe_ledger]),
        supportersWith_observe, if_pos quorum]
      have bound := selection
      rw [← prepared_withSupporters_observe recovered record] at bound
      rw [replayNewView_eq slot bound found verified]
      simp only [Recovered.withSupporters, observe_newViewCertificates]
  | checkpointVote phase verifies few =>
      rw [replayRecord_eq_replayArm clean phase verifies
        (admitted phase (by decide)), replayArm]
      rw [replayCheckpoint_of_few (by rwa [observe_ledger]), observe_ledger]
  | checkpointQuorum phase verifies quorum =>
      rw [replayRecord_eq_replayArm clean phase verifies
        (admitted phase (by decide)), replayArm]
      rw [replayCheckpoint_of_quorum (by rwa [observe_ledger]), observe_ledger,
        observe_stableCheckpoint]

/-- What a record has passed that replay accepts. -/
theorem replayRecord_passed
    (clean : (topology.replayRecord recovered record).recoveryError = false) :
    recovered.recoveryError = false ∧ topology.authenticates record = true ∧
      (record.phase = Phase.prePrepare.toU8 →
        topology.rejectsProposal recovered record = false) := by
  have before : recovered.recoveryError = false := by
    unfold replayRecord at clean
    split at clean
    · rename_i failed
      exact absurd (failed.symm.trans clean) (by decide)
    · rename_i notFailed
      exact Bool.not_eq_true _ ▸ notFailed
  have authentic : topology.authenticates record = true := by
    unfold replayRecord at clean
    rw [before, if_neg (by decide)] at clean
    split at clean
    · cases clean
    · rename_i authentic
      rwa [Bool.not_eq_true, Bool.not_eq_false'] at authentic
  refine ⟨before, authentic, ?_⟩
  intro proposal
  unfold replayRecord at clean
  rw [before, authentic, if_neg (by decide), if_neg (by decide)] at clean
  split at clean
  · cases clean
  · rename_i notRejected
    rw [not_and, Bool.not_eq_true] at notRejected
    exact notRejected proposal

/-- A record that replay accepts makes one of the seven transitions. -/
theorem replayRecord_ok
    (clean : (topology.replayRecord recovered record).recoveryError = false) :
    recovered.recoveryError = false ∧
      Replays topology recovered record
        (topology.replayRecord recovered record) := by
  rcases replayRecord_passed clean with ⟨before, authentic, admitted⟩
  refine ⟨before, ?_⟩
  have accepted : ∀ {next : Recovered}, Replays topology recovered record next →
      Replays topology recovered record
        (topology.replayRecord recovered record) := by
    intro next replays
    rw [replayRecord_eq_of_replays before replays]
    exact replays
  rcases authenticates_iff.mp authentic with ⟨phase, samePhase, verifies⟩
  rw [replayRecord_eq_replayArm before samePhase verifies admitted] at clean
  unfold replayArm at clean
  cases phase with
  | prePrepare =>
      rcases rejectsProposal_iff.mp (admitted samePhase) with ⟨leader, unique⟩
      exact accepted (.prePrepare samePhase verifies leader unique)
  | prepare =>
      rcases replayPrepare_ok clean with ⟨proposed, certified⟩
      rw [observe_ledger] at proposed certified
      exact accepted (.prepare samePhase verifies proposed certified)
  | commit =>
      obtain ⟨proposed, ⟨cert, held, certView, certSeq, certDigest, verified⟩,
        certified⟩ := replayCommit_ok clean
      rw [observe_ledger] at proposed certified held
      exact accepted (.commit cert samePhase verifies proposed held certView
        certSeq certDigest verified certified)
  | viewChange =>
      rcases replayViewChange_ok clean with ⟨backed, newView⟩
      rw [observe_ledger] at backed
      rw [supportersWith_observe] at newView
      by_cases quorum :
          topology.quorumSize ≤ (recovered.supportersWith record).len
      · rcases replayNewView_ok (newView quorum) with
          ⟨maxSeq, digest, selected, slot, selection, found, verified⟩
        rw [prepared_withSupporters_observe] at selection
        exact accepted (.viewChangeQuorum maxSeq digest selected samePhase
          verifies backed quorum slot selection found verified)
      · exact accepted (.viewChangeVote samePhase verifies backed
          (Nat.lt_of_not_le quorum))
  | checkpoint =>
      by_cases quorum : topology.quorumSize ≤
          (recovered.ledger.checkpointVotes.withVote record.proposalKey
            record.senderId record.signature).len
      · exact accepted (.checkpointQuorum samePhase verifies quorum)
      · exact accepted (.checkpointVote samePhase verifies
          (Nat.lt_of_not_le quorum))

end Phases

end Topology
end SovereignLattice
