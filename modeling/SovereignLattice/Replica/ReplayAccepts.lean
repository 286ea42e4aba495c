import SovereignLattice.Replica.SmallCluster
import SovereignLattice.Replica.Tracking

/-!
# Which logs replay accepts

For keys from one polynomial, replay of a well-formed log can fail in only two
ways: two proposals for one slot, or a view-change quorum whose highest reported
sequence has two digests.  The theorem is an equivalence, so it says exactly
when a replica can restart from its own log.
-/

namespace SovereignLattice

section ReplayAccepts

variable [Curve]

/-! ## The evidence behind a record -/

theorem votes_of_quorum {topology : Topology} {phase : Phase}
    {log : List Record} {key : ProposalKey}
    (quorum : topology.quorumSize ≤ (signersIn phase log key).card) :
    ∃ sigs, votesIn phase log key = some sigs ∧
      topology.quorumSize ≤ sigs.len := by
  have positive := topology.quorumSize_pos
  rcases exists_votesIn (positive.trans_le quorum) with ⟨sigs, votes⟩
  rw [card_signersIn votes] at quorum
  exact ⟨sigs, votes, quorum⟩

namespace Topology

variable {topology : Topology} {coefficients : List Scalar}
variable {log : List Record} {record : Record} {recovered : Recovered}

/-- The view-change records of a well-formed log, with what they rest on. -/
theorem WellFormed.viewChange_backed (wellFormed : topology.WellFormed log)
    (member : record ∈ log) (samePhase : record.phase = Phase.viewChange.toU8) :
    topology.Verifies .viewChange record.proposalKey record.senderId
        record.signature ∧
      (0 < record.seq → ∃ view < record.view, topology.quorumSize ≤
        (signersIn .prepare log (view, record.seq, record.digest)).card) := by
  induction wellFormed with
  | nil => cases member
  | concat before justified inductionHypothesis =>
      rw [List.mem_append, List.mem_singleton] at member
      rcases member with earlier | rfl
      · rcases inductionHypothesis earlier with ⟨verifies, backed⟩
        refine ⟨verifies, ?_⟩
        intro positive
        rcases backed positive with ⟨view, below, quorum⟩
        exact ⟨view, below, quorum.trans
          (Finset.card_le_card (signersIn_subset_concat _ _))⟩
      · obtain ⟨phase, samePhase', verifies, supported⟩ := justified
        rcases Phase.toU8_injective (samePhase'.symm.trans samePhase) with
          rfl : phase = .viewChange
        refine ⟨verifies, ?_⟩
        intro positive
        rcases supported positive with ⟨view, below, quorum⟩
        exact ⟨view, below, quorum.trans
          (Finset.card_le_card (signersIn_subset_concat _ _))⟩

theorem Reflects.prepared_of_quorum (reflects : topology.Reflects log recovered)
    {key : ProposalKey}
    (quorum : topology.quorumSize ≤ (signersIn .prepare log key).card) :
    ∃ cert ∈ recovered.ledger.prepared.values, cert.view = key.1 ∧
      cert.seq = key.2.1 ∧ cert.digest = key.2.2 ∧
      cert.verify topology.quorumSize topology.masterPublicKey = true := by
  rcases votes_of_quorum quorum with ⟨sigs, votes, enough⟩
  rw [← reflects.follows.prepareVotes key rfl] at votes
  have stored := reflects.complete.prepared_of_quorum key sigs votes enough
  rcases reflects.chain.prepared_chain key.1 key.2.1 _ stored with
    ⟨_, _, _, _, _, verified⟩
  exact ⟨_, AssocMap.mem_values_iff.mpr ⟨_, stored⟩, rfl, rfl, rfl, verified⟩

/-- A justified view-change record whose quorum is unambiguous replays. -/
theorem Reflects.replays_viewQuorum
    (reflects : topology.Reflects log recovered)
    (wellFormed : topology.WellFormed (log ++ [record]))
    (samePhase : record.phase = Phase.viewChange.toU8)
    (verifies : topology.Verifies .viewChange record.proposalKey
      record.senderId record.signature)
    (backed : 0 < record.seq → ∃ cert ∈ recovered.ledger.prepared.values,
      cert.supports record.view record.seq record.digest topology.quorumSize
        topology.masterPublicKey = true)
    (quorum : topology.quorumSize ≤ (recovered.supportersWith record).len)
    (unambiguous :
      (highestViewChangeSlot (recovered.supportersWith record)).isSome) :
    ∃ next, Replays topology recovered record next := by
  have supporters := supportersWith_follows samePhase reflects.viewVotes
  rcases Option.isSome_iff_exists.mp unambiguous with ⟨⟨maxSeq, digest⟩, slot⟩
  have recorded : ∀ {sender : UInt32} {seq : UInt64} {reported : Digest}
      {signature : G1Projective},
      (recovered.supportersWith record).get? sender =
        some (seq, reported, signature) →
      topology.Verifies .viewChange (record.view, seq, reported) sender
          signature ∧
        (0 < seq → ∃ view < record.view, topology.quorumSize ≤
          (signersIn .prepare log (view, seq, reported)).card) := by
    intro sender seq reported signature voted
    rcases exists_record_of_viewVote supporters voted with
      ⟨stored, member, phase, sameView, rfl, rfl, rfl, rfl⟩
    rcases wellFormed.viewChange_backed member phase with ⟨valid, rests⟩
    rw [Record.proposalKey, sameView] at valid
    refine ⟨valid, ?_⟩
    intro positive
    rcases rests positive with ⟨view, below, enough⟩
    rw [signersIn, votesIn_concat_of_phase_ne samePhase (by decide),
      ← signersIn] at enough
    exact ⟨view, sameView ▸ below, enough⟩
  have found : 0 < maxSeq →
      (boundCertificate recovered.ledger.prepared.values record.view maxSeq
        digest topology.quorumSize topology.masterPublicKey).isSome := by
    intro positive
    rcases highestViewChangeSlot_mem slot positive with ⟨sender, signature, voted⟩
    rcases (recorded voted).2 positive with ⟨view, below, enough⟩
    rcases reflects.prepared_of_quorum enough with
      ⟨cert, held, certView, certSeq, certDigest, verified⟩
    have supports : cert.supports record.view maxSeq digest topology.quorumSize
        topology.masterPublicKey = true := by
      rw [PreparedCertificate.supports]
      exact decide_eq_true ⟨certView ▸ below, certSeq, certDigest, verified⟩
    rcases select_isSome held supports with ⟨selected, selection⟩
    rw [boundCertificate]
    rw [if_pos positive, selection]
    rfl
  refine ⟨_, .viewChangeQuorum maxSeq digest _ samePhase verifies backed quorum
    slot rfl found ?_⟩
  exact NewViewCertificate.verify_bound quorum slot found
    fun _ _ _ _ voted => (recorded voted).1.2

def ProposalsAgree (log : List Record) : Prop :=
  ∀ view seq digest digest', (view, seq, digest) ∈ proposalsIn log →
    (view, seq, digest') ∈ proposalsIn log → digest = digest'

/-- At no point does the log hold a view-change quorum whose highest reported
sequence has two digests. -/
def ViewQuorumsUnambiguous (topology : Topology) (log : List Record) : Prop :=
  ∀ earlier, earlier <+: log → ∀ view votes,
    viewVotesIn earlier view = some votes →
      topology.quorumSize ≤ votes.len → (highestViewChangeSlot votes).isSome

theorem ProposalsAgree.before
    (agree : ProposalsAgree (log ++ [record])) : ProposalsAgree log := by
  intro view seq digest digest' first second
  exact agree view seq digest digest' (proposalsIn_subset_concat log record first)
    (proposalsIn_subset_concat log record second)

theorem ViewQuorumsUnambiguous.before
    (unambiguous : topology.ViewQuorumsUnambiguous (log ++ [record])) :
    topology.ViewQuorumsUnambiguous log := fun earlier isPrefix =>
  unambiguous earlier (isPrefix.trans (List.prefix_append log [record]))

/-- With dealt keys a justified record replays, unless it is a second proposal
for its slot or completes an ambiguous quorum. -/
theorem Reflects.replays_of_justified
    (reflects : topology.Reflects log recovered)
    (dealt : DealtKeys topology coefficients)
    (wellFormed : topology.WellFormed (log ++ [record]))
    (justified : topology.Justified log record)
    (agree : ProposalsAgree (log ++ [record]))
    (unambiguous : topology.ViewQuorumsUnambiguous (log ++ [record])) :
    ∃ next, Replays topology recovered record next := by
  obtain ⟨phase, samePhase, verifies, supported⟩ := justified
  cases phase with
  | prePrepare =>
      refine ⟨_, .prePrepare samePhase verifies supported ?_⟩
      intro digest member
      have earlier := (reflects.follows.proposals _ rfl).mp member
      exact agree record.view record.seq digest record.digest
        (proposalsIn_subset_concat log record earlier)
        ((mem_proposalsIn_concat log record).mpr (Or.inr ⟨samePhase, rfl⟩))
  | prepare =>
      have proposed := (reflects.follows.proposals _ rfl).mpr supported
      exact ⟨_, .prepare samePhase verifies proposed fun quorum =>
        dealt.certified_withVote reflects.chain.prepareVotes_authentic verifies
          quorum⟩
  | commit =>
      have proposed := (reflects.follows.proposals _ rfl).mpr supported.1
      rcases reflects.prepared_of_quorum supported.2 with
        ⟨cert, held, certView, certSeq, certDigest, verified⟩
      exact ⟨_, .commit cert samePhase verifies proposed held certView certSeq
        certDigest verified fun quorum =>
          dealt.certified_withVote reflects.chain.commitVotes_authentic verifies
            quorum⟩
  | viewChange =>
      have backed : 0 < record.seq →
          ∃ cert ∈ recovered.ledger.prepared.values,
            cert.supports record.view record.seq record.digest
              topology.quorumSize topology.masterPublicKey = true := by
        intro positive
        rcases supported positive with ⟨view, below, enough⟩
        rcases reflects.prepared_of_quorum enough with
          ⟨cert, held, certView, certSeq, certDigest, verified⟩
        refine ⟨cert, held, ?_⟩
        rw [PreparedCertificate.supports]
        exact decide_eq_true
          ⟨certView ▸ below, certSeq, certDigest, verified⟩
      by_cases quorum :
          topology.quorumSize ≤ (recovered.supportersWith record).len
      · have supporters := supportersWith_follows samePhase reflects.viewVotes
        have clear := unambiguous _ List.prefix_rfl _ _ supporters quorum
        exact reflects.replays_viewQuorum wellFormed samePhase verifies backed
          quorum clear
      · exact ⟨_, .viewChangeVote samePhase verifies backed
          (Nat.lt_of_not_le quorum)⟩
  | checkpoint =>
      by_cases quorum : topology.quorumSize ≤
          (recovered.ledger.checkpointVotes.withVote record.proposalKey
            record.senderId record.signature).len
      · exact ⟨_, .checkpointQuorum samePhase verifies quorum⟩
      · exact ⟨_, .checkpointVote samePhase verifies
          (Nat.lt_of_not_le quorum)⟩

theorem WellFormed.concat_inv
    (wellFormed : topology.WellFormed (log ++ [record])) :
    topology.WellFormed log ∧ topology.Justified log record := by
  generalize whole : log ++ [record] = all at wellFormed
  cases wellFormed with
  | nil => simp at whole
  | concat before justified =>
      rcases List.append_inj' whole rfl with ⟨rfl, same⟩
      obtain rfl := List.singleton_inj.mp same
      exact ⟨before, justified⟩

theorem clean_of_earlier {earlier : List Record} (isPrefix : earlier <+: log)
    (clean : (topology.replayAll log).recoveryError = false) :
    (topology.replayAll earlier).recoveryError = false := by
  obtain ⟨rest, rfl⟩ := isPrefix
  induction rest using List.reverseRecOn with
  | nil => rwa [List.append_nil] at clean
  | append_singleton rest record inductionHypothesis =>
      rw [← List.append_assoc, replayAll_concat] at clean
      exact inductionHypothesis (replayRecord_ok clean).1

/-- Replay of a well-formed log under dealt keys succeeds exactly when no slot
has two proposals and no view-change quorum is ambiguous. -/
theorem replayAll_clean_iff (dealt : DealtKeys topology coefficients)
    (wellFormed : topology.WellFormed log) :
    (topology.replayAll log).recoveryError = false ↔
      ProposalsAgree log ∧ topology.ViewQuorumsUnambiguous log := by
  constructor
  · intro clean
    have reflects := reflects_of_clean clean
    constructor
    · intro view seq digest digest' first second
      exact reflects.chain.proposal_unique view seq digest digest'
        ((reflects.follows.proposals _ rfl).mpr first)
        ((reflects.follows.proposals _ rfl).mpr second)
    · intro earlier isPrefix
      exact (reflects_of_clean (clean_of_earlier isPrefix clean)).unambiguous
  · intro both
    rcases both with ⟨agree, unambiguous⟩
    induction log using List.reverseRecOn with
    | nil => rfl
    | append_singleton log record inductionHypothesis =>
        obtain ⟨before, justified⟩ := wellFormed.concat_inv
        have clean :=
          inductionHypothesis before agree.before unambiguous.before
        have reflects := reflects_of_clean clean
        obtain ⟨next, replays⟩ := reflects.replays_of_justified dealt
          wellFormed justified agree unambiguous
        rw [replayAll_concat, replayRecord_eq_of_replays clean replays]
        exact replays.clean clean

end Topology

/-- A replica with dealt keys can restart from the log of any run exactly when
the log has no slot with two proposals and no ambiguous view-change quorum. -/
theorem recover_ok_iff {totalNodes : Nat}
    {initialPublicKeys : AssocMap UInt32 G2Projective}
    {masterPublicKey : G2Projective} {initial final : PbftState}
    {events : List ReplicaEvent} {coefficients : List Scalar}
    (started : newWithWalPath totalNodes initialPublicKeys masterPublicKey
      ⟨[]⟩ = .ok initial)
    (dealt : DealtKeys initial.toTopology coefficients)
    (reached : run replicaStep initial events = some final) :
    (∃ recovered, newWithWalPath totalNodes initialPublicKeys masterPublicKey
        final.wal = .ok recovered) ↔
      Topology.ProposalsAgree final.wal.records ∧
        initial.toTopology.ViewQuorumsUnambiguous final.wal.records := by
  rcases fresh_of_started started with ⟨topology, rfl, recovery⟩
  rcases tracks_of_run reached with ⟨log, tracks⟩
  rw [tracks.file, records_encodeLog, recovery]
  have sameTopology : topology.fresh.toTopology = topology := rfl
  rw [sameTopology] at dealt ⊢
  rw [← Topology.replayAll_clean_iff dealt tracks.wellFormed]
  constructor
  · intro replayed
    rcases replayed with ⟨recovered, ok⟩
    exact (Topology.recover_encodeLog.mp ok).1
  · intro clean
    exact ⟨_, Topology.recover_encodeLog.mpr ⟨clean, rfl⟩⟩

end ReplayAccepts

section SmallRun

open SmallCluster

attribute [local instance] smallCurve

/-- The theorem at a run with a checkpoint over a slot that is not proposed
again. -/
theorem recover_ok_afterCheckpoint :
    ∃ final : PbftState,
      run replicaStep topology.fresh
          (.deliver (signed .prePrepare 0 5 (digestOf 0xaa) 0) ::
            fromQuorum .prepare 0 5 (digestOf 0xaa) ++
            fromQuorum .checkpoint 0 5 (digestOf 0xaa)) = some final ∧
        Topology.ProposalsAgree final.wal.records ∧
        topology.ViewQuorumsUnambiguous final.wal.records := by
  have computed : (run recordStep (topology.fresh, [])
      (.deliver (signed .prePrepare 0 5 (digestOf 0xaa) 0) ::
        fromQuorum .prepare 0 5 (digestOf 0xaa) ++
        fromQuorum .checkpoint 0 5 (digestOf 0xaa))).any
      (fun replica => replica.restarted.isSome) = true := by
    decide +kernel
  rcases RecordReplica.exists_run computed with ⟨replica, reached, restarts⟩
  rcases Option.isSome_iff_exists.mp restarts with ⟨next, restarted⟩
  have ok : replicaStep replica.stored .restart = some next.stored := by
    rw [replica.restart_stored, restarted]
    rfl
  exact ⟨replica.stored, reached,
    (recover_ok_iff topology.fresh_started dealtKeys_topology reached).mp
      ⟨next.stored, (replicaStep_restart_of_run reached).mpr ok⟩⟩

/-- A leader that proposes a second digest for a slot under a stable checkpoint
leaves a log that recovery refuses: compaction keeps the first proposal. -/
theorem recover_refused_afterSecondProposal :
    newWithWalPath topology.totalNodes topology.publicKeys
        topology.masterPublicKey ⟨[]⟩ = .ok topology.fresh ∧
      DealtKeys topology coefficients ∧
      ∃ final : PbftState,
        run replicaStep topology.fresh
            (.deliver (signed .prePrepare 0 5 (digestOf 0xaa) 0) ::
              fromQuorum .checkpoint 0 5 (digestOf 0xaa) ++
              [.deliver (signed .prePrepare 0 5 (digestOf 0xbb) 0)]) =
            some final ∧
          ∀ recovered, newWithWalPath topology.totalNodes topology.publicKeys
            topology.masterPublicKey final.wal ≠ .ok recovered := by
  refine ⟨topology.fresh_started, dealtKeys_topology, ?_⟩
  have computed : (run recordStep (topology.fresh, [])
      (.deliver (signed .prePrepare 0 5 (digestOf 0xaa) 0) ::
        fromQuorum .checkpoint 0 5 (digestOf 0xaa) ++
        [.deliver (signed .prePrepare 0 5 (digestOf 0xbb) 0)])).any
      (fun replica => replica.restarted.isNone) = true := by
    decide +kernel
  rcases RecordReplica.exists_run computed with ⟨replica, reached, refused⟩
  refine ⟨replica.stored, reached, ?_⟩
  intro recovered ok
  have restarts := (replicaStep_restart_of_run reached).mp ok
  rw [replica.restart_stored, Option.isNone_iff_eq_none.mp refused] at restarts
  cases restarts

end SmallRun

end SovereignLattice
