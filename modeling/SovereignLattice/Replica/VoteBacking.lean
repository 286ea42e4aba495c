import SovereignLattice.Pbft.Selection
import SovereignLattice.Replica.SelectedCertificate

/-!
# The certificates behind stored view-change votes

A view-change vote that reports a prepared value is stored only while the replica
holds a certificate for the value.  The vote stays when a checkpoint prunes the
certificate, so it stays backed only where checkpoints spare what votes for later
views report.
-/

namespace SovereignLattice

section VoteBacking

variable [Curve]

/-- The ledger holds a certificate that a view-change vote for the view may report. -/
def VoteLedger.Backs (topology : Topology) (ledger : VoteLedger)
    (view seq : UInt64) (digest : Digest) : Prop :=
  ∃ cert ∈ ledger.prepared.values,
    cert.supports view seq digest topology.quorumSize topology.masterPublicKey =
      true

/-- What the stored votes report is backed, wherever the condition on the target view
and the reported sequence holds. -/
def VoteLedger.BacksVotes (topology : Topology) (ledger : VoteLedger)
    (votes : AssocMap UInt64 ViewChangeVotes) (counts : UInt64 → UInt64 → Prop) :
    Prop :=
  ∀ view supporters, votes.get? view = some supporters →
    ∀ seq digest, Reports supporters seq digest → counts view seq →
      ledger.Backs topology view seq digest

namespace VoteLedger

variable {topology : Topology} {ledger next : VoteLedger}
variable {votes : AssocMap UInt64 ViewChangeVotes}
variable {counts : UInt64 → UInt64 → Prop}
variable {view seq : UInt64} {digest : Digest}

/-- A certificate of a ledger supports every later view at its own slot. -/
theorem backs_of_prepared (chain : CertificateChain topology ledger)
    {slot : UInt64 × UInt64} {cert : PreparedCertificate}
    (held : ledger.prepared.get? slot = some cert) (earlier : slot.1 < view) :
    ledger.Backs topology view slot.2 cert.digest := by
  rcases chain.prepared_chain slot.1 slot.2 cert held with
    ⟨sameView, sameSeq, _, _, _, verified⟩
  refine ⟨cert, AssocMap.mem_values_iff.mpr ⟨slot, held⟩, ?_⟩
  rw [PreparedCertificate.supports, decide_eq_true_eq, sameView]
  exact ⟨earlier, sameSeq, rfl, verified⟩

/-- Backing survives where the slots of the sequence keep their digests. -/
theorem Backs.of_kept (backs : ledger.Backs topology view seq digest)
    (chain : CertificateChain topology ledger)
    (chainNext : CertificateChain topology next)
    (kept : ∀ slot cert, ledger.prepared.get? slot = some cert → slot.2 = seq →
      ∃ later, next.prepared.get? slot = some later ∧
        later.digest = cert.digest) :
    next.Backs topology view seq digest := by
  rcases backs with ⟨cert, member, supports⟩
  rw [PreparedCertificate.supports, decide_eq_true_eq] at supports
  obtain ⟨earlier, sameSeq, sameDigest, _⟩ := supports
  rcases kept _ cert (chain.get?_of_mem_values member) sameSeq with
    ⟨later, held, laterDigest⟩
  have backed := backs_of_prepared chainNext held earlier
  rwa [laterDigest, sameSeq, sameDigest] at backed

theorem BacksVotes.of_kept (backs : ledger.BacksVotes topology votes counts)
    {countsNext : UInt64 → UInt64 → Prop}
    (chain : CertificateChain topology ledger)
    (chainNext : CertificateChain topology next)
    (fewer : ∀ view supporters, votes.get? view = some supporters →
      ∀ seq digest, Reports supporters seq digest → countsNext view seq →
        counts view seq ∧
          ∀ slot cert, ledger.prepared.get? slot = some cert → slot.2 = seq →
            ∃ later, next.prepared.get? slot = some later ∧
              later.digest = cert.digest) :
    next.BacksVotes topology votes countsNext := by
  intro view supporters stored seq digest reported counted
  rcases fewer view supporters stored seq digest reported counted with
    ⟨before, kept⟩
  exact (backs view supporters stored seq digest reported before).of_kept chain
    chainNext kept

/-- One more vote, backed where it counts. -/
theorem BacksVotes.insert (backs : ledger.BacksVotes topology votes counts)
    {sender : UInt32} {signature : G1Projective}
    (backed : counts view seq → ledger.Backs topology view seq digest) :
    ledger.BacksVotes topology
      (votes.insert view ((votes.getD view ∅).insert sender
        (seq, digest, signature))) counts := by
  intro target supporters stored reportedSeq reportedDigest reported counted
  rw [AssocMap.get?_insert] at stored
  by_cases same : target = view
  · rw [if_pos same, Option.some.injEq] at stored
    subst same stored
    rcases reported with ⟨voter, voterSignature, voted⟩
    rw [AssocMap.get?_insert] at voted
    split at voted
    · cases voted
      exact backed counted
    · cases earlier : votes.get? target with
      | none => simp [AssocMap.getD, earlier] at voted
      | some before =>
          rw [AssocMap.getD_of_get? ∅ earlier] at voted
          exact backs target before earlier _ _ ⟨voter, voterSignature, voted⟩
            counted
  · rw [if_neg same] at stored
    exact backs target supporters stored _ _ reported counted

end VoteLedger

/-! ## The live handler -/

namespace PbftState

/-- Every vote stored for a view that has not been entered is backed. -/
def VotesBacked (state : PbftState) : Prop :=
  state.ledger.BacksVotes state.toTopology state.viewChangeVotes
    fun view seq => state.currentView < view ∧ 0 < seq

/-- A checkpoint vote that completes a quorum spares what the stored votes for views
that have not been entered report.  A stopped replica may be sent anything. -/
def CheckpointSparesVotes (state : PbftState) (msg : PbftMessage) : Prop :=
  state.walFailed = false → msg.phase = .checkpoint → state.Authenticated msg →
    msg.view = state.currentView → state.lastStableCheckpoint < msg.seq →
    state.quorumSize ≤ (state.checkpointVotes.withVote msg.proposalKey
      msg.senderId msg.signature).len →
    ∀ view supporters, state.viewChangeVotes.get? view = some supporters →
      state.currentView < view → ∀ seq digest, Reports supporters seq digest →
        0 < seq → msg.seq < seq

/-- The closure misses a certificate only at a completed view-change quorum whose
highest report no certificate supports. -/
theorem missing_of_stage {state : PbftState} {msg : PbftMessage}
    (answered : (state.stage msg).1 = .error .missingQuorumCertificate) :
    state.currentView < msg.view ∧
      (0 < msg.seq → ∃ cert ∈ state.preparedCertificates.values,
        cert.seq = msg.seq ∧ cert.digest = msg.digest ∧
          cert.verify state.quorumSize state.masterPublicKey = true) ∧
      ∃ maxSeq digest,
        highestViewChangeSlot (state.supportersWith msg) =
            some (maxSeq, digest) ∧
          0 < maxSeq ∧
          selectHighestPreparedCertificate state.preparedCertificates.values
            msg.view maxSeq digest state.quorumSize state.masterPublicKey =
              none := by
  rw [stage] at answered
  split at answered
  · simp only [onPrePrepare] at answered
    split_ifs at answered <;> cases answered
  · simp only [onPrepare] at answered
    split_ifs at answered <;> cases answered
  · simp only [onCommit] at answered
    split_ifs at answered <;> cases answered
  · rw [onViewChange] at answered
    split at answered
    · cases answered
    rename_i later
    split at answered
    · cases answered
    rename_i unbacked
    refine ⟨UInt64.not_le.mp later, ?_, ?_⟩
    · intro positive
      simpa [positive] using unbacked
    dsimp only at answered
    split at answered
    · rw [enterNewView] at answered
      dsimp only at answered
      split at answered
      · cases answered
      rename_i maxSeq digest slot
      split at answered
      · rename_i missing
        rcases missing with ⟨positive, nothing⟩
        rw [boundCertificate, if_pos positive, Option.isNone_iff_eq_none] at nothing
        exact ⟨maxSeq, digest, slot, positive, nothing⟩
      · split at answered <;> cases answered
    · cases answered
  · simp only [onCheckpoint] at answered
    split_ifs at answered
    cases answered

/-- What the backing argument knows about a state. -/
structure Backed (state : PbftState) : Prop where
  chain : state.Chained
  proposal_views : ∀ key ∈ state.prePreparedProposals,
    key.1 ≤ state.currentView
  votes : state.VotesBacked

namespace Backed

variable {state staged : PbftState} {msg : PbftMessage} {response : Response}

/-- A certificate that the replica holds is of a view that it has entered. -/
theorem cert_view_le (backed : Backed state) {cert : PreparedCertificate}
    (held : cert ∈ state.preparedCertificates.values) :
    cert.view ≤ state.currentView := by
  have stored := CertificateChain.get?_of_mem_values backed.chain held
  rcases backed.chain.prepared_chain _ _ cert stored with ⟨_, _, proposed, _⟩
  exact backed.proposal_views _ proposed

/-- The check of the view-change branch finds a certificate for the target view. -/
theorem backs_of_checked (backed : Backed state)
    (later : state.currentView < msg.view)
    (checked : 0 < msg.seq → ∃ cert ∈ state.preparedCertificates.values,
      cert.seq = msg.seq ∧ cert.digest = msg.digest ∧
        cert.verify state.quorumSize state.masterPublicKey = true)
    (positive : 0 < msg.seq) :
    state.ledger.Backs state.toTopology msg.view msg.seq msg.digest := by
  rcases checked positive with ⟨cert, held, sameSeq, sameDigest, verified⟩
  refine ⟨cert, held, ?_⟩
  rw [PreparedCertificate.supports, decide_eq_true_eq]
  exact ⟨UInt64.lt_of_le_of_lt (backed.cert_view_le held) later, sameSeq,
    sameDigest, verified⟩

theorem votes_withSupporters (backed : Backed state)
    (later : state.currentView < msg.view)
    (checked : 0 < msg.seq → ∃ cert ∈ state.preparedCertificates.values,
      cert.seq = msg.seq ∧ cert.digest = msg.digest ∧
        cert.verify state.quorumSize state.masterPublicKey = true) :
    (state.withSupporters msg).VotesBacked :=
  backed.votes.insert fun counted =>
    backed.backs_of_checked later checked counted.2

theorem stages (backed : Backed state) (running : state.walFailed = false)
    (authenticated : state.Authenticated msg)
    (newer : msg.phase = .checkpoint → state.lastStableCheckpoint < msg.seq)
    (spares : state.CheckpointSparesVotes msg)
    (stages : Stages state msg response staged) : Backed staged := by
  have chainNext := stages.chained authenticated backed.chain
  refine ⟨chainNext, stages.proposal_views backed.proposal_views, ?_⟩
  cases stages with
  | viewChangeVote phase later checked few =>
      exact backed.votes_withSupporters later checked
  | viewChangeQuorum maxSeq digest selected phase later checked =>
      -- entering the view leaves fewer votes that count
      have stored := backed.votes_withSupporters later checked
      intro view supporters held seq reported reports counted
      exact stored view supporters held seq reported reports
        ⟨UInt64.lt_trans later counted.1, counted.2⟩
  | prepare _ phase view proposed =>
      apply backed.votes.of_kept backed.chain chainNext
      intro view supporters stored seq digest reported counted
      exact ⟨counted, fun slot cert held _ =>
        backed.chain.prepared_kept proposed _ _ held⟩
  | checkpointQuorum phase view quorum =>
      apply backed.votes.of_kept backed.chain chainNext
      intro target supporters stored seq digest reported counted
      have above := spares running phase authenticated view (newer phase) quorum
        target supporters stored counted.1 seq digest reported counted.2
      refine ⟨counted, ?_⟩
      intro slot cert held same
      refine ⟨cert, ?_, rfl⟩
      have kept : decide (slot.2 > msg.seq) = true :=
        decide_eq_true (same ▸ above)
      exact (AssocMap.get?_retain _ _ _).trans ((if_pos kept).trans held)
  | _ => exact backed.votes

/-- With every vote backed, a completed quorum finds its certificate. -/
theorem handleMessage_ne_missing (backed : Backed state) (msg : PbftMessage)
    (io : WalIo) :
    (state.handleMessage msg io).1 ≠ .error .missingQuorumCertificate := by
  intro answered
  have inner : ¬ IsShellAnswer (state.handleMessage msg io).1 := by
    simp [answered, IsShellAnswer]
  have closure := (stage_of_handleMessage inner).2.1.trans answered
  obtain ⟨later, checked, maxSeq, digest, slot, positive, missing⟩ :=
    missing_of_stage closure
  have stored := backed.votes_withSupporters later checked
  have reported := ((highestViewChangeSlot_eq_some_iff positive).mp slot).2.1
  have own : (state.withSupporters msg).viewChangeVotes.get? msg.view =
      some (state.supportersWith msg) :=
    AssocMap.get?_insert_self _ _ _
  rcases stored msg.view _ own maxSeq digest reported ⟨later, positive⟩ with
    ⟨cert, held, supports⟩
  have unsupported := select_eq_none_iff.mp missing cert held
  exact absurd (supports.symm.trans unsupported) (by decide)

end Backed

end PbftState

/-! ## Recovery -/

namespace Topology

/-- The votes that recovery would find for a view that it would not enter report
nothing that its stable checkpoint covers. -/
def LogSparesVotes (topology : Topology) (log : List Record) : Prop :=
  ∀ view supporters, viewVotesIn log view = some supporters →
    (∀ entered, topology.Evidence log entered → entered < view) →
    ∀ seq digest, Reports supporters seq digest → 0 < seq →
      ∀ key, topology.CheckpointQuorumIn log key → key.2.1 < seq

/-- What the backing argument knows about the replay closure. -/
structure ReplayBacked (topology : Topology) (recovered : Recovered) : Prop where
  chain : CertificateChain topology recovered.ledger
  enters : EntersViews recovered
  votes : recovered.ledger.BacksVotes topology
    recovered.recoveredViewChangeVotes fun _ seq => 0 < seq

theorem ReplayBacked.initially (topology : Topology) :
    ReplayBacked topology Recovered.initial where
  chain := CertificateChain.initially topology
  enters := EntersViews.initially
  votes view supporters stored := by cases stored

theorem ReplayBacked.replays {topology : Topology} {recovered next : Recovered}
    {record : Record} (backed : ReplayBacked topology recovered)
    (replays : Replays topology recovered record next) :
    ReplayBacked topology next := by
  have chainNext := replays.chain backed.chain
  refine ⟨chainNext, backed.enters.replays replays, ?_⟩
  have votes := backed.votes
  rw [← observe_viewChangeVotes recovered record] at votes
  cases replays with
  | prepare phase verifies proposed =>
      apply votes.of_kept backed.chain chainNext
      intro view supporters stored seq digest reported counted
      exact ⟨counted, fun slot cert held _ =>
        backed.chain.prepared_kept proposed _ _ held⟩
  | viewChangeVote phase verifies backs few =>
      rw [← observe_ledger recovered record] at votes backs
      exact votes.insert backs
  | viewChangeQuorum maxSeq digest selected phase verifies backs =>
      rw [← observe_ledger recovered record] at votes backs
      have stored : VoteLedger.BacksVotes topology
          (observe recovered record).ledger
          ((observe recovered record).withSupporters
            record).recoveredViewChangeVotes fun _ seq => 0 < seq :=
        votes.insert backs
      exact stored
  | _ => exact votes

/-- The backing argument over the records replayed so far. -/
def ReplayBackedOver (topology : Topology) (_ : List Record) (recovered : Recovered) :
    Prop :=
  ReplayBacked topology recovered

theorem replayBacked_of_clean {topology : Topology} {log : List Record}
    (clean : (topology.replayAll log).recoveryError = false) :
    ReplayBacked topology (topology.replayAll log) := by
  have result : ReplayBackedOver topology log (topology.replayAll log) :=
    replayAll_invariant (ReplayBacked.initially topology)
      (fun _ _ _ _ backed replays => ReplayBacked.replays backed replays) clean
  exact result

end Topology

/-- Recovery from a log that spares the votes finds them backed. -/
theorem PbftState.backed_of_recover {topology : Topology} {wal : WriteAheadLog}
    {state : PbftState} (ok : topology.recover wal = .ok state)
    (spares : topology.LogSparesVotes wal.records) : Backed state := by
  have chain := Topology.recover_chained ok
  rcases Topology.exists_records_of_recover ok with ⟨log, rfl⟩
  rw [records_encodeLog] at spares
  rcases Topology.recover_encodeLog.mp ok with ⟨clean, rfl⟩
  have reflects := Topology.reflects_of_clean clean
  have replayed := Topology.replayBacked_of_clean clean
  refine ⟨chain, ?_, ?_⟩
  · exact fun key member =>
      replayed.enters.proposal_views key (Finset.filter_subset _ _ member)
  · apply replayed.votes.of_kept replayed.chain chain
    intro view supporters stored seq digest reported counted
    rcases counted with ⟨notEntered, positive⟩
    refine ⟨positive, ?_⟩
    intro slot cert held same
    have inLog := (reflects.viewVotes view).symm.trans stored
    have later : ∀ entered, topology.Evidence log entered → entered < view :=
      fun entered evidence =>
        UInt64.lt_of_le_of_lt (reflects.view.bound entered evidence) notEntered
    have kept : survives (topology.replayAll log).recoveredStableCheckpoint
        slot.2 = true := by
      rcases reflects.stable.attained with zero | ⟨key, sameKey, quorum⟩
      · rw [survives, zero, if_neg (UInt64.lt_irrefl 0)]
      · apply survives_of_lt
        rw [← sameKey, same]
        exact spares view supporters inLog later seq digest reported positive key
          quorum
    refine ⟨cert, ?_, rfl⟩
    exact (AssocMap.get?_retain _ _ _).trans ((if_pos kept).trans held)

/-! ## Whole runs -/

/-- A message with the outcomes of its file operations, or a restart. -/
inductive LifeEvent where
  | handle (msg : PbftMessage) (io : WalIo)
  | restart

/-- One event of a replica whose log may fail; a restart that recovery refuses has
no next state. -/
def lifeStep (state : PbftState) : LifeEvent → Option PbftState
  | .handle msg io => some (state.handleMessage msg io).2
  | .restart =>
      (newWithWalPath state.totalNodes state.publicKeys state.masterPublicKey
        state.wal).toOption

/-- A checkpoint that stabilises, and a restart, spare what the votes for views that
have not been entered report. -/
def SparesVotes (state : PbftState) : LifeEvent → Prop
  | .handle msg _ => state.CheckpointSparesVotes msg
  | .restart => state.toTopology.LogSparesVotes state.wal.records

theorem PbftState.Backed.step {state next : PbftState} {event : LifeEvent}
    (backed : Backed state) (spares : SparesVotes state event)
    (stepped : lifeStep state event = some next) : Backed next := by
  cases event with
  | handle msg io =>
      rw [lifeStep, Option.some.injEq] at stepped
      subst stepped
      cases running : state.walFailed with
      | true =>
          rw [handleMessage_of_walFailed running]
          exact backed
      | false =>
          apply handleMessage_invariant Backed ?_ ?_ backed
          · exact fun _ _ _ before =>
              ⟨before.chain, before.proposal_views, before.votes⟩
          · exact fun _ _ stages authenticated newer =>
              backed.stages running authenticated newer spares stages
  | restart =>
      have ok : state.toTopology.recover state.wal = .ok next :=
        replicaStep_restart.mp stepped
      exact backed_of_recover ok spares

/-- In every run whose checkpoints and restarts spare the stored votes, every vote for
a view that has not been entered is backed, and no call misses a certificate.  A log
that is not empty must spare its votes at the start. -/
theorem viewChangeVotes_backed {totalNodes : Nat}
    {initialPublicKeys : AssocMap UInt32 G2Projective}
    {masterPublicKey : G2Projective} {wal : WriteAheadLog}
    {initial final : PbftState} {events : List LifeEvent}
    (started : newWithWalPath totalNodes initialPublicKeys masterPublicKey wal =
      .ok initial)
    (sparesLog : initial.toTopology.LogSparesVotes wal.records)
    (spares : Along lifeStep SparesVotes initial events)
    (reached : run lifeStep initial events = some final) :
    final.VotesBacked ∧
      ∀ msg io, (final.handleMessage msg io).1 ≠
        .error .missingQuorumCertificate := by
  rcases newWithWalPath_eq_ok.mp started with ⟨topology, _, recovers⟩
  have sameTopology : initial.toTopology = topology := by
    rcases Topology.recover_eq_ok.mp recovers with ⟨_, _, _, rfl⟩
    rfl
  rw [sameTopology] at sparesLog
  have backed : PbftState.Backed final :=
    invariant_of_along
      (fun _ _ _ before allowed stepped => before.step allowed stepped)
      (PbftState.backed_of_recover recovers sparesLog) spares reached
  exact ⟨backed.votes, backed.handleMessage_ne_missing⟩

end VoteBacking

section SmallRun

open SmallCluster

attribute [local instance] smallCurve

/-- Sequence 2 is prepared, node 0 and node 1 vote for view 1, node 0 reporting the
certificate, and a checkpoint stabilises. -/
def reportThenCheckpoint (stable : UInt64) : List LifeEvent :=
  ([signed .prePrepare 0 2 (digestOf 7) 0] ++
    [0, 1, 2].map (signed .prepare 0 2 (digestOf 7)) ++
    [signed .viewChange 1 2 (digestOf 7) 0, signed .viewChange 1 0 (digestOf 0) 1] ++
    [0, 1, 2].map (signed .checkpoint 0 stable (digestOf 9))).map
      fun msg => .handle msg .durable

/-- A decidable condition on one event that spares the stored votes. -/
def sparesVotesCheck (state : PbftState) : LifeEvent → Bool
  | .handle msg _ =>
      decide (msg.phase = .checkpoint →
        ∀ supporters ∈ state.viewChangeVotes.values,
          ∀ vote ∈ supporters.values, 0 < vote.1 → msg.seq < vote.1)
  | .restart => false

theorem sparesVotes_of_check {state : PbftState} {event : LifeEvent}
    (checked : sparesVotesCheck state event = true) : SparesVotes state event := by
  cases event with
  | handle msg io =>
      intro _ phase _ _ _ _ view supporters stored _ seq digest reported positive
      rcases mem_values_iff_reports.mpr reported with ⟨signature, member⟩
      have supporting : supporters ∈ state.viewChangeVotes.values :=
        AssocMap.mem_values_iff.mpr ⟨view, stored⟩
      exact of_decide_eq_true checked phase supporters supporting _ member positive
  | restart => cases checked

/-- The theorem at a checkpoint below the reported sequence. -/
theorem viewChangeVotes_backed_belowReport :
    ∃ final, run lifeStep topology.fresh (reportThenCheckpoint 1) = some final ∧
      final.lastStableCheckpoint = 1 ∧ final.VotesBacked := by
  have computed : (run lifeStep topology.fresh (reportThenCheckpoint 1)).any
      (fun final => decide (final.lastStableCheckpoint = 1)) = true := by
    decide +kernel
  rcases (Option.any_eq_true _ _).mp computed with ⟨final, reached, stable⟩
  have emptyLog : topology.fresh.toTopology.LogSparesVotes
      (WriteAheadLog.records ⟨encodeLog []⟩) := by
    rw [records_encodeLog]
    intro view supporters stored
    cases stored
  have spares : Along lifeStep SparesVotes topology.fresh
      (reportThenCheckpoint 1) :=
    along_of_checkAlong (fun _ _ => sparesVotes_of_check) (by decide +kernel)
  have backed := viewChangeVotes_backed topology.fresh_started emptyLog spares
    reached
  exact ⟨final, reached, of_decide_eq_true stable, backed.1⟩

/-- A checkpoint at the reported sequence takes the certificate away, and the next
vote completes a quorum that misses it. -/
theorem storedVote_losesCertificate :
    newWithWalPath topology.totalNodes topology.publicKeys
        topology.masterPublicKey ⟨[]⟩ = .ok topology.fresh ∧
      ∃ final, run lifeStep topology.fresh (reportThenCheckpoint 2) = some final ∧
        ¬ final.VotesBacked ∧
        (final.handleMessage (signed .viewChange 1 0 (digestOf 0) 2)
          .durable).1 = .error .missingQuorumCertificate := by
  refine ⟨topology.fresh_started, ?_⟩
  have computed : (run lifeStep topology.fresh (reportThenCheckpoint 2)).any
      (fun final =>
        decide (final.currentView = 0 ∧ final.preparedCertificates.values = [] ∧
          (final.handleMessage (signed .viewChange 1 0 (digestOf 0) 2)
            .durable).1 = .error .missingQuorumCertificate) &&
        (final.viewChangeVotes.get? 1).any fun supporters =>
          (supporters.get? 0).any fun vote => decide (vote.1 = 2)) = true := by
    decide +kernel
  rcases (Option.any_eq_true _ _).mp computed with ⟨final, reached, checked⟩
  rcases Bool.and_eq_true_iff.mp checked with ⟨facts, stored⟩
  rcases of_decide_eq_true facts with ⟨view, none, missing⟩
  rcases (Option.any_eq_true _ _).mp stored with ⟨supporters, held, voted⟩
  rcases (Option.any_eq_true _ _).mp voted with
    ⟨⟨seq, digest, signature⟩, vote, reported⟩
  refine ⟨final, reached, ?_, missing⟩
  intro backed
  have reportedTwo : seq = 2 := of_decide_eq_true reported
  have counted : final.currentView < 1 ∧ 0 < seq := by
    rw [view, reportedTwo]
    exact of_decide_eq_true rfl
  rcases backed 1 supporters held seq digest ⟨0, signature, vote⟩ counted with
    ⟨cert, member, _⟩
  have absent : cert ∈ final.preparedCertificates.values := member
  rw [none] at absent
  cases absent

end SmallRun

end SovereignLattice
