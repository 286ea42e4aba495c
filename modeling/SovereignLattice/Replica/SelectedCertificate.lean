import SovereignLattice.Pbft.Progress
import SovereignLattice.Replica.SmallCluster

/-!
# Proposals after a view change

A new view stores the prepared certificate that its quorum selected, and the
pre-prepare branch never reads it.  A view keeps to its selected certificate as
long as no proposal that opens a slot of it differs from that certificate.
-/

namespace SovereignLattice

section SelectedCertificate

variable [Curve]

/-- Every proposal in a slot of a selected certificate, in the view that selected
it, has its digest. -/
def InheritsSelected (state : PbftState) : Prop :=
  ∀ view newView cert digest,
    state.newViewCertificates.get? view = some newView →
    newView.selectedPreparedCertificate = some cert →
    (view, cert.seq, digest) ∈ state.prePreparedProposals →
      digest = cert.digest

/-- A proposal of the leader that opens the slot of the selected certificate in
the current view carries the certificate's digest.  A stopped replica may be sent
anything. -/
def ProposesSelected (state : PbftState) (call : PbftMessage × WalIo) : Prop :=
  ∀ newView cert, state.walFailed = false → call.1.phase = .prePrepare →
    state.Authenticated call.1 → call.1.view = state.currentView →
    call.1.senderId = state.getExpectedLeader call.1.view →
    (∀ digest, (call.1.view, call.1.seq, digest) ∉
      state.prePreparedProposals) →
    state.newViewCertificates.get? call.1.view = some newView →
    newView.selectedPreparedCertificate = some cert →
    call.1.seq = cert.seq → call.1.digest = cert.digest

/-- Every view keeps to the certificate that it has selected; nothing is known
of later views. -/
structure KeepsSelected (state : PbftState) : Prop where
  proposal_views : ∀ key ∈ state.prePreparedProposals,
    key.1 ≤ state.currentView
  newView_views : ∀ view newView,
    state.newViewCertificates.get? view = some newView →
      view ≤ state.currentView
  inherited : InheritsSelected state

namespace KeepsSelected

variable {state staged : PbftState} {msg : PbftMessage} {response : Response}

/-- Fewer proposals, same views: nothing to show. -/
theorem of_subset (keeps : KeepsSelected state)
    (sameView : staged.currentView = state.currentView)
    (sameNewViews : staged.newViewCertificates = state.newViewCertificates)
    (fewer : staged.prePreparedProposals ⊆ state.prePreparedProposals) :
    KeepsSelected staged where
  proposal_views key member := by
    rw [sameView]
    exact keeps.proposal_views key (fewer member)
  newView_views view newView stored := by
    rw [sameNewViews] at stored
    rw [sameView]
    exact keeps.newView_views view newView stored
  inherited view newView cert digest stored selected member := by
    rw [sameNewViews] at stored
    exact keeps.inherited view newView cert digest stored selected
      (fewer member)

theorem stages (keeps : KeepsSelected state) {io : WalIo}
    (running : state.walFailed = false) (authenticated : state.Authenticated msg)
    (proposes : ProposesSelected state (msg, io))
    (stages : PbftState.Stages state msg response staged) :
    KeepsSelected staged where
  proposal_views := stages.proposal_views keeps.proposal_views
  newView_views view newView stored := by
    rcases stages.newViews_cases stored with before | ⟨here, _⟩
    · exact UInt64.le_trans (keeps.newView_views view newView before)
        stages.currentView_le
    · exact UInt64.le_of_eq here
  inherited := by
    intro view newView cert digest stored selected member
    rcases stages.proposals_cases member with
      known | ⟨here, phase, current, leader, opens⟩
    · rcases stages.newViews_cases stored with before | ⟨_, later⟩
      · exact keeps.inherited view newView cert digest before selected known
      · -- no proposal of a view that has not been entered is known
        exact absurd later (UInt64.not_lt.mpr (keeps.proposal_views _ known))
    · rcases Prod.mk.inj here with ⟨rfl, rest⟩
      rcases Prod.mk.inj rest with ⟨sameSeq, rfl⟩
      rcases stages.newViews_cases stored with before | ⟨_, later⟩
      · exact proposes newView cert running phase authenticated current leader
          opens before selected sameSeq.symm
      · rw [current] at later
        exact absurd later (UInt64.lt_irrefl _)

theorem step (keeps : KeepsSelected state) {call : PbftMessage × WalIo}
    (proposes : ProposesSelected state call) {next : PbftState}
    (stepped : handleStep state call = some next) : KeepsSelected next := by
  obtain ⟨msg, io⟩ := call
  rw [handleStep, Option.some.injEq] at stepped
  subst stepped
  cases running : state.walFailed with
  | true =>
      rw [PbftState.handleMessage_of_walFailed running]
      exact keeps
  | false =>
      apply PbftState.handleMessage_invariant KeepsSelected ?_ ?_ keeps
      · exact fun _ _ _ before =>
          before.of_subset rfl rfl (Finset.Subset.refl _)
      · exact fun _ _ stages authenticated _ =>
          keeps.stages running authenticated proposes stages

end KeepsSelected

/-! ## The start -/

/-- Replay has entered the view of everything that it holds. -/
structure EntersViews (recovered : Recovered) : Prop where
  proposal_views : ∀ key ∈ recovered.recoveredProposals,
    key.1 ≤ recovered.recoveredView
  newView_views : ∀ view newView,
    recovered.recoveredNewViewCertificates.get? view = some newView →
      view ≤ recovered.recoveredView

namespace EntersViews

variable {recovered next : Recovered} {record : Record}

theorem initially : EntersViews Recovered.initial where
  proposal_views key member := by cases member
  newView_views view newView stored := by cases stored

/-- A later view, with nothing new in it. -/
theorem of_le (enters : EntersViews recovered)
    (later : recovered.recoveredView ≤ next.recoveredView)
    (sameProposals : next.recoveredProposals = recovered.recoveredProposals)
    (sameNewViews : next.recoveredNewViewCertificates =
      recovered.recoveredNewViewCertificates) :
    EntersViews next where
  proposal_views key member := by
    rw [sameProposals] at member
    exact UInt64.le_trans (enters.proposal_views key member) later
  newView_views view newView stored := by
    rw [sameNewViews] at stored
    exact UInt64.le_trans (enters.newView_views view newView stored) later

theorem observe (enters : EntersViews recovered) (record : Record) :
    EntersViews (Topology.observe recovered record) := by
  have sameLedger := Topology.observe_ledger recovered record
  refine enters.of_le ?_ (congrArg VoteLedger.proposals sameLedger)
    (Topology.observe_newViewCertificates recovered record)
  rw [Topology.observe_view]
  split
  · rename_i raised
    exact UInt64.le_of_lt raised.2
  · exact UInt64.le_refl _

theorem replays {topology : Topology} (enters : EntersViews recovered)
    (replays : Topology.Replays topology recovered record next) :
    EntersViews next := by
  have observed := enters.observe record
  cases replays with
  | prePrepare phase verifies leader unique =>
      refine ⟨?_, observed.newView_views⟩
      intro key member
      rcases Finset.mem_insert.mp member with rfl | before
      · change record.view ≤ (Topology.observe recovered record).recoveredView
        rw [Topology.observe_view]
        split
        · exact UInt64.le_refl _
        · rename_i notRaised
          have early : record.phase ≤ Phase.commit.toU8 := by
            rw [phase]
            decide
          exact UInt64.not_lt.mp fun later => notRaised ⟨early, later⟩
      · rw [← Topology.observe_ledger recovered record] at before
        exact observed.proposal_views key before
  | viewChangeQuorum =>
      have entered : EntersViews { Topology.observe recovered record with
          recoveredView := max (Topology.observe recovered record).recoveredView
            record.view } :=
        observed.of_le (le_max_left _ _) rfl rfl
      refine ⟨entered.proposal_views, ?_⟩
      intro view newView stored
      dsimp only at stored
      rw [AssocMap.get?_insert] at stored
      split at stored
      · rename_i here
        rw [← here]
        exact le_max_right _ _
      · rw [← Topology.observe_newViewCertificates recovered record] at stored
        exact entered.newView_views view newView stored
  | checkpointQuorum =>
      exact observed.of_le (le_max_left _ _)
        (congrArg VoteLedger.proposals
          (Topology.observe_ledger recovered record).symm) rfl
  | viewChangeVote =>
      exact observed.of_le (UInt64.le_refl _) rfl rfl
  | _ =>
      exact observed.of_le (UInt64.le_refl _)
        (congrArg VoteLedger.proposals
          (Topology.observe_ledger recovered record).symm) rfl

end EntersViews

/-- A recovered state that inherits its selected certificates keeps them. -/
theorem KeepsSelected.recovered {topology : Topology} {wal : WriteAheadLog}
    {state : PbftState} (ok : topology.recover wal = .ok state)
    (inherits : InheritsSelected state) : KeepsSelected state := by
  have preserved : ∀ current record next, EntersViews current →
      Topology.Replays topology current record next → EntersViews next :=
    fun _ _ _ enters replays => enters.replays replays
  rcases Topology.recover_invariant EntersViews.initially preserved ok with
    ⟨recovered, enters, rfl⟩
  exact
    { proposal_views := fun key member =>
        enters.proposal_views key (Finset.filter_subset _ _ member)
      newView_views := enters.newView_views
      inherited := inherits }

/-- In every run whose opening proposals keep to the selected certificates, all
proposals known at the end do.  A log that is not empty must do so at the
start. -/
theorem selectedCertificate_inherited {totalNodes : Nat}
    {initialPublicKeys : AssocMap UInt32 G2Projective}
    {masterPublicKey : G2Projective} {wal : WriteAheadLog}
    {initial final : PbftState} {calls : List (PbftMessage × WalIo)}
    (started : newWithWalPath totalNodes initialPublicKeys masterPublicKey
      wal = .ok initial)
    (inherits : wal.file ≠ [] → InheritsSelected initial)
    (reached : run handleStep initial calls = some final)
    (proposes : Along handleStep ProposesSelected initial calls) :
    InheritsSelected final := by
  rcases newWithWalPath_eq_ok.mp started with ⟨topology, built, recovers⟩
  have inheritsAlways : InheritsSelected initial := by
    by_cases nonempty : wal.file = []
    · obtain ⟨file⟩ := wal
      subst nonempty
      rw [topology.recover_empty, Except.ok.injEq] at recovers
      rw [← recovers]
      intro view newView cert digest stored
      cases stored
    · exact inherits nonempty
  have preserved : ∀ state call next, KeepsSelected state →
      ProposesSelected state call → handleStep state call = some next →
        KeepsSelected next :=
    fun _ _ _ keeps allowed stepped => keeps.step allowed stepped
  exact (invariant_of_along preserved
    (KeepsSelected.recovered recovers inheritsAlways) proposes reached).inherited

end SelectedCertificate

section SmallRun

open SmallCluster

attribute [local instance] smallCurve

/-- A certificate prepared in view 0, and view 1 entered on votes for it. -/
def selectedInViewOne : List (PbftMessage × WalIo) :=
  ([signed .prePrepare 0 1 (digestOf 0xaa) 0] ++
    [0, 1, 2].map (signed .prepare 0 1 (digestOf 0xaa)) ++
    [0, 1, 2].map (signed .viewChange 1 1 (digestOf 0xaa))).map
      fun msg => (msg, WalIo.durable)

/-- The leader of view 1 proposes something for the selected slot. -/
def proposedInViewOne (byte : UInt8) : List (PbftMessage × WalIo) :=
  selectedInViewOne ++
    [(signed .prePrepare 1 1 (digestOf byte) 1, WalIo.durable)]

/-- A test of one call: a proposal agrees with the certificate that its view has
selected for the sequence. -/
def proposesSelectedCheck (state : PbftState) (call : PbftMessage × WalIo) : Bool :=
  ((state.newViewCertificates.get? call.1.view).bind fun newView =>
    newView.selectedPreparedCertificate).all fun cert =>
      decide (call.1.phase = .prePrepare → call.1.seq = cert.seq →
        call.1.digest = cert.digest)

theorem proposesSelected_of_check {state : PbftState} {call : PbftMessage × WalIo}
    (checked : proposesSelectedCheck state call = true) :
    ProposesSelected state call := by
  intro newView cert _ phase _ _ _ _ stored selected sameSeq
  rw [proposesSelectedCheck] at checked
  rw [stored, Option.bind_some, selected, Option.all_some] at checked
  exact of_decide_eq_true checked phase sameSeq

/-- The theorem at a run whose new leader proposes the selected digest. -/
theorem selectedCertificate_reproposed :
    ∃ final : PbftState,
      run handleStep topology.fresh (proposedInViewOne 0xaa) = some final ∧
        (1, 1, digestOf 0xaa) ∈ final.prePreparedProposals ∧
        InheritsSelected final := by
  have computed : (run handleStep topology.fresh
      (proposedInViewOne 0xaa)).any (fun final =>
        decide ((1, 1, digestOf 0xaa) ∈ final.prePreparedProposals)) = true := by
    decide +kernel
  rcases (Option.any_eq_true _ _).mp computed with ⟨final, reached, proposed⟩
  refine ⟨final, reached, of_decide_eq_true proposed, ?_⟩
  have notEmpty : (⟨[]⟩ : WriteAheadLog).file ≠ [] →
      InheritsSelected topology.fresh := fun nonempty => absurd rfl nonempty
  apply selectedCertificate_inherited topology.fresh_started notEmpty reached
  exact along_of_checkAlong (fun _ _ => proposesSelected_of_check)
    (by decide +kernel)

/-- The leader of the new view can have another digest accepted for the selected
slot. -/
theorem selectedCertificate_ignored :
    newWithWalPath topology.totalNodes topology.publicKeys
        topology.masterPublicKey ⟨[]⟩ = .ok topology.fresh ∧
      ∃ final : PbftState,
        run handleStep topology.fresh (proposedInViewOne 0xbb) = some final ∧
          ¬ InheritsSelected final := by
  refine ⟨topology.fresh_started, ?_⟩
  have computed : (run handleStep topology.fresh
      (proposedInViewOne 0xbb)).any (fun final =>
        ((final.newViewCertificates.get? 1).bind fun newView =>
          newView.selectedPreparedCertificate).any fun cert =>
            decide (cert.seq = 1 ∧ cert.digest = digestOf 0xaa ∧
              (1, 1, digestOf 0xbb) ∈ final.prePreparedProposals)) = true := by
    decide +kernel
  rcases (Option.any_eq_true _ _).mp computed with ⟨final, reached, found⟩
  rcases (Option.any_eq_true _ _).mp found with ⟨cert, chosen, checked⟩
  rcases Option.bind_eq_some_iff.mp chosen with ⟨newView, stored, selected⟩
  rcases of_decide_eq_true checked with ⟨certSeq, certDigest, proposed⟩
  refine ⟨final, reached, ?_⟩
  intro inherits
  have same : digestOf 0xbb = cert.digest :=
    inherits 1 newView cert (digestOf 0xbb) stored selected (certSeq ▸ proposed)
  rw [certDigest] at same
  exact absurd same (by decide)

end SmallRun

end SovereignLattice
