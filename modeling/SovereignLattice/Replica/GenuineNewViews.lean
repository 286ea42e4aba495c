import SovereignLattice.Replica.CertificateFailures

/-!
# Stored new-view certificates

Both the handler and replay store a new-view certificate when a view-change quorum
completes.  Whatever happens to the votes and to the prepared certificates
afterwards, what was stored stays a verified certificate of its view.
-/

namespace SovereignLattice

section GenuineNewViews

variable [Curve]

/-- A verified certificate of the view: a quorum of authentic votes with an
unambiguous highest slot, and a selection that is there exactly where the slot holds
a value. -/
structure GenuineNewView (topology : Topology) (view : UInt64)
    (cert : NewViewCertificate) : Prop where
  target : cert.targetView = view
  quorum : topology.quorumSize ≤ cert.viewChangeVotes.len
  authentic : ∀ sender seq digest signature,
    cert.viewChangeVotes.get? sender = some (seq, digest, signature) →
      topology.Verifies .viewChange (view, seq, digest) sender signature
  slot : ∃ maxSeq digest,
    highestViewChangeSlot cert.viewChangeVotes = some (maxSeq, digest) ∧
      (cert.selectedPreparedCertificate.isSome ↔ 0 < maxSeq) ∧
      ∀ prepared, cert.selectedPreparedCertificate = some prepared →
        prepared.seq = maxSeq ∧ prepared.digest = digest ∧ prepared.view < view
  verified : cert.verify topology.quorumSize topology.masterPublicKey
    topology.publicKeys = true

/-- What the two code paths build when a quorum completes is genuine. -/
theorem GenuineNewView.bound {topology : Topology} {view maxSeq : UInt64}
    {digest : Digest} {supporters : ViewChangeVotes}
    {certificates : List PreparedCertificate}
    {selected : Option PreparedCertificate}
    (quorum : topology.quorumSize ≤ supporters.len)
    (authentic : ∀ sender seq digest signature,
      supporters.get? sender = some (seq, digest, signature) →
        topology.Verifies .viewChange (view, seq, digest) sender signature)
    (slot : highestViewChangeSlot supporters = some (maxSeq, digest))
    (selection : selected = boundCertificate certificates view maxSeq digest
      topology.quorumSize topology.masterPublicKey)
    (found : 0 < maxSeq → selected.isSome)
    (verified : NewViewCertificate.verify
      { targetView := view, viewChangeVotes := supporters,
        selectedPreparedCertificate := selected }
      topology.quorumSize topology.masterPublicKey topology.publicKeys = true) :
    GenuineNewView topology view
      { targetView := view, viewChangeVotes := supporters,
        selectedPreparedCertificate := selected } where
  target := rfl
  quorum := quorum
  authentic := authentic
  verified := verified
  slot := by
    refine ⟨maxSeq, digest, slot, ⟨?_, found⟩, ?_⟩
    · intro present
      by_contra notPositive
      rw [selection, boundCertificate, if_neg notPositive] at present
      cases present
    · intro prepared chosen
      dsimp only at chosen
      rw [selection, boundCertificate] at chosen
      split at chosen
      · have supports := (select_mem chosen).2
        rw [PreparedCertificate.supports, decide_eq_true_eq] at supports
        exact ⟨supports.2.1, supports.2.2.1, supports.1⟩
      · cases chosen

/-- Every stored view-change vote verifies and every stored new-view certificate is
genuine. -/
structure NewViewsGenuine (topology : Topology)
    (votes : AssocMap UInt64 ViewChangeVotes)
    (newViews : AssocMap UInt64 NewViewCertificate) : Prop where
  votes_authentic : topology.ViewVotesAuthentic votes
  genuine : ∀ view cert, newViews.get? view = some cert →
    GenuineNewView topology view cert

namespace NewViewsGenuine

variable {topology : Topology} {votes : AssocMap UInt64 ViewChangeVotes}
variable {newViews : AssocMap UInt64 NewViewCertificate}

theorem empty (topology : Topology) : NewViewsGenuine topology ∅ ∅ where
  votes_authentic := Topology.ViewVotesAuthentic.empty
  genuine := by simp

/-- One more verified vote. -/
theorem vote (genuine : NewViewsGenuine topology votes newViews)
    {key : ProposalKey} {sender : UInt32} {signature : G1Projective}
    (verifies : topology.Verifies .viewChange key sender signature) :
    NewViewsGenuine topology
      (votes.insert key.1
        ((votes.getD key.1 ∅).insert sender (key.2.1, key.2.2, signature)))
      newViews where
  votes_authentic := genuine.votes_authentic.insert verifies
  genuine := genuine.genuine

/-- One more genuine certificate. -/
theorem store (genuine : NewViewsGenuine topology votes newViews)
    {view : UInt64} {cert : NewViewCertificate}
    (fresh : GenuineNewView topology view cert) :
    NewViewsGenuine topology votes (newViews.insert view cert) where
  votes_authentic := genuine.votes_authentic
  genuine := by
    intro other stored found
    rw [AssocMap.get?_insert] at found
    split at found
    · rename_i same
      rw [Option.some.injEq] at found
      subst same found
      exact fresh
    · exact genuine.genuine other stored found

end NewViewsGenuine

/-! ## Every state -/

/-- The invariant of a state. -/
def PbftState.NewViewsGenuine (state : PbftState) : Prop :=
  SovereignLattice.NewViewsGenuine state.toTopology state.viewChangeVotes
    state.newViewCertificates

namespace PbftState

theorem Stages.newViewsGenuine {state staged : PbftState} {msg : PbftMessage}
    {response : Response} (stages : Stages state msg response staged)
    (authenticated : state.Authenticated msg) (genuine : state.NewViewsGenuine) :
    staged.NewViewsGenuine := by
  rw [Authenticated] at authenticated
  cases stages with
  | viewChangeVote phase =>
      rw [phase] at authenticated
      exact genuine.vote authenticated
  | viewChangeQuorum maxSeq digest selected phase later backed quorum slot
      selection found verified =>
      rw [phase] at authenticated
      have authentic : ∀ sender seq digest signature,
          (state.supportersWith msg).get? sender =
              some (seq, digest, signature) →
            state.toTopology.Verifies .viewChange (msg.view, seq, digest) sender
              signature :=
        fun _ _ _ _ stored =>
          genuine.votes_authentic.supporter authenticated stored
      exact (genuine.vote authenticated).store
        (.bound quorum authentic slot selection found verified)
  | _ => exact genuine

theorem handleMessage_newViewsGenuine {state : PbftState}
    (genuine : state.NewViewsGenuine) (msg : PbftMessage) (io : WalIo) :
    (state.handleMessage msg io).2.NewViewsGenuine := by
  apply handleMessage_invariant NewViewsGenuine ?_ ?_ genuine
  · exact fun _ _ _ holds => holds
  · intro response staged stages authenticated _
    exact stages.newViewsGenuine authenticated genuine

end PbftState

/-- The new-view certificates that replay has found are genuine. -/
def ReplayGenuine (topology : Topology) (recovered : Recovered) : Prop :=
  NewViewsGenuine topology recovered.recoveredViewChangeVotes
    recovered.recoveredNewViewCertificates

/-- Replay keeps the invariant record by record. -/
theorem newViewsGenuine_of_recover {topology : Topology} {wal : WriteAheadLog}
    {state : PbftState} (ok : topology.recover wal = .ok state) :
    state.NewViewsGenuine := by
  have preserved : ∀ current record next, ReplayGenuine topology current →
      Topology.Replays topology current record next →
        ReplayGenuine topology next := by
    intro current record next genuine replays
    have observed : ReplayGenuine topology (Topology.observe current record) := by
      simpa [ReplayGenuine] using genuine
    cases replays with
    | viewChangeVote phase verifies => exact observed.vote verifies
    | viewChangeQuorum maxSeq digest selected phase verifies backed quorum slot
        selection found verified =>
        have authentic : ∀ sender seq digest signature,
            (current.supportersWith record).get? sender =
                some (seq, digest, signature) →
              topology.Verifies .viewChange (record.view, seq, digest) sender
                signature :=
          fun _ _ _ _ stored =>
            genuine.votes_authentic.supporter verifies stored
        have stored := (genuine.vote verifies).store
          (.bound quorum authentic slot selection found verified)
        rw [← Topology.observe_viewChangeVotes current record] at stored
        exact stored
    | _ => exact observed
  have initially : ReplayGenuine topology Recovered.initial :=
    NewViewsGenuine.empty topology
  rcases Topology.recover_invariant initially preserved ok with
    ⟨recovered, genuine, rfl⟩
  exact genuine

/-- Certificates are of entered views, and the current view is the first one or has
a certificate. -/
def PbftState.EntersCertified (state : PbftState) : Prop :=
  (∀ view cert, state.newViewCertificates.get? view = some cert →
    view ≤ state.currentView) ∧
  (state.currentView = 0 ∨
    ∃ cert, state.newViewCertificates.get? state.currentView = some cert)

namespace PbftState

theorem Stages.entersCertified {state staged : PbftState} {msg : PbftMessage}
    {response : Response} (stages : Stages state msg response staged)
    (enters : state.EntersCertified) : staged.EntersCertified := by
  constructor
  · intro view cert stored
    rcases stages.newViews_cases stored with before | ⟨here, _⟩
    · exact UInt64.le_trans (enters.1 view cert before) stages.currentView_le
    · exact UInt64.le_of_eq here
  · cases stages with
    | viewChangeQuorum =>
        exact Or.inr ⟨_, AssocMap.get?_insert_self _ _ _⟩
    | _ => exact enters.2

theorem handleMessage_entersCertified {state : PbftState}
    (enters : state.EntersCertified) (msg : PbftMessage) (io : WalIo) :
    (state.handleMessage msg io).2.EntersCertified := by
  apply handleMessage_invariant EntersCertified ?_ ?_ enters
  · exact fun _ _ _ holds => holds
  · exact fun response staged stages _ _ => stages.entersCertified enters

end PbftState

/-- Every stored new-view certificate is genuine, in every state that calls reach
from a state recovered from any bytes; and without a restart they are of entered
views, the current one among them. -/
theorem newViewCertificates_genuine {totalNodes : Nat}
    {initialPublicKeys : AssocMap UInt32 G2Projective}
    {masterPublicKey : G2Projective} {wal : WriteAheadLog} {initial : PbftState}
    (started : newWithWalPath totalNodes initialPublicKeys masterPublicKey wal =
      .ok initial)
    (calls : List (PbftMessage × WalIo)) :
    (∀ view cert,
      (initial.handleAll calls).newViewCertificates.get? view = some cert →
        GenuineNewView initial.toTopology view cert) ∧
    (wal = ⟨[]⟩ → (initial.handleAll calls).EntersCertified) := by
  constructor
  · rcases newWithWalPath_eq_ok.mp started with ⟨topology, _, recovers⟩
    have genuine : (initial.handleAll calls).NewViewsGenuine :=
      PbftState.handleAll_invariant PbftState.NewViewsGenuine
        (fun _ msg io before => PbftState.handleMessage_newViewsGenuine before
          msg io)
        (newViewsGenuine_of_recover recovers) calls
    rw [PbftState.NewViewsGenuine, initial.handleAll_sameTopology calls]
      at genuine
    exact genuine.genuine
  · rintro rfl
    rcases fresh_of_started started with ⟨topology, rfl, _⟩
    have initially : topology.fresh.EntersCertified := by
      refine ⟨?_, Or.inl rfl⟩
      intro view cert stored
      exact absurd stored (by simp [Topology.fresh, Topology.recoveredState,
        Recovered.initial])
    exact PbftState.handleAll_invariant PbftState.EntersCertified
      (fun _ msg io before => PbftState.handleMessage_entersCertified before
        msg io)
      initially calls

end GenuineNewViews

section SmallRun

open SmallCluster

attribute [local instance] smallCurve

/-- Three nodes ask for view 2, and one more vote for it comes late. -/
def intoViewTwo : List (PbftMessage × WalIo) :=
  [0, 1, 2, 3].map fun sender =>
    (signed .viewChange 2 0 (digestOf 0) sender, .durable)

/-- The theorem at a replica that has skipped a view. -/
theorem newViewCertificates_genuine_inViewTwo :
    (topology.fresh.handleAll intoViewTwo).currentView = 2 ∧
      ∃ cert, (topology.fresh.handleAll intoViewTwo).newViewCertificates.get? 2 =
          some cert ∧
        GenuineNewView topology 2 cert := by
  have entered : (topology.fresh.handleAll intoViewTwo).currentView = 2 := by
    decide +kernel
  have everyState := newViewCertificates_genuine topology.fresh_started
    intoViewTwo
  refine ⟨entered, ?_⟩
  rcases (everyState.2 rfl).2 with zero | ⟨cert, stored⟩
  · rw [entered] at zero
    exact absurd zero (by decide)
  · rw [entered] at stored
    exact ⟨cert, stored, everyState.1 2 cert stored⟩

end SmallRun

end SovereignLattice
