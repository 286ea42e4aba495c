import SovereignLattice.Cluster.Locks
import SovereignLattice.Network.Emissions

/-!
# Decisions go back to requests

The engine itself signs prepares and commits only.  A proposal of a correct
leader and a view-change vote of a correct node are requests from outside, and
the run shows them as actions.  Every decision rests on such a proposal or on a
Byzantine leader, and every view after the first on such votes.
-/

namespace SovereignLattice

section Requests

variable [Curve]

/-- What is signed beyond prepares and commits was requested. -/
structure Requested (actions : List ClusterAction)
    (signed : List (UInt32 × Bytes)) : Prop where
  proposals : ∀ id view seq digest,
    (id, statement .prePrepare (view, seq, digest)) ∈ signed →
      .propose id view seq digest ∈ actions
  viewChanges : ∀ id view seq digest,
    (id, statement .viewChange (view, seq, digest)) ∈ signed →
      .vote id view seq digest ∈ actions

/-! ## What an action signs -/

/-- The statement that an action lets a node sign, if any. -/
inductive Signs : ClusterAction → UInt32 → Phase → ProposalKey → Prop
  | proposal (id : UInt32) (view seq : UInt64) (digest : Digest) :
      Signs (.propose id view seq digest) id .prePrepare (view, seq, digest)
  | viewChange (id : UInt32) (view seq : UInt64) (digest : Digest) :
      Signs (.vote id view seq digest) id .viewChange (view, seq, digest)
  | prepare (action : ClusterAction) (id : UInt32) (key : ProposalKey) :
      Signs action id .prepare key
  | commit (action : ClusterAction) (id : UInt32) (key : ProposalKey) :
      Signs action id .commit key

/-- Whatever a node sends, it is a prepare or a commit. -/
theorem Node.phase_of_sent {node after : Node} {packet : Packet} {io : WalIo}
    {out : Option PbftMessage} (handled : Handled node packet io out after)
    {msg : PbftMessage} (sent : out = some msg) :
    msg.phase = .prepare ∨ msg.phase = .commit := by
  cases handled with
  | ignored => cases sent
  | handled => cases sent
  | answered =>
      rcases PbftState.outgoingMsg_eq_some sent with
        ⟨_, ⟨_, prepare⟩ | ⟨_, commit, _⟩⟩
      · exact Or.inl prepare
      · exact Or.inr commit

/-- A delivery signs a prepare or a commit, or nothing. -/
theorem Cluster.deliver_signed (cluster : Cluster) (id : UInt32) (packet : Packet)
    (io : WalIo) :
    (cluster.deliver id packet io).signed = cluster.signed ∨
      ∃ msg : PbftMessage, (msg.phase = .prepare ∨ msg.phase = .commit) ∧
        (cluster.deliver id packet io).signed =
          (msg.senderId, msg.canonicalBytes) :: cluster.signed := by
  have handled :=
    Node.handleConnection_handled (cluster.nodes id) packet io
  rw [Cluster.deliver]
  generalize (cluster.nodes id).handleConnection packet io = result at handled ⊢
  obtain ⟨answered, node⟩ := result
  dsimp only at handled ⊢
  cases out : Node.sent answered with
  | none => exact Or.inl rfl
  | some msg => exact Or.inr ⟨msg, Node.phase_of_sent handled out, rfl⟩

theorem Cluster.step_signs {config : ClusterConfig} {cluster next : Cluster}
    {action : ClusterAction}
    (stepped : cluster.step config action = some next) :
    next.signed = cluster.signed ∨ ∃ id phase key, Signs action id phase key ∧
      next.signed = (id, statement phase key) :: cluster.signed := by
  cases step_stepped stepped with
  | inject => exact Or.inl rfl
  | propose id view seq digest =>
      exact Or.inr ⟨id, .prePrepare, (view, seq, digest), .proposal id view seq digest,
        rfl⟩
  | vote id view seq digest =>
      exact Or.inr ⟨id, .viewChange, (view, seq, digest),
        .viewChange id view seq digest, rfl⟩
  | deliver id packet io =>
      rcases cluster.deliver_signed id packet io with same | ⟨msg, kind, grown⟩
      · exact Or.inl same
      · refine Or.inr ⟨msg.senderId, msg.phase, msg.proposalKey, ?_, grown⟩
        rcases kind with phase | phase
        · rw [phase]
          exact .prepare _ _ _
        · rw [phase]
          exact .commit _ _ _

theorem Requested.step {config : ClusterConfig} {cluster next : Cluster}
    {earlier : List ClusterAction} {action : ClusterAction}
    (requested : Requested earlier cluster.signed)
    (stepped : cluster.step config action = some next) :
    Requested (earlier ++ [action]) next.signed := by
  have before : ∀ {request}, request ∈ earlier → request ∈ earlier ++ [action] :=
    fun member => List.mem_append_left _ member
  have last : action ∈ earlier ++ [action] :=
    List.mem_append_right _ List.mem_cons_self
  rcases Cluster.step_signs stepped with same | ⟨signer, phase, key, signs, grown⟩
  · rw [same]
    exact
      { proposals := fun id view seq digest made =>
          before (requested.proposals id view seq digest made)
        viewChanges := fun id view seq digest made =>
          before (requested.viewChanges id view seq digest made) }
  · rw [grown]
    constructor
    · intro id view seq digest made
      rcases List.mem_cons.mp made with same | known
      · rcases Prod.mk.inj same with ⟨rfl, sameBytes⟩
        rcases statement_injective sameBytes with ⟨rfl, rfl⟩
        cases signs
        exact last
      · exact before (requested.proposals id view seq digest known)
    · intro id view seq digest made
      rcases List.mem_cons.mp made with same | known
      · rcases Prod.mk.inj same with ⟨rfl, sameBytes⟩
        rcases statement_injective sameBytes with ⟨rfl, rfl⟩
        cases signs
        exact last
      · exact before (requested.viewChanges id view seq digest known)

/-- All that is signed after the actions was requested by them. -/
def SignsRequested (earlier : List ClusterAction) (current : Cluster) : Prop :=
  Requested earlier current.signed

theorem requested_of_run {config : ClusterConfig} {cluster : Cluster}
    {actions : List ClusterAction}
    (reached : run (Cluster.step config) config.start actions = some cluster) :
    Requested actions cluster.signed := by
  have preserved : ∀ earlier current action next, SignsRequested earlier current →
      current.step config action = some next →
        SignsRequested (earlier ++ [action]) next :=
    fun _ _ _ _ requested stepped => requested.step stepped
  have initially : SignsRequested [] config.start :=
    { proposals := fun _ _ _ _ made => by cases made
      viewChanges := fun _ _ _ _ made => by cases made }
  exact invariant_of_history preserved initially reached

/-! ## What a replica holds -/

/-- Enough members have signed a vote for the view: each one that is correct has. -/
def ViewVoted (config : ClusterConfig) (signed : List (UInt32 × Bytes))
    (view : UInt64) : Prop :=
  ∃ quorum : Finset UInt32, quorum ⊆ config.topology.registeredNodes ∧
    2 * config.topology.f + 1 ≤ quorum.card ∧
    ∀ node ∈ quorum, node ∉ config.byzantine →
      ∃ seq digest, (node, statement .viewChange (view, seq, digest)) ∈ signed

/-- The proposals, the view-change votes and the view of a replica, against what
correct nodes have signed. -/
structure Grounded (config : ClusterConfig) (signed : List (UInt32 × Bytes))
    (state : PbftState) : Prop where
  proposals : ∀ key ∈ state.prePreparedProposals,
    config.topology.getExpectedLeader key.1 ∉ config.byzantine →
      (config.topology.getExpectedLeader key.1, statement .prePrepare key) ∈ signed
  proposalViews : ∀ key ∈ state.prePreparedProposals,
    key.1 = 0 ∨ ViewVoted config signed key.1
  viewChangeVotes : ∀ view votes, state.viewChangeVotes.get? view = some votes →
    ∀ sender ∈ votes.keySet, sender ∈ config.topology.registeredNodes ∧
      (sender ∉ config.byzantine →
        ∃ seq digest, (sender, statement .viewChange (view, seq, digest)) ∈ signed)
  view : state.currentView = 0 ∨ ViewVoted config signed state.currentView
  newViews : ∀ view cert, state.newViewCertificates.get? view = some cert →
    ViewVoted config signed view
  stable : state.lastStableCheckpoint = 0

namespace Grounded

variable {config : ClusterConfig} {signed more : List (UInt32 × Bytes)}
variable {state staged : PbftState} {msg : PbftMessage} {response : Response}

theorem fresh (config : ClusterConfig) :
    Grounded config signed config.topology.fresh where
  proposals key member := by cases member
  proposalViews key member := by cases member
  viewChangeVotes view votes stored := by cases stored
  view := Or.inl rfl
  newViews view cert stored := by cases stored
  stable := rfl

theorem mono (grounded : Grounded config signed state) (grown : signed ⊆ more) :
    Grounded config more state := by
  have viewVoted : ∀ view, ViewVoted config signed view →
      ViewVoted config more view := by
    rintro view ⟨quorum, members, size, made⟩
    refine ⟨quorum, members, size, ?_⟩
    intro node member correct
    rcases made node member correct with ⟨seq, digest, found⟩
    exact ⟨seq, digest, grown found⟩
  exact
    { proposals := fun key member correct =>
        grown (grounded.proposals key member correct)
      proposalViews := fun key member =>
        (grounded.proposalViews key member).imp_right (viewVoted _)
      viewChangeVotes := fun view votes stored sender member => by
        rcases grounded.viewChangeVotes view votes stored sender member with
          ⟨registered, made⟩
        refine ⟨registered, fun correct => ?_⟩
        rcases made correct with ⟨seq, digest, found⟩
        exact ⟨seq, digest, grown found⟩
      view := grounded.view.imp_right (viewVoted _)
      newViews := fun view cert stored =>
        viewVoted view (grounded.newViews view cert stored)
      stable := grounded.stable }

/-- A supporter of the target view, the sender of the message included. -/
theorem supporters (grounded : Grounded config signed state)
    (registered : msg.senderId ∈ config.topology.registeredNodes)
    (made : msg.senderId ∉ config.byzantine →
      (msg.senderId, statement .viewChange msg.proposalKey) ∈ signed) :
    ∀ sender ∈ (state.supportersWith msg).keySet,
      sender ∈ config.topology.registeredNodes ∧
        (sender ∉ config.byzantine → ∃ seq digest,
          (sender, statement .viewChange (msg.view, seq, digest)) ∈ signed) := by
  intro sender member
  rw [PbftState.supportersWith, AssocMap.keySet_insert, Finset.mem_insert] at member
  rcases member with rfl | earlier
  · exact ⟨registered, fun correct => ⟨msg.seq, msg.digest, made correct⟩⟩
  · cases before : state.viewChangeVotes.get? msg.view with
    | none => simp [AssocMap.getD, before] at earlier
    | some older =>
        rw [AssocMap.getD_of_get? ∅ before] at earlier
        exact grounded.viewChangeVotes msg.view older before sender earlier

/-- Every accepted message that stabilises no checkpoint. -/
theorem stages (grounded : Grounded config signed state)
    (accounted : Accounted config signed state)
    (admitted : Admitted config signed msg)
    (authenticated : state.Authenticated msg)
    (stages : PbftState.Stages state msg response staged)
    (unstable : response ≠ .checkpointStabilized) :
    Grounded config signed staged := by
  have made : ∀ {phase}, msg.phase = phase → msg.senderId ∉ config.byzantine →
      (msg.senderId, statement phase msg.proposalKey) ∈ signed :=
    fun samePhase => accounted.sender_signed admitted authenticated samePhase
  have registered : msg.senderId ∈ config.topology.registeredNodes := by
    rw [← accounted.sameTopology]
    exact authenticated.1
  have stored : msg.phase = .viewChange → ∀ view votes,
      (state.viewChangeVotes.insert msg.view (state.supportersWith msg)).get? view =
        some votes →
      ∀ sender ∈ votes.keySet, sender ∈ config.topology.registeredNodes ∧
        (sender ∉ config.byzantine → ∃ seq digest,
          (sender, statement .viewChange (view, seq, digest)) ∈ signed) := by
    intro phase view votes found
    rw [AssocMap.get?_insert] at found
    split at found
    · rename_i here
      rw [Option.some.injEq] at found
      subst here found
      exact grounded.supporters registered (made phase)
    · exact grounded.viewChangeVotes view votes found
  cases stages with
  | prePrepare phase view leader unique fresh =>
      refine { grounded with proposals := ?_, proposalViews := ?_ }
      · intro key member correct
        rcases Finset.mem_insert.mp member with rfl | known
        · have sender : msg.senderId = config.topology.getExpectedLeader msg.view := by
            rw [leader, accounted.sameTopology]
          have signed := made phase
          rw [sender] at signed
          exact signed correct
        · exact grounded.proposals key known correct
      · intro key member
        rcases Finset.mem_insert.mp member with rfl | known
        · have entered := grounded.view
          rw [← view] at entered
          exact entered
        · exact grounded.proposalViews key known
  | prepare => exact { grounded with }
  | commit => exact { grounded with }
  | viewChangeVote phase =>
      exact { grounded with viewChangeVotes := stored phase }
  | viewChangeQuorum maxSeq digest selected phase later backed quorum =>
      have voted : ViewVoted config signed msg.view := by
        refine ⟨(state.supportersWith msg).keySet, ?_, ?_, ?_⟩
        · exact fun sender member =>
            (grounded.supporters registered (made phase) sender member).1
        · rw [AssocMap.card_keySet, ← config.topology.quorumSize_eq,
            ← accounted.sameTopology]
          exact quorum
        · exact fun sender member =>
            (grounded.supporters registered (made phase) sender member).2
      refine
        { grounded with
          viewChangeVotes := stored phase
          view := Or.inr voted
          newViews := ?_ }
      intro view cert found
      rw [AssocMap.get?_insert] at found
      split at found
      · rename_i here
        subst here
        exact voted
      · exact grounded.newViews view cert found
  | checkpointVote => exact { grounded with }
  | checkpointQuorum => exact absurd rfl unstable

end Grounded

/-- Every correct replica is grounded. -/
def AllGrounded (config : ClusterConfig) (cluster : Cluster) : Prop :=
  ∀ id state, config.Correct id → (cluster.nodes id).state = some state →
    Grounded config cluster.signed state

theorem AllGrounded.step {config : ClusterConfig} {cluster next : Cluster}
    {action : ClusterAction} (sound : Sound config cluster)
    (grounded : AllGrounded config cluster)
    (stepped : cluster.step config action = some next) :
    AllGrounded config next := by
  intro id after correct heldNext
  have grown : cluster.signed ⊆ next.signed := by
    rcases Cluster.step_signs stepped with same | ⟨_, _, _, _, more⟩
    · rw [same]
      exact List.Subset.refl _
    · rw [more]
      exact List.subset_cons_self _ _
  rcases sound.replicas id correct with ⟨before, held, accounted, _⟩
  have holds := grounded id before correct held
  rcases sound.replica_step stepped correct held heldNext with
    rfl | ⟨msg, io, rfl, received⟩
  · exact holds.mono grown
  · have admitted : Admitted config cluster.signed msg := by
      cases Cluster.step_stepped stepped with
      | deliver _ _ _ _ inFlight => exact sound.network msg inFlight
    apply Grounded.mono _ grown
    generalize (before.handleMessage msg io).1 = answer at received
    cases received with
    | unchanged => exact { holds with }
    | accepted response staged wal running authenticated stages unstable =>
        have kept := holds.stages accounted admitted authenticated stages unstable
        exact { kept with }

/-- What the argument about requests knows about a cluster. -/
def SoundlyGrounded (config : ClusterConfig) (cluster : Cluster) : Prop :=
  Sound config cluster ∧ AllGrounded config cluster

theorem grounded_of_run {config : ClusterConfig} {cluster : Cluster}
    {actions : List ClusterAction}
    (reached : run (Cluster.step config) config.start actions = some cluster) :
    SoundlyGrounded config cluster := by
  have initially : SoundlyGrounded config config.start := by
    refine ⟨Sound.start config, ?_⟩
    intro id state correct held
    cases held
    exact Grounded.fresh config
  have preserved : ∀ current action next, SoundlyGrounded config current →
      current.step config action = some next → SoundlyGrounded config next :=
    fun _ _ _ both stepped =>
      ⟨both.1.step stepped, AllGrounded.step both.1 both.2 stepped⟩
  exact invariant_of_run preserved initially reached

/-! ## Runs -/

variable {config : ClusterConfig} {cluster : Cluster} {actions : List ClusterAction}

/-- More than `f` correct members were asked to vote for the view. -/
def ViewRequested (config : ClusterConfig) (actions : List ClusterAction)
    (view : UInt64) : Prop :=
  ∃ voters : Finset UInt32, config.topology.f + 1 ≤ voters.card ∧
    ∀ node ∈ voters, config.Correct node ∧
      ∃ seq digest, .vote node view seq digest ∈ actions

theorem ViewVoted.requested {signed : List (UInt32 × Bytes)} {view : UInt64}
    (voted : ViewVoted config signed view) (requested : Requested actions signed) :
    ViewRequested config actions view := by
  rcases voted with ⟨quorum, members, size, made⟩
  refine ⟨quorum \ config.byzantine, ?_, ?_⟩
  · have few := config.byzantine_few
    have remain := Finset.le_card_sdiff config.byzantine quorum
    omega
  · intro node member
    rcases Finset.mem_sdiff.mp member with ⟨inQuorum, correct⟩
    rcases made node inQuorum correct with ⟨seq, digest, signed⟩
    exact ⟨⟨members inQuorum, correct⟩, seq, digest,
      requested.viewChanges node view seq digest signed⟩

/-- A committed slot has its proposal. -/
theorem Accounted.proposed_of_committed {signed : List (UInt32 × Bytes)}
    {state : PbftState} (accounted : Accounted config signed state)
    {view seq : UInt64} {digest : Digest}
    (committed : state.committedDigest.get? (view, seq) = some digest) :
    (view, seq, digest) ∈ state.prePreparedProposals := by
  have chain := accounted.chain
  have present : (state.ledger.committed.get? (view, seq)).isSome :=
    Option.isSome_iff_exists.mpr ⟨digest, committed⟩
  obtain ⟨cert, stored⟩ := Option.isSome_iff_exists.mp
    ((chain.committed_keys (view, seq)).mpr present)
  rcases chain.commit_chain view seq cert stored with
    ⟨_, _, sameDigest, _, _, _, prepared, held, preparedDigest⟩
  have same : cert.digest = digest :=
    Option.some.inj (sameDigest.symm.trans committed)
  obtain ⟨_, _, proposed, _⟩ := chain.prepared_chain view seq prepared held
  rw [preparedDigest, same] at proposed
  exact proposed

/-- By itself a node signs prepares and commits only. -/
theorem Sound.signed_cases (sound : Sound config cluster)
    (requested : Requested actions cluster.signed) {signer : UInt32}
    (correct : config.Correct signer) {phase : Phase} {key : ProposalKey}
    (made : (signer, statement phase key) ∈ cluster.signed) :
    phase = .prepare ∨ phase = .commit ∨
      (phase = .prePrepare ∧ .propose signer key.1 key.2.1 key.2.2 ∈ actions) ∨
      (phase = .viewChange ∧ .vote signer key.1 key.2.1 key.2.2 ∈ actions) := by
  cases phase with
  | prePrepare =>
      exact Or.inr (Or.inr (Or.inl ⟨rfl, requested.proposals signer _ _ _ made⟩))
  | prepare => exact Or.inl rfl
  | commit => exact Or.inr (Or.inl rfl)
  | viewChange =>
      exact Or.inr (Or.inr (Or.inr ⟨rfl, requested.viewChanges signer _ _ _ made⟩))
  | checkpoint => exact absurd made (sound.noCheckpoint signer correct key)

/-- Who is behind a decision, and behind its view. -/
theorem decided_of_grounded (sound : Sound config cluster)
    (grounded : AllGrounded config cluster)
    (requested : Requested actions cluster.signed) {id : UInt32}
    (correct : config.Correct id) {state : PbftState}
    (held : (cluster.nodes id).state = some state)
    {view seq : UInt64} {digest : Digest}
    (committed : state.committedDigest.get? (view, seq) = some digest) :
    (config.topology.getExpectedLeader view ∈ config.byzantine ∨
      .propose (config.topology.getExpectedLeader view) view seq digest ∈ actions) ∧
    (view = 0 ∨ ViewRequested config actions view) := by
  have holds := grounded id state correct held
  rcases sound.replicas id correct with ⟨_, same, accounted, _⟩
  rw [held, Option.some.injEq] at same
  subst same
  have proposed := accounted.proposed_of_committed committed
  constructor
  · by_cases byzantine : config.topology.getExpectedLeader view ∈ config.byzantine
    · exact Or.inl byzantine
    · have made := holds.proposals _ proposed byzantine
      exact Or.inr (requested.proposals _ view seq digest made)
  · exact (holds.proposalViews _ proposed).imp_right fun voted =>
      voted.requested requested

/-- Whatever a correct replica decides was proposed: by a Byzantine leader, or by
a correct one that was asked to.  The view of the decision is the first, or more
than `f` correct members were asked to vote for it.  What correct nodes sign beyond
prepares and commits they were asked for. -/
theorem decision_requested
    (reached : run (Cluster.step config) config.start actions = some cluster)
    {id : UInt32} (correct : config.Correct id) {state : PbftState}
    (held : (cluster.nodes id).state = some state)
    {view seq : UInt64} {digest : Digest}
    (committed : state.committedDigest.get? (view, seq) = some digest) :
    (config.topology.getExpectedLeader view ∈ config.byzantine ∨
      .propose (config.topology.getExpectedLeader view) view seq digest ∈ actions) ∧
    (view = 0 ∨ ViewRequested config actions view) ∧
    ∀ signer phase key, config.Correct signer →
      (signer, statement phase key) ∈ cluster.signed →
        phase = .prepare ∨ phase = .commit ∨
        (phase = .prePrepare ∧ .propose signer key.1 key.2.1 key.2.2 ∈ actions) ∨
        (phase = .viewChange ∧ .vote signer key.1 key.2.1 key.2.2 ∈ actions) := by
  rcases grounded_of_run reached with ⟨sound, grounded⟩
  have requested := requested_of_run reached
  rcases decided_of_grounded sound grounded requested correct held committed with
    ⟨proposed, entered⟩
  exact ⟨proposed, entered, fun _ _ _ signs made =>
    sound.signed_cases requested signs made⟩

/-- As long as no correct node is asked for a view-change vote, the cluster stays
in the first view: nothing stabilises, no view is entered, and all decisions at
one sequence number are one, proposed by the first leader. -/
theorem unvoted_oneView
    (reached : run (Cluster.step config) config.start actions = some cluster)
    (unvoted : ∀ id view seq digest, .vote id view seq digest ∉ actions)
    {a b : UInt32} (aCorrect : config.Correct a) (bCorrect : config.Correct b)
    {stateA stateB : PbftState}
    (heldA : (cluster.nodes a).state = some stateA)
    (heldB : (cluster.nodes b).state = some stateB) :
    stateA.currentView = 0 ∧ stateA.lastStableCheckpoint = 0 ∧
      (∀ view, stateA.newViewCertificates.get? view = none) ∧
      ∀ viewA viewB seq digestA digestB,
        stateA.committedDigest.get? (viewA, seq) = some digestA →
        stateB.committedDigest.get? (viewB, seq) = some digestB →
          viewA = 0 ∧ viewB = 0 ∧ digestA = digestB ∧
            (0 ∈ config.byzantine ∨ .propose 0 0 seq digestA ∈ actions) := by
  rcases grounded_of_run reached with ⟨sound, grounded⟩
  have holds := grounded a stateA aCorrect heldA
  have requested := requested_of_run reached
  have unentered : ∀ view, ¬ ViewRequested config actions view := by
    rintro view ⟨voters, size, asked⟩
    have someVoter : 0 < voters.card := by omega
    rcases Finset.card_pos.mp someVoter with ⟨node, member⟩
    rcases (asked node member).2 with ⟨seq, digest, voted⟩
    exact unvoted node view seq digest voted
  have unentered' : ∀ view, ¬ ViewVoted config cluster.signed view :=
    fun view voted => unentered view (voted.requested requested)
  refine ⟨holds.view.resolve_right (unentered' _), holds.stable, ?_, ?_⟩
  · intro view
    cases found : stateA.newViewCertificates.get? view with
    | none => rfl
    | some cert => exact absurd (holds.newViews view cert found) (unentered' view)
  · intro viewA viewB seq digestA digestB committedA committedB
    rcases decided_of_grounded sound grounded requested aCorrect heldA committedA with
      ⟨proposer, entered⟩
    rcases decided_of_grounded sound grounded requested bCorrect heldB committedB with
      ⟨_, entered'⟩
    obtain rfl := entered.resolve_right (unentered _)
    obtain rfl := entered'.resolve_right (unentered _)
    have first : config.topology.getExpectedLeader 0 = 0 := by
      simp [Topology.getExpectedLeader]
    rw [first] at proposer
    exact ⟨rfl, rfl,
      sound.digest_unique aCorrect bCorrect heldA heldB committedA committedB,
      proposer⟩

end Requests

section SmallRun

attribute [local instance] smallCurve

open SmallCluster

/-- The theorem at a decision in the view after a view change. -/
theorem decision_requested_secondView :
    ∃ (cluster : Cluster) (state : PbftState) (digest : Digest),
      run (Cluster.step (config specVote)) (config specVote).start
          (decideAgain 0xaa) = some cluster ∧
        (cluster.nodes 3).state = some state ∧
        state.committedDigest.get? (1, 1) = some digest ∧
        ((config specVote).topology.getExpectedLeader 1 ∈
            (config specVote).byzantine ∨
          .propose ((config specVote).topology.getExpectedLeader 1) 1 1 digest ∈
            decideAgain 0xaa) ∧
        (1 = (0 : UInt64) ∨ ViewRequested (config specVote) (decideAgain 0xaa) 1) := by
  have computed : (run (Cluster.step (config specVote)) (config specVote).start
      (decideAgain 0xaa)).any (fun cluster =>
        (committedAt cluster 2 (0, 1)).isSome &&
          (committedAt cluster 3 (1, 1)).isSome) = true := by
    decide +kernel
  obtain ⟨cluster, _, state, _, digest, reached, _, held, _, committed⟩ :=
    exists_committedAt computed
  obtain ⟨proposed, voted, _⟩ :=
    decision_requested reached (by decide) held committed
  exact ⟨cluster, state, digest, reached, held, committed, proposed, voted⟩

/-- The theorem at a run in which nodes 2 and 3 decide the first slot. -/
theorem unvoted_oneView_decided :
    ∃ (cluster : Cluster) (stateA stateB : PbftState) (digestA digestB : Digest),
      run (Cluster.step (config fun _ _ _ _ => true))
          (config fun _ _ _ _ => true).start
          (.propose 0 0 1 (digestOf 0xaa) ::
            decideSlot 0 1 (digestOf 0xaa) 0) = some cluster ∧
        (cluster.nodes 2).state = some stateA ∧
        (cluster.nodes 3).state = some stateB ∧
        stateA.committedDigest.get? (0, 1) = some digestA ∧
        stateB.committedDigest.get? (0, 1) = some digestB ∧
        stateA.currentView = 0 ∧ digestA = digestB := by
  have computed : (run (Cluster.step (config fun _ _ _ _ => true))
      (config fun _ _ _ _ => true).start
      (.propose 0 0 1 (digestOf 0xaa) ::
        decideSlot 0 1 (digestOf 0xaa) 0)).any (fun cluster =>
          (committedAt cluster 2 (0, 1)).isSome &&
            (committedAt cluster 3 (0, 1)).isSome) = true := by
    decide +kernel
  obtain ⟨cluster, stateA, stateB, digestA, digestB, reached, heldA, heldB,
    committedA, committedB⟩ := exists_committedAt computed
  have unvoted : ∀ id view seq digest, ClusterAction.vote id view seq digest ∉
      .propose 0 0 1 (digestOf 0xaa) :: decideSlot 0 1 (digestOf 0xaa) 0 := by
    intro id view seq digest member
    simp [decideSlot, deliverBoth] at member
  obtain ⟨first, _, _, together⟩ :=
    unvoted_oneView reached unvoted (by decide) (by decide) heldA heldB
  exact ⟨cluster, stateA, stateB, digestA, digestB, reached, heldA, heldB,
    committedA, committedB, first,
    (together 0 0 1 digestA digestB committedA committedB).2.2.1⟩

end SmallRun

end SovereignLattice
