import SovereignLattice.Cluster.Actions

/-!
# Who has signed what

The invariant of a cluster: every commit vote that a correct replica has counted
for a correct node was signed by that node, and whatever commit a correct node
has signed is backed by the proposal and the certificate that it still holds.
Correct nodes sign no checkpoints, so none ever stabilises and nothing is
forgotten.
-/

namespace SovereignLattice

variable [Curve]

/-- The bytes that a vote signs. -/
def statement (phase : Phase) (key : ProposalKey) : Bytes :=
  canonicalMsg phase.toU8 key.1 key.2.1 key.2.2

omit [Curve] in
theorem statement_injective {phase phase' : Phase} {key key' : ProposalKey}
    (same : statement phase key = statement phase' key') :
    phase = phase' ∧ key = key' := by
  rcases canonicalMsg_injective same with
    ⟨samePhase, sameView, sameSeq, sameDigest⟩
  exact ⟨Phase.toU8_injective samePhase,
    Prod.ext sameView (Prod.ext sameSeq sameDigest)⟩

/-- The votes that a replica has counted, against what correct nodes have
signed. -/
structure Accounted (config : ClusterConfig) (signed : List (UInt32 × Bytes))
    (state : PbftState) : Prop where
  sameTopology : state.toTopology = config.topology
  chain : state.Chained
  proposal_views : ∀ key ∈ state.prePreparedProposals,
    key.1 ≤ state.currentView
  commitVotes : state.commitVotes.All fun key sender _ =>
    sender ∉ config.byzantine → (sender, statement .commit key) ∈ signed
  checkpointVotes : state.checkpointVotes.All fun _ sender _ =>
    sender ∈ config.byzantine

/-- The commits that a node has signed, against what its replica holds. -/
def Backed (signed : List (UInt32 × Bytes)) (id : UInt32) (state : PbftState) :
    Prop :=
  ∀ key, (id, statement .commit key) ∈ signed →
    key ∈ state.prePreparedProposals ∧
      ∃ cert, state.preparedCertificates.get? (slotOf key) = some cert ∧
        cert.digest = key.2.2

/-- No correct node has signed a checkpoint. -/
def NoCheckpoint (config : ClusterConfig) (signed : List (UInt32 × Bytes)) :
    Prop :=
  ∀ id, config.Correct id → ∀ key, (id, statement .checkpoint key) ∉ signed

/-- The message is in order with what correct nodes have signed. -/
def Admitted (config : ClusterConfig) (signed : List (UInt32 × Bytes))
    (msg : PbftMessage) : Prop :=
  config.attributed msg = true → (msg.senderId, msg.canonicalBytes) ∈ signed

theorem admits_pbft {config : ClusterConfig} {cluster : Cluster}
    {msg : PbftMessage} :
    cluster.admits config (.pbft msg) = true ↔
      Admitted config cluster.signed msg := by
  rw [Admitted]
  cases attributed : config.attributed msg <;>
    simp [Cluster.admits, attributed]

/-! ## One message at one replica -/

section Replica

variable {config : ClusterConfig} {signed : List (UInt32 × Bytes)}
variable {id : UInt32} {state staged : PbftState} {msg : PbftMessage}
variable {response : Response}

/-- A verified vote of a correct node was signed by it. -/
theorem Accounted.sender_signed (accounted : Accounted config signed state)
    (admitted : Admitted config signed msg)
    (authenticated : state.Authenticated msg) {phase : Phase}
    (samePhase : msg.phase = phase) :
    msg.senderId ∉ config.byzantine →
      (msg.senderId, statement phase msg.proposalKey) ∈ signed := by
  intro correct
  subst samePhase
  rw [PbftState.Authenticated] at authenticated
  rw [accounted.sameTopology] at authenticated
  obtain ⟨registered, pk, key, verified⟩ := authenticated
  apply admitted
  rw [ClusterConfig.attributed]
  rw [key, Option.any_some, Bool.and_eq_true]
  exact ⟨decide_eq_true ⟨registered, correct⟩, verified⟩

theorem Accounted.checkpoint_byzantine (accounted : Accounted config signed state)
    (admitted : Admitted config signed msg)
    (noCheckpoint : NoCheckpoint config signed)
    (authenticated : state.Authenticated msg)
    (phase : msg.phase = .checkpoint) : msg.senderId ∈ config.byzantine := by
  by_contra correct
  have made := accounted.sender_signed admitted authenticated phase correct
  have registered : msg.senderId ∈ config.topology.registeredNodes := by
    rw [← accounted.sameTopology]
    exact authenticated.1
  exact noCheckpoint msg.senderId ⟨registered, correct⟩ msg.proposalKey made

/-- No checkpoint ever has a quorum. -/
theorem Accounted.unstable (accounted : Accounted config signed state)
    (admitted : Admitted config signed msg)
    (noCheckpoint : NoCheckpoint config signed)
    (authenticated : state.Authenticated msg)
    (stages : PbftState.Stages state msg response staged) :
    response ≠ .checkpointStabilized := by
  rintro rfl
  obtain ⟨phase, _, quorum, _⟩ := stages.stabilized_inv
  have sender := accounted.checkpoint_byzantine admitted noCheckpoint
    authenticated phase
  have counted : (state.checkpointVotes.withVote msg.proposalKey msg.senderId
      msg.signature).len ≤ config.byzantine.card := by
    rw [← AssocMap.card_keySet]
    apply Finset.card_le_card
    intro voter member
    rcases AssocMap.mem_keys_iff.mp member with ⟨signature, voted⟩
    exact accounted.checkpointVotes.insert_withVote sender msg.proposalKey _
      (AssocMap.get?_insert_self _ _ _) voter signature voted
  have few := config.byzantine_few
  rw [accounted.sameTopology, config.topology.quorumSize_eq] at quorum
  omega

theorem Accounted.stages (accounted : Accounted config signed state)
    (admitted : Admitted config signed msg)
    (noCheckpoint : NoCheckpoint config signed)
    (authenticated : state.Authenticated msg)
    (stages : PbftState.Stages state msg response staged) :
    Accounted config signed staged where
  sameTopology := stages.sameTopology.trans accounted.sameTopology
  chain := stages.chained authenticated accounted.chain
  proposal_views := stages.proposal_views accounted.proposal_views
  commitVotes := by
    cases stages with
    | commit _ cert phase =>
        have made := accounted.sender_signed admitted authenticated phase
        exact accounted.commitVotes.insert_withVote made
    | checkpointQuorum => exact accounted.commitVotes.retain _
    | _ => exact accounted.commitVotes
  checkpointVotes := by
    have unstable := accounted.unstable admitted noCheckpoint authenticated stages
    cases stages with
    | checkpointVote phase =>
        have sender := accounted.checkpoint_byzantine admitted noCheckpoint
          authenticated phase
        exact accounted.checkpointVotes.insert_withVote sender
    | checkpointQuorum => exact absurd rfl unstable
    | _ => exact accounted.checkpointVotes

/-- Until a checkpoint stabilises, a replica keeps what backs its commits. -/
theorem Backed.stages (backed : Backed signed id state)
    (stages : PbftState.Stages state msg response staged)
    (unstable : response ≠ .checkpointStabilized) (chain : state.Chained) :
    Backed signed id staged := by
  intro key made
  rcases backed key made with ⟨proposed, cert, held, digest⟩
  rcases stages.prepared_kept unstable chain held with
    ⟨later, stillHeld, sameDigest⟩
  exact ⟨stages.proposals_subset unstable proposed, later, stillHeld,
    sameDigest.trans digest⟩

/-- What one call of the handler does at a replica of the cluster: nothing, or an
accepted message that stabilises no checkpoint. -/
inductive Received (config : ClusterConfig) (signed : List (UInt32 × Bytes))
    (state : PbftState) (msg : PbftMessage) :
    Except PbftError Response → PbftState → Prop
  | unchanged (answer : Except PbftError Response) (wal : WriteAheadLog)
      (walFailed : Bool)
      (idle : ∀ response, answer = .ok response → msg.phase = .checkpoint) :
      Received config signed state msg answer
        { state with wal := wal, walFailed := walFailed }
  | accepted (response : Response) (staged : PbftState) (wal : WriteAheadLog)
      (running : state.walFailed = false)
      (authenticated : state.Authenticated msg)
      (stages : PbftState.Stages state msg response staged)
      (unstable : response ≠ .checkpointStabilized) :
      Received config signed state msg (.ok response)
        { staged with wal := wal }

theorem Accounted.received (accounted : Accounted config signed state)
    (admitted : Admitted config signed msg)
    (noCheckpoint : NoCheckpoint config signed) (io : WalIo) :
    Received config signed state msg (state.handleMessage msg io).1
      (state.handleMessage msg io).2 := by
  rcases state.exists_outcome msg io with
    ⟨answer, next, handled, outcome⟩
  simp only [handled]
  cases outcome with
  | unavailable failed =>
      exact .unchanged _ state.wal state.walFailed fun _ same => by cases same
  | rejected error notAppend notPrune =>
      exact .unchanged _ state.wal state.walFailed fun _ same => by cases same
  | obsolete phase old =>
      exact .unchanged _ state.wal state.walFailed fun _ _ => phase
  | appendFailed written failed =>
      exact .unchanged _ _ true fun _ same => by cases same
  | accepted response staged running authenticated newer stages unstable =>
      exact .accepted response staged _ running authenticated stages unstable
  | stabilized staged image running authenticated newer stages pruned =>
      exact absurd rfl
        (accounted.unstable admitted noCheckpoint authenticated stages)
  | pruneFailed staged wal authenticated newer stages cause =>
      exact absurd rfl
        (accounted.unstable admitted noCheckpoint authenticated stages)

theorem Accounted.next {answer : Except PbftError Response} {next : PbftState}
    (accounted : Accounted config signed state)
    (admitted : Admitted config signed msg)
    (noCheckpoint : NoCheckpoint config signed)
    (received : Received config signed state msg answer next) :
    Accounted config signed next := by
  cases received with
  | unchanged answer wal walFailed idle =>
      exact
        { sameTopology := accounted.sameTopology
          chain := accounted.chain
          proposal_views := accounted.proposal_views
          commitVotes := accounted.commitVotes
          checkpointVotes := accounted.checkpointVotes }
  | accepted response staged wal running authenticated stages unstable =>
      have kept :=
        accounted.stages admitted noCheckpoint authenticated stages
      exact
        { sameTopology := kept.sameTopology
          chain := kept.chain
          proposal_views := kept.proposal_views
          commitVotes := kept.commitVotes
          checkpointVotes := kept.checkpointVotes }

theorem Backed.next {answer : Except PbftError Response} {next : PbftState}
    (backed : Backed signed id state)
    (received : Received config signed state msg answer next)
    (chain : state.Chained) : Backed signed id next := by
  cases received with
  | unchanged => exact backed
  | accepted response staged wal running authenticated stages unstable =>
      have kept := backed.stages stages unstable chain
      exact kept

/-- An accepted prepare vote is for a proposal that the replica knows. -/
theorem Received.proposed {next : PbftState}
    (received : Received config signed state msg (.ok response) next)
    (phase : msg.phase = .prepare) :
    msg.proposalKey ∈ next.prePreparedProposals := by
  cases received with
  | unchanged _ wal walFailed idle =>
      have other := idle response rfl
      rw [phase] at other
      cases other
  | accepted _ staged wal running authenticated stages unstable =>
      apply stages.proposals_subset unstable
      cases stages with
      | prepare _ phase view proposed => exact proposed
      | prePrepare other => rw [phase] at other; cases other
      | commit _ _ other => rw [phase] at other; cases other
      | viewChangeVote other => rw [phase] at other; cases other
      | viewChangeQuorum _ _ _ other => rw [phase] at other; cases other
      | checkpointVote other => rw [phase] at other; cases other
      | checkpointQuorum other => rw [phase] at other; cases other

end Replica

/-! ## The whole cluster -/

/-- The invariant of a cluster. -/
structure Sound (config : ClusterConfig) (cluster : Cluster) : Prop where
  network : ∀ msg, .pbft msg ∈ cluster.network →
    Admitted config cluster.signed msg
  identity : ∀ id, (cluster.nodes id).selfId = id
  noCheckpoint : NoCheckpoint config cluster.signed
  replicas : ∀ id, config.Correct id →
    ∃ state, (cluster.nodes id).state = some state ∧
      Accounted config cluster.signed state ∧ Backed cluster.signed id state

theorem Accounted.mono {config : ClusterConfig}
    {signed more : List (UInt32 × Bytes)} {state : PbftState}
    (accounted : Accounted config signed state) (grown : signed ⊆ more) :
    Accounted config more state where
  sameTopology := accounted.sameTopology
  chain := accounted.chain
  proposal_views := accounted.proposal_views
  commitVotes := accounted.commitVotes.mono
    fun _ _ _ made correct => grown (made correct)
  checkpointVotes := accounted.checkpointVotes

namespace Sound

variable {config : ClusterConfig} {cluster : Cluster}

theorem start (config : ClusterConfig) : Sound config config.start where
  network msg member := by cases member
  identity id := rfl
  noCheckpoint id correct key made := by cases made
  replicas id correct := by
    refine ⟨config.topology.fresh, rfl, ?_, fun key made => by cases made⟩
    exact
      { sameTopology := rfl
        chain := Topology.recover_chained config.topology.recover_empty
        proposal_views := fun key member => by cases member
        commitVotes := VoteMap.All.empty
        checkpointVotes := VoteMap.All.empty }

/-- Signing anything but a checkpoint, and a commit only when it is backed. -/
theorem publish (sound : Sound config cluster) {msg : PbftMessage}
    (notCheckpoint : msg.phase ≠ .checkpoint)
    (commit : msg.phase = .commit →
      ∃ state, (cluster.nodes msg.senderId).state = some state ∧
        msg.proposalKey ∈ state.prePreparedProposals ∧
        ∃ cert, state.preparedCertificates.get? (slotOf msg.proposalKey) =
            some cert ∧ cert.digest = msg.digest) :
    Sound config (cluster.publish msg) where
  network other member admitted := by
    rcases List.mem_cons.mp member with same | before
    · cases same
      exact List.mem_cons_self
    · exact List.mem_cons_of_mem _ (sound.network other before admitted)
  identity := sound.identity
  noCheckpoint id correct key made := by
    rcases List.mem_cons.mp made with same | before
    · have sameBytes : statement .checkpoint key =
        statement msg.phase msg.proposalKey := (Prod.mk.inj same).2
      exact notCheckpoint (statement_injective sameBytes).1.symm
    · exact sound.noCheckpoint id correct key before
  replicas id correct := by
    rcases sound.replicas id correct with ⟨state, held, accounted, backed⟩
    refine ⟨state, held, accounted.mono (List.subset_cons_self _ _), ?_⟩
    intro key made
    rcases List.mem_cons.mp made with same | before
    · have sameBytes : statement .commit key =
        statement msg.phase msg.proposalKey := (Prod.mk.inj same).2
      rcases statement_injective sameBytes with ⟨phase, rfl⟩
      obtain rfl := (Prod.mk.inj same).1
      rcases commit phase.symm with ⟨other, otherHeld, backing⟩
      rw [held, Option.some.injEq] at otherHeld
      subst otherHeld
      exact backing
    · exact backed key before

/-- A correct replica moves to a state that keeps its accounts. -/
theorem update (sound : Sound config cluster) {id : UInt32} {next : PbftState}
    (accounted : Accounted config cluster.signed next)
    (backed : Backed cluster.signed id next) :
    Sound config
      (cluster.move id { cluster.nodes id with state := some next }) where
  network := sound.network
  identity other := by
    by_cases here : other = id
    · subst here
      rw [Cluster.move_nodes_self]
      exact sound.identity other
    · rw [cluster.move_nodes_of_ne _ here]
      exact sound.identity other
  noCheckpoint := sound.noCheckpoint
  replicas other correct := by
    by_cases here : other = id
    · subst here
      rw [Cluster.move_nodes_self]
      exact ⟨next, rfl, accounted, backed⟩
    · rw [cluster.move_nodes_of_ne _ here]
      exact sound.replicas other correct

/-- The vote that a replica answers with may be signed. -/
theorem answer (sound : Sound config cluster) {id : UInt32} {sk : Scalar}
    {state : PbftState} {msg out : PbftMessage}
    (held : (cluster.nodes id).state = some state) (chain : state.Chained)
    (proposed : msg.phase = .prepare →
      msg.proposalKey ∈ state.prePreparedProposals)
    (sent : state.outgoingMsg msg id sk = some out) :
    Sound config (cluster.publish out) := by
  rw [PbftState.outgoingMsg] at sent
  cases phase : msg.phase with
  | prePrepare =>
      rw [phase] at sent
      cases sent
      exact sound.publish (fun same => by cases same) fun same => by cases same
  | prepare =>
      rw [phase] at sent
      dsimp only at sent
      split at sent
      · rename_i certified
        cases sent
        rcases Option.isSome_iff_exists.mp certified with ⟨cert, stored⟩
        refine sound.publish (fun same => by cases same) fun _ =>
          ⟨state, held, proposed phase, cert, stored, ?_⟩
        exact chain.digest_of_prepared (proposed phase) stored
      · cases sent
  | commit => rw [phase] at sent; cases sent
  | viewChange => rw [phase] at sent; cases sent
  | checkpoint => rw [phase] at sent; cases sent

theorem deliver (sound : Sound config cluster) {id : UInt32}
    (correct : config.Correct id) {packet : Packet}
    (inFlight : packet ∈ cluster.network) (io : WalIo) :
    Sound config (cluster.deliver id packet io) := by
  have handled :=
    Node.handleConnection_handled (cluster.nodes id) packet io
  rw [Cluster.deliver]
  generalize (cluster.nodes id).handleConnection packet io = result at handled ⊢
  obtain ⟨answered, node⟩ := result
  dsimp only at handled ⊢
  generalize Node.sent answered = out at handled ⊢
  rcases sound.replicas id correct with ⟨state, held, accounted, backed⟩
  cases handled with
  | ignored =>
      rw [Cluster.move_self]
      exact sound
  | handled msg other error same otherHeld answered =>
      rw [held, Option.some.injEq] at otherHeld
      subst same otherHeld
      have admitted := sound.network msg inFlight
      have received := accounted.received admitted sound.noCheckpoint io
      exact sound.update (accounted.next admitted sound.noCheckpoint received)
        (backed.next received accounted.chain)
  | answered msg other sk response same otherHeld key answered =>
      rw [held, Option.some.injEq] at otherHeld
      subst same otherHeld
      have admitted := sound.network msg inFlight
      have received := accounted.received admitted sound.noCheckpoint io
      have next := accounted.next admitted sound.noCheckpoint received
      have moved := sound.update next (backed.next received accounted.chain)
      cases sent : (state.handleMessage msg io).2.outgoingMsg msg
          (cluster.nodes id).selfId sk with
      | none => exact moved
      | some out =>
          rw [answered] at received
          rw [sound.identity id] at sent
          have here : ((cluster.move id { cluster.nodes id with
              state := some (state.handleMessage msg io).2 }).nodes id).state =
              some (state.handleMessage msg io).2 := by
            rw [Cluster.move_nodes_self]
          exact moved.answer here next.chain received.proposed sent

/-- Every action keeps the invariant. -/
theorem step (sound : Sound config cluster) {action : ClusterAction}
    {next : Cluster} (stepped : cluster.step config action = some next) :
    Sound config next := by
  cases Cluster.step_stepped stepped with
  | inject packet admitted =>
      refine { sound with network := ?_ }
      intro msg member attributed
      rcases List.mem_cons.mp member with rfl | before
      · exact admits_pbft.mp admitted attributed
      · exact sound.network msg before attributed
  | propose id view seq digest correct =>
      exact sound.publish (fun same => by cases same) fun same => by cases same
  | vote id view seq digest correct =>
      exact sound.publish (fun same => by cases same) fun same => by cases same
  | deliver id packet io correct inFlight =>
      exact sound.deliver correct inFlight io

/-- What one action does to the replica of a correct node. -/
theorem replica_step (sound : Sound config cluster) {action : ClusterAction}
    {next : Cluster} (stepped : cluster.step config action = some next)
    {id : UInt32} (correct : config.Correct id) {before after : PbftState}
    (held : (cluster.nodes id).state = some before)
    (heldNext : (next.nodes id).state = some after) :
    after = before ∨ ∃ msg io, action = .deliver id (.pbft msg) io ∧
      Received config cluster.signed before msg (before.handleMessage msg io).1
        after := by
  have unchanged : next.nodes id = cluster.nodes id → after = before := by
    intro same
    rw [same, held, Option.some.injEq] at heldNext
    exact heldNext.symm
  cases Cluster.step_stepped stepped with
  | inject => exact Or.inl (unchanged rfl)
  | propose => exact Or.inl (unchanged rfl)
  | vote => exact Or.inl (unchanged rfl)
  | deliver other packet io correctOther inFlight =>
      by_cases here : id = other
      · subst here
        rcases sound.replicas id correct with ⟨_, same, accounted, _⟩
        rw [held, Option.some.injEq] at same
        subst same
        rw [Cluster.deliver_nodes, Cluster.move_nodes_self] at heldNext
        have handled :=
          Node.handleConnection_handled (cluster.nodes id) packet io
        have received : ∀ msg state, packet = .pbft msg →
            (cluster.nodes id).state = some state →
            (state.handleMessage msg io).2 = after →
            Received config cluster.signed before msg
              (before.handleMessage msg io).1 after := by
          rintro msg state rfl otherHeld rfl
          rw [held, Option.some.injEq] at otherHeld
          subst otherHeld
          exact accounted.received (sound.network msg inFlight)
            sound.noCheckpoint io
        generalize (cluster.nodes id).handleConnection packet io = result
          at handled heldNext
        obtain ⟨answered, node⟩ := result
        dsimp only at handled heldNext
        generalize Node.sent answered = out at handled
        cases handled with
        | ignored =>
            rw [held, Option.some.injEq] at heldNext
            exact Or.inl heldNext.symm
        | handled msg state error same otherHeld answered =>
            exact Or.inr ⟨msg, io, same ▸ rfl,
              received msg state same otherHeld (Option.some.inj heldNext)⟩
        | answered msg state sk response same otherHeld key answered =>
            exact Or.inr ⟨msg, io, same ▸ rfl,
              received msg state same otherHeld (Option.some.inj heldNext)⟩
      · apply Or.inl
        apply unchanged
        rw [Cluster.deliver_nodes, cluster.move_nodes_of_ne _ here]

end Sound

end SovereignLattice
