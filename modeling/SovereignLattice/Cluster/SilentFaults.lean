import SovereignLattice.Replica.CertificateFailures

/-!
# A cluster with silent replicas

Some replicas of a cluster answer and the others are silent.  The leader's
proposal, the prepares and the commits are delivered round by round, each round in
any order, and the broadcaster sends a vote to every peer but to its own node: a
replica counts the votes of the others only.
-/

namespace SovereignLattice

section SilentFaults

variable [Curve]

/-- A message on its way to a peer. -/
abbrev Delivery : Type :=
  UInt32 × PbftMessage

/-- The nodes of a cluster, with what they have handed to their broadcasters. -/
structure Replicas where
  nodes : UInt32 → Node
  broadcasts : List PbftMessage

namespace Replicas

def deliver (replicas : Replicas) (delivery : Delivery) : Replicas :=
  let result := (replicas.nodes delivery.1).handlePbft delivery.2 .durable
  { nodes := Function.update replicas.nodes delivery.1 result.2
    broadcasts := replicas.broadcasts ++ (Node.sent result.1).toList }

/-- One round: the deliveries in order, and what is broadcast meanwhile. -/
def round (nodes : UInt32 → Node) (deliveries : List Delivery) : Replicas :=
  deliveries.foldl deliver { nodes := nodes, broadcasts := [] }

theorem round_concat (nodes : UInt32 → Node) (deliveries : List Delivery)
    (last : Delivery) :
    round nodes (deliveries ++ [last]) = (round nodes deliveries).deliver last := by
  rw [round, List.foldl_append]
  rfl

/-- The digest that a node has committed in a slot of view 0. -/
def committedAt (replicas : Replicas) (id : UInt32) (seq : UInt64) :
    Option Digest :=
  (replicas.nodes id).state.bind fun state => state.committedDigest.get? (0, seq)

theorem committedAt_of_state {replicas : Replicas} {id : UInt32}
    {node : Node} {state : PbftState}
    (held : replicas.nodes id = { node with state := some state }) (seq : UInt64) :
    replicas.committedAt id seq = state.committedDigest.get? (0, seq) := by
  rw [committedAt, held]
  rfl

end Replicas

/-- Keys from one polynomial, and the replicas that answer. -/
structure QuietCluster where
  topology : Topology
  coefficients : List Scalar
  dealt : DealtKeys topology coefficients
  honest : Finset UInt32
  honest_registered : honest ⊆ topology.registeredNodes

namespace QuietCluster

variable (cluster : QuietCluster)

def secretKey (id : UInt32) : Scalar :=
  powerSum (evaluationPoint id) cluster.coefficients

def start (id : UInt32) : Node where
  selfId := id
  selfSk := some (cluster.secretKey id)
  state := some cluster.topology.fresh

def peers : List UInt32 :=
  (List.range (cluster.topology.totalNodes % 2 ^ 32)).map UInt32.ofNat

/-- The deliveries to honest recipients that broadcasts lead to. -/
def inFlight (broadcasts : List PbftMessage) : List Delivery :=
  broadcasts.flatMap fun msg =>
    ((broadcastMessage cluster.peers msg.senderId).filter
      fun peerId => peerId ∈ cluster.honest).map fun peerId => (peerId, msg)

def vote (phase : Phase) (key : ProposalKey) (id : UInt32) : PbftMessage :=
  signMessage phase key.1 key.2.1 key.2.2 id (cluster.secretKey id)

def proposalKey (seq : UInt64) (digest : Digest) : ProposalKey :=
  (0, seq, digest)

def proposalRound (seq : UInt64) (digest : Digest) (recipients : List UInt32) :
    Replicas :=
  let proposal := cluster.vote .prePrepare (proposalKey seq digest)
    (cluster.topology.getExpectedLeader 0)
  Replicas.round cluster.start (recipients.map fun id => (id, proposal))

end QuietCluster

/-- The orders of the deliveries in the three rounds. -/
structure Schedule (cluster : QuietCluster) (seq : UInt64) (digest : Digest) where
  recipients : List UInt32
  prepares : List Delivery
  commits : List Delivery
  recipients_nodup : recipients.Nodup
  recipients_honest : ∀ id, id ∈ recipients ↔ id ∈ cluster.honest
  prepares_perm : prepares.Perm (cluster.inFlight
    (cluster.proposalRound seq digest recipients).broadcasts)
  commits_perm : commits.Perm (cluster.inFlight
    (Replicas.round (cluster.proposalRound seq digest recipients).nodes
      prepares).broadcasts)

namespace Schedule

variable {cluster : QuietCluster} {seq : UInt64} {digest : Digest}
variable (schedule : Schedule cluster seq digest)

def afterProposal : Replicas :=
  cluster.proposalRound seq digest schedule.recipients

def afterPrepares : Replicas :=
  Replicas.round schedule.afterProposal.nodes schedule.prepares

def afterCommits : Replicas :=
  Replicas.round schedule.afterPrepares.nodes schedule.commits

end Schedule

/-! ## One replica -/

/-- What a replica has counted for the one proposal that it knows. -/
structure Counted (topology : Topology) (key : ProposalKey)
    (prepareVoters commitVoters : Finset UInt32) (state : PbftState) : Prop where
  running : state.walFailed = false
  sameTopology : state.toTopology = topology
  verified : VotesVerified state
  view : state.currentView = key.1
  proposed : key ∈ state.prePreparedProposals
  prepares : (state.prepareVotes.getD key ∅).keySet = prepareVoters
  prepared : (state.preparedCertificates.get? (slotOf key)).isSome = true ↔
    topology.quorumSize ≤ prepareVoters.card
  commits : (state.commitVotes.getD key ∅).keySet = commitVoters
  committed : state.committedDigest.get? (slotOf key) =
    if topology.quorumSize ≤ commitVoters.card then some key.2.2 else none

section OneReplica

variable {topology : Topology} {coefficients : List Scalar} {key : ProposalKey}
variable {prepareVoters commitVoters : Finset UInt32} {state : PbftState}
variable {msg : PbftMessage}

/-- The proposal of the leader of view 0 opens its slot in a fresh state. -/
theorem Topology.fresh_proposed (topology : Topology) (msg : PbftMessage)
    (phase : msg.phase = .prePrepare) (view : msg.view = 0)
    (leader : msg.senderId = topology.getExpectedLeader 0)
    (verifies : topology.Verifies .prePrepare msg.proposalKey msg.senderId
      msg.signature) :
    ∃ response after,
      topology.fresh.handleMessage msg .durable = (.ok response, after) ∧
        Counted topology msg.proposalKey ∅ ∅ after := by
  have authenticated : topology.fresh.Authenticated msg := by
    rw [PbftState.Authenticated, phase]
    exact verifies
  have sameTopology : topology.fresh.toTopology = topology := rfl
  have initialView : topology.fresh.currentView = 0 := rfl
  have noProposals : topology.fresh.prePreparedProposals = ∅ := rfl
  have accepted : topology.fresh.stage msg =
      (.ok .inboundOkPreprepare,
        { topology.fresh.withLedger
            (topology.fresh.ledger.propose msg.proposalKey) with
          highestSeq := max topology.fresh.highestSeq msg.seq }) := by
    simp [PbftState.stage, phase, PbftState.onPrePrepare, view, leader,
      sameTopology, initialView, noProposals, PbftState.withLedger,
      PbftState.ledger, VoteLedger.propose]
  have notCheckpoint : msg.phase ≠ .checkpoint := by simp [phase]
  rcases PbftState.handleMessage_of_stage rfl authenticated notCheckpoint accepted
    with ⟨wal, handled⟩
  refine ⟨_, _, handled, ?_⟩
  have verified : VotesVerified topology.fresh :=
    votesVerified_of_recover topology.recover_empty
  have after := verified.handleMessage msg .durable
  rw [handled] at after
  have few : ¬ topology.quorumSize ≤ (∅ : Finset UInt32).card := by
    have positive := topology.quorumSize_pos
    simpa using positive.ne'
  have nothingPrepared : topology.fresh.preparedCertificates = ∅ := rfl
  have nothingCommitted : topology.fresh.committedDigest = ∅ := rfl
  exact
    { running := rfl
      sameTopology := rfl
      verified := after
      view := view.symm
      proposed := Finset.mem_insert_self _ _
      prepares := rfl
      prepared := by
        apply iff_of_false _ few
        simp [PbftState.withLedger, PbftState.ledger, VoteLedger.propose,
          nothingPrepared]
      commits := rfl
      committed := by
        rw [if_neg few]
        simp [PbftState.withLedger, PbftState.ledger, VoteLedger.propose,
          nothingCommitted] }

/-- The voters after one more vote, as the ledger counts them and as they
are stored. -/
theorem VoteMap.withVote_counted {votes : VoteMap} {voters : Finset UInt32}
    (counted : (votes.getD key ∅).keySet = voters) (sender : UInt32)
    (signature : G1Projective) :
    (votes.withVote key sender signature).len = (insert sender voters).card ∧
      ((votes.insert key (votes.withVote key sender signature)).getD key ∅).keySet =
        insert sender voters := by
  rw [VoteMap.getD_insert_withVote, VoteMap.keySet_withVote, VoteMap.card_withVote,
    counted]
  exact ⟨rfl, rfl⟩

omit [Curve] in
theorem not_quorum_of_insert {voters : Finset UInt32} {sender : UInt32} {size : Nat}
    (few : ¬ size ≤ (insert sender voters).card) : ¬ size ≤ voters.card :=
  fun enough => few (enough.trans (Finset.card_le_card (Finset.subset_insert _ _)))

namespace Counted

/-- What a replica that counts accepts, it handles, and its votes stay verified. -/
theorem handled_of_stage
    (counted : Counted topology key prepareVoters commitVoters state)
    (phase : msg.phase ≠ .checkpoint) (authenticated : state.Authenticated msg)
    {response : Response} {staged : PbftState}
    (accepted : state.stage msg = (.ok response, staged)) :
    ∃ wal, state.handleMessage msg .durable =
        (.ok response, { staged with wal := wal }) ∧
      VotesVerified { staged with wal := wal } := by
  rcases PbftState.handleMessage_of_stage counted.running authenticated phase
    accepted with ⟨wal, handled⟩
  have verified := counted.verified.handleMessage msg .durable
  rw [handled] at verified
  exact ⟨wal, handled, verified⟩

/-- One more prepare is counted, and the slot is prepared from a quorum on. -/
theorem prepare (counted : Counted topology key prepareVoters commitVoters state)
    (dealt : DealtKeys topology coefficients) (msg : PbftMessage)
    (phase : msg.phase = .prepare) (sameKey : msg.proposalKey = key)
    (verifies : topology.Verifies .prepare key msg.senderId msg.signature) :
    state.Authenticated msg ∧ ∃ response after,
      state.handleMessage msg .durable = (.ok response, after) ∧
        Counted topology key (insert msg.senderId prepareVoters) commitVoters
          after := by
  have sameTopology := counted.sameTopology
  subst sameTopology sameKey
  have authenticated : state.Authenticated msg := by
    rw [PbftState.Authenticated, phase]
    exact verifies
  rcases onPrepare_records dealt counted.verified verifies counted.view.symm
      counted.proposed with ⟨response, recorded⟩
  have accepted : state.stage msg = (.ok response, state.withLedger
      (state.ledger.recordPrepare state.quorumSize msg.proposalKey msg.senderId
        msg.signature)) := by
    rw [PbftState.stage, phase]
    exact recorded
  rcases counted.handled_of_stage (by simp [phase]) authenticated accepted with
    ⟨wal, handled, verified⟩
  refine ⟨authenticated, _, _, handled, ?_⟩
  rcases VoteMap.withVote_counted counted.prepares msg.senderId msg.signature with
    ⟨counts, voters⟩
  have slot := VoteLedger.get?_prepared_recordPrepare state.ledger
    state.quorumSize msg.proposalKey msg.senderId msg.signature
    (slotOf msg.proposalKey)
  rw [show (state.ledger.prepareVotes.withVote msg.proposalKey msg.senderId
    msg.signature).len = _ from counts] at slot
  have certified : ((state.ledger.recordPrepare state.quorumSize msg.proposalKey
      msg.senderId msg.signature).prepared.get? (slotOf msg.proposalKey)).isSome =
        true ↔
      state.quorumSize ≤ (insert msg.senderId prepareVoters).card := by
    by_cases quorum :
        state.quorumSize ≤ (insert msg.senderId prepareVoters).card
    · simp [slot, quorum]
    · have before := not_quorum_of_insert quorum
      rw [slot, if_neg fun both => quorum both.1]
      exact iff_of_false (fun held => before (counted.prepared.mp held)) quorum
  exact
    { running := counted.running
      sameTopology := rfl
      verified := verified
      view := counted.view
      proposed := counted.proposed
      prepares := voters
      prepared := certified
      commits := counted.commits
      committed := counted.committed }

/-- One more commit is counted, and the slot is committed from a quorum on. -/
theorem commit (counted : Counted topology key prepareVoters commitVoters state)
    (dealt : DealtKeys topology coefficients) (msg : PbftMessage)
    (phase : msg.phase = .commit) (sameKey : msg.proposalKey = key)
    (verifies : topology.Verifies .commit key msg.senderId msg.signature)
    (quorate : topology.quorumSize ≤ prepareVoters.card) :
    state.Authenticated msg ∧ ∃ response after,
      state.handleMessage msg .durable = (.ok response, after) ∧
        Counted topology key prepareVoters (insert msg.senderId commitVoters)
          after := by
  have sameTopology := counted.sameTopology
  subst sameTopology sameKey
  have authenticated : state.Authenticated msg := by
    rw [PbftState.Authenticated, phase]
    exact verifies
  rcases Option.isSome_iff_exists.mp (counted.prepared.mpr quorate) with
    ⟨cert, prepared⟩
  have agrees : ∀ existing,
      state.committedDigest.get? (slotOf msg.proposalKey) = some existing →
        existing = msg.digest := by
    intro existing stored
    rw [counted.committed, Option.ite_none_right_eq_some] at stored
    exact (Option.some.inj stored.2).symm
  rcases onCommit_records dealt counted.verified verifies counted.view.symm
      counted.proposed prepared agrees with ⟨response, recorded⟩
  have accepted : state.stage msg = (.ok response, state.withLedger
      (state.ledger.recordCommit state.quorumSize msg.proposalKey msg.senderId
        msg.signature)) := by
    rw [PbftState.stage, phase]
    exact recorded
  rcases counted.handled_of_stage (by simp [phase]) authenticated accepted with
    ⟨wal, handled, verified⟩
  refine ⟨authenticated, _, _, handled, ?_⟩
  rcases VoteMap.withVote_counted counted.commits msg.senderId msg.signature with
    ⟨counts, voters⟩
  have committed : (state.ledger.recordCommit state.quorumSize msg.proposalKey
      msg.senderId msg.signature).committed.get? (slotOf msg.proposalKey) =
        if state.quorumSize ≤ (insert msg.senderId commitVoters).card then
          some msg.digest
        else
          none := by
    by_cases quorum :
        state.quorumSize ≤ (insert msg.senderId commitVoters).card
    · rw [VoteLedger.recordCommit_of_quorum (quorum.trans_eq counts.symm),
        if_pos quorum]
      exact AssocMap.get?_insert_self _ _ _
    · have before := not_quorum_of_insert quorum
      have few := Nat.lt_of_not_le quorum
      rw [VoteLedger.recordCommit_of_few (counts.trans_lt few), if_neg quorum]
      exact counted.committed.trans (if_neg before)
  exact
    { running := counted.running
      sameTopology := rfl
      verified := verified
      view := counted.view
      proposed := counted.proposed
      prepares := counted.prepares
      prepared := counted.prepared
      commits := voters
      committed := committed }

end Counted

end OneReplica

/-! ## The rounds -/

theorem Replicas.deliver_answered {replicas : Replicas} {id : UInt32}
    {msg : PbftMessage} {node : Node} {out : Option PbftMessage}
    (answered : (replicas.nodes id).handlePbft msg .durable = (.ok out, node)) :
    replicas.deliver (id, msg) =
      { nodes := Function.update replicas.nodes id node
        broadcasts := replicas.broadcasts ++ out.toList } := by
  simp [deliver, answered, Node.sent]

def voters (deliveries : List Delivery) (id : UInt32) : Finset UInt32 :=
  ((deliveries.filter fun delivery => delivery.1 = id).map
    fun delivery => delivery.2.senderId).toFinset

theorem mem_voters {deliveries : List Delivery} {id sender : UInt32} :
    sender ∈ voters deliveries id ↔
      ∃ msg, (id, msg) ∈ deliveries ∧ msg.senderId = sender := by
  simp only [voters, List.mem_toFinset, List.mem_map, List.mem_filter,
    decide_eq_true_eq]
  constructor
  · intro found
    rcases found with ⟨⟨recipient, msg⟩, ⟨member, rfl⟩, same⟩
    exact ⟨msg, member, same⟩
  · intro found
    rcases found with ⟨msg, member, same⟩
    exact ⟨(id, msg), ⟨member, rfl⟩, same⟩

theorem voters_concat_self (deliveries : List Delivery) (id : UInt32)
    (msg : PbftMessage) :
    voters (deliveries ++ [(id, msg)]) id =
      insert msg.senderId (voters deliveries id) := by
  ext sender
  simp only [mem_voters, Finset.mem_insert, List.mem_append, List.mem_singleton]
  grind

theorem voters_concat_of_ne (deliveries : List Delivery) {id recipient : UInt32}
    (different : id ≠ recipient) (msg : PbftMessage) :
    voters (deliveries ++ [(recipient, msg)]) id = voters deliveries id := by
  simp [voters, different.symm]

theorem voters_subset_concat (deliveries : List Delivery) (last : Delivery)
    (id : UInt32) : voters deliveries id ⊆ voters (deliveries ++ [last]) id := by
  intro sender
  simp only [mem_voters, List.mem_append]
  intro found
  rcases found with ⟨msg, member, same⟩
  exact ⟨msg, Or.inl member, same⟩

/-- One more delivery gives nobody but its recipient a quorum. -/
theorem exists_quorum_concat {honest : Finset UInt32} {recipient : UInt32}
    (member : recipient ∈ honest) (deliveries : List Delivery) (last : PbftMessage)
    (size : Nat) (holds : UInt32 → Prop) :
    (∃ id ∈ honest,
      size ≤ (voters (deliveries ++ [(recipient, last)]) id).card ∧ holds id) ↔
      (∃ id ∈ honest, size ≤ (voters deliveries id).card ∧ holds id) ∨
        size ≤ (insert last.senderId (voters deliveries recipient)).card ∧
          holds recipient := by
  constructor
  · intro found
    rcases found with ⟨id, known, quorum, here⟩
    by_cases own : id = recipient
    · subst own
      rw [voters_concat_self] at quorum
      exact Or.inr ⟨quorum, here⟩
    · rw [voters_concat_of_ne _ own] at quorum
      exact Or.inl ⟨id, known, quorum, here⟩
  · intro either
    rcases either with ⟨id, known, quorum, here⟩ | ⟨quorum, here⟩
    · have more := Finset.card_le_card
        (voters_subset_concat deliveries (recipient, last) id)
      exact ⟨id, known, quorum.trans more, here⟩
    · refine ⟨recipient, member, ?_, here⟩
      rw [voters_concat_self]
      exact quorum

namespace QuietCluster

variable {cluster : QuietCluster} {key : ProposalKey}
variable {prepareVoters commitVoters : UInt32 → Finset UInt32}
variable {nodes : UInt32 → Node} {deliveries : List Delivery}

theorem vote_verifies {id : UInt32}
    (registered : id ∈ cluster.topology.registeredNodes) (phase : Phase)
    (key : ProposalKey) :
    cluster.topology.Verifies phase key id (cluster.vote phase key id).signature :=
  ⟨registered, _, cluster.dealt.shares id registered,
    verifyBlsSignature_sign _ _⟩

/-- A delivery that the recipient's replica handles, with what it answers. -/
theorem deliver_handled {replicas : Replicas} {recipient : UInt32}
    {state after : PbftState} {msg : PbftMessage} {response : Response}
    (node : replicas.nodes recipient =
      { cluster.start recipient with state := some state })
    (authenticated : state.Authenticated msg)
    (handled : state.handleMessage msg .durable = (.ok response, after)) :
    replicas.deliver (recipient, msg) =
      { nodes := Function.update replicas.nodes recipient
          { cluster.start recipient with state := some after }
        broadcasts := replicas.broadcasts ++ (after.outgoingMsg msg recipient
          (cluster.secretKey recipient)).toList } := by
  apply Replicas.deliver_answered
  rw [node]
  exact Node.handlePbft_accepted rfl rfl authenticated handled

/-- Every honest node has counted these votes. -/
def Holds (cluster : QuietCluster) (key : ProposalKey)
    (prepareVoters commitVoters : UInt32 → Finset UInt32)
    (nodes : UInt32 → Node) : Prop :=
  ∀ id ∈ cluster.honest, ∃ state,
    nodes id = { cluster.start id with state := some state } ∧
      Counted cluster.topology key (prepareVoters id) (commitVoters id) state

theorem Holds.update (holds : cluster.Holds key prepareVoters commitVoters nodes)
    {laterPrepareVoters laterCommitVoters : UInt32 → Finset UInt32}
    {recipient : UInt32} {after : PbftState}
    (counted : Counted cluster.topology key (laterPrepareVoters recipient)
      (laterCommitVoters recipient) after)
    (others : ∀ id, id ≠ recipient → laterPrepareVoters id = prepareVoters id ∧
      laterCommitVoters id = commitVoters id) :
    cluster.Holds key laterPrepareVoters laterCommitVoters
      (Function.update nodes recipient
        { cluster.start recipient with state := some after }) := by
  intro id member
  by_cases same : id = recipient
  · subst same
    exact ⟨after, Function.update_self _ _ _, counted⟩
  · rcases others id same with ⟨samePrepares, sameCommits⟩
    rw [Function.update_of_ne same, samePrepares, sameCommits]
    exact holds id member

/-- The deliveries are votes of honest nodes to honest nodes. -/
def HonestVotes (cluster : QuietCluster) (phase : Phase) (key : ProposalKey)
    (deliveries : List Delivery) : Prop :=
  ∀ delivery ∈ deliveries, delivery.1 ∈ cluster.honest ∧
    ∃ sender ∈ cluster.honest, delivery.2 = cluster.vote phase key sender

theorem round_prepares (holds : cluster.Holds key (fun _ => ∅) (fun _ => ∅) nodes)
    (votes : cluster.HonestVotes .prepare key deliveries) :
    cluster.Holds key (voters deliveries) (fun _ => ∅)
        (Replicas.round nodes deliveries).nodes ∧
      ∀ msg, msg ∈ (Replicas.round nodes deliveries).broadcasts ↔
        ∃ id ∈ cluster.honest,
          cluster.topology.quorumSize ≤ (voters deliveries id).card ∧
            msg = cluster.vote .commit key id := by
  induction deliveries using List.reverseRecOn with
  | nil =>
      refine ⟨holds, ?_⟩
      intro msg
      have positive := cluster.topology.quorumSize_pos
      simp [Replicas.round, voters, positive.ne']
  | append_singleton earlier last inductionHypothesis =>
      obtain ⟨recipient, msg⟩ := last
      have honestVotes : cluster.HonestVotes .prepare key earlier :=
        fun delivery member => votes delivery (List.mem_append_left _ member)
      rcases inductionHypothesis honestVotes with ⟨before, broadcasts⟩
      rcases votes (recipient, msg) (by simp) with
        ⟨honest, sender, senderHonest, rfl⟩
      rcases before recipient honest with ⟨state, node, counted⟩
      have verifies := vote_verifies (cluster.honest_registered senderHonest)
        .prepare key
      rcases counted.prepare cluster.dealt (cluster.vote .prepare key sender) rfl
          rfl verifies with ⟨authenticated, response, after, handled, countedAfter⟩
      rw [Replicas.round_concat, deliver_handled node authenticated handled]
      have outgoing : after.outgoingMsg (cluster.vote .prepare key sender)
          recipient (cluster.secretKey recipient) =
            if cluster.topology.quorumSize ≤
                (insert sender (voters earlier recipient)).card then
              some (cluster.vote .commit key recipient)
            else
              none :=
        if_congr countedAfter.prepared rfl rfl
      constructor
      · apply before.update
        · rw [voters_concat_self]
          exact countedAfter
        · exact fun id different => ⟨voters_concat_of_ne _ different _, rfl⟩
      · intro msg
        rw [outgoing, List.mem_append, broadcasts, exists_quorum_concat honest]
        apply or_congr_right
        have senderId : (cluster.vote .prepare key sender).senderId = sender := rfl
        rw [senderId]
        split_ifs with quorum <;> simp [quorum]

theorem round_commits (holds : cluster.Holds key prepareVoters (fun _ => ∅) nodes)
    (prepared : ∀ id ∈ cluster.honest,
      cluster.topology.quorumSize ≤ (prepareVoters id).card)
    (votes : cluster.HonestVotes .commit key deliveries) :
    cluster.Holds key prepareVoters (voters deliveries)
      (Replicas.round nodes deliveries).nodes := by
  induction deliveries using List.reverseRecOn with
  | nil => exact holds
  | append_singleton earlier last inductionHypothesis =>
      obtain ⟨recipient, msg⟩ := last
      have honestVotes : cluster.HonestVotes .commit key earlier :=
        fun delivery member => votes delivery (List.mem_append_left _ member)
      have before := inductionHypothesis honestVotes
      rcases votes (recipient, msg) (by simp) with
        ⟨honest, sender, senderHonest, rfl⟩
      rcases before recipient honest with ⟨state, node, counted⟩
      have verifies := vote_verifies (cluster.honest_registered senderHonest)
        .commit key
      rcases counted.commit cluster.dealt (cluster.vote .commit key sender) rfl
          rfl verifies (prepared recipient honest) with
        ⟨authenticated, response, after, handled, countedAfter⟩
      rw [Replicas.round_concat, deliver_handled node authenticated handled]
      apply before.update
      · rw [voters_concat_self]
        exact countedAfter
      · exact fun id different => ⟨rfl, voters_concat_of_ne _ different _⟩

theorem proposalRound_spec (seq : UInt64) (digest : Digest)
    (leader : cluster.topology.getExpectedLeader 0 ∈
      cluster.topology.registeredNodes)
    {recipients : List UInt32} (nodup : recipients.Nodup) :
    (∀ id ∈ recipients, ∃ state,
      (cluster.proposalRound seq digest recipients).nodes id =
          { cluster.start id with state := some state } ∧
        Counted cluster.topology (proposalKey seq digest) ∅ ∅ state) ∧
    (∀ id, id ∉ recipients →
      (cluster.proposalRound seq digest recipients).nodes id =
        cluster.start id) ∧
    (cluster.proposalRound seq digest recipients).broadcasts =
      recipients.map (cluster.vote .prepare (proposalKey seq digest)) := by
  induction recipients using List.reverseRecOn with
  | nil => simp [proposalRound, Replicas.round]
  | append_singleton earlier last inductionHypothesis =>
      rcases List.nodup_append.mp nodup with ⟨earlierNodup, _, apart⟩
      rcases inductionHypothesis earlierNodup with ⟨opened, untouched, broadcasts⟩
      have fresh : last ∉ earlier := fun member => apart last member last (by simp) rfl
      have verifies := vote_verifies leader .prePrepare (proposalKey seq digest)
      let proposal := cluster.vote .prePrepare (proposalKey seq digest)
        (cluster.topology.getExpectedLeader 0)
      have authenticated : cluster.topology.fresh.Authenticated proposal := verifies
      rcases cluster.topology.fresh_proposed proposal rfl rfl rfl verifies with
        ⟨response, after, handled, counted⟩
      have answered :
          ((cluster.proposalRound seq digest earlier).nodes last).handlePbft
              proposal .durable =
            (.ok (some (cluster.vote .prepare (proposalKey seq digest) last)),
              { cluster.start last with state := some after }) := by
        rw [untouched last fresh]
        exact Node.handlePbft_accepted rfl rfl authenticated handled
      have next : cluster.proposalRound seq digest (earlier ++ [last]) =
          (cluster.proposalRound seq digest earlier).deliver (last, proposal) := by
        rw [proposalRound, List.map_append]
        exact Replicas.round_concat _ _ _
      rw [next, Replicas.deliver_answered answered]
      refine ⟨?_, ?_, ?_⟩
      · intro id member
        by_cases same : id = last
        · subst same
          exact ⟨after, Function.update_self _ _ _, counted⟩
        · have known : id ∈ earlier := by simpa [same] using member
          dsimp only
          rw [Function.update_of_ne same]
          exact opened id known
      · intro id absent
        have unknown : id ∉ earlier ∧ id ≠ last := by simpa using absent
        dsimp only
        rw [Function.update_of_ne unknown.2]
        exact untouched id unknown.1
      · simp [broadcasts]

theorem mem_inFlight {broadcasts : List PbftMessage} {id : UInt32}
    {msg : PbftMessage} :
    (id, msg) ∈ cluster.inFlight broadcasts ↔
      msg ∈ broadcasts ∧ id ∈ cluster.honest ∧ id ≠ msg.senderId := by
  have everyPeer : id ∈ cluster.honest → id ∈ cluster.peers := by
    intro honest
    have registered := cluster.honest_registered honest
    rw [cluster.topology.registeredNodes_eq] at registered
    exact List.mem_toFinset.mp registered
  simp only [inFlight, broadcastMessage, List.mem_flatMap, List.mem_map,
    List.mem_filter, decide_eq_true_eq, Prod.mk.injEq]
  constructor
  · intro found
    rcases found with ⟨sent, member, peerId, ⟨⟨_, other⟩, honest⟩, rfl, rfl⟩
    exact ⟨member, honest, by simpa using other⟩
  · intro found
    rcases found with ⟨member, honest, other⟩
    exact ⟨msg, member, id, ⟨⟨everyPeer honest, by simpa using other⟩, honest⟩,
      rfl, rfl⟩

/-- Where the honest nodes with some property broadcast a vote, each honest node
gets the votes of the others among them. -/
theorem voters_inFlight {phase : Phase} {deliveries : List Delivery}
    {broadcasts : List PbftMessage} {voting : UInt32 → Prop}
    (order : deliveries.Perm (cluster.inFlight broadcasts))
    (sent : ∀ msg, msg ∈ broadcasts ↔
      ∃ id ∈ cluster.honest, voting id ∧ msg = cluster.vote phase key id) :
    cluster.HonestVotes phase key deliveries ∧
      ∀ id ∈ cluster.honest, ∀ sender, sender ∈ voters deliveries id ↔
        sender ∈ cluster.honest ∧ voting sender ∧ id ≠ sender := by
  constructor
  · intro delivery member
    obtain ⟨id, msg⟩ := delivery
    rw [order.mem_iff, mem_inFlight, sent] at member
    rcases member with ⟨⟨sender, honest, _, same⟩, recipient, _⟩
    exact ⟨recipient, sender, honest, same⟩
  · intro id recipient sender
    rw [mem_voters]
    constructor
    · intro found
      rcases found with ⟨msg, member, same⟩
      rw [order.mem_iff, mem_inFlight, sent] at member
      rcases member with ⟨⟨voter, honest, votes, rfl⟩, _, other⟩
      have sameVoter : voter = sender := same
      subst sameVoter
      exact ⟨honest, votes, other⟩
    · intro found
      rcases found with ⟨honest, votes, other⟩
      refine ⟨cluster.vote phase key sender, ?_, rfl⟩
      rw [order.mem_iff, mem_inFlight, sent]
      exact ⟨⟨sender, honest, votes, rfl⟩, recipient, other⟩

theorem leader_registered {id : UInt32} (honest : id ∈ cluster.honest) :
    cluster.topology.getExpectedLeader 0 ∈ cluster.topology.registeredNodes := by
  have registered := cluster.honest_registered honest
  rw [cluster.topology.registeredNodes_eq] at registered ⊢
  rw [nodeIds, List.mem_toFinset, List.mem_map] at registered ⊢
  rcases registered with ⟨index, inRange, _⟩
  rw [List.mem_range] at inRange
  exact ⟨0, List.mem_range.mpr (by omega), by simp [Topology.getExpectedLeader]⟩

end QuietCluster

namespace Schedule

variable {cluster : QuietCluster} {seq : UInt64} {digest : Digest}

theorem afterPrepares_spec (schedule : Schedule cluster seq digest)
    {id : UInt32} (honest : id ∈ cluster.honest) :
    cluster.Holds (QuietCluster.proposalKey seq digest) (voters schedule.prepares)
        (fun _ => ∅) schedule.afterPrepares.nodes ∧
      (∀ msg, msg ∈ schedule.afterPrepares.broadcasts ↔
        ∃ id ∈ cluster.honest,
          cluster.topology.quorumSize ≤ (voters schedule.prepares id).card ∧
            msg = cluster.vote .commit (QuietCluster.proposalKey seq digest) id) ∧
      ∀ id ∈ cluster.honest,
        voters schedule.prepares id = cluster.honest.erase id := by
  rcases QuietCluster.proposalRound_spec seq digest
      (QuietCluster.leader_registered honest) schedule.recipients_nodup with
    ⟨opened, _, broadcasts⟩
  have holds : cluster.Holds (QuietCluster.proposalKey seq digest) (fun _ => ∅)
      (fun _ => ∅) schedule.afterProposal.nodes :=
    fun id member => opened id ((schedule.recipients_honest id).mpr member)
  have sent : ∀ msg, msg ∈ schedule.afterProposal.broadcasts ↔
      ∃ id ∈ cluster.honest, True ∧
        msg = cluster.vote .prepare (QuietCluster.proposalKey seq digest) id := by
    intro msg
    rw [afterProposal, broadcasts, List.mem_map]
    simp only [schedule.recipients_honest, true_and, eq_comm]
  rcases QuietCluster.voters_inFlight schedule.prepares_perm sent with
    ⟨votes, counted⟩
  rcases QuietCluster.round_prepares holds votes with ⟨after, commits⟩
  refine ⟨after, commits, ?_⟩
  intro id member
  ext sender
  rw [counted id member, Finset.mem_erase]
  simp only [true_and, ne_eq, and_comm, eq_comm]

/-- With one honest replica to spare, the prepares and the commits of the others are
a quorum. -/
theorem committedAt_of_spare (schedule : Schedule cluster seq digest)
    {id : UInt32} (honest : id ∈ cluster.honest)
    (spare : 2 * cluster.topology.f + 2 ≤ cluster.honest.card) :
    schedule.afterCommits.committedAt id seq = some digest := by
  have quorumSize := cluster.topology.quorumSize_eq
  rcases schedule.afterPrepares_spec honest with ⟨holds, broadcasts, others⟩
  rcases QuietCluster.voters_inFlight schedule.commits_perm broadcasts with
    ⟨votes, counted⟩
  have prepared : ∀ id ∈ cluster.honest,
      cluster.topology.quorumSize ≤ (voters schedule.prepares id).card := by
    intro id member
    rw [others id member, Finset.card_erase_of_mem member]
    omega
  rcases QuietCluster.round_commits holds prepared votes id honest with
    ⟨state, node, counts⟩
  have commitVoters : voters schedule.commits id = cluster.honest.erase id := by
    ext sender
    rw [counted id honest, Finset.mem_erase]
    grind
  have quorum :
      cluster.topology.quorumSize ≤ (voters schedule.commits id).card := by
    rw [commitVoters, Finset.card_erase_of_mem honest]
    omega
  have result := counts.committed.trans (if_pos quorum)
  exact (Replicas.committedAt_of_state node seq).trans result

/-- Without one no commit is sent. -/
theorem committedAt_of_not_spare (schedule : Schedule cluster seq digest)
    {id : UInt32} (honest : id ∈ cluster.honest)
    (scarce : ¬ 2 * cluster.topology.f + 2 ≤ cluster.honest.card) :
    schedule.afterCommits.committedAt id seq = none := by
  have quorumSize := cluster.topology.quorumSize_eq
  rcases schedule.afterPrepares_spec honest with ⟨holds, broadcasts, others⟩
  have silent : schedule.commits = [] := by
    rw [List.eq_nil_iff_forall_not_mem]
    intro delivery member
    rw [schedule.commits_perm.mem_iff, QuietCluster.mem_inFlight] at member
    rcases (broadcasts delivery.2).mp member.1 with ⟨voter, voted, quorum, _⟩
    rw [others voter voted, Finset.card_erase_of_mem voted] at quorum
    omega
  rcases holds id honest with ⟨state, node, counts⟩
  have few : ¬ cluster.topology.quorumSize ≤ (∅ : Finset UInt32).card := by
    rw [Finset.card_empty]
    omega
  have result := counts.committed.trans (if_neg few)
  have unchanged : schedule.afterCommits.nodes = schedule.afterPrepares.nodes := by
    rw [Schedule.afterCommits, silent]
    rfl
  rw [← unchanged] at node
  exact (Replicas.committedAt_of_state node seq).trans result

end Schedule

/-- An honest replica commits exactly when at least two more than twice the faults
answer, so with no more than a quorum of honest replicas none commits, whatever
the order of the deliveries. -/
theorem honest_committedAt (cluster : QuietCluster) {seq : UInt64}
    {digest : Digest} (schedule : Schedule cluster seq digest) :
    (∀ id ∈ cluster.honest, schedule.afterCommits.committedAt id seq =
      if 2 * cluster.topology.f + 2 ≤ cluster.honest.card then
        some digest
      else
        none) ∧
    (cluster.honest.card = 2 * cluster.topology.f + 1 →
      ¬ ∀ id ∈ cluster.honest,
        schedule.afterCommits.committedAt id seq = some digest) := by
  have committed : ∀ id ∈ cluster.honest,
      schedule.afterCommits.committedAt id seq =
        if 2 * cluster.topology.f + 2 ≤ cluster.honest.card then
          some digest
        else
          none := by
    intro id honest
    by_cases spare : 2 * cluster.topology.f + 2 ≤ cluster.honest.card
    · rw [if_pos spare]
      exact schedule.committedAt_of_spare honest spare
    · rw [if_neg spare]
      exact schedule.committedAt_of_not_spare honest spare
  refine ⟨committed, ?_⟩
  intro exactly all
  have nonempty : cluster.honest.Nonempty := by
    rw [← Finset.card_pos]
    omega
  rcases nonempty with ⟨id, honest⟩
  have never := committed id honest
  rw [if_neg (by omega), all id honest] at never
  cases never

/-- The schedule that delivers everything in the order in which it was sent. -/
def QuietCluster.inOrder (cluster : QuietCluster) (seq : UInt64) (digest : Digest)
    (recipients : List UInt32) (nodup : recipients.Nodup)
    (honest : ∀ id, id ∈ recipients ↔ id ∈ cluster.honest) :
    Schedule cluster seq digest where
  recipients := recipients
  prepares :=
    cluster.inFlight (cluster.proposalRound seq digest recipients).broadcasts
  commits :=
    cluster.inFlight (Replicas.round
      (cluster.proposalRound seq digest recipients).nodes
      (cluster.inFlight
        (cluster.proposalRound seq digest recipients).broadcasts)).broadcasts
  recipients_nodup := nodup
  recipients_honest := honest
  prepares_perm := List.Perm.refl _
  commits_perm := List.Perm.refl _

end SilentFaults

section SmallRun

open SmallCluster

attribute [local instance] smallCurve

def oneSilent : QuietCluster where
  topology := topology
  coefficients := coefficients
  dealt := dealtKeys_topology
  honest := {0, 1, 2}
  honest_registered := by decide

def noneSilent : QuietCluster where
  topology := topology
  coefficients := coefficients
  dealt := dealtKeys_topology
  honest := {0, 1, 2, 3}
  honest_registered := by decide

def oneSilentSchedule : Schedule oneSilent 1 (digestOf 7) :=
  oneSilent.inOrder 1 (digestOf 7) [0, 1, 2] (by decide) (by simp [oneSilent])

def noneSilentSchedule : Schedule noneSilent 1 (digestOf 7) :=
  noneSilent.inOrder 1 (digestOf 7) [0, 1, 2, 3] (by decide)
    (by simp [noneSilent])

/-- Three honest replicas of four: the votes of a whole quorum are delivered, and
each of them counts only two. -/
theorem oneSilent_neverCommits :
    1 ≤ oneSilent.topology.f ∧
      oneSilent.honest.card = 2 * oneSilent.topology.f + 1 ∧
      ¬ ∀ id ∈ oneSilent.honest,
        oneSilentSchedule.afterCommits.committedAt id 1 = some (digestOf 7) := by
  refine ⟨by decide, by decide, ?_⟩
  intro committed
  have never : oneSilentSchedule.afterCommits.committedAt 1 1 = none := by
    decide +kernel
  rw [committed 1 (by decide)] at never
  cases never

theorem honest_committedAt_noneSilent :
    noneSilentSchedule.afterCommits.committedAt 3 1 = some (digestOf 7) := by
  have committed := (honest_committedAt noneSilent noneSilentSchedule).1 3
    (by decide)
  have spare : 2 * noneSilent.topology.f + 2 ≤ noneSilent.honest.card := by
    decide
  rw [if_pos spare] at committed
  exact committed

end SmallRun

end SovereignLattice
