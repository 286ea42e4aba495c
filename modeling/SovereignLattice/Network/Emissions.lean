import SovereignLattice.Replica.SmallCluster
import SovereignLattice.Replica.Tracking

/-!
# The votes that a node sends

`handle_connection` answers an accepted proposal with a prepare and an accepted
prepare with a commit as soon as the slot has a certificate, whatever the
certificate says.  The slot of a vote that is sent is proposed with its digest, and
a proposal stays, in memory and in the log, until a checkpoint stabilises.
-/

namespace SovereignLattice

section Emissions

variable [Curve]

/-! ## The machine -/

/-- A packet that arrives, with what the file operations answer, or a restart of the
process on its log. -/
inductive NodeEvent where
  | receive (packet : Packet) (io : WalIo)
  | restart

namespace Node

def restarted (node : Node) : Option Node :=
  node.state.bind fun state =>
    (newWithWalPath state.totalNodes state.publicKeys state.masterPublicKey
      state.wal).toOption.map fun next => { node with state := some next }

end Node

def nodeStep (node : Node) : NodeEvent → Option Node
  | .receive packet io => some (node.handleConnection packet io).2
  | .restart => node.restarted

/-- The vote that a node sends when it receives a packet. -/
def Node.emitted (node : Node) (packet : Packet) (io : WalIo) :
    Option PbftMessage :=
  Node.sent (node.handleConnection packet io).1

/-- What a vote that is sent says about the packet that it answers. -/
theorem PbftState.outgoingMsg_eq_some {state : PbftState} {msg out : PbftMessage}
    {selfId : UInt32} {sk : Scalar}
    (sent : state.outgoingMsg msg selfId sk = some out) :
    out.proposalKey = msg.proposalKey ∧
      (msg.phase = .prePrepare ∧ out.phase = .prepare ∨
        msg.phase = .prepare ∧ out.phase = .commit ∧
          (state.preparedCertificates.get? (msg.view, msg.seq)).isSome) := by
  rw [outgoingMsg] at sent
  split at sent
  · rename_i phase
    cases sent
    exact ⟨rfl, Or.inl ⟨phase, rfl⟩⟩
  · rename_i phase
    split at sent
    · rename_i certified
      cases sent
      exact ⟨rfl, Or.inr ⟨phase, rfl, certified⟩⟩
    · cases sent
  · cases sent

/-- The slot of an accepted proposal or prepare is proposed with its digest. -/
theorem PbftState.proposed_of_accepted {state : PbftState} {msg : PbftMessage}
    {io : WalIo} {response : Response}
    (accepted : (state.handleMessage msg io).1 = .ok response)
    (phase : msg.phase = .prePrepare ∨ msg.phase = .prepare) :
    msg.proposalKey ∈ (state.handleMessage msg io).2.prePreparedProposals := by
  rcases state.exists_outcome msg io with
    ⟨answer, next, handled, outcome⟩
  simp only [handled] at accepted ⊢
  subst accepted
  cases outcome with
  | obsolete checkpoint =>
      rw [checkpoint] at phase
      simp at phase
  | accepted _ staged running authenticated newer stages unstable =>
      cases stages with
      | prePrepare => exact Finset.mem_insert_self _ _
      | prepare _ _ _ proposed => exact proposed
      | commit _ _ other => simp [other] at phase
      | viewChangeVote other => simp [other] at phase
      | viewChangeQuorum _ _ _ other => simp [other] at phase
      | checkpointVote other => simp [other] at phase
      | checkpointQuorum other => simp [other] at phase
  | stabilized staged image running authenticated newer stages pruned =>
      rw [stages.checkpoint_of_stabilized] at phase
      simp at phase

namespace Node

theorem emitted_inv {node : Node} {packet : Packet} {io : WalIo}
    {out : PbftMessage} (sent : node.emitted packet io = some out) :
    ∃ msg state, node.state = some state ∧
      (node.handleConnection packet io).2.state =
        some (state.handleMessage msg io).2 ∧
      out.proposalKey ∈ (state.handleMessage msg io).2.prePreparedProposals ∧
      (out.phase = .commit →
        ((state.handleMessage msg io).2.preparedCertificates.get?
          (slotOf out.proposalKey)).isSome) := by
  have handled := node.handleConnection_handled packet io
  rw [emitted] at sent
  generalize node.handleConnection packet io = result at sent handled ⊢
  obtain ⟨answer, after⟩ := result
  dsimp only at sent handled ⊢
  rw [sent] at handled
  generalize same : some out = voted at handled
  cases handled with
  | ignored => cases same
  | handled => cases same
  | answered msg state sk response isPbft held key accepted =>
      rcases PbftState.outgoingMsg_eq_some same.symm with ⟨sameKey, origin⟩
      refine ⟨msg, state, held, rfl, ?_, ?_⟩
      · rw [sameKey]
        apply PbftState.proposed_of_accepted accepted
        rcases origin with ⟨phase, _⟩ | ⟨phase, _⟩
        · exact Or.inl phase
        · exact Or.inr phase
      · intro commit
        rcases origin with ⟨_, phase⟩ | ⟨_, _, certified⟩
        · rw [phase] at commit
          cases commit
        · rw [sameKey]
          exact certified

end Node

/-! ## What a replica keeps -/

/-- The log file starts with records, and the proposals of the replica are among
them.  Bytes that are no record follow only where the log has failed. -/
def PbftState.ProposalsLogged (state : PbftState) : Prop :=
  ∃ log rest, state.wal.file = encodeLog log ++ rest ∧
    (state.walFailed = true ∨ rest = []) ∧
    state.prePreparedProposals ⊆ proposalsIn log

/-- What is known about a replica while no checkpoint has stabilised: the keys are
proposed, and stay so. -/
structure Retains (keys : Finset ProposalKey) (state : PbftState) : Prop where
  chain : state.Chained
  logged : state.ProposalsLogged
  known : keys ⊆ state.prePreparedProposals

namespace Retains

variable {keys : Finset ProposalKey} {state next : PbftState}

theorem recovered {topology : Topology} {log : List Record}
    (ok : topology.recover ⟨encodeLog log⟩ = .ok next)
    (unstable : next.lastStableCheckpoint = 0) :
    Retains (proposalsIn log) next := by
  have chain := Topology.recover_chained ok
  rcases Topology.recover_encodeLog.mp ok with ⟨clean, rfl⟩
  have follows := (Topology.reflects_of_clean clean).follows
  have stable : (topology.replayAll log).recoveredStableCheckpoint = 0 := unstable
  refine ⟨chain, ⟨log, [], by simp [Topology.recoveredState], Or.inr rfl, ?_⟩, ?_⟩
  · intro key member
    exact (follows.proposals key rfl).mp (Finset.mem_filter.mp member).1
  · intro key member
    have known := (follows.proposals key rfl).mpr member
    refine Finset.mem_filter.mpr ⟨known, ?_⟩
    rw [stable]
    rfl

theorem handled (retains : Retains keys state) (msg : PbftMessage) (io : WalIo)
    (unstable : (state.handleMessage msg io).2.lastStableCheckpoint = 0) :
    Retains keys (state.handleMessage msg io).2 := by
  have chain := PbftState.handleMessage_chained retains.chain msg io
  rcases retains.logged with ⟨log, rest, file, failed, logged⟩
  rcases state.exists_outcome msg io with
    ⟨answer, after, handled, outcome⟩
  simp only [handled] at unstable chain ⊢
  have raised : ∀ {staged : PbftState}, state.lastStableCheckpoint < msg.seq →
      PbftState.Stages state msg .checkpointStabilized staged →
        staged.lastStableCheckpoint ≠ 0 := by
    intro staged newer stages zero
    obtain ⟨_, _, _, rfl⟩ := stages.stabilized_inv
    have same : msg.seq = 0 := zero
    rw [same] at newer
    exact UInt64.not_lt_zero newer
  cases outcome with
  | unavailable => exact retains
  | rejected => exact retains
  | obsolete => exact retains
  | appendFailed written =>
      refine ⟨chain, ⟨log, rest ++ msg.toRecord.encode.take written, ?_,
        Or.inl rfl, logged⟩, retains.known⟩
      simp [PbftState.appendFailed, file]
  | accepted response staged running authenticated newer stages unstabilised =>
      have complete : rest = [] :=
        failed.resolve_left (by rw [running]; decide)
      subst complete
      refine ⟨chain, ⟨log ++ [msg.toRecord], [], ?_, Or.inr rfl,
        stages.proposals_logged logged⟩,
        retains.known.trans (stages.proposals_subset unstabilised)⟩
      simp [file, encodeLog_append]
  | stabilized staged image running authenticated newer stages pruned =>
      have zero : staged.lastStableCheckpoint = 0 := unstable
      exact absurd zero (raised newer stages)
  | pruneFailed staged wal authenticated newer stages cause =>
      have zero : staged.lastStableCheckpoint = 0 := unstable
      exact absurd zero (raised newer stages)

theorem restarted {totalNodes : Nat}
    {publicKeys : AssocMap UInt32 G2Projective} {masterPk : G2Projective}
    (retains : Retains keys state)
    (ok : newWithWalPath totalNodes publicKeys masterPk state.wal = .ok next)
    (unstable : next.lastStableCheckpoint = 0) : Retains keys next := by
  rcases newWithWalPath_eq_ok.mp ok with ⟨topology, _, recovers⟩
  rcases retains.logged with ⟨log, rest, file, _, logged⟩
  rcases Topology.exists_records_of_recover recovers with ⟨records, whole⟩
  rw [whole] at recovers file
  have after := Retains.recovered recovers unstable
  have first : log <+: records := prefix_of_encodeLog_append file.symm
  refine ⟨after.chain, after.logged, retains.known.trans (logged.trans ?_)⟩
  intro key member
  rcases (mem_proposalsIn log).mp member with ⟨record, stored, fields⟩
  exact after.known
    ((mem_proposalsIn records).mpr ⟨record, first.subset stored, fields⟩)

end Retains

/-! ## Runs of a node -/

namespace Node

/-- The node has a replica, and the replica satisfies the condition. -/
def HasState (node : Node) (condition : PbftState → Prop) : Prop :=
  ∃ state, node.state = some state ∧ condition state

def Unstabilised (node : Node) : Prop :=
  ∀ state, node.state = some state → state.lastStableCheckpoint = 0

theorem HasState.step {invariant : PbftState → Prop} {visited : Node → Prop}
    (handled : ∀ (node : Node) state msg io, invariant state →
      visited { node with state := some (state.handleMessage msg io).2 } →
        invariant (state.handleMessage msg io).2)
    (restarted : ∀ (node : Node) state next, invariant state →
      newWithWalPath state.totalNodes state.publicKeys state.masterPublicKey
        state.wal = .ok next →
      visited { node with state := some next } → invariant next)
    {node next : Node} {event : NodeEvent} (holds : node.HasState invariant)
    (stepped : nodeStep node event = some next) (reached : visited next) :
    next.HasState invariant := by
  rcases holds with ⟨state, held, before⟩
  cases event with
  | receive packet io =>
      rw [nodeStep, Option.some.injEq] at stepped
      have effect := node.handleConnection_handled packet io
      rw [stepped] at effect
      generalize Node.sent (node.handleConnection packet io).1 = out at effect
      cases effect with
      | ignored => exact ⟨state, held, before⟩
      | handled msg current error _ isHeld =>
          obtain rfl : state = current := Option.some.inj (held.symm.trans isHeld)
          exact ⟨_, rfl, handled node state msg io before reached⟩
      | answered msg current sk response _ isHeld =>
          obtain rfl : state = current := Option.some.inj (held.symm.trans isHeld)
          exact ⟨_, rfl, handled node state msg io before reached⟩
  | restart =>
      rw [nodeStep, Node.restarted, held, Option.bind_some,
        Option.map_eq_some_iff] at stepped
      rcases stepped with ⟨recovered, started, rfl⟩
      refine ⟨recovered, rfl, restarted node state recovered before ?_ reached⟩
      cases ok : newWithWalPath state.totalNodes state.publicKeys
          state.masterPublicKey state.wal with
      | error error => simp [ok, Except.toOption] at started
      | ok found =>
          rw [ok] at started
          exact congrArg Except.ok (Option.some.inj started)

/-- No condition on the node. -/
def AnyNode (_ : Node) : Prop := True

theorem chained_of_run {initial final : Node} {events : List NodeEvent}
    (chained : initial.HasState PbftState.Chained)
    (reached : run nodeStep initial events = some final) :
    final.HasState PbftState.Chained := by
  have handled : ∀ (node : Node) (state : PbftState) msg io, state.Chained →
      AnyNode { node with state := some (state.handleMessage msg io).2 } →
        (state.handleMessage msg io).2.Chained :=
    fun _ _ msg io chain _ => PbftState.handleMessage_chained chain msg io
  have restarted : ∀ (node : Node) (state next : PbftState), state.Chained →
      newWithWalPath state.totalNodes state.publicKeys state.masterPublicKey
        state.wal = .ok next →
      AnyNode { node with state := some next } → next.Chained := by
    intro _ state next _ ok _
    rcases newWithWalPath_eq_ok.mp ok with ⟨topology, _, recovers⟩
    exact Topology.recover_chained recovers
  exact invariant_of_run
    (fun _ _ _ holds stepped =>
      HasState.step handled restarted holds stepped trivial)
    chained reached

theorem retains_of_run {keys : Finset ProposalKey} {initial final : Node}
    {events : List NodeEvent} (retains : initial.HasState (Retains keys))
    (visits : Visits nodeStep Unstabilised initial events)
    (reached : run nodeStep initial events = some final) :
    final.HasState (Retains keys) := by
  have handled : ∀ (node : Node) state msg io, Retains keys state →
      Unstabilised { node with state := some (state.handleMessage msg io).2 } →
        Retains keys (state.handleMessage msg io).2 :=
    fun _ _ msg io before unstable => before.handled msg io (unstable _ rfl)
  have restarted : ∀ (node : Node) (state next : PbftState),
      Retains keys state →
      newWithWalPath state.totalNodes state.publicKeys state.masterPublicKey
        state.wal = .ok next →
      Unstabilised { node with state := some next } → Retains keys next :=
    fun _ _ _ before ok unstable => before.restarted ok (unstable _ rfl)
  exact invariant_of_visits
    (fun _ _ _ holds stepped unstable =>
      HasState.step handled restarted holds stepped unstable)
    retains visits reached

/-- The replica that a commit is sent from: the digest is proposed for the slot, and
the slot's certificate is a verified one of a registered quorum for that digest. -/
def BacksCommit (state : PbftState) (out : PbftMessage) : Prop :=
  out.proposalKey ∈ state.prePreparedProposals ∧
    ∃ cert, state.preparedCertificates.get? (out.view, out.seq) = some cert ∧
      cert.view = out.view ∧ cert.seq = out.seq ∧ cert.digest = out.digest ∧
      state.quorumSize ≤ cert.signatures.keySet.card ∧
      cert.signatures.keySet ⊆ state.registeredNodes ∧
      cert.verify state.quorumSize state.masterPublicKey = true

theorem backsCommit_of_chained {state : PbftState} {out : PbftMessage}
    (chain : state.Chained)
    (proposed : out.proposalKey ∈ state.prePreparedProposals)
    (certified : (state.preparedCertificates.get?
      (slotOf out.proposalKey)).isSome) : BacksCommit state out := by
  rcases Option.isSome_iff_exists.mp certified with ⟨cert, stored⟩
  have sameDigest : cert.digest = out.digest :=
    chain.digest_of_prepared proposed stored
  rcases chain.prepared_chain out.view out.seq cert stored with
    ⟨sameView, sameSeq, _, votes, quorum, verified⟩
  refine ⟨proposed, cert, stored, sameView, sameSeq, sameDigest, ?_, ?_,
    verified⟩
  · rw [AssocMap.card_keySet]
    exact quorum
  · intro signer member
    rcases AssocMap.mem_keys_iff.mp member with ⟨signature, signed⟩
    exact (chain.prepareVotes_authentic _ _ votes signer signature signed).1

/-- Votes of one phase that are sent at two points of a run for one slot have the
same digest. -/
def EmitsOneDigest (initial : Node) (events : List NodeEvent) : Prop :=
  ∀ earlier first firstIo middle second secondIo rest before between out later,
    events = earlier ++ .receive first firstIo :: middle ++
      .receive second secondIo :: rest →
    run nodeStep initial earlier = some before →
    before.emitted first firstIo = some out →
    run nodeStep initial (earlier ++ .receive first firstIo :: middle) =
      some between →
    between.emitted second secondIo = some later →
    out.phase = later.phase → out.view = later.view → out.seq = later.seq →
      out.digest = later.digest

/-- A proposal that is answered and retained excludes a second digest. -/
theorem emitsOneDigest_of_visits {initial : Node} {events : List NodeEvent}
    (retains : initial.HasState (Retains ∅))
    (visits : Visits nodeStep Unstabilised initial events) :
    EmitsOneDigest initial events := by
  intro earlier first firstIo middle second secondIo rest before between out later
    split ran sentFirst ranOn sentSecond _ sameView sameSeq
  subst split
  rcases emitted_inv sentFirst with ⟨_, _, _, afterFirst, proposed, _⟩
  rcases emitted_inv sentSecond with ⟨_, _, _, afterSecond, laterProposed, _⟩
  have visitsFirst : Visits nodeStep Unstabilised initial
      (earlier ++ [.receive first firstIo]) := by
    rw [List.append_assoc, List.cons_append, ← List.singleton_append,
      ← List.append_assoc] at visits
    exact visits.before
  have ranFirst : run nodeStep initial (earlier ++ [.receive first firstIo]) =
      some (before.handleConnection first firstIo).2 :=
    run_append_eq_some.mpr ⟨before, ran, rfl⟩
  have known : (before.handleConnection first firstIo).2.HasState
      (Retains {out.proposalKey}) := by
    rcases retains_of_run retains visitsFirst ranFirst with ⟨state, held, kept⟩
    rw [afterFirst, Option.some.injEq] at held
    subst held
    exact ⟨_, afterFirst, kept.chain, kept.logged,
      Finset.singleton_subset_iff.mpr proposed⟩
  -- From the first vote on, the proposal stays known up to the second one.
  have visitsAfter : Visits nodeStep Unstabilised
      (before.handleConnection first firstIo).2
      (middle ++ [.receive second secondIo]) := by
    have whole : earlier ++ .receive first firstIo :: middle ++
          .receive second secondIo :: rest =
        (earlier ++ [.receive first firstIo]) ++
          ((middle ++ [.receive second secondIo]) ++ rest) := by
      simp
    rw [whole] at visits
    exact (visits.after ranFirst).before
  have ranSecond : run nodeStep (before.handleConnection first firstIo).2
      (middle ++ [.receive second secondIo]) =
        some (between.handleConnection second secondIo).2 := by
    rcases run_append_eq_some.mp ranOn with ⟨again, ranAgain, continued⟩
    rw [ran, Option.some.injEq] at ranAgain
    subst ranAgain
    rcases run_cons_eq_some.mp continued with ⟨next, stepped, reached⟩
    rw [nodeStep, Option.some.injEq] at stepped
    subst stepped
    exact run_append_eq_some.mpr ⟨between, reached, rfl⟩
  rcases retains_of_run known visitsAfter ranSecond with ⟨state, held, kept⟩
  rw [afterSecond, Option.some.injEq] at held
  subst held
  have member := kept.known (Finset.mem_singleton_self out.proposalKey)
  have slot : (later.view, later.seq, out.digest) = out.proposalKey := by
    rw [← sameView, ← sameSeq]
    rfl
  rw [← slot] at member
  exact kept.chain.proposal_unique later.view later.seq out.digest later.digest
    member laterProposed

end Node

/-- In every state that a node reaches from a recovered one, a commit that it sends
is backed by the digest's own certificate; and while no checkpoint is stable, it sends
no two votes of a phase for a slot with different digests. -/
theorem emittedVotes_backed {totalNodes : Nat}
    {initialPublicKeys : AssocMap UInt32 G2Projective}
    {masterPublicKey : G2Projective} {wal : WriteAheadLog} {initial : PbftState}
    (started : newWithWalPath totalNodes initialPublicKeys masterPublicKey wal =
      .ok initial)
    (selfId : UInt32) (selfSk : Option Scalar) (events : List NodeEvent) :
    (∀ node packet io out,
      run nodeStep ⟨selfId, selfSk, some initial⟩ events = some node →
      node.emitted packet io = some out → out.phase = .commit →
        (node.handleConnection packet io).2.HasState fun state =>
          Node.BacksCommit state out) ∧
    (Visits nodeStep Node.Unstabilised ⟨selfId, selfSk, some initial⟩ events →
      Node.EmitsOneDigest ⟨selfId, selfSk, some initial⟩ events) := by
  rcases newWithWalPath_eq_ok.mp started with ⟨topology, _, recovers⟩
  constructor
  · intro node packet io out reached sent commit
    have chained : (Node.mk selfId selfSk (some initial)).HasState
        PbftState.Chained :=
      ⟨initial, rfl, Topology.recover_chained recovers⟩
    have extended : run nodeStep ⟨selfId, selfSk, some initial⟩
        (events ++ [.receive packet io]) =
          some (node.handleConnection packet io).2 :=
      run_append_eq_some.mpr ⟨node, reached, rfl⟩
    rcases Node.chained_of_run chained extended with ⟨state, held, chain⟩
    rcases Node.emitted_inv sent with ⟨_, _, _, after, proposed, certified⟩
    rw [after, Option.some.injEq] at held
    subst held
    exact ⟨_, after, Node.backsCommit_of_chained chain proposed (certified commit)⟩
  · intro visits
    have unstable : initial.lastStableCheckpoint = 0 :=
      visits [] _ List.nil_prefix rfl initial rfl
    rcases Topology.exists_records_of_recover recovers with ⟨log, rfl⟩
    have retains := Retains.recovered recovers unstable
    exact Node.emitsOneDigest_of_visits
      ⟨initial, rfl, retains.chain, retains.logged, Finset.empty_subset _⟩ visits

end Emissions

section SmallRun

open SmallCluster

attribute [local instance] smallCurve

def nodeOne : Node where
  selfId := 1
  selfSk := some (share 1)
  state := some topology.fresh

/-- A proposal and two of its prepares. -/
def almostPrepared : List NodeEvent :=
  [signed .prePrepare 0 1 (digestOf 7) 0, signed .prepare 0 1 (digestOf 7) 0,
    signed .prepare 0 1 (digestOf 7) 1].map fun msg =>
      .receive (.pbft msg) .durable

theorem emittedVotes_backed_atCommit :
    ∃ node out, run nodeStep nodeOne almostPrepared = some node ∧
      node.emitted (.pbft (signed .prepare 0 1 (digestOf 7) 2)) .durable =
        some out ∧
      out.phase = .commit ∧
      (node.handleConnection (.pbft (signed .prepare 0 1 (digestOf 7) 2))
        .durable).2.HasState fun state => Node.BacksCommit state out := by
  have computed : (run nodeStep nodeOne almostPrepared).any (fun node =>
      (node.emitted (.pbft (signed .prepare 0 1 (digestOf 7) 2))
        .durable).any fun out => decide (out.phase = .commit)) = true := by
    decide +kernel
  rcases (Option.any_eq_true _ _).mp computed with ⟨node, reached, sends⟩
  rcases (Option.any_eq_true _ _).mp sends with ⟨out, sent, commit⟩
  have phase : out.phase = .commit := of_decide_eq_true commit
  refine ⟨node, out, reached, sent, phase, ?_⟩
  exact (emittedVotes_backed topology.fresh_started 1 (some (share 1))
    almostPrepared).1 node _ .durable out reached sent phase

end SmallRun

end SovereignLattice
