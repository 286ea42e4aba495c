import SovereignLattice.Network.Emissions
import SovereignLattice.Process.FourProcess
import SovereignLattice.Process.Linearizability

/-!
# A process as a bootstrap and a node

What a process installs is the result of the key generation on the shares that its
connections have brought, and from then on the process is a node that receives packets:
every result about runs of a node holds of it.
-/

namespace SovereignLattice

section Refinement

variable [Curve] [Encodings]

/-! ## The bootstrap inside a process -/

/-- State and key come out of the ingest loop, `finalize_dkg` and `PbftState::new` on
shares that connections have received. -/
def ServerConfig.Bootstrapped (config : ServerConfig) (wal : WriteAheadLog)
    (secretPolynomial : List Scalar) (actions : List ProcessAction)
    (pbftState : PbftState) (share : Scalar) : Prop :=
  ∃ (msgs : List DkgShareMessage) (final : Ingest) (masterPk : G2Projective),
    (∀ msg ∈ msgs, ∃ index, ReceivedBy actions index (.dkg msg)) ∧
      config.ingestLoop (config.start secretPolynomial)
          (msgs.map InboundEvent.message) = some (.ok final) ∧
        final.session.finalizeDkg (participants config.totalNodes) =
            .ok (share, masterPk) ∧
          newWithWalPath config.totalNodes (config.registry final) masterPk wal =
            .ok pbftState

/-- What `main` has done so far. -/
def Process.MainTraced (config : ServerConfig) (wal : WriteAheadLog)
    (secretPolynomial : List Scalar) (actions : List ProcessAction)
    (process : Process) : MainTask → Prop
  | .ingesting ingest => ∃ msgs : List DkgShareMessage,
      (∀ msg ∈ msgs, ∃ index, ReceivedBy actions index (.dkg msg)) ∧
        ∀ rest, config.ingestLoop (config.start secretPolynomial)
            (msgs.map InboundEvent.message ++ rest) = config.ingestLoop ingest rest
  | .lockingState pbftState share =>
      config.Bootstrapped wal secretPolynomial actions pbftState share
  | .lockingSecret share => ∀ pbftState, process.state = some pbftState →
      config.Bootstrapped wal secretPolynomial actions pbftState share
  | .releasing => ∀ pbftState share, process.state = some pbftState →
      process.selfSk = some share →
        config.Bootstrapped wal secretPolynomial actions pbftState share
  | .live => True
  | .failed _ => True

structure Process.Traced (config : ServerConfig) (wal : WriteAheadLog)
    (secretPolynomial : List Scalar) (actions : List ProcessAction)
    (process : Process) : Prop where
  sound : process.Sound
  received : process.Received actions
  shares : ∀ msg ∈ process.shares, ∃ index, ReceivedBy actions index (.dkg msg)
  main : process.MainTraced config wal secretPolynomial actions process.main

section Growth

variable {config : ServerConfig} {wal : WriteAheadLog}
variable {secretPolynomial : List Scalar} {earlier : List ProcessAction}
variable {action : ProcessAction} {process next : Process} {main : MainTask}

theorem ServerConfig.Bootstrapped.mono {pbftState : PbftState} {share : Scalar}
    (bootstrapped : config.Bootstrapped wal secretPolynomial earlier pbftState share) :
    config.Bootstrapped wal secretPolynomial (earlier ++ [action]) pbftState
      share := by
  rcases bootstrapped with ⟨msgs, final, masterPk, received, rest⟩
  refine ⟨msgs, final, masterPk, ?_, rest⟩
  intro msg member
  rcases received msg member with ⟨index, given⟩
  exact ⟨index, given.mono action⟩

/-- What `main` has done stays done while the state that it has installed stays. -/
theorem Process.MainTraced.mono
    (traced : process.MainTraced config wal secretPolynomial earlier main)
    (same : main.HoldsState →
      next.state = process.state ∧ next.selfSk = process.selfSk) :
    next.MainTraced config wal secretPolynomial (earlier ++ [action]) main := by
  cases main with
  | ingesting ingest =>
      rcases traced with ⟨msgs, received, loop⟩
      refine ⟨msgs, ?_, loop⟩
      intro msg member
      rcases received msg member with ⟨index, given⟩
      exact ⟨index, given.mono action⟩
  | lockingState pbftState share => exact ServerConfig.Bootstrapped.mono traced
  | lockingSecret share =>
      intro pbftState held
      rw [(same trivial).1] at held
      exact ServerConfig.Bootstrapped.mono (traced pbftState held)
  | releasing =>
      intro pbftState share held key
      rw [(same trivial).1] at held
      rw [(same trivial).2] at key
      exact ServerConfig.Bootstrapped.mono (traced pbftState share held key)
  | live => trivial
  | failed => trivial

end Growth

omit [Encodings] in
/-- What a task that goes on leaves to the others. -/
theorem Process.Advanced.frame {config : ServerConfig} {process next : Process}
    {index : Nat} {io : WalIo} {old : Task}
    (moved : Process.Advanced config process index io old next) :
    next.main = process.main ∧
      (old.HoldsState ∨
        next.state = process.state ∧ next.selfSk = process.selfSk) ∧
      ∀ msg ∈ next.shares, msg ∈ process.shares ∨ old.inbound = some (.dkg msg) := by
  have same : ∀ msg ∈ process.shares,
      msg ∈ process.shares ∨ old.inbound = some (.dkg msg) :=
    fun _ member => Or.inl member
  cases moved with
  | sentShare msg room =>
      refine ⟨rfl, Or.inr ⟨rfl, rfl⟩, ?_⟩
      intro other member
      rcases List.mem_append.mp member with before | new
      · exact Or.inl before
      · rw [List.mem_singleton.mp new]
        exact Or.inr rfl
  | lockedMessage => exact ⟨rfl, Or.inr ⟨rfl, rfl⟩, same⟩
  | lockedPayload => exact ⟨rfl, Or.inr ⟨rfl, rfl⟩, same⟩
  | lockedSecret => exact ⟨rfl, Or.inr ⟨rfl, rfl⟩, same⟩
  | messageRefused => exact ⟨rfl, Or.inr ⟨rfl, rfl⟩, same⟩
  | messageChecked => exact ⟨rfl, Or.inr ⟨rfl, rfl⟩, same⟩
  | payloadRefused => exact ⟨rfl, Or.inr ⟨rfl, rfl⟩, same⟩
  | payloadChecked => exact ⟨rfl, Or.inr ⟨rfl, rfl⟩, same⟩
  | lockedAgain => exact ⟨rfl, Or.inr ⟨rfl, rfl⟩, same⟩
  | handlingPanicked => exact ⟨rfl, Or.inl trivial, same⟩
  | handlerRefused => exact ⟨rfl, Or.inl trivial, same⟩
  | handlerSilent => exact ⟨rfl, Or.inl trivial, same⟩
  | handlerAnswered => exact ⟨rfl, Or.inl trivial, same⟩
  | lockedView => exact ⟨rfl, Or.inr ⟨rfl, rfl⟩, same⟩
  | viewPanicked => exact ⟨rfl, Or.inr ⟨rfl, rfl⟩, same⟩
  | viewRefused => exact ⟨rfl, Or.inr ⟨rfl, rfl⟩, same⟩
  | viewAccepted => exact ⟨rfl, Or.inr ⟨rfl, rfl⟩, same⟩
  | sentVote => exact ⟨rfl, Or.inr ⟨rfl, rfl⟩, same⟩

namespace Process.Traced

variable {config : ServerConfig} {wal : WriteAheadLog}
variable {secretPolynomial : List Scalar} {earlier : List ProcessAction}
variable {process next : Process}

/-- An action that leaves `main`, the shares and the installed state alone. -/
theorem keep (traced : Traced config wal secretPolynomial earlier process)
    {action : ProcessAction}
    (stepped : processStep config wal process action = some next)
    (sameMain : next.main = process.main)
    (sameState : process.main.HoldsState →
      next.state = process.state ∧ next.selfSk = process.selfSk)
    (shares : ∀ msg ∈ next.shares, ∃ index,
      ReceivedBy (earlier ++ [action]) index (.dkg msg)) :
    Traced config wal secretPolynomial (earlier ++ [action]) next where
  sound := traced.sound.step stepped
  received := traced.received.step stepped
  shares := shares
  main := sameMain ▸ traced.main.mono sameState

theorem sharesKept (traced : Traced config wal secretPolynomial earlier process)
    (action : ProcessAction) :
    ∀ msg ∈ process.shares, ∃ index,
      ReceivedBy (earlier ++ [action]) index (.dkg msg) := by
  intro msg member
  rcases traced.shares msg member with ⟨index, given⟩
  exact ⟨index, given.mono action⟩

theorem advanceMain (traced : Traced config wal secretPolynomial earlier process)
    (stepped : processStep config wal process .main = some next)
    (moved : MainAdvanced config wal process process.main next) :
    Traced config wal secretPolynomial (earlier ++ [.main]) next := by
  refine ⟨traced.sound.step stepped, traced.received.step stepped, ?_, ?_⟩
  · have kept := traced.sharesKept .main
    generalize process.main = main at moved
    cases moved with
    | ingested ingest msg rest few queued =>
        intro other member
        exact kept other (queued ▸ List.mem_cons_of_mem _ member)
    | _ => exact kept
  · have before := traced.main
    generalize process.main = main at moved before
    cases moved with
    | ingested ingest msg rest few queued =>
        rcases before with ⟨msgs, received, loop⟩
        have first : msg ∈ process.shares := queued ▸ List.mem_cons_self
        refine ⟨msgs ++ [msg], ?_, ?_⟩
        · intro other member
          rcases List.mem_append.mp member with old | new
          · rcases received other old with ⟨index, given⟩
            exact ⟨index, given.mono .main⟩
          · rw [List.mem_singleton.mp new]
            exact traced.sharesKept .main msg first
        · intro suffix
          rw [List.map_append, List.append_assoc, loop]
          exact NodeConfig.ingestLoop_message few msg suffix
    | finalized ingest enough =>
        rcases before with ⟨msgs, received, loop⟩
        show Process.MainTraced config wal secretPolynomial _ _
          (finalize config wal ingest)
        rw [finalize]
        split
        · trivial
        rename_i share masterPk finalized
        split
        · trivial
        rename_i pbftState started
        refine ⟨msgs, ingest, masterPk, ?_, ?_, finalized, started⟩
        · intro msg member
          rcases received msg member with ⟨index, given⟩
          exact ⟨index, given.mono .main⟩
        · have ended := loop []
          rw [List.append_nil, NodeConfig.ingestLoop_of_enough enough] at ended
          exact ended
    | lockedState pbftState share free =>
        intro other held
        cases held
        exact ServerConfig.Bootstrapped.mono before
    | lockedSecret share free =>
        intro pbftState other held key
        cases key
        exact ServerConfig.Bootstrapped.mono (before pbftState held)
    | released => trivial

theorem step (traced : Traced config wal secretPolynomial earlier process)
    {action : ProcessAction}
    (stepped : processStep config wal process action = some next) :
    Traced config wal secretPolynomial (earlier ++ [action]) next := by
  have kept := traced.sharesKept action
  have same : process.main.HoldsState →
      process.state = process.state ∧ process.selfSk = process.selfSk :=
    fun _ => ⟨rfl, rfl⟩
  rcases (stepped_of_processStep stepped).1 with
    peerAddr | ⟨peerAddr, allowed, free⟩ | ⟨index, stream, error, stands, read⟩ |
      ⟨index, stream, msg, stands, read⟩ | ⟨index, stream, packet, stands, read⟩ |
      ⟨index, io, task, next, stands, moved⟩ | ⟨out, rest, queued⟩ |
      ⟨next, moved⟩ | ⟨action, ingest, error, waits, deadline⟩
  · exact traced.keep stepped rfl same kept
  · exact traced.keep stepped rfl same kept
  · exact traced.keep stepped rfl same kept
  · exact traced.keep stepped rfl same kept
  · exact traced.keep stepped rfl same kept
  · rcases moved.frame with ⟨sameMain, state, shares⟩
    apply traced.keep stepped sameMain
    · intro inside
      rcases state with taskInside | unchanged
      · exact absurd inside (traced.sound.main_outside stands taskInside)
      · exact unchanged
    · intro msg member
      rcases shares msg member with before | own
      · exact kept msg before
      · exact ⟨index, (traced.received index task _ stands own).mono _⟩
  · exact traced.keep stepped rfl same kept
  · exact traced.advanceMain stepped moved
  · exact
      { sound := traced.sound.step stepped
        received := traced.received.step stepped
        shares := kept
        main := trivial }

theorem of_run {actions : List ProcessAction}
    (reached : run (processStep config wal) (config.boot secretPolynomial) actions =
      some process) :
    Traced config wal secretPolynomial actions process := by
  have kept : ∀ earlier current action next,
      Traced config wal secretPolynomial earlier current →
        processStep config wal current action = some next →
          Traced config wal secretPolynomial (earlier ++ [action]) next :=
    fun _ _ _ _ holds stepped => holds.step stepped
  have initially :
      Traced config wal secretPolynomial [] (config.boot secretPolynomial) :=
    { sound := Sound.boot config secretPolynomial
      received := by
        intro index task inbound found
        simp [ServerConfig.boot] at found
      shares := fun _ member => absurd member List.not_mem_nil
      main := ⟨[], fun _ member => absurd member List.not_mem_nil, fun _ => rfl⟩ }
  exact invariant_of_history kept initially reached

end Process.Traced

/-- What a process installs has been bootstrapped. -/
theorem bootstrapped_of_served {config : ServerConfig} {wal : WriteAheadLog}
    {secretPolynomial : List Scalar} {actions : List ProcessAction}
    {process : Process}
    (reached : run (processStep config wal) (config.boot secretPolynomial) actions =
      some process)
    {pbftState : PbftState} {share : Scalar}
    (installed : .install pbftState share ∈
      config.served wal secretPolynomial actions) :
    config.Bootstrapped wal secretPolynomial actions pbftState share := by
  rcases mem_linearisation reached installed with
    ⟨earlier, action, rest, middle, rfl, before, performed⟩
  have traced := Process.Traced.of_run before
  have known : config.Bootstrapped wal secretPolynomial earlier pbftState share := by
    cases action with
    | main =>
        rw [Process.performs] at performed
        split at performed
        · rename_i place held key
          cases List.mem_singleton.mp performed
          have main := traced.main
          rw [place] at main
          exact main pbftState share held key
        · cases performed
    | advance index io =>
        rw [Process.performs] at performed
        cases stands : middle.tasks[index]? with
        | none => simp [stands] at performed
        | some task =>
            rw [stands, Option.elim_some] at performed
            cases task with
            | readingKeys packet =>
                simp only [Process.performedBy] at performed
                split at performed
                · cases List.mem_singleton.mp performed
                · cases performed
            | handling msg sk => cases List.mem_singleton.mp performed
            | handlingView payload => cases List.mem_singleton.mp performed
            | _ => cases performed
    | _ => cases performed
  rcases known with ⟨msgs, final, masterPk, received, facts⟩
  refine ⟨msgs, final, masterPk, ?_, facts⟩
  intro msg member
  rcases received msg member with ⟨index, stream, isReceived, read⟩
  exact ⟨index, stream, List.mem_append_left _ isReceived, read⟩

/-! ## The serial node as a run of a node -/

/-- A packet that a node receives, with what its file operations answer. -/
def NodeEvent.ofCall (call : Packet × WalIo) : NodeEvent :=
  .receive call.1 call.2

/-- A vote is the answer to one of the calls. -/
def AnsweredIn (start : Node) (calls : List (Packet × WalIo)) (out : PbftMessage) :
    Prop :=
  ∃ earlier call later node, calls = earlier ++ call :: later ∧
    run nodeStep start (earlier.map NodeEvent.ofCall) = some node ∧
      node.emitted call.1 call.2 = some out

omit [Encodings] in
theorem AnsweredIn.mono {start : Node} {calls : List (Packet × WalIo)}
    {out : PbftMessage} (answered : AnsweredIn start calls out)
    (call : Packet × WalIo) : AnsweredIn start (calls ++ [call]) out := by
  rcases answered with ⟨earlier, first, later, node, rfl, ran, sends⟩
  exact ⟨earlier, first, later ++ [call], node, by simp, ran, sends⟩

omit [Encodings] in
theorem Node.present_of_handled {node after : Node} {packet : Packet} {io : WalIo}
    {out : Option PbftMessage} (handled : Handled node packet io out after)
    (present : node.state.isSome) : after.state.isSome := by
  cases handled with
  | ignored => exact present
  | handled => rfl
  | answered => rfl

/-- A serial node before the installation, or after it: a node that receives the
packets of its later calls. -/
inductive SerialTraced (selfId : UInt32) (actions : List SerialAction)
    (serial : SerialNode) : Prop
  | waiting (node : serial.node = ⟨selfId, none, none⟩) (quiet : serial.sent = [])
  | running (pbftState : PbftState) (share : Scalar)
      (calls : List (Packet × WalIo)) (present : serial.node.state.isSome)
      (installed : .install pbftState share ∈ actions)
      (served : ∀ call ∈ calls, ∃ index, .serve index call.1 call.2 ∈ actions)
      (ran : run nodeStep ⟨selfId, some share, some pbftState⟩
        (calls.map NodeEvent.ofCall) = some serial.node)
      (sent : ∀ out ∈ serial.sent,
        AnsweredIn ⟨selfId, some share, some pbftState⟩ calls out)

omit [Encodings] in
theorem SerialTraced.step {selfId : UInt32} {actions : List SerialAction}
    {serial after : SerialNode} {action : SerialAction}
    (traced : SerialTraced selfId actions serial)
    (stepped : serialStep serial action = some after) :
    SerialTraced selfId (actions ++ [action]) after := by
  have kept {other : SerialAction} (member : other ∈ actions) :
      other ∈ actions ++ [action] :=
    List.mem_append_left _ member
  have last : action ∈ actions ++ [action] := by simp
  rcases serialStep_inv stepped with
    ⟨pbftState, share, rfl, missing, rfl⟩ | ⟨index, packet, io, rfl, _, rfl⟩
  · rcases traced with ⟨node, quiet⟩ | ⟨_, _, _, present, _, _, _, _⟩
    · refine .running pbftState share [] rfl last
        (fun _ member => absurd member List.not_mem_nil) ?_ ?_
      · rw [node]
        rfl
      · intro out member
        rw [quiet] at member
        cases member
    · rw [missing] at present
      cases present
  · rcases traced with
      ⟨node, quiet⟩ | ⟨pbftState, share, calls, present, installed, served, ran, sent⟩
    · have refused : serial.node.handleConnection packet io =
          (.error .consensusStateNotInitialized, serial.node) := by
        rw [node]
        cases packet <;> rfl
      refine .waiting ?_ ?_
      · rw [SerialNode.serve, refused, node]
      · rw [SerialNode.serve, refused, quiet]
        rfl
    · refine .running pbftState share (calls ++ [(packet, io)])
        (Node.present_of_handled (serial.node.handleConnection_handled packet io)
          present) (kept installed) ?_ ?_ ?_
      · intro call member
        rcases List.mem_append.mp member with before | new
        · rcases served call before with ⟨place, known⟩
          exact ⟨place, kept known⟩
        · rw [List.mem_singleton.mp new]
          exact ⟨index, last⟩
      · rw [List.map_append]
        exact run_append_eq_some.mpr ⟨serial.node, ran, rfl⟩
      · intro out member
        rcases List.mem_append.mp member with before | new
        · exact (sent out before).mono (packet, io)
        · exact ⟨calls, (packet, io), [], serial.node, rfl, ran,
            Option.mem_toList.mp new⟩

omit [Encodings] in
theorem SerialTraced.of_run {selfId : UInt32} {actions : List SerialAction}
    {serial : SerialNode}
    (reached : run serialStep (SerialNode.boot selfId) actions = some serial) :
    SerialTraced selfId actions serial := by
  have kept : ∀ earlier current action next, SerialTraced selfId earlier current →
      serialStep current action = some next →
        SerialTraced selfId (earlier ++ [action]) next :=
    fun _ _ _ _ holds stepped => holds.step stepped
  exact invariant_of_history kept (.waiting rfl rfl) reached

/-- A live process is a bootstrapped node that has received packets of its peers, and
its votes are that node's answers to them. -/
theorem process_refines_node {config : ServerConfig} {wal : WriteAheadLog}
    {secretPolynomial : List Scalar} {actions : List ProcessAction}
    {process : Process}
    (reached : run (processStep config wal) (config.boot secretPolynomial) actions =
      some process)
    (live : process.main = .live) :
    ∃ pbftState share calls,
      config.Bootstrapped wal secretPolynomial actions pbftState share ∧
        run nodeStep ⟨config.nodeId, some share, some pbftState⟩
            (calls.map NodeEvent.ofCall) =
          some ⟨config.nodeId, process.selfSk, process.state⟩ ∧
        (∀ call ∈ calls, ∃ index,
          ReceivedBy actions index (.consensus call.1)) ∧
        ∀ out ∈ process.allVotes,
          AnsweredIn ⟨config.nodeId, some share, some pbftState⟩ calls out := by
  rcases Process.serialised_of_run reached with ⟨serial, ran, serialised⟩
  have node := serialised.node
  rw [Process.node_of_live live] at node
  have installed := (Process.Sound.of_run reached).installed
  rw [live] at installed
  rcases SerialTraced.of_run ran with
    ⟨waits, _⟩ | ⟨pbftState, share, calls, _, isInstalled, served, ranNode, sent⟩
  · rw [waits, Node.mk.injEq] at node
    rw [← node.2.2] at installed
    cases installed.1
  · rw [node] at ranNode
    refine ⟨pbftState, share, calls, bootstrapped_of_served reached isInstalled,
      ranNode, ?_, ?_⟩
    · intro call member
      rcases served call member with ⟨index, isServed⟩
      exact ⟨index, received_of_served reached isServed⟩
    · intro out member
      exact sent out (serialised.sent.mem_iff.mpr member)

/-! ## The signatures of the votes -/

omit [Encodings] in
/-- The key that the registry holds for the node itself belongs to its share. -/
theorem NodeConfig.registry_own {config : NodeConfig}
    {secretPolynomial : List Scalar} {final : Ingest} {share : Scalar}
    {masterPk : G2Projective} (word : config.totalNodes < 2 ^ 32)
    (below : config.nodeId.toNat < config.totalNodes)
    (positive : 1 ≤ config.threshold)
    (length : secretPolynomial.length = config.threshold)
    (sound : config.Sound secretPolynomial final)
    (count : final.collectedPeers.len = config.totalNodes - 1)
    (finalized : final.session.finalizeDkg (participants config.totalNodes) =
      .ok (share, masterPk)) :
    (config.registry final).get? config.nodeId =
      some (share • Curve.g2Generator) := by
  have complete := sound.complete_of_finalizeDkg word below positive length count
    finalized
  have sums := ((sound.finalizeDkg_eq_ok word below positive length).mp
    finalized).2
  rw [Prod.mk.injEq] at sums
  rw [get?_registry config final word below, sound.registryKey_eq word length
    complete, sums.1, sound.sum_shareOf_smul word complete,
    sound.sum_commitmentsOf word below length complete]

omit [Encodings] in
/-- A constructed state has the keys that the constructor was given. -/
theorem publicKeys_of_started {totalNodes : Nat}
    {initialPublicKeys : AssocMap UInt32 G2Projective}
    {masterPublicKey : G2Projective} {wal : WriteAheadLog} {state : PbftState}
    (started : newWithWalPath totalNodes initialPublicKeys masterPublicKey wal =
      .ok state) : state.publicKeys = initialPublicKeys := by
  rcases newWithWalPath_eq_ok.mp started with ⟨topology, built, recovers⟩
  have same : state.publicKeys = topology.publicKeys := by
    rw [Topology.recover] at recovers
    split at recovers
    · cases recovers
    split at recovers
    · cases recovers
    · cases recovers
      rfl
  rw [same]
  rw [Topology.new] at built
  split at built
  · cases built
  split at built
  · cases built
  split at built
  · cases built
    rfl
  · cases built

omit [Encodings] in
/-- A node keeps its id, its key and the membership. -/
theorem Node.fixed_of_run {start node : Node} {state : PbftState}
    {calls : List (Packet × WalIo)} (held : start.state = some state)
    (ran : run nodeStep start (calls.map NodeEvent.ofCall) = some node) :
    node.selfId = start.selfId ∧ node.selfSk = start.selfSk ∧
      ∃ after, node.state = some after ∧ after.toTopology = state.toTopology := by
  induction calls generalizing start state with
  | nil =>
      cases ran
      exact ⟨rfl, rfl, state, held, rfl⟩
  | cons call rest inductionHypothesis =>
      rcases run_cons_eq_some.mp ran with ⟨next, stepped, continued⟩
      have handled := start.handleConnection_handled call.1 call.2
      have reached : next = (start.handleConnection call.1 call.2).2 :=
        (Option.some.inj stepped).symm
      rw [← reached] at handled
      generalize Node.sent (start.handleConnection call.1 call.2).1 = out
        at handled
      have here : next.selfId = start.selfId ∧ next.selfSk = start.selfSk ∧
          ∃ after, next.state = some after ∧
            after.toTopology = state.toTopology := by
        cases handled with
        | ignored => exact ⟨rfl, rfl, state, held, rfl⟩
        | handled msg current error _ isHeld =>
            cases held.symm.trans isHeld
            exact ⟨rfl, rfl, _, rfl, state.handleMessage_sameTopology msg _⟩
        | answered msg current sk response _ isHeld =>
            cases held.symm.trans isHeld
            exact ⟨rfl, rfl, _, rfl, state.handleMessage_sameTopology msg _⟩
      rcases here with ⟨sameId, sameKey, middle, heldNext, sameTopology⟩
      rcases inductionHypothesis heldNext continued with
        ⟨sameIdLater, sameKeyLater, after, heldLater, sameTopologyLater⟩
      exact ⟨sameIdLater.trans sameId, sameKeyLater.trans sameKey, after, heldLater,
        sameTopologyLater.trans sameTopology⟩

omit [Encodings] in
/-- A vote that is sent carries the id and the signature of its node. -/
theorem Node.signed_of_emitted {node : Node} {packet : Packet} {io : WalIo}
    {out : PbftMessage} (sent : node.emitted packet io = some out) :
    ∃ sk, node.selfSk = some sk ∧ out.senderId = node.selfId ∧
      out.signature = signBlsMessage out.canonicalBytes sk := by
  have handled := node.handleConnection_handled packet io
  rw [emitted] at sent
  generalize node.handleConnection packet io = result at sent handled
  obtain ⟨result, after⟩ := result
  dsimp only at sent handled
  rw [sent] at handled
  generalize same : some out = voted at handled
  cases handled with
  | ignored => cases same
  | handled => cases same
  | answered msg state sk response isPbft held key accepted =>
      refine ⟨sk, key, ?_⟩
      have answer := same.symm
      rw [PbftState.outgoingMsg] at answer
      split at answer
      · cases answer
        exact ⟨rfl, rfl⟩
      · split at answer
        · cases answer
          exact ⟨rfl, rfl⟩
        · cases answer
      · cases answer

/-- Every vote that a process hands to its broadcaster, or waits to hand over, carries
the node's own id and verifies under the key that the process has registered for it. -/
theorem processVotes_verify {config : ServerConfig} {wal : WriteAheadLog}
    {secretPolynomial : List Scalar} {actions : List ProcessAction}
    {process : Process} (word : config.totalNodes < 2 ^ 32)
    (below : config.nodeId.toNat < config.totalNodes)
    (positive : 1 ≤ config.threshold)
    (length : secretPolynomial.length = config.threshold)
    (reached : run (processStep config wal) (config.boot secretPolynomial) actions =
      some process) :
    ∀ out ∈ process.allVotes, out.senderId = config.nodeId ∧
      ∃ state pk, process.state = some state ∧
        state.publicKeys.get? config.nodeId = some pk ∧
          verifyBlsSignature out.canonicalBytes out.signature pk = true := by
  intro out member
  rcases Process.serialised_of_run reached with ⟨serial, ran, serialised⟩
  have sentOut : out ∈ serial.sent := serialised.sent.mem_iff.mpr member
  rcases SerialTraced.of_run ran with
    ⟨_, quiet⟩ | ⟨pbftState, share, calls, present, isInstalled, _, ranNode, sent⟩
  · rw [quiet] at sentOut
    cases sentOut
  have live : process.main = .live := by
    by_contra other
    rw [serialised.node, Process.node_of_not_live other] at present
    cases present
  rcases sent out sentOut with ⟨earlier, call, later, node, split, ranEarlier, sends⟩
  rcases Node.signed_of_emitted sends with ⟨sk, key, sender, signature⟩
  rcases Node.fixed_of_run rfl ranEarlier with ⟨sameId, sameKey, _⟩
  rcases Node.fixed_of_run rfl ranNode with ⟨_, _, after, held, sameTopology⟩
  rw [serialised.node, Process.node_of_live live] at held
  rw [key, Option.some.injEq] at sameKey
  subst sameKey
  rcases bootstrapped_of_served reached isInstalled with
    ⟨msgs, final, masterPk, _, ended, finalized, started⟩
  rcases NodeConfig.len_of_ingestLoop_ok ended with ⟨sound, count⟩
  have own := NodeConfig.registry_own word below positive length sound count
    finalized
  have keys : after.publicKeys = config.registry final := by
    have same : after.publicKeys = pbftState.publicKeys :=
      congrArg Topology.publicKeys sameTopology
    rw [same, publicKeys_of_started started]
  refine ⟨sender.trans sameId, after, sk • Curve.g2Generator, held, ?_, ?_⟩
  · rw [keys]
    exact own
  · rw [signature]
    exact verifyBlsSignature_sign _ _

end Refinement

section SmallRun

open FourProcess

attribute [local instance] smallCurve smallEncodings

/-- After the shares and the proposal the process is live and has sent one vote. -/
theorem sharesThenProposal_reached :
    ∃ process, run (processStep config ⟨[]⟩) (config.boot (polynomialOf 1))
        sharesThenProposal = some process ∧
      process.main = .live ∧ process.allVotes.length = 1 := by
  have evaluated : (run (processStep config ⟨[]⟩) (config.boot (polynomialOf 1))
      sharesThenProposal).map (fun process =>
        (process.main.isLive, process.allVotes.length)) = some (true, 1) := by
    decide +kernel
  rcases Option.map_eq_some_iff.mp evaluated with ⟨process, reached, observed⟩
  rw [Prod.mk.injEq] at observed
  exact ⟨process, reached, MainTask.eq_live_of_isLive observed.1, observed.2⟩

/-- The first theorem at a process that has ingested the shares of three peers. -/
theorem process_refines_node_afterShares :
    ∃ process pbftState share calls,
      run (processStep config ⟨[]⟩) (config.boot (polynomialOf 1))
          sharesThenProposal = some process ∧
        config.Bootstrapped ⟨[]⟩ (polynomialOf 1) sharesThenProposal pbftState
          share ∧
        run nodeStep ⟨1, some share, some pbftState⟩
            (calls.map NodeEvent.ofCall) =
          some ⟨1, process.selfSk, process.state⟩ ∧
        process.allVotes.length = 1 ∧
        ∀ out ∈ process.allVotes,
          AnsweredIn ⟨1, some share, some pbftState⟩ calls out := by
  rcases sharesThenProposal_reached with ⟨process, reached, live, single⟩
  rcases process_refines_node reached live with
    ⟨pbftState, share, calls, bootstrapped, ran, _, answered⟩
  exact ⟨process, pbftState, share, calls, reached, bootstrapped, ran, single,
    answered⟩

/-- The second theorem at the same process. -/
theorem processVotes_verify_afterShares :
    ∃ process out state pk,
      run (processStep config ⟨[]⟩) (config.boot (polynomialOf 1))
          sharesThenProposal = some process ∧
        out ∈ process.allVotes ∧ process.state = some state ∧
        state.publicKeys.get? 1 = some pk ∧
          verifyBlsSignature out.canonicalBytes out.signature pk = true := by
  rcases sharesThenProposal_reached with ⟨process, reached, _, single⟩
  rcases List.length_eq_one_iff.mp single with ⟨out, only⟩
  have member : out ∈ process.allVotes := by simp [only]
  rcases processVotes_verify (by decide) (by decide) (by decide) rfl reached out
    member with ⟨_, state, pk, held, known, verified⟩
  exact ⟨process, out, state, pk, reached, member, held, known, verified⟩

end SmallRun

end SovereignLattice
