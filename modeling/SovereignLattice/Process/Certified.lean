import SovereignLattice.Process.Refinement
import SovereignLattice.Replica.CertificateFailures

/-!
# Certificates of a bootstrapped process

Whatever shares the peers have sent, the keys that a process installs are those of one
polynomial, so the process never assembles a certificate that fails its own check.
-/

namespace SovereignLattice

section Certified

variable [Curve]

/-- `G2` has prime order: every point is a multiple of the generator. -/
def Generated : Prop :=
  ∀ point : G2Projective, ∃ scalar : Scalar, point = scalar • Curve.g2Generator

theorem Generated.exists_coefficients (generated : Generated) :
    ∀ points : List G2Projective, ∃ coefficients : List Scalar,
      points = coefficients.map fun coefficient => coefficient • Curve.g2Generator
  | [] => ⟨[], rfl⟩
  | point :: rest => by
      rcases generated point with ⟨scalar, rfl⟩
      rcases Generated.exists_coefficients generated rest with ⟨coefficients, rfl⟩
      exact ⟨scalar :: coefficients, rfl⟩

theorem topology_of_started {totalNodes : Nat}
    {initialPublicKeys : AssocMap UInt32 G2Projective}
    {masterPublicKey : G2Projective} {wal : WriteAheadLog} {state : PbftState}
    (started : newWithWalPath totalNodes initialPublicKeys masterPublicKey wal =
      .ok state) :
    state.totalNodes = totalNodes ∧ state.publicKeys = initialPublicKeys ∧
      state.masterPublicKey = masterPublicKey := by
  rcases newWithWalPath_eq_ok.mp started with ⟨topology, built, recovers⟩
  have same : state.toTopology = topology := by
    rcases Topology.recover_eq_ok.mp recovers with ⟨_, _, _, rfl⟩
    rfl
  rw [same]
  rw [Topology.new] at built
  split at built
  · cases built
  split at built
  · cases built
  split at built
  · cases built
    exact ⟨rfl, rfl, rfl⟩
  · cases built

variable [Encodings]

/-- The keys of a bootstrap are those of one polynomial of as many coefficients as the
threshold. -/
theorem dealtKeys_of_bootstrap {config : NodeConfig} {secretPolynomial : List Scalar}
    {events : List InboundEvent} {final : Ingest} {share : Scalar}
    {masterPk : G2Projective} {wal : WriteAheadLog} {state : PbftState}
    (generated : Generated) (small : config.totalNodes < Curve.order)
    (word : config.totalNodes < 2 ^ 32)
    (below : config.nodeId.toNat < config.totalNodes)
    (positive : 1 ≤ config.threshold)
    (length : secretPolynomial.length = config.threshold)
    (degree : config.threshold ≤ 2 * ((config.totalNodes - 1) / 3) + 1)
    (ended : config.ingestLoop (config.start secretPolynomial) events =
      some (.ok final))
    (finalized : final.session.finalizeDkg (participants config.totalNodes) =
      .ok (share, masterPk))
    (started : newWithWalPath config.totalNodes (config.registry final) masterPk wal =
      .ok state) :
    ∃ coefficients, DealtKeys state.toTopology coefficients := by
  rcases NodeConfig.len_of_ingestLoop_ok ended with ⟨sound, count⟩
  have complete := sound.complete_of_finalizeDkg word below positive length count
    finalized
  have sums := ((sound.finalizeDkg_eq_ok word below positive length).mp finalized).2
  rw [Prod.mk.injEq] at sums
  have master := sums.2
  rw [sound.sum_commitmentsOf word below length complete] at master
  have size : (config.jointCommitments final).length = config.threshold :=
    length_pointwiseSum (sound.length_dealtCommitments length complete)
  rcases generated.exists_coefficients (config.jointCommitments final) with
    ⟨coefficients, joint⟩
  rcases topology_of_started started with ⟨nodes, keys, masterKey⟩
  have shape := state.totalNodes_eq
  have quorum := state.quorumSize_eq
  refine ⟨coefficients, ?_, by rw [nodes]; exact small, ?_, ?_⟩
  · rw [joint, List.length_map] at size
    omega
  · rw [masterKey, master, joint, powerSum_map_smul]
  · intro id registered
    rw [state.registeredNodes_eq, nodes] at registered
    have known := (toNat_lt_of_mem_nodeIds registered).1
    rw [keys, NodeConfig.get?_registry config final word known,
      sound.registryKey_eq word length complete, joint, powerSum_map_smul]

omit [Encodings] in
/-- What every call of the handler keeps holds of the state of a node that receives
packets. -/
theorem Node.state_invariant_of_run {invariant : PbftState → Prop}
    (kept : ∀ state msg io, invariant state →
      invariant (state.handleMessage msg io).2)
    {start node : Node} {state : PbftState} {calls : List (Packet × WalIo)}
    (held : start.state = some state) (initially : invariant state)
    (ran : run nodeStep start (calls.map NodeEvent.ofCall) = some node) :
    ∃ after, node.state = some after ∧ invariant after := by
  induction calls generalizing start state with
  | nil =>
      cases ran
      exact ⟨state, held, initially⟩
  | cons call rest inductionHypothesis =>
      rcases run_cons_eq_some.mp ran with ⟨next, stepped, continued⟩
      have handled := start.handleConnection_handled call.1 call.2
      have reached : next = (start.handleConnection call.1 call.2).2 :=
        (Option.some.inj stepped).symm
      rw [← reached] at handled
      generalize Node.sent (start.handleConnection call.1 call.2).1 = out
        at handled
      cases handled with
      | ignored => exact inductionHypothesis held initially continued
      | handled msg current error _ isHeld =>
          cases held.symm.trans isHeld
          exact inductionHypothesis rfl (kept state msg _ initially) continued
      | answered msg current sk response _ isHeld =>
          cases held.symm.trans isHeld
          exact inductionHypothesis rfl (kept state msg _ initially) continued

omit [Encodings] in
theorem VotesVerified.answer_ne {state : PbftState} (verified : VotesVerified state)
    {coefficients : List Scalar} (dealt : DealtKeys state.toTopology coefficients)
    (msg : PbftMessage) (io : WalIo) :
    (state.handleMessage msg io).1 ≠ .error .certificateVerificationFailed ∧
      (state.handleMessage msg io).1 ≠ .error .newViewVerificationFailed := by
  by_cases shell : PbftState.IsShellAnswer (state.handleMessage msg io).1
  · constructor
    all_goals
      intro answer
      simp [PbftState.IsShellAnswer, answer] at shell
  · rcases PbftState.stage_of_handleMessage shell with ⟨authenticated, answered, _⟩
    rw [← answered]
    exact stage_certified dealt verified authenticated

omit [Encodings] in
/-- The votes that the replica has stored verify, and its keys are dealt. -/
def DealtAndVerified (coefficients : List Scalar) (state : PbftState) : Prop :=
  VotesVerified state ∧ DealtKeys state.toTopology coefficients

omit [Encodings] in
theorem DealtAndVerified.handleMessage {coefficients : List Scalar}
    {state : PbftState} (holds : DealtAndVerified coefficients state)
    (msg : PbftMessage) (io : WalIo) :
    DealtAndVerified coefficients (state.handleMessage msg io).2 := by
  refine ⟨holds.1.handleMessage msg io, ?_⟩
  rw [state.handleMessage_sameTopology msg io]
  exact holds.2

/-- A process with a threshold of at most a quorum never fails on a certificate of its
own: whatever shares and packets its peers have sent in whatever order, its keys are
those of one polynomial, every quorum of verified votes passes the threshold check under
the master key that it has installed, and no message is answered with a certificate
failure. -/
theorem processCertificates_verify {config : ServerConfig} {wal : WriteAheadLog}
    {secretPolynomial : List Scalar} {actions : List ProcessAction}
    {process : Process} (generated : Generated)
    (small : config.totalNodes < Curve.order)
    (word : config.totalNodes < 2 ^ 32)
    (below : config.nodeId.toNat < config.totalNodes)
    (positive : 1 ≤ config.threshold)
    (length : secretPolynomial.length = config.threshold)
    (degree : config.threshold ≤ 2 * ((config.totalNodes - 1) / 3) + 1)
    (reached : run (processStep config wal) (config.boot secretPolynomial) actions =
      some process)
    (live : process.main = .live) :
    ∃ state, process.state = some state ∧
      (∃ coefficients, DealtKeys state.toTopology coefficients) ∧
      (∀ msg io,
        (state.handleMessage msg io).1 ≠ .error .certificateVerificationFailed ∧
          (state.handleMessage msg io).1 ≠ .error .newViewVerificationFailed) ∧
      ∀ phase key (sigs : SignatureMap),
        (∀ sender signature, sigs.get? sender = some signature →
          state.toTopology.Verifies phase key sender signature) →
        state.quorumSize ≤ sigs.len →
          verifyThresholdSignature
            (canonicalMsg phase.toU8 key.1 key.2.1 key.2.2) sigs
              state.masterPublicKey state.quorumSize = true := by
  rcases Process.serialised_of_run reached with ⟨serial, ran, serialised⟩
  have node := serialised.node
  rw [Process.node_of_live live] at node
  have installed := (Process.Sound.of_run reached).installed
  rw [live] at installed
  rcases SerialTraced.of_run ran with
    ⟨waits, _⟩ | ⟨pbftState, share, calls, _, isInstalled, _, ranNode, _⟩
  · rw [waits, Node.mk.injEq] at node
    rw [← node.2.2] at installed
    cases installed.1
  rw [node] at ranNode
  rcases bootstrapped_of_served reached isInstalled with
    ⟨msgs, final, masterPk, _, ended, finalized, started⟩
  rcases dealtKeys_of_bootstrap generated small word below positive length degree ended
    finalized started with ⟨coefficients, dealt⟩
  rcases newWithWalPath_eq_ok.mp started with ⟨topology, _, recovers⟩
  have initially : DealtAndVerified coefficients pbftState :=
    ⟨votesVerified_of_recover recovers, dealt⟩
  have kept : ∀ state msg io, DealtAndVerified coefficients state →
      DealtAndVerified coefficients (state.handleMessage msg io).2 :=
    fun _ msg io holds => holds.handleMessage msg io
  rcases Node.state_invariant_of_run kept rfl initially ranNode with
    ⟨state, held, verified, dealtNow⟩
  exact ⟨state, held, ⟨coefficients, dealtNow⟩, verified.answer_ne dealtNow,
    fun _ _ _ verifies quorum => dealtNow.certified verifies quorum⟩

end Certified

section SmallRun

open FourProcess

attribute [local instance] smallCurve smallEncodings

/-- The theorem at a process that has ingested the shares of three peers. -/
theorem processCertificates_verify_afterShares :
    ∃ process state,
      run (processStep config ⟨[]⟩) (config.boot (polynomialOf 1))
          sharesThenProposal = some process ∧
        process.state = some state ∧
        (∃ coefficients, DealtKeys state.toTopology coefficients) ∧
        ∀ msg io, (state.handleMessage msg io).1 ≠
          .error .certificateVerificationFailed := by
  rcases sharesThenProposal_reached with ⟨process, reached, live, _⟩
  have multiple : ∀ value : ZMod 251, value = value * 1 :=
    fun value => (mul_one value).symm
  have generated : Generated := fun point => ⟨point, multiple point⟩
  rcases processCertificates_verify generated (by decide) (by decide) (by decide)
    (by decide) rfl (by decide) reached live with ⟨state, held, dealt, answers, _⟩
  exact ⟨process, state, reached, held, dealt, fun msg io => (answers msg io).1⟩

end SmallRun

end SovereignLattice
