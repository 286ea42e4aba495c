import SovereignLattice.Dkg.ForeignMessages
import SovereignLattice.Foundations.Runs

/-!
# Agreement on the dealt keys

Nodes that run the bootstrap side by side, while everybody else may put any message
into their inbound channels.  No node compares what it was dealt with what the
others were dealt, so they agree as long as each dealer is consistent.
-/

namespace SovereignLattice

section DealerAgreement

variable [Curve] [Encodings]

/-- Where a node's bootstrap stands: in the loop, or out of it. -/
inductive BootstrapPhase where
  | ingesting (ingest : Ingest)
  | ended (result : Except BootstrapError Ingest)

namespace NodeConfig

/-- The loop before anything has arrived. -/
def enter (config : NodeConfig) (ingest : Ingest) : BootstrapPhase :=
  match config.ingestLoop ingest [] with
  | none => .ingesting ingest
  | some result => .ended result

/-- One round of the loop. -/
def receive (config : NodeConfig) :
    BootstrapPhase → InboundEvent → BootstrapPhase
  | .ended result, _ => .ended result
  | .ingesting ingest, event =>
      match config.ingestLoop ingest [event], event with
      | some result, _ => .ended result
      | none, .message msg => .ingesting (config.ingestMessage ingest msg)
      | none, _ => .ingesting ingest

end NodeConfig

/-! ## Rounds of the loop -/

namespace NodeConfig

variable {config : NodeConfig} {ingest : Ingest}

theorem enter_of_few
    (few : ingest.collectedPeers.len < config.totalNodes - 1) :
    config.enter ingest = .ingesting ingest := by
  rw [enter, ingestLoop_nil_of_few few]

theorem enter_of_enough
    (enough : ¬ ingest.collectedPeers.len < config.totalNodes - 1) :
    config.enter ingest = .ended (.ok ingest) := by
  rw [enter, ingestLoop_of_enough enough]

theorem receive_message
    (few : ingest.collectedPeers.len < config.totalNodes - 1)
    (msg : DkgShareMessage) :
    config.receive (.ingesting ingest) (.message msg) =
      config.enter (config.ingestMessage ingest msg) := by
  have round := ingestLoop_message few msg []
  unfold receive enter
  simp only [round]
  cases config.ingestLoop (config.ingestMessage ingest msg) [] with
  | none => rfl
  | some => rfl

theorem receive_failed {event : InboundEvent} {error : BootstrapError}
    (failed : ∀ rest, config.ingestLoop ingest (event :: rest) =
      some (.error error)) :
    config.receive (.ingesting ingest) event = .ended (.error error) := by
  simp [receive, failed []]

theorem foldl_receive_ended (result : Except BootstrapError Ingest)
    (events : List InboundEvent) :
    events.foldl config.receive (.ended result) = .ended result := by
  induction events with
  | nil => rfl
  | cons event rest inductionHypothesis => exact inductionHypothesis

/-- Round by round, the loop is the loop. -/
theorem ingestLoop_eq_some_iff {events : List InboundEvent}
    {result : Except BootstrapError Ingest} :
    config.ingestLoop ingest events = some result ↔
      events.foldl config.receive (config.enter ingest) = .ended result := by
  induction events generalizing ingest with
  | nil =>
      by_cases few : ingest.collectedPeers.len < config.totalNodes - 1
      · simp [enter_of_few few, ingestLoop_nil_of_few few]
      · simp [enter_of_enough few, ingestLoop_of_enough few]
  | cons event rest inductionHypothesis =>
      by_cases few : ingest.collectedPeers.len < config.totalNodes - 1
      · rw [enter_of_few few, List.foldl_cons]
        rcases event_cases few event with ⟨msg, rfl⟩ | ⟨error, failed⟩
        · rw [receive_message few, ingestLoop_message few, inductionHypothesis]
        · rw [receive_failed failed, failed, foldl_receive_ended]
          simp
      · rw [enter_of_enough few, foldl_receive_ended, ingestLoop_of_enough few]
        simp

/-- A node in the loop waits for more dealers, and one whose loop has ended has as
many as it waits for. -/
def SoundPhase (config : NodeConfig) (secretPolynomial : List Scalar) :
    BootstrapPhase → Prop
  | .ingesting ingest =>
      config.Sound secretPolynomial ingest ∧
        ingest.collectedPeers.len < config.totalNodes - 1
  | .ended (.ok final) =>
      config.Sound secretPolynomial final ∧
        final.collectedPeers.len = config.totalNodes - 1
  | .ended (.error _) => True

variable {secretPolynomial : List Scalar}

theorem Sound.enter (sound : config.Sound secretPolynomial ingest)
    (bound : ingest.collectedPeers.len ≤ config.totalNodes - 1) :
    config.SoundPhase secretPolynomial (config.enter ingest) := by
  by_cases few : ingest.collectedPeers.len < config.totalNodes - 1
  · rw [enter_of_few few]
    exact ⟨sound, few⟩
  · rw [enter_of_enough few]
    exact ⟨sound, by omega⟩

theorem SoundPhase.receive {phase : BootstrapPhase}
    (sound : config.SoundPhase secretPolynomial phase) (event : InboundEvent) :
    config.SoundPhase secretPolynomial (config.receive phase event) := by
  cases phase with
  | ended result => exact sound
  | ingesting ingest =>
      rcases sound with ⟨soundIngest, few⟩
      rcases event_cases few event with ⟨msg, rfl⟩ | ⟨error, failed⟩
      · rw [receive_message few]
        have grown := soundIngest.len_ingestMessage_le msg
        exact (soundIngest.ingestMessage msg).enter (by omega)
      · rw [receive_failed failed]
        trivial

end NodeConfig

/-! ## The nodes together -/

/-- The configuration that the nodes share, and the honest ones' polynomials. -/
structure DkgSetup where
  totalNodes : Nat
  threshold : Nat
  honest : Finset UInt32
  polynomials : UInt32 → List Scalar
  positive : 1 ≤ threshold
  inRange : ∀ id ∈ honest, id.toNat < totalNodes
  length : ∀ id ∈ honest, (polynomials id).length = threshold

/-- What happens to the inbound channel of an honest node: another honest node's
message arrives, or anything else is found there. -/
inductive DkgAction where
  | deal (sender receiver : UInt32)
  | inject (receiver : UInt32) (event : InboundEvent)

/-- The bootstraps of all nodes. -/
abbrev Phases : Type :=
  UInt32 → BootstrapPhase

namespace DkgSetup

def config (setup : DkgSetup) (id : UInt32) : NodeConfig where
  nodeId := id
  totalNodes := setup.totalNodes
  threshold := setup.threshold

def startOf (setup : DkgSetup) (id : UInt32) : Ingest :=
  (setup.config id).start (setup.polynomials id)

def start (setup : DkgSetup) : Phases := fun id =>
  (setup.config id).enter (setup.startOf id)

/-- The message of a dealer for a node. -/
def dealt (setup : DkgSetup) (sender receiver : UInt32) : DkgShareMessage :=
  (setup.startOf sender).session.shareMessageFor receiver

/-- The node that an action is for, and what its loop finds. -/
def target (setup : DkgSetup) : DkgAction → UInt32 × InboundEvent
  | .deal sender receiver => (receiver, .message (setup.dealt sender receiver))
  | .inject receiver event => (receiver, event)

/-- Only honest nodes deal by the protocol, and only their channels are modelled. -/
def Enabled (setup : DkgSetup) : DkgAction → Prop
  | .deal sender receiver =>
      sender ∈ setup.honest ∧ receiver ∈ setup.honest ∧ sender ≠ receiver
  | .inject receiver _ => receiver ∈ setup.honest

instance (setup : DkgSetup) (action : DkgAction) :
    Decidable (setup.Enabled action) := by
  cases action <;> unfold Enabled <;> infer_instance

def step (setup : DkgSetup) (phases : Phases) (action : DkgAction) :
    Option Phases :=
  if setup.Enabled action then
    let (receiver, event) := setup.target action
    some (Function.update phases receiver
      ((setup.config receiver).receive (phases receiver) event))
  else
    none

/-- What the loop of a node finds in a run. -/
def inbound (setup : DkgSetup) (id : UInt32) (actions : List DkgAction) :
    List InboundEvent :=
  actions.filterMap fun action =>
    if (setup.target action).1 = id then some (setup.target action).2 else none

/-- The commitments that a node knows in a phase, its own included.  A node whose
loop has failed keeps its own. -/
def knownIn (setup : DkgSetup) (id : UInt32) :
    BootstrapPhase → AssocMap UInt32 (List G2Projective)
  | .ingesting ingest => ingest.session.allCommitments
  | .ended (.ok final) => final.session.allCommitments
  | .ended (.error _) => (setup.startOf id).session.allCommitments

def known (setup : DkgSetup) (phases : Phases) (id : UInt32) :
    AssocMap UInt32 (List G2Projective) :=
  setup.knownIn id (phases id)

/-- The next round of the node collects the message under the id of a configured
peer. -/
def Collects (setup : DkgSetup) (phases : Phases) (receiver : UInt32)
    (msg : DkgShareMessage) : Prop :=
  match phases receiver with
  | .ingesting ingest =>
      (setup.config receiver).Accepts msg ∧
        (ingest.collectedPeers.get? msg.fromNode).isNone = true ∧
        msg.fromNode ∈ (setup.config receiver).peers
  | .ended _ => False

instance (setup : DkgSetup) (phases : Phases) (receiver : UInt32)
    (msg : DkgShareMessage) :
    Decidable (setup.Collects phases receiver msg) := by
  unfold Collects
  cases phases receiver <;> infer_instance

/-- A message that did not come from an honest dealer and is collected shows the
commitments that every other honest node knows of the dealer it names. -/
def Consistent (setup : DkgSetup) (phases : Phases) : DkgAction → Prop
  | .inject receiver (.message msg) =>
      setup.Collects phases receiver msg →
        ∀ other ∈ setup.honest, other ≠ receiver →
          (setup.known phases other).get? msg.fromNode = none ∨
            (setup.known phases other).get? msg.fromNode = some msg.commitments
  | _ => True

instance (setup : DkgSetup) (phases : Phases) (action : DkgAction) :
    Decidable (setup.Consistent phases action) := by
  unfold Consistent
  split
  · exact @instDecidableForall _ _ inferInstance Finset.decidableDforallFinset
  · exact instDecidableTrue

/-! ## What a round adds -/

variable {setup : DkgSetup}

/-- The commitments of an honest dealer. -/
def own (setup : DkgSetup) (id : UInt32) : List G2Projective :=
  (setup.startOf id).session.generateCommitments

theorem knownIn_enter (setup : DkgSetup) (id : UInt32) (ingest : Ingest) :
    setup.knownIn id ((setup.config id).enter ingest) =
      ingest.session.allCommitments := by
  by_cases few : ingest.collectedPeers.len < (setup.config id).totalNodes - 1
  · rw [NodeConfig.enter_of_few few]
    rfl
  · rw [NodeConfig.enter_of_enough few]
    rfl

omit [Encodings] in
theorem get?_allCommitments {id : UInt32} {ingest : Ingest}
    (sound : (setup.config id).Sound (setup.polynomials id) ingest)
    (dealer : UInt32) :
    ingest.session.allCommitments.get? dealer =
      if dealer = id then
        some (setup.own id)
      else
        ingest.collectedPeers.get? dealer := by
  have same : ingest.session.generateCommitments = setup.own id := by
    rw [own, DkgSession.generateCommitments, sound.polynomial]
    rfl
  rw [DkgSession.allCommitments, AssocMap.get?_insert, sound.nodeId,
    sound.collected, same]
  rfl

omit [Encodings] in
theorem get?_startOf (setup : DkgSetup) (id dealer : UInt32) :
    (setup.startOf id).session.allCommitments.get? dealer =
      if dealer = id then some (setup.own id) else none := by
  have sound := (setup.config id).sound_start (setup.polynomials id)
  exact get?_allCommitments sound dealer

omit [Encodings] in
theorem get?_knownIn_self {id : UInt32} {phase : BootstrapPhase}
    (sound : (setup.config id).SoundPhase (setup.polynomials id) phase) :
    (setup.knownIn id phase).get? id = some (setup.own id) := by
  cases phase with
  | ingesting ingest =>
      rw [knownIn, get?_allCommitments sound.1, if_pos rfl]
  | ended result =>
      cases result with
      | error => rw [knownIn, get?_startOf, if_pos rfl]
      | ok final => rw [knownIn, get?_allCommitments sound.1, if_pos rfl]

/-- A round adds nothing to what a node knows, except for the dealer of a message
that it collects. -/
theorem known_of_receive {id dealer : UInt32} {phase : BootstrapPhase}
    {event : InboundEvent} {commitments : List G2Projective}
    (sound : (setup.config id).SoundPhase (setup.polynomials id) phase)
    (held : (setup.knownIn id ((setup.config id).receive phase event)).get?
      dealer = some commitments) :
    (setup.knownIn id phase).get? dealer = some commitments ∨
      ∃ ingest msg, phase = .ingesting ingest ∧ event = .message msg ∧
        (setup.config id).Accepts msg ∧
        (ingest.collectedPeers.get? msg.fromNode).isNone = true ∧
        msg.fromNode = dealer ∧ dealer ≠ id ∧ msg.commitments = commitments := by
  have self := get?_knownIn_self sound
  cases phase with
  | ended result => exact .inl held
  | ingesting ingest =>
      rcases sound with ⟨soundIngest, few⟩
      rcases NodeConfig.event_cases few event with ⟨msg, rfl⟩ | ⟨error, failed⟩
      · rw [NodeConfig.receive_message few, knownIn_enter,
          soundIngest.ingestMessage_eq] at held
        split at held
        · rename_i accepted
          rw [get?_allCommitments (soundIngest.collect accepted.1)] at held
          by_cases same : dealer = id
          · rw [if_pos same] at held
            rw [same, self]
            exact .inl held
          · rw [if_neg same, NodeConfig.collect, AssocMap.get?_insert] at held
            by_cases named : dealer = msg.fromNode
            · rw [if_pos named, Option.some.injEq] at held
              exact .inr ⟨ingest, msg, rfl, rfl, accepted.1, accepted.2,
                named.symm, same, held⟩
            · rw [if_neg named] at held
              rw [knownIn, get?_allCommitments soundIngest, if_neg same]
              exact .inl held
        · exact .inl held
      · rw [NodeConfig.receive_failed failed, knownIn, get?_startOf] at held
        split at held
        · rename_i same
          rw [same, self]
          exact .inl held
        · cases held

/-! ## What honest nodes know of one dealer -/

/-- Two honest nodes never know different commitments of one configured dealer. -/
structure Agreeing (setup : DkgSetup) (phases : Phases) : Prop where
  sound : ∀ id ∈ setup.honest,
    (setup.config id).SoundPhase (setup.polynomials id) (phases id)
  agree : ∀ first ∈ setup.honest, ∀ second ∈ setup.honest,
    ∀ dealer ∈ participants setup.totalNodes, ∀ one another,
      (setup.known phases first).get? dealer = some one →
        (setup.known phases second).get? dealer = some another → one = another

theorem agreeing_start (setup : DkgSetup) : setup.Agreeing setup.start where
  sound id _ :=
    ((setup.config id).sound_start (setup.polynomials id)).enter (Nat.zero_le _)
  agree first _ second _ dealer _ one another firstKnown secondKnown := by
    rw [known, start, knownIn_enter, get?_startOf] at firstKnown secondKnown
    split at firstKnown
    · rename_i isFirst
      split at secondKnown
      · rename_i isSecond
        subst isFirst
        subst isSecond
        rw [firstKnown, Option.some.injEq] at secondKnown
        exact secondKnown
      · cases secondKnown
    · cases firstKnown

/-- An action changes the phase of its target only. -/
theorem step_eq_some {phases next : Phases} {action : DkgAction}
    (stepped : setup.step phases action = some next) :
    setup.Enabled action ∧
      next = Function.update phases (setup.target action).1
        ((setup.config (setup.target action).1).receive
          (phases (setup.target action).1) (setup.target action).2) := by
  rw [step] at stepped
  split at stepped
  · rename_i enabled
    rw [Option.some.injEq] at stepped
    exact ⟨enabled, stepped.symm⟩
  · cases stepped

theorem target_honest {action : DkgAction} (enabled : setup.Enabled action) :
    (setup.target action).1 ∈ setup.honest := by
  cases action with
  | deal sender receiver => exact enabled.2.1
  | inject receiver event => exact enabled

/-- What the target of an action comes to know is what the others know. -/
theorem Agreeing.known_of_receive {phases : Phases}
    (agreeing : setup.Agreeing phases) {action : DkgAction}
    (enabled : setup.Enabled action)
    (consistent : setup.Consistent phases action) {receiver other dealer : UInt32}
    {one another : List G2Projective} (isTarget : (setup.target action).1 = receiver)
    (honest : other ∈ setup.honest) (different : other ≠ receiver)
    (configured : dealer ∈ participants setup.totalNodes)
    (held : (setup.knownIn receiver ((setup.config receiver).receive
      (phases receiver) (setup.target action).2)).get? dealer = some one)
    (otherKnown : (setup.known phases other).get? dealer = some another) :
    one = another := by
  have target : receiver ∈ setup.honest := by
    rw [← isTarget]
    exact target_honest enabled
  rcases DkgSetup.known_of_receive (agreeing.sound receiver target) held with
    before | ⟨ingest, msg, phase, event, accepts, isNew, named, foreign, same⟩
  · exact agreeing.agree receiver target other honest dealer configured one
      another before otherKnown
  · cases action with
    | deal sender receiver =>
        -- An honest dealer's message shows what the dealer itself knows.
        rcases enabled with ⟨senderHonest, _, _⟩
        have self := get?_knownIn_self (agreeing.sound sender senderHonest)
        injection event with sent
        rw [← sent] at named same
        have isSender : sender = dealer := named
        subst isSender
        rw [← same]
        exact agreeing.agree sender senderHonest other honest sender configured
          _ _ self otherKnown
    | inject injected found =>
        have isInjected : injected = receiver := isTarget
        subst isInjected
        have isMessage : found = .message msg := event
        subst isMessage
        have collects : setup.Collects phases injected msg := by
          rw [Collects, phase]
          refine ⟨accepts, isNew, ?_⟩
          rw [named]
          exact List.mem_filter.mpr ⟨configured, by simpa [config] using foreign⟩
        rw [Consistent, named] at consistent
        rcases consistent collects other honest different with none | some
        · rw [none] at otherKnown
          cases otherKnown
        · rw [some, Option.some.injEq, same] at otherKnown
          exact otherKnown

/-- Consistent actions keep the agreement. -/
theorem Agreeing.step {phases next : Phases} {action : DkgAction}
    (agreeing : setup.Agreeing phases)
    (consistent : setup.Consistent phases action)
    (stepped : setup.step phases action = some next) : setup.Agreeing next := by
  rcases step_eq_some stepped with ⟨enabled, rfl⟩
  have target := target_honest enabled
  constructor
  · intro id honest
    by_cases isTarget : id = (setup.target action).1
    · subst isTarget
      rw [Function.update_self]
      exact (agreeing.sound _ honest).receive _
    · rw [Function.update_of_ne isTarget]
      exact agreeing.sound id honest
  · intro first firstHonest second secondHonest dealer configured one another
      firstKnown secondKnown
    rw [known] at firstKnown secondKnown
    by_cases firstTarget : first = (setup.target action).1
    · by_cases secondTarget : second = (setup.target action).1
      · rw [firstTarget] at firstKnown
        rw [secondTarget, firstKnown, Option.some.injEq] at secondKnown
        exact secondKnown
      · rw [firstTarget, Function.update_self] at firstKnown
        rw [Function.update_of_ne secondTarget] at secondKnown
        exact agreeing.known_of_receive enabled consistent rfl secondHonest
          secondTarget configured firstKnown secondKnown
    · rw [Function.update_of_ne firstTarget] at firstKnown
      by_cases secondTarget : second = (setup.target action).1
      · rw [secondTarget, Function.update_self] at secondKnown
        exact (agreeing.known_of_receive enabled consistent rfl firstHonest
          firstTarget configured secondKnown firstKnown).symm
      · rw [Function.update_of_ne secondTarget] at secondKnown
        exact agreeing.agree first firstHonest second secondHonest dealer
          configured one another firstKnown secondKnown

/-- In a run, each node goes through the rounds of its own loop. -/
theorem phase_of_run {phases final : Phases} {actions : List DkgAction}
    (reached : run setup.step phases actions = some final) (id : UInt32) :
    final id = (setup.inbound id actions).foldl (setup.config id).receive
      (phases id) := by
  induction actions generalizing phases with
  | nil =>
      rw [run_nil, Option.some.injEq] at reached
      rw [← reached]
      rfl
  | cons action rest inductionHypothesis =>
      rcases run_cons_eq_some.mp reached with ⟨next, stepped, continued⟩
      rcases step_eq_some stepped with ⟨_, rfl⟩
      rw [inductionHypothesis continued, inbound, inbound]
      by_cases isTarget : (setup.target action).1 = id
      · subst isTarget
        simp
      · rw [Function.update_of_ne (Ne.symm isTarget)]
        simp [isTarget]

/-! ## What completed nodes hold -/

theorem phase_of_ended {final : Phases} {actions : List DkgAction} {id : UInt32}
    {ingest : Ingest}
    (reached : run setup.step setup.start actions = some final)
    (ended : (setup.config id).ingestLoop (setup.startOf id)
      (setup.inbound id actions) = some (.ok ingest)) :
    final id = .ended (.ok ingest) := by
  rw [phase_of_run reached id]
  exact NodeConfig.ingestLoop_eq_some_iff.mp ended

omit [Encodings] in
/-- A completed node knows all configured dealers, and evaluates the sum of what
they dealt. -/
theorem completed (word : setup.totalNodes < 2 ^ 32) {id : UInt32}
    (honest : id ∈ setup.honest) {ingest : Ingest}
    (sound : (setup.config id).SoundPhase (setup.polynomials id)
      (.ended (.ok ingest)))
    {share : Scalar} {masterPk : G2Projective}
    (finalized : ingest.session.finalizeDkg (participants setup.totalNodes) =
      .ok (share, masterPk)) :
    (∀ dealer ∈ participants setup.totalNodes,
        ∃ commitments, ingest.session.allCommitments.get? dealer =
          some commitments) ∧
      masterPk = ((participants setup.totalNodes).map fun dealer =>
        powerSum (0 : Scalar) (ingest.session.commitmentsOf dealer)).sum ∧
      ∀ of, (setup.config id).registryKey ingest of =
        ((participants setup.totalNodes).map fun dealer =>
          powerSum (evaluationPoint of)
            (ingest.session.commitmentsOf dealer)).sum := by
  rcases sound with ⟨soundIngest, count⟩
  have below := setup.inRange id honest
  have length := setup.length id honest
  have complete := soundIngest.complete_of_finalizeDkg word below setup.positive
    length count finalized
  have sums := ((soundIngest.finalizeDkg_eq_ok word below setup.positive
    length).mp finalized).2
  refine ⟨?_, (Prod.mk.inj sums).2, ?_⟩
  · intro dealer configured
    rw [get?_allCommitments soundIngest]
    by_cases self : dealer = id
    · exact ⟨_, if_pos self⟩
    · rw [if_neg self, ← AssocMap.mem_keys_iff, ← AssocMap.mem_keySet, complete,
        List.mem_toFinset]
      exact List.mem_filter.mpr ⟨configured, by simpa [config] using self⟩
  · intro of
    rw [soundIngest.registryKey_eq word length complete]
    exact (soundIngest.sum_commitmentsOf word below length complete _).symm

end DkgSetup

/-- If every message that is injected into a run and collected shows the commitments
that the other honest nodes know of its dealer, all honest nodes that complete hold
one master key and one registry. -/
theorem honestNodes_agree {setup : DkgSetup}
    (word : setup.totalNodes < 2 ^ 32 ∨ 2 ^ 32 + 1 < setup.totalNodes)
    {actions : List DkgAction} {final : Phases}
    (reached : run setup.step setup.start actions = some final)
    (consistent : Along setup.step setup.Consistent setup.start actions)
    {first second : UInt32} (firstHonest : first ∈ setup.honest)
    (secondHonest : second ∈ setup.honest) {firstIngest secondIngest : Ingest}
    (firstEnded : (setup.config first).ingestLoop (setup.startOf first)
      (setup.inbound first actions) = some (.ok firstIngest))
    (secondEnded : (setup.config second).ingestLoop (setup.startOf second)
      (setup.inbound second actions) = some (.ok secondIngest))
    {firstShare secondShare : Scalar} {firstKey secondKey : G2Projective}
    (firstFinal : firstIngest.session.finalizeDkg
      (participants setup.totalNodes) = .ok (firstShare, firstKey))
    (secondFinal : secondIngest.session.finalizeDkg
      (participants setup.totalNodes) = .ok (secondShare, secondKey)) :
    firstKey = secondKey ∧
      (setup.config first).registry firstIngest =
        (setup.config second).registry secondIngest := by
  have agreeing : setup.Agreeing final :=
    invariant_of_along
      (fun _ _ _ before allowed stepped => before.step allowed stepped)
      setup.agreeing_start consistent reached
  have firstPhase := DkgSetup.phase_of_ended reached firstEnded
  have secondPhase := DkgSetup.phase_of_ended reached secondEnded
  have firstSound := agreeing.sound first firstHonest
  have secondSound := agreeing.sound second secondHonest
  rw [firstPhase] at firstSound
  rw [secondPhase] at secondSound
  have small : setup.totalNodes < 2 ^ 32 := by
    have count : firstIngest.collectedPeers.len = setup.totalNodes - 1 :=
      firstSound.2
    have bound := firstIngest.collectedPeers.len_le_two_pow
    omega
  rcases DkgSetup.completed small firstHonest firstSound firstFinal with
    ⟨firstKnows, firstMaster, firstRegistry⟩
  rcases DkgSetup.completed small secondHonest secondSound secondFinal with
    ⟨secondKnows, secondMaster, secondRegistry⟩
  have same : ∀ dealer ∈ participants setup.totalNodes,
      firstIngest.session.commitmentsOf dealer =
        secondIngest.session.commitmentsOf dealer := by
    intro dealer configured
    rcases firstKnows dealer configured with ⟨one, firstHeld⟩
    rcases secondKnows dealer configured with ⟨another, secondHeld⟩
    have equal := agreeing.agree first firstHonest second secondHonest dealer
      configured one another
      (by rw [DkgSetup.known, firstPhase]; exact firstHeld)
      (by rw [DkgSetup.known, secondPhase]; exact secondHeld)
    simp [DkgSession.commitmentsOf, AssocMap.getD, firstHeld, secondHeld, equal]
  have evaluations : ∀ x : Scalar,
      ((participants setup.totalNodes).map fun dealer =>
          powerSum x (firstIngest.session.commitmentsOf dealer)).sum =
        ((participants setup.totalNodes).map fun dealer =>
          powerSum x (secondIngest.session.commitmentsOf dealer)).sum := by
    intro x
    apply congrArg List.sum
    apply List.map_congr_left
    intro dealer configured
    rw [same dealer configured]
  constructor
  · rw [firstMaster, secondMaster, evaluations]
  · have keys : (setup.config first).registryKey firstIngest =
        (setup.config second).registryKey secondIngest := by
      funext id
      rw [firstRegistry, secondRegistry, evaluations]
    rw [NodeConfig.registry, NodeConfig.registry, keys]
    rfl

end DealerAgreement

section SmallRun

attribute [local instance] smallCurve smallEncodings

/-- Three honest nodes of four, with threshold three. -/
def threeHonest : DkgSetup where
  totalNodes := 4
  threshold := 3
  honest := {0, 1, 2}
  polynomials id := [id.toNat + 2, 3, 5].map Nat.cast
  positive := by decide
  inRange := by simp
  length _ _ := rfl

/-- What the fourth node deals to a node, from a polynomial of its choice. -/
def fourthDeals (receiver : UInt32) (coefficients : List Nat) : DkgAction :=
  .inject receiver (.message
    ((DkgSession.new 3 3 4 (coefficients.map Nat.cast)).shareMessageFor receiver))

/-- The fourth node deals from two polynomials. -/
def equivocatingRun : List DkgAction :=
  [fourthDeals 0 [4, 5, 6], fourthDeals 1 [7, 8, 9], .deal 1 0, .deal 2 0,
    .deal 0 1, .deal 2 1]

/-- The fourth node deals from one polynomial. -/
def consistentRun : List DkgAction :=
  [fourthDeals 0 [4, 5, 6], .deal 1 0, fourthDeals 1 [4, 5, 6], .deal 2 0,
    .deal 0 1, .deal 2 1]

/-- A node's loop ends in a run, and it finalises with this share and key. -/
def FinalizesIn (actions : List DkgAction) (id : UInt32) (ingest : Ingest)
    (share : Scalar) (masterPk : G2Projective) : Prop :=
  (threeHonest.config id).ingestLoop (threeHonest.startOf id)
      (threeHonest.inbound id actions) = some (.ok ingest) ∧
    ingest.session.finalizeDkg (participants 4) = .ok (share, masterPk)

/-- Two honest nodes complete, each with a master key of its own. -/
theorem equivocatingRun_splitsMasterKey :
    ∃ final firstIngest secondIngest firstShare secondShare firstKey secondKey,
      run threeHonest.step threeHonest.start equivocatingRun = some final ∧
        FinalizesIn equivocatingRun 0 firstIngest firstShare firstKey ∧
        FinalizesIn equivocatingRun 1 secondIngest secondShare secondKey ∧
        firstKey ≠ secondKey := by
  have runs : (run threeHonest.step threeHonest.start equivocatingRun).isSome =
      true := by
    decide +kernel
  have firstEvaluated : ((threeHonest.config 0).ingestLoop
      (threeHonest.startOf 0) (threeHonest.inbound 0 equivocatingRun)).bind
        (fun ended => ended.toOption.map fun final =>
          final.session.finalizeDkg (participants 4)) =
      some (.ok (48, (13 : Scalar) • Curve.g2Generator)) := by
    decide +kernel
  have secondEvaluated : ((threeHonest.config 1).ingestLoop
      (threeHonest.startOf 1) (threeHonest.inbound 1 equivocatingRun)).bind
        (fun ended => ended.toOption.map fun final =>
          final.session.finalizeDkg (participants 4)) =
      some (.ok (146, (16 : Scalar) • Curve.g2Generator)) := by
    decide +kernel
  have different : (13 : Scalar) • Curve.g2Generator ≠
      (16 : Scalar) • Curve.g2Generator := by
    decide +kernel
  rcases Option.isSome_iff_exists.mp runs with ⟨final, reached⟩
  rcases NodeConfig.exists_final_of_eval firstEvaluated with ⟨_, firstFinal⟩
  rcases NodeConfig.exists_final_of_eval secondEvaluated with ⟨_, secondFinal⟩
  exact ⟨final, _, _, _, _, _, _, reached, firstFinal, secondFinal, different⟩

/-- The theorem at the consistent run. -/
theorem honestNodes_agree_threeHonest :
    ∃ firstIngest secondIngest firstShare secondShare firstKey secondKey,
      FinalizesIn consistentRun 0 firstIngest firstShare firstKey ∧
        FinalizesIn consistentRun 1 secondIngest secondShare secondKey ∧
        firstKey = secondKey ∧
        (threeHonest.config 0).registry firstIngest =
          (threeHonest.config 1).registry secondIngest := by
  have runs : (run threeHonest.step threeHonest.start consistentRun).isSome =
      true := by
    decide +kernel
  have checked : checkAlong threeHonest.step
      (fun phases action => decide (threeHonest.Consistent phases action))
      threeHonest.start consistentRun = true := by
    decide +kernel
  have consistent := along_of_checkAlong
    (fun _ _ holds => of_decide_eq_true holds) checked
  have firstEvaluated : ((threeHonest.config 0).ingestLoop
      (threeHonest.startOf 0) (threeHonest.inbound 0 consistentRun)).bind
        (fun ended => ended.toOption.map fun final =>
          final.session.finalizeDkg (participants 4)) =
      some (.ok (48, (13 : Scalar) • Curve.g2Generator)) := by
    decide +kernel
  have secondEvaluated : ((threeHonest.config 1).ingestLoop
      (threeHonest.startOf 1) (threeHonest.inbound 1 consistentRun)).bind
        (fun ended => ended.toOption.map fun final =>
          final.session.finalizeDkg (participants 4)) =
      some (.ok (125, (13 : Scalar) • Curve.g2Generator)) := by
    decide +kernel
  rcases Option.isSome_iff_exists.mp runs with ⟨final, reached⟩
  rcases NodeConfig.exists_final_of_eval firstEvaluated with
    ⟨firstIngest, firstEnded, firstFinal⟩
  rcases NodeConfig.exists_final_of_eval secondEvaluated with
    ⟨secondIngest, secondEnded, secondFinal⟩
  have agree := honestNodes_agree (.inl (by decide)) reached consistent
    (by decide) (by decide) firstEnded secondEnded firstFinal secondFinal
  exact ⟨_, _, _, _, _, _, ⟨firstEnded, firstFinal⟩, ⟨secondEnded, secondFinal⟩,
    agree⟩

end SmallRun

end SovereignLattice
