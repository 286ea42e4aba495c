import SovereignLattice.Dkg.KeyGeneration
import SovereignLattice.Dkg.ShareMessage

/-!
# The bootstrap of a node (`main.rs`)

A node ingests share messages until it has collected as many dealers as it has
peers, finalises, and computes the registry of public keys from its own polynomial
and the collected commitments.  The loop counts dealers; finalisation looks up the
configured ids.
-/

namespace SovereignLattice

section Bootstrap

variable [Curve] [Encodings]

/-- The part of the configuration that the key generation reads. -/
structure NodeConfig where
  nodeId : UInt32
  totalNodes : Nat
  threshold : Nat

/-- The variables of the ingest loop. -/
structure Ingest where
  session : DkgSession
  collectedPeers : AssocMap UInt32 (List G2Projective)

/-- What one round of the loop finds: a message, a deadline that has passed when the
round starts or while it waits, or a closed channel. -/
inductive InboundEvent where
  | message (msg : DkgShareMessage)
  | deadlineReached
  | deadlineExpired
  | channelClosed

inductive BootstrapError where
  | deadlineReached (missingPeers : List UInt32)
  | deadlineExpired (missingPeers : List UInt32)
  | channelClosed
  deriving DecidableEq, Repr

/-- `{:?}` of a list of ids. -/
def debugIds (ids : List UInt32) : String :=
  "[" ++ ", ".intercalate (ids.map fun id => toString id) ++ "]"

def BootstrapError.text : BootstrapError → String
  | .deadlineReached missingPeers =>
      "FATAL_DKG_TIMEOUT: Deadline reached. Missing shares from nodes: " ++
        debugIds missingPeers
  | .deadlineExpired missingPeers =>
      "FATAL_DKG_TIMEOUT: Inbound share deadline expired. Missing nodes: " ++
        debugIds missingPeers
  | .channelClosed =>
      "FATAL_DKG_CHANNEL_CLOSED: Inbound DKG stream terminated prematurely."

namespace DkgSession

/-- `self.secret_polynomial[0]`.  The access panics where the threshold is zero; the
results about it are for positive thresholds. -/
def dealerSecretKey (session : DkgSession) : Scalar :=
  session.secretPolynomial.headD 0

/-- The message that a node sends to a peer. -/
def shareMessageFor (session : DkgSession) (peerId : UInt32) : DkgShareMessage :=
  let msg : DkgShareMessage :=
    { fromNode := session.nodeId
      toNode := peerId
      share := session.evaluateShareFor peerId
      commitments := session.generateCommitments
      signature := 0 }
  { msg with
    signature := signBlsMessage msg.canonicalBytes session.dealerSecretKey }

end DkgSession

namespace NodeConfig

/-- The other configured ids. -/
def peers (config : NodeConfig) : List UInt32 :=
  (participants config.totalNodes).filter (· != config.nodeId)

def missingPeers (config : NodeConfig) (ingest : Ingest) : List UInt32 :=
  (participants config.totalNodes).filter fun id =>
    id ≠ config.nodeId ∧ (ingest.collectedPeers.get? id).isNone

def start (config : NodeConfig) (secretPolynomial : List Scalar) : Ingest where
  session := DkgSession.new config.nodeId config.threshold config.totalNodes
    secretPolynomial
  collectedPeers := ∅

/-- The body of the loop for one message. -/
def ingestMessage (config : NodeConfig) (ingest : Ingest)
    (msg : DkgShareMessage) : Ingest :=
  if msg.toNode = config.nodeId ∧
      (ingest.collectedPeers.get? msg.fromNode).isNone then
    if !msg.verifySignature then
      ingest
    else
      match ingest.session.processIncomingShare msg.fromNode msg.share
          msg.commitments with
      | (.ok (), session) =>
          { session := session
            collectedPeers :=
              ingest.collectedPeers.insert msg.fromNode msg.commitments }
      | (.error _, session) => { ingest with session := session }
  else
    ingest

/-- The loop over what it finds round by round; `none` where it still waits. -/
def ingestLoop (config : NodeConfig) :
    Ingest → List InboundEvent → Option (Except BootstrapError Ingest)
  | ingest, [] =>
      if ingest.collectedPeers.len < config.totalNodes - 1 then
        none
      else
        some (.ok ingest)
  | ingest, event :: rest =>
      if ingest.collectedPeers.len < config.totalNodes - 1 then
        match event with
        | .message msg => config.ingestLoop (config.ingestMessage ingest msg) rest
        | .deadlineReached =>
            some (.error (.deadlineReached (config.missingPeers ingest)))
        | .deadlineExpired =>
            some (.error (.deadlineExpired (config.missingPeers ingest)))
        | .channelClosed => some (.error .channelClosed)
      else
        some (.ok ingest)

/-- `sum_pk` of one id. -/
def registryKey (config : NodeConfig) (ingest : Ingest) (id : UInt32) :
    G2Projective :=
  let x := evaluationPoint id
  let myVal := powerSum x ingest.session.secretPolynomial
  ingest.collectedPeers.entries.foldl
    (fun sumPk entry =>
      if entry.1 = config.nodeId then sumPk else sumPk + powerSum x entry.2)
    (myVal • Curve.g2Generator)

/-- The public keys that `PbftState::new` receives. -/
def registry (config : NodeConfig) (ingest : Ingest) :
    AssocMap UInt32 G2Projective :=
  (participants config.totalNodes).foldl
    (fun publicKeys id => publicKeys.insert id (config.registryKey ingest id)) ∅

end NodeConfig

/-! ## The loop -/

namespace NodeConfig

variable {config : NodeConfig} {ingest : Ingest} {msg : DkgShareMessage}
variable {secretPolynomial : List Scalar}

/-- All the checks that a message must pass; none of them looks at the sender. -/
def Accepts (config : NodeConfig) (msg : DkgShareMessage) : Prop :=
  msg.toNode = config.nodeId ∧ msg.verifySignature = true ∧
    msg.commitments.length = config.threshold ∧
      msg.share • Curve.g2Generator =
        powerSum (evaluationPoint config.nodeId) msg.commitments

instance (config : NodeConfig) (msg : DkgShareMessage) :
    Decidable (config.Accepts msg) :=
  inferInstanceAs (Decidable (_ ∧ _))

/-- The session is the node's own, and what it holds is what the loop has
collected. -/
structure Sound (config : NodeConfig) (secretPolynomial : List Scalar)
    (ingest : Ingest) : Prop where
  nodeId : ingest.session.nodeId = config.nodeId
  threshold : ingest.session.threshold = config.threshold
  polynomial : ingest.session.secretPolynomial = secretPolynomial
  checked : ingest.session.Checked
  collected : ingest.collectedPeers = ingest.session.receivedCommitments

omit [Encodings] in
theorem sound_start (config : NodeConfig) (secretPolynomial : List Scalar) :
    config.Sound secretPolynomial (config.start secretPolynomial) where
  nodeId := rfl
  threshold := rfl
  polynomial := rfl
  checked := DkgSession.Checked.new _ _ _ _
  collected := rfl

/-- The state after a message has been accepted. -/
def collect (ingest : Ingest) (msg : DkgShareMessage) : Ingest where
  session := ingest.session.store msg.fromNode msg.share msg.commitments
  collectedPeers := ingest.collectedPeers.insert msg.fromNode msg.commitments

/-- The first acceptable message of a dealer is collected and nothing else. -/
theorem Sound.ingestMessage_eq (sound : config.Sound secretPolynomial ingest)
    (msg : DkgShareMessage) :
    config.ingestMessage ingest msg =
      if config.Accepts msg ∧
          (ingest.collectedPeers.get? msg.fromNode).isNone = true then
        collect ingest msg
      else
        ingest := by
  have accepts : config.Accepts msg ↔
      msg.toNode = config.nodeId ∧ msg.verifySignature = true ∧
        ingest.session.Accepts msg.share msg.commitments := by
    rw [Accepts, DkgSession.Accepts, sound.nodeId, sound.threshold]
  rw [ingestMessage]
  by_cases addressed : msg.toNode = config.nodeId ∧
      (ingest.collectedPeers.get? msg.fromNode).isNone = true
  · rw [if_pos addressed]
    cases verified : msg.verifySignature with
    | false => simp [accepts, verified]
    | true =>
        rw [if_neg (by decide)]
        by_cases checked : ingest.session.Accepts msg.share msg.commitments
        · rw [DkgSession.processIncomingShare_of_accepts _ checked,
            if_pos ⟨accepts.mpr ⟨addressed.1, verified, checked⟩, addressed.2⟩]
          rfl
        · rcases DkgSession.processIncomingShare_of_not_accepts msg.fromNode
            checked with ⟨error, refused⟩
          rw [refused, if_neg fun both => checked (accepts.mp both.1).2.2]
  · rw [if_neg addressed,
      if_neg fun both => addressed ⟨(accepts.mp both.1).1, both.2⟩]

theorem Sound.collect (sound : config.Sound secretPolynomial ingest)
    (accepts : config.Accepts msg) :
    config.Sound secretPolynomial (collect ingest msg) := by
  have checks : ingest.session.Accepts msg.share msg.commitments := by
    rw [DkgSession.Accepts, sound.nodeId, sound.threshold]
    exact accepts.2.2
  exact
    { nodeId := sound.nodeId
      threshold := sound.threshold
      polynomial := sound.polynomial
      checked := sound.checked.store checks
      collected := by
        rw [NodeConfig.collect, sound.collected]
        rfl }

theorem Sound.ingestMessage (sound : config.Sound secretPolynomial ingest)
    (msg : DkgShareMessage) :
    config.Sound secretPolynomial (config.ingestMessage ingest msg) := by
  rw [sound.ingestMessage_eq]
  split
  · rename_i accepted
    exact sound.collect accepted.1
  · exact sound

/-- Feed messages to the body of the loop, without its exit. -/
def ingestAll (config : NodeConfig) (ingest : Ingest)
    (msgs : List DkgShareMessage) : Ingest :=
  msgs.foldl config.ingestMessage ingest

theorem ingestAll_concat (config : NodeConfig) (ingest : Ingest)
    (msgs : List DkgShareMessage) (msg : DkgShareMessage) :
    config.ingestAll ingest (msgs ++ [msg]) =
      config.ingestMessage (config.ingestAll ingest msgs) msg := by
  rw [ingestAll, List.foldl_append]
  rfl

theorem Sound.ingestAll (sound : config.Sound secretPolynomial ingest)
    (msgs : List DkgShareMessage) :
    config.Sound secretPolynomial (config.ingestAll ingest msgs) := by
  induction msgs generalizing ingest with
  | nil => exact sound
  | cons msg rest inductionHypothesis =>
      exact inductionHypothesis (sound.ingestMessage msg)

/-- The collected dealers are the senders of acceptable messages. -/
theorem mem_collected (config : NodeConfig) (secretPolynomial : List Scalar)
    (msgs : List DkgShareMessage) (id : UInt32) :
    id ∈ (config.ingestAll (config.start secretPolynomial)
        msgs).collectedPeers.keySet ↔
      ∃ msg ∈ msgs, config.Accepts msg ∧ msg.fromNode = id := by
  induction msgs using List.reverseRecOn with
  | nil => simp [ingestAll, start]
  | append_singleton earlier last inductionHypothesis =>
      have sound := (config.sound_start secretPolynomial).ingestAll earlier
      have extended : (∃ msg ∈ earlier ++ [last],
            config.Accepts msg ∧ msg.fromNode = id) ↔
          (∃ msg ∈ earlier, config.Accepts msg ∧ msg.fromNode = id) ∨
            config.Accepts last ∧ last.fromNode = id := by
        simp only [List.mem_append, List.mem_singleton]
        grind
      rw [ingestAll_concat, sound.ingestMessage_eq, extended,
        ← inductionHypothesis]
      by_cases accepts : config.Accepts last
      · by_cases known : ((config.ingestAll (config.start secretPolynomial)
            earlier).collectedPeers.get? last.fromNode).isNone = true
        · rw [if_pos ⟨accepts, known⟩, NodeConfig.collect, AssocMap.keySet_insert,
            Finset.mem_insert]
          simp only [accepts, true_and, or_comm, eq_comm]
        · rw [if_neg fun both => known both.2]
          have held : last.fromNode ∈ (config.ingestAll
              (config.start secretPolynomial) earlier).collectedPeers.keySet := by
            rw [AssocMap.mem_keySet, AssocMap.mem_keys_iff]
            rw [← Option.isSome_iff_exists, Option.isSome_iff_ne_none]
            simpa using known
          constructor
          · exact Or.inl
          · intro either
            rcases either with before | ⟨_, rfl⟩
            · exact before
            · exact held
      · rw [if_neg fun both => accepts both.1]
        simp [accepts]

/-- What is collected for a dealer are the commitments of an acceptable message. -/
theorem exists_sent_of_collected {msgs : List DkgShareMessage} {id : UInt32}
    {commitments : List G2Projective}
    (held : (config.ingestAll (config.start secretPolynomial)
      msgs).collectedPeers.get? id = some commitments) :
    ∃ msg ∈ msgs, config.Accepts msg ∧ msg.fromNode = id ∧
      msg.commitments = commitments := by
  induction msgs using List.reverseRecOn with
  | nil => simp [ingestAll, start] at held
  | append_singleton earlier last inductionHypothesis =>
      have sound := (config.sound_start secretPolynomial).ingestAll earlier
      have before : (config.ingestAll (config.start secretPolynomial)
          earlier).collectedPeers.get? id = some commitments →
            ∃ msg ∈ earlier ++ [last], config.Accepts msg ∧ msg.fromNode = id ∧
              msg.commitments = commitments := by
        intro stored
        rcases inductionHypothesis stored with ⟨msg, sent, facts⟩
        exact ⟨msg, List.mem_append_left _ sent, facts⟩
      rw [ingestAll_concat, sound.ingestMessage_eq] at held
      split at held
      · rename_i accepted
        rw [NodeConfig.collect, AssocMap.get?_insert] at held
        split at held
        · rename_i same
          rw [Option.some.injEq] at held
          exact ⟨last, by simp, accepted.1, same.symm, held⟩
        · exact before held
      · exact before held

/-- The loop stops as soon as it has enough dealers. -/
theorem ingestLoop_of_enough
    (enough : ¬ ingest.collectedPeers.len < config.totalNodes - 1)
    (events : List InboundEvent) :
    config.ingestLoop ingest events = some (.ok ingest) := by
  cases events <;> simp [ingestLoop, enough]

theorem ingestLoop_nil_of_few
    (few : ingest.collectedPeers.len < config.totalNodes - 1) :
    config.ingestLoop ingest [] = none := by
  simp [ingestLoop, few]

theorem ingestLoop_message
    (few : ingest.collectedPeers.len < config.totalNodes - 1)
    (msg : DkgShareMessage) (rest : List InboundEvent) :
    config.ingestLoop ingest (.message msg :: rest) =
      config.ingestLoop (config.ingestMessage ingest msg) rest := by
  rw [ingestLoop, if_pos few]

/-- A round that waits for more dealers either finds a message or fails. -/
theorem event_cases (few : ingest.collectedPeers.len < config.totalNodes - 1)
    (event : InboundEvent) :
    (∃ msg, event = .message msg) ∨
      ∃ error, ∀ rest, config.ingestLoop ingest (event :: rest) =
        some (.error error) := by
  cases event with
  | message msg => exact .inl ⟨msg, rfl⟩
  | deadlineReached => exact .inr ⟨_, fun rest => by simp [ingestLoop, few]; rfl⟩
  | deadlineExpired => exact .inr ⟨_, fun rest => by simp [ingestLoop, few]; rfl⟩
  | channelClosed => exact .inr ⟨_, fun rest => by simp [ingestLoop, few]; rfl⟩

/-- A loop that ends has run the body on its first messages, and stopped at the first
moment at which it had enough dealers. -/
theorem ingestLoop_ok {events : List InboundEvent} {final : Ingest}
    (ended : config.ingestLoop ingest events = some (.ok final)) :
    ∃ msgs rest, events = msgs.map InboundEvent.message ++ rest ∧
      final = config.ingestAll ingest msgs ∧
      config.totalNodes - 1 ≤ final.collectedPeers.len ∧
      ∀ earlier, earlier <+: msgs → earlier ≠ msgs →
        (config.ingestAll ingest earlier).collectedPeers.len <
          config.totalNodes - 1 := by
  have stops : ∀ {current : Ingest} {rest : List InboundEvent},
      ¬ current.collectedPeers.len < config.totalNodes - 1 →
        ∃ msgs later, rest = msgs.map InboundEvent.message ++ later ∧
          current = config.ingestAll current msgs ∧
          config.totalNodes - 1 ≤ current.collectedPeers.len ∧
          ∀ earlier, earlier <+: msgs → earlier ≠ msgs →
            (config.ingestAll current earlier).collectedPeers.len <
              config.totalNodes - 1 := by
    intro current rest enough
    refine ⟨[], rest, rfl, rfl, Nat.le_of_not_lt enough, ?_⟩
    intro earlier before other
    exact absurd (List.prefix_nil.mp before) other
  induction events generalizing ingest with
  | nil =>
      by_cases few : ingest.collectedPeers.len < config.totalNodes - 1
      · rw [ingestLoop_nil_of_few few] at ended
        cases ended
      · rw [ingestLoop_of_enough few] at ended
        cases ended
        exact stops few
  | cons event rest inductionHypothesis =>
      by_cases few : ingest.collectedPeers.len < config.totalNodes - 1
      · rcases event_cases few event with ⟨msg, rfl⟩ | ⟨error, failed⟩
        · rw [ingestLoop_message few] at ended
          rcases inductionHypothesis ended with
            ⟨msgs, later, same, reached, enough, fewer⟩
          refine ⟨msg :: msgs, later, by rw [same]; rfl, reached, enough, ?_⟩
          intro earlier before other
          cases earlier with
          | nil => exact few
          | cons first more =>
              rcases List.cons_prefix_cons.mp before with ⟨rfl, inside⟩
              exact fewer more inside fun whole => other (by rw [whole])
        · rw [failed] at ended
          cases ended
      · rw [ingestLoop_of_enough few] at ended
        cases ended
        exact stops few

/-- A loop whose end has been evaluated. -/
theorem exists_final_of_eval {Value : Type*} {events : List InboundEvent}
    {value : Ingest → Value} {result : Value}
    (evaluated : ((config.ingestLoop ingest events).bind fun ended =>
      ended.toOption.map value) = some result) :
    ∃ final, config.ingestLoop ingest events = some (.ok final) ∧
      value final = result := by
  simp only [Option.bind_eq_some_iff, Option.map_eq_some_iff] at evaluated
  rcases evaluated with ⟨ended, reached, final, isFinal, same⟩
  cases ended with
  | error => cases isFinal
  | ok =>
      cases isFinal
      exact ⟨final, reached, same⟩

/-- One message adds at most one dealer. -/
theorem Sound.len_ingestMessage_le (sound : config.Sound secretPolynomial ingest)
    (msg : DkgShareMessage) :
    (config.ingestMessage ingest msg).collectedPeers.len ≤
      ingest.collectedPeers.len + 1 := by
  rw [sound.ingestMessage_eq]
  split
  · rw [NodeConfig.collect, ← AssocMap.card_keySet, ← AssocMap.card_keySet,
      AssocMap.keySet_insert]
    exact Finset.card_insert_le _ _
  · omega

/-- The loop ends with exactly as many dealers as the node has peers. -/
theorem len_of_ingestLoop_ok {events : List InboundEvent} {final : Ingest}
    (ended : config.ingestLoop (config.start secretPolynomial) events =
      some (.ok final)) :
    config.Sound secretPolynomial final ∧
      final.collectedPeers.len = config.totalNodes - 1 := by
  rcases ingestLoop_ok ended with ⟨msgs, rest, _, reached, enough, fewer⟩
  have start := config.sound_start secretPolynomial
  subst reached
  refine ⟨start.ingestAll msgs, Nat.le_antisymm ?_ enough⟩
  rcases List.eq_nil_or_concat msgs with rfl | ⟨earlier, last, rfl⟩
  · exact Nat.zero_le _
  · rw [List.concat_eq_append] at fewer ⊢
    have before := fewer earlier (List.prefix_append _ _) (by simp)
    have step := (start.ingestAll earlier).len_ingestMessage_le last
    rw [ingestAll_concat]
    omega

/-! ## The configured peers -/

omit [Curve] [Encodings] in
theorem mem_peers (word : config.totalNodes < 2 ^ 32) {id : UInt32} :
    id ∈ config.peers ↔ id.toNat < config.totalNodes ∧ id ≠ config.nodeId := by
  simp [peers, mem_participants word]

omit [Curve] [Encodings] in
theorem nodup_peers (word : config.totalNodes < 2 ^ 32) : config.peers.Nodup :=
  (nodup_participants word).filter _

omit [Curve] [Encodings] in
theorem card_peers (word : config.totalNodes < 2 ^ 32)
    (below : config.nodeId.toNat < config.totalNodes) :
    config.peers.toFinset.card = config.totalNodes - 1 := by
  have member := (mem_participants word).mpr below
  have nodup := nodup_participants word
  rw [List.toFinset_card_of_nodup (nodup_peers word), peers,
    ← nodup.erase_eq_filter, List.length_erase_of_mem member, participants,
    List.length_map, List.length_range, Nat.mod_eq_of_lt word]

omit [Encodings] in
/-- Finalisation succeeds when every configured peer has been collected. -/
theorem Sound.finalizeDkg_eq_ok (sound : config.Sound secretPolynomial ingest)
    (word : config.totalNodes < 2 ^ 32)
    (below : config.nodeId.toNat < config.totalNodes)
    (positive : 1 ≤ config.threshold)
    (length : secretPolynomial.length = config.threshold)
    {result : Scalar × G2Projective} :
    ingest.session.finalizeDkg (participants config.totalNodes) = .ok result ↔
      config.peers.toFinset ⊆ ingest.collectedPeers.keySet ∧
        result =
          (((participants config.totalNodes).map ingest.session.shareOf).sum,
            ((participants config.totalNodes).map fun id =>
              powerSum (0 : Scalar) (ingest.session.commitmentsOf id)).sum) := by
  have nodup := nodup_participants word
  have member : ingest.session.nodeId ∈ participants config.totalNodes := by
    rw [sound.nodeId]
    exact (mem_participants word).mpr below
  have nonempty : ingest.session.secretPolynomial ≠ [] := by
    rw [sound.polynomial]
    exact List.ne_nil_of_length_pos (by omega)
  have holds : ∀ id, ingest.session.Holds id ↔
      id ∈ ingest.collectedPeers.keySet := by
    intro id
    rw [sound.collected, AssocMap.mem_keySet, AssocMap.mem_keys_iff]
    constructor
    · intro held
      rcases held.2 with ⟨commit, rest, stored⟩
      exact ⟨_, stored⟩
    · intro held
      rcases held with ⟨commitments, stored⟩
      rcases sound.checked.share id commitments stored with ⟨share, sent, _⟩
      have size := sound.checked.length id commitments stored
      rw [sound.threshold] at size
      cases commitments with
      | nil =>
          rw [List.length_nil] at size
          omega
      | cons commit rest => exact ⟨⟨share, sent⟩, commit, rest, stored⟩
  rw [DkgSession.finalizeDkg_eq_ok nodup member nonempty]
  have peersHeld : (∀ id ∈ participants config.totalNodes,
      id ≠ ingest.session.nodeId → ingest.session.Holds id) ↔
        config.peers.toFinset ⊆ ingest.collectedPeers.keySet := by
    rw [sound.nodeId]
    constructor
    · intro all id peer
      rw [List.mem_toFinset, mem_peers word] at peer
      exact (holds id).mp (all id ((mem_participants word).mpr peer.1) peer.2)
    · intro inside id known other
      apply (holds id).mpr
      apply inside
      rw [List.mem_toFinset, mem_peers word]
      exact ⟨(mem_participants word).mp known, other⟩
  rw [peersHeld]

end NodeConfig

end Bootstrap

end SovereignLattice
