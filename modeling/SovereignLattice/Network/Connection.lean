import SovereignLattice.Pbft.Progress

/-!
# `handle_connection` of the consensus packets

What a node does with one packet after framing and decoding: the checks before
the state is locked, the call of the handler, and the vote that the node signs
in answer.
-/

namespace SovereignLattice

variable [Curve]

/-! ## View-change payloads -/

structure ViewChangePayload where
  targetView : UInt64
  preparedView : UInt64
  preparedSeq : UInt64
  digest : Digest
  senderId : UInt32
  signature : G1Projective
  deriving DecidableEq

def ViewChangePayload.canonicalBytes (payload : ViewChangePayload) : Bytes :=
  u64Bytes payload.targetView ++ u64Bytes payload.preparedView ++
    u64Bytes payload.preparedSeq ++ payload.digest.toList

/-- The error strings of `handle_view_change_payload`. -/
inductive ViewChangeError where
  | unauthorizedSender
  | cryptoAuthFailed
  | certificateInvalid
  deriving DecidableEq, Repr

def ViewChangeError.text : ViewChangeError → String
  | .unauthorizedSender => "UNAUTHORIZED_SENDER"
  | .cryptoAuthFailed => "CRYPTO_AUTH_FAILED"
  | .certificateInvalid => "CERTIFICATE_INVALID"

/-- `handle_view_change_payload` checks a payload and changes nothing. -/
def PbftState.handleViewChangePayload (state : PbftState)
    (payload : ViewChangePayload) : Except ViewChangeError Unit :=
  if registered : payload.senderId ∈ state.registeredNodes then
    let pk := state.publicKeyOf payload.senderId registered
    if !verifyBlsSignature payload.canonicalBytes payload.signature pk then
      .error .cryptoAuthFailed
    else if payload.preparedSeq > 0 ∧
        !state.preparedCertificates.values.any fun cert =>
          cert.view = payload.preparedView ∧ cert.seq = payload.preparedSeq ∧
            cert.digest = payload.digest ∧
            cert.verify state.quorumSize state.masterPublicKey then
      .error .certificateInvalid
    else
      .ok ()
  else
    .error .unauthorizedSender

/-! ## Packets -/

/-- A decoded packet of one of the two consensus types. -/
inductive Packet where
  | pbft (msg : PbftMessage)
  | viewChange (payload : ViewChangePayload)
  deriving DecidableEq

inductive ConnectionError where
  | consensusStateNotInitialized
  | senderNotRegistered
  | signatureRejected
  | localSecretKeyNotSet
  | pbft (error : PbftError)
  | viewChangeRejected
  | viewChange (error : ViewChangeError)
  deriving DecidableEq, Repr

def ConnectionError.text : ConnectionError → String
  | .consensusStateNotInitialized => "CONSENSUS_STATE_NOT_INITIALIZED"
  | .senderNotRegistered => "CRYPTO_AUTH_FAILED: Sender not registered"
  | .signatureRejected => "CRYPTO_AUTH_FAILED: Signature rejected before lock"
  | .localSecretKeyNotSet => "LOCAL_SECRET_KEY_NOT_SET"
  | .pbft error => error.text
  | .viewChangeRejected => "CRYPTO_AUTH_FAILED: ViewChange rejected before lock"
  | .viewChange error => error.text

/-- What the connections of one node share. -/
structure Node where
  selfId : UInt32
  selfSk : Option Scalar
  state : Option PbftState

/-- A message that its sender signs. -/
def signMessage (phase : Phase) (view seq : UInt64) (digest : Digest)
    (senderId : UInt32) (sk : Scalar) : PbftMessage where
  phase := phase
  view := view
  seq := seq
  digest := digest
  senderId := senderId
  signature := signBlsMessage (canonicalMsg phase.toU8 view seq digest) sk

/-- The vote that a node signs after the handler has accepted a message: a
prepare for a proposal, a commit once the slot has a certificate. -/
def PbftState.outgoingMsg (state : PbftState) (msg : PbftMessage)
    (selfId : UInt32) (sk : Scalar) : Option PbftMessage :=
  match msg.phase with
  | .prePrepare =>
      some (signMessage .prepare msg.view msg.seq msg.digest selfId sk)
  | .prepare =>
      if (state.preparedCertificates.get? (msg.view, msg.seq)).isSome then
        some (signMessage .commit msg.view msg.seq msg.digest selfId sk)
      else
        none
  | _ => none

/-- `broadcast_message`: the peers that a payload is sent to. -/
def broadcastMessage (peers : List UInt32) (selfId : UInt32) : List UInt32 :=
  peers.filter fun peerId => peerId ≠ selfId

namespace Node

/-- The `PACKET_TYPE_PBFT` branch.  The state is locked twice, and what the
first lock reads of it never changes, so the branch is one step. -/
def handlePbft (node : Node) (msg : PbftMessage) (io : WalIo) :
    Except ConnectionError (Option PbftMessage) × Node :=
  match node.state with
  | none => (.error .consensusStateNotInitialized, node)
  | some state =>
      match state.publicKeys.get? msg.senderId with
      | none => (.error .senderNotRegistered, node)
      | some pk =>
          if !verifyBlsSignature msg.canonicalBytes msg.signature pk then
            (.error .signatureRejected, node)
          else
            match node.selfSk with
            | none => (.error .localSecretKeyNotSet, node)
            | some sk =>
                match state.handleMessage msg io with
                | (.error error, after) =>
                    (.error (.pbft error), { node with state := some after })
                | (.ok _, after) =>
                    (.ok (after.outgoingMsg msg node.selfId sk),
                      { node with state := some after })

/-- The `PACKET_TYPE_VC` branch. -/
def handleViewChange (node : Node) (payload : ViewChangePayload) :
    Except ConnectionError (Option PbftMessage) :=
  match node.state with
  | none => .error .consensusStateNotInitialized
  | some state =>
      match state.publicKeys.get? payload.senderId with
      | none => .error .senderNotRegistered
      | some pk =>
          if !verifyBlsSignature payload.canonicalBytes payload.signature pk then
            .error .viewChangeRejected
          else
            match state.handleViewChangePayload payload with
            | .error error => .error (.viewChange error)
            | .ok () => .ok none

def handleConnection (node : Node) (packet : Packet) (io : WalIo) :
    Except ConnectionError (Option PbftMessage) × Node :=
  match packet with
  | .pbft msg => node.handlePbft msg io
  | .viewChange payload => (node.handleViewChange payload, node)

/-! ## What a packet does to a node -/

/-- The effects of one packet on a node, with the vote that it sends. -/
inductive Handled (node : Node) (packet : Packet) (io : WalIo) :
    Option PbftMessage → Node → Prop
  | ignored : Handled node packet io none node
  | handled (msg : PbftMessage) (state : PbftState) (error : PbftError)
      (same : packet = .pbft msg) (held : node.state = some state)
      (answered : (state.handleMessage msg io).1 = .error error) :
      Handled node packet io none
        { node with state := some (state.handleMessage msg io).2 }
  | answered (msg : PbftMessage) (state : PbftState) (sk : Scalar)
      (response : Response) (same : packet = .pbft msg)
      (held : node.state = some state) (key : node.selfSk = some sk)
      (answered : (state.handleMessage msg io).1 = .ok response) :
      Handled node packet io
        ((state.handleMessage msg io).2.outgoingMsg msg node.selfId sk)
        { node with state := some (state.handleMessage msg io).2 }

/-- The message that is sent, if any. -/
def sent : Except ConnectionError (Option PbftMessage) → Option PbftMessage
  | .ok out => out
  | .error _ => none

/-- A view-change packet sends nothing. -/
theorem sent_handleViewChange (node : Node) (payload : ViewChangePayload) :
    sent (node.handleViewChange payload) = none := by
  rw [handleViewChange]
  cases node.state with
  | none => rfl
  | some state =>
      dsimp only
      cases state.publicKeys.get? payload.senderId with
      | none => rfl
      | some pk =>
          dsimp only
          split
          · rfl
          · cases state.handleViewChangePayload payload <;> rfl

theorem handleConnection_handled (node : Node) (packet : Packet) (io : WalIo) :
    Handled node packet io (sent (node.handleConnection packet io).1)
      (node.handleConnection packet io).2 := by
  cases packet with
  | viewChange payload =>
      rw [handleConnection]
      dsimp only
      rw [sent_handleViewChange]
      exact .ignored
  | pbft msg =>
      unfold handleConnection handlePbft
      dsimp only
      cases held : node.state with
      | none => exact .ignored
      | some state =>
      dsimp only
      cases state.publicKeys.get? msg.senderId with
      | none => exact .ignored
      | some pk =>
      dsimp only
      split
      · exact .ignored
      cases key : node.selfSk with
      | none => exact .ignored
      | some sk =>
      cases outcome : state.handleMessage msg io with
      | mk answer after =>
          cases answer with
          | error error =>
              have handled : Handled node (.pbft msg) io none
                  { node with state := some (state.handleMessage msg io).2 } :=
                .handled msg state error rfl held (by rw [outcome])
              rw [outcome, key] at handled
              exact handled
          | ok response =>
              have handled : Handled node (.pbft msg) io
                  ((state.handleMessage msg io).2.outgoingMsg msg node.selfId sk)
                  { node with state := some (state.handleMessage msg io).2 } :=
                .answered msg state sk response rfl held key (by rw [outcome])
              rw [outcome, key] at handled
              exact handled

/-- A node with its secret key answers what its handler accepts. -/
theorem handlePbft_accepted {node : Node} {state after : PbftState} {sk : Scalar}
    {msg : PbftMessage} {io : WalIo} {response : Response}
    (held : node.state = some state) (key : node.selfSk = some sk)
    (authenticated : state.Authenticated msg)
    (answered : state.handleMessage msg io = (.ok response, after)) :
    node.handlePbft msg io =
      (.ok (after.outgoingMsg msg node.selfId sk),
        { node with state := some after }) := by
  rcases authenticated with ⟨_, pk, known, verified⟩
  have signature : verifyBlsSignature msg.canonicalBytes msg.signature pk = true :=
    verified
  simp [handlePbft, held, key, known, signature, answered]

end Node

end SovereignLattice
