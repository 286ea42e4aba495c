import SovereignLattice.Foundations.Simulation
import SovereignLattice.Dkg.Registry
import SovereignLattice.Network.Framing
import SovereignLattice.Pbft.Recovery

/-!
# The process of a node (`main.rs`, `network.rs`)

`main` generates the keys while the listener already serves connections.  Each
connection is a task of its own, which takes the locks of the state and of the secret
key, and `main` takes the same locks when it installs them.  One action of the machine
is what a task does between two points at which it may have to wait.
-/

namespace SovereignLattice

/-- `MAX_CONNECTIONS`. -/
def maxConnections : Nat :=
  128

/-- The capacity of the two channels of `main`. -/
def channelCapacity : Nat :=
  256

inductive IpAddr where
  | v4 (address : BitVec 32)
  | v6 (address : BitVec 128)
  deriving DecidableEq

structure SocketAddr where
  ip : IpAddr
  port : UInt16
  deriving DecidableEq

/-- What `main` reads of its configuration. -/
structure ServerConfig extends NodeConfig where
  peerMap : AssocMap UInt32 SocketAddr

/-- `allowed_ips` of `start_tcp_listener`. -/
def ServerConfig.allowedIps (config : ServerConfig) : List IpAddr :=
  config.peerMap.values.map SocketAddr.ip

/-- What the listener does with an accepted socket. -/
inductive Admission where
  | rejectedUnauthorizedIp
  | dropOverload
  | spawned
  deriving DecidableEq, Repr

/-- Who holds a lock. -/
inductive Owner where
  | main
  | connection (index : Nat)
  deriving DecidableEq, Repr

section Process

variable [Curve] [Encodings]

/-- Where the task of a connection waits, or how it has ended.  `sendingShare` and
`sendingVote` wait for room in a channel, the `locking` constructors for a lock. -/
inductive Task where
  | reading
  | sendingShare (msg : DkgShareMessage)
  | lockingState (packet : Packet)
  | lockingSecret (msg : PbftMessage)
  | readingKeys (packet : Packet)
  | lockingAgain (msg : PbftMessage) (sk : Scalar)
  | handling (msg : PbftMessage) (sk : Scalar)
  | lockingView (payload : ViewChangePayload)
  | handlingView (payload : ViewChangePayload)
  | sendingVote (out : PbftMessage)
  | ended (result : Except ServeError Served)
  | panicked

/-- The errors of `main`. -/
inductive MainError where
  | bootstrap (error : BootstrapError)
  | dkg (error : DkgError)
  | pbft (error : NewError)
  deriving DecidableEq, Repr

/-- Where `main` waits, or how it has ended. -/
inductive MainTask where
  | ingesting (ingest : Ingest)
  | lockingState (pbftState : PbftState) (mySecretShare : Scalar)
  | lockingSecret (mySecretShare : Scalar)
  | releasing
  | live
  | failed (error : MainError)

def MainTask.isLive : MainTask → Bool
  | .live => true
  | _ => false

omit [Encodings] in
theorem MainTask.eq_live_of_isLive {main : MainTask} (isLive : main.isLive = true) :
    main = .live := by
  cases main with
  | live => rfl
  | _ => cases isLive

structure Process where
  permits : Nat
  tasks : List Task
  stateOwner : Option Owner
  secretOwner : Option Owner
  state : Option PbftState
  selfSk : Option Scalar
  /-- What the channel of the key generation holds. -/
  shares : List DkgShareMessage
  /-- What the channel of the broadcaster holds. -/
  votes : List PbftMessage
  /-- What the broadcaster has taken from its channel. -/
  broadcast : List PbftMessage
  main : MainTask

inductive ProcessAction where
  /-- One round of the listener. -/
  | accept (peerAddr : SocketAddr)
  /-- The peer of a connection has written its bytes. -/
  | receive (index : Nat) (stream : Bytes)
  /-- A task goes on. -/
  | advance (index : Nat) (io : WalIo)
  /-- One round of the broadcaster. -/
  | takeVote
  | main
  | deadlineReached
  | deadlineExpired

/-- The checks of a consensus message on what the first lock has read. -/
def checkMessage (state : Option PbftState) (selfSk : Option Scalar)
    (msg : PbftMessage) : Except ConnectionError Scalar :=
  match state with
  | none => .error .consensusStateNotInitialized
  | some state =>
      match state.publicKeys.get? msg.senderId with
      | none => .error .senderNotRegistered
      | some pk =>
          if !verifyBlsSignature msg.canonicalBytes msg.signature pk then
            .error .signatureRejected
          else
            match selfSk with
            | none => .error .localSecretKeyNotSet
            | some sk => .ok sk

/-- The same for a view-change payload, which needs no secret key. -/
def checkPayload (state : Option PbftState) (payload : ViewChangePayload) :
    Except ConnectionError Unit :=
  match state with
  | none => .error .consensusStateNotInitialized
  | some state =>
      match state.publicKeys.get? payload.senderId with
      | none => .error .senderNotRegistered
      | some pk =>
          if !verifyBlsSignature payload.canonicalBytes payload.signature pk then
            .error .viewChangeRejected
          else
            .ok ()

namespace Process

def setTask (process : Process) (index : Nat) (task : Task) : Process :=
  { process with tasks := process.tasks.set index task }

/-- A task that ends drops its permit. -/
def finish (process : Process) (index : Nat) (task : Task) : Process :=
  { process.setTask index task with permits := process.permits + 1 }

def failWith (process : Process) (index : Nat) (error : ConnectionError) :
    Process :=
  process.finish index (.ended (.error (.connection error)))

/-! ## The listener -/

/-- The checks of one round of the listener. -/
def admission (config : ServerConfig) (process : Process)
    (peerAddr : SocketAddr) : Admission :=
  if peerAddr.ip ∉ config.allowedIps then
    .rejectedUnauthorizedIp
  else if process.permits = 0 then
    .dropOverload
  else
    .spawned

def accept (config : ServerConfig) (process : Process)
    (peerAddr : SocketAddr) : Process :=
  match process.admission config peerAddr with
  | .rejectedUnauthorizedIp => process
  | .dropOverload => process
  | .spawned =>
      { process with
        permits := process.permits - 1
        tasks := process.tasks ++ [.reading] }

/-! ## One connection -/

/-- The reads of the socket, with the decoder. -/
def receive (process : Process) (index : Nat) (stream : Bytes) : Process :=
  match receivePacket stream with
  | .error error => process.finish index (.ended (.error (.receive error)))
  | .ok (.dkg msg) => process.setTask index (.sendingShare msg)
  | .ok (.consensus packet) => process.setTask index (.lockingState packet)

/-- The first critical section.  Its locks are dropped before the signature is
checked. -/
def readKeys (process : Process) (index : Nat) (packet : Packet) : Process :=
  match packet with
  | .pbft msg =>
      let released := { process with stateOwner := none, secretOwner := none }
      match checkMessage process.state process.selfSk msg with
      | .error error => released.failWith index error
      | .ok sk => released.setTask index (.lockingAgain msg sk)
  | .viewChange payload =>
      let released := { process with stateOwner := none }
      match checkPayload process.state payload with
      | .error error => released.failWith index error
      | .ok () => released.setTask index (.lockingView payload)

/-- The second critical section of a consensus message. -/
def handle (config : ServerConfig) (process : Process) (index : Nat)
    (msg : PbftMessage) (sk : Scalar) (io : WalIo) : Process :=
  let released := { process with stateOwner := none }
  match process.state with
  | none => released.finish index .panicked
  | some state =>
      match state.handleMessage msg io with
      | (.error error, after) =>
          { released with state := some after }.failWith index (.pbft error)
      | (.ok _, after) =>
          match after.outgoingMsg msg config.nodeId sk with
          | none =>
              { released with state := some after }.finish index
                (.ended (.ok (.answer none)))
          | some out =>
              { released with state := some after }.setTask index
                (.sendingVote out)

/-- The second critical section of a view-change payload. -/
def handleView (process : Process) (index : Nat)
    (payload : ViewChangePayload) : Process :=
  let released := { process with stateOwner := none }
  match process.state with
  | none => released.finish index .panicked
  | some state =>
      match state.handleViewChangePayload payload with
      | .error error => released.failWith index (.viewChange error)
      | .ok () => released.finish index (.ended (.ok (.answer none)))

/-- A task goes on from where it waits, if it can. -/
def advance (config : ServerConfig) (process : Process) (index : Nat)
    (io : WalIo) : Task → Option Process
  | .sendingShare msg =>
      if process.shares.length < channelCapacity then
        some ({ process with shares := process.shares ++ [msg] }.finish index
          (.ended (.ok (.share msg))))
      else
        none
  | .lockingState packet =>
      if process.stateOwner = none then
        some ({ process with stateOwner := some (.connection index) }.setTask
          index
          (match packet with
            | .pbft msg => .lockingSecret msg
            | .viewChange payload => .readingKeys (.viewChange payload)))
      else
        none
  | .lockingSecret msg =>
      if process.secretOwner = none then
        some ({ process with secretOwner := some (.connection index) }.setTask
          index (.readingKeys (.pbft msg)))
      else
        none
  | .readingKeys packet => some (process.readKeys index packet)
  | .lockingAgain msg sk =>
      if process.stateOwner = none then
        some ({ process with stateOwner := some (.connection index) }.setTask
          index (.handling msg sk))
      else
        none
  | .handling msg sk => some (process.handle config index msg sk io)
  | .lockingView payload =>
      if process.stateOwner = none then
        some ({ process with stateOwner := some (.connection index) }.setTask
          index (.handlingView payload))
      else
        none
  | .handlingView payload => some (process.handleView index payload)
  | .sendingVote out =>
      if process.votes.length < channelCapacity then
        some ({ process with votes := process.votes ++ [out] }.finish index
          (.ended (.ok (.answer (some out)))))
      else
        none
  | .reading => none
  | .ended _ => none
  | .panicked => none

/-! ## `main` -/

/-- `finalize_dkg`, the registry and `PbftState::new`, after the loop. -/
def finalize (config : ServerConfig) (wal : WriteAheadLog) (ingest : Ingest) :
    MainTask :=
  match ingest.session.finalizeDkg (participants config.totalNodes) with
  | .error error => .failed (.dkg error)
  | .ok (mySecretShare, canonicalMasterPk) =>
      match newWithWalPath config.totalNodes (config.registry ingest)
          canonicalMasterPk wal with
      | .error error => .failed (.pbft error)
      | .ok pbftState => .lockingState pbftState mySecretShare

/-- `main` goes on from where it waits, if it can. -/
def advanceMain (config : ServerConfig) (wal : WriteAheadLog)
    (process : Process) : Option Process :=
  match process.main with
  | .ingesting ingest =>
      if ingest.collectedPeers.len < config.totalNodes - 1 then
        match process.shares with
        | [] => none
        | msg :: rest =>
            some { process with
              shares := rest
              main := .ingesting (config.ingestMessage ingest msg) }
      else
        some { process with main := finalize config wal ingest }
  | .lockingState pbftState mySecretShare =>
      if process.stateOwner = none then
        some { process with
          stateOwner := some .main
          state := some pbftState
          main := .lockingSecret mySecretShare }
      else
        none
  | .lockingSecret mySecretShare =>
      if process.secretOwner = none then
        some { process with
          secretOwner := some .main
          selfSk := some mySecretShare
          main := .releasing }
      else
        none
  | .releasing =>
      some { process with stateOwner := none, secretOwner := none, main := .live }
  | .live => none
  | .failed _ => none

/-- A deadline that passes while dealers are missing ends `main`. -/
def expire (config : ServerConfig) (process : Process)
    (error : List UInt32 → BootstrapError) : Option Process :=
  match process.main with
  | .ingesting ingest =>
      if ingest.collectedPeers.len < config.totalNodes - 1 then
        some { process with
          main := .failed (.bootstrap (error (config.missingPeers ingest))) }
      else
        none
  | _ => none

end Process

/-- One action of the process.  After `main` has failed there is no process. -/
def processStep (config : ServerConfig) (wal : WriteAheadLog) (process : Process)
    (action : ProcessAction) : Option Process :=
  match process.main with
  | .failed _ => none
  | _ =>
      match action with
      | .accept peerAddr => some (process.accept config peerAddr)
      | .receive index stream =>
          match process.tasks[index]? with
          | some .reading => some (process.receive index stream)
          | _ => none
      | .advance index io =>
          (process.tasks[index]?).bind (process.advance config index io)
      | .takeVote =>
          match process.votes with
          | [] => none
          | out :: rest =>
              some { process with
                votes := rest, broadcast := process.broadcast ++ [out] }
      | .main => process.advanceMain config wal
      | .deadlineReached => process.expire config .deadlineReached
      | .deadlineExpired => process.expire config .deadlineExpired

/-- The process when the listener starts. -/
def ServerConfig.boot (config : ServerConfig) (secretPolynomial : List Scalar) :
    Process where
  permits := maxConnections
  tasks := []
  stateOwner := none
  secretOwner := none
  state := none
  selfSk := none
  shares := []
  votes := []
  broadcast := []
  main := .ingesting (config.start secretPolynomial)

end Process

end SovereignLattice
