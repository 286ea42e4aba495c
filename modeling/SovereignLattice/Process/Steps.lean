import SovereignLattice.Process.Machine

/-!
# What one action of a process does

One constructor for each way in which a task, `main` or the listener goes on, with what
it has found and the process that it leaves.
-/

namespace SovereignLattice

section Steps

variable [Curve] [Encodings]

namespace Process

/-- The ways in which the task of a connection goes on. -/
inductive Advanced (config : ServerConfig) (process : Process) (index : Nat)
    (io : WalIo) : Task → Process → Prop
  | sentShare (msg : DkgShareMessage)
      (room : process.shares.length < channelCapacity) :
      Advanced config process index io (.sendingShare msg)
        ({ process with shares := process.shares ++ [msg] }.finish index
          (.ended (.ok (.share msg))))
  | lockedMessage (msg : PbftMessage) (free : process.stateOwner = none) :
      Advanced config process index io (.lockingState (.pbft msg))
        ({ process with stateOwner := some (.connection index) }.setTask index
          (.lockingSecret msg))
  | lockedPayload (payload : ViewChangePayload)
      (free : process.stateOwner = none) :
      Advanced config process index io (.lockingState (.viewChange payload))
        ({ process with stateOwner := some (.connection index) }.setTask index
          (.readingKeys (.viewChange payload)))
  | lockedSecret (msg : PbftMessage) (free : process.secretOwner = none) :
      Advanced config process index io (.lockingSecret msg)
        ({ process with secretOwner := some (.connection index) }.setTask index
          (.readingKeys (.pbft msg)))
  | messageRefused (msg : PbftMessage) (error : ConnectionError)
      (refused : checkMessage process.state process.selfSk msg = .error error) :
      Advanced config process index io (.readingKeys (.pbft msg))
        ({ process with stateOwner := none, secretOwner := none }.failWith index
          error)
  | messageChecked (msg : PbftMessage) (sk : Scalar)
      (checked : checkMessage process.state process.selfSk msg = .ok sk) :
      Advanced config process index io (.readingKeys (.pbft msg))
        ({ process with stateOwner := none, secretOwner := none }.setTask index
          (.lockingAgain msg sk))
  | payloadRefused (payload : ViewChangePayload) (error : ConnectionError)
      (refused : checkPayload process.state payload = .error error) :
      Advanced config process index io (.readingKeys (.viewChange payload))
        ({ process with stateOwner := none }.failWith index error)
  | payloadChecked (payload : ViewChangePayload)
      (checked : checkPayload process.state payload = .ok ()) :
      Advanced config process index io (.readingKeys (.viewChange payload))
        ({ process with stateOwner := none }.setTask index
          (.lockingView payload))
  | lockedAgain (msg : PbftMessage) (sk : Scalar)
      (free : process.stateOwner = none) :
      Advanced config process index io (.lockingAgain msg sk)
        ({ process with stateOwner := some (.connection index) }.setTask index
          (.handling msg sk))
  | handlingPanicked (msg : PbftMessage) (sk : Scalar)
      (missing : process.state = none) :
      Advanced config process index io (.handling msg sk)
        ({ process with stateOwner := none }.finish index .panicked)
  | handlerRefused (msg : PbftMessage) (sk : Scalar) (state after : PbftState)
      (error : PbftError) (held : process.state = some state)
      (answered : state.handleMessage msg io = (.error error, after)) :
      Advanced config process index io (.handling msg sk)
        ({ process with stateOwner := none, state := some after }.failWith index
          (.pbft error))
  | handlerSilent (msg : PbftMessage) (sk : Scalar) (state after : PbftState)
      (response : Response) (held : process.state = some state)
      (answered : state.handleMessage msg io = (.ok response, after))
      (quiet : after.outgoingMsg msg config.nodeId sk = none) :
      Advanced config process index io (.handling msg sk)
        ({ process with stateOwner := none, state := some after }.finish index
          (.ended (.ok (.answer none))))
  | handlerAnswered (msg : PbftMessage) (sk : Scalar) (state after : PbftState)
      (response : Response) (out : PbftMessage)
      (held : process.state = some state)
      (answered : state.handleMessage msg io = (.ok response, after))
      (sends : after.outgoingMsg msg config.nodeId sk = some out) :
      Advanced config process index io (.handling msg sk)
        ({ process with stateOwner := none, state := some after }.setTask index
          (.sendingVote out))
  | lockedView (payload : ViewChangePayload) (free : process.stateOwner = none) :
      Advanced config process index io (.lockingView payload)
        ({ process with stateOwner := some (.connection index) }.setTask index
          (.handlingView payload))
  | viewPanicked (payload : ViewChangePayload) (missing : process.state = none) :
      Advanced config process index io (.handlingView payload)
        ({ process with stateOwner := none }.finish index .panicked)
  | viewRefused (payload : ViewChangePayload) (state : PbftState)
      (error : ViewChangeError) (held : process.state = some state)
      (refused : state.handleViewChangePayload payload = .error error) :
      Advanced config process index io (.handlingView payload)
        ({ process with stateOwner := none }.failWith index (.viewChange error))
  | viewAccepted (payload : ViewChangePayload) (state : PbftState)
      (held : process.state = some state)
      (accepted : state.handleViewChangePayload payload = .ok ()) :
      Advanced config process index io (.handlingView payload)
        ({ process with stateOwner := none }.finish index
          (.ended (.ok (.answer none))))
  | sentVote (out : PbftMessage) (room : process.votes.length < channelCapacity) :
      Advanced config process index io (.sendingVote out)
        ({ process with votes := process.votes ++ [out] }.finish index
          (.ended (.ok (.answer (some out)))))

omit [Encodings] in
theorem advanced_of_advance {config : ServerConfig} {process next : Process}
    {index : Nat} {io : WalIo} {task : Task}
    (advanced : process.advance config index io task = some next) :
    Advanced config process index io task next := by
  cases task with
  | reading => cases advanced
  | ended => cases advanced
  | panicked => cases advanced
  | sendingShare msg =>
      rw [advance, Option.ite_none_right_eq_some] at advanced
      cases advanced.2
      exact .sentShare msg advanced.1
  | lockingState packet =>
      cases packet with
      | pbft msg =>
          rw [advance, Option.ite_none_right_eq_some] at advanced
          cases advanced.2
          exact .lockedMessage msg advanced.1
      | viewChange payload =>
          rw [advance, Option.ite_none_right_eq_some] at advanced
          cases advanced.2
          exact .lockedPayload payload advanced.1
  | lockingSecret msg =>
      rw [advance, Option.ite_none_right_eq_some] at advanced
      cases advanced.2
      exact .lockedSecret msg advanced.1
  | readingKeys packet =>
      cases advanced
      cases packet with
      | pbft msg =>
          rw [readKeys]
          split
          · rename_i error checked
            exact .messageRefused msg error checked
          · rename_i sk checked
            exact .messageChecked msg sk checked
      | viewChange payload =>
          rw [readKeys]
          split
          · rename_i error checked
            exact .payloadRefused payload error checked
          · rename_i checked
            exact .payloadChecked payload checked
  | lockingAgain msg sk =>
      rw [advance, Option.ite_none_right_eq_some] at advanced
      cases advanced.2
      exact .lockedAgain msg sk advanced.1
  | handling msg sk =>
      cases advanced
      rw [handle]
      split
      · rename_i missing
        exact .handlingPanicked msg sk missing
      rename_i state held
      split
      · rename_i error after answered
        exact .handlerRefused msg sk state after error held answered
      rename_i response after answered
      split
      · rename_i quiet
        exact .handlerSilent msg sk state after response held answered quiet
      · rename_i out sends
        exact .handlerAnswered msg sk state after response out held answered sends
  | lockingView payload =>
      rw [advance, Option.ite_none_right_eq_some] at advanced
      cases advanced.2
      exact .lockedView payload advanced.1
  | handlingView payload =>
      cases advanced
      rw [handleView]
      split
      · rename_i missing
        exact .viewPanicked payload missing
      rename_i state held
      split
      · rename_i error refused
        exact .viewRefused payload state error held refused
      · rename_i accepted
        exact .viewAccepted payload state held accepted
  | sendingVote out =>
      rw [advance, Option.ite_none_right_eq_some] at advanced
      cases advanced.2
      exact .sentVote out advanced.1

/-- The ways in which `main` goes on. -/
inductive MainAdvanced (config : ServerConfig) (wal : WriteAheadLog)
    (process : Process) : MainTask → Process → Prop
  | ingested (ingest : Ingest) (msg : DkgShareMessage)
      (rest : List DkgShareMessage)
      (few : ingest.collectedPeers.len < config.totalNodes - 1)
      (queued : process.shares = msg :: rest) :
      MainAdvanced config wal process (.ingesting ingest)
        { process with
          shares := rest
          main := .ingesting (config.ingestMessage ingest msg) }
  | finalized (ingest : Ingest)
      (enough : ¬ ingest.collectedPeers.len < config.totalNodes - 1) :
      MainAdvanced config wal process (.ingesting ingest)
        { process with main := finalize config wal ingest }
  | lockedState (pbftState : PbftState) (mySecretShare : Scalar)
      (free : process.stateOwner = none) :
      MainAdvanced config wal process (.lockingState pbftState mySecretShare)
        { process with
          stateOwner := some .main
          state := some pbftState
          main := .lockingSecret mySecretShare }
  | lockedSecret (mySecretShare : Scalar) (free : process.secretOwner = none) :
      MainAdvanced config wal process (.lockingSecret mySecretShare)
        { process with
          secretOwner := some .main
          selfSk := some mySecretShare
          main := .releasing }
  | released :
      MainAdvanced config wal process .releasing
        { process with stateOwner := none, secretOwner := none, main := .live }

theorem mainAdvanced_of_advanceMain {config : ServerConfig} {wal : WriteAheadLog}
    {process next : Process}
    (advanced : process.advanceMain config wal = some next) :
    MainAdvanced config wal process process.main next := by
  rw [advanceMain] at advanced
  cases place : process.main with
  | ingesting ingest =>
      simp only [place] at advanced
      split at advanced
      · rename_i few
        cases queued : process.shares with
        | nil => simp [queued] at advanced
        | cons msg rest =>
            simp only [queued, Option.some.injEq] at advanced
            subst advanced
            exact .ingested ingest msg rest few queued
      · rename_i enough
        rw [Option.some.injEq] at advanced
        subst advanced
        exact .finalized ingest enough
  | lockingState pbftState mySecretShare =>
      simp only [place, Option.ite_none_right_eq_some] at advanced
      cases advanced.2
      exact .lockedState pbftState mySecretShare advanced.1
  | lockingSecret mySecretShare =>
      simp only [place, Option.ite_none_right_eq_some] at advanced
      cases advanced.2
      exact .lockedSecret mySecretShare advanced.1
  | releasing =>
      simp only [place, Option.some.injEq] at advanced
      subst advanced
      exact .released
  | live => simp [place] at advanced
  | failed error => simp [place] at advanced

/-- What one action of the process does. -/
inductive Stepped (config : ServerConfig) (wal : WriteAheadLog)
    (process : Process) : ProcessAction → Process → Prop
  | refused (peerAddr : SocketAddr)
      (denied : process.admission config peerAddr ≠ .spawned) :
      Stepped config wal process (.accept peerAddr) process
  | spawned (peerAddr : SocketAddr) (allowed : peerAddr.ip ∈ config.allowedIps)
      (free : 0 < process.permits) :
      Stepped config wal process (.accept peerAddr)
        { process with
          permits := process.permits - 1
          tasks := process.tasks ++ [.reading] }
  | unreadable (index : Nat) (stream : Bytes) (error : ReceiveError)
      (stands : process.tasks[index]? = some .reading)
      (read : receivePacket stream = .error error) :
      Stepped config wal process (.receive index stream)
        (process.finish index (.ended (.error (.receive error))))
  | receivedShare (index : Nat) (stream : Bytes) (msg : DkgShareMessage)
      (stands : process.tasks[index]? = some .reading)
      (read : receivePacket stream = .ok (.dkg msg)) :
      Stepped config wal process (.receive index stream)
        (process.setTask index (.sendingShare msg))
  | receivedPacket (index : Nat) (stream : Bytes) (packet : Packet)
      (stands : process.tasks[index]? = some .reading)
      (read : receivePacket stream = .ok (.consensus packet)) :
      Stepped config wal process (.receive index stream)
        (process.setTask index (.lockingState packet))
  | advanced (index : Nat) (io : WalIo) (task : Task) (next : Process)
      (stands : process.tasks[index]? = some task)
      (moved : Advanced config process index io task next) :
      Stepped config wal process (.advance index io) next
  | tookVote (out : PbftMessage) (rest : List PbftMessage)
      (queued : process.votes = out :: rest) :
      Stepped config wal process .takeVote
        { process with votes := rest, broadcast := process.broadcast ++ [out] }
  | main (next : Process)
      (moved : MainAdvanced config wal process process.main next) :
      Stepped config wal process .main next
  | expired (action : ProcessAction) (ingest : Ingest) (error : BootstrapError)
      (waits : process.main = .ingesting ingest)
      (deadline : action = .deadlineReached ∨ action = .deadlineExpired) :
      Stepped config wal process action
        { process with main := .failed (.bootstrap error) }

theorem stepped_of_processStep {config : ServerConfig} {wal : WriteAheadLog}
    {process next : Process} {action : ProcessAction}
    (stepped : processStep config wal process action = some next) :
    Stepped config wal process action next ∧
      ∀ error, process.main ≠ .failed error := by
  unfold processStep at stepped
  split at stepped
  · cases stepped
  rename_i running
  refine ⟨?_, running⟩
  cases action with
  | accept peerAddr =>
      rw [Option.some.injEq] at stepped
      subst stepped
      rw [accept]
      cases admitted : process.admission config peerAddr with
      | rejectedUnauthorizedIp => exact .refused peerAddr (by simp [admitted])
      | dropOverload => exact .refused peerAddr (by simp [admitted])
      | spawned =>
          rw [admission] at admitted
          split at admitted
          · cases admitted
          rename_i allowed
          split at admitted
          · cases admitted
          rename_i free
          exact .spawned peerAddr (not_not.mp allowed) (Nat.pos_of_ne_zero free)
  | receive index stream =>
      dsimp only at stepped
      split at stepped
      · rename_i stands
        rw [Option.some.injEq] at stepped
        subst stepped
        rw [receive]
        rcases read : receivePacket stream with error | msg | packet
        · exact .unreadable index stream error stands read
        · exact .receivedShare index stream msg stands read
        · exact .receivedPacket index stream packet stands read
      · cases stepped
  | advance index io =>
      rcases Option.bind_eq_some_iff.mp stepped with ⟨task, stands, moved⟩
      exact .advanced index io task next stands (advanced_of_advance moved)
  | takeVote =>
      cases queued : process.votes with
      | nil => simp [queued] at stepped
      | cons out rest =>
          simp only [queued, Option.some.injEq] at stepped
          subst stepped
          exact .tookVote out rest queued
  | main => exact .main next (mainAdvanced_of_advanceMain stepped)
  | deadlineReached =>
      dsimp only [expire] at stepped
      split at stepped
      · rename_i ingest waits
        rw [Option.ite_none_right_eq_some] at stepped
        cases stepped.2
        exact .expired _ ingest _ waits (Or.inl rfl)
      · cases stepped
  | deadlineExpired =>
      dsimp only [expire] at stepped
      split at stepped
      · rename_i ingest waits
        rw [Option.ite_none_right_eq_some] at stepped
        cases stepped.2
        exact .expired _ ingest _ waits (Or.inr rfl)
      · cases stepped

end Process

end Steps

end SovereignLattice
