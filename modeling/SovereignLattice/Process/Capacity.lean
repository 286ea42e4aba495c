import SovereignLattice.Process.Progress

/-!
# The permits and the channel of the key generation

Once it is live, `main` takes no share from the channel any more, and the channel stays
open.  A share that arrives later keeps its place, and when the channel is full the
connection that brought it keeps its permit for good.
-/

namespace SovereignLattice

section Capacity

variable [Curve] [Encodings]

/-- The connection waits for room for its share. -/
def Task.sendsShare : Task → Bool
  | .sendingShare _ => true
  | _ => false

omit [Encodings] in
theorem countP_running (tasks : List Task) :
    tasks.countP Task.running = tasks.countP Task.sendsShare +
      tasks.countP fun task => task.running && !task.sendsShare := by
  induction tasks with
  | nil => rfl
  | cons task rest inductionHypothesis =>
      simp only [List.countP_cons, inductionHypothesis]
      cases task <;> simp [Task.running, Task.sendsShare] <;> omega

namespace Process

variable {config : ServerConfig} {wal : WriteAheadLog} {process next : Process}
variable {index count : Nat} {io : WalIo} {old : Task}

/-! ## A full channel stays full -/

/-- The process is live, its channel of shares is full, and this many connections wait
for room in it. -/
structure Clogged (count : Nat) (process : Process) : Prop where
  sound : process.Sound
  live : process.main = .live
  full : process.shares.length = channelCapacity
  waiting : count ≤ process.tasks.countP Task.sendsShare

namespace Clogged

omit [Encodings] in
theorem permits_le (clogged : Clogged count process) :
    process.permits + count ≤ maxConnections := by
  have permitted := clogged.sound.permitted
  have waiting := clogged.waiting
  rw [countP_running] at permitted
  omega

omit [Encodings] in
/-- A task that does not wait for room moves without taking a waiting one away. -/
theorem waiting_set (clogged : Clogged count process)
    (stands : process.tasks[index]? = some old) (other : old.sendsShare = false)
    (new : Task) :
    count ≤ (process.tasks.set index new).countP Task.sendsShare := by
  have waiting := clogged.waiting
  have counted := countP_set Task.sendsShare stands new
  rw [other] at counted
  simp only [Bool.false_eq_true, if_false, Nat.add_zero] at counted
  rw [counted]
  exact waiting.trans (Nat.le_add_right _ _)

omit [Encodings] in
/-- No task that waits for room goes on. -/
theorem sendsShare_of_advanced (clogged : Clogged count process)
    (moved : Advanced config process index io old next) :
    old.sendsShare = false ∧ next.main = process.main ∧
      next.shares = process.shares ∧
        ∃ new, next.tasks = process.tasks.set index new := by
  cases moved with
  | sentShare msg room =>
      have full := clogged.full
      omega
  | _ => exact ⟨rfl, rfl, rfl, _, rfl⟩

theorem step (clogged : Clogged count process) {action : ProcessAction}
    (stepped : processStep config wal process action = some next) :
    Clogged count next := by
  have sound := clogged.sound.step stepped
  have live := clogged.live
  rcases (stepped_of_processStep stepped).1 with
    peerAddr | ⟨peerAddr, allowed, free⟩ | ⟨index, stream, error, stands, read⟩ |
      ⟨index, stream, msg, stands, read⟩ | ⟨index, stream, packet, stands, read⟩ |
      ⟨index, io, task, next, stands, moved⟩ | ⟨out, rest, queued⟩ |
      ⟨next, moved⟩ | ⟨action, ingest, error, waits, deadline⟩
  · exact clogged
  · refine ⟨sound, live, clogged.full, ?_⟩
    rw [List.countP_append]
    exact clogged.waiting.trans (Nat.le_add_right _ _)
  · exact ⟨sound, live, clogged.full, clogged.waiting_set stands rfl _⟩
  · exact ⟨sound, live, clogged.full, clogged.waiting_set stands rfl _⟩
  · exact ⟨sound, live, clogged.full, clogged.waiting_set stands rfl _⟩
  · rcases clogged.sendsShare_of_advanced moved with
      ⟨other, sameMain, sameShares, new, sameTasks⟩
    refine ⟨sound, sameMain.trans live, sameShares ▸ clogged.full, ?_⟩
    rw [sameTasks]
    exact clogged.waiting_set stands other new
  · exact ⟨sound, live, clogged.full, clogged.waiting⟩
  · rw [live] at moved
    cases moved
  · rw [live] at waits
    cases waits

theorem of_run (clogged : Clogged count process) {later : List ProcessAction}
    {final : Process}
    (continued : run (processStep config wal) process later = some final) :
    Clogged count final :=
  invariant_of_run (fun _ _ _ holds stepped => holds.step stepped) clogged continued

omit [Encodings] in
/-- With every permit at a waiting connection no other connection runs. -/
theorem waits_of_running (clogged : Clogged maxConnections process)
    (stands : process.tasks[index]? = some old) (running : old.running = true) :
    old.sendsShare = true := by
  by_contra other
  have permitted := clogged.sound.permitted
  have waiting := clogged.waiting
  have positive : 0 < process.tasks.countP fun task =>
      task.running && !task.sendsShare := by
    apply List.countP_pos_iff.mpr
    exact ⟨old, List.mem_of_getElem? stands, by simp [running, other]⟩
  rw [countP_running] at permitted
  omega

/-- With every permit at a waiting connection only the broadcaster goes on. -/
theorem frozen_step (clogged : Clogged maxConnections process)
    {action : ProcessAction}
    (stepped : processStep config wal process action = some next) :
    next.tasks = process.tasks ∧ next.state = process.state := by
  have noPermit : process.permits = 0 := by
    have fits := clogged.permits_le
    omega
  rcases (stepped_of_processStep stepped).1 with
    peerAddr | ⟨peerAddr, allowed, free⟩ | ⟨index, stream, error, stands, read⟩ |
      ⟨index, stream, msg, stands, read⟩ | ⟨index, stream, packet, stands, read⟩ |
      ⟨index, io, task, next, stands, moved⟩ | ⟨out, rest, queued⟩ |
      ⟨next, moved⟩ | ⟨action, ingest, error, waits, deadline⟩
  · exact ⟨rfl, rfl⟩
  · omega
  · cases clogged.waits_of_running stands rfl
  · cases clogged.waits_of_running stands rfl
  · cases clogged.waits_of_running stands rfl
  · have other := (clogged.sendsShare_of_advanced moved).1
    have running : task.running = true := by
      cases moved <;> rfl
    rw [clogged.waits_of_running stands running] at other
    cases other
  · exact ⟨rfl, rfl⟩
  · rw [clogged.live] at moved
    cases moved
  · rw [clogged.live] at waits
    cases waits

/-- Clogged as before, with the tasks and the state of the other process. -/
def Frozen (maxConnections : Nat) (process current : Process) : Prop :=
  Clogged maxConnections current ∧ current.tasks = process.tasks ∧
    current.state = process.state

theorem frozen (clogged : Clogged maxConnections process)
    {later : List ProcessAction} {final : Process}
    (continued : run (processStep config wal) process later = some final) :
    final.tasks = process.tasks ∧ final.state = process.state := by
  have kept : ∀ current action next, Frozen maxConnections process current →
      processStep config wal current action = some next →
        Frozen maxConnections process next := by
    intro current action next ⟨holds, sameTasks, sameState⟩ stepped
    rcases holds.frozen_step stepped with ⟨tasks, state⟩
    exact ⟨holds.step stepped, tasks.trans sameTasks, state.trans sameState⟩
  have ended : Frozen maxConnections process final :=
    invariant_of_run kept ⟨clogged, rfl, rfl⟩ continued
  exact ended.2

end Clogged

/-! ## Filling the channel -/

omit [Encodings] in
theorem accept_of_allowed {addr : SocketAddr} (allowed : addr.ip ∈ config.allowedIps)
    (free : 0 < process.permits) :
    process.accept config addr =
      { process with
        permits := process.permits - 1
        tasks := process.tasks ++ [.reading] } := by
  have admitted : process.admission config addr = .spawned := by
    rw [admission, if_neg (not_not.mpr allowed), if_neg (Nat.ne_of_gt free)]
  rw [accept, admitted]

theorem processStep_accept (alive : process.Alive) (addr : SocketAddr) :
    processStep config wal process (.accept addr) =
      some (process.accept config addr) := by
  unfold processStep
  split
  · rename_i error failed
    exact absurd failed (alive error)
  · rfl

theorem processStep_receive (alive : process.Alive)
    (stands : process.tasks[index]? = some .reading) (stream : Bytes) :
    processStep config wal process (.receive index stream) =
      some (process.receive index stream) := by
  unfold processStep
  split
  · rename_i error failed
    exact absurd failed (alive error)
  · dsimp only
    rw [stands]

omit [Encodings] in
theorem getElem?_concat_last (tasks : List Task) (task : Task) :
    (tasks ++ [task])[tasks.length]? = some task := by
  simp

omit [Encodings] in
theorem set_concat_last (tasks : List Task) (task new : Task) :
    (tasks ++ [task]).set tasks.length new = tasks ++ [new] := by
  simp

/-- The process with shares that have taken a place in the channel. -/
def filled (process : Process) (count : Nat) (msg : DkgShareMessage) : Process :=
  { process with
    shares := process.shares ++ List.replicate count msg
    tasks := process.tasks ++ List.replicate count (.ended (.ok (.share msg))) }

/-- The process with connections that wait for a place in the channel. -/
def blocked (process : Process) (count : Nat) (msg : DkgShareMessage) : Process :=
  { process with
    permits := process.permits - count
    tasks := process.tasks ++ List.replicate count (.sendingShare msg) }

omit [Encodings] in
theorem filled_succ (process : Process) (count : Nat) (msg : DkgShareMessage) :
    process.filled (count + 1) msg = (process.filled count msg).filled 1 msg := by
  simp [filled, List.replicate_succ']

omit [Encodings] in
theorem blocked_succ (process : Process) (count : Nat) (msg : DkgShareMessage) :
    process.blocked (count + 1) msg = (process.blocked count msg).blocked 1 msg := by
  simp [blocked, List.replicate_succ', Nat.sub_sub]

/-- A connection that brings a share, as far as the channel. -/
theorem run_share (live : process.main = .live) {addr : SocketAddr}
    (allowed : addr.ip ∈ config.allowedIps) (free : 0 < process.permits)
    {stream : Bytes} {msg : DkgShareMessage}
    (read : receivePacket stream = .ok (.dkg msg)) :
    run (processStep config wal) process
        [.accept addr, .receive process.tasks.length stream] =
      some (process.blocked 1 msg) := by
  have alive : process.Alive := by simp [Alive, live]
  have accepted : processStep config wal process (.accept addr) = some _ :=
    processStep_accept alive addr
  rw [accept_of_allowed allowed free] at accepted
  have aliveConnected : ({ process with
      permits := process.permits - 1
      tasks := process.tasks ++ [.reading] } : Process).Alive := alive
  have received : processStep config wal _
      (.receive process.tasks.length stream) = some _ :=
    processStep_receive aliveConnected (getElem?_concat_last _ _) stream
  refine run_cons_eq_some.mpr ⟨_, accepted, run_cons_eq_some.mpr ⟨_, received, ?_⟩⟩
  rw [receive, read]
  dsimp only
  rw [setTask, set_concat_last]
  rfl

/-- The actions of a flood: connections from one address that bring one frame. -/
def FloodAction (addr : SocketAddr) (stream : Bytes) (action : ProcessAction) : Prop :=
  action = .accept addr ∨ (∃ index, action = .receive index stream) ∨
    ∃ index, action = .advance index .durable

/-- The number of connections that a run accepts. -/
def connections (actions : List ProcessAction) : Nat :=
  actions.countP fun action => match action with
    | .accept _ => true
    | _ => false

/-- A flood from a process to another one, with this many connections. -/
def Floods (config : ServerConfig) (wal : WriteAheadLog) (addr : SocketAddr)
    (stream : Bytes) (count : Nat) (process final : Process) : Prop :=
  ∃ flood, (∀ action ∈ flood, FloodAction addr stream action) ∧
    connections flood = count ∧
      run (processStep config wal) process flood = some final

theorem Floods.trans {addr : SocketAddr} {stream : Bytes} {first second : Nat}
    {middle final : Process}
    (before : Floods config wal addr stream first process middle)
    (after : Floods config wal addr stream second middle final) :
    Floods config wal addr stream (first + second) process final := by
  rcases before with ⟨flood, only, counted, ran⟩
  rcases after with ⟨more, onlyMore, countedMore, ranOn⟩
  refine ⟨flood ++ more, ?_, ?_, run_append_eq_some.mpr ⟨middle, ran, ranOn⟩⟩
  · intro action member
    rcases List.mem_append.mp member with isFirst | isSecond
    · exact only action isFirst
    · exact onlyMore action isSecond
  · rw [connections, List.countP_append]
    exact congrArg₂ (· + ·) counted countedMore

theorem Floods.none (process : Process) (addr : SocketAddr) (stream : Bytes) :
    Floods config wal addr stream 0 process process :=
  ⟨[], fun _ member => absurd member List.not_mem_nil, rfl, rfl⟩

theorem floods_of_share (live : process.main = .live) {addr : SocketAddr}
    (allowed : addr.ip ∈ config.allowedIps) (free : 0 < process.permits)
    {stream : Bytes} {msg : DkgShareMessage}
    (read : receivePacket stream = .ok (.dkg msg)) :
    Floods config wal addr stream 1 process (process.blocked 1 msg) := by
  refine ⟨[.accept addr, .receive process.tasks.length stream], ?_, rfl,
    run_share live allowed free read⟩
  simp [FloodAction]

/-- While there is room, a share takes a place in the channel. -/
theorem floods_fill_one (live : process.main = .live) {addr : SocketAddr}
    (allowed : addr.ip ∈ config.allowedIps) (free : 0 < process.permits)
    {stream : Bytes} {msg : DkgShareMessage}
    (read : receivePacket stream = .ok (.dkg msg))
    (room : process.shares.length < channelCapacity) :
    Floods config wal addr stream 1 process (process.filled 1 msg) := by
  have brought : Floods config wal addr stream 1 process (process.blocked 1 msg) :=
    floods_of_share live allowed free read
  have alive : (process.blocked 1 msg).Alive := by simp [Alive, blocked, live]
  have stands : (process.blocked 1 msg).tasks[process.tasks.length]? =
      some (.sendingShare msg) :=
    getElem?_concat_last _ _
  have advanced : (process.blocked 1 msg).advance config process.tasks.length .durable
      (.sendingShare msg) =
        some ({ process.blocked 1 msg with shares := process.shares ++ [msg] }.finish
          process.tasks.length (.ended (.ok (.share msg)))) :=
    if_pos room
  have same : { process.blocked 1 msg with shares := process.shares ++ [msg] }.finish
      process.tasks.length (.ended (.ok (.share msg))) = process.filled 1 msg := by
    have permits : process.permits - 1 + 1 = process.permits := by omega
    simp [finish, setTask, blocked, filled, permits]
  have stepped : processStep config wal (process.blocked 1 msg)
      (.advance process.tasks.length .durable) = _ :=
    step_advance alive stands advanced
  rw [same] at stepped
  have ended : Floods config wal addr stream 0 (process.blocked 1 msg)
      (process.filled 1 msg) :=
    ⟨[.advance process.tasks.length .durable], by simp [FloodAction], rfl,
      run_cons_eq_some.mpr ⟨_, stepped, rfl⟩⟩
  exact brought.trans ended

theorem floods_fill (live : process.main = .live) {addr : SocketAddr}
    (allowed : addr.ip ∈ config.allowedIps) (free : 0 < process.permits)
    {stream : Bytes} {msg : DkgShareMessage}
    (read : receivePacket stream = .ok (.dkg msg)) (count : Nat)
    (room : process.shares.length + count ≤ channelCapacity) :
    Floods config wal addr stream count process (process.filled count msg) := by
  induction count with
  | zero =>
      have same : process.filled 0 msg = process := by simp [filled]
      rw [same]
      exact Floods.none process addr stream
  | succ count inductionHypothesis =>
      have before := inductionHypothesis (by omega)
      have length : (process.filled count msg).shares.length < channelCapacity := by
        simp only [filled, List.length_append, List.length_replicate]
        omega
      have liveFilled : (process.filled count msg).main = .live := live
      have freeFilled : 0 < (process.filled count msg).permits := free
      rw [filled_succ]
      exact before.trans (floods_fill_one liveFilled allowed freeFilled read length)

/-- With a full channel a connection that brings a share keeps its permit. -/
theorem floods_block (live : process.main = .live) {addr : SocketAddr}
    (allowed : addr.ip ∈ config.allowedIps) {stream : Bytes} {msg : DkgShareMessage}
    (read : receivePacket stream = .ok (.dkg msg)) (count : Nat)
    (free : count ≤ process.permits) :
    Floods config wal addr stream count process (process.blocked count msg) := by
  induction count with
  | zero =>
      have same : process.blocked 0 msg = process := by simp [blocked]
      rw [same]
      exact Floods.none process addr stream
  | succ count inductionHypothesis =>
      have before := inductionHypothesis (by omega)
      have left : 0 < (process.blocked count msg).permits := Nat.sub_pos_of_lt free
      have liveBlocked : (process.blocked count msg).main = .live := live
      rw [blocked_succ]
      exact before.trans (floods_of_share liveBlocked allowed left read)

end Process

/-- A framed share message is received whatever its fields are. -/
theorem receivePacket_share {msg : DkgShareMessage}
    (few : msg.commitments.length ≤ 84) :
    receivePacket (sendFramedMessage packetTypeDkg msg.toBytes) =
      .ok (.dkg msg) := by
  have width := DkgShareMessage.length_toBytes msg
  have nonempty : 0 < msg.toBytes.length := by omega
  have fits : msg.toBytes.length + 1 ≤ maxPacketSize := by
    rw [width, maxPacketSize]
    omega
  have framed : receivePacket
      (sendFramedMessage packetTypeDkg msg.toBytes ++ []) = _ :=
    receivePacket_of_fits nonempty fits []
  rw [List.append_nil] at framed
  rw [framed, decodePayload, if_pos rfl, DkgShareMessage.fromBytes_toBytes]

/-- What is left when the channel and all free permits are taken. -/
theorem exists_clogged {config : ServerConfig} {wal : WriteAheadLog}
    {process : Process} (sound : process.Sound) (live : process.main = .live)
    (free : 0 < process.permits) {addr : SocketAddr}
    (allowed : addr.ip ∈ config.allowedIps) {stream : Bytes} {msg : DkgShareMessage}
    (read : receivePacket stream = .ok (.dkg msg)) :
    ∃ count wedged, count ≤ channelCapacity + maxConnections ∧
      Process.Floods config wal addr stream count process wedged ∧
        wedged.state = process.state ∧
          Process.Clogged process.permits wedged := by
  have sharesFit := sound.sharesFit
  have permitted := sound.permitted
  rcases Nat.exists_eq_add_of_le sharesFit with ⟨room, capacity⟩
  have fills : Process.Floods config wal addr stream room process
      (process.filled room msg) :=
    Process.floods_fill live allowed free read room (by omega)
  have liveFilled : (process.filled room msg).main = .live := live
  have blocks : Process.Floods config wal addr stream process.permits
      (process.filled room msg)
      ((process.filled room msg).blocked process.permits msg) :=
    Process.floods_block liveFilled allowed read process.permits le_rfl
  have both := fills.trans blocks
  refine ⟨room + process.permits, _, by omega, both, rfl, ?_⟩
  rcases both with ⟨flood, _, _, ran⟩
  refine ⟨invariant_of_run (fun _ _ _ holds stepped => holds.step stepped) sound ran,
    live, ?_, ?_⟩
  · simp only [Process.blocked, Process.filled, List.length_append,
      List.length_replicate]
    omega
  · have waiting : (List.replicate process.permits (Task.sendingShare msg)).countP
        Task.sendsShare = process.permits := by
      rw [List.countP_replicate]
      rfl
    rw [Process.blocked, List.countP_append, waiting]
    exact Nat.le_add_left _ _

/-- From every live process one allowed peer, with at most 384 connections that bring
one share message, takes all permits that are free, and they never come back.  The share
needs no valid signature.  If the process was idle, no connection is accepted and the
replica does not change any more, whatever happens next. -/
theorem shareFlood_exhausts {config : ServerConfig} {wal : WriteAheadLog}
    {secretPolynomial : List Scalar} {actions : List ProcessAction}
    {process : Process}
    (reached : run (processStep config wal) (config.boot secretPolynomial) actions =
      some process)
    (live : process.main = .live) {addr : SocketAddr}
    (allowed : addr.ip ∈ config.allowedIps) {msg : DkgShareMessage}
    (few : msg.commitments.length ≤ 84) :
    ∃ count wedged, count ≤ channelCapacity + maxConnections ∧
      Process.Floods config wal addr
          (sendFramedMessage packetTypeDkg msg.toBytes) count process wedged ∧
        wedged.state = process.state ∧
          ∀ later final, run (processStep config wal) wedged later = some final →
            final.permits + process.permits ≤ maxConnections ∧
              (process.permits = maxConnections →
                final.tasks = wedged.tasks ∧ final.state = wedged.state) := by
  have sound := Process.Sound.of_run reached
  rcases Nat.eq_zero_or_pos process.permits with none | free
  · refine ⟨0, process, Nat.zero_le _, Process.Floods.none process addr _, rfl, ?_⟩
    intro later final continued
    have after : final.Sound :=
      invariant_of_run (fun _ _ _ holds stepped => holds.step stepped) sound continued
    have permitted := after.permitted
    refine ⟨by omega, ?_⟩
    intro idle
    rw [none] at idle
    cases idle
  · have taken : ∃ count wedged, count ≤ channelCapacity + maxConnections ∧
        Process.Floods config wal addr
            (sendFramedMessage packetTypeDkg msg.toBytes) count process wedged ∧
          wedged.state = process.state ∧
            Process.Clogged process.permits wedged :=
      exists_clogged sound live free allowed (receivePacket_share few)
    rcases taken with ⟨count, wedged, bounded, floods, sameState, clogged⟩
    refine ⟨count, wedged, bounded, floods, sameState, ?_⟩
    intro later final continued
    refine ⟨(clogged.of_run continued).permits_le, ?_⟩
    intro idle
    rw [idle] at clogged
    exact clogged.frozen continued

end Capacity

section SmallRun

open SoloProcess

attribute [local instance] smallCurve smallEncodings

/-- A share message of nobody for nobody, without commitments and signature. -/
def idleShare : DkgShareMessage where
  fromNode := 9
  toNode := 9
  share := 0
  commitments := []
  signature := 0

/-- The theorem at a process that has just gone live. -/
theorem shareFlood_exhausts_afterBoot :
    ∃ process wedged, run (processStep config ⟨[]⟩) (config.boot secretPolynomial)
        goLive = some process ∧
      (∃ count, Process.Floods config ⟨[]⟩ localAddr
        (sendFramedMessage packetTypeDkg idleShare.toBytes) count process wedged) ∧
      ∀ later final, run (processStep config ⟨[]⟩) wedged later = some final →
        final.state = process.state := by
  have evaluated : (run step boot goLive).map (fun process =>
      (process.permits, process.main.isLive)) = some (maxConnections, true) := by
    decide +kernel
  rcases Option.map_eq_some_iff.mp evaluated with ⟨process, reached, observed⟩
  rw [Prod.mk.injEq] at observed
  rcases observed with ⟨idle, isLive⟩
  have live := MainTask.eq_live_of_isLive isLive
  have allowed : localAddr.ip ∈ config.allowedIps := by decide
  have few : idleShare.commitments.length ≤ 84 := by decide
  rcases shareFlood_exhausts reached live allowed few with
    ⟨count, wedged, _, floods, sameState, forever⟩
  refine ⟨process, wedged, reached, ⟨count, floods⟩, ?_⟩
  intro later final continued
  exact ((forever later final continued).2 idle).2.trans sameState

end SmallRun

end SovereignLattice
