import SovereignLattice.Process.Serial
import SovereignLattice.Process.SoloProcess

/-!
# Linearizability of the connections

The answers and votes of a process are those of a node that serves the packets one at
a time, each packet is one that the peer of its connection has written, and a connection
that is answered before another one is accepted is served before it.
-/

namespace SovereignLattice

section Linearizability

variable [Curve] [Encodings]

/-! ## Which connection is served when -/

/-- The action serves this connection. -/
def SerialAction.Serves (index : Nat) : SerialAction → Prop
  | .serve other _ _ => other = index
  | .install _ _ => False

section SerialRuns

variable {serial after : SerialNode} {action : SerialAction}
variable {actions : List SerialAction} {index : Nat}

omit [Encodings] in
theorem serialStep_inv (stepped : serialStep serial action = some after) :
    (∃ pbftState sk, action = .install pbftState sk ∧ serial.node.state = none ∧
      after = { serial with
        node := ⟨serial.node.selfId, some sk, some pbftState⟩ }) ∨
    ∃ place packet io, action = .serve place packet io ∧
      serial.answers.get? place = none ∧ after = serial.serve place packet io := by
  cases action with
  | install pbftState sk =>
      rw [serialStep, Option.ite_none_right_eq_some] at stepped
      have missing : serial.node.state = none := by simpa using stepped.1
      exact Or.inl ⟨pbftState, sk, rfl, missing, (Option.some.inj stepped.2).symm⟩
  | serve place packet io =>
      rw [serialStep, Option.ite_none_right_eq_some] at stepped
      have waits : serial.answers.get? place = none := by simpa using stepped.1
      exact Or.inr ⟨place, packet, io, rfl, waits, (Option.some.inj stepped.2).symm⟩

omit [Encodings] in
/-- An answer is given once and for all. -/
theorem answered_of_serialStep (stepped : serialStep serial action = some after)
    (answered : (serial.answers.get? index).isSome) :
    (after.answers.get? index).isSome ∧ ¬ action.Serves index := by
  rcases serialStep_inv stepped with
    ⟨pbftState, sk, rfl, _, rfl⟩ | ⟨place, packet, io, rfl, waits, rfl⟩
  · exact ⟨answered, id⟩
  · have other : place ≠ index := by
      intro same
      rw [← same, waits] at answered
      cases answered
    refine ⟨?_, other⟩
    rw [SerialNode.serve, AssocMap.get?_insert_of_ne _ _ (Ne.symm other)]
    exact answered

omit [Encodings] in
theorem unserved_of_answered (answered : (serial.answers.get? index).isSome)
    (reached : run serialStep serial actions = some after) :
    (after.answers.get? index).isSome ∧
      ∀ action ∈ actions, ¬ action.Serves index := by
  induction actions generalizing serial with
  | nil =>
      rw [run_nil, Option.some.injEq] at reached
      subst reached
      exact ⟨answered, fun _ member => absurd member List.not_mem_nil⟩
  | cons first rest inductionHypothesis =>
      rcases run_cons_eq_some.mp reached with ⟨next, stepped, continued⟩
      rcases answered_of_serialStep stepped answered with ⟨still, other⟩
      rcases inductionHypothesis still continued with ⟨ended, others⟩
      exact ⟨ended, List.forall_mem_cons.mpr ⟨other, others⟩⟩

omit [Encodings] in
/-- A connection that has no answer at the end has not been served. -/
theorem unserved_of_unanswered (reached : run serialStep serial actions = some after)
    (waits : after.answers.get? index = none) :
    ∀ action ∈ actions, ¬ action.Serves index := by
  intro action member serves
  rcases List.append_of_mem member with ⟨earlier, later, rfl⟩
  rcases run_append_eq_some.mp reached with ⟨middle, _, continued⟩
  rcases run_cons_eq_some.mp continued with ⟨next, stepped, finished⟩
  have answered : (next.answers.get? index).isSome := by
    rcases serialStep_inv stepped with
      ⟨pbftState, sk, rfl, _, rfl⟩ | ⟨place, packet, io, rfl, _, rfl⟩
    · exact absurd serves id
    · cases serves
      simp [SerialNode.serve]
  have ended := (unserved_of_answered answered finished).1
  rw [waits] at ended
  cases ended

end SerialRuns

/-! ## Where a packet comes from -/

/-- The peer of a connection has written something that decodes to this. -/
def ReceivedBy (actions : List ProcessAction) (index : Nat) (inbound : Inbound) :
    Prop :=
  ∃ stream, .receive index stream ∈ actions ∧ receivePacket stream = .ok inbound

/-- What the task of a connection has been given by its peer. -/
def Task.inbound : Task → Option Inbound
  | .sendingShare msg => some (.dkg msg)
  | .lockingState packet => some (.consensus packet)
  | .lockingSecret msg => some (.consensus (.pbft msg))
  | .readingKeys packet => some (.consensus packet)
  | .lockingAgain msg _ => some (.consensus (.pbft msg))
  | .handling msg _ => some (.consensus (.pbft msg))
  | .lockingView payload => some (.consensus (.viewChange payload))
  | .handlingView payload => some (.consensus (.viewChange payload))
  | _ => none

theorem ReceivedBy.mono {earlier : List ProcessAction} {index : Nat}
    {inbound : Inbound} (received : ReceivedBy earlier index inbound)
    (action : ProcessAction) : ReceivedBy (earlier ++ [action]) index inbound := by
  rcases received with ⟨stream, member, read⟩
  exact ⟨stream, List.mem_append_left _ member, read⟩

omit [Encodings] in
/-- A task that goes on works on what it had before, or on nothing more. -/
theorem Process.Advanced.inherits {config : ServerConfig} {process next : Process}
    {index : Nat} {io : WalIo} {old : Task}
    (moved : Process.Advanced config process index io old next) :
    ∃ new, next.tasks = process.tasks.set index new ∧
      (new.inbound = none ∨ new.inbound = old.inbound) := by
  cases moved with
  | sentShare => exact ⟨_, rfl, Or.inl rfl⟩
  | lockedMessage => exact ⟨_, rfl, Or.inr rfl⟩
  | lockedPayload => exact ⟨_, rfl, Or.inr rfl⟩
  | lockedSecret => exact ⟨_, rfl, Or.inr rfl⟩
  | messageRefused => exact ⟨_, rfl, Or.inl rfl⟩
  | messageChecked => exact ⟨_, rfl, Or.inr rfl⟩
  | payloadRefused => exact ⟨_, rfl, Or.inl rfl⟩
  | payloadChecked => exact ⟨_, rfl, Or.inr rfl⟩
  | lockedAgain => exact ⟨_, rfl, Or.inr rfl⟩
  | handlingPanicked => exact ⟨_, rfl, Or.inl rfl⟩
  | handlerRefused => exact ⟨_, rfl, Or.inl rfl⟩
  | handlerSilent => exact ⟨_, rfl, Or.inl rfl⟩
  | handlerAnswered => exact ⟨_, rfl, Or.inl rfl⟩
  | lockedView => exact ⟨_, rfl, Or.inr rfl⟩
  | viewPanicked => exact ⟨_, rfl, Or.inl rfl⟩
  | viewRefused => exact ⟨_, rfl, Or.inl rfl⟩
  | viewAccepted => exact ⟨_, rfl, Or.inl rfl⟩
  | sentVote => exact ⟨_, rfl, Or.inl rfl⟩

/-- Each task works on what its own peer has written. -/
def Process.Received (actions : List ProcessAction) (process : Process) : Prop :=
  ∀ (index : Nat) (task : Task) (inbound : Inbound),
    process.tasks[index]? = some task → task.inbound = some inbound →
      ReceivedBy actions index inbound

namespace Process.Received

variable {config : ServerConfig} {wal : WriteAheadLog} {process next : Process}
variable {earlier : List ProcessAction} {index : Nat} {io : WalIo} {old new : Task}

theorem set (received : process.Received earlier) (action : ProcessAction)
    (stands : process.tasks[index]? = some old)
    (sameTasks : next.tasks = process.tasks.set index new)
    (newReceived : ∀ inbound, new.inbound = some inbound →
      ReceivedBy (earlier ++ [action]) index inbound) :
    next.Received (earlier ++ [action]) := by
  intro place task inbound found holds
  rw [sameTasks, getElem?_set_of_stands stands] at found
  split at found
  · rename_i here
    cases found
    exact here ▸ newReceived inbound holds
  · exact (received place task inbound found holds).mono action

theorem advance (received : process.Received earlier)
    (stands : process.tasks[index]? = some old)
    (moved : Advanced config process index io old next) :
    next.Received (earlier ++ [.advance index io]) := by
  rcases moved.inherits with ⟨new, sameTasks, nothing | same⟩
  · apply received.set _ stands sameTasks
    intro inbound holds
    rw [nothing] at holds
    cases holds
  · apply received.set _ stands sameTasks
    intro inbound holds
    rw [same] at holds
    exact (received index old inbound stands holds).mono _

theorem step (received : process.Received earlier) {action : ProcessAction}
    (stepped : processStep config wal process action = some next) :
    next.Received (earlier ++ [action]) := by
  have same (sameTasks : next.tasks = process.tasks) :
      next.Received (earlier ++ [action]) := by
    intro place task inbound found holds
    rw [sameTasks] at found
    exact (received place task inbound found holds).mono action
  have here (index : Nat) (stream : Bytes) :
      ProcessAction.receive index stream ∈
        earlier ++ [.receive index stream] := by
    simp
  rcases (stepped_of_processStep stepped).1 with
    peerAddr | ⟨peerAddr, allowed, free⟩ | ⟨index, stream, error, stands, read⟩ |
      ⟨index, stream, msg, stands, read⟩ | ⟨index, stream, packet, stands, read⟩ |
      ⟨index, io, task, next, stands, moved⟩ | ⟨out, rest, queued⟩ |
      ⟨next, moved⟩ | ⟨action, ingest, error, waits, deadline⟩
  · exact same rfl
  · intro place task inbound found holds
    rw [List.getElem?_append] at found
    split at found
    · exact (received place task inbound found holds).mono _
    · rw [List.getElem?_singleton] at found
      split at found <;> cases found
      cases holds
  · apply received.set _ stands rfl
    intro inbound holds
    cases holds
  · apply received.set _ stands rfl
    intro inbound holds
    cases holds
    exact ⟨stream, here index stream, read⟩
  · apply received.set _ stands rfl
    intro inbound holds
    cases holds
    exact ⟨stream, here index stream, read⟩
  · exact received.advance stands moved
  · exact same rfl
  · apply same
    generalize process.main = main at moved
    cases moved <;> rfl
  · exact same rfl

theorem of_run {secretPolynomial : List Scalar} {actions : List ProcessAction}
    (reached : run (processStep config wal) (config.boot secretPolynomial) actions =
      some process) :
    process.Received actions := by
  have kept : ∀ earlier (current : Process) action next, current.Received earlier →
      processStep config wal current action = some next →
        next.Received (earlier ++ [action]) :=
    fun _ _ _ _ holds stepped => holds.step stepped
  have initially : (config.boot secretPolynomial).Received [] := by
    intro index task inbound found
    simp [ServerConfig.boot] at found
  exact invariant_of_history kept initially reached

end Process.Received

/-- A connection is only served what its peer has written. -/
theorem received_of_served {config : ServerConfig} {wal : WriteAheadLog}
    {secretPolynomial : List Scalar} {actions : List ProcessAction}
    {process : Process}
    (reached : run (processStep config wal) (config.boot secretPolynomial) actions =
      some process)
    {index : Nat} {packet : Packet} {io : WalIo}
    (served : .serve index packet io ∈ config.served wal secretPolynomial actions) :
    ReceivedBy actions index (.consensus packet) := by
  rcases mem_linearisation reached served with
    ⟨earlier, action, rest, middle, rfl, before, performed⟩
  have received := Process.Received.of_run before
  have given : ReceivedBy earlier index (.consensus packet) := by
    cases action with
    | advance place other =>
        rw [Process.performs] at performed
        cases stands : middle.tasks[place]? with
        | none => simp [stands] at performed
        | some task =>
            rw [stands, Option.elim_some] at performed
            cases task with
            | readingKeys known =>
                simp only [Process.performedBy] at performed
                split at performed
                · cases List.mem_singleton.mp performed
                  exact received _ _ _ stands rfl
                · cases performed
            | handling msg sk =>
                cases List.mem_singleton.mp performed
                exact received _ _ _ stands rfl
            | handlingView payload =>
                cases List.mem_singleton.mp performed
                exact received _ _ _ stands rfl
            | _ => cases performed
    | main =>
        rw [Process.performs] at performed
        split at performed
        · cases List.mem_singleton.mp performed
        · cases performed
    | _ => cases performed
  rcases given with ⟨stream, member, read⟩
  exact ⟨stream, List.mem_append_left _ member, read⟩

/-- A connection that has its answer at some point of a run is not served later, and
one that is accepted after that point is not served earlier. -/
theorem served_in_realTime {config : ServerConfig} {wal : WriteAheadLog}
    {secretPolynomial : List Scalar} {earlier later : List ProcessAction}
    {middle process : Process}
    (before : run (processStep config wal) (config.boot secretPolynomial) earlier =
      some middle)
    (reached : run (processStep config wal) (config.boot secretPolynomial)
      (earlier ++ later) = some process) :
    ∃ rest,
      config.served wal secretPolynomial (earlier ++ later) =
          config.served wal secretPolynomial earlier ++ rest ∧
        (∀ index task, middle.tasks[index]? = some task → task.answer.isSome →
          ∀ action ∈ rest, ¬ action.Serves index) ∧
        ∀ index, middle.tasks.length ≤ index →
          ∀ action ∈ config.served wal secretPolynomial earlier,
            ¬ action.Serves index := by
  rcases Process.serialised_of_run before with ⟨serial, ran, serialised⟩
  rcases Process.serialised_of_run reached with ⟨_, ranOn, _⟩
  have split : config.served wal secretPolynomial (earlier ++ later) =
      config.served wal secretPolynomial earlier ++
        linearisation (processStep config wal) Process.performs middle later :=
    linearisation_append before later
  refine ⟨_, split, ?_, ?_⟩
  · intro index task stands answered
    rw [split] at ranOn
    rcases run_append_eq_some.mp ranOn with ⟨again, first, second⟩
    have same : serial = again := Option.some.inj (ran.symm.trans first)
    subst same
    apply (unserved_of_answered ?_ second).2
    rw [serialised.answers, stands]
    exact answered
  · intro index beyond
    apply unserved_of_unanswered ran
    rw [serialised.answers, List.getElem?_eq_none beyond]
    rfl

/-- In every run of a process, whatever the interleaving: its node, the answers of its
connections and its votes are those of a node that serves the packets one at a time, in
an order that agrees with real time; no task ends in a panic or without a secret
key. -/
theorem connections_linearizable {config : ServerConfig} {wal : WriteAheadLog}
    {secretPolynomial : List Scalar} {actions : List ProcessAction}
    {process : Process}
    (reached : run (processStep config wal) (config.boot secretPolynomial) actions =
      some process) :
    (∃ serial,
      run serialStep (SerialNode.boot config.nodeId)
          (config.served wal secretPolynomial actions) = some serial ∧
        serial.node = process.node config ∧
        (∀ index, serial.answers.get? index =
          (process.tasks[index]?).bind Task.answer) ∧
        serial.sent.Perm process.allVotes) ∧
    (∀ index packet io,
      .serve index packet io ∈ config.served wal secretPolynomial actions →
        ReceivedBy actions index (.consensus packet)) ∧
    (∀ earlier later middle, actions = earlier ++ later →
      run (processStep config wal) (config.boot secretPolynomial) earlier =
          some middle →
        ∃ rest, config.served wal secretPolynomial actions =
            config.served wal secretPolynomial earlier ++ rest ∧
          (∀ index task, middle.tasks[index]? = some task → task.answer.isSome →
            ∀ action ∈ rest, ¬ action.Serves index) ∧
          ∀ index, middle.tasks.length ≤ index →
            ∀ action ∈ config.served wal secretPolynomial earlier,
              ¬ action.Serves index) ∧
    ∀ task ∈ process.tasks, task ≠ .panicked ∧
      task ≠ .ended (.error (.connection .localSecretKeyNotSet)) := by
  refine ⟨?_, fun _ _ _ served => received_of_served reached served, ?_, ?_⟩
  · rcases Process.serialised_of_run reached with ⟨serial, ran, serialised⟩
    exact ⟨serial, ran, serialised.node, serialised.answers, serialised.sent⟩
  · intro earlier later middle split before
    subst split
    exact served_in_realTime before reached
  · intro task member
    rcases List.getElem?_of_mem member with ⟨index, stands⟩
    have checked := (Process.Sound.of_run reached).checked index task stands
    constructor
    · rintro rfl
      exact checked
    · rintro rfl
      exact checked rfl

end Linearizability

section SmallRun

open SoloProcess

attribute [local instance] smallCurve smallEncodings

/-- The same proposal on two connections.  The second one is handled between the two
critical sections of the first. -/
def twoProposals : List ProcessAction :=
  goLive ++ connect 0 packetTypePbft proposal.toBytes ++
    connect 1 packetTypePbft proposal.toBytes ++ advances 0 3 ++ advances 1 5 ++
      advances 0 2 ++ advances 1 1 ++ [.takeVote]

/-- The theorem at two connections that interleave: one vote is sent. -/
theorem connections_linearizable_twoProposals :
    ∃ process serial,
      run (processStep config ⟨[]⟩) (config.boot secretPolynomial) twoProposals =
          some process ∧
        run serialStep (SerialNode.boot 0)
            (config.served ⟨[]⟩ secretPolynomial twoProposals) = some serial ∧
        serial.sent.length = 1 ∧ process.broadcast = serial.sent := by
  have evaluated : (run step boot twoProposals).map (fun process =>
      (process.votes.length, process.broadcast.length,
        process.tasks.filterMap Task.pendingVote)) = some (0, 1, []) := by
    decide +kernel
  rcases Option.map_eq_some_iff.mp evaluated with ⟨process, reached, observed⟩
  simp only [Prod.mk.injEq, List.length_eq_zero_iff] at observed
  rcases observed with ⟨noVotes, oneTaken, noneWaits⟩
  rcases (connections_linearizable reached).1 with ⟨serial, ran, _, _, sent⟩
  rw [Process.allVotes, noVotes, noneWaits, List.append_nil, List.append_nil]
    at sent
  refine ⟨process, serial, reached, ran, ?_, ?_⟩
  · rw [sent.length_eq, oneTaken]
  · rcases List.length_eq_one_iff.mp oneTaken with ⟨out, single⟩
    rw [single] at sent ⊢
    exact (List.perm_singleton.mp sent).symm

end SmallRun

end SovereignLattice
