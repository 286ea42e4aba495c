import SovereignLattice.Process.Locks

/-!
# Concurrent connections as serial calls

Connections run at the same time and lock the state twice.  Every run of a process is
nevertheless one of a node that serves one packet at a time: a packet counts as served
when its task leaves the last critical section that it enters.
-/

namespace SovereignLattice

section Serial

variable [Curve] [Encodings]

/-! ## A node that serves one packet at a time -/

/-- The node, its answer to each connection, and the votes that it has sent. -/
structure SerialNode where
  node : Node
  answers : AssocMap Nat (Except ConnectionError (Option PbftMessage))
  sent : List PbftMessage

inductive SerialAction where
  | install (pbftState : PbftState) (sk : Scalar)
  | serve (index : Nat) (packet : Packet) (io : WalIo)

def SerialNode.serve (serial : SerialNode) (index : Nat) (packet : Packet)
    (io : WalIo) : SerialNode where
  node := (serial.node.handleConnection packet io).2
  answers := serial.answers.insert index
    (serial.node.handleConnection packet io).1
  sent := serial.sent ++
    (Node.sent (serial.node.handleConnection packet io).1).toList

/-- State and key are installed once, and each connection is served once. -/
def serialStep (serial : SerialNode) : SerialAction → Option SerialNode
  | .install pbftState sk =>
      if serial.node.state.isNone then
        some { serial with
          node := { serial.node with
            selfSk := some sk
            state := some pbftState } }
      else
        none
  | .serve index packet io =>
      if (serial.answers.get? index).isNone then
        some (serial.serve index packet io)
      else
        none

def SerialNode.boot (selfId : UInt32) : SerialNode where
  node := ⟨selfId, none, none⟩
  answers := ∅
  sent := []

/-! ## What a process performs -/

/-- The answer of a task that has left its last critical section. -/
def Task.answer : Task → Option (Except ConnectionError (Option PbftMessage))
  | .sendingVote out => some (.ok (some out))
  | .ended (.ok (.answer out)) => some (.ok out)
  | .ended (.error (.connection error)) => some (.error error)
  | _ => none

/-- The vote for which a task still waits for room in the channel. -/
def Task.pendingVote : Task → Option PbftMessage
  | .sendingVote out => some out
  | _ => none

namespace Process

/-- Whether the first critical section ends with an error. -/
def refuses (process : Process) : Packet → Bool
  | .pbft msg => !(checkMessage process.state process.selfSk msg).isOk
  | .viewChange payload => !(checkPayload process.state payload).isOk

/-- A packet is served where its task leaves the last critical section. -/
def performedBy (process : Process) (index : Nat) (io : WalIo) :
    Task → List SerialAction
  | .readingKeys packet =>
      if process.refuses packet then [.serve index packet io] else []
  | .handling msg _ => [.serve index (.pbft msg) io]
  | .handlingView payload => [.serve index (.viewChange payload) io]
  | _ => []

/-- The serial actions of one action. -/
def performs (process : Process) : ProcessAction → List SerialAction
  | .advance index io =>
      (process.tasks[index]?).elim [] (process.performedBy index io)
  | .main =>
      match process.main, process.state, process.selfSk with
      | .releasing, some pbftState, some sk => [.install pbftState sk]
      | _, _, _ => []
  | _ => []

/-- The node as the connections see it: nothing before `main` has released its
locks. -/
def node (config : ServerConfig) (process : Process) : Node :=
  match process.main with
  | .live => ⟨config.nodeId, process.selfSk, process.state⟩
  | _ => ⟨config.nodeId, none, none⟩

/-- The votes that the broadcaster has taken, that its channel holds, and that wait for
room in it. -/
def allVotes (process : Process) : List PbftMessage :=
  process.broadcast ++ process.votes ++ process.tasks.filterMap Task.pendingVote

/-- The serial node that a process stands for. -/
structure Serialised (config : ServerConfig) (process : Process)
    (serial : SerialNode) : Prop where
  node : serial.node = process.node config
  answers : ∀ index, serial.answers.get? index =
    (process.tasks[index]?).bind Task.answer
  sent : serial.sent.Perm process.allVotes

end Process

/-! ## The serial handler in two parts -/

namespace Node

variable {node : Node} {state : PbftState} {msg : PbftMessage} {io : WalIo}

omit [Encodings] in
theorem handlePbft_of_refused {error : ConnectionError}
    (refused : checkMessage node.state node.selfSk msg = .error error) :
    node.handlePbft msg io = (.error error, node) := by
  cases held : node.state with
  | none =>
      simp only [checkMessage, held, Except.error.injEq] at refused
      simp [handlePbft, held, refused]
  | some state =>
  cases known : state.publicKeys.get? msg.senderId with
  | none =>
      simp only [checkMessage, held, known, Except.error.injEq] at refused
      simp [handlePbft, held, known, refused]
  | some pk =>
  cases verified : verifyBlsSignature msg.canonicalBytes msg.signature pk with
  | false =>
      simp [checkMessage, held, known, verified] at refused
      simp [handlePbft, held, known, verified, refused]
  | true =>
  cases key : node.selfSk with
  | none =>
      simp [checkMessage, held, known, verified, key] at refused
      simp [handlePbft, held, known, verified, key, refused]
  | some sk => simp [checkMessage, held, known, verified, key] at refused

omit [Encodings] in
theorem handlePbft_of_checked {sk : Scalar} (held : node.state = some state)
    (checked : checkMessage node.state node.selfSk msg = .ok sk) :
    node.handlePbft msg io =
      match state.handleMessage msg io with
      | (.error error, after) =>
          (.error (.pbft error), { node with state := some after })
      | (.ok _, after) =>
          (.ok (after.outgoingMsg msg node.selfId sk),
            { node with state := some after }) := by
  cases known : state.publicKeys.get? msg.senderId with
  | none => simp [checkMessage, held, known] at checked
  | some pk =>
  cases verified : verifyBlsSignature msg.canonicalBytes msg.signature pk with
  | false => simp [checkMessage, held, known, verified] at checked
  | true =>
  cases key : node.selfSk with
  | none => simp [checkMessage, held, known, verified, key] at checked
  | some present =>
      simp [checkMessage, held, known, verified, key] at checked
      subst checked
      rcases answered : state.handleMessage msg io with ⟨answer, after⟩
      cases answer <;> simp [handlePbft, held, known, verified, key, answered]

omit [Encodings] in
theorem handleViewChange_of_refused {payload : ViewChangePayload}
    {error : ConnectionError}
    (refused : checkPayload node.state payload = .error error) :
    node.handleViewChange payload = .error error := by
  cases held : node.state with
  | none =>
      simp only [checkPayload, held, Except.error.injEq] at refused
      simp [handleViewChange, held, refused]
  | some state =>
  cases known : state.publicKeys.get? payload.senderId with
  | none =>
      simp only [checkPayload, held, known, Except.error.injEq] at refused
      simp [handleViewChange, held, known, refused]
  | some pk =>
  cases verified : verifyBlsSignature payload.canonicalBytes payload.signature pk with
  | false =>
      simp [checkPayload, held, known, verified] at refused
      simp [handleViewChange, held, known, verified, refused]
  | true => simp [checkPayload, held, known, verified] at refused

omit [Encodings] in
theorem handleViewChange_of_checked {payload : ViewChangePayload}
    (held : node.state = some state)
    (checked : checkPayload node.state payload = .ok ()) :
    node.handleViewChange payload =
      match state.handleViewChangePayload payload with
      | .error error => .error (.viewChange error)
      | .ok () => .ok none := by
  cases known : state.publicKeys.get? payload.senderId with
  | none => simp [checkPayload, held, known] at checked
  | some pk =>
  cases verified : verifyBlsSignature payload.canonicalBytes payload.signature pk with
  | false => simp [checkPayload, held, known, verified] at checked
  | true =>
      cases answered : state.handleViewChangePayload payload <;>
        simp [handleViewChange, held, known, verified, answered]

end Node

/-! ## Every action performs its serial actions -/

namespace Process

variable {config : ServerConfig} {wal : WriteAheadLog} {process next : Process}
variable {serial : SerialNode} {index : Nat} {io : WalIo} {old new : Task}

omit [Encodings] in
theorem node_of_live (live : process.main = .live) :
    process.node config = ⟨config.nodeId, process.selfSk, process.state⟩ := by
  rw [node, live]

omit [Encodings] in
theorem node_of_not_live (other : process.main ≠ .live) :
    process.node config = ⟨config.nodeId, none, none⟩ := by
  rw [node]
  split
  · rename_i live
    exact absurd live other
  · rfl

omit [Encodings] in
/-- A task inside the first or the second critical section sees the process as the
serial node is. -/
theorem Sound.node_eq (sound : process.Sound) (config : ServerConfig)
    (stands : process.tasks[index]? = some old) (inside : old.HoldsState) :
    process.node config = ⟨config.nodeId, process.selfSk, process.state⟩ := by
  have outside := sound.main_outside stands inside
  have installed := sound.installed
  rw [node]
  cases place : process.main with
  | live => rfl
  | lockingSecret => exact absurd (place ▸ trivial) outside
  | releasing => exact absurd (place ▸ trivial) outside
  | _ =>
      rw [place] at installed
      rcases installed with ⟨noReplica, noKey⟩
      rw [noReplica, noKey]

omit [Encodings] in
/-- A task inside a critical section with a state finds `main` gone. -/
theorem Sound.main_live (sound : process.Sound)
    (stands : process.tasks[index]? = some old) (inside : old.HoldsState)
    {state : PbftState} (held : process.state = some state) :
    process.main = .live := by
  have outside := sound.main_outside stands inside
  have installed := sound.installed
  rw [held] at installed
  cases place : process.main with
  | live => rfl
  | lockingSecret => exact absurd (place ▸ trivial) outside
  | releasing => exact absurd (place ▸ trivial) outside
  | _ =>
      rw [place] at installed
      cases installed.1

omit [Encodings] in
theorem finalize_ne_live (config : ServerConfig) (wal : WriteAheadLog)
    (ingest : Ingest) : finalize config wal ingest ≠ .live := by
  rw [finalize]
  split
  · simp
  split <;> simp

namespace Serialised

omit [Encodings] in
theorem answers_set (serialised : Serialised config process serial)
    (stands : process.tasks[index]? = some old)
    (same : new.answer = old.answer) (place : Nat) :
    serial.answers.get? place =
      ((process.tasks.set index new)[place]?).bind Task.answer := by
  rw [serialised.answers, getElem?_set_of_stands stands]
  split
  · rename_i here
    rw [here, stands, Option.bind_some, Option.bind_some, same]
  · rfl

omit [Encodings] in
theorem pending_set (stands : process.tasks[index]? = some old)
    (same : new.pendingVote = old.pendingVote) :
    ((process.tasks.set index new).filterMap Task.pendingVote).Perm
      (process.tasks.filterMap Task.pendingVote) := by
  have moved := filterMap_set_perm Task.pendingVote stands new
  rw [same] at moved
  exact (List.perm_append_left_iff _).mp moved

omit [Encodings] in
/-- A task that is not served yet is served by its last critical section. -/
theorem serve (serialised : Serialised config process serial)
    (stands : process.tasks[index]? = some old) (waits : old.answer = none)
    (quiet : old.pendingVote = none) (packet : Packet)
    {answer : Except ConnectionError (Option PbftMessage)}
    (answers : ((process.node config).handleConnection packet io).1 = answer)
    (sameTasks : next.tasks = process.tasks.set index new)
    (newAnswer : new.answer = some answer)
    (newVote : new.pendingVote = Node.sent answer)
    (sameVotes : next.broadcast ++ next.votes = process.broadcast ++ process.votes)
    (sameNode : next.node config =
      ((process.node config).handleConnection packet io).2) :
    ∃ after, run serialStep serial [.serve index packet io] = some after ∧
      Serialised config next after := by
  have unanswered : serial.answers.get? index = none := by
    rw [serialised.answers, stands, Option.bind_some, waits]
  refine ⟨serial.serve index packet io, ?_, ?_, ?_, ?_⟩
  · simp [run, serialStep, unanswered]
  · rw [SerialNode.serve, serialised.node, sameNode]
  · intro place
    rw [SerialNode.serve, AssocMap.get?_insert, serialised.answers, sameTasks,
      getElem?_set_of_stands stands, serialised.node, answers]
    split
    · rw [Option.bind_some, newAnswer]
    · rfl
  · have moved := filterMap_set_perm Task.pendingVote stands new
    rw [quiet, newVote, Option.toList_none, List.nil_append] at moved
    rw [SerialNode.serve, allVotes, sameVotes, sameTasks, serialised.node, answers]
    dsimp only
    have first := serialised.sent.append_right (Node.sent answer).toList
    refine first.trans ?_
    rw [allVotes, List.append_assoc]
    apply List.Perm.append_left
    exact List.perm_append_comm.trans moved.symm

omit [Encodings] in
/-- A task that moves without being served performs nothing. -/
theorem keep (serialised : Serialised config process serial)
    (stands : process.tasks[index]? = some old)
    (sameTasks : next.tasks = process.tasks.set index new)
    (sameAnswer : new.answer = old.answer)
    (sameVote : new.pendingVote = old.pendingVote)
    (sameVotes : next.broadcast ++ next.votes = process.broadcast ++ process.votes)
    (sameNode : next.node config = process.node config) :
    ∃ after, run serialStep serial [] = some after ∧
      Serialised config next after := by
  refine ⟨serial, rfl, ?_, ?_, ?_⟩
  · rw [serialised.node, sameNode]
  · intro place
    rw [sameTasks]
    exact serialised.answers_set stands sameAnswer place
  · refine serialised.sent.trans ?_
    rw [allVotes, allVotes, sameVotes, sameTasks]
    exact ((pending_set stands sameVote).symm).append_left _

omit [Encodings] in
theorem sentVote (serialised : Serialised config process serial)
    {out : PbftMessage}
    (stands : process.tasks[index]? = some (.sendingVote out)) :
    Serialised config
      ({ process with votes := process.votes ++ [out] }.finish index
        (.ended (.ok (.answer (some out))))) serial := by
  refine ⟨serialised.node, serialised.answers_set stands rfl, ?_⟩
  have moved := filterMap_set_perm Task.pendingVote stands
    (.ended (.ok (.answer (some out))))
  refine serialised.sent.trans ?_
  have before : process.allVotes =
      process.broadcast ++ (process.votes ++
        process.tasks.filterMap Task.pendingVote) :=
    List.append_assoc _ _ _
  rw [before]
  show List.Perm _ (process.broadcast ++ (process.votes ++ [out]) ++
    (process.tasks.set index _).filterMap Task.pendingVote)
  rw [List.append_assoc, List.append_assoc]
  exact (moved.symm.append_left _).append_left _

omit [Encodings] in
theorem advance (serialised : Serialised config process serial)
    (sound : process.Sound) (stands : process.tasks[index]? = some old)
    (moved : Advanced config process index io old next) :
    ∃ after,
      run serialStep serial (process.performs (.advance index io)) = some after ∧
        Serialised config next after := by
  have oldChecked := sound.checked index old stands
  have performed : process.performs (.advance index io) =
      process.performedBy index io old := by
    rw [performs, stands]
    rfl
  rw [performed]
  cases moved with
  | sentShare msg room => exact serialised.keep stands rfl rfl rfl rfl rfl
  | lockedMessage msg free => exact serialised.keep stands rfl rfl rfl rfl rfl
  | lockedPayload payload free => exact serialised.keep stands rfl rfl rfl rfl rfl
  | lockedSecret msg free => exact serialised.keep stands rfl rfl rfl rfl rfl
  | messageRefused msg error refused =>
      have seen := sound.node_eq config stands trivial
      have refuses : process.refuses (.pbft msg) = true := by
        rw [Process.refuses, refused]
        rfl
      have answered : (process.node config).handleConnection (.pbft msg) io =
          (.error error, process.node config) :=
        Node.handlePbft_of_refused (by rw [seen]; exact refused)
      rw [performedBy, if_pos refuses]
      exact serialised.serve stands rfl rfl (.pbft msg) (by rw [answered]) rfl rfl
        rfl rfl (by rw [answered]; rfl)
  | messageChecked msg sk checked =>
      have goesOn : ¬ process.refuses (.pbft msg) = true := by
        rw [Process.refuses, checked]
        exact Bool.false_ne_true
      rw [performedBy, if_neg goesOn]
      exact serialised.keep stands rfl rfl rfl rfl rfl
  | payloadRefused payload error refused =>
      have seen := sound.node_eq config stands trivial
      have refuses : process.refuses (.viewChange payload) = true := by
        rw [Process.refuses, refused]
        rfl
      have answered : (process.node config).handleViewChange payload =
          .error error :=
        Node.handleViewChange_of_refused (by rw [seen]; exact refused)
      rw [performedBy, if_pos refuses]
      exact serialised.serve stands rfl rfl (.viewChange payload) answered rfl rfl
        rfl rfl rfl
  | payloadChecked payload checked =>
      have goesOn : ¬ process.refuses (.viewChange payload) = true := by
        rw [Process.refuses, checked]
        exact Bool.false_ne_true
      rw [performedBy, if_neg goesOn]
      exact serialised.keep stands rfl rfl rfl rfl rfl
  | lockedAgain msg sk free => exact serialised.keep stands rfl rfl rfl rfl rfl
  | handlingPanicked msg sk missing =>
      rw [missing] at oldChecked
      cases oldChecked
  | handlerRefused msg sk state after error held answered =>
      have seen := sound.node_eq config stands trivial
      have live := sound.main_live stands trivial held
      have served : (process.node config).handleConnection (.pbft msg) io =
          (.error (.pbft error), ⟨config.nodeId, process.selfSk, some after⟩) := by
        rw [Node.handleConnection, Node.handlePbft_of_checked
          (by rw [seen]; exact held) (by rw [seen]; exact oldChecked), answered, seen]
      exact serialised.serve stands rfl rfl (.pbft msg) (by rw [served]) rfl rfl
        rfl rfl (by rw [served]; exact Process.node_of_live live)
  | handlerSilent msg sk state after response held answered quiet =>
      have seen := sound.node_eq config stands trivial
      have live := sound.main_live stands trivial held
      have served : (process.node config).handleConnection (.pbft msg) io =
          (.ok none, ⟨config.nodeId, process.selfSk, some after⟩) := by
        rw [Node.handleConnection, Node.handlePbft_of_checked
          (by rw [seen]; exact held) (by rw [seen]; exact oldChecked), answered, seen]
        dsimp only
        rw [quiet]
      exact serialised.serve stands rfl rfl (.pbft msg) (by rw [served]) rfl rfl
        rfl rfl (by rw [served]; exact Process.node_of_live live)
  | handlerAnswered msg sk state after response out held answered sends =>
      have seen := sound.node_eq config stands trivial
      have live := sound.main_live stands trivial held
      have served : (process.node config).handleConnection (.pbft msg) io =
          (.ok (some out), ⟨config.nodeId, process.selfSk, some after⟩) := by
        rw [Node.handleConnection, Node.handlePbft_of_checked
          (by rw [seen]; exact held) (by rw [seen]; exact oldChecked), answered, seen]
        dsimp only
        rw [sends]
      exact serialised.serve stands rfl rfl (.pbft msg) (by rw [served]) rfl rfl
        rfl rfl (by rw [served]; exact Process.node_of_live live)
  | lockedView payload free => exact serialised.keep stands rfl rfl rfl rfl rfl
  | viewPanicked payload missing =>
      rw [missing] at oldChecked
      cases oldChecked
  | viewRefused payload state error held refused =>
      have seen := sound.node_eq config stands trivial
      have answered : (process.node config).handleViewChange payload =
          .error (.viewChange error) := by
        rw [Node.handleViewChange_of_checked (by rw [seen]; exact held)
          (by rw [seen]; exact oldChecked), refused]
      exact serialised.serve stands rfl rfl (.viewChange payload) answered rfl rfl
        rfl rfl rfl
  | viewAccepted payload state held accepted =>
      have seen := sound.node_eq config stands trivial
      have answered : (process.node config).handleViewChange payload =
          .ok none := by
        rw [Node.handleViewChange_of_checked (by rw [seen]; exact held)
          (by rw [seen]; exact oldChecked), accepted]
      exact serialised.serve stands rfl rfl (.viewChange payload) answered rfl rfl
        rfl rfl rfl
  | sentVote out room => exact ⟨serial, rfl, serialised.sentVote stands⟩

theorem advanceMain (serialised : Serialised config process serial)
    (sound : process.Sound)
    (moved : MainAdvanced config wal process process.main next) :
    ∃ after, run serialStep serial (process.performs .main) = some after ∧
      Serialised config next after := by
  have installed := sound.installed
  have seen := serialised.node
  have silent (other : process.main ≠ .releasing) :
      process.performs .main = [] := by
    rw [performs]
    split
    · rename_i place _ _
      exact absurd place other
    · rfl
  generalize place : process.main = main at moved installed
  cases moved with
  | ingested ingest msg rest few queued =>
      rw [node_of_not_live (by simp [place])] at seen
      rw [silent (by simp [place])]
      exact ⟨serial, rfl, seen, serialised.answers, serialised.sent⟩
  | finalized ingest enough =>
      rw [node_of_not_live (by simp [place])] at seen
      rw [silent (by simp [place])]
      refine ⟨serial, rfl, ?_, serialised.answers, serialised.sent⟩
      rw [seen, node_of_not_live]
      exact finalize_ne_live config wal ingest
  | lockedState pbftState mySecretShare free =>
      rw [node_of_not_live (by simp [place])] at seen
      rw [silent (by simp [place])]
      exact ⟨serial, rfl, seen, serialised.answers, serialised.sent⟩
  | lockedSecret mySecretShare free =>
      rw [node_of_not_live (by simp [place])] at seen
      rw [silent (by simp [place])]
      exact ⟨serial, rfl, seen, serialised.answers, serialised.sent⟩
  | released =>
      rcases Option.isSome_iff_exists.mp installed.1 with ⟨pbftState, held⟩
      rcases Option.isSome_iff_exists.mp installed.2 with ⟨sk, key⟩
      rw [node_of_not_live (by simp [place])] at seen
      have performed : process.performs .main = [.install pbftState sk] := by
        rw [performs, place, held, key]
      rw [performed]
      refine ⟨{ serial with node := ⟨config.nodeId, some sk, some pbftState⟩ },
        by simp [run, serialStep, seen], ?_, serialised.answers, serialised.sent⟩
      rw [node_of_live rfl]
      simp [held, key]

theorem step (serialised : Serialised config process serial)
    (sound : process.Sound) {action : ProcessAction}
    (stepped : processStep config wal process action = some next) :
    ∃ after, run serialStep serial (process.performs action) = some after ∧
      Serialised config next after := by
  rcases (stepped_of_processStep stepped).1 with
    peerAddr | ⟨peerAddr, allowed, free⟩ | ⟨index, stream, error, stands, read⟩ |
      ⟨index, stream, msg, stands, read⟩ | ⟨index, stream, packet, stands, read⟩ |
      ⟨index, io, task, next, stands, moved⟩ | ⟨out, rest, queued⟩ |
      ⟨next, moved⟩ | ⟨action, ingest, error, waits, deadline⟩
  · exact ⟨serial, rfl, serialised⟩
  · refine ⟨serial, rfl, serialised.node, ?_, ?_⟩
    · intro place
      rw [serialised.answers, List.getElem?_append]
      split
      · rfl
      · rename_i beyond
        rw [List.getElem?_eq_none (Nat.le_of_not_lt beyond),
          List.getElem?_singleton]
        split <;> rfl
    · have fresh : List.filterMap Task.pendingVote [Task.reading] = [] := rfl
      have sent := serialised.sent
      rw [allVotes] at sent
      simpa [allVotes, fresh] using sent
  · exact serialised.keep stands rfl rfl rfl rfl rfl
  · exact serialised.keep stands rfl rfl rfl rfl rfl
  · exact serialised.keep stands rfl rfl rfl rfl rfl
  · exact serialised.advance sound stands moved
  · refine ⟨serial, rfl, serialised.node, serialised.answers, ?_⟩
    have sent := serialised.sent
    rw [allVotes, queued] at sent
    simpa [allVotes] using sent
  · exact serialised.advanceMain sound moved
  · have performed : process.performs action = [] := by
      rcases deadline with rfl | rfl <;> rfl
    rw [performed]
    have before : process.main ≠ .live := by simp [waits]
    refine ⟨serial, rfl, ?_, serialised.answers, serialised.sent⟩
    rw [serialised.node, node_of_not_live before]
    rfl

omit [Encodings] in
theorem boot (config : ServerConfig) (secretPolynomial : List Scalar) :
    Serialised config (config.boot secretPolynomial)
      (SerialNode.boot config.nodeId) where
  node := rfl
  answers := fun _ => rfl
  sent := List.Perm.refl _

end Serialised

end Process

/-- The serial actions that a run of the process performs. -/
def ServerConfig.served (config : ServerConfig) (wal : WriteAheadLog)
    (secretPolynomial : List Scalar) (actions : List ProcessAction) :
    List SerialAction :=
  linearisation (processStep config wal) Process.performs
    (config.boot secretPolynomial) actions

/-- A sound process and the serial node that it performs. -/
def Process.Performs (config : ServerConfig) (process : Process)
    (serial : SerialNode) : Prop :=
  process.Sound ∧ Process.Serialised config process serial

/-- Every run of a process performs a run of the serial node. -/
theorem Process.serialised_of_run {config : ServerConfig} {wal : WriteAheadLog}
    {secretPolynomial : List Scalar} {actions : List ProcessAction}
    {process : Process}
    (reached : run (processStep config wal) (config.boot secretPolynomial) actions =
      some process) :
    ∃ serial,
      run serialStep (SerialNode.boot config.nodeId)
          (config.served wal secretPolynomial actions) = some serial ∧
        Process.Serialised config process serial := by
  have simulated : ∀ current action next serial,
      Process.Performs config current serial →
        processStep config wal current action = some next →
          ∃ after, run serialStep serial (current.performs action) = some after ∧
            Process.Performs config next after := by
    intro current action next serial ⟨sound, serialised⟩ stepped
    rcases serialised.step sound stepped with ⟨after, performed, related⟩
    exact ⟨after, performed, sound.step stepped, related⟩
  rcases simulation_of_run simulated
    ⟨Process.Sound.boot config secretPolynomial,
      Process.Serialised.boot config secretPolynomial⟩ reached with
    ⟨serial, performed, _, serialised⟩
  exact ⟨serial, performed, serialised⟩

end Serial

end SovereignLattice
