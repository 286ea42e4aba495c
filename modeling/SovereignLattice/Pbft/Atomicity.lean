import SovereignLattice.Foundations.Runs
import SovereignLattice.Pbft.Transitions

/-!
# Atomicity of `handle_message`

A rejected call changes nothing, an accepted call writes its record before it
answers, and a failure of the log stops the replica.
-/

namespace SovereignLattice

variable [Curve]

namespace PbftState

/-- Feed calls to the handler, whatever the file operations answer. -/
def handleAll (state : PbftState) (calls : List (PbftMessage × WalIo)) :
    PbftState :=
  calls.foldl (fun current call => (current.handleMessage call.1 call.2).2)
    state

/-- What accepted messages keep and what does not depend on the log is kept by every
call, whatever it answers. -/
theorem handleMessage_invariant (invariant : PbftState → Prop)
    (unlogged : ∀ (state : PbftState) (wal : WriteAheadLog) (failed : Bool),
      invariant state → invariant { state with wal := wal, walFailed := failed })
    {state : PbftState} {msg : PbftMessage}
    (preserved : ∀ response staged, Stages state msg response staged →
      state.Authenticated msg →
      (msg.phase = .checkpoint → state.lastStableCheckpoint < msg.seq) →
        invariant staged)
    (initially : invariant state) (io : WalIo) :
    invariant (state.handleMessage msg io).2 := by
  rcases state.exists_outcome msg io with
    ⟨answer, after, handled, outcome⟩
  simp only [handled]
  cases outcome with
  | unavailable failed => exact initially
  | rejected error notAppend notPrune => exact initially
  | obsolete phase old => exact initially
  | appendFailed written failed => exact unlogged state _ _ initially
  | accepted response staged running authenticated newer stages unstable =>
      exact unlogged staged _ staged.walFailed
        (preserved _ _ stages authenticated newer)
  | stabilized staged image running authenticated newer stages pruned =>
      exact unlogged staged _ staged.walFailed
        (preserved _ _ stages authenticated fun _ => newer)
  | pruneFailed staged wal authenticated newer stages cause =>
      exact unlogged staged _ _
        (preserved _ _ stages authenticated fun _ => newer)

/-- What every call keeps holds after all of them. -/
theorem handleAll_invariant (invariant : PbftState → Prop)
    (preserved : ∀ state msg io, invariant state →
      invariant (state.handleMessage msg io).2)
    {state : PbftState} (initially : invariant state)
    (calls : List (PbftMessage × WalIo)) : invariant (state.handleAll calls) := by
  induction calls generalizing state with
  | nil => exact initially
  | cons call rest inductionHypothesis =>
      exact inductionHypothesis (preserved state call.1 call.2 initially)

/-- The answers that the handler gives before the closure runs or after it. -/
def IsShellAnswer (answer : Except PbftError Response) : Prop :=
  answer = .error .walUnavailable ∨ answer = .error .authFailed ∨
    answer = .error .cryptoAuthFailed ∨ answer = .ok .checkpointObsolete ∨
    answer = .error .walError ∨ answer = .error .walPruneError

theorem persist_answer {image : Snapshot} {msg : PbftMessage} {io : WalIo}
    {response : Response} {staged : PbftState}
    (inner : ¬ IsShellAnswer (persist image msg io response staged).1) :
    ∃ wal, persist image msg io response staged =
      (.ok response, { staged with wal := wal }) := by
  cases appended : staged.wal.appendEntry msg.toRecord io.append with
  | mk result wal =>
      cases result with
      | error error => simp [persist, appended, IsShellAnswer] at inner
      | ok done =>
          by_cases stable :
              msg.phase = .checkpoint ∧ response = .checkpointStabilized
          · cases pruned : wal.pruneBefore msg.seq io.prune with
            | mk result wal =>
                cases result with
                | error error =>
                    simp [persist, appended, stable, pruned, IsShellAnswer]
                      at inner
                | ok done => exact ⟨wal, by simp [persist, appended, stable, pruned]⟩
          · exact ⟨wal, by simp [persist, appended, stable]⟩

/-- Every other answer is the closure's answer to an authenticated message. -/
theorem stage_of_handleMessage {state : PbftState} {msg : PbftMessage} {io : WalIo}
    (inner : ¬ IsShellAnswer (state.handleMessage msg io).1) :
    state.Authenticated msg ∧
      (state.stage msg).1 = (state.handleMessage msg io).1 ∧
      ∀ response, (state.handleMessage msg io).1 = .ok response →
        ∃ wal, (state.handleMessage msg io).2 =
          { (state.stage msg).2 with wal := wal } := by
  by_cases stopped : state.walFailed = true
  · simp [handleMessage, stopped, IsShellAnswer] at inner
  by_cases registered : msg.senderId ∈ state.registeredNodes
  · cases verified : verifyBlsSignature msg.canonicalBytes msg.signature
        (state.publicKeyOf msg.senderId registered) with
    | false =>
        simp [handleMessage, stopped, registered, verified, IsShellAnswer] at inner
    | true =>
        by_cases obsolete :
            msg.phase = .checkpoint ∧ msg.seq ≤ state.lastStableCheckpoint
        · simp [handleMessage, stopped, registered, verified, obsolete,
            IsShellAnswer] at inner
        · refine ⟨⟨registered, _, (Option.some_get _).symm, verified⟩, ?_⟩
          cases outcome : state.stage msg with
          | mk answer staged =>
              cases answer with
              | error error =>
                  simp [handleMessage, stopped, registered, verified, obsolete,
                    outcome]
              | ok response =>
                  simp only [handleMessage, stopped, registered, verified,
                    obsolete, outcome] at inner ⊢
                  rcases persist_answer inner with ⟨wal, persisted⟩
                  simp [persisted]
  · simp [handleMessage, stopped, registered, IsShellAnswer] at inner

/-- What the closure accepts of an authenticated message, the handler accepts, when
the log works. -/
theorem handleMessage_of_stage {state staged : PbftState} {msg : PbftMessage}
    {response : Response} (running : state.walFailed = false)
    (authenticated : state.Authenticated msg) (phase : msg.phase ≠ .checkpoint)
    (accepted : state.stage msg = (.ok response, staged)) :
    ∃ wal, state.handleMessage msg .durable =
      (.ok response, { staged with wal := wal }) := by
  rcases authenticated with ⟨registered, pk, known, verified⟩
  have pkOf : state.publicKeyOf msg.senderId registered = pk := by
    simp [Topology.publicKeyOf, known]
  have signature : verifyBlsSignature msg.canonicalBytes msg.signature pk = true :=
    verified
  simp [handleMessage, running, registered, pkOf, signature, phase, accepted,
    persist, WriteAheadLog.appendEntry, WalIo.durable]

/-- A stopped replica answers every call the same and stays as it is. -/
theorem handleMessage_of_walFailed {state : PbftState}
    (failed : state.walFailed = true) (msg : PbftMessage) (io : WalIo) :
    state.handleMessage msg io = (.error .walUnavailable, state) := by
  simp [handleMessage, failed]

theorem handleAll_of_walFailed {state : PbftState}
    (failed : state.walFailed = true) (calls : List (PbftMessage × WalIo)) :
    state.handleAll calls = state := by
  induction calls with
  | nil => rfl
  | cons call rest inductionHypothesis =>
      rw [handleAll, List.foldl_cons, handleMessage_of_walFailed failed]
      exact inductionHypothesis

/-- An answer without an error came after the record was in the log. -/
theorem handleMessage_writesAhead {state : PbftState} {msg : PbftMessage}
    {io : WalIo} {response : Response}
    (answer : (state.handleMessage msg io).1 = .ok response)
    (logged : response ≠ .checkpointObsolete) :
    (response ≠ .checkpointStabilized →
      (state.handleMessage msg io).2.wal.file =
        state.wal.file ++ msg.toRecord.encode) ∧
    (response = .checkpointStabilized →
      ∃ buffers : List Bytes, (∀ buf ∈ buffers, buf.length = recordLen) ∧
        state.wal.file ++ msg.toRecord.encode = buffers.flatten ∧
        (state.handleMessage msg io).2.wal.file =
          (buffers.filter fun buf => msg.seq ≤ bufferSeq buf).flatten) := by
  rcases state.exists_outcome msg io with
    ⟨returned, after, handled, outcome⟩
  simp only [handled] at answer ⊢
  subst answer
  cases outcome with
  | obsolete phase old => exact absurd rfl logged
  | accepted _ staged running authenticated newer stages unstable =>
      exact ⟨fun _ => rfl, fun stable => absurd stable unstable⟩
  | stabilized staged image running authenticated newer stages pruned =>
      exact ⟨fun unstable => absurd rfl unstable, fun _ => pruneBytes_spec pruned⟩

/-- Atomicity and write-ahead discipline, for every state, message and outcome
of the file operations. -/
theorem handleMessage_atomic (state : PbftState) (msg : PbftMessage)
    (io : WalIo) :
    (∀ error, (state.handleMessage msg io).1 = .error error →
      error ≠ .walPruneError →
        (state.handleMessage msg io).2.snapshot = state.snapshot ∧
        (error ≠ .walError →
          (state.handleMessage msg io).2.wal = state.wal)) ∧
    (∀ response, (state.handleMessage msg io).1 = .ok response →
      response ≠ .checkpointObsolete →
        (response ≠ .checkpointStabilized →
          (state.handleMessage msg io).2.wal.file =
            state.wal.file ++ msg.toRecord.encode) ∧
        (response = .checkpointStabilized →
          ∃ buffers : List Bytes, (∀ buf ∈ buffers, buf.length = recordLen) ∧
            state.wal.file ++ msg.toRecord.encode = buffers.flatten ∧
            (state.handleMessage msg io).2.wal.file =
              (buffers.filter fun buf => msg.seq ≤ bufferSeq buf).flatten)) ∧
    ((state.handleMessage msg io).1 = .ok .checkpointObsolete →
      (state.handleMessage msg io).2 = state) ∧
    ((state.handleMessage msg io).1 = .error .walError ∨
        (state.handleMessage msg io).1 = .error .walPruneError →
      ∀ calls later laterIo,
        ((state.handleMessage msg io).2.handleAll calls).handleMessage later
            laterIo =
          (.error .walUnavailable, (state.handleMessage msg io).2)) := by
  refine ⟨?_, fun response => handleMessage_writesAhead, ?_, ?_⟩
  all_goals
    rcases state.exists_outcome msg io with
      ⟨returned, after, handled, outcome⟩
    simp only [handled]
  · intro error failed notPrune
    subst failed
    cases outcome with
    | unavailable stopped => exact ⟨rfl, fun _ => rfl⟩
    | rejected _ notAppend _ => exact ⟨rfl, fun _ => rfl⟩
    | appendFailed written => exact ⟨rfl, fun notAppend => absurd rfl notAppend⟩
    | pruneFailed staged wal => exact absurd rfl notPrune
  · intro obsolete
    subst obsolete
    cases outcome with
    | obsolete phase old => rfl
    | accepted _ staged running authenticated newer stages unstable =>
        exact absurd rfl stages.response_ne
  · intro failed calls later laterIo
    have stopped : after.walFailed = true := by
      cases outcome with
      | appendFailed written => rfl
      | pruneFailed staged wal => rfl
      | unavailable stopped => exact stopped
      | rejected error notAppend notPrune => simp [notAppend, notPrune] at failed
      | obsolete => simp at failed
      | accepted => simp at failed
      | stabilized => simp at failed
    rw [handleAll_of_walFailed stopped, handleMessage_of_walFailed stopped]

end PbftState

/-- One call of the handler, as a machine. -/
def handleStep (state : PbftState) (call : PbftMessage × WalIo) :
    Option PbftState :=
  some (state.handleMessage call.1 call.2).2

theorem run_handleStep (state : PbftState) (calls : List (PbftMessage × WalIo)) :
    run handleStep state calls = some (state.handleAll calls) :=
  run_eq_foldl (fun _ _ => rfl) state calls

end SovereignLattice
