import SovereignLattice.Process.Linearizability

/-!
# Progress of the connections

Whoever holds the state's lock can always go on, `main` included, and drops it within
two actions.  So no interleaving leaves a connection with a consensus packet more than
nine actions from its end.
-/

namespace SovereignLattice

section Progress

variable [Curve] [Encodings]

/-- The connection has a consensus packet and has not ended. -/
def Task.Serving : Task → Prop
  | .lockingState _ => True
  | .lockingSecret _ => True
  | .readingKeys _ => True
  | .lockingAgain _ _ => True
  | .handling _ _ => True
  | .lockingView _ => True
  | .handlingView _ => True
  | .sendingVote _ => True
  | _ => False

/-- `main` has not failed. -/
def Process.Alive (process : Process) : Prop :=
  ∀ error, process.main ≠ .failed error

/-- Some actions, at most this many, end the connection. -/
def Process.Ends (config : ServerConfig) (wal : WriteAheadLog) (process : Process)
    (index count : Nat) : Prop :=
  ∃ later final result, later.length ≤ count ∧
    run (processStep config wal) process later = some final ∧
      final.tasks[index]? = some (.ended result)

namespace Process

variable {config : ServerConfig} {wal : WriteAheadLog} {process next : Process}
variable {index count : Nat} {io : WalIo} {task : Task} {action : ProcessAction}

theorem Ends.of_ended {result : Except ServeError Served}
    (stands : process.tasks[index]? = some (.ended result)) :
    process.Ends config wal index count :=
  ⟨[], process, result, Nat.zero_le _, rfl, stands⟩

theorem Ends.after (stepped : processStep config wal process action = some next)
    (ends : next.Ends config wal index count) :
    process.Ends config wal index (count + 1) := by
  rcases ends with ⟨later, final, result, short, reached, ended⟩
  refine ⟨action :: later, final, result, ?_, ?_, ended⟩
  · rw [List.length_cons]
    omega
  · exact run_cons_eq_some.mpr ⟨next, stepped, reached⟩

theorem Ends.mono {larger : Nat} (ends : process.Ends config wal index count)
    (fewer : count ≤ larger) : process.Ends config wal index larger := by
  rcases ends with ⟨later, final, result, short, rest⟩
  exact ⟨later, final, result, short.trans fewer, rest⟩

theorem step_advance (alive : process.Alive)
    (stands : process.tasks[index]? = some task)
    (advanced : process.advance config index io task = some next) :
    processStep config wal process (.advance index io) = some next := by
  unfold processStep
  split
  · rename_i error failed
    exact absurd failed (alive error)
  · dsimp only
    rw [stands, Option.bind_some, advanced]

theorem ends_after (sound : process.Sound) (alive : process.Alive)
    (stands : process.tasks[index]? = some task)
    (advanced : process.advance config index io task = some next)
    (ends : next.Sound → next.Ends config wal index count) :
    process.Ends config wal index (count + 1) := by
  have stepped : processStep config wal process (.advance index io) = some next :=
    step_advance alive stands advanced
  exact .after stepped (ends (sound.step stepped))

theorem step_takeVote (alive : process.Alive) {out : PbftMessage}
    {rest : List PbftMessage} (queued : process.votes = out :: rest) :
    processStep config wal process .takeVote =
      some { process with votes := rest, broadcast := process.broadcast ++ [out] } := by
  unfold processStep
  split
  · rename_i error failed
    exact absurd failed (alive error)
  · dsimp only
    rw [queued]

theorem step_main (alive : process.Alive)
    (advanced : process.advanceMain config wal = some next) :
    processStep config wal process .main = some next := by
  unfold processStep
  split
  · rename_i error failed
    exact absurd failed (alive error)
  · exact advanced

omit [Encodings] in
theorem getElem?_setTask (stands : process.tasks[index]? = some task) (new : Task) :
    (process.setTask index new).tasks[index]? = some new := by
  rw [setTask, getElem?_set_of_stands stands, if_pos rfl]

omit [Encodings] in
/-- The secret key's lock is only taken inside the state's lock. -/
theorem inside_state_of_secret {owner : Owner}
    (inside : Inside Task.HoldsSecret process.tasks process.main.HoldsSecret owner) :
    Inside Task.HoldsState process.tasks process.main.HoldsState owner := by
  cases owner with
  | main =>
      show process.main.HoldsState
      cases place : process.main with
      | releasing => trivial
      | _ =>
          rw [place] at inside
          exact absurd inside id
  | connection place =>
      rcases inside with ⟨task, stands, holds⟩
      refine ⟨task, stands, ?_⟩
      cases task with
      | readingKeys => trivial
      | _ => exact absurd holds id

omit [Encodings] in
/-- Whoever holds only the state's lock finds the other one free. -/
theorem Sound.secret_free (sound : process.Sound) {owner : Owner}
    (own : Inside Task.HoldsState process.tasks process.main.HoldsState owner)
    (without : ¬ Inside Task.HoldsSecret process.tasks process.main.HoldsSecret
      owner) : process.secretOwner = none := by
  cases held : process.secretOwner with
  | none => rfl
  | some other =>
      have inside := (sound.secretGuarded other).mp held
      have same := sound.stateGuarded.exclusive own (inside_state_of_secret inside)
      exact absurd (same ▸ inside) without

/-! ## From the last lock to the end -/

theorem ends_of_sending (sound : process.Sound) (alive : process.Alive)
    {out : PbftMessage} (stands : process.tasks[index]? = some (.sendingVote out)) :
    process.Ends config wal index 2 := by
  have sends {current : Process} (alive : current.Alive)
      (stands : current.tasks[index]? = some (.sendingVote out))
      (room : current.votes.length < channelCapacity) :
      current.Ends config wal index 1 := by
    have advanced : current.advance config index .durable (.sendingVote out) =
        some ({ current with votes := current.votes ++ [out] }.finish index
          (.ended (.ok (.answer (some out))))) :=
      if_pos room
    exact .after (step_advance alive stands advanced)
      (.of_ended (getElem?_setTask stands _))
  have fit := sound.votesFit
  cases queued : process.votes with
  | nil =>
      have room : process.votes.length < channelCapacity := by
        rw [queued]
        exact Nat.zero_lt_succ 255
      exact (sends alive stands room).mono (by decide)
  | cons first rest =>
      rw [queued, List.length_cons] at fit
      exact .after (step_takeVote alive queued) (sends alive stands fit)

theorem ends_of_handling (sound : process.Sound) (alive : process.Alive)
    (io : WalIo) {msg : PbftMessage} {sk : Scalar}
    (stands : process.tasks[index]? = some (.handling msg sk)) :
    process.Ends config wal index 3 := by
  have checked := sound.checked index _ stands
  have advanced : process.advance config index io (.handling msg sk) =
      some (process.handle config index msg sk io) :=
    rfl
  have moved := advanced_of_advance advanced
  apply ends_after sound alive stands advanced
  intro after
  generalize process.handle config index msg sk io = next at moved after
  cases moved with
  | handlingPanicked _ _ missing =>
      rw [missing] at checked
      cases checked
  | handlerRefused => exact .of_ended (getElem?_setTask stands _)
  | handlerSilent => exact .of_ended (getElem?_setTask stands _)
  | handlerAnswered => exact ends_of_sending after alive (getElem?_setTask stands _)

theorem ends_of_handlingView (sound : process.Sound) (alive : process.Alive)
    {payload : ViewChangePayload}
    (stands : process.tasks[index]? = some (.handlingView payload)) :
    process.Ends config wal index 1 := by
  have checked := sound.checked index _ stands
  have advanced : process.advance config index .durable (.handlingView payload) =
      some (process.handleView index payload) :=
    rfl
  have moved := advanced_of_advance advanced
  apply ends_after sound alive stands advanced
  intro after
  generalize process.handleView index payload = next at moved
  cases moved with
  | viewPanicked _ missing =>
      rw [missing] at checked
      cases checked
  | viewRefused => exact .of_ended (getElem?_setTask stands _)
  | viewAccepted => exact .of_ended (getElem?_setTask stands _)

/-- A task takes the state's lock when it is free. -/
theorem ends_of_lockingAgain (sound : process.Sound) (alive : process.Alive)
    (io : WalIo) (free : process.stateOwner = none) {msg : PbftMessage}
    {sk : Scalar} (stands : process.tasks[index]? = some (.lockingAgain msg sk)) :
    process.Ends config wal index 4 := by
  have advanced : process.advance config index io (.lockingAgain msg sk) =
      some ({ process with stateOwner := some (.connection index) }.setTask index
        (.handling msg sk)) :=
    if_pos free
  exact ends_after sound alive stands advanced fun after =>
    ends_of_handling after alive io (getElem?_setTask stands _)

theorem ends_of_lockingView (sound : process.Sound) (alive : process.Alive)
    (free : process.stateOwner = none) {payload : ViewChangePayload}
    (stands : process.tasks[index]? = some (.lockingView payload)) :
    process.Ends config wal index 2 := by
  have advanced : process.advance config index .durable (.lockingView payload) =
      some ({ process with stateOwner := some (.connection index) }.setTask index
        (.handlingView payload)) :=
    if_pos free
  exact ends_after sound alive stands advanced fun after =>
    ends_of_handlingView after alive (getElem?_setTask stands _)

theorem ends_of_readingKeys (sound : process.Sound) (alive : process.Alive)
    (io : WalIo) {packet : Packet}
    (stands : process.tasks[index]? = some (.readingKeys packet)) :
    process.Ends config wal index 5 := by
  have advanced : process.advance config index .durable (.readingKeys packet) =
      some (process.readKeys index packet) :=
    rfl
  have moved := advanced_of_advance advanced
  apply ends_after sound alive stands advanced
  intro after
  generalize process.readKeys index packet = next at moved after
  cases moved with
  | messageRefused => exact .of_ended (getElem?_setTask stands _)
  | messageChecked =>
      exact ends_of_lockingAgain after alive io rfl (getElem?_setTask stands _)
  | payloadRefused => exact .of_ended (getElem?_setTask stands _)
  | payloadChecked =>
      exact (ends_of_lockingView after alive rfl (getElem?_setTask stands _)).mono
        (by decide)

theorem ends_of_lockingSecret (sound : process.Sound) (alive : process.Alive)
    (io : WalIo) {msg : PbftMessage}
    (stands : process.tasks[index]? = some (.lockingSecret msg)) :
    process.Ends config wal index 6 := by
  have own : Inside Task.HoldsState process.tasks process.main.HoldsState
      (.connection index) :=
    (standsAt_of_stands stands).mpr trivial
  have free := sound.secret_free own
    fun inside => (standsAt_of_stands stands).mp inside
  have advanced : process.advance config index .durable (.lockingSecret msg) =
      some ({ process with secretOwner := some (.connection index) }.setTask index
        (.readingKeys (.pbft msg))) :=
    if_pos free
  exact ends_after sound alive stands advanced fun after =>
    ends_of_readingKeys after alive io (getElem?_setTask stands _)

theorem ends_of_lockingState (sound : process.Sound) (alive : process.Alive)
    (io : WalIo) (free : process.stateOwner = none) {packet : Packet}
    (stands : process.tasks[index]? = some (.lockingState packet)) :
    process.Ends config wal index 7 := by
  cases packet with
  | pbft msg =>
      have advanced : process.advance config index .durable
          (.lockingState (.pbft msg)) =
            some ({ process with
              stateOwner := some (.connection index) }.setTask index
                (.lockingSecret msg)) :=
        if_pos free
      exact ends_after sound alive stands advanced fun after =>
        ends_of_lockingSecret after alive io (getElem?_setTask stands _)
  | viewChange payload =>
      have advanced : process.advance config index .durable
          (.lockingState (.viewChange payload)) =
            some ({ process with
              stateOwner := some (.connection index) }.setTask index
                (.readingKeys (.viewChange payload))) :=
        if_pos free
      exact (ends_after sound alive stands advanced fun after =>
        ends_of_readingKeys after alive io (getElem?_setTask stands _)).mono
          (by decide)

/-! ## The holder of the state's lock -/

/-- The process after some actions, at most this many, that free the state's lock and
leave the tasks outside it where they are. -/
def Frees (config : ServerConfig) (wal : WriteAheadLog) (process : Process)
    (count : Nat) : Prop :=
  ∃ later final, later.length ≤ count ∧
    run (processStep config wal) process later = some final ∧
      final.stateOwner = none ∧ final.Alive ∧ final.Sound ∧
        ∀ (place : Nat) (task : Task), process.tasks[place]? = some task →
          ¬ task.HoldsState → final.tasks[place]? = some task

theorem Frees.after (stepped : processStep config wal process action = some next)
    (kept : ∀ (place : Nat) (task : Task), process.tasks[place]? = some task →
      ¬ task.HoldsState → next.tasks[place]? = some task)
    (frees : next.Frees config wal count) : process.Frees config wal (count + 1) := by
  rcases frees with ⟨later, final, short, reached, free, alive, sound, others⟩
  refine ⟨action :: later, final, ?_, run_cons_eq_some.mpr ⟨next, stepped, reached⟩,
    free, alive, sound, ?_⟩
  · rw [List.length_cons]
    omega
  · intro place task stands outside
    exact others place task (kept place task stands outside) outside

theorem Frees.of_free (sound : process.Sound) (alive : process.Alive)
    (free : process.stateOwner = none) : process.Frees config wal count :=
  ⟨[], process, Nat.zero_le _, rfl, free, alive, sound, fun _ _ stands _ => stands⟩

omit [Encodings] in
theorem kept_setTask (stands : process.tasks[index]? = some task)
    (inside : task.HoldsState) (new : Task) (place : Nat) (other : Task)
    (otherStands : process.tasks[place]? = some other)
    (outside : ¬ other.HoldsState) :
    (process.tasks.set index new)[place]? = some other := by
  rw [getElem?_set_of_stands stands]
  split
  · rename_i here
    rw [here, stands] at otherStands
    cases otherStands
    exact absurd inside outside
  · exact otherStands

/-- A task in its last action under the lock frees it. -/
theorem frees_of_advance (sound : process.Sound) (alive : process.Alive)
    (stands : process.tasks[index]? = some task) (inside : task.HoldsState)
    (advanced : process.advance config index io task = some next)
    (sameMain : next.main = process.main) (free : next.stateOwner = none)
    {new : Task} (sameTasks : next.tasks = process.tasks.set index new) :
    process.Frees config wal 1 := by
  have stepped : processStep config wal process (.advance index io) = some next :=
    step_advance alive stands advanced
  have nextAlive : next.Alive := by
    rw [Alive, sameMain]
    exact alive
  apply Frees.after stepped ?_ (.of_free (sound.step stepped) nextAlive free)
  rw [sameTasks]
  exact kept_setTask stands inside new

theorem frees_of_inside (sound : process.Sound) (alive : process.Alive)
    (io : WalIo) (stands : process.tasks[index]? = some task)
    (inside : task.HoldsState) : process.Frees config wal 2 := by
  have leaves {current : Process} {task : Task} (sound : current.Sound)
      (alive : current.Alive) (stands : current.tasks[index]? = some task)
      (inside : task.HoldsState) (last : ∀ msg, task ≠ .lockingSecret msg) :
      current.Frees config wal 1 := by
    have goes : ∃ next, current.advance config index io task = some next ∧
        next.stateOwner = none ∧ next.main = current.main ∧
          ∃ new, next.tasks = current.tasks.set index new := by
      cases task with
      | lockingSecret msg => exact absurd rfl (last msg)
      | readingKeys packet =>
          have moved := advanced_of_advance
            (rfl : current.advance config index io (.readingKeys packet) = _)
          refine ⟨_, rfl, ?_⟩
          generalize current.readKeys index packet = next at moved ⊢
          cases moved <;> exact ⟨rfl, rfl, _, rfl⟩
      | handling msg sk =>
          have moved := advanced_of_advance
            (rfl : current.advance config index io (.handling msg sk) = _)
          refine ⟨_, rfl, ?_⟩
          generalize current.handle config index msg sk io = next at moved ⊢
          cases moved <;> exact ⟨rfl, rfl, _, rfl⟩
      | handlingView payload =>
          have moved := advanced_of_advance
            (rfl : current.advance config index io (.handlingView payload) = _)
          refine ⟨_, rfl, ?_⟩
          generalize current.handleView index payload = next at moved ⊢
          cases moved <;> exact ⟨rfl, rfl, _, rfl⟩
      | _ => exact absurd inside id
    rcases goes with ⟨next, advanced, free, sameMain, new, sameTasks⟩
    exact frees_of_advance sound alive stands inside advanced sameMain free sameTasks
  cases task with
  | lockingSecret msg =>
      have own : Inside Task.HoldsState process.tasks process.main.HoldsState
          (.connection index) :=
        (standsAt_of_stands stands).mpr trivial
      have free := sound.secret_free own
        fun inside => (standsAt_of_stands stands).mp inside
      have advanced : process.advance config index io (.lockingSecret msg) =
          some ({ process with
            secretOwner := some (.connection index) }.setTask index
              (.readingKeys (.pbft msg))) :=
        if_pos free
      have stepped : processStep config wal process (.advance index io) = _ :=
        step_advance alive stands advanced
      exact .after stepped (kept_setTask stands inside _)
        (leaves (sound.step stepped) alive (getElem?_setTask stands _) trivial
          (by simp))
  | _ =>
      rcases leaves sound alive stands inside (by simp) with
        ⟨later, final, short, rest⟩
      exact ⟨later, final, short.trans (by decide), rest⟩

/-- `main` drops both locks in one action, or takes the second one first. -/
theorem frees_of_main (sound : process.Sound) (alive : process.Alive)
    (inside : process.main.HoldsState) : process.Frees config wal 2 := by
  have releases {current : Process} (sound : current.Sound)
      (alive : current.Alive) (place : current.main = .releasing) :
      current.Frees config wal 1 := by
    have advanced : current.advanceMain config wal =
        some { current with
          stateOwner := none, secretOwner := none, main := .live } := by
      rw [advanceMain, place]
    have stepped := step_main alive advanced
    exact .after stepped (fun _ _ stands _ => stands)
      (.of_free (sound.step stepped) (by simp [Alive]) rfl)
  cases place : process.main with
  | releasing =>
      rcases releases sound alive place with ⟨later, final, short, rest⟩
      exact ⟨later, final, short.trans (by decide), rest⟩
  | lockingSecret share =>
      have free : process.secretOwner = none := by
        have own : Inside Task.HoldsState process.tasks process.main.HoldsState
            .main :=
          inside
        apply sound.secret_free own
        rw [Inside, place]
        exact id
      have advanced : process.advanceMain config wal =
          some { process with
            secretOwner := some .main, selfSk := some share, main := .releasing } := by
        rw [advanceMain, place]
        exact if_pos free
      have stepped := step_main alive advanced
      exact .after stepped (fun _ _ stands _ => stands)
        (releases (sound.step stepped) (by simp [Alive]) rfl)
  | _ =>
      rw [place] at inside
      exact absurd inside id

/-- Within two actions the state's lock is free. -/
theorem frees (sound : process.Sound) (alive : process.Alive) (io : WalIo) :
    process.Frees config wal 2 := by
  cases held : process.stateOwner with
  | none => exact .of_free sound alive held
  | some owner =>
      have inside := (sound.stateGuarded owner).mp held
      cases owner with
      | connection index =>
          rcases inside with ⟨task, stands, holds⟩
          exact frees_of_inside sound alive io stands holds
      | main => exact frees_of_main sound alive inside

/-- Wherever a connection with a consensus packet stands, nine actions can end it. -/
theorem ends_of_serving (sound : process.Sound) (alive : process.Alive) (io : WalIo)
    (stands : process.tasks[index]? = some task) (serving : task.Serving) :
    process.Ends config wal index 9 := by
  have waits (outside : ¬ task.HoldsState)
      (ends : ∀ {final : Process}, final.Sound → final.Alive →
        final.stateOwner = none → final.tasks[index]? = some task →
          final.Ends config wal index 7) : process.Ends config wal index 9 := by
    have freed : process.Frees config wal 2 := frees sound alive io
    rcases freed with
      ⟨first, middle, short, reached, free, middleAlive, middleSound, others⟩
    rcases ends middleSound middleAlive free (others index task stands outside) with
      ⟨later, final, result, shortLater, continued, ended⟩
    refine ⟨first ++ later, final, result, ?_, ?_, ended⟩
    · rw [List.length_append]
      omega
    · exact run_append_eq_some.mpr ⟨middle, reached, continued⟩
  cases task with
  | lockingState packet =>
      exact waits id fun sound alive free stands =>
        ends_of_lockingState sound alive io free stands
  | lockingSecret msg =>
      exact (ends_of_lockingSecret sound alive io stands).mono (by decide)
  | readingKeys packet =>
      exact (ends_of_readingKeys sound alive io stands).mono (by decide)
  | lockingAgain msg sk =>
      exact waits id fun sound alive free stands =>
        (ends_of_lockingAgain sound alive io free stands).mono (by decide)
  | handling msg sk =>
      exact (ends_of_handling sound alive io stands).mono (by decide)
  | lockingView payload =>
      exact waits id fun sound alive free stands =>
        (ends_of_lockingView sound alive free stands).mono (by decide)
  | handlingView payload =>
      exact (ends_of_handlingView sound alive stands).mono (by decide)
  | sendingVote out =>
      exact (ends_of_sending sound alive stands).mono (by decide)
  | _ => exact absurd serving id

end Process

/-- In every reachable process that is still there, each lock is held by at most one of
`main` and the connections, whoever holds the secret key's lock holds the state's, every
connection that runs has one of the 128 permits, and whatever the other connections and
`main` have done, at most nine actions end a given connection with a consensus packet. -/
theorem connections_progress {config : ServerConfig} {wal : WriteAheadLog}
    {secretPolynomial : List Scalar} {actions : List ProcessAction}
    {process : Process}
    (reached : run (processStep config wal) (config.boot secretPolynomial) actions =
      some process)
    (alive : process.Alive) :
    (∀ first second,
      Inside Task.HoldsState process.tasks process.main.HoldsState first →
        Inside Task.HoldsState process.tasks process.main.HoldsState second →
          first = second) ∧
    (∀ owner,
      Inside Task.HoldsSecret process.tasks process.main.HoldsSecret owner →
        Inside Task.HoldsState process.tasks process.main.HoldsState owner) ∧
    process.permits + process.tasks.countP Task.running = maxConnections ∧
    ∀ index task, process.tasks[index]? = some task → task.Serving →
      process.Ends config wal index 9 := by
  have sound := Process.Sound.of_run reached
  refine ⟨?_, fun _ => Process.inside_state_of_secret, sound.permitted, ?_⟩
  · intro first second
    exact sound.stateGuarded.exclusive
  · intro index task stands serving
    exact Process.ends_of_serving sound alive .durable stands serving

end Progress

section SmallRun

open SoloProcess

attribute [local instance] smallCurve smallEncodings

/-- `main` has the state's lock while a connection waits for it. -/
def caughtByMain : List ProcessAction :=
  [.main, .main] ++ connect 0 packetTypePbft proposal.toBytes

/-- The theorem at a connection that waits for `main`. -/
theorem connections_progress_caughtByMain :
    ∃ process task,
      run (processStep config ⟨[]⟩) (config.boot secretPolynomial) caughtByMain =
          some process ∧
        process.stateOwner = some .main ∧ process.tasks[0]? = some task ∧
          process.Ends config ⟨[]⟩ 0 9 := by
  have evaluated : (run step boot caughtByMain).map (fun process =>
      (process.stateOwner, (process.tasks[0]?).map fun task => match task with
        | .lockingState _ => true
        | _ => false)) = some (some .main, some true) := by
    decide +kernel
  rcases Option.map_eq_some_iff.mp evaluated with ⟨process, reached, observed⟩
  rw [Prod.mk.injEq, Option.map_eq_some_iff] at observed
  rcases observed with ⟨held, task, stands, waits⟩
  have serving : task.Serving := by
    split at waits
    · trivial
    · cases waits
  have inside := ((Process.Sound.of_run reached).stateGuarded .main).mp held
  have alive : process.Alive := by
    intro error failed
    rw [Inside, failed] at inside
    exact inside
  exact ⟨process, task, reached, held, stands,
    (connections_progress reached alive).2.2.2 0 task stands serving⟩

end SmallRun

end SovereignLattice
