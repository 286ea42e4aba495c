import SovereignLattice.Foundations.Locks
import SovereignLattice.Pbft.Atomicity
import SovereignLattice.Process.Steps

/-!
# The locks of a process

What every reachable process keeps: each lock is held by the one task inside its
critical section, the permits and the running connections add up, the channels stay
within their capacity, and what a task has checked under the first lock still holds
when it has the second.
-/

namespace SovereignLattice

section Locks

variable [Curve] [Encodings]

/-! ## What every reachable process keeps -/

/-- Inside a critical section of the state's lock. -/
def Task.HoldsState : Task → Prop
  | .lockingSecret _ => True
  | .readingKeys _ => True
  | .handling _ _ => True
  | .handlingView _ => True
  | _ => False

/-- Inside the critical section of the secret key's lock. -/
def Task.HoldsSecret : Task → Prop
  | .readingKeys (.pbft _) => True
  | .readingKeys (.viewChange _) => False
  | _ => False

def MainTask.HoldsState : MainTask → Prop
  | .lockingSecret _ => True
  | .releasing => True
  | _ => False

def MainTask.HoldsSecret : MainTask → Prop
  | .releasing => True
  | _ => False

/-- The task has not ended, and has its permit. -/
def Task.running : Task → Bool
  | .ended _ => false
  | .panicked => false
  | _ => true

/-- What a task has checked still holds, and none has ended in a way that the code
excludes. -/
def Task.Checked (state : Option PbftState) (selfSk : Option Scalar) : Task → Prop
  | .lockingAgain msg sk => checkMessage state selfSk msg = .ok sk
  | .handling msg sk => checkMessage state selfSk msg = .ok sk
  | .lockingView payload => checkPayload state payload = .ok ()
  | .handlingView payload => checkPayload state payload = .ok ()
  | .panicked => False
  | .ended result =>
      result ≠ .error (.connection .localSecretKeyNotSet)
  | _ => True

/-- What `main` has installed at each of its places. -/
def MainTask.Installed (state : Option PbftState) (selfSk : Option Scalar) :
    MainTask → Prop
  | .lockingSecret _ => state.isSome ∧ selfSk = none
  | .releasing => state.isSome ∧ selfSk.isSome
  | .live => state.isSome ∧ selfSk.isSome
  | _ => state = none ∧ selfSk = none

/-- Who stands inside a critical section, given the tasks and `main`. -/
def Inside (holds : Task → Prop) (tasks : List Task) (mainHolds : Prop) :
    Owner → Prop
  | .main => mainHolds
  | .connection index => StandsAt tasks holds index

section Inside

variable {holds : Task → Prop} {tasks : List Task} {mainHolds after : Prop}
variable {holder : Option Owner} {index : Nat} {old new : Task}

omit [Encodings] in
theorem inside_set_of_ne (stands : tasks[index]? = some old) (new : Task)
    (owner : Owner) (other : owner ≠ .connection index) :
    Inside holds (tasks.set index new) mainHolds owner ↔
      Inside holds tasks mainHolds owner := by
  cases owner with
  | main => rfl
  | connection place =>
      have different : place ≠ index := fun same => other (by rw [same])
      rw [Inside, standsAt_set stands, if_neg different]
      rfl

omit [Encodings] in
theorem Guards.taskEnters
    (guards : Guards none (Inside holds tasks mainHolds))
    (stands : tasks[index]? = some old) (entered : holds new) :
    Guards (some (.connection index))
      (Inside holds (tasks.set index new) mainHolds) := by
  apply guards.acquire
  · rw [Inside, standsAt_set stands, if_pos rfl]
    exact entered
  · exact inside_set_of_ne stands new

omit [Encodings] in
theorem Guards.taskLeaves
    (guards : Guards holder (Inside holds tasks mainHolds))
    (stands : tasks[index]? = some old) (was : holds old) (left : ¬ holds new) :
    Guards none (Inside holds (tasks.set index new) mainHolds) := by
  have held : holder = some (.connection index) :=
    (guards _).mpr ((standsAt_of_stands stands).mpr was)
  subst held
  apply guards.release
  · rw [Inside, standsAt_set stands, if_pos rfl]
    exact left
  · exact inside_set_of_ne stands new

omit [Encodings] in
theorem Guards.taskStays
    (guards : Guards holder (Inside holds tasks mainHolds))
    (stands : tasks[index]? = some old) (same : holds new ↔ holds old) :
    Guards holder (Inside holds (tasks.set index new) mainHolds) := by
  apply guards.congr
  intro owner
  cases owner with
  | main => rfl
  | connection place => exact standsAt_set_of_iff stands same place

omit [Encodings] in
theorem Guards.taskSpawned
    (guards : Guards holder (Inside holds tasks mainHolds))
    (outside : ¬ holds new) :
    Guards holder (Inside holds (tasks ++ [new]) mainHolds) := by
  apply guards.congr
  intro owner
  cases owner with
  | main => rfl
  | connection place => exact standsAt_concat outside place

omit [Encodings] in
theorem Guards.mainEnters
    (guards : Guards none (Inside holds tasks mainHolds)) (entered : after) :
    Guards (some .main) (Inside holds tasks after) := by
  apply guards.acquire entered
  intro owner other
  cases owner with
  | main => exact absurd rfl other
  | connection place => rfl

omit [Encodings] in
theorem Guards.mainLeaves
    (guards : Guards holder (Inside holds tasks mainHolds)) (was : mainHolds)
    (left : ¬ after) : Guards none (Inside holds tasks after) := by
  have held : holder = some .main := (guards .main).mpr was
  subst held
  apply guards.release left
  intro owner other
  cases owner with
  | main => exact absurd rfl other
  | connection place => rfl

omit [Encodings] in
theorem Guards.mainStays
    (guards : Guards holder (Inside holds tasks mainHolds))
    (same : after ↔ mainHolds) : Guards holder (Inside holds tasks after) := by
  apply guards.congr
  intro owner
  cases owner with
  | main => exact same
  | connection place => rfl

end Inside

namespace Process

structure Sound (process : Process) : Prop where
  stateGuarded : Guards process.stateOwner
    (Inside Task.HoldsState process.tasks process.main.HoldsState)
  secretGuarded : Guards process.secretOwner
    (Inside Task.HoldsSecret process.tasks process.main.HoldsSecret)
  permitted : process.permits + process.tasks.countP Task.running = maxConnections
  sharesFit : process.shares.length ≤ channelCapacity
  votesFit : process.votes.length ≤ channelCapacity
  installed : process.main.Installed process.state process.selfSk
  checked : ∀ (index : Nat) (task : Task), process.tasks[index]? = some task →
    task.Checked process.state process.selfSk

end Process

/-! ## What a check depends on -/

section Checks

variable {state after : PbftState} {selfSk : Option Scalar}

omit [Encodings] in
theorem checkMessage_of_topology (same : after.toTopology = state.toTopology)
    (msg : PbftMessage) :
    checkMessage (some after) selfSk msg = checkMessage (some state) selfSk msg := by
  simp only [checkMessage]
  rw [same]

omit [Encodings] in
theorem checkPayload_of_topology (same : after.toTopology = state.toTopology)
    (payload : ViewChangePayload) :
    checkPayload (some after) payload = checkPayload (some state) payload := by
  simp only [checkPayload]
  rw [same]

omit [Encodings] in
theorem Task.Checked.of_topology {task : Task}
    (checked : task.Checked (some state) selfSk)
    (same : after.toTopology = state.toTopology) :
    task.Checked (some after) selfSk := by
  cases task with
  | lockingAgain msg sk => exact (checkMessage_of_topology same msg).trans checked
  | handling msg sk => exact (checkMessage_of_topology same msg).trans checked
  | lockingView payload => exact (checkPayload_of_topology same payload).trans checked
  | handlingView payload => exact (checkPayload_of_topology same payload).trans checked
  | panicked => exact checked
  | ended => exact checked
  | _ => trivial

omit [Encodings] in
/-- Without a state nothing has been checked. -/
theorem Task.Checked.of_none {task : Task} {later : Option PbftState}
    {laterSk : Option Scalar} (checked : task.Checked none selfSk) :
    task.Checked later laterSk := by
  cases task with
  | lockingAgain => cases checked
  | handling => cases checked
  | lockingView => cases checked
  | handlingView => cases checked
  | panicked => exact checked
  | ended => exact checked
  | _ => trivial

omit [Encodings] in
theorem checkMessage_without_key (state : Option PbftState) (msg : PbftMessage)
    (sk : Scalar) : checkMessage state none msg ≠ .ok sk := by
  intro checked
  unfold checkMessage at checked
  split at checked
  · cases checked
  split at checked
  · cases checked
  split at checked <;> cases checked

omit [Encodings] in
/-- Without a secret key no message has been checked. -/
theorem Task.Checked.of_no_key {task : Task} {state : Option PbftState}
    {laterSk : Option Scalar} (checked : task.Checked state none) :
    task.Checked state laterSk := by
  cases task with
  | lockingAgain => exact absurd checked (checkMessage_without_key _ _ _)
  | handling => exact absurd checked (checkMessage_without_key _ _ _)
  | lockingView => exact checked
  | handlingView => exact checked
  | panicked => exact checked
  | ended => exact checked
  | _ => trivial

omit [Encodings] in
theorem checkMessage_ne_keyNotSet {state : Option PbftState}
    (installed : state = none ∨ selfSk.isSome) (msg : PbftMessage) :
    checkMessage state selfSk msg ≠ .error .localSecretKeyNotSet := by
  intro refused
  unfold checkMessage at refused
  split at refused
  · cases refused
  split at refused
  · cases refused
  split at refused
  · cases refused
  rcases installed with missing | present
  · cases missing
  · rcases Option.isSome_iff_exists.mp present with ⟨sk, known⟩
    rw [known] at refused
    cases refused

omit [Encodings] in
theorem checkPayload_ne_keyNotSet (state : Option PbftState)
    (payload : ViewChangePayload) :
    checkPayload state payload ≠ .error .localSecretKeyNotSet := by
  intro refused
  unfold checkPayload at refused
  split at refused
  · cases refused
  split at refused
  · cases refused
  split at refused <;> cases refused

omit [Encodings] in
/-- While `main` is outside its critical section, state and key are both there or
both missing. -/
theorem MainTask.Installed.together {main : MainTask} {state : Option PbftState}
    (installed : main.Installed state selfSk) (outside : ¬ main.HoldsState) :
    state = none ∧ selfSk = none ∨ state.isSome ∧ selfSk.isSome := by
  cases main with
  | lockingSecret => exact absurd trivial outside
  | releasing => exact absurd trivial outside
  | live => exact Or.inr installed
  | _ => exact Or.inl installed

omit [Encodings] in
theorem MainTask.Installed.of_replaced {main : MainTask}
    (installed : main.Installed (some state) selfSk) (after : PbftState) :
    main.Installed (some after) selfSk := by
  cases main with
  | lockingSecret => exact installed
  | releasing => exact installed
  | live => exact installed
  | _ => cases installed.1

end Checks

/-! ## Every action keeps it -/

namespace Process.Sound

variable {config : ServerConfig} {wal : WriteAheadLog} {process next : Process}
variable {index : Nat} {io : WalIo} {old new : Task}

omit [Encodings] in
theorem checked_set (sound : process.Sound)
    (stands : process.tasks[index]? = some old)
    (newChecked : new.Checked process.state process.selfSk) (place : Nat)
    (task : Task) (found : (process.tasks.set index new)[place]? = some task) :
    task.Checked process.state process.selfSk := by
  rw [getElem?_set_of_stands stands] at found
  split at found
  · cases found
    exact newChecked
  · exact sound.checked place task found

omit [Encodings] in
theorem permitted_set (sound : process.Sound)
    (stands : process.tasks[index]? = some old) (was : old.running = true)
    (is : new.running = true) :
    process.permits + (process.tasks.set index new).countP Task.running =
      maxConnections := by
  have permitted := sound.permitted
  have counted := countP_set Task.running stands new
  rw [was, is] at counted
  omega

omit [Encodings] in
theorem permitted_finish (sound : process.Sound)
    (stands : process.tasks[index]? = some old) (was : old.running = true)
    (is : new.running = false) :
    process.permits + 1 + (process.tasks.set index new).countP Task.running =
      maxConnections := by
  have permitted := sound.permitted
  have counted := countP_set Task.running stands new
  rw [was, is] at counted
  simp only [if_true, Bool.false_eq_true, if_false] at counted
  omega

omit [Encodings] in
/-- The task inside the state's lock excludes `main` from it. -/
theorem main_outside (sound : process.Sound)
    (stands : process.tasks[index]? = some old) (inside : old.HoldsState) :
    ¬ process.main.HoldsState := by
  intro mainInside
  have own : Inside Task.HoldsState process.tasks process.main.HoldsState
      (.connection index) :=
    (standsAt_of_stands stands).mpr inside
  have same : Owner.main = .connection index :=
    sound.stateGuarded.exclusive mainInside own
  cases same

omit [Encodings] in
/-- What a task finds under the first lock can only fail for a reason of the message's
own, or because nothing is installed. -/
theorem refused_ne_keyNotSet (sound : process.Sound)
    (stands : process.tasks[index]? = some old) (inside : old.HoldsState)
    {msg : PbftMessage} {error : ConnectionError}
    (refused : checkMessage process.state process.selfSk msg = .error error) :
    error ≠ .localSecretKeyNotSet := by
  have outside := sound.main_outside stands inside
  intro same
  rw [same] at refused
  apply checkMessage_ne_keyNotSet ?_ msg refused
  rcases sound.installed.together outside with ⟨missing, _⟩ | ⟨_, present⟩
  · exact Or.inl missing
  · exact Or.inr present

omit [Encodings] in
/-- A task takes a free lock. -/
theorem locked (sound : process.Sound) (free : process.stateOwner = none)
    (stands : process.tasks[index]? = some old) (was : old.running = true)
    (enters : new.HoldsState) (is : new.running = true)
    (sameSecret : new.HoldsSecret ↔ old.HoldsSecret)
    (checked : new.Checked process.state process.selfSk) :
    Process.Sound ({ process with
      stateOwner := some (.connection index) }.setTask index new) where
  stateGuarded := (free ▸ sound.stateGuarded).taskEnters stands enters
  secretGuarded := sound.secretGuarded.taskStays stands sameSecret
  permitted := sound.permitted_set stands was is
  sharesFit := sound.sharesFit
  votesFit := sound.votesFit
  installed := sound.installed
  checked := sound.checked_set stands checked

omit [Encodings] in
/-- A task that held only the state's lock drops it. -/
theorem unlocked (sound : process.Sound)
    (stands : process.tasks[index]? = some old) (inside : old.HoldsState)
    (leaves : ¬ new.HoldsState) (sameSecret : new.HoldsSecret ↔ old.HoldsSecret)
    {permits : Nat}
    (permitted : permits + (process.tasks.set index new).countP Task.running =
      maxConnections)
    (checked : new.Checked process.state process.selfSk) :
    Process.Sound ({ process with
      stateOwner := none, permits := permits }.setTask index new) where
  stateGuarded := sound.stateGuarded.taskLeaves stands inside leaves
  secretGuarded := sound.secretGuarded.taskStays stands sameSecret
  permitted := permitted
  sharesFit := sound.sharesFit
  votesFit := sound.votesFit
  installed := sound.installed
  checked := sound.checked_set stands checked

omit [Encodings] in
theorem released (sound : process.Sound)
    (stands : process.tasks[index]? = some old) (inside : old.HoldsState)
    (leaves : ¬ new.HoldsState) (sameSecret : new.HoldsSecret ↔ old.HoldsSecret)
    (was : old.running = true) (is : new.running = true)
    (checked : new.Checked process.state process.selfSk) :
    Process.Sound ({ process with stateOwner := none }.setTask index new) :=
  sound.unlocked stands inside leaves sameSecret
    (sound.permitted_set stands was is) checked

omit [Encodings] in
theorem finished (sound : process.Sound)
    (stands : process.tasks[index]? = some old) (inside : old.HoldsState)
    (leaves : ¬ new.HoldsState) (sameSecret : new.HoldsSecret ↔ old.HoldsSecret)
    (was : old.running = true) (is : new.running = false)
    (checked : new.Checked process.state process.selfSk) :
    Process.Sound ({ process with stateOwner := none }.finish index new) :=
  sound.unlocked stands inside leaves sameSecret
    (sound.permitted_finish stands was is) checked

omit [Encodings] in
/-- The handler's new state has the keys that everything was checked against. -/
theorem replaced (sound : process.Sound) {state : PbftState}
    (held : process.state = some state) (msg : PbftMessage) (io : WalIo) :
    Process.Sound
      { process with state := some (state.handleMessage msg io).2 } := by
  have same := state.handleMessage_sameTopology msg io
  refine ⟨sound.stateGuarded, sound.secretGuarded, sound.permitted,
    sound.sharesFit, sound.votesFit, ?_, ?_⟩
  · have installed := sound.installed
    rw [held] at installed
    exact installed.of_replaced _
  · intro place task found
    have checked := sound.checked place task found
    rw [held] at checked
    exact checked.of_topology same

omit [Encodings] in
theorem advance (sound : process.Sound)
    (stands : process.tasks[index]? = some old)
    (moved : Advanced config process index io old next) : next.Sound := by
  have oldChecked := sound.checked index old stands
  cases moved with
  | sentShare msg room =>
      refine ⟨sound.stateGuarded.taskStays stands Iff.rfl,
        sound.secretGuarded.taskStays stands Iff.rfl,
        sound.permitted_finish stands rfl rfl, ?_, sound.votesFit,
        sound.installed, sound.checked_set stands (by simp [Task.Checked])⟩
      show (process.shares ++ [msg]).length ≤ channelCapacity
      rw [List.length_append, List.length_singleton]
      exact room
  | lockedMessage msg free =>
      exact sound.locked free stands rfl trivial rfl Iff.rfl trivial
  | lockedPayload payload free =>
      exact sound.locked free stands rfl trivial rfl Iff.rfl trivial
  | lockedSecret msg free =>
      exact
        { stateGuarded := sound.stateGuarded.taskStays stands Iff.rfl
          secretGuarded := (free ▸ sound.secretGuarded).taskEnters stands trivial
          permitted := sound.permitted_set stands rfl rfl
          sharesFit := sound.sharesFit
          votesFit := sound.votesFit
          installed := sound.installed
          checked := sound.checked_set stands trivial }
  | messageRefused msg error refused =>
      have other := sound.refused_ne_keyNotSet stands trivial refused
      exact
        { stateGuarded := sound.stateGuarded.taskLeaves stands trivial id
          secretGuarded := sound.secretGuarded.taskLeaves stands trivial id
          permitted := sound.permitted_finish stands rfl rfl
          sharesFit := sound.sharesFit
          votesFit := sound.votesFit
          installed := sound.installed
          checked := sound.checked_set stands (by simpa [Task.Checked] using other) }
  | messageChecked msg sk checked =>
      exact
        { stateGuarded := sound.stateGuarded.taskLeaves stands trivial id
          secretGuarded := sound.secretGuarded.taskLeaves stands trivial id
          permitted := sound.permitted_set stands rfl rfl
          sharesFit := sound.sharesFit
          votesFit := sound.votesFit
          installed := sound.installed
          checked := sound.checked_set stands checked }
  | payloadRefused payload error refused =>
      have other : error ≠ .localSecretKeyNotSet := by
        intro same
        exact checkPayload_ne_keyNotSet _ payload (same ▸ refused)
      exact sound.finished stands trivial id Iff.rfl rfl rfl
        (by simpa [Task.Checked] using other)
  | payloadChecked payload checked =>
      exact sound.released stands trivial id Iff.rfl rfl rfl checked
  | lockedAgain msg sk free =>
      exact sound.locked free stands rfl trivial rfl Iff.rfl oldChecked
  | handlingPanicked msg sk missing =>
      rw [missing] at oldChecked
      cases oldChecked
  | handlerRefused msg sk state after error held answered =>
      have after_eq : after = (state.handleMessage msg io).2 := by rw [answered]
      subst after_eq
      exact (sound.replaced held msg io).finished stands trivial id Iff.rfl rfl
        rfl (by simp [Task.Checked])
  | handlerSilent msg sk state after response held answered quiet =>
      have after_eq : after = (state.handleMessage msg io).2 := by rw [answered]
      subst after_eq
      exact (sound.replaced held msg io).finished stands trivial id Iff.rfl rfl
        rfl (by simp [Task.Checked])
  | handlerAnswered msg sk state after response out held answered sends =>
      have after_eq : after = (state.handleMessage msg io).2 := by rw [answered]
      subst after_eq
      exact (sound.replaced held msg io).released stands trivial id Iff.rfl rfl
        rfl trivial
  | lockedView payload free =>
      exact sound.locked free stands rfl trivial rfl Iff.rfl oldChecked
  | viewPanicked payload missing =>
      rw [missing] at oldChecked
      cases oldChecked
  | viewRefused payload state error held refused =>
      exact sound.finished stands trivial id Iff.rfl rfl rfl
        (by simp [Task.Checked])
  | viewAccepted payload state held accepted =>
      exact sound.finished stands trivial id Iff.rfl rfl rfl
        (by simp [Task.Checked])
  | sentVote out room =>
      refine ⟨sound.stateGuarded.taskStays stands Iff.rfl,
        sound.secretGuarded.taskStays stands Iff.rfl,
        sound.permitted_finish stands rfl rfl, sound.sharesFit, ?_,
        sound.installed, sound.checked_set stands (by simp [Task.Checked])⟩
      show (process.votes ++ [out]).length ≤ channelCapacity
      rw [List.length_append, List.length_singleton]
      exact room

omit [Encodings] in
theorem finalize_place (config : ServerConfig) (wal : WriteAheadLog)
    (ingest : Ingest) :
    ¬ (finalize config wal ingest).HoldsState ∧
      ¬ (finalize config wal ingest).HoldsSecret ∧
        (finalize config wal ingest).Installed none none := by
  rw [finalize]
  split
  · exact ⟨id, id, rfl, rfl⟩
  split
  · exact ⟨id, id, rfl, rfl⟩
  · exact ⟨id, id, rfl, rfl⟩

theorem advanceMain (sound : process.Sound)
    (moved : MainAdvanced config wal process process.main next) : next.Sound := by
  have stateGuarded := sound.stateGuarded
  have secretGuarded := sound.secretGuarded
  have installed := sound.installed
  generalize process.main = main at moved stateGuarded secretGuarded installed
  cases moved with
  | ingested ingest msg rest few queued =>
      have fit := sound.sharesFit
      rw [queued, List.length_cons] at fit
      exact
        { stateGuarded := stateGuarded.mainStays Iff.rfl
          secretGuarded := secretGuarded.mainStays Iff.rfl
          permitted := sound.permitted
          sharesFit := Nat.le_of_succ_le fit
          votesFit := sound.votesFit
          installed := installed
          checked := sound.checked }
  | finalized ingest enough =>
      rcases finalize_place config wal ingest with ⟨noState, noSecret, nothing⟩
      rcases installed with ⟨noReplica, noKey⟩
      exact
        { stateGuarded := stateGuarded.mainStays
            ⟨fun inside => absurd inside noState, fun inside => absurd inside id⟩
          secretGuarded := secretGuarded.mainStays
            ⟨fun inside => absurd inside noSecret, fun inside => absurd inside id⟩
          permitted := sound.permitted
          sharesFit := sound.sharesFit
          votesFit := sound.votesFit
          installed := by rw [noReplica, noKey]; exact nothing
          checked := sound.checked }
  | lockedState pbftState mySecretShare free =>
      rcases installed with ⟨noReplica, noKey⟩
      rw [free] at stateGuarded
      refine ⟨stateGuarded.mainEnters trivial, secretGuarded.mainStays Iff.rfl,
        sound.permitted, sound.sharesFit, sound.votesFit, ⟨rfl, noKey⟩, ?_⟩
      intro place task found
      have checked := sound.checked place task found
      rw [noReplica] at checked
      exact checked.of_none
  | lockedSecret mySecretShare free =>
      rcases installed with ⟨present, noKey⟩
      rw [free] at secretGuarded
      refine ⟨stateGuarded.mainStays Iff.rfl, secretGuarded.mainEnters trivial,
        sound.permitted, sound.sharesFit, sound.votesFit, ⟨present, rfl⟩, ?_⟩
      intro place task found
      have checked := sound.checked place task found
      rw [noKey] at checked
      exact checked.of_no_key
  | released =>
      exact
        { stateGuarded := stateGuarded.mainLeaves trivial id
          secretGuarded := secretGuarded.mainLeaves trivial id
          permitted := sound.permitted
          sharesFit := sound.sharesFit
          votesFit := sound.votesFit
          installed := installed
          checked := sound.checked }

theorem step (sound : process.Sound) {action : ProcessAction}
    (stepped : processStep config wal process action = some next) :
    next.Sound := by
  rcases (stepped_of_processStep stepped).1 with
    peerAddr | ⟨peerAddr, allowed, free⟩ | ⟨index, stream, error, stands, read⟩ |
      ⟨index, stream, msg, stands, read⟩ | ⟨index, stream, packet, stands, read⟩ |
      ⟨index, io, task, next, stands, moved⟩ | ⟨out, rest, queued⟩ |
      ⟨next, moved⟩ | ⟨action, ingest, error, waits, deadline⟩
  · exact sound
  · have permitted := sound.permitted
    refine ⟨sound.stateGuarded.taskSpawned id, sound.secretGuarded.taskSpawned id,
      ?_, sound.sharesFit, sound.votesFit, sound.installed, ?_⟩
    · simp only [List.countP_append, List.countP_singleton, Task.running, if_true]
      omega
    · intro place task found
      rw [List.getElem?_append] at found
      split at found
      · exact sound.checked place task found
      · rw [List.getElem?_singleton] at found
        split at found <;> cases found
        trivial
  · exact
      { stateGuarded := sound.stateGuarded.taskStays stands Iff.rfl
        secretGuarded := sound.secretGuarded.taskStays stands Iff.rfl
        permitted := sound.permitted_finish stands rfl rfl
        sharesFit := sound.sharesFit
        votesFit := sound.votesFit
        installed := sound.installed
        checked := sound.checked_set stands (by simp [Task.Checked]) }
  · exact
      { stateGuarded := sound.stateGuarded.taskStays stands Iff.rfl
        secretGuarded := sound.secretGuarded.taskStays stands Iff.rfl
        permitted := sound.permitted_set stands rfl rfl
        sharesFit := sound.sharesFit
        votesFit := sound.votesFit
        installed := sound.installed
        checked := sound.checked_set stands trivial }
  · exact
      { stateGuarded := sound.stateGuarded.taskStays stands Iff.rfl
        secretGuarded := sound.secretGuarded.taskStays stands Iff.rfl
        permitted := sound.permitted_set stands rfl rfl
        sharesFit := sound.sharesFit
        votesFit := sound.votesFit
        installed := sound.installed
        checked := sound.checked_set stands trivial }
  · exact sound.advance stands moved
  · have fit := sound.votesFit
    rw [queued, List.length_cons] at fit
    exact
      { stateGuarded := sound.stateGuarded
        secretGuarded := sound.secretGuarded
        permitted := sound.permitted
        sharesFit := sound.sharesFit
        votesFit := Nat.le_of_succ_le fit
        installed := sound.installed
        checked := sound.checked }
  · exact sound.advanceMain moved
  · have stateGuarded := sound.stateGuarded
    have secretGuarded := sound.secretGuarded
    have installed := sound.installed
    rw [waits] at stateGuarded secretGuarded installed
    exact
      { stateGuarded := stateGuarded.mainStays Iff.rfl
        secretGuarded := secretGuarded.mainStays Iff.rfl
        permitted := sound.permitted
        sharesFit := sound.sharesFit
        votesFit := sound.votesFit
        installed := installed
        checked := sound.checked }

omit [Encodings] in
theorem boot (config : ServerConfig) (secretPolynomial : List Scalar) :
    (config.boot secretPolynomial).Sound where
  stateGuarded := by
    intro owner
    cases owner <;> simp [ServerConfig.boot, Inside, MainTask.HoldsState, StandsAt]
  secretGuarded := by
    intro owner
    cases owner <;> simp [ServerConfig.boot, Inside, MainTask.HoldsSecret, StandsAt]
  permitted := rfl
  sharesFit := Nat.zero_le _
  votesFit := Nat.zero_le _
  installed := ⟨rfl, rfl⟩
  checked := by
    intro index task found
    simp [ServerConfig.boot] at found

theorem of_run {config : ServerConfig} {secretPolynomial : List Scalar}
    {actions : List ProcessAction}
    (reached : run (processStep config wal) (config.boot secretPolynomial) actions =
      some process) :
    process.Sound :=
  invariant_of_run (fun _ _ _ sound stepped => sound.step stepped)
    (boot config secretPolynomial) reached

end Process.Sound

end Locks

end SovereignLattice
