import SovereignLattice.Foundations.FileSystem
import SovereignLattice.Foundations.Runs
import SovereignLattice.Wal.ShortReads

/-!
# Compaction, call by call

`prune_before` makes its calls to the operating system one after the other on two
files.  Each call gets an answer, and a run is a list of answers: the process may
have crashed after any of them.  Whatever the answers are, the log path names the old
content until the rename and the compacted content from then on.
-/

namespace SovereignLattice

section Compaction

variable [Curve] {Path : Type}

/-- The answer to one call.  The count matters to reads and writes; the calls for
which the standard library retries an interruption never show one. -/
inductive IoAnswer where
  | done (count : Nat)
  | interrupted
  | failed
  deriving DecidableEq

/-- The next call of `prune_before`, with its local variables: the handles of the log
that it reads and of the temporary file, the position of the reader, and the part of
the buffer that is read or still to be written. -/
inductive PrunePhase where
  | syncLog
  | openLog
  | openTemp (source : Nat)
  | read (source copy position : Nat) (buf : Bytes)
  | write (source copy position : Nat) (pending : Bytes)
  | syncTemp
  | rename
  | reopen
  | openParent
  | syncParent
  | returned (result : Except WalError Unit)

/-- The files, the handle that `append_entry` writes to, and the next call. -/
structure PruneRun (Path : Type) where
  files : FileSystem Path UInt8
  handle : Nat
  phase : PrunePhase

namespace PruneRun

def goto (run : PruneRun Path) (phase : PrunePhase) : PruneRun Path :=
  { run with phase := phase }

def fail (run : PruneRun Path) (error : WalError) : PruneRun Path :=
  run.goto (.returned (.error error))

/-- One call of the reading loop, and the test of the sequence on a full buffer. -/
def onRead (run : PruneRun Path) (minSeq : UInt64) (source copy position : Nat)
    (buf : Bytes) : IoAnswer → PruneRun Path
  | .interrupted => run
  | .failed => run.fail .io
  | .done count =>
      let chunk := readChunk ((run.files.content source).drop position)
        (recordLen - buf.length) count
      if chunk = [] then
        if buf = [] then
          run.goto .syncTemp
        else
          run.fail .unexpectedEof
      else if (buf ++ chunk).length < recordLen then
        run.goto (.read source copy (position + chunk.length) (buf ++ chunk))
      else if bufferSeq (buf ++ chunk) ≥ minSeq then
        run.goto (.write source copy (position + chunk.length) (buf ++ chunk))
      else
        run.goto (.read source copy (position + chunk.length) [])

/-- One call of `write_all`; a write of no bytes is its `WriteZero` error. -/
def onWrite (run : PruneRun Path) (source copy position : Nat) (pending : Bytes) :
    IoAnswer → PruneRun Path
  | .interrupted => run
  | .failed => run.fail .io
  | .done count =>
      if pending.take count = [] then
        run.fail .io
      else
        let written := { run with
          files := run.files.append copy (pending.take count) }
        if pending.drop count = [] then
          written.goto (.read source copy position [])
        else
          written.goto (.write source copy position (pending.drop count))

/-- A call other than a read or a write that has succeeded. -/
def onDone [DecidableEq Path] (run : PruneRun Path) (logPath tempPath : Path) :
    Option (PruneRun Path) :=
  match run.phase with
  | .syncLog => some (run.goto .openLog)
  | .openLog =>
      match run.files.fileAt logPath with
      | none => some (run.fail .io)
      | some source => some (run.goto (.openTemp source))
  | .openTemp source =>
      some
        { run with
          files := (run.files.openTruncate tempPath).1
          phase := .read source (run.files.openTruncate tempPath).2 0 [] }
  | .syncTemp => some (run.goto .rename)
  | .rename =>
      match run.files.rename tempPath logPath with
      | none => some (run.fail .io)
      | some renamed => some { run with files := renamed, phase := .reopen }
  | .reopen =>
      some
        { files := (run.files.openCreate logPath).1
          handle := (run.files.openCreate logPath).2
          phase := .openParent }
  | .openParent => some (run.goto .syncParent)
  | .syncParent => some (run.goto (.returned (.ok ())))
  | .read .. | .write .. | .returned _ => none

/-- `prune_before`, one call at a time. -/
def step [DecidableEq Path] (logPath tempPath : Path) (minSeq : UInt64)
    (run : PruneRun Path) (answer : IoAnswer) : Option (PruneRun Path) :=
  match run.phase with
  | .returned _ => none
  | .read source copy position buf =>
      some (run.onRead minSeq source copy position buf answer)
  | .write source copy position pending =>
      some (run.onWrite source copy position pending answer)
  | _ =>
      match answer with
      | .done _ => run.onDone logPath tempPath
      | .interrupted | .failed => some (run.fail .io)

end PruneRun

/-! ## What holds at every call -/

section Invariant

variable (logPath tempPath : Path) (minSeq : UInt64) (old : Bytes)

/-- The compacted content has its name and, from `openParent` on, its handle. -/
structure Replaced (files : FileSystem Path UInt8) (image : Bytes) : Prop where
  pruned : pruneBytes minSeq old = .ok image
  named : files.contentAt logPath = some image

/-- The copying loop reads the old content and writes another file. -/
structure Copies (files : FileSystem Path UInt8) (source copy : Nat) : Prop where
  log : files.fileAt logPath = some source
  temp : files.fileAt tempPath = some copy
  content : files.content source = old

/-- What the files hold before the next call. -/
def PruneRun.Sound (run : PruneRun Path) : Prop :=
  match run.phase with
  | .syncLog | .openLog => run.files.contentAt logPath = some old
  | .openTemp source =>
      run.files.fileAt logPath = some source ∧ run.files.content source = old
  | .read source copy position buf =>
      Copies logPath tempPath old run.files source copy ∧
        buf.length < recordLen ∧
        ∃ consumed rest, old = consumed ++ (buf ++ rest) ∧
          position = consumed.length + buf.length ∧
          pruneBytes minSeq consumed = .ok (run.files.content copy)
  | .write source copy position pending =>
      Copies logPath tempPath old run.files source copy ∧ pending ≠ [] ∧
        ∃ consumed rest, old = consumed ++ rest ∧ position = consumed.length ∧
          pruneBytes minSeq consumed = .ok (run.files.content copy ++ pending)
  | .syncTemp | .rename =>
      run.files.contentAt logPath = some old ∧
        ∃ image, pruneBytes minSeq old = .ok image ∧
          run.files.contentAt tempPath = some image
  | .reopen => ∃ image, Replaced logPath minSeq old run.files image
  | .openParent | .syncParent | .returned (.ok ()) =>
      ∃ image, Replaced logPath minSeq old run.files image ∧
        run.files.fileAt logPath = some run.handle
  | .returned (.error _) =>
      run.files.contentAt logPath = some old ∨
        ∃ image, Replaced logPath minSeq old run.files image

end Invariant

section Steps

variable {logPath tempPath : Path} {minSeq : UInt64} {old : Bytes}
variable {files : FileSystem Path UInt8} {handle : Nat}

namespace PruneRun

omit [Curve] in
/-- At every call the log path names the old content or the compacted one. -/
theorem Sound.named {run : PruneRun Path}
    (sound : run.Sound logPath tempPath minSeq old) :
    run.files.contentAt logPath = some old ∨
      ∃ image, Replaced logPath minSeq old run.files image := by
  obtain ⟨files, handle, phase⟩ := run
  cases phase with
  | syncLog => exact Or.inl sound
  | openLog => exact Or.inl sound
  | openTemp source =>
      exact Or.inl (FileSystem.contentAt_eq_some.mpr ⟨source, sound⟩)
  | read source copy position buf =>
      exact Or.inl (FileSystem.contentAt_eq_some.mpr
        ⟨source, sound.1.log, sound.1.content⟩)
  | write source copy position pending =>
      exact Or.inl (FileSystem.contentAt_eq_some.mpr
        ⟨source, sound.1.log, sound.1.content⟩)
  | syncTemp => exact Or.inl sound.1
  | rename => exact Or.inl sound.1
  | reopen => exact Or.inr sound
  | openParent =>
      rcases sound with ⟨image, replaced, _⟩
      exact Or.inr ⟨image, replaced⟩
  | syncParent =>
      rcases sound with ⟨image, replaced, _⟩
      exact Or.inr ⟨image, replaced⟩
  | returned result =>
      cases result with
      | ok =>
          rcases sound with ⟨image, replaced, _⟩
          exact Or.inr ⟨image, replaced⟩
      | error failure => exact sound

omit [Curve] in
theorem Sound.fail {run : PruneRun Path}
    (sound : run.Sound logPath tempPath minSeq old) (error : WalError) :
    (run.fail error).Sound logPath tempPath minSeq old :=
  sound.named

omit [Curve] in
theorem Sound.onRead {source copy position : Nat} {buf : Bytes}
    (sound : Sound logPath tempPath minSeq old
      ⟨files, handle, .read source copy position buf⟩) (answer : IoAnswer) :
    (onRead ⟨files, handle, .read source copy position buf⟩ minSeq source copy
      position buf answer).Sound logPath tempPath minSeq old := by
  cases answer with
  | interrupted => exact sound
  | failed => exact sound.fail .io
  | done count =>
      have failure := sound.fail .unexpectedEof
      obtain ⟨copies, room, consumed, rest, split, here, pruned⟩ := sound
      have remaining : (files.content source).drop position = rest := by
        rw [copies.content, split, here, ← List.append_assoc,
          ← List.length_append, List.drop_left]
      rw [PruneRun.onRead]
      dsimp only
      rw [remaining]
      have whole := readChunk_append_drop rest (recordLen - buf.length) count
      have fits := length_readChunk_le rest (recordLen - buf.length) count
      have ends := @readChunk_eq_nil_iff rest (recordLen - buf.length) count
        (Nat.sub_pos_of_lt room)
      generalize readChunk rest (recordLen - buf.length) count = chunk
        at whole fits ends ⊢
      have resplit : old = consumed ++ (buf ++ chunk ++ rest.drop chunk.length) := by
        rw [List.append_assoc, whole]
        exact split
      have moved : position + chunk.length =
          consumed.length + (buf ++ chunk).length := by
        rw [here, List.length_append]
        omega
      have appended : old = consumed ++ (buf ++ chunk) ++ rest.drop chunk.length := by
        rw [resplit, List.append_assoc consumed]
      have wholeRecord (more : ¬ (buf ++ chunk).length < recordLen) :
          (buf ++ chunk).length = recordLen := by
        rw [List.length_append] at more ⊢
        omega
      split_ifs with done empty more kept
      · -- the end of the file, between two records
        rw [empty, ends.mp done, List.append_nil, List.append_nil] at split
        rw [← split] at pruned
        exact ⟨FileSystem.contentAt_eq_some.mpr
          ⟨source, copies.log, copies.content⟩, files.content copy, pruned,
          FileSystem.contentAt_of_fileAt copies.temp⟩
      · exact failure
      · exact ⟨copies, more, consumed, rest.drop chunk.length, resplit, moved, pruned⟩
      · have length := wholeRecord more
        have concat := pruneBytes_concat pruned length
        rw [if_pos kept] at concat
        refine ⟨copies, ?_, consumed ++ (buf ++ chunk), rest.drop chunk.length,
          appended, ?_, concat⟩
        · intro nothing
          rw [nothing] at length
          exact absurd length (by decide)
        · exact moved.trans List.length_append.symm
      · have concat := pruneBytes_concat pruned (wholeRecord more)
        rw [if_neg kept] at concat
        refine ⟨copies, by decide, consumed ++ (buf ++ chunk),
          rest.drop chunk.length, ?_, ?_, concat⟩
        · rw [List.nil_append]
          exact appended
        · rw [List.length_nil, Nat.add_zero]
          exact moved.trans List.length_append.symm

omit [Curve] in
theorem Sound.onWrite (different : tempPath ≠ logPath)
    {source copy position : Nat} {pending : Bytes}
    (sound : Sound logPath tempPath minSeq old
      ⟨files, handle, .write source copy position pending⟩) (answer : IoAnswer) :
    (onWrite ⟨files, handle, .write source copy position pending⟩ source copy
      position pending answer).Sound logPath tempPath minSeq old := by
  cases answer with
  | interrupted => exact sound
  | failed => exact sound.fail .io
  | done count =>
      have failure := sound.fail .io
      obtain ⟨copies, _, consumed, rest, split, here, pruned⟩ := sound
      have apart : source ≠ copy :=
        FileSystem.ne_of_fileAt copies.temp copies.log different.symm
      have stillCopies : Copies logPath tempPath old
          (files.append copy (pending.take count)) source copy :=
        { log := copies.log
          temp := copies.temp
          content :=
            (FileSystem.content_append_of_ne apart).trans copies.content }
      have added : (files.append copy (pending.take count)).content copy ++
          pending.drop count = files.content copy ++ pending := by
        rw [FileSystem.content_append, List.append_assoc, List.take_append_drop]
      rw [← added] at pruned
      rw [PruneRun.onWrite]
      split_ifs with nothing finished
      · exact failure
      · rw [finished, List.append_nil] at pruned
        exact ⟨stillCopies, by decide, consumed, rest, split, here, pruned⟩
      · exact ⟨stillCopies, finished, consumed, rest, split, here, pruned⟩

omit [Curve] in
theorem Sound.onDone [DecidableEq Path] (different : tempPath ≠ logPath)
    {run next : PruneRun Path} (sound : run.Sound logPath tempPath minSeq old)
    (done : run.onDone logPath tempPath = some next) :
    next.Sound logPath tempPath minSeq old := by
  obtain ⟨files, handle, phase⟩ := run
  cases phase with
  | syncLog =>
      cases done
      exact sound
  | openLog =>
      rcases FileSystem.contentAt_eq_some.mp sound with
        ⟨source, (found : files.fileAt logPath = some source), content⟩
      simp only [PruneRun.onDone, found, Option.some.injEq] at done
      subst done
      exact ⟨found, content⟩
  | openTemp source =>
      cases done
      rcases sound with ⟨found, content⟩
      rcases FileSystem.openTruncate_of_ne found different.symm with
        ⟨stays, same⟩
      have copies : Copies logPath tempPath old (files.openTruncate tempPath).1
          source (files.openTruncate tempPath).2 :=
        { log := stays
          temp := FileSystem.fileAt_openTruncate
          content := same.trans content }
      have nothing : pruneBytes minSeq [] =
          .ok ((files.openTruncate tempPath).1.content
            (files.openTruncate tempPath).2) := by
        rw [FileSystem.content_openTruncate]
        simp [pruneBytes]
      exact ⟨copies, by decide, [], old, rfl, rfl, nothing⟩
  | syncTemp =>
      cases done
      exact sound
  | rename =>
      rcases sound with ⟨_, image, pruned, copied⟩
      rcases FileSystem.contentAt_eq_some.mp copied with ⟨copy, found, content⟩
      rcases FileSystem.rename_eq_some logPath found with
        ⟨renamed, (moved : files.rename tempPath logPath = some renamed), named,
          same⟩
      simp only [PruneRun.onDone, moved, Option.some.injEq] at done
      subst done
      refine ⟨image, pruned, ?_⟩
      rw [FileSystem.contentAt_of_fileAt named, same, content]
  | reopen =>
      rcases sound with ⟨image, pruned, named⟩
      rcases FileSystem.contentAt_eq_some.mp named with
        ⟨file, (found : files.fileAt logPath = some file), content⟩
      simp only [PruneRun.onDone, FileSystem.openCreate_of_found found,
        Option.some.injEq] at done
      subst done
      exact ⟨image, ⟨pruned, named⟩, found⟩
  | openParent =>
      cases done
      exact sound
  | syncParent =>
      cases done
      exact sound
  | read => cases done
  | write => cases done
  | returned => cases done

omit [Curve] in
theorem step_cases [DecidableEq Path] {run next : PruneRun Path} {answer : IoAnswer}
    (stepped : run.step logPath tempPath minSeq answer = some next) :
    (∃ source copy position buf, run.phase = .read source copy position buf ∧
        next = run.onRead minSeq source copy position buf answer) ∨
      (∃ source copy position pending,
        run.phase = .write source copy position pending ∧
          next = run.onWrite source copy position pending answer) ∨
      run.onDone logPath tempPath = some next ∨ next = run.fail .io := by
  unfold PruneRun.step at stepped
  split at stepped
  · cases stepped
  · rename_i source copy position buf phase
    exact Or.inl ⟨source, copy, position, buf, phase, (Option.some.inj stepped).symm⟩
  · rename_i source copy position pending phase
    exact Or.inr (Or.inl
      ⟨source, copy, position, pending, phase, (Option.some.inj stepped).symm⟩)
  · cases answer with
    | done count => exact Or.inr (Or.inr (Or.inl stepped))
    | interrupted => exact Or.inr (Or.inr (Or.inr (Option.some.inj stepped).symm))
    | failed => exact Or.inr (Or.inr (Or.inr (Option.some.inj stepped).symm))

omit [Curve] in
/-- Every call keeps the log path in one of its two contents. -/
theorem Sound.step [DecidableEq Path] (different : tempPath ≠ logPath)
    {run next : PruneRun Path} {answer : IoAnswer}
    (sound : run.Sound logPath tempPath minSeq old)
    (stepped : run.step logPath tempPath minSeq answer = some next) :
    next.Sound logPath tempPath minSeq old := by
  rcases step_cases stepped with ⟨source, copy, position, buf, phase, rfl⟩ |
    ⟨source, copy, position, pending, phase, rfl⟩ | done | rfl
  · obtain ⟨files, handle, _⟩ := run
    obtain rfl : _ = PrunePhase.read source copy position buf := phase
    exact sound.onRead answer
  · obtain ⟨files, handle, _⟩ := run
    obtain rfl : _ = PrunePhase.write source copy position pending := phase
    exact sound.onWrite different answer
  · exact sound.onDone different done
  · exact sound.fail .io

/-! ## The calls come to an end -/

/-- A bound on the calls that are still to be answered, other than by an
interruption. -/
def work (size : Nat) (run : PruneRun Path) : Nat :=
  match run.phase with
  | .syncLog => 9 + 2 * size
  | .openLog => 8 + 2 * size
  | .openTemp _ => 7 + 2 * size
  | .read _ _ position buf => 6 + 2 * (size - position) + buf.length
  | .write _ _ position pending => 6 + 2 * (size - position) + pending.length
  | .syncTemp => 5
  | .rename => 4
  | .reopen => 3
  | .openParent => 2
  | .syncParent => 1
  | .returned _ => 0

omit [Curve] in
theorem work_onRead {source copy position count : Nat} {buf : Bytes}
    (content : files.content source = old) :
    (onRead ⟨files, handle, .read source copy position buf⟩ minSeq source copy
        position buf (.done count)).work old.length <
      6 + 2 * (old.length - position) + buf.length := by
  rw [PruneRun.onRead]
  dsimp only
  rw [content]
  have within : (readChunk (old.drop position) (recordLen - buf.length)
      count).length ≤ old.length - position := by
    rw [readChunk, List.length_take, List.length_drop]
    exact Nat.min_le_right _ _
  generalize readChunk (old.drop position) (recordLen - buf.length) count = chunk
    at within ⊢
  have some : chunk ≠ [] → 0 < chunk.length := List.length_pos_iff.mpr
  split_ifs with done empty more kept
  · simp only [PruneRun.goto, work]
    omega
  · simp only [PruneRun.fail, PruneRun.goto, work]
    omega
  · have positive := some done
    simp only [PruneRun.goto, work, List.length_append]
    omega
  · have positive := some done
    simp only [PruneRun.goto, work, List.length_append]
    omega
  · have positive := some done
    simp only [PruneRun.goto, work, List.length_nil]
    omega

omit [Curve] in
theorem work_onWrite {source copy position count : Nat} {pending : Bytes} :
    (onWrite ⟨files, handle, .write source copy position pending⟩ source copy
        position pending (.done count)).work old.length <
      6 + 2 * (old.length - position) + pending.length := by
  rw [PruneRun.onWrite]
  have some : pending.take count ≠ [] → 0 < min count pending.length := by
    intro nonempty
    have positive := List.length_pos_iff.mpr nonempty
    rwa [List.length_take] at positive
  split_ifs with nothing finished
  · simp only [PruneRun.fail, PruneRun.goto, work]
    omega
  · have positive := some nothing
    simp only [PruneRun.goto, work, List.length_nil]
    omega
  · have positive := some nothing
    simp only [PruneRun.goto, work, List.length_drop]
    omega

omit [Curve] in
theorem work_onDone [DecidableEq Path] {run next : PruneRun Path} (size : Nat)
    (done : run.onDone logPath tempPath = some next) :
    next.work size < run.work size := by
  obtain ⟨files, handle, phase⟩ := run
  cases phase with
  | openLog =>
      simp only [PruneRun.onDone] at done
      split at done
      · cases done
        simp only [PruneRun.fail, PruneRun.goto, work]
        omega
      · cases done
        simp only [PruneRun.goto, work]
        omega
  | rename =>
      simp only [PruneRun.onDone] at done
      split at done
      · cases done
        simp only [PruneRun.fail, PruneRun.goto, work]
        omega
      · cases done
        simp only [work]
        omega
  | read => cases done
  | write => cases done
  | returned => cases done
  | _ =>
      cases done
      simp [PruneRun.goto, work]

omit [Curve] in
/-- Every answer but an interruption brings the end closer. -/
theorem Sound.work_step [DecidableEq Path] {run next : PruneRun Path}
    {answer : IoAnswer} (sound : run.Sound logPath tempPath minSeq old)
    (stepped : run.step logPath tempPath minSeq answer = some next) :
    next.work old.length ≤ run.work old.length ∧
      (answer ≠ .interrupted → next.work old.length < run.work old.length) := by
  have strictly : next.work old.length < run.work old.length →
      next.work old.length ≤ run.work old.length ∧
        (answer ≠ .interrupted → next.work old.length < run.work old.length) :=
    fun less => ⟨less.le, fun _ => less⟩
  have unfinished : 0 < run.work old.length := by
    obtain ⟨files, handle, phase⟩ := run
    cases phase with
    | returned => cases stepped
    | _ => simp [work]
  rcases step_cases stepped with ⟨source, copy, position, buf, phase, rfl⟩ |
    ⟨source, copy, position, pending, phase, rfl⟩ | done | rfl
  · obtain ⟨files, handle, _⟩ := run
    obtain rfl : _ = PrunePhase.read source copy position buf := phase
    cases answer with
    | interrupted => exact ⟨Nat.le_refl _, fun same => absurd rfl same⟩
    | failed => exact strictly unfinished
    | done count => exact strictly (work_onRead sound.1.content)
  · obtain ⟨files, handle, _⟩ := run
    obtain rfl : _ = PrunePhase.write source copy position pending := phase
    cases answer with
    | interrupted => exact ⟨Nat.le_refl _, fun same => absurd rfl same⟩
    | failed => exact strictly unfinished
    | done count => exact strictly work_onWrite
  · exact strictly (work_onDone old.length done)
  · exact strictly unfinished

omit [Curve] in
theorem step_eq_none [DecidableEq Path] {run : PruneRun Path} {answer : IoAnswer}
    (stopped : run.step logPath tempPath minSeq answer = none) :
    ∃ result, run.phase = .returned result := by
  obtain ⟨files, handle, phase⟩ := run
  cases phase with
  | returned result => exact ⟨result, rfl⟩
  | openLog =>
      cases answer with
      | done count =>
          simp only [PruneRun.step, PruneRun.onDone] at stopped
          split at stopped <;> cases stopped
      | interrupted => cases stopped
      | failed => cases stopped
  | rename =>
      cases answer with
      | done count =>
          simp only [PruneRun.step, PruneRun.onDone] at stopped
          split at stopped <;> cases stopped
      | interrupted => cases stopped
      | failed => cases stopped
  | read => cases stopped
  | write => cases stopped
  | _ => cases answer <;> cases stopped

omit [Curve] in
/-- Enough answers that are no interruptions make the call return. -/
theorem Sound.returns [DecidableEq Path] (different : tempPath ≠ logPath)
    {run : PruneRun Path} (sound : run.Sound logPath tempPath minSeq old)
    {answers : List IoAnswer}
    (enough : run.work old.length ≤
      answers.countP fun answer => answer ≠ .interrupted) :
    ∃ earlier final result, earlier <+: answers ∧
      SovereignLattice.run (PruneRun.step logPath tempPath minSeq) run earlier =
        some final ∧
      final.phase = .returned result := by
  induction answers generalizing run with
  | nil =>
      have none : run.work old.length = 0 := Nat.le_zero.mp enough
      obtain ⟨files, handle, phase⟩ := run
      cases phase with
      | returned result => exact ⟨[], _, result, List.nil_prefix, rfl, rfl⟩
      | _ => simp [work] at none
  | cons answer rest inductionHypothesis =>
      cases stepped : run.step logPath tempPath minSeq answer with
      | none =>
          rcases step_eq_none stepped with ⟨result, returned⟩
          exact ⟨[], run, result, List.nil_prefix, rfl, returned⟩
      | some next =>
          rcases sound.work_step stepped with ⟨notMore, less⟩
          have stillEnough : next.work old.length ≤
              rest.countP fun answer => answer ≠ .interrupted := by
            by_cases interrupted : answer = .interrupted
            · rw [List.countP_cons_of_neg (by simp [interrupted])] at enough
              exact notMore.trans enough
            · rw [List.countP_cons_of_pos (by simp [interrupted])] at enough
              exact Nat.le_of_lt_succ ((less interrupted).trans_le enough)
          rcases inductionHypothesis (sound.step different stepped) stillEnough with
            ⟨earlier, final, result, isPrefix, reached, returned⟩
          refine ⟨answer :: earlier, final, result, ?_, ?_, returned⟩
          · exact (List.prefix_cons_inj answer).mpr isPrefix
          · exact run_cons_eq_some.mpr ⟨next, stepped, reached⟩

end PruneRun

end Steps

/-! ## Whole calls -/

namespace PruneRun

def start (files : FileSystem Path UInt8) (handle : Nat) : PruneRun Path where
  files := files
  handle := handle
  phase := .syncLog

/-- The files after an `append_entry` that writes its whole record. -/
def appendEntry (run : PruneRun Path) (record : Record) : FileSystem Path UInt8 :=
  run.files.append run.handle record.encode

variable {logPath tempPath : Path} {minSeq : UInt64} {old : Bytes}

omit [Curve] in
theorem sound_of_run [DecidableEq Path] (different : tempPath ≠ logPath)
    {files : FileSystem Path UInt8} {handle : Nat} {answers : List IoAnswer}
    {final : PruneRun Path} (held : files.contentAt logPath = some old)
    (reached : run (step logPath tempPath minSeq) (start files handle) answers =
      some final) : final.Sound logPath tempPath minSeq old := by
  have initially : (start files handle).Sound logPath tempPath minSeq old := held
  exact invariant_of_run (fun _ _ _ sound stepped => sound.step different stepped)
    initially reached

omit [Curve] in
/-- A call that has returned did to the log what `pruneBefore` does, for one of the
outcomes of its file operations. -/
theorem Sound.refines_pruneBefore {final : PruneRun Path}
    {result : Except WalError Unit}
    (sound : final.Sound logPath tempPath minSeq old)
    (returned : final.phase = .returned result) :
    ∃ io, final.files.contentAt logPath =
        some (WriteAheadLog.pruneBefore ⟨old⟩ minSeq io).2.file ∧
      ((WriteAheadLog.pruneBefore ⟨old⟩ minSeq io).1 = .ok () ↔
        result = .ok ()) := by
  obtain ⟨files, handle, _⟩ := final
  obtain rfl : _ = PrunePhase.returned result := returned
  cases result with
  | ok =>
      rcases sound with ⟨image, replaced, _⟩
      refine ⟨.synced, ?_⟩
      simp only [WriteAheadLog.pruneBefore, replaced.pruned]
      exact ⟨replaced.named, trivial⟩
  | error failure =>
      rcases sound with unchanged | ⟨image, replaced⟩
      · refine ⟨.failed false, ?_⟩
        cases pruned : pruneBytes minSeq old with
        | error failed =>
            simp only [WriteAheadLog.pruneBefore, pruned]
            exact ⟨unchanged, by simp⟩
        | ok image =>
            simp only [WriteAheadLog.pruneBefore, pruned]
            exact ⟨unchanged, by simp⟩
      · refine ⟨.failed true, ?_⟩
        simp only [WriteAheadLog.pruneBefore, replaced.pruned]
        exact ⟨replaced.named, by simp⟩

/-- After a call that has returned without an error, the log path names the file of
the handle, and a replay sees what is appended through it. -/
theorem Sound.appended {final : PruneRun Path}
    (sound : final.Sound logPath tempPath minSeq old)
    (returned : final.phase = .returned (.ok ())) :
    ∃ image, pruneBytes minSeq old = .ok image ∧
      final.files.fileAt logPath = some final.handle ∧
        ∀ record, (final.appendEntry record).contentAt logPath =
          some (image ++ record.encode) := by
  obtain ⟨files, handle, _⟩ := final
  obtain rfl : _ = PrunePhase.returned (.ok ()) := returned
  rcases sound with ⟨image, ⟨pruned, named⟩, found⟩
  have content : files.content handle = image := by
    rw [FileSystem.contentAt_of_fileAt found] at named
    exact Option.some.inj named
  refine ⟨image, pruned, found, ?_⟩
  intro record
  rw [← content]
  exact FileSystem.contentAt_append found

end PruneRun

/-- Compaction is atomic.  After any answers to its calls, the last of which may have
been the last before a crash, the log path names the old records or those of them from
the sequence on; a content that ends in a partial record stays, and the call never
returns without an error then; after a call without an error, appended records follow
the kept ones in the next replay.  And the call returns, unless it is interrupted for
ever. -/
theorem pruneBefore_atomic {Path : Type} [DecidableEq Path] {logPath tempPath : Path}
    (different : tempPath ≠ logPath) {files : FileSystem Path UInt8} {old : Bytes}
    (held : files.contentAt logPath = some old) (handle : Nat) (minSeq : UInt64) :
    (∀ answers final, run (PruneRun.step logPath tempPath minSeq)
        (PruneRun.start files handle) answers = some final →
      (∀ buffers : List Bytes, (∀ buf ∈ buffers, buf.length = recordLen) →
        old = buffers.flatten →
          final.files.contentAt logPath = some old ∨
            final.files.contentAt logPath =
              some (buffers.filter fun buf => minSeq ≤ bufferSeq buf).flatten) ∧
      (old.length % recordLen ≠ 0 →
        final.files.contentAt logPath = some old ∧
          final.phase ≠ .returned (.ok ())) ∧
      (final.phase = .returned (.ok ()) →
        final.files.fileAt logPath = some final.handle ∧
          ∀ records, old = encodeLog records → ∀ record, ∃ file,
            (final.appendEntry record).contentAt logPath = some file ∧
              ∀ (State : Type) (handler : State → Record → State) (state : State),
                WriteAheadLog.replayLog ⟨file⟩ handler state =
                  (.ok (), ((records.filter fun kept => minSeq ≤ kept.seq) ++
                    [record]).foldl handler state))) ∧
    (∀ answers : List IoAnswer,
      9 + 2 * old.length ≤ answers.countP (fun answer => answer ≠ .interrupted) →
        ∃ earlier final result, earlier <+: answers ∧
          run (PruneRun.step logPath tempPath minSeq)
            (PruneRun.start files handle) earlier = some final ∧
          final.phase = .returned result) := by
  constructor
  · intro answers final reached
    have sound := PruneRun.sound_of_run different held reached
    refine ⟨?_, ?_, ?_⟩
    · intro buffers whole split
      rcases sound.named with unchanged | ⟨image, pruned, named⟩
      · exact Or.inl unchanged
      · rw [split, pruneBytes_flatten minSeq whole, Except.ok.injEq] at pruned
        rw [pruned]
        exact Or.inr named
    · intro torn
      have never : ∀ image, pruneBytes minSeq old ≠ .ok image :=
        fun image pruned => torn (length_of_pruneBytes pruned)
      constructor
      · rcases sound.named with unchanged | ⟨image, pruned, _⟩
        · exact unchanged
        · exact absurd pruned (never image)
      · intro returned
        rcases sound.appended returned with ⟨image, pruned, _⟩
        exact never image pruned
    · intro returned
      rcases sound.appended returned with ⟨image, pruned, found, appended⟩
      refine ⟨found, ?_⟩
      rintro records rfl record
      rw [pruneBytes_encodeLog, Except.ok.injEq] at pruned
      have seen := appended record
      rw [← pruned, ← encodeLog_singleton, ← encodeLog_append] at seen
      exact ⟨_, seen, fun State handler state =>
        replayBytes_encodeLog handler _ state⟩
  · intro answers enough
    have initially : (PruneRun.start files handle).Sound logPath tempPath minSeq
        old := held
    exact initially.returns different enough

end Compaction

section SmallRun

attribute [local instance] smallCurve

def logOnly (records : List Record) : FileSystem String UInt8 where
  fileAt path := if path = "log" then some 0 else none
  content _ := encodeLog records
  unused := 1
  fileAt_lt path file found := by
    split at found
    · cases found
      exact Nat.zero_lt_one
    · cases found
  unshared path other file found otherFound := by
    split at found
    · split at otherFound
      · rename_i here otherHere
        rw [here, otherHere]
      · cases otherFound
    · cases found

/-- Answers for three records, of which the first is dropped: two short reads, an
interruption, and a write in two parts. -/
def smallAnswers : List IoAnswer :=
  [.done 0, .done 0, .done 0, .interrupted, .done 40, .done 61, .done 101, .done 50,
    .interrupted, .done 51, .done 101, .done 101, .done 0, .done 0, .done 0, .done 0,
    .done 0, .done 0]

theorem pruneBefore_atomic_thenAppend :
    ∃ final file,
      run (PruneRun.step "log" "log.prune_tmp" 2)
          (PruneRun.start (logOnly [recordAt 1, recordAt 2, recordAt 3]) 0)
          smallAnswers = some final ∧
        final.phase = .returned (.ok ()) ∧
        (final.appendEntry (recordAt 9)).contentAt "log" = some file ∧
        WriteAheadLog.replayLog ⟨file⟩ (fun seqs record => seqs ++ [record.seq]) [] =
          (.ok (), ([2, 3, 9] : List UInt64)) := by
  have computed :
      (run (PruneRun.step "log" "log.prune_tmp" 2)
        (PruneRun.start (logOnly [recordAt 1, recordAt 2, recordAt 3]) 0)
        smallAnswers).any (fun final =>
          match final.phase with
          | .returned (.ok _) => true
          | _ => false) = true := by
    decide +kernel
  rcases (Option.any_eq_true _ _).mp computed with ⟨final, reached, checked⟩
  have returned : final.phase = .returned (.ok ()) := by
    split at checked
    · rename_i phase
      exact phase
    · cases checked
  have atomic := pruneBefore_atomic (by decide : "log.prune_tmp" ≠ "log")
    (rfl : (logOnly [recordAt 1, recordAt 2, recordAt 3]).contentAt "log" =
      some (encodeLog [recordAt 1, recordAt 2, recordAt 3])) 0 2
  rcases ((atomic.1 smallAnswers final reached).2.2 returned).2 _ rfl
    (recordAt 9) with ⟨file, appended, replayed⟩
  refine ⟨final, file, reached, returned, appended, ?_⟩
  rw [replayed]
  decide

end SmallRun

end SovereignLattice
