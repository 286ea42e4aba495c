import SovereignLattice.Crypto.SmallCurve
import SovereignLattice.Wal.WriteAheadLog

/-!
# The reading loops of the log

`replay_log` and `prune_before` fill a buffer of one record with calls of `read`,
each of which may be interrupted or return fewer bytes than it was asked for.  The
answers of the operating system are an argument here, one for each call; calls
beyond the list read as much as there is room for.  Whatever the answers are, as
long as no read fails, the loops compute what `replayBytes` and `pruneBytes` compute
from the content of the file.
-/

namespace SovereignLattice

section ReadingLoops

variable [Curve]

/-- The answer to one call of `read`.  A count is cut to the room in the buffer and
to what is left of the file, and at least one byte is read where there is one. -/
inductive ReadAnswer where
  | interrupted
  | failed
  | bytes (count : Nat)
  deriving DecidableEq

def NoFailure (answers : List ReadAnswer) : Prop :=
  ∀ answer ∈ answers, answer ≠ .failed

/-- How the loop `while read < buf.len()` ends. -/
inductive Fill where
  | full (buf : Bytes)
  | endOfFile
  | truncated
  | failed
  deriving DecidableEq

/-- The bytes that one call of `read` hands out. -/
def readChunk (rest : Bytes) (room count : Nat) : Bytes :=
  rest.take (min room (max 1 count))

omit [Curve] in
theorem readChunk_eq_nil_iff {rest : Bytes} {room count : Nat}
    (positive : 0 < room) : readChunk rest room count = [] ↔ rest = [] := by
  have some : min room (max 1 count) ≠ 0 := by omega
  rw [readChunk, List.take_eq_nil_iff, or_iff_right some]

omit [Curve] in
theorem readChunk_append_drop (rest : Bytes) (room count : Nat) :
    readChunk rest room count ++ rest.drop (readChunk rest room count).length =
      rest := by
  have width : (readChunk rest room count).length =
      min (min room (max 1 count)) rest.length :=
    List.length_take
  have same : rest.take (readChunk rest room count).length =
      readChunk rest room count := by
    rw [width, ← List.take_take, List.take_length]
    rfl
  calc
    readChunk rest room count ++ rest.drop (readChunk rest room count).length =
        rest.take (readChunk rest room count).length ++
          rest.drop (readChunk rest room count).length := by rw [same]
    _ = rest := List.take_append_drop _ _

omit [Curve] in
theorem length_readChunk_le (rest : Bytes) (room count : Nat) :
    (readChunk rest room count).length ≤ room := by
  rw [readChunk, List.length_take]
  omega

/-- The loop that fills the buffer, with the answers and the part of the file that
it leaves. -/
def fillBuffer (answers : List ReadAnswer) (buf rest : Bytes) :
    Fill × List ReadAnswer × Bytes :=
  if _room : buf.length < recordLen then
    match _answer : answers.headD (.bytes recordLen) with
    | .interrupted => fillBuffer answers.tail buf rest
    | .failed => (.failed, answers.tail, rest)
    | .bytes count =>
        let chunk := readChunk rest (recordLen - buf.length) count
        if _done : chunk = [] then
          (if buf = [] then .endOfFile else .truncated, answers.tail, rest)
        else
          fillBuffer answers.tail (buf ++ chunk) (rest.drop chunk.length)
  else
    (.full buf, answers, rest)
termination_by answers.length + rest.length
decreasing_by
  · cases answers with
    | nil => cases _answer
    | cons first later =>
        rw [List.tail_cons, List.length_cons]
        omega
  · have some : 0 < (readChunk rest (recordLen - buf.length) count).length :=
      List.length_pos_iff.mpr _done
    have within : (readChunk rest (recordLen - buf.length) count).length ≤
        rest.length := by
      rw [readChunk, List.length_take]
      omega
    rw [List.length_drop, List.length_tail]
    omega

omit [Curve] in
/-- Filling the buffer takes the next record's bytes off the file, in however many
calls, or finds the file at its end. -/
theorem fillBuffer_eq {answers : List ReadAnswer} {buf rest : Bytes}
    (noFailure : NoFailure answers) (fits : buf.length ≤ recordLen) :
    ∃ later, NoFailure later ∧
      fillBuffer answers buf rest =
        if recordLen ≤ (buf ++ rest).length then
          (.full ((buf ++ rest).take recordLen), later,
            (buf ++ rest).drop recordLen)
        else
          (if buf ++ rest = [] then .endOfFile else .truncated, later, []) := by
  have laterFine : NoFailure answers.tail :=
    fun answer member => noFailure answer (List.mem_of_mem_tail member)
  fun_induction fillBuffer answers buf rest with
  | case1 answers buf rest room answer inductionHypothesis =>
      exact inductionHypothesis laterFine fits
        fun other member => laterFine other (List.mem_of_mem_tail member)
  | case2 answers buf rest room answer =>
      cases answers with
      | nil => cases answer
      | cons first later =>
          rw [List.headD_cons] at answer
          exact absurd answer (noFailure first List.mem_cons_self)
  | case3 answers buf rest room count answer chunk done =>
      have empty : rest = [] :=
        (readChunk_eq_nil_iff (Nat.sub_pos_of_lt room)).mp done
      subst empty
      refine ⟨answers.tail, laterFine, ?_⟩
      rw [List.append_nil, if_neg (Nat.not_le.mpr room)]
  | case4 answers buf rest room count answer chunk more inductionHypothesis =>
      have taken : chunk ++ rest.drop chunk.length = rest :=
        readChunk_append_drop rest (recordLen - buf.length) count
      have stillFits : (buf ++ chunk).length ≤ recordLen := by
        have bound : chunk.length ≤ recordLen - buf.length :=
          length_readChunk_le rest (recordLen - buf.length) count
        rw [List.length_append]
        omega
      have next := inductionHypothesis laterFine stillFits
        fun other member => laterFine other (List.mem_of_mem_tail member)
      rwa [List.append_assoc, taken] at next
  | case5 answers buf rest room =>
      have whole : buf.length = recordLen := by omega
      refine ⟨answers, noFailure, ?_⟩
      rw [if_pos (by rw [List.length_append]; omega), List.take_left' whole,
        List.drop_left' whole]

omit [Curve] in
theorem fillBuffer_empty {answers : List ReadAnswer}
    (noFailure : NoFailure answers) (rest : Bytes) :
    ∃ later, NoFailure later ∧
      fillBuffer answers [] rest =
        if recordLen ≤ rest.length then
          (.full (rest.take recordLen), later, rest.drop recordLen)
        else
          (if rest = [] then .endOfFile else .truncated, later, []) := by
  have fits : ([] : Bytes).length ≤ recordLen := Nat.zero_le recordLen
  simpa using fillBuffer_eq noFailure fits

omit [Curve] in
theorem length_of_fillBuffer {answers later : List ReadAnswer}
    {buf filled rest remaining : Bytes}
    (full : fillBuffer answers buf rest = (.full filled, later, remaining)) :
    remaining.length ≤ rest.length ∧
      (buf.length < recordLen → remaining.length < rest.length) := by
  fun_induction fillBuffer answers buf rest with
  | case1 answers buf rest room answer inductionHypothesis =>
      exact inductionHypothesis full
  | case2 answers buf rest room answer => cases full
  | case3 answers buf rest room count answer chunk done =>
      split at full <;> cases full
  | case4 answers buf rest room count answer chunk more inductionHypothesis =>
      have some : 0 < chunk.length := List.length_pos_iff.mpr more
      have within : chunk.length ≤ rest.length := by
        simp only [chunk, readChunk, List.length_take]
        omega
      have bound := (inductionHypothesis full).1
      rw [List.length_drop] at bound
      omega
  | case5 answers buf rest room =>
      cases full
      omega

section Replay

variable {State : Type}

def replayReads (handler : State → Record → State) (answers : List ReadAnswer)
    (state : State) (rest : Bytes) : Except WalError Unit × State :=
  match _filled : fillBuffer answers [] rest with
  | (.endOfFile, _, _) => (.ok (), state)
  | (.truncated, _, _) => (.error .unexpectedEof, state)
  | (.failed, _, _) => (.error .io, state)
  | (.full buf, later, remaining) =>
      match decodeRecord buf with
      | none => (.error .invalidData, state)
      | some record =>
          replayReads handler later (handler state record) remaining
termination_by rest.length
decreasing_by
  exact (length_of_fillBuffer _filled).2 (by decide)

/-- How the operating system splits the reads makes no difference to replay. -/
theorem replayReads_eq (handler : State → Record → State)
    {answers : List ReadAnswer} (noFailure : NoFailure answers) (state : State)
    (rest : Bytes) :
    replayReads handler answers state rest = replayBytes handler state rest := by
  induction size : rest.length using Nat.strong_induction_on
    generalizing answers state rest with
  | _ total inductionHypothesis =>
      rcases fillBuffer_empty noFailure rest with ⟨later, laterFine, filled⟩
      rw [replayReads, replayBytes]
      by_cases long : recordLen ≤ rest.length
      · have nonempty : rest ≠ [] := by
          intro empty
          rw [empty] at long
          exact absurd long (by decide)
        rw [if_pos long] at filled
        rw [filled, if_neg nonempty, dif_neg (Nat.not_lt.mpr long)]
        dsimp only
        cases decodeRecord (rest.take recordLen) with
        | none => rfl
        | some record =>
            have shorter : (rest.drop recordLen).length < total := by
              rw [List.length_drop, ← size]
              rw [recordLen] at long ⊢
              omega
            exact inductionHypothesis _ shorter laterFine _ _ rfl
      · rw [if_neg long] at filled
        rw [filled]
        by_cases empty : rest = []
        · rw [if_pos empty, if_pos empty]
        · rw [if_neg empty, if_neg empty, dif_pos (Nat.lt_of_not_le long)]

end Replay

/-- The copying loop of `prune_before`: the image written to the temporary file. -/
def pruneReads (minSeq : UInt64) (answers : List ReadAnswer) (rest image : Bytes) :
    Except WalError Bytes :=
  match _filled : fillBuffer answers [] rest with
  | (.endOfFile, _, _) => .ok image
  | (.truncated, _, _) => .error .unexpectedEof
  | (.failed, _, _) => .error .io
  | (.full buf, later, remaining) =>
      pruneReads minSeq later remaining
        (if bufferSeq buf ≥ minSeq then image ++ buf else image)
termination_by rest.length
decreasing_by
  exact (length_of_fillBuffer _filled).2 (by decide)

omit [Curve] in
theorem pruneReads_eq (minSeq : UInt64) {answers : List ReadAnswer}
    (noFailure : NoFailure answers) (rest image : Bytes) :
    pruneReads minSeq answers rest image =
      (pruneBytes minSeq rest).map fun copied => image ++ copied := by
  induction size : rest.length using Nat.strong_induction_on
    generalizing answers rest image with
  | _ total inductionHypothesis =>
      rcases fillBuffer_empty noFailure rest with ⟨later, laterFine, filled⟩
      rw [pruneReads, pruneBytes]
      by_cases long : recordLen ≤ rest.length
      · have nonempty : rest ≠ [] := by
          intro empty
          rw [empty] at long
          exact absurd long (by decide)
        have shorter : (rest.drop recordLen).length < total := by
          rw [List.length_drop, ← size]
          rw [recordLen] at long ⊢
          omega
        have tail := fun image =>
          inductionHypothesis _ shorter laterFine (rest.drop recordLen) image rfl
        rw [if_pos long] at filled
        rw [filled, if_neg nonempty, dif_neg (Nat.not_lt.mpr long)]
        dsimp only
        rw [tail]
        cases pruneBytes minSeq (rest.drop recordLen) with
        | error failure => rfl
        | ok copied =>
            by_cases kept : bufferSeq (rest.take recordLen) ≥ minSeq
            · simp [Except.map, kept]
            · simp [Except.map, kept]
      · rw [if_neg long] at filled
        rw [filled]
        by_cases empty : rest = []
        · rw [if_pos empty, if_pos empty]
          simp [Except.map]
        · rw [if_neg empty, if_neg empty, dif_pos (Nat.lt_of_not_le long)]
          rfl

namespace WriteAheadLog

def replayLogReads {State : Type} (wal : WriteAheadLog)
    (answers : List ReadAnswer) (handler : State → Record → State)
    (state : State) : Except WalError Unit × State :=
  replayReads handler answers state wal.file

/-- `prune_before`, given the answers to its reads and the outcome of its writing
operations. -/
def pruneBeforeReads (wal : WriteAheadLog) (minSeq : UInt64)
    (answers : List ReadAnswer) : PruneIo → Except WalError Unit × WriteAheadLog
  | .synced =>
      match pruneReads minSeq answers wal.file [] with
      | .error failure => (.error failure, wal)
      | .ok image => (.ok (), ⟨image⟩)
  | .failed renamed =>
      match pruneReads minSeq answers wal.file [] with
      | .error failure => (.error failure, wal)
      | .ok image => (.error .io, if renamed then ⟨image⟩ else wal)

omit [Curve] in
theorem pruneBeforeReads_eq (wal : WriteAheadLog) (minSeq : UInt64)
    {answers : List ReadAnswer} (noFailure : NoFailure answers) (io : PruneIo) :
    wal.pruneBeforeReads minSeq answers io = wal.pruneBefore minSeq io := by
  have image : pruneReads minSeq answers wal.file [] =
      pruneBytes minSeq wal.file := by
    rw [pruneReads_eq minSeq noFailure]
    cases pruneBytes minSeq wal.file <;> rfl
  unfold pruneBeforeReads pruneBefore
  cases pruned : pruneBytes minSeq wal.file with
  | error => cases io <;> simp [image, pruned]
  | ok => cases io <;> simp [image, pruned]

end WriteAheadLog

/-! ## The file refines a list of records -/

/-- A call that changes the log, with the answers to the reads that it makes. -/
inductive LogCall where
  | append (record : Record)
  | prune (minSeq : UInt64) (answers : List ReadAnswer)

namespace LogCall

def make (wal : WriteAheadLog) : LogCall → Except WalError Unit × WriteAheadLog
  | .append record => wal.appendEntry record .synced
  | .prune minSeq answers => wal.pruneBeforeReads minSeq answers .synced

/-- The call removes the record where it finds it. -/
def drops (record : Record) : LogCall → Bool
  | .append _ => false
  | .prune minSeq _ => record.seq < minSeq

def ReadsFine : LogCall → Prop
  | .append _ => True
  | .prune _ answers => NoFailure answers

end LogCall

/-- Make the calls in order, up to the first that fails. -/
def callAll (wal : WriteAheadLog) : List LogCall → Except WalError WriteAheadLog
  | [] => .ok wal
  | call :: later =>
      match call.make wal with
      | (.error failure, _) => .error failure
      | (.ok _, next) => callAll next later

def survivesCalls (calls : List LogCall) (record : Record) : Bool :=
  calls.all fun call => !call.drops record

/-- What the calls leave of what they append: the records that no later compaction
removes, in order and with multiplicity. -/
def surviving : List LogCall → List Record
  | [] => []
  | .append record :: later =>
      if survivesCalls later record then
        record :: surviving later
      else
        surviving later
  | .prune _ _ :: later => surviving later

/-- The calls keep of a written file what survives them and add what survives of
theirs. -/
theorem callAll_encodeLog {calls : List LogCall}
    (fine : ∀ call ∈ calls, call.ReadsFine) (records : List Record) :
    callAll ⟨encodeLog records⟩ calls =
      .ok ⟨encodeLog (records.filter (survivesCalls calls) ++
        surviving calls)⟩ := by
  induction calls generalizing records with
  | nil =>
      have all : records.filter (survivesCalls []) = records :=
        List.filter_eq_self.mpr fun _ _ => rfl
      simp [callAll, surviving, all]
  | cons call later inductionHypothesis =>
      have laterFine : ∀ other ∈ later, other.ReadsFine :=
        fun other member => fine other (List.mem_cons_of_mem call member)
      have tail := fun records => inductionHypothesis laterFine records
      cases call with
      | append record =>
          have appended : encodeLog records ++ record.encode =
              encodeLog (records ++ [record]) := by
            rw [encodeLog_append, encodeLog_singleton]
          have untouched : survivesCalls (.append record :: later) =
              survivesCalls later := by
            funext other
            simp [survivesCalls, LogCall.drops]
          simp only [callAll, LogCall.make, WriteAheadLog.appendEntry, appended,
            tail, untouched, List.filter_append, List.append_assoc]
          by_cases kept : survivesCalls later record = true
          · simp [surviving, kept]
          · simp [surviving, kept]
      | prune minSeq answers =>
          have readsFine : NoFailure answers := fine _ List.mem_cons_self
          have narrowed : survivesCalls (.prune minSeq answers :: later) =
              fun record : Record =>
                decide (minSeq ≤ record.seq) && survivesCalls later record := by
            funext record
            have opposite : (!decide (record.seq < minSeq)) =
                decide (minSeq ≤ record.seq) := by
              simp [← UInt64.not_lt]
            simp only [survivesCalls, List.all_cons, LogCall.drops, opposite]
          simp only [callAll, LogCall.make,
            WriteAheadLog.pruneBeforeReads_eq _ _ readsFine,
            WriteAheadLog.pruneBefore, pruneBytes_encodeLog, tail, surviving,
            narrowed, List.filter_filter]
          congr 5
          funext record
          exact Bool.and_comm _ _

theorem exists_records (file : Bytes) :
    ∃ records rest, file = encodeLog records ++ rest ∧
      (rest.length < recordLen ∨
        Curve.fromCompressed (slice rest 53 101) = none) := by
  induction size : file.length using Nat.strong_induction_on
    generalizing file with
  | _ total inductionHypothesis =>
      by_cases short : file.length < recordLen
      · exact ⟨[], file, rfl, Or.inl short⟩
      have headLength : (file.take recordLen).length = recordLen :=
        List.length_take_of_le (Nat.not_lt.mp short)
      cases decoded : decodeRecord (file.take recordLen) with
      | none =>
          refine ⟨[], file, rfl, Or.inr ?_⟩
          have same : slice (file.take recordLen) 53 101 = slice file 53 101 := by
            rw [slice, slice, List.drop_take, List.take_take]
            rfl
          rw [decodeRecord, same] at decoded
          cases point : Curve.fromCompressed (slice file 53 101) with
          | none => rfl
          | some affine =>
              rw [point] at decoded
              cases decoded
      | some record =>
          have head := encode_of_decodeRecord headLength decoded
          have shorter : (file.drop recordLen).length < total := by
            rw [List.length_drop, ← size]
            rw [recordLen] at short ⊢
            omega
          rcases inductionHypothesis _ shorter _ rfl with
            ⟨records, rest, split, stopped⟩
          refine ⟨record :: records, rest, ?_, stopped⟩
          calc
            file = file.take recordLen ++ file.drop recordLen :=
              (List.take_append_drop _ _).symm
            _ = record.encode ++ (encodeLog records ++ rest) := by
              rw [head, ← split]
            _ = encodeLog (record :: records) ++ rest := by
              rw [encodeLog_cons, List.append_assoc]

/-- Replay stops before a part of the file that is no complete record with a point
that decodes, and succeeds only at the end of the file. -/
theorem replayBytes_stopped {State : Type} (handler : State → Record → State)
    (state : State) {rest : Bytes}
    (stopped : rest.length < recordLen ∨
      Curve.fromCompressed (slice rest 53 101) = none) :
    (replayBytes handler state rest).2 = state ∧
      ((replayBytes handler state rest).1 = .ok () ↔ rest = []) := by
  rw [replayBytes]
  by_cases empty : rest = []
  · rw [if_pos empty]
    simp [empty]
  rw [if_neg empty]
  by_cases short : rest.length < recordLen
  · rw [dif_pos short]
    simp [empty]
  have refused : decodeRecord (rest.take recordLen) = none := by
    have same : slice (rest.take recordLen) 53 101 = slice rest 53 101 := by
      rw [slice, slice, List.drop_take, List.take_take]
      rfl
    rw [decodeRecord, same, stopped.resolve_left short]
  rw [dif_neg short, refused]
  simp [empty]

/-- The log file refines a list of records.  Whatever calls wrote it and however
their reads and the reads of the replay are split, replay succeeds and hands out
exactly the appended records that no later compaction has removed.  And whatever a
file holds, replay hands out the longest run of complete records with a valid point
at its head, and succeeds exactly where that run is the whole file. -/
theorem wal_refinesRecords :
    (∀ calls : List LogCall, (∀ call ∈ calls, call.ReadsFine) →
      ∃ wal, callAll ⟨[]⟩ calls = .ok wal ∧
        ∀ answers, NoFailure answers →
          ∀ (State : Type) (handler : State → Record → State) (state : State),
            wal.replayLogReads answers handler state =
              (.ok (), (surviving calls).foldl handler state)) ∧
    (∀ file : Bytes,
      ∃ records rest, file = encodeLog records ++ rest ∧
        (rest.length < recordLen ∨
          Curve.fromCompressed (slice rest 53 101) = none) ∧
        ∀ answers, NoFailure answers →
          ∀ (State : Type) (handler : State → Record → State) (state : State),
            (WriteAheadLog.replayLogReads ⟨file⟩ answers handler state).2 =
                records.foldl handler state ∧
              ((WriteAheadLog.replayLogReads ⟨file⟩ answers handler state).1 =
                  .ok () ↔ rest = [])) := by
  constructor
  · intro calls fine
    refine ⟨_, callAll_encodeLog fine [], ?_⟩
    intro answers noFailure State handler state
    rw [WriteAheadLog.replayLogReads, replayReads_eq handler noFailure,
      replayBytes_encodeLog]
    rfl
  · intro file
    rcases exists_records file with ⟨records, rest, split, stopped⟩
    refine ⟨records, rest, split, stopped, ?_⟩
    intro answers noFailure State handler state
    rw [WriteAheadLog.replayLogReads, replayReads_eq handler noFailure, split,
      replayBytes_append]
    exact replayBytes_stopped handler _ stopped

end ReadingLoops

section SmallRun

attribute [local instance] smallCurve

def recordAt (seq : UInt64) : Record where
  view := 0
  seq := seq
  phase := 1
  senderId := 3
  digest := Vector.replicate 32 9
  signature := 0

/-- Three records, compacted after the second, with split and interrupted reads. -/
def smallCalls : List LogCall :=
  [.append (recordAt 1), .append (recordAt 2),
    .prune 2 [.interrupted, .bytes 40, .bytes 0], .append (recordAt 1)]

/-- The first record is gone; the third, of the same sequence, came later. -/
theorem wal_refinesRecords_smallCalls :
    ∃ wal, callAll ⟨[]⟩ smallCalls = .ok wal ∧
      wal.replayLogReads [.bytes 100, .interrupted, .bytes 7]
          (fun seqs record => seqs ++ [record.seq]) [] =
        (.ok (), ([2, 1] : List UInt64)) := by
  have fine : ∀ call ∈ smallCalls, call.ReadsFine := by
    simp [smallCalls, LogCall.ReadsFine, NoFailure]
  have readsFine : NoFailure [.bytes 100, .interrupted, .bytes 7] := by
    simp [NoFailure]
  rcases wal_refinesRecords.1 smallCalls fine with ⟨wal, made, replayed⟩
  refine ⟨wal, made, ?_⟩
  rw [replayed _ readsFine]
  decide

end SmallRun

end SovereignLattice
