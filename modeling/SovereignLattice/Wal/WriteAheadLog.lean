import SovereignLattice.Pbft.Messages

/-!
# The write-ahead log (`wal.rs`)

The log file is a byte string; a record is 101 bytes.  `appendEntry`,
`replayLog` and `pruneBefore` work on the bytes as the code does.  What the
operating system answers is an argument of the two writing operations, so that
every failure can be considered.

The second half shows that a file written by these operations is a list of
records: replay folds over the list and compaction filters it.
-/

namespace SovereignLattice

variable [Curve]

/-- `RECORD_LEN`. -/
def recordLen : Nat :=
  101

/-- The arguments of one `append_entry` call and of one replay callback. -/
structure Record where
  view : UInt64
  seq : UInt64
  phase : UInt8
  senderId : UInt32
  digest : Digest
  signature : G1Projective
  deriving DecidableEq

/-- `copy_from_slice` into a `[u8; 32]`. -/
def digestOfBytes (bytes : Bytes) : Digest :=
  Vector.ofFn fun index => bytes.getD index 0

def Record.encode (record : Record) : Bytes :=
  u64Bytes record.view ++ (u64Bytes record.seq ++ ([record.phase] ++
    (u32Bytes record.senderId ++ (record.digest.toList ++
      Curve.toCompressed record.signature))))

/-- The fields of a full buffer, or nothing where the point does not decode. -/
def decodeRecord (buf : Bytes) : Option Record :=
  match Curve.fromCompressed (slice buf 53 101) with
  | some affine =>
      some
        { view := u64OfBytes (slice buf 0 8)
          seq := u64OfBytes (slice buf 8 16)
          phase := buf.getD 16 0
          senderId := u32OfBytes (slice buf 17 21)
          digest := digestOfBytes (slice buf 21 53)
          signature := affine }
  | none => none

inductive WalError where
  | unexpectedEof
  | invalidData
  | io
  deriving DecidableEq, Repr

/-- The log file's content. -/
structure WriteAheadLog where
  file : Bytes
  deriving DecidableEq

/-- The outcome of `write_all` and `sync_data`: a failure leaves some prefix of
the record in the file. -/
inductive AppendIo where
  | synced
  | failed (written : Nat)

/-- The outcome of the file operations of `prune_before`: a failure comes
before or after the rename. -/
inductive PruneIo where
  | synced
  | failed (renamed : Bool)

def WriteAheadLog.appendEntry (wal : WriteAheadLog) (record : Record) :
    AppendIo → Except WalError Unit × WriteAheadLog
  | .synced => (.ok (), ⟨wal.file ++ record.encode⟩)
  | .failed written =>
      (.error .io, ⟨wal.file ++ record.encode.take written⟩)

section Replay

variable {State : Type}

/-- The reading loop of `replay_log`; the callback's captured variables are the
state. -/
def replayBytes (handler : State → Record → State) (state : State)
    (file : Bytes) : Except WalError Unit × State :=
  if file = [] then
    (.ok (), state)
  else if _short : file.length < recordLen then
    (.error .unexpectedEof, state)
  else
    match decodeRecord (file.take recordLen) with
    | none => (.error .invalidData, state)
    | some record =>
        replayBytes handler (handler state record) (file.drop recordLen)
termination_by file.length
decreasing_by
  simp only [List.length_drop, recordLen] at *
  omega

def WriteAheadLog.replayLog (wal : WriteAheadLog)
    (handler : State → Record → State) (state : State) :
    Except WalError Unit × State :=
  replayBytes handler state wal.file

end Replay

/-- The sequence field that `prune_before` reads from a full buffer. -/
def bufferSeq (buf : Bytes) : UInt64 :=
  u64OfBytes (slice buf 8 16)

/-- The image that the copying loop of `prune_before` writes to the temporary
file. -/
def pruneBytes (minSeq : UInt64) (file : Bytes) : Except WalError Bytes :=
  if file = [] then
    .ok []
  else if _short : file.length < recordLen then
    .error .unexpectedEof
  else
    match pruneBytes minSeq (file.drop recordLen) with
    | .error failure => .error failure
    | .ok rest =>
        if bufferSeq (file.take recordLen) ≥ minSeq then
          .ok (file.take recordLen ++ rest)
        else
          .ok rest
termination_by file.length
decreasing_by
  simp only [List.length_drop, recordLen] at *
  omega

def WriteAheadLog.pruneBefore (wal : WriteAheadLog) (minSeq : UInt64) :
    PruneIo → Except WalError Unit × WriteAheadLog
  | .synced =>
      match pruneBytes minSeq wal.file with
      | .error failure => (.error failure, wal)
      | .ok image => (.ok (), ⟨image⟩)
  | .failed renamed =>
      match pruneBytes minSeq wal.file with
      | .error failure => (.error failure, wal)
      | .ok image => (.error .io, if renamed then ⟨image⟩ else wal)

/-! ## The file as a list of records -/

/-- The file content that a list of records makes. -/
def encodeLog (records : List Record) : Bytes :=
  (records.map Record.encode).flatten

/-- The records that replay hands out, in order. -/
def WriteAheadLog.records (wal : WriteAheadLog) : List Record :=
  (wal.replayLog (fun seen record => seen ++ [record]) []).2

@[simp]
theorem length_encode (record : Record) : record.encode.length = recordLen := by
  simp [Record.encode, recordLen]

omit [Curve] in
theorem digestOfBytes_toList (digest : Digest) :
    digestOfBytes digest.toList = digest := by
  apply Vector.ext
  intro index bound
  simp [digestOfBytes, List.getD_eq_getElem?_getD]

omit [Curve] in
theorem toList_digestOfBytes {bytes : Bytes} (length : bytes.length = 32) :
    (digestOfBytes bytes).toList = bytes := by
  apply List.ext_getElem
  · simp [length]
  · intro index _ bound
    simp [digestOfBytes, List.getElem?_eq_getElem bound]

/-- The fields in the order in which they are written. -/
def Record.fields (record : Record) : List Bytes :=
  [u64Bytes record.view, u64Bytes record.seq, [record.phase],
    u32Bytes record.senderId, record.digest.toList,
    Curve.toCompressed record.signature]

/-- Decoding a full encoding gives the record back. -/
theorem decodeRecord_encode (record : Record) :
    decodeRecord record.encode = some record := by
  have layout : record.encode = record.fields.flatten ++ [] := by
    simp [Record.encode, Record.fields]
  have view : slice record.encode 0 8 = u64Bytes record.view :=
    slice_field layout 0 rfl rfl (by simp)
  have seq : slice record.encode 8 16 = u64Bytes record.seq :=
    slice_field layout 1 rfl (by simp [Record.fields]) (by simp)
  have phase : record.encode.getD 16 0 = record.phase := by
    simp [Record.encode, List.getD_eq_getElem?_getD]
  have sender : slice record.encode 17 21 = u32Bytes record.senderId :=
    slice_field layout 3 rfl (by simp [Record.fields]) (by simp)
  have digest : slice record.encode 21 53 = record.digest.toList :=
    slice_field layout 4 rfl (by simp [Record.fields]) (by simp)
  have point :
      slice record.encode 53 101 = Curve.toCompressed record.signature :=
    slice_field layout 5 rfl (by simp [Record.fields]) (by simp)
  simp only [decodeRecord, point, view, seq, phase, sender, digest,
    Curve.fromCompressed_toCompressed, u64OfBytes_u64Bytes,
    u32OfBytes_u32Bytes, digestOfBytes_toList]

/-- A full buffer that decodes is the encoding of its record. -/
theorem encode_of_decodeRecord {buf : Bytes} {record : Record}
    (length : buf.length = recordLen) (decoded : decodeRecord buf = some record) :
    record.encode = buf := by
  rw [recordLen] at length
  rw [decodeRecord] at decoded
  split at decoded
  · rename_i affine point
    rw [Option.some.injEq] at decoded
    subst decoded
    have pointBytes := Curve.toCompressed_of_fromCompressed _ _ point
    have viewBytes : u64Bytes (u64OfBytes (slice buf 0 8)) = slice buf 0 8 :=
      u64Bytes_u64OfBytes (length_slice (by omega))
    have seqBytes : u64Bytes (u64OfBytes (slice buf 8 16)) = slice buf 8 16 :=
      u64Bytes_u64OfBytes (length_slice (by omega))
    have phaseByte : [buf.getD 16 0] = slice buf 16 17 :=
      (slice_one (by omega)).symm
    have senderBytes :
        u32Bytes (u32OfBytes (slice buf 17 21)) = slice buf 17 21 :=
      u32Bytes_u32OfBytes (length_slice (by omega))
    have digestBytes :
        (digestOfBytes (slice buf 21 53)).toList = slice buf 21 53 :=
      toList_digestOfBytes (length_slice (by omega))
    rw [Record.encode, viewBytes, seqBytes, phaseByte, senderBytes, digestBytes,
      pointBytes, slice_append (by decide) (by decide),
      slice_append (by decide) (by decide), slice_append (by decide) (by decide),
      slice_append (by decide) (by decide), slice_append (by decide) (by decide),
      slice_zero, List.take_of_length_le length.le]
  · cases decoded

theorem bufferSeq_encode (record : Record) :
    bufferSeq record.encode = record.seq := by
  have decoded := decodeRecord_encode record
  rw [decodeRecord] at decoded
  split at decoded
  · exact congrArg Record.seq (Option.some.inj decoded)
  · cases decoded

theorem encodeLog_append (first second : List Record) :
    encodeLog (first ++ second) = encodeLog first ++ encodeLog second := by
  simp [encodeLog]

theorem encodeLog_cons (record : Record) (rest : List Record) :
    encodeLog (record :: rest) = record.encode ++ encodeLog rest := by
  simp [encodeLog]

@[simp]
theorem encodeLog_singleton (record : Record) :
    encodeLog [record] = record.encode := by
  simp [encodeLog]

/-- Records at the head of a written file are its first records. -/
theorem prefix_of_encodeLog_append {log records : List Record} {rest : Bytes}
    (file : encodeLog log ++ rest = encodeLog records) : log <+: records := by
  induction log generalizing records with
  | nil => exact List.nil_prefix
  | cons record later inductionHypothesis =>
      rw [encodeLog_cons, List.append_assoc] at file
      cases records with
      | nil =>
          have length := congrArg List.length file
          simp [encodeLog, recordLen] at length
      | cons first others =>
          rw [encodeLog_cons] at file
          rcases List.append_inj file (by simp) with ⟨sameBytes, tail⟩
          have same := congrArg decodeRecord sameBytes
          rw [decodeRecord_encode, decodeRecord_encode, Option.some.injEq] at same
          subst same
          exact (List.prefix_cons_inj record).mpr (inductionHypothesis tail)

private theorem encode_append_nonempty (record : Record) (rest : Bytes) :
    record.encode ++ rest ≠ [] := by
  intro empty
  have length := congrArg List.length empty
  simp [recordLen] at length

private theorem not_short (record : Record) (rest : Bytes) :
    ¬ (record.encode ++ rest).length < recordLen := by
  simp

/-- Replay folds the callback over the records at the head of a file. -/
theorem replayBytes_append {State : Type} (handler : State → Record → State)
    (records : List Record) (state : State) (rest : Bytes) :
    replayBytes handler state (encodeLog records ++ rest) =
      replayBytes handler (records.foldl handler state) rest := by
  induction records generalizing state with
  | nil => rfl
  | cons record later inductionHypothesis =>
      rw [encodeLog_cons, List.append_assoc]
      rw [replayBytes, if_neg (encode_append_nonempty record _),
        dif_neg (not_short record _), List.take_left' (length_encode record),
        List.drop_left' (length_encode record), decodeRecord_encode,
        List.foldl_cons]
      exact inductionHypothesis (handler state record)

/-- Replaying a written file folds the callback over its records. -/
theorem replayBytes_encodeLog {State : Type}
    (handler : State → Record → State) (records : List Record) (state : State) :
    replayBytes handler state (encodeLog records) =
      (.ok (), records.foldl handler state) := by
  have whole := replayBytes_append handler records state []
  rw [List.append_nil] at whole
  rw [whole, replayBytes, if_pos rfl]

omit [Curve] in
/-- Compacting whole records filters them by sequence. -/
theorem pruneBytes_flatten (minSeq : UInt64) {buffers : List Bytes}
    (whole : ∀ buf ∈ buffers, buf.length = recordLen) :
    pruneBytes minSeq buffers.flatten =
      .ok (buffers.filter fun buf => minSeq ≤ bufferSeq buf).flatten := by
  induction buffers with
  | nil => simp [pruneBytes]
  | cons buf rest inductionHypothesis =>
      rcases List.forall_mem_cons.mp whole with ⟨length, restWhole⟩
      have nonempty : buf ++ rest.flatten ≠ [] := by
        intro empty
        have none := congrArg List.length empty
        rw [List.length_append, length] at none
        exact absurd none (by simp [recordLen])
      have long : ¬ (buf ++ rest.flatten).length < recordLen := by
        rw [List.length_append, length]
        omega
      rw [List.flatten_cons, pruneBytes, if_neg nonempty, dif_neg long,
        List.take_left' length, List.drop_left' length,
        inductionHypothesis restWhole]
      by_cases kept : minSeq ≤ bufferSeq buf
      · simp [kept]
      · simp [kept]

/-- Compacting a written file filters its records by sequence. -/
theorem pruneBytes_encodeLog (minSeq : UInt64) (records : List Record) :
    pruneBytes minSeq (encodeLog records) =
      .ok (encodeLog (records.filter fun record => minSeq ≤ record.seq)) := by
  have whole : ∀ buf ∈ records.map Record.encode, buf.length = recordLen := by
    intro buf member
    rcases List.mem_map.mp member with ⟨record, _, rfl⟩
    exact length_encode record
  have sameTest : ((fun buf : Bytes => decide (minSeq ≤ bufferSeq buf)) ∘
      Record.encode) = fun record => decide (minSeq ≤ record.seq) := by
    funext record
    rw [Function.comp_apply, bufferSeq_encode]
  rw [encodeLog, pruneBytes_flatten minSeq whole, List.filter_map, sameTest,
    encodeLog]

@[simp]
theorem records_encodeLog (records : List Record) :
    WriteAheadLog.records ⟨encodeLog records⟩ = records := by
  have folded : ∀ seen : List Record,
      records.foldl (fun seen record => seen ++ [record]) seen =
        seen ++ records := by
    induction records with
    | nil => simp
    | cons record rest inductionHypothesis =>
        intro seen
        rw [List.foldl_cons, inductionHypothesis]
        simp
  rw [WriteAheadLog.records, WriteAheadLog.replayLog, replayBytes_encodeLog,
    folded]
  rfl

omit [Curve] in
/-- Whatever a file holds, compaction keeps whole records in their order. -/
theorem pruneBytes_spec {minSeq : UInt64} {file image : Bytes}
    (pruned : pruneBytes minSeq file = .ok image) :
    ∃ buffers : List Bytes, (∀ buf ∈ buffers, buf.length = recordLen) ∧
      file = buffers.flatten ∧
      image = (buffers.filter fun buf => minSeq ≤ bufferSeq buf).flatten := by
  fun_induction pruneBytes minSeq file generalizing image with
  | case1 =>
      cases pruned
      exact ⟨[], by simp, rfl, rfl⟩
  | case2 file nonempty short => cases pruned
  | case3 file nonempty long failure tail inductionHypothesis => cases pruned
  | case4 file nonempty long rest tail keep inductionHypothesis =>
      cases pruned
      rcases inductionHypothesis tail with ⟨buffers, lengths, split, kept⟩
      have headLength : (file.take recordLen).length = recordLen := by
        rw [List.length_take]
        omega
      refine ⟨file.take recordLen :: buffers, ?_, ?_, ?_⟩
      · exact List.forall_mem_cons.mpr ⟨headLength, lengths⟩
      · rw [List.flatten_cons, ← split, List.take_append_drop]
      · rw [List.filter_cons_of_pos (by simpa using keep), List.flatten_cons,
          ← kept]
  | case5 file nonempty long rest tail drop inductionHypothesis =>
      cases pruned
      rcases inductionHypothesis tail with ⟨buffers, lengths, split, kept⟩
      have headLength : (file.take recordLen).length = recordLen := by
        rw [List.length_take]
        omega
      refine ⟨file.take recordLen :: buffers, ?_, ?_, ?_⟩
      · exact List.forall_mem_cons.mpr ⟨headLength, lengths⟩
      · rw [List.flatten_cons, ← split, List.take_append_drop]
      · rw [List.filter_cons_of_neg (by simpa using drop), ← kept]

omit [Curve] in
/-- One more whole record. -/
theorem pruneBytes_concat {minSeq : UInt64} {consumed image buf : Bytes}
    (pruned : pruneBytes minSeq consumed = .ok image)
    (length : buf.length = recordLen) :
    pruneBytes minSeq (consumed ++ buf) =
      .ok (if bufferSeq buf ≥ minSeq then image ++ buf else image) := by
  rcases pruneBytes_spec pruned with ⟨buffers, whole, rfl, rfl⟩
  have appended : buffers.flatten ++ buf = (buffers ++ [buf]).flatten := by simp
  have allWhole : ∀ other ∈ buffers ++ [buf], other.length = recordLen := by
    intro other member
    rcases List.mem_append.mp member with before | here
    · exact whole other before
    · rw [List.mem_singleton.mp here, length]
  rw [appended, pruneBytes_flatten minSeq allWhole, List.filter_append]
  by_cases kept : minSeq ≤ bufferSeq buf
  · simp [kept]
  · simp [kept]

omit [Curve] in
/-- Compaction of a content that ends in a partial record fails. -/
theorem length_of_pruneBytes {minSeq : UInt64} {file image : Bytes}
    (pruned : pruneBytes minSeq file = .ok image) :
    file.length % recordLen = 0 := by
  rcases pruneBytes_spec pruned with ⟨buffers, whole, rfl, _⟩
  have total : buffers.flatten.length = buffers.length * recordLen := by
    rw [List.length_flatten]
    have same : buffers.map List.length = buffers.map fun _ => recordLen :=
      List.map_congr_left whole
    rw [same, List.map_const', List.sum_replicate, smul_eq_mul]
  rw [total, Nat.mul_mod_left]

end SovereignLattice
