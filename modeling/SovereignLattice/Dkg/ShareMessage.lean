import SovereignLattice.Crypto.Encodings
import SovereignLattice.Foundations.BigEndian

/-!
# `DkgShareMessage` (`dkg.rs`)

A dealer's share for one node with the commitments to its polynomial.  The number
of commitments is not written: the decoder takes 96 bytes at a time while 48 remain
behind them for the signature.  Every access that could panic in the decoder is
checked here and has an error of its own.
-/

namespace SovereignLattice

variable [Curve] [Encodings]

structure DkgShareMessage where
  fromNode : UInt32
  toNode : UInt32
  share : Scalar
  commitments : List G2Projective
  signature : G1Projective
  deriving DecidableEq

/-- The error strings of `DkgShareMessage::from_bytes`, and the two ways in which its
accesses could panic. -/
inductive ShareDecodeError where
  | dkgPacketTooShort
  | invalidShareScalar
  | invalidG2Commitment
  | invalidDkgPacketStructure
  | invalidG1Signature
  | rangeOutOfBounds
  | subtractionUnderflow
  deriving DecidableEq, Repr

def ShareDecodeError.text : ShareDecodeError → String
  | .dkgPacketTooShort => "DKG_PACKET_TOO_SHORT"
  | .invalidShareScalar => "INVALID_SHARE_SCALAR"
  | .invalidG2Commitment => "INVALID_G2_COMMITMENT"
  | .invalidDkgPacketStructure => "INVALID_DKG_PACKET_STRUCTURE"
  | .invalidG1Signature => "INVALID_G1_SIGNATURE"
  | .rangeOutOfBounds => "range end index out of range for slice"
  | .subtractionUnderflow => "attempt to subtract with overflow"

/-- The panics among the errors. -/
def ShareDecodeError.IsPanic (error : ShareDecodeError) : Prop :=
  error = .rangeOutOfBounds ∨ error = .subtractionUnderflow

/-- `&bytes[start..stop]` with its bounds check. -/
def checkedSlice (bytes : Bytes) (start stop : Nat) :
    Except ShareDecodeError Bytes :=
  if start ≤ stop ∧ stop ≤ bytes.length then
    .ok (slice bytes start stop)
  else
    .error .rangeOutOfBounds

/-- `left - right` on `usize`. -/
def checkedSub (left right : Nat) : Except ShareDecodeError Nat :=
  if right ≤ left then
    .ok (left - right)
  else
    .error .subtractionUnderflow

namespace DkgShareMessage

def canonicalBytes (msg : DkgShareMessage) : Bytes :=
  u32Bytes msg.fromNode ++ (u32Bytes msg.toNode ++
    (Encodings.scalarToBytes msg.share ++ commitmentBytes msg.commitments))

def toBytes (msg : DkgShareMessage) : Bytes :=
  msg.canonicalBytes ++ Curve.toCompressed msg.signature

/-- The loop of `from_bytes`: the commitments and the offset behind them. -/
def readCommitments (bytes : Bytes) (offset : Nat)
    (commitments : List G2Projective) :
    Except ShareDecodeError (List G2Projective × Nat) :=
  match _found : checkedSub bytes.length 48 with
  | .error error => .error error
  | .ok limit =>
      if _more : offset + 96 ≤ limit then
        match checkedSlice bytes offset (offset + 96) with
        | .error error => .error error
        | .ok cBytes =>
            match Encodings.g2FromCompressed cBytes with
            | none => .error .invalidG2Commitment
            | some commitment =>
                readCommitments bytes (offset + 96)
                  (commitments ++ [commitment])
      else
        .ok (commitments, offset)
termination_by bytes.length - 48 - offset
decreasing_by
  rw [checkedSub] at _found
  split at _found
  · cases _found
    omega
  · cases _found

def fromBytes (bytes : Bytes) : Except ShareDecodeError DkgShareMessage :=
  if bytes.length < 88 then
    .error .dkgPacketTooShort
  else do
    let fromNodeBytes ← checkedSlice bytes 0 4
    let toNodeBytes ← checkedSlice bytes 4 8
    let shareBytes ← checkedSlice bytes 8 40
    match Encodings.scalarFromBytes shareBytes with
    | none => .error .invalidShareScalar
    | some share =>
        let (commitments, offset) ← readCommitments bytes 40 []
        let remaining ← checkedSub bytes.length offset
        if remaining ≠ 48 then
          .error .invalidDkgPacketStructure
        else
          let sigBytes ← checkedSlice bytes offset (offset + 48)
          match Curve.fromCompressed sigBytes with
          | none => .error .invalidG1Signature
          | some affine =>
              .ok
                { fromNode := u32OfBytes fromNodeBytes
                  toNode := u32OfBytes toNodeBytes
                  share := share
                  commitments := commitments
                  signature := affine }

/-- A dealer signs its shares with the constant term of its polynomial. -/
def verifySignature (msg : DkgShareMessage) : Bool :=
  match msg.commitments with
  | [] => false
  | dealerPubkey :: _ =>
      verifyBlsSignature msg.canonicalBytes msg.signature dealerPubkey

/-! ## The accesses of the decoder -/

omit [Curve] [Encodings] in
theorem checkedSlice_of_le {bytes : Bytes} {start stop : Nat}
    (ordered : start ≤ stop) (inside : stop ≤ bytes.length) :
    checkedSlice bytes start stop = .ok (slice bytes start stop) :=
  if_pos ⟨ordered, inside⟩

omit [Curve] [Encodings] in
theorem checkedSub_of_le {left right : Nat} (enough : right ≤ left) :
    checkedSub left right = .ok (left - right) :=
  if_pos enough

/-- One more round of the loop. -/
theorem readCommitments_more {bytes : Bytes} {offset : Nat}
    {commitments : List G2Projective}
    (more : offset + 96 + 48 ≤ bytes.length) :
    readCommitments bytes offset commitments =
      match Encodings.g2FromCompressed (slice bytes offset (offset + 96)) with
      | none => .error .invalidG2Commitment
      | some commitment =>
          readCommitments bytes (offset + 96) (commitments ++ [commitment]) := by
  rw [readCommitments, checkedSub_of_le (by omega)]
  dsimp only
  rw [dif_pos (by omega), checkedSlice_of_le (by omega) (by omega)]

/-- The end of the loop. -/
theorem readCommitments_done {bytes : Bytes} {offset : Nat}
    {commitments : List G2Projective} (long : 48 ≤ bytes.length)
    (done : bytes.length < offset + 96 + 48) :
    readCommitments bytes offset commitments = .ok (commitments, offset) := by
  rw [readCommitments, checkedSub_of_le long]
  dsimp only
  rw [dif_neg (by omega)]

/-- The loop reads commitments that are encoded one after the other up to the
signature. -/
theorem readCommitments_of_encoded {bytes : Bytes}
    (encoded : List G2Projective) {offset : Nat}
    {commitments : List G2Projective}
    (fits : bytes.length = offset + 96 * encoded.length + 48)
    (field : slice bytes offset (offset + 96 * encoded.length) =
      commitmentBytes encoded) :
    readCommitments bytes offset commitments =
      .ok (commitments ++ encoded, offset + 96 * encoded.length) := by
  induction encoded generalizing offset commitments with
  | nil =>
      rw [List.length_nil] at fits
      rw [readCommitments_done (by omega) (by omega)]
      simp
  | cons commitment rest inductionHypothesis =>
      rw [List.length_cons] at fits field
      have split : slice bytes offset (offset + 96) ++
          slice bytes (offset + 96) (offset + 96 * (rest.length + 1)) =
            slice bytes offset (offset + 96 * (rest.length + 1)) :=
        slice_append (by omega) (by omega)
      rw [field, commitmentBytes_cons] at split
      have width : (slice bytes offset (offset + 96)).length =
          (Encodings.g2ToCompressed commitment).length := by
        rw [length_slice (by omega), Encodings.length_g2ToCompressed]
        omega
      rcases List.append_inj split width with ⟨head, tail⟩
      have shifted : offset + 96 * (rest.length + 1) =
          offset + 96 + 96 * rest.length := by
        omega
      rw [shifted] at tail
      rw [readCommitments_more (by omega), head,
        Encodings.g2FromCompressed_g2ToCompressed]
      dsimp only
      rw [inductionHypothesis (by omega) tail, List.length_cons, shifted,
        List.append_assoc]
      rfl

/-- What the loop can return: commitments that are encoded from the offset on, and
fewer than 96 bytes left before the signature; or the refusal of a point. -/
theorem readCommitments_cases (bytes : Bytes) (offset : Nat)
    (commitments : List G2Projective) (inside : offset + 48 ≤ bytes.length) :
    readCommitments bytes offset commitments = .error .invalidG2Commitment ∨
      ∃ encoded : List G2Projective,
        readCommitments bytes offset commitments =
            .ok (commitments ++ encoded, offset + 96 * encoded.length) ∧
          offset + 96 * encoded.length + 48 ≤ bytes.length ∧
          slice bytes offset (offset + 96 * encoded.length) =
            commitmentBytes encoded := by
  induction left : bytes.length - offset using Nat.strong_induction_on
    generalizing offset commitments with
  | _ left inductionHypothesis =>
      by_cases more : offset + 96 + 48 ≤ bytes.length
      · rw [readCommitments_more more]
        cases decoded : Encodings.g2FromCompressed
            (slice bytes offset (offset + 96)) with
        | none => exact Or.inl rfl
        | some commitment =>
            have point := Encodings.g2ToCompressed_of_g2FromCompressed _ _ decoded
            have rest := inductionHypothesis (bytes.length - (offset + 96))
              (by omega) (offset + 96) (commitments ++ [commitment])
              (by omega) rfl
            rcases rest with refused | ⟨encoded, result, fits, field⟩
            · exact Or.inl refused
            · have shifted : offset + 96 * (encoded.length + 1) =
                  offset + 96 + 96 * encoded.length := by
                omega
              refine Or.inr ⟨commitment :: encoded, ?_, ?_, ?_⟩
              · dsimp only
                rw [result, List.length_cons, shifted, List.append_assoc]
                rfl
              · rw [List.length_cons, shifted]
                exact fits
              · rw [List.length_cons, shifted, commitmentBytes_cons, point,
                  ← field]
                exact (slice_append (by omega) (by omega)).symm
      · refine Or.inr ⟨[], ?_, ?_, ?_⟩
        · rw [readCommitments_done (by omega) (by omega)]
          simp
        · simpa using inside
        · simp [slice]

/-! ## The decoder accepts exactly the encodings -/

@[simp]
theorem length_toBytes (msg : DkgShareMessage) :
    msg.toBytes.length = 88 + 96 * msg.commitments.length := by
  simp [toBytes, canonicalBytes]
  omega

/-- On a string that is long enough, the fixed fields are read without a panic. -/
theorem fromBytes_of_long {bytes : Bytes} (long : 88 ≤ bytes.length) :
    fromBytes bytes =
      (match Encodings.scalarFromBytes (slice bytes 8 40) with
      | none => .error .invalidShareScalar
      | some share => do
          let (commitments, offset) ← readCommitments bytes 40 []
          let remaining ← checkedSub bytes.length offset
          if remaining ≠ 48 then
            .error .invalidDkgPacketStructure
          else
            let sigBytes ← checkedSlice bytes offset (offset + 48)
            match Curve.fromCompressed sigBytes with
            | none => .error .invalidG1Signature
            | some affine =>
                .ok
                  { fromNode := u32OfBytes (slice bytes 0 4)
                    toNode := u32OfBytes (slice bytes 4 8)
                    share := share
                    commitments := commitments
                    signature := affine }) := by
  rw [fromBytes, if_neg (by omega), checkedSlice_of_le (by omega) (by omega),
    checkedSlice_of_le (by omega) (by omega),
    checkedSlice_of_le (by omega) (by omega)]
  rfl

/-- On a string whose loop ends at the signature, only the signature is left to
decode. -/
theorem fromBytes_of_read {bytes : Bytes} {share : Scalar}
    {commitments : List G2Projective}
    (length : bytes.length = 88 + 96 * commitments.length)
    (decoded : Encodings.scalarFromBytes (slice bytes 8 40) = some share)
    (read : readCommitments bytes 40 [] =
      .ok (commitments, 40 + 96 * commitments.length)) :
    fromBytes bytes =
      match Curve.fromCompressed (slice bytes (40 + 96 * commitments.length)
        (40 + 96 * commitments.length + 48)) with
      | none => .error .invalidG1Signature
      | some affine =>
          .ok
            { fromNode := u32OfBytes (slice bytes 0 4)
              toNode := u32OfBytes (slice bytes 4 8)
              share := share
              commitments := commitments
              signature := affine } := by
  rw [fromBytes_of_long (by omega), decoded]
  simp only [read, bind, Except.bind]
  rw [checkedSub_of_le (by omega)]
  dsimp only
  rw [if_neg (by omega), checkedSlice_of_le (by omega) (by omega)]

/-- The fields in the order in which they are written. -/
def fields (msg : DkgShareMessage) : List Bytes :=
  [u32Bytes msg.fromNode, u32Bytes msg.toNode, Encodings.scalarToBytes msg.share,
    commitmentBytes msg.commitments, Curve.toCompressed msg.signature]

/-- The decoder reads back what the encoder has written. -/
theorem fromBytes_toBytes (msg : DkgShareMessage) :
    fromBytes msg.toBytes = .ok msg := by
  have layout : msg.toBytes = msg.fields.flatten ++ [] := by
    simp [toBytes, canonicalBytes, fields]
  have fromField : slice msg.toBytes 0 4 = u32Bytes msg.fromNode :=
    slice_field layout 0 rfl rfl (by simp)
  have toField : slice msg.toBytes 4 8 = u32Bytes msg.toNode :=
    slice_field layout 1 rfl (by simp [fields]) (by simp)
  have shareField : slice msg.toBytes 8 40 = Encodings.scalarToBytes msg.share :=
    slice_field layout 2 rfl (by simp [fields]) (by simp)
  have listField :
      slice msg.toBytes 40 (40 + 96 * msg.commitments.length) =
        commitmentBytes msg.commitments :=
    slice_field layout 3 rfl (by simp [fields]) (by simp)
  have pointField :
      slice msg.toBytes (40 + 96 * msg.commitments.length)
          (40 + 96 * msg.commitments.length + 48) =
        Curve.toCompressed msg.signature := by
    apply slice_field layout 4 rfl _ (by simp)
    simp only [fields, List.take_succ_cons, List.take_zero, List.flatten_cons,
      List.flatten_nil, List.length_append, length_u32Bytes,
      Encodings.length_scalarToBytes, length_commitmentBytes, List.length_nil]
    omega
  have length := length_toBytes msg
  have read : readCommitments msg.toBytes 40 [] =
      .ok (msg.commitments, 40 + 96 * msg.commitments.length) :=
    readCommitments_of_encoded msg.commitments (by omega) listField
  have decoded : Encodings.scalarFromBytes (slice msg.toBytes 8 40) =
      some msg.share := by
    rw [shareField, Encodings.scalarFromBytes_scalarToBytes]
  rw [fromBytes_of_read length decoded read, pointField,
    Curve.fromCompressed_toCompressed, fromField, toField, u32OfBytes_u32Bytes,
    u32OfBytes_u32Bytes]

/-- What the decoder can return: the message that the whole string encodes, or one
of its refusals. -/
theorem fromBytes_cases (bytes : Bytes) :
    (∃ msg, fromBytes bytes = .ok msg ∧ bytes = msg.toBytes) ∨
      ∃ error, fromBytes bytes = .error error ∧ ¬ error.IsPanic := by
  have calm : ∀ error : ShareDecodeError, error ≠ .rangeOutOfBounds →
      error ≠ .subtractionUnderflow → ¬ error.IsPanic :=
    fun error inRange noUnderflow panic => panic.elim inRange noUnderflow
  by_cases long : 88 ≤ bytes.length
  · rw [fromBytes_of_long long]
    cases decoded : Encodings.scalarFromBytes (slice bytes 8 40) with
    | none => exact Or.inr ⟨_, rfl, calm _ (by decide) (by decide)⟩
    | some share =>
        dsimp only
        rcases readCommitments_cases bytes 40 [] (by omega) with
          refused | ⟨commitments, read, fits, field⟩
        · rw [refused]
          exact Or.inr ⟨_, rfl, calm _ (by decide) (by decide)⟩
        · rw [read]
          simp only [bind, Except.bind, List.nil_append]
          rw [checkedSub_of_le (by omega)]
          dsimp only
          by_cases structured :
              bytes.length - (40 + 96 * commitments.length) = 48
          · rw [if_neg (not_not.mpr structured),
              checkedSlice_of_le (by omega) (by omega)]
            dsimp only
            cases point : Curve.fromCompressed (slice bytes
                (40 + 96 * commitments.length)
                (40 + 96 * commitments.length + 48)) with
            | none => exact Or.inr ⟨_, rfl, calm _ (by decide) (by decide)⟩
            | some affine =>
                refine Or.inl ⟨_, rfl, ?_⟩
                have shareBytes :=
                  Encodings.scalarToBytes_of_scalarFromBytes _ _ decoded
                have pointBytes := Curve.toCompressed_of_fromCompressed _ _ point
                have fromBytes :
                    u32Bytes (u32OfBytes (slice bytes 0 4)) = slice bytes 0 4 :=
                  u32Bytes_u32OfBytes (length_slice (by omega))
                have toBytes :
                    u32Bytes (u32OfBytes (slice bytes 4 8)) = slice bytes 4 8 :=
                  u32Bytes_u32OfBytes (length_slice (by omega))
                rw [DkgShareMessage.toBytes, canonicalBytes]
                dsimp only
                rw [fromBytes, toBytes, shareBytes, ← field, pointBytes,
                  slice_append (by omega) (by omega),
                  slice_append (by omega) (by omega),
                  slice_append (by omega) (by omega),
                  slice_append (by omega) (by omega), slice_zero,
                  List.take_of_length_le (by omega)]
          · rw [if_pos structured]
            exact Or.inr ⟨_, rfl, calm _ (by decide) (by decide)⟩
  · rw [fromBytes, if_pos (by omega)]
    exact Or.inr ⟨_, rfl, calm _ (by decide) (by decide)⟩

theorem toBytes_of_fromBytes {bytes : Bytes} {msg : DkgShareMessage}
    (decoded : fromBytes bytes = .ok msg) : bytes = msg.toBytes := by
  rcases fromBytes_cases bytes with ⟨found, result, same⟩ | ⟨error, result, _⟩
  · rw [decoded, Except.ok.injEq] at result
    rw [result]
    exact same
  · rw [decoded] at result
    cases result

/-- The codec of share messages: every message survives a round trip, with any
number of commitments; a string is accepted only as the encoding of what it decodes
to; the decoder never panics; and lengths that no encoding has are refused. -/
theorem shareCodec_exact :
    (∀ msg : DkgShareMessage, fromBytes msg.toBytes = .ok msg) ∧
    (∀ bytes msg, fromBytes bytes = .ok msg → bytes = msg.toBytes) ∧
    (∀ bytes error, fromBytes bytes = .error error → ¬ error.IsPanic) ∧
    (∀ bytes : Bytes, (∀ count, bytes.length ≠ 88 + 96 * count) →
      ∃ error, fromBytes bytes = .error error) := by
  refine ⟨fromBytes_toBytes, fun _ _ => toBytes_of_fromBytes, ?_, ?_⟩
  · intro bytes error failed
    rcases fromBytes_cases bytes with ⟨found, result, _⟩ | ⟨other, result, calm⟩
    · rw [failed] at result
      cases result
    · rw [failed, Except.error.injEq] at result
      rw [result]
      exact calm
  · intro bytes unfit
    rcases fromBytes_cases bytes with ⟨msg, _, same⟩ | ⟨error, result, _⟩
    · have length := congrArg List.length same
      rw [length_toBytes] at length
      exact absurd length (unfit msg.commitments.length)
    · exact ⟨error, result⟩

end DkgShareMessage

end SovereignLattice
