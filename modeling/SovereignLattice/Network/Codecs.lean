import SovereignLattice.Crypto.SmallCurve
import SovereignLattice.Network.Connection

/-!
# The fixed-size wire formats

`to_bytes` and `from_bytes` of the consensus message, 101 bytes, and of the
view-change payload, 108 bytes.  Both decoders check that the input is long
enough and read only its head, so they invert the encoders and also accept an
encoding with anything behind it.
-/

namespace SovereignLattice

/-- The error strings of the two decoders. -/
inductive DecodeError where
  | invalidMessageLength
  | invalidPhase
  | invalidViewChangePayloadLength
  | invalidSignatureBytes
  deriving DecidableEq, Repr

def DecodeError.text : DecodeError → String
  | .invalidMessageLength => "INVALID_MESSAGE_LENGTH"
  | .invalidPhase => "INVALID_PHASE"
  | .invalidViewChangePayloadLength => "INVALID_VIEW_CHANGE_PAYLOAD_LENGTH"
  | .invalidSignatureBytes => "INVALID_SIGNATURE_BYTES"

/-- The `match bytes[0]` of the message decoder. -/
def Phase.ofU8 (byte : UInt8) : Option Phase :=
  if byte = 0 then some .prePrepare
  else if byte = 1 then some .prepare
  else if byte = 2 then some .commit
  else if byte = 3 then some .viewChange
  else if byte = 4 then some .checkpoint
  else none

@[simp]
theorem Phase.ofU8_toU8 (phase : Phase) : ofU8 phase.toU8 = some phase := by
  cases phase <;> rfl

theorem Phase.toU8_of_ofU8 {byte : UInt8} {phase : Phase}
    (decoded : ofU8 byte = some phase) : phase.toU8 = byte := by
  rw [ofU8] at decoded
  split_ifs at decoded with zero one two three four
  all_goals
    cases decoded
    subst byte
    rfl

section Codecs

variable [Curve]

/-! ## Consensus messages -/

namespace PbftMessage

/-- The length of an encoded message, `1 + 8 + 8 + 32 + 4 + 48`. -/
def encodedLen : Nat :=
  101

def toBytes (msg : PbftMessage) : Bytes :=
  [msg.phase.toU8] ++ (u64Bytes msg.view ++ (u64Bytes msg.seq ++
    (msg.digest.toList ++ (u32Bytes msg.senderId ++
      Curve.toCompressed msg.signature))))

def fromBytes (bytes : Bytes) : Except DecodeError PbftMessage :=
  if bytes.length < encodedLen then
    .error .invalidMessageLength
  else
    match Phase.ofU8 (bytes.getD 0 0) with
    | none => .error .invalidPhase
    | some phase =>
        match Curve.fromCompressed (slice bytes 53 101) with
        | none => .error .invalidSignatureBytes
        | some affine =>
            .ok
              { phase := phase
                view := u64OfBytes (slice bytes 1 9)
                seq := u64OfBytes (slice bytes 9 17)
                digest := digestOfBytes (slice bytes 17 49)
                senderId := u32OfBytes (slice bytes 49 53)
                signature := affine }

@[simp]
theorem length_toBytes (msg : PbftMessage) : msg.toBytes.length = encodedLen := by
  simp [toBytes, encodedLen]

/-- The fields in the order in which they are written. -/
def fields (msg : PbftMessage) : List Bytes :=
  [[msg.phase.toU8], u64Bytes msg.view, u64Bytes msg.seq, msg.digest.toList,
    u32Bytes msg.senderId, Curve.toCompressed msg.signature]

/-- The decoder reads back what the encoder has written, whatever follows. -/
theorem fromBytes_toBytes_append (msg : PbftMessage) (rest : Bytes) :
    fromBytes (msg.toBytes ++ rest) = .ok msg := by
  have layout : msg.toBytes ++ rest = msg.fields.flatten ++ rest := by
    simp [toBytes, fields]
  have long : ¬ (msg.toBytes ++ rest).length < encodedLen := by
    simp
  have phase : (msg.toBytes ++ rest).getD 0 0 = msg.phase.toU8 := by
    simp [toBytes]
  have view : slice (msg.toBytes ++ rest) 1 9 = u64Bytes msg.view :=
    slice_field layout 1 rfl rfl (by simp)
  have seq : slice (msg.toBytes ++ rest) 9 17 = u64Bytes msg.seq :=
    slice_field layout 2 rfl (by simp [fields]) (by simp)
  have digest : slice (msg.toBytes ++ rest) 17 49 = msg.digest.toList :=
    slice_field layout 3 rfl (by simp [fields]) (by simp)
  have sender : slice (msg.toBytes ++ rest) 49 53 = u32Bytes msg.senderId :=
    slice_field layout 4 rfl (by simp [fields]) (by simp)
  have point : slice (msg.toBytes ++ rest) 53 101 =
      Curve.toCompressed msg.signature :=
    slice_field layout 5 rfl (by simp [fields]) (by simp)
  rw [fromBytes, if_neg long]
  simp only [phase, view, seq, digest, sender, point, Phase.ofU8_toU8,
    Curve.fromCompressed_toCompressed, u64OfBytes_u64Bytes,
    u32OfBytes_u32Bytes, digestOfBytes_toList]

/-- What is decoded is the head of the input, and the rest is ignored. -/
theorem take_of_fromBytes {bytes : Bytes} {msg : PbftMessage}
    (decoded : fromBytes bytes = .ok msg) :
    encodedLen ≤ bytes.length ∧ bytes.take encodedLen = msg.toBytes := by
  rw [fromBytes] at decoded
  split at decoded
  · cases decoded
  rename_i long
  have enough : 101 ≤ bytes.length := Nat.not_lt.mp long
  split at decoded
  · cases decoded
  rename_i phase phaseDecoded
  split at decoded
  · cases decoded
  rename_i affine point
  rw [Except.ok.injEq] at decoded
  subst decoded
  have phaseByte : [phase.toU8] = slice bytes 0 1 := by
    rw [Phase.toU8_of_ofU8 phaseDecoded]
    exact (slice_one (by omega)).symm
  have viewBytes : u64Bytes (u64OfBytes (slice bytes 1 9)) = slice bytes 1 9 :=
    u64Bytes_u64OfBytes (length_slice (by omega))
  have seqBytes : u64Bytes (u64OfBytes (slice bytes 9 17)) = slice bytes 9 17 :=
    u64Bytes_u64OfBytes (length_slice (by omega))
  have digestBytes :
      (digestOfBytes (slice bytes 17 49)).toList = slice bytes 17 49 :=
    toList_digestOfBytes (length_slice (by omega))
  have senderBytes :
      u32Bytes (u32OfBytes (slice bytes 49 53)) = slice bytes 49 53 :=
    u32Bytes_u32OfBytes (length_slice (by omega))
  have pointBytes := Curve.toCompressed_of_fromCompressed _ _ point
  refine ⟨enough, ?_⟩
  rw [toBytes, phaseByte, viewBytes, seqBytes, digestBytes, senderBytes,
    pointBytes, slice_append (by decide) (by decide),
    slice_append (by decide) (by decide), slice_append (by decide) (by decide),
    slice_append (by decide) (by decide), slice_append (by decide) (by decide),
    slice_zero, encodedLen]

/-- A long enough string with a phase and a point in their places is decoded. -/
theorem fromBytes_isOk {bytes : Bytes} (long : encodedLen ≤ bytes.length)
    (phase : Phase.ofU8 (bytes.getD 0 0) ≠ none)
    (point : Curve.fromCompressed (slice bytes 53 101) ≠ none) :
    ∃ msg, fromBytes bytes = .ok msg := by
  rcases Option.ne_none_iff_exists'.mp phase with ⟨decodedPhase, samePhase⟩
  rcases Option.ne_none_iff_exists'.mp point with ⟨affine, samePoint⟩
  rw [fromBytes, if_neg (Nat.not_lt.mpr long), samePhase, samePoint]
  exact ⟨_, rfl⟩

/-- The decoder accepts only the encoding exactly where the string is not longer
than an encoding, or its phase or point is refused. -/
theorem fromBytes_exact_iff (bytes : Bytes) :
    (∀ msg, fromBytes bytes = .ok msg → bytes = msg.toBytes) ↔
      bytes.length ≤ encodedLen ∨ Phase.ofU8 (bytes.getD 0 0) = none ∨
        Curve.fromCompressed (slice bytes 53 101) = none := by
  constructor
  · intro exact
    by_contra refused
    rw [not_or, not_or, Nat.not_le] at refused
    rcases refused with ⟨longer, phase, point⟩
    rcases fromBytes_isOk longer.le phase point with ⟨msg, decoded⟩
    have length := congrArg List.length (exact msg decoded)
    rw [length_toBytes] at length
    omega
  · intro refused msg decoded
    rcases take_of_fromBytes decoded with ⟨long, head⟩
    rcases refused with short | phase | point
    · rw [← head, List.take_of_length_le short]
    · rw [fromBytes, if_neg (Nat.not_lt.mpr long), phase] at decoded
      cases decoded
    · rw [fromBytes, if_neg (Nat.not_lt.mpr long), point] at decoded
      split at decoded <;> cases decoded

end PbftMessage

/-! ## View-change payloads -/

namespace ViewChangePayload

/-- The length of an encoded payload, `8 + 8 + 8 + 32 + 4 + 48`. -/
def encodedLen : Nat :=
  108

def toBytes (payload : ViewChangePayload) : Bytes :=
  payload.canonicalBytes ++ (u32Bytes payload.senderId ++
    Curve.toCompressed payload.signature)

def fromBytes (bytes : Bytes) : Except DecodeError ViewChangePayload :=
  if bytes.length < encodedLen then
    .error .invalidViewChangePayloadLength
  else
    match Curve.fromCompressed (slice bytes 60 108) with
    | none => .error .invalidSignatureBytes
    | some affine =>
        .ok
          { targetView := u64OfBytes (slice bytes 0 8)
            preparedView := u64OfBytes (slice bytes 8 16)
            preparedSeq := u64OfBytes (slice bytes 16 24)
            digest := digestOfBytes (slice bytes 24 56)
            senderId := u32OfBytes (slice bytes 56 60)
            signature := affine }

@[simp]
theorem length_toBytes (payload : ViewChangePayload) :
    payload.toBytes.length = encodedLen := by
  simp [toBytes, canonicalBytes, encodedLen]

/-- The fields in the order in which they are written. -/
def fields (payload : ViewChangePayload) : List Bytes :=
  [u64Bytes payload.targetView, u64Bytes payload.preparedView,
    u64Bytes payload.preparedSeq, payload.digest.toList,
    u32Bytes payload.senderId, Curve.toCompressed payload.signature]

/-- The decoder reads back what the encoder has written, whatever follows. -/
theorem fromBytes_toBytes_append (payload : ViewChangePayload) (rest : Bytes) :
    fromBytes (payload.toBytes ++ rest) = .ok payload := by
  have layout : payload.toBytes ++ rest = payload.fields.flatten ++ rest := by
    simp [toBytes, canonicalBytes, fields]
  have long : ¬ (payload.toBytes ++ rest).length < encodedLen := by
    simp
  have target :
      slice (payload.toBytes ++ rest) 0 8 = u64Bytes payload.targetView :=
    slice_field layout 0 rfl rfl (by simp)
  have view :
      slice (payload.toBytes ++ rest) 8 16 = u64Bytes payload.preparedView :=
    slice_field layout 1 rfl (by simp [fields]) (by simp)
  have seq :
      slice (payload.toBytes ++ rest) 16 24 = u64Bytes payload.preparedSeq :=
    slice_field layout 2 rfl (by simp [fields]) (by simp)
  have digest :
      slice (payload.toBytes ++ rest) 24 56 = payload.digest.toList :=
    slice_field layout 3 rfl (by simp [fields]) (by simp)
  have sender :
      slice (payload.toBytes ++ rest) 56 60 = u32Bytes payload.senderId :=
    slice_field layout 4 rfl (by simp [fields]) (by simp)
  have point : slice (payload.toBytes ++ rest) 60 108 =
      Curve.toCompressed payload.signature :=
    slice_field layout 5 rfl (by simp [fields]) (by simp)
  rw [fromBytes, if_neg long]
  simp only [target, view, seq, digest, sender, point,
    Curve.fromCompressed_toCompressed, u64OfBytes_u64Bytes,
    u32OfBytes_u32Bytes, digestOfBytes_toList]

/-- What is decoded is the head of the input, and the rest is ignored. -/
theorem take_of_fromBytes {bytes : Bytes} {payload : ViewChangePayload}
    (decoded : fromBytes bytes = .ok payload) :
    encodedLen ≤ bytes.length ∧ bytes.take encodedLen = payload.toBytes := by
  rw [fromBytes] at decoded
  split at decoded
  · cases decoded
  rename_i long
  have enough : 108 ≤ bytes.length := Nat.not_lt.mp long
  split at decoded
  · cases decoded
  rename_i affine point
  rw [Except.ok.injEq] at decoded
  subst decoded
  have targetBytes : u64Bytes (u64OfBytes (slice bytes 0 8)) = slice bytes 0 8 :=
    u64Bytes_u64OfBytes (length_slice (by omega))
  have viewBytes :
      u64Bytes (u64OfBytes (slice bytes 8 16)) = slice bytes 8 16 :=
    u64Bytes_u64OfBytes (length_slice (by omega))
  have seqBytes :
      u64Bytes (u64OfBytes (slice bytes 16 24)) = slice bytes 16 24 :=
    u64Bytes_u64OfBytes (length_slice (by omega))
  have digestBytes :
      (digestOfBytes (slice bytes 24 56)).toList = slice bytes 24 56 :=
    toList_digestOfBytes (length_slice (by omega))
  have senderBytes :
      u32Bytes (u32OfBytes (slice bytes 56 60)) = slice bytes 56 60 :=
    u32Bytes_u32OfBytes (length_slice (by omega))
  have pointBytes := Curve.toCompressed_of_fromCompressed _ _ point
  refine ⟨enough, ?_⟩
  rw [toBytes, canonicalBytes, targetBytes, viewBytes, seqBytes, digestBytes,
    senderBytes, pointBytes, slice_append (by decide) (by decide),
    slice_append (by decide) (by decide), slice_append (by decide) (by decide),
    slice_append (by decide) (by decide), slice_append (by decide) (by decide),
    slice_zero, encodedLen]

/-- A long enough string with a point in its place is decoded. -/
theorem fromBytes_isOk {bytes : Bytes} (long : encodedLen ≤ bytes.length)
    (point : Curve.fromCompressed (slice bytes 60 108) ≠ none) :
    ∃ payload, fromBytes bytes = .ok payload := by
  rcases Option.ne_none_iff_exists'.mp point with ⟨affine, samePoint⟩
  rw [fromBytes, if_neg (Nat.not_lt.mpr long), samePoint]
  exact ⟨_, rfl⟩

/-- The decoder accepts only the encoding exactly where the string is not longer
than an encoding, or its point is refused. -/
theorem fromBytes_exact_iff (bytes : Bytes) :
    (∀ payload, fromBytes bytes = .ok payload → bytes = payload.toBytes) ↔
      bytes.length ≤ encodedLen ∨
        Curve.fromCompressed (slice bytes 60 108) = none := by
  constructor
  · intro exact
    by_contra refused
    rw [not_or, Nat.not_le] at refused
    rcases refused with ⟨longer, point⟩
    rcases fromBytes_isOk longer.le point with ⟨payload, decoded⟩
    have length := congrArg List.length (exact payload decoded)
    rw [length_toBytes] at length
    omega
  · intro refused payload decoded
    rcases take_of_fromBytes decoded with ⟨long, head⟩
    rcases refused with short | point
    · rw [← head, List.take_of_length_le short]
    · rw [fromBytes, if_neg (Nat.not_lt.mpr long), point] at decoded
      cases decoded

end ViewChangePayload

/-! ## Exactness of both formats -/

/-- Both decoders invert their encoders, and each accepts a string that is not an
encoding exactly where an encoding of its format is followed by more bytes: the
string is too long while the fields that can be refused are well formed. -/
theorem fixedCodecs_exact_iff :
    (∀ msg : PbftMessage, PbftMessage.fromBytes msg.toBytes = .ok msg) ∧
    (∀ payload : ViewChangePayload,
      ViewChangePayload.fromBytes payload.toBytes = .ok payload) ∧
    (∀ bytes : Bytes,
      (∀ msg, PbftMessage.fromBytes bytes = .ok msg → bytes = msg.toBytes) ↔
        bytes.length ≤ 101 ∨ Phase.ofU8 (bytes.getD 0 0) = none ∨
          Curve.fromCompressed (slice bytes 53 101) = none) ∧
    (∀ bytes : Bytes,
      (∀ payload, ViewChangePayload.fromBytes bytes = .ok payload →
          bytes = payload.toBytes) ↔
        bytes.length ≤ 108 ∨
          Curve.fromCompressed (slice bytes 60 108) = none) := by
  refine ⟨?_, ?_, PbftMessage.fromBytes_exact_iff,
    ViewChangePayload.fromBytes_exact_iff⟩
  · intro msg
    simpa using PbftMessage.fromBytes_toBytes_append msg []
  · intro payload
    simpa using ViewChangePayload.fromBytes_toBytes_append payload []

end Codecs

section SmallRun

attribute [local instance] smallCurve

def zeroMessage : PbftMessage where
  phase := .prePrepare
  view := 0
  seq := 0
  digest := zeroDigest
  senderId := 0
  signature := 0

def zeroPayload : ViewChangePayload where
  targetView := 0
  preparedView := 0
  preparedSeq := 0
  digest := zeroDigest
  senderId := 0
  signature := 0

/-- An encoding with one byte behind it, 102 and 109 bytes in all, is decoded. -/
theorem trailingByte_accepted :
    (PbftMessage.fromBytes (zeroMessage.toBytes ++ [7]) = .ok zeroMessage ∧
      zeroMessage.toBytes ++ [7] ≠ zeroMessage.toBytes) ∧
    (ViewChangePayload.fromBytes (zeroPayload.toBytes ++ [7]) =
        .ok zeroPayload ∧
      zeroPayload.toBytes ++ [7] ≠ zeroPayload.toBytes) := by
  refine ⟨⟨PbftMessage.fromBytes_toBytes_append zeroMessage [7], ?_⟩,
    ViewChangePayload.fromBytes_toBytes_append zeroPayload [7], ?_⟩
  · intro same
    have length := congrArg List.length same
    simp at length
  · intro same
    have length := congrArg List.length same
    simp at length

end SmallRun

end SovereignLattice
