import SovereignLattice.Dkg.ShareMessage
import SovereignLattice.Network.Codecs

/-!
# Framed packets on a connection (`network.rs`)

`send_framed_message` writes a length that counts the type byte, the type byte and
the payload.  `handle_connection` reads the same three parts, with a window on the
length, and hands the payload to the decoder of its type.
-/

namespace SovereignLattice

/-- `MAX_PACKET_SIZE`. -/
def maxPacketSize : Nat :=
  8192

/-- `PACKET_TYPE_DKG`. -/
def packetTypeDkg : UInt8 :=
  0x01

/-- `PACKET_TYPE_PBFT`. -/
def packetTypePbft : UInt8 :=
  0x02

/-- `PACKET_TYPE_VC`. -/
def packetTypeVc : UInt8 :=
  0x03

/-- What `send_framed_message` writes to the stream.  The length is cut to 32 bits
by the cast. -/
def sendFramedMessage (packetType : UInt8) (payload : Bytes) : Bytes :=
  u32Bytes (UInt32.ofNat (payload.length + 1)) ++ ([packetType] ++ payload)

/-- The errors of `handle_connection` up to the end of decoding. -/
inductive ReceiveError where
  | earlyEof
  | invalidPacketSize
  | dkgDecode (error : ShareDecodeError)
  | pbftDecode (error : DecodeError)
  | vcDecode (error : DecodeError)
  | unknownPacketType
  deriving DecidableEq, Repr

def ReceiveError.text : ReceiveError → String
  | .earlyEof => "early eof"
  | .invalidPacketSize => "INVALID_PACKET_SIZE"
  | .dkgDecode error => "DKG_DECODE_ERR: " ++ error.text
  | .pbftDecode error => "PBFT_DECODE_ERR: " ++ error.text
  | .vcDecode error => "VC_DECODE_ERR: " ++ error.text
  | .unknownPacketType => "UNKNOWN_PACKET_TYPE"

/-- `read_exact` from the stream: the bytes read and what follows them. -/
def readExact (stream : Bytes) (count : Nat) :
    Except ReceiveError (Bytes × Bytes) :=
  if stream.length < count then
    .error .earlyEof
  else
    .ok (stream.take count, stream.drop count)

section Framing

variable [Curve] [Encodings]

/-- A packet after framing and decoding. -/
inductive Inbound where
  | dkg (msg : DkgShareMessage)
  | consensus (packet : Packet)
  deriving DecidableEq

/-- The `match packet_type`, as far as the decoders. -/
def decodePayload (packetType : UInt8) (payload : Bytes) :
    Except ReceiveError Inbound :=
  if packetType = packetTypeDkg then
    match DkgShareMessage.fromBytes payload with
    | .error error => .error (.dkgDecode error)
    | .ok msg => .ok (.dkg msg)
  else if packetType = packetTypePbft then
    match PbftMessage.fromBytes payload with
    | .error error => .error (.pbftDecode error)
    | .ok msg => .ok (.consensus (.pbft msg))
  else if packetType = packetTypeVc then
    match ViewChangePayload.fromBytes payload with
    | .error error => .error (.vcDecode error)
    | .ok payload => .ok (.consensus (.viewChange payload))
  else
    .error .unknownPacketType

/-- The reading half of `handle_connection`. -/
def receivePacket (stream : Bytes) : Except ReceiveError Inbound := do
  let (lenBytes, afterLen) ← readExact stream 4
  let length := (u32OfBytes lenBytes).toNat
  if length > maxPacketSize ∨ length < 2 then
    .error .invalidPacketSize
  else
    let (packetTypeBuf, afterType) ← readExact afterLen 1
    let (payload, _) ← readExact afterType (length - 1)
    decodePayload (packetTypeBuf.getD 0 0) payload

omit [Curve] [Encodings] in
theorem readExact_append {field : Bytes} {count : Nat}
    (width : field.length = count) (rest : Bytes) :
    readExact (field ++ rest) count = .ok (field, rest) := by
  have enough : ¬ (field ++ rest).length < count := by
    rw [List.length_append]
    omega
  rw [readExact, if_neg enough, List.take_left' width, List.drop_left' width]

/-- The receiver of a frame looks at the length that the cast has left. -/
theorem receivePacket_framed (packetType : UInt8) (payload rest : Bytes) :
    receivePacket (sendFramedMessage packetType payload ++ rest) =
      if (payload.length + 1) % 2 ^ 32 > maxPacketSize ∨
          (payload.length + 1) % 2 ^ 32 < 2 then
        .error .invalidPacketSize
      else
        (readExact (payload ++ rest) ((payload.length + 1) % 2 ^ 32 - 1)).bind
          fun read => decodePayload packetType read.1 := by
  have layout : sendFramedMessage packetType payload ++ rest =
      u32Bytes (UInt32.ofNat (payload.length + 1)) ++
        ([packetType] ++ (payload ++ rest)) := by
    simp [sendFramedMessage]
  have cut : (UInt32.ofNat (payload.length + 1)).toNat =
      (payload.length + 1) % 2 ^ 32 :=
    UInt32.toNat_ofNat'
  have first := readExact_append
    (length_u32Bytes (UInt32.ofNat (payload.length + 1)))
    ([packetType] ++ (payload ++ rest))
  have second : readExact ([packetType] ++ (payload ++ rest)) 1 =
      .ok ([packetType], payload ++ rest) :=
    readExact_append rfl _
  rw [receivePacket, layout, first]
  simp only [bind, Except.bind, u32OfBytes_u32Bytes, cut, second,
    List.getD_cons_zero]

theorem receivePacket_of_fits {packetType : UInt8} {payload : Bytes}
    (nonempty : 0 < payload.length) (fits : payload.length + 1 ≤ maxPacketSize)
    (rest : Bytes) :
    receivePacket (sendFramedMessage packetType payload ++ rest) =
      decodePayload packetType payload := by
  have uncut : (payload.length + 1) % 2 ^ 32 = payload.length + 1 := by
    rw [maxPacketSize] at fits
    exact Nat.mod_eq_of_lt (by omega)
  have inside : ¬ (payload.length + 1 > maxPacketSize ∨
      payload.length + 1 < 2) := by
    omega
  rw [receivePacket_framed, uncut, if_neg inside, Nat.add_sub_cancel,
    readExact_append rfl]
  rfl

theorem decoded_of_receivePacket {packetType : UInt8} {payload rest : Bytes}
    {inbound : Inbound}
    (received : receivePacket (sendFramedMessage packetType payload ++ rest) =
      .ok inbound) :
    ∃ read : Bytes, read.length < maxPacketSize ∧
      decodePayload packetType read = .ok inbound := by
  rw [receivePacket_framed] at received
  split at received
  · cases received
  rename_i window
  rw [readExact] at received
  split at received
  · cases received
  refine ⟨_, ?_, received⟩
  rw [List.length_take]
  omega

theorem receivePacket_framedPbft (msg : PbftMessage) (rest : Bytes) :
    receivePacket (sendFramedMessage packetTypePbft msg.toBytes ++ rest) =
      .ok (.consensus (.pbft msg)) := by
  have decoded := PbftMessage.fromBytes_toBytes_append msg []
  rw [List.append_nil] at decoded
  rw [receivePacket_of_fits (by simp [PbftMessage.encodedLen])
      (by simp [PbftMessage.encodedLen, maxPacketSize]),
    decodePayload, if_neg (by decide), if_pos rfl, decoded]

/-- A share is received as it was sent exactly where it has at most 84 commitments;
consensus messages and view-change payloads always are. -/
theorem framed_received_iff :
    (∀ (msg : DkgShareMessage) (rest : Bytes),
      receivePacket (sendFramedMessage packetTypeDkg msg.toBytes ++ rest) =
          .ok (.dkg msg) ↔
        msg.commitments.length ≤ 84) ∧
    (∀ (msg : PbftMessage) (rest : Bytes),
      receivePacket (sendFramedMessage packetTypePbft msg.toBytes ++ rest) =
        .ok (.consensus (.pbft msg))) ∧
    (∀ (payload : ViewChangePayload) (rest : Bytes),
      receivePacket (sendFramedMessage packetTypeVc payload.toBytes ++ rest) =
        .ok (.consensus (.viewChange payload))) := by
  refine ⟨?_, receivePacket_framedPbft, ?_⟩
  · intro msg rest
    have width := DkgShareMessage.length_toBytes msg
    constructor
    · intro received
      rcases decoded_of_receivePacket received with ⟨read, short, decoded⟩
      rw [decodePayload, if_pos rfl] at decoded
      split at decoded
      · cases decoded
      rename_i found parsed
      cases decoded
      have whole := DkgShareMessage.toBytes_of_fromBytes parsed
      rw [whole, width, maxPacketSize] at short
      omega
    · intro few
      rw [receivePacket_of_fits (by omega) (by rw [width, maxPacketSize]; omega),
        decodePayload, if_pos rfl, DkgShareMessage.fromBytes_toBytes]
  · intro payload rest
    have decoded := ViewChangePayload.fromBytes_toBytes_append payload []
    rw [List.append_nil] at decoded
    rw [receivePacket_of_fits (by simp [ViewChangePayload.encodedLen])
        (by simp [ViewChangePayload.encodedLen, maxPacketSize]),
      decodePayload, if_neg (by decide), if_neg (by decide), if_pos rfl, decoded]

/-! ## The whole connection -/

/-- What a connection ends in: a share for the key generation, or what the node
sends in answer to a consensus packet. -/
inductive Served where
  | share (msg : DkgShareMessage)
  | answer (out : Option PbftMessage)
  deriving DecidableEq

inductive ServeError where
  | receive (error : ReceiveError)
  | connection (error : ConnectionError)
  deriving DecidableEq, Repr

/-- `handle_connection` on the bytes that the peer has written. -/
def Node.serve (node : Node) (stream : Bytes) (io : WalIo) :
    Except ServeError Served × Node :=
  match receivePacket stream with
  | .error error => (.error (.receive error), node)
  | .ok (.dkg msg) => (.ok (.share msg), node)
  | .ok (.consensus packet) =>
      match node.handleConnection packet io with
      | (.error error, after) => (.error (.connection error), after)
      | (.ok out, after) => (.ok (.answer out), after)

/-- A vote that a peer frames has the effect of the vote itself. -/
theorem Node.serve_framed (node : Node) (msg : PbftMessage) (io : WalIo) :
    (node.serve (sendFramedMessage packetTypePbft msg.toBytes) io).2 =
      (node.handlePbft msg io).2 := by
  have received := receivePacket_framedPbft msg []
  rw [List.append_nil] at received
  rw [serve, received]
  dsimp only
  rw [handleConnection]
  cases node.handlePbft msg io with
  | mk answer after => cases answer <;> rfl

end Framing

section SmallRun

attribute [local instance] smallCurve smallEncodings

def oversizedShare : DkgShareMessage where
  fromNode := 0
  toNode := 1
  share := 0
  commitments := List.replicate 85 0
  signature := 0

theorem oversizedShare_refused :
    ¬ ∀ msg : DkgShareMessage, 1 ≤ msg.commitments.length →
      receivePacket (sendFramedMessage packetTypeDkg msg.toBytes) =
        .ok (.dkg msg) := by
  intro receivable
  have received := receivable oversizedShare (by simp [oversizedShare])
  have width : oversizedShare.toBytes.length = 8248 := by
    simp [oversizedShare]
  have framed := receivePacket_framed packetTypeDkg oversizedShare.toBytes []
  rw [List.append_nil, width, if_pos (by decide), received] at framed
  cases framed

end SmallRun

end SovereignLattice
