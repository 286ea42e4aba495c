import SovereignLattice.Crypto.Curve
import SovereignLattice.Foundations.BigEndian

/-!
# Consensus messages

The phases, the signed statement of a vote and the message that carries it.
Every signature of the protocol is over `canonicalMsg`, one phase byte followed
by view, sequence and digest.
-/

namespace SovereignLattice

/-- `[u8; 32]`. -/
abbrev Digest : Type :=
  Vector UInt8 32

inductive Phase where
  | prePrepare
  | prepare
  | commit
  | viewChange
  | checkpoint
  deriving DecidableEq, Repr

namespace Phase

/-- `phase as u8`. -/
def toU8 : Phase → UInt8
  | .prePrepare => 0
  | .prepare => 1
  | .commit => 2
  | .viewChange => 3
  | .checkpoint => 4

theorem toU8_injective {first second : Phase}
    (same : first.toU8 = second.toU8) : first = second := by
  cases first <;> cases second <;> first | rfl | exact absurd same (by decide)

theorem toU8_le (phase : Phase) : ¬ phase.toU8 > checkpoint.toU8 := by
  cases phase <;> decide

/-- Every byte up to the last phase is a phase. -/
theorem exists_toU8 {byte : UInt8} (small : ¬ byte > checkpoint.toU8) :
    ∃ phase : Phase, byte = phase.toU8 := by
  have bound : byte.toNat ≤ 4 := by
    simpa [toU8, UInt8.lt_iff_toNat_lt] using small
  have cases : byte.toNat = 0 ∨ byte.toNat = 1 ∨ byte.toNat = 2 ∨
      byte.toNat = 3 ∨ byte.toNat = 4 := by
    omega
  rcases cases with value | value | value | value | value
  · exact ⟨prePrepare, UInt8.toNat_inj.mp value⟩
  · exact ⟨prepare, UInt8.toNat_inj.mp value⟩
  · exact ⟨commit, UInt8.toNat_inj.mp value⟩
  · exact ⟨viewChange, UInt8.toNat_inj.mp value⟩
  · exact ⟨checkpoint, UInt8.toNat_inj.mp value⟩

end Phase

/-- The bytes that a vote signs, as they are assembled at every signing and
checking site. -/
def canonicalMsg (phase : UInt8) (view seq : UInt64) (digest : Digest) : Bytes :=
  [phase] ++ u64Bytes view ++ u64Bytes seq ++ digest.toList

/-- Equal signed bytes are the same statement. -/
theorem canonicalMsg_injective
    {phase phase' : UInt8} {view view' seq seq' : UInt64}
    {digest digest' : Digest}
    (same : canonicalMsg phase view seq digest =
      canonicalMsg phase' view' seq' digest') :
    phase = phase' ∧ view = view' ∧ seq = seq' ∧ digest = digest' := by
  simp only [canonicalMsg, List.append_assoc, List.cons_append,
    List.nil_append, List.cons.injEq] at same
  obtain ⟨samePhase, fields⟩ := same
  rcases List.append_inj fields (by simp) with ⟨sameView, rest⟩
  rcases List.append_inj rest (by simp) with ⟨sameSeq, sameDigest⟩
  exact ⟨samePhase, u64Bytes_injective sameView, u64Bytes_injective sameSeq,
    Vector.toList_inj.mp sameDigest⟩

variable [Curve]

structure PbftMessage where
  phase : Phase
  view : UInt64
  seq : UInt64
  digest : Digest
  senderId : UInt32
  signature : G1Projective
  deriving DecidableEq

/-- The slot and digest that a message talks about, the key of the vote maps. -/
def PbftMessage.proposalKey (msg : PbftMessage) : UInt64 × UInt64 × Digest :=
  (msg.view, msg.seq, msg.digest)

/-- The statement that the message's signature must cover. -/
def PbftMessage.canonicalBytes (msg : PbftMessage) : Bytes :=
  canonicalMsg msg.phase.toU8 msg.view msg.seq msg.digest

end SovereignLattice
