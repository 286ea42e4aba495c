import SovereignLattice.Foundations.BigEndian

/-!
# Length-prefixed fields

Fields one after the other, each behind its length in four bytes.  Fields
shorter than `2 ^ 32` bytes can be read back one by one, whatever they contain
and whatever follows them.
-/

namespace SovereignLattice

universe u v

/-- A computation that goes on after a first step succeeds when both parts do. -/
theorem bind_eq_ok {ε : Type u} {α β : Type v} {first : Except ε α}
    {next : α → Except ε β} {result : β} :
    (first >>= next) = .ok result ↔
      ∃ value, first = .ok value ∧ next value = .ok result := by
  cases first with
  | error error =>
      constructor
      · intro impossible
        cases impossible
      · intro found
        rcases found with ⟨value, impossible, _⟩
        cases impossible
  | ok value =>
      constructor
      · intro rest
        exact ⟨value, rfl, rest⟩
      · intro found
        rcases found with ⟨other, same, rest⟩
        cases same
        exact rest

/-- A field behind its length. -/
def lengthPrefixed (field : List UInt8) : List UInt8 :=
  u32Bytes (UInt32.ofNat field.length) ++ field

/-- Fields one after the other. -/
def lengthPrefixedAll (fields : List (List UInt8)) : List UInt8 :=
  (fields.map lengthPrefixed).flatten

@[simp]
theorem lengthPrefixedAll_nil : lengthPrefixedAll [] = [] :=
  rfl

@[simp]
theorem lengthPrefixedAll_cons (field : List UInt8)
    (rest : List (List UInt8)) :
    lengthPrefixedAll (field :: rest) =
      lengthPrefixed field ++ lengthPrefixedAll rest :=
  rfl

theorem lengthPrefixedAll_append (first second : List (List UInt8)) :
    lengthPrefixedAll (first ++ second) =
      lengthPrefixedAll first ++ lengthPrefixedAll second := by
  simp [lengthPrefixedAll]

/-- The first field and what follows it are determined. -/
theorem lengthPrefixed_append_inj {first second rest rest' : List UInt8}
    (firstShort : first.length < 2 ^ 32) (secondShort : second.length < 2 ^ 32)
    (same : lengthPrefixed first ++ rest = lengthPrefixed second ++ rest') :
    first = second ∧ rest = rest' := by
  rw [lengthPrefixed, lengthPrefixed, List.append_assoc, List.append_assoc]
    at same
  rcases List.append_inj same (by simp) with ⟨prefixes, fields⟩
  have lengths : first.length = second.length := by
    have words := congrArg UInt32.toNat (u32Bytes_injective prefixes)
    rw [UInt32.toNat_ofNat_of_lt' firstShort,
      UInt32.toNat_ofNat_of_lt' secondShort] at words
    exact words
  exact List.append_inj fields lengths

/-- A field list is read back from its encoding. -/
theorem lengthPrefixedAll_injective {first second : List (List UInt8)}
    (firstShort : ∀ field ∈ first, field.length < 2 ^ 32)
    (secondShort : ∀ field ∈ second, field.length < 2 ^ 32)
    (same : lengthPrefixedAll first = lengthPrefixedAll second) :
    first = second := by
  induction first generalizing second with
  | nil =>
      cases second with
      | nil => rfl
      | cons field rest =>
          have lengths := congrArg List.length same
          simp [lengthPrefixed] at lengths
          omega
  | cons field rest inductionHypothesis =>
      cases second with
      | nil =>
          have lengths := congrArg List.length same
          simp [lengthPrefixed] at lengths
      | cons other others =>
          rw [List.forall_mem_cons] at firstShort secondShort
          rw [lengthPrefixedAll_cons, lengthPrefixedAll_cons] at same
          rcases lengthPrefixed_append_inj firstShort.1 secondShort.1 same with
            ⟨rfl, tails⟩
          rw [inductionHypothesis firstShort.2 secondShort.2 tails]

/-- Encodings that start with different fields differ. -/
theorem lengthPrefixedAll_ne_of_head {first second : List UInt8}
    {rest rest' : List (List UInt8)} (firstShort : first.length < 2 ^ 32)
    (secondShort : second.length < 2 ^ 32) (different : first ≠ second) :
    lengthPrefixedAll (first :: rest) ≠ lengthPrefixedAll (second :: rest') := by
  intro same
  rw [lengthPrefixedAll_cons, lengthPrefixedAll_cons] at same
  exact different (lengthPrefixed_append_inj firstShort secondShort same).1

/-- The length of a short field starts with a zero byte. -/
theorem head_lengthPrefixedAll {field : List UInt8} {rest : List (List UInt8)}
    (short : field.length < 2 ^ 24) :
    (lengthPrefixedAll (field :: rest)).head? = some 0 := by
  have word : (UInt32.ofNat field.length).toNat = field.length :=
    UInt32.toNat_ofNat_of_lt' (short.trans (by decide))
  have high : field.length / 256 ^ 3 = 0 :=
    Nat.div_eq_of_lt (short.trans_eq (by decide))
  rw [lengthPrefixedAll_cons, lengthPrefixed, u32Bytes, word, beBytes, high]
  rfl

/-! ## Writing fields -/

/-- Append a field behind its length, or fail where the length does not fit. -/
def pushField {ε : Type u} (tooLong : ε) (output field : List UInt8) :
    Except ε (List UInt8) :=
  if field.length < 2 ^ 32 then
    .ok (output ++ lengthPrefixed field)
  else
    .error tooLong

/-- A loop that writes fields succeeds exactly when they are short. -/
theorem foldlM_pushField {ε : Type u} {α : Type v} {tooLong : ε}
    {encode : α → List UInt8} {fields : List α} {output result : List UInt8} :
    fields.foldlM (fun output field => pushField tooLong output (encode field))
        output = .ok result ↔
      (∀ field ∈ fields, (encode field).length < 2 ^ 32) ∧
        result = output ++ lengthPrefixedAll (fields.map encode) := by
  induction fields generalizing output with
  | nil =>
      rw [List.foldlM_nil]
      simp [pure, Except.pure, eq_comm]
  | cons field rest inductionHypothesis =>
      rw [List.foldlM_cons, List.forall_mem_cons, List.map_cons,
        lengthPrefixedAll_cons, ← List.append_assoc, pushField]
      by_cases short : (encode field).length < 2 ^ 32
      · rw [if_pos short]
        have tail := @inductionHypothesis (output ++ lengthPrefixed (encode field))
        constructor
        · intro folded
          have both := tail.mp folded
          exact ⟨⟨short, both.1⟩, both.2⟩
        · intro both
          exact tail.mpr ⟨both.1.2, both.2⟩
      · rw [if_neg short]
        constructor
        · intro folded
          cases folded
        · intro both
          exact absurd both.1.1 short

end SovereignLattice
