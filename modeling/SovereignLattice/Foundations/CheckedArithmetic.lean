import Mathlib.Algebra.Order.Group.Nat
import Mathlib.Tactic.Ring

/-!
# Checked machine arithmetic

The operations of unsigned 64-bit integers, with nothing as the result where the
exact value leaves the type.
-/

namespace SovereignLattice
namespace Checked

def add (left right : UInt64) : Option UInt64 :=
  if left.toNat + right.toNat < 2 ^ 64 then some (left + right) else none

def sub (left right : UInt64) : Option UInt64 :=
  if right.toNat ≤ left.toNat then some (left - right) else none

def mul (left right : UInt64) : Option UInt64 :=
  if left.toNat * right.toNat < 2 ^ 64 then some (left * right) else none

variable {left right : UInt64} {leftValue rightValue : Nat}

theorem add_eq_some (leftExact : left.toNat = leftValue)
    (rightExact : right.toNat = rightValue)
    (fits : leftValue + rightValue < 2 ^ 64) :
    ∃ sum, add left right = some sum ∧ sum.toNat = leftValue + rightValue := by
  subst leftExact rightExact
  refine ⟨left + right, if_pos fits, ?_⟩
  rw [UInt64.toNat_add, Nat.mod_eq_of_lt fits]

theorem sub_eq_some (leftExact : left.toNat = leftValue)
    (rightExact : right.toNat = rightValue) (below : rightValue ≤ leftValue) :
    ∃ difference, sub left right = some difference ∧
      difference.toNat = leftValue - rightValue := by
  subst leftExact rightExact
  refine ⟨left - right, if_pos below, ?_⟩
  exact UInt64.toNat_sub_of_le left right (UInt64.le_iff_toNat_le.mpr below)

theorem sub_eq_none (underflows : left.toNat < right.toNat) :
    sub left right = none :=
  if_neg (Nat.not_le.mpr underflows)

theorem mul_eq_some (leftExact : left.toNat = leftValue)
    (rightExact : right.toNat = rightValue)
    (fits : leftValue * rightValue < 2 ^ 64) :
    ∃ product, mul left right = some product ∧
      product.toNat = leftValue * rightValue := by
  subst leftExact rightExact
  refine ⟨left * right, if_pos fits, ?_⟩
  rw [UInt64.toNat_mul, Nat.mod_eq_of_lt fits]

theorem mul_eq_none (overflows : 2 ^ 64 ≤ left.toNat * right.toNat) :
    mul left right = none :=
  if_neg (Nat.not_lt.mpr overflows)

end Checked
end SovereignLattice
