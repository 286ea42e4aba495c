import Mathlib.LinearAlgebra.Lagrange

/-!
# Secret sharing by polynomial evaluation

Coefficient lists, the loop that evaluates them with a running power, and
interpolation at zero.  Values may live in any module over the field, so one
set of lemmas serves shares (in the field) and commitments and signatures (in a
group that the field acts on).
-/

namespace SovereignLattice

open Polynomial

universe u v w

variable {F : Type u} [Field F]
variable {M : Type v} [AddCommGroup M] [Module F M]

/-- The sum of `x ^ k • items[k]`, accumulated with a running power of `x`. -/
def powerSum (x : F) (items : List M) : M :=
  (items.foldl
    (fun (state : M × F) item => (state.1 + state.2 • item, state.2 * x))
    (0, 1)).1

private theorem foldl_powerSum (x : F) (items : List M) (total : M) (power : F) :
    (items.foldl
        (fun (state : M × F) item => (state.1 + state.2 • item, state.2 * x))
        (total, power)).1 =
      total + power • powerSum x items := by
  induction items generalizing total power with
  | nil => simp [powerSum]
  | cons item rest inductionHypothesis =>
      have unfolded :
          powerSum x (item :: rest) = (0 + (1 : F) • item) +
            (1 * x) • powerSum x rest := by
        rw [powerSum, List.foldl_cons]
        exact inductionHypothesis _ _
      rw [List.foldl_cons, inductionHypothesis, unfolded]
      module

@[simp]
theorem powerSum_nil (x : F) : powerSum x ([] : List M) = 0 :=
  rfl

/-- Horner's rule for the power loop. -/
@[simp]
theorem powerSum_cons (x : F) (item : M) (rest : List M) :
    powerSum x (item :: rest) = item + x • powerSum x rest := by
  rw [powerSum, List.foldl_cons, foldl_powerSum]
  module

/-- Evaluating commitments to coefficients commits to the evaluation. -/
theorem powerSum_map_smul (x : F) (coefficients : List F) (base : M) :
    powerSum x (coefficients.map fun coefficient => coefficient • base) =
      powerSum x coefficients • base := by
  induction coefficients with
  | nil => simp
  | cons coefficient rest inductionHypothesis =>
      rw [List.map_cons, powerSum_cons, powerSum_cons, inductionHypothesis]
      simp only [smul_eq_mul]
      module

/-- The loop computes the sum that its name says. -/
theorem powerSum_eq_sum (x : F) (items : List M) :
    powerSum x items = ∑ k : Fin items.length, x ^ (k : Nat) • items[k] := by
  induction items with
  | nil => simp
  | cons item rest inductionHypothesis =>
      rw [powerSum_cons, inductionHypothesis, Finset.smul_sum]
      simp only [List.length_cons, Fin.sum_univ_succ, smul_smul]
      simp [pow_succ']

/-! ## Sums of coefficient lists -/

theorem powerSum_replicate_zero (x : F) (length : Nat) :
    powerSum x (List.replicate length (0 : M)) = 0 := by
  induction length with
  | zero => rfl
  | succ length inductionHypothesis =>
      rw [List.replicate_succ, powerSum_cons, inductionHypothesis, smul_zero,
        add_zero]

theorem powerSum_zipWith_add (x : F) {left right : List M}
    (sameLength : left.length = right.length) :
    powerSum x (List.zipWith (· + ·) left right) =
      powerSum x left + powerSum x right := by
  induction left generalizing right with
  | nil =>
      cases right with
      | nil => simp
      | cons => simp at sameLength
  | cons first left inductionHypothesis =>
      cases right with
      | nil => simp at sameLength
      | cons second right =>
          rw [List.length_cons, List.length_cons, Nat.succ_inj] at sameLength
          rw [List.zipWith_cons_cons, powerSum_cons, powerSum_cons, powerSum_cons,
            inductionHypothesis sameLength]
          module

/-- The coefficientwise sum of lists of one length. -/
def pointwiseSum (length : Nat) (lists : List (List M)) : List M :=
  lists.foldr (List.zipWith (· + ·)) (List.replicate length 0)

theorem length_pointwiseSum {length : Nat} {lists : List (List M)}
    (lengths : ∀ items ∈ lists, items.length = length) :
    (pointwiseSum length lists).length = length := by
  induction lists with
  | nil => exact List.length_replicate
  | cons items rest inductionHypothesis =>
      have tail := inductionHypothesis fun other member =>
        lengths other (List.mem_cons_of_mem items member)
      have head := lengths items List.mem_cons_self
      rw [pointwiseSum, List.foldr_cons, ← pointwiseSum, List.length_zipWith,
        head, tail, Nat.min_self]

/-- A sum of polynomials is evaluated summand by summand. -/
theorem powerSum_pointwiseSum (x : F) {length : Nat} {lists : List (List M)}
    (lengths : ∀ items ∈ lists, items.length = length) :
    powerSum x (pointwiseSum length lists) = (lists.map (powerSum x)).sum := by
  induction lists with
  | nil => exact powerSum_replicate_zero x length
  | cons items rest inductionHypothesis =>
      have tailLengths : ∀ other ∈ rest, other.length = length :=
        fun other member => lengths other (List.mem_cons_of_mem items member)
      have sameLength : items.length = (pointwiseSum length rest).length := by
        rw [length_pointwiseSum tailLengths, lengths items List.mem_cons_self]
      rw [pointwiseSum, List.foldr_cons, ← pointwiseSum,
        powerSum_zipWith_add x sameLength, inductionHypothesis tailLengths,
        List.map_cons, List.sum_cons]

/-- The polynomial with the given coefficients, constant term first. -/
noncomputable def coefficientPolynomial : List F → F[X]
  | [] => 0
  | coefficient :: rest => C coefficient + X * coefficientPolynomial rest

theorem eval_coefficientPolynomial (coefficients : List F) (x : F) :
    (coefficientPolynomial coefficients).eval x = powerSum x coefficients := by
  induction coefficients with
  | nil => simp [coefficientPolynomial]
  | cons coefficient rest inductionHypothesis =>
      simp [coefficientPolynomial, inductionHypothesis]

theorem degree_coefficientPolynomial_lt (coefficients : List F) :
    (coefficientPolynomial coefficients).degree <
      (coefficients.length : WithBot Nat) := by
  induction coefficients with
  | nil => simp [coefficientPolynomial]
  | cons coefficient rest inductionHypothesis =>
      rw [coefficientPolynomial]
      have constantBound :
          (C coefficient).degree < ((rest.length + 1 : Nat) : WithBot Nat) :=
        degree_C_lt.trans_le (by exact_mod_cast Nat.succ_le_succ (Nat.zero_le _))
      have shiftedBound :
          (X * coefficientPolynomial rest).degree <
            ((rest.length + 1 : Nat) : WithBot Nat) := by
        rw [degree_mul, degree_X, add_comm]
        by_cases vanishes : coefficientPolynomial rest = 0
        · simp [vanishes]
        · rw [degree_eq_natDegree vanishes] at inductionHypothesis ⊢
          exact_mod_cast Nat.succ_lt_succ (by exact_mod_cast inductionHypothesis)
      exact (degree_add_le _ _).trans_lt (max_lt constantBound shiftedBound)

/-- The constant term is the value at zero. -/
theorem powerSum_zero_cons (item : M) (rest : List M) :
    powerSum (0 : F) (item :: rest) = item := by
  simp

variable {ι : Type w} [DecidableEq ι]

/-- The weight of a node when interpolating at zero. -/
def weightAtZero (nodes : Finset ι) (point : ι → F) (node : ι) : F :=
  (∏ other ∈ nodes.erase node, -point other) *
    (∏ other ∈ nodes.erase node, (point node - point other))⁻¹

private theorem eval_basis_zero (nodes : Finset ι) (point : ι → F) (node : ι) :
    (Lagrange.basis nodes point node).eval 0 =
      weightAtZero nodes point node := by
  rw [Lagrange.basis, eval_prod, weightAtZero, ← Finset.prod_inv_distrib,
    ← Finset.prod_mul_distrib]
  apply Finset.prod_congr rfl
  intro other _
  simp only [Lagrange.basisDivisor, eval_mul, eval_C, eval_sub, eval_X]
  ring

/-- Interpolation at zero in a module: as many distinct evaluations as the
polynomial has coefficients determine its constant term. -/
theorem sum_weightAtZero_smul
    {nodes : Finset ι} {point : ι → F} {coefficients : List F}
    (distinct : Set.InjOn point nodes)
    (enough : coefficients.length ≤ nodes.card) (base : M) :
    ∑ node ∈ nodes,
        weightAtZero nodes point node •
          (powerSum (point node) coefficients • base) =
      powerSum (0 : F) coefficients • base := by
  have degreeBound :
      (coefficientPolynomial coefficients).degree < nodes.card :=
    (degree_coefficientPolynomial_lt coefficients).trans_le
      (by exact_mod_cast enough)
  have interpolated :=
    Lagrange.eq_interpolate_of_eval_eq
      (fun node => powerSum (point node) coefficients) distinct degreeBound
      (fun node _ => eval_coefficientPolynomial coefficients (point node))
  have atZero := congrArg (Polynomial.eval 0) interpolated
  rw [eval_coefficientPolynomial, Lagrange.interpolate_apply, eval_finsetSum]
    at atZero
  rw [atZero, Finset.sum_smul]
  apply Finset.sum_congr rfl
  intro node _
  rw [eval_mul, eval_C, eval_basis_zero, smul_smul, mul_comm]

end SovereignLattice
