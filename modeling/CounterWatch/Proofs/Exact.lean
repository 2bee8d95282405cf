import Mathlib.Algebra.Order.Chebyshev
import Mathlib.Analysis.SpecialFunctions.Pow.Real
import CounterWatch.Feature

/-!
# Exact arithmetic

Features and models are written over any type with their operations. Over the real numbers nothing
is rounded: this is the arithmetic that their formulas are meant in, and what is proved there holds
of the program up to rounding.

* The instance gives each operation its mathematical meaning; every value is finite.
* `Scalar.sum_exact`, `Scalar.mean_exact` and `Scalar.meanSquare_exact` are the statistics that the
  rest is built from, `Scalar.mean_map_sub_div` and `Scalar.meanSquare_map_sub_div` say how they
  depend on origin and unit, and `Scalar.sq_sub_mean_le` bounds how far one of some values can lie
  from their mean.
-/

namespace CounterWatch

noncomputable instance : Scalar ℝ where
  decLt a b := Real.decidableLT a b
  decLe a b := Real.decidableLE a b
  sortLe a b := decide (a ≤ b)
  isFinite _ := true
  ofNat n := n
  floor x := ⌊x⌋₊
  ceil x := ⌈x⌉₊
  sqrt := Real.sqrt
  log := Real.log
  exp := Real.exp
  exp2 x := 2 ^ x

namespace Scalar

@[simp] theorem isFinite_exact (x : ℝ) : isFinite x = true := rfl

@[simp] theorem ofNat_exact (n : ℕ) : (ofNat n : ℝ) = n := rfl

@[simp] theorem floor_exact (x : ℝ) : floor x = ⌊x⌋₊ := rfl

@[simp] theorem ceil_exact (x : ℝ) : ceil x = ⌈x⌉₊ := rfl

@[simp] theorem sortLe_exact (x y : ℝ) : sortLe x y = decide (x ≤ y) := rfl

@[simp] theorem square_exact (x : ℝ) : square x = x ^ 2 := (sq x).symm

@[simp] theorem zero_exact : (0.0 : ℝ) = 0 := by norm_num

@[simp] theorem one_exact : (1.0 : ℝ) = 1 := by norm_num

/-- Counts that are divided by are positive. -/
theorem max_one_pos (n : ℕ) : (0 : ℝ) < (max 1 n : ℕ) :=
  Nat.cast_pos.2 (Nat.lt_of_lt_of_le Nat.one_pos (Nat.le_max_left ..))

theorem abs_exact (x : ℝ) : abs x = |x| := by
  rw [abs, zero_exact]
  split_ifs with negative
  · exact (abs_of_neg negative).symm
  · exact (abs_of_nonneg (not_lt.1 negative)).symm

theorem clamp_exact {lo hi : ℝ} (le : lo ≤ hi) (x : ℝ) : clamp lo hi x = max lo (min hi x) := by
  rw [clamp]
  split_ifs with below above
  · rw [max_eq_left (min_le_of_right_le below.le)]
  · rw [min_eq_left above.le, max_eq_right le]
  · rw [min_eq_right (not_lt.1 above), max_eq_right (not_lt.1 below)]

/-! ## Statistics -/

theorem sum_exact (xs : List ℝ) : sum xs = xs.sum := by
  rw [sum, zero_exact, neg_zero, List.sum_eq_foldl]

theorem mean_exact (xs : List ℝ) : mean xs = xs.sum / xs.length := by
  rw [mean, sum_exact, ofNat_exact]

theorem meanSquare_exact (xs : List ℝ) (c : ℝ) :
    meanSquare xs c = (xs.map fun x => (x - c) ^ 2).sum / xs.length := by
  simp only [meanSquare, sum_exact, ofNat_exact, square_exact]

theorem sum_sq_nonneg {β : Type} (f : β → ℝ) (xs : List β) : 0 ≤ (xs.map fun x => f x ^ 2).sum := by
  refine List.sum_nonneg fun y mem => ?_
  obtain ⟨x, -, rfl⟩ := List.mem_map.1 mem
  exact sq_nonneg _

theorem meanSquare_nonneg (xs : List ℝ) (c : ℝ) : 0 ≤ meanSquare xs c := by
  rw [meanSquare_exact]
  exact div_nonneg (sum_sq_nonneg (· - c) xs) (Nat.cast_nonneg _)

/-- A sum with its terms made one by one. -/
theorem foldl_add_exact {β : Type} (f : β → ℝ) (xs : List β) (a : ℝ) :
    xs.foldl (fun sum x => sum + f x) a = a + (xs.map f).sum := by
  induction xs generalizing a with
  | nil => simp
  | cons x xs ih => rw [List.foldl_cons, ih, List.map_cons, List.sum_cons, add_assoc]

/-- The mean moves with the origin and the unit. -/
theorem mean_map_sub_div {xs : List ℝ} (some : xs ≠ []) (m c : ℝ) :
    mean (xs.map fun x => (x - m) / c) = (mean xs - m) / c := by
  have count : (xs.length : ℝ) ≠ 0 := by simpa using some
  have sum : (xs.map fun x => (x - m) / c).sum = (xs.sum - xs.length * m) / c := by
    simp only [div_eq_mul_inv, sub_eq_add_neg, List.sum_map_mul_right, List.sum_map_add,
      List.map_id', List.map_const', List.sum_replicate, nsmul_eq_mul, mul_neg]
  rw [mean_exact, mean_exact, sum, List.length_map]
  field_simp

/-- Squares of distances are measured in squares of the unit, from wherever. -/
theorem meanSquare_map_sub_div (xs : List ℝ) (a m c : ℝ) :
    meanSquare (xs.map fun x => (x - m) / c) ((a - m) / c) = meanSquare xs a / c ^ 2 := by
  have term (x : ℝ) : ((x - m) / c - (a - m) / c) ^ 2 = (x - a) ^ 2 * (c ^ 2)⁻¹ := by
    rw [← sub_div, sub_sub_sub_cancel_right, div_pow, div_eq_mul_inv]
  simp only [meanSquare_exact, List.map_map, Function.comp_def, term, List.sum_map_mul_right,
    List.length_map]
  rw [← div_eq_mul_inv, div_right_comm]

/-- The square of a sum against the sum of the squares. -/
theorem sq_sum_le (xs : List ℝ) :
    xs.sum ^ 2 ≤ xs.length * (xs.map fun x => x ^ 2).sum := by
  have bound := sq_sum_le_card_mul_sum_sq (s := Finset.univ) (f := fun i : Fin xs.length => xs[i.1])
  rwa [Finset.card_univ, Fintype.card_fin, Fin.sum_univ_getElem,
    Fin.sum_univ_fun_getElem xs fun x => x ^ 2] at bound

/-- The distances to the mean cancel out. -/
theorem sum_sub_mean {xs : List ℝ} (some : xs ≠ []) : (xs.map fun x => x - mean xs).sum = 0 := by
  have count : (xs.length : ℝ) ≠ 0 := by simpa using some
  simp only [sub_eq_add_neg, List.sum_map_add, List.map_id', List.map_const', List.sum_replicate,
    nsmul_eq_mul, mean_exact]
  rw [mul_neg, mul_div_cancel₀ _ count, add_neg_cancel]

/-- **One of some values lies near their mean**, by the spread of all of them, itself included: the
square of its distance is at most the variance times the count of the others. -/
theorem sq_sub_mean_le (xs : List ℝ) (x : ℝ) :
    (x - mean (xs ++ [x])) ^ 2
      ≤ xs.length * meanSquare (xs ++ [x]) (mean (xs ++ [x])) := by
  have count : (0 : ℝ) < xs.length + 1 := by positivity
  have cancel := sum_sub_mean (List.append_ne_nil_of_right_ne_nil xs (List.cons_ne_nil x []))
  rw [meanSquare_exact]
  set c := mean (xs ++ [x])
  -- the others make up for the one value, so that their squares are not small either
  have others := sq_sum_le (xs.map fun v => v - c)
  simp only [List.map_append, List.map_singleton, List.sum_append, List.sum_singleton,
    List.length_append, List.length_singleton, List.length_map, List.map_map,
    Function.comp_def, Nat.cast_add, Nat.cast_one] at cancel others ⊢
  have balance : (xs.map fun v => v - c).sum = -(x - c) := by linarith
  rw [balance, neg_sq] at others
  rw [← mul_div_assoc, le_div_iff₀ count]
  linarith

end Scalar

@[simp] theorem FeatureVector.isFinite_exact (v : FeatureVector ℝ) : v.isFinite = true := by
  simp [FeatureVector.isFinite]

/-- No row is left out for being undefined. -/
theorem FeatureVector.filter_isFinite_exact (rows : List (FeatureVector ℝ)) :
    rows.filter isFinite = rows :=
  List.filter_eq_self.2 fun row _ => row.isFinite_exact

end CounterWatch
