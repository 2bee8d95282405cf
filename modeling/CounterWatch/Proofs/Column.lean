import CounterWatch.Proofs.Exact
import CounterWatch.Proofs.Fitting

/-!
# Columns

The statistics of one feature over some rows. The parts of the detector each compute them in their
own order of operations; in exact arithmetic all of them come to the same mean and the same
population variance.

* `FeatureVector.column`, `FeatureVector.mean`, `FeatureVector.variance` and
  `FeatureVector.deviation` are the statistics.
* `FeatureVector.get_foldl_quotient` is the mean where each row is divided by the count before it is
  added, and `FeatureVector.variance_exact` the variance.
-/

namespace CounterWatch

namespace FeatureVector

section

variable {α : Type} [Scalar α] (rows : List (FeatureVector α)) (j : Fin featureCount)

/-- The values of a feature in some rows. -/
def column : List α := rows.map (·.get j)

/-- The mean of a feature over some rows. -/
def mean : α := Scalar.mean (column rows j)

/-- The population variance of a feature over some rows. -/
def variance : α := Scalar.meanSquare (column rows j) (mean rows j)

/-- The population standard deviation of a feature over some rows. -/
def deviation : α := Scalar.sqrt (variance rows j)

end

variable (rows : List (FeatureVector ℝ)) (j : Fin featureCount)

theorem mean_exact : mean rows j = (rows.map (·.get j)).sum / rows.length := by
  rw [mean, Scalar.mean_exact, column, List.length_map]

theorem variance_exact :
    variance rows j = (rows.map fun row => (row.get j - mean rows j) ^ 2).sum / rows.length := by
  rw [variance, Scalar.meanSquare_exact, column, List.length_map, List.map_map]
  rfl

theorem variance_nonneg : 0 ≤ variance rows j := Scalar.meanSquare_nonneg _ _

theorem deviation_exact : deviation rows j = √(variance rows j) := rfl

/-- The mean, each row divided by the count before it is added. -/
theorem get_foldl_quotient :
    (rows.foldl (fun c row => Vector.zipWith (fun c x => c + x / (rows.length : ℝ)) c row)
      (fill 0.0)).get j = mean rows j := by
  have sums := Standardizer.get_foldl_zipWith (fun c x : ℝ => c + x / (rows.length : ℝ)) id rows
    (fill 0.0) j
  simp only [id_eq] at sums
  rw [sums, Scalar.foldl_add_exact, get_fill, Scalar.zero_exact, zero_add, mean_exact]
  simp only [div_eq_mul_inv, List.sum_map_mul_right]

end FeatureVector

end CounterWatch
