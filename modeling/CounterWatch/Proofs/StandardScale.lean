import CounterWatch.Proofs.Column
import CounterWatch.Proofs.ExtendedReal

/-!
# The standard scale

On the standard scale of some rows every feature has the mean zero. Its variance is one, so that no
feature outweighs another by its unit alone; a feature with next to no spread keeps its unit and is
only moved. Each feature is mapped by itself, and nothing that tells two rows apart is lost. All of
this is in exact arithmetic.

* `Standardizer.get_mean_fit` and `Standardizer.get_deviations_exact` say what is fitted.
* `Standardizer.mean_transform` and `Standardizer.variance_transform` are the statistics of rows on
  any scale, and `Standardizer.mean_scaled`, `Standardizer.variance_scaled` and
  `Standardizer.variance_scaled_of_flat` those on their own.
* `Standardizer.fit_extended` and `Standardizer.transform_extended` say that nothing is divided by
  zero: the results stay the same where such a quotient is not a real number.
* `Standardizer.features_are_standardised` is the result.
-/

namespace CounterWatch

open ExtendedReal

namespace FeatureVector

/-- Real values among values that may be infinite. -/
def extended (v : FeatureVector ℝ) : FeatureVector ExtendedReal := v.map real

@[simp] theorem get_extended (v : FeatureVector ℝ) (j : Fin featureCount) :
    v.extended.get j = real (v.get j) := by
  simp only [extended, Vector.get_eq_getElem, Vector.getElem_map]

end FeatureVector

namespace Standardizer

open FeatureVector (column variance deviation)

/-! ## What is fitted -/

section

variable {rows : List (FeatureVector ℝ)} {j : Fin featureCount} (some : rows ≠ [])

/-- No scale is zero, whatever the rows are. -/
theorem scale_pos (rows : List (FeatureVector ℝ)) (j : Fin featureCount) :
    0 < (fit rows).scale.get j := by
  rw [get_scale_fit]
  split_ifs with small
  · norm_num
  · exact lt_of_lt_of_le (by norm_num [leastDeviation]) (not_lt.1 small)

include some

theorem get_mean_fit (j : Fin featureCount) : (fit rows).mean.get j = FeatureVector.mean rows j := by
  have sum : (fit rows).mean.get j = (means rows).get j := rfl
  rw [sum, get_means, Scalar.foldl_add_exact, Scalar.zero_exact, zero_add, max_one_length some,
    Scalar.ofNat_exact, FeatureVector.mean_exact]

/-- The second pass over the rows takes the mean of the first. -/
theorem get_deviations_exact (j : Fin featureCount) :
    (deviations rows (means rows)).get j = deviation rows j := by
  have center : (means rows).get j = FeatureVector.mean rows j := get_mean_fit some j
  simp only [get_deviations, center, Scalar.square_exact]
  rw [Scalar.foldl_add_exact, Scalar.zero_exact, zero_add, max_one_length some, Scalar.ofNat_exact,
    ← FeatureVector.variance_exact]
  rfl

theorem scale_of_spread (spread : 1e-12 ≤ deviation rows j) :
    (fit rows).scale.get j = deviation rows j := by
  rw [get_scale_fit, get_deviations_exact some]
  exact if_neg (not_lt.2 spread)

theorem scale_of_flat (flat : deviation rows j < 1e-12) : (fit rows).scale.get j = 1 := by
  rw [get_scale_fit, get_deviations_exact some]
  exact (if_pos flat).trans Scalar.one_exact

end

/-! ## Rows on a scale -/

section

variable (s : Standardizer ℝ) (rows : List (FeatureVector ℝ)) (j : Fin featureCount)

theorem column_transform : column (rows.map s.transform) j
    = (column rows j).map fun v => (v - s.mean.get j) / s.scale.get j := by
  simp only [column, List.map_map, Function.comp_def, get_transform]

variable {rows} (some : rows ≠ [])

include some

theorem mean_transform : FeatureVector.mean (rows.map s.transform) j
    = (FeatureVector.mean rows j - s.mean.get j) / s.scale.get j := by
  have values : column rows j ≠ [] := by simpa [column] using some
  rw [FeatureVector.mean, column_transform, Scalar.mean_map_sub_div values, FeatureVector.mean]

theorem variance_transform :
    variance (rows.map s.transform) j = variance rows j / s.scale.get j ^ 2 := by
  rw [variance, mean_transform s j some, column_transform, Scalar.meanSquare_map_sub_div, variance]

end

section

variable {rows : List (FeatureVector ℝ)} {j : Fin featureCount} (some : rows ≠ [])

include some

theorem mean_scaled (j : Fin featureCount) :
    FeatureVector.mean (rows.map (fit rows).transform) j = 0 := by
  rw [mean_transform _ j some, get_mean_fit some, sub_self, zero_div]

theorem variance_scaled (spread : 1e-12 ≤ deviation rows j) :
    variance (rows.map (fit rows).transform) j = 1 := by
  have pos : 0 < deviation rows j := lt_of_lt_of_le (by norm_num) spread
  have square : deviation rows j ^ 2 = variance rows j :=
    Real.sq_sqrt (FeatureVector.variance_nonneg rows j)
  rw [variance_transform _ j some, scale_of_spread some spread, ← square,
    div_self (pow_ne_zero 2 pos.ne')]

theorem variance_scaled_of_flat (flat : deviation rows j < 1e-12) :
    variance (rows.map (fit rows).transform) j = variance rows j := by
  rw [variance_transform _ j some, scale_of_flat some flat, one_pow, div_one]

end

section

variable {s : Standardizer ℝ}

theorem strictMono_of_scale_pos {j : Fin featureCount} (pos : 0 < s.scale.get j) :
    StrictMono fun v => (v - s.mean.get j) / s.scale.get j :=
  fun _ _ lt => div_lt_div_of_pos_right (sub_lt_sub_right lt _) pos

theorem injective_transform (pos : ∀ j, 0 < s.scale.get j) : Function.Injective s.transform := by
  intro x y same
  refine FeatureVector.ext_get fun j => (strictMono_of_scale_pos (pos j)).injective ?_
  simp only [← get_transform, same]

end

/-! ## Quotients -/

/-- No scale is zero, also where values are infinite or not defined. -/
theorem scale_ne_zero (rows : List (FeatureVector ExtendedReal)) (j : Fin featureCount) :
    (fit rows).scale.get j ≠ real 0 := by
  have least : real 0 < leastDeviation := by
    rw [leastDeviation, ofScientific_eq, real_lt]
    norm_num
  rw [get_scale_fit]
  split_ifs with small
  · rw [ofScientific_eq, Scalar.one_exact]
    exact fun zero => one_ne_zero (ExtendedReal.real.inj zero)
  · exact fun zero => small (zero ▸ least)

/-- Real means and scales among values that may be infinite. -/
def extended (s : Standardizer ℝ) : Standardizer ExtendedReal :=
  { mean := s.mean.extended, scale := s.scale.extended }

section

variable (rows : List (FeatureVector ℝ))

theorem means_extended : means (rows.map (·.extended)) = (means rows).extended := by
  refine FeatureVector.ext_get fun j => ?_
  rw [FeatureVector.get_extended, get_means, get_means, List.foldl_map, List.length_map]
  simp only [FeatureVector.get_extended, ofScientific_eq, foldl_add_real, Scalar.foldl_add_exact,
    ofNat_eq, Scalar.ofNat_exact, real_div (Scalar.max_one_pos _).ne']

theorem deviations_extended (center : FeatureVector ℝ) :
    deviations (rows.map (·.extended)) center.extended = (deviations rows center).extended := by
  refine FeatureVector.ext_get fun j => ?_
  have count := Scalar.max_one_pos rows.length
  have squares := Scalar.sum_sq_nonneg (fun row => row.get j - center.get j) rows
  rw [FeatureVector.get_extended, get_deviations, get_deviations, List.foldl_map, List.length_map]
  simp only [FeatureVector.get_extended, real_sub, square_real, Scalar.square_exact, ofScientific_eq,
    foldl_add_real, Scalar.foldl_add_exact, Scalar.zero_exact, zero_add, ofNat_eq,
    Scalar.ofNat_exact, real_div count.ne', sqrt_real (div_nonneg squares count.le)]
  rfl

theorem fit_extended : fit (rows.map (·.extended)) = (fit rows).extended := by
  have scale : (fit (rows.map (·.extended))).scale = (fit rows).scale.extended := by
    refine FeatureVector.ext_get fun j => ?_
    rw [FeatureVector.get_extended, get_scale_fit, get_scale_fit, means_extended,
      deviations_extended, FeatureVector.get_extended, apply_ite real]
    rfl
  have mean : (fit (rows.map (·.extended))).mean = (fit rows).mean.extended := means_extended rows
  rw [extended, ← mean, ← scale]

end

theorem transform_extended {s : Standardizer ℝ} (pos : ∀ j, 0 < s.scale.get j)
    (x : FeatureVector ℝ) : s.extended.transform x.extended = (s.transform x).extended := by
  refine FeatureVector.ext_get fun j => ?_
  simp only [get_transform, extended, FeatureVector.get_extended, real_sub,
    real_div (pos j).ne']

/-! ## The result -/

/-- **Rows on their standard scale.** If there are any rows, every feature has the mean zero on their
standard scale. Its variance there is one if its standard deviation was at least 1e-12, and otherwise
what it was. Whether there are any or not, nothing is divided by zero on the way to the scale or to a
row on it: every scale is positive, and all comes out the same where such a quotient is not a real
number. Different rows stay different, and each feature is mapped by a strictly increasing function
of its own, whatever the other features are. Rows with infinite or undefined values have no scale of
zero either. -/
theorem features_are_standardised :
    (∀ rows : List (FeatureVector ℝ),
      let s := fit rows
      let scaled := rows.map s.transform
      (rows ≠ [] → ∀ j, FeatureVector.mean scaled j = 0 ∧
        (1e-12 ≤ deviation rows j → variance scaled j = 1) ∧
        (deviation rows j < 1e-12 → variance scaled j = variance rows j)) ∧
      (∀ j, 0 < s.scale.get j) ∧
      fit (rows.map (·.extended)) = s.extended ∧
      (∀ x, s.extended.transform x.extended = (s.transform x).extended) ∧
      Function.Injective s.transform ∧
      ∀ j, ∃ f : ℝ → ℝ, StrictMono f ∧ ∀ x, (s.transform x).get j = f (x.get j)) ∧
    ∀ (rows : List (FeatureVector ExtendedReal)) (j : Fin featureCount),
      (fit rows).scale.get j ≠ real 0 := by
  refine ⟨fun rows => ?_, scale_ne_zero⟩
  intro s scaled
  have pos : ∀ j, 0 < s.scale.get j := scale_pos rows
  exact ⟨fun some j => ⟨mean_scaled some j, variance_scaled some, variance_scaled_of_flat some⟩,
    pos, fit_extended rows, transform_extended pos, injective_transform pos,
    fun j => ⟨_, strictMono_of_scale_pos (pos j), fun x => get_transform s x j⟩⟩

/-- Two rows that differ by two in one feature, and next to nothing in the others. -/
theorem standard_scale_of_two_rows :
    let cmr : Fin featureCount := ⟨0, by decide⟩
    let ipc : Fin featureCount := ⟨2, by decide⟩
    let row (a b : ℝ) : FeatureVector ℝ := Vector.ofFn fun i => if i = cmr then a else b
    let rows := [row 0 0, row 2 1e-13]
    let scaled := rows.map (fit rows).transform
    rows ≠ [] ∧ 1e-12 ≤ deviation rows cmr ∧ deviation rows ipc < 1e-12 ∧
      FeatureVector.mean scaled cmr = 0 ∧ variance scaled cmr = 1 ∧
      FeatureVector.mean scaled ipc = 0 ∧ variance scaled ipc = 2.5e-27 := by
  intro cmr ipc row rows scaled
  have get (a b : ℝ) (i : Fin featureCount) : (row a b).get i = if i = cmr then a else b := by
    simp only [row, Vector.get_eq_getElem, Vector.getElem_ofFn]
  have other : ipc ≠ cmr := by decide
  have variance_cmr : variance rows cmr = 1 := by
    norm_num [FeatureVector.variance_exact, FeatureVector.mean_exact, rows, get]
  have variance_ipc : variance rows ipc = 2.5e-27 := by
    norm_num [FeatureVector.variance_exact, FeatureVector.mean_exact, rows, get, other]
  have spread : 1e-12 ≤ deviation rows cmr := by
    norm_num [FeatureVector.deviation_exact, variance_cmr]
  have flat : deviation rows ipc < 1e-12 := by
    rw [FeatureVector.deviation_exact, variance_ipc, Real.sqrt_lt' (by norm_num)]
    norm_num
  have some : rows ≠ [] := List.cons_ne_nil _ _
  obtain ⟨standard, -⟩ := features_are_standardised.1 rows
  obtain ⟨mean_cmr, unit, -⟩ := standard some cmr
  obtain ⟨mean_ipc, -, kept⟩ := standard some ipc
  exact ⟨some, spread, flat, mean_cmr, unit spread, mean_ipc, (kept flat).trans variance_ipc⟩

end Standardizer

end CounterWatch
