import CounterWatch.Proofs.Column
import CounterWatch.Proofs.OutlierShare

/-!
# The inlier region of an envelope

The inliers of an envelope make up a body about its centre. Along a feature that varied over the
training rows the body is bounded, and along any other it has no end. In exact arithmetic this holds
of every envelope, however large the share of rows is that it is to leave outside.

* `Envelope.Shaped` are the features that varied enough to count.
* `Envelope.get_center_fit` and `Envelope.get_weight_fit` say what the centre and the weights are, and
  `Envelope.distance_exact` what the distance is.
* `Envelope.score_mono` compares two rows, `Envelope.sq_le_of_inlier` bounds one,
  `Envelope.exists_inlier` moves one without a bound, and `Envelope.region_of_inliers` puts them
  together.
-/

namespace CounterWatch

theorem Model.verdict_eq_inlier_iff {m : Model ℝ} {x : FeatureVector ℝ} :
    m.verdict x = .inlier ↔ 0 ≤ m.score x := by
  have outlier : m.verdict x = .outlier ↔ m.score x < 0 := Verdict.ofScore_exact (m.score x)
  cases verdict : m.verdict x with
  | inlier => simpa [verdict] using outlier
  | outlier => simpa [verdict] using outlier

namespace Envelope

open FeatureVector

variable {rows : List (FeatureVector ℝ)} {j : Fin featureCount}

/-! ## What is fitted -/

/-- Whether a feature varied enough over some rows to count in their envelope. -/
def Shaped (rows : List (FeatureVector ℝ)) (j : Fin featureCount) : Prop :=
  1e-12 < variance rows j

section

variable (some : rows ≠ []) (nu : ℝ)

include some

theorem get_center_fit (j : Fin featureCount) : (fit nu rows).center.get j = mean rows j := by
  rw [fit, centerOf, max_one_length some]
  exact get_foldl_quotient rows j

open Classical in
theorem get_weight_fit (j : Fin featureCount) :
    (fit nu rows).weight.get j = if Shaped rows j then (variance rows j)⁻¹ else 0 := by
  have center := get_center_fit some nu j
  have weight : (fit nu rows).weight.get j = weightOf rows (fit nu rows).center j := by
    simp only [fit, Vector.get_eq_getElem, Vector.getElem_ofFn]
  rw [weight, weightOf, max_one_length some, Scalar.sum_exact]
  simp only [center, Scalar.square_exact, Scalar.ofNat_exact, Scalar.one_exact, Scalar.zero_exact,
    one_div, ← variance_exact]
  rfl

theorem weight_of_shaped (shaped : Shaped rows j) :
    (fit nu rows).weight.get j = (variance rows j)⁻¹ := by
  rw [get_weight_fit some, if_pos shaped]

theorem weight_of_not_shaped (flat : ¬Shaped rows j) : (fit nu rows).weight.get j = 0 := by
  rw [get_weight_fit some, if_neg flat]

theorem weight_nonneg (j : Fin featureCount) : 0 ≤ (fit nu rows).weight.get j := by
  rw [get_weight_fit some]
  split_ifs
  · exact inv_nonneg.2 (variance_nonneg rows j)
  · exact le_refl 0

end

/-! ## Distances -/

theorem distance_exact (center weight x : FeatureVector ℝ) :
    distance center weight x = √(∑ j, (x.get j - center.get j) ^ 2 * weight.get j) := by
  rw [distance, Scalar.sum_exact, Fin.sum_univ_def]
  simp only [Scalar.square_exact]
  rfl

theorem distance_center (center weight : FeatureVector ℝ) : distance center weight center = 0 := by
  simp [distance_exact]

theorem distance_nonneg (center weight x : FeatureVector ℝ) : 0 ≤ distance center weight x := by
  rw [distance_exact]
  exact Real.sqrt_nonneg _

/-- Inliers are no farther from the centre than the radius. -/
theorem inlier_iff {e : Envelope ℝ} {x : FeatureVector ℝ} :
    (Model.envelope e).verdict x = .inlier ↔ distance e.center e.weight x ≤ e.radius :=
  Model.verdict_eq_inlier_iff.trans sub_nonneg

/-- The radius lies among the distances of the rows, whatever the share to be left outside. -/
theorem radius_nonneg (some : rows ≠ []) (nu : ℝ) : 0 ≤ (fit nu rows).radius := by
  set distances := rows.map (distance (fit nu rows).center (fit nu rows).weight) with made
  have values : distances ≠ [] := by simpa [made] using some
  obtain ⟨v, percentile, ⟨d, mem, le⟩, -⟩ :=
    Scalar.percentile?_between values (100.0 * (1.0 - nu))
  have radius : (fit nu rows).radius
      = (Scalar.percentile? distances (100.0 * (1.0 - nu))).getD 0.0 := rfl
  rw [radius, percentile, Option.getD_some]
  obtain ⟨row, -, rfl⟩ := List.mem_map.1 mem
  exact (distance_nonneg ..).trans le

section

variable (some : rows ≠ []) (nu : ℝ) {x y : FeatureVector ℝ}

include some

/-- A row that is as near to the centre in every feature that counts is as near altogether, so that
it has at least the score. -/
theorem score_mono (near : ∀ j, Shaped rows j →
      |x.get j - (fit nu rows).center.get j| ≤ |y.get j - (fit nu rows).center.get j|) :
    (Model.envelope (fit nu rows)).score y ≤ (Model.envelope (fit nu rows)).score x := by
  refine sub_le_sub_left ?_ (fit nu rows).radius
  rw [distance_exact, distance_exact]
  refine Real.sqrt_le_sqrt (Finset.sum_le_sum fun j _ => ?_)
  by_cases shaped : Shaped rows j
  · exact mul_le_mul_of_nonneg_right (sq_le_sq.2 (near j shaped)) (weight_nonneg some nu j)
  · rw [weight_of_not_shaped some nu shaped, mul_zero, mul_zero]

/-- One feature is no farther from the centre than its row, in units of its spread. -/
theorem sq_le_distance (shaped : Shaped rows j) (x : FeatureVector ℝ) :
    (x.get j - (fit nu rows).center.get j) ^ 2
      ≤ distance (fit nu rows).center (fit nu rows).weight x ^ 2 * variance rows j := by
  have pos : 0 < variance rows j := lt_trans (by norm_num) shaped
  have terms (i : Fin featureCount) :
      0 ≤ (x.get i - (fit nu rows).center.get i) ^ 2 * (fit nu rows).weight.get i :=
    mul_nonneg (sq_nonneg _) (weight_nonneg some nu i)
  have part := Finset.single_le_sum (fun i _ => terms i) (Finset.mem_univ j)
  rw [distance_exact, Real.sq_sqrt (Finset.sum_nonneg fun i _ => terms i)]
  rwa [weight_of_shaped some nu shaped, ← div_eq_mul_inv, div_le_iff₀ pos] at part

/-! ## Inliers -/

theorem verdict_center :
    (Model.envelope (fit nu rows)).verdict (fit nu rows).center = .inlier := by
  rw [inlier_iff, distance_center]
  exact radius_nonneg some nu

theorem inlier_of_near (near : ∀ j, Shaped rows j →
      |x.get j - (fit nu rows).center.get j| ≤ |y.get j - (fit nu rows).center.get j|)
    (inlier : (Model.envelope (fit nu rows)).verdict y = .inlier) :
    (Model.envelope (fit nu rows)).verdict x = .inlier :=
  Model.verdict_eq_inlier_iff.2
    ((Model.verdict_eq_inlier_iff.1 inlier).trans (score_mono some nu near))

/-- Inliers take every value in a feature that does not count: the centre may be moved along it. -/
theorem exists_inlier (flat : ¬Shaped rows j) (t : ℝ) :
    ∃ x, (Model.envelope (fit nu rows)).verdict x = .inlier ∧ x.get j = t := by
  let x : FeatureVector ℝ := Vector.ofFn fun i => if i = j then t else (fit nu rows).center.get i
  have get (i : Fin featureCount) : x.get i = if i = j then t else (fit nu rows).center.get i := by
    simp only [x, Vector.get_eq_getElem, Vector.getElem_ofFn]
  refine ⟨x, inlier_of_near some nu (fun i shaped => ?_) (verdict_center some nu),
    (get j).trans (if_pos rfl)⟩
  have other : i ≠ j := fun same => flat (same ▸ shaped)
  rw [get, if_neg other]

/-- An inlier is near to the centre in every feature that counts. -/
theorem sq_le_of_inlier (shaped : Shaped rows j)
    (inlier : (Model.envelope (fit nu rows)).verdict x = .inlier) :
    (x.get j - (fit nu rows).center.get j) ^ 2 ≤ (fit nu rows).radius ^ 2 * variance rows j := by
  refine (sq_le_distance some nu shaped x).trans ?_
  refine mul_le_mul_of_nonneg_right ?_ (variance_nonneg rows j)
  exact pow_le_pow_left₀ (distance_nonneg ..) (inlier_iff.1 inlier) 2

/-- So a row that is far from it in one of them is an outlier. -/
theorem verdict_of_far (shaped : Shaped rows j)
    (far : (fit nu rows).radius ^ 2 * variance rows j
      < (x.get j - (fit nu rows).center.get j) ^ 2) :
    (Model.envelope (fit nu rows)).verdict x = .outlier := by
  cases verdict : (Model.envelope (fit nu rows)).verdict x with
  | inlier => exact absurd (sq_le_of_inlier some nu shaped verdict) (not_le.2 far)
  | outlier => rfl

theorem abs_le_of_inlier (shaped : Shaped rows j)
    (inlier : (Model.envelope (fit nu rows)).verdict x = .inlier) :
    |x.get j - (fit nu rows).center.get j| ≤ (fit nu rows).radius * deviation rows j := by
  have scale : 0 ≤ (fit nu rows).radius * deviation rows j :=
    mul_nonneg (radius_nonneg some nu) (Real.sqrt_nonneg _)
  rw [← abs_of_nonneg scale, ← sq_le_sq, mul_pow, deviation_exact,
    Real.sq_sqrt (variance_nonneg rows j)]
  exact sq_le_of_inlier some nu shaped inlier

end

/-- **The region of inliers.** Let an envelope be fitted to any rows, whatever the share of them that
it is to leave outside. Its centre is an inlier. A row that is at least as near to the centre as
another one in every feature that counts has at least its score, so that it is an inlier if the other
one is. In a feature that counts, a row is an outlier if the square of its distance to the centre is
above the square of the radius times the variance, so that inliers keep within a bound; in any other
feature inliers take every value. -/
theorem region_of_inliers (rows : List (FeatureVector ℝ)) (some : rows ≠ []) (nu : ℝ) :
    let e := fit nu rows
    let m := Model.envelope e
    m.verdict e.center = .inlier ∧
    (∀ x y, (∀ j, Shaped rows j → |x.get j - e.center.get j| ≤ |y.get j - e.center.get j|) →
      m.score y ≤ m.score x ∧ (m.verdict y = .inlier → m.verdict x = .inlier)) ∧
    (∀ j, Shaped rows j →
      (∀ x, e.radius ^ 2 * variance rows j < (x.get j - e.center.get j) ^ 2 →
        m.verdict x = .outlier) ∧
      ∃ bound, ∀ x, m.verdict x = .inlier → |x.get j - e.center.get j| ≤ bound) ∧
    ∀ j, ¬Shaped rows j → ∀ t, ∃ x, m.verdict x = .inlier ∧ x.get j = t := by
  intro e m
  refine ⟨verdict_center some nu,
    fun x y near => ⟨score_mono some nu near, inlier_of_near some nu near⟩,
    fun j shaped => ⟨fun x far => verdict_of_far some nu shaped far, ?_⟩,
    fun j flat t => exists_inlier some nu flat t⟩
  exact ⟨e.radius * deviation rows j, fun x inlier => abs_le_of_inlier some nu shaped inlier⟩

/-- The envelope of two rows that differ in one feature alone. -/
theorem region_about_two_rows :
    let cmr : Fin featureCount := ⟨0, by decide⟩
    let ipc : Fin featureCount := ⟨2, by decide⟩
    let row (a b : ℝ) : FeatureVector ℝ := Vector.ofFn fun i => if i = cmr then a else b
    let rows := [row 0 7, row 2 7]
    let e := fit 0.01 rows
    let m := Model.envelope e
    rows ≠ [] ∧ Shaped rows cmr ∧ ¬Shaped rows ipc ∧ m.verdict e.center = .inlier ∧
      m.score (row 3 7) ≤ m.score (row 2 1000) ∧ m.verdict (row (e.radius + 2) 7) = .outlier ∧
      ∃ x, m.verdict x = .inlier ∧ x.get ipc = 1000 := by
  intro cmr ipc row rows e m
  have get (a b : ℝ) (i : Fin featureCount) : (row a b).get i = if i = cmr then a else b := by
    simp only [row, Vector.get_eq_getElem, Vector.getElem_ofFn]
  have some : rows ≠ [] := List.cons_ne_nil _ _
  have mean_cmr : mean rows cmr = 1 := by
    norm_num [mean_exact, rows, get]
  have variance_cmr : variance rows cmr = 1 := by
    norm_num [variance_exact, mean_cmr, rows, get]
  have flat (i : Fin featureCount) (other : i ≠ cmr) : variance rows i = 0 := by
    norm_num [variance_exact, mean_exact, rows, get, other]
  have shaped : Shaped rows cmr := by norm_num [Shaped, variance_cmr]
  have not_shaped (i : Fin featureCount) (other : i ≠ cmr) : ¬Shaped rows i := by
    norm_num [Shaped, flat i other]
  have center : e.center.get cmr = 1 := (get_center_fit some 0.01 cmr).trans mean_cmr
  obtain ⟨inside, monotone, bounded, endless⟩ := region_of_inliers rows some 0.01
  refine ⟨some, shaped, not_shaped ipc (by decide), inside, (monotone _ _ fun i counts => ?_).1,
    (bounded cmr shaped).1 _ ?_, endless ipc (not_shaped ipc (by decide)) 1000⟩
  · obtain rfl : i = cmr := by
      by_contra other
      exact not_shaped i other counts
    rw [center, get, get, if_pos rfl, if_pos rfl]
    norm_num
  · have radius : 0 ≤ e.radius := radius_nonneg some 0.01
    rw [center, variance_cmr, get, if_pos rfl]
    show e.radius ^ 2 * 1 < (e.radius + 2 - 1) ^ 2
    nlinarith

end Envelope

end CounterWatch
