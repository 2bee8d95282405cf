import CounterWatch.Proofs.ForestRange

/-!
# Features that never varied

A feature that is the same in all training rows tells nothing about them, and each part of the
detector leaves it out in its own way: the standard scale moves it to zero and does not stretch it,
the envelope gives it no weight, and the forest does not split it. In exact arithmetic nothing
remains of it.

* `Standardizer.get_transform_of_constant` is about the scale.
* `Envelope.score_congr` and `Forest.score_congr` are about the models, and `ModelKind.score_congr`
  puts them together.
* `ModelKind.score_of_zero` is about rows with no spread at all: all scores are zero.
* `Detector.constant_features_have_no_influence` is the result.
-/

namespace CounterWatch

open ExtendedReal

variable {rows : List (FeatureVector ExtendedReal)} {j : Fin featureCount}

/-- A sum of equal terms. -/
theorem foldl_add_constant {f : FeatureVector ExtendedReal → ExtendedReal} {c : ℝ}
    (constant : ∀ row ∈ rows, f row = real c) (a : ℝ) :
    rows.foldl (fun sum row => sum + f row) (real a) = real (a + rows.length * c) := by
  have terms : ∀ sum, ∀ row ∈ rows, sum + f row = sum + real c :=
    fun sum row mem => congrArg (sum + ·) (constant row mem)
  rw [List.foldl_ext _ _ _ terms, foldl_add_real, List.map_const', List.sum_replicate, nsmul_eq_mul]

/-! ## The standard scale -/

namespace Standardizer

/-- A constant feature is only moved. -/
theorem get_transform_of_constant {c : ℝ} (some : rows ≠ [])
    (constant : ∀ row ∈ rows, row.get j = real c) {x : FeatureVector ExtendedReal} {a : ℝ}
    (value : x.get j = real a) : ((fit rows).transform x).get j = real (a - c) := by
  have length := max_one_length some
  have count : (rows.length : ℝ) ≠ 0 := by simpa using some
  have mean : (means rows).get j = real c := by
    rw [get_means, ofScientific_eq, Scalar.zero_exact, foldl_add_constant constant, length, ofNat_eq,
      real_div count, zero_add, mul_div_cancel_left₀ c count]
  have squares : ∀ row ∈ rows, Scalar.square (row.get j - real c) = real 0 := by
    intro row mem
    rw [constant row mem, real_sub, sub_self, square_real, zero_pow two_ne_zero]
  have deviation : (deviations rows (means rows)).get j = real 0 := by
    rw [get_deviations, mean, ofScientific_eq, Scalar.zero_exact, foldl_add_constant squares, length,
      ofNat_eq, real_div count, mul_zero, add_zero, zero_div, sqrt_real (le_refl 0), Real.sqrt_zero]
  have small : real 0 < leastDeviation := by
    rw [leastDeviation, ofScientific_eq, real_lt]
    norm_num
  rw [get_transform_fit, mean, deviation, value, if_pos small, real_sub, ofScientific_eq,
    real_div (by norm_num), Scalar.one_exact, div_one]

end Standardizer

/-! ## The envelope -/

namespace Envelope

section

variable (zero : ∀ row ∈ rows, row.get j = real 0)

include zero

theorem get_centerOf_of_zero : (centerOf rows).get j = real 0 := by
  have count := (Scalar.max_one_pos rows.length).ne'
  have terms : ∀ row ∈ rows, row.get j / Scalar.ofNat (max 1 rows.length) = real 0 := by
    intro row mem
    rw [zero row mem, ofNat_eq, real_div count, zero_div]
  have sums : (centerOf rows).get j
      = rows.foldl (fun c row => c + row.get j / Scalar.ofNat (max 1 rows.length))
          ((FeatureVector.fill 0.0 : FeatureVector ExtendedReal).get j) :=
    Standardizer.get_foldl_zipWith
      (fun c x : ExtendedReal => c + x / Scalar.ofNat (max 1 rows.length)) id rows _ j
  rw [sums, FeatureVector.get_fill, ofScientific_eq, Scalar.zero_exact, foldl_add_constant terms,
    mul_zero, add_zero]

theorem weightOf_of_zero {center : FeatureVector ExtendedReal} (middle : center.get j = real 0) :
    weightOf rows center j = real 0 := by
  have count := (Scalar.max_one_pos rows.length).ne'
  have squares : (rows.map fun row => Scalar.square (row.get j - center.get j))
      = (rows.map fun _ => (0 : ℝ)).map real := by
    rw [List.map_map]
    refine List.map_congr_left fun row mem => ?_
    rw [zero row mem, middle, real_sub, sub_self, square_real, zero_pow two_ne_zero]
    rfl
  have none : ¬(leastVariance : ExtendedReal) < real 0 := by
    rw [leastVariance, ofScientific_eq, real_lt]
    norm_num
  have sum : (rows.map fun _ => (0 : ℝ)).sum = 0 := by simp
  simp only [weightOf, squares, sum_real, sum, ofNat_eq, real_div count, zero_div, none, ↓reduceIte,
    ofScientific_eq, Scalar.zero_exact]

theorem get_fit_of_zero (share : ExtendedReal) :
    (fit share rows).center.get j = real 0 ∧ (fit share rows).weight.get j = real 0 := by
  have middle := get_centerOf_of_zero zero
  refine ⟨middle, ?_⟩
  have weight : (fit share rows).weight.get j = weightOf rows (centerOf rows) j := by
    simp only [fit, Vector.get_eq_getElem, Vector.getElem_ofFn]
  rw [weight, weightOf_of_zero zero middle]

/-- A finite value of such a feature adds nothing to the distance. -/
theorem term_of_zero (share : ExtendedReal) {x : FeatureVector ExtendedReal}
    (finite : Scalar.isFinite (x.get j) = true) :
    Scalar.square (x.get j - (fit share rows).center.get j) * (fit share rows).weight.get j
      = real 0 := by
  obtain ⟨a, value⟩ := eq_real_of_isFinite finite
  obtain ⟨middle, weight⟩ := get_fit_of_zero zero share
  rw [value, middle, weight, real_sub, square_real, real_mul, mul_zero]

/-- So the score does not come from it. -/
theorem score_congr (share : ExtendedReal) {x y : FeatureVector ExtendedReal}
    (same : ∀ i ≠ j, x.get i = y.get i) (hx : Scalar.isFinite (x.get j) = true)
    (hy : Scalar.isFinite (y.get j) = true) :
    (fit share rows).score x = (fit share rows).score y := by
  have terms : ∀ i, Scalar.square (x.get i - (fit share rows).center.get i)
        * (fit share rows).weight.get i
      = Scalar.square (y.get i - (fit share rows).center.get i) * (fit share rows).weight.get i := by
    intro i
    rcases eq_or_ne i j with rfl | other
    · rw [term_of_zero zero share hx, term_of_zero zero share hy]
    · rw [same i other]
  simp only [score, distance, terms]

end

/-- Where all rows are zero, every finite row is at the centre. -/
theorem distance_of_zero (zero : ∀ row ∈ rows, ∀ i, row.get i = real 0) (share : ExtendedReal)
    {x : FeatureVector ExtendedReal} (finite : x.isFinite = true) :
    distance (fit share rows).center (fit share rows).weight x = real 0 := by
  have terms : ((List.finRange featureCount).map fun i =>
      Scalar.square (x.get i - (fit share rows).center.get i) * (fit share rows).weight.get i)
      = ((List.finRange featureCount).map fun _ => (0 : ℝ)).map real := by
    rw [List.map_map]
    exact List.map_congr_left fun i _ => term_of_zero (fun row mem => zero row mem i) share
      (FeatureVector.isFinite_iff.1 finite i)
  have sum : ((List.finRange featureCount).map fun _ => (0 : ℝ)).sum = 0 := by simp
  rw [distance, terms, sum_real, sum, sqrt_real (le_refl 0), Real.sqrt_zero]

theorem score_of_zero (zero : ∀ row ∈ rows, ∀ i, row.get i = real 0)
    {x : FeatureVector ExtendedReal} (finite : x.isFinite = true) :
    (fit defaultShare rows).score x = real 0 := by
  have at_center (row : FeatureVector ExtendedReal) (mem : row ∈ rows) :=
    distance_of_zero zero defaultShare
      (FeatureVector.isFinite_iff.2 fun i => by rw [zero row mem i]; rfl)
  obtain ⟨r, radius, low, high⟩ : Within 0 0 (fit defaultShare rows).radius := by
    refine percentile?_getD_within ⟨le_refl 0, le_refl 0⟩ (fun v mem => ?_) ExtendedReal.noConfusion
    obtain ⟨row, there, rfl⟩ := List.mem_map.1 mem
    exact ⟨0, at_center row there, le_refl 0, le_refl 0⟩
  rw [score, radius, distance_of_zero zero defaultShare finite, le_antisymm high low, real_sub,
    sub_zero]

end Envelope

/-! ## The forest -/

namespace Forest

variable {σ : Type} (draws : Draws ExtendedReal σ) (start : σ) (params : Params ExtendedReal)

/-- A feature that is zero in all rows is never split. -/
theorem score_congr (zero : ∀ row ∈ rows, row.get j = real 0) {x y : FeatureVector ExtendedReal}
    (same : ∀ i ≠ j, x.get i = y.get i) :
    (growWith draws start params rows).1.score x = (growWith draws start params rows).1.score y := by
  have spread : ∀ i, ∀ r ∈ rows, ∀ s ∈ rows, r.get i < s.get i → x.get i = y.get i := by
    intro i r hr s hs lt
    refine same i fun equal => ?_
    rw [equal, zero r hr, zero s hs] at lt
    exact lt_irrefl (0 : ℝ) lt
  exact congrArg (· - _) (negatedAnomaly_congr_of_spread draws start params spread)

/-- Where all rows are zero, every row is on the boundary. -/
theorem score_of_zero (defined : params.contamination ≠ undefined) (some : rows ≠ [])
    (zero : ∀ row ∈ rows, ∀ i, row.get i = real 0) (x : FeatureVector ExtendedReal) :
    (growWith draws start params rows).1.score x = real 0 := by
  set f := (growWith draws start params rows).1 with grown
  have same (y : FeatureVector ExtendedReal) :
      negatedAnomaly f.trees f.sampleSize y = negatedAnomaly f.trees f.sampleSize x := by
    refine negatedAnomaly_congr_of_spread draws start params fun i r hr s hs lt => ?_
    rw [zero r hr i, zero s hs i] at lt
    exact absurd lt (lt_irrefl (0 : ℝ))
  obtain ⟨a, value, -⟩ := (inRange_growWith draws start defined rows).negatedAnomaly x
  have values : ∀ v ∈ rows.map (negatedAnomaly f.trees f.sampleSize), Within a a v := by
    intro v mem
    obtain ⟨row, -, rfl⟩ := List.mem_map.1 mem
    exact ⟨a, (same row).trans value, le_refl a, le_refl a⟩
  have share : 100.0 * params.contamination ≠ undefined :=
    real_mul_ne_undefined (by norm_num) defined
  obtain ⟨_, made, b, rfl, low, high⟩ := percentile?_within (by simpa using some) values share
  have offset : f.offset = real b := congrArg (·.getD 0.0) made
  rw [score, value, offset, le_antisymm high low, real_sub, sub_self]

end Forest

/-! ## Both families -/

namespace ModelKind

theorem score_isolationForest {α : Type} [Scalar α] (rows : List (FeatureVector α))
    (x : FeatureVector α) : (isolationForest.build rows).score x
      = (Forest.growWith ChaCha.draws (ChaCha.ofSeed (Forest.Params.standard : Forest.Params α).seed)
          .standard rows).1.score x := rfl

/-- A feature that is zero in all rows does not count for a model of them. -/
theorem score_congr (kind : ModelKind) (zero : ∀ row ∈ rows, row.get j = real 0)
    {x y : FeatureVector ExtendedReal} (same : ∀ i ≠ j, x.get i = y.get i)
    (hx : Scalar.isFinite (x.get j) = true) (hy : Scalar.isFinite (y.get j) = true) :
    (kind.build rows).score x = (kind.build rows).score y := by
  cases kind with
  | isolationForest =>
    rw [score_isolationForest, score_isolationForest]
    exact Forest.score_congr _ _ _ zero same
  | ellipticEnvelope => exact Envelope.score_congr zero _ same hx hy

/-- Where all rows are zero, every finite row has the score zero. -/
theorem score_of_zero (kind : ModelKind) (some : rows ≠ [])
    (zero : ∀ row ∈ rows, ∀ i, row.get i = real 0) {x : FeatureVector ExtendedReal}
    (finite : x.isFinite = true) : (kind.build rows).score x = real 0 := by
  cases kind with
  | isolationForest =>
    rw [score_isolationForest]
    exact Forest.score_of_zero _ _ _ ExtendedReal.noConfusion some zero x
  | ellipticEnvelope => exact Envelope.score_of_zero zero finite

end ModelKind

/-! ## The detector -/

namespace Standardizer

section

variable {c : ℝ} (some : rows ≠ []) (constant : ∀ row ∈ rows, row.get j = real c)

include some constant

/-- On the standard scale the feature is zero in all rows. -/
theorem get_map_transform {scaled : FeatureVector ExtendedReal}
    (mem : scaled ∈ rows.map (fit rows).transform) : scaled.get j = real 0 := by
  obtain ⟨row, there, rfl⟩ := List.mem_map.1 mem
  rw [get_transform_of_constant some constant (constant row there), sub_self]

/-- Its finite values stay finite. -/
theorem isFinite_get_transform {x : FeatureVector ExtendedReal} (finite : x.isFinite = true) :
    Scalar.isFinite (((fit rows).transform x).get j) = true := by
  obtain ⟨a, value⟩ := eq_real_of_isFinite (FeatureVector.isFinite_iff.1 finite j)
  rw [get_transform_of_constant some constant value, isFinite_real]

end

end Standardizer

namespace Trained

variable (first second : ModelKind) (weight : ExtendedReal) (some : rows ≠ [])

include some

/-- Rows that differ in a constant feature only have the same prediction. -/
theorem predict_congr {c : ℝ} (constant : ∀ row ∈ rows, row.get j = real c)
    {x y : FeatureVector ExtendedReal} (hx : x.isFinite = true) (hy : y.isFinite = true)
    (same : ∀ i ≠ j, x.get i = y.get i) :
    (fit first second rows).predict weight x = (fit first second rows).predict weight y := by
  have zero : ∀ scaled ∈ rows.map (Standardizer.fit rows).transform, scaled.get j = real 0 :=
    fun scaled mem => Standardizer.get_map_transform some constant mem
  have others : ∀ i ≠ j, ((Standardizer.fit rows).transform x).get i
      = ((Standardizer.fit rows).transform y).get i := by
    intro i other
    rw [Standardizer.get_transform, Standardizer.get_transform, same i other]
  have fx := Standardizer.isFinite_get_transform some constant hx
  have fy := Standardizer.isFinite_get_transform some constant hy
  exact congrArg₂ (Prediction.ofScores weight) (first.score_congr zero others fx fy)
    (second.score_congr zero others fx fy)

/-- Over equal rows every finite row is normal. -/
theorem predict_of_equal {r : FeatureVector ExtendedReal} (equal : ∀ row ∈ rows, row = r)
    (finite : r.isFinite = true) {x : FeatureVector ExtendedReal} (hx : x.isFinite = true) :
    let p := (fit first second rows).predict weight x
    p.level = .normal ∧ p.primaryScore = real 0 ∧ p.secondaryScore = real 0 := by
  have constant (i : Fin featureCount) : ∃ c, ∀ row ∈ rows, row.get i = real c := by
    obtain ⟨c, value⟩ := eq_real_of_isFinite (FeatureVector.isFinite_iff.1 finite i)
    exact ⟨c, fun row mem => by rw [equal row mem, value]⟩
  have zero : ∀ scaled ∈ rows.map (Standardizer.fit rows).transform, ∀ i, scaled.get i = real 0 :=
    fun scaled mem i => Standardizer.get_map_transform some (constant i).choose_spec mem
  have scaled_finite : ((Standardizer.fit rows).transform x).isFinite = true :=
    FeatureVector.isFinite_iff.2 fun i =>
      Standardizer.isFinite_get_transform some (constant i).choose_spec hx
  have scaled_some : rows.map (Standardizer.fit rows).transform ≠ [] := by simpa using some
  have primary := first.score_of_zero scaled_some zero scaled_finite
  have secondary := second.score_of_zero scaled_some zero scaled_finite
  have prediction : (fit first second rows).predict weight x
      = Prediction.ofScores weight (real 0) (real 0) :=
    congrArg₂ (Prediction.ofScores weight) primary secondary
  have inlier : Verdict.ofScore (real 0) = .inlier :=
    if_pos ⟨rfl, Scalar.zero_exact.le⟩
  rw [prediction, Prediction.ofScores, inlier]
  exact ⟨rfl, rfl, rfl⟩

end Trained

namespace Detector

/-- **Features that never varied have no influence.** After a training of any detector, with any
pair of models, a feature that was the same in all of its finite rows does not count: finite rows
that differ in this feature only have the same prediction in every part. So after a training on
equal rows every finite row is normal, and both of its scores are zero. This is in exact
arithmetic. -/
theorem constant_features_have_no_influence (d : Detector ExtendedReal) (now : Moment)
    (rows : List (FeatureVector ExtendedReal)) (installed : (d.train now rows).installed = true) :
    let finite := rows.filter FeatureVector.isFinite
    let trained := (d.train now rows).detector
    (∀ j : Fin featureCount, (∀ r ∈ finite, ∀ s ∈ finite, r.get j = s.get j) →
      ∀ x y : FeatureVector ExtendedReal, x.isFinite = true → y.isFinite = true →
        (∀ i ≠ j, x.get i = y.get i) → trained.predict x = trained.predict y) ∧
    ((∀ r ∈ finite, ∀ s ∈ finite, r = s) →
      ∀ x : FeatureVector ExtendedReal, x.isFinite = true →
        (trained.predict x).level = .normal ∧ (trained.predict x).primaryScore = real 0 ∧
          (trained.predict x).secondaryScore = real 0) := by
  intro finite trained
  have enough : minTrainRows ≤ finite.length := (d.installed_train now rows).1 installed
  have some : finite ≠ [] := List.ne_nil_of_length_pos (Nat.lt_of_lt_of_le (by decide) enough)
  obtain ⟨r, mem⟩ := List.exists_mem_of_ne_nil _ some
  have bounded : r.isFinite = true := (List.mem_filter.1 mem).2
  have predicted (x : FeatureVector ExtendedReal) : trained.predict x
      = (Trained.fit d.settings.primary d.settings.secondary finite).predict
        d.settings.primaryWeight x := by
    show (d.train now rows).detector.predict x = _
    rw [d.train_of_installed now installed]
    rfl
  refine ⟨fun j same x y hx hy others => ?_, fun same x hx => ?_⟩
  · obtain ⟨c, value⟩ := eq_real_of_isFinite (FeatureVector.isFinite_iff.1 bounded j)
    rw [predicted, predicted]
    exact Trained.predict_congr _ _ _ some (fun row there => (same row there r mem).trans value)
      hx hy others
  · rw [predicted]
    exact Trained.predict_of_equal _ _ _ some (fun row there => same row there r mem) bounded hx

/-- Fifty rows that are all different, but not in the first feature, and fifty equal rows. -/
theorem first_feature_has_no_influence :
    let cmr : Fin featureCount := ⟨0, by decide⟩
    let row (a b : ℝ) : FeatureVector ExtendedReal :=
      Vector.ofFn fun i => if i = cmr then real a else real b
    let d : Detector ExtendedReal :=
      ofSettings ⟨.isolationForest, .ellipticEnvelope, 0.6, .ofSeconds 300, 1000⟩
    let rising := d.train 0 ((List.range 50).map fun n : ℕ => row 7 n)
    let equal := d.train 0 (List.replicate 50 (row 7 7))
    rising.installed = true ∧
      rising.detector.predict (row 7 1) = rising.detector.predict (row 1000 1) ∧
      equal.installed = true ∧ (equal.detector.predict (row 1000 1)).level = .normal := by
  intro cmr row d rising equal
  have get (a b : ℝ) (i : Fin featureCount) :
      (row a b).get i = if i = cmr then real a else real b := by
    simp only [row, Vector.get_eq_getElem, Vector.getElem_ofFn]
  have finite (a b : ℝ) : (row a b).isFinite = true := by
    refine FeatureVector.isFinite_iff.2 fun i => ?_
    rw [get]
    split_ifs <;> rfl
  have first : ∀ r ∈ (List.range 50).map fun n : ℕ => row 7 n, r.isFinite = true :=
    List.forall_mem_map.2 fun n _ => finite 7 n
  have second : ∀ r ∈ List.replicate 50 (row 7 7), r.isFinite = true :=
    List.forall_mem_replicate.2 (.inr (finite 7 7))
  have rising_installed : rising.installed = true := by
    refine (d.installed_train 0 _).2 ?_
    rw [List.filter_eq_self.2 first, List.length_map, List.length_range]
    decide
  have equal_installed : equal.installed = true := by
    refine (d.installed_train 0 _).2 ?_
    rw [List.filter_eq_self.2 second, List.length_replicate]
    decide
  refine ⟨rising_installed, ?_, equal_installed, ?_⟩
  · refine (constant_features_have_no_influence d 0 _ rising_installed).1 cmr ?_ _ _ (finite ..)
      (finite ..) fun i other => ?_
    · intro r hr s hs
      rw [List.filter_eq_self.2 first] at hr hs
      obtain ⟨n, -, rfl⟩ := List.mem_map.1 hr
      obtain ⟨m, -, rfl⟩ := List.mem_map.1 hs
      rw [get, get, if_pos rfl, if_pos rfl]
    · rw [get, get, if_neg other, if_neg other]
  · refine ((constant_features_have_no_influence d 0 _ equal_installed).2 ?_ _ (finite ..)).1
    intro r hr s hs
    rw [List.filter_eq_self.2 second] at hr hs
    rw [List.eq_of_mem_replicate hr, List.eq_of_mem_replicate hs]

end Detector

end CounterWatch
