import CounterWatch.Proofs.ExtendedReal
import CounterWatch.Proofs.Growth
import CounterWatch.Proofs.Replacement
import Mathlib.Analysis.Complex.ExponentialBounds

/-!
# The range of the scores of a forest

Whatever a row is made of, its path through a tree has a length, and this length is not negative. So
the score of a forest is always a number, and it lies in a fixed interval; what is said elsewhere for
scores that are not finite is never said for a forest.

* `Tree.meanPath_nonneg` is about the length that stands for a leaf, and `Tree.pathLength_real` about
  the length of a path.
* `Forest.InRange` collects the intervals, and `Forest.inRange_growWith` says that the scores of any
  forest keep to them.
* `Forest.scores_stay_in_range` says it of the forests that are fitted, and says what it means for
  the common score of a forest and an envelope.
-/

namespace CounterWatch

open ExtendedReal

namespace Tree

/-! ## Path lengths -/

theorem meanPath_real (n : ℕ) : (meanPath n : ExtendedReal) = real (meanPath n) := by
  match n with
  | 0 | 1 | 2 => rfl
  | n + 3 =>
    have count : (0 : ℝ) < (n + 3 : ℕ) := by positivity
    have rest : (0 : ℝ) < (n + 3 : ℕ) - 1.0 := by
      push_cast
      norm_num
      linarith [(Nat.cast_nonneg n : (0 : ℝ) ≤ n)]
    simp only [meanPath, eulerGamma, ofNat_eq, ofScientific_eq, real_sub, log_real rest, real_add,
      real_mul, real_div count.ne']
    rfl

/-- The mean path of an unsuccessful search is not negative, whatever the count of values. -/
theorem meanPath_nonneg (n : ℕ) : 0 ≤ (meanPath n : ℝ) := by
  match n with
  | 0 | 1 | 2 => norm_num [meanPath]
  | n + 3 =>
    have many : (2 : ℝ) ≤ (n + 3 : ℕ) - 1 := by
      push_cast
      linarith [(Nat.cast_nonneg n : (0 : ℝ) ≤ n)]
    have length : (0.69 : ℝ) ≤ Real.log ((n + 3 : ℕ) - 1) := by
      linarith [Real.log_two_gt_d9, Real.log_le_log two_pos many]
    have part : 2 * ((n + 3 : ℕ) - 1 : ℝ) / (n + 3 : ℕ) ≤ 2 := by
      rw [div_le_iff₀ (by linarith)]
      linarith
    have value : (meanPath (n + 3) : ℝ) = 2.0 * (Real.log ((n + 3 : ℕ) - 1.0) + 0.5772156649015329)
        - 2.0 * ((n + 3 : ℕ) - 1.0) / (n + 3 : ℕ) := rfl
    rw [value]
    norm_num at part length ⊢
    linarith

/-- The length of a path in exact arithmetic. -/
noncomputable def exactLength (tree : Tree ExtendedReal) (x : FeatureVector ExtendedReal) : ℝ :=
  (tree.path x).1 + meanPath (tree.path x).2

theorem pathLength_real (tree : Tree ExtendedReal) (x : FeatureVector ExtendedReal) :
    tree.pathLength x = real (tree.exactLength x) := by
  show Scalar.ofNat _ + meanPath _ = _
  rw [meanPath_real]
  rfl

theorem exactLength_nonneg (tree : Tree ExtendedReal) (x : FeatureVector ExtendedReal) :
    0 ≤ tree.exactLength x :=
  add_nonneg (Nat.cast_nonneg _) (meanPath_nonneg _)

end Tree

namespace Prediction

/-! ## Normalised scores -/

theorem normalized_real (s : ℝ) : normalized (real s) = real (1 / (1 + Real.exp s)) := by
  have pos : (1.0 : ℝ) + Real.exp s ≠ 0 := by
    norm_num
    positivity
  simp only [normalized, isFinite_real, ↓reduceIte, exp_real, ofScientific_eq, real_add,
    real_div pos]
  norm_num

/-- A normalised score lies in the unit interval, also that of a score that is not finite. -/
theorem normalized_within_unit (v : ExtendedReal) : Within 0 1 (normalized v) := by
  cases v with
  | real s =>
    refine ⟨_, normalized_real s, by positivity, ?_⟩
    rw [div_le_one (by positivity)]
    linarith [Real.exp_pos s]
  | infinity | undefined => exact ⟨1, congrArg real (by norm_num), zero_le_one, le_refl 1⟩

/-- It falls as the score grows. -/
theorem normalized_within {lo hi : ℝ} {v : ExtendedReal} (h : Within lo hi v) :
    Within (1 / (1 + Real.exp hi)) (1 / (1 + Real.exp lo)) (normalized v) := by
  obtain ⟨s, rfl, low, high⟩ := h
  have bottom := Real.exp_le_exp.2 low
  have top := Real.exp_le_exp.2 high
  refine ⟨_, normalized_real s, ?_, ?_⟩ <;>
    exact one_div_le_one_div_of_le (by positivity) (by linarith)

end Prediction

namespace Forest

/-! ## Scores -/

/-- A negated anomaly score lies between -1 and 0. -/
theorem negatedAnomaly_within {trees : List (Tree ExtendedReal)} (some : trees ≠ []) (size : ℕ)
    (x : FeatureVector ExtendedReal) : Within (-1) 0 (negatedAnomaly trees size x) := by
  have count : (0 : ℝ) < trees.length := Nat.cast_pos.2 (List.length_pos_iff.2 some)
  have lengths : trees.map (fun t => t.pathLength x)
      = (trees.map fun t => t.exactLength x).map real := by
    rw [List.map_map]
    exact List.map_congr_left fun t _ => t.pathLength_real x
  have total : 0 ≤ (trees.map fun t => t.exactLength x).sum := by
    refine List.sum_nonneg fun l mem => ?_
    obtain ⟨t, -, rfl⟩ := List.mem_map.1 mem
    exact t.exactLength_nonneg x
  have least : (leastNorm : ExtendedReal) = real (1 / 4503599627370496) := by
    rw [leastNorm, ofScientific_eq, ofScientific_eq, real_div (by norm_num)]
    norm_num
  obtain ⟨norm, pos, value⟩ : ∃ norm : ℝ, 0 < norm ∧
      (if (Tree.meanPath size : ExtendedReal) < leastNorm then leastNorm
        else Tree.meanPath size) = real norm := by
    rw [Tree.meanPath_real, least]
    split_ifs with small
    · exact ⟨_, by norm_num, rfl⟩
    · exact ⟨_, lt_of_lt_of_le (by norm_num) (not_lt.1 small), rfl⟩
  set mean := (trees.map fun t => t.exactLength x).sum / trees.length
  have below : -mean / norm ≤ 0 :=
    div_nonpos_of_nonpos_of_nonneg (neg_nonpos.2 (div_nonneg total count.le)) pos.le
  have made : negatedAnomaly trees size x = real (-2 ^ (-mean / norm)) := by
    simp only [negatedAnomaly, lengths, sum_real, ofNat_eq, real_div count.ne', value, real_neg,
      real_div pos.ne', exp2_real]
    rfl
  have upper : (2 : ℝ) ^ (-mean / norm) ≤ 1 := Real.rpow_le_one_of_one_le_of_nonpos one_le_two below
  have lower : (0 : ℝ) < 2 ^ (-mean / norm) := Real.rpow_pos_of_pos two_pos _
  exact ⟨_, made, by linarith, by linarith⟩

theorem yields_length_growTrees {σ : Type} (draws : Draws ExtendedReal σ) (size : ℕ)
    (rows : Array (FeatureVector ExtendedReal)) (count : ℕ) :
    Drawing.Yields (fun trees => trees.length = count) (growTrees draws size rows count) := by
  induction count with
  | zero => exact Drawing.yields_pure rfl
  | succ count ih =>
    exact (Drawing.yields_anything _).bind fun tree _ => ih.bind fun rest length =>
      Drawing.yields_pure (congrArg (· + 1) length)

/-- What it means that the scores of a forest stay in range: every path has a length from zero on,
negated anomaly scores and the boundary lie between -1 and 0, scores between -1 and 1, and normalised
scores between `1 / (1 + e)` and `e / (1 + e)`. All of this is said of every row, also of one that is
not finite. -/
structure InRange (f : Forest ExtendedReal) : Prop where
  pathLength : ∀ tree ∈ f.trees, ∀ x, ∃ l : ℝ, tree.pathLength x = real l ∧ 0 ≤ l
  negatedAnomaly : ∀ x, Within (-1) 0 (negatedAnomaly f.trees f.sampleSize x)
  offset : Within (-1) 0 f.offset
  score : ∀ x, Within (-1) 1 (f.score x)
  normalized : ∀ x, Within (1 / (1 + Real.exp 1)) (Real.exp 1 / (1 + Real.exp 1))
    (Prediction.normalized (f.score x))

/-- **The scores of a forest stay in range**, whatever its rows are and whatever is drawn. -/
theorem inRange_growWith {σ : Type} (draws : Draws ExtendedReal σ) (start : σ)
    {params : Params ExtendedReal} (defined : params.contamination ≠ undefined)
    (rows : List (FeatureVector ExtendedReal)) : (growWith draws start params rows).1.InRange := by
  set f := (growWith draws start params rows).1
  have length : f.trees.length = max 1 params.estimators := yields_length_growTrees draws _ _ _ start
  have some : f.trees ≠ [] := List.ne_nil_of_length_pos (by omega)
  have samples (x : FeatureVector ExtendedReal) := negatedAnomaly_within some f.sampleSize x
  have offset : Within (-1) 0 f.offset := by
    refine percentile?_getD_within ⟨by norm_num, le_refl 0⟩ (fun v mem => ?_)
      (real_mul_ne_undefined (by norm_num) defined)
    obtain ⟨row, -, rfl⟩ := List.mem_map.1 mem
    exact samples row
  have score (x : FeatureVector ExtendedReal) : Within (-1) 1 (f.score x) := by
    have bounds := (samples x).sub offset
    norm_num at bounds
    exact bounds
  refine ⟨fun tree _ x => ⟨_, tree.pathLength_real x, tree.exactLength_nonneg x⟩, samples, offset,
    score, fun x => ?_⟩
  have bounds := Prediction.normalized_within (score x)
  have upper : 1 / (1 + Real.exp (-1)) = Real.exp 1 / (1 + Real.exp 1) := by
    rw [Real.exp_neg]
    field_simp
    ring
  rwa [upper] at bounds

end Forest

/-! ## Both models -/

/-- The common score of two models, the first with the usual weight. -/
theorem Prediction.compositeOf_within {hi : ℝ} {primary : ExtendedReal}
    (bounds : Within 0 hi (normalized primary)) (secondary : ExtendedReal) :
    Within 0 (0.6 * hi + 0.4) (compositeOf 0.6 primary secondary) := by
  obtain ⟨a, first, low, high⟩ := bounds
  obtain ⟨b, second, low', high'⟩ := normalized_within_unit secondary
  have made : compositeOf 0.6 primary secondary = real (0.6 * a + (1.0 - 0.6) * b) := by
    rw [compositeOf, first, second]
    rfl
  refine ⟨_, made, ?_, ?_⟩
  · norm_num
    positivity
  · norm_num
    linarith

/-- The common score of a usual forest and an envelope. -/
theorem Trained.composite_within (rows : List (FeatureVector ExtendedReal))
    (x : FeatureVector ExtendedReal) :
    Within 0 (0.6 * Real.exp 1 / (1 + Real.exp 1) + 0.4)
      ((fit .isolationForest .ellipticEnvelope rows).predict 0.6 x).composite := by
  set t := fit .isolationForest .ellipticEnvelope rows
  have usual : (Forest.Params.standard : Forest.Params ExtendedReal).contamination ≠ undefined :=
    ExtendedReal.noConfusion
  have forest := (Forest.inRange_growWith ChaCha.draws (ChaCha.ofSeed 42) usual
    (rows.map (Standardizer.fit rows).transform)).normalized (t.standardizer.transform x)
  obtain ⟨a, made, low, high⟩ := forest
  rw [mul_div_assoc]
  exact Prediction.compositeOf_within ⟨a, made, le_trans (by positivity) low, high⟩ _

namespace Forest

/-- Over finite rows a forest can be fitted. -/
theorem fit_extended {params : Params ExtendedReal} (room : params.estimators < treeLimit)
    {rows : List (FeatureVector ExtendedReal)} (some : rows ≠ [])
    (finite : ∀ row ∈ rows, row.isFinite = true) :
    fit params rows = .ok (grow params rows).1 := by
  have splits : Splittable fun v : ExtendedReal => Scalar.isFinite v = true := by
    intro v w hv hw _
    obtain ⟨a, rfl⟩ := eq_real_of_isFinite hv
    obtain ⟨b, rfl⟩ := eq_real_of_isFinite hw
    exact ⟨rfl, rfl, rfl⟩
  exact fit_of_splittable splits room some fun row mem =>
    FeatureVector.isFinite_iff.1 (finite row mem)

/-- **The scores of a forest stay in range.** In exact arithmetic this holds of every forest that is
grown over some rows, whatever they are, whatever is drawn and whatever is asked for, so long as the
share of outliers is a number; and over finite rows a forest can be fitted. So a detector with a
forest that weighs `0.6` and an envelope never reports more than `0.6 * e / (1 + e) + 0.4`. -/
theorem scores_stay_in_range :
    (∀ (rows : List (FeatureVector ExtendedReal)) (params : Params ExtendedReal),
      params.contamination ≠ undefined →
      (∀ (σ : Type) (draws : Draws ExtendedReal σ) (start : σ),
        (growWith draws start params rows).1.InRange) ∧
      (rows ≠ [] → (∀ row ∈ rows, row.isFinite = true) → params.estimators < treeLimit →
        ∃ f, fit params rows = .ok f ∧ f.InRange)) ∧
    ∀ (settings : Settings ExtendedReal) (u : Usage ExtendedReal) (x : FeatureVector ExtendedReal),
      settings.primary = .isolationForest → settings.secondary = .ellipticEnvelope →
      settings.primaryWeight = 0.6 →
      Within 0 (0.6 * Real.exp 1 / (1 + Real.exp 1) + 0.4)
        (((Detector.ofSettings settings).after u).predict x).composite := by
  refine ⟨fun rows params defined => ⟨fun σ draws start => inRange_growWith draws start defined rows,
    fun some finite room => ⟨_, fit_extended room some finite, inRange_growWith _ _ defined rows⟩⟩,
    fun settings u x primary secondary weight => ?_⟩
  rw [Detector.predict_eq, Detector.models?_after, Detector.settings_after]
  simp only [Detector.ofSettings, primary, secondary, weight]
  cases (Detector.fits _ u).getLast? with
  | none => exact ⟨0, congrArg real Scalar.zero_exact, le_refl 0, by positivity⟩
  | some rows => exact Trained.composite_within rows x

/-- A forest that is asked for no tree, no row and an infinite share of outliers, over one row of
zeros, and a row that is not a number in any feature; and the usual pair of models after a training
on fifty such rows. -/
theorem scores_of_an_undefined_row_stay_in_range :
    let zeros : FeatureVector ExtendedReal := FeatureVector.fill (real 0)
    let row : FeatureVector ExtendedReal := FeatureVector.fill undefined
    let params : Params ExtendedReal := ⟨0, 0, infinity false, 7⟩
    let settings : Settings ExtendedReal :=
      ⟨.isolationForest, .ellipticEnvelope, 0.6, .ofSeconds 300, 1000⟩
    let d := (Detector.ofSettings settings).after [(0, .train (List.replicate 50 zeros))]
    params.contamination ≠ undefined ∧ (∀ r ∈ [zeros], r.isFinite = true) ∧
      (∃ f, fit params [zeros] = .ok f ∧ f.InRange ∧ Within (-1) 1 (f.score row)) ∧
      Within 0 (0.6 * Real.exp 1 / (1 + Real.exp 1) + 0.4) (d.predict row).composite := by
  intro zeros row params settings d
  have defined : params.contamination ≠ undefined := ExtendedReal.noConfusion
  have finite : ∀ r ∈ [zeros], r.isFinite = true :=
    List.forall_mem_singleton.2 (FeatureVector.isFinite_fill rfl)
  obtain ⟨f, fitted, range⟩ := (scores_stay_in_range.1 [zeros] params defined).2
    (List.cons_ne_nil _ _) finite (by decide)
  exact ⟨defined, finite, ⟨f, fitted, range, range.score row⟩,
    scores_stay_in_range.2 settings _ row rfl rfl rfl⟩

end Forest

end CounterWatch
