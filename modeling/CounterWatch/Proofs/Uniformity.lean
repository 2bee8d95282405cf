import CounterWatch.Proofs.Column
import CounterWatch.Proofs.Training

/-!
# Uniform training rows

A training warns of rows that are too uniform. A feature is uniform over some rows if its spread is
below one hundredth of its mean. The warning also counts every feature with a mean next to zero,
whatever its spread, because a quotient by that mean is not taken. So uniform rows are never passed
over in silence, but rows that vary about zero are warned of as if they were uniform.

* `Diversity.Uniform` are the features that are uniform, and `Diversity.Centred` those with a mean
  next to zero.
* `Diversity.uniform_ofRows` says which features are counted.
* `Detector.uniformity_warning_iff` says when a training warns, and
  `Detector.uniformity_warning_of_centred_rows` that it does so for rows with no uniform feature.
-/

namespace CounterWatch

/-- The features that pass a test, counted. -/
theorem length_filter_finRange {n : ℕ} (p : Fin n → Bool) :
    ((List.finRange n).filter p).length = {j | p j = true}.ncard := by
  rw [← List.toFinset_card_of_nodup ((List.nodup_finRange n).filter p), ← Set.ncard_coe_finset]
  congr 1
  ext j
  simp

namespace Diversity

variable (rows : List (FeatureVector ℝ)) (j : Fin featureCount)

/-- Whether a feature has no spread over some rows, or one below one hundredth of its mean. -/
def Uniform : Prop :=
  FeatureVector.deviation rows j = 0 ∨
    FeatureVector.deviation rows j < 0.01 * |FeatureVector.mean rows j|

/-- Whether the mean of a feature over some rows is next to zero. -/
def Centred : Prop := |FeatureVector.mean rows j| ≤ 1e-12

theorem get_means : (means rows).get j = FeatureVector.mean rows j :=
  FeatureVector.get_foldl_quotient rows j

theorem deviation_means : deviation rows (means rows) j = FeatureVector.deviation rows j := by
  rw [deviation, Scalar.sum_exact, get_means]
  simp only [Scalar.square_exact]
  rw [Scalar.ofNat_exact, ← FeatureVector.variance_exact]
  rfl

/-- What is counted as uniform is so, or has a mean next to zero. -/
theorem isUniform_iff :
    isUniform (FeatureVector.mean rows j) (FeatureVector.deviation rows j) = true
      ↔ Centred rows j ∨ Uniform rows j := by
  rw [isUniform, Scalar.abs_exact, decide_eq_true_eq, Centred, Uniform]
  split_ifs with large
  · have pos : 0 < |FeatureVector.mean rows j| := lt_trans (by norm_num) large
    rw [div_lt_iff₀ pos, or_iff_right (not_le.2 large), or_iff_right_of_imp fun none => ?_]
    rw [none]
    positivity
  · exact iff_of_true (by norm_num) (.inl (not_lt.1 large))

theorem uniform_ofRows :
    (ofRows rows).uniform = {j | Centred rows j ∨ Uniform rows j}.ncard := by
  rw [ofRows]
  simp only [length_filter_finRange, get_means, Vector.get_ofFn, deviation_means, isUniform_iff]

end Diversity

namespace Detector

open Diversity

theorem mem_diversityEntries {v : Diversity} {count : ℕ} :
    .uniformFeatures count ∈ diversityEntries v
      ↔ count = v.uniform ∧ featureCount / 2 < v.uniform := by
  have majority : v.isUniformMajority = true ↔ featureCount / 2 < v.uniform := decide_eq_true_iff
  rw [diversityEntries, ← majority]
  split_ifs <;> simp [*]

section

variable (d : Detector ℝ) (now : Moment) {rows : List (FeatureVector ℝ)}
  (enough : minTrainRows ≤ rows.length)

include enough

/-- What a training says about uniform features. -/
theorem mem_entries_train {count : ℕ} : .uniformFeatures count ∈ (d.train now rows).entries
    ↔ count = {j | Centred rows j ∨ Uniform rows j}.ncard ∧
      featureCount / 2 < {j | Centred rows j ∨ Uniform rows j}.ncard := by
  rw [train, FeatureVector.filter_isFinite_exact, if_neg (Nat.not_lt.2 enough), List.mem_append,
    mem_diversityEntries, uniform_ofRows, List.mem_singleton]
  exact or_iff_left JournalEntry.noConfusion

end

/-- **When a training warns of uniform rows.** After a training on enough rows the warning is given
exactly if more than half of the features are uniform or have a mean next to zero, and its count is
the count of these features. So it is given whenever more than half of the features are uniform; and
if every feature with a mean next to zero has no spread at all, it is given in no other case. This is
in exact arithmetic. -/
theorem uniformity_warning_iff (d : Detector ℝ) (now : Moment) (rows : List (FeatureVector ℝ))
    (enough : minTrainRows ≤ rows.length) :
    let entries := (d.train now rows).entries
    let counted := {j | Centred rows j ∨ Uniform rows j}
    (∀ count, .uniformFeatures count ∈ entries ↔
      count = counted.ncard ∧ featureCount / 2 < counted.ncard) ∧
    (featureCount / 2 < {j | Uniform rows j}.ncard → ∃ count, .uniformFeatures count ∈ entries) ∧
    ((∀ j, Centred rows j → FeatureVector.deviation rows j = 0) →
      ((∃ count, .uniformFeatures count ∈ entries) ↔
        featureCount / 2 < {j | Uniform rows j}.ncard)) := by
  intro entries counted
  have said (count : ℕ) : .uniformFeatures count ∈ entries ↔
      count = counted.ncard ∧ featureCount / 2 < counted.ncard := d.mem_entries_train now enough
  have warned : (∃ count, .uniformFeatures count ∈ entries) ↔ featureCount / 2 < counted.ncard := by
    simp only [said, exists_eq_left]
  refine ⟨said, fun majority => warned.2 ?_, fun spread => ?_⟩
  · exact majority.trans_le (Set.ncard_le_ncard (fun j uniform => .inr uniform))
  · have same : counted = {j | Uniform rows j} := by
      ext j
      exact or_iff_right_of_imp fun centred => .inl (spread j centred)
    rw [warned, same]

/-- Twenty-five rows of one value and as many of another one. -/
noncomputable def halves (a b : ℝ) : List (FeatureVector ℝ) :=
  List.replicate 25 (FeatureVector.fill a) ++ List.replicate 25 (FeatureVector.fill b)

theorem enough_halves (a b : ℝ) : minTrainRows ≤ (halves a b).length := by
  rw [halves, List.length_append, List.length_replicate, List.length_replicate]
  decide

theorem mean_halves (a b : ℝ) (j : Fin featureCount) :
    FeatureVector.mean (halves a b) j = (a + b) / 2 := by
  simp only [FeatureVector.mean_exact, halves, List.map_append, List.map_replicate,
    FeatureVector.get_fill, List.sum_append, List.sum_replicate, List.length_append,
    List.length_replicate, nsmul_eq_mul]
  norm_num
  ring

theorem deviation_halves (a b : ℝ) (j : Fin featureCount) :
    FeatureVector.deviation (halves a b) j = |a - b| / 2 := by
  have variance : FeatureVector.variance (halves a b) j = (|a - b| / 2) ^ 2 := by
    rw [FeatureVector.variance_exact, mean_halves, div_pow, sq_abs]
    simp only [halves, List.map_append, List.map_replicate, FeatureVector.get_fill, List.sum_append,
      List.sum_replicate, List.length_append, List.length_replicate, nsmul_eq_mul]
    norm_num
    ring
  rw [FeatureVector.deviation_exact, variance, Real.sqrt_sq (by positivity)]

theorem ncard_all {p : Fin featureCount → Prop} (all : ∀ j, p j) :
    {j | p j}.ncard = featureCount := by
  have every : {j | p j} = Set.univ := Set.eq_univ_of_forall all
  rw [every, Set.ncard_univ, Nat.card_eq_fintype_card, Fintype.card_fin]

theorem ncard_none {p : Fin featureCount → Prop} (none : ∀ j, ¬p j) : {j | p j}.ncard = 0 := by
  have nothing : {j | p j} = ∅ := Set.eq_empty_of_forall_notMem none
  rw [nothing, Set.ncard_empty]

theorem not_uniform_halves {a b : ℝ} (apart : 0.01 * |a + b| ≤ |a - b|) (differ : a ≠ b)
    (j : Fin featureCount) : ¬Uniform (halves a b) j := by
  have spread : 0 < |a - b| := abs_pos.2 (sub_ne_zero.2 differ)
  rw [Uniform, mean_halves, deviation_halves, abs_div, abs_two]
  rintro (none | small) <;> linarith

/-- Equal rows, of which a training warns, and rows of one and of three, of which it does not. -/
theorem uniformity_warning_of_equal_rows :
    let d : Detector ℝ := ofSettings ⟨.isolationForest, .ellipticEnvelope, 0.6, .ofSeconds 300, 1000⟩
    minTrainRows ≤ (halves 3 3).length ∧
      .uniformFeatures 14 ∈ (d.train 0 (halves 3 3)).entries ∧
      minTrainRows ≤ (halves 1 3).length ∧
      (∀ j, Centred (halves 1 3) j → FeatureVector.deviation (halves 1 3) j = 0) ∧
      ¬∃ count, .uniformFeatures count ∈ (d.train 0 (halves 1 3)).entries := by
  intro d
  have equal : {j | Centred (halves 3 3) j ∨ Uniform (halves 3 3) j}.ncard = 14 := by
    refine ncard_all fun j => .inr (.inl ?_)
    rw [deviation_halves]
    norm_num
  have centred (j : Fin featureCount) : ¬Centred (halves 1 3) j := by
    rw [Centred, mean_halves]
    norm_num
  have spread : ∀ j, Centred (halves 1 3) j → FeatureVector.deviation (halves 1 3) j = 0 :=
    fun j next => absurd next (centred j)
  have varied : {j | Uniform (halves 1 3) j}.ncard = 0 :=
    ncard_none (not_uniform_halves (by norm_num) (by norm_num))
  refine ⟨enough_halves 3 3, ?_, enough_halves 1 3, spread, fun warned => ?_⟩
  · refine ((uniformity_warning_iff d 0 _ (enough_halves 3 3)).1 14).2 ?_
    rw [equal]
    decide
  · have majority := ((uniformity_warning_iff d 0 _ (enough_halves 1 3)).2.2 spread).1 warned
    rw [varied] at majority
    exact Nat.not_lt_zero _ majority

/-- Rows of one and of minus one: no feature is uniform, and a training warns of fourteen. So the
warning is not given just when more than half of the features are uniform. -/
theorem uniformity_warning_of_centred_rows :
    let d : Detector ℝ := ofSettings ⟨.isolationForest, .ellipticEnvelope, 0.6, .ofSeconds 300, 1000⟩
    let rows := halves 1 (-1)
    minTrainRows ≤ rows.length ∧ (∀ j, ¬Uniform rows j) ∧
      .uniformFeatures 14 ∈ (d.train 0 rows).entries ∧
      ¬((∃ count, .uniformFeatures count ∈ (d.train 0 rows).entries) ↔
        featureCount / 2 < {j | Uniform rows j}.ncard) := by
  intro d rows
  have varied : ∀ j, ¬Uniform rows j := not_uniform_halves (by norm_num) (by norm_num)
  have centred : {j | Centred rows j ∨ Uniform rows j}.ncard = 14 := by
    refine ncard_all fun j => .inl ?_
    rw [Centred, mean_halves]
    norm_num
  have warned : .uniformFeatures 14 ∈ (d.train 0 rows).entries := by
    rw [d.mem_entries_train 0 (enough_halves 1 (-1)), centred]
    decide
  refine ⟨enough_halves 1 (-1), varied, warned, fun same => ?_⟩
  have majority := same.1 ⟨14, warned⟩
  rw [ncard_none varied] at majority
  exact Nat.not_lt_zero _ majority

end Detector

end CounterWatch
