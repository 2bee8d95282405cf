import CounterWatch.Proofs.Percentile
import CounterWatch.Proofs.Replacement

/-!
# The share of outliers among training rows

The boundary of a model is a percentile of its scores on the training rows. So it is known from the
start how many of these rows the model calls outliers: the forest those below a percentile from
below, the envelope those above one from above, and both as many as their share asks for. In exact
arithmetic, the count goes by the steps from the first row to the last: a share `r` of `n` rows is
`r * (n - 1)`, rounded up.

* `Model.LeavesOut` is that a model leaves a share of some rows outside, and
  `Forest.leavesOut_growWith` and `Envelope.leavesOut_fit` say it of the two families.
* `Trained.levels_of_leavesOut` is what it means for the two models together.
* `Detector.share_of_outliers` is both, for the models that are fitted and for those in place after
  a training.
-/

namespace CounterWatch

/-! ## Verdicts -/

theorem Verdict.ofScore_exact (score : ℝ) : Verdict.ofScore score = .outlier ↔ score < 0 := by
  rw [Verdict.ofScore, Scalar.isFinite_exact, Scalar.zero_exact, ← not_le]
  split_ifs with inside
  · simp [inside.2]
  · simpa using inside

namespace Model

/-- Of some rows a model calls at most a share outliers, counted from the first row to the last and
rounded up, and exactly as many if no two rows have the same score. -/
def LeavesOut (m : Model ℝ) (r : ℝ) (rows : List (FeatureVector ℝ)) : Prop :=
  let outliers := rows.countP fun row => m.verdict row = .outlier
  outliers ≤ ⌈r * (rows.length - 1)⌉₊ ∧
    ((rows.map m.score).Nodup → outliers = ⌈r * (rows.length - 1)⌉₊)

/-- The outliers of a model are counted by values that its scores are made of. -/
theorem leavesOut_of_countP {m : Model ℝ} {r : ℝ} {rows : List (FeatureVector ℝ)}
    {value : FeatureVector ℝ → ℝ} {beyond : ℝ → Bool} (shift : ℝ → ℝ)
    (scored : ∀ row, m.score row = shift (value row))
    (outlying : ∀ row, m.score row < 0 ↔ beyond (value row) = true)
    (count : (rows.map value).countP beyond ≤ ⌈r * ((rows.map value).length - 1)⌉₊ ∧
      ((rows.map value).Nodup →
        (rows.map value).countP beyond = ⌈r * ((rows.map value).length - 1)⌉₊)) :
    m.LeavesOut r rows := by
  have same : rows.countP (fun row => m.verdict row = .outlier)
      = (rows.map value).countP beyond := by
    rw [List.countP_map]
    refine List.countP_congr fun row _ => ?_
    rw [decide_eq_true_eq, verdict, Verdict.ofScore_exact, outlying]
    rfl
  rw [List.length_map] at count
  rw [LeavesOut, same]
  refine ⟨count.1, fun distinct => count.2 (List.Nodup.of_map shift ?_)⟩
  rw [List.map_map]
  exact (List.map_congr_left fun row _ => scored row) ▸ distinct

end Model

/-! ## The two families -/

section

variable {r : ℝ} (pos : 0 ≤ r) (le : r ≤ 1) {rows : List (FeatureVector ℝ)} (some : rows ≠ [])

include some

/-- A forest calls a row an outlier if its score is below the boundary. -/
theorem Forest.leavesOut_growWith {σ : Type} (draws : Draws ℝ σ) (start : σ) (params : Params ℝ)
    (pos : 0 ≤ params.contamination) (le : params.contamination ≤ 1) :
    (Model.forest (growWith draws start params rows).1).LeavesOut params.contamination rows := by
  set f := (growWith draws start params rows).1 with grown
  have values : rows.map (negatedAnomaly f.trees f.sampleSize) ≠ [] := by simpa using some
  obtain ⟨v, made, count⟩ := Scalar.share_below_percentile values pos le
  have offset : f.offset = v := by
    have boundary : f.offset = (Scalar.percentile? (rows.map (negatedAnomaly f.trees f.sampleSize))
      (100.0 * params.contamination)).getD 0.0 := rfl
    rw [boundary, made, Option.getD_some]
  refine Model.leavesOut_of_countP (fun x => x - v) (fun row => ?_) (fun row => ?_) count
  · rw [Model.score, score, offset]
  · rw [Model.score, score, offset, sub_neg, decide_eq_true_eq]

include pos le

/-- An envelope calls a row an outlier if its distance is above the radius. -/
theorem Envelope.leavesOut_fit : (Model.envelope (fit r rows)).LeavesOut r rows := by
  set e := fit r rows
  have values : rows.map (distance e.center e.weight) ≠ [] := by simpa using some
  obtain ⟨v, made, count⟩ := Scalar.share_above_percentile values pos le
  have radius : e.radius = v := by
    have boundary : e.radius = (Scalar.percentile? (rows.map (distance e.center e.weight))
      (100.0 * (1.0 - r))).getD 0.0 := rfl
    rw [boundary, made, Option.getD_some]
  refine Model.leavesOut_of_countP (fun x => v - x) (fun row => ?_) (fun row => ?_) count
  · rw [Model.score, score, radius]
  · rw [Model.score, score, radius, sub_neg, decide_eq_true_eq]

end

/-- The usual model of a family leaves one hundredth of its rows outside. -/
theorem ModelKind.leavesOut_build (kind : ModelKind) {rows : List (FeatureVector ℝ)}
    (some : rows ≠ []) : (kind.build rows).LeavesOut 0.01 rows := by
  cases kind with
  | isolationForest =>
    exact Forest.leavesOut_growWith some _ _ .standard (by norm_num [Forest.Params.standard])
      (by norm_num [Forest.Params.standard])
  | ellipticEnvelope =>
    exact Envelope.leavesOut_fit (by norm_num [Envelope.defaultShare])
      (by norm_num [Envelope.defaultShare]) some

/-- In exact arithmetic every forest can be fitted. -/
theorem Forest.fit_exact {params : Params ℝ} (room : params.estimators < treeLimit)
    {rows : List (FeatureVector ℝ)} (some : rows ≠ []) :
    fit params rows = .ok (grow params rows).1 :=
  fit_of_splittable (p := fun _ => True) (fun _ _ _ => ⟨rfl, rfl, rfl⟩) room some
    fun _ _ _ => trivial

/-! ## Both models -/

/-- What one of two tests finds is found by the first or by the second. -/
theorem countP_le_add {β : Type} {p q r : β → Bool} (xs : List β)
    (split : ∀ x, r x = true → p x = true ∨ q x = true) :
    xs.countP r ≤ xs.countP p + xs.countP q := by
  induction xs with
  | nil => exact Nat.zero_le _
  | cons x xs ih =>
    simp only [List.countP_cons]
    by_cases found : r x = true
    · rcases split x found with first | second
      · rw [if_pos found, if_pos first]
        omega
      · rw [if_pos found, if_pos second]
        omega
    · rw [if_neg found]
      omega

namespace Trained

variable {t : Trained ℝ} {r : ℝ} {rows : List (FeatureVector ℝ)}
  (primary : t.primary.LeavesOut r (rows.map t.standardizer.transform))
  (secondary : t.secondary.LeavesOut r (rows.map t.standardizer.transform)) (weight : ℝ)

/-- The rows that a model calls outliers on the standard scale. -/
theorem countP_outlier_le {m : Model ℝ} (out : m.LeavesOut r (rows.map t.standardizer.transform)) :
    rows.countP (fun row => m.verdict (t.standardizer.transform row) = .outlier)
      ≤ ⌈r * (rows.length - 1)⌉₊ := by
  have count := out.1
  rw [List.countP_map, List.length_map] at count
  exact count

include primary in
/-- Rows that both models call outliers are outliers of the first. -/
theorem countP_critical_le :
    rows.countP (fun row => (t.predict weight row).level = .critical)
      ≤ ⌈r * (rows.length - 1)⌉₊ := by
  refine le_trans (List.countP_mono_left fun row _ critical => ?_) (countP_outlier_le primary)
  rw [decide_eq_true_eq] at critical ⊢
  exact (AlertLevel.ofVerdicts_eq_critical critical).1

include primary secondary in
/-- Rows that are not normal are outliers of one of the models. -/
theorem countP_ne_normal_le :
    rows.countP (fun row => (t.predict weight row).level ≠ .normal)
      ≤ 2 * ⌈r * (rows.length - 1)⌉₊ := by
  refine le_trans (countP_le_add rows fun row alert => ?_)
    ((Nat.add_le_add (countP_outlier_le primary) (countP_outlier_le secondary)).trans_eq
      (Nat.two_mul _).symm)
  rw [decide_eq_true_eq] at alert
  rw [decide_eq_true_eq, decide_eq_true_eq]
  exact AlertLevel.ofVerdicts_ne_normal_iff.1 alert

/-- The usual models of some rows leave one hundredth of them outside, each on the standard scale
of the rows. -/
theorem leavesOut_fit (first second : ModelKind) {rows : List (FeatureVector ℝ)}
    (some : rows ≠ []) :
    let t := Trained.fit first second rows
    t.primary.LeavesOut 0.01 (rows.map t.standardizer.transform) ∧
      t.secondary.LeavesOut 0.01 (rows.map t.standardizer.transform) := by
  have scaled : rows.map (Standardizer.fit rows).transform ≠ [] := by simpa using some
  exact ⟨first.leavesOut_build scaled, second.leavesOut_build scaled⟩

end Trained

namespace Detector

/-- **The share of outliers among training rows.** In exact arithmetic, of the `n` rows that a model
is made of it calls at most `r * (n - 1)` outliers, rounded up, where `r` is the share that it is
asked to leave out, from zero to one; and exactly so many if no two of the rows have the same score.
This holds of a forest, whatever is drawn as it grows, and of an envelope. So after a training of
any detector at most `0.01 * (n - 1)` of the rows are critical, rounded up, and at most twice as
many are not normal. -/
theorem share_of_outliers :
    (∀ (rows : List (FeatureVector ℝ)) (params : Forest.Params ℝ), rows ≠ [] →
      0 ≤ params.contamination → params.contamination ≤ 1 →
      (∀ (σ : Type) (draws : Draws ℝ σ) (start : σ),
        (Model.forest (Forest.growWith draws start params rows).1).LeavesOut params.contamination
          rows) ∧
      (params.estimators < Forest.treeLimit → ∃ f, Forest.fit params rows = .ok f ∧
        (Model.forest f).LeavesOut params.contamination rows)) ∧
    (∀ (rows : List (FeatureVector ℝ)) (nu : ℝ), rows ≠ [] → 0 ≤ nu → nu ≤ 1 →
      (Model.envelope (Envelope.fit nu rows)).LeavesOut nu rows) ∧
    ∀ (d : Detector ℝ) (now : Moment) (rows : List (FeatureVector ℝ)),
      (d.train now rows).installed = true →
      let trained := (d.train now rows).detector
      rows.countP (fun row => (trained.predict row).level ≠ .normal)
        ≤ 2 * ⌈(0.01 : ℝ) * (rows.length - 1)⌉₊ ∧
      rows.countP (fun row => (trained.predict row).level = .critical)
        ≤ ⌈(0.01 : ℝ) * (rows.length - 1)⌉₊ := by
  refine ⟨fun rows params some pos le => ⟨fun σ draws start => ?_, fun room => ?_⟩,
    fun rows nu some pos le => Envelope.leavesOut_fit pos le some,
    fun d now rows installed => ?_⟩
  · exact Forest.leavesOut_growWith some draws start params pos le
  · exact ⟨_, Forest.fit_exact room some, Forest.leavesOut_growWith some _ _ params pos le⟩
  · intro trained
    have finite : rows.filter FeatureVector.isFinite = rows :=
      List.filter_eq_self.2 fun row _ => row.isFinite_exact
    have enough := (d.installed_train now rows).1 installed
    have content := d.train_of_installed now installed
    rw [finite] at enough content
    have some : rows ≠ [] := List.ne_nil_of_length_pos (Nat.lt_of_lt_of_le (by decide) enough)
    obtain ⟨primary, secondary⟩ :=
      Trained.leavesOut_fit d.settings.primary d.settings.secondary some
    have predicted (row : FeatureVector ℝ) : trained.predict row
        = (Trained.fit d.settings.primary d.settings.secondary rows).predict
          d.settings.primaryWeight row := by
      show (d.train now rows).detector.predict row = _
      rw [content]
      rfl
    simp only [predicted]
    exact ⟨Trained.countP_ne_normal_le primary secondary _, Trained.countP_critical_le primary _⟩

/-- A training on 101 rows: at most one of them is critical and at most two are not normal. -/
theorem outliers_among_rising_rows :
    let rows := (List.range 101).map fun n : ℕ => FeatureVector.fill (n : ℝ)
    let settings : Settings ℝ := ⟨.isolationForest, .ellipticEnvelope, 0.5, .ofSeconds 300, 1000⟩
    let r := (ofSettings settings).train 0 rows
    r.installed = true ∧
      rows.countP (fun row => (r.detector.predict row).level ≠ .normal) ≤ 2 ∧
      rows.countP (fun row => (r.detector.predict row).level = .critical) ≤ 1 := by
  intro rows settings r
  have length : rows.length = 101 := by rw [List.length_map, List.length_range]
  have finite : rows.filter FeatureVector.isFinite = rows :=
    List.filter_eq_self.2 fun row _ => row.isFinite_exact
  have installed : r.installed = true := by
    refine ((ofSettings settings).installed_train 0 rows).2 ?_
    rw [finite, length]
    decide
  have share : ⌈(0.01 : ℝ) * (rows.length - 1)⌉₊ = 1 := by
    rw [length]
    norm_num
  have counts := share_of_outliers.2.2 (ofSettings settings) 0 rows installed
  rw [share] at counts
  exact ⟨installed, counts⟩

end Detector

end CounterWatch
