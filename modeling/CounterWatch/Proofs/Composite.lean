import CounterWatch.Proofs.Mixture
import CounterWatch.Proofs.Usage

/-!
# The common score

The common score of a row is a mixture of two shares, one for each model: `1 / (1 + e)`, where `e`
is the exponential of the raw score, and one for a raw score that is not a finite number. The
exponential is the one thing here that no standard fixes to the last bit, so that all is proved for
any function in its place, of which a statement asks what it needs.

* `Elementary` are the functions in question, and `Elementary.Exponential` is what is asked of an
  exponential.
* A share falls as the raw score grows, and is on the side of one half that the verdict says
  (`share_le_share`, `share_le_half`, `half_le_share`).
* The common score is from zero to one exactly if the configured weight is a number
  (`composite_mem_interval_iff`), and with a weight from zero to one it never contradicts the level
  (`level_agrees_with_composite`).
-/

namespace CounterWatch

/-! ## Functions without a fixed rounding -/

/-- A logarithm, an exponential and a power of two. No standard says how these are rounded, so that
nothing is known of them but what a statement asks for. -/
structure Elementary where
  log : Float → Float
  exp : Float → Float
  exp2 : Float → Float

namespace Elementary

/-- Arithmetic on numbers of 64 bits with the functions given. -/
@[reducible] def scalar (f : Elementary) : Scalar Float :=
  { (inferInstance : Scalar Float) with log := f.log, exp := f.exp, exp2 := f.exp2 }

/-- The functions of the system. -/
def system : Elementary := ⟨Float.log, Float.exp, Float.exp2⟩

/-- With the functions of the system the arithmetic is the one that the program runs on. -/
theorem scalar_system : system.scalar = inferInstanceAs (Scalar Float) := rfl

/-- Functions that are right at zero, or at one for the logarithm, and nowhere else. -/
def flat : Elementary := ⟨fun _ => 0.0, fun _ => 1.0, fun _ => 1.0⟩

/-- What is asked of an exponential: it keeps the order, and is on the right side of one. -/
structure Exponential (f : Elementary) : Prop where
  nonneg : ∀ {y : Float}, y.isFinite = true → 0.0 ≤ f.exp y
  mono : ∀ {x y : Float}, x.isFinite = true → y.isFinite = true → x ≤ y → f.exp x ≤ f.exp y
  one_le : ∀ {y : Float}, y.isFinite = true → 0.0 ≤ y → 1.0 ≤ f.exp y
  le_one : ∀ {y : Float}, y.isFinite = true → y ≤ 0.0 → f.exp y ≤ 1.0

end Elementary

namespace Double

open Float.Model (UnpackedFloat)

variable {w x y e e' : Float}

/-! ## The fraction of a score -/

theorem isFinite_of_magnitude_le (le : magnitude x ≤ magnitude y) (h : y.isFinite = true) :
    x.isFinite = true := by
  rw [isFinite_iff] at h ⊢
  omega

/-- One more than a number from zero on is at least one, and grows with the number. -/
theorem one_add_mono (he : 0.0 ≤ e) (he' : 0.0 ≤ e') (le : e ≤ e') :
    0.0 ≤ 1.0 + e ∧ magnitude (1.0 + e) ≤ magnitude (1.0 + e') := by
  have le := (le_iff_magnitude he he').1 le
  have finite_one : (1.0 : Float).isFinite = true := by decide
  cases finite' : e'.isFinite with
  | false =>
    rw [(add_infinite zero_le_one he' finite').2]
    cases finite : e.isFinite with
    | false =>
      obtain ⟨nonneg, value⟩ := add_infinite zero_le_one he finite
      exact ⟨nonneg, value.le⟩
    | true =>
      obtain ⟨nonneg, value⟩ := add_spec zero_le_one he finite_one finite
      exact ⟨nonneg, value ▸ Nat.min_le_right ..⟩
  | true =>
    have finite := isFinite_of_magnitude_le le finite'
    obtain ⟨nonneg, value⟩ := add_spec zero_le_one he finite_one finite
    rw [value, (add_spec zero_le_one he' finite_one finite').2]
    refine ⟨nonneg, BinaryFormat.near_mono (by decide) Nat.one_pos Nat.one_pos ?_⟩
    have order : units e ≤ units e' := BinaryFormat.double.units_le_iff.2 le
    omega

/-- The inverse of a number from one on falls as the number grows. -/
theorem inverse_antitone (hx : 0.0 ≤ x) (hy : 0.0 ≤ y) (some : magnitude x ≠ 0)
    (le : magnitude x ≤ magnitude y) : 0.0 ≤ 1.0 / y ∧ magnitude (1.0 / y) ≤ magnitude (1.0 / x) := by
  have finite_one : (1.0 : Float).isFinite = true := by decide
  cases finite : y.isFinite with
  | false =>
    obtain ⟨nonneg, value⟩ := div_infinite zero_le_one hy finite_one finite
    exact ⟨nonneg, value ▸ Nat.zero_le _⟩
  | true =>
    have finite' := isFinite_of_magnitude_le le finite
    have order : units x ≤ units y := BinaryFormat.double.units_le_iff.2 le
    have pos : 0 < units x := by
      have less := BinaryFormat.double.units_lt_iff.2 (Nat.pos_of_ne_zero some)
      rw [BinaryFormat.units_zero] at less
      exact less
    obtain ⟨nonneg, value⟩ := div_spec zero_le_one hy finite_one finite (by omega)
    rw [value, (div_spec zero_le_one hx finite_one finite' some).2]
    exact ⟨nonneg, BinaryFormat.near_mono (by decide) (by omega) pos (Nat.mul_le_mul_left _ order)⟩

/-- The share `1 / (1 + e)` falls as `e` grows. -/
theorem share_antitone (he : 0.0 ≤ e) (he' : 0.0 ≤ e') (le : e ≤ e') :
    0.0 ≤ 1.0 / (1.0 + e') ∧ 0.0 ≤ 1.0 / (1.0 + e) ∧ 1.0 / (1.0 + e') ≤ 1.0 / (1.0 + e) := by
  obtain ⟨nonneg, order⟩ := one_add_mono he he' le
  obtain ⟨nonneg', -⟩ := one_add_mono he' he' ((le_iff_magnitude he' he').2 (Nat.le_refl _))
  obtain ⟨-, least⟩ := one_add_mono zero_le_zero he he
  have one : magnitude (1.0 + 0.0) = 1023 * 2 ^ 52 := by decide
  obtain ⟨share, less⟩ := inverse_antitone nonneg nonneg' (by omega) order
  obtain ⟨share', -⟩ := inverse_antitone nonneg nonneg (by omega) (Nat.le_refl _)
  exact ⟨share, share', (le_iff_magnitude share share').2 less⟩

theorem isFinite_zero : (0.0 : Float).isFinite = true := rfl

theorem one_div_one : 1.0 / (1.0 + 0.0) = (1.0 : Float) := by decide +kernel

theorem one_div_two : 1.0 / (1.0 + 1.0) = (0.5 : Float) := by decide +kernel

/-! ## Weights -/

/-- What is undefined is in no order. -/
theorem not_lt_of_isNaN (h : x.isNaN = true) : ¬x < y ∧ ¬y < x := by
  rw [isNaN_iff] at h
  exact ⟨fun less => (form_ne_notANumber_of_lt less).1 h,
    fun less => (form_ne_notANumber_of_lt less).2 h⟩

/-- A number moved into the interval from zero to one is in it, unless it is undefined: then it
stays as it is. -/
theorem clamp_spec (w : Float) :
    (w.isNaN = true → Scalar.clamp 0.0 1.0 w = w) ∧
      (w.isNaN = false → 0.0 ≤ Scalar.clamp 0.0 1.0 w ∧ Scalar.clamp 0.0 1.0 w ≤ 1.0) := by
  have zero_defined : (0.0 : Float).isNaN = false := rfl
  have one_defined : (1.0 : Float).isNaN = false := by decide
  refine ⟨fun none => ?_, fun defined => ?_⟩
  · obtain ⟨low, -⟩ := not_lt_of_isNaN (y := 0.0) none
    obtain ⟨-, high⟩ := not_lt_of_isNaN (y := 1.0) none
    exact (if_neg low).trans (if_neg high)
  · unfold Scalar.clamp
    split_ifs with low high
    · exact ⟨zero_le_zero, zero_le_one⟩
    · exact ⟨zero_le_one, one_le_one⟩
    · exact ⟨le_of_not_lt defined zero_defined low, le_of_not_lt one_defined defined high⟩

theorem mul_notANumber (v : UnpackedFloat) :
    UnpackedFloat.mul .binary64 .notANumber v = .notANumber := by
  cases v <;> rfl

theorem add_notANumber (v : UnpackedFloat) :
    UnpackedFloat.add .binary64 .notANumber v = .notANumber := by
  cases v <;> rfl

/-- A mixture with an undefined weight is undefined. -/
theorem isNaN_mixture {p q : Float} (h : w.isNaN = true) : (mixture w p q).isNaN = true := by
  rw [isNaN_iff] at h ⊢
  have product : form (w * p) = .notANumber := by
    rw [form_mul, h, mul_notANumber, repacked_notANumber]
  rw [mixture, form_add, product, add_notANumber, repacked_notANumber]

theorem not_le_of_isNaN (h : x.isNaN = true) : ¬(0.0 ≤ x) := by
  rw [isNaN_iff] at h
  rw [zero_le_iff, h]
  exact id

end Double

namespace Prediction

open Double

variable {f : Elementary} {s t : Float}

/-! ## The scores of a prediction -/

/-- A score on the scale from zero to one. -/
def share (f : Elementary) (s : Float) : Float := @normalized Float f.scalar s

theorem share_of_isFinite (h : s.isFinite = true) : share f s = 1.0 / (1.0 + f.exp s) := if_pos h

theorem share_of_not_isFinite (h : s.isFinite = false) : share f s = 1.0 :=
  if_neg (Bool.not_eq_true _ ▸ h)

section

variable (positive : ∀ {y : Float}, y.isFinite = true → 0.0 ≤ f.exp y)

include positive

/-- The scale goes from zero to one. -/
theorem share_mem (s : Float) : 0.0 ≤ share f s ∧ share f s ≤ 1.0 := by
  cases finite : s.isFinite with
  | false =>
    rw [share_of_not_isFinite finite]
    exact ⟨zero_le_one, one_le_one⟩
  | true =>
    obtain ⟨nonneg, -, le⟩ := share_antitone zero_le_zero (positive finite) (positive finite)
    rw [one_div_one] at le
    rw [share_of_isFinite finite]
    exact ⟨nonneg, le⟩

/-- With a weight from zero to one the common score is from zero to one. -/
theorem compositeOf_mem {w : Float} (hw : 0.0 ≤ w) (lw : w ≤ 1.0) (s t : Float) :
    letI := f.scalar
    0.0 ≤ compositeOf w s t ∧ compositeOf w s t ≤ 1.0 := by
  obtain ⟨hp, lp⟩ := share_mem positive s
  obtain ⟨hq, lq⟩ := share_mem positive t
  exact ⟨(mixture_spec hw lw hp lp hq lq).1, mixture_le_one hw lw hp lp hq lq⟩

end

/-- A score makes an inlier if it is a number from zero on. -/
theorem ofScore_eq_inlier_iff :
    @Verdict.ofScore Float f.scalar s = .inlier ↔ s.isFinite = true ∧ 0.0 ≤ s := by
  unfold Verdict.ofScore
  split
  case isTrue inlier => exact ⟨fun _ => inlier, fun _ => rfl⟩
  case isFalse outlier => exact ⟨nofun, fun inlier => absurd inlier outlier⟩

section

variable (laws : f.Exponential)

include laws

theorem share_le_half (h : @Verdict.ofScore Float f.scalar s = .inlier) : share f s ≤ 0.5 := by
  obtain ⟨finite, side⟩ := ofScore_eq_inlier_iff.1 h
  obtain ⟨-, -, le⟩ := share_antitone zero_le_one (laws.nonneg finite) (laws.one_le finite side)
  rw [one_div_two] at le
  rw [share_of_isFinite finite]
  exact le

theorem half_le_share (h : @Verdict.ofScore Float f.scalar s = .outlier) : 0.5 ≤ share f s := by
  cases finite : s.isFinite with
  | false =>
    rw [share_of_not_isFinite finite]
    decide
  | true =>
    have side : s ≤ 0.0 := by
      have total := le_total (x := 0.0) rfl (isNaN_of_isFinite finite)
      refine total.resolve_left fun inner => ?_
      rw [ofScore_eq_inlier_iff.2 ⟨finite, inner⟩] at h
      cases h
    obtain ⟨-, -, le⟩ := share_antitone (laws.nonneg finite) zero_le_one (laws.le_one finite side)
    rw [one_div_two] at le
    rw [share_of_isFinite finite]
    exact le

theorem share_le_share {s' : Float} (h : s.isFinite = true) (h' : s'.isFinite = true) (le : s ≤ s') :
    share f s' ≤ share f s := by
  rw [share_of_isFinite h, share_of_isFinite h']
  exact (share_antitone (laws.nonneg h) (laws.nonneg h') (laws.mono h h' le)).2.2

/-- The common score does not grow with either score. -/
theorem compositeOf_antitone {w s' : Float} (hw : 0.0 ≤ w) (lw : w ≤ 1.0) (t : Float)
    (h : s.isFinite = true) (h' : s'.isFinite = true) (le : s ≤ s') :
    letI := f.scalar
    compositeOf w s' t ≤ compositeOf w s t ∧ compositeOf w t s' ≤ compositeOf w t s := by
  obtain ⟨hp, lp⟩ := share_mem laws.nonneg s
  obtain ⟨hp', lp'⟩ := share_mem laws.nonneg s'
  obtain ⟨hq, lq⟩ := share_mem laws.nonneg t
  have order := share_le_share laws h h' le
  exact ⟨mixture_mono_left hw lw hp' lp' hq lq hp lp order,
    mixture_mono_right hw lw hq lq hp' lp' hp lp order⟩

end

end Prediction

namespace Settings

/-- The usual interval can be used. -/
theorem exists_ofConfig {config : Config} (usual : config.retrain.intervalSecs = 300.0) :
    ∃ settings, ofConfig config = .ok settings := by
  have interval : Duration.ofFloat 300.0 = .ok ⟨300000000000⟩ := by decide +kernel
  exact ⟨_, by rw [ofConfig, usual, interval]⟩

/-- The weight of usable settings is from zero to one, unless the configured one is undefined: then
it is that one. -/
theorem primaryWeight_of_ofConfig {config : Config} {settings : Settings Float}
    (usable : ofConfig config = .ok settings) :
    (config.ensemble.primaryWeight.isNaN = true → settings.primaryWeight.isNaN = true) ∧
      (config.ensemble.primaryWeight.isNaN = false →
        0.0 ≤ settings.primaryWeight ∧ settings.primaryWeight ≤ 1.0) := by
  obtain ⟨undefined, defined⟩ := Double.clamp_spec config.ensemble.primaryWeight
  have weight : settings.primaryWeight = Scalar.clamp 0.0 1.0 config.ensemble.primaryWeight := by
    unfold ofConfig at usable
    split at usable
    · cases usable
    · rw [← Except.ok.inj usable]
  rw [weight]
  refine ⟨fun none => ?_, defined⟩
  rw [undefined none]
  exact none

end Settings

namespace Detector

open Prediction Double

variable {f : Elementary}

theorem predict_of_trained {α : Type} [Scalar α] {d : Detector α} {t : Trained α} {since : Moment}
    (h : d.trained = some (t, since)) (x : FeatureVector α) :
    d.predict x = t.predict d.settings.primaryWeight x := by
  rw [predict, h]

theorem composite_predict {α : Type} [Scalar α] {d : Detector α} (h : d.isTrained = true)
    (x : FeatureVector α) : (d.predict x).composite = compositeOf d.settings.primaryWeight
      (d.predict x).primaryScore (d.predict x).secondaryScore := by
  obtain ⟨⟨t, since⟩, trained⟩ := Option.isSome_iff_exists.1 h
  rw [predict_of_trained trained]
  rfl

theorem predict_of_not_isTrained {α : Type} [Scalar α] {d : Detector α} (h : d.isTrained = false)
    (x : FeatureVector α) : d.predict x = .untrained := by
  have none : d.trained = none := Option.isNone_iff_eq_none.1 (Option.isSome_eq_false_iff.1 h)
  exact predict_of_untrained none x

theorem level_predict {α : Type} [Scalar α] {d : Detector α} (h : d.isTrained = true)
    (x : FeatureVector α) : (d.predict x).level = .ofVerdicts (.ofScore (d.predict x).primaryScore)
      (.ofScore (d.predict x).secondaryScore) := by
  obtain ⟨⟨t, since⟩, trained⟩ := Option.isSome_iff_exists.1 h
  rw [predict_of_trained trained]
  rfl

/-- With an undefined weight the models give nothing but undefined common scores. -/
theorem isNaN_composite {d : Detector Float} (trained : d.isTrained = true)
    (none : d.settings.primaryWeight.isNaN = true) {x : FeatureVector Float} :
    letI := f.scalar
    (d.predict x).composite.isNaN = true := by
  let := f.scalar
  have mixed : (d.predict x).composite = mixture d.settings.primaryWeight
      (share f (d.predict x).primaryScore) (share f (d.predict x).secondaryScore) :=
    composite_predict trained x
  rw [mixed]
  exact isNaN_mixture none

/-- A training on enough copies of a finite row puts their models in place. -/
theorem trained_train_replicate {α : Type} [Scalar α] (d : Detector α) (now : Moment)
    {row : FeatureVector α} (finite : row.isFinite = true) {n : Nat} (enough : minTrainRows ≤ n) :
    (d.train now (List.replicate n row)).detector.trained
      = some (Trained.fit d.settings.primary d.settings.secondary (List.replicate n row), now) := by
  have all : (List.replicate n row).filter FeatureVector.isFinite = List.replicate n row :=
    List.filter_replicate_of_pos finite
  have some : minTrainRows ≤ ((List.replicate n row).filter FeatureVector.isFinite).length := by
    rw [all, List.length_replicate]
    exact enough
  rw [d.train_of_le some, all]

/-- **The common score lies between zero and one, unless the weight is undefined.** Whatever
configuration can be used and however the detector is used, the common score of any row is a number
from zero to one if there are no models or the configured weight is a number. An undefined weight
passes for one in the interval, and every common score that the models give is then undefined. -/
theorem composite_mem_interval_iff (positive : ∀ {y : Float}, y.isFinite = true → 0.0 ≤ f.exp y)
    {config : Config} {settings : Settings Float} (usable : Settings.ofConfig config = .ok settings)
    (u : Usage Float) (x : FeatureVector Float) :
    letI := f.scalar
    let d := (ofSettings settings).after u
    let c := (d.predict x).composite
    (0.0 ≤ c ∧ c ≤ 1.0 ↔ d.isTrained = false ∨ config.ensemble.primaryWeight.isNaN = false) ∧
      (c.isNaN = true ↔ d.isTrained = true ∧ config.ensemble.primaryWeight.isNaN = true) := by
  let := f.scalar
  intro d c
  obtain ⟨undefined, defined⟩ := Settings.primaryWeight_of_ofConfig usable
  have kept : d.settings = settings := settings_after _ u
  cases trained : d.isTrained with
  | false =>
    have zero : c = 0.0 := congrArg Prediction.composite (predict_of_not_isTrained trained x)
    rw [zero]
    exact ⟨⟨fun _ => .inl rfl, fun _ => ⟨zero_le_zero, zero_le_one⟩⟩, nofun, nofun⟩
  | true =>
    cases none : config.ensemble.primaryWeight.isNaN with
    | false =>
      have mixed : c = _ := composite_predict trained x
      obtain ⟨hw, lw⟩ := defined none
      rw [← kept] at hw lw
      have range : 0.0 ≤ c ∧ c ≤ 1.0 := by
        rw [mixed]
        exact compositeOf_mem positive hw lw _ _
      exact ⟨⟨fun _ => .inr rfl, fun _ => range⟩,
        ⟨fun nan => absurd range.1 (not_le_of_isNaN nan), fun h => nomatch h.2⟩⟩
    | true =>
      have nan : c.isNaN = true := by
        apply isNaN_composite trained
        rw [kept]
        exact undefined none
      exact ⟨⟨fun range => absurd range.1 (not_le_of_isNaN nan), fun h => h.elim nofun nofun⟩,
        ⟨fun _ => ⟨rfl, rfl⟩, fun _ => nan⟩⟩

/-- With the weight of the default configuration the common score of an ordinary row is in the
interval. -/
theorem composite_of_standard_weight :
    let config : Config := {}
    let row : FeatureVector Float := FeatureVector.fill 0.0
    ∃ settings, Settings.ofConfig config = .ok settings ∧
      letI := Elementary.flat.scalar
      let d := (ofSettings settings).after [(0, .train (List.replicate 50 row))]
      0.0 ≤ (d.predict row).composite ∧ (d.predict row).composite ≤ 1.0 := by
  intro config row
  have usual : config.retrain.intervalSecs = 300.0 := rfl
  obtain ⟨settings, usable⟩ := Settings.exists_ofConfig usual
  have positive {y : Float} (_ : y.isFinite = true) : 0.0 ≤ Elementary.flat.exp y := zero_le_one
  have defined : config.ensemble.primaryWeight.isNaN = false := by decide
  exact ⟨settings, usable, (composite_mem_interval_iff positive usable _ row).1.2 (.inr defined)⟩

/-- An undefined weight can be configured, and then a detector that is trained on ordinary rows
gives an ordinary row an undefined common score. -/
theorem composite_of_undefined_weight :
    let config : Config := { ensemble := { primaryWeight := 0.0 / 0.0 } }
    let row : FeatureVector Float := FeatureVector.fill 0.0
    ∃ settings, Settings.ofConfig config = .ok settings ∧ ∀ f : Elementary,
      letI := f.scalar
      let d := (ofSettings settings).after [(0, .train (List.replicate 50 row))]
      (d.predict row).composite.isNaN = true ∧
        ¬(0.0 ≤ (d.predict row).composite ∧ (d.predict row).composite ≤ 1.0) := by
  intro config row
  have usual : config.retrain.intervalSecs = 300.0 := rfl
  obtain ⟨settings, usable⟩ := Settings.exists_ofConfig usual
  refine ⟨settings, usable, fun f => ?_⟩
  let := f.scalar
  intro d
  have none : config.ensemble.primaryWeight.isNaN = true := by decide
  have finite : row.isFinite = true := FeatureVector.isFinite_fill isFinite_zero
  have weight : d.settings.primaryWeight.isNaN = true := by
    have kept : d.settings = settings := settings_after _ _
    rw [kept]
    exact (Settings.primaryWeight_of_ofConfig usable).1 none
  have trained : d.isTrained = true := by
    show ((ofSettings settings).train 0 (List.replicate 50 row)).detector.trained.isSome = true
    rw [trained_train_replicate _ 0 finite (Nat.le_refl 50)]
    rfl
  have nan : (d.predict row).composite.isNaN = true := isNaN_composite trained weight
  exact ⟨nan, fun range => not_le_of_isNaN nan range.1⟩

/-- **The level and the common score do not contradict each other.** Take a weight from zero to one
and any exponential that keeps the order and is on the right side of one. However the detector is
used, a row at the level NORMAL has a common score of at most one half and one at the level CRITICAL
has at least one half. Where there are models, the common score is made of the two raw scores
alone, and it does not grow when one of them, being finite, is replaced by a larger finite one. -/
theorem level_agrees_with_composite (laws : f.Exponential) (settings : Settings Float)
    (hw : 0.0 ≤ settings.primaryWeight) (lw : settings.primaryWeight ≤ 1.0)
    (u : Usage Float) (x : FeatureVector Float) :
    letI := f.scalar
    let d := (ofSettings settings).after u
    let p := d.predict x
    let common := compositeOf settings.primaryWeight
    (p.level = .normal → p.composite ≤ 0.5) ∧
    (p.level = .critical → 0.5 ≤ p.composite) ∧
    (d.isTrained = true → p.composite = common p.primaryScore p.secondaryScore) ∧
    ∀ s s' t : Float, s.isFinite = true → s'.isFinite = true → s ≤ s' →
      common s' t ≤ common s t ∧ common t s' ≤ common t s := by
  let := f.scalar
  intro d p common
  have kept : d.settings = settings := settings_after _ u
  cases trained : d.isTrained with
  | false =>
    have untrained : p = .untrained := predict_of_not_isTrained trained x
    rw [untrained]
    exact ⟨fun _ => zero_le_half, nofun, nofun, fun s s' t h h' le =>
      compositeOf_antitone laws hw lw t h h' le⟩
  | true =>
    have mixed : p.composite = common p.primaryScore p.secondaryScore := by
      rw [composite_predict trained x, kept]
    have level : p.level = .ofVerdicts (.ofScore p.primaryScore) (.ofScore p.secondaryScore) :=
      level_predict trained x
    obtain ⟨hp, lp⟩ := share_mem laws.nonneg p.primaryScore
    obtain ⟨hq, lq⟩ := share_mem laws.nonneg p.secondaryScore
    refine ⟨fun normal => ?_, fun critical => ?_, fun _ => mixed, fun s s' t h h' le =>
      compositeOf_antitone laws hw lw t h h' le⟩
    · obtain ⟨inlier, inlier'⟩ := AlertLevel.ofVerdicts_eq_normal (level.symm.trans normal)
      rw [mixed]
      exact mixture_le_half hw lw hp lp hq lq (share_le_half laws inlier) (share_le_half laws inlier')
    · obtain ⟨outlier, outlier'⟩ := AlertLevel.ofVerdicts_eq_critical (level.symm.trans critical)
      rw [mixed]
      exact half_le_mixture hw lw hp lp hq lq (half_le_share laws outlier)
        (half_le_share laws outlier')

theorem exponential_flat : Elementary.flat.Exponential where
  nonneg _ := zero_le_one
  mono _ _ _ := one_le_one
  one_le _ _ := one_le_one
  le_one _ _ := one_le_one

/-- A detector with two envelopes over equal rows, asked about such a row: its scores are zero, where
the exponential is one. -/
theorem level_agrees_for_equal_rows :
    let settings : Settings Float := { Settings.standard with primary := .ellipticEnvelope }
    let row : FeatureVector Float := FeatureVector.fill 0.0
    letI := Elementary.flat.scalar
    let d := (ofSettings settings).after [(0, .train (List.replicate 50 row))]
    let p := d.predict row
    Elementary.flat.Exponential ∧ 0.0 ≤ settings.primaryWeight ∧ settings.primaryWeight ≤ 1.0 ∧
      (p.level = .normal → p.composite ≤ 0.5) ∧ (p.level = .critical → 0.5 ≤ p.composite) ∧
      (d.isTrained = true →
        p.composite = compositeOf settings.primaryWeight p.primaryScore p.secondaryScore) := by
  intro settings row
  have hw : 0.0 ≤ settings.primaryWeight := by decide
  have lw : settings.primaryWeight ≤ 1.0 := by decide
  obtain ⟨low, high, mixed, -⟩ := level_agrees_with_composite exponential_flat settings hw lw
    [(0, .train (List.replicate 50 row))] row
  exact ⟨exponential_flat, hw, lw, low, high, mixed⟩

end Detector

end CounterWatch
