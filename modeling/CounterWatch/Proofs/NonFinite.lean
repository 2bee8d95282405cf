import CounterWatch.Proofs.Accounting
import CounterWatch.Proofs.EqualRows

/-!
# Rows that are not finite

A row with an undefined or infinite component stays undefined or infinite on the standard scale, and
so does its distance from the centre of an envelope: a finite result of any operation here has finite
operands. An envelope therefore calls such a row an outlier, and a pair of models with an envelope
in it never takes it for normal. Nothing of the kind holds of a forest, where a row that cannot be
compared just goes the upper way at every split.

* `Double.isFinite_of_isFinite_mul`, `isFinite_of_isFinite_sub` and `isFinite_of_isFinite_sum` follow
  a result back to its operands.
* `Envelope.isFinite_score_transform` is about one envelope, and `Trained.scores_of_not_isFinite` about
  two models.
* `Detector.Fitted` says which models are in place; every request keeps it.
* `Monitor.envelope_flags_undefined_rows` is the result, for detectors and for monitors.
-/

namespace CounterWatch

/-! ## Finite results have finite operands -/

namespace Double

open Float.Model (UnpackedFloat)

variable {x y : Float}

theorem isFinite_of_isFinite_mul (h : (x * y).isFinite = true) :
    x.isFinite = true ∧ y.isFinite = true := by
  rw [← isFinite_form, form_mul] at h
  have product := isFinite_of_isFinite_repacked h
  rw [← isFinite_form, ← isFinite_form]
  cases hx : form x with
  | notANumber | infinity =>
    rw [hx] at product
    cases hy : form y <;> rw [hy] at product <;> cases product
  | zero | finite =>
    refine ⟨rfl, ?_⟩
    rw [hx] at product
    cases hy : form y with
    | zero | finite => rfl
    | notANumber | infinity =>
      rw [hy] at product
      cases product

theorem isFinite_of_isFinite_sub (h : (x - y).isFinite = true) :
    x.isFinite = true ∧ y.isFinite = true := by
  rw [← isFinite_form, form_sub] at h
  have difference := isFinite_of_isFinite_repacked h
  rw [← isFinite_form, ← isFinite_form]
  cases hx : form x with
  | notANumber =>
    rw [hx] at difference
    cases hy : form y <;> rw [hy] at difference <;> cases difference
  | infinity s =>
    rw [hx] at difference
    cases hy : form y with
    | infinity t =>
      rw [hy] at difference
      simp only [UnpackedFloat.sub] at difference
      split at difference <;> cases difference
    | notANumber | zero | finite =>
      rw [hy] at difference
      cases difference
  | zero | finite =>
    refine ⟨rfl, ?_⟩
    rw [hx] at difference
    cases hy : form y with
    | zero | finite => rfl
    | notANumber | infinity =>
      rw [hy] at difference
      cases difference

/-- A sum is finite only if all its terms are. -/
theorem isFinite_of_isFinite_sum {xs : List Float} (h : (Scalar.sum xs).isFinite = true) :
    ∀ x ∈ xs, x.isFinite = true :=
  (isFinite_of_isFinite_foldl (f := id) h).2

end Double

/-! ## The envelope -/

open Double

/-- Distances from the centre are finite only for rows that are. -/
theorem Envelope.isFinite_of_isFinite_distance {center weight row : FeatureVector Float}
    (h : (Envelope.distance center weight row).isFinite = true) (j : Fin featureCount) :
    (row.get j).isFinite = true := by
  have sum := isFinite_of_isFinite_sqrt h
  have term := isFinite_of_isFinite_sum sum _
    (List.mem_map_of_mem (List.mem_finRange j))
  have square := (isFinite_of_isFinite_mul term).1
  exact (isFinite_of_isFinite_sub (below_of_isFinite_square square).isFinite).1

theorem Envelope.isFinite_of_isFinite_score {e : Envelope Float} {row : FeatureVector Float}
    (h : (e.score row).isFinite = true) (j : Fin featureCount) : (row.get j).isFinite = true :=
  Envelope.isFinite_of_isFinite_distance (isFinite_of_isFinite_sub h).2 j

theorem Standardizer.isFinite_of_isFinite_transform {s : Standardizer Float}
    {row : FeatureVector Float} {j : Fin featureCount}
    (h : ((s.transform row).get j).isFinite = true) : (row.get j).isFinite = true := by
  rw [get_transform] at h
  exact (isFinite_of_isFinite_sub (isFinite_of_isFinite_div h)).1

/-- A row is not finite if a component is not. -/
theorem FeatureVector.not_isFinite_set (row : FeatureVector Float) {i : Nat} (h : i < featureCount)
    {y : Float} (undefined : y.isFinite = false) :
    FeatureVector.isFinite (Vector.set row i y h) = false := by
  rw [← Bool.not_eq_true, FeatureVector.isFinite, Vector.all_eq_true]
  intro all
  have component : (Vector.set row i y h)[i].isFinite = true := all i h
  rw [Vector.getElem_set_self, undefined] at component
  cases component

/-- On the standard scale of any rows, the score that an envelope gives a row that is not finite is
not finite either. -/
theorem Envelope.isFinite_score_transform (e : Envelope Float) (s : Standardizer Float)
    {row : FeatureVector Float} (h : row.isFinite = false) :
    (e.score (s.transform row)).isFinite = false := by
  rw [← Bool.not_eq_true] at h ⊢
  exact fun finite => h (FeatureVector.isFinite_iff.2 fun j =>
    Standardizer.isFinite_of_isFinite_transform (Envelope.isFinite_of_isFinite_score finite j))

theorem Verdict.ofScore_of_not_isFinite {x : Float} (h : x.isFinite = false) :
    Verdict.ofScore x = .outlier := by
  refine if_neg fun inlier => ?_
  have finite : x.isFinite = true := inlier.1
  rw [h] at finite
  cases finite

/-- Models one of which is an envelope do not give a row that is not finite two finite scores. -/
theorem Trained.scores_of_not_isFinite {primary secondary : ModelKind}
    (either : primary = .ellipticEnvelope ∨ secondary = .ellipticEnvelope)
    (rows : List (FeatureVector Float)) (weight : Float) {x : FeatureVector Float}
    (h : x.isFinite = false) :
    let p := (Trained.fit primary secondary rows).predict weight x
    p.primaryScore.isFinite = false ∨ p.secondaryScore.isFinite = false := by
  rcases either with rfl | rfl
  · exact .inl (Envelope.isFinite_score_transform _ _ h)
  · exact .inr (Envelope.isFinite_score_transform _ _ h)

namespace Detector

/-! ## The models in place -/

/-- The models in place, if there are any, are of the kinds that the settings name. -/
def Fitted (d : Detector Float) : Prop :=
  ∀ t, d.models? = some t → ∃ rows, t = Trained.fit d.settings.primary d.settings.secondary rows

theorem fitted_ofSettings (settings : Settings Float) : Fitted (ofSettings settings) :=
  fun _ none => nomatch none

theorem Fitted.serve {d : Detector Float} (h : Fitted d) (now : Moment) (request : Request Float) :
    Fitted (d.serve now request) := by
  intro t there
  rw [(d.models?_serve now request).1] at there
  rw [settings_serve]
  cases fitted : d.fitted? now request with
  | none =>
    rw [fitted] at there
    exact h t there
  | some rows =>
    rw [fitted] at there
    exact ⟨rows, (Option.some.inj there).symm⟩

theorem Fitted.after {d : Detector Float} (h : Fitted d) (u : Usage Float) : Fitted (d.after u) := by
  induction u using List.reverseRecOn with
  | nil => exact h
  | append_singleton past entry ih =>
    obtain ⟨now, request⟩ := entry
    rw [after_concat]
    exact ih.serve now request

section

variable {d : Detector Float} (h : Fitted d)
  (either : d.settings.primary = .ellipticEnvelope ∨ d.settings.secondary = .ellipticEnvelope)
  (trained : d.isTrained = true) {x : FeatureVector Float} (undefined : x.isFinite = false)

include h either trained undefined

/-- With an envelope among its models a detector does not give a row that is not finite two finite
scores. -/
theorem Fitted.scores_of_not_isFinite :
    (d.predict x).primaryScore.isFinite = false ∨ (d.predict x).secondaryScore.isFinite = false := by
  obtain ⟨⟨t, since⟩, there⟩ := Option.isSome_iff_exists.1 trained
  have model : d.models? = some t := by rw [models?, there]; rfl
  obtain ⟨rows, rfl⟩ := h t model
  rw [predict_eq, model]
  exact Trained.scores_of_not_isFinite either rows _ undefined

/-- And so it does not take the row for normal. -/
theorem Fitted.level_of_not_isFinite : (d.predict x).level ≠ .normal := by
  rw [level_predict trained]
  have scores := h.scores_of_not_isFinite either trained undefined
  exact AlertLevel.ofVerdicts_ne_normal_iff.2
    (scores.imp Verdict.ofScore_of_not_isFinite Verdict.ofScore_of_not_isFinite)

end

end Detector

namespace Monitor

open Detector

/-- Along a history the models in place stay those of the kinds in the settings. -/
theorem fitted_step {m : Monitor} (h : Fitted m.detector) (now : Moment) (event : Event) :
    Fitted (m.step now event).monitor.detector := by
  rcases m.step_cases now event with ⟨-, same | again⟩ | ⟨s, -, observed⟩
  · rw [same]
    exact h
  · rw [again]
    exact h.serve now .maybeRetrain
  · rw [observed]
    cases phase : m.phase with
    | learning =>
      rcases Nat.lt_or_ge (m.collected s).length m.target with few | enough
      · rw [observe_of_lt now phase few]
        exact h
      · rw [observe_of_le now phase enough]
        exact h.serve now (.train _)
    | detection =>
      rw [monitor_observe now phase]
      have absorbed : Fitted (m.detector.absorb (m.extractor.pushSample s).1) := by
        rw [absorb_eq]
        cases m.detector.kept? (m.extractor.pushSample s).1 with
        | none => exact h
        | some row => exact h
      exact absorbed.serve now .maybeRetrain

theorem fitted_replay {m : Monitor} (h : Fitted m.detector) (past : History) :
    Fitted (m.replay past).detector := by
  induction past using List.reverseRecOn with
  | nil => exact h
  | append_singleton past entry ih =>
    obtain ⟨now, event⟩ := entry
    rw [replay_concat]
    exact fitted_step ih now event

/-- **An envelope flags every row that is not finite.** If one of the two models is an envelope,
then however a detector with models is used, a row with an undefined or infinite component is not at
the level NORMAL; and a monitor that detects with models answers a record that makes such a row with
an alert. -/
theorem envelope_flags_undefined_rows (settings : Settings Float)
    (either : settings.primary = .ellipticEnvelope ∨ settings.secondary = .ellipticEnvelope) :
    (∀ (u : Usage Float) (x : FeatureVector Float),
      let d := (ofSettings settings).after u
      d.isTrained = true → x.isFinite = false → (d.predict x).level ≠ .normal) ∧
    ∀ (config : Config) (past : History) (now : Moment) (event : Event) (s : Sample),
      let m := (initial config settings).replay past
      m.phase = .detection → m.detector.isTrained = true → event.sample? = some s →
      (m.extractor.pushSample s).1.isFinite = false →
      ∃ alert, (m.step now event).alert = some alert ∧ alert.level ≠ .normal := by
  constructor
  · intro u x d trained undefined
    have same : d.settings = settings := settings_after _ u
    rw [← same] at either
    exact ((fitted_ofSettings settings).after u).level_of_not_isFinite either trained undefined
  · intro config past now event s m detection trained sample undefined
    have same : m.detector.settings = settings := settings_replay _ past
    have fitted : Fitted m.detector := fitted_replay (fitted_ofSettings settings) past
    rw [← same] at either
    have abnormal := fitted.level_of_not_isFinite either trained undefined
    obtain ⟨alert, reported⟩ := reports_of_ne_normal now detection abnormal
    rw [m.step_of_sample now sample]
    refine ⟨alert, reported.returned, ?_⟩
    rw [reported.level]
    exact abnormal

/-- The standard settings have an envelope. Trained on ordinary rows they flag a row with one
undefined component. -/
theorem standard_settings_flag_an_undefined_row :
    let row : FeatureVector Float := FeatureVector.fill 0.0
    let x : FeatureVector Float := row.set 0 (0.0 / 0.0)
    let d := (ofSettings .standard).after [(0, .train (List.replicate 50 row))]
    Settings.standard.secondary = .ellipticEnvelope ∧ d.isTrained = true ∧ x.isFinite = false ∧
      (d.predict x).level ≠ .normal := by
  intro row x d
  have finite : row.isFinite = true := FeatureVector.isFinite_fill isFinite_zero
  have undefined : x.isFinite = false :=
    FeatureVector.not_isFinite_set row (by decide) (show (0.0 / 0.0 : Float).isFinite = false from rfl)
  have trained : d.isTrained = true := by
    show ((ofSettings .standard).train 0 (List.replicate 50 row)).detector.trained.isSome = true
    rw [trained_train_replicate _ 0 finite (Nat.le_refl 50)]
    rfl
  exact ⟨rfl, trained, undefined,
    (envelope_flags_undefined_rows .standard (.inr rfl)).1 _ x trained undefined⟩

end Monitor

namespace Detector

/-- Two forests over fifty equal rows take a row with an undefined component for normal, at any
values that a logarithm and a power of two can have there. -/
theorem forests_pass_an_undefined_row :
    let settings : Settings Float := { Settings.standard with secondary := .isolationForest }
    let row : FeatureVector Float := FeatureVector.fill 0.0
    let x : FeatureVector Float := row.set 0 (0.0 / 0.0)
    x.isFinite = false ∧ ∀ f : Elementary, f.log 49.0 = 3.8918202981106265 →
      (f.exp2 (-0.9999999999999992)).isFinite = true →
      letI := f.scalar
      let d := (ofSettings settings).after [(0, .train (List.replicate 50 row))]
      d.isTrained = true ∧ (d.predict x).level = .normal := by
  intro settings row x
  refine ⟨FeatureVector.not_isFinite_set row (by decide)
    (show (0.0 / 0.0 : Float).isFinite = false from rfl), fun f hl hp => ?_⟩
  let := f.scalar
  intro d
  have finite : row.isFinite = true := FeatureVector.isFinite_fill isFinite_zero
  have fitted := trained_train_replicate (ofSettings settings) 0 finite (Nat.le_refl 50)
  have trained : d.isTrained = true := by
    show ((ofSettings settings).train 0 (List.replicate 50 row)).detector.trained.isSome = true
    rw [fitted]
    rfl
  have scaled : (List.replicate 50 row).map (Standardizer.fit (List.replicate 50 row)).transform
      = List.replicate 50 ((Standardizer.fit (List.replicate 50 row)).transform row) :=
    List.map_replicate
  obtain ⟨s, zero⟩ := Forest.score_of_equal hl hp
    ((Standardizer.fit (List.replicate 50 row)).transform row)
    ((Standardizer.fit (List.replicate 50 row)).transform x)
  have inlier := Verdict.ofScore_of_zero (f := f) zero
  rw [← scaled] at inlier
  have model : d.trained = some (Trained.fit .isolationForest .isolationForest _, 0) := fitted
  refine ⟨trained, ?_⟩
  rw [predict_of_trained model]
  exact congrArg₂ AlertLevel.ofVerdicts inlier inlier

end Detector

end CounterWatch
