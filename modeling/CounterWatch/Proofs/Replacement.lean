import CounterWatch.Proofs.Fitting
import CounterWatch.Proofs.Usage

/-!
# Replacement of models

A training makes models of its finite rows and puts them in place of those that are there, or it
changes nothing. Nothing of earlier models goes into new ones, so that of all that has ever been
asked of a detector only the last training that gave models can be seen in its predictions.

* `Detector.fitted?` are the rows that a request makes models of, and `Detector.fits` the rows of
  all models that a usage puts in place.
* The models after a usage are those of the last of these, and the first ones if there are none
  (`models?_after`); each of them is counted once (`trainCount_after`).
* `models_are_replaced_as_a_whole` says what one training does, and that two detectors with the same
  last rows give the same predictions.
-/

namespace CounterWatch

namespace Detector

variable {α : Type} [Scalar α]

/-- The rows that a request makes models of, if it puts models in place. -/
def fitted? (d : Detector α) (now : Moment) : Request α → Option (List (FeatureVector α))
  | .train rows =>
    if (d.train now rows).installed then some (rows.filter FeatureVector.isFinite) else none
  | .maybeRetrain =>
    if (d.maybeRetrain now).installed then some (d.backlog.toList.filter FeatureVector.isFinite)
    else none
  | .addNormal _ | .predict _ => none

/-- The rows of the models that a usage puts in place, one after the other. -/
def fits (d : Detector α) : Usage α → List (List (FeatureVector α))
  | [] => []
  | (now, request) :: rest => (d.fitted? now request).toList ++ (d.serve now request).fits rest

variable (d : Detector α) (now : Moment)

theorem fits_concat (past : Usage α) (request : Request α) :
    d.fits (past ++ [(now, request)])
      = d.fits past ++ ((d.after past).fitted? now request).toList := by
  induction past generalizing d with
  | nil => simp [fits]
  | cons entry rest ih =>
    rw [List.cons_append, fits, ih, fits, List.append_assoc]
    rfl

/-! ## One request -/

/-- What a training that gives models does. -/
theorem train_of_installed {rows : List (FeatureVector α)}
    (h : (d.train now rows).installed = true) :
    (d.train now rows).detector =
      { d with
        trained := some (Trained.fit d.settings.primary d.settings.secondary
          (rows.filter FeatureVector.isFinite), now)
        trainCount := d.trainCount + 1 } :=
  d.train_of_le ((d.installed_train now rows).1 h)

/-- A training replaces the models by those of its finite rows and counts itself, or it does
neither. -/
theorem models?_train (rows : List (FeatureVector α)) :
    (d.train now rows).detector.models? =
        ((d.fitted? now (.train rows)).map
          (Trained.fit d.settings.primary d.settings.secondary)).or d.models? ∧
      (d.train now rows).detector.trainCount
        = d.trainCount + (d.fitted? now (.train rows)).toList.length := by
  cases installed : (d.train now rows).installed with
  | false =>
    rw [d.train_of_not_installed now installed, fitted?, installed]
    exact ⟨rfl, rfl⟩
  | true =>
    rw [d.train_of_installed now installed, fitted?, installed]
    exact ⟨rfl, rfl⟩

/-- So does every request. -/
theorem models?_serve (request : Request α) :
    (d.serve now request).models? =
        ((d.fitted? now request).map
          (Trained.fit d.settings.primary d.settings.secondary)).or d.models? ∧
      (d.serve now request).trainCount
        = d.trainCount + (d.fitted? now request).toList.length := by
  cases request with
  | train rows => exact d.models?_train now rows
  | addNormal row =>
    show (d.addNormal row).1.models? = d.models? ∧ (d.addNormal row).1.trainCount = d.trainCount
    rw [addNormal_eq]
    cases (Request.addNormal row).added? <;> exact ⟨rfl, rfl⟩
  | predict row => exact ⟨rfl, rfl⟩
  | maybeRetrain =>
    cases due : d.retrainDue now with
    | false =>
      simp only [serve, fitted?, maybeRetrain_of_not_due due]
      exact ⟨rfl, rfl⟩
    | true =>
      have training := models?_train { d with backlog := .empty } now d.backlog.toList
      simp only [serve, fitted?, maybeRetrain, due, if_true]
      exact training

/-! ## A usage -/

/-- The models after a usage are those of the last rows that it made models of. -/
theorem models?_after (u : Usage α) :
    (d.after u).models? =
      ((d.fits u).getLast?.map
        (Trained.fit d.settings.primary d.settings.secondary)).or d.models? := by
  induction u using List.reverseRecOn with
  | nil => rfl
  | append_singleton past entry ih =>
    obtain ⟨now, request⟩ := entry
    rw [after_concat, (models?_serve _ now request).1, ih, fits_concat, settings_after]
    cases (d.after past).fitted? now request with
    | none => simp
    | some rows => simp

theorem trainCount_after (u : Usage α) :
    (d.after u).trainCount = d.trainCount + (d.fits u).length := by
  induction u using List.reverseRecOn with
  | nil => rfl
  | append_singleton past entry ih =>
    obtain ⟨now, request⟩ := entry
    rw [after_concat, (models?_serve _ now request).2, ih, fits_concat, List.length_append,
      Nat.add_assoc]

/-- **The models are replaced as a whole.** A training puts models in place exactly if at least 50
of its rows are finite. If not, nothing has changed. If so, the models of the finite rows can be
fitted and are in place, one more training is counted, the rest is as it was, and predictions come
from these models. So a usage counts one training for all rows that it made models of, and two
detectors with the same settings that last made models of the same rows give the same predictions,
whatever they had been used for. -/
theorem models_are_replaced_as_a_whole (d : Detector Float) :
    (∀ now rows,
      let finite := rows.filter FeatureVector.isFinite
      let r := d.train now rows
      (r.installed = true ↔ 50 ≤ finite.length) ∧
      (r.installed = false → r.detector = d) ∧
      (r.installed = true → ∃ models,
        Trained.tryFit d.settings.primary d.settings.secondary finite = .ok models ∧
        r.detector =
          { d with trained := some (models, now), trainCount := d.trainCount + 1 } ∧
        ∀ x, r.detector.predict x = models.predict d.settings.primaryWeight x)) ∧
    (∀ u : Usage Float, (d.after u).trainCount = d.trainCount + (d.fits u).length) ∧
    ∀ (e : Detector Float) (u v : Usage Float) (rows : List (FeatureVector Float)),
      e.settings = d.settings →
      (d.fits u).getLast? = some rows → (e.fits v).getLast? = some rows →
      ∀ x, (d.after u).predict x = (e.after v).predict x := by
  refine ⟨fun now rows => ?_, d.trainCount_after, fun e u v rows same hu hv x => ?_⟩
  · intro finite r
    refine ⟨d.installed_train now rows, d.train_of_not_installed now, fun installed => ?_⟩
    have enough : 50 ≤ finite.length := (d.installed_train now rows).1 installed
    have some : finite ≠ [] := by
      intro none
      rw [none] at enough
      exact absurd enough (by decide)
    have content := d.train_of_installed now installed
    refine ⟨_, Trained.tryFit_eq _ _ some, content, fun x => ?_⟩
    show (d.train now rows).detector.predict x = _
    rw [content]
    rfl
  · rw [predict_eq, predict_eq, models?_after, models?_after, hu, hv, settings_after,
      settings_after, same]
    rfl

end Detector

end CounterWatch
