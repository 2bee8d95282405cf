import CounterWatch.Alert.Level

/-!
# Predictions

What the two models together say about a row.
-/

namespace CounterWatch

/-- The scores and the verdicts of the two models on a row, and what they amount to. -/
structure Prediction (α : Type) where
  level : AlertLevel
  /-- The common score, from 0 for a plain inlier to 1 for a plain outlier. -/
  composite : α
  primaryScore : α
  secondaryScore : α
  primaryVerdict : Verdict
  secondaryVerdict : Verdict
  deriving Repr

namespace Prediction

variable {α : Type} [Scalar α]

/-- What is said as long as there is no model: nothing is an outlier. -/
def untrained : Prediction α := ⟨.normal, 0.0, 0.0, 0.0, .inlier, .inlier⟩

/-- A score on the scale from 0 to 1, the higher the more anomalous. What is not a finite number is
as anomalous as can be. -/
def normalized (score : α) : α :=
  if Scalar.isFinite score then 1.0 / (1.0 + Scalar.exp score) else 1.0

/-- The common score of two scores. -/
def compositeOf (weight primary secondary : α) : α :=
  weight * normalized primary + (1.0 - weight) * normalized secondary

/-- The prediction of two scores, the weight being that of the first. -/
def ofScores (weight primary secondary : α) : Prediction α where
  level := .ofVerdicts (.ofScore primary) (.ofScore secondary)
  composite := compositeOf weight primary secondary
  primaryScore := primary
  secondaryScore := secondary
  primaryVerdict := .ofScore primary
  secondaryVerdict := .ofScore secondary

end Prediction

end CounterWatch
