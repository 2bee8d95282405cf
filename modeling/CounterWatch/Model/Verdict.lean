import CounterWatch.Arithmetic

/-!
# Verdicts

Every model gives a row a score, and the sign of the score is its verdict.
-/

namespace CounterWatch

/-- What a model says about a row. -/
inductive Verdict where
  | inlier
  | outlier
  deriving DecidableEq, Repr

/-- A row is an inlier when its score is a number that is not negative. -/
def Verdict.ofScore {α : Type} [Scalar α] (score : α) : Verdict :=
  if Scalar.isFinite score = true ∧ (0.0 : α) ≤ score then .inlier else .outlier

end CounterWatch
