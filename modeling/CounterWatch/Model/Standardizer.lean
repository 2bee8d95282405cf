import CounterWatch.Feature

/-!
# Standardisation

Each feature is moved to mean zero and scaled to standard deviation one over the training rows, so
that no feature outweighs another by its unit alone.
-/

namespace CounterWatch

/-- The place and the scale of each feature. -/
structure Standardizer (α : Type) where
  mean : FeatureVector α
  scale : FeatureVector α
  deriving Repr

namespace Standardizer

variable {α : Type} [Scalar α]

/-- A deviation below this counts as none. -/
def leastDeviation : α := 1e-12

/-- The means of some rows: the sums, taken row by row, over the count. -/
@[specialize] def means (rows : List (FeatureVector α)) : FeatureVector α :=
  let n : α := Scalar.ofNat (max 1 rows.length)
  let sums := rows.foldl (fun sums row => Vector.zipWith (· + ·) sums row) (FeatureVector.fill 0.0)
  sums.map (· / n)

/-- The standard deviations of some rows about `mean`. -/
@[specialize] def deviations (rows : List (FeatureVector α)) (mean : FeatureVector α) :
    FeatureVector α :=
  let n : α := Scalar.ofNat (max 1 rows.length)
  let sums := rows.foldl (fun sums row =>
    Vector.zipWith (· + ·) sums (Vector.zipWith (fun x m => Scalar.square (x - m)) row mean))
    (FeatureVector.fill 0.0)
  sums.map fun s => Scalar.sqrt (s / n)

/-- The standardisation of some training rows. A feature with next to no spread keeps its scale. -/
@[specialize] def fit (rows : List (FeatureVector α)) : Standardizer α :=
  let mean := means rows
  { mean, scale := (deviations rows mean).map fun s => if s < leastDeviation then 1.0 else s }

/-- A row on the standard scale. -/
@[specialize] def transform (s : Standardizer α) (row : FeatureVector α) : FeatureVector α :=
  Vector.zipWith (· / ·) (Vector.zipWith (· - ·) row s.mean) s.scale

end Standardizer

end CounterWatch
