import CounterWatch.Feature

/-!
# Diversity of training rows

Models fitted on rows that hardly differ call everything an outlier. Training goes on with such
rows, but says so.
-/

namespace CounterWatch

/-- What is wrong with the spread of some training rows. -/
structure Diversity where
  /-- The features with no spread. -/
  flat : List (Fin featureCount)
  /-- The count of features whose spread is small beside their mean. -/
  uniform : Nat
  deriving Repr

namespace Diversity

variable {α : Type} [Scalar α]

/-- The means of some rows, each row divided by the count before it is added. -/
@[specialize] def means (rows : List (FeatureVector α)) : FeatureVector α :=
  let n : α := Scalar.ofNat rows.length
  rows.foldl (fun m row => Vector.zipWith (fun m x => m + x / n) m row) (FeatureVector.fill 0.0)

/-- The standard deviation of a feature about its mean. -/
@[specialize] def deviation (rows : List (FeatureVector α)) (mean : FeatureVector α)
    (j : Fin featureCount) : α :=
  Scalar.sqrt (Scalar.sum (rows.map fun row => Scalar.square (row.get j - mean.get j))
    / Scalar.ofNat rows.length)

/-- Whether a deviation is none. -/
def isFlat (deviation : α) : Bool := deviation < (1e-10 : α)

/-- Whether a deviation is below one hundredth of the mean. Where the mean is next to zero it
always counts as such. -/
def isUniform (mean deviation : α) : Bool :=
  let variation : α := if 1e-12 < Scalar.abs mean then deviation / Scalar.abs mean else 0.0
  variation < (0.01 : α)

/-- The diversity of some rows. -/
@[specialize] def ofRows (rows : List (FeatureVector α)) : Diversity :=
  let mean := means rows
  let deviations : FeatureVector α := Vector.ofFn (deviation rows mean)
  let features := List.finRange featureCount
  { flat := features.filter fun j => isFlat (deviations.get j)
    uniform := (features.filter fun j => isUniform (mean.get j) (deviations.get j)).length }

/-- Whether more than half of the features are uniform. -/
def isUniformMajority (d : Diversity) : Bool := featureCount / 2 < d.uniform

/-- Whether nothing is wrong. -/
def isDiverse (d : Diversity) : Bool := d.flat.isEmpty && !d.isUniformMajority

end Diversity

end CounterWatch
