import CounterWatch.Feature
import CounterWatch.Model.Percentile

/-!
# The elliptic envelope

An ellipsoid about the centre of the training rows, its axes along the features. A row scores by
how far inside the ellipsoid it lies.
-/

namespace CounterWatch

/-- The centre, the weight of each feature in the distance, and the radius. -/
structure Envelope (α : Type) where
  center : FeatureVector α
  weight : FeatureVector α
  radius : α
  deriving Repr

namespace Envelope

variable {α : Type} [Scalar α]

/-- A variance up to this counts as none. -/
def leastVariance : α := 1e-12

/-- The share of the training rows left outside unless another is asked for. -/
def defaultShare : α := 0.01

/-- The centre of some rows, each row divided by the count before it is added. -/
@[specialize] def centerOf (rows : List (FeatureVector α)) : FeatureVector α :=
  let n : α := Scalar.ofNat (max 1 rows.length)
  rows.foldl (fun c row => Vector.zipWith (fun c x => c + x / n) c row) (FeatureVector.fill 0.0)

/-- The weight of a feature: the inverse of its variance, and nothing for a constant feature, which
carries no shape. -/
@[specialize] def weightOf (rows : List (FeatureVector α)) (center : FeatureVector α)
    (j : Fin featureCount) : α :=
  let n : α := Scalar.ofNat (max 1 rows.length)
  let variance := Scalar.sum (rows.map fun row => Scalar.square (row.get j - center.get j)) / n
  if leastVariance < variance then 1.0 / variance else 0.0

/-- The distance of a row from the centre. -/
@[specialize] def distance (center weight row : FeatureVector α) : α :=
  Scalar.sqrt <| Scalar.sum <| (List.finRange featureCount).map fun j =>
    Scalar.square (row.get j - center.get j) * weight.get j

/-- The envelope that leaves a share `nu` of the training rows outside. -/
@[specialize] def fit (nu : α) (rows : List (FeatureVector α)) : Envelope α :=
  let center := centerOf rows
  let weight := Vector.ofFn (weightOf rows center)
  let distances := rows.map (distance center weight)
  { center, weight, radius := (Scalar.percentile? distances (100.0 * (1.0 - nu))).getD 0.0 }

/-- How far inside the envelope a row lies. -/
@[specialize] def score (e : Envelope α) (row : FeatureVector α) : α :=
  e.radius - distance e.center e.weight row

end Envelope

end CounterWatch
