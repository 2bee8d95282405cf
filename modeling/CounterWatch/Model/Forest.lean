import CounterWatch.Model.Percentile
import CounterWatch.Model.Tree
import CounterWatch.Random.ChaCha

/-!
# The isolation forest

Many isolation trees, each over a random sample of the training rows. The shorter a row's mean path
through them, the more it is an outlier.
-/

namespace CounterWatch

/-- Why a model cannot be fitted. -/
inductive FitError where
  /-- A model of no rows was asked for. -/
  | emptyMatrix
  /-- There is no training score to take the boundary from. -/
  | noBoundary
  /-- The range of a feature is not finite. -/
  | unboundedFeature
  /-- There are to be more trees than any store can hold. -/
  | tooManyTrees
  deriving DecidableEq, Repr

/-- The wording of the error. -/
def FitError.message : FitError → String
  | .emptyMatrix => "model error: cannot fit on an empty matrix"
  | .noBoundary => "model error: no score to take the boundary from"
  | .unboundedFeature => "model error: a feature has no finite range"
  | .tooManyTrees => "model error: more trees than can be held"

/-- The trees, the count of rows that each was built from, and the score at the boundary. -/
structure Forest (α : Type) where
  trees : List (Tree α)
  sampleSize : Nat
  offset : α
  deriving Repr

namespace Forest

/-- What a forest is to be like. -/
structure Params (α : Type) where
  estimators : Nat
  maxSamples : Nat
  /-- The share of outliers expected among the training rows; it sets the boundary. -/
  contamination : α
  seed : UInt64

variable {α σ : Type} [Scalar α]

/-- The usual forest. -/
def Params.standard : Params α := ⟨200, 256, 0.01, 42⟩

/-- The least `k` with `n ≤ 2 ^ k`. -/
def ceilLog2 (n : Nat) : Nat := if n ≤ 1 then 0 else (n - 1).log2 + 1

/-- The mean path is measured against that of a random search tree, but at least against this. -/
def leastNorm : α := 1.0 / 4503599627370496.0

/-- The negated anomaly score of a row, from -1 to 0; the lower, the more anomalous. -/
@[specialize] def negatedAnomaly (trees : List (Tree α)) (sampleSize : Nat)
    (row : FeatureVector α) : α :=
  let meanPath := Scalar.sum (trees.map fun t => t.pathLength row) / Scalar.ofNat trees.length
  let expected : α := Tree.meanPath sampleSize
  let norm := if expected < leastNorm then leastNorm else expected
  (-Scalar.exp2 (-meanPath / norm))

/-- One tree over a random sample of the rows. -/
@[specialize] def growOne (draws : Draws α σ) (sampleSize : Nat)
    (rows : Array (FeatureVector α)) : Drawing σ (Tree α) := do
  let places ← draws.subset sampleSize rows.size
  Tree.grow draws (max 1 (ceilLog2 sampleSize)) (places.filterMap (rows[·]?))

/-- Some trees, one after the other. -/
@[specialize] def growTrees (draws : Draws α σ) (sampleSize : Nat)
    (rows : Array (FeatureVector α)) : (count : Nat) → Drawing σ (List (Tree α))
  | 0 => return []
  | count + 1 => do
    let tree ← growOne draws sampleSize rows
    let rest ← growTrees draws sampleSize rows count
    return tree :: rest

/-- The forest over some rows with random values from a given source, and the state that the source
is left in. -/
@[specialize] def growWith (draws : Draws α σ) (start : σ) (params : Params α)
    (rows : List (FeatureVector α)) : Forest α × σ :=
  let sampleSize := max 1 (min params.maxSamples rows.length)
  let (trees, last) := growTrees draws sampleSize rows.toArray (max 1 params.estimators) start
  let scores := rows.map (negatedAnomaly trees sampleSize)
  let offset := (Scalar.percentile? scores (100.0 * params.contamination)).getD 0.0
  ({ trees, sampleSize, offset }, last)

/-- The forest over some rows with random values from the stream of its seed, and where it leaves
the stream. -/
@[specialize] def grow (params : Params α) (rows : List (FeatureVector α)) : Forest α × ChaCha :=
  growWith ChaCha.draws (ChaCha.ofSeed params.seed) params rows

/-- The least count of trees that no store can hold. -/
def treeLimit : Nat := Nat.pow 2 63 / 24 + 1

/-- The forest over some rows. There must be rows, not too many trees, and every split must have had
a finite range. -/
@[specialize] def fit (params : Params α) (rows : List (FeatureVector α)) :
    Except FitError (Forest α) :=
  if treeLimit ≤ params.estimators then .error .tooManyTrees
  else if rows.isEmpty then .error .noBoundary
  else
    let (forest, last) := grow params rows
    if last.unbounded then .error .unboundedFeature else .ok forest

/-- A forest that is fitted is the one that is grown over the same rows. -/
theorem eq_grow_of_fit {params : Params α} {rows : List (FeatureVector α)} {f : Forest α}
    (h : fit params rows = .ok f) : f = (grow params rows).1 := by
  by_cases many : treeLimit ≤ params.estimators <;> by_cases none : rows.isEmpty <;>
    by_cases unbounded : (grow params rows).2.unbounded <;> simp_all [fit]

/-- How far a row lies on the inner side of the boundary. -/
@[specialize] def score (f : Forest α) (row : FeatureVector α) : α :=
  negatedAnomaly f.trees f.sampleSize row - f.offset

end Forest

end CounterWatch
