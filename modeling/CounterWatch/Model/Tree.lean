import CounterWatch.Feature
import CounterWatch.Random.Draws

/-!
# Isolation trees

A tree splits its rows at random thresholds until each row is alone or no split is left. A row that
is alone after few splits lies apart from the others.
-/

namespace CounterWatch

/-- A tree of splits. A row goes `low` when its value lies below the threshold and `high` otherwise,
also when it cannot be compared. -/
inductive Tree (α : Type) where
  /-- The end of a path, with the count of rows that it was built from. -/
  | leaf (size : Nat)
  | split (feature : Fin featureCount) (threshold : α) (low high : Tree α)
  deriving Repr

namespace Tree

variable {α σ : Type} [Scalar α]

/-- The least and the greatest value of a feature in some rows, starting from two given ones. -/
@[specialize] def extremes (j : Fin featureCount) : List (FeatureVector α) → α → α → α × α
  | [], lo, hi => (lo, hi)
  | row :: rest, lo, hi =>
    let x := row.get j
    extremes j rest (if x < lo then x else lo) (if hi < x then x else hi)

/-- The least and the greatest value of a feature in some rows, those that cannot be compared left
out. -/
@[specialize] def range? (rows : List (FeatureVector α)) (j : Fin featureCount) : Option (α × α) :=
  match rows.dropWhile fun row => !decide (row.get j ≤ row.get j) with
  | [] => none
  | row :: rest => some (extremes j rest (row.get j) (row.get j))

/-- The features that still have spread in some rows, each with its range. -/
@[specialize] def candidates (rows : List (FeatureVector α)) : List (Fin featureCount × α × α) :=
  (List.finRange featureCount).filterMap fun j =>
    match range? rows j with
    | some (lo, hi) => if lo < hi then some (j, lo, hi) else none
    | none => none

/-- A tree over some rows with at most `depth` splits on a path. -/
@[specialize] def grow (draws : Draws α σ) :
    (depth : Nat) → List (FeatureVector α) → Drawing σ (Tree α)
  | 0, rows => return .leaf rows.length
  | depth + 1, rows => do
    if rows.length ≤ 1 then return .leaf rows.length
    let features := candidates rows
    if features.isEmpty then return .leaf rows.length
    let i ← draws.index 0 (features.length - 1)
    match features[i]? with
    | none => return .leaf rows.length
    | some (feature, lo, hi) =>
      let threshold ← draws.threshold lo hi
      let (below, rest) := rows.partition fun row => decide (row[feature] < threshold)
      let low ← grow draws depth below
      let high ← grow draws depth rest
      return .split feature threshold low high

/-- The count of splits that a row passes, and the size of the leaf that it comes to. -/
@[specialize] def path (row : FeatureVector α) : Tree α → Nat × Nat
  | .leaf size => (0, size)
  | .split feature threshold low high =>
    let (splits, size) := if row[feature] < threshold then path row low else path row high
    (splits + 1, size)

/-- The constant of Euler and Mascheroni. -/
def eulerGamma : α := 0.5772156649015329

/-- The mean length of an unsuccessful search in a random search tree over `n` values. -/
def meanPath : Nat → α
  | 0 | 1 => 0.0
  | 2 => 1.0
  | n =>
    let n : α := Scalar.ofNat n
    2.0 * (Scalar.log (n - 1.0) + eulerGamma) - 2.0 * (n - 1.0) / n

/-- The length of a row's path; a leaf of several rows stands for the tree that would part them. -/
@[specialize] def pathLength (tree : Tree α) (row : FeatureVector α) : α :=
  let (splits, size) := tree.path row
  Scalar.ofNat splits + meanPath size

end Tree

end CounterWatch
