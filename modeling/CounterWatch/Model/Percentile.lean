import CounterWatch.Arithmetic

/-!
# Percentiles

The boundary of every model is a percentile of its scores on the training rows, interpolated
between the two sorted values that its rank lies between.
-/

namespace CounterWatch

namespace Scalar

variable {α : Type} [Scalar α]

/-- The rank of the `q`-th percentile among `n` sorted values: a share of the way from the first
value to the last, with `q` moved into the interval from 0 to 100. -/
def percentileRank (n : Nat) (q : α) : α := clamp 0.0 1.0 (q / 100.0) * ofNat (n - 1)

/-- The `q`-th percentile of some values, `none` if there are none. -/
@[specialize] def percentile? (values : List α) (q : α) : Option α := do
  let sorted := (values.mergeSort sortLe).toArray
  let rank := percentileRank sorted.size q
  let below ← sorted[floor rank]?
  let above ← sorted[ceil rank]?
  return below + (above - below) * (rank - ofNat (floor rank))

end Scalar

end CounterWatch
