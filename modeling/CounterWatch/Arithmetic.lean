import CounterWatch.Number.Double

/-!
# Arithmetic

The models are written over any type with the operations below, and run on numbers of 64 bits. No
law is asked for here: a statement that needs exact arithmetic names the type it holds for.

* `Scalar` is the interface.
* `Scalar.sum`, `Scalar.mean` and `Scalar.meanSquare` are the statistics that the rest is built
  from, each with its order of operations fixed.
-/

namespace CounterWatch

/-- The operations that features and models use. -/
class Scalar (α : Type) extends Add α, Sub α, Mul α, Div α, Neg α, LT α, LE α, OfScientific α where
  decLt : (a b : α) → Decidable (a < b)
  decLe : (a b : α) → Decidable (a ≤ b)
  /-- The order used for sorting. It places every value, also one that is unordered by `≤`. -/
  sortLe : α → α → Bool
  /-- Whether the value is neither infinite nor undefined. -/
  isFinite : α → Bool
  ofNat : Nat → α
  /-- The greatest natural number up to the value, zero if there is none. -/
  floor : α → Nat
  /-- The least natural number from the value on. -/
  ceil : α → Nat
  sqrt : α → α
  /-- The natural logarithm. -/
  log : α → α
  exp : α → α
  /-- Two to the power of the value. -/
  exp2 : α → α

namespace Scalar

variable {α : Type} [Scalar α]

instance (a b : α) : Decidable (a < b) := decLt a b

instance (a b : α) : Decidable (a ≤ b) := decLe a b

/-- The sum, from the first term to the last. It starts from negative zero, the one value that
rounded addition leaves alone on every term. -/
@[specialize] def sum (xs : List α) : α := xs.foldl (· + ·) (-0.0)

/-- The square. -/
@[inline] def square (x : α) : α := x * x

/-- The absolute value. -/
@[inline] def abs (x : α) : α := if x < 0.0 then -x else x

/-- The value moved into the interval from `lo` to `hi`; an undefined value stays as it is. -/
@[inline] def clamp (lo hi x : α) : α := if x < lo then lo else if hi < x then hi else x

/-- The arithmetic mean. -/
@[specialize] def mean (xs : List α) : α := sum xs / ofNat xs.length

/-- The mean of the squares of the distances to `center`. -/
@[specialize] def meanSquare (xs : List α) (center : α) : α :=
  sum (xs.map fun x => square (x - center)) / ofNat xs.length

end Scalar

namespace Double

/-- The place of a number in the order used for sorting: negative numbers before positive ones and
each by magnitude, so that negative zero comes before zero and what is not a number comes last. -/
def sortKey (bits : UInt64) : UInt64 :=
  if bits < 0x8000000000000000 then bits + 0x8000000000000000 else ~~~bits

end Double

instance : Scalar Float where
  decLt a b := inferInstanceAs (Decidable (a < b))
  decLe a b := inferInstanceAs (Decidable (a ≤ b))
  sortLe a b := Double.sortKey a.toBits ≤ Double.sortKey b.toBits
  isFinite x := x.isFinite
  ofNat n := Float.ofNat n
  floor := Double.floor
  ceil := Double.ceil
  sqrt := Float.sqrt
  log := Float.log
  exp := Float.exp
  exp2 := Float.exp2

end CounterWatch
