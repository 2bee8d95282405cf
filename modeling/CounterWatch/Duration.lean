import CounterWatch.Number.Text

/-!
# Spans of time

A span in whole nanoseconds, made from a number of seconds.
-/

namespace CounterWatch

/-- A span of time, in nanoseconds. -/
structure Duration where
  nanoseconds : Nat
  deriving DecidableEq, Repr

/-- Why a number of seconds is no span of time. -/
inductive DurationError where
  | negative
  | outOfRange
  deriving DecidableEq, Repr

/-- The wording of the error. -/
def DurationError.message : DurationError → String
  | .negative => "cannot convert float seconds to Duration: value is negative"
  | .outOfRange => "cannot convert float seconds to Duration: value is either too big or NaN"

namespace Duration

/-- The nanoseconds of one second. -/
def perSecond : Nat := Nat.pow 10 9

/-- A count of whole seconds. -/
def ofSeconds (n : Nat) : Duration := ⟨n * perSecond⟩

/-- The whole seconds of a span. -/
def seconds (d : Duration) : Nat := d.nanoseconds / perSecond

/-- The nanoseconds beyond the whole seconds. -/
def subsecond (d : Duration) : Nat := d.nanoseconds % perSecond

/-- The span of a number of seconds, rounded to the nearest nanosecond with a tie going to the even
one. Seconds must fit in 64 bits. -/
def ofFloat (seconds : Float) : Except DurationError Duration :=
  let magnitude := Double.magnitude seconds
  if BinaryFormat.double.infinity < magnitude then .error .outOfRange
  else if Double.isNegative seconds ∧ 0 < magnitude then .error .negative
  else if BinaryFormat.double.nearest (Nat.pow 2 64) 1 ≤ magnitude then .error .outOfRange
  else .ok ⟨Decimal.inPlaces 9 magnitude⟩

end Duration

end CounterWatch
