import CounterWatch.Number.Binary

/-!
# Numbers of 64 bits

The exact value of a `Float`, the `Float` nearest to a fraction or a decimal, and the whole numbers
about a `Float`.
-/

namespace CounterWatch

namespace Double

/-- The bit pattern as a natural number. -/
def bits (x : Float) : Nat := x.toBits.toNat

/-- The magnitude of the pattern. -/
def magnitude (x : Float) : Nat := BinaryFormat.double.magnitude (bits x)

/-- Whether the sign is set. -/
def isNegative (x : Float) : Bool := BinaryFormat.double.isNegative (bits x)

/-- The absolute value of a finite number, in units of the least positive one. -/
def units (x : Float) : Nat := BinaryFormat.double.units (magnitude x)

/-- The number with the magnitude and the sign given. -/
def ofMagnitude (negative : Bool) (magnitude : Nat) : Float :=
  Float.ofBits (UInt64.ofNat (BinaryFormat.double.withSign negative magnitude))

/-- Infinity with the sign given. -/
def infinity (negative : Bool) : Float := ofMagnitude negative BinaryFormat.double.infinity

/-- The value that is not a number. -/
def notANumber : Float := ofMagnitude false (BinaryFormat.double.infinity + 1 <<< 51)

/-- The number nearest to `num / den`, a tie going to the even pattern. -/
def ofFraction (negative : Bool) (num den : Nat) : Float :=
  ofMagnitude negative (BinaryFormat.double.nearest num den)

/-- The number nearest to `coefficient * 10 ^ exponent`.

Beyond `10 ^ 400` all is infinite and below `10 ^ -400` all is zero, so that no power of ten that
is written out is much longer than the text of the coefficient. -/
def ofDecimal (negative : Bool) (coefficient : Nat) (exponent : Int) : Float :=
  if coefficient = 0 then ofMagnitude negative 0
  else if 400 < exponent then infinity negative
  else if exponent < -400 - coefficient.log2 then ofMagnitude negative 0
  else if 0 ≤ exponent then ofFraction negative (coefficient * Nat.pow 10 exponent.toNat) 1
  else ofFraction negative coefficient (Nat.pow 10 (-exponent).toNat)

/-- The greatest natural number up to a finite number, zero if there is none. -/
def floor (x : Float) : Nat :=
  if x.isFinite ∧ ¬isNegative x then units x / BinaryFormat.double.one else 0

/-- The least natural number from a finite number on. -/
def ceil (x : Float) : Nat :=
  if x.isFinite ∧ ¬isNegative x then
    (units x + (BinaryFormat.double.one - 1)) / BinaryFormat.double.one
  else 0

/-- The whole number nearest to a number, a half going away from zero. -/
def round (x : Float) : Float :=
  if x.isFinite then
    ofFraction (isNegative x)
      ((2 * units x + BinaryFormat.double.one) / (2 * BinaryFormat.double.one)) 1
  else x

end Double

end CounterWatch
