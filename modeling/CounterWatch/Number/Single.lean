import CounterWatch.Number.Binary

/-!
# Numbers of 32 bits

A rate in a record is a number of 32 bits, kept as its bit pattern: a record read and written again
is the same record, whatever it holds.
-/

namespace CounterWatch

/-- A number of 32 bits, by its bit pattern. -/
structure Single where
  bits : UInt32
  deriving DecidableEq, Repr, Inhabited

namespace Single

/-- The magnitude of the pattern. -/
def magnitude (x : Single) : Nat := BinaryFormat.single.magnitude x.bits.toNat

/-- Whether the sign is set. -/
def isNegative (x : Single) : Bool := BinaryFormat.single.isNegative x.bits.toNat

/-- Whether the pattern is that of a number, not of an infinity nor of "not a number". -/
def isFinite (x : Single) : Bool := x.magnitude < BinaryFormat.single.infinity

/-- Whether the pattern is that of "not a number". -/
def isNaN (x : Single) : Bool := BinaryFormat.single.infinity < x.magnitude

/-- Equality of the numbers: the two zeros are equal, and "not a number" equals nothing. -/
def eqv (x y : Single) : Bool :=
  !x.isNaN && !y.isNaN && (x.bits == y.bits || (x.magnitude == 0 && y.magnitude == 0))

/-- Zero. -/
def zero : Single := ⟨0⟩

/-- The magnitude given, without sign. -/
def ofMagnitude (magnitude : Nat) : Single := ⟨UInt32.ofNat magnitude⟩

/-- The number nearest to a whole number. -/
def ofNat (n : Nat) : Single := ofMagnitude (BinaryFormat.single.nearest n 1)

/-- The number nearest to the quotient of two finite magnitudes, the second not zero. -/
def quotient (x y : Single) : Single :=
  ofMagnitude (BinaryFormat.single.nearest (BinaryFormat.single.units x.magnitude)
    (BinaryFormat.single.units y.magnitude))

/-- The bit pattern of 64 bits of the same value. Every number of 32 bits is also one of 64, so
rounding changes nothing. -/
def widenedBits (x : Single) : Nat :=
  BinaryFormat.double.withSign x.isNegative <|
    if x.isFinite then
      BinaryFormat.double.nearest (BinaryFormat.single.units x.magnitude) BinaryFormat.single.one
    else if x.isNaN then BinaryFormat.double.infinity + 1 <<< 51
    else BinaryFormat.double.infinity

/-- The same value as a number of 64 bits. -/
def toFloat (x : Single) : Float := Float.ofBits (UInt64.ofNat x.widenedBits)

end Single

end CounterWatch
