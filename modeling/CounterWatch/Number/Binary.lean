/-!
# Binary interchange formats

Numbers with a fixed count of significant bits, by their bit patterns. All arithmetic is on natural
numbers: a magnitude is counted in units of the format's least positive value, so that rounding is
one division with remainder and no exponent is ever negative.

* `BinaryFormat.units` is the exact value of a bit pattern, in units.
* `BinaryFormat.nearest` is the bit pattern nearest to a fraction, a tie going to the even pattern.
-/

namespace CounterWatch

/-- The whole number nearest to `num / den`; a tie goes to the even one. -/
def roundQuotient (num den : Nat) : Nat :=
  let quotient := num / den
  let rest := num % den
  if 2 * rest < den then quotient
  else if den < 2 * rest then quotient + 1
  else quotient + quotient % 2

/-- A binary interchange format, by the widths of its fraction and exponent fields. -/
structure BinaryFormat where
  fractionBits : Nat
  exponentBits : Nat
  deriving DecidableEq, Repr

namespace BinaryFormat

/-- The format of 64 bits. -/
def double : BinaryFormat := ⟨52, 11⟩

/-- The format of 32 bits. -/
def single : BinaryFormat := ⟨23, 8⟩

variable (f : BinaryFormat)

/-- One unit, the least positive value, is `2 ^ -f.unitExponent`. -/
def unitExponent : Nat := Nat.pow 2 (f.exponentBits - 1) - 2 + f.fractionBits

/-- One, in units. -/
def one : Nat := 1 <<< f.unitExponent

/-- The pattern of infinity: every exponent bit set, every fraction bit clear. -/
def infinity : Nat := (Nat.pow 2 f.exponentBits - 1) <<< f.fractionBits

/-- The bit of the sign. -/
def signBit : Nat := 1 <<< (f.fractionBits + f.exponentBits)

/-- The magnitude of a pattern, its sign cleared. -/
def magnitude (bits : Nat) : Nat := bits % f.signBit

/-- Whether the sign of a pattern is set. -/
def isNegative (bits : Nat) : Bool := f.signBit ≤ bits

/-- The value of a finite magnitude, in units: the significand moved up by the exponent. -/
def units (magnitude : Nat) : Nat :=
  let exponent := magnitude >>> f.fractionBits
  if exponent = 0 then magnitude
  else (magnitude % (1 <<< f.fractionBits) + 1 <<< f.fractionBits) <<< (exponent - 1)

/-- The magnitude nearest to `num / den`, a tie going to the even pattern; infinity where the
fraction rounds past the largest finite value.

The exponent field and the fraction field are filled by one sum: a significand with its leading bit
in place adds one to the exponent, and a significand that rounds up to the next power of two
carries into it. -/
def nearest (num den : Nat) : Nat :=
  let scaled := num <<< f.unitExponent
  let shift := (scaled / den).log2 - f.fractionBits
  min (shift <<< f.fractionBits + roundQuotient scaled (den <<< shift)) f.infinity

/-- A magnitude with a sign. -/
def withSign (negative : Bool) (magnitude : Nat) : Nat :=
  if negative then f.signBit + magnitude else magnitude

end BinaryFormat

end CounterWatch
