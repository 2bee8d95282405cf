import CounterWatch.Number.Double

/-!
# Decimals

Positive decimals by their digits, and the two ways in which a number of 64 bits becomes one: with
the fewest digits that read back as the same number, and with a fixed count of places.

* `Decimal.shortest` is the decimal with the fewest digits among those that round to the number,
  and of these the nearest to it.
* `Decimal.inPlaces` is the exact value rounded to a count of places.
-/

namespace CounterWatch

/-- The number `0.d₁d₂… * 10 ^ point`, its digits leading one first and the last one not zero. -/
structure Decimal where
  digits : List Nat
  point : Int
  deriving DecidableEq, Repr, Inhabited

/-- Which of two equally near candidates is taken. -/
inductive Tie where
  | toEven
  | up
  deriving DecidableEq, Repr

namespace Decimal

/-- The digits of a number in base ten, the leading one first; no digit for zero. -/
def digitsOf (n : Nat) : List Nat := go n n []
where
  /-- The digits of `n` before those collected; the first argument bounds their count. -/
  go : Nat → Nat → List Nat → List Nat
    | 0, _, acc => acc
    | _, 0, acc => acc
    | fuel + 1, n, acc => go fuel (n / 10) (n % 10 :: acc)

/-- `coefficient * 10 ^ exponent` as a decimal, trailing zeros dropped. -/
def ofCoefficient (coefficient : Nat) (exponent : Int) : Decimal :=
  let ds := digitsOf coefficient
  ⟨(ds.reverse.dropWhile (· = 0)).reverse, ds.length + exponent⟩

/-- A fraction and the ends of the interval that rounds to it, over one denominator. -/
structure Rounded where
  value : Nat
  low : Nat
  high : Nat
  den : Nat
  /-- Whether the ends themselves round to the value. -/
  closed : Bool

namespace Rounded

/-- The finite magnitude of 64 bits, with half-way points to its two neighbours as ends. All is
counted in half units, so that the ends are whole. -/
def ofMagnitude (magnitude : Nat) : Rounded :=
  let u := BinaryFormat.double.units
  { value := 2 * u magnitude
    low := u (magnitude - 1) + u magnitude
    high := u magnitude + u (magnitude + 1)
    den := 2 * BinaryFormat.double.one
    closed := magnitude % 2 = 0 }

/-- All divided by `10 ^ exponent`. -/
def shift (r : Rounded) (exponent : Int) : Rounded :=
  if 0 ≤ exponent then { r with den := r.den * Nat.pow 10 exponent.toNat }
  else
    let scale := Nat.pow 10 (-exponent).toNat
    { r with value := r.value * scale, low := r.low * scale, high := r.high * scale }

/-- Whether a whole number lies in the interval. -/
def holds (r : Rounded) (n : Nat) : Bool :=
  let scaled := n * r.den
  if r.closed then r.low ≤ scaled && scaled ≤ r.high else r.low < scaled && scaled < r.high

/-- The whole number in the interval that is nearest to the value, if there is one. It is one of
the value's two neighbours: where any whole number lies in the interval, so does one of them. -/
def nearestWhole? (tie : Tie) (r : Rounded) : Option Nat :=
  let below := r.value / r.den
  let above := below + 1
  match r.holds below, r.holds above with
  | false, false => none
  | true, false => some below
  | false, true => some above
  | true, true =>
    let rest := 2 * (r.value % r.den)
    if rest < r.den then some below
    else if r.den < rest then some above
    else match tie with
      | .up => some above
      | .toEven => some (below + below % 2)

end Rounded

/-- The exponent `e` with `10 ^ e ≤ value / den < 10 ^ (e + 1)`, for a positive value: the count of
digits of the quotient, or of the inverse quotient rounded up, less one. -/
def leadingExponent (value den : Nat) : Int :=
  if den ≤ value then ((digitsOf (value / den)).length : Int) - 1
  else -((digitsOf ((den - 1) / value)).length : Int)

/-- The decimal with the fewest digits that rounds to a finite magnitude of 64 bits, and of these
the nearest to it. Seventeen digits always suffice. -/
def shortest (tie : Tie) (magnitude : Nat) : Decimal :=
  if magnitude = 0 then ⟨[], 0⟩
  else
    let r := Rounded.ofMagnitude magnitude
    let lead := leadingExponent r.value r.den
    let grid (count : Nat) : Option Decimal :=
      let exponent : Int := lead - (count : Int)
      ((r.shift exponent).nearestWhole? tie).map (ofCoefficient · exponent)
    ((List.range 17).findSome? grid).getD ⟨[], 0⟩

/-- The value of a finite magnitude of 64 bits in steps of `10 ^ -places`, a tie going to the even
step. -/
def inPlaces (places : Nat) (magnitude : Nat) : Nat :=
  roundQuotient (BinaryFormat.double.units magnitude * Nat.pow 10 places) BinaryFormat.double.one

end Decimal

end CounterWatch
