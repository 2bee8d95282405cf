import CounterWatch.Number.Decimal

/-!
# The text of numbers

How numbers of 64 bits are written. A `NumberStyle` holds what differs between the outputs: how far
plain notation reaches, whether a whole number shows its point, and the words for what is not a
finite number.
-/

namespace CounterWatch

/-- The decisions of one way of writing numbers. -/
structure NumberStyle where
  /-- The least and the greatest decimal exponent written in plain notation; `none` for all. -/
  plain : Option (Int × Int)
  /-- Whether a whole number in plain notation ends in `.0`. -/
  wholePoint : Bool
  /-- Which of two equally short and near decimals is written. -/
  tie : Tie
  /-- The text of what is not a number. -/
  notANumber : String

namespace NumberStyle

/-- Numbers in messages: plain notation, a whole number without a point. -/
def message : NumberStyle := ⟨none, false, .up, "NaN"⟩

/-- Numbers in a configuration file: plain notation, a whole number with its point. -/
def config : NumberStyle := ⟨none, true, .up, "nan"⟩

/-- Finite numbers in JSON: plain notation for exponents from -5 to 15. -/
def json : NumberStyle := ⟨some (-5, 15), true, .toEven, "NaN"⟩

end NumberStyle

namespace Decimal

/-- The character of a digit. -/
def digitChar (d : Nat) : Char := Char.ofNat (48 + d)

/-- Digits as text. -/
def digitText (ds : List Nat) : List Char := ds.map digitChar

/-- A natural number in base ten. -/
def natText (n : Nat) : List Char := if n = 0 then ['0'] else digitText (digitsOf n)

/-- An integer in base ten. -/
def intText : Int → List Char
  | .ofNat n => natText n
  | .negSucc n => '-' :: natText (n + 1)

/-- Plain notation. -/
def plainText (wholePoint : Bool) (d : Decimal) : List Char :=
  let whole := if wholePoint then ['.', '0'] else []
  if d.digits = [] then '0' :: whole
  else if d.point ≤ 0 then
    ['0', '.'] ++ List.replicate (-d.point).toNat '0' ++ digitText d.digits
  else if d.digits.length ≤ d.point then
    digitText d.digits ++ List.replicate (d.point.toNat - d.digits.length) '0' ++ whole
  else
    digitText (d.digits.take d.point.toNat) ++ '.' :: digitText (d.digits.drop d.point.toNat)

/-- One digit before the point, then the power of ten with its sign. -/
def scientificText (d : Decimal) : List Char :=
  let mantissa := match d.digits with
    | [] => ['0']
    | [a] => [digitChar a]
    | a :: rest => digitChar a :: '.' :: digitText rest
  let exponent := d.point - 1
  mantissa ++ 'e' :: (if exponent < 0 then '-' else '+') :: natText exponent.natAbs

/-- A decimal in the notation that a style asks for. -/
def text (style : NumberStyle) (d : Decimal) : List Char :=
  match style.plain with
  | none => plainText style.wholePoint d
  | some (least, greatest) =>
    if d.digits = [] ∨ (least ≤ d.point - 1 ∧ d.point - 1 ≤ greatest) then
      plainText style.wholePoint d
    else scientificText d

end Decimal

namespace Double

/-- The sign of a number as text. -/
def signText (x : Float) : List Char := if isNegative x then ['-'] else []

/-- The text of a number in a style, with the fewest digits that read back as the same number. -/
def text (style : NumberStyle) (x : Float) : List Char :=
  if magnitude x < BinaryFormat.double.infinity then
    signText x ++ (Decimal.shortest style.tie (magnitude x)).text style
  else if magnitude x = BinaryFormat.double.infinity then signText x ++ ['i', 'n', 'f']
  else style.notANumber.toList

/-- The text of a number with a fixed, positive count of places. -/
def fixedText (places : Nat) (x : Float) : List Char :=
  if magnitude x < BinaryFormat.double.infinity then
    let steps := Decimal.inPlaces places (magnitude x)
    let scale := Nat.pow 10 places
    let fraction := Decimal.natText (steps % scale)
    signText x ++ Decimal.natText (steps / scale)
      ++ '.' :: List.replicate (places - fraction.length) '0' ++ fraction
  else text .message x

end Double

end CounterWatch
