import CounterWatch.Number.Double

/-!
# Reading numerals

The characters of digits, runs of digits, and the number that a decimal numeral stands for. Which
numerals a format admits is the format's own affair; what they mean is said here once.
-/

namespace CounterWatch

namespace Numeral

/-- Whether a character is a digit from 0 to 9. -/
def isDigit (c : Char) : Bool := '0' ≤ c && c ≤ '9'

/-- The value of a digit in base 16 or less. -/
def digitValue? (c : Char) : Option Nat :=
  if '0' ≤ c ∧ c ≤ '9' then some (c.toNat - 48)
  else if 'a' ≤ c ∧ c ≤ 'f' then some (c.toNat - 87)
  else if 'A' ≤ c ∧ c ≤ 'F' then some (c.toNat - 55)
  else none

/-- The number that digits in a base stand for, `none` if one of them is no digit of the base. -/
def value? (base : Nat) (digits : List Char) : Option Nat :=
  digits.foldl (fun acc c => do
    let n ← acc
    let d ← digitValue? c
    if d < base then some (base * n + d) else none) (some 0)

/-- A sign that may be left out: whether it is a minus, and what follows it. -/
def signed : List Char → Bool × List Char
  | '-' :: rest => (true, rest)
  | '+' :: rest => (false, rest)
  | rest => (false, rest)

/-- The digits at the start of a text, and what follows them. -/
def digits (s : List Char) : List Char × List Char := (s.takeWhile isDigit, s.dropWhile isDigit)

end Numeral

/-- A decimal numeral in its parts, each a run of digits. -/
structure Numeral where
  negative : Bool
  whole : List Char
  fraction : List Char := []
  /-- Whether the exponent has a minus sign. -/
  lowers : Bool := false
  exponent : List Char := []
  deriving DecidableEq, Repr

namespace Numeral

/-- The digits of the numeral as one number. -/
def coefficient (n : Numeral) : Nat := (value? 10 (n.whole ++ n.fraction)).getD 0

/-- The power of ten that the coefficient is multiplied by. -/
def power (n : Numeral) : Int :=
  let exponent : Int := (value? 10 n.exponent).getD 0
  (if n.lowers then -exponent else exponent) - n.fraction.length

/-- The numeral without the zeros at the end of its fraction. -/
def trimmed (n : Numeral) : Numeral :=
  { n with fraction := (n.fraction.reverse.dropWhile (· = '0')).reverse }

/-- The count of digits from the first on that is not zero. -/
def length (n : Numeral) : Nat := ((n.whole ++ n.fraction).dropWhile (· = '0')).length

/-- The number nearest to the value of the numeral, infinite if that is out of range. -/
def toFloat (n : Numeral) : Float := Double.ofDecimal n.negative n.coefficient n.power

end Numeral

end CounterWatch
