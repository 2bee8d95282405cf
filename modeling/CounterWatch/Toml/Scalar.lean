import CounterWatch.Number.Numeral
import CounterWatch.Toml

/-!
# TOML scalars

Truth values, numbers, dates and times. None of them holds a character that could also end it, so
that a scalar is the longest run of the characters that scalars are made of, and the run as a whole
says what it is.

* `Toml.scalar?` gives the value of a run.
-/

namespace CounterWatch

namespace Toml

/-- Whether a character may stand in a scalar. -/
def isScalarChar (c : Char) : Bool :=
  c.isAlphanum || c = '_' || c = '+' || c = '-' || c = '.' || c = ':'

/-! ## Numbers -/

/-- Whether a character is a digit in a base. -/
def isDigitIn (base : Nat) (c : Char) : Bool :=
  match Numeral.digitValue? c with
  | some d => d < base
  | none => false

/-- One or more digits without the underscores between them. An underscore has a digit on each
side. -/
def ungrouped? (base : Nat) : List Char → Option (List Char)
  | [] => none
  | [c] => if isDigitIn base c then some [c] else none
  | c :: '_' :: rest => if isDigitIn base c then (ungrouped? base rest).map (c :: ·) else none
  | c :: rest => if isDigitIn base c then (ungrouped? base rest).map (c :: ·) else none

/-- The digits of a whole number in base ten: a zero alone, or digits that do not start with
one. -/
def wholeDigits? (s : List Char) : Option (List Char) := do
  let digits ← ungrouped? 10 s
  match digits with
  | '0' :: _ :: _ => none
  | _ => some digits

/-- The base that the start of a number names, with the digits after it. -/
def namedBase? : List Char → Option (Nat × List Char)
  | '0' :: 'x' :: rest => some (16, rest)
  | '0' :: 'o' :: rest => some (8, rest)
  | '0' :: 'b' :: rest => some (2, rest)
  | _ => none

/-- An integer, if it can be held in 64 bits with a sign. -/
def word? (n : Int) : Option Toml :=
  let limit : Int := Int.ofNat (Nat.pow 2 63)
  if -limit ≤ n ∧ n < limit then some (.integer n) else none

/-- The integer that a run stands for. Only in base ten may it have a sign. -/
def integer? (s : List Char) : Option Toml :=
  match namedBase? s with
  | some (base, digits) => do
    let n ← Numeral.value? base (← ungrouped? base digits)
    word? n
  | none => do
    let (negative, s) := Numeral.signed s
    let n ← Numeral.value? 10 (← wholeDigits? s)
    word? (if negative then -(n : Int) else n)

/-- Whether a character starts an exponent. -/
def isExponentMark (c : Char) : Bool := c = 'e' || c = 'E'

/-- The exponent that a run ends in, if there is one: its sign and its digits. -/
def exponent? : List Char → Option (Bool × List Char)
  | [] => some (false, [])
  | _ :: rest => do
    let (lowers, digits) := Numeral.signed rest
    return (lowers, ← ungrouped? 10 digits)

/-- The fraction of a number, if there is one. -/
def fraction? : List Char → Option (List Char)
  | [] => some []
  | '.' :: digits => ungrouped? 10 digits
  | _ => none

/-- A decimal number with a fraction, an exponent, or both. -/
def decimal? (s : List Char) : Option Numeral := do
  let (negative, s) := Numeral.signed s
  let mantissa := s.takeWhile (!isExponentMark ·)
  let exponent := s.dropWhile (!isExponentMark ·)
  let whole := mantissa.takeWhile (· ≠ '.')
  let point := mantissa.dropWhile (· ≠ '.')
  if exponent.isEmpty ∧ point.isEmpty then none
  let whole ← wholeDigits? whole
  let fraction ← fraction? point
  let (lowers, exponent) ← exponent? exponent
  return { negative, whole, fraction, lowers, exponent }

/-- The float that a run stands for. A decimal number may not be too great, but may be too far below
zero. -/
def float? (s : List Char) : Option Toml :=
  let (negative, body) := Numeral.signed s
  if body = ['i', 'n', 'f'] then some (.float (Double.infinity negative))
  else if body = ['n', 'a', 'n'] then some (.float Double.notANumber)
  else do
    let x := (← decimal? s).toFloat
    if x.toBits = (Double.infinity false).toBits then none else some (.float x)

/-! ## Dates and times -/

/-- The number of two digits. -/
def pair? (a b : Char) : Option Nat := do
  if Numeral.isDigit a && Numeral.isDigit b then Numeral.value? 10 [a, b] else none

/-- The count of days in a month. -/
def daysIn (year month : Nat) : Nat :=
  if month = 2 then
    if (year % 4 = 0 ∧ year % 100 ≠ 0) ∨ year % 400 = 0 then 29 else 28
  else if month = 4 ∨ month = 6 ∨ month = 9 ∨ month = 11 then 30
  else 31

/-- What follows the date at the start of a text. -/
def dateRest? : List Char → Option (List Char)
  | a :: b :: c :: d :: '-' :: e :: f :: '-' :: g :: h :: rest => do
    let century ← pair? a b
    let year ← pair? c d
    let month ← pair? e f
    let day ← pair? g h
    if 1 ≤ month ∧ month ≤ 12 ∧ 1 ≤ day ∧ day ≤ daysIn (100 * century + year) month then some rest
    else none
  | _ => none

/-- What follows the fraction of a second at the start of a text, if there is one. -/
def secondFractionRest? : List Char → Option (List Char)
  | '.' :: rest =>
    let (digits, rest) := Numeral.digits rest
    if digits.isEmpty then none else some rest
  | rest => some rest

/-- What follows the time of day at the start of a text. A minute may have a leap second. -/
def timeRest? : List Char → Option (List Char)
  | a :: b :: ':' :: c :: d :: ':' :: e :: f :: rest => do
    let hour ← pair? a b
    let minute ← pair? c d
    let second ← pair? e f
    if hour < 24 ∧ minute < 60 ∧ second ≤ 60 then secondFractionRest? rest else none
  | _ => none

/-- Whether a text is empty or the distance of a time from the standard one. -/
def isOffset : List Char → Bool
  | [] | ['Z'] | ['z'] => true
  | [sign, a, b, ':', c, d] =>
    (sign = '+' || sign = '-') && (pair? a b).any (· < 24) && (pair? c d).any (· < 60)
  | _ => false

/-- Whether a run is a time of day as it may follow a date. -/
def isZonedTime (s : List Char) : Bool := (timeRest? s).any isOffset

/-- Whether a run is a date alone. -/
def isDate (s : List Char) : Bool := dateRest? s = some []

/-- Whether a run is a date, a time, or both. -/
def isDatetime (s : List Char) : Bool :=
  timeRest? s = some [] ||
    match dateRest? s with
    | none => false
    | some [] => true
    | some (c :: rest) => (c = 'T' || c = 't') && isZonedTime rest

/-- The value that a run stands for. -/
def scalar? (s : List Char) : Option Toml :=
  if s = ['t', 'r', 'u', 'e'] then some (.bool true)
  else if s = ['f', 'a', 'l', 's', 'e'] then some (.bool false)
  else if isDatetime s then some .datetime
  else integer? s <|> float? s

end Toml

end CounterWatch
