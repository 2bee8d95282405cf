import CounterWatch.Json
import CounterWatch.Number.Numeral
import CounterWatch.Number.Text

/-!
# Numbers in JSON

The grammar of a JSON number, and the numbers that one can stand for.
-/

namespace CounterWatch

namespace Json

/-- The exponent at the start of a text, if there is one: its sign, its digits, and what follows.
`none` if an exponent has no digit. -/
def exponentPart (s : List Char) : Option (Bool × List Char × List Char) :=
  match s with
  | c :: rest =>
    if c = 'e' ∨ c = 'E' then
      let (lowers, rest) := Numeral.signed rest
      let (digits, rest) := Numeral.digits rest
      if digits.isEmpty then none else some (lowers, digits, rest)
    else some (false, [], s)
  | [] => some (false, [], [])

/-- The fraction at the start of a text, if there is one: its digits and what follows. `none` if a
point has no digit after it. -/
def fractionPart : List Char → Option (List Char × List Char)
  | '.' :: rest =>
    let (digits, rest) := Numeral.digits rest
    if digits.isEmpty then none else some (digits, rest)
  | rest => some ([], rest)

/-- The whole part at the start of a text: a zero alone, or digits that do not start with one. -/
def wholePart (s : List Char) : Option (List Char × List Char) :=
  let (digits, rest) := Numeral.digits s
  match digits with
  | [] => none
  | ['0'] => some (digits, rest)
  | '0' :: _ => none
  | _ => some (digits, rest)

/-- The numeral at the start of a text, and what follows it. -/
def numeral? (s : List Char) : Option (Numeral × List Char) := do
  let (negative, s) := match s with
    | '-' :: rest => (true, rest)
    | s => (false, s)
  let (whole, s) ← wholePart s
  let (fraction, s) ← fractionPart s
  let (lowers, exponent, s) ← exponentPart s
  return ({ negative, whole, fraction, lowers, exponent }, s)

/-- The count of digits of a numeral that are read as they are. -/
def digitLimit : Nat := 768

/-- The number that a numeral stands for. A numeral of few digits stands for the number nearest to
its value. Of one with more digits, those behind the limit count as a single 1, even if all of them
are zeros of its whole part: what is cut off never leaves the value halfway between two numbers. -/
def nearest (n : Numeral) : Float :=
  let t := n.trimmed
  let beyond := t.length - digitLimit
  if beyond = 0 then n.toFloat
  else
    let kept := t.coefficient / Nat.pow 10 beyond
    Double.ofDecimal n.negative (10 * kept + 1) (t.power + (beyond - 1))

/-- The finite number that a JSON number stands for; a whole number will do. -/
def float? : Json → Option Float
  | .number text => do
    let (n, _) ← numeral? text
    let x := nearest n
    if x.isFinite then some x else none
  | _ => none

/-- The natural number that a JSON number stands for, written without sign, point and exponent. -/
def nat? : Json → Option Nat
  | .number text => if text.all Numeral.isDigit then Numeral.value? 10 text else none
  | _ => none

/-- The natural number below `2 ^ 64` that a JSON number stands for. -/
def word? (j : Json) : Option UInt64 := do
  let n ← j.nat?
  if n < Nat.pow 2 64 then some (UInt64.ofNat n) else none

/-- A natural number. -/
def ofNat (n : Nat) : Json := .number (Decimal.natText n)

/-- A number; `null` stands for one that is not finite. -/
def ofFloat (x : Float) : Json := if x.isFinite then .number (Double.text .json x) else .null

end Json

end CounterWatch
