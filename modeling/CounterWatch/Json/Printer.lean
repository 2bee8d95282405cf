import CounterWatch.Json

/-!
# Printing JSON

The compact text of a value: no blanks, and in strings only the quote, the backslash and the control
characters are escaped. So the text of a value is one line.
-/

namespace CounterWatch

namespace Json

/-- A digit in base sixteen, in lower case. -/
def hexDigit (n : Nat) : Char := if n < 10 then Char.ofNat (48 + n) else Char.ofNat (87 + n)

/-- A character inside a string. -/
def escape (c : Char) : List Char :=
  if c = '"' then ['\\', '"']
  else if c = '\\' then ['\\', '\\']
  else if c = '\n' then ['\\', 'n']
  else if c = '\r' then ['\\', 'r']
  else if c = '\t' then ['\\', 't']
  else if c = '\x08' then ['\\', 'b']
  else if c = '\x0c' then ['\\', 'f']
  else if c.toNat < 32 then
    ['\\', 'u', '0', '0', hexDigit (c.toNat / 16), hexDigit (c.toNat % 16)]
  else [c]

/-- A string in quotes. -/
def quoted (s : List Char) : List Char := '"' :: (s.flatMap escape ++ ['"'])

mutual

/-- The text of a value. -/
def print : Json → List Char
  | .null => ['n', 'u', 'l', 'l']
  | .bool true => ['t', 'r', 'u', 'e']
  | .bool false => ['f', 'a', 'l', 's', 'e']
  | .number text => text
  | .string s => quoted s.toList
  | .broken => ['"', '\\', 'u', 'd', '8', '0', '0', '"']
  | .array items => '[' :: printItems items
  | .object fields => '\x7b' :: printFields fields

/-- The items of an array, with its end. -/
def printItems : List Json → List Char
  | [] => [']']
  | [j] => j.print ++ [']']
  | j :: rest => j.print ++ ',' :: printItems rest

/-- The fields of an object, with its end. -/
def printFields : List (String × Json) → List Char
  | [] => ['\x7d']
  | [(name, j)] => quoted name.toList ++ ':' :: j.print ++ ['\x7d']
  | (name, j) :: rest => quoted name.toList ++ ':' :: j.print ++ ',' :: printFields rest

end

/-- The compact text of a value. -/
def render (j : Json) : String := String.ofList j.print

end Json

end CounterWatch
