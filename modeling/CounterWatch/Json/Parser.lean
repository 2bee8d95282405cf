import CounterWatch.Json.Number

/-!
# Reading JSON

A reader of JSON texts. It takes exactly the values of the standard, with blanks around every
token, and nothing after the value. Nesting is not limited.
-/

namespace CounterWatch

namespace Json

/-- Whether a character may stand between tokens. -/
def isBlank (c : Char) : Bool := c = ' ' || c = '\t' || c = '\n' || c = '\r'

/-- A text without the blanks at its start. -/
def skipBlank (s : List Char) : List Char := s.dropWhile isBlank

/-- What four digits in base sixteen stand for. -/
def unit? (a b c d : Char) : Option Nat := Numeral.value? 16 [a, b, c, d]

/-- The character that a letter after a backslash stands for. -/
def escaped? (c : Char) : Option Char :=
  match c with
  | '"' => some '"'
  | '\\' => some '\\'
  | '/' => some '/'
  | 'b' => some '\x08'
  | 'f' => some '\x0c'
  | 'n' => some '\n'
  | 'r' => some '\r'
  | 't' => some '\t'
  | _ => none

/-- What is read of a string: its characters, or `none` if it holds half of a surrogate pair. -/
abbrev StringContent : Type := Option (List Char)

/-- A character before the rest of a string. -/
def StringContent.cons (c : Char) : StringContent × List Char → StringContent × List Char
  | (content, rest) => (content.map (c :: ·), rest)

/-- The rest of a string from behind its opening quote on, and what follows the string. A pair of
escaped surrogates is one character. -/
def stringRest : List Char → Option (StringContent × List Char)
  | [] => none
  | '"' :: rest => some (some [], rest)
  | '\\' :: 'u' :: a :: b :: c :: d :: '\\' :: 'u' :: e :: f :: g :: h :: rest => do
    let unit ← unit? a b c d
    if unit < 0xd800 ∨ 0xe000 ≤ unit then
      (stringRest ('\\' :: 'u' :: e :: f :: g :: h :: rest)).map
        (StringContent.cons (Char.ofNat unit))
    else
      let low ← unit? e f g h
      if unit < 0xdc00 ∧ 0xdc00 ≤ low ∧ low < 0xe000 then
        (stringRest rest).map
          (StringContent.cons (Char.ofNat (0x10000 + (unit - 0xd800) * 1024 + (low - 0xdc00))))
      else
        (stringRest ('\\' :: 'u' :: e :: f :: g :: h :: rest)).map fun r => (none, r.2)
  | '\\' :: 'u' :: a :: b :: c :: d :: rest => do
    let unit ← unit? a b c d
    let r ← stringRest rest
    if unit < 0xd800 ∨ 0xe000 ≤ unit then return StringContent.cons (Char.ofNat unit) r
    else return (none, r.2)
  | '\\' :: c :: rest => do
    let c ← escaped? c
    (stringRest rest).map (StringContent.cons c)
  | c :: rest =>
    if c.toNat < 32 ∨ c = '\\' then none else (stringRest rest).map (StringContent.cons c)

/-- Whether a character may stand in a number. -/
def isNumeralChar (c : Char) : Bool :=
  Numeral.isDigit c || c = '-' || c = '+' || c = '.' || c = 'e' || c = 'E'

/-- A string as a value. -/
def ofContent : StringContent → Json
  | some text => .string (String.ofList text)
  | none => .broken

/-- The fields of an object, or `none` if one of their names holds half of a surrogate pair. -/
abbrev ObjectContent : Type := Option (List (String × Json))

/-- A field before the other fields of an object. -/
def ObjectContent.cons (name : StringContent) (j : Json) (fields : ObjectContent) : ObjectContent :=
  return (String.ofList (← name), j) :: (← fields)

/-- An object as a value. -/
def ofFields : ObjectContent → Json
  | some fields => .object fields
  | none => .broken

mutual

/-- The value at the start of a text and what follows it. The first argument bounds the count of
tokens that can still be read. -/
def value : Nat → List Char → Option (Json × List Char)
  | 0, _ => none
  | fuel + 1, s =>
    match skipBlank s with
    | 'n' :: 'u' :: 'l' :: 'l' :: rest => some (.null, rest)
    | 't' :: 'r' :: 'u' :: 'e' :: rest => some (.bool true, rest)
    | 'f' :: 'a' :: 'l' :: 's' :: 'e' :: rest => some (.bool false, rest)
    | '"' :: rest => (stringRest rest).map fun (content, rest) => (ofContent content, rest)
    | '[' :: rest =>
      match skipBlank rest with
      | ']' :: rest => some (.array [], rest)
      | rest => (items fuel rest).map fun (js, rest) => (.array js, rest)
    | '\x7b' :: rest =>
      match skipBlank rest with
      | '\x7d' :: rest => some (.object [], rest)
      | rest => (fields fuel rest).map fun (fs, rest) => (ofFields fs, rest)
    | s =>
      match numeral? (s.takeWhile isNumeralChar) with
      | some (_, []) => some (.number (s.takeWhile isNumeralChar), s.dropWhile isNumeralChar)
      | _ => none

/-- One or more items of an array, with its end. -/
def items : Nat → List Char → Option (List Json × List Char)
  | 0, _ => none
  | fuel + 1, s => do
    let (j, rest) ← value fuel s
    match skipBlank rest with
    | ']' :: rest => return ([j], rest)
    | ',' :: rest =>
      let (js, rest) ← items fuel rest
      return (j :: js, rest)
    | _ => none

/-- One or more fields of an object, with its end. -/
def fields : Nat → List Char → Option (ObjectContent × List Char)
  | 0, _ => none
  | fuel + 1, s => do
    let rest ← match skipBlank s with
      | '"' :: rest => some rest
      | _ => none
    let (name, rest) ← stringRest rest
    let rest ← match skipBlank rest with
      | ':' :: rest => some rest
      | _ => none
    let (j, rest) ← value fuel rest
    match skipBlank rest with
    | '\x7d' :: rest => return (ObjectContent.cons name j (some []), rest)
    | ',' :: rest =>
      let (fs, rest) ← fields fuel rest
      return (ObjectContent.cons name j fs, rest)
    | _ => none

end

/-- The value that a text stands for. -/
def parse? (s : String) : Option Json := do
  let chars := s.toList
  let (j, rest) ← value (chars.length + 1) chars
  if (skipBlank rest).isEmpty then some j else none

end Json

end CounterWatch
