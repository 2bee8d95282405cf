import CounterWatch.Number.Numeral
import CounterWatch.Toml

/-!
# TOML strings

A string has four forms: basic, in double quotes and with escapes, or literal, in single quotes and
as it stands; and each on one line or, with its quotes tripled, over several. A reader of a string
starts behind its opening quotes and gives the content with what follows the closing quotes. Line
ends are single line feeds by the time a string is read.

* `Toml.text?` reads a string of any form.
* `Toml.encode` writes a string in the first form that needs no escape.
-/

namespace CounterWatch

namespace Toml

/-- Whether a character may stand as it is in a string on one line. -/
def isPlain (c : Char) : Bool := c = '\t' || (32 ≤ c.toNat && c.toNat ≠ 127)

/-- Whether a character is a space or a tab. -/
def isBlank (c : Char) : Bool := c = ' ' || c = '\t'

/-- Whether a character is a space, a tab or the end of a line. -/
def isGap (c : Char) : Bool := isBlank c || c = '\n'

/-! ## Reading -/

/-- The character with a number. -/
def codePoint? (n : Nat) : Option Char :=
  if h : n.isValidChar then some (Char.ofNatAux n h) else none

/-- The character that an escape stands for, and what follows it. The escape is given from behind
its backslash on. -/
def escape? : List Char → Option (Char × List Char)
  | 'b' :: rest => some ('\x08', rest)
  | 't' :: rest => some ('\t', rest)
  | 'n' :: rest => some ('\n', rest)
  | 'f' :: rest => some ('\x0c', rest)
  | 'r' :: rest => some ('\r', rest)
  | '"' :: rest => some ('"', rest)
  | '\\' :: rest => some ('\\', rest)
  | 'u' :: a :: b :: c :: d :: rest => do
    let char ← codePoint? (← Numeral.value? 16 [a, b, c, d])
    return (char, rest)
  | 'U' :: a :: b :: c :: d :: e :: f :: g :: h :: rest => do
    let char ← codePoint? (← Numeral.value? 16 [a, b, c, d, e, f, g, h])
    return (char, rest)
  | _ => none

theorem length_escape? {s rest : List Char} {c : Char} (h : escape? s = some (c, rest)) :
    rest.length < s.length := by
  unfold escape? at h
  split at h
  case h_8 =>
    simp only [Option.bind_eq_bind, Option.bind_eq_some_iff, Option.pure_def, Option.some.injEq,
      Prod.mk.injEq] at h
    obtain ⟨_, _, _, _, _, rfl⟩ := h
    simp only [List.length_cons]
    omega
  case h_9 =>
    simp only [Option.bind_eq_bind, Option.bind_eq_some_iff, Option.pure_def, Option.some.injEq,
      Prod.mk.injEq] at h
    obtain ⟨_, _, _, _, _, rfl⟩ := h
    simp only [List.length_cons]
    omega
  all_goals simp_all

theorem length_dropWhile_le (p : Char → Bool) (s : List Char) :
    (s.dropWhile p).length ≤ s.length := (s.dropWhile_sublist p).length_le

/-- A character before the content of a string. -/
def before (c : Char) : List Char × List Char → List Char × List Char
  | (content, rest) => (c :: content, rest)

/-- The rest of a basic string on one line. -/
def basicRest : List Char → Option (List Char × List Char)
  | [] => none
  | '"' :: rest => some ([], rest)
  | '\\' :: rest =>
    match h : escape? rest with
    | none => none
    | some (c, rest') =>
      have := length_escape? h
      (basicRest rest').map (before c)
  | c :: rest => if isPlain c then (basicRest rest).map (before c) else none
termination_by s => s.length
decreasing_by all_goals simp only [List.length_cons]; omega

/-- The rest of a literal string on one line. -/
def literalRest : List Char → Option (List Char × List Char)
  | [] => none
  | '\'' :: rest => some ([], rest)
  | c :: rest => if isPlain c then (literalRest rest).map (before c) else none

/-- The end of a string over several lines that closes with three quotes: one or two more quotes
before them belong to the string. -/
def closing? (quote : Char) : List Char → Option (List Char × List Char)
  | a :: b :: c :: rest =>
    if a = quote ∧ b = quote ∧ c = quote then
      match rest with
      | d :: e :: rest' =>
        if d = quote then
          if e = quote then some ([quote, quote], rest') else some ([quote], e :: rest')
        else some ([], rest)
      | [d] => if d = quote then some ([quote], []) else some ([], rest)
      | [] => some ([], [])
    else none
  | _ => none

/-- The rest of a basic string over several lines. A backslash at the end of a line takes away the
line's end and all blank space after it. -/
def basicLinesRest (s : List Char) : Option (List Char × List Char) :=
  match closing? '"' s with
  | some r => some r
  | none =>
    match s with
    | [] => none
    | '\\' :: rest =>
      match rest.dropWhile isBlank with
      | '\n' :: _ =>
        have := length_dropWhile_le isGap rest
        basicLinesRest (rest.dropWhile isGap)
      | _ =>
        match h : escape? rest with
        | none => none
        | some (c, rest') =>
          have := length_escape? h
          (basicLinesRest rest').map (before c)
    | c :: rest => if isPlain c || c = '\n' then (basicLinesRest rest).map (before c) else none
termination_by s.length
decreasing_by all_goals simp only [List.length_cons]; omega

/-- The rest of a literal string over several lines. -/
def literalLinesRest (s : List Char) : Option (List Char × List Char) :=
  match closing? '\'' s with
  | some r => some r
  | none =>
    match s with
    | [] => none
    | c :: rest => if isPlain c || c = '\n' then (literalLinesRest rest).map (before c) else none

/-- A text without the line end that it may start with. -/
def dropLineEnd : List Char → List Char
  | '\n' :: rest => rest
  | s => s

/-- The string on one line at the start of a text, with what follows it. -/
def lineText? : List Char → Option (List Char × List Char)
  | '"' :: rest => basicRest rest
  | '\'' :: rest => literalRest rest
  | _ => none

/-- The string at the start of a text, with what follows it. -/
def text? : List Char → Option (List Char × List Char)
  | '"' :: '"' :: '"' :: rest => basicLinesRest (dropLineEnd rest)
  | '\'' :: '\'' :: '\'' :: rest => literalLinesRest (dropLineEnd rest)
  | s => lineText? s

/-! ## Writing -/

/-- The forms in which a string is written. -/
inductive TextForm where
  | basic
  | literal
  | basicLines
  | literalLines
  deriving DecidableEq, Repr

/-- The greatest count of one character in a row, `count` of them being passed already. -/
def longestRun (quote : Char) (count : Nat) : List Char → Nat
  | [] => count
  | c :: rest =>
    if c = quote then longestRun quote (count + 1) rest else max count (longestRun quote 0 rest)

/-- Whether a character can only be written by an escape. -/
def needsEscape (c : Char) : Bool := !isPlain c && c ≠ '\n'

/-- The form in which a string is written. -/
def formOf (s : List Char) : TextForm :=
  let escapes := s.any needsEscape
  if !escapes && !s.contains '\\' && !s.contains '"' && !s.contains '\n' then .basic
  else if !escapes && !s.contains '\'' && !s.contains '\n' then .literal
  else if !escapes && !s.contains '\\' && longestRun '"' 0 s ≤ 2 then .basicLines
  else if !escapes && longestRun '\'' 0 s ≤ 2 then .literalLines
  else if s.contains '\n' then .basicLines
  else .basic

/-- A digit in base sixteen, in upper case. -/
def upperHexDigit (n : Nat) : Char := if n < 10 then Char.ofNat (48 + n) else Char.ofNat (55 + n)

/-- A character in a basic string, all but the double quote and the line end. -/
def escaped (c : Char) : List Char :=
  if c = '\\' then ['\\', '\\']
  else if c = '\x08' then ['\\', 'b']
  else if c = '\t' then ['\\', 't']
  else if c = '\x0c' then ['\\', 'f']
  else if c = '\r' then ['\\', 'r']
  else if isPlain c then [c]
  else ['\\', 'u', '0', '0', upperHexDigit (c.toNat / 16), upperHexDigit (c.toNat % 16)]

/-- A character in a basic string on one line. -/
def basicChar (c : Char) : List Char :=
  if c = '"' then ['\\', '"'] else if c = '\n' then ['\\', 'n'] else escaped c

/-- The content of a basic string over several lines, `run` quotes standing just before it. Every
third quote in a row is escaped. -/
def basicLines (run : Nat) : List Char → List Char
  | [] => []
  | c :: rest =>
    if c = '"' then
      if run = 2 then '\\' :: '"' :: basicLines 0 rest else '"' :: basicLines (run + 1) rest
    else if c = '\n' then '\n' :: basicLines 0 rest
    else escaped c ++ basicLines 0 rest

/-- The line end that a string over several lines starts with, if it has any other. -/
def leadingLineEnd (s : List Char) : List Char := if s.contains '\n' then ['\n'] else []

/-- A string as it is written. -/
def encode (s : List Char) : List Char :=
  match formOf s with
  | .basic => '"' :: (s.flatMap basicChar ++ ['"'])
  | .literal => '\'' :: (s ++ ['\''])
  | .basicLines => ['"', '"', '"'] ++ leadingLineEnd s ++ basicLines 0 s ++ ['"', '"', '"']
  | .literalLines => ['\'', '\'', '\''] ++ leadingLineEnd s ++ s ++ ['\'', '\'', '\'']

end Toml

end CounterWatch
