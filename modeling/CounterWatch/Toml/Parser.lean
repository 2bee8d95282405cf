import CounterWatch.Toml.Scalar
import CounterWatch.Toml.Table
import CounterWatch.Toml.Text

/-!
# Reading TOML

A document is a list of statements, each on lines of its own: a header, or a value for a key. The
readers here give what they have read with what follows it.

* `Toml.value` reads a value.
* `Toml.statements?` reads a document as its statements.
* `Toml.parse?` reads a document as the table that its statements build up.
-/

namespace CounterWatch

namespace Toml

/-! ## Keys -/

/-- Whether a character may stand in a name without quotes. -/
def isNameChar (c : Char) : Bool := c.isAlphanum || c = '_' || c = '-'

/-- A text without the blanks at its start. -/
def skipBlank (s : List Char) : List Char := s.dropWhile isBlank

/-- The name at the start of a text: a string on one line, or characters without quotes. -/
def name? (s : List Char) : Option (String × List Char) :=
  match lineText? s with
  | some (content, rest) => some (String.ofList content, rest)
  | none =>
    let name := s.takeWhile isNameChar
    if name.isEmpty then none else some (String.ofList name, s.dropWhile isNameChar)

/-- How deep values may be nested, and how many names a key may have. -/
def depthLimit : Nat := 80

/-- The key at the start of a text, with at most `fuel` names. A name is followed by a dot if
another one comes after it. -/
def key? : (fuel : Nat) → List Char → Option (Path × List Char)
  | 0, _ => none
  | fuel + 1, s => do
    let (name, rest) ← name? (skipBlank s)
    match skipBlank rest with
    | '.' :: rest =>
      let (names, rest) ← key? fuel rest
      return (name :: names, rest)
    | rest => return ([name], rest)

/-! ## Values -/

/-- A text from behind the comment on, if it starts with one. A comment holds no control character
but the tab. -/
def skipComment : List Char → List Char
  | '#' :: rest => rest.dropWhile isPlain
  | s => s

/-- A text without the blanks, the comments and the line ends at its start; a comment is followed by
a line end. -/
def skipLines : (fuel : Nat) → List Char → List Char
  | 0, s => s
  | fuel + 1, s =>
    match skipBlank s with
    | '\n' :: rest => skipLines fuel rest
    | '#' :: rest =>
      match skipComment ('#' :: rest) with
      | '\n' :: rest => skipLines fuel rest
      | _ => '#' :: rest
    | s => s

/-- The scalar at the start of a text. A date may be parted from its time by a space. -/
def scalarRest? (s : List Char) : Option (Toml × List Char) :=
  let run := s.takeWhile isScalarChar
  let rest := s.dropWhile isScalarChar
  match isDate run, rest with
  | true, ' ' :: more =>
    if isZonedTime (more.takeWhile isScalarChar) then
      some (.datetime, more.dropWhile isScalarChar)
    else some (.datetime, rest)
  | _, _ => (scalar? run).map (·, rest)

mutual

/-- The value at the start of a text, nested at most `depth` deep. The first argument bounds the
count of values that can still be read. -/
def value : (fuel depth : Nat) → List Char → Option (Toml × List Char)
  | 0, _, _ => none
  | fuel + 1, depth, s =>
    match s with
    | '[' :: rest =>
      if depth ≤ 1 then none
      else (items fuel (depth - 1) rest).map fun (vs, rest) => (.array vs, rest)
    | '\x7b' :: rest =>
      if depth ≤ 1 then none
      else
        match skipBlank rest with
        | '\x7d' :: rest => some (.table .inline [], rest)
        | rest => (pairs fuel (depth - 1) [] rest).map fun (es, rest) => (.table .inline es, rest)
    | _ =>
      match text? s with
      | some (content, rest) => some (.string (String.ofList content), rest)
      | none => scalarRest? s

/-- The items of an array, with its end. A comma may stand behind the last item, and items may
stand on lines of their own. -/
def items : (fuel depth : Nat) → List Char → Option (List Toml × List Char)
  | 0, _, _ => none
  | fuel + 1, depth, s =>
    match skipLines s.length s with
    | ']' :: rest => some ([], rest)
    | s => do
      let (v, rest) ← value fuel depth s
      match skipLines rest.length rest with
      | ']' :: rest => return ([v], rest)
      | ',' :: rest =>
        let (vs, rest) ← items fuel depth rest
        return (v :: vs, rest)
      | _ => none

/-- One or more values for keys, added to a table between braces, with its end. -/
def pairs : (fuel depth : Nat) → Entries → List Char → Option (Entries × List Char)
  | 0, _, _, _ => none
  | fuel + 1, depth, entries, s => do
    let (key, rest) ← key? (depthLimit - 1) s
    let rest ← match rest with
      | '=' :: rest => some rest
      | _ => none
    let (v, rest) ← value fuel depth (skipBlank rest)
    let entries ← insert key v entries
    match skipBlank rest with
    | '\x7d' :: rest => return (entries, rest)
    | ',' :: rest => pairs fuel depth entries rest
    | _ => none

end

/-! ## Documents -/

/-- What follows the end of a line: blanks and a comment may stand before it. -/
def lineEnd? (s : List Char) : Option (List Char) :=
  match skipComment (skipBlank s) with
  | [] => some []
  | '\n' :: rest => some rest
  | _ => none

/-- The statement at the start of a text, with what follows its line. -/
def statement? : List Char → Option (Statement × List Char)
  | '[' :: '[' :: rest => do
    let (path, rest) ← key? (depthLimit - 1) rest
    match rest with
    | ']' :: ']' :: rest => return (.item path, ← lineEnd? rest)
    | _ => none
  | '[' :: rest => do
    let (path, rest) ← key? (depthLimit - 1) rest
    match rest with
    | ']' :: rest => return (.table path, ← lineEnd? rest)
    | _ => none
  | s => do
    let (key, rest) ← key? (depthLimit - 1) s
    match rest with
    | '=' :: rest =>
      let (v, rest) ← value (rest.length + 1) depthLimit (skipBlank rest)
      return (.pair key v, ← lineEnd? rest)
    | _ => none

/-- The statements of a text of at most `fuel` lines. -/
def statementsOf? : (fuel : Nat) → List Char → Option (List Statement)
  | 0, _ => none
  | fuel + 1, s =>
    match skipBlank s with
    | [] => some []
    | '\n' :: rest => statementsOf? fuel rest
    | '#' :: rest => do statementsOf? fuel (← lineEnd? ('#' :: rest))
    | s => do
      let (statement, rest) ← statement? s
      let statements ← statementsOf? fuel rest
      return statement :: statements

/-- A text in which every line ends in a single line feed. -/
def unifyLineEnds : List Char → List Char
  | '\r' :: '\n' :: rest => '\n' :: unifyLineEnds rest
  | c :: rest => c :: unifyLineEnds rest
  | [] => []

/-- A text without the mark of its byte order. -/
def dropByteOrderMark : List Char → List Char
  | '\ufeff' :: rest => rest
  | s => s

/-- The statements of a document. -/
def statements? (text : List Char) : Option (List Statement) :=
  let s := unifyLineEnds (dropByteOrderMark text)
  statementsOf? (s.length + 1) s

/-- The entries of a document. -/
def parse? (text : List Char) : Option Entries := do assemble? (← statements? text)

end Toml

end CounterWatch
