import CounterWatch.Number.Text
import CounterWatch.Toml.Text

/-!
# Printing TOML

A document of sections: each is the header of a table with plain values under it, and an empty line
parts it from the section before.
-/

namespace CounterWatch

namespace Toml

/-- A value that stands on a line with its name. -/
inductive Plain where
  | string (text : String)
  | integer (value : Int)
  | float (value : Float)
  | bool (value : Bool)

/-- The value itself. -/
def Plain.toToml : Plain → Toml
  | .string s => .string s
  | .integer n => .integer n
  | .float x => .float x
  | .bool b => .bool b

/-- The text of a value. -/
def Plain.print : Plain → List Char
  | .string s => encode s.toList
  | .integer n => Decimal.intText n
  | .float x => Double.text .config x
  | .bool true => ['t', 'r', 'u', 'e']
  | .bool false => ['f', 'a', 'l', 's', 'e']

/-- A table of plain values. Its name and theirs are written without quotes. -/
structure Section where
  name : String
  values : List (String × Plain)

/-- The line of a value. -/
def printValue (v : String × Plain) : List Char :=
  v.1.toList ++ [' ', '=', ' '] ++ v.2.print ++ ['\n']

/-- The lines of a section. -/
def Section.print (s : Section) : List Char :=
  '[' :: s.name.toList ++ [']', '\n'] ++ s.values.flatMap printValue

/-- The text of a document. -/
def print (sections : List Section) : List Char :=
  List.intercalate ['\n'] (sections.map Section.print)

end Toml

end CounterWatch
