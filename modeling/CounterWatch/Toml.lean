/-!
# TOML values

Values as a document gives them. A table remembers how it came about, since that decides whether
later lines of the document may still add to it.
-/

namespace CounterWatch

namespace Toml

/-- How a table came about. -/
inductive TableKind where
  /-- Written between braces; it is complete. -/
  | inline
  /-- Declared by a header of its own. -/
  | header
  /-- Needed by the header of a table further inside. -/
  | implied
  /-- Needed by a dotted key. -/
  | dotted
  deriving DecidableEq, Repr

end Toml

/-- A value of a document. -/
inductive Toml where
  | string (text : String)
  | integer (value : Int)
  | float (value : Float)
  | bool (value : Bool)
  /-- A date, a time, or both. Which one is not kept. -/
  | datetime
  | array (items : List Toml)
  | table (kind : Toml.TableKind) (entries : List (String × Toml))
  /-- The tables that headers in double brackets have given so far. -/
  | tables (items : List (List (String × Toml)))
  deriving Inhabited

namespace Toml

/-- The entries of a table, in the order in which they came. -/
abbrev Entries : Type := List (String × Toml)

/-- The names on the way to a value, from the outermost table on. -/
abbrev Path : Type := List String

end Toml

end CounterWatch
