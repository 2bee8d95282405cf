/-!
# JSON values

Values as they stand in a text: a number keeps its characters and an object keeps its fields in
order, also those with the same name. What a number or a repeated field means is decided by the
reader of the value.
-/

namespace CounterWatch

/-- A JSON value. -/
inductive Json where
  | null
  | bool (b : Bool)
  /-- A number, by the characters it is written with. -/
  | number (text : List Char)
  | string (text : String)
  /-- A string with half of a surrogate pair, or an object with such a name in it. It can be passed
  over but stands for nothing. -/
  | broken
  | array (items : List Json)
  | object (fields : List (String × Json))
  deriving Repr, Inhabited

namespace Json

/-- The first field with a name. -/
def field? (name : String) : Json → Option Json
  | .object fields => fields.lookup name
  | _ => none

/-- The text of a string. -/
def string? : Json → Option String
  | .string s => some s
  | _ => none

/-- A truth value. -/
def bool? : Json → Option Bool
  | .bool b => some b
  | _ => none

/-- The items of an array. -/
def items? : Json → Option (List Json)
  | .array items => some items
  | _ => none

end Json

end CounterWatch
