import CounterWatch.Toml

/-!
# Building up a document

The statements of a document in their order, and the table that they build up. A table is declared
once: a header can complete a table that other headers have only implied, a dotted key can add to a
table that dotted keys have made, and nothing can be given twice.

* `Toml.assemble?` gives the entries of a document, `none` if two of its statements do not go
  together.
-/

namespace CounterWatch

namespace Toml

/-- A line, or several, of a document. -/
inductive Statement where
  /-- The header of a table. -/
  | table (path : Path)
  /-- The header of one more table in a list of tables. -/
  | item (path : Path)
  /-- A value for a key in the table of the last header. -/
  | pair (key : Path) (value : Toml)

/-- The entries with a new value for a name that has one. -/
def replace (name : String) (value : Toml) (entries : Entries) : Entries :=
  entries.map fun e => if e.1 = name then (name, value) else e

/-- Whether a path can lead through a table: a header's path through all that are not between
braces, a dotted key's only through those that have no header. -/
def TableKind.admits : (through : TableKind) → TableKind → Bool
  | .dotted, kind => kind = .implied || kind = .dotted
  | _, kind => kind ≠ .inline

/-- The entries with what `f` makes of the table that a path leads to, starting from a table of a
given kind. A table that is missing on the way is made, and its kind is `through`. In a list of
tables the way leads into the last one. -/
def within (through : TableKind) (f : TableKind → Entries → Option Entries) :
    Path → TableKind → Entries → Option Entries
  | [], kind, entries => f kind entries
  | name :: path, _, entries =>
    match entries.lookup name with
    | none => do
      let inner ← within through f path through []
      return entries ++ [(name, .table through inner)]
    | some (.table kind inner) =>
      if through.admits kind then do
        let inner ← within through f path kind inner
        return replace name (.table kind inner) entries
      else none
    | some (.tables items) => do
      let last ← items.getLast?
      let last ← within through f path .header last
      return replace name (.tables (items.dropLast ++ [last])) entries
    | some _ => none

/-- The entries with one more, if its name is free. -/
def insertName (name : String) (value : Toml) (entries : Entries) : Option Entries :=
  if (entries.lookup name).isSome then none else some (entries ++ [(name, value)])

/-- The entries with a value for a key. A dotted key ends in a table that dotted keys have made. -/
def insert (key : Path) (value : Toml) (entries : Entries) : Option Entries := do
  let name ← key.getLast?
  let path := key.dropLast
  within .dotted (fun kind entries =>
    if path = [] ∨ kind = .dotted then insertName name value entries else none)
    path .header entries

/-- The entries with the table of a header. -/
def declare (name : String) (entries : Entries) : Option Entries :=
  match entries.lookup name with
  | none => some (entries ++ [(name, .table .header [])])
  | some (.table .implied inner) => some (replace name (.table .header inner) entries)
  | some _ => none

/-- The entries with one more table in a list of tables. -/
def append (name : String) (entries : Entries) : Option Entries :=
  match entries.lookup name with
  | none => some (entries ++ [(name, .tables [[]])])
  | some (.tables items) => some (replace name (.tables (items ++ [[]])) entries)
  | some _ => none

/-- The path of the last header, and the entries of the document, after one more statement. -/
def extend? : Path × Entries → Statement → Option (Path × Entries)
  | (_, entries), .table path => do
    let name ← path.getLast?
    let entries ← within .implied (fun _ => declare name) path.dropLast .header entries
    return (path, entries)
  | (_, entries), .item path => do
    let name ← path.getLast?
    let entries ← within .implied (fun _ => append name) path.dropLast .header entries
    return (path, entries)
  | (current, entries), .pair key value => do
    let entries ← within .implied (fun _ => insert key value) current .header entries
    return (current, entries)

/-- The entries that the statements of a document build up. -/
def assemble? (statements : List Statement) : Option Entries :=
  (statements.foldlM extend? ([], [])).map (·.2)

end Toml

end CounterWatch
