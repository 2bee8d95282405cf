import CounterWatch.PathError

/-!
# Trees of files

The files that the program reads, writes and removes, as a tree of directories. There are no links,
and a path that is not absolute starts at the root as well, so that a place is the list of the
names that lead to it from there.

* `FileTree.find?` is what stands at a place; `FileTree.put` and `FileTree.erase` change it, and
  `find?_update` says that the change is what is found.
* `FileTree.target` is what a path leads to. It is followed name by name: `..` leads out of a
  directory only if that directory is there.
* `FileTree.remove`, `FileTree.makeParents`, `FileTree.openFile`, `FileTree.write` and
  `FileTree.openSocket` are what is done through paths. A change that fails keeps what it has
  changed up to there.
-/

namespace CounterWatch

/-- What stands at a place, with all that is under it. -/
inductive FileTree where
  | directory (entries : List (String × FileTree))
  | file (content : String)
  | socket

namespace FileTree

/-! ## Places -/

/-- A place in a tree: the names that lead to it from the root. -/
abbrev Place : Type := List String

/-- What stands at a place. -/
def find? : FileTree → Place → Option FileTree
  | t, [] => some t
  | .directory entries, name :: place =>
    match entries.lookup name with
    | some t => t.find? place
    | none => none
  | _, _ :: _ => none

/-- Whether a directory stands at a place. -/
def isDirectory (t : FileTree) (place : Place) : Bool :=
  match t.find? place with
  | some (.directory _) => true
  | _ => false

/-- The tree with something else at a place, or nothing. Nothing is changed if there is no directory
that the place is in. -/
def update (new : Option FileTree) : FileTree → Place → FileTree
  | .directory entries, [name] =>
    let others := entries.filter fun entry => entry.1 ≠ name
    .directory ((new.map fun t => (name, t)).toList ++ others)
  | .directory entries, name :: place =>
    .directory (entries.map fun entry =>
      if entry.1 = name then (name, update new entry.2 place) else entry)
  | t, _ => t

/-- An entry that is replaced is found in its new form. -/
theorem lookup_map_replaced (f : FileTree → FileTree) (name : String)
    (entries : List (String × FileTree)) :
    (entries.map fun entry => if entry.1 = name then (name, f entry.2) else entry).lookup name =
      (entries.lookup name).map f := by
  induction entries with
  | nil => rfl
  | cons entry rest ih =>
    obtain ⟨key, t⟩ := entry
    by_cases same : key = name
    · simp [same]
    · have other : (name == key) = false := by simpa using Ne.symm same
      simp [List.lookup_cons, same, other, ih]

/-- **What is put at a place is found there**, if its directory is there; and nothing is found where
nothing is put. -/
theorem find?_update {t : FileTree} {base : Place} (h : t.isDirectory base) (name : String)
    (new : Option FileTree) : (update new t (base ++ [name])).find? (base ++ [name]) = new := by
  induction base generalizing t with
  | nil =>
    cases t with
    | directory entries =>
      have gone : (entries.filter fun entry => entry.1 ≠ name).lookup name = none := by
        rw [List.lookup_eq_none_iff]
        intro entry kept
        simpa using Ne.symm (of_decide_eq_true (List.mem_filter.1 kept).2)
      cases new with
      | none =>
        show find? (.directory (entries.filter fun entry => entry.1 ≠ name)) [name] = none
        rw [find?, gone]
      | some x => simp [update, find?]
    | file | socket => simp [isDirectory, find?] at h
  | cons outer base ih =>
    cases t with
    | directory entries =>
      obtain ⟨first, others, way⟩ : ∃ first others, base ++ [name] = first :: others := by
        cases base <;> simp
      cases found : entries.lookup outer with
      | none => simp [isDirectory, find?, found] at h
      | some inner =>
        have inside : inner.isDirectory base := by simpa [isDirectory, find?, found] using h
        have reached := ih inside
        rw [way] at reached
        have replaced := lookup_map_replaced (update new · (first :: others)) outer entries
        simp only [List.cons_append, way, update, find?, replaced, found, Option.map_some, reached]
    | file | socket => simp [isDirectory, find?] at h

/-- The tree with something at a place. -/
def put (t : FileTree) (place : Place) (new : FileTree) : FileTree := update (some new) t place

/-- The tree with nothing at a place. -/
def erase (t : FileTree) (place : Place) : FileTree := update none t place

/-- The tree with a text at the end of the file at a place, if there is a file. -/
def append (t : FileTree) (place : Place) (text : String) : FileTree :=
  match t.find? place with
  | some (.file content) => t.put place (.file (content ++ text))
  | _ => t

/-! ## Paths -/

/-- The greatest count of bytes in one name. -/
def nameLimit : Nat := 255

/-- The count of bytes that a path is shorter than. -/
def pathLimit : Nat := 4096

/-- The names on a path. -/
def names (path : String) : List String := (path.splitOn "/").filter fun name => name ≠ ""

/-- Whether a path ends in a slash, and so can only lead to a directory. -/
def endsInSlash (path : String) : Bool := path.toList.getLast? = some '/'

/-- Where a name leads from a directory; it must lead to a directory. -/
def step (t : FileTree) (place : Place) (name : String) : Except PathError Place :=
  if name = "." then .ok place
  else if name = ".." then .ok place.dropLast
  else if nameLimit < name.utf8ByteSize then .error .nameTooLong
  else match t.find? (place ++ [name]) with
    | some (.directory _) => .ok (place ++ [name])
    | some _ => .error .notADirectory
    | none => .error .notFound

/-- What a path leads to. -/
inductive Target where
  /-- A directory that is there, by a path that does not end in its name. -/
  | itself (place : Place)
  /-- What has a name in a directory, if there is something of that name. -/
  | entry (base : Place) (name : String)

/-- What some names lead to. All of them but the last lead to directories. -/
def targetOf (t : FileTree) (names : List String) : Except PathError Target :=
  match names.getLast? with
  | none => .ok (.itself [])
  | some name => do
    let base ← names.dropLast.foldlM t.step []
    if name = "." then return .itself base
    else if name = ".." then return .itself base.dropLast
    else if nameLimit < name.utf8ByteSize then throw .nameTooLong
    else return .entry base name

/-- What a path leads to. -/
def target (t : FileTree) (path : String) : Except PathError Target :=
  if '\x00' ∈ path.toList then .error .nulCharacter
  else if pathLimit ≤ path.utf8ByteSize then .error .nameTooLong
  else if path.isEmpty then .error .notFound
  else t.targetOf (names path)

/-- Whether a path leads to something. -/
def leads (t : FileTree) (path : String) : Bool :=
  match t.target path with
  | .ok (.itself _) => true
  | .ok (.entry base name) =>
    if endsInSlash path then t.isDirectory (base ++ [name])
    else (t.find? (base ++ [name])).isSome
  | .error _ => false

/-! ## Changes -/

/-- A change of the tree that can fail. -/
abbrev Change : Type → Type := EStateM PathError FileTree

/-- What a path leads to in the tree as it is. -/
def follow (path : String) : Change Target := do
  match (← get).target path with
  | .ok target => return target
  | .error error => throw error

/-- Removes the file or the socket that a path leads to. -/
def remove (path : String) : Change Unit := do
  match ← follow path with
  | .itself _ => throw .isADirectory
  | .entry base name =>
    let place := base ++ [name]
    match (← get).find? place with
    | none => throw .notFound
    | some (.directory _) => throw .isADirectory
    | some _ => if endsInSlash path then throw .notADirectory else modify (·.erase place)

/-- Steps to a name, and makes a directory there if there is nothing. -/
def enter (place : Place) (name : String) : Change Place := do
  match (← get).step place name with
  | .ok place => return place
  | .error .notFound =>
    modify (·.put (place ++ [name]) (.directory []))
    return place ++ [name]
  | .error .notADirectory => throw .alreadyExists
  | .error error => throw error

/-- Makes the directory that some names lead to, unless it is there. If one is missing on the way,
it is made as well, and so are all after it. -/
def makeDirectories (names : List String) : Change Unit := do
  match (← get).targetOf names with
  | .ok (.itself _) => return ()
  | .ok (.entry base name) => discard (enter base name)
  | .error .notFound => discard (names.foldlM enter [])
  | .error error => throw error

/-- Makes the directory that the last name on a path is in. The name of the directory itself does
not count. -/
def makeParents (path : String) : Change Unit :=
  makeDirectories ((names path).filter fun name => name ≠ ".").dropLast

/-- Opens the file that a path leads to, with nothing in it if it was not there. -/
def openFile (path : String) : Change Place := do
  match ← follow path with
  | .itself _ => throw .isADirectory
  | .entry base name =>
    if endsInSlash path then throw .isADirectory
    let place := base ++ [name]
    match (← get).find? place with
    | none =>
      modify (·.put place (.file ""))
      return place
    | some (.file _) => return place
    | some (.directory _) => throw .isADirectory
    | some .socket => throw .isASocket

/-- Makes a text the content of the file that a path leads to. -/
def write (path content : String) : Change Unit := do
  let place ← openFile path
  modify (·.put place (.file content))

/-- Opens a socket where a path leads to. -/
def openSocket (path : String) : Change Unit := do
  match ← follow path with
  | .itself _ => throw .addressInUse
  | .entry base name =>
    let place := base ++ [name]
    if ((← get).find? place).isSome then throw .addressInUse
    if endsInSlash path then throw .notFound
    modify (·.put place .socket)

end FileTree

end CounterWatch
