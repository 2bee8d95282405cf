import Mathlib
import CounterWatch.FileTree

/-!
# Files that stay where they are

A file is opened, added to and written over through a path, time after time. Each time the path leads
to the same place, since no directory goes away when a file is made or changed.

* `FileTree.Keeps` says that all directories of one tree are there in another. What a path leads to by
  way of directories it leads to in the other tree as well (`Keeps.target`).
* `FileTree.keeps_put` says that a file that is put in a directory takes no directory away.
* `FileTree.Holds` says that a path leads to a file, and what is in it. A path that was opened is of
  this kind (`holds_of_openFile`), and it stays so when the content changes (`Holds.put`).
* `FileTree.holds_of_write` says that a text is where it was written, the directories on the way being
  made before (`isDirectory_root_makeParents`).
-/

namespace CounterWatch

/-- Entries that are left out for their names are not found, and all others are found as before. -/
theorem lookup_filter {β : Type} (keep : String → Bool) (entries : List (String × β)) (key : String) :
    (entries.filter fun entry => keep entry.1).lookup key
      = if keep key = true then entries.lookup key else none := by
  induction entries with
  | nil => simp
  | cons entry entries ih =>
    obtain ⟨name, value⟩ := entry
    by_cases same : key = name
    · subst same
      by_cases kept : keep key = true
      · simp [kept]
      · rw [if_neg kept] at ih
        simp [kept, ih]
    · have other : (key == name) = false := by simpa using same
      rw [List.lookup_cons, other, ← ih, List.filter_cons]
      split
      · rw [List.lookup_cons, other]
      · rfl

namespace FileTree

/-! ## Directories -/

variable {t u : FileTree} {path : String} {base : Place} {name content : String}

theorem isDirectory_iff {place : Place} :
    t.isDirectory place = true ↔ ∃ entries, t.find? place = some (.directory entries) := by
  unfold isDirectory
  split <;> simp_all

theorem find?_append (t : FileTree) (first later : Place) :
    t.find? (first ++ later) = (t.find? first).bind (·.find? later) := by
  induction first generalizing t with
  | nil => simp [find?]
  | cons name first ih =>
    cases t with
    | directory entries =>
      simp only [List.cons_append, find?]
      cases entries.lookup name with
      | none => rfl
      | some inner => exact ih inner
    | file | socket => rfl

/-- What the way to a directory leads through is a directory. -/
theorem isDirectory_of_append {place later : Place} (h : t.isDirectory (place ++ later) = true) :
    t.isDirectory place = true := by
  cases later with
  | nil => simpa using h
  | cons name later =>
    obtain ⟨entries, there⟩ := isDirectory_iff.1 h
    rw [find?_append, Option.bind_eq_some_iff] at there
    obtain ⟨inner, found, there⟩ := there
    cases inner with
    | directory entries => exact isDirectory_iff.2 ⟨entries, found⟩
    | file | socket => cases there

theorem isDirectory_dropLast {place : Place} (h : t.isDirectory place = true) :
    t.isDirectory place.dropLast = true := by
  cases place using List.reverseRecOn with
  | nil => exact h
  | append_singleton outer last =>
    rw [List.dropLast_concat]
    exact isDirectory_of_append h

/-! ## Paths in two trees -/

/-- All directories of a tree are directories of another. -/
def Keeps (t u : FileTree) : Prop := ∀ place, t.isDirectory place = true → u.isDirectory place = true

/-- A step from a directory leads to a directory. -/
theorem isDirectory_step {place next : Place} (here : t.isDirectory place = true)
    (h : t.step place name = .ok next) : t.isDirectory next = true := by
  unfold step at h
  split_ifs at h with same up long
  · obtain rfl := Except.ok.inj h
    exact here
  · obtain rfl := Except.ok.inj h
    exact isDirectory_dropLast here
  · split at h
    case h_1 entries found =>
      obtain rfl := Except.ok.inj h
      exact isDirectory_iff.2 ⟨entries, found⟩
    all_goals cases h

theorem isDirectory_foldlM {names : List String} {place last : Place}
    (here : t.isDirectory place = true) (h : names.foldlM t.step place = .ok last) :
    t.isDirectory last = true := by
  induction names generalizing place with
  | nil =>
    obtain rfl := Except.ok.inj h
    exact here
  | cons name names ih =>
    rw [List.foldlM_cons] at h
    cases first : t.step place name with
    | error e =>
      rw [first] at h
      cases h
    | ok next =>
      rw [first] at h
      exact ih (isDirectory_step here first) h

/-- A name leads from a directory into a directory. -/
theorem isDirectory_target (root : t.isDirectory [] = true)
    (h : t.target path = .ok (.entry base name)) : t.isDirectory base = true := by
  unfold target at h
  split_ifs at h
  unfold targetOf at h
  split at h
  · cases h
  case h_2 last _ =>
    cases way : (names path).dropLast.foldlM t.step [] with
    | error e =>
      rw [way] at h
      cases h
    | ok place =>
      rw [way] at h
      have there := isDirectory_foldlM root way
      simp only [bind, Except.bind, pure, Except.pure, throw, throwThe, MonadExceptOf.throw] at h
      split_ifs at h
      · cases h
      · cases h
      · cases h
        exact there

namespace Keeps

variable (keeps : t.Keeps u)

include keeps

theorem step {place next : Place} (h : t.step place name = .ok next) :
    u.step place name = .ok next := by
  unfold FileTree.step at h ⊢
  split_ifs at h ⊢ with same up long
  · exact h
  · exact h
  · split at h
    case h_1 entries found =>
      obtain ⟨entries', found'⟩ := isDirectory_iff.1 (keeps _ (isDirectory_iff.2 ⟨entries, found⟩))
      rw [found']
      exact h
    all_goals cases h

theorem foldlM {names : List String} {place last : Place}
    (h : names.foldlM t.step place = .ok last) : names.foldlM u.step place = .ok last := by
  induction names generalizing place with
  | nil => exact h
  | cons name names ih =>
    rw [List.foldlM_cons] at h ⊢
    cases first : t.step place name with
    | error e =>
      rw [first] at h
      cases h
    | ok next =>
      rw [first] at h
      rw [keeps.step first]
      exact ih h

/-- What a path leads to it leads to in a tree that has all the directories. -/
theorem target {target : Target} (h : t.target path = .ok target) : u.target path = .ok target := by
  unfold FileTree.target at h ⊢
  split_ifs at h ⊢
  unfold targetOf at h ⊢
  split at h
  · exact h
  case h_2 last _ =>
    cases way : (names path).dropLast.foldlM t.step [] with
    | error e =>
      rw [way] at h
      cases h
    | ok place =>
      rw [way] at h
      rw [keeps.foldlM way]
      exact h

end Keeps

/-- An entry that is not replaced is found as before. -/
theorem lookup_map_of_ne (f : FileTree → FileTree) {key name : String} (other : key ≠ name)
    (entries : List (String × FileTree)) :
    (entries.map fun entry => if entry.1 = name then (name, f entry.2) else entry).lookup key =
      entries.lookup key := by
  induction entries with
  | nil => rfl
  | cons entry rest ih =>
    obtain ⟨first, t⟩ := entry
    have different : (key == name) = false := by simpa using other
    by_cases same : first = name
    · simp [List.lookup_cons, same, different, ih]
    · simp [List.lookup_cons, same, ih]

/-- What does not lead through the name of an update is found as before. -/
theorem find?_update_of_ne (new : Option FileTree) {entries : List (String × FileTree)}
    {first : String} (other : first ≠ name) (later : Place) :
    (update new (.directory entries) [name]).find? (first :: later)
      = (directory entries).find? (first :: later) := by
  have kept := lookup_filter (fun key => decide (key ≠ name)) entries first
  rw [if_pos (by simpa using other)] at kept
  have different : (first == name) = false := by simpa using other
  cases new with
  | none =>
    show find? (.directory (entries.filter fun entry => entry.1 ≠ name)) _ = _
    rw [find?, kept, find?]
  | some x =>
    show find? (.directory ((name, x) :: entries.filter fun entry => entry.1 ≠ name)) _ = _
    rw [find?, List.lookup_cons, different, kept, find?]

/-- What is put further inside is put in one entry. -/
theorem put_cons (entries : List (String × FileTree)) (outer : String) (base : Place)
    (name : String) (new : FileTree) :
    (directory entries).put (outer :: base ++ [name]) new = .directory (entries.map fun entry =>
      if entry.1 = outer then (outer, entry.2.put (base ++ [name]) new) else entry) := by
  obtain ⟨first, others, way⟩ : ∃ first others, base ++ [name] = first :: others := by
    cases base <;> simp
  simp only [put, List.cons_append, way, update]

/-- A file takes no directory away, if none stands where it is put. -/
theorem keeps_put (free : t.isDirectory (base ++ [name]) = false) (content : String) :
    t.Keeps (t.put (base ++ [name]) (.file content)) := by
  intro place there
  induction base generalizing t place with
  | nil =>
    cases t with
    | file | socket => exact there
    | directory entries =>
      cases place with
      | nil => rfl
      | cons first later =>
        have other : first ≠ name := by
          rintro rfl
          have inside : (directory entries).isDirectory [first] = true :=
            isDirectory_of_append
              (show (directory entries).isDirectory ([first] ++ later) = true from there)
          rw [List.nil_append, inside] at free
          cases free
        obtain ⟨found, same⟩ := isDirectory_iff.1 there
        exact isDirectory_iff.2 ⟨found, (find?_update_of_ne _ other later).trans same⟩
  | cons outer base ih =>
    cases t with
    | file | socket => exact there
    | directory entries =>
      rw [put_cons]
      cases place with
      | nil => rfl
      | cons head later =>
        simp only [isDirectory, find?, List.cons_append] at there free ⊢
        by_cases same : head = outer
        · subst same
          rw [lookup_map_replaced (·.put (base ++ [name]) (.file content))]
          cases found : entries.lookup head with
          | none => simp [found] at there
          | some inner =>
            simp only [found] at there free
            exact ih free later there
        · rw [lookup_map_of_ne (·.put (base ++ [name]) (.file content)) same]
          exact there

/-! ## Files -/

/-- A path leads to a file in a directory, and the file has a content. -/
structure Holds (t : FileTree) (path : String) (base : Place) (name content : String) : Prop where
  target : t.target path = .ok (.entry base name)
  noSlash : endsInSlash path = false
  inside : t.isDirectory base = true
  there : t.find? (base ++ [name]) = some (.file content)

/-- The text in the file at a place, no text if there is no file. -/
def contentAt (t : FileTree) (place : Place) : String :=
  match t.find? place with
  | some (.file content) => content
  | _ => ""

theorem Holds.contentAt (h : t.Holds path base name content) :
    t.contentAt (base ++ [name]) = content := by
  rw [FileTree.contentAt, h.there]

theorem contentAt_of_none {place : Place} (none : t.find? place = none) : t.contentAt place = "" := by
  rw [contentAt, none]

/-- What comes of opening a file, by what its path leads to. -/
theorem run_openFile (path : String) (t : FileTree) : (openFile path).run t =
    match t.target path with
    | .error e => .error e t
    | .ok (.itself _) => .error .isADirectory t
    | .ok (.entry base name) =>
      if endsInSlash path then .error .isADirectory t
      else match t.find? (base ++ [name]) with
        | none => .ok (base ++ [name]) (t.put (base ++ [name]) (.file ""))
        | some (.file _) => .ok (base ++ [name]) t
        | some (.directory _) => .error .isADirectory t
        | some .socket => .error .isASocket t := by
  simp only [openFile, follow, EStateM.run, bind, EStateM.bind, get, getThe, MonadStateOf.get,
    EStateM.get]
  cases t.target path with
  | error e => rfl
  | ok target =>
    cases target with
    | itself place => rfl
    | entry base name =>
      simp only [pure, EStateM.pure]
      split_ifs
      · rfl
      · rw [EStateM.bind, EStateM.get]
        dsimp only
        cases t.find? (base ++ [name]) with
        | none => rfl
        | some found => cases found <;> rfl

/-- The file that a path leads to can be opened as it is. -/
theorem Holds.openFile (h : t.Holds path base name content) :
    (openFile path).run t = .ok (base ++ [name]) t := by
  rw [run_openFile, h.target]
  simp only [h.noSlash, h.there, Bool.false_eq_true, ↓reduceIte]

/-- A file keeps its place when it gets another content. -/
theorem Holds.put (h : t.Holds path base name content) (new : String) :
    (t.put (base ++ [name]) (.file new)).Holds path base name new := by
  have free : t.isDirectory (base ++ [name]) = false := by
    rw [isDirectory, h.there]
  have keeps := keeps_put free new
  exact ⟨keeps.target h.target, h.noSlash, keeps _ h.inside, find?_update h.inside name _⟩

/-- A path that was opened leads to a file, which was there before or is new and empty. -/
theorem holds_of_openFile {place : Place} (root : t.isDirectory [] = true)
    (h : (FileTree.openFile path).run t = .ok place u) :
    ∃ base name content, place = base ++ [name] ∧ u.Holds path base name content ∧
      (u = t ∨ t.find? place = none ∧ content = "") := by
  rw [run_openFile] at h
  cases target : t.target path with
  | error e =>
    rw [target] at h
    cases h
  | ok found =>
    rw [target] at h
    cases found with
    | itself place => cases h
    | entry base name =>
      have inside := isDirectory_target root target
      simp only at h
      split_ifs at h with slash
      have noSlash : endsInSlash path = false := by simpa using slash
      split at h
      case h_1 none =>
        have free : t.isDirectory (base ++ [name]) = false := by rw [isDirectory, none]
        have keeps := keeps_put free ""
        cases h
        exact ⟨base, name, "", rfl, ⟨keeps.target target, noSlash, keeps _ inside,
          find?_update inside name _⟩, .inr ⟨none, rfl⟩⟩
      case h_2 content there =>
        cases h
        exact ⟨base, name, content, rfl, ⟨target, noSlash, inside, there⟩, .inl rfl⟩
      all_goals cases h

/-! ## Changes -/

/-- A change that came through is one part after the other. -/
theorem exists_of_bind {ε σ α β : Type} {x : EStateM ε σ α} {f : α → EStateM ε σ β} {s s' : σ} {b : β}
    (h : (x >>= f).run s = .ok b s') : ∃ a s₁, x.run s = .ok a s₁ ∧ (f a).run s₁ = .ok b s' := by
  simp only [EStateM.run, bind, EStateM.bind] at h ⊢
  cases first : x s with
  | error e s₁ =>
    rw [first] at h
    cases h
  | ok a s₁ =>
    rw [first] at h
    exact ⟨a, s₁, rfl, h⟩

theorem exists_of_discard {ε σ α : Type} {x : EStateM ε σ α} {s s' : σ}
    (h : (Functor.discard x).run s = .ok () s') : ∃ a, x.run s = .ok a s' := by
  simp only [Functor.discard, Functor.mapConst, EStateM.map, EStateM.run, Function.comp] at h ⊢
  cases first : x s with
  | error e s₁ =>
    rw [first] at h
    cases h
  | ok a s₁ =>
    rw [first] at h
    cases h
    exact ⟨a, rfl⟩

theorem run_of_adaptExcept {ε ε' σ α : Type} {x : EStateM ε σ α} {f : ε → ε'} {s s' : σ} {a : α}
    (h : (EStateM.adaptExcept f x).run s = .ok a s') : x.run s = .ok a s' := by
  simp only [EStateM.adaptExcept, EStateM.run] at h ⊢
  cases done : x s with
  | error e s₁ =>
    rw [done] at h
    cases h
  | ok a s₁ =>
    rw [done] at h
    cases h
    rfl

theorem isDirectory_root_put (root : t.isDirectory [] = true) (base : Place) (name : String)
    (new : FileTree) : (t.put (base ++ [name]) new).isDirectory [] = true := by
  cases t with
  | file | socket => cases root
  | directory entries =>
    cases base with
    | nil => rfl
    | cons outer base =>
      rw [put_cons]
      rfl

theorem isDirectory_root_enter {place next : Place} (root : t.isDirectory [] = true)
    (h : (enter place name).run t = .ok next u) : u.isDirectory [] = true := by
  obtain ⟨_, _, ⟨⟩, h⟩ := exists_of_bind h
  cases step : t.step place name with
  | ok next =>
    rw [step] at h
    cases h
    exact root
  | error e =>
    rw [step] at h
    cases e with
    | notFound =>
      cases h
      exact isDirectory_root_put root place name _
    | _ => cases h

theorem isDirectory_root_foldlM {names : List String} {place last : Place}
    (root : t.isDirectory [] = true) (h : (names.foldlM enter place).run t = .ok last u) :
    u.isDirectory [] = true := by
  induction names generalizing t place with
  | nil =>
    cases h
    exact root
  | cons name names ih =>
    rw [List.foldlM_cons] at h
    obtain ⟨next, v, first, others⟩ := exists_of_bind h
    exact ih (isDirectory_root_enter root first) others

/-- Directories are made inside the root. -/
theorem isDirectory_root_makeParents (root : t.isDirectory [] = true)
    (h : (makeParents path).run t = .ok () u) : u.isDirectory [] = true := by
  obtain ⟨_, _, ⟨⟩, h⟩ := exists_of_bind h
  split at h
  · cases h
    exact root
  · obtain ⟨_, made⟩ := exists_of_discard h
    exact isDirectory_root_enter root made
  · obtain ⟨_, made⟩ := exists_of_discard h
    exact isDirectory_root_foldlM root made
  · cases h

/-- What is written is in the file that the path leads to. -/
theorem holds_of_write (root : t.isDirectory [] = true)
    (h : (write path content).run t = .ok () u) :
    ∃ base name, u.Holds path base name content := by
  obtain ⟨place, v, opened, h⟩ := exists_of_bind h
  obtain ⟨base, name, before, rfl, held, -⟩ := holds_of_openFile root opened
  cases h
  exact ⟨base, name, held.put content⟩

end FileTree

end CounterWatch
