import CounterWatch.Proofs.TomlScalar

/-!
# TOML documents, read back

The text of a document of sections is read as the table of those sections. So is what is left of it
when lines are taken away: any of its values, whole sections, and empty lines.

* `Toml.Line` is a part of the text that is taken away or left as a whole, and `Toml.lines` are the
  parts of a document. `Toml.flatMap_lines` says that the parts make up the text.
* `Toml.Sound` is what is asked of a document: its names need no quotes, none is given twice, and its
  values fit.
* `Toml.statements?_flatMap` reads lines in any order, one statement from each but the empty ones.
* `Toml.assemble?_sections` builds sections up from their statements.
* `Toml.Removal` is a choice of lines, and `Toml.parse?_remaining` the result.
-/

namespace CounterWatch

namespace Toml

open Numeral

/-! ## Lines -/

/-- A line of a document, or the lines of one value. Each knows the section that it belongs to. -/
inductive Line where
  /-- The empty line before a section. -/
  | gap (name : String)
  | header (name : String)
  | pair (name : String) (v : String × Plain)

namespace Line

/-- The text of the line. -/
def print : Line → List Char
  | .gap _ => ['\n']
  | .header name => '[' :: name.toList ++ [']', '\n']
  | .pair _ v => printValue v

/-- The statement that the line makes. -/
def statement : Line → Option Statement
  | .gap _ => none
  | .header name => some (.table [name])
  | .pair _ v => some (.pair [v.1] v.2.toToml)

end Line

/-- The lines of a section, with the empty line before it. -/
def Section.lines (s : Section) : List Line :=
  .gap s.name :: .header s.name :: s.values.map (.pair s.name)

/-- The lines of a document. No empty line stands before the first section. -/
def lines (sections : List Section) : List Line := (sections.flatMap Section.lines).tail

theorem print_lines (s : Section) : s.lines.flatMap Line.print = '\n' :: s.print := by
  rw [Section.lines, List.flatMap_cons, List.flatMap_cons, List.flatMap_map]
  rfl

/-- The first section stands alone, and every other has an empty line before it. -/
theorem print_cons (s : Section) (sections : List Section) :
    print (s :: sections) = s.print ++ sections.flatMap fun t => '\n' :: t.print := by
  induction sections generalizing s with
  | nil => simp [print]
  | cons t sections ih =>
    have next := ih t
    simp only [print, List.map_cons, List.flatMap_cons] at next ⊢
    rw [List.intercalate_cons_cons, next]
    simp

/-- The lines make up the text. -/
theorem flatMap_lines (sections : List Section) :
    (lines sections).flatMap Line.print = print sections := by
  cases sections with
  | nil => rfl
  | cons s sections =>
    have first : s.lines.tail.flatMap Line.print = s.print := (List.cons.inj (print_lines s)).2
    have others : (sections.flatMap Section.lines).flatMap Line.print
        = sections.flatMap fun t => '\n' :: t.print := by
      rw [List.flatMap_assoc]
      simp only [print_lines]
    have split : lines (s :: sections) = s.lines.tail ++ sections.flatMap Section.lines := rfl
    rw [split, List.flatMap_append, first, others, print_cons]

/-! ## Reading lines -/

/-- A name that needs no quotes. -/
def Bare (name : String) : Prop := name.toList ≠ [] ∧ ∀ c ∈ name.toList, isNameChar c = true

/-- Whether a line can be read back. -/
def Line.Readable : Line → Prop
  | .gap _ => True
  | .header name => Bare name
  | .pair _ v => Bare v.1 ∧ v.2.Fits

variable {name : String} {rest : List Char}

theorem Bare.exists_cons (h : Bare name) :
    ∃ c t, name.toList = c :: t ∧ isNameChar c = true := by
  obtain ⟨c, t, text⟩ := List.exists_cons_of_ne_nil h.1
  exact ⟨c, t, text, h.2 c (text ▸ List.mem_cons_self)⟩

theorem skipBlank_cons {c : Char} {s : List Char} (h : isBlank c = false) :
    skipBlank (c :: s) = c :: s := by
  rw [skipBlank, List.dropWhile_cons_of_neg (by rw [h]; exact Bool.false_ne_true)]

/-- A name without quotes is read up to where its characters end. -/
theorem name?_append (h : Bare name) (stop : ∀ c ∈ rest.head?, isNameChar c = false) :
    name? (name.toList ++ rest) = some (name, rest) := by
  obtain ⟨taken, dropped⟩ := run_append h.2 stop
  obtain ⟨c, t, text, first⟩ := h.exists_cons
  have none : lineText? (name.toList ++ rest) = none := by
    rw [text, List.cons_append, lineText?]
    · exact fun tail same => ne_of_kind first rfl (List.cons.inj same).1
    · exact fun tail same => ne_of_kind first rfl (List.cons.inj same).1
  have some : name.toList.isEmpty = false := by rw [text]; rfl
  rw [name?, none]
  simp only [taken, dropped, some, Bool.false_eq_true, ↓reduceIte, String.ofList_toList]

/-- A single name is a key, if no dot follows. -/
theorem key?_append (h : Bare name) (rest : List Char)
    (stop : ∀ c ∈ rest.head?, isNameChar c = false) (dot : ∀ tail, skipBlank rest ≠ '.' :: tail) :
    key? (depthLimit - 1) (name.toList ++ rest) = some ([name], skipBlank rest) := by
  obtain ⟨c, t, text, first⟩ := h.exists_cons
  have start : skipBlank (name.toList ++ rest) = name.toList ++ rest := by
    rw [text, List.cons_append, skipBlank_cons (isBlank_of_kind first rfl rfl)]
  show key? (78 + 1) (name.toList ++ rest) = _
  rw [key?, start, name?_append h stop]
  simp only [Option.bind_eq_bind, Option.bind_some, Option.pure_def]

theorem lineEnd?_lineFeed (rest : List Char) : lineEnd? ('\n' :: rest) = some rest := rfl

/-- A header makes a table. -/
theorem statement?_header (h : Bare name) (rest : List Char) :
    statement? ((Line.header name).print ++ rest) = some (.table [name], rest) := by
  obtain ⟨c, t, text, first⟩ := h.exists_cons
  have key := key?_append h (']' :: '\n' :: rest) (by rintro d ⟨⟩; rfl)
    fun tail same => absurd (List.cons.inj same).1 (by decide)
  have shape : (Line.header name).print ++ rest = '[' :: (name.toList ++ ']' :: '\n' :: rest) := by
    simp [Line.print]
  rw [shape, statement?.eq_def]
  split
  case h_1 same =>
    rw [text] at same
    exact absurd (List.cons.inj (List.cons.inj same).2).1 (ne_of_kind first rfl)
  case h_2 tail _ same =>
    obtain rfl := (List.cons.inj same).2
    rw [key]
    rfl
  case h_3 other => exact absurd rfl (other _)

/-- A line with a value makes a pair. -/
theorem statement?_pair {p : Plain} (h : Bare name) (fits : p.Fits) (rest : List Char) :
    statement? (printValue (name, p) ++ rest) = some (.pair [name] p.toToml, rest) := by
  obtain ⟨c, t, text, first⟩ := h.exists_cons
  obtain ⟨d, u, shown, mark⟩ := exists_cons_print fits
  have key := key?_append h (' ' :: '=' :: ' ' :: (p.print ++ '\n' :: rest))
    (by rintro d ⟨⟩; rfl) fun tail same => absurd (List.cons.inj same).1 (by decide)
  have start : skipBlank (' ' :: (p.print ++ '\n' :: rest)) = p.print ++ '\n' :: rest := by
    show skipBlank (p.print ++ '\n' :: rest) = _
    rw [shown, List.cons_append, skipBlank_cons mark]
  have shape : printValue (name, p) ++ rest
      = name.toList ++ ' ' :: '=' :: ' ' :: (p.print ++ '\n' :: rest) := by simp [printValue]
  have other (tail : List Char) :
      name.toList ++ ' ' :: '=' :: ' ' :: (p.print ++ '\n' :: rest) ≠ '[' :: tail := by
    rw [text]
    exact fun same => ne_of_kind first rfl (List.cons.inj same).1
  rw [shape, statement?.eq_def]
  split
  case h_1 same => exact absurd same (other _)
  case h_2 same => exact absurd same (other _)
  case h_3 =>
    have equals : skipBlank (' ' :: '=' :: ' ' :: (p.print ++ '\n' :: rest))
        = '=' :: ' ' :: (p.print ++ '\n' :: rest) := rfl
    rw [key, equals]
    simp only [Option.bind_eq_bind, Option.bind_some, start, value_print fits, lineEnd?_lineFeed,
      Option.pure_def]

/-! ## Reading documents -/

/-- A statement stands on a line of its own. -/
theorem statementsOf?_of_statement? {s : List Char} {c : Char} {t : List Char}
    {statement : Statement} (start : s = c :: t) (gap : isGap c = false) (comment : c ≠ '#')
    (h : statement? s = some (statement, rest)) (fuel : Nat) :
    statementsOf? (fuel + 1) s = (statementsOf? fuel rest).map (statement :: ·) := by
  have parts : isBlank c = false ∧ c ≠ '\n' := by simpa [isGap] using gap
  subst start
  rw [statementsOf?, skipBlank_cons parts.1]
  split
  case h_1 none => cases none
  case h_2 same => exact absurd (List.cons.inj same).1 parts.2
  case h_3 same => exact absurd (List.cons.inj same).1 comment
  case h_4 =>
    rw [h]
    simp only [Option.bind_eq_bind, Option.bind_some]
    cases statementsOf? fuel rest <;> rfl

/-- A line is read as its statement, if it makes one. -/
theorem statementsOf?_append {line : Line} (h : line.Readable) (fuel : Nat) :
    statementsOf? (fuel + 1) (line.print ++ rest)
      = (statementsOf? fuel rest).map (line.statement.toList ++ ·) := by
  cases line with
  | gap name =>
    show statementsOf? fuel rest = _
    cases statementsOf? fuel rest <;> rfl
  | header name =>
    exact statementsOf?_of_statement? rfl rfl (by decide) (statement?_header h rest) fuel
  | pair name v =>
    obtain ⟨key, p⟩ := v
    obtain ⟨c, t, text, first⟩ := h.1.exists_cons
    have start : printValue (key, p) ++ rest
        = c :: (t ++ [' ', '=', ' '] ++ p.print ++ ['\n'] ++ rest) := by
      simp [printValue, text]
    have gap : isGap c = false := by
      rw [isGap, isBlank_of_kind first rfl rfl, Bool.false_or, decide_eq_false_iff_not]
      exact ne_of_kind first rfl
    exact statementsOf?_of_statement? start gap (ne_of_kind first rfl)
      (statement?_pair h.1 h.2 rest) fuel

/-- Lines are read one after the other, whatever their order. Each takes one unit of the fuel. -/
theorem statementsOf?_flatMap {lines : List Line} (h : ∀ line ∈ lines, line.Readable) {fuel : Nat}
    (enough : lines.length < fuel) :
    statementsOf? fuel (lines.flatMap Line.print) = some (lines.filterMap Line.statement) := by
  induction lines generalizing fuel with
  | nil =>
    obtain ⟨k, rfl⟩ : ∃ k, fuel = k + 1 := ⟨fuel - 1, by omega⟩
    rfl
  | cons line lines ih =>
    obtain ⟨first, others⟩ := List.forall_mem_cons.1 h
    rw [List.length_cons] at enough
    obtain ⟨k, rfl⟩ : ∃ k, fuel = k + 1 := ⟨fuel - 1, by omega⟩
    rw [List.flatMap_cons, statementsOf?_append first, ih others (by omega), List.filterMap_cons]
    cases line.statement <;> rfl

/-- A line has a first character, and no mark of a byte order. -/
theorem Line.exists_cons {line : Line} (h : line.Readable) :
    ∃ c t, line.print = c :: t ∧ c ≠ '\ufeff' := by
  cases line with
  | gap name => exact ⟨_, _, rfl, by decide⟩
  | header name => exact ⟨_, _, rfl, by decide⟩
  | pair name v =>
    obtain ⟨c, t, text, first⟩ := h.1.exists_cons
    refine ⟨c, t ++ [' ', '=', ' '] ++ v.2.print ++ ['\n'], ?_, ne_of_kind first rfl⟩
    simp [print, printValue, text]

theorem Line.not_mem_print {line : Line} (h : line.Readable) : '\r' ∉ line.print := by
  have bare {name : String} (h : Bare name) : '\r' ∉ name.toList := fun mem =>
    absurd (h.2 _ mem) (by decide)
  cases line with
  | gap name => simp [print]
  | header name => simp [print, bare h]
  | pair name v => simp [print, printValue, bare h.1, Toml.not_mem_print h.2]

theorem length_le_flatMap {lines : List Line} (h : ∀ line ∈ lines, line.Readable) :
    lines.length ≤ (lines.flatMap Line.print).length := by
  induction lines with
  | nil => exact Nat.le_refl 0
  | cons line lines ih =>
    obtain ⟨first, others⟩ := List.forall_mem_cons.1 h
    obtain ⟨c, t, text, -⟩ := Line.exists_cons first
    have less := ih others
    rw [List.flatMap_cons, text, List.length_append, List.length_cons, List.length_cons]
    omega

theorem unifyLineEnds_of_not_mem {s : List Char} (h : '\r' ∉ s) : unifyLineEnds s = s := by
  induction s with
  | nil => rfl
  | cons c s ih =>
    rw [List.mem_cons, not_or] at h
    rw [unifyLineEnds, ih h.2]
    intro tail same
    exact absurd same.symm h.1

theorem dropByteOrderMark_of_head? {s : List Char} (h : s.head? ≠ some '\ufeff') :
    dropByteOrderMark s = s := by
  unfold dropByteOrderMark
  split
  case h_1 => exact absurd rfl h
  case h_2 => rfl

/-- **Lines are read as the statements that they make**, in any choice and any order. -/
theorem statements?_flatMap {lines : List Line} (h : ∀ line ∈ lines, line.Readable) :
    statements? (lines.flatMap Line.print) = some (lines.filterMap Line.statement) := by
  have marked : (lines.flatMap Line.print).head? ≠ some '\ufeff' := by
    cases lines with
    | nil => nofun
    | cons line lines =>
      obtain ⟨c, t, text, other⟩ := Line.exists_cons (h line List.mem_cons_self)
      rw [List.flatMap_cons, text]
      exact fun same => other (Option.some.inj same)
  have returns : '\r' ∉ lines.flatMap Line.print := by
    rw [List.mem_flatMap]
    rintro ⟨line, there, mem⟩
    exact Line.not_mem_print (h line there) mem
  rw [statements?, dropByteOrderMark_of_head? marked, unifyLineEnds_of_not_mem returns]
  exact statementsOf?_flatMap h (Nat.lt_succ_of_le (length_le_flatMap h))

/-! ## Building sections up -/

/-- The value of a name in a table. -/
def field (v : String × Plain) : String × Toml := (v.1, v.2.toToml)

namespace Section

/-- The statements that a section makes. -/
def statements (s : Section) : List Statement :=
  .table [s.name] :: s.values.map fun v => .pair [v.1] v.2.toToml

/-- The table that a section is read as. -/
def entry (s : Section) : String × Toml := (s.name, .table .header (s.values.map field))

end Section

variable {entries : Entries} {current : Path}

/-- A name that is given once does not come before. -/
theorem not_mem_of_nodup {names later : List String} (h : (names ++ name :: later).Nodup) :
    name ∉ names := fun mem =>
  (List.nodup_append.1 h).2.2 _ mem _ List.mem_cons_self rfl

theorem lookup_eq_none (h : name ∉ entries.map Prod.fst) : entries.lookup name = none := by
  rw [List.lookup_eq_none_iff]
  intro entry mem
  rw [bne_iff_ne]
  rintro rfl
  exact h (List.mem_map_of_mem mem)

theorem lookup_of_mem (distinct : (entries.map Prod.fst).Nodup) {v : Toml}
    (mem : (name, v) ∈ entries) : entries.lookup name = some v := by
  obtain ⟨before, behind, rfl⟩ := List.append_of_mem mem
  rw [List.map_append, List.map_cons] at distinct
  rw [List.lookup_append, lookup_eq_none (not_mem_of_nodup distinct)]
  simp

theorem lookup_concat (h : name ∉ entries.map Prod.fst) (v : Toml) :
    (entries ++ [(name, v)]).lookup name = some v := by
  rw [List.lookup_append, lookup_eq_none h]
  simp

theorem replace_concat (h : name ∉ entries.map Prod.fst) (v w : Toml) :
    replace name w (entries ++ [(name, v)]) = entries ++ [(name, w)] := by
  have others : replace name w entries = entries := by
    refine (List.map_congr_left fun entry mem => if_neg ?_).trans (List.map_id entries)
    rintro rfl
    exact h (List.mem_map_of_mem mem)
  rw [replace, List.map_append, ← replace, others]
  simp

/-- A header adds an empty table. -/
theorem extend?_table (h : name ∉ entries.map Prod.fst) :
    extend? (current, entries) (.table [name])
      = some ([name], entries ++ [(name, .table .header [])]) := by
  simp [extend?, within, declare, lookup_eq_none h]

/-- A pair adds a value to the table of the last header. -/
theorem extend?_pair (h : name ∉ entries.map Prod.fst) {inner : Entries} {key : String} (v : Toml)
    (fresh : key ∉ inner.map Prod.fst) :
    extend? ([name], entries ++ [(name, .table .header inner)]) (.pair [key] v)
      = some ([name], entries ++ [(name, .table .header (inner ++ [(key, v)]))]) := by
  have added : insert [key] v inner = some (inner ++ [(key, v)]) := by
    simp [insert, within, insertName, lookup_eq_none fresh]
  simp [extend?, within, lookup_concat h, replace_concat h, added, TableKind.admits]

/-- The values of a section add up in the table of its header. -/
theorem foldlM_pairs (h : name ∉ entries.map Prod.fst) (inner : Entries)
    {values : List (String × Plain)} (fresh : (inner.map Prod.fst ++ values.map Prod.fst).Nodup) :
    (values.map fun v => Statement.pair [v.1] v.2.toToml).foldlM extend?
        ([name], entries ++ [(name, .table .header inner)])
      = some ([name], entries ++ [(name, .table .header (inner ++ values.map field))]) := by
  induction values generalizing inner with
  | nil => simp
  | cons v values ih =>
    have new : v.1 ∉ inner.map Prod.fst := not_mem_of_nodup fresh
    have rest := ih (inner ++ [field v]) (by simpa [field] using fresh)
    rw [List.map_cons, List.foldlM_cons, extend?_pair h _ new]
    simpa [field] using rest

/-- Sections add up in the document. -/
theorem foldlM_sections (current : Path) (entries : Entries) {sections : List Section}
    (fresh : (entries.map Prod.fst ++ sections.map Section.name).Nodup)
    (keys : ∀ s ∈ sections, (s.values.map Prod.fst).Nodup) :
    ((sections.flatMap Section.statements).foldlM extend? (current, entries)).map Prod.snd
      = some (entries ++ sections.map Section.entry) := by
  induction sections generalizing current entries with
  | nil => simp
  | cons s sections ih =>
    obtain ⟨first, others⟩ := List.forall_mem_cons.1 keys
    have new : s.name ∉ entries.map Prod.fst := not_mem_of_nodup fresh
    have values := foldlM_pairs new [] (by simpa using first)
    have rest := ih [s.name] (entries ++ [s.entry])
      (by simpa [Section.entry] using fresh) others
    -- the header makes an empty table, and the pairs up to the next header fill it
    rw [List.flatMap_cons, List.foldlM_append, Section.statements, List.foldlM_cons,
      extend?_table new]
    simp only [Option.bind_eq_bind, Option.bind_some, values]
    simpa [Section.entry] using rest

/-- **The statements of sections build these sections up**, if no name is given twice. -/
theorem assemble?_sections {sections : List Section} (names : (sections.map Section.name).Nodup)
    (keys : ∀ s ∈ sections, (s.values.map Prod.fst).Nodup) :
    assemble? (sections.flatMap Section.statements) = some (sections.map Section.entry) :=
  foldlM_sections [] [] names keys

/-! ## Lines that are taken away -/

/-- A document that is read back: its names need no quotes, none is given twice, and its values
fit. -/
structure Sound (sections : List Section) : Prop where
  bare : ∀ s ∈ sections, Bare s.name
  names : (sections.map Section.name).Nodup
  keys : ∀ s ∈ sections, (s.values.map Prod.fst).Nodup
  values : ∀ s ∈ sections, ∀ v ∈ s.values, Bare v.1 ∧ v.2.Fits

theorem Sound.readable {sections : List Section} (h : Sound sections) :
    ∀ line ∈ lines sections, line.Readable := by
  intro line mem
  obtain ⟨s, there, mem⟩ := List.mem_flatMap.1 (List.mem_of_mem_tail mem)
  rw [Section.lines, List.mem_cons, List.mem_cons, List.mem_map] at mem
  rcases mem with rfl | rfl | ⟨v, inside, rfl⟩
  · trivial
  · exact h.bare s there
  · exact h.values s there v inside

/-- A choice of lines to take away: whole sections, values of sections, and the empty lines before
sections. -/
structure Removal where
  sections : String → Bool
  keys : String → String → Bool
  gaps : String → Bool

namespace Removal

/-- Whether the line is taken away. -/
def takes (r : Removal) : Line → Bool
  | .gap name => r.gaps name
  | .header name => r.sections name
  | .pair name v => r.sections name || r.keys name v.1

/-- What is left of the text of a document. -/
def remaining (r : Removal) (sections : List Section) : List Char :=
  ((lines sections).filter (!r.takes ·)).flatMap Line.print

/-- What is left of a section that is not taken away. -/
def trim (r : Removal) (s : Section) : Section :=
  { s with values := s.values.filter fun v => !r.keys s.name v.1 }

/-- What is left of a document. -/
def kept (r : Removal) (sections : List Section) : List Section :=
  (sections.filter fun s => !r.sections s.name).map r.trim

end Removal

variable {sections : List Section}

/-- The lines that are left of a section make the statements of what is left of it. -/
theorem filterMap_lines (r : Removal) (s : Section) :
    (s.lines.filter (!r.takes ·)).filterMap Line.statement
      = if r.sections s.name = true then [] else (r.trim s).statements := by
  have gap (rest : List Line) :
      ((Line.gap s.name :: rest).filter (!r.takes ·)).filterMap Line.statement
        = (rest.filter (!r.takes ·)).filterMap Line.statement := by
    rw [List.filter_cons]
    split <;> rfl
  rw [Section.lines, gap]
  split_ifs with taken
  · have none : ∀ line ∈ Line.header s.name :: s.values.map (.pair s.name),
        ¬(!r.takes line) = true := by
      intro line mem
      rw [List.mem_cons, List.mem_map] at mem
      rcases mem with rfl | ⟨v, -, rfl⟩ <;> simp [Removal.takes, taken]
    rw [List.filter_eq_nil_iff.2 none]
    rfl
  · have header : (!r.takes (.header s.name)) = true := by simpa [Removal.takes] using taken
    have pairs : (s.values.map (Line.pair s.name)).filter (!r.takes ·)
        = (r.trim s).values.map (Line.pair s.name) := by
      have same : ((!r.takes ·) ∘ Line.pair s.name) = fun v => !r.keys s.name v.1 := by
        funext v
        simp [Removal.takes, taken]
      rw [List.filter_map, same]
      rfl
    rw [List.filter_cons, if_pos header, pairs, List.filterMap_cons, List.filterMap_map]
    exact congrArg (_ :: ·) (congrFun List.filterMap_eq_map' _)

/-- The lines that are left make the statements of the sections that are left. -/
theorem filterMap_remaining (r : Removal) (sections : List Section) :
    ((lines sections).filter (!r.takes ·)).filterMap Line.statement
      = (r.kept sections).flatMap Section.statements := by
  have whole : ((sections.flatMap Section.lines).filter (!r.takes ·)).filterMap Line.statement
      = (r.kept sections).flatMap Section.statements := by
    induction sections with
    | nil => rfl
    | cons s sections ih =>
      rw [List.flatMap_cons, List.filter_append, List.filterMap_append, filterMap_lines, ih]
      unfold Removal.kept
      rw [List.filter_cons]
      split_ifs <;> simp_all
  rw [← whole]
  cases sections with
  | nil => rfl
  | cons s sections =>
    show _ = ((Line.gap s.name :: lines (s :: sections)).filter
      (!r.takes ·)).filterMap Line.statement
    rw [List.filter_cons]
    split <;> rfl

theorem Sound.kept (h : Sound sections) (r : Removal) : Sound (r.kept sections) := by
  have from_section {s : Section} (mem : s ∈ r.kept sections) : ∃ t ∈ sections, r.trim t = s := by
    obtain ⟨t, there, rfl⟩ := List.mem_map.1 mem
    exact ⟨t, (List.mem_filter.1 there).1, rfl⟩
  refine ⟨fun s mem => ?_, ?_, fun s mem => ?_, fun s mem v inside => ?_⟩
  · obtain ⟨t, there, rfl⟩ := from_section mem
    exact h.bare t there
  · have same : (r.kept sections).map Section.name
        = (sections.filter fun s => !r.sections s.name).map Section.name := by
      rw [Removal.kept, List.map_map]
      rfl
    rw [same]
    exact h.names.sublist (List.filter_sublist.map _)
  · obtain ⟨t, there, rfl⟩ := from_section mem
    exact (h.keys t there).sublist (List.filter_sublist.map _)
  · obtain ⟨t, there, rfl⟩ := from_section mem
    exact h.values t there v (List.mem_filter.1 inside).1

/-- **What is left of a document is read as the sections that are left**, with the values that are
left. -/
theorem parse?_remaining (h : Sound sections) (r : Removal) :
    parse? (r.remaining sections) = some ((r.kept sections).map Section.entry) := by
  have readable : ∀ line ∈ (lines sections).filter (!r.takes ·), line.Readable := fun line mem =>
    h.readable line (List.mem_filter.1 mem).1
  have left := h.kept r
  rw [parse?, Removal.remaining, statements?_flatMap readable, filterMap_remaining]
  exact assemble?_sections left.names left.keys

end Toml

end CounterWatch
