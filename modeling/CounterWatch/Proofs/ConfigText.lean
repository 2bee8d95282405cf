import CounterWatch.Config.Printer
import CounterWatch.Proofs.Files
import CounterWatch.Proofs.TomlDocument
import Mathlib.Data.List.SplitBy

/-!
# The configuration, saved and read back

A configuration is saved as a document, and the document is read as that configuration. A document
from which lines were taken away is read as well: a field that is gone has its default, and all others
have what was saved.

* `Toml.setting?_kept` says which of the two a field has.
* `Config.without` is the configuration with some fields at their defaults, and
  `Config.ofEntries?_kept` says that a document without their lines is read as that.
* `Config.holds_of_save` says where a saved text is, and `Config.run_saving_of_error` that nothing is
  touched if there is no text.
* `Config.saved_text_reads_back` puts these together.
-/

namespace CounterWatch

namespace Toml

/-! ## Fields of sections -/

variable {sections : List Section} {s : Section} {α : Type}

namespace Removal

/-- The fields that are left of a section. -/
def fields (r : Removal) (s : Section) : Entries :=
  if r.sections s.name then [] else (r.trim s).values.map field

/-- The default of a field that is taken away, or else its value. -/
def choose (r : Removal) (name key : String) (default value : α) : α :=
  if r.sections name || r.keys name key then default else value

end Removal

/-- A section that is taken away has no fields, and another has those that are left of it. -/
theorem section?_kept (h : Sound sections) (mem : s ∈ sections) (r : Removal)
    (names : List String) : section? ((r.kept sections).map Section.entry) s.name names
      = some (r.fields s) := by
  let entries := sections.map fun t => (r.trim t).entry
  have left : (r.kept sections).map Section.entry
      = entries.filter fun entry => !r.sections entry.1 := by
    rw [Removal.kept, List.map_map, List.filter_map]
    rfl
  have distinct : (entries.map Prod.fst).Nodup := by
    rw [List.map_map]
    exact h.names
  have found : entries.lookup s.name = some (.table .header ((r.trim s).values.map field)) :=
    lookup_of_mem distinct (List.mem_map_of_mem (f := fun t => (r.trim t).entry) mem)
  rw [section?, left, lookup_filter (fun name => !r.sections name), found, Removal.fields]
  cases r.sections s.name <;> rfl

theorem lookup_fields (r : Removal) (s : Section) (key : String) :
    (r.fields s).lookup key
      = if r.sections s.name || r.keys s.name key then none else (s.values.map field).lookup key := by
  have left : (r.trim s).values.map field
      = (s.values.map field).filter fun entry => !r.keys s.name entry.1 := by
    rw [List.filter_map]
    rfl
  rw [Removal.fields, left]
  cases r.sections s.name with
  | true => rfl
  | false =>
    simp only [Bool.false_eq_true, ↓reduceIte, Bool.false_or]
    rw [lookup_filter fun key => !r.keys s.name key]
    cases r.keys s.name key <;> rfl

/-- A field that is left has its value, and one that is taken away its default. -/
theorem setting?_kept (h : Sound sections) (mem : s ∈ sections) {key : String} {p : Plain}
    (there : (key, p) ∈ s.values) (r : Removal) (read : Toml → Option α) {value : α}
    (reads : read p.toToml = some value) (default : α) :
    setting? (r.fields s) key default read = some (r.choose s.name key default value) := by
  have distinct : ((s.values.map field).map Prod.fst).Nodup := by
    rw [List.map_map]
    exact h.keys s mem
  have found : (s.values.map field).lookup key = some p.toToml :=
    lookup_of_mem distinct (List.mem_map_of_mem (f := field) there)
  rw [setting?, lookup_fields, found, Removal.choose]
  split_ifs
  · rfl
  · exact reads

/-- A field that was not there has its default. -/
theorem setting?_of_not_mem {key : String} (absent : key ∉ s.values.map Prod.fst) (r : Removal)
    (read : Toml → Option α) (default : α) :
    setting? (r.fields s) key default read = some default := by
  have none : (s.values.map field).lookup key = none := lookup_eq_none (by rwa [List.map_map])
  rw [setting?, lookup_fields, none, ite_self]

end Toml

namespace Config

open Toml

variable {c : Config}

/-! ## The document of a configuration -/

/-- The format can hold the counts. -/
def CountsFit (c : Config) : Prop :=
  c.learning.samples < countLimit ∧ c.retrain.bufferCapacity < countLimit

theorem sound_sections (fit : c.CountsFit) : Sound c.sections := by
  have bare : ∀ name ∈ ["listener", "learning", "retrain", "ensemble", "output"], Bare name := by
    simp [Bare, isNameChar]
  refine ⟨fun s mem => bare s.name (List.mem_map_of_mem (f := Section.name) mem), ?_, ?_, ?_⟩
  · show ["listener", "learning", "retrain", "ensemble", "output"].Nodup
    decide
  · unfold sections
    cases c.output.logFile <;> simp
  · unfold sections
    cases c.output.logFile <;>
      simp only [List.forall_mem_cons, List.nil_append, List.cons_append]
    all_goals simpa [Bare, isNameChar, Plain.Fits, CountsFit, countLimit] using fit

/-- The configuration with the fields of some lines at their defaults. -/
def without (c : Config) (r : Removal) : Config :=
  let d : Config := {}
  { listener.socketPath :=
      r.choose "listener" "socket_path" d.listener.socketPath c.listener.socketPath
    learning.samples := r.choose "learning" "samples" d.learning.samples c.learning.samples
    retrain.intervalSecs :=
      r.choose "retrain" "interval_secs" d.retrain.intervalSecs c.retrain.intervalSecs
    retrain.bufferCapacity :=
      r.choose "retrain" "buffer_capacity" d.retrain.bufferCapacity c.retrain.bufferCapacity
    ensemble.primary := r.choose "ensemble" "primary" d.ensemble.primary c.ensemble.primary
    ensemble.secondary := r.choose "ensemble" "secondary" d.ensemble.secondary c.ensemble.secondary
    ensemble.primaryWeight :=
      r.choose "ensemble" "primary_weight" d.ensemble.primaryWeight c.ensemble.primaryWeight
    output.logFile := r.choose "output" "log_file" d.output.logFile c.output.logFile
    output.verbose := r.choose "output" "verbose" d.output.verbose c.output.verbose }

/-! ## Values of fields -/

@[simp] theorem count?_ofNat (n : Nat) : count? (Plain.integer n).toToml = some n := by
  simp [count?, Plain.toToml]

@[simp] theorem modelKind?_name (kind : ModelKind) :
    modelKind? (Plain.string kind.name).toToml = some kind := by
  cases kind <;> rfl

section

variable (fit : c.CountsFit) (r : Removal)

include fit

theorem listener?_kept :
    listener? ((r.kept c.sections).map Section.entry) = some (c.without r).listener := by
  have sound := sound_sections fit
  have mem : ⟨"listener", [("socket_path", .string c.listener.socketPath)]⟩ ∈ c.sections := by
    simp [sections]
  have path := setting?_kept sound mem (.head _) r string? rfl
  simp only [listener?, section?_kept sound mem, path, Option.bind_eq_bind, Option.bind_some]
  rfl

theorem learning?_kept :
    learning? ((r.kept c.sections).map Section.entry) = some (c.without r).learning := by
  have sound := sound_sections fit
  have mem : ⟨"learning", [("samples", .integer c.learning.samples)]⟩ ∈ c.sections := by
    simp [sections]
  have samples := setting?_kept sound mem (.head _) r count? (count?_ofNat _)
  simp only [learning?, section?_kept sound mem, samples, Option.bind_eq_bind, Option.bind_some]
  rfl

theorem retrain?_kept :
    retrain? ((r.kept c.sections).map Section.entry) = some (c.without r).retrain := by
  have sound := sound_sections fit
  have mem : ⟨"retrain", [("interval_secs", .float c.retrain.intervalSecs),
      ("buffer_capacity", .integer c.retrain.bufferCapacity)]⟩ ∈ c.sections := by
    simp [sections]
  have interval := setting?_kept sound mem (.head _) r number? rfl
  have capacity := setting?_kept sound mem (.tail _ (.head _)) r count? (count?_ofNat _)
  simp only [retrain?, section?_kept sound mem, interval, capacity, Option.bind_eq_bind,
    Option.bind_some]
  rfl

theorem ensemble?_kept :
    ensemble? ((r.kept c.sections).map Section.entry) = some (c.without r).ensemble := by
  have sound := sound_sections fit
  have mem : ⟨"ensemble", [("primary", .string c.ensemble.primary.name),
      ("secondary", .string c.ensemble.secondary.name),
      ("primary_weight", .float c.ensemble.primaryWeight)]⟩ ∈ c.sections := by
    simp [sections]
  have primary := setting?_kept sound mem (.head _) r modelKind? (modelKind?_name _)
  have secondary := setting?_kept sound mem (.tail _ (.head _)) r modelKind? (modelKind?_name _)
  have weight := setting?_kept sound mem (.tail _ (.tail _ (.head _))) r number? rfl
  simp only [ensemble?, section?_kept sound mem, primary, secondary, weight, Option.bind_eq_bind,
    Option.bind_some]
  rfl

theorem output?_kept :
    output? ((r.kept c.sections).map Section.entry) = some (c.without r).output := by
  have sound := sound_sections fit
  have left : (c.without r).output = ⟨r.choose "output" "log_file" none c.output.logFile,
    r.choose "output" "verbose" false c.output.verbose⟩ := rfl
  rw [left]
  cases log : c.output.logFile with
  | none =>
    -- there is no line to take away, and the default is what was saved
    have mem : ⟨"output", [("verbose", .bool c.output.verbose)]⟩ ∈ c.sections := by
      simp [sections, log]
    have absent : "log_file" ∉ [("verbose", Plain.bool c.output.verbose)].map Prod.fst := by simp
    have path := setting?_of_not_mem (s := ⟨"output", _⟩) absent r fun v => v.string?.map some
    have verbose := setting?_kept sound mem (.head _) r bool? rfl
    have none : r.choose "output" "log_file" none none = (none : Option String) := ite_self _
    simp only [output?, section?_kept sound mem, path, verbose, none, Option.bind_eq_bind,
      Option.bind_some]
    rfl
  | some text =>
    have mem : ⟨"output", [("log_file", .string text), ("verbose", .bool c.output.verbose)]⟩
        ∈ c.sections := by
      simp [sections, log]
    have path := setting?_kept sound mem (.head _) r (fun v => v.string?.map some) rfl
    have verbose := setting?_kept sound mem (.tail _ (.head _)) r bool? rfl
    simp only [output?, section?_kept sound mem, path, verbose, Option.bind_eq_bind,
      Option.bind_some]
    rfl

end

/-- What is left of the document is read as the configuration with the lost fields at their
defaults. -/
theorem ofEntries?_kept (fit : c.CountsFit) (r : Removal) :
    ofEntries? ((r.kept c.sections).map Section.entry) = some (c.without r) := by
  rw [ofEntries?, listener?_kept fit, learning?_kept fit, retrain?_kept fit, ensemble?_kept fit,
    output?_kept fit]
  rfl

/-! ## Texts -/

@[simp] theorem ofBytes_toUTF8 (text : String) : ofBytes text.toUTF8 = ofText text := by
  have read : String.fromUTF8? text.toUTF8 = some text := dif_pos text.isValidUTF8
  rw [ofBytes, read]

/-- What is left of the text is read as the configuration with the lost fields at their defaults. -/
theorem ofText_remaining (fit : c.CountsFit) (r : Removal) :
    ofText (String.ofList (r.remaining c.sections)) = .ok (c.without r) := by
  rw [ofText, String.toList_ofList, parse?_remaining (sound_sections fit), Option.bind_some,
    ofEntries?_kept fit]

/-- The text is read as the configuration: it is what is left of it when nothing is taken away. -/
theorem ofText_print (fit : c.CountsFit) : ofText (String.ofList (print c.sections)) = .ok c := by
  let nothing : Removal := ⟨fun _ => false, fun _ _ => false, fun _ => false⟩
  have all : ∀ line ∈ lines c.sections, (!nothing.takes line) = true := by
    intro line _
    cases line <;> rfl
  have whole : nothing.remaining c.sections = print c.sections := by
    rw [Removal.remaining, List.filter_eq_self.2 all, flatMap_lines]
  rw [← whole]
  exact ofText_remaining fit nothing

/-! ## Saving -/

/-- Without a text nothing is touched. -/
theorem run_saving_of_error {error : ConfigError} (h : c.text = .error error) (path : String)
    (files : FileTree) : (c.saving path).run files = .error error files := by
  rw [saving, h]
  rfl

/-- A saved text is in the file that the path leads to. -/
theorem holds_of_save {text path : String} {files files' : FileTree} (h : c.text = .ok text)
    (root : files.isDirectory [] = true) (saved : c.save path files = .ok files') :
    ∃ base name, files'.Holds path base name text := by
  have done : (c.saving path).run files = .ok () files' := by
    unfold save at saved
    split at saved
    case h_1 run =>
      cases saved
      exact run
    case h_2 => cases saved
  rw [saving, h] at done
  obtain ⟨_, made, parents, written⟩ := FileTree.exists_of_bind (FileTree.run_of_adaptExcept done)
  exact FileTree.holds_of_write (FileTree.isDirectory_root_makeParents root parents) written

theorem text_of_countsFit (fit : c.CountsFit) (quotes : c.texts.any hasLongQuoteRun = false) :
    c.text = .ok (String.ofList (print c.sections)) := by
  rw [text, if_neg (by unfold CountsFit at fit; omega), quotes]
  rfl

theorem text_of_not_countsFit (h : ¬c.CountsFit) : c.text = .error .countTooLarge :=
  if_pos (by unfold CountsFit at h; omega)

theorem text_of_quotes (fit : c.CountsFit) (h : c.texts.any hasLongQuoteRun = true) :
    c.text = .error .quoteRunTooLong := by
  rw [text, if_neg (by unfold CountsFit at fit; omega), h]
  rfl

/-- **A saved configuration is read back**, and what is left of its text when values or whole sections
are taken away is read with the defaults of just these. There is a text if the format can hold the
counts and the writer can count the quotes in a row; else saving fails and touches nothing. Numbers are
read back bit for bit, and so is what is not a number, of which there is one. -/
theorem saved_text_reads_back (c : Config) :
    (c.CountsFit → c.texts.any hasLongQuoteRun = false →
      ∃ text, c.text = .ok text ∧ text.toList = (lines c.sections).flatMap Line.print ∧
        ofBytes text.toUTF8 = .ok c ∧
        (∀ r : Removal,
          ofBytes (String.ofList (r.remaining c.sections)).toUTF8 = .ok (c.without r)) ∧
        ∀ path files files', files.isDirectory [] = true → c.save path files = .ok files' →
          ∃ base name, files'.Holds path base name text) ∧
    (¬c.CountsFit → ∀ path files, (c.saving path).run files = .error .countTooLarge files) ∧
    (c.CountsFit → c.texts.any hasLongQuoteRun = true →
      ∀ path files, (c.saving path).run files = .error .quoteRunTooLong files) := by
  refine ⟨fun fit quotes => ?_, fun large => ?_, fun fit quotes => ?_⟩
  · have written := text_of_countsFit fit quotes
    refine ⟨_, written, ?_, ?_, fun r => ?_, fun path files files' root saved => ?_⟩
    · rw [String.toList_ofList, flatMap_lines]
    · rw [ofBytes_toUTF8, ofText_print fit]
    · rw [ofBytes_toUTF8, ofText_remaining fit]
    · exact holds_of_save written root saved
  · exact run_saving_of_error (text_of_not_countsFit large)
  · exact run_saving_of_error (text_of_quotes fit quotes)

/-- A text of nothing but quotes is one run of them. -/
theorem hasLongQuoteRun_replicate {n : Nat} (h : quoteLimit ≤ n) :
    hasLongQuoteRun (String.ofList (List.replicate n '\'')) = true := by
  have some : n ≠ 0 := by
    rintro rfl
    cases h
  have chain : (List.replicate n '\'').IsChain fun a b => (a == b) = true :=
    List.isChain_replicate_of_rel n rfl
  have run : (List.replicate n '\'').splitBy (· == ·) = [List.replicate n '\''] :=
    List.splitBy_of_isChain (by simpa using some) chain
  simp [hasLongQuoteRun, run, some, h]

/-- Two hundred and fifty-six quotes in a row are more than the writer counts, and nothing is saved. -/
theorem long_run_of_quotes_is_not_saved :
    let c : Config := { listener.socketPath := String.ofList (List.replicate 256 '\'') }
    c.CountsFit ∧ c.text = .error .quoteRunTooLong ∧
      (c.saving "guardian.toml").run (.directory []) = .error .quoteRunTooLong (.directory []) := by
  intro c
  have fit : c.CountsFit := ⟨by decide, by decide⟩
  have long := hasLongQuoteRun_replicate (Nat.le_refl quoteLimit)
  have quotes : c.texts.any hasLongQuoteRun = true := by
    simp only [texts, c, Option.toList_none, List.any_cons, List.any_nil, Bool.or_false]
    exact long
  have unwritten := text_of_quotes fit quotes
  exact ⟨fit, unwritten, run_saving_of_error unwritten _ _⟩

/-- A path over two lines, a weight that is not a number, and then neither the section of the models nor
the count of samples. -/
theorem lines_of_text_are_read_back :
    let c : Config := {
      listener.socketPath := "/tmp/a\n\"b\"'''\t\\.sock"
      learning.samples := 60
      ensemble.primaryWeight := Double.notANumber }
    let r : Removal := ⟨fun name => name = "ensemble", fun _ key => key = "samples", fun _ => true⟩
    ∃ text, c.text = .ok text ∧ ofBytes text.toUTF8 = .ok c ∧
      ofBytes (String.ofList (r.remaining c.sections)).toUTF8
        = .ok { listener.socketPath := "/tmp/a\n\"b\"'''\t\\.sock" } := by
  intro c r
  obtain ⟨text, written, -, whole, parts, -⟩ :=
    (saved_text_reads_back c).1 ⟨by decide, by decide⟩ (by decide +kernel)
  exact ⟨text, written, whole, parts r⟩

end Config

end CounterWatch
