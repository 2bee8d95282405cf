import CounterWatch.LogFile
import CounterWatch.Proofs.AlertLine
import CounterWatch.Proofs.Files

/-!
# Lines of alerts in a log file

The text of an alert holds no control character, so that a line is a line: what was sent to a log file
is found in it by splitting it at its line ends. An alert that was read from any text is one that can be
written, and is read back.

* `Alert.isFinite_of_parse?` says that no text stands for an alert with a score that is not finite.
* `LogFile.after_alerts` is the content of a log file after some alerts.
* `Alert.lines_are_framed_and_read_back` puts them together.
-/

namespace CounterWatch

namespace Json

theorem isFinite_of_float? {j : Json} {x : Float} (h : j.float? = some x) : x.isFinite = true := by
  unfold float? at h
  split at h
  · rw [Option.bind_eq_bind, Option.bind_eq_some_iff] at h
    obtain ⟨⟨n, rest⟩, -, h⟩ := h
    simp only at h
    split_ifs at h with finite
    rw [← Option.some.inj h]
    exact finite
  · cases h

end Json

namespace Alert

open Json

theorem isFinite_of_ofFieldValues? {values : List Json} {a : Alert}
    (h : ofFieldValues? values = some a) : a.isFinite = true := by
  unfold ofFieldValues? at h
  split at h
  · simp only [Option.bind_eq_bind, Option.bind_eq_some_iff, Option.pure_def, Option.some.injEq] at h
    obtain ⟨-, -, -, -, -, -, score, common, -, -, -, -, -, -, primary, first, secondary, second, rfl⟩
      := h
    simp only [isFinite, isFinite_of_float? common, isFinite_of_float? first,
      isFinite_of_float? second, Bool.and_self]
  · cases h

/-- No text stands for an alert with a score that is not finite. -/
theorem isFinite_of_parse? {text : String} {a : Alert} (h : parse? text = some a) :
    a.isFinite = true := by
  rw [parse?, Option.bind_eq_bind, Option.bind_eq_some_iff] at h
  obtain ⟨j, -, h⟩ := h
  unfold ofJson? at h
  split at h
  · rw [Option.bind_eq_bind, Option.bind_eq_some_iff] at h
    obtain ⟨values, -, h⟩ := h
    exact isFinite_of_ofFieldValues? h
  · exact isFinite_of_ofFieldValues? h
  · cases h

end Alert

/-! ## The log file -/

namespace LogFile

open FileTree

variable {log : LogFile} {files : FileTree} {path : String} {base : Place} {name content : String}

/-- The content that some lines make up. -/
def joined (lines : List String) : String := String.join (lines.map (· ++ "\n"))

/-- A line is added to the file that is there. -/
theorem write_alert (named : log.path = some path) (there : files.Holds path base name content)
    (line : String) : log.write files (.alert line)
      = files.put (base ++ [name]) (.file (content ++ (line ++ "\n"))) := by
  have opened : opened? log.path files = some (base ++ [name], files) := by
    rw [opened?, named, Option.map_some, there.openFile]
  simp only [write, Effect.logLine?, placeFor?, opened, append, there.there]

/-- The lines of some alerts are added one after the other. -/
theorem after_alerts (named : log.path = some path) (there : files.Holds path base name content)
    (lines : List String) :
    (log.after files (lines.map Effect.alert)).Holds path base name (content ++ joined lines) := by
  induction lines generalizing files content with
  | nil => simpa [after, joined] using there
  | cons line lines ih =>
    have next := ih (there.put (content ++ (line ++ "\n")))
    rw [String.append_assoc] at next
    rw [List.map_cons, after, List.foldl_cons, ← after, write_alert named there line]
    simpa [joined] using next

/-- With the first line the file is opened, and it is the same to have opened it before. -/
theorem after_of_opened (named : log.path = some path) {place : Place} {opened : FileTree}
    (h : (openFile path).run files = .ok place opened) (there : opened.Holds path base name content)
    (same : place = base ++ [name]) {lines : List String} (some : lines ≠ []) :
    log.after files (lines.map Effect.alert) = log.after opened (lines.map Effect.alert) := by
  obtain ⟨line, lines, rfl⟩ := List.exists_cons_of_ne_nil some
  have first : log.write files (.alert line) = log.write opened (.alert line) := by
    have now : opened? log.path files = .some (place, opened) := by
      rw [opened?, named, Option.map_some, h]
    have later : opened? log.path opened = .some (place, opened) := by
      rw [opened?, named, Option.map_some, there.openFile, same]
    simp only [write, Effect.logLine?, placeFor?, now, later]
  rw [List.map_cons, after, List.foldl_cons, first]
  rfl

/-- Lines are added to the text of the file that a path leads to, whether it is there or not. -/
theorem contentAt_after (named : log.path = some path) (root : files.isDirectory [] = true)
    {place : Place} {opened : FileTree} (h : (openFile path).run files = .ok place opened)
    (lines : List String) : (log.after files (lines.map Effect.alert)).contentAt place
      = files.contentAt place ++ joined lines := by
  by_cases none : lines = []
  · subst none
    simp [after, joined]
  · obtain ⟨base, name, old, rfl, there, before⟩ := holds_of_openFile root h
    have text : files.contentAt (base ++ [name]) = old := by
      rcases before with rfl | ⟨none, rfl⟩
      · exact there.contentAt
      · exact contentAt_of_none none
    rw [after_of_opened named h there rfl none, (after_alerts named there lines).contentAt, text]

/-- Lines without line ends are found again by splitting at the line ends. -/
theorem splitOn_joined {lines : List String} (h : ∀ line ∈ lines, '\n' ∉ line.toList) :
    (joined lines).toList.splitOn '\n' = lines.map String.toList ++ [[]] := by
  induction lines with
  | nil => simp [joined]
  | cons line lines ih =>
    obtain ⟨first, others⟩ := List.forall_mem_cons.1 h
    have text : (joined (line :: lines)).toList = line.toList ++ '\n' :: (joined lines).toList := by
      simp [joined]
    rw [text, List.splitOn_append_cons_self_of_not_mem first, ih others]
    rfl

end LogFile

namespace Alert

open FileTree LogFile

/-- **The lines of alerts are framed and read back.** The line of an alert with finite scores is read back
as that very alert. Every alert that any text stands for has finite scores, and its line is read back.
The line of any alert whatsoever holds no control character; so what some alerts add to the log file
that a path leads to, which may be new, is split at the line ends into exactly their lines, in their
order. -/
theorem lines_are_framed_and_read_back :
    (∀ a : Alert, a.isFinite = true → parse? a.line = some a) ∧
    (∀ (text : String) (a : Alert), parse? text = some a →
      a.isFinite = true ∧ parse? a.line = some a) ∧
    (∀ a : Alert, ∀ c ∈ a.line.toList, 32 ≤ c.toNat) ∧
    (∀ (log : LogFile) (path : String) (files opened : FileTree) (place : Place)
      (alerts : List Alert), log.path = some path → files.isDirectory [] = true →
      (openFile path).run files = .ok place opened →
      ∃ new, (log.after files (alerts.map fun a => .alert a.line)).contentAt place
          = files.contentAt place ++ new ∧
        new.toList.splitOn '\n' = alerts.map (fun a => a.line.toList) ++ [[]]) := by
  have read (a : Alert) (finite : a.isFinite = true) : parse? a.line = some a := by
    rw [parse?_line, if_pos finite]
  refine ⟨read, fun text a h => ⟨isFinite_of_parse? h, read a (isFinite_of_parse? h)⟩, plain_line, ?_⟩
  intro log path files opened place alerts named root h
  refine ⟨joined (alerts.map line), ?_, ?_⟩
  · have added := contentAt_after named root h (alerts.map line)
    rwa [List.map_map] at added
  · have framed : ∀ l ∈ alerts.map line, '\n' ∉ l.toList := by
      intro l mem feed
      obtain ⟨a, -, rfl⟩ := List.mem_map.1 mem
      exact absurd (a.plain_line _ feed) (by decide)
    rw [splitOn_joined framed, List.map_map]
    rfl

end Alert

end CounterWatch
