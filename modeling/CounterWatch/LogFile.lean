import CounterWatch.FileTree
import CounterWatch.Monitor

/-!
# The log file

A copy of what the program writes. The file is opened when the program starts, and what the program
tells about its own work goes to that file only. For every alert it is opened anew. A file that
cannot be opened is passed over.

* `LogFile.start` opens the file, and `LogFile.after` is the files after some effects.
-/

namespace CounterWatch

/-- The line that an effect puts into the log file. -/
def Effect.logLine? (verbose : Bool) : Effect → Option String
  | .alert line => some line
  | .journal entry => if entry.isShown verbose then some entry.line else none

/-- A log file: its path, and its place if it could be opened at the start. -/
structure LogFile where
  verbose : Bool
  path : Option String
  place : Option FileTree.Place

namespace LogFile

/-- The place of the file that a path leads to, and the files with it, if it can be opened. -/
def opened? (path : Option String) (files : FileTree) : Option (FileTree.Place × FileTree) :=
  match path.map fun path => (FileTree.openFile path).run files with
  | some (.ok place files) => some (place, files)
  | _ => none

/-- The log file at the start, and the files with it. -/
def start (output : OutputConfig) (files : FileTree) : LogFile × FileTree :=
  let opened := opened? output.logFile files
  ({ verbose := output.verbose, path := output.logFile, place := opened.map (·.1) },
    (opened.map (·.2)).getD files)

/-- The place that the line of an effect goes to, and the files with a file there. -/
def placeFor? (log : LogFile) (files : FileTree) : Effect → Option (FileTree.Place × FileTree)
  | .journal _ => log.place.map fun place => (place, files)
  | .alert _ => opened? log.path files

/-- The files after one effect. -/
def write (log : LogFile) (files : FileTree) (effect : Effect) : FileTree :=
  match effect.logLine? log.verbose, log.placeFor? files effect with
  | some line, some (place, files) => files.append place (line ++ "\n")
  | _, _ => files

/-- The files after some effects. -/
def after (log : LogFile) (files : FileTree) (effects : List Effect) : FileTree :=
  effects.foldl log.write files

/-- The files after some effects and then others. -/
theorem after_append (log : LogFile) (files : FileTree) (first later : List Effect) :
    log.after files (first ++ later) = log.after (log.after files first) later := by
  simp [after, List.foldl_append]

end LogFile

end CounterWatch
