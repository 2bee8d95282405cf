import CounterWatch.Config.Printer
import CounterWatch.LogFile
import CounterWatch.Session

/-!
# The program

How the program starts, and what a run of it writes: alerts on the output, the journal on the error
output, and both in the log file, each line where it falls in the order of effects.

* `Program.Source` is where the configuration comes from.
* `Program.run` is a run from the start to the signal that ends it.
-/

namespace CounterWatch

namespace Program

/-- How the configuration was come by. -/
inductive Source where
  | loaded (path : String) (config : Config)
  | unreadable (path : String) (error : ConfigError)
  /-- No file was named, and there is none in the usual place. -/
  | missing

namespace Source

/-- The source that is a file's content, `none` if there is no file. A file that was not asked for
may be missing. -/
def ofFile (path : String) (asked : Bool) (content : Option ByteArray) : Source :=
  match content with
  | none => if asked then .unreadable path (.file .notFound) else .missing
  | some bytes =>
    match Config.ofBytes bytes with
    | .ok config => .loaded path config
    | .error error => .unreadable path error

/-- The configuration; without one that can be read, all defaults. -/
def config : Source → Config
  | .loaded _ config => config
  | .unreadable .. | .missing => {}

/-- What there is to say about the source. -/
def entry : Source → JournalEntry
  | .loaded path _ => .configLoaded path
  | .unreadable path error => .configUnreadable path error.message
  | .missing => .configMissing

end Source

/-- Why the program ends before it listens. -/
inductive StartError where
  | invalidConfig (error : InvalidConfig)
  | bind (path : String) (error : PathError)

/-- The lines that tell of the error. -/
def StartError.lines : StartError → List String
  | .invalidConfig error =>
    ["Error: invalid configuration", "", "Caused by:", "    " ++ error.message]
  | .bind path error =>
    ["Error: failed to bind " ++ JournalEntry.quotedPath path, "", "Caused by:",
      "    " ++ error.message]

/-- What is said before anything is tried. -/
def greeting (source : Source) : List JournalEntry :=
  [.starting, source.entry, .configSummary source.config]

/-- The monitor of a configuration. -/
def monitorOf (config : Config) : Except StartError Monitor := do
  let settings ← (Settings.ofConfig config).mapError .invalidConfig
  return .initial config settings

/-- What a run of the program has written: its effects in their order, the error that it ended
with, and the files it leaves. -/
structure Run where
  effects : List Effect
  failure : Option StartError
  files : FileTree

/-- A run on some events at one moment, up to the signal that stops it. -/
def run (source : Source) (files : FileTree) (now : Moment) (events : List Event) : Run :=
  let config := source.config
  let path := config.listener.socketPath
  let (log, files) := LogFile.start config.output files
  let greeting : List Effect := (greeting source).map .journal
  let files := log.after files greeting
  match monitorOf config with
  | .error error => { effects := greeting, failure := some error, files }
  | .ok monitor =>
    let opening := Listener.bind path files
    let opened : List Effect := opening.entries.map .journal
    let files := log.after opening.files opened
    match opening.failure with
    | some error => { effects := greeting ++ opened, failure := some (.bind path error), files }
    | none =>
      let session := Session.run monitor now events [.shutdownSignal]
      { effects := greeting ++ opened ++ session.effects
        failure := none
        files := Listener.close path (log.after files session.effects) }

namespace Run

/-- The lines on the output. -/
def output (r : Run) : List String := Effect.alertLines r.effects

/-- The lines on the error output. -/
def errorOutput (r : Run) (verbose : Bool) : List String :=
  ((Effect.entries r.effects).filter (·.isShown verbose)).map JournalEntry.line
    ++ (r.failure.map StartError.lines).getD []

/-- The status that the program ends with. -/
def exitCode (r : Run) : Nat := if r.failure.isSome then 1 else 0

end Run

end Program

end CounterWatch
