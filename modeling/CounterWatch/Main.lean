import CounterWatch.Config.Location
import CounterWatch.Program

/-!
# The command line

The program on the command line: it takes records one after the other from its input until that
ends. The first argument, if there is one, names the configuration.
-/

open CounterWatch

/-- The content of a file, if it can be read. -/
def contentOf (path : String) : IO (Option ByteArray) := do
  try
    return some (← IO.FS.readBinFile path)
  catch _ => return none

/-- The configuration and where it comes from. -/
def configSource (args : List String) : IO Program.Source := do
  match args with
  | path :: _ => return .ofFile path true (← contentOf path)
  | [] =>
    let path := Config.path ((← IO.getEnv "HOME").getD "") (← IO.getEnv "XDG_CONFIG_HOME")
    return .ofFile path false (← contentOf path)

/-- A line added to a file. A file that cannot be written to is passed over. -/
def appendLine (path line : String) : IO Unit := do
  try
    IO.FS.withFile path .append fun file => file.putStrLn line
  catch _ => return ()

/-- An effect brought about. -/
def perform (output : OutputConfig) (effect : Effect) : IO Unit := do
  match effect with
  | .alert line =>
    let out ← IO.getStdout
    out.putStrLn line
    out.flush
  | .journal entry => if entry.isShown output.verbose then IO.eprintln entry.line
  match output.logFile, effect.logLine? output.verbose with
  | some path, some line => appendLine path line
  | _, _ => return ()

/-- The monitor after all records of the input. -/
def monitorInput (output : OutputConfig) (start : Monitor) : IO Monitor := do
  let input ← IO.getStdin
  let mut m := start
  repeat
    let bytes ← input.read (USize.ofNat Sample.wireSize)
    if bytes.isEmpty then break
    let reaction := m.step (← IO.monoNanosNow) (.datagram bytes.toList)
    reaction.effects.forM (perform output)
    m := reaction.monitor
  return m

/-- The program. -/
def main (args : List String) : IO UInt32 := do
  let source ← configSource args
  let config := source.config
  let say (entries : List JournalEntry) : IO Unit :=
    entries.forM fun entry => perform config.output (.journal entry)
  say (Program.greeting source)
  match Program.monitorOf config with
  | .error error =>
    error.lines.forM IO.eprintln
    return 1
  | .ok monitor =>
    say (Session.opening monitor)
    let last ← monitorInput config.output monitor
    say (Session.closing last)
    return 0
