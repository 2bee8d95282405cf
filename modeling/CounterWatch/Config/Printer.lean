import CounterWatch.Config.Reader
import CounterWatch.FileTree
import CounterWatch.Toml.Printer

/-!
# Writing the configuration

The configuration as a document: every section with every setting, only the log file left out if
there is none.

* `Config.sections` is the document, and `Config.text` its text.
* `Config.saving` writes the text to a file, and `Config.save` is what it leaves.
-/

namespace CounterWatch

namespace Config

/-- The document of a configuration. -/
def sections (c : Config) : List Toml.Section :=
  let logFile := match c.output.logFile with
    | none => []
    | some path => [("log_file", Toml.Plain.string path)]
  [{ name := "listener", values := [("socket_path", .string c.listener.socketPath)] },
    { name := "learning", values := [("samples", .integer c.learning.samples)] },
    { name := "retrain"
      values := [("interval_secs", .float c.retrain.intervalSecs),
        ("buffer_capacity", .integer c.retrain.bufferCapacity)] },
    { name := "ensemble"
      values := [("primary", .string c.ensemble.primary.name),
        ("secondary", .string c.ensemble.secondary.name),
        ("primary_weight", .float c.ensemble.primaryWeight)] },
    { name := "output", values := logFile ++ [("verbose", .bool c.output.verbose)] }]

/-- The least count that the format cannot hold. -/
def countLimit : Nat := Nat.pow 2 63

/-- The least count of equal quotes in a row that is too great for a text. -/
def quoteLimit : Nat := 256

/-- Whether there are so many equal quotes in a row in a text that no way of writing it is found. -/
def hasLongQuoteRun (text : String) : Bool :=
  ['\'', '"'].any fun quote =>
    (text.toList.splitBy (· == ·)).any fun run => quote ∈ run ∧ quoteLimit ≤ run.length

/-- The texts in a configuration that are free. -/
def texts (c : Config) : List String := c.listener.socketPath :: c.output.logFile.toList

/-- The text of a configuration. -/
def text (c : Config) : Except ConfigError String :=
  if countLimit ≤ c.learning.samples ∨ countLimit ≤ c.retrain.bufferCapacity then
    .error .countTooLarge
  else if c.texts.any hasLongQuoteRun then .error .quoteRunTooLong
  else .ok (String.ofList (Toml.print c.sections))

/-- Saves a configuration in the file that a path leads to. Directories that are missing are made,
and a file that is there is written over. Nothing is touched if there is no text. -/
def saving (c : Config) (path : String) : EStateM ConfigError FileTree Unit := do
  match c.text with
  | .error error => throw error
  | .ok text =>
    EStateM.adaptExcept .file do
      FileTree.makeParents path
      FileTree.write path text

/-- The files once a configuration is saved in one of them. -/
def save (c : Config) (path : String) (files : FileTree) : Except ConfigError FileTree :=
  match (c.saving path).run files with
  | .ok _ files => .ok files
  | .error error _ => .error error

end Config

end CounterWatch
