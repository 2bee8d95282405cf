import CounterWatch.Config
import CounterWatch.PathError
import CounterWatch.Toml.Parser

/-!
# Reading the configuration

The configuration that a document stands for. What the document leaves out has its default, and what
it has beyond that is ignored. A section can also be an array of its values in order.

* `Config.ofEntries?` reads a document's entries.
* `Config.ofText` and `Config.ofBytes` read a file.
-/

namespace CounterWatch

/-- Why a configuration cannot be read or written. -/
inductive ConfigError where
  | file (error : PathError)
  /-- The text is no configuration. -/
  | malformed
  /-- A count is too great for the format. -/
  | countTooLarge
  /-- There are too many equal quotes in a row in a text. -/
  | quoteRunTooLong
  deriving DecidableEq, Repr

/-- The wording of the error. -/
def ConfigError.message : ConfigError → String
  | .file error => "I/O error: " ++ error.message
  | .malformed => "config parse error: the text is no configuration"
  | .countTooLarge => "config serialize error: a count is out of range"
  | .quoteRunTooLong => "config serialize error: a run of quotes is too long"

namespace Toml

/-! ## Values of settings -/

/-- The text that a value stands for. -/
def string? : Toml → Option String
  | .string s => some s
  | _ => none

/-- The truth value that a value stands for. -/
def bool? : Toml → Option Bool
  | .bool b => some b
  | _ => none

/-- The count that a value stands for. -/
def count? : Toml → Option Nat
  | .integer n => if 0 ≤ n then some n.toNat else none
  | _ => none

/-- The number that a value stands for; a whole number is rounded to the nearest float. -/
def number? : Toml → Option Float
  | .float x => some x
  | .integer n => some (Double.ofFraction (n < 0) n.natAbs 1)
  | _ => none

/-- Whether a value is an array or a table with nothing in it. -/
def isEmpty : Toml → Bool
  | .array items => items.isEmpty
  | .table _ entries => entries.isEmpty
  | .tables items => items.isEmpty
  | _ => false

/-- The model that a value stands for: its name, or a table that has its name for its only entry
with nothing in it. -/
def modelKind? : Toml → Option ModelKind
  | .string name => ModelKind.ofName? name
  | .table _ [(name, value)] => do
    let kind ← ModelKind.ofName? name
    if value.isEmpty then some kind else none
  | _ => none

/-- The values that a section has for its fields, which are named in the order of an array. -/
def fields? (names : List String) : Toml → Option Entries
  | .table _ entries => some entries
  | .array items => some (names.zip items)
  | .tables items => some (names.zip (items.map (.table .header)))
  | .datetime => some []
  | _ => none

/-- The fields of a section of a document; a section that is missing has none. -/
def section? (document : Entries) (name : String) (names : List String) : Option Entries :=
  match document.lookup name with
  | none => some []
  | some value => value.fields? names

/-- The setting that a field gives, or its default if there is no such field. -/
def setting? {α : Type} (fields : Entries) (name : String) (default : α)
    (read : Toml → Option α) : Option α :=
  match fields.lookup name with
  | none => some default
  | some value => read value

end Toml

namespace Config

open Toml

/-- The listener's settings. -/
def listener? (document : Entries) : Option ListenerConfig := do
  let fields ← section? document "listener" ["socket_path"]
  let d : ListenerConfig := {}
  return { socketPath := ← setting? fields "socket_path" d.socketPath string? }

/-- The settings of the learning. -/
def learning? (document : Entries) : Option LearningConfig := do
  let fields ← section? document "learning" ["samples"]
  let d : LearningConfig := {}
  return { samples := ← setting? fields "samples" d.samples count? }

/-- The settings of the training that is repeated. -/
def retrain? (document : Entries) : Option RetrainConfig := do
  let fields ← section? document "retrain" ["interval_secs", "buffer_capacity"]
  let d : RetrainConfig := {}
  return {
    intervalSecs := ← setting? fields "interval_secs" d.intervalSecs number?
    bufferCapacity := ← setting? fields "buffer_capacity" d.bufferCapacity count? }

/-- The settings of the models. -/
def ensemble? (document : Entries) : Option EnsembleConfig := do
  let fields ← section? document "ensemble" ["primary", "secondary", "primary_weight"]
  let d : EnsembleConfig := {}
  return {
    primary := ← setting? fields "primary" d.primary modelKind?
    secondary := ← setting? fields "secondary" d.secondary modelKind?
    primaryWeight := ← setting? fields "primary_weight" d.primaryWeight number? }

/-- The settings of the output. -/
def output? (document : Entries) : Option OutputConfig := do
  let fields ← section? document "output" ["log_file", "verbose"]
  let d : OutputConfig := {}
  return {
    logFile := ← setting? fields "log_file" d.logFile fun v => v.string?.map some
    verbose := ← setting? fields "verbose" d.verbose bool? }

/-- The configuration of a document's entries. -/
def ofEntries? (document : Entries) : Option Config := do
  return {
    listener := ← listener? document
    learning := ← learning? document
    retrain := ← retrain? document
    ensemble := ← ensemble? document
    output := ← output? document }

/-- The configuration of a text. -/
def ofText (text : String) : Except ConfigError Config :=
  match (Toml.parse? text.toList).bind ofEntries? with
  | some config => .ok config
  | none => .error .malformed

/-- The configuration of a file's content. -/
def ofBytes (bytes : ByteArray) : Except ConfigError Config :=
  match String.fromUTF8? bytes with
  | some text => ofText text
  | none => .error (.file .invalidData)

end Config

end CounterWatch
