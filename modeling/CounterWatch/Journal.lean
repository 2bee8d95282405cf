import CounterWatch.Alert.Level
import CounterWatch.Config
import CounterWatch.Journal.Shapeless
import CounterWatch.Number.Text

/-!
# The journal

What the program tells about its own work. An entry is the event itself; its level and its wording
follow from it.
-/

namespace CounterWatch

/-- How much an entry matters. -/
inductive Severity where
  | debug
  | info
  | warn
  deriving DecidableEq, Repr

/-- The name of a severity. -/
def Severity.name : Severity → String
  | .debug => "DEBUG"
  | .info => "INFO"
  | .warn => "WARN"

/-- Something that happened. -/
inductive JournalEntry where
  /-- Training was refused for want of rows. -/
  | trainingSkipped (finite need : Nat)
  /-- Some features have no spread over the training rows. -/
  | flatFeatures (names : List String)
  /-- What can be done about features without spread. -/
  | diversityAdvice
  /-- Too many features hardly vary over the training rows. -/
  | uniformFeatures (count : Nat)
  /-- New models are in place. -/
  | modelsTrained (rows : Nat) (diverse : Bool)
  /-- A row was kept out of the backlog. -/
  | rowDropped
  /-- The models are about to be trained again. -/
  | retraining (rows : Nat)
  /-- Enough rows have been collected. -/
  | learningComplete (rows : Nat)
  /-- From here on rows are judged. -/
  | detectionEntered
  /-- How the detection is going. -/
  | status (samples anomalies backlog : Nat)
  /-- A row was judged an anomaly. -/
  | anomaly (level : AlertLevel) (composite primary secondary : Float) (reason : String)
  /-- How long a record is. -/
  | recordSize (bytes : Nat)
  /-- From here on rows are collected. -/
  | learningEntered (target : Nat)
  /-- The work is over. -/
  | shutdownComplete (samples anomalies : Nat)
  /-- A file in the way of the socket was removed. -/
  | staleSocketRemoved (path : String)
  /-- The socket is open. -/
  | listening (path : String)
  /-- The program has started. -/
  | starting
  /-- The configuration was read from a file. -/
  | configLoaded (path : String)
  /-- The configuration could not be read. -/
  | configUnreadable (path reason : String)
  /-- There is no configuration to read. -/
  | configMissing
  /-- The configuration in use. -/
  | configSummary (config : Config)
  /-- The program was asked to stop. -/
  | shutdownSignal

namespace JournalEntry

/-- How much the entry matters. -/
def severity : JournalEntry → Severity
  | .trainingSkipped .. | .flatFeatures .. | .diversityAdvice | .uniformFeatures ..
  | .configUnreadable .. => .warn
  | .rowDropped | .status .. | .anomaly .. | .staleSocketRemoved .. => .debug
  | _ => .info

/-- A path in quotes, as messages show it. Such quotes and backslashes are escaped, and so is what
has no shape of its own on a line. -/
def quotedPath (path : String) : String :=
  let escape (c : Char) : List Char :=
    if c = '"' ∨ c = '\\' then ['\\', c]
    else if c = '\n' then ['\\', 'n']
    else if c = '\r' then ['\\', 'r']
    else if c = '\t' then ['\\', 't']
    else if c = '\x00' then ['\\', '0']
    else if isShapeless c then
      '\\' :: 'u' :: '\x7b' :: (Nat.toDigits 16 c.toNat ++ ['\x7d'])
    else [c]
  String.ofList ('"' :: (path.toList.flatMap escape ++ ['"']))

/-- A number in a message. -/
def number (x : Float) : String := String.ofList (Double.text .message x)

/-- A number with four places. -/
def rounded (x : Float) : String := String.ofList (Double.fixedText 4 x)

/-- The wording of the entry. -/
def message : JournalEntry → String
  | .trainingSkipped finite need =>
    s!"Training skipped: only {finite} finite samples (need >= {need})"
  | .flatFeatures names =>
    let count := names.length
    let list := String.intercalate ", " names
    s!"Low-diversity features ({count}): {list}"
  | .diversityAdvice => "Consider running diverse workloads during learning phase"
  | .uniformFeatures count =>
    s!"{count}/{featureCount} features have CV < 0.01, training data may be too uniform"
  | .modelsTrained rows diverse =>
    let verdict := if diverse then "OK" else "LOW"
    s!"Models trained on {rows} samples, {featureCount} features, diversity={verdict}"
  | .rowDropped => "Dropping non-finite vector from retrain buffer"
  | .retraining rows => s!"Periodic retraining on {rows} recent normal samples"
  | .learningComplete rows => s!"Learning complete: {rows} feature vectors collected"
  | .detectionEntered => "Entering detection phase"
  | .status samples anomalies backlog =>
    s!"Status: {samples} samples, {anomalies} anomalies, retrain_buf={backlog}"
  | .anomaly level composite primary secondary reason =>
    "[" ++ level.name ++ "] score=" ++ rounded composite ++ " primary=" ++ rounded primary
      ++ " secondary=" ++ rounded secondary ++ " reason=" ++ reason
  | .recordSize bytes => s!"Wire record size = {bytes} bytes"
  | .learningEntered target => s!"Entering learning phase (collecting {target} samples)"
  | .shutdownComplete samples anomalies =>
    s!"Shutdown complete. total={samples}, anomalies={anomalies}"
  | .staleSocketRemoved path => "Removed stale socket " ++ quotedPath path
  | .listening path => "Listening on " ++ quotedPath path
  | .starting => "CPU Guardian detection engine starting"
  | .configLoaded path => "Loaded config from " ++ quotedPath path
  | .configUnreadable path reason =>
    "Failed to load config " ++ quotedPath path ++ ": " ++ reason ++ ", using defaults"
  | .configMissing => "No config file found, using defaults"
  | .configSummary c =>
    let samples := c.learning.samples
    let buffer := c.retrain.bufferCapacity
    s!"Config: learning_samples={samples}, retrain_interval=" ++ number c.retrain.intervalSecs
      ++ s!"s, retrain_buffer={buffer}, models=" ++ c.ensemble.primary.name ++ "/"
      ++ c.ensemble.secondary.name ++ " (weight " ++ number c.ensemble.primaryWeight ++ ")"
  | .shutdownSignal => "Shutdown signal received"

/-- Whether an entry is shown: details only when asked for. -/
def isShown (verbose : Bool) (e : JournalEntry) : Bool := verbose || e.severity != .debug

/-- The entry as a line. -/
def line (e : JournalEntry) : String := e.severity.name ++ " " ++ e.message

end JournalEntry

end CounterWatch
