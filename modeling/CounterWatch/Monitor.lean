import CounterWatch.Alert
import CounterWatch.Detector
import CounterWatch.Feature.Extractor
import CounterWatch.Sample.Wire

/-!
# The monitor

What happens to datagrams: each full record becomes a feature vector, which is collected while the
monitor learns and judged once it has learnt. The monitor is a function from a state and an event to
a new state, an alert if there is one, and the effects of the step in their order.

* `Monitor.step` handles one event.
* `Monitor.reactions` handles events one after the other, and `Monitor.run` is the state that they
  lead to.
-/

namespace CounterWatch

/-- Whether rows are collected or judged. -/
inductive Phase where
  | learning
  | detection
  deriving DecidableEq, Repr

/-- What the monitor reacts to. -/
inductive Event where
  /-- A datagram has come in. -/
  | datagram (bytes : List UInt8)
  /-- For a while none has. -/
  | tick
  deriving DecidableEq, Repr

/-- What a step does to the world. -/
inductive Effect where
  /-- The line of an alert goes to the output. -/
  | alert (line : String)
  /-- An entry goes to the journal. -/
  | journal (entry : JournalEntry)

namespace Effect

/-- The lines that go to the output. -/
def alertLines (effects : List Effect) : List String :=
  effects.filterMap fun
    | .alert line => some line
    | .journal _ => none

/-- The entries that go to the journal. -/
def entries (effects : List Effect) : List JournalEntry :=
  effects.filterMap fun
    | .alert _ => none
    | .journal entry => some entry

end Effect

/-- The state between events. -/
structure Monitor where
  extractor : Extractor Float := .initial
  detector : Detector Float
  phase : Phase := .learning
  /-- The rows collected so far. -/
  learning : Backlog (FeatureVector Float) := .empty
  /-- How many rows are collected. -/
  target : Nat
  /-- How many full records have come in. -/
  samples : Nat := 0
  /-- How many of them were judged anomalies. -/
  anomalies : Nat := 0

/-- The outcome of a step. -/
structure Reaction where
  monitor : Monitor
  alert : Option Alert := none
  effects : List Effect := []

namespace Monitor

/-- A normal row makes an entry about the state whenever the count of samples is a multiple of
this. -/
def statusEvery : Nat := 1000

/-- The monitor at its start. -/
def initial (config : Config) (settings : Settings Float) : Monitor :=
  { detector := .ofSettings settings, target := config.learning.samples }

/-- A row while the monitor learns. It is collected once the windows were full before it. With
enough rows the models are trained, and the monitor goes over to detection whether or not that gave
models. -/
def learn (m : Monitor) (now : Moment) (row : FeatureVector Float) : Reaction :=
  let learning := if Extractor.defaultWindow < m.samples then m.learning.add row else m.learning
  if learning.length < m.target then { monitor := { m with learning } }
  else
    let training := m.detector.train now learning.toList
    let entries : List JournalEntry :=
      .learningComplete learning.length :: training.entries ++ [.detectionEntered]
    { monitor := { m with detector := training.detector, learning := .empty, phase := .detection }
      effects := entries.map .journal }

/-- A row that is judged: a normal one goes to the backlog, any other makes an alert. -/
def detect (m : Monitor) (timestamp : UInt64) (row : FeatureVector Float) : Reaction :=
  let p := m.detector.predict row
  if p.level = .normal then
    let (detector, entries) := m.detector.addNormal row
    let status := if m.samples % statusEvery = 0 then
      [.status m.samples m.anomalies detector.backlog.length] else []
    { monitor := { m with detector }, effects := (entries ++ status).map .journal }
  else
    let reason := Reason.classify row
    let alert := Alert.ofPrediction p timestamp reason
    { monitor := { m with anomalies := m.anomalies + 1 }
      alert := some alert
      effects := [.alert alert.line,
        .journal (.anomaly p.level p.composite p.primaryScore p.secondaryScore reason)] }

/-- The models trained again if that is due. -/
def retrain (m : Monitor) (now : Moment) : Reaction :=
  let training := m.detector.maybeRetrain now
  { monitor := { m with detector := training.detector }
    effects := training.entries.map .journal }

/-- The reaction to a full record. -/
def observe (m : Monitor) (now : Moment) (sample : Sample) : Reaction :=
  let rates := sample.rates
  let (row, extractor) :=
    m.extractor.push rates.cacheMiss.toFloat rates.branchMiss.toFloat rates.ipc.toFloat
  let m := { m with extractor, samples := m.samples + 1 }
  match m.phase with
  | .learning => m.learn now row
  | .detection =>
    let judged := m.detect sample.timestamp row
    let retrained := judged.monitor.retrain now
    { retrained with alert := judged.alert, effects := judged.effects ++ retrained.effects }

/-- The reaction to an event. A datagram that holds no record changes nothing. -/
def step (m : Monitor) (now : Moment) : Event → Reaction
  | .datagram bytes =>
    match Sample.decode bytes with
    | .error _ => { monitor := m }
    | .ok sample => m.observe now sample
  | .tick => m.retrain now

/-- The reactions to some events at one moment, one after the other. -/
def reactions (m : Monitor) (now : Moment) : List Event → List Reaction
  | [] => []
  | event :: rest =>
    let reaction := m.step now event
    reaction :: reaction.monitor.reactions now rest

/-- The monitor after some events at one moment. -/
def run (m : Monitor) (now : Moment) (events : List Event) : Monitor :=
  events.foldl (fun m event => (m.step now event).monitor) m

/-- The monitor that some reactions leave behind. -/
def after (m : Monitor) (reactions : List Reaction) : Monitor :=
  (reactions.getLast?.map Reaction.monitor).getD m

/-- The reactions to some events lead to the state that the events lead to. -/
theorem after_reactions (m : Monitor) (now : Moment) (events : List Event) :
    m.after (m.reactions now events) = m.run now events := by
  induction events generalizing m with
  | nil => rfl
  | cons event rest ih =>
    rw [run, List.foldl_cons, ← run, ← ih]
    cases rest <;> simp [after, reactions, List.getLast?_cons]

end Monitor

end CounterWatch
