import CounterWatch.Monitor
import Mathlib.Data.List.Induction

/-!
# Histories

A history is what a monitor meets in its life: events in their order, each with the moment at which
it is handled. This module is the vocabulary in which statements about whole lives are made.

* `Monitor.replay` is the monitor after a history, `Monitor.responses` are its reactions on the way,
  and `Monitor.alerts` and `Monitor.lines` what it returned and printed (`replay_append`,
  `responses_append`). At one fixed moment they are the runs that sessions are made of
  (`replay_map`, `responses_map`).
* `History.samples` are the samples of the full records, `History.records` is their count, and
  `Extractor.rows` are the feature vectors that windows make of samples.
* `Monitor.Throughout` says that something holds of the monitor and the clock at every step.
-/

namespace CounterWatch

/-- Events in their order, each with the moment at which it is handled. -/
abbrev History : Type := List (Moment × Event)

/-! ## The records in a history -/

namespace Event

/-- The sample that an event brings, if it is a datagram with a record. -/
def sample? : Event → Option Sample
  | .datagram bytes => (Sample.decode bytes).toOption
  | .tick => none

/-- Whether an event is a datagram that is long enough for a record. -/
def isRecord : Event → Bool
  | .datagram bytes => Sample.wireSize ≤ bytes.length
  | .tick => false

theorem sample?_of_short {bytes : List UInt8} (h : bytes.length < Sample.wireSize) :
    sample? (.datagram bytes) = none := by
  simp [sample?, Sample.decode, h, Except.toOption]

/-- A datagram has a sample exactly when it is long enough. -/
theorem isSome_sample? (event : Event) : event.sample?.isSome = event.isRecord := by
  cases event with
  | tick => rfl
  | datagram bytes =>
    by_cases h : bytes.length < Sample.wireSize
    · simp [sample?_of_short h, isRecord, h]
    · simp [sample?, Sample.decode, h, Except.toOption, isRecord, Nat.not_lt.1 h]

/-- A datagram that is long enough brings a sample. -/
theorem isRecord_iff {event : Event} : event.isRecord = true ↔ ∃ s, event.sample? = some s := by
  rw [← isSome_sample?, Option.isSome_iff_exists]

theorem length_toList_sample? (event : Event) :
    event.sample?.toList.length = if event.isRecord then 1 else 0 := by
  rw [← isSome_sample?]
  cases event.sample? <;> rfl

end Event

namespace History

/-- The samples of the full records, in order. -/
def samples (h : History) : List Sample := h.filterMap fun entry => entry.2.sample?

/-- The count of datagrams that are long enough for a record. -/
def records (h : History) : Nat := h.countP fun entry => entry.2.isRecord

@[simp] theorem samples_nil : samples [] = [] := rfl

theorem samples_append (past later : History) :
    samples (past ++ later) = samples past ++ samples later :=
  List.filterMap_append

theorem samples_concat (past : History) (now : Moment) (event : Event) :
    samples (past ++ [(now, event)]) = samples past ++ event.sample?.toList := by
  rw [samples_append]
  cases h : event.sample? <;> simp [samples, h]

/-- An event without a record brings no sample. -/
theorem samples_concat_of_none (past : History) (now : Moment) {event : Event}
    (none : event.sample? = none) : samples (past ++ [(now, event)]) = samples past := by
  rw [samples_concat, none, Option.toList_none, List.append_nil]

theorem records_concat (past : History) (now : Moment) (event : Event) :
    records (past ++ [(now, event)]) = records past + if event.isRecord then 1 else 0 := by
  simp [records, List.countP_append, List.countP_cons]

/-- There are as many samples as datagrams that are long enough. -/
theorem length_samples (h : History) : (samples h).length = records h := by
  induction h using List.reverseRecOn with
  | nil => rfl
  | append_singleton past entry ih =>
    obtain ⟨now, event⟩ := entry
    rw [samples_concat, records_concat, List.length_append, ih, Event.length_toList_sample?]

end History

/-! ## The rows that windows make of samples -/

deriving instance DecidableEq for Window

deriving instance DecidableEq for Extractor

namespace Extractor

/-- The features of a sample, and the windows after it. -/
def pushSample (e : Extractor Float) (s : Sample) : FeatureVector Float × Extractor Float :=
  e.push s.rates.cacheMiss.toFloat s.rates.branchMiss.toFloat s.rates.ipc.toFloat

/-- The windows after some samples. -/
def after (e : Extractor Float) (samples : List Sample) : Extractor Float :=
  samples.foldl (fun e s => (e.pushSample s).2) e

/-- The features of some samples, one after the other. -/
def rows (e : Extractor Float) : List Sample → List (FeatureVector Float)
  | [] => []
  | s :: rest => (e.pushSample s).1 :: (e.pushSample s).2.rows rest

theorem after_append (e : Extractor Float) (past later : List Sample) :
    e.after (past ++ later) = (e.after past).after later :=
  List.foldl_append

theorem rows_append (e : Extractor Float) (past later : List Sample) :
    e.rows (past ++ later) = e.rows past ++ (e.after past).rows later := by
  induction past generalizing e with
  | nil => rfl
  | cons s rest ih => exact congrArg ((e.pushSample s).1 :: ·) (ih (e.pushSample s).2)

@[simp] theorem length_rows (e : Extractor Float) (samples : List Sample) :
    (e.rows samples).length = samples.length := by
  induction samples generalizing e with
  | nil => rfl
  | cons s rest ih => simp only [rows, List.length_cons, ih]

/-- Windows that a sample leaves as they are make one row of it over and over. -/
theorem rows_replicate {e : Extractor Float} {s : Sample} (steady : (e.pushSample s).2 = e)
    (count : Nat) : e.rows (List.replicate count s) = List.replicate count (e.pushSample s).1 := by
  induction count with
  | zero => rfl
  | succ count ih => rw [List.replicate_succ, rows, steady, ih, List.replicate_succ]

end Extractor

/-- The feature vectors of the full records in a history, the windows being empty at its start. -/
def History.rows (h : History) : List (FeatureVector Float) := Extractor.initial.rows h.samples

theorem History.length_rows (h : History) : h.rows.length = h.records := by
  rw [History.rows, Extractor.length_rows, History.length_samples]

/-! ## The monitor along a history -/

namespace Monitor

/-- The monitor after a history. -/
def replay (m : Monitor) (h : History) : Monitor :=
  h.foldl (fun m entry => (m.step entry.1 entry.2).monitor) m

/-- The reactions to a history, one after the other. -/
def responses (m : Monitor) : History → List Reaction
  | [] => []
  | (now, event) :: rest =>
    let reaction := m.step now event
    reaction :: reaction.monitor.responses rest

/-- The alerts returned along a history. -/
def alerts (m : Monitor) (h : History) : List Alert := (m.responses h).filterMap Reaction.alert

/-- The lines printed along a history. -/
def lines (m : Monitor) (h : History) : List String :=
  (m.responses h).flatMap fun reaction => Effect.alertLines reaction.effects

/-- Something holds of the monitor and the clock at every step of a history, before the step. -/
def Throughout (P : Monitor → Moment → Prop) (m : Monitor) : History → Prop
  | [] => True
  | (now, event) :: rest => P m now ∧ (m.step now event).monitor.Throughout P rest

@[simp] theorem replay_nil (m : Monitor) : m.replay [] = m := rfl

theorem replay_append (m : Monitor) (past later : History) :
    m.replay (past ++ later) = (m.replay past).replay later :=
  List.foldl_append

@[simp] theorem replay_concat (m : Monitor) (past : History) (now : Moment) (event : Event) :
    m.replay (past ++ [(now, event)]) = ((m.replay past).step now event).monitor :=
  m.replay_append past [(now, event)]

theorem responses_append (m : Monitor) (past later : History) :
    m.responses (past ++ later) = m.responses past ++ (m.replay past).responses later := by
  induction past generalizing m with
  | nil => rfl
  | cons entry rest ih =>
    obtain ⟨now, event⟩ := entry
    exact congrArg (m.step now event :: ·) (ih (m.step now event).monitor)

theorem responses_concat (m : Monitor) (past : History) (now : Moment) (event : Event) :
    m.responses (past ++ [(now, event)]) = m.responses past ++ [(m.replay past).step now event] :=
  m.responses_append past [(now, event)]

theorem alerts_concat (m : Monitor) (past : History) (now : Moment) (event : Event) :
    m.alerts (past ++ [(now, event)])
      = m.alerts past ++ ((m.replay past).step now event).alert.toList := by
  rw [alerts, responses_concat, List.filterMap_append, ← alerts]
  cases h : ((m.replay past).step now event).alert <;> simp [h]

theorem lines_concat (m : Monitor) (past : History) (now : Moment) (event : Event) :
    m.lines (past ++ [(now, event)])
      = m.lines past ++ Effect.alertLines ((m.replay past).step now event).effects := by
  simp [lines, responses_concat]

theorem throughout_concat {P : Monitor → Moment → Prop} {m : Monitor} {past : History}
    {now : Moment} {event : Event} :
    m.Throughout P (past ++ [(now, event)]) ↔ m.Throughout P past ∧ P (m.replay past) now := by
  induction past generalizing m with
  | nil => simp [Throughout]
  | cons entry rest ih =>
    obtain ⟨before, first⟩ := entry
    rw [List.cons_append, Throughout, ih, Throughout, and_assoc]
    rfl

/-- At one moment, the monitor after a history is the monitor after its events. -/
theorem replay_map (m : Monitor) (now : Moment) (events : List Event) :
    m.replay (events.map (now, ·)) = m.run now events :=
  List.foldl_map

/-- At one moment, the responses to a history are the reactions to its events. -/
theorem responses_map (m : Monitor) (now : Moment) (events : List Event) :
    m.responses (events.map (now, ·)) = m.reactions now events := by
  induction events generalizing m with
  | nil => rfl
  | cons event rest ih => simp only [List.map_cons, responses, reactions, ih]

end Monitor

end CounterWatch
