import CounterWatch.Proofs.History
import CounterWatch.Proofs.Training

/-!
# Steps

What one event can do to a monitor: a datagram without a record does nothing, an idle spell trains
again if that is due (`step_cases`), and a full record is collected (`observe_of_lt`), ends the
learning (`observe_of_le`), or is judged (`monitor_observe`, `alert_observe`,
`alertLines_observe`).

* `Monitor.Frame` is what every step does alike (`frame_step`), and so a history (`extractor_replay`,
  `samples_replay`, `settings_replay`).
* `Monitor.kept?` is the row that a monitor keeps of an event, and `Monitor.kept` the rows kept
  along a history: the finite rows that were judged normal.
* `detector_step` says all that a step does to the detector once the monitor detects.
-/

namespace CounterWatch

/-! ## Effects -/

namespace Effect

@[simp] theorem alertLines_append (first later : List Effect) :
    alertLines (first ++ later) = alertLines first ++ alertLines later :=
  List.filterMap_append

@[simp] theorem alertLines_map_journal (entries : List JournalEntry) :
    alertLines (entries.map .journal) = [] := by
  simp [alertLines, List.filterMap_map]

@[simp] theorem entries_append (first later : List Effect) :
    entries (first ++ later) = entries first ++ entries later :=
  List.filterMap_append

@[simp] theorem entries_map_journal (es : List JournalEntry) : entries (es.map .journal) = es := by
  simp [entries, List.filterMap_map]

/-- How many trainings some effects tell of, by their outcomes. -/
def trainings (effects : List Effect) : Nat := (entries effects).countP JournalEntry.isOutcome

@[simp] theorem trainings_append (first later : List Effect) :
    trainings (first ++ later) = trainings first + trainings later := by
  simp [trainings, List.countP_append]

theorem trainings_map_journal (es : List JournalEntry) :
    trainings (es.map .journal) = es.countP JournalEntry.isOutcome := by
  rw [trainings, entries_map_journal]

end Effect

namespace Monitor

variable (m : Monitor) (now : Moment)

/-! ## The kinds of steps -/

theorem step_of_sample {event : Event} {s : Sample} (h : event.sample? = some s) :
    m.step now event = m.observe now s := by
  cases event with
  | tick => cases h
  | datagram bytes =>
    simp only [Event.sample?] at h
    cases decoded : Sample.decode bytes with
    | error e => simp [decoded, Except.toOption] at h
    | ok t =>
      obtain rfl : t = s := by simpa [decoded, Except.toOption] using h
      simp [step, decoded]

theorem step_of_short {bytes : List UInt8} (h : bytes.length < Sample.wireSize) :
    m.step now (.datagram bytes) = { monitor := m } := by
  simp [step, Sample.decode, h]

/-- A step ignores its event, trains again, or observes a sample. -/
theorem step_cases (event : Event) :
    (event.sample? = none ∧ (m.step now event = { monitor := m } ∨
      m.step now event = m.retrain now)) ∨
    ∃ s, event.sample? = some s ∧ m.step now event = m.observe now s := by
  cases event with
  | tick => exact .inl ⟨rfl, .inr rfl⟩
  | datagram bytes =>
    by_cases short : bytes.length < Sample.wireSize
    · exact .inl ⟨Event.sample?_of_short short, .inl (m.step_of_short now short)⟩
    · have long : Event.isRecord (.datagram bytes) = true := decide_eq_true (Nat.not_lt.1 short)
      obtain ⟨s, h⟩ := Event.isRecord_iff.1 long
      exact .inr ⟨s, h, m.step_of_sample now h⟩

/-- Without models there is nothing to train again. -/
theorem retrain_of_untrained {m : Monitor} (h : m.detector.trained = none) (now : Moment) :
    m.retrain now = { monitor := m } := by
  simp [retrain, Detector.maybeRetrain_of_not_due (Detector.not_retrainDue_of_untrained h now)]

/-- Without models nothing comes of an event without a record. -/
theorem step_of_untrained {m : Monitor} (h : m.detector.trained = none) (now : Moment)
    {event : Event} (none : event.sample? = none) : m.step now event = { monitor := m } := by
  rcases m.step_cases now event with ⟨-, same | again⟩ | ⟨s, some, -⟩
  · exact same
  · rw [again, retrain_of_untrained h]
  · rw [none] at some
    cases some

/-- The monitor with a sample counted and its rates in the windows. -/
def counted (s : Sample) : Monitor :=
  { m with extractor := (m.extractor.pushSample s).2, samples := m.samples + 1 }

/-! ## Learning -/

/-- The rows collected once a sample has come in: its row is one of them if the windows were full
before it. -/
def collected (s : Sample) : Backlog (FeatureVector Float) :=
  if Extractor.defaultWindow < m.samples + 1 then m.learning.add (m.extractor.pushSample s).1
  else m.learning

section

variable {m} (learning : m.phase = .learning) {s : Sample}

include learning

theorem observe_of_lt (few : (m.collected s).length < m.target) :
    m.observe now s = { monitor := { m.counted s with learning := m.collected s } } := by
  cases m
  subst learning
  exact if_pos few

theorem observe_of_le (enough : m.target ≤ (m.collected s).length) :
    m.observe now s =
      let training := m.detector.train now (m.collected s).toList
      let entries : List JournalEntry :=
        .learningComplete (m.collected s).length :: training.entries ++ [.detectionEntered]
      { monitor := { m.counted s with
          detector := training.detector, learning := .empty, phase := .detection }
        effects := entries.map .journal } := by
  cases m
  subst learning
  exact if_neg (Nat.not_lt.2 enough)

end

/-! ## Detection -/

/-- The alert on a row, if it is not judged normal. -/
def report? (timestamp : UInt64) (row : FeatureVector Float) : Option Alert :=
  let p := m.detector.predict row
  if p.level = .normal then none
  else some (.ofPrediction p timestamp (Reason.classify row))

section

variable (timestamp : UInt64) (row : FeatureVector Float)

theorem monitor_detect :
    (m.detect timestamp row).monitor = { m with
      detector := m.detector.absorb row
      anomalies := m.anomalies + (m.report? timestamp row).toList.length } := by
  by_cases normal : (m.detector.predict row).level = .normal <;>
    simp [detect, report?, Detector.absorb, normal]

theorem alert_detect : (m.detect timestamp row).alert = m.report? timestamp row := by
  by_cases normal : (m.detector.predict row).level = .normal <;> simp [detect, report?, normal]

theorem alertLines_detect :
    Effect.alertLines (m.detect timestamp row).effects
      = (m.report? timestamp row).toList.map Alert.line := by
  by_cases normal : (m.detector.predict row).level = .normal
  · simp [detect, report?, normal, -List.map_append]
  · simp [detect, report?, normal, Effect.alertLines]

/-- Judging a row trains nothing. -/
theorem trainings_detect : Effect.trainings (m.detect timestamp row).effects = 0 := by
  by_cases normal : (m.detector.predict row).level = .normal
  · simp only [detect, normal, if_true, Effect.trainings_map_journal, List.countP_append,
      Detector.addNormal]
    split_ifs <;> rfl
  · simp [detect, normal, Effect.trainings, Effect.entries, JournalEntry.isOutcome]

end

section

variable {m} (detection : m.phase = .detection) (s : Sample)

include detection

/-- A sample in detection is judged, and then the models are trained again if that is due. -/
theorem observe_of_detection :
    m.observe now s =
      let judged := (m.counted s).detect s.timestamp (m.extractor.pushSample s).1
      let retrained := judged.monitor.retrain now
      { retrained with alert := judged.alert, effects := judged.effects ++ retrained.effects } := by
  cases m
  subst detection
  rfl

theorem monitor_observe :
    (m.observe now s).monitor = { m.counted s with
      anomalies :=
        m.anomalies + (m.report? s.timestamp (m.extractor.pushSample s).1).toList.length
      detector :=
        ((m.detector.absorb (m.extractor.pushSample s).1).maybeRetrain now).detector } := by
  rw [observe_of_detection now detection]
  simp only [retrain, monitor_detect]
  rfl

theorem alert_observe :
    (m.observe now s).alert = m.report? s.timestamp (m.extractor.pushSample s).1 := by
  rw [observe_of_detection now detection]
  exact (m.counted s).alert_detect s.timestamp _

/-- What is printed is the line of what is returned. -/
theorem alertLines_observe :
    Effect.alertLines (m.observe now s).effects
      = (m.observe now s).alert.toList.map Alert.line := by
  rw [observe_of_detection now detection]
  simp only [Effect.alertLines_append, alertLines_detect, alert_detect, retrain,
    Effect.alertLines_map_journal, List.append_nil]

/-- At most one training goes with a sample in detection, after it is judged. -/
theorem trainings_observe :
    Effect.trainings (m.observe now s).effects
      = if (m.detector.absorb (m.extractor.pushSample s).1).retrainDue now then 1 else 0 := by
  rw [observe_of_detection now detection]
  simp only [Effect.trainings_append, trainings_detect, retrain, monitor_detect,
    Effect.trainings_map_journal, Detector.countP_isOutcome_maybeRetrain, Nat.zero_add]
  rfl

end

/-! ## What every step does to the windows and the counts -/

/-- What a step makes of the windows, the count of samples, the target and the settings, whatever
else it does: only a sample counts. -/
structure Frame (sample : Option Sample) (m next : Monitor) : Prop where
  extractor : next.extractor = m.extractor.after sample.toList
  samples : next.samples = m.samples + sample.toList.length
  target : next.target = m.target
  settings : next.detector.settings = m.detector.settings

theorem frame_observe (s : Sample) : Frame (some s) m (m.observe now s).monitor := by
  cases phase : m.phase with
  | learning =>
    rcases Nat.lt_or_ge (m.collected s).length m.target with few | enough
    · rw [observe_of_lt now phase few]
      exact ⟨rfl, rfl, rfl, rfl⟩
    · rw [observe_of_le now phase enough]
      exact ⟨rfl, rfl, rfl, m.detector.settings_train now _⟩
  | detection =>
    rw [monitor_observe now phase]
    refine ⟨rfl, rfl, rfl, ?_⟩
    simp only [Detector.settings_maybeRetrain, Detector.settings_absorb]

theorem frame_step (event : Event) : Frame event.sample? m (m.step now event).monitor := by
  rcases m.step_cases now event with ⟨none, same | again⟩ | ⟨s, some, observed⟩
  · rw [same, none]
    exact ⟨rfl, rfl, rfl, rfl⟩
  · rw [again, none]
    exact ⟨rfl, rfl, rfl, m.detector.settings_maybeRetrain now⟩
  · rw [observed, some]
    exact m.frame_observe now s

theorem extractor_replay (h : History) :
    (m.replay h).extractor = m.extractor.after h.samples := by
  induction h using List.reverseRecOn with
  | nil => rfl
  | append_singleton past entry ih =>
    obtain ⟨now, event⟩ := entry
    rw [replay_concat, (frame_step _ now event).extractor, ih, History.samples_concat,
      Extractor.after_append]

theorem samples_replay (h : History) : (m.replay h).samples = m.samples + h.records := by
  induction h using List.reverseRecOn with
  | nil => rfl
  | append_singleton past entry ih =>
    obtain ⟨now, event⟩ := entry
    rw [replay_concat, (frame_step _ now event).samples, ih, History.records_concat,
      Event.length_toList_sample?, Nat.add_assoc]

theorem settings_replay (h : History) :
    (m.replay h).detector.settings = m.detector.settings := by
  induction h using List.reverseRecOn with
  | nil => rfl
  | append_singleton past entry ih => rw [replay_concat, (frame_step _ _ _).settings, ih]

/-! ## Once the monitor detects -/

/-- The row that a monitor keeps of an event: the row of a full record that comes in while it
detects, if that row is finite and judged normal. -/
def kept? (event : Event) : Option (FeatureVector Float) :=
  if m.phase = .detection then
    event.sample?.bind fun s => m.detector.kept? (m.extractor.pushSample s).1
  else none

/-- The rows kept along a history. -/
def kept (m : Monitor) : History → List (FeatureVector Float)
  | [] => []
  | (now, event) :: rest => (m.kept? event).toList ++ (m.step now event).monitor.kept rest

theorem kept_concat (past : History) (event : Event) :
    m.kept (past ++ [(now, event)]) = m.kept past ++ ((m.replay past).kept? event).toList := by
  induction past generalizing m with
  | nil => simp [kept]
  | cons entry rest ih =>
    rw [List.cons_append, kept, ih, kept, List.append_assoc]
    rfl

section

variable {m} (detection : m.phase = .detection) (event : Event)

include detection

theorem phase_step : (m.step now event).monitor.phase = .detection := by
  rcases m.step_cases now event with ⟨-, same | again⟩ | ⟨s, -, observed⟩
  · rw [same, detection]
  · rw [again]
    exact detection
  · rw [observed, monitor_observe now detection]
    exact detection

theorem learning_step : (m.step now event).monitor.learning = m.learning := by
  rcases m.step_cases now event with ⟨-, same | again⟩ | ⟨s, -, observed⟩
  · rw [same]
  · rw [again]
    rfl
  · rw [observed, monitor_observe now detection]
    rfl

/-- A step in detection leaves the detector alone, or puts the row that it keeps into the backlog
and then trains again if that is due. -/
theorem detector_step :
    (m.kept? event = none ∧ (m.step now event).monitor.detector = m.detector) ∨
      (m.step now event).monitor.detector
        = (((m.kept? event).elim m.detector m.detector.keep).maybeRetrain now).detector := by
  rcases m.step_cases now event with ⟨none, same | again⟩ | ⟨s, some, observed⟩
  · exact .inl ⟨by simp [kept?, none], by rw [same]⟩
  · refine .inr ?_
    rw [again]
    simp [kept?, none, retrain]
  · refine .inr ?_
    rw [observed, monitor_observe now detection, Detector.absorb_eq]
    simp [kept?, some, detection]

end

theorem phase_replay {m : Monitor} (detection : m.phase = .detection) (h : History) :
    (m.replay h).phase = .detection := by
  induction h using List.reverseRecOn with
  | nil => exact detection
  | append_singleton past entry ih =>
    obtain ⟨now, event⟩ := entry
    rw [replay_concat]
    exact phase_step now ih event

end Monitor

end CounterWatch
