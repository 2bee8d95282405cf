import CounterWatch.Proofs.Step

/-!
# Learning

The life of a monitor until it detects, counted in full records. Short datagrams and idle spells
change nothing, so that the count of full records alone says where the monitor stands.

* `Monitor.span` is the count of full records that learning takes.
* `Monitor.Collecting` is what holds before that count is reached. A step keeps it
  (`Collecting.step`), and so a monitor collects until then (`collecting_replay`).
* The record that reaches the count ends the learning with one training (`Collecting.complete`), and
  there is no way back (`detection_replay`).
* `Monitor.Enters` is the step into detection, wherever it comes in a history (`enters_iff`), and
  `isTrained_of_enters` says whether it gives models.
-/

namespace CounterWatch

theorem History.rows_concat (past : History) (now : Moment) {event : Event} {s : Sample}
    (h : event.sample? = some s) :
    History.rows (past ++ [(now, event)])
      = past.rows ++ [((Extractor.initial.after past.samples).pushSample s).1] := by
  rw [History.rows, History.samples_concat, h, Extractor.rows_append]
  rfl

namespace Monitor

/-- The count of full records that a monitor learns from. The windows are to be full before a row
is collected, but with no rows to collect the first record ends the learning. -/
def span (target : Nat) : Nat := if target = 0 then 1 else 32 + target

theorem span_pos (target : Nat) : 0 < span target := by
  unfold span
  split_ifs <;> omega

/-- The rows that a history gives a monitor to learn from: those of the full records after the ones
that fill the windows, as many as are asked for. -/
def lesson (target : Nat) (h : History) : List (FeatureVector Float) := (h.rows.drop 32).take target

/-- A monitor that learns and has met a history since its start. -/
structure Collecting (config : Config) (settings : Settings Float) (past : History)
    (m : Monitor) : Prop where
  extractor : m.extractor = Extractor.initial.after past.samples
  detector : m.detector = .ofSettings settings
  phase : m.phase = .learning
  rows : m.learning.toList = past.rows.drop 32
  target : m.target = config.learning.samples
  samples : m.samples = past.records
  anomalies : m.anomalies = 0

theorem collecting_initial (config : Config) (settings : Settings Float) :
    Collecting config settings [] (initial config settings) :=
  ⟨rfl, rfl, rfl, rfl, rfl, rfl, rfl⟩

variable {config : Config} {settings : Settings Float} {past : History}

/-! ## One step -/

namespace Collecting

variable {m : Monitor} (c : Collecting config settings past m) (now : Moment) {event : Event}

include c

theorem untrained : m.detector.trained = none := by
  rw [c.detector]
  rfl

theorem length : m.learning.length = past.records - 32 := by
  rw [← Backlog.length_toList, c.rows, List.length_drop, History.length_rows]

variable {s : Sample} (sample : event.sample? = some s)

include sample

/-- With a sample the collected rows are those of all samples but the first ones. -/
theorem toList_collected :
    (m.collected s).toList = (History.rows (past ++ [(now, event)])).drop 32 := by
  have count : past.rows.length = past.records := past.length_rows
  rw [History.rows_concat past now sample, collected, c.samples, c.extractor]
  by_cases filled : 32 ≤ past.records
  · have counts : Extractor.defaultWindow < past.records + 1 := Nat.lt_succ_of_le filled
    rw [if_pos counts, Backlog.toList_add, c.rows, List.drop_append_of_le_length (count ▸ filled)]
  · -- the windows are not full before the sample, so that no row counts yet
    have counts : ¬ Extractor.defaultWindow < past.records + 1 :=
      fun h => filled (Nat.le_of_lt_succ h)
    rw [if_neg counts, c.rows, List.drop_eq_nil_of_le (by omega), List.drop_eq_nil_of_le]
    rw [List.length_append, List.length_singleton]
    omega

theorem length_collected : (m.collected s).length = past.records + 1 - 32 := by
  have record : event.isRecord = true := Event.isRecord_iff.2 ⟨s, sample⟩
  rw [← Backlog.length_toList, c.toList_collected 0 sample, List.length_drop, History.length_rows,
    History.records_concat, if_pos record]

omit sample

/-- A step that does not reach the end of the learning keeps the monitor collecting, and there is
nothing to see of it. -/
theorem step (few : History.records (past ++ [(now, event)]) < span config.learning.samples) :
    ∃ next, m.step now event = { monitor := next } ∧
      Collecting config settings (past ++ [(now, event)]) next := by
  rw [History.records_concat] at few
  cases sample : event.sample? with
  | none =>
    have samples := History.samples_concat_of_none past now sample
    refine ⟨m, step_of_untrained c.untrained now sample, ?_⟩
    exact {
      extractor := by rw [c.extractor, samples]
      detector := c.detector
      phase := c.phase
      rows := by rw [c.rows, History.rows, History.rows, samples]
      target := c.target
      samples := by rw [c.samples, ← History.length_samples, ← History.length_samples, samples]
      anomalies := c.anomalies }
  | some s =>
    have record : event.isRecord = true := Event.isRecord_iff.2 ⟨s, sample⟩
    rw [if_pos record] at few
    have short : (m.collected s).length < m.target := by
      rw [c.length_collected sample, c.target]
      unfold span at few
      split_ifs at few <;> omega
    rw [m.step_of_sample now sample, observe_of_lt now c.phase short]
    exact ⟨_, rfl, {
      extractor := by
        rw [History.samples_concat, sample, Extractor.after_append, ← c.extractor]
        rfl
      detector := c.detector
      phase := c.phase
      rows := c.toList_collected now sample
      target := c.target
      samples := by
        rw [History.records_concat, if_pos record, ← c.samples]
        rfl
      anomalies := c.anomalies }⟩

/-- The record that reaches the end of the learning: one training on the collected rows, and the
monitor detects. -/
theorem complete (last : past.records + 1 = span config.learning.samples)
    (record : event.isRecord = true) :
    let rows := lesson config.learning.samples (past ++ [(now, event)])
    let training := m.detector.train now rows
    let r := m.step now event
    rows.length = config.learning.samples ∧ r.alert = none ∧
      r.effects = (JournalEntry.learningComplete config.learning.samples :: training.entries ++
        [JournalEntry.detectionEntered]).map .journal ∧
      r.monitor.detector = training.detector ∧ r.monitor.phase = .detection ∧
      r.monitor.learning = .empty ∧ r.monitor.anomalies = 0 := by
  intro rows training r
  obtain ⟨s, sample⟩ := Event.isRecord_iff.1 record
  have length : (m.collected s).length = config.learning.samples := by
    rw [c.length_collected sample]
    unfold span at last
    split_ifs at last <;> omega
  have content : (m.collected s).toList = rows := by
    have whole := c.toList_collected now sample
    have size : ((History.rows (past ++ [(now, event)])).drop 32).length
        = config.learning.samples := by
      rw [← whole, Backlog.length_toList, length]
    rw [whole]
    exact (List.take_of_length_le (Nat.le_of_eq size)).symm
  have enough : m.target ≤ (m.collected s).length := Nat.le_of_eq (by rw [length, c.target])
  have reaction : r = m.observe now s := m.step_of_sample now sample
  rw [observe_of_le now c.phase enough, content, length] at reaction
  rw [reaction]
  exact ⟨by rw [← content, Backlog.length_toList, length], rfl, rfl, rfl, rfl, rfl, c.anomalies⟩

end Collecting

/-! ## Whole histories -/

/-- Until the count is reached the monitor collects, and there is nothing to see of it. -/
theorem collecting_replay (settings : Settings Float)
    (few : History.records past < span config.learning.samples) :
    Collecting config settings past ((initial config settings).replay past) ∧
      ∀ r ∈ (initial config settings).responses past, r.alert = none ∧ r.effects = [] := by
  induction past using List.reverseRecOn with
  | nil => exact ⟨collecting_initial config settings, by simp [responses]⟩
  | append_singleton past entry ih =>
    obtain ⟨now, event⟩ := entry
    have before : History.records past < span config.learning.samples := by
      rw [History.records_concat] at few
      omega
    obtain ⟨c, quiet⟩ := ih before
    obtain ⟨next, step, kept⟩ := c.step now few
    rw [replay_concat, responses_concat, step]
    refine ⟨kept, fun r hr => ?_⟩
    rcases List.mem_append.1 hr with old | new
    · exact quiet r old
    · rw [List.mem_singleton.1 new]
      exact ⟨rfl, rfl⟩

/-- From then on the monitor detects. -/
theorem detection_replay (settings : Settings Float)
    (enough : span config.learning.samples ≤ History.records past) :
    ((initial config settings).replay past).phase = .detection ∧
      ((initial config settings).replay past).learning = .empty := by
  induction past using List.reverseRecOn with
  | nil => exact absurd enough (Nat.not_le.2 (span_pos _))
  | append_singleton past entry ih =>
    obtain ⟨now, event⟩ := entry
    rw [replay_concat]
    by_cases before : span config.learning.samples ≤ History.records past
    · obtain ⟨phase, empty⟩ := ih before
      exact ⟨phase_step now phase event, by rw [learning_step now phase event, empty]⟩
    · -- the count is reached by this very event, which therefore is a record
      rw [History.records_concat] at enough
      have record : event.isRecord = true := by
        by_contra h
        rw [if_neg h] at enough
        omega
      rw [if_pos record] at enough
      obtain ⟨c, -⟩ := collecting_replay settings (Nat.not_le.1 before)
      obtain ⟨-, -, -, -, phase, empty, -⟩ := c.complete now (by omega) record
      exact ⟨phase, empty⟩

/-- **Learning in closed form.** Whatever datagrams and idle spells come in, the count of full
records decides. Below the span the monitor has collected the rows of all of them but the first 32,
has no models, and has neither returned nor said anything. The record that reaches the span makes it
train once, on exactly the rows that were asked for, and detect. From then on it detects with
nothing collected. -/
theorem learning_in_closed_form (config : Config) (settings : Settings Float) (past : History) :
    let m := (initial config settings).replay past
    let seen := past.records
    let rows := config.learning.samples
    m.samples = seen ∧
    (seen < span rows →
      m.phase = .learning ∧ m.learning.length = seen - 32 ∧
      m.learning.toList = past.rows.drop 32 ∧ m.detector.isTrained = false ∧
      m.detector.trainCount = 0 ∧ m.detector.backlog.length = 0 ∧
      ∀ r ∈ (initial config settings).responses past, r.alert = none ∧ r.effects = []) ∧
    (seen + 1 = span rows → ∀ (now : Moment) (event : Event), event.isRecord = true →
      let collected := lesson rows (past ++ [(now, event)])
      let training := m.detector.train now collected
      let r := m.step now event
      collected.length = rows ∧ r.monitor.detector = training.detector ∧
      r.monitor.phase = .detection ∧ r.monitor.learning.length = 0 ∧ r.alert = none ∧
      r.effects = (JournalEntry.learningComplete rows :: training.entries ++
        [JournalEntry.detectionEntered]).map .journal ∧
      Effect.trainings r.effects = 1) ∧
    (span rows ≤ seen → m.phase = .detection ∧ m.learning.length = 0) := by
  intro m seen rows
  refine ⟨?_, fun few => ?_, fun last now event record => ?_, fun enough => ?_⟩
  · rw [samples_replay]
    exact Nat.zero_add _
  · obtain ⟨c, quiet⟩ := collecting_replay settings few
    refine ⟨c.phase, c.length, c.rows, ?_, ?_, ?_, quiet⟩
    · rw [c.detector]
      rfl
    · rw [c.detector]
      rfl
    · rw [c.detector]
      rfl
  · obtain ⟨c, -⟩ := collecting_replay settings (Nat.lt_of_succ_le (Nat.le_of_eq last))
    obtain ⟨length, alert, effects, detector, phase, empty, -⟩ := c.complete now last record
    refine ⟨length, detector, phase, by rw [empty]; rfl, alert, effects, ?_⟩
    have one := m.detector.countP_isOutcome_train now (lesson rows (past ++ [(now, event)]))
    rw [effects, Effect.trainings_map_journal, List.countP_append, List.countP_cons, one]
    rfl
  · obtain ⟨phase, empty⟩ := detection_replay settings enough
    exact ⟨phase, by rw [empty]; rfl⟩

/-! ## The step into detection -/

/-- A monitor starts to detect with an event. -/
structure Enters (m : Monitor) (now : Moment) (event : Event) : Prop where
  learning : m.phase = .learning
  detection : (m.step now event).monitor.phase = .detection

/-- It is the full record that reaches the span. -/
theorem enters_iff {now : Moment} {event : Event} :
    Enters ((initial config settings).replay past) now event ↔
      past.records + 1 = span config.learning.samples ∧ event.isRecord = true := by
  constructor
  · intro h
    have few : past.records < span config.learning.samples := by
      by_contra reached
      have phase := (detection_replay settings (Nat.not_lt.1 reached)).1
      rw [h.learning] at phase
      cases phase
    obtain ⟨c, -⟩ := collecting_replay settings few
    -- a step that keeps the monitor collecting is not the step into detection
    have last : span config.learning.samples ≤ History.records (past ++ [(now, event)]) := by
      by_contra early
      obtain ⟨next, step, kept⟩ := c.step now (Nat.not_le.1 early)
      have phase := h.detection
      rw [step, kept.phase] at phase
      cases phase
    rw [History.records_concat] at last
    split_ifs at last with record
    · exact ⟨by omega, record⟩
    · omega
  · rintro ⟨last, record⟩
    obtain ⟨c, -⟩ := collecting_replay settings (Nat.lt_of_succ_le (Nat.le_of_eq last))
    obtain ⟨-, -, -, -, phase, -⟩ := c.complete now last record
    exact ⟨c.phase, phase⟩

section

variable {now : Moment} {event : Event}
  (h : Enters ((initial config settings).replay past) now event)

include h

/-- What a monitor takes into detection. -/
theorem detector_of_enters :
    (((initial config settings).replay past).step now event).monitor.detector
        = ((Detector.ofSettings settings).train now
            (lesson config.learning.samples (past ++ [(now, event)]))).detector ∧
      (lesson config.learning.samples (past ++ [(now, event)])).length
        = config.learning.samples ∧
      (((initial config settings).replay past).step now event).monitor.anomalies = 0 := by
  obtain ⟨last, record⟩ := enters_iff.1 h
  obtain ⟨c, -⟩ := collecting_replay settings (Nat.lt_of_succ_le (Nat.le_of_eq last))
  obtain ⟨length, -, -, detector, -, -, anomalies⟩ := c.complete now last record
  rw [c.detector] at detector
  exact ⟨detector, length, anomalies⟩

/-- It has models exactly if at least 50 of its collected rows are finite. -/
theorem isTrained_of_enters :
    (((initial config settings).replay past).step now event).monitor.detector.isTrained = true
      ↔ 50 ≤ ((lesson config.learning.samples (past ++ [(now, event)])).filter
          FeatureVector.isFinite).length := by
  rw [(detector_of_enters h).1]
  exact Detector.isTrained_train_iff (.ofSettings settings) rfl now _

end

end Monitor

end CounterWatch
