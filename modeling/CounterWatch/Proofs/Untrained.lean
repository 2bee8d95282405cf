import CounterWatch.Proofs.Learning

/-!
# Detection without models

A training on too few finite rows leaves no models, but the monitor detects from then on all the
same. Without models every row is normal and nothing is ever trained again, so that such a monitor
says nothing for the rest of its life.

* `Monitor.Blind` is the state of a monitor that detects without models. A step keeps it and is
  silent (`Blind.step`), and so is a history (`blind_replay`).
* A monitor that comes to detect without models is blind (`blind_of_enters`).
-/

namespace CounterWatch

namespace Monitor

/-- A monitor that detects without models and has met a history since it was `start`. -/
structure Blind (start : Monitor) (later : History) (m : Monitor) : Prop where
  phase : m.phase = .detection
  untrained : m.detector.trained = none
  trainCount : m.detector.trainCount = 0
  anomalies : m.anomalies = 0
  settings : m.detector.settings = start.detector.settings
  extractor : m.extractor = start.extractor.after later.samples
  rows : m.detector.backlog.toList
    = ((start.extractor.rows later.samples).filter FeatureVector.isFinite).rtake
        (max 1 start.detector.settings.bufferCapacity)

/-- Nothing is reported without models. -/
theorem report?_of_untrained {m : Monitor} (h : m.detector.trained = none) (timestamp : UInt64)
    (row : FeatureVector Float) : m.report? timestamp row = none := by
  simp [report?, Detector.predict_of_untrained h, Prediction.untrained]

/-- Without models a row that is judged goes to the backlog if it is finite, and nothing else
happens. -/
theorem observe_of_untrained {m : Monitor} (detection : m.phase = .detection)
    (untrained : m.detector.trained = none) (now : Moment) (s : Sample) :
    (m.observe now s).monitor = { m.counted s with
      detector := if (m.extractor.pushSample s).1.isFinite
        then m.detector.keep (m.extractor.pushSample s).1 else m.detector } := by
  rw [monitor_observe now detection, report?_of_untrained untrained, Detector.absorb_eq,
    Detector.kept?_of_untrained untrained]
  split_ifs with finite
  · have due := Detector.not_retrainDue_of_untrained
      (d := m.detector.keep (m.extractor.pushSample s).1) untrained now
    rw [Option.elim_some, Detector.maybeRetrain_of_not_due due]
    rfl
  · have due := Detector.not_retrainDue_of_untrained untrained now
    rw [Option.elim_none, Detector.maybeRetrain_of_not_due due]
    rfl

namespace Blind

variable {start m : Monitor} {later : History}

/-- A step keeps a monitor without models as it is, and nothing is to be seen of it. -/
theorem step (b : Blind start later m) (now : Moment) (event : Event) :
    Blind start (later ++ [(now, event)]) (m.step now event).monitor ∧
      (m.step now event).alert = none ∧ Effect.alertLines (m.step now event).effects = [] := by
  have frame := m.frame_step now event
  have extractor : (m.step now event).monitor.extractor
      = start.extractor.after (History.samples (later ++ [(now, event)])) := by
    rw [frame.extractor, b.extractor, History.samples_concat, Extractor.after_append]
  have settings : (m.step now event).monitor.detector.settings = start.detector.settings := by
    rw [frame.settings, b.settings]
  have phase := phase_step now b.phase event
  cases sample : event.sample? with
  | none =>
    have samples := History.samples_concat_of_none later now sample
    have same := step_of_untrained b.untrained now sample
    rw [same] at extractor settings phase ⊢
    exact ⟨⟨phase, b.untrained, b.trainCount, b.anomalies, settings, extractor,
      by rw [b.rows, samples]⟩, rfl, rfl⟩
  | some s =>
    have observed := m.step_of_sample now sample
    have quiet : (m.observe now s).alert = none := by
      rw [alert_observe now b.phase, report?_of_untrained b.untrained]
    -- all rows since the start are those before this step and the row of this one
    have rows : start.extractor.rows (History.samples (later ++ [(now, event)]))
        = start.extractor.rows later.samples ++ [(m.extractor.pushSample s).1] := by
      rw [History.samples_concat, sample, Extractor.rows_append, ← b.extractor]
      rfl
    rw [observed] at extractor settings phase ⊢
    refine ⟨⟨phase, ?_, ?_, ?_, settings, extractor, ?_⟩, quiet, ?_⟩
    · rw [observe_of_untrained b.phase b.untrained]
      split_ifs <;> exact b.untrained
    · rw [observe_of_untrained b.phase b.untrained]
      split_ifs <;> exact b.trainCount
    · rw [observe_of_untrained b.phase b.untrained]
      exact b.anomalies
    · rw [observe_of_untrained b.phase b.untrained, rows, List.filter_append]
      cases finite : (m.extractor.pushSample s).1.isFinite with
      | true =>
        have pushed := Backlog.toList_push_rtake _ b.rows (m.extractor.pushSample s).1
        rw [← b.settings] at pushed ⊢
        rw [List.filter_singleton, finite]
        exact pushed
      | false =>
        rw [List.filter_singleton, finite, cond_false, List.append_nil]
        exact b.rows
    · rw [alertLines_observe now b.phase, quiet]
      rfl

end Blind

/-- A monitor that detects without models does so for ever, and is silent. -/
theorem blind_replay {start : Monitor} (b : Blind start [] start) (later : History) :
    Blind start later (start.replay later) ∧ start.alerts later = [] ∧ start.lines later = [] := by
  induction later using List.reverseRecOn with
  | nil => exact ⟨b, rfl, rfl⟩
  | append_singleton past entry ih =>
    obtain ⟨now, event⟩ := entry
    obtain ⟨kept, noAlerts, noLines⟩ := ih
    obtain ⟨next, alert, lines⟩ := kept.step now event
    rw [replay_concat, alerts_concat, lines_concat, noAlerts, noLines, alert, lines]
    exact ⟨next, rfl, rfl⟩

variable {config : Config} {settings : Settings Float} {before : History} {now : Moment}
  {event : Event}

/-- A monitor that comes to detect without models is blind. -/
theorem blind_of_enters (h : Enters ((initial config settings).replay before) now event)
    (untrained :
      (((initial config settings).replay before).step now event).monitor.detector.isTrained
        = false) :
    Blind (((initial config settings).replay before).step now event).monitor []
      (((initial config settings).replay before).step now event).monitor := by
  have few : ((lesson config.learning.samples (before ++ [(now, event)])).filter
      FeatureVector.isFinite).length < Detector.minTrainRows := by
    by_contra enough
    rw [(isTrained_of_enters h).2 (Nat.not_lt.1 enough)] at untrained
    cases untrained
  have detector := (detector_of_enters h).1
  rw [Detector.train_of_lt _ few] at detector
  refine ⟨h.detection, ?_, ?_, (detector_of_enters h).2.2, rfl, rfl, ?_⟩
  · rw [detector]
    rfl
  · rw [detector]
    rfl
  · rw [detector, History.samples_nil, Extractor.rows, List.filter_nil, List.rtake_nil]
    rfl

/-- **Detection without models is silent, for good.** When a monitor comes to detect, it has models
exactly if at least 50 of the rows it has collected are finite; fewer than 50 rows are never enough.
If it has none, then whatever comes in later it is never trained, counts no anomaly and returns and
prints no alert, and all that becomes of a finite row is a place in the backlog. -/
theorem detection_without_models_is_silent (config : Config) (settings : Settings Float)
    (before : History) (now : Moment) (event : Event)
    (h : Enters ((initial config settings).replay before) now event) :
    let entered := (((initial config settings).replay before).step now event).monitor
    let collected := lesson config.learning.samples (before ++ [(now, event)])
    (entered.detector.isTrained = true
      ↔ 50 ≤ (collected.filter FeatureVector.isFinite).length) ∧
    (config.learning.samples < 50 → entered.detector.isTrained = false) ∧
    (entered.detector.isTrained = false → ∀ later : History,
      let m := entered.replay later
      m.phase = .detection ∧ m.detector.isTrained = false ∧ m.detector.trainCount = 0 ∧
      m.anomalies = 0 ∧ entered.alerts later = [] ∧ entered.lines later = [] ∧
      m.detector.backlog.toList
        = ((entered.extractor.rows later.samples).filter FeatureVector.isFinite).rtake
            (max 1 settings.bufferCapacity)) := by
  intro entered collected
  refine ⟨isTrained_of_enters h, fun few => ?_, fun untrained later => ?_⟩
  · rw [Bool.eq_false_iff, Ne, isTrained_of_enters h]
    intro enough
    have finite := Nat.le_trans enough (List.length_filter_le FeatureVector.isFinite _)
    rw [(detector_of_enters h).2.1] at finite
    omega
  · have size : entered.detector.settings.bufferCapacity = settings.bufferCapacity := by
      rw [(frame_step _ now event).settings, settings_replay]
      rfl
    obtain ⟨b, alerts, lines⟩ := blind_replay (blind_of_enters h untrained) later
    refine ⟨b.phase, ?_, b.trainCount, b.anomalies, alerts, lines, ?_⟩
    · rw [Detector.isTrained, b.untrained]
      rfl
    · rw [b.rows, size]

/-- A monitor that is to learn from no rows is blind after its first record. -/
theorem learning_from_no_rows_is_silent :
    let start := initial { learning := { samples := 0 } } .standard
    let record : Event := .datagram (List.replicate 68 0)
    let entered := (start.step 0 record).monitor
    Enters start 0 record ∧ entered.detector.isTrained = false ∧
      ∀ later : History, entered.alerts later = [] ∧ (entered.replay later).anomalies = 0 := by
  intro start record entered
  have enters : Enters start 0 record := ⟨rfl, rfl⟩
  obtain ⟨-, blind, silent⟩ := detection_without_models_is_silent _ .standard [] 0 record enters
  have untrained := blind (by decide)
  refine ⟨enters, untrained, fun later => ?_⟩
  obtain ⟨-, -, -, anomalies, alerts, -⟩ := silent untrained later
  exact ⟨alerts, anomalies⟩

end Monitor

end CounterWatch
