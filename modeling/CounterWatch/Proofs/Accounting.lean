import CounterWatch.Proofs.AlertLine
import CounterWatch.Proofs.Step
import CounterWatch.Proofs.WireRecord
import Mathlib.Algebra.Group.Nat.Defs
import Mathlib.Data.List.Forall2
import Mathlib.Logic.Basic

/-!
# Accounting

A full record that comes in while the monitor detects is either reported or absorbed, never both,
and nothing else is ever reported.

* `Monitor.Reports` and `Monitor.Absorbs` say what the one and the other come to. Each leaves its
  mark on the level of the prediction, so that at most one of them holds
  (`Reports.not_absorbs`), and a level other than normal decides for the first
  (`reports_of_ne_normal`, `absorbs_of_normal`).
* The count of anomalies grows with the alerts returned in every step (`anomalies_step`), and so
  along a history (`anomalies_replay`). What is printed are the texts of the alerts
  (`written_replay`).
-/

namespace CounterWatch

/-! ## The timestamp of a record -/

/-- The timestamp of a record is what its first eight bytes say, lowest first. -/
theorem Sample.timestamp_of_decode {bytes : List UInt8} {s : Sample}
    (h : Sample.decode bytes = .ok s) : s.timestamp.toNat = ofLittleEndian (bytes.take 8) := by
  unfold Sample.decode at h
  split_ifs at h with short
  have bound : ofLittleEndian (bytes.take 8) < 2 ^ 64 := by
    refine Nat.lt_of_lt_of_le (ofLittleEndian_lt _) ?_
    have width : (bytes.take 8).length ≤ 8 := List.length_take_le 8 bytes
    exact Nat.pow_le_pow_right (n := 256) (by decide) width
  obtain rfl := Except.ok.inj h
  exact (UInt64.toNat_ofNat' ..).trans (Nat.mod_eq_of_lt bound)

namespace Monitor

/-! ## Reported or absorbed -/

/-- A row is reported: it is judged a warning or critical by the models in place before the step,
counted, returned and printed, as one line that is the text of the alert. It is not offered to the
backlog, and at most the training follows that was due anyway. -/
structure Reports (m : Monitor) (now : Moment) (s : Sample) (row : FeatureVector Float)
    (r : Reaction) (alert : Alert) : Prop where
  abnormal : (m.detector.predict row).level = .warning ∨ (m.detector.predict row).level = .critical
  returned : r.alert = some alert
  printed : Effect.alertLines r.effects = [alert.line]
  text : alert.IsWrittenAs alert.line
  level : alert.level = (m.detector.predict row).level
  timestamp : alert.timestamp = s.timestamp
  both : alert.agreement = .both ↔ alert.level = .critical
  single : alert.agreement = .single ↔ alert.level = .warning
  reason : alert.reason = Reason.classify row
  anomalies : r.monitor.anomalies = m.anomalies + 1
  detector : r.monitor.detector = (m.detector.maybeRetrain now).detector

/-- A row is absorbed: it is judged normal by the models in place before the step, and nothing is
counted, returned or printed. A finite row is put at the end of the backlog, any other row is
dropped, and only then follows the training, if one is due. -/
structure Absorbs (m : Monitor) (now : Moment) (row : FeatureVector Float) (r : Reaction) :
    Prop where
  normal : (m.detector.predict row).level = .normal
  returned : r.alert = none
  printed : Effect.alertLines r.effects = []
  anomalies : r.monitor.anomalies = m.anomalies
  finite : row.isFinite = true →
    ∃ backlog : Backlog (FeatureVector Float),
      backlog.toList = (if m.detector.settings.bufferCapacity ≤ m.detector.backlog.length
        then m.detector.backlog.toList.drop 1 else m.detector.backlog.toList) ++ [row] ∧
      r.monitor.detector = ({ m.detector with backlog }.maybeRetrain now).detector
  notFinite : row.isFinite = false →
    r.monitor.detector = (m.detector.maybeRetrain now).detector

variable {m : Monitor} (now : Moment) {s : Sample}

theorem Reports.not_absorbs {now : Moment} {row : FeatureVector Float} {r : Reaction} {alert : Alert}
    (h : Reports m now s row r alert) : ¬ Absorbs m now row r := by
  intro absorbed
  have returned := h.returned
  rw [absorbed.returned] at returned
  cases returned

section

variable (detection : m.phase = .detection)

include detection

theorem reports_of_ne_normal
    (h : (m.detector.predict (m.extractor.pushSample s).1).level ≠ .normal) :
    ∃ alert, Reports m now s (m.extractor.pushSample s).1 (m.observe now s) alert := by
  have report : m.report? s.timestamp (m.extractor.pushSample s).1
      = some (.ofPrediction (m.detector.predict (m.extractor.pushSample s).1) s.timestamp
          (Reason.classify (m.extractor.pushSample s).1)) := if_neg h
  have alert := alert_observe now detection s
  rw [report] at alert
  have absorb : m.detector.absorb (m.extractor.pushSample s).1 = m.detector := if_neg h
  have monitor := monitor_observe now detection s
  rw [report, absorb] at monitor
  refine ⟨_, {
    abnormal := ?_
    returned := alert
    printed := by
      rw [alertLines_observe now detection, alert]
      rfl
    text := Alert.isWrittenAs_line _
    level := rfl
    timestamp := rfl
    both := ?_
    single := ?_
    reason := rfl
    anomalies := by rw [monitor]; rfl
    detector := by rw [monitor] }⟩
  -- what is left is about the level alone
  · generalize (m.detector.predict (m.extractor.pushSample s).1).level = level at h
    cases level with
    | normal => exact absurd rfl h
    | warning => exact .inl rfl
    | critical => exact .inr rfl
  · simp only [Alert.ofPrediction]
    cases (m.detector.predict (m.extractor.pushSample s).1).level <;> simp [Agreement.ofLevel]
  · simp only [Alert.ofPrediction]
    cases (m.detector.predict (m.extractor.pushSample s).1).level <;> simp [Agreement.ofLevel]

theorem absorbs_of_normal
    (h : (m.detector.predict (m.extractor.pushSample s).1).level = .normal) :
    Absorbs m now (m.extractor.pushSample s).1 (m.observe now s) := by
  have report : m.report? s.timestamp (m.extractor.pushSample s).1 = none := if_pos h
  have alert := alert_observe now detection s
  rw [report] at alert
  have monitor := monitor_observe now detection s
  rw [report, Detector.absorb_eq] at monitor
  refine {
    normal := h
    returned := alert
    printed := by
      rw [alertLines_observe now detection, alert]
      rfl
    anomalies := by rw [monitor]; rfl
    finite := fun finite => ?_
    notFinite := fun notFinite => ?_ }
  · have kept : m.detector.kept? (m.extractor.pushSample s).1
        = some (m.extractor.pushSample s).1 := if_pos ⟨h, finite⟩
    refine ⟨m.detector.backlog.push m.detector.settings.bufferCapacity
      (m.extractor.pushSample s).1, ?_, ?_⟩
    · rw [Backlog.toList_push, Backlog.length_toList]
    · rw [monitor, kept]
      rfl
  · have kept : m.detector.kept? (m.extractor.pushSample s).1 = none := by
      refine if_neg fun both => ?_
      rw [notFinite] at both
      cases both.2
    rw [monitor, kept]
    rfl

/-- A sample in detection is reported or absorbed. -/
theorem reports_or_absorbs (s : Sample) :
    Xor (∃ alert, Reports m now s (m.extractor.pushSample s).1 (m.observe now s) alert)
      (Absorbs m now (m.extractor.pushSample s).1 (m.observe now s)) := by
  by_cases h : (m.detector.predict (m.extractor.pushSample s).1).level = .normal
  · have absorbed : Absorbs m now (m.extractor.pushSample s).1 (m.observe now s) :=
      absorbs_of_normal now detection h
    exact .inr ⟨absorbed, fun ⟨_, reported⟩ => reported.not_absorbs absorbed⟩
  · obtain ⟨alert, reported⟩ := reports_of_ne_normal now detection h
    exact .inl ⟨⟨alert, reported⟩, reported.not_absorbs⟩

end

/-! ## The count of anomalies -/

/-- In a step the count of anomalies grows by the alerts returned, and they are what is printed. -/
theorem anomalies_step (m : Monitor) (now : Moment) (event : Event) :
    (m.step now event).monitor.anomalies
        = m.anomalies + (m.step now event).alert.toList.length ∧
      Effect.alertLines (m.step now event).effects
        = (m.step now event).alert.toList.map Alert.line := by
  rcases m.step_cases now event with ⟨-, same | again⟩ | ⟨s, -, observed⟩
  · rw [same]
    exact ⟨rfl, rfl⟩
  · rw [again]
    exact ⟨rfl, Effect.alertLines_map_journal _⟩
  · rw [observed]
    cases phase : m.phase with
    | learning =>
      rcases Nat.lt_or_ge (m.collected s).length m.target with few | enough
      · rw [observe_of_lt now phase few]
        exact ⟨rfl, rfl⟩
      · rw [observe_of_le now phase enough]
        exact ⟨rfl, Effect.alertLines_map_journal _⟩
    | detection =>
      refine ⟨?_, alertLines_observe now phase s⟩
      rw [monitor_observe now phase, alert_observe now phase]

theorem anomalies_replay (m : Monitor) (h : History) :
    (m.replay h).anomalies = m.anomalies + (m.alerts h).length ∧
      m.lines h = (m.alerts h).map Alert.line := by
  induction h using List.reverseRecOn with
  | nil => exact ⟨rfl, rfl⟩
  | append_singleton past entry ih =>
    obtain ⟨now, event⟩ := entry
    obtain ⟨count, printed⟩ := ih
    obtain ⟨counts, prints⟩ := (m.replay past).anomalies_step now event
    rw [replay_concat, alerts_concat, lines_concat]
    constructor
    · rw [counts, count, List.length_append, Nat.add_assoc]
    · rw [prints, printed, List.map_append]

/-- The lines printed over a history are the texts of the alerts returned, one by one. -/
theorem written_replay (m : Monitor) (h : History) :
    List.Forall₂ Alert.IsWrittenAs (m.alerts h) (m.lines h) := by
  rw [(m.anomalies_replay h).2, List.forall₂_map_right_iff, List.forall₂_same]
  exact fun alert _ => alert.isWrittenAs_line

/-- **Detection accounts for every record.** While a monitor detects, each full record is either
reported or absorbed, as the models in place before it decide, and never both. Either way the record
is counted and there is at most one training, afterwards. Over a whole life the count of anomalies
is the number of alerts returned, and their lines are all that is printed, each of them the text of
its alert. -/
theorem detection_accounts_for_records (config : Config) (settings : Settings Float)
    (past : History) :
    let start := initial config settings
    let m := start.replay past
    (m.phase = .detection → ∀ (now : Moment) (bytes : List UInt8), 68 ≤ bytes.length →
      ∃ s, Sample.decode bytes = .ok s ∧ s.timestamp.toNat = ofLittleEndian (bytes.take 8) ∧
        let row := (m.extractor.pushSample s).1
        let r := m.step now (.datagram bytes)
        Xor (∃ alert, Reports m now s row r alert) (Absorbs m now row r) ∧
        r.monitor.samples = m.samples + 1 ∧ Effect.trainings r.effects ≤ 1) ∧
    m.anomalies = (start.alerts past).length ∧
    start.lines past = (start.alerts past).map Alert.line ∧
    List.Forall₂ Alert.IsWrittenAs (start.alerts past) (start.lines past) := by
  intro start m
  obtain ⟨anomalies, printed⟩ := start.anomalies_replay past
  refine ⟨fun detection now bytes long => ?_, ?_, printed, start.written_replay past⟩
  · have record : Event.isRecord (.datagram bytes) = true := decide_eq_true long
    obtain ⟨s, sample⟩ := Event.isRecord_iff.1 record
    have decoded : Sample.decode bytes = .ok s := by
      cases h : Sample.decode bytes with
      | error e => simp [Event.sample?, h, Except.toOption] at sample
      | ok t => simpa [Event.sample?, h, Except.toOption] using sample
    refine ⟨s, decoded, Sample.timestamp_of_decode decoded, ?_⟩
    intro row r
    have observed : r = m.observe now s := m.step_of_sample now sample
    rw [observed]
    refine ⟨reports_or_absorbs now detection s, (m.frame_observe now s).samples, ?_⟩
    rw [trainings_observe now detection]
    split_ifs <;> omega
  · rw [anomalies]
    exact Nat.zero_add _

/-- A monitor that is to learn from no rows detects from its second record on, without models: a
record of zeros is absorbed. -/
theorem record_of_zeros_is_absorbed :
    let bytes : List UInt8 := List.replicate 68 0
    let m := (initial { learning := { samples := 0 } } .standard).replay [(0, .datagram bytes)]
    let r := m.step 0 (.datagram bytes)
    m.phase = .detection ∧ 68 ≤ bytes.length ∧ m.anomalies = 0 ∧
      ∃ s, Sample.decode bytes = .ok s ∧ Absorbs m 0 (m.extractor.pushSample s).1 r ∧
        r.monitor.samples = m.samples + 1 := by
  intro bytes m r
  have detection : m.phase = .detection := rfl
  have long : 68 ≤ bytes.length := by decide
  obtain ⟨step, anomalies, -⟩ := detection_accounts_for_records
    { learning := { samples := 0 } } .standard [(0, .datagram bytes)]
  obtain ⟨s, decoded, -, decided, samples, -⟩ := step detection 0 bytes long
  have normal : (m.detector.predict (m.extractor.pushSample s).1).level = .normal := rfl
  have absorbed : Absorbs m 0 (m.extractor.pushSample s).1 r := by
    rcases decided with ⟨⟨alert, reported⟩, -⟩ | ⟨absorbed, -⟩
    · have abnormal := reported.abnormal
      rw [normal] at abnormal
      simp at abnormal
    · exact absorbed
  exact ⟨detection, long, anomalies, s, decoded, absorbed, samples⟩

end Monitor

end CounterWatch
