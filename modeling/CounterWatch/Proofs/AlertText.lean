import CounterWatch.Proofs.NonFinite
import CounterWatch.Proofs.Schedule

/-!
# Printed lines, read back

What a monitor prints is read back as the alert that it returns if the scores are finite. Rounding
makes no finite score of another one, so that the line of a record with an undefined rate is not read
at all where an envelope has judged it.

* `Alert.isFinite_ofPrediction` says what the scores of an alert tell about those of its prediction.
* `Monitor.printed_lines_read_back_iff` says which lines are read back, and which records are printed so
  that they cannot be.
-/

namespace CounterWatch

namespace Alert

theorem isFinite_of_isFinite_round4 {x : Float} (h : (round4 x).isFinite = true) :
    x.isFinite = true := by
  have scaled := Double.isFinite_of_isFinite_div h
  unfold Double.round at scaled
  split at scaled
  case isTrue finite => exact (Double.isFinite_of_isFinite_mul finite).1
  case isFalse undefined => exact absurd scaled undefined

/-- Rounding makes no finite score of another one. -/
theorem isFinite_ofPrediction {p : Prediction Float} {timestamp : UInt64} {reason : String}
    (h : (ofPrediction p timestamp reason).isFinite = true) :
    p.composite.isFinite = true ∧ p.primaryScore.isFinite = true ∧
      p.secondaryScore.isFinite = true := by
  simp only [isFinite, ofPrediction, Bool.and_eq_true] at h
  exact ⟨isFinite_of_isFinite_round4 h.1.1, isFinite_of_isFinite_round4 h.1.2,
    isFinite_of_isFinite_round4 h.2⟩

end Alert

/-- A row starts with the rate of cache misses. -/
theorem Extractor.isFinite_pushSample {e : Extractor Float} {s : Sample}
    (h : s.rates.cacheMiss.toFloat.isFinite = false) : (e.pushSample s).1.isFinite = false := by
  rw [← Bool.not_eq_true] at h ⊢
  exact fun finite => h (Vector.all_eq_true.1 finite 0 (by decide))

namespace Monitor

open Detector

/-- **What a monitor prints is read back as the alert it returns exactly if the scores are finite.**
In every step it prints the line of the alert that it returns, if there is one, and nothing else.
The line of an alert with a score that is not finite is not read at all; with an envelope among the
models every record that makes a row which is not finite leads to such a line. -/
theorem printed_lines_read_back_iff (config : Config) (settings : Settings Float) (past : History)
    (now : Moment) (event : Event) :
    let m := (initial config settings).replay past
    let r := m.step now event
    Effect.alertLines r.effects = r.alert.toList.map Alert.line ∧
    (∀ alert, r.alert = some alert →
      Alert.parse? alert.line = if alert.isFinite = true then some alert else none) ∧
    (settings.primary = .ellipticEnvelope ∨ settings.secondary = .ellipticEnvelope →
      m.phase = .detection → m.detector.isTrained = true → ∀ s, event.sample? = some s →
      (m.extractor.pushSample s).1.isFinite = false →
      ∃ alert, r.alert = some alert ∧ Alert.parse? alert.line = none) := by
  intro m r
  refine ⟨(m.anomalies_step now event).2, fun alert _ => alert.parse?_line, ?_⟩
  intro either detection trained s sample undefined
  have same : m.detector.settings = settings := settings_replay _ past
  have fitted : Fitted m.detector := fitted_replay (fitted_ofSettings settings) past
  rw [← same] at either
  have abnormal := fitted.level_of_not_isFinite either trained undefined
  have returned : r.alert = m.report? s.timestamp (m.extractor.pushSample s).1 := by
    rw [← alert_observe now detection s]
    exact congrArg Reaction.alert (m.step_of_sample now sample)
  rw [report?, if_neg abnormal] at returned
  refine ⟨_, returned, ?_⟩
  rw [Alert.parse?_line, if_neg]
  intro finite
  obtain ⟨-, primary, secondary⟩ := Alert.isFinite_ofPrediction finite
  rcases fitted.scores_of_not_isFinite either trained undefined with h | h
  · rw [primary] at h
    cases h
  · rw [secondary] at h
    cases h

/-- Once a monitor with the standard settings has learned from fifty rows of zeros, a record with an
undefined rate makes it print a line that cannot be read back. -/
theorem undefined_rate_prints_an_unreadable_line :
    let config : Config := { learning := { samples := 50 } }
    let past : History := List.replicate 82 (0, .datagram (List.replicate 68 0))
    let bytes : List UInt8 := List.replicate 56 0 ++ [0, 0, 0xc0, 0x7f] ++ List.replicate 8 0
    let m := (initial config .standard).replay past
    m.phase = .detection ∧ m.detector.isTrained = true ∧
      ∃ alert, (m.step 0 (.datagram bytes)).alert = some alert ∧
        Effect.alertLines (m.step 0 (.datagram bytes)).effects = [alert.line] ∧
        Alert.parse? alert.line = none := by
  intro config past bytes m
  have split : past = List.replicate 81 (0, .datagram (List.replicate 68 0))
      ++ [(0, .datagram (List.replicate 68 0))] := List.replicate_succ'
  have enters : Enters ((initial config .standard).replay
      (List.replicate 81 (0, .datagram (List.replicate 68 0)))) 0
      (.datagram (List.replicate 68 0)) := by
    refine enters_iff.2 ⟨?_, rfl⟩
    decide +kernel +zetaReduce
  have detection : m.phase = .detection := by
    show ((initial config .standard).replay past).phase = .detection
    rw [split, replay_concat]
    exact enters.detection
  have trained : m.detector.isTrained = true := by
    show ((initial config .standard).replay past).detector.isTrained = true
    rw [split, replay_concat, isTrained_of_enters enters]
    exact finite_lesson_of_zeros
  obtain ⟨s, sample⟩ := Event.isRecord_iff.1 (show Event.isRecord (.datagram bytes) = true from rfl)
  have rate : (Event.datagram bytes).sample?.map (·.rates.cacheMiss.toFloat.isFinite) = some false := by
    decide
  have undefined : (m.extractor.pushSample s).1.isFinite = false := by
    rw [sample] at rate
    exact Extractor.isFinite_pushSample (Option.some.inj rate)
  obtain ⟨printed, -, unreadable⟩ :=
    printed_lines_read_back_iff config .standard past 0 (.datagram bytes)
  obtain ⟨alert, returned, unread⟩ := unreadable (.inr rfl) detection trained s sample undefined
  refine ⟨detection, trained, alert, returned, ?_, unread⟩
  rw [printed, returned]
  rfl

end Monitor

end CounterWatch
