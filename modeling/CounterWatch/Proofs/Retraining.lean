import CounterWatch.Proofs.Fitting
import CounterWatch.Proofs.Step
import CounterWatch.Proofs.Usage

/-!
# Training again

To train again empties the backlog before the training is known to work, and nothing would bring its
rows back. Nothing has to: the backlog of a detector that has been used in any way holds finite rows
only, a training is due with more of them than it asks for, and the models can be fitted.

* `Detector.Stocked.tryFit_backlog` says so, and `retraining_is_all_or_nothing` what follows: new
  models and an empty backlog, or nothing at all.
* With an empty backlog nothing is due until enough rows have been added
  (`Detector.Stocked.idle_of_lt`), however often the detector is asked to train again.
-/

namespace CounterWatch

namespace Detector

namespace Stocked

variable {d : Detector Float} {rows : List (FeatureVector Float)} (s : Stocked rows d)

include s

/-- Models of the backlog can be fitted when they are due. -/
theorem tryFit_backlog {now : Moment} (due : d.retrainDue now = true) :
    Trained.tryFit d.settings.primary d.settings.secondary d.backlog.toList
      = .ok (Trained.fit d.settings.primary d.settings.secondary d.backlog.toList) := by
  apply Trained.tryFit_eq
  intro none
  have enough := s.enough_of_due due
  rw [none] at enough
  exact absurd enough (by decide)

/-- With few rows pending or added, to train again and idle spells do nothing. -/
theorem idle_of_lt {u : Usage Float} (few : rows.length + u.added.length < minRetrainRows)
    (now : Moment) :
    (d.after u).maybeRetrain now
      = { detector := d.after u, installed := false, entries := [] } ∧
    ∀ m : Monitor, m.detector = d.after u → m.step now .tick = { monitor := m } := by
  have short := s.length_backlog_after_le u
  have never := not_retrainDue_of_lt (Nat.lt_of_le_of_lt short few) now
  have same := maybeRetrain_of_not_due never
  refine ⟨same, fun m there => ?_⟩
  show m.retrain now = { monitor := m }
  rw [Monitor.retrain, there, same, ← there]
  rfl

end Stocked

/-- **Training again is all or nothing.** However a detector has been used, to train again reports
new models exactly if that was due just before. If it does, no row of the backlog is left out, the
models of all of them can be fitted and are in place, the backlog is empty and one more training is
counted; if it does not, the detector is as it was. After new models, further requests to train
again and idle spells do nothing as long as fewer than 200 finite rows have been added, whatever
else is asked for in between. -/
theorem retraining_is_all_or_nothing (settings : Settings Float) (u : Usage Float)
    (now : Moment) :
    let d := (ofSettings settings).after u
    let r := d.maybeRetrain now
    r.installed = d.retrainDue now ∧
    (r.installed = false → r.detector = d) ∧
    (r.installed = true →
      d.backlog.toList.filter FeatureVector.isFinite = d.backlog.toList ∧
      (∃ models, Trained.tryFit settings.primary settings.secondary d.backlog.toList = .ok models ∧
        r.detector = { d with
          trained := some (models, now), backlog := .empty, trainCount := d.trainCount + 1 }) ∧
      ∀ later : Usage Float, later.added.length < 200 → ∀ time,
        (r.detector.after later).maybeRetrain time
          = { detector := r.detector.after later, installed := false, entries := [] } ∧
        ∀ m : Monitor, m.detector = r.detector.after later →
          m.step time .tick = { monitor := m }) := by
  intro d r
  have s : Stocked ((ofSettings settings).pending [] u) d := (stocked_ofSettings settings).after u
  have installed : r.installed = d.retrainDue now := s.installed_maybeRetrain now
  refine ⟨installed, fun no => ?_, fun yes => ?_⟩
  · rw [installed] at no
    show (d.maybeRetrain now).detector = d
    rw [maybeRetrain_of_not_due no]
  · have due : d.retrainDue now = true := by rw [← installed, yes]
    have same : d.settings = settings := settings_after (ofSettings settings) u
    have models := s.tryFit_backlog due
    have drained : Stocked [] r.detector := by
      have served := s.serve now .maybeRetrain
      rw [drains, if_pos yes] at served
      exact served
    refine ⟨s.filter_backlog, ⟨_, same ▸ models, ?_⟩, fun later few time => ?_⟩
    · rw [← same]
      exact s.detector_maybeRetrain now due
    · apply drained.idle_of_lt
      rw [List.length_nil, Nat.zero_add]
      exact few

end Detector

end CounterWatch
