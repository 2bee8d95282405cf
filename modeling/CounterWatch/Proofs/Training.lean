import CounterWatch.Detector
import Mathlib.Data.List.DropRight

/-!
# Trainings

What the operations of the detector do, one statement for each way they can go. Later modules use
these and leave the definitions closed.

* A training either leaves the detector as it is (`train_of_lt`) or puts models in place that are
  made of the finite rows alone (`train_of_le`). It says exactly one thing about its outcome
  (`countP_isOutcome_train`), so that outcomes in the journal count trainings.
* Training again does nothing unless it is due (`maybeRetrain_of_not_due`), and is a training on the
  backlog if it is (`detector_maybeRetrain_of_due`).
* `Detector.absorb` is the detector once it has judged a row: `Detector.kept?` is the row that goes
  to the backlog, which holds the last rows of all that went there (`Backlog.toList_push_rtake`).
  A prediction comes from the models in place (`predict_eq`), whenever they were trained.
-/

namespace CounterWatch

/-! ## The backlog -/

namespace Backlog

variable {β : Type}

theorem rtake_concat (n : Nat) (xs : List β) (x : β) :
    (xs ++ [x]).rtake (max 1 n)
      = (if n ≤ (xs.rtake (max 1 n)).length then (xs.rtake (max 1 n)).drop 1
          else xs.rtake (max 1 n)) ++ [x] := by
  obtain ⟨k, hk⟩ : ∃ k, max 1 n = k + 1 := ⟨max 1 n - 1, by omega⟩
  rw [hk, List.rtake_concat_succ]
  congr 1
  simp only [List.rtake, List.length_drop, List.drop_drop]
  by_cases full : k + 1 ≤ xs.length
  · rw [if_pos (by omega)]
    congr 1
    omega
  · split
    · -- a full store of fewer rows than its size is an empty store of size zero
      have none : xs = [] := List.length_eq_zero_iff.1 (by omega)
      simp [none]
    · rw [show xs.length - k = 0 by omega, show xs.length - (k + 1) = 0 by omega]

/-- Pushing keeps the last rows of all that were ever pushed, and always the last one. -/
theorem toList_push_rtake (capacity : Nat) {b : Backlog β} {xs : List β}
    (h : b.toList = xs.rtake (max 1 capacity)) (x : β) :
    (b.push capacity x).toList = (xs ++ [x]).rtake (max 1 capacity) := by
  rw [toList_push, h, rtake_concat]

/-- With room left, pushing drops nothing. -/
theorem toList_push_of_lt {capacity : Nat} {b : Backlog β} (h : b.length < capacity) (x : β) :
    (b.push capacity x).toList = b.toList ++ [x] := by
  rw [toList_push, length_toList, if_neg (Nat.not_le.2 h)]

theorem length_le_of_toList_eq_rtake {n : Nat} {b : Backlog β} {xs : List β}
    (h : b.toList = xs.rtake n) : b.length ≤ n := by
  rw [← length_toList, h, List.rtake, List.length_drop]
  omega

end Backlog

/-! ## Levels -/

namespace AlertLevel

variable {a b : Verdict}

theorem ofVerdicts_eq_normal (h : ofVerdicts a b = .normal) : a = .inlier ∧ b = .inlier := by
  cases a <;> cases b <;> first | exact ⟨rfl, rfl⟩ | cases h

theorem ofVerdicts_eq_critical (h : ofVerdicts a b = .critical) : a = .outlier ∧ b = .outlier := by
  cases a <;> cases b <;> first | exact ⟨rfl, rfl⟩ | cases h

/-- A row is not normal exactly if one of the verdicts is an outlier. -/
theorem ofVerdicts_ne_normal_iff : ofVerdicts a b ≠ .normal ↔ a = .outlier ∨ b = .outlier := by
  cases a <;> cases b <;> decide

end AlertLevel

/-! ## Outcomes of trainings -/

/-- Whether an entry is what a training says about its outcome. -/
def JournalEntry.isOutcome : JournalEntry → Bool
  | .trainingSkipped .. | .modelsTrained .. => true
  | _ => false

namespace Detector

variable {α : Type} [Scalar α] (d : Detector α)

theorem countP_isOutcome_diversityEntries (v : Diversity) :
    (diversityEntries v).countP JournalEntry.isOutcome = 0 := by
  unfold diversityEntries
  split_ifs <;> rfl

/-- A training says exactly one thing about its outcome. -/
theorem countP_isOutcome_train (now : Moment) (rows : List (FeatureVector α)) :
    (d.train now rows).entries.countP JournalEntry.isOutcome = 1 := by
  unfold train
  extract_lets finite count
  split_ifs with few
  · rfl
  · simp only [List.countP_append, countP_isOutcome_diversityEntries]
    rfl

/-! ## Trainings -/

/-- With too few finite rows a training changes nothing. -/
theorem train_of_lt {now : Moment} {rows : List (FeatureVector α)}
    (few : (rows.filter FeatureVector.isFinite).length < minTrainRows) :
    (d.train now rows).detector = d := by
  rw [train, if_pos few]

/-- With enough of them it puts the models of the finite rows in place. -/
theorem train_of_le {now : Moment} {rows : List (FeatureVector α)}
    (enough : minTrainRows ≤ (rows.filter FeatureVector.isFinite).length) :
    (d.train now rows).detector =
      { d with
        trained := some (Trained.fit d.settings.primary d.settings.secondary
          (rows.filter FeatureVector.isFinite), now)
        trainCount := d.trainCount + 1 } := by
  rw [train, if_neg (Nat.not_lt.2 enough)]

@[simp] theorem settings_train (now : Moment) (rows : List (FeatureVector α)) :
    (d.train now rows).detector.settings = d.settings := by
  rcases Nat.lt_or_ge (rows.filter FeatureVector.isFinite).length minTrainRows with few | enough
  · rw [d.train_of_lt few]
  · rw [d.train_of_le enough]

/-- A detector without models has models after a training exactly if there were enough finite
rows. -/
theorem isTrained_train_iff (untrained : d.trained = none) (now : Moment)
    (rows : List (FeatureVector α)) :
    (d.train now rows).detector.isTrained = true
      ↔ minTrainRows ≤ (rows.filter FeatureVector.isFinite).length := by
  rcases Nat.lt_or_ge (rows.filter FeatureVector.isFinite).length minTrainRows with few | enough
  · rw [d.train_of_lt few]
    simp only [isTrained, untrained, Option.isSome_none, Bool.false_eq_true, false_iff]
    omega
  · rw [d.train_of_le enough]
    simp only [isTrained, Option.isSome_some, enough]

/-! ## Training again -/

omit [Scalar α] in
/-- When the detector is to train again. -/
theorem retrainDue_iff (now : Moment) :
    d.retrainDue now = true ↔ ∃ t since, d.trained = some (t, since) ∧
      d.settings.retrainInterval.nanoseconds ≤ now - since ∧
      minRetrainRows ≤ d.backlog.length := by
  unfold retrainDue
  cases d.trained with
  | none => simp
  | some pair =>
    obtain ⟨t, since⟩ := pair
    simp only [Bool.and_eq_true, decide_eq_true_eq, Option.some.injEq, Prod.mk.injEq]
    exact ⟨fun h => ⟨t, since, ⟨rfl, rfl⟩, h⟩, fun ⟨_, _, ⟨_, rfl⟩, h⟩ => h⟩

omit [Scalar α] in
theorem not_retrainDue_of_untrained {d : Detector α} (h : d.trained = none) (now : Moment) :
    d.retrainDue now = false := by
  simp [retrainDue, h]

omit [Scalar α] in
theorem not_retrainDue_of_lt {d : Detector α} (h : d.backlog.length < minRetrainRows)
    (now : Moment) : d.retrainDue now = false := by
  rw [Bool.eq_false_iff, Ne, d.retrainDue_iff]
  rintro ⟨-, -, -, -, enough⟩
  omega

theorem maybeRetrain_of_not_due {d : Detector α} {now : Moment} (h : d.retrainDue now = false) :
    d.maybeRetrain now = { detector := d, installed := false, entries := [] } := by
  simp [maybeRetrain, h]

theorem detector_maybeRetrain_of_due {d : Detector α} {now : Moment}
    (h : d.retrainDue now = true) :
    (d.maybeRetrain now).detector
      = ({ d with backlog := .empty }.train now d.backlog.toList).detector := by
  simp [maybeRetrain, h]

@[simp] theorem settings_maybeRetrain (now : Moment) :
    (d.maybeRetrain now).detector.settings = d.settings := by
  cases due : d.retrainDue now with
  | false => rw [maybeRetrain_of_not_due due]
  | true => rw [detector_maybeRetrain_of_due due, settings_train]

/-- Training again is at most one training. -/
theorem countP_isOutcome_maybeRetrain (now : Moment) :
    (d.maybeRetrain now).entries.countP JournalEntry.isOutcome
      = if d.retrainDue now then 1 else 0 := by
  cases due : d.retrainDue now with
  | false => simp [maybeRetrain_of_not_due due]
  | true =>
    have one := countP_isOutcome_train { d with backlog := .empty } now d.backlog.toList
    simpa [maybeRetrain, due, List.countP_cons, JournalEntry.isOutcome] using one

/-! ## Rows that are judged -/

/-- The detector with a row put in its backlog. -/
def keep (row : FeatureVector α) : Detector α :=
  { d with backlog := d.backlog.push d.settings.bufferCapacity row }

/-- The row itself if the detector judges it normal and it is finite. -/
def kept? (row : FeatureVector α) : Option (FeatureVector α) :=
  if (d.predict row).level = .normal ∧ row.isFinite then some row else none

/-- The detector once it has judged a row: a normal row is offered to the backlog. -/
def absorb (row : FeatureVector α) : Detector α :=
  if (d.predict row).level = .normal then (d.addNormal row).1 else d

/-- Judging a row keeps it or changes nothing. -/
theorem absorb_eq (row : FeatureVector α) : d.absorb row = (d.kept? row).elim d d.keep := by
  unfold absorb kept? addNormal
  by_cases normal : (d.predict row).level = .normal <;> cases finite : row.isFinite <;>
    simp [normal, keep]

omit [Scalar α] in
@[simp] theorem settings_keep (row : FeatureVector α) : (d.keep row).settings = d.settings := rfl

omit [Scalar α] in
@[simp] theorem trained_keep (row : FeatureVector α) : (d.keep row).trained = d.trained := rfl

omit [Scalar α] in
@[simp] theorem trainCount_keep (row : FeatureVector α) :
    (d.keep row).trainCount = d.trainCount := rfl

@[simp] theorem settings_absorb (row : FeatureVector α) : (d.absorb row).settings = d.settings := by
  rw [absorb_eq]
  cases d.kept? row <;> rfl

theorem kept?_eq_some {d : Detector α} {row x : FeatureVector α} (h : d.kept? row = some x) :
    x = row ∧ row.isFinite = true := by
  unfold kept? at h
  split_ifs at h with normal
  exact ⟨(Option.some.inj h).symm, normal.2⟩

/-- The models in place, whenever they were trained. -/
def models? : Option (Trained α) := d.trained.map Prod.fst

/-- A prediction comes from the models in place. -/
theorem predict_eq (x : FeatureVector α) :
    d.predict x = d.models?.elim .untrained (·.predict d.settings.primaryWeight x) := by
  unfold predict models?
  cases d.trained <;> rfl

/-- Without models every row is normal. -/
theorem predict_of_untrained {d : Detector α} (h : d.trained = none) (row : FeatureVector α) :
    d.predict row = .untrained := by
  simp [predict, h]

theorem kept?_of_untrained {d : Detector α} (h : d.trained = none) (row : FeatureVector α) :
    d.kept? row = if row.isFinite then some row else none := by
  simp [kept?, predict_of_untrained h, Prediction.untrained]

end Detector

end CounterWatch
