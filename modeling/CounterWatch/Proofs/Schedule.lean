import CounterWatch.Proofs.Learning

/-!
# The schedule of trainings

When a monitor that detects with models trains again. The rows that it keeps decide: with models
that are always old enough every 200 kept rows make one training, on these rows and no others; with
a backlog that cannot hold 200 rows, or models that are never old enough, there is none.

* `Detector.OnSchedule` and `Detector.Settled` are what holds in the one case and in the other of a
  detector that has kept some rows. To keep a row and to train again if that is due preserves the
  one (`OnSchedule.next`) and the other (`Settled.next`).
* `Monitor.onSchedule_replay` and `Monitor.settled_replay` carry them along a history.
* `batch` are the rows of one training. The batches, followed by the backlog, are all kept rows in
  order (`flatMap_batch`).
-/

namespace CounterWatch

/-! ## Batches -/

/-- The rows of one training of those that go on and on, counted from zero. -/
def batch {β : Type} (rows : List β) (k : Nat) : List β := (rows.drop (200 * k)).take 200

/-- The first batches are the first rows. -/
theorem flatMap_batch {β : Type} (rows : List β) (count : Nat) :
    (List.range count).flatMap (batch rows) = rows.take (200 * count) := by
  induction count with
  | zero => rfl
  | succ count ih =>
    rw [List.range_succ, List.flatMap_append, ih, Nat.mul_succ, List.take_add]
    simp [batch]

namespace Detector

/-- The models in place, if there are any, are old enough to be replaced. -/
def IsOld (d : Detector Float) (now : Moment) : Prop :=
  ∀ t since, d.trained = some (t, since) → d.settings.retrainInterval.nanoseconds ≤ now - since

/-- The models in place, if there are any, are not old enough to be replaced. -/
def IsRecent (d : Detector Float) (now : Moment) : Prop :=
  ∀ t since, d.trained = some (t, since) → now - since < d.settings.retrainInterval.nanoseconds

theorem not_retrainDue_of_isRecent {d : Detector Float} {now : Moment} (h : d.IsRecent now) :
    d.retrainDue now = false := by
  rw [Bool.eq_false_iff, Ne, d.retrainDue_iff]
  rintro ⟨t, since, trained, old, -⟩
  exact Nat.not_le.2 (h t since trained) old

/-! ## Models that are always old enough -/

/-- The models in place once some rows have been kept: the first ones until there are 200 rows, and
then those of the last full batch. -/
def modelsAfter (settings : Settings Float) (first : Trained Float)
    (rows : List (FeatureVector Float)) : Trained Float :=
  if rows.length < 200 then first
  else Trained.fit settings.primary settings.secondary (batch rows (rows.length / 200 - 1))

/-- A detector that has kept some rows since its first training and trained again on every full
batch of them. -/
structure OnSchedule (settings : Settings Float) (first : Trained Float)
    (rows : List (FeatureVector Float)) (d : Detector Float) : Prop where
  settings_eq : d.settings = settings
  backlog : d.backlog.toList = rows.drop (200 * (rows.length / 200))
  trainCount : d.trainCount = 1 + rows.length / 200
  trained : ∃ since, d.trained = some (modelsAfter settings first rows, since)

variable {settings : Settings Float} {first : Trained Float} {rows : List (FeatureVector Float)}
  {d : Detector Float} {now : Moment}

namespace OnSchedule

variable (o : OnSchedule settings first rows d)

include o

theorem length_backlog : d.backlog.length = rows.length % 200 := by
  rw [← Backlog.length_toList, o.backlog, List.length_drop]
  omega

/-- Between two trainings there is room for one more row. -/
theorem toList_keep (room : 200 ≤ settings.bufferCapacity) (row : FeatureVector Float) :
    (d.keep row).backlog.toList = (rows ++ [row]).drop (200 * (rows.length / 200)) := by
  have short : d.backlog.length < d.settings.bufferCapacity := by
    rw [o.length_backlog, o.settings_eq]
    omega
  have before : 200 * (rows.length / 200) ≤ rows.length := Nat.mul_div_le rows.length 200
  rw [keep, Backlog.toList_push_of_lt short, o.backlog, List.drop_append_of_le_length before]

/-- A row that does not fill a batch is kept, and nothing is trained. -/
theorem keep_of_lt (room : 200 ≤ settings.bufferCapacity) (row : FeatureVector Float)
    (partly : rows.length % 200 + 1 < 200) (now : Moment) :
    OnSchedule settings first (rows ++ [row]) ((d.keep row).maybeRetrain now).detector := by
  have batches : (rows ++ [row]).length / 200 = rows.length / 200 := by
    rw [List.length_append, List.length_singleton]
    omega
  have content := o.toList_keep room row
  have few : (d.keep row).backlog.length < minRetrainRows := by
    rw [← Backlog.length_toList, content, List.length_drop, List.length_append,
      List.length_singleton, minRetrainRows]
    omega
  rw [maybeRetrain_of_not_due (not_retrainDue_of_lt few now)]
  obtain ⟨since, trained⟩ := o.trained
  refine ⟨o.settings_eq, ?_, ?_, since, ?_⟩
  · rw [content, batches]
  · rw [batches]
    exact o.trainCount
  · -- the last full batch is the same one, and the new row is not in it
    rw [trained_keep, trained]
    congr 2
    unfold modelsAfter
    rw [batches, List.length_append, List.length_singleton]
    split_ifs with none still still
    · rfl
    · omega
    · omega
    · congr 1
      unfold batch
      rw [List.drop_append_of_le_length (by omega), List.take_append_of_le_length]
      rw [List.length_drop]
      omega

/-- The row that fills a batch makes old models give way to those of the batch. -/
theorem keep_of_eq (room : 200 ≤ settings.bufferCapacity) (row : FeatureVector Float)
    (full : rows.length % 200 + 1 = 200) (old : d.IsOld now)
    (finite : ∀ x ∈ rows ++ [row], x.isFinite = true) :
    OnSchedule settings first (rows ++ [row]) ((d.keep row).maybeRetrain now).detector := by
  have count : (rows ++ [row]).length = rows.length + 1 := List.length_append
  have batches : (rows ++ [row]).length / 200 = rows.length / 200 + 1 := by omega
  have content := o.toList_keep room row
  have size : (d.keep row).backlog.toList.length = 200 := by
    rw [content, List.length_drop]
    omega
  have finites : (d.keep row).backlog.toList.filter FeatureVector.isFinite
      = (d.keep row).backlog.toList := by
    rw [List.filter_eq_self, content]
    exact fun x mem => finite x (List.mem_of_mem_drop mem)
  obtain ⟨since, trained⟩ := o.trained
  have due : (d.keep row).retrainDue now = true := by
    rw [retrainDue_iff]
    refine ⟨_, since, trained, old _ since trained, ?_⟩
    rw [← Backlog.length_toList, size]
    exact Nat.le_refl 200
  have enough : minTrainRows
      ≤ ((d.keep row).backlog.toList.filter FeatureVector.isFinite).length := by
    rw [finites, size]
    decide
  rw [detector_maybeRetrain_of_due due, train_of_le _ enough, finites]
  refine ⟨o.settings_eq, ?_, ?_, now, ?_⟩
  · rw [batches, List.drop_eq_nil_of_le (by omega)]
    rfl
  · rw [batches, ← Nat.add_assoc, ← o.trainCount]
    rfl
  · have models : modelsAfter settings first (rows ++ [row])
        = Trained.fit settings.primary settings.secondary (d.keep row).backlog.toList := by
      rw [modelsAfter, if_neg (by omega), batches, batch, Nat.add_sub_cancel, ← content,
        List.take_of_length_le (Nat.le_of_eq size)]
    rw [models, ← o.settings_eq]
    rfl

/-- To keep a row or none, and to train again if that is due, leaves a detector with old models on
schedule. -/
theorem next (room : 200 ≤ settings.bufferCapacity) (old : d.IsOld now)
    (kept : Option (FeatureVector Float)) (finite : ∀ x ∈ rows ++ kept.toList, x.isFinite = true) :
    OnSchedule settings first (rows ++ kept.toList)
      ((kept.elim d d.keep).maybeRetrain now).detector := by
  cases kept with
  | none =>
    have few : d.backlog.length < minRetrainRows := by
      rw [o.length_backlog]
      exact Nat.mod_lt _ (by decide)
    rw [Option.elim_none, maybeRetrain_of_not_due (not_retrainDue_of_lt few now),
      Option.toList_none, List.append_nil]
    exact o
  | some row =>
    rcases Nat.lt_or_ge (rows.length % 200 + 1) 200 with partly | full
    · exact o.keep_of_lt room row partly now
    · exact o.keep_of_eq room row (by omega) old finite

end OnSchedule

/-! ## Models that stay -/

/-- A detector that has kept some rows since its first training and never trained again. -/
structure Settled (settings : Settings Float) (first : Trained Float × Moment)
    (rows : List (FeatureVector Float)) (d : Detector Float) : Prop where
  settings_eq : d.settings = settings
  backlog : d.backlog.toList = rows.rtake (max 1 settings.bufferCapacity)
  trainCount : d.trainCount = 1
  trained : d.trained = some first

/-- To keep a row or none, and to train again if that is due, leaves a detector settled that has too
small a backlog or recent models. -/
theorem Settled.next {first : Trained Float × Moment} (s : Settled settings first rows d)
    (never : max 1 settings.bufferCapacity < 200 ∨ d.IsRecent now)
    (kept : Option (FeatureVector Float)) :
    Settled settings first (rows ++ kept.toList)
      ((kept.elim d d.keep).maybeRetrain now).detector := by
  have judged : Settled settings first (rows ++ kept.toList) (kept.elim d d.keep) := by
    cases kept with
    | none =>
      rw [Option.toList_none, List.append_nil]
      exact s
    | some row =>
      refine ⟨s.settings_eq, ?_, s.trainCount, s.trained⟩
      have pushed := Backlog.toList_push_rtake settings.bufferCapacity s.backlog row
      rw [← s.settings_eq] at pushed ⊢
      exact pushed
  have due : (kept.elim d d.keep).retrainDue now = false := by
    rcases never with small | recent
    · refine not_retrainDue_of_lt ?_ now
      exact Nat.lt_of_le_of_lt (Backlog.length_le_of_toList_eq_rtake judged.backlog) small
    · refine not_retrainDue_of_isRecent fun t since trained => ?_
      rw [judged.trained, ← s.trained] at trained
      rw [judged.settings_eq, ← s.settings_eq]
      exact recent t since trained
  rw [maybeRetrain_of_not_due due]
  exact judged

end Detector

/-! ## Along a history -/

namespace Monitor

/-- Kept rows are finite. -/
theorem isFinite_of_mem_kept {m : Monitor} {h : History} {x : FeatureVector Float}
    (mem : x ∈ m.kept h) : x.isFinite = true := by
  induction h generalizing m with
  | nil => cases mem
  | cons entry rest ih =>
    obtain ⟨now, event⟩ := entry
    rcases List.mem_append.1 mem with here | later
    · rw [Option.mem_toList, kept?] at here
      split_ifs at here
      obtain ⟨s, -, kept⟩ := Option.bind_eq_some_iff.1 here
      obtain ⟨rfl, finite⟩ := Detector.kept?_eq_some kept
      exact finite
    · exact ih later

section

variable {settings : Settings Float} {m : Monitor} (detection : m.phase = .detection)

include detection

theorem onSchedule_replay {first : Trained Float}
    (start : Detector.OnSchedule settings first [] m.detector)
    (room : 200 ≤ settings.bufferCapacity) {later : History}
    (old : m.Throughout (fun m now => m.detector.IsOld now) later) :
    Detector.OnSchedule settings first (m.kept later) (m.replay later).detector := by
  induction later using List.reverseRecOn with
  | nil => exact start
  | append_singleton past entry ih =>
    obtain ⟨now, event⟩ := entry
    obtain ⟨before, here⟩ := throughout_concat.1 old
    have kept := m.kept_concat now past event
    rw [replay_concat]
    rcases detector_step now (phase_replay detection past) event with ⟨none, same⟩ | next
    · rw [same, kept, none, Option.toList_none, List.append_nil]
      exact ih before
    · rw [next, kept]
      refine (ih before).next room here _ fun x mem => ?_
      rw [← kept] at mem
      exact isFinite_of_mem_kept mem

theorem settled_replay {first : Trained Float × Moment}
    (start : Detector.Settled settings first [] m.detector) {later : History}
    (never : max 1 settings.bufferCapacity < 200 ∨
      m.Throughout (fun m now => m.detector.IsRecent now) later) :
    Detector.Settled settings first (m.kept later) (m.replay later).detector := by
  induction later using List.reverseRecOn with
  | nil => exact start
  | append_singleton past entry ih =>
    obtain ⟨now, event⟩ := entry
    rw [throughout_concat] at never
    have before := ih (never.imp_right And.left)
    have kept := m.kept_concat now past event
    rw [replay_concat]
    rcases detector_step now (phase_replay detection past) event with ⟨none, same⟩ | next
    · rw [same, kept, none, Option.toList_none, List.append_nil]
      exact before
    · rw [next, kept]
      exact before.next (never.imp_right And.right) _

end

/-- An interval of no length is always over. -/
theorem throughout_isOld {m : Monitor}
    (zero : m.detector.settings.retrainInterval.nanoseconds = 0) (later : History) :
    m.Throughout (fun m now => m.detector.IsOld now) later := by
  induction later generalizing m with
  | nil => trivial
  | cons entry rest ih =>
    obtain ⟨now, event⟩ := entry
    refine ⟨fun t since _ => ?_, ih ?_⟩
    · rw [zero]
      exact Nat.zero_le _
    · rw [(m.frame_step now event).settings, zero]

/-! ## From the start on -/

/-- The models that a monitor puts in place as it comes to detect. -/
def firstModels (config : Config) (settings : Settings Float) (learnt : History) :
    Trained Float :=
  Trained.fit settings.primary settings.secondary
    ((lesson config.learning.samples learnt).filter FeatureVector.isFinite)

/-- The detector of a monitor that has just come to detect with models. -/
theorem detector_of_enters_of_isTrained {config : Config} {settings : Settings Float} {before : History}
    {now : Moment} {event : Event} (h : Enters ((initial config settings).replay before) now event)
    (trained :
      (((initial config settings).replay before).step now event).monitor.detector.isTrained
        = true) :
    (((initial config settings).replay before).step now event).monitor.detector =
      { Detector.ofSettings settings with
        trained := some (firstModels config settings (before ++ [(now, event)]), now)
        trainCount := 1 } := by
  have enough := (isTrained_of_enters h).1 trained
  rw [(detector_of_enters h).1, Detector.train_of_le _ enough]
  rfl

/-- **The schedule of trainings.** A monitor has come to detect with models, and has kept the rows
`normals` since: the finite rows that it judged normal, each with the models in place at the time.
If its models are old enough at every step, and its backlog can hold 200 rows, then there has been
one training for every 200 kept rows, the models in place are those of the last 200 of the rows
already used, the backlog holds those not yet used, and the batches and the backlog together are
the kept rows in order. If the backlog cannot hold 200 rows, or the models are at no step old
enough, then it has not trained again, and the backlog holds the last of the kept rows. -/
theorem schedule_of_trainings (config : Config) (settings : Settings Float)
    (valid : Settings.ofConfig config = .ok settings) (before : History) (now : Moment)
    (event : Event) (enters : Enters ((initial config settings).replay before) now event)
    (trained :
      (((initial config settings).replay before).step now event).monitor.detector.isTrained
        = true)
    (later : History) :
    let entered := (((initial config settings).replay before).step now event).monitor
    let d := (entered.replay later).detector
    let normals := entered.kept later
    let first := firstModels config settings (before ++ [(now, event)])
    let capacity := max 1 config.retrain.bufferCapacity
    (entered.Throughout (fun m now => m.detector.IsOld now) later → 200 ≤ capacity →
      d.backlog.length = normals.length % 200 ∧ d.trainCount = 1 + normals.length / 200 ∧
      (∃ since, d.trained = some (Detector.modelsAfter settings first normals, since)) ∧
      (List.range (normals.length / 200)).flatMap (batch normals) ++ d.backlog.toList
        = normals) ∧
    (capacity < 200 ∨ entered.Throughout (fun m now => m.detector.IsRecent now) later →
      d.trainCount = 1 ∧ d.trained = some (first, now) ∧
      d.backlog.toList = normals.rtake (min capacity normals.length)) := by
  intro entered d normals first capacity
  have size : settings.bufferCapacity = capacity := by
    unfold Settings.ofConfig at valid
    split at valid
    · cases valid
    · rw [← Except.ok.inj valid]
  have detector := detector_of_enters_of_isTrained enters trained
  refine ⟨fun old room => ?_, fun never => ?_⟩
  · have start : Detector.OnSchedule settings first [] entered.detector := by
      rw [detector]
      exact ⟨rfl, rfl, rfl, now, rfl⟩
    have o := onSchedule_replay enters.detection start (size ▸ room) old
    refine ⟨o.length_backlog, o.trainCount, o.trained, ?_⟩
    rw [flatMap_batch, o.backlog, List.take_append_drop]
  · have start : Detector.Settled settings (first, now) [] entered.detector := by
      rw [detector]
      exact ⟨rfl, (List.rtake_nil _).symm, rfl, rfl⟩
    have positive : max 1 settings.bufferCapacity = capacity := by
      rw [size]
      exact max_eq_right (le_max_left 1 _)
    have s := settled_replay enters.detection start (positive ▸ never)
    refine ⟨s.trainCount, s.trained, ?_⟩
    have content : d.backlog.toList = normals.rtake capacity := positive ▸ s.backlog
    rw [content, List.rtake, List.rtake]
    congr 1
    omega

/-- Records of zeros make finite rows. -/
theorem finite_lesson_of_zeros :
    50 ≤ ((lesson 50 (List.replicate 82 (0, .datagram (List.replicate 68 0)))).filter
      FeatureVector.isFinite).length := by
  have samples : History.samples (List.replicate 82 (0, .datagram (List.replicate 68 0)))
      = List.replicate 32 default ++ List.replicate 50 default := by
    decide +kernel
  have steady : ((Extractor.initial.after (List.replicate 32 default)).pushSample default).2
      = Extractor.initial.after (List.replicate 32 default) := by
    decide +kernel
  have finite : ((Extractor.initial.after (List.replicate 32 default)).pushSample
      default).1.isFinite = true := by
    decide +kernel
  have filled : (Extractor.initial.rows (List.replicate 32 default)).length = 32 := by
    rw [Extractor.length_rows, List.length_replicate]
  rw [lesson, History.rows, samples, Extractor.rows_append, Extractor.rows_replicate steady,
    List.drop_left' filled, List.take_of_length_le (Nat.le_of_eq List.length_replicate),
    List.filter_replicate_of_pos finite, List.length_replicate]

/-- With 50 rows of zeros to learn from and an interval of no length, every 200 kept rows make one
training. -/
theorem schedule_with_no_interval :
    let config : Config := { learning := { samples := 50 }, retrain := { intervalSecs := 0.0 } }
    let record : Event := .datagram (List.replicate 68 0)
    let before : History := List.replicate 81 (0, record)
    ∃ settings, Settings.ofConfig config = .ok settings ∧
      Enters ((initial config settings).replay before) 0 record ∧
      (((initial config settings).replay before).step 0 record).monitor.detector.isTrained = true ∧
      ∀ later : History,
        let entered := (((initial config settings).replay before).step 0 record).monitor
        (entered.replay later).detector.trainCount
          = 1 + (entered.kept later).length / 200 := by
  intro config record before
  have interval : Duration.ofFloat 0.0 = .ok ⟨0⟩ := by decide +kernel
  obtain ⟨settings, valid, zero⟩ : ∃ settings : Settings Float,
      Settings.ofConfig config = .ok settings ∧ settings.retrainInterval.nanoseconds = 0 :=
    ⟨_, by rw [Settings.ofConfig, interval], rfl⟩
  have enters : Enters ((initial config settings).replay before) 0 record := by
    refine enters_iff.2 ⟨?_, rfl⟩
    decide +kernel +zetaReduce
  have trained : (((initial config settings).replay before).step 0 record).monitor.detector.isTrained
      = true := by
    rw [isTrained_of_enters enters]
    exact finite_lesson_of_zeros
  refine ⟨settings, valid, enters, trained, fun later => ?_⟩
  have always : (((initial config settings).replay before).step 0
      record).monitor.detector.settings.retrainInterval.nanoseconds = 0 := by
    rw [(frame_step _ _ _).settings, settings_replay]
    exact zero
  obtain ⟨scheduled, -⟩ :=
    schedule_of_trainings config settings valid before 0 record enters trained later
  have room : 200 ≤ max 1 config.retrain.bufferCapacity := by
    refine Nat.le_trans ?_ (Nat.le_max_right 1 _)
    exact Nat.le_of_ble_eq_true rfl
  exact (scheduled (throughout_isOld always later) room).2.1

end Monitor

end CounterWatch
