import CounterWatch.Proofs.Training
import Mathlib.Data.List.Induction

/-!
# Usage

A detector does not know who uses it. It may be asked to train on any rows, to add a row to its
backlog, to judge a row and to train again, in any order and at any moments. A usage is a list of
such requests; this module follows a detector along one.

* `Detector.serve` is the detector after a request and `Detector.after` the detector after a usage
  (`after_append`, `after_concat`).
* `Usage.added` are the finite rows that a usage adds, and `Detector.pending` those of them that
  came after the last request that emptied the backlog (`pending_concat`,
  `pending_of_last_drain`).
* `Detector.Stocked` ties the backlog to the pending rows. A request keeps it (`Stocked.serve`), and
  so the backlog is a window on the pending rows (`backlog_is_window_on_pending`).
-/

namespace CounterWatch

/-- What a detector can be asked for. -/
inductive Request (α : Type) where
  | train (rows : List (FeatureVector α))
  | addNormal (row : FeatureVector α)
  | predict (row : FeatureVector α)
  | maybeRetrain

/-- Requests in their order, each with the moment at which it is served. -/
abbrev Usage (α : Type) : Type := List (Moment × Request α)

variable {α : Type} [Scalar α]

/-- The row that a request adds, if it is finite. -/
def Request.added? : Request α → Option (FeatureVector α)
  | .addNormal row => if row.isFinite then some row else none
  | .train _ | .predict _ | .maybeRetrain => none

/-- The finite rows that a usage adds, in order. -/
def Usage.added (u : Usage α) : List (FeatureVector α) := u.filterMap fun entry => entry.2.added?

theorem Request.isFinite_of_added? {request : Request α} {row : FeatureVector α}
    (h : request.added? = some row) : row.isFinite = true := by
  cases request with
  | addNormal x =>
    simp only [added?] at h
    split_ifs at h with finite
    rw [← Option.some.inj h]
    exact finite
  | train | predict | maybeRetrain => cases h

namespace Detector

/-! ## The detector along a usage -/

/-- The detector after a request. -/
def serve (d : Detector α) (now : Moment) : Request α → Detector α
  | .train rows => (d.train now rows).detector
  | .addNormal row => (d.addNormal row).1
  | .predict _ => d
  | .maybeRetrain => (d.maybeRetrain now).detector

/-- The detector after a usage. -/
def after (d : Detector α) (u : Usage α) : Detector α :=
  u.foldl (fun d entry => d.serve entry.1 entry.2) d

/-- Whether a request empties the backlog: one to train again that reports new models. -/
def drains (d : Detector α) (now : Moment) : Request α → Bool
  | .maybeRetrain => (d.maybeRetrain now).installed
  | .train _ | .addNormal _ | .predict _ => false

/-- The finite rows added since the backlog was last emptied, those given being there at the
start. -/
def pending (d : Detector α) (rows : List (FeatureVector α)) : Usage α → List (FeatureVector α)
  | [] => rows
  | (now, request) :: rest =>
    (d.serve now request).pending
      (if d.drains now request then [] else rows ++ request.added?.toList) rest

variable (d : Detector α) (now : Moment)

@[simp] theorem after_nil : d.after [] = d := rfl

theorem after_append (past later : Usage α) : d.after (past ++ later) = (d.after past).after later :=
  List.foldl_append

@[simp] theorem after_concat (past : Usage α) (request : Request α) :
    d.after (past ++ [(now, request)]) = (d.after past).serve now request :=
  d.after_append past [(now, request)]

theorem pending_append (rows : List (FeatureVector α)) (past later : Usage α) :
    d.pending rows (past ++ later) = (d.after past).pending (d.pending rows past) later := by
  induction past generalizing d rows with
  | nil => rfl
  | cons entry rest ih =>
    obtain ⟨now, request⟩ := entry
    exact ih (d.serve now request) _

theorem pending_concat (rows : List (FeatureVector α)) (past : Usage α) (request : Request α) :
    d.pending rows (past ++ [(now, request)])
      = if (d.after past).drains now request then []
        else d.pending rows past ++ request.added?.toList :=
  d.pending_append rows past [(now, request)]

/-- As long as nothing empties the backlog, all finite rows that are added are pending. -/
theorem pending_of_no_drain (rows : List (FeatureVector α)) (u : Usage α)
    (kept : ∀ past now request later, u = past ++ (now, request) :: later →
      (d.after past).drains now request = false) :
    d.pending rows u = rows ++ u.added := by
  induction u using List.reverseRecOn with
  | nil => simp [pending, Usage.added]
  | append_singleton past entry ih =>
    obtain ⟨now, request⟩ := entry
    have before : d.pending rows past = rows ++ Usage.added past := by
      apply ih
      intro earlier at_ r later split
      exact kept earlier at_ r (later ++ [(now, request)]) (by rw [split]; simp)
    have last := kept past now request [] rfl
    rw [pending_concat, last, if_neg Bool.false_ne_true, before, List.append_assoc]
    congr 1
    cases h : request.added? <;> simp [Usage.added, h]

/-- After a request that empties the backlog, and as long as no later one does, the finite rows added
since then are pending. -/
theorem pending_of_last_drain (rows : List (FeatureVector α)) (past : Usage α) (request : Request α)
    (later : Usage α) (drained : (d.after past).drains now request = true)
    (kept : ∀ between time r rest, later = between ++ (time, r) :: rest →
      (((d.after past).serve now request).after between).drains time r = false) :
    d.pending rows (past ++ (now, request) :: later) = later.added := by
  rw [pending_append, pending, if_pos drained, pending_of_no_drain _ _ _ kept, List.nil_append]

/-- A drain only ever forgets rows from the front. -/
theorem pending_suffix (rows : List (FeatureVector α)) (u : Usage α) :
    d.pending rows u <:+ rows ++ u.added := by
  induction u generalizing d rows with
  | nil => simp [pending, Usage.added]
  | cons entry rest ih =>
    obtain ⟨now, request⟩ := entry
    have split : Usage.added ((now, request) :: rest) = request.added?.toList ++ Usage.added rest := by
      cases h : request.added? <;> simp [Usage.added, h]
    rw [pending, split]
    split_ifs with drained
    · have rows_suffix := ih (d.serve now request) []
      rw [List.nil_append] at rows_suffix
      exact rows_suffix.trans ⟨rows ++ request.added?.toList, by rw [List.append_assoc]⟩
    · rw [← List.append_assoc]
      exact ih (d.serve now request) (rows ++ request.added?.toList)

/-! ## One request -/

/-- Whether enough of some rows are finite is all that decides about a training. -/
theorem installed_train (rows : List (FeatureVector α)) :
    (d.train now rows).installed = true
      ↔ minTrainRows ≤ (rows.filter FeatureVector.isFinite).length := by
  rcases Nat.lt_or_ge (rows.filter FeatureVector.isFinite).length minTrainRows with few | enough
  · rw [train, if_pos few]
    exact ⟨fun h => absurd h Bool.false_ne_true, fun enough => absurd few (Nat.not_lt.2 enough)⟩
  · rw [train, if_neg (Nat.not_lt.2 enough)]
    exact ⟨fun _ => enough, fun _ => rfl⟩

theorem train_of_not_installed {rows : List (FeatureVector α)}
    (h : (d.train now rows).installed = false) : (d.train now rows).detector = d := by
  apply d.train_of_lt
  by_contra enough
  rw [(d.installed_train now rows).2 (Nat.not_lt.1 enough)] at h
  cases h

theorem backlog_train (rows : List (FeatureVector α)) :
    (d.train now rows).detector.backlog = d.backlog := by
  rcases Nat.lt_or_ge (rows.filter FeatureVector.isFinite).length minTrainRows with few | enough
  · rw [d.train_of_lt few]
  · rw [d.train_of_le enough]

theorem addNormal_eq (row : FeatureVector α) :
    (d.addNormal row).1 = (Request.addNormal row).added?.elim d d.keep := by
  simp only [addNormal, Request.added?]
  split_ifs <;> rfl

@[simp] theorem settings_serve (request : Request α) :
    (d.serve now request).settings = d.settings := by
  cases request with
  | train rows => exact d.settings_train now rows
  | addNormal row =>
    show (d.addNormal row).1.settings = d.settings
    rw [addNormal_eq]
    cases (Request.addNormal row).added? <;> rfl
  | predict => rfl
  | maybeRetrain => exact d.settings_maybeRetrain now

@[simp] theorem settings_after (u : Usage α) : (d.after u).settings = d.settings := by
  induction u using List.reverseRecOn with
  | nil => rfl
  | append_singleton past entry ih =>
    obtain ⟨now, request⟩ := entry
    rw [after_concat, settings_serve, ih]

/-! ## The backlog -/

/-- A detector whose backlog holds the last of some finite rows. -/
structure Stocked (rows : List (FeatureVector α)) (d : Detector α) : Prop where
  backlog : d.backlog.toList = rows.rtake (max 1 d.settings.bufferCapacity)
  finite : ∀ x ∈ rows, x.isFinite = true

theorem stocked_ofSettings (settings : Settings α) : Stocked [] (ofSettings settings) :=
  ⟨(List.rtake_nil _).symm, fun _ mem => absurd mem List.not_mem_nil⟩

theorem rtake_subset {β : Type} {n : Nat} {xs : List β} {x : β} (h : x ∈ xs.rtake n) : x ∈ xs :=
  List.mem_of_mem_drop h

namespace Stocked

variable {d} {rows : List (FeatureVector α)} (s : Stocked rows d)

include s

theorem isFinite_of_mem {x : FeatureVector α} (mem : x ∈ d.backlog.toList) :
    x.isFinite = true := by
  rw [s.backlog] at mem
  exact s.finite x (rtake_subset mem)

theorem length_backlog_le : d.backlog.length ≤ rows.length := by
  rw [← Backlog.length_toList, s.backlog, List.rtake, List.length_drop]
  omega

/-- All rows of the backlog are there for a training. -/
theorem filter_backlog : d.backlog.toList.filter FeatureVector.isFinite = d.backlog.toList :=
  List.filter_eq_self.2 fun _ mem => s.isFinite_of_mem mem

/-- To train again when that is due always gives new models: the backlog has rows enough, and none
of them is left out. -/
theorem enough_of_due {now : Moment} (due : d.retrainDue now = true) :
    minTrainRows ≤ (d.backlog.toList.filter FeatureVector.isFinite).length := by
  obtain ⟨-, -, -, -, enough⟩ := (d.retrainDue_iff now).1 due
  rw [s.filter_backlog, Backlog.length_toList]
  exact Nat.le_trans (by decide) enough

theorem installed_maybeRetrain (now : Moment) :
    (d.maybeRetrain now).installed = d.retrainDue now := by
  cases due : d.retrainDue now with
  | false => rw [maybeRetrain_of_not_due due]
  | true =>
    rw [maybeRetrain, if_pos due]
    exact (installed_train _ now _).2 (s.enough_of_due due)

/-- What it comes to when it is due: the models of the whole backlog, and an empty backlog. -/
theorem detector_maybeRetrain (now : Moment) (due : d.retrainDue now = true) :
    (d.maybeRetrain now).detector =
      { d with
        trained := some
          (Trained.fit d.settings.primary d.settings.secondary d.backlog.toList, now)
        backlog := .empty
        trainCount := d.trainCount + 1 } := by
  rw [detector_maybeRetrain_of_due due, train_of_le _ (s.enough_of_due due), s.filter_backlog]

/-- A row that is kept is pending, and it is the last one. -/
theorem keep {row : FeatureVector α} (finite : row.isFinite = true) :
    Stocked (rows ++ [row]) (d.keep row) := by
  refine ⟨Backlog.toList_push_rtake _ s.backlog row, fun x mem => ?_⟩
  rcases List.mem_append.1 mem with old | new
  · exact s.finite x old
  · rw [List.mem_singleton.1 new]
    exact finite

/-- A request that empties the backlog leaves nothing pending, and any other leaves pending what it
adds. -/
theorem serve (now : Moment) (request : Request α) :
    Stocked (if d.drains now request then [] else rows ++ request.added?.toList)
      (d.serve now request) := by
  cases request with
  | train xs =>
    show Stocked (rows ++ []) (d.train now xs).detector
    rw [List.append_nil]
    refine ⟨?_, s.finite⟩
    rw [backlog_train, settings_train]
    exact s.backlog
  | addNormal row =>
    show Stocked (rows ++ (Request.addNormal row).added?.toList) (d.addNormal row).1
    rw [addNormal_eq]
    cases h : (Request.addNormal row).added? with
    | none =>
      rw [Option.toList_none, List.append_nil]
      exact s
    | some x => exact s.keep (Request.isFinite_of_added? h)
  | predict row =>
    show Stocked (rows ++ []) d
    rw [List.append_nil]
    exact s
  | maybeRetrain =>
    show Stocked (if (d.maybeRetrain now).installed then [] else rows ++ [])
      (d.maybeRetrain now).detector
    rw [s.installed_maybeRetrain]
    cases due : d.retrainDue now with
    | false =>
      rw [maybeRetrain_of_not_due due, if_neg Bool.false_ne_true, List.append_nil]
      exact s
    | true =>
      rw [s.detector_maybeRetrain now due, if_pos rfl]
      exact ⟨(List.rtake_nil _).symm, fun _ mem => absurd mem List.not_mem_nil⟩

omit s in
/-- Along a usage the backlog stays a window on the pending rows. -/
theorem after (s : Stocked rows d) (u : Usage α) : Stocked (d.pending rows u) (d.after u) := by
  induction u using List.reverseRecOn with
  | nil => exact s
  | append_singleton past entry ih =>
    obtain ⟨now, request⟩ := entry
    rw [after_concat, pending_concat]
    exact ih.serve now request

omit s in
/-- The backlog grows by no more than what is added. -/
theorem length_backlog_after_le (s : Stocked rows d) (u : Usage α) :
    (d.after u).backlog.length ≤ rows.length + u.added.length := by
  have window := (s.after u).length_backlog_le
  have forgotten := (d.pending_suffix rows u).length_le
  rw [List.length_append] at forgotten
  exact Nat.le_trans window forgotten

end Stocked

/-- **The backlog is a window on the pending rows.** However a detector is used, its backlog holds
the last of the finite rows that were added since it was last emptied, oldest first, and as many of
them as it has room for, which is at least one. So it is never longer than that, it never holds a
row that is not finite, and neither trainings nor predictions change it. -/
theorem backlog_is_window_on_pending (settings : Settings α) (u : Usage α) :
    let d := (ofSettings settings).after u
    let rows := (ofSettings settings).pending [] u
    let capacity := max settings.bufferCapacity 1
    d.backlog.toList = rows.rtake (min capacity rows.length) ∧
    d.backlog.length ≤ capacity ∧
    (∀ x ∈ d.backlog.toList, x.isFinite = true) ∧
    (∀ now xs, (d.serve now (.train xs)).backlog = d.backlog) ∧
    (∀ now x, (d.serve now (.predict x)).backlog = d.backlog) := by
  intro d rows capacity
  have s : Stocked rows d := (stocked_ofSettings settings).after u
  have size : max 1 d.settings.bufferCapacity = capacity := by
    rw [settings_after, Nat.max_comm]
    rfl
  have content : d.backlog.toList = rows.rtake capacity := by
    rw [s.backlog, size]
  refine ⟨?_, Backlog.length_le_of_toList_eq_rtake content, fun _ mem => s.isFinite_of_mem mem,
    fun now xs => d.backlog_train now xs, fun _ _ => rfl⟩
  rw [content, List.rtake, List.rtake]
  congr 1
  omega

end Detector

end CounterWatch
