import CounterWatch.Proofs.Bounds
import CounterWatch.Proofs.History
import CounterWatch.Proofs.NonFinite
import CounterWatch.Proofs.RollingFeatures

/-!
# Undefined rates in a stream

A record may carry a rate that is infinite or undefined. Every statistic of its rate is then not
finite as long as the record is in the window; as soon as it has left, nothing is left of it, since
all statistics are taken over the window anew. Finite rates never lead to anything else: they are
numbers of 32 bits, and the squares and sums of a window of them fit 64 bits.

* `Trend.isFinite_direct` and `Trend.isFinite_of_isFinite_mean` are the two directions for one rate.
* `Extractor.isFinite_direct_iff` says which rows are finite: those whose last records all have
  finite rates, and `Extractor.isFinite_of_getElem?_rows` says it of the rows of a stream.
* `Extractor.undefined_rates_spoil_one_window` is what this means for a stream with one such record.
-/

namespace CounterWatch

open Double

/-! ## One rate -/

/-- The last values of a list, by their places. -/
theorem mem_rtake_iff {β : Type} {xs : List β} {n : Nat} {x : β} :
    x ∈ xs.rtake n ↔ ∃ j, xs.length ≤ j + n ∧ xs[j]? = some x := by
  rw [List.rtake, List.mem_iff_getElem?]
  constructor
  · rintro ⟨i, there⟩
    rw [List.getElem?_drop] at there
    exact ⟨_, by omega, there⟩
  · rintro ⟨j, late, there⟩
    refine ⟨j - (xs.length - n), ?_⟩
    rw [List.getElem?_drop, Nat.add_sub_cancel' (by omega), there]

theorem rtake_map {β γ : Type} (f : β → γ) (xs : List β) (n : Nat) :
    (xs.map f).rtake n = (xs.rtake n).map f := by
  rw [List.rtake, List.rtake, List.length_map, List.map_drop]

namespace Trend

variable {past : List Float} {x : Float} {size : Nat}

/-- A mean is finite only if all values of the window are. -/
theorem isFinite_of_isFinite_mean (some : 1 ≤ size)
    (h : (direct size past x).mean.isFinite = true) :
    ∀ v ∈ (past ++ [x]).rtake size, v.isFinite = true := by
  have sum := isFinite_of_isFinite_sum (isFinite_of_isFinite_div h)
  rwa [Nat.max_eq_right some] at sum

/-- What is said of a window of small numbers is finite; a window of two has the value before. -/
theorem isFinite_direct {k : Nat} (wide : 2 ≤ size) (bound : size ≤ 32)
    (recent : ∀ v ∈ (past ++ [x]).rtake size, Below k (form v)) (le : 2 * k + 360 ≤ 972) :
    (direct size past x).mean.isFinite = true ∧ (direct size past x).deviation.isFinite = true ∧
      (direct size past x).change.isFinite = true := by
  have full : max 1 size = size := Nat.max_eq_right (by omega)
  have length := length_recent size past x
  rw [full] at length
  have some : (past ++ [x]).rtake size ≠ [] := List.ne_nil_of_length_pos (by omega)
  have mean := below_mean some (by omega) recent (by omega)
  rw [direct, full]
  refine ⟨mean.isFinite, ?_, ?_⟩
  · dsimp only
    split_ifs
    · rfl
    · exact isFinite_sqrt_meanSquare some (by omega) (fun v mem => (recent v mem).mono (by omega))
        mean (by omega)
  · dsimp only
    rcases List.eq_nil_or_concat' past with rfl | ⟨before, p, rfl⟩
    · exact isFinite_zero
    · have current : x ∈ (before ++ [p] ++ [x]).rtake size :=
        mem_rtake_iff.2 ⟨before.length + 1, by simp; omega, by simp⟩
      have previous : p ∈ (before ++ [p] ++ [x]).rtake size :=
        mem_rtake_iff.2 ⟨before.length, by simp; omega, by simp⟩
      rw [List.getLast?_concat]
      exact (below_sub (recent x current) (recent p previous) (by omega)).isFinite

end Trend

/-! ## Rows of features -/

/-- Whether the three rates are numbers, neither infinite nor undefined. -/
def Rates.isFinite (r : Rates) : Bool :=
  r.cacheMiss.isFinite && r.branchMiss.isFinite && r.ipc.isFinite

theorem Rates.isFinite_iff {r : Rates} : r.isFinite = true ↔
    r.cacheMiss.isFinite = true ∧ r.branchMiss.isFinite = true ∧ r.ipc.isFinite = true := by
  simp only [Rates.isFinite, Bool.and_eq_true, and_assoc]

namespace Extractor

/-- The rates of a sample, widened. -/
def Input.ofSample (s : Sample) : Input Float :=
  ⟨s.rates.cacheMiss.toFloat, s.rates.branchMiss.toFloat, s.rates.ipc.toFloat⟩

theorem rows_eq_vectors (e : Extractor Float) (samples : List Sample) :
    e.rows samples = e.vectors (samples.map Input.ofSample) := by
  induction samples generalizing e with
  | nil => rfl
  | cons s rest ih => exact congrArg (_ :: ·) (ih _)

/-- The statistics of one rate over the last records. -/
theorem isFinite_trend_iff (rate : Sample → Single) (past : List Sample) (s : Sample) :
    let t := Trend.direct 32 (past.map fun t => (rate t).toFloat) (rate s).toFloat
    (t.mean.isFinite = true ∧ t.deviation.isFinite = true ∧ t.change.isFinite = true) ↔
      ∀ t ∈ (past ++ [s]).rtake 32, (rate t).isFinite = true := by
  have whole : past.map (fun t => (rate t).toFloat) ++ [(rate s).toFloat]
      = (past ++ [s]).map fun t => (rate t).toFloat := by simp
  constructor
  · rintro ⟨mean, -, -⟩ t mem
    have all := Trend.isFinite_of_isFinite_mean (by decide) mean
    rw [whole, rtake_map, List.forall_mem_map] at all
    rw [← Single.isFinite_toFloat]
    exact all t mem
  · intro all
    apply Trend.isFinite_direct (k := 129) (by decide) (by decide) _ (by decide)
    rw [whole, rtake_map, List.forall_mem_map]
    exact fun t mem => Single.below_toFloat (all t mem)

/-- A row is finite exactly if its rates, what is said of them and their products are. -/
theorem isFinite_direct_eq_all (size : Nat) (past : List (Input Float)) (x : Input Float) :
    let c := Trend.direct size (past.map Input.cacheMiss) x.cacheMiss
    let b := Trend.direct size (past.map Input.branchMiss) x.branchMiss
    let i := Trend.direct size (past.map Input.ipc) x.ipc
    (direct size past x).isFinite = [x.cacheMiss, x.branchMiss, x.ipc, c.mean, b.mean, i.mean,
      c.deviation, b.deviation, i.deviation, c.change, b.change, i.change,
      x.cacheMiss * x.ipc, x.branchMiss * x.ipc].all Float.isFinite :=
  Vector.all_toList.symm

/-- A row is finite exactly if the last records have finite rates. -/
theorem isFinite_direct_iff (past : List Sample) (s : Sample) :
    (direct 32 (past.map Input.ofSample) (Input.ofSample s)).isFinite = true ↔
      ∀ t ∈ (past ++ [s]).rtake 32, t.rates.isFinite = true := by
  have c := isFinite_trend_iff (fun t => t.rates.cacheMiss) past s
  have b := isFinite_trend_iff (fun t => t.rates.branchMiss) past s
  have i := isFinite_trend_iff (fun t => t.rates.ipc) past s
  simp only [isFinite_direct_eq_all, List.map_map, List.all_cons, List.all_nil, Bool.and_eq_true]
  constructor
  · rintro ⟨-, -, -, cm, bm, im, cd, bd, id, cc, bc, ic, -⟩ t mem
    exact Rates.isFinite_iff.2
      ⟨c.1 ⟨cm, cd, cc⟩ t mem, b.1 ⟨bm, bd, bc⟩ t mem, i.1 ⟨im, id, ic⟩ t mem⟩
  · intro all
    obtain ⟨cm, cd, cc⟩ := c.2 fun t mem => (Rates.isFinite_iff.1 (all t mem)).1
    obtain ⟨bm, bd, bc⟩ := b.2 fun t mem => (Rates.isFinite_iff.1 (all t mem)).2.1
    obtain ⟨im, id, ic⟩ := i.2 fun t mem => (Rates.isFinite_iff.1 (all t mem)).2.2
    have own : s ∈ (past ++ [s]).rtake 32 := mem_rtake_iff.2 ⟨past.length, by simp, by simp⟩
    obtain ⟨fc, fb, fi⟩ := Rates.isFinite_iff.1 (all s own)
    have rate {r : Single} (h : r.isFinite = true) : r.toFloat.isFinite = true :=
      (Single.isFinite_toFloat r).trans h
    have product {r q : Single} (h : r.isFinite = true) (h' : q.isFinite = true) :
        (r.toFloat * q.toFloat).isFinite = true :=
      (below_mul (Single.below_toFloat h) (Single.below_toFloat h') (by decide)).isFinite
    exact ⟨rate fc, rate fb, rate fi, cm, bm, im, cd, bd, id, cc, bc, ic,
      product fc fi, product fb fi, trivial⟩

/-- The row that is made of a sample after others. -/
theorem getElem?_rows (past : List Sample) (s : Sample) (later : List Sample) :
    (initial.rows (past ++ s :: later))[past.length]?
      = some (direct 32 (past.map Input.ofSample) (Input.ofSample s)) := by
  have made := getElem?_vectors 32 (past.map Input.ofSample) (Input.ofSample s)
    (later.map Input.ofSample)
  rw [List.length_map] at made
  rw [rows_eq_vectors, List.map_append, List.map_cons]
  exact made

/-- The rows of a stream: a row is finite exactly if the last records up to it have finite rates. -/
theorem isFinite_of_getElem?_rows {samples : List Sample} {n : Nat} {row : FeatureVector Float}
    (there : (initial.rows samples)[n]? = some row) :
    row.isFinite = true ↔
      ∀ j s, j ≤ n → n < j + 32 → samples[j]? = some s → s.rates.isFinite = true := by
  have lt : n < samples.length := by
    rw [← length_rows initial samples]
    exact (List.getElem?_eq_some_iff.1 there).1
  obtain ⟨past, s, later, rfl, rfl⟩ : ∃ past s later, samples = past ++ s :: later ∧
      past.length = n :=
    ⟨samples.take n, samples[n], samples.drop (n + 1), by simp, by simp [lt.le]⟩
  rw [getElem?_rows] at there
  rw [← Option.some.inj there, isFinite_direct_iff]
  have place (j : Nat) (le : j ≤ past.length) : (past ++ [s])[j]? = (past ++ s :: later)[j]? := by
    rcases Nat.lt_or_eq_of_le le with less | rfl
    · rw [List.getElem?_append_left less, List.getElem?_append_left less]
    · rw [List.getElem?_concat_length, List.getElem?_append_right (Nat.le_refl _), Nat.sub_self,
        List.getElem?_cons_zero]
  constructor
  · intro all j t le recent found
    refine all t (mem_rtake_iff.2 ⟨j, ?_, (place j le).trans found⟩)
    rw [List.length_append, List.length_singleton]
    omega
  · intro all t mem
    obtain ⟨j, recent, found⟩ := mem_rtake_iff.1 mem
    have le : j < (past ++ [s]).length := (List.getElem?_eq_some_iff.1 found).1
    rw [List.length_append, List.length_singleton] at recent le
    exact all j t (by omega) (by omega) ((place j (by omega)).symm.trans found)

section

variable {past later : List Sample} {s : Sample} {row : FeatureVector Float}
  (before : ∀ t ∈ past, t.rates.isFinite = true) (undefined : s.rates.isFinite = false)
  (after : ∀ t ∈ later, t.rates.isFinite = true)

include before undefined after

/-- The rows of a stream with one record whose rates are not finite: those of the window that it is
in are not finite, and all others are. -/
theorem isFinite_of_getElem?_rows_single {n : Nat}
    (there : (initial.rows (past ++ s :: later))[n]? = some row) :
    row.isFinite = true ↔ ¬(past.length ≤ n ∧ n < past.length + 32) := by
  rw [isFinite_of_getElem?_rows there]
  constructor
  · rintro all ⟨low, high⟩
    have own : (past ++ s :: later)[past.length]? = some s := by simp
    have finite := all past.length s low high own
    rw [undefined] at finite
    cases finite
  · intro outside j t le recent found
    rcases Nat.lt_trichotomy j past.length with less | rfl | more
    · rw [List.getElem?_append_left less] at found
      exact before t (List.mem_of_getElem? found)
    · exact absurd ⟨le, recent⟩ outside
    · obtain ⟨k, rfl⟩ := Nat.exists_eq_add_of_lt more
      rw [List.getElem?_append_right (by omega)] at found
      have rest : past.length + k + 1 - past.length = k + 1 := by omega
      rw [rest, List.getElem?_cons_succ] at found
      exact after t (List.mem_of_getElem? found)

theorem isFinite_of_mem_window
    (mem : row ∈ ((initial.rows (past ++ s :: later)).drop past.length).take 32) :
    row.isFinite = false := by
  obtain ⟨i, lt, there⟩ := List.mem_take_iff_getElem.1 mem
  rw [List.getElem_drop] at there
  rw [← Bool.not_eq_true, isFinite_of_getElem?_rows_single before undefined after
    (List.getElem?_eq_some_iff.2 ⟨_, there⟩)]
  exact fun outside => outside ⟨by omega, by omega⟩

theorem isFinite_of_mem_outside
    (mem : row ∈ (initial.rows (past ++ s :: later)).take past.length
      ++ (initial.rows (past ++ s :: later)).drop (past.length + 32)) :
    row.isFinite = true := by
  rcases List.mem_append.1 mem with early | late
  · obtain ⟨i, lt, there⟩ := List.mem_take_iff_getElem.1 early
    exact (isFinite_of_getElem?_rows_single before undefined after
      (List.getElem?_eq_some_iff.2 ⟨_, there⟩)).2 (by omega)
  · obtain ⟨i, there⟩ := List.mem_iff_getElem?.1 late
    rw [List.getElem?_drop] at there
    exact (isFinite_of_getElem?_rows_single before undefined after there).2 (by omega)

end

end Extractor

namespace Detector

variable {α : Type} [Scalar α]

/-- A training depends on the finite rows alone. -/
theorem train_congr (d : Detector α) (now : Moment) {rows rows' : List (FeatureVector α)}
    (same : rows.filter FeatureVector.isFinite = rows'.filter FeatureVector.isFinite) :
    d.train now rows = d.train now rows' := by
  rw [train, train, same]

end Detector

namespace Extractor

open Detector

/-- **Undefined rates spoil the rows of one window and leave no trace.** After any records, the next
row is finite exactly if the last thirty-two records, or all if there are fewer, have three finite
rates. So records with finite rates, however many and however large, lead to finite rows alone; and
one record whose rates are not finite, in a stream of others, spoils the thirty-two rows from its
own on, as far as the stream goes: no training uses them and no backlog keeps them, and both take
all others. -/
theorem undefined_rates_spoil_one_window :
    (∀ (past : List Sample) (s : Sample) (later : List Sample),
      ∃ row, (initial.rows (past ++ s :: later))[past.length]? = some row ∧
        (row.isFinite = true ↔
          ∀ t ∈ (past ++ [s]).rtake (min 32 (past.length + 1)), t.rates.isFinite = true)) ∧
    (∀ samples : List Sample, (∀ s ∈ samples, s.rates.isFinite = true) →
      ∀ row ∈ initial.rows samples, row.isFinite = true) ∧
    ∀ (past : List Sample) (s : Sample) (later : List Sample),
      (∀ t ∈ past, t.rates.isFinite = true) → s.rates.isFinite = false →
      (∀ t ∈ later, t.rates.isFinite = true) →
      let rows := initial.rows (past ++ s :: later)
      let spoilt := (rows.drop past.length).take 32
      let sound := rows.take past.length ++ rows.drop (past.length + 32)
      spoilt.length = min 32 (later.length + 1) ∧
      (∀ row ∈ spoilt, row.isFinite = false) ∧ (∀ row ∈ sound, row.isFinite = true) ∧
      ∀ d : Detector Float, (∀ now, d.train now rows = d.train now sound) ∧
        (∀ row ∈ spoilt, (d.addNormal row).1 = d) ∧
        ∀ row ∈ sound, (d.addNormal row).1 = d.keep row := by
  refine ⟨fun past s later => ⟨_, getElem?_rows past s later, ?_⟩, fun samples all row mem => ?_,
    fun past s later before undefined after => ?_⟩
  · have whole : (past ++ [s]).length = past.length + 1 := List.length_append
    have same : (past ++ [s]).rtake (min 32 (past.length + 1)) = (past ++ [s]).rtake 32 := by
      rw [List.rtake, List.rtake, whole]
      congr 1
      omega
    rw [same, isFinite_direct_iff]
  · obtain ⟨n, there⟩ := List.mem_iff_getElem?.1 mem
    exact (isFinite_of_getElem?_rows there).2
      fun j s _ _ found => all s (List.mem_of_getElem? found)
  · intro rows spoilt sound
    have length : rows.length = past.length + (later.length + 1) := by
      rw [length_rows, List.length_append, List.length_cons]
    have bad : ∀ row ∈ spoilt, row.isFinite = false :=
      fun row mem => isFinite_of_mem_window before undefined after mem
    have good : ∀ row ∈ sound, row.isFinite = true :=
      fun row mem => isFinite_of_mem_outside before undefined after mem
    have parts : rows = rows.take past.length ++ (spoilt ++ rows.drop (past.length + 32)) := by
      rw [← List.drop_drop, List.take_append_drop, List.take_append_drop]
    refine ⟨?_, bad, good, fun d => ⟨fun now => d.train_congr now ?_, fun row mem => ?_,
      fun row mem => ?_⟩⟩
    · rw [List.length_take, List.length_drop, length]
      omega
    · have none : spoilt.filter FeatureVector.isFinite = [] :=
        List.filter_eq_nil_iff.2 fun row mem => by rw [bad row mem]; exact Bool.false_ne_true
      rw [parts, List.filter_append, List.filter_append, none, List.nil_append, List.filter_append]
    · rw [addNormal, bad row mem]
      rfl
    · rw [addNormal, good row mem]
      rfl

/-- Five ordinary records, one with an undefined rate and forty more: thirty-two rows are spoilt. -/
theorem spoilt_rows_of_undefined_record :
    let past : List Sample := List.replicate 5 {}
    let s : Sample := { rates := { ipc := ⟨0x7fc00000⟩ } }
    let later : List Sample := List.replicate 40 {}
    let rows := initial.rows (past ++ s :: later)
    s.rates.isFinite = false ∧ ((rows.drop 5).take 32).length = 32 ∧
      (∀ row ∈ (rows.drop 5).take 32, row.isFinite = false) ∧
      ∀ row ∈ rows.take 5 ++ rows.drop 37, row.isFinite = true := by
  intro past s later rows
  have ordinary : ∀ n, ∀ t ∈ List.replicate n ({} : Sample), t.rates.isFinite = true :=
    fun n t mem => by rw [List.eq_of_mem_replicate mem]; decide
  have undefined : s.rates.isFinite = false := by decide
  obtain ⟨length, bad, good, -⟩ := undefined_rates_spoil_one_window.2.2 past s later (ordinary 5)
    undefined (ordinary 40)
  exact ⟨undefined, length, bad, good⟩

end Extractor

end CounterWatch
