import CounterWatch.Proofs.Exact
import CounterWatch.Alert.Reason
import CounterWatch.Proofs.RollingFeatures

/-!
# Which rates are named

A rate is a reason when it lies more than three standard deviations from its mean, and both are
taken over a window that the rate itself is part of. In exact arithmetic this decides which reasons
there can be.

* `Reason.ofFeatures_eq` writes the reasons as one test, the same for each of the rates.
* `Trend.sq_sub_mean_le` bounds the distance of a value from the mean of its own window: among `m`
  values it is at most the square root of `m - 1` standard deviations, so that no rate stands out
  among ten values or fewer (`Reason.many_of_excess`) or next to no spread
  (`Reason.lt_deviation_of_excess`).
* `Trend.direct_step` is the trend of a value after a constant run. There the bound is met, whatever
  the size of the jump.
-/

namespace CounterWatch

open Scalar (meanSquare)

/-! ## Trends -/

namespace Trend

/-- Over a single value the spread is none, so that this is no case of its own. -/
theorem deviation_direct (size : ℕ) (past : List ℝ) (x : ℝ) :
    (direct size past x).deviation
      = √(meanSquare ((past ++ [x]).rtake (max 1 size)) (direct size past x).mean) := by
  rw [direct]
  dsimp only
  split_ifs with single
  · obtain ⟨v, alone⟩ := List.length_eq_one_iff.1 single
    rw [alone, ← Scalar.mean, Scalar.mean_exact, Scalar.meanSquare_exact]
    simp
  · rfl

/-- The window of a value is some values before it and the value itself. -/
theorem recent_concat (size : ℕ) (past : List ℝ) (x : ℝ) :
    (past ++ [x]).rtake (max 1 size) = past.rtake (size - 1) ++ [x] := by
  have count : max 1 size = size - 1 + 1 := by omega
  rw [count, List.rtake_concat_succ]

/-- A value lies near the mean of its own window. -/
theorem sq_sub_mean_le (size : ℕ) (past : List ℝ) (x : ℝ) :
    let t := direct size past x
    (x - t.mean) ^ 2 ≤ ((min (max 1 size) (past.length + 1) : ℕ) - 1) * t.deviation ^ 2 := by
  intro t
  have length := length_recent size past x
  rw [recent_concat, List.length_append, List.length_singleton] at length
  have whole : t.mean = Scalar.mean (past.rtake (size - 1) ++ [x]) := by
    rw [← recent_concat]
    rfl
  rw [deviation_direct, Real.sq_sqrt (Scalar.meanSquare_nonneg _ _), recent_concat, whole, ← length,
    Nat.cast_add, Nat.cast_one, add_sub_cancel_right]
  exact Scalar.sq_sub_mean_le _ x

end Trend

/-! ## Reasons -/

namespace Reason

/-- The reasons, in the order in which they are named. -/
def all : List Reason := [.cacheMissSpike, .branchMissSpike, .ipcCollapse]

theorem filter_all (p : Reason → Prop) [DecidablePred p] :
    (all.filter fun r => decide (p r))
      = (if p .cacheMissSpike then [.cacheMissSpike] else [])
        ++ (if p .branchMissSpike then [.branchMissSpike] else [])
        ++ (if p .ipcCollapse then [.ipcCollapse] else []) := by
  simp only [all, List.filter_cons, List.filter_nil, decide_eq_true_eq]
  split_ifs <;> rfl

/-- The rate that a reason is about. -/
def rate {α : Type} : Reason → Extractor.Input α → α
  | .cacheMissSpike => Extractor.Input.cacheMiss
  | .branchMissSpike => Extractor.Input.branchMiss
  | .ipcCollapse => Extractor.Input.ipc

theorem standing_direct {α : Type} [Scalar α] (r : Reason) (size : ℕ)
    (past : List (Extractor.Input α)) (x : Extractor.Input α) :
    let t := Trend.direct size (past.map r.rate) (r.rate x)
    r.standing (Extractor.direct size past x) = ⟨r.rate x, t.mean, t.deviation⟩ := by
  cases r <;> rfl

/-- A distance, counted in the direction that is a reason: upwards for a miss rate and downwards
for the instructions per cycle. -/
def outward : Reason → ℝ → ℝ
  | .cacheMissSpike, d => d
  | .branchMissSpike, d => d
  | .ipcCollapse, d => -d

/-- What stands for the deviation where there is no spread. -/
noncomputable def floor : Reason → ℝ
  | .cacheMissSpike => 1e-6
  | .branchMissSpike => 1e-6
  | .ipcCollapse => 0.01

theorem sq_outward (r : Reason) (d : ℝ) : r.outward d ^ 2 = d ^ 2 := by
  cases r
  case ipcCollapse => exact neg_sq d
  all_goals rfl

theorem abs_outward (r : Reason) (d : ℝ) : |r.outward d| = |d| := by
  rw [← sq_eq_sq_iff_abs_eq_abs, sq_outward]

theorem outward_mul (r : Reason) (d c : ℝ) : r.outward (d * c) = r.outward d * c := by
  cases r
  case ipcCollapse => exact (neg_mul d c).symm
  all_goals rfl

theorem le_floor (r : Reason) : 1e-6 ≤ r.floor := by
  cases r <;> norm_num [floor]

/-- How many deviations a rate lies from its mean, in the direction that is a reason. -/
noncomputable def excess (r : Reason) (s : Standing ℝ) : ℝ :=
  r.outward (s.current - s.mean) / if 1e-12 < s.deviation then s.deviation else r.floor

/-- Where there is a spread, the excess is measured against it. -/
theorem lt_excess_iff {r : Reason} {s : Standing ℝ} (spread : 1e-12 < s.deviation) :
    3 < r.excess s ↔ 3 * s.deviation < r.outward (s.current - s.mean) := by
  rw [excess, if_pos spread, lt_div_iff₀ (lt_trans (by norm_num) spread)]

/-- The reasons in a row are those with a large excess: one test for all three rates. -/
theorem ofFeatures_eq (row : FeatureVector ℝ) :
    ofFeatures row = all.filter fun r => decide (3 < r.excess (r.standing row)) := by
  have limit : (spike : ℝ) = 3 := by norm_num [spike]
  have collapse (s : Standing ℝ) :
      deviation s.current s.mean s.deviation 0.01 < -3 ↔ 3 < excess .ipcCollapse s := by
    rw [excess, outward, neg_div, lt_neg]
    rfl
  simp only [filter_all, ofFeatures, limit, ← collapse]
  rfl

theorem mem_ofFeatures_iff {r : Reason} {row : FeatureVector ℝ} :
    r ∈ ofFeatures row ↔ 3 < r.excess (r.standing row) := by
  have every : r ∈ all := by cases r <;> decide
  rw [ofFeatures_eq, List.mem_filter, decide_eq_true_eq]
  exact and_iff_right every

/-- The words for some reasons contain the name of each of them and of no other. -/
theorem name_infix_describe_iff (p : Reason → Bool) (r : Reason) :
    r.name.toList <:+: (describe (all.filter p)).toList ↔ p r = true := by
  have every (c b i : Bool) : let p : Reason → Bool := fun
        | .cacheMissSpike => c
        | .branchMissSpike => b
        | .ipcCollapse => i
      r.name.toList <:+: (describe (all.filter p)).toList ↔ p r = true := by
    cases r <;> revert c b i <;> decide +kernel
  have same : p = fun
        | .cacheMissSpike => p .cacheMissSpike
        | .branchMissSpike => p .branchMissSpike
        | .ipcCollapse => p .ipcCollapse := by
    funext r
    cases r <;> rfl
  rw [same]
  exact every ..

/-- A reason is named in the words for a row exactly if it is one. -/
theorem name_infix_classify_iff {r : Reason} {row : FeatureVector ℝ} :
    r.name.toList <:+: (classify row).toList ↔ r ∈ ofFeatures row := by
  rw [classify, mem_ofFeatures_iff, ofFeatures_eq, name_infix_describe_iff, decide_eq_true_eq]

/-- Where no rate is a reason, only the models found something. -/
theorem classify_eq_iff {row : FeatureVector ℝ} :
    classify row = "ensemble_anomaly" ↔ ∀ r : Reason, r ∉ ofFeatures row := by
  constructor
  · intro same r mem
    rw [← name_infix_classify_iff, same] at mem
    revert mem
    cases r <;> decide +kernel
  · intro none
    rw [classify, List.eq_nil_iff_forall_not_mem.2 none, describe]

section

variable {r : Reason} {s : Standing ℝ} {m : ℕ}
  (bound : (s.current - s.mean) ^ 2 ≤ (m - 1) * s.deviation ^ 2) (large : 3 < r.excess s)

include bound large

/-- The value that stands for no spread never makes a rate stand out: thirty-two values with next to
no spread are all next to their mean. -/
theorem lt_deviation_of_excess (pos : 0 ≤ s.deviation) (few : m ≤ 32) : 1e-12 < s.deviation := by
  by_contra none
  rw [excess, if_neg none, lt_div_iff₀ (lt_of_lt_of_le (by norm_num) r.le_floor)] at large
  rw [← r.sq_outward] at bound
  have wide : 3e-6 < r.outward (s.current - s.mean) := by linarith [r.le_floor]
  have count : (m : ℝ) ≤ 32 := by exact_mod_cast few
  have far : (3e-6 : ℝ) ^ 2 < r.outward (s.current - s.mean) ^ 2 :=
    pow_lt_pow_left₀ wide (by norm_num) two_ne_zero
  have near : s.deviation ^ 2 ≤ 1e-12 ^ 2 := pow_le_pow_left₀ pos (not_lt.1 none) 2
  have least : (m - 1) * s.deviation ^ 2 ≤ 31 * 1e-12 ^ 2 :=
    mul_le_mul (by linarith) near (sq_nonneg _) (by norm_num)
  norm_num at far least
  linarith

/-- A rate with a spread stands out only among more than ten values. Among ten it can lie three
deviations from the mean, and that is not enough. -/
theorem many_of_excess (spread : 1e-12 < s.deviation) : 11 ≤ m := by
  have pos : 0 < s.deviation := lt_trans (by norm_num) spread
  rw [lt_excess_iff spread] at large
  rw [← r.sq_outward] at bound
  have more : (3 * s.deviation) ^ 2 < (m - 1) * s.deviation ^ 2 :=
    lt_of_lt_of_le (pow_lt_pow_left₀ large (by positivity) two_ne_zero) bound
  rw [mul_pow, mul_lt_mul_iff_left₀ (by positivity)] at more
  have ten : (10 : ℝ) < m := by linarith
  exact_mod_cast ten

end

end Reason

namespace Extractor

/-- **A short or a flat history is no reason.** In exact arithmetic, whatever the inputs: among the
`m` values of a window none lies further from their mean than the square root of `m - 1` of their
standard deviations. So the words for a row contain the name of a rate exactly if there are at least
eleven values in the window and the rate has a spread and lies more than three deviations out; what
stands for the deviation where there is no spread plays no part. For the first ten rows of a stream
they say that the models found something. -/
theorem named_rates_have_history (past : List (Input ℝ)) (x : Input ℝ) (later : List (Input ℝ)) :
    let m := min 32 (past.length + 1)
    ∃ row, (initial.vectors (past ++ x :: later))[past.length]? = some row ∧
      (∀ r : Reason, let s := r.standing row
        (s.current - s.mean) ^ 2 ≤ ((m : ℝ) - 1) * s.deviation ^ 2) ∧
      (∀ r : Reason, let s := r.standing row
        r.name.toList <:+: (Reason.classify row).toList ↔
          11 ≤ m ∧ 1e-12 < s.deviation ∧ 3 * s.deviation < r.outward (s.current - s.mean)) ∧
      (past.length < 10 → Reason.classify row = "ensemble_anomaly") := by
  intro m
  have near (r : Reason) : let s := r.standing (direct 32 past x)
      (s.current - s.mean) ^ 2 ≤ ((m : ℝ) - 1) * s.deviation ^ 2 := by
    have bound := Trend.sq_sub_mean_le 32 (past.map r.rate) (r.rate x)
    rw [List.length_map] at bound
    rw [Reason.standing_direct]
    exact bound
  have named (r : Reason) : let s := r.standing (direct 32 past x)
      r ∈ Reason.ofFeatures (direct 32 past x) ↔
        11 ≤ m ∧ 1e-12 < s.deviation ∧ 3 * s.deviation < r.outward (s.current - s.mean) := by
    intro s
    have pos : 0 ≤ s.deviation := by
      have stands : s = ⟨r.rate x, _, _⟩ := r.standing_direct 32 past x
      rw [stands, Trend.deviation_direct]
      exact Real.sqrt_nonneg _
    rw [Reason.mem_ofFeatures_iff]
    constructor
    · intro large
      have spread := Reason.lt_deviation_of_excess (near r) large pos (Nat.min_le_left ..)
      exact ⟨Reason.many_of_excess (near r) large spread, spread,
        (Reason.lt_excess_iff spread).1 large⟩
    · exact fun ⟨_, spread, far⟩ => (Reason.lt_excess_iff spread).2 far
  refine ⟨direct 32 past x, getElem?_vectors 32 past x later, near, fun r => ?_, fun early => ?_⟩
  · rw [Reason.name_infix_classify_iff]
    exact named r
  · refine Reason.classify_eq_iff.2 fun r mem => ?_
    have many := ((named r).1 mem).1
    omega

/-- After nine quiet samples the tenth is no reason, as extreme as it may be. -/
theorem no_reason_for_tenth_sample :
    ∃ row, (initial.vectors (List.replicate 9 ⟨0, 0, 1⟩ ++ [⟨10 ^ 30, 10 ^ 30, 0⟩]))[9]?
      = some row ∧ Reason.classify (row : FeatureVector ℝ) = "ensemble_anomaly" := by
  obtain ⟨row, made, -, -, early⟩ :=
    named_rates_have_history (List.replicate 9 ⟨0, 0, 1⟩) ⟨10 ^ 30, 10 ^ 30, 0⟩ []
  rw [List.length_replicate] at made early
  exact ⟨row, made, early (by decide)⟩

end Extractor

/-! ## A step after a constant run -/

namespace Scalar

/-- The mean of equal values and one more. -/
theorem mean_step (n : ℕ) (b x : ℝ) :
    mean (List.replicate n b ++ [x]) = b + (x - b) / (n + 1) := by
  have count : (n + 1 : ℝ) ≠ 0 := by positivity
  rw [mean_exact, List.sum_append, List.sum_replicate, List.sum_singleton, nsmul_eq_mul,
    List.length_append, List.length_replicate, List.length_singleton, Nat.cast_add, Nat.cast_one]
  field_simp
  ring

/-- The variance of equal values and one more. -/
theorem meanSquare_step (n : ℕ) (b x : ℝ) :
    meanSquare (List.replicate n b ++ [x]) (b + (x - b) / (n + 1))
      = n * ((x - b) / (n + 1)) ^ 2 := by
  have count : (n + 1 : ℝ) ≠ 0 := by positivity
  rw [meanSquare_exact, List.map_append, List.map_replicate, List.sum_append, List.sum_replicate,
    List.map_singleton, List.sum_singleton, nsmul_eq_mul, List.length_append,
    List.length_replicate, List.length_singleton, Nat.cast_add, Nat.cast_one]
  field_simp
  ring

end Scalar

namespace Trend

/-- The window of a value after a constant run. -/
theorem recent_step (size k : ℕ) (b x : ℝ) :
    (List.replicate k b ++ [x]).rtake (max 1 size)
      = List.replicate (min (size - 1) k) b ++ [x] := by
  rw [recent_concat, List.rtake, List.length_replicate, List.drop_replicate]
  congr 2
  omega

/-- The trend of a value after a constant run: the distance to the mean and the deviation are both
proportional to the jump. -/
theorem direct_step (size k : ℕ) (b x : ℝ) :
    let n := min (size - 1) k
    let t := direct size (List.replicate k b) x
    x - t.mean = (x - b) * n / (n + 1) ∧ t.deviation = |x - b| * √n / (n + 1) := by
  intro n t
  have count : (n + 1 : ℝ) ≠ 0 := by positivity
  have mean : t.mean = b + (x - b) / (n + 1) := by
    rw [← Scalar.mean_step, ← recent_step]
    rfl
  constructor
  · rw [mean]
    field_simp
    ring
  · rw [deviation_direct, recent_step, mean, Scalar.meanSquare_step, Real.sqrt_mul n.cast_nonneg,
      Real.sqrt_sq_eq_abs, abs_div, abs_of_pos (by positivity : (0 : ℝ) < n + 1)]
    ring

end Trend

namespace Reason

/-- What is said of a rate that jumps after a constant run. -/
theorem standing_step (r : Reason) (k : ℕ) (base new : Extractor.Input ℝ) :
    let m : ℕ := min 32 (k + 1)
    let jump := r.rate new - r.rate base
    let s := r.standing (Extractor.direct 32 (List.replicate k base) new)
    s.current - s.mean = jump * (m - 1) / m ∧ s.deviation = |jump| * √(m - 1) / m := by
  intro m jump s
  have count : m = min (32 - 1) k + 1 := by omega
  have trend := Trend.direct_step 32 k (r.rate base) (r.rate new)
  have stands : s = ⟨r.rate new, _, _⟩ := standing_direct r 32 (List.replicate k base) new
  rw [List.map_replicate] at stands
  rw [stands, count, Nat.cast_add, Nat.cast_one, add_sub_cancel_right]
  exact trend

/-- Only a jump in the direction that is a reason gives a spread that counts. -/
theorem pos_of_spread {d : ℝ} {m : ℕ} (spread : 1e-12 < d * √(m - 1) / m) : 0 < d := by
  by_contra wrong
  have none : d * √(m - 1) / m ≤ 0 :=
    div_nonpos_of_nonpos_of_nonneg
      (mul_nonpos_of_nonpos_of_nonneg (not_lt.1 wrong) (Real.sqrt_nonneg _)) m.cast_nonneg
  norm_num at spread
  linarith

section

variable {r : Reason} {m : ℕ} {jump : ℝ} {s : Standing ℝ}
  (many : 11 ≤ m) (distance : s.current - s.mean = jump * (m - 1) / m)
  (deviation : s.deviation = |jump| * √(m - 1) / m)

include many distance deviation

/-- A rate that jumps after a constant run lies as many deviations from its mean as the bound for
windows allows. The size of the jump cancels out. -/
theorem outward_div_deviation (right : 0 < r.outward jump) :
    r.outward (s.current - s.mean) / s.deviation = √(m - 1) := by
  have others : (0 : ℝ) < m - 1 := by
    have eleven : (11 : ℝ) ≤ m := by exact_mod_cast many
    linarith
  have square : (m : ℝ) - 1 = √(m - 1) * √(m - 1) := (Real.mul_self_sqrt others.le).symm
  rw [distance, deviation, ← r.abs_outward, abs_of_pos right, mul_div_assoc, outward_mul]
  nth_rewrite 1 [square]
  field_simp

/-- A rate that jumps after a constant run stands out exactly if the jump goes in the direction that
is a reason and gives a spread that counts. -/
theorem excess_step_iff (few : m ≤ 32) :
    3 < r.excess s ↔ 1e-12 < r.outward jump * √(m - 1) / m := by
  have eleven : (11 : ℝ) ≤ m := by exact_mod_cast many
  have others : (0 : ℝ) ≤ m - 1 := by linarith
  have pos : 0 ≤ s.deviation := by
    rw [deviation]
    positivity
  constructor
  · -- the bound for windows rules out the value that stands for no spread
    intro large
    have bound : (s.current - s.mean) ^ 2 ≤ (m - 1) * s.deviation ^ 2 := by
      rw [distance, deviation, div_pow, div_pow, mul_pow, mul_pow, Real.sq_sqrt others, sq_abs]
      apply le_of_eq
      ring
    have spread := lt_deviation_of_excess bound large pos few
    have right : 0 < r.outward jump := by
      by_contra wrong
      have down : r.outward (s.current - s.mean) ≤ 0 := by
        rw [distance, mul_div_assoc, outward_mul]
        exact mul_nonpos_of_nonpos_of_nonneg (not_lt.1 wrong) (div_nonneg others m.cast_nonneg)
      have none : r.excess s ≤ 0 := by
        rw [excess, if_pos spread]
        exact div_nonpos_of_nonpos_of_nonneg down pos
      linarith
    rwa [deviation, ← r.abs_outward, abs_of_pos right] at spread
  · intro spread
    have right := pos_of_spread spread
    have counts : 1e-12 < s.deviation := by
      rwa [deviation, ← r.abs_outward, abs_of_pos right]
    rw [excess, if_pos counts, outward_div_deviation many distance deviation right]
    exact Real.lt_sqrt_of_sq_lt (by linarith)

end

end Reason

namespace Extractor

/-- **The step response of the reasons.** In exact arithmetic, after a run of at least ten equal
inputs, the words for the next row are made up of the names of the rates that jump in the direction
that is a reason, in order, where a jump counts as soon as it gives a spread at all. A rate that is
named lies the square root of `m - 1` standard deviations from the mean of its window of `m` values,
whatever the size of the jump, and a jump the other way is never named. -/
theorem reasons_of_step (base new : Input ℝ) (later : List (Input ℝ)) {k : ℕ} (long : 10 ≤ k) :
    let m : ℕ := min 32 (k + 1)
    let named (jump : ℝ) : Prop := 1e-12 < jump * √(m - 1) / m
    let c := new.cacheMiss - base.cacheMiss
    let b := new.branchMiss - base.branchMiss
    let i := new.ipc - base.ipc
    ∃ row, (initial.vectors (List.replicate k base ++ new :: later))[k]? = some row ∧
      Reason.classify row = Reason.describe
        ((if named c then [.cacheMissSpike] else []) ++ (if named b then [.branchMissSpike] else [])
          ++ (if named (-i) then [.ipcCollapse] else [])) ∧
      (Reason.classify row = "ensemble_anomaly" ↔ ¬named c ∧ ¬named b ∧ ¬named (-i)) ∧
      ∀ r : Reason, let jump := r.outward (r.rate new - r.rate base)
        (r.name.toList <:+: (Reason.classify row).toList ↔ named jump) ∧
        (named jump → let s := r.standing row
          r.outward (s.current - s.mean) / s.deviation = √(m - 1)) ∧
        (jump ≤ 0 → ¬r.name.toList <:+: (Reason.classify row).toList) := by
  intro m named c b i
  have made := getElem?_vectors 32 (List.replicate k base) new later
  rw [List.length_replicate] at made
  set row := direct 32 (List.replicate k base) new
  have names (r : Reason) : r.name.toList <:+: (Reason.classify row).toList ↔
      named (r.outward (r.rate new - r.rate base)) := by
    obtain ⟨distance, deviation⟩ := r.standing_step k base new
    rw [Reason.name_infix_classify_iff, Reason.mem_ofFeatures_iff]
    exact Reason.excess_step_iff (by omega) distance deviation (by omega)
  have reasons : Reason.ofFeatures row =
      (if named c then [.cacheMissSpike] else []) ++ (if named b then [.branchMissSpike] else [])
        ++ (if named (-i) then [.ipcCollapse] else []) := by
    rw [Reason.ofFeatures_eq]
    simp only [← Reason.mem_ofFeatures_iff, ← Reason.name_infix_classify_iff, names]
    exact Reason.filter_all fun r => named (r.outward (r.rate new - r.rate base))
  refine ⟨row, made, congrArg Reason.describe reasons, ?_, fun r => ⟨names r, fun spread => ?_,
    fun back large => ?_⟩⟩
  · rw [Reason.classify_eq_iff]
    simp only [← Reason.name_infix_classify_iff, names]
    exact ⟨fun none => ⟨none .cacheMissSpike, none .branchMissSpike, none .ipcCollapse⟩,
      fun ⟨noc, nob, noi⟩ r => by cases r <;> assumption⟩
  · obtain ⟨distance, deviation⟩ := r.standing_step k base new
    exact Reason.outward_div_deviation (by omega) distance deviation
      (Reason.pos_of_spread spread)
  · exact absurd (Reason.pos_of_spread ((names r).1 large)) (not_lt.2 back)

/-- Ten quiet samples and then a jump of the cache misses, with more instructions per cycle. -/
theorem reason_of_eleventh_sample :
    ∃ row, (initial.vectors (List.replicate 10 ⟨0, 0, 1⟩ ++ [⟨1 / 10 ^ 9, 0, 2⟩]))[10]? = some row ∧
      Reason.classify (row : FeatureVector ℝ) = "cache_miss_spike" := by
  obtain ⟨row, made, words, -⟩ :=
    reasons_of_step ⟨0, 0, 1⟩ ⟨1 / 10 ^ 9, 0, 2⟩ [] (by decide : 10 ≤ 10)
  refine ⟨row, made, words.trans ?_⟩
  have count : ((min 32 (10 + 1) : ℕ) : ℝ) = 11 := by norm_num
  have root : 1 ≤ √(10 : ℝ) := Real.one_le_sqrt.2 (by norm_num)
  have up : (1e-12 : ℝ) < (1 / 10 ^ 9 - 0) * √(11 - 1) / 11 := by
    norm_num
    linarith
  have same : ¬(1e-12 : ℝ) < (0 - 0) * √(11 - 1) / 11 := by norm_num
  have rise : ¬(1e-12 : ℝ) < -(2 - 1) * √(11 - 1) / 11 := by
    norm_num
    linarith
  rw [count, if_pos up, if_neg same, if_neg rise]
  rfl

end Extractor

end CounterWatch
