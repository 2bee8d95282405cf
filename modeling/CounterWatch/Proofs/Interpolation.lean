import CounterWatch.Proofs.Magnitude
import CounterWatch.Proofs.Percentile

/-!
# Percentiles as a function of their rank

A percentile follows a line through the sorted values, with one corner at each of them. So it keeps
to the values on both sides of its rank, it meets every value at that value's place, and it never
falls as the rank grows.

* `Scalar.mergeSort_eq` says that sorting knows no order but that of the values, and
  `Scalar.percentile?_perm` that no percentile depends on the order in which they are given. This
  needs no exact arithmetic.
* `Scalar.interpolated_mono` is the line, and `Scalar.percentileRank_mono` its argument.
* `Scalar.IsPercentile` is what is said of a percentile, and `Scalar.percentiles_interpolate` says it
  of every one.
-/

namespace CounterWatch

namespace Scalar

/-! ## Sorting -/

section

variable {α : Type} [Scalar α] (linear : SortsLinearly α) {values sorted : List α}

include linear

/-- Sorted values are what sorting makes of the same values in any order. -/
theorem mergeSort_eq (same : sorted.Perm values)
    (order : sorted.Pairwise fun a b => sortLe a b = true) : values.mergeSort sortLe = sorted :=
  List.Perm.eq_of_pairwise (fun a b _ _ => linear.antisymm a b) (linear.pairwise_mergeSort values)
    order ((List.mergeSort_perm values sortLe).trans same.symm)

/-- **A percentile does not depend on the order of the values.** -/
theorem percentile?_perm {values' : List α} (same : values.Perm values') (q : α) :
    percentile? values q = percentile? values' q := by
  have sorted : values.mergeSort sortLe = values'.mergeSort sortLe :=
    mergeSort_eq linear ((List.mergeSort_perm values' sortLe).trans same.symm)
      (linear.pairwise_mergeSort values')
  rw [percentile?, sorted, percentile?]

end

theorem sortKey_injective : Function.Injective Double.sortKey := by
  intro a b same
  have key (x : UInt64) : (Double.sortKey x).toNat
      = if x.toNat < 2 ^ 63 then x.toNat + 2 ^ 63 else 2 ^ 64 - 1 - x.toNat := by
    have lt := x.toNat_lt
    have half : (0x8000000000000000 : UInt64).toNat = 2 ^ 63 := rfl
    by_cases small : x.toNat < 2 ^ 63
    · rw [if_pos small, Double.sortKey, if_pos (UInt64.lt_iff_toNat_lt.2 small), UInt64.toNat_add,
        half, Nat.mod_eq_of_lt (by omega)]
    · rw [if_neg small, Double.sortKey, if_neg fun less => small (UInt64.lt_iff_toNat_lt.1 less),
        UInt64.toNat_not]
      rfl
  have ha := a.toNat_lt
  have hb := b.toNat_lt
  have equal := congrArg UInt64.toNat same
  rw [key, key] at equal
  apply UInt64.toNat_inj.1
  split_ifs at equal <;> omega

theorem sortsLinearly_float : SortsLinearly Float where
  trans a b c hab hbc :=
    decide_eq_true (UInt64.le_trans (of_decide_eq_true hab) (of_decide_eq_true hbc))
  total a b := by
    simpa [sortLe] using UInt64.le_total (Double.sortKey a.toBits) (Double.sortKey b.toBits)
  antisymm a b hab hba := by
    have bits := sortKey_injective
      (UInt64.le_antisymm (of_decide_eq_true hab) (of_decide_eq_true hba))
    rw [← Double.ofBits_toBits a, bits, Double.ofBits_toBits]

/-! ## The line through the values -/

/-- The value at a rank does not fall as the rank grows. -/
theorem interpolated_mono {sorted : List ℝ} (order : sorted.Pairwise (· ≤ ·)) {r r' : ℝ}
    (pos : 0 ≤ r) (le : r ≤ r') (lt : ⌈r'⌉₊ < sorted.length) :
    interpolated sorted r ≤ interpolated sorted r' := by
  have ltc : ⌈r⌉₊ < sorted.length := (Nat.ceil_mono le).trans_lt lt
  by_cases corner : ∃ k : ℕ, r ≤ k ∧ k ≤ r'
  · -- a place between the ranks keeps the values apart
    obtain ⟨k, before, after⟩ := corner
    have place : k < sorted.length := (Nat.cast_le.1 (after.trans (Nat.le_ceil r'))).trans_lt lt
    exact ((atRank_interpolated order pos ltc).le_of_ge k place before).trans
      ((atRank_interpolated order (pos.trans le) lt).ge_of_le k place after)
  · -- otherwise both ranks lie on one piece of the line
    push Not at corner
    have ceil : ⌈r'⌉₊ = ⌈r⌉₊ :=
      le_antisymm (Nat.ceil_le.2 (corner _ (Nat.le_ceil r)).le) (Nat.ceil_mono le)
    have floor : ⌊r'⌋₊ = ⌊r⌋₊ := by
      refine le_antisymm (not_lt.1 fun more => ?_) (Nat.floor_mono le)
      have reached : r ≤ ⌊r'⌋₊ := ((Nat.floor_lt pos).1 more).le
      exact absurd (Nat.floor_le (pos.trans le)) (not_le.2 (corner _ reached))
    have ltf := lt_of_le_of_lt (Nat.floor_le_ceil r) ltc
    have span := sub_nonneg.2 (getElem_le_getElem order (Nat.floor_le_ceil r) ltc)
    have start := interpolated_eq ltf ltc
    have finish : interpolated sorted r'
        = sorted[⌊r⌋₊] + (sorted[⌈r⌉₊] - sorted[⌊r⌋₊]) * (r' - ⌊r⌋₊) := by
      simp only [interpolated_eq (floor.symm ▸ ltf) lt, floor, ceil]
    rw [start, finish]
    linarith [mul_le_mul_of_nonneg_left le span]

theorem percentileRank_mono (n : ℕ) {q q' : ℝ} (le : q ≤ q') :
    percentileRank n q ≤ percentileRank n q' := by
  rw [percentileRank_eq, percentileRank_eq]
  gcongr

theorem percentileRank_of_nonpos (n : ℕ) {q : ℝ} (le : q ≤ 0) : percentileRank n q = 0 := by
  have share : q / 100 ≤ 0 := div_nonpos_of_nonpos_of_nonneg le (by norm_num)
  rw [percentileRank_eq, max_eq_left (min_le_of_right_le share), zero_mul]

theorem percentileRank_of_ge (n : ℕ) {q : ℝ} (ge : 100 ≤ q) :
    percentileRank n q = ((n - 1 : ℕ) : ℝ) := by
  have share : 1 ≤ q / 100 := (one_le_div (by norm_num)).2 ge
  rw [percentileRank_eq, min_eq_left share, max_eq_right zero_le_one, one_mul]

/-! ## Percentiles -/

section

variable {sorted : List ℝ} (order : sorted.Pairwise (· ≤ ·)) (some : 0 < sorted.length)

include order

theorem isLeast_first : IsLeast {x | x ∈ sorted} sorted[0] := by
  refine ⟨List.getElem_mem some, fun x mem => ?_⟩
  obtain ⟨i, lt, rfl⟩ := List.getElem_of_mem mem
  exact getElem_le_getElem order (Nat.zero_le i) lt

theorem isGreatest_last (last : sorted.length - 1 < sorted.length) :
    IsGreatest {x | x ∈ sorted} sorted[sorted.length - 1] := by
  refine ⟨List.getElem_mem last, fun x mem => ?_⟩
  obtain ⟨i, lt, rfl⟩ := List.getElem_of_mem mem
  exact getElem_le_getElem order (by omega) last

end

/-- What it means that a value is the `q`-th percentile of some sorted values: with the rank that
`q`, moved into the interval from 0 to 100, has among their places, the places below and above the
rank are those of values, the percentile lies between the least and the greatest value, between
those up to the place below and those from the place above on, and where the rank is a place it is
the value there, at both ends of the interval and beyond them in particular. -/
structure IsPercentile (sorted : List ℝ) (q v : ℝ) : Prop where
  rank_eq : percentileRank sorted.length q = max 0 (min 1 (q / 100)) * (sorted.length - 1)
  floor_lt : ⌊percentileRank sorted.length q⌋₊ < sorted.length
  ceil_lt : ⌈percentileRank sorted.length q⌉₊ < sorted.length
  least_le : ∃ lo, IsLeast {x | x ∈ sorted} lo ∧ lo ≤ v
  le_greatest : ∃ hi, IsGreatest {x | x ∈ sorted} hi ∧ v ≤ hi
  eq_of_rank : ∀ k (lt : k < sorted.length), percentileRank sorted.length q = k → v = sorted[k]
  isLeast : q ≤ 0 → IsLeast {x | x ∈ sorted} v
  isGreatest : 100 ≤ q → IsGreatest {x | x ∈ sorted} v
  ge_of_le_floor : ∀ i (lt : i < sorted.length), i ≤ ⌊percentileRank sorted.length q⌋₊ →
    sorted[i] ≤ v
  le_of_ceil_le : ∀ i (lt : i < sorted.length), ⌈percentileRank sorted.length q⌉₊ ≤ i →
    v ≤ sorted[i]

/-- The interpolated value is the percentile. -/
theorem isPercentile_interpolated {sorted : List ℝ} (order : sorted.Pairwise (· ≤ ·))
    (some : sorted ≠ []) (q : ℝ) :
    IsPercentile sorted q (interpolated sorted (percentileRank sorted.length q)) := by
  have many : 0 < sorted.length := List.length_pos_iff.2 some
  have last : sorted.length - 1 < sorted.length := by omega
  obtain ⟨pos, le⟩ := percentileRank_mem sorted.length q
  have ltc := ceil_percentileRank_lt some q
  have placed := atRank_interpolated order pos ltc
  have exact_place (k : ℕ) (lt : k < sorted.length) (place : percentileRank sorted.length q = k) :
      interpolated sorted (percentileRank sorted.length q) = sorted[k] :=
    le_antisymm (placed.le_of_ge k lt place.le) (placed.ge_of_le k lt place.ge)
  exact {
    rank_eq := by rw [percentileRank_eq, Nat.cast_sub many, Nat.cast_one]
    floor_lt := lt_of_le_of_lt (Nat.floor_le_ceil _) ltc
    ceil_lt := ltc
    least_le := ⟨_, isLeast_first order many, placed.ge_of_le 0 many (by simpa using pos)⟩
    le_greatest := ⟨_, isGreatest_last order last, placed.le_of_ge _ last le⟩
    eq_of_rank := exact_place
    isLeast := fun low => by
      rw [exact_place 0 many (by simpa using percentileRank_of_nonpos sorted.length low)]
      exact isLeast_first order many
    isGreatest := fun high => by
      rw [exact_place _ last (percentileRank_of_ge sorted.length high)]
      exact isGreatest_last order last
    ge_of_le_floor := fun i lt below => placed.ge_of_le i lt ((Nat.le_floor_iff pos).1 below)
    le_of_ceil_le := fun i lt above => placed.le_of_ge i lt (Nat.ceil_le.1 above) }

/-- **Percentiles interpolate.** Of any values there is a `q`-th percentile, for every `q`, and it is
the percentile of the values in their order, however they are sorted; it does not fall as `q` grows;
and it does not depend on the order in which the values are given. All of this is in exact
arithmetic, and the last also holds of numbers of 64 bits. -/
theorem percentiles_interpolate :
    (∀ values sorted : List ℝ, values ≠ [] → sorted.Perm values → sorted.Pairwise (· ≤ ·) →
      (∀ q, ∃ v, percentile? values q = .some v ∧ IsPercentile sorted q v) ∧
      ∀ q q' : ℝ, q ≤ q' → ∃ v v', percentile? values q = .some v ∧
        percentile? values q' = .some v' ∧ v ≤ v') ∧
    (∀ values values' : List ℝ, values.Perm values' →
      ∀ q, percentile? values q = percentile? values' q) ∧
    ∀ values values' : List Float, values.Perm values' →
      ∀ q, percentile? values q = percentile? values' q := by
  refine ⟨fun values sorted some same order => ?_,
    fun _ _ same q => percentile?_perm sortsLinearly_exact same q,
    fun _ _ same q => percentile?_perm sortsLinearly_float same q⟩
  have merged : values.mergeSort sortLe = sorted :=
    mergeSort_eq sortsLinearly_exact same (order.imp decide_eq_true)
  have made (q : ℝ) : percentile? values q
      = .some (interpolated sorted (percentileRank sorted.length q)) := by
    rw [percentile?_eq some, merged, same.length_eq]
  have some' : sorted ≠ [] := fun none => some (same.symm.trans (none ▸ .refl _)).eq_nil
  refine ⟨fun q => ⟨_, made q, isPercentile_interpolated order some' q⟩, fun q q' le => ?_⟩
  exact ⟨_, _, made q, made q', interpolated_mono order (percentileRank_mem _ q).1
    (percentileRank_mono _ le) (ceil_percentileRank_lt some' q')⟩

/-- Four values out of order: a third of the way is the second of them, and beyond the end of the way
is the greatest. -/
theorem percentiles_of_four_values :
    let values : List ℝ := [4, 1, 3, 2]
    let sorted : List ℝ := [1, 2, 3, 4]
    values ≠ [] ∧ sorted.Perm values ∧ sorted.Pairwise (· ≤ ·) ∧
      percentile? values (100 / 3) = .some 2 ∧ percentile? values 250 = .some 4 ∧
      percentile? [2, 4, 1, 3] (100 / 3) = .some (2 : ℝ) := by
  intro values sorted
  have some : values ≠ [] := List.cons_ne_nil _ _
  have same : sorted.Perm values := by
    have numbers : [1, 2, 3, 4].Perm [4, 1, 3, 2] := by decide
    simpa using numbers.map (Nat.cast : ℕ → ℝ)
  have order : sorted.Pairwise (· ≤ ·) := by norm_num [sorted]
  have percentiles := (percentiles_interpolate.1 values sorted some same order).1
  have third : percentile? values (100 / 3) = .some 2 := by
    obtain ⟨v, made, placed⟩ := percentiles (100 / 3)
    have rank : percentileRank sorted.length (100 / 3 : ℝ) = (1 : ℕ) := by
      rw [placed.rank_eq]
      norm_num [sorted]
    rw [made, placed.eq_of_rank 1 (by decide) rank]
    rfl
  have beyond : percentile? values 250 = .some 4 := by
    obtain ⟨v, made, placed⟩ := percentiles 250
    have greatest : IsGreatest {x | x ∈ sorted} 4 := isGreatest_last order (by decide)
    rw [made, (placed.isGreatest (by norm_num)).unique greatest]
  have other : List.Perm [2, 4, 1, 3] values := by
    have numbers : [2, 4, 1, 3].Perm [4, 1, 3, 2] := by decide
    simpa using numbers.map (Nat.cast : ℕ → ℝ)
  exact ⟨some, same, order, third, beyond,
    (percentiles_interpolate.2.1 _ _ other (100 / 3)).trans third⟩

end Scalar

end CounterWatch
