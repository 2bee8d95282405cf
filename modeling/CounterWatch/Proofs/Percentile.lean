import CounterWatch.Proofs.Exact
import CounterWatch.Model.Percentile

/-!
# Percentiles of exact values

A percentile lies between the two sorted values that its rank lies between. So its rank says how
many values lie below it and how many above.

* `Scalar.interpolated` is the value at a rank, and `Scalar.percentile?_eq` says that a percentile is
  the value at its own.
* `Scalar.AtRank` is what a value of a rank is among sorted ones, and `Scalar.percentile?_atRank`
  says that a percentile is such a value, whether its rank is a whole number or not.
* `Scalar.AtRank.countP_lt_le` and `Scalar.AtRank.countP_gt_le` bound the counts of smaller and of
  greater values; where no value occurs twice, the bounds are met.
* `Scalar.share_below_percentile` and `Scalar.share_above_percentile` are the two counts for a
  percentile that is given by a share of the values.
-/

namespace CounterWatch

/-! ## Beginnings of lists -/

section

variable {β : Type} {p : β → Bool} {xs : List β} {k : ℕ}

theorem countP_le_of_drop (none : ∀ x ∈ xs.drop k, p x = false) : xs.countP p ≤ k := by
  have rest : (xs.drop k).countP p = 0 :=
    List.countP_eq_zero.2 fun x mem => by rw [none x mem]; exact Bool.false_ne_true
  calc
    xs.countP p = (xs.take k).countP p + (xs.drop k).countP p := by
      rw [← List.countP_append, List.take_append_drop]
    _ = (xs.take k).countP p := by rw [rest, Nat.add_zero]
    _ ≤ (xs.take k).length := List.countP_le_length
    _ ≤ k := List.length_take_le ..

theorem le_countP_of_take (all : ∀ x ∈ xs.take k, p x = true) (le : k ≤ xs.length) :
    k ≤ xs.countP p :=
  calc
    k = (xs.take k).length := (List.length_take_of_le le).symm
    _ = (xs.take k).countP p := (List.countP_eq_length.2 all).symm
    _ ≤ xs.countP p := (List.take_sublist k xs).countP_le

end

namespace Scalar

/-! ## Sorting -/

/-- The order for sorting is linear. Values that stand in it both ways are the same. -/
structure SortsLinearly (α : Type) [Scalar α] : Prop where
  trans : ∀ a b c : α, sortLe a b = true → sortLe b c = true → sortLe a c = true
  total : ∀ a b : α, (sortLe a b || sortLe b a) = true
  antisymm : ∀ a b : α, sortLe a b = true → sortLe b a = true → a = b

theorem SortsLinearly.pairwise_mergeSort {α : Type} [Scalar α] (linear : SortsLinearly α)
    (values : List α) : (values.mergeSort sortLe).Pairwise fun a b => sortLe a b = true :=
  List.pairwise_mergeSort linear.trans linear.total values

theorem sortsLinearly_exact : SortsLinearly ℝ where
  trans a b c := by simpa using le_trans
  total a b := by simpa using le_total a b
  antisymm a b := by simpa using le_antisymm

/-! ## Values of a rank -/

/-- What a value is among sorted ones if its rank lies as given between their places. -/
structure AtRank (sorted : List ℝ) (rank v : ℝ) : Prop where
  ge_of_le : ∀ i (lt : i < sorted.length), i ≤ rank → sorted[i] ≤ v
  le_of_ge : ∀ i (lt : i < sorted.length), rank ≤ i → v ≤ sorted[i]
  gt_of_lt : sorted.Nodup → ∀ i (lt : i < sorted.length), i < rank → sorted[i] < v
  lt_of_gt : sorted.Nodup → ∀ i (lt : i < sorted.length), rank < i → v < sorted[i]

/-- The value at a rank, on the straight line between the two values that the rank lies between. -/
noncomputable def interpolated (sorted : List ℝ) (rank : ℝ) : ℝ :=
  sorted.getD ⌊rank⌋₊ 0
    + (sorted.getD ⌈rank⌉₊ 0 - sorted.getD ⌊rank⌋₊ 0) * (rank - ⌊rank⌋₊)

theorem interpolated_eq {sorted : List ℝ} {rank : ℝ} (ltf : ⌊rank⌋₊ < sorted.length)
    (ltc : ⌈rank⌉₊ < sorted.length) : interpolated sorted rank
      = sorted[⌊rank⌋₊] + (sorted[⌈rank⌉₊] - sorted[⌊rank⌋₊]) * (rank - ⌊rank⌋₊) := by
  simp only [interpolated, List.getD_eq_getElem?_getD, List.getElem?_eq_getElem ltf,
    List.getElem?_eq_getElem ltc, Option.getD_some]

section

variable {sorted : List ℝ} (order : sorted.Pairwise (· ≤ ·))

include order

theorem getElem_le_getElem {i j : ℕ} (le : i ≤ j) (lt : j < sorted.length) :
    sorted[i] ≤ sorted[j] := by
  rcases Nat.lt_or_eq_of_le le with less | rfl
  · exact List.pairwise_iff_getElem.1 order i j _ lt less
  · exact le_refl _

theorem getElem_lt_getElem (distinct : sorted.Nodup) {i j : ℕ} (less : i < j)
    (lt : j < sorted.length) : sorted[i] < sorted[j] := by
  refine lt_of_le_of_ne (getElem_le_getElem order less.le lt) fun same => ?_
  exact less.ne (distinct.getElem_inj_iff.1 same)

/-- The interpolated value lies as its rank does. If the rank is a whole number, the values on both
sides of it are the same. -/
theorem atRank_interpolated {rank : ℝ} (pos : 0 ≤ rank) (ltc : ⌈rank⌉₊ < sorted.length) :
    AtRank sorted rank (interpolated sorted rank) := by
  have ltf := lt_of_le_of_lt (Nat.floor_le_ceil rank) ltc
  rw [interpolated_eq ltf ltc]
  have span := sub_nonneg.2 (getElem_le_getElem order (Nat.floor_le_ceil rank) ltc)
  have part : 0 ≤ rank - ⌊rank⌋₊ := sub_nonneg.2 (Nat.floor_le pos)
  have rest : rank - ⌊rank⌋₊ < 1 := by linarith [Nat.lt_floor_add_one rank]
  have low := le_add_of_nonneg_right (a := sorted[⌊rank⌋₊]) (mul_nonneg span part)
  have high : sorted[⌊rank⌋₊] + (sorted[⌈rank⌉₊] - sorted[⌊rank⌋₊]) * (rank - ⌊rank⌋₊)
      ≤ sorted[⌈rank⌉₊] := by linarith [mul_le_of_le_one_right span rest.le]
  refine ⟨fun i _ le => (getElem_le_getElem order (Nat.le_floor le) ltf).trans low,
    fun i lt ge => high.trans (getElem_le_getElem order (Nat.ceil_le.2 ge) lt),
    fun distinct i _ less => ?_, fun distinct i lt more => ?_⟩
  · rcases Nat.lt_or_eq_of_le (Nat.le_floor less.le) with before | rfl
    · exact (getElem_lt_getElem order distinct before ltf).trans_le low
    · have apart := sub_pos.2 (getElem_lt_getElem order distinct (Nat.lt_ceil.2 less) ltc)
      exact lt_add_of_pos_right _ (mul_pos apart (sub_pos.2 less))
  · rcases Nat.lt_or_eq_of_le (Nat.ceil_le.2 more.le) with after | rfl
    · exact high.trans_lt (getElem_lt_getElem order distinct after lt)
    · have strict : ⌊rank⌋₊ < ⌈rank⌉₊ := (Nat.floor_lt pos).2 more
      have apart := sub_pos.2 (getElem_lt_getElem order distinct strict ltc)
      linarith [mul_lt_of_lt_one_right apart rest]

end

namespace AtRank

variable {sorted : List ℝ} {rank v : ℝ} (placed : AtRank sorted rank v)

include placed

theorem countP_lt_le : sorted.countP (fun x => decide (x < v)) ≤ ⌈rank⌉₊ := by
  refine countP_le_of_drop fun x mem => ?_
  obtain ⟨i, lt, rfl⟩ := List.mem_drop_iff_getElem.1 mem
  exact decide_eq_false (not_lt.2 (placed.le_of_ge _ _ (Nat.ceil_le.1 (Nat.le_add_right ..))))

theorem countP_lt_eq (distinct : sorted.Nodup) (le : ⌈rank⌉₊ ≤ sorted.length) :
    sorted.countP (fun x => decide (x < v)) = ⌈rank⌉₊ := by
  refine Nat.le_antisymm placed.countP_lt_le (le_countP_of_take (fun x mem => ?_) le)
  obtain ⟨i, lt, rfl⟩ := List.mem_take_iff_getElem.1 mem
  exact decide_eq_true (placed.gt_of_lt distinct i _ (Nat.lt_ceil.1 (Nat.lt_of_lt_of_le lt
    (Nat.min_le_left ..))))

/-- The values up to the rank are not greater. -/
theorem countP_gt_add_le (pos : 0 ≤ rank) (lt : ⌊rank⌋₊ < sorted.length) :
    sorted.countP (fun x => decide (v < x)) + (⌊rank⌋₊ + 1) ≤ sorted.length := by
  have others : ⌊rank⌋₊ + 1 ≤ sorted.countP fun x => decide ¬decide (v < x) = true := by
    refine le_countP_of_take (fun x mem => ?_) lt
    obtain ⟨i, before, rfl⟩ := List.mem_take_iff_getElem.1 mem
    have le : i ≤ ⌊rank⌋₊ := Nat.le_of_lt_succ (Nat.lt_of_lt_of_le before (Nat.min_le_left ..))
    simpa using placed.ge_of_le i _ ((Nat.le_floor_iff pos).1 le)
  rw [List.length_eq_countP_add_countP fun x => decide (v < x)]
  exact Nat.add_le_add_left others _

theorem countP_gt_add_eq (distinct : sorted.Nodup) (pos : 0 ≤ rank)
    (lt : ⌊rank⌋₊ < sorted.length) :
    sorted.countP (fun x => decide (v < x)) + (⌊rank⌋₊ + 1) = sorted.length := by
  refine Nat.le_antisymm (placed.countP_gt_add_le pos lt) ?_
  have others : (sorted.countP fun x => decide ¬decide (v < x) = true) ≤ ⌊rank⌋₊ + 1 := by
    refine countP_le_of_drop fun x mem => ?_
    obtain ⟨i, after, rfl⟩ := List.mem_drop_iff_getElem.1 mem
    have more : rank < ((⌊rank⌋₊ + 1 + i : ℕ) : ℝ) :=
      (Nat.floor_lt pos).1 (Nat.lt_of_lt_of_le (Nat.lt_succ_self _) (Nat.le_add_right ..))
    simpa using placed.lt_of_gt distinct _ _ more
  conv_lhs => rw [List.length_eq_countP_add_countP fun x => decide (v < x)]
  exact Nat.add_le_add_left others _

end AtRank

/-! ## Percentiles -/

/-- The rank of a percentile, written as a maximum of minima. -/
theorem percentileRank_eq (n : ℕ) (q : ℝ) :
    percentileRank n q = max 0 (min 1 (q / 100)) * ((n - 1 : ℕ) : ℝ) := by
  have share : (q : ℝ) / 100.0 = q / 100 := by norm_num
  rw [percentileRank, ofNat_exact, zero_exact, one_exact, share, clamp_exact zero_le_one]

theorem percentileRank_mem (n : ℕ) (q : ℝ) :
    0 ≤ percentileRank n q ∧ percentileRank n q ≤ ((n - 1 : ℕ) : ℝ) := by
  have last : (0 : ℝ) ≤ ((n - 1 : ℕ) : ℝ) := Nat.cast_nonneg _
  rw [percentileRank_eq]
  exact ⟨mul_nonneg (le_max_left ..) last,
    mul_le_of_le_one_left last (max_le zero_le_one (min_le_left ..))⟩

/-- The rank for a share of the values. -/
theorem percentileRank_share (n : ℕ) {r : ℝ} (pos : 0 ≤ r) (le : r ≤ 1) :
    percentileRank n (100.0 * r) = r * ((n - 1 : ℕ) : ℝ) := by
  have share : (100.0 : ℝ) * r / 100 = r := by norm_num
  rw [percentileRank_eq, share, min_eq_right le, max_eq_right pos]

theorem pairwise_mergeSort (values : List ℝ) : (values.mergeSort sortLe).Pairwise (· ≤ ·) := by
  simpa using sortsLinearly_exact.pairwise_mergeSort values

section

variable {values : List ℝ} (some : values ≠ []) (q : ℝ)

include some

theorem ceil_percentileRank_lt : ⌈percentileRank values.length q⌉₊ < values.length := by
  have last := Nat.ceil_le.2 (percentileRank_mem values.length q).2
  have length : 1 ≤ values.length := List.length_pos_iff.2 some
  omega

theorem percentile?_eq : percentile? values q
    = .some (interpolated (values.mergeSort sortLe) (percentileRank values.length q)) := by
  have ltc : ⌈percentileRank values.length q⌉₊ < (values.mergeSort sortLe).length := by
    rw [List.length_mergeSort]
    exact ceil_percentileRank_lt some q
  have ltf := lt_of_le_of_lt (Nat.floor_le_ceil (percentileRank values.length q)) ltc
  rw [interpolated_eq ltf ltc]
  simp only [percentile?, List.size_toArray, List.length_mergeSort, floor_exact, ceil_exact,
    ofNat_exact, List.getElem?_toArray, List.getElem?_eq_getElem ltf,
    List.getElem?_eq_getElem ltc]
  rfl

/-- **A percentile is a value of its rank.** Of any values there is one. -/
theorem percentile?_atRank : ∃ v, percentile? values q = .some v ∧
    AtRank (values.mergeSort sortLe) (percentileRank values.length q) v := by
  have ltc : ⌈percentileRank values.length q⌉₊ < (values.mergeSort sortLe).length := by
    rw [List.length_mergeSort]
    exact ceil_percentileRank_lt some q
  exact ⟨_, percentile?_eq some q, atRank_interpolated (pairwise_mergeSort values)
    (percentileRank_mem values.length q).1 ltc⟩

/-- A percentile lies between two of the values. -/
theorem percentile?_between : ∃ v, percentile? values q = .some v ∧
    (∃ lo ∈ values, lo ≤ v) ∧ ∃ hi ∈ values, v ≤ hi := by
  obtain ⟨v, made, placed⟩ := percentile?_atRank some q
  obtain ⟨pos, le⟩ := percentileRank_mem values.length q
  have many : 0 < values.length := List.length_pos_iff.2 some
  have length : (values.mergeSort sortLe).length = values.length := List.length_mergeSort values
  have first : 0 < (values.mergeSort sortLe).length := by omega
  have last : values.length - 1 < (values.mergeSort sortLe).length := by omega
  exact ⟨v, made,
    ⟨_, List.mem_mergeSort.1 (List.getElem_mem first), placed.ge_of_le 0 first (by simpa using pos)⟩,
    _, List.mem_mergeSort.1 (List.getElem_mem last), placed.le_of_ge _ last le⟩

end

section

variable {n : ℕ} (many : 1 ≤ n) {r : ℝ} (pos : 0 ≤ r) (le : r ≤ 1)

include many le

theorem ceil_share_le : ⌈r * (n - 1)⌉₊ ≤ n - 1 := by
  have last : ((n - 1 : ℕ) : ℝ) = n - 1 := by rw [Nat.cast_sub many, Nat.cast_one]
  rw [← last, Nat.ceil_le]
  exact mul_le_of_le_one_left (Nat.cast_nonneg _) le

include pos

/-- What a share and the rest come to: one is rounded up and the other down. -/
theorem floor_rest_add_ceil_share : ⌊(1 - r) * (n - 1)⌋₊ + ⌈r * (n - 1)⌉₊ = n - 1 := by
  have last : ((n - 1 : ℕ) : ℝ) = n - 1 := by rw [Nat.cast_sub many, Nat.cast_one]
  have within := ceil_share_le many le
  have share : 0 ≤ r * ((n : ℝ) - 1) := by
    rw [← last]
    positivity
  have rest : ⌊(1 - r) * ((n : ℝ) - 1)⌋₊ = n - 1 - ⌈r * ((n : ℝ) - 1)⌉₊ := by
    have low := Nat.le_ceil (r * ((n : ℝ) - 1))
    have high := Nat.ceil_lt_add_one share
    rw [Nat.floor_eq_iff (by rw [← last]; exact mul_nonneg (by linarith) (Nat.cast_nonneg _)),
      Nat.cast_sub within, last]
    constructor <;> linarith
  omega

end

section

variable {values : List ℝ} (some : values ≠ []) {r : ℝ} (pos : 0 ≤ r) (le : r ≤ 1)

include some pos le

/-- **The share below a percentile**: as many values as the share of the way from the first to the
last, rounded up, or fewer if some of them are equal. -/
theorem share_below_percentile : ∃ v, percentile? values (100.0 * r) = .some v ∧
    values.countP (fun x => decide (x < v)) ≤ ⌈r * (values.length - 1)⌉₊ ∧
    (values.Nodup → values.countP (fun x => decide (x < v)) = ⌈r * (values.length - 1)⌉₊) := by
  obtain ⟨v, made, placed⟩ := percentile?_atRank some (100.0 * r)
  have many : 1 ≤ values.length := List.length_pos_iff.2 some
  have perm := List.mergeSort_perm values sortLe
  rw [percentileRank_share _ pos le, Nat.cast_sub many, Nat.cast_one] at placed
  refine ⟨v, made, ?_, fun distinct => ?_⟩
  · rw [← perm.countP_eq]
    exact placed.countP_lt_le
  · rw [← perm.countP_eq]
    refine placed.countP_lt_eq (perm.nodup_iff.2 distinct) ?_
    rw [List.length_mergeSort]
    exact (ceil_share_le many le).trans (Nat.sub_le ..)

/-- **The share above a percentile** that leaves the rest below. -/
theorem share_above_percentile : ∃ v, percentile? values (100.0 * (1.0 - r)) = .some v ∧
    values.countP (fun x => decide (v < x)) ≤ ⌈r * (values.length - 1)⌉₊ ∧
    (values.Nodup → values.countP (fun x => decide (v < x)) = ⌈r * (values.length - 1)⌉₊) := by
  have pos' : 0 ≤ 1 - r := sub_nonneg.2 le
  have le' : 1 - r ≤ 1 := sub_le_self 1 pos
  obtain ⟨v, made, placed⟩ := percentile?_atRank some (100.0 * (1.0 - r))
  have many : 1 ≤ values.length := List.length_pos_iff.2 some
  have perm := List.mergeSort_perm values sortLe
  have rank := (percentileRank_mem values.length (100.0 * (1.0 - r))).1
  rw [one_exact, percentileRank_share _ pos' le', Nat.cast_sub many, Nat.cast_one] at placed rank
  have parts := floor_rest_add_ceil_share many pos le
  have lt : ⌊(1 - r) * ((values.length : ℝ) - 1)⌋₊ < (values.mergeSort sortLe).length := by
    rw [List.length_mergeSort]
    omega
  refine ⟨v, made, ?_, fun distinct => ?_⟩
  · have count := placed.countP_gt_add_le rank lt
    rw [perm.countP_eq, List.length_mergeSort] at count
    omega
  · have count := placed.countP_gt_add_eq (perm.nodup_iff.2 distinct) rank lt
    rw [perm.countP_eq, List.length_mergeSort] at count
    omega

end

end Scalar

end CounterWatch
