import CounterWatch.Proofs.Operations

/-!
# Mixtures

The weighted mean `w * p + (1 - w) * q` of two numbers from zero to one, computed with four
roundings. With exact arithmetic it would lie between the two numbers. Rounded it still does not
leave the intervals that matter: what `w` and `1 - w` add up to is off by a rounding that is small
against one (`complement_spec`), a half of either is exact unless it is tiny (`weighted_le`,
`le_weighted`), and the last rounding makes up for both.

* A mixture of numbers up to one is not above one (`mixture_le_one`).
* A mixture of numbers up to one half is not above one half, and one of numbers from one half on is
  not below (`mixture_le_half`, `half_le_mixture`).
* It grows with either number (`mixture_mono_left`, `mixture_mono_right`).
-/

namespace CounterWatch

namespace Double

variable {w p q : Float}

theorem magnitude_one : magnitude 1.0 = 1023 * 2 ^ 52 := by decide

theorem magnitude_half : magnitude 0.5 = 1022 * 2 ^ 52 := by decide

theorem zero_le_zero : (0.0 : Float) ≤ 0.0 := by decide

theorem zero_le_one : (0.0 : Float) ≤ 1.0 := by decide

theorem one_le_one : (1.0 : Float) ≤ 1.0 := by decide

theorem zero_le_half : (0.0 : Float) ≤ 0.5 := by decide

theorem units_add_of_normal {k m : Nat} (h : BinaryFormat.double.Normal k m) :
    BinaryFormat.double.units (k * 2 ^ 52 + m) = m * 2 ^ k := h.units

/-- The magnitudes about one half and about one, on one scale. -/
theorem exists_scale : ∃ g, 2 ^ 53 ≤ g ∧ BinaryFormat.double.one = 2 ^ 55 * g ∧
    BinaryFormat.double.units (1022 * 2 ^ 52 - 1) = 2 ^ 54 * g - 2 * g ∧
    BinaryFormat.double.units (1022 * 2 ^ 52) = 2 ^ 54 * g ∧
    BinaryFormat.double.units (1022 * 2 ^ 52 + 1) = 2 ^ 54 * g + 4 * g ∧
    BinaryFormat.double.units (1023 * 2 ^ 52) = 2 ^ 55 * g ∧
    BinaryFormat.double.units (1023 * 2 ^ 52 + 1) = 2 ^ 55 * g + 8 * g := by
  have below : BinaryFormat.double.Normal 1020 (2 ^ 53 - 1) := ⟨by decide, .inr (by decide)⟩
  have half : BinaryFormat.double.Normal 1021 (2 ^ 52) := ⟨by decide, .inr (by decide)⟩
  have one : BinaryFormat.double.Normal 1022 (2 ^ 52) := ⟨by decide, .inr (by decide)⟩
  obtain ⟨k, hk⟩ : ∃ k, k = 1019 := ⟨_, rfl⟩
  have scale (j : Nat) : 2 ^ (k + j) = 2 ^ j * 2 ^ k := by rw [Nat.pow_add, Nat.mul_comm]
  have some : 2 ^ 53 ≤ 2 ^ k := Nat.pow_le_pow_right (by decide) (by omega)
  have e0 : 2 ^ 1020 = 2 ^ 1 * 2 ^ k := by rw [← scale, hk]
  have e1 : 2 ^ 1021 = 2 ^ 2 * 2 ^ k := by rw [← scale, hk]
  have e2 : 2 ^ 1022 = 2 ^ 3 * 2 ^ k := by rw [← scale, hk]
  have e3 : 2 ^ 1074 = 2 ^ 55 * 2 ^ k := by rw [← scale, hk]
  generalize 2 ^ k = g at some e0 e1 e2 e3
  refine ⟨g, some, ?_, ?_, ?_, ?_, ?_, ?_⟩
  · rw [one_eq, unitExponent_eq, e3]
  · rw [show 1022 * 2 ^ 52 - 1 = 1020 * 2 ^ 52 + (2 ^ 53 - 1) by decide, units_add_of_normal below, e0]
    omega
  · rw [show 1022 * 2 ^ 52 = 1021 * 2 ^ 52 + 2 ^ 52 by decide, units_add_of_normal half, e1]
    omega
  · rw [show 1022 * 2 ^ 52 + 1 = 1021 * 2 ^ 52 + 2 ^ 52 + 1 by decide]
    exact half.units_succ.trans (by rw [e1]; omega)
  · rw [show 1023 * 2 ^ 52 = 1022 * 2 ^ 52 + 2 ^ 52 by decide, units_add_of_normal one, e2]
    omega
  · rw [show 1023 * 2 ^ 52 + 1 = 1022 * 2 ^ 52 + 2 ^ 52 + 1 by decide]
    exact one.units_succ.trans (by rw [e2]; omega)

/-! ## Numbers from zero to one -/

theorem units_eq (x : Float) : units x = BinaryFormat.double.units (magnitude x) := rfl

theorem units_one : units 1.0 = BinaryFormat.double.one := by
  obtain ⟨g, -, one, -, -, -, units, -⟩ := exists_scale
  rw [Double.units, magnitude_one, units, one]

theorem two_mul_units_half : 2 * units 0.5 = BinaryFormat.double.one := by
  obtain ⟨g, -, one, -, units, -⟩ := exists_scale
  rw [Double.units, magnitude_half, units, one]
  omega

/-- A number from zero to one, by its value. -/
theorem le_one_iff (h : 0.0 ≤ p) : p ≤ 1.0 ↔ units p ≤ BinaryFormat.double.one := by
  rw [le_iff_magnitude h zero_le_one, ← units_one]
  exact BinaryFormat.double.units_le_iff.symm

theorem le_half_iff (h : 0.0 ≤ p) : p ≤ 0.5 ↔ 2 * units p ≤ BinaryFormat.double.one := by
  have same : magnitude p ≤ magnitude 0.5 ↔ units p ≤ units 0.5 :=
    BinaryFormat.double.units_le_iff.symm
  rw [le_iff_magnitude h zero_le_half, same, ← two_mul_units_half]
  omega

theorem half_le_iff (h : 0.0 ≤ p) : 0.5 ≤ p ↔ BinaryFormat.double.one ≤ 2 * units p := by
  have same : magnitude 0.5 ≤ magnitude p ↔ units 0.5 ≤ units p :=
    BinaryFormat.double.units_le_iff.symm
  rw [le_iff_magnitude zero_le_half h, same, ← two_mul_units_half]
  omega

theorem isFinite_of_le_one (h : 0.0 ≤ p) (le : p ≤ 1.0) : p.isFinite = true := by
  rw [le_iff_magnitude h zero_le_one, magnitude_one] at le
  rw [isFinite_iff, infinity_eq]
  omega

/-- Below one, magnitudes are close to each other. -/
theorem step_le {n : Nat} (h : n < 1023 * 2 ^ 52) :
    2 ^ 53 * (BinaryFormat.double.units (n + 1) - BinaryFormat.double.units n)
      ≤ BinaryFormat.double.one := by
  obtain ⟨s, m, rfl, normal⟩ := BinaryFormat.double.exists_normal n
  have full : s = 0 ∨ 2 ^ 52 ≤ m := normal.full
  have width : BinaryFormat.double.fractionBits = 52 := rfl
  have gap : (m + 1) * 2 ^ s - m * 2 ^ s = 2 ^ s := by
    rw [Nat.add_mul, Nat.one_mul, Nat.add_sub_cancel_left]
  have exponent := unitExponent_eq
  rw [width] at h
  rw [normal.units, normal.units_succ, gap, one_eq, ← Nat.pow_add]
  exact Nat.pow_le_pow_right (by decide) (by omega)

/-- What is left of one after a number from zero to one: the two add up to one, but for a rounding
that is small against one. -/
theorem complement_spec (hw : 0.0 ≤ w) (le : w ≤ 1.0) :
    0.0 ≤ 1.0 - w ∧ 1.0 - w ≤ 1.0 ∧
      2 ^ 54 * (units w + units (1.0 - w)) ≤ (2 ^ 54 + 1) * BinaryFormat.double.one ∧
      (2 ^ 54 - 1) * BinaryFormat.double.one ≤ 2 ^ 54 * (units w + units (1.0 - w)) := by
  obtain ⟨nonneg, value⟩ := sub_spec zero_le_one hw (by decide) le
  rw [units_one] at value
  have part := (le_one_iff hw).1 le
  have unit : BinaryFormat.double.units (1023 * 2 ^ 52) = BinaryFormat.double.one := by
    rw [← magnitude_one]
    exact units_one
  have most : BinaryFormat.double.rounded (BinaryFormat.double.one - units w) 1 ≤ 1023 * 2 ^ 52 := by
    apply BinaryFormat.rounded_le (by decide) Nat.one_pos
    rw [unit]
    omega
  have result : magnitude (1.0 - w)
      = BinaryFormat.double.rounded (BinaryFormat.double.one - units w) 1 := by
    rw [value, BinaryFormat.near, infinity_eq]
    omega
  refine ⟨nonneg, ?_, ?_⟩
  · rw [le_iff_magnitude nonneg zero_le_one, result, magnitude_one]
    exact most
  · rw [units_eq (1.0 - w), result]
    rcases Nat.eq_zero_or_pos (units w) with zero | pos
    · rw [zero, Nat.sub_zero, ← unit, BinaryFormat.rounded_units (by decide)]
      omega
    · obtain ⟨n, low, high, -⟩ := BinaryFormat.exists_between (f := .double)
        (a := BinaryFormat.double.one - units w) (by decide) Nat.one_pos
      obtain ⟨down, up⟩ := BinaryFormat.units_rounded_bounds (by decide) Nat.one_pos low high
      have less : n < 1023 * 2 ^ 52 := by
        apply BinaryFormat.double.units_lt_iff.1
        rw [unit]
        omega
      have step := step_le less
      generalize BinaryFormat.double.units (n + 1) - BinaryFormat.double.units n = gap
        at step down up
      omega

/-! ## Mixtures -/

/-- A weight times a number from zero to one is at most the weight. -/
theorem weighted_spec (hw : 0.0 ≤ w) (lw : w ≤ 1.0) (hp : 0.0 ≤ p) (lp : p ≤ 1.0) :
    0.0 ≤ w * p ∧ (w * p).isFinite = true ∧
      magnitude (w * p) = BinaryFormat.double.near (units w * units p) BinaryFormat.double.one ∧
      units (w * p) ≤ units w := by
  have fw := isFinite_of_le_one hw lw
  obtain ⟨nonneg, value⟩ := mul_spec hw hp fw (isFinite_of_le_one hp lp)
  have most : magnitude (w * p) ≤ magnitude w := by
    rw [value]
    apply BinaryFormat.near_le (by decide) one_pos
    exact Nat.mul_le_mul_left _ ((le_one_iff hp).1 lp)
  refine ⟨nonneg, ?_, value, BinaryFormat.double.units_le_iff.2 most⟩
  rw [isFinite_iff] at fw ⊢
  omega

/-- At most half of a weight, up to the next unit. -/
theorem weighted_le (hw : 0.0 ≤ w) (lw : w ≤ 1.0) (hp : 0.0 ≤ p) (half : p ≤ 0.5) (lp : p ≤ 1.0) :
    2 * units (w * p) ≤ units w + 1 := by
  obtain ⟨-, -, value, -⟩ := weighted_spec hw lw hp lp
  obtain ⟨n, low, high, -⟩ := BinaryFormat.double.exists_half (magnitude w) (Nat.le_refl 1)
  rw [le_half_iff hp] at half
  have most : magnitude (w * p) ≤ n := by
    rw [value]
    apply BinaryFormat.near_le (by decide) one_pos
    have whole : units w ≤ 2 * BinaryFormat.double.units n := by
      rw [units_eq]
      omega
    apply Nat.le_of_mul_le_mul_left _ Nat.two_pos
    calc 2 * (units w * units p) = units w * (2 * units p) := by ring
      _ ≤ 2 * BinaryFormat.double.units n * BinaryFormat.double.one := Nat.mul_le_mul whole half
      _ = 2 * (BinaryFormat.double.units n * BinaryFormat.double.one) := Nat.mul_assoc ..
  have order := BinaryFormat.double.units_le_iff.2 most
  rw [units_eq (w * p), units_eq w]
  omega

/-- At least half of a weight, down to the next unit, and not rounded down unless the weight is
small. -/
theorem le_weighted (hw : 0.0 ≤ w) (lw : w ≤ 1.0) (hp : 0.0 ≤ p) (half : 0.5 ≤ p) (lp : p ≤ 1.0) :
    units w ≤ 2 * units (w * p) + 1 ∧ (2 ^ 53 ≤ units w → units w ≤ 2 * units (w * p)) := by
  obtain ⟨-, -, value, -⟩ := weighted_spec hw lw hp lp
  obtain ⟨n, low, high, large⟩ := BinaryFormat.double.exists_half (magnitude w) (Nat.zero_le 1)
  rw [half_le_iff hp] at half
  have bound : n ≤ magnitude w := by
    apply BinaryFormat.double.units_le_iff.1
    omega
  have least : n ≤ magnitude (w * p) := by
    have finite := isFinite_iff.1 (isFinite_of_le_one hw lw)
    rw [value]
    apply BinaryFormat.le_near (by decide) one_pos (by omega)
    calc BinaryFormat.double.units n * BinaryFormat.double.one
        ≤ BinaryFormat.double.units n * (2 * units p) := Nat.mul_le_mul_left _ half
      _ = 2 * BinaryFormat.double.units n * units p := by ring
      _ ≤ units w * units p := Nat.mul_le_mul_right _ high
  have order := BinaryFormat.double.units_le_iff.2 least
  have wide : BinaryFormat.double.fractionBits + 1 = 53 := rfl
  rw [wide] at large
  rw [units_eq (w * p), units_eq w]
  refine ⟨by omega, fun h => ?_⟩
  have same := large h
  omega

/-- A weight times a number grows with the number. -/
theorem weighted_mono {p' : Float} (hw : 0.0 ≤ w) (lw : w ≤ 1.0) (hp : 0.0 ≤ p) (hp' : 0.0 ≤ p')
    (lp' : p' ≤ 1.0) (le : p ≤ p') : units (w * p) ≤ units (w * p') := by
  have order := (le_iff_magnitude hp hp').1 le
  have lp : p ≤ 1.0 := by
    rw [le_iff_magnitude hp' zero_le_one] at lp'
    rw [le_iff_magnitude hp zero_le_one]
    omega
  obtain ⟨-, -, less, -⟩ := weighted_spec hw lw hp lp
  obtain ⟨-, -, more, -⟩ := weighted_spec hw lw hp' lp'
  rw [units_eq, units_eq, BinaryFormat.units_le_iff, less, more]
  apply BinaryFormat.near_mono (by decide) one_pos one_pos
  exact Nat.mul_le_mul_right _ (Nat.mul_le_mul_left _ (BinaryFormat.double.units_le_iff.2 order))

/-- The mean of two numbers, the weight being that of the first. -/
def mixture (w p q : Float) : Float := w * p + (1.0 - w) * q

section

variable (hw : 0.0 ≤ w) (lw : w ≤ 1.0) (hp : 0.0 ≤ p) (lp : p ≤ 1.0) (hq : 0.0 ≤ q) (lq : q ≤ 1.0)

include hw lw hp lp hq lq

theorem mixture_spec : 0.0 ≤ mixture w p q ∧ magnitude (mixture w p q)
    = BinaryFormat.double.near (units (w * p) + units ((1.0 - w) * q)) 1 := by
  obtain ⟨hv, lv, -, -⟩ := complement_spec hw lw
  obtain ⟨left, finite, -, -⟩ := weighted_spec hw lw hp lp
  obtain ⟨right, finite', -, -⟩ := weighted_spec hv lv hq lq
  exact add_spec left right finite finite'

/-- A mean of numbers up to one is not above one. -/
theorem mixture_le_one : mixture w p q ≤ 1.0 := by
  obtain ⟨hv, lv, above, -⟩ := complement_spec hw lw
  obtain ⟨-, -, -, left⟩ := weighted_spec hw lw hp lp
  obtain ⟨-, -, -, right⟩ := weighted_spec hv lv hq lq
  obtain ⟨nonneg, value⟩ := mixture_spec hw lw hp lp hq lq
  obtain ⟨g, some, one, -, -, -, unit, next⟩ := exists_scale
  rw [le_iff_magnitude nonneg zero_le_one, value, magnitude_one]
  apply Nat.le_trans (Nat.min_le_left ..)
  apply BinaryFormat.rounded_le_of_middle (by decide) Nat.one_pos (by decide)
  rw [unit, next]
  omega

/-- A mean of numbers up to one half is not above one half. -/
theorem mixture_le_half (hp' : p ≤ 0.5) (hq' : q ≤ 0.5) : mixture w p q ≤ 0.5 := by
  obtain ⟨hv, lv, above, -⟩ := complement_spec hw lw
  have left := weighted_le hw lw hp hp' lp
  have right := weighted_le hv lv hq hq' lq
  obtain ⟨nonneg, value⟩ := mixture_spec hw lw hp lp hq lq
  obtain ⟨g, some, one, -, unit, next, -⟩ := exists_scale
  rw [le_iff_magnitude nonneg zero_le_half, value, magnitude_half]
  apply Nat.le_trans (Nat.min_le_left ..)
  apply BinaryFormat.rounded_le_of_middle (by decide) Nat.one_pos (by decide)
  rw [unit, next]
  omega

/-- A mean of numbers from one half on is not below one half. -/
theorem half_le_mixture (hp' : 0.5 ≤ p) (hq' : 0.5 ≤ q) : 0.5 ≤ mixture w p q := by
  obtain ⟨hv, lv, -, below⟩ := complement_spec hw lw
  obtain ⟨left, exact_left⟩ := le_weighted hw lw hp hp' lp
  obtain ⟨right, exact_right⟩ := le_weighted hv lv hq hq' lq
  obtain ⟨nonneg, value⟩ := mixture_spec hw lw hp lp hq lq
  obtain ⟨g, large, one, previous, unit, -⟩ := exists_scale
  rw [le_iff_magnitude zero_le_half nonneg, value, magnitude_half]
  -- one of the weights is large, and so half of it is exact; the other half is off by half a unit,
  -- which cannot matter, as the sum of the two is a whole number of units
  have sum : 2 ^ 54 * g - g ≤ units (w * p) + units ((1.0 - w) * q) := by
    omega
  refine Nat.le_min.2 ⟨?_, by decide⟩
  apply BinaryFormat.le_rounded_of_middle (by decide) Nat.one_pos (by decide)
  rw [unit, previous]
  omega

/-- A mean grows with the first number. -/
theorem mixture_mono_left {p' : Float} (hp' : 0.0 ≤ p') (lp' : p' ≤ 1.0) (le : p ≤ p') :
    mixture w p q ≤ mixture w p' q := by
  have part := weighted_mono hw lw hp hp' lp' le
  obtain ⟨nonneg, value⟩ := mixture_spec hw lw hp lp hq lq
  obtain ⟨nonneg', value'⟩ := mixture_spec hw lw hp' lp' hq lq
  rw [le_iff_magnitude nonneg nonneg', value, value']
  exact BinaryFormat.near_mono (by decide) Nat.one_pos Nat.one_pos (by omega)

/-- A mean grows with the second number. -/
theorem mixture_mono_right {q' : Float} (hq' : 0.0 ≤ q') (lq' : q' ≤ 1.0) (le : q ≤ q') :
    mixture w p q ≤ mixture w p q' := by
  obtain ⟨hv, lv, -, -⟩ := complement_spec hw lw
  have part := weighted_mono hv lv hq hq' lq' le
  obtain ⟨nonneg, value⟩ := mixture_spec hw lw hp lp hq lq
  obtain ⟨nonneg', value'⟩ := mixture_spec hw lw hp lp hq' lq'
  rw [le_iff_magnitude nonneg nonneg', value, value']
  exact BinaryFormat.near_mono (by decide) Nat.one_pos Nat.one_pos (by omega)

end

end Double

end CounterWatch
