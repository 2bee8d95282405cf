import CounterWatch.Proofs.Digits
import CounterWatch.Proofs.Nearest
import Mathlib.Algebra.Order.Field.Power
import Mathlib.Algebra.Order.Ring.Rat
import Mathlib.Data.List.DropRight
import Mathlib.Tactic.FieldSimp
import Mathlib.Tactic.NormNum
import Mathlib.Tactic.Positivity

/-!
# The shortest decimal

A number of 64 bits is written with the fewest digits that are read back as the same number. Here is
why there are such digits and why they are read back: the interval of what rounds to the number is
longer than a step of seventeen digits, and any decimal in it is read as the number.

* `Double.ofDecimal_eq` reads a decimal by its value, whatever its notation.
* `Decimal.leadingExponent_spec` is the place of the leading digit of a quotient.
* `Decimal.Rounded.isSome_of_seventeen` finds a candidate, and `ofDecimal_of_holds` reads it.
* `Decimal.shortest_spec` puts them together.
-/

namespace CounterWatch

namespace Double

/-! ## Reading decimals -/

variable {negative : Bool} {num den num' den' c : Nat} {e : Int}

/-- A fraction is read by its value alone. -/
theorem ofFraction_congr (pos : 0 < den) (pos' : 0 < den')
    (same : (num : ℚ) / den = num' / den') :
    ofFraction negative num den = ofFraction negative num' den' := by
  have cross : num * den' = num' * den := by
    rw [div_eq_div_iff (by positivity) (by positivity)] at same
    exact_mod_cast same
  have scaled (k : Nat) : num <<< k * den' = num' <<< k * den := by
    rw [Nat.shiftLeft_eq, Nat.shiftLeft_eq, Nat.mul_right_comm, cross, Nat.mul_right_comm]
  rw [ofFraction, ofFraction, BinaryFormat.nearest_eq, BinaryFormat.nearest_eq,
    BinaryFormat.near_congr (by decide) pos pos' (scaled _)]

theorem ofFraction_zero (pos : 0 < den) : ofFraction negative 0 den = ofMagnitude negative 0 := by
  have zero : BinaryFormat.double.near (0 <<< BinaryFormat.double.unitExponent) den ≤ 0 :=
    BinaryFormat.near_le (by decide) pos (by simp)
  rw [ofFraction, BinaryFormat.nearest_eq, Nat.le_zero.1 zero]

/-- A decimal of moderate exponent is read as the number nearest to its value. -/
theorem ofDecimal_eq (low : -400 ≤ e) (high : e ≤ 400) (pos : 0 < den)
    (same : (c : ℚ) * 10 ^ e = num / den) :
    ofDecimal negative c e = ofFraction negative num den := by
  unfold ofDecimal
  split_ifs with none large small whole
  · have zero : num = 0 := by
      rw [none, Nat.cast_zero, zero_mul, eq_comm, div_eq_zero_iff] at same
      have some : (den : ℚ) ≠ 0 := by positivity
      exact_mod_cast same.resolve_right some
    rw [zero, ofFraction_zero pos]
  · omega
  · omega
  · refine ofFraction_congr Nat.one_pos pos (same ▸ ?_)
    obtain ⟨k, rfl⟩ := Int.eq_ofNat_of_zero_le whole
    simp
  · obtain ⟨k, rfl⟩ : ∃ k : Nat, e = -k := ⟨(-e).toNat, by omega⟩
    refine ofFraction_congr (Nat.pow_pos (by decide)) pos (same ▸ ?_)
    simp [div_eq_mul_inv]

end Double

namespace Decimal

/-! ## The value of a decimal -/

/-- The number that a decimal stands for. -/
def value (d : Decimal) : ℚ := ofDigits d.digits * 10 ^ (d.point - d.digits.length)

/-- A decimal as it is printed: its digits are digits, and the leading one is not zero. -/
structure Proper (d : Decimal) : Prop where
  lt_ten : ∀ x ∈ d.digits, x < 10
  lead : ∀ x ∈ d.digits.head?, x ≠ 0

/-- A coefficient loses the zeros at its end, and nothing else. -/
theorem exists_ofCoefficient (c : Nat) (e : Int) :
    ∃ kept k, digitsOf c = kept ++ List.replicate k 0 ∧
      ofCoefficient c e = ⟨kept, (digitsOf c).length + e⟩ := by
  refine ⟨_, ((digitsOf c).rtakeWhile (· = 0)).length, ?_, rfl⟩
  have zeros : (digitsOf c).rtakeWhile (· = 0)
      = List.replicate ((digitsOf c).rtakeWhile (· = 0)).length 0 := by
    refine List.eq_replicate_length.2 fun d mem => ?_
    simpa using List.mem_rtakeWhile_imp mem
  rw [← zeros]
  exact (List.rdropWhile_append_rtakeWhile (p := (· = 0))).symm

/-- Dropping zeros at the end leaves the value alone. -/
theorem value_ofCoefficient (c : Nat) (e : Int) : (ofCoefficient c e).value = c * 10 ^ e := by
  obtain ⟨kept, k, split, same⟩ := exists_ofCoefficient c e
  have number := ofDigits_digitsOf c
  rw [split, ofDigits_append, List.length_replicate, ofDigits_replicate, Nat.add_zero] at number
  have place : ((digitsOf c).length : Int) + e - kept.length = k + e := by
    rw [split, List.length_append, List.length_replicate]
    omega
  rw [same, value, place, zpow_add₀ (by norm_num), zpow_natCast, ← number]
  push_cast
  ring

theorem proper_ofCoefficient (c : Nat) (e : Int) : (ofCoefficient c e).Proper := by
  obtain ⟨kept, k, split, same⟩ := exists_ofCoefficient c e
  rw [same]
  refine ⟨fun d mem => ?_, ?_⟩
  · apply lt_ten_of_mem (n := c)
    rw [split]
    exact List.mem_append_left _ mem
  · cases kept with
    | nil => exact nofun
    | cons d rest =>
      rintro x ⟨⟩
      exact head_digitsOf split

/-! ## The leading digit -/

/-- The leading digit of a quotient of two positive numbers is at the place that its exponent
says. -/
theorem leadingExponent_spec {value den : Nat} (pos : 0 < value) (pos' : 0 < den) :
    (10 : ℚ) ^ leadingExponent value den ≤ value / den ∧
      (value / den : ℚ) < 10 ^ (leadingExponent value den + 1) := by
  have hden : (0 : ℚ) < den := by exact_mod_cast pos'
  have hvalue : (0 : ℚ) < value := by exact_mod_cast pos
  unfold leadingExponent
  split_ifs with large
  · have some : value / den ≠ 0 := (Nat.div_pos large pos').ne'
    obtain ⟨k, hk⟩ : ∃ k, (digitsOf (value / den)).length = k + 1 :=
      Nat.exists_eq_succ_of_ne_zero fun none => some (digitsOf_eq_nil.1 (List.length_eq_zero_iff.1 none))
    have below := pow_length_digitsOf_le some
    have above := lt_pow_length_digitsOf (value / den)
    rw [hk] at below above ⊢
    have low : 10 ^ k * den ≤ value := by
      rw [← Nat.le_div_iff_mul_le pos']
      rw [Nat.pow_succ] at below
      omega
    have high : value < 10 ^ (k + 1) * den := (Nat.div_lt_iff_lt_mul pos').1 above
    have place : ((k + 1 : Nat) : Int) - 1 = k := by omega
    rw [place, le_div_iff₀ hden, div_lt_iff₀ hden]
    exact_mod_cast And.intro low high
  · have some : (den - 1) / value ≠ 0 := (Nat.div_pos (by omega) pos).ne'
    obtain ⟨k, hk⟩ : ∃ k, (digitsOf ((den - 1) / value)).length = k + 1 :=
      Nat.exists_eq_succ_of_ne_zero fun none => some (digitsOf_eq_nil.1 (List.length_eq_zero_iff.1 none))
    have below := pow_length_digitsOf_le some
    have above := lt_pow_length_digitsOf ((den - 1) / value)
    rw [hk] at below above ⊢
    have low : den ≤ value * 10 ^ (k + 1) := by
      have less := (Nat.div_lt_iff_lt_mul pos).1 above
      rw [Nat.mul_comm] at less
      omega
    have high : value * 10 ^ k < den := by
      have part : 10 ^ k * value ≤ den - 1 := by
        rw [← Nat.le_div_iff_mul_le pos]
        rw [Nat.pow_succ] at below
        omega
      rw [Nat.mul_comm] at part
      omega
    have place : -((k + 1 : Nat) : Int) + 1 = -(k : Int) := by omega
    rw [place, zpow_neg, zpow_neg, zpow_natCast, zpow_natCast, inv_le_iff_one_le_mul₀ (by positivity),
      div_mul_eq_mul_div, le_div_iff₀ hden, one_mul, div_lt_iff₀ hden, lt_inv_mul_iff₀ (by positivity),
      mul_comm _ (value : ℚ)]
    exact_mod_cast And.intro low high

/-! ## Intervals -/

namespace Rounded

variable {r : Rounded} {tie : Tie} {n c : Nat}

/-- To divide by a power of ten is to scale one of the two sides. -/
theorem shift_spec (r : Rounded) (e : Int) : ∃ a b : Nat, 0 < a ∧ 0 < b ∧ (10 : ℚ) ^ e = b / a ∧
    r.shift e = ⟨r.value * a, r.low * a, r.high * a, r.den * b, r.closed⟩ := by
  unfold shift
  split_ifs with whole
  · refine ⟨1, 10 ^ e.toNat, Nat.one_pos, by positivity, ?_, ?_⟩
    · obtain ⟨k, rfl⟩ := Int.eq_ofNat_of_zero_le whole
      simp
    · simp only [Nat.mul_one, Nat.pow_eq]
  · refine ⟨10 ^ (-e).toNat, 1, by positivity, Nat.one_pos, ?_, ?_⟩
    · obtain ⟨k, rfl⟩ : ∃ k : Nat, e = -k := ⟨(-e).toNat, by omega⟩
      simp
    · simp only [Nat.mul_one, Nat.pow_eq]

/-- The ends of the interval, of which an open one is not reached. -/
theorem bounds_of_holds (h : r.holds n = true) : r.low ≤ n * r.den ∧ n * r.den ≤ r.high ∧
    (r.closed = true ∨ (r.low < n * r.den ∧ n * r.den < r.high)) := by
  unfold holds at h
  split at h
  case isTrue closed =>
    simp only [Bool.and_eq_true, decide_eq_true_eq] at h
    exact ⟨h.1, h.2, .inl closed⟩
  case isFalse =>
    simp only [Bool.and_eq_true, decide_eq_true_eq] at h
    exact ⟨h.1.le, h.2.le, .inr h⟩

theorem holds_of_lt (low : r.low < n * r.den) (high : n * r.den < r.high) : r.holds n = true := by
  unfold holds
  split <;> simp only [Bool.and_eq_true, decide_eq_true_eq] <;> omega

/-- The candidate lies in the interval, and is next to the value. -/
theorem holds_of_nearestWhole? (h : r.nearestWhole? tie = some c) :
    r.holds c = true ∧ c ≤ r.value / r.den + 1 := by
  unfold nearestWhole? at h
  extract_lets below above rest at h
  have near : below = r.value / r.den := rfl
  split at h
  · cases h
  case h_2 first second =>
    obtain rfl := Option.some.inj h
    exact ⟨first, by omega⟩
  case h_3 first second =>
    obtain rfl := Option.some.inj h
    exact ⟨second, Nat.le_refl _⟩
  case h_4 first second =>
    have even : below + below % 2 = below ∨ below + below % 2 = above := by omega
    split_ifs at h with less more
    · obtain rfl := Option.some.inj h
      exact ⟨first, by omega⟩
    · obtain rfl := Option.some.inj h
      exact ⟨second, Nat.le_refl _⟩
    · cases tie with
      | up =>
        obtain rfl := Option.some.inj h
        exact ⟨second, Nat.le_refl _⟩
      | toEven =>
        obtain rfl := Option.some.inj h
        rcases even with same | next
        · rw [same]
          exact ⟨first, by omega⟩
        · rw [next]
          exact ⟨second, Nat.le_refl _⟩

/-- An interval about the value that is longer than a step holds a whole number. -/
theorem isSome_nearestWhole? (pos : 0 < r.den) (low : r.low < r.value) (high : r.value < r.high)
    (long : r.low + r.den < r.high) : (r.nearestWhole? tie).isSome = true := by
  have step := Nat.div_add_mod r.value r.den
  have rest := Nat.mod_lt r.value pos
  rw [Nat.mul_comm] at step
  have next : (r.value / r.den + 1) * r.den = r.value / r.den * r.den + r.den := by ring
  have either : r.holds (r.value / r.den) = true ∨ r.holds (r.value / r.den + 1) = true := by
    rcases Nat.lt_or_ge r.low (r.value / r.den * r.den) with inside | outside
    · exact .inl (holds_of_lt inside (by omega))
    · exact .inr (holds_of_lt (by omega) (by omega))
  unfold nearestWhole?
  extract_lets below above rest
  split
  case h_1 first second => rcases either with h | h <;> simp_all [below, above]
  all_goals first | rfl | (split_ifs <;> first | rfl | (cases tie <;> rfl))

/-! ## The interval about a magnitude -/

variable {m : Nat}

/-- The value of a magnitude is less than `2 ^ 53` times the mean of the steps below and above it. -/
theorem two_mul_units_lt (some : m ≠ 0) :
    2 * BinaryFormat.double.units m
      < 2 ^ 53 * (BinaryFormat.double.units (m + 1) - BinaryFormat.double.units (m - 1)) := by
  obtain ⟨s, q, here, h⟩ := BinaryFormat.double.exists_normal m
  obtain ⟨t, p, before, g⟩ := BinaryFormat.double.exists_normal (m - 1)
  have value := h.units
  have above := h.units_succ
  have below := g.units
  have value' := g.units_succ
  rw [← here] at value above
  rw [← before] at below value'
  rw [Nat.sub_add_cancel (Nat.pos_of_ne_zero some)] at value'
  have small : q < 2 ^ 53 := h.lt
  have small' : p < 2 ^ 53 := g.lt
  have first : BinaryFormat.double.units m < 2 ^ 53 * 2 ^ s := by
    rw [value]
    exact Nat.mul_lt_mul_of_pos_right small (Nat.two_pow_pos s)
  have second : BinaryFormat.double.units m ≤ 2 ^ 53 * 2 ^ t := by
    rw [value']
    exact Nat.mul_le_mul_right _ small'
  rw [Nat.succ_mul] at above value'
  rw [← value] at above
  rw [← below] at value'
  have gap : BinaryFormat.double.units (m + 1) - BinaryFormat.double.units (m - 1) = 2 ^ s + 2 ^ t := by
    omega
  rw [gap, Nat.mul_add]
  omega

variable (m) in
/-- The place of the leading digit of a magnitude. -/
def leadOf : Int := leadingExponent (ofMagnitude m).value (ofMagnitude m).den

theorem value_pos (some : m ≠ 0) : 0 < (ofMagnitude m).value := by
  have less := BinaryFormat.double.units_lt_iff.2 (Nat.pos_of_ne_zero some)
  show 0 < 2 * BinaryFormat.double.units m
  omega

theorem den_pos (m : Nat) : 0 < (ofMagnitude m).den := by
  exact Nat.mul_pos Nat.two_pos Double.one_pos

/-- Seventeen digits are always enough. -/
theorem isSome_of_seventeen (tie : Tie) (some : m ≠ 0) :
    (((ofMagnitude m).shift (leadOf m - 16)).nearestWhole? tie).isSome = true := by
  obtain ⟨a, b, hpa, hpb, scale, shifted⟩ := shift_spec (ofMagnitude m) (leadOf m - 16)
  have lead := (leadingExponent_spec (value_pos some) (den_pos m)).1
  have hden : (0 : ℚ) < (ofMagnitude m).den := by exact_mod_cast den_pos m
  have ha : (0 : ℚ) < a := by exact_mod_cast hpa
  -- one step of the grid is at most the value over `10 ^ 16`
  have step : 10 ^ 16 * ((ofMagnitude m).den * b) ≤ (ofMagnitude m).value * a := by
    have sixteen : (10 : ℚ) ^ leadOf m = 10 ^ 16 * (b / a) := by
      rw [← scale, ← zpow_natCast, ← zpow_add₀ (by norm_num)]
      congr 1
      omega
    have lead' : (10 : ℚ) ^ leadOf m ≤ (ofMagnitude m).value / (ofMagnitude m).den := lead
    rw [sixteen, ← mul_div_assoc, div_le_div_iff₀ ha hden] at lead'
    have whole : 10 ^ 16 * b * (ofMagnitude m).den ≤ (ofMagnitude m).value * a := by
      exact_mod_cast lead'
    calc 10 ^ 16 * ((ofMagnitude m).den * b) = 10 ^ 16 * b * (ofMagnitude m).den := by ring
      _ ≤ _ := whole
  have below := BinaryFormat.double.units_lt_iff.2 (Nat.sub_lt (Nat.pos_of_ne_zero some) Nat.one_pos)
  have above := BinaryFormat.double.units_lt_succ m
  have wide := two_mul_units_lt some
  have value : (ofMagnitude m).value = 2 * BinaryFormat.double.units m := rfl
  have low : (ofMagnitude m).low
      = BinaryFormat.double.units (m - 1) + BinaryFormat.double.units m := rfl
  have high : (ofMagnitude m).high
      = BinaryFormat.double.units m + BinaryFormat.double.units (m + 1) := rfl
  rw [shifted]
  refine isSome_nearestWhole? (Nat.mul_pos (den_pos m) hpb) ?_ ?_ ?_
  · exact Nat.mul_lt_mul_of_pos_right (by omega) hpa
  · exact Nat.mul_lt_mul_of_pos_right (by omega) hpa
  · have wide' := Nat.mul_lt_mul_of_pos_right wide hpa
    rw [← value] at wide'
    have ends : (ofMagnitude m).high = (ofMagnitude m).low
        + (BinaryFormat.double.units (m + 1) - BinaryFormat.double.units (m - 1)) := by omega
    show (ofMagnitude m).low * a + (ofMagnitude m).den * b < (ofMagnitude m).high * a
    rw [ends, Nat.add_mul]
    rw [Nat.mul_assoc] at wide'
    omega

/-- The greatest finite value is less than `2 ^ 1024`. -/
theorem units_lt_of_finite (finite : m < BinaryFormat.double.infinity) :
    BinaryFormat.double.units m < 2 ^ 1024 * BinaryFormat.double.one := by
  obtain ⟨s, q, here, h⟩ := BinaryFormat.double.exists_normal m
  have one := Double.one_eq
  rw [Double.unitExponent_eq] at one
  have small : q < 2 ^ 53 := h.lt
  have full : s = 0 ∨ 2 ^ 52 ≤ q := h.full
  have place : m = s * 2 ^ 52 + q := here
  have top : BinaryFormat.double.infinity = 2047 * 2 ^ 52 := rfl
  have shift : s ≤ 2045 := by omega
  have value : BinaryFormat.double.units m = q * 2 ^ s := by
    rw [here]
    exact h.units
  rw [value, one, ← Nat.pow_add]
  calc q * 2 ^ s < 2 ^ 53 * 2 ^ s := Nat.mul_lt_mul_of_pos_right small (Nat.two_pow_pos s)
    _ = 2 ^ (53 + s) := (Nat.pow_add ..).symm
    _ ≤ 2 ^ (1024 + 1074) := Nat.pow_le_pow_right (by decide) (by omega)

/-- The place of the leading digit is in a moderate range. -/
theorem leadOf_bounds (some : m ≠ 0) (finite : m < BinaryFormat.double.infinity) :
    -324 ≤ leadOf m ∧ leadOf m ≤ 311 := by
  obtain ⟨low, high⟩ := leadingExponent_spec (value_pos some) (den_pos m)
  have pos : (0 : ℚ) < BinaryFormat.double.one := by exact_mod_cast Double.one_pos
  have small : (BinaryFormat.double.one : ℚ) < 10 ^ 324 := by
    rw [Double.one_eq, Double.unitExponent_eq, Nat.cast_pow, Nat.cast_ofNat]
    calc (2 : ℚ) ^ 1074 = (2 ^ 179) ^ 6 := by rw [← pow_mul]
      _ < (10 ^ 54) ^ 6 := pow_lt_pow_left₀ (by norm_num) (by positivity) (by decide)
      _ = 10 ^ 324 := by rw [← pow_mul]
  have quotient : ((ofMagnitude m).value / (ofMagnitude m).den : ℚ)
      = BinaryFormat.double.units m / BinaryFormat.double.one := by
    show ((2 * BinaryFormat.double.units m : Nat) / (2 * BinaryFormat.double.one : Nat) : ℚ) = _
    rw [Nat.cast_mul, Nat.cast_mul, mul_div_mul_left _ _ (by norm_num)]
  have least : (1 : ℚ) ≤ BinaryFormat.double.units m := by
    have less := BinaryFormat.double.units_lt_iff.2 (Nat.pos_of_ne_zero some)
    exact_mod_cast Nat.lt_of_le_of_lt (Nat.zero_le _) less
  have most : (BinaryFormat.double.units m : ℚ) < 2 ^ 1024 * BinaryFormat.double.one := by
    exact_mod_cast units_lt_of_finite finite
  rw [quotient] at low high
  have ten : (1 : ℚ) < 10 := by norm_num
  constructor
  · have first : (10 : ℚ) ^ (-324 : Int) < 10 ^ (leadOf m + 1) := by
      refine lt_of_lt_of_le ?_ (((div_le_div_iff_of_pos_right pos).2 least).trans high.le)
      rw [zpow_neg, ← one_div]
      exact one_div_lt_one_div_of_lt pos small
    have order := (zpow_lt_zpow_iff_right₀ ten).1 first
    omega
  · have last : (10 : ℚ) ^ leadOf m < 10 ^ (312 : Int) := by
      refine lt_of_le_of_lt low ?_
      rw [div_lt_iff₀ pos]
      refine lt_trans most (mul_lt_mul_of_pos_right ?_ pos)
      calc (2 : ℚ) ^ 1024 = (2 ^ 256) ^ 4 := by rw [← pow_mul]
        _ < (10 ^ 78) ^ 4 := pow_lt_pow_left₀ (by norm_num) (by positivity) (by decide)
        _ = 10 ^ (312 : Int) := by rw [← pow_mul, ← zpow_natCast]; rfl
    have order := (zpow_lt_zpow_iff_right₀ ten).1 last
    omega

/-- A whole number in the interval about a magnitude is read as that magnitude, in any notation. -/
theorem ofDecimal_of_holds (negative : Bool) (finite : m < BinaryFormat.double.infinity)
    {c c' : Nat} {e e' : Int} (holds : ((ofMagnitude m).shift e).holds c = true)
    (low : -400 ≤ e') (high : e' ≤ 400) (same : (c' : ℚ) * 10 ^ e' = c * 10 ^ e) :
    Double.ofDecimal negative c' e' = Double.ofMagnitude negative m := by
  obtain ⟨a, b, hpa, hpb, scale, shifted⟩ := shift_spec (ofMagnitude m) e
  rw [shifted] at holds
  obtain ⟨least, most, inner⟩ := bounds_of_holds holds
  have fraction : (c' : ℚ) * 10 ^ e' = (c * b : Nat) / a := by
    rw [same, scale, Nat.cast_mul, mul_div_assoc]
  rw [Double.ofDecimal_eq low high hpa fraction, Double.ofFraction, BinaryFormat.nearest_eq]
  have scaled : c * ((ofMagnitude m).den * b)
      = 2 * ((c * b) <<< BinaryFormat.double.unitExponent) := by
    rw [Nat.shiftLeft_eq, ← Double.one_eq]
    show c * (2 * BinaryFormat.double.one * b) = _
    ring
  rw [scaled] at least most inner
  have nearest : BinaryFormat.double.rounded ((c * b) <<< BinaryFormat.double.unitExponent) a = m :=
    BinaryFormat.rounded_eq_of_mem (by decide) hpa least most (inner.imp_left of_decide_eq_true)
  rw [BinaryFormat.near, nearest, Nat.min_eq_left finite.le]

end Rounded

/-! ## The shortest decimal -/

variable {m : Nat}

/-- On a grid of `count + 1` digits the value is below `10 ^ (count + 1)`. -/
theorem quotient_lt (some : m ≠ 0) (count : Nat) :
    let r := (Rounded.ofMagnitude m).shift (Rounded.leadOf m - count)
    r.value / r.den < 10 ^ (count + 1) := by
  intro r
  obtain ⟨a, b, hpa, hpb, scale, shifted⟩ :=
    Rounded.shift_spec (Rounded.ofMagnitude m) (Rounded.leadOf m - count)
  have lead := (leadingExponent_spec (Rounded.value_pos some) (Rounded.den_pos m)).2
  have hden : (0 : ℚ) < (Rounded.ofMagnitude m).den := by exact_mod_cast Rounded.den_pos m
  have ha : (0 : ℚ) < a := by exact_mod_cast hpa
  have power : (10 : ℚ) ^ (Rounded.leadOf m + 1) = 10 ^ (count + 1) * (b / a) := by
    rw [← scale, ← zpow_natCast, ← zpow_add₀ (by norm_num)]
    congr 1
    omega
  have top : ((Rounded.ofMagnitude m).value / (Rounded.ofMagnitude m).den : ℚ)
      < 10 ^ (Rounded.leadOf m + 1) := lead
  rw [power, ← mul_div_assoc, div_lt_div_iff₀ hden ha] at top
  have whole : (Rounded.ofMagnitude m).value * a
      < 10 ^ (count + 1) * b * (Rounded.ofMagnitude m).den := by exact_mod_cast top
  have parts : r = _ := shifted
  rw [parts]
  refine (Nat.div_lt_iff_lt_mul (Nat.mul_pos (Rounded.den_pos m) hpb)).2 ?_
  calc (Rounded.ofMagnitude m).value * a
      < 10 ^ (count + 1) * b * (Rounded.ofMagnitude m).den := whole
    _ = 10 ^ (count + 1) * ((Rounded.ofMagnitude m).den * b) := by ring

/-- The shortest decimal comes from a whole number of at most eighteen digits in the interval about
the magnitude. -/
theorem exists_shortest (tie : Tie) (some : m ≠ 0) :
    ∃ (c count : Nat), count ≤ 16 ∧ c < 10 ^ 18 ∧
      ((Rounded.ofMagnitude m).shift (Rounded.leadOf m - count)).holds c = true ∧
      shortest tie m = ofCoefficient c (Rounded.leadOf m - count) := by
  unfold shortest
  rw [if_neg some]
  extract_lets r lead grid
  have there : ((List.range 17).findSome? grid).isSome = true := by
    rw [List.findSome?_isSome_iff]
    refine ⟨16, List.mem_range.2 (by decide), ?_⟩
    rw [Option.isSome_map]
    exact Rounded.isSome_of_seventeen tie some
  obtain ⟨d, found⟩ := Option.isSome_iff_exists.1 there
  obtain ⟨count, mem, hit⟩ := List.exists_of_findSome?_eq_some found
  obtain ⟨c, candidate, rfl⟩ := Option.map_eq_some_iff.1 hit
  obtain ⟨holds, near⟩ := Rounded.holds_of_nearestWhole? candidate
  have le : count ≤ 16 := Nat.le_of_lt_succ (List.mem_range.1 mem)
  have first : ((List.range 17).findSome? grid).getD ⟨[], 0⟩ = ofCoefficient c (lead - count) := by
    rw [found]
    rfl
  refine ⟨c, count, le, ?_, holds, first⟩
  calc c ≤ _ := near
    _ ≤ 10 ^ (count + 1) := quotient_lt some count
    _ ≤ 10 ^ 17 := Nat.pow_le_pow_right (by decide) (by omega)
    _ < 10 ^ 18 := by decide

/-- **The shortest decimal of a finite magnitude is read as that magnitude.** It has at most eighteen
digits, at moderate places, and whatever decimal of the same value is read is read as the
magnitude. -/
theorem shortest_spec (tie : Tie) (finite : m < BinaryFormat.double.infinity) :
    let d := shortest tie m
    d.Proper ∧ d.digits.length ≤ 18 ∧ -340 ≤ d.point - d.digits.length ∧ d.point ≤ 329 ∧
      ∀ (negative : Bool) (c : Nat) (e : Int), -400 ≤ e → e ≤ 400 → (c : ℚ) * 10 ^ e = d.value →
        Double.ofDecimal negative c e = Double.ofMagnitude negative m := by
  intro d
  by_cases zero : m = 0
  · subst zero
    have empty : d = ⟨[], 0⟩ := if_pos rfl
    rw [empty]
    refine ⟨⟨nofun, nofun⟩, by decide, by decide, by decide, fun negative c e low high same => ?_⟩
    have none : (c : ℚ) * 10 ^ e = (0 : Nat) / (1 : Nat) := by
      rw [same]
      simp [value]
    rw [Double.ofDecimal_eq low high Nat.one_pos none, Double.ofFraction_zero Nat.one_pos]
  · obtain ⟨c, count, le, small, holds, form⟩ := exists_shortest tie zero
    obtain ⟨least, most⟩ := Rounded.leadOf_bounds zero finite
    obtain ⟨kept, k, split, same⟩ := exists_ofCoefficient c (Rounded.leadOf m - count)
    have shape : d = _ := form
    have digits := length_digitsOf_le small
    have lengths := congrArg List.length split
    rw [List.length_append, List.length_replicate] at lengths
    have value := value_ofCoefficient c (Rounded.leadOf m - count)
    have proper := proper_ofCoefficient c (Rounded.leadOf m - count)
    rw [← shape] at value proper
    rw [same] at shape
    refine ⟨proper, ?_, ?_, ?_, fun negative c' e low high agree => ?_⟩
    · rw [shape]
      show kept.length ≤ 18
      omega
    · rw [shape]
      show -340 ≤ ((digitsOf c).length : Int) + (Rounded.leadOf m - count) - kept.length
      omega
    · rw [shape]
      show ((digitsOf c).length : Int) + (Rounded.leadOf m - count) ≤ 329
      omega
    · exact Rounded.ofDecimal_of_holds negative finite holds low high (agree.trans value)

end Decimal

end CounterWatch
