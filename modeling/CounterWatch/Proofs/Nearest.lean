import CounterWatch.Number.Double
import Mathlib.Tactic.Linarith
import Mathlib.Tactic.Ring

/-!
# Rounding to nearest

What the rounding of a fraction to a magnitude of a binary format is, without its shifts: the
magnitudes are the steps of a staircase (`units_succ`), a fraction lies on one of them, and goes to
the nearer end, from the middle to the even one (`rounded_of_between`).

* A fraction in the interval about a magnitude is rounded to that magnitude
  (`rounded_eq_of_mem`), and so is the magnitude itself (`rounded_units`).
* Rounding keeps the order of fractions (`rounded_mono`), so that it depends on the value of a
  fraction alone (`rounded_congr`), and stays on one side of every magnitude (`rounded_le`,
  `le_rounded`).
* It moves a fraction by at most half a step (`units_rounded_bounds`).
-/

namespace CounterWatch

namespace BinaryFormat

variable (f : BinaryFormat)

/-! ## The staircase of magnitudes -/

/-- A magnitude by its significand `q` and its shift `s`: all bits of the significand are used,
except that the least shift also goes with smaller ones. -/
structure Normal (s q : Nat) : Prop where
  lt : q < 2 ^ (f.fractionBits + 1)
  full : s = 0 ∨ 2 ^ f.fractionBits ≤ q

theorem exists_normal (m : Nat) : ∃ s q, m = s * 2 ^ f.fractionBits + q ∧ f.Normal s q := by
  have some := Nat.two_pow_pos f.fractionBits
  have split := Nat.div_add_mod m (2 ^ f.fractionBits)
  have low := Nat.mod_lt m some
  rcases Nat.eq_zero_or_pos (m / 2 ^ f.fractionBits) with none | pos
  · refine ⟨0, m, (by omega), ?_, .inl rfl⟩
    rw [none, Nat.mul_zero, Nat.zero_add] at split
    rw [Nat.pow_succ]
    omega
  · refine ⟨m / 2 ^ f.fractionBits - 1, 2 ^ f.fractionBits + m % 2 ^ f.fractionBits, ?_, ?_,
      .inr (Nat.le_add_right _ _)⟩
    · rw [Nat.sub_mul, Nat.one_mul, Nat.mul_comm (m / _)]
      have part : 2 ^ f.fractionBits * 1 ≤ 2 ^ f.fractionBits * (m / 2 ^ f.fractionBits) :=
        Nat.mul_le_mul_left _ pos
      omega
    · rw [Nat.pow_succ]
      omega

variable {f} {s q : Nat}

/-- The value of a magnitude is its significand, shifted. -/
theorem Normal.units (h : f.Normal s q) : f.units (s * 2 ^ f.fractionBits + q) = q * 2 ^ s := by
  have some := Nat.two_pow_pos f.fractionBits
  have lt := h.lt
  rw [Nat.pow_succ] at lt
  simp only [BinaryFormat.units, Nat.shiftRight_eq_div_pow, Nat.shiftLeft_eq, Nat.one_mul]
  have quotient : (s * 2 ^ f.fractionBits + q) / 2 ^ f.fractionBits
      = s + q / 2 ^ f.fractionBits := by
    rw [Nat.add_comm, Nat.add_mul_div_right _ _ some, Nat.add_comm]
  have rest : (s * 2 ^ f.fractionBits + q) % 2 ^ f.fractionBits = q % 2 ^ f.fractionBits := by
    rw [Nat.add_comm, Nat.add_mul_mod_self_right]
  rw [quotient, rest]
  rcases Nat.lt_or_ge q (2 ^ f.fractionBits) with small | full
  · obtain rfl : s = 0 := h.full.resolve_right (Nat.not_le.2 small)
    simp [Nat.div_eq_of_lt small]
  · have one : q / 2 ^ f.fractionBits = 1 := by
      rw [Nat.div_eq_iff some]
      omega
    have low : q % 2 ^ f.fractionBits + 2 ^ f.fractionBits = q := by
      rw [Nat.mod_eq_sub_mod full, Nat.mod_eq_of_lt (by omega)]
      omega
    rw [one, if_neg (by omega), low, Nat.add_sub_cancel]

/-- The next magnitude is one significand further. -/
theorem Normal.units_succ (h : f.Normal s q) :
    f.units (s * 2 ^ f.fractionBits + q + 1) = (q + 1) * 2 ^ s := by
  have lt := h.lt
  by_cases carry : q + 1 < 2 ^ (f.fractionBits + 1)
  · have next : f.Normal s (q + 1) :=
      ⟨carry, h.full.imp_right fun full => Nat.le_succ_of_le full⟩
    exact next.units
  · -- the significand is full: the next one is the least with the next shift
    have top : q + 1 = 2 ^ (f.fractionBits + 1) := by omega
    have next : f.Normal (s + 1) (2 ^ f.fractionBits) :=
      ⟨Nat.pow_lt_pow_right (by decide) (Nat.lt_succ_self _), .inr (Nat.le_refl _)⟩
    have place : s * 2 ^ f.fractionBits + q + 1 = (s + 1) * 2 ^ f.fractionBits + 2 ^ f.fractionBits := by
      rw [Nat.add_assoc, top, Nat.pow_succ]
      ring
    rw [place, next.units, top, Nat.pow_succ, Nat.pow_succ]
    ring

variable (f)

theorem units_lt_succ (m : Nat) : f.units m < f.units (m + 1) := by
  obtain ⟨s, q, rfl, h⟩ := f.exists_normal m
  rw [h.units, h.units_succ]
  exact Nat.mul_lt_mul_of_pos_right (Nat.lt_succ_self q) (Nat.two_pow_pos s)

theorem units_strictMono : StrictMono f.units := strictMono_nat_of_lt_succ f.units_lt_succ

theorem units_le_iff {m n : Nat} : f.units m ≤ f.units n ↔ m ≤ n := f.units_strictMono.le_iff_le

theorem units_lt_iff {m n : Nat} : f.units m < f.units n ↔ m < n := f.units_strictMono.lt_iff_lt

/-- A magnitude has a half, down or up to the next whole unit, and exact unless it is small. -/
theorem exists_half (m : Nat) {r : Nat} (le : r ≤ 1) :
    ∃ n, f.units m + r ≤ 2 * f.units n + 1 ∧ 2 * f.units n ≤ f.units m + r ∧
      (2 ^ (f.fractionBits + 1) ≤ f.units m → 2 * f.units n = f.units m) := by
  obtain ⟨s, q, rfl, h⟩ := f.exists_normal m
  rw [h.units]
  cases s with
  | zero =>
    have lt := h.lt
    have half : f.Normal 0 ((q + r) / 2) := ⟨by omega, .inl rfl⟩
    refine ⟨0 * 2 ^ f.fractionBits + (q + r) / 2, ?_⟩
    rw [half.units, Nat.pow_zero]
    omega
  | succ t =>
    have full := h.full.resolve_left (Nat.succ_ne_zero t)
    have half : f.Normal t q := ⟨h.lt, .inr full⟩
    refine ⟨t * 2 ^ f.fractionBits + q, ?_⟩
    rw [half.units, Nat.pow_succ]
    have same : q * (2 ^ t * 2) = 2 * (q * 2 ^ t) := by ring
    omega

@[simp] theorem units_zero : f.units 0 = 0 := by
  simp [units]

/-! ## Rounding -/

/-- The magnitude nearest to a fraction of units, however large. -/
def rounded (a b : Nat) : Nat :=
  let shift := (a / b).log2 - f.fractionBits
  shift <<< f.fractionBits + roundQuotient a (b <<< shift)

/-- The magnitude nearest to a fraction of units; infinity where the fraction rounds past the
largest finite value. -/
def near (a b : Nat) : Nat := min (f.rounded a b) f.infinity

theorem nearest_eq (num den : Nat) : f.nearest num den = f.near (num <<< f.unitExponent) den := rfl

/-- A fraction between a magnitude and the next one goes to the nearer of them, and from the middle
to the even one. -/
def nearer (n a b : Nat) : Nat :=
  if 2 * a < (f.units n + f.units (n + 1)) * b then n
  else if (f.units n + f.units (n + 1)) * b < 2 * a then n + 1
  else n + n % 2

theorem nearer_bounds (n a b : Nat) : n ≤ f.nearer n a b ∧ f.nearer n a b ≤ n + 1 := by
  unfold nearer
  split_ifs <;> omega

variable {f} {a b c d m n : Nat}

/-- The significand of a fraction: it is full unless the fraction is small. -/
theorem normal_of_log2 (a b : Nat) :
    f.Normal ((a / b).log2 - f.fractionBits)
      (a / (b * 2 ^ ((a / b).log2 - f.fractionBits))) := by
  rw [← Nat.div_div_eq_div_mul]
  generalize a / b = v
  have top : v < 2 ^ (v.log2 + 1) := Nat.lt_log2_self
  constructor
  · rw [Nat.div_lt_iff_lt_mul (Nat.two_pow_pos _), ← Nat.pow_add]
    exact Nat.lt_of_lt_of_le top (Nat.pow_le_pow_right (by decide) (by omega))
  · by_cases small : v.log2 ≤ f.fractionBits
    · exact .inl (Nat.sub_eq_zero_of_le small)
    · right
      have some : v ≠ 0 := by
        rintro rfl
        exact small (by rw [Nat.log2_zero]; exact Nat.zero_le _)
      rw [Nat.le_div_iff_mul_le (Nat.two_pow_pos _), ← Nat.pow_add]
      refine Nat.le_trans (Nat.pow_le_pow_right (by decide) ?_) (Nat.log2_self_le some)
      omega

/-- Every fraction lies between a magnitude and the next one, and rounding goes to the nearer. -/
theorem exists_between (wide : 0 < f.fractionBits) (pos : 0 < b) :
    ∃ n, f.units n * b ≤ a ∧ a < f.units (n + 1) * b ∧ f.rounded a b = f.nearer n a b := by
  obtain ⟨s, hs⟩ : ∃ s, (a / b).log2 - f.fractionBits = s := ⟨_, rfl⟩
  have h : f.Normal s (a / (b * 2 ^ s)) := hs ▸ normal_of_log2 a b
  have some : 0 < b * 2 ^ s := Nat.mul_pos pos (Nat.two_pow_pos s)
  have whole := Nat.div_add_mod a (b * 2 ^ s)
  have rest := Nat.mod_lt a some
  refine ⟨s * 2 ^ f.fractionBits + a / (b * 2 ^ s), ?_, ?_, ?_⟩
  · rw [h.units, Nat.mul_assoc, Nat.mul_comm (2 ^ s)]
    exact Nat.div_mul_le_self a _
  · rw [h.units_succ, Nat.mul_assoc, Nat.mul_comm (2 ^ s)]
    exact Nat.lt_mul_of_div_lt (Nat.lt_succ_self _) some
  · have even : (s * 2 ^ f.fractionBits + a / (b * 2 ^ s)) % 2 = a / (b * 2 ^ s) % 2 := by
      obtain ⟨k, hk⟩ : ∃ k, f.fractionBits = k + 1 := ⟨f.fractionBits - 1, by omega⟩
      rw [hk, Nat.pow_succ, ← Nat.mul_assoc, Nat.add_comm, Nat.add_mul_mod_self_right]
    simp only [rounded, hs, roundQuotient, nearer, h.units, h.units_succ, even,
      Nat.shiftLeft_eq]
    have middle : (a / (b * 2 ^ s) * 2 ^ s + (a / (b * 2 ^ s) + 1) * 2 ^ s) * b
        = 2 * (b * 2 ^ s * (a / (b * 2 ^ s))) + b * 2 ^ s := by ring
    rw [middle]
    generalize b * 2 ^ s * (a / (b * 2 ^ s)) = low at whole
    split_ifs <;> omega

theorem between_unique (low : f.units m * b ≤ a) (high : a < f.units (m + 1) * b)
    (low' : f.units n * b ≤ a) (high' : a < f.units (n + 1) * b) : m = n := by
  have le : m < n + 1 := f.units_lt_iff.1 (Nat.lt_of_mul_lt_mul_right (Nat.lt_of_le_of_lt low high'))
  have ge : n < m + 1 := f.units_lt_iff.1 (Nat.lt_of_mul_lt_mul_right (Nat.lt_of_le_of_lt low' high))
  omega

/-- Rounding is to the nearer of the two magnitudes that a fraction lies between. -/
theorem rounded_of_between (wide : 0 < f.fractionBits) (pos : 0 < b) (low : f.units n * b ≤ a)
    (high : a < f.units (n + 1) * b) : f.rounded a b = f.nearer n a b := by
  obtain ⟨k, low', high', nearer⟩ := exists_between (f := f) (a := a) wide pos
  rw [between_unique low high low' high', nearer]

section

variable (wide : 0 < f.fractionBits) (pos : 0 < b)

include wide pos

/-- A fraction in the interval about a magnitude is rounded to it; the ends belong to the interval
if the magnitude is even. -/
theorem rounded_eq_of_mem (low : (f.units (m - 1) + f.units m) * b ≤ 2 * a)
    (high : 2 * a ≤ (f.units m + f.units (m + 1)) * b)
    (inner : m % 2 = 0 ∨
      ((f.units (m - 1) + f.units m) * b < 2 * a ∧ 2 * a < (f.units m + f.units (m + 1)) * b)) :
    f.rounded a b = m := by
  obtain ⟨n, low', high', rounded⟩ := exists_between (f := f) (a := a) wide pos
  rw [rounded]
  have step := f.units_lt_succ m
  rcases Nat.lt_trichotomy n m with less | rfl | more
  · have before : f.units (n + 1) ≤ f.units m := f.units_le_iff.2 less
    rcases Nat.eq_or_lt_of_le less with next | two
    · -- the fraction lies below the magnitude, in the upper half
      obtain rfl : n + 1 = m := next
      rw [Nat.add_sub_cancel] at low inner
      unfold nearer
      split_ifs <;> omega
    · have skip : f.units (n + 1) ≤ f.units (m - 1) := f.units_le_iff.2 (by omega)
      have both : (f.units (n + 1) + f.units (n + 1)) * b ≤ (f.units (m - 1) + f.units m) * b :=
        Nat.mul_le_mul_right b (Nat.add_le_add skip before)
      rw [Nat.add_mul] at both
      omega
  · unfold nearer
    split_ifs <;> omega
  · have after : f.units (m + 1) ≤ f.units n := f.units_le_iff.2 more
    have both : (f.units m + f.units (m + 1)) * b < (f.units n + f.units n) * b :=
      Nat.mul_lt_mul_of_pos_right (by omega) pos
    rw [Nat.add_mul (f.units n)] at both
    omega

/-- Rounding keeps the order of fractions. -/
theorem rounded_mono (pos' : 0 < d) (le : a * d ≤ c * b) : f.rounded a b ≤ f.rounded c d := by
  obtain ⟨m, low, high, first⟩ := exists_between (f := f) (a := a) wide pos
  obtain ⟨n, low', high', second⟩ := exists_between (f := f) (a := c) wide pos'
  rw [first, second]
  have order : m ≤ n := by
    apply Nat.le_of_lt_succ
    apply f.units_lt_iff.1
    apply Nat.lt_of_mul_lt_mul_right (a := b * d)
    calc f.units m * (b * d) = f.units m * b * d := (Nat.mul_assoc ..).symm
      _ ≤ a * d := Nat.mul_le_mul_right d low
      _ ≤ c * b := le
      _ < f.units (n + 1) * d * b := Nat.mul_lt_mul_of_pos_right high' pos
      _ = f.units (n + 1) * (b * d) := by ring
  have last := (f.nearer_bounds m a b).2
  have next := (f.nearer_bounds n c d).1
  rcases Nat.eq_or_lt_of_le order with rfl | less
  · -- on one step the fractions are compared with the same middle
    generalize hv : f.units m + f.units (m + 1) = v
    have left : v * b < 2 * a → v * d < 2 * c := by
      intro h
      apply Nat.lt_of_mul_lt_mul_right (a := b)
      calc v * d * b = v * b * d := by ring
        _ < 2 * a * d := Nat.mul_lt_mul_of_pos_right h pos'
        _ ≤ 2 * c * b := by linarith
    have right : 2 * c < v * d → 2 * a < v * b := by
      intro h
      apply Nat.lt_of_mul_lt_mul_right (a := d)
      calc 2 * a * d ≤ 2 * c * b := by linarith
        _ < v * d * b := Nat.mul_lt_mul_of_pos_right h pos
        _ = v * b * d := by ring
    simp only [nearer, hv]
    split_ifs <;> omega
  · omega

/-- Rounding depends on the value of a fraction alone. -/
theorem rounded_congr (pos' : 0 < d) (eq : a * d = c * b) : f.rounded a b = f.rounded c d :=
  Nat.le_antisymm (rounded_mono wide pos pos' eq.le) (rounded_mono wide pos' pos eq.ge)

/-- Rounding moves a fraction by at most half a step. -/
theorem units_rounded_bounds (low : f.units n * b ≤ a) (high : a < f.units (n + 1) * b) :
    2 * a ≤ 2 * (f.units (f.rounded a b) * b) + (f.units (n + 1) - f.units n) * b ∧
      2 * (f.units (f.rounded a b) * b) ≤ 2 * a + (f.units (n + 1) - f.units n) * b := by
  have step := f.units_lt_succ n
  obtain ⟨gap, hgap⟩ := Nat.exists_eq_add_of_lt step
  have near : f.nearer n a b = n ∧ 2 * a ≤ (f.units n + f.units (n + 1)) * b ∨
      f.nearer n a b = n + 1 ∧ (f.units n + f.units (n + 1)) * b ≤ 2 * a := by
    unfold nearer
    split_ifs <;> omega
  rw [rounded_of_between wide pos low high, Nat.sub_mul]
  rw [Nat.add_mul] at near
  have order : f.units n * b ≤ f.units (n + 1) * b := Nat.mul_le_mul_right b step.le
  rcases near with ⟨same, half⟩ | ⟨next, half⟩
  · rw [same]
    omega
  · rw [next]
    omega

end

/-- A magnitude is rounded to itself. -/
theorem rounded_units (wide : 0 < f.fractionBits) (m : Nat) : f.rounded (f.units m) 1 = m := by
  have step := f.units_lt_succ m
  rcases Nat.eq_zero_or_pos m with rfl | some
  · exact rounded_eq_of_mem wide Nat.one_pos (by simp) (by omega) (.inl rfl)
  · have before : f.units (m - 1) < f.units m := f.units_lt_iff.2 (by omega)
    exact rounded_eq_of_mem wide Nat.one_pos (by omega) (by omega) (.inr (by omega))

/-- A fraction up to a magnitude is not rounded past it. -/
theorem rounded_le (wide : 0 < f.fractionBits) (pos : 0 < b) (h : a ≤ f.units m * b) :
    f.rounded a b ≤ m := by
  rw [← rounded_units wide m]
  exact rounded_mono wide pos Nat.one_pos (by rwa [Nat.mul_one])

/-- A fraction from a magnitude on is not rounded below it. -/
theorem le_rounded (wide : 0 < f.fractionBits) (pos : 0 < b) (h : f.units m * b ≤ a) :
    m ≤ f.rounded a b := by
  rw [← rounded_units wide m]
  exact rounded_mono wide Nat.one_pos pos (by rwa [Nat.mul_one])

section

variable (wide : 0 < f.fractionBits) (pos : 0 < b)

include wide pos

/-- An even magnitude takes all that lies up to the middle of the step above it. -/
theorem rounded_le_of_middle (even : m % 2 = 0) (h : 2 * a ≤ (f.units m + f.units (m + 1)) * b) :
    f.rounded a b ≤ m := by
  have before := f.units_le_iff.2 (Nat.sub_le m 1)
  have after := f.units_lt_succ m
  have middle : f.rounded (f.units m + f.units (m + 1)) 2 = m :=
    rounded_eq_of_mem wide Nat.two_pos (by omega) (by omega) (.inl even)
  rw [← middle]
  exact rounded_mono wide pos Nat.two_pos (by omega)

/-- An even magnitude takes all that lies from the middle of the step below it on. -/
theorem le_rounded_of_middle (even : m % 2 = 0) (h : (f.units (m - 1) + f.units m) * b ≤ 2 * a) :
    m ≤ f.rounded a b := by
  have before := f.units_le_iff.2 (Nat.sub_le m 1)
  have after := f.units_lt_succ m
  have middle : f.rounded (f.units (m - 1) + f.units m) 2 = m :=
    rounded_eq_of_mem wide Nat.two_pos (by omega) (by omega) (.inl even)
  rw [← middle]
  exact rounded_mono wide Nat.two_pos pos (by omega)

theorem near_mono (pos' : 0 < d) (le : a * d ≤ c * b) : f.near a b ≤ f.near c d :=
  min_le_min_right _ (rounded_mono wide pos pos' le)

theorem near_congr (pos' : 0 < d) (eq : a * d = c * b) : f.near a b = f.near c d :=
  congrArg (min · f.infinity) (rounded_congr wide pos pos' eq)

theorem near_le (h : a ≤ f.units m * b) : f.near a b ≤ m :=
  Nat.le_trans (Nat.min_le_left ..) (rounded_le wide pos h)

theorem le_near (bounded : m ≤ f.infinity) (h : f.units m * b ≤ a) : m ≤ f.near a b :=
  Nat.le_min.2 ⟨le_rounded wide pos h, bounded⟩

end

theorem near_units (wide : 0 < f.fractionBits) (bounded : m ≤ f.infinity) :
    f.near (f.units m) 1 = m := by
  rw [near, rounded_units wide, Nat.min_eq_left bounded]

end BinaryFormat

namespace Double

/-! ## One, in units of 64 bits -/

theorem unitExponent_eq : BinaryFormat.double.unitExponent = 1074 := rfl

theorem one_eq : BinaryFormat.double.one = 2 ^ BinaryFormat.double.unitExponent :=
  Nat.one_shiftLeft _

theorem one_pos : 0 < BinaryFormat.double.one := one_eq ▸ Nat.two_pow_pos _

end Double

end CounterWatch
