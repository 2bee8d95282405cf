import CounterWatch.Proofs.Magnitude

/-!
# Operations on magnitudes

What the operations on numbers of 64 bits do to magnitudes: each is the operation on exact values,
followed by one rounding to the nearest magnitude. An operation works on mantissas with two bits for
what is lost below them; `Extends` says what these bits stand for, and `roundWithAccuracy_spec` that
rounding by them is rounding of the exact value.

The four operations are followed on numbers from zero on, where signs play no part: `mul_spec`,
`add_spec`, `sub_spec` and `div_spec`, with `add_infinite` and `div_infinite` for infinity.
-/

namespace CounterWatch

theorem roundQuotient_mul {c : Nat} (a b : Nat) (pos : 0 < c) :
    roundQuotient (a * c) (b * c) = roundQuotient a b := by
  simp only [roundQuotient, Nat.mul_div_mul_right a b pos, Nat.mul_mod_mul_right]
  have less : 2 * (a % b * c) < b * c ↔ 2 * (a % b) < b := by
    rw [← Nat.mul_assoc]
    exact Nat.mul_lt_mul_right pos
  have more : b * c < 2 * (a % b * c) ↔ b < 2 * (a % b) := by
    rw [← Nat.mul_assoc]
    exact Nat.mul_lt_mul_right pos
  simp only [less, more]

theorem roundQuotient_bounds (a b : Nat) :
    a / b ≤ roundQuotient a b ∧ roundQuotient a b ≤ a / b + 1 := by
  simp only [roundQuotient]
  split_ifs <;> omega

namespace Double

open Float.Model (Format UnpackedFloat totalExponent)
open Float.Model.UnpackedFloat

/-! ## What is lost when bits are dropped -/

/-- A mantissa for the quotient `a / b`, the two bits kept with it telling how the rest compares
with nothing and with one half. -/
structure Extends (a b : Nat) (em : ExtendedMantissa) : Prop where
  mantissa : em.mantissa = a / b
  roundBit : em.roundBit = true ↔ b ≤ 2 * (a % b)
  stickyBit : em.stickyBit = true ↔ a % b ≠ 0 ∧ 2 * (a % b) ≠ b

variable {a b m : Nat} {em : ExtendedMantissa}

theorem extends_exact (m : Nat) :
    Extends m 1 (ExtendedMantissa.ofMantissaAndAccuracy m .exact) where
  mantissa := (Nat.div_one m).symm
  roundBit := ⟨nofun, fun h => by omega⟩
  stickyBit := ⟨nofun, fun h => by omega⟩

theorem extends_quotient (a : Nat) (pos : 0 < b) :
    Extends a b (ExtendedMantissa.ofMantissaAndAccuracy (a / b) (accuracyOfFraction (a % b) b)) := by
  unfold accuracyOfFraction
  split
  case isTrue none =>
    exact ⟨rfl, ⟨nofun, fun h => by omega⟩, ⟨nofun, fun h => absurd none h.1⟩⟩
  case isFalse some =>
    cases order : compare (2 * (a % b)) b with
    | lt =>
      have less := Nat.compare_eq_lt.1 order
      exact ⟨rfl, ⟨nofun, fun h => by omega⟩, ⟨fun _ => by omega, fun _ => rfl⟩⟩
    | eq =>
      have same := Nat.compare_eq_eq.1 order
      exact ⟨rfl, ⟨fun _ => by omega, fun _ => rfl⟩, ⟨nofun, fun h => by omega⟩⟩
    | gt =>
      have more := Nat.compare_eq_gt.1 order
      exact ⟨rfl, ⟨fun _ => by omega, fun _ => rfl⟩, ⟨fun _ => by omega, fun _ => rfl⟩⟩

/-- With one bit less the quotient is that by twice the number. -/
theorem Extends.shiftRightOne (h : Extends a b em) (pos : 0 < b) :
    Extends a (b * 2) em.shiftRightOne := by
  have rest := Nat.mod_lt a pos
  have bit := Nat.mod_two_eq_zero_or_one (a / b)
  have both : a % (b * 2) = a % b + b * (a / b % 2) := Nat.mod_mul
  have round := h.roundBit
  have sticky := h.stickyBit
  refine ⟨?_, ?_, ?_⟩
  · show em.mantissa / 2 = a / (b * 2)
    rw [h.mantissa, Nat.div_div_eq_div_mul]
  · show (em.mantissa % 2 != 0) = true ↔ _
    rw [h.mantissa, bne_iff_ne, both]
    rcases bit with zero | one
    · rw [zero]
      omega
    · rw [one]
      omega
  · show (em.roundBit || em.stickyBit) = true ↔ _
    rw [Bool.or_eq_true, round, sticky, both]
    rcases bit with zero | one
    · rw [zero]
      omega
    · rw [one]
      omega

theorem Extends.shiftRight (h : Extends a b em) (pos : 0 < b) (k : Nat) :
    Extends a (b * 2 ^ k) (em >>> k) := by
  induction k with
  | zero =>
    rw [Nat.pow_zero, Nat.mul_one]
    exact h
  | succ k ih =>
    rw [Nat.pow_succ, ← Nat.mul_assoc]
    exact ih.shiftRightOne (Nat.mul_pos pos (Nat.two_pow_pos k))

/-- Rounding by the two bits is rounding of the quotient. -/
theorem Extends.roundedMantissa (h : Extends a b em) (pos : 0 < b) :
    em.roundedMantissa = roundQuotient a b := by
  obtain ⟨m, r, s⟩ := em
  obtain ⟨rfl, round, sticky⟩ := h
  dsimp only at round sticky
  unfold roundQuotient
  cases r with
  | false =>
    have less : 2 * (a % b) < b := by
      by_contra more
      cases round.2 (Nat.not_lt.1 more)
    rw [if_pos less]
    cases s <;> rfl
  | true =>
    have more : b ≤ 2 * (a % b) := round.1 rfl
    rw [if_neg (Nat.not_lt.2 more)]
    cases s with
    | false =>
      have tie : ¬b < 2 * (a % b) := by
        intro less
        cases sticky.2 (by omega)
      rw [if_neg tie]
      rfl
    | true =>
      have some := sticky.1 rfl
      rw [if_pos (by omega)]
      rfl

/-! ## Rounding -/

theorem roundWithAccuracy_eq (s : Sign) (m : Nat) (e : Int) (acc : Accuracy) :
    roundWithAccuracy .binary64 s m e acc
      = settled s (ExtendedMantissa.ofMantissaAndAccuracy m acc >>> excess m e).roundedMantissa
          (e + excess m e) := by
  simp only [roundWithAccuracy, shiftToTargetExponent, shiftToExponent, toNat_targetExponent,
    mantissa_shiftRight, mantissa_ofMantissaAndAccuracy, settled]

/-- A significand that has at most been rounded up to the next power of two is settled on its
place. -/
theorem settled_spec {k r : Nat} (s : Sign) (le : r ≤ 2 ^ 53) (full : k = 0 ∨ 2 ^ 52 ≤ r) :
    Canonical (settled s r (k - 1074)) ∧
      pattern (settled s r (k - 1074)) = min (k * 2 ^ 52 + r) BinaryFormat.double.infinity := by
  have log : r = 2 ^ 53 ∧ r.log2 = 53 ∨ r < 2 ^ 53 ∧ r.log2 ≤ 52 := by
    rcases Nat.eq_or_lt_of_le le with rfl | less
    · exact .inl ⟨rfl, Nat.log2_two_pow⟩
    · exact .inr ⟨less, log2_le_of_lt_two_pow less⟩
  rcases log with ⟨rfl, log⟩ | ⟨less, log⟩
  · have one : excess (2 ^ 53) (k - 1074) = 1 := by
      rw [excess, log]
      omega
    have half : (2 ^ 53 : Nat) / 2 ^ 1 = 2 ^ 52 := by decide
    have next : (k : Int) - 1074 + (1 : Nat) = ((k + 1 : Nat) : Int) - 1074 := by omega
    simp only [settled, one, half, next]
    rw [dif_neg (by decide), pattern_finite]
    have full : BinaryFormat.double.Normal (k + 1) (2 ^ 52) := ⟨by decide, .inr (Nat.le_refl _)⟩
    have place : (k + 1) * 2 ^ 52 + 2 ^ 52 = k * 2 ^ 52 + 2 ^ 53 := by omega
    rw [place]
    exact ⟨⟨k + 1, rfl, full⟩, rfl⟩
  · have zero : excess r (k - 1074) = 0 := by
      have lead : k = 0 ∨ r.log2 = 52 := full.imp_right fun h => by
        rw [Nat.log2_eq_iff (by omega)]
        omega
      rw [excess]
      omega
    simp only [settled, zero, Nat.pow_zero, Nat.div_one, Int.natCast_zero, Int.add_zero]
    split
    case isTrue none =>
      have least : k = 0 := by omega
      rw [none, least]
      exact ⟨trivial, (Nat.zero_min _).symm⟩
    case isFalse some =>
      rw [pattern_finite]
      exact ⟨⟨k, rfl, ⟨less, full⟩⟩, rfl⟩

theorem log2_of_bounds {n m j : Nat} (some : m ≠ 0) (low : m * 2 ^ j ≤ n)
    (high : n < (m + 1) * 2 ^ j) : n.log2 = m.log2 + j := by
  have pos : n ≠ 0 := by
    have := Nat.mul_pos (Nat.pos_of_ne_zero some) (Nat.two_pow_pos j)
    omega
  rw [Nat.log2_eq_iff pos, Nat.pow_add, Nat.add_right_comm, Nat.pow_add]
  constructor
  · exact Nat.le_trans (Nat.mul_le_mul_right _ (Nat.log2_self_le some)) low
  · exact Nat.lt_of_lt_of_le high (Nat.mul_le_mul_right _ Nat.lt_log2_self)

theorem log2_div_two_pow (n k : Nat) : (n / 2 ^ k).log2 = n.log2 - k := by
  rcases Nat.lt_or_ge n.log2 k with less | le
  · rcases Nat.eq_zero_or_pos n with rfl | pos
    · rw [Nat.zero_div, Nat.log2_zero, Nat.zero_sub]
    · have lt : n < 2 ^ k := (Nat.log2_lt (Nat.ne_of_gt pos)).1 less
      rw [Nat.div_eq_of_lt lt, Nat.log2_zero]
      omega
  · rcases Nat.eq_zero_or_pos n with rfl | pos
    · rw [Nat.zero_div, Nat.log2_zero, Nat.zero_sub]
    · have some := div_two_pow_ne_zero (Nat.ne_of_gt pos) le
      have split := Nat.div_add_mod n (2 ^ k)
      have rest := Nat.mod_lt n (Nat.two_pow_pos k)
      have lead : n.log2 = (n / 2 ^ k).log2 + k := by
        apply log2_of_bounds some
        · exact Nat.div_mul_le_self n _
        · rw [Nat.add_mul, Nat.mul_comm]
          omega
      omega

/-- The bits that the format has no room for, counted on the quotient itself. -/
theorem excess_eq {a b : Nat} {e : Int} (pos : 0 < b)
    (low : e ≤ -1074 ∨ 52 ≤ (a / b).log2) :
    e + excess (a / b) e
      = ((a * 2 ^ (e + 1074).toNat / (b * 2 ^ (-(e + 1074)).toNat)).log2 - 52 : Nat) - 1074 := by
  rcases Int.le_total (e + 1074) 0 with small | large
  · have none : (e + 1074).toNat = 0 := by omega
    rw [none, Nat.pow_zero, Nat.mul_one, ← Nat.div_div_eq_div_mul, log2_div_two_pow, excess]
    omega
  · have none : (-(e + 1074)).toNat = 0 := by omega
    rw [none, Nat.pow_zero, Nat.mul_one, excess]
    rcases Int.lt_or_eq_of_le large with more | same
    · have full : 52 ≤ (a / b).log2 := by omega
      have some : a / b ≠ 0 := by
        intro none
        rw [none, Nat.log2_zero] at full
        omega
      have lead : (a * 2 ^ (e + 1074).toNat / b).log2 = (a / b).log2 + (e + 1074).toNat := by
        apply log2_of_bounds some
        · rw [Nat.le_div_iff_mul_le pos, Nat.mul_right_comm]
          exact Nat.mul_le_mul_right _ (Nat.div_mul_le_self a b)
        · rw [Nat.div_lt_iff_lt_mul pos, Nat.mul_right_comm]
          exact Nat.mul_lt_mul_of_pos_right (Nat.lt_mul_of_div_lt (Nat.lt_succ_self _) pos)
            (Nat.two_pow_pos _)
      rw [lead]
      omega
    · have zero : (e + 1074).toNat = 0 := by omega
      rw [zero, Nat.pow_zero, Nat.mul_one]
      omega

/-- Rounding is to the nearest magnitude. -/
theorem roundWithAccuracy_spec {a b : Nat} {e : Int} {acc : Accuracy} (s : Sign) (pos : 0 < b)
    (h : Extends a b (ExtendedMantissa.ofMantissaAndAccuracy (a / b) acc))
    (low : e ≤ -1074 ∨ 52 ≤ (a / b).log2) :
    Canonical (roundWithAccuracy .binary64 s (a / b) e acc) ∧
      pattern (roundWithAccuracy .binary64 s (a / b) e acc) =
        BinaryFormat.double.near (a * 2 ^ (e + 1074).toNat) (b * 2 ^ (-(e + 1074)).toNat) := by
  have shift := excess_eq pos low
  have normal := BinaryFormat.normal_of_log2 (f := .double) (a * 2 ^ (e + 1074).toNat)
    (b * 2 ^ (-(e + 1074)).toNat)
  have width : BinaryFormat.double.fractionBits = 52 := rfl
  rw [width] at normal
  rw [roundWithAccuracy_eq, (h.shiftRight pos _).roundedMantissa
    (Nat.mul_pos pos (Nat.two_pow_pos _)), shift, BinaryFormat.near, BinaryFormat.rounded,
    width]
  generalize hk : (a * 2 ^ (e + 1074).toNat / (b * 2 ^ (-(e + 1074)).toNat)).log2 - 52 = k
    at shift normal ⊢
  -- both sides divide the same fraction
  have same : roundQuotient (a * 2 ^ (e + 1074).toNat) ((b * 2 ^ (-(e + 1074)).toNat) <<< k)
      = roundQuotient a (b * 2 ^ excess (a / b) e) := by
    rw [← roundQuotient_mul a (b * 2 ^ excess (a / b) e) (Nat.two_pow_pos (e + 1074).toNat),
      Nat.shiftLeft_eq, Nat.mul_assoc, Nat.mul_assoc, ← Nat.pow_add, ← Nat.pow_add]
    congr 3
    omega
  obtain ⟨from_below, to_above⟩ :=
    roundQuotient_bounds (a * 2 ^ (e + 1074).toNat) ((b * 2 ^ (-(e + 1074)).toNat) <<< k)
  rw [same, Nat.shiftLeft_eq] at from_below to_above
  have lt := normal.lt
  rw [width] at lt
  rw [same, Nat.shiftLeft_eq]
  apply settled_spec
  · omega
  · exact normal.full.imp_right fun full => Nat.le_trans full from_below

/-- Rounding a mantissa that may first be given low bits. -/
theorem round_spec {m : Nat} {e : Int} (s : Sign) (some : m ≠ 0) :
    Canonical (UnpackedFloat.round .binary64 s m e) ∧
      pattern (UnpackedFloat.round .binary64 s m e) =
        BinaryFormat.double.near (m * 2 ^ (e + 1074).toNat) (2 ^ (-(e + 1074)).toNat) := by
  obtain ⟨j, hj⟩ : ∃ j, (e - Format.binary64.targetExponent (totalExponent m e)).toNat = j := ⟨_, rfl⟩
  have least : Format.binary64.minExponent = -1074 := rfl
  have width : (Format.binary64.mantissaBits : Int) = 53 := rfl
  have shifted : (m <<< j).log2 = m.log2 + j := by
    rw [Nat.shiftLeft_eq]
    exact log2_of_bounds some (Nat.le_refl _)
      (Nat.mul_lt_mul_of_pos_right (Nat.lt_succ_self m) (Nat.two_pow_pos j))
  have low : e - j ≤ -1074 ∨ 52 ≤ (m <<< j / 1).log2 := by
    rw [Nat.div_one, shifted, ← hj, Format.targetExponent, totalExponent, least, width]
    omega
  have target : j = 0 ∨ j = (e - max ((m.log2 : Int) - 52 + e) (-1074)).toNat := by
    right
    rw [← hj, Format.targetExponent, totalExponent, least, width]
    congr 2
    omega
  have rounded := roundWithAccuracy_spec s Nat.one_pos (a := m <<< j) (e := e - j)
    (by rw [Nat.div_one]; exact extends_exact (m <<< j)) low
  rw [Nat.div_one] at rounded
  have unfolded : UnpackedFloat.round .binary64 s m e
      = roundWithAccuracy .binary64 s (m <<< j) (e - j) .exact := by
    rw [← hj]
    rfl
  rw [unfolded]
  refine ⟨rounded.1, rounded.2.trans ?_⟩
  apply BinaryFormat.near_congr (by decide) (by rw [Nat.one_mul]; exact Nat.two_pow_pos _)
    (Nat.two_pow_pos _)
  rw [Nat.shiftLeft_eq, Nat.one_mul, Nat.mul_assoc, Nat.mul_assoc, Nat.mul_assoc, ← Nat.pow_add,
    ← Nat.pow_add, ← Nat.pow_add]
  congr 2
  omega

theorem nonneg_roundWithAccuracy (m : Nat) (e : Int) (acc : Accuracy) :
    Nonneg (roundWithAccuracy .binary64 .positive m e acc) := by
  rw [roundWithAccuracy_eq, settled]
  split <;> trivial

theorem nonneg_round (m : Nat) (e : Int) : Nonneg (UnpackedFloat.round .binary64 .positive m e) :=
  nonneg_roundWithAccuracy _ _ _

/-! ## Operations -/

variable {x y : Float}

theorem units_of_magnitude_zero (h : magnitude x = 0) : units x = 0 := by
  rw [units, h, BinaryFormat.units_zero]

theorem near_zero (pos : 0 < b) : BinaryFormat.double.near 0 b = 0 :=
  Nat.le_zero.1 (BinaryFormat.near_le (by decide) pos (Nat.zero_le _))

theorem near_units_self (h : magnitude x ≤ BinaryFormat.double.infinity) :
    BinaryFormat.double.near (units x) 1 = magnitude x :=
  BinaryFormat.near_units (by decide) h

/-- The product of two significands is full if one of them is, and is exact otherwise. -/
theorem product_full {k l m n : Nat} (h : BinaryFormat.double.Normal k m)
    (h' : BinaryFormat.double.Normal l n) (pos : 0 < m) (pos' : 0 < n) :
    (k - 1074 : Int) + (l - 1074) ≤ -1074 ∨ 52 ≤ (m * n).log2 := by
  have full : k = 0 ∨ 2 ^ 52 ≤ m := h.full
  have full' : l = 0 ∨ 2 ^ 52 ≤ n := h'.full
  rw [Nat.le_log2 (Nat.mul_pos pos pos').ne']
  rcases full with rfl | full
  · rcases full' with rfl | full'
    · left
      omega
    · exact .inr (Nat.le_trans full' (Nat.le_mul_of_pos_left n pos))
  · exact .inr (Nat.le_trans full (Nat.le_mul_of_pos_right m pos'))

/-- The product of two numbers from zero on is the product of their values, rounded. -/
theorem mul_spec (hx : 0.0 ≤ x) (hy : 0.0 ≤ y) (fx : x.isFinite = true) (fy : y.isFinite = true) :
    0.0 ≤ x * y ∧
      magnitude (x * y) = BinaryFormat.double.near (units x * units y) BinaryFormat.double.one := by
  rw [isFinite_iff] at fx fy
  have product := form_mul x y
  cases unsigned_of_le hx with
  | infinity _ mx => exact absurd fx (mx ▸ Nat.lt_irrefl _)
  | zero formx mx =>
    rw [units_of_magnitude_zero mx, Nat.zero_mul, near_zero one_pos]
    cases unsigned_of_le hy with
    | infinity _ my => exact absurd fy (my ▸ Nat.lt_irrefl _)
    | zero formy | finite formy =>
      rw [formx, formy] at product
      exact unsigned_of_form product trivial trivial
  | @finite k m pos formx normal _ _ ux =>
    cases unsigned_of_le hy with
    | infinity _ my => exact absurd fy (my ▸ Nat.lt_irrefl _)
    | zero formy my =>
      rw [units_of_magnitude_zero my, Nat.mul_zero, near_zero one_pos]
      rw [formx, formy] at product
      exact unsigned_of_form product trivial trivial
    | @finite l n pos' formy normal' _ _ uy =>
      rw [formx, formy] at product
      have low : (k - 1074 : Int) + (l - 1074) ≤ -1074 ∨ 52 ≤ (m * n / 1).log2 := by
        rw [Nat.div_one]
        exact product_full normal normal' pos pos'
      have spec := roundWithAccuracy_spec .positive Nat.one_pos
        (by rw [Nat.div_one]; exact extends_exact (m * n)) low
      rw [Nat.div_one, Nat.one_mul] at spec
      obtain ⟨nonneg, value⟩ :=
        unsigned_of_form product spec.1 (nonneg_roundWithAccuracy (m * n) _ .exact)
      refine ⟨nonneg, value.trans (spec.2.trans ?_)⟩
      apply BinaryFormat.near_congr (by decide) (Nat.two_pow_pos _) one_pos
      have width := unitExponent_eq
      rw [ux, uy, one_eq]
      calc _ = m * n * 2 ^ (((k - 1074 : Int) + (l - 1074) + 1074).toNat
            + BinaryFormat.double.unitExponent) := by ring
        _ = m * n * 2 ^ (k + l + (-((k - 1074 : Int) + (l - 1074) + 1074)).toNat) := by
            congr 2
            omega
        _ = _ := by ring

/-- A mantissa moved up to a lesser exponent is as many units as before. -/
theorem decreaseExponent_units (m : Nat) {j k : Nat} (le : j ≤ k) :
    (decreaseExponent m (k - 1074 : Int) (j - 1074 : Int)).1 * 2 ^ j = m * 2 ^ k := by
  have shift : ((k - 1074 : Int) - (j - 1074 : Int)).toNat + j = k := by omega
  simp only [decreaseExponent, Nat.shiftLeft_eq]
  rw [Nat.mul_assoc, ← Nat.pow_add, shift]

/-- Finite numbers are added and subtracted with their mantissas moved to the lesser exponent. -/
theorem exists_aligned (s t : Sign) (k l : Nat) {m n : Nat} (pos : 0 < m) (pos' : 0 < n) :
    ∃ p q : Nat, p * 2 ^ min k l = m * 2 ^ k ∧ q * 2 ^ min k l = n * 2 ^ l ∧
      UnpackedFloat.add .binary64 (.finite s m (k - 1074) pos) (.finite t n (l - 1074) pos')
        = UnpackedFloat.normalize .binary64 (s.apply p + t.apply q) ((min k l : Nat) - 1074)
            .positive ∧
      UnpackedFloat.sub .binary64 (.finite s m (k - 1074) pos) (.finite t n (l - 1074) pos')
        = UnpackedFloat.normalize .binary64 (s.apply p - t.apply q) ((min k l : Nat) - 1074)
            .positive := by
  have least : min (k - 1074 : Int) (l - 1074) = (min k l : Nat) - 1074 := by omega
  refine ⟨_, _, decreaseExponent_units m (Nat.min_le_left k l),
    decreaseExponent_units n (Nat.min_le_right k l), ?_, ?_⟩
  · simp only [UnpackedFloat.add, least]
  · simp only [UnpackedFloat.sub, least]

/-- A natural number of units with a lower exponent is rounded to the nearest magnitude. -/
theorem normalize_spec (m k : Nat) :
    (Canonical (UnpackedFloat.normalize .binary64 m (k - 1074) .positive) ∧
      pattern (UnpackedFloat.normalize .binary64 m (k - 1074) .positive)
        = BinaryFormat.double.near (m * 2 ^ k) 1) ∧
      Nonneg (UnpackedFloat.normalize .binary64 m (k - 1074) .positive) := by
  rcases Nat.eq_zero_or_pos m with rfl | pos
  · rw [Nat.zero_mul, near_zero Nat.one_pos]
    exact ⟨⟨trivial, rfl⟩, trivial⟩
  · have positive : compare (m : Int) 0 = .gt := Int.compare_eq_gt.2 (by omega)
    have unfolded : UnpackedFloat.normalize .binary64 m (k - 1074) .positive
        = UnpackedFloat.round .binary64 .positive m (k - 1074) := by
      unfold UnpackedFloat.normalize
      rw [positive]
      rfl
    have field : ((k : Int) - 1074 + 1074).toNat = k := by omega
    have none : (-((k : Int) - 1074 + 1074)).toNat = 0 := by omega
    have spec := round_spec (e := (k : Int) - 1074) .positive (Nat.ne_of_gt pos)
    rw [field, none] at spec
    rw [unfolded]
    exact ⟨spec, nonneg_round m _⟩

/-- The sum of two numbers from zero on is the sum of their values, rounded. -/
theorem add_spec (hx : 0.0 ≤ x) (hy : 0.0 ≤ y) (fx : x.isFinite = true) (fy : y.isFinite = true) :
    0.0 ≤ x + y ∧ magnitude (x + y) = BinaryFormat.double.near (units x + units y) 1 := by
  rw [isFinite_iff] at fx fy
  have sum := form_add x y
  cases unsigned_of_le hx with
  | infinity _ mx => exact absurd fx (mx ▸ Nat.lt_irrefl _)
  | @zero s formx mx =>
    rw [units_of_magnitude_zero mx, Nat.zero_add, near_units_self fy.le]
    cases unsigned_of_le hy with
    | infinity _ my => exact absurd fy (my ▸ Nat.lt_irrefl _)
    | @zero t formy my =>
      rw [formx, formy] at sum
      have zero : ∃ r, UnpackedFloat.add .binary64 (.zero s) (.zero t) = .zero r := by
        simp only [UnpackedFloat.add]
        split <;> exact ⟨_, rfl⟩
      obtain ⟨r, zero⟩ := zero
      rw [zero] at sum
      rw [my]
      exact unsigned_of_form sum trivial trivial
    | finite formy =>
      apply unsigned_of_same hy
      rw [formx, formy] at sum
      rw [formy]
      exact sum
  | @finite k m pos formx normal _ _ ux =>
    cases unsigned_of_le hy with
    | infinity _ my => exact absurd fy (my ▸ Nat.lt_irrefl _)
    | @zero t formy my =>
      rw [units_of_magnitude_zero my, Nat.add_zero, near_units_self fx.le]
      apply unsigned_of_same hx
      rw [formx, formy] at sum
      rw [formx]
      exact sum
    | @finite l n pos' formy normal' _ _ uy =>
      obtain ⟨p, q, left, right, added, -⟩ := exists_aligned .positive .positive k l pos pos'
      rw [formx, formy, added] at sum
      obtain ⟨spec, nonneg⟩ := normalize_spec (p + q) (min k l)
      rw [Nat.add_mul, left, right, ← ux, ← uy] at spec
      rw [← spec.2]
      exact unsigned_of_form sum spec.1 nonneg

/-- The difference of two numbers from zero on, the greater one first, is the difference of their
values, rounded. -/
theorem sub_spec (hx : 0.0 ≤ x) (hy : 0.0 ≤ y) (fx : x.isFinite = true) (le : y ≤ x) :
    0.0 ≤ x - y ∧ magnitude (x - y) = BinaryFormat.double.near (units x - units y) 1 := by
  rw [isFinite_iff] at fx
  rw [le_iff_magnitude hy hx] at le
  have difference := form_sub x y
  cases unsigned_of_le hx with
  | infinity _ mx => exact absurd fx (mx ▸ Nat.lt_irrefl _)
  | @zero s formx mx =>
    rw [units_of_magnitude_zero mx, Nat.zero_sub, near_zero Nat.one_pos]
    cases unsigned_of_le hy with
    | infinity _ my => omega
    | finite _ _ my => omega
    | @zero t formy my =>
      rw [formx, formy] at difference
      obtain ⟨r, zero⟩ : ∃ r, UnpackedFloat.sub .binary64 (.zero s) (.zero t) = .zero r := by
        simp only [UnpackedFloat.sub]
        split <;> exact ⟨_, rfl⟩
      rw [zero] at difference
      exact unsigned_of_form difference trivial trivial
  | @finite k m pos formx normal _ _ ux =>
    cases unsigned_of_le hy with
    | infinity _ my => omega
    | @zero t formy my =>
      rw [units_of_magnitude_zero my, Nat.sub_zero, near_units_self fx.le]
      apply unsigned_of_same hx
      rw [formx, formy] at difference
      rw [formx]
      exact difference
    | @finite l n pos' formy normal' _ _ uy =>
      obtain ⟨p, q, left, right, -, taken⟩ := exists_aligned .positive .positive k l pos pos'
      rw [formx, formy, taken] at difference
      have less : units y ≤ units x := BinaryFormat.double.units_le_iff.2 le
      rw [← ux] at left
      rw [← uy] at right
      have order : q ≤ p := by
        apply Nat.le_of_mul_le_mul_right _ (Nat.two_pow_pos (min k l))
        rw [left, right]
        exact less
      obtain ⟨spec, nonneg⟩ := normalize_spec (p - q) (min k l)
      rw [Nat.sub_mul, left, right, Int.natCast_sub order] at spec
      rw [Int.natCast_sub order] at nonneg
      rw [← spec.2]
      exact unsigned_of_form difference spec.1 nonneg

theorem le_log2_div {a b k : Nat} (pos : 0 < b) (h : 2 ^ k * b ≤ a) : k ≤ (a / b).log2 := by
  have enough : 2 ^ k ≤ a / b := (Nat.le_div_iff_mul_le pos).2 h
  exact (Nat.le_log2 (Nat.ne_of_gt (Nat.lt_of_lt_of_le (Nat.two_pow_pos k) enough))).2 enough

/-- A quotient is full if enough low bits are added to the dividend. -/
theorem quotient_full {m n j : Nat} (pos : 0 < m) (pos' : 0 < n)
    (bits : 52 + (n.log2 + 1) ≤ m.log2 + j) : 52 ≤ (m <<< j / n).log2 := by
  apply le_log2_div pos'
  calc 2 ^ 52 * n ≤ 2 ^ 52 * 2 ^ (n.log2 + 1) := Nat.mul_le_mul_left _ Nat.lt_log2_self.le
    _ = 2 ^ (52 + (n.log2 + 1)) := (Nat.pow_add ..).symm
    _ ≤ 2 ^ (m.log2 + j) := Nat.pow_le_pow_right (by decide) bits
    _ = 2 ^ m.log2 * 2 ^ j := Nat.pow_add ..
    _ ≤ m * 2 ^ j := Nat.mul_le_mul_right _ (Nat.log2_self_le pos.ne')
    _ = m <<< j := (Nat.shiftLeft_eq ..).symm

/-- The quotient of two numbers from zero on, the second one not zero, is the quotient of their
values, rounded. -/
theorem div_spec (hx : 0.0 ≤ x) (hy : 0.0 ≤ y) (fx : x.isFinite = true) (fy : y.isFinite = true)
    (some : magnitude y ≠ 0) :
    0.0 ≤ x / y ∧
      magnitude (x / y) = BinaryFormat.double.near (units x * BinaryFormat.double.one) (units y) := by
  rw [isFinite_iff] at fx fy
  have quotient := form_div x y
  cases unsigned_of_le hy with
  | infinity _ my => exact absurd fy (my ▸ Nat.lt_irrefl _)
  | zero _ my => exact absurd my some
  | @finite l n pos' formy normal' _ _ uy =>
    have divisor : 0 < units y := uy ▸ Nat.mul_pos pos' (Nat.two_pow_pos l)
    cases unsigned_of_le hx with
    | infinity _ mx => exact absurd fx (mx ▸ Nat.lt_irrefl _)
    | zero formx mx =>
      rw [units_of_magnitude_zero mx, Nat.zero_mul, near_zero divisor]
      rw [formx, formy] at quotient
      exact unsigned_of_form quotient trivial trivial
    | @finite k m pos formx normal _ _ ux =>
      rw [formx, formy] at quotient
      have least : Format.binary64.minExponent = -1074 := rfl
      have width : (Format.binary64.mantissaBits : Int) = 53 := rfl
      obtain ⟨t, ht⟩ : ∃ t, min ((k - 1074 : Int) - (l - 1074)) (Format.binary64.targetExponent
        (totalExponent m (k - 1074) - totalExponent n (l - 1074))) = t := ⟨_, rfl⟩
      obtain ⟨j, hj⟩ : ∃ j, ((k - 1074 : Int) - (l - 1074) - t).toNat = j := ⟨_, rfl⟩
      have core : divCore .binary64 m (k - 1074) n (l - 1074)
          = ((m <<< j) / n, t, accuracyOfFraction ((m <<< j) % n) n) := by
        rw [← hj, ← ht]
        rfl
      simp only [UnpackedFloat.div, core] at quotient
      have low : t ≤ -1074 ∨ 52 ≤ (m <<< j / n).log2 := by
        rw [Format.targetExponent, totalExponent, totalExponent, least, width] at ht
        by_cases least : t ≤ -1074
        · exact .inl least
        · exact .inr (quotient_full pos pos' (by omega))
      obtain ⟨canonical, value⟩ := roundWithAccuracy_spec .positive pos' (extends_quotient _ pos') low
      obtain ⟨nonneg, result⟩ := unsigned_of_form quotient canonical (nonneg_roundWithAccuracy _ _ _)
      refine ⟨nonneg, result.trans (value.trans ?_)⟩
      apply BinaryFormat.near_congr (by decide) (Nat.mul_pos pos' (Nat.two_pow_pos _)) divisor
      have exponent := unitExponent_eq
      rw [ux, uy, one_eq, Nat.shiftLeft_eq]
      calc _ = m * n * 2 ^ (j + (t + 1074).toNat + l) := by ring
        _ = m * n * 2 ^ (k + BinaryFormat.double.unitExponent + (-(t + 1074)).toNat) := by
            congr 2
            omega
        _ = _ := by ring

/-- A sum with infinity is infinity. -/
theorem add_infinite (hx : 0.0 ≤ x) (hy : 0.0 ≤ y) (infinite : y.isFinite = false) :
    0.0 ≤ x + y ∧ magnitude (x + y) = BinaryFormat.double.infinity := by
  have sum := form_add x y
  rw [← isFinite_form] at infinite
  cases unsigned_of_le hy with
  | zero formy | finite formy =>
    rw [formy] at infinite
    cases infinite
  | infinity formy =>
    cases unsigned_of_le hx with
    | zero formx | finite formx | infinity formx =>
      rw [formx, formy] at sum
      exact unsigned_of_form sum trivial trivial

/-- A quotient by infinity is zero. -/
theorem div_infinite (hx : 0.0 ≤ x) (hy : 0.0 ≤ y) (finite : x.isFinite = true)
    (infinite : y.isFinite = false) : 0.0 ≤ x / y ∧ magnitude (x / y) = 0 := by
  have quotient := form_div x y
  rw [← isFinite_form] at finite infinite
  cases unsigned_of_le hy with
  | zero formy | finite formy =>
    rw [formy] at infinite
    cases infinite
  | infinity formy =>
    cases unsigned_of_le hx with
    | infinity formx =>
      rw [formx] at finite
      cases finite
    | zero formx | finite formx =>
      rw [formx, formy] at quotient
      exact unsigned_of_form quotient trivial trivial

end Double

end CounterWatch
