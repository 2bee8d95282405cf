import CounterWatch.Arithmetic
import Mathlib

/-!
# Rounding

How large the result of an operation on numbers of 64 bits can be, and what a finite result says
about the operands. Every operation works on exact values and then rounds: it drops the low bits of
a mantissa that the format has no room for, and a carry may leave one bit too many, which is dropped
as well.

* `form` is what a number stands for, and `Below k` bounds its magnitude by `2 ^ k`.
* `roundWithAccuracy_eq_settled` says what rounding is, whatever the bits that are lost. It at most
  doubles a magnitude (`below_roundWithAccuracy`), and one of `2 ^ 1024` or more gets out of range
  (`roundWithAccuracy_of_le`).
* `below_sub` and `below_div` bound differences and quotients. A sum, a quotient or a square root is
  finite only if what it is made of is (`isFinite_of_isFinite_add`, ...), and a square only if its
  root is below `2 ^ 512` (`below_of_isFinite_square`).
-/

namespace CounterWatch

namespace Double

open Float.Model (Format UnpackedFloat totalExponent)
open Float.Model.UnpackedFloat

/-- What a number stands for: a sign, a mantissa and an exponent, or one of the special values. -/
def form (x : Float) : UnpackedFloat := x.toModel.unpack

/-- A form as it is read back from its bit pattern. -/
def repacked (u : UnpackedFloat) : UnpackedFloat := (Float.Model.pack u).unpack

theorem form_add (x y : Float) : form (x + y) = repacked (.add .binary64 (form x) (form y)) := rfl

theorem form_sub (x y : Float) : form (x - y) = repacked (.sub .binary64 (form x) (form y)) := rfl

theorem form_mul (x y : Float) : form (x * y) = repacked (.mul .binary64 (form x) (form y)) := rfl

theorem form_div (x y : Float) : form (x / y) = repacked (.div .binary64 (form x) (form y)) := rfl

theorem form_sqrt (x : Float) : form x.sqrt = repacked (.sqrt .binary64 (form x)) := rfl

theorem isFinite_form (x : Float) : (form x).isFinite = x.isFinite := rfl

/-- A number of a magnitude below `2 ^ k`. -/
def Below (k : Nat) : UnpackedFloat → Prop
  | .zero _ => True
  | .finite _ m e _ => m.log2 + e < k
  | .infinity _ | .notANumber => False

theorem Below.isFinite {k : Nat} {u : UnpackedFloat} (h : Below k u) : u.isFinite = true := by
  cases u with
  | zero | finite => rfl
  | infinity | notANumber => exact h.elim

theorem Below.mono {j k : Nat} {u : UnpackedFloat} (h : Below j u) (le : j ≤ k) : Below k u := by
  cases u with
  | zero => trivial
  | finite s m e pos =>
    have lead : (m.log2 : Int) + e < j := h
    show (m.log2 : Int) + e < k
    omega
  | infinity | notANumber => exact h.elim

/-! ## Logarithms -/

/-- Bits that are dropped are missing from the logarithm. -/
theorem log2_div_two_pow_add_le {n k : Nat} (pos : n / 2 ^ k ≠ 0) :
    (n / 2 ^ k).log2 + k ≤ n.log2 := by
  have some : n ≠ 0 := fun none => pos (by rw [none, Nat.zero_div])
  rw [Nat.le_log2 some, Nat.pow_add]
  calc 2 ^ (n / 2 ^ k).log2 * 2 ^ k ≤ n / 2 ^ k * 2 ^ k :=
        Nat.mul_le_mul_right _ (Nat.log2_self_le pos)
    _ ≤ n := Nat.div_mul_le_self n _

theorem log2_le_of_lt_two_pow {n k : Nat} (h : n < 2 ^ (k + 1)) : n.log2 ≤ k := by
  rcases Nat.eq_zero_or_pos n with none | pos
  · rw [none, Nat.log2_zero]
    exact Nat.zero_le k
  · exact Nat.le_of_lt_succ ((Nat.log2_lt (Nat.ne_of_gt pos)).2 h)

/-- What is left of a number once `k` bits are dropped has no more bits, even with one added. -/
theorem log2_le_of_le_succ_div {n k r : Nat} (h : r ≤ n / 2 ^ k + 1) :
    r.log2 ≤ n.log2 + 1 - k := by
  have lt : n < 2 ^ (n.log2 + 1) := Nat.lt_log2_self
  have part : n / 2 ^ k < 2 ^ (n.log2 + 1 - k) := by
    rw [Nat.div_lt_iff_lt_mul (Nat.two_pow_pos k), ← Nat.pow_add]
    exact Nat.lt_of_lt_of_le lt (Nat.pow_le_pow_right (by decide) (by omega))
  apply log2_le_of_lt_two_pow
  have some := Nat.two_pow_pos (n.log2 + 1 - k)
  rw [Nat.pow_succ]
  omega

/-- A mantissa from which no more bits are dropped than it has does not vanish. -/
theorem div_two_pow_ne_zero {n k : Nat} (pos : n ≠ 0) (le : k ≤ n.log2) : n / 2 ^ k ≠ 0 := by
  have enough : 2 ^ k ≤ n := (Nat.le_log2 pos).1 le
  exact Nat.ne_of_gt (Nat.div_pos enough (Nat.two_pow_pos k))

/-! ## Rounding -/

/-- How many low bits of a mantissa the format has no room for. -/
def excess (m : Nat) (e : Int) : Nat := (max (m.log2 - 52 + e) (-1074) - e).toNat

/-- A mantissa without the bits that the format has no room for. -/
def settled (s : Sign) (m : Nat) (e : Int) : UnpackedFloat :=
  if h : m / 2 ^ excess m e = 0 then .zero s
  else .finite s (m / 2 ^ excess m e) (e + excess m e) (Nat.pos_of_ne_zero h)

theorem mantissa_shiftRight (em : ExtendedMantissa) (k : Nat) :
    (em >>> k).mantissa = em.mantissa / 2 ^ k := by
  induction k with
  | zero => exact (Nat.div_one _).symm
  | succ k ih =>
    show (em >>> k).mantissa / 2 = em.mantissa / 2 ^ (k + 1)
    rw [ih, Nat.div_div_eq_div_mul, Nat.pow_succ]

theorem mantissa_ofMantissaAndAccuracy (m : Nat) (a : Accuracy) :
    (ExtendedMantissa.ofMantissaAndAccuracy m a).mantissa = m := by
  rcases a with _ | (_ | _ | _) <;> rfl

/-- Rounding adds one to a mantissa or nothing. -/
theorem roundToNearestEven_bounds (a : Accuracy) (m : Nat) :
    m ≤ a.roundToNearestEven m ∧ a.roundToNearestEven m ≤ m + 1 := by
  rcases a with _ | (_ | _ | _) <;> simp only [Accuracy.roundToNearestEven] <;> omega

theorem toNat_targetExponent (m : Nat) (e : Int) :
    (Format.binary64.targetExponent (totalExponent m e) - e).toNat = excess m e := by
  have least : Format.binary64.minExponent = -1074 := rfl
  have width : (Format.binary64.mantissaBits : Int) = 53 := rfl
  rw [Format.targetExponent, totalExponent, least, width, excess]
  congr 2
  omega

/-- Rounding drops the low bits of a mantissa, adds one or nothing, and drops once more what a carry
may have left. -/
theorem roundWithAccuracy_eq_settled (s : Sign) (m : Nat) (e : Int) (a : Accuracy) :
    ∃ r, m / 2 ^ excess m e ≤ r ∧ r ≤ m / 2 ^ excess m e + 1 ∧
      roundWithAccuracy .binary64 s m e a = settled s r (e + excess m e) := by
  obtain ⟨low, high⟩ := roundToNearestEven_bounds
    (ExtendedMantissa.ofMantissaAndAccuracy m a >>> excess m e).accuracy (m / 2 ^ excess m e)
  refine ⟨_, low, high, ?_⟩
  simp only [roundWithAccuracy, shiftToTargetExponent, shiftToExponent, toNat_targetExponent,
    ExtendedMantissa.roundedMantissa, mantissa_shiftRight, mantissa_ofMantissaAndAccuracy, settled]

theorem below_settled {k r : Nat} {e : Int} (s : Sign) (h : r.log2 + e < k) :
    Below k (settled s r e) := by
  unfold settled
  split
  case isTrue => trivial
  case isFalse some =>
    have drop := log2_div_two_pow_add_le some
    show ((r / 2 ^ excess r e).log2 : Int) + (e + excess r e) < k
    omega

/-- Rounding at most doubles a magnitude. -/
theorem below_roundWithAccuracy {k m : Nat} {e : Int} (s : Sign) (a : Accuracy)
    (h : m.log2 + e < k) : Below (k + 1) (roundWithAccuracy .binary64 s m e a) := by
  obtain ⟨r, -, high, rounded⟩ := roundWithAccuracy_eq_settled s m e a
  rw [rounded]
  apply below_settled
  have lead := log2_le_of_le_succ_div high
  -- either a bit of the mantissa is left, or the exponent is the least one
  unfold excess at lead ⊢
  omega

/-- From `2 ^ 1024` on rounding ends with an exponent that is out of range. -/
theorem roundWithAccuracy_of_le {m : Nat} {e : Int} (s : Sign) (a : Accuracy) (some : m ≠ 0)
    (h : 1024 ≤ m.log2 + e) :
    ∃ n f pos, roundWithAccuracy .binary64 s m e a = .finite s n f pos ∧ 972 ≤ f := by
  obtain ⟨r, low, -, rounded⟩ := roundWithAccuracy_eq_settled s m e a
  have most : excess m e ≤ m.log2 ∧ 972 ≤ e + excess m e := by
    unfold excess
    omega
  have part := div_two_pow_ne_zero some most.1
  have once : excess r (e + excess m e) ≤ r.log2 := by
    unfold excess at most ⊢
    omega
  have pos : r ≠ 0 := by
    intro none
    rw [none] at low
    exact part (Nat.le_zero.1 low)
  have left : r / 2 ^ excess r (e + excess m e) ≠ 0 := div_two_pow_ne_zero pos once
  rw [settled, dif_neg left] at rounded
  exact ⟨_, _, _, rounded, by omega⟩

/-! ## Bit patterns -/

theorem toNat_one_append (m : BitVec 52) : (1#1 ++ m).toNat = 2 ^ 52 + m.toNat := by
  rw [BitVec.toNat_append, ← Nat.shiftLeft_add_eq_or_of_lt m.isLt]
  rfl

theorem ofBitVec_unpackSign_packComponents (s : Sign) (e : BitVec 11) (m : BitVec 52) :
    Sign.ofBitVec (unpackSign (packComponents .binary64 s e m)) = s := by
  rw [unpackSign, packComponents, BitVec.extractLsb,
    BitVec.extractLsb'_append_eq_of_le (by decide), BitVec.extractLsb'_append_eq_of_le (by decide)]
  cases s <;> rfl

theorem unpack_packComponents (s : Sign) (e : BitVec 11) (m : BitVec 52) :
    unpack .binary64 (packComponents .binary64 s e m) =
      if e = -1#11 then if m = 0#52 then .infinity s else .notANumber
      else if e = 0#11 then
        if h : m = 0#52 then .zero s else
          .finite s m.toNat (-1074) (by simpa [BitVec.toNat_pos, BitVec.pos_iff_ne_zero])
      else .finite s (2 ^ 52 + m.toNat) (e.toNat - 1075) (by omega) := by
  have bias : ((Format.binary64.exponentBias : Int) + (52 : Nat)) = 1075 := rfl
  simp only [unpack, unpackExponent_packComponents, unpackMantissa_packComponents,
    ofBitVec_unpackSign_packComponents, toNat_one_append, bias]
  by_cases least : e = 0#11
  · subst least
    rfl
  · simp only [least, ↓reduceIte]

theorem pack_finite (s : Sign) (m : Nat) (e : Int) (pos : 0 < m) :
    pack .binary64 (.finite s m e pos) =
      if 972 ≤ e then packedInfinity .binary64 s
      else if m.log2 = 52 then
        packComponents .binary64 s (BitVec.ofNat 11 (e + 1075).toNat) (BitVec.ofNat 52 m)
      else packComponents .binary64 s 0#11 (BitVec.ofNat 52 m) := by
  have bias : e + (Format.binary64.exponentBias : Int) + (52 : Nat) = e + 1075 := by
    have value : (Format.binary64.exponentBias : Int) = 1023 := rfl
    omega
  have range : 2 ^ 11 ≤ (e + 1075).toNat + 1 ↔ 972 ≤ e := by omega
  have width : m.log2 + 1 = Format.binary64.mantissaBits ↔ m.log2 = 52 := by
    have value : Format.binary64.mantissaBits = 53 := rfl
    omega
  simp only [pack, bias, range, width]

@[simp] theorem repacked_infinity (s : Sign) : repacked (.infinity s) = .infinity s := by
  cases s <;> rfl

@[simp] theorem repacked_zero (s : Sign) : repacked (.zero s) = .zero s := by
  cases s <;> rfl

@[simp] theorem repacked_notANumber : repacked .notANumber = .notANumber := rfl

/-- A number with an exponent out of range is read back as infinite. -/
theorem repacked_of_le {s : Sign} {m : Nat} {e : Int} {pos : 0 < m} (h : 972 ≤ e) :
    repacked (.finite s m e pos) = .infinity s := by
  show unpack .binary64 (pack .binary64 (.finite s m e pos)) = .infinity s
  rw [pack_finite, if_pos h]
  exact repacked_infinity s

/-- The least exponent is that of the smallest numbers. -/
theorem below_unpack_least (k : Nat) (s : Sign) (m : BitVec 52) :
    Below k (unpack .binary64 (packComponents .binary64 s 0#11 m)) := by
  rw [unpack_packComponents, if_neg (by decide), if_pos rfl]
  split
  case isTrue => trivial
  case isFalse some =>
    have lead : m.toNat.log2 < 52 := by
      apply (Nat.log2_lt _).2 m.isLt
      simpa [BitVec.toNat_eq] using some
    show (m.toNat.log2 : Int) + (-1074) < k
    omega

/-- Any other exponent adds the leading bit to the mantissa. -/
theorem below_unpack_normal {k : Nat} {e : Int} (s : Sign) (m : BitVec 52) (low : 0 < e + 1075)
    (high : e < 972) (lead : 52 + e < k) :
    Below k (unpack .binary64 (packComponents .binary64 s (BitVec.ofNat 11 (e + 1075).toNat) m)) := by
  have field : (BitVec.ofNat 11 (e + 1075).toNat).toNat = (e + 1075).toNat := by
    rw [BitVec.toNat_ofNat, Nat.mod_eq_of_lt (by omega)]
  have not_ones : BitVec.ofNat 11 (e + 1075).toNat ≠ -1#11 := by
    intro full
    rw [full] at field
    have value : (-1#11).toNat = 2047 := rfl
    omega
  have not_zeros : BitVec.ofNat 11 (e + 1075).toNat ≠ 0#11 := by
    intro zero
    rw [zero] at field
    have value : (0#11).toNat = 0 := rfl
    omega
  have bits : (2 ^ 52 + m.toNat).log2 = 52 := by
    have room := m.isLt
    rw [Nat.log2_eq_iff (by omega)]
    omega
  rw [unpack_packComponents, if_neg not_ones, if_neg not_zeros]
  show ((2 ^ 52 + m.toNat).log2 : Int) + ((BitVec.ofNat 11 (e + 1075).toNat).toNat - 1075) < k
  rw [bits, field]
  omega

/-- A number that is not too large is read back with the same bound. -/
theorem Below.repacked {k : Nat} {u : UnpackedFloat} (h : Below k u) (le : k ≤ 972) :
    Below k (repacked u) := by
  cases u with
  | zero s =>
    rw [repacked_zero]
    exact h
  | finite s m e pos =>
    have lead : (m.log2 : Int) + e < k := h
    show Below k (unpack .binary64 (pack .binary64 (.finite s m e pos)))
    rw [pack_finite, if_neg (by omega)]
    split
    case isFalse => exact below_unpack_least k s _
    case isTrue full =>
      rcases Nat.eq_zero_or_pos (e + 1075).toNat with least | more
      · rw [least]
        exact below_unpack_least k s _
      · exact below_unpack_normal s _ (by omega) (by omega) (by omega)
  | infinity | notANumber => exact h.elim

/-- A positive number is not read back as negative infinity. -/
theorem repacked_positive_ne {m : Nat} {e : Int} {pos : 0 < m} :
    repacked (.finite .positive m e pos) ≠ .infinity .negative := by
  have kept : ∀ f n, unpack .binary64 (packComponents .binary64 .positive f n)
      ≠ .infinity .negative := by
    intro f n
    rw [unpack_packComponents]
    intro h
    split_ifs at h
    cases h
  show unpack .binary64 (pack .binary64 (.finite .positive m e pos)) ≠ .infinity .negative
  rw [pack_finite]
  split
  case isTrue => exact kept _ _
  case isFalse =>
    split
    case isTrue => exact kept _ _
    case isFalse => exact kept _ _

/-! ## Differences -/

theorem log2_shiftLeft_le (m n : Nat) : (m <<< n).log2 ≤ m.log2 + n := by
  apply log2_le_of_lt_two_pow
  rw [Nat.shiftLeft_eq, Nat.add_right_comm, Nat.pow_add]
  exact Nat.mul_lt_mul_of_pos_right Nat.lt_log2_self (Nat.two_pow_pos n)

/-- Rounding at most doubles a magnitude, also where it first adds low bits. -/
theorem below_round {k m : Nat} {e : Int} (s : Sign) (lead : m.log2 + e < k) :
    Below (k + 1) (UnpackedFloat.round .binary64 s m e) := by
  apply below_roundWithAccuracy
  have shifted := log2_shiftLeft_le m
    (e - Format.binary64.targetExponent (totalExponent m e)).toNat
  omega

theorem below_normalize {k : Nat} {m e : Int} (s : Sign) (lead : m.natAbs.log2 + e < k) :
    Below (k + 1) (UnpackedFloat.normalize .binary64 m e s) := by
  unfold UnpackedFloat.normalize
  split
  case h_1 h =>
    have negative := Int.compare_eq_lt.1 h
    apply below_round
    rw [show (-m).toNat = m.natAbs by omega]
    exact lead
  case h_2 => trivial
  case h_3 h =>
    have positive := Int.compare_eq_gt.1 h
    apply below_round
    rw [show m.toNat = m.natAbs by omega]
    exact lead

/-- A number below `2 ^ k`, its mantissa moved up to a lower exponent. -/
theorem shiftLeft_lt {k m : Nat} {e f : Int} (lead : m.log2 + e < k) (le : f ≤ e) :
    m <<< (e - f).toNat < 2 ^ (k - f).toNat := by
  have some : 0 < 2 ^ (k - f).toNat := Nat.two_pow_pos _
  rcases Nat.eq_zero_or_pos (m <<< (e - f).toNat) with none | pos
  · omega
  · have shifted := log2_shiftLeft_le m (e - f).toNat
    exact (Nat.log2_lt (Nat.ne_of_gt pos)).1 (by omega)

theorem natAbs_apply (s : Sign) (n : Nat) : (s.apply n).natAbs = n := by
  cases s with
  | negative => exact Int.natAbs_neg n
  | positive => rfl

theorem natAbs_sub_lt {s t : Sign} {m n k : Nat} (left : m < 2 ^ k) (right : n < 2 ^ k) :
    (s.apply m - t.apply n).natAbs < 2 ^ (k + 1) := by
  have parts := Int.natAbs_sub_le (s.apply m) (t.apply n)
  rw [natAbs_apply, natAbs_apply] at parts
  rw [Nat.pow_succ]
  omega

theorem below_sub_form {k : Nat} {x y : UnpackedFloat} (hx : Below k x) (hy : Below k y) :
    Below (k + 2) (UnpackedFloat.sub .binary64 x y) := by
  cases x with
  | infinity | notANumber => exact hx.elim
  | zero s =>
    cases y with
    | infinity | notANumber => exact hy.elim
    | zero t =>
      simp only [UnpackedFloat.sub]
      split <;> trivial
    | finite t n f pos => exact Below.mono (j := k) hy (by omega)
  | finite s m e pos =>
    cases y with
    | infinity | notANumber => exact hy.elim
    | zero t => exact hx.mono (by omega)
    | finite t n f pos' =>
      have left := shiftLeft_lt hx (Int.min_le_left e f)
      have right := shiftLeft_lt hy (Int.min_le_right e f)
      have lead := log2_le_of_lt_two_pow (natAbs_sub_lt (s := s) (t := t) left right)
      have low : min e f < k := by
        have first : (m.log2 : Int) + e < k := hx
        omega
      apply below_normalize
      show ((s.apply (m <<< (e - min e f).toNat) - t.apply (n <<< (f - min e f).toNat)).natAbs.log2
        : Int) + min e f < (k + 1 : Nat)
      omega

/-- A difference of two numbers below `2 ^ k`. -/
theorem below_sub {k : Nat} {x y : Float} (hx : Below k (form x)) (hy : Below k (form y))
    (le : k + 2 ≤ 972) : Below (k + 2) (form (x - y)) := by
  rw [form_sub]
  exact (below_sub_form hx hy).repacked le

/-! ## Quotients -/

theorem below_div_form {j n m : Nat} {x : UnpackedFloat} {e : Int} {s : Sign} {pos : 0 < m}
    (hx : Below j x) (le : -n ≤ m.log2 + e) :
    Below (j + n + 2) (UnpackedFloat.div .binary64 x (.finite s m e pos)) := by
  cases x with
  | infinity | notANumber => exact hx.elim
  | zero t => trivial
  | finite t p f _ =>
    have lead : (p.log2 : Int) + f < j := hx
    have least : Format.binary64.minExponent = -1074 := rfl
    have width : (Format.binary64.mantissaBits : Int) = 53 := rfl
    apply below_roundWithAccuracy
    simp only [Format.targetExponent, totalExponent, least, width]
    generalize target : min (f - e) (max (p.log2 + 1 + f - (m.log2 + 1 + e) - 53) (-1074)) = low
    have shifted := log2_shiftLeft_le p (f - e - low).toNat
    have part : (p <<< (f - e - low).toNat) / m ≤ (p <<< (f - e - low).toNat) / 2 ^ m.log2 :=
      Nat.div_le_div_left (Nat.log2_self_le (Nat.ne_of_gt pos)) (Nat.two_pow_pos _)
    have bits := log2_le_of_le_succ_div (Nat.le_succ_of_le part)
    omega

/-- A quotient of a number below `2 ^ j` by one of `2 ^ -n` or more. -/
theorem below_div {j n m : Nat} {x y : Float} {e : Int} {s : Sign} {pos : 0 < m}
    (hx : Below j (form x)) (hy : form y = .finite s m e pos) (low : -n ≤ m.log2 + e)
    (le : j + n + 2 ≤ 972) : Below (j + n + 2) (form (x / y)) := by
  rw [form_div, hy]
  exact (below_div_form hx low).repacked le

/-- A quotient by what is not finite is zero or no number. -/
theorem form_div_of_not_isFinite (x : Float) {y : Float} (hy : y.isFinite = false) :
    form (x / y) = .notANumber ∨ ∃ s, form (x / y) = .zero s := by
  rw [← isFinite_form] at hy
  rw [form_div]
  generalize form x = u, form y = v at hy ⊢
  have quotient : UnpackedFloat.div .binary64 u v = .notANumber ∨
      ∃ s, UnpackedFloat.div .binary64 u v = .zero s := by
    cases v with
    | zero | finite => cases hy
    | notANumber => cases u <;> exact .inl rfl
    | infinity t =>
      cases u with
      | notANumber | infinity => exact .inl rfl
      | zero | finite => exact .inr ⟨_, rfl⟩
  obtain none | ⟨s, zero⟩ := quotient
  · rw [none, repacked_notANumber]
    exact .inl rfl
  · rw [zero, repacked_zero]
    exact .inr ⟨s, rfl⟩

/-! ## Finite results -/

/-- What is not finite is not read back as finite. -/
theorem isFinite_of_isFinite_repacked {u : UnpackedFloat} (h : (repacked u).isFinite = true) :
    u.isFinite = true := by
  cases u with
  | zero | finite => rfl
  | infinity s =>
    rw [repacked_infinity] at h
    cases h
  | notANumber =>
    rw [repacked_notANumber] at h
    cases h

theorem isFinite_of_isFinite_add_form {x y : UnpackedFloat}
    (h : (UnpackedFloat.add .binary64 x y).isFinite = true) :
    x.isFinite = true ∧ y.isFinite = true := by
  cases x with
  | notANumber => cases y <;> cases h
  | infinity s =>
    cases y with
    | infinity t =>
      simp only [UnpackedFloat.add] at h
      split at h <;> cases h
    | notANumber | zero | finite => cases h
  | zero | finite =>
    refine ⟨rfl, ?_⟩
    cases y with
    | infinity | notANumber => cases h
    | zero | finite => rfl

theorem isFinite_of_isFinite_add {x y : Float} (h : (x + y).isFinite = true) :
    x.isFinite = true ∧ y.isFinite = true := by
  rw [← isFinite_form, form_add] at h
  exact isFinite_of_isFinite_add_form (isFinite_of_isFinite_repacked h)

theorem isFinite_of_isFinite_div {x y : Float} (h : (x / y).isFinite = true) :
    x.isFinite = true := by
  rw [← isFinite_form] at h ⊢
  rw [form_div] at h
  have quotient := isFinite_of_isFinite_repacked h
  cases hx : form x with
  | zero | finite => rfl
  | infinity | notANumber =>
    rw [hx] at quotient
    cases hy : form y <;> rw [hy] at quotient <;> cases quotient

theorem isFinite_of_isFinite_sqrt {x : Float} (h : x.sqrt.isFinite = true) :
    x.isFinite = true := by
  rw [← isFinite_form] at h ⊢
  rw [form_sqrt] at h
  have root := isFinite_of_isFinite_repacked h
  cases hx : form x with
  | zero | finite => rfl
  | notANumber =>
    rw [hx] at root
    cases root
  | infinity s =>
    rw [hx] at root
    cases s <;> cases root

/-- A square is finite only if the root is below `2 ^ 512`. -/
theorem below_of_isFinite_square {x : Float} (h : (x * x).isFinite = true) :
    Below 512 (form x) := by
  rw [← isFinite_form, form_mul] at h
  have square := isFinite_of_isFinite_repacked h
  cases hx : form x with
  | zero => trivial
  | infinity | notANumber =>
    rw [hx] at square
    cases square
  | finite s m e pos =>
    rw [hx] at h
    show (m.log2 : Int) + e < (512 : Nat)
    by_contra large
    have some : m * m ≠ 0 := Nat.ne_of_gt (Nat.mul_pos pos pos)
    have twice : 2 * m.log2 ≤ (m * m).log2 := by
      rw [Nat.le_log2 some, Nat.two_mul, Nat.pow_add]
      have self := Nat.log2_self_le (Nat.ne_of_gt pos)
      exact Nat.mul_le_mul self self
    obtain ⟨n, f, _, rounded, range⟩ :=
      roundWithAccuracy_of_le (m := m * m) (e := e + e) (s * s) .exact some (by omega)
    simp only [UnpackedFloat.mul, rounded, repacked_of_le range] at h
    cases h

/-- Rounding a positive number does not end in negative infinity. -/
theorem repacked_roundWithAccuracy_ne (m : Nat) (e : Int) (a : Accuracy) :
    repacked (roundWithAccuracy .binary64 .positive m e a) ≠ .infinity .negative := by
  obtain ⟨r, -, -, rounded⟩ := roundWithAccuracy_eq_settled .positive m e a
  rw [rounded, settled]
  split
  case isTrue => exact nofun
  case isFalse => exact repacked_positive_ne

/-- A square root is not negative infinity. -/
theorem form_sqrt_ne (x : Float) : form x.sqrt ≠ .infinity .negative := by
  rw [form_sqrt]
  cases form x with
  | notANumber => exact nofun
  | zero s =>
    simp only [UnpackedFloat.sqrt, repacked_zero]
    exact nofun
  | infinity s => cases s <;> exact nofun
  | finite s m e pos =>
    cases s with
    | negative =>
      show repacked .notANumber ≠ .infinity .negative
      exact nofun
    | positive => exact repacked_roundWithAccuracy_ne _ _ _

/-! ## Order -/

theorem lt_iff (x y : Float) : x < y ↔ (form x).lt (form y) = true :=
  decide_eq_true_iff

/-- Only numbers are in order. -/
theorem form_ne_notANumber_of_lt {x y : Float} (h : x < y) :
    form x ≠ .notANumber ∧ form y ≠ .notANumber := by
  rw [lt_iff] at h
  generalize form x = u, form y = v at h ⊢
  constructor
  · rintro rfl
    cases v <;> cases h
  · rintro rfl
    cases u <;> cases h

/-- A finite number that is not less than a positive one is positive, and its exponent is not less
either. -/
theorem exponent_le_of_not_lt {x y : Float} {n : Nat} {f : Int} {pos : 0 < n}
    (hy : form y = .finite .positive n f pos) (hx : x.isFinite = true) (h : ¬x < y) :
    ∃ m e pos, form x = .finite .positive m e pos ∧ f ≤ e := by
  rw [lt_iff, hy] at h
  rw [← isFinite_form] at hx
  generalize form x = u at hx h ⊢
  cases u with
  | infinity | notANumber => cases hx
  | zero s => exact absurd rfl h
  | finite s m e pos' =>
    cases s with
    | negative => exact absurd rfl h
    | positive =>
      refine ⟨m, e, pos', rfl, ?_⟩
      by_contra less
      apply h
      have first : compare e f = .lt := Int.compare_eq_lt.2 (by omega)
      simp only [UnpackedFloat.lt, UnpackedFloat.compare, first]
      rfl

/-- What is not finite is not less than any other value, negative infinity apart. -/
theorem not_lt_of_not_isFinite {x y : Float} (hx : x.isFinite = false)
    (sign : form x ≠ .infinity .negative) : ¬x < y := by
  rw [← isFinite_form] at hx
  rw [lt_iff]
  generalize form x = u, form y = v at hx sign ⊢
  cases u with
  | zero | finite => cases hx
  | notANumber => cases v <;> exact Bool.false_ne_true
  | infinity s =>
    cases s with
    | negative => exact absurd rfl sign
    | positive =>
      cases v with
      | infinity t => cases t <;> exact Bool.false_ne_true
      | notANumber | zero | finite => exact Bool.false_ne_true

end Double

end CounterWatch
