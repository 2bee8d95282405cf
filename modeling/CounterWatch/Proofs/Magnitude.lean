import CounterWatch.Proofs.Nearest
import CounterWatch.Proofs.Rounding

/-!
# Magnitudes of numbers

A number of 64 bits, its form and its pattern of bits are the same thing said three times. Here a
number is taken apart into a sign and a magnitude, which is a natural number, so that what is said
of operations can be said in natural numbers.

* A form with a significand as in the format is packed into its `pattern` (`magnitude_pack`), and a
  number is its form, packed (`ofModel_pack_form`); so it is its sign and its magnitude
  (`ofMagnitude_self`).
* From zero on, numbers are in the order of their magnitudes (`le_iff_magnitude`).
* `unsigned_of_form` reads sign and magnitude of a result off the form that is packed into it.
-/

namespace CounterWatch

namespace Double

open Float.Model (Format UnpackedFloat totalExponent)
open Float.Model.UnpackedFloat

/-! ## Bit patterns -/

theorem toNat_packComponents (s : Sign) (e : BitVec 11) (m : BitVec 52) :
    (packComponents .binary64 s e m).toNat
      = s.toBitVec.toNat * 2 ^ 63 + e.toNat * 2 ^ 52 + m.toNat := by
  have hm := m.isLt
  have he := e.isLt
  simp only [packComponents, BitVec.toNat_append]
  rw [← Nat.shiftLeft_add_eq_or_of_lt he, ← Nat.shiftLeft_add_eq_or_of_lt hm]
  simp only [Nat.shiftLeft_eq]
  omega

theorem exists_packComponents (b : BitVec 64) :
    ∃ s e m, b = packComponents .binary64 s e m := by
  refine ⟨Sign.ofBitVec (b.extractLsb' 63 1), b.extractLsb' 52 11, b.extractLsb' 0 52, ?_⟩
  apply BitVec.eq_of_toNat_eq
  rw [toNat_packComponents]
  have sign : (Sign.ofBitVec (b.extractLsb' 63 1)).toBitVec = b.extractLsb' 63 1 := by
    generalize b.extractLsb' 63 1 = t
    revert t
    decide
  have hb := b.isLt
  rw [sign]
  simp only [BitVec.extractLsb'_toNat, Nat.shiftRight_eq_div_pow]
  omega

/-- A mantissa with its exponent as in the format: full unless the exponent is the least. -/
def Canonical : UnpackedFloat → Prop
  | .finite _ m e _ => ∃ k : Nat, e = k - 1074 ∧ BinaryFormat.double.Normal k m
  | .zero _ | .infinity _ | .notANumber => True

/-- The magnitude that a form is packed into. -/
def pattern : UnpackedFloat → Nat
  | .zero _ => 0
  | .finite _ m e _ => min ((e + 1074).toNat * 2 ^ 52 + m) BinaryFormat.double.infinity
  | .infinity _ => BinaryFormat.double.infinity
  | .notANumber => BinaryFormat.double.infinity + 2 ^ 51

@[simp] theorem pattern_zero (s : Sign) : pattern (.zero s) = 0 := rfl

@[simp] theorem pattern_infinity (s : Sign) :
    pattern (.infinity s) = BinaryFormat.double.infinity := rfl

@[simp] theorem pattern_notANumber :
    pattern .notANumber = BinaryFormat.double.infinity + 2 ^ 51 := rfl

theorem pattern_finite {s : Sign} {m k : Nat} {pos : 0 < m} :
    pattern (.finite s m (k - 1074) pos) = min (k * 2 ^ 52 + m) BinaryFormat.double.infinity := by
  have place : ((k : Int) - 1074 + 1074).toNat = k := by omega
  show min (((k : Int) - 1074 + 1074).toNat * 2 ^ 52 + m) _ = _
  rw [place]

theorem log2_eq_of_normal {k m : Nat} (h : BinaryFormat.double.Normal k m) :
    m.log2 = 52 ∧ 2 ^ 52 ≤ m ∨ m.log2 ≠ 52 ∧ m < 2 ^ 52 ∧ k = 0 := by
  have lt : m < 2 ^ 53 := h.lt
  have full : k = 0 ∨ 2 ^ 52 ≤ m := h.full
  by_cases large : 2 ^ 52 ≤ m
  · left
    rw [Nat.log2_eq_iff (by omega)]
    omega
  · right
    refine ⟨fun same => ?_, by omega, by omega⟩
    rcases Nat.eq_zero_or_pos m with rfl | pos
    · rw [Nat.log2_zero] at same
      omega
    · have self := Nat.log2_self_le (Nat.ne_of_gt pos)
      rw [same] at self
      omega

/-- The magnitude of a pattern of bits is made up of its exponent and its mantissa. -/
theorem magnitude_packComponents (s : Sign) (e : BitVec 11) (m : BitVec 52) :
    (packComponents .binary64 s e m).toNat % 2 ^ 63 = e.toNat * 2 ^ 52 + m.toNat := by
  have field : e.toNat < 2 ^ 11 := e.isLt
  have rest : m.toNat < 2 ^ 52 := m.isLt
  rw [toNat_packComponents, Nat.add_assoc, Nat.mul_add_mod_self_right, Nat.mod_eq_of_lt (by omega)]

theorem infinity_eq : BinaryFormat.double.infinity = 2047 * 2 ^ 52 := rfl

/-- The pattern of a form whose significand is as in the format. -/
theorem magnitude_pack {u : UnpackedFloat} (h : Canonical u) :
    (pack .binary64 u).toNat % 2 ^ 63 = pattern u := by
  cases u with
  | zero s => exact magnitude_packComponents s 0#11 0#52
  | infinity s =>
    rw [pattern_infinity, infinity_eq]
    exact magnitude_packComponents s (-1#11) 0#52
  | notANumber =>
    rw [pattern_notANumber, infinity_eq]
    exact magnitude_packComponents .positive (-1#11) (1#52 <<< 51)
  | finite s m e pos =>
    obtain ⟨k, rfl, normal⟩ := h
    have lt : m < 2 ^ 53 := normal.lt
    rw [pack_finite, pattern_finite, infinity_eq]
    split
    case isTrue large =>
      rw [packedInfinity, magnitude_packComponents]
      show 2047 * 2 ^ 52 + 0 = _
      rcases log2_eq_of_normal normal with ⟨-, full⟩ | ⟨-, -, zero⟩ <;> omega
    case isFalse small =>
      split
      case isTrue bits =>
        rw [magnitude_packComponents, BitVec.toNat_ofNat, BitVec.toNat_ofNat]
        rcases log2_eq_of_normal normal with ⟨-, full⟩ | ⟨other, -, -⟩
        · omega
        · exact absurd bits other
      case isFalse bits =>
        rw [magnitude_packComponents, BitVec.toNat_ofNat, BitVec.toNat_ofNat]
        rcases log2_eq_of_normal normal with ⟨same, -⟩ | ⟨-, less, zero⟩
        · exact absurd same bits
        · omega

/-- A valid pattern of bits is what it stands for, packed. -/
theorem pack_unpack (s : Sign) (e : BitVec 11) (m : BitVec 52)
    (valid : Format.binary64.Valid (packComponents .binary64 s e m)) :
    pack .binary64 (unpack .binary64 (packComponents .binary64 s e m))
      = packComponents .binary64 s e m := by
  rw [unpack_packComponents]
  split_ifs with ones none zeros none
  · subst ones none
    rfl
  · have nan := valid.eq_packedNaN (by rw [unpackExponent_packComponents]; exact ones)
      (by rw [unpackMantissa_packComponents]; exact none)
    exact nan.symm
  · subst zeros none
    rfl
  · have less := m.isLt
    have some : m.toNat ≠ 0 := by simpa [BitVec.toNat_eq] using none
    have log : m.toNat.log2 ≠ 52 := Nat.ne_of_lt ((Nat.log2_lt some).2 less)
    rw [pack_finite, if_neg (by decide), if_neg log, zeros, BitVec.ofNat_toNat, BitVec.setWidth_eq]
  · have less := m.isLt
    have range := e.isLt
    have top : e.toNat ≠ 2047 := by
      intro h
      exact ones (BitVec.eq_of_toNat_eq h)
    have log : (2 ^ 52 + m.toNat).log2 = 52 := by
      rw [Nat.log2_eq_iff (by omega)]
      omega
    rw [pack_finite, if_neg (by omega), if_pos log]
    congr 1
    · apply BitVec.eq_of_toNat_eq
      rw [BitVec.toNat_ofNat]
      omega
    · apply BitVec.eq_of_toNat_eq
      rw [BitVec.toNat_ofNat]
      omega

/-- A number is its form, packed. -/
theorem ofModel_pack_form (x : Float) : Float.ofModel (Float.Model.pack (form x)) = x := by
  obtain ⟨⟨bits, valid⟩⟩ := x
  obtain ⟨s, e, m, h⟩ := exists_packComponents bits.toBitVec
  have same : UInt64.ofBitVec (pack .binary64 (unpack .binary64 bits.toBitVec)) = bits := by
    rw [h, pack_unpack s e m (h ▸ valid), ← h]
  have model : Float.Model.pack (Float.Model.unpack ⟨bits, valid⟩) = ⟨bits, valid⟩ := by
    rw [Float.Model.mk.injEq]
    exact same
  exact congrArg Float.ofModel model

theorem toBits_toBitVec (x : Float) : x.toBits.toBitVec = pack .binary64 (form x) := by
  conv_lhs => rw [← ofModel_pack_form x]
  rfl

/-- The form of a number is one that a pattern of bits stands for. -/
theorem exists_unpack (x : Float) :
    ∃ s e m, form x = unpack .binary64 (packComponents .binary64 s e m) := by
  obtain ⟨s, e, m, h⟩ := exists_packComponents x.toBits.toBitVec
  exact ⟨s, e, m, congrArg (unpack .binary64) h⟩

/-- The significand and the shift of a finite number. -/
theorem finite_form {x : Float} {s : Sign} {m : Nat} {e : Int} {pos : 0 < m}
    (h : form x = .finite s m e pos) :
    ∃ k : Nat, e = k - 1074 ∧ BinaryFormat.double.Normal k m ∧ k ≤ 2045 := by
  obtain ⟨t, field, rest, bits⟩ := exists_unpack x
  rw [h, unpack_packComponents] at bits
  have less : rest.toNat < 2 ^ 52 := rest.isLt
  have range : field.toNat < 2 ^ 11 := field.isLt
  split_ifs at bits with ones none zeros none
  · obtain ⟨-, rfl, rfl⟩ := UnpackedFloat.finite.inj bits
    refine ⟨0, by omega, ⟨?_, .inl rfl⟩, by omega⟩
    show rest.toNat < 2 ^ 53
    omega
  · obtain ⟨-, rfl, rfl⟩ := UnpackedFloat.finite.inj bits
    have top : field.toNat ≠ 2047 := fun h => ones (BitVec.eq_of_toNat_eq h)
    have some : field.toNat ≠ 0 := fun h => zeros (BitVec.eq_of_toNat_eq h)
    refine ⟨field.toNat - 1, by omega, ⟨?_, .inr (Nat.le_add_right _ _)⟩, by omega⟩
    show 2 ^ 52 + rest.toNat < 2 ^ 53
    omega

theorem canonical_form (x : Float) : Canonical (form x) := by
  cases h : form x with
  | zero | infinity | notANumber => trivial
  | finite s m e pos =>
    obtain ⟨k, place, normal, -⟩ := finite_form h
    exact ⟨k, place, normal⟩

theorem magnitude_eq_pattern (x : Float) : magnitude x = pattern (form x) := by
  rw [← magnitude_pack (canonical_form x), ← toBits_toBitVec]
  rfl

/-- The significand and the shift of a finite number make up its magnitude. -/
theorem magnitude_of_finite {x : Float} {s : Sign} {m : Nat} {e : Int} {pos : 0 < m}
    (h : form x = .finite s m e pos) :
    ∃ k : Nat, e = k - 1074 ∧ BinaryFormat.double.Normal k m ∧ magnitude x = k * 2 ^ 52 + m ∧
      magnitude x < BinaryFormat.double.infinity ∧ units x = m * 2 ^ k := by
  obtain ⟨k, rfl, normal, top⟩ := finite_form h
  have lt : m < 2 ^ 53 := normal.lt
  have less : k * 2 ^ 52 + m < BinaryFormat.double.infinity := by
    rw [infinity_eq]
    omega
  have value : magnitude x = k * 2 ^ 52 + m := by
    rw [magnitude_eq_pattern, h, pattern_finite]
    exact Nat.min_eq_left less.le
  refine ⟨k, rfl, normal, value, value ▸ less, ?_⟩
  rw [units, value]
  exact normal.units

theorem magnitude_of_zero {x : Float} {s : Sign} (h : form x = .zero s) : magnitude x = 0 := by
  rw [magnitude_eq_pattern, h, pattern_zero]

theorem magnitude_of_infinity {x : Float} {s : Sign} (h : form x = .infinity s) :
    magnitude x = BinaryFormat.double.infinity := by
  rw [magnitude_eq_pattern, h, pattern_infinity]

theorem magnitude_of_notANumber {x : Float} (h : form x = .notANumber) :
    magnitude x = BinaryFormat.double.infinity + 2 ^ 51 := by
  rw [magnitude_eq_pattern, h, pattern_notANumber]

theorem isFinite_iff {x : Float} : x.isFinite = true ↔ magnitude x < BinaryFormat.double.infinity := by
  rw [← isFinite_form]
  cases h : form x with
  | zero s =>
    rw [magnitude_of_zero h]
    exact ⟨fun _ => infinity_eq ▸ by decide, fun _ => rfl⟩
  | finite s m e pos =>
    obtain ⟨-, -, -, -, less, -⟩ := magnitude_of_finite h
    exact ⟨fun _ => less, fun _ => rfl⟩
  | infinity s =>
    rw [magnitude_of_infinity h]
    exact ⟨nofun, fun less => absurd less (Nat.lt_irrefl _)⟩
  | notANumber =>
    rw [magnitude_of_notANumber h]
    exact ⟨nofun, fun less => absurd less (by omega)⟩

/-! ## Signs -/

theorem ofBits_toBits (x : Float) : Float.ofBits x.toBits = x := ofModel_pack_form x

/-- A number is made up of its sign and its magnitude. -/
theorem ofMagnitude_self (x : Float) : ofMagnitude (isNegative x) (magnitude x) = x := by
  have range : bits x < 2 ^ 64 := x.toBits.toNat_lt
  have sign : BinaryFormat.double.signBit = 2 ^ 63 := rfl
  have parts : BinaryFormat.double.withSign (isNegative x) (magnitude x) = bits x := by
    simp only [BinaryFormat.withSign, isNegative, BinaryFormat.isNegative, magnitude,
      BinaryFormat.magnitude, sign, decide_eq_true_eq]
    split <;> omega
  rw [ofMagnitude, parts, bits, UInt64.ofNat_toNat, ofBits_toBits]

/-- There are two infinite numbers, told apart by their signs. -/
theorem eq_infinity {x : Float} (h : magnitude x = BinaryFormat.double.infinity) :
    x = infinity (isNegative x) := by
  conv_lhs => rw [← ofMagnitude_self x, h]
  rfl

/-- Only one value is not a number. -/
theorem eq_notANumber {x : Float} (h : BinaryFormat.double.infinity < magnitude x) :
    x = notANumber := by
  have same : form x = form notANumber := by
    cases known : form x with
    | zero s =>
      rw [magnitude_of_zero known] at h
      exact absurd h (Nat.not_lt_zero _)
    | finite s m e pos =>
      obtain ⟨-, -, -, -, less, -⟩ := magnitude_of_finite known
      exact absurd h (by omega)
    | infinity s =>
      rw [magnitude_of_infinity known] at h
      exact absurd h (Nat.lt_irrefl _)
    | notANumber => rfl
  rw [← ofModel_pack_form x, same, ofModel_pack_form]

/-! ## Order -/

theorem le_iff (x y : Float) : x ≤ y ↔ (form x).le (form y) = true :=
  decide_eq_true_iff

/-- To compare two forms the other way round swaps the outcome. -/
theorem compare_swap (u v : UnpackedFloat) : (u.compare v).map Ordering.swap = v.compare u := by
  have swap (m n : Nat) (e f : Int) : ((compare e f).then (compare m n)).swap
      = (compare f e).then (compare n m) := by
    rw [Ordering.swap_then, Int.compare_swap, Nat.compare_swap]
  cases u with
  | notANumber => cases v <;> rfl
  | zero s =>
    cases v with
    | notANumber | zero => rfl
    | finite t | infinity t => cases t <;> rfl
  | infinity s =>
    cases v with
    | notANumber => cases s <;> rfl
    | infinity t => cases s <;> cases t <;> rfl
    | zero | finite => cases s <;> rfl
  | finite s m e =>
    cases v with
    | notANumber => rfl
    | zero => cases s <;> rfl
    | infinity t => cases s <;> cases t <;> rfl
    | finite t n f =>
      cases s <;> cases t
      · exact congrArg (fun o => some o.swap) (swap m n e f)
      · rfl
      · rfl
      · exact congrArg some (swap m n e f)

/-- Forms that are not undefined can be compared. -/
theorem exists_compare {u v : UnpackedFloat} (hu : u ≠ .notANumber) (hv : v ≠ .notANumber) :
    ∃ o, u.compare v = some o := by
  cases u with
  | notANumber => exact absurd rfl hu
  | zero s =>
    cases v with
    | notANumber => exact absurd rfl hv
    | zero => exact ⟨_, rfl⟩
    | finite t | infinity t => cases t <;> exact ⟨_, rfl⟩
  | infinity s =>
    cases v with
    | notANumber => exact absurd rfl hv
    | infinity t => exact ⟨_, rfl⟩
    | zero | finite => cases s <;> exact ⟨_, rfl⟩
  | finite s =>
    cases v with
    | notANumber => exact absurd rfl hv
    | zero => cases s <;> exact ⟨_, rfl⟩
    | infinity t => cases s <;> cases t <;> exact ⟨_, rfl⟩
    | finite t => cases s <;> cases t <;> exact ⟨_, rfl⟩

theorem isNaN_iff {x : Float} : x.isNaN = true ↔ form x = .notANumber := by
  have same : (form x).isNaN = x.isNaN := rfl
  rw [← same]
  cases form x <;> simp [UnpackedFloat.isNaN]

theorem form_ne_notANumber {x : Float} (h : x.isNaN = false) : form x ≠ .notANumber := by
  rw [Ne, ← isNaN_iff, h]
  exact Bool.false_ne_true

theorem isNaN_of_isFinite {x : Float} (hx : x.isFinite = true) : x.isNaN = false := by
  rw [← isFinite_form] at hx
  rw [← Bool.not_eq_true, isNaN_iff]
  intro none
  rw [none] at hx
  cases hx

/-- Of two numbers that are not undefined, one that is not less is at least as large. -/
theorem le_of_not_lt {x y : Float} (hx : x.isNaN = false) (hy : y.isNaN = false) (h : ¬x < y) :
    y ≤ x := by
  obtain ⟨o, compared⟩ := exists_compare (form_ne_notANumber hx) (form_ne_notANumber hy)
  have swapped := compare_swap (form x) (form y)
  rw [compared] at swapped
  rw [lt_iff] at h
  simp only [UnpackedFloat.lt, compared] at h
  rw [le_iff, UnpackedFloat.le, ← swapped]
  cases o with
  | lt => exact absurd rfl h
  | eq | gt => rfl

theorem le_of_lt {x y : Float} (h : x < y) : x ≤ y := by
  rw [lt_iff] at h
  rw [le_iff, UnpackedFloat.le]
  rw [eq_of_beq h]
  rfl

theorem le_total {x y : Float} (hx : x.isNaN = false) (hy : y.isNaN = false) : x ≤ y ∨ y ≤ x := by
  by_cases h : x < y
  · exact .inl (le_of_lt h)
  · exact .inr (le_of_not_lt hx hy h)

/-- Neither below zero nor undefined. -/
def Nonneg : UnpackedFloat → Prop
  | .zero _ | .finite .positive _ _ _ | .infinity .positive => True
  | .finite .negative _ _ _ | .infinity .negative | .notANumber => False

theorem form_zero : form 0.0 = .zero .positive := rfl

theorem zero_le_iff {x : Float} : 0.0 ≤ x ↔ Nonneg (form x) := by
  rw [le_iff, form_zero]
  cases form x with
  | zero s => exact ⟨fun _ => trivial, fun _ => rfl⟩
  | notANumber => exact ⟨nofun, nofun⟩
  | finite s | infinity s =>
    cases s with
    | negative => exact ⟨nofun, nofun⟩
    | positive => exact ⟨fun _ => trivial, fun _ => rfl⟩

/-- Positive numbers are in the order of their shifts, then in that of their significands. -/
theorem isLE_compare_iff {k l m n : Nat} (hm : BinaryFormat.double.Normal k m)
    (hn : BinaryFormat.double.Normal l n) :
    ((compare (k - 1074 : Int) (l - 1074)).then (compare m n)).isLE = true ↔
      k * 2 ^ 52 + m ≤ l * 2 ^ 52 + n := by
  have ltm : m < 2 ^ 53 := hm.lt
  have ltn : n < 2 ^ 53 := hn.lt
  have fullm : k = 0 ∨ 2 ^ 52 ≤ m := hm.full
  have fulln : l = 0 ∨ 2 ^ 52 ≤ n := hn.full
  rcases Nat.lt_trichotomy k l with less | rfl | more
  · rw [Int.compare_eq_lt.2 (by omega)]
    exact ⟨fun _ => by omega, fun _ => rfl⟩
  · rw [Int.compare_eq_eq.2 rfl, Ordering.then, Nat.isLE_compare]
    omega
  · rw [Int.compare_eq_gt.2 (by omega)]
    exact ⟨nofun, fun _ => by omega⟩

/-- A number from zero on is zero, positive and finite, or infinity. -/
inductive Unsigned (x : Float) : Prop
  | zero {s : Sign} (form : form x = .zero s) (magnitude : magnitude x = 0)
  | finite {k m : Nat} {pos : 0 < m} (form : form x = .finite .positive m (k - 1074) pos)
      (normal : BinaryFormat.double.Normal k m) (magnitude : magnitude x = k * 2 ^ 52 + m)
      (less : Double.magnitude x < BinaryFormat.double.infinity) (units : units x = m * 2 ^ k)
  | infinity (form : form x = .infinity .positive)
      (magnitude : magnitude x = BinaryFormat.double.infinity)

theorem unsigned_of_le {x : Float} (h : 0.0 ≤ x) : Unsigned x := by
  rw [zero_le_iff] at h
  cases fx : form x with
  | zero s => exact .zero fx (magnitude_of_zero fx)
  | notANumber =>
    rw [fx] at h
    exact h.elim
  | finite s m e pos =>
    rw [fx] at h
    cases s with
    | negative => exact h.elim
    | positive =>
      obtain ⟨k, rfl, normal, value, less, units⟩ := magnitude_of_finite fx
      exact .finite fx normal value less units
  | infinity s =>
    rw [fx] at h
    cases s with
    | negative => exact h.elim
    | positive => exact .infinity fx (magnitude_of_infinity fx)

/-- Numbers from zero on are in the order of their magnitudes. -/
theorem le_iff_magnitude {x y : Float} (hx : 0.0 ≤ x) (hy : 0.0 ≤ y) :
    x ≤ y ↔ magnitude x ≤ magnitude y := by
  rw [le_iff]
  cases unsigned_of_le hx with
  | zero fx mx =>
    rw [fx, mx]
    refine ⟨fun _ => Nat.zero_le _, fun _ => ?_⟩
    cases unsigned_of_le hy with
    | zero fy | finite fy | infinity fy =>
      rw [fy]
      rfl
  | @finite k m pos fx normal mx less =>
    rw [fx]
    cases unsigned_of_le hy with
    | zero fy my =>
      rw [fy, mx, my]
      exact ⟨nofun, fun h => by omega⟩
    | finite fy normal' my =>
      rw [fy, mx, my]
      exact isLE_compare_iff normal normal'
    | infinity fy my =>
      rw [fy, my]
      exact ⟨fun _ => less.le, fun _ => rfl⟩
  | infinity fx mx =>
    rw [fx, mx]
    cases unsigned_of_le hy with
    | zero fy my =>
      rw [fy, my, infinity_eq]
      exact ⟨nofun, nofun⟩
    | finite fy _ _ less =>
      rw [fy]
      exact ⟨nofun, fun h => absurd less (Nat.not_lt.2 h)⟩
    | infinity fy my =>
      rw [fy, my]
      exact ⟨fun _ => Nat.le_refl _, fun _ => rfl⟩

/-! ## Results -/

theorem nonneg_repacked {u : UnpackedFloat} (h : Nonneg u) : Nonneg (repacked u) := by
  cases u with
  | zero s =>
    rw [repacked_zero]
    trivial
  | infinity s =>
    rw [repacked_infinity]
    exact h
  | notANumber => exact h.elim
  | finite s m e pos =>
    cases s with
    | negative => exact h.elim
    | positive =>
      show Nonneg (unpack .binary64 (pack .binary64 (.finite .positive m e pos)))
      rw [pack_finite]
      split_ifs with large normal
      · show Nonneg (repacked (.infinity .positive))
        rw [repacked_infinity]
        trivial
      · have not_ones : BitVec.ofNat 11 (e + 1075).toNat ≠ -1#11 := by
          intro ones
          have field := congrArg BitVec.toNat ones
          rw [BitVec.toNat_ofNat] at field
          have value : (-1#11).toNat = 2047 := rfl
          omega
        rw [unpack_packComponents, if_neg not_ones]
        split_ifs <;> trivial
      · rw [unpack_packComponents, if_neg (by decide), if_pos rfl]
        split_ifs <;> trivial

/-- The magnitude of a result, by the form that is packed into it. -/
theorem magnitude_of_form {x : Float} {u : UnpackedFloat} (h : form x = repacked u)
    (canonical : Canonical u) : magnitude x = pattern u := by
  rw [magnitude_eq_pattern, h, ← magnitude_pack canonical]
  exact (magnitude_eq_pattern (Float.ofModel (Float.Model.pack u))).symm

/-- A result that is not below zero, by the form that is packed into it. -/
theorem unsigned_of_form {x : Float} {u : UnpackedFloat} (h : form x = repacked u)
    (canonical : Canonical u) (nonneg : Nonneg u) : 0.0 ≤ x ∧ magnitude x = pattern u :=
  ⟨zero_le_iff.2 (h ▸ nonneg_repacked nonneg), magnitude_of_form h canonical⟩

/-- A result that is one of the operands has its magnitude. -/
theorem unsigned_of_same {x y : Float} (hx : 0.0 ≤ x) (h : form y = repacked (form x)) :
    0.0 ≤ y ∧ magnitude y = magnitude x := by
  rw [magnitude_eq_pattern x]
  exact unsigned_of_form h (canonical_form x) (zero_le_iff.1 hx)

theorem lt_irrefl (x : Float) : ¬x < x := by
  rw [lt_iff, UnpackedFloat.lt]
  intro less
  have swapped := compare_swap (form x) (form x)
  rw [eq_of_beq less] at swapped
  cases swapped

/-- The sign leaves the magnitude alone. -/
theorem magnitude_neg (x : Float) : magnitude (-x) = magnitude x := by
  have canonical : Canonical (form x).neg := by
    have own := canonical_form x
    cases h : form x with
    | zero | infinity | notANumber => trivial
    | finite s m e pos =>
      rw [h] at own
      exact own
  have same : pattern (form x).neg = pattern (form x) := by cases form x <;> rfl
  rw [magnitude_eq_pattern x, ← same, ← magnitude_pack canonical]
  rfl

theorem isFinite_neg {x : Float} : (-x).isFinite = true ↔ x.isFinite = true := by
  rw [isFinite_iff, isFinite_iff, magnitude_neg]

end Double

end CounterWatch
