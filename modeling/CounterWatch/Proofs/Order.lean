import CounterWatch.Proofs.Operations

/-!
# The order of numbers

Numbers of 64 bits are in the order of their magnitudes, each with its sign. So the order is that of
the integers, and all that is known of those holds here too, the undefined value left aside.

* `Double.signed` is the magnitude with its sign, and `le_iff_signed` and `lt_iff_signed` say that it
  carries the order.
* `le_trans`, `lt_of_le_of_lt`, `lt_of_lt_of_le` and `beq_iff` follow.
* `le_add` is about sums: rounding does not take a sum with a number from zero on below the other
  number.
-/

namespace CounterWatch

namespace Double

open Float.Model (UnpackedFloat)
open Float.Model.UnpackedFloat

variable {x y z : Float}

/-! ## Signed magnitudes -/

/-- The magnitude with the sign of the number; both zeros and the undefined value are at zero. -/
def signed (x : Float) : Int :=
  match form x with
  | .finite s _ _ _ | .infinity s => s.apply (magnitude x)
  | .zero _ | .notANumber => 0

/-- A number that is not undefined, by its form and its signed magnitude. -/
inductive Signed (x : Float) : Prop
  | zero {s : Sign} (form : form x = .zero s) (value : signed x = 0)
  | finite {s : Sign} {k m : Nat} {pos : 0 < m} (form : form x = .finite s m (k - 1074) pos)
      (normal : BinaryFormat.double.Normal k m) (value : signed x = s.apply (k * 2 ^ 52 + m : Nat))
      (less : k * 2 ^ 52 + m < BinaryFormat.double.infinity)
  | infinity {s : Sign} (form : form x = .infinity s)
      (value : signed x = s.apply BinaryFormat.double.infinity)

theorem signed_of_isNaN (h : x.isNaN = false) : Signed x := by
  cases fx : form x with
  | notANumber => exact absurd fx (form_ne_notANumber h)
  | zero s => exact .zero fx (by rw [signed, fx])
  | infinity s => exact .infinity fx (by rw [signed, fx, magnitude_of_infinity fx])
  | finite s m e pos =>
    obtain ⟨k, rfl, normal, value, less, -⟩ := magnitude_of_finite fx
    rw [value] at less
    exact .finite fx normal (by rw [signed, fx, value]) less

/-- Positive numbers are compared by their shifts, then by their significands. -/
theorem compare_then {k l m n : Nat} (hm : BinaryFormat.double.Normal k m)
    (hn : BinaryFormat.double.Normal l n) :
    (compare (k - 1074 : Int) (l - 1074)).then (compare m n)
      = compare ((k * 2 ^ 52 + m : Nat) : Int) (l * 2 ^ 52 + n : Nat) := by
  have ltm : m < 2 ^ 53 := hm.lt
  have ltn : n < 2 ^ 53 := hn.lt
  have fullm : k = 0 ∨ 2 ^ 52 ≤ m := hm.full
  have fulln : l = 0 ∨ 2 ^ 52 ≤ n := hn.full
  rcases Nat.lt_trichotomy k l with less | rfl | more
  · rw [Int.compare_eq_lt.2 (by omega), Int.compare_eq_lt.2 (by omega)]
    rfl
  · rw [Int.compare_eq_eq.2 rfl, Ordering.then]
    rcases Nat.lt_trichotomy m n with less | rfl | more
    · rw [Nat.compare_eq_lt.2 less, Int.compare_eq_lt.2 (by omega)]
    · rw [Nat.compare_eq_eq.2 rfl, Int.compare_eq_eq.2 rfl]
    · rw [Nat.compare_eq_gt.2 more, Int.compare_eq_gt.2 (by omega)]
  · rw [Int.compare_eq_gt.2 (by omega), Int.compare_eq_gt.2 (by omega)]
    rfl

theorem some_lt {a b : Int} (h : a < b) : some Ordering.lt = some (compare a b) :=
  congrArg some (Int.compare_eq_lt.2 h).symm

theorem some_gt {a b : Int} (h : b < a) : some Ordering.gt = some (compare a b) :=
  congrArg some (Int.compare_eq_gt.2 h).symm

/-- What is compared one way is compared the other way. -/
theorem compare_comm {u v : UnpackedFloat} {a b : Int} (h : u.compare v = some (compare a b)) :
    v.compare u = some (compare b a) := by
  rw [← compare_swap, h]
  exact congrArg some (Int.compare_swap a b)

theorem compare_zero (s : Sign) (hy : Signed y) :
    (UnpackedFloat.zero s).compare (form y) = some (compare 0 (signed y)) := by
  have top : 0 < BinaryFormat.double.infinity := by decide
  cases hy with
  | zero fy vy =>
    rw [fy, vy]
    rfl
  | @finite t l n pos fy _ vy =>
    rw [fy, vy]
    cases t with
    | negative => exact some_gt (by simp only [Sign.apply]; omega)
    | positive => exact some_lt (by simp only [Sign.apply]; omega)
  | @infinity t fy vy =>
    rw [fy, vy]
    cases t with
    | negative => exact some_gt (by simp only [Sign.apply]; omega)
    | positive => exact some_lt (by simp only [Sign.apply]; omega)

/-- Infinity is beyond all finite numbers. -/
theorem compare_infinity (s : Sign) (hy : Signed y) :
    (UnpackedFloat.infinity s).compare (form y)
      = some (compare (s.apply BinaryFormat.double.infinity) (signed y)) := by
  have top : 0 < BinaryFormat.double.infinity := by decide
  cases hy with
  | zero fy vy =>
    rw [fy, vy]
    cases s with
    | negative => exact some_lt (by simp only [Sign.apply]; omega)
    | positive => exact some_gt (by simp only [Sign.apply]; omega)
  | @finite t l n pos fy _ vy less =>
    rw [fy, vy]
    cases s with
    | negative => exact some_lt (by cases t <;> simp only [Sign.apply] <;> omega)
    | positive => exact some_gt (by cases t <;> simp only [Sign.apply] <;> omega)
  | @infinity t fy vy =>
    rw [fy, vy]
    cases s <;> cases t
    · exact congrArg some (Int.compare_eq_eq.2 rfl).symm
    · exact some_lt (by simp only [Sign.apply]; omega)
    · exact some_gt (by simp only [Sign.apply]; omega)
    · exact congrArg some (Int.compare_eq_eq.2 rfl).symm

theorem compare_finite (s t : Sign) {k l m n : Nat} {pos : 0 < m} {pos' : 0 < n}
    (hm : BinaryFormat.double.Normal k m) (hn : BinaryFormat.double.Normal l n) :
    (UnpackedFloat.finite s m (k - 1074) pos).compare (.finite t n (l - 1074) pos')
      = some (compare (s.apply (k * 2 ^ 52 + m : Nat)) (t.apply (l * 2 ^ 52 + n : Nat))) := by
  cases s <;> cases t
  · have opposite (a b : Int) : compare b a = compare (-a) (-b) := by
      rcases Int.lt_trichotomy a b with less | rfl | more
      · rw [Int.compare_eq_gt.2 less, Int.compare_eq_gt.2 (Int.neg_lt_neg less)]
      · rw [Int.compare_eq_eq.2 rfl, Int.compare_eq_eq.2 rfl]
      · rw [Int.compare_eq_lt.2 more, Int.compare_eq_lt.2 (Int.neg_lt_neg more)]
    have swapped := congrArg Ordering.swap (compare_then hm hn)
    rw [Int.compare_swap] at swapped
    exact congrArg some (swapped.trans (opposite _ _))
  · exact some_lt (by simp only [Sign.apply]; omega)
  · exact some_gt (by simp only [Sign.apply]; omega)
  · exact congrArg some (compare_then hm hn)

/-- Numbers are compared by their signed magnitudes. -/
theorem compare_form (hx : x.isNaN = false) (hy : y.isNaN = false) :
    (form x).compare (form y) = some (compare (signed x) (signed y)) := by
  cases signed_of_isNaN hx with
  | zero fx vx =>
    rw [fx, vx]
    exact compare_zero _ (signed_of_isNaN hy)
  | infinity fx vx =>
    rw [fx, vx]
    exact compare_infinity _ (signed_of_isNaN hy)
  | finite fx normal vx less =>
    cases signed_of_isNaN hy with
    | zero fy vy =>
      rw [fy, vy]
      exact compare_comm (compare_zero _ (.finite fx normal vx less))
    | infinity fy vy =>
      rw [fy, vy]
      exact compare_comm (compare_infinity _ (.finite fx normal vx less))
    | finite fy normal' vy =>
      rw [fx, vx, fy, vy]
      exact compare_finite _ _ normal normal'

/-! ## The order -/

theorem isNaN_of_lt (h : x < y) : x.isNaN = false ∧ y.isNaN = false := by
  obtain ⟨notx, noty⟩ := form_ne_notANumber_of_lt h
  rw [← Bool.not_eq_true, ← Bool.not_eq_true, isNaN_iff, isNaN_iff]
  exact ⟨notx, noty⟩

theorem isNaN_of_le (h : x ≤ y) : x.isNaN = false ∧ y.isNaN = false := by
  rw [le_iff] at h
  rw [← Bool.not_eq_true, ← Bool.not_eq_true, isNaN_iff, isNaN_iff]
  generalize form x = u, form y = v at h ⊢
  constructor
  · rintro rfl
    cases v <;> cases h
  · rintro rfl
    cases u <;> cases h

section

variable (hx : x.isNaN = false) (hy : y.isNaN = false)

include hx hy

/-- **The order is that of the signed magnitudes.** -/
theorem le_iff_signed : x ≤ y ↔ signed x ≤ signed y := by
  rw [le_iff, UnpackedFloat.le, compare_form hx hy]
  exact Int.isLE_compare

theorem lt_iff_signed : x < y ↔ signed x < signed y := by
  rw [lt_iff, UnpackedFloat.lt, compare_form hx hy, beq_iff_eq, Option.some.injEq]
  exact Int.compare_eq_lt

theorem beq_iff : (x == y) = true ↔ x ≤ y ∧ y ≤ x := by
  have equal : (x == y) = ((form x).compare (form y) == some .eq) := rfl
  rw [equal, compare_form hx hy, beq_iff_eq, Option.some.injEq, Int.compare_eq_eq,
    le_iff_signed hx hy, le_iff_signed hy hx]
  omega

end

theorem le_self (h : x.isNaN = false) : x ≤ x := (le_total h h).elim id id

theorem le_trans (h : x ≤ y) (h' : y ≤ z) : x ≤ z := by
  obtain ⟨hx, hy⟩ := isNaN_of_le h
  obtain ⟨-, hz⟩ := isNaN_of_le h'
  rw [le_iff_signed hx hy] at h
  rw [le_iff_signed hy hz] at h'
  rw [le_iff_signed hx hz]
  omega

theorem lt_of_le_of_lt (h : x ≤ y) (h' : y < z) : x < z := by
  obtain ⟨hx, hy⟩ := isNaN_of_le h
  obtain ⟨-, hz⟩ := isNaN_of_lt h'
  rw [le_iff_signed hx hy] at h
  rw [lt_iff_signed hy hz] at h'
  rw [lt_iff_signed hx hz]
  omega

theorem lt_of_lt_of_le (h : x < y) (h' : y ≤ z) : x < z := by
  obtain ⟨hx, hy⟩ := isNaN_of_lt h
  obtain ⟨-, hz⟩ := isNaN_of_le h'
  rw [lt_iff_signed hx hy] at h
  rw [le_iff_signed hy hz] at h'
  rw [lt_iff_signed hx hz]
  omega

/-! ## Sums -/

theorem neg_magnitude_le (x : Float) : -(magnitude x : Int) ≤ signed x := by
  rw [signed]
  split
  case h_1 s _ _ _ _ | h_2 s _ => cases s <;> simp only [Sign.apply] <;> omega
  case h_3 | h_4 => omega

/-- A number below zero is at its magnitude on the other side. -/
theorem signed_of_not_le (hx : x.isNaN = false) (below : ¬0.0 ≤ x) :
    signed x = -(magnitude x : Int) ∧ magnitude x ≤ BinaryFormat.double.infinity := by
  rw [zero_le_iff] at below
  cases fx : form x with
  | notANumber => exact absurd fx (form_ne_notANumber hx)
  | zero s =>
    rw [fx] at below
    exact absurd trivial below
  | finite s m e pos =>
    obtain ⟨-, -, -, -, less, -⟩ := magnitude_of_finite fx
    rw [fx] at below
    cases s with
    | positive => exact absurd trivial below
    | negative => exact ⟨by rw [signed, fx]; rfl, less.le⟩
  | infinity s =>
    rw [fx] at below
    cases s with
    | positive => exact absurd trivial below
    | negative => exact ⟨by rw [signed, fx]; rfl, (magnitude_of_infinity fx).le⟩

/-- A number below zero is before all others up to its magnitude. -/
theorem le_of_magnitude_le (hx : x.isNaN = false) (below : ¬0.0 ≤ x)
    (le : magnitude y ≤ magnitude x) : x ≤ y := by
  obtain ⟨lowest, bounded⟩ := signed_of_not_le hx below
  have hy : y.isNaN = false := by
    rw [← Bool.not_eq_true, isNaN_iff]
    intro none
    have value := magnitude_of_notANumber none
    omega
  have bound := neg_magnitude_le y
  rw [le_iff_signed hx hy]
  omega

/-- A negative number of units is rounded as its opposite is. -/
theorem normalize_neg_spec {d : Nat} (pos : 0 < d) (k : Nat) :
    Canonical (UnpackedFloat.normalize .binary64 (-d) (k - 1074) .positive) ∧
      pattern (UnpackedFloat.normalize .binary64 (-d) (k - 1074) .positive)
        = BinaryFormat.double.near (d * 2 ^ k) 1 := by
  have less : compare (-(d : Int)) 0 = .lt := Int.compare_eq_lt.2 (by omega)
  have unfolded : UnpackedFloat.normalize .binary64 (-d) (k - 1074) .positive
      = UnpackedFloat.round .binary64 .negative d (k - 1074) := by
    unfold UnpackedFloat.normalize
    rw [less, neg_neg]
    rfl
  have field : ((k : Int) - 1074 + 1074).toNat = k := by omega
  have none : (-((k : Int) - 1074 + 1074)).toNat = 0 := by omega
  have spec := round_spec (e := (k : Int) - 1074) .negative (Nat.ne_of_gt pos)
  rw [field, none] at spec
  rwa [unfolded]

/-- With a number from zero on added, a number below zero comes to zero or beyond, or it does not
grow in magnitude. -/
theorem add_of_not_le (hx : x.isFinite = true) (below : ¬0.0 ≤ x) (hy : 0.0 ≤ y)
    (fy : y.isFinite = true) : 0.0 ≤ y + x ∨ magnitude (y + x) ≤ magnitude x := by
  have sum := form_add y x
  rw [zero_le_iff] at below
  rw [← isFinite_form] at hx
  cases fx : form x with
  | notANumber | infinity =>
    rw [fx] at hx
    cases hx
  | zero s =>
    rw [fx] at below
    exact absurd trivial below
  | finite s n e pos =>
    cases s with
    | positive =>
      rw [fx] at below
      exact absurd trivial below
    | negative =>
      obtain ⟨l, rfl, -, -, bounded, ux⟩ := magnitude_of_finite fx
      cases unsigned_of_le hy with
      | infinity _ my =>
        rw [isFinite_iff, my] at fy
        exact absurd fy (Nat.lt_irrefl _)
      | zero fy =>
        rw [fy, fx] at sum
        have same : form (y + x) = repacked (form x) := sum.trans (congrArg repacked fx.symm)
        right
        rw [magnitude_of_form same (canonical_form x), magnitude_eq_pattern x]
      | @finite k m pos' fy =>
        obtain ⟨p, q, -, right, added, -⟩ := exists_aligned .positive .negative k l pos' pos
        rw [fy, fx, added] at sum
        rcases Nat.lt_or_ge p q with less | enough
        · right
          have rest : (Sign.positive.apply p + Sign.negative.apply q : Int) = -(q - p : Nat) := by
            simp only [Sign.apply]
            omega
          rw [rest] at sum
          obtain ⟨canonical, value⟩ := normalize_neg_spec (Nat.sub_pos_of_lt less) (min k l)
          rw [magnitude_of_form sum canonical, value]
          apply BinaryFormat.near_le (by decide) Nat.one_pos
          have part : (q - p) * 2 ^ min k l ≤ units x := by
            rw [ux, ← right]
            exact Nat.mul_le_mul_right _ (Nat.sub_le q p)
          exact part.trans_eq (Nat.mul_one _).symm
        · left
          have rest : (Sign.positive.apply p + Sign.negative.apply q : Int) = (p - q : Nat) := by
            simp only [Sign.apply]
            omega
          rw [rest] at sum
          obtain ⟨spec, nonneg⟩ := normalize_spec (p - q) (min k l)
          exact (unsigned_of_form sum spec.1 nonneg).1

/-- Infinity takes up a finite number. -/
theorem infinity_add (hx : x.isFinite = true) (hy : 0.0 ≤ y) (infinite : y.isFinite = false) :
    0.0 ≤ y + x ∧ magnitude (y + x) = BinaryFormat.double.infinity := by
  have sum := form_add y x
  rw [← isFinite_form] at hx infinite
  cases unsigned_of_le hy with
  | zero fy | finite fy =>
    rw [fy] at infinite
    cases infinite
  | infinity fy =>
    cases fx : form x with
    | notANumber | infinity =>
      rw [fx] at hx
      cases hx
    | zero | finite =>
      rw [fy, fx] at sum
      exact unsigned_of_form sum trivial trivial

/-- **A sum is not below one number if the other is not below zero.** -/
theorem le_add (hx : x.isFinite = true) (hy : 0.0 ≤ y) : x ≤ y + x := by
  have known := isNaN_of_isFinite hx
  have ordered (below : ¬0.0 ≤ x) (nonneg : 0.0 ≤ y + x) : x ≤ y + x :=
    le_trans ((le_total (by decide) known).resolve_left below) nonneg
  -- From zero on magnitudes are compared. Below zero a sum may change its sign, and if it does not,
  -- its magnitude has not grown.
  by_cases below : 0.0 ≤ x
  · cases fy : y.isFinite with
    | true =>
      obtain ⟨nonneg, value⟩ := add_spec hy below fy hx
      rw [le_iff_magnitude below nonneg, value, ← near_units_self (isFinite_iff.1 hx).le]
      exact BinaryFormat.near_mono (by decide) Nat.one_pos Nat.one_pos (by omega)
    | false =>
      obtain ⟨nonneg, value⟩ := infinity_add hx hy fy
      rw [le_iff_magnitude below nonneg, value]
      exact (isFinite_iff.1 hx).le
  · cases fy : y.isFinite with
    | true =>
      rcases add_of_not_le hx below hy fy with nonneg | le
      · exact ordered below nonneg
      · exact le_of_magnitude_le known below le
    | false => exact ordered below (infinity_add hx hy fy).1

/-! ## Differences -/

/-- Mantissas moved to one exponent are in the order of the magnitudes. -/
theorem aligned_le_iff {j k l m n p q : Nat} (hm : BinaryFormat.double.Normal k m)
    (hn : BinaryFormat.double.Normal l n) (left : p * 2 ^ j = m * 2 ^ k)
    (right : q * 2 ^ j = n * 2 ^ l) : k * 2 ^ 52 + m ≤ l * 2 ^ 52 + n ↔ p ≤ q := by
  have first : BinaryFormat.double.units (k * 2 ^ 52 + m) = m * 2 ^ k := hm.units
  have second : BinaryFormat.double.units (l * 2 ^ 52 + n) = n * 2 ^ l := hn.units
  rw [← BinaryFormat.double.units_le_iff, first, second, ← left, ← right]
  exact Nat.mul_le_mul_right_iff (Nat.two_pow_pos j)

/-- A difference of finite numbers in order is not below zero. -/
theorem nonneg_sub_finite (s t : Sign) {k l m n : Nat} (pos : 0 < m) (pos' : 0 < n)
    (hm : BinaryFormat.double.Normal k m) (hn : BinaryFormat.double.Normal l n)
    (le : t.apply (l * 2 ^ 52 + n : Nat) ≤ s.apply (k * 2 ^ 52 + m : Nat)) :
    Nonneg (UnpackedFloat.sub .binary64 (.finite s m (k - 1074) pos)
      (.finite t n (l - 1074) pos')) := by
  obtain ⟨p, q, left, right, -, taken⟩ := exists_aligned s t k l pos pos'
  have up := aligned_le_iff hm hn left right
  have down := aligned_le_iff hn hm right left
  obtain ⟨d, difference⟩ : ∃ d : Nat, s.apply p - t.apply q = d := by
    cases s <;> cases t <;> simp only [Sign.apply] at le ⊢
    · have order := up.1 (by omega)
      exact ⟨q - p, by omega⟩
    · omega
    · exact ⟨p + q, by omega⟩
    · have order := down.1 (by omega)
      exact ⟨p - q, by omega⟩
  rw [taken, difference]
  exact (normalize_spec d (min k l)).2

/-- So a difference of numbers in order is not below zero. -/
theorem zero_le_sub (h : y ≤ x) (fx : x.isFinite = true) (fy : y.isFinite = true) :
    0.0 ≤ x - y := by
  have hx := isNaN_of_isFinite fx
  have hy := isNaN_of_isFinite fy
  rw [le_iff_signed hy hx] at h
  rw [← isFinite_form] at fx fy
  rw [zero_le_iff, form_sub]
  apply nonneg_repacked
  cases signed_of_isNaN hx with
  | infinity formx =>
    rw [formx] at fx
    cases fx
  | zero formx vx =>
    cases signed_of_isNaN hy with
    | infinity formy =>
      rw [formy] at fy
      cases fy
    | zero formy =>
      rw [formx, formy, UnpackedFloat.sub]
      split <;> trivial
    | @finite t l n pos formy _ vy =>
      rw [vx, vy] at h
      rw [formx, formy]
      cases t with
      | negative => trivial
      | positive =>
        simp only [Sign.apply] at h
        omega
  | @finite s k m pos formx normal vx =>
    cases signed_of_isNaN hy with
    | infinity formy =>
      rw [formy] at fy
      cases fy
    | zero formy vy =>
      rw [vx, vy] at h
      rw [formx, formy]
      cases s with
      | negative =>
        simp only [Sign.apply] at h
        omega
      | positive => trivial
    | finite formy normal' vy =>
      rw [vx, vy] at h
      rw [formx, formy]
      exact nonneg_sub_finite _ _ _ _ normal normal' h

end Double

end CounterWatch
