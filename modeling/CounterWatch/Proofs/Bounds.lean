import CounterWatch.Number.Single
import CounterWatch.Proofs.Fitting
import CounterWatch.Proofs.Operations

/-!
# Bounds of results

Statistics of small numbers do not overflow. A bound by a power of two is all that is kept of a
number: an operation adds a few bits to it, and there are many more between the largest number of 32
bits and the largest one of 64.

* `below_add`, `below_mul` and `below_sqrt` bound sums, products and roots, next to `below_sub` and
  `below_div`. `below_sum` bounds the sum of a list by the count of its terms.
* `Single.below_toFloat` bounds a number of 32 bits that has been widened, and
  `Single.isFinite_toFloat` says that widening makes nothing finite or infinite.
* `below_mean` and `isFinite_sqrt_meanSquare` are about the mean and the standard deviation of a
  window.
-/

namespace CounterWatch

namespace Double

open Float.Model (Format UnpackedFloat totalExponent)
open Float.Model.UnpackedFloat

variable {j k : Nat} {x y : Float}

/-! ## Sums, products and roots -/

/-- A sum is a difference with the sign of the second number changed. -/
theorem add_eq_sub_neg (u v : UnpackedFloat) :
    UnpackedFloat.add .binary64 u v = UnpackedFloat.sub .binary64 u v.neg := by
  cases u with
  | notANumber => cases v <;> rfl
  | infinity s =>
    cases v with
    | infinity t => cases s <;> cases t <;> rfl
    | notANumber | zero | finite => rfl
  | zero s =>
    cases v with
    | zero t | infinity t => cases s <;> cases t <;> rfl
    | notANumber => rfl
    | finite t n f => cases t <;> rfl
  | finite s m e =>
    cases v with
    | notANumber | zero => rfl
    | infinity t => cases t <;> rfl
    | finite t n f =>
      have opposite (a : Int) : a + t.apply (n <<< (f - min e f).toNat : Nat)
          = a - (-t).apply (n <<< (f - min e f).toNat : Nat) := by
        cases t with
        | positive => exact (sub_neg_eq_add a _).symm
        | negative => rfl
      exact congrArg (UnpackedFloat.normalize .binary64 · _ .positive) (opposite _)

theorem Below.neg {u : UnpackedFloat} (h : Below k u) : Below k u.neg := by
  cases u with
  | zero => trivial
  | finite => exact h
  | infinity | notANumber => exact h.elim

/-- A sum of two numbers below `2 ^ k`. -/
theorem below_add (hx : Below k (form x)) (hy : Below k (form y)) (le : k + 2 ≤ 972) :
    Below (k + 2) (form (x + y)) := by
  rw [form_add, add_eq_sub_neg]
  exact (below_sub_form hx hy.neg).repacked le

theorem log2_mul_le (m n : Nat) : (m * n).log2 ≤ m.log2 + n.log2 + 1 := by
  apply log2_le_of_lt_two_pow
  calc m * n < 2 ^ (m.log2 + 1) * 2 ^ (n.log2 + 1) :=
        Nat.mul_lt_mul'' Nat.lt_log2_self Nat.lt_log2_self
    _ = 2 ^ (m.log2 + n.log2 + 1 + 1) := by
      rw [← Nat.pow_add]
      congr 1
      omega

/-- A product of numbers below `2 ^ j` and `2 ^ k`. -/
theorem below_mul (hx : Below j (form x)) (hy : Below k (form y)) (le : j + k + 1 ≤ 972) :
    Below (j + k + 1) (form (x * y)) := by
  rw [form_mul]
  generalize form x = u, form y = v at hx hy ⊢
  apply Below.repacked _ le
  cases u with
  | infinity | notANumber => exact hx.elim
  | zero =>
    cases v with
    | infinity | notANumber => exact hy.elim
    | zero | finite => trivial
  | finite s m e =>
    cases v with
    | infinity | notANumber => exact hy.elim
    | zero => trivial
    | finite t n f =>
      have left : (m.log2 : Int) + e < j := hx
      have right : (n.log2 : Int) + f < k := hy
      have lead := log2_mul_le m n
      exact below_roundWithAccuracy _ _ (by omega)

/-- A whole root of a number has half of its bits. -/
theorem two_mul_log2_sqrt_le {n : Nat} (some : n ≠ 0) : 2 * n.sqrt.log2 ≤ n.log2 := by
  have pos : n.sqrt ≠ 0 := fun none => some (Nat.sqrt_eq_zero.1 none)
  rw [Nat.le_log2 some, Nat.two_mul, Nat.pow_add]
  have self := Nat.log2_self_le pos
  exact Nat.le_trans (Nat.mul_le_mul self self) (Nat.sqrt_le n)

/-- The root of a number from zero on and below `2 ^ k`. -/
theorem below_sqrt (nonneg : 0.0 ≤ x) (hx : Below k (form x)) (le : k + 1 ≤ 972) :
    Below (k + 1) (form x.sqrt) := by
  rw [zero_le_iff] at nonneg
  rw [form_sqrt]
  generalize form x = u at nonneg hx ⊢
  apply Below.repacked _ le
  cases u with
  | infinity | notANumber => exact hx.elim
  | zero => trivial
  | finite s m e pos =>
    cases s with
    | negative => exact nonneg.elim
    | positive =>
      have lead : (m.log2 : Int) + e < k := hx
      obtain ⟨t, ht⟩ : ∃ t, min (e.ediv 2)
          (Format.binary64.targetExponent ((totalExponent m e + 1).ediv 2)) = t := ⟨_, rfl⟩
      have low : 2 * t ≤ e := by
        have half : t ≤ e / 2 := ht ▸ min_le_left _ _
        omega
      have core : sqrtCore .binary64 m e = ((m <<< (e - 2 * t).toNat).sqrt, t,
          (sqrtCore .binary64 m e).2.2) := by
        rw [← ht]
        rfl
      have some : m <<< (e - 2 * t).toNat ≠ 0 := by
        rw [Nat.shiftLeft_eq]
        exact Nat.ne_of_gt (Nat.mul_pos pos (Nat.two_pow_pos _))
      have root := two_mul_log2_sqrt_le some
      have shifted := log2_shiftLeft_le m (e - 2 * t).toNat
      have half : ((m <<< (e - 2 * t).toNat).sqrt.log2 : Int) + t < k := by omega
      simp only [UnpackedFloat.sqrt]
      rw [core]
      exact below_roundWithAccuracy _ _ half

/-! ## Numbers from zero on -/

/-- A square is not below zero. -/
theorem zero_le_square (h : x.isFinite = true) : 0.0 ≤ x * x := by
  rw [← isFinite_form] at h
  rw [zero_le_iff, form_mul]
  apply nonneg_repacked
  cases hx : form x with
  | infinity | notANumber =>
    rw [hx] at h
    cases h
  | zero => trivial
  | finite s m e pos =>
    have sign : s * s = .positive := by cases s <;> rfl
    simp only [UnpackedFloat.mul, sign]
    exact nonneg_roundWithAccuracy _ _ _

theorem form_ofBits (b : UInt64) :
    form (Float.ofBits b) = repacked (unpack .binary64 b.toBitVec) := rfl

/-- The exponent of a magnitude says below which power of two it is. -/
theorem below_ofMagnitude (negative : Bool) {m : Nat} (lt : m / 2 ^ 52 < k + 1023) (le : k ≤ 972) :
    Below k (form (ofMagnitude negative m)) := by
  have sign : BinaryFormat.double.signBit = 2 ^ 63 := rfl
  have small : BinaryFormat.double.withSign negative m < 2 ^ 64 := by
    rw [BinaryFormat.withSign, sign]
    split <;> omega
  obtain ⟨s, e, f, parts⟩ := exists_packComponents
    (UInt64.ofNat (BinaryFormat.double.withSign negative m)).toBitVec
  have value := magnitude_packComponents s e f
  have whole : (UInt64.ofNat (BinaryFormat.double.withSign negative m)).toBitVec.toNat
      = BinaryFormat.double.withSign negative m := UInt64.toNat_ofNat_of_lt' small
  rw [← parts, whole] at value
  have same : e.toNat * 2 ^ 52 + f.toNat = m := by
    rw [← value, BinaryFormat.withSign, sign]
    split <;> omega
  rw [ofMagnitude, form_ofBits, parts]
  apply Below.repacked _ le
  have field : e.toNat < k + 1023 := by omega
  have ones : e ≠ -1#11 := by
    rintro rfl
    have full : (-1#11).toNat = 2047 := rfl
    omega
  by_cases least : e = 0#11
  · rw [least]
    exact below_unpack_least k s f
  · have room := f.isLt
    have lead : (2 ^ 52 + f.toNat).log2 = 52 := by
      rw [Nat.log2_eq_iff (by omega)]
      omega
    rw [unpack_packComponents, if_neg ones, if_neg least]
    show ((2 ^ 52 + f.toNat).log2 : Int) + ((e.toNat : Int) - 1075) < k
    omega

/-! ## Counts -/

variable {n : Nat}

/-- A count up to a full window is a number from one on. -/
theorem ofNat_spec (pos : 0 < n) (bound : n ≤ 32) :
    (Float.ofNat n).isFinite = true ∧ 0.0 ≤ Float.ofNat n ∧ magnitude (Float.ofNat n) ≠ 0 ∧
      ¬Float.ofNat n < 1.0 := by
  have every : ∀ i : Fin 33, 0 < i.val → (Float.ofNat i).isFinite = true ∧ 0.0 ≤ Float.ofNat i ∧
      magnitude (Float.ofNat i) ≠ 0 ∧ ¬Float.ofNat i < 1.0 := by
    decide +kernel
  exact every ⟨n, by omega⟩ pos

/-- A number divided by the count of a window. -/
theorem below_div_ofNat (hx : Below k (form x)) (pos : 0 < n) (bound : n ≤ 32)
    (le : k + 54 ≤ 972) : Below (k + 54) (form (x / Float.ofNat n)) := by
  obtain ⟨finite, -, -, large⟩ := ofNat_spec pos bound
  obtain ⟨m, e, some, count, least⟩ := exponent_le_of_not_lt form_one finite large
  exact below_div hx count (n := 52) (by omega) (by omega)

theorem zero_le_div_ofNat (nonneg : 0.0 ≤ x) (hx : x.isFinite = true) (pos : 0 < n)
    (bound : n ≤ 32) : 0.0 ≤ x / Float.ofNat n := by
  obtain ⟨finite, count, some, -⟩ := ofNat_spec pos bound
  exact (div_spec nonneg count hx finite some).1

/-! ## Sums of lists -/

/-- Each term of a sum adds two bits. -/
theorem below_sum {xs : List Float} (all : ∀ x ∈ xs, Below k (form x))
    (le : k + 2 * xs.length ≤ 972) : Below (k + 2 * xs.length) (form (Scalar.sum xs)) := by
  induction xs using List.reverseRecOn with
  | nil => trivial
  | append_singleton xs x ih =>
    rw [List.length_append, List.length_singleton] at le ⊢
    obtain ⟨others, last⟩ := List.forall_mem_append.1 all
    have head := ih others (by omega)
    have next : Below (k + 2 * xs.length) (form x) :=
      (last x (List.mem_singleton_self x)).mono (by omega)
    rw [Scalar.sum, List.foldl_concat]
    exact below_add head next (by omega)

/-- A sum of numbers from zero on is from zero on, as long as it is small. -/
theorem zero_le_sum {xs : List Float} (nonneg : ∀ x ∈ xs, 0.0 ≤ x)
    (all : ∀ x ∈ xs, Below k (form x)) (le : k + 2 * xs.length ≤ 972) : 0.0 ≤ Scalar.sum xs := by
  induction xs using List.reverseRecOn with
  | nil => decide
  | append_singleton xs x ih =>
    rw [List.length_append, List.length_singleton] at le
    obtain ⟨others, last⟩ := List.forall_mem_append.1 all
    obtain ⟨from_zero, last_from_zero⟩ := List.forall_mem_append.1 nonneg
    have head := below_sum others (by omega)
    have own := List.mem_singleton_self x
    rw [Scalar.sum, List.foldl_concat]
    exact (add_spec (ih from_zero others (by omega)) (last_from_zero x own) head.isFinite
      (last x own).isFinite).1

end Double

/-! ## Numbers of 32 bits -/

namespace Single

open Double

theorem toFloat_eq_ofMagnitude (x : Single) : x.toFloat = Double.ofMagnitude x.isNegative
    (if x.isFinite then
      BinaryFormat.double.nearest (BinaryFormat.single.units x.magnitude) BinaryFormat.single.one
    else if x.isNaN then BinaryFormat.double.infinity + 1 <<< 51
    else BinaryFormat.double.infinity) := rfl

/-- A finite number of 32 bits is below `2 ^ 128`, and a rounding does not take it past that. -/
theorem below_toFloat {x : Single} (h : x.isFinite = true) : Below 129 (form x.toFloat) := by
  have less : x.magnitude < BinaryFormat.single.infinity := of_decide_eq_true h
  have top : BinaryFormat.single.Normal 254 (2 ^ 23) := ⟨by decide, .inr (by decide)⟩
  have limit : BinaryFormat.double.Normal 1150 (2 ^ 52) := ⟨by decide, .inr (by decide)⟩
  have powers (a b c d e f : Nat) (same : a + b + c = d + e + f) :
      2 ^ a * 2 ^ b * 2 ^ c = 2 ^ d * 2 ^ e * 2 ^ f := by
    rw [← Nat.pow_add, ← Nat.pow_add, ← Nat.pow_add, ← Nat.pow_add, same]
  have units : BinaryFormat.single.units x.magnitude ≤ 2 ^ 23 * 2 ^ 254 :=
    (BinaryFormat.single.units_le_iff.2 less.le).trans_eq top.units
  rw [toFloat_eq_ofMagnitude, if_pos h]
  apply below_ofMagnitude _ _ (by decide)
  have near : BinaryFormat.double.nearest (BinaryFormat.single.units x.magnitude)
      BinaryFormat.single.one ≤ 1150 * 2 ^ 52 + 2 ^ 52 := by
    rw [BinaryFormat.nearest_eq]
    apply BinaryFormat.near_le (by decide) (by decide)
    rw [Nat.shiftLeft_eq]
    have value : BinaryFormat.double.units (1150 * 2 ^ 52 + 2 ^ 52) = 2 ^ 52 * 2 ^ 1150 :=
      limit.units
    have one : BinaryFormat.single.one = 2 ^ 149 := rfl
    rw [value, one, unitExponent_eq]
    calc BinaryFormat.single.units x.magnitude * 2 ^ 1074 ≤ 2 ^ 23 * 2 ^ 254 * 2 ^ 1074 :=
          Nat.mul_le_mul_right _ units
      _ = 2 ^ 52 * 2 ^ 1150 * 2 ^ 149 := powers 23 254 1074 52 1150 149 rfl
  omega

/-- A number of 32 bits is finite after it is widened exactly if it was before. -/
@[simp] theorem isFinite_toFloat (x : Single) : x.toFloat.isFinite = x.isFinite := by
  cases finite : x.isFinite with
  | true => exact (below_toFloat finite).isFinite
  | false =>
    rw [toFloat_eq_ofMagnitude, finite, if_neg Bool.false_ne_true]
    cases x.isNegative <;> cases x.isNaN <;> decide

end Single

/-! ## Statistics of a window -/

namespace Double

variable {k : Nat} {xs : List Float}

section

variable (some : xs ≠ []) (few : xs.length ≤ 32) (all : ∀ x ∈ xs, Below k (form x))

include some few all

/-- The mean of a window. -/
theorem below_mean (le : k + 118 ≤ 972) : Below (k + 118) (form (Scalar.mean xs)) := by
  have sum := below_sum all (by omega)
  have mean := below_div_ofNat sum (List.length_pos_iff.2 some) few (by omega)
  exact mean.mono (by omega)

/-- The root of the mean square of a window about a small number. -/
theorem isFinite_sqrt_meanSquare {center : Float} (hc : Below k (form center))
    (le : 2 * k + 124 ≤ 972) : (Scalar.meanSquare xs center).sqrt.isFinite = true := by
  have distance : ∀ x ∈ xs, Below (k + 2) (form (x - center)) :=
    fun x mem => below_sub (all x mem) hc (by omega)
  have squares : ∀ y ∈ xs.map fun x => Scalar.square (x - center),
      0.0 ≤ y ∧ Below (2 * k + 5) (form y) := by
    intro y mem
    obtain ⟨x, there, rfl⟩ := List.mem_map.1 mem
    have product := below_mul (distance x there) (distance x there) (by omega)
    exact ⟨zero_le_square (distance x there).isFinite, product.mono (by omega)⟩
  have length : (xs.map fun x => Scalar.square (x - center)).length = xs.length :=
    List.length_map ..
  have small := below_sum (fun y mem => (squares y mem).2) (by omega)
  have nonneg := zero_le_sum (fun y mem => (squares y mem).1) (fun y mem => (squares y mem).2)
    (by omega)
  have pos : 0 < xs.length := List.length_pos_iff.2 some
  have quotient := below_div_ofNat small pos few (by omega)
  have quotient_nonneg := zero_le_div_ofNat nonneg small.isFinite pos few
  exact (below_sqrt quotient_nonneg quotient (by omega)).isFinite

end

end Double

end CounterWatch
