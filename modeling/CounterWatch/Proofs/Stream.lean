import CounterWatch.Proofs.Bounds
import CounterWatch.Proofs.Growth
import CounterWatch.Proofs.Order

/-!
# Draws from the stream

The stream of a forest keeps to the intervals asked for. Whole numbers do so by their arithmetic. A
threshold is a share of the way from the lower end, added to that end with three roundings: it is
drawn again until it is below the upper end, and no rounding takes it below the lower one.

* `ChaCha.yields_index` and `ChaCha.yields_threshold` are about one draw, whatever the arithmetic.
* `Double.le_between` is about the roundings.
* `ChaCha.lawful_draws` is the result: on numbers of 64 bits the stream is a lawful source.
-/

namespace CounterWatch

open Drawing

namespace ChaCha

/-- An index is drawn from the interval asked for. -/
theorem yields_index {lo hi : Nat} (le : lo ≤ hi) :
    Yields (fun i => lo ≤ i ∧ i ≤ hi) (index lo hi) := by
  show Yields _ (index.go lo (hi - lo + 1) _ attempts)
  generalize attempts = fuel
  induction fuel with
  | zero => exact yields_pure ⟨Nat.le_refl lo, le⟩
  | succ fuel ih =>
    refine (yields_anything _).bind fun word _ => ?_
    refine Yields.ite (fun _ => yields_pure ⟨Nat.le_add_right .., ?_⟩) fun _ => ih
    have upper : word.toNat * (hi - lo + 1) / 2 ^ 32 < hi - lo + 1 := by
      rw [Nat.div_lt_iff_lt_mul (by decide), Nat.mul_comm]
      exact Nat.mul_lt_mul_of_pos_left word.toNat_lt (Nat.succ_pos _)
    omega

variable {α : Type} [Scalar α]

/-- The value at a share of the way from one value to another. -/
def between (lo hi : α) (share : Nat) : α :=
  Scalar.ofNat share / Scalar.ofNat (2 ^ 52) * (hi - lo) + lo

/-- A threshold is drawn from the interval asked for, if no value on the way is below the start. -/
theorem yields_threshold {lo hi : α} (self : lo ≤ lo) (lt : lo < hi)
    (above : Scalar.isFinite lo = true → Scalar.isFinite hi = true →
      Scalar.isFinite (hi - lo) = true → ∀ share < 2 ^ 52, lo ≤ between lo hi share) :
    Yields (fun t => lo ≤ t ∧ t < hi) (threshold lo hi) := by
  unfold threshold
  refine Yields.ite (fun finite => ?_) fun _ => (yields_anything _).bind fun _ _ =>
    yields_pure ⟨self, lt⟩
  simp only [Bool.and_eq_true] at finite
  have way := above finite.1.1 finite.1.2 finite.2
  generalize attempts = fuel
  induction fuel with
  | zero => exact yields_pure ⟨self, lt⟩
  | succ fuel ih =>
    refine (yields_anything _).bind fun bits _ => ?_
    refine Yields.ite (fun less => yields_pure ⟨way _ ?_, less⟩) fun _ => ih
    have word := bits.toNat_lt
    have shift : (12 : UInt64).toNat % 64 = 12 := rfl
    rw [UInt64.toNat_shiftRight, shift, Nat.shiftRight_eq_div_pow]
    omega

end ChaCha

namespace Double

open Float.Model (UnpackedFloat)

/-- A whole number below `2 ^ 52` is from zero on, and it is not large. -/
theorem ofNat_spec_of_lt {n : Nat} (lt : n < 2 ^ 52) :
    0.0 ≤ Float.ofNat n ∧ Below 55 (form (Float.ofNat n)) := by
  have product : Float.ofNat n = n.toUInt64.toFloat * Float.ofBits 0x3FF0000000000000 := by
    show Float.ofScientific n false 0 = _
    rw [Float.ofScientific, dif_pos ⟨by omega, by decide⟩]
    rfl
  have one : form (Float.ofBits 0x3FF0000000000000) = .finite .positive (2 ^ 52) (-52) (by decide) :=
    rfl
  have room : UInt64.size = 2 ^ 64 := rfl
  have word : n.toUInt64.toNat = n := UInt64.toNat_ofNat_of_lt' (by omega)
  have abs : (n : Int).natAbs = n := Int.natAbs_natCast n
  have whole : form n.toUInt64.toFloat
      = repacked (UnpackedFloat.normalize .binary64 n.toUInt64.toNat 0 .positive) := rfl
  rw [word] at whole
  have lead : n.log2 ≤ 51 := log2_le_of_lt_two_pow lt
  have below : Below 53 (form n.toUInt64.toFloat) := by
    rw [whole]
    exact (below_normalize .positive (by rw [abs]; omega)).repacked (by decide)
  have nonneg : 0.0 ≤ n.toUInt64.toFloat := by
    rw [zero_le_iff, whole]
    exact nonneg_repacked (normalize_spec n 1074).2
  have below_one : Below 1 (form (Float.ofBits 0x3FF0000000000000)) := by
    rw [one]
    show ((2 ^ 52 : Nat).log2 : Int) + -52 < (1 : Nat)
    decide
  rw [product]
  exact ⟨(mul_spec nonneg (by decide) below.isFinite (by decide)).1,
    below_mul below below_one (by decide)⟩

/-- No rounding takes a value on the way from one number to a greater one below the first. -/
theorem le_between {lo hi : Float} (lt : lo < hi) (flo : lo.isFinite = true)
    (fhi : hi.isFinite = true) (finite : (hi - lo).isFinite = true) {share : Nat}
    (small : share < 2 ^ 52) : lo ≤ ChaCha.between lo hi share := by
  obtain ⟨nonneg, below⟩ := ofNat_spec_of_lt small
  have all : form (Float.ofNat (2 ^ 52)) = .finite .positive (2 ^ 52) 0 (by decide) := rfl
  have part : 0.0 ≤ Float.ofNat share / Float.ofNat (2 ^ 52) :=
    (div_spec nonneg (by decide) below.isFinite (by decide) (by decide)).1
  have low : -(0 : Nat) ≤ ((2 ^ 52 : Nat).log2 : Int) + 0 := by decide
  have bounded := below_div below all low (by decide)
  have distance := zero_le_sub (le_of_lt lt) fhi flo
  exact le_add flo (mul_spec part distance bounded.isFinite finite).1

end Double

/-- **On numbers of 64 bits the stream is a lawful source.** -/
theorem ChaCha.lawful_draws : (draws : Draws Float ChaCha).Lawful where
  index_mem _ _ s le := yields_index le s
  threshold_mem _ _ s lt :=
    yields_threshold (Double.le_self (Double.isNaN_of_lt lt).1) lt
      (fun flo fhi finite _ => Double.le_between lt flo fhi finite) s

end CounterWatch
