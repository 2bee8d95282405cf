import CounterWatch.Proofs.Nearest
import CounterWatch.Proofs.WireRecord

/-!
# Rates of counters

A rate is a quotient of two counts, each rounded to 32 bits before and the quotient after. Counts
stay below `2 ^ 64`, so that a quotient stays far from both ends of the format: it neither overflows
nor underflows, and it is zero only if nothing was counted.

* `BinaryFormat.units_nearest_mem` rounds a fraction between two powers of two.
* `Single.ofNat_mem` and `Single.quotient_mem` are the two roundings of a rate.
* `Single.IsCleanRate` is what is said of a rate, and `isCleanRate_rate` says it of every one.
* `Sample.counted_samples_are_clean` says it of the three rates of a sample, which so is equal to
  what is read of its record.
-/

namespace CounterWatch

/-! ## Powers of two -/

namespace BinaryFormat

variable {f : BinaryFormat}

/-- The magnitude of a power of two, in units. -/
theorem units_power (k : Nat) :
    f.units (k * 2 ^ f.fractionBits + 2 ^ f.fractionBits) = 2 ^ (f.fractionBits + k) := by
  have leading : f.Normal k (2 ^ f.fractionBits) :=
    ⟨Nat.pow_lt_pow_right (by decide) (Nat.lt_succ_self _), .inr (Nat.le_refl _)⟩
  rw [leading.units, Nat.pow_add]

/-- **A fraction between two powers of two is rounded to a value between them.** -/
theorem units_nearest_mem (wide : 0 < f.fractionBits) {num den j k : Nat} (pos : 0 < den)
    (finite : k * 2 ^ f.fractionBits + 2 ^ f.fractionBits ≤ f.infinity)
    (low : 2 ^ (f.fractionBits + j) * den ≤ num * 2 ^ f.unitExponent)
    (high : num * 2 ^ f.unitExponent ≤ 2 ^ (f.fractionBits + k) * den) :
    2 ^ (f.fractionBits + j) ≤ f.units (f.nearest num den) ∧
      f.units (f.nearest num den) ≤ 2 ^ (f.fractionBits + k) := by
  have order : 2 ^ (f.fractionBits + j) ≤ 2 ^ (f.fractionBits + k) :=
    Nat.le_of_mul_le_mul_right (low.trans high) pos
  rw [← units_power j, ← units_power k] at order ⊢
  rw [← units_power j] at low
  rw [← units_power k] at high
  rw [nearest_eq, Nat.shiftLeft_eq, f.units_le_iff, f.units_le_iff]
  exact ⟨le_near wide pos ((f.units_le_iff.1 order).trans finite) low, near_le wide pos high⟩

end BinaryFormat

namespace Single

/-! ## Magnitudes -/

theorem nearest_le_infinity (num den : Nat) :
    BinaryFormat.single.nearest num den ≤ BinaryFormat.single.infinity :=
  Nat.min_le_right ..

section

variable {m : Nat} (le : m ≤ BinaryFormat.single.infinity)

include le

theorem toNat_bits_ofMagnitude : (ofMagnitude m).bits.toNat = m := by
  have top : BinaryFormat.single.infinity = 255 * 2 ^ 23 := rfl
  have room : UInt32.size = 2 ^ 32 := rfl
  exact UInt32.toNat_ofNat_of_lt' (by omega)

theorem magnitude_ofMagnitude : (ofMagnitude m).magnitude = m := by
  have top : BinaryFormat.single.infinity = 255 * 2 ^ 23 := rfl
  have sign : BinaryFormat.single.signBit = 2 ^ 31 := rfl
  rw [magnitude, toNat_bits_ofMagnitude le, BinaryFormat.magnitude, sign, Nat.mod_eq_of_lt (by omega)]

theorem isNegative_ofMagnitude : (ofMagnitude m).isNegative = false := by
  have top : BinaryFormat.single.infinity = 255 * 2 ^ 23 := rfl
  have sign : BinaryFormat.single.signBit = 2 ^ 31 := rfl
  rw [isNegative, toNat_bits_ofMagnitude le, BinaryFormat.isNegative, sign]
  exact decide_eq_false (by omega)

end

/-- The value of a number without its sign, in units of the least positive one. -/
def units (x : Single) : Nat := BinaryFormat.single.units x.magnitude

theorem units_ofMagnitude_nearest (num den : Nat) :
    (ofMagnitude (BinaryFormat.single.nearest num den)).units
      = BinaryFormat.single.units (BinaryFormat.single.nearest num den) := by
  rw [units, magnitude_ofMagnitude (nearest_le_infinity num den)]

/-- A finite number equals itself. -/
theorem eqv_self {x : Single} (finite : x.isFinite = true) : x.eqv x = true := by
  have number : x.isNaN = false := decide_eq_false (Nat.not_lt.2 (of_decide_eq_true finite).le)
  rw [eqv, number, beq_self_eq_true]
  rfl

/-- A value up to `2 ^ 64` is finite. -/
theorem isFinite_of_units_le {x : Single} (le : x.units ≤ 2 ^ 213) : x.isFinite = true := by
  have bound : x.magnitude ≤ 190 * 2 ^ 23 + 2 ^ 23 := by
    rw [← BinaryFormat.single.units_le_iff]
    exact le.trans_eq (BinaryFormat.units_power (f := .single) 190).symm
  have top : BinaryFormat.single.infinity = 255 * 2 ^ 23 := rfl
  exact decide_eq_true (by omega)

/-! ## The roundings of a rate -/

/-- A count that is not zero stays between one and `2 ^ 64`. -/
theorem ofNat_mem {n : Nat} (some : n ≠ 0) (lt : n < 2 ^ 64) :
    2 ^ 149 ≤ (ofNat n).units ∧ (ofNat n).units ≤ 2 ^ 213 := by
  rw [ofNat, units_ofMagnitude_nearest]
  have exponent : BinaryFormat.single.unitExponent = 149 := rfl
  refine BinaryFormat.units_nearest_mem (f := .single) (j := 126) (k := 190) (by decide) Nat.one_pos
    (by decide) ?_ ?_ <;> rw [exponent]
  · exact Nat.mul_comm 1 _ ▸ Nat.mul_le_mul_right _ (Nat.pos_of_ne_zero some)
  · calc n * 2 ^ 149 ≤ 2 ^ 64 * 2 ^ 149 := Nat.mul_le_mul_right _ lt.le
      _ = 2 ^ (23 + 190) * 1 := rfl

/-- The quotient of two such counts stays between `2 ^ -64` and `2 ^ 64`. -/
theorem quotient_mem {x y : Single} (hx : 2 ^ 149 ≤ x.units ∧ x.units ≤ 2 ^ 213)
    (hy : 2 ^ 149 ≤ y.units ∧ y.units ≤ 2 ^ 213) :
    2 ^ 85 ≤ (x.quotient y).units ∧ (x.quotient y).units ≤ 2 ^ 213 := by
  rw [quotient, units_ofMagnitude_nearest]
  have exponent : BinaryFormat.single.unitExponent = 149 := rfl
  have pos : 0 < y.units := Nat.lt_of_lt_of_le (Nat.two_pow_pos _) hy.1
  refine BinaryFormat.units_nearest_mem (f := .single) (j := 62) (k := 190) (by decide) pos
    (by decide) ?_ ?_ <;> rw [exponent]
  · calc 2 ^ (23 + 62) * y.units ≤ 2 ^ (23 + 62) * 2 ^ 213 := Nat.mul_le_mul_left _ hy.2
      _ = 2 ^ 149 * 2 ^ 149 := rfl
      _ ≤ x.units * 2 ^ 149 := Nat.mul_le_mul_right _ hx.1
  · calc x.units * 2 ^ 149 ≤ 2 ^ 213 * 2 ^ 149 := Nat.mul_le_mul_right _ hx.2
      _ ≤ 2 ^ (23 + 190) * y.units := Nat.mul_le_mul_left _ hy.1

/-- Nothing per anything is zero. -/
theorem zero_quotient (y : Single) (some : y.units ≠ 0) : zero.quotient y = zero := by
  have nothing : BinaryFormat.single.nearest 0 y.units = 0 := by
    rw [BinaryFormat.nearest_eq, Nat.zero_shiftLeft]
    exact Nat.le_zero.1 (BinaryFormat.near_le (by decide) (Nat.pos_of_ne_zero some) (Nat.zero_le _))
  exact congrArg ofMagnitude nothing

/-- What is said of the rate of `num` per `den`: it is a finite number from zero on, and it equals
zero exactly if one of the counts is zero. Otherwise it lies between `2 ^ -64` and `2 ^ 64`. -/
structure IsCleanRate (num den : UInt64) (r : Single) : Prop where
  isFinite : r.isFinite = true
  nonneg : r.isNegative = false
  eqv_zero_iff : r.eqv zero = true ↔ num = 0 ∨ den = 0
  lower : num ≠ 0 → den ≠ 0 → BinaryFormat.single.one ≤ 2 ^ 64 * r.units
  upper : num ≠ 0 → den ≠ 0 → r.units ≤ 2 ^ 64 * BinaryFormat.single.one

theorem isCleanRate_zero {num den : UInt64} (none : num = 0 ∨ den = 0) :
    IsCleanRate num den zero where
  isFinite := rfl
  nonneg := rfl
  eqv_zero_iff := iff_of_true rfl none
  lower hn hd := (none.elim hn hd).elim
  upper hn hd := (none.elim hn hd).elim

theorem eqv_zero_of_units_ne {x : Single} (some : x.units ≠ 0) : x.eqv zero = false := by
  have magnitude : x.magnitude ≠ 0 := by
    intro zero
    rw [units, zero] at some
    exact some rfl
  have bits : x.bits ≠ 0 := by
    intro zero
    rw [Single.magnitude, zero] at magnitude
    exact magnitude rfl
  simp [eqv, bits, magnitude, zero]

end Single

/-- **Every rate of counts is clean.** -/
theorem isCleanRate_rate (num den : UInt64) : (rate num den).IsCleanRate num den := by
  by_cases hd : den = 0
  · rw [rate, if_pos hd]
    exact Single.isCleanRate_zero (.inr hd)
  have count {w : UInt64} (some : w ≠ 0) := Single.ofNat_mem
    (fun zero => some (UInt64.toNat_inj.1 zero)) w.toNat_lt
  rw [rate, if_neg hd]
  by_cases hn : num = 0
  · have none : Single.ofNat num.toNat = .zero := by
      rw [hn]
      rfl
    rw [none, Single.zero_quotient _ (by have := count hd; omega)]
    exact Single.isCleanRate_zero (.inl hn)
  · have bounds := Single.quotient_mem (count hn) (count hd)
    have one : BinaryFormat.single.one = 2 ^ 149 := rfl
    have some := Single.eqv_zero_of_units_ne (Nat.ne_of_gt
      (Nat.lt_of_lt_of_le (Nat.two_pow_pos _) bounds.1))
    exact {
      isFinite := Single.isFinite_of_units_le bounds.2
      nonneg := Single.isNegative_ofMagnitude (Single.nearest_le_infinity ..)
      eqv_zero_iff := by
        rw [some]
        exact iff_of_false Bool.false_ne_true (not_or_intro hn hd)
      lower := fun _ _ => by omega
      upper := fun _ _ => by omega }

theorem Rates.eqv_self {r : Rates} (cacheMiss : r.cacheMiss.isFinite = true)
    (branchMiss : r.branchMiss.isFinite = true) (ipc : r.ipc.isFinite = true) :
    r.eqv r = true := by
  rw [eqv, Single.eqv_self cacheMiss, Single.eqv_self branchMiss, Single.eqv_self ipc]
  rfl

namespace Sample

theorem eqv_self {s : Sample} (rates : s.rates.eqv s.rates = true) : s.eqv s = true := by
  rw [eqv, rates, beq_self_eq_true, beq_self_eq_true]
  rfl

/-- **Samples made of counters are clean.** For every timestamp and all counts, both are kept, each
of the three rates is clean for its two counts (the misses of the cache are counted per
instruction), and what is read of the sample's record is a sample equal to it. -/
theorem counted_samples_are_clean (timestamp : UInt64) (c : Counters) :
    let s := ofCounters timestamp c
    s.timestamp = timestamp ∧ s.counters = c ∧
      s.rates.cacheMiss.IsCleanRate c.cacheMisses c.instructions ∧
      s.rates.branchMiss.IsCleanRate c.branchMisses c.branchInstructions ∧
      s.rates.ipc.IsCleanRate c.instructions c.cycles ∧
      ∃ t, decode s.encode = .ok t ∧ t.eqv s = true := by
  intro s
  have cacheMiss := isCleanRate_rate c.cacheMisses c.instructions
  have branchMiss := isCleanRate_rate c.branchMisses c.branchInstructions
  have ipc := isCleanRate_rate c.instructions c.cycles
  have read : decode s.encode = .ok s := by
    have whole := s.decode_encode_append []
    rwa [List.append_nil] at whole
  have rates : s.rates.eqv s.rates = true :=
    Rates.eqv_self cacheMiss.isFinite branchMiss.isFinite ipc.isFinite
  exact ⟨rfl, rfl, cacheMiss, branchMiss, ipc, s, read, eqv_self rates⟩

end Sample

end CounterWatch
