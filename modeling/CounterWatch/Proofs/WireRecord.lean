import Mathlib.Algebra.Group.Nat.Defs
import Mathlib.Data.List.Range
import CounterWatch.Sample.Wire

/-!
# Records and samples

A sample is written as a record of 68 bytes and read from one. Reading takes the writing back whatever
follows the record, and writing takes the reading back up to what followed: records and samples are
the same things.

* `ofLittleEndian_littleEndian` and `littleEndian_ofLittleEndian` are the two directions for a single
  number.
* `Sample.field_flatMap` reads one of some numbers that stand one after the other, and
  `Sample.flatMap_field` writes all numbers that have been read.
* `Sample.records_are_samples` puts them together.
-/

namespace CounterWatch

/-! ## Numbers -/

@[simp] theorem length_littleEndian (width n : Nat) : (littleEndian width n).length = width := by
  induction width generalizing n with
  | zero => rfl
  | succ width ih => rw [littleEndian, List.length_cons, ih]

/-- The bytes of a number are read as that number, if there are enough of them. -/
theorem ofLittleEndian_littleEndian {width n : Nat} (lt : n < 256 ^ width) :
    ofLittleEndian (littleEndian width n) = n := by
  induction width generalizing n with
  | zero => exact (Nat.lt_one_iff.1 lt).symm
  | succ width ih =>
    have rest : n / 256 < 256 ^ width := Nat.div_lt_of_lt_mul (Nat.pow_succ' ▸ lt)
    have lowest : (UInt8.ofNat n).toNat = n % 256 := UInt8.toNat_ofNat'
    rw [littleEndian, ofLittleEndian, ih rest, lowest, Nat.mod_add_div]

theorem ofLittleEndian_lt (bytes : List UInt8) : ofLittleEndian bytes < 256 ^ bytes.length := by
  induction bytes with
  | nil => exact Nat.one_pos
  | cons b rest ih =>
    have digit : b.toNat < 256 := b.toNat_lt
    rw [ofLittleEndian, List.length_cons, Nat.pow_succ]
    omega

/-- The number that bytes stand for has these bytes. -/
theorem littleEndian_ofLittleEndian (bytes : List UInt8) :
    littleEndian bytes.length (ofLittleEndian bytes) = bytes := by
  induction bytes with
  | nil => rfl
  | cons b rest ih =>
    have digit : b.toNat < 256 := b.toNat_lt
    have quotient : (b.toNat + 256 * ofLittleEndian rest) / 256 = ofLittleEndian rest := by omega
    have lowest : UInt8.ofNat (b.toNat + 256 * ofLittleEndian rest) = b := by
      apply UInt8.toNat_inj.1
      rw [UInt8.toNat_ofNat']
      omega
    rw [List.length_cons, ofLittleEndian, littleEndian, quotient, ih, lowest]

namespace Sample

/-! ## Fields -/

theorem field_lt (bytes : List UInt8) (offset width : Nat) :
    field bytes offset width < 256 ^ width :=
  Nat.lt_of_lt_of_le (ofLittleEndian_lt _)
    (Nat.pow_le_pow_right (by decide) (List.length_take_le width _))

/-- What stands before a field does not matter. -/
theorem field_append (before rest : List UInt8) {start : Nat} (h : before.length = start)
    (offset width : Nat) :
    field (before ++ rest) (start + offset) width = field rest offset width := by
  rw [field, ← List.drop_drop, List.drop_left' h, field]

/-- Of numbers that stand one after the other each is read at its place. -/
theorem field_flatMap {width : Nat} {numbers : List Nat} (h : ∀ n ∈ numbers, n < 256 ^ width)
    (rest : List UInt8) {i : Nat} (lt : i < numbers.length) :
    field (numbers.flatMap (littleEndian width) ++ rest) (width * i) width = numbers[i] := by
  induction numbers generalizing i with
  | nil => cases lt
  | cons n numbers ih =>
    rw [List.flatMap_cons, List.append_assoc]
    cases i with
    | zero =>
      rw [Nat.mul_zero, field, List.drop_zero, List.take_left' (length_littleEndian width n)]
      exact ofLittleEndian_littleEndian (h n List.mem_cons_self)
    | succ i =>
      rw [Nat.mul_succ, Nat.add_comm, field_append _ _ (length_littleEndian width n)]
      exact ih (fun k mem => h k (List.mem_cons_of_mem n mem)) (Nat.lt_of_succ_lt_succ lt)

/-- The fields of equal width from a place on, written again, are the bytes from there on. -/
theorem flatMap_field (bytes : List UInt8) (start width count : Nat)
    (enough : start + width * count ≤ bytes.length) :
    (List.range count).flatMap (fun i => littleEndian width (field bytes (start + width * i) width))
      = (bytes.drop start).take (width * count) := by
  induction count with
  | zero => simp
  | succ count ih =>
    rw [Nat.mul_succ] at enough ⊢
    have chunk : ((bytes.drop (start + width * count)).take width).length = width := by
      rw [List.length_take, List.length_drop]
      omega
    have last := littleEndian_ofLittleEndian ((bytes.drop (start + width * count)).take width)
    rw [chunk] at last
    rw [List.range_succ, List.flatMap_append, ih (by omega), List.flatMap_singleton, field, last,
      List.take_add, List.drop_drop]

/-! ## Records -/

variable (s : Sample)

/-- The counts of a sample, in the order of a record. -/
def countList : List UInt64 :=
  [s.timestamp, s.counters.cacheReferences, s.counters.cacheMisses, s.counters.branchInstructions,
    s.counters.branchMisses, s.counters.cycles, s.counters.instructions]

/-- The rates of a sample, in the order of a record. -/
def rateList : List Single := [s.rates.cacheMiss, s.rates.branchMiss, s.rates.ipc]

/-- A record is the bytes of its counts and then those of its rates. -/
theorem encode_eq : s.encode = (s.countList.map UInt64.toNat).flatMap (littleEndian 8)
    ++ (s.rateList.map fun r => r.bits.toNat).flatMap (littleEndian 4) := by
  rw [List.flatMap_map, List.flatMap_map]
  rfl

theorem length_encode : s.encode.length = 68 := by
  simp [encode]

theorem field_count (rest : List UInt8) {i : Nat} (lt : i < s.countList.length) :
    UInt64.ofNat (field (s.encode ++ rest) (8 * i) 8) = s.countList[i] := by
  have small : ∀ n ∈ s.countList.map UInt64.toNat, n < 256 ^ 8 := by
    intro n mem
    obtain ⟨w, -, rfl⟩ := List.mem_map.1 mem
    exact w.toNat_lt
  rw [encode_eq, List.append_assoc, field_flatMap small _ (by simpa using lt), List.getElem_map,
    UInt64.ofNat_toNat]

theorem field_rateList (rest : List UInt8) {i : Nat} (lt : i < s.rateList.length) :
    (⟨UInt32.ofNat (field (s.encode ++ rest) (56 + 4 * i) 4)⟩ : Single) = s.rateList[i] := by
  have small : ∀ n ∈ s.rateList.map (fun r => r.bits.toNat), n < 256 ^ 4 := by
    intro n mem
    obtain ⟨r, -, rfl⟩ := List.mem_map.1 mem
    exact r.bits.toNat_lt
  have counts : ((s.countList.map UInt64.toNat).flatMap (littleEndian 8)).length = 56 := by
    simp [countList]
  rw [encode_eq, List.append_assoc, field_append _ _ counts,
    field_flatMap small rest (by simpa using lt), List.getElem_map, UInt32.ofNat_toNat]

/-- A sample is read from its record, whatever follows. -/
theorem decode_encode_append (rest : List UInt8) : decode (s.encode ++ rest) = .ok s := by
  have long : ¬(s.encode ++ rest).length < wireSize := by
    rw [List.length_append, length_encode]
    exact Nat.not_lt.2 (Nat.le_add_right 68 _)
  rw [decode, if_neg long]
  have count (i : Nat) (lt : i < 7) :
      UInt64.ofNat (field (s.encode ++ rest) (8 * i) 8) = s.countList.get ⟨i, lt⟩ :=
    s.field_count rest lt
  have rate (i : Nat) (lt : i < 3) :
      (⟨UInt32.ofNat (field (s.encode ++ rest) (56 + 4 * i) 4)⟩ : Single) = s.rateList.get ⟨i, lt⟩ :=
    s.field_rateList rest lt
  simp only [count 0 (by decide), count 1 (by decide), count 2 (by decide), count 3 (by decide),
    count 4 (by decide), count 5 (by decide), count 6 (by decide), rate 0 (by decide),
    rate 1 (by decide), rate 2 (by decide)]
  rfl

/-- What is read of a datagram has the start of the datagram for its record. -/
theorem encode_of_decode {bytes : List UInt8} {s : Sample} (h : decode bytes = .ok s) :
    s.encode = bytes.take 68 := by
  unfold decode at h
  split_ifs at h with short
  have long : 68 ≤ bytes.length := Nat.not_lt.1 short
  obtain rfl := Except.ok.inj h
  have word (offset : Nat) : (UInt64.ofNat (field bytes offset 8)).toNat = field bytes offset 8 :=
    UInt64.toNat_ofNat_of_lt (field_lt bytes offset 8)
  have half (offset : Nat) : (UInt32.ofNat (field bytes offset 4)).toNat = field bytes offset 4 :=
    UInt32.toNat_ofNat_of_lt (field_lt bytes offset 4)
  calc
    _ = (List.range 7).flatMap (fun i => littleEndian 8 (field bytes (0 + 8 * i) 8))
        ++ (List.range 3).flatMap (fun i => littleEndian 4 (field bytes (56 + 4 * i) 4)) := by
      simp only [Nat.zero_add, encode, List.flatMap_cons, List.flatMap_nil, word, half]
      rfl
    _ = bytes.take 56 ++ (bytes.drop 56).take 12 := by
      rw [flatMap_field bytes 0 8 7 (by omega), flatMap_field bytes 56 4 3 (by omega), List.drop_zero]
    _ = bytes.take 68 := List.take_add.symm

/-- A datagram holds no record exactly if it is too short for one, and the error says so. -/
theorem decode_eq_error_iff {bytes : List UInt8} {e : DecodeError} :
    decode bytes = .error e ↔ bytes.length < 68 ∧ e = .tooShort bytes.length 68 := by
  by_cases short : bytes.length < wireSize
  · rw [decode, if_pos short]
    exact ⟨fun same => ⟨short, (Except.error.inj same).symm⟩, fun h => congrArg _ h.2.symm⟩
  · rw [decode, if_neg short]
    exact ⟨nofun, fun h => absurd h.1 short⟩

/-- **Records and samples are the same things.** A sample is read from its record bit for bit, whatever
follows the record; what is read of a datagram that is long enough has the first 68 bytes of the
datagram for its record; and nothing is read exactly if the datagram is shorter, of which the error
tells the length and what is needed. -/
theorem records_are_samples :
    (∀ (s : Sample) (rest : List UInt8), decode (s.encode ++ rest) = .ok s) ∧
    (∀ bytes : List UInt8, 68 ≤ bytes.length →
      ∃ s, decode bytes = .ok s ∧ s.encode = bytes.take 68) ∧
    (∀ (bytes : List UInt8) (e : DecodeError),
      decode bytes = .error e ↔ bytes.length < 68 ∧ e = .tooShort bytes.length 68) := by
  refine ⟨decode_encode_append, fun bytes long => ?_, fun bytes e => decode_eq_error_iff⟩
  cases decoded : decode bytes with
  | error e => exact absurd (decode_eq_error_iff.1 decoded).1 (Nat.not_lt.2 long)
  | ok s => exact ⟨s, rfl, encode_of_decode decoded⟩

end Sample

end CounterWatch
