import CounterWatch.Number.Numeral
import CounterWatch.Number.Text
import Mathlib.Data.Nat.Digits.Lemmas

/-!
# Digits

The digits of a natural number in base ten, the number that digits stand for, and the reading of a
text of digits.

* `Decimal.digitsOf_eq` says what the digits are, and `Decimal.ofDigits` takes them back.
* `Numeral.value?_digitText` reads the text of digits, and `Decimal.value?_natText` that of a natural
  number.
-/

namespace CounterWatch

namespace Decimal

/-! ## The digits of a number -/

theorem digitsOf_go (fuel : Nat) {n : Nat} (le : n ≤ fuel) (acc : List Nat) :
    digitsOf.go fuel n acc = (Nat.digits 10 n).reverse ++ acc := by
  induction fuel generalizing n acc with
  | zero =>
    obtain rfl := Nat.le_zero.1 le
    rfl
  | succ fuel ih =>
    cases n with
    | zero => rfl
    | succ n =>
      rw [digitsOf.go, ih (by omega), Nat.digits_of_two_le_of_pos (by decide) (Nat.succ_pos n),
        List.reverse_cons, List.append_assoc]
      · rfl
      · exact nofun

/-- The digits are those of the base, in the other order. -/
theorem digitsOf_eq (n : Nat) : digitsOf n = (Nat.digits 10 n).reverse :=
  (digitsOf_go n (Nat.le_refl n) []).trans (List.append_nil _)

theorem lt_ten_of_mem {n d : Nat} (h : d ∈ digitsOf n) : d < 10 := by
  rw [digitsOf_eq, List.mem_reverse] at h
  exact Nat.digits_lt_base (by decide) h

theorem digitsOf_eq_nil {n : Nat} : digitsOf n = [] ↔ n = 0 := by
  rw [digitsOf_eq, List.reverse_eq_nil_iff, Nat.digits_eq_nil_iff_eq_zero]

/-- The leading digit is not zero. -/
theorem head_digitsOf {n d : Nat} {rest : List Nat} (h : digitsOf n = d :: rest) : d ≠ 0 := by
  have some : n ≠ 0 := fun none => by
    rw [digitsOf_eq_nil.2 none] at h
    cases h
  have last := Nat.getLast_digit_ne_zero 10 some
  have nonempty : (Nat.digits 10 n).reverse ≠ [] := by
    rw [← digitsOf_eq, h]
    exact List.cons_ne_nil d rest
  rw [← List.head_reverse nonempty] at last
  simpa only [← digitsOf_eq, h, List.head_cons] using last

theorem lt_pow_length_digitsOf (n : Nat) : n < 10 ^ (digitsOf n).length := by
  rw [digitsOf_eq, List.length_reverse]
  exact Nat.lt_base_pow_length_digits (by decide)

theorem pow_length_digitsOf_le {n : Nat} (some : n ≠ 0) :
    10 ^ (digitsOf n).length ≤ 10 * n := by
  rw [digitsOf_eq, List.length_reverse]
  exact Nat.base_pow_length_digits_le 10 n (by decide) some

theorem length_digitsOf_le {n k : Nat} (lt : n < 10 ^ k) : (digitsOf n).length ≤ k := by
  rw [digitsOf_eq, List.length_reverse]
  exact (Nat.digits_length_le_iff (by decide) n).2 lt

/-! ## The number of some digits -/

/-- The number that digits stand for, the leading one first. -/
def ofDigits (ds : List Nat) : Nat := Nat.ofDigits 10 ds.reverse

@[simp] theorem ofDigits_nil : ofDigits [] = 0 := rfl

@[simp] theorem ofDigits_digitsOf (n : Nat) : ofDigits (digitsOf n) = n := by
  rw [ofDigits, digitsOf_eq, List.reverse_reverse, Nat.ofDigits_digits]

/-- Digits that follow move those before them up. -/
theorem ofDigits_append (ds es : List Nat) :
    ofDigits (ds ++ es) = ofDigits ds * 10 ^ es.length + ofDigits es := by
  rw [ofDigits, List.reverse_append, Nat.ofDigits_append, List.length_reverse, Nat.add_comm,
    Nat.mul_comm]
  rfl

theorem ofDigits_concat (ds : List Nat) (d : Nat) : ofDigits (ds ++ [d]) = 10 * ofDigits ds + d := by
  rw [ofDigits_append, List.length_singleton, Nat.pow_one, Nat.mul_comm]
  rfl

@[simp] theorem ofDigits_replicate (k : Nat) : ofDigits (List.replicate k 0) = 0 := by
  induction k with
  | zero => rfl
  | succ k ih => rw [List.replicate_succ', ofDigits_concat, ih]

end Decimal

namespace Numeral

open Decimal

/-! ## Reading digits -/

theorem isDigit_digitChar {d : Nat} (lt : d < 10) : isDigit (digitChar d) = true := by
  interval_cases d <;> rfl

theorem digitValue?_digitChar {d : Nat} (lt : d < 10) : digitValue? (digitChar d) = some d := by
  interval_cases d <;> rfl

theorem digitChar_ne_zero {d : Nat} (lt : d < 10) (some : d ≠ 0) : digitChar d ≠ '0' := by
  interval_cases d <;> first | exact absurd rfl some | decide

/-- The text of digits is read as the number that they stand for. -/
theorem value?_digitText {ds : List Nat} (h : ∀ d ∈ ds, d < 10) :
    value? 10 (digitText ds) = some (ofDigits ds) := by
  induction ds using List.reverseRecOn with
  | nil => rfl
  | append_singleton ds d ih =>
    have lt : d < 10 := h d (by simp)
    have before := ih fun e mem => h e (List.mem_append_left _ mem)
    unfold value? digitText at before ⊢
    rw [List.map_append, List.foldl_append, before, List.map_singleton, List.foldl_cons,
      List.foldl_nil, digitValue?_digitChar lt, ofDigits_concat]
    exact if_pos lt

theorem isDigit_of_mem_digitText {ds : List Nat} (h : ∀ d ∈ ds, d < 10) :
    ∀ c ∈ digitText ds, isDigit c = true := by
  intro c mem
  obtain ⟨d, there, rfl⟩ := List.mem_map.1 mem
  exact isDigit_digitChar (h d there)

/-- Characters of which only one is of a kind are different. -/
theorem ne_of_kind {p : Char → Bool} {c d : Char} (hc : p c = true) (hd : p d = false) : c ≠ d := by
  rintro rfl
  rw [hc] at hd
  cases hd

/-- A run of characters of one kind ends where none of the kind follows. -/
theorem run_append {p : Char → Bool} {s rest : List Char} (all : ∀ c ∈ s, p c = true)
    (stop : ∀ c ∈ rest.head?, p c = false) :
    (s ++ rest).takeWhile p = s ∧ (s ++ rest).dropWhile p = rest := by
  have none : rest.takeWhile p = [] ∧ rest.dropWhile p = rest := by
    cases rest with
    | nil => exact ⟨rfl, rfl⟩
    | cons c rest =>
      have other := stop c rfl
      exact ⟨List.takeWhile_cons_of_neg (by simp [other]),
        List.dropWhile_cons_of_neg (by simp [other])⟩
  rw [List.takeWhile_append_of_pos all, List.dropWhile_append_of_pos all, none.1, none.2,
    List.append_nil]
  exact ⟨rfl, rfl⟩

theorem digits_append {ds rest : List Char} (h : ∀ c ∈ ds, isDigit c = true)
    (stop : ∀ c ∈ rest.head?, isDigit c = false) : digits (ds ++ rest) = (ds, rest) :=
  Prod.ext (run_append h stop).1 (run_append h stop).2

end Numeral

namespace Decimal

/-! ## Natural numbers -/

/-- The digits that a natural number is written with: at least one. -/
def natDigits (n : Nat) : List Nat := if n = 0 then [0] else digitsOf n

theorem natText_eq (n : Nat) : natText n = digitText (natDigits n) := by
  unfold natText natDigits
  split <;> rfl

theorem lt_ten_of_mem_natDigits {n : Nat} : ∀ d ∈ natDigits n, d < 10 := by
  intro d mem
  unfold natDigits at mem
  split at mem
  · rw [List.mem_singleton.1 mem]
    decide
  · exact lt_ten_of_mem mem

theorem natDigits_ne_nil (n : Nat) : natDigits n ≠ [] := by
  unfold natDigits
  split
  · exact List.cons_ne_nil _ _
  case isFalse some => exact fun none => some (digitsOf_eq_nil.1 none)

/-- No zero is written before other digits. -/
theorem lead_natDigits (n : Nat) : natDigits n = [0] ∨ ∀ d ∈ (natDigits n).head?, d ≠ 0 := by
  unfold natDigits
  split
  · exact .inl rfl
  · refine .inr fun d first => ?_
    obtain ⟨rest, cons⟩ := List.head?_eq_some_iff.1 first
    exact head_digitsOf cons

@[simp] theorem ofDigits_natDigits (n : Nat) : ofDigits (natDigits n) = n := by
  unfold natDigits
  split
  case isTrue none =>
    rw [none]
    rfl
  case isFalse => exact ofDigits_digitsOf n

/-- The text of a natural number is read as that number. -/
theorem value?_natText (n : Nat) : Numeral.value? 10 (natText n) = some n := by
  rw [natText_eq, Numeral.value?_digitText lt_ten_of_mem_natDigits, ofDigits_natDigits]

theorem isDigit_of_mem_natText {n : Nat} : ∀ c ∈ natText n, Numeral.isDigit c = true := by
  rw [natText_eq]
  exact Numeral.isDigit_of_mem_digitText lt_ten_of_mem_natDigits

end Decimal

end CounterWatch
