import CounterWatch.Json.Number
import CounterWatch.Proofs.Magnitude
import CounterWatch.Proofs.Shortest

/-!
# The text of numbers, read back

The text of a finite number is a numeral with the value of its shortest decimal, and so is read as
the number itself.

* `Decimal.Pointed` describes plain notation by the digits before and after the point, whoever reads
  it; `Decimal.exists_pointed` says that plain notation is of this kind.
* `Numeral.Spells` is what a numeral has in common with the decimal that it was made of.
* `Json.numeral?_plainText` and `Json.numeral?_scientificText` read the two notations.
* `Json.float?_ofFloat` and `Json.word?_ofNat` read numbers and words of 64 bits back.
-/

namespace CounterWatch

namespace Decimal

/-! ## Plain notation -/

/-- Digits before and after the point that make up a decimal. -/
structure Pointed (d : Decimal) (whole fraction : List Nat) : Prop where
  lt_ten : ∀ x ∈ whole ++ fraction, x < 10
  whole_ne_nil : whole ≠ []
  fraction_ne_nil : fraction ≠ []
  /-- The whole part is zero or does not start with one. -/
  lead : whole = [0] ∨ ∀ x ∈ whole.head?, x ≠ 0
  value : (ofDigits (whole ++ fraction) : ℚ) * 10 ^ (-(fraction.length : Int)) = d.value

theorem Pointed.whole_lt_ten {d : Decimal} {whole fraction : List Nat} (h : d.Pointed whole fraction) :
    ∀ x ∈ whole, x < 10 := fun x mem => h.lt_ten x (List.mem_append_left _ mem)

theorem Pointed.fraction_lt_ten {d : Decimal} {whole fraction : List Nat}
    (h : d.Pointed whole fraction) : ∀ x ∈ fraction, x < 10 := fun x mem =>
  h.lt_ten x (List.mem_append_right _ mem)

theorem lt_ten_of_mem_replicate {k x : Nat} (mem : x ∈ List.replicate k 0) : x < 10 := by
  rw [List.eq_of_mem_replicate mem]
  decide

theorem ofDigits_zero_cons (ds : List Nat) : ofDigits (0 :: ds) = ofDigits ds := by
  have split := ofDigits_append [0] ds
  rwa [show ofDigits [0] = 0 from rfl, Nat.zero_mul, Nat.zero_add] at split

section

variable {ds : List Nat} {k : Nat}

theorem pointed_nil (point : Int) : Pointed ⟨[], point⟩ [0] [0] := by
  refine ⟨by decide, List.cons_ne_nil _ _, List.cons_ne_nil _ _, .inl rfl, ?_⟩
  have none : ofDigits ([0] ++ [0]) = 0 := rfl
  rw [none, value, ofDigits_nil, Nat.cast_zero, zero_mul, zero_mul]

/-- Below one the digits follow the point, behind zeros. -/
theorem pointed_of_nonpos (proper : Proper ⟨ds, -(k : Int)⟩) (some : ds ≠ []) :
    Pointed ⟨ds, -(k : Int)⟩ [0] (List.replicate k 0 ++ ds) := by
  refine ⟨?_, List.cons_ne_nil _ _, List.append_ne_nil_of_right_ne_nil _ some, .inl rfl, ?_⟩
  · intro x mem
    rw [List.singleton_append, List.mem_cons, List.mem_append] at mem
    rcases mem with rfl | mem | mem
    · decide
    · exact lt_ten_of_mem_replicate mem
    · exact proper.lt_ten x mem
  · have number : ofDigits ([0] ++ (List.replicate k 0 ++ ds)) = ofDigits ds := by
      rw [List.singleton_append, ofDigits_zero_cons, ofDigits_append, ofDigits_replicate,
        Nat.zero_mul, Nat.zero_add]
    rw [number, List.length_append, List.length_replicate, value]
    congr 2
    push_cast
    ring

/-- Behind the digits of a large number zeros fill the whole part up. -/
theorem pointed_of_ge (proper : Proper ⟨ds, ds.length + k⟩) (some : ds ≠ []) :
    Pointed ⟨ds, ds.length + k⟩ (ds ++ List.replicate k 0) [0] := by
  refine ⟨?_, List.append_ne_nil_of_left_ne_nil some _, List.cons_ne_nil _ _, .inr ?_, ?_⟩
  · intro x mem
    rcases List.mem_append.1 mem with mem | mem
    · rcases List.mem_append.1 mem with mem | mem
      · exact proper.lt_ten x mem
      · exact lt_ten_of_mem_replicate mem
    · rw [List.mem_singleton.1 mem]
      decide
  · rw [List.head?_append_of_ne_nil _ some]
    exact proper.lead
  · have number : ofDigits (ds ++ List.replicate k 0 ++ [0]) = ofDigits ds * 10 ^ k * 10 := by
      rw [ofDigits_concat, ofDigits_append, ofDigits_replicate, List.length_replicate, Nat.add_zero,
        Nat.add_zero, Nat.mul_comm]
    have place : ((ds.length : Int) + k) - ds.length = k := by omega
    rw [number, value, place, zpow_natCast]
    simp

/-- In between the point stands between the digits. -/
theorem pointed_of_inside (proper : Proper ⟨ds, (k : Int)⟩) (pos : 0 < k) (lt : k < ds.length) :
    Pointed ⟨ds, (k : Int)⟩ (ds.take k) (ds.drop k) := by
  have some : ds ≠ [] := List.ne_nil_of_length_pos (by omega)
  refine ⟨?_, ?_, ?_, .inr ?_, ?_⟩
  · rw [List.take_append_drop]
    exact proper.lt_ten
  · rw [Ne, List.take_eq_nil_iff]
    exact fun none => none.elim (by omega) some
  · rw [Ne, List.drop_eq_nil_iff]
    omega
  · rw [List.head?_take, if_neg (by omega)]
    exact proper.lead
  · rw [List.take_append_drop, List.length_drop, value]
    have place : -((ds.length - k : Nat) : Int) = k - ds.length := by omega
    rw [place]

end

theorem digitText_append (ds es : List Nat) : digitText (ds ++ es) = digitText ds ++ digitText es :=
  List.map_append

theorem digitText_replicate (k : Nat) : digitText (List.replicate k 0) = List.replicate k '0' :=
  List.map_replicate

/-- Plain notation shows the point between the two runs of digits that it is made of. -/
theorem exists_pointed {d : Decimal} (proper : d.Proper) :
    ∃ whole fraction, d.Pointed whole fraction ∧
      plainText true d = digitText whole ++ '.' :: digitText fraction ∧
      whole.length + fraction.length ≤ d.digits.length + d.point.natAbs + 2 := by
  obtain ⟨ds, point⟩ := d
  simp only [plainText, ↓reduceIte]
  split_ifs with none small large
  · subst none
    exact ⟨_, _, pointed_nil point, rfl, by simp⟩
  · obtain ⟨k, rfl⟩ : ∃ k : Nat, point = -k := ⟨(-point).toNat, by omega⟩
    refine ⟨_, _, pointed_of_nonpos proper none, ?_, ?_⟩
    · rw [digitText_append, digitText_replicate, Int.neg_neg, Int.toNat_natCast]
      rfl
    · simp only [List.length_append, List.length_replicate, List.length_singleton]
      omega
  · obtain ⟨k, rfl⟩ : ∃ k : Nat, point = ds.length + k := ⟨point.toNat - ds.length, by omega⟩
    refine ⟨_, _, pointed_of_ge proper none, ?_, ?_⟩
    · have rest : ((ds.length : Int) + k).toNat - ds.length = k := by omega
      rw [rest, digitText_append, digitText_replicate]
      rfl
    · simp only [List.length_append, List.length_replicate, List.length_singleton]
      omega
  · obtain ⟨k, rfl⟩ : ∃ k : Nat, point = k := ⟨point.toNat, by omega⟩
    rw [Int.toNat_natCast]
    refine ⟨_, _, pointed_of_inside proper (by omega) (by omega), rfl, ?_⟩
    rw [← List.length_append, List.take_append_drop]
    omega

end Decimal

namespace Numeral

open Decimal

/-! ## The value of a numeral -/

variable {negative lowers : Bool} {ds es : List Nat} {k : Nat}

theorem coefficient_of_digits (n : Numeral) (h : ∀ x ∈ ds ++ es, x < 10)
    (whole : n.whole = digitText ds) (fraction : n.fraction = digitText es) :
    n.coefficient = ofDigits (ds ++ es) := by
  rw [coefficient, whole, fraction, ← digitText_append, value?_digitText h, Option.getD_some]

theorem power_of_digits (n : Numeral) (fraction : n.fraction = digitText es)
    (exponent : value? 10 n.exponent = some k) :
    n.power = (if n.lowers then -(k : Int) else k) - es.length := by
  rw [power, exponent, Option.getD_some, fraction, digitText, List.length_map]

/-- What a numeral that was made of a decimal has in common with it. -/
structure Spells (n : Numeral) (negative : Bool) (d : Decimal) : Prop where
  negative_eq : n.negative = negative
  value_eq : (n.coefficient : ℚ) * 10 ^ n.power = d.value
  length_le : n.whole.length + n.fraction.length ≤ d.digits.length + d.point.natAbs + 2
  le_power : -(d.digits.length + d.point.natAbs + 2 : Int) ≤ n.power
  power_le : n.power ≤ d.point.natAbs

/-- Digits about a point make up a numeral of the same value. -/
theorem spells_of_pointed (negative : Bool) {d : Decimal} (h : d.Pointed ds es)
    (short : ds.length + es.length ≤ d.digits.length + d.point.natAbs + 2) :
    Spells ⟨negative, digitText ds, digitText es, false, []⟩ negative d := by
  have power : power ⟨negative, digitText ds, digitText es, false, []⟩ = -(es.length : Int) := by
    rw [power_of_digits _ rfl rfl]
    simp
  refine ⟨rfl, ?_, ?_, ?_, ?_⟩
  · rw [coefficient_of_digits _ h.lt_ten rfl rfl, power, h.value]
  · simpa [digitText] using short
  · omega
  · omega

/-- A numeral that spells the shortest decimal of a finite number stands for that number. -/
theorem toFloat_of_spells {n : Numeral} {x : Float} {tie : Tie} (finite : x.isFinite = true)
    (h : n.Spells (Double.isNegative x) (shortest tie (Double.magnitude x))) : n.toFloat = x := by
  obtain ⟨-, digits, low, high, reads⟩ := shortest_spec tie (Double.isFinite_iff.1 finite)
  have least := h.le_power
  have most := h.power_le
  rw [toFloat, h.negative_eq, reads _ _ _ (by omega) (by omega) h.value_eq, Double.ofMagnitude_self]

end Numeral

namespace Json

open Decimal Numeral

/-! ## The grammar of a number -/

variable {ds es : List Nat} {rest : List Char}

theorem isEmpty_digitText (some : ds ≠ []) : (digitText ds).isEmpty = false := by
  cases ds with
  | nil => exact absurd rfl some
  | cons d ds => rfl

/-- The whole part is read up to what is no digit. -/
theorem wholePart_append (h : ∀ x ∈ ds, x < 10) (some : ds ≠ [])
    (lead : ds = [0] ∨ ∀ x ∈ ds.head?, x ≠ 0) (stop : ∀ c ∈ rest.head?, isDigit c = false) :
    wholePart (digitText ds ++ rest) = .some (digitText ds, rest) := by
  rw [wholePart, digits_append (isDigit_of_mem_digitText h) stop]
  rcases lead with rfl | lead
  · rfl
  · cases ds with
    | nil => exact absurd rfl some
    | cons d ds =>
      have other : digitChar d ≠ '0' := digitChar_ne_zero (h d List.mem_cons_self) (lead d rfl)
      simp only [digitText, List.map_cons]
      split
      case h_1 none => cases none
      case h_2 zero => exact absurd (List.cons.inj zero).1 other
      case h_3 zero => exact absurd (List.cons.inj zero).1 other
      case h_4 => rfl

/-- A fraction is read up to what is no digit. -/
theorem fractionPart_append (h : ∀ x ∈ es, x < 10) (some : es ≠ [])
    (stop : ∀ c ∈ rest.head?, isDigit c = false) :
    fractionPart ('.' :: (digitText es ++ rest)) = .some (digitText es, rest) := by
  rw [fractionPart, digits_append (isDigit_of_mem_digitText h) stop]
  simp only [isEmpty_digitText some, Bool.false_eq_true, ↓reduceIte]

/-- An exponent is read up to what is no digit. -/
theorem exponentPart_append (lowers : Bool) (n : Nat)
    (stop : ∀ c ∈ rest.head?, isDigit c = false) :
    exponentPart ('e' :: (if lowers then '-' else '+') :: (natText n ++ rest))
      = .some (lowers, natText n, rest) := by
  have run : digits (natText n ++ rest) = (natText n, rest) :=
    digits_append isDigit_of_mem_natText stop
  have some : (natText n).isEmpty = false := by
    rw [natText_eq]
    exact isEmpty_digitText (natDigits_ne_nil n)
  cases lowers <;> simp [exponentPart, signed, run, some]

/-- The sign of a number as text. -/
def sign (negative : Bool) : List Char := if negative then ['-'] else []

/-- A numeral is its parts, one after the other. -/
theorem numeral?_of_parts (negative : Bool) {s t u v whole fraction exponent : List Char}
    {lowers : Bool} (first : s.head? ≠ .some '-') (hw : wholePart s = .some (whole, t))
    (hf : fractionPart t = .some (fraction, u))
    (he : exponentPart u = .some (lowers, exponent, v)) :
    numeral? (sign negative ++ s) = .some (⟨negative, whole, fraction, lowers, exponent⟩, v) := by
  unfold numeral?
  cases negative with
  | true => simp [sign, hw, hf, he]
  | false =>
    simp only [sign, Bool.false_eq_true, ↓reduceIte, List.nil_append]
    split
    case h_1 => exact absurd rfl first
    case h_2 => simp [hw, hf, he]

theorem head?_digitText (h : ∀ x ∈ ds, x < 10) (some : ds ≠ []) :
    (digitText ds ++ rest).head? ≠ .some '-' := by
  cases ds with
  | nil => exact absurd rfl some
  | cons d ds =>
    have digit := isDigit_digitChar (h d List.mem_cons_self)
    intro minus
    have same : digitChar d = '-' := Option.some.inj minus
    rw [same] at digit
    cases digit

/-! ## The number of a text -/

/-- A numeral of few digits is read as it is. -/
theorem nearest_of_short {n : Numeral} (short : n.whole.length + n.fraction.length ≤ digitLimit) :
    nearest n = n.toFloat := by
  have trimmed : n.trimmed.length ≤ n.whole.length + n.fraction.length := by
    unfold Numeral.length
    refine Nat.le_trans (List.dropWhile_suffix _).length_le ?_
    rw [List.length_append]
    exact Nat.add_le_add_left (List.rdropWhile_prefix (· = '0') n.fraction).length_le _
  unfold nearest
  extract_lets t beyond
  rw [if_pos (Nat.sub_eq_zero_of_le (Nat.le_trans trimmed short))]

/-- Plain notation is a numeral of the same value. -/
theorem numeral?_plainText (negative : Bool) {d : Decimal} (proper : d.Proper) :
    ∃ n : Numeral, numeral? (sign negative ++ plainText true d) = .some (n, []) ∧
      n.Spells negative d := by
  obtain ⟨whole, fraction, pointed, text, short⟩ := exists_pointed proper
  have digits : fractionPart ('.' :: (digitText fraction ++ [])) = .some (digitText fraction, []) :=
    fractionPart_append pointed.fraction_lt_ten pointed.fraction_ne_nil nofun
  rw [List.append_nil] at digits
  refine ⟨_, ?_, spells_of_pointed negative pointed short⟩
  rw [text]
  refine numeral?_of_parts negative (head?_digitText pointed.whole_lt_ten pointed.whole_ne_nil)
    (wholePart_append pointed.whole_lt_ten pointed.whole_ne_nil pointed.lead ?_) digits rfl
  rintro c ⟨⟩
  rfl

/-- Scientific notation is a numeral of the same value. -/
theorem numeral?_scientificText (negative : Bool) {d : Decimal} (proper : d.Proper)
    (some : d.digits ≠ []) :
    ∃ n : Numeral, numeral? (sign negative ++ scientificText d) = .some (n, []) ∧
      n.Spells negative d := by
  obtain ⟨ds, point⟩ := d
  obtain ⟨lt_ten, lead⟩ := proper
  simp only at lt_ten lead
  obtain ⟨a, rest, rfl⟩ := List.exists_cons_of_ne_nil some
  have before : ∀ x ∈ [a], x < 10 := fun x mem =>
    lt_ten x (List.mem_singleton.1 mem ▸ List.mem_cons_self)
  have behind : ∀ x ∈ rest, x < 10 := fun x mem => lt_ten x (List.mem_cons_of_mem a mem)
  have leading : [a] = [0] ∨ ∀ x ∈ [a].head?, x ≠ 0 := .inr lead
  let n : Numeral := ⟨negative, digitText [a], digitText rest, decide (point - 1 < 0),
    natText (point - 1).natAbs⟩
  have exponent := exponentPart_append (decide (point - 1 < 0)) (point - 1).natAbs
    (show ∀ c ∈ ([] : List Char).head?, isDigit c = false from nofun)
  rw [List.append_nil] at exponent
  have power : n.power = point - 1 - rest.length := by
    rw [power_of_digits n rfl (value?_natText _)]
    simp only [n, decide_eq_true_eq]
    split <;> omega
  refine ⟨n, ?_, rfl, ?_, ?_, ?_, ?_⟩
  · have stop {c d : Char} {s : List Char} (other : isDigit c = false) (h : d ∈ (c :: s).head?) :
        isDigit d = false := by
      cases h
      exact other
    have marks : (if decide (point - 1 < 0) = true then '-' else '+')
        = if point - 1 < 0 then '-' else '+' := by
      simp only [decide_eq_true_eq]
    rw [marks] at exponent
    cases rest with
    | nil =>
      exact numeral?_of_parts negative (head?_digitText before (List.cons_ne_nil _ _))
        (wholePart_append before (List.cons_ne_nil _ _) leading fun d => stop rfl) rfl exponent
    | cons b rest =>
      exact numeral?_of_parts negative (head?_digitText before (List.cons_ne_nil _ _))
        (wholePart_append before (List.cons_ne_nil _ _) leading fun d => stop rfl)
        (fractionPart_append behind (List.cons_ne_nil _ _) fun d => stop rfl) exponent
  · rw [coefficient_of_digits n lt_ten rfl rfl, power, Decimal.value]
    congr 2
    simp only [List.length_cons]
    omega
  · simp only [n, digitText, List.length_map, List.length_cons, List.length_nil]
    omega
  · simp only [List.length_cons]
    omega
  · show n.power ≤ point.natAbs
    omega

/-- A numeral that spells the shortest decimal of a finite number is read as that number. -/
theorem nearest_of_spells {n : Numeral} {x : Float} {tie : Tie} (finite : x.isFinite = true)
    (h : n.Spells (Double.isNegative x) (shortest tie (Double.magnitude x))) : nearest n = x := by
  obtain ⟨-, digits, low, high, -⟩ := shortest_spec tie (Double.isFinite_iff.1 finite)
  have short := h.length_le
  have limit : digitLimit = 768 := rfl
  have moderate : (shortest tie (Double.magnitude x)).point.natAbs ≤ 340 := by omega
  rw [nearest_of_short (by omega), toFloat_of_spells finite h]

/-- The text of a finite number is a numeral that is read as that number. -/
theorem exists_numeral {x : Float} (finite : x.isFinite = true) :
    ∃ n, numeral? (Double.text .json x) = .some (n, []) ∧ nearest n = x := by
  have proper := (shortest_spec .toEven (Double.isFinite_iff.1 finite)).1
  have text : Double.text .json x = sign (Double.isNegative x) ++
      (shortest .toEven (Double.magnitude x)).text .json := if_pos (Double.isFinite_iff.1 finite)
  rw [text, Decimal.text]
  simp only [NumberStyle.json]
  split_ifs with plain
  · obtain ⟨n, read, spells⟩ := numeral?_plainText (Double.isNegative x) proper
    exact ⟨n, read, nearest_of_spells finite spells⟩
  · obtain ⟨n, read, spells⟩ := numeral?_scientificText (Double.isNegative x) proper
      fun none => plain (.inl none)
    exact ⟨n, read, nearest_of_spells finite spells⟩

/-- **A number is read back from its JSON text exactly if it is finite.** -/
theorem float?_ofFloat (x : Float) :
    (ofFloat x).float? = if x.isFinite = true then .some x else none := by
  unfold ofFloat
  split_ifs with finite
  · obtain ⟨n, read, nearest⟩ := exists_numeral finite
    simp only [float?, read, Option.bind_eq_bind, Option.bind_some, nearest, finite, ↓reduceIte]
  · rfl

/-- A word of 64 bits is read back from its JSON text. -/
theorem word?_ofNat (w : UInt64) : (ofNat w.toNat).word? = .some w := by
  have digits : (natText w.toNat).all isDigit = true :=
    List.all_eq_true.2 isDigit_of_mem_natText
  have small : w.toNat < Nat.pow 2 64 := w.toNat_lt
  simp only [word?, ofNat, nat?, digits, ↓reduceIte, value?_natText, Option.bind_eq_bind,
    Option.bind_some, small, UInt64.ofNat_toNat]

end Json

end CounterWatch
