import CounterWatch.Proofs.NumberText
import CounterWatch.Proofs.TomlString
import CounterWatch.Toml.Parser
import CounterWatch.Toml.Printer

/-!
# TOML values, read back

A value on a line with its name is read from its text: a string by its quotes, all others as the
longest run of the characters that scalars are made of.

* `Toml.Figures` is what a number in plain notation looks like. Such a run is neither a word nor a
  date nor a time, and names no base (`Figures.scalar?_eq`).
* `Toml.integer?_intText` and `Toml.float?_pointedText` read numbers back. With a point among them
  figures are no integer (`Toml.integer?_pointedText`).
* `Toml.Denotes` is what is asked of a run so that it is read where it stands.
* `Toml.value_print` is the result, for all values that a document can hold.
-/

namespace CounterWatch

namespace Toml

open Decimal Numeral

/-! ## Digits -/

variable {ds : List Nat} {s rest : List Char}

theorem isDigitIn_of_isDigit {d : Nat} (h : d < 10) : isDigitIn 10 (digitChar d) = true := by
  rw [isDigitIn, digitValue?_digitChar h]
  exact decide_eq_true h

/-- Digits are one group. -/
theorem ungrouped?_digitText (h : ∀ d ∈ ds, d < 10) (some : ds ≠ []) :
    ungrouped? 10 (digitText ds) = .some (digitText ds) := by
  induction ds with
  | nil => exact absurd rfl some
  | cons d ds ih =>
    have first := isDigitIn_of_isDigit (h d List.mem_cons_self)
    cases ds with
    | nil => exact if_pos first
    | cons e ds =>
      have others := ih (fun x mem => h x (List.mem_cons_of_mem d mem)) (List.cons_ne_nil e ds)
      have digit := isDigit_digitChar (h e (by simp))
      simp only [digitText, List.map_cons] at others ⊢
      rw [ungrouped?, if_pos first, others]
      · rfl
      · exact List.cons_ne_nil _ _
      · exact fun tail same => ne_of_kind digit rfl (List.cons.inj same).1

/-- A point belongs to no group of digits. -/
theorem ungrouped?_of_point {base : Nat} (mem : '.' ∈ s) : ungrouped? base s = none := by
  have point : isDigitIn base '.' = false := rfl
  fun_induction ungrouped? base s <;> grind

theorem wholeDigits?_digitText (h : ∀ d ∈ ds, d < 10) (some : ds ≠ [])
    (lead : ds = [0] ∨ ∀ d ∈ ds.head?, d ≠ 0) :
    wholeDigits? (digitText ds) = .some (digitText ds) := by
  rw [wholeDigits?, ungrouped?_digitText h some]
  simp only [Option.bind_eq_bind, Option.bind_some]
  split
  case h_1 a t zero =>
    rcases lead with rfl | lead
    · cases zero
    · cases ds with
      | nil => cases zero
      | cons d ds =>
        exact absurd (List.cons.inj zero).1 (digitChar_ne_zero (h d List.mem_cons_self) (lead d rfl))
  case h_2 => rfl

/-! ## Numbers in plain notation -/

/-- A run of digits with a point among them, or none, and a minus before them, or none. -/
structure Figures (s : List Char) : Prop where
  char : ∀ c ∈ s, isDigit c = true ∨ c = '.' ∨ c = '-'
  minus : '-' ∉ s.tail

namespace Figures

theorem not_mem (h : Figures s) {c : Char} (digit : isDigit c = false) (point : c ≠ '.')
    (minus : c ≠ '-') : c ∉ s := by
  intro mem
  rcases h.char c mem with same | same | same
  · exact ne_of_kind same digit rfl
  · exact point same
  · exact minus same

theorem isScalarChar_of_mem (h : Figures s) : ∀ c ∈ s, isScalarChar c = true := by
  intro c mem
  rcases h.char c mem with digit | rfl | rfl
  · have same : c.isDigit = true := digit
    simp [isScalarChar, Char.isAlphanum, same]
  · rfl
  · rfl

theorem namedBase?_eq_none (h : Figures s) : namedBase? s = none := by
  unfold namedBase?
  split
  · exact absurd (by simp) (h.not_mem (c := 'x') rfl (by decide) (by decide))
  · exact absurd (by simp) (h.not_mem (c := 'o') rfl (by decide) (by decide))
  · exact absurd (by simp) (h.not_mem (c := 'b') rfl (by decide) (by decide))
  · rfl

/-- The fields of a date are parted by minus signs. -/
theorem dateRest?_eq_none (h : Figures s) : dateRest? s = none := by
  unfold dateRest?
  split
  · exact absurd h.minus (by simp)
  · rfl

theorem isDate_eq_false (h : Figures s) : isDate s = false := by
  rw [isDate, h.dateRest?_eq_none]
  rfl

/-- The fields of a time are parted by colons. -/
theorem timeRest?_eq_none (h : Figures s) : timeRest? s = none := by
  unfold timeRest?
  split
  · exact absurd (by simp) (h.not_mem (c := ':') rfl (by decide) (by decide))
  · rfl

/-- Figures can only be a number. -/
theorem scalar?_eq (h : Figures s) : scalar? s = (integer? s <|> float? s) := by
  have free : 'e' ∉ s := h.not_mem rfl (by decide) (by decide)
  rw [scalar?, if_neg, if_neg, if_neg]
  · rw [isDatetime, h.timeRest?_eq_none, h.dateRest?_eq_none]
    decide
  · rintro rfl
    exact free (by decide)
  · rintro rfl
    exact free (by decide)

end Figures

theorem figures_natText (n : Nat) : Figures (natText n) := by
  have digit := isDigit_of_mem_natText (n := n)
  refine ⟨fun c mem => .inl (digit c mem), fun mem => ?_⟩
  exact absurd (digit '-' (List.mem_of_mem_tail mem)) (by decide)

/-! ## Integers -/

theorem signed_of_head? (h : ∀ c ∈ s.head?, isDigit c = true) : signed s = (false, s) := by
  unfold signed
  split
  · exact absurd (h '-' rfl) (by decide)
  · exact absurd (h '+' rfl) (by decide)
  · rfl

theorem figures_intText (n : Int) : Figures (intText n) := by
  cases n with
  | ofNat n => exact figures_natText n
  | negSucc n =>
    have digit := isDigit_of_mem_natText (n := n + 1)
    refine ⟨?_, fun mem => absurd (digit '-' mem) (by decide)⟩
    intro c mem
    rcases List.mem_cons.1 mem with rfl | mem
    · exact .inr (.inr rfl)
    · exact .inl (digit c mem)

theorem wholeDigits?_natText (n : Nat) : wholeDigits? (natText n) = some (natText n) := by
  rw [natText_eq]
  exact wholeDigits?_digitText lt_ten_of_mem_natDigits (natDigits_ne_nil n) (lead_natDigits n)

theorem signed_intText (n : Int) : signed (intText n) = (decide (n < 0), natText n.natAbs) := by
  cases n with
  | ofNat n =>
    have start := signed_of_head? (s := natText n) fun c first =>
      isDigit_of_mem_natText c (List.mem_of_head? first)
    rw [intText, start]
    simp
  | negSucc n => simp [intText, signed, Int.negSucc_lt_zero]

/-- An integer of 64 bits is read back. -/
theorem integer?_intText {n : Int} (least : -2 ^ 63 ≤ n) (lt : n < 2 ^ 63) :
    integer? (intText n) = some (.integer n) := by
  rw [integer?, (figures_intText n).namedBase?_eq_none]
  simp only [signed_intText, wholeDigits?_natText, value?_natText, Option.bind_eq_bind,
    Option.bind_some, decide_eq_true_eq]
  have same : (if n < 0 then -(n.natAbs : Int) else n.natAbs) = n := by omega
  rw [same]
  exact if_pos ⟨least, lt⟩

/-! ## Floats -/

section

variable {d : Decimal} {whole fraction : List Nat} (h : d.Pointed whole fraction)

/-- Figures with a point and a sign. -/
def pointedText (negative : Bool) (whole fraction : List Nat) : List Char :=
  Json.sign negative ++ (digitText whole ++ '.' :: digitText fraction)

include h

theorem signed_pointedText (negative : Bool) :
    signed (pointedText negative whole fraction)
      = (negative, digitText whole ++ '.' :: digitText fraction) := by
  cases negative with
  | true => rfl
  | false =>
    refine signed_of_head? fun c first => ?_
    obtain ⟨a, tail, rfl⟩ := List.exists_cons_of_ne_nil h.whole_ne_nil
    cases first
    exact isDigit_digitChar (h.whole_lt_ten a List.mem_cons_self)

/-- The characters behind the sign. -/
theorem digit_or_point {c : Char} (mem : c ∈ digitText whole ++ '.' :: digitText fraction) :
    isDigit c = true ∨ c = '.' := by
  rw [List.mem_append, List.mem_cons] at mem
  rcases mem with mem | rfl | mem
  · exact .inl (isDigit_of_mem_digitText h.whole_lt_ten c mem)
  · exact .inr rfl
  · exact .inl (isDigit_of_mem_digitText h.fraction_lt_ten c mem)

theorem figures_pointedText (negative : Bool) : Figures (pointedText negative whole fraction) := by
  have minus : '-' ∉ digitText whole ++ '.' :: digitText fraction := fun mem =>
    (digit_or_point h mem).elim (by decide) (by decide)
  cases negative with
  | true =>
    refine ⟨fun c mem => ?_, minus⟩
    rcases List.mem_cons.1 mem with rfl | mem
    · exact .inr (.inr rfl)
    · exact (digit_or_point h mem).imp_right .inl
  | false =>
    refine ⟨fun c mem => (digit_or_point h mem).imp_right .inl, fun mem => ?_⟩
    exact minus (List.mem_of_mem_tail mem)

/-- With a point among them, figures are no integer. -/
theorem integer?_pointedText (negative : Bool) :
    integer? (pointedText negative whole fraction) = none := by
  have point : '.' ∈ digitText whole ++ '.' :: digitText fraction := by simp
  rw [integer?, (figures_pointedText h negative).namedBase?_eq_none]
  simp only [signed_pointedText h, wholeDigits?, ungrouped?_of_point point, Option.bind_eq_bind,
    Option.bind_none]

/-- Digits about a point are read as the numeral that they make up. -/
theorem decimal?_pointedText (negative : Bool) :
    decimal? (pointedText negative whole fraction)
      = some ⟨negative, digitText whole, digitText fraction, false, []⟩ := by
  have all : ∀ c ∈ digitText whole ++ '.' :: digitText fraction, (!isExponentMark c) = true := by
    intro c mem
    rcases digit_or_point h mem with digit | rfl
    · simp [isExponentMark, ne_of_kind digit (d := 'e') rfl, ne_of_kind digit (d := 'E') rfl]
    · rfl
  have mantissa := run_append all
    (show ∀ c ∈ ([] : List Char).head?, (!isExponentMark c) = false from nofun)
  rw [List.append_nil] at mantissa
  have inside : ∀ c ∈ digitText whole, decide (c ≠ '.') = true := by
    intro c mem
    exact decide_eq_true (ne_of_kind (isDigit_of_mem_digitText h.whole_lt_ten c mem) rfl)
  have stop : ∀ c ∈ ('.' :: digitText fraction).head?, decide (c ≠ '.') = false := by
    rintro c ⟨⟩
    rfl
  have parts := run_append inside stop
  have before := wholeDigits?_digitText h.whole_lt_ten h.whole_ne_nil h.lead
  have behind := ungrouped?_digitText h.fraction_lt_ten h.fraction_ne_nil
  unfold decimal?
  rw [signed_pointedText h]
  simp only [mantissa, parts, before, fraction?, behind, exponent?, List.isEmpty_nil,
    List.isEmpty_cons, Bool.false_eq_true, and_false, ↓reduceIte, Option.bind_eq_bind,
    Option.bind_some, Option.pure_def]

/-- Figures that spell a finite number are read as that number. -/
theorem float?_pointedText {x : Float} (finite : x.isFinite = true) {negative : Bool}
    (same : Numeral.toFloat ⟨negative, digitText whole, digitText fraction, false, []⟩ = x) :
    float? (pointedText negative whole fraction) = some (.float x) := by
  have word {c : Char} {t : List Char} (other : isDigit c = false) (point : c ≠ '.') :
      digitText whole ++ '.' :: digitText fraction ≠ c :: t := by
    intro start
    have mem : c ∈ digitText whole ++ '.' :: digitText fraction := by rw [start]; simp
    rcases digit_or_point h mem with digit | same
    · exact ne_of_kind digit other rfl
    · exact point same
  have bits : x.toBits ≠ (Double.infinity false).toBits := by
    intro equal
    have infinite : x = Double.infinity false := by
      rw [← Double.ofBits_toBits x, equal, Double.ofBits_toBits]
    rw [infinite] at finite
    cases finite
  rw [float?, signed_pointedText h]
  simp only [word (c := 'i') rfl (by decide), word (c := 'n') rfl (by decide), ↓reduceIte,
    decimal?_pointedText h, same, bits, Option.bind_eq_bind, Option.bind_some]

end

/-! ## Values -/

/-- A run of characters of scalars that stands for a value. -/
structure Denotes (s : List Char) (v : Toml) : Prop where
  chars : ∀ c ∈ s, isScalarChar c = true
  /-- No time follows it. -/
  date : isDate s = false
  value : scalar? s = some v

theorem denotes_bool (b : Bool) : Denotes (Plain.bool b).print (.bool b) := by
  cases b
  · exact ⟨List.all_eq_true.1 rfl, rfl, rfl⟩
  · exact ⟨List.all_eq_true.1 rfl, rfl, rfl⟩

theorem denotes_intText {n : Int} (least : -2 ^ 63 ≤ n) (lt : n < 2 ^ 63) :
    Denotes (intText n) (.integer n) := by
  have figures := figures_intText n
  refine ⟨figures.isScalarChar_of_mem, figures.isDate_eq_false, ?_⟩
  rw [figures.scalar?_eq, integer?_intText least lt]
  rfl

theorem denotes_infinity (negative : Bool) :
    Denotes (Json.sign negative ++ ['i', 'n', 'f']) (.float (Double.infinity negative)) := by
  cases negative
  · exact ⟨List.all_eq_true.1 rfl, rfl, rfl⟩
  · exact ⟨List.all_eq_true.1 rfl, rfl, rfl⟩

theorem denotes_notANumber : Denotes ['n', 'a', 'n'] (.float Double.notANumber) :=
  ⟨List.all_eq_true.1 rfl, rfl, rfl⟩

/-- The text of a number stands for that number. -/
theorem denotes_text (x : Float) : Denotes (Double.text .config x) (.float x) := by
  have sign : Double.signText x = Json.sign (Double.isNegative x) := rfl
  unfold Double.text
  split_ifs with small infinite
  -- a finite number is a numeral that spells the decimal it was written as
  · have finite := Double.isFinite_iff.2 small
    obtain ⟨whole, fraction, pointed, text, short⟩ := exists_pointed (shortest_spec .up small).1
    have number := toFloat_of_spells finite (spells_of_pointed _ pointed short)
    have shape : Double.signText x ++ (shortest .up (Double.magnitude x)).text .config
        = pointedText (Double.isNegative x) whole fraction := congrArg (Json.sign _ ++ ·) text
    have figures := figures_pointedText pointed (Double.isNegative x)
    rw [NumberStyle.config] at shape ⊢
    rw [shape]
    refine ⟨figures.isScalarChar_of_mem, figures.isDate_eq_false, ?_⟩
    rw [figures.scalar?_eq, integer?_pointedText pointed, float?_pointedText pointed finite number]
    rfl
  · rw [sign]
    conv_rhs => rw [Double.eq_infinity infinite]
    exact denotes_infinity (Double.isNegative x)
  · rw [Double.eq_notANumber (x := x) (by omega)]
    exact denotes_notANumber

/-- The characters of scalars start no other value. -/
theorem Denotes.exists_cons {v : Toml} (h : Denotes s v) :
    ∃ c t, s = c :: t ∧ isScalarChar c = true := by
  cases s with
  | nil => exact absurd h.value nofun
  | cons c t => exact ⟨c, t, rfl, h.chars c List.mem_cons_self⟩

theorem scalarRest?_append {v : Toml} (h : Denotes s v)
    (stop : ∀ c ∈ rest.head?, isScalarChar c = false) : scalarRest? (s ++ rest) = some (v, rest) := by
  obtain ⟨taken, dropped⟩ := run_append h.chars stop
  rw [scalarRest?, taken, dropped]
  simp only [h.date, h.value, Option.map_some]

/-- A scalar ends where its characters end. -/
theorem value_of_denotes {v : Toml} (h : Denotes s v)
    (stop : ∀ c ∈ rest.head?, isScalarChar c = false) (fuel depth : Nat) :
    value (fuel + 1) depth (s ++ rest) = some (v, rest) := by
  have read := scalarRest?_append h stop
  obtain ⟨c, t, rfl, char⟩ := h.exists_cons
  have other {d : Char} {u : List Char} (hd : isScalarChar d = false) :
      c :: (t ++ rest) ≠ d :: u := fun same => ne_of_kind char hd (List.cons.inj same).1
  have none : text? (c :: (t ++ rest)) = none := by
    rw [text?, lineText?]
    · exact fun _ => other rfl
    · exact fun _ => other rfl
    · exact fun _ => other rfl
    · exact fun _ => other rfl
  rw [List.cons_append] at read ⊢
  rw [value.eq_def]
  simp only
  split
  case h_1 same => exact absurd same (other rfl)
  case h_2 same => exact absurd same (other rfl)
  case h_3 => rw [none, read]

theorem exists_encode (s : List Char) : ∃ c t, encode s = c :: t ∧ (c = '"' ∨ c = '\'') := by
  unfold encode
  cases formOf s <;> simp

/-- A string ends at its quotes. -/
theorem value_encode (s : List Char) (quote : rest.head? ≠ some '"')
    (single : rest.head? ≠ some '\'') (fuel depth : Nat) :
    value (fuel + 1) depth (encode s ++ rest) = some (.string (String.ofList s), rest) := by
  have read := text?_encode s quote single
  obtain ⟨c, t, text, mark⟩ := exists_encode s
  rw [text, List.cons_append] at read ⊢
  rw [value.eq_def]
  simp only
  split
  case h_1 same =>
    obtain ⟨rfl, -⟩ := List.cons.inj same
    simp at mark
  case h_2 same =>
    obtain ⟨rfl, -⟩ := List.cons.inj same
    simp at mark
  case h_3 => rw [read]

/-- Whether a document can hold a value: an integer has 64 bits. -/
def Plain.Fits : Plain → Prop
  | .integer n => -2 ^ 63 ≤ n ∧ n < 2 ^ 63
  | _ => True

theorem Plain.denotes (p : Plain) (fits : p.Fits) :
    Denotes p.print p.toToml ∨ ∃ s, p = .string s := by
  cases p with
  | string s => exact .inr ⟨s, rfl⟩
  | integer n => exact .inl (denotes_intText fits.1 fits.2)
  | float x => exact .inl (denotes_text x)
  | bool b => exact .inl (denotes_bool b)

/-- **A value is read back from its line.** -/
theorem value_print {p : Plain} (fits : p.Fits) (rest : List Char) (fuel depth : Nat) :
    value (fuel + 1) depth (p.print ++ '\n' :: rest) = some (p.toToml, '\n' :: rest) := by
  rcases p.denotes fits with scalar | ⟨s, rfl⟩
  · exact value_of_denotes scalar (by rintro c ⟨⟩; rfl) fuel depth
  · have quote : ('\n' :: rest).head? ≠ some '"' := by simp
    have single : ('\n' :: rest).head? ≠ some '\'' := by simp
    have read := value_encode s.toList quote single fuel depth
    rw [String.ofList_toList] at read
    exact read

theorem isBlank_of_kind {p : Char → Bool} {c : Char} (h : p c = true) (space : p ' ' = false)
    (tab : p '\t' = false) : isBlank c = false := by
  rw [isBlank, Bool.or_eq_false_iff, decide_eq_false_iff_not, decide_eq_false_iff_not]
  exact ⟨ne_of_kind h space, ne_of_kind h tab⟩

/-- The text of a value does not start with a blank. -/
theorem exists_cons_print {p : Plain} (fits : p.Fits) :
    ∃ c t, p.print = c :: t ∧ isBlank c = false := by
  rcases p.denotes fits with scalar | ⟨s, rfl⟩
  · obtain ⟨c, t, text, char⟩ := scalar.exists_cons
    exact ⟨c, t, text, isBlank_of_kind char rfl rfl⟩
  · obtain ⟨c, t, text, rfl | rfl⟩ := exists_encode s.toList
    · exact ⟨_, t, text, rfl⟩
    · exact ⟨_, t, text, rfl⟩

theorem not_mem_print {p : Plain} (fits : p.Fits) : '\r' ∉ p.print := by
  rcases p.denotes fits with scalar | ⟨s, rfl⟩
  · exact fun mem => absurd (scalar.chars _ mem) (by decide)
  · exact not_mem_encode s.toList

end Toml

end CounterWatch
