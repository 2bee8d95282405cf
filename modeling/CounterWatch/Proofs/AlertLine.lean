import CounterWatch.Alert
import CounterWatch.Proofs.JsonText

/-!
# The line of an alert

An alert is written as one line of JSON. What the line is can be said without the writer: the reader
finds an object in it with the seven fields of an alert, each with its value, and there is nothing in
it besides.

* `Json.Printable.plain` says that no value that can be printed has a control character in its text,
  and `Json.count_blank_printFields` where the blanks in an object come from.
* `Alert.printable_toJson` says that an alert is made of what JSON can carry, and `ofJson?_toJson` that
  its fields are found by their names.
* `Alert.parse?_line` is the reading of a line as an alert: it gives the same alert if the scores are
  finite. A score that is not finite is written as `null`, from which no score is read.
* `Alert.IsWrittenAs` says what the text of an alert is, and `Alert.isWrittenAs_line` that its line is
  one.
-/

namespace CounterWatch

namespace Json

open Decimal Numeral

/-! ## Values that can be printed -/

theorem numeral?_natText (n : Nat) :
    numeral? (natText n) = some ({ negative := false, whole := natText n }, []) := by
  have lead : natDigits n = [0] ∨ ∀ x ∈ (natDigits n).head?, x ≠ 0 := by
    unfold natDigits
    split
    · exact .inl rfl
    · right
      intro x first
      cases digits : digitsOf n with
      | nil =>
        rw [digits] at first
        cases first
      | cons d rest =>
        rw [digits] at first
        obtain rfl : d = x := Option.some.inj first
        exact head_digitsOf digits
  have whole := wholePart_append lt_ten_of_mem_natDigits (natDigits_ne_nil n) lead
    (show ∀ c ∈ ([] : List Char).head?, isDigit c = false from nofun)
  have first : (digitText (natDigits n) ++ []).head? ≠ some '-' :=
    head?_digitText lt_ten_of_mem_natDigits (natDigits_ne_nil n)
  rw [List.append_nil, ← natText_eq] at whole first
  exact numeral?_of_parts false first whole rfl rfl

theorem printable_ofNat (n : Nat) : (ofNat n).Printable := .number (numeral?_natText n)

/-- A score is written as a number or as `null`. -/
theorem ofFloat_cases (x : Float) :
    (∃ text n, ofFloat x = .number text ∧ numeral? text = some (n, [])) ∨ ofFloat x = .null := by
  unfold ofFloat
  split
  case isTrue finite =>
    obtain ⟨n, read, -⟩ := exists_numeral finite
    exact .inl ⟨_, n, rfl, read⟩
  case isFalse => exact .inr rfl

theorem printable_ofFloat (x : Float) : (ofFloat x).Printable := by
  rcases ofFloat_cases x with ⟨text, n, number, read⟩ | null
  · exact number ▸ .number read
  · exact null ▸ .null

/-! ## Control characters -/

/-- Whether a text is free of control characters. -/
def Plain (s : List Char) : Prop := ∀ c ∈ s, 32 ≤ c.toNat

@[simp] theorem plain_append {s t : List Char} : Plain (s ++ t) ↔ Plain s ∧ Plain t :=
  List.forall_mem_append

@[simp] theorem plain_cons {c : Char} {s : List Char} : Plain (c :: s) ↔ 32 ≤ c.toNat ∧ Plain s :=
  List.forall_mem_cons

@[simp] theorem plain_nil : Plain [] := nofun

theorem lt_toNat_hexDigit {n : Nat} (lt : n < 16) : 32 < (hexDigit n).toNat := by
  interval_cases n <;> decide

/-- A control character is escaped, and no escape holds one. -/
theorem plain_escape (c : Char) : Plain (escape c) := by
  unfold escape
  split_ifs with _ _ _ _ _ _ _ control
  · simp
  · simp
  · simp
  · simp
  · simp
  · simp
  · simp
  · have high : 32 < (hexDigit (c.toNat / 16)).toNat := lt_toNat_hexDigit (by omega)
    have low : 32 < (hexDigit (c.toNat % 16)).toNat := lt_toNat_hexDigit (by omega)
    simp [high.le, low.le]
  · simpa using control

theorem plain_quoted (s : List Char) : Plain (quoted s) := by
  have content : Plain (s.flatMap escape) := by
    intro c mem
    obtain ⟨d, -, there⟩ := List.mem_flatMap.1 mem
    exact plain_escape d c there
  simp [quoted, content]

theorem plain_of_isNumeralChar {s : List Char} (h : ∀ c ∈ s, isNumeralChar c = true) : Plain s := by
  intro c mem
  have numeral := h c mem
  simp only [isNumeralChar, Numeral.isDigit, Bool.or_eq_true, Bool.and_eq_true, decide_eq_true_eq]
    at numeral
  rcases numeral with ((((digit | rfl) | rfl) | rfl) | rfl) | rfl
  · have least : '0'.toNat ≤ c.toNat := digit.1
    exact Nat.le_trans (by decide) least
  all_goals decide

theorem plain_printItems {js : List Json} (h : ∀ j ∈ js, Plain j.print) : Plain (printItems js) := by
  induction js with
  | nil => simp [printItems]
  | cons j js ih =>
    obtain ⟨first, others⟩ := List.forall_mem_cons.1 h
    cases js with
    | nil => simp [printItems, first]
    | cons k ks => simp [printItems, first, ih others]

theorem plain_printFields {fs : List (String × Json)} (h : ∀ f ∈ fs, Plain f.2.print) :
    Plain (printFields fs) := by
  induction fs with
  | nil => simp [printFields]
  | cons f fs ih =>
    obtain ⟨name, j⟩ := f
    obtain ⟨first, others⟩ := List.forall_mem_cons.1 h
    cases fs with
    | nil => simp [printFields, plain_quoted, first]
    | cons g gs => simp [printFields, plain_quoted, first, ih others]

/-- The text of a value holds no control character. -/
theorem Printable.plain {j : Json} (h : j.Printable) : Plain j.print := by
  induction h with
  | null => simp [Json.print]
  | bool b => cases b <;> simp [Json.print]
  | number h => exact plain_of_isNumeralChar (exists_cons_of_numeral? h).2
  | string s => exact plain_quoted s.toList
  | broken => simp [Json.print]
  | array h ih => simp [Json.print, plain_printItems ih]
  | object h ih => simp [Json.print, plain_printFields ih]

/-! ## Blanks -/

/-- A blank stands for itself, and no escape holds one. -/
theorem count_blank_escape (c : Char) : (escape c).count ' ' = [c].count ' ' := by
  unfold escape
  split_ifs with quote backslash newline feed tab back page control
  · subst quote
    rfl
  · subst backslash
    rfl
  · subst newline
    rfl
  · subst feed
    rfl
  · subst tab
    rfl
  · subst back
    rfl
  · subst page
    rfl
  · have other {d : Char} (h : d.toNat ≠ 32) : ' ' ≠ d := fun same => h (same ▸ rfl)
    have high := other (lt_toNat_hexDigit (n := c.toNat / 16) (by omega)).ne'
    have low := other (lt_toNat_hexDigit (n := c.toNat % 16) (by omega)).ne'
    rw [List.count_eq_zero.2 (by simp [high, low]),
      List.count_eq_zero.2 (by simpa using other control.ne)]
  · rfl

theorem count_blank_quoted (s : List Char) : (quoted s).count ' ' = s.count ' ' := by
  have content : (s.flatMap escape).count ' ' = s.count ' ' := by
    induction s with
    | nil => rfl
    | cons c s ih =>
      rw [List.flatMap_cons, List.count_append, count_blank_escape, ih, ← List.count_append]
      rfl
  simp [quoted, content]

/-- The blanks in an object are those of its names and values. -/
theorem count_blank_printFields (fs : List (String × Json)) : (printFields fs).count ' '
    = (fs.map fun f => f.1.toList.count ' ' + f.2.print.count ' ').sum := by
  induction fs with
  | nil => rfl
  | cons f fs ih =>
    obtain ⟨name, j⟩ := f
    cases fs with
    | nil => simp [printFields, count_blank_quoted]
    | cons g gs =>
      simp only [List.map_cons, List.sum_cons] at ih ⊢
      simp [printFields, count_blank_quoted, ih, Nat.add_assoc]

theorem count_blank_number {text : List Char} {n : Numeral} (h : numeral? text = some (n, [])) :
    (Json.number text).print.count ' ' = 0 :=
  List.count_eq_zero.2 fun mem =>
    absurd ((exists_cons_of_numeral? h).2 ' ' mem) Bool.false_ne_true

theorem count_blank_ofNat (n : Nat) : (ofNat n).print.count ' ' = 0 :=
  count_blank_number (numeral?_natText n)

theorem count_blank_ofFloat (x : Float) : (ofFloat x).print.count ' ' = 0 := by
  rcases ofFloat_cases x with ⟨text, n, number, read⟩ | null
  · exact number ▸ count_blank_number read
  · exact null ▸ rfl

/-! ## Scores -/

/-- A value that stands for a score: a number that is read as the score, or `null` if the score is not
finite. -/
def IsScore (x : Float) (j : Json) : Prop :=
  if x.isFinite = true then j.float? = some x else j = .null

theorem isScore_ofFloat (x : Float) : IsScore x (ofFloat x) := by
  unfold IsScore
  split_ifs with finite
  · rw [float?_ofFloat, if_pos finite]
  · exact if_neg finite

end Json

namespace Alert

open Json

theorem printable_toJson (a : Alert) : a.toJson.Printable := by
  refine .object fun f mem => ?_
  have value : f.2 ∈ a.fieldValues := (List.of_mem_zip mem).2
  simp only [fieldValues, List.mem_cons, List.not_mem_nil, or_false] at value
  rcases value with h | h | h | h | h | h | h <;> rw [h]
  · exact .string _
  · exact printable_ofNat _
  · exact printable_ofFloat _
  · exact .string _
  · exact .string _
  · exact printable_ofFloat _
  · exact printable_ofFloat _

/-- Of an alert as a value each field is found by its name. -/
theorem ofJson?_toJson (a : Alert) : ofJson? a.toJson = ofFieldValues? a.fieldValues := by
  have found : fieldNames.mapM (uniqueField? (fieldNames.zip a.fieldValues)) = some a.fieldValues := by
    rfl
  rw [toJson, ofJson?, found]
  rfl

theorem ofName?_name_level (l : AlertLevel) : AlertLevel.ofName? l.name = some l := by
  cases l <;> rfl

theorem ofName?_name_agreement (a : Agreement) : Agreement.ofName? a.name = some a := by
  cases a <;> rfl

/-- Whether all scores of an alert are finite, so that they have a text. -/
def isFinite (a : Alert) : Bool :=
  a.score.isFinite && a.primaryScore.isFinite && a.secondaryScore.isFinite

/-- **A line is read back as the alert it was made of exactly if the scores are finite.** Otherwise it
is not read at all: what is not finite is written as `null`, and no score is read from that. -/
theorem parse?_line (a : Alert) : parse? a.line = if a.isFinite = true then some a else none := by
  rw [parse?, line, parse?_render a.printable_toJson]
  simp only [Option.bind_eq_bind, Option.bind_some]
  rw [ofJson?_toJson, fieldValues, ofFieldValues?, word?_ofNat, float?_ofFloat, float?_ofFloat,
    float?_ofFloat]
  have level : caseName? (.string a.level.name) = some a.level.name := rfl
  have agreement : caseName? (.string a.agreement.name) = some a.agreement.name := rfl
  rw [level, agreement]
  simp only [Option.bind_eq_bind, Option.bind_some, ofName?_name_level, ofName?_name_agreement,
    isFinite, string?]
  by_cases common : a.score.isFinite = true <;> by_cases first : a.primaryScore.isFinite = true <;>
    by_cases second : a.secondaryScore.isFinite = true <;> simp [common, first, second]

theorem plain_line (a : Alert) : Plain a.line.toList := by
  rw [line, render, String.toList_ofList]
  exact a.printable_toJson.plain

/-- Only the reason can hold a blank. -/
theorem count_blank_line (a : Alert) : a.line.toList.count ' ' = a.reason.toList.count ' ' := by
  have level : a.level.name.toList.count ' ' = 0 := by cases a.level <;> rfl
  have agreement : a.agreement.name.toList.count ' ' = 0 := by cases a.agreement <;> rfl
  have text : a.line.toList = '\x7b' :: printFields (fieldNames.zip a.fieldValues) := by
    rw [line, render, String.toList_ofList]
    rfl
  rw [text, List.count_cons_of_ne (by decide), count_blank_printFields]
  simp [fieldNames, fieldValues, Json.print, count_blank_quoted, count_blank_ofNat,
    count_blank_ofFloat, level, agreement]

/-! ## The text of an alert -/

/-- A text is the compact JSON text of an alert. It is that of an object with exactly the seven
fields in their order, it is read back as the alert if the scores are finite, it is a single line, and
there are no blanks but those of the reason. -/
structure IsWrittenAs (a : Alert) (text : String) : Prop where
  fields : ∃ level timestamp score agreement primaryScore secondaryScore,
    Json.parse? text = some (.object
      [("level", .string level), ("timestamp", timestamp), ("anomaly_score", score),
        ("reason", .string a.reason), ("model_agreement", .string agreement),
        ("if_score", primaryScore), ("svm_score", secondaryScore)]) ∧
    (a.level, level) ∈ [(.normal, "NORMAL"), (.warning, "WARNING"), (.critical, "CRITICAL")] ∧
    (a.agreement, agreement) ∈ [(.both, "both"), (.single, "single"), (.none, "none")] ∧
    timestamp.word? = some a.timestamp ∧ IsScore a.score score ∧
    IsScore a.primaryScore primaryScore ∧ IsScore a.secondaryScore secondaryScore
  readBack : parse? text = if a.isFinite = true then some a else none
  oneLine : ∀ c ∈ text.toList, 32 ≤ c.toNat
  compact : text.toList.count ' ' = a.reason.toList.count ' '

/-- **The line of an alert is its text.** -/
theorem isWrittenAs_line (a : Alert) : a.IsWrittenAs a.line where
  fields := by
    refine ⟨a.level.name, .ofNat a.timestamp.toNat, .ofFloat a.score, a.agreement.name,
      .ofFloat a.primaryScore, .ofFloat a.secondaryScore, parse?_render a.printable_toJson, ?_, ?_,
      word?_ofNat a.timestamp, isScore_ofFloat _, isScore_ofFloat _, isScore_ofFloat _⟩
    · cases a.level <;> simp [AlertLevel.name]
    · cases a.agreement <;> simp [Agreement.name]
  readBack := a.parse?_line
  oneLine := a.plain_line
  compact := a.count_blank_line

end Alert

end CounterWatch
