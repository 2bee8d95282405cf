import CounterWatch.Toml.Text
import Mathlib.Tactic.IntervalCases
import Mathlib.Tactic.SplitIfs

/-!
# TOML strings, read back

A string is written in one of four forms, and is read back from each of them.

* `Toml.Shows` says that a text is one character of a basic string, as it stands or by an escape. A
  reader takes such a text for its character (`basicRest_of_shows`, `basicLinesRest_of_shows`).
* `Toml.lead_basicLines` and `Toml.lead_of_longestRun` say that no three quotes in a row stand in a
  string over several lines before its end, so that the first three end it (`closing?_of_lead`,
  `closing?_end`).
* `Toml.text?_encode` is the result, and `Toml.not_mem_encode` says that no carriage return is written,
  since line ends are unified before anything is read.
-/

namespace CounterWatch

namespace Toml

/-! ## Characters of basic strings -/

/-- A text is one character of a basic string: the character as it stands, or an escape for it. -/
def Shows (c : Char) (t : List Char) : Prop :=
  (t = [c] ∧ isPlain c = true ∧ c ≠ '\\' ∧ c ≠ '"') ∨
    ∃ d s, t = '\\' :: d :: s ∧ isGap d = false ∧ ∀ rest, escape? (d :: s ++ rest) = some (c, rest)

theorem shows_quote : Shows '"' ['\\', '"'] := .inr ⟨'"', [], rfl, by decide, fun _ => rfl⟩

theorem shows_lineFeed : Shows '\n' ['\\', 'n'] := .inr ⟨'n', [], rfl, by decide, fun _ => rfl⟩

theorem toNat_of_control {c : Char} (control : isPlain c = false) : c.toNat < 32 ∨ c.toNat = 127 := by
  simp only [isPlain, Bool.or_eq_false_iff, Bool.and_eq_false_iff, decide_eq_false_iff_not] at control
  omega

/-- A control character is written by its number. -/
theorem escape?_hex {c : Char} (control : isPlain c = false) (rest : List Char) :
    escape? (['u', '0', '0', upperHexDigit (c.toNat / 16), upperHexDigit (c.toNat % 16)] ++ rest)
      = some (c, rest) := by
  have number := toNat_of_control control
  generalize known : c.toNat = n at number ⊢
  obtain rfl : c = Char.ofNat n := by rw [← known, Char.ofNat_toNat]
  rcases number with small | rfl
  · interval_cases n <;> rfl
  · rfl

/-- A character is written so that it is read back. -/
theorem shows_escaped {c : Char} (other : c ≠ '"') : Shows c (escaped c) := by
  unfold escaped
  split_ifs with backslash back tab page ret plain
  · subst backslash
    exact .inr ⟨'\\', [], rfl, by decide, fun _ => rfl⟩
  · subst back
    exact .inr ⟨'b', [], rfl, by decide, fun _ => rfl⟩
  · subst tab
    exact .inr ⟨'t', [], rfl, by decide, fun _ => rfl⟩
  · subst page
    exact .inr ⟨'f', [], rfl, by decide, fun _ => rfl⟩
  · subst ret
    exact .inr ⟨'r', [], rfl, by decide, fun _ => rfl⟩
  · exact .inl ⟨rfl, plain, backslash, other⟩
  · exact .inr ⟨'u', _, rfl, by decide, escape?_hex (by simpa using plain)⟩

theorem shows_basicChar (c : Char) : Shows c (basicChar c) := by
  unfold basicChar
  split_ifs with quote feed
  · subst quote
    exact shows_quote
  · subst feed
    exact shows_lineFeed
  · exact shows_escaped quote

/-! ## Strings on one line -/

theorem basicRest_of_escape? {s rest : List Char} {c : Char} (h : escape? s = some (c, rest)) :
    basicRest ('\\' :: s) = (basicRest rest).map (before c) := by
  rw [basicRest]
  split
  case h_1 none =>
    rw [none] at h
    cases h
  case h_2 d t found =>
    rw [found] at h
    cases h
    rfl

theorem basicRest_of_shows {c : Char} {t : List Char} (h : Shows c t) (rest : List Char) :
    basicRest (t ++ rest) = (basicRest rest).map (before c) := by
  rcases h with ⟨rfl, plain, backslash, quote⟩ | ⟨d, s, rfl, -, read⟩
  · rw [List.singleton_append, basicRest, if_pos plain]
    · exact quote
    · exact backslash
  · exact basicRest_of_escape? (read rest)

/-- A basic string on one line is read up to its closing quote. -/
theorem basicRest_flatMap (s rest : List Char) :
    basicRest (s.flatMap basicChar ++ '"' :: rest) = some (s, rest) := by
  induction s with
  | nil => rw [List.flatMap_nil, List.nil_append, basicRest]
  | cons c s ih =>
    rw [List.flatMap_cons, List.append_assoc, basicRest_of_shows (shows_basicChar c), ih]
    rfl

/-- A literal string on one line is read up to its closing quote. -/
theorem literalRest_append {s : List Char} (plain : ∀ c ∈ s, isPlain c = true) (quote : '\'' ∉ s)
    (rest : List Char) : literalRest (s ++ '\'' :: rest) = some (s, rest) := by
  induction s with
  | nil => rfl
  | cons c s ih =>
    obtain ⟨first, others⟩ := List.forall_mem_cons.1 plain
    rw [List.mem_cons, not_or] at quote
    rw [List.cons_append, literalRest, if_pos first, ih others quote.2]
    · rfl
    · exact Ne.symm quote.1

/-! ## Strings over several lines -/

variable {quote : Char} {rest : List Char}

/-- Fewer than three quotes in a row end no string. -/
theorem closing?_of_lead {j : Nat} (le : j ≤ 2) {c : Char} (other : c ≠ quote) (rest : List Char) :
    closing? quote (List.replicate j quote ++ c :: rest) = none := by
  unfold closing?
  split
  case h_1 a b d tail same =>
    rw [if_neg]
    rintro ⟨rfl, rfl, rfl⟩
    interval_cases j <;> simp_all [List.replicate]
  case h_2 => rfl

/-- The quotes that end a string may follow one or two that belong to it. -/
theorem closing?_end {k : Nat} (le : k ≤ 2) (stop : rest.head? ≠ some quote) :
    closing? quote (List.replicate k quote ++ quote :: quote :: quote :: rest)
      = some (List.replicate k quote, rest) := by
  interval_cases k
  · cases rest with
    | nil => simp [closing?]
    | cons d rest =>
      have other : d ≠ quote := fun same => stop (congrArg some same)
      cases rest <;> simp [closing?, other]
  · cases rest with
    | nil => simp [closing?]
    | cons d rest =>
      have other : d ≠ quote := fun same => stop (congrArg some same)
      simp [closing?, other]
  · simp [closing?, List.replicate]

/-! ### Basic strings -/

theorem basicLinesRest_of_closing? {s : List Char} {r : List Char × List Char}
    (h : closing? '"' s = some r) : basicLinesRest s = some r := by
  rw [basicLinesRest.eq_def, h]

/-- A character that neither escapes nor ends the string stands for itself. -/
theorem basicLinesRest_cons {c : Char} (inside : closing? '"' (c :: rest) = none)
    (plain : (isPlain c || c = '\n') = true) (backslash : c ≠ '\\') :
    basicLinesRest (c :: rest) = (basicLinesRest rest).map (before c) := by
  rw [basicLinesRest.eq_def, inside]
  simp only
  rw [if_pos plain]

theorem basicLinesRest_of_shows {c : Char} {t : List Char} (h : Shows c t) (rest : List Char) :
    basicLinesRest (t ++ rest) = (basicLinesRest rest).map (before c) := by
  rcases h with ⟨rfl, plain, backslash, other⟩ | ⟨d, s, rfl, gap, read⟩
  · exact basicLinesRest_cons (closing?_of_lead (Nat.zero_le 2) other rest) (by rw [plain]; rfl)
      backslash
  · have inside : closing? '"' ('\\' :: (d :: s ++ rest)) = none :=
      closing?_of_lead (j := 0) (Nat.zero_le 2) (by decide) _
    have start : (d :: s ++ rest).dropWhile isBlank = d :: s ++ rest := by
      rw [List.cons_append, List.dropWhile_cons_of_neg]
      intro blank
      rw [isGap, blank] at gap
      cases gap
    rw [List.cons_append, basicLinesRest.eq_def, inside]
    simp only
    rw [start]
    split
    case h_1 feed =>
      rw [(List.cons.inj feed).1] at gap
      cases gap
    case h_2 =>
      split
      case h_1 none =>
        rw [read] at none
        cases none
      case h_2 found =>
        rw [read] at found
        cases found
        rfl

/-- What is written from a place on, `run` quotes standing before it, is at most two quotes in a row
with those; or it is at most two, and something else follows. -/
theorem lead_basicLines {run : Nat} (le : run ≤ 2) (s : List Char) :
    (∃ k, s = List.replicate k '"' ∧ basicLines run s = s ∧ run + k ≤ 2) ∨
      ∃ j c t, basicLines run s = List.replicate j '"' ++ c :: t ∧ c ≠ '"' ∧ run + j ≤ 2 := by
  induction s generalizing run with
  | nil => exact .inl ⟨0, rfl, rfl, le⟩
  | cons c s ih =>
    rw [basicLines]
    split_ifs with same full feed
    · exact .inr ⟨0, '\\', _, rfl, by decide, le⟩
    · subst same
      rcases ih (show run + 1 ≤ 2 by omega) with ⟨k, all, written, few⟩ | ⟨j, d, t, written, other, few⟩
      · exact .inl ⟨k + 1, by rw [List.replicate_succ, all], by rw [written], by omega⟩
      · exact .inr ⟨j + 1, d, t, by rw [written]; rfl, other, by omega⟩
    · exact .inr ⟨0, '\n', _, rfl, by decide, le⟩
    · rcases shows_escaped same with ⟨text, -, -, -⟩ | ⟨d, t, text, -, -⟩
      · exact .inr ⟨0, c, _, by rw [text]; rfl, same, le⟩
      · exact .inr ⟨0, '\\', _, by rw [text]; rfl, by decide, le⟩

/-- A basic string over several lines is read up to its closing quotes. -/
theorem basicLinesRest_basicLines (stop : rest.head? ≠ some '"') {run : Nat} (le : run ≤ 2)
    (s : List Char) :
    basicLinesRest (basicLines run s ++ '"' :: '"' :: '"' :: rest) = some (s, rest) := by
  induction s generalizing run with
  | nil => exact basicLinesRest_of_closing? (closing?_end (Nat.zero_le 2) stop)
  | cons c s ih =>
    -- either only quotes are left, which the closing ones follow, or three quotes do not come next
    rcases lead_basicLines le (c :: s) with ⟨k, all, written, few⟩ | ⟨j, d, t, written, other, few⟩
    · rw [written, all]
      exact basicLinesRest_of_closing? (closing?_end (by omega) stop)
    · have inside : closing? '"' (basicLines run (c :: s) ++ '"' :: '"' :: '"' :: rest) = none := by
        rw [written, List.append_assoc]
        exact closing?_of_lead (by omega) other _
      rw [basicLines] at inside ⊢
      split_ifs at inside ⊢ with same full feed
      · subst same
        show basicLinesRest (['\\', '"'] ++ (basicLines 0 s ++ '"' :: '"' :: '"' :: rest)) = _
        rw [basicLinesRest_of_shows shows_quote, ih (Nat.zero_le 2)]
        rfl
      · subst same
        rw [List.cons_append] at inside ⊢
        rw [basicLinesRest_cons inside (by decide) (by decide), ih (by omega)]
        rfl
      · subst feed
        rw [List.cons_append] at inside ⊢
        rw [basicLinesRest_cons inside (by decide) (by decide), ih (Nat.zero_le 2)]
        rfl
      · rw [List.append_assoc, basicLinesRest_of_shows (shows_escaped same), ih (Nat.zero_le 2)]
        rfl

/-! ### Literal strings -/

/-- A text without three quotes in a row, `run` quotes standing before it, is at most two quotes in a
row with those; or it starts with at most two, and something else follows. -/
theorem lead_of_longestRun {run : Nat} {s : List Char} (few : longestRun quote run s ≤ 2) :
    (∃ k, s = List.replicate k quote ∧ run + k ≤ 2) ∨
      ∃ j c t, s = List.replicate j quote ++ c :: t ∧ c ≠ quote ∧ run + j ≤ 2 := by
  induction s generalizing run with
  | nil => exact .inl ⟨0, rfl, few⟩
  | cons c s ih =>
    rw [longestRun] at few
    split_ifs at few with same
    · subst same
      rcases ih few with ⟨k, all, le⟩ | ⟨j, d, t, all, other, le⟩
      · exact .inl ⟨k + 1, by rw [List.replicate_succ, all], by omega⟩
      · exact .inr ⟨j + 1, d, t, by rw [all]; rfl, other, by omega⟩
    · exact .inr ⟨0, c, s, rfl, same, by omega⟩

theorem literalLinesRest_of_closing? {s : List Char} {r : List Char × List Char}
    (h : closing? '\'' s = some r) : literalLinesRest s = some r := by
  rw [literalLinesRest.eq_def, h]

/-- A literal string over several lines is read up to its closing quotes. -/
theorem literalLinesRest_append (stop : rest.head? ≠ some '\'') {run : Nat} {s : List Char}
    (few : longestRun '\'' run s ≤ 2) (plain : ∀ c ∈ s, (isPlain c || c = '\n') = true) :
    literalLinesRest (s ++ '\'' :: '\'' :: '\'' :: rest) = some (s, rest) := by
  induction s generalizing run with
  | nil => exact literalLinesRest_of_closing? (closing?_end (Nat.zero_le 2) stop)
  | cons c s ih =>
    rcases lead_of_longestRun few with ⟨k, all, le⟩ | ⟨j, d, t, all, other, le⟩
    · rw [all]
      exact literalLinesRest_of_closing? (closing?_end (by omega) stop)
    · have inside : closing? '\'' (c :: (s ++ '\'' :: '\'' :: '\'' :: rest)) = none := by
        rw [← List.cons_append, all, List.append_assoc]
        exact closing?_of_lead (by omega) other _
      obtain ⟨first, others⟩ := List.forall_mem_cons.1 plain
      have tail : ∃ run, longestRun '\'' run s ≤ 2 := by
        rw [longestRun] at few
        split_ifs at few
        · exact ⟨_, few⟩
        · exact ⟨0, by omega⟩
      obtain ⟨run, few⟩ := tail
      rw [List.cons_append, literalLinesRest.eq_def, inside]
      simp only
      rw [if_pos first, ih few others]
      rfl

/-! ## The four forms -/

theorem dropLineEnd_of_head? {s : List Char} (h : s.head? ≠ some '\n') : dropLineEnd s = s := by
  unfold dropLineEnd
  split
  case h_1 => exact absurd rfl h
  case h_2 => rfl

/-- The line end that a string over several lines starts with is taken for none of its own. -/
theorem dropLineEnd_leadingLineEnd {s t : List Char} (h : '\n' ∉ s → t.head? ≠ some '\n') :
    dropLineEnd (leadingLineEnd s ++ t) = t := by
  unfold leadingLineEnd
  split_ifs with feed
  · rfl
  · exact dropLineEnd_of_head? (h (by simpa using feed))

/-- A string on one line that does not start with its own quote is not taken for one over several
lines. -/
theorem text?_of_line (stop : rest.head? ≠ some quote) {s : List Char} (h : s.head? ≠ some quote) :
    text? (quote :: (s ++ quote :: rest)) = lineText? (quote :: (s ++ quote :: rest)) := by
  have single : ∀ tail, s ++ quote :: rest ≠ quote :: quote :: tail := by
    intro tail same
    cases s with
    | nil => exact stop (by rw [(List.cons.inj same).2]; rfl)
    | cons c s => exact h (by rw [(List.cons.inj same).1]; rfl)
  rw [text?]
  · intro tail same
    obtain ⟨rfl, same⟩ := List.cons.inj same
    exact single tail same
  · intro tail same
    obtain ⟨rfl, same⟩ := List.cons.inj same
    exact single tail same

theorem head?_flatMap_basicChar (s : List Char) : (s.flatMap basicChar).head? ≠ some '"' := by
  cases s with
  | nil => simp
  | cons c s =>
    rcases shows_basicChar c with ⟨text, -, -, quote⟩ | ⟨d, s, text, -, -⟩ <;>
      simp [List.flatMap_cons, *]

theorem head?_basicLines {s : List Char} (feed : '\n' ∉ s) (run : Nat) (t : List Char) :
    (basicLines run s ++ '"' :: t).head? ≠ some '\n' := by
  cases s with
  | nil => simp [basicLines]
  | cons c s =>
    rw [List.mem_cons, not_or] at feed
    rw [basicLines]
    split_ifs with quote full same
    · simp
    · simp
    · exact absurd same.symm feed.1
    · rcases shows_escaped quote with ⟨text, -, -, -⟩ | ⟨d, t, text, -, -⟩
      · simpa [text] using Ne.symm feed.1
      · simp [text]

/-- What is known of a string by the form that is chosen for it. -/
theorem formOf_spec (s : List Char) :
    match formOf s with
    | .basic | .basicLines => True
    | .literal => (∀ c ∈ s, isPlain c = true) ∧ '\'' ∉ s
    | .literalLines =>
      (∀ c ∈ s, (isPlain c || c = '\n') = true) ∧ longestRun '\'' 0 s ≤ 2 := by
  have whole (none : s.any needsEscape = false) : ∀ c ∈ s, (isPlain c || c = '\n') = true := by
    intro c mem
    have free := List.any_eq_false.1 none c mem
    simp only [needsEscape] at free
    grind
  unfold formOf
  dsimp only
  split_ifs with basic literal lines literalLines feed
  · trivial
  · simp only [Bool.and_eq_true, Bool.not_eq_true', List.contains_eq_mem, decide_eq_false_iff_not]
      at literal
    obtain ⟨⟨none, quote⟩, feed⟩ := literal
    refine ⟨fun c mem => ?_, quote⟩
    have plain := whole none c mem
    grind
  · trivial
  · simp only [Bool.and_eq_true, Bool.not_eq_true', decide_eq_true_eq] at literalLines
    exact ⟨whole literalLines.1, literalLines.2⟩
  · trivial
  · trivial

/-- A string is read back, up to where what follows it starts. -/
theorem text?_encode (s : List Char) (quote : rest.head? ≠ some '"')
    (single : rest.head? ≠ some '\'') : text? (encode s ++ rest) = some (s, rest) := by
  have spec := formOf_spec s
  unfold encode
  cases form : formOf s with
  | basic =>
    simp only [List.cons_append, List.append_assoc, List.nil_append]
    rw [text?_of_line quote (head?_flatMap_basicChar s)]
    exact basicRest_flatMap s rest
  | literal =>
    rw [form] at spec
    obtain ⟨plain, other⟩ := spec
    have start : s.head? ≠ some '\'' := fun same => other (List.mem_of_head? same)
    simp only [List.cons_append, List.append_assoc, List.nil_append]
    rw [text?_of_line single start]
    exact literalRest_append plain other rest
  | basicLines =>
    simp only [List.cons_append, List.append_assoc, List.nil_append]
    rw [text?, dropLineEnd_leadingLineEnd]
    · exact basicLinesRest_basicLines quote (Nat.zero_le 2) s
    · exact fun feed => head?_basicLines feed 0 _
  | literalLines =>
    rw [form] at spec
    obtain ⟨plain, few⟩ := spec
    simp only [List.cons_append, List.append_assoc, List.nil_append]
    rw [text?, dropLineEnd_leadingLineEnd]
    · exact literalLinesRest_append single few plain
    · intro feed start
      rw [List.head?_append] at start
      cases s <;> simp_all

/-! ## No carriage returns -/

theorem isPlain_upperHexDigit {n : Nat} (h : n < 16) : isPlain (upperHexDigit n) = true := by
  interval_cases n <;> rfl

theorem all_isPlain_escaped (c : Char) : (escaped c).all isPlain = true := by
  unfold escaped
  split_ifs with backslash back tab page ret plain
  · rfl
  · rfl
  · rfl
  · rfl
  · rfl
  · simpa using plain
  · have small := toNat_of_control (by simpa using plain)
    have high := isPlain_upperHexDigit (show c.toNat / 16 < 16 by omega)
    have low := isPlain_upperHexDigit (show c.toNat % 16 < 16 by omega)
    simp only [List.all_cons, high, low]
    rfl

theorem not_mem_escaped (c : Char) : '\r' ∉ escaped c := fun mem =>
  absurd (List.all_eq_true.1 (all_isPlain_escaped c) _ mem) (by decide)

theorem not_mem_basicChar (c : Char) : '\r' ∉ basicChar c := by
  unfold basicChar
  split_ifs
  · decide
  · decide
  · exact not_mem_escaped c

theorem not_mem_basicLines (run : Nat) (s : List Char) : '\r' ∉ basicLines run s := by
  induction s generalizing run with
  | nil => exact List.not_mem_nil
  | cons c s ih =>
    rw [basicLines]
    split_ifs <;> simp [ih, not_mem_escaped]

theorem not_mem_leadingLineEnd (s : List Char) : '\r' ∉ leadingLineEnd s := by
  unfold leadingLineEnd
  split_ifs <;> decide

/-- No carriage return is written: one in a string has an escape. -/
theorem not_mem_encode (s : List Char) : '\r' ∉ encode s := by
  have spec := formOf_spec s
  unfold encode
  cases form : formOf s with
  | basic => simp [not_mem_basicChar]
  | literal =>
    rw [form] at spec
    have free : '\r' ∉ s := fun mem => absurd (spec.1 _ mem) (by decide)
    simp [free]
  | basicLines => simp [not_mem_basicLines, not_mem_leadingLineEnd]
  | literalLines =>
    rw [form] at spec
    have free : '\r' ∉ s := fun mem => absurd (spec.1 _ mem) (by decide)
    simp [free, not_mem_leadingLineEnd]

end Toml

end CounterWatch
