import CounterWatch.Json.Parser
import CounterWatch.Json.Printer
import CounterWatch.Proofs.NumberText

/-!
# JSON, read back

The compact text of a value is read back as that value, whatever follows it that does not continue a
number. The proof goes by the parts of a text, and each part is read up to its own end:

* `Json.stringRest_escape` is one character of a string, and `Json.stringRest_flatMap` all of them.
* `Json.leaves_numeral?` says that a numeral is made of characters of numbers alone, so that a number
  ends where such characters do.
* `Json.items_printItems` and `Json.fields_printFields` are the inductions over arrays and objects.
* `Json.parse?_render` is the result.
-/

namespace CounterWatch

namespace Json

open Numeral

/-! ## Strings -/

/-- An escaped unit that is no surrogate stands for its character, whatever follows it. -/
theorem stringRest_unit {a b c d : Char} {u : Nat} (h : unit? a b c d = some u) (low : u < 0xd800)
    (rest : List Char) : stringRest ('\\' :: 'u' :: a :: b :: c :: d :: rest)
      = (stringRest rest).map (StringContent.cons (Char.ofNat u)) := by
  by_cases pair : ∃ e f g i tail, rest = '\\' :: 'u' :: e :: f :: g :: i :: tail
  · obtain ⟨e, f, g, i, tail, rfl⟩ := pair
    rw [stringRest.eq_3, h]
    exact if_pos (.inl low)
  · rw [stringRest.eq_4 _ _ _ _ _ fun e f g i tail same => pair ⟨e, f, g, i, tail, same⟩, h]
    cases stringRest rest with
    | none => rfl
    | some r => exact if_pos (.inl low)

/-- An escaped character stands for itself. -/
theorem stringRest_escape (c : Char) (rest : List Char) :
    stringRest (escape c ++ rest) = (stringRest rest).map (StringContent.cons c) := by
  unfold escape
  split_ifs with quote backslash newline feed tab back page control
  · subst quote
    rfl
  · subst backslash
    rfl
  · subst newline
    rfl
  · subst feed
    rfl
  · subst tab
    rfl
  · subst back
    rfl
  · subst page
    rfl
  · have unit : unit? '0' '0' (hexDigit (c.toNat / 16)) (hexDigit (c.toNat % 16))
        = some c.toNat := by
      generalize c.toNat = n at control
      interval_cases n <;> rfl
    have same : Char.ofNat c.toNat = c := Char.ofNat_toNat c
    rw [← same]
    conv_lhs => rw [same]
    exact stringRest_unit unit (by omega) rest
  · show stringRest (c :: rest) = _
    rw [stringRest.eq_6 c rest quote (fun _ _ _ _ _ _ _ _ _ same => absurd same backslash)
      (fun _ _ _ _ _ same => absurd same backslash) (fun _ _ same => absurd same backslash)]
    exact if_neg (not_or.2 ⟨control, backslash⟩)

/-- A string is read up to the quote at its end. -/
theorem stringRest_flatMap (s rest : List Char) :
    stringRest (s.flatMap escape ++ '"' :: rest) = some (some s, rest) := by
  induction s with
  | nil => rfl
  | cons c s ih =>
    rw [List.flatMap_cons, List.append_assoc, stringRest_escape, ih]
    rfl

/-! ## Numbers -/

/-- What is left of a text once some characters of a number are taken from it. -/
def Leaves (s rest : List Char) : Prop := ∃ t, s = t ++ rest ∧ ∀ c ∈ t, isNumeralChar c = true

theorem Leaves.refl (s : List Char) : Leaves s s := ⟨[], rfl, nofun⟩

theorem Leaves.trans {s t u : List Char} (h : Leaves s t) (g : Leaves t u) : Leaves s u := by
  obtain ⟨a, rfl, ha⟩ := h
  obtain ⟨b, rfl, hb⟩ := g
  refine ⟨a ++ b, (List.append_assoc ..).symm, fun c mem => ?_⟩
  exact (List.mem_append.1 mem).elim (ha c) (hb c)

theorem Leaves.cons {c : Char} {s rest : List Char} (hc : isNumeralChar c = true)
    (h : Leaves s rest) : Leaves (c :: s) rest := by
  obtain ⟨t, rfl, ht⟩ := h
  exact ⟨c :: t, rfl, List.forall_mem_cons.2 ⟨hc, ht⟩⟩

theorem leaves_digits (s : List Char) : Leaves s (digits s).2 := by
  refine ⟨_, List.takeWhile_append_dropWhile.symm, fun c mem => ?_⟩
  have digit : isDigit c = true := List.mem_takeWhile_imp mem
  rw [isNumeralChar, digit]
  rfl

theorem leaves_wholePart {s d rest : List Char} (h : wholePart s = some (d, rest)) :
    Leaves s rest := by
  have left := leaves_digits s
  unfold wholePart at h
  cases run : digits s with
  | mk ds t =>
    rw [run] at h left
    simp only at h
    split at h
    · cases h
    · cases h
      exact left
    · cases h
    · cases h
      exact left

theorem leaves_fractionPart {s d rest : List Char} (h : fractionPart s = some (d, rest)) :
    Leaves s rest := by
  unfold fractionPart at h
  split at h
  case h_1 tail =>
    have left := leaves_digits tail
    cases run : digits tail with
    | mk ds t =>
      rw [run] at h left
      simp only at h
      split at h
      · cases h
      · cases h
        exact left.cons rfl
  case h_2 =>
    cases h
    exact .refl s

theorem leaves_signed (s : List Char) : Leaves s (signed s).2 := by
  unfold signed
  split
  · exact (Leaves.refl _).cons rfl
  · exact (Leaves.refl _).cons rfl
  · exact .refl s

theorem leaves_exponentPart {s d rest : List Char} {lowers : Bool}
    (h : exponentPart s = some (lowers, d, rest)) : Leaves s rest := by
  unfold exponentPart at h
  split at h
  case h_1 c tail =>
    by_cases mark : c = 'e' ∨ c = 'E'
    · have left := (leaves_signed tail).trans (leaves_digits _)
      have here : isNumeralChar c = true := by rcases mark with rfl | rfl <;> rfl
      cases sign : signed tail with
      | mk l t =>
        cases run : digits t with
        | mk ds u =>
          simp only [sign, run] at h left
          rw [if_pos mark] at h
          split at h
          · cases h
          · cases h
            exact left.cons here
    · rw [if_neg mark] at h
      cases h
      exact .refl _
  case h_2 =>
    cases h
    exact .refl _

/-- A numeral is made of characters of numbers. -/
theorem leaves_numeral? {s rest : List Char} {n : Numeral} (h : numeral? s = some (n, rest)) :
    Leaves s rest := by
  unfold numeral? at h
  simp only [Option.bind_eq_bind, Option.bind_eq_some_iff] at h
  obtain ⟨⟨whole, t⟩, hw, ⟨fraction, u⟩, hf, ⟨lowers, exponent, v⟩, he, same⟩ := h
  cases same
  have parts := ((leaves_wholePart hw).trans (leaves_fractionPart hf)).trans (leaves_exponentPart he)
  split at parts
  · exact parts.cons rfl
  · exact parts

/-! ## Values -/

/-- A value whose numbers are numerals. -/
inductive Printable : Json → Prop where
  | null : Printable .null
  | bool (b : Bool) : Printable (.bool b)
  | number {text : List Char} {n : Numeral} (h : numeral? text = some (n, [])) :
    Printable (.number text)
  | string (s : String) : Printable (.string s)
  | broken : Printable .broken
  | array {js : List Json} (h : ∀ j ∈ js, Printable j) : Printable (.array js)
  | object {fs : List (String × Json)} (h : ∀ f ∈ fs, Printable f.2) : Printable (.object fs)

/-- A text that does not continue a number. -/
def Stops (rest : List Char) : Prop := ∀ c ∈ rest.head?, isNumeralChar c = false

/-- A value that is read from its text, whatever follows it. -/
def ReadsBack (j : Json) : Prop := ∀ (fuel : Nat) (rest : List Char), j.print.length ≤ fuel →
  Stops rest → value fuel (j.print ++ rest) = some (j, rest)

/-- To read a value there must be a token to read. -/
theorem readsBack_of_succ {j : Json} (some : j.print ≠ [])
    (h : ∀ fuel rest, j.print.length ≤ fuel + 1 → Stops rest →
      value (fuel + 1) (j.print ++ rest) = .some (j, rest)) : ReadsBack j := by
  intro fuel rest enough stop
  have pos := List.length_pos_of_ne_nil some
  obtain ⟨k, rfl⟩ : ∃ k, fuel = k + 1 := ⟨fuel - 1, by omega⟩
  exact h k rest enough stop

theorem isBlank_of_isNumeralChar {c : Char} (h : isNumeralChar c = true) : isBlank c = false := by
  rw [← Bool.not_eq_true]
  intro blank
  simp only [isBlank, Bool.or_eq_true, decide_eq_true_eq] at blank
  rcases blank with ((rfl | rfl) | rfl) | rfl <;> cases h

theorem skipBlank_cons {c : Char} {s : List Char} (h : isBlank c = false) :
    skipBlank (c :: s) = c :: s := by
  rw [skipBlank, List.dropWhile_cons_of_neg (by rw [h]; exact Bool.false_ne_true)]

/-- A whole numeral has a first character, and all its characters are those of numbers. -/
theorem exists_cons_of_numeral? {text : List Char} {n : Numeral} (h : numeral? text = some (n, [])) :
    (∃ c s, text = c :: s) ∧ ∀ c ∈ text, isNumeralChar c = true := by
  obtain ⟨t, rfl, chars⟩ := leaves_numeral? h
  rw [List.append_nil] at h ⊢
  refine ⟨?_, chars⟩
  cases t with
  | nil => cases h
  | cons c s => exact ⟨c, s, rfl⟩

/-- The text of a value starts with a character that is no blank and ends no array. -/
theorem Printable.exists_cons {j : Json} (h : j.Printable) :
    ∃ c s, j.print = c :: s ∧ isBlank c = false ∧ c ≠ ']' := by
  cases h with
  | bool b => cases b <;> exact ⟨_, _, rfl, rfl, by decide⟩
  | number h =>
    obtain ⟨⟨c, s, rfl⟩, chars⟩ := exists_cons_of_numeral? h
    have first := chars c List.mem_cons_self
    exact ⟨c, s, rfl, isBlank_of_isNumeralChar first, ne_of_kind first rfl⟩
  | null | string | broken | array | object => exact ⟨_, _, rfl, rfl, by decide⟩

theorem readsBack_number {text : List Char} {n : Numeral} (h : numeral? text = some (n, [])) :
    ReadsBack (.number text) := by
  obtain ⟨⟨c, s, rfl⟩, chars⟩ := exists_cons_of_numeral? h
  have first := chars c List.mem_cons_self
  refine readsBack_of_succ (List.cons_ne_nil c s) fun fuel rest enough stop => ?_
  obtain ⟨taken, dropped⟩ := run_append chars stop
  have other {d : Char} {t : List Char} (hd : isNumeralChar d = false) : (c :: s) ++ rest ≠ d :: t :=
    fun same => ne_of_kind first hd (List.cons.inj same).1
  have start : skipBlank ((c :: s) ++ rest) = (c :: s) ++ rest :=
    skipBlank_cons (isBlank_of_isNumeralChar first)
  show value (fuel + 1) ((c :: s) ++ rest) = _
  rw [value, start]
  split
  case h_7 => rw [taken, dropped, h]
  all_goals
    next same => exact absurd same (other rfl)

theorem readsBack_string (s : String) : ReadsBack (.string s) := by
  refine readsBack_of_succ (List.cons_ne_nil _ _) fun fuel rest enough stop => ?_
  have text : Json.print (.string s) ++ rest = '"' :: (s.toList.flatMap escape ++ '"' :: rest) := by
    simp [Json.print, quoted]
  rw [text, value, skipBlank_cons rfl]
  simp only [stringRest_flatMap, Option.map_some, ofContent, String.ofList_toList]

/-- The items of an array are read back up to its end. -/
theorem items_printItems {js : List Json} (h : ∀ j ∈ js, ReadsBack j) (some : js ≠ [])
    {fuel : Nat} (enough : (printItems js).length ≤ fuel) (rest : List Char) :
    items fuel (printItems js ++ rest) = .some (js, rest) := by
  induction js generalizing fuel with
  | nil => exact absurd rfl some
  | cons j js ih =>
    have here := h j List.mem_cons_self
    cases js with
    | nil =>
      rw [printItems, List.length_append, List.length_singleton] at enough
      obtain ⟨fuel, rfl⟩ : ∃ k, fuel = k + 1 := ⟨fuel - 1, by omega⟩
      have first := here fuel (']' :: rest) (by omega) (by rintro c ⟨⟩; rfl)
      rw [printItems, List.append_assoc, List.singleton_append, items, first]
      rfl
    | cons k ks =>
      rw [printItems, List.length_append, List.length_cons] at enough
      · obtain ⟨fuel, rfl⟩ : ∃ k, fuel = k + 1 := ⟨fuel - 1, by omega⟩
        have first := here fuel (',' :: (printItems (k :: ks) ++ rest)) (by omega)
          (by rintro c ⟨⟩; rfl)
        have others : items fuel (printItems (k :: ks) ++ rest) = .some (k :: ks, rest) :=
          ih (fun j mem => h j (List.mem_cons_of_mem _ mem)) (List.cons_ne_nil _ _) (by omega)
        rw [printItems, List.append_assoc, List.cons_append, items, first]
        · simp only [Option.bind_eq_bind, Option.bind_some, skipBlank_cons (show isBlank ',' = false from rfl), others]
          rfl
        · exact nofun
      · exact nofun

theorem quoted_append (s t : List Char) :
    quoted s ++ t = '"' :: (s.flatMap escape ++ '"' :: t) := by
  simp [quoted]

section

variable {j : Json} (h : j.ReadsBack) (name : String) {fuel : Nat}
  (enough : j.print.length ≤ fuel) (rest : List Char)

include h enough

theorem fields_last : fields (fuel + 1) (quoted name.toList ++ ':' :: (j.print ++ '\x7d' :: rest))
    = some (some [(name, j)], rest) := by
  have value := h fuel ('\x7d' :: rest) enough (by rintro c ⟨⟩; rfl)
  rw [quoted_append, fields, skipBlank_cons rfl]
  simp only [Option.bind_eq_bind, Option.bind_some, stringRest_flatMap,
    skipBlank_cons (show isBlank ':' = false from rfl), value,
    skipBlank_cons (show isBlank '\x7d' = false from rfl)]
  simp [ObjectContent.cons]

theorem fields_comma : fields (fuel + 1) (quoted name.toList ++ ':' :: (j.print ++ ',' :: rest))
    = (fields fuel rest).map fun r => (ObjectContent.cons (some name.toList) j r.1, r.2) := by
  have value := h fuel (',' :: rest) enough (by rintro c ⟨⟩; rfl)
  rw [quoted_append, fields, skipBlank_cons rfl]
  simp only [Option.bind_eq_bind, Option.bind_some, stringRest_flatMap,
    skipBlank_cons (show isBlank ':' = false from rfl), value,
    skipBlank_cons (show isBlank ',' = false from rfl)]
  exact Option.map_eq_bind.symm

end

/-- The fields of an object are read back up to its end. -/
theorem fields_printFields {fs : List (String × Json)} (h : ∀ f ∈ fs, ReadsBack f.2)
    (some : fs ≠ []) {fuel : Nat} (enough : (printFields fs).length ≤ fuel) (rest : List Char) :
    fields fuel (printFields fs ++ rest) = .some (.some fs, rest) := by
  induction fs generalizing fuel with
  | nil => exact absurd rfl some
  | cons f fs ih =>
    obtain ⟨name, j⟩ := f
    have here : ReadsBack j := h (name, j) List.mem_cons_self
    cases fs with
    | nil =>
      have text : printFields [(name, j)] ++ rest
          = quoted name.toList ++ ':' :: (j.print ++ '\x7d' :: rest) := by
        simp [printFields]
      rw [printFields] at enough
      simp only [List.length_append, List.length_cons] at enough
      obtain ⟨fuel, rfl⟩ : ∃ k, fuel = k + 1 := ⟨fuel - 1, by omega⟩
      rw [text, fields_last here name (by omega)]
    | cons g gs =>
      have text : printFields ((name, j) :: g :: gs) ++ rest
          = quoted name.toList ++ ':' :: (j.print ++ ',' :: (printFields (g :: gs) ++ rest)) := by
        simp [printFields]
      rw [printFields] at enough
      · simp only [List.length_append, List.length_cons] at enough
        obtain ⟨fuel, rfl⟩ : ∃ k, fuel = k + 1 := ⟨fuel - 1, by omega⟩
        have others : fields fuel (printFields (g :: gs) ++ rest) = .some (.some (g :: gs), rest) :=
          ih (fun f mem => h f (List.mem_cons_of_mem _ mem)) (List.cons_ne_nil _ _) (by omega)
        rw [text, fields_comma here name (by omega), others]
        simp [ObjectContent.cons]
      · exact nofun

theorem readsBack_array {js : List Json} (h : ∀ j ∈ js, Printable j) (ih : ∀ j ∈ js, ReadsBack j) :
    ReadsBack (.array js) := by
  refine readsBack_of_succ (List.cons_ne_nil _ _) fun fuel rest enough stop => ?_
  rw [Json.print, List.length_cons] at enough
  rw [Json.print, List.cons_append, value, skipBlank_cons rfl]
  cases js with
  | nil => rfl
  | cons j js =>
    obtain ⟨c, s, first, blank, other⟩ := (h j List.mem_cons_self).exists_cons
    obtain ⟨t, text⟩ : ∃ t, printItems (j :: js) ++ rest = c :: t := by
      cases js with
      | nil => exact ⟨_, by rw [printItems, first]; rfl⟩
      | cons k ks => exact ⟨_, by rw [printItems, first]; rfl; exact nofun⟩
    have read := items_printItems ih (List.cons_ne_nil j js) (Nat.le_of_succ_le_succ enough) rest
    rw [text] at read ⊢
    simp only [skipBlank_cons blank]
    split
    case h_1 same => exact absurd (List.cons.inj same).1 other
    case h_2 =>
      rw [read]
      rfl

theorem readsBack_object {fs : List (String × Json)} (ih : ∀ f ∈ fs, ReadsBack f.2) :
    ReadsBack (.object fs) := by
  refine readsBack_of_succ (List.cons_ne_nil _ _) fun fuel rest enough stop => ?_
  rw [Json.print, List.length_cons] at enough
  rw [Json.print, List.cons_append, value, skipBlank_cons rfl]
  cases fs with
  | nil => rfl
  | cons f fs =>
    obtain ⟨name, j⟩ := f
    obtain ⟨t, text⟩ : ∃ t, printFields ((name, j) :: fs) ++ rest = '"' :: t := by
      cases fs with
      | nil => exact ⟨_, by rw [printFields]; rfl⟩
      | cons g gs => exact ⟨_, by rw [printFields]; rfl; exact nofun⟩
    have read := fields_printFields ih (List.cons_ne_nil _ fs) (Nat.le_of_succ_le_succ enough) rest
    rw [text] at read ⊢
    simp only [skipBlank_cons (show isBlank '"' = false from rfl)]
    show Option.map _ (fields fuel ('"' :: t)) = _
    rw [read]
    rfl

/-- A value is read back from its text. -/
theorem Printable.readsBack {j : Json} (h : j.Printable) : ReadsBack j := by
  induction h with
  | number h => exact readsBack_number h
  | string s => exact readsBack_string s
  | array h ih => exact readsBack_array h ih
  | object h ih => exact readsBack_object ih
  | null => exact readsBack_of_succ (List.cons_ne_nil _ _) fun _ _ _ _ => rfl
  | bool b =>
    cases b <;> exact readsBack_of_succ (List.cons_ne_nil _ _) fun _ _ _ _ => rfl
  | broken => exact readsBack_of_succ (List.cons_ne_nil _ _) fun _ _ _ _ => rfl

/-- **The text of a value is read back as that value**, whatever it is made of, if its numbers are
numerals. -/
theorem parse?_render {j : Json} (h : j.Printable) : parse? j.render = some j := by
  have read := h.readsBack (j.print.length + 1) [] (Nat.le_succ _) nofun
  rw [List.append_nil] at read
  rw [parse?, render, String.toList_ofList]
  simp only [read, Option.bind_eq_bind, Option.bind_some]
  rfl

end Json

end CounterWatch
