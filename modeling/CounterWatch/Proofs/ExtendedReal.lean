import CounterWatch.Proofs.Percentile

/-!
# Exact values with infinities

Over the real numbers every value is finite. What a model does with infinite and undefined values is
seen over the extended reals: operations on real numbers are exact, and the rules for the values
beyond them are those of numbers of 64 bits. A quotient by zero has the sign of the dividend.

* `ExtendedReal` has the instance. One rewriting lemma for each operation says what it is on real
  numbers, where that is a real number again.
* `ExtendedReal.Within` says that a value is real and lies in an interval.
* `ExtendedReal.percentile?_within` says that a percentile lies in an interval if the values do.
-/

namespace CounterWatch

/-- A real number, an infinity of either sign, or nothing that could be compared. -/
inductive ExtendedReal where
  | real (x : ℝ)
  | infinity (negative : Bool)
  | undefined

namespace ExtendedReal

open Classical in
/-- The sum. Opposite infinities have none. -/
noncomputable def add : ExtendedReal → ExtendedReal → ExtendedReal
  | real x, real y => real (x + y)
  | undefined, _ | _, undefined => undefined
  | infinity n, infinity m => if n = m then infinity n else undefined
  | infinity n, real _ | real _, infinity n => infinity n

/-- The opposite. -/
noncomputable def neg : ExtendedReal → ExtendedReal
  | real x => real (-x)
  | infinity n => infinity !n
  | undefined => undefined

open Classical in
/-- The product. Zero times infinity is not defined. -/
noncomputable def mul : ExtendedReal → ExtendedReal → ExtendedReal
  | real x, real y => real (x * y)
  | undefined, _ | _, undefined => undefined
  | infinity n, infinity m => infinity (n != m)
  | infinity n, real x | real x, infinity n =>
    if x = 0 then undefined else infinity (n != decide (x < 0))

open Classical in
/-- The quotient. Zero over zero and infinity over infinity are not defined. -/
noncomputable def div : ExtendedReal → ExtendedReal → ExtendedReal
  | real x, real y =>
    if y ≠ 0 then real (x / y) else if x = 0 then undefined else infinity (decide (x < 0))
  | undefined, _ | _, undefined | infinity _, infinity _ => undefined
  | infinity n, real y => infinity (n != decide (y < 0))
  | real _, infinity _ => real 0

/-- Whether one value is less than another one. -/
def Less : ExtendedReal → ExtendedReal → Prop
  | real x, real y => x < y
  | undefined, _ | _, undefined => False
  | infinity n, infinity m => n = true ∧ m = false
  | infinity n, real _ => n = true
  | real _, infinity n => n = false

/-- Whether one value is less than another one or the same. -/
def AtMost : ExtendedReal → ExtendedReal → Prop
  | real x, real y => x ≤ y
  | undefined, _ | _, undefined => False
  | infinity n, infinity m => n = true ∨ m = false
  | infinity n, real _ => n = true
  | real _, infinity n => n = false

open Classical in
/-- The order for sorting, with what cannot be compared at the end. -/
noncomputable def sortsBefore : ExtendedReal → ExtendedReal → Bool
  | _, undefined => true
  | x, y => decide (AtMost x y)

/-- What a function has at both infinities and on the real numbers, if it has it. -/
def lift (f : ℝ → ExtendedReal) (bottom top : ExtendedReal) : ExtendedReal → ExtendedReal
  | real x => f x
  | infinity true => bottom
  | infinity false => top
  | undefined => undefined

open Classical in
noncomputable instance : Scalar ExtendedReal where
  add := add
  sub x y := add x (neg y)
  mul := mul
  div := div
  neg := neg
  lt := Less
  le := AtMost
  ofScientific m s e := real (OfScientific.ofScientific m s e)
  decLt _ _ := Classical.propDecidable _
  decLe _ _ := Classical.propDecidable _
  sortLe := sortsBefore
  isFinite | real _ => true | _ => false
  ofNat n := real n
  floor | real x => ⌊x⌋₊ | _ => 0
  ceil | real x => ⌈x⌉₊ | _ => 0
  sqrt := lift (fun x => if x < 0 then undefined else real (Real.sqrt x)) undefined (infinity false)
  log := lift (fun x => if x < 0 then undefined else if x = 0 then infinity true
    else real (Real.log x)) undefined (infinity false)
  exp := lift (fun x => real (Real.exp x)) (real 0) (infinity false)
  exp2 := lift (fun x => real (Scalar.exp2 x)) (real 0) (infinity false)

/-! ## Real numbers -/

section

variable (x y : ℝ) (n : ℕ)

@[simp] theorem real_add : real x + real y = real (x + y) := rfl

@[simp] theorem real_sub : real x - real y = real (x - y) := rfl

@[simp] theorem real_mul : real x * real y = real (x * y) := rfl

@[simp] theorem real_neg : -real x = real (-x) := rfl

@[simp] theorem real_lt : real x < real y ↔ x < y := Iff.rfl

@[simp] theorem real_le : real x ≤ real y ↔ x ≤ y := Iff.rfl

@[simp] theorem ofScientific_eq (m : ℕ) (s : Bool) (e : ℕ) :
    (OfScientific.ofScientific m s e : ExtendedReal) = real (OfScientific.ofScientific m s e) := rfl

@[simp] theorem isFinite_real : Scalar.isFinite (real x) = true := rfl

@[simp] theorem sortLe_real : Scalar.sortLe (real x) (real y) = Scalar.sortLe x y := rfl

@[simp] theorem ofNat_eq : (Scalar.ofNat n : ExtendedReal) = real n := rfl

@[simp] theorem floor_real : Scalar.floor (real x) = ⌊x⌋₊ := rfl

@[simp] theorem ceil_real : Scalar.ceil (real x) = ⌈x⌉₊ := rfl

@[simp] theorem exp_real : Scalar.exp (real x) = real (Real.exp x) := rfl

@[simp] theorem exp2_real : Scalar.exp2 (real x) = real (2 ^ x) := rfl

@[simp] theorem square_real : Scalar.square (real x) = real (x ^ 2) := by
  rw [Scalar.square, real_mul, sq]

variable {x y}

theorem real_div (h : y ≠ 0) : real x / real y = real (x / y) := if_pos h

theorem real_mul_ne_undefined (h : x ≠ 0) {v : ExtendedReal} (defined : v ≠ undefined) :
    real x * v ≠ undefined := by
  cases v with
  | real => exact ExtendedReal.noConfusion
  | infinity negative =>
    have product : real x * infinity negative = infinity (negative != decide (x < 0)) := if_neg h
    rw [product]
    exact ExtendedReal.noConfusion
  | undefined => exact absurd rfl defined

theorem sqrt_real (h : 0 ≤ x) : Scalar.sqrt (real x) = real (Real.sqrt x) := if_neg (not_lt.2 h)

theorem log_real (h : 0 < x) : Scalar.log (real x) = real (Real.log x) := by
  show (if x < 0 then _ else if x = 0 then _ else _) = _
  rw [if_neg (not_lt.2 h.le), if_neg h.ne']

/-- A finite value is a real number. -/
theorem eq_real_of_isFinite {v : ExtendedReal} (h : Scalar.isFinite v = true) : ∃ x, v = real x := by
  cases v with
  | real x => exact ⟨x, rfl⟩
  | infinity | undefined => cases h

end

theorem foldl_add_real {β : Type} (f : β → ℝ) (xs : List β) (a : ℝ) :
    xs.foldl (fun sum x => sum + real (f x)) (real a) = real (a + (xs.map f).sum) := by
  rw [← Scalar.foldl_add_exact]
  exact List.foldl_hom real fun _ _ => rfl

theorem sum_real (xs : List ℝ) : Scalar.sum (xs.map real) = real xs.sum := by
  rw [Scalar.sum, ofScientific_eq, real_neg, List.foldl_map, foldl_add_real, List.map_id']
  norm_num

/-! ## Intervals -/

/-- A real number of an interval. -/
def Within (lo hi : ℝ) (v : ExtendedReal) : Prop := ∃ x, v = real x ∧ lo ≤ x ∧ x ≤ hi

theorem Within.isFinite {lo hi : ℝ} {v : ExtendedReal} (h : Within lo hi v) :
    Scalar.isFinite v = true := by
  obtain ⟨x, rfl, -⟩ := h
  rfl

theorem Within.sub {lo hi lo' hi' : ℝ} {v w : ExtendedReal} (hv : Within lo hi v)
    (hw : Within lo' hi' w) : Within (lo - hi') (hi - lo') (v - w) := by
  obtain ⟨x, rfl, lox, hix⟩ := hv
  obtain ⟨y, rfl, loy, hiy⟩ := hw
  exact ⟨x - y, rfl, sub_le_sub lox hiy, sub_le_sub hix loy⟩

theorem eq_map_of_within {lo hi : ℝ} {values : List ExtendedReal}
    (within : ∀ v ∈ values, Within lo hi v) :
    ∃ xs : List ℝ, values = xs.map real ∧ ∀ x ∈ xs, lo ≤ x ∧ x ≤ hi := by
  induction values with
  | nil => exact ⟨[], rfl, fun _ mem => absurd mem List.not_mem_nil⟩
  | cons v rest ih =>
    obtain ⟨⟨x, rfl, bounds⟩, others⟩ := List.forall_mem_cons.1 within
    obtain ⟨xs, rfl, all⟩ := ih others
    exact ⟨x :: xs, rfl, List.forall_mem_cons.2 ⟨bounds, all⟩⟩

/-! ## Percentiles -/

theorem clamp_real (lo hi x : ℝ) :
    Scalar.clamp (real lo) (real hi) (real x) = real (Scalar.clamp lo hi x) := by
  simp only [Scalar.clamp, real_lt]
  split_ifs <;> rfl

/-- The rank for a number, also an infinite one, is that for a real number. -/
theorem percentileRank_real {q : ExtendedReal} (defined : q ≠ undefined) :
    ∃ r : ℝ, ∀ n, Scalar.percentileRank n q = real (Scalar.percentileRank n r) := by
  have pos : (0 : ℝ) < 100.0 := by norm_num
  have share : ∃ r : ℝ,
      Scalar.clamp 0.0 1.0 (q / 100.0) = real (Scalar.clamp 0.0 1.0 (r / 100.0)) := by
    cases q with
    | real r =>
      refine ⟨r, ?_⟩
      simp only [ofScientific_eq, real_div pos.ne']
      exact clamp_real ..
    | infinity negative =>
      have quotient : infinity negative / 100.0 = infinity negative := by
        show infinity (negative != decide ((100.0 : ℝ) < 0)) = _
        rw [decide_eq_false (not_lt.2 pos.le), Bool.bne_false]
      rw [quotient]
      cases negative with
      | true =>
        refine ⟨0, ?_⟩
        have low : infinity true < (0.0 : ExtendedReal) := rfl
        rw [Scalar.clamp, if_pos low, ofScientific_eq]
        norm_num [Scalar.clamp]
      | false =>
        refine ⟨100, ?_⟩
        have notlow : ¬infinity false < (0.0 : ExtendedReal) := Bool.false_ne_true
        have high : (1.0 : ExtendedReal) < infinity false := rfl
        rw [Scalar.clamp, if_neg notlow, if_pos high, ofScientific_eq]
        norm_num [Scalar.clamp]
    | undefined => exact absurd rfl defined
  obtain ⟨r, equal⟩ := share
  refine ⟨r, fun n => ?_⟩
  rw [Scalar.percentileRank, equal]
  rfl

theorem percentile?_real {xs : List ℝ} {q : ExtendedReal} {r : ℝ}
    (rank : ∀ n, Scalar.percentileRank n q = real (Scalar.percentileRank n r)) :
    Scalar.percentile? (xs.map real) q = (Scalar.percentile? xs r).map real := by
  have sorted : (xs.map real).mergeSort Scalar.sortLe = (xs.mergeSort Scalar.sortLe).map real :=
    (List.map_mergeSort fun x _ y _ => (sortLe_real x y).symm).symm
  simp only [Scalar.percentile?, sorted, List.size_toArray, List.length_map, rank, floor_real,
    ceil_real, List.getElem?_toArray, List.getElem?_map, Scalar.floor_exact, Scalar.ceil_exact]
  generalize xs.mergeSort Scalar.sortLe = sorted
  cases sorted[⌊Scalar.percentileRank sorted.length r⌋₊]? with
  | none => rfl
  | some below =>
    cases sorted[⌈Scalar.percentileRank sorted.length r⌉₊]? <;> rfl

/-- **A percentile lies in an interval if the values do.** -/
theorem percentile?_within {lo hi : ℝ} {values : List ExtendedReal} (some : values ≠ [])
    (within : ∀ v ∈ values, Within lo hi v) {q : ExtendedReal} (defined : q ≠ undefined) :
    ∃ v, Scalar.percentile? values q = .some v ∧ Within lo hi v := by
  obtain ⟨xs, rfl, bounds⟩ := eq_map_of_within within
  obtain ⟨r, rank⟩ := percentileRank_real defined
  have some' : xs ≠ [] := by simpa using some
  obtain ⟨v, made, ⟨x, low, above⟩, y, high, below⟩ := Scalar.percentile?_between some' r
  exact ⟨real v, by rw [percentile?_real rank, made, Option.map_some], v, rfl,
    (bounds x low).1.trans above, below.trans (bounds y high).2⟩

theorem percentile?_getD_within {lo hi : ℝ} (zero : lo ≤ 0 ∧ 0 ≤ hi) {values : List ExtendedReal}
    (within : ∀ v ∈ values, Within lo hi v) {q : ExtendedReal} (defined : q ≠ undefined) :
    Within lo hi ((Scalar.percentile? values q).getD 0.0) := by
  rcases eq_or_ne values [] with rfl | some
  · have none : Scalar.percentile? [] q = Option.none := by simp [Scalar.percentile?]
    rw [none]
    exact ⟨0, congrArg real Scalar.zero_exact, zero⟩
  · obtain ⟨v, made, bounds⟩ := percentile?_within some within defined
    rwa [made]

end ExtendedReal

end CounterWatch
