import CounterWatch.Proofs.Stream
import Mathlib.Data.Set.Finite.List
import Mathlib.Order.Bounds.Defs

/-!
# What a forest cannot see

A forest compares a value with thresholds from the range of its training rows. So what lies outside
that range is all the same to it: every value below the least, every value from the greatest on, and
whatever cannot be compared, which goes the way of the greatest. A feature that is constant over the
rows is not looked at.

* `Forest.column` are the values of a feature in some rows. In finite rows there is a least and a
  greatest one.
* `Forest.Alike` says which values of a feature are all the same.
* `Forest.BlindOutside` is what is said of a forest, and `Forest.is_blind_outside_training_range`
  says it of every forest over finite rows.
-/

namespace CounterWatch

namespace Forest

variable {rows : List (FeatureVector Float)} {j : Fin featureCount} {v w : Float}

/-! ## Columns -/

/-- The values of a feature in some rows. -/
def column (rows : List (FeatureVector Float)) (j : Fin featureCount) : Set Float :=
  {v | ∃ row ∈ rows, row.get j = v}

theorem get_mem_column {row : FeatureVector Float} (mem : row ∈ rows) : row.get j ∈ column rows j :=
  ⟨row, mem, rfl⟩

/-- Whether all values of a feature are equal, zeros of either sign being so. -/
def Constant (rows : List (FeatureVector Float)) (j : Fin featureCount) : Prop :=
  ∀ a ∈ column rows j, ∀ b ∈ column rows j, (a == b) = true

theorem isNaN_of_mem_column (finite : ∀ row ∈ rows, row.isFinite = true)
    (mem : v ∈ column rows j) : v.isNaN = false := by
  obtain ⟨row, there, rfl⟩ := mem
  exact Double.isNaN_of_isFinite (FeatureVector.isFinite_iff.1 (finite row there) j)

section

variable (some : rows ≠ []) (finite : ∀ row ∈ rows, row.isFinite = true) (j : Fin featureCount)

include some finite

theorem exists_isLeast_column : ∃ lo, IsLeast (column rows j) lo := by
  obtain ⟨row, mem, least⟩ := Set.exists_min_image {row | row ∈ rows}
    (fun row => Double.signed (row.get j)) (List.finite_toSet rows)
    (List.exists_mem_of_ne_nil _ some)
  refine ⟨row.get j, get_mem_column mem, ?_⟩
  rintro _ ⟨other, there, rfl⟩
  exact (Double.le_iff_signed (isNaN_of_mem_column finite (get_mem_column mem))
    (isNaN_of_mem_column finite (get_mem_column there))).2 (least other there)

theorem exists_isGreatest_column : ∃ hi, IsGreatest (column rows j) hi := by
  obtain ⟨row, mem, greatest⟩ := Set.exists_max_image {row | row ∈ rows}
    (fun row => Double.signed (row.get j)) (List.finite_toSet rows)
    (List.exists_mem_of_ne_nil _ some)
  refine ⟨row.get j, get_mem_column mem, ?_⟩
  rintro _ ⟨other, there, rfl⟩
  exact (Double.le_iff_signed (isNaN_of_mem_column finite (get_mem_column there))
    (isNaN_of_mem_column finite (get_mem_column mem))).2 (greatest other there)

end

/-! ## Values that are all the same -/

/-- Values of a feature that a forest over some rows cannot tell apart: what cannot be compared or
is not below the greatest value of the rows is the same as that value, what is below the least one
is the same as anything else there, and anything will do where the rows are all equal. -/
inductive Alike (rows : List (FeatureVector Float)) (j : Fin featureCount) : Float → Float → Prop
  | same (v : Float) : Alike rows j v v
  | above {v hi : Float} (greatest : IsGreatest (column rows j) hi)
      (outside : v.isNaN = true ∨ hi ≤ v) : Alike rows j v hi
  | below {v w lo : Float} (least : IsLeast (column rows j) lo) (hv : v < lo) (hw : w < lo) :
      Alike rows j v w
  | constant {v w : Float} (equal : Constant rows j) : Alike rows j v w

/-- A threshold in the range of a feature that is not constant. -/
structure Inside (rows : List (FeatureVector Float)) (j : Fin featureCount) (t : Float) : Prop where
  least_le : ∀ lo, IsLeast (column rows j) lo → lo ≤ t
  lt_greatest : ∀ hi, IsGreatest (column rows j) hi → t < hi
  not_constant : ¬Constant rows j

/-- Values that are alike go the same way at such a threshold. -/
theorem Inside.lt_iff {t : Float} (inside : Inside rows j t) (alike : Alike rows j v w) :
    v < t ↔ w < t := by
  cases alike with
  | same => rfl
  | above greatest outside =>
    have less := inside.lt_greatest _ greatest
    refine ⟨fun lt => ?_, fun lt => ?_⟩
    · rcases outside with undefined | above
      · rw [(Double.isNaN_of_lt lt).1] at undefined
        cases undefined
      · exact absurd (Double.lt_of_le_of_lt above (Double.lt_of_lt_of_le lt (Double.le_of_lt less)))
          (Double.lt_irrefl _)
    · exact absurd (Double.lt_of_lt_of_le lt (Double.le_of_lt less)) (Double.lt_irrefl _)
  | below least hv hw =>
    have le := inside.least_le _ least
    exact ⟨fun _ => Double.lt_of_lt_of_le hw le, fun _ => Double.lt_of_lt_of_le hv le⟩
  | constant equal => exact absurd equal inside.not_constant

/-! ## Forests -/

/-- What it means that a forest is blind outside the range of its rows: every split lies inside it,
no split is on a constant feature, and rows that are alike in every feature have the same score and
the same verdict. -/
structure BlindOutside (f : Forest Float) (rows : List (FeatureVector Float)) : Prop where
  inside : ∀ tree ∈ f.trees, ∀ j t, (j, t) ∈ tree.splits → Inside rows j t
  score_eq : ∀ x y : FeatureVector Float, (∀ j, Alike rows j (x.get j) (y.get j)) →
    f.score x = f.score y ∧ (Model.forest f).verdict x = (Model.forest f).verdict y

section

variable {σ : Type} {draws : Draws Float σ} (drawn : ∀ (lo hi : Float) (s : σ), lo < hi →
  lo ≤ (draws.threshold lo hi s).1 ∧ (draws.threshold lo hi s).1 < hi)

include drawn

/-- A split of a tree grown over some of the rows. -/
theorem inside_of_grown {depth : Nat} {sample : List (FeatureVector Float)} {tree : Tree Float}
    (part : ∀ row ∈ sample, row ∈ rows) (grown : Tree.Grown draws depth sample tree) {t : Float}
    (mem : (j, t) ∈ tree.splits) : Inside rows j t := by
  obtain ⟨lo, hi, low, high, lt, s, rfl⟩ := grown.of_mem_splits mem (p := (· ∈ column rows j))
    fun row there => get_mem_column (part row there)
  obtain ⟨le, less⟩ := drawn lo hi s lt
  refine ⟨fun least is => ?_, fun greatest is => ?_, fun equal => ?_⟩
  · exact Double.le_trans (is.2 low) le
  · exact Double.lt_of_lt_of_le less (is.2 high)
  · obtain ⟨undefined, undefined'⟩ := Double.isNaN_of_lt lt
    have back := ((Double.beq_iff undefined undefined').1 (equal _ low _ high)).2
    exact Double.lt_irrefl _ (Double.lt_of_lt_of_le lt back)

theorem blindOutside_growWith (start : σ) (params : Params Float)
    (rows : List (FeatureVector Float)) :
    (growWith draws start params rows).1.BlindOutside rows := by
  have inside : ∀ tree ∈ (growWith draws start params rows).1.trees, ∀ j t,
      (j, t) ∈ tree.splits → Inside rows j t := by
    intro tree mem j t split
    obtain ⟨depth, sample, part, grown⟩ := grownOver_growWith draws start params rows tree mem
    exact inside_of_grown drawn part grown split
  refine ⟨inside, fun x y alike => ?_⟩
  have equal : (growWith draws start params rows).1.score x
      = (growWith draws start params rows).1.score y := by
    rw [score, score, negatedAnomaly_congr _ fun tree mem s split =>
      (inside tree mem s.1 s.2 split).lt_iff (alike s.1)]
  refine ⟨equal, ?_⟩
  simp only [Model.verdict, Model.score, equal]

end

/-- **A forest is blind outside the range of its training rows.** Over finite rows there is a least
and a greatest value of every feature, and every split of a forest over them is at a threshold from
the least value on and below the greatest, never on a feature that is constant. So neither score nor
verdict depends on how far a value lies outside. This holds of whatever a source lets grow that draws
each threshold from the range asked for, and of every forest that is fitted. -/
theorem is_blind_outside_training_range (rows : List (FeatureVector Float)) (some : rows ≠ [])
    (finite : ∀ row ∈ rows, row.isFinite = true) :
    (∀ j, (∃ lo, IsLeast (column rows j) lo) ∧ ∃ hi, IsGreatest (column rows j) hi) ∧
    (∀ (σ : Type) (draws : Draws Float σ) (start : σ) (params : Params Float),
      (∀ lo hi s, lo < hi → lo ≤ (draws.threshold lo hi s).1 ∧ (draws.threshold lo hi s).1 < hi) →
      (growWith draws start params rows).1.BlindOutside rows) ∧
    ∀ (params : Params Float) (f : Forest Float), fit params rows = .ok f → f.BlindOutside rows := by
  refine ⟨fun j => ⟨exists_isLeast_column some finite j, exists_isGreatest_column some finite j⟩,
    fun σ draws start params drawn => blindOutside_growWith drawn start params rows,
    fun params f fitted => ?_⟩
  rw [eq_grow_of_fit fitted]
  exact blindOutside_growWith ChaCha.lawful_draws.threshold_mem _ params rows

/-- Over a row of zeros and one of ones, what is not a number and infinity score as one does, and
negative infinity as any number below zero. -/
theorem is_blind_outside_zero_and_one :
    let rows := [FeatureVector.fill 0.0, FeatureVector.fill (1.0 : Float)]
    rows ≠ [] ∧ (∀ row ∈ rows, row.isFinite = true) ∧
    ∃ f, fit .standard rows = .ok f ∧ f.BlindOutside rows ∧
      f.score (FeatureVector.fill (0.0 / 0.0)) = f.score (FeatureVector.fill 1.0) ∧
      f.score (FeatureVector.fill (1.0 / 0.0)) = f.score (FeatureVector.fill 1.0) ∧
      f.score (FeatureVector.fill (-1.0 / 0.0)) = f.score (FeatureVector.fill (-1.0)) := by
  intro rows
  have some : rows ≠ [] := List.cons_ne_nil _ _
  have finite : ∀ row ∈ rows, row.isFinite = true := by
    intro row mem
    rcases List.mem_pair.1 mem with rfl | rfl <;> exact FeatureVector.isFinite_fill (by decide)
  have get (x : Float) (j : Fin featureCount) := FeatureVector.get_fill x j
  have either {v : Float} {j : Fin featureCount} (mem : v ∈ column rows j) : v = 0.0 ∨ v = 1.0 := by
    obtain ⟨row, there, rfl⟩ := mem
    rcases List.mem_pair.1 there with rfl | rfl
    · exact .inl (get 0.0 j)
    · exact .inr (get 1.0 j)
  have greatest (j : Fin featureCount) : IsGreatest (column rows j) 1.0 := by
    refine ⟨⟨_, List.mem_cons_of_mem _ List.mem_cons_self, get 1.0 j⟩, fun v mem => ?_⟩
    rcases either mem with rfl | rfl <;> decide
  have least (j : Fin featureCount) : IsLeast (column rows j) 0.0 := by
    refine ⟨⟨_, List.mem_cons_self, get 0.0 j⟩, fun v mem => ?_⟩
    rcases either mem with rfl | rfl <;> decide
  have calm : Calm rows := by
    intro row mem j
    rcases either (get_mem_column mem) with zero | one
    · rw [zero]
      exact .inr trivial
    · rw [one]
      exact .inr (by show ((2 ^ 52 : Nat).log2 : Int) + -52 < (606 : Nat); decide)
  have fitted := fit_of_calm some calm
  have blind := (is_blind_outside_training_range rows some finite).2.2 _ _ fitted
  refine ⟨some, finite, _, fitted, blind, (blind.score_eq _ _ fun j => ?_).1,
    (blind.score_eq _ _ fun j => ?_).1, (blind.score_eq _ _ fun j => ?_).1⟩
  · rw [get, get]
    exact .above (greatest j) (.inl (by decide))
  · rw [get, get]
    exact .above (greatest j) (.inr (by decide))
  · rw [get, get]
    exact .below (least j) (by decide) (by decide)

end Forest

end CounterWatch
