import CounterWatch.Detector
import CounterWatch.Proofs.Rounding

/-!
# Fitting

Models can be fitted to any rows on the standard scale of those rows. A family of models turns down
an empty matrix, and the forest a feature whose range is not finite; standardisation rules out the
second, whatever the rows are.

* `Double.Calm` values are no numbers or far from the largest one. All values on the standard scale
  are calm (`Standardizer.calm_transform`): where a standard deviation is finite no distance to the
  mean is too large for its square, and where it is not, the quotient is zero or no number.
* A split is made between two values of a feature that are in order. Where any two such values are
  the ends of a finite interval (`Splittable`), as calm ones are, thresholds can be drawn
  (`ChaCha.bounded_threshold`) and a forest can be fitted (`Forest.fit_of_splittable`).
* `Trained.tryFit` fits the models as their families do, and `Trained.tryFit_eq` says that nothing
  is in the way.
-/

namespace CounterWatch

/-! ## Calm values -/

namespace Double

open Float.Model.UnpackedFloat

/-- What is no number or of a magnitude below `2 ^ 606`. -/
def Calm (x : Float) : Prop := form x = .notANumber ∨ Below 606 (form x)

/-- Calm values that are in order are finite, and so is their distance. -/
theorem Calm.isFinite_of_lt {x y : Float} (hx : Calm x) (hy : Calm y) (lt : x < y) :
    x.isFinite = true ∧ y.isFinite = true ∧ (y - x).isFinite = true := by
  obtain ⟨notx, noty⟩ := form_ne_notANumber_of_lt lt
  have belowx := hx.resolve_left notx
  have belowy := hy.resolve_left noty
  have distance := below_sub belowy belowx (by decide)
  exact ⟨belowx.isFinite, belowy.isFinite, distance.isFinite⟩

theorem form_one : form 1.0 = .finite .positive (2 ^ 52) (-52) (by decide) := rfl

theorem form_leastDeviation : form Standardizer.leastDeviation
    = .finite .positive 4951760157141521 (-92) (by decide) := rfl

/-- A distance from the mean divided by the scale. -/
theorem calm_div {d s : Float} (spread : s.isFinite = true → Below 512 (form d))
    (sign : form s ≠ .infinity .negative) :
    Calm (d / if s < Standardizer.leastDeviation then 1.0 else s) := by
  cases finite : s.isFinite with
  | true =>
    right
    split_ifs with small
    · have low : -(92 : Nat) ≤ ((2 ^ 52 : Nat).log2 : Int) + -52 := by decide
      exact below_div (spread finite) form_one low (by decide)
    · obtain ⟨m, e, pos, form_s, least⟩ :=
        exponent_le_of_not_lt form_leastDeviation finite small
      exact below_div (spread finite) form_s (n := 92) (by omega) (by decide)
  | false =>
    rw [if_neg (not_lt_of_not_isFinite finite sign)]
    obtain none | ⟨t, zero⟩ := form_div_of_not_isFinite d finite
    · exact .inl none
    · right
      rw [zero]
      trivial

/-- A sum is finite only if all its terms are. -/
theorem isFinite_of_isFinite_foldl {β : Type} {f : β → Float} {xs : List β} {x : Float}
    (h : (xs.foldl (fun sum y => sum + f y) x).isFinite = true) :
    x.isFinite = true ∧ ∀ y ∈ xs, (f y).isFinite = true := by
  induction xs generalizing x with
  | nil => exact ⟨h, fun _ mem => absurd mem List.not_mem_nil⟩
  | cons y ys ih =>
    obtain ⟨head, tail⟩ := ih h
    obtain ⟨first, last⟩ := isFinite_of_isFinite_add head
    exact ⟨first, List.forall_mem_cons.2 ⟨last, tail⟩⟩

end Double

/-! ## The standard scale -/

/-- Sums are divided by a count of at least one, which is the count of the terms if there are any. -/
theorem max_one_length {β : Type} {xs : List β} (some : xs ≠ []) : max 1 xs.length = xs.length :=
  Nat.max_eq_right (List.length_pos_iff.2 some)

/-- Rows of calm values. -/
def Calm (rows : List (FeatureVector Float)) : Prop :=
  ∀ row ∈ rows, ∀ j : Fin featureCount, Double.Calm (row.get j)

namespace Standardizer

variable {α β : Type}

/-- A fold over vectors is a fold in each place. -/
theorem get_foldl_zipWith {n : Nat} (f : α → β → α) (g : FeatureVector α → Vector β n)
    (rows : List (FeatureVector α)) (v : Vector α n) (j : Fin n) :
    (rows.foldl (fun sums row => Vector.zipWith f sums (g row)) v).get j
      = rows.foldl (fun sum row => f sum ((g row).get j)) (v.get j) := by
  induction rows generalizing v with
  | nil => rfl
  | cons row rest ih =>
    rw [List.foldl_cons, List.foldl_cons, ih]
    simp only [Vector.get_eq_getElem, Vector.getElem_zipWith]

variable [Scalar α]

theorem get_means (rows : List (FeatureVector α)) (j : Fin featureCount) :
    (means rows).get j = rows.foldl (fun sum row => sum + row.get j) 0.0
      / Scalar.ofNat (max 1 rows.length) := by
  have sums := get_foldl_zipWith (· + ·) id rows (FeatureVector.fill 0.0) j
  rw [FeatureVector.get_fill] at sums
  simp only [means, Vector.get_eq_getElem, Vector.getElem_map, id_eq] at sums ⊢
  rw [sums]

theorem get_deviations (rows : List (FeatureVector α)) (mean : FeatureVector α)
    (j : Fin featureCount) :
    (deviations rows mean).get j = Scalar.sqrt
      (rows.foldl (fun sum row => sum + Scalar.square (row.get j - mean.get j)) 0.0
        / Scalar.ofNat (max 1 rows.length)) := by
  have sums := get_foldl_zipWith (· + ·) (fun row : FeatureVector α =>
    Vector.zipWith (fun x m => Scalar.square (x - m)) row mean) rows (FeatureVector.fill 0.0) j
  simp only [FeatureVector.fill, Vector.get_eq_getElem, Vector.getElem_zipWith,
    Vector.getElem_replicate] at sums
  simp only [deviations, FeatureVector.fill, Vector.get_eq_getElem, Vector.getElem_map, sums]

theorem get_scale_fit (rows : List (FeatureVector α)) (j : Fin featureCount) :
    (fit rows).scale.get j = if (deviations rows (means rows)).get j < leastDeviation then 1.0
      else (deviations rows (means rows)).get j := by
  simp only [fit, Vector.get_eq_getElem, Vector.getElem_map]

/-- Each feature is mapped by itself. -/
theorem get_transform (s : Standardizer α) (row : FeatureVector α) (j : Fin featureCount) :
    (s.transform row).get j = (row.get j - s.mean.get j) / s.scale.get j := by
  simp only [transform, Vector.get_eq_getElem, Vector.getElem_zipWith]

theorem get_transform_fit (rows : List (FeatureVector α)) (row : FeatureVector α)
    (j : Fin featureCount) :
    ((fit rows).transform row).get j = (row.get j - (means rows).get j) /
      (if (deviations rows (means rows)).get j < leastDeviation then 1.0
        else (deviations rows (means rows)).get j) := by
  rw [get_transform, get_scale_fit]
  rfl

/-- Rows are calm on their own standard scale. -/
theorem calm_transform (rows : List (FeatureVector Float)) :
    Calm (rows.map (fit rows).transform) := by
  intro scaled mem j
  obtain ⟨row, there, rfl⟩ := List.mem_map.1 mem
  rw [get_transform_fit]
  apply Double.calm_div
  · intro finite
    rw [get_deviations] at finite
    have sum := Double.isFinite_of_isFinite_div (Double.isFinite_of_isFinite_sqrt finite)
    exact Double.below_of_isFinite_square ((Double.isFinite_of_isFinite_foldl sum).2 row there)
  · rw [get_deviations]
    exact Double.form_sqrt_ne _

end Standardizer

/-! ## Splits -/

namespace Tree

variable {α : Type} [Scalar α] {p : α → Prop} {j : Fin featureCount}

theorem extremes_of_forall {rows : List (FeatureVector α)} {lo hi : α}
    (all : ∀ row ∈ rows, p (row.get j)) (hlo : p lo) (hhi : p hi) :
    p (extremes j rows lo hi).1 ∧ p (extremes j rows lo hi).2 := by
  induction rows generalizing lo hi with
  | nil => exact ⟨hlo, hhi⟩
  | cons row rest ih =>
    obtain ⟨first, others⟩ := List.forall_mem_cons.1 all
    apply ih others
    · split_ifs
      · exact first
      · exact hlo
    · split_ifs
      · exact first
      · exact hhi

/-- The ends of a range are values of the feature. -/
theorem range?_of_forall {rows : List (FeatureVector α)} {lo hi : α}
    (all : ∀ row ∈ rows, p (row.get j)) (h : range? rows j = some (lo, hi)) : p lo ∧ p hi := by
  unfold range? at h
  split at h
  case h_1 => cases h
  case h_2 row rest left =>
    have there : ∀ x ∈ row :: rest, p (x.get j) := by
      intro x mem
      rw [← left] at mem
      exact all x ((List.dropWhile_sublist _).mem mem)
    obtain ⟨first, others⟩ := List.forall_mem_cons.1 there
    have ends := extremes_of_forall others first first
    rw [Option.some.inj h] at ends
    exact ends

/-- A feature that is split has two values in order. -/
theorem candidates_of_forall {rows : List (FeatureVector α)} {lo hi : α}
    (all : ∀ row ∈ rows, p (row.get j)) (h : (j, lo, hi) ∈ candidates rows) :
    p lo ∧ p hi ∧ lo < hi := by
  obtain ⟨i, -, found⟩ := List.mem_filterMap.1 h
  split at found
  case h_1 least greatest range =>
    split_ifs at found with lt
    obtain ⟨rfl, rfl, rfl⟩ := found
    obtain ⟨plo, phi⟩ := range?_of_forall all range
    exact ⟨plo, phi, lt⟩
  case h_2 => cases found

end Tree

/-! ## Drawings -/

namespace ChaCha

variable {β γ : Type}

/-- A drawing that asks for no threshold where there is no finite interval. -/
def Bounded (c : Drawing ChaCha β) : Prop :=
  ∀ s : ChaCha, s.unbounded = false → (c s).2.unbounded = false

theorem bounded_pure (x : β) : Bounded (pure x) := fun _ h => h

theorem Bounded.bind {c : Drawing ChaCha β} {f : β → Drawing ChaCha γ} (hc : Bounded c)
    (hf : ∀ x, Bounded (f x)) : Bounded (c >>= f) :=
  fun s h => hf (c s).1 (c s).2 (hc s h)

theorem Bounded.ite {p : Prop} [Decidable p] {c d : Drawing ChaCha β} (hc : Bounded c)
    (hd : Bounded d) : Bounded (if p then c else d) := by
  split
  case isTrue => exact hc
  case isFalse => exact hd

theorem bounded_foldlM {f : β → γ → Drawing ChaCha β} (hf : ∀ x y, Bounded (f x y)) (ys : List γ)
    (x : β) : Bounded (ys.foldlM f x) := by
  induction ys generalizing x with
  | nil => exact bounded_pure x
  | cons y ys ih =>
    rw [List.foldlM_cons]
    exact (hf x y).bind ih

theorem unbounded_nextWord (s : ChaCha) : s.nextWord.2.unbounded = s.unbounded := by
  unfold nextWord
  split <;> rfl

theorem unbounded_nextPair (s : ChaCha) : s.nextPair.2.unbounded = s.unbounded := by
  show s.nextWord.2.nextWord.2.unbounded = s.unbounded
  rw [unbounded_nextWord, unbounded_nextWord]

theorem bounded_nextWord : Bounded (modifyGet nextWord) :=
  fun s h => (unbounded_nextWord s).trans h

theorem bounded_nextPair : Bounded (modifyGet nextPair) :=
  fun s h => (unbounded_nextPair s).trans h

theorem bounded_index (lo hi : Nat) : Bounded (index lo hi) := by
  show Bounded (index.go lo _ _ attempts)
  generalize attempts = fuel
  induction fuel with
  | zero => exact bounded_pure lo
  | succ fuel ih =>
    apply bounded_nextWord.bind
    intro word
    exact (bounded_pure _).ite ih

variable {α : Type} [Scalar α]

/-- An interval with finite ends and a finite length gives a threshold. -/
theorem bounded_threshold {lo hi : α} (finite : Scalar.isFinite lo = true ∧
    Scalar.isFinite hi = true ∧ Scalar.isFinite (hi - lo) = true) : Bounded (threshold lo hi) := by
  have all : (Scalar.isFinite lo && Scalar.isFinite hi && Scalar.isFinite (hi - lo)) = true := by
    rw [finite.1, finite.2.1, finite.2.2]
    rfl
  unfold threshold
  simp only [all, ↓reduceIte]
  generalize attempts = fuel
  induction fuel with
  | zero => exact bounded_pure lo
  | succ fuel ih =>
    apply bounded_nextPair.bind
    intro bits
    exact (bounded_pure _).ite ih

theorem bounded_subset (amount n : Nat) :
    Bounded ((draws : Draws α ChaCha).subset amount n) := by
  have shuffled (k : Nat) : Bounded ((draws : Draws α ChaCha).shuffled k n) := by
    refine Bounded.bind (bounded_foldlM (fun places i => ?_) _ _) fun _ => bounded_pure _
    exact (bounded_index _ _).bind fun _ => bounded_pure _
  have ordered (k : Nat) : Bounded ((draws : Draws α ChaCha).ordered k n) := by
    refine bounded_foldlM (fun places j => ?_) _ _
    exact (bounded_index _ _).bind fun _ => bounded_pure _
  have reshuffled (k : Nat) : Bounded ((draws : Draws α ChaCha).reshuffled k n) := by
    refine Bounded.bind (bounded_foldlM (fun places j => ?_) _ _) fun places => ?_
    · exact (bounded_index _ _).bind fun _ => bounded_pure _
    · refine Bounded.bind (bounded_foldlM (fun places i => ?_) _ _) fun _ => bounded_pure _
      exact (bounded_index _ _).bind fun _ => bounded_pure _
  exact (shuffled _).ite ((ordered _).ite (reshuffled _))

end ChaCha

/-! ## Forests -/

open ChaCha (Bounded bounded_pure)

section

variable {α : Type} [Scalar α] {p : α → Prop}

/-- Values of which any two in order are the ends of a finite interval. -/
def Splittable (p : α → Prop) : Prop :=
  ∀ {x y : α}, p x → p y → x < y →
    Scalar.isFinite x = true ∧ Scalar.isFinite y = true ∧ Scalar.isFinite (y - x) = true

/-- A tree over rows of such values. -/
theorem Tree.bounded_grow (splits : Splittable p) (depth : Nat) {rows : List (FeatureVector α)}
    (all : ∀ row ∈ rows, ∀ j : Fin featureCount, p (row.get j)) :
    Bounded (Tree.grow ChaCha.draws depth rows) := by
  induction depth generalizing rows with
  | zero => exact bounded_pure _
  | succ depth ih =>
    unfold Tree.grow
    refine (bounded_pure _).ite ((bounded_pure _).ite ?_)
    apply (ChaCha.bounded_index _ _).bind
    intro i
    split
    case h_1 => exact bounded_pure _
    case h_2 j lo hi chosen =>
      obtain ⟨plo, phi, lt⟩ :=
        candidates_of_forall (fun row mem => all row mem j) (List.mem_of_getElem? chosen)
      apply (ChaCha.bounded_threshold (splits plo phi lt)).bind
      intro threshold
      rw [List.partition_eq_filter_filter]
      apply (ih fun row mem => all row (List.mem_of_mem_filter mem)).bind
      intro low
      apply (ih fun row mem => all row (List.mem_of_mem_filter mem)).bind
      intro high
      exact bounded_pure _

namespace Forest

theorem bounded_growOne (splits : Splittable p) (size : Nat) {rows : Array (FeatureVector α)}
    (all : ∀ row ∈ rows, ∀ j : Fin featureCount, p (row.get j)) :
    Bounded (growOne ChaCha.draws size rows) := by
  apply (ChaCha.bounded_subset _ _).bind
  intro places
  apply Tree.bounded_grow splits
  intro row mem
  obtain ⟨place, -, found⟩ := List.mem_filterMap.1 mem
  exact all row (Array.mem_of_getElem? found)

theorem bounded_growTrees (splits : Splittable p) (size count : Nat)
    {rows : Array (FeatureVector α)} (all : ∀ row ∈ rows, ∀ j : Fin featureCount, p (row.get j)) :
    Bounded (growTrees ChaCha.draws size rows count) := by
  induction count with
  | zero => exact bounded_pure _
  | succ count ih =>
    apply (bounded_growOne splits size all).bind
    intro tree
    exact ih.bind fun _ => bounded_pure _

theorem snd_growWith {σ : Type} (draws : Draws α σ) (start : σ) (params : Params α)
    (rows : List (FeatureVector α)) :
    (growWith draws start params rows).2
      = (growTrees draws (max 1 (min params.maxSamples rows.length)) rows.toArray
          (max 1 params.estimators) start).2 := rfl

theorem unbounded_grow (splits : Splittable p) (params : Params α) {rows : List (FeatureVector α)}
    (all : ∀ row ∈ rows, ∀ j : Fin featureCount, p (row.get j)) :
    (grow params rows).2.unbounded = false := by
  have start : (ChaCha.ofSeed params.seed).unbounded = false := rfl
  rw [grow, snd_growWith]
  refine bounded_growTrees splits _ _ (fun row mem => all row ?_) _ start
  exact List.mem_toArray.1 mem

/-- A forest over rows of such values can be fitted. -/
theorem fit_of_splittable (splits : Splittable p) {params : Params α}
    (room : params.estimators < treeLimit) {rows : List (FeatureVector α)} (some : rows ≠ [])
    (all : ∀ row ∈ rows, ∀ j : Fin featureCount, p (row.get j)) :
    fit params rows = .ok (grow params rows).1 := by
  have rest : ¬rows.isEmpty = true := fun none => some (List.isEmpty_iff.1 none)
  rw [fit, if_neg (Nat.not_le.2 room), if_neg rest]
  simp only [unbounded_grow splits params all, Bool.false_eq_true, ↓reduceIte]

end Forest

end

/-- A forest over calm rows can be fitted. -/
theorem Forest.fit_of_calm {rows : List (FeatureVector Float)} (some : rows ≠ [])
    (calm : Calm rows) : fit .standard rows = .ok (grow .standard rows).1 := by
  have room : (Params.standard : Params Float).estimators < treeLimit := by decide
  exact fit_of_splittable Double.Calm.isFinite_of_lt room some calm

/-! ## Models -/

/-- A model can be fitted to calm rows. -/
theorem ModelKind.fit_of_calm (kind : ModelKind) {rows : List (FeatureVector Float)}
    (some : rows ≠ []) (calm : Calm rows) : kind.fit rows = .ok (kind.build rows) := by
  have rest : ¬rows.isEmpty = true := fun none => some (List.isEmpty_iff.1 none)
  cases kind with
  | isolationForest =>
    simp only [ModelKind.fit, rest, Forest.fit_of_calm some calm]
    rfl
  | ellipticEnvelope =>
    simp only [ModelKind.fit, rest]
    rfl

namespace Trained

/-- The models of some rows, fitted one after the other. The first one that cannot be fitted is the
end of it. -/
def tryFit {α : Type} [Scalar α] (primary secondary : ModelKind) (rows : List (FeatureVector α)) :
    Except FitError (Trained α) := do
  let standardizer := Standardizer.fit rows
  let scaled := rows.map standardizer.transform
  let primary ← primary.fit scaled
  let secondary ← secondary.fit scaled
  return { standardizer, primary, secondary }

/-- Models of any rows can be fitted. -/
theorem tryFit_eq (primary secondary : ModelKind) {rows : List (FeatureVector Float)}
    (some : rows ≠ []) : tryFit primary secondary rows = .ok (fit primary secondary rows) := by
  have scaled : rows.map (Standardizer.fit rows).transform ≠ [] :=
    fun none => some (List.map_eq_nil_iff.1 none)
  have calm := Standardizer.calm_transform rows
  simp only [tryFit, ModelKind.fit_of_calm _ scaled calm]
  rfl

end Trained

end CounterWatch
