import CounterWatch.Proofs.Composite
import CounterWatch.Proofs.Growth
import CounterWatch.Proofs.Replacement

/-!
# Forests over equal rows

Where all rows are equal there is nothing to split, whatever is drawn: every tree is a single leaf
and every row, also one that is not finite, comes to it. All scores are then the boundary itself.

* `Tree.yields_grow` and `Forest.yields_growTrees` are about the trees.
* `Double.sub_interpolated` is about the boundary: between equal values it is that value.
* `Forest.score_of_equal` puts them together, for the usual forest over fifty rows.
-/

namespace CounterWatch

open Drawing

/-! ## Forests over equal rows -/

theorem mem_of_mem_swapIfInBounds {β : Type} {xs : Array β} {i j : Nat} {x : β}
    (h : x ∈ xs.swapIfInBounds i j) : x ∈ xs := by
  unfold Array.swapIfInBounds at h
  split_ifs at h with hi hj
  · exact (Array.swap_perm hi hj).mem_iff.1 h
  · exact h
  · exact h

/-- A partial shuffle gives as many places as were asked for, all of them below the bound. -/
theorem Draws.yields_shuffled {α σ : Type} (draws : Draws α σ) {amount n : Nat} (le : amount ≤ n) :
    Yields (fun places => places.length = amount ∧ ∀ p ∈ places, p < n)
      (draws.shuffled amount n) := by
  have fold : Yields (fun places : Array Nat => places.size = n ∧ ∀ p ∈ places, p < n)
      ((List.range amount).foldlM (fun (places : Array Nat) i => do
        let j ← draws.index i (n - 1)
        return places.swapIfInBounds i j) (Array.range n)) := by
    refine yields_foldlM (fun places i h => ?_) _ ⟨Array.size_range, fun p mem => ?_⟩
    · refine (yields_anything _).bind fun j _ => yields_pure ⟨?_, fun p mem => ?_⟩
      · rw [Array.size_swapIfInBounds, h.1]
      · exact h.2 p (mem_of_mem_swapIfInBounds mem)
    · exact Array.mem_range.1 mem
  refine fold.bind fun places h => yields_pure ⟨?_, fun p mem => ?_⟩
  · rw [List.length_take, Array.length_toList, h.1]
    omega
  · exact h.2 p (Array.mem_toList_iff.1 (List.mem_of_mem_take mem))

section

variable {α σ : Type} [Scalar α] (irrefl : ∀ x : α, ¬x < x) {rows : List (FeatureVector α)}
  {r : FeatureVector α} (equal : ∀ row ∈ rows, row = r)

include irrefl equal

/-- Between equal rows there is nothing to split. -/
theorem Tree.candidates_of_equal : Tree.candidates rows = [] := by
  rw [List.eq_nil_iff_forall_not_mem]
  rintro ⟨j, lo, hi⟩ mem
  obtain ⟨rfl, same, less⟩ := Tree.candidates_of_forall (p := (· = r.get j))
    (fun row mem => congrArg (·.get j) (equal row mem)) mem
  rw [same] at less
  exact irrefl _ less

/-- A tree over equal rows is a leaf. -/
theorem Tree.yields_grow (draws : Draws α σ) (depth : Nat) :
    Yields (· = .leaf rows.length) (Tree.grow draws depth rows) := by
  cases depth with
  | zero => exact yields_pure rfl
  | succ depth =>
    unfold Tree.grow
    refine Yields.ite (fun _ => yields_pure rfl) fun _ => ?_
    rw [Tree.candidates_of_equal irrefl equal]
    exact yields_pure rfl

end

theorem Forest.yields_growOne {α σ : Type} [Scalar α] (irrefl : ∀ x : α, ¬x < x)
    (draws : Draws α σ) {n : Nat} (dense : 11 < n ∧ n < 163) (r : FeatureVector α) :
    Yields (· = .leaf n) (Forest.growOne draws n (List.replicate n r).toArray) := by
  have places : Yields (fun places => places.length = n ∧ ∀ p ∈ places, p < n)
      (draws.subset n (List.replicate n r).toArray.size) := by
    have size : (List.replicate n r).toArray.size = n := by simp
    have all : 5 * n < (50 + 8 * n) * n := by
      have part : 50 * n ≤ (50 + 8 * n) * n := Nat.mul_le_mul_right n (Nat.le_add_right ..)
      omega
    unfold Draws.subset
    rw [size, Nat.min_self]
    simp only [dense.2, dense.1, all, and_self, ↓reduceIte]
    exact draws.yields_shuffled (Nat.le_refl n)
  refine places.bind fun places h => ?_
  have found : places.filterMap ((List.replicate n r).toArray[·]?) = List.replicate n r := by
    have there : ∀ p ∈ places, (List.replicate n r).toArray[p]? = some r := by
      intro p mem
      simp [h.2 p mem]
    rw [List.filterMap_congr there, List.filterMap_eq_map', List.map_const', h.1]
  rw [found]
  have same : ∀ row ∈ List.replicate n r, row = r := fun row mem => List.eq_of_mem_replicate mem
  have grown := Tree.yields_grow irrefl same draws (max 1 (Forest.ceilLog2 n))
  rw [List.length_replicate] at grown
  exact grown

theorem Forest.yields_growTrees {α σ : Type} [Scalar α] (irrefl : ∀ x : α, ¬x < x)
    (draws : Draws α σ) {n : Nat} (dense : 11 < n ∧ n < 163) (r : FeatureVector α) (count : Nat) :
    Yields (· = List.replicate count (.leaf n))
      (Forest.growTrees draws n (List.replicate n r).toArray count) := by
  induction count with
  | zero => exact yields_pure rfl
  | succ count ih =>
    refine (Forest.yields_growOne irrefl draws dense r).bind fun tree leaf => ?_
    refine ih.bind fun rest leaves => yields_pure ?_
    rw [leaf, leaves]
    rfl

/-! ## The boundary -/

namespace Double

open Float.Model (UnpackedFloat)

variable {x y k : Float}

/-- What is taken from itself is zero. -/
theorem form_sub_of_eq (h : x.isFinite = true) (same : form y = form x) :
    form (x - y) = .zero .positive := by
  rw [← isFinite_form] at h
  rw [form_sub, same]
  cases hx : form x with
  | notANumber | infinity =>
    rw [hx] at h
    cases h
  | zero s => cases s <;> exact repacked_zero _
  | finite s m e pos =>
    simp only [UnpackedFloat.sub, Int.sub_self]
    exact repacked_zero _

theorem sub_of_zero {s t : UnpackedFloat.Sign} (hx : form x = .zero s)
    (hy : form y = .zero t) : ∃ r, form (x - y) = .zero r := by
  rw [form_sub, hx, hy]
  cases s <;> cases t <;> exact ⟨_, repacked_zero _⟩

/-- Between equal values there is no way to go. -/
theorem sub_interpolated (hx : x.isFinite = true) (hk : k.isFinite = true) :
    ∃ s, form (x - (x + (x - x) * k)) = .zero s := by
  obtain ⟨t, way⟩ : ∃ t, form ((x - x) * k) = .zero t := by
    rw [← isFinite_form] at hk
    rw [form_mul, form_sub_of_eq hx rfl]
    cases fk : form k with
    | notANumber | infinity =>
      rw [fk] at hk
      cases hk
    | zero s | finite s m e pos => exact ⟨_, repacked_zero _⟩
  have sum := form_add x ((x - x) * k)
  rw [way] at sum
  have finite := hx
  rw [← isFinite_form] at hx
  cases fx : form x with
  | notANumber | infinity =>
    rw [fx] at hx
    cases hx
  | zero s =>
    rw [fx] at sum
    obtain ⟨r, zero⟩ : ∃ r, form (x + (x - x) * k) = .zero r := by
      rw [sum]
      cases s <;> cases t <;> exact ⟨_, repacked_zero _⟩
    exact sub_of_zero fx zero
  | finite s m e pos =>
    refine ⟨.positive, form_sub_of_eq finite ?_⟩
    have same : repacked (form x) = form x := congrArg form (ofModel_pack_form x)
    rw [sum]
    rw [fx] at same ⊢
    exact same

end Double

variable {f : Elementary}

/-- A score of zero, of either sign, is that of an inlier. -/
theorem Verdict.ofScore_of_zero {x : Float} {s : Float.Model.UnpackedFloat.Sign}
    (h : Double.form x = .zero s) : @Verdict.ofScore Float f.scalar x = .inlier := by
  refine Prediction.ofScore_eq_inlier_iff.2 ⟨?_, ?_⟩
  · rw [← Double.isFinite_form, h]
    rfl
  · rw [Double.le_iff, h]
    cases s <;> rfl

namespace Forest

/-- The length of the path to a leaf of fifty rows, with the logarithm rounded to the nearest. -/
def leafLength : Float := 2.0 * (3.8918202981106265 + 0.5772156649015329) - 2.0 * 49.0 / 50.0

theorem not_leafLength_lt : ¬leafLength < leastNorm := by decide

theorem mean_leafLength :
    -(Scalar.sum (List.replicate 200 (Float.ofNat 0 + leafLength)) / Float.ofNat 200) / leafLength
      = -0.9999999999999992 := by
  decide +kernel

theorem negatedAnomaly_of_leaves (h : f.log 49.0 = 3.8918202981106265)
    (row : FeatureVector Float) :
    @negatedAnomaly Float f.scalar (List.replicate 200 (.leaf 50)) 50 row
      = -f.exp2 (-0.9999999999999992) := by
  have below : Float.ofNat 50 - 1.0 = 49.0 := by decide
  let := f.scalar
  have expected : @Tree.meanPath Float f.scalar 50 = leafLength := by
    show 2.0 * (f.log (Float.ofNat 50 - 1.0) + 0.5772156649015329)
      - 2.0 * (Float.ofNat 50 - 1.0) / Float.ofNat 50 = _
    rw [below, h]
    rfl
  have lengths : (List.replicate 200 (.leaf 50)).map (fun t => @Tree.pathLength Float f.scalar t row)
      = List.replicate 200 (Float.ofNat 0 + leafLength) := by
    rw [List.map_replicate, ← expected]
    rfl
  have sums : ∀ xs, @Scalar.sum Float f.scalar xs = Scalar.sum xs := fun _ => rfl
  have norm : ¬(leafLength < @leastNorm Float f.scalar) := not_leafLength_lt
  unfold negatedAnomaly
  rw [lengths, expected, List.length_replicate, sums, ← mean_leafLength]
  simp only [if_neg norm]
  rfl

/-- The percentile of equal values is that value, and the way to it is of no length. -/
theorem percentile_replicate (s : Float) :
    @Scalar.percentile? Float f.scalar (List.replicate 50 s) (100.0 * 0.01)
      = some (s + (s - s) * 0.49) := by
  have rank : Scalar.percentileRank 50 (100.0 * (0.01 : Float)) = 0.49 := by decide
  have floor : Double.floor 0.49 = 0 := by decide
  have ceil : Double.ceil 0.49 = 1 := by decide
  have part : (0.49 : Float) - Float.ofNat 0 = 0.49 := by decide
  let := f.scalar
  have rank : @Scalar.percentileRank Float f.scalar 50 (100.0 * 0.01) = 0.49 := rank
  have sorted : (List.replicate 50 s).mergeSort (@Scalar.sortLe Float f.scalar)
      = List.replicate 50 s := List.perm_replicate.1 (List.mergeSort_perm _ _)
  unfold Scalar.percentile?
  simp only [sorted, List.size_toArray, List.length_replicate, rank]
  show ((List.replicate 50 s).toArray[Double.floor 0.49]? >>= fun below =>
    (List.replicate 50 s).toArray[Double.ceil 0.49]? >>= fun above =>
      some (below + (above - below) * (0.49 - Float.ofNat (Double.floor 0.49)))) = _
  rw [floor, ceil, part]
  rfl

theorem growWith_of_growTrees {α σ : Type} [Scalar α] {draws : Draws α σ} {start : σ}
    {params : Params α} {rows : List (FeatureVector α)} {n : Nat} {trees : List (Tree α)}
    {boundary : α} (size : max 1 (min params.maxSamples rows.length) = n)
    (drawn : (growTrees draws n rows.toArray (max 1 params.estimators) start).1 = trees)
    (percentile : Scalar.percentile? (rows.map (negatedAnomaly trees n))
      (100.0 * params.contamination) = some boundary) :
    (growWith draws start params rows).1 = ⟨trees, n, boundary⟩ := by
  subst size drawn
  show Forest.mk _ _ ((Scalar.percentile? _ _).getD 0.0) = _
  rw [percentile]
  rfl

/-- A forest over fifty equal rows is made of leaves, and its boundary is where the rows are. -/
theorem growWith_of_equal {σ : Type} (draws : Draws Float σ) (start : σ)
    (hl : f.log 49.0 = 3.8918202981106265) (r : FeatureVector Float) :
    let s := -f.exp2 (-0.9999999999999992)
    (@growWith Float σ f.scalar draws start (@Params.standard Float f.scalar)
      (List.replicate 50 r)).1 = ⟨List.replicate 200 (.leaf 50), 50, s + (s - s) * 0.49⟩ := by
  let := f.scalar
  intro s
  have trees : (growTrees draws 50 (List.replicate 50 r).toArray 200 start).1
      = List.replicate 200 (.leaf 50) :=
    Forest.yields_growTrees Double.lt_irrefl _ (by decide) r 200 _
  have scores : (List.replicate 50 r).map (negatedAnomaly (List.replicate 200 (.leaf 50)) 50)
      = List.replicate 50 s := by
    rw [List.map_replicate, negatedAnomaly_of_leaves hl]
  have size : max 1 (min (@Params.standard Float f.scalar).maxSamples (List.replicate 50 r).length)
      = 50 := by rw [List.length_replicate]; rfl
  refine growWith_of_growTrees size trees ?_
  rw [scores]
  exact percentile_replicate s

/-- Every row is on the boundary of a forest over fifty equal rows, also a row that is not finite. -/
theorem score_of_equal (hl : f.log 49.0 = 3.8918202981106265)
    (hp : (f.exp2 (-0.9999999999999992)).isFinite = true) (r x : FeatureVector Float) :
    ∃ s, Double.form (@Forest.score Float f.scalar
      (@Forest.grow Float f.scalar .standard (List.replicate 50 r)).1 x) = .zero s := by
  let := f.scalar
  have grown := growWith_of_equal ChaCha.draws (ChaCha.ofSeed 42) hl r
  have anomaly := negatedAnomaly_of_leaves hl x
  show ∃ s, Double.form ((growWith ChaCha.draws (ChaCha.ofSeed 42) .standard
    (List.replicate 50 r)).1.score x) = .zero s
  rw [grown, score, anomaly]
  exact Double.sub_interpolated (Double.isFinite_neg.2 hp) (by decide)

end Forest

end CounterWatch
