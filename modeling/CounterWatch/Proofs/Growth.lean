import CounterWatch.Proofs.Fitting

/-!
# Growth of trees

What holds of every tree that can be grown over some rows, whatever is drawn, is proved from one
description of these trees.

* `Drawing.Yields` says what holds of a result whatever is drawn.
* `Tree.Grown` are the trees that a source of random values can grow over some rows, and
  `Tree.yields_grown` says that growing gives such a tree.
* `Tree.splits` are the splits of a tree. Each of a grown tree is of a feature with two values in
  order, at a threshold drawn from between them (`Tree.Grown.of_mem_splits`), and rows that go the
  same way at all of them have the same path (`Tree.path_congr`).
* `Forest.GrownOver` says that trees are grown over samples of some rows, and
  `Forest.grownOver_growWith` that those of a forest are. So what it says comes from features
  with spread (`Forest.negatedAnomaly_congr_of_spread`).
-/

namespace CounterWatch

/-! ## What drawings yield -/

namespace Drawing

variable {σ β γ : Type} {p : β → Prop} {q : γ → Prop}

/-- Whatever is drawn, the result has a property. -/
def Yields (p : β → Prop) (c : Drawing σ β) : Prop := ∀ s, p (c s).1

theorem yields_pure {x : β} (h : p x) : Yields p (pure x : Drawing σ β) := fun _ => h

theorem Yields.bind {c : Drawing σ β} {g : β → Drawing σ γ} (hc : Yields p c)
    (hg : ∀ x, p x → Yields q (g x)) : Yields q (c >>= g) :=
  fun s => hg (c s).1 (hc s) (c s).2

theorem yields_drawn (c : Drawing σ β) : Yields (fun x => ∃ s, (c s).1 = x) c := fun s => ⟨s, rfl⟩

theorem yields_anything (c : Drawing σ β) : Yields (fun _ => True) c := fun _ => trivial

theorem Yields.ite {r : Prop} [Decidable r] {c d : Drawing σ β} (hc : r → Yields p c)
    (hd : ¬r → Yields p d) : Yields p (if r then c else d) := by
  split
  case isTrue h => exact hc h
  case isFalse h => exact hd h

theorem yields_foldlM {g : β → γ → Drawing σ β} (step : ∀ x y, p x → Yields p (g x y))
    (ys : List γ) {x : β} (h : p x) : Yields p (ys.foldlM g x) := by
  induction ys generalizing x with
  | nil => exact yields_pure h
  | cons y ys ih =>
    rw [List.foldlM_cons]
    exact (step x y h).bind fun _ next => ih next

end Drawing

open Drawing

/-! ## Trees -/

namespace Tree

variable {α σ : Type} [Scalar α]

/-- The trees that a source can grow over some rows with at most `depth` splits on a path. A tree
ends where no split is allowed, needed or possible, or where the index drawn is that of no feature.
Where it goes on, a feature with spread is split at a threshold drawn from its range. -/
inductive Grown (draws : Draws α σ) : Nat → List (FeatureVector α) → Tree α → Prop
  | leaf {depth : Nat} {rows : List (FeatureVector α)}
      (stop : depth = 0 ∨ rows.length ≤ 1 ∨ candidates rows = [] ∨
        ∃ s, (candidates rows)[(draws.index 0 ((candidates rows).length - 1) s).1]? = none) :
      Grown draws depth rows (.leaf rows.length)
  | split {depth : Nat} {rows : List (FeatureVector α)} {j : Fin featureCount}
      {lo hi threshold : α} {low high : Tree α} (chosen : (j, lo, hi) ∈ candidates rows)
      (drawn : ∃ s, (draws.threshold lo hi s).1 = threshold)
      (below : Grown draws depth (rows.filter fun row => row.get j < threshold) low)
      (rest : Grown draws depth (rows.filter fun row => ¬row.get j < threshold) high) :
      Grown draws (depth + 1) rows (.split j threshold low high)

/-- **Growing gives a tree that can be grown**, whatever is drawn. -/
theorem yields_grown (draws : Draws α σ) (depth : Nat) (rows : List (FeatureVector α)) :
    Yields (Grown draws depth rows) (grow draws depth rows) := by
  induction depth generalizing rows with
  | zero => exact yields_pure (.leaf (.inl rfl))
  | succ depth ih =>
    unfold grow
    refine Yields.ite (fun few => yields_pure (.leaf (.inr (.inl few)))) fun _ => ?_
    refine Yields.ite (fun none => yields_pure (.leaf (.inr (.inr (.inl ?_))))) fun _ => ?_
    · exact List.isEmpty_iff.1 none
    refine (yields_drawn _).bind fun i drawn => ?_
    cases there : (candidates rows)[i]? with
    | none =>
      obtain ⟨s, rfl⟩ := drawn
      exact yields_pure (.leaf (.inr (.inr (.inr ⟨s, there⟩))))
    | some c =>
      obtain ⟨j, lo, hi⟩ := c
      refine (yields_drawn _).bind fun threshold drawn => ?_
      have parts : (rows.partition fun row => decide (row[j] < threshold))
          = (rows.filter fun row => row.get j < threshold,
            rows.filter fun row => ¬row.get j < threshold) := by
        rw [List.partition_eq_filter_filter]
        exact congrArg (Prod.mk _) (List.filter_congr fun row _ => (decide_not ..).symm)
      rw [parts]
      refine (ih _).bind fun low below => (ih _).bind fun high rest => yields_pure ?_
      exact .split (List.mem_of_getElem? there) drawn below rest

/-- The splits of a tree, each a feature and a threshold. -/
def splits : Tree α → List (Fin featureCount × α)
  | .leaf _ => []
  | .split feature threshold low high => (feature, threshold) :: (low.splits ++ high.splits)

/-- A split of a grown tree is at a threshold drawn from between two values of its feature. -/
theorem Grown.of_mem_splits {draws : Draws α σ} {depth : Nat} {rows : List (FeatureVector α)}
    {tree : Tree α} (grown : Grown draws depth rows tree) {j : Fin featureCount} {threshold : α}
    (mem : (j, threshold) ∈ tree.splits) {p : α → Prop} (all : ∀ row ∈ rows, p (row.get j)) :
    ∃ lo hi, p lo ∧ p hi ∧ lo < hi ∧ ∃ s, (draws.threshold lo hi s).1 = threshold := by
  induction grown with
  | leaf => cases mem
  | split chosen drawn _ _ below_ih rest_ih =>
    rw [splits, List.mem_cons, List.mem_append] at mem
    rcases mem with here | below | rest
    · obtain ⟨rfl, rfl⟩ := Prod.mk.inj here
      obtain ⟨plo, phi, lt⟩ := candidates_of_forall all chosen
      exact ⟨_, _, plo, phi, lt, drawn⟩
    · exact below_ih below fun row mem => all row (List.mem_of_mem_filter mem)
    · exact rest_ih rest fun row mem => all row (List.mem_of_mem_filter mem)

theorem path_split (j : Fin featureCount) (threshold : α) (low high : Tree α)
    (row : FeatureVector α) : (split j threshold low high).path row =
      let rest := if row.get j < threshold then low.path row else high.path row
      (rest.1 + 1, rest.2) := rfl

/-- Rows that go the same way at every split come to the same leaf. -/
theorem path_congr {tree : Tree α} {x y : FeatureVector α}
    (same : ∀ s ∈ tree.splits, (x.get s.1 < s.2 ↔ y.get s.1 < s.2)) : tree.path x = tree.path y := by
  induction tree with
  | leaf => rfl
  | split j threshold low high low_ih high_ih =>
    rw [splits, List.forall_mem_cons, List.forall_mem_append] at same
    obtain ⟨here, below, rest⟩ := same
    rw [path_split, path_split, low_ih below, high_ih rest]
    simp only [here]

end Tree

/-! ## Forests -/

namespace Forest

variable {α σ : Type} [Scalar α]

/-- Trees that a source can grow over samples of some rows. -/
def GrownOver (draws : Draws α σ) (rows : List (FeatureVector α)) (trees : List (Tree α)) : Prop :=
  ∀ tree ∈ trees, ∃ depth sample, (∀ row ∈ sample, row ∈ rows) ∧ Tree.Grown draws depth sample tree

theorem yields_grownOver (draws : Draws α σ) (size : Nat) (rows : List (FeatureVector α))
    (count : Nat) : Yields (GrownOver draws rows) (growTrees draws size rows.toArray count) := by
  induction count with
  | zero => exact yields_pure fun tree mem => absurd mem List.not_mem_nil
  | succ count ih =>
    have one : Yields (fun tree => ∃ depth sample, (∀ row ∈ sample, row ∈ rows) ∧
        Tree.Grown draws depth sample tree) (growOne draws size rows.toArray) := by
      refine (yields_anything _).bind fun places _ s => ?_
      refine ⟨_, _, fun row mem => ?_, Tree.yields_grown draws _ _ s⟩
      obtain ⟨place, -, found⟩ := List.mem_filterMap.1 mem
      exact List.mem_toArray.1 (Array.mem_of_getElem? found)
    exact one.bind fun tree grown => ih.bind fun rest others =>
      yields_pure (List.forall_mem_cons.2 ⟨grown, others⟩)

/-- **The trees of a forest are grown over samples of its rows.** -/
theorem grownOver_growWith (draws : Draws α σ) (start : σ) (params : Params α)
    (rows : List (FeatureVector α)) : GrownOver draws rows (growWith draws start params rows).1.trees :=
  yields_grownOver draws _ rows _ start

/-- What a forest says of a row comes from the ways that the row goes at the splits. -/
theorem negatedAnomaly_congr {trees : List (Tree α)} (size : Nat) {x y : FeatureVector α}
    (same : ∀ tree ∈ trees, ∀ s ∈ tree.splits, (x.get s.1 < s.2 ↔ y.get s.1 < s.2)) :
    negatedAnomaly trees size x = negatedAnomaly trees size y := by
  have lengths : trees.map (fun t => t.pathLength x) = trees.map fun t => t.pathLength y :=
    List.map_congr_left fun tree mem => by
      simp only [Tree.pathLength, Tree.path_congr (same tree mem)]
  simp only [negatedAnomaly, lengths]

/-- **A forest looks at features with spread only.** -/
theorem negatedAnomaly_congr_of_spread (draws : Draws α σ) (start : σ) (params : Params α)
    {rows : List (FeatureVector α)} {x y : FeatureVector α}
    (same : ∀ j : Fin featureCount, ∀ r ∈ rows, ∀ s ∈ rows, r.get j < s.get j → x.get j = y.get j) :
    let f := (growWith draws start params rows).1
    negatedAnomaly f.trees f.sampleSize x = negatedAnomaly f.trees f.sampleSize y := by
  refine negatedAnomaly_congr _ fun tree mem s split => ?_
  obtain ⟨depth, sample, part, grown⟩ := grownOver_growWith draws start params rows tree mem
  obtain ⟨lo, hi, ⟨r, hr, rfl⟩, ⟨r', hr', rfl⟩, lt, -⟩ := grown.of_mem_splits split
    (p := fun v => ∃ row ∈ rows, row.get s.1 = v) fun row there => ⟨row, part row there, rfl⟩
  rw [same s.1 r hr r' hr' lt]

end Forest

end CounterWatch
