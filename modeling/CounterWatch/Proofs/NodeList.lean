import CounterWatch.Proofs.Stream
import Mathlib.Data.List.Range

/-!
# Trees in a list of nodes

A tree can be kept in a list of nodes that know their children by their places. A place is taken
before the children of a node are made, with a leaf in it, and overwritten once they are there.

* `Node.grow` grows a tree into such a list, and `Node.walk` is the way of a row through it, one
  node after the other.
* `Tree.layout` is the list of a tree: a node, then the list of its low side, then that of its high
  side. `Node.run_grow` says that this is what comes of growing.
* `Tree.Holds` says that a list has a tree at a place, and `Tree.Holds.walk_eq` that a row then goes
  the same way in both.
* `Tree.Grown.sizes_layout` and `Tree.Grown.beq_of_place_eq` are about the rows that a tree was grown
  over.
* `Node.WellBuilt` is what is said of the list and its tree, and `Node.grown_trees_are_well_built`
  says it of all that are grown over finite rows.
-/

namespace CounterWatch

/-- A node of a list that holds a tree. The sides of a split are given by their places. -/
inductive Node (α : Type) where
  | leaf (size : Nat)
  | split (feature : Fin featureCount) (threshold : α) (low high : Nat)

namespace Node

variable {α σ : Type}

/-- The places of the two sides. -/
def children : Node α → List Nat
  | .leaf _ => []
  | .split _ _ low high => [low, high]

/-- The count of rows at the node itself. -/
def size : Node α → Nat
  | .leaf size => size
  | .split .. => 0

/-- A node put at the end of the list; its place is the result. -/
def push (node : Node α) : StateT (List (Node α)) (Drawing σ) Nat :=
  modifyGet fun nodes => (nodes.length, nodes ++ [node])

variable [Scalar α]

/-- A tree over some rows grown at the end of the list; its place is the result. -/
def grow (draws : Draws α σ) :
    (depth : Nat) → List (FeatureVector α) → StateT (List (Node α)) (Drawing σ) Nat
  | 0, rows => push (.leaf rows.length)
  | depth + 1, rows => do
    let place ← push (.leaf rows.length)
    if rows.length ≤ 1 then return place
    let features := Tree.candidates rows
    if features.isEmpty then return place
    let i ← draws.index 0 (features.length - 1)
    match features[i]? with
    | none => return place
    | some (feature, lo, hi) =>
      let threshold ← draws.threshold lo hi
      let (below, rest) := rows.partition fun row => decide (row.get feature < threshold)
      let low ← grow draws depth below
      let high ← grow draws depth rest
      modify fun nodes => nodes.set place (.split feature threshold low high)
      return place

/-- The way of a row from a place on: the count of splits that it passes and the place of the leaf
that it comes to, if that takes fewer turns than given. -/
def walk (nodes : List (Node α)) (row : FeatureVector α) :
    (turns : Nat) → (place : Nat) → Option (Nat × Nat)
  | 0, _ => none
  | turns + 1, place =>
    match nodes[place]? with
    | none => none
    | some (.leaf _) => some (0, place)
    | some (.split feature threshold low high) =>
      (walk nodes row turns (if row.get feature < threshold then low else high)).map
        fun (splits, last) => (splits + 1, last)

end Node

namespace Tree

variable {α σ : Type}

/-! ## The list of a tree -/

/-- The count of nodes. -/
def nodeCount : Tree α → Nat
  | .leaf _ => 1
  | .split _ _ low high => 1 + low.nodeCount + high.nodeCount

/-- The nodes of a tree whose root is at a place. -/
def layout : Tree α → (start : Nat) → List (Node α)
  | .leaf size, _ => [.leaf size]
  | .split feature threshold low high, start =>
    let middle := start + 1 + low.nodeCount
    .split feature threshold (start + 1) middle :: (low.layout (start + 1) ++ high.layout middle)

@[simp] theorem length_layout (tree : Tree α) (start : Nat) :
    (tree.layout start).length = tree.nodeCount := by
  induction tree generalizing start with
  | leaf => rfl
  | split j threshold low high low_ih high_ih =>
    simp only [layout, nodeCount, List.length_cons, List.length_append, low_ih, high_ih]
    omega

/-- The places of a split and its sides. -/
theorem range'_nodeCount (j : Fin featureCount) (threshold : α) (low high : Tree α) (start : Nat) :
    List.range' start (split j threshold low high).nodeCount
      = start :: (List.range' (start + 1) low.nodeCount
        ++ List.range' (start + 1 + low.nodeCount) high.nodeCount) := by
  rw [nodeCount, List.range'_append_1, Nat.add_assoc, Nat.add_comm 1, List.range'_succ]

/-- The root and the children of all nodes are all the places, each once. -/
theorem children_layout (tree : Tree α) (start : Nat) :
    (start :: (tree.layout start).flatMap Node.children).Perm
      (List.range' start tree.nodeCount) := by
  induction tree generalizing start with
  | leaf => exact .refl _
  | split j threshold low high low_ih high_ih =>
    have sides := (low_ih (start + 1)).append (high_ih (start + 1 + low.nodeCount))
    rw [range'_nodeCount, layout, List.flatMap_cons, List.flatMap_append]
    generalize (low.layout (start + 1)).flatMap Node.children = below at sides ⊢
    generalize (high.layout (start + 1 + low.nodeCount)).flatMap Node.children = rest at sides ⊢
    have middle : ((start + 1 + low.nodeCount) :: (below ++ rest)).Perm
        (below ++ (start + 1 + low.nodeCount) :: rest) := List.perm_middle.symm
    exact .cons _ (.trans (.cons _ middle) sides)

/-- Children come after their parents. -/
theorem lt_of_mem_children {tree : Tree α} {start i : Nat} {node : Node α}
    (there : (tree.layout start)[i]? = some node) {child : Nat} (mem : child ∈ node.children) :
    start + i < child := by
  induction tree generalizing start i with
  | leaf size =>
    obtain rfl := List.mem_singleton.1 (List.mem_of_getElem? there)
    cases mem
  | split j threshold low high low_ih high_ih =>
    cases i with
    | zero =>
      cases there
      rcases List.mem_pair.1 mem with rfl | rfl <;> omega
    | succ i =>
      rw [layout, List.getElem?_cons_succ, List.getElem?_append, length_layout] at there
      split at there
      · have less := low_ih there
        omega
      · have less := high_ih there
        omega

end Tree

/-! ## Growing -/

namespace Node

variable {α σ : Type}

theorem run_push (node : Node α) (nodes : List (Node α)) :
    (push node : StateT (List (Node α)) (Drawing σ) Nat).run nodes
      = pure (nodes.length, nodes ++ [node]) := rfl

/-- What is drawn does not depend on the list. -/
theorem run_draw {β : Type} (c : Drawing σ β) (nodes : List (Node α)) :
    (liftM c : StateT (List (Node α)) (Drawing σ) β).run nodes
      = c >>= fun x => pure (x, nodes) := rfl

variable [Scalar α]

/-- Growing at the end of a list adds the list of the tree that is grown. -/
theorem run_grow (draws : Draws α σ) (depth : Nat) (rows : List (FeatureVector α))
    (nodes : List (Node α)) :
    (grow draws depth rows).run nodes =
      (fun tree => (nodes.length, nodes ++ tree.layout nodes.length))
        <$> Tree.grow draws depth rows := by
  induction depth generalizing rows nodes with
  | zero => rfl
  | succ depth ih =>
    rw [grow, Tree.grow, StateT.run_bind, run_push, pure_bind]
    by_cases few : rows.length ≤ 1
    · simp only [few, ↓reduceIte]
      rfl
    by_cases none : (Tree.candidates rows).isEmpty = true
    · simp only [few, none, ↓reduceIte]
      rfl
    simp only [few, none, ↓reduceIte, Bool.false_eq_true, StateT.run_bind, map_bind,
      run_draw, bind_assoc, pure_bind]
    refine bind_congr fun i => ?_
    cases (Tree.candidates rows)[i]? with
    | none => rfl
    | some c =>
      simp only [StateT.run_bind, map_bind, run_draw, bind_assoc, pure_bind, ih,
        bind_map_left, map_pure]
      refine bind_congr fun threshold => bind_congr fun low => bind_congr fun high => ?_
      -- Both sides are at the end of the list by now, so that the place taken first is still the
      -- one after `nodes`.
      show (pure (nodes.length, List.set _ nodes.length _) : Drawing σ (Nat × List (Node α))) = _
      have first : (nodes ++ [leaf rows.length]).length = nodes.length + 1 := List.length_append
      have second : (nodes ++ [leaf rows.length] ++ low.layout (nodes.length + 1)).length
          = nodes.length + 1 + low.nodeCount := by
        rw [List.length_append, first, Tree.length_layout]
      rw [first, second, List.append_assoc, List.append_assoc,
        List.set_append_right _ _ (Nat.le_refl _), Nat.sub_self]
      rfl

end Node

namespace Tree

variable {α σ : Type}

/-! ## Walking -/

/-- The place of the leaf that a row comes to, if the root is at a given place. -/
def place [Scalar α] (row : FeatureVector α) : Tree α → (start : Nat) → Nat
  | .leaf _, start => start
  | .split feature threshold low high, start =>
    if row.get feature < threshold then low.place row (start + 1)
    else high.place row (start + 1 + low.nodeCount)

/-- Whether a list has a tree at a place. -/
def Holds (nodes : List (Node α)) (tree : Tree α) (start : Nat) : Prop :=
  tree.layout start <+: nodes.drop start

theorem holds_layout (tree : Tree α) : Holds (tree.layout 0) tree 0 := List.prefix_rfl

theorem Holds.leaf {nodes : List (Node α)} {size start : Nat}
    (h : Holds nodes (.leaf size) start) : nodes[start]? = some (.leaf size) := by
  obtain ⟨after, eq⟩ := h
  rw [← Nat.add_zero start, ← List.getElem?_drop, ← eq]
  rfl

/-- A list with a split has its two sides. -/
theorem Holds.split {nodes : List (Node α)} {j : Fin featureCount} {threshold : α}
    {low high : Tree α} {start : Nat} (h : Holds nodes (.split j threshold low high) start) :
    let middle := start + 1 + low.nodeCount
    nodes[start]? = some (.split j threshold (start + 1) middle) ∧
      Holds nodes low (start + 1) ∧ Holds nodes high middle := by
  intro middle
  obtain ⟨after, eq⟩ := h
  have sides : nodes.drop (start + 1) = low.layout (start + 1) ++ (high.layout middle ++ after) := by
    rw [← List.drop_drop, ← eq, ← List.append_assoc]
    rfl
  have highest : nodes.drop middle = high.layout middle ++ after := by
    rw [← List.drop_drop, sides, List.drop_left' (length_layout ..)]
  refine ⟨?_, ⟨_, sides.symm⟩, ⟨_, highest.symm⟩⟩
  rw [← Nat.add_zero start, ← List.getElem?_drop, ← eq]
  rfl

variable [Scalar α]

/-- **A row goes the same way through a tree and through a list that has it.** -/
theorem Holds.walk_eq {nodes : List (Node α)} {tree : Tree α} {start : Nat}
    (h : Holds nodes tree start) (row : FeatureVector α) {turns : Nat}
    (enough : (tree.path row).1 < turns) :
    Node.walk nodes row turns start = some ((tree.path row).1, tree.place row start) ∧
      nodes[tree.place row start]? = some (.leaf (tree.path row).2) := by
  induction tree generalizing start turns with
  | leaf size =>
    obtain ⟨turns, rfl⟩ := Nat.exists_eq_succ_of_ne_zero (Nat.ne_of_gt enough)
    refine ⟨?_, h.leaf⟩
    rw [Node.walk, h.leaf]
    rfl
  | split j threshold low high low_ih high_ih =>
    obtain ⟨turns, rfl⟩ := Nat.exists_eq_succ_of_ne_zero (Nat.ne_zero_of_lt enough)
    obtain ⟨root, below, rest⟩ := h.split
    rw [Node.walk, root]
    simp only [path_split, place] at enough ⊢
    by_cases less : row.get j < threshold
    · simp only [less, ↓reduceIte] at enough ⊢
      obtain ⟨walk, leaf⟩ := low_ih below (Nat.lt_of_succ_lt_succ enough)
      exact ⟨by rw [walk]; rfl, leaf⟩
    · simp only [less, ↓reduceIte] at enough ⊢
      obtain ⟨walk, leaf⟩ := high_ih rest (Nat.lt_of_succ_lt_succ enough)
      exact ⟨by rw [walk]; rfl, leaf⟩

/-! ## The rows of a tree -/

theorem place_mem (tree : Tree α) (row : FeatureVector α) (start : Nat) :
    start ≤ tree.place row start ∧ tree.place row start < start + tree.nodeCount := by
  induction tree generalizing start with
  | leaf => exact ⟨Nat.le_refl _, Nat.lt_succ_self _⟩
  | split j threshold low high low_ih high_ih =>
    have below := low_ih (start + 1)
    have rest := high_ih (start + 1 + low.nodeCount)
    rw [place, nodeCount]
    split_ifs <;> omega

section

variable {j : Fin featureCount} {threshold : α} {low high : Tree α} {start p : Nat}
  (rows : List (FeatureVector α))

/-- The rows at a place on the low side are those that go to that side and come to the place. -/
theorem countP_place_low (less : p < start + 1 + low.nodeCount) :
    rows.countP (fun row => (split j threshold low high).place row start = p)
      = (rows.filter fun row => row.get j < threshold).countP
          fun row => low.place row (start + 1) = p := by
  rw [List.countP_filter]
  refine List.countP_congr fun row _ => ?_
  have high_le := (high.place_mem row (start + 1 + low.nodeCount)).1
  by_cases below : row.get j < threshold <;>
    simp only [place, below, ↓reduceIte, Bool.and_eq_true, decide_eq_true_eq, and_true, and_false,
      iff_false]
  omega

/-- So with the high side. -/
theorem countP_place_high (le : start + 1 + low.nodeCount ≤ p) :
    rows.countP (fun row => (split j threshold low high).place row start = p)
      = (rows.filter fun row => ¬row.get j < threshold).countP
          fun row => high.place row (start + 1 + low.nodeCount) = p := by
  rw [List.countP_filter]
  refine List.countP_congr fun row _ => ?_
  have lt_low := (low.place_mem row (start + 1)).2
  by_cases below : row.get j < threshold <;>
    simp only [place, below, ↓reduceIte, Bool.and_eq_true, decide_eq_true_eq, not_true_eq_false,
      not_false_eq_true, and_true, and_false, iff_false]
  omega

end

section

variable {draws : Draws α σ} {depth : Nat} {rows : List (FeatureVector α)} {tree : Tree α}
  (grown : Grown draws depth rows tree)

include grown

/-- A grown tree has no longer paths than allowed. -/
theorem Grown.path_le (row : FeatureVector α) : (tree.path row).1 ≤ depth := by
  induction grown with
  | leaf => exact Nat.zero_le _
  | split _ _ _ _ low_ih high_ih =>
    rw [path_split]
    split_ifs
    · exact Nat.succ_le_succ low_ih
    · exact Nat.succ_le_succ high_ih

/-- The leaves have all rows. -/
theorem Grown.sum_sizes (start : Nat) : ((tree.layout start).map Node.size).sum = rows.length := by
  induction grown generalizing start with
  | leaf => rfl
  | @split _ rows j _ _ threshold _ _ _ _ _ _ low_ih high_ih =>
    have parts := List.length_eq_length_filter_add (l := rows)
      fun row => decide (row.get j < threshold)
    rw [layout, List.map_cons, List.sum_cons, List.map_append, List.sum_append, low_ih, high_ih,
      parts]
    simp [Node.size]

/-- **A leaf counts the rows that come to it.** -/
theorem Grown.sizes_layout (start : Nat) :
    (tree.layout start).map Node.size = (List.range' start tree.nodeCount).map fun place =>
      rows.countP fun row => tree.place row start = place := by
  induction grown generalizing start with
  | leaf => simp [layout, nodeCount, Node.size, place]
  | @split _ rows j _ _ threshold low high _ _ _ _ low_ih high_ih =>
    -- The sides begin after the root, so no row stays there.
    have root : rows.countP (fun row => (Tree.split j threshold low high).place row start = start)
        = 0 := by
      rw [countP_place_low _ (by omega)]
      refine List.countP_eq_zero.2 fun row _ there => ?_
      have least := (low.place_mem row (start + 1)).1
      rw [of_decide_eq_true there] at least
      exact Nat.not_succ_le_self start least
    rw [range'_nodeCount, layout, List.map_cons, List.map_cons, List.map_append, List.map_append,
      low_ih, high_ih, root]
    refine congrArg₂ (_ :: · ++ ·) (List.map_congr_left fun p mem => ?_)
      (List.map_congr_left fun p mem => ?_)
    · exact (countP_place_low _ (List.mem_range'_1.1 mem).2).symm
    · exact (countP_place_high _ (List.mem_range'_1.1 mem).1).symm

end

/-! ## Rows that are not parted -/

section

variable {rows : List (FeatureVector Float)} {j : Fin featureCount}

/-- All values lie between the extremes. -/
theorem extremes_bounds {lo hi : Float} (known : ∀ row ∈ rows, (row.get j).isNaN = false)
    (hlo : lo.isNaN = false) (hhi : hi.isNaN = false) :
    ((extremes j rows lo hi).1 ≤ lo ∧ hi ≤ (extremes j rows lo hi).2) ∧
      ∀ row ∈ rows, (extremes j rows lo hi).1 ≤ row.get j ∧
        row.get j ≤ (extremes j rows lo hi).2 := by
  induction rows generalizing lo hi with
  | nil => exact ⟨⟨Double.le_self hlo, Double.le_self hhi⟩, fun _ mem => absurd mem List.not_mem_nil⟩
  | cons row rest ih =>
    obtain ⟨here, there⟩ := List.forall_mem_cons.1 known
    rw [extremes]
    set x := row.get j
    have lesser : (if x < lo then x else lo) ≤ x ∧ (if x < lo then x else lo) ≤ lo := by
      split_ifs with less
      · exact ⟨Double.le_self here, Double.le_of_lt less⟩
      · exact ⟨Double.le_of_not_lt here hlo less, Double.le_self hlo⟩
    have greater : x ≤ (if hi < x then x else hi) ∧ hi ≤ (if hi < x then x else hi) := by
      split_ifs with less
      · exact ⟨Double.le_self here, Double.le_of_lt less⟩
      · exact ⟨Double.le_of_not_lt hhi here less, Double.le_self hhi⟩
    obtain ⟨⟨low, high⟩, others⟩ :=
      ih there (Double.isNaN_of_le lesser.1).1 (Double.isNaN_of_le greater.1).2
    refine ⟨⟨Double.le_trans low lesser.2, Double.le_trans greater.2 high⟩,
      List.forall_mem_cons.2 ⟨?_, others⟩⟩
    exact ⟨Double.le_trans low lesser.1, Double.le_trans greater.1 high⟩

variable (finite : ∀ row ∈ rows, row.isFinite = true)

include finite

/-- Finite rows without a feature to split are equal. -/
theorem beq_of_candidates_eq_nil (none : candidates rows = []) {r s : FeatureVector Float}
    (hr : r ∈ rows) (hs : s ∈ rows) (j : Fin featureCount) : (r.get j == s.get j) = true := by
  have known : ∀ row ∈ rows, (row.get j).isNaN = false := fun row mem =>
    Double.isNaN_of_isFinite (FeatureVector.isFinite_iff.1 (finite row mem) j)
  obtain ⟨first, rest, rfl⟩ := List.exists_cons_of_ne_nil (List.ne_nil_of_mem hr)
  obtain ⟨here, there⟩ := List.forall_mem_cons.1 known
  set x := first.get j
  obtain ⟨⟨low, high⟩, others⟩ := extremes_bounds there here here
  have between := List.forall_mem_cons.2 ⟨⟨low, high⟩, others⟩
  have self : x ≤ x := Double.le_self here
  have range : range? (first :: rest) j = some (extremes j rest x x) := by
    rw [range?, List.dropWhile_cons_of_neg (by simpa using self)]
  have left := List.filterMap_eq_nil_iff.1 none j (List.mem_finRange j)
  rw [range] at left
  have flat : ¬(extremes j rest x x).1 < (extremes j rest x x).2 := by simpa using left
  have back := Double.le_of_not_lt (Double.isNaN_of_le low).1 (Double.isNaN_of_le high).2 flat
  exact (Double.beq_iff (known r hr) (known s hs)).2
    ⟨Double.le_trans (Double.le_trans (between r hr).2 back) (between s hs).1,
      Double.le_trans (Double.le_trans (between s hs).2 back) (between r hr).1⟩

/-- **Rows that are not parted are equal**, if there was room for a split. -/
theorem Grown.beq_of_place_eq {σ : Type} {draws : Draws Float σ} (lawful : draws.Lawful)
    {depth : Nat} {tree : Tree Float} (grown : Grown draws depth rows tree) {start : Nat}
    {r s : FeatureVector Float} (hr : r ∈ rows) (hs : s ∈ rows)
    (together : tree.place r start = tree.place s start) (room : (tree.path r).1 < depth)
    (j : Fin featureCount) : (r.get j == s.get j) = true := by
  induction grown generalizing start with
  | @leaf _ rows stop =>
    rcases stop with none | few | none | ⟨s, missed⟩
    · rw [none] at room
      cases room
    · obtain ⟨x, rfl⟩ := List.length_eq_one_iff.1 (Nat.le_antisymm few (List.length_pos_of_mem hr))
      rw [List.mem_singleton.1 hr, List.mem_singleton.1 hs]
      have known := Double.isNaN_of_isFinite (FeatureVector.isFinite_iff.1
        (finite x List.mem_cons_self) j)
      exact (Double.beq_iff known known).2 ⟨Double.le_self known, Double.le_self known⟩
    · exact beq_of_candidates_eq_nil finite none hr hs j
    · -- A lawful index is that of a feature, so there was none.
      have le := (lawful.index_mem 0 _ s (Nat.zero_le ((candidates rows).length - 1))).2
      have beyond := List.getElem?_eq_none_iff.1 missed
      have none := List.length_eq_zero_iff.1 (by omega : (candidates rows).length = 0)
      exact beq_of_candidates_eq_nil finite none hr hs j
  | @split _ rows i _ _ threshold low high _ _ _ _ low_ih high_ih =>
    have part {p : FeatureVector Float → Bool} : ∀ row ∈ rows.filter p, row.isFinite = true :=
      fun row mem => finite row (List.mem_of_mem_filter mem)
    have lt_low := fun row => (low.place_mem row (start + 1)).2
    have high_le := fun row => (high.place_mem row (start + 1 + low.nodeCount)).1
    simp only [path_split, place] at room together
    by_cases below : r.get i < threshold <;> by_cases below' : s.get i < threshold <;>
      simp only [below, below', ↓reduceIte] at room together
    · exact low_ih part (List.mem_filter.2 ⟨hr, decide_eq_true below⟩)
        (List.mem_filter.2 ⟨hs, decide_eq_true below'⟩) together (Nat.lt_of_succ_lt_succ room)
    · have less := lt_low r
      have most := high_le s
      omega
    · have less := lt_low s
      have most := high_le r
      omega
    · exact high_ih part (List.mem_filter.2 ⟨hr, decide_eq_true below⟩)
        (List.mem_filter.2 ⟨hs, decide_eq_true below'⟩) together (Nat.lt_of_succ_lt_succ room)

end

end Tree

namespace Node

/-- What it means that a list of nodes is well built: every child is in the list and comes after its
parent, every place but that of the root is once the child of a node, every row comes to a leaf
after at most `depth` splits and goes the same way as in the tree, the leaves count the rows that
come to them and have all of them, and rows that come to the same leaf with a split to spare are
equal in every feature. -/
structure WellBuilt (nodes : List (Node Float)) (tree : Tree Float) (depth : Nat)
    (rows : List (FeatureVector Float)) : Prop where
  child_mem : ∀ place node, nodes[place]? = some node →
    ∀ child ∈ node.children, place < child ∧ child < nodes.length
  count_children : ∀ place < nodes.length,
    (nodes.flatMap children).count place = if place = 0 then 0 else 1
  walk_eq : ∀ row, (tree.path row).1 ≤ depth ∧
    ∃ place, nodes[place]? = some (.leaf (tree.path row).2) ∧
      ∀ turns > depth, walk nodes row turns 0 = some ((tree.path row).1, place)
  size_eq : ∀ place size, nodes[place]? = some (.leaf size) →
    size = rows.countP fun row => (walk nodes row (depth + 1) 0).map Prod.snd = some place
  sum_sizes : (nodes.map size).sum = rows.length
  beq : ∀ r ∈ rows, ∀ s ∈ rows, ∀ place splits splits', splits < depth →
    walk nodes r (depth + 1) 0 = some (splits, place) →
    walk nodes s (depth + 1) 0 = some (splits', place) →
    ∀ j : Fin featureCount, (r.get j == s.get j) = true

/-- The list of a grown tree. -/
theorem wellBuilt_layout {σ : Type} {draws : Draws Float σ} (lawful : draws.Lawful) {depth : Nat}
    {rows : List (FeatureVector Float)} {tree : Tree Float}
    (finite : ∀ row ∈ rows, row.isFinite = true) (grown : Tree.Grown draws depth rows tree) :
    WellBuilt (tree.layout 0) tree depth rows := by
  have way (row : FeatureVector Float) {turns : Nat} (enough : depth < turns) :=
    tree.holds_layout.walk_eq row (Nat.lt_of_le_of_lt (grown.path_le row) enough)
  have walk (row : FeatureVector Float) := (way row (Nat.lt_succ_self depth)).1
  have places := tree.children_layout 0
  refine ⟨fun place node there child mem => ?_, fun place lt => ?_, fun row => ?_,
    fun place size there => ?_, grown.sum_sizes 0,
    fun r hr s hs place splits splits' room hr' hs' => ?_⟩
  · have less := Tree.lt_of_mem_children there mem
    have all := places.mem_iff.1 (List.mem_cons_of_mem _
      (List.mem_flatMap.2 ⟨node, List.mem_of_getElem? there, mem⟩))
    rw [List.mem_range'_1] at all
    rw [Tree.length_layout]
    omega
  · rw [Tree.length_layout] at lt
    have total := places.count_eq place
    rw [List.count_eq_one_of_mem List.nodup_range' (List.mem_range'_1.2 ⟨place.zero_le, by omega⟩),
      List.count_cons] at total
    by_cases root : place = 0
    · simp only [root, beq_self_eq_true, ↓reduceIte] at total ⊢
      omega
    · have other : (0 == place) = false := beq_false_of_ne fun same => root same.symm
      simpa only [root, other, Bool.false_eq_true, ↓reduceIte, Nat.add_zero] using total
  · exact ⟨grown.path_le row, _, (way row (Nat.lt_succ_self depth)).2, fun turns enough =>
      (way row enough).1⟩
  · have lt := (List.getElem?_eq_some_iff.1 there).1
    rw [Tree.length_layout] at lt
    have sizes := congrArg (·[place]?) (grown.sizes_layout 0)
    simp only [List.getElem?_map, there, List.getElem?_range' lt, Option.map_some,
      Option.some.injEq] at sizes
    rw [Nat.zero_add, Nat.one_mul] at sizes
    refine Eq.trans sizes (List.countP_congr fun row _ => ?_)
    simp only [walk, Option.map_some, Option.some.injEq]
  · rw [walk] at hr' hs'
    cases hr'
    have same := congrArg Prod.snd (Option.some.inj hs')
    exact grown.beq_of_place_eq finite lawful hr hs same.symm room

/-- **Trees are well built and route rows as they were built.** Over finite rows, with whatever a
lawful source draws, growing in a list takes the draws that growing a tree takes and puts the root
first. The list is well built over the rows, and it is that of the tree, so that a row has the same
path in both. -/
theorem grown_trees_are_well_built {σ : Type} (draws : Draws Float σ) (lawful : draws.Lawful)
    (start : σ) (depth : Nat) (rows : List (FeatureVector Float))
    (finite : ∀ row ∈ rows, row.isFinite = true) :
    ∃ tree nodes last, Tree.grow draws depth rows start = (tree, last) ∧
      (grow draws depth rows).run [] start = ((0, nodes), last) ∧
      WellBuilt nodes tree depth rows := by
  have grown := Tree.yields_grown draws depth rows start
  refine ⟨_, _, _, rfl, ?_, wellBuilt_layout lawful finite grown⟩
  rw [run_grow]
  rfl

/-- A tree over a row of zeros and one of ones, drawn from the stream of a seed. -/
theorem tree_of_zero_and_one_is_well_built :
    let rows := [FeatureVector.fill 0.0, FeatureVector.fill (1.0 : Float)]
    (∀ row ∈ rows, row.isFinite = true) ∧
    ∃ tree nodes last, Tree.grow ChaCha.draws 8 rows (ChaCha.ofSeed 42) = (tree, last) ∧
      (grow ChaCha.draws 8 rows).run [] (ChaCha.ofSeed 42) = ((0, nodes), last) ∧
      WellBuilt nodes tree 8 rows := by
  intro rows
  have finite : ∀ row ∈ rows, row.isFinite = true := by
    intro row mem
    rcases List.mem_pair.1 mem with rfl | rfl <;> exact FeatureVector.isFinite_fill (by decide)
  exact ⟨finite, grown_trees_are_well_built ChaCha.draws ChaCha.lawful_draws _ 8 rows finite⟩

end Node

end CounterWatch
