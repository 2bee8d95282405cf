import CounterWatch.Arithmetic

/-!
# Random draws

The forest asks for two kinds of random value and does not care where they come from. A source is
a pair of functions on a state.

* `Draws` is the interface, and `Draws.Lawful` what a forest may rely on.
* `Draws.subset` chooses some of a list's places, each place at most once.
-/

namespace CounterWatch

/-- A computation that draws from a source with states `σ`. -/
abbrev Drawing (σ : Type) : Type → Type := StateM σ

/-- A source of random values with states `σ`. -/
structure Draws (α σ : Type) where
  /-- A whole number from `lo` to `hi`, both included. -/
  index : (lo hi : Nat) → Drawing σ Nat
  /-- A value from `lo` on and below `hi`. -/
  threshold : (lo hi : α) → Drawing σ α

namespace Draws

/-- A source is lawful when every value it yields lies in the interval asked for. -/
structure Lawful {α σ : Type} [Scalar α] (draws : Draws α σ) : Prop where
  index_mem : ∀ lo hi s, lo ≤ hi → lo ≤ (draws.index lo hi s).1 ∧ (draws.index lo hi s).1 ≤ hi
  threshold_mem : ∀ (lo hi : α) s, lo < hi →
    lo ≤ (draws.threshold lo hi s).1 ∧ (draws.threshold lo hi s).1 < hi

variable {α σ : Type}

/-- Some of the places below `n` by a partial shuffle: at each step the place in turn changes with
one drawn from those not passed yet. -/
def shuffled (draws : Draws α σ) (amount n : Nat) : Drawing σ (List Nat) := do
  let places ← (List.range amount).foldlM (fun (places : Array Nat) i => do
    let j ← draws.index i (n - 1)
    return places.swapIfInBounds i j) (Array.range n)
  return places.toList.take amount

/-- A place put before the first occurrence of another one. -/
def insertBefore (mark place : Nat) : List Nat → List Nat
  | [] => []
  | p :: rest => if p = mark then place :: p :: rest else p :: insertBefore mark place rest

/-- Some of the places below `n`, one for each of the last `amount` places `j`: the place drawn
from those up to `j`, or, if that is taken, `j` itself.

The list is in random order as it grows: a `j` that stands in for a taken place goes in front of
that place. -/
def ordered (draws : Draws α σ) (amount n : Nat) : Drawing σ (List Nat) :=
  (List.range' (n - amount) amount).foldlM (fun places j => do
    let t ← draws.index 0 j
    return if places.contains t then insertBefore t j places else places ++ [t]) []

/-- Some of the places below `n` as in `ordered`, in the order of their drawing and then shuffled
from the end to the front. -/
def reshuffled (draws : Draws α σ) (amount n : Nat) : Drawing σ (List Nat) := do
  let places ← (List.range' (n - amount) amount).foldlM (fun (places : Array Nat) j => do
    let t ← draws.index 0 j
    return places.push (if places.contains t then j else t)) #[]
  let places ← (List.range' 1 (amount - 1)).reverse.foldlM (fun (places : Array Nat) i => do
    let j ← draws.index 0 i
    return places.swapIfInBounds i j) places
  return places.toList

/-- At most `amount` of the places below `n`, each at most once. A large share of the places is
taken by a partial shuffle of all of them; a small one is collected place by place. -/
def subset (draws : Draws α σ) (amount n : Nat) : Drawing σ (List Nat) :=
  let amount := min amount n
  let dense :=
    if amount < 163 then 11 < amount ∧ 5 * n < (50 + 8 * amount) * amount
    else n < 270 * amount
  if dense then draws.shuffled amount n
  else if amount < 50 then draws.ordered amount n
  else draws.reshuffled amount n

end Draws

end CounterWatch
