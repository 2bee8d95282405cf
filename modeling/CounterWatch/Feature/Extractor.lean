import CounterWatch.Feature

/-!
# Rolling features

Each of the three rates has a window over its last values. A push gives, for each rate, the mean
and the standard deviation over the window with the new value included, and the change since the
value before.
-/

namespace CounterWatch

/-- The recent history of one rate, oldest first, with at most `capacity` values. -/
structure Window (α : Type) where
  capacity : Nat
  history : List α := []
  /-- The value pushed last. It is kept on its own, since a window of one value has lost it by the
  time the next value is compared with it. -/
  previous : Option α := none
  deriving Repr

/-- What a window says about the value just pushed. -/
structure Trend (α : Type) where
  mean : α
  deviation : α
  change : α
  deriving Repr

namespace Window

variable {α : Type} [Scalar α]

/-- The history with a value added, the oldest one dropped from a full window. -/
def extend (w : Window α) (x : α) : List α :=
  (if w.history.length = w.capacity then w.history.drop 1 else w.history) ++ [x]

/-- The window after a value. -/
def push (w : Window α) (x : α) : Window α :=
  { w with history := w.extend x, previous := some x }

/-- The standard deviation of a list about its mean, zero for a single value. -/
@[specialize] def deviation (xs : List α) (mean : α) : α :=
  if 1 < xs.length then Scalar.sqrt (Scalar.meanSquare xs mean) else 0.0

/-- What the window says about a value as it is pushed. -/
@[specialize] def trend (w : Window α) (x : α) : Trend α :=
  let history := w.extend x
  let mean := Scalar.mean history
  { mean
    deviation := deviation history mean
    change := match w.previous with
      | none => 0.0
      | some p => x - p }

end Window

/-- The windows of the three rates. -/
structure Extractor (α : Type) where
  cacheMiss : Window α
  branchMiss : Window α
  ipc : Window α
  deriving Repr

namespace Extractor

/-- The values in a window unless another size is asked for. -/
def defaultWindow : Nat := 32

variable {α : Type}

/-- Empty windows of a size; a window holds at least one value. -/
def ofWindow (window : Nat) : Extractor α :=
  let w : Window α := { capacity := max 1 window }
  ⟨w, w, w⟩

/-- The least size of a window that no store can hold. -/
def windowLimit : Nat := Nat.pow 2 60

/-- Empty windows of a size that can be held. -/
def ofWindow? (window : Nat) : Option (Extractor α) :=
  if window < windowLimit then some (ofWindow window) else none

/-- Windows that can be held are the empty ones of their size. -/
theorem ofWindow?_eq_some_iff {window : Nat} {e : Extractor α} :
    ofWindow? window = some e ↔ window < windowLimit ∧ ofWindow window = e := by
  unfold ofWindow?
  split
  case isTrue fits => simp [fits]
  case isFalse large => simp [large]

/-- Empty windows of the usual size. -/
def initial : Extractor α := ofWindow defaultWindow

example : ofWindow? defaultWindow = some (initial : Extractor α) := rfl

variable [Scalar α]

/-- The windows after one sample's rates, and its features. -/
@[specialize] def push (e : Extractor α) (cacheMiss branchMiss ipc : α) :
    FeatureVector α × Extractor α :=
  let c := e.cacheMiss.trend cacheMiss
  let b := e.branchMiss.trend branchMiss
  let i := e.ipc.trend ipc
  (#v[cacheMiss, branchMiss, ipc,
      c.mean, b.mean, i.mean,
      c.deviation, b.deviation, i.deviation,
      c.change, b.change, i.change,
      cacheMiss * ipc, branchMiss * ipc],
    ⟨e.cacheMiss.push cacheMiss, e.branchMiss.push branchMiss, e.ipc.push ipc⟩)

end Extractor

end CounterWatch
