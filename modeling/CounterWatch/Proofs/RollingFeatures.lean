import CounterWatch.Feature.Extractor
import CounterWatch.Proofs.Training

/-!
# Rolling features

The windows are updated value by value. Here is what the features come to without them: the same
statistics, taken from scratch over the last values of each rate.

* `Window.after_eq` is the state of a window after any values: the last of them and the very last.
* `Trend.direct` and `Extractor.direct` compute a trend and a row of features from all values pushed
  so far, and `Extractor.getElem?_vectors` says that they are what the windows give. All windows that
  can be held are covered (`Extractor.getElem?_vectors_of_ofWindow?`).
* `Extractor.direct_append` says how far back a row of features looks, and
  `Extractor.getLast?_vectors_of_rtake` what this means for the rows returned.

No law of arithmetic is used: the operations and their order are the same on both sides.
-/

namespace CounterWatch

/-! ## One window -/

namespace Window

variable {α : Type}

/-- An empty window of a size; it holds at least one value. -/
def ofSize (size : Nat) : Window α := { capacity := max 1 size }

/-- The window after some values. -/
def after (w : Window α) (xs : List α) : Window α := xs.foldl push w

theorem after_concat (w : Window α) (xs : List α) (x : α) :
    w.after (xs ++ [x]) = (w.after xs).push x := by
  simp [after]

/-- A window that holds the last values of all holds the last values after one more. -/
theorem extend_of_history {size : Nat} {w : Window α} {xs : List α}
    (capacity : w.capacity = max 1 size) (history : w.history = xs.rtake (max 1 size)) (x : α) :
    w.extend x = (xs ++ [x]).rtake (max 1 size) := by
  have bound : (xs.rtake (max 1 size)).length ≤ max 1 size := by
    rw [List.rtake, List.length_drop]
    omega
  rw [extend, capacity, history, Backlog.rtake_concat]
  by_cases full : (xs.rtake (max 1 size)).length = max 1 size
  · rw [if_pos full, if_pos (by omega)]
  · rw [if_neg full]
    split
    · -- fewer values than a size that is zero: there are none
      have none : xs.rtake (max 1 size) = [] := List.length_eq_zero_iff.1 (by omega)
      simp [none]
    · rfl

/-- **A window holds the last values, oldest first, and knows the very last.** -/
theorem after_eq (size : Nat) (xs : List α) :
    (ofSize size).after xs = ⟨max 1 size, xs.rtake (max 1 size), xs.getLast?⟩ := by
  induction xs using List.reverseRecOn with
  | nil => simp [after, ofSize]
  | append_singleton xs x ih =>
    rw [after_concat, ih, push, extend_of_history rfl rfl x, List.getLast?_concat]

end Window

variable {α : Type}

/-- There are as many last values as the window has room for, or as there are values. -/
theorem length_recent (size : Nat) (past : List α) (x : α) :
    ((past ++ [x]).rtake (max 1 size)).length = min (max 1 size) (past.length + 1) := by
  rw [List.rtake, List.length_drop, List.length_append, List.length_singleton]
  omega

/-- What lies further back is not among the last values. -/
theorem recent_append {size : Nat} (far near : List α) (enough : size ≤ near.length + 1) (x : α) :
    (far ++ near ++ [x]).rtake (max 1 size) = (near ++ [x]).rtake (max 1 size) := by
  have place : (far ++ (near ++ [x])).length - max 1 size
      = far.length + ((near ++ [x]).length - max 1 size) := by
    simp only [List.length_append, List.length_singleton]
    omega
  rw [List.append_assoc, List.rtake, place, ← List.drop_drop, List.drop_left, List.rtake]

variable [Scalar α]

/-- The trend of a value after others, over a window of a size, from scratch: the mean and the
population standard deviation of the last values, and the distance to the value before. -/
def Trend.direct (size : Nat) (past : List α) (x : α) : Trend α :=
  let recent := (past ++ [x]).rtake (max 1 size)
  let count := Scalar.ofNat recent.length
  let mean := Scalar.sum recent / count
  { mean
    deviation :=
      if recent.length = 1 then 0.0
      else Scalar.sqrt (Scalar.sum (recent.map fun v => Scalar.square (v - mean)) / count)
    change := (past.getLast?.map fun p => x - p).getD 0.0 }

theorem Window.trend_after (size : Nat) (past : List α) (x : α) :
    ((ofSize size).after past).trend x = Trend.direct size past x := by
  have recent := length_recent size past x
  rw [after_eq, trend, extend_of_history rfl rfl x, Trend.direct]
  congr 1
  · rw [deviation]
    by_cases single : ((past ++ [x]).rtake (max 1 size)).length = 1
    · rw [if_pos single, if_neg (by omega)]
    · rw [if_neg single, if_pos (by omega)]
      rfl
  · cases past.getLast? <;> rfl

/-- What lies further back than the window and the value before does not matter. -/
theorem Trend.direct_append {size : Nat} (far : List α) {near : List α} (some : near ≠ [])
    (enough : size ≤ near.length + 1) (x : α) : direct size (far ++ near) x = direct size near x := by
  rw [direct, direct, recent_append far near enough, List.getLast?_append_of_ne_nil _ some]

/-! ## The windows of the three rates -/

namespace Extractor

/-- The rates of one sample, as they are pushed. -/
structure Input (α : Type) where
  cacheMiss : α
  branchMiss : α
  ipc : α

/-- The features of some inputs, one after the other. -/
def vectors (e : Extractor α) : List (Input α) → List (FeatureVector α)
  | [] => []
  | x :: rest =>
    let pushed := e.push x.cacheMiss x.branchMiss x.ipc
    pushed.1 :: pushed.2.vectors rest

/-- The windows after some inputs. -/
def fed (e : Extractor α) (xs : List (Input α)) : Extractor α :=
  xs.foldl (fun e x => (e.push x.cacheMiss x.branchMiss x.ipc).2) e

theorem vectors_append (e : Extractor α) (xs ys : List (Input α)) :
    e.vectors (xs ++ ys) = e.vectors xs ++ (e.fed xs).vectors ys := by
  induction xs generalizing e with
  | nil => rfl
  | cons x xs ih => exact congrArg (_ :: ·) (ih _)

@[simp] theorem length_vectors (e : Extractor α) (xs : List (Input α)) :
    (e.vectors xs).length = xs.length := by
  induction xs generalizing e with
  | nil => rfl
  | cons x xs ih => simp [vectors, ih]

/-- The windows go their own ways. -/
theorem fed_ofWindow (size : Nat) (xs : List (Input α)) :
    (ofWindow size).fed xs = ⟨(Window.ofSize size).after (xs.map Input.cacheMiss),
      (Window.ofSize size).after (xs.map Input.branchMiss),
      (Window.ofSize size).after (xs.map Input.ipc)⟩ := by
  induction xs using List.reverseRecOn with
  | nil => rfl
  | append_singleton xs x ih =>
    simp only [List.map_append, List.map_singleton, Window.after_concat]
    rw [fed] at ih ⊢
    rw [List.foldl_append, ih]
    rfl

/-- The features of an input after others, from scratch. -/
def direct (size : Nat) (past : List (Input α)) (x : Input α) : FeatureVector α :=
  let c := Trend.direct size (past.map Input.cacheMiss) x.cacheMiss
  let b := Trend.direct size (past.map Input.branchMiss) x.branchMiss
  let i := Trend.direct size (past.map Input.ipc) x.ipc
  #v[x.cacheMiss, x.branchMiss, x.ipc,
    c.mean, b.mean, i.mean,
    c.deviation, b.deviation, i.deviation,
    c.change, b.change, i.change,
    x.cacheMiss * x.ipc, x.branchMiss * x.ipc]

theorem push_fed (size : Nat) (past : List (Input α)) (x : Input α) :
    (((ofWindow size).fed past).push x.cacheMiss x.branchMiss x.ipc).1 = direct size past x := by
  rw [fed_ofWindow, push, Window.trend_after, Window.trend_after, Window.trend_after]
  rfl

/-- What the windows give for an input is what comes out from scratch. -/
theorem getElem?_vectors (size : Nat) (past : List (Input α)) (x : Input α)
    (later : List (Input α)) :
    ((ofWindow size).vectors (past ++ x :: later))[past.length]? = some (direct size past x) := by
  rw [vectors_append, List.getElem?_append_right (Nat.le_of_eq (length_vectors ..)),
    length_vectors, Nat.sub_self, vectors, List.getElem?_cons_zero, push_fed]

/-- So do windows that could be made: they have a size that can be held. -/
theorem getElem?_vectors_of_ofWindow? {size : Nat} {e : Extractor α} (made : ofWindow? size = some e)
    (past : List (Input α)) (x : Input α) (later : List (Input α)) :
    (e.vectors (past ++ x :: later))[past.length]? = some (direct size past x) := by
  obtain ⟨-, rfl⟩ := ofWindow?_eq_some_iff.1 made
  exact getElem?_vectors size past x later

/-- A row of features looks back as far as the window, and at the input before. -/
theorem direct_append {size : Nat} (far : List (Input α)) {near : List (Input α)} (some : near ≠ [])
    (enough : size ≤ near.length + 1) (x : Input α) :
    direct size (far ++ near) x = direct size near x := by
  have trend (rate : Input α → α) : Trend.direct size ((far ++ near).map rate) (rate x)
      = Trend.direct size (near.map rate) (rate x) := by
    rw [List.map_append]
    exact Trend.direct_append _ (by simpa using some) (by simpa using enough) _
  rw [direct, trend Input.cacheMiss, trend Input.branchMiss, trend Input.ipc, direct]

theorem getLast?_vectors (size : Nat) (past : List (Input α)) (x : Input α) :
    ((ofWindow size).vectors (past ++ [x])).getLast? = some (direct size past x) := by
  rw [List.getLast?_eq_getElem?, length_vectors, List.length_append, List.length_singleton,
    Nat.add_sub_cancel, getElem?_vectors]

/-- A row of features depends on the last inputs only. -/
theorem getLast?_vectors_of_rtake {size : Nat} {xs : List (Input α)}
    (enough : max size 2 ≤ xs.length) : ((ofWindow size).vectors xs).getLast?
      = ((ofWindow size).vectors (xs.rtake (max size 2))).getLast? := by
  obtain ⟨far, recent, rfl, length⟩ : ∃ far recent, xs = far ++ recent ∧
      recent.length = max size 2 :=
    ⟨_, _, (List.take_append_drop (xs.length - max size 2) xs).symm, by
      rw [List.length_drop]
      omega⟩
  have last : (far ++ recent).rtake (max size 2) = recent := by
    rw [List.rtake, List.length_append, length, Nat.add_sub_cancel, List.drop_left]
  have nonempty : recent ≠ [] := List.ne_nil_of_length_pos (by omega)
  obtain ⟨near, x, rfl⟩ : ∃ near x, recent = near ++ [x] :=
    ⟨_, _, (List.dropLast_append_getLast nonempty).symm⟩
  rw [List.length_append, List.length_singleton] at length
  have some : near ≠ [] := List.ne_nil_of_length_pos (by omega)
  rw [last, ← List.append_assoc, getLast?_vectors, getLast?_vectors,
    direct_append far some (by omega)]

/-- **Rolling features are what comes out from scratch.** With windows of any size, of which none
counts as one, the row that is returned for the input after any others has, in the order of the
names: its rates; for each rate the mean and the population standard deviation of the last values and
the distance to the value before; and the two products. So the rows returned after any inputs that
agree on the last ones, as many as the window holds but at least two, are the same. -/
theorem features_are_direct (size : Nat) :
    (∀ (past : List (Input α)) (x : Input α) (later : List (Input α)),
      let c := Trend.direct size (past.map Input.cacheMiss) x.cacheMiss
      let b := Trend.direct size (past.map Input.branchMiss) x.branchMiss
      let i := Trend.direct size (past.map Input.ipc) x.ipc
      ∃ row, ((ofWindow size).vectors (past ++ x :: later))[past.length]? = some row ∧
        featureNames.toList.zip row.toList =
          [("cmr", x.cacheMiss), ("bmr", x.branchMiss), ("ipc", x.ipc),
            ("cmr_rmean", c.mean), ("bmr_rmean", b.mean), ("ipc_rmean", i.mean),
            ("cmr_rstd", c.deviation), ("bmr_rstd", b.deviation), ("ipc_rstd", i.deviation),
            ("cmr_delta", c.change), ("bmr_delta", b.change), ("ipc_delta", i.change),
            ("cmr_x_ipc", x.cacheMiss * x.ipc), ("bmr_x_ipc", x.branchMiss * x.ipc)]) ∧
    (∀ xs ys : List (Input α), max size 2 ≤ xs.length → max size 2 ≤ ys.length →
      xs.rtake (max size 2) = ys.rtake (max size 2) →
      ((ofWindow size).vectors xs).getLast? = ((ofWindow size).vectors ys).getLast?) := by
  refine ⟨fun past x later => ?_, fun xs ys enough enough' same => ?_⟩
  · exact ⟨direct size past x, getElem?_vectors size past x later, rfl⟩
  · rw [getLast?_vectors_of_rtake enough, same, ← getLast?_vectors_of_rtake enough']

end Extractor

end CounterWatch
