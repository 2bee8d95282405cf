/-!
# The backlog

A first-in, first-out store of recent rows with a bounded length. It is kept as two lists, the
oldest rows in order and the newest in reverse, so that a row costs the same to add and to drop
however many there are.

* `Backlog.toList` is the content, oldest first.
* `Backlog.toList_push` says that pushing keeps the last rows.
-/

namespace CounterWatch

/-- The most recent rows, oldest first when read by `toList`. -/
structure Backlog (β : Type) where
  oldest : List β := []
  newest : List β := []
  length : Nat := 0
  length_eq : length = oldest.length + newest.length := by rfl

namespace Backlog

variable {β : Type}

/-- No rows. -/
def empty : Backlog β := {}

/-- The rows, oldest first. -/
def toList (b : Backlog β) : List β := b.oldest ++ b.newest.reverse

@[simp] theorem toList_empty : (empty : Backlog β).toList = [] := rfl

theorem length_toList (b : Backlog β) : b.toList.length = b.length := by
  simp [toList, b.length_eq]

/-- A row added at the end. -/
def add (b : Backlog β) (x : β) : Backlog β where
  oldest := b.oldest
  newest := x :: b.newest
  length := b.length + 1
  length_eq := by simp [b.length_eq, Nat.add_assoc]

@[simp] theorem toList_add (b : Backlog β) (x : β) : (b.add x).toList = b.toList ++ [x] := by
  simp [toList, add]

/-- The oldest row dropped. -/
def drop (b : Backlog β) : Backlog β :=
  match b.oldest with
  | _ :: rest => { oldest := rest, newest := b.newest, length := rest.length + b.newest.length }
  | [] =>
    let rows := b.newest.reverse.drop 1
    { oldest := rows, newest := [], length := rows.length }

@[simp] theorem toList_drop (b : Backlog β) : b.drop.toList = b.toList.drop 1 := by
  unfold drop
  split <;> simp_all [toList]

/-- A row added at the end, the oldest one dropped first if there are already `capacity` rows. -/
def push (capacity : Nat) (b : Backlog β) (x : β) : Backlog β :=
  (if capacity ≤ b.length then b.drop else b).add x

theorem toList_push (capacity : Nat) (b : Backlog β) (x : β) :
    (b.push capacity x).toList
      = (if capacity ≤ b.toList.length then b.toList.drop 1 else b.toList) ++ [x] := by
  unfold push
  rw [length_toList]
  split <;> simp

end Backlog

end CounterWatch
