import CounterWatch.Random.Draws

/-!
# The ChaCha stream

The random source of the forest: the ChaCha cipher with eight rounds, its key made from one number
of 64 bits. The stream is a sequence of words of 32 bits; whole numbers and thresholds are drawn
from it by rejection, so that each is uniform on its interval.
-/

namespace CounterWatch

namespace ChaCha

/-- A word moved round to the left. -/
@[inline] def rotateLeft (x : UInt32) (n : UInt32) : UInt32 := (x <<< n) ||| (x >>> (32 - n))

/-- One quarter round on the words at four places. -/
@[inline] def quarterRound (s : Vector UInt32 16) (a b c d : Fin 16) : Vector UInt32 16 :=
  let xa := s[a] + s[b]
  let xd := rotateLeft (s[d] ^^^ xa) 16
  let xc := s[c] + xd
  let xb := rotateLeft (s[b] ^^^ xc) 12
  let xa := xa + xb
  let xd := rotateLeft (xd ^^^ xa) 8
  let xc := xc + xd
  let xb := rotateLeft (xb ^^^ xc) 7
  (((s.set a xa).set b xb).set c xc).set d xd

/-- A round on the columns, then one on the diagonals. -/
def doubleRound (s : Vector UInt32 16) : Vector UInt32 16 :=
  let s := quarterRound s 0 4 8 12
  let s := quarterRound s 1 5 9 13
  let s := quarterRound s 2 6 10 14
  let s := quarterRound s 3 7 11 15
  let s := quarterRound s 0 5 10 15
  let s := quarterRound s 1 6 11 12
  let s := quarterRound s 2 7 8 13
  quarterRound s 3 4 9 14

/-- The words of one block: four constant words, the key, and the block's number. -/
def block (key : Vector UInt32 8) (number : UInt64) : Vector UInt32 16 :=
  let constants : Vector UInt32 4 := #v[0x61707865, 0x3320646e, 0x79622d32, 0x6b206574]
  let counter : Vector UInt32 4 := #v[number.toUInt32, (number >>> 32).toUInt32, 0, 0]
  let start := constants ++ key ++ counter
  let mixed := doubleRound (doubleRound (doubleRound (doubleRound start)))
  Vector.zipWith (· + ·) start mixed

/-- The key made from a seed: eight outputs of a linear congruential generator, each permuted. -/
def keyOfSeed (seed : UInt64) : Vector UInt32 8 :=
  let step (s : UInt64) : UInt64 := s * 6364136223846793005 + 11634580027462260723
  let output (s : UInt64) : UInt32 :=
    let word := (((s >>> 18) ^^^ s) >>> 27).toUInt32
    let turn := (s >>> 59).toUInt32
    if turn = 0 then word else rotateLeft word (32 - turn)
  let s₁ := step seed
  let s₂ := step s₁
  let s₃ := step s₂
  let s₄ := step s₃
  let s₅ := step s₄
  let s₆ := step s₅
  let s₇ := step s₆
  let s₈ := step s₇
  #v[output s₁, output s₂, output s₃, output s₄, output s₅, output s₆, output s₇, output s₈]

end ChaCha

/-- A place in the stream of a key: the words of the block at hand and how many of them are used. -/
structure ChaCha where
  key : Vector UInt32 8
  number : UInt64
  words : Vector UInt32 16
  used : Nat
  /-- Whether a threshold was asked for where there is no finite interval. -/
  unbounded : Bool := false

namespace ChaCha

/-- The start of the stream of a seed. -/
def ofSeed (seed : UInt64) : ChaCha :=
  let key := keyOfSeed seed
  { key, number := 0, words := block key 0, used := 0 }

/-- The next word. -/
def nextWord (c : ChaCha) : UInt32 × ChaCha :=
  if h : c.used < 16 then (c.words[c.used], { c with used := c.used + 1 })
  else
    let words := block c.key (c.number + 1)
    (words[0], { c with number := c.number + 1, words, used := 1 })

/-- The next two words as one, the first of them the lower half. -/
def nextPair (c : ChaCha) : UInt64 × ChaCha :=
  let (low, c) := c.nextWord
  let (high, c) := c.nextWord
  (low.toUInt64 ||| (high.toUInt64 <<< 32), c)

/-- How often a value is drawn again before the least one is taken in its place. Each attempt fails
with a chance of at most about one half, so that this does not come about. -/
def attempts : Nat := 100000

/-- A whole number below `2 ^ 32` from `lo` to `hi`: the upper word of a product, unless the lower
word falls in the part of its range that would favour some results. -/
def index (lo hi : Nat) : Drawing ChaCha Nat :=
  let range := hi - lo + 1
  let zone := range <<< (31 - range.log2) - 1
  let rec go : Nat → Drawing ChaCha Nat
    | 0 => return lo
    | fuel + 1 => do
      let word ← modifyGet nextWord
      let product := word.toNat * range
      if product % 2 ^ 32 ≤ zone then return lo + product / 2 ^ 32 else go fuel
  go attempts

variable {α : Type} [Scalar α]

/-- A value from `lo` on and below `hi`: the share of the way given by 52 random bits, drawn again
where rounding takes it up to `hi`. If the ends or their distance are not finite the value is `lo`,
and the state takes note of it. -/
@[specialize] def threshold (lo hi : α) : Drawing ChaCha α :=
  let scale := hi - lo
  let rec @[specialize] go : Nat → Drawing ChaCha α
    | 0 => return lo
    | fuel + 1 => do
      let bits ← modifyGet nextPair
      let share : α := Scalar.ofNat (bits >>> 12).toNat / Scalar.ofNat (2 ^ 52)
      let value := share * scale + lo
      if value < hi then return value else go fuel
  if Scalar.isFinite lo && Scalar.isFinite hi && Scalar.isFinite scale then go attempts
  else do
    modify fun c => { c with unbounded := true }
    return lo

/-- The stream as a source of random values. -/
@[specialize] def draws : Draws α ChaCha := ⟨index, threshold⟩

end ChaCha

end CounterWatch
