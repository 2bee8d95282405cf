import CounterWatch.Sample

/-!
# The wire record

A sample travels as one datagram of 68 bytes: seven counts of eight bytes, then three rates of four
bytes, each with its lowest byte first. What follows the record is ignored, and nothing but the
length is checked.
-/

namespace CounterWatch

/-- A number as `width` bytes, lowest first. -/
def littleEndian : (width : Nat) → Nat → List UInt8
  | 0, _ => []
  | width + 1, n => UInt8.ofNat n :: littleEndian width (n / 256)

/-- The number whose bytes are given, lowest first. -/
def ofLittleEndian : List UInt8 → Nat
  | [] => 0
  | b :: rest => b.toNat + 256 * ofLittleEndian rest

/-- A datagram that holds no record. -/
inductive DecodeError where
  /-- The datagram is shorter than a record. -/
  | tooShort (got need : Nat)
  deriving DecidableEq, Repr

/-- The wording of the error. -/
def DecodeError.message : DecodeError → String
  | .tooShort got need => s!"datagram too short: got {got} bytes, need {need}"

namespace Sample

/-- The bytes of one record. -/
def wireSize : Nat := 7 * 8 + 3 * 4

/-- The record of a sample. -/
def encode (s : Sample) : List UInt8 :=
  let counts := [s.timestamp, s.counters.cacheReferences, s.counters.cacheMisses,
    s.counters.branchInstructions, s.counters.branchMisses, s.counters.cycles,
    s.counters.instructions]
  let rates := [s.rates.cacheMiss, s.rates.branchMiss, s.rates.ipc]
  counts.flatMap (fun w => littleEndian 8 w.toNat)
    ++ rates.flatMap (fun r => littleEndian 4 r.bits.toNat)

/-- The number in `width` bytes from `offset` on. -/
def field (bytes : List UInt8) (offset width : Nat) : Nat :=
  ofLittleEndian ((bytes.drop offset).take width)

/-- The sample at the start of a datagram. -/
def decode (bytes : List UInt8) : Except DecodeError Sample :=
  if bytes.length < wireSize then .error (.tooShort bytes.length wireSize)
  else
    let count (i : Nat) : UInt64 := UInt64.ofNat (field bytes (8 * i) 8)
    let rate (i : Nat) : Single := ⟨UInt32.ofNat (field bytes (56 + 4 * i) 4)⟩
    .ok {
      timestamp := count 0
      counters := {
        cacheReferences := count 1
        cacheMisses := count 2
        branchInstructions := count 3
        branchMisses := count 4
        cycles := count 5
        instructions := count 6 }
      rates := { cacheMiss := rate 0, branchMiss := rate 1, ipc := rate 2 } }

end Sample

end CounterWatch
