import CounterWatch.Number.Single

/-!
# Samples

One reading of the performance counters: when it was taken, how far each counter moved since the
reading before, and the three rates derived from them.
-/

namespace CounterWatch

/-- How far each counter moved in one interval. -/
structure Counters where
  cacheReferences : UInt64 := 0
  cacheMisses : UInt64 := 0
  branchInstructions : UInt64 := 0
  branchMisses : UInt64 := 0
  cycles : UInt64 := 0
  instructions : UInt64 := 0
  deriving DecidableEq, Repr, Inhabited

/-- The rates derived from one reading. -/
structure Rates where
  cacheMiss : Single := .zero
  branchMiss : Single := .zero
  ipc : Single := .zero
  deriving DecidableEq, Repr, Inhabited

/-- One reading of the counters. -/
structure Sample where
  timestamp : UInt64 := 0
  counters : Counters := {}
  rates : Rates := {}
  deriving DecidableEq, Repr, Inhabited

/-- The rate of `num` per `den`: both rounded to 32 bits, then their quotient rounded again; zero
where nothing was counted. -/
def rate (num den : UInt64) : Single :=
  if den = 0 then .zero else (Single.ofNat num.toNat).quotient (Single.ofNat den.toNat)

namespace Rates

/-- Cache misses per instruction, branch misses per branch, and instructions per cycle. -/
def ofCounters (c : Counters) : Rates where
  cacheMiss := rate c.cacheMisses c.instructions
  branchMiss := rate c.branchMisses c.branchInstructions
  ipc := rate c.instructions c.cycles

/-- Equality of the three numbers. -/
def eqv (r s : Rates) : Bool :=
  r.cacheMiss.eqv s.cacheMiss && r.branchMiss.eqv s.branchMiss && r.ipc.eqv s.ipc

end Rates

namespace Sample

/-- The sample a collector makes of its counters. -/
def ofCounters (timestamp : UInt64) (c : Counters) : Sample :=
  ⟨timestamp, c, .ofCounters c⟩

/-- Equality of samples, the rates compared as numbers. -/
def eqv (s t : Sample) : Bool :=
  s.timestamp == t.timestamp && s.counters == t.counters && s.rates.eqv t.rates

end Sample

end CounterWatch
