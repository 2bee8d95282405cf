import CounterWatch.Model.Verdict

/-!
# Alert levels

How serious a row is, by how many of the two models call it an outlier.
-/

namespace CounterWatch

/-- How serious a row is. -/
inductive AlertLevel where
  | normal
  | warning
  | critical
  deriving DecidableEq, Repr

/-- Which of the models agree that a row is an outlier. -/
inductive Agreement where
  | both
  | single
  | none
  deriving DecidableEq, Repr

namespace AlertLevel

/-- The levels. -/
def all : List AlertLevel := [.normal, .warning, .critical]

/-- The level of two verdicts. -/
def ofVerdicts : Verdict → Verdict → AlertLevel
  | .outlier, .outlier => .critical
  | .outlier, .inlier => .warning
  | .inlier, .outlier => .warning
  | .inlier, .inlier => .normal

/-- The name of a level. -/
def name : AlertLevel → String
  | .normal => "NORMAL"
  | .warning => "WARNING"
  | .critical => "CRITICAL"

/-- The level with a name. -/
def ofName? (name : String) : Option AlertLevel := all.find? (·.name == name)

end AlertLevel

namespace Agreement

/-- The agreements. -/
def all : List Agreement := [.both, .single, .none]

/-- The agreement that a level stands for. -/
def ofLevel : AlertLevel → Agreement
  | .critical => .both
  | .warning => .single
  | .normal => .none

/-- The name of an agreement. -/
def name : Agreement → String
  | .both => "both"
  | .single => "single"
  | .none => "none"

/-- The agreement with a name. -/
def ofName? (name : String) : Option Agreement := all.find? (·.name == name)

end Agreement

end CounterWatch
