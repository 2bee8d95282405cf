import CounterWatch.Model

/-!
# The configuration

What a user can set, in sections, each setting with its default.
-/

namespace CounterWatch

/-- Where samples are received. -/
structure ListenerConfig where
  socketPath : String := "/tmp/cpu-guardian.sock"
  deriving Repr

/-- How many feature vectors are collected before the first training. -/
structure LearningConfig where
  samples : Nat := 5000
  deriving Repr

/-- When the models are trained again, and on how many recent rows at most. -/
structure RetrainConfig where
  intervalSecs : Float := 300.0
  bufferCapacity : Nat := 10000
  deriving Repr

/-- The two models, and the weight of the first in the common score. -/
structure EnsembleConfig where
  primary : ModelKind := .isolationForest
  secondary : ModelKind := .ellipticEnvelope
  primaryWeight : Float := 0.6
  deriving Repr

/-- Where alerts and messages go. -/
structure OutputConfig where
  logFile : Option String := none
  verbose : Bool := false
  deriving Repr

/-- The configuration. -/
structure Config where
  listener : ListenerConfig := {}
  learning : LearningConfig := {}
  retrain : RetrainConfig := {}
  ensemble : EnsembleConfig := {}
  output : OutputConfig := {}
  deriving Repr

end CounterWatch
