import CounterWatch.Config
import CounterWatch.Duration

/-!
# Settings of the detector

The part of the configuration that the detector works with, checked and brought into range.
-/

namespace CounterWatch

/-- What the detector is to do. -/
structure Settings (α : Type) where
  primary : ModelKind
  secondary : ModelKind
  /-- The weight of the primary model in the common score; the secondary model has the rest. -/
  primaryWeight : α
  retrainInterval : Duration
  bufferCapacity : Nat
  deriving Repr

/-- A configuration that reads well but cannot be used. -/
inductive InvalidConfig where
  | retrainInterval (seconds : Float) (reason : DurationError)

/-- The wording of the error. -/
def InvalidConfig.message : InvalidConfig → String
  | .retrainInterval seconds reason =>
    let text := String.ofList (Double.text .message seconds)
    "invalid config: retrain.interval_secs = " ++ text ++ ": " ++ reason.message

namespace Settings

/-- The settings of a configuration: the weight is moved into the interval from 0 to 1, and the
buffer holds at least one row. -/
def ofConfig (c : Config) : Except InvalidConfig (Settings Float) :=
  match Duration.ofFloat c.retrain.intervalSecs with
  | .error reason => .error (.retrainInterval c.retrain.intervalSecs reason)
  | .ok retrainInterval => .ok {
      primary := c.ensemble.primary
      secondary := c.ensemble.secondary
      primaryWeight := Scalar.clamp 0.0 1.0 c.ensemble.primaryWeight
      retrainInterval
      bufferCapacity := max 1 c.retrain.bufferCapacity }

/-- The settings of the default configuration. -/
def standard : Settings Float :=
  let c : Config := {}
  { primary := c.ensemble.primary
    secondary := c.ensemble.secondary
    primaryWeight := c.ensemble.primaryWeight
    retrainInterval := .ofSeconds 300
    bufferCapacity := c.retrain.bufferCapacity }

end Settings

end CounterWatch
