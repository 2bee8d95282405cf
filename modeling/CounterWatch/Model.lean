import CounterWatch.Model.Envelope
import CounterWatch.Model.Forest
import CounterWatch.Model.Verdict

/-!
# Models

The two families of outlier models behind one interface.
-/

namespace CounterWatch

/-- The families of models. -/
inductive ModelKind where
  | isolationForest
  | ellipticEnvelope
  deriving DecidableEq, Repr

/-- A fitted model. -/
inductive Model (α : Type) where
  | forest (f : Forest α)
  | envelope (e : Envelope α)
  deriving Repr

namespace ModelKind

/-- The families. -/
def all : List ModelKind := [.isolationForest, .ellipticEnvelope]

/-- The name of a family in the configuration and in messages. -/
def name : ModelKind → String
  | .isolationForest => "isolation_forest"
  | .ellipticEnvelope => "elliptic_envelope"

/-- The family with a name. -/
def ofName? (name : String) : Option ModelKind := all.find? (·.name == name)

variable {α : Type} [Scalar α]

/-- The usual model of a family, made of any rows. -/
@[specialize] def build (kind : ModelKind) (rows : List (FeatureVector α)) : Model α :=
  match kind with
  | .isolationForest => .forest (Forest.grow .standard rows).1
  | .ellipticEnvelope => .envelope (Envelope.fit Envelope.defaultShare rows)

/-- The usual model of a family, made of rows that admit one. -/
@[specialize] def fit (kind : ModelKind) (rows : List (FeatureVector α)) :
    Except FitError (Model α) :=
  if rows.isEmpty then .error .emptyMatrix
  else match kind with
    | .isolationForest => .forest <$> Forest.fit .standard rows
    | .ellipticEnvelope => .ok (.envelope (Envelope.fit Envelope.defaultShare rows))

/-- A model that is fitted is the one that is built of the same rows. -/
theorem eq_build_of_fit {kind : ModelKind} {rows : List (FeatureVector α)} {m : Model α}
    (h : kind.fit rows = .ok m) : m = kind.build rows := by
  by_cases none : rows.isEmpty
  · simp [fit, none] at h
  · cases kind with
    | isolationForest =>
      cases fitted : Forest.fit .standard rows with
      | error e => simp [fit, none, fitted, Functor.map, Except.map] at h
      | ok f =>
        simp only [fit, none, fitted, Functor.map, Except.map] at h
        simp_all [build, Forest.eq_grow_of_fit fitted]
    | ellipticEnvelope => simp_all [fit, build]

end ModelKind

namespace Model

variable {α : Type} [Scalar α]

/-- The score of a row; not negative on the inner side of the boundary. -/
@[specialize] def score : Model α → FeatureVector α → α
  | .forest f, row => f.score row
  | .envelope e, row => e.score row

/-- The verdict on a row. -/
@[specialize] def verdict (m : Model α) (row : FeatureVector α) : Verdict :=
  .ofScore (m.score row)

end Model

end CounterWatch
