import CounterWatch.Detector.Backlog
import CounterWatch.Detector.Diversity
import CounterWatch.Detector.Prediction
import CounterWatch.Detector.Settings
import CounterWatch.Journal
import CounterWatch.Model.Standardizer

/-!
# The detector

Two models behind one standardisation, trained together and replaced as a whole, and the backlog of
normal rows that they are trained on again from time to time.

* `Trained.fit` makes the models of some rows, and depends on nothing else.
* `Detector.train` puts them in place, if there are enough finite rows.
* `Detector.predict` judges a row.
* `Detector.maybeRetrain` trains on the backlog once it is due.
-/

namespace CounterWatch

/-- A moment, in nanoseconds since the program started. -/
abbrev Moment : Type := Nat

/-- Models in place. -/
structure Trained (α : Type) where
  standardizer : Standardizer α
  primary : Model α
  secondary : Model α
  deriving Repr

namespace Trained

variable {α : Type} [Scalar α]

/-- The models of some rows. On the standard scale finite rows have bounded values, so that nothing
can be in the way of a model. -/
@[specialize] def fit (primary secondary : ModelKind) (rows : List (FeatureVector α)) :
    Trained α :=
  let standardizer := Standardizer.fit rows
  let scaled := rows.map standardizer.transform
  { standardizer, primary := primary.build scaled, secondary := secondary.build scaled }

/-- The prediction of the models on a row. -/
@[specialize] def predict (t : Trained α) (weight : α) (row : FeatureVector α) : Prediction α :=
  let scaled := t.standardizer.transform row
  .ofScores weight (t.primary.score scaled) (t.secondary.score scaled)

end Trained

/-- The settings, the models in place with the moment of their training, the backlog, and the count
of trainings. -/
structure Detector (α : Type) where
  settings : Settings α
  trained : Option (Trained α × Moment) := none
  backlog : Backlog (FeatureVector α) := .empty
  trainCount : Nat := 0

/-- What came of a training. -/
structure Training (α : Type) where
  /-- The detector after it. -/
  detector : Detector α
  /-- Whether new models are in place. -/
  installed : Bool
  /-- What there is to say. -/
  entries : List JournalEntry

namespace Detector

/-- The least count of finite rows that models are trained on. -/
def minTrainRows : Nat := 50

/-- The least count of rows in the backlog that models are trained again on. -/
def minRetrainRows : Nat := 200

variable {α : Type}

/-- A detector without models. -/
def ofSettings (settings : Settings α) : Detector α := { settings }

/-- Whether models are in place. -/
def isTrained (d : Detector α) : Bool := d.trained.isSome

/-- Whether the models are old enough, and the backlog long enough, to train again. -/
def retrainDue (d : Detector α) (now : Moment) : Bool :=
  match d.trained with
  | none => false
  | some (_, since) =>
    d.settings.retrainInterval.nanoseconds ≤ now - since && minRetrainRows ≤ d.backlog.length

variable [Scalar α]

/-- What is said about the diversity of training rows. -/
def diversityEntries (d : Diversity) : List JournalEntry :=
  (if d.flat.isEmpty then []
    else [.flatFeatures (d.flat.map featureNames.get), .diversityAdvice])
    ++ if d.isUniformMajority then [.uniformFeatures d.uniform] else []

/-- A training on the finite ones of some rows. With too few of them the detector stays as it is. -/
@[specialize] def train (d : Detector α) (now : Moment) (rows : List (FeatureVector α)) :
    Training α :=
  let finite := rows.filter FeatureVector.isFinite
  let count := finite.length
  if count < minTrainRows then
    { detector := d, installed := false, entries := [.trainingSkipped count minTrainRows] }
  else
    let trained := Trained.fit d.settings.primary d.settings.secondary finite
    let diversity := Diversity.ofRows finite
    { detector := { d with trained := some (trained, now), trainCount := d.trainCount + 1 }
      installed := true
      entries := diversityEntries diversity ++ [.modelsTrained count diversity.isDiverse] }

/-- The prediction on a row. -/
@[specialize] def predict (d : Detector α) (row : FeatureVector α) : Prediction α :=
  match d.trained with
  | none => .untrained
  | some (trained, _) => trained.predict d.settings.primaryWeight row

/-- The detector with a normal row in its backlog, and what there is to say. A row that is not
finite is kept out, and a full backlog loses its oldest row. -/
@[specialize] def addNormal (d : Detector α) (row : FeatureVector α) :
    Detector α × List JournalEntry :=
  if row.isFinite then
    ({ d with backlog := d.backlog.push d.settings.bufferCapacity row }, [])
  else (d, [.rowDropped])

/-- A training on the backlog, which is emptied, if that is due. -/
@[specialize] def maybeRetrain (d : Detector α) (now : Moment) : Training α :=
  if d.retrainDue now then
    let training := { d with backlog := .empty }.train now d.backlog.toList
    { training with entries := .retraining d.backlog.length :: training.entries }
  else { detector := d, installed := false, entries := [] }

end Detector

end CounterWatch
