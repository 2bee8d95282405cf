import CounterWatch.Alert.Reason
import CounterWatch.Detector.Prediction
import CounterWatch.Json.Parser
import CounterWatch.Json.Printer

/-!
# Alerts

An alert is one line of JSON. Its fields and their names are part of the output format.

* `Alert.line` writes an alert.
* `Alert.parse?` reads one, also in other spacing and order of fields, or from an array of the
  values alone.
-/

namespace CounterWatch

/-- One anomaly, as it is reported. -/
structure Alert where
  level : AlertLevel
  timestamp : UInt64
  score : Float
  reason : String
  agreement : Agreement
  primaryScore : Float
  secondaryScore : Float
  deriving Repr

namespace Alert

/-- A number rounded to four places, a half going away from zero. -/
def round4 (x : Float) : Float := Double.round (x * 10000.0) / 10000.0

/-- The alert of a prediction. -/
def ofPrediction (p : Prediction Float) (timestamp : UInt64) (reason : String) : Alert where
  level := p.level
  timestamp
  score := round4 p.composite
  reason
  agreement := .ofLevel p.level
  primaryScore := round4 p.primaryScore
  secondaryScore := round4 p.secondaryScore

/-- The names of the fields, in the order in which they are written. -/
def fieldNames : List String :=
  ["level", "timestamp", "anomaly_score", "reason", "model_agreement", "if_score", "svm_score"]

/-- The values of the fields, in the order of their names. -/
def fieldValues (a : Alert) : List Json :=
  [.string a.level.name, .ofNat a.timestamp.toNat, .ofFloat a.score, .string a.reason,
    .string a.agreement.name, .ofFloat a.primaryScore, .ofFloat a.secondaryScore]

/-- An alert as a value. -/
def toJson (a : Alert) : Json := .object (fieldNames.zip a.fieldValues)

/-- An alert as a line, without its end. -/
def line (a : Alert) : String := a.toJson.render

/-- The name that a value gives to one of several cases: a string, or an object with that name and
`null`. -/
def caseName? : Json → Option String
  | .string name => some name
  | .object [(name, .null)] => some name
  | _ => none

/-- The alert with the values of its fields given in order. -/
def ofFieldValues? : List Json → Option Alert
  | [level, timestamp, score, reason, agreement, primaryScore, secondaryScore] => do
    return {
      level := ← AlertLevel.ofName? (← caseName? level)
      timestamp := ← timestamp.word?
      score := ← score.float?
      reason := ← reason.string?
      agreement := ← Agreement.ofName? (← caseName? agreement)
      primaryScore := ← primaryScore.float?
      secondaryScore := ← secondaryScore.float? }
  | _ => none

/-- The value of the one field with a name, `none` if there is no such field or more than one. -/
def uniqueField? (fields : List (String × Json)) (name : String) : Option Json :=
  match fields.filter (·.1 == name) with
  | [(_, value)] => some value
  | _ => none

/-- The alert that a value stands for: an object with each field once, other fields ignored, or an
array of exactly the values. -/
def ofJson? : Json → Option Alert
  | .object fields => do ofFieldValues? (← fieldNames.mapM (uniqueField? fields))
  | .array items => ofFieldValues? items
  | _ => none

/-- The alert that a text stands for. -/
def parse? (text : String) : Option Alert := do ofJson? (← Json.parse? text)

end Alert

end CounterWatch
