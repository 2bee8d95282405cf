import CounterWatch.Feature

/-!
# Reasons

An alert names the rates that stand out from their own recent history, by how many rolling standard
deviations they lie from their rolling mean. A rise of the instructions per cycle is never a reason;
only a collapse is.
-/

namespace CounterWatch

/-- A rate that stands out. -/
inductive Reason where
  | cacheMissSpike
  | branchMissSpike
  | ipcCollapse
  deriving DecidableEq, Repr

namespace Reason

/-- The word for a reason. -/
def name : Reason → String
  | .cacheMissSpike => "cache_miss_spike"
  | .branchMissSpike => "branch_miss_spike"
  | .ipcCollapse => "ipc_collapse"

/-- What a row of features says about one rate: its value, and the mean and the standard deviation
over its window. -/
structure Standing (α : Type) where
  current : α
  mean : α
  deviation : α

/-- What a row of features says about the rate of a reason. -/
def standing {α : Type} : Reason → FeatureVector α → Standing α
  | .cacheMissSpike, row => ⟨row[0], row[3], row[6]⟩
  | .branchMissSpike, row => ⟨row[1], row[4], row[7]⟩
  | .ipcCollapse, row => ⟨row[2], row[5], row[8]⟩

variable {α : Type} [Scalar α]

/-- How many standard deviations a value lies above the mean. Where there is no spread, `floor`
stands for the deviation. -/
def deviation (current mean spread floor : α) : α :=
  (current - mean) / (if 1e-12 < spread then spread else floor)

/-- The deviation that counts as a spike. -/
def spike : α := 3.0

/-- The reasons in a feature vector, in a fixed order. -/
def ofFeatures (x : FeatureVector α) : List Reason :=
  (if spike < deviation x[0] x[3] x[6] 1e-6 then [.cacheMissSpike] else [])
    ++ (if spike < deviation x[1] x[4] x[7] 1e-6 then [.branchMissSpike] else [])
    ++ (if deviation x[2] x[5] x[8] 0.01 < (-spike : α) then [.ipcCollapse] else [])

/-- The words for some reasons; for none of them, only the models found something. -/
def describe : List Reason → String
  | [] => "ensemble_anomaly"
  | reasons => String.intercalate " " (reasons.map name)

/-- The words for the reasons in a feature vector. -/
def classify (x : FeatureVector α) : String := describe (ofFeatures x)

end Reason

end CounterWatch
