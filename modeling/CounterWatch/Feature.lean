import CounterWatch.Arithmetic

/-!
# Feature vectors

What the models see of one sample: fourteen numbers, made of the three rates and of their recent
history.
-/

namespace CounterWatch

/-- The count of features. -/
def featureCount : Nat := 14

/-- One value for each feature, in the order of `featureNames`. -/
abbrev FeatureVector (α : Type) : Type := Vector α featureCount

/-- The names of the features: the rates, their rolling means, their rolling standard deviations,
their changes, and the two products with the instructions per cycle. -/
def featureNames : Vector String featureCount :=
  #v["cmr", "bmr", "ipc",
    "cmr_rmean", "bmr_rmean", "ipc_rmean",
    "cmr_rstd", "bmr_rstd", "ipc_rstd",
    "cmr_delta", "bmr_delta", "ipc_delta",
    "cmr_x_ipc", "bmr_x_ipc"]

namespace FeatureVector

variable {α : Type} [Scalar α]

/-- The vector with one value for every feature. -/
def fill (x : α) : FeatureVector α := Vector.replicate featureCount x

/-- Whether every value is finite. -/
@[specialize] def isFinite (v : FeatureVector α) : Bool := v.all Scalar.isFinite

omit [Scalar α] in
theorem get_fill (x : α) (j : Fin featureCount) : (fill x : FeatureVector α).get j = x := by
  show (Vector.replicate featureCount x)[j.1] = x
  exact Vector.getElem_replicate j.2

omit [Scalar α] in
theorem ext_get {v w : FeatureVector α} (same : ∀ j : Fin featureCount, v.get j = w.get j) : v = w :=
  Vector.ext fun i lt => same ⟨i, lt⟩

theorem isFinite_iff {v : FeatureVector α} :
    v.isFinite = true ↔ ∀ j : Fin featureCount, Scalar.isFinite (v.get j) = true := by
  rw [isFinite, Vector.all_eq_true]
  exact ⟨fun all j => all j.1 j.2, fun all i lt => all ⟨i, lt⟩⟩

theorem isFinite_fill {x : α} (h : Scalar.isFinite x = true) :
    (fill x : FeatureVector α).isFinite = true :=
  isFinite_iff.2 fun j => (get_fill x j).symm ▸ h

end FeatureVector

end CounterWatch
