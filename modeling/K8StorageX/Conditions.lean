import K8StorageX.CacheModel

/-!
# Status conditions

`utils.GetCondition` and `utils.SetCondition` on the list of conditions in the
status of an object.
-/

namespace K8StorageX.Conditions

open CacheModel

/-- `metav1.ConditionStatus` -/
inductive ConditionStatus where
  /-- `ConditionTrue` -/
  | true
  /-- `ConditionFalse` -/
  | false
  /-- `ConditionUnknown` -/
  | unknown
  deriving DecidableEq, Repr

/-- `metav1.Condition` -/
structure Condition where
  /-- `Type` -/
  condType : String
  /-- `Status` -/
  status : ConditionStatus
  /-- `Reason` -/
  reason : String
  /-- `Message` -/
  message : String
  /-- `ObservedGeneration` -/
  observedGeneration : Int64
  /-- `LastTransitionTime` -/
  lastTransitionTime : Time
  deriving DecidableEq, Repr

/-- `utils.GetCondition` -/
def getCondition (conditions : List Condition) (condType : String) : Option Condition :=
  conditions.find? fun condition => condition.condType = condType

/-- Whether an update of a condition is reported as a change. -/
def changes (condition newCond : Condition) : Bool :=
  condition.status != newCond.status ||
    condition.observedGeneration != newCond.observedGeneration ||
    condition.reason != newCond.reason ||
    condition.message != newCond.message

/-- `utils.SetCondition` at a time, with the changed list. The transition time of the
new condition is not read. -/
def setCondition (now : Time) (newCond : Condition) : List Condition → Bool × List Condition
  | [] => (true, [{ newCond with lastTransitionTime := now }])
  | condition :: rest =>
    if condition.condType = newCond.condType then
      let since := if condition.status = newCond.status then condition.lastTransitionTime else now
      (changes condition newCond, { newCond with lastTransitionTime := since } :: rest)
    else
      let set := setCondition now newCond rest
      (set.1, condition :: set.2)

/-- The status of a condition, if there is one of the type. -/
def statusOf (conditions : List Condition) (condType : String) : Option ConditionStatus :=
  (getCondition conditions condType).map Condition.status

/-- The transition time of a new condition, given the one it replaces. -/
def since (now : Time) (newCond : Condition) : Option Condition → Time
  | none => now
  | some condition =>
    if condition.status = newCond.status then condition.lastTransitionTime else now

theorem getCondition_cons_of_ne {condition : Condition} {condType : String}
    (hne : condition.condType ≠ condType) (rest : List Condition) :
    getCondition (condition :: rest) condType = getCondition rest condType := by
  simp [getCondition, hne]

theorem getCondition_cons_self (condition : Condition) (rest : List Condition) :
    getCondition (condition :: rest) condition.condType = some condition := by
  simp [getCondition]

/-- What `SetCondition` does to the condition of its type, and the change that it reports. -/
theorem setCondition_self (now : Time) (newCond : Condition) (conditions : List Condition) :
    getCondition (setCondition now newCond conditions).2 newCond.condType =
        some { newCond with
          lastTransitionTime := since now newCond (getCondition conditions newCond.condType) } ∧
      (setCondition now newCond conditions).1 =
        ((getCondition conditions newCond.condType).map (changes · newCond)).getD true := by
  induction conditions with
  | nil => simp [setCondition, getCondition, since]
  | cons condition rest ih =>
    rw [setCondition]
    split
    · next heq =>
      have hget : getCondition (condition :: rest) newCond.condType = some condition :=
        heq ▸ getCondition_cons_self condition rest
      rw [hget]
      constructor
      · simp [getCondition, since]
      · rfl
    · next hne => simpa only [getCondition_cons_of_ne hne] using ih

/-- `SetCondition` keeps the conditions of other types. -/
theorem getCondition_setCondition_of_ne (now : Time) {newCond : Condition} {condType : String}
    (hne : newCond.condType ≠ condType) (conditions : List Condition) :
    getCondition (setCondition now newCond conditions).2 condType =
      getCondition conditions condType := by
  induction conditions with
  | nil => simp [setCondition, getCondition, hne]
  | cons condition rest ih =>
    rw [setCondition]
    split
    · next heq =>
      have hother : condition.condType ≠ condType := fun h => hne (heq.symm.trans h)
      simp [getCondition, hne, hother]
    · simp only [getCondition, List.find?_cons]
      split
      · rfl
      · exact ih

/-- `SetCondition` keeps the types and their order, and appends a new one. -/
theorem types_setCondition (now : Time) (newCond : Condition) (conditions : List Condition) :
    (setCondition now newCond conditions).2.map Condition.condType =
      if newCond.condType ∈ conditions.map Condition.condType then
        conditions.map Condition.condType
      else conditions.map Condition.condType ++ [newCond.condType] := by
  induction conditions with
  | nil => simp [setCondition]
  | cons condition rest ih =>
    rw [setCondition]
    split
    · next heq => simp [heq]
    · next hne =>
      have hne' : newCond.condType ≠ condition.condType := Ne.symm hne
      simp only [List.map_cons, List.mem_cons, ih, hne', false_or]
      split <;> simp

theorem statusOf_setCondition_self (now : Time) (newCond : Condition)
    (conditions : List Condition) :
    statusOf (setCondition now newCond conditions).2 newCond.condType = some newCond.status := by
  rw [statusOf, (setCondition_self now newCond conditions).1]
  rfl

theorem statusOf_setCondition_of_ne (now : Time) {newCond : Condition} {condType : String}
    (hne : newCond.condType ≠ condType) (conditions : List Condition) :
    statusOf (setCondition now newCond conditions).2 condType = statusOf conditions condType := by
  rw [statusOf, statusOf, getCondition_setCondition_of_ne now hne]

end K8StorageX.Conditions
