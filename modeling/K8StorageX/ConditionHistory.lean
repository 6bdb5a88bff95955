import K8StorageX.Conditions
import Mathlib.Data.List.Dedup
import Mathlib.Data.List.Induction

/-!
# Conditions record the history of the calls

The conditions after a sequence of `SetCondition` calls are determined by the calls of each
type: the last one gives the fields of the condition, and the last change of the status
gives the transition time. Calls of other types in between do not matter.
-/

namespace K8StorageX.ConditionHistory

open CacheModel Conditions

/-- A call of `SetCondition` and the time that it reads. -/
structure Call where
  /-- What `time.Now` returns. -/
  now : Time
  /-- The condition that is set. -/
  newCond : Condition

/-- The conditions after calls on an empty list. -/
def conditionsAfter (calls : List Call) : List Condition :=
  calls.foldl (fun conditions call => (setCondition call.now call.newCond conditions).2) []

/-- The calls for a type. -/
def callsOf (condType : String) (calls : List Call) : List Call :=
  calls.filter fun call => call.newCond.condType = condType

/-- Calls for one type end with a stretch of calls that have the same status. -/
structure FinalStretch (calls earlier stretch : List Call) (first last : Call) : Prop where
  /-- The stretch is at the end. -/
  split : calls = earlier ++ stretch
  /-- Its first call. -/
  head : stretch.head? = some first
  /-- Its last call. -/
  final : stretch.getLast? = some last
  /-- The calls have the same status. -/
  same : ∀ call ∈ stretch, call.newCond.status = last.newCond.status
  /-- The call before the stretch has another status. -/
  maximal : ∀ call ∈ earlier.getLast?, call.newCond.status ≠ last.newCond.status
  /-- The first call is the earliest one. -/
  earliest : ∀ call ∈ stretch, first.now ≤ call.now

/-- The condition has the fields of the last call and the time of the earliest call in the
final stretch. -/
def Records (calls : List Call) (condition : Condition) : Prop :=
  ∃ earlier stretch first last, FinalStretch calls earlier stretch first last ∧
    condition = { last.newCond with lastTransitionTime := first.now }

section Calls

variable {calls : List Call} {call : Call} {condition : Condition}

/-- The last call is made on the conditions after the calls before it. -/
@[simp] theorem conditionsAfter_append_singleton (calls : List Call) (call : Call) :
    conditionsAfter (calls ++ [call]) =
      (setCondition call.now call.newCond (conditionsAfter calls)).2 := by
  simp [conditionsAfter]

/-- A call belongs to the calls of its type. -/
theorem callsOf_append_self (calls : List Call) (call : Call) :
    callsOf call.newCond.condType (calls ++ [call]) =
      callsOf call.newCond.condType calls ++ [call] := by
  simp [callsOf]

/-- It does not belong to those of another type. -/
theorem callsOf_append_of_ne {condType : String} (hne : call.newCond.condType ≠ condType)
    (calls : List Call) : callsOf condType (calls ++ [call]) = callsOf condType calls := by
  simp [callsOf, hne]

/-- The first call of a type is recorded with its own time. -/
theorem records_first (call : Call) :
    Records [call] { call.newCond with lastTransitionTime := call.now } :=
  ⟨[], [call], call, call, ⟨rfl, rfl, rfl, by simp, by simp, by simp⟩, rfl⟩

/-- The condition that records calls has the fields of the last one. -/
theorem Records.last (h : Records calls condition) :
    ∃ last ∈ calls.getLast?, condition = { last.newCond with
      lastTransitionTime := condition.lastTransitionTime } := by
  obtain ⟨earlier, stretch, first, last, hstretch, rfl⟩ := h
  refine ⟨last, ?_, rfl⟩
  rw [hstretch.split, List.getLast?_append, hstretch.final]
  rfl

/-- Another call extends the stretch, or starts one if it changes the status. -/
theorem Records.append (h : Records calls condition) (hnow : ∀ c ∈ calls, c.now ≤ call.now) :
    Records (calls ++ [call]) { call.newCond with
      lastTransitionTime := since call.now call.newCond (some condition) } := by
  obtain ⟨earlier, stretch, first, last, hstretch, rfl⟩ := h
  by_cases hstatus : last.newCond.status = call.newCond.status
  · have hfirst : first.now ≤ call.now := by
      apply hnow
      rw [hstretch.split]
      exact List.mem_append_right _ (List.mem_of_mem_head? hstretch.head)
    refine ⟨earlier, stretch ++ [call], first, call, ⟨?_, ?_, ?_, ?_, ?_, ?_⟩, ?_⟩
    · rw [hstretch.split, List.append_assoc]
    · rw [List.head?_append, hstretch.head]
      rfl
    · simp
    · intro c hc
      rcases List.mem_append.mp hc with hc | hc
      · rw [hstretch.same c hc, hstatus]
      · rw [List.mem_singleton.mp hc]
    · rw [← hstatus]
      exact hstretch.maximal
    · intro c hc
      rcases List.mem_append.mp hc with hc | hc
      · exact hstretch.earliest c hc
      · rwa [List.mem_singleton.mp hc]
    · simp [since, hstatus]
  · refine ⟨calls, [call], call, call, ⟨rfl, rfl, rfl, by simp, ?_, by simp⟩, ?_⟩
    · intro c hc
      rw [hstretch.split, List.getLast?_append, hstretch.final] at hc
      obtain rfl : last = c := by simpa using hc
      exact hstatus
    · simp [since, hstatus]

/-- The condition of a type records the calls for it. -/
theorem getCondition_conditionsAfter (hnow : calls.Pairwise fun c d => c.now ≤ d.now)
    (condType : String) :
    (callsOf condType calls = [] ∧ getCondition (conditionsAfter calls) condType = none) ∨
      ∃ condition, Records (callsOf condType calls) condition ∧
        getCondition (conditionsAfter calls) condType = some condition := by
  induction calls using List.reverseRecOn with
  | nil => exact Or.inl ⟨rfl, rfl⟩
  | append_singleton calls call ih =>
    obtain ⟨hcalls, -, hlater⟩ := List.pairwise_append.mp hnow
    rw [conditionsAfter_append_singleton]
    by_cases htype : call.newCond.condType = condType
    · subst htype
      refine Or.inr ⟨_, ?_, (setCondition_self call.now call.newCond _).1⟩
      rw [callsOf_append_self]
      rcases ih hcalls with ⟨hnil, hnone⟩ | ⟨condition, hrecords, hsome⟩
      · rw [hnil, hnone]
        exact records_first call
      · rw [hsome]
        refine hrecords.append fun c hc => ?_
        exact hlater c (List.mem_of_mem_filter hc) call (List.mem_singleton_self call)
    · rw [callsOf_append_of_ne htype, getCondition_setCondition_of_ne _ htype]
      exact ih hcalls

/-- A type that is added at the end counts if it is new. -/
theorem eraseDups_append_singleton (types : List String) (t : String) :
    (types ++ [t]).eraseDups = if t ∈ types.eraseDups then types.eraseDups
      else types.eraseDups ++ [t] := by
  rw [List.eraseDups_append]
  by_cases ht : t ∈ types <;> simp [ht, List.removeAll, List.eraseDups_cons]

/-- There is one condition per type, in the order of the first calls. -/
theorem types_conditionsAfter (calls : List Call) :
    (conditionsAfter calls).map Condition.condType =
      (calls.map fun call => call.newCond.condType).eraseDups := by
  induction calls using List.reverseRecOn with
  | nil => rfl
  | append_singleton calls call ih =>
    rw [conditionsAfter_append_singleton, types_setCondition, ih, List.map_append, List.map_singleton,
      eraseDups_append_singleton]

/-- There is one condition of each type. -/
theorem nodup_types (calls : List Call) :
    ((conditionsAfter calls).map Condition.condType).Nodup := by
  induction calls using List.reverseRecOn with
  | nil => exact List.nodup_nil
  | append_singleton calls call ih =>
    rw [conditionsAfter_append_singleton, types_setCondition]
    split
    · exact ih
    · next hnew => exact ih.append (List.nodup_singleton _) (List.disjoint_singleton.mpr hnew)

/-- A condition is found under its type. -/
theorem getCondition_of_mem {conditions : List Condition}
    (hnodup : (conditions.map Condition.condType).Nodup) (hmem : condition ∈ conditions) :
    getCondition conditions condition.condType = some condition := by
  induction conditions with
  | nil => cases hmem
  | cons head rest ih =>
    obtain ⟨hnot, hrest⟩ := List.nodup_cons.mp hnodup
    rcases List.mem_cons.mp hmem with rfl | hmem
    · exact getCondition_cons_self condition rest
    · have hne : head.condType ≠ condition.condType := fun heq =>
        hnot (heq ▸ List.mem_map_of_mem hmem)
      rw [getCondition_cons_of_ne hne, ih hrest hmem]

/-- What `SetCondition` takes for a change. -/
theorem changes_iff {newCond : Condition} :
    changes condition newCond = true ↔
      condition.status ≠ newCond.status ∨
      condition.observedGeneration ≠ newCond.observedGeneration ∨
      condition.reason ≠ newCond.reason ∨ condition.message ≠ newCond.message := by
  simp [changes, or_assoc]

/-- A call reports a change if it is the first for its type or differs from the previous one. -/
theorem setCondition_conditionsAfter (hnow : calls.Pairwise fun c d => c.now ≤ d.now) (call : Call) :
    (setCondition call.now call.newCond (conditionsAfter calls)).1 = true ↔
      callsOf call.newCond.condType calls = [] ∨
        ∃ previous ∈ (callsOf call.newCond.condType calls).getLast?,
          previous.newCond.status ≠ call.newCond.status ∨
          previous.newCond.observedGeneration ≠ call.newCond.observedGeneration ∨
          previous.newCond.reason ≠ call.newCond.reason ∨
          previous.newCond.message ≠ call.newCond.message := by
  rw [(setCondition_self call.now call.newCond _).2]
  rcases getCondition_conditionsAfter hnow call.newCond.condType with
    ⟨hnil, hnone⟩ | ⟨condition, hrecords, hsome⟩
  · simp [hnil, hnone]
  · obtain ⟨last, hlast, hfields⟩ := hrecords.last
    have hne : callsOf call.newCond.condType calls ≠ [] := by
      intro hnil
      simp [hnil] at hlast
    rw [hsome, Option.map_some, Option.getD_some, changes_iff, hfields, Option.mem_def.mp hlast]
    simp [hne]

/-- Conditions record the history of the calls. There is one condition per type, in the
order of the first calls; it has the fields of the last call for its type and the time of
the earliest call in the final stretch of calls with the same status; `GetCondition`
returns it; and a call returns whether it is the first for its type or differs from the
previous one. -/
theorem conditions_record_calls (calls : List Call)
    (hnow : calls.Pairwise fun c d => c.now ≤ d.now) :
    (conditionsAfter calls).map Condition.condType =
        (calls.map fun call => call.newCond.condType).eraseDups ∧
      (∀ condition ∈ conditionsAfter calls,
        Records (callsOf condition.condType calls) condition ∧
        getCondition (conditionsAfter calls) condition.condType = some condition) ∧
      (∀ condType, callsOf condType calls = [] ↔
        getCondition (conditionsAfter calls) condType = none) ∧
      ∀ before call after, calls = before ++ call :: after →
        ((setCondition call.now call.newCond (conditionsAfter before)).1 = true ↔
          callsOf call.newCond.condType before = [] ∨
          ∃ previous ∈ (callsOf call.newCond.condType before).getLast?,
            previous.newCond.status ≠ call.newCond.status ∨
            previous.newCond.observedGeneration ≠ call.newCond.observedGeneration ∨
            previous.newCond.reason ≠ call.newCond.reason ∨
            previous.newCond.message ≠ call.newCond.message) := by
  refine ⟨types_conditionsAfter calls, fun condition hmem => ?_, fun condType => ?_, ?_⟩
  · have hget := getCondition_of_mem (nodup_types calls) hmem
    rcases getCondition_conditionsAfter hnow condition.condType with
      ⟨-, hnone⟩ | ⟨found, hrecords, hsome⟩
    · rw [hnone] at hget
      cases hget
    · obtain rfl : found = condition := by simpa [hsome] using hget
      exact ⟨hrecords, hget⟩
  · rcases getCondition_conditionsAfter hnow condType with
      ⟨hnil, hnone⟩ | ⟨condition, hrecords, hsome⟩
    · exact iff_of_true hnil hnone
    · obtain ⟨last, hlast, -⟩ := hrecords.last
      refine iff_of_false ?_ (by simp [hsome])
      intro hnil
      simp [hnil] at hlast
  · rintro before call after rfl
    exact setCondition_conditionsAfter (List.pairwise_append.mp hnow).1 call

/-- A condition that becomes true, gets another message and has one of another type set in
between. -/
def sampleCalls : List Call :=
  [⟨1, ⟨"Ready", .false, "Starting", "", 1, 0⟩⟩, ⟨2, ⟨"Ready", .true, "Started", "", 1, 0⟩⟩,
    ⟨3, ⟨"Deployed", .true, "", "", 1, 0⟩⟩, ⟨4, ⟨"Ready", .true, "Started", "again", 2, 0⟩⟩]

/-- The time of the first call with the last status is recorded, although the message changes
later. -/
theorem conditions_record_calls_sample :
    conditionsAfter sampleCalls = [⟨"Ready", .true, "Started", "again", 2, 2⟩,
        ⟨"Deployed", .true, "", "", 1, 3⟩] ∧
      Records (callsOf "Ready" sampleCalls) ⟨"Ready", .true, "Started", "again", 2, 2⟩ := by
  have hafter : conditionsAfter sampleCalls = [⟨"Ready", .true, "Started", "again", 2, 2⟩,
      ⟨"Deployed", .true, "", "", 1, 3⟩] := by decide
  have hrecords := conditions_record_calls sampleCalls (by simp [sampleCalls])
  rw [hafter] at hrecords
  exact ⟨hafter, (hrecords.2.1 _ List.mem_cons_self).1⟩

end Calls

end K8StorageX.ConditionHistory
