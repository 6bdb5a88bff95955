import K8StorageX.CacheConsistency
import K8StorageX.StoreContention

/-!
# Contention for a Cache

`updateCache` gives up after the attempts of its backoff. A call whose own requests
are answered gives up for one reason only: in every one of its attempts something else
was stored between its read and its write. The number of changes recorded while it runs
therefore bounds how often that can happen.
-/

namespace K8StorageX.CacheContention

open ApiProgram WorkerPool CacheModel CacheUpdater CacheConsistency OptimisticStore

variable {init : Option Cache} {start : Time} {st st₁ st' : CallState} {i : ℕ} {call : Call}
  {es : List (Event ℕ Call (Option ApiError) (Env CacheSpec))} {captured : Captured} {e : ApiError}

/-- Whether a cache is stored decides whether the object is. -/
theorem object_eq_none_iff : st.shared.object = none ↔ storedCache st = none :=
  Option.map_eq_none_iff.symm

/-- A call that returned an error has stored nothing. -/
theorem not_mem_order_of_failed (h : Reached init start st)
    (hreturned : CallReturned st i (captured, some e)) : i ∉ order st.shared.history := by
  intro hmem
  obtain ⟨seen, result, hstored⟩ := (mem_order_iff_returned h i).mp hmem
  obtain ⟨seen', hfailed⟩ := hreturned
  rw [hstored] at hfailed
  cases hfailed

/-- A call whose own requests do not fail, on a cache it may expect to find, returns no
error but a conflict, and then at least `backoffSteps` changes were recorded while it ran,
besides the creation of a missing cache. None of them is its own. -/
theorem update_overtaken (h : Reached init start st)
    (hstart : calls.step st (.start i call) = some st₁)
    (hexpected : call.creates = true ∨ storedCache st ≠ none)
    (hcalm : ∀ fault, .serve i fault ∈ es → fault = none) (hrun : calls.run st₁ es = some st')
    (hreturned : CallReturned st' i (captured, some e)) :
    e = .conflict ∧
      st.shared.history.length + (if storedCache st = none then 1 else 0) + backoffSteps ≤
        st'.shared.history.length ∧
      i ∉ order st'.shared.history := by
  obtain ⟨before, hbefore⟩ := h
  have hafter : Reached init start st' := by
    refine ⟨before ++ .start i call :: es, ?_⟩
    rw [System.run_append, hbefore]
    simp only [Option.bind_some, System.run]
    rw [hstart]
    exact hrun
  have hfound : Expected cacheSpec call st.shared :=
    hexpected.imp_right fun hstored hnone => hstored (object_eq_none_iff.mp hnone)
  obtain ⟨seen, hfailed⟩ := hreturned
  obtain ⟨hconflict, hspent⟩ := conflict_overtaken hstart hfound hcalm hrun hfailed
  -- versions count the recorded changes at both ends of the run
  have hfirst := (tallied_of_reachable ⟨before, hbefore⟩).revision
  have hlast := (tallied_of_reachable hafter).revision
  refine ⟨hconflict, ?_, not_mem_order_of_failed hafter ⟨seen, hfailed⟩⟩
  simp only [object_eq_none_iff] at hspent
  simp only [backoffSteps] at hspent ⊢
  omega

/-- Attempts of client 0 with an edit of the spec between each read and its write. -/
def overtaken (attempts : ℕ) : List (Event ℕ Call (Option ApiError) (Env CacheSpec)) :=
  (List.replicate attempts
    [.serve 0 none, .serve 0 none, .env (.edit ⟨false⟩), .serve 0 none]).flatten

/-- Requests of overtaken attempts are answered. -/
theorem calm_overtaken (attempts : ℕ) (fault : Option ApiError)
    (h : .serve 0 fault ∈ overtaken attempts) : fault = none := by
  simp only [overtaken, List.mem_flatten, List.mem_replicate] at h
  obtain ⟨events, ⟨-, rfl⟩, hmem⟩ := h
  simpa using hmem

/-- What the call of a client has returned. -/
def outcome (st : CallState) (i : ℕ) : Option (Captured × Option ApiError) :=
  match st.running i with
  | some ⟨_, .ret result⟩ => some result
  | _ => none

theorem returned_of_outcome {result : Captured × Option ApiError}
    (h : outcome st i = some result) : CallReturned st i result := by
  unfold outcome at h
  split at h
  · rename_i seen _ hrunning
    cases h
    exact ⟨seen, hrunning⟩
  · cases h

/-- As many edits as there are attempts are enough: the bound is attained. -/
theorem update_overtaken_each_attempt :
    ∃ st₁ st' : CallState,
      calls.step (idle (Server.initial (some (singleVolumeCache none)) 0))
        (.start 0 (.prepareCommit "node1" "vol1")) = some st₁ ∧
      calls.run st₁ (overtaken backoffSteps) = some st' ∧
      CallReturned st' 0 (.zero, some .conflict) ∧
      st'.shared.history.length = backoffSteps ∧ 0 ∉ order st'.shared.history := by
  have hreached : Reached (some (singleVolumeCache none)) 0
      (idle (Server.initial (some (singleVolumeCache none)) 0)) := ⟨[], rfl⟩
  have hends : (((calls.step (idle (Server.initial (some (singleVolumeCache none)) 0))
      (.start 0 (.prepareCommit "node1" "vol1"))).bind fun st₁ =>
        calls.run st₁ (overtaken backoffSteps)).map fun st' =>
          (outcome st' 0, st'.shared.history.length)) =
      some (some (.zero, some .conflict), backoffSteps) := by
    decide +kernel
  obtain ⟨st', hboth, hpair⟩ := Option.map_eq_some_iff.mp hends
  obtain ⟨st₁, hstart, hrun⟩ := Option.bind_eq_some_iff.mp hboth
  obtain ⟨hout, hlength⟩ := Prod.mk.inj hpair
  have hreturned := returned_of_outcome hout
  have hovertaken := update_overtaken hreached hstart (.inr (Option.some_ne_none _))
    (calm_overtaken backoffSteps) hrun hreturned
  exact ⟨st₁, st', hstart, hrun, hreturned, hlength, hovertaken.2.2⟩

end K8StorageX.CacheContention
