import K8StorageX.CommitLock
import K8StorageX.NodeAgent
import K8StorageX.StoreLinearization

/-!
# Concurrent updates of a Cache

`Updater` changes the status of a `Cache` by optimistic updates. The three kinds
of calls instantiate the generic store: their closures are the modifications,
status updates leave the stored spec alone, and a missing cache is created by a
registration only. The results about runs quantify over all interleavings of
any number of calls, time passing in between, edits of the spec and failures of
single requests.
-/

namespace K8StorageX.CacheUpdater

open ApiProgram WorkerPool CacheModel CommitLock NodeAgent OptimisticStore GoErrors

/-- The calls of an `Updater`. -/
inductive Call where
  /-- `RegisterCacheVolume` -/
  | register (nodeName volumeName defaultImage : String) (commit : Bool)
  /-- `PrepareCommit` -/
  | prepareCommit (nodeName volumeName : String)
  /-- `UnregisterCacheVolume` with the text of the commit error -/
  | unregister (nodeName volumeName : String) (commitErr : Option String)
  deriving DecidableEq, Repr

/-- The result variables the closures capture. -/
structure Captured where
  /-- `image` of `RegisterCacheVolume` -/
  image : String
  /-- `commit` of `PrepareCommit` -/
  commit : Bool
  deriving DecidableEq, Repr

/-- The variables before the first attempt. -/
def Captured.zero : Captured := ⟨"", false⟩

/-- The closure a call passes to `updateCache`. -/
def Call.modify : Call → Time → Cache → Cache × Captured
  | .register nodeName volumeName defaultImage commit, now, c =>
    let (c, image) := registerVolume nodeName volumeName defaultImage commit now c
    (c, { Captured.zero with image := image })
  | .prepareCommit nodeName volumeName, now, c =>
    let (c, commit) := decideCommit nodeName volumeName now c
    (c, { Captured.zero with commit := commit })
  | .unregister nodeName volumeName commitErr, now, c =>
    ((unregisterVolume nodeName volumeName commitErr now c).1, .zero)

/-- The `create` argument a call passes to `updateCache`. -/
def Call.creates : Call → Bool
  | .register _ _ _ _ => true
  | .prepareCommit _ _ => false
  | .unregister _ _ _ => false

theorem spec_addVolume (c : Cache) (nodeName volName : String) (commit : Bool) (now : Time) :
    (addVolume c nodeName volName commit now).1.spec = c.spec := by
  unfold addVolume
  dsimp only
  split <;> rfl

theorem spec_scanNodes (c : Cache) (now : Time) (i : ℕ) (nodes : List NodeStatus) :
    (scanNodes c now i nodes).2.spec = c.spec := by
  rcases scanNodes_cases c now i nodes with hsame | ⟨k, n, j, v, -, -, -, hexpired⟩
  · rw [hsame]
  · rw [hexpired]
    rfl

theorem spec_decideCommit (nodeName volumeName : String) (now : Time) (c : Cache) :
    (decideCommit nodeName volumeName now c).1.spec = c.spec := by
  have houtcome := decided nodeName volumeName now c
  generalize decideCommit nodeName volumeName now c = outcome at houtcome ⊢
  cases houtcome with
  | refused => rfl
  | inProgress => exact spec_scanNodes c now 0 c.status.nodes
  | granted => rfl

/-- The closures change the status only. -/
theorem spec_modify (call : Call) (now : Time) (c : Cache) :
    (call.modify now c).1.spec = c.spec := by
  cases call with
  | register nodeName volumeName defaultImage commit => exact spec_addVolume _ _ _ _ _
  | prepareCommit nodeName volumeName => exact spec_decideCommit _ _ _ _
  | unregister nodeName volumeName commitErr => rfl

/-- Optimistic updates of a cache. Other parties may edit its spec. -/
def cacheSpec : Spec Cache Call CacheSpec Captured where
  modify := Call.modify
  blank _ := .zero
  creates := Call.creates
  fresh := .new
  merge stored written := { stored with status := written.status }
  edit spec c := { c with spec := spec }
  merge_modify := by
    intro call now c
    rw [← spec_modify call now c]

/-- `Steps` of the backoff: the number of attempts. -/
def backoffSteps : ℕ := 10

/-- `updateCache` with the closure of a call: the captured variables and the error. -/
def updateCache (call : Call) : Agent (Captured × Option ApiError) :=
  onCache (retryOnConflict cacheSpec call (backoffSteps - 1) .zero)

/-- What `RegisterCacheVolume` makes of the outcome of its update. -/
def registerReply (outcome : Captured × Option ApiError) : String × Option GoError :=
  (outcome.1.image, outcome.2.map fun e => .wrapped "register volume in cluster" (.api e))

/-- What `PrepareCommit` makes of the outcome of its update: a missing cache is
no error and does not grant a commit. -/
def prepareReply (outcome : Captured × Option ApiError) : Bool × Option GoError :=
  if outcome.2 = some .notFound then (false, none)
  else (outcome.1.commit, outcome.2.map fun e => .wrapped "prepare cache commit" (.api e))

/-- What `UnregisterCacheVolume` makes of the outcome of its update: a missing
cache is no error. -/
def unregisterReply (volumeName : String) (outcome : Captured × Option ApiError) :
    Option GoError :=
  if outcome.2 = some .notFound then none
  else
    outcome.2.map fun e =>
      .wrapped ("unregister volume " ++ volumeName.quote ++ " from cluster") (.api e)

/-- `RegisterCacheVolume` -/
def registerCacheVolume (nodeName volumeName defaultImage : String) (commit : Bool) :
    Agent (String × Option GoError) := do
  let outcome ← updateCache (.register nodeName volumeName defaultImage commit)
  return registerReply outcome

/-- `PrepareCommit` -/
def prepareCommit (nodeName volumeName : String) : Agent (Bool × Option GoError) := do
  let outcome ← updateCache (.prepareCommit nodeName volumeName)
  return prepareReply outcome

/-- `UnregisterCacheVolume` -/
def unregisterCacheVolume (nodeName volumeName : String) (commitErr : Option GoError) :
    Agent (Option GoError) := do
  let outcome ← updateCache (.unregister nodeName volumeName (commitErr.map (·.message)))
  return unregisterReply volumeName outcome

/-- Any number of calls on one cache, each with its attempts. -/
def calls : System ℕ Call (OptimisticStore.Req Cache) (OptimisticStore.Resp Cache)
    (Server Cache Call CacheSpec) (Option ApiError) (Env CacheSpec) (Captured × Option ApiError) :=
  system cacheSpec (backoffSteps - 1)

/-- States of the calls. -/
abbrev CallState : Type :=
  State ℕ (OptimisticStore.Req Cache) (OptimisticStore.Resp Cache)
    (Server Cache Call CacheSpec) (Captured × Option ApiError)

/-- The call of a client has returned. -/
def CallReturned (st : CallState) (i : ℕ) (outcome : Captured × Option ApiError) : Prop :=
  ∃ seen, st.running i = some ⟨seen, .ret outcome⟩

/-- The cache as it is stored. -/
def storedCache (st : CallState) : Option Cache := st.shared.object.map (·.value)

/-- The states of all runs from a given cache, or none, at a given time. -/
def Reached (init : Option Cache) (start : Time) (st : CallState) : Prop :=
  calls.Reachable (idle (Server.initial init start)) st

end K8StorageX.CacheUpdater
