import K8StorageX.WorkerPool
import K8StorageX.Conditions
import K8StorageX.JobReconciler

/-!
# The Cache controller

`CacheReconciler` protects a `Cache` with a finalizer. When the `Cache` is deleted it
is reset: it is locked, a Pod untags its image, and it is unlocked again. The API
serves Caches with a status subresource: `Update` does not change the status and
`Status().Update` changes nothing else.
-/

namespace K8StorageX.CacheController

open ApiProgram GoErrors CacheModel Conditions WorkerPool
open KubeObjects (ObjectKey Annotations PodSpec addString hasString removeString)
open KubeApi (Fault)
open JobReconciler (PodResult podResult)

/-- `CacheFinalizer` -/
def cacheFinalizer : String := "k8storagex.mgoltzsche.github.com/finalizer"

/-- `annCacheName` -/
def annCacheName : String := "k8storagex.mgoltzsche.github.com/cache-name"

/-- `annCacheNamespace` -/
def annCacheNamespace : String := "k8storagex.mgoltzsche.github.com/cache-namespace"

/-- `ConditionStorageReset` -/
def conditionStorageReset : String := "StorageReset"

/-- `ConditionPodsCleared` -/
def conditionPodsCleared : String := "PodsCleared"

/-- `ResetStatus` -/
structure ResetStatus where
  /-- `CacheGeneration` -/
  cacheGeneration : Int64
  /-- `ResetTime` -/
  resetTime : Time
  deriving DecidableEq, Repr

/-- `CacheStatus` with the fields only this controller uses. -/
structure FullStatus extends CacheStatus where
  /-- `LastReset` -/
  lastReset : Option ResetStatus
  /-- `Conditions` -/
  conditions : List Condition
  deriving DecidableEq, Repr

/-- A `Cache` with its metadata. -/
structure CacheResource where
  /-- Namespace and name. -/
  key : ObjectKey
  /-- `ResourceVersion` -/
  resourceVersion : ℕ
  /-- `Generation` -/
  generation : Int64
  /-- `DeletionTimestamp != nil` -/
  deleting : Bool
  /-- `Finalizers` -/
  finalizers : List String
  /-- `Status` -/
  status : FullStatus
  deriving DecidableEq

/-- A Pod with the service account it runs as. -/
structure Pod extends KubeObjects.Pod where
  /-- `Spec.ServiceAccountName` -/
  serviceAccountName : String

/-- Settings of the controller. -/
structure Settings where
  /-- `ManagerNamespace` -/
  managerNamespace : String
  /-- `ServiceAccountName` -/
  serviceAccountName : String

/-- Settings of the manager in sample runs. -/
def sampleSettings : Settings := ⟨"manager", "manager"⟩

/-- Requests of the controller. -/
inductive Req where
  /-- `Get` of a Cache -/
  | getCache (key : ObjectKey)
  /-- `Update` of a Cache -/
  | updateCache (cache : CacheResource)
  /-- `Status().Update` of a Cache -/
  | updateCacheStatus (cache : CacheResource)
  /-- `Get` of a Pod -/
  | getPod (key : ObjectKey)
  /-- `Create` of a Pod -/
  | createPod (pod : Pod)
  /-- `Delete` of a Pod -/
  | deletePod (key : ObjectKey)
  /-- `time.Now` -/
  | now

/-- Responses; a successful update returns what has been stored. -/
abbrev Resp : Req → Type
  | .getCache _ => Except ApiError CacheResource
  | .updateCache _ => Except ApiError CacheResource
  | .updateCacheStatus _ => Except ApiError CacheResource
  | .getPod _ => Except ApiError Pod
  | .createPod _ => Except ApiError Unit
  | .deletePod _ => Except ApiError Unit
  | .now => Time

/-- Programs of the controller. -/
abbrev Controller : Type → Type := Prog Req Resp

/-- `utils.ReconcilePod` with a `create` that works on the Cache it has captured. -/
def reconcilePod (key : ObjectKey) (cache : CacheResource)
    (create : Controller (Except GoError Pod × CacheResource)) :
    Controller (PodResult × CacheResource) := do
  let read : Except ApiError Pod ← Prog.request (Req.getPod key)
  match read with
  | .ok pod => return (podResult pod.toPod, cache)
  | .error e =>
    if e = .notFound then
      let made ← create
      match made with
      | (.error e, cache) => return (⟨false, none, some e⟩, cache)
      | (.ok pod, cache) =>
        let created : Except ApiError Unit ←
          Prog.request (Req.createPod { pod with key := key })
        match created with
        | .ok _ => return (⟨false, some pod.toPod, none⟩, cache)
        | .error e =>
          if e = .alreadyExists then
            let again : Except ApiError Pod ← Prog.request (Req.getPod key)
            match again with
            | .ok pod => return (podResult pod.toPod, cache)
            | .error e => return (⟨false, none, some (.wrapped "reconcile pod" (.api e))⟩, cache)
          else return (⟨false, none, some (.wrapped "reconcile pod" (.api e))⟩, cache)
    else return (⟨false, none, some (.wrapped "reconcile pod" (.api e))⟩, cache)

/-- The local object after a condition has been set, and whether that is a change. -/
def withCondition (now : Time) (cache : CacheResource) (condType : String)
    (status : ConditionStatus) (reason message : String) : Bool × CacheResource :=
  let set := setCondition now
    ⟨condType, status, reason, message, cache.generation, now⟩ cache.status.conditions
  (set.1, { cache with status := { cache.status with conditions := set.2 } })

/-- `setPodsClearedCondition` -/
def setPodsClearedCondition (now : Time) (cache : CacheResource) (status : ConditionStatus)
    (reason message : String) : Bool × CacheResource :=
  withCondition now cache conditionPodsCleared status reason message

/-- `imageUntagPodName` -/
def imageUntagPodName (cache : CacheResource) : String := cache.key.name

/-- The Pod that untags the image of a Cache. -/
def untaggerPod (settings : Settings) (cache : CacheResource) : Pod where
  key := ⟨"", ""⟩
  annotations := (Annotations.empty.set annCacheName cache.key.name).set annCacheNamespace
    cache.key.namespaceName
  deleting := false
  spec := {
    containers := [{
      name := "image-untagger"
      image := "TODO"
      command := []
      args := ["untag image within registry"]
      env := [] }]
    volumes := []
    restartPolicy := .never }
  phase := .pending
  serviceAccountName := settings.serviceAccountName

/-- The condition that is set before a Pod is created. -/
def podPending (now : Time) (cache : CacheResource) : Bool × CacheResource :=
  setPodsClearedCondition now cache .false "PodDeletionPending"
    "new reset pod will be removed on success"

/-- The Cache locked for a new reset. -/
def locked (now : Time) (cache : CacheResource) : CacheResource :=
  { (podPending now cache).2 with status := { (podPending now cache).2.status with
    cacheGeneration := cache.status.cacheGeneration + 1
    phase := .reject } }

/-- What `freeStorage` passes to `ReconcilePod`: the Cache is locked before the Pod is
created, unless it is locked already. -/
def lockCache (settings : Settings) (cache : CacheResource) :
    Controller (Except GoError Pod × CacheResource) := do
  let now : Time ← Prog.request Req.now
  let pod := untaggerPod settings cache
  if cache.status.phase ≠ .reject ∨ (podPending now cache).1 then
    let updated : Except ApiError CacheResource ←
      Prog.request (Req.updateCacheStatus (locked now cache))
    match updated with
    | .error e => return (.error (.api e), locked now cache)
    | .ok updated =>
      let read : Except ApiError CacheResource ← Prog.request (Req.getCache cache.key)
      match read with
      | .error e => return (.error (.api e), updated)
      | .ok read => return (.ok pod, read)
  else return (.ok pod, (podPending now cache).2)

/-- `CacheReconciler.deletePod` -/
def deletePod (settings : Settings) (name : String) : Controller (Option GoError) := do
  let read : Except ApiError Pod ← Prog.request (Req.getPod ⟨settings.managerNamespace, name⟩)
  match read with
  | .error e => if e = .notFound then return none else return some (.api e)
  | .ok pod =>
    let deleted : Except ApiError Unit ← Prog.request (Req.deletePod pod.key)
    match deleted with
    | .error e => return some (.api e)
    | .ok _ => return some (.text "pod deletion pending")

/-- The condition `deletePods` sets for what the deletion has returned. -/
def podsCleared (now : Time) (cache : CacheResource) : Option GoError → Bool × CacheResource
  | some e => setPodsClearedCondition now cache .false "PodDeletionFailed" e.message
  | none => setPodsClearedCondition now cache .true "Completed" "all pods removed"

/-- `deletePods` for the one Pod it is called with. -/
def deletePods (settings : Settings) (cache : CacheResource) (podName : String) :
    Controller (Option GoError × CacheResource) := do
  if statusOf cache.status.conditions conditionPodsCleared = some .true then return (none, cache)
  else
    let err ← deletePod settings podName
    let now : Time ← Prog.request Req.now
    let set := podsCleared now cache err
    if set.1 then
      let updated : Except ApiError CacheResource ← Prog.request (Req.updateCacheStatus set.2)
      match updated with
      | .error e => return (some (err.getD (.api e)), set.2)
      | .ok updated => return (err, updated)
    else return (err, set.2)

/-- The reset has met an error, which is final if the Pod is done. -/
def reportFailure (cache : CacheResource) (done : Bool) (err : GoError) :
    Controller (Option GoError × CacheResource) := do
  let now : Time ← Prog.request Req.now
  let set := withCondition now cache conditionStorageReset .false "PendingImageDeletion" err.message
  let result := if done then none else some err
  if set.1 then
    let updated : Except ApiError CacheResource ← Prog.request (Req.updateCacheStatus set.2)
    match updated with
    | .error e => return (some (.api e), set.2)
    | .ok updated => return (result, updated)
  else return (result, set.2)

/-- The status that says that the reset is finished. -/
def finished (now resetTime : Time) (cache : CacheResource) : CacheResource :=
  let set := withCondition now cache conditionStorageReset .true "Success"
    "Cache image has been untagged"
  { set.2 with status := { set.2.status with
    phase := .ready
    lastReset := some ⟨cache.generation, resetTime⟩ } }

/-- The reset is taken for finished: the Cache is unlocked and the Pod deleted. -/
def reportSuccess (settings : Settings) (cache : CacheResource) :
    Controller (Option GoError × CacheResource) := do
  let now : Time ← Prog.request Req.now
  let resetTime : Time ← Prog.request Req.now
  let unlocked := finished now resetTime cache
  let updated : Except ApiError CacheResource ← Prog.request (Req.updateCacheStatus unlocked)
  match updated with
  | .error e => return (some (.api e), unlocked)
  | .ok updated => deletePods settings updated (imageUntagPodName cache)

/-- `CacheReconciler.freeStorage` -/
def freeStorage (settings : Settings) (cache : CacheResource) :
    Controller (Option GoError × CacheResource) := do
  let podName := imageUntagPodName cache
  if cache.status.lastReset.any fun reset =>
      reset.cacheGeneration == cache.status.cacheGeneration then
    deletePods settings cache podName
  else
    let result ← reconcilePod ⟨settings.managerNamespace, podName⟩ cache (lockCache settings cache)
    match result.1.err with
    | some err => reportFailure result.2 result.1.done err
    | none => reportSuccess settings result.2

/-- `CacheReconciler.finalize` -/
def finalize (settings : Settings) (cache : CacheResource) : Controller (Option GoError) := do
  let result ← freeStorage settings cache
  match result with
  | (some err, _) => return some err
  | (none, cache) =>
    if hasString cache.finalizers cacheFinalizer then
      let released := { cache with finalizers := removeString cache.finalizers cacheFinalizer }
      let updated : Except ApiError CacheResource ← Prog.request (Req.updateCacheStatus released)
      match updated with
      | .error e => return some (.api e)
      | .ok _ => return none
    else return none

/-- `CacheReconciler.Reconcile` -/
def reconcile (settings : Settings) (key : ObjectKey) : Controller (Option GoError) := do
  let read : Except ApiError CacheResource ← Prog.request (Req.getCache key)
  match read with
  | .error e => if e = .notFound then return none else return some (.api e)
  | .ok cache =>
    if cache.deleting then finalize settings cache
    else
      let added := addString cache.finalizers cacheFinalizer
      if added.1 then
        let updated : Except ApiError CacheResource ←
          Prog.request (Req.updateCache { cache with finalizers := added.2 })
        match updated with
        | .error e => return some (.api e)
        | .ok _ => return none
      else return none

/-- The Caches and Pods of the cluster. -/
structure Cluster where
  /-- Caches. -/
  caches : ObjectKey → Option CacheResource
  /-- Pods. -/
  pods : ObjectKey → Option Pod
  /-- Bound of all resource versions handed out. -/
  revision : ℕ
  /-- Current time. -/
  clock : Time
  /-- Caches for whose reset a Pod has reached `Succeeded`. -/
  succeeded : ObjectKey → Bool

/-- The Cache a Pod has been started for. -/
def owner (pod : Pod) : ObjectKey :=
  ⟨pod.annotations.get annCacheNamespace, pod.annotations.get annCacheName⟩

/-- A write of the status starts a reset: it locks the Cache anew. -/
def startsReset (before after : FullStatus) : Bool :=
  after.phase = .reject &&
    (before.phase ≠ .reject || after.cacheGeneration ≠ before.cacheGeneration)

namespace Cluster

/-- Store a Cache under a new version; a Cache that is being deleted goes with its
last finalizer. -/
def putCache (s : Cluster) (c : CacheResource) : Cluster :=
  { s with
    caches := Function.update s.caches c.key
      (if c.deleting && c.finalizers.isEmpty then none
        else some { c with resourceVersion := s.revision + 1 })
    revision := s.revision + 1 }

/-- Store a Pod. -/
def putPod (s : Cluster) (pod : Pod) : Cluster :=
  { s with pods := Function.update s.pods pod.key (some pod) }

/-- Remove a Pod. -/
def dropPod (s : Cluster) (key : ObjectKey) : Cluster :=
  { s with pods := Function.update s.pods key none }

/-- The effect of deleting a Pod: a terminated Pod is removed at once, another one
may be given time to terminate. -/
def markPod (s : Cluster) (graceful : Bool) (pod : Pod) : Cluster :=
  if graceful && !pod.phase.terminal then s.putPod { pod with deleting := true }
  else s.dropPod pod.key

/-- Deleting a Pod leaves the Caches as they are. -/
theorem caches_markPod (s : Cluster) (graceful : Bool) (pod : Pod) :
    (s.markPod graceful pod).caches = s.caches := by
  unfold markPod
  split <;> rfl

/-- What `Update` of a Cache stores. -/
def mergeCache (stored written : CacheResource) : CacheResource :=
  { stored with finalizers := written.finalizers }

/-- What `Status().Update` of a Cache stores. -/
def mergeCacheStatus (stored written : CacheResource) : CacheResource :=
  { stored with status := written.status }

/-- Store a status; a reset that is started has not succeeded yet. -/
def putStatus (s : Cluster) (stored written : CacheResource) : Cluster :=
  let t := s.putCache (mergeCacheStatus stored written)
  if startsReset stored.status written.status then
    { t with succeeded := Function.update s.succeeded stored.key false }
  else t

/-- The answer to a request that does not fail. -/
def answer (s : Cluster) (graceful : Bool) : (r : Req) → Resp r × Cluster
  | .getCache key =>
    match s.caches key with
    | none => (.error .notFound, s)
    | some c => (.ok c, s)
  | .updateCache c =>
    match s.caches c.key with
    | none => (.error .notFound, s)
    | some stored =>
      if c.resourceVersion = stored.resourceVersion then
        (.ok { mergeCache stored c with resourceVersion := s.revision + 1 },
          s.putCache (mergeCache stored c))
      else (.error .conflict, s)
  | .updateCacheStatus c =>
    match s.caches c.key with
    | none => (.error .notFound, s)
    | some stored =>
      if c.resourceVersion = stored.resourceVersion then
        (.ok { mergeCacheStatus stored c with resourceVersion := s.revision + 1 },
          s.putStatus stored c)
      else (.error .conflict, s)
  | .getPod key =>
    match s.pods key with
    | none => (.error .notFound, s)
    | some pod => (.ok pod, s)
  | .createPod pod =>
    match s.pods pod.key with
    | some _ => (.error .alreadyExists, s)
    | none => (.ok (), s.putPod { pod with deleting := false, phase := .pending })
  | .deletePod key =>
    match s.pods key with
    | none => (.error .notFound, s)
    | some pod => (.ok (), s.markPod graceful pod)
  | .now => (s.clock, s)

end Cluster

/-- The response to a failing request; the clock does not fail. -/
def failed (e : ApiError) : (r : Req) → Option (Resp r)
  | .getCache _ => some (.error e)
  | .updateCache _ => some (.error e)
  | .updateCacheStatus _ => some (.error e)
  | .getPod _ => some (.error e)
  | .createPod _ => some (.error e)
  | .deletePod _ => some (.error e)
  | .now => none

/-- Serve a request under the choices of the API. -/
def Cluster.serve (s : Cluster) (fault : Fault) (r : Req) : Resp r × Cluster :=
  match fault.failure.bind fun f => failed f.error r with
  | none => s.answer fault.graceful r
  | some response => (response, if fault.lost then (s.answer fault.graceful r).2 else s)

/-- What others do. -/
inductive Env where
  /-- A user deletes a Cache. -/
  | deleteCache (key : ObjectKey)
  /-- A user or a node changes a Cache, apart from what this controller writes. -/
  | editCache (key : ObjectKey) (generation : Int64) (status : CacheStatus)
  /-- A Pod gets into another phase. -/
  | podPhase (key : ObjectKey) (phase : KubeObjects.PodPhase)
  /-- A Pod that is being deleted has terminated. -/
  | removePod (key : ObjectKey)
  /-- Time passes. -/
  | tick (duration : ℕ)

/-- A Cache after an edit that keeps its phase, conditions and last reset. -/
def edited (c : CacheResource) (generation : Int64) (status : CacheStatus) : CacheResource :=
  { c with
    generation := generation
    status := { c.status with toCacheStatus := { status with phase := c.status.phase } } }

/-- Effect of the others. A Pod that has terminated does not run again. -/
def act (s : Cluster) : Env → Option Cluster
  | .deleteCache key => (s.caches key).map fun c =>
      if c.deleting then s else s.putCache { c with deleting := true }
  | .editCache key generation status => (s.caches key).map fun c =>
      s.putCache (edited c generation status)
  | .podPhase key phase =>
    match s.pods key with
    | none => none
    | some pod =>
      if pod.phase.terminal then none
      else
        let t := s.putPod { pod with phase := phase }
        if phase = .succeeded then
          some { t with succeeded := Function.update s.succeeded (owner pod) true }
        else some t
  | .removePod key =>
    match s.pods key with
    | none => none
    | some pod => if pod.deleting then some (s.dropPod key) else none
  | .tick duration => some { s with clock := s.clock + duration }

/-- The cluster and what the running reconciles know of their Pods. -/
structure Shared extends Cluster where
  /-- Reconciles whose last request about a Pod has created it or found it unfinished. -/
  waiting : ObjectKey → Bool

/-- Whether a reconcile waits for its Pod after an answered request. -/
def waits (waiting : Bool) : (r : Req) → Resp r → Bool
  | .createPod _, .ok _ => true
  | .getPod _, .ok pod => !pod.phase.terminal
  | .getPod _, .error _ => false
  | .deletePod _, _ => false
  | _, _ => waiting

/-- Serve a request of the reconcile of a Cache. -/
def Shared.serve (w : ObjectKey) (fault : Fault) (r : Req) (s : Shared) : Resp r × Shared :=
  let answer := s.toCluster.serve fault r
  (answer.1, ⟨answer.2, Function.update s.waiting w (waits (s.waiting w) r answer.1)⟩)

/-- The controller runs one reconcile at a time for each Cache. -/
def controller (settings : Settings) :
    System ObjectKey Unit Req Resp Shared Fault Env (Option GoError) where
  serve := Shared.serve
  env e s := (act s.toCluster e).map fun t => ⟨t, s.waiting⟩
  onStart w _ s := some { s with waiting := Function.update s.waiting w false }
  program w _ := reconcile settings w
  onFinish _ _ s := some s
  onCrash s := some s

end K8StorageX.CacheController
