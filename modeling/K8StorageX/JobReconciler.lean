import K8StorageX.KubeApi

/-!
# Job Pods

`utils.JobReconciler` runs a Pod to completion on behalf of an owner: it creates
the Pod, waits for it to succeed, calls back and deletes it. An owner that does
not need the job has its Pod deleted.
-/

namespace K8StorageX.JobReconciler

open ApiProgram GoErrors KubeObjects ProvisionerPods KubeApi

/-- `utils.DeleteResource` for a Pod: done when the Pod did not exist any more. -/
def deleteResource (key : ObjectKey) : Controller (Bool × Option GoError) := do
  let deleted : Except ApiError Unit ← Prog.request (Req.deletePod key)
  match deleted with
  | .ok _ => return (false, none)
  | .error e => if e = .notFound then return (true, none) else return (false, some (.api e))

/-- `utils.DeletePod` -/
def deletePod (key : ObjectKey) : Controller (Bool × Option GoError) := do
  let read : Except ApiError Pod ← Prog.request (Req.getPod key)
  match read with
  | .ok _ => deleteResource key
  | .error e => if e = .notFound then return (true, none) else return (false, some (.api e))

/-- Results of `utils.ReconcilePod`. -/
structure PodResult where
  /-- The Pod has terminated. -/
  done : Bool
  /-- The Pod, if there is one. -/
  pod : Option Pod
  /-- The error. -/
  err : Option GoError

/-- The result for a Pod that exists. -/
def podResult (pod : Pod) : PodResult :=
  match pod.phase with
  | .succeeded => ⟨true, some pod, none⟩
  | .failed => ⟨true, some pod, some (.text ("pod " ++ pod.key.name ++ " failed"))⟩
  | _ => ⟨false, some pod, none⟩

/-- `utils.ReconcilePod` -/
def reconcilePod (key : ObjectKey) (create : Except GoError Pod) : Controller PodResult := do
  let read : Except ApiError Pod ← Prog.request (Req.getPod key)
  match read, create with
  | .ok pod, _ => return podResult pod
  | .error .notFound, .error e => return ⟨false, none, some e⟩
  | .error .notFound, .ok pod =>
    let created : Except ApiError Unit ← Prog.request (Req.createPod { pod with key := key })
    match created with
    | .ok _ => return ⟨false, some pod, none⟩
    | .error e => if e = .alreadyExists then reload pod else
        return ⟨false, some pod, some (.wrapped "reconcile pod" (.api e))⟩
  | .error e, _ => return ⟨false, none, some (.wrapped "reconcile pod" (.api e))⟩
where
  /-- Read the Pod that somebody else has created. -/
  reload (pod : Pod) : Controller PodResult := do
    let read : Except ApiError Pod ← Prog.request (Req.getPod key)
    match read with
    | .ok pod => return podResult pod
    | .error e => return ⟨false, some pod, some (.wrapped "reconcile pod" (.api e))⟩

/-- `utils.JobRequest` with the annotations that name the owner. -/
structure JobRequest where
  /-- `Name` -/
  name : String
  /-- `PodName` -/
  podName : ObjectKey
  /-- Annotations that name the owner. -/
  ownerAnnotations : List (String × String)
  /-- `ShouldRun` -/
  shouldRun : Bool
  /-- What `Create` returns. -/
  create : Except GoError Pod
  /-- `OnCompleted` -/
  onCompleted : Pod → Controller (Bool × Option GoError)

/-- The Pod of a job: it names its owner and is not restarted. -/
def jobPod (owner : List (String × String)) (pod : Pod) : Pod :=
  { pod with
    annotations := owner.foldl (fun a o => a.set o.1 o.2) pod.annotations
    spec := { pod.spec with restartPolicy := .never } }

/-- `JobReconciler.ReconcileJob` -/
def reconcileJob (req : JobRequest) : Controller (Bool × Option GoError) :=
  if req.shouldRun = false then deletePod req.podName
  else do
    let result ← reconcilePod req.podName (req.create.map (jobPod req.ownerAnnotations))
    match result with
    | ⟨true, some pod, none⟩ => do
      let completed ← req.onCompleted pod
      if completed.2.isSome ∨ completed.1 = false then return completed
      else deleteResource req.podName
    | ⟨done, _, err⟩ => return (done, err.map (.wrapped req.name))

section Requests

variable {kind : Req → Prop}

/-- Requests for Pods are of a kind. -/
structure ForPods (kind : Req → Prop) : Prop where
  /-- Pods are read. -/
  get : ∀ key, kind (.getPod key)
  /-- Pods are created. -/
  create : ∀ pod, kind (.createPod pod)
  /-- Pods are deleted. -/
  delete : ∀ key, kind (.deletePod key)

theorem issues_deleteResource {key : ObjectKey} (hdelete : kind (.deletePod key)) :
    (deleteResource key).Issues kind := by
  refine .request_bind hdelete ?_
  intro response
  split
  · trivial
  · split
    · trivial
    · trivial

theorem issues_deletePod {key : ObjectKey} (hget : kind (.getPod key))
    (hdelete : kind (.deletePod key)) : (deletePod key).Issues kind := by
  refine .request_bind hget ?_
  intro response
  split
  · exact issues_deleteResource hdelete
  · split
    · trivial
    · trivial

theorem issues_reconcilePod (hkind : ForPods kind) (key : ObjectKey) (create : Except GoError Pod) :
    (reconcilePod key create).Issues kind := by
  refine .request_bind (hkind.get key) ?_
  intro response
  split
  · trivial
  · trivial
  · refine .request_bind (hkind.create _) ?_
    intro created
    split
    · trivial
    · split
      · refine .request_bind (hkind.get key) ?_
        intro reloaded
        split
        · trivial
        · trivial
      · trivial
  · trivial

theorem issues_reconcileJob (hkind : ForPods kind) (req : JobRequest)
    (hcompleted : ∀ pod, (req.onCompleted pod).Issues kind) :
    (reconcileJob req).Issues kind := by
  rw [reconcileJob]
  split
  · exact issues_deletePod (hkind.get _) (hkind.delete _)
  · refine (issues_reconcilePod hkind req.podName _).bind ?_
    intro result
    split
    · refine (hcompleted _).bind ?_
      intro completed
      split
      · trivial
      · exact issues_deleteResource (hkind.delete _)
    · trivial

end Requests

end K8StorageX.JobReconciler
