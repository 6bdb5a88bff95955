import K8StorageX.VolumeController

/-!
# The controller of Pods

The writeable claims of a completed Pod are deleted, and marked as not needing
protection, if their provisioner says so. The predicate that selects completed
Pods is evaluated when a Pod is reported, not when its request is handled.
-/

namespace K8StorageX.PodController

open ApiProgram GoErrors KubeObjects ProvisionerPods KubeApi VolumeController

/-- `writeablePVCs` -/
def writeablePVCs (pod : Pod) : List ObjectKey :=
  pod.spec.volumes.filterMap fun v =>
    match v.claimName with
    | some name => if v.readOnly then none else some ⟨pod.key.namespaceName, name⟩
    | none => none

/-- `finished` in the predicate `podCompleted` -/
def finished (pod : Pod) : Bool :=
  (pod.spec.restartPolicy == .never && (pod.phase == .succeeded || pod.phase == .failed)) ||
    (pod.spec.restartPolicy == .onFailure && pod.phase == .succeeded)

/-- The predicate `podCompleted` -/
def podCompleted (pod : Pod) : Bool := finished pod && !(writeablePVCs pod).isEmpty

/-- `errPVCDelete` -/
def errPVCDelete : GoError := .text "pvc deletion failed"

/-- `hasAccessMode` -/
def hasAccessMode (pvc : PersistentVolumeClaim) (mode : AccessMode) : Bool :=
  pvc.accessModes == [mode]

/-- `shouldDelete` -/
def shouldDelete (pvc : PersistentVolumeClaim) : Controller Bool :=
  if hasAccessMode pvc .readWriteOnce = false ∨ pvc.annotations.isNil then return false
  else do
    let known : Option StorageProvisioner ← Prog.request
      (Req.getProvisioner (pvc.annotations.get annStorageProvisioner))
    match known with
    | none => return false
    | some p => return p.spec.deprovisionOnPodCompletion

/-- Delete a claim unless that has been done; whether it failed. -/
def deleteClaim (pvc : PersistentVolumeClaim) : Controller Bool :=
  if pvc.deleting then return false
  else do
    let deleted : Except ApiError Unit ← Prog.request (Req.deleteClaim pvc.key)
    match deleted with
    | .ok _ => return false
    | .error e => return decide (e ≠ .notFound)

/-- Mark a claim as not needing protection and delete it; whether it failed. -/
def unprotectAndDelete (pvc : PersistentVolumeClaim) : Controller Bool :=
  if pvc.annotations.get annNoProtection = enabled then deleteClaim pvc
  else do
    let updated : Except ApiError PersistentVolumeClaim ← Prog.request
      (Req.updateClaim { pvc with annotations := pvc.annotations.set annNoProtection enabled })
    match updated with
    | .ok pvc => deleteClaim pvc
    | .error e => return decide (e ≠ .notFound)

/-- The body of the loop of `Reconcile`; whether it failed. -/
def reconcileClaim (pvcName : ObjectKey) : Controller Bool := do
  let read : Except ApiError PersistentVolumeClaim ← Prog.request (Req.getClaim pvcName)
  match read with
  | .error e => return decide (e ≠ .notFound)
  | .ok pvc =>
    let should ← shouldDelete pvc
    if should then unprotectAndDelete pvc else return false

/-- The loop of `Reconcile` with the error so far. -/
def reconcileClaims : List ObjectKey → Option GoError → Controller (Option GoError)
  | [], err => return err
  | pvcName :: pvcNames, err => do
    let failed ← reconcileClaim pvcName
    reconcileClaims pvcNames (if failed then some errPVCDelete else err)

/-- `PodReconciler.Reconcile`: the error it returns. -/
def reconcile (key : ObjectKey) : Controller (Option GoError) := do
  let read : Except ApiError Pod ← Prog.request (Req.getPod key)
  match read with
  | .error e => if e = .notFound then return none else return some (.api e)
  | .ok pod => reconcileClaims (writeablePVCs pod) none

section Requests

variable {kind : Req → Prop} {pvc : PersistentVolumeClaim}

/-- Deciding whether a claim is deleted reads the registry. -/
theorem issues_shouldDelete (hprovisioner : ∀ name, kind (.getProvisioner name)) :
    (shouldDelete pvc).Issues kind := by
  rw [shouldDelete]
  split
  · trivial
  · refine .request_bind (hprovisioner _) ?_
    intro known
    split
    · trivial
    · trivial

/-- Deleting a claim is one request. -/
theorem issues_deleteClaim (hdelete : ∀ key, kind (.deleteClaim key)) :
    (deleteClaim pvc).Issues kind := by
  rw [deleteClaim]
  split
  · trivial
  · refine .request_bind (hdelete _) ?_
    intro deleted
    split
    · trivial
    · trivial

/-- The claim is written with other annotations before it is deleted. -/
theorem issues_unprotectAndDelete (hdelete : ∀ key, kind (.deleteClaim key))
    (hupdate : ∀ annotations, kind (.updateClaim { pvc with annotations := annotations })) :
    (unprotectAndDelete pvc).Issues kind := by
  rw [unprotectAndDelete]
  split
  · exact issues_deleteClaim hdelete
  · refine .request_bind (hupdate _) ?_
    intro updated
    split
    · exact issues_deleteClaim hdelete
    · trivial

end Requests

end K8StorageX.PodController
