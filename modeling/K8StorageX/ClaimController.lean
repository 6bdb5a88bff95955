import K8StorageX.VolumeController

/-!
# The controller of persistent volume claims

A claim of a registered provisioner gets a finalizer, then a provisioner Pod and,
when the Pod has succeeded, a persistent volume. A claim that is being deleted
loses its protection if the annotation allows it; once only the controller's
finalizer is left its Pod and its volume are deleted and it is released.
-/

namespace K8StorageX.ClaimController

open ApiProgram GoErrors KubeObjects ProvisionerPods KubeApi JobReconciler VolumeController

/-- How a reconcile ends. -/
inductive Outcome where
  /-- It returns, possibly with an error. -/
  | returned (err : Option GoError)
  /-- It dereferences a nil pointer. -/
  | panicked

/-- `return ctrl.Result{}, r.Client.Status().Update(ctx, claim)` -/
def updateStatus (claim : PersistentVolumeClaim) : Controller Outcome := do
  let updated : Except ApiError Unit ← Prog.request (Req.updateClaimStatus claim)
  match updated with
  | .ok _ => return .returned none
  | .error e => return .returned (some (.api e))

/-- `deprovision`: delete the volume of the claim unless it is to be kept. -/
def deprovision (claim : PersistentVolumeClaim) : Controller (Bool × Option GoError) := do
  let read : Except ApiError PersistentVolume ←
    Prog.request (Req.getVolume (pvNameForPVC claim.uid))
  match read with
  | .error e => if e = .notFound then return (true, none) else return (false, some (.api e))
  | .ok pv =>
    if pv.spec.reclaimPolicy ≠ .delete then return (true, none)
    else
      let deleted : Except ApiError Unit ← Prog.request (Req.deleteVolume pv.name)
      match deleted with
      | .ok _ => return (true, none)
      | .error e => if e = .notFound then return (true, none) else return (false, some (.api e))

/-- The branch of `Reconcile` for a claim that is being deleted and has only the
controller's finalizer left. -/
def release (cfg : Config) (claim : PersistentVolumeClaim) : Controller Outcome := do
  let deleted ← deletePod (provisionerPodName cfg claim.uid)
  if deleted.2.isSome ∨ deleted.1 = false then return .returned deleted.2
  else
    let deprovisioned ← deprovision claim
    if deprovisioned.2.isSome ∨ deprovisioned.1 = false then return .returned deprovisioned.2
    else updateStatus { claim with finalizers := removeString claim.finalizers finalizer }

/-- The branch of `Reconcile` for a claim that is being deleted. -/
def reconcileDeleted (cfg : Config) (claim : PersistentVolumeClaim) : Controller Outcome :=
  if hasString claim.finalizers finalizerPVCProtection then
    if claim.annotations.get annNoProtection = enabled then
      updateStatus { claim with finalizers := removeString claim.finalizers finalizerPVCProtection }
    else return .returned none
  else if hasString claim.finalizers finalizer then
    if claim.finalizers.length ≠ 1 then return .returned none else release cfg claim
  else return .returned none

/-- `persistentVolumeClaimClass` -/
def persistentVolumeClaimClass (claim : PersistentVolumeClaim) : String :=
  match claim.annotations.entry betaStorageClassAnnotation with
  | some storageClass => storageClass
  | none => claim.storageClassName.getD ""

/-- Answers of `shouldProvision`. -/
inductive Decision where
  /-- A volume is desired. -/
  | yes
  /-- No volume is desired, or the check has failed. -/
  | no (err : Option GoError)
  /-- The provisioner has no volume mode. -/
  | panicked

/-- `shouldProvision` -/
def shouldProvision (claim : PersistentVolumeClaim) (p : StorageProvisioner) :
    Controller Decision :=
  if claim.volumeName ≠ "" ∨ claim.storageClassName = none then return .no none
  else do
    let read : Except ApiError StorageClass ←
      Prog.request (Req.getStorageClass (persistentVolumeClaimClass claim))
    match read with
    | .error e => if e = .notFound then return .no none else return .no (some (.api e))
    | .ok storageClass =>
      match p.spec.persistentVolumeTemplate.volumeMode with
      | none => return .panicked
      | some mode =>
        if claim.volumeMode ≠ some mode then return .no none
        else if storageClass.waitForFirstConsumer ∧ claim.annotations.get annSelectedNode = "" then
          return .no none
        else return .yes

/-- `OnCompleted` of the provisioner: create the volume. -/
def onProvisioned (cfg : Config) (claim : PersistentVolumeClaim) (pod : Pod) :
    Controller (Bool × Option GoError) :=
  match storageProvisionerFromJSON cfg (pod.annotations.get annStorageProvisionerSpec) with
  | .error e => return (true, some (.wrapped
      ("invalid/missing provisioner pod annotation " ++ annStorageProvisionerSpec) e))
  | .ok p => do
    let created : Except ApiError Unit ← Prog.request (Req.createVolume
      (persistentVolumeForClaim claim p (pod.annotations.get annStorageProvisionerSpec)
        pod.annotations))
    match created with
    | .ok _ => return (true, none)
    | .error e => return (false, some (.api e))

/-- The request by which `provision` runs the provisioner Pod. -/
def provisionerJob (cfg : Config) (claim : PersistentVolumeClaim) (p : StorageProvisioner)
    (pvExists : Bool) : JobRequest where
  name := provisioner
  podName := provisionerPodName cfg claim.uid
  ownerAnnotations := [(annPVCName, claim.key.name), (annPVCNamespace, claim.key.namespaceName)]
  shouldRun := !pvExists && claim.annotations.get annSelectedNode != "" &&
    (annotationsToEnv claim.annotations p.spec.env).2.isNone
  create := provisionerPod cfg claim (claim.annotations.get annSelectedNode)
    (annotationsToEnv claim.annotations p.spec.env).1 p
  onCompleted := onProvisioned cfg claim

/-- `provision`: a missing annotation is reported with the error of the lookup of the
volume, which is nil when the volume exists. -/
def provision (cfg : Config) (claim : PersistentVolumeClaim) (p : StorageProvisioner) :
    Controller Outcome := do
  let read : Except ApiError PersistentVolume ←
    Prog.request (Req.getVolume (pvNameForPVC claim.uid))
  match read with
  | .ok _ =>
    if (annotationsToEnv claim.annotations p.spec.env).2.isSome then return .panicked
    else
      let result ← reconcileJob (provisionerJob cfg claim p true)
      return .returned result.2
  | .error e =>
    if e = .notFound then do
      let result ← reconcileJob (provisionerJob cfg claim p false)
      return .returned result.2
    else return .returned (some (.api e))

/-- The branch of `Reconcile` for a claim that is not being deleted. -/
def reconcileActive (cfg : Config) (claim : PersistentVolumeClaim) : Controller Outcome := do
  let known ← resolveProvisioner claim.annotations
  match known with
  | none => return .returned none
  | some p =>
    let should ← shouldProvision claim p
    match should with
    | .no err => return .returned err
    | .panicked => return .panicked
    | .yes =>
      if (addString claim.finalizers finalizer).1 then
        updateStatus { claim with finalizers := (addString claim.finalizers finalizer).2 }
      else provision cfg claim p

/-- `PersistentVolumeClaimReconciler.Reconcile` -/
def reconcile (cfg : Config) (key : ObjectKey) : Controller Outcome := do
  let read : Except ApiError PersistentVolumeClaim ← Prog.request (Req.getClaim key)
  match read with
  | .error e => if e = .notFound then return .returned none else return .returned (some (.api e))
  | .ok claim => if claim.deleting then reconcileDeleted cfg claim else reconcileActive cfg claim

section Requests

variable {kind : Req → Prop} {claim : PersistentVolumeClaim}

/-- Writing a status writes the given claim. -/
theorem issues_updateStatus (hupdate : kind (.updateClaimStatus claim)) :
    (updateStatus claim).Issues kind := by
  refine .request_bind hupdate ?_
  intro updated
  split
  · trivial
  · trivial

/-- Deprovisioning reads and deletes the volume of the claim. -/
theorem issues_deprovision (hget : ∀ name, kind (.getVolume name))
    (hdelete : ∀ name, kind (.deleteVolume name)) : (deprovision claim).Issues kind := by
  refine .request_bind (hget _) ?_
  intro read
  split
  · split
    · trivial
    · trivial
  · split
    · trivial
    · refine .request_bind (hdelete _) ?_
      intro deleted
      split
      · trivial
      · split
        · trivial
        · trivial

/-- Deciding whether a claim is provisioned reads the storage class. -/
theorem issues_shouldProvision (hclass : ∀ name, kind (.getStorageClass name))
    (p : StorageProvisioner) : (shouldProvision claim p).Issues kind := by
  rw [shouldProvision]
  split
  · trivial
  · refine .request_bind (hclass _) ?_
    intro read
    split
    · split
      · trivial
      · trivial
    · split
      · trivial
      · split
        · trivial
        · split
          · trivial
          · trivial

/-- What is left to do after the Pod has succeeded creates the volume. -/
theorem issues_onProvisioned (hcreate : ∀ pv, kind (.createVolume pv)) (cfg : Config) (pod : Pod) :
    (onProvisioned cfg claim pod).Issues kind := by
  rw [onProvisioned]
  split
  · trivial
  · refine .request_bind (hcreate _) ?_
    intro created
    split
    · trivial
    · trivial

end Requests

end K8StorageX.ClaimController
