import K8StorageX.JobReconciler

/-!
# The controller of persistent volumes

A volume that is being deleted is deprovisioned once its claim is gone: the
reference to the claim is cleared in one reconcile, later ones run the
deprovisioner Pod, remember its success in an annotation, delete the Pod and
remove the finalizer.
-/

namespace K8StorageX.VolumeController

open ApiProgram GoErrors KubeObjects ProvisionerPods KubeApi JobReconciler

/-- `resolveProvisioner` -/
def resolveProvisioner (annotations : Annotations) : Controller (Option StorageProvisioner) :=
  if annotations.isNil then pure none
  else Prog.request (Req.getProvisioner (annotations.get annStorageProvisioner))

theorem resolveProvisioner_of_isNil {annotations : Annotations} (h : annotations.isNil = true) :
    resolveProvisioner annotations = pure none := if_pos h

theorem resolveProvisioner_of_annotated {annotations : Annotations}
    (h : ¬ annotations.isNil = true) : resolveProvisioner annotations =
      Prog.request (Req.getProvisioner (annotations.get annStorageProvisioner)) := if_neg h

/-- `remove claimRef from persistentvolume` around an error. -/
def claimRefError (e : ApiError) : Option GoError :=
  some (.wrapped "remove claimRef from persistentvolume" (.api e))

/-- The update by which `canDeprovision` clears the reference to the claim. -/
def clearClaimRef (cfg : Config) (pv : PersistentVolume) (claimRef : ObjectReference) :
    PersistentVolume :=
  { pv with
    annotations := pv.annotations.set annPVClaimRef (cfg.referenceToJSON claimRef)
    spec := { pv.spec with claimRef := none } }

/-- Outcomes of `canDeprovision`. -/
inductive Deprovisioning where
  /-- The volume can be deprovisioned; it may have been reloaded. -/
  | possible (pv : PersistentVolume)
  /-- The volume cannot be deprovisioned now. -/
  | blocked (err : Option GoError)

/-- `canDeprovision` with the rounds its loop has left and the error of the last one. -/
def canDeprovision (cfg : Config) : ℕ → Option GoError → PersistentVolume → Controller Deprovisioning
  | 0, err, _ => return .blocked err
  | rounds + 1, _, pv => do
    if pv.phase = .bound then return .blocked none
    else
      match pv.spec.claimRef with
      | none => return .possible pv
      | some claimRef =>
        let claim : Except ApiError PersistentVolumeClaim ←
          Prog.request (Req.getClaim claimRef.key)
        match claim with
        | .ok _ => return .blocked none
        | .error e =>
          if e = .notFound then do
            let known ← resolveProvisioner pv.annotations
            match known with
            | none => return .blocked none
            | some _ =>
              let updated : Except ApiError Unit ←
                Prog.request (Req.updateVolume (clearClaimRef cfg pv claimRef))
              match updated with
              | .ok _ => return .blocked none
              | .error e =>
                if e = .conflict then do
                  let reloaded : Except ApiError PersistentVolume ←
                    Prog.request (Req.getVolume pv.name)
                  match reloaded with
                  | .error e => return .blocked (claimRefError e)
                  | .ok pv => canDeprovision cfg rounds (claimRefError .conflict) pv
                else return .blocked (claimRefError e)
          else return .blocked (claimRefError e)

/-- Whether the deprovisioner has been disabled because it has succeeded. -/
def deprovisionerDisabled (pv : PersistentVolume) : Bool :=
  pv.annotations.get annPVDisableDeprovisioner == "true"

/-- The update by which the success of the deprovisioner is remembered. -/
def disableDeprovisioner (pv : PersistentVolume) : PersistentVolume :=
  { pv with annotations := pv.annotations.set annPVDisableDeprovisioner "true" }

/-- `OnCompleted` of the deprovisioner. -/
def onDeprovisioned (pv : PersistentVolume) : Controller (Bool × Option GoError) := do
  let updated : Except ApiError Unit ← Prog.request (Req.updateVolume (disableDeprovisioner pv))
  match updated with
  | .ok _ => return (false, none)
  | .error e => return (false, some (.api e))

/-- The request by which `deprovisionVolume` runs the deprovisioner Pod. -/
def deprovisionerJob (cfg : Config) (pv : PersistentVolume) (p : StorageProvisioner) :
    JobRequest where
  name := deprovisioner
  podName := deprovisionerPodName cfg pv.name
  ownerAnnotations := [(annPVName, pv.name)]
  shouldRun := !deprovisionerDisabled pv
  create := deprovisionerPod cfg pv p
  onCompleted := fun _ => onDeprovisioned pv

/-- `deprovisionVolume`; a missing or invalid provisioner is only reported. -/
def deprovisionVolume (cfg : Config) (pv : PersistentVolume) : Controller (Bool × Option GoError) :=
  if pv.annotations.get annStorageProvisionerSpec = "" then return (false, none)
  else
    match storageProvisionerFromJSON cfg (pv.annotations.get annStorageProvisionerSpec) with
    | .error _ => return (false, none)
    | .ok p => reconcileJob (deprovisionerJob cfg pv p)

/-- `PersistentVolumeReconciler.Reconcile`: the error it returns. -/
def reconcile (cfg : Config) (name : String) : Controller (Option GoError) := do
  let read : Except ApiError PersistentVolume ← Prog.request (Req.getVolume name)
  match read with
  | .error e => if e = .notFound then return none else return some (.api e)
  | .ok pv =>
    if pv.deleting = false ∨ hasString pv.finalizers finalizer = false then return none
    else
      let can ← canDeprovision cfg 2 none pv
      match can with
      | .blocked err => return err
      | .possible pv =>
        let result ← deprovisionVolume cfg pv
        if result.2.isSome ∨ result.1 = false then return result.2
        else
          let updated : Except ApiError Unit ← Prog.request
            (Req.updateVolumeStatus { pv with finalizers := removeString pv.finalizers finalizer })
          match updated with
          | .ok _ => return none
          | .error e => return some (.api e)

section Requests

variable {kind : Req → Prop}

/-- Finding the provisioner reads the registry. -/
theorem issues_resolveProvisioner (hprovisioner : ∀ name, kind (.getProvisioner name))
    (annotations : Annotations) : (resolveProvisioner annotations).Issues kind := by
  rw [resolveProvisioner]
  split
  · trivial
  · exact ⟨hprovisioner _, fun _ => trivial⟩

/-- Requests that clear the reference of a volume to its claim are of a kind. -/
structure ForClearing (kind : Req → Prop) : Prop where
  /-- The claim is read. -/
  getClaim : ∀ key, kind (.getClaim key)
  /-- The provisioner is read. -/
  getProvisioner : ∀ name, kind (.getProvisioner name)
  /-- The volume is updated. -/
  update : ∀ pv, kind (.updateVolume pv)
  /-- The volume is read again. -/
  get : ∀ name, kind (.getVolume name)

/-- Deciding whether a volume is deprovisioned may clear its reference to the claim. -/
theorem issues_canDeprovision (hkind : ForClearing kind) (cfg : Config) (rounds : ℕ)
    (err : Option GoError) (pv : PersistentVolume) :
    (canDeprovision cfg rounds err pv).Issues kind := by
  induction rounds generalizing err pv with
  | zero => trivial
  | succ rounds ih =>
    rw [canDeprovision]
    split
    · trivial
    · split
      · trivial
      · refine .request_bind (hkind.getClaim _) ?_
        intro claim
        split
        · trivial
        · split
          · refine (issues_resolveProvisioner hkind.getProvisioner pv.annotations).bind ?_
            intro known
            split
            · trivial
            · refine .request_bind (hkind.update _) ?_
              intro updated
              split
              · trivial
              · split
                · refine .request_bind (hkind.get _) ?_
                  intro reloaded
                  split
                  · trivial
                  · exact ih _ _
                · trivial
          · trivial

end Requests

end K8StorageX.VolumeController
