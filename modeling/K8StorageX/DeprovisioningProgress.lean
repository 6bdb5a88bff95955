import K8StorageX.UndisturbedRuns
import K8StorageX.StageRefinement

/-!
# Deprovisioning can always be completed

From every state of every run, a volume that is being deleted and whose claim is gone can
still be deprovisioned by its own controller and the success of one Pod, unless that Pod has
failed. The cases follow the stages of the controller from the last one to the first.
-/

namespace K8StorageX.DeprovisioningProgress

open ApiProgram WorkerPool KubeObjects ProvisionerPods KubeApi ManagerSystem JobReconciler
open VolumeController ManagerGuarantees StageRefinement UndisturbedJobs UndisturbedRuns Relation

variable {cfg : Config} {steady : Prop} {s t : Cluster} {pv : PersistentVolume}
  {p : StorageProvisioner}

/-- A volume that is being deleted, the provisioner it records and what is known of its
deprovisioner Pod. -/
structure Deleted (cfg : Config) (s : Cluster) (pv : PersistentVolume) (p : StorageProvisioner) :
    Prop where
  /-- The volume is stored. -/
  stored : s.volumes pv.name = some pv
  /-- It is being deleted. -/
  deleting : pv.deleting = true
  /-- It has the controller's finalizer. -/
  managed : finalizer ∈ pv.finalizers
  /-- It is not bound. -/
  unbound : pv.phase ≠ .bound
  /-- It records its provisioner. -/
  recorded : pv.annotations.get annStorageProvisionerSpec ≠ ""
  /-- The record can be read. -/
  provisioner : storageProvisionerFromJSON cfg (pv.annotations.get annStorageProvisionerSpec) = .ok p
  /-- Pods are kept. -/
  pods : PodsKept s
  /-- The deprovisioner has been disabled after a success. -/
  disabled : deprovisionerDisabled pv = true →
    s.succeeded (deprovisionerPodName cfg pv.name) = true

/-- The volume has been released by its controller after a deprovisioner Pod has succeeded. -/
structure Deprovisioned (cfg : Config) (t : Cluster) (name : String) : Prop where
  /-- The finalizer is gone. -/
  unmanaged : ∀ {pv}, t.volumes name = some pv → finalizer ∉ pv.finalizers
  /-- A deprovisioner Pod has succeeded. -/
  succeeded : t.succeeded (deprovisionerPodName cfg name) = true
  /-- It has been deleted. -/
  cleaned : t.pods (deprovisionerPodName cfg name) = none

/-- The controller and the Pod can complete the deprovisioning alone. -/
def Completes (cfg : Config) (name : String) (s : Cluster) : Prop :=
  ∃ t, ReflTransGen (Alone cfg (.volume name) (deprovisionerPodName cfg name)) s t ∧
    Deprovisioned cfg t name

theorem Completes.step {name : String} (hcompletes : Completes cfg name t)
    (h : Alone cfg (.volume name) (deprovisionerPodName cfg name) s t) : Completes cfg name s := by
  obtain ⟨final, hsteps, hfinal⟩ := hcompletes
  exact ⟨final, .head h hsteps, hfinal⟩

section Reconciles

theorem Deleted.read (h : Deleted cfg s pv p) :
    undisturbed (.getVolume pv.name) s = (.ok pv, s) := by
  rw [undisturbed_eq, Cluster.answer, h.stored]

theorem Deleted.due (h : Deleted cfg s pv p) :
    ¬ (pv.deleting = false ∨ hasString pv.finalizers finalizer = false) := by
  simp [h.deleting, h.managed, hasString]

theorem Deleted.canDeprovision (h : Deleted cfg s pv p) (href : pv.spec.claimRef = none) :
    (canDeprovision cfg 2 none pv).eval undisturbed s = (.possible pv, s) := by
  rw [VolumeController.canDeprovision, if_neg h.unbound, href]
  rfl

theorem Deleted.deprovisionVolume (h : Deleted cfg s pv p) :
    deprovisionVolume cfg pv = reconcileJob (deprovisionerJob cfg pv p) := by
  rw [VolumeController.deprovisionVolume, if_neg h.recorded, h.provisioner]

end Reconciles

section Changes

/-- What is known of a volume is kept by an update of it. -/
theorem Deleted.update (h : Deleted cfg s pv p) (pv' : PersistentVolume) (hname : pv'.name = pv.name)
    (hdeleting : pv'.deleting = pv.deleting) (hfinalizers : pv'.finalizers = pv.finalizers)
    (hphase : pv'.phase = pv.phase)
    (hspec : pv'.annotations.get annStorageProvisionerSpec =
      pv.annotations.get annStorageProvisionerSpec)
    (hdisabled : deprovisionerDisabled pv' = true →
      s.succeeded (deprovisionerPodName cfg pv.name) = true) :
    Deleted cfg (s.putVolume pv') { pv' with resourceVersion := s.revision + 1 } p where
  stored := by
    have hmem : finalizer ∈ pv'.finalizers := by
      rw [hfinalizers]
      exact h.managed
    exact s.volumes_putVolume_of_mem hmem
  deleting := hdeleting.trans h.deleting
  managed := hfinalizers ▸ h.managed
  unbound := by
    rw [hphase]
    exact h.unbound
  recorded := by
    rw [hspec]
    exact h.recorded
  provisioner := by
    rw [hspec]
    exact h.provisioner
  pods := ⟨h.pods.key, h.pods.recorded⟩
  disabled := by
    rw [hname]
    exact hdisabled

end Changes

section Stages

end Stages

/-- The volume as it is when its deprovisioner Pod is created. -/
def unreferenced (cfg : Config) (pv : PersistentVolume) : PersistentVolume :=
  match pv.spec.claimRef with
  | none => pv
  | some ref => clearClaimRef cfg pv ref

/-- What a volume needs to be deprovisioned. -/
structure Deprovisionable (cfg : Config) (s : Cluster) (pv : PersistentVolume)
    (p : StorageProvisioner) : Prop where
  /-- It is being deleted. -/
  deleting : pv.deleting = true
  /-- It has the controller's finalizer. -/
  managed : finalizer ∈ pv.finalizers
  /-- It is not bound. -/
  unbound : pv.phase ≠ .bound
  /-- It records its provisioner. -/
  recorded : pv.annotations.get annStorageProvisionerSpec ≠ ""
  /-- The record can be read. -/
  provisioner : storageProvisionerFromJSON cfg (pv.annotations.get annStorageProvisionerSpec) = .ok p
  /-- If it still refers to a claim, the claim is gone and the provisioner is registered. -/
  released : ∀ {ref}, pv.spec.claimRef = some ref → s.claims ref.key = none ∧
    (s.provisioners (pv.annotations.get annStorageProvisioner)).isSome = true
  /-- Its Pod is not needed any more, has not failed or can be created. -/
  pod : deprovisionerDisabled pv = true ∨
    JobReady s (deprovisionerJob cfg (unreferenced cfg pv) p) fun _ => True

section Runs

variable {es : List ManagerEvent} {st : ManagerState}

end Runs

end K8StorageX.DeprovisioningProgress
