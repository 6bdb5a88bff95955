import K8StorageX.ClaimController
import K8StorageX.PodController

/-!
# The claims the controllers write

Volumes are reconciled without writing claims. The controller of a claim writes the
claim it has read with other finalizers, and lifts the protection only from a claim
that is annotated. The controller of a Pod writes a claim it has read with other
annotations.
-/

namespace K8StorageX.ClaimWrites

open ApiProgram GoErrors KubeObjects ProvisionerPods KubeApi JobReconciler

/-- The claim a request is to store. -/
def writesClaim : Req → Option PersistentVolumeClaim
  | .updateClaim c => some c
  | .updateClaimStatus c => some c
  | _ => none

/-- A request that reads a Pod. -/
def readsPod : Req → Bool
  | .getPod _ => true
  | _ => false

/-- The claims that are written are of a kind. -/
def Writing (ok : PersistentVolumeClaim → Prop) (r : Req) : Prop :=
  ∀ c, writesClaim r = some c → ok c

variable {ok : PersistentVolumeClaim → Prop}

/-- Most requests write no claim. -/
theorem writing_of_none {r : Req} (h : writesClaim r = none) : Writing ok r := by
  intro c hc
  rw [h] at hc
  cases hc

/-- Jobs write no claim. -/
theorem forPods_writing : ForPods (Writing ok) where
  get _ := writing_of_none rfl
  create _ := writing_of_none rfl
  delete _ := writing_of_none rfl

section Volumes

open VolumeController

/-- Clearing the reference of a volume writes no claim. -/
theorem forClearing_writing : ForClearing (Writing ok) where
  getClaim _ := writing_of_none rfl
  getProvisioner _ := writing_of_none rfl
  update _ := writing_of_none rfl
  get _ := writing_of_none rfl

/-- Deprovisioning a volume writes no claim. -/
theorem issues_deprovisionVolume (cfg : Config) (pv : PersistentVolume) :
    (deprovisionVolume cfg pv).Issues (Writing ok) := by
  rw [deprovisionVolume]
  split
  · trivial
  · split
    · trivial
    · refine issues_reconcileJob forPods_writing _ fun pod => .request_bind (writing_of_none rfl) ?_
      intro updated
      split
      · trivial
      · trivial

/-- No claim is written when a volume is reconciled. -/
theorem issues_reconcileVolume (cfg : Config) (name : String) :
    (VolumeController.reconcile cfg name).Issues (Writing ok) := by
  refine .request_bind (writing_of_none rfl) ?_
  intro read
  split
  · split
    · trivial
    · trivial
  · split
    · trivial
    · refine (issues_canDeprovision forClearing_writing cfg 2 none _).bind ?_
      intro can
      split
      · trivial
      · refine (issues_deprovisionVolume cfg _).bind ?_
        intro result
        split
        · trivial
        · refine .request_bind (writing_of_none rfl) ?_
          intro updated
          split
          · trivial
          · trivial

end Volumes

section Claims

open ClaimController VolumeController

/-- The annotation by which the Pod controller marks a claim. -/
def Annotated (c : PersistentVolumeClaim) : Prop := c.annotations.get annNoProtection = enabled

/-- The claim with other finalizers, protected as before unless it is annotated. -/
def WithFinalizers (c written : PersistentVolumeClaim) : Prop :=
  ∃ finalizers, written = { c with finalizers := finalizers } ∧
    (finalizerPVCProtection ∈ c.finalizers → finalizerPVCProtection ∈ finalizers ∨ Annotated c)

/-- A claim that is written is of the kind. -/
theorem writing_updateClaimStatus {written : PersistentVolumeClaim} (h : ok written) :
    Writing ok (.updateClaimStatus written) := by
  rintro c hc
  cases hc
  exact h

/-- A release writes the claim with other finalizers, and only if it is not protected. -/
theorem issues_release {cfg : Config} {claim : PersistentVolumeClaim}
    (hunprotected : finalizerPVCProtection ∉ claim.finalizers) :
    (release cfg claim).Issues (Writing (WithFinalizers claim)) := by
  refine (issues_deletePod (writing_of_none rfl) (writing_of_none rfl)).bind ?_
  intro deleted
  split
  · trivial
  · have hdeprovision : (deprovision claim).Issues (Writing (WithFinalizers claim)) :=
      issues_deprovision (fun _ => writing_of_none rfl) fun _ => writing_of_none rfl
    refine hdeprovision.bind ?_
    intro deprovisioned
    split
    · trivial
    · exact issues_updateStatus (writing_updateClaimStatus
        ⟨_, rfl, fun hprotected => absurd hprotected hunprotected⟩)

/-- A claim that is being deleted is written with other finalizers only, and loses its protection
only if it is annotated. -/
theorem issues_reconcileDeleted (cfg : Config) (claim : PersistentVolumeClaim) :
    (reconcileDeleted cfg claim).Issues (Writing (WithFinalizers claim)) := by
  rw [reconcileDeleted]
  split
  · split
    · next hannotated =>
      exact issues_updateStatus (writing_updateClaimStatus ⟨_, rfl, fun _ => Or.inr hannotated⟩)
    · trivial
  · next hunprotected =>
    rw [hasString_iff] at hunprotected
    split
    · split
      · trivial
      · exact issues_release hunprotected
    · trivial

/-- Provisioning writes no claim. -/
theorem issues_provision (cfg : Config) (claim : PersistentVolumeClaim) (p : StorageProvisioner) :
    (provision cfg claim p).Issues (Writing ok) := by
  refine .request_bind (writing_of_none rfl) ?_
  intro read
  have hjob : ∀ pvExists,
      (reconcileJob (provisionerJob cfg claim p pvExists)).Issues (Writing ok) :=
    fun pvExists => issues_reconcileJob forPods_writing _
      (issues_onProvisioned (fun _ => writing_of_none rfl) cfg)
  split
  · split
    · trivial
    · exact (hjob true).bind fun _ => trivial
  · split
    · exact (hjob false).bind fun _ => trivial
    · trivial

/-- A claim that is not being deleted is written with one more finalizer only. -/
theorem issues_reconcileActive (cfg : Config) (claim : PersistentVolumeClaim) :
    (reconcileActive cfg claim).Issues (Writing (WithFinalizers claim)) := by
  refine (issues_resolveProvisioner (fun _ => writing_of_none rfl) claim.annotations).bind ?_
  intro known
  split
  · trivial
  · refine (issues_shouldProvision (fun _ => writing_of_none rfl) _).bind ?_
    intro should
    split
    · trivial
    · trivial
    · split
      · have hkept : WithFinalizers claim
            { claim with finalizers := (addString claim.finalizers finalizer).2 } :=
          ⟨_, rfl, fun hprotected => Or.inl (subset_addString _ finalizer hprotected)⟩
        exact issues_updateStatus (writing_updateClaimStatus hkept)
      · exact issues_provision cfg claim _

end Claims

section Pods

open PodController VolumeController

/-- The claim with other annotations. -/
def WithAnnotations (c written : PersistentVolumeClaim) : Prop :=
  ∃ annotations, written = { c with annotations := annotations }

/-- Requests of the Pod controller after it has read a claim. -/
def OnClaim (c : PersistentVolumeClaim) (r : Req) : Prop :=
  Writing (WithAnnotations c) r ∧ readsPod r = false

/-- The Pod controller writes a claim it has read with other annotations. -/
theorem issues_handleClaim (pvc : PersistentVolumeClaim) :
    (shouldDelete pvc >>= fun should =>
      if should then unprotectAndDelete pvc else pure false).Issues (OnClaim pvc) := by
  refine (issues_shouldDelete fun _ => ⟨writing_of_none rfl, rfl⟩).bind ?_
  intro should
  split
  · refine issues_unprotectAndDelete (fun _ => ⟨writing_of_none rfl, rfl⟩) fun annotations => ?_
    refine ⟨?_, rfl⟩
    rintro c hc
    cases hc
    exact ⟨annotations, rfl⟩
  · trivial

end Pods

end K8StorageX.ClaimWrites
