import K8StorageX.ControllerRules
import K8StorageX.PodController

/-!
# The Pod controller keeps to the permitted steps

It only annotates and deletes claims, which does not interfere with the life
cycle of volumes.
-/

namespace K8StorageX.PodRefinement

open ApiProgram WorkerPool GoErrors KubeObjects ProvisionerPods KubeApi ManagerSystem Lifecycle
open VolumeController PodController ControllerRules

variable {cfg : Config} {steady : Prop} {w : Worker} {seen : Record Req Resp} {s : Cluster}
variable {pvc : PersistentVolumeClaim}

/-- Setting the annotation keeps what a provisioner depends on. -/
theorem keepsAnnotations_set (registry : String → Option StorageProvisioner) (a : Annotations) :
    KeepsAnnotations registry a (a.set annNoProtection enabled) := by
  constructor
  · intro k hk
    by_cases heq : k = annNoProtection
    · subst heq
      rw [Annotations.get_set_self]
      decide
    · rw [Annotations.get_set_of_ne _ _ heq]
      exact hk
  · have hne : annStorageProvisioner ≠ annNoProtection := by decide
    exact Or.inl (Annotations.get_set_of_ne _ _ hne)

/-- Annotating a claim is permitted to everybody. -/
theorem annotate_update (pvc : PersistentVolumeClaim) {w : Option Worker} {t u : Cluster}
    (hversion : u.revision = t.revision + 1) :
    ClaimUpdate cfg steady w t u pvc.key pvc
      { pvc with annotations := pvc.annotations.set annNoProtection enabled,
                 resourceVersion := t.revision + 1 } where
  name := rfl
  uid := rfl
  deleting := id
  version := freshVersion_succ hversion
  held := Or.inl
  clean hclean := by
    have hne : annPVDisableDeprovisioner ≠ annNoProtection := by decide
    rw [DisablesDeprovisioner, Annotations.get_set_of_ne _ _ hne]
    exact hclean
  runnable _ hrun := hrun.kept (keepsAnnotations_set t.provisioners pvc.annotations)

theorem follows_deleteClaim :
    Follows cfg steady w (fun _ _ _ => True) (PodController.deleteClaim pvc) seen s := by
  rw [PodController.deleteClaim]
  split
  · exact .ret_true _
  refine .deleteClaim fun u response => ?_
  cases response <;> exact .ret_true _

theorem follows_unprotectAndDelete (hs : CurrentClaim pvc s) :
    Follows cfg steady w (fun _ _ _ => True) (unprotectAndDelete pvc) seen s := by
  rw [unprotectAndDelete]
  split
  · exact follows_deleteClaim
  refine .putClaim { pvc with annotations := pvc.annotations.set annNoProtection enabled }
    (fun stored => Cluster.mergeClaim stored
      { pvc with annotations := pvc.annotations.set annNoProtection enabled })
    (fun _ => rfl) (Cluster.answer_updateClaim _) (currentClaim_stable pvc) hs ?_ ?_
  · intro t stored _ ht hstored hversion
    have heq : stored = pvc := ht.2 stored hstored hversion.symm
    subst heq
    exact annotate_update stored rfl
  · intro u response
    cases response with
    | ok updated => exact follows_deleteClaim
    | error e => exact .ret_true _

theorem follows_reconcileClaim (pvcName : ObjectKey) (s : Cluster) :
    Follows cfg steady w (fun _ _ _ => True) (reconcileClaim pvcName) seen s := by
  simp only [reconcileClaim, Prog.request_bind]
  refine .getClaim (stable_const True) trivial ?_ ?_ ?_
  · intro t c hi _ hc
    have hcurrent := currentClaim_read hi hc
    refine .bind ?_
    have hdecided : ∀ (should : Bool) (seen : Record Req Resp) (u : Cluster), CurrentClaim c u →
        Follows cfg steady w (fun _ _ _ => True)
          (if should = true then unprotectAndDelete c else Prog.ret false) seen u := by
      intro should seen u hu
      split
      · exact follows_unprotectAndDelete hu
      · exact .ret_true _
    rw [shouldDelete]
    split
    · exact .ret fun u hr _ => hdecided _ _ u ((currentClaim_stable c).rely hr hcurrent)
    · refine .getProvisioner (currentClaim_stable c) hcurrent ?_
      intro u _ hu
      cases u.provisioners (c.annotations.get annStorageProvisioner) with
      | none => exact .ret fun v hr _ => hdecided _ _ v ((currentClaim_stable c).rely hr hu)
      | some p => exact .ret fun v hr _ => hdecided _ _ v ((currentClaim_stable c).rely hr hu)
  · intro t _ _ _
    exact .ret_true _
  · intro t e _ _ _
    exact .ret_true _

theorem follows_reconcileClaims (pvcNames : List ObjectKey) (err : Option GoError) (s : Cluster) :
    Follows cfg steady w (fun _ _ _ => True) (reconcileClaims pvcNames err) seen s := by
  induction pvcNames generalizing err seen s with
  | nil => exact .ret_true _
  | cons pvcName pvcNames ih =>
    refine .bind ((follows_reconcileClaim pvcName s).mono ?_)
    intro seen' failed t _ _
    exact ih _ t

/-- The reconcile of a Pod takes permitted steps. -/
theorem follows_reconcile (key : ObjectKey) (s : Cluster) :
    Follows cfg steady w (fun _ _ _ => True) (PodController.reconcile key) seen s := by
  simp only [PodController.reconcile, Prog.request_bind]
  refine .getPod (stable_const True) trivial ?_ ?_ ?_
  · intro t pod _ _ _
    exact follows_reconcileClaims _ _ t
  · intro t _ _ _
    exact .ret_true _
  · intro t e _ _ he
    simp only [if_neg he]
    exact .ret_true _

end K8StorageX.PodRefinement
