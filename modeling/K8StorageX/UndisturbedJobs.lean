import K8StorageX.ClaimReferences
import K8StorageX.JobReconciler

/-!
# Jobs that nobody disturbs

What `JobReconciler.ReconcileJob` does when the API does not fail and nobody else acts: it
creates a missing Pod, hands a Pod that has succeeded to its owner, and deletes a Pod that
is not needed.
-/

namespace K8StorageX.UndisturbedJobs

open ApiProgram GoErrors KubeObjects ProvisionerPods KubeApi JobReconciler ClaimReferences

/-- Requests are answered by an API that does not fail. -/
def undisturbed (r : Req) (s : Cluster) : Resp r × Cluster := s.serve calm r

theorem undisturbed_eq (r : Req) (s : Cluster) : undisturbed r s = s.answer false r := rfl

variable {s : Cluster} {req : JobRequest} {pod : Pod} {key : ObjectKey}

theorem deleteResource_found (hpod : s.pods key = some pod) :
    (deleteResource key).eval undisturbed s = ((false, none), s.dropPod pod) := by
  have hmark : s.markPod false pod = s.dropPod pod := by
    simp only [Cluster.markPod, Bool.false_and, Bool.false_eq_true, if_false]
  simp [deleteResource, undisturbed_eq, Cluster.answer, hpod, hmark]

theorem deletePod_found (hpod : s.pods key = some pod) :
    (deletePod key).eval undisturbed s = ((false, none), s.dropPod pod) := by
  have hdelete := deleteResource_found hpod
  simp [deletePod, undisturbed_eq, Cluster.answer, hpod, hdelete]

/-- A missing Pod is created. -/
theorem reconcileJob_absent (hrun : req.shouldRun = true) (hpod : s.pods req.podName = none)
    (hcreate : req.create = .ok pod) :
    (reconcileJob req).eval undisturbed s = ((false, none), s.putPod
      { jobPod req.ownerAnnotations pod with
        key := req.podName, deleting := false, phase := .pending }) := by
  simp [reconcileJob, reconcilePod, undisturbed_eq, Cluster.answer, hrun, hpod, hcreate, Except.map]

/-- A Pod that has succeeded is handed to the owner. -/
theorem reconcileJob_succeeded (hrun : req.shouldRun = true)
    (hpod : s.pods req.podName = some pod) (hphase : pod.phase = .succeeded)
    {completed : Bool × Option GoError} {t : Cluster}
    (howner : (req.onCompleted pod).eval undisturbed s = (completed, t)) :
    (reconcileJob req).eval undisturbed s =
      if completed.2.isSome ∨ completed.1 = false then (completed, t)
      else (deleteResource req.podName).eval undisturbed t := by
  have hread : (reconcilePod req.podName (req.create.map (jobPod req.ownerAnnotations))).eval
      undisturbed s = (⟨true, some pod, none⟩, s) := by
    simp [reconcilePod, undisturbed_eq, Cluster.answer, hpod, podResult, hphase]
  simp only [reconcileJob, hrun, Bool.true_eq_false, if_false, Prog.eval_bind, hread, howner]
  split
  · rfl
  · rfl

/-- The Pod of a job that is not needed is deleted. -/
theorem reconcileJob_unneeded (hrun : req.shouldRun = false) :
    reconcileJob req = deletePod req.podName := by
  rw [reconcileJob, if_pos hrun]

end K8StorageX.UndisturbedJobs
