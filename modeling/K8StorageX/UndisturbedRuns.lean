import K8StorageX.SoloRuns
import K8StorageX.ManagerGuarantees
import K8StorageX.UndisturbedJobs
import Mathlib.Logic.Relation

/-!
# Reconciles that nobody disturbs

A controller makes progress if its reconciles are repeated, the API does not fail and the
Pod it waits for succeeds. `Alone` describes this at the level of the cluster: each step
evaluates one reconcile as a whole. Every sequence of such steps is a run of the manager,
from every state, after a restart.
-/

namespace K8StorageX.UndisturbedRuns

open ApiProgram WorkerPool KubeObjects ProvisionerPods KubeApi ManagerSystem Lifecycle
open JobReconciler ManagerGuarantees ClaimReferences UndisturbedJobs Relation

/-- One reconcile of a worker from the beginning to its end, or the success of its Pod. -/
inductive Alone (cfg : Config) (w : Worker) (job : ObjectKey) (s t : Cluster) : Prop where
  /-- The object is reconciled once. -/
  | reconcile {err : Option GoErrors.GoError}
      (h : (program cfg w).eval undisturbed s = (.returned err, t)) : Alone cfg w job s t
  /-- The Pod succeeds. -/
  | podSucceeds (h : act s (.podPhase job .succeeded) = some t) : Alone cfg w job s t

/-- The steps of such a run: those of the worker, the success of its Pod, and a restart. -/
def Helps (w : Worker) (job : ObjectKey) : ManagerEvent → Prop
  | .start v _ => v = w
  | .serve v fault => v = w ∧ fault = calm
  | .finish v => v = w
  | .crash => True
  | .env (.podPhase key phase) => key = job ∧ phase = .succeeded
  | .env _ => False

variable {cfg : Config} {steady : Prop} {w : Worker} {job : ObjectKey} {st : ManagerState}

theorem othersRespect_of_helps {e : ManagerEvent} (h : Helps w job e) (st : ManagerState) :
    OthersRespect cfg steady st e := by
  cases e with
  | env e =>
    cases e with
    | podPhase key phase => trivial
    | _ => exact h.elim
  | _ => trivial

/-- A reconcile that is evaluated as a whole is a run of the manager. -/
theorem run_reconcile (hw : ∀ key, w ≠ .pod key) (hfree : st.running w = none)
    {err : Option GoErrors.GoError} {t : Cluster}
    (h : (program cfg w).eval undisturbed st.shared.toCluster = (.returned err, t)) :
    ∃ es st', (∀ e ∈ es, Helps w job e) ∧ (manager cfg).run st es = some st' ∧
      st'.shared.toCluster = t ∧ st'.running = st.running := by
  have hview := eval_view (Shared.serve w calm) undisturbed Shared.toCluster (fun _ _ => rfl)
    (program cfg w) st.shared
  rw [h, Prod.mk.injEq] at hview
  have hstart : (manager cfg).onStart w () st.shared = some st.shared := by
    cases w with
    | pod key => exact absurd rfl (hw key)
    | claim key => rfl
    | volume name => rfl
  have hfinish : (manager cfg).onFinish w ((program cfg w).eval (Shared.serve w calm) st.shared).1
      ((program cfg w).eval (Shared.serve w calm) st.shared).2 =
        some ((program cfg w).eval (Shared.serve w calm) st.shared).2 := by
    rw [hview.1]
    cases w with
    | pod key => exact absurd rfl (hw key)
    | claim key => rfl
    | volume name => rfl
  obtain ⟨n, hrun⟩ := System.run_alone calm hfree hstart hfinish
  refine ⟨_, _, fun e he => ?_, hrun, hview.2, rfl⟩
  rw [List.cons_append, List.mem_cons, List.mem_append, List.mem_singleton] at he
  rcases he with rfl | hserve | rfl
  · rfl
  · rw [List.eq_of_mem_replicate hserve]
    exact ⟨rfl, rfl⟩
  · rfl

/-- One step of a worker and its Pod alone is a run of the manager. -/
theorem run_of_alone (hw : ∀ key, w ≠ .pod key) (hfree : st.running w = none) {t : Cluster}
    (h : Alone cfg w job st.shared.toCluster t) :
    ∃ es st', (∀ e ∈ es, Helps w job e) ∧ (manager cfg).run st es = some st' ∧
      st'.shared.toCluster = t ∧ st'.running = st.running := by
  cases h with
  | reconcile h => exact run_reconcile hw hfree h
  | podSucceeds h =>
    refine ⟨[.env (.podPhase job .succeeded)], ⟨{ st.shared with toCluster := t }, st.running⟩,
      fun e he => ?_, ?_, rfl, rfl⟩
    · rw [List.mem_singleton] at he
      rw [he]
      exact ⟨rfl, rfl⟩
    · simp only [System.run, System.step, manager, Shared.env, h, Option.map_some, Option.bind_some,
        reported, Shared.report]

/-- Steps of a worker and its Pod alone are a run of the manager. -/
theorem run_of_alone_steps (hw : ∀ key, w ≠ .pod key) (hfree : st.running w = none) {t : Cluster}
    (h : ReflTransGen (Alone cfg w job) st.shared.toCluster t) :
    ∃ es st', (∀ e ∈ es, Helps w job e) ∧ (manager cfg).run st es = some st' ∧
      st'.shared.toCluster = t ∧ st'.running = st.running := by
  induction h with
  | refl => exact ⟨[], st, List.forall_mem_nil _, rfl, rfl, rfl⟩
  | tail _ hlast ih =>
    obtain ⟨first, mid, hfirst, hrun, hmid, hrunning⟩ := ih
    rw [← hmid] at hlast
    rw [← hrunning] at hfree
    obtain ⟨last, st', hhelps, hrun', ht, hrunning'⟩ := run_of_alone hw hfree hlast
    refine ⟨first ++ last, st', fun e he => ?_, ?_, ht, hrunning'.trans hrunning⟩
    · exact (List.mem_append.mp he).elim (hfirst e) (hhelps e)
    · rw [System.run_append, hrun, Option.bind_some, hrun']

/-- What a worker and its Pod can bring about alone, they can bring about after a restart of
the manager, whatever it was doing. -/
theorem run_after_restart (steady : Prop) (hw : ∀ key, w ≠ .pod key) {goal : Cluster → Prop}
    (h : ∃ t, ReflTransGen (Alone cfg w job) st.shared.crash.toCluster t ∧ goal t) :
    ∃ later st', (∀ e ∈ later, Helps w job e) ∧
      (manager cfg).RunWhere (OthersRespect cfg steady) st later st' ∧
      goal st'.shared.toCluster := by
  obtain ⟨t, hsteps, hgoal⟩ := h
  have hfree : (idle st.shared.crash : ManagerState).running w = none := rfl
  obtain ⟨es, st', hhelps, hrun, ht, -⟩ := run_of_alone_steps hw hfree hsteps
  have hall : ∀ e ∈ (.crash : ManagerEvent) :: es, Helps w job e :=
    List.forall_mem_cons.mpr ⟨trivial, hhelps⟩
  have hcrash : (manager cfg).step st .crash = some (idle st.shared.crash) := rfl
  have hrestart : (manager cfg).run st (.crash :: es) = some st' := by
    rw [System.run, hcrash, Option.bind_some, hrun]
  refine ⟨.crash :: es, st', hall, System.runWhere_of_forall (fun e he => ?_) hrestart, ?_⟩
  · exact othersRespect_of_helps (hall e he)
  · rw [ht]
    exact hgoal

section Jobs

variable {s t : Cluster} {req : JobRequest} {good : Annotations → Prop}

/-- Pods are stored under their names, and the success of a Pod is recorded. -/
structure PodsKept (s : Cluster) : Prop where
  /-- Pods are stored under their names. -/
  key : ∀ {key pod}, s.pods key = some pod → pod.key = key
  /-- The success of a Pod is recorded. -/
  recorded : ∀ {key pod}, s.pods key = some pod → pod.phase = .succeeded → s.succeeded key = true

theorem PodsKept.dropPod (h : PodsKept s) (pod : Pod) : PodsKept (s.dropPod pod) := by
  have hfound : ∀ {key found}, (s.dropPod pod).pods key = some found → s.pods key = some found := by
    intro key found hfound
    by_cases hkey : key = pod.key
    · simp only [Cluster.dropPod, hkey, Function.update_self, reduceCtorEq] at hfound
    · simpa only [Cluster.dropPod, Function.update_of_ne hkey] using hfound
  exact ⟨fun hpod => h.key (hfound hpod), fun hpod => h.recorded (hfound hpod)⟩

theorem PodsKept.store (h : PodsKept s) {pod : Pod} (hpods : t.pods =
      Function.update s.pods pod.key (some pod))
    (hstored : pod.phase = .succeeded → t.succeeded pod.key = true)
    (hsucceeded : ∀ {key}, s.succeeded key = true → t.succeeded key = true) : PodsKept t := by
  refine ⟨fun {key found} hfound => ?_, fun {key found} hfound hphase => ?_⟩
  · rw [hpods] at hfound
    by_cases hkey : key = pod.key
    · rw [hkey, Function.update_self] at hfound
      rw [← Option.some.inj hfound, hkey]
    · rw [Function.update_of_ne hkey] at hfound
      exact h.key hfound
  · rw [hpods] at hfound
    by_cases hkey : key = pod.key
    · rw [hkey, Function.update_self] at hfound
      rw [← Option.some.inj hfound] at hphase
      rw [hkey]
      exact hstored hphase
    · rw [Function.update_of_ne hkey] at hfound
      exact hsucceeded (h.recorded hfound hphase)

/-- Only Pods have changed; what has succeeded stays recorded. -/
structure OnlyPods (s t : Cluster) : Prop where
  /-- Claims are the same. -/
  claims : t.claims = s.claims
  /-- Volumes are the same. -/
  volumes : t.volumes = s.volumes
  /-- Storage classes are the same. -/
  storageClasses : t.storageClasses = s.storageClasses
  /-- Provisioners are the same. -/
  provisioners : t.provisioners = s.provisioners
  /-- What has succeeded stays recorded. -/
  succeeded : ∀ {key}, s.succeeded key = true → t.succeeded key = true
  /-- Pods are kept. -/
  kept : PodsKept t

/-- The Pod of a job has not failed or can be created, and has good annotations. -/
def JobReady (s : Cluster) (req : JobRequest) (good : Annotations → Prop) : Prop :=
  match s.pods req.podName with
  | some pod => pod.phase ≠ .failed ∧ good pod.annotations
  | none => ∃ pod, req.create = .ok pod ∧ good (jobPod req.ownerAnnotations pod).annotations

/-- The Pod of a job has succeeded. -/
structure JobSucceeded (t : Cluster) (req : JobRequest) (good : Annotations → Prop) (pod : Pod) :
    Prop where
  /-- The Pod is stored. -/
  found : t.pods req.podName = some pod
  /-- It has succeeded. -/
  phase : pod.phase = .succeeded
  /-- It has good annotations. -/
  good : good pod.annotations

/-- A Pod that has not terminated can succeed. -/
theorem pod_succeeds (h : PodsKept s) {pod : Pod} (hpod : s.pods req.podName = some pod)
    (hrunning : pod.phase.terminal = false) (hgood : good pod.annotations) :
    ∃ t, Alone cfg w req.podName s t ∧ OnlyPods s t ∧
      JobSucceeded t req good { pod with phase := .succeeded } := by
  have hkey := h.key hpod
  have hrecord : ∀ {key}, s.succeeded key = true →
      Function.update s.succeeded req.podName true key = true := by
    intro key hkey
    by_cases heq : key = req.podName
    · rw [heq, Function.update_self]
    · rw [Function.update_of_ne heq, hkey]
  refine ⟨{ s.putPod { pod with phase := .succeeded } with
    succeeded := Function.update s.succeeded req.podName true }, .podSucceeds ?_, ?_, ?_⟩
  · simp only [act, hpod, hrunning, Bool.false_eq_true, if_false, if_true]
    rfl
  · refine ⟨rfl, rfl, rfl, rfl, hrecord, h.store rfl (fun _ => ?_) hrecord⟩
    rw [hkey]
    exact Function.update_self ..
  · refine ⟨?_, rfl, hgood⟩
    rw [← hkey]
    exact Function.update_self ..

/-- A job whose Pod is ready can be brought to the success of its Pod by reconciles that
end with the job. -/
theorem job_succeeds (h : PodsKept s) (hrun : req.shouldRun = true)
    (hreconcile : ∀ {t : Cluster} {err}, (reconcileJob req).eval undisturbed s = ((false, err), t) →
      Alone cfg w req.podName s t)
    (hready : JobReady s req good) :
    ∃ t pod, ReflTransGen (Alone cfg w req.podName) s t ∧ OnlyPods s t ∧
      JobSucceeded t req good pod := by
  rw [JobReady] at hready
  cases hpod : s.pods req.podName with
  | some pod =>
    rw [hpod] at hready
    by_cases hsucceeded : pod.phase = .succeeded
    · exact ⟨s, pod, .refl, ⟨rfl, rfl, rfl, rfl, id, h⟩, ⟨hpod, hsucceeded, hready.2⟩⟩
    · have hrunning : pod.phase.terminal = false := by
        cases hcase : pod.phase with
        | succeeded => exact absurd hcase hsucceeded
        | failed => exact absurd hcase hready.1
        | _ => rfl
      obtain ⟨t, hstep, honly, hdone⟩ := pod_succeeds h hpod hrunning hready.2
      exact ⟨t, _, .single hstep, honly, hdone⟩
  | none =>
    rw [hpod] at hready
    obtain ⟨pod, hcreate, hgood⟩ := hready
    have hjob := reconcileJob_absent hrun hpod hcreate
    -- the Pod that has been created succeeds next
    have hcreated : (s.putPod { jobPod req.ownerAnnotations pod with
        key := req.podName, deleting := false, phase := .pending }).pods req.podName =
          some { jobPod req.ownerAnnotations pod with
            key := req.podName, deleting := false, phase := .pending } := Function.update_self ..
    have hkept : PodsKept (s.putPod { jobPod req.ownerAnnotations pod with
        key := req.podName, deleting := false, phase := .pending }) :=
      h.store rfl (fun hphase => (by cases hphase)) id
    obtain ⟨t, hstep, honly, hdone⟩ := pod_succeeds hkept hcreated rfl hgood
    refine ⟨t, _, .head (hreconcile hjob) (.single hstep), ?_, hdone⟩
    exact { honly with }

end Jobs

end K8StorageX.UndisturbedRuns
