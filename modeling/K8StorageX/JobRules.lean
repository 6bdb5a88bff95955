import K8StorageX.ControllerRules

/-!
# Rules for the job programs

What creating, waiting for and deleting a job Pod needs and establishes, for
either controller. The permission to create and to delete the Pod is a premise.
-/

namespace K8StorageX.ControllerRules

open ApiProgram WorkerPool GoErrors KubeObjects ProvisionerPods KubeApi ManagerSystem Lifecycle
open JobReconciler VolumeController

variable {cfg : Config} {steady : Prop} {w : Worker} {seen : Record Req Resp} {s : Cluster}
variable {fact : Cluster → Prop}

/-- `DeleteResource` is done when the Pod is not there any more. -/
theorem follows_deleteResource {key : ObjectKey} (hstable : Stable cfg steady w fact)
    (hgone : Stable cfg steady w fun s => fact s ∧ s.pods key = none) (hs : fact s)
    (hmay : ∀ t pod, Inv cfg steady t → fact t → t.pods key = some pod →
      MayDelete cfg steady (some w) t key pod) :
    Follows cfg steady w (fun _ result t => result = (true, none) → fact t ∧ t.pods key = none)
      (deleteResource key) seen s := by
  simp only [deleteResource, Prog.request_bind]
  refine .deletePod hstable hs hmay ?_ ?_
  · intro t _ hfact hnone
    exact .ret fun u hr _ _ => hgone.rely hr ⟨hfact, hnone⟩
  · intro t response hne
    cases response with
    | ok _ => exact .ret fun _ _ _ => nofun
    | error e =>
      have he : e ≠ .notFound := fun heq => hne (congrArg _ heq)
      simp only [if_neg he]
      exact .ret fun _ _ _ => nofun

/-- `DeletePod` is done when the Pod is not there any more. -/
theorem follows_deletePod {key : ObjectKey} (hstable : Stable cfg steady w fact)
    (hgone : Stable cfg steady w fun s => fact s ∧ s.pods key = none) (hs : fact s)
    (hmay : ∀ t pod, Inv cfg steady t → fact t → t.pods key = some pod →
      MayDelete cfg steady (some w) t key pod) :
    Follows cfg steady w (fun _ result t => result = (true, none) → fact t ∧ t.pods key = none)
      (deletePod key) seen s := by
  simp only [deletePod, Prog.request_bind]
  refine .getPod hstable hs ?_ ?_ ?_
  · intro t pod _ hfact _
    exact follows_deleteResource hstable hgone hfact hmay
  · intro t _ hfact hnone
    exact .ret fun u hr _ _ => hgone.rely hr ⟨hfact, hnone⟩
  · intro t e _ _ he
    simp only [if_neg he]
    exact .ret fun _ _ _ => nofun

variable {done : Pod → Cluster → Prop}

/-- The result for a Pod that has been read. -/
theorem follows_podResult {pod : Pod} (hdone : ∀ pod, Stable cfg steady w (done pod))
    (hread : pod.phase = .succeeded → done pod s) :
    Follows cfg steady w (fun _ result t => result.done = true → result.err = none →
      ∃ pod, result.pod = some pod ∧ done pod t)
      (.ret (podResult pod)) seen s := by
  refine .ret ?_
  intro t hr _ hfinished herr
  cases hphase : pod.phase with
  | succeeded =>
    simp only [podResult, hphase]
    exact ⟨pod, rfl, (hdone pod).rely hr (hread hphase)⟩
  | pending => simp [podResult, hphase] at hfinished
  | running => simp [podResult, hphase] at hfinished
  | failed => simp [podResult, hphase] at herr
  | unknown => simp [podResult, hphase] at hfinished

/-- `ReconcilePod` creates the Pod if it is missing and reports its success. -/
theorem follows_reconcilePod {key : ObjectKey} {create : Except GoError Pod}
    (hstable : Stable cfg steady w fact) (hdone : ∀ pod, Stable cfg steady w (done pod))
    (hs : fact s)
    (hcreate : ∀ pod response t, create = .ok pod → Inv cfg steady t → fact t →
      t.pods key = none → PodChange cfg steady (some w) (seen ++ [⟨.getPod key, response⟩]) t
        (t.putPod (newPod { pod with key := key })) key none
        (some (newPod { pod with key := key })))
    (hread : ∀ t pod, Inv cfg steady t → fact t → t.pods key = some pod →
      pod.phase = .succeeded → done pod t) :
    Follows cfg steady w (fun _ result t => result.done = true → result.err = none →
      ∃ pod, result.pod = some pod ∧ done pod t)
      (reconcilePod key create) seen s := by
  simp only [reconcilePod, Prog.request_bind]
  refine .getPod hstable hs ?_ ?_ ?_
  · intro t pod hi hfact hpod
    exact follows_podResult hdone (hread t pod hi hfact hpod)
  · intro t _ hfact _
    cases hc : create with
    | error e => exact .ret fun _ _ _ => nofun
    | ok pod =>
      refine .createPod hstable hfact ?_ ?_ ?_
      · intro u hi hfact hnone
        exact hcreate pod _ u hc hi hfact hnone
      · intro u _ hfact
        simp only [if_true, reconcilePod.reload, Prog.request_bind]
        refine .getPod hstable hfact ?_ ?_ ?_
        · intro v read hi hfact hpod
          exact follows_podResult hdone (hread v read hi hfact hpod)
        · intro v _ _ _
          exact .ret fun _ _ _ => nofun
        · intro v e _ _ _
          exact .ret fun _ _ _ => nofun
      · intro u response hne
        cases response with
        | ok _ => exact .ret fun _ _ _ => nofun
        | error e =>
          have he : e ≠ .alreadyExists := fun heq => hne (congrArg _ heq)
          simp only [if_neg he]
          exact .ret fun _ _ _ => nofun
  · intro t e _ _ he
    cases e with
    | notFound => exact absurd rfl he
    | alreadyExists => exact .ret fun _ _ _ => nofun
    | conflict => exact .ret fun _ _ _ => nofun
    | other text => exact .ret fun _ _ _ => nofun

/-- The result of an attempt that has neither failed nor is to be continued. -/
theorem eq_done_of_not {result : Bool × Option GoError}
    (h : ¬ (result.2.isSome = true ∨ result.1 = false)) : result = (true, none) := by
  obtain ⟨finished, err⟩ := result
  cases finished <;> cases err <;> simp_all

/-- `ReconcileJob` is done when the Pod has been deleted, either because the job is not
to run or because what follows its success has been done. -/
theorem follows_reconcileJob {req : JobRequest} {after : Cluster → Prop}
    (hstable : Stable cfg steady w fact) (hdone : ∀ pod, Stable cfg steady w (done pod))
    (hafter : Stable cfg steady w after)
    (hgone : Stable cfg steady w fun s => fact s ∧ s.pods req.podName = none)
    (hafterGone : Stable cfg steady w fun s => after s ∧ s.pods req.podName = none) (hs : fact s)
    (hmay : req.shouldRun = false → ∀ t pod, Inv cfg steady t → fact t →
      t.pods req.podName = some pod → MayDelete cfg steady (some w) t req.podName pod)
    (hcreate : req.shouldRun = true → ∀ pod response t, req.create = .ok pod →
      Inv cfg steady t → fact t → t.pods req.podName = none →
      PodChange cfg steady (some w) (seen ++ [⟨.getPod req.podName, response⟩]) t
        (t.putPod (newPod { jobPod req.ownerAnnotations pod with key := req.podName })) req.podName
        none (some (newPod { jobPod req.ownerAnnotations pod with key := req.podName })))
    (hread : req.shouldRun = true → ∀ t pod, Inv cfg steady t → fact t →
      t.pods req.podName = some pod → pod.phase = .succeeded → done pod t)
    (hcompleted : ∀ pod seen t, done pod t →
      Follows cfg steady w (fun _ result u => result = (true, none) → after u)
        (req.onCompleted pod) seen t)
    (hmayAfter : ∀ t pod, Inv cfg steady t → after t → t.pods req.podName = some pod →
      MayDelete cfg steady (some w) t req.podName pod) :
    Follows cfg steady w
      (fun _ result t => result = (true, none) →
        t.pods req.podName = none ∧ (req.shouldRun = false ∧ fact t ∨ after t))
      (reconcileJob req) seen s := by
  cases hrun : req.shouldRun with
  | false =>
    simp only [reconcileJob, hrun, if_true]
    refine (follows_deletePod hstable hgone hs (hmay hrun)).mono ?_
    intro _ result t _ hresult heq
    obtain ⟨hfact, hnone⟩ := hresult heq
    exact ⟨hnone, Or.inl ⟨trivial, hfact⟩⟩
  | true =>
    simp only [reconcileJob, hrun, Bool.true_eq_false, if_false]
    refine .bind ?_
    have hcreate' : ∀ pod response t,
        req.create.map (jobPod req.ownerAnnotations) = .ok pod → Inv cfg steady t → fact t →
        t.pods req.podName = none →
        PodChange cfg steady (some w) (seen ++ [⟨.getPod req.podName, response⟩]) t
          (t.putPod (newPod { pod with key := req.podName })) req.podName none
          (some (newPod { pod with key := req.podName })) := by
      intro pod response t hpod hi hfact hnone
      cases hc : req.create with
      | error e =>
        rw [hc] at hpod
        cases hpod
      | ok created =>
        rw [hc] at hpod
        have heq : jobPod req.ownerAnnotations created = pod := Except.ok.inj hpod
        subst heq
        exact hcreate hrun created response t hc hi hfact hnone
    refine (follows_reconcilePod hstable hdone hs hcreate' (hread hrun)).mono ?_
    intro seen' result t _ hresult
    obtain ⟨finished, pod, err⟩ := result
    cases finished with
    | false =>
      refine .ret fun _ _ _ heq => ?_
      cases heq
    | true =>
      cases err with
      | some e =>
        cases pod <;>
        · refine .ret fun _ _ _ heq => ?_
          cases heq
      | none =>
        obtain ⟨read, hpod, hd⟩ := hresult rfl rfl
        have hpod' : pod = some read := hpod
        subst hpod'
        refine .bind ((hcompleted read seen' t hd).mono ?_)
        intro seen'' completed u _ hpost
        split
        · rename_i hstop
          refine .ret fun v _ _ heq => ?_
          subst heq
          simp at hstop
        · rename_i hgo
          have hu := hpost (eq_done_of_not hgo)
          refine (follows_deleteResource hafter hafterGone hu hmayAfter).mono ?_
          intro _ result v _ hres heq
          obtain ⟨ha, hnone⟩ := hres heq
          exact ⟨hnone, Or.inr ha⟩

end K8StorageX.ControllerRules
