import K8StorageX.RunningPrograms
import K8StorageX.AnnotationLife
import K8StorageX.ManagerGuarantees

/-!
# Job Pods wake their owners

The controllers watch Pods and map each reported Pod to a request for the owner its
annotations name. Job Pods are created with these annotations by the controller of the
owner, and nobody changes them. So every change of a job Pod is reported, and what is
reported is mapped to the owner.
-/

namespace K8StorageX.JobOwners

open ApiProgram GoErrors WorkerPool KubeObjects ProvisionerPods KubeApi ManagerSystem JobReconciler
open Lifecycle ControllerRules AnnotationLife ManagerGuarantees

/-- `utils.PodToRequestMapper` -/
def podToRequestMapper (namespaceName annName annNamespace : String) (o : Pod) : List ObjectKey :=
  if o.key.namespaceName ≠ namespaceName then []
  else if o.annotations.isNil then []
  else
    let owner : ObjectKey := ⟨o.annotations.get annNamespace, o.annotations.get annName⟩
    if owner.name = "" ∨ (owner.namespaceName = "" ∧ annNamespace ≠ "") then [] else [owner]

/-- The claims the claim controller is asked to reconcile when a Pod is reported. -/
def claimRequests (cfg : Config) : Pod → List ObjectKey :=
  podToRequestMapper cfg.managerNamespace annPVCName annPVCNamespace

/-- The volumes the volume controller is asked to reconcile when a Pod is reported. -/
def volumeRequests (cfg : Config) : Pod → List ObjectKey :=
  podToRequestMapper cfg.managerNamespace annPVName ""

/-- The annotations name a claim. -/
structure NamesClaim (a : Annotations) (key : ObjectKey) : Prop where
  /-- There are annotations. -/
  annotated : a.isNil = false
  /-- They hold the name. -/
  name : a.get annPVCName = key.name
  /-- They hold the namespace. -/
  namespaceName : a.get annPVCNamespace = key.namespaceName

/-- The annotations name a volume and no claim. -/
structure NamesVolume (a : Annotations) (name : String) : Prop where
  /-- There are annotations. -/
  annotated : a.isNil = false
  /-- They hold the name. -/
  name : a.get annPVName = name
  /-- There is no namespace. -/
  namespaceName : a.get "" = ""
  /-- They name no claim. -/
  claim : a.get annPVCName = ""

/-- A Pod that names a claim wakes exactly that claim. -/
theorem claimRequests_of_names {cfg : Config} {pod : Pod} {key : ObjectKey}
    (hpod : pod.key.namespaceName = cfg.managerNamespace) (h : NamesClaim pod.annotations key)
    (hname : key.name ≠ "") (hnamespace : key.namespaceName ≠ "") :
    claimRequests cfg pod = [key] := by
  simp [claimRequests, podToRequestMapper, hpod, h.annotated, h.name, h.namespaceName, hname,
    hnamespace]

/-- A Pod that names a volume wakes exactly that volume. -/
theorem volumeRequests_of_names {cfg : Config} {pod : Pod} {name : String}
    (hpod : pod.key.namespaceName = cfg.managerNamespace) (h : NamesVolume pod.annotations name)
    (hname : name ≠ "") : volumeRequests cfg pod = [⟨"", name⟩] := by
  simp [volumeRequests, podToRequestMapper, hpod, h.annotated, h.name, h.namespaceName, hname]

/-- A Pod that names a volume wakes no claim. -/
theorem claimRequests_of_volume {cfg : Config} {pod : Pod} {name : String}
    (h : NamesVolume pod.annotations name) : claimRequests cfg pod = [] := by
  simp [claimRequests, podToRequestMapper, h.claim]

section Requests

variable {cfg : Config}

/-- What a worker creates Pods for: a claim controller for the claim it has read, a volume
controller for a volume it has read. -/
def Labels (cfg : Config) (w : Worker) (seen : Record Req Resp) : Req → Prop
  | .createPod pod =>
    match w with
    | .claim key => ∃ claim, ⟨.getClaim key, .ok claim⟩ ∈ seen ∧
        pod.key = provisionerPodName cfg claim.uid ∧ NamesClaim pod.annotations claim.key
    | .volume _ => ∃ name pv, ⟨.getVolume name, .ok pv⟩ ∈ seen ∧
        pod.key = deprovisionerPodName cfg pv.name ∧ NamesVolume pod.annotations pv.name
    | .pod _ => False
  | _ => True

/-- A request that creates a Pod. -/
def createsPod : Req → Bool
  | .createPod _ => true
  | _ => false

/-- Requests that create no Pods need no annotations. -/
theorem labels_plain {w : Worker} (seen : Record Req Resp) (r : Req) (h : createsPod r = false) :
    Labels cfg w seen r := by
  cases r with
  | createPod pod => cases h
  | _ => trivial

/-- Programs that create no Pods. -/
abbrev CreatesNone {α : Type} (p : Controller α) : Prop := p.Issues fun r => createsPod r = false

/-- The Pod controller creates no Pod when it handles a claim. -/
theorem createsNone_reconcileClaim (pvcName : ObjectKey) :
    CreatesNone (PodController.reconcileClaim pvcName) := by
  refine .request_bind rfl ?_
  intro read
  split
  · trivial
  · refine (PodController.issues_shouldDelete fun _ => rfl).bind ?_
    intro should
    split
    · exact PodController.issues_unprotectAndDelete (fun _ => rfl) fun _ => rfl
    · trivial

/-- Nor when it handles several. -/
theorem createsNone_reconcileClaims (pvcNames : List ObjectKey) (err : Option GoError) :
    CreatesNone (PodController.reconcileClaims pvcNames err) := by
  induction pvcNames generalizing err with
  | nil => trivial
  | cons pvcName pvcNames ih => exact (createsNone_reconcileClaim pvcName).bind fun _ => ih _

/-- Requests that store nothing need no annotations. -/
theorem labels_of_stores {w : Worker} (seen : Record Req Resp) (r : Req) (h : stores r = false) :
    Labels cfg w seen r := by
  cases r with
  | createPod pod => cases h
  | _ => trivial

/-- The Pod of a claim names the claim, also if the provisioner copies annotations. -/
theorem namesClaim_jobPod (cfg : Config) (claim : PersistentVolumeClaim) (p : StorageProvisioner)
    (pvExists : Bool) (pod : Pod) : NamesClaim
      (jobPod (ClaimController.provisionerJob cfg claim p pvExists).ownerAnnotations pod).annotations
      claim.key where
  annotated := rfl
  name := by
    have hother := (pod.annotations.set annPVCName claim.key.name).get_set_of_ne
      claim.key.namespaceName (show annPVCName ≠ annPVCNamespace by decide)
    exact hother.trans (Annotations.get_set_self ..)
  namespaceName := Annotations.get_set_self ..

/-- The Pod of a volume names the volume and no claim. -/
theorem namesVolume_jobPod {pv : PersistentVolume} {p : StorageProvisioner} {pod : Pod}
    (hcreate : deprovisionerPod cfg pv p = .ok pod) : NamesVolume
      (jobPod (VolumeController.deprovisionerJob cfg pv p).ownerAnnotations pod).annotations
      pv.name := by
  have hempty : pod.annotations = Annotations.empty := by
    unfold deprovisionerPod at hcreate
    dsimp only at hcreate
    split at hcreate
    · cases hcreate
    · exact annotations_newProvisionerPod hcreate
  have hother : ∀ key, key ≠ annPVName →
      (pod.annotations.set annPVName pv.name).get key = "" := by
    intro key hkey
    rw [Annotations.get_set_of_ne _ _ hkey, hempty]
    rfl
  exact ⟨rfl, Annotations.get_set_self .., hother _ (by decide), hother _ (by decide)⟩

/-- The provisioner Pod names the claim that has been read. -/
theorem labels_provisionerJob (cfg : Config) {seen : Record Req Resp} {key : ObjectKey}
    {claim : PersistentVolumeClaim} (hclaim : ⟨.getClaim key, .ok claim⟩ ∈ seen)
    (p : StorageProvisioner) (pvExists : Bool) :
    (reconcileJob (ClaimController.provisionerJob cfg claim p pvExists)).Traced
      (Labels cfg (.claim key)) seen := by
  refine traced_reconcileJob labels_of_stores _ ?_ ?_
  · intro later pod _ _
    exact ⟨claim, List.mem_append_left later hclaim, rfl, namesClaim_jobPod cfg claim p pvExists pod⟩
  · intro later pod _
    exact Prog.traced_of_issues labels_plain
      (ClaimController.issues_onProvisioned (fun _ => rfl) cfg pod)

/-- The deprovisioner Pod names the volume that has been read. -/
theorem labels_deprovisionVolume {seen : Record Req Resp} {name : String} {pv : PersistentVolume}
    (hpv : ⟨.getVolume name, .ok pv⟩ ∈ seen) (w : String) :
    (VolumeController.deprovisionVolume cfg pv).Traced (Labels cfg (.volume w)) seen := by
  unfold VolumeController.deprovisionVolume
  split
  · trivial
  · split
    · trivial
    · refine traced_reconcileJob labels_of_stores _ ?_ ?_
      · intro later pod _ hcreate
        exact ⟨name, pv, List.mem_append_left later hpv, rfl, namesVolume_jobPod hcreate⟩
      · intro later pod _
        refine .request_bind (labels_plain _ _ rfl) ?_
        intro updated
        split <;> trivial

/-- Claims are reconciled by creating Pods that name them. -/
theorem labels_reconcileClaim (key : ObjectKey) :
    (program cfg (.claim key)).Traced (Labels cfg (.claim key)) [] := by
  refine .request_bind (labels_plain _ _ rfl) ?_
  intro read
  split
  · split <;> trivial
  · rename_i claim
    split
    · exact Prog.traced_of_issues labels_of_stores (issues_reconcileDeleted claim)
    · have hresolve : CreatesNone (VolumeController.resolveProvisioner claim.annotations) :=
        VolumeController.issues_resolveProvisioner (fun _ => rfl) _
      refine (Prog.traced_of_issues labels_plain hresolve).bind ?_
      intro resolved known _
      cases known with
      | none => trivial
      | some p =>
        have hshould : CreatesNone (ClaimController.shouldProvision claim p) :=
          ClaimController.issues_shouldProvision (fun _ => rfl) p
        refine (Prog.traced_of_issues labels_plain hshould).bind ?_
        intro checked should _
        cases should with
        | no err => trivial
        | panicked => trivial
        | yes =>
          dsimp only
          split
          · exact Prog.traced_of_issues labels_plain (ClaimController.issues_updateStatus rfl)
          · refine .request_bind (labels_plain _ _ rfl) ?_
            intro volume
            have hclaim : ⟨.getClaim key, .ok claim⟩ ∈
                [] ++ [(⟨.getClaim key, .ok claim⟩ : Σ r, Resp r)] ++ resolved ++ checked ++
                  [⟨.getVolume (pvNameForPVC claim.uid), volume⟩] := by simp
            have hjob := fun pvExists => labels_provisionerJob cfg hclaim p pvExists
            split
            · split
              · trivial
              · exact (hjob true).bind fun _ _ _ => trivial
            · split
              · exact (hjob false).bind fun _ _ _ => trivial
              · trivial

/-- Volumes are reconciled by creating Pods that name them. -/
theorem labels_reconcileVolume (name : String) :
    (program cfg (.volume name)).Traced (Labels cfg (.volume name)) [] := by
  refine .bind (p := VolumeController.reconcile cfg name) ?_ (fun _ _ _ => trivial)
  refine .request_bind (labels_plain _ _ rfl) ?_
  intro read
  split
  · split <;> trivial
  · rename_i pv
    split
    · trivial
    · have hcan : CreatesNone (VolumeController.canDeprovision cfg 2 none pv) :=
        VolumeController.issues_canDeprovision
          ⟨fun _ => rfl, fun _ => rfl, fun _ => rfl, fun _ => rfl⟩ cfg 2 none pv
      refine (Prog.traced_of_issues labels_plain hcan).bind ?_
      intro record can hcan
      cases can with
      | blocked err => trivial
      | possible pv' =>
        have hread : ∃ name', ⟨.getVolume name', .ok pv'⟩ ∈
            [] ++ [(⟨.getVolume name, .ok pv⟩ : Σ r, Resp r)] ++ record := by
          rcases getVolume_of_possible hcan with rfl | ⟨name', hmem⟩
          · exact ⟨name, by simp⟩
          · exact ⟨name', List.mem_append_right _ hmem⟩
        obtain ⟨name', hread⟩ := hread
        refine (labels_deprovisionVolume hread name).bind ?_
        intro record result _
        split
        · trivial
        · refine .request_bind (labels_plain _ _ rfl) ?_
          intro updated
          split <;> trivial

/-- Every worker creates only Pods that name what it has read. -/
theorem labels_program (w : Worker) : (program cfg w).Traced (Labels cfg w) [] := by
  cases w with
  | claim key => exact labels_reconcileClaim key
  | volume name => exact labels_reconcileVolume name
  | pod key =>
    refine .bind (p := PodController.reconcile key) ?_ (fun _ _ _ => trivial)
    refine .request_bind (labels_plain _ _ rfl) ?_
    intro read
    split
    · split <;> trivial
    · exact Prog.traced_of_issues labels_plain (createsNone_reconcileClaims _ _)

end Requests

section Steps

variable {s t : Cluster} {fresh : Pod → Prop}

/-- What a step does to Pods: they keep their annotations unless they are new, and every
change is reported. -/
structure PodStep (fresh : Pod → Prop) (s t : Cluster) : Prop where
  /-- Pods keep their annotations. -/
  kept : ∀ {key pod}, t.pods key = some pod →
    (∃ stored, s.pods key = some stored ∧ pod.annotations = stored.annotations) ∨
      fresh pod ∧ pod.key = key
  /-- Changes are reported. -/
  reported : ∀ {key}, t.pods key ≠ s.pods key → ∃ pod, t.events = s.events ++ [pod] ∧
    pod.key = key ∧ (t.pods key = some pod ∨ s.pods key = some pod)

/-- A step that leaves the Pods as they are. -/
theorem PodStep.same (hpods : t.pods = s.pods) : PodStep fresh s t where
  kept {key pod} hpod := by
    rw [hpods] at hpod
    exact Or.inl ⟨pod, hpod, rfl⟩
  reported {key} hchange := absurd (congrFun hpods key) hchange

/-- A stored Pod has the annotations it had, or is new, and is reported. -/
theorem PodStep.put {pod : Pod} (hpods : t.pods = Function.update s.pods pod.key (some pod))
    (hevents : t.events = s.events ++ [pod])
    (hpod : (∃ stored, s.pods pod.key = some stored ∧ pod.annotations = stored.annotations) ∨
      fresh pod) : PodStep fresh s t where
  kept {key found} hfound := by
    rw [hpods] at hfound
    by_cases hkey : key = pod.key
    · subst hkey
      rw [Function.update_self] at hfound
      rw [← Option.some.inj hfound]
      exact hpod.imp_right fun hfresh => ⟨hfresh, rfl⟩
    · rw [Function.update_of_ne hkey] at hfound
      exact Or.inl ⟨found, hfound, rfl⟩
  reported {key} hchange := by
    rw [hpods] at hchange
    by_cases hkey : key = pod.key
    · refine ⟨pod, hevents, hkey.symm, Or.inl ?_⟩
      rw [hpods, hkey, Function.update_self]
    · rw [Function.update_of_ne hkey] at hchange
      exact absurd rfl hchange

/-- A Pod that is removed is reported. -/
theorem podStep_dropPod {pod : Pod} (hpod : s.pods pod.key = some pod) :
    PodStep fresh s (s.dropPod pod) where
  kept {key found} hfound := by
    by_cases hkey : key = pod.key
    · simp only [Cluster.dropPod, hkey, Function.update_self, reduceCtorEq] at hfound
    · simp only [Cluster.dropPod, Function.update_of_ne hkey] at hfound
      exact Or.inl ⟨found, hfound, rfl⟩
  reported {key} hchange := by
    by_cases hkey : key = pod.key
    · subst hkey
      exact ⟨pod, rfl, rfl, Or.inr hpod⟩
    · simp only [Cluster.dropPod, Function.update_of_ne hkey, ne_eq, not_true_eq_false] at hchange

/-- So is one that is being deleted. -/
theorem podStep_markPod {pod : Pod} (hpod : s.pods pod.key = some pod) (graceful : Bool) :
    PodStep fresh s (s.markPod graceful pod) := by
  rw [Cluster.markPod]
  split
  · exact .put rfl rfl (Or.inl ⟨pod, hpod, rfl⟩)
  · exact podStep_dropPod hpod

/-- The deletion of a claim leaves the Pods as they are. -/
theorem pods_markClaim (s : Cluster) (c : PersistentVolumeClaim) :
    (s.markClaim c).pods = s.pods := by
  rw [Cluster.markClaim]
  split <;> rfl

/-- So does the deletion of a volume. -/
theorem pods_markVolume (s : Cluster) (pv : PersistentVolume) :
    (s.markVolume pv).pods = s.pods := by
  rw [Cluster.markVolume]
  split <;> rfl

/-- The Pods after a request. -/
theorem podStep_serve (hkey : ∀ {key pod}, s.pods key = some pod → pod.key = key) (fault : Fault)
    {r : Req} (hfresh : ∀ pod, r = .createPod pod →
      fresh { pod with deleting := false, phase := .pending }) :
    PodStep fresh s (s.serve fault r).2 := by
  rcases serve_effect s fault r with hsame | heffect
  · rw [hsame]
    exact .same rfl
  · generalize (s.serve fault r).2 = t at heffect ⊢
    cases heffect with
    | createPod _ => exact .put rfl rfl (Or.inr (hfresh _ rfl))
    | @deletePod key pod hpod =>
      have hname := hkey hpod
      rw [← hname] at hpod
      exact podStep_markPod hpod fault.graceful
    | deleteClaim _ => exact .same (pods_markClaim ..)
    | deleteVolume _ => exact .same (pods_markVolume ..)
    | _ => exact .same rfl

/-- The Pods after a step of others. -/
theorem podStep_act (hkey : ∀ {key pod}, s.pods key = some pod → pod.key = key) {e : Env}
    (hfresh : ∀ pod, e = .createPod pod → fresh { pod with deleting := false, phase := .pending })
    (h : act s e = some t) : PodStep fresh s t := by
  cases acts_of_act h with
  | createPod _ => exact .put rfl rfl (Or.inr (hfresh _ rfl))
  | @podPhase key phase pod hpod _ =>
    have hname := hkey hpod
    rw [← hname] at hpod
    split
    · exact .put rfl rfl (Or.inl ⟨pod, hpod, rfl⟩)
    · exact .put rfl rfl (Or.inl ⟨pod, hpod, rfl⟩)
  | @deletePod key graceful pod hpod =>
    have hname := hkey hpod
    rw [← hname] at hpod
    exact podStep_markPod hpod graceful
  | @removePod key pod hpod _ =>
    have hname := hkey hpod
    rw [← hname] at hpod
    exact podStep_dropPod hpod
  | deleteClaim _ => exact .same (pods_markClaim ..)
  | deleteVolume _ => exact .same (pods_markVolume ..)
  | _ => exact .same rfl

end Steps

section Owners

variable {cfg : Config} {steady : Prop} {s t : Cluster}

/-- A Pod that is not a job Pod, or names its owner. -/
def Named (cfg : Config) (s : Cluster) (pod : Pod) : Prop :=
  NotJob cfg pod.key ∨
    (∃ u key, pod.key = provisionerPodName cfg u ∧ s.issued u = some key ∧
      NamesClaim pod.annotations key) ∨
    ∃ name, pod.key = deprovisionerPodName cfg name ∧ NamesVolume pod.annotations name

/-- Job Pods name their owners. -/
structure PodsNamed (cfg : Config) (s : Cluster) : Prop where
  /-- A provisioner Pod names the claim. -/
  provisioner : ∀ {u pod}, s.pods (provisionerPodName cfg u) = some pod →
    ∃ key, s.issued u = some key ∧ NamesClaim pod.annotations key
  /-- A deprovisioner Pod names the volume. -/
  deprovisioner : ∀ {u pod}, s.pods (deprovisionerPodName cfg (pvNameForPVC u)) = some pod →
    NamesVolume pod.annotations (pvNameForPVC u)

/-- Job Pods name their owners after every step that creates none without its annotations. -/
theorem PodsNamed.step (h : PodsNamed cfg s) (hstep : PodStep (Named cfg s) s t)
    (hissued : ∀ {u key}, s.issued u = some key → t.issued u = some key) : PodsNamed cfg t where
  provisioner {u pod} hpod := by
    rcases hstep.kept hpod with ⟨stored, hstored, hsame⟩ | ⟨hnamed, hkey⟩
    · obtain ⟨key, hkey, hnames⟩ := h.provisioner hstored
      rw [hsame]
      exact ⟨key, hissued hkey, hnames⟩
    · rcases hnamed with hother | ⟨v, key, hname, hkey', hnames⟩ | ⟨name, hname, -⟩
      · exact absurd hkey (hother u).1
      · have hu : v = u := provisionerPodName_injective (hname.symm.trans hkey)
        rw [hu] at hkey'
        exact ⟨key, hissued hkey', hnames⟩
      · exact absurd (hname.symm.trans hkey) (deprovisionerPodName_ne_provisionerPodName cfg name u)
  deprovisioner {u pod} hpod := by
    rcases hstep.kept hpod with ⟨stored, hstored, hsame⟩ | ⟨hnamed, hkey⟩
    · rw [hsame]
      exact h.deprovisioner hstored
    · rcases hnamed with hother | ⟨v, key, hname, -, -⟩ | ⟨name, hname, hnames⟩
      · exact absurd hkey (hother u).2
      · exact absurd (hkey.symm.trans hname)
          (deprovisionerPodName_ne_provisionerPodName cfg (pvNameForPVC u) v)
      · have hn : name = pvNameForPVC u := deprovisionerPodName_injective (hname.symm.trans hkey)
        rw [hn] at hnames
        exact hnames

/-- What the responses to reads tell about owners. -/
def Told : (r : Req) → Resp r → Shared → Prop
  | .getClaim key, .ok c, s => c.key = key ∧ s.issued c.uid = some key
  | .getVolume name, .ok pv, _ => pv.name = name
  | _, _, _ => True

/-- What is read of a claim or a volume is stored under its name. -/
theorem told_serve {s : Shared} (hi : Inv cfg steady s.toCluster) (w : Worker) (fault : Fault)
    (r : Req) : Told r (s.serve w fault r).1 (s.serve w fault r).2 := by
  cases r with
  | getClaim key =>
    rcases serve_fst s.toCluster fault (.getClaim key) with hanswer | ⟨failure, hfailed⟩
    · simp only [Shared.serve, hanswer, Cluster.answer]
      cases hc : s.claims key with
      | none => trivial
      | some c => exact hi.claim hc
    · simp only [Shared.serve]
      rw [← Option.some.inj hfailed]
      trivial
  | getVolume name =>
    rcases serve_fst s.toCluster fault (.getVolume name) with hanswer | ⟨failure, hfailed⟩
    · simp only [Shared.serve, hanswer, Cluster.answer]
      cases hpv : s.volumes name with
      | none => trivial
      | some pv => exact hi.volume_name hpv
    · simp only [Shared.serve]
      rw [← Option.some.inj hfailed]
      trivial
  | _ => trivial

variable {es : List ManagerEvent} {st st' : ManagerState} {e : ManagerEvent}

/-- The Pods after a step of the manager or of others. -/
theorem podStep_step (hs : (lifecycle cfg steady).Safe st) (hk : Keeping (Labels cfg) Told st)
    (he : OthersRespect cfg steady st e) (hstep : (manager cfg).step st e = some st') :
    PodStep (Named cfg st.shared.toCluster) st.shared.toCluster st'.shared.toCluster := by
  cases System.taken_of_step hstep with
  | start _ ht =>
    rw [toCluster_start ht]
    exact .same rfl
  | @serve w fault seen r next hw =>
    refine podStep_serve hs.1.pod_key fault fun pod hr => ?_
    subst hr
    have hlabels := hk.request hw
    cases w with
    | claim key =>
      obtain ⟨claim, hread, hkey, hnames⟩ := hlabels
      obtain ⟨rfl, hissued⟩ := (hk _ _ hw).answered _ hread
      exact Or.inr (Or.inl ⟨claim.uid, claim.key, hkey, hissued, hnames⟩)
    | volume name =>
      obtain ⟨name, pv, -, hkey, hnames⟩ := hlabels
      exact Or.inr (Or.inr ⟨pv.name, hkey, hnames⟩)
    | pod key => exact hlabels.elim
  | finish _ ht =>
    rw [toCluster_finish ht]
    exact .same rfl
  | crash ht =>
    cases ht
    exact .same rfl
  | env ht =>
    refine podStep_act hs.1.pod_key (fun pod hpod => ?_) (act_of_env ht)
    subst hpod
    exact Or.inl he

/-- Along every run job Pods name their owners. -/
theorem named_of_runs (hrun : Runs cfg steady es st) :
    PodsNamed cfg st.shared.toCluster ∧ Keeping (Labels cfg) Told st := by
  obtain ⟨storageClasses, provisioners, hrun⟩ := hrun
  refine (lifecycle cfg steady).run_keeps lifecycle_respected admits_of_othersRespect hrun
    (fun mid => PodsNamed cfg mid.shared.toCluster ∧ Keeping (Labels cfg) Told mid) ?_
    (safe_initial storageClasses provisioners)
    ⟨⟨fun h => (by cases h), fun h => (by cases h)⟩, keeping_idle _⟩
  intro mid e next hsafe he hstep hmid
  obtain ⟨w, seen, -, hpermitted⟩ := permitted_step hsafe he hstep
  refine ⟨hmid.1.step (podStep_step hsafe hmid.2 he hstep) hpermitted.issued, ?_⟩
  refine hmid.2.step hstep (fun w _ => labels_program w) (fun r response htold => ?_)
    (fun w fault r => told_serve hsafe.1 w fault r)
  cases r with
  | getClaim key =>
    cases response with
    | error e => trivial
    | ok c => exact ⟨htold.1, hpermitted.issued htold.2⟩
  | getVolume name =>
    cases response with
    | error e => trivial
    | ok pv => exact htold
  | _ => trivial

/-- No change of a job Pod is missed: in every run, a step that changes the provisioner Pod of
a claim reports a Pod that is mapped to the claim, and a step that changes the deprovisioner
Pod of a volume reports a Pod that is mapped to the volume and to no claim. -/
theorem job_pods_wake_owners (hrun : Runs cfg steady es st) (he : OthersRespect cfg steady st e)
    (hstep : (manager cfg).step st e = some st') (u : UID) :
    (st'.shared.pods (provisionerPodName cfg u) ≠ st.shared.pods (provisionerPodName cfg u) →
      ∃ pod owner, st'.shared.events = st.shared.events ++ [pod] ∧
        pod.key = provisionerPodName cfg u ∧ st'.shared.issued u = some owner ∧
        (owner.name ≠ "" → owner.namespaceName ≠ "" → claimRequests cfg pod = [owner])) ∧
    (st'.shared.pods (deprovisionerPodName cfg (pvNameForPVC u)) ≠
        st.shared.pods (deprovisionerPodName cfg (pvNameForPVC u)) →
      ∃ pod, st'.shared.events = st.shared.events ++ [pod] ∧
        pod.key = deprovisionerPodName cfg (pvNameForPVC u) ∧
        volumeRequests cfg pod = [⟨"", pvNameForPVC u⟩] ∧ claimRequests cfg pod = []) := by
  obtain ⟨hnamed, hkeeping⟩ := named_of_runs hrun
  have hpods := podStep_step hrun.safe hkeeping he hstep
  obtain ⟨w, seen, -, hpermitted⟩ := permitted_step hrun.safe he hstep
  have hnamed' := hnamed.step hpods hpermitted.issued
  refine ⟨fun hchange => ?_, fun hchange => ?_⟩
  · obtain ⟨pod, hevents, hkey, hpod⟩ := hpods.reported hchange
    have hnamespace : pod.key.namespaceName = cfg.managerNamespace := by
      rw [hkey]
      rfl
    -- the reported Pod is the one after the step or, if it is gone, the one before
    have howner : ∃ owner, st'.shared.issued u = some owner ∧ NamesClaim pod.annotations owner := by
      rcases hpod with hafter | hbefore
      · exact hnamed'.provisioner hafter
      · obtain ⟨owner, hissued, hnames⟩ := hnamed.provisioner hbefore
        exact ⟨owner, hpermitted.issued hissued, hnames⟩
    obtain ⟨owner, hissued, hnames⟩ := howner
    exact ⟨pod, owner, hevents, hkey, hissued, claimRequests_of_names hnamespace hnames⟩
  · obtain ⟨pod, hevents, hkey, hpod⟩ := hpods.reported hchange
    have hnamespace : pod.key.namespaceName = cfg.managerNamespace := by
      rw [hkey]
      rfl
    have hnames : NamesVolume pod.annotations (pvNameForPVC u) :=
      hpod.elim hnamed'.deprovisioner hnamed.deprovisioner
    have hname : pvNameForPVC u ≠ "" := by
      intro hempty
      have hlength := length_pvNameForPVC u
      rw [hempty] at hlength
      simp at hlength
    exact ⟨pod, hevents, hkey, volumeRequests_of_names hnamespace hnames hname,
      claimRequests_of_volume hnames⟩

/-- The success of the sample deprovisioner Pod wakes its volume. -/
theorem job_pods_wake_owners_succeeded :
    ∃ st st' pod, Runs sampleConfig False (releasingRun ++ [served (.volume sampleVolume),
        .finish (.volume sampleVolume)]) st ∧
      (manager sampleConfig).step st
        (.env (.podPhase (deprovisionerPodName sampleConfig sampleVolume) .succeeded)) = some st' ∧
      st'.shared.events = st.shared.events ++ [pod] ∧
      volumeRequests sampleConfig pod = [⟨"", sampleVolume⟩] ∧ claimRequests sampleConfig pod = [] := by
  obtain ⟨st, st', hrun, hstep, hbefore, hafter⟩ :=
    quiet_run False (releasingRun ++ [served (.volume sampleVolume), .finish (.volume sampleVolume)])
      (.env (.podPhase (deprovisionerPodName sampleConfig sampleVolume) .succeeded))
      (fun st => (st.shared.pods (deprovisionerPodName sampleConfig sampleVolume)).any
        fun pod => pod.phase == .pending)
      (fun st => (st.shared.pods (deprovisionerPodName sampleConfig sampleVolume)).any
        fun pod => pod.phase == .succeeded)
      (by decide +kernel) (by decide +kernel)
  have hruns : Runs sampleConfig False (releasingRun ++ [served (.volume sampleVolume),
      .finish (.volume sampleVolume)]) st := ⟨_, _, hrun⟩
  have he : OthersRespect sampleConfig False st
      (.env (.podPhase (deprovisionerPodName sampleConfig sampleVolume) .succeeded)) := trivial
  have hchange : st'.shared.pods (deprovisionerPodName sampleConfig sampleVolume) ≠
      st.shared.pods (deprovisionerPodName sampleConfig sampleVolume) := by
    intro heq
    rw [heq] at hafter
    simp only [Option.any_eq_true, beq_iff_eq] at hbefore hafter
    obtain ⟨pod, hpod, hpending⟩ := hbefore
    obtain ⟨pod', hpod', hsucceeded⟩ := hafter
    rw [hpod] at hpod'
    rw [← Option.some.inj hpod', hpending] at hsucceeded
    cases hsucceeded
  obtain ⟨pod, hevents, -, hvolume, hclaim⟩ :=
    (job_pods_wake_owners hruns he hstep sampleClaim.uid).2 hchange
  exact ⟨st, st', pod, hruns, hstep, hevents, hvolume, hclaim⟩

end Owners

end K8StorageX.JobOwners
