import K8StorageX.VolumeRefinement
import K8StorageX.ClaimRefinement
import K8StorageX.PodRefinement

/-!
# The life of claims and volumes

In every run in which others respect what is reserved to the manager, all steps
are permitted: requests of the controllers because their programs keep to the
permitted steps whatever happens in between, and steps of others by assumption.
What may happen to volumes and claims follows from the invariant.
-/

namespace K8StorageX.ManagerGuarantees

open ApiProgram WorkerPool KubeObjects ProvisionerPods KubeApi ManagerSystem Lifecycle
open VolumeController ControllerRules

variable {cfg : Config} {steady : Prop}

/-- States of the manager in its cluster. -/
abbrev ManagerState : Type := State Worker Req Resp Shared ClaimController.Outcome

/-- Steps of the manager and its cluster. -/
abbrev ManagerEvent : Type := Event Worker Unit Fault Env

theorem follows_program (w : Worker) (s : Cluster) :
    Follows cfg steady w (fun _ _ _ => True) (program cfg w) [] s := by
  cases w with
  | claim key => exact ClaimRefinement.follows_reconcile key s
  | volume name =>
    exact .bind ((VolumeRefinement.follows_reconcile name s).mono fun _ _ _ _ _ => .ret_true _)
  | pod key =>
    exact .bind ((PodRefinement.follows_reconcile key s).mono fun _ _ _ _ _ => .ret_true _)

theorem toCluster_start {w : Worker} {s t : Shared} (h : s.start w = some t) :
    t.toCluster = s.toCluster := by
  cases w with
  | claim key => rw [← Option.some.inj h]
  | volume name => rw [← Option.some.inj h]
  | pod key =>
    simp only [Shared.start, Option.ite_none_right_eq_some, Option.some.injEq] at h
    rw [← h.2]

theorem toCluster_finish {w : Worker} {outcome : ClaimController.Outcome} {s t : Shared}
    (h : s.finish w outcome = some t) : t.toCluster = s.toCluster := by
  cases outcome with
  | panicked => cases h
  | returned err => cases w <;> rw [← Option.some.inj h]

theorem toCluster_report (s : Shared) (pod : Option Pod) :
    (s.report pod).toCluster = s.toCluster := by
  cases pod with
  | none => rfl
  | some pod =>
    rw [Shared.report]
    split <;> rfl

theorem act_of_env {e : Env} {s t : Shared} (h : Shared.env e s = some t) :
    act s.toCluster e = some t.toCluster := by
  simp only [Shared.env, Option.map_eq_some_iff] at h
  obtain ⟨c, hact, rfl⟩ := h
  rw [toCluster_report]
  exact hact

/-- A crash changes nothing but what the manager knows. -/
theorem step_crash (w : Option Worker) (seen : Record Req Resp) (s : Shared) :
    Step cfg steady w seen s.toCluster s.crash.toCluster :=
  .unchanged rfl rfl rfl rfl rfl rfl rfl fun _ => rfl

/-- Nobody is concerned by a step that leaves the cluster alone. -/
theorem inv_rely_of_toCluster {s t : Shared} (hi : Inv cfg steady s.toCluster)
    (hsame : t.toCluster = s.toCluster) :
    Inv cfg steady t.toCluster ∧ ∀ v, Rely cfg steady v s.toCluster t.toCluster := by
  rw [hsame]
  exact ⟨hi, fun _ => .refl⟩

/-- The manager keeps to the permitted steps. -/
theorem lifecycle_respected : (lifecycle cfg steady).Respected where
  start {w _ s t} hi _ hstart := by
    obtain ⟨hinv, hrely⟩ := inv_rely_of_toCluster hi (toCluster_start hstart)
    refine ⟨hinv, fun v _ => hrely v, ?_⟩
    exact (follows_program w t.toCluster t rfl).mono fun _ _ _ _ _ => trivial
  env {e s t} hi hr henv := by
    have hstep : Step cfg steady none [] s.toCluster t.toCluster :=
      step_act hi hr (act_of_env henv)
    exact ⟨Inv.step hi hstep, fun w => .single ⟨hi, none, [], nofun, hstep⟩⟩
  finish {w _ value s t} hi _ hfinish := by
    obtain ⟨hinv, hrely⟩ := inv_rely_of_toCluster hi (toCluster_finish hfinish)
    exact ⟨hinv, fun v _ => hrely v⟩
  crash {s t} hi hcrash := by
    have hsame : t = s.crash := (Option.some.inj hcrash).symm
    subst hsame
    exact Inv.step hi (step_crash none [] s)
  compatible {w v seen _ _ _ _} hi _ hg hv :=
    .single ⟨hi, some w, seen, fun heq => hv (Option.some.inj heq).symm, hg⟩

/-- Steps of others respect what is reserved to the manager. -/
def OthersRespect (cfg : Config) (steady : Prop) (st : ManagerState) : ManagerEvent → Prop
  | .env e => Respects cfg steady st.shared.toCluster e
  | _ => True

theorem admits_of_othersRespect (st : ManagerState) (e : ManagerEvent)
    (h : OthersRespect cfg steady st e) : (lifecycle cfg steady).Admits st e := by
  cases e with
  | start w j => trivial
  | serve w fault => exact fun _ _ _ _ => trivial
  | finish w => trivial
  | crash => trivial
  | env e => exact h

/-- A run of the manager from a cluster without claims, volumes and Pods. -/
def Runs (cfg : Config) (steady : Prop) (es : List ManagerEvent) (st : ManagerState) : Prop :=
  ∃ storageClasses provisioners, (manager cfg).RunWhere (OthersRespect cfg steady)
    (idle (Shared.initial storageClasses provisioners)) es st

theorem safe_initial (storageClasses : String → Option StorageClass)
    (provisioners : String → Option StorageProvisioner) :
    (lifecycle cfg steady).Safe (idle (Shared.initial storageClasses provisioners)) :=
  (lifecycle cfg steady).idle_safe (inv_initial cfg steady storageClasses provisioners)

theorem safe_of_runWhere {st st' : ManagerState} {es : List ManagerEvent}
    (hs : (lifecycle cfg steady).Safe st)
    (h : (manager cfg).RunWhere (OthersRespect cfg steady) st es st') :
    (lifecycle cfg steady).Safe st' :=
  (lifecycle cfg steady).run_safe_where lifecycle_respected hs (h.mono admits_of_othersRespect)

theorem Runs.safe {es : List ManagerEvent} {st : ManagerState} (h : Runs cfg steady es st) :
    (lifecycle cfg steady).Safe st := by
  obtain ⟨storageClasses, provisioners, hrun⟩ := h
  exact safe_of_runWhere (safe_initial storageClasses provisioners) hrun

/-- Who takes a step, and what it has read: a worker with a pending request, or others. -/
def Takes (st : ManagerState) (e : ManagerEvent) : Option Worker → Record Req Resp → Prop
  | some w, seen => ∃ fault r next, e = .serve w fault ∧ st.running w = some ⟨seen, .call r next⟩
  | none, _ => ∀ w fault, e ≠ .serve w fault

/-- The request of a worker is a step of that worker. -/
theorem Takes.eq_worker {st : ManagerState} {w : Option Worker} {seen : Record Req Resp}
    {v : Worker} {fault : Fault} (h : Takes st (.serve v fault) w seen) : w = some v := by
  cases w with
  | none => exact absurd rfl (h v fault)
  | some w =>
    obtain ⟨fault', r, next, heq, -⟩ := h
    injection heq with hv
    rw [hv]

/-- Every step of a run is permitted to whoever takes it. -/
theorem permitted_step {st st' : ManagerState} {e : ManagerEvent}
    (hs : (lifecycle cfg steady).Safe st) (he : OthersRespect cfg steady st e)
    (h : (manager cfg).step st e = some st') :
    ∃ w seen, Takes st e w seen ∧
      Step cfg steady w seen st.shared.toCluster st'.shared.toCluster := by
  cases System.taken_of_step h with
  | @start w j t _ ht =>
    have hsame : t.toCluster = st.shared.toCluster := toCluster_start ht
    refine ⟨none, [], fun _ _ heq => (by cases heq), ?_⟩
    rw [hsame]
    exact .refl ..
  | @serve w fault seen r next hw =>
    exact ⟨some w, seen, ⟨fault, r, next, rfl, hw⟩, hs.guarantee hw fault trivial⟩
  | @finish w seen value t _ ht =>
    have hsame : t.toCluster = st.shared.toCluster := toCluster_finish ht
    refine ⟨none, [], fun _ _ heq => (by cases heq), ?_⟩
    rw [hsame]
    exact .refl ..
  | crash ht =>
    cases ht
    exact ⟨none, [], fun _ _ heq => (by cases heq), step_crash none [] st.shared⟩
  | env ht =>
    exact ⟨none, [], fun _ _ heq => (by cases heq), step_act hs.1 he (act_of_env ht)⟩

section Sample

/-- A provisioner for caches on the disks of nodes. -/
def sampleProvisioner : StorageProvisioner where
  key := ⟨"system", "cache"⟩
  spec :=
    { name := "cache"
      deprovisionOnPodCompletion := true
      persistentVolumeTemplate := ⟨none, "", some .filesystem, .delete, none⟩
      podTemplate := ⟨[⟨"main", "manager", [], [], []⟩], [], .always⟩
      provisioner := ⟨some ["provision"], []⟩
      deprovisioner := ⟨some ["deprovision"], []⟩
      env := []
      nodes := [⟨"*", "/data"⟩] }

/-- A manager whose only provisioner is the one above. -/
def sampleConfig : Config where
  managerNamespace := "system"
  digest := .sample
  storageProvisionerToJSON _ := "cache"
  unmarshalProvisioner text :=
    if text = "cache" then .ok sampleProvisioner else .error "unexpected end of JSON input"
  referenceToJSON _ := "reference"
  substitute p _ := .ok p
  matchPattern _ _ := some true

/-- The cluster it starts in. -/
def sampleShared : Shared :=
  .initial (fun _ => some ⟨true⟩) fun name => if name = "cache" then some sampleProvisioner else none

/-- A claim for a cache. -/
def sampleClaim : PersistentVolumeClaim where
  key := ⟨"default", "data"⟩
  uid := .sample
  resourceVersion := 0
  annotations := (Annotations.empty.set annStorageProvisioner "cache").set annSelectedNode "node"
  finalizers := []
  deleting := false
  volumeName := ""
  storageClassName := some "cache"
  volumeMode := some .filesystem
  accessModes := [.readWriteOnce]
  requests := []

/-- Its volume. -/
def sampleVolume : String := pvNameForPVC sampleClaim.uid

/-- A request of a worker does not fail. -/
abbrev served (w : Worker) : ManagerEvent := .serve w ⟨none, false, false⟩

/-- A worker is started and issues requests. -/
def requests (w : Worker) (n : ℕ) : List ManagerEvent :=
  .start w () :: List.replicate n (served w)

/-- A worker is started, issues requests and returns. -/
def reconciles (w : Worker) (n : ℕ) : List ManagerEvent := requests w n ++ [.finish w]

/-- The claim gets its finalizer and its provisioner Pod, which succeeds; the claim's
controller is about to create the volume. -/
def provisioningRun : List ManagerEvent :=
  [.env (.createClaim sampleClaim)] ++ reconciles (.claim sampleClaim.key) 4 ++
    reconciles (.claim sampleClaim.key) 6 ++
    [.env (.podPhase (provisionerPodName sampleConfig sampleClaim.uid) .succeeded)] ++
    requests (.claim sampleClaim.key) 5

/-- The volume is created and the claim is deleted; the volume's controller clears the
reference to it and is about to create the deprovisioner Pod. -/
def releasingRun : List ManagerEvent :=
  provisioningRun ++ List.replicate 2 (served (.claim sampleClaim.key)) ++
    [.finish (.claim sampleClaim.key), .env (.deleteClaim sampleClaim.key)] ++
    reconciles (.claim sampleClaim.key) 5 ++ reconciles (.volume sampleVolume) 4 ++
    requests (.volume sampleVolume) 2

/-- The deprovisioner Pod succeeds, which is remembered, and is deleted; the volume's
controller is about to remove the finalizer. -/
def deprovisioningRun : List ManagerEvent :=
  releasingRun ++ [served (.volume sampleVolume),
    .finish (.volume sampleVolume),
    .env (.podPhase (deprovisionerPodName sampleConfig sampleVolume) .succeeded)] ++
    reconciles (.volume sampleVolume) 3 ++ reconciles (.volume sampleVolume) 3 ++
    requests (.volume sampleVolume) 2

/-- Steps that respect what is reserved to the manager in every state. -/
def quiet : ManagerEvent → Bool
  | .env (.createClaim c) => c.annotations.get annPVDisableDeprovisioner != "true"
  | .env (.podPhase _ _) => true
  | .env (.deleteClaim _) => true
  | .env _ => false
  | _ => true

theorem othersRespect_of_quiet {e : ManagerEvent} (h : quiet e = true) (st : ManagerState) :
    OthersRespect cfg steady st e := by
  cases e with
  | env e =>
    cases e with
    | createClaim c => simpa [quiet, OthersRespect, Respects, DisablesDeprovisioner] using h
    | podPhase key phase => trivial
    | deleteClaim key => trivial
    | _ => cases h
  | _ => trivial

/-- A quiet run and one more step, with what is checked of the states before and after. -/
theorem quiet_run (steady : Prop) (es : List ManagerEvent) (e : ManagerEvent)
    (before after : ManagerState → Bool) (hquiet : es.all quiet = true)
    (h : ((manager sampleConfig).run (idle sampleShared) es).any (fun st => before st &&
      ((manager sampleConfig).step st e).any after) = true) :
    ∃ st st', (manager sampleConfig).RunWhere (OthersRespect sampleConfig steady)
        (idle sampleShared) es st ∧ (manager sampleConfig).step st e = some st' ∧
      before st = true ∧ after st' = true := by
  rw [Option.any_eq_true] at h
  obtain ⟨st, hrun, hst⟩ := h
  rw [Bool.and_eq_true, Option.any_eq_true] at hst
  obtain ⟨hbefore, st', hstep, hafter⟩ := hst
  refine ⟨st, st', System.runWhere_of_forall ?_ hrun, hstep, hbefore, hafter⟩
  intro e' he'
  rw [List.all_eq_true] at hquiet
  exact othersRespect_of_quiet (hquiet e' he')

end Sample

section Volumes

variable {es : List ManagerEvent} {st st' : ManagerState} {e : ManagerEvent}

/-- A deprovisioner Pod is created by the controller of a volume that is being deleted,
that was not bound when it was read, and whose claim is gone. -/
theorem deprovisioner_created_for_gone_claim (hrun : Runs cfg steady es st)
    (he : OthersRespect cfg steady st e) (hstep : (manager cfg).step st e = some st')
    {name : String} {ref : ObjectReference} {pod : Pod}
    (hcreated : st.shared.provisioned name = some ref)
    (hbefore : st.shared.pods (deprovisionerPodName cfg name) = none)
    (hafter : st'.shared.pods (deprovisionerPodName cfg name) = some pod) :
    ∃ pv read seen, Takes st e (some (.volume name)) seen ∧
      st.shared.volumes name = some pv ∧ pv.deleting = true ∧
      lastVolume seen = some read ∧ read.phase ≠ .bound ∧
      ∀ key c, st.shared.claims key = some c → c.uid ≠ ref.uid := by
  have hsafe := hrun.safe
  have hi : Inv cfg steady st.shared.toCluster := hsafe.1
  have hname := hi.recorded hcreated
  obtain ⟨w, seen, htakes, hpermitted⟩ := permitted_step hsafe he hstep
  rw [hname] at hbefore hafter
  obtain ⟨pv, read, hnew⟩ := hpermitted.deprovisioner_new hbefore hafter
  have hgone := hnew.gone hi
  have hactor := hnew.actor
  have hvolume := hnew.volume
  rw [← hname] at hactor hvolume
  subst hactor
  exact ⟨pv, read, seen, htakes, hvolume, hnew.deleting, hnew.last, hnew.unbound, hgone.2⟩

theorem deprovisioner_created_for_gone_claim_released :
    ∃ (st st' : ManagerState) (ref : ObjectReference) (pod : Pod),
      Runs sampleConfig False releasingRun st ∧
      (manager sampleConfig).step st (served (.volume sampleVolume)) =
        some st' ∧
      st.shared.provisioned sampleVolume = some ref ∧
      st.shared.pods (deprovisionerPodName sampleConfig sampleVolume) = none ∧
      st'.shared.pods (deprovisionerPodName sampleConfig sampleVolume) = some pod ∧
      ∃ pv read seen,
        Takes st (served (.volume sampleVolume)) (some (.volume sampleVolume))
          seen ∧
        st.shared.volumes sampleVolume = some pv ∧ pv.deleting = true ∧
        lastVolume seen = some read ∧ read.phase ≠ .bound ∧
        ∀ key c, st.shared.claims key = some c → c.uid ≠ ref.uid := by
  obtain ⟨st, st', hrun, hstep, hbefore, hafter⟩ :=
    quiet_run False releasingRun (served (.volume sampleVolume))
      (fun st => (st.shared.provisioned sampleVolume).isSome &&
        (st.shared.pods (deprovisionerPodName sampleConfig sampleVolume)).isNone)
      (fun st => (st.shared.pods (deprovisionerPodName sampleConfig sampleVolume)).isSome)
      (by decide +kernel) (by decide +kernel)
  simp only [Bool.and_eq_true, Option.isSome_iff_exists, Option.isNone_iff_eq_none]
    at hbefore hafter
  obtain ⟨⟨ref, href⟩, hnone⟩ := hbefore
  obtain ⟨pod, hpod⟩ := hafter
  have hruns : Runs sampleConfig False releasingRun st := ⟨_, _, hrun⟩
  have he : OthersRespect sampleConfig False st (served (.volume sampleVolume)) := trivial
  exact ⟨st, st', ref, pod, hruns, hstep, href, hnone, hpod,
    deprovisioner_created_for_gone_claim hruns he hstep href hnone hpod⟩

/-- A Pod of the name has been seen `Succeeded` in a state of the run. -/
def SucceededDuring (cfg : Config) (st : ManagerState) (es : List ManagerEvent)
    (key : ObjectKey) : Prop :=
  ∃ first last mid pod, es = first ++ last ∧ (manager cfg).run st first = some mid ∧
    mid.shared.pods key = some pod ∧ pod.phase = .succeeded

/-- The record of a success is kept. -/
theorem succeeded_kept {key : ObjectKey} (hs : (lifecycle cfg steady).Safe st)
    (h : (manager cfg).RunWhere (OthersRespect cfg steady) st es st')
    (hsucceeded : st.shared.succeeded key = true) : st'.shared.succeeded key = true := by
  refine (lifecycle cfg steady).run_keeps lifecycle_respected admits_of_othersRespect h
    (fun st => st.shared.succeeded key = true) ?_ hs hsucceeded
  intro mid e next hsafe he hstep hmid
  obtain ⟨w, seen, -, hpermitted⟩ := permitted_step hsafe he hstep
  exact hpermitted.succeeded hmid

/-- What is recorded as succeeded has been seen `Succeeded`. -/
theorem succeededDuring_of_recorded {key : ObjectKey} (hs : (lifecycle cfg steady).Safe st)
    (h : (manager cfg).RunWhere (OthersRespect cfg steady) st es st')
    (hbefore : st.shared.succeeded key = false) (hafter : st'.shared.succeeded key = true) :
    SucceededDuring cfg st es key := by
  have hnot : ¬ st.shared.succeeded key = true := by
    rw [hbefore]
    exact Bool.false_ne_true
  have hchanged := h.brought_about (fun st => st.shared.succeeded key = true) hnot hafter
  obtain ⟨first, e, last, mid, next, hes, hfirst, he, hstep, hall, hmid, hnext⟩ := hchanged
  obtain ⟨w, seen, -, hpermitted⟩ := permitted_step (safe_of_runWhere hs hfirst) he hstep
  rcases hpermitted.recorded hnext with htrue | ⟨pod, hpod, hphase⟩
  · exact absurd htrue hmid
  · exact ⟨first ++ [e], last, next, pod, hes, hall, hpod, hphase⟩

/-- What has been seen `Succeeded` is recorded. -/
theorem recorded_of_succeededDuring {key : ObjectKey} (hs : (lifecycle cfg steady).Safe st)
    (h : (manager cfg).RunWhere (OthersRespect cfg steady) st es st')
    (hsucceeded : SucceededDuring cfg st es key) : st'.shared.succeeded key = true := by
  obtain ⟨first, last, mid, pod, hes, hfirst, hpod, hphase⟩ := hsucceeded
  subst hes
  obtain ⟨mid', hmid', hrun₁, hrun₂⟩ := h.split
  rw [hfirst] at hmid'
  have heq : mid = mid' := Option.some.inj hmid'
  subst heq
  have hsafe := safe_of_runWhere hs hrun₁
  exact succeeded_kept hsafe hrun₂ (hsafe.1.pod_succeeded hpod hphase)

/-- The finalizer of a volume is removed after its deprovisioner Pod has succeeded and is
gone, and no deprovisioner Pod is created after one has succeeded. -/
theorem volume_deprovisioned_once {storageClasses : String → Option StorageClass}
    {provisioners : String → Option StorageProvisioner}
    (hrun : (manager cfg).RunWhere (OthersRespect cfg steady)
      (idle (Shared.initial storageClasses provisioners)) es st)
    (he : OthersRespect cfg steady st e) (hstep : (manager cfg).step st e = some st')
    {name : String} {ref : ObjectReference}
    (hcreated : st.shared.provisioned name = some ref) :
    (∀ pv, st.shared.volumes name = some pv → finalizer ∈ pv.finalizers →
      (∀ pv', st'.shared.volumes name = some pv' → finalizer ∉ pv'.finalizers) →
      SucceededDuring cfg (idle (Shared.initial storageClasses provisioners)) es
          (deprovisionerPodName cfg name) ∧
        st.shared.pods (deprovisionerPodName cfg name) = none) ∧
    (SucceededDuring cfg (idle (Shared.initial storageClasses provisioners)) es
        (deprovisionerPodName cfg name) →
      st.shared.pods (deprovisionerPodName cfg name) = none →
      st'.shared.pods (deprovisionerPodName cfg name) = none) := by
  have hinitial : (lifecycle cfg steady).Safe (idle (Shared.initial storageClasses provisioners)) :=
    safe_initial storageClasses provisioners
  have hsafe := safe_of_runWhere hinitial hrun
  have hi : Inv cfg steady st.shared.toCluster := hsafe.1
  have hname := hi.recorded hcreated
  obtain ⟨w, seen, htakes, hpermitted⟩ := permitted_step hsafe he hstep
  constructor
  · intro pv hpv hf hremoved
    have hchange := hpermitted.volumes name
    rw [hpv] at hchange
    obtain ⟨-, hdisabled, hnone⟩ := hchange.released hf hremoved
    have hrecorded := hi.disabled hpv hdisabled
    exact ⟨succeededDuring_of_recorded hinitial hrun rfl hrecorded, hnone⟩
  · intro hsucceeded hnone
    have hrecorded := recorded_of_succeededDuring hinitial hrun hsucceeded
    cases hafter : st'.shared.pods (deprovisionerPodName cfg name) with
    | none => rfl
    | some pod =>
      have hbefore := hnone
      rw [hname] at hbefore hafter
      obtain ⟨pv, read, hnew⟩ := hpermitted.deprovisioner_new hbefore hafter
      rw [← hname] at hnew
      rcases hi.once hnew.volume hnew.managed hrecorded with hdisabled | ⟨pod', hpod', -⟩
      · rw [hnew.due] at hdisabled
        cases hdisabled
      · rw [hnone] at hpod'
        cases hpod'

theorem volume_deprovisioned_once_released :
    ∃ (st st' : ManagerState) (ref : ObjectReference) (pv : PersistentVolume),
      Runs sampleConfig False deprovisioningRun st ∧
      (manager sampleConfig).step st (served (.volume sampleVolume)) = some st' ∧
      st.shared.provisioned sampleVolume = some ref ∧
      st.shared.volumes sampleVolume = some pv ∧ finalizer ∈ pv.finalizers ∧
      st'.shared.volumes sampleVolume = none ∧
      SucceededDuring sampleConfig (idle sampleShared) deprovisioningRun
        (deprovisionerPodName sampleConfig sampleVolume) ∧
      st.shared.pods (deprovisionerPodName sampleConfig sampleVolume) = none := by
  obtain ⟨st, st', hrun, hstep, hbefore, hafter⟩ :=
    quiet_run False deprovisioningRun (served (.volume sampleVolume))
      (fun st => (st.shared.provisioned sampleVolume).isSome &&
        (st.shared.volumes sampleVolume).any fun pv => hasString pv.finalizers finalizer)
      (fun st => (st.shared.volumes sampleVolume).isNone)
      (by decide +kernel) (by decide +kernel)
  simp only [Bool.and_eq_true, Option.isSome_iff_exists, Option.isNone_iff_eq_none,
    Option.any_eq_true, hasString_iff] at hbefore hafter
  obtain ⟨⟨ref, href⟩, pv, hpv, hf⟩ := hbefore
  have hruns : Runs sampleConfig False deprovisioningRun st := ⟨_, _, hrun⟩
  have he : OthersRespect sampleConfig False st (served (.volume sampleVolume)) := trivial
  have hremoved : ∀ pv', st'.shared.volumes sampleVolume = some pv' →
      finalizer ∉ pv'.finalizers := by
    intro pv' hpv'
    rw [hafter] at hpv'
    cases hpv'
  have honce := (volume_deprovisioned_once hrun he hstep href).1 pv hpv hf hremoved
  exact ⟨st, st', ref, pv, hruns, hstep, href, hpv, hf, hafter, honce⟩

end Volumes

section Claims

variable {es : List ManagerEvent} {st st' : ManagerState} {e : ManagerEvent}

/-- The life of a claim: in a steady cluster the manager creates its volume when its
provisioner Pod is there and has succeeded; no provisioner Pod is created while the volume
exists; the finalizer is removed when the Pod is gone and the volume is gone, deleted or to
be kept; and the claim's controller does not delete a volume that is to be kept. -/
theorem claim_lifecycle (hrun : Runs cfg steady es st) (he : OthersRespect cfg steady st e)
    (hstep : (manager cfg).step st e = some st') (u : UID) :
    (steady → ∀ w fault, e = .serve w fault → st.shared.volumes (pvNameForPVC u) = none →
      st'.shared.volumes (pvNameForPVC u) ≠ none →
      ∃ pod, st.shared.pods (provisionerPodName cfg u) = some pod ∧ pod.phase = .succeeded) ∧
    (st.shared.pods (provisionerPodName cfg u) = none →
      st'.shared.pods (provisionerPodName cfg u) ≠ none →
      st.shared.volumes (pvNameForPVC u) = none) ∧
    (∀ key c, st.shared.claims key = some c → c.uid = u → finalizer ∈ c.finalizers →
      (∀ c', st'.shared.claims key = some c' → finalizer ∉ c'.finalizers) →
      st.shared.pods (provisionerPodName cfg u) = none ∧
        ∀ pv, st.shared.volumes (pvNameForPVC u) = some pv →
          pv.deleting = true ∨ pv.spec.reclaimPolicy ≠ .delete) ∧
    (∀ key fault name pv, e = .serve (.claim key) fault → st.shared.volumes name = some pv →
      pv.deleting = false → pv.spec.reclaimPolicy ≠ .delete →
      ∃ pv', st'.shared.volumes name = some pv' ∧ pv'.deleting = false) := by
  have hsafe := hrun.safe
  have hi : Inv cfg steady st.shared.toCluster := hsafe.1
  obtain ⟨w, seen, htakes, hpermitted⟩ := permitted_step hsafe he hstep
  refine ⟨?_, ?_, ?_, ?_⟩
  · intro hsteady v fault hserve hnone hsome
    obtain ⟨pv, hpv⟩ := Option.ne_none_iff_exists'.mp hsome
    have hchange := hpermitted.volumes (pvNameForPVC u)
    rw [hnone, hpv] at hchange
    rcases hchange.of_some with hsame | ⟨_, hbefore, _⟩ | ⟨_, hforeign | ⟨_, c, _, hnew⟩⟩
    · cases hsame
    · cases hbefore
    · have hactor := hforeign.actor
      subst hactor
      exact absurd hserve (htakes v fault)
    · obtain ⟨pod, hpod, hphase⟩ := hnew.succeeded hsteady
      rw [← pvNameForPVC_injective hnew.name_eq] at hpod
      exact ⟨pod, hpod, hphase⟩
  · intro hnone hsome
    obtain ⟨pod, hpod⟩ := Option.ne_none_iff_exists'.mp hsome
    obtain ⟨owner, c, huid, hnew⟩ := hpermitted.provisioner_new hnone hpod
    have habsent := hnew.absent
    rw [huid] at habsent
    exact habsent
  · intro key c hc huid hf hremoved
    have hchange := hpermitted.claims key
    rw [hc] at hchange
    obtain ⟨-, -, hnone, hletGo⟩ := hchange.released hf hremoved
    rw [huid] at hnone hletGo
    exact ⟨hnone, hletGo⟩
  · intro key fault name pv hserve hpv hkept hpolicy
    have hchange := hpermitted.volumes name
    subst hserve
    rw [hpv, htakes.eq_worker] at hchange
    exact hchange.not_deleted hkept hpolicy

theorem claim_lifecycle_provisioned :
    ∃ (st st' : ManagerState) (pod : Pod),
      Runs sampleConfig True provisioningRun st ∧
      (manager sampleConfig).step st (served (.claim sampleClaim.key)) = some st' ∧
      st.shared.volumes sampleVolume = none ∧ st'.shared.volumes sampleVolume ≠ none ∧
      st.shared.pods (provisionerPodName sampleConfig sampleClaim.uid) = some pod ∧
      pod.phase = .succeeded := by
  obtain ⟨st, st', hrun, hstep, hbefore, hafter⟩ :=
    quiet_run True provisioningRun (served (.claim sampleClaim.key))
      (fun st => (st.shared.volumes sampleVolume).isNone)
      (fun st => (st.shared.volumes sampleVolume).isSome)
      (by decide +kernel) (by decide +kernel)
  rw [Option.isNone_iff_eq_none] at hbefore
  rw [Option.isSome_iff_ne_none] at hafter
  have hruns : Runs sampleConfig True provisioningRun st := ⟨_, _, hrun⟩
  have he : OthersRespect sampleConfig True st (served (.claim sampleClaim.key)) := trivial
  obtain ⟨pod, hpod, hphase⟩ := (claim_lifecycle hruns he hstep sampleClaim.uid).1 trivial _ _ rfl
    hbefore hafter
  exact ⟨st, st', pod, hruns, hstep, hbefore, hafter, hpod, hphase⟩

end Claims

end K8StorageX.ManagerGuarantees
