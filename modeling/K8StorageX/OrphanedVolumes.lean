import K8StorageX.ManagerGuarantees
import Mathlib.Data.List.Infix

/-!
# Volumes that are never recorded

What a provisioner Pod has left on a node is found again through the persistent
volume its claim's controller creates when the Pod has succeeded. A claim that is
deleted in between goes without a volume. The module shows that this is the only
way: if no claim is deleted between the success of its Pod and the creation of its
volume, and no Pod succeeds for a deleted claim without a volume, then every
released claim whose Pod has succeeded has had its volume.
-/

namespace K8StorageX.OrphanedVolumes

open ApiProgram WorkerPool KubeObjects ProvisionerPods KubeApi ManagerSystem Lifecycle
open VolumeController ControllerRules ManagerGuarantees

variable {cfg : Config} {steady : Prop} {st st' : ManagerState} {e : ManagerEvent}
variable {es : List ManagerEvent} {s t : Cluster}

/-- The claims and the records of volumes and Pods are the same. -/
structure SameClaims (s t : Cluster) : Prop where
  /-- Claims -/
  claims : t.claims = s.claims
  /-- Volumes that have been created for claims -/
  provisioned : t.provisioned = s.provisioned
  /-- Pods that have succeeded -/
  succeeded : t.succeeded = s.succeeded

/-- Nothing has changed. -/
theorem SameClaims.refl (s : Cluster) : SameClaims s s := ⟨rfl, rfl, rfl⟩

/-- The same cluster has the same claims and records. -/
theorem SameClaims.of_eq (h : t = s) : SameClaims s t := by
  subst h
  exact .refl t

/-- Deleting a volume changes no claim and no record. -/
theorem sameClaims_markVolume (s : Cluster) (pv : PersistentVolume) :
    SameClaims s (s.markVolume pv) := by
  rw [Cluster.markVolume]
  split
  · exact .refl s
  · exact ⟨rfl, rfl, rfl⟩

/-- Nor does deleting a Pod. -/
theorem sameClaims_markPod (s : Cluster) (graceful : Bool) (pod : Pod) :
    SameClaims s (s.markPod graceful pod) := by
  rw [Cluster.markPod]
  split
  · exact ⟨rfl, rfl, rfl⟩
  · exact ⟨rfl, rfl, rfl⟩

/-- The step deletes the claim of a name. -/
def Deletes (st : ManagerState) (key : ObjectKey) : ManagerEvent → Prop
  | .env action => action = .deleteClaim key
  | .serve w _ => ∃ seen next, st.running w = some ⟨seen, .call (.deleteClaim key) next⟩
  | _ => False

/-- What a step does to claims and to the records of volumes and Pods. -/
inductive Changes (st : ManagerState) : ManagerEvent → Cluster → Prop where
  /-- Nothing. -/
  | nothing {e : ManagerEvent} {t : Cluster} (same : SameClaims st.shared.toCluster t) :
      Changes st e t
  /-- A claim is created. -/
  | created {e : ManagerEvent} {t : Cluster} {c : PersistentVolumeClaim} (kept : c.deleting = false)
      (same : SameClaims (st.shared.putClaim c) t) : Changes st e t
  /-- A claim is changed. -/
  | updated {e : ManagerEvent} {c stored : PersistentVolumeClaim}
      (found : st.shared.claims c.key = some stored) (uid : stored.uid = c.uid)
      (deleting : stored.deleting = c.deleting) : Changes st e (st.shared.putClaim c)
  /-- A claim is deleted. -/
  | deleted {e : ManagerEvent} {key : ObjectKey} {c : PersistentVolumeClaim}
      (found : st.shared.claims key = some c) (deletes : Deletes st key e) :
      Changes st e (st.shared.markClaim c)
  /-- The volume of a claim is created. -/
  | provisioned {e : ManagerEvent} {pv : PersistentVolume} :
      Changes st e (st.shared.provision pv)
  /-- A Pod succeeds. -/
  | succeeded {key : ObjectKey} {t : Cluster} (claims : t.claims = st.shared.claims)
      (provisioned : t.provisioned = st.shared.provisioned)
      (succeeded : t.succeeded = Function.update st.shared.succeeded key true) :
      Changes st (.env (.podPhase key .succeeded)) t

/-- What a request does is one of the listed changes. -/
theorem Changes.of_effect (hi : Inv cfg steady st.shared.toCluster) {w : Worker} {fault : Fault}
    {seen : Record Req Resp} {r : Req} {next : Resp r → Controller ClaimController.Outcome}
    (hpending : st.running w = some ⟨seen, .call r next⟩)
    (h : Cluster.Effect st.shared.toCluster fault.graceful r t) :
    Changes st (.serve w fault) t := by
  cases h with
  | @updateClaim written stored hstored =>
    rw [← (hi.claim hstored).1] at hstored
    have hfound : st.shared.claims (Cluster.mergeClaim stored written).key = some stored := hstored
    exact .updated hfound rfl rfl
  | @updateClaimStatus written stored hstored =>
    rw [← (hi.claim hstored).1] at hstored
    have hfound : st.shared.claims (Cluster.mergeClaimStatus stored written).key = some stored :=
      hstored
    exact .updated hfound rfl rfl
  | deleteClaim hc => exact .deleted hc ⟨seen, next, hpending⟩
  | createVolume => exact .provisioned
  | updateVolume => exact .nothing ⟨rfl, rfl, rfl⟩
  | updateVolumeStatus => exact .nothing ⟨rfl, rfl, rfl⟩
  | deleteVolume => exact .nothing (sameClaims_markVolume _ _)
  | createPod => exact .nothing ⟨rfl, rfl, rfl⟩
  | deletePod => exact .nothing (sameClaims_markPod _ _ _)

/-- So is what others do. -/
theorem Changes.of_acts (hi : Inv cfg steady st.shared.toCluster) {action : Env}
    (h : Acts st.shared.toCluster action t) : Changes st (.env action) t := by
  cases h with
  | @createClaim c =>
    have hkept : { c with deleting := false }.deleting = false := rfl
    exact .created hkept ⟨rfl, rfl, rfl⟩
  | @editClaim written stored hstored =>
    rw [← (hi.claim hstored).1] at hstored
    have hfound : st.shared.claims (Cluster.mergeClaim stored written).key = some stored := hstored
    exact .updated hfound rfl rfl
  | deleteClaim hc => exact .deleted hc rfl
  | deleteVolume => exact .nothing (sameClaims_markVolume _ _)
  | podPhase =>
    split
    · next hphase =>
      subst hphase
      exact .succeeded rfl rfl rfl
    · exact .nothing ⟨rfl, rfl, rfl⟩
  | deletePod => exact .nothing (sameClaims_markPod _ _ _)
  | _ => exact .nothing ⟨rfl, rfl, rfl⟩

/-- So is what any step of the manager does. -/
theorem changes_of_step (hi : Inv cfg steady st.shared.toCluster)
    (h : (manager cfg).step st e = some st') : Changes st e st'.shared.toCluster := by
  cases System.taken_of_step h with
  | start _ ht => exact .nothing (.of_eq (toCluster_start ht))
  | @serve w fault seen r next hw =>
    rcases serve_effect st.shared.toCluster fault r with hsame | heffect
    · exact .nothing (.of_eq hsame)
    · exact .of_effect hi hw heffect
  | finish _ ht => exact .nothing (.of_eq (toCluster_finish ht))
  | crash ht =>
    cases ht
    exact .nothing ⟨rfl, rfl, rfl⟩
  | env ht => exact .of_acts hi (acts_of_act (act_of_env ht))

section Inversion

variable {key : ObjectKey} {c' : PersistentVolumeClaim}

/-- A claim that is being deleted was being deleted, or the step deletes it. -/
theorem Changes.deleting (hi : Inv cfg steady st.shared.toCluster) (h : Changes st e t)
    (hc' : t.claims key = some c') (hd : c'.deleting = true) :
    ∃ c, st.shared.claims key = some c ∧ c.uid = c'.uid ∧
      (c.deleting = true ∨ Deletes st key e) := by
  cases h with
  | nothing hsame =>
    rw [hsame.claims] at hc'
    exact ⟨c', hc', rfl, Or.inl hd⟩
  | created hkept hsame =>
    rw [hsame.claims] at hc'
    rcases Cluster.of_claims_putClaim hc' with ⟨-, hnew⟩ | hold
    · rw [hnew, hkept] at hd
      cases hd
    · exact ⟨c', hold, rfl, Or.inl hd⟩
  | @updated _ c stored hfound huid hdeleting =>
    rcases Cluster.of_claims_putClaim hc' with ⟨hkey, hnew⟩ | hold
    · subst hkey hnew
      exact ⟨stored, hfound, huid, Or.inl (hdeleting.trans hd)⟩
    · exact ⟨c', hold, rfl, Or.inl hd⟩
  | @deleted _ deleted c hfound hdeletes =>
    rw [Cluster.markClaim] at hc'
    split at hc'
    · exact ⟨c', hc', rfl, Or.inl hd⟩
    · rcases Cluster.of_claims_putClaim hc' with ⟨hkey, hnew⟩ | hold
      · have hkey' : key = deleted := hkey.trans (hi.claim hfound).1
        subst hkey' hnew
        exact ⟨c, hfound, rfl, Or.inr hdeletes⟩
      · exact ⟨c', hold, rfl, Or.inl hd⟩
  | provisioned => exact ⟨c', hc', rfl, Or.inl hd⟩
  | succeeded hclaims =>
    rw [hclaims] at hc'
    exact ⟨c', hc', rfl, Or.inl hd⟩

/-- A deletion of a claim leaves the records alone. -/
theorem sameRecords_markClaim (s : Cluster) (c : PersistentVolumeClaim) :
    (s.markClaim c).provisioned = s.provisioned ∧ (s.markClaim c).succeeded = s.succeeded := by
  rw [Cluster.markClaim]
  split
  · exact ⟨rfl, rfl⟩
  · exact ⟨rfl, rfl⟩

/-- A Pod is recorded as succeeded when it gets into that phase. -/
theorem Changes.success (h : Changes st e t) (hsucceeded : t.succeeded key = true) :
    st.shared.succeeded key = true ∨ e = .env (.podPhase key .succeeded) := by
  cases h with
  | nothing hsame =>
    rw [hsame.succeeded] at hsucceeded
    exact Or.inl hsucceeded
  | created _ hsame =>
    rw [hsame.succeeded] at hsucceeded
    exact Or.inl hsucceeded
  | updated => exact Or.inl hsucceeded
  | deleted =>
    rw [(sameRecords_markClaim _ _).2] at hsucceeded
    exact Or.inl hsucceeded
  | provisioned => exact Or.inl hsucceeded
  | @succeeded pod _ _ _ hrecord =>
    by_cases hkey : key = pod
    · subst hkey
      exact Or.inr rfl
    · rw [hrecord, Function.update_of_ne hkey] at hsucceeded
      exact Or.inl hsucceeded

/-- A volume is recorded when it is created for its claim. -/
theorem Changes.creation (h : Changes st e t) {name : String} {ref : ObjectReference}
    (hprovisioned : t.provisioned name = some ref) :
    st.shared.provisioned name = some ref ∨
      ∃ pv, t.volumes name = some pv ∧ pv.spec.claimRef = some ref := by
  cases h with
  | nothing hsame =>
    rw [hsame.provisioned] at hprovisioned
    exact Or.inl hprovisioned
  | created _ hsame =>
    rw [hsame.provisioned] at hprovisioned
    exact Or.inl hprovisioned
  | updated => exact Or.inl hprovisioned
  | deleted =>
    rw [(sameRecords_markClaim _ _).1] at hprovisioned
    exact Or.inl hprovisioned
  | @provisioned _ pv =>
    by_cases hname : name = pv.name
    · subst hname
      simp only [Cluster.provision, Function.update_self] at hprovisioned
      refine Or.inr ⟨{ pv with
        deleting := false, phase := .pending, resourceVersion := st.shared.revision + 1 }, ?_,
        hprovisioned⟩
      simp only [Cluster.provision, Cluster.putVolume, Function.update_self, Bool.false_and,
        Bool.false_eq_true, if_false]
    · simp only [Cluster.provision, Function.update_of_ne hname] at hprovisioned
      exact Or.inl hprovisioned
  | succeeded _ hrecord =>
    rw [hrecord] at hprovisioned
    exact Or.inl hprovisioned

end Inversion

/-- No claim is deleted between the success of its provisioner Pod and the creation of its
volume, and no provisioner Pod succeeds whose claim has been deleted without a volume. -/
structure Timely (cfg : Config) (st : ManagerState) (e : ManagerEvent) : Prop where
  /-- The volume has been created when the claim of a Pod that has succeeded is deleted. -/
  deletion : ∀ {key c}, Deletes st key e → st.shared.claims key = some c → c.deleting = false →
    st.shared.succeeded (provisionerPodName cfg c.uid) = true →
    st.shared.provisioned (pvNameForPVC c.uid) ≠ none
  /-- The volume has been created when the Pod of a deleted claim succeeds. -/
  success : ∀ {u key c}, e = .env (.podPhase (provisionerPodName cfg u) .succeeded) →
    st.shared.issued u = some key → st.shared.claims key = some c → c.uid = u →
    c.deleting = true → st.shared.provisioned (pvNameForPVC u) ≠ none

/-- The volume of every deleted claim whose provisioner Pod has succeeded has been created. -/
def Recorded (cfg : Config) (s : Cluster) : Prop :=
  ∀ key c, s.claims key = some c → c.deleting = true →
    s.succeeded (provisionerPodName cfg c.uid) = true → s.provisioned (pvNameForPVC c.uid) ≠ none

/-- The record of a volume stays. -/
theorem provisioned_kept {w : Option Worker} {seen : Record Req Resp}
    (h : Step cfg steady w seen s t) {name : String} (hname : s.provisioned name ≠ none) :
    t.provisioned name ≠ none := by
  rcases h.provisioned name with hsame | ⟨-, ref, hnew, -⟩
  · rw [hsame]
    exact hname
  · rw [hnew]
    exact Option.some_ne_none ref

/-- A timely step keeps the volumes of deleted claims recorded. -/
theorem Recorded.step (hr : Recorded cfg st.shared.toCluster)
    (hs : (lifecycle cfg steady).Safe st) (he : OthersRespect cfg steady st e)
    (htimely : Timely cfg st e) (hstep : (manager cfg).step st e = some st') :
    Recorded cfg st'.shared.toCluster := by
  intro key c' hc' hd' hsucceeded
  have hi : Inv cfg steady st.shared.toCluster := hs.1
  have hchanges := changes_of_step hi hstep
  obtain ⟨w, seen, -, hpermitted⟩ := permitted_step hs he hstep
  obtain ⟨c, hc, huid, hd⟩ := hchanges.deleting hi hc' hd'
  rw [← huid] at hsucceeded ⊢
  refine provisioned_kept hpermitted ?_
  rcases hchanges.success hsucceeded with hbefore | hphase
  · -- The Pod had succeeded: the claim had been deleted or is deleted in time.
    cases hdeleting : c.deleting with
    | true => exact hr key c hc hdeleting hbefore
    | false =>
      rcases hd with hd | hdeletes
      · rw [hdeleting] at hd
        cases hd
      · exact htimely.deletion hdeletes hc hdeleting hbefore
  · -- The Pod succeeds, so that nothing is deleted by the same step.
    rcases hd with hd | hdeletes
    · exact htimely.success hphase (hi.claim hc).2 hc rfl hd
    · subst hphase
      cases hdeletes

/-- A run in which others respect the manager and claims are deleted in time. -/
abbrev TimelyRun (cfg : Config) (steady : Prop) (st : ManagerState) (es : List ManagerEvent)
    (st' : ManagerState) : Prop :=
  (manager cfg).RunWhere (fun st e => OthersRespect cfg steady st e ∧ Timely cfg st e) st es st'

/-- So does a timely run. -/
theorem recorded_of_timelyRun (hs : (lifecycle cfg steady).Safe st)
    (hr : Recorded cfg st.shared.toCluster) (h : TimelyRun cfg steady st es st') :
    Recorded cfg st'.shared.toCluster := by
  refine (lifecycle cfg steady).run_keeps lifecycle_respected
    (fun st e he => admits_of_othersRespect st e he.1) h
    (fun st => Recorded cfg st.shared.toCluster) ?_ hs hr
  intro mid e next hsafe he hstep hmid
  exact hmid.step hsafe he.1 he.2 hstep

/-- The volume of a claim, with a reference to the claim, has been seen in a state of the
run. -/
def CreatedDuring (cfg : Config) (st : ManagerState) (es : List ManagerEvent) (u : UID) : Prop :=
  ∃ first last mid pv ref, es = first ++ last ∧ (manager cfg).run st first = some mid ∧
    mid.shared.volumes (pvNameForPVC u) = some pv ∧ pv.spec.claimRef = some ref ∧ ref.uid = u

/-- What is recorded as created has been seen. -/
theorem createdDuring_of_recorded {u : UID} (hs : (lifecycle cfg steady).Safe st)
    (h : (manager cfg).RunWhere (OthersRespect cfg steady) st es st')
    (hbefore : st.shared.provisioned (pvNameForPVC u) = none)
    (hafter : st'.shared.provisioned (pvNameForPVC u) ≠ none) : CreatedDuring cfg st es u := by
  have hchanged := h.brought_about
    (fun st => st.shared.provisioned (pvNameForPVC u) ≠ none) (not_not_intro hbefore) hafter
  obtain ⟨first, e, last, mid, next, hes, hfirst, he, hstep, hall, hmid, hnext⟩ := hchanged
  have hsafe := safe_of_runWhere hs hfirst
  have hsafe' := (lifecycle cfg steady).step_safe lifecycle_respected hsafe
    (admits_of_othersRespect mid e he) hstep
  obtain ⟨ref, href⟩ := Option.ne_none_iff_exists'.mp hnext
  have hname := hsafe'.1.recorded href
  rcases (changes_of_step hsafe.1 hstep).creation href with hold | ⟨pv, hpv, hclaimRef⟩
  · rw [not_not.mp hmid] at hold
    cases hold
  · exact ⟨first ++ [e], last, next, pv, ref, hes, hall, hpv, hclaimRef,
      (pvNameForPVC_injective hname).symm⟩

/-- If claims are deleted in time, the finalizer is removed from a claim whose provisioner
Pod has succeeded only after the volume of the claim has been created. -/
theorem released_claim_has_had_volume {storageClasses : String → Option StorageClass}
    {provisioners : String → Option StorageProvisioner}
    (hrun : TimelyRun cfg steady (idle (Shared.initial storageClasses provisioners)) es st)
    (he : OthersRespect cfg steady st e) (hstep : (manager cfg).step st e = some st')
    {key : ObjectKey} {c : PersistentVolumeClaim} (hc : st.shared.claims key = some c)
    (hf : finalizer ∈ c.finalizers)
    (hremoved : ∀ c', st'.shared.claims key = some c' → finalizer ∉ c'.finalizers)
    (hsucceeded : SucceededDuring cfg (idle (Shared.initial storageClasses provisioners)) es
      (provisionerPodName cfg c.uid)) :
    CreatedDuring cfg (idle (Shared.initial storageClasses provisioners)) es c.uid := by
  have hinitial : (lifecycle cfg steady).Safe (idle (Shared.initial storageClasses provisioners)) :=
    safe_initial storageClasses provisioners
  have hrespect : (manager cfg).RunWhere (OthersRespect cfg steady)
      (idle (Shared.initial storageClasses provisioners)) es st := hrun.mono fun _ _ h => h.1
  have hsafe := safe_of_runWhere hinitial hrespect
  obtain ⟨w, seen, -, hpermitted⟩ := permitted_step hsafe he hstep
  have hchange := hpermitted.claims key
  rw [hc] at hchange
  obtain ⟨-, hdeleting, -⟩ := hchange.released hf hremoved
  have hempty : Recorded cfg (Shared.initial storageClasses provisioners).toCluster := by
    intro key c hc
    cases hc
  have hrecorded := recorded_of_timelyRun hinitial hempty hrun
  have hsuccess := recorded_of_succeededDuring hinitial hrespect hsucceeded
  exact createdDuring_of_recorded hinitial hrespect rfl (hrecorded key c hc hdeleting hsuccess)

section Sample

/-- The volume is created and the claim is deleted; the claim's controller is about to
remove the finalizer. -/
def recordedRun : List ManagerEvent :=
  provisioningRun ++ List.replicate 2 (served (.claim sampleClaim.key)) ++
    [.finish (.claim sampleClaim.key), .env (.deleteClaim sampleClaim.key)] ++
    requests (.claim sampleClaim.key) 4

/-- The claim is deleted when the provisioner Pod has succeeded. Its controller deletes the
Pod and, by the next reconcile, is about to remove the finalizer. -/
def orphaningRun : List ManagerEvent :=
  [.env (.createClaim sampleClaim)] ++ reconciles (.claim sampleClaim.key) 4 ++
    reconciles (.claim sampleClaim.key) 6 ++
    [.env (.podPhase (provisionerPodName sampleConfig sampleClaim.uid) .succeeded),
      .env (.deleteClaim sampleClaim.key)] ++
    reconciles (.claim sampleClaim.key) 3 ++ requests (.claim sampleClaim.key) 3

/-- The request of a worker does not delete a claim. -/
def deletesNothing (st : ManagerState) (w : Worker) : Bool :=
  match st.running w with
  | some ⟨_, .call (.deleteClaim _) _⟩ => false
  | _ => true

/-- Claims are deleted in time, as far as the claim above is concerned. -/
def timely (st : ManagerState) : ManagerEvent → Bool
  | .env (.deleteClaim key) => (st.shared.claims key).all fun c =>
      (st.shared.provisioned (pvNameForPVC c.uid)).isSome
  | .env (.podPhase key _) => key == provisionerPodName sampleConfig sampleClaim.uid &&
      st.shared.issued sampleClaim.uid == some sampleClaim.key &&
      (st.shared.claims sampleClaim.key).all fun c => !c.deleting
  | .serve w _ => deletesNothing st w
  | _ => true

/-- A request that passes the check deletes no claim. -/
theorem not_deletes_of_deletesNothing {w : Worker} {fault : Fault}
    (h : deletesNothing st w = true) (key : ObjectKey) : ¬ Deletes st key (.serve w fault) := by
  rintro ⟨seen, next, hw⟩
  rw [deletesNothing, hw] at h
  cases h

/-- A change of a Pod's phase that passes the check is timely. -/
theorem timely_podPhase {key : ObjectKey} {phase : PodPhase}
    (h : timely st (.env (.podPhase key phase)) = true) :
    Timely sampleConfig st (.env (.podPhase key phase)) where
  deletion hdeletes := (by cases hdeletes)
  success {u owner c} heq hissued hc huid hd := by
    simp only [timely, Bool.and_eq_true, beq_iff_eq, Option.all_eq_true,
      Bool.not_eq_true_eq_eq_false] at h
    obtain ⟨⟨hkey, howner⟩, hkept⟩ := h
    injection heq with heq
    injection heq with heq
    have hu : u = sampleClaim.uid := provisionerPodName_injective (heq.symm.trans hkey)
    rw [hu, howner] at hissued
    rw [← Option.some.inj hissued] at hc
    rw [hkept c hc] at hd
    cases hd

/-- Every step that passes the check is timely. -/
theorem timely_of_check (h : timely st e = true) : Timely sampleConfig st e := by
  cases e with
  | env action =>
    cases action with
    | podPhase key phase => exact timely_podPhase h
    | deleteClaim key =>
      refine ⟨?_, fun heq => (by cases heq)⟩
      intro key' c hdeletes hc _ _
      have hkey : key = key' := by
        injection hdeletes
      subst hkey
      have hsome := (Option.all_eq_true _ _).mp h c hc
      exact Option.isSome_iff_ne_none.mp hsome
    | _ => exact ⟨fun hdeletes => (by cases hdeletes), fun heq => (by cases heq)⟩
  | serve w fault =>
    exact ⟨fun {key _} hdeletes => absurd hdeletes (not_deletes_of_deletesNothing h key),
      fun heq => (by cases heq)⟩
  | _ => exact ⟨False.elim, fun heq => (by cases heq)⟩

/-- The sample claim is deleted after its volume has been created. -/
theorem released_claim_has_had_volume_recorded :
    ∃ (st st' : ManagerState) (c : PersistentVolumeClaim),
      TimelyRun sampleConfig False (idle sampleShared) recordedRun st ∧
      (manager sampleConfig).step st (served (.claim sampleClaim.key)) = some st' ∧
      st.shared.claims sampleClaim.key = some c ∧ finalizer ∈ c.finalizers ∧
      st'.shared.claims sampleClaim.key = none ∧
      SucceededDuring sampleConfig (idle sampleShared) recordedRun
        (provisionerPodName sampleConfig c.uid) ∧
      CreatedDuring sampleConfig (idle sampleShared) recordedRun c.uid := by
  have hchecked : ((manager sampleConfig).runIf (fun st e => quiet e && timely st e)
      (idle sampleShared) recordedRun).any (fun st =>
        ((st.shared.claims sampleClaim.key).any fun c => hasString c.finalizers finalizer &&
          st.shared.succeeded (provisionerPodName sampleConfig c.uid)) &&
        ((manager sampleConfig).step st (served (.claim sampleClaim.key))).any fun st' =>
          (st'.shared.claims sampleClaim.key).isNone) = true := by
    decide +kernel
  simp only [Option.any_eq_true, Bool.and_eq_true, hasString_iff, Option.isNone_iff_eq_none]
    at hchecked
  obtain ⟨st, hrunIf, ⟨c, hc, hf, hrecorded⟩, st', hstep, hnone⟩ := hchecked
  have hrun : TimelyRun sampleConfig False (idle sampleShared) recordedRun st := by
    refine System.runWhere_of_runIf (fun st e h => ?_) hrunIf
    rw [Bool.and_eq_true] at h
    exact ⟨othersRespect_of_quiet h.1 st, timely_of_check h.2⟩
  have hsucceeded : SucceededDuring sampleConfig (idle sampleShared) recordedRun
      (provisionerPodName sampleConfig c.uid) :=
    succeededDuring_of_recorded (safe_initial _ _) (hrun.mono fun _ _ h => h.1) rfl hrecorded
  have hremoved : ∀ c', st'.shared.claims sampleClaim.key = some c' →
      finalizer ∉ c'.finalizers := by
    intro c' hc'
    rw [hnone] at hc'
    cases hc'
  have he : OthersRespect sampleConfig False st (served (.claim sampleClaim.key)) := trivial
  exact ⟨st, st', c, hrun, hstep, hc, hf, hnone, hsucceeded,
    released_claim_has_had_volume hrun he hstep hc hf hremoved hsucceeded⟩

/-- A volume that is in no state of the run has not been created. -/
theorem not_createdDuring {u : UID}
    (h : es.inits.all (fun first => ((manager cfg).run st first).all fun mid =>
      (mid.shared.volumes (pvNameForPVC u)).isNone) = true) : ¬ CreatedDuring cfg st es u := by
  rintro ⟨first, last, mid, pv, ref, hes, hfirst, hpv, -⟩
  have hmem : first ∈ es.inits := (List.mem_inits first es).mpr ⟨last, hes.symm⟩
  have hall := List.all_eq_true.mp h first hmem
  have hnone := (Option.all_eq_true _ _).mp hall mid hfirst
  rw [hpv] at hnone
  cases hnone

/-- The claim is deleted after its Pod has succeeded and before its volume has been created. Its
Pod is deleted and the claim is released, and no volume has ever been created for it. -/
theorem claim_released_without_volume :
    ∃ (st st' : ManagerState) (c : PersistentVolumeClaim),
      (manager sampleConfig).RunWhere (OthersRespect sampleConfig True) (idle sampleShared)
        orphaningRun st ∧
      (manager sampleConfig).step st (served (.claim sampleClaim.key)) = some st' ∧
      st.shared.claims sampleClaim.key = some c ∧ finalizer ∈ c.finalizers ∧
      st'.shared.claims sampleClaim.key = none ∧
      SucceededDuring sampleConfig (idle sampleShared) orphaningRun
        (provisionerPodName sampleConfig c.uid) ∧
      ¬ CreatedDuring sampleConfig (idle sampleShared) orphaningRun c.uid := by
  obtain ⟨st, st', hrun, hstep, hbefore, hafter⟩ :=
    quiet_run True orphaningRun (served (.claim sampleClaim.key))
      (fun st => (st.shared.claims sampleClaim.key).any fun c =>
        hasString c.finalizers finalizer && c.uid == sampleClaim.uid &&
          st.shared.succeeded (provisionerPodName sampleConfig c.uid))
      (fun st => (st.shared.claims sampleClaim.key).isNone)
      (by decide +kernel) (by decide +kernel)
  simp only [Option.any_eq_true, Bool.and_eq_true, hasString_iff, beq_iff_eq,
    Option.isNone_iff_eq_none] at hbefore hafter
  obtain ⟨c, hc, ⟨hf, huid⟩, hrecorded⟩ := hbefore
  have hsucceeded : SucceededDuring sampleConfig (idle sampleShared) orphaningRun
      (provisionerPodName sampleConfig c.uid) :=
    succeededDuring_of_recorded (safe_initial _ _) hrun rfl hrecorded
  have hnever : ¬ CreatedDuring sampleConfig (idle sampleShared) orphaningRun c.uid := by
    rw [huid]
    exact not_createdDuring (by decide +kernel)
  exact ⟨st, st', c, hrun, hstep, hc, hf, hafter, hsucceeded, hnever⟩

end Sample

end K8StorageX.OrphanedVolumes
