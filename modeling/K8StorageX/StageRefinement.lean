import K8StorageX.ManagerGuarantees
import K8StorageX.LifecycleStages

/-!
# The manager follows the life of a volume

Every run of the manager, with all that others do in between, takes every UID along a path
of the automaton. Since the automaton does not go back, a volume is provisioned once. Since
a failed deprovisioner Pod is neither removed nor replaced, its volume stays for good.
-/

namespace K8StorageX.StageRefinement

open ApiProgram WorkerPool KubeObjects ProvisionerPods KubeApi ManagerSystem Lifecycle
open VolumeController ControllerRules ManagerGuarantees LifecycleStages Relation

variable {cfg : Config} {steady : Prop} {u : UID}
variable {es later : List ManagerEvent} {st st' mid : ManagerState} {e : ManagerEvent}

theorem separate_step (h : (manager cfg).step st e = some st') :
    Separate st.shared.toCluster st'.shared.toCluster := by
  cases System.taken_of_step h with
  | start _ ht =>
    rw [toCluster_start ht]
    exact .refl _
  | serve hw => exact separate_serve _ _ _
  | finish _ ht =>
    rw [toCluster_finish ht]
    exact .refl _
  | crash ht =>
    cases ht
    exact .of_issued rfl (Or.inl rfl)
  | env ht => exact separate_act (act_of_env ht)

/-- A step of the manager or of others takes every UID along an edge of the automaton. -/
theorem stage_of_safe (hs : (lifecycle cfg steady).Safe st) (he : OthersRespect cfg steady st e)
    (hstep : (manager cfg).step st e = some st') (u : UID) :
    ReflGen (Stage.Next steady) (stageOf cfg st.shared.toCluster u)
      (stageOf cfg st'.shared.toCluster u) := by
  obtain ⟨w, seen, -, hpermitted⟩ := permitted_step hs he hstep
  exact stage_step hs.1 hpermitted (separate_step hstep) u

/-- Along a run every UID follows the automaton. -/
theorem stages_of_run (hs : (lifecycle cfg steady).Safe st)
    (hrun : (manager cfg).RunWhere (OthersRespect cfg steady) st es st') (u : UID) :
    ReflTransGen (Stage.Next steady) (stageOf cfg st.shared.toCluster u)
      (stageOf cfg st'.shared.toCluster u) := by
  refine (lifecycle cfg steady).run_keeps lifecycle_respected admits_of_othersRespect hrun
    (fun mid => ReflTransGen (Stage.Next steady) (stageOf cfg st.shared.toCluster u)
      (stageOf cfg mid.shared.toCluster u)) ?_ hs .refl
  intro mid e next hmid he hstep hpath
  exact hpath.trans (stage_of_safe hmid he hstep u).to_reflTransGen

/-- The manager refines the automaton: every UID starts unused, every run takes it along a
path, and every single step along one edge or nowhere. -/
theorem manager_refines_stages {storageClasses : String → Option StorageClass}
    {provisioners : String → Option StorageProvisioner}
    (hrun : (manager cfg).RunWhere (OthersRespect cfg steady)
      (idle (Shared.initial storageClasses provisioners)) es st)
    (he : OthersRespect cfg steady st e) (hstep : (manager cfg).step st e = some st') (u : UID) :
    ReflTransGen (Stage.Next steady) .fresh (stageOf cfg st.shared.toCluster u) ∧
      ReflGen (Stage.Next steady) (stageOf cfg st.shared.toCluster u)
        (stageOf cfg st'.shared.toCluster u) := by
  have hinitial : (lifecycle cfg steady).Safe (idle (Shared.initial storageClasses provisioners)) :=
    safe_initial storageClasses provisioners
  have hpath := stages_of_run hinitial hrun u
  exact ⟨hpath, stage_of_safe (safe_of_runWhere hinitial hrun) he hstep u⟩

/-- A quiet run that goes on, with what is checked of the states in between and at the end. -/
theorem quiet_runs (steady : Prop) (es later : List ManagerEvent)
    (between after : ManagerState → Bool) (hquiet : (es ++ later).all quiet = true)
    (h : ((manager sampleConfig).run (idle sampleShared) es).any (fun st => between st &&
      ((manager sampleConfig).run st later).any after) = true) :
    ∃ st st', (manager sampleConfig).RunWhere (OthersRespect sampleConfig steady)
        (idle sampleShared) es st ∧
      (manager sampleConfig).RunWhere (OthersRespect sampleConfig steady) st later st' ∧
      between st = true ∧ after st' = true := by
  rw [Option.any_eq_true] at h
  obtain ⟨st, hrun, hst⟩ := h
  rw [Bool.and_eq_true, Option.any_eq_true] at hst
  obtain ⟨hbetween, st', hlater, hafter⟩ := hst
  rw [List.all_eq_true] at hquiet
  have hrespect : ∀ e ∈ es ++ later, ∀ st, OthersRespect sampleConfig steady st e :=
    fun e he => othersRespect_of_quiet (hquiet e he)
  refine ⟨st, st', System.runWhere_of_forall ?_ hrun, System.runWhere_of_forall ?_ hlater,
    hbetween, hafter⟩
  · exact fun e he => hrespect e (List.mem_append_left later he)
  · exact fun e he => hrespect e (List.mem_append_right es he)

theorem manager_refines_stages_removed :
    ∃ st st', (manager sampleConfig).RunWhere (OthersRespect sampleConfig False)
        (idle sampleShared) deprovisioningRun st ∧
      (manager sampleConfig).step st (served (.volume sampleVolume)) = some st' ∧
      stageOf sampleConfig st.shared.toCluster sampleClaim.uid = .deprovisioned ∧
      stageOf sampleConfig st'.shared.toCluster sampleClaim.uid = .removed ∧
      ReflTransGen (Stage.Next False) .fresh .deprovisioned ∧
      ReflGen (Stage.Next False) .deprovisioned .removed := by
  obtain ⟨st, st', hrun, hstep, hbefore, hafter⟩ :=
    quiet_run False deprovisioningRun (served (.volume sampleVolume))
      (fun st => stageOf sampleConfig st.shared.toCluster sampleClaim.uid = .deprovisioned)
      (fun st => stageOf sampleConfig st.shared.toCluster sampleClaim.uid = .removed)
      (by decide +kernel) (by decide +kernel)
  rw [decide_eq_true_eq] at hbefore hafter
  have he : OthersRespect sampleConfig False st (served (.volume sampleVolume)) := trivial
  have hpath := manager_refines_stages hrun he hstep sampleClaim.uid
  rw [hbefore, hafter] at hpath
  exact ⟨st, st', hrun, hstep, hbefore, hafter, hpath⟩

/-- Once the volume of a claim exists, no later step of any run creates it again, or a
provisioner Pod for it. -/
theorem provisioned_once (hrun : Runs cfg steady es st)
    (hmanaged : managedVolume st.shared.toCluster u ≠ none)
    (hlater : (manager cfg).RunWhere (OthersRespect cfg steady) st later mid)
    (he : OthersRespect cfg steady mid e) (hstep : (manager cfg).step mid e = some st') :
    (managedVolume mid.shared.toCluster u = none →
      managedVolume st'.shared.toCluster u = none) ∧
    (mid.shared.pods (provisionerPodName cfg u) = none →
      st'.shared.pods (provisionerPodName cfg u) = none) := by
  have hsafe := hrun.safe
  have hmid := safe_of_runWhere hsafe hlater
  have hafter : (lifecycle cfg steady).Safe st' :=
    (lifecycle cfg steady).step_safe lifecycle_respected hmid (admits_of_othersRespect mid e he) hstep
  have hrank := (managed_iff_rank hsafe.1 u).mp hmanaged
  have hpath := Stage.rank_le_of_reflTransGen (stages_of_run hsafe hlater u)
  have hedge := Stage.rank_le_of_reflTransGen (stage_of_safe hmid he hstep u).to_reflTransGen
  have hpast : 2 ≤ (stageOf cfg mid.shared.toCluster u).rank := by omega
  refine ⟨fun hnone => ?_, fun hnone => ?_⟩
  · by_contra hsome
    have hrank' := (managed_iff_rank hafter.1 u).mp hsome
    exact (managed_iff_rank hmid.1 u).mpr ⟨hpast, by omega⟩ hnone
  · cases hpod : st'.shared.pods (provisionerPodName cfg u) with
    | none => rfl
    | some pod =>
      -- a new provisioner Pod needs a claim without a volume, which is an earlier stage
      obtain ⟨w, seen, -, hpermitted⟩ := permitted_step hmid he hstep
      obtain ⟨owner, c, huid, hnew⟩ := hpermitted.provisioner_new hnone hpod
      have hlive : Live mid.shared.toCluster u := ⟨owner, c, hnew.claim, huid⟩
      have habsent : managedVolume mid.shared.toCluster u = none := by
        rw [managedVolume, ← huid, hnew.absent]
        rfl
      have hstage : stageOf cfg mid.shared.toCluster u = .claimed :=
        stageOf_eq hmid.1 (.claimed hlive habsent hnone)
      rw [hstage] at hpast
      simp [Stage.rank] at hpast

/-- The volume has been created. -/
def provisionedRun : List ManagerEvent := provisioningRun ++ [served (.claim sampleClaim.key)]

/-- The claim and the volume are deleted, up to the removal of the finalizer. -/
def removingRun : List ManagerEvent := deprovisioningRun.drop provisionedRun.length

theorem provisioned_once_removed :
    ∃ st mid st', Runs sampleConfig False provisionedRun st ∧
      managedVolume st.shared.toCluster sampleClaim.uid ≠ none ∧
      (manager sampleConfig).RunWhere (OthersRespect sampleConfig False) st
        (removingRun ++ [served (.volume sampleVolume)]) mid ∧
      (manager sampleConfig).step mid (.finish (.volume sampleVolume)) = some st' ∧
      managedVolume mid.shared.toCluster sampleClaim.uid = none ∧
      managedVolume st'.shared.toCluster sampleClaim.uid = none := by
  obtain ⟨st, mid, hrun, hlater, hbetween, hafter⟩ :=
    quiet_runs False provisionedRun (removingRun ++ [served (.volume sampleVolume)])
      (fun st => (managedVolume st.shared.toCluster sampleClaim.uid).isSome)
      (fun mid => (managedVolume mid.shared.toCluster sampleClaim.uid).isNone &&
        ((manager sampleConfig).step mid (.finish (.volume sampleVolume))).isSome)
      (by decide +kernel) (by decide +kernel)
  rw [Option.isSome_iff_ne_none] at hbetween
  rw [Bool.and_eq_true, Option.isNone_iff_eq_none, Option.isSome_iff_exists] at hafter
  obtain ⟨hnone, st', hstep⟩ := hafter
  have hruns : Runs sampleConfig False provisionedRun st := ⟨_, _, hrun⟩
  have he : OthersRespect sampleConfig False mid (.finish (.volume sampleVolume)) := trivial
  have honce := provisioned_once hruns hbetween hlater he hstep
  exact ⟨st, mid, st', hruns, hbetween, hlater, hstep, hnone, honce.1 hnone⟩

/-- A failed deprovisioner Pod is final: it is neither replaced nor removed, and its volume
is never released, whatever happens later. -/
theorem failed_deprovisioner_blocks (hrun : Runs cfg steady es st) {pv : PersistentVolume}
    {pod : Pod} (hpv : managedVolume st.shared.toCluster u = some pv)
    (hdue : deprovisionerDisabled pv = false)
    (hpod : st.shared.pods (deprovisionerPodName cfg (pvNameForPVC u)) = some pod)
    (hfailed : pod.phase = .failed)
    (hlater : (manager cfg).RunWhere (OthersRespect cfg steady) st later st') :
    ∃ pv' pod', managedVolume st'.shared.toCluster u = some pv' ∧
      deprovisionerDisabled pv' = false ∧
      st'.shared.pods (deprovisionerPodName cfg (pvNameForPVC u)) = some pod' ∧
      pod'.phase = .failed := by
  refine (lifecycle cfg steady).run_keeps lifecycle_respected admits_of_othersRespect hlater
    (fun mid => ∃ pv' pod', managedVolume mid.shared.toCluster u = some pv' ∧
      deprovisionerDisabled pv' = false ∧
      mid.shared.pods (deprovisionerPodName cfg (pvNameForPVC u)) = some pod' ∧
      pod'.phase = .failed) ?_ hrun.safe ⟨pv, pod, hpv, hdue, hpod, hfailed⟩
  rintro mid e next hmid he hstep ⟨pv₀, pod₀, hpv₀, hdue₀, hpod₀, hfailed₀⟩
  obtain ⟨w, seen, -, hpermitted⟩ := permitted_step hmid he hstep
  obtain ⟨pv', hpv', hrecorded⟩ := managed_after hmid.1 hpermitted hpv₀ hdue₀
  obtain ⟨pod', hpod', hkept⟩ := deprovisioner_after hmid.1 hpermitted hpv₀ hdue₀ hpod₀
  have hdue' : deprovisionerDisabled pv' = false := by
    cases hdone : deprovisionerDisabled pv' with
    | false => rfl
    | true =>
      obtain ⟨pod₁, hpod₁, hsucceeded⟩ := hrecorded hdone
      rw [hpod₀] at hpod₁
      rw [← Option.some.inj hpod₁, hfailed₀] at hsucceeded
      cases hsucceeded
  have hterminal : pod₀.phase.terminal = true := by
    rw [hfailed₀]
    rfl
  exact ⟨pv', pod', hpv', hdue', hpod', (hkept.terminal hterminal).trans hfailed₀⟩

/-- The deprovisioner Pod has been created and has failed. -/
def failingRun : List ManagerEvent :=
  releasingRun ++ [served (.volume sampleVolume), .finish (.volume sampleVolume),
    .env (.podPhase (deprovisionerPodName sampleConfig sampleVolume) .failed)]

theorem failed_deprovisioner_blocks_reconciled :
    ∃ st st' pv pod pv' pod', Runs sampleConfig False failingRun st ∧
      managedVolume st.shared.toCluster sampleClaim.uid = some pv ∧
      deprovisionerDisabled pv = false ∧
      st.shared.pods (deprovisionerPodName sampleConfig sampleVolume) = some pod ∧
      pod.phase = .failed ∧
      (manager sampleConfig).RunWhere (OthersRespect sampleConfig False) st
        (reconciles (.volume sampleVolume) 2) st' ∧
      managedVolume st'.shared.toCluster sampleClaim.uid = some pv' ∧
      deprovisionerDisabled pv' = false ∧
      st'.shared.pods (deprovisionerPodName sampleConfig sampleVolume) = some pod' ∧
      pod'.phase = .failed := by
  obtain ⟨st, st', hrun, hlater, hbetween, -⟩ :=
    quiet_runs False failingRun (reconciles (.volume sampleVolume) 2)
      (fun st => ((managedVolume st.shared.toCluster sampleClaim.uid).any
          fun pv => !deprovisionerDisabled pv) &&
        (st.shared.pods (deprovisionerPodName sampleConfig sampleVolume)).any
          fun pod => pod.phase == .failed)
      (fun _ => true) (by decide +kernel) (by decide +kernel)
  simp only [Bool.and_eq_true, Option.any_eq_true, Bool.not_eq_true', beq_iff_eq] at hbetween
  obtain ⟨⟨pv, hpv, hdue⟩, pod, hpod, hfailed⟩ := hbetween
  have hruns : Runs sampleConfig False failingRun st := ⟨_, _, hrun⟩
  obtain ⟨pv', pod', hpv', hdue', hpod', hfailed'⟩ :=
    failed_deprovisioner_blocks hruns hpv hdue hpod hfailed hlater
  exact ⟨st, st', pv, pod, pv', pod', hruns, hpv, hdue, hpod, hfailed, hlater, hpv', hdue', hpod',
    hfailed'⟩

end K8StorageX.StageRefinement
