import K8StorageX.JobRules
import K8StorageX.ClaimController

/-!
# The claim controller keeps to the permitted steps

The finalizer is removed only when the provisioner Pod is gone and the volume is
let go; the provisioner Pod is created only while there is no volume, and the
volume only after the Pod has succeeded.
-/

namespace K8StorageX.ClaimRefinement

open ApiProgram WorkerPool GoErrors KubeObjects ProvisionerPods KubeApi ManagerSystem Lifecycle
open JobReconciler VolumeController ClaimController ControllerRules

variable {cfg : Config} {steady : Prop} {seen : Record Req Resp} {s : Cluster}
variable {key : ObjectKey} {c : PersistentVolumeClaim}

section Updates

variable {w : Worker}

/-- A stored claim of the version that was read is what was read. -/
theorem CurrentClaim.stored {stored : PersistentVolumeClaim} (hs : CurrentClaim c s)
    (hstored : s.claims c.key = some stored)
    (hversion : c.resourceVersion = stored.resourceVersion) : stored = c :=
  hs.2 stored hstored hversion.symm

/-- Updating the status of a claim that is still what was read. -/
theorem follows_updateStatus {fact : Cluster → Prop} (hstable : Stable cfg steady w fact)
    (hcurrent : ∀ t, fact t → CurrentClaim c t) (hs : fact s) {finalizers : List String}
    (hupdate : ∀ t u, Inv cfg steady t → fact t → t.claims c.key = some c →
      u.pods = t.pods → u.revision = t.revision + 1 →
      ClaimUpdate cfg steady (some w) t u c.key c
        { c with finalizers := finalizers, resourceVersion := t.revision + 1 }) :
    Follows cfg steady w (fun _ _ _ => True)
      (updateStatus { c with finalizers := finalizers }) seen s := by
  simp only [updateStatus, Prog.request_bind]
  refine .putClaim { c with finalizers := finalizers }
    (fun stored => Cluster.mergeClaimStatus stored { c with finalizers := finalizers })
    (fun _ => rfl) (Cluster.answer_updateClaimStatus _) hstable hs ?_ ?_
  · intro t stored hi ht hstored hversion
    have heq := CurrentClaim.stored (hcurrent t ht) hstored hversion
    subst heq
    exact hupdate t _ hi ht hstored rfl rfl
  · intro u response
    cases response <;> exact .ret_true _

/-- Changing other finalizers of a claim is permitted to everybody. -/
theorem finalizers_update {w : Option Worker} {t u : Cluster} {finalizers : List String}
    (hkeep : finalizer ∈ c.finalizers → finalizer ∈ finalizers)
    (hversion : u.revision = t.revision + 1) :
    ClaimUpdate cfg steady w t u c.key c
      { c with finalizers := finalizers, resourceVersion := t.revision + 1 } where
  name := rfl
  uid := rfl
  deleting := id
  version := freshVersion_succ hversion
  held hf := Or.inl (hkeep hf)
  clean := id
  runnable _ := id

/-- Removing the finalizer of a claim is permitted to its controller when nothing is left. -/
theorem release_update {t u : Cluster} (hdeleting : c.deleting = true)
    (hnone : t.pods (provisionerPodName cfg c.uid) = none) (hletGo : LetGo t c.uid)
    (hpods : u.pods = t.pods) (hversion : u.revision = t.revision + 1) :
    ClaimUpdate cfg steady (some (.claim c.key)) t u c.key c
      { c with finalizers := removeString c.finalizers finalizer,
               resourceVersion := t.revision + 1 } where
  name := rfl
  uid := rfl
  deleting := id
  version := freshVersion_succ hversion
  held _ := by
    refine Or.inr ⟨rfl, hdeleting, hnone, ?_, hletGo⟩
    rw [hpods]
    exact hnone
  clean := id
  runnable _ := id

end Updates

section Deletion

/-- The claim as read, which only the worker releases. -/
def Releasing (key : ObjectKey) (c : PersistentVolumeClaim) (s : Cluster) : Prop :=
  ClaimHeld key c s ∧ CurrentClaim c s

theorem releasing_stable (key : ObjectKey) (c : PersistentVolumeClaim) :
    Stable cfg steady (.claim key) (Releasing key c) :=
  (claimHeld_stable key c).and (currentClaim_stable c).along

theorem releasingAlong {fact : Cluster → Prop}
    (h : StableAlong cfg steady (.claim key) (ClaimHeld key c) fact) :
    Stable cfg steady (.claim key) fun s => Releasing key c s ∧ fact s := by
  intro s t hstep hs
  exact ⟨releasing_stable key c hstep hs.1, h hstep hs.1.1 hs.2⟩

/-- Own changes of volumes do not matter to the claim. -/
theorem Releasing.frame {t : Cluster} (hs : Releasing key c s) (hclaims : t.claims = s.claims)
    (hrevision : s.revision ≤ t.revision) : Releasing key c t := by
  obtain ⟨⟨c', hc', hrest⟩, hversion, hcurrent⟩ := hs
  rw [← hclaims] at hc' hcurrent
  exact ⟨⟨c', hc', hrest⟩, hversion.trans hrevision, hcurrent⟩

/-- A deleted volume is let go. -/
theorem letGo_markVolume {pv : PersistentVolume} (hpv : s.volumes (pvNameForPVC c.uid) = some pv)
    (hname : pv.name = pvNameForPVC c.uid) : LetGo (s.markVolume pv) c.uid := by
  intro pv' hpv'
  cases hd : pv.deleting with
  | true =>
    rw [Cluster.markVolume, if_pos hd, hpv] at hpv'
    rw [← Option.some.inj hpv']
    exact Or.inl hd
  | false =>
    rw [Cluster.markVolume, hd, if_neg Bool.false_ne_true, ← hname] at hpv'
    simp only [Cluster.putVolume, Function.update_self, Option.ite_none_left_eq_some,
      Option.some.injEq] at hpv'
    rw [← hpv'.2]
    exact Or.inl rfl

theorem claims_markVolume (s : Cluster) (pv : PersistentVolume) :
    (s.markVolume pv).claims = s.claims ∧ (s.markVolume pv).pods = s.pods ∧
      s.revision ≤ (s.markVolume pv).revision := by
  rw [Cluster.markVolume]
  split
  · exact ⟨rfl, rfl, le_rfl⟩
  · exact ⟨rfl, rfl, Nat.le_succ _⟩

/-- `deprovision` is done when the volume is let go. -/
theorem follows_deprovision
    (hs : Releasing key c s ∧ s.pods (provisionerPodName cfg c.uid) = none) :
    Follows cfg steady (.claim key)
      (fun _ result t => result = (true, none) →
        Releasing key c t ∧ (t.pods (provisionerPodName cfg c.uid) = none ∧ LetGo t c.uid))
      (deprovision c) seen s := by
  have hfact : Stable cfg steady (.claim key) fun s => Releasing key c s ∧
      s.pods (provisionerPodName cfg c.uid) = none := releasingAlong (noProvisioner_stable key c)
  have hdone : Stable cfg steady (.claim key) fun s => Releasing key c s ∧
      (s.pods (provisionerPodName cfg c.uid) = none ∧ LetGo s c.uid) :=
    releasingAlong ((noProvisioner_stable key c).and (letGo_stable key c))
  simp only [deprovision, Prog.request_bind]
  refine .getVolume hfact hs ?_ ?_ ?_
  · intro t pv hi ht hpv
    dsimp only
    split
    · rename_i hpolicy
      refine .ret fun u hr _ _ => hdone.rely hr ⟨ht.1, ht.2, ?_⟩
      intro pv' hpv'
      rw [hpv] at hpv'
      rw [← Option.some.inj hpv']
      exact Or.inr hpolicy
    rename_i hpolicy
    have hdelete : ToDelete c.uid t := by
      intro pv' hpv'
      rw [hpv] at hpv'
      rw [← Option.some.inj hpv']
      exact not_not.mp hpolicy
    have hname := hi.volume_name hpv
    have htoDelete : Stable cfg steady (.claim key) fun s => Releasing key c s ∧
        (s.pods (provisionerPodName cfg c.uid) = none ∧ ToDelete c.uid s) :=
      releasingAlong ((noProvisioner_stable key c).and (toDelete_stable key c))
    rw [hname]
    refine .deleteVolume htoDelete ⟨ht.1, ht.2, hdelete⟩ ?_ ?_ ?_ ?_
    · intro u pv' _ hu hpv'
      exact hu.2.2 pv' hpv'
    · intro u pv' hi hu hpv'
      obtain ⟨hclaims, hpods, hrevision⟩ := claims_markVolume u pv'
      refine .ret fun v hr _ _ => hdone.rely hr ⟨hu.1.frame hclaims hrevision, ?_, ?_⟩
      · rw [hpods]
        exact hu.2.1
      · exact letGo_markVolume hpv' (hi.volume_name hpv')
    · intro u _ hu hnone
      refine .ret fun v hr _ _ => hdone.rely hr ⟨hu.1, hu.2.1, ?_⟩
      intro pv' hpv'
      rw [hnone] at hpv'
      cases hpv'
    · intro u e he
      simp only [if_neg he]
      exact .ret fun _ _ _ => nofun
  · intro t _ ht hnone
    refine .ret fun v hr _ _ => hdone.rely hr ⟨ht.1, ht.2, ?_⟩
    intro pv' hpv'
    rw [hnone] at hpv'
    cases hpv'
  · intro t e _ _ he
    simp only [if_neg he]
    exact .ret fun _ _ _ => nofun

theorem follows_release (hs : Releasing key c s) (hkey : c.key = key)
    (hdeleting : c.deleting = true) :
    Follows cfg steady (.claim key) (fun _ _ _ => True) (release cfg c) seen s := by
  have hmay : ∀ t pod, Inv cfg steady t → Releasing key c t →
      t.pods (provisionerPodName cfg c.uid) = some pod →
      MayDelete cfg steady (some (.claim key)) t (provisionerPodName cfg c.uid) pod := by
    intro t pod _ ht _
    obtain ⟨⟨c', hc', huid, -, hd⟩, -⟩ := ht
    refine .provisioner rfl hc' ?_ fun _ => Or.inl (hd hdeleting)
    rw [huid]
  refine .bind ((follows_deletePod (releasing_stable key c)
    (releasingAlong (noProvisioner_stable key c)) hs hmay).mono ?_)
  intro seen' deleted t _ hdeleted
  split
  · exact .ret_true _
  rename_i hgo
  refine .bind ((follows_deprovision (hdeleted (eq_done_of_not hgo))).mono ?_)
  intro seen'' deprovisioned u _ hdeprovisioned
  split
  · exact .ret_true _
  rename_i hgo'
  subst hkey
  refine follows_updateStatus
    (releasingAlong ((noProvisioner_stable c.key c).and (letGo_stable c.key c)))
    (fun v hv => hv.1.2) (hdeprovisioned (eq_done_of_not hgo')) ?_
  intro v v' _ hv _ hpods hrevision
  exact release_update hdeleting hv.2.1 hv.2.2 hpods hrevision

/-- The reconcile of a claim that is being deleted takes permitted steps. -/
theorem follows_reconcileDeleted (hi : Inv cfg steady s) (hc : s.claims key = some c)
    (hdeleting : c.deleting = true) :
    Follows cfg steady (.claim key) (fun _ _ _ => True) (reconcileDeleted cfg c) seen s := by
  have hkey := (hi.claim hc).1
  rw [reconcileDeleted]
  split
  · split
    · refine follows_updateStatus (currentClaim_stable c) (fun _ h => h)
        (currentClaim_read hi hc) ?_
      intro t u _ _ _ _ hrevision
      refine finalizers_update (fun hf => ?_) hrevision
      have hne : finalizer ≠ finalizerPVCProtection := by decide
      exact (mem_removeString _ _ _).mpr ⟨hf, hne⟩
    · exact .ret_true _
  · split
    · rename_i hf
      rw [hasString_iff] at hf
      split
      · exact .ret_true _
      · exact follows_release ⟨⟨c, hc, rfl, hf, id⟩, currentClaim_read hi hc⟩ hkey hdeleting
    · exact .ret_true _

end Deletion

section Provisioning

variable {registry : String → Option StorageProvisioner}

/-- What a steady cluster keeps of a claim that is being provisioned: the registry, what
the claim's annotations provide, and that its Pod is not told to terminate and is only
there if it has been asked for. -/
structure SteadyClaim (cfg : Config) (key : ObjectKey) (c : PersistentVolumeClaim)
    (registry : String → Option StorageProvisioner) (s : Cluster) : Prop where
  /-- The registry is the one that was read. -/
  registry_eq : s.provisioners = registry
  /-- The claim provides what it provided. -/
  runnable : ∀ c', s.claims key = some c' → Runnable registry c.annotations →
    Runnable registry c'.annotations
  /-- The Pod is not told to terminate. -/
  notTerminating : NotTerminating cfg c.uid s
  /-- The Pod has been asked for. -/
  asked : s.pods (provisionerPodName cfg c.uid) = none ∨ Runnable registry c.annotations

theorem steadyClaim_stable (key : ObjectKey) (c : PersistentVolumeClaim)
    (registry : String → Option StorageProvisioner) :
    StableAlong cfg steady (.claim key) (ClaimHeld key c)
      fun s => steady → SteadyClaim cfg key c registry s := by
  intro s t hstep hheld hs hsteady
  have hbefore := hs hsteady
  have hterminating := notTerminating_stable key c hstep hheld hbefore.notTerminating
  have hasked : t.pods (provisionerPodName cfg c.uid) = none ∨ Runnable registry c.annotations :=
    hbefore.asked.imp_left (noProvisioner_stable key c hstep hheld)
  obtain ⟨hi, v, seen, hv, h⟩ := hstep
  refine ⟨?_, ?_, hterminating, hasked⟩
  · rw [h.registry hsteady]
    exact hbefore.registry_eq
  · intro c' hc' hrun
    obtain ⟨c₀, hc₀, -⟩ := hheld
    have hchange := h.claims key
    rw [hc', hc₀] at hchange
    rcases hchange.of_some with hsame | ⟨hnone, _⟩ | ⟨c₁, hbefore₁, hupdate⟩
    · rw [hsame] at hc₀
      exact hbefore.runnable c' hc₀ hrun
    · cases hnone
    · have heq : c₀ = c₁ := Option.some.inj hbefore₁
      subst heq
      have hrun₀ := hbefore.runnable c₀ hc₀ hrun
      rw [← hbefore.registry_eq] at hrun₀ ⊢
      exact hupdate.runnable hsteady hrun₀

/-- The claim as read, being provisioned by its controller. -/
def Provisioning (cfg : Config) (steady : Prop) (key : ObjectKey) (c : PersistentVolumeClaim)
    (registry : String → Option StorageProvisioner) (s : Cluster) : Prop :=
  ClaimHeld key c s ∧ (steady → SteadyClaim cfg key c registry s)

theorem provisioning_stable (key : ObjectKey) (c : PersistentVolumeClaim)
    (registry : String → Option StorageProvisioner) :
    Stable cfg steady (.claim key) (Provisioning cfg steady key c registry) :=
  (claimHeld_stable key c).and (steadyClaim_stable key c registry)

theorem provisioningAlong {fact : Cluster → Prop}
    (h : StableAlong cfg steady (.claim key) (ClaimHeld key c) fact) :
    Stable cfg steady (.claim key)
      fun s => Provisioning cfg steady key c registry s ∧ fact s := by
  intro s t hstep hs
  exact ⟨provisioning_stable key c registry hstep hs.1, h hstep hs.1.1 hs.2⟩

/-- What is known when a claim with the finalizer has been read. -/
theorem provisioning_read (hi : Inv cfg steady s) (hc : s.claims key = some c)
    (hf : finalizer ∈ c.finalizers) (hdeleting : c.deleting = false) :
    Provisioning cfg steady key c s.provisioners s := by
  refine ⟨⟨c, hc, rfl, hf, id⟩, ?_⟩
  intro hsteady
  refine ⟨rfl, ?_, ?_, ?_⟩
  · intro c' hc' hrun
    rw [hc] at hc'
    rw [← Option.some.inj hc']
    exact hrun
  · intro pod hpod
    cases hd : pod.deleting with
    | false => rfl
    | true =>
      have htrue := hi.provisioner_deleting hsteady hpod hd hc rfl
      rw [hdeleting] at htrue
      cases htrue
  · cases hpod : s.pods (provisionerPodName cfg c.uid) with
    | none => exact Or.inl rfl
    | some pod => exact Or.inr (hi.provisioner_runnable hsteady hpod hc rfl)

/-- Annotations of a Pod made for a claim do not disable the deprovisioner. -/
theorem provisionerPod_clean {nodeName : String} {env : List EnvVar} {p : StorageProvisioner}
    {pod : Pod} (hclean : ¬ DisablesDeprovisioner c.annotations)
    (hpod : provisionerPod cfg c nodeName env p = .ok pod) :
    ¬ DisablesDeprovisioner
      (jobPod [(annPVCName, c.key.name), (annPVCNamespace, c.key.namespaceName)] pod).annotations := by
  have hname : annPVDisableDeprovisioner ≠ annPVCName := by decide
  have hnamespace : annPVDisableDeprovisioner ≠ annPVCNamespace := by decide
  have hspec : annPVDisableDeprovisioner ≠ annStorageProvisionerSpec := by decide
  obtain ⟨_, q, _, _, _, _, hannotations⟩ := provisionerPod_ok hpod
  generalize (newProvisionerPod (provisionerPodName cfg c.uid) q q.spec.provisioner env).2 = recorded
    at hannotations
  simp only [DisablesDeprovisioner, jobPod, List.foldl_cons, List.foldl_nil,
    Annotations.get_set_of_ne _ _ hnamespace, Annotations.get_set_of_ne _ _ hname, hannotations,
    Annotations.get_set_of_ne _ _ hspec]
  rcases get_copyAnnotations c.annotations Annotations.empty recorded.spec.env
    annPVDisableDeprovisioner with hsrc | hdest
  · rw [hsrc]
    exact hclean
  · rw [hdest]
    decide

/-- The deprovisioner of a new volume is not disabled. -/
theorem persistentVolumeForClaim_clean (c : PersistentVolumeClaim) (p : StorageProvisioner)
    (json : String) {annotations : Annotations} (hclean : ¬ DisablesDeprovisioner annotations) :
    deprovisionerDisabled (persistentVolumeForClaim c p json annotations) = false := by
  have hprovisioner : annPVDisableDeprovisioner ≠ annStorageProvisioner := by decide
  have hspec : annPVDisableDeprovisioner ≠ annStorageProvisionerSpec := by decide
  have hby : annPVDisableDeprovisioner ≠ annProvisionedBy := by decide
  rw [deprovisionerDisabled, beq_eq_false_iff_ne]
  rcases get_copyAnnotations annotations
    (((Annotations.empty.set annStorageProvisioner p.spec.name).set annStorageProvisionerSpec
      json).set annProvisionedBy "k8storagex") p.spec.env annPVDisableDeprovisioner
    with hsrc | hdest
  · simp only [persistentVolumeForClaim, hsrc]
    exact hclean
  · simp only [persistentVolumeForClaim, hdest, Annotations.get_set_of_ne _ _ hby,
      Annotations.get_set_of_ne _ _ hspec, Annotations.get_set_of_ne _ _ hprovisioner]
    decide

/-- The provisioner Pod may be deleted by the claim's controller once it has terminated. -/
theorem mayDelete_terminated {t : Cluster} {pod : Pod} (hheld : ClaimHeld key c t)
    (hterminated : steady → Terminated cfg c.uid t)
    (hpod : t.pods (provisionerPodName cfg c.uid) = some pod) :
    MayDelete cfg steady (some (.claim key)) t (provisionerPodName cfg c.uid) pod := by
  obtain ⟨c', hc', huid, -⟩ := hheld
  refine .provisioner rfl hc' ?_ fun hsteady => Or.inr (hterminated hsteady pod hpod)
  rw [huid]

/-- A fact about a steady cluster. -/
theorem steadyAlong {base fact : Cluster → Prop} {w : Worker}
    (h : StableAlong cfg steady w base fact) :
    StableAlong cfg steady w base fun s => steady → fact s :=
  fun _ _ hstep hbase hs hsteady => h hstep hbase (hs hsteady)

/-- The claim with a provisioner Pod that has terminated, if there is one. -/
theorem heldTerminated_stable (key : ObjectKey) (c : PersistentVolumeClaim) :
    Stable cfg steady (.claim key)
      fun s => ClaimHeld key c s ∧ (steady → Terminated cfg c.uid s) :=
  (claimHeld_stable key c).and (steadyAlong (terminated_stable key c))

/-- What is known of the provisioner Pod that has been read. -/
def Completed (cfg : Config) (steady : Prop) (key : ObjectKey) (c : PersistentVolumeClaim)
    (pod : Pod) (s : Cluster) : Prop :=
  ClaimHeld key c s ∧ (steady → Succeeded cfg c.uid s) ∧
    ¬ DisablesDeprovisioner pod.annotations

theorem completed_stable (key : ObjectKey) (c : PersistentVolumeClaim) (pod : Pod) :
    Stable cfg steady (.claim key) (Completed cfg steady key c pod) :=
  (claimHeld_stable key c).and
    ((steadyAlong (succeeded_stable key c)).and (stable_const _).along)

/-- Creating the volume of a claim is permitted when the provisioner Pod has succeeded. -/
theorem provision_step {t : Cluster} {p : StorageProvisioner} {json : String} {pod : Pod}
    (ht : Completed cfg steady key c pod t) (hkey : c.key = key)
    (habsent : t.volumes (pvNameForPVC c.uid) = none) :
    Step cfg steady (some (.claim key)) seen t
      (t.provision (persistentVolumeForClaim c p json pod.annotations)) := by
  obtain ⟨⟨c', hc', huid, hf, -⟩, hsucceeded, hclean⟩ := ht
  have hname : pvNameForPVC c.uid = pvNameForPVC c'.uid := congrArg pvNameForPVC huid.symm
  refine .provision habsent ⟨rfl, hc', hf, rfl, hname, freshVersion_succ rfl, rfl, hkey, huid.symm,
    Function.update_self _ _ _, persistentVolumeForClaim_clean c p json hclean, ?_⟩
  intro hsteady
  obtain ⟨pod', hpod', hphase, -⟩ := hsucceeded hsteady
  rw [huid]
  exact ⟨pod', hpod', hphase⟩

/-- `OnCompleted` of the provisioner is done when the volume has been created; the Pod has
terminated. -/
theorem follows_onProvisioned {pod : Pod} (hs : Completed cfg steady key c pod s)
    (hkey : c.key = key) :
    Follows cfg steady (.claim key)
      (fun _ result t => result = (true, none) →
        ClaimHeld key c t ∧ (steady → Terminated cfg c.uid t))
      (onProvisioned cfg c pod) seen s := by
  rw [onProvisioned]
  split
  · exact .ret fun _ _ _ h => (by cases h)
  refine .createVolume (completed_stable key c pod) hs ?_ ?_ ?_
  · intro t _ ht habsent
    exact provision_step ht hkey habsent
  · intro t _ ht
    refine .ret fun u hr _ _ => (heldTerminated_stable key c).rely hr ⟨ht.1, ?_⟩
    intro hsteady pod' hpod'
    obtain ⟨pod₀, hpod₀, hphase, -⟩ := ht.2.1 hsteady
    have hsame : t.pods (provisionerPodName cfg c.uid) = some pod' := hpod'
    rw [hpod₀] at hsame
    rw [← Option.some.inj hsame, hphase]
    rfl
  · intro u e
    exact .ret fun _ _ _ h => (by cases h)

/-- The provisioner Pod of a held claim without a volume may be created. -/
theorem provisioner_creation {t : Cluster} {pod : Pod} {seen : Record Req Resp}
    (ht : Provisioning cfg steady key c registry t)
    (habsent : t.volumes (pvNameForPVC c.uid) = none)
    (hclean : ¬ DisablesDeprovisioner pod.annotations)
    (hrun : steady → Runnable registry c.annotations) :
    PodChange cfg steady (some (.claim key)) seen t
      (t.putPod (newPod { pod with key := provisionerPodName cfg c.uid }))
      (provisionerPodName cfg c.uid) none
      (some (newPod { pod with key := provisionerPodName cfg c.uid })) := by
  obtain ⟨⟨c', hc', huid, hf, -⟩, hsteadyClaim⟩ := ht
  have hkey : provisionerPodName cfg c.uid = provisionerPodName cfg c'.uid :=
    congrArg (provisionerPodName cfg) huid.symm
  rw [← huid] at habsent
  refine .provisioner ⟨rfl, hc', hf, hkey, rfl, habsent, rfl, rfl, hclean, ?_⟩
  intro hsteady
  have hs := hsteadyClaim hsteady
  rw [hs.registry_eq]
  exact hs.runnable c' hc' (hrun hsteady)

/-- The provisioner Pod of a claim that has its volume is deleted. -/
theorem follows_provisioned {p : StorageProvisioner}
    (hs : ClaimHeld key c s ∧ (steady → Terminated cfg c.uid s)) (hkey : c.key = key) :
    Follows cfg steady (.claim key) (fun _ _ _ => True)
      (reconcileJob (provisionerJob cfg c p true)) seen s := by
  have hgone : Stable cfg steady (.claim key) fun s =>
      (ClaimHeld key c s ∧ (steady → Terminated cfg c.uid s)) ∧
        s.pods (provisionerPodName cfg c.uid) = none := by
    intro s t hstep hs
    exact ⟨heldTerminated_stable key c hstep hs.1, noProvisioner_stable key c hstep hs.1.1 hs.2⟩
  refine (follows_reconcileJob (heldTerminated_stable key c) (completed_stable key c)
    (heldTerminated_stable key c) hgone hgone hs ?_ ?_ ?_ ?_ ?_).mono fun _ _ _ _ _ => trivial
  · intro _ t pod _ ht hpod
    exact mayDelete_terminated ht.1 ht.2 hpod
  · intro hrun
    simp [provisionerJob] at hrun
  · intro hrun
    simp [provisionerJob] at hrun
  · intro pod seen' t ht
    exact follows_onProvisioned ht hkey
  · intro t pod _ ht hpod
    exact mayDelete_terminated ht.1 ht.2 hpod

/-- The provisioner Pod of a claim without a volume is run, or deleted if it is not
asked for any more. -/
theorem follows_unprovisioned {p : StorageProvisioner}
    (hs : Provisioning cfg steady key c registry s ∧ s.volumes (pvNameForPVC c.uid) = none)
    (hp : steady → registry (c.annotations.get annStorageProvisioner) = some p)
    (hclean : ¬ DisablesDeprovisioner c.annotations) (hkey : c.key = key) :
    Follows cfg steady (.claim key) (fun _ _ _ => True)
      (reconcileJob (provisionerJob cfg c p false)) seen s := by
  have hfact : Stable cfg steady (.claim key) fun s =>
      Provisioning cfg steady key c registry s ∧ s.volumes (pvNameForPVC c.uid) = none :=
    provisioningAlong (noVolume_stable key c)
  have hgone : Stable cfg steady (.claim key) fun s =>
      (Provisioning cfg steady key c registry s ∧ s.volumes (pvNameForPVC c.uid) = none) ∧
        s.pods (provisionerPodName cfg c.uid) = none := by
    intro s t hstep hs
    exact ⟨hfact hstep hs.1, noProvisioner_stable key c hstep hs.1.1.1 hs.2⟩
  have hafterGone : Stable cfg steady (.claim key) fun s =>
      (ClaimHeld key c s ∧ (steady → Terminated cfg c.uid s)) ∧
        s.pods (provisionerPodName cfg c.uid) = none := by
    intro s t hstep hs
    exact ⟨heldTerminated_stable key c hstep hs.1, noProvisioner_stable key c hstep hs.1.1 hs.2⟩
  refine (follows_reconcileJob hfact (completed_stable key c) (heldTerminated_stable key c) hgone
    hafterGone hs ?_ ?_ ?_ ?_ ?_).mono fun _ _ _ _ _ => trivial
  · -- the Pod is not to run, so it is not there in a steady cluster
    intro hrun t pod _ ht hpod
    refine mayDelete_terminated ht.1.1 (fun hsteady => ?_) hpod
    have hasked := (ht.1.2 hsteady).asked
    rw [show t.pods (provisionerPodName cfg c.uid) = some pod from hpod] at hasked
    rcases hasked with hnone | ⟨hnode, p', hp', henv⟩
    · cases hnone
    · rw [hp hsteady] at hp'
      rw [← Option.some.inj hp'] at henv
      simp [provisionerJob, hnode, henv] at hrun
  · intro hrun pod response t hcreate _ ht _
    refine provisioner_creation ht.1 ht.2 (provisionerPod_clean hclean hcreate) fun hsteady => ?_
    simp only [provisionerJob, Bool.not_false, Bool.true_and, Bool.and_eq_true, bne_iff_ne,
      Option.isNone_iff_eq_none] at hrun
    exact ⟨hrun.1, p, hp hsteady, hrun.2⟩
  · intro _ t pod hi ht hpod hphase
    refine ⟨ht.1.1, fun hsteady => ?_, hi.provisioner_clean hpod⟩
    have hkept := (ht.1.2 hsteady).notTerminating pod hpod
    exact ⟨pod, hpod, hphase, hkept⟩
  · intro pod seen' t ht
    exact follows_onProvisioned ht hkey
  · intro t pod _ ht hpod
    exact mayDelete_terminated ht.1 ht.2 hpod

theorem follows_provision {p : StorageProvisioner}
    (hs : Provisioning cfg steady key c registry s)
    (hp : steady → registry (c.annotations.get annStorageProvisioner) = some p)
    (hclean : ¬ DisablesDeprovisioner c.annotations) (hkey : c.key = key) :
    Follows cfg steady (.claim key) (fun _ _ _ => True) (provision cfg c p) seen s := by
  simp only [provision, Prog.request_bind]
  refine .getVolume (provisioning_stable key c registry) hs ?_ ?_ ?_
  · intro t pv hi ht hpv
    dsimp only
    split
    · exact .ret_true _
    refine .bind ((follows_provisioned ⟨ht.1, ?_⟩ hkey).mono fun _ _ _ _ _ => .ret_true _)
    intro hsteady pod hpod
    exact hi.provisioner_done hsteady hpod hpv
  · intro t _ ht hnone
    simp only [if_true]
    exact .bind ((follows_unprovisioned ⟨ht, hnone⟩ hp hclean hkey).mono
      fun _ _ _ _ _ => .ret_true _)
  · intro t e _ _ he
    simp only [if_neg he]
    exact .ret_true _

/-- The answer of `shouldProvision` depends on nothing that matters. -/
theorem follows_shouldProvision {p : StorageProvisioner} {w : Worker} {fact : Cluster → Prop}
    (hstable : Stable cfg steady w fact) (hs : fact s) :
    Follows cfg steady w (fun _ _ t => fact t) (shouldProvision c p) seen s := by
  rw [shouldProvision]
  split
  · exact .ret fun t hr _ => hstable.rely hr hs
  simp only [Prog.request_bind]
  refine .getStorageClass hstable hs ?_
  intro t response _ ht
  have hret : ∀ (value : Decision) (seen : Record Req Resp),
      Follows cfg steady w (fun _ _ t => fact t) (.ret value) seen t :=
    fun value seen => .ret fun u hr _ => hstable.rely hr ht
  cases response with
  | error e =>
    dsimp only
    split <;> exact hret _ _
  | ok storageClass =>
    dsimp only
    split
    · exact hret _ _
    split
    · exact hret _ _
    split <;> exact hret _ _

/-- The reconcile of a claim that is not being deleted takes permitted steps. -/
theorem follows_reconcileActive (hi : Inv cfg steady s) (hc : s.claims key = some c)
    (hdeleting : c.deleting = false) :
    Follows cfg steady (.claim key) (fun _ _ _ => True) (reconcileActive cfg c) seen s := by
  have hkey := (hi.claim hc).1
  have hclean := hi.claim_clean hc
  rw [reconcileActive]
  by_cases hnil : c.annotations.isNil = true
  · rw [resolveProvisioner_of_isNil hnil]
    exact .ret_true _
  rw [resolveProvisioner_of_annotated hnil, Prog.request_bind]
  by_cases hf : finalizer ∈ c.finalizers
  · have hadd : (addString c.finalizers finalizer).1 = false := by
      simp [addString, hf]
    have hs := provisioning_read hi hc hf hdeleting
    refine .getProvisioner (provisioning_stable key c s.provisioners) hs ?_
    intro t _ ht
    cases hp : t.provisioners (c.annotations.get annStorageProvisioner) with
    | none => exact .ret_true _
    | some p =>
      have hregistry : steady →
          s.provisioners (c.annotations.get annStorageProvisioner) = some p := by
        intro hsteady
        rw [← (ht.2 hsteady).registry_eq]
        exact hp
      refine .bind ((follows_shouldProvision (provisioning_stable key c s.provisioners) ht).mono ?_)
      intro seen' decision u _ hu
      cases decision with
      | no err => exact .ret_true _
      | panicked => exact .ret_true _
      | yes =>
        simp only [hadd, Bool.false_eq_true, if_false]
        exact follows_provision hu hregistry hclean hkey
  · have hadd : addString c.finalizers finalizer = (true, c.finalizers ++ [finalizer]) := by
      simp [addString, hf]
    refine .getProvisioner (currentClaim_stable c) (currentClaim_read hi hc) ?_
    intro t _ ht
    cases t.provisioners (c.annotations.get annStorageProvisioner) with
    | none => exact .ret_true _
    | some p =>
      refine .bind ((follows_shouldProvision (currentClaim_stable c) ht).mono ?_)
      intro seen' decision u _ hu
      cases decision with
      | no err => exact .ret_true _
      | panicked => exact .ret_true _
      | yes =>
        simp only [hadd, if_true]
        refine follows_updateStatus (currentClaim_stable c) (fun _ h => h) hu ?_
        intro v v' _ _ _ _ hrevision
        exact finalizers_update (fun hmem => absurd hmem hf) hrevision

/-- The reconcile of a claim takes permitted steps. -/
theorem follows_reconcile (key : ObjectKey) (s : Cluster) :
    Follows cfg steady (.claim key) (fun _ _ _ => True) (ClaimController.reconcile cfg key)
      seen s := by
  simp only [ClaimController.reconcile, Prog.request_bind]
  refine .getClaim (stable_const True) trivial ?_ ?_ ?_
  · intro t c hi _ hc
    cases hd : c.deleting with
    | true =>
      simp only [hd, if_true]
      exact follows_reconcileDeleted hi hc hd
    | false =>
      simp only [hd, Bool.false_eq_true, if_false]
      exact follows_reconcileActive hi hc hd
  · intro t _ _ _
    exact .ret_true _
  · intro t e _ _ he
    simp only [if_neg he]
    exact .ret_true _

end Provisioning

end K8StorageX.ClaimRefinement
