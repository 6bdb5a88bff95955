import K8StorageX.DeprovisioningProgress

/-!
# Provisioning and releasing can always be completed

From every state of every run, a claim that asks for a volume can still get one from its own
controller and the success of one Pod, and a claim that is being deleted can still be
released by its controller alone.
-/

namespace K8StorageX.ProvisioningProgress

open ApiProgram GoErrors WorkerPool KubeObjects ProvisionerPods KubeApi ManagerSystem JobReconciler
open VolumeController ClaimController ManagerGuarantees StageRefinement UndisturbedJobs
open UndisturbedRuns Relation

variable {cfg : Config} {steady : Prop} {s t : Cluster} {c : PersistentVolumeClaim}
  {p : StorageProvisioner}

/-- The provisioner in the annotations of a Pod can be read. -/
def Readable (cfg : Config) (a : Annotations) : Prop :=
  ∃ q, storageProvisionerFromJSON cfg (a.get annStorageProvisionerSpec) = .ok q

/-- What a claim needs to get a volume. -/
structure Provisionable (cfg : Config) (s : Cluster) (c : PersistentVolumeClaim)
    (p : StorageProvisioner) : Prop where
  /-- It is not being deleted. -/
  active : c.deleting = false
  /-- Its provisioner is registered. -/
  registered : s.provisioners (c.annotations.get annStorageProvisioner) = some p
  /-- It has no volume. -/
  unnamed : c.volumeName = ""
  /-- It names a storage class. -/
  classed : c.storageClassName ≠ none
  /-- The storage class exists. -/
  storageClass : (s.storageClasses (persistentVolumeClaimClass c)).isSome = true
  /-- The provisioner offers the volume mode it asks for. -/
  mode : ∃ mode, p.spec.persistentVolumeTemplate.volumeMode = some mode ∧ c.volumeMode = some mode
  /-- A node has been selected. -/
  node : c.annotations.get annSelectedNode ≠ ""
  /-- It has the annotations the provisioner requires. -/
  env : (annotationsToEnv c.annotations p.spec.env).2 = none
  /-- A volume that is there already is the manager's. -/
  managed : ∀ {pv}, s.volumes (pvNameForPVC c.uid) = some pv → finalizer ∈ pv.finalizers
  /-- Until the volume is there, the Pod has not failed or can be created. -/
  pod : s.volumes (pvNameForPVC c.uid) = none →
    JobReady s (provisionerJob cfg c p false) (Readable cfg)

/-- The volume exists for the claim, which is protected; the Pod has been deleted. -/
structure Provisioned (cfg : Config) (before : Option PersistentVolume) (t : Cluster)
    (key : ObjectKey) (uid : UID) : Prop where
  /-- The claim has the finalizer. -/
  guarded : ∃ c, t.claims key = some c ∧ c.uid = uid ∧ finalizer ∈ c.finalizers
  /-- The volume has the finalizer and refers to the claim. It is the one that was there before,
  or it has been created after the success of the Pod and records a provisioner. -/
  volume : ∃ pv, t.volumes (pvNameForPVC uid) = some pv ∧ finalizer ∈ pv.finalizers ∧
    (∃ ref, pv.spec.claimRef = some ref ∧ ref.key = key ∧ ref.uid = uid) ∧
    (before = some pv ∨ before = none ∧ Readable cfg pv.annotations ∧
      t.succeeded (provisionerPodName cfg uid) = true)
  /-- The Pod has been deleted. -/
  cleaned : t.pods (provisionerPodName cfg uid) = none

section Reconciles

/-- The claim has annotations, one of them being its node. -/
theorem Provisionable.annotated (h : Provisionable cfg s c p) : c.annotations.isNil = false := by
  cases hnil : c.annotations.isNil with
  | false => rfl
  | true =>
    have hnone := c.annotations.entry_of_isNil hnil annSelectedNode
    exact absurd (by rw [Annotations.get, hnone]; rfl) h.node

/-- Its provisioner is found. -/
theorem Provisionable.resolveProvisioner (h : Provisionable cfg s c p) :
    (resolveProvisioner c.annotations).eval undisturbed s = (some p, s) := by
  have hget : undisturbed (.getProvisioner (c.annotations.get annStorageProvisioner)) s =
      (some p, s) := by
    rw [undisturbed_eq, Cluster.answer, h.registered]
  simp only [VolumeController.resolveProvisioner, h.annotated, Bool.false_eq_true, if_false,
    Prog.request, Prog.eval_call, hget, Prog.eval_ret]

/-- It is to be provisioned. -/
theorem Provisionable.shouldProvision (h : Provisionable cfg s c p) :
    (shouldProvision c p).eval undisturbed s = (.yes, s) := by
  obtain ⟨mode, hoffered, hasked⟩ := h.mode
  obtain ⟨storageClass, hclass⟩ := Option.isSome_iff_exists.mp h.storageClass
  have hget : undisturbed (.getStorageClass (persistentVolumeClaimClass c)) s =
      (.ok storageClass, s) := by
    rw [undisturbed_eq, Cluster.answer, hclass]
  have hasks : ¬ (c.volumeName ≠ "" ∨ c.storageClassName = none) := by
    simp [h.unnamed, h.classed]
  simp only [ClaimController.shouldProvision, if_neg hasks, Prog.request_bind, Prog.eval_call, hget,
    hoffered, hasked, ne_eq, not_true_eq_false, if_false, h.node, and_false, Prog.pure_eq,
    Prog.eval_ret]

/-- A stored claim is read. -/
theorem read_claim (hstored : s.claims c.key = some c) :
    undisturbed (.getClaim c.key) s = (.ok c, s) := by
  rw [undisturbed_eq, Cluster.answer, hstored]

/-- What `Status().Update` of a stored claim does. -/
theorem update_claimStatus (hstored : s.claims c.key = some c) (finalizers : List String) :
    (updateStatus { c with finalizers := finalizers }).eval undisturbed s =
      (.returned none, s.putClaim { c with finalizers := finalizers }) := by
  have hupdate : undisturbed (.updateClaimStatus { c with finalizers := finalizers }) s =
      (.ok (), s.putClaim { c with finalizers := finalizers }) := by
    simp only [undisturbed_eq, Cluster.answer, Cluster.checked, hstored, beq_self_eq_true, if_true]
    rfl
  simp only [updateStatus, Prog.request_bind, Prog.eval_call, hupdate, Prog.pure_eq, Prog.eval_ret]

/-- A claim that is not being deleted is provisioned. -/
theorem reconcile_active (hstored : s.claims c.key = some c) (hactive : c.deleting = false) :
    (program cfg (.claim c.key)).eval undisturbed s =
      (reconcileActive cfg c).eval undisturbed s := by
  simp only [program, ClaimController.reconcile, Prog.request_bind, Prog.eval_call,
    read_claim hstored, hactive, Bool.false_eq_true, if_false]

/-- The first reconcile protects the claim. -/
theorem reconcile_protects (h : Provisionable cfg s c p) (hstored : s.claims c.key = some c)
    (hfinalizer : finalizer ∉ c.finalizers) :
    (program cfg (.claim c.key)).eval undisturbed s =
      (.returned none, s.putClaim { c with finalizers := c.finalizers ++ [finalizer] }) := by
  have hadd : addString c.finalizers finalizer = (true, c.finalizers ++ [finalizer]) := by
    rw [addString, if_neg (by rw [hasString_iff]; exact hfinalizer)]
  rw [reconcile_active hstored h.active]
  simp only [reconcileActive, Prog.eval_bind, h.resolveProvisioner, h.shouldProvision, hadd, if_true,
    update_claimStatus hstored]

/-- A reconcile of a protected claim runs its job, which is told whether the volume exists. -/
theorem reconcile_provisions (h : Provisionable cfg s c p) (hstored : s.claims c.key = some c)
    (hfinalizer : finalizer ∈ c.finalizers) {done : Bool} {err : Option GoError}
    (hjob : (reconcileJob (provisionerJob cfg c p
      (s.volumes (pvNameForPVC c.uid)).isSome)).eval undisturbed s = ((done, err), t)) :
    (program cfg (.claim c.key)).eval undisturbed s = (.returned err, t) := by
  have hadd : addString c.finalizers finalizer = (false, c.finalizers) := by
    rw [addString, if_pos (by rw [hasString_iff]; exact hfinalizer)]
  rw [reconcile_active hstored h.active]
  simp only [reconcileActive, Prog.request_bind, Prog.eval_call, Bool.false_eq_true, if_false,
    Prog.eval_bind, h.resolveProvisioner, h.shouldProvision, hadd, ClaimController.provision]
  cases hpv : s.volumes (pvNameForPVC c.uid) with
  | none =>
    have hget : undisturbed (.getVolume (pvNameForPVC c.uid)) s = (.error .notFound, s) := by
      rw [undisturbed_eq, Cluster.answer, hpv]
    rw [hpv, Option.isSome_none] at hjob
    simp only [hget, if_true, Prog.eval_bind, hjob, Prog.pure_eq, Prog.eval_ret]
  | some pv =>
    have hget : undisturbed (.getVolume (pvNameForPVC c.uid)) s = (.ok pv, s) := by
      rw [undisturbed_eq, Cluster.answer, hpv]
    rw [hpv, Option.isSome_some] at hjob
    simp only [hget, h.env, Option.isSome_none, Bool.false_eq_true, if_false, Prog.eval_bind, hjob,
      Prog.pure_eq, Prog.eval_ret]

/-- The job is what such a reconcile does as long as there is no volume. -/
theorem alone_of_absent (h : Provisionable cfg s c p) (hstored : s.claims c.key = some c)
    (hfinalizer : finalizer ∈ c.finalizers) (habsent : s.volumes (pvNameForPVC c.uid) = none)
    {done : Bool} {err : Option GoError}
    (hjob : (reconcileJob (provisionerJob cfg c p false)).eval undisturbed s = ((done, err), t)) :
    Alone cfg (.claim c.key) (provisionerPodName cfg c.uid) s t := by
  have hnone : (s.volumes (pvNameForPVC c.uid)).isSome = false := by
    rw [habsent, Option.isSome_none]
  rw [← hnone] at hjob
  exact .reconcile (reconcile_provisions h hstored hfinalizer hjob)

end Reconciles

section Stages

/-- When the Pod has succeeded, the volume is created. -/
theorem onProvisioned_creates (habsent : s.volumes (pvNameForPVC c.uid) = none) {pod : Pod}
    {q : StorageProvisioner}
    (hq : storageProvisionerFromJSON cfg (pod.annotations.get annStorageProvisionerSpec) = .ok q) :
    (onProvisioned cfg c pod).eval undisturbed s = ((true, none), s.provision
      (persistentVolumeForClaim c q (pod.annotations.get annStorageProvisionerSpec)
        pod.annotations)) := by
  have hcreate : undisturbed (.createVolume (persistentVolumeForClaim c q
      (pod.annotations.get annStorageProvisionerSpec) pod.annotations)) s =
        (.ok (), s.provision (persistentVolumeForClaim c q
          (pod.annotations.get annStorageProvisionerSpec) pod.annotations)) := by
    have hname : (persistentVolumeForClaim c q (pod.annotations.get annStorageProvisionerSpec)
        pod.annotations).name = pvNameForPVC c.uid := rfl
    rw [undisturbed_eq, Cluster.answer, hname, habsent]
  simp only [onProvisioned, hq, Prog.request_bind, Prog.eval_call, hcreate, Prog.pure_eq,
    Prog.eval_ret]

/-- A volume records the provisioner its Pod has recorded, also if the annotation is copied. -/
theorem recorded_persistentVolumeForClaim (c : PersistentVolumeClaim) (q : StorageProvisioner)
    (a : Annotations) :
    (persistentVolumeForClaim c q (a.get annStorageProvisionerSpec) a).annotations.get
      annStorageProvisionerSpec = a.get annStorageProvisionerSpec := by
  have hset : (((Annotations.empty.set annStorageProvisioner q.spec.name).set
      annStorageProvisionerSpec (a.get annStorageProvisionerSpec)).set
        annProvisionedBy "k8storagex").get annStorageProvisionerSpec =
          a.get annStorageProvisionerSpec := by
    rw [Annotations.get_set_of_ne _ _ (by decide), Annotations.get_set_self]
  rcases get_copyAnnotations a (((Annotations.empty.set annStorageProvisioner q.spec.name).set
      annStorageProvisionerSpec (a.get annStorageProvisionerSpec)).set
        annProvisionedBy "k8storagex") q.spec.env annStorageProvisionerSpec with hsource | hdest
  · exact hsource
  · exact hdest.trans hset

/-- The Pod of the claim has succeeded: the volume is created and the Pod is deleted. -/
theorem provisioned_of_succeeded (h : Provisionable cfg s c p) (hstored : s.claims c.key = some c)
    (hfinalizer : finalizer ∈ c.finalizers) (habsent : s.volumes (pvNameForPVC c.uid) = none)
    (hkept : PodsKept s) {pod : Pod}
    (hpod : JobSucceeded s (provisionerJob cfg c p false) (Readable cfg) pod) :
    ∃ t, Alone cfg (.claim c.key) (provisionerPodName cfg c.uid) s t ∧
      Provisioned cfg none t c.key c.uid := by
  obtain ⟨q, hq⟩ := hpod.good
  have hreadable : Readable cfg (persistentVolumeForClaim c q
      (pod.annotations.get annStorageProvisionerSpec) pod.annotations).annotations := by
    refine ⟨q, ?_⟩
    rw [recorded_persistentVolumeForClaim, hq]
  have hcompleted : ((provisionerJob cfg c p false).onCompleted pod).eval undisturbed s =
      ((true, none), s.provision (persistentVolumeForClaim c q
        (pod.annotations.get annStorageProvisionerSpec) pod.annotations)) :=
    onProvisioned_creates habsent hq
  have hjob : (reconcileJob (provisionerJob cfg c p false)).eval undisturbed s =
      ((false, none), (s.provision (persistentVolumeForClaim c q
        (pod.annotations.get annStorageProvisionerSpec) pod.annotations)).dropPod pod) := by
    have hrun : (provisionerJob cfg c p false).shouldRun = true := by
      simp [provisionerJob, h.node, h.env]
    rw [reconcileJob_succeeded hrun hpod.found hpod.phase hcompleted]
    simp only [Option.isSome_none, Bool.false_eq_true, Bool.true_eq_false, or_false, if_false]
    exact deleteResource_found hpod.found
  have hsucceeded := hkept.recorded hpod.found hpod.phase
  refine ⟨_, alone_of_absent h hstored hfinalizer habsent hjob, ⟨c, hstored, rfl, hfinalizer⟩,
    ⟨_, Function.update_self .., List.mem_singleton_self _, ⟨_, rfl, rfl, rfl⟩,
      Or.inr ⟨rfl, hreadable, hsucceeded⟩⟩, ?_⟩
  exact Cluster.pods_dropPod _ (hkept.key hpod.found)

/-- Before that the Pod of the claim is created and succeeds. -/
theorem provisioned_of_absent (h : Provisionable cfg s c p) (hstored : s.claims c.key = some c)
    (hfinalizer : finalizer ∈ c.finalizers) (habsent : s.volumes (pvNameForPVC c.uid) = none)
    (hkept : PodsKept s) :
    ∃ t, ReflTransGen (Alone cfg (.claim c.key) (provisionerPodName cfg c.uid)) s t ∧
      Provisioned cfg none t c.key c.uid := by
  have hrun : (provisionerJob cfg c p false).shouldRun = true := by
    simp [provisionerJob, h.node, h.env]
  obtain ⟨mid, pod, hsteps, honly, hsucceeded⟩ := job_succeeds hkept hrun
    (alone_of_absent h hstored hfinalizer habsent) (h.pod habsent)
  have hmid : mid.volumes (pvNameForPVC c.uid) = none := by
    rw [honly.volumes]
    exact habsent
  have hnext : Provisionable cfg mid c p :=
    { h with
      registered := by
        rw [honly.provisioners]
        exact h.registered
      storageClass := by
        rw [honly.storageClasses]
        exact h.storageClass
      managed := fun hpv => by
        rw [hmid] at hpv
        cases hpv
      pod := fun _ => by
        simp only [JobReady, hsucceeded.found]
        refine ⟨?_, hsucceeded.good⟩
        rw [hsucceeded.phase]
        decide }
  have hfound : mid.claims c.key = some c := by
    rw [honly.claims]
    exact hstored
  obtain ⟨t, hlast, hdone⟩ :=
    provisioned_of_succeeded hnext hfound hfinalizer hmid honly.kept hsucceeded
  exact ⟨t, hsteps.tail hlast, hdone⟩

/-- The managed volumes of a claim refer to it. -/
def VolumeRefers (s : Cluster) (c : PersistentVolumeClaim) : Prop :=
  ∀ pv, s.volumes (pvNameForPVC c.uid) = some pv → finalizer ∈ pv.finalizers →
    ∃ ref, pv.spec.claimRef = some ref ∧ ref.key = c.key ∧ ref.uid = c.uid

/-- A claim that exists is referred to by its volume. -/
theorem volumeRefers_of_inv (hinv : Lifecycle.Inv cfg steady s) {key : ObjectKey}
    (hc : s.claims key = some c) : VolumeRefers s c := by
  intro pv hpv hmanaged
  obtain ⟨hkey, hissued⟩ := hinv.claim hc
  obtain ⟨ref, -, hname, hrefIssued, href⟩ := hinv.managed hpv hmanaged
  have huid : c.uid = ref.uid := pvNameForPVC_injective hname
  have hrefKey : ref.key = c.key := by
    rw [← huid, hissued] at hrefIssued
    rw [hkey]
    exact (Option.some.inj hrefIssued).symm
  rcases href with href | ⟨-, -, hgone⟩
  · exact ⟨ref, href, hrefKey, huid.symm⟩
  · exact absurd huid (hgone key c hc)

/-- The volume has been created before: what is left of the Pod is deleted, failed or not. -/
theorem provisioned_of_existing (h : Provisionable cfg s c p) (hstored : s.claims c.key = some c)
    (hfinalizer : finalizer ∈ c.finalizers) {pv : PersistentVolume}
    (hpv : s.volumes (pvNameForPVC c.uid) = some pv) (hrefers : VolumeRefers s c)
    (hkept : PodsKept s) :
    ∃ t, ReflTransGen (Alone cfg (.claim c.key) (provisionerPodName cfg c.uid)) s t ∧
      Provisioned cfg (some pv) t c.key c.uid := by
  have hmanaged := h.managed hpv
  have hunneeded : (provisionerJob cfg c p (s.volumes (pvNameForPVC c.uid)).isSome).shouldRun =
      false := by
    simp [provisionerJob, hpv]
  have hvolume : ∃ found, s.volumes (pvNameForPVC c.uid) = some found ∧
      finalizer ∈ found.finalizers ∧
      (∃ ref, found.spec.claimRef = some ref ∧ ref.key = c.key ∧ ref.uid = c.uid) ∧
      (some pv = some found ∨ some pv = none ∧ Readable cfg found.annotations ∧
        s.succeeded (provisionerPodName cfg c.uid) = true) :=
    ⟨pv, hpv, hmanaged, hrefers pv hpv hmanaged, Or.inl rfl⟩
  cases hpod : s.pods (provisionerPodName cfg c.uid) with
  | none => exact ⟨s, .refl, ⟨c, hstored, rfl, hfinalizer⟩, hvolume, hpod⟩
  | some pod =>
    have hjob : (reconcileJob (provisionerJob cfg c p
        (s.volumes (pvNameForPVC c.uid)).isSome)).eval undisturbed s =
          ((false, none), s.dropPod pod) := by
      rw [reconcileJob_unneeded hunneeded]
      exact deletePod_found hpod
    refine ⟨s.dropPod pod, .single (.reconcile (reconcile_provisions h hstored hfinalizer hjob)),
      ⟨c, hstored, rfl, hfinalizer⟩, hvolume, ?_⟩
    exact s.pods_dropPod (hkept.key hpod)

/-- A protected claim gets its volume, whether or not it has been created before. -/
theorem provisioned_of_guarded (h : Provisionable cfg s c p) (hstored : s.claims c.key = some c)
    (hfinalizer : finalizer ∈ c.finalizers) (hrefers : VolumeRefers s c) (hkept : PodsKept s) :
    ∃ t, ReflTransGen (Alone cfg (.claim c.key) (provisionerPodName cfg c.uid)) s t ∧
      Provisioned cfg (s.volumes (pvNameForPVC c.uid)) t c.key c.uid := by
  cases hpv : s.volumes (pvNameForPVC c.uid) with
  | none => exact provisioned_of_absent h hstored hfinalizer hpv hkept
  | some pv => exact provisioned_of_existing h hstored hfinalizer hpv hrefers hkept

/-- Before that the claim is protected. -/
theorem provisioned_of_provisionable (h : Provisionable cfg s c p)
    (hstored : s.claims c.key = some c) (hrefers : VolumeRefers s c) (hkept : PodsKept s) :
    ∃ t, ReflTransGen (Alone cfg (.claim c.key) (provisionerPodName cfg c.uid)) s t ∧
      Provisioned cfg (s.volumes (pvNameForPVC c.uid)) t c.key c.uid := by
  by_cases hfinalizer : finalizer ∈ c.finalizers
  · exact provisioned_of_guarded h hstored hfinalizer hrefers hkept
  · have hmem : finalizer ∈ c.finalizers ++ [finalizer] := by simp
    have hnext : Provisionable cfg (s.putClaim { c with finalizers := c.finalizers ++ [finalizer] })
        { c with finalizers := c.finalizers ++ [finalizer], resourceVersion := s.revision + 1 } p :=
      { h with }
    obtain ⟨t, hsteps, hdone⟩ := provisioned_of_guarded hnext
      (s.claims_putClaim_of_mem hmem) hmem hrefers ⟨hkept.key, hkept.recorded⟩
    exact ⟨t, .head (.reconcile (reconcile_protects h hstored hfinalizer)) hsteps, hdone⟩

end Stages

section Release

end Release

section Runs

variable {es : List ManagerEvent} {st : ManagerState}

/-- From every state of every run, a claim that asks for a volume can still get one from its
controller after a restart, with one Pod that succeeds and nobody else's help. If the volume has
been created before, only the Pod is left to be deleted. -/
theorem provisioning_completes (hrun : Runs cfg steady es st) {key : ObjectKey}
    (hc : st.shared.claims key = some c) (h : Provisionable cfg st.shared.toCluster c p) :
    ∃ later st', (∀ e ∈ later, Helps (.claim key) (provisionerPodName cfg c.uid) e) ∧
      (manager cfg).RunWhere (OthersRespect cfg steady) st later st' ∧
      Provisioned cfg (st.shared.volumes (pvNameForPVC c.uid)) st'.shared.toCluster key c.uid := by
  have hinv : Lifecycle.Inv cfg steady st.shared.toCluster := hrun.safe.1
  have hrefers : VolumeRefers st.shared.toCluster c := volumeRefers_of_inv hinv hc
  obtain ⟨rfl, -⟩ := hinv.claim hc
  have hkept : PodsKept st.shared.crash.toCluster := ⟨hinv.pod_key, hinv.pod_succeeded⟩
  have hready : Provisionable cfg st.shared.crash.toCluster c p := { h with }
  have hcompletes := provisioned_of_provisionable hready hc hrefers hkept
  have hclaim : ∀ other, Worker.claim c.key ≠ .pod other := fun other => (by simp)
  exact run_after_restart steady hclaim hcompletes

/-- The claim asks for a volume of the sample provisioner. -/
def asks (st : ManagerState) (c : PersistentVolumeClaim) : Bool :=
  !c.deleting && c.volumeName == "" && c.storageClassName != none &&
    c.volumeMode == some .filesystem && c.annotations.get annSelectedNode != "" &&
    st.shared.provisioners (c.annotations.get annStorageProvisioner) == some sampleProvisioner &&
    (st.shared.storageClasses (persistentVolumeClaimClass c)).isSome

/-- Besides that, only the volume and the Pod of the claim matter. -/
theorem provisionable_of_asks (h : asks st c = true)
    (hmanaged : ∀ {pv}, st.shared.volumes (pvNameForPVC c.uid) = some pv → finalizer ∈ pv.finalizers)
    (hpod : st.shared.volumes (pvNameForPVC c.uid) = none →
      JobReady st.shared.toCluster (provisionerJob sampleConfig c sampleProvisioner false)
        (Readable sampleConfig)) :
    Provisionable sampleConfig st.shared.toCluster c sampleProvisioner := by
  simp only [asks, Bool.and_eq_true, bne_iff_ne, beq_iff_eq, Bool.not_eq_true'] at h
  obtain ⟨⟨⟨⟨⟨⟨hactive, hunnamed⟩, hclassed⟩, hmode⟩, hnode⟩, hregistered⟩, hclass⟩ := h
  exact ⟨hactive, hregistered, hunnamed, hclassed, hclass, ⟨.filesystem, rfl, hmode⟩, hnode, rfl,
    hmanaged, hpod⟩

/-- A claim that has just been created. -/
theorem provisionable_claimed :
    ∃ st c, Runs sampleConfig False [.env (.createClaim sampleClaim)] st ∧
      st.shared.claims sampleClaim.key = some c ∧
      st.shared.volumes (pvNameForPVC c.uid) = none ∧
      Provisionable sampleConfig st.shared.toCluster c sampleProvisioner := by
  obtain ⟨st, -, hrun, -, hbetween, -⟩ :=
    quiet_runs False [.env (.createClaim sampleClaim)] [] (fun st =>
        (st.shared.claims sampleClaim.key).any fun c => asks st c &&
          (st.shared.volumes (pvNameForPVC c.uid)).isNone &&
          (st.shared.pods (provisionerPodName sampleConfig c.uid)).isNone &&
          (provisionerJob sampleConfig c sampleProvisioner false).create.toOption.any fun pod =>
            (jobPod (provisionerJob sampleConfig c sampleProvisioner false).ownerAnnotations
              pod).annotations.get annStorageProvisionerSpec == "cache")
      (fun _ => true) (by decide +kernel) (by decide +kernel)
  simp only [Option.any_eq_true, Bool.and_eq_true, beq_iff_eq, Option.isNone_iff_eq_none]
    at hbetween
  obtain ⟨c, hc, ⟨⟨hasks, habsent⟩, hnopod⟩, pod, hpod, hrecord⟩ := hbetween
  refine ⟨st, c, ⟨_, _, hrun⟩, hc, habsent, provisionable_of_asks hasks ?_ ?_⟩
  · intro pv hpv
    rw [habsent] at hpv
    cases hpv
  · intro _
    have hnopod' : st.shared.pods
        (provisionerJob sampleConfig c sampleProvisioner false).podName = none := hnopod
    rw [JobReady, hnopod']
    refine ⟨pod, ?_, sampleProvisioner, ?_⟩
    · cases hcreate : (provisionerJob sampleConfig c sampleProvisioner false).create with
      | ok created =>
        rw [hcreate] at hpod
        rw [Option.some.inj hpod]
      | error e =>
        rw [hcreate] at hpod
        cases hpod
    · rw [hrecord]
      rfl

/-- A claim whose volume has been created and whose Pod has not been deleted yet. -/
theorem provisionable_interrupted :
    ∃ st c, Runs sampleConfig False provisionedRun st ∧
      st.shared.claims sampleClaim.key = some c ∧
      st.shared.volumes (pvNameForPVC c.uid) ≠ none ∧
      st.shared.pods (provisionerPodName sampleConfig c.uid) ≠ none ∧
      Provisionable sampleConfig st.shared.toCluster c sampleProvisioner := by
  obtain ⟨st, -, hrun, -, hbetween, -⟩ :=
    quiet_runs False provisionedRun [] (fun st =>
        (st.shared.claims sampleClaim.key).any fun c => asks st c &&
          (st.shared.pods (provisionerPodName sampleConfig c.uid)).isSome &&
          (st.shared.volumes (pvNameForPVC c.uid)).any fun pv => hasString pv.finalizers finalizer)
      (fun _ => true) (by decide +kernel) (by decide +kernel)
  simp only [Option.any_eq_true, Bool.and_eq_true, hasString_iff, Option.isSome_iff_ne_none]
    at hbetween
  obtain ⟨c, hc, ⟨hasks, hpod⟩, pv, hpv, hmanaged⟩ := hbetween
  have hexists : st.shared.volumes (pvNameForPVC c.uid) ≠ none := by
    rw [hpv]
    exact Option.some_ne_none pv
  refine ⟨st, c, ⟨_, _, hrun⟩, hc, hexists, hpod, provisionable_of_asks hasks ?_ ?_⟩
  · intro found hfound
    rw [hpv] at hfound
    rw [← Option.some.inj hfound]
    exact hmanaged
  · exact fun hnone => absurd hnone hexists

/-- A new claim, and one whose controller was interrupted after the creation of the volume. -/
theorem provisioning_completes_interrupted :
    (∃ st c later st', Runs sampleConfig False [.env (.createClaim sampleClaim)] st ∧
      st.shared.claims sampleClaim.key = some c ∧
      st.shared.volumes (pvNameForPVC c.uid) = none ∧
      (∀ e ∈ later, Helps (.claim sampleClaim.key) (provisionerPodName sampleConfig c.uid) e) ∧
      (manager sampleConfig).RunWhere (OthersRespect sampleConfig False) st later st' ∧
      Provisioned sampleConfig none st'.shared.toCluster sampleClaim.key c.uid) ∧
    ∃ st c later st', Runs sampleConfig False provisionedRun st ∧
      st.shared.claims sampleClaim.key = some c ∧
      st.shared.volumes (pvNameForPVC c.uid) ≠ none ∧
      st.shared.pods (provisionerPodName sampleConfig c.uid) ≠ none ∧
      (∀ e ∈ later, Helps (.claim sampleClaim.key) (provisionerPodName sampleConfig c.uid) e) ∧
      (manager sampleConfig).RunWhere (OthersRespect sampleConfig False) st later st' ∧
      Provisioned sampleConfig (st.shared.volumes (pvNameForPVC c.uid)) st'.shared.toCluster
        sampleClaim.key c.uid := by
  constructor
  · obtain ⟨st, c, hrun, hc, habsent, hready⟩ := provisionable_claimed
    obtain ⟨later, st', hhelps, hlater, hdone⟩ := provisioning_completes hrun hc hready
    rw [habsent] at hdone
    exact ⟨st, c, later, st', hrun, hc, habsent, hhelps, hlater, hdone⟩
  · obtain ⟨st, c, hrun, hc, hexists, hpod, hready⟩ := provisionable_interrupted
    obtain ⟨later, st', hhelps, hlater, hdone⟩ := provisioning_completes hrun hc hready
    exact ⟨st, c, later, st', hrun, hc, hexists, hpod, hhelps, hlater, hdone⟩

end Runs

end K8StorageX.ProvisioningProgress
