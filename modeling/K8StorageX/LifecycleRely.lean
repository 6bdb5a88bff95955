import Mathlib.Logic.Relation
import K8StorageX.LifecycleSteps

/-!
# What a controller can rely on

Between two requests of a worker the others take permitted steps. What the
worker has read stays true as far as the others are not permitted to change it:
objects of the same version, claims and volumes held by the finalizer, and the
absence and the state of the objects that only the worker creates and deletes.
-/

namespace K8StorageX.Lifecycle

open ApiProgram KubeObjects ProvisionerPods KubeApi VolumeController ManagerSystem

variable {cfg : Config} {steady : Prop} {w : Worker} {s t : Cluster}

/-- A step that is not taken by the worker. -/
def Foreign (cfg : Config) (steady : Prop) (w : Worker) (s t : Cluster) : Prop :=
  Inv cfg steady s ∧ ∃ v seen, v ≠ some w ∧ Step cfg steady v seen s t

/-- Steps that are not taken by the worker. -/
def Rely (cfg : Config) (steady : Prop) (w : Worker) : Cluster → Cluster → Prop :=
  Relation.ReflTransGen (Foreign cfg steady w)

/-- A fact that steps of others keep. -/
def Stable (cfg : Config) (steady : Prop) (w : Worker) (fact : Cluster → Prop) : Prop :=
  ∀ ⦃s t⦄, Foreign cfg steady w s t → fact s → fact t

/-- A fact that steps of others keep as long as another one holds. -/
def StableAlong (cfg : Config) (steady : Prop) (w : Worker) (base fact : Cluster → Prop) : Prop :=
  ∀ ⦃s t⦄, Foreign cfg steady w s t → base s → fact s → fact t

/-- A stable fact is kept by any number of steps of others. -/
theorem Stable.rely {fact : Cluster → Prop} (h : Stable cfg steady w fact)
    (hr : Rely cfg steady w s t) (hs : fact s) : fact t := by
  induction hr with
  | refl => exact hs
  | tail _ hstep ih => exact h hstep ih

/-- A fact that is stable along a stable one is stable together with it. -/
theorem Stable.and {base fact : Cluster → Prop} (hb : Stable cfg steady w base)
    (hf : StableAlong cfg steady w base fact) :
    Stable cfg steady w fun s => base s ∧ fact s :=
  fun _ _ hstep hs => ⟨hb hstep hs.1, hf hstep hs.1 hs.2⟩

/-- Two facts that are stable along a third are so together. -/
theorem StableAlong.and {base fact other : Cluster → Prop}
    (hf : StableAlong cfg steady w base fact) (ho : StableAlong cfg steady w base other) :
    StableAlong cfg steady w base fun s => fact s ∧ other s :=
  fun _ _ hstep hb hs => ⟨hf hstep hb hs.1, ho hstep hb hs.2⟩

/-- A stable fact is stable along every other. -/
theorem Stable.along {base fact : Cluster → Prop} (h : Stable cfg steady w fact) :
    StableAlong cfg steady w base fact :=
  fun _ _ hstep _ hs => h hstep hs

/-- What does not depend on the cluster is stable. -/
theorem stable_const (p : Prop) : Stable cfg steady w fun _ => p :=
  fun _ _ _ hp => hp

section Versions

/-- The claim as read is the current one if the version is the same. -/
def CurrentClaim (c : PersistentVolumeClaim) (s : Cluster) : Prop :=
  c.resourceVersion ≤ s.revision ∧ ∀ c', s.claims c.key = some c' →
    c'.resourceVersion = c.resourceVersion → c' = c

/-- A claim as read stays the current one of its version. -/
theorem currentClaim_stable (c : PersistentVolumeClaim) :
    Stable cfg steady w (CurrentClaim c) := by
  intro s t hstep hs
  obtain ⟨_, _, _, _, h⟩ := hstep
  refine ⟨hs.1.trans h.revision, ?_⟩
  intro c' hc' hversion
  have hchange := h.claims c.key
  rw [hc'] at hchange
  rcases hchange.of_some with hsame | ⟨_, hcreated⟩ | ⟨_, _, hupdate⟩
  · exact hs.2 c' hsame hversion
  · have hbound := hs.1
    have hfresh := hcreated.version.1
    omega
  · have hbound := hs.1
    have hfresh := hupdate.version.1
    omega

/-- A claim is current when it is read. -/
theorem currentClaim_read {key : ObjectKey} {c : PersistentVolumeClaim} (hi : Inv cfg steady s)
    (hc : s.claims key = some c) : CurrentClaim c s := by
  refine ⟨hi.claim_version hc, ?_⟩
  intro c' hc' _
  rw [(hi.claim hc).1, hc] at hc'
  exact (Option.some.inj hc').symm

/-- The volume as read is the current one if the version is the same. -/
def CurrentVolume (pv : PersistentVolume) (s : Cluster) : Prop :=
  pv.resourceVersion ≤ s.revision ∧ ∀ pv', s.volumes pv.name = some pv' →
    pv'.resourceVersion = pv.resourceVersion → pv' = pv

/-- A volume as read stays the current one of its version. -/
theorem currentVolume_stable (pv : PersistentVolume) :
    Stable cfg steady w (CurrentVolume pv) := by
  intro s t hstep hs
  obtain ⟨_, _, _, _, h⟩ := hstep
  refine ⟨hs.1.trans h.revision, ?_⟩
  intro pv' hpv' hversion
  have hbound := hs.1
  have hchange := h.volumes pv.name
  rw [hpv'] at hchange
  rcases hchange.of_some with hsame | ⟨_, _, hupdate⟩ | ⟨_, hforeign | ⟨_, _, _, hnew⟩⟩
  · exact hs.2 pv' hsame hversion
  · have hfresh := hupdate.version.1
    omega
  · have hfresh := hforeign.version.1
    omega
  · have hfresh := hnew.version.1
    omega

/-- A volume is current when it is read. -/
theorem currentVolume_read {name : String} {pv : PersistentVolume} (hi : Inv cfg steady s)
    (hpv : s.volumes name = some pv) : CurrentVolume pv s := by
  refine ⟨hi.volume_version hpv, ?_⟩
  intro pv' hpv' _
  rw [hi.volume_name hpv, hpv] at hpv'
  exact (Option.some.inj hpv').symm

end Versions

section Claims

variable {key : ObjectKey} {c : PersistentVolumeClaim}

/-- The claim as read is still there, held by the finalizer. -/
def ClaimHeld (key : ObjectKey) (c : PersistentVolumeClaim) (s : Cluster) : Prop :=
  ∃ c', s.claims key = some c' ∧ c'.uid = c.uid ∧ finalizer ∈ c'.finalizers ∧
    (c.deleting = true → c'.deleting = true)

/-- Nobody else takes the finalizer from the claim. -/
theorem claimHeld_stable (key : ObjectKey) (c : PersistentVolumeClaim) :
    Stable cfg steady (.claim key) (ClaimHeld key c) := by
  intro s t hstep hs
  obtain ⟨_, v, _, hv, h⟩ := hstep
  obtain ⟨c', hc', huid, hf, hd⟩ := hs
  have hchange := h.claims key
  rw [hc'] at hchange
  obtain ⟨c'', hc'', huid', hf', hd'⟩ := hchange.held hf (Or.inl hv)
  exact ⟨c'', hc'', huid'.trans huid, hf', fun hdel => hd' (hd hdel)⟩

/-- Only the claim's own controller acts for the claim's UID. -/
theorem ClaimHeld.actor (hi : Inv cfg steady s) (hs : ClaimHeld key c s) {owner : ObjectKey}
    {c' : PersistentVolumeClaim} (hc' : s.claims owner = some c') (huid : c'.uid = c.uid) :
    owner = key := by
  obtain ⟨c₀, hc₀, huid₀, -⟩ := hs
  exact hi.claim_key hc' hc₀ (huid.trans huid₀.symm)

/-- Nobody else creates the volume of a held claim. -/
theorem noVolume_stable (key : ObjectKey) (c : PersistentVolumeClaim) :
    StableAlong cfg steady (.claim key) (ClaimHeld key c)
      fun s => s.volumes (pvNameForPVC c.uid) = none := by
  intro s t hstep hheld hs
  obtain ⟨hi, v, seen, hv, h⟩ := hstep
  have hchange := h.volumes (pvNameForPVC c.uid)
  rw [hs] at hchange
  cases hafter : t.volumes (pvNameForPVC c.uid) with
  | none => rfl
  | some pv =>
    rw [hafter] at hchange
    rcases hchange.of_some with hsame | ⟨_, hsome, _⟩ | ⟨_, hforeign | ⟨owner, c', ref, hnew⟩⟩
    · cases hsame
    · cases hsome
    · obtain ⟨c₀, hc₀, huid₀, hf₀, -⟩ := hheld
      have hapart := hforeign.apart key c₀ hc₀ hf₀
      rw [huid₀] at hapart
      exact absurd rfl hapart
    · have huid := pvNameForPVC_injective hnew.name_eq
      have howner := hheld.actor hi hnew.claim huid.symm
      subst howner
      exact absurd hnew.actor hv

/-- A volume of a held claim was there before. -/
theorem volume_known {v : Option Worker} {seen : Record Req Resp} (hi : Inv cfg steady s)
    (h : Step cfg steady v seen s t) (hv : v ≠ some (.claim key)) (hheld : ClaimHeld key c s)
    {pv' : PersistentVolume} (hpv : t.volumes (pvNameForPVC c.uid) = some pv') :
    ∃ pv, s.volumes (pvNameForPVC c.uid) = some pv ∧
      (pv.deleting = true → pv'.deleting = true) ∧
      pv'.spec.reclaimPolicy = pv.spec.reclaimPolicy := by
  have hchange := h.volumes (pvNameForPVC c.uid)
  rw [hpv] at hchange
  rcases hchange.of_some with hsame | ⟨pv, hbefore, hupdate⟩ | ⟨hnone, _⟩
  · exact ⟨pv', hsame, id, rfl⟩
  · exact ⟨pv, hbefore, hupdate.deleting, hupdate.policy⟩
  · have hstill : t.volumes (pvNameForPVC c.uid) = none :=
      noVolume_stable key c ⟨hi, v, seen, hv, h⟩ hheld hnone
    rw [hpv] at hstill
    cases hstill

/-- Nobody takes back that the volume of a held claim is let go. -/
theorem letGo_stable (key : ObjectKey) (c : PersistentVolumeClaim) :
    StableAlong cfg steady (.claim key) (ClaimHeld key c) fun s => LetGo s c.uid := by
  intro s t hstep hheld hs pv' hpv'
  obtain ⟨hi, v, seen, hv, h⟩ := hstep
  obtain ⟨pv, hpv, hdeleting, hpolicy⟩ := volume_known hi h hv hheld hpv'
  rcases hs pv hpv with hd | hp
  · exact Or.inl (hdeleting hd)
  · refine Or.inr ?_
    rw [hpolicy]
    exact hp

/-- The volume of a claim is to be deleted with it, if there is one. -/
def ToDelete (u : UID) (s : Cluster) : Prop :=
  ∀ pv, s.volumes (pvNameForPVC u) = some pv → pv.spec.reclaimPolicy = .delete

/-- The reclaim policy of its volume stays. -/
theorem toDelete_stable (key : ObjectKey) (c : PersistentVolumeClaim) :
    StableAlong cfg steady (.claim key) (ClaimHeld key c) (ToDelete c.uid) := by
  intro s t hstep hheld hs pv' hpv'
  obtain ⟨hi, v, seen, hv, h⟩ := hstep
  obtain ⟨pv, hpv, -, hpolicy⟩ := volume_known hi h hv hheld hpv'
  exact hpolicy.trans (hs pv hpv)

/-- Nobody else creates the provisioner Pod of a held claim. -/
theorem noProvisioner_stable (key : ObjectKey) (c : PersistentVolumeClaim) :
    StableAlong cfg steady (.claim key) (ClaimHeld key c)
      fun s => s.pods (provisionerPodName cfg c.uid) = none := by
  intro s t hstep hheld hs
  obtain ⟨hi, v, seen, hv, h⟩ := hstep
  cases hafter : t.pods (provisionerPodName cfg c.uid) with
  | none => rfl
  | some pod =>
    obtain ⟨owner, c', huid, hnew⟩ := h.provisioner_new hs hafter
    have howner := hheld.actor hi hnew.claim huid
    subst howner
    exact absurd hnew.actor hv

/-- Nobody else deletes the provisioner Pod of a held claim. -/
theorem not_mayDelete {v : Option Worker} (hi : Inv cfg steady s) (hv : v ≠ some (.claim key))
    (hheld : ClaimHeld key c s) {pod : Pod} :
    ¬ MayDelete cfg steady v s (provisionerPodName cfg c.uid) pod := by
  intro hmay
  obtain ⟨owner, c', hactor, hc', huid, -⟩ := hmay.of_provisioner
  have howner := hheld.actor hi hc' huid
  subst howner
  exact absurd hactor hv

/-- A provisioner Pod of a held claim was there before. -/
theorem provisioner_known {v : Option Worker} {seen : Record Req Resp} (hi : Inv cfg steady s)
    (h : Step cfg steady v seen s t) (hv : v ≠ some (.claim key)) (hheld : ClaimHeld key c s)
    {pod' : Pod} (hpod : t.pods (provisionerPodName cfg c.uid) = some pod') :
    ∃ pod, s.pods (provisionerPodName cfg c.uid) = some pod ∧
      (pod'.deleting = true → pod.deleting = true) ∧
      (pod.phase.terminal = true → pod'.phase = pod.phase) := by
  rcases h.provisioner_pod hpod with ⟨pod, hbefore, hkept⟩ | ⟨hnone, _⟩
  · refine ⟨pod, hbefore, ?_, hkept.terminal⟩
    intro hd
    rcases hkept.deleting hd with hd | ⟨_, hmay⟩
    · exact hd
    · exact absurd hmay (not_mayDelete hi hv hheld)
  · have hstill : t.pods (provisionerPodName cfg c.uid) = none :=
      noProvisioner_stable key c ⟨hi, v, seen, hv, h⟩ hheld hnone
    rw [hpod] at hstill
    cases hstill

/-- The provisioner Pod of a claim has not been told to terminate. -/
def NotTerminating (cfg : Config) (u : UID) (s : Cluster) : Prop :=
  ∀ pod, s.pods (provisionerPodName cfg u) = some pod → pod.deleting = false

/-- Nobody else deletes its provisioner Pod. -/
theorem notTerminating_stable (key : ObjectKey) (c : PersistentVolumeClaim) :
    StableAlong cfg steady (.claim key) (ClaimHeld key c) (NotTerminating cfg c.uid) := by
  intro s t hstep hheld hs pod' hpod'
  obtain ⟨hi, v, seen, hv, h⟩ := hstep
  obtain ⟨pod, hpod, hdeleting, -⟩ := provisioner_known hi h hv hheld hpod'
  have hfalse := hs pod hpod
  cases hd : pod'.deleting with
  | false => rfl
  | true =>
    rw [hdeleting hd] at hfalse
    cases hfalse

/-- The provisioner Pod of a claim has terminated, if there is one. -/
def Terminated (cfg : Config) (u : UID) (s : Cluster) : Prop :=
  ∀ pod, s.pods (provisionerPodName cfg u) = some pod → pod.phase.terminal = true

/-- A Pod that has terminated stays so, and nobody else creates another one. -/
theorem terminated_stable (key : ObjectKey) (c : PersistentVolumeClaim) :
    StableAlong cfg steady (.claim key) (ClaimHeld key c) (Terminated cfg c.uid) := by
  intro s t hstep hheld hs pod' hpod'
  obtain ⟨hi, v, seen, hv, h⟩ := hstep
  obtain ⟨pod, hpod, -, hphase⟩ := provisioner_known hi h hv hheld hpod'
  have hterminal := hs pod hpod
  rw [hphase hterminal]
  exact hterminal

/-- The provisioner Pod of a claim is there, has succeeded and stays. -/
def Succeeded (cfg : Config) (u : UID) (s : Cluster) : Prop :=
  ∃ pod, s.pods (provisionerPodName cfg u) = some pod ∧ pod.phase = .succeeded ∧
    pod.deleting = false

/-- A Pod that has succeeded stays. -/
theorem succeeded_stable (key : ObjectKey) (c : PersistentVolumeClaim) :
    StableAlong cfg steady (.claim key) (ClaimHeld key c) (Succeeded cfg c.uid) := by
  intro s t hstep hheld hs
  obtain ⟨hi, v, seen, hv, h⟩ := hstep
  obtain ⟨pod, hpod, hphase, hdeleting⟩ := hs
  have hterminal : pod.phase.terminal = true := by rw [hphase]; rfl
  have hchange := h.pods (provisionerPodName cfg c.uid)
  rw [hpod] at hchange
  cases hafter : t.pods (provisionerPodName cfg c.uid) with
  | none =>
    rw [hafter] at hchange
    cases hchange with
    | dropped allowed =>
      rcases allowed with hd | hmay
      · rw [hdeleting] at hd
        cases hd
      · exact absurd hmay (not_mayDelete hi hv hheld)
  | some pod' =>
    obtain ⟨pod₀, hpod₀, hdel, hkeep⟩ := provisioner_known hi h hv hheld hafter
    rw [hpod] at hpod₀
    have heq : pod = pod₀ := Option.some.inj hpod₀
    subst heq
    refine ⟨pod', hafter, (hkeep hterminal).trans hphase, ?_⟩
    cases hd : pod'.deleting with
    | false => rfl
    | true =>
      rw [hdel hd] at hdeleting
      cases hdeleting

end Claims

section Volumes

/-- The volume as read is still there, being deleted and held by the finalizer. -/
def VolumeHeld (name : String) (pv : PersistentVolume) (s : Cluster) : Prop :=
  ∃ pv', s.volumes name = some pv' ∧ finalizer ∈ pv'.finalizers ∧ pv'.deleting = true ∧
    pv'.spec.claimRef = pv.spec.claimRef ∧
    deprovisionerDisabled pv' = deprovisionerDisabled pv

/-- Nobody else takes the finalizer from a volume that is being deleted. -/
theorem volumeHeld_stable (name : String) (pv : PersistentVolume) :
    Stable cfg steady (.volume name) (VolumeHeld name pv) := by
  intro s t hstep hs
  obtain ⟨_, v, _, hv, h⟩ := hstep
  obtain ⟨pv', hpv', hf, hd, href, hdis⟩ := hs
  have hchange := h.volumes name
  rw [hpv'] at hchange
  obtain ⟨pv'', hpv'', hf', hd', href', hdis'⟩ := hchange.held hf hv
  exact ⟨pv'', hpv'', hf', hd' hd, href'.trans href, hdis'.trans hdis⟩

/-- A claim that is gone does not come back. -/
theorem gone_stable (u : UID) : Stable cfg steady w fun s => Gone s u := by
  intro s t hstep hs
  obtain ⟨_, _, _, _, h⟩ := hstep
  exact h.gone hs

/-- Nobody else creates the deprovisioner Pod of a held volume. -/
theorem noDeprovisioner_stable (name : String) (pv : PersistentVolume) :
    StableAlong cfg steady (.volume name) (VolumeHeld name pv)
      fun s => s.pods (deprovisionerPodName cfg name) = none := by
  intro s t hstep hheld hs
  obtain ⟨hi, v, seen, hv, h⟩ := hstep
  obtain ⟨pv', hpv', hf, -⟩ := hheld
  obtain ⟨ref, -, hname, -⟩ := hi.managed hpv' hf
  subst hname
  cases hafter : t.pods (deprovisionerPodName cfg (pvNameForPVC ref.uid)) with
  | none => rfl
  | some pod =>
    obtain ⟨_, _, hnew⟩ := h.deprovisioner_new hs hafter
    exact absurd hnew.actor hv

/-- The success of a Pod stays recorded. -/
theorem recordedSuccess_stable (key : ObjectKey) :
    Stable cfg steady w fun s => s.succeeded key = true := by
  intro s t hstep hs
  obtain ⟨_, _, _, _, h⟩ := hstep
  exact h.succeeded hs

end Volumes

end K8StorageX.Lifecycle
