import K8StorageX.LifecycleInvariant

/-!
# Steps of the API and of others

Storing, marking and removing objects are permitted steps under the conditions
stated here, and so is everything others do as long as they respect what is
reserved to the manager.
-/

namespace K8StorageX.Lifecycle

open ApiProgram KubeObjects ProvisionerPods KubeApi VolumeController ManagerSystem

variable {cfg : Config} {steady : Prop} {w : Option Worker} {seen : Record Req Resp}
variable {s t : Cluster}

section Effects

/-- A step that leaves claims, volumes and Pods alone. -/
theorem Step.unchanged (hclaims : t.claims = s.claims) (hvolumes : t.volumes = s.volumes)
    (hpods : t.pods = s.pods) (hrevision : t.revision = s.revision)
    (hissued : t.issued = s.issued) (hprovisioned : t.provisioned = s.provisioned)
    (hsucceeded : t.succeeded = s.succeeded) (hregistry : steady → t.provisioners = s.provisioners) :
    Step cfg steady w seen s t where
  claims key := by rw [hclaims]; exact .same _
  volumes name := by rw [hvolumes]; exact .same _
  pods key := by rw [hpods]; exact .same _
  revision := hrevision.ge
  issued hu := by rw [hissued]; exact hu
  provisioned _ := by rw [hprovisioned]; exact Or.inl rfl
  succeeded hk := by rw [hsucceeded]; exact hk
  recorded hk := by rw [hsucceeded] at hk; exact Or.inl hk
  registry := hregistry

theorem Step.refl (cfg : Config) (steady : Prop) (w : Option Worker) (seen : Record Req Resp)
    (s : Cluster) : Step cfg steady w seen s s :=
  .unchanged rfl rfl rfl rfl rfl rfl rfl fun _ => rfl

/-- The version of a stored object is new. -/
theorem freshVersion_succ (hrevision : t.revision = s.revision + 1) :
    FreshVersion s t (s.revision + 1) := by
  constructor <;> omega

/-- Storing a claim is a permitted change of it. -/
theorem Step.putClaim {c c' : PersistentVolumeClaim} (hc : s.claims c'.key = some c)
    (hu : ClaimUpdate cfg steady w s (s.putClaim c') c'.key c
      { c' with resourceVersion := s.revision + 1 }) :
    Step cfg steady w seen s (s.putClaim c') where
  claims key := by
    by_cases hkey : key = c'.key
    · subst hkey
      rw [hc]
      refine .updated hu ?_
      simp only [Cluster.putClaim, Function.update_self]
    · simp only [Cluster.putClaim, Function.update_of_ne hkey]
      exact .same _
  volumes _ := .same _
  pods _ := .same _
  revision := Nat.le_succ _
  issued := id
  provisioned _ := Or.inl rfl
  succeeded := id
  recorded := Or.inl
  registry _ := rfl

/-- Storing a volume is a permitted change of it. -/
theorem Step.putVolume {pv pv' : PersistentVolume} (hpv : s.volumes pv'.name = some pv)
    (hu : VolumeUpdate cfg w s (s.putVolume pv') pv'.name pv
      { pv' with resourceVersion := s.revision + 1 }) :
    Step cfg steady w seen s (s.putVolume pv') where
  claims _ := .same _
  volumes name := by
    by_cases hname : name = pv'.name
    · subst hname
      rw [hpv]
      refine .updated hu ?_
      simp only [Cluster.putVolume, Function.update_self]
    · simp only [Cluster.putVolume, Function.update_of_ne hname]
      exact .same _
  pods _ := .same _
  revision := Nat.le_succ _
  issued := id
  provisioned _ := Or.inl rfl
  succeeded := id
  recorded := Or.inl
  registry _ := rfl

/-- Storing a new volume of a claim is permitted to the claim's controller. -/
theorem Step.provision {pv : PersistentVolume} {key : ObjectKey} {c : PersistentVolumeClaim}
    {ref : ObjectReference} (habsent : s.volumes pv.name = none)
    (hnew : ProvisionedVolume cfg steady w s (s.provision pv) pv.name
      { pv with deleting := false, phase := .pending, resourceVersion := s.revision + 1 } key c ref) :
    Step cfg steady w seen s (s.provision pv) where
  claims _ := .same _
  volumes name := by
    by_cases hname : name = pv.name
    · subst hname
      simp only [Cluster.provision, Cluster.putVolume, Function.update_self, habsent,
        Bool.false_and, Bool.false_eq_true, if_false]
      exact .provisioned hnew
    · simp only [Cluster.provision, Cluster.putVolume, Function.update_of_ne hname]
      exact .same _
  pods _ := .same _
  revision := Nat.le_succ _
  issued := id
  provisioned name := by
    by_cases hname : name = pv.name
    · subst hname
      refine Or.inr ⟨habsent, ref, hnew.recorded, ?_⟩
      rw [hnew.ref_uid]
      exact hnew.name_eq
    · exact Or.inl (Function.update_of_ne hname _ _)
  succeeded := id
  recorded := Or.inl
  registry _ := rfl

/-- Storing a Pod is a permitted change of it. -/
theorem Step.putPod {pod : Pod}
    (hp : PodChange cfg steady w seen s (s.putPod pod) pod.key (s.pods pod.key) (some pod)) :
    Step cfg steady w seen s (s.putPod pod) where
  claims _ := .same _
  volumes _ := .same _
  pods key := by
    by_cases hkey : key = pod.key
    · subst hkey
      have hafter : (s.putPod pod).pods pod.key = some pod := Function.update_self _ _ _
      rw [hafter]
      exact hp
    · have hafter : (s.putPod pod).pods key = s.pods key := Function.update_of_ne hkey _ _
      rw [hafter]
      exact .same _
  revision := le_rfl
  issued := id
  provisioned _ := Or.inl rfl
  succeeded := id
  recorded := Or.inl
  registry _ := rfl

/-- Removing a Pod is a permitted change of it. -/
theorem Step.dropPod {pod : Pod} (hpod : s.pods pod.key = some pod)
    (hd : pod.deleting = true ∨ MayDelete cfg steady w s pod.key pod) :
    Step cfg steady w seen s (s.dropPod pod) where
  claims _ := .same _
  volumes _ := .same _
  pods key := by
    by_cases hkey : key = pod.key
    · subst hkey
      have hafter : (s.dropPod pod).pods pod.key = none := Function.update_self _ _ _
      rw [hafter, hpod]
      exact .dropped hd
    · have hafter : (s.dropPod pod).pods key = s.pods key := Function.update_of_ne hkey _ _
      rw [hafter]
      exact .same _
  revision := le_rfl
  issued := id
  provisioned _ := Or.inl rfl
  succeeded := id
  recorded := Or.inl
  registry _ := rfl

/-- Deleting a claim is permitted. -/
theorem Step.markClaim (hi : Inv cfg steady s) {key : ObjectKey} {c : PersistentVolumeClaim}
    (hc : s.claims key = some c) : Step cfg steady w seen s (s.markClaim c) := by
  rw [Cluster.markClaim]
  split
  · exact .refl ..
  · have hkey := (hi.claim hc).1
    subst hkey
    exact .putClaim hc ⟨rfl, rfl, fun _ => rfl, freshVersion_succ rfl, Or.inl, id, fun _ => id⟩

/-- Deleting a volume is permitted, to the claim's controller if it is to be deleted. -/
theorem Step.markVolume (hi : Inv cfg steady s) {name : String} {pv : PersistentVolume}
    (hpv : s.volumes name = some pv)
    (hpolicy : ∀ key, w = some (.claim key) → pv.spec.reclaimPolicy = .delete) :
    Step cfg steady w seen s (s.markVolume pv) := by
  rw [Cluster.markVolume]
  split
  · exact .refl ..
  · have hname := hi.volume_name hpv
    subst hname
    exact .putVolume hpv ⟨rfl, fun _ => rfl, fun _ _ => hpolicy, freshVersion_succ rfl, rfl, id,
      Or.inl, fun _ => Or.inl rfl, Or.inl rfl⟩

/-- Deleting a Pod is permitted to those who may. -/
theorem Step.markPod (hi : Inv cfg steady s) {key : ObjectKey} {pod : Pod}
    (hpod : s.pods key = some pod) (graceful : Bool) (hd : MayDelete cfg steady w s key pod) :
    Step cfg steady w seen s (s.markPod graceful pod) := by
  have hkey := hi.pod_key hpod
  subst hkey
  rw [Cluster.markPod]
  split
  · rename_i hgraceful
    simp only [Bool.and_eq_true, Bool.not_eq_true'] at hgraceful
    refine .putPod ?_
    rw [hpod]
    exact .marked hgraceful.2 hd
  · exact .dropPod hpod (Or.inr hd)

end Effects

section Others

/-- Annotations that only gain values, and do not name another registered provisioner. -/
def KeepsAnnotations (registry : String → Option StorageProvisioner) (a b : Annotations) : Prop :=
  (∀ k, a.get k ≠ "" → b.get k ≠ "") ∧
    (b.get annStorageProvisioner = a.get annStorageProvisioner ∨
      registry (a.get annStorageProvisioner) = none)

theorem Runnable.kept {registry : String → Option StorageProvisioner} {a b : Annotations}
    (hr : Runnable registry a) (hk : KeepsAnnotations registry a b) : Runnable registry b := by
  obtain ⟨hnode, p, hp, henv⟩ := hr
  rw [annotationsToEnv_eq_none_iff] at henv
  have hsame : b.get annStorageProvisioner = a.get annStorageProvisioner := by
    rcases hk.2 with hsame | hnone
    · exact hsame
    · rw [hp] at hnone
      cases hnone
  refine ⟨hk.1 _ hnode, p, ?_, ?_⟩
  · rw [hsame]
    exact hp
  · rw [annotationsToEnv_eq_none_iff]
    intro m hm
    exact (henv m hm).imp_left (hk.1 m.annotation)

/-- Others leave to the manager what is reserved to it: its finalizer, its annotations,
references to claims, reclaim policies, the names of its volumes and its Pods. In a
steady cluster they also keep what the provisioners of claims depend on. -/
def Respects (cfg : Config) (steady : Prop) (s : Cluster) : Env → Prop
  | .createClaim c => ¬ DisablesDeprovisioner c.annotations
  | .editClaim c => ∀ stored, s.claims c.key = some stored →
      (finalizer ∈ stored.finalizers → finalizer ∈ c.finalizers) ∧
      ¬ DisablesDeprovisioner c.annotations ∧
      (steady → KeepsAnnotations s.provisioners stored.annotations c.annotations)
  | .createVolume pv => finalizer ∉ pv.finalizers ∧ deprovisionerDisabled pv = false ∧
      ∀ key c, s.claims key = some c → finalizer ∈ c.finalizers → pv.name ≠ pvNameForPVC c.uid
  | .editVolume pv => ∀ stored, s.volumes pv.name = some stored →
      pv.spec.reclaimPolicy = stored.spec.reclaimPolicy ∧
      (finalizer ∈ pv.finalizers ↔ finalizer ∈ stored.finalizers) ∧
      (finalizer ∈ stored.finalizers → pv.spec.claimRef = stored.spec.claimRef) ∧
      deprovisionerDisabled pv = deprovisionerDisabled stored
  | .createPod pod => NotJob cfg pod.key
  | .deletePod key _ => NotJob cfg key
  | .setProvisioner _ _ => ¬ steady
  | _ => True

theorem step_createClaim {c : PersistentVolumeClaim} (hkey : s.claims c.key = none)
    (huid : s.issued c.uid = none) (hclean : ¬ DisablesDeprovisioner c.annotations) :
    Step cfg steady w seen s { s.putClaim { c with deleting := false } with
      issued := Function.update s.issued c.uid (some c.key) } where
  claims key := by
    by_cases hk : key = c.key
    · subst hk
      simp only [Cluster.putClaim, Function.update_self, hkey, Bool.false_and, Bool.false_eq_true,
        if_false]
      exact .created ⟨rfl, huid, Function.update_self _ _ _, freshVersion_succ rfl, hclean⟩
    · simp only [Cluster.putClaim, Function.update_of_ne hk]
      exact .same _
  volumes _ := .same _
  pods _ := .same _
  revision := Nat.le_succ _
  issued {u key} hu := by
    have hne : u ≠ c.uid := by
      intro heq
      rw [heq, huid] at hu
      cases hu
    exact (Function.update_of_ne hne _ _).trans hu
  provisioned _ := Or.inl rfl
  succeeded := id
  recorded := Or.inl
  registry _ := rfl

theorem step_createVolume {pv : PersistentVolume} (habsent : s.volumes pv.name = none)
    (hunmanaged : finalizer ∉ pv.finalizers) (hclean : deprovisionerDisabled pv = false)
    (hapart : ∀ key c, s.claims key = some c → finalizer ∈ c.finalizers →
      pv.name ≠ pvNameForPVC c.uid) :
    Step cfg steady none seen s (s.putVolume { pv with deleting := false }) where
  claims _ := .same _
  volumes name := by
    by_cases hname : name = pv.name
    · subst hname
      simp only [Cluster.putVolume, Function.update_self, habsent, Bool.false_and,
        Bool.false_eq_true, if_false]
      exact .foreign ⟨rfl, rfl, freshVersion_succ rfl, hunmanaged, hclean, hapart⟩
    · simp only [Cluster.putVolume, Function.update_of_ne hname]
      exact .same _
  pods _ := .same _
  revision := Nat.le_succ _
  issued := id
  provisioned _ := Or.inl rfl
  succeeded := id
  recorded := Or.inl
  registry _ := rfl

theorem step_podPhase {pod : Pod} (phase : PodPhase) (hpod : s.pods pod.key = some pod)
    (hrunning : pod.phase.terminal = false) :
    Step cfg steady w seen s (if phase = .succeeded then
      { s.putPod { pod with phase := phase } with
        succeeded := Function.update s.succeeded pod.key true }
      else s.putPod { pod with phase := phase }) := by
  split
  · rename_i hphase
    have hpods : ∀ key, PodChange cfg steady w seen s
        { s.putPod { pod with phase := phase } with
          succeeded := Function.update s.succeeded pod.key true } key (s.pods key)
        ((s.putPod { pod with phase := phase }).pods key) := by
      intro key
      by_cases hkey : key = pod.key
      · subst hkey
        simp only [Cluster.putPod, Function.update_self, hpod]
        exact .phase hrunning fun _ => Function.update_self _ _ _
      · simp only [Cluster.putPod, Function.update_of_ne hkey]
        exact .same _
    refine ⟨fun _ => .same _, fun _ => .same _, hpods, le_rfl, id, fun _ => Or.inl rfl, ?_, ?_,
      fun _ => rfl⟩
    · intro key hk
      by_cases hkey : key = pod.key
      · subst hkey
        exact Function.update_self _ _ _
      · exact (Function.update_of_ne hkey _ _).trans hk
    · intro key hk
      by_cases hkey : key = pod.key
      · subst hkey
        exact Or.inr ⟨_, Function.update_self _ _ _, hphase⟩
      · have hsame : Function.update s.succeeded pod.key true key = s.succeeded key :=
          Function.update_of_ne hkey _ _
        exact Or.inl (hsame.symm.trans hk)
  · rename_i hphase
    refine .putPod ?_
    simp only [hpod]
    exact .phase hrunning fun heq => absurd heq hphase

/-- Others who respect what is reserved to the manager take permitted steps. -/
theorem step_act (hi : Inv cfg steady s) {e : Env} (hr : Respects cfg steady s e)
    (h : act s e = some t) : Step cfg steady none seen s t := by
  cases acts_of_act h with
  | createClaim hkey huid => exact step_createClaim hkey huid hr
  | @editClaim c stored hc =>
    obtain ⟨hheld, hclean, hkeeps⟩ := hr stored hc
    have hmerged : (Cluster.mergeClaim stored c).key = c.key := (hi.claim hc).1
    rw [← hmerged] at hc
    refine .putClaim hc ⟨rfl, rfl, id, freshVersion_succ rfl, fun hf => Or.inl (hheld hf),
      fun _ => hclean, fun hsteady hrun => hrun.kept (hkeeps hsteady)⟩
  | deleteClaim hc => exact .markClaim hi hc
  | createVolume hpv => exact step_createVolume hpv hr.1 hr.2.1 hr.2.2
  | @editVolume pv stored hpv =>
    obtain ⟨hpolicy, hmanaged, href, hdisabled⟩ := hr stored hpv
    have hname := hi.volume_name hpv
    refine .putVolume hpv ⟨hname.symm, id, ?_, freshVersion_succ rfl, hpolicy, hmanaged.mp,
      fun hf => Or.inl (hmanaged.mpr hf), fun hf => Or.inl (href hf), Or.inl hdisabled⟩
    intro _ _ key hw
    cases hw
  | deleteVolume hpv => exact .markVolume hi hpv nofun
  | createPod hpod =>
    refine .putPod ?_
    simp only [hpod]
    exact .created rfl hr rfl
  | @podPhase key phase pod hpod hrunning =>
    have hkey := hi.pod_key hpod
    subst hkey
    exact step_podPhase phase hpod hrunning
  | deletePod hpod => exact .markPod hi hpod _ (.other hr)
  | @removePod key pod hpod hdeleting =>
    have hkey := hi.pod_key hpod
    subst hkey
    exact .dropPod hpod (Or.inl hdeleting)
  | setStorageClass => exact .unchanged rfl rfl rfl rfl rfl rfl rfl fun _ => rfl
  | setProvisioner =>
    exact .unchanged rfl rfl rfl rfl rfl rfl rfl fun hsteady => absurd hsteady hr
  | deliver => exact .unchanged rfl rfl rfl rfl rfl rfl rfl fun _ => rfl
  | resync => exact .refl ..

end Others

end K8StorageX.Lifecycle
