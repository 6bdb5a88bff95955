import K8StorageX.Lifecycle

/-!
# What always holds of claims, volumes and job Pods

The invariant is kept by every permitted step, whoever takes it. It links a
cleared reference to a claim that is gone, a disabled deprovisioner to a
deprovisioner Pod that has succeeded, and a provisioner Pod to a claim that is
held by its finalizer.
-/

namespace K8StorageX.Lifecycle

open ApiProgram KubeObjects ProvisionerPods KubeApi VolumeController ManagerSystem

variable {cfg : Config} {steady : Prop} {w : Option Worker} {seen : Record Req Resp}
variable {s t : Cluster}

/-- The invariant of the cluster. -/
structure Inv (cfg : Config) (steady : Prop) (s : Cluster) : Prop where
  /-- Claims are stored under their names and their UIDs are recorded. -/
  claim : ∀ {key c}, s.claims key = some c → c.key = key ∧ s.issued c.uid = some key
  /-- Versions of claims are bounded. -/
  claim_version : ∀ {key c}, s.claims key = some c → c.resourceVersion ≤ s.revision
  /-- No claim disables a deprovisioner. -/
  claim_clean : ∀ {key c}, s.claims key = some c → ¬ DisablesDeprovisioner c.annotations
  /-- Volumes are stored under their names. -/
  volume_name : ∀ {name pv}, s.volumes name = some pv → pv.name = name
  /-- Versions of volumes are bounded. -/
  volume_version : ∀ {name pv}, s.volumes name = some pv → pv.resourceVersion ≤ s.revision
  /-- A managed volume has been created for a claim; the claim is gone if the volume
  does not refer to it any more. -/
  managed : ∀ {name pv}, s.volumes name = some pv → finalizer ∈ pv.finalizers →
    ∃ ref, s.provisioned name = some ref ∧ name = pvNameForPVC ref.uid ∧
      s.issued ref.uid = some ref.key ∧
      (pv.spec.claimRef = some ref ∨ pv.spec.claimRef = none ∧ Gone s ref.uid)
  /-- Volumes are created under the names of their claims. -/
  recorded : ∀ {name ref}, s.provisioned name = some ref → name = pvNameForPVC ref.uid
  /-- A deprovisioner is disabled after it has succeeded. -/
  disabled : ∀ {name pv}, s.volumes name = some pv → deprovisionerDisabled pv = true →
    s.succeeded (deprovisionerPodName cfg name) = true
  /-- Pods are stored under their names. -/
  pod_key : ∀ {key pod}, s.pods key = some pod → pod.key = key
  /-- The success of a Pod is recorded. -/
  pod_succeeded : ∀ {key pod}, s.pods key = some pod → pod.phase = .succeeded →
    s.succeeded key = true
  /-- A provisioner Pod belongs to a claim that is held by the finalizer. -/
  provisioner_held : ∀ {u pod}, s.pods (provisionerPodName cfg u) = some pod →
    ∃ key c, s.claims key = some c ∧ c.uid = u ∧ finalizer ∈ c.finalizers
  /-- No provisioner Pod disables a deprovisioner. -/
  provisioner_clean : ∀ {u pod}, s.pods (provisionerPodName cfg u) = some pod →
    ¬ DisablesDeprovisioner pod.annotations
  /-- A deprovisioner Pod belongs to a claim that is gone. -/
  deprovisioner_gone : ∀ {u pod},
    s.pods (deprovisionerPodName cfg (pvNameForPVC u)) = some pod → Gone s u
  /-- A deprovisioner Pod that has succeeded belonged to a claim that is gone. -/
  succeeded_gone : ∀ {u},
    s.succeeded (deprovisionerPodName cfg (pvNameForPVC u)) = true → Gone s u
  /-- The success of a deprovisioner Pod is remembered before the Pod is deleted. -/
  once : ∀ {name pv}, s.volumes name = some pv → finalizer ∈ pv.finalizers →
    s.succeeded (deprovisionerPodName cfg name) = true → deprovisionerDisabled pv = true ∨
      ∃ pod, s.pods (deprovisionerPodName cfg name) = some pod ∧ pod.phase = .succeeded
  /-- A deprovisioner Pod is deleted when it is not needed any more. -/
  deprovisioner_deleting : ∀ {name pv pod}, s.volumes name = some pv →
    finalizer ∈ pv.finalizers → s.pods (deprovisionerPodName cfg name) = some pod →
    pod.deleting = true → deprovisionerDisabled pv = true
  /-- A provisioner Pod that has to terminate belongs to a claim that is deleted. -/
  provisioner_deleting : steady → ∀ {u pod key c}, s.pods (provisionerPodName cfg u) = some pod →
    pod.deleting = true → s.claims key = some c → c.uid = u → c.deleting = true
  /-- The provisioner Pod of a volume has terminated. -/
  provisioner_done : steady → ∀ {u pod pv}, s.pods (provisionerPodName cfg u) = some pod →
    s.volumes (pvNameForPVC u) = some pv → pod.phase.terminal = true
  /-- The claim of a provisioner Pod asks for it. -/
  provisioner_runnable : steady → ∀ {u pod key c}, s.pods (provisionerPodName cfg u) = some pod →
    s.claims key = some c → c.uid = u → Runnable s.provisioners c.annotations

/-- UIDs tell claims apart. -/
theorem Inv.claim_key (hi : Inv cfg steady s) {key key' : ObjectKey}
    {c c' : PersistentVolumeClaim} (hc : s.claims key = some c) (hc' : s.claims key' = some c')
    (huid : c.uid = c'.uid) : key = key' := by
  have h := (hi.claim hc).2
  have h' := (hi.claim hc').2
  rw [huid, h'] at h
  exact (Option.some.inj h).symm

section Inversion

theorem ClaimChange.of_some {key : ObjectKey} {before : Option PersistentVolumeClaim}
    {c' : PersistentVolumeClaim} (h : ClaimChange cfg steady w s t key before (some c')) :
    before = some c' ∨ (before = none ∧ ClaimCreation s t key c') ∨
      ∃ c, before = some c ∧ ClaimUpdate cfg steady w s t key c c' := by
  cases h with
  | same => exact Or.inl rfl
  | created h => exact Or.inr (Or.inl ⟨rfl, h⟩)
  | @updated c c'' _ h stored =>
    split at stored
    · cases stored
    · have heq : c' = c'' := Option.some.inj stored
      rw [heq]
      exact Or.inr (Or.inr ⟨c, rfl, h⟩)

theorem VolumeChange.of_some {name : String} {before : Option PersistentVolume}
    {pv' : PersistentVolume} (h : VolumeChange cfg steady w s t name before (some pv')) :
    before = some pv' ∨ (∃ pv, before = some pv ∧ VolumeUpdate cfg w s t name pv pv') ∨
      (before = none ∧ (ForeignVolume w s t name pv' ∨
        ∃ key c ref, ProvisionedVolume cfg steady w s t name pv' key c ref)) := by
  cases h with
  | same => exact Or.inl rfl
  | foreign h => exact Or.inr (Or.inr ⟨rfl, Or.inl h⟩)
  | provisioned h => exact Or.inr (Or.inr ⟨rfl, Or.inr ⟨_, _, _, h⟩⟩)
  | @updated pv pv'' _ h stored =>
    split at stored
    · cases stored
    · have heq : pv' = pv'' := Option.some.inj stored
      rw [heq]
      exact Or.inr (Or.inl ⟨pv, rfl, h⟩)

/-- An object with a finalizer is not removed. -/
theorem stored_of_finalizer {α : Type} {deleting : Bool} {finalizers : List String} {object : α}
    {after : Option α}
    (stored : after = if deleting && finalizers.isEmpty then none else some object)
    (hf : finalizer ∈ finalizers) : after = some object := by
  have hne : finalizers.isEmpty = false :=
    List.isEmpty_eq_false_iff_exists_mem.mpr ⟨finalizer, hf⟩
  rwa [hne, Bool.and_false, if_neg Bool.false_ne_true] at stored

/-- A claim held by its finalizer stays if its own controller does not act. -/
theorem ClaimChange.held {key : ObjectKey} {c : PersistentVolumeClaim}
    {after : Option PersistentVolumeClaim}
    (h : ClaimChange cfg steady w s t key (some c) after) (hf : finalizer ∈ c.finalizers)
    (hw : w ≠ some (.claim key) ∨ t.pods (provisionerPodName cfg c.uid) ≠ none) :
    ∃ c', after = some c' ∧ c'.uid = c.uid ∧ finalizer ∈ c'.finalizers ∧
      (c.deleting = true → c'.deleting = true) := by
  cases h with
  | same => exact ⟨c, rfl, rfl, hf, id⟩
  | @updated _ c' _ h stored =>
    have hf' : finalizer ∈ c'.finalizers := by
      rcases h.held hf with hkept | hreleased
      · exact hkept
      · rcases hw with hw | hw
        · exact absurd hreleased.1 hw
        · exact absurd hreleased.2.2.2.1 hw
    exact ⟨c', stored_of_finalizer stored hf', h.uid, hf', h.deleting⟩

/-- A volume held by its finalizer stays if its own controller does not act. -/
theorem VolumeChange.held {name : String} {pv : PersistentVolume}
    {after : Option PersistentVolume}
    (h : VolumeChange cfg steady w s t name (some pv) after) (hf : finalizer ∈ pv.finalizers)
    (hw : w ≠ some (.volume name)) :
    ∃ pv', after = some pv' ∧ finalizer ∈ pv'.finalizers ∧
      (pv.deleting = true → pv'.deleting = true) ∧ pv'.spec.claimRef = pv.spec.claimRef ∧
      deprovisionerDisabled pv' = deprovisionerDisabled pv := by
  cases h with
  | same => exact ⟨pv, rfl, hf, id, rfl, rfl⟩
  | @updated _ pv' _ h stored =>
    have hf' : finalizer ∈ pv'.finalizers := by
      rcases h.held hf with hkept | hreleased
      · exact hkept
      · exact absurd hreleased.1 hw
    have href : pv'.spec.claimRef = pv.spec.claimRef := by
      rcases h.claimRef hf with hsame | hcleared
      · exact hsame
      · exact absurd hcleared.1 hw
    have hdisabled : deprovisionerDisabled pv' = deprovisionerDisabled pv := by
      rcases h.disabled with hsame | hset
      · exact hsame
      · exact absurd hset.1 hw
    exact ⟨pv', stored_of_finalizer stored hf', hf', h.deleting, href, hdisabled⟩

/-- The finalizer of a claim is removed by the claim's controller, when the claim is being
deleted and nothing is left. -/
theorem ClaimChange.released {key : ObjectKey} {c : PersistentVolumeClaim}
    {after : Option PersistentVolumeClaim}
    (h : ClaimChange cfg steady w s t key (some c) after) (hf : finalizer ∈ c.finalizers)
    (hremoved : ∀ c', after = some c' → finalizer ∉ c'.finalizers) :
    w = some (.claim key) ∧ c.deleting = true ∧ s.pods (provisionerPodName cfg c.uid) = none ∧
      LetGo s c.uid := by
  by_cases hw : w = some (.claim key)
  · cases h with
    | same => exact absurd hf (hremoved c rfl)
    | @updated _ c' _ h stored =>
      rcases h.held hf with hkept | hreleased
      · exact absurd hkept (hremoved c' (stored_of_finalizer stored hkept))
      · exact ⟨hw, hreleased.2.1, hreleased.2.2.1, hreleased.2.2.2.2⟩
  · obtain ⟨c', hc', -, hf', -⟩ := h.held hf (Or.inl hw)
    exact absurd hf' (hremoved c' hc')

/-- The finalizer of a volume is removed by the volume's controller, when it has been
deprovisioned. -/
theorem VolumeChange.released {name : String} {pv : PersistentVolume}
    {after : Option PersistentVolume}
    (h : VolumeChange cfg steady w s t name (some pv) after) (hf : finalizer ∈ pv.finalizers)
    (hremoved : ∀ pv', after = some pv' → finalizer ∉ pv'.finalizers) :
    w = some (.volume name) ∧ deprovisionerDisabled pv = true ∧
      s.pods (deprovisionerPodName cfg name) = none := by
  by_cases hw : w = some (.volume name)
  · cases h with
    | same => exact absurd hf (hremoved pv rfl)
    | @updated _ pv' _ h stored =>
      rcases h.held hf with hkept | hreleased
      · exact absurd hkept (hremoved pv' (stored_of_finalizer stored hkept))
      · exact ⟨hw, hreleased.2.1, hreleased.2.2⟩
  · obtain ⟨pv', hpv', hf', -⟩ := h.held hf hw
    exact absurd hf' (hremoved pv' hpv')

/-- The claim's controller does not delete a volume that is to be kept. -/
theorem VolumeChange.not_deleted {name : String} {pv : PersistentVolume} {key : ObjectKey}
    {after : Option PersistentVolume}
    (h : VolumeChange cfg steady (some (.claim key)) s t name (some pv) after)
    (hkept : pv.deleting = false) (hpolicy : pv.spec.reclaimPolicy ≠ .delete) :
    ∃ pv', after = some pv' ∧ pv'.deleting = false := by
  cases h with
  | same => exact ⟨pv, rfl, hkept⟩
  | @updated _ pv' _ h stored =>
    have hkept' : pv'.deleting = false := by
      cases hd : pv'.deleting with
      | false => rfl
      | true => exact absurd (h.deleted hkept hd key rfl) hpolicy
    rw [hkept', Bool.false_and, if_neg Bool.false_ne_true] at stored
    exact ⟨pv', stored, hkept'⟩

/-- What stays of a Pod that stays. -/
structure PodKept (cfg : Config) (steady : Prop) (w : Option Worker) (s : Cluster)
    (key : ObjectKey) (pod pod' : Pod) : Prop where
  /-- The annotations stay. -/
  annotations : pod'.annotations = pod.annotations
  /-- A Pod that has terminated stays so. -/
  terminal : pod.phase.terminal = true → pod'.phase = pod.phase
  /-- Only a Pod that has not terminated can be marked. -/
  deleting : pod'.deleting = true → pod.deleting = true ∨
    (pod.phase.terminal = false ∧ MayDelete cfg steady w s key pod)

theorem PodChange.of_some {key : ObjectKey} {before : Option Pod} {pod' : Pod}
    (h : PodChange cfg steady w seen s t key before (some pod')) :
    (∃ pod, before = some pod ∧ PodKept cfg steady w s key pod pod') ∨
      (before = none ∧ (NotJob cfg key ∨
        (∃ owner c, ProvisionerCreation cfg steady w s key pod' owner c) ∨
        ∃ name pv read, DeprovisionerCreation cfg w seen s key pod' name pv read)) := by
  cases h with
  | same => exact Or.inl ⟨pod', rfl, rfl, fun _ => rfl, Or.inl⟩
  | created key_eq other pending => exact Or.inr ⟨rfl, Or.inl other⟩
  | provisioner h => exact Or.inr ⟨rfl, Or.inr (Or.inl ⟨_, _, h⟩)⟩
  | deprovisioner h => exact Or.inr ⟨rfl, Or.inr (Or.inr ⟨_, _, _, h⟩)⟩
  | @phase pod _ running recorded =>
    refine Or.inl ⟨pod, rfl, rfl, ?_, Or.inl⟩
    intro hterminal
    rw [running] at hterminal
    cases hterminal
  | @marked pod running allowed =>
    exact Or.inl ⟨pod, rfl, rfl, fun _ => rfl, fun _ => Or.inr ⟨running, allowed⟩⟩

/-- The provisioner Pod of a claim was there before, or the claim's controller has created
it. -/
theorem Step.provisioner_pod (h : Step cfg steady w seen s t) {u : UID} {pod : Pod}
    (hpod : t.pods (provisionerPodName cfg u) = some pod) :
    (∃ pod₀, s.pods (provisionerPodName cfg u) = some pod₀ ∧
      PodKept cfg steady w s (provisionerPodName cfg u) pod₀ pod) ∨
    (s.pods (provisionerPodName cfg u) = none ∧ ∃ owner c, c.uid = u ∧
      ProvisionerCreation cfg steady w s (provisionerPodName cfg u) pod owner c) := by
  have hchange := h.pods (provisionerPodName cfg u)
  rw [hpod] at hchange
  rcases hchange.of_some with hkept | ⟨hnone, hother | ⟨owner, c, hnew⟩ | ⟨name, _, _, hnew⟩⟩
  · exact Or.inl hkept
  · exact absurd rfl (hother u).1
  · exact Or.inr ⟨hnone, owner, c, (provisionerPodName_injective hnew.key_eq).symm, hnew⟩
  · exact absurd hnew.key_eq.symm (deprovisionerPodName_ne_provisionerPodName cfg name u)

/-- The deprovisioner Pod of a volume was there before, or the volume's controller has
created it. -/
theorem Step.deprovisioner_pod (h : Step cfg steady w seen s t) {u : UID} {pod : Pod}
    (hpod : t.pods (deprovisionerPodName cfg (pvNameForPVC u)) = some pod) :
    (∃ pod₀, s.pods (deprovisionerPodName cfg (pvNameForPVC u)) = some pod₀ ∧
      PodKept cfg steady w s (deprovisionerPodName cfg (pvNameForPVC u)) pod₀ pod) ∨
    ∃ pv read, DeprovisionerCreation cfg w seen s (deprovisionerPodName cfg (pvNameForPVC u)) pod
      (pvNameForPVC u) pv read := by
  have hchange := h.pods (deprovisionerPodName cfg (pvNameForPVC u))
  rw [hpod] at hchange
  rcases hchange.of_some with hkept | ⟨_, hother | ⟨owner, c, hnew⟩ | ⟨name, pv, read, hnew⟩⟩
  · exact Or.inl hkept
  · exact absurd rfl (hother u).2
  · exact absurd hnew.key_eq (deprovisionerPodName_ne_provisionerPodName cfg _ c.uid)
  · have hname := deprovisionerPodName_injective hnew.key_eq.symm
    subst hname
    exact Or.inr ⟨pv, read, hnew⟩

/-- A new provisioner Pod has been created by the claim's controller. -/
theorem Step.provisioner_new (h : Step cfg steady w seen s t) {u : UID} {pod : Pod}
    (hbefore : s.pods (provisionerPodName cfg u) = none)
    (hpod : t.pods (provisionerPodName cfg u) = some pod) :
    ∃ owner c, c.uid = u ∧
      ProvisionerCreation cfg steady w s (provisionerPodName cfg u) pod owner c := by
  rcases h.provisioner_pod hpod with ⟨pod₀, hs, -⟩ | ⟨-, hnew⟩
  · rw [hbefore] at hs
    cases hs
  · exact hnew

/-- A new deprovisioner Pod has been created by the volume's controller. -/
theorem Step.deprovisioner_new (h : Step cfg steady w seen s t) {u : UID} {pod : Pod}
    (hbefore : s.pods (deprovisionerPodName cfg (pvNameForPVC u)) = none)
    (hpod : t.pods (deprovisionerPodName cfg (pvNameForPVC u)) = some pod) :
    ∃ pv read, DeprovisionerCreation cfg w seen s (deprovisionerPodName cfg (pvNameForPVC u)) pod
      (pvNameForPVC u) pv read := by
  rcases h.deprovisioner_pod hpod with ⟨pod₀, hs, -⟩ | hnew
  · rw [hbefore] at hs
    cases hs
  · exact hnew

/-- The provisioner Pod of a claim is deleted by the claim's controller. -/
theorem MayDelete.of_provisioner {u : UID} {pod : Pod}
    (h : MayDelete cfg steady w s (provisionerPodName cfg u) pod) :
    ∃ owner c, w = some (.claim owner) ∧ s.claims owner = some c ∧ c.uid = u ∧
      (steady → c.deleting = true ∨ pod.phase.terminal = true) := by
  cases h with
  | other hother => exact absurd rfl (hother u).1
  | provisioner actor claim key_eq allowed =>
    exact ⟨_, _, actor, claim, (provisionerPodName_injective key_eq).symm, allowed⟩
  | @deprovisioner name _ actor volume key_eq disabled =>
    exact absurd key_eq.symm (deprovisionerPodName_ne_provisionerPodName cfg name u)

/-- The deprovisioner Pod of a volume is deleted by the volume's controller. -/
theorem MayDelete.of_deprovisioner {u : UID} {pod : Pod}
    (h : MayDelete cfg steady w s (deprovisionerPodName cfg (pvNameForPVC u)) pod) :
    ∃ pv, w = some (.volume (pvNameForPVC u)) ∧ s.volumes (pvNameForPVC u) = some pv ∧
      deprovisionerDisabled pv = true := by
  cases h with
  | other hother => exact absurd rfl (hother u).2
  | @provisioner owner c actor claim key_eq allowed =>
    exact absurd key_eq (deprovisionerPodName_ne_provisionerPodName cfg _ c.uid)
  | @deprovisioner name pv actor volume key_eq disabled =>
    have hname := deprovisionerPodName_injective key_eq.symm
    subst hname
    exact ⟨pv, actor, volume, disabled⟩

end Inversion

section Steps

/-- A claim whose UID is known is the claim there was before. -/
theorem Step.claim_known (h : Step cfg steady w seen s t) {key key₀ : ObjectKey}
    {c' : PersistentVolumeClaim} (hc : t.claims key = some c')
    (hissued : s.issued c'.uid = some key₀) :
    ∃ c, s.claims key = some c ∧ c.uid = c'.uid ∧ (c.deleting = true → c'.deleting = true) ∧
      (steady → Runnable s.provisioners c.annotations →
        Runnable s.provisioners c'.annotations) := by
  have hchange := h.claims key
  rw [hc] at hchange
  rcases hchange.of_some with hsame | ⟨_, hcreated⟩ | ⟨c, hbefore, hupdate⟩
  · exact ⟨c', hsame, rfl, id, fun _ hr => hr⟩
  · have hfresh := hcreated.fresh
    rw [hissued] at hfresh
    cases hfresh
  · exact ⟨c, hbefore, hupdate.uid.symm, hupdate.deleting, hupdate.runnable⟩

/-- A claim that is gone does not come back. -/
theorem Step.gone (h : Step cfg steady w seen s t) {u : UID} (hg : Gone s u) : Gone t u := by
  obtain ⟨⟨key₀, hissued⟩, hnone⟩ := hg
  refine ⟨⟨key₀, h.issued hissued⟩, ?_⟩
  intro key c' hc huid
  have hissued' : s.issued c'.uid = some key₀ := by rw [huid, hissued]
  obtain ⟨c, hbefore, hcuid, -⟩ := h.claim_known hc hissued'
  exact hnone key c hbefore (hcuid.trans huid)

/-- The record of the creation of a volume stays with the volume. -/
theorem Step.provisioned_kept (h : Step cfg steady w seen s t) {name : String}
    {pv : PersistentVolume} (hpv : s.volumes name = some pv) :
    t.provisioned name = s.provisioned name := by
  rcases h.provisioned name with hsame | ⟨hnone, _⟩
  · exact hsame
  · rw [hpv] at hnone
    cases hnone

/-- A managed volume was a managed volume before, or its claim's controller has just
created it. -/
theorem Step.volume_managed (h : Step cfg steady w seen s t) {name : String}
    {pv' : PersistentVolume} (hpv : t.volumes name = some pv') (hf : finalizer ∈ pv'.finalizers) :
    (∃ pv, s.volumes name = some pv ∧ finalizer ∈ pv.finalizers ∧
      (deprovisionerDisabled pv = true → deprovisionerDisabled pv' = true)) ∨
      ∃ key c ref, ProvisionedVolume cfg steady w s t name pv' key c ref := by
  have hchange := h.volumes name
  rw [hpv] at hchange
  rcases hchange.of_some with hsame | ⟨pv, hbefore, hupdate⟩ | ⟨_, hforeign | hprovisioned⟩
  · exact Or.inl ⟨pv', hsame, hf, id⟩
  · refine Or.inl ⟨pv, hbefore, hupdate.managed hf, ?_⟩
    intro hd
    rcases hupdate.disabled with hsame | hset
    · rw [hsame, hd]
    · exact hset.2.1
  · exact absurd hf hforeign.unmanaged
  · exact Or.inr hprovisioned

/-- A provisioned volume belongs to a claim that is not gone. -/
theorem ProvisionedVolume.not_gone {name : String} {pv : PersistentVolume} {key : ObjectKey}
    {c : PersistentVolumeClaim} {ref : ObjectReference}
    (h : ProvisionedVolume cfg steady w s t name pv key c ref) : ¬ Gone s c.uid :=
  fun hg => hg.2 key c h.claim rfl

/-- A volume without a reference to its claim is one of a claim that is gone. -/
theorem DeprovisionerCreation.gone {key : ObjectKey} {pod : Pod} {u : UID}
    {pv read : PersistentVolume} (hi : Inv cfg steady s)
    (hnew : DeprovisionerCreation cfg w seen s key pod (pvNameForPVC u) pv read) : Gone s u := by
  obtain ⟨ref, -, hname, -, href⟩ := hi.managed hnew.volume hnew.managed
  have huid := pvNameForPVC_injective hname
  rw [huid]
  rcases href with hsome | hnone
  · rw [hnew.released] at hsome
    cases hsome
  · exact hnone.2

variable (hi : Inv cfg steady s) (h : Step cfg steady w seen s t)

include hi h

theorem Inv.claim_step {key : ObjectKey} {c : PersistentVolumeClaim} (hc : t.claims key = some c) :
    (c.key = key ∧ t.issued c.uid = some key) ∧ c.resourceVersion ≤ t.revision ∧
      ¬ DisablesDeprovisioner c.annotations := by
  have hchange := h.claims key
  rw [hc] at hchange
  rcases hchange.of_some with hsame | ⟨_, hcreated⟩ | ⟨c₀, hbefore, hupdate⟩
  · have hclaim := hi.claim hsame
    have hversion := hi.claim_version hsame
    exact ⟨⟨hclaim.1, h.issued hclaim.2⟩, hversion.trans h.revision, hi.claim_clean hsame⟩
  · exact ⟨⟨hcreated.name, hcreated.issued⟩, hcreated.version.2, hcreated.clean⟩
  · have hclaim := hi.claim hbefore
    refine ⟨⟨hupdate.name.trans hclaim.1, ?_⟩, hupdate.version.2,
      hupdate.clean (hi.claim_clean hbefore)⟩
    rw [hupdate.uid]
    exact h.issued hclaim.2

theorem Inv.volume_step {name : String} {pv : PersistentVolume} (hpv : t.volumes name = some pv) :
    pv.name = name ∧ pv.resourceVersion ≤ t.revision ∧
      (deprovisionerDisabled pv = true → t.succeeded (deprovisionerPodName cfg name) = true) := by
  have hchange := h.volumes name
  rw [hpv] at hchange
  rcases hchange.of_some with hsame | ⟨pv₀, hbefore, hupdate⟩ | ⟨_, hforeign | ⟨_, _, _, hnew⟩⟩
  · have hversion := hi.volume_version hsame
    exact ⟨hi.volume_name hsame, hversion.trans h.revision,
      fun hd => h.succeeded (hi.disabled hsame hd)⟩
  · refine ⟨hupdate.name.trans (hi.volume_name hbefore), hupdate.version.2, ?_⟩
    intro hd
    rcases hupdate.disabled with hkept | hset
    · rw [hkept] at hd
      exact h.succeeded (hi.disabled hbefore hd)
    · exact h.succeeded hset.2.2
  · refine ⟨hforeign.name, hforeign.version.2, ?_⟩
    intro hd
    rw [hforeign.clean] at hd
    cases hd
  · refine ⟨hnew.name, hnew.version.2, ?_⟩
    intro hd
    rw [hnew.clean] at hd
    cases hd

theorem Inv.managed_step {name : String} {pv : PersistentVolume} (hpv : t.volumes name = some pv)
    (hf : finalizer ∈ pv.finalizers) :
    ∃ ref, t.provisioned name = some ref ∧ name = pvNameForPVC ref.uid ∧
      t.issued ref.uid = some ref.key ∧
      (pv.spec.claimRef = some ref ∨ pv.spec.claimRef = none ∧ Gone t ref.uid) := by
  have hchange := h.volumes name
  rw [hpv] at hchange
  rcases hchange.of_some with hsame | ⟨pv₀, hbefore, hupdate⟩ | ⟨_, hforeign | ⟨key, c, ref, hnew⟩⟩
  · obtain ⟨ref, hprov, hname, hissued, href⟩ := hi.managed hsame hf
    refine ⟨ref, (h.provisioned_kept hsame).trans hprov, hname, h.issued hissued, ?_⟩
    exact href.imp_right fun hnone => ⟨hnone.1, h.gone hnone.2⟩
  · have hf₀ := hupdate.managed hf
    obtain ⟨ref, hprov, hname, hissued, href⟩ := hi.managed hbefore hf₀
    refine ⟨ref, (h.provisioned_kept hbefore).trans hprov, hname, h.issued hissued, ?_⟩
    rcases hupdate.claimRef hf₀ with hkept | ⟨_, hcleared, hgone⟩
    · rw [hkept]
      exact href.imp_right fun hnone => ⟨hnone.1, h.gone hnone.2⟩
    · refine Or.inr ⟨hcleared, h.gone ?_⟩
      rcases href with hsome | hnone
      · exact hgone ref hsome
      · exact hnone.2
  · exact absurd hf hforeign.unmanaged
  · have hissued := (hi.claim hnew.claim).2
    refine ⟨ref, hnew.recorded, ?_, ?_, Or.inl hnew.claimRef⟩
    · rw [hnew.ref_uid]
      exact hnew.name_eq
    · rw [hnew.ref_uid, hnew.ref_key]
      exact h.issued hissued

theorem Inv.recorded_step {name : String} {ref : ObjectReference}
    (hprov : t.provisioned name = some ref) : name = pvNameForPVC ref.uid := by
  rcases h.provisioned name with hsame | ⟨_, ref', href', hname⟩
  · rw [hsame] at hprov
    exact hi.recorded hprov
  · rw [hprov] at href'
    rw [Option.some.inj href']
    exact hname

theorem Inv.pod_step {key : ObjectKey} {pod : Pod} (hpod : t.pods key = some pod) :
    pod.key = key ∧ (pod.phase = .succeeded → t.succeeded key = true) := by
  have hchange := h.pods key
  rw [hpod] at hchange
  generalize hbefore : s.pods key = before at hchange
  cases hchange with
  | same => exact ⟨hi.pod_key hbefore, fun hp => h.succeeded (hi.pod_succeeded hbefore hp)⟩
  | created key_eq other pending =>
    refine ⟨key_eq, ?_⟩
    rw [pending]
    exact nofun
  | provisioner hnew =>
    refine ⟨hnew.pod_key, ?_⟩
    rw [hnew.pending]
    exact nofun
  | deprovisioner hnew =>
    refine ⟨hnew.pod_key, ?_⟩
    rw [hnew.pending]
    exact nofun
  | phase running recorded =>
    have hkey := hi.pod_key hbefore
    exact ⟨hkey, recorded⟩
  | marked running allowed =>
    have hkey := hi.pod_key hbefore
    exact ⟨hkey, fun hp => h.succeeded (hi.pod_succeeded hbefore hp)⟩

theorem Inv.provisioner_held_step {u : UID} {pod : Pod}
    (hpod : t.pods (provisionerPodName cfg u) = some pod) :
    ∃ key c, t.claims key = some c ∧ c.uid = u ∧ finalizer ∈ c.finalizers := by
  have hbefore : ∃ key c, s.claims key = some c ∧ c.uid = u ∧ finalizer ∈ c.finalizers := by
    rcases h.provisioner_pod hpod with ⟨pod₀, hs, -⟩ | ⟨-, owner, c, huid, hnew⟩
    · exact hi.provisioner_held hs
    · exact ⟨owner, c, hnew.claim, huid, hnew.managed⟩
  obtain ⟨key, c, hc, huid, hf⟩ := hbefore
  have hclaim := h.claims key
  rw [hc] at hclaim
  have hpresent : t.pods (provisionerPodName cfg c.uid) ≠ none := by
    rw [huid, hpod]
    exact nofun
  obtain ⟨c', hc', huid', hf', -⟩ := hclaim.held hf (Or.inr hpresent)
  exact ⟨key, c', hc', huid'.trans huid, hf'⟩

theorem Inv.provisioner_clean_step {u : UID} {pod : Pod}
    (hpod : t.pods (provisionerPodName cfg u) = some pod) :
    ¬ DisablesDeprovisioner pod.annotations := by
  rcases h.provisioner_pod hpod with ⟨pod₀, hs, hkept⟩ | ⟨-, owner, c, -, hnew⟩
  · rw [hkept.annotations]
    exact hi.provisioner_clean hs
  · exact hnew.clean

theorem Inv.deprovisioner_gone_step {u : UID} {pod : Pod}
    (hpod : t.pods (deprovisionerPodName cfg (pvNameForPVC u)) = some pod) : Gone t u := by
  refine h.gone ?_
  rcases h.deprovisioner_pod hpod with ⟨pod₀, hs, -⟩ | ⟨pv, read, hnew⟩
  · exact hi.deprovisioner_gone hs
  · exact hnew.gone hi

theorem Inv.succeeded_gone_step {u : UID}
    (hsucceeded : t.succeeded (deprovisionerPodName cfg (pvNameForPVC u)) = true) : Gone t u := by
  rcases h.recorded hsucceeded with hbefore | ⟨pod, hpod, _⟩
  · exact h.gone (hi.succeeded_gone hbefore)
  · exact hi.deprovisioner_gone_step h hpod

theorem Inv.once_step {name : String} {pv : PersistentVolume} (hpv : t.volumes name = some pv)
    (hf : finalizer ∈ pv.finalizers)
    (hsucceeded : t.succeeded (deprovisionerPodName cfg name) = true) :
    deprovisionerDisabled pv = true ∨
      ∃ pod, t.pods (deprovisionerPodName cfg name) = some pod ∧ pod.phase = .succeeded := by
  rcases h.recorded hsucceeded with hbefore | hnow
  swap
  · exact Or.inr hnow
  rcases h.volume_managed hpv hf with ⟨pv₀, hpv₀, hf₀, hdisabled⟩ | ⟨key, c, ref, hnew⟩
  swap
  · have hname := hnew.name_eq
    subst hname
    exact absurd (hi.succeeded_gone hbefore) hnew.not_gone
  rcases hi.once hpv₀ hf₀ hbefore with hd | ⟨pod, hpod, hphase⟩
  · exact Or.inl (hdisabled hd)
  -- the Pod that has succeeded is still there, or is removed because it is not needed
  obtain ⟨ref, -, hname, -⟩ := hi.managed hpv₀ hf₀
  have hchange := h.pods (deprovisionerPodName cfg name)
  rw [hpod] at hchange
  have hterminal : pod.phase.terminal = true := by rw [hphase]; rfl
  cases hafter : t.pods (deprovisionerPodName cfg name) with
  | some pod' =>
    rw [hafter] at hchange
    rcases hchange.of_some with ⟨pod₁, heq, hkept⟩ | ⟨hnone, _⟩
    · have hpod₁ : pod = pod₁ := Option.some.inj heq
      subst hpod₁
      exact Or.inr ⟨pod', rfl, (hkept.terminal hterminal).trans hphase⟩
    · cases hnone
  | none =>
    rw [hafter] at hchange
    refine Or.inl (hdisabled ?_)
    cases hchange with
    | dropped allowed =>
      rcases allowed with hdeleting | hmay
      · exact hi.deprovisioner_deleting hpv₀ hf₀ hpod hdeleting
      · subst hname
        obtain ⟨pv₁, -, hpv₁, hd⟩ := hmay.of_deprovisioner
        rw [hpv₀] at hpv₁
        rw [Option.some.inj hpv₁]
        exact hd

theorem Inv.deprovisioner_deleting_step {name : String} {pv : PersistentVolume} {pod : Pod}
    (hpv : t.volumes name = some pv) (hf : finalizer ∈ pv.finalizers)
    (hpod : t.pods (deprovisionerPodName cfg name) = some pod) (hdeleting : pod.deleting = true) :
    deprovisionerDisabled pv = true := by
  obtain ⟨ref, -, hname, -⟩ := hi.managed_step h hpv hf
  subst hname
  rcases h.deprovisioner_pod hpod with ⟨pod₀, hbefore, hkept⟩ | ⟨_, _, hnew⟩
  · rcases h.volume_managed hpv hf with ⟨pv₀, hpv₀, hf₀, hdisabled⟩ | ⟨key, c, ref', hnew⟩
    · refine hdisabled ?_
      rcases hkept.deleting hdeleting with hd | ⟨_, hmay⟩
      · exact hi.deprovisioner_deleting hpv₀ hf₀ hbefore hd
      · obtain ⟨pv₁, -, hpv₁, hd⟩ := hmay.of_deprovisioner
        rw [hpv₀] at hpv₁
        rw [Option.some.inj hpv₁]
        exact hd
    · have huid := pvNameForPVC_injective hnew.name_eq
      have hgone := hi.deprovisioner_gone hbefore
      rw [huid] at hgone
      exact absurd hgone hnew.not_gone
  · rw [hnew.kept] at hdeleting
    cases hdeleting

/-- The UID in the name of a provisioner Pod has been issued before the step. -/
theorem Inv.provisioner_issued {u : UID} {pod : Pod}
    (hpod : t.pods (provisionerPodName cfg u) = some pod) : ∃ key, s.issued u = some key := by
  rcases h.provisioner_pod hpod with ⟨pod₀, hs, -⟩ | ⟨-, owner, c, huid, hnew⟩
  · obtain ⟨key, c, hc, huid, -⟩ := hi.provisioner_held hs
    exact ⟨key, huid ▸ (hi.claim hc).2⟩
  · exact ⟨owner, huid ▸ (hi.claim hnew.claim).2⟩

theorem Inv.provisioner_deleting_step (hsteady : steady) {u : UID} {pod : Pod} {key : ObjectKey}
    {c : PersistentVolumeClaim} (hpod : t.pods (provisionerPodName cfg u) = some pod)
    (hdeleting : pod.deleting = true) (hc : t.claims key = some c) (huid : c.uid = u) :
    c.deleting = true := by
  obtain ⟨key₀, hissued⟩ := hi.provisioner_issued h hpod
  rw [← huid] at hissued
  obtain ⟨c₀, hc₀, huid₀, hkeep, -⟩ := h.claim_known hc hissued
  refine hkeep ?_
  rcases h.provisioner_pod hpod with ⟨pod₀, hbefore, hkept⟩ | ⟨-, _, _, -, hnew⟩
  · rcases hkept.deleting hdeleting with hd | ⟨hrunning, hmay⟩
    · exact hi.provisioner_deleting hsteady hbefore hd hc₀ (huid₀.trans huid)
    · obtain ⟨owner, c₁, -, hc₁, huid₁, hallowed⟩ := hmay.of_provisioner
      have hkey : owner = key := hi.claim_key hc₁ hc₀ (huid₁.trans (huid₀.trans huid).symm)
      subst hkey
      rw [hc₀] at hc₁
      rw [Option.some.inj hc₁]
      rcases hallowed hsteady with hd | hterminal
      · exact hd
      · rw [hrunning] at hterminal
        cases hterminal
  · rw [hnew.kept] at hdeleting
    cases hdeleting

theorem Inv.provisioner_done_step (hsteady : steady) {u : UID} {pod : Pod}
    {pv : PersistentVolume} (hpod : t.pods (provisionerPodName cfg u) = some pod)
    (hpv : t.volumes (pvNameForPVC u) = some pv) : pod.phase.terminal = true := by
  have hvolume := h.volumes (pvNameForPVC u)
  rw [hpv] at hvolume
  rcases h.provisioner_pod hpod with ⟨pod₀, hbefore, hkept⟩ | ⟨hs, owner, c, huid, hnew⟩
  · have hterminal : pod₀.phase.terminal = true := by
      rcases hvolume.of_some with hsame | ⟨pv₀, hpv₀, _⟩ | ⟨_, hforeign | ⟨_, c', _, hprov⟩⟩
      · exact hi.provisioner_done hsteady hbefore hsame
      · exact hi.provisioner_done hsteady hbefore hpv₀
      · obtain ⟨key, c, hc, huid, hf⟩ := hi.provisioner_held hbefore
        have hapart := hforeign.apart key c hc hf
        rw [huid] at hapart
        exact absurd rfl hapart
      · obtain ⟨pod₂, hpod₂, hphase⟩ := hprov.succeeded hsteady
        rw [← pvNameForPVC_injective hprov.name_eq, hbefore] at hpod₂
        rw [Option.some.inj hpod₂, hphase]
        rfl
    rw [hkept.terminal hterminal]
    exact hterminal
  · -- the Pod is new, so the volume cannot be there or be created by the same step
    have habsent := hnew.absent
    rw [huid] at habsent
    rw [habsent] at hvolume
    rcases hvolume.of_some with hsame | ⟨_, hsome, _⟩ | ⟨_, hforeign | ⟨_, c', _, hprov⟩⟩
    · cases hsame
    · cases hsome
    · have hactor := hforeign.actor
      rw [hnew.actor] at hactor
      cases hactor
    · obtain ⟨pod₀, hpod₀, -⟩ := hprov.succeeded hsteady
      rw [← pvNameForPVC_injective hprov.name_eq, hs] at hpod₀
      cases hpod₀

theorem Inv.provisioner_runnable_step (hsteady : steady) {u : UID} {pod : Pod} {key : ObjectKey}
    {c : PersistentVolumeClaim} (hpod : t.pods (provisionerPodName cfg u) = some pod)
    (hc : t.claims key = some c) (huid : c.uid = u) : Runnable t.provisioners c.annotations := by
  obtain ⟨key₀, hissued⟩ := hi.provisioner_issued h hpod
  rw [← huid] at hissued
  obtain ⟨c₀, hc₀, huid₀, -, hrunnable⟩ := h.claim_known hc hissued
  rw [h.registry hsteady]
  refine hrunnable hsteady ?_
  rcases h.provisioner_pod hpod with ⟨pod₀, hs, -⟩ | ⟨-, owner, c₁, huid₁, hnew⟩
  · exact hi.provisioner_runnable hsteady hs hc₀ (huid₀.trans huid)
  · have hkey : owner = key := hi.claim_key hnew.claim hc₀ (huid₁.trans (huid₀.trans huid).symm)
    subst hkey
    have hc₁ := hnew.claim
    rw [hc₀] at hc₁
    rw [Option.some.inj hc₁]
    exact hnew.runnable hsteady

/-- Every permitted step keeps the invariant. -/
theorem Inv.step : Inv cfg steady t where
  claim hc := (hi.claim_step h hc).1
  claim_version hc := (hi.claim_step h hc).2.1
  claim_clean hc := (hi.claim_step h hc).2.2
  volume_name hpv := (hi.volume_step h hpv).1
  volume_version hpv := (hi.volume_step h hpv).2.1
  managed := hi.managed_step h
  recorded := hi.recorded_step h
  disabled hpv := (hi.volume_step h hpv).2.2
  pod_key hpod := (hi.pod_step h hpod).1
  pod_succeeded hpod := (hi.pod_step h hpod).2
  provisioner_held := hi.provisioner_held_step h
  provisioner_clean := hi.provisioner_clean_step h
  deprovisioner_gone := hi.deprovisioner_gone_step h
  succeeded_gone := hi.succeeded_gone_step h
  once := hi.once_step h
  deprovisioner_deleting := hi.deprovisioner_deleting_step h
  provisioner_deleting hsteady _ _ _ _ := hi.provisioner_deleting_step h hsteady
  provisioner_done hsteady _ _ _ := hi.provisioner_done_step h hsteady
  provisioner_runnable hsteady _ _ _ _ := hi.provisioner_runnable_step h hsteady

end Steps

/-- The invariant holds in a cluster without claims, volumes and Pods. -/
theorem inv_initial (cfg : Config) (steady : Prop)
    (storageClasses : String → Option StorageClass)
    (provisioners : String → Option StorageProvisioner) :
    Inv cfg steady (Shared.initial storageClasses provisioners).toCluster := by
  constructor <;> simp [Shared.initial]

end K8StorageX.Lifecycle
