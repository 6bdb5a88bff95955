import K8StorageX.ClaimWrites
import K8StorageX.DeprovisionerPods
import K8StorageX.Placeholders

/-!
# Annotations from the claim to the deprovisioner

The annotations a provisioner maps to variables are copied from the claim to the
provisioner Pod, and from the Pod to the volume. The mapping itself is recorded on both.
Whatever happens to the claim and to the registered provisioner meanwhile, the
deprovisioner Pod gets the variables the provisioner Pod has got.
-/

namespace K8StorageX.AnnotationLife

open ApiProgram GoErrors KubeObjects ProvisionerPods KubeApi JobReconciler Placeholders

section Sources

/-- Requests that store Pods or volumes. -/
def stores : Req → Bool
  | .createPod _ => true
  | .createVolume _ => true
  | .updateVolume _ => true
  | .updateVolumeStatus _ => true
  | _ => false

variable {allowed : Record Req Resp → Req → Prop} {seen : Record Req Resp}

/-- A Pod is created as the closure of the caller makes it from what has been seen. -/
theorem traced_reconcilePod (hplain : ∀ seen r, stores r = false → allowed seen r)
    {key : ObjectKey} {create : Except GoError Pod}
    (hcreate : ∀ later pod, create = .ok pod →
      allowed (seen ++ later) (.createPod { pod with key := key })) :
    (reconcilePod key create).Traced allowed seen := by
  refine .request_bind (hplain _ _ rfl) ?_
  intro read
  split
  · trivial
  · trivial
  · refine .request_bind (hcreate _ _ rfl) ?_
    intro created
    split
    · trivial
    · split
      · refine .request_bind (hplain _ _ rfl) ?_
        intro reloaded
        split <;> trivial
      · trivial
  · trivial

/-- A Pod that is done has been read. -/
theorem getPod_of_done {key : ObjectKey} {create : Except GoError Pod} {record : Record Req Resp}
    {pod : Pod} (h : (reconcilePod key create).Yields record ⟨true, some pod, none⟩) :
    ⟨.getPod key, .ok pod⟩ ∈ record := by
  have hresult {read : Pod} (hread : podResult read = ⟨true, some pod, none⟩) : read = pod := by
    unfold podResult at hread
    split at hread <;> simp_all
  unfold reconcilePod at h
  rw [Prog.yields_request_bind_iff] at h
  obtain ⟨read, rest, rfl, h⟩ := h
  split at h
  · obtain ⟨rfl, hvalue⟩ := h
    rw [hresult hvalue.symm]
    exact List.mem_cons_self
  · cases h.2
  · rw [Prog.yields_request_bind_iff] at h
    obtain ⟨created, rest, rfl, h⟩ := h
    split at h
    · cases h.2
    · split at h
      · unfold reconcilePod.reload at h
        rw [Prog.yields_request_bind_iff] at h
        obtain ⟨reloaded, rest, rfl, h⟩ := h
        split at h
        · obtain ⟨rfl, hvalue⟩ := h
          rw [hresult hvalue.symm]
          simp
        · cases h.2
      · cases h.2
  · cases h.2

/-- A job creates the Pod it is given and calls back with a Pod it has read. -/
theorem traced_reconcileJob (hplain : ∀ seen r, stores r = false → allowed seen r) (req : JobRequest)
    (hcreate : ∀ later pod, req.shouldRun = true → req.create = .ok pod →
      allowed (seen ++ later)
        (.createPod { jobPod req.ownerAnnotations pod with key := req.podName }))
    (hcompleted : ∀ later pod, ⟨.getPod req.podName, .ok pod⟩ ∈ later →
      (req.onCompleted pod).Traced allowed (seen ++ later)) :
    (reconcileJob req).Traced allowed seen := by
  unfold reconcileJob
  split
  · exact Prog.traced_of_issues hplain (issues_deletePod rfl rfl)
  · rename_i hrun
    rw [Bool.not_eq_false] at hrun
    refine (traced_reconcilePod hplain ?_).bind ?_
    · intro later pod hpod
      cases hcreated : req.create with
      | error e =>
        rw [hcreated] at hpod
        cases hpod
      | ok created =>
        rw [hcreated] at hpod
        cases hpod
        exact hcreate later created hrun hcreated
    · intro record result hrecord
      split
      · rename_i pod
        refine (hcompleted record pod (getPod_of_done hrecord)).bind ?_
        intro record completed _
        split
        · trivial
        · exact Prog.traced_of_issues hplain (issues_deleteResource rfl)
      · trivial

end Sources

section Claims

open ClaimController VolumeController

variable {cfg : Config}

/-- Where the Pods and volumes come from that are stored when a claim is reconciled: a Pod
from the claim and the provisioner that have been read, a volume from the Pod. -/
def FromClaim (cfg : Config) (seen : Record Req Resp) : Req → Prop
  | .createPod pod => ∃ key claim name p created,
      ⟨.getClaim key, .ok claim⟩ ∈ seen ∧ ⟨.getProvisioner name, some p⟩ ∈ seen ∧
      (annotationsToEnv claim.annotations p.spec.env).2 = none ∧
      (provisionerJob cfg claim p false).create = .ok created ∧
      pod.annotations =
        (jobPod (provisionerJob cfg claim p false).ownerAnnotations created).annotations
  | .createVolume pv => ∃ claim pod p,
      ⟨.getPod (provisionerPodName cfg claim.uid), .ok pod⟩ ∈ seen ∧
      storageProvisionerFromJSON cfg (pod.annotations.get annStorageProvisionerSpec) = .ok p ∧
      pv = persistentVolumeForClaim claim p (pod.annotations.get annStorageProvisionerSpec)
        pod.annotations
  | r => stores r = false

/-- Requests that store nothing need no source. -/
theorem fromClaim_plain (seen : Record Req Resp) (r : Req) (h : stores r = false) :
    FromClaim cfg seen r := by
  cases r <;> first | exact h | cases h

/-- What has been read may be followed by more. -/
theorem FromClaim.mono (seen later : Record Req Resp) (r : Req) (h : FromClaim cfg seen r) :
    FromClaim cfg (seen ++ later) r := by
  cases r with
  | createPod pod =>
    obtain ⟨key, claim, name, p, created, hclaim, hp, hrest⟩ := h
    exact ⟨key, claim, name, p, created, List.mem_append_left later hclaim,
      List.mem_append_left later hp, hrest⟩
  | createVolume pv =>
    obtain ⟨claim, pod, p, hpod, hrest⟩ := h
    exact ⟨claim, pod, p, List.mem_append_left later hpod, hrest⟩
  | _ => exact h

/-- A claim that is being deleted stores no Pod and no volume. -/
theorem issues_reconcileDeleted (claim : PersistentVolumeClaim) :
    (reconcileDeleted cfg claim).Issues fun r => stores r = false := by
  unfold reconcileDeleted
  split
  · split
    · exact issues_updateStatus rfl
    · trivial
  · split
    · split
      · trivial
      · have hdelete : (deletePod (provisionerPodName cfg claim.uid)).Issues
            fun r => stores r = false := issues_deletePod rfl rfl
        refine hdelete.bind ?_
        intro deleted
        split
        · trivial
        · have hdeprovision : (deprovision claim).Issues fun r => stores r = false :=
            issues_deprovision (fun _ => rfl) fun _ => rfl
          refine hdeprovision.bind ?_
          intro deprovisioned
          split
          · trivial
          · exact issues_updateStatus rfl
    · trivial

/-- The volume is made from the Pod that has been read. -/
theorem traced_onProvisioned {seen : Record Req Resp} {claim : PersistentVolumeClaim} {pod : Pod}
    (h : ⟨.getPod (provisionerPodName cfg claim.uid), .ok pod⟩ ∈ seen) :
    (onProvisioned cfg claim pod).Traced (FromClaim cfg) seen := by
  unfold onProvisioned
  split
  · trivial
  · rename_i p hp
    refine .request_bind ⟨claim, pod, p, h, hp, rfl⟩ ?_
    intro created
    split <;> trivial

/-- The Pod of a claim is created only if all required annotations are there. -/
theorem traced_provisionerJob {seen : Record Req Resp} {key : ObjectKey}
    {claim : PersistentVolumeClaim} {name : String} {p : StorageProvisioner} (pvExists : Bool)
    (hclaim : ⟨.getClaim key, .ok claim⟩ ∈ seen) (hp : ⟨.getProvisioner name, some p⟩ ∈ seen) :
    (reconcileJob (provisionerJob cfg claim p pvExists)).Traced (FromClaim cfg) seen := by
  refine traced_reconcileJob fromClaim_plain _ ?_ ?_
  · intro later pod hrun hcreate
    have hannotations : (annotationsToEnv claim.annotations p.spec.env).2 = none := by
      have hnone : (annotationsToEnv claim.annotations p.spec.env).2.isNone = true := by
        simp only [provisionerJob, Bool.and_eq_true] at hrun
        exact hrun.2
      exact Option.isNone_iff_eq_none.mp hnone
    exact ⟨key, claim, name, p, pod, List.mem_append_left later hclaim,
      List.mem_append_left later hp, hannotations, hcreate, rfl⟩
  · intro later pod hpod
    exact traced_onProvisioned (List.mem_append_right seen hpod)

/-- The Pod is made from the claim and the provisioner that have been read. -/
theorem traced_provision {seen : Record Req Resp} {key : ObjectKey} {claim : PersistentVolumeClaim}
    {name : String} {p : StorageProvisioner} (hclaim : ⟨.getClaim key, .ok claim⟩ ∈ seen)
    (hp : ⟨.getProvisioner name, some p⟩ ∈ seen) :
    (provision cfg claim p).Traced (FromClaim cfg) seen := by
  refine .request_bind (fromClaim_plain _ _ rfl) ?_
  intro read
  have hjob (pvExists : Bool) : (reconcileJob (provisionerJob cfg claim p pvExists)).Traced
      (FromClaim cfg) (seen ++ [⟨.getVolume (pvNameForPVC claim.uid), read⟩]) :=
    traced_provisionerJob pvExists (List.mem_append_left _ hclaim) (List.mem_append_left _ hp)
  split
  · split
    · trivial
    · refine (hjob true).bind ?_
      intro record result _
      trivial
  · split
    · refine (hjob false).bind ?_
      intro record result _
      trivial
    · trivial

/-- What is stored when a claim is reconciled. -/
theorem traced_reconcileClaim (key : ObjectKey) :
    (ClaimController.reconcile cfg key).Traced (FromClaim cfg) [] := by
  refine .request_bind (fromClaim_plain _ _ rfl) ?_
  intro read
  split
  · split <;> trivial
  · rename_i claim
    split
    · exact Prog.traced_of_issues fromClaim_plain (issues_reconcileDeleted claim)
    · rw [reconcileActive]
      by_cases hnil : claim.annotations.isNil = true
      · rw [resolveProvisioner_of_isNil hnil]
        trivial
      rw [resolveProvisioner_of_annotated hnil]
      refine .request_bind (fromClaim_plain _ _ rfl) ?_
      intro known
      split
      · trivial
      · rename_i p
        have hshould : (shouldProvision claim p).Issues fun r => stores r = false :=
          issues_shouldProvision (fun _ => rfl) p
        refine (Prog.traced_of_issues fromClaim_plain hshould).bind ?_
        intro record should _
        split
        · trivial
        · trivial
        · split
          · exact Prog.traced_of_issues fromClaim_plain (issues_updateStatus rfl)
          · have hclaim : ⟨.getClaim key, .ok claim⟩ ∈
                [] ++ [(⟨.getClaim key, .ok claim⟩ : Σ r, Resp r)] ++
                  [⟨.getProvisioner (claim.annotations.get annStorageProvisioner), some p⟩] ++
                    record := by simp
            have hp : ⟨.getProvisioner (claim.annotations.get annStorageProvisioner), some p⟩ ∈
                [] ++ [(⟨.getClaim key, .ok claim⟩ : Σ r, Resp r)] ++
                  [⟨.getProvisioner (claim.annotations.get annStorageProvisioner), some p⟩] ++
                    record := by simp
            exact traced_provision hclaim hp

end Claims

section Volumes

open VolumeController

variable {cfg : Config} {seen : Record Req Resp}

/-- Where the Pods and volumes come from that are stored when a volume is reconciled: from
the volume as it has been read. -/
def FromVolume (cfg : Config) (seen : Record Req Resp) : Req → Prop
  | .updateVolume pv => ∃ name old, ⟨.getVolume name, .ok old⟩ ∈ seen ∧
      ((∃ ref, pv = clearClaimRef cfg old ref) ∨ pv = disableDeprovisioner old)
  | .updateVolumeStatus pv => ∃ name old, ⟨.getVolume name, .ok old⟩ ∈ seen ∧
      pv.annotations = old.annotations
  | .createVolume _ => False
  | _ => True

/-- Requests that store nothing need no source. -/
theorem fromVolume_plain (seen : Record Req Resp) (r : Req) (h : stores r = false) :
    FromVolume cfg seen r := by
  cases r <;> trivial

/-- What has been read may be followed by more. -/
theorem FromVolume.mono (seen later : Record Req Resp) (r : Req) (h : FromVolume cfg seen r) :
    FromVolume cfg (seen ++ later) r := by
  cases r with
  | updateVolume pv =>
    obtain ⟨name, old, hold, hpv⟩ := h
    exact ⟨name, old, List.mem_append_left later hold, hpv⟩
  | updateVolumeStatus pv =>
    obtain ⟨name, old, hold, hpv⟩ := h
    exact ⟨name, old, List.mem_append_left later hold, hpv⟩
  | _ => exact h

/-- The reference to the claim is cleared on the volume as it has been read. -/
theorem traced_canDeprovision {name : String} {pv : PersistentVolume}
    (hread : ⟨.getVolume name, .ok pv⟩ ∈ seen) (rounds : ℕ) (err : Option GoError) :
    (canDeprovision cfg rounds err pv).Traced (FromVolume cfg) seen := by
  induction rounds generalizing seen name pv err with
  | zero => trivial
  | succ rounds ih =>
    unfold canDeprovision
    split
    · trivial
    · split
      · trivial
      · rename_i ref _
        refine .request_bind (fromVolume_plain _ _ rfl) ?_
        intro claim
        split
        · trivial
        · split
          · by_cases hnil : pv.annotations.isNil = true
            · rw [resolveProvisioner_of_isNil hnil]
              trivial
            rw [resolveProvisioner_of_annotated hnil]
            refine .request_bind (fromVolume_plain _ _ rfl) ?_
            intro known
            split
            · trivial
            · refine .request_bind ⟨name, pv, by simp [hread], Or.inl ⟨ref, rfl⟩⟩ ?_
              intro updated
              split
              · trivial
              · split
                · refine .request_bind (fromVolume_plain _ _ rfl) ?_
                  intro reloaded
                  split
                  · trivial
                  · exact ih (List.mem_append_right _ List.mem_cons_self) _
                · trivial
          · trivial

/-- A volume that can be deprovisioned is the one that has been given, or has been read. -/
theorem getVolume_of_possible {pv pv' : PersistentVolume} {rounds : ℕ} {err : Option GoError}
    {record : Record Req Resp}
    (h : (canDeprovision cfg rounds err pv).Yields record (.possible pv')) :
    pv' = pv ∨ ∃ name, ⟨.getVolume name, .ok pv'⟩ ∈ record := by
  induction rounds generalizing pv err record with
  | zero => cases h.2
  | succ rounds ih =>
    unfold canDeprovision at h
    split at h
    · cases h.2
    split at h
    · cases h.2
      exact Or.inl rfl
    rw [Prog.yields_request_bind_iff] at h
    obtain ⟨claim, rest, rfl, h⟩ := h
    split at h
    · cases h.2
    split at h
    swap
    · cases h.2
    by_cases hnil : pv.annotations.isNil = true
    · rw [resolveProvisioner_of_isNil hnil] at h
      cases h.2
    rw [resolveProvisioner_of_annotated hnil, Prog.yields_request_bind_iff] at h
    obtain ⟨known, rest, rfl, h⟩ := h
    split at h
    · cases h.2
    rw [Prog.yields_request_bind_iff] at h
    obtain ⟨updated, rest, rfl, h⟩ := h
    split at h
    · cases h.2
    split at h
    swap
    · cases h.2
    rw [Prog.yields_request_bind_iff] at h
    obtain ⟨reloaded, rest, rfl, h⟩ := h
    split at h
    · cases h.2
    · rcases ih h with rfl | ⟨name, hmem⟩
      · exact Or.inr ⟨pv.name, by simp⟩
      · exact Or.inr ⟨name, by simp [hmem]⟩

/-- The deprovisioner is disabled on the volume as it has been read. -/
theorem traced_deprovisionVolume {name : String} {pv : PersistentVolume}
    (hread : ⟨.getVolume name, .ok pv⟩ ∈ seen) :
    (deprovisionVolume cfg pv).Traced (FromVolume cfg) seen := by
  unfold deprovisionVolume
  split
  · trivial
  · split
    · trivial
    · refine traced_reconcileJob fromVolume_plain _ (fun _ _ _ _ => trivial) ?_
      intro later pod _
      refine .request_bind ⟨name, pv, List.mem_append_left later hread, Or.inr rfl⟩ ?_
      intro updated
      split <;> trivial

/-- What is stored when a volume is reconciled. -/
theorem traced_reconcileVolume (name : String) :
    (VolumeController.reconcile cfg name).Traced (FromVolume cfg) [] := by
  unfold VolumeController.reconcile
  refine .request_bind (fromVolume_plain _ _ rfl) ?_
  intro read
  split
  · split <;> trivial
  · rename_i pv
    split
    · trivial
    · refine (traced_canDeprovision (List.mem_append_right _ List.mem_cons_self) 2 none).bind ?_
      intro record can hcan
      split
      · trivial
      · rename_i pv'
        have hread : ∃ name', ⟨.getVolume name', .ok pv'⟩ ∈
            [] ++ [(⟨.getVolume name, .ok pv⟩ : Σ r, Resp r)] ++ record := by
          rcases getVolume_of_possible hcan with rfl | ⟨name', hmem⟩
          · exact ⟨name, by simp⟩
          · exact ⟨name', List.mem_append_right _ hmem⟩
        obtain ⟨name', hread⟩ := hread
        refine (traced_deprovisionVolume hread).bind ?_
        intro record result _
        split
        · trivial
        · refine .request_bind ⟨name', pv', List.mem_append_left _ hread, rfl⟩ ?_
          intro updated
          split <;> trivial

end Volumes

section Life

variable {cfg : Config} {claim : PersistentVolumeClaim} {p : StorageProvisioner}

/-- The annotations the controllers write themselves. -/
def ownAnnotations : List String :=
  [annStorageProvisioner, annStorageProvisionerSpec, annProvisionedBy, annPVCName, annPVCNamespace,
    annPVName, annPVClaimRef, annPVDisableDeprovisioner, annNoProtection]

/-- The mapped annotations and the record of the provisioner are the same. -/
def SameMapped (p : StorageProvisioner) (a b : Annotations) : Prop :=
  (∀ m ∈ p.spec.env, b.get m.annotation = a.get m.annotation) ∧
    b.get annStorageProvisionerSpec = a.get annStorageProvisionerSpec

/-- The Pod in the course of its life that has been created for the claim as it was then with
the provisioner as it was registered then. Others leave the mapped annotations alone. -/
inductive PodLife (cfg : Config) (claim : PersistentVolumeClaim) (p : StorageProvisioner) : Pod → Prop
  /-- The Pod is created when the claim is reconciled. -/
  | created {key : ObjectKey} {record : Record Req Resp} {outcome : ClaimController.Outcome}
      {pod : Pod} {response : Except ApiError Unit}
      (run : (ClaimController.reconcile cfg key).Yields record outcome)
      (claims : ∀ key c, ⟨.getClaim key, .ok c⟩ ∈ record → c = claim)
      (provisioners : ∀ name q, ⟨.getProvisioner name, some q⟩ ∈ record → q = p)
      (request : ⟨.createPod pod, response⟩ ∈ record) : PodLife cfg claim p pod
  /-- Others change the Pod. -/
  | edited {pod pod' : Pod} (earlier : PodLife cfg claim p pod)
      (same : SameMapped p pod.annotations pod'.annotations) : PodLife cfg claim p pod'

/-- The volume in the course of its life that has been created when the Pod had succeeded.
The claim may have been changed, deleted or re-created, and the registry as well. -/
inductive VolumeLife (cfg : Config) (claim : PersistentVolumeClaim) (p : StorageProvisioner) :
    PersistentVolume → Prop
  /-- The volume is created when the claim is reconciled. -/
  | created {key : ObjectKey} {record : Record Req Resp} {outcome : ClaimController.Outcome}
      {pv : PersistentVolume} {response : Except ApiError Unit}
      (run : (ClaimController.reconcile cfg key).Yields record outcome)
      (pods : ∀ pod, ⟨.getPod (provisionerPodName cfg claim.uid), .ok pod⟩ ∈ record →
        PodLife cfg claim p pod)
      (request : ⟨.createVolume pv, response⟩ ∈ record)
      (name : pv.name = pvNameForPVC claim.uid) : VolumeLife cfg claim p pv
  /-- The volume is updated when it is reconciled. -/
  | updated {name : String} {record : Record Req Resp} {err : Option GoError}
      {pv : PersistentVolume} {response : Except ApiError Unit}
      (run : (VolumeController.reconcile cfg name).Yields record err)
      (volumes : ∀ name pv, ⟨.getVolume name, .ok pv⟩ ∈ record → VolumeLife cfg claim p pv)
      (request : ⟨.updateVolume pv, response⟩ ∈ record ∨
        ⟨.updateVolumeStatus pv, response⟩ ∈ record) : VolumeLife cfg claim p pv
  /-- Others change the volume. -/
  | edited {pv pv' : PersistentVolume} (earlier : VolumeLife cfg claim p pv)
      (same : SameMapped p pv.annotations pv'.annotations) : VolumeLife cfg claim p pv'

/-- The loop copies every mapped annotation of a source that is not nil. -/
theorem get_copyMapped_of_mem {src : Annotations} (hsrc : src.isNil = false) (dest : Annotations)
    {mapping : List EnvMapping} {m : EnvMapping} (h : m ∈ mapping) :
    (copyMapped src dest mapping).get m.annotation = src.get m.annotation := by
  induction mapping generalizing dest with
  | nil => cases h
  | cons first mapping ih =>
    rw [copyMapped_cons, hsrc]
    rcases List.mem_cons.mp h with rfl | hrest
    · rcases get_copyMapped src (dest.set m.annotation (src.get m.annotation)) mapping
        m.annotation with hcopied | hdest
      · exact hcopied
      · exact hdest.trans (Annotations.get_set_self ..)
    · exact ih _ hrest

/-- Every mapped annotation is copied. A source without annotations leaves the destination as
it is, which has no value for the annotation then. -/
theorem get_copyAnnotations_of_mem (src : Annotations) {dest : Annotations}
    {mapping : List EnvMapping} {m : EnvMapping} (h : m ∈ mapping)
    (hdest : dest.get m.annotation = "") :
    (copyAnnotations src dest mapping).get m.annotation = src.get m.annotation := by
  cases hsrc : src.isNil with
  | false => exact get_copyMapped_of_mem hsrc dest.allocated h
  | true =>
    have hempty : src.get m.annotation = "" := by
      rw [Annotations.get, src.entry_of_isNil hsrc]
      rfl
    rcases get_copyAnnotations src dest mapping m.annotation with hcopied | hkept
    · exact hcopied
    · rw [hkept, hdest, hempty]

/-- Variables depend on the mapped annotations only. -/
theorem annotationsToEnv_congr {a b : Annotations} {mapping : List EnvMapping}
    (h : ∀ m ∈ mapping, b.get m.annotation = a.get m.annotation) :
    annotationsToEnv b mapping = annotationsToEnv a mapping := by
  unfold annotationsToEnv
  refine List.foldl_ext _ _ _ fun acc m hm => ?_
  rw [h m hm]

/-- The mapping has no placeholders and no annotation of the controllers. -/
def PlainMapping (p : StorageProvisioner) : Prop :=
  ∀ m ∈ p.spec.env,
    '$' ∉ m.name.toList ∧ '$' ∉ m.annotation.toList ∧ m.annotation ∉ ownAnnotations

/-- JSON round-trips the provisioner that is recorded for the claim. -/
def RoundTrips (cfg : Config) (claim : PersistentVolumeClaim) (p : StorageProvisioner) : Prop :=
  ∀ nodePath q, substituteProvisionerPlaceholders cfg p (DeprovisionerPods.paramsFor claim nodePath) =
      .ok q →
    cfg.unmarshalProvisioner (cfg.storageProvisionerToJSON (DeprovisionerPods.merged cfg claim p q)) =
      .ok (DeprovisionerPods.merged cfg claim p q)

/-- Annotations with the values of the claim and a record of the mapping. -/
structure Carries (cfg : Config) (claim : PersistentVolumeClaim) (p : StorageProvisioner)
    (a : Annotations) : Prop where
  /-- The values of the claim. -/
  values : ∀ m ∈ p.spec.env, a.get m.annotation = claim.annotations.get m.annotation
  /-- All required annotations were there. -/
  required : (annotationsToEnv claim.annotations p.spec.env).2 = none
  /-- The mapping can be read back. -/
  record : ∃ stored, storageProvisionerFromJSON cfg (a.get annStorageProvisionerSpec) = .ok stored ∧
    stored.spec.env = p.spec.env

/-- Annotations with the same mapped values carry the same. -/
theorem Carries.of_same {a b : Annotations} (h : Carries cfg claim p a) (hsame : SameMapped p a b) :
    Carries cfg claim p b where
  values m hm := (hsame.1 m hm).trans (h.values m hm)
  required := h.required
  record := by
    rw [hsame.2]
    exact h.record

/-- Other annotations of the controllers are not mapped. -/
theorem sameMapped_set (hmapping : PlainMapping p) {key : String} (hown : key ∈ ownAnnotations)
    (hspec : key ≠ annStorageProvisionerSpec) (a : Annotations) (value : String) :
    SameMapped p a (a.set key value) := by
  constructor
  · intro m hm
    have hne : m.annotation ≠ key := fun heq => (hmapping m hm).2.2 (heq ▸ hown)
    exact Annotations.get_set_of_ne _ _ hne
  · exact Annotations.get_set_of_ne _ _ hspec.symm

/-- The mapped values stay the same in two steps. -/
theorem SameMapped.trans {a b c : Annotations} (h : SameMapped p a b) (h' : SameMapped p b c) :
    SameMapped p a c :=
  ⟨fun m hm => (h'.1 m hm).trans (h.1 m hm), h'.2.trans h.2⟩

/-- A mapping without placeholders is recorded as it is. -/
theorem env_merged {e : Envsubst} (hsub : SubstitutesWith cfg e) (hmapping : PlainMapping p)
    {params : ProvisionerParams} {q : StorageProvisioner} {podName : ObjectKey}
    {container : ProvisionerContainer} {env : List EnvVar} {pod : Pod}
    (hq : substituteProvisionerPlaceholders cfg p params = .ok q)
    (hpod : (newProvisionerPod podName q container env).1 = .ok pod) :
    (newProvisionerPod podName q container env).2.spec.env = p.spec.env := by
  obtain ⟨main, hmain, -⟩ := DeprovisionerPods.newProvisionerPod_ok hpod
  rw [DeprovisionerPods.newProvisionerPod_snd hmain]
  obtain ⟨-, rfl⟩ := (substitutePlaceholders_iff hsub).mp hq
  change p.spec.env.map (fun m =>
    (⟨replaced e params m.name, replaced e params m.annotation, m.required⟩ : EnvMapping)) = p.spec.env
  conv_rhs => rw [← List.map_id p.spec.env]
  refine List.map_congr_left fun m hm => ?_
  rw [replaced_plain (hmapping m hm).1, replaced_plain (hmapping m hm).2.1]
  rfl

/-- The Pod carries the annotations when it is created. -/
theorem carries_created {e : Envsubst} (hsub : SubstitutesWith cfg e) (hmapping : PlainMapping p)
    (hjson : RoundTrips cfg claim p)
    (hrequired : (annotationsToEnv claim.annotations p.spec.env).2 = none) {pod : Pod}
    (hcreate : (ClaimController.provisionerJob cfg claim p false).create = .ok pod) :
    Carries cfg claim p pod.annotations := by
  obtain ⟨nodePath, q, created, -, hq, hcreated, hannotations⟩ := provisionerPod_ok hcreate
  have henv := env_merged hsub hmapping hq hcreated
  rw [hannotations, henv]
  refine ⟨fun m hm => ?_, hrequired, ?_⟩
  · have hne : m.annotation ≠ annStorageProvisionerSpec := by
      intro heq
      have hown : annStorageProvisionerSpec ∈ ownAnnotations := by decide
      exact (hmapping m hm).2.2 (heq ▸ hown)
    rw [Annotations.get_set_of_ne _ _ hne]
    exact get_copyAnnotations_of_mem _ hm rfl
  · refine ⟨_, ?_, henv⟩
    rw [Annotations.get_set_self, storageProvisionerFromJSON]
    have hread := hjson nodePath q hq
    unfold DeprovisionerPods.merged DeprovisionerPods.claimEnv at hread
    rw [hread]
    rfl

/-- In its whole life the Pod carries what the claim had. -/
theorem PodLife.carries {e : Envsubst} (hsub : SubstitutesWith cfg e) (hmapping : PlainMapping p)
    (hjson : RoundTrips cfg claim p) {pod : Pod} (h : PodLife cfg claim p pod) :
    Carries cfg claim p pod.annotations := by
  induction h with
  | created run claims provisioners request =>
    obtain ⟨key, c, name, q, created, hclaim, hq, hrequired, hcreate, hannotations⟩ :=
      (traced_reconcileClaim _).of_yields FromClaim.mono run _ request
    have hc : c = claim := claims key c hclaim
    have hp : q = p := provisioners name q hq
    subst hc hp
    rw [hannotations]
    have hcreated := carries_created hsub hmapping hjson hrequired hcreate
    -- the annotations that name the owner are not mapped
    have hname := sameMapped_set hmapping (by decide : annPVCName ∈ ownAnnotations) (by decide)
      created.annotations c.key.name
    have hnamespace := sameMapped_set hmapping (by decide : annPVCNamespace ∈ ownAnnotations)
      (by decide) (created.annotations.set annPVCName c.key.name) c.key.namespaceName
    exact hcreated.of_same (hname.trans hnamespace)
  | edited earlier same ih => exact ih.of_same same

/-- The volume carries what the Pod carries. -/
theorem Carries.volume (hmapping : PlainMapping p) {a : Annotations} (h : Carries cfg claim p a)
    {claim' : PersistentVolumeClaim} {q : StorageProvisioner}
    (hq : storageProvisionerFromJSON cfg (a.get annStorageProvisionerSpec) = .ok q) :
    Carries cfg claim p
      (persistentVolumeForClaim claim' q (a.get annStorageProvisionerSpec) a).annotations := by
  obtain ⟨stored, hstored, henv⟩ := h.record
  have heq : q = stored := Except.ok.inj (hq.symm.trans hstored)
  subst heq
  have hspec : (persistentVolumeForClaim claim' q (a.get annStorageProvisionerSpec)
      a).annotations.get annStorageProvisionerSpec = a.get annStorageProvisionerSpec := by
    rcases get_copyAnnotations a _ q.spec.env annStorageProvisionerSpec with hsrc | hdest
    · exact hsrc
    · refine hdest.trans ?_
      rw [Annotations.get_set_of_ne _ _ (by decide), Annotations.get_set_self]
  refine ⟨fun m hm => ?_, h.required, q, ?_, henv⟩
  · rw [← h.values m hm]
    -- the annotations a new volume has of its own are not mapped
    have hforeign : ∀ own ∈ ownAnnotations, m.annotation ≠ own := fun own hown heq =>
      (hmapping m hm).2.2 (heq ▸ hown)
    refine get_copyAnnotations_of_mem a (henv ▸ hm) ?_
    rw [Annotations.get_set_of_ne _ _ (hforeign _ (by decide)),
      Annotations.get_set_of_ne _ _ (hforeign _ (by decide)),
      Annotations.get_set_of_ne _ _ (hforeign _ (by decide))]
    rfl
  · rw [hspec]
    exact hq

/-- In its whole life the volume carries what the claim had. -/
theorem VolumeLife.carries {e : Envsubst} (hsub : SubstitutesWith cfg e) (hmapping : PlainMapping p)
    (hjson : RoundTrips cfg claim p) {pv : PersistentVolume} (h : VolumeLife cfg claim p pv) :
    Carries cfg claim p pv.annotations := by
  induction h with
  | created run pods request hname =>
    obtain ⟨claim', pod, q, hpod, hq, rfl⟩ :=
      (traced_reconcileClaim _).of_yields FromClaim.mono run _ request
    have huid : claim'.uid = claim.uid := pvNameForPVC_injective hname
    rw [huid] at hpod
    exact ((pods pod hpod).carries hsub hmapping hjson).volume hmapping hq
  | updated run volumes request ih =>
    rcases request with request | request
    · obtain ⟨name, old, hold, hpv⟩ :=
        (traced_reconcileVolume _).of_yields FromVolume.mono run _ request
      have holds := ih name old hold
      rcases hpv with ⟨ref, rfl⟩ | rfl
      · exact holds.of_same (sameMapped_set hmapping (by decide) (by decide) _ _)
      · exact holds.of_same (sameMapped_set hmapping (by decide) (by decide) _ _)
    · obtain ⟨name, old, hold, hannotations⟩ :=
        (traced_reconcileVolume _).of_yields FromVolume.mono run _ request
      rw [hannotations]
      exact ih name old hold
  | edited earlier same ih => exact ih.of_same same

/-- At any time of the life of a volume, the deprovisioner gets the variables the provisioner
Pod has got from the claim, and misses none. -/
theorem env_survives {e : Envsubst} (hsub : SubstitutesWith cfg e) (hmapping : PlainMapping p)
    (hjson : RoundTrips cfg claim p) {pv : PersistentVolume} (h : VolumeLife cfg claim p pv) :
    ∃ stored,
      storageProvisionerFromJSON cfg (pv.annotations.get annStorageProvisionerSpec) = .ok stored ∧
      annotationsToEnv pv.annotations stored.spec.env =
        annotationsToEnv claim.annotations p.spec.env ∧
      (annotationsToEnv pv.annotations stored.spec.env).2 = none ∧
      (VolumeController.deprovisionerJob cfg pv stored).create =
        (newProvisionerPod (deprovisionerPodName cfg pv.name) stored stored.spec.deprovisioner
          (annotationsToEnv claim.annotations p.spec.env).1).1 := by
  have hcarries := h.carries hsub hmapping hjson
  obtain ⟨stored, hstored, henv⟩ := hcarries.record
  have hsame : annotationsToEnv pv.annotations stored.spec.env =
      annotationsToEnv claim.annotations p.spec.env := by
    rw [henv]
    exact annotationsToEnv_congr hcarries.values
  have hnone : (annotationsToEnv pv.annotations stored.spec.env).2 = none := by
    rw [hsame]
    exact hcarries.required
  refine ⟨stored, hstored, hsame, hnone, ?_⟩
  change deprovisionerPod cfg pv stored = _
  unfold deprovisionerPod
  rw [← hsame]
  dsimp only
  rw [hnone]

/-- The cache provisioner with a size that is taken from the claim. -/
def sizedProvisioner : StorageProvisioner :=
  let q := DeprovisionerPods.cacheProvisioner "setup" ⟨none, []⟩
  { q with spec := { q.spec with env := [⟨"SIZE", "example.com/size", none⟩] } }

/-- The provisioner as it is recorded. -/
def sizedRecord : StorageProvisioner :=
  DeprovisionerPods.withMain sizedProvisioner ⟨"main", "manager", ["setup"], [], [⟨"SIZE", "10"⟩]⟩

/-- A claim with a size. -/
def sizedClaim : PersistentVolumeClaim :=
  { DeprovisionerPods.cacheClaim with
    annotations := DeprovisionerPods.cacheClaim.annotations.set "example.com/size" "10"
    finalizers := [finalizer] }

/-- A manager that records the one provisioner. -/
def sizedConfig : Config :=
  { DeprovisionerPods.cacheConfig ⟨none, []⟩ with
    storageProvisionerToJSON := fun _ => "spec"
    unmarshalProvisioner := fun _ => .ok sizedRecord
    substitute := substituteAll bracedVariables }

/-- The answers to the reconcile of the claim, given those for its Pod. -/
def sizedAnswer (pod : Except ApiError Pod) : (r : Req) → Resp r
  | .getClaim _ => .ok sizedClaim
  | .updateClaim _ => .error .notFound
  | .updateClaimStatus _ => .ok ()
  | .deleteClaim _ => .ok ()
  | .getVolume _ => .error .notFound
  | .createVolume _ => .ok ()
  | .updateVolume _ => .ok ()
  | .updateVolumeStatus _ => .ok ()
  | .deleteVolume _ => .ok ()
  | .getPod _ => pod
  | .createPod _ => .ok ()
  | .deletePod _ => .ok ()
  | .getStorageClass _ => .ok ⟨false⟩
  | .getProvisioner _ => some sizedProvisioner

/-- What is recorded when the claim is reconciled. -/
def sizedRun (pod : Except ApiError Pod) : Record Req Resp :=
  ((ClaimController.reconcile sizedConfig sizedClaim.key).respond (sizedAnswer pod)).1

/-- A request to create a Pod. -/
def createdPod : Req → Option Pod
  | .createPod pod => some pod
  | _ => none

/-- A request to create a volume. -/
def createdVolume : Req → Option PersistentVolume
  | .createVolume pv => some pv
  | _ => none

/-- The Pod that is created for the claim, or none. -/
def sizedPod : Option Pod := (sizedRun (.error .notFound)).findSome? fun x => createdPod x.1

/-- The volume that is created when the Pod has succeeded. -/
def sizedVolume (pod : Pod) : Option PersistentVolume :=
  (sizedRun (.ok { pod with phase := .succeeded })).findSome? fun x => createdVolume x.1

/-- A Pod that is found in a record has been created there. -/
theorem mem_of_createdPod {record : Record Req Resp} {pod : Pod}
    (h : (record.findSome? fun x => createdPod x.1) = some pod) :
    ∃ response, ⟨.createPod pod, response⟩ ∈ record := by
  obtain ⟨⟨r, response⟩, hmem, hr⟩ := List.exists_of_findSome?_eq_some h
  cases r <;> cases hr
  exact ⟨response, hmem⟩

/-- So has a volume. -/
theorem mem_of_createdVolume {record : Record Req Resp} {pv : PersistentVolume}
    (h : (record.findSome? fun x => createdVolume x.1) = some pv) :
    ∃ response, ⟨.createVolume pv, response⟩ ∈ record := by
  obtain ⟨⟨r, response⟩, hmem, hr⟩ := List.exists_of_findSome?_eq_some h
  cases r <;> cases hr
  exact ⟨response, hmem⟩

/-- The sample Pod is created by a reconcile of the sample claim. -/
theorem podLife_sized {pod : Pod} (h : sizedPod = some pod) :
    PodLife sizedConfig sizedClaim sizedProvisioner pod := by
  obtain ⟨response, hmem⟩ := mem_of_createdPod h
  refine .created (Prog.yields_respond (sizedAnswer (.error .notFound)) _) ?_ ?_ hmem
  · intro key c hc
    exact Except.ok.inj (Prog.mem_respond hc)
  · intro name q hq
    exact Option.some.inj (Prog.mem_respond hq)

/-- The sample volume is created by a later one. -/
theorem volumeLife_sized {pod : Pod} {pv : PersistentVolume} (hpod : sizedPod = some pod)
    (h : sizedVolume pod = some pv) (hname : pv.name = pvNameForPVC sizedClaim.uid) :
    VolumeLife sizedConfig sizedClaim sizedProvisioner pv := by
  obtain ⟨response, hmem⟩ := mem_of_createdVolume h
  refine .created (Prog.yields_respond (sizedAnswer (.ok { pod with phase := .succeeded })) _) ?_ hmem
    hname
  intro read hread
  have heq : read = { pod with phase := .succeeded } := Except.ok.inj (Prog.mem_respond hread)
  rw [heq]
  exact .edited (podLife_sized hpod) ⟨fun m _ => rfl, rfl⟩

/-- The sample provisioner can be read from its record. -/
theorem roundTrips_sized : RoundTrips sizedConfig sizedClaim sizedProvisioner := by
  intro nodePath q hq
  obtain ⟨-, rfl⟩ := (substitutePlaceholders_iff (substitutesWith_substituteAll rfl)).mp hq
  have hplain : ∀ s ∈ strings sizedProvisioner, '$' ∉ s.toList := by decide +kernel
  generalize DeprovisionerPods.paramsFor sizedClaim nodePath = params
  have hfixed : ∀ s ∈ strings sizedProvisioner, replaced bracedVariables params s = s :=
    fun s hs => replaced_plain (hplain s hs)
  have hsame : mapStrings (replaced bracedVariables params) sizedProvisioner = sizedProvisioner := by
    simp [strings, sizedProvisioner, DeprovisionerPods.cacheProvisioner, containerStrings,
      provisionerContainerStrings, envStrings] at hfixed
    simp [mapStrings, mapVolumeTemplate, mapPodTemplate, mapContainer, mapProvisionerContainer,
      Option.filter, sizedProvisioner, DeprovisionerPods.cacheProvisioner, hfixed]
  have hmerged : DeprovisionerPods.merged sizedConfig sizedClaim sizedProvisioner sizedProvisioner =
      sizedRecord := by decide +kernel
  rw [hsame, hmerged]
  rfl

/-- The size of the sample claim reaches the deprovisioner. -/
theorem env_survives_sized :
    ∃ pv, VolumeLife sizedConfig sizedClaim sizedProvisioner pv ∧
      ∃ stored,
        storageProvisionerFromJSON sizedConfig (pv.annotations.get annStorageProvisionerSpec) =
          .ok stored ∧
        annotationsToEnv pv.annotations stored.spec.env = ([⟨"SIZE", "10"⟩], none) := by
  have hcreated : (sizedPod.bind sizedVolume).map (·.name) = some (pvNameForPVC sizedClaim.uid) := by
    decide +kernel
  obtain ⟨pv, hpv, hname⟩ := Option.map_eq_some_iff.mp hcreated
  obtain ⟨pod, hpod, hvolume⟩ := Option.bind_eq_some_iff.mp hpv
  have hlife := volumeLife_sized hpod hvolume hname
  have hmapping : PlainMapping sizedProvisioner := by
    unfold PlainMapping
    decide +kernel
  obtain ⟨stored, hstored, henv, -⟩ :=
    env_survives (substitutesWith_substituteAll rfl) hmapping roundTrips_sized hlife
  refine ⟨pv, hlife, stored, hstored, ?_⟩
  rw [henv]
  decide +kernel

end Life

end K8StorageX.AnnotationLife
