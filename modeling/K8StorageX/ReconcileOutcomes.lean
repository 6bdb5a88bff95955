import K8StorageX.AnnotationLife
import K8StorageX.ProvisionerValidation
import K8StorageX.RegistryMirror

/-!
# How reconciling a claim ends

The registry holds validated provisioners only, so the mode of their volumes is set. What
is left of the dereferences of nil pointers is the report of a missing annotation: it
takes the text of the error of the lookup of the volume, and there is none when the
volume has been found.
-/

namespace K8StorageX.ReconcileOutcomes

open ApiProgram GoErrors KubeObjects ProvisionerPods KubeApi JobReconciler VolumeController
open ClaimController Placeholders ProvisionerValidation

section Registry

open ProvisionerRegistry

variable {cfg : Config}

/-- The registries that `Put` and `Delete` can build. -/
inductive Built (cfg : Config) : Registry → Prop
  /-- The new registry. -/
  | empty : Built cfg newProvisioners
  /-- A provisioner is put, with or without success. -/
  | put {r : Registry} (earlier : Built cfg r) (p : StorageProvisioner) :
      Built cfg (ProvisionerRegistry.put cfg r p).2
  /-- A provisioner is deleted. -/
  | delete {r : Registry} (earlier : Built cfg r) (p : StorageProvisioner) :
      Built cfg (ProvisionerRegistry.delete r p)

/-- The registry returns validated provisioners only. -/
theorem Built.validated {r : Registry} (h : Built cfg r) {name : String} {p : StorageProvisioner}
    (hp : ProvisionerRegistry.get r name = some p) : validateProvisioner cfg p = none := by
  induction h with
  | empty => cases hp
  | @put r earlier q ih =>
    have heffect := RegistryMirror.put_effect cfg r q
    generalize (ProvisionerRegistry.put cfg r q).2 = r' at heffect hp
    cases heffect with
    | rejected _ => exact ih hp
    | stored hvalid _ =>
      by_cases hname : name = q.spec.name
      · rw [ProvisionerRegistry.get, hname, Function.update_self] at hp
        cases hp
        exact hvalid
      · rw [ProvisionerRegistry.get, Function.update_of_ne hname] at hp
        exact ih hp
    | disabled _ _ =>
      by_cases hname : name = q.spec.name
      · rw [ProvisionerRegistry.get, hname, Function.update_self] at hp
        cases hp
      · rw [ProvisionerRegistry.get, Function.update_of_ne hname] at hp
        exact ih hp
  | @delete r earlier q ih =>
    by_cases hname : name = q.spec.name
    · rw [ProvisionerRegistry.get, ProvisionerRegistry.delete, hname, Function.update_self] at hp
      cases hp
    · rw [ProvisionerRegistry.get, ProvisionerRegistry.delete, Function.update_of_ne hname] at hp
      exact ih hp

/-- The volumes of a validated provisioner have a mode. -/
theorem volumeMode_of_accepted {e : Envsubst} (hsub : SubstitutesWith cfg e) {p : StorageProvisioner}
    (h : validateProvisioner cfg p = none) :
    p.spec.persistentVolumeTemplate.volumeMode ≠ none := by
  have hmode := (checked_of_accepted h).volumeMode
  unfold dryRun at hmode
  cases hsubstituted : substituteProvisionerPlaceholders cfg p testParams with
  | error err =>
    rw [hsubstituted] at hmode
    exact hmode
  | ok q =>
    obtain ⟨-, hq⟩ := (substitutePlaceholders_iff hsub).mp hsubstituted
    rw [hsubstituted, hq] at hmode
    exact hmode

end Registry

section Panics

variable {cfg : Config} {key : ObjectKey} {claim : PersistentVolumeClaim} {p : StorageProvisioner}
variable {record : Record Req Resp} {outcome : Outcome}

/-- Requests that do not read a volume. -/
def NoVolume (r : Req) : Prop := ∀ name, r ≠ .getVolume name

theorem forPods_noVolume : ForPods NoVolume where
  get _ _ := Req.noConfusion
  create _ _ := Req.noConfusion
  delete _ _ := Req.noConfusion

theorem ret_returns {err : Option GoError}
    (h : (Prog.ret (.returned err) : Controller Outcome).Yields record outcome) :
    outcome ≠ .panicked := by
  rw [h.2]
  exact Outcome.noConfusion

theorem updateStatus_returns (h : (updateStatus claim).Yields record outcome) :
    outcome ≠ .panicked := by
  unfold updateStatus at h
  rw [Prog.yields_request_bind_iff] at h
  obtain ⟨updated, rest, rfl, h⟩ := h
  split at h
  · exact ret_returns h
  · exact ret_returns h

theorem reconcileDeleted_returns (h : (reconcileDeleted cfg claim).Yields record outcome) :
    outcome ≠ .panicked := by
  unfold reconcileDeleted at h
  split at h
  · split at h
    · exact updateStatus_returns h
    · exact ret_returns h
  · split at h
    · split at h
      · exact ret_returns h
      · unfold release at h
        obtain ⟨deleted, first, last, rfl, -, h⟩ := Prog.yields_bind_iff.mp h
        split at h
        · exact ret_returns h
        · obtain ⟨deprovisioned, first', last', rfl, -, h⟩ := Prog.yields_bind_iff.mp h
          split at h
          · exact ret_returns h
          · exact updateStatus_returns h
    · exact ret_returns h

/-- With a mode of its volumes a provisioner can be compared with a claim. -/
theorem shouldProvision_decides {should : Decision}
    (hmode : p.spec.persistentVolumeTemplate.volumeMode ≠ none)
    (h : (shouldProvision claim p).Yields record should) : should ≠ .panicked := by
  unfold shouldProvision at h
  split at h
  · rw [h.2]
    exact Decision.noConfusion
  · rw [Prog.yields_request_bind_iff] at h
    obtain ⟨read, rest, rfl, h⟩ := h
    have hrest : should = .yes ∨ ∃ err, should = .no err := by
      split at h
      · split at h
        · exact Or.inr ⟨_, h.2⟩
        · exact Or.inr ⟨_, h.2⟩
      · split at h
        · rename_i hnone
          exact absurd hnone hmode
        · split at h
          · exact Or.inr ⟨_, h.2⟩
          · split at h
            · exact Or.inr ⟨_, h.2⟩
            · exact Or.inl h.2
    rcases hrest with rfl | ⟨err, rfl⟩
    · exact Decision.noConfusion
    · exact Decision.noConfusion

theorem issues_provisionerJob (pvExists : Bool) :
    (reconcileJob (provisionerJob cfg claim p pvExists)).Issues NoVolume := by
  refine issues_reconcileJob forPods_noVolume _ fun pod => ?_
  exact issues_onProvisioned (fun _ _ => Req.noConfusion) cfg pod

/-- The record of a job of the claim, and of what returns its result. -/
theorem yields_provisionerJob {pvExists : Bool}
    (h : (reconcileJob (provisionerJob cfg claim p pvExists) >>= fun result =>
      (pure (.returned result.2) : Controller Outcome)).Yields record outcome) :
    outcome ≠ .panicked ∧ ∀ exchange ∈ record, NoVolume exchange.1 := by
  obtain ⟨result, first, last, rfl, hjob, h⟩ := Prog.yields_bind_iff.mp h
  obtain ⟨rfl, houtcome⟩ := h
  refine ⟨ret_returns ⟨rfl, houtcome⟩, ?_⟩
  rw [List.append_nil]
  exact (issues_provisionerJob pvExists).of_yields hjob

/-- Provisioning panics exactly if the volume exists and an annotation is missing. -/
theorem provision_panics_iff (h : (provision cfg claim p).Yields record outcome) :
    outcome = .panicked ↔
      (∃ pv, ⟨.getVolume (pvNameForPVC claim.uid), .ok pv⟩ ∈ record) ∧
        (annotationsToEnv claim.annotations p.spec.env).2 ≠ none := by
  unfold provision at h
  rw [Prog.yields_request_bind_iff] at h
  obtain ⟨read, rest, rfl, h⟩ := h
  cases read with
  | ok pv =>
    dsimp only at h
    split at h
    · rename_i hmissing
      obtain ⟨rfl, rfl⟩ := h
      refine iff_of_true rfl ⟨⟨pv, List.mem_cons_self⟩, ?_⟩
      exact Option.isSome_iff_ne_none.mp hmissing
    · rename_i hmissing
      refine iff_of_false (yields_provisionerJob h).1 fun hboth => hmissing ?_
      exact Option.isSome_iff_ne_none.mpr hboth.2
  | error e =>
    dsimp only at h
    -- the volume has not been found, and it is not looked up again
    have hrest : outcome ≠ .panicked ∧ ∀ exchange ∈ rest, NoVolume exchange.1 := by
      split at h
      · exact yields_provisionerJob h
      · refine ⟨ret_returns h, ?_⟩
        rw [h.1]
        simp
    refine iff_of_false hrest.1 ?_
    rintro ⟨⟨pv, hpv⟩, -⟩
    rcases List.mem_cons.mp hpv with heq | hmem
    · cases heq
    · exact hrest.2 _ hmem _ rfl

/-- The claim that has been read is not being deleted and lacks a required annotation of the
provisioner that has been looked up, and its volume has been found. -/
def MissesAnnotation (key : ObjectKey) (record : Record Req Resp) : Prop :=
  ∃ claim name p rest pv,
    record = ⟨.getClaim key, .ok claim⟩ :: ⟨.getProvisioner name, some p⟩ :: rest ∧
    claim.deleting = false ∧ (annotationsToEnv claim.annotations p.spec.env).2 ≠ none ∧
    ⟨.getVolume (pvNameForPVC claim.uid), .ok pv⟩ ∈ rest

/-- With a validated provisioner only the report of a missing annotation can panic. -/
theorem reconcileActive_panics_iff
    (hmode : p.spec.persistentVolumeTemplate.volumeMode ≠ none)
    (h : (shouldProvision claim p >>= fun should =>
      match should with
      | .no err => return .returned err
      | .panicked => return .panicked
      | .yes =>
        if (addString claim.finalizers finalizer).1 then
          updateStatus { claim with finalizers := (addString claim.finalizers finalizer).2 }
        else provision cfg claim p).Yields record outcome) :
    outcome = .panicked ↔
      (annotationsToEnv claim.annotations p.spec.env).2 ≠ none ∧
        ∃ pv, ⟨.getVolume (pvNameForPVC claim.uid), .ok pv⟩ ∈ record := by
  obtain ⟨should, first, last, rfl, hshould, h⟩ := Prog.yields_bind_iff.mp h
  have hissues : (shouldProvision claim p).Issues NoVolume :=
    issues_shouldProvision (fun _ _ => Req.noConfusion) p
  have hfirst := hissues.of_yields hshould
  -- a volume that has been found has been looked up after the check
  have hlast (pv : PersistentVolume) :
      ⟨.getVolume (pvNameForPVC claim.uid), .ok pv⟩ ∈ first ++ last ↔
        ⟨.getVolume (pvNameForPVC claim.uid), .ok pv⟩ ∈ last := by
    rw [List.mem_append]
    exact or_iff_right fun hmem => hfirst _ hmem _ rfl
  simp only [hlast]
  cases should with
  | no err =>
    refine iff_of_false (ret_returns h) ?_
    rw [h.1]
    simp
  | panicked => exact absurd rfl (shouldProvision_decides hmode hshould)
  | yes =>
    dsimp only at h
    split at h
    · refine iff_of_false (updateStatus_returns h) ?_
      rintro ⟨-, pv, hpv⟩
      have hissues : (updateStatus { claim with
          finalizers := (addString claim.finalizers finalizer).2 }).Issues NoVolume :=
        issues_updateStatus fun _ => Req.noConfusion
      exact hissues.of_yields h _ hpv _ rfl
    · rw [provision_panics_iff h]
      exact and_comm

/-- Whatever the API answers, reconciling a claim panics exactly if the volume of the claim
has been found and a required annotation is missing. -/
theorem reconcile_panics_iff {e : Envsubst} (hsub : SubstitutesWith cfg e)
    (hregistered : ∀ name p, ⟨.getProvisioner name, some p⟩ ∈ record →
      ∃ r, Built cfg r ∧ ProvisionerRegistry.get r name = some p)
    (h : (ClaimController.reconcile cfg key).Yields record outcome) :
    outcome = .panicked ↔ MissesAnnotation key record := by
  unfold ClaimController.reconcile at h
  rw [Prog.yields_request_bind_iff] at h
  obtain ⟨read, rest, rfl, h⟩ := h
  cases read with
  | error err =>
    dsimp only at h
    have hreturns : outcome ≠ .panicked := by
      split at h
      · exact ret_returns h
      · exact ret_returns h
    refine iff_of_false hreturns ?_
    rintro ⟨claim, name, p, rest', pv, heq, -⟩
    cases heq
  | ok claim =>
    dsimp only at h
    split at h
    · rename_i hdeleting
      refine iff_of_false (reconcileDeleted_returns h) ?_
      rintro ⟨claim', name, p, rest', pv, heq, hactive, -⟩
      cases heq
      rw [hdeleting] at hactive
      cases hactive
    · rename_i hactive
      rw [reconcileActive] at h
      by_cases hnil : claim.annotations.isNil = true
      · rw [VolumeController.resolveProvisioner_of_isNil hnil] at h
        have hempty : rest = [] := h.1
        refine iff_of_false (ret_returns h) ?_
        rintro ⟨claim', name, p, rest', pv, heq, -⟩
        rw [hempty] at heq
        cases heq
      rw [VolumeController.resolveProvisioner_of_annotated hnil, Prog.yields_request_bind_iff] at h
      obtain ⟨known, rest, rfl, h⟩ := h
      cases known with
      | none =>
        refine iff_of_false (ret_returns h) ?_
        rintro ⟨claim', name, p, rest', pv, heq, -⟩
        cases heq
      | some p =>
        obtain ⟨r, hbuilt, hget⟩ := hregistered _ p (List.mem_cons_of_mem _ List.mem_cons_self)
        have hmode := volumeMode_of_accepted hsub (hbuilt.validated hget)
        rw [reconcileActive_panics_iff hmode h]
        constructor
        · rintro ⟨hmissing, pv, hpv⟩
          exact ⟨claim, _, p, rest, pv, rfl, Bool.eq_false_of_not_eq_true hactive, hmissing, hpv⟩
        · rintro ⟨claim', name, p', rest', pv, heq, -, hmissing, hpv⟩
          cases heq
          exact ⟨hmissing, pv, hpv⟩

/-- A claim without the size its provisioner asks for. -/
def sizelessClaim : PersistentVolumeClaim :=
  { DeprovisionerPods.cacheClaim with finalizers := [finalizer] }

/-- The volume of the claim. -/
def sizelessVolume : PersistentVolume :=
  persistentVolumeForClaim sizelessClaim AnnotationLife.sizedProvisioner "spec" .empty

/-- The registry with the sized provisioner. -/
def sizedRegistry : ProvisionerRegistry.Registry :=
  (ProvisionerRegistry.put AnnotationLife.sizedConfig ProvisionerRegistry.newProvisioners
    AnnotationLife.sizedProvisioner).2

theorem built_sizedRegistry : Built AnnotationLife.sizedConfig sizedRegistry :=
  .put .empty AnnotationLife.sizedProvisioner

/-- The answers to the reconcile of the claim, given the answer for its volume. -/
def sizelessAnswer (pv : Except ApiError PersistentVolume) : (r : Req) → Resp r
  | .getClaim _ => .ok sizelessClaim
  | .getVolume _ => pv
  | .getProvisioner name => ProvisionerRegistry.get sizedRegistry name
  | r => AnnotationLife.sizedAnswer (.error .notFound) r

/-- The claim is reconciled with these answers. -/
def sizelessRun (pv : Except ApiError PersistentVolume) : Record Req Resp × Outcome :=
  (ClaimController.reconcile AnnotationLife.sizedConfig sizelessClaim.key).respond (sizelessAnswer pv)

/-- Without a volume the missing annotation is reported. -/
theorem reconcile_panics_iff_no_volume : (sizelessRun (.error .notFound)).2 ≠ .panicked := by
  have hyields := Prog.yields_respond (sizelessAnswer (.error .notFound))
    (ClaimController.reconcile AnnotationLife.sizedConfig sizelessClaim.key)
  have hregistered : ∀ name p, ⟨.getProvisioner name, some p⟩ ∈ (sizelessRun (.error .notFound)).1 →
      ∃ r, Built AnnotationLife.sizedConfig r ∧ ProvisionerRegistry.get r name = some p := by
    intro name p hp
    exact ⟨sizedRegistry, built_sizedRegistry, (Prog.mem_respond hp).symm⟩
  intro hpanicked
  obtain ⟨claim, name, p, rest, pv, hrecord, -, -, hpv⟩ :=
    (reconcile_panics_iff (substitutesWith_substituteAll rfl) hregistered hyields).mp hpanicked
  have hmem : ⟨.getVolume (pvNameForPVC claim.uid), .ok pv⟩ ∈ (sizelessRun (.error .notFound)).1 := by
    rw [hrecord]
    exact List.mem_cons_of_mem _ (List.mem_cons_of_mem _ hpv)
  cases Prog.mem_respond hmem

/-- A claim whose annotation has been removed while its volume is there. -/
theorem panics_with_volume :
    Built AnnotationLife.sizedConfig sizedRegistry ∧
      (∀ name p, ⟨.getProvisioner name, some p⟩ ∈ (sizelessRun (.ok sizelessVolume)).1 →
        ProvisionerRegistry.get sizedRegistry name = some p) ∧
      (ClaimController.reconcile AnnotationLife.sizedConfig sizelessClaim.key).Yields
        (sizelessRun (.ok sizelessVolume)).1 .panicked := by
  refine ⟨built_sizedRegistry, fun name p hp => (Prog.mem_respond hp).symm, ?_⟩
  have hyields := Prog.yields_respond (sizelessAnswer (.ok sizelessVolume))
    (ClaimController.reconcile AnnotationLife.sizedConfig sizelessClaim.key)
  have hpanics : ((sizelessRun (.ok sizelessVolume)).2 matches .panicked) = true := by
    decide +kernel
  have houtcome : (sizelessRun (.ok sizelessVolume)).2 = .panicked := by
    cases houtcome : (sizelessRun (.ok sizelessVolume)).2 with
    | panicked => rfl
    | returned err =>
      rw [houtcome] at hpanics
      cases hpanics
  rw [sizelessRun] at houtcome
  rw [houtcome] at hyields
  exact hyields

end Panics

end K8StorageX.ReconcileOutcomes
