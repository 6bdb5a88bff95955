import K8StorageX.JobRules

/-!
# The volume controller keeps to the permitted steps

The reference to the claim is cleared only when the claim is gone, the
deprovisioner Pod is created only for a volume without a reference that is still
to be deprovisioned, and the finalizer is removed only when the success has been
remembered and the Pod is gone.
-/

namespace K8StorageX.VolumeRefinement

open ApiProgram WorkerPool GoErrors KubeObjects ProvisionerPods KubeApi ManagerSystem Lifecycle
open JobReconciler VolumeController ControllerRules

variable {cfg : Config} {steady : Prop} {seen : Record Req Resp} {s : Cluster}
variable {name : String} {pv : PersistentVolume}

@[simp] theorem lastVolume_getVolume (seen : Record Req Resp) (name : String)
    (pv : PersistentVolume) : lastVolume (seen ++ [⟨.getVolume name, .ok pv⟩]) = some pv := by
  rw [lastVolume, List.foldl_append]
  rfl

@[simp] theorem lastVolume_getPod (seen : Record Req Resp) (key : ObjectKey)
    (response : Resp (.getPod key)) :
    lastVolume (seen ++ [⟨.getPod key, response⟩]) = lastVolume seen := by
  rw [lastVolume, List.foldl_append]
  rfl

/-- A volume that is to be released is there. -/
def VolumeDue (name : String) (s : Cluster) : Prop := ∃ pv, VolumeHeld name pv s

theorem volumeDue_stable (name : String) : Stable cfg steady (.volume name) (VolumeDue name) := by
  intro s t hstep hs
  obtain ⟨pv, hpv⟩ := hs
  exact ⟨pv, volumeHeld_stable name pv hstep hpv⟩

theorem VolumeDue.held (hs : VolumeDue name s) (hpv : s.volumes name = some pv) :
    VolumeHeld name pv s := by
  obtain ⟨_, pv', hpv', hf, hd, -⟩ := hs
  rw [hpv] at hpv'
  have heq : pv = pv' := Option.some.inj hpv'
  subst heq
  exact ⟨pv, hpv, hf, hd, rfl, rfl⟩

/-- The volume as read, which only the worker releases. -/
def Reading (name : String) (pv : PersistentVolume) (s : Cluster) : Prop :=
  VolumeHeld name pv s ∧ CurrentVolume pv s

theorem reading_stable (name : String) (pv : PersistentVolume) :
    Stable cfg steady (.volume name) (Reading name pv) :=
  (volumeHeld_stable name pv).and (currentVolume_stable pv).along

/-- A stored volume of the version that was read is what was read. -/
theorem Reading.stored {stored : PersistentVolume} (hs : Reading name pv s)
    (hname : pv.name = name) (hstored : s.volumes name = some stored)
    (hversion : pv.resourceVersion = stored.resourceVersion) :
    stored = pv ∧ finalizer ∈ pv.finalizers ∧ pv.deleting = true := by
  have heq : stored = pv := by
    refine hs.2.2 stored ?_ hversion.symm
    rw [hname]
    exact hstored
  subst heq
  obtain ⟨⟨pv', hpv', hf, hd, -⟩, -⟩ := hs
  rw [hstored] at hpv'
  have heq : stored = pv' := Option.some.inj hpv'
  subst heq
  exact ⟨rfl, hf, hd⟩

/-- The claim of a held volume is gone when its name is free. -/
theorem gone_of_none (hi : Inv cfg steady s) (hs : VolumeHeld name pv s) {ref : ObjectReference}
    (href : pv.spec.claimRef = some ref) (hnone : s.claims ref.key = none) : Gone s ref.uid := by
  obtain ⟨pv', hpv', hf, -, href', -⟩ := hs
  obtain ⟨ref₀, -, -, hissued, hcases⟩ := hi.managed hpv' hf
  rw [href', href] at hcases
  have heq : ref = ref₀ := by
    rcases hcases with hsome | ⟨hnone, _⟩
    · exact Option.some.inj hsome
    · cases hnone
  subst heq
  refine ⟨⟨ref.key, hissued⟩, ?_⟩
  intro key c hc huid
  have hclaim := (hi.claim hc).2
  rw [huid, hissued] at hclaim
  have hkey : ref.key = key := Option.some.inj hclaim
  subst hkey
  rw [hnone] at hc
  cases hc

/-- Clearing the reference to a claim that is gone is permitted. -/
theorem clearClaimRef_update {t u : Cluster} {ref : ObjectReference} (hgone : Gone t ref.uid)
    (href : pv.spec.claimRef = some ref) (hversion : u.revision = t.revision + 1) :
    VolumeUpdate cfg (some (.volume pv.name)) t u pv.name pv
      { Cluster.mergeVolume pv (clearClaimRef cfg pv ref) with
        resourceVersion := t.revision + 1 } where
  name := rfl
  deleting := id
  deleted hd hd' := by
    have hsame : pv.deleting = true := hd'
    rw [hd] at hsame
    cases hsame
  version := freshVersion_succ hversion
  policy := rfl
  managed := id
  held := Or.inl
  claimRef _ := by
    refine Or.inr ⟨rfl, rfl, ?_⟩
    intro ref' href'
    rw [href] at href'
    rw [← Option.some.inj href']
    exact hgone
  disabled := by
    refine Or.inl ?_
    have hne : annPVDisableDeprovisioner ≠ annPVClaimRef := by decide
    simp only [deprovisionerDisabled, Cluster.mergeVolume, clearClaimRef,
      Annotations.get_set_of_ne _ _ hne]

/-- Remembering the success of the deprovisioner is permitted. -/
theorem disableDeprovisioner_update {t u : Cluster}
    (hsucceeded : t.succeeded (deprovisionerPodName cfg pv.name) = true)
    (hversion : u.revision = t.revision + 1) :
    VolumeUpdate cfg (some (.volume pv.name)) t u pv.name pv
      { Cluster.mergeVolume pv (disableDeprovisioner pv) with
        resourceVersion := t.revision + 1 } where
  name := rfl
  deleting := id
  deleted hd hd' := by
    have hsame : pv.deleting = true := hd'
    rw [hd] at hsame
    cases hsame
  version := freshVersion_succ hversion
  policy := rfl
  managed := id
  held := Or.inl
  claimRef _ := Or.inl rfl
  disabled := by
    refine Or.inr ⟨rfl, ?_, hsucceeded⟩
    simp [deprovisionerDisabled, Cluster.mergeVolume, disableDeprovisioner]

/-- Removing the finalizer of a deprovisioned volume is permitted. -/
theorem release_update {t u : Cluster} (hdisabled : deprovisionerDisabled pv = true)
    (hnone : t.pods (deprovisionerPodName cfg pv.name) = none)
    (hversion : u.revision = t.revision + 1) :
    VolumeUpdate cfg (some (.volume pv.name)) t u pv.name pv
      { Cluster.mergeVolumeStatus pv
          { pv with finalizers := removeString pv.finalizers finalizer } with
        resourceVersion := t.revision + 1 } where
  name := rfl
  deleting := id
  deleted hd hd' := by
    have hsame : pv.deleting = true := hd'
    rw [hd] at hsame
    cases hsame
  version := freshVersion_succ hversion
  policy := rfl
  managed hf := by
    have hmem : finalizer ∈ removeString pv.finalizers finalizer := hf
    rw [mem_removeString] at hmem
    exact hmem.1
  held _ := Or.inr ⟨rfl, hdisabled, hnone⟩
  claimRef _ := Or.inl rfl
  disabled := Or.inl rfl

/-- What `canDeprovision` establishes for a volume that can be deprovisioned. -/
structure Deprovisionable (name : String) (seen : Record Req Resp) (pv : PersistentVolume)
    (s : Cluster) : Prop where
  /-- The volume is as it was read. -/
  reading : Reading name pv s
  /-- It has the name. -/
  name_eq : pv.name = name
  /-- It refers to no claim. -/
  released : pv.spec.claimRef = none
  /-- It was not bound. -/
  unbound : pv.phase ≠ .bound
  /-- It is what was read last. -/
  last : lastVolume seen = some pv

theorem follows_canDeprovision (rounds : ℕ) (err : Option GoError) (hs : Reading name pv s)
    (hname : pv.name = name) (hlast : lastVolume seen = some pv) :
    Follows cfg steady (.volume name)
      (fun seen result t => ∀ pv, result = .possible pv → Deprovisionable name seen pv t)
      (canDeprovision cfg rounds err pv) seen s := by
  induction rounds generalizing err pv seen s with
  | zero => exact .ret fun _ _ _ _ h => (by cases h)
  | succ rounds ih =>
    rw [canDeprovision]
    by_cases hbound : pv.phase = .bound
    · simp only [if_pos hbound]
      exact .ret fun _ _ _ _ h => (by cases h)
    simp only [if_neg hbound]
    cases href : pv.spec.claimRef with
    | none =>
      refine .ret fun t hr _ pv' heq => ?_
      have heq' : pv = pv' := Deprovisioning.possible.inj heq
      subst heq'
      exact ⟨(reading_stable name pv).rely hr hs, hname, href, hbound, hlast⟩
    | some ref =>
      simp only [Prog.request_bind]
      refine .getClaim (reading_stable name pv) hs ?_ ?_ ?_
      · intro t c _ _ _
        exact .ret fun _ _ _ _ h => (by cases h)
      · intro t hi hread hnone
        simp only [if_true]
        by_cases hnil : pv.annotations.isNil = true
        · rw [resolveProvisioner_of_isNil hnil]
          exact .ret fun _ _ _ _ h => (by cases h)
        rw [resolveProvisioner_of_annotated hnil, Prog.request_bind]
        have hgone := gone_of_none hi hread.1 href hnone
        have hfact : Stable cfg steady (.volume name)
            fun t => Reading name pv t ∧ Gone t ref.uid :=
          (reading_stable name pv).and (gone_stable ref.uid).along
        refine .getProvisioner hfact ⟨hread, hgone⟩ ?_
        intro t₁ _ hread₁
        cases hp : t₁.provisioners (pv.annotations.get annStorageProvisioner) with
        | none => exact .ret fun _ _ _ _ h => (by cases h)
        | some p =>
          -- the update is only stored if the volume is still what was read
          refine .putVolume (clearClaimRef cfg pv ref)
            (fun stored => Cluster.mergeVolume stored (clearClaimRef cfg pv ref)) (fun _ => rfl)
            (Cluster.answer_updateVolume _) hfact hread₁ ?_ ?_
          · intro u stored _ hu hstored hversion
            subst hname
            obtain ⟨heq, -⟩ := hu.1.stored rfl hstored hversion
            subst heq
            exact clearClaimRef_update hu.2 href rfl
          · intro u u' response hi hu hi' heffect
            have hdue : VolumeDue name u' := by
              rcases heffect with rfl | ⟨stored, hstored, hversion, rfl⟩
              · exact ⟨pv, hu.1.1⟩
              · subst hname
                obtain ⟨heq, hf, hd⟩ := hu.1.stored rfl hstored hversion
                subst heq
                exact ⟨_, _, u.volumes_putVolume_of_mem hf, hf, hd, rfl, rfl⟩
            cases response with
            | ok _ => exact .ret fun _ _ _ _ h => (by cases h)
            | error e =>
              by_cases he : e = .conflict
              · subst he
                simp only [if_true]
                subst hname
                refine .getVolume (volumeDue_stable pv.name) hdue ?_ ?_ ?_
                · intro v reloaded hi hdue hreloaded
                  have hread : Reading pv.name reloaded v :=
                    ⟨hdue.held hreloaded, currentVolume_read hi hreloaded⟩
                  exact ih (claimRefError .conflict) hread (hi.volume_name hreloaded)
                    (lastVolume_getVolume _ _ _)
                · intro v _ _ _
                  exact .ret fun _ _ _ _ h => (by cases h)
                · intro v e _ _ _
                  exact .ret fun _ _ _ _ h => (by cases h)
              · simp only [if_neg he]
                exact .ret fun _ _ _ _ h => (by cases h)
      · intro t e _ _ he
        simp only [if_neg he]
        exact .ret fun _ _ _ _ h => (by cases h)

/-- The volume as read, without a deprovisioner Pod. -/
theorem readingGone_stable (name : String) (pv : PersistentVolume) :
    Stable cfg steady (.volume name)
      fun s => Reading name pv s ∧ s.pods (deprovisionerPodName cfg name) = none := by
  intro s t hstep hs
  exact ⟨reading_stable name pv hstep hs.1, noDeprovisioner_stable name pv hstep hs.1.1 hs.2⟩

theorem follows_onDeprovisioned (hs : Reading name pv s)
    (hsucceeded : s.succeeded (deprovisionerPodName cfg name) = true) (hname : pv.name = name) :
    Follows cfg steady (.volume name) (fun _ result _ => result = (true, none) → False)
      (onDeprovisioned pv) seen s := by
  simp only [onDeprovisioned, Prog.request_bind]
  refine .putVolume (disableDeprovisioner pv)
    (fun stored => Cluster.mergeVolume stored (disableDeprovisioner pv)) (fun _ => rfl)
    (Cluster.answer_updateVolume _)
    ((reading_stable name pv).and (recordedSuccess_stable (deprovisionerPodName cfg name)).along)
    ⟨hs, hsucceeded⟩ ?_ ?_
  · intro u stored _ hu hstored hversion
    subst hname
    obtain ⟨heq, -⟩ := hu.1.stored rfl hstored hversion
    subst heq
    exact disableDeprovisioner_update hu.2 rfl
  · intro u u' response _ _ _ _
    cases response <;> exact .ret fun _ _ _ => nofun

/-- The deprovisioner Pod of a held volume that is to be deprovisioned may be created. -/
theorem deprovisioner_creation {pod : Pod} {response : Resp (.getPod (deprovisionerPodName cfg name))}
    (hs : Deprovisionable name seen pv s) (hdue : deprovisionerDisabled pv = false)
    {t : Cluster} (ht : Reading name pv t) :
    PodChange cfg steady (some (.volume name))
      (seen ++ [⟨.getPod (deprovisionerPodName cfg name), response⟩]) t
      (t.putPod (newPod { pod with key := deprovisionerPodName cfg name }))
      (deprovisionerPodName cfg name) none
      (some (newPod { pod with key := deprovisionerPodName cfg name })) := by
  obtain ⟨⟨pv', hpv', hf, hd, href, hdisabled⟩, -⟩ := ht
  have hreleased : pv'.spec.claimRef = none := href.trans hs.released
  have hdue' : deprovisionerDisabled pv' = false := hdisabled.trans hdue
  have hlast : lastVolume (seen ++ [⟨.getPod (deprovisionerPodName cfg name), response⟩]) =
      some pv := (lastVolume_getPod _ _ _).trans hs.last
  exact .deprovisioner
    ⟨rfl, hpv', rfl, rfl, rfl, rfl, hd, hf, hreleased, hdue', hlast, hs.unbound⟩

theorem follows_deprovisionVolume (hs : Deprovisionable name seen pv s) :
    Follows cfg steady (.volume name)
      (fun _ result t => result = (true, none) →
        deprovisionerDisabled pv = true ∧ Reading name pv t ∧
          t.pods (deprovisionerPodName cfg name) = none)
      (deprovisionVolume cfg pv) seen s := by
  have hname := hs.name_eq
  subst hname
  rw [deprovisionVolume]
  split
  · exact .ret fun _ _ _ => nofun
  split
  · exact .ret fun _ _ _ => nofun
  rename_i p _
  have hdone : ∀ _ : Pod, Stable cfg steady (.volume pv.name) fun t =>
      Reading pv.name pv t ∧ t.succeeded (deprovisionerPodName cfg pv.name) = true :=
    fun _ => (reading_stable pv.name pv).and (recordedSuccess_stable _).along
  have hnever : Stable cfg steady (.volume pv.name) fun _ => False := stable_const False
  refine (follows_reconcileJob (reading_stable pv.name pv) hdone hnever
    (readingGone_stable pv.name pv) (hnever.and fun _ _ _ hf _ => hf.elim) hs.reading
    ?_ ?_ ?_ ?_ ?_).mono ?_
  · intro hrun t pod _ ht _
    have hdisabled : deprovisionerDisabled pv = true := by
      simpa [deprovisionerJob] using hrun
    obtain ⟨⟨pv', hpv', -, -, -, hsame⟩, -⟩ := ht
    exact .deprovisioner rfl hpv' rfl (hsame.trans hdisabled)
  · intro hrun pod response t _ _ ht _
    have hdue : deprovisionerDisabled pv = false := by
      simpa [deprovisionerJob] using hrun
    exact deprovisioner_creation hs hdue ht
  · intro _ t pod hi ht hpod hphase
    exact ⟨ht, hi.pod_succeeded hpod hphase⟩
  · intro pod seen' t ht
    exact follows_onDeprovisioned ht.1 ht.2 rfl
  · intro t pod _ hfalse _
    exact hfalse.elim
  · intro _ result t _ hpost hresult
    obtain ⟨hnone, hcases⟩ := hpost hresult
    rcases hcases with ⟨hrun, ht⟩ | hfalse
    · have hdisabled : deprovisionerDisabled pv = true := by
        simpa [deprovisionerJob] using hrun
      exact ⟨hdisabled, ht, hnone⟩
    · exact hfalse.elim

/-- The reconcile of a volume takes permitted steps. -/
theorem follows_reconcile (name : String) (s : Cluster) :
    Follows cfg steady (.volume name) (fun _ _ _ => True) (VolumeController.reconcile cfg name)
      seen s := by
  simp only [VolumeController.reconcile, Prog.request_bind]
  refine .getVolume (stable_const True) trivial ?_ ?_ ?_
  · intro t pv hi _ hpv
    dsimp only
    split
    · exact .ret_true _
    rename_i hdue
    simp only [not_or, Bool.not_eq_false, hasString_iff] at hdue
    have hname := hi.volume_name hpv
    have hread : Reading name pv t :=
      ⟨⟨pv, hpv, hdue.2, hdue.1, rfl, rfl⟩, currentVolume_read hi hpv⟩
    refine .bind ((follows_canDeprovision 2 none hread hname (lastVolume_getVolume _ _ _)).mono ?_)
    intro seen' can u _ hcan
    cases can with
    | blocked err => exact .ret_true _
    | possible pv =>
      have hdeprovisionable := hcan pv rfl
      refine .bind ((follows_deprovisionVolume hdeprovisionable).mono ?_)
      intro seen'' result v _ hresult
      split
      · exact .ret_true _
      rename_i hgo
      obtain ⟨hdisabled, hread, hnone⟩ := hresult (eq_done_of_not hgo)
      have hname := hdeprovisionable.name_eq
      subst hname
      refine .putVolume { pv with finalizers := removeString pv.finalizers finalizer }
        (fun stored => Cluster.mergeVolumeStatus stored
          { pv with finalizers := removeString pv.finalizers finalizer }) (fun _ => rfl)
        (Cluster.answer_updateVolumeStatus _) (readingGone_stable pv.name pv) ⟨hread, hnone⟩ ?_ ?_
      · intro u stored _ hu hstored hversion
        obtain ⟨heq, -⟩ := hu.1.stored rfl hstored hversion
        subst heq
        exact release_update hdisabled hu.2 rfl
      · intro u u' response _ _ _ _
        cases response <;> exact .ret_true _
  · intro t _ _ _
    exact .ret_true _
  · intro t e _ _ he
    simp only [if_neg he]
    exact .ret_true _

end K8StorageX.VolumeRefinement
