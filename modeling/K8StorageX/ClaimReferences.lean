import K8StorageX.DeprovisionerPods

/-!
# References of volumes to their claims

A volume that is being deleted is deprovisioned after its reference to the claim has been
cleared. The claim is looked up by its name: as long as a claim of that name exists, the
reference stays. While the claim of the reference itself exists, it is never cleared,
whatever others do between the requests.
-/

namespace K8StorageX.ClaimReferences

open ApiProgram GoErrors KubeObjects ProvisionerPods KubeApi VolumeController

section Undisturbed

variable {s : Cluster} {pv : PersistentVolume} {ref : ObjectReference}

/-- An API without failures. -/
def calm : Fault := ⟨none, false, false⟩

/-- The cluster after `canDeprovision` has run alone. -/
def afterwards (cfg : Config) (s : Cluster) (pv : PersistentVolume) : Cluster :=
  ((canDeprovision cfg 2 none pv).eval (fun r s => s.serve calm r) s).2

/-- The volume does not refer to a claim. -/
def Cleared (s : Cluster) (name : String) : Prop :=
  ∀ stored, s.volumes name = some stored → stored.spec.claimRef = none

theorem afterwards_blocked {cfg : Config} {c : PersistentVolumeClaim} (hphase : pv.phase ≠ .bound)
    (href : pv.spec.claimRef = some ref) (hc : s.claims ref.key = some c) :
    afterwards cfg s pv = s := by
  unfold afterwards canDeprovision
  rw [if_neg hphase, href]
  simp [Cluster.serve, calm, Cluster.answer, hc]

theorem afterwards_cleared {cfg : Config} {p : StorageProvisioner}
    (hpv : s.volumes pv.name = some pv) (hphase : pv.phase ≠ .bound)
    (href : pv.spec.claimRef = some ref) (hnone : s.claims ref.key = none)
    (hannotated : pv.annotations.isNil = false)
    (hp : s.provisioners (pv.annotations.get annStorageProvisioner) = some p) :
    afterwards cfg s pv = s.putVolume (Cluster.mergeVolume pv (clearClaimRef cfg pv ref)) := by
  unfold afterwards canDeprovision
  rw [if_neg hphase, href]
  simp [Cluster.serve, calm, Cluster.answer, hnone, resolveProvisioner, hannotated, hp,
    clearClaimRef, Cluster.checked, hpv]

/-- The reference is cleared exactly if no claim has its name. -/
theorem cleared_afterwards_iff {cfg : Config} {p : StorageProvisioner}
    (hpv : s.volumes pv.name = some pv) (hphase : pv.phase ≠ .bound)
    (href : pv.spec.claimRef = some ref) (hannotated : pv.annotations.isNil = false)
    (hp : s.provisioners (pv.annotations.get annStorageProvisioner) = some p) :
    Cleared (afterwards cfg s pv) pv.name ↔ s.claims ref.key = none := by
  cases hc : s.claims ref.key with
  | some c =>
    rw [afterwards_blocked hphase href hc]
    refine iff_of_false (fun hcleared => ?_) (by simp)
    have hnone := hcleared pv hpv
    rw [href] at hnone
    cases hnone
  | none =>
    rw [afterwards_cleared hpv hphase href hc hannotated hp]
    refine iff_of_true (fun stored hstored => ?_) rfl
    have hname : (Cluster.mergeVolume pv (clearClaimRef cfg pv ref)).name = pv.name := rfl
    simp only [Cluster.putVolume, hname, Function.update_self] at hstored
    split at hstored
    · cases hstored
    · cases hstored
      rfl

end Undisturbed

section Interference

variable {s t u : Cluster} {pv : PersistentVolume} {ref : ObjectReference}

/-- What others do: UIDs are issued once, to one name, and every change of a volume gives it
a new version. -/
structure Others (s t : Cluster) : Prop where
  /-- UIDs stay issued. -/
  issued : ∀ {uid key}, s.issued uid = some key → t.issued uid = some key
  /-- Versions are not handed out again. -/
  revision : s.revision ≤ t.revision
  /-- A claim was there before under its UID, or its UID is new. -/
  claims : ∀ {key c}, t.claims key = some c →
    (∃ c', s.claims key = some c' ∧ c'.uid = c.uid) ∨ s.issued c.uid = none
  /-- A volume has not been changed or has a new version. -/
  volumes : ∀ {name pv}, t.volumes name = some pv →
    s.volumes name = some pv ∨ s.revision < pv.resourceVersion

theorem Others.refl (s : Cluster) : Others s s where
  issued := id
  revision := le_rfl
  claims hc := Or.inl ⟨_, hc, rfl⟩
  volumes := Or.inl

theorem Others.trans (h : Others s t) (h' : Others t u) : Others s u where
  issued hkey := h'.issued (h.issued hkey)
  revision := h.revision.trans h'.revision
  claims {key c} hc := by
    rcases h'.claims hc with ⟨c', hc', huid⟩ | hnew
    · rcases h.claims hc' with ⟨c'', hc'', huid'⟩ | hnone
      · exact Or.inl ⟨c'', hc'', huid'.trans huid⟩
      · rw [huid] at hnone
        exact Or.inr hnone
    · cases hissued : s.issued c.uid with
      | none => exact Or.inr rfl
      | some key =>
        rw [h.issued hissued] at hnew
        cases hnew
  volumes {name pv} hpv := by
    rcases h'.volumes hpv with hsame | hversion
    · exact h.volumes hsame
    · exact Or.inr (h.revision.trans_lt hversion)

/-- Claims have been issued their UIDs, volumes have versions, and references name the claim
their UID has been issued to. -/
structure Consistent (s : Cluster) : Prop where
  /-- UIDs of claims. -/
  claims : ∀ {key c}, s.claims key = some c → s.issued c.uid = some key
  /-- Names and versions of volumes. -/
  volumes : ∀ {name pv}, s.volumes name = some pv → pv.name = name ∧ pv.resourceVersion ≤ s.revision
  /-- References of volumes. -/
  references : ∀ {name pv ref}, s.volumes name = some pv → pv.spec.claimRef = some ref →
    s.issued ref.uid = some ref.key

/-- A reference stays as it is while its claim exists. -/
def KeepsReferences (s t : Cluster) : Prop :=
  ∀ name pv ref, s.volumes name = some pv → pv.spec.claimRef = some ref →
    (∃ key c, s.claims key = some c ∧ c.uid = ref.uid) →
      ∃ pv', t.volumes name = some pv' ∧ pv'.spec.claimRef = some ref

/-- Every request keeps the references, whatever others do before it and however it fails. -/
def contract : Contract Req Resp Cluster Fault where
  serve fault r s := s.serve fault r
  rely := Others
  inv := Consistent
  admits _ _ _ := True
  guarantee _ _ _ := KeepsReferences
  rely_refl := Others.refl
  rely_trans := Others.trans

/-- The volume as it has been read: it is still the same if it has the same version. -/
structure Read (pv : PersistentVolume) (s : Cluster) : Prop where
  /-- The version has been handed out. -/
  version : pv.resourceVersion ≤ s.revision
  /-- The same version is the same volume. -/
  current : ∀ {pv'}, s.volumes pv.name = some pv' → pv'.resourceVersion = pv.resourceVersion →
    pv' = pv
  /-- The reference names the claim of its UID. -/
  reference : ∀ {ref}, pv.spec.claimRef = some ref → s.issued ref.uid = some ref.key

theorem Read.of_found (hi : Consistent s) {name : String} (h : s.volumes name = some pv) :
    Read pv s where
  version := (hi.volumes h).2
  current {pv'} hpv' _ := by
    rw [(hi.volumes h).1, h] at hpv'
    exact (Option.some.inj hpv').symm
  reference href := hi.references h href

theorem Read.stable (h : Read pv s) (hr : Others s t) : Read pv t where
  version := h.version.trans hr.revision
  current {pv'} hpv' hversion := by
    rcases hr.volumes hpv' with hsame | hnew
    · exact h.current hsame hversion
    · have hbound := h.version
      omega
  reference href := hr.issued (h.reference href)

/-- No claim has the UID, and none will get it. -/
structure Gone (uid : UID) (s : Cluster) : Prop where
  /-- The UID has been issued. -/
  issued : s.issued uid ≠ none
  /-- No claim has it. -/
  claims : ∀ {key c}, s.claims key = some c → c.uid ≠ uid

theorem Gone.stable {uid : UID} (h : Gone uid s) (hr : Others s t) : Gone uid t where
  issued := by
    obtain ⟨key, hkey⟩ := Option.ne_none_iff_exists'.mp h.issued
    rw [hr.issued hkey]
    exact Option.some_ne_none key
  claims {key c} hc huid := by
    rcases hr.claims hc with ⟨c', hc', huid'⟩ | hnew
    · exact h.claims hc' (huid'.trans huid)
    · rw [huid] at hnew
      exact h.issued hnew

/-- The claim of a reference is gone if its name is free. -/
theorem Gone.of_free (hi : Consistent s) (hissued : s.issued ref.uid = some ref.key)
    (hnone : s.claims ref.key = none) : Gone ref.uid s where
  issued := by
    rw [hissued]
    exact Option.some_ne_none ref.key
  claims {key c} hc huid := by
    have hkey := hi.claims hc
    rw [huid, hissued] at hkey
    rw [← Option.some.inj hkey, hnone] at hc
    cases hc

theorem KeepsReferences.refl (s : Cluster) : KeepsReferences s s :=
  fun _ pv _ hpv href _ => ⟨pv, hpv, href⟩

/-- Clearing the reference to a claim that is gone keeps the others. -/
theorem consistent_clear {cfg : Config} (hi : Consistent s) (hpv : s.volumes pv.name = some pv)
    (href : pv.spec.claimRef = some ref) (hgone : Gone ref.uid s) :
    Consistent (s.putVolume (Cluster.mergeVolume pv (clearClaimRef cfg pv ref))) ∧
      KeepsReferences s (s.putVolume (Cluster.mergeVolume pv (clearClaimRef cfg pv ref))) := by
  have hvolumes {name : String} {pv' : PersistentVolume}
      (h : (s.putVolume (Cluster.mergeVolume pv (clearClaimRef cfg pv ref))).volumes name = some pv') :
      s.volumes name = some pv' ∨ pv'.name = name ∧ pv'.resourceVersion = s.revision + 1 ∧
        pv'.spec.claimRef = none := by
    by_cases hname : name = pv.name
    · subst hname
      have hmerged : (Cluster.mergeVolume pv (clearClaimRef cfg pv ref)).name = pv.name := rfl
      simp only [Cluster.putVolume, hmerged, Function.update_self] at h
      split at h
      · cases h
      · cases h
        exact Or.inr ⟨rfl, rfl, rfl⟩
    · left
      simpa [Cluster.putVolume, Cluster.mergeVolume, hname] using h
  constructor
  · refine ⟨hi.claims, fun {name pv'} h => ?_, fun {name pv' ref'} h href' => ?_⟩
    · rcases hvolumes h with hsame | ⟨hname, hversion, -⟩
      · exact ⟨(hi.volumes hsame).1, (hi.volumes hsame).2.trans (Nat.le_succ _)⟩
      · exact ⟨hname, hversion.le⟩
    · rcases hvolumes h with hsame | ⟨-, -, hnone⟩
      · exact hi.references hsame href'
      · rw [hnone] at href'
        cases href'
  · rintro name pv' ref' hpv' href' ⟨key, c, hc, huid⟩
    have hname : name ≠ pv.name := by
      rintro rfl
      rw [hpv] at hpv'
      cases hpv'
      rw [href] at href'
      cases href'
      exact hgone.claims hc huid
    refine ⟨pv', ?_, href'⟩
    simpa [Cluster.putVolume, Cluster.mergeVolume, hname] using hpv'

/-- A request whose answer changes nothing changes nothing when it fails either. -/
theorem serve_unchanged {fault : Fault} {r : Req} (hanswer : (s.answer fault.graceful r).2 = s) :
    (s.serve fault r).2 = s := by
  rcases serve_snd s fault r with hsame | heffect
  · exact hsame
  · rw [heffect, hanswer]

/-- A claim that is not found does not exist. -/
theorem serve_getClaim (s : Cluster) (fault : Fault) (key : ObjectKey) :
    (s.serve fault (.getClaim key)).2 = s ∧
      ((s.serve fault (.getClaim key)).1 = .error .notFound → s.claims key = none) := by
  have hanswer : (s.answer fault.graceful (.getClaim key)).2 = s := by
    rw [Cluster.answer]
    split <;> rfl
  refine ⟨?_, fun hnotFound => ?_⟩
  · exact serve_unchanged hanswer
  · rcases serve_fst s fault (.getClaim key) with hserved | ⟨failure, hfailed⟩
    · rw [hserved, Cluster.answer] at hnotFound
      split at hnotFound
      · assumption
      · cases hnotFound
    · rw [hnotFound] at hfailed
      exact absurd (Except.error.inj (Option.some.inj hfailed)) failure.error_ne_notFound

/-- A volume that is found exists. -/
theorem serve_getVolume (s : Cluster) (fault : Fault) (name : String) :
    (s.serve fault (.getVolume name)).2 = s ∧
      ∀ pv, (s.serve fault (.getVolume name)).1 = .ok pv → s.volumes name = some pv := by
  have hanswer : (s.answer fault.graceful (.getVolume name)).2 = s := by
    rw [Cluster.answer]
    split <;> rfl
  refine ⟨?_, fun pv hfound => ?_⟩
  · exact serve_unchanged hanswer
  · rcases serve_fst s fault (.getVolume name) with hserved | ⟨failure, hfailed⟩
    · rw [hserved, Cluster.answer] at hfound
      split at hfound
      · cases hfound
      · cases hfound
        assumption
    · rw [hfound] at hfailed
      cases hfailed

/-- The rule for a request that does not change the cluster. -/
theorem wp_read {α : Type} {post : Record Req Resp → α → Cluster → Prop} {seen : Record Req Resp}
    {r : Req} {next : Resp r → Controller α} (hsame : ∀ t fault, (Cluster.serve t fault r).2 = t)
    (hnext : ∀ t fault seen, Others s t → Consistent t →
      Wp contract post (next (t.serve fault r).1) seen t) :
    Wp contract post (.call r next) seen s := by
  intro t ht hi fault _
  change Consistent (t.serve fault r).2 ∧ KeepsReferences t (t.serve fault r).2 ∧ Wp contract post
    (next (t.serve fault r).1) (seen ++ [⟨r, (t.serve fault r).1⟩]) (t.serve fault r).2
  have hwp := hnext t fault (seen ++ [⟨r, (t.serve fault r).1⟩]) ht hi
  rw [hsame t fault]
  exact ⟨hi, .refl t, hwp⟩

/-- The rule for the update that clears a reference. -/
theorem wp_clear {α : Type} {cfg : Config} {post : Record Req Resp → α → Cluster → Prop}
    {seen : Record Req Resp} {next : Except ApiError Unit → Controller α} (hread : Read pv s)
    (href : pv.spec.claimRef = some ref) (hgone : Gone ref.uid s)
    (hnext : ∀ response seen u, Wp contract post (next response) seen u) :
    Wp contract post (.call (.updateVolume (clearClaimRef cfg pv ref)) next) seen s := by
  intro t ht hi fault _
  have hkept : Consistent (t.serve fault (.updateVolume (clearClaimRef cfg pv ref))).2 ∧
      KeepsReferences t (t.serve fault (.updateVolume (clearClaimRef cfg pv ref))).2 := by
    rcases serve_effect t fault (.updateVolume (clearClaimRef cfg pv ref)) with hsame | heffect
    · rw [hsame]
      exact ⟨hi, .refl t⟩
    · generalize (t.serve fault (.updateVolume (clearClaimRef cfg pv ref))).2 = u at heffect ⊢
      cases heffect with
      | @updateVolume _ stored hfound hcurrent =>
        -- the update is of the version that has been read
        have heq : stored = pv := (hread.stable ht).current hfound hcurrent.symm
        subst heq
        exact consistent_clear hi hfound href (hgone.stable ht)
  exact ⟨hkept.1, hkept.2, hnext _ _ _⟩

/-- No round of `canDeprovision` clears the reference to a claim that exists. -/
theorem wp_canDeprovision (cfg : Config) (rounds : ℕ) {err : Option GoError}
    {seen : Record Req Resp} (hread : Read pv s) :
    Wp contract (fun _ _ _ => True) (canDeprovision cfg rounds err pv) seen s := by
  induction rounds generalizing s pv err seen with
  | zero => exact fun _ _ _ => trivial
  | succ rounds ih =>
    unfold canDeprovision
    split
    · exact fun _ _ _ => trivial
    split
    · exact fun _ _ _ => trivial
    rename_i ref href
    refine wp_read (fun t fault => (serve_getClaim t fault ref.key).1) ?_
    intro t fault seen ht hi
    cases hclaim : (t.serve fault (.getClaim ref.key)).1 with
    | ok c => exact fun _ _ _ => trivial
    | error e =>
      change Wp contract _ (if e = .notFound then _ else _) seen t
      split
      swap
      · exact fun _ _ _ => trivial
      rename_i hnotFound
      subst hnotFound
      have hread' := hread.stable ht
      have hgone : Gone ref.uid t :=
        .of_free hi (hread'.reference href) ((serve_getClaim t fault ref.key).2 hclaim)
      by_cases hnil : pv.annotations.isNil = true
      · rw [resolveProvisioner_of_isNil hnil]
        exact fun _ _ _ => trivial
      rw [resolveProvisioner_of_annotated hnil]
      refine wp_read (fun u fault => serve_unchanged rfl) ?_
      intro u fault seen hu _
      cases (u.serve fault (.getProvisioner (pv.annotations.get annStorageProvisioner))).1 with
      | none => exact fun _ _ _ => trivial
      | some p =>
        refine wp_clear (hread'.stable hu) href (hgone.stable hu) ?_
        intro response seen v
        cases response with
        | ok _ => exact fun _ _ _ => trivial
        | error e =>
          change Wp contract _ (if e = .conflict then _ else _) seen v
          split
          swap
          · exact fun _ _ _ => trivial
          -- after a conflict the next round starts from the volume as it is read again
          refine wp_read (fun w fault => (serve_getVolume w fault pv.name).1) ?_
          intro w fault seen _ hi
          cases hvolume : (w.serve fault (.getVolume pv.name)).1 with
          | error e => exact fun _ _ _ => trivial
          | ok reloaded =>
            exact ih (Read.of_found hi ((serve_getVolume w fault pv.name).2 reloaded hvolume))

/-- Alone, `canDeprovision` clears the reference exactly if no claim has its name; under
interference and failures none of its requests clears a reference while its claim exists. -/
theorem canDeprovision_waits_for_claim (cfg : Config) :
    (∀ (s : Cluster) pv ref p, s.volumes pv.name = some pv → pv.deleting = true →
      pv.phase ≠ .bound → pv.spec.claimRef = some ref →
      pv.annotations.isNil = false →
      s.provisioners (pv.annotations.get annStorageProvisioner) = some p →
      (∀ key c, s.claims key = some c → c.uid ≠ ref.uid) →
        (Cleared (afterwards cfg s pv) pv.name ↔ s.claims ref.key = none)) ∧
    ∀ (s : Cluster) pv, Consistent s → s.volumes pv.name = some pv →
      Wp contract (fun _ _ _ => True) (canDeprovision cfg 2 none pv) [] s :=
  ⟨fun _ _ _ _ hpv _ hphase href hannotated hp _ =>
      cleared_afterwards_iff hpv hphase href hannotated hp,
    fun _ _ hi hpv => wp_canDeprovision cfg 2 (Read.of_found hi hpv)⟩

/-- The volume of a claim, being deleted. -/
def releasedVolume : PersistentVolume :=
  let q := DeprovisionerPods.cacheProvisioner "setup" ⟨none, []⟩
  { persistentVolumeForClaim DeprovisionerPods.cacheClaim q "spec" .empty with
    deleting := true
    phase := .released }

/-- The reference of the volume. -/
def releasedReference : ObjectReference :=
  ⟨DeprovisionerPods.cacheClaim.key, DeprovisionerPods.cacheClaim.uid, 0⟩

/-- A cluster with the volume and at most one claim. -/
def releasedCluster (claim : Option PersistentVolumeClaim) : Cluster where
  claims key := if key = DeprovisionerPods.cacheClaim.key then claim else none
  volumes name := if name = releasedVolume.name then some releasedVolume else none
  pods _ := none
  storageClasses _ := none
  provisioners _ := some (DeprovisionerPods.cacheProvisioner "setup" ⟨none, []⟩)
  revision := 0
  events := []
  issued _ := some DeprovisionerPods.cacheClaim.key
  provisioned _ := none
  succeeded _ := false

theorem volumes_releasedCluster (claim : Option PersistentVolumeClaim) :
    (releasedCluster claim).volumes releasedVolume.name = some releasedVolume := by
  simp [releasedCluster]

theorem claims_releasedCluster (claim : Option PersistentVolumeClaim) :
    (releasedCluster claim).claims releasedReference.key = claim := by
  simp [releasedCluster, releasedReference]

theorem canDeprovision_waits_for_claim_gone :
    Cleared (afterwards (DeprovisionerPods.cacheConfig ⟨none, []⟩) (releasedCluster none) releasedVolume)
        releasedVolume.name ∧
      Wp contract (fun _ _ _ => True)
        (canDeprovision (DeprovisionerPods.cacheConfig ⟨none, []⟩) 2 none releasedVolume) []
          (releasedCluster none) := by
  obtain ⟨halone, hothers⟩ :=
    canDeprovision_waits_for_claim (DeprovisionerPods.cacheConfig ⟨none, []⟩)
  have hnone (key : ObjectKey) : (releasedCluster none).claims key = none := by
    unfold releasedCluster
    exact ite_self none
  have hconsistent : Consistent (releasedCluster none) := by
    refine ⟨fun {key c} hc => ?_, fun {name pv} hpv => ?_, fun {name pv ref} hpv href => ?_⟩
    · rw [hnone key] at hc
      cases hc
    · by_cases hname : name = releasedVolume.name
      · rw [hname, volumes_releasedCluster] at hpv
        cases hpv
        exact ⟨hname.symm, le_rfl⟩
      · simp [releasedCluster, hname] at hpv
    · by_cases hname : name = releasedVolume.name
      · rw [hname, volumes_releasedCluster] at hpv
        cases hpv
        cases href
        rfl
      · simp [releasedCluster, hname] at hpv
  refine ⟨?_, hothers _ _ hconsistent (volumes_releasedCluster none)⟩
  refine (halone _ _ releasedReference _ (volumes_releasedCluster none) rfl (by decide) rfl rfl rfl
    ?_).mpr
    (hnone _)
  intro key c hc
  rw [hnone key] at hc
  cases hc

/-- The UID of a claim that has been created again under the same name. -/
def recreatedUID : UID := ⟨"99999999-2222-3333-4444-555555555555", by decide⟩

/-- The claim that has been created again. -/
def recreatedClaim : PersistentVolumeClaim := { DeprovisionerPods.cacheClaim with uid := recreatedUID }

/-- A claim that has been created again under the same name blocks the volume of the old one. -/
theorem blocked_by_recreated_claim :
    (∀ key c, (releasedCluster (some recreatedClaim)).claims key = some c →
        c.uid ≠ releasedReference.uid) ∧
      releasedVolume.deleting = true ∧ releasedVolume.phase ≠ .bound ∧
      releasedVolume.spec.claimRef = some releasedReference ∧
      ¬ Cleared (afterwards (DeprovisionerPods.cacheConfig ⟨none, []⟩)
        (releasedCluster (some recreatedClaim)) releasedVolume) releasedVolume.name := by
  refine ⟨fun key c hc => ?_, rfl, by decide, rfl, fun hcleared => ?_⟩
  · by_cases hkey : key = DeprovisionerPods.cacheClaim.key
    · simp only [releasedCluster, if_pos hkey, Option.some.injEq] at hc
      rw [← hc]
      decide
    · simp [releasedCluster, hkey] at hc
  · have hphase : releasedVolume.phase ≠ .bound := by decide
    have href : releasedVolume.spec.claimRef = some releasedReference := rfl
    rw [afterwards_blocked hphase href (claims_releasedCluster (some recreatedClaim))] at hcleared
    cases hcleared releasedVolume (volumes_releasedCluster _)

end Interference

end K8StorageX.ClaimReferences
