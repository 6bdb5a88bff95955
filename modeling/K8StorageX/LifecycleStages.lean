import K8StorageX.LifecycleInvariant
import Mathlib.Logic.Relation

/-!
# The life of a volume as an automaton

For each UID the objects of the cluster are in one of eight stages, from a UID that has
not been used to a volume that has been removed. The stages form an automaton whose only
cycle is the creation and deletion of the provisioner Pod before the volume exists. Every
permitted step, whoever takes it, follows the automaton for every UID at once.
-/

namespace K8StorageX.LifecycleStages

open ApiProgram KubeObjects ProvisionerPods KubeApi ManagerSystem Lifecycle VolumeController
open Relation

/-- What has become of a UID. -/
inductive Stage where
  /-- No claim has had the UID. -/
  | fresh
  /-- The claim exists; there is neither a Pod nor a volume for it. -/
  | claimed
  /-- The claim exists and its provisioner Pod is there. -/
  | provisioning
  /-- The claim and its volume exist. -/
  | provisioned
  /-- The claim is gone, the volume is to be deprovisioned. -/
  | released
  /-- The claim is gone and the deprovisioner Pod of the volume is there. -/
  | deprovisioning
  /-- The claim is gone and the volume has been deprovisioned. -/
  | deprovisioned
  /-- The claim is gone, and there is no volume of the manager. -/
  | removed
  deriving DecidableEq, Repr

/-- The edges of the automaton. Only in a cluster that is not steady a volume may be created
for a Pod that has gone in between. -/
inductive Stage.Next (steady : Prop) : Stage → Stage → Prop where
  | claim : Next steady .fresh .claimed
  | createPod : Next steady .claimed .provisioning
  | deletePod : Next steady .provisioning .claimed
  | provision : Next steady .provisioning .provisioned
  | provisionLate (unsteady : ¬ steady) : Next steady .claimed .provisioned
  | abandon : Next steady .claimed .removed
  | release : Next steady .provisioned .released
  | createDeprovisioner : Next steady .released .deprovisioning
  | disableDeprovisioner : Next steady .deprovisioning .deprovisioned
  | remove : Next steady .deprovisioned .removed

/-- How far a stage is from the beginning. -/
def Stage.rank : Stage → ℕ
  | .fresh => 0
  | .claimed => 1
  | .provisioning => 1
  | .provisioned => 2
  | .released => 3
  | .deprovisioning => 4
  | .deprovisioned => 5
  | .removed => 6

/-- No edge of the automaton leads back to a lower rank. -/
theorem Stage.Next.rank_le {steady : Prop} {a b : Stage} (h : Stage.Next steady a b) :
    a.rank ≤ b.rank := by
  cases h <;> simp [Stage.rank]

/-- The life of a volume does not go back. -/
theorem Stage.rank_le_of_reflTransGen {steady : Prop} {a b : Stage}
    (h : ReflTransGen (Stage.Next steady) a b) : a.rank ≤ b.rank := by
  induction h with
  | refl => exact Nat.le_refl _
  | tail _ hnext ih => exact ih.trans hnext.rank_le

/-- A claim with the UID exists. -/
def Live (s : Cluster) (u : UID) : Prop := ∃ key c, s.claims key = some c ∧ c.uid = u

/-- The volume of the UID, if the manager has created it. -/
def managedVolume (s : Cluster) (u : UID) : Option PersistentVolume :=
  (s.volumes (pvNameForPVC u)).filter fun pv => hasString pv.finalizers finalizer

/-- Whether the claim a UID has been given to still exists. -/
def isLive (s : Cluster) (u : UID) : Bool :=
  (s.issued u).any fun key => (s.claims key).any fun c => c.uid == u

/-- The stage of a UID. -/
def stageOf (cfg : Config) (s : Cluster) (u : UID) : Stage :=
  if (s.issued u).isNone then .fresh
  else if isLive s u then
    if (managedVolume s u).isSome then .provisioned
    else if (s.pods (provisionerPodName cfg u)).isSome then .provisioning
    else .claimed
  else
    match managedVolume s u with
    | none => .removed
    | some pv =>
      if deprovisionerDisabled pv then .deprovisioned
      else if (s.pods (deprovisionerPodName cfg (pvNameForPVC u))).isSome then .deprovisioning
      else .released

/-- The stages with what holds in each of them. -/
inductive AtStage (cfg : Config) (s : Cluster) (u : UID) : Stage → Prop where
  | fresh (unused : s.issued u = none) : AtStage cfg s u .fresh
  | claimed (live : Live s u) (absent : managedVolume s u = none)
      (idle : s.pods (provisionerPodName cfg u) = none) : AtStage cfg s u .claimed
  | provisioning {pod : Pod} (live : Live s u) (absent : managedVolume s u = none)
      (pod : s.pods (provisionerPodName cfg u) = some pod) : AtStage cfg s u .provisioning
  | provisioned {pv : PersistentVolume} (live : Live s u) (volume : managedVolume s u = some pv) :
      AtStage cfg s u .provisioned
  | released {pv : PersistentVolume} (gone : Gone s u) (volume : managedVolume s u = some pv)
      (due : deprovisionerDisabled pv = false)
      (idle : s.pods (deprovisionerPodName cfg (pvNameForPVC u)) = none) :
      AtStage cfg s u .released
  | deprovisioning {pv : PersistentVolume} {pod : Pod} (gone : Gone s u)
      (volume : managedVolume s u = some pv) (due : deprovisionerDisabled pv = false)
      (pod : s.pods (deprovisionerPodName cfg (pvNameForPVC u)) = some pod) :
      AtStage cfg s u .deprovisioning
  | deprovisioned {pv : PersistentVolume} (gone : Gone s u) (volume : managedVolume s u = some pv)
      (done : deprovisionerDisabled pv = true) : AtStage cfg s u .deprovisioned
  | removed (gone : Gone s u) (absent : managedVolume s u = none) : AtStage cfg s u .removed

variable {cfg : Config} {steady : Prop} {w : Option Worker} {seen : Record Req Resp}
variable {s t : Cluster} {u : UID}

/-- The managed volume is the stored one with the finalizer. -/
theorem managedVolume_eq_some_iff {pv : PersistentVolume} :
    managedVolume s u = some pv ↔
      s.volumes (pvNameForPVC u) = some pv ∧ finalizer ∈ pv.finalizers := by
  rw [managedVolume, Option.filter_eq_some_iff, hasString_iff]

/-- A claim that is gone does not exist. -/
theorem not_live_of_gone (h : Gone s u) : ¬ Live s u := by
  rintro ⟨key, c, hc, huid⟩
  exact h.2 key c hc huid

/-- A UID that has been given to a claim is gone when the claim does not exist. -/
theorem gone_of_not_live {key : ObjectKey} (hissued : s.issued u = some key) (h : ¬ Live s u) :
    Gone s u :=
  ⟨⟨key, hissued⟩, fun key' c hc huid => h ⟨key', c, hc, huid⟩⟩

section Invariant

variable (hi : Inv cfg steady s)

include hi

/-- The UID of a claim has been given to it. -/
theorem issued_of_live (h : Live s u) : ∃ key, s.issued u = some key := by
  obtain ⟨key, c, hc, huid⟩ := h
  have hissued := (hi.claim hc).2
  rw [huid] at hissued
  exact ⟨key, hissued⟩

/-- The check decides whether the claim exists. -/
theorem isLive_iff : isLive s u = true ↔ Live s u := by
  simp only [isLive, Option.any_eq_true, beq_iff_eq]
  constructor
  · rintro ⟨key, -, c, hc, huid⟩
    exact ⟨key, c, hc, huid⟩
  · rintro ⟨key, c, hc, huid⟩
    have hissued := (hi.claim hc).2
    rw [huid] at hissued
    exact ⟨key, hissued, c, hc, huid⟩

/-- A managed volume belongs to a UID that has been issued. -/
theorem issued_of_managed {pv : PersistentVolume} (h : managedVolume s u = some pv) :
    ∃ key, s.issued u = some key := by
  obtain ⟨hpv, hf⟩ := managedVolume_eq_some_iff.mp h
  obtain ⟨ref, -, hname, hissued, -⟩ := hi.managed hpv hf
  rw [← pvNameForPVC_injective hname] at hissued
  exact ⟨ref.key, hissued⟩

/-- The volume of a claim that exists has not been deprovisioned. -/
theorem due_of_live {pv : PersistentVolume} (hlive : Live s u)
    (h : s.volumes (pvNameForPVC u) = some pv) : deprovisionerDisabled pv = false := by
  cases hd : deprovisionerDisabled pv with
  | false => rfl
  | true =>
    have hgone := hi.succeeded_gone (hi.disabled h hd)
    exact absurd hlive (not_live_of_gone hgone)

/-- There is no deprovisioner Pod for a claim that exists. -/
theorem no_deprovisioner_of_live (hlive : Live s u) :
    s.pods (deprovisionerPodName cfg (pvNameForPVC u)) = none := by
  cases hpod : s.pods (deprovisionerPodName cfg (pvNameForPVC u)) with
  | none => rfl
  | some pod => exact absurd hlive (not_live_of_gone (hi.deprovisioner_gone hpod))

/-- The stage is the one whose conditions hold. -/
theorem stageOf_eq {stage : Stage} (h : AtStage cfg s u stage) : stageOf cfg s u = stage := by
  have hlive : ∀ h : Live s u, isLive s u = true := (isLive_iff hi).mpr
  have hgone : ∀ h : Gone s u, isLive s u = false := by
    intro h
    rw [Bool.eq_false_iff, ne_eq, isLive_iff hi]
    exact not_live_of_gone h
  cases h with
  | fresh unused => simp [stageOf, unused]
  | claimed live absent idle =>
    obtain ⟨key, hissued⟩ := issued_of_live hi live
    simp [stageOf, hissued, hlive live, absent, idle]
  | provisioning live absent pod =>
    obtain ⟨key, hissued⟩ := issued_of_live hi live
    simp [stageOf, hissued, hlive live, absent, pod]
  | provisioned live volume =>
    obtain ⟨key, hissued⟩ := issued_of_live hi live
    simp [stageOf, hissued, hlive live, volume]
  | released gone volume due idle =>
    obtain ⟨key, hissued⟩ := gone.1
    simp [stageOf, hissued, hgone gone, volume, due, idle]
  | deprovisioning gone volume due pod =>
    obtain ⟨key, hissued⟩ := gone.1
    simp [stageOf, hissued, hgone gone, volume, due, pod]
  | deprovisioned gone volume done =>
    obtain ⟨key, hissued⟩ := gone.1
    simp [stageOf, hissued, hgone gone, volume, done]
  | removed gone absent =>
    obtain ⟨key, hissued⟩ := gone.1
    simp [stageOf, hissued, hgone gone, absent]

/-- Every UID is at the stage that is computed for it. -/
theorem atStage_stageOf (u : UID) :
    AtStage cfg s u (stageOf cfg s u) := by
  have hstage : ∃ stage, AtStage cfg s u stage := by
    cases hissued : s.issued u with
    | none => exact ⟨_, .fresh hissued⟩
    | some key =>
      by_cases hlive : Live s u
      · cases hvolume : managedVolume s u with
        | some pv => exact ⟨_, .provisioned hlive hvolume⟩
        | none =>
          cases hpod : s.pods (provisionerPodName cfg u) with
          | none => exact ⟨_, .claimed hlive hvolume hpod⟩
          | some pod => exact ⟨_, .provisioning hlive hvolume hpod⟩
      · have hgone := gone_of_not_live hissued hlive
        cases hvolume : managedVolume s u with
        | none => exact ⟨_, .removed hgone hvolume⟩
        | some pv =>
          cases hdone : deprovisionerDisabled pv with
          | true => exact ⟨_, .deprovisioned hgone hvolume hdone⟩
          | false =>
            cases hpod : s.pods (deprovisionerPodName cfg (pvNameForPVC u)) with
            | none => exact ⟨_, .released hgone hvolume hdone hpod⟩
            | some pod => exact ⟨_, .deprovisioning hgone hvolume hdone hpod⟩
  obtain ⟨stage, h⟩ := hstage
  rw [stageOf_eq hi h]
  exact h

/-- A volume of the manager is there exactly at four stages. -/
theorem managed_iff_rank (u : UID) :
    managedVolume s u ≠ none ↔ 2 ≤ (stageOf cfg s u).rank ∧ (stageOf cfg s u).rank ≤ 5 := by
  have hat := atStage_stageOf hi u
  generalize stageOf cfg s u = stage at hat
  cases hat with
  | fresh unused =>
    cases hpv : managedVolume s u with
    | none => simp [Stage.rank]
    | some pv =>
      obtain ⟨key, hkey⟩ := issued_of_managed hi hpv
      rw [unused] at hkey
      cases hkey
  | claimed live absent idle => simp [absent, Stage.rank]
  | provisioning live absent pod => simp [absent, Stage.rank]
  | provisioned live volume => simp [volume, Stage.rank]
  | released gone volume due idle => simp [volume, Stage.rank]
  | deprovisioning gone volume due pod => simp [volume, Stage.rank]
  | deprovisioned gone volume done => simp [volume, Stage.rank]
  | removed gone absent => simp [absent, Stage.rank]

end Invariant

/-- What a single step cannot do at once. -/
structure Separate (s t : Cluster) : Prop where
  /-- A UID is issued with the creation of its claim. -/
  issued : ∀ u, s.issued u = none → t.issued u ≠ none → Live t u
  /-- Claims and volumes do not change at the same time. -/
  apart : t.claims = s.claims ∨ t.volumes = s.volumes

section Separation

/-- A step that gives out no UID and changes not both claims and volumes. -/
theorem Separate.of_issued (hissued : t.issued = s.issued)
    (happart : t.claims = s.claims ∨ t.volumes = s.volumes) : Separate s t where
  issued u hunused hused := by
    rw [hissued] at hused
    exact absurd hunused hused
  apart := happart

/-- A step that does nothing. -/
theorem Separate.refl (s : Cluster) : Separate s s := .of_issued rfl (Or.inl rfl)

/-- Storing a claim changes no volume. -/
theorem separate_putClaim (s : Cluster) (c : PersistentVolumeClaim) : Separate s (s.putClaim c) :=
  .of_issued rfl (Or.inr rfl)

/-- Storing a volume changes no claim. -/
theorem separate_putVolume (s : Cluster) (pv : PersistentVolume) : Separate s (s.putVolume pv) :=
  .of_issued rfl (Or.inl rfl)

/-- Deleting a claim changes no volume. -/
theorem separate_markClaim (s : Cluster) (c : PersistentVolumeClaim) : Separate s (s.markClaim c) := by
  rw [Cluster.markClaim]
  split
  · exact .refl s
  · exact separate_putClaim s _

/-- Deleting a volume changes no claim. -/
theorem separate_markVolume (s : Cluster) (pv : PersistentVolume) : Separate s (s.markVolume pv) := by
  rw [Cluster.markVolume]
  split
  · exact .refl s
  · exact separate_putVolume s _

/-- Deleting a Pod changes neither. -/
theorem separate_markPod (s : Cluster) (graceful : Bool) (pod : Pod) :
    Separate s (s.markPod graceful pod) := by
  rw [Cluster.markPod]
  split <;> exact .of_issued rfl (Or.inl rfl)

/-- No request changes both at once. -/
theorem separate_serve (s : Cluster) (fault : Fault) (r : Req) : Separate s (s.serve fault r).2 := by
  rcases serve_effect s fault r with hsame | heffect
  · rw [hsame]
    exact .refl s
  · generalize (s.serve fault r).2 = t at heffect
    cases heffect with
    | updateClaim => exact separate_putClaim s _
    | updateClaimStatus => exact separate_putClaim s _
    | deleteClaim => exact separate_markClaim s _
    | createVolume => exact .of_issued rfl (Or.inl rfl)
    | updateVolume => exact separate_putVolume s _
    | updateVolumeStatus => exact separate_putVolume s _
    | deleteVolume => exact separate_markVolume s _
    | createPod => exact .of_issued rfl (Or.inl rfl)
    | deletePod => exact separate_markPod s _ _

/-- A UID is given out with its claim, and no volume changes then. -/
theorem separate_createClaim (s : Cluster) (c : PersistentVolumeClaim) :
    Separate s { s.putClaim { c with deleting := false } with
      issued := Function.update s.issued c.uid (some c.key) } where
  issued u hunused hused := by
    by_cases huid : u = c.uid
    · refine ⟨c.key, { c with deleting := false, resourceVersion := s.revision + 1 }, ?_, huid.symm⟩
      simp only [Cluster.putClaim, Function.update_self, Bool.false_and, Bool.false_eq_true, if_false]
    · have hsame : Function.update s.issued c.uid (some c.key) u = s.issued u :=
        Function.update_of_ne huid _ _
      exact absurd (hsame.trans hunused) hused
  apart := Or.inr rfl

/-- No step of others changes both at once. -/
theorem separate_act {e : Env} (h : act s e = some t) : Separate s t := by
  cases acts_of_act h with
  | @createClaim c _ _ => exact separate_createClaim s c
  | editClaim => exact separate_putClaim s _
  | deleteClaim => exact separate_markClaim s _
  | createVolume => exact separate_putVolume s _
  | editVolume => exact separate_putVolume s _
  | deleteVolume => exact separate_markVolume s _
  | createPod => exact .of_issued rfl (Or.inl rfl)
  | podPhase => split <;> exact .of_issued rfl (Or.inl rfl)
  | deletePod => exact separate_markPod s _ _
  | removePod => exact .of_issued rfl (Or.inl rfl)
  | setStorageClass => exact .of_issued rfl (Or.inl rfl)
  | setProvisioner => exact .of_issued rfl (Or.inl rfl)
  | deliver => exact .of_issued rfl (Or.inl rfl)
  | resync => exact .refl s

end Separation

section Steps

variable (hi : Inv cfg steady s) (h : Step cfg steady w seen s t)

include h

/-- A managed volume was there before, or is provisioned for a claim that exists. -/
theorem managed_before {pv' : PersistentVolume} (hpv : managedVolume t u = some pv') :
    (∃ pv, managedVolume s u = some pv ∧
      (deprovisionerDisabled pv = true → deprovisionerDisabled pv' = true)) ∨
    (Live s u ∧ (steady → s.pods (provisionerPodName cfg u) ≠ none)) := by
  obtain ⟨hstored, hf⟩ := managedVolume_eq_some_iff.mp hpv
  rcases h.volume_managed hstored hf with ⟨pv, hbefore, hf₀, hdisabled⟩ | ⟨key, c, ref, hnew⟩
  · exact Or.inl ⟨pv, managedVolume_eq_some_iff.mpr ⟨hbefore, hf₀⟩, hdisabled⟩
  · have huid := pvNameForPVC_injective hnew.name_eq
    refine Or.inr ⟨⟨key, c, hnew.claim, huid.symm⟩, fun hsteady => ?_⟩
    obtain ⟨pod, hpod, -⟩ := hnew.succeeded hsteady
    rw [huid, hpod]
    exact Option.some_ne_none pod

/-- The manager creates no volume for a claim that does not exist. -/
theorem absent_after (habsent : managedVolume s u = none) (hnot : ¬ Live s u) :
    managedVolume t u = none := by
  cases hpv : managedVolume t u with
  | none => rfl
  | some pv' =>
    rcases managed_before h hpv with ⟨pv, hpv₀, -⟩ | ⟨hlive, -⟩
    · rw [habsent] at hpv₀
      cases hpv₀
    · exact absurd hlive hnot

include hi

/-- A claim with a provisioner Pod stays. -/
theorem live_of_pod {pod : Pod} (hpod : s.pods (provisionerPodName cfg u) = some pod) :
    Live t u := by
  obtain ⟨key, c, hc, huid, hf⟩ := hi.provisioner_held hpod
  have hchange := h.claims key
  rw [hc] at hchange
  by_cases hremoved : ∀ c', t.claims key = some c' → finalizer ∉ c'.finalizers
  · obtain ⟨-, -, hnone, -⟩ := hchange.released hf hremoved
    rw [huid, hpod] at hnone
    cases hnone
  · push Not at hremoved
    obtain ⟨c', hc', -⟩ := hremoved
    rw [hc'] at hchange
    rcases hchange.of_some with hsame | ⟨hnone, -⟩ | ⟨c₀, hbefore, hupdate⟩
    · rw [Option.some.inj hsame] at huid
      exact ⟨key, c', hc', huid⟩
    · cases hnone
    · rw [← Option.some.inj hbefore] at hupdate
      exact ⟨key, c', hc', hupdate.uid.trans huid⟩

/-- A managed volume that has not been deprovisioned stays; what its deprovisioner has done
is recorded while the Pod is there. -/
theorem managed_after {pv : PersistentVolume} (hpv : managedVolume s u = some pv)
    (hdue : deprovisionerDisabled pv = false) :
    ∃ pv', managedVolume t u = some pv' ∧ (deprovisionerDisabled pv' = true →
      ∃ pod, s.pods (deprovisionerPodName cfg (pvNameForPVC u)) = some pod ∧
        pod.phase = .succeeded) := by
  obtain ⟨hstored, hf⟩ := managedVolume_eq_some_iff.mp hpv
  have hchange := h.volumes (pvNameForPVC u)
  rw [hstored] at hchange
  generalize hafter : t.volumes (pvNameForPVC u) = after at hchange
  cases hchange with
  | same =>
    refine ⟨pv, managedVolume_eq_some_iff.mpr ⟨hafter, hf⟩, fun hdone => ?_⟩
    rw [hdue] at hdone
    cases hdone
  | @updated _ pv' _ hupdate stored =>
    have hf' : finalizer ∈ pv'.finalizers := by
      rcases hupdate.held hf with hkept | ⟨-, hdone, -⟩
      · exact hkept
      · rw [hdue] at hdone
        cases hdone
    rw [stored_of_finalizer stored hf'] at hafter
    refine ⟨pv', managedVolume_eq_some_iff.mpr ⟨hafter, hf'⟩, fun hdone => ?_⟩
    rcases hupdate.disabled with hsame | ⟨-, -, hsucceeded⟩
    · rw [hsame, hdue] at hdone
      cases hdone
    · rcases hi.once hstored hf hsucceeded with hdisabled | hpod
      · rw [hdue] at hdisabled
        cases hdisabled
      · exact hpod

/-- The volume of a claim that exists stays. -/
theorem managed_of_live {pv : PersistentVolume} (hlive : Live s u)
    (hpv : managedVolume s u = some pv) :
    ∃ pv', managedVolume t u = some pv' ∧ deprovisionerDisabled pv' = false := by
  have hdue := due_of_live hi hlive (managedVolume_eq_some_iff.mp hpv).1
  obtain ⟨pv', hpv', hrecorded⟩ := managed_after hi h hpv hdue
  refine ⟨pv', hpv', ?_⟩
  cases hdone : deprovisionerDisabled pv' with
  | false => rfl
  | true =>
    obtain ⟨pod, hpod, -⟩ := hrecorded hdone
    rw [no_deprovisioner_of_live hi hlive] at hpod
    cases hpod

/-- A deprovisioner Pod is created for a claim that is gone. -/
theorem no_deprovisioner_after (hlive : Live s u) :
    t.pods (deprovisionerPodName cfg (pvNameForPVC u)) = none := by
  cases hpod : t.pods (deprovisionerPodName cfg (pvNameForPVC u)) with
  | none => rfl
  | some pod =>
    have hbefore := no_deprovisioner_of_live hi hlive
    obtain ⟨pv, read, hnew⟩ := h.deprovisioner_new hbefore hpod
    exact absurd hlive (not_live_of_gone (hnew.gone hi))

/-- A deprovisioner Pod stays until its success has been remembered. -/
theorem deprovisioner_after {pv : PersistentVolume} {pod : Pod}
    (hpv : managedVolume s u = some pv) (hdue : deprovisionerDisabled pv = false)
    (hpod : s.pods (deprovisionerPodName cfg (pvNameForPVC u)) = some pod) :
    ∃ pod', t.pods (deprovisionerPodName cfg (pvNameForPVC u)) = some pod' ∧
      PodKept cfg steady w s (deprovisionerPodName cfg (pvNameForPVC u)) pod pod' := by
  obtain ⟨hstored, hf⟩ := managedVolume_eq_some_iff.mp hpv
  have hchange := h.pods (deprovisionerPodName cfg (pvNameForPVC u))
  rw [hpod] at hchange
  cases hafter : t.pods (deprovisionerPodName cfg (pvNameForPVC u)) with
  | some pod' =>
    rw [hafter] at hchange
    rcases hchange.of_some with ⟨pod₀, hsame, hkept⟩ | ⟨hnone, -⟩
    · rw [← Option.some.inj hsame] at hkept
      exact ⟨pod', rfl, hkept⟩
    · cases hnone
  | none =>
    rw [hafter] at hchange
    have hdone : deprovisionerDisabled pv = true := by
      cases hchange with
      | dropped allowed =>
        rcases allowed with hdeleting | hmay
        · exact hi.deprovisioner_deleting hstored hf hpod hdeleting
        · obtain ⟨pv₁, -, hpv₁, hd⟩ := hmay.of_deprovisioner
          rw [hstored] at hpv₁
          rw [Option.some.inj hpv₁]
          exact hd
    rw [hdue] at hdone
    cases hdone

/-- A claim that exists stays or is gone. -/
theorem live_or_gone (hlive : Live s u) : Live t u ∨ Gone t u := by
  obtain ⟨key, hissued⟩ := issued_of_live hi hlive
  by_cases hlive' : Live t u
  · exact Or.inl hlive'
  · exact Or.inr (gone_of_not_live (h.issued hissued) hlive')

/-- A UID that has not been given out can only be given to a claim. -/
theorem stage_of_fresh (hseparate : Separate s t) (hunused : s.issued u = none) :
    ReflGen (Stage.Next steady) .fresh (stageOf cfg t u) := by
  cases hissued : t.issued u with
  | none => rw [stageOf_eq (hi.step h) (.fresh hissued)]
  | some key =>
    have hlive : Live t u := by
      refine hseparate.issued u hunused ?_
      rw [hissued]
      exact Option.some_ne_none key
    have hnot : ¬ Live s u := by
      intro hbefore
      obtain ⟨key', hkey'⟩ := issued_of_live hi hbefore
      rw [hunused] at hkey'
      cases hkey'
    have habsent : managedVolume s u = none := by
      cases hpv : managedVolume s u with
      | none => rfl
      | some pv =>
        obtain ⟨key', hkey'⟩ := issued_of_managed hi hpv
        rw [hunused] at hkey'
        cases hkey'
    have hidle : t.pods (provisionerPodName cfg u) = none := by
      cases hpod : t.pods (provisionerPodName cfg u) with
      | none => rfl
      | some pod =>
        obtain ⟨key', hkey'⟩ := hi.provisioner_issued h hpod
        rw [hunused] at hkey'
        cases hkey'
    rw [stageOf_eq (hi.step h) (.claimed hlive (absent_after h habsent hnot) hidle)]
    exact .single .claim

/-- The next that happens to a claim is its provisioner Pod, a late volume or its end. -/
theorem stage_of_claimed (hseparate : Separate s t) (hlive : Live s u)
    (habsent : managedVolume s u = none) (hidle : s.pods (provisionerPodName cfg u) = none) :
    ReflGen (Stage.Next steady) .claimed (stageOf cfg t u) := by
  have hi' : Inv cfg steady t := hi.step h
  rcases live_or_gone hi h hlive with hlive' | hgone
  · cases hpv : managedVolume t u with
    | some pv' =>
      rw [stageOf_eq hi' (.provisioned hlive' hpv)]
      rcases managed_before h hpv with ⟨pv, hpv₀, -⟩ | ⟨-, hpod⟩
      · rw [habsent] at hpv₀
        cases hpv₀
      · exact .single (.provisionLate fun hsteady => hpod hsteady hidle)
    | none =>
      cases hpod : t.pods (provisionerPodName cfg u) with
      | none => rw [stageOf_eq hi' (.claimed hlive' hpv hpod)]
      | some pod =>
        rw [stageOf_eq hi' (.provisioning hlive' hpv hpod)]
        exact .single .createPod
  · -- the step that removes the claim does not create the volume as well
    have habsent' : managedVolume t u = none := by
      rcases hseparate.apart with hclaims | hvolumes
      · obtain ⟨key, c, hc, huid⟩ := hlive
        rw [← hclaims] at hc
        exact absurd huid (hgone.2 key c hc)
      · rw [managedVolume, hvolumes]
        exact habsent
    rw [stageOf_eq hi' (.removed hgone habsent')]
    exact .single .abandon

/-- With a provisioner Pod, the next is the volume or the end of the Pod. -/
theorem stage_of_provisioning {pod : Pod} (hpod : s.pods (provisionerPodName cfg u) = some pod) :
    ReflGen (Stage.Next steady) .provisioning (stageOf cfg t u) := by
  have hi' : Inv cfg steady t := hi.step h
  have hlive := live_of_pod hi h hpod
  cases hpv : managedVolume t u with
  | some pv' =>
    rw [stageOf_eq hi' (.provisioned hlive hpv)]
    exact .single .provision
  | none =>
    cases hpod' : t.pods (provisionerPodName cfg u) with
    | none =>
      rw [stageOf_eq hi' (.claimed hlive hpv hpod')]
      exact .single .deletePod
    | some pod' => rw [stageOf_eq hi' (.provisioning hlive hpv hpod')]

/-- With a volume, the next is the end of the claim. -/
theorem stage_of_provisioned {pv : PersistentVolume} (hlive : Live s u)
    (hpv : managedVolume s u = some pv) :
    ReflGen (Stage.Next steady) .provisioned (stageOf cfg t u) := by
  have hi' : Inv cfg steady t := hi.step h
  obtain ⟨pv', hpv', hdue⟩ := managed_of_live hi h hlive hpv
  rcases live_or_gone hi h hlive with hlive' | hgone
  · rw [stageOf_eq hi' (.provisioned hlive' hpv')]
  · rw [stageOf_eq hi' (.released hgone hpv' hdue (no_deprovisioner_after hi h hlive))]
    exact .single .release

/-- A released volume stays so until its deprovisioner Pod is created. -/
theorem stage_of_released {pv : PersistentVolume} (hgone : Gone s u)
    (hpv : managedVolume s u = some pv) (hdue : deprovisionerDisabled pv = false)
    (hidle : s.pods (deprovisionerPodName cfg (pvNameForPVC u)) = none) :
    ReflGen (Stage.Next steady) .released (stageOf cfg t u) := by
  have hi' : Inv cfg steady t := hi.step h
  obtain ⟨pv', hpv', hrecorded⟩ := managed_after hi h hpv hdue
  have hdue' : deprovisionerDisabled pv' = false := by
    cases hdone : deprovisionerDisabled pv' with
    | false => rfl
    | true =>
      obtain ⟨pod, hpod, -⟩ := hrecorded hdone
      rw [hidle] at hpod
      cases hpod
  cases hpod : t.pods (deprovisionerPodName cfg (pvNameForPVC u)) with
  | none => rw [stageOf_eq hi' (.released (h.gone hgone) hpv' hdue' hpod)]
  | some pod =>
    rw [stageOf_eq hi' (.deprovisioning (h.gone hgone) hpv' hdue' hpod)]
    exact .single .createDeprovisioner

/-- A volume with a deprovisioner Pod stays so until its deprovisioner is disabled. -/
theorem stage_of_deprovisioning {pv : PersistentVolume} {pod : Pod} (hgone : Gone s u)
    (hpv : managedVolume s u = some pv) (hdue : deprovisionerDisabled pv = false)
    (hpod : s.pods (deprovisionerPodName cfg (pvNameForPVC u)) = some pod) :
    ReflGen (Stage.Next steady) .deprovisioning (stageOf cfg t u) := by
  have hi' : Inv cfg steady t := hi.step h
  obtain ⟨pv', hpv', -⟩ := managed_after hi h hpv hdue
  obtain ⟨pod', hpod', -⟩ := deprovisioner_after hi h hpv hdue hpod
  cases hdone : deprovisionerDisabled pv' with
  | true =>
    rw [stageOf_eq hi' (.deprovisioned (h.gone hgone) hpv' hdone)]
    exact .single .disableDeprovisioner
  | false => rw [stageOf_eq hi' (.deprovisioning (h.gone hgone) hpv' hdone hpod')]

/-- A deprovisioned volume can only be removed. -/
theorem stage_of_deprovisioned {pv : PersistentVolume} (hgone : Gone s u)
    (hpv : managedVolume s u = some pv) (hdone : deprovisionerDisabled pv = true) :
    ReflGen (Stage.Next steady) .deprovisioned (stageOf cfg t u) := by
  have hi' : Inv cfg steady t := hi.step h
  cases hpv' : managedVolume t u with
  | none =>
    rw [stageOf_eq hi' (.removed (h.gone hgone) hpv')]
    exact .single .remove
  | some pv' =>
    have hdone' : deprovisionerDisabled pv' = true := by
      rcases managed_before h hpv' with ⟨pv₀, hpv₀, hkept⟩ | ⟨hlive, -⟩
      · rw [hpv] at hpv₀
        rw [← Option.some.inj hpv₀] at hkept
        exact hkept hdone
      · exact absurd hlive (not_live_of_gone hgone)
    rw [stageOf_eq hi' (.deprovisioned (h.gone hgone) hpv' hdone')]

/-- One step takes a UID along an edge of the automaton, or leaves it where it is. -/
theorem stage_step (hseparate : Separate s t) (u : UID) :
    ReflGen (Stage.Next steady) (stageOf cfg s u) (stageOf cfg t u) := by
  have hat := atStage_stageOf hi u
  generalize stageOf cfg s u = stage at hat
  cases hat with
  | fresh unused => exact stage_of_fresh hi h hseparate unused
  | claimed live absent idle => exact stage_of_claimed hi h hseparate live absent idle
  | provisioning live absent pod => exact stage_of_provisioning hi h pod
  | provisioned live volume => exact stage_of_provisioned hi h live volume
  | released gone volume due idle => exact stage_of_released hi h gone volume due idle
  | deprovisioning gone volume due pod => exact stage_of_deprovisioning hi h gone volume due pod
  | deprovisioned gone volume done => exact stage_of_deprovisioned hi h gone volume done
  | removed gone absent =>
    have habsent := absent_after h absent (not_live_of_gone gone)
    rw [stageOf_eq (hi.step h) (.removed (h.gone gone) habsent)]

end Steps

end K8StorageX.LifecycleStages
