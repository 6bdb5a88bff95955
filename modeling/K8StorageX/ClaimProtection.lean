import K8StorageX.ClaimWrites
import K8StorageX.PodCompletion

/-!
# Lifting the protection of claims

The Pod controller annotates the claims of a finished Pod, and the controller of an
annotated claim lifts its protection. Neither looks at other Pods that use the claim.
As long as a Pod is only created when no other Pod refers to its claims, none of its
claims is annotated or about to be, and no request for its name is outstanding, the
protection is only lifted from claims that are not used any more.
-/

namespace K8StorageX.ClaimProtection

open ApiProgram KubeObjects ProvisionerPods KubeApi WorkerPool ManagerSystem PodController
open Lifecycle ControllerRules ManagerGuarantees ClaimWrites PodCompletion

section Steps

variable {lifted : ObjectKey → Prop} {guarded : Prop} {s t : Cluster}

/-- What a step can do to the claims. -/
inductive ClaimStep (lifted : ObjectKey → Prop) (guarded : Prop) (s t : Cluster) : Prop
  /-- The claims stay as they are. -/
  | unchanged (claims : t.claims = s.claims) (revision : s.revision ≤ t.revision)
  /-- A claim is stored; it is annotated only where that is due. -/
  | stored {c : PersistentVolumeClaim} (annotated : Annotated c → lifted c.key)
      (protection : guarded → ∀ old, s.claims c.key = some old →
        finalizerPVCProtection ∈ old.finalizers →
        finalizerPVCProtection ∈ c.finalizers ∨ Annotated old)
      (claims : t.claims = (s.putClaim c).claims) (revision : t.revision = s.revision + 1)

/-- The claims after a step are those before it or have newer versions. -/
def Newer (s t : Cluster) : Prop :=
  s.revision ≤ t.revision ∧
    ∀ key c, t.claims key = some c → s.claims key = some c ∨ s.revision < c.resourceVersion

/-- Nothing has changed. -/
theorem Newer.refl (s : Cluster) : Newer s s := ⟨le_rfl, fun _ _ hc => Or.inl hc⟩

/-- What is newer than something newer is newer. -/
theorem Newer.trans {u : Cluster} (h : Newer s t) (h' : Newer t u) : Newer s u := by
  refine ⟨h.1.trans h'.1, ?_⟩
  intro key c hc
  have hrevision := h.1
  rcases h'.2 key c hc with hold | hnew
  · exact h.2 key c hold
  · exact Or.inr (by omega)

/-- What has been read of a claim stays true of its version. -/
theorem Newer.currentClaim {c : PersistentVolumeClaim} (h : Newer s t) (hc : CurrentClaim c s) :
    CurrentClaim c t := by
  refine ⟨hc.1.trans h.1, ?_⟩
  intro c' hc' hversion
  have hbound := hc.1
  rcases h.2 c.key c' hc' with hold | hnew
  · exact hc.2 c' hold hversion
  · omega

/-- A claim after a step is the one before, or the one that was stored. -/
theorem ClaimStep.of_some (h : ClaimStep lifted guarded s t) {key : ObjectKey}
    {c : PersistentVolumeClaim} (hc : t.claims key = some c) :
    s.claims key = some c ∨
      c.key = key ∧ c.resourceVersion = t.revision ∧ s.revision < t.revision ∧
        (Annotated c → lifted key) := by
  cases h with
  | unchanged hclaims =>
    rw [hclaims] at hc
    exact Or.inl hc
  | @stored written hannotated hprotection hclaims hrevision =>
    rw [hclaims] at hc
    rcases Cluster.of_claims_putClaim hc with ⟨rfl, rfl⟩ | hold
    · exact Or.inr ⟨rfl, hrevision.symm, by omega, hannotated⟩
    · exact Or.inl hold

/-- The revision of the cluster does not go back. -/
theorem ClaimStep.revision_le (h : ClaimStep lifted guarded s t) : s.revision ≤ t.revision := by
  cases h with
  | unchanged _ hrevision => exact hrevision
  | stored _ _ _ hrevision => omega

/-- A step leaves the claims as they are or gives them newer versions. -/
theorem ClaimStep.newer (h : ClaimStep lifted guarded s t) : Newer s t := by
  refine ⟨h.revision_le, ?_⟩
  intro key c hc
  rcases h.of_some hc with hold | ⟨-, hversion, hrevision, -⟩
  · exact Or.inl hold
  · exact Or.inr (by omega)

/-- The protection is lifted from annotated claims only. -/
def KeepsProtection (s t : Cluster) : Prop :=
  ∀ key c, s.claims key = some c → finalizerPVCProtection ∈ c.finalizers →
    (∃ c', t.claims key = some c' ∧ finalizerPVCProtection ∈ c'.finalizers) ∨ Annotated c

/-- A guarded step lifts the protection of annotated claims only. -/
theorem ClaimStep.keepsProtection (h : ClaimStep lifted True s t) : KeepsProtection s t := by
  intro key c hc hprotected
  cases h with
  | unchanged hclaims =>
    rw [← hclaims] at hc
    exact Or.inl ⟨c, hc, hprotected⟩
  | @stored written _ hprotection hclaims =>
    by_cases hkey : key = written.key
    · subst hkey
      refine (hprotection trivial c hc hprotected).imp_left ?_
      intro hmem
      have hstored := s.claims_putClaim_of_mem hmem
      rw [← hclaims] at hstored
      exact ⟨_, hstored, hmem⟩
    · refine Or.inl ⟨c, ?_, hprotected⟩
      rw [hclaims]
      simp only [Cluster.putClaim, Function.update_of_ne hkey]
      exact hc

/-- A claim may be written over the stored one of its version. -/
def ProperWrite (lifted : ObjectKey → Prop) (s : Cluster) (written : PersistentVolumeClaim) :
    Prop :=
  ∀ stored, s.claims written.key = some stored →
    written.resourceVersion = stored.resourceVersion →
    (Annotated written → lifted written.key) ∧
      (finalizerPVCProtection ∈ stored.finalizers →
        finalizerPVCProtection ∈ written.finalizers ∨ Annotated stored)

/-- The stored claims are annotated only where that is due. -/
structure ClaimsDue (lifted : ObjectKey → Prop) (s : Cluster) : Prop where
  /-- Claims are stored under their names. -/
  named : ∀ key c, s.claims key = some c → c.key = key
  /-- Annotated claims are among those of which the protection may be lifted. -/
  annotated : ∀ key c, s.claims key = some c → Annotated c → lifted key

/-- A step that does nothing. -/
theorem ClaimStep.refl (s : Cluster) : ClaimStep lifted guarded s s := .unchanged rfl le_rfl

/-- A proper write of the stored version is a step of the claims. -/
theorem claimStep_write (hs : ClaimsDue lifted s) {written stored : PersistentVolumeClaim}
    (hproper : ProperWrite lifted s written) (hstored : s.claims written.key = some stored)
    (hversion : written.resourceVersion = stored.resourceVersion) {merged : PersistentVolumeClaim}
    (hkey : merged.key = stored.key) (hannotations : merged.annotations = written.annotations)
    (hfinalizers : merged.finalizers = written.finalizers) :
    ClaimStep lifted guarded s (s.putClaim merged) := by
  have hname : merged.key = written.key := hkey.trans (hs.named _ _ hstored)
  obtain ⟨hannotated, hprotection⟩ := hproper stored hstored hversion
  refine .stored ?_ ?_ rfl rfl
  · intro h
    rw [Annotated, hannotations] at h
    rw [hname]
    exact hannotated h
  · intro _ old hold hprotected
    rw [hname, hstored] at hold
    cases hold
    rw [hfinalizers]
    exact hprotection hprotected

/-- So is the deletion of a claim, which leaves its annotations and finalizers. -/
theorem claimStep_markClaim (hs : ClaimsDue lifted s) {key : ObjectKey}
    {c : PersistentVolumeClaim} (hc : s.claims key = some c) :
    ClaimStep lifted guarded s (s.markClaim c) := by
  have hkey := hs.named key c hc
  subst hkey
  rw [Cluster.markClaim]
  split
  · exact .refl s
  · refine .stored (c := { c with deleting := true }) (hs.annotated c.key c hc) ?_ rfl rfl
    intro _ old hold hprotected
    rw [hc] at hold
    cases hold
    exact Or.inl hprotected

/-- The deletion of a volume leaves the claims as they are. -/
theorem claimStep_markVolume (pv : PersistentVolume) :
    ClaimStep lifted guarded s (s.markVolume pv) := by
  rw [Cluster.markVolume]
  split
  · exact .refl s
  · exact .unchanged rfl (Nat.le_succ _)

/-- So does the deletion of a Pod. -/
theorem claimStep_markPod (graceful : Bool) (pod : Pod) :
    ClaimStep lifted guarded s (s.markPod graceful pod) := by
  rw [Cluster.markPod]
  split
  · exact .unchanged rfl le_rfl
  · exact .unchanged rfl le_rfl

/-- The claims after a request. -/
theorem claimStep_serve (hs : ClaimsDue lifted s) (fault : Fault) {r : Req}
    (hproper : Writing (ProperWrite lifted s) r) :
    ClaimStep lifted guarded s (s.serve fault r).2 := by
  rcases serve_effect s fault r with hsame | heffect
  · rw [hsame]
    exact .refl s
  · generalize (s.serve fault r).2 = t at heffect
    cases heffect with
    | updateClaim hstored hversion =>
      exact claimStep_write hs (hproper _ rfl) hstored hversion rfl rfl rfl
    | updateClaimStatus hstored hversion =>
      exact claimStep_write hs (hproper _ rfl) hstored hversion rfl rfl rfl
    | deleteClaim hc => exact claimStep_markClaim hs hc
    | deleteVolume => exact claimStep_markVolume _
    | deletePod => exact claimStep_markPod _ _
    | createPod => exact .unchanged rfl le_rfl
    | _ => exact .unchanged rfl (Nat.le_succ _)

/-- Others do not write the annotation. -/
def RespectsMark (s : Cluster) : Env → Prop
  | .createClaim c => ¬Annotated c
  | .editClaim c => Annotated c → ∃ stored, s.claims c.key = some stored ∧ Annotated stored
  | _ => True

/-- The claims after a step of others. -/
theorem claimStep_act (hs : ClaimsDue lifted s) {e : Env} (hkeeps : RespectsMark s e)
    (h : act s e = some t) : ClaimStep lifted False s t := by
  cases acts_of_act h with
  | @createClaim c _ _ =>
    exact .stored (c := { c with deleting := false })
      (fun hannotated => absurd hannotated hkeeps) nofun rfl rfl
  | @editClaim c stored hstored =>
    refine .stored ?_ nofun rfl rfl
    intro hannotated
    obtain ⟨stored', hstored', hold⟩ := hkeeps hannotated
    have hkey : stored.key = c.key := hs.named _ _ hstored
    have hdue := hs.annotated _ _ hstored' hold
    rw [← hkey] at hdue
    exact hdue
  | deleteClaim hc => exact claimStep_markClaim hs hc
  | deleteVolume => exact claimStep_markVolume _
  | deletePod => exact claimStep_markPod _ _
  | createVolume => exact .unchanged rfl (Nat.le_succ _)
  | editVolume => exact .unchanged rfl (Nat.le_succ _)
  | podPhase =>
    split
    · exact .unchanged rfl le_rfl
    · exact .unchanged rfl le_rfl
  | _ => exact .unchanged rfl le_rfl

end Steps

section Invariant

variable {s t : Shared}

/-- The protection of the claim may be lifted: the claim is annotated, or the Pod
controller handles a Pod that writes to it. -/
def Lifted (s : Shared) (key : ObjectKey) : Prop :=
  (∃ c, s.claims key = some c ∧ Annotated c) ∨
    ∃ name pod, s.calls name = some (some pod) ∧ key ∈ writeablePVCs pod

/-- A Pod is about to be the only one to refer to its claims. -/
def Unshared (s : Shared) (pod : Pod) : Prop :=
  ∀ key, pod.refersTo key = true →
    ¬Lifted s key ∧ ∀ name p, s.pods name = some p → p.refersTo key = false

/-- Claims are not used any more when their protection may be lifted. -/
structure Protected (s : Shared) : Prop where
  /-- Claims are stored under their names. -/
  named : ∀ key c, s.claims key = some c → c.key = key
  /-- Versions are bounded by the revision. -/
  version : ∀ key c, s.claims key = some c → c.resourceVersion ≤ s.revision
  /-- At most one Pod refers to a claim. -/
  exclusive : ∀ key name pod name' pod', s.pods name = some pod → pod.refersTo key = true →
    s.pods name' = some pod' → pod'.refersTo key = true → name = name'
  /-- Pods that refer to the claim have terminated. -/
  unused : ∀ key name pod, Lifted s key → s.pods name = some pod → pod.refersTo key = true →
    pod.phase.terminal = true

/-- Annotated claims are those whose protection may be lifted. -/
theorem Protected.claimsDue (h : Protected s) : ClaimsDue (Lifted s) s.toCluster :=
  ⟨h.named, fun _ c hc hannotated => Or.inl ⟨c, hc, hannotated⟩⟩

/-- The protection of the claim may be lifted after a step. -/
def Free (s : Shared) (key : ObjectKey) : Prop :=
  Lifted s key ∨
    ∃ name pod, s.pods name = some pod ∧ pod.refersTo key = true ∧ pod.phase.terminal = true

/-- The Pods that use a free claim have terminated. -/
theorem Protected.of_free (h : Protected s) {key name : ObjectKey} {pod : Pod}
    (hfree : Free s key) (hpod : s.pods name = some pod) (huses : pod.refersTo key = true) :
    pod.phase.terminal = true := by
  rcases hfree with hlifted | ⟨name', pod', hpod', huses', hterminal⟩
  · exact h.unused key name pod hlifted hpod huses
  · have hsame := h.exclusive key name pod name' pod' hpod huses hpod' huses'
    rw [hsame, hpod'] at hpod
    cases hpod
    exact hterminal

/-- The Pods handled after a step write to claims that were free before it. -/
def TakesFree (s t : Shared) : Prop :=
  ∀ name pod key, t.calls name = some (some pod) → key ∈ writeablePVCs pod → Free s key

/-- A claim whose protection may be lifted after a step was free before it. -/
theorem free_of_lifted {guarded : Prop}
    (hclaims : ClaimStep (Lifted s) guarded s.toCluster t.toCluster) (hcalls : TakesFree s t) {key : ObjectKey} (h : Lifted t key) : Free s key := by
  rcases h with ⟨c, hc, hannotated⟩ | ⟨name, pod, hcall, hmem⟩
  · rcases hclaims.of_some hc with hold | ⟨-, -, -, hdue⟩
    · exact Or.inl (Or.inl ⟨c, hold, hannotated⟩)
    · exact Or.inl (hdue hannotated)
  · exact hcalls name pod key hcall hmem

/-- The claims a Pod refers to depend on its name and its spec only. -/
theorem refersTo_of_eq {pod old : Pod} (hkey : pod.key = old.key) (hspec : pod.spec = old.spec)
    (key : ObjectKey) : pod.refersTo key = old.refersTo key := by
  rw [Pod.refersTo, Pod.refersTo, hkey, hspec]

/-- A Pod that refers to a claim after a step did so before, or is new. -/
theorem user_before {new : Pod → Prop} (hnamed : Named s.toCluster)
    (hpods : PodStep new s.toCluster t.toCluster) {key name : ObjectKey} {pod : Pod}
    (hpod : t.pods name = some pod) (huses : pod.refersTo key = true) :
    (∃ old, s.pods name = some old ∧ old.refersTo key = true ∧
      (old.phase.terminal = true → pod.phase = old.phase)) ∨
    new pod ∧ ∀ name', name' ≠ name → t.pods name' = s.pods name' := by
  rcases hpods.of_some hpod with hsame | ⟨old, hold, hkey, hspec, hphase⟩ | ⟨-, -, hnew, hothers⟩
  · exact Or.inl ⟨pod, hsame, huses, fun _ => rfl⟩
  · have hkeys : pod.key = old.key := hkey.trans (hnamed name old hold).symm
    rw [refersTo_of_eq hkeys hspec] at huses
    exact Or.inl ⟨old, hold, huses, hphase⟩
  · exact Or.inr ⟨hnew, hothers⟩

/-- Claims stay unused as long as Pods that are created share no claims. -/
theorem Protected.step {new : Pod → Prop} {guarded : Prop} (h : Protected s)
    (hnamed : Named s.toCluster) (hnew : ∀ pod, new pod → Unshared s pod)
    (hpods : PodStep new s.toCluster t.toCluster)
    (hclaims : ClaimStep (Lifted s) guarded s.toCluster t.toCluster) (hcalls : TakesFree s t) :
    Protected t := by
  refine ⟨?_, ?_, ?_, ?_⟩
  · intro key c hc
    rcases hclaims.of_some hc with hold | ⟨hkey, -⟩
    · exact h.named key c hold
    · exact hkey
  · intro key c hc
    rcases hclaims.of_some hc with hold | ⟨-, hversion, -⟩
    · exact (h.version key c hold).trans hclaims.revision_le
    · exact hversion.le
  · intro key name pod name' pod' hpod huses hpod' huses'
    by_contra hne
    rcases user_before hnamed hpods hpod huses with ⟨old, hold, huse, -⟩ | ⟨hfresh, hothers⟩
    · rcases user_before hnamed hpods hpod' huses' with ⟨old', hold', huse', -⟩ | ⟨hfresh, hothers⟩
      · exact hne (h.exclusive key name old name' old' hold huse hold' huse')
      · have hunused := (hnew pod' hfresh key huses').2 name old hold
        rw [huse] at hunused
        cases hunused
    · rw [hothers name' (Ne.symm hne)] at hpod'
      have hunused := (hnew pod hfresh key huses).2 name' pod' hpod'
      rw [huses'] at hunused
      cases hunused
  · intro key name pod hlifted hpod huses
    have hfree := free_of_lifted hclaims hcalls hlifted
    rcases user_before hnamed hpods hpod huses with ⟨old, hold, huse, hphase⟩ | ⟨hfresh, -⟩
    · have hterminal := h.of_free hfree hold huse
      rw [hphase hterminal]
      exact hterminal
    · obtain ⟨hnot, hothers⟩ := hnew pod hfresh key huses
      rcases hfree with hbefore | ⟨name', p, hp, huse, -⟩
      · exact absurd hbefore hnot
      · have hunused := hothers name' p hp
        rw [huse] at hunused
        cases hunused

end Invariant

section Discipline

variable {cfg : Config} {w : Worker} {s t : Shared} {seen : Record Req Resp}

/-- A Pod that does not exist is created under a free name and shares no claim. -/
def Separate (s : Shared) (pod : Pod) : Prop :=
  s.pods pod.key = none → ¬Outstanding s pod.key ∧ Unshared s pod

/-- What a worker tolerates: claims get newer, and its own call is not touched. -/
def Tolerates (w : Worker) (s t : Shared) : Prop :=
  Newer s.toCluster t.toCluster ∧ ∀ key, w = .pod key → t.calls key = s.calls key

/-- The argument that the protection is lifted from claims that are not used. -/
def protection (cfg : Config) : Discipline (manager cfg) where
  inv s := Completed s ∧ Protected s
  rely := Tolerates
  guarantee w _ _ _ s t :=
    Newer s.toCluster t.toCluster ∧ KeepsCalls w s t ∧ KeepsProtection s.toCluster t.toCluster
  post w _ _ s := Handling w s
  admits _ _ r s := ∀ pod, r = .createPod pod → Separate s pod
  admitsEnv e s := (∀ pod, e = .createPod pod → Separate s pod) ∧ RespectsMark s.toCluster e
  rely_refl _ s := ⟨.refl s.toCluster, fun _ _ => rfl⟩
  rely_trans _ _ _ _ h h' :=
    ⟨h.1.trans h'.1, fun key hw => (h'.2 key hw).trans (h.2 key hw)⟩

/-- A call that is being handled is handled until it is finished. -/
theorem Tolerates.handling (h : Tolerates w s t) (hcall : Handling w s) : Handling w t := by
  intro key hw
  rw [h.2 key hw]
  exact hcall key hw

/-- A Pod refers to the claims it writes to. -/
theorem refersTo_of_mem {pod : Pod} {key : ObjectKey} (h : key ∈ writeablePVCs pod) :
    pod.refersTo key = true := by
  simp only [writeablePVCs, List.mem_filterMap] at h
  obtain ⟨v, hv, hkey⟩ := h
  split at hkey
  · next name hname =>
    split at hkey
    · cases hkey
    · cases hkey
      simp only [Pod.refersTo, beq_self_eq_true, Bool.true_and, List.any_eq_true, beq_iff_eq]
      exact ⟨v, hv, hname⟩
  · cases hkey

/-- The Pod a call reads is the one it has been started for. -/
def OwnRead (w : Worker) (r : Req) : Prop :=
  ∀ name key, w = .pod name → r = .getPod key → key = name

/-- A step after which no other Pod is handled takes free claims only. -/
theorem takesFree_of_calls (h : ∀ name pod, t.calls name = some (some pod) →
    s.calls name = some (some pod)) : TakesFree s t :=
  fun name pod _ hcall hmem => Or.inl (Or.inr ⟨name, pod, h name pod hcall, hmem⟩)

/-- The claims of a Pod that is read for its request are free: it has finished. -/
theorem takesFree_serve (hcompleted : Completed s) (hcall : Handling w s) (fault : Fault) {r : Req}
    (hown : OwnRead w r) : TakesFree s (s.serve w fault r).2 := by
  intro name pod key hread hmem
  have hcases := noteRead_cases s.calls w r (s.toCluster.serve fault r).1 name
  rcases hcases with hsame | ⟨read, pod', hw, hr, hnoted⟩
  · have hbefore : s.calls name = some (some pod) := hsame.symm.trans hread
    exact Or.inl (Or.inr ⟨name, pod, hbefore, hmem⟩)
  · have hpods : pod' = pod := Option.some.inj (Option.some.inj (hnoted.symm.trans hread))
    subst hpods
    have hrequest : r = .getPod read := congrArg Sigma.fst hr
    subst hrequest
    have hname := hown name read hw rfl
    subst hname
    have hstored := pods_of_getPod (eq_of_heq (Sigma.mk.inj hr).2)
    have hfinished := hcompleted.done read pod' (Or.inr (Or.inr (hcall read hw))) hstored
    exact Or.inr ⟨read, pod', hstored, refersTo_of_mem hmem, terminal_of_finished hfinished⟩

/-- A request keeps the invariant and meets the guarantee if the claim it writes is due. -/
theorem protection_serve (hi : Completed s ∧ Protected s) (hcall : Handling w s) (fault : Fault)
    {r : Req} (hown : OwnRead w r) (hproper : Writing (ProperWrite (Lifted s) s.toCluster) r)
    (hadmits : ∀ pod, r = .createPod pod → Separate s pod) :
    (Completed (s.serve w fault r).2 ∧ Protected (s.serve w fault r).2) ∧
      Newer s.toCluster (s.serve w fault r).2.toCluster ∧ KeepsCalls w s (s.serve w fault r).2 ∧
      KeepsProtection s.toCluster (s.serve w fault r).2.toCluster := by
  have hclaims : ClaimStep (Lifted s) True s.toCluster (s.serve w fault r).2.toCluster :=
    claimStep_serve hi.2.claimsDue fault hproper
  have hpods : PodStep (Unshared s) s.toCluster (s.serve w fault r).2.toCluster :=
    podStep_serve hi.1.named fault r fun pod hr habsent => (hadmits pod hr habsent).2
  have hprotected := hi.2.step hi.1.named (fun _ hpod => hpod) hpods hclaims
    (takesFree_serve hi.1 hcall fault hown)
  have hcompleted := completed_serve hi.1 hcall fault
    fun pod hr habsent => (hadmits pod hr habsent).1
  exact ⟨⟨hcompleted, hprotected⟩, hclaims.newer, keepsCalls_serve w fault r s,
    hclaims.keepsProtection⟩

/-- Requests that read no Pod for a call. -/
def Quiet (w : Worker) (r : Req) : Prop := ∀ name, w = .pod name → readsPod r = false

/-- The claim controller reads no Pod for a call. -/
theorem quiet_claim (key : ObjectKey) (r : Req) : Quiet (.claim key) r := nofun

/-- Nor does the volume controller. -/
theorem quiet_volume (name : String) (r : Req) : Quiet (.volume name) r := nofun

/-- A request that reads no Pod reads no foreign one. -/
theorem Quiet.ownRead {r : Req} (h : Quiet w r) : OwnRead w r := by
  rintro name key hw rfl
  cases h name hw

/-- It leaves what the call has read as it is. -/
theorem Quiet.calls {r : Req} (h : Quiet w r) (fault : Fault) {name : ObjectKey}
    (hw : w = .pod name) : (s.serve w fault r).2.calls name = s.calls name := by
  rcases noteRead_cases s.calls w r (s.toCluster.serve fault r).1 name with hsame | ⟨_, _, _, hr, _⟩
  · exact hsame
  · have hrequest := congrArg Sigma.fst hr
    dsimp only at hrequest
    have hquiet := h name hw
    rw [hrequest] at hquiet
    cases hquiet

/-- Programs that only write claims that are due keep what others tolerate. -/
theorem wp_quiet {α : Type} {p : Controller α} {ok : PersistentVolumeClaim → Prop}
    (fact : Shared → Prop) (hp : p.Issues fun r => Writing ok r ∧ Quiet w r)
    (hrely : ∀ {s t}, fact s → Tolerates w s t → fact t)
    (hproper : ∀ {s c}, fact s → ok c → ProperWrite (Lifted s) s.toCluster c)
    (hcall : ∀ {s}, fact s → Handling w s) (hs : fact s) :
    Wp ((protection cfg).contract w) (fun _ _ t => fact t) p seen s := by
  refine Wp.of_issues hrely ?_ hp hs
  intro r t seen fault hkind ht hi hadmits
  have hwrites : Writing (ProperWrite (Lifted t) t.toCluster) r :=
    fun c hc => hproper ht (hkind.1 c hc)
  obtain ⟨hinv, hguar⟩ :=
    protection_serve hi (hcall ht) fault hkind.2.ownRead hwrites hadmits
  have htolerates : Tolerates w t (t.serve w fault r).2 :=
    ⟨hguar.1, fun _ hw => hkind.2.calls fault hw⟩
  exact ⟨hinv, hguar, hrely ht htolerates⟩

/-- A claim that is read is stored. -/
theorem claims_of_getClaim {s : Cluster} {fault : Fault} {key : ObjectKey}
    {c : PersistentVolumeClaim} (h : (s.serve fault (.getClaim key)).1 = .ok c) :
    s.claims key = some c := by
  rcases serve_fst s fault (.getClaim key) with hanswer | ⟨failure, hfailed⟩
  · rw [hanswer, Cluster.answer] at h
    split at h
    · cases h
    · next hc =>
      cases h
      exact hc
  · rw [h] at hfailed
    cases hfailed

/-- The rule for `Get` of a claim. -/
theorem wp_getClaim {α : Type} {key : ObjectKey}
    {next : Except ApiError PersistentVolumeClaim → Controller α}
    {post : Record Req Resp → α → Shared → Prop} (fact : Shared → Prop)
    (hrely : ∀ {s t}, fact s → Tolerates w s t → fact t)
    (hcall : ∀ {s}, fact s → Handling w s) (hs : fact s)
    (hok : ∀ t seen c, c.key = key → fact t → CurrentClaim c t.toCluster →
      Wp ((protection cfg).contract w) post (next (.ok c)) seen t)
    (herror : ∀ t seen e, fact t → Wp ((protection cfg).contract w) post (next (.error e)) seen t) :
    Wp ((protection cfg).contract w) post (.call (.getClaim key) next) seen s := by
  intro t hr hi fault hadmits
  have ht := hrely hs hr
  have hquiet : Quiet w (.getClaim key) := fun _ _ => rfl
  obtain ⟨hinv, hguar⟩ :=
    protection_serve hi (hcall ht) fault hquiet.ownRead (writing_of_none rfl) hadmits
  refine ⟨hinv, hguar, ?_⟩
  have htolerates : Tolerates w t (t.serve w fault (.getClaim key)).2 :=
    ⟨hguar.1, fun _ hw => hquiet.calls fault hw⟩
  have hthen := hrely ht htolerates
  cases hresponse : (t.toCluster.serve fault (.getClaim key)).1 with
  | error e =>
    have hwp := herror (t.serve w fault (.getClaim key)).2
      (seen ++ [⟨.getClaim key, .error e⟩]) e hthen
    rw [← hresponse] at hwp
    exact hwp
  | ok c =>
    have hstored := claims_of_getClaim hresponse
    have hkey := hi.2.named key c hstored
    have hcurrent : CurrentClaim c t.toCluster := by
      refine ⟨hi.2.version key c hstored, ?_⟩
      intro c' hc' _
      rw [hkey, hstored] at hc'
      exact (Option.some.inj hc').symm
    have hwp := hok (t.serve w fault (.getClaim key)).2 (seen ++ [⟨.getClaim key, .ok c⟩]) c hkey
      hthen (hguar.1.currentClaim hcurrent)
    rw [← hresponse] at hwp
    exact hwp

/-- A current claim may be written back with other finalizers. -/
theorem properWrite_finalizers {c written : PersistentVolumeClaim}
    (hc : CurrentClaim c s.toCluster) (h : WithFinalizers c written) :
    ProperWrite (Lifted s) s.toCluster written := by
  intro stored hstored hversion
  obtain ⟨finalizers, rfl, hprotection⟩ := h
  have hsame := hc.2 stored hstored hversion.symm
  subst hsame
  exact ⟨fun hannotated => Or.inl ⟨stored, hstored, hannotated⟩, hprotection⟩

/-- The claims of a Pod that has been read may be annotated. -/
theorem properWrite_annotations {c written : PersistentVolumeClaim} {name : ObjectKey} {pod : Pod}
    (hread : s.calls name = some (some pod)) (hmem : c.key ∈ writeablePVCs pod)
    (hc : CurrentClaim c s.toCluster) (h : WithAnnotations c written) :
    ProperWrite (Lifted s) s.toCluster written := by
  intro stored hstored hversion
  obtain ⟨annotations, rfl⟩ := h
  have hsame := hc.2 stored hstored hversion.symm
  subst hsame
  exact ⟨fun _ => Or.inr ⟨name, pod, hread, hmem⟩, Or.inl⟩

/-- The controller of a claim lifts the protection of an annotated claim only. -/
theorem wp_claimReconcile (key : ObjectKey) :
    Wp ((protection cfg).contract (.claim key)) ((protection cfg).post (.claim key))
      (program cfg (.claim key)) seen s := by
  simp only [program, ClaimController.reconcile, Prog.request_bind]
  refine wp_getClaim (fun _ => True) (fun _ _ => trivial) (fun _ => handling_claim key _) trivial
    ?_ ?_
  · intro t seen c _ _ hcurrent
    have hissues : (if c.deleting then ClaimController.reconcileDeleted cfg c
        else ClaimController.reconcileActive cfg c).Issues
        (fun r => Writing (WithFinalizers c) r ∧ Quiet (.claim key) r) := by
      split
      · exact (issues_reconcileDeleted cfg c).mono fun r hr => ⟨hr, quiet_claim key r⟩
      · exact (issues_reconcileActive cfg c).mono fun r hr => ⟨hr, quiet_claim key r⟩
    refine Wp.mono (wp_quiet (fun s => CurrentClaim c s.toCluster) hissues
      (fun hs ht => ht.1.currentClaim hs) properWrite_finalizers (fun _ => handling_claim key _)
      hcurrent) ?_
    exact fun _ _ u _ _ => handling_claim key u
  · intro t seen e _
    dsimp only
    split
    · exact fun u _ _ => handling_claim key u
    · exact fun u _ _ => handling_claim key u

/-- The controller of a volume writes no claims. -/
theorem wp_volumeReconcile (name : String) :
    Wp ((protection cfg).contract (.volume name)) ((protection cfg).post (.volume name))
      (program cfg (.volume name)) seen s := by
  have hissues : (program cfg (.volume name)).Issues
      (fun r => Writing (fun _ => False) r ∧ Quiet (.volume name) r) := by
    refine Prog.Issues.bind ?_ fun _ => trivial
    exact (issues_reconcileVolume cfg name).mono fun r hr => ⟨hr, quiet_volume name r⟩
  refine Wp.mono (wp_quiet (fun _ => True) hissues (fun _ _ => trivial) (fun _ => False.elim)
    (fun _ => handling_volume name _) trivial) ?_
  exact fun _ _ u _ _ => handling_volume name u

section Handled

variable {name : ObjectKey} {pod : Pod}

/-- A call of the Pod controller has read the Pod. -/
def HasRead (name : ObjectKey) (pod : Pod) (s : Shared) : Prop := s.calls name = some (some pod)

/-- What a call has read stays read while the others act. -/
theorem HasRead.tolerates (h : HasRead name pod s) (ht : Tolerates (.pod name) s t) :
    HasRead name pod t :=
  (ht.2 name rfl).trans h

/-- A call that has read its Pod is being handled. -/
theorem HasRead.handling (h : HasRead name pod s) : Handling (.pod name) s := by
  intro key hw
  cases hw
  rw [h]
  rfl

/-- The Pod controller annotates claims the Pod it has read writes to. -/
theorem wp_reconcileClaim {key : ObjectKey} (hmem : key ∈ writeablePVCs pod)
    (hs : HasRead name pod s) :
    Wp ((protection cfg).contract (.pod name)) (fun _ _ t => HasRead name pod t)
      (reconcileClaim key) seen s := by
  simp only [reconcileClaim, Prog.request_bind]
  refine wp_getClaim (HasRead name pod) HasRead.tolerates HasRead.handling hs ?_ ?_
  · intro t seen c hkey ht hcurrent
    subst hkey
    have hkind : ∀ r, OnClaim c r → Writing (WithAnnotations c) r ∧ Quiet (.pod name) r :=
      fun r hr => ⟨hr.1, fun _ _ => hr.2⟩
    have hissues := (issues_handleClaim c).mono hkind
    refine Wp.mono (wp_quiet (fun s => HasRead name pod s ∧ CurrentClaim c s.toCluster) hissues
      (fun hs ht => ⟨hs.1.tolerates ht, ht.1.currentClaim hs.2⟩)
      (fun hs => properWrite_annotations hs.1 hmem hs.2) (fun hs => hs.1.handling)
      ⟨ht, hcurrent⟩) ?_
    exact fun _ _ _ _ hboth => hboth.1
  · exact fun t seen e ht u hu _ => ht.tolerates hu

/-- The loop over the claims of the Pod keeps what the call has read. -/
theorem wp_reconcileClaims {keys : List ObjectKey} (hkeys : ∀ key ∈ keys, key ∈ writeablePVCs pod)
    (err : Option GoErrors.GoError) (hs : HasRead name pod s) :
    Wp ((protection cfg).contract (.pod name)) (fun _ _ t => HasRead name pod t)
      (reconcileClaims keys err) seen s := by
  induction keys generalizing err seen s with
  | nil => exact fun t ht _ => hs.tolerates ht
  | cons key keys ih =>
    rw [reconcileClaims]
    refine Wp.bind (Wp.mono (wp_reconcileClaim (hkeys key List.mem_cons_self) hs) ?_)
    intro seen failed t _ ht
    exact ih (fun key' hkey' => hkeys key' (List.mem_cons_of_mem key hkey')) _ ht

/-- The Pod controller begins by reading the Pod it has been started for. -/
theorem wp_podReconcile (hcall : Handling (.pod name) s) :
    Wp ((protection cfg).contract (.pod name)) ((protection cfg).post (.pod name))
      (program cfg (.pod name)) seen s := by
  simp only [program, PodController.reconcile, Prog.request_bind, Prog.call_bind]
  intro t hr hi fault hadmits
  have hnow := hr.handling hcall
  have hown : OwnRead (.pod name) (.getPod name) := by
    rintro _ _ ⟨⟩ ⟨⟩
    rfl
  obtain ⟨hinv, hguar⟩ := protection_serve hi hnow fault hown (writing_of_none rfl) hadmits
  refine ⟨hinv, hguar, ?_⟩
  have hthen := handling_serve hnow fault (.getPod name)
  beta_reduce
  split
  · split
    · exact fun u hu _ => hu.handling hthen
    · exact fun u hu _ => hu.handling hthen
  · next pod hpod =>
    have hread : HasRead name pod (t.serve (.pod name) fault (.getPod name)).2 := by
      have hresponse : (t.toCluster.serve fault (.getPod name)).1 = .ok pod := hpod
      simp only [HasRead, Shared.serve, hresponse, noteRead, Function.update_self]
    refine Wp.bind (Wp.mono (wp_reconcileClaims (fun _ hkey => hkey) none hread) ?_)
    exact fun _ _ u _ hu v hv _ => hv.handling hu.handling

end Handled

/-- What is handled after a start or the end of a call was handled before. -/
theorem calls_start {w : Worker} (h : s.start w = some t) {name : ObjectKey} {pod : Pod}
    (hread : t.calls name = some (some pod)) : s.calls name = some (some pod) := by
  cases w with
  | pod key =>
    simp only [Shared.start] at h
    split at h
    · cases h
      by_cases hkey : name = key
      · simp only [hkey, Function.update_self] at hread
        cases hread
      · simp only [Function.update_of_ne hkey] at hread
        exact hread
    · cases h
  | claim key =>
    cases h
    exact hread
  | volume name =>
    cases h
    exact hread

/-- The end of a call leaves what other calls have read. -/
theorem calls_finish {w : Worker} {outcome : ClaimController.Outcome}
    (h : s.finish w outcome = some t) {name : ObjectKey} {pod : Pod}
    (hread : t.calls name = some (some pod)) : s.calls name = some (some pod) := by
  cases outcome with
  | panicked => cases h
  | returned err =>
    cases w with
    | pod key =>
      cases h
      by_cases hkey : name = key
      · simp only [hkey, Function.update_self] at hread
        cases hread
      · simp only [Function.update_of_ne hkey] at hread
        exact hread
    | claim key =>
      cases h
      exact hread
    | volume name =>
      cases h
      exact hread

/-- Steps that leave the cluster alone. -/
theorem protected_of_toCluster (h : Protected s) (hnamed : Named s.toCluster)
    (hcluster : t.toCluster = s.toCluster)
    (hcalls : ∀ name pod, t.calls name = some (some pod) → s.calls name = some (some pod)) :
    Protected t := by
  have hpods : PodStep (fun _ => False) s.toCluster t.toCluster := by
    rw [hcluster]
    exact .refl _
  have hclaims : ClaimStep (Lifted s) False s.toCluster t.toCluster := by
    rw [hcluster]
    exact .refl _
  exact h.step hnamed (fun _ => nofun) hpods hclaims (takesFree_of_calls hcalls)

/-- The claims are not older if the cluster has not changed. -/
theorem newer_of_toCluster (hcluster : t.toCluster = s.toCluster) :
    Newer s.toCluster t.toCluster := by
  rw [hcluster]
  exact .refl _

/-- A worker tolerates steps of others that leave the calls of the rest alone. -/
theorem tolerates_of_keepsCalls {v : Worker} (h : KeepsCalls w s t) (hne : v ≠ w)
    (hnewer : Newer s.toCluster t.toCluster) : Tolerates v s t := by
  refine ⟨hnewer, ?_⟩
  intro key hv
  have hw : w ≠ .pod key := fun heq => hne (hv.trans heq.symm)
  exact h key hw

/-- The system respects the argument. -/
theorem protection_respected : (protection cfg).Respected where
  start := by
    intro w j s t hi _ h
    obtain ⟨hcluster, hcall, hready, hkeeps⟩ := start_cases h
    have hprotected := protected_of_toCluster hi.2 hi.1.named hcluster fun _ _ => calls_start h
    refine ⟨⟨completed_of_toCluster hi.1 hcluster hready, hprotected⟩,
      fun v hv => tolerates_of_keepsCalls hkeeps hv (newer_of_toCluster hcluster), ?_⟩
    cases w with
    | pod key => exact wp_podReconcile hcall
    | claim key => exact wp_claimReconcile key
    | volume name => exact wp_volumeReconcile name
  env := by
    intro e s t hi hadmits h
    have hact := act_of_env h
    have hcalls := calls_env h
    have hpods : PodStep (Unshared s) s.toCluster t.toCluster :=
      podStep_act hi.1.named (fun pod he habsent => (hadmits.1 pod he habsent).2) hact
    have hclaims := claimStep_act hi.2.claimsDue hadmits.2 hact
    have hfree : TakesFree s t := takesFree_of_calls fun name pod hread => hcalls ▸ hread
    have hcompleted := completed_env hi.1 (fun pod he habsent => (hadmits.1 pod he habsent).1) h
    refine ⟨⟨hcompleted, hi.2.step hi.1.named (fun _ hpod => hpod) hpods hclaims hfree⟩, ?_⟩
    exact fun w => ⟨hclaims.newer, fun key _ => congrFun hcalls key⟩
  finish := by
    intro w seen value s t hi hcall h
    obtain ⟨hcluster, hready, hkeeps⟩ := finish_cases hcall h
    have hprotected := protected_of_toCluster hi.2 hi.1.named hcluster fun _ _ => calls_finish h
    exact ⟨⟨completed_of_toCluster hi.1 hcluster hready, hprotected⟩,
      fun v hv => tolerates_of_keepsCalls hkeeps hv (newer_of_toCluster hcluster)⟩
  crash := by
    intro s t hi h
    cases h
    have hpods : PodStep (fun _ => False) s.toCluster s.crash.toCluster :=
      .unchanged rfl fun _ => nofun
    have hclaims : ClaimStep (Lifted s) False s.toCluster s.crash.toCluster :=
      .unchanged rfl le_rfl
    exact ⟨completed_crash hi.1, hi.2.step hi.1.named (fun _ => nofun) hpods hclaims
      (takesFree_of_calls fun _ _ => nofun)⟩
  compatible := by
    intro w v seen r response s t _ _ hguar hne
    exact tolerates_of_keepsCalls hguar.2.1 hne hguar.1

end Discipline

section Lifting

variable {cfg : Config} {st st' : ManagerState} {es : List ManagerEvent}

/-- A Pod is created only under a free name and with claims no other Pod refers to and
of which none is annotated or about to be; others do not write the annotation. -/
def Separated (st : ManagerState) (e : ManagerEvent) : Prop :=
  (∀ pod, Creates st pod e → Separate st.shared pod) ∧
    ∀ action, e = .env action → RespectsMark st.shared.toCluster action

/-- The argument admits the separated steps. -/
theorem admits_of_separated (st : ManagerState) (e : ManagerEvent) (h : Separated st e) :
    (protection cfg).Admits st e := by
  cases e with
  | env e => exact ⟨h.1, h.2 e rfl⟩
  | serve w fault =>
    intro seen r next hw pod hr
    subst hr
    exact h.1 pod ⟨seen, next, hw⟩
  | _ => trivial

/-- In a cluster without claims and Pods nothing has to be protected. -/
theorem protected_initial (storageClasses : String → Option StorageClass)
    (provisioners : String → Option StorageProvisioner) :
    Protected (.initial storageClasses provisioners) :=
  ⟨fun _ _ => nofun, fun _ _ => nofun, fun _ _ _ _ _ => nofun, fun _ _ _ _ => nofun⟩

/-- A Pod that has terminated has succeeded or failed. -/
theorem succeeded_or_failed {phase : PodPhase} (h : phase.terminal = true) :
    phase = .succeeded ∨ phase = .failed := by
  cases phase with
  | succeeded => exact Or.inl rfl
  | failed => exact Or.inr rfl
  | _ => cases h

/-- In every run in which Pods are created separately, the controller of claims lifts the
protection of a claim only when all Pods that refer to the claim have finished. -/
theorem protection_lifted_when_unused {storageClasses : String → Option StorageClass}
    {provisioners : String → Option StorageProvisioner}
    (hrun : (manager cfg).RunWhere Separated (idle (.initial storageClasses provisioners)) es st)
    {owner : ObjectKey} {fault : Fault} (he : Separated st (.serve (.claim owner) fault))
    (hstep : (manager cfg).step st (.serve (.claim owner) fault) = some st')
    {key : ObjectKey} {c : PersistentVolumeClaim} (hc : st.shared.claims key = some c)
    (hprotected : finalizerPVCProtection ∈ c.finalizers)
    (hlifted : ∀ c', st'.shared.claims key = some c' → finalizerPVCProtection ∉ c'.finalizers)
    {name : ObjectKey} {pod : Pod} (hpod : st.shared.pods name = some pod)
    (huses : pod.refersTo key = true) : pod.phase = .succeeded ∨ pod.phase = .failed := by
  have hsafe : (protection cfg).Safe st :=
    (protection cfg).run_safe_where protection_respected
      ((protection cfg).idle_safe ⟨completed_initial storageClasses provisioners,
        protected_initial storageClasses provisioners⟩)
      (hrun.mono admits_of_separated)
  cases System.taken_of_step hstep with
  | @serve _ _ seen r next hw =>
    have hadmits : ∀ pod, r = .createPod pod → Separate st.shared pod := by
      rintro pod rfl
      exact he.1 pod ⟨seen, next, hw⟩
    have hguar := hsafe.guarantee hw fault hadmits
    rcases hguar.2.2 key c hc hprotected with ⟨c', hc', hstill⟩ | hannotated
    · exact absurd hstill (hlifted c' hc')
    · exact succeeded_or_failed
        (hsafe.1.2.unused key name pod (Or.inl ⟨c, hc, hannotated⟩) hpod huses)

/-- The Pod controller annotates and deletes the claim of the Pod; the claim's
controller has read it. -/
def unprotectingRun : List ManagerEvent :=
  completingRun ++ List.replicate 2 (served (.pod samplePod.key)) ++
    [.finish (.pod samplePod.key)] ++ requests (.claim protectedClaim.key) 1

/-- Steps that create no Pods and write no annotations. -/
def separates (st : ManagerState) (e : ManagerEvent) : Bool :=
  createsNone st e &&
    match e with
    | .env (.createClaim c) => c.annotations.get annNoProtection != enabled
    | .env (.editClaim _) => false
    | _ => true

/-- The check accepts separated steps only. -/
theorem separated_of_separates (st : ManagerState) (e : ManagerEvent)
    (h : separates st e = true) : Separated st e := by
  unfold separates at h
  rw [Bool.and_eq_true] at h
  refine ⟨fun pod hcreates => absurd hcreates (not_creates h.1), ?_⟩
  rintro action rfl
  cases action with
  | createClaim c => simpa [RespectsMark, Annotated] using h.2
  | editClaim c => cases h.2
  | _ => trivial

/-- The sample Pod is created separately. -/
theorem separated_samplePod :
    Separated (idle sampleShared) (.env (.createPod samplePod)) := by
  refine ⟨?_, ?_⟩
  · rintro pod - habsent
    refine ⟨nameFree_initial pod habsent, ?_⟩
    rintro key -
    refine ⟨?_, fun _ _ => nofun⟩
    rintro (⟨c, hc, -⟩ | ⟨name, pod', hread, -⟩)
    · cases hc
    · cases hread
  · rintro action ⟨⟩
    trivial

/-- The protection of the claim is on before and off after the step. -/
def lifts (st : ManagerState) (e : ManagerEvent) (key : ObjectKey) : Bool :=
  (st.shared.claims key).any (fun c => decide (finalizerPVCProtection ∈ c.finalizers)) &&
    ((manager sampleConfig).step st e).any fun st' =>
      !(st'.shared.claims key).any fun c => decide (finalizerPVCProtection ∈ c.finalizers)

/-- What the check for the end of the protection stands for. -/
theorem of_lifts {e : ManagerEvent} {key : ObjectKey} (h : lifts st e key = true) :
    ∃ st' c, (manager sampleConfig).step st e = some st' ∧ st.shared.claims key = some c ∧
      finalizerPVCProtection ∈ c.finalizers ∧
      ∀ c', st'.shared.claims key = some c' → finalizerPVCProtection ∉ c'.finalizers := by
  rw [lifts, Bool.and_eq_true, Option.any_eq_true, Option.any_eq_true] at h
  obtain ⟨⟨c, hc, hprotected⟩, st', hstep, hlifted⟩ := h
  refine ⟨st', c, hstep, hc, of_decide_eq_true hprotected, ?_⟩
  intro c' hc'
  rw [hc'] at hlifted
  simpa using hlifted

/-- The protection of the sample claim is lifted after its Pod has finished. -/
theorem protection_lifted_when_unused_completed :
    ∃ (st st' : ManagerState) (c : PersistentVolumeClaim) (pod : Pod),
      (manager sampleConfig).RunWhere Separated (idle sampleShared)
        (.env (.createPod samplePod) :: unprotectingRun) st ∧
      (manager sampleConfig).step st (served (.claim protectedClaim.key)) = some st' ∧
      st.shared.claims protectedClaim.key = some c ∧ finalizerPVCProtection ∈ c.finalizers ∧
      (∀ c', st'.shared.claims protectedClaim.key = some c' →
        finalizerPVCProtection ∉ c'.finalizers) ∧
      st.shared.pods samplePod.key = some pod ∧ pod.refersTo protectedClaim.key = true ∧
      (pod.phase = .succeeded ∨ pod.phase = .failed) := by
  have hchecked : ((manager sampleConfig).runIf separates (idle podShared) unprotectingRun).any
      (fun st => separates st (served (.claim protectedClaim.key)) &&
        (lifts st (served (.claim protectedClaim.key)) protectedClaim.key &&
        (st.shared.pods samplePod.key).any fun pod => pod.refersTo protectedClaim.key)) = true := by
    decide +kernel
  simp only [Option.any_eq_true, Bool.and_eq_true] at hchecked
  obtain ⟨st, hrest, hlast, hlifts, pod, hpod, huses⟩ := hchecked
  obtain ⟨st', c, hstep, hc, hprotected, hlifted⟩ := of_lifts hlifts
  have hrun : (manager sampleConfig).RunWhere Separated (idle sampleShared)
      (.env (.createPod samplePod) :: unprotectingRun) st :=
    ⟨separated_samplePod, _, step_samplePod,
      System.runWhere_of_runIf separated_of_separates hrest⟩
  have he := separated_of_separates st _ hlast
  exact ⟨st, st', c, pod, hrun, hstep, hc, hprotected, hlifted, hpod, huses,
    protection_lifted_when_unused hrun he hstep hc hprotected hlifted hpod huses⟩

/-- Another Pod that uses the same claim. -/
def otherPod : Pod := { samplePod with key := ⟨"default", "other"⟩ }

/-- Two Pods use the claim; one succeeds while the other one runs. The claim is annotated
and deleted, and its controller has read it. -/
def sharingRun : List ManagerEvent :=
  [.env (.createClaim protectedClaim), .env (.createPod samplePod), .env (.createPod otherPod),
    .env (.podPhase otherPod.key .running), .env (.podPhase samplePod.key .succeeded),
    .env (.deliver 3)] ++ reconciles (.pod samplePod.key) 5 ++
    requests (.claim protectedClaim.key) 1

/-- The protection of a claim is lifted while a Pod that writes to it is running. -/
theorem protection_lifted_while_used :
    ∃ (st st' : ManagerState) (c : PersistentVolumeClaim) (pod : Pod),
      (manager sampleConfig).run (idle sampleShared) sharingRun = some st ∧
      (manager sampleConfig).step st (served (.claim protectedClaim.key)) = some st' ∧
      st.shared.claims protectedClaim.key = some c ∧ finalizerPVCProtection ∈ c.finalizers ∧
      (∀ c', st'.shared.claims protectedClaim.key = some c' →
        finalizerPVCProtection ∉ c'.finalizers) ∧
      st.shared.pods otherPod.key = some pod ∧ pod.refersTo protectedClaim.key = true ∧
      pod.phase = .running := by
  have hchecked : ((manager sampleConfig).run (idle sampleShared) sharingRun).any
      (fun st => lifts st (served (.claim protectedClaim.key)) protectedClaim.key &&
        (st.shared.pods otherPod.key).any fun pod => pod.refersTo protectedClaim.key &&
          decide (pod.phase = .running)) = true := by
    decide +kernel
  simp only [Option.any_eq_true, Bool.and_eq_true, decide_eq_true_eq] at hchecked
  obtain ⟨st, hrun, hlifts, pod, hpod, huses, hphase⟩ := hchecked
  obtain ⟨st', c, hstep, hc, hprotected, hlifted⟩ := of_lifts hlifts
  exact ⟨st, st', c, pod, hrun, hstep, hc, hprotected, hlifted, hpod, huses, hphase⟩

end Lifting

end K8StorageX.ClaimProtection
