import K8StorageX.CacheController

/-!
# What a Cache is released after

`freeStorage` goes on to unlock the Cache whenever `ReconcilePod` returns without an
error, also when it has just created the Pod or found it running. A reconcile that has
read a succeeded Pod releases the Cache rightly, since only reconciles of the same Cache
start Pods under the Pod's name. The others must lose their status update to a failure
or a conflict.
-/

namespace K8StorageX.CacheReset

open ApiProgram WorkerPool GoErrors CacheModel Conditions CacheController
open KubeObjects (ObjectKey Annotations hasString addString removeString)
open KubeApi (Fault Failure)
open JobReconciler (PodResult podResult)

/-- The image of the Cache is reported as untagged. -/
def StorageReset (status : FullStatus) : Prop :=
  statusOf status.conditions conditionStorageReset = some .true

/-- A Cache is unlocked, reported as reset or freed of its finalizer only after the Pod
of its reset has succeeded. -/
structure Gated (succeeded : Bool) (before : CacheResource) (after : Option CacheResource) :
    Prop where
  /-- The finalizer stays. -/
  finalizer : cacheFinalizer ∈ before.finalizers →
    succeeded = true ∨ ∃ c, after = some c ∧ cacheFinalizer ∈ c.finalizers
  /-- `StorageReset` is not set to `True`. -/
  reset : ∀ c, after = some c → StorageReset c.status → StorageReset before.status ∨ succeeded = true
  /-- The phase does not become ready. -/
  ready : ∀ c, after = some c → c.status.phase = .ready →
    before.status.phase = .ready ∨ succeeded = true
  /-- The phase stays reject. -/
  reject : ∀ c, after = some c → before.status.phase = .reject →
    c.status.phase = .reject ∨ succeeded = true

/-- A write of the status that would release the Cache. -/
def Releases (before after : FullStatus) : Prop :=
  (StorageReset after ∧ ¬StorageReset before) ∨
    (after.phase = .ready ∧ before.phase ≠ .ready) ∨
    (before.phase = .reject ∧ after.phase ≠ .reject)

/-- A Cache that keeps the finalizer and is released after success only. -/
theorem Gated.of_same {succeeded : Bool} {before c : CacheResource}
    (hfinalizers : cacheFinalizer ∈ before.finalizers → cacheFinalizer ∈ c.finalizers)
    (hreleases : Releases before.status c.status → succeeded = true) :
    Gated succeeded before (some c) where
  finalizer h := Or.inr ⟨c, rfl, hfinalizers h⟩
  reset := by
    intro c' hc h
    cases hc
    by_cases hbefore : StorageReset before.status
    · exact Or.inl hbefore
    · exact Or.inr (hreleases (Or.inl ⟨h, hbefore⟩))
  ready := by
    intro c' hc h
    cases hc
    by_cases hbefore : before.status.phase = .ready
    · exact Or.inl hbefore
    · exact Or.inr (hreleases (Or.inr (Or.inl ⟨h, hbefore⟩)))
  reject := by
    intro c' hc h
    cases hc
    by_cases hafter : c.status.phase = .reject
    · exact Or.inl hafter
    · exact Or.inr (hreleases (Or.inr (Or.inr ⟨h, hafter⟩)))

/-- A status that stays as it is releases nothing. -/
theorem not_releases_self (status : FullStatus) : ¬Releases status status := by
  rintro (⟨h, hnot⟩ | ⟨h, hnot⟩ | ⟨h, hnot⟩)
  · exact hnot h
  · exact hnot h
  · exact hnot h

/-- A Cache that stays as it is. -/
theorem Gated.refl (succeeded : Bool) (c : CacheResource) : Gated succeeded c (some c) :=
  .of_same (fun h => h) fun h => absurd h (not_releases_self c.status)

/-- A Cache that is stored again is gated if what is stored is. -/
theorem gated_putCache {s : Cluster} {before c : CacheResource} {succeeded : Bool}
    (hfinalizers : cacheFinalizer ∈ before.finalizers → cacheFinalizer ∈ c.finalizers)
    (hreleases : Releases before.status c.status → succeeded = true) :
    Gated succeeded before ((s.putCache c).caches c.key) := by
  have hgated : Gated succeeded before (some { c with resourceVersion := s.revision + 1 }) :=
    .of_same hfinalizers hreleases
  simp only [Cluster.putCache, Function.update_self]
  split
  · next hgone =>
    have hempty : c.finalizers = [] := by
      have hboth := Bool.and_eq_true_iff.mp hgone
      exact List.isEmpty_iff.mp hboth.2
    refine ⟨fun h => ?_, fun _ => nofun, fun _ => nofun, fun _ => nofun⟩
    have hmem := hfinalizers h
    rw [hempty] at hmem
    cases hmem
  · exact hgated

section Effects

variable {s : Cluster} {graceful : Bool} {r : Req}

/-- The effects of the requests that change the cluster. -/
inductive Effect (s : Cluster) (graceful : Bool) : Req → Cluster → Prop
  | updateCache {c stored : CacheResource} (found : s.caches c.key = some stored)
      (current : c.resourceVersion = stored.resourceVersion) :
      Effect s graceful (.updateCache c) (s.putCache (Cluster.mergeCache stored c))
  | updateCacheStatus {c stored : CacheResource} (found : s.caches c.key = some stored)
      (current : c.resourceVersion = stored.resourceVersion) :
      Effect s graceful (.updateCacheStatus c) (s.putStatus stored c)
  | createPod {pod : Pod} (absent : s.pods pod.key = none) :
      Effect s graceful (.createPod pod)
        (s.putPod { pod with deleting := false, phase := .pending })
  | deletePod {key : ObjectKey} {pod : Pod} (found : s.pods key = some pod) :
      Effect s graceful (.deletePod key) (s.markPod graceful pod)

/-- An answered request changes nothing or has one of the listed effects. -/
theorem answer_snd (s : Cluster) (graceful : Bool) (r : Req) :
    (s.answer graceful r).2 = s ∨ Effect s graceful r (s.answer graceful r).2 := by
  cases r with
  | updateCache c =>
    rw [Cluster.answer]
    split
    · exact Or.inl rfl
    · next hfound =>
      split
      · next hversion => exact Or.inr (.updateCache hfound hversion)
      · exact Or.inl rfl
  | updateCacheStatus c =>
    rw [Cluster.answer]
    split
    · exact Or.inl rfl
    · next hfound =>
      split
      · next hversion => exact Or.inr (.updateCacheStatus hfound hversion)
      · exact Or.inl rfl
  | createPod pod =>
    rw [Cluster.answer]
    split
    · exact Or.inl rfl
    · next habsent => exact Or.inr (.createPod habsent)
  | deletePod key =>
    rw [Cluster.answer]
    split
    · exact Or.inl rfl
    · next hfound => exact Or.inr (.deletePod hfound)
  | now => exact Or.inl rfl
  | _ =>
    rw [Cluster.answer]
    split
    · exact Or.inl rfl
    · exact Or.inl rfl

/-- A request changes nothing or has its effect, which a failure that is not lost
does not have. -/
theorem serve_snd (s : Cluster) (fault : Fault) (r : Req) :
    (s.serve fault r).2 = s ∨ Effect s fault.graceful r (s.serve fault r).2 := by
  unfold Cluster.serve
  split
  · exact answer_snd s fault.graceful r
  · split
    · exact answer_snd s fault.graceful r
    · exact Or.inl rfl

/-- A request is answered or reports a failure. -/
theorem serve_cases (s : Cluster) (fault : Fault) (r : Req) :
    s.serve fault r = s.answer fault.graceful r ∨
      ∃ failure : Failure, failed failure.error r = some (s.serve fault r).1 := by
  unfold Cluster.serve
  split
  · exact Or.inl rfl
  · next hfailed =>
    obtain ⟨failure, -, hresponse⟩ := Option.bind_eq_some_iff.mp hfailed
    exact Or.inr ⟨failure, hresponse⟩

/-- A Cache that is read is stored. -/
theorem serve_getCache {fault : Fault} {key : ObjectKey} {c : CacheResource}
    (h : (s.serve fault (.getCache key)).1 = .ok c) : s.caches key = some c := by
  rcases serve_cases s fault (.getCache key) with hanswer | ⟨failure, hfailed⟩
  · simp only [hanswer, Cluster.answer] at h
    split at h
    · cases h
    · next hfound =>
      cases h
      exact hfound
  · rw [h] at hfailed
    cases hfailed

/-- A Pod that is read is stored. -/
theorem serve_getPod {fault : Fault} {key : ObjectKey} {pod : Pod}
    (h : (s.serve fault (.getPod key)).1 = .ok pod) : s.pods key = some pod := by
  rcases serve_cases s fault (.getPod key) with hanswer | ⟨failure, hfailed⟩
  · simp only [hanswer, Cluster.answer] at h
    split at h
    · cases h
    · next hfound =>
      cases h
      exact hfound
  · rw [h] at hfailed
    cases hfailed

/-- A Pod is only reported as missing when it is. -/
theorem serve_getPod_notFound {fault : Fault} {key : ObjectKey}
    (h : (s.serve fault (.getPod key)).1 = .error .notFound) : s.pods key = none := by
  rcases serve_cases s fault (.getPod key) with hanswer | ⟨failure, hfailed⟩
  · simp only [hanswer, Cluster.answer] at h
    split at h
    · next hmissing => exact hmissing
    · cases h
  · rw [h] at hfailed
    have herror : failure.error = .notFound := Except.error.inj (Option.some.inj hfailed)
    exact absurd herror failure.error_ne_notFound

/-- A status update that succeeds has been stored, and returns what is stored. -/
theorem serve_updateCacheStatus {fault : Fault} {c updated : CacheResource}
    (h : (s.serve fault (.updateCacheStatus c)).1 = .ok updated) :
    ∃ stored, s.caches c.key = some stored ∧ c.resourceVersion = stored.resourceVersion ∧
      updated = { Cluster.mergeCacheStatus stored c with resourceVersion := s.revision + 1 } ∧
      (s.serve fault (.updateCacheStatus c)).2 = s.putStatus stored c := by
  rcases serve_cases s fault (.updateCacheStatus c) with hanswer | ⟨failure, hfailed⟩
  · rw [hanswer] at h ⊢
    simp only [Cluster.answer] at h ⊢
    split at h
    · cases h
    · next stored hfound =>
      split at h
      · next hversion =>
        cases h
        exact ⟨stored, hfound, hversion, rfl, by simp only [hversion, if_true]⟩
      · cases h
  · rw [h] at hfailed
    cases hfailed

end Effects

/-- The Pod that resets a Cache. -/
def podKey (settings : Settings) (k : ObjectKey) : ObjectKey := ⟨settings.managerNamespace, k.name⟩

section Knowledge

variable {settings : Settings} {known : ObjectKey → Prop} {w : ObjectKey} {s t u : Shared}

/-- The known Caches are stored under their keys, and every Pod is that of the Cache it
names; a succeeded Pod is recorded. -/
structure Sound (settings : Settings) (known : ObjectKey → Prop) (s : Shared) : Prop where
  /-- Caches are known and stored under their own keys. -/
  caches : ∀ k c, s.caches k = some c → known k ∧ c.key = k ∧ c.resourceVersion ≤ s.revision
  /-- Pods belong to the Cache they name. -/
  pods : ∀ key pod, s.pods key = some pod → pod.key = key ∧ known (owner pod) ∧
    key = podKey settings (owner pod)
  /-- Success is recorded. -/
  success : ∀ key pod, s.pods key = some pod → pod.phase = .succeeded →
    s.succeeded (owner pod) = true

/-- No two known Caches have the same name, whatever their namespaces. -/
def DistinctNames (known : ObjectKey → Prop) : Prop :=
  ∀ k k', known k → known k' → k.name = k'.name → k = k'

/-- The Pod of a Cache has been started for it. -/
theorem Sound.owner_eq (hs : Sound settings known s) (hnames : DistinctNames known)
    (hknown : known w) {pod : Pod} (hpod : s.pods (podKey settings w) = some pod) :
    owner pod = w := by
  obtain ⟨-, howner, hplace⟩ := hs.pods _ pod hpod
  have hname : (podKey settings w).name = (podKey settings (owner pod)).name :=
    congrArg ObjectKey.name hplace
  exact hnames _ _ howner hknown hname.symm

/-- The Cache is the same or has a new version. -/
structure Advances (w : ObjectKey) (s t : Shared) : Prop where
  /-- Versions grow. -/
  revision : s.revision ≤ t.revision
  /-- A changed Cache has a new version. -/
  caches : t.caches w = s.caches w ∨ ∀ c, t.caches w = some c → s.revision < c.resourceVersion

/-- What advances twice advances. -/
theorem Advances.trans (h : Advances w s t) (h' : Advances w t u) : Advances w s u where
  revision := h.revision.trans h'.revision
  caches := by
    rcases h'.caches with hsame | hnew
    · rw [hsame]
      exact h.caches
    · refine Or.inr fun c hc => ?_
      have hlater := hnew c hc
      have hmore := h.revision
      omega

/-- What the reconcile of a Cache tolerates from the others. -/
structure Tolerates (settings : Settings) (w : ObjectKey) (s t : Shared) : Prop
    extends Advances w s t where
  /-- Nobody else notes what the reconcile has read. -/
  waiting : t.waiting w = s.waiting w
  /-- Nobody else creates the Pod. -/
  pods : s.pods (podKey settings w) = none → t.pods (podKey settings w) = none
  /-- Nobody else starts a reset. -/
  succeeded : s.succeeded w = true → t.succeeded w = true

/-- A reconcile tolerates that nothing happens. -/
theorem Tolerates.refl (settings : Settings) (w : ObjectKey) (s : Shared) :
    Tolerates settings w s s :=
  ⟨⟨le_rfl, Or.inl rfl⟩, rfl, fun h => h, fun h => h⟩

/-- It tolerates what it tolerates in two parts. -/
theorem Tolerates.trans (h : Tolerates settings w s t) (h' : Tolerates settings w t u) :
    Tolerates settings w s u where
  toAdvances := h.toAdvances.trans h'.toAdvances
  waiting := h'.waiting.trans h.waiting
  pods hs := h'.pods (h.pods hs)
  succeeded hs := h'.succeeded (h.succeeded hs)

/-- The object is the stored one, unless it has been changed. -/
structure Current (w : ObjectKey) (base : CacheResource) (s : Shared) : Prop where
  /-- The object is the Cache of the reconcile. -/
  key : base.key = w
  /-- Its version has been handed out. -/
  version : base.resourceVersion ≤ s.revision
  /-- Nothing else is stored under this version. -/
  stored : ∀ c, s.caches w = some c → c.resourceVersion = base.resourceVersion → c = base

/-- A version that is current stays so until the Cache has a new version. -/
theorem Current.advances {base : CacheResource} (h : Current w base s) (hr : Advances w s t) :
    Current w base t where
  key := h.key
  version := h.version.trans hr.revision
  stored := by
    intro c hc hversion
    rcases hr.caches with hsame | hnew
    · exact h.stored c (hsame ▸ hc) hversion
    · have hlater := hnew c hc
      have hbound := h.version
      omega

/-- A status that leaves the lock, the generation and `StorageReset` as they are. -/
structure SameReset (before after : FullStatus) : Prop where
  /-- The phase is kept. -/
  phase : after.phase = before.phase
  /-- The generation is kept. -/
  generation : after.cacheGeneration = before.cacheGeneration
  /-- The condition is kept. -/
  condition : statusOf after.conditions conditionStorageReset =
    statusOf before.conditions conditionStorageReset

/-- The object may be written back: it starts a reset only if there is no Pod, and
releases the Cache only if the Pod has succeeded or is waited for. -/
def Writable (settings : Settings) (w : ObjectKey) (c : CacheResource) (s : Shared) : Prop :=
  c.key = w ∧ ∃ base, Current w base s ∧ c.resourceVersion = base.resourceVersion ∧
    (startsReset base.status c.status = true → s.pods (podKey settings w) = none) ∧
    (Releases base.status c.status → s.succeeded w = true ∨ s.waiting w = true)

/-- An object that may be written may be so after what the others do. -/
theorem Writable.tolerates {c : CacheResource} (h : Writable settings w c s)
    (hr : Tolerates settings w s t) : Writable settings w c t := by
  obtain ⟨hkey, base, hbase, hversion, hstarts, hreleases⟩ := h
  refine ⟨hkey, base, hbase.advances hr.toAdvances, hversion, fun hs => hr.pods (hstarts hs), fun hs => ?_⟩
  rw [hr.waiting]
  exact (hreleases hs).imp_left hr.succeeded

/-- The object differs from the stored one in nothing that matters to a reset. -/
def Sync (w : ObjectKey) (c : CacheResource) (s : Shared) : Prop :=
  c.key = w ∧ ∃ base, Current w base s ∧ c.resourceVersion = base.resourceVersion ∧
    SameReset base.status c.status

/-- An object in sync stays so until the Cache has a new version. -/
theorem Sync.advances {c : CacheResource} (h : Sync w c s) (hr : Advances w s t) : Sync w c t := by
  obtain ⟨hkey, base, hbase, hversion, hsame⟩ := h
  exact ⟨hkey, base, hbase.advances hr, hversion, hsame⟩

/-- A current object is in sync. -/
theorem Current.sync {c : CacheResource} (h : Current w c s) : Sync w c s :=
  ⟨h.key, c, h, rfl, rfl, rfl, rfl⟩

/-- A status with the same reset releases nothing. -/
theorem SameReset.not_releases {before after : FullStatus} (h : SameReset before after) :
    ¬Releases before after := by
  rintro (⟨hafter, hbefore⟩ | ⟨hafter, hbefore⟩ | ⟨hbefore, hafter⟩)
  · exact hbefore (h.condition.symm.trans hafter)
  · exact hbefore (h.phase.symm.trans hafter)
  · exact hafter (h.phase.trans hbefore)

/-- It starts no reset either. -/
theorem SameReset.not_starts {before after : FullStatus} (h : SameReset before after) :
    startsReset before after = false := by
  simp only [startsReset, h.phase, h.generation]
  cases before.phase <;> simp

/-- An object in sync may be written. -/
theorem Sync.writable {c : CacheResource} (h : Sync w c s) : Writable settings w c s := by
  obtain ⟨hkey, base, hbase, hversion, hsame⟩ := h
  refine ⟨hkey, base, hbase, hversion, fun hs => ?_, fun hs => absurd hs hsame.not_releases⟩
  rw [hsame.not_starts] at hs
  cases hs

/-- Setting another condition does not concern the reset. -/
theorem Sync.withCondition {c : CacheResource} (h : Sync w c s) (now : Time)
    (status : ConditionStatus) (reason message : String) :
    Sync w (setPodsClearedCondition now c status reason message).2 s := by
  obtain ⟨hkey, base, hbase, hversion, hsame⟩ := h
  refine ⟨hkey, base, hbase, hversion, hsame.phase, hsame.generation, ?_⟩
  have hne : conditionPodsCleared ≠ conditionStorageReset := by decide
  exact (statusOf_setCondition_of_ne now hne c.status.conditions).trans hsame.condition

end Knowledge

section Requests

variable {settings : Settings} {known : ObjectKey → Prop} {w : ObjectKey} {s t : Shared}
variable {fault : Fault} {r : Req}

/-- The update is not stored: it fails without effect, or the Cache has changed. -/
def UpdateLost (s : Cluster) (fault : Fault) (c : CacheResource) : Prop :=
  (fault.failure.isSome ∧ fault.lost = false) ∨
    ∀ stored, s.caches c.key = some stored → stored.resourceVersion ≠ c.resourceVersion

/-- What a request of the reconcile of a Cache keeps. -/
structure Guarantees (settings : Settings) (known : ObjectKey → Prop) (w : ObjectKey)
    (s t : Shared) : Prop where
  /-- The Cache is only released after the Pod has succeeded. -/
  gated : ∀ c, s.caches w = some c → Gated (s.succeeded w) c (t.caches w)
  /-- Other Caches are left alone. -/
  caches : ∀ v, v ≠ w → t.caches v = s.caches v
  /-- The record about other Caches is left alone. -/
  succeeded : ∀ v, v ≠ w → t.succeeded v = s.succeeded v
  /-- The notes of other reconciles are left alone. -/
  waiting : ∀ v, v ≠ w → t.waiting v = s.waiting v
  /-- Versions grow. -/
  revision : s.revision ≤ t.revision
  /-- Only the Pod of the Cache is changed. -/
  pods : ∀ key, t.pods key ≠ s.pods key → known w ∧ key = podKey settings w

/-- The requests the reconcile of a Cache makes in a state. -/
def Proper (settings : Settings) (known : ObjectKey → Prop) (w : ObjectKey) (s : Shared) :
    Req → Prop
  | .getCache _ => True
  | .updateCache c => c.key = w ∧ ∀ stored, s.caches w = some stored →
      c.resourceVersion = stored.resourceVersion → stored.finalizers ⊆ c.finalizers
  | .updateCacheStatus c => Writable settings w c s
  | .getPod _ => True
  | .createPod pod => known w ∧ pod.key = podKey settings w ∧ owner pod = w
  | .deletePod key => known w ∧ key = podKey settings w
  | .now => True

/-- Storing a status stores the merged Cache. -/
theorem caches_putStatus (s : Cluster) (stored c : CacheResource) :
    (s.putStatus stored c).caches = (s.putCache (Cluster.mergeCacheStatus stored c)).caches := by
  unfold Cluster.putStatus
  dsimp only
  split <;> rfl

/-- It leaves the Pods as they are. -/
theorem pods_putStatus (s : Cluster) (stored c : CacheResource) :
    (s.putStatus stored c).pods = s.pods := by
  unfold Cluster.putStatus
  dsimp only
  split <;> rfl

/-- It takes a new revision. -/
theorem revision_putStatus (s : Cluster) (stored c : CacheResource) :
    (s.putStatus stored c).revision = s.revision + 1 := by
  unfold Cluster.putStatus
  dsimp only
  split <;> rfl

/-- A success is forgotten only if the status starts another reset. -/
theorem succeeded_putStatus (s : Cluster) (stored c : CacheResource) :
    (s.putStatus stored c).succeeded = s.succeeded ∨
      startsReset stored.status c.status = true ∧
        (s.putStatus stored c).succeeded = Function.update s.succeeded stored.key false := by
  unfold Cluster.putStatus
  dsimp only
  split
  · next hstarts => exact Or.inr ⟨hstarts, rfl⟩
  · exact Or.inl rfl

/-- What is stored under a key after a Cache has been stored. -/
theorem caches_putCache {s : Cluster} {c c' : CacheResource} {k : ObjectKey}
    (h : (s.putCache c).caches k = some c') :
    (k = c.key ∧ c' = { c with resourceVersion := s.revision + 1 }) ∨
      (k ≠ c.key ∧ s.caches k = some c') := by
  rcases of_update h with ⟨hk, hnew⟩ | hother
  · split at hnew
    · cases hnew
    · cases hnew
      exact Or.inl ⟨hk, rfl⟩
  · exact Or.inr hother

/-- Storing a Cache leaves the other Caches as they are. -/
theorem caches_putCache_of_ne {s : Cluster} {c : CacheResource} {k : ObjectKey} (h : k ≠ c.key) :
    (s.putCache c).caches k = s.caches k :=
  Function.update_of_ne h _ _

/-- Storing a known Cache under its key keeps the Caches well formed. -/
theorem Sound.putCache (hs : Sound settings known s) {c : CacheResource} (hknown : known c.key)
    {k : ObjectKey} {c' : CacheResource} (h : (s.putCache c).caches k = some c') :
    known k ∧ c'.key = k ∧ c'.resourceVersion ≤ s.revision + 1 := by
  rcases caches_putCache h with ⟨rfl, rfl⟩ | ⟨-, hbefore⟩
  · exact ⟨hknown, rfl, le_rfl⟩
  · obtain ⟨hk, hkey, hversion⟩ := hs.caches k c' hbefore
    exact ⟨hk, hkey, by omega⟩

/-- A status update that takes effect is based on the stored object. -/
theorem Writable.base {c stored : CacheResource} (h : Writable settings w c s)
    (hfound : s.caches c.key = some stored) (hversion : c.resourceVersion = stored.resourceVersion) :
    stored.key = w ∧
      (startsReset stored.status c.status = true → s.pods (podKey settings w) = none) ∧
      (Releases stored.status c.status → s.succeeded w = true ∨ s.waiting w = true) := by
  obtain ⟨hkey, base, hbase, hsame, hstarts, hreleases⟩ := h
  rw [hkey] at hfound
  have heq : stored = base := hbase.stored stored hfound (hversion.symm.trans hsame)
  subst heq
  exact ⟨hbase.key, hstarts, hreleases⟩

/-- An update that is lost has no effect. -/
theorem UpdateLost.serve {s : Cluster} {c : CacheResource} (h : UpdateLost s fault c) :
    (s.serve fault (.updateCacheStatus c)).2 = s := by
  have hanswer : (∀ stored, s.caches c.key = some stored →
      stored.resourceVersion ≠ c.resourceVersion) →
      (s.answer fault.graceful (.updateCacheStatus c)).2 = s := by
    intro hchanged
    simp only [Cluster.answer]
    split
    · rfl
    · next stored hfound =>
      rw [if_neg (fun heq => hchanged stored hfound heq.symm)]
  rcases h with ⟨hfails, hlost⟩ | hchanged
  · obtain ⟨failure, hfailure⟩ := Option.isSome_iff_exists.mp hfails
    simp only [Cluster.serve, hfailure, Option.bind_some, failed, hlost, Bool.false_eq_true, if_false]
  · unfold Cluster.serve
    split
    · exact hanswer hchanged
    · split
      · exact hanswer hchanged
      · rfl

/-- Nothing but the reconcile's own note has changed. -/
theorem kept_note (hs : Sound settings known s) {waiting : ObjectKey → Bool}
    (hwaiting : ∀ v, v ≠ w → waiting v = s.waiting v) :
    Sound settings known ⟨s.toCluster, waiting⟩ ∧
      Guarantees settings known w s ⟨s.toCluster, waiting⟩ := by
  refine ⟨⟨hs.caches, hs.pods, hs.success⟩, ?_⟩
  exact {
    gated := fun c hc => by
      rw [hc]
      exact .refl _ c
    caches := fun _ _ => rfl
    succeeded := fun _ _ => rfl
    waiting := hwaiting
    revision := le_rfl
    pods := fun _ h => absurd rfl h }

/-- Only the Pod of the Cache and the reconcile's own note have changed. -/
theorem kept_pod (hs : Sound settings known s) (hknown : known w) {pod : Option Pod}
    {waiting : ObjectKey → Bool} (hwaiting : ∀ v, v ≠ w → waiting v = s.waiting v)
    (hpod : ∀ stored, pod = some stored → stored.key = podKey settings w ∧ owner stored = w ∧
      (stored.phase = .succeeded → s.succeeded w = true)) :
    Sound settings known
        ⟨{ s.toCluster with pods := Function.update s.pods (podKey settings w) pod }, waiting⟩ ∧
      Guarantees settings known w s
        ⟨{ s.toCluster with pods := Function.update s.pods (podKey settings w) pod }, waiting⟩ := by
  refine ⟨⟨hs.caches, ?_, ?_⟩, ?_⟩
  · intro key stored hstored
    rcases of_update hstored with ⟨rfl, hnew⟩ | ⟨-, hsame⟩
    · obtain ⟨hname, howner, -⟩ := hpod stored hnew
      exact ⟨hname, howner.symm ▸ hknown, by rw [howner]⟩
    · exact hs.pods key stored hsame
  · intro key stored hstored hphase
    rcases of_update hstored with ⟨rfl, hnew⟩ | ⟨-, hsame⟩
    · obtain ⟨-, howner, hsucceeded⟩ := hpod stored hnew
      rw [howner]
      exact hsucceeded hphase
    · exact hs.success key stored hsame hphase
  · exact {
      gated := fun c hc => by
        rw [hc]
        exact .refl _ c
      caches := fun _ _ => rfl
      succeeded := fun _ _ => rfl
      waiting := hwaiting
      revision := le_rfl
      pods := by
        intro key hchanged
        by_cases hkey : key = podKey settings w
        · exact ⟨hknown, hkey⟩
        · exact absurd (Function.update_of_ne hkey _ _) hchanged }

/-- The Cache is stored again with its finalizers. -/
theorem kept_update (hs : Sound settings known s) {stored c : CacheResource}
    (hfound : s.caches w = some stored) (hkey : c.key = w)
    (hfinalizers : stored.finalizers ⊆ c.finalizers) (hstatus : c.status = stored.status)
    {waiting : ObjectKey → Bool} (hwaiting : ∀ v, v ≠ w → waiting v = s.waiting v) :
    Sound settings known ⟨s.toCluster.putCache c, waiting⟩ ∧
      Guarantees settings known w s ⟨s.toCluster.putCache c, waiting⟩ := by
  obtain ⟨hknown, -, -⟩ := hs.caches w stored hfound
  subst hkey
  refine ⟨⟨fun k c' hc' => hs.putCache hknown hc', hs.pods, hs.success⟩, ?_⟩
  exact {
    gated := by
      intro before hbefore
      cases hfound.symm.trans hbefore
      refine gated_putCache (fun h => hfinalizers h) fun h => ?_
      rw [hstatus] at h
      exact absurd h (not_releases_self _)
    caches := fun v hv => caches_putCache_of_ne hv
    succeeded := fun _ _ => rfl
    waiting := hwaiting
    revision := Nat.le_succ _
    pods := fun _ h => absurd rfl h }

/-- A status is stored that may be. -/
theorem kept_status (hs : Sound settings known s) {stored c : CacheResource}
    (hfound : s.caches w = some stored) (hkey : stored.key = w)
    (hstarts : startsReset stored.status c.status = true → s.pods (podKey settings w) = none)
    (hreleases : Releases stored.status c.status → s.succeeded w = true)
    {waiting : ObjectKey → Bool} (hwaiting : ∀ v, v ≠ w → waiting v = s.waiting v) :
    Sound settings known ⟨s.toCluster.putStatus stored c, waiting⟩ ∧
      Guarantees settings known w s ⟨s.toCluster.putStatus stored c, waiting⟩ := by
  obtain ⟨hknown, -, -⟩ := hs.caches w stored hfound
  subst hkey
  have hcaches := caches_putStatus s.toCluster stored c
  have hpods := pods_putStatus s.toCluster stored c
  have hrevision := revision_putStatus s.toCluster stored c
  have hsucceeded := succeeded_putStatus s.toCluster stored c
  refine ⟨⟨?_, ?_, ?_⟩, ?_⟩
  · intro k c' hc'
    dsimp only at hc' ⊢
    rw [hcaches] at hc'
    rw [hrevision]
    exact hs.putCache (c := Cluster.mergeCacheStatus stored c) hknown hc'
  · intro key pod hpod
    dsimp only at hpod
    rw [hpods] at hpod
    exact hs.pods key pod hpod
  · intro key pod hpod hphase
    dsimp only at hpod ⊢
    rw [hpods] at hpod
    have hbefore := hs.success key pod hpod hphase
    rcases hsucceeded with hsame | ⟨hnew, hreset⟩
    · rw [hsame]
      exact hbefore
    · -- a reset that starts finds no Pod, so the succeeded Pod is that of another Cache
      have hne : owner pod ≠ stored.key := by
        intro heq
        obtain ⟨-, -, hplace⟩ := hs.pods key pod hpod
        rw [heq] at hplace
        rw [hplace, hstarts hnew] at hpod
        cases hpod
      rw [hreset, Function.update_of_ne hne]
      exact hbefore
  · exact {
      gated := by
        intro before hbefore
        cases hfound.symm.trans hbefore
        dsimp only
        rw [hcaches]
        exact gated_putCache (c := Cluster.mergeCacheStatus stored c) (fun h => h) hreleases
      caches := by
        intro v hv
        dsimp only
        rw [hcaches]
        exact caches_putCache_of_ne hv
      succeeded := by
        intro v hv
        dsimp only
        rcases hsucceeded with hsame | ⟨-, hreset⟩
        · rw [hsame]
        · rw [hreset, Function.update_of_ne hv]
      waiting := hwaiting
      revision := by
        dsimp only
        omega
      pods := by
        intro key hchanged
        dsimp only at hchanged
        rw [hpods] at hchanged
        exact absurd rfl hchanged }

/-- A proper request keeps the invariant and its guarantee. -/
theorem proper_serve (hnames : DistinctNames known) (hs : Sound settings known s)
    (hproper : Proper settings known w s r)
    (hlost : ∀ c, r = .updateCacheStatus c → s.waiting w = true → UpdateLost s.toCluster fault c) :
    Sound settings known (s.serve w fault r).2 ∧
      Guarantees settings known w s (s.serve w fault r).2 := by
  have hwaiting : ∀ v, v ≠ w → Function.update s.waiting w
      (waits (s.waiting w) r (s.toCluster.serve fault r).1) v = s.waiting v :=
    fun v hv => Function.update_of_ne hv _ _
  unfold Shared.serve
  dsimp only
  rcases serve_snd s.toCluster fault r with hsame | heffect
  · rw [hsame]
    exact kept_note hs hwaiting
  · generalize (s.toCluster.serve fault r).1 = response at hwaiting ⊢
    generalize hafter : (s.toCluster.serve fault r).2 = after at heffect ⊢
    cases heffect with
    | @updateCache c stored found current =>
      obtain ⟨hkey, hfinalizers⟩ := hproper
      rw [hkey] at found
      obtain ⟨-, hstored, -⟩ := hs.caches w stored found
      exact kept_update (c := Cluster.mergeCache stored c) hs found hstored
        (hfinalizers stored found current) rfl hwaiting
    | @updateCacheStatus c stored found current =>
      obtain ⟨hstored, hstarts, hreleases⟩ := Writable.base hproper found current
      by_cases hwait : s.waiting w = true
      · rw [(hlost c rfl hwait).serve] at hafter
        rw [← hafter]
        exact kept_note hs hwaiting
      · rw [hproper.1] at found
        exact kept_status hs found hstored hstarts
          (fun h => (hreleases h).resolve_right hwait) hwaiting
    | @createPod pod absent =>
      obtain ⟨hknown, hkey, howner⟩ := hproper
      rw [Cluster.putPod]
      dsimp only
      rw [hkey]
      refine kept_pod hs hknown hwaiting ?_
      rintro created hcreated
      cases hcreated
      exact ⟨rfl, howner, fun hphase => by cases hphase⟩
    | @deletePod key pod found =>
      obtain ⟨hknown, rfl⟩ := hproper
      obtain ⟨hkey, -, -⟩ := hs.pods _ pod found
      have howner := hs.owner_eq hnames hknown found
      unfold Cluster.markPod
      split
      · rw [Cluster.putPod]
        dsimp only
        rw [hkey]
        refine kept_pod hs hknown hwaiting ?_
        rintro marked hmarked
        cases hmarked
        refine ⟨rfl, howner, fun hphase => ?_⟩
        have hsuccess := hs.success _ pod found hphase
        rwa [howner] at hsuccess
      · rw [Cluster.dropPod, hkey]
        exact kept_pod hs hknown hwaiting fun _ h => by cases h

/-- A Cache that is stored gets a new version. -/
theorem version_putCache (s : Cluster) (c : CacheResource) (w : ObjectKey) :
    (s.putCache c).caches w = s.caches w ∨
      ∀ c', (s.putCache c).caches w = some c' → s.revision < c'.resourceVersion := by
  by_cases hw : w = c.key
  · refine Or.inr fun c' hc' => ?_
    rcases caches_putCache hc' with ⟨-, rfl⟩ | ⟨hne, -⟩
    · exact Nat.lt_succ_self _
    · exact absurd hw hne
  · exact Or.inl (caches_putCache_of_ne hw)

/-- Whatever a request does, a changed Cache gets a new version. -/
theorem advances_serve (v : ObjectKey) (s : Shared) (fault : Fault) (r : Req) :
    Advances w s (s.serve v fault r).2 := by
  unfold Shared.serve
  dsimp only
  rcases serve_snd s.toCluster fault r with hsame | heffect
  · rw [hsame]
    exact ⟨le_rfl, Or.inl rfl⟩
  · generalize (s.toCluster.serve fault r).1 = response
    generalize (s.toCluster.serve fault r).2 = after at heffect ⊢
    cases heffect with
    | updateCache found current => exact ⟨Nat.le_succ _, version_putCache _ _ w⟩
    | @updateCacheStatus c stored found current =>
      have hcaches := caches_putStatus s.toCluster stored c
      have hrevision := revision_putStatus s.toCluster stored c
      refine ⟨?_, ?_⟩
      · dsimp only
        omega
      · dsimp only
        rw [hcaches]
        exact version_putCache _ _ w
    | createPod absent => exact ⟨le_rfl, Or.inl rfl⟩
    | deletePod found =>
      unfold Cluster.markPod
      split
      · exact ⟨le_rfl, Or.inl rfl⟩
      · exact ⟨le_rfl, Or.inl rfl⟩

/-- What the reconcile of one Cache guarantees, those of the others tolerate. -/
theorem Guarantees.tolerates {v : ObjectKey} (h : Guarantees settings known w s t)
    (hnames : DistinctNames known) (hknown : known v) (hne : v ≠ w) : Tolerates settings v s t where
  revision := h.revision
  caches := Or.inl (h.caches v hne)
  waiting := h.waiting v hne
  pods := by
    intro hnone
    by_contra hsome
    have hchanged : t.pods (podKey settings v) ≠ s.pods (podKey settings v) := by
      rw [hnone]
      exact hsome
    obtain ⟨hw, hplace⟩ := h.pods _ hchanged
    have hname : (podKey settings v).name = (podKey settings w).name :=
      congrArg ObjectKey.name hplace
    exact hne (hnames v w hknown hw hname)
  succeeded hs := (h.succeeded v hne).trans hs

end Requests

section Others

variable {settings : Settings} {known : ObjectKey → Prop} {w : ObjectKey} {s : Shared}
variable {t : Cluster} {e : Env}

/-- The effects of the others. -/
inductive Acts (s : Cluster) : Env → Cluster → Prop
  | storeCache {e : Env} {c stored : CacheResource} (found : s.caches c.key = some stored)
      (finalizers : c.finalizers = stored.finalizers)
      (phase : c.status.phase = stored.status.phase)
      (conditions : c.status.conditions = stored.status.conditions) : Acts s e (s.putCache c)
  | unchanged {e : Env} {clock : Time} : Acts s e { s with clock := clock }
  | podPhase {key : ObjectKey} {pod : Pod} {phase : KubeObjects.PodPhase}
      (found : s.pods key = some pod) (unsuccessful : phase ≠ .succeeded) :
      Acts s (.podPhase key phase) (s.putPod { pod with phase := phase })
  | podSucceeds {key : ObjectKey} {pod : Pod} (found : s.pods key = some pod) :
      Acts s (.podPhase key .succeeded) { s.putPod { pod with phase := .succeeded } with
        succeeded := Function.update s.succeeded (owner pod) true }
  | removePod {key : ObjectKey} : Acts s (.removePod key) (s.dropPod key)

/-- Every step of the others has one of the listed effects. -/
theorem acts_of_act {s : Cluster} (hkeys : ∀ k c, s.caches k = some c → c.key = k)
    (h : act s e = some t) : Acts s e t := by
  cases e with
  | deleteCache key =>
    obtain ⟨c, hfound, rfl⟩ := Option.map_eq_some_iff.mp h
    split
    · have hsame : Acts s (.deleteCache key) { s with clock := s.clock } := .unchanged
      exact hsame
    · have hstored : s.caches c.key = some c := (hkeys key c hfound).symm ▸ hfound
      exact .storeCache (c := { c with deleting := true }) hstored rfl rfl rfl
  | editCache key generation status =>
    obtain ⟨c, hfound, rfl⟩ := Option.map_eq_some_iff.mp h
    have hstored : s.caches c.key = some c := (hkeys key c hfound).symm ▸ hfound
    exact .storeCache (c := edited c generation status) hstored rfl rfl rfl
  | podPhase key phase =>
    simp only [act] at h
    split at h
    · cases h
    · next pod hfound =>
      split at h
      · cases h
      · split at h
        · next hphase =>
          cases h
          subst hphase
          exact .podSucceeds hfound
        · next hphase =>
          cases h
          exact .podPhase hfound hphase
  | removePod key =>
    simp only [act] at h
    split at h
    · cases h
    · split at h
      · cases h
        exact .removePod
      · cases h
  | tick duration =>
    cases h
    exact .unchanged

/-- A status with the same phase and conditions releases nothing. -/
theorem not_releases_of_same {before after : FullStatus} (hphase : after.phase = before.phase)
    (hconditions : after.conditions = before.conditions) : ¬Releases before after := by
  rintro (⟨hafter, hbefore⟩ | ⟨hafter, hbefore⟩ | ⟨hbefore, hafter⟩)
  · rw [StorageReset, hconditions] at hafter
    exact hbefore hafter
  · exact hbefore (hphase.symm.trans hafter)
  · exact hafter (hphase.trans hbefore)

/-- The others release no Cache. -/
theorem Acts.gated (h : Acts s.toCluster e t) {k : ObjectKey} {before : CacheResource}
    (hbefore : s.caches k = some before) :
    Gated (s.succeeded k) before (t.caches k) := by
  have hsame : Gated (s.succeeded k) before (s.caches k) := by
    rw [hbefore]
    exact .refl _ before
  cases h with
  | @storeCache _ c stored found finalizers phase conditions =>
    by_cases hk : k = c.key
    · subst hk
      cases found.symm.trans hbefore
      refine gated_putCache (fun hmem => finalizers.symm ▸ hmem) fun hreleases => ?_
      exact absurd hreleases (not_releases_of_same phase conditions)
    · rw [caches_putCache_of_ne hk]
      exact hsame
  | unchanged => exact hsame
  | podPhase found unsuccessful => exact hsame
  | podSucceeds found => exact hsame
  | removePod => exact hsame

/-- A Pod that gets into another phase stays the Pod of its Cache. -/
theorem Sound.pods_putPod (hs : Sound settings known s) {key : ObjectKey} {pod : Pod}
    (hfound : s.pods key = some pod) {phase : KubeObjects.PodPhase} {key' : ObjectKey}
    {stored : Pod} (h : (s.putPod { pod with phase := phase }).pods key' = some stored) :
    (key' = key ∧ stored = { pod with phase := phase }) ∨ s.pods key' = some stored := by
  obtain ⟨hplace, -, -⟩ := hs.pods key pod hfound
  rcases of_update h with ⟨hkey, hnew⟩ | ⟨-, hsame⟩
  · cases hnew
    exact Or.inl ⟨hkey.trans hplace, rfl⟩
  · exact Or.inr hsame

/-- A Pod in another phase belongs to the same Cache. -/
theorem Sound.pods_phase (hs : Sound settings known s) {key : ObjectKey} {pod : Pod}
    {phase : KubeObjects.PodPhase} (found : s.pods key = some pod) {key' : ObjectKey} {stored : Pod}
    (h : (s.putPod { pod with phase := phase }).pods key' = some stored) :
    stored.key = key' ∧ known (owner stored) ∧ key' = podKey settings (owner stored) := by
  rcases hs.pods_putPod found h with ⟨rfl, rfl⟩ | hbefore
  · exact hs.pods key' pod found
  · exact hs.pods key' stored hbefore

/-- The others keep the invariant and are tolerated. -/
theorem Acts.sound (h : Acts s.toCluster e t) (hs : Sound settings known s) :
    Sound settings known ⟨t, s.waiting⟩ := by
  cases h with
  | @storeCache _ c stored found finalizers phase conditions =>
    obtain ⟨hknown, -, -⟩ := hs.caches _ stored found
    exact ⟨fun k c' hc' => hs.putCache hknown hc', hs.pods, hs.success⟩
  | unchanged => exact ⟨hs.caches, hs.pods, hs.success⟩
  | @podPhase key pod phase found unsuccessful =>
    refine ⟨hs.caches, fun key' stored h => hs.pods_phase found h, ?_⟩
    intro key' stored h hphase
    rcases hs.pods_putPod found h with ⟨rfl, rfl⟩ | hbefore
    · exact absurd hphase unsuccessful
    · exact hs.success key' stored hbefore hphase
  | @podSucceeds key pod found =>
    refine ⟨hs.caches, fun key' stored h => hs.pods_phase found h, ?_⟩
    intro key' stored h hphase
    dsimp only
    by_cases howner : owner stored = owner pod
    · rw [howner, Function.update_self]
    · rw [Function.update_of_ne howner]
      rcases hs.pods_putPod found h with ⟨-, rfl⟩ | hbefore
      · exact absurd rfl howner
      · exact hs.success key' stored hbefore hphase
  | @removePod key =>
    have hbefore : ∀ key' stored, (s.dropPod key).pods key' = some stored →
        s.pods key' = some stored := by
      intro key' stored h
      rcases of_update h with ⟨-, hnone⟩ | ⟨-, hsame⟩
      · cases hnone
      · exact hsame
    exact ⟨hs.caches, fun key' stored h => hs.pods key' stored (hbefore key' stored h),
      fun key' stored h => hs.success key' stored (hbefore key' stored h)⟩

/-- A reconcile tolerates every step of the others. -/
theorem Acts.tolerates (h : Acts s.toCluster e t) (hs : Sound settings known s) :
    Tolerates settings w s ⟨t, s.waiting⟩ := by
  have hput : ∀ (key : ObjectKey) (pod changed : Pod), s.pods key = some pod →
      changed.key = pod.key → s.pods (podKey settings w) = none →
      (s.putPod changed).pods (podKey settings w) = none := by
    intro key pod changed found hkey hnone
    obtain ⟨hplace, -, -⟩ := hs.pods key pod found
    have hne : podKey settings w ≠ key := by
      rintro rfl
      rw [hnone] at found
      cases found
    simp only [Cluster.putPod, hkey, hplace, Function.update_of_ne hne]
    exact hnone
  cases h with
  | @storeCache _ c stored found finalizers phase conditions =>
    exact ⟨⟨Nat.le_succ _, version_putCache _ c w⟩, rfl, fun hnone => hnone, fun hsuccess => hsuccess⟩
  | unchanged => exact ⟨⟨le_rfl, Or.inl rfl⟩, rfl, fun hnone => hnone, fun hsuccess => hsuccess⟩
  | podPhase found unsuccessful =>
    exact ⟨⟨le_rfl, Or.inl rfl⟩, rfl, hput _ _ _ found rfl, fun hsuccess => hsuccess⟩
  | @podSucceeds key pod found =>
    refine ⟨⟨le_rfl, Or.inl rfl⟩, rfl, hput _ _ _ found rfl, fun hsuccess => ?_⟩
    by_cases howner : w = owner pod
    · subst howner
      exact Function.update_self _ _ _
    · exact (Function.update_of_ne howner _ _).trans hsuccess
  | @removePod key =>
    refine ⟨⟨le_rfl, Or.inl rfl⟩, rfl, fun hnone => ?_, fun hsuccess => hsuccess⟩
    simp only [Cluster.dropPod]
    by_cases hkey : podKey settings w = key
    · rw [hkey, Function.update_self]
    · rw [Function.update_of_ne hkey]
      exact hnone

end Others

end K8StorageX.CacheReset
