import K8StorageX.CacheRelease
import K8StorageX.RunningPrograms

/-!
# The finalizer of a Cache stays

`finalize` takes the finalizer off its local object and writes that object with
`Status().Update`, which stores the status only. The one `Update` of the controller adds
the finalizer. So no run takes it away, and a Cache that has it is never removed.
-/

namespace K8StorageX.CacheFinalizers

open ApiProgram WorkerPool GoErrors CacheModel Conditions CacheController CacheReset CacheRelease
open KubeObjects (ObjectKey hasString addString removeString)
open KubeApi (Fault)

/-- An `Update` of a Cache writes the finalizer. -/
def KeepsFinalizer : Req → Prop
  | .updateCache c => cacheFinalizer ∈ c.finalizers
  | _ => True

section Requests

variable {settings : Settings} {key : ObjectKey} {name : String} {cache : CacheResource}

/-- `ReconcilePod` keeps the finalizer if what creates the Pod does. -/
theorem issues_reconcilePod {create : Controller (Except GoError Pod × CacheResource)}
    (hcreate : create.Issues KeepsFinalizer) :
    (reconcilePod key cache create).Issues KeepsFinalizer := by
  refine Prog.Issues.request_bind trivial fun read => ?_
  split
  · trivial
  · split
    · refine Prog.Issues.bind hcreate fun made => ?_
      split
      · trivial
      · refine Prog.Issues.request_bind trivial fun created => ?_
        split
        · trivial
        · split
          · refine Prog.Issues.request_bind trivial fun again => ?_
            split <;> trivial
          · trivial
    · trivial

/-- Locking a Cache keeps the finalizer. -/
theorem issues_lockCache : (lockCache settings cache).Issues KeepsFinalizer := by
  refine Prog.Issues.request_bind trivial fun now => ?_
  dsimp only
  split
  · refine Prog.Issues.request_bind trivial fun updated => ?_
    split
    · trivial
    · refine Prog.Issues.request_bind trivial fun read => ?_
      split <;> trivial
  · trivial

/-- So does deleting its Pod. -/
theorem issues_deletePod : (deletePod settings name).Issues KeepsFinalizer := by
  refine Prog.Issues.request_bind trivial fun read => ?_
  split
  · split <;> trivial
  · refine Prog.Issues.request_bind trivial fun deleted => ?_
    split <;> trivial

/-- So does deleting all its Pods. -/
theorem issues_deletePods : (deletePods settings cache name).Issues KeepsFinalizer := by
  unfold deletePods
  split
  · trivial
  · refine Prog.Issues.bind issues_deletePod fun err => ?_
    refine Prog.Issues.request_bind trivial fun now => ?_
    dsimp only
    split
    · refine Prog.Issues.request_bind trivial fun updated => ?_
      split <;> trivial
    · trivial

/-- So does the report of a failure. -/
theorem issues_reportFailure {done : Bool} {err : GoError} :
    (reportFailure cache done err).Issues KeepsFinalizer := by
  refine Prog.Issues.request_bind trivial fun now => ?_
  dsimp only
  split
  · refine Prog.Issues.request_bind trivial fun updated => ?_
    split <;> trivial
  · trivial

/-- So does the report of success. -/
theorem issues_reportSuccess : (reportSuccess settings cache).Issues KeepsFinalizer := by
  refine Prog.Issues.request_bind trivial fun now => ?_
  refine Prog.Issues.request_bind trivial fun resetTime => ?_
  refine Prog.Issues.request_bind trivial fun updated => ?_
  split
  · trivial
  · exact issues_deletePods

/-- So does `freeStorage`. -/
theorem issues_freeStorage : (freeStorage settings cache).Issues KeepsFinalizer := by
  unfold freeStorage
  dsimp only
  split
  · exact issues_deletePods
  · refine Prog.Issues.bind (issues_reconcilePod issues_lockCache) fun result => ?_
    split
    · exact issues_reportFailure
    · exact issues_reportSuccess

/-- So does `finalize`, which takes the finalizer off in memory and never writes it with
`Update`. -/
theorem issues_finalize : (finalize settings cache).Issues KeepsFinalizer := by
  refine Prog.Issues.bind issues_freeStorage fun result => ?_
  split
  · trivial
  · split
    · refine Prog.Issues.request_bind trivial fun updated => ?_
      split <;> trivial
    · trivial

/-- Every `Update` of a Cache has the finalizer. -/
theorem issues_reconcile : (reconcile settings key).Issues KeepsFinalizer := by
  refine Prog.Issues.request_bind trivial fun read => ?_
  split
  · split <;> trivial
  · split
    · exact issues_finalize
    · dsimp only
      split
      · refine Prog.Issues.request_bind (KubeObjects.mem_addString _ _) fun updated => ?_
        split <;> trivial
      · trivial

end Requests

section Steps

variable {settings : Settings} {s t u : Cluster} {k : ObjectKey} {c : CacheResource}

/-- Caches are stored under their own keys. -/
def Keyed (s : Cluster) : Prop := ∀ k c, s.caches k = some c → c.key = k

/-- The Cache has the finalizer, and is being deleted if it was so before. -/
def Guarded (before : CacheResource) (s : Cluster) (k : ObjectKey) : Prop :=
  ∃ c, s.caches k = some c ∧ cacheFinalizer ∈ c.finalizers ∧ (before.deleting → c.deleting)

/-- The stored Caches are well placed, and those with the finalizer stay and keep it. -/
structure Protects (s t : Cluster) : Prop where
  /-- Keys are kept. -/
  keyed : Keyed t
  /-- Guarded Caches stay. -/
  guarded : ∀ k c, s.caches k = some c → cacheFinalizer ∈ c.finalizers → Guarded c t k

/-- A step that leaves the Caches as they are protects them. -/
theorem Protects.of_caches (hs : Keyed s) (h : t.caches = s.caches) : Protects s t where
  keyed k c hc := hs k c (h ▸ hc)
  guarded _ c hc hmem := ⟨c, h ▸ hc, hmem, fun hdeleting => hdeleting⟩

/-- Two steps that protect the Caches do so together. -/
theorem Protects.trans (h : Protects s t) (h' : Protects t u) : Protects s u where
  keyed := h'.keyed
  guarded := by
    intro k c hc hmem
    obtain ⟨c', hc', hmem', hdeleting⟩ := h.guarded k c hc hmem
    obtain ⟨c'', hc'', hmem'', hdeleting'⟩ := h'.guarded k c' hc' hmem'
    exact ⟨c'', hc'', hmem'', fun hbefore => hdeleting' (hdeleting hbefore)⟩

/-- A Cache with a finalizer is not removed when it is stored. -/
theorem caches_putCache_self (hmem : cacheFinalizer ∈ c.finalizers) :
    (s.putCache c).caches c.key = some { c with resourceVersion := s.revision + 1 } := by
  have hne : c.finalizers.isEmpty = false := by
    rw [List.isEmpty_eq_false_iff]
    exact List.ne_nil_of_mem hmem
  simp [Cluster.putCache, hne]

/-- Storing a Cache that keeps the finalizer and the deletion mark of the stored one. -/
theorem protects_putCache (hs : Keyed s) {stored : CacheResource}
    (hstored : s.caches c.key = some stored)
    (hfinalizer : cacheFinalizer ∈ stored.finalizers → cacheFinalizer ∈ c.finalizers)
    (hdeleting : stored.deleting → c.deleting) : Protects s (s.putCache c) where
  keyed := by
    intro k c' hc'
    rcases caches_putCache hc' with ⟨rfl, rfl⟩ | ⟨-, hbefore⟩
    · rfl
    · exact hs k c' hbefore
  guarded := by
    intro k before hbefore hmem
    by_cases hk : k = c.key
    · subst hk
      have hsame : stored = before := Option.some.inj (hstored.symm.trans hbefore)
      subst hsame
      exact ⟨_, caches_putCache_self (hfinalizer hmem), hfinalizer hmem, hdeleting⟩
    · exact ⟨before, (caches_putCache_of_ne hk).trans hbefore, hmem, fun h => h⟩

/-- A request with the finalizer protects the Caches. -/
theorem protects_effect {graceful : Bool} {r : Req} (hs : Keyed s) (hr : KeepsFinalizer r)
    (h : Effect s graceful r t) : Protects s t := by
  cases h with
  | @updateCache c stored found current =>
    have hkey : stored.key = c.key := hs _ _ found
    have hstored : s.caches (Cluster.mergeCache stored c).key = some stored :=
      (congrArg s.caches hkey).trans found
    exact protects_putCache hs hstored (fun _ => hr) fun h => h
  | @updateCacheStatus c stored found current =>
    have hkey : stored.key = c.key := hs _ _ found
    have hput : Protects s (s.putCache (Cluster.mergeCacheStatus stored c)) := by
      have hstored : s.caches (Cluster.mergeCacheStatus stored c).key = some stored :=
        (congrArg s.caches hkey).trans found
      exact protects_putCache hs hstored (fun h => h) fun h => h
    have hcaches := caches_putStatus s stored c
    exact hput.trans (.of_caches hput.keyed hcaches)
  | createPod absent => exact .of_caches hs rfl
  | deletePod found => exact .of_caches hs (Cluster.caches_markPod ..)

/-- A served request with the finalizer protects the Caches, whether or not it fails. -/
theorem protects_serve {r : Req} (hs : Keyed s) (hr : KeepsFinalizer r) (fault : Fault) :
    Protects s (s.serve fault r).2 := by
  rcases serve_snd s fault r with hsame | heffect
  · rw [hsame]
    exact .of_caches hs rfl
  · exact protects_effect hs hr heffect

/-- What the others do protects the Caches. -/
theorem protects_act (hs : Keyed s) {e : Env} (h : act s e = some t) : Protects s t := by
  cases e with
  | deleteCache key =>
    obtain ⟨c, hfound, rfl⟩ := Option.map_eq_some_iff.mp h
    split
    · exact .of_caches hs rfl
    · have hstored : s.caches c.key = some c := (hs key c hfound).symm ▸ hfound
      exact protects_putCache (c := { c with deleting := true }) hs hstored (fun h => h) fun _ => rfl
  | editCache key generation status =>
    obtain ⟨c, hfound, rfl⟩ := Option.map_eq_some_iff.mp h
    have hstored : s.caches c.key = some c := (hs key c hfound).symm ▸ hfound
    exact protects_putCache (c := edited c generation status) hs hstored (fun h => h) fun h => h
  | podPhase key phase =>
    simp only [act] at h
    split at h
    · cases h
    · split at h
      · cases h
      · split at h
        · cases h
          exact .of_caches hs rfl
        · cases h
          exact .of_caches hs rfl
  | removePod key =>
    simp only [act] at h
    split at h
    · cases h
    · split at h
      · cases h
        exact .of_caches hs rfl
      · cases h
  | tick duration =>
    cases h
    exact .of_caches hs rfl

end Steps

section Runs

variable {settings : Settings} {st st' : ControllerState}

/-- The running reconciles write the finalizer. -/
def Writing (st : ControllerState) : Prop :=
  Keeping (fun _ _ r => KeepsFinalizer r) (fun _ _ _ => True) st

/-- The running reconciles write the finalizer after every step. -/
theorem Writing.step (h : Writing st) {e : ControllerEvent}
    (hstep : (controller settings).step st e = some st') : Writing st' := by
  refine Keeping.step h hstep (fun w j => ?_) (fun _ _ _ => trivial) fun _ _ _ => trivial
  exact Prog.traced_of_issues (fun _ _ hr => hr) issues_reconcile

/-- One step protects the Caches. -/
theorem protects_step (hs : Keyed st.shared.toCluster) (h : Writing st) {e : ControllerEvent}
    (hstep : (controller settings).step st e = some st') :
    Protects st.shared.toCluster st'.shared.toCluster := by
  cases System.taken_of_step hstep with
  | start _ hook =>
    cases hook
    exact .of_caches hs rfl
  | @serve w fault seen r next pending =>
    exact protects_serve hs (Keeping.request h pending) fault
  | finish _ hook =>
    cases hook
    exact .of_caches hs rfl
  | crash hook =>
    cases hook
    exact .of_caches hs rfl
  | env hook =>
    obtain ⟨cluster, hact, rfl⟩ := Option.map_eq_some_iff.mp hook
    exact protects_act hs hact

/-- A whole run protects the Caches. -/
theorem protects_run {es : List ControllerEvent} (hs : Keyed st.shared.toCluster)
    (h : Writing st) (hrun : (controller settings).run st es = some st') :
    Writing st' ∧ Protects st.shared.toCluster st'.shared.toCluster := by
  induction es generalizing st with
  | nil =>
    cases hrun
    exact ⟨h, .of_caches hs rfl⟩
  | cons e es ih =>
    obtain ⟨mid, hstep, hrest⟩ := Option.bind_eq_some_iff.mp hrun
    have hfirst := protects_step hs h hstep
    obtain ⟨hwriting, hlater⟩ := ih hfirst.keyed (h.step hstep) hrest
    exact ⟨hwriting, hfirst.trans hlater⟩

/-- A Cache that has the finalizer in some state of a run is there in every later state,
with the finalizer and, once it has been deleted, with its deletion mark: whatever the
reconciles, the API and the others do, it is never removed. -/
theorem protected_cache_remains {init : StoredCaches} {clock : Time}
    {es later : List ControllerEvent} {k : ObjectKey} {c : CacheResource}
    (hrun : (controller settings).run (idle (init.initial clock)) es = some st)
    (hc : st.shared.caches k = some c) (hfinalizer : cacheFinalizer ∈ c.finalizers)
    (hlater : (controller settings).run st later = some st') :
    ∃ c', st'.shared.caches k = some c' ∧ cacheFinalizer ∈ c'.finalizers ∧
      (c.deleting → c'.deleting) := by
  have hinit : Keyed (init.initial clock).toCluster := fun k c hc => (init.stored k c hc).1
  obtain ⟨hwriting, hbefore⟩ := protects_run hinit (keeping_idle _) hrun
  obtain ⟨-, hafter⟩ := protects_run hbefore.keyed hwriting hlater
  exact hafter.guarded k c hc hfinalizer

/-- The sample reconcile that has read the succeeded Pod deletes it. The next one finds no
Pod, writes the status without the finalizer and returns. -/
def finalized : List ControllerEvent :=
  answered 5 ++ [.finish sampleCache.key, .start sampleCache.key ()] ++ answered 5

/-- The sample Cache is being deleted and has the finalizer. -/
def guarded (st : ControllerState) : Bool :=
  (st.shared.caches sampleCache.key).any fun c => c.deleting && c.finalizers.contains cacheFinalizer

/-- The reconcile of the sample Cache has returned without an error. -/
def released (st : ControllerState) : Bool :=
  match st.running sampleCache.key with
  | some ⟨_, .ret none⟩ => true
  | _ => false

/-- The sample Cache is finalized without an error and is still there with its finalizer. -/
theorem protected_cache_remains_finalized :
    ∃ st st' c c', (controller sampleSettings).run (idle (sampleCaches.initial 0)) podSucceeded =
        some st ∧
      st.shared.caches sampleCache.key = some c ∧ cacheFinalizer ∈ c.finalizers ∧ c.deleting ∧
      (controller sampleSettings).run st finalized = some st' ∧ released st' = true ∧
      st'.shared.caches sampleCache.key = some c' ∧ cacheFinalizer ∈ c'.finalizers ∧
      c'.deleting := by
  have hbefore : ((controller sampleSettings).run (idle (sampleCaches.initial 0))
      podSucceeded).any guarded = true := by
    decide +kernel
  have hafter : ((controller sampleSettings).run (idle (sampleCaches.initial 0))
      (podSucceeded ++ finalized)).any released = true := by
    decide +kernel
  obtain ⟨st, hrun, hguarded⟩ := (Option.any_eq_true _ _).mp hbefore
  obtain ⟨st', hruns, hreleased⟩ := (Option.any_eq_true _ _).mp hafter
  rw [System.run_append, hrun, Option.bind_some] at hruns
  obtain ⟨c, hc, hboth⟩ := (Option.any_eq_true _ _).mp hguarded
  obtain ⟨hdeleting, hcontains⟩ := Bool.and_eq_true_iff.mp hboth
  have hfinalizer : cacheFinalizer ∈ c.finalizers := by simpa using hcontains
  obtain ⟨c', hc', hfinalizer', hdeleting'⟩ := protected_cache_remains hrun hc hfinalizer hruns
  exact ⟨st, st', c, c', hrun, hc, hfinalizer, hdeleting, hruns, hreleased, hc', hfinalizer',
    hdeleting' hdeleting⟩

end Runs

end K8StorageX.CacheFinalizers
