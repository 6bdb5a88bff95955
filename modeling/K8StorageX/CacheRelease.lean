import K8StorageX.CacheReset

/-!
# The reconciles of deleted Caches

Every request of `CacheReconciler` is one that may be made in the state it is made in.
The only unfounded ones are the status updates of a reconcile that waits for its Pod.
-/

namespace K8StorageX.CacheRelease

open ApiProgram WorkerPool GoErrors CacheModel Conditions CacheController CacheReset
open KubeObjects (ObjectKey Annotations hasString addString removeString)
open KubeApi (Fault Failure)
open JobReconciler (PodResult podResult)

/-- Caches are released after success. -/
def gate (settings : Settings) (known : ObjectKey → Prop) : Discipline (controller settings) where
  inv := Sound settings known
  rely w s t := known w → Tolerates settings w s t
  guarantee w _ _ _ s t := Guarantees settings known w s t
  post _ _ _ _ := True
  admits w fault r s :=
    ∀ c, r = .updateCacheStatus c → s.waiting w = true → UpdateLost s.toCluster fault c
  rely_refl w s _ := .refl settings w s
  rely_trans _ _ _ _ h h' hknown := (h hknown).trans (h' hknown)

/-- Weakest preconditions of the argument. -/
abbrev Keeps {α : Type} (settings : Settings) (known : ObjectKey → Prop) (w : ObjectKey)
    (post : Record Req Resp → α → Shared → Prop) (p : Controller α) (seen : Record Req Resp)
    (s : Shared) : Prop :=
  Wp ((gate settings known).contract w) post p seen s

section Rules

variable {settings : Settings} {known : ObjectKey → Prop} {w : ObjectKey} {s : Shared}
variable {seen : Record Req Resp} {α β : Type} {post : Record Req Resp → α → Shared → Prop}

/-- Two parts of a reconcile keep the gate if the second begins with what the first has led to. -/
theorem Keeps.then {p : Controller α} {f : α → Controller β} {fact : α → Shared → Prop}
    {post : Record Req Resp → β → Shared → Prop}
    (h : Keeps settings known w (fun _ value t => fact value t) p seen s)
    (hf : ∀ value seen t, fact value t → Keeps settings known w post (f value) seen t) :
    Keeps settings known w post (p >>= f) seen s :=
  Wp.bind (Wp.mono h fun seen value t _ hfact => hf value seen t hfact)

/-- A value is returned with what the others tolerate. -/
theorem keeps_ret {value : α} {fact : α → Shared → Prop} (hknown : known w)
    (h : ∀ t, Tolerates settings w s t → fact value t) :
    Keeps settings known w (fun _ value t => fact value t) (.ret value) seen s :=
  fun t hr _ => h t (hr hknown)

/-- Returning a value keeps the gate. -/
theorem keeps_done {value : α} : Keeps settings known w (fun _ _ _ => True) (.ret value) seen s :=
  fun _ _ _ => trivial

/-- A request that is proper whatever the others have done before. -/
theorem keeps_request {r : Req} {next : Resp r → Controller α} (hnames : DistinctNames known)
    (hknown : known w)
    (hproper : ∀ t, Tolerates settings w s t → Sound settings known t →
      Proper settings known w t r)
    (hnext : ∀ t fault seen, Tolerates settings w s t → Sound settings known t →
      Keeps settings known w post (next (t.serve w fault r).1) seen (t.serve w fault r).2) :
    Keeps settings known w post (Prog.request r >>= next) seen s := by
  intro t hrely hi fault hadmits
  have htolerates := hrely hknown
  obtain ⟨hsound, hguarantees⟩ := proper_serve hnames hi (hproper t htolerates hi) hadmits
  exact ⟨hsound, hguarantees, hnext t fault _ htolerates hi⟩

/-- Reading the clock changes nothing. -/
theorem keeps_now {next : Time → Controller α} (hnames : DistinctNames known) (hknown : known w)
    (hnext : ∀ time seen t, Tolerates settings w s t →
      Keeps settings known w post (next time) seen t) :
    Keeps settings known w post (Prog.request Req.now >>= next) seen s := by
  refine keeps_request hnames hknown (fun _ _ _ => trivial) fun t fault seen ht _ => ?_
  have hafter : (t.serve w fault .now).2 = t := by
    unfold Shared.serve Cluster.serve
    cases fault.failure <;> simp [failed, Cluster.answer, waits]
  rw [hafter]
  exact hnext _ seen t ht

/-- A Cache that is read is current. -/
theorem keeps_getCache {next : Except ApiError CacheResource → Controller α}
    (hnames : DistinctNames known) (hknown : known w)
    (hnext : ∀ response seen t, Tolerates settings w s t →
      (∀ c, response = .ok c → Current w c t) → Keeps settings known w post (next response) seen t) :
    Keeps settings known w post (Prog.request (Req.getCache w) >>= next) seen s := by
  refine keeps_request hnames hknown (fun _ _ _ => trivial) fun t fault seen ht hsound => ?_
  have hcluster : (t.toCluster.serve fault (.getCache w)).2 = t.toCluster := by
    rcases serve_snd t.toCluster fault (.getCache w) with hsame | heffect
    · exact hsame
    · cases heffect
  have hafter : (t.serve w fault (.getCache w)).2 = t := by
    have hwaits : ∀ response, waits (t.waiting w) (.getCache w) response = t.waiting w :=
      fun _ => rfl
    unfold Shared.serve
    dsimp only
    rw [hcluster, hwaits, Function.update_eq_self]
  rw [hafter]
  refine hnext _ seen t ht fun c hc => ?_
  have hstored := serve_getCache hc
  obtain ⟨-, hkey, hversion⟩ := hsound.caches w c hstored
  refine ⟨hkey, hversion, fun c' hc' _ => ?_⟩
  exact Option.some.inj (hc'.symm.trans hstored)

/-- What a reconcile learns from reading its Pod. -/
structure PodRead (settings : Settings) (w : ObjectKey) (response : Except ApiError Pod)
    (t : Shared) : Prop where
  /-- The Pod has its key. -/
  key : ∀ pod, response = .ok pod → pod.key = podKey settings w
  /-- A succeeded Pod is recorded. -/
  success : ∀ pod, response = .ok pod → pod.phase = .succeeded → t.succeeded w = true
  /-- An unfinished Pod is waited for. -/
  waiting : ∀ pod, response = .ok pod → pod.phase.terminal = false → t.waiting w = true
  /-- A missing Pod stays missing. -/
  missing : response = .error .notFound → t.pods (podKey settings w) = none

/-- Reading the Pod tells whether it has succeeded or is waited for. -/
theorem keeps_getPod {next : Except ApiError Pod → Controller α} (hnames : DistinctNames known)
    (hknown : known w)
    (hnext : ∀ response seen t, Advances w s t → PodRead settings w response t →
      Keeps settings known w post (next response) seen t) :
    Keeps settings known w post (Prog.request (Req.getPod (podKey settings w)) >>= next) seen s := by
  refine keeps_request hnames hknown (fun _ _ _ => trivial) fun t fault seen ht hsound => ?_
  refine hnext _ seen _ (ht.toAdvances.trans (advances_serve w t fault _)) ?_
  have hcluster : (t.toCluster.serve fault (.getPod (podKey settings w))).2 = t.toCluster := by
    rcases serve_snd t.toCluster fault (.getPod (podKey settings w)) with hsame | heffect
    · exact hsame
    · cases heffect
  unfold Shared.serve
  dsimp only
  rw [hcluster]
  refine ⟨?_, ?_, ?_, ?_⟩
  · intro pod hpod
    exact (hsound.pods _ pod (serve_getPod hpod)).1
  · intro pod hpod hphase
    have hstored := serve_getPod hpod
    have hsuccess := hsound.success _ pod hstored hphase
    rwa [hsound.owner_eq hnames hknown hstored] at hsuccess
  · intro pod hpod hphase
    dsimp only
    rw [hpod, Function.update_self, waits, hphase]
    rfl
  · intro hmissing
    exact serve_getPod_notFound hmissing

/-- After creating its Pod the reconcile waits for it. -/
theorem keeps_createPod {pod : Pod} {next : Except ApiError Unit → Controller α}
    (hnames : DistinctNames known) (hknown : known w) (hkey : pod.key = podKey settings w)
    (howner : owner pod = w)
    (hnext : ∀ response seen t, Advances w s t → (response = .ok () → t.waiting w = true) →
      Keeps settings known w post (next response) seen t) :
    Keeps settings known w post (Prog.request (Req.createPod pod) >>= next) seen s := by
  refine keeps_request hnames hknown (fun _ _ _ => ⟨hknown, hkey, howner⟩) fun t fault seen ht _ => ?_
  refine hnext _ seen _ (ht.toAdvances.trans (advances_serve w t fault _)) fun hcreated => ?_
  unfold Shared.serve at hcreated ⊢
  dsimp only at hcreated ⊢
  rw [hcreated, Function.update_self, waits]

/-- Deleting the own Pod keeps the gate. -/
theorem keeps_deletePod {key : ObjectKey} {next : Except ApiError Unit → Controller α}
    (hnames : DistinctNames known) (hknown : known w) (hkey : key = podKey settings w)
    (hnext : ∀ response seen t, Advances w s t → Keeps settings known w post (next response) seen t) :
    Keeps settings known w post (Prog.request (Req.deletePod key) >>= next) seen s := by
  refine keeps_request hnames hknown (fun _ _ _ => ⟨hknown, hkey⟩) fun t fault seen ht _ => ?_
  exact hnext _ seen _ (ht.toAdvances.trans (advances_serve w t fault _))

/-- A status that may be written is written, and what is stored is known afterwards. -/
theorem keeps_updateStatus {c : CacheResource} {next : Except ApiError CacheResource → Controller α}
    (hnames : DistinctNames known) (hknown : known w) (hc : Writable settings w c s)
    (hnext : ∀ response seen t, Advances w s t →
      (s.pods (podKey settings w) = none → t.pods (podKey settings w) = none) →
      (∀ updated, response = .ok updated → Current w updated t) →
      Keeps settings known w post (next response) seen t) :
    Keeps settings known w post (Prog.request (Req.updateCacheStatus c) >>= next) seen s := by
  refine keeps_request hnames hknown (fun t ht _ => hc.tolerates ht) fun t fault seen ht hsound => ?_
  refine hnext _ seen _ (ht.toAdvances.trans (advances_serve w t fault _)) (fun hnone => ?_)
    fun updated hupdated => ?_
  · have hbefore := ht.pods hnone
    unfold Shared.serve
    dsimp only
    rcases serve_snd t.toCluster fault (.updateCacheStatus c) with hsame | heffect
    · rw [hsame]
      exact hbefore
    · generalize (t.toCluster.serve fault (.updateCacheStatus c)).2 = after at heffect ⊢
      cases heffect with
      | updateCacheStatus found current =>
        rw [pods_putStatus]
        exact hbefore
  · obtain ⟨stored, hfound, hversion, rfl, hafter⟩ := serve_updateCacheStatus hupdated
    obtain ⟨hkey, -, -⟩ := (hc.tolerates ht).base hfound hversion
    have hcluster : (t.serve w fault (.updateCacheStatus c)).2.toCluster =
        t.toCluster.putStatus stored c := hafter
    refine ⟨hkey, ?_, ?_⟩
    · rw [hcluster, revision_putStatus]
    · intro c' hc' _
      rw [hcluster, caches_putStatus] at hc'
      rcases caches_putCache hc' with ⟨-, rfl⟩ | ⟨hne, -⟩
      · rfl
      · exact absurd hkey.symm hne

end Rules

section Programs

variable {settings : Settings} {known : ObjectKey → Prop} {w : ObjectKey} {s t : Shared}
variable {seen : Record Req Resp} {c : CacheResource}

/-- An object that does not release the Cache, and locks it only if there is no Pod. -/
def Draft (settings : Settings) (w : ObjectKey) (c : CacheResource) (s : Shared) : Prop :=
  c.key = w ∧ ∃ base, Current w base s ∧ c.resourceVersion = base.resourceVersion ∧
    (startsReset base.status c.status = true → s.pods (podKey settings w) = none) ∧
    (c.status.phase = base.status.phase ∨ c.status.phase = .reject)

/-- A draft stays one while the others act. -/
theorem Draft.tolerates (h : Draft settings w c s) (hr : Tolerates settings w s t) :
    Draft settings w c t := by
  obtain ⟨hkey, base, hbase, hversion, hstarts, hphase⟩ := h
  exact ⟨hkey, base, hbase.advances hr.toAdvances, hversion, fun h => hr.pods (hstarts h), hphase⟩

/-- A Cache as it was read is a draft. -/
theorem draft_of_sync (h : Sync w c s) : Draft settings w c s := by
  obtain ⟨hkey, base, hbase, hversion, hsame⟩ := h
  refine ⟨hkey, base, hbase, hversion, fun hstarts => ?_, Or.inl hsame.phase⟩
  rw [hsame.not_starts] at hstarts
  cases hstarts

/-- Reporting a failure does not release the Cache. -/
theorem Draft.writable (h : Draft settings w c s) (now : Time) (reason message : String) :
    Writable settings w
      (withCondition now c conditionStorageReset .false reason message).2 s := by
  obtain ⟨hkey, base, hbase, hversion, hstarts, hphase⟩ := h
  refine ⟨hkey, base, hbase, hversion, hstarts, ?_⟩
  have hcondition := statusOf_setCondition_self now
    ⟨conditionStorageReset, .false, reason, message, c.generation, now⟩ c.status.conditions
  rintro (⟨hreset, -⟩ | ⟨hready, hnot⟩ | ⟨hreject, hnot⟩)
  · cases hcondition.symm.trans hreset
  · rcases hphase with hsame | hlocked
    · exact absurd (hsame.symm.trans hready) hnot
    · cases hlocked.symm.trans hready
  · rcases hphase with hsame | hlocked
    · exact absurd (hsame.trans hreject) hnot
    · exact absurd hlocked hnot

/-- Reporting success releases the Cache. -/
theorem writable_finished (h : Sync w c s) (hdone : s.succeeded w = true ∨ s.waiting w = true)
    (now resetTime : Time) : Writable settings w (finished now resetTime c) s := by
  obtain ⟨hkey, base, hbase, hversion, -⟩ := h
  refine ⟨hkey, base, hbase, hversion, fun hstarts => ?_, fun _ => hdone⟩
  cases hstarts

/-- Deleting a Pod of the Cache leaves the object as it was read. -/
theorem keeps_deletePod_of {name : String} (hnames : DistinctNames known) (hknown : known w)
    (hname : name = w.name) (h : Sync w c s) :
    Keeps settings known w (fun _ _ t => Sync w c t) (deletePod settings name) seen s := by
  subst hname
  refine keeps_getPod hnames hknown fun response seen t ht hread => ?_
  cases response with
  | error e =>
    dsimp only
    split
    · exact keeps_ret hknown fun u hu => h.advances (ht.trans hu.toAdvances)
    · exact keeps_ret hknown fun u hu => h.advances (ht.trans hu.toAdvances)
  | ok pod =>
    refine keeps_deletePod hnames hknown (hread.key pod rfl) fun response seen u hu => ?_
    have hsync : Sync w c u := h.advances (ht.trans hu)
    split
    · exact keeps_ret hknown fun v hv => hsync.advances hv.toAdvances
    · exact keeps_ret hknown fun v hv => hsync.advances hv.toAdvances

/-- What `finalize` goes on with after a step that has not failed. -/
abbrev Goes (settings : Settings) (w : ObjectKey) (result : Option GoError × CacheResource)
    (t : Shared) : Prop :=
  result.1 = none → Writable settings w result.2 t

/-- So does deleting all of them, and `finalize` can go on. -/
theorem keeps_deletePods {name : String} (hnames : DistinctNames known) (hknown : known w)
    (hname : name = w.name) (h : Sync w c s) :
    Keeps settings known w (fun _ result t => Goes settings w result t)
      (deletePods settings c name) seen s := by
  unfold deletePods
  split
  · exact keeps_ret hknown fun t ht _ => (h.advances ht.toAdvances).writable
  · refine (keeps_deletePod_of hnames hknown hname h).then fun err seen t hsync => ?_
    refine keeps_now hnames hknown fun now seen u hu => ?_
    have hset : Sync w (podsCleared now c err).2 u := by
      cases err with
      | some e => exact (hsync.advances hu.toAdvances).withCondition now _ _ _
      | none => exact (hsync.advances hu.toAdvances).withCondition now _ _ _
    dsimp only
    split
    · refine keeps_updateStatus hnames hknown hset.writable fun response seen v _ _ hstored => ?_
      cases response with
      | error e => exact keeps_ret hknown fun _ _ hnone => by cases hnone
      | ok updated =>
        have hcurrent := (hstored updated rfl).sync
        exact keeps_ret hknown fun x hx _ => (hcurrent.advances hx.toAdvances).writable
    · exact keeps_ret hknown fun x hx _ => (hset.advances hx.toAdvances).writable

/-- What `ReconcilePod` is given to create: the Pod of the locked Cache. -/
structure LockResult (settings : Settings) (w : ObjectKey)
    (result : Except GoError Pod × CacheResource) (t : Shared) : Prop where
  /-- The Cache may be written back to report a failure. -/
  draft : Draft settings w result.2 t
  /-- The Pod is that of the Cache, which is in sync. -/
  made : ∀ pod, result.1 = .ok pod → owner pod = w ∧ Sync w result.2 t

/-- The untagger Pod belongs to its Cache. -/
theorem owner_untaggerPod (settings : Settings) (c : CacheResource) :
    owner (untaggerPod settings c) = c.key := by
  have hne : annCacheName ≠ annCacheNamespace := by decide
  simp only [owner, untaggerPod, Annotations.get_set_self, Annotations.get_set_of_ne _ _ hne]

/-- A Cache is locked when there is no Pod for it. -/
theorem keeps_lockCache (hnames : DistinctNames known) (hknown : known w) (h : Sync w c s)
    (hnone : s.pods (podKey settings w) = none) :
    Keeps settings known w (fun _ result t => LockResult settings w result t)
      (lockCache settings c) seen s := by
  have hkey : c.key = w := h.1
  have howner : owner (untaggerPod settings c) = w := (owner_untaggerPod settings c).trans hkey
  refine keeps_now hnames hknown fun now seen t ht => ?_
  have hsync : Sync w (podPending now c).2 t :=
    (h.advances ht.toAdvances).withCondition now _ _ _
  have hmissing : t.pods (podKey settings w) = none := ht.pods hnone
  dsimp only
  split
  · have hdraft : ∀ u, Advances w t u → u.pods (podKey settings w) = none →
        Draft settings w (locked now c) u := by
      intro u hu hnone'
      obtain ⟨hkey', base, hbase, hversion, -⟩ := hsync
      exact ⟨hkey', base, hbase.advances hu, hversion, fun _ => hnone', Or.inr rfl⟩
    have hwritable : Writable settings w (locked now c) t := by
      obtain ⟨hkey', base, hbase, hversion, hsame⟩ := hsync
      refine ⟨hkey', base, hbase, hversion, fun _ => hmissing, ?_⟩
      rintro (⟨hreset, hnot⟩ | ⟨hready, -⟩ | ⟨-, hnot⟩)
      · exact absurd (hsame.condition.symm.trans hreset) hnot
      · cases hready
      · exact absurd rfl hnot
    refine keeps_updateStatus hnames hknown hwritable fun response seen u hu hpods hstored => ?_
    cases response with
    | error e =>
      refine keeps_ret hknown fun v hv => ⟨?_, fun pod hpod => by cases hpod⟩
      exact hdraft v (hu.trans hv.toAdvances) (hv.pods (hpods hmissing))
    | ok updated =>
      have hupdated := hstored updated rfl
      rw [hkey]
      refine keeps_getCache hnames hknown fun response seen v hv hread => ?_
      cases response with
      | error e =>
        refine keeps_ret hknown fun x hx => ⟨draft_of_sync ?_, fun pod hpod => by cases hpod⟩
        exact hupdated.sync.advances (hv.toAdvances.trans hx.toAdvances)
      | ok read =>
        have hsynced := (hread read rfl).sync
        refine keeps_ret hknown fun x hx => ⟨draft_of_sync (hsynced.advances hx.toAdvances), ?_⟩
        intro pod hpod
        cases hpod
        exact ⟨howner, hsynced.advances hx.toAdvances⟩
  · refine keeps_ret hknown fun u hu => ⟨draft_of_sync (hsync.advances hu.toAdvances), ?_⟩
    intro pod hpod
    cases hpod
    exact ⟨howner, hsync.advances hu.toAdvances⟩

/-- What `freeStorage` knows from `ReconcilePod`. -/
structure Reconciled (settings : Settings) (w : ObjectKey) (result : PodResult × CacheResource)
    (t : Shared) : Prop where
  /-- The Cache may be written back to report a failure. -/
  draft : Draft settings w result.2 t
  /-- Without an error the Pod has succeeded, or is waited for. -/
  done : result.1.err = none → Sync w result.2 t ∧ (t.succeeded w = true ∨ t.waiting w = true)

/-- A Pod that was read has succeeded or is waited for, unless it has failed. -/
theorem reconciled_of_read {pod : Pod} (hsync : Sync w c s)
    (hread : PodRead settings w (.ok pod) s) :
    Reconciled settings w (podResult pod.toPod, c) s := by
  refine ⟨draft_of_sync hsync, fun hnone => ⟨hsync, ?_⟩⟩
  unfold podResult at hnone
  split at hnone
  · next hphase => exact Or.inl (hread.success pod rfl hphase)
  · cases hnone
  · next hsucceeded hfailed =>
    refine Or.inr (hread.waiting pod rfl ?_)
    cases hphase : pod.phase with
    | succeeded => exact absurd hphase hsucceeded
    | failed => exact absurd hphase hfailed
    | _ => rfl

/-- What `freeStorage` knows stays true while the others act. -/
theorem Reconciled.tolerates {result : PodResult × CacheResource}
    (h : Reconciled settings w result s) (hr : Tolerates settings w s t) :
    Reconciled settings w result t := by
  refine ⟨h.draft.tolerates hr, fun hnone => ?_⟩
  obtain ⟨hsync, hdone⟩ := h.done hnone
  refine ⟨hsync.advances hr.toAdvances, ?_⟩
  rw [hr.waiting]
  exact hdone.imp_left hr.succeeded

/-- An error says nothing about the Pod. -/
theorem reconciled_of_error {done : Bool} {pod : Option KubeObjects.Pod} {e : GoError}
    (hdraft : Draft settings w c s) : Reconciled settings w (⟨done, pod, some e⟩, c) s :=
  ⟨hdraft, fun h => by cases h⟩

/-- `ReconcilePod` creates the Pod of the locked Cache, or reads it. -/
theorem keeps_reconcilePod (hnames : DistinctNames known) (hknown : known w) (h : Sync w c s) :
    Keeps settings known w (fun _ result t => Reconciled settings w result t)
      (reconcilePod (podKey settings w) c (lockCache settings c)) seen s := by
  refine keeps_getPod hnames hknown fun response seen t ht hread => ?_
  have hsync : Sync w c t := h.advances ht
  cases response with
  | ok pod =>
    exact keeps_ret hknown fun u hu => (reconciled_of_read hsync hread).tolerates hu
  | error e =>
    dsimp only
    split
    · next hmissing =>
      subst hmissing
      refine (keeps_lockCache hnames hknown hsync (hread.missing rfl)).then
        fun made seen u hmade => ?_
      obtain ⟨made, cache⟩ := made
      cases made with
      | error e =>
        exact keeps_ret hknown fun v hv => reconciled_of_error (hmade.draft.tolerates hv)
      | ok pod =>
        obtain ⟨howner, hsynced⟩ := hmade.made pod rfl
        refine keeps_createPod hnames hknown rfl howner fun response seen v hv hwaits => ?_
        have hlater : Sync w cache v := hsynced.advances hv
        cases response with
        | ok _ =>
          refine keeps_ret hknown fun x hx => ?_
          refine ⟨draft_of_sync (hlater.advances hx.toAdvances), fun _ => ?_⟩
          exact ⟨hlater.advances hx.toAdvances, Or.inr (hx.waiting.trans (hwaits rfl))⟩
        | error e =>
          dsimp only
          split
          · refine keeps_getPod hnames hknown fun response seen x hx hread => ?_
            have hlast : Sync w cache x := hlater.advances hx
            cases response with
            | ok pod =>
              exact keeps_ret hknown fun y hy => (reconciled_of_read hlast hread).tolerates hy
            | error e =>
              exact keeps_ret hknown fun y hy =>
                reconciled_of_error (draft_of_sync (hlast.advances hy.toAdvances))
          · exact keeps_ret hknown fun x hx =>
              reconciled_of_error (draft_of_sync (hlater.advances hx.toAdvances))
    · exact keeps_ret hknown fun u hu =>
        reconciled_of_error (draft_of_sync (hsync.advances hu.toAdvances))

/-- A failure is reported without a release. -/
theorem keeps_reportFailure {done : Bool} {e : GoError} (hnames : DistinctNames known)
    (hknown : known w) (h : Draft settings w c s) :
    Keeps settings known w (fun _ result t => Goes settings w result t)
      (reportFailure c done e) seen s := by
  refine keeps_now hnames hknown fun now seen t ht => ?_
  have hwritable := (h.tolerates ht).writable now "PendingImageDeletion" e.message
  dsimp only
  split
  · refine keeps_updateStatus hnames hknown hwritable fun response seen u _ _ hstored => ?_
    cases response with
    | error e => exact keeps_ret hknown fun _ _ hnone => by cases hnone
    | ok updated =>
      have hcurrent := (hstored updated rfl).sync
      exact keeps_ret hknown fun v hv _ => (hcurrent.advances hv.toAdvances).writable
  · exact keeps_ret hknown fun u hu _ => hwritable.tolerates hu

/-- Success is reported if the Pod has succeeded or is still waited for. -/
theorem keeps_reportSuccess (hnames : DistinctNames known) (hknown : known w) (h : Sync w c s)
    (hdone : s.succeeded w = true ∨ s.waiting w = true) :
    Keeps settings known w (fun _ result t => Goes settings w result t)
      (reportSuccess settings c) seen s := by
  refine keeps_now hnames hknown fun now seen t ht => ?_
  refine keeps_now hnames hknown fun resetTime seen u hu => ?_
  have hboth : Tolerates settings w s u := ht.trans hu
  have hlater : u.succeeded w = true ∨ u.waiting w = true := by
    rw [hboth.waiting]
    exact hdone.imp_left hboth.succeeded
  have hwritable : Writable settings w (finished now resetTime c) u :=
    writable_finished (h.advances hboth.toAdvances) hlater now resetTime
  refine keeps_updateStatus hnames hknown hwritable fun response seen v _ _ hstored => ?_
  cases response with
  | error e => exact keeps_ret hknown fun _ _ hnone => by cases hnone
  | ok updated =>
    have hname : imageUntagPodName c = w.name := congrArg ObjectKey.name h.1
    exact keeps_deletePods hnames hknown hname (hstored updated rfl).sync

/-- `freeStorage` keeps the gate. -/
theorem keeps_freeStorage (hnames : DistinctNames known) (hknown : known w) (h : Sync w c s) :
    Keeps settings known w (fun _ result t => Goes settings w result t)
      (freeStorage settings c) seen s := by
  have hname : imageUntagPodName c = w.name := congrArg ObjectKey.name h.1
  unfold freeStorage
  dsimp only
  split
  · exact keeps_deletePods hnames hknown hname h
  · rw [hname]
    refine (keeps_reconcilePod hnames hknown h).then fun result seen t hresult => ?_
    split
    · exact keeps_reportFailure hnames hknown hresult.draft
    · next hnone =>
      obtain ⟨hsync, hdone⟩ := hresult.done hnone
      exact keeps_reportSuccess hnames hknown hsync hdone

/-- So does `finalize`. -/
theorem keeps_finalize (hnames : DistinctNames known) (hknown : known w) (h : Sync w c s) :
    Keeps settings known w (fun _ _ _ => True) (finalize settings c) seen s := by
  refine (keeps_freeStorage hnames hknown h).then fun result seen t hgoes => ?_
  obtain ⟨err, cache⟩ := result
  cases err with
  | some e => exact keeps_done
  | none =>
    dsimp only
    split
    · have hwritable : Writable settings w
          { cache with finalizers := removeString cache.finalizers cacheFinalizer } t := hgoes rfl
      refine keeps_updateStatus hnames hknown hwritable fun response seen u _ _ _ => ?_
      split
      · exact keeps_done
      · exact keeps_done
    · exact keeps_done

/-- A reconcile begins by reading its Cache. -/
theorem keeps_reconcile (hnames : DistinctNames known) :
    Keeps settings known w (fun _ _ _ => True) (reconcile settings w) [] s := by
  simp only [reconcile, Prog.request_bind]
  intro t _ hi fault hadmits
  have hproper : Proper settings known w t (.getCache w) := trivial
  obtain ⟨hsound, hguarantees⟩ := proper_serve hnames hi hproper hadmits
  refine ⟨hsound, hguarantees, ?_⟩
  beta_reduce
  split
  · split
    · exact keeps_done
    · exact keeps_done
  · next cache hread =>
    have hstored : t.caches w = some cache := serve_getCache hread
    obtain ⟨hknown, hkey, hversion⟩ := hi.caches w cache hstored
    have hcurrent : Current w cache t :=
      ⟨hkey, hversion, fun c hc _ => Option.some.inj (hc.symm.trans hstored)⟩
    have hafter := hcurrent.advances (advances_serve w t fault (.getCache w))
    split
    · exact keeps_finalize hnames hknown hafter.sync
    · split
      · refine keeps_request hnames hknown (fun u hu _ => ⟨hkey, ?_⟩) fun u fault seen _ _ => ?_
        · intro stored hfound hsame
          have heq : stored = cache :=
            (hafter.advances hu.toAdvances).stored stored hfound hsame.symm
          rw [heq]
          exact KubeObjects.subset_addString cache.finalizers cacheFinalizer
        · split
          · exact keeps_done
          · exact keeps_done
      · exact keeps_done

end Programs

section System

variable {settings : Settings} {known : ObjectKey → Prop}

/-- The system respects the argument. -/
theorem gate_respected (hnames : DistinctNames known) : (gate settings known).Respected where
  start := by
    intro w j s t hi _ h
    cases h
    refine ⟨⟨hi.caches, hi.pods, hi.success⟩, fun v hv _ => ?_, keeps_reconcile hnames⟩
    exact ⟨⟨le_rfl, Or.inl rfl⟩, Function.update_of_ne hv _ _, fun h => h, fun h => h⟩
  env := by
    intro e s t hi _ h
    obtain ⟨cluster, hact, rfl⟩ := Option.map_eq_some_iff.mp h
    have hacts := acts_of_act (fun k c hc => (hi.caches k c hc).2.1) hact
    exact ⟨hacts.sound hi, fun w _ => hacts.tolerates hi⟩
  finish := by
    intro w seen value s t hi _ h
    cases h
    exact ⟨hi, fun v _ _ => .refl settings v s⟩
  crash := by
    intro s t hi h
    cases h
    exact hi
  compatible := by
    intro w v seen r response s t _ _ hguarantees hne hknown
    exact hguarantees.tolerates hnames hknown hne

/-- The Caches of a cluster before any Pod has been started for them. -/
structure StoredCaches where
  /-- The Caches. -/
  caches : ObjectKey → Option CacheResource
  /-- Bound of their versions. -/
  revision : ℕ
  /-- A Cache is stored under its key with a version that has been handed out. -/
  stored : ∀ k c, caches k = some c → c.key = k ∧ c.resourceVersion ≤ revision

/-- The cluster in which the controller starts. -/
def StoredCaches.initial (init : StoredCaches) (clock : Time) : Shared :=
  ⟨⟨init.caches, fun _ => none, init.revision, clock, fun _ => false⟩, fun _ => false⟩

/-- The Caches that exist. -/
def StoredCaches.present (init : StoredCaches) (k : ObjectKey) : Prop :=
  (init.caches k).isSome = true

/-- States of the system. -/
abbrev ControllerState : Type := State ObjectKey Req Resp Shared (Option GoError)

/-- Steps of the system. -/
abbrev ControllerEvent : Type := Event ObjectKey Unit Fault Env

/-- A reconcile that has created its Pod or found it unfinished loses its status update. -/
def WaitingUpdatesLost (st : ControllerState) : ControllerEvent → Prop
  | .serve w fault => ∀ seen c next,
      st.running w = some ⟨seen, .call (.updateCacheStatus c) next⟩ →
      st.shared.waiting w = true → UpdateLost st.shared.toCluster fault c
  | _ => True

/-- The gate admits the steps in which waiting reconciles lose their updates. -/
theorem admits_of_updatesLost (st : ControllerState) (e : ControllerEvent)
    (h : WaitingUpdatesLost st e) : (gate settings known).Admits st e := by
  cases e with
  | serve w fault =>
    intro seen r next hw c hr hwaiting
    subst hr
    exact h seen c next hw hwaiting
  | _ => trivial

/-- A cluster without Pods is sound. -/
theorem sound_initial (init : StoredCaches) (clock : Time) :
    Sound settings init.present (init.initial clock) where
  caches := by
    intro k c hc
    obtain ⟨hkey, hversion⟩ := init.stored k c hc
    exact ⟨Option.isSome_iff_exists.mpr ⟨c, hc⟩, hkey, hversion⟩
  pods := fun _ _ h => by cases h
  success := fun _ _ h => by cases h

/-- In every run in which no two Caches share a name and every reconcile that waits for
its Pod loses its status update, each step that unlocks a Cache, reports it as reset or
removes its finalizer comes after the success of the Pod started for the reset. -/
theorem cache_release_gated {init : StoredCaches} (hnames : DistinctNames init.present)
    {clock : Time} {es : List ControllerEvent} {e : ControllerEvent} {st st' : ControllerState}
    (hrun : (controller settings).RunWhere WaitingUpdatesLost (idle (init.initial clock)) es st)
    (hlost : WaitingUpdatesLost st e) (hstep : (controller settings).step st e = some st')
    {k : ObjectKey} {c : CacheResource} (hc : st.shared.caches k = some c) :
    Gated (st.shared.succeeded k) c (st'.shared.caches k) := by
  have hsafe : (gate settings init.present).Safe st :=
    (gate settings init.present).run_safe_where (gate_respected hnames)
      ((gate settings init.present).idle_safe (sound_initial init clock))
      (hrun.mono admits_of_updatesLost)
  have hsame : Gated (st.shared.succeeded k) c (st.shared.caches k) := by
    rw [hc]
    exact .refl _ c
  cases System.taken_of_step hstep with
  | start free hook =>
    cases hook
    exact hsame
  | @serve w fault seen r next pending =>
    have hadmits : (gate settings init.present).Admits st (.serve w fault) :=
      admits_of_updatesLost st _ hlost
    have hguarantees := hsafe.guarantee pending fault (hadmits seen r next pending)
    by_cases hk : k = w
    · subst hk
      exact hguarantees.gated c hc
    · have hother := hguarantees.caches k hk
      exact hother.symm ▸ hsame
  | finish returned hook =>
    cases hook
    exact hsame
  | crash hook =>
    cases hook
    exact hsame
  | env hook =>
    obtain ⟨cluster, hact, rfl⟩ := Option.map_eq_some_iff.mp hook
    have hacts := acts_of_act (fun k c hc => (hsafe.1.caches k c hc).2.1) hact
    exact hacts.gated hc

/-- A Cache that is being deleted. -/
def sampleCache : CacheResource where
  key := ⟨"default", "build"⟩
  resourceVersion := 1
  generation := 1
  deleting := true
  finalizers := [cacheFinalizer]
  status := { CacheStatus.empty with lastReset := none, conditions := [] }

/-- The cluster with this Cache only. -/
def sampleCaches : StoredCaches where
  caches k := if k = sampleCache.key then some sampleCache else none
  revision := 1
  stored := by
    intro k c hc
    split at hc
    · next hk =>
      cases hc
      exact ⟨hk.symm, le_rfl⟩
    · cases hc

/-- Requests of the reconcile of the sample Cache that are answered. -/
def answered (n : ℕ) : List ControllerEvent :=
  List.replicate n (.serve sampleCache.key ⟨none, false, true⟩)

/-- A reconcile locks the Cache and creates the Pod, and is about to write the status. -/
def podCreated : List ControllerEvent := .start sampleCache.key () :: answered 8

/-- The Cache changes before the status is written. The Pod succeeds and is read by
the next reconcile, which is about to write the status. -/
def podSucceeded : List ControllerEvent :=
  podCreated ++
    [.env (.editCache sampleCache.key 1 { CacheStatus.empty with cacheGeneration := 1, used := 1 })] ++
    answered 1 ++
    [.finish sampleCache.key, .env (.podPhase (podKey sampleSettings sampleCache.key) .succeeded),
      .start sampleCache.key ()] ++
    answered 4

/-- Check of `WaitingUpdatesLost` in a state. -/
def updatesLost (st : ControllerState) : ControllerEvent → Bool
  | .serve w fault =>
    match st.running w with
    | some ⟨_, .call (.updateCacheStatus c) _⟩ =>
      !st.shared.waiting w || (fault.failure.isSome && !fault.lost) ||
        (st.shared.caches c.key).all fun stored => stored.resourceVersion ≠ c.resourceVersion
    | _ => true
  | _ => true

/-- What the check accepts are steps in which waiting reconciles lose their updates. -/
theorem updatesLost_of_check (st : ControllerState) (e : ControllerEvent)
    (h : updatesLost st e = true) : WaitingUpdatesLost st e := by
  cases e with
  | serve w fault =>
    intro seen c next hw hwaiting
    simp only [updatesLost, hw, hwaiting, Bool.not_true, Bool.false_or, Bool.or_eq_true,
      Bool.and_eq_true, Bool.not_eq_true'] at h
    rcases h with hfails | hchanged
    · exact Or.inl hfails
    · refine Or.inr fun stored hstored => ?_
      rw [hstored] at hchanged
      exact of_decide_eq_true hchanged
  | _ => trivial

/-- What the sample Cache reports: its phase, whether it is reset and the phase of its Pod. -/
def report (st : ControllerState) :
    Option (CachePhase × Option ConditionStatus × Option KubeObjects.PodPhase × Bool) :=
  (st.shared.caches sampleCache.key).map fun c =>
    (c.status.phase, statusOf c.status.conditions conditionStorageReset,
      (st.shared.pods (podKey sampleSettings sampleCache.key)).map fun pod => pod.phase,
      st.shared.succeeded sampleCache.key)

/-- The names of the sample Caches are distinct. -/
theorem names_sampleCaches : DistinctNames sampleCaches.present := by
  have honly : ∀ k, sampleCaches.present k → k = sampleCache.key := by
    intro k hk
    by_contra hne
    simp only [StoredCaches.present, sampleCaches, hne, if_false, Option.isSome_none,
      Bool.false_eq_true] at hk
  intro k k' hk hk' _
  rw [honly k hk, honly k' hk']

/-- The sample Cache is released after its Pod has succeeded. -/
theorem cache_release_gated_succeeded :
    DistinctNames sampleCaches.present ∧ ∃ st st' c,
      (controller sampleSettings).RunWhere WaitingUpdatesLost (idle (sampleCaches.initial 0))
        podSucceeded st ∧
      (controller sampleSettings).step st (.serve sampleCache.key ⟨none, false, true⟩) = some st' ∧
      report st' = some (.ready, some .true, some .succeeded, true) ∧
      st.shared.caches sampleCache.key = some c ∧
      Gated (st.shared.succeeded sampleCache.key) c (st'.shared.caches sampleCache.key) := by
  have hbefore : (((controller sampleSettings).run (idle (sampleCaches.initial 0))
      podSucceeded).bind report) = some (.reject, none, some .succeeded, true) := by
    decide +kernel
  have hafter : (((controller sampleSettings).runIf updatesLost (idle (sampleCaches.initial 0))
      (podSucceeded ++ answered 1)).bind report) =
        some (.ready, some .true, some .succeeded, true) := by
    decide +kernel
  obtain ⟨st', hruns, hreport⟩ := Option.bind_eq_some_iff.mp hafter
  obtain ⟨st, hrun, hwhere, hlost, last, hstep, rfl⟩ :=
    (System.runWhere_of_runIf updatesLost_of_check hruns).split
  rw [hrun, Option.bind_some] at hbefore
  obtain ⟨c, hc, -⟩ := Option.map_eq_some_iff.mp hbefore
  exact ⟨names_sampleCaches, st, last, c, hwhere, hstep, hreport, hc,
    cache_release_gated names_sampleCaches hwhere hlost hstep hc⟩

/-- The first reconcile unlocks the Cache and reports the reset while the Pod it has
created is pending. -/
theorem cache_released_while_pending :
    ∃ st st', (controller sampleSettings).run (idle (sampleCaches.initial 0)) podCreated = some st ∧
      report st = some (.reject, none, some .pending, false) ∧
      (controller sampleSettings).run (idle (sampleCaches.initial 0)) (podCreated ++ answered 1) =
        some st' ∧
      report st' = some (.ready, some .true, some .pending, false) := by
  have hbefore : (((controller sampleSettings).run (idle (sampleCaches.initial 0))
      podCreated).bind report) = some (.reject, none, some .pending, false) := by
    decide +kernel
  have hafter : (((controller sampleSettings).run (idle (sampleCaches.initial 0))
      (podCreated ++ answered 1)).bind report) =
        some (.ready, some .true, some .pending, false) := by
    decide +kernel
  obtain ⟨st, hrun, hreport⟩ := Option.bind_eq_some_iff.mp hbefore
  obtain ⟨st', hrun', hreport'⟩ := Option.bind_eq_some_iff.mp hafter
  exact ⟨st, st', hrun, hreport, hrun', hreport'⟩

end System

end K8StorageX.CacheRelease
