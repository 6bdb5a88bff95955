import K8StorageX.CacheUpdater
import K8StorageX.LayerfsStore

/-!
# Mounting and unmounting in agreement with the cluster

`synchronizedStore` registers a volume before it mounts it, asks for the commit
lock before it unmounts it and unregisters it afterwards. The model runs any
number of such calls from any nodes on one cache. The result of asking for the
lock is discarded by the code, so what a call commits depends on its options
alone.
-/

namespace K8StorageX.StoreWrapper

open ApiProgram CacheUpdater NodeAgent GoErrors

/-- The request is an operation on the node. -/
def OnNode (r : Req) : Prop := ∃ op, r = .layerfs op

/-- The methods of the wrapped store that the wrapper calls. They do not know the
cluster. -/
structure WrappedStore where
  /-- `Store.Mount` -/
  mount : MountOptions → Agent (String × Option GoError)
  /-- `Store.Unmount` -/
  unmount : MountOptions → Agent (String × Bool × Option GoError)
  /-- Mounting works on the node only. -/
  mount_onNode : ∀ opts, (mount opts).Issues OnNode
  /-- Unmounting works on the node only. -/
  unmount_onNode : ∀ opts, (unmount opts).Issues OnNode

theorem onNode_of_localWork (commit : Bool) (r : Req) (h : LayerfsStore.LocalWork commit r) :
    OnNode r := by
  obtain ⟨op, rfl, -⟩ := h
  exact ⟨op, rfl⟩

/-- The store the wrapper is used with. -/
def layerfs : WrappedStore where
  mount := LayerfsStore.mount
  unmount := LayerfsStore.unmount
  mount_onNode opts :=
    (LayerfsStore.issues_mount opts).mono (onNode_of_localWork true)
  unmount_onNode opts := (LayerfsStore.issues_unmount opts).mono (onNode_of_localWork opts.commit)

/-- `synchronizedStore.Mount` of any wrapped store. -/
def mount (store : WrappedStore) (nodeName : String) (opts : MountOptions) :
    Agent (String × Option GoError) := do
  if opts.cacheName = "" ∨ opts.cacheNamespace = "" then
    return ("", some (.text "no cache name or namespace provided"))
  else
    let registered ← registerCacheVolume nodeName opts.containerName opts.image true
    if registered.2.isSome then return ("", registered.2)
    else
      let result ← store.mount { opts with image := registered.1 }
      if result.2.isSome then
        let _ ← unregisterCacheVolume nodeName opts.containerName result.2
        return result
      else return result

/-- `synchronizedStore.Unmount` of any wrapped store. The decision of `PrepareCommit` is not
used; its error is reported only if unmounting succeeds. -/
def unmount (store : WrappedStore) (nodeName : String) (opts : MountOptions) :
    Agent (String × Bool × Option GoError) := do
  if opts.cacheName = "" ∨ opts.cacheNamespace = "" then
    return ("", false, some (.text "no cache name or namespace provided"))
  else
    let prepared ← prepareCommit nodeName opts.containerName
    let _ ← Prog.request (Req.enterUnmount opts)
    let result ← store.unmount opts
    let err := (result.2.2 <|> prepared.2).map (.wrapped "unmount")
    let err ← unregisterCacheVolume nodeName opts.containerName err
    return (result.1, result.2.1, err)

end K8StorageX.StoreWrapper

namespace K8StorageX.SynchronizedStore

open ApiProgram WorkerPool CacheModel CommitLock CacheUpdater NodeAgent LayerfsStore GoErrors
open OptimisticStore (Cell Versioned)

/-- `synchronizedStore.Mount` -/
def mount : String → MountOptions → Agent (String × Option GoError) :=
  StoreWrapper.mount StoreWrapper.layerfs

/-- `synchronizedStore.Unmount` -/
def unmount : String → MountOptions → Agent (String × Bool × Option GoError) :=
  StoreWrapper.unmount StoreWrapper.layerfs

/-- A call made on a node. -/
inductive Job where
  /-- `Mount` -/
  | mount (nodeName : String) (opts : MountOptions)
  /-- `Unmount` -/
  | unmount (nodeName : String) (opts : MountOptions)

/-- What a call returns. -/
inductive Result where
  /-- Results of `Mount` -/
  | mounted (dir : String) (err : Option GoError)
  /-- Results of `Unmount` -/
  | unmounted (imageID : String) (newImage : Bool) (err : Option GoError)

/-- The program of a call. -/
def Job.program : Job → Agent Result
  | .mount nodeName opts => do
    let result ← SynchronizedStore.mount nodeName opts
    return .mounted result.1 result.2
  | .unmount nodeName opts => do
    let result ← SynchronizedStore.unmount nodeName opts
    return .unmounted result.1 result.2.1 result.2.2

/-- The cache in the cluster and the calls made so far. -/
structure Shared where
  /-- The cache resource and the clock. -/
  cell : Cell Cache
  /-- The call each worker has made. -/
  jobs : ℕ → Option Job

/-- Chosen answers: a failure of the Kubernetes API and the outcomes of the
container libraries. -/
structure Answers where
  /-- Failure of a request to the API. -/
  api : Option ApiError
  /-- Outcome of each operation on the node. -/
  layerfs : (op : LayerfsOp) → op.Outcome

/-- Serve one request of a call. -/
def serve (a : Answers) : (r : Req) → Shared → Resp r × Shared
  | .cache r, s =>
    let answer := s.cell.serve cacheSpec a.api r
    (answer.1, { s with cell := answer.2 })
  | .enterUnmount _, s => ((), s)
  | .layerfs op, s => (a.layerfs op, s)

/-- Any number of calls on one cache from any nodes. -/
def nodes : System ℕ Job Req Resp Shared Answers (OptimisticStore.Env CacheSpec) Result where
  serve _ := serve
  env e s := (s.cell.env cacheSpec e).map fun cell => { s with cell := cell }
  onStart w job s :=
    match s.jobs w with
    | some _ => none
    | none => some { s with jobs := Function.update s.jobs w (some job) }
  program _ job := job.program
  onFinish _ _ _ := none
  onCrash _ := none

/-- States of the calls. -/
abbrev NodesState : Type := State ℕ Req Resp Shared Result

/-- No call has been made yet. -/
def Shared.initial (object : Option Cache) (clock : Time) : Shared :=
  ⟨⟨object.map (Versioned.mk 0), 0, clock⟩, fun _ => none⟩

/-- The states of all runs from a given cache, or none, at a given time. -/
def Reached (init : Option Cache) (start : Time) (st : NodesState) : Prop :=
  nodes.Reachable (idle (Shared.initial init start)) st

/-- `PrepareCommit` of this call has returned `commit = true`. -/
def Granted (nodeName : String) (opts : MountOptions) (seen : Record Req Resp) : Prop :=
  ∃ err, (prepareCommit nodeName opts.containerName).replay seen = some ((true, err), [])

/-- If a call enters the wrapped `Unmount` with the commit option, then only with
the permission it has asked for. -/
def CommitsWithPermission (st : NodesState) (w : ℕ) (nodeName : String) (opts : MountOptions) :
    Prop :=
  ∀ seen opts' next, st.running w = some ⟨seen, .call (.enterUnmount opts') next⟩ →
    opts'.commit = true → Granted nodeName opts seen

/-- A call is about to commit or to push an image. -/
def Publishing (st : NodesState) (w : ℕ) : Prop :=
  ∃ seen op next, st.running w = some ⟨seen, .call (.layerfs op) next⟩ ∧ publishes op = true

/-- No volume of the cache, if it exists, has a commit start time. -/
def LockFreeCache (object : Option Cache) : Prop := ∀ c ∈ object, LockFree c.status

instance (object : Option Cache) : Decidable (LockFreeCache object) :=
  inferInstanceAs (Decidable (∀ c ∈ object, LockFree c.status))

/-- What a request of a call has to do with the call. -/
def Conforms (init : Option Cache) (seen : Record Req Resp) (r : Req) : Job → Prop
  | .mount _ _ => (∀ opts, r ≠ .enterUnmount opts) ∧ ∀ op, r = .layerfs op → publishes op = false
  | .unmount nodeName opts =>
    (∀ opts', r = .enterUnmount opts' → opts' = opts ∧
      ∃ commit err,
        (prepareCommit nodeName opts.containerName).replay seen = some ((commit, err), []) ∧
          (LockFreeCache init → commit = false)) ∧
    ∀ op, r = .layerfs op → publishes op = true → opts.commit = true

/-- The discipline of the calls: jobs are never exchanged, requests conform to
them, and a cache that starts without a lock never gets one. -/
def discipline (init : Option Cache) : Discipline nodes where
  inv s := LockFreeCache init → LockFreeCache (s.cell.object.map (·.value))
  rely w s t := t.jobs w = s.jobs w
  guarantee w seen r _ s t :=
    (∀ v, t.jobs v = s.jobs v) ∧ ∃ job, s.jobs w = some job ∧ Conforms init seen r job
  post _ _ _ _ := True
  rely_refl _ _ := rfl
  rely_trans _ _ _ _ h k := k.trans h

section Requests

variable {init : Option Cache} {w : ℕ} {job : Job} {s : Shared}

/-- Closures on a cache without locks set none. -/
theorem lockFree_modify (call : Call) (now : Time) {c : Cache} (h : LockFree c.status) :
    LockFree (call.modify now c).1.status := by
  have hp : ∀ v : VolumeStatus, v.commitStartTime = none → v.commitStartTime.isSome = false := by
    intro v hv
    rw [hv]
    rfl
  have hle : (call.modify now c).1.status.volumes.countP (·.commitStartTime.isSome) ≤
      c.status.volumes.countP (·.commitStartTime.isSome) := by
    cases call with
    | register nodeName volumeName defaultImage commit => exact countP_registerVolume_le hp _ _ _ _ _ _
    | prepareCommit nodeName volumeName =>
      exact countP_decideCommit_le hp (decideCommit_refused_of_lockFree h nodeName volumeName)
    | unregister nodeName volumeName commitErr => exact countP_unregisterVolume_le _ _ _ _ _
  exact Nat.le_zero.mp (h ▸ hle)

/-- Closures on a cache without locks grant no commit. -/
theorem commit_modify_of_lockFree (call : Call) (now : Time) {c : Cache} (h : LockFree c.status) :
    (call.modify now c).2.commit = false := by
  cases call with
  | register nodeName volumeName defaultImage commit => rfl
  | prepareCommit nodeName volumeName =>
    exact decideCommit_refused_of_lockFree h nodeName volumeName
  | unregister nodeName volumeName commitErr => rfl

/-- Requests to the API conform to every call. -/
theorem conforms_cache (seen : Record Req Resp) (r : OptimisticStore.Req Cache) :
    Conforms init seen (.cache r) job := by
  cases job with
  | mount nodeName opts =>
    refine ⟨?_, ?_⟩
    · intro opts h
      contradiction
    · intro op h
      contradiction
  | unmount nodeName opts =>
    refine ⟨?_, ?_⟩
    · intro opts' h
      contradiction
    · intro op h
      contradiction

/-- A request to the API is safe if its effect on the cache is. -/
theorem wp_cache {α : Type} {post : Record Req Resp → α → Shared → Prop} {seen : Record Req Resp}
    {r : OptimisticStore.Req Cache} {next : OptimisticStore.Resp Cache r → Agent α}
    (hs : s.jobs w = some job)
    (h : ∀ t a, t.jobs w = some job → (discipline init).inv t →
      (discipline init).inv { t with cell := (t.cell.serve cacheSpec a r).2 } ∧
        ∀ seen, Wp ((discipline init).contract w) post (next (t.cell.serve cacheSpec a r).1) seen
          { t with cell := (t.cell.serve cacheSpec a r).2 }) :
    Wp ((discipline init).contract w) post (.call (.cache r) next) seen s := by
  intro t hr hi a _
  have ht : t.jobs w = some job := Eq.trans hr hs
  obtain ⟨hinv, hnext⟩ := h t a.api ht hi
  exact ⟨hinv, ⟨fun v => rfl, job, ht, conforms_cache seen r⟩, hnext _⟩

/-- What an update of the cache has achieved: without locks no commit is granted. -/
def Undecided (init : Option Cache) (w : ℕ) (job : Job) (_ : Record Req Resp)
    (outcome : Captured × Option ApiError) (s : Shared) : Prop :=
  s.jobs w = some job ∧ (LockFreeCache init → outcome.1.commit = false)

theorem wp_undecided {seen : Record Req Resp} {outcome : Captured × Option ApiError}
    (hs : s.jobs w = some job) (h : LockFreeCache init → outcome.1.commit = false) :
    Wp ((discipline init).contract w) (Undecided init w job) (.ret outcome) seen s := by
  intro t hr _
  exact ⟨Eq.trans hr hs, h⟩

/-- Writing back a modified cache without locks sets none. -/
theorem wp_store (call : Call) (read : Versioned Cache) {seen : Record Req Resp}
    (hs : s.jobs w = some job) (hread : LockFreeCache init → LockFree read.value.status) :
    Wp ((discipline init).contract w) (Undecided init w job)
      (onCache (OptimisticStore.store cacheSpec call read)) seen s := by
  refine wp_cache hs fun t a ht hi => ⟨hi, fun seen => wp_cache ht fun u b hu hiu => ?_⟩
  have hcommit : LockFreeCache init → (call.modify t.cell.clock read.value).2.commit = false :=
    fun hinit => commit_modify_of_lockFree call _ (hread hinit)
  cases b with
  | some e => exact ⟨hiu, fun seen => wp_undecided hu hcommit⟩
  | none =>
    cases hobject : u.cell.object with
    | none =>
      simp only [Cell.serve, hobject]
      exact ⟨hiu, fun seen => wp_undecided hu hcommit⟩
    | some stored =>
      by_cases hv : stored.version = read.version
      · simp only [Cell.serve, hobject, if_pos hv]
        refine ⟨?_, fun seen => wp_undecided hu hcommit⟩
        intro hinit c hc
        cases hc
        exact lockFree_modify call _ (hread hinit)
      · simp only [Cell.serve, hobject, if_neg hv]
        exact ⟨hiu, fun seen => wp_undecided hu hcommit⟩

/-- Reading the cache leads to a write or to a failure. -/
theorem wp_get {call : Call} {seen : Record Req Resp}
    {next : Except ApiError (Versioned Cache) → Agent (Captured × Option ApiError)}
    (hs : s.jobs w = some job)
    (hok : ∀ read, next (.ok read) = onCache (OptimisticStore.store cacheSpec call read))
    (herror : ∀ e t seen, t.jobs w = some job →
      Wp ((discipline init).contract w) (Undecided init w job) (next (.error e)) seen t) :
    Wp ((discipline init).contract w) (Undecided init w job) (.call (.cache .get) next) seen s := by
  refine wp_cache hs fun t a ht hi => ?_
  cases a with
  | some e => exact ⟨hi, fun seen => herror _ _ _ ht⟩
  | none =>
    cases hobject : t.cell.object with
    | none =>
      simp only [Cell.serve, hobject]
      exact ⟨hi, fun seen => herror _ _ _ ht⟩
    | some read =>
      simp only [Cell.serve, hobject]
      refine ⟨hi, fun seen => ?_⟩
      rw [hok]
      refine wp_store call read ht fun hinit => hi hinit read.value ?_
      rw [hobject]
      rfl

theorem wp_reload {call : Call} {captured : Captured} {seen : Record Req Resp}
    (hs : s.jobs w = some job) (hcaptured : LockFreeCache init → captured.commit = false) :
    Wp ((discipline init).contract w) (Undecided init w job)
      (onCache (OptimisticStore.attempt.reload cacheSpec call captured)) seen s :=
  wp_get hs (fun _ => rfl) fun _ _ _ ht => wp_undecided ht hcaptured

/-- One attempt to update the cache sets no lock where there is none. -/
theorem wp_attempt {call : Call} {captured : Captured} {seen : Record Req Resp}
    (hs : s.jobs w = some job) (hcaptured : LockFreeCache init → captured.commit = false) :
    Wp ((discipline init).contract w) (Undecided init w job)
      (onCache (OptimisticStore.attempt cacheSpec call captured)) seen s := by
  simp only [OptimisticStore.attempt, Prog.request_bind, Prog.pure_eq]
  refine wp_get hs (fun _ => rfl) ?_
  intro e t seen ht
  dsimp only
  split
  · exact wp_undecided ht hcaptured
  · refine wp_cache ht fun u a hu hi => ?_
    cases a with
    | some e =>
      refine ⟨hi, fun seen => ?_⟩
      simp only [Cell.serve]
      split
      · exact wp_reload hu hcaptured
      · exact wp_undecided hu hcaptured
    | none =>
      cases hobject : u.cell.object with
      | some stored =>
        simp only [Cell.serve, hobject]
        exact ⟨hi, fun seen => wp_reload hu hcaptured⟩
      | none =>
        simp only [Cell.serve, hobject]
        refine ⟨?_, fun seen => wp_reload hu hcaptured⟩
        intro _ c hc
        cases hc
        rfl

theorem wp_retryOnConflict {call : Call} (n : ℕ) (captured : Captured) {seen : Record Req Resp}
    (hs : s.jobs w = some job) (hcaptured : LockFreeCache init → captured.commit = false) :
    Wp ((discipline init).contract w) (Undecided init w job)
      (onCache (OptimisticStore.retryOnConflict cacheSpec call n captured)) seen s := by
  induction n generalizing captured seen s with
  | zero => exact wp_attempt hs hcaptured
  | succ n ih =>
    rw [OptimisticStore.retryOnConflict, onCache_bind]
    refine Wp.bind ((wp_attempt hs hcaptured).mono ?_)
    intro seen result t _ hresult
    split
    · exact ih _ hresult.1 hresult.2
    · exact wp_undecided hresult.1 hresult.2

/-- Updating the cache keeps the call and grants no commit without locks. -/
theorem wp_updateCache (call : Call) {seen : Record Req Resp} (hs : s.jobs w = some job) :
    Wp ((discipline init).contract w) (Undecided init w job) (updateCache call) seen s :=
  wp_retryOnConflict _ _ hs fun _ => rfl

/-- A call that only works on the node keeps itself, if such work conforms to it. -/
theorem wp_localWork {α : Type} {p : Agent α} {requested : Bool} {seen : Record Req Resp}
    (hp : p.Issues (LocalWork requested)) (hs : s.jobs w = some job)
    (hconforms : ∀ seen op, (publishes op = true → requested = true) →
      Conforms init seen (.layerfs op) job) :
    Wp ((discipline init).contract w) (fun _ _ t => t.jobs w = some job) p seen s := by
  refine Wp.of_issues (fun ht hr => Eq.trans hr ht) ?_ hp hs
  intro r t seen a hkind ht hi _
  obtain ⟨op, rfl, hop⟩ := hkind
  exact ⟨hi, ⟨fun v => rfl, job, ht, hconforms seen op hop⟩, ht⟩

theorem wp_registerCacheVolume (nodeName volumeName defaultImage : String) (commit : Bool)
    {seen : Record Req Resp} (hs : s.jobs w = some job) :
    Wp ((discipline init).contract w) (fun _ _ t => t.jobs w = some job)
      (registerCacheVolume nodeName volumeName defaultImage commit) seen s := by
  refine Wp.bind ((wp_updateCache _ hs).mono ?_)
  intro seen outcome t _ houtcome u hr _
  exact Eq.trans hr houtcome.1

theorem wp_unregisterCacheVolume (nodeName volumeName : String) (commitErr : Option GoError)
    {seen : Record Req Resp} (hs : s.jobs w = some job) :
    Wp ((discipline init).contract w) (fun _ _ t => t.jobs w = some job)
      (unregisterCacheVolume nodeName volumeName commitErr) seen s := by
  refine Wp.bind ((wp_updateCache _ hs).mono ?_)
  intro seen outcome t _ houtcome u hr _
  exact Eq.trans hr houtcome.1

/-- Without locks `PrepareCommit` does not grant a commit. -/
theorem wp_prepareCommit (nodeName volumeName : String) {seen : Record Req Resp}
    (hs : s.jobs w = some job) :
    Wp ((discipline init).contract w)
      (fun _ reply t => t.jobs w = some job ∧ (LockFreeCache init → reply.1 = false))
      (prepareCommit nodeName volumeName) seen s := by
  refine Wp.bind ((wp_updateCache _ hs).mono ?_)
  intro seen outcome t _ houtcome u hr _
  refine ⟨Eq.trans hr houtcome.1, fun hinit => ?_⟩
  unfold prepareReply
  split
  · rfl
  · exact houtcome.2 hinit

/-- The program of `Mount` is safe. -/
theorem wp_mount (nodeName : String) (opts : MountOptions)
    (hs : s.jobs w = some (.mount nodeName opts)) :
    Wp ((discipline init).contract w) (fun _ _ _ => True) (mount nodeName opts) [] s := by
  unfold mount StoreWrapper.mount
  split
  · exact fun _ _ _ => trivial
  · refine Wp.bind ((wp_registerCacheVolume _ _ _ _ hs).mono ?_)
    intro seen registered t _ ht
    split
    · exact fun _ _ _ => trivial
    · have hissues : (LayerfsStore.mount { opts with image := registered.1 }).Issues
          (LocalWork false) := issues_mount _
      refine Wp.bind ((wp_localWork hissues ht ?_).mono ?_)
      · intro seen op hop
        refine ⟨?_, ?_⟩
        · intro opts h
          contradiction
        · intro op' h
          cases h
          exact Bool.eq_false_iff.mpr fun hpub => Bool.false_ne_true (hop hpub)
      · intro seen result u _ hu
        split
        · refine Wp.bind ((wp_unregisterCacheVolume _ _ _ hu).mono ?_)
          exact fun _ _ _ _ _ _ _ _ => trivial
        · exact fun _ _ _ => trivial

/-- The program of `Unmount` is safe: it enters the wrapped `Unmount` with its own
options, right after `PrepareCommit` has returned. -/
theorem wp_unmount (nodeName : String) (opts : MountOptions)
    (hs : s.jobs w = some (.unmount nodeName opts)) :
    Wp ((discipline init).contract w) (fun _ _ _ => True) (unmount nodeName opts) [] s := by
  unfold unmount StoreWrapper.unmount
  split
  · exact fun _ _ _ => trivial
  · refine Wp.bind ((wp_prepareCommit nodeName opts.containerName hs).replayed.mono ?_)
    intro seen prepared t _ hprepared
    obtain ⟨⟨ht, hcommit⟩, hreplay⟩ := hprepared
    simp only [Prog.request_bind]
    intro u hr hi a _
    have hu : u.jobs w = some (.unmount nodeName opts) := Eq.trans hr ht
    refine ⟨hi, ⟨fun v => rfl, _, hu, ?_⟩, ?_⟩
    · refine ⟨?_, ?_⟩
      · intro opts' h
        cases h
        exact ⟨rfl, prepared.1, prepared.2, hreplay, hcommit⟩
      · intro op h
        contradiction
    · refine Wp.bind ((wp_localWork (issues_unmount opts) hu ?_).mono ?_)
      · intro seen op hop
        refine ⟨?_, ?_⟩
        · intro opts' h
          contradiction
        · intro op' h
          cases h
          exact hop
      · intro seen result v _ hv
        refine Wp.bind ((wp_unregisterCacheVolume _ _ _ hv).mono ?_)
        exact fun _ _ _ _ _ _ _ _ => trivial

end Requests

/-- All calls respect the discipline. -/
theorem discipline_respected (init : Option Cache) : (discipline init).Respected where
  start := by
    intro w job s t hi _ h
    cases hjob : s.jobs w with
    | some job' => simp only [nodes, hjob, reduceCtorEq] at h
    | none =>
      simp only [nodes, hjob, Option.some.injEq] at h
      subst h
      have hstarted : Function.update s.jobs w (some job) w = some job := Function.update_self _ _ _
      refine ⟨hi, fun v hv => Function.update_of_ne hv _ _, ?_⟩
      cases job with
      | mount nodeName opts =>
        exact Wp.bind ((wp_mount nodeName opts hstarted).mono fun _ _ _ _ _ _ _ _ => trivial)
      | unmount nodeName opts =>
        exact Wp.bind ((wp_unmount nodeName opts hstarted).mono fun _ _ _ _ _ _ _ _ => trivial)
  env := by
    intro e s t hi _ h
    simp only [nodes, Option.map_eq_some_iff] at h
    obtain ⟨cell, hcell, rfl⟩ := h
    refine ⟨?_, fun w => rfl⟩
    intro hinit c hc
    have hbefore := hi hinit
    cases e with
    | tick duration =>
      cases hcell
      exact hbefore c hc
    | create edit =>
      cases hobject : s.cell.object with
      | some stored => simp only [Cell.env, hobject, reduceCtorEq] at hcell
      | none =>
        simp only [Cell.env, hobject, Option.some.injEq] at hcell
        subst hcell
        cases hc
        rfl
    | edit edit =>
      simp only [Cell.env, Option.map_eq_some_iff] at hcell
      obtain ⟨stored, hobject, rfl⟩ := hcell
      cases hc
      refine hbefore stored.value ?_
      rw [hobject]
      rfl
  finish := by
    intro w seen value s t _ _ h
    simp only [nodes, reduceCtorEq] at h
  crash := by
    intro s t _ h
    simp only [nodes, reduceCtorEq] at h
  compatible := fun _ _ h _ => h.1 _

/-- The discipline is about all steps. -/
theorem discipline_admits (init : Option Cache) (st : NodesState)
    (e : Event ℕ Job Answers (OptimisticStore.Env CacheSpec)) : (discipline init).Admits st e := by
  cases e with
  | start w j => exact trivial
  | serve w fault => exact fun _ _ _ _ => trivial
  | finish w => exact trivial
  | crash => exact trivial
  | env e => exact trivial

/-- Every state a run of calls reaches is safe. -/
theorem reached_safe {init : Option Cache} {start : Time} {st : NodesState}
    (h : Reached init start st) : (discipline init).Safe st := by
  refine Discipline.reachable_safe (discipline_respected init) (discipline_admits init) ?_ h
  intro hinit c hc
  cases init with
  | none => contradiction
  | some c' =>
    cases hc
    exact hinit _ rfl

/-- Answers of container libraries that always succeed on a changed container. -/
def succeeding : Answers where
  api := none
  layerfs
    | .parseStoreReference name => .ok ⟨name⟩
    | .parseImageName name => .ok ⟨name⟩
    | .mkdir _ => .ok ()
    | .remove _ => .ok ()
    | .mount _ _ => .ok ()
    | .unmount _ => .ok ()
    | .newBuilder _ _ _ => .ok ⟨"container1", none⟩
    | .openBuilder _ => .ok ⟨"container1", none⟩
    | .openBuilderByPath _ => .ok ⟨"container1", none⟩
    | .builderMount _ => .ok "dir"
    | .builderSave _ _ => .ok ()
    | .builderUnmount _ => .ok ()
    | .builderDelete _ => .ok ()
    | .contextErr => false
    | .container _ => .ok ⟨"layer1", "image1"⟩
    | .changes _ => .ok 1
    | .builderCommit _ _ => .ok ("image2", "ref2")
    | .newStoreReference ref _ => .ok ⟨ref⟩
    | .copyImage _ _ => .ok ()

section Calls

variable {init : Option Cache} {start : Time} {st : NodesState}

/-- Every request of a call conforms to it. -/
theorem conforms_of_reached (h : Reached init start st) {w : ℕ} {seen : Record Req Resp} {r : Req}
    {next : Resp r → Agent Result} (hw : st.running w = some ⟨seen, .call r next⟩) :
    ∃ job, st.shared.jobs w = some job ∧ Conforms init seen r job :=
  ((reached_safe h).guarantee hw succeeding trivial).2

/-- A call enters the wrapped `Unmount` with its own options; without locks it has
no permission to commit. -/
theorem enterUnmount_of_reached (h : Reached init start st) {w : ℕ} {nodeName : String}
    {opts opts' : MountOptions} {seen : Record Req Resp}
    {next : Resp (.enterUnmount opts') → Agent Result}
    (hjob : st.shared.jobs w = some (.unmount nodeName opts))
    (hw : st.running w = some ⟨seen, .call (.enterUnmount opts') next⟩) :
    opts' = opts ∧ (LockFreeCache init → ¬ Granted nodeName opts seen) := by
  obtain ⟨job, hjob', hconforms⟩ := conforms_of_reached h hw
  rw [hjob, Option.some.injEq] at hjob'
  subst hjob'
  obtain ⟨hopts, commit, err, hreplay, hlocks⟩ := hconforms.1 opts' rfl
  refine ⟨hopts, fun hinit hgranted => ?_⟩
  obtain ⟨err', hreplay'⟩ := hgranted
  rw [hreplay, hlocks hinit] at hreplay'
  simp at hreplay'

/-- Whether a volume is committed follows the options of the call alone. A call of
`Unmount` without the commit option has the permission it needs and publishes
nothing; only a call with the commit option publishes; and as long as no volume of
the initial cache holds a lock, a call with the commit option enters the wrapped
`Unmount` without having the permission. -/
theorem unmount_commit_follows_options (h : Reached init start st) :
    (∀ w nodeName opts, st.shared.jobs w = some (.unmount nodeName opts) → opts.commit = false →
        CommitsWithPermission st w nodeName opts) ∧
      (∀ w, Publishing st w →
        ∃ nodeName opts, st.shared.jobs w = some (.unmount nodeName opts) ∧ opts.commit = true) ∧
      (LockFreeCache init → ∀ w nodeName opts seen opts' next,
        st.shared.jobs w = some (.unmount nodeName opts) → opts.commit = true →
        st.running w = some ⟨seen, .call (.enterUnmount opts') next⟩ →
        ¬ CommitsWithPermission st w nodeName opts) := by
  refine ⟨?_, ?_, ?_⟩
  · intro w nodeName opts hjob hcommit seen opts' next hw hcommit'
    rw [(enterUnmount_of_reached h hjob hw).1, hcommit] at hcommit'
    contradiction
  · intro w hpublishing
    obtain ⟨seen, op, next, hw, hop⟩ := hpublishing
    obtain ⟨job, hjob, hconforms⟩ := conforms_of_reached h hw
    cases job with
    | mount nodeName opts =>
      rw [hconforms.2 op rfl] at hop
      contradiction
    | unmount nodeName opts => exact ⟨nodeName, opts, hjob, hconforms.2 op rfl hop⟩
  · intro hinit w nodeName opts seen opts' next hjob hcommit hw hpermission
    obtain ⟨hopts, hrefused⟩ := enterUnmount_of_reached h hjob hw
    have hcommit' : opts'.commit = true := hopts ▸ hcommit
    exact hrefused hinit (hpermission seen opts' next hw hcommit')

/-- A read-only cache that nobody has used. -/
def readOnlyCache : Cache := ⟨⟨true⟩, .empty⟩

/-- Options of a volume of the cache; the image is in a registry. -/
def volumeOptions (commit : Bool) : MountOptions :=
  ⟨"docker://registry/cache", "vol1", "", commit, "cache", "default"⟩

/-- A volume of the cache is mounted, and another call starts to unmount it with the
commit option; the first requests of that call are served. -/
def unmounting (served : ℕ) : List (Event ℕ Job Answers (OptimisticStore.Env CacheSpec)) :=
  .start 0 (.mount "node1" (volumeOptions false)) :: List.replicate 6 (.serve 0 succeeding) ++
    .start 1 (.unmount "node1" (volumeOptions true)) :: List.replicate served (.serve 1 succeeding)

theorem unmounting_enters :
    ∃ st : NodesState, Reached (some readOnlyCache) 0 st ∧
      st.shared.jobs 1 = some (.unmount "node1" (volumeOptions true)) ∧
      ∃ seen next, st.running 1 = some ⟨seen, .call (.enterUnmount (volumeOptions true)) next⟩ :=
  ⟨_, ⟨unmounting 3, rfl⟩, rfl, _, _, rfl⟩

theorem unmount_commit_follows_options_readOnly :
    ∃ st : NodesState, Reached (some readOnlyCache) 0 st ∧
      st.shared.jobs 1 = some (.unmount "node1" (volumeOptions true)) ∧
      ¬ CommitsWithPermission st 1 "node1" (volumeOptions true) := by
  obtain ⟨st, h, hjob, seen, next, hw⟩ := unmounting_enters
  refine ⟨st, h, hjob, ?_⟩
  exact (unmount_commit_follows_options h).2.2 (by decide) 1 _ _ _ _ _ hjob rfl hw

/-- A call commits the volume of a read-only cache: it has entered the wrapped
`Unmount` with the commit option although its `PrepareCommit` refused the commit,
and goes on to commit the container. -/
theorem readOnly_cache_committed :
    (∃ st : NodesState, Reached (some readOnlyCache) 0 st ∧
      st.shared.jobs 1 = some (.unmount "node1" (volumeOptions true)) ∧
      ¬ CommitsWithPermission st 1 "node1" (volumeOptions true)) ∧
    ∃ st : NodesState, Reached (some readOnlyCache) 0 st ∧
      (st.shared.cell.object.map fun o => o.value.spec.readOnly) = some true ∧ Publishing st 1 := by
  refine ⟨?_, _, ⟨unmounting 10, rfl⟩, rfl, _, _, _, rfl, rfl⟩
  obtain ⟨st, h, hjob, seen, next, hw⟩ := unmounting_enters
  refine ⟨st, h, hjob, fun hpermission => ?_⟩
  have hrefused := (enterUnmount_of_reached h hjob hw).2 (by decide)
  exact hrefused (hpermission seen _ next hw rfl)

end Calls

end K8StorageX.SynchronizedStore
