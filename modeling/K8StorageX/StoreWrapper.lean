import K8StorageX.CacheStructure
import K8StorageX.SynchronizedStore

/-!
# What the synchronized store reports and leaves behind

`synchronizedStore` wraps any store of containers. This module runs one call of it
alone, with any wrapped store: which of the three errors of `Unmount` the caller
gets to see, and what a failing `Mount` leaves of the registrations. An update of
the cache that is stored without interference applies its closure once.
-/

namespace K8StorageX.StoreWrapper

open ApiProgram CacheModel CacheUpdater CacheStructure NodeAgent GoErrors
open OptimisticStore (Cell Versioned)

section Answers

/-- Answers to a call nobody interferes with: time passes, requests to the API may
fail without an effect, and the node answers as it likes. -/
def undisturbed : (r : Req) → Cell Cache → Resp r → Cell Cache → Prop
  | .cache r, s, response, t => ∃ (fault : Option ApiError) (elapsed : ℕ),
      { s with clock := s.clock + elapsed }.serve cacheSpec fault r = (response, t)
  | .enterUnmount _, s, _, t => t = s
  | .layerfs _, s, _, t => t = s

/-- Chosen answers, without time passing. -/
def answering (a : SynchronizedStore.Answers) : (r : Req) → Cell Cache → Resp r × Cell Cache
  | .cache r, s => s.serve cacheSpec a.api r
  | .enterUnmount _, s => ((), s)
  | .layerfs op, s => (a.layerfs op, s)

theorem undisturbed_answering (a : SynchronizedStore.Answers) (r : Req) (s : Cell Cache) :
    undisturbed r s (answering a r s).1 (answering a r s).2 := by
  cases r with
  | cache r => exact ⟨a.api, 0, by simp [answering]⟩
  | enterUnmount opts => rfl
  | layerfs op => rfl

/-- Evaluate a call with chosen answers. -/
def evalWith {α : Type} (a : SynchronizedStore.Answers) (p : Agent α) (s : Cell Cache) :
    α × Cell Cache := p.eval (answering a) s

theorem runs_evalWith {α : Type} {a : SynchronizedStore.Answers} {p : Agent α} {s : Cell Cache}
    {value : α} (h : (evalWith a p s).1 = value) :
    p.Runs undisturbed s value (evalWith a p s).2 :=
  Prog.runs_eval (undisturbed_answering a) h

/-- A cache that exists in the cluster. -/
def existing (c : Cache) : Cell Cache := ⟨some ⟨0, c⟩, 0, 0⟩

end Answers

section Errors

variable {σ : Type} {answers : (r : Req) → σ → Resp r → σ → Prop}

/-- The three parts of an `Unmount` call with what each of them returns. -/
structure UnmountParts (answers : (r : Req) → σ → Resp r → σ → Prop) (store : WrappedStore)
    (nodeName : String) (opts : MountOptions) (prepared : Bool × Option GoError)
    (result : String × Bool × Option GoError) (err : Option GoError) (s t : σ) : Prop where
  /-- States between the parts. -/
  parts : ∃ s₁ s₂ s₃,
    (prepareCommit nodeName opts.containerName).Runs answers s prepared s₁ ∧
    answers (.enterUnmount opts) s₁ () s₂ ∧ (store.unmount opts).Runs answers s₂ result s₃ ∧
    (unregisterCacheVolume nodeName opts.containerName
      ((result.2.2 <|> prepared.2).map (.wrapped "unmount"))).Runs answers s₃ err t

/-- A failure of any part is reported. -/
def Reported (prepared result err returned : Option GoError) : Prop :=
  (prepared.isSome ∨ result.isSome ∨ err.isSome) → returned.isSome

/-- A call of `Unmount` with a cache runs its three parts and returns the error of
the last one. -/
theorem runs_unmount {store : WrappedStore} {nodeName : String} {opts : MountOptions}
    (hnamed : ¬ (opts.cacheName = "" ∨ opts.cacheNamespace = ""))
    {value : String × Bool × Option GoError} {s t : σ} :
    (unmount store nodeName opts).Runs answers s value t ↔
      ∃ prepared result err, UnmountParts answers store nodeName opts prepared result err s t ∧
        value = (result.1, result.2.1, err) := by
  unfold unmount
  rw [if_neg hnamed]
  simp only [Prog.runs_bind_iff, Prog.request_bind, Prog.runs_call_iff, Prog.pure_eq,
    Prog.runs_ret_iff]
  constructor
  · rintro ⟨prepared, s₁, hprepared, _, s₂, henter, result, s₃, hresult, err, _, herr, rfl, rfl⟩
    exact ⟨prepared, result, err, ⟨s₁, s₂, s₃, hprepared, henter, hresult, herr⟩, rfl⟩
  · rintro ⟨prepared, result, err, ⟨s₁, s₂, s₃, hprepared, henter, hresult, herr⟩, rfl⟩
    exact ⟨prepared, s₁, hprepared, _, s₂, henter, result, s₃, hresult, err, _, herr, rfl, rfl⟩

/-- Whatever the wrapped store does and the API answers: `Unmount` without a cache
fails, and otherwise failures are reported exactly if asking for the commit and the
wrapped `Unmount` succeed or unregistering the volume fails, since its error
replaces those of the other parts. -/
theorem unmount_reports_iff {store : WrappedStore} {nodeName : String} {opts : MountOptions}
    {value : String × Bool × Option GoError} {s t : σ}
    (h : (unmount store nodeName opts).Runs answers s value t) :
    (opts.cacheName = "" ∨ opts.cacheNamespace = "" → value.2.2.isSome) ∧
      (¬ (opts.cacheName = "" ∨ opts.cacheNamespace = "") →
        ∃ prepared result err, UnmountParts answers store nodeName opts prepared result err s t ∧
          value = (result.1, result.2.1, err) ∧
          (Reported prepared.2 result.2.2 err value.2.2 ↔
            prepared.2 = none ∧ result.2.2 = none ∨ err.isSome)) := by
  constructor
  · intro hmissing
    unfold unmount at h
    rw [if_pos hmissing, Prog.pure_eq, Prog.runs_ret_iff] at h
    rw [h.1]
    rfl
  · intro hnamed
    obtain ⟨prepared, result, err, hparts, rfl⟩ := (runs_unmount hnamed).mp h
    refine ⟨prepared, result, err, hparts, rfl, ?_⟩
    unfold Reported
    cases hp : prepared.2 <;> cases hr : result.2.2 <;> cases err <;> simp

/-- The three parts may meet different answers. -/
theorem unmountParts_evalWith (a b c : SynchronizedStore.Answers) (store : WrappedStore)
    (nodeName : String) (opts : MountOptions) {prepared : Bool × Option GoError}
    {result : String × Bool × Option GoError} {err : Option GoError} {s s₁ s₂ : Cell Cache}
    (hprepared : evalWith a (prepareCommit nodeName opts.containerName) s = (prepared, s₁))
    (hresult : evalWith b (store.unmount opts) s₁ = (result, s₂))
    (herr : (evalWith c (unregisterCacheVolume nodeName opts.containerName
      ((result.2.2 <|> prepared.2).map (.wrapped "unmount"))) s₂).1 = err) :
    ∃ t, UnmountParts undisturbed store nodeName opts prepared result err s t := by
  have hfirst := runs_evalWith (congrArg Prod.fst hprepared)
  have hsecond := runs_evalWith (congrArg Prod.fst hresult)
  rw [hprepared] at hfirst
  rw [hresult] at hsecond
  exact ⟨_, s₁, s₁, s₂, hfirst, rfl, hsecond, runs_evalWith herr⟩

/-- A cache with a volume that is about to be unmounted. -/
def unmounting : Cell Cache := existing (CacheConsistency.singleVolumeCache none)

theorem unmount_reports_iff_succeeding :
    ∃ value t, (unmount layerfs "node1" (SynchronizedStore.volumeOptions true)).Runs undisturbed
        unmounting value t ∧
      ∃ prepared result err, UnmountParts undisturbed layerfs "node1"
          (SynchronizedStore.volumeOptions true) prepared result err unmounting t ∧
        (Reported prepared.2 result.2.2 err value.2.2 ↔
          prepared.2 = none ∧ result.2.2 = none ∨ err.isSome) := by
  have h : (unmount layerfs "node1" (SynchronizedStore.volumeOptions true)).Runs undisturbed
      unmounting _ _ := runs_evalWith (a := SynchronizedStore.succeeding) rfl
  obtain ⟨prepared, result, err, hparts, -, hiff⟩ := (unmount_reports_iff h).2 (by decide)
  exact ⟨_, _, h, prepared, result, err, hparts, hiff⟩

/-- The container to unmount is unknown. -/
def openFails : SynchronizedStore.Answers where
  api := none
  layerfs
    | .openBuilder _ => .error "container not known"
    | op => SynchronizedStore.succeeding.layerfs op

/-- The API does not answer in time. -/
def apiFails : SynchronizedStore.Answers := { SynchronizedStore.succeeding with
  api := some (.other "timeout") }

/-- The wrapped `Unmount` fails, or `PrepareCommit` fails, and `Unmount` returns no
error since the volume is unregistered. -/
theorem unmount_failure_swallowed :
    (∃ t prepared result, UnmountParts undisturbed layerfs "node1"
        (SynchronizedStore.volumeOptions true) prepared result none unmounting t ∧
      result.2.2.isSome ∧
      (unmount layerfs "node1" (SynchronizedStore.volumeOptions true)).Runs undisturbed unmounting
        (result.1, result.2.1, none) t) ∧
    ∃ t prepared result, UnmountParts undisturbed layerfs "node1"
        (SynchronizedStore.volumeOptions true) prepared result none unmounting t ∧
      prepared.2.isSome ∧
      (unmount layerfs "node1" (SynchronizedStore.volumeOptions true)).Runs undisturbed unmounting
        (result.1, result.2.1, none) t := by
  constructor
  · obtain ⟨t, hparts⟩ := unmountParts_evalWith SynchronizedStore.succeeding openFails
      SynchronizedStore.succeeding layerfs "node1" (SynchronizedStore.volumeOptions true)
      (s := unmounting) rfl rfl rfl
    exact ⟨t, _, _, hparts, rfl, (runs_unmount (by decide)).mpr ⟨_, _, _, hparts, rfl⟩⟩
  · obtain ⟨t, hparts⟩ := unmountParts_evalWith apiFails SynchronizedStore.succeeding
      SynchronizedStore.succeeding layerfs "node1" (SynchronizedStore.volumeOptions true)
      (s := unmounting) rfl rfl rfl
    exact ⟨t, _, _, hparts, rfl, (runs_unmount (by decide)).mpr ⟨_, _, _, hparts, rfl⟩⟩

end Errors

section Undisturbed

/-- The cache as it is stored, if it exists. -/
def stored (s : Cell Cache) : Option Cache := s.object.map (·.value)

/-- What an undisturbed update does to the cache. -/
inductive UpdateEffect (call : Call) (before : Option Cache) :
    Option Cache → Captured × Option ApiError → Prop
  /-- The closure has been applied once, to a new cache if there was none. -/
  | applied (now : Time) (exists_or_creates : before = none → call.creates = true) :
      UpdateEffect call before (some (call.modify now (before.getD .new)).1)
        ((call.modify now (before.getD .new)).2, none)
  /-- Nothing has changed. -/
  | failed (captured : Captured) (e : ApiError) : UpdateEffect call before before (captured, some e)
  /-- A missing cache has been created, but not updated. -/
  | created (captured : Captured) (e : ApiError) (missing : before = none)
      (creates : call.creates = true) :
      UpdateEffect call before (some .new) (captured, some e)

variable {call : Call} {s t : Cell Cache} {outcome : Captured × Option ApiError}

/-- Writing back what has been read stores the result of the closure or fails. -/
theorem runs_store {read : Versioned Cache} (hobject : s.object = some read)
    (h : (onCache (OptimisticStore.store cacheSpec call read)).Runs undisturbed s outcome t) :
    UpdateEffect call (some read.value) (stored t) outcome := by
  simp only [OptimisticStore.store, Prog.request_bind, onCache, Prog.runs_call_iff] at h
  obtain ⟨now, s₁, ⟨fault, elapsed, hnow⟩, response, s₂, ⟨fault', elapsed', hupdate⟩, hret⟩ := h
  have hsame : s₁.object = some read := by
    cases hnow
    exact hobject
  have happlied : UpdateEffect call (some read.value) _ _ := .applied now (by simp)
  cases fault' with
  | some e =>
    cases hupdate
    simp only [Prog.pure_eq, onCache, Prog.runs_ret_iff] at hret
    obtain ⟨rfl, rfl⟩ := hret
    have hstored : stored { s₁ with clock := s₁.clock + elapsed' } = some read.value := by
      simp [stored, hsame]
    rw [hstored]
    exact .failed _ _
  | none =>
    simp only [Cell.serve, hsame, if_true, Prod.mk.injEq] at hupdate
    obtain ⟨rfl, rfl⟩ := hupdate
    simp only [Prog.pure_eq, onCache, Prog.runs_ret_iff] at hret
    obtain ⟨rfl, rfl⟩ := hret
    have hmerge : cacheSpec.merge read.value (cacheSpec.modify call now read.value).1 =
        (cacheSpec.modify call now read.value).1 := cacheSpec.merge_modify call now read.value
    simp only [stored, Cell.put, Option.map_some, hmerge]
    exact happlied

/-- Reading the cache leaves it alone and yields it or an error. -/
theorem runs_get {next : Except ApiError (Versioned Cache) → Agent (Captured × Option ApiError)}
    (h : (Prog.call (.cache .get) next).Runs undisturbed s outcome t) :
    ∃ s', s'.object = s.object ∧
      ((∃ read, s.object = some read ∧ (next (.ok read)).Runs undisturbed s' outcome t) ∨
        ∃ e, (next (.error e)).Runs undisturbed s' outcome t) := by
  obtain ⟨response, s', ⟨fault, elapsed, hget⟩, hnext⟩ := Prog.runs_call_iff.mp h
  cases fault with
  | some e =>
    cases hget
    refine ⟨_, ?_, .inr ⟨e, hnext⟩⟩
    rfl
  | none =>
    cases hobject : s.object with
    | none =>
      simp only [Cell.serve, hobject, Prod.mk.injEq] at hget
      obtain ⟨rfl, rfl⟩ := hget
      refine ⟨_, ?_, .inr ⟨.notFound, hnext⟩⟩
      rfl
    | some read =>
      simp only [Cell.serve, hobject, Prod.mk.injEq] at hget
      obtain ⟨rfl, rfl⟩ := hget
      refine ⟨_, ?_, .inl ⟨read, rfl, hnext⟩⟩
      rfl

/-- An update that returns right after reading has not changed the cache. -/
theorem failed_of_runs_ret {s' : Cell Cache} {captured : Captured} {e : ApiError}
    (hsame : s'.object = s.object)
    (h : (Prog.ret (captured, some e) : Agent _).Runs undisturbed s' outcome t) :
    UpdateEffect call (stored s) (stored t) outcome := by
  obtain ⟨rfl, rfl⟩ := Prog.runs_ret_iff.mp h
  have hstored : stored t = stored s := by simp only [stored, hsame]
  rw [hstored]
  exact .failed captured e

theorem runs_reload {captured : Captured}
    (h : (onCache (OptimisticStore.attempt.reload cacheSpec call captured)).Runs undisturbed s
      outcome t) : UpdateEffect call (stored s) (stored t) outcome := by
  obtain ⟨s', hsame, hcase⟩ := runs_get h
  rcases hcase with ⟨read, hobject, hnext⟩ | ⟨e, hnext⟩
  · have hstored : stored s = some read.value := by simp only [stored, hobject, Option.map_some]
    rw [hstored]
    exact runs_store (hsame.trans hobject) hnext
  · exact failed_of_runs_ret hsame hnext

/-- Updating a cache that has just been created is updating a missing one. -/
theorem UpdateEffect.of_created {after : Option Cache} (hcreates : call.creates = true)
    (h : UpdateEffect call (some .new) after outcome) : UpdateEffect call none after outcome := by
  cases h with
  | applied now _ =>
    have happlied : UpdateEffect call none _ _ := .applied now fun _ => hcreates
    exact happlied
  | failed captured e => exact .created captured e rfl hcreates
  | created captured e missing _ => cases missing

/-- One undisturbed attempt. -/
theorem runs_attempt {captured : Captured}
    (h : (onCache (OptimisticStore.attempt cacheSpec call captured)).Runs undisturbed s outcome t) :
    UpdateEffect call (stored s) (stored t) outcome := by
  simp only [OptimisticStore.attempt, Prog.request_bind, Prog.pure_eq] at h
  obtain ⟨s', hsame, hcase⟩ := runs_get h
  rcases hcase with ⟨read, hobject, hnext⟩ | ⟨e, hnext⟩
  · have hstored : stored s = some read.value := by simp only [stored, hobject, Option.map_some]
    rw [hstored]
    exact runs_store (hsame.trans hobject) hnext
  · dsimp only at hnext
    split at hnext
    · exact failed_of_runs_ret hsame hnext
    · rename_i hmissing
      have hcreates : call.creates = true := by
        simpa [cacheSpec] using fun hno => hmissing (Or.inr hno)
      obtain ⟨response, s₁, ⟨fault, elapsed, hcreate⟩, hrest⟩ := Prog.runs_call_iff.mp hnext
      have hkept : stored { s' with clock := s'.clock + elapsed } = stored s := by
        simp only [stored, hsame]
      cases fault with
      | some e' =>
        cases hcreate
        dsimp only at hrest
        split at hrest
        · rw [← hkept]
          exact runs_reload hrest
        · rw [← hkept]
          exact failed_of_runs_ret rfl hrest
      | none =>
        cases hobject : s'.object with
        | some found =>
          rw [← hkept]
          simp only [Cell.serve, hobject, Prod.mk.injEq] at hcreate ⊢
          obtain ⟨rfl, rfl⟩ := hcreate
          exact runs_reload hrest
        | none =>
          simp only [Cell.serve, hobject, Prod.mk.injEq] at hcreate
          obtain ⟨rfl, rfl⟩ := hcreate
          have hnone : stored s = none := by simp only [stored, ← hsame, hobject, Option.map_none]
          rw [hnone]
          exact (runs_reload hrest).of_created hcreates

/-- An undisturbed update applies its closure once, or fails. -/
theorem runs_updateCache (h : (updateCache call).Runs undisturbed s outcome t) :
    UpdateEffect call (stored s) (stored t) outcome := by
  unfold updateCache at h
  generalize backoffSteps - 1 = retries at h
  generalize Captured.zero = captured at h
  induction retries generalizing s captured with
  | zero => exact runs_attempt h
  | succ retries ih =>
    rw [OptimisticStore.retryOnConflict, onCache_bind, Prog.runs_bind_iff] at h
    obtain ⟨result, s₁, hattempt, hrest⟩ := h
    have heffect := runs_attempt hattempt
    split at hrest
    · rename_i hconflict
      have hlater := ih _ hrest
      generalize stored s₁ = middle at heffect hlater
      cases heffect with
      | applied now _ => cases hconflict
      | failed captured e => exact hlater
      | created captured e missing hcreates =>
        rw [missing]
        exact hlater.of_created hcreates
    · obtain ⟨rfl, rfl⟩ := Prog.runs_ret_iff.mp hrest
      exact heffect

end Undisturbed

section Registrations

/-- All volumes listed for a node. -/
def listed (nodes : List NodeStatus) (nodeName : String) : List VolumeStatus :=
  (nodes.filter (·.name == nodeName)).flatMap (·.volumes)

/-- The registered volumes of a node, none without a cache. -/
def registered (cache : Option Cache) (nodeName : String) : List VolumeStatus :=
  cache.elim [] fun c => listed c.status.nodes nodeName

/-- Updating a node does not touch the volumes of the others. -/
theorem listed_of_ne {nodeName other : String} {f : List VolumeStatus → List VolumeStatus}
    {nodes nodes' : List NodeStatus} (h : Updated nodeName f nodes nodes')
    (hne : other ≠ nodeName) : listed nodes' other = listed nodes other := by
  have hentry : ∀ {n : NodeStatus}, n.name = nodeName → (n.name == other) = false := by
    intro n hn
    simpa [hn] using fun heq => hne heq.symm
  cases h with
  | existing _ hname hname' _ => simp [listed, List.filter_append, hentry hname, hentry hname']
  | appended _ hname _ => simp [listed, List.filter_append, hentry hname]

/-- Updating a node changes the volumes of its first entry. -/
theorem listed_self {nodeName : String} {f : List VolumeStatus → List VolumeStatus}
    {nodes nodes' : List NodeStatus} (h : Updated nodeName f nodes nodes') :
    ∃ rest, listed nodes nodeName = volumesOn nodes nodeName ++ rest ∧
      listed nodes' nodeName = f (volumesOn nodes nodeName) ++ rest ∧
      volumesOn nodes' nodeName = f (volumesOn nodes nodeName) := by
  have hskip : ∀ {pre : List NodeStatus}, (∀ m ∈ pre, m.name ≠ nodeName) →
      pre.filter (·.name == nodeName) = [] := by
    intro pre hpre
    exact List.filter_eq_nil_iff.mpr fun m hm => by simpa using hpre m hm
  cases h with
  | @existing pre post n n' hfirst hname hname' hvolumes =>
    refine ⟨listed post nodeName, ?_, ?_, ?_⟩
    · rw [volumesOn_split hfirst hname]
      simp [listed, List.filter_append, hskip hfirst, hname]
    · rw [volumesOn_split hfirst hname]
      simp [listed, List.filter_append, hskip hfirst, hname', hvolumes]
    · rw [volumesOn_split hfirst hname, volumesOn_split hfirst hname', hvolumes]
  | @appended nodes n hmissing hname hvolumes =>
    refine ⟨[], ?_, ?_, ?_⟩
    · simp [listed, hskip hmissing, volumesOn_missing hmissing]
    · simp [listed, List.filter_append, hskip hmissing, hname, hvolumes, volumesOn_missing hmissing]
    · rw [volumesOn_missing hmissing, volumesOn_split hmissing hname, hvolumes]

/-- A failing `Mount` registers the volume and unregisters it again. Both updates
are stored. -/
structure FailedMount (store : WrappedStore) (nodeName : String) (opts : MountOptions)
    (dir : String) (e : GoError) (s t : Cell Cache) : Prop where
  /-- The call is made for a cache. -/
  named : ¬ (opts.cacheName = "" ∨ opts.cacheNamespace = "")
  /-- States between the parts. -/
  parts : ∃ s₁ s₂ image captured,
    (updateCache (.register nodeName opts.containerName opts.image true)).Runs undisturbed s
      (⟨image, false⟩, none) s₁ ∧
    (store.mount { opts with image := image }).Runs undisturbed s₁ (dir, some e) s₂ ∧
    (updateCache (.unregister nodeName opts.containerName (some e.message))).Runs undisturbed s₂
      (captured, none) t

variable {store : WrappedStore} {nodeName dir : String} {opts : MountOptions} {e : GoError}
variable {s t : Cell Cache}

/-- The call returns the error of the wrapped store. -/
theorem FailedMount.runs (h : FailedMount store nodeName opts dir e s t) :
    (mount store nodeName opts).Runs undisturbed s (dir, some e) t := by
  obtain ⟨s₁, s₂, image, captured, hregister, hmount, hunregister⟩ := h.parts
  have hregistered : (registerCacheVolume nodeName opts.containerName opts.image true).Runs
      undisturbed s (image, none) s₁ :=
    Prog.runs_bind_iff.mpr ⟨_, s₁, hregister, Prog.runs_ret_iff.mpr ⟨rfl, rfl⟩⟩
  have hunregistered : (unregisterCacheVolume nodeName opts.containerName (some e)).Runs
      undisturbed s₂ none t :=
    Prog.runs_bind_iff.mpr ⟨_, t, hunregister, Prog.runs_ret_iff.mpr ⟨rfl, rfl⟩⟩
  unfold mount
  rw [if_neg h.named]
  refine Prog.runs_bind_iff.mpr ⟨_, s₁, hregistered, Prog.runs_bind_iff.mpr ⟨_, s₂, hmount, ?_⟩⟩
  exact Prog.runs_bind_iff.mpr ⟨_, t, hunregistered, .ret _ t⟩

/-- Working on the node leaves the cache alone. -/
theorem stored_of_onNode {α : Type} {p : Agent α} {value : α} (hp : p.Issues OnNode)
    (h : p.Runs undisturbed s value t) : stored t = stored s := by
  refine Prog.Runs.of_issues (fun s t => stored t = stored s) (fun _ => rfl)
    (fun hst htu => htu.trans hst) ?_ hp h
  intro r s response t hkind hanswer
  obtain ⟨op, rfl⟩ := hkind
  exact congrArg stored hanswer

/-- The two updates of a failing `Mount`. -/
theorem FailedMount.stored_eq (h : FailedMount store nodeName opts dir e s t) :
    ∃ now now', stored t = some (unregisterVolume nodeName opts.containerName (some e.message) now'
      (registerVolume nodeName opts.containerName opts.image true now
        ((stored s).getD .new)).1).1 := by
  obtain ⟨s₁, s₂, image, captured, hregister, hmount, hunregister⟩ := h.parts
  have hfirst := runs_updateCache hregister
  have hmiddle := stored_of_onNode (store.mount_onNode _) hmount
  have hlast := runs_updateCache hunregister
  rw [hmiddle] at hlast
  generalize hbefore : stored s₁ = before at hfirst hlast
  generalize hafter : stored t = after at hlast
  cases hfirst with
  | applied now _ =>
    cases hlast with
    | applied now' _ => exact ⟨now, now', rfl⟩

/-- Registering a volume and unregistering it again restores the lists of all nodes
exactly if the volume was not registered before. -/
theorem registered_restored_iff (c : Cache) (nodeName volumeName defaultImage : String)
    (commitErr : Option String) (now now' : Time) :
    (∀ n, listed (unregisterVolume nodeName volumeName commitErr now'
        (registerVolume nodeName volumeName defaultImage true now c).1).1.status.nodes n =
          listed c.status.nodes n) ↔ ¬ Registered c.status.nodes nodeName volumeName := by
  generalize himage : (if c.status.image = "" then defaultImage else c.status.image) = image
  have hregister : (registerVolume nodeName volumeName defaultImage true now c).1 =
      (addVolume { c with status := { c.status with image := image, used := c.status.used + 1 } }
        nodeName volumeName true now).1 := by
    rw [← himage]
    rfl
  rw [hregister]
  generalize hc' : ({ c with status :=
    { c.status with image := image, used := c.status.used + 1 } } : Cache) = c'
  have hnodes : c.status.nodes = c'.status.nodes := by rw [← hc']
  rw [hnodes]
  have hremove := unregisterVolume_updated nodeName volumeName commitErr now'
    (addVolume c' nodeName volumeName true now).1
  obtain ⟨rest', hlisted', hremoved, -⟩ := listed_self hremove
  constructor
  · -- a volume that was registered is gone
    intro hsame hwas
    have hadd : Updated nodeName id c'.status.nodes
        (addVolume c' nodeName volumeName true now).1.status.nodes := by
      rw [addVolume_of_registered hwas]
      exact updated_upsertNode c'.status nodeName now
    obtain ⟨rest, hlisted, hadded, hvolumes⟩ := listed_self hadd
    rw [hvolumes, id] at hlisted' hremoved
    rw [hadded, id] at hlisted'
    have hrest : rest = rest' := List.append_cancel_left hlisted'
    have hnow := hsame nodeName
    rw [hremoved, hlisted, hrest] at hnow
    have hkept := List.append_cancel_right hnow
    obtain ⟨v, hv, hname⟩ := hwas
    rw [← hkept, List.mem_filter] at hv
    simp [hname] at hv
  · intro hnew n
    obtain ⟨hadd, -⟩ := addVolume_of_not_registered hnew true now
    by_cases hn : n = nodeName
    · subst hn
      obtain ⟨rest, hlisted, hadded, hvolumes⟩ := listed_self hadd
      rw [hvolumes] at hlisted' hremoved
      rw [hadded] at hlisted'
      have hrest : rest = rest' := List.append_cancel_left hlisted'
      have hfilter : (volumesOn c'.status.nodes n ++ [addedVolume c' volumeName true now]).filter
          (·.name != volumeName) = volumesOn c'.status.nodes n := by
        rw [List.filter_append, List.filter_eq_self.mpr]
        · simp [addedVolume]
        · intro v hv
          simpa using fun heq => hnew ⟨v, hv, heq⟩
      rw [hremoved, hlisted, hfilter, hrest]
    · rw [listed_of_ne hremove hn, listed_of_ne hadd hn]

/-- A call of `Mount` that fails in the wrapped store returns its error. If its two
updates are stored without interference, the registered volumes of all nodes are
what they were before exactly if the volume was not registered on the node: the
registration of a volume that is already registered changes nothing, but its
rollback removes the volume. -/
theorem failed_mount_restores_iff (h : FailedMount store nodeName opts dir e s t) :
    (mount store nodeName opts).Runs undisturbed s (dir, some e) t ∧
      ((∀ n, registered (stored t) n = registered (stored s) n) ↔
        ∀ c ∈ stored s, ¬ Registered c.status.nodes nodeName opts.containerName) := by
  refine ⟨h.runs, ?_⟩
  obtain ⟨now, now', hstored⟩ := h.stored_eq
  have hrestored := registered_restored_iff ((stored s).getD .new) nodeName opts.containerName
    opts.image (some e.message) now now'
  have hbefore : ∀ n, registered (stored s) n = listed ((stored s).getD .new).status.nodes n := by
    intro n
    cases stored s <;> rfl
  have hafter : ∀ n, registered (stored t) n = listed (unregisterVolume nodeName opts.containerName
      (some e.message) now' (registerVolume nodeName opts.containerName opts.image true now
        ((stored s).getD .new)).1).1.status.nodes n := by
    intro n
    rw [hstored]
    rfl
  simp only [hbefore, hafter, hrestored]
  cases stored s with
  | none => simp [Registered, volumesOn, Cache.new, CacheStatus.empty]
  | some c => simp

/-- A volume with an external mount directory. -/
def mountedOptions : MountOptions := ⟨"image1", "vol1", "/data/vol1", true, "cache", "default"⟩

/-- The external mount directory exists already. -/
def mkdirFails : SynchronizedStore.Answers where
  api := none
  layerfs
    | .mkdir _ => .error "mkdir /data/vol1: file exists"
    | op => SynchronizedStore.succeeding.layerfs op

/-- The states of a failing `Mount` of the volume. -/
def afterRegister (c : Cache) : (Captured × Option ApiError) × Cell Cache :=
  evalWith mkdirFails (updateCache (.register "node1" "vol1" "image1" true)) (existing c)

@[inherit_doc afterRegister]
def afterMount (c : Cache) : (String × Option GoError) × Cell Cache :=
  evalWith mkdirFails (layerfs.mount mountedOptions) (afterRegister c).2

@[inherit_doc afterRegister]
def afterRollback (c : Cache) : (Captured × Option ApiError) × Cell Cache :=
  evalWith mkdirFails (updateCache (.unregister "node1" "vol1"
    (some "mkdir /data/vol1: file exists"))) (afterMount c).2

theorem failedMount_mkdir {c : Cache} (hregister : (afterRegister c).1 = (⟨"image1", false⟩, none))
    (hmount : (afterMount c).1 = ("", some (.text "mkdir /data/vol1: file exists")))
    (hrollback : (afterRollback c).1 = (.zero, none)) :
    FailedMount layerfs "node1" mountedOptions "" (.text "mkdir /data/vol1: file exists")
      (existing c) (afterRollback c).2 :=
  ⟨by decide, _, _, _, _, runs_evalWith hregister, runs_evalWith hmount, runs_evalWith hrollback⟩

theorem failed_mount_restores_iff_new :
    ∃ t, FailedMount layerfs "node1" mountedOptions "" (.text "mkdir /data/vol1: file exists")
        (existing .new) t ∧
      ∀ n, registered (stored t) n = registered (stored (existing .new)) n := by
  have h := failedMount_mkdir (c := .new) (by decide +kernel) (by decide +kernel)
    (by decide +kernel)
  refine ⟨_, h, (failed_mount_restores_iff h).2.mpr ?_⟩
  rintro c ⟨⟩
  decide

/-- The volume is registered and mounted. Mounting it a second time fails and
unregisters it. -/
theorem registered_volume_removed :
    ∃ t, FailedMount layerfs "node1" mountedOptions "" (.text "mkdir /data/vol1: file exists")
        (existing (CacheConsistency.singleVolumeCache none)) t ∧
      (mount layerfs "node1" mountedOptions).Runs undisturbed
        (existing (CacheConsistency.singleVolumeCache none))
        ("", some (.text "mkdir /data/vol1: file exists")) t ∧
      (registered (stored (existing (CacheConsistency.singleVolumeCache none))) "node1").map (·.name) =
        ["vol1"] ∧
      registered (stored t) "node1" = [] := by
  have h := failedMount_mkdir (c := CacheConsistency.singleVolumeCache none) (by decide +kernel)
    (by decide +kernel) (by decide +kernel)
  refine ⟨_, h, h.runs, rfl, ?_⟩
  decide +kernel

end Registrations

end K8StorageX.StoreWrapper
