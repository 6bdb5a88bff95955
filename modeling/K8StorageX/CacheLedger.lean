import K8StorageX.MountedVolumes
import Mathlib.Data.Finset.Insert
import Mathlib.Data.Finset.Erase

/-!
# The ledger of a Cache

What the status of a `Cache` is for, seen from outside: a set of registered volumes, the
number of registrations and a generation that grows with every new committable volume.
The ledger says what each call enters into it, without nodes, lists and times. The stored
status shows the ledger of the recorded calls, whatever their interleaving.
-/

namespace K8StorageX.CacheLedger

open WorkerPool CacheModel CommitLock CacheUpdater CacheConsistency CacheStructure OptimisticStore
open SynchronizedStore (lockFree_modify)

/-- The registrations of a Cache. -/
structure Ledger where
  /-- New volumes are not committable. -/
  readOnly : Bool
  /-- Registered volumes, each with its node. -/
  volumes : Finset (String × String)
  /-- Number of registrations. -/
  used : ℕ
  /-- Number of new committable volumes. -/
  generation : ℕ
  deriving DecidableEq

/-- What a call enters into the ledger. -/
def Ledger.enter (l : Ledger) : Call → Ledger
  | .register nodeName volumeName _ commit =>
    { l with
      volumes := insert (nodeName, volumeName) l.volumes
      used := l.used + 1
      generation :=
        if (nodeName, volumeName) ∉ l.volumes ∧ commit = true ∧ l.readOnly = false then
          l.generation + 1
        else l.generation }
  | .prepareCommit _ _ => l
  | .unregister nodeName volumeName _ => { l with volumes := l.volumes.erase (nodeName, volumeName) }

/-- A ledger as an object that calls and edits change one after the other. -/
def ledgerSpec : Spec Ledger Call CacheSpec Unit where
  modify call _ l := (l.enter call, ())
  blank _ := ()
  creates := Call.creates
  fresh := ⟨false, ∅, 0, 0⟩
  merge _ written := written
  edit spec l := { l with readOnly := spec.readOnly }
  merge_modify _ _ _ := rfl

/-- A Cache shows a ledger. -/
structure Shows (l : Ledger) (c : Cache) : Prop where
  /-- The spec says whether new volumes are committable. -/
  readOnly : c.spec.readOnly = l.readOnly
  /-- The volumes are those of the ledger. -/
  volumes : ∀ nodeName volumeName,
    Registered c.status.nodes nodeName volumeName ↔ (nodeName, volumeName) ∈ l.volumes
  /-- Registrations are counted, in 64 bits. -/
  used : c.status.used = Int64.ofNat l.used
  /-- Generations are counted, in 64 bits. -/
  generation : c.status.cacheGeneration = Int64.ofNat l.generation
  /-- No commit has been started. -/
  unlocked : LockFree c.status

section Updates

variable {l : Ledger} {c : Cache} {nodeName volumeName : String} {now : Time}

/-- Who is registered after the volumes of a node have been rewritten. -/
theorem registered_updated {f : List VolumeStatus → List VolumeStatus}
    {nodes nodes' : List NodeStatus} (h : Updated nodeName f nodes nodes') (other name : String) :
    Registered nodes' other name ↔
      if other = nodeName then ∃ v ∈ f (volumesOn nodes nodeName), v.name = name
      else Registered nodes other name := by
  split
  · next hother =>
    subst hother
    obtain ⟨-, -, -, hvolumes⟩ := StoreWrapper.listed_self h
    rw [Registered, hvolumes]
  · next hother => rw [Registered, Registered, MountedVolumes.volumesOn_of_ne h hother]

theorem registered_of_same {nodes nodes' : List NodeStatus} (h : Updated nodeName id nodes nodes')
    (other name : String) : Registered nodes' other name ↔ Registered nodes other name := by
  rw [registered_updated h]
  split
  · next hother =>
    subst hother
    rfl
  · rfl

theorem used_upsertNode (cs : CacheStatus) (nodeName : String) (now : Time) :
    (upsertNode cs nodeName now).1.used = cs.used := by
  unfold upsertNode
  split <;> rfl

theorem used_addVolume (commit : Bool) :
    (addVolume c nodeName volumeName commit now).1.status.used = c.status.used := by
  have hupsert := used_upsertNode c.status nodeName now
  unfold addVolume
  dsimp only
  split
  · exact hupsert
  · split
    · exact hupsert
    · exact hupsert

/-- Adding a volume registers it. -/
theorem registered_addVolume (commit : Bool) (other name : String) :
    Registered (addVolume c nodeName volumeName commit now).1.status.nodes other name ↔
      (other = nodeName ∧ name = volumeName) ∨ Registered c.status.nodes other name := by
  by_cases hregistered : Registered c.status.nodes nodeName volumeName
  · have hsame := registered_of_same (updated_upsertNode c.status nodeName now) other name
    rw [addVolume_of_registered hregistered]
    refine hsame.trans ⟨Or.inr, ?_⟩
    rintro (⟨rfl, rfl⟩ | h)
    · exact hregistered
    · exact h
  · obtain ⟨hadded, -, -⟩ := addVolume_of_not_registered hregistered commit now
    rw [registered_updated hadded]
    split
    · next hother =>
      subst hother
      simp only [List.mem_append, List.mem_singleton, or_and_right, exists_or, exists_eq_left,
        true_and, Registered]
      rw [or_comm]
      exact or_congr_left eq_comm
    · next hother => simp [hother]

/-- The generation grows with a new committable volume. -/
theorem generation_addVolume (commit : Bool) :
    (addVolume c nodeName volumeName commit now).1.status.cacheGeneration =
      if ¬ Registered c.status.nodes nodeName volumeName ∧ commit = true ∧ c.spec.readOnly = false
      then c.status.cacheGeneration + 1 else c.status.cacheGeneration := by
  by_cases hregistered : Registered c.status.nodes nodeName volumeName
  · rw [addVolume_of_registered hregistered, if_neg fun h => h.1 hregistered]
    exact cacheGeneration_upsertNode c.status nodeName now
  · obtain ⟨-, hgeneration, -⟩ := addVolume_of_not_registered hregistered commit now
    rw [hgeneration, addedVolume]
    simp [hregistered]

/-- A Cache without locks is left alone by a request for a commit. -/
theorem decideCommit_of_lockFree (h : LockFree c.status) :
    (decideCommit nodeName volumeName now c).1 = c := by
  have hfree : ∀ v ∈ c.status.volumes, v.commitStartTime.isSome = false := by
    simpa [LockFree] using h
  have hrefused : (decideCommit nodeName volumeName now c).2 = false :=
    decideCommit_refused_of_lockFree h nodeName volumeName
  have houtcome := decided nodeName volumeName now c
  generalize decideCommit nodeName volumeName now c = outcome at houtcome hrefused ⊢
  cases houtcome with
  | refused => rfl
  | inProgress =>
    rcases scanNodes_cases c now 0 c.status.nodes with hsame | ⟨k, n, j, v, hk, hv, hlock, -⟩
    · exact hsame
    · have hmem : v ∈ c.status.volumes := mem_volumes.mpr ⟨n, List.mem_of_getElem? hk, hv⟩
      rw [hfree v hmem] at hlock
      cases hlock
  | granted => cases hrefused

theorem used_unregisterVolume (commitErr : Option String) :
    (unregisterVolume nodeName volumeName commitErr now c).1.status.used = c.status.used :=
  used_upsertNode c.status nodeName now

/-- Unregistering a volume removes it and no other. -/
theorem registered_unregisterVolume (commitErr : Option String) (other name : String) :
    Registered (unregisterVolume nodeName volumeName commitErr now c).1.status.nodes other name ↔
      ¬ (other = nodeName ∧ name = volumeName) ∧ Registered c.status.nodes other name := by
  rw [registered_updated (unregisterVolume_updated nodeName volumeName commitErr now c)]
  split
  · next hother =>
    subst hother
    simp only [List.mem_filter, bne_iff_ne, true_and, Registered]
    constructor
    · rintro ⟨v, ⟨hv, hne⟩, rfl⟩
      exact ⟨hne, v, hv, rfl⟩
    · rintro ⟨hne, v, hv, rfl⟩
      exact ⟨v, ⟨hv, hne⟩, rfl⟩
  · next hother => simp [hother]

theorem ofNat_succ (n : ℕ) : Int64.ofNat (n + 1) = Int64.ofNat n + 1 := by
  rw [Int64.ofNat_add]
  rfl

/-- Every call shows what it enters into the ledger. -/
theorem Shows.modify (h : Shows l c) (call : Call) (now : Time) :
    Shows (l.enter call) (call.modify now c).1 := by
  have hunlocked := lockFree_modify call now h.unlocked
  cases call with
  | register nodeName volumeName defaultImage commit =>
    refine ⟨(congrArg _ (spec_modify _ now c)).trans h.readOnly, ?_, ?_, ?_, hunlocked⟩
    · intro other name
      refine (registered_addVolume commit other name).trans ?_
      simp only [Ledger.enter, Finset.mem_insert, Prod.mk.injEq, h.volumes]
    · refine (used_addVolume commit).trans ?_
      simp only [Ledger.enter, h.used, ofNat_succ]
    · refine (generation_addVolume commit).trans ?_
      simp only [Ledger.enter, h.volumes, h.readOnly, h.generation]
      split
      · exact (ofNat_succ _).symm
      · rfl
  | prepareCommit nodeName volumeName =>
    have hsame : ((Call.prepareCommit nodeName volumeName).modify now c).1 = c :=
      decideCommit_of_lockFree h.unlocked
    rw [hsame]
    exact h
  | unregister nodeName volumeName commitErr =>
    refine ⟨h.readOnly, ?_, ?_, ?_, hunlocked⟩
    · intro other name
      refine (registered_unregisterVolume commitErr other name).trans ?_
      simp only [Ledger.enter, Finset.mem_erase, ne_eq, Prod.mk.injEq, h.volumes]
    · exact (used_unregisterVolume commitErr).trans h.used
    · exact (cacheGeneration_upsertNode c.status nodeName now).trans h.generation

theorem shows_new (edit : Option CacheSpec) :
    Shows (ledgerSpec.newObject edit) (cacheSpec.newObject edit) := by
  have hnone : ∀ nodeName volumeName, ¬ Registered [] nodeName volumeName := by
    rintro nodeName volumeName ⟨v, hv, -⟩
    cases hv
  cases edit with
  | none => exact ⟨rfl, fun n v => iff_of_false (hnone n v) (Finset.notMem_empty _), rfl, rfl, rfl⟩
  | some edit =>
    exact ⟨rfl, fun n v => iff_of_false (hnone n v) (Finset.notMem_empty _), rfl, rfl, rfl⟩

end Updates

section Histories

variable {object : Option Ledger} {history pre suf : List (Change Call CacheSpec)}
variable {nodeName volumeName : String}

/-- The change registers a volume. -/
def registers (nodeName volumeName : String) : Change Call CacheSpec → Bool
  | .applied _ (.register n v _ _) _ => nodeName == n && volumeName == v
  | _ => false

/-- The change unregisters a volume. -/
def unregisters (nodeName volumeName : String) : Change Call CacheSpec → Bool
  | .applied _ (.unregister n v _) _ => nodeName == n && volumeName == v
  | _ => false

/-- A volume has been registered and not been unregistered since. -/
def LastEntered (history : List (Change Call CacheSpec)) (nodeName volumeName : String) : Prop :=
  ∃ pre change suf, history = pre ++ change :: suf ∧ registers nodeName volumeName change = true ∧
    ∀ later ∈ suf, unregisters nodeName volumeName later = false

/-- Calls are only recorded while the object exists. -/
def Grounded {Obj ρ : Type} (spec : Spec Obj Call CacheSpec ρ) (object : Option Obj)
    (history : List (Change Call CacheSpec)) : Prop :=
  ∀ pre i call now suf, history = pre ++ .applied i call now :: suf → (replay spec object pre).isSome

theorem Grounded.initial (h : Grounded ledgerSpec object (pre ++ suf)) :
    Grounded ledgerSpec object pre := by
  intro first i call now last hpre
  refine h first i call now (last ++ suf) ?_
  rw [hpre, List.append_assoc, List.cons_append]

theorem lastEntered_append (change : Change Call CacheSpec) :
    LastEntered (history ++ [change]) nodeName volumeName ↔
      registers nodeName volumeName change = true ∨
        (unregisters nodeName volumeName change = false ∧
          LastEntered history nodeName volumeName) := by
  constructor
  · rintro ⟨pre, entry, suf, hsplit, hentry, hsuf⟩
    rcases List.eq_nil_or_concat suf with rfl | ⟨suf, last, rfl⟩
    · have hlast := List.append_inj' hsplit rfl
      rw [← List.singleton_inj.mp hlast.2] at hentry
      exact Or.inl hentry
    · rw [List.concat_eq_append, ← List.cons_append, ← List.append_assoc] at hsplit
      obtain ⟨hinit, hlast⟩ := List.append_inj' hsplit rfl
      rw [List.singleton_inj.mp hlast]
      refine Or.inr ⟨hsuf last (by simp), pre, entry, suf, hinit, hentry, ?_⟩
      exact fun later hlater => hsuf later (by simp [hlater])
  · rintro (hentry | ⟨hkept, pre, entry, suf, rfl, hentry, hsuf⟩)
    · exact ⟨history, change, [], rfl, hentry, List.forall_mem_nil _⟩
    · refine ⟨pre, entry, suf ++ [change], ?_, hentry, ?_⟩
      · rw [List.append_assoc, List.cons_append]
      · intro later hlater
        rcases List.mem_append.mp hlater with hlater | hlater
        · exact hsuf later hlater
        · rw [List.mem_singleton.mp hlater]
          exact hkept

/-- What exists stays. -/
theorem isSome_replay (h : (replay ledgerSpec object pre).isSome = true)
    (suf : List (Change Call CacheSpec)) : (replay ledgerSpec object (pre ++ suf)).isSome = true := by
  rw [replay_append]
  refine replay_preserves (P := fun object : Option Ledger => object.isSome = true) ?_ suf h
  intro object change hobject
  obtain ⟨l, rfl⟩ := Option.isSome_iff_exists.mp hobject
  cases change <;> rfl

/-- Nothing has been entered before the object exists. -/
theorem not_lastEntered (hground : Grounded ledgerSpec object history)
    (hnone : replay ledgerSpec object history = none) :
    ¬ LastEntered history nodeName volumeName := by
  rintro ⟨pre, change, suf, rfl, hchange, -⟩
  cases change with
  | applied i call now =>
    have hlater := isSome_replay (hground pre i call now suf rfl) (.applied i call now :: suf)
    rw [hnone] at hlater
    cases hlater
  | created edit => cases hchange
  | edited edit => cases hchange

/-- A ledger that starts empty holds the volumes whose last entry is a registration. -/
theorem mem_volumes_iff (hground : Grounded ledgerSpec object history)
    (hempty : ∀ l ∈ object, l.volumes = ∅) {l : Ledger}
    (hl : replay ledgerSpec object history = some l) :
    (nodeName, volumeName) ∈ l.volumes ↔ LastEntered history nodeName volumeName := by
  induction history using List.reverseRecOn generalizing l with
  | nil =>
    refine iff_of_false ?_ ?_
    · rw [hempty l hl]
      exact Finset.notMem_empty _
    · rintro ⟨pre, change, suf, hsplit, -⟩
      simp at hsplit
  | append_singleton history change ih =>
    rw [replay_append] at hl
    rw [lastEntered_append]
    cases hbefore : replay ledgerSpec object history with
    | none =>
      have hnot : ¬ LastEntered history nodeName volumeName :=
        not_lastEntered hground.initial hbefore
      rw [hbefore] at hl
      cases change with
      | created edit =>
        cases hl
        cases edit <;> simp [hnot, registers, Spec.newObject, ledgerSpec]
      | edited edit => cases hl
      | applied i call now => cases hl
    | some before =>
      have hiff := ih hground.initial hbefore
      rw [hbefore] at hl
      cases change with
      | created edit =>
        cases hl
        simp [registers, unregisters, hiff]
      | edited edit =>
        cases hl
        simp [registers, unregisters, ledgerSpec, hiff]
      | applied i call now =>
        cases hl
        cases call with
        | register n v image commit =>
          simp [registers, unregisters, ledgerSpec, Ledger.enter, hiff]
        | prepareCommit n v => simp [registers, unregisters, ledgerSpec, Ledger.enter, hiff]
        | unregister n v commitErr =>
          simp [registers, unregisters, ledgerSpec, Ledger.enter, hiff]

/-- A ledger counts the registrations. -/
theorem used_replay (hground : Grounded ledgerSpec object history)
    (hunused : ∀ l ∈ object, l.used = 0) {l : Ledger}
    (hl : replay ledgerSpec object history = some l) : l.used = registrations history := by
  induction history using List.reverseRecOn generalizing l with
  | nil => exact hunused l hl
  | append_singleton history change ih =>
    rw [replay_append] at hl
    rw [registrations, List.countP_append]
    cases hbefore : replay ledgerSpec object history with
    | none =>
      -- no registration has been recorded yet
      have hzero : history.countP isRegistration = 0 := by
        refine List.countP_eq_zero.mpr fun entry hentry => ?_
        cases entry with
        | applied i call now =>
          obtain ⟨pre, suf, rfl⟩ := List.append_of_mem hentry
          have hearlier := hground.initial pre i call now suf rfl
          have hlater := isSome_replay hearlier (.applied i call now :: suf)
          rw [hbefore] at hlater
          cases hlater
        | created edit => exact Bool.false_ne_true
        | edited edit => exact Bool.false_ne_true
      rw [hbefore] at hl
      rw [hzero]
      cases change with
      | created edit =>
        cases hl
        cases edit <;> rfl
      | edited edit => cases hl
      | applied i call now => cases hl
    | some before =>
      have hcount : before.used = history.countP isRegistration := ih hground.initial hbefore
      rw [hbefore] at hl
      rw [← hcount]
      cases change with
      | created edit =>
        cases hl
        rfl
      | edited edit =>
        cases hl
        rfl
      | applied i call now =>
        cases hl
        cases call <;> rfl

end Histories

section Runs

variable {init : Option Cache} {start : Time} {st : CallState}

/-- The ledger of a Cache nobody has used. -/
def unused (c : Cache) : Ledger := ⟨c.spec.readOnly, ∅, 0, 0⟩

theorem shows_unused {c : Cache} (h : c.status = .empty) : Shows (unused c) c := by
  have hnone : ∀ nodeName volumeName, ¬ Registered c.status.nodes nodeName volumeName := by
    rintro nodeName volumeName ⟨v, hv, -⟩
    rw [h] at hv
    cases hv
  refine ⟨rfl, fun n v => iff_of_false (hnone n v) (Finset.notMem_empty _), ?_, ?_, ?_⟩
  · rw [h]
    rfl
  · rw [h]
    rfl
  · rw [h]
    rfl

/-- In a run, calls are only recorded while the Cache exists. -/
theorem grounded_of_reached (h : Reached init start st) :
    Grounded cacheSpec init st.shared.history := by
  intro pre i call now suf hhistory
  have hs := reachable_safe h
  have hmem : i ∈ order st.shared.history := by
    rw [hhistory]
    exact List.mem_filterMap.mpr ⟨_, List.mem_append_right _ List.mem_cons_self, rfl⟩
  obtain ⟨seen, result, hreturned⟩ := (mem_order_iff_returned h i).mp hmem
  obtain ⟨call', -, now', value, pre', suf', hhistory', hvalue, -⟩ := hs.post hreturned
  have honce := hs.1.once
  rw [hhistory] at honce
  rw [applied_position honce (hhistory.symm.trans hhistory'), hvalue]
  rfl

theorem isSome_of_rel {α β : Type} {R : α → β → Prop} {a : Option α} {b : Option β}
    (h : Option.Rel R a b) (hb : b.isSome = true) : a.isSome = true := by
  cases h with
  | none => exact hb
  | some _ => rfl

/-- From a Cache that nobody has used, in every state that any interleaving of calls and
edits reaches, the stored status shows the ledger of the recorded changes. A volume is
listed on a node exactly if a stored registration of it has not been followed by a stored
unregistration, and `Used` is the number of stored registrations, in 64 bits. -/
theorem status_shows_ledger (hinit : ∀ c ∈ init, c.status = .empty) (h : Reached init start st) :
    Option.Rel Shows (replay ledgerSpec (init.map unused) st.shared.history) (storedCache st) ∧
      ∀ c ∈ storedCache st,
        c.status.used = Int64.ofNat (registrations st.shared.history) ∧
        ∀ nodeName volumeName, Registered c.status.nodes nodeName volumeName ↔
          LastEntered st.shared.history nodeName volumeName := by
  have hshows : ∀ history, Option.Rel Shows (replay ledgerSpec (init.map unused) history)
      (replay cacheSpec init history) := by
    intro history
    refine replay_rel shows_new ?_ (fun call now l c hlc => hlc.modify call now) history ?_
    · intro edit l c hlc
      exact ⟨rfl, hlc.volumes, hlc.used, hlc.generation, hlc.unlocked⟩
    · cases init with
      | none => exact .none
      | some c => exact .some (shows_unused (hinit c rfl))
  have hground : Grounded ledgerSpec (init.map unused) st.shared.history := by
    intro pre i call now suf hhistory
    exact isSome_of_rel (hshows pre) (grounded_of_reached h pre i call now suf hhistory)
  have hnow := hshows st.shared.history
  have hreplayed : storedCache st = replay cacheSpec init st.shared.history :=
    (reachable_safe h).1.replayed
  rw [← hreplayed] at hnow
  refine ⟨hnow, ?_⟩
  intro c hc
  rw [Option.mem_def.mp hc] at hnow
  generalize hledger : replay ledgerSpec (init.map unused) st.shared.history = ledger at hnow
  cases hnow with
  | @some l _ hlc =>
    have hstart : ∀ l ∈ init.map unused, l.volumes = ∅ ∧ l.used = 0 := by
      intro l hl
      obtain ⟨c, -, rfl⟩ := Option.map_eq_some_iff.mp hl
      exact ⟨rfl, rfl⟩
    refine ⟨?_, ?_⟩
    · rw [hlc.used, used_replay hground (fun l hl => (hstart l hl).2) hledger]
    · intro nodeName volumeName
      rw [hlc.volumes]
      exact mem_volumes_iff hground (fun l hl => (hstart l hl).1) hledger

theorem status_shows_ledger_racing :
    ∃ st c, Reached none 0 st ∧ storedCache st = some c ∧ c.status.used = 2 ∧
      c.status.cacheGeneration = 2 ∧ Registered c.status.nodes "node2" "vol2" ∧
      ¬ Registered c.status.nodes "node1" "vol2" := by
  obtain ⟨st, h, -, -, -, -, hhistory⟩ := racing_registrations
  obtain ⟨hledger, hstored⟩ := status_shows_ledger (fun c hc => by cases hc) h
  rw [hhistory] at hledger hstored
  have hentries : replay ledgerSpec none
      [.created none, .applied 0 (.register "node1" "vol1" "image1" true) 0,
        .applied 1 (.register "node2" "vol2" "image2" true) 0] =
      some ⟨false, insert ("node2", "vol2") {("node1", "vol1")}, 2, 2⟩ := by
    decide +kernel
  rw [Option.map_none, hentries] at hledger
  generalize hc : storedCache st = stored at hledger
  cases hledger with
  | @some _ c hlc =>
    refine ⟨st, c, h, hc, (hstored c hc).1, hlc.generation, ?_, ?_⟩
    · rw [hlc.volumes]
      simp
    · rw [hlc.volumes]
      simp

end Runs

end K8StorageX.CacheLedger
