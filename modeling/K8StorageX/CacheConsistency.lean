import K8StorageX.CacheUpdater

/-!
# What concurrent calls agree on

Consequences of the linearization for the `Cache`: the stored status is the
sequential application of the calls that succeeded, the commit lock stays
exclusive, all volumes start from one image, and the commit decision is the one
of the state the call replaced.
-/

namespace K8StorageX.CacheConsistency

open ApiProgram WorkerPool CacheModel CommitLock CacheUpdater OptimisticStore

variable {init : Option Cache} {start : Time} {st : CallState}

/-- Undisturbed, a call on an existing cache stores its update and returns. -/
theorem call_completes (c : Cache) (call : Call) (now : Time) :
    ∃ st : CallState, Reached (some c) now st ∧ st.shared.calls 0 = some call ∧
      Stored cacheSpec (some c) st.shared 0 call now c (call.modify now c).2 ∧
      storedCache st = some (call.modify now c).1 ∧
      CallReturned st 0 ((call.modify now c).2, none) := by
  have hmerge : cacheSpec.merge c (call.modify now c).1 = (call.modify now c).1 :=
    cacheSpec.merge_modify call now c
  refine ⟨_, ⟨[.start 0 call, .serve 0 none, .serve 0 none, .serve 0 none], rfl⟩, rfl, ?_, ?_, ?_⟩
  · exact ⟨[], [], rfl, rfl, rfl⟩
  · exact congrArg some hmerge
  · exact ⟨_, rfl⟩

/-- Two registrations that both miss the cache, race to create it and to store
their defaults; the second one retries after a conflict. -/
theorem racing_registrations :
    ∃ st : CallState, Reached none 0 st ∧
      st.shared.calls 0 = some (.register "node1" "vol1" "image1" true) ∧
      st.shared.calls 1 = some (.register "node2" "vol2" "image2" true) ∧
      CallReturned st 0 (⟨"image1", false⟩, none) ∧ CallReturned st 1 (⟨"image1", false⟩, none) ∧
      st.shared.history = [.created none, .applied 0 (.register "node1" "vol1" "image1" true) 0,
        .applied 1 (.register "node2" "vol2" "image2" true) 0] := by
  refine ⟨_, ⟨[.start 0 (.register "node1" "vol1" "image1" true),
    .start 1 (.register "node2" "vol2" "image2" true), .serve 0 none, .serve 1 none,
    .serve 0 none, .serve 1 none, .serve 0 none, .serve 1 none, .serve 0 none, .serve 1 none,
    .serve 0 none, .serve 1 none, .serve 1 none, .serve 1 none, .serve 1 none], rfl⟩,
    rfl, rfl, ⟨_, rfl⟩, ⟨_, rfl⟩, rfl⟩

/-- A cache with one committable volume on one node and a given commit lock. -/
def singleVolumeCache (lock : Option Time) : Cache :=
  ⟨⟨false⟩, { CacheStatus.empty with nodes := [⟨"node1", 0, [⟨"vol1", 1, 0, true, lock⟩], none⟩] }⟩

/-- For any interleaving of calls the stored cache is the replay of the recorded
changes, in the order of their writes. The calls in the record are exactly those
that returned without an error, each once; their results come from the state
their stored update was computed from. Every single request of a call either
changes nothing, creates an empty cache, or stores the update and makes the call
return without an error. -/
theorem updateCache_linearizable (h : Reached init start st) :
    storedCache st = replay cacheSpec init st.shared.history ∧
      (order st.shared.history).Nodup ∧
      (∀ i, i ∈ order st.shared.history ↔ ∃ captured, CallReturned st i (captured, none)) ∧
      (∀ i captured, CallReturned st i (captured, none) →
        ∃ call now c, st.shared.calls i = some call ∧
          Stored cacheSpec init st.shared i call now c captured) ∧
      ∀ i fault st', calls.step st (.serve i fault) = some st' →
        st'.shared.history = st.shared.history ∨
          st'.shared.history = st.shared.history ++ [.created none] ∨
          ∃ call now captured, st'.shared.history = st.shared.history ++ [.applied i call now] ∧
            st.shared.calls i = some call ∧ CallReturned st' i (captured, none) := by
  have hs := reachable_safe h
  refine ⟨hs.1.replayed, hs.1.once, ?_, ?_, ?_⟩
  · intro i
    rw [mem_order_iff_returned h i, exists_comm]
    rfl
  · rintro i captured ⟨seen, hreturned⟩
    obtain ⟨call, hcall, now, c, hstored⟩ := hs.post hreturned
    exact ⟨call, now, c, hcall, hstored⟩
  · intro i fault st' hstep
    rcases step_change h hstep with hkeep | hcreated | ⟨call, now, c, seen, hcall, hnew, -, -, hret⟩
    · exact Or.inl hkeep
    · exact Or.inr (Or.inl hcreated)
    · exact Or.inr (Or.inr ⟨call, now, _, hnew, hcall, seen, hret⟩)

theorem updateCache_linearizable_racing :
    ∃ st, Reached none 0 st ∧ storedCache st = replay cacheSpec none st.shared.history ∧
      order st.shared.history = [0, 1] ∧ CallReturned st 1 (⟨"image1", false⟩, none) := by
  obtain ⟨st, h, -, -, -, hsecond, hhistory⟩ := racing_registrations
  have horder : order st.shared.history = [0, 1] := by
    rw [hhistory]
    rfl
  exact ⟨st, h, (updateCache_linearizable h).1, horder, hsecond⟩

/-- Every closure keeps the commit lock exclusive. -/
theorem mutualExclusion_modify (call : Call) {now : Time} {c : Cache}
    (h : MutualExclusion c.status now) : MutualExclusion (call.modify now c).1.status now := by
  cases call with
  | register nodeName volumeName defaultImage commit =>
    exact mutualExclusion_registerVolume h nodeName volumeName defaultImage commit
  | prepareCommit nodeName volumeName => exact mutualExclusion_decideCommit h nodeName volumeName
  | unregister nodeName volumeName commitErr =>
    exact mutualExclusion_unregisterVolume h nodeName volumeName commitErr

/-- Every recorded change keeps the commit lock exclusive at its own time. -/
theorem mutualExclusion_apply {now : Time} {object : Option Cache} {change : Change Call CacheSpec}
    (htime : ∀ u ∈ change.time?, u = now)
    (h : ∀ c ∈ object, MutualExclusion c.status now) :
    ∀ c ∈ change.apply cacheSpec object, MutualExclusion c.status now := by
  intro c hc
  cases object with
  | none =>
    cases change with
    | created edit => cases hc; cases edit <;> exact mutualExclusion_empty
    | edited edit => contradiction
    | applied i call t => contradiction
  | some before =>
    have hbefore := h before rfl
    cases change with
    | created edit => cases hc; exact hbefore
    | edited edit => cases hc; exact hbefore
    | applied i call t =>
      cases hc
      have ht : t = now := htime t rfl
      rw [ht]
      exact mutualExclusion_modify call hbefore

/-- At most one volume of a cache holds an unexpired commit lock: this holds for
a fresh cache, and from a cache for which it holds every state of every run of
calls satisfies it at its own time. -/
theorem commitLock_exclusive :
    (∀ now, MutualExclusion Cache.new.status now) ∧
      ∀ init start st, (∀ c ∈ init, MutualExclusion c.status start) → Reached init start st →
        ∀ c ∈ storedCache st, MutualExclusion c.status st.shared.clock := by
  refine ⟨fun now => mutualExclusion_empty, ?_⟩
  intro init start st hinit h c hc
  have hi := (reachable_safe h).1
  have hreplay : ∀ c ∈ replay cacheSpec init st.shared.history,
      MutualExclusion c.status st.shared.clock := by
    refine replay_preserves_timed
      (P := fun now (object : Option Cache) => ∀ c ∈ object, MutualExclusion c.status now) ?_ ?_
      st.shared.history hi.ordered hi.elapsed hi.started hinit
    · intro t u object hle hobject c hc
      exact (hobject c hc).later hle
    · intro t object change htime hobject
      exact mutualExclusion_apply htime hobject
  rw [storedCache, hi.replayed] at hc
  exact hreplay c hc

theorem commitLock_exclusive_granted :
    ∃ st, Reached (some (singleVolumeCache (some 0))) 1 st ∧
      ∀ c ∈ storedCache st, MutualExclusion c.status st.shared.clock := by
  obtain ⟨st, h, -⟩ :=
    call_completes (singleVolumeCache (some 0)) (.prepareCommit "node1" "vol1") 1
  refine ⟨st, h, commitLock_exclusive.2 _ _ _ ?_ h⟩
  intro c hc
  cases hc
  decide

theorem image_upsertNode (cs : CacheStatus) (nodeName : String) (now : Time) :
    (upsertNode cs nodeName now).1.image = cs.image := by
  unfold upsertNode
  split <;> rfl

theorem image_removeVolume (cs : CacheStatus) (nodeName volName : String) (now : Time) :
    (removeVolume cs nodeName volName now).1.image = cs.image :=
  image_upsertNode cs nodeName now

theorem image_addVolume (c : Cache) (nodeName volName : String) (commit : Bool) (now : Time) :
    (addVolume c nodeName volName commit now).1.status.image = c.status.image := by
  have hu := image_upsertNode c.status nodeName now
  unfold addVolume
  dsimp only
  split
  · exact hu
  · split <;> exact hu

theorem image_scanNodes (c : Cache) (now : Time) (i : ℕ) (nodes : List NodeStatus) :
    (scanNodes c now i nodes).2.status.image = c.status.image := by
  rcases scanNodes_cases c now i nodes with hsame | ⟨k, n, j, v, -, -, -, hexpired⟩
  · rw [hsame]
  · rw [hexpired]
    exact image_removeVolume _ _ _ _

theorem image_decideCommit (nodeName volumeName : String) (now : Time) (c : Cache) :
    (decideCommit nodeName volumeName now c).1.status.image = c.status.image := by
  have houtcome := decided nodeName volumeName now c
  generalize decideCommit nodeName volumeName now c = outcome at houtcome ⊢
  cases houtcome with
  | refused => rfl
  | inProgress => exact image_scanNodes c now 0 c.status.nodes
  | granted => rfl

/-- A registration captures the image it leaves in the status. -/
theorem image_registerVolume (nodeName volumeName defaultImage : String) (commit : Bool)
    (now : Time) (c : Cache) :
    (registerVolume nodeName volumeName defaultImage commit now c).1.status.image =
      (registerVolume nodeName volumeName defaultImage commit now c).2 :=
  image_addVolume _ _ _ _ _

/-- No closure replaces an image that has been set. -/
theorem image_modify (call : Call) (now : Time) {c : Cache} (h : c.status.image ≠ "") :
    (call.modify now c).1.status.image = c.status.image := by
  cases call with
  | register nodeName volumeName defaultImage commit =>
    exact (image_registerVolume _ _ _ _ _ _).trans (if_neg h)
  | prepareCommit nodeName volumeName => exact image_decideCommit _ _ _ _
  | unregister nodeName volumeName commitErr =>
    exact image_removeVolume c.status nodeName volumeName now

/-- A cache exists and has the given image. -/
def HasImage (image : String) (object : Option Cache) : Prop :=
  ∃ c, object = some c ∧ c.status.image = image

theorem hasImage_apply {image : String} (hne : image ≠ "") (object : Option Cache)
    (change : Change Call CacheSpec) (h : HasImage image object) :
    HasImage image (change.apply cacheSpec object) := by
  obtain ⟨c, rfl, himage⟩ := h
  cases change with
  | created edit => exact ⟨c, rfl, himage⟩
  | edited edit => exact ⟨_, rfl, himage⟩
  | applied i call now =>
    have hset : c.status.image ≠ "" := himage ▸ hne
    exact ⟨_, rfl, (image_modify call now hset).trans himage⟩

/-- The image of a successful registration with a default is the stored image
from then on. -/
theorem hasImage_of_registered {i : ℕ} {nodeName volumeName defaultImage : String} {commit : Bool}
    {captured : Captured} (h : Reached init start st)
    (hcall : st.shared.calls i = some (.register nodeName volumeName defaultImage commit))
    (hdefault : defaultImage ≠ "") (hreturned : CallReturned st i (captured, none)) :
    HasImage captured.image (storedCache st) := by
  obtain ⟨seen, hreturned⟩ := hreturned
  have hs := reachable_safe h
  obtain ⟨call, hcall', now, c, pre, suf, hhistory, hvalue, hresult⟩ := hs.post hreturned
  rw [hcall, Option.some.injEq] at hcall'
  subst hcall'
  have himage : captured.image = if c.status.image = "" then defaultImage else c.status.image :=
    congrArg Captured.image hresult.symm
  have hne : captured.image ≠ "" := by
    rw [himage]
    split <;> assumption
  have hat : HasImage captured.image
      (replay cacheSpec init (pre ++ [.applied i (.register nodeName volumeName defaultImage commit) now])) := by
    rw [replay_append, hvalue]
    exact ⟨_, rfl, (image_registerVolume _ _ _ _ _ _).trans himage.symm⟩
  have hhistory' : st.shared.history =
      (pre ++ [.applied i (.register nodeName volumeName defaultImage commit) now]) ++ suf := by
    rw [hhistory, List.append_assoc]
    rfl
  rw [storedCache, hs.1.replayed, hhistory', replay_append]
  exact replay_preserves (hasImage_apply hne) suf hat

/-- All volumes of a cache start from one image, whatever defaults the concurrent
registrations bring along: an image that is set stays, each successful
registration returns the image its own update leaves in the status, and any two
successful registrations with a default return the same image. -/
theorem registered_image_agrees (h : Reached init start st) :
    (∀ es st' c, calls.run st es = some st' → storedCache st = some c → c.status.image ≠ "" →
        HasImage c.status.image (storedCache st')) ∧
      (∀ i fault st' nodeName volumeName defaultImage commit,
        calls.step st (.serve i fault) = some st' →
        st.shared.calls i = some (.register nodeName volumeName defaultImage commit) →
        i ∉ order st.shared.history → i ∈ order st'.shared.history →
        ∃ captured c, CallReturned st' i (captured, none) ∧ storedCache st' = some c ∧
          registerReply (captured, none) = (c.status.image, none)) ∧
      ∀ i j node vol image commit node' vol' image' commit' captured captured',
        st.shared.calls i = some (.register node vol image commit) → image ≠ "" →
        st.shared.calls j = some (.register node' vol' image' commit') → image' ≠ "" →
        CallReturned st i (captured, none) → CallReturned st j (captured', none) →
        registerReply (captured, none) = registerReply (captured', none) := by
  refine ⟨?_, ?_, ?_⟩
  · intro es st' c hrun hc hne
    have hs := reachable_safe h
    have hs' := (discipline _ _ _ _).run_safe (discipline_respected _ _ _ _)
      (discipline_admits _ _ _ _) hs hrun
    obtain ⟨suf, hsuf⟩ := run_history hs hrun
    have hnow : HasImage c.status.image (replay cacheSpec init st.shared.history) :=
      ⟨c, hs.1.replayed.symm.trans hc, rfl⟩
    rw [storedCache, hs'.1.replayed, ← hsuf, replay_append]
    exact replay_preserves (hasImage_apply hne) suf hnow
  · intro i fault st' nodeName volumeName defaultImage commit hstep hcall hpending hstored
    rcases step_change h hstep with hkeep | hcreated | ⟨call, now, c, seen, hcall', -, -, hobject, hret⟩
    · exact absurd (hkeep ▸ hstored) hpending
    · rw [hcreated, order_append_singleton] at hstored
      exact absurd (by simpa [Change.client?] using hstored) hpending
    · rw [hcall, Option.some.injEq] at hcall'
      subst hcall'
      refine ⟨_, _, ⟨seen, hret⟩, hobject, ?_⟩
      exact congrArg (·, none) (image_registerVolume _ _ _ _ _ _).symm
  · intro i j node vol image commit node' vol' image' commit' captured captured' hi hne hj hne' hri hrj
    obtain ⟨c, hc, hcaptured⟩ := hasImage_of_registered h hi hne hri
    obtain ⟨c', hc', hcaptured'⟩ := hasImage_of_registered h hj hne' hrj
    have heq : c = c' := Option.some.inj (hc.symm.trans hc')
    have himage : captured.image = captured'.image := by rw [← hcaptured, ← hcaptured', heq]
    exact congrArg (·, none) himage

theorem registered_image_agrees_racing :
    ∃ st, Reached none 0 st ∧
      st.shared.calls 0 = some (.register "node1" "vol1" "image1" true) ∧
      st.shared.calls 1 = some (.register "node2" "vol2" "image2" true) ∧
      ∃ first second, CallReturned st 0 (first, none) ∧ CallReturned st 1 (second, none) ∧
        registerReply (first, none) = registerReply (second, none) := by
  obtain ⟨st, h, hcall, hcall', hfirst, hsecond, -⟩ := racing_registrations
  refine ⟨st, h, hcall, hcall', _, _, hfirst, hsecond, ?_⟩
  exact (registered_image_agrees h).2.2 0 1 _ _ _ _ _ _ _ _ _ _ hcall (by decide) hcall'
    (by decide) hfirst hsecond

/-- When a commit is due by the purpose of the lock: the volume may be committed
and no commit of the cache is running. -/
def CommitDue (c : Cache) (nodeName volumeName : String) (now : Time) : Prop :=
  Eligible c nodeName volumeName ∧ ∀ v ∈ c.status.volumes, v.commitRunning now = false

/-- The volume is not eligible, or some volume of the cache runs a commit while
another one does not. -/
def DecidedAsDue (c : Cache) (nodeName volumeName : String) (now : Time) : Prop :=
  ¬ Eligible c nodeName volumeName ∨
    (∃ v ∈ c.status.volumes, v.commitRunning now = true) ∧
      ∃ v ∈ c.status.volumes, v.commitRunning now = false

/-- The decision is the due one exactly in the states of `DecidedAsDue`. -/
theorem decideCommit_due_iff (c : Cache) (nodeName volumeName : String) (now : Time) :
    ((decideCommit nodeName volumeName now c).2 = true ↔ CommitDue c nodeName volumeName now) ↔
      DecidedAsDue c nodeName volumeName now := by
  rw [decideCommit_granted_iff]
  unfold CommitDue DecidedAsDue
  by_cases he : Eligible c nodeName volumeName
  · obtain ⟨v, hv⟩ := exists_volume_of_eligible he
    constructor
    · intro hiff
      refine Or.inr ⟨?_, ?_⟩
      · by_contra hnone
        have hall : ∀ w ∈ c.status.volumes, w.commitRunning now = false := by
          intro w hw
          exact Bool.eq_false_iff.mpr fun htrue => hnone ⟨w, hw, htrue⟩
        have htrue := (hiff.mpr ⟨he, hall⟩).2 v hv
        rw [hall v hv] at htrue
        contradiction
      · by_contra hnone
        have hall : ∀ w ∈ c.status.volumes, w.commitRunning now = true := by
          intro w hw
          exact Bool.not_eq_false _ ▸ fun hfalse => hnone ⟨w, hw, hfalse⟩
        have hfalse := (hiff.mp ⟨he, hall⟩).2 v hv
        rw [hall v hv] at hfalse
        contradiction
    · intro hcase
      rcases hcase with hnot | ⟨⟨w, hw, hrunning⟩, ⟨u, hu, hidle⟩⟩
      · exact absurd he hnot
      · constructor
        · intro hgranted
          rw [hgranted.2 u hu] at hidle
          contradiction
        · intro hdue
          rw [hdue.2 w hw] at hrunning
          contradiction
  · have hneither : ∀ P : Prop, ¬ (Eligible c nodeName volumeName ∧ P) := fun P hP => he hP.1
    exact ⟨fun _ => Or.inl he,
      fun _ => ⟨fun hl => absurd hl (hneither _), fun hr => absurd hr (hneither _)⟩⟩

/-- In every run of concurrent calls, the reply of a `PrepareCommit` whose update
was stored is the due one exactly if the cache it was computed from satisfies
`DecidedAsDue`: the scan for running commits returns at the first volume that
runs none. -/
theorem prepareCommit_reply_due_iff {i : ℕ} {nodeName volumeName : String} {captured : Captured}
    (h : Reached init start st)
    (hcall : st.shared.calls i = some (.prepareCommit nodeName volumeName))
    (hreturned : CallReturned st i (captured, none)) :
    ∃ now c, Stored cacheSpec init st.shared i (.prepareCommit nodeName volumeName) now c captured ∧
      (prepareReply (captured, none)).2 = none ∧
      (((prepareReply (captured, none)).1 = true ↔ CommitDue c nodeName volumeName now) ↔
        DecidedAsDue c nodeName volumeName now) := by
  obtain ⟨seen, hreturned⟩ := hreturned
  obtain ⟨call, hcall', now, c, hstored⟩ := (reachable_safe h).post hreturned
  rw [hcall, Option.some.injEq] at hcall'
  subst hcall'
  have hcommit : captured.commit = (decideCommit nodeName volumeName now c).2 := by
    obtain ⟨pre, suf, -, -, hresult⟩ := hstored
    exact congrArg Captured.commit hresult.symm
  refine ⟨now, c, hstored, rfl, ?_⟩
  have hreply : (prepareReply (captured, none)).1 = (decideCommit nodeName volumeName now c).2 :=
    hcommit
  rw [hreply]
  exact decideCommit_due_iff c nodeName volumeName now

theorem prepareCommit_reply_due_iff_idle :
    ∃ st captured, Reached (some (singleVolumeCache none)) 0 st ∧
      st.shared.calls 0 = some (.prepareCommit "node1" "vol1") ∧
      CallReturned st 0 (captured, none) ∧
      ∃ now c, Stored cacheSpec (some (singleVolumeCache none)) st.shared 0
          (.prepareCommit "node1" "vol1") now c captured ∧
        (((prepareReply (captured, none)).1 = true ↔ CommitDue c "node1" "vol1" now) ↔
          DecidedAsDue c "node1" "vol1" now) := by
  obtain ⟨st, h, hcall, -, -, hreturned⟩ :=
    call_completes (singleVolumeCache none) (.prepareCommit "node1" "vol1") 0
  obtain ⟨now, c, hstored, -, hiff⟩ := prepareCommit_reply_due_iff h hcall hreturned
  exact ⟨st, _, h, hcall, hreturned, now, c, hstored, hiff⟩

/-- The only volume of a writable cache, committable and with no commit running,
is refused the commit; with its own commit running it is granted another one. -/
theorem prepareCommit_reply_inverted :
    (∃ st captured, Reached (some (singleVolumeCache none)) 0 st ∧
      st.shared.calls 0 = some (.prepareCommit "node1" "vol1") ∧
      CallReturned st 0 (captured, none) ∧
      Stored cacheSpec (some (singleVolumeCache none)) st.shared 0 (.prepareCommit "node1" "vol1") 0
        (singleVolumeCache none) captured ∧
      prepareReply (captured, none) = (false, none) ∧
      CommitDue (singleVolumeCache none) "node1" "vol1" 0) ∧
    ∃ st captured, Reached (some (singleVolumeCache (some 0))) 1 st ∧
      st.shared.calls 0 = some (.prepareCommit "node1" "vol1") ∧
      CallReturned st 0 (captured, none) ∧
      Stored cacheSpec (some (singleVolumeCache (some 0))) st.shared 0
        (.prepareCommit "node1" "vol1") 1 (singleVolumeCache (some 0)) captured ∧
      prepareReply (captured, none) = (true, none) ∧
      ¬ CommitDue (singleVolumeCache (some 0)) "node1" "vol1" 1 := by
  constructor
  · obtain ⟨st, h, hcall, hstored, -, hreturned⟩ :=
      call_completes (singleVolumeCache none) (.prepareCommit "node1" "vol1") 0
    refine ⟨st, _, h, hcall, hreturned, hstored, rfl, ⟨rfl, by decide, _, rfl, rfl⟩, ?_⟩
    decide
  · obtain ⟨st, h, hcall, hstored, -, hreturned⟩ :=
      call_completes (singleVolumeCache (some 0)) (.prepareCommit "node1" "vol1") 1
    refine ⟨st, _, h, hcall, hreturned, hstored, rfl, ?_⟩
    intro hdue
    have hidle := hdue.2 ⟨"vol1", 1, 0, true, some 0⟩ (by decide)
    revert hidle
    decide

end K8StorageX.CacheConsistency
