import K8StorageX.CacheModel
import Mathlib.Data.List.Count

/-!
# The commit lock of a cache

The lock is spread over the volumes: a volume holds it while its commit start
time is set and not older than the timeout. This module describes what one
update does to the locks. `decideCommit_granted_iff` is the exact decision of
`PrepareCommit`; the count of held locks never exceeds one once it does not.
-/

namespace K8StorageX.CommitLock

open CacheModel

section Counting

variable {p : VolumeStatus → Bool} (cs : CacheStatus)

/-- Rewriting one node entry does not add volumes of a kind when the rewrite does not. -/
theorem countP_modify_le {f : NodeStatus → NodeStatus}
    (hf : ∀ n, (f n).volumes.countP p ≤ n.volumes.countP p) (nodes : List NodeStatus) (i : ℕ) :
    ((nodes.modify i f).flatMap (·.volumes)).countP p ≤ (nodes.flatMap (·.volumes)).countP p := by
  induction nodes generalizing i with
  | nil => simp
  | cons n nodes ih =>
    cases i with
    | zero =>
      have hn := hf n
      simp only [List.modify_zero_cons, List.flatMap_cons, List.countP_append]
      omega
    | succ i =>
      have hn := ih i
      simp only [List.modify_succ_cons, List.flatMap_cons, List.countP_append]
      omega

theorem countP_modifyNode_le (i : ℕ) {f : NodeStatus → NodeStatus}
    (hf : ∀ n, (f n).volumes.countP p ≤ n.volumes.countP p) :
    (cs.modifyNode i f).volumes.countP p ≤ cs.volumes.countP p :=
  countP_modify_le hf cs.nodes i

/-- Changing other fields of a node entry keeps the list of all volumes. -/
theorem volumes_modifyNode (i : ℕ) {f : NodeStatus → NodeStatus}
    (hf : ∀ n, (f n).volumes = n.volumes) : (cs.modifyNode i f).volumes = cs.volumes := by
  unfold CacheStatus.volumes CacheStatus.modifyNode
  generalize cs.nodes = nodes
  induction nodes generalizing i with
  | nil => simp
  | cons n nodes ih =>
    cases i with
    | zero => simp only [List.modify_zero_cons, List.flatMap_cons, hf]
    | succ i => simpa only [List.modify_succ_cons, List.flatMap_cons, List.append_right_inj] using ih i

/-- A node entry is refreshed or added without touching any volume. -/
theorem volumes_upsertNode (nodeName : String) (now : Time) :
    (upsertNode cs nodeName now).1.volumes = cs.volumes := by
  unfold upsertNode
  split
  · apply volumes_modifyNode
    intro n
    rfl
  · simp [CacheStatus.volumes]

/-- Removing a volume adds none. -/
theorem countP_removeVolume_le (nodeName volName : String) (now : Time) :
    (removeVolume cs nodeName volName now).1.volumes.countP p ≤ cs.volumes.countP p := by
  rw [← volumes_upsertNode cs nodeName now]
  apply countP_modifyNode_le
  intro n
  exact List.filter_sublist.countP_le

/-- Registering a volume adds no volume of a kind that needs a commit start time. -/
theorem countP_addVolume_le (hp : ∀ v : VolumeStatus, v.commitStartTime = none → p v = false)
    (c : Cache) (nodeName volName : String) (commit : Bool) (now : Time) :
    (addVolume c nodeName volName commit now).1.status.volumes.countP p ≤
      c.status.volumes.countP p := by
  have hu := volumes_upsertNode c.status nodeName now
  unfold addVolume
  dsimp only
  split
  · exact le_of_eq (congrArg _ hu)
  · rw [← hu]
    split <;> exact countP_modifyNode_le _ _ fun n => by simp [List.countP_append, hp]

/-- The closure of `RegisterCacheVolume` adds no lock. -/
theorem countP_registerVolume_le (hp : ∀ v : VolumeStatus, v.commitStartTime = none → p v = false)
    (nodeName volumeName defaultImage : String) (commit : Bool) (now : Time) (c : Cache) :
    (registerVolume nodeName volumeName defaultImage commit now c).1.status.volumes.countP p ≤
      c.status.volumes.countP p :=
  countP_addVolume_le hp _ _ _ _ _

/-- The closure of `UnregisterCacheVolume` adds no lock. -/
theorem countP_unregisterVolume_le (nodeName volumeName : String) (commitErr : Option String)
    (now : Time) (c : Cache) :
    (unregisterVolume nodeName volumeName commitErr now c).1.status.volumes.countP p ≤
      c.status.volumes.countP p := by
  have hle := countP_removeVolume_le (p := p) c.status nodeName volumeName now
  refine le_trans (countP_modifyNode_le _ _ ?_) hle
  intro n
  exact le_rfl

/-- Dropping an expired lock adds none. -/
theorem countP_expireCommit_le (hp : ∀ v : VolumeStatus, v.commitStartTime = none → p v = false)
    (c : Cache) (i : ℕ) (n : NodeStatus) (j : ℕ) (v : VolumeStatus) (now : Time) :
    (expireCommit c i n j v now).status.volumes.countP p ≤ c.status.volumes.countP p := by
  refine le_trans (countP_removeVolume_le _ _ _ _) (countP_modifyNode_le _ i ?_)
  intro node
  dsimp only
  generalize node.volumes = vols
  induction vols generalizing j with
  | nil => simp
  | cons w vols ih =>
    cases j with
    | zero =>
      have hreset : p { w with commitStartTime := none } = false := hp _ rfl
      rw [List.modify_zero_cons, List.countP_cons, List.countP_cons, hreset]
      simp
    | succ j =>
      have hj := ih j
      rw [List.modify_succ_cons, List.countP_cons, List.countP_cons]
      omega

/-- The scan for a commit in progress adds no lock. -/
theorem countP_scanNodes_le (hp : ∀ v : VolumeStatus, v.commitStartTime = none → p v = false)
    (c : Cache) (now : Time) (i : ℕ) (nodes : List NodeStatus) :
    (scanNodes c now i nodes).2.status.volumes.countP p ≤ c.status.volumes.countP p := by
  rcases scanNodes_cases c now i nodes with hsame | ⟨k, n, j, v, -, -, -, hexpired⟩
  · rw [hsame]
  · rw [hexpired]
    exact countP_expireCommit_le hp c (i + k) n j v now

/-- The closure of `PrepareCommit` adds no lock when it refuses the commit. -/
theorem countP_decideCommit_le (hp : ∀ v : VolumeStatus, v.commitStartTime = none → p v = false)
    {nodeName volumeName : String} {now : Time} {c : Cache}
    (h : (decideCommit nodeName volumeName now c).2 = false) :
    (decideCommit nodeName volumeName now c).1.status.volumes.countP p ≤
      c.status.volumes.countP p := by
  have houtcome := decided nodeName volumeName now c
  generalize decideCommit nodeName volumeName now c = outcome at h houtcome ⊢
  cases houtcome with
  | refused => exact le_rfl
  | inProgress => exact countP_scanNodes_le hp c now 0 c.status.nodes
  | granted => cases h

end Counting

section Decision

variable {now : Time}

theorem scanVolumes_none_iff (j : ℕ) (vols : List VolumeStatus) :
    scanVolumes now j vols = none ↔ ∀ v ∈ vols, v.commitRunning now = true := by
  induction vols generalizing j with
  | nil => simp [scanVolumes]
  | cons v vols ih =>
    cases hv : v.commitRunning now <;> simp [scanVolumes, hv, ih]

/-- The scan reports a commit in progress exactly when some volume has none. -/
theorem scanNodes_fst (c : Cache) (i : ℕ) (nodes : List NodeStatus) :
    (scanNodes c now i nodes).1 = true ↔
      ∃ n ∈ nodes, ∃ v ∈ n.volumes, v.commitRunning now = false := by
  induction nodes generalizing i with
  | nil => simp [scanNodes]
  | cons n nodes ih =>
    cases hs : scanVolumes now 0 n.volumes with
    | none =>
      have hall := (scanVolumes_none_iff 0 n.volumes).mp hs
      simp only [scanNodes, hs, ih, List.mem_cons, exists_eq_or_imp]
      constructor
      · exact Or.inr
      · rintro (⟨v, hv, hf⟩ | h)
        · rw [hall v hv] at hf
          contradiction
        · exact h
    | some found =>
      have hsome : ¬ ∀ v ∈ n.volumes, v.commitRunning now = true := by
        rw [← scanVolumes_none_iff 0, hs]
        simp
      push Not at hsome
      simp only [scanNodes, hs, true_iff]
      obtain ⟨v, hv, hf⟩ := hsome
      exact ⟨n, List.mem_cons_self, v, hv, by simpa using hf⟩

theorem mem_volumes {cs : CacheStatus} {v : VolumeStatus} :
    v ∈ cs.volumes ↔ ∃ n ∈ cs.nodes, v ∈ n.volumes := List.mem_flatMap

/-- `commitInProgress` is false exactly when every volume of the cache holds
an unexpired lock. -/
theorem commitInProgress_eq_false_iff (c : Cache) :
    (commitInProgress c now).1 = false ↔ ∀ v ∈ c.status.volumes, v.commitRunning now = true := by
  rw [← Bool.not_eq_true, commitInProgress, scanNodes_fst]
  push Not
  constructor
  · intro h v hv
    obtain ⟨n, hn, hvn⟩ := mem_volumes.mp hv
    simpa using h n hn v hvn
  · intro h n hn v hv
    simpa using h v (mem_volumes.mpr ⟨n, hn, hv⟩)

/-- The volume registered under a name on a node. -/
def registeredVolume (c : Cache) (nodeName volumeName : String) : Option VolumeStatus :=
  (c.status.nodes.find? (·.name == nodeName)).bind fun n =>
    n.volumes.find? (·.name == volumeName)

/-- The element at the index of the first match is the first match. -/
theorem getElem?_findIdx? {α : Type} (q : α → Bool) (l : List α) {i : ℕ}
    (h : l.findIdx? q = some i) : l[i]? = l.find? q := by
  have hindex := (List.findIdx?_eq_some_iff_findIdx_eq.mp h).2
  rw [List.find?_eq_getElem?_findIdx, hindex]

/-- The indices `findVolume` returns point at the registered volume. -/
theorem findVolume_eq_some {c : Cache} {nodeName volumeName : String} {i j : ℕ}
    (h : findVolume c nodeName volumeName = some (i, j)) :
    (c.status.nodes[i]?).bind (·.volumes[j]?) = registeredVolume c nodeName volumeName := by
  unfold findVolume at h
  split at h
  · contradiction
  · rename_i i' hi
    split at h
    · contradiction
    · rename_i j' hj
      cases h
      rw [getElem?_findIdx? _ _ hi] at hj ⊢
      unfold registeredVolume
      cases hn : c.status.nodes.find? (·.name == nodeName) with
      | none => rfl
      | some n =>
        rw [hn, Option.bind_some] at hj
        exact getElem?_findIdx? _ _ hj

theorem findVolume_eq_none {c : Cache} {nodeName volumeName : String}
    (h : findVolume c nodeName volumeName = none) :
    registeredVolume c nodeName volumeName = none := by
  unfold findVolume at h
  unfold registeredVolume
  split at h
  · rename_i hi
    rw [List.findIdx?_eq_none_iff] at hi
    rw [List.find?_eq_none.mpr (by simpa using hi)]
    rfl
  · rename_i i hi
    split at h
    · rename_i hj
      rw [getElem?_findIdx? _ _ hi] at hj
      cases hn : c.status.nodes.find? (·.name == nodeName) with
      | none => rfl
      | some n =>
        rw [hn, Option.bind_some, List.findIdx?_eq_none_iff] at hj
        rw [Option.bind_some, List.find?_eq_none.mpr (by simpa using hj)]
    · contradiction

/-- The cache accepts commits and the volume is registered as committable. -/
def Eligible (c : Cache) (nodeName volumeName : String) : Prop :=
  c.spec.readOnly = false ∧ c.status.phase ≠ .reject ∧
    ∃ v, registeredVolume c nodeName volumeName = some v ∧ v.committable = true

/-- The exact decision of the code: an eligible volume is granted the commit
when every volume of the cache already holds an unexpired lock. -/
theorem decideCommit_granted_iff (c : Cache) (nodeName volumeName : String) :
    (decideCommit nodeName volumeName now c).2 = true ↔
      Eligible c nodeName volumeName ∧ ∀ v ∈ c.status.volumes, v.commitRunning now = true := by
  unfold decideCommit Eligible
  split
  · rename_i hro
    simp only [Bool.or_eq_true, beq_iff_eq] at hro
    simp only [Bool.false_eq_true, false_iff]
    rintro ⟨⟨h1, h2, -⟩, -⟩
    rcases hro with hro | hro
    · rw [h1] at hro
      contradiction
    · exact h2 hro
  · rename_i hro
    simp only [Bool.or_eq_true, beq_iff_eq, not_or, Bool.not_eq_true] at hro
    split
    · rename_i hf
      simp [findVolume_eq_none hf]
    · rename_i i j hf
      rw [findVolume_eq_some hf]
      cases hv : registeredVolume c nodeName volumeName with
      | none => simp
      | some v =>
        cases hc : v.committable with
        | false => simp [hc]
        | true =>
          rw [← commitInProgress_eq_false_iff]
          cases hp : (commitInProgress c now).1 <;> simp [hc, hp, hro.1, hro.2]

/-- An eligible volume is one of the scanned volumes. -/
theorem exists_volume_of_eligible {c : Cache} {nodeName volumeName : String}
    (h : Eligible c nodeName volumeName) : ∃ v, v ∈ c.status.volumes := by
  obtain ⟨-, -, v, hv, -⟩ := h
  simp only [registeredVolume, Option.bind_eq_some_iff] at hv
  obtain ⟨n, hn, hv⟩ := hv
  exact ⟨v, mem_volumes.mpr ⟨n, List.mem_of_find?_eq_some hn, List.mem_of_find?_eq_some hv⟩⟩

/-- A granted commit changes no list of volumes in length. -/
theorem length_decideCommit_le {c : Cache} {nodeName volumeName : String}
    (h : (decideCommit nodeName volumeName now c).2 = true) :
    (decideCommit nodeName volumeName now c).1.status.volumes.length ≤ c.status.volumes.length := by
  have houtcome := decided nodeName volumeName now c
  generalize decideCommit nodeName volumeName now c = outcome at h houtcome ⊢
  cases houtcome with
  | refused => cases h
  | inProgress => cases h
  | @granted i j =>
    have hmod := countP_modifyNode_le (p := fun _ => true) c.status i
      (f := fun n => { n with volumes := n.volumes.modify j fun v =>
        { v with commitStartTime := some now } }) (fun n => by simp)
    simp only [List.countP_true] at hmod
    exact hmod

end Decision

section MutualExclusion

/-- At most one volume of the cache holds an unexpired commit lock. -/
def MutualExclusion (cs : CacheStatus) (now : Time) : Prop :=
  cs.volumes.countP (·.commitRunning now) ≤ 1

instance (cs : CacheStatus) (now : Time) : Decidable (MutualExclusion cs now) :=
  inferInstanceAs (Decidable (_ ≤ _))

variable {now : Time}

theorem commitRunning_of_none {v : VolumeStatus} (h : v.commitStartTime = none) :
    v.commitRunning now = false := by
  simp [VolumeStatus.commitRunning, h]

/-- Locks only expire when time passes. -/
theorem commitRunning_antitone {v : VolumeStatus} {later : Time} (hle : now ≤ later)
    (h : v.commitRunning later = true) : v.commitRunning now = true := by
  unfold VolumeStatus.commitRunning at h ⊢
  split at h
  · contradiction
  · simp only [Bool.not_eq_true', decide_eq_false_iff_not] at h ⊢
    exact fun hlt => h (Int.lt_of_lt_of_le hlt hle)

theorem MutualExclusion.later {cs : CacheStatus} {later : Time} (h : MutualExclusion cs now)
    (hle : now ≤ later) : MutualExclusion cs later :=
  le_trans (List.countP_mono_left fun _ _ => commitRunning_antitone hle) h

/-- A cache nobody has used has no locks. -/
theorem mutualExclusion_empty : MutualExclusion .empty now := by
  simp [MutualExclusion, CacheStatus.empty, CacheStatus.volumes]

/-- Registering a volume keeps the lock exclusive. -/
theorem mutualExclusion_registerVolume {c : Cache} (h : MutualExclusion c.status now)
    (nodeName volumeName defaultImage : String) (commit : Bool) :
    MutualExclusion (registerVolume nodeName volumeName defaultImage commit now c).1.status now :=
  le_trans (countP_registerVolume_le (fun _ => commitRunning_of_none) _ _ _ _ _ c) h

/-- Unregistering a volume keeps the lock exclusive. -/
theorem mutualExclusion_unregisterVolume {c : Cache} (h : MutualExclusion c.status now)
    (nodeName volumeName : String) (commitErr : Option String) :
    MutualExclusion (unregisterVolume nodeName volumeName commitErr now c).1.status now :=
  le_trans (countP_unregisterVolume_le _ _ _ _ c) h

/-- A granted lock stays the only one: all volumes hold a lock before the
grant, so there is at most one volume. -/
theorem mutualExclusion_decideCommit {c : Cache} (h : MutualExclusion c.status now)
    (nodeName volumeName : String) :
    MutualExclusion (decideCommit nodeName volumeName now c).1.status now := by
  cases hgranted : (decideCommit nodeName volumeName now c).2 with
  | false =>
    exact le_trans (countP_decideCommit_le (fun _ => commitRunning_of_none) hgranted) h
  | true =>
    have hall := ((decideCommit_granted_iff c nodeName volumeName).mp hgranted).2
    have hlength : c.status.volumes.length ≤ 1 := by
      rw [← List.countP_eq_length.mpr hall]
      exact h
    have hkeep := length_decideCommit_le hgranted
    exact le_trans List.countP_le_length (le_trans hkeep hlength)

/-- No volume of the cache has a commit start time. -/
def LockFree (cs : CacheStatus) : Prop := cs.volumes.countP (·.commitStartTime.isSome) = 0

instance (cs : CacheStatus) : Decidable (LockFree cs) := inferInstanceAs (Decidable (_ = _))

/-- Without any lock the code never grants one. -/
theorem decideCommit_refused_of_lockFree {c : Cache} (h : LockFree c.status)
    (nodeName volumeName : String) : (decideCommit nodeName volumeName now c).2 = false := by
  cases hgranted : (decideCommit nodeName volumeName now c).2 with
  | false => rfl
  | true =>
    obtain ⟨heligible, hall⟩ := (decideCommit_granted_iff c nodeName volumeName).mp hgranted
    obtain ⟨v, hv⟩ := exists_volume_of_eligible heligible
    have hnone : v.commitStartTime = none := by
      simpa using List.countP_eq_zero.mp h v hv
    have hrunning := hall v hv
    rw [commitRunning_of_none hnone] at hrunning
    contradiction

end MutualExclusion

end K8StorageX.CommitLock
