import Mathlib.Data.Int.Basic
import Mathlib.Tactic.Common

/-!
# The status of a Cache and the updates the nodes apply to it

Data model of the `Cache` resource and the functions that change its status:
registering a volume, deciding a commit and unregistering a volume. All reads
of the clock within one update yield one instant. Go pointers into the node
and volume slices become indices; a pointer that outlives a rebuilt slice is
never written through in the modelled functions.
-/

namespace K8StorageX.CacheModel

/-- An instant in nanoseconds. -/
abbrev Time : Type := ℤ

/-- Phase of a cache; `unset` is the empty string of a fresh status. -/
inductive CachePhase where
  /-- No phase has been written yet. -/
  | unset
  /-- `ready` -/
  | ready
  /-- `reject` -/
  | reject
  deriving DecidableEq, Repr

/-- One mounted volume of a cache. -/
structure VolumeStatus where
  /-- Name of the volume, unique per node by convention. -/
  name : String
  /-- Generation of the cache when the volume was registered. -/
  cacheGeneration : Int64
  /-- Time of registration. -/
  created : Time
  /-- Whether the volume may be committed. -/
  committable : Bool
  /-- Start of a running commit; the commit lock. -/
  commitStartTime : Option Time
  deriving DecidableEq, Repr

/-- The last failure on a node. -/
structure VolumeError where
  /-- The volume that failed. -/
  volumeName : String
  /-- Generation reported with the failure. -/
  cacheGeneration : Option Int64
  /-- Text of the failure. -/
  error : String
  /-- Time of the failure. -/
  happened : Time
  deriving DecidableEq, Repr

/-- The volumes of a cache on one node. -/
structure NodeStatus where
  /-- Name of the node. -/
  name : String
  /-- Last access through this node's entry. -/
  lastUsed : Time
  /-- Registered volumes in order of registration. -/
  volumes : List VolumeStatus
  /-- Last failure, cleared by the next clean unregistration. -/
  lastError : Option VolumeError
  deriving DecidableEq, Repr

/-- Observed state of a cache. -/
structure CacheStatus where
  /-- Image all volumes of the cache start from; empty until the first registration. -/
  image : String
  /-- Number of committable registrations, a 64 bit counter. -/
  cacheGeneration : Int64
  /-- Number of registrations, a 64 bit counter. -/
  used : Int64
  /-- Nodes that have used the cache. -/
  nodes : List NodeStatus
  /-- Whether commits are rejected during a reset. -/
  phase : CachePhase
  deriving DecidableEq, Repr

/-- Desired state of a cache. -/
structure CacheSpec where
  /-- Volumes of the cache must not be committed. -/
  readOnly : Bool
  deriving DecidableEq, Repr

/-- The cache resource. -/
structure Cache where
  /-- Desired state. -/
  spec : CacheSpec
  /-- Observed state. -/
  status : CacheStatus
  deriving DecidableEq, Repr

/-- The status of a cache nobody has used. -/
def CacheStatus.empty : CacheStatus := ⟨"", 0, 0, [], .unset⟩

/-- The cache object `updateCache` creates: only its name is set. -/
def Cache.new : Cache := ⟨⟨false⟩, .empty⟩

/-- All volumes of all nodes in the order in which the code scans them. -/
def CacheStatus.volumes (cs : CacheStatus) : List VolumeStatus := cs.nodes.flatMap (·.volumes)

/-- Write through a pointer to a node entry. -/
def CacheStatus.modifyNode (cs : CacheStatus) (i : ℕ) (f : NodeStatus → NodeStatus) : CacheStatus :=
  { cs with nodes := cs.nodes.modify i f }

/-- Find the entry of a node and refresh it, or append one. The entry is
returned as its index, which stands for the returned pointer. -/
def upsertNode (cs : CacheStatus) (nodeName : String) (now : Time) : CacheStatus × ℕ :=
  match cs.nodes.findIdx? (·.name == nodeName) with
  | some i => (cs.modifyNode i fun n => { n with lastUsed := now }, i)
  | none => ({ cs with nodes := cs.nodes ++ [⟨nodeName, now, [], none⟩] }, cs.nodes.length)

/-- Why a volume could not be added. -/
inductive AddVolumeError where
  /-- `volume %q on node %q already exists` -/
  | alreadyExists (volName nodeName : String)
  deriving DecidableEq, Repr

/-- Register a volume on a node. A committable registration starts a new cache
generation. The node entry is refreshed even if the volume already exists. -/
def addVolume (c : Cache) (nodeName volName : String) (commit : Bool) (now : Time) :
    Cache × Option AddVolumeError :=
  let (cs, i) := upsertNode c.status nodeName now
  if ((cs.nodes[i]?).any fun n => n.volumes.any (·.name == volName)) then
    ({ c with status := cs }, some (.alreadyExists volName nodeName))
  else
    let commit := commit && !c.spec.readOnly
    let cs := if commit then { cs with cacheGeneration := cs.cacheGeneration + 1 } else cs
    let vol : VolumeStatus := ⟨volName, cs.cacheGeneration, now, commit, none⟩
    ({ c with status := cs.modifyNode i fun n => { n with volumes := n.volumes ++ [vol] } }, none)

/-- The generation `removeVolume` reports. It is a pointer to the loop variable
taken when a kept volume is seen, so after the loop it shows the last volume of
the list, kept or not; without a kept volume it is nil. -/
def removedGeneration (vols : List VolumeStatus) (volName : String) : Option Int64 :=
  if vols.any (·.name != volName) then vols.getLast?.map (·.cacheGeneration) else none

/-- Remove all volumes of a name from a node. Returns the index of the node
entry and the reported generation. -/
def removeVolume (cs : CacheStatus) (nodeName volName : String) (now : Time) :
    CacheStatus × ℕ × Option Int64 :=
  let (cs, i) := upsertNode cs nodeName now
  let vols := (cs.nodes[i]?).elim [] (·.volumes)
  (cs.modifyNode i fun n => { n with volumes := n.volumes.filter (·.name != volName) }, i,
    removedGeneration vols volName)

/-- Find a volume on the first entry of a node; `none` is the not found error. -/
def findVolume (c : Cache) (nodeName volumeName : String) : Option (ℕ × ℕ) :=
  match c.status.nodes.findIdx? (·.name == nodeName) with
  | none => none
  | some i =>
    match (c.status.nodes[i]?).bind fun n => n.volumes.findIdx? (·.name == volumeName) with
    | none => none
    | some j => some (i, j)

/-- 15 minutes in nanoseconds. -/
def commitTimeout : Time := 15 * 60 * 1000000000

/-- The volume holds a commit lock that is set and not older than `commitTimeout`. -/
def VolumeStatus.commitRunning (v : VolumeStatus) (now : Time) : Bool :=
  match v.commitStartTime with
  | none => false
  | some start => !decide (start + commitTimeout < now)

/-- The inner loop of `commitInProgress`: the first volume without a running commit. -/
def scanVolumes (now : Time) : ℕ → List VolumeStatus → Option (ℕ × VolumeStatus)
  | _, [] => none
  | j, v :: vols => if v.commitRunning now then scanVolumes now (j + 1) vols else some (j, v)

/-- Record a timed out commit, reset its lock and remove its volume. The removal
goes by name, so it hits the first entry with that node's name. -/
def expireCommit (c : Cache) (i : ℕ) (n : NodeStatus) (j : ℕ) (v : VolumeStatus) (now : Time) :
    Cache :=
  let cs := c.status.modifyNode i fun node =>
    { node with
      lastError := some ⟨v.name, some v.cacheGeneration, "commit timed out", now⟩
      volumes := node.volumes.modify j fun vol => { vol with commitStartTime := none } }
  { c with status := (removeVolume cs n.name v.name now).1 }

/-- The outer loop of `commitInProgress`, returning at the first volume whose
lock is unset or expired. -/
def scanNodes (c : Cache) (now : Time) : ℕ → List NodeStatus → Bool × Cache
  | _, [] => (false, c)
  | i, n :: nodes =>
    match scanVolumes now 0 n.volumes with
    | none => scanNodes c now (i + 1) nodes
    | some (j, v) =>
      (true, if v.commitStartTime.isSome then expireCommit c i n j v now else c)

/-- Whether the code considers a commit to be in progress, with the cache it
leaves behind. -/
def commitInProgress (c : Cache) (now : Time) : Bool × Cache :=
  scanNodes c now 0 c.status.nodes

/-- The closure of `RegisterCacheVolume`, with the image it captures. -/
def registerVolume (nodeName volumeName defaultImage : String) (commit : Bool) (now : Time)
    (c : Cache) : Cache × String :=
  let image := if c.status.image = "" then defaultImage else c.status.image
  let status := { c.status with image := image, used := c.status.used + 1 }
  ((addVolume { c with status := status } nodeName volumeName commit now).1, image)

/-- The closure of `PrepareCommit`, with the decision it captures. -/
def decideCommit (nodeName volumeName : String) (now : Time) (c : Cache) : Cache × Bool :=
  if c.spec.readOnly || c.status.phase == .reject then (c, false)
  else
    match findVolume c nodeName volumeName with
    | none => (c, false)
    | some (i, j) =>
      if ((c.status.nodes[i]?).bind (·.volumes[j]?)).any (·.committable) then
        let (inProgress, c) := commitInProgress c now
        if inProgress then (c, false)
        else
          ({ c with status := c.status.modifyNode i fun n =>
              { n with volumes := n.volumes.modify j fun v =>
                { v with commitStartTime := some now } } }, true)
      else (c, false)

/-- The closure of `UnregisterCacheVolume`. -/
def unregisterVolume (nodeName volumeName : String) (commitErr : Option String) (now : Time)
    (c : Cache) : Cache × Unit :=
  let (cs, i, cacheGeneration) := removeVolume c.status nodeName volumeName now
  let lastError := commitErr.map fun text => ⟨volumeName, cacheGeneration, text, now⟩
  ({ c with status := cs.modifyNode i fun n => { n with lastError := lastError } }, ())

section Inversion

theorem scanVolumes_mem {now : Time} {i j : ℕ} {v : VolumeStatus} {volumes : List VolumeStatus}
    (h : scanVolumes now i volumes = some (j, v)) : v ∈ volumes := by
  induction volumes generalizing i with
  | nil => cases h
  | cons w volumes ih =>
    unfold scanVolumes at h
    split at h
    · exact List.mem_cons_of_mem w (ih h)
    · cases h
      exact List.mem_cons_self

/-- The scan for a running commit leaves the cache alone or expires a lock. -/
theorem scanNodes_cases (c : Cache) (now : Time) (i : ℕ) (nodes : List NodeStatus) :
    (scanNodes c now i nodes).2 = c ∨ ∃ k n j v, nodes[k]? = some n ∧ v ∈ n.volumes ∧
      v.commitStartTime.isSome ∧ (scanNodes c now i nodes).2 = expireCommit c (i + k) n j v now := by
  induction nodes generalizing i with
  | nil => exact .inl rfl
  | cons n nodes ih =>
    unfold scanNodes
    cases hscan : scanVolumes now 0 n.volumes with
    | none =>
      rcases ih (i + 1) with hsame | ⟨k, m, j, v, hk, hv, hlock, hexpired⟩
      · exact .inl hsame
      · refine .inr ⟨k + 1, m, j, v, hk, hv, hlock, ?_⟩
        rw [hexpired, Nat.add_right_comm, Nat.add_assoc]
    | some found =>
      obtain ⟨j, v⟩ := found
      dsimp only
      split
      · rename_i hlock
        exact .inr ⟨0, n, j, v, rfl, scanVolumes_mem hscan, hlock, rfl⟩
      · exact .inl rfl

/-- A scan that lets the commit pass has changed nothing. -/
theorem scanNodes_snd (c : Cache) (now : Time) (i : ℕ) (nodes : List NodeStatus)
    (h : (scanNodes c now i nodes).1 = false) : (scanNodes c now i nodes).2 = c := by
  induction nodes generalizing i with
  | nil => rfl
  | cons n nodes ih =>
    cases hs : scanVolumes now 0 n.volumes with
    | none =>
      simp only [scanNodes, hs] at h ⊢
      exact ih _ h
    | some found => simp only [scanNodes, hs, Bool.true_eq_false] at h

/-- The outcomes of `decideCommit`. -/
inductive Decided (nodeName volumeName : String) (now : Time) (c : Cache) : Cache × Bool → Prop
  /-- The cache or the volume does not allow a commit. -/
  | refused : Decided nodeName volumeName now c (c, false)
  /-- A commit is considered to be in progress. -/
  | inProgress (scanned : (commitInProgress c now).1 = true) :
      Decided nodeName volumeName now c ((commitInProgress c now).2, false)
  /-- The volume gets the lock. -/
  | granted {i j : ℕ} (found : findVolume c nodeName volumeName = some (i, j))
      (committable : ((c.status.nodes[i]?).bind (·.volumes[j]?)).any (·.committable) = true)
      (scanned : (commitInProgress c now).1 = false) :
      Decided nodeName volumeName now c
        ({ c with status := c.status.modifyNode i fun n =>
            { n with volumes := n.volumes.modify j fun v =>
              { v with commitStartTime := some now } } }, true)

theorem decided (nodeName volumeName : String) (now : Time) (c : Cache) :
    Decided nodeName volumeName now c (decideCommit nodeName volumeName now c) := by
  unfold decideCommit
  split
  · exact .refused
  · split
    · exact .refused
    · rename_i i j hfound
      split
      · rename_i hcommittable
        dsimp only
        split
        · rename_i hscanned
          exact .inProgress hscanned
        · rename_i hscanned
          rw [Bool.not_eq_true] at hscanned
          have hsame : (commitInProgress c now).2 = c := scanNodes_snd c now 0 _ hscanned
          rw [hsame]
          exact .granted hfound hcommittable hscanned
      · exact .refused

end Inversion

end K8StorageX.CacheModel
