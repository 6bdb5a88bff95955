import K8StorageX.CacheConsistency

/-!
# The structure of a Cache status

Every update of a `Cache` goes through the entry of one node: it is found or
appended, and its list of volumes is rebuilt. `Updated` says once what that does
to the list of nodes. From it follow the facts every reachable status satisfies:
nodes and volumes are listed once, no volume is newer than the cache, and no two
committable volumes share a generation.
-/

namespace K8StorageX.CacheStructure

open WorkerPool CacheModel CommitLock CacheUpdater CacheConsistency OptimisticStore

section Entries

/-- The first entry of a node gets other volumes; a missing entry is appended. -/
inductive Updated (nodeName : String) (f : List VolumeStatus → List VolumeStatus) :
    List NodeStatus → List NodeStatus → Prop
  /-- The entry exists. -/
  | existing {pre post : List NodeStatus} {n n' : NodeStatus}
      (first : ∀ m ∈ pre, m.name ≠ nodeName) (name : n.name = nodeName)
      (name' : n'.name = nodeName) (volumes : n'.volumes = f n.volumes) :
      Updated nodeName f (pre ++ n :: post) (pre ++ n' :: post)
  /-- The entry is new. -/
  | appended {nodes : List NodeStatus} {n : NodeStatus} (missing : ∀ m ∈ nodes, m.name ≠ nodeName)
      (name : n.name = nodeName) (volumes : n.volumes = f []) :
      Updated nodeName f nodes (nodes ++ [n])

/-- What `upsertNode` leaves behind, with the index of the entry. -/
inductive Upserted (cs : CacheStatus) (nodeName : String) (now : Time) : CacheStatus × ℕ → Prop
  /-- The entry exists and is refreshed. -/
  | found {pre post : List NodeStatus} {n : NodeStatus} (nodes : cs.nodes = pre ++ n :: post)
      (first : ∀ m ∈ pre, m.name ≠ nodeName) (name : n.name = nodeName) :
      Upserted cs nodeName now
        ({ cs with nodes := pre ++ { n with lastUsed := now } :: post }, pre.length)
  /-- The entry is new. -/
  | appended (missing : ∀ m ∈ cs.nodes, m.name ≠ nodeName) :
      Upserted cs nodeName now
        ({ cs with nodes := cs.nodes ++ [⟨nodeName, now, [], none⟩] }, cs.nodes.length)

/-- The position of the first match splits a list. -/
theorem split_of_findIdx? {α : Type} {p : α → Bool} {l : List α} {i : ℕ}
    (h : l.findIdx? p = some i) :
    ∃ pre a post, l = pre ++ a :: post ∧ pre.length = i ∧ p a = true ∧ ∀ b ∈ pre, p b = false := by
  induction l generalizing i with
  | nil => simp at h
  | cons a l ih =>
    cases hp : p a with
    | true =>
      simp only [List.findIdx?_cons, hp, if_true, Option.some.injEq] at h
      exact ⟨[], a, l, rfl, h, hp, by simp⟩
    | false =>
      simp only [List.findIdx?_cons, hp, Bool.false_eq_true, if_false,
        Option.map_eq_some_iff] at h
      obtain ⟨k, hk, rfl⟩ := h
      obtain ⟨pre, b, post, rfl, hlength, hb, hpre⟩ := ih hk
      refine ⟨a :: pre, b, post, rfl, by simp [hlength], hb, ?_⟩
      intro c hc
      rcases List.mem_cons.mp hc with rfl | hc
      · exact hp
      · exact hpre c hc

theorem modify_split {α : Type} (pre : List α) (a : α) (post : List α) (f : α → α) :
    (pre ++ a :: post).modify pre.length f = pre ++ f a :: post := by
  induction pre with
  | nil => rfl
  | cons b pre ih => simp [ih]

theorem upserted_upsertNode (cs : CacheStatus) (nodeName : String) (now : Time) :
    Upserted cs nodeName now (upsertNode cs nodeName now) := by
  unfold upsertNode
  split
  · rename_i i hi
    obtain ⟨pre, n, post, hnodes, rfl, hname, hpre⟩ := split_of_findIdx? hi
    have hfirst : ∀ m ∈ pre, m.name ≠ nodeName := fun m hm => by simpa using hpre m hm
    rw [CacheStatus.modifyNode, hnodes, modify_split]
    exact .found hnodes hfirst (by simpa using hname)
  · rename_i hnone
    rw [List.findIdx?_eq_none_iff] at hnone
    exact .appended fun m hm => by simpa using hnone m hm

/-- Writing through the entry of a node updates it. -/
theorem updated_modifyNode (cs : CacheStatus) (nodeName : String) (now : Time)
    {f : NodeStatus → NodeStatus} {g : List VolumeStatus → List VolumeStatus}
    (hname : ∀ n, (f n).name = n.name) (hvolumes : ∀ n, (f n).volumes = g n.volumes) :
    Updated nodeName g cs.nodes
      ((upsertNode cs nodeName now).1.modifyNode (upsertNode cs nodeName now).2 f).nodes := by
  cases hu : upsertNode cs nodeName now with
  | mk cs' i =>
    have hspec := upserted_upsertNode cs nodeName now
    rw [hu] at hspec
    cases hspec with
    | found hnodes hfirst hn =>
      simp only [CacheStatus.modifyNode, modify_split]
      rw [hnodes]
      exact .existing hfirst hn ((hname _).trans hn) (hvolumes _)
    | appended hmissing =>
      simp only [CacheStatus.modifyNode, modify_split]
      exact .appended hmissing (hname _) (hvolumes _)

/-- Refreshing the entry of a node keeps its volumes. -/
theorem updated_upsertNode (cs : CacheStatus) (nodeName : String) (now : Time) :
    Updated nodeName id cs.nodes (upsertNode cs nodeName now).1.nodes := by
  have hid := updated_modifyNode cs nodeName now (f := id) (g := id) (fun _ => rfl) fun _ => rfl
  simpa [CacheStatus.modifyNode] using hid

@[simp] theorem cacheGeneration_modifyNode (cs : CacheStatus) (i : ℕ) (f : NodeStatus → NodeStatus) :
    (cs.modifyNode i f).cacheGeneration = cs.cacheGeneration := rfl

@[simp] theorem cacheGeneration_upsertNode (cs : CacheStatus) (nodeName : String) (now : Time) :
    (upsertNode cs nodeName now).1.cacheGeneration = cs.cacheGeneration := by
  unfold upsertNode
  split <;> rfl

@[simp] theorem cacheGeneration_removeVolume (cs : CacheStatus) (nodeName volName : String)
    (now : Time) :
    (removeVolume cs nodeName volName now).1.cacheGeneration = cs.cacheGeneration :=
  cacheGeneration_upsertNode cs nodeName now

theorem cacheGeneration_addVolume {c : Cache} (nodeName volName : String) {commit : Bool} (now : Time)
    (h : (commit && !c.spec.readOnly) = false) :
    (addVolume c nodeName volName commit now).1.status.cacheGeneration =
      c.status.cacheGeneration := by
  simp only [addVolume, h, Bool.false_eq_true, if_false]
  split
  · exact cacheGeneration_upsertNode c.status nodeName now
  · rw [cacheGeneration_modifyNode, cacheGeneration_upsertNode]

theorem cacheGeneration_commitInProgress (c : Cache) (now : Time) :
    (commitInProgress c now).2.status.cacheGeneration = c.status.cacheGeneration := by
  rw [commitInProgress]
  rcases scanNodes_cases c now 0 c.status.nodes with hsame | ⟨k, n, j, v, -, -, -, hexpired⟩
  · rw [hsame]
  · rw [hexpired, expireCommit, cacheGeneration_removeVolume, cacheGeneration_modifyNode]

theorem cacheGeneration_decideCommit (nodeName volumeName : String) (now : Time) (c : Cache) :
    (decideCommit nodeName volumeName now c).1.status.cacheGeneration =
      c.status.cacheGeneration := by
  have houtcome := decided nodeName volumeName now c
  generalize decideCommit nodeName volumeName now c = outcome at houtcome ⊢
  cases houtcome with
  | refused => rfl
  | inProgress _ => exact cacheGeneration_commitInProgress c now
  | granted _ _ _ => rfl

/-- `removeVolume` filters the volumes of the node. -/
theorem removeVolume_updated (cs : CacheStatus) (nodeName volName : String) (now : Time) :
    Updated nodeName (List.filter (·.name != volName)) cs.nodes
      (removeVolume cs nodeName volName now).1.nodes :=
  updated_modifyNode cs nodeName now (fun _ => rfl) fun _ => rfl

theorem modifyNode_modifyNode (cs : CacheStatus) (i : ℕ) (f g : NodeStatus → NodeStatus) :
    (cs.modifyNode i f).modifyNode i g = cs.modifyNode i (g ∘ f) := by
  simp only [CacheStatus.modifyNode, List.modify_modify_eq]

/-- `unregisterVolume` filters the volumes of the node. -/
theorem unregisterVolume_updated (nodeName volumeName : String) (commitErr : Option String)
    (now : Time) (c : Cache) :
    Updated nodeName (List.filter (·.name != volumeName)) c.status.nodes
      (unregisterVolume nodeName volumeName commitErr now c).1.status.nodes := by
  unfold unregisterVolume removeVolume
  dsimp only
  rw [modifyNode_modifyNode]
  exact updated_modifyNode c.status nodeName now (fun _ => rfl) fun _ => rfl

/-- The volumes of the first entry of a node. -/
def volumesOn (nodes : List NodeStatus) (nodeName : String) : List VolumeStatus :=
  (nodes.find? (·.name == nodeName)).elim [] (·.volumes)

theorem volumesOn_split {pre post : List NodeStatus} {n : NodeStatus} {nodeName : String}
    (first : ∀ m ∈ pre, m.name ≠ nodeName) (name : n.name = nodeName) :
    volumesOn (pre ++ n :: post) nodeName = n.volumes := by
  have hpre : pre.find? (·.name == nodeName) = none :=
    List.find?_eq_none.mpr fun m hm => by simpa using first m hm
  simp [volumesOn, List.find?_append, hpre, name]

theorem volumesOn_missing {nodes : List NodeStatus} {nodeName : String}
    (missing : ∀ m ∈ nodes, m.name ≠ nodeName) : volumesOn nodes nodeName = [] := by
  have hnone : nodes.find? (·.name == nodeName) = none :=
    List.find?_eq_none.mpr fun m hm => by simpa using missing m hm
  simp [volumesOn, hnone]

/-- The entry `upsertNode` points at lists the volumes of the node. -/
theorem any_upsertNode (cs : CacheStatus) (nodeName : String) (now : Time)
    (p : List VolumeStatus → Bool) :
    ((upsertNode cs nodeName now).1.nodes[(upsertNode cs nodeName now).2]?).any (p ·.volumes) =
      p (volumesOn cs.nodes nodeName) := by
  cases hu : upsertNode cs nodeName now with
  | mk cs' i =>
    have hspec := upserted_upsertNode cs nodeName now
    rw [hu] at hspec
    cases hspec with
    | found hnodes hfirst hname =>
      rw [hnodes, volumesOn_split hfirst hname]
      simp
    | appended hmissing =>
      rw [volumesOn_missing hmissing]
      simp

/-- The volume is registered on the node. -/
def Registered (nodes : List NodeStatus) (nodeName volName : String) : Prop :=
  ∃ v ∈ volumesOn nodes nodeName, v.name = volName

instance (nodes : List NodeStatus) (nodeName volName : String) :
    Decidable (Registered nodes nodeName volName) :=
  inferInstanceAs (Decidable (∃ v ∈ volumesOn nodes nodeName, v.name = volName))

/-- A registered volume stays as it is. -/
theorem addVolume_of_registered {c : Cache} {nodeName volName : String}
    (h : Registered c.status.nodes nodeName volName) (commit : Bool) (now : Time) :
    addVolume c nodeName volName commit now =
      ({ c with status := (upsertNode c.status nodeName now).1 },
        some (.alreadyExists volName nodeName)) := by
  have hany : (volumesOn c.status.nodes nodeName).any (·.name == volName) = true := by
    simpa [Registered] using h
  unfold addVolume
  dsimp only
  rw [any_upsertNode _ _ _ fun vols => vols.any (·.name == volName), hany, if_pos rfl]

/-- The volume `addVolume` appends. -/
def addedVolume (c : Cache) (volName : String) (commit : Bool) (now : Time) : VolumeStatus :=
  ⟨volName, if commit && !c.spec.readOnly then c.status.cacheGeneration + 1
    else c.status.cacheGeneration, now, commit && !c.spec.readOnly, none⟩

/-- A new volume is appended to those of the node, and it carries the generation
the cache has afterwards. -/
theorem addVolume_of_not_registered {c : Cache} {nodeName volName : String}
    (h : ¬ Registered c.status.nodes nodeName volName) (commit : Bool) (now : Time) :
    Updated nodeName (· ++ [addedVolume c volName commit now]) c.status.nodes
        (addVolume c nodeName volName commit now).1.status.nodes ∧
      (addVolume c nodeName volName commit now).1.status.cacheGeneration =
        (addedVolume c volName commit now).cacheGeneration ∧
      (addVolume c nodeName volName commit now).2 = none := by
  have hany : (volumesOn c.status.nodes nodeName).any (·.name == volName) = false := by
    simpa [Registered] using h
  unfold addVolume
  dsimp only
  rw [any_upsertNode _ _ _ fun vols => vols.any (·.name == volName), hany]
  have hadded := updated_modifyNode c.status nodeName now
    (f := fun n => { n with volumes := n.volumes ++ [addedVolume c volName commit now] })
    (g := (· ++ [addedVolume c volName commit now])) (fun _ => rfl) fun _ => rfl
  cases hcommit : commit && !c.spec.readOnly with
  | true =>
    simp only [addedVolume, hcommit, if_true] at hadded ⊢
    simp only [Bool.false_eq_true, if_false, cacheGeneration_modifyNode,
      cacheGeneration_upsertNode, and_true]
    exact hadded
  | false =>
    simp only [addedVolume, hcommit, Bool.false_eq_true, if_false] at hadded ⊢
    simp only [cacheGeneration_modifyNode, cacheGeneration_upsertNode, and_true]
    exact hadded

end Entries

section Unregistration

/-- The last failure recorded in the first entry of a node. -/
def lastErrorOn (nodes : List NodeStatus) (nodeName : String) : Option VolumeError :=
  (nodes.find? (·.name == nodeName)).bind (·.lastError)

/-- A generation under which a volume is registered, `none` if it is not registered. -/
def RegisteredUnder (vols : List VolumeStatus) (volName : String) : Option Int64 → Prop
  | none => ∀ v ∈ vols, v.name ≠ volName
  | some generation => ∃ v ∈ vols, v.name = volName ∧ v.cacheGeneration = generation

/-- What unregistering a volume is for: its entries disappear from the node, all others
stay in order, and a failure is recorded with the generation of the volume. -/
structure ExactlyUnregistered (nodeName volumeName : String) (commitErr : Option String)
    (before after : List NodeStatus) : Prop where
  /-- The volumes of that name are removed from the node, and nothing else. -/
  volumes : Updated nodeName (List.filter (·.name != volumeName)) before after
  /-- Without a failure the record is cleared. -/
  cleared : commitErr = none → lastErrorOn after nodeName = none
  /-- A failure is recorded. -/
  reported : ∀ text, commitErr = some text → ∃ e, lastErrorOn after nodeName = some e ∧
    e.volumeName = volumeName ∧ e.error = text ∧
    RegisteredUnder (volumesOn before nodeName) volumeName e.cacheGeneration

/-- The last volume of a node carries the generation of a volume that is removed from it
while another one stays, or there are no volumes. -/
def LastShowsGeneration (vols : List VolumeStatus) (volName : String) : Prop :=
  vols = [] ∨ (∃ w ∈ vols, w.name ≠ volName) ∧
    ∃ v ∈ vols, v.name = volName ∧ vols.getLast?.map (·.cacheGeneration) = some v.cacheGeneration

/-- The generation the loop variable shows is that of the volume only by coincidence. -/
theorem registeredUnder_removedGeneration (vols : List VolumeStatus) (volName : String) :
    RegisteredUnder vols volName (removedGeneration vols volName) ↔
      LastShowsGeneration vols volName := by
  unfold removedGeneration LastShowsGeneration
  by_cases hother : ∃ w ∈ vols, w.name ≠ volName
  · have hany : vols.any (·.name != volName) = true := by simpa using hother
    obtain ⟨w, hw, -⟩ := hother
    have hne : vols ≠ [] := List.ne_nil_of_mem hw
    obtain ⟨last, hlast⟩ : ∃ last, vols.getLast? = some last :=
      ⟨vols.getLast hne, List.getLast?_eq_some_getLast hne⟩
    rw [if_pos hany, hlast]
    simp only [Option.map_some, RegisteredUnder, hne, false_or, Option.some.injEq]
    constructor
    · rintro ⟨v, hv, hname, hgeneration⟩
      exact ⟨by simpa using hany, v, hv, hname, hgeneration.symm⟩
    · rintro ⟨-, v, hv, hname, hgeneration⟩
      exact ⟨v, hv, hname, hgeneration.symm⟩
  · have hany : vols.any (·.name != volName) = false := by simpa using hother
    have hnamed : ∀ v ∈ vols, v.name = volName := by simpa using hother
    rw [hany]
    simp only [Bool.false_eq_true, if_false, RegisteredUnder, hother, false_and, or_false]
    constructor
    · intro hmissing
      exact List.eq_nil_iff_forall_not_mem.mpr fun v hv => hmissing v hv (hnamed v hv)
    · rintro rfl v hv
      cases hv

/-- What `unregisterVolume` records on the node. -/
theorem lastErrorOn_unregisterVolume (nodeName volumeName : String) (commitErr : Option String)
    (now : Time) (c : Cache) :
    lastErrorOn (unregisterVolume nodeName volumeName commitErr now c).1.status.nodes nodeName =
      commitErr.map fun text => ⟨volumeName,
        removedGeneration (volumesOn c.status.nodes nodeName) volumeName, text, now⟩ := by
  unfold unregisterVolume removeVolume
  cases hu : upsertNode c.status nodeName now with
  | mk cs i =>
    have hspec := upserted_upsertNode c.status nodeName now
    rw [hu] at hspec
    dsimp only
    rw [modifyNode_modifyNode]
    cases hspec with
    | @found pre post n hnodes hfirst hname =>
      have hpre : pre.find? (·.name == nodeName) = none :=
        List.find?_eq_none.mpr fun m hm => by simpa using hfirst m hm
      simp [CacheStatus.modifyNode, modify_split, lastErrorOn, List.find?_append, hpre, hname,
        hnodes, volumesOn_split hfirst hname]
    | appended hmissing =>
      have hnone : c.status.nodes.find? (·.name == nodeName) = none :=
        List.find?_eq_none.mpr fun m hm => by simpa using hmissing m hm
      simp [CacheStatus.modifyNode, modify_split, lastErrorOn, List.find?_append, hnone,
        volumesOn_missing hmissing]

/-- Unregistering removes exactly the volumes of the name from the node. The recorded
failure carries the generation of the volume only if the last volume of the node
shows it. -/
theorem unregisterVolume_exact_iff (nodeName volumeName : String) (commitErr : Option String)
    (now : Time) (c : Cache) :
    ExactlyUnregistered nodeName volumeName commitErr c.status.nodes
        (unregisterVolume nodeName volumeName commitErr now c).1.status.nodes ↔
      commitErr = none ∨ LastShowsGeneration (volumesOn c.status.nodes nodeName) volumeName := by
  have hrecorded := lastErrorOn_unregisterVolume nodeName volumeName commitErr now c
  constructor
  · intro h
    cases commitErr with
    | none => exact .inl rfl
    | some text =>
      obtain ⟨e, he, -, -, hunder⟩ := h.reported text rfl
      rw [hrecorded, Option.map_some] at he
      cases he
      exact .inr ((registeredUnder_removedGeneration _ _).mp hunder)
  · intro h
    refine ⟨unregisterVolume_updated nodeName volumeName commitErr now c, ?_, ?_⟩
    · rintro rfl
      exact hrecorded
    · rintro text rfl
      have hshows := h.resolve_left (by simp)
      exact ⟨_, hrecorded, rfl, rfl, (registeredUnder_removedGeneration _ _).mpr hshows⟩

/-- A node with one volume of the current generation. -/
def lastVolumeCache : Cache :=
  ⟨⟨false⟩, ⟨"", 1, 1, [⟨"node", 0, [⟨"vol", 1, 0, true, none⟩], none⟩], .unset⟩⟩

/-- The failure of the only volume of a node is recorded without its generation. -/
theorem unregistered_without_generation :
    RegisteredUnder (volumesOn lastVolumeCache.status.nodes "node") "vol" (some 1) ∧
      (lastErrorOn (unregisterVolume "node" "vol" (some "commit failed") 5
        lastVolumeCache).1.status.nodes "node").map (·.cacheGeneration) = some none ∧
      ¬ ExactlyUnregistered "node" "vol" (some "commit failed") lastVolumeCache.status.nodes
        (unregisterVolume "node" "vol" (some "commit failed") 5 lastVolumeCache).1.status.nodes := by
  have hgeneration : (lastErrorOn (unregisterVolume "node" "vol" (some "commit failed") 5
      lastVolumeCache).1.status.nodes "node").map (·.cacheGeneration) = some none := by
    decide +kernel
  refine ⟨⟨_, List.mem_singleton.mpr rfl, rfl, rfl⟩, hgeneration, ?_⟩
  intro h
  obtain ⟨e, he, -, -, hunder⟩ := h.reported _ rfl
  rw [he] at hgeneration
  have hnone : e.cacheGeneration = none := by simpa using hgeneration
  rw [hnone] at hunder
  exact hunder _ (List.mem_singleton.mpr rfl) rfl

end Unregistration

section Structure

/-- What the structure of a status depends on in a volume. -/
def key (v : VolumeStatus) : String × Int64 × Bool := (v.name, v.cacheGeneration, v.committable)

/-- Committable volumes belong to different generations. -/
def Apart (k l : String × Int64 × Bool) : Prop := k.2.2 = true → l.2.2 = true → k.2.1 ≠ l.2.1

/-- The structure every status has. -/
structure Structured (cs : CacheStatus) : Prop where
  /-- Nodes are listed once. -/
  nodes : (cs.nodes.map (·.name)).Nodup
  /-- Volumes are listed once on their node. -/
  volumes : ∀ n ∈ cs.nodes, (n.volumes.map (·.name)).Nodup
  /-- No volume is newer than the cache. -/
  bounded : ∀ v ∈ cs.volumes, v.cacheGeneration ≤ cs.cacheGeneration
  /-- No two committable volumes share a generation. -/
  distinct : cs.volumes.Pairwise fun v w =>
    v.committable = true → w.committable = true → v.cacheGeneration ≠ w.cacheGeneration

theorem structured_empty : Structured .empty :=
  ⟨List.nodup_nil, by simp [CacheStatus.empty], by simp [CacheStatus.empty, CacheStatus.volumes],
    List.Pairwise.nil⟩

/-- The structure as a fact about the keys of the volumes. -/
theorem Structured.of_keys {cs : CacheStatus} (nodes : (cs.nodes.map (·.name)).Nodup)
    (volumes : ∀ n ∈ cs.nodes, ((n.volumes.map key).map (·.1)).Nodup)
    (bounded : ∀ k ∈ cs.volumes.map key, k.2.1 ≤ cs.cacheGeneration)
    (distinct : (cs.volumes.map key).Pairwise Apart) : Structured cs where
  nodes := nodes
  volumes n hn := by simpa [key, Function.comp_def] using volumes n hn
  bounded v hv := bounded (key v) (List.mem_map_of_mem hv)
  distinct := List.pairwise_map.mp distinct

theorem Structured.apart {cs : CacheStatus} (h : Structured cs) :
    (cs.volumes.map key).Pairwise Apart := List.pairwise_map.mpr h.distinct

theorem Structured.bounded_key {cs : CacheStatus} (h : Structured cs) :
    ∀ k ∈ cs.volumes.map key, k.2.1 ≤ cs.cacheGeneration := by
  intro k hk
  obtain ⟨v, hv, rfl⟩ := List.mem_map.mp hk
  exact h.bounded v hv

/-- Replacing an entry by one with the same name and fewer keys keeps the structure. -/
theorem Structured.rewritten {cs cs' : CacheStatus} {pre post : List NodeStatus} {n n' : NodeStatus}
    (h : Structured cs) (hnodes : cs.nodes = pre ++ n :: post)
    (hnodes' : cs'.nodes = pre ++ n' :: post) (hname : n'.name = n.name)
    (hkeys : (n'.volumes.map key).Sublist (n.volumes.map key))
    (hgeneration : cs'.cacheGeneration = cs.cacheGeneration) : Structured cs' := by
  have hsub : (cs'.volumes.map key).Sublist (cs.volumes.map key) := by
    simp only [CacheStatus.volumes, hnodes, hnodes', List.flatMap_append, List.flatMap_cons,
      List.map_append]
    exact (List.Sublist.refl _).append (hkeys.append (List.Sublist.refl _))
  have hnames : cs'.nodes.map (·.name) = cs.nodes.map (·.name) := by
    simp [hnodes, hnodes', hname]
  refine .of_keys (hnames ▸ h.nodes) ?_ ?_ (h.apart.sublist hsub)
  · intro m hm
    have hold : ∀ m ∈ pre ++ n :: post, ((m.volumes.map key).map (·.1)).Nodup := by
      intro m hm
      simpa [key, Function.comp_def] using h.volumes m (hnodes ▸ hm)
    rw [hnodes', List.mem_append, List.mem_cons] at hm
    rcases hm with hm | rfl | hm
    · exact hold m (List.mem_append_left _ hm)
    · exact (hold n (by simp)).sublist (hkeys.map _)
    · exact hold m (by simp [hm])
  · intro k hk
    rw [hgeneration]
    exact h.bounded_key k (hsub.subset hk)

/-- Appending an entry without volumes keeps the structure. -/
theorem Structured.appended {cs cs' : CacheStatus} {n : NodeStatus} (h : Structured cs)
    (hmissing : ∀ m ∈ cs.nodes, m.name ≠ n.name) (hnodes' : cs'.nodes = cs.nodes ++ [n])
    (hvolumes : n.volumes = []) (hgeneration : cs'.cacheGeneration = cs.cacheGeneration) :
    Structured cs' := by
  have hall : cs'.volumes = cs.volumes := by simp [CacheStatus.volumes, hnodes', hvolumes]
  refine ⟨?_, ?_, by rw [hall, hgeneration]; exact h.bounded, hall ▸ h.distinct⟩
  · rw [hnodes', List.map_append, List.nodup_append]
    refine ⟨h.nodes, by simp, ?_⟩
    intro a ha b hb
    obtain ⟨m, hm, rfl⟩ := List.mem_map.mp ha
    simp only [List.map_cons, List.map_nil, List.mem_singleton] at hb
    exact hb ▸ hmissing m hm
  · intro m hm
    rw [hnodes', List.mem_append, List.mem_singleton] at hm
    rcases hm with hm | rfl
    · exact h.volumes m hm
    · simp [hvolumes]

/-- An update that only removes keys keeps the structure. -/
theorem Structured.updated {cs cs' : CacheStatus} {nodeName : String}
    {f : List VolumeStatus → List VolumeStatus} (h : Structured cs)
    (hu : Updated nodeName f cs.nodes cs'.nodes)
    (hf : ∀ vols, ((f vols).map key).Sublist (vols.map key))
    (hgeneration : cs'.cacheGeneration = cs.cacheGeneration) : Structured cs' := by
  generalize hnodes : cs.nodes = nodes at hu
  generalize hnodes' : cs'.nodes = nodes' at hu
  cases hu with
  | @existing pre post n n' hfirst hname hname' hvolumes =>
    have hkeys : (n'.volumes.map key).Sublist (n.volumes.map key) := hvolumes ▸ hf n.volumes
    exact h.rewritten hnodes hnodes' (hname'.trans hname.symm) hkeys hgeneration
  | @appended nodes n hmissing hname hvolumes =>
    have hnil : n.volumes = [] := by
      have hsub := hf []
      rw [← hvolumes] at hsub
      simpa using hsub
    subst hnodes
    exact h.appended (fun m hm => hname ▸ hmissing m hm) hnodes' hnil hgeneration

/-- An added volume keeps the structure: its name is new on the node, and if it is
committable its generation is new in the cache. -/
theorem Structured.added {cs cs' : CacheStatus} {pre post : List NodeStatus} {n n' : NodeStatus}
    {v : VolumeStatus} (h : Structured cs) (hnodes : cs.nodes = pre ++ n :: post)
    (hnodes' : cs'.nodes = pre ++ n' :: post) (hname : n'.name = n.name)
    (hvolumes : n'.volumes = n.volumes ++ [v]) (hnew : ∀ w ∈ n.volumes, w.name ≠ v.name)
    (hgeneration : cs'.cacheGeneration = v.cacheGeneration)
    (hle : cs.cacheGeneration ≤ v.cacheGeneration)
    (hlt : v.committable = true → cs.cacheGeneration < v.cacheGeneration) : Structured cs' := by
  have hperm : cs'.volumes.Perm (v :: cs.volumes) := by
    simp only [CacheStatus.volumes, hnodes, hnodes', List.flatMap_append, List.flatMap_cons,
      hvolumes, List.append_assoc, List.singleton_append]
    rw [← List.append_assoc, ← List.append_assoc]
    exact List.perm_middle
  have hnames : cs'.nodes.map (·.name) = cs.nodes.map (·.name) := by
    simp [hnodes, hnodes', hname]
  refine ⟨hnames ▸ h.nodes, ?_, ?_, ?_⟩
  · intro m hm
    rw [hnodes', List.mem_append, List.mem_cons] at hm
    rcases hm with hm | rfl | hm
    · exact h.volumes m (by simp [hnodes, hm])
    · rw [hvolumes, List.map_append, List.nodup_append]
      refine ⟨h.volumes n (by simp [hnodes]), by simp, ?_⟩
      intro a ha b hb
      obtain ⟨w, hw, rfl⟩ := List.mem_map.mp ha
      simp only [List.map_cons, List.map_nil, List.mem_singleton] at hb
      exact hb ▸ hnew w hw
    · exact h.volumes m (by simp [hnodes, hm])
  · intro w hw
    rw [hgeneration]
    rcases List.mem_cons.mp (hperm.mem_iff.mp hw) with rfl | hw
    · exact Int64.le_refl _
    · exact Int64.le_trans (h.bounded w hw) hle
  · have hsymm : ∀ {v w : VolumeStatus}, (v.committable = true → w.committable = true →
        v.cacheGeneration ≠ w.cacheGeneration) → w.committable = true → v.committable = true →
        w.cacheGeneration ≠ v.cacheGeneration := fun hvw hw hv heq => hvw hv hw heq.symm
    rw [hperm.pairwise_iff hsymm, List.pairwise_cons]
    refine ⟨?_, h.distinct⟩
    intro w hw hv _ heq
    have hbound := h.bounded w hw
    rw [← heq] at hbound
    exact absurd (hlt hv) (Int64.not_lt.mpr hbound)

theorem map_modify_of_eq {α β : Type} {g : α → β} {f : α → α} (h : ∀ a, g (f a) = g a)
    (l : List α) (i : ℕ) : (l.modify i f).map g = l.map g := by
  induction l generalizing i with
  | nil => simp
  | cons a l ih =>
    cases i with
    | zero => simp [h]
    | succ i => simp [ih]

/-- Rewriting an entry without changing its name and adding keys keeps the structure. -/
theorem Structured.modifyNode {cs : CacheStatus} (h : Structured cs) (i : ℕ)
    {f : NodeStatus → NodeStatus} (hname : ∀ n, (f n).name = n.name)
    (hkeys : ∀ n, ((f n).volumes.map key).Sublist (n.volumes.map key)) :
    Structured (cs.modifyNode i f) := by
  rcases Nat.lt_or_ge i cs.nodes.length with hi | hi
  · have hsplit : cs.nodes = cs.nodes.take i ++ cs.nodes[i] :: cs.nodes.drop (i + 1) := by simp
    have hlength : (cs.nodes.take i).length = i := by simp [Nat.le_of_lt hi]
    have hmodified : (cs.modifyNode i f).nodes =
        cs.nodes.take i ++ f cs.nodes[i] :: cs.nodes.drop (i + 1) := by
      have hmodify := modify_split (cs.nodes.take i) cs.nodes[i] (cs.nodes.drop (i + 1)) f
      rw [hlength, ← hsplit] at hmodify
      exact hmodify
    exact h.rewritten hsplit hmodified (hname _) (hkeys _) rfl
  · have hsame : cs.modifyNode i f = cs := by
      rw [CacheStatus.modifyNode, List.modify_eq_self hi]
    rw [hsame]
    exact h

theorem Structured.removeVolume {cs : CacheStatus} (h : Structured cs) (nodeName volName : String)
    (now : Time) : Structured (removeVolume cs nodeName volName now).1 :=
  h.updated (removeVolume_updated cs nodeName volName now) (fun _ => List.filter_sublist.map _)
    (cacheGeneration_removeVolume cs nodeName volName now)

theorem Structured.unregisterVolume {c : Cache} (h : Structured c.status)
    (nodeName volumeName : String) (commitErr : Option String) (now : Time) :
    Structured (unregisterVolume nodeName volumeName commitErr now c).1.status :=
  h.updated (unregisterVolume_updated nodeName volumeName commitErr now c)
    (fun _ => List.filter_sublist.map _) (cacheGeneration_upsertNode c.status nodeName now)

/-- Changing a commit start time keeps the structure. -/
theorem Structured.setCommitStartTime {cs : CacheStatus} (h : Structured cs) (i j : ℕ)
    (time : Option Time) {f : NodeStatus → NodeStatus} (hname : ∀ n, (f n).name = n.name)
    (hf : ∀ n, (f n).volumes = n.volumes.modify j fun v => { v with commitStartTime := time }) :
    Structured (cs.modifyNode i f) := by
  refine h.modifyNode i hname fun n => ?_
  have hkeys := map_modify_of_eq (g := key) (f := fun v => { v with commitStartTime := time })
    (fun _ => rfl) n.volumes j
  rw [hf, hkeys]

theorem Structured.expireCommit {c : Cache} (h : Structured c.status) (i : ℕ) (n : NodeStatus)
    (j : ℕ) (v : VolumeStatus) (now : Time) : Structured (expireCommit c i n j v now).status := by
  apply Structured.removeVolume
  apply h.setCommitStartTime i j none
  · intro node
    rfl
  · intro node
    rfl

/-- Deciding a commit keeps the structure. -/
theorem Structured.decideCommit {c : Cache} (h : Structured c.status)
    (nodeName volumeName : String) (now : Time) :
    Structured (decideCommit nodeName volumeName now c).1.status := by
  have houtcome := decided nodeName volumeName now c
  generalize CacheModel.decideCommit nodeName volumeName now c = outcome at houtcome ⊢
  cases houtcome with
  | refused => exact h
  | inProgress =>
    rw [commitInProgress]
    rcases scanNodes_cases c now 0 c.status.nodes with hsame | ⟨k, n, j, v, -, -, -, hexpired⟩
    · rw [hsame]
      exact h
    · rw [hexpired]
      exact h.expireCommit (0 + k) n j v now
  | @granted i j => exact h.setCommitStartTime i j (some now) (fun _ => rfl) fun _ => rfl

/-- The counter does not overflow below its bound. -/
theorem toInt_succ {g : Int64} (h : g.toInt + 1 < 2 ^ 63) : (g + 1).toInt = g.toInt + 1 := by
  have hlow := g.le_toInt
  have hone : Int64.toInt 1 = 1 := rfl
  rw [Int64.toInt_add, hone]
  apply Int.bmod_eq_of_le <;> omega

/-- The generation of an added volume exceeds the one of the cache by one or,
if the volume is not committable, not at all. -/
theorem addedVolume_generation {c : Cache} (h : c.status.cacheGeneration.toInt + 1 < 2 ^ 63)
    (volName : String) (commit : Bool) (now : Time) :
    (addedVolume c volName commit now).cacheGeneration.toInt = c.status.cacheGeneration.toInt +
      if (addedVolume c volName commit now).committable then 1 else 0 := by
  unfold addedVolume
  dsimp only
  split
  · exact toInt_succ h
  · simp

/-- Registering a volume keeps the structure and does not lower the generation,
which grows by at most one. -/
theorem Structured.addVolume {c : Cache} (h : Structured c.status)
    (hroom : c.status.cacheGeneration.toInt + 1 < 2 ^ 63) (nodeName volName : String)
    (commit : Bool) (now : Time) :
    Structured (addVolume c nodeName volName commit now).1.status ∧
      c.status.cacheGeneration ≤
        (addVolume c nodeName volName commit now).1.status.cacheGeneration ∧
      (addVolume c nodeName volName commit now).1.status.cacheGeneration.toInt ≤
        c.status.cacheGeneration.toInt + 1 := by
  by_cases hregistered : Registered c.status.nodes nodeName volName
  · rw [addVolume_of_registered hregistered]
    have hsame := cacheGeneration_upsertNode c.status nodeName now
    refine ⟨h.updated (updated_upsertNode _ _ _) (fun _ => List.Sublist.refl _) hsame, ?_, ?_⟩
    · rw [hsame]
      exact Int64.le_refl _
    · rw [hsame]
      omega
  · obtain ⟨hu, hgeneration, -⟩ := addVolume_of_not_registered hregistered commit now
    have hadded := addedVolume_generation hroom volName commit now
    generalize hv : addedVolume c volName commit now = v at hu hgeneration hadded
    have hvname : v.name = volName := hv ▸ rfl
    have hle : c.status.cacheGeneration ≤ v.cacheGeneration := by
      rw [Int64.le_iff_toInt_le, hadded]
      split <;> omega
    have hlt : v.committable = true → c.status.cacheGeneration < v.cacheGeneration := by
      intro hcommittable
      rw [Int64.lt_iff_toInt_lt, hadded, if_pos hcommittable]
      omega
    refine ⟨?_, hgeneration ▸ hle, ?_⟩
    · generalize hnodes : c.status.nodes = nodes at hu hregistered
      generalize hnodes' : (CacheModel.addVolume c nodeName volName commit now).1.status.nodes =
        nodes' at hu
      cases hu with
      | @existing pre post n n' hfirst hname hname' hvolumes =>
        refine h.added hnodes hnodes' (hname'.trans hname.symm) hvolumes ?_ hgeneration hle hlt
        intro w hw heq
        refine hregistered ⟨w, ?_, heq.trans hvname⟩
        rw [volumesOn_split hfirst hname]
        exact hw
      | @appended nodes n hmissing hname hvolumes =>
        -- the entry is appended without volumes first
        have hentry : Structured { c.status with nodes := nodes ++ [{ n with volumes := [] }] } :=
          h.appended (n := { n with volumes := [] })
            (fun m hm => hname ▸ hmissing m (hnodes ▸ hm)) (by rw [hnodes]) rfl rfl
        exact hentry.added rfl hnodes' rfl hvolumes (by simp) hgeneration hle hlt
    · rw [hgeneration, hadded]
      split <;> omega

/-- The closure of `RegisterCacheVolume` keeps the structure and does not lower the
generation, which grows by at most one. -/
theorem Structured.registerVolume {c : Cache} (h : Structured c.status)
    (hroom : c.status.cacheGeneration.toInt + 1 < 2 ^ 63)
    (nodeName volumeName defaultImage : String) (commit : Bool) (now : Time) :
    Structured (registerVolume nodeName volumeName defaultImage commit now c).1.status ∧
      c.status.cacheGeneration ≤
        (registerVolume nodeName volumeName defaultImage commit now c).1.status.cacheGeneration ∧
      (registerVolume nodeName volumeName defaultImage commit now c).1.status.cacheGeneration.toInt ≤
        c.status.cacheGeneration.toInt + 1 := by
  unfold CacheModel.registerVolume
  generalize (if c.status.image = "" then defaultImage else c.status.image) = image
  have hused : Structured { c.status with image := image, used := c.status.used + 1 } :=
    ⟨h.nodes, h.volumes, h.bounded, h.distinct⟩
  exact Structured.addVolume (c := { c with status := { c.status with image := image, used := _ } })
    hused hroom nodeName volumeName commit now

end Structure

section Runs

/-- The change is a stored registration. -/
def isRegistration : Change Call CacheSpec → Bool
  | .applied _ (.register _ _ _ _) _ => true
  | _ => false

/-- The number of stored registrations. -/
def registrations (history : List (Change Call CacheSpec)) : ℕ := history.countP isRegistration

/-- The status has its structure, and its generation does not exceed the number of
registrations. -/
def WithinCount (count : ℕ) (cs : CacheStatus) : Prop :=
  Structured cs ∧ cs.cacheGeneration.toInt ≤ count

/-- A closure keeps the structure and never lowers the generation. -/
theorem withinCount_modify {count : ℕ} {c : Cache} (h : WithinCount count c.status) (call : Call)
    (client : ℕ) (now : Time)
    (hroom : count + registrations [.applied client call now] < 2 ^ 63) :
    WithinCount (count + registrations [.applied client call now]) (call.modify now c).1.status ∧
      c.status.cacheGeneration ≤ (call.modify now c).1.status.cacheGeneration := by
  have hcount := h.2
  cases call with
  | register nodeName volumeName defaultImage commit =>
    have hone : registrations
        [.applied client (.register nodeName volumeName defaultImage commit) now] = 1 := rfl
    rw [hone] at hroom ⊢
    have hbound : c.status.cacheGeneration.toInt + 1 < 2 ^ 63 := by omega
    obtain ⟨hstructured, hle, hlast⟩ :=
      h.1.registerVolume hbound nodeName volumeName defaultImage commit now
    refine ⟨⟨hstructured, ?_⟩, hle⟩
    simp only [Call.modify]
    omega
  | prepareCommit nodeName volumeName =>
    have hsame := cacheGeneration_decideCommit nodeName volumeName now c
    refine ⟨⟨h.1.decideCommit nodeName volumeName now, ?_⟩, ?_⟩
    · simp only [Call.modify, hsame]
      exact hcount
    · simp only [Call.modify, hsame]
      exact Int64.le_refl _
  | unregister nodeName volumeName commitErr =>
    have hsame := cacheGeneration_upsertNode c.status nodeName now
    refine ⟨⟨h.1.unregisterVolume nodeName volumeName commitErr now, ?_⟩, ?_⟩
    · exact le_of_eq_of_le (congrArg Int64.toInt hsame) hcount
    · exact Int64.le_of_eq hsame.symm

/-- A recorded change keeps the structure and never lowers the generation. -/
theorem withinCount_apply {count : ℕ} {object : Option Cache} (change : Change Call CacheSpec)
    (h : ∀ c ∈ object, WithinCount count c.status)
    (hroom : count + registrations [change] < 2 ^ 63) :
    ∀ c' ∈ change.apply cacheSpec object,
      WithinCount (count + registrations [change]) c'.status ∧
        ∀ c ∈ object, c.status.cacheGeneration ≤ c'.status.cacheGeneration := by
  intro c' hc'
  have hempty : WithinCount count CacheStatus.empty :=
    ⟨structured_empty, Int.natCast_nonneg count⟩
  cases object with
  | none =>
    have hnone : ∀ c ∈ (none : Option Cache), c.status.cacheGeneration ≤ c'.status.cacheGeneration := by
      intro c hc
      cases hc
    cases change with
    | created edit =>
      cases hc'
      cases edit <;> exact ⟨hempty, hnone⟩
    | edited edit => cases hc'
    | applied i call t => cases hc'
  | some before =>
    have hbefore := h before rfl
    cases change with
    | created edit =>
      cases hc'
      refine ⟨hbefore, ?_⟩
      rintro c ⟨⟩
      exact Int64.le_refl _
    | edited edit =>
      cases hc'
      refine ⟨hbefore, ?_⟩
      rintro c ⟨⟩
      exact Int64.le_refl _
    | applied i call t =>
      cases hc'
      obtain ⟨hwithin, hle⟩ := withinCount_modify hbefore call i t hroom
      refine ⟨hwithin, ?_⟩
      rintro c ⟨⟩
      exact hle

/-- Replaying changes keeps the structure and never lowers the generation. -/
theorem withinCount_replay {count : ℕ} {object : Option Cache}
    (history : List (Change Call CacheSpec)) (h : ∀ c ∈ object, WithinCount count c.status)
    (hroom : count + registrations history < 2 ^ 63) :
    ∀ c' ∈ replay cacheSpec object history,
      WithinCount (count + registrations history) c'.status ∧
        ∀ c ∈ object, c.status.cacheGeneration ≤ c'.status.cacheGeneration := by
  induction history generalizing object count with
  | nil =>
    intro c' hc'
    refine ⟨h c' hc', ?_⟩
    intro c hc
    have heq : c = c' := Option.mem_unique hc hc'
    exact heq ▸ Int64.le_refl _
  | cons change history ih =>
    intro c' hc'
    have hsplit : registrations (change :: history) =
        registrations [change] + registrations history := by
      simp only [registrations, ← List.countP_append, List.singleton_append]
    have hfirst := withinCount_apply change h (by omega)
    have hwithin : ∀ c ∈ change.apply cacheSpec object,
        WithinCount (count + registrations [change]) c.status := fun c hc => (hfirst c hc).1
    have hrest := ih hwithin (by omega) c' hc'
    refine ⟨?_, ?_⟩
    · have htotal : count + registrations (change :: history) =
          count + registrations [change] + registrations history := by omega
      rw [htotal]
      exact hrest.1
    · intro c hc
      cases object with
      | none => cases hc
      | some before =>
        obtain ⟨mid, hmid⟩ : ∃ mid, change.apply cacheSpec (some before) = some mid := by
          cases change <;> exact ⟨_, rfl⟩
        exact Int64.le_trans ((hfirst mid hmid).2 c hc) (hrest.2 mid hmid)

/-- In every state that calls reach from an empty status with fewer than `2 ^ 63`
registrations, nodes are listed once, volumes are listed once on their node, no
volume is newer than the cache and committable volumes have different generations.
The generation of the cache never decreases along a run. -/
theorem cacheStatus_structured {init : Option Cache} {start : Time} {st : CallState}
    (hinit : ∀ c ∈ init, c.status = .empty) (h : Reached init start st)
    (hcount : registrations st.shared.history < 2 ^ 63) :
    (∀ c ∈ storedCache st, Structured c.status) ∧
      ∀ es st', calls.run st es = some st' → registrations st'.shared.history < 2 ^ 63 →
        ∀ c ∈ storedCache st, ∀ c' ∈ storedCache st',
          c.status.cacheGeneration ≤ c'.status.cacheGeneration := by
  have hs := reachable_safe h
  have hstart : ∀ c ∈ init, WithinCount 0 c.status := by
    intro c hc
    rw [hinit c hc]
    exact ⟨structured_empty, Int.le_refl 0⟩
  have hnow : ∀ c ∈ storedCache st, WithinCount (registrations st.shared.history) c.status := by
    intro c hc
    rw [storedCache, hs.1.replayed] at hc
    have hwithin := withinCount_replay st.shared.history hstart (by omega) c hc
    rw [Nat.zero_add] at hwithin
    exact hwithin.1
  refine ⟨fun c hc => (hnow c hc).1, ?_⟩
  intro es st' hrun hcount' c hc c' hc'
  have hs' := (discipline _ _ _ _).run_safe (discipline_respected _ _ _ _)
    (discipline_admits _ _ _ _) hs hrun
  obtain ⟨suf, hsuf⟩ := run_history hs hrun
  rw [storedCache, hs'.1.replayed, ← hsuf, replay_append, ← hs.1.replayed] at hc'
  rw [← hsuf, registrations, List.countP_append] at hcount'
  exact (withinCount_replay suf hnow hcount' c' hc').2 c hc

theorem cacheStatus_structured_racing :
    ∃ st, Reached none 0 st ∧ registrations st.shared.history = 2 ∧
      ∀ c ∈ storedCache st, Structured c.status := by
  obtain ⟨st, h, -, -, -, -, hhistory⟩ := racing_registrations
  have hregistrations : registrations st.shared.history = 2 := by
    rw [hhistory]
    rfl
  have hcount : registrations st.shared.history < 2 ^ 63 := by
    rw [hregistrations]
    decide
  exact ⟨st, h, hregistrations, (cacheStatus_structured (fun c hc => by cases hc) h hcount).1⟩

end Runs

end K8StorageX.CacheStructure
