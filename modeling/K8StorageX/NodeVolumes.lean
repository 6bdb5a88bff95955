import K8StorageX.ContainerLibraries
import K8StorageX.SynchronizedStore
import K8StorageX.WorkerPool

/-!
# Volumes of one node

Any number of processes mount and unmount volumes on a node at the same time. Each of
their operations on files, mounts, containers and images may fail. What belongs to one
volume is a part of the node; this file says which operations leave it alone, and which
operations depend on nothing else.
-/

namespace K8StorageX.NodeVolumes

open ApiProgram WorkerPool NodeAgent LayerfsStore ContainerLibraries
open SynchronizedStore (Result)

variable {κ : Type}

/-- A call of the store by a process of the node. -/
inductive Command where
  /-- `store.Mount` -/
  | mount (opts : MountOptions)
  /-- `store.Unmount` -/
  | unmount (opts : MountOptions)
  deriving DecidableEq

/-- The options of a call. -/
def Command.opts : Command → MountOptions
  | .mount opts => opts
  | .unmount opts => opts

/-- The program of a call. -/
def Command.program : Command → Agent Result
  | .mount opts => do
    let result ← LayerfsStore.mount opts
    return .mounted result.1 result.2
  | .unmount opts => do
    let result ← LayerfsStore.unmount opts
    return .unmounted result.1 result.2.1 result.2.2

/-- Somebody writes files into a mounted container. -/
structure Write (κ : Type) where
  /-- Identifier of the container. -/
  containerID : String
  /-- Its new contents. -/
  contents : κ

/-- An operation is performed, or fails without an effect. -/
def serve (lib : Libraries κ) (fault : Option String) (r : Req) (s : Node κ) : Resp r × Node κ :=
  match r, fault with
  | .layerfs op, some text => (failedOutcome text op, s)
  | r, _ => lib.serve r s

/-- Any number of processes on one node; all of them may be killed. -/
def node (lib : Libraries κ) :
    System ℕ Command Req Resp (Node κ) (Option String) (Write κ) Result where
  serve _ := serve lib
  env e s := some (s.modify e.containerID fun k => { k with contents := e.contents })
  onStart _ _ s := some s
  program _ command := command.program
  onFinish _ _ s := some s
  onCrash s := some s

/-- States of the processes. -/
abbrev NodeState (κ : Type) : Type := State ℕ Req Resp (Node κ) Result

/-- Steps of the processes. -/
abbrev NodeEvent (κ : Type) : Type := Event ℕ Command (Option String) (Write κ)

/-- A volume of a cache that is kept on the node. -/
structure Volume where
  /-- Name of the container. -/
  name : String
  /-- Identifier of the container. -/
  id : String
  /-- The external directory. -/
  dir : String
  /-- The reference under which the image of the cache is stored on the node. -/
  ref : String

/-- References to the images of a cache: its name, alone or with a digest. -/
def RefersTo (ref other : String) : Prop := other = ref ∨ ∃ digest, other = ref ++ "@" ++ digest

/-- The containers with a name. -/
def named (name : String) (s : Node κ) : List (WorkingContainer κ) :=
  s.containers.filter (·.name == name)

/-- The container of the volume exists. -/
def Present (v : Volume) (s : Node κ) : Prop := named v.name s ≠ []

/-- Containers have identifiers of their own; only the container of the volume has its
name, its identifier and its directory. -/
structure Tidy (v : Volume) (s : Node κ) : Prop where
  /-- Identifiers are unique. -/
  unique : ∀ i ∈ s.containers, ∀ j ∈ s.containers, i.id = j.id → i = j
  /-- The container of the volume has the identifier of the volume. -/
  own : ∀ j ∈ s.containers, j.name = v.name → j.id = v.id
  /-- The container of the volume and no other has recorded the directory. -/
  recorded : ∀ j ∈ s.containers, ∀ dir, j.mountDir = some dir → (dir = v.dir ↔ j.name = v.name)

/-- What belongs to the volume is the same in two states: its container with its files, its
directory and bind mount and the images of its cache. -/
structure Same (v : Volume) (s t : Node κ) : Prop where
  /-- The container. -/
  containers : named v.name t = named v.name s
  /-- The directory. -/
  dirs : v.dir ∈ t.dirs ↔ v.dir ∈ s.dirs
  /-- The bind mount. -/
  binds : v.dir ∈ t.binds ↔ v.dir ∈ s.binds
  /-- The images. -/
  images : ∀ ref, RefersTo v.ref ref → t.images ref = s.images ref
  /-- The contexts of the calls. -/
  cancelled : t.cancelled = s.cancelled

/-- A handle of another container: it has another identifier, as long as the volume is
there, and has not recorded its directory. -/
structure Other (v : Volume) (builder : Builder) (s : Node κ) : Prop where
  /-- It has another identifier. -/
  container : Present v s → builder.containerID ≠ v.id
  /-- It has recorded another directory. -/
  dir : builder.mountDir ≠ some v.dir

/-- A handle of the container of the volume. -/
structure Held (v : Volume) (builder : Builder) (s : Node κ) : Prop where
  /-- It has the identifier. -/
  container : builder.containerID = v.id
  /-- It has recorded no other directory. -/
  dir : ∀ dir, builder.mountDir = some dir → dir = v.dir
  /-- The container exists. -/
  present : Present v s

/-- Operations that spare a volume. -/
def Spared (v : Volume) (s : Node κ) : LayerfsOp → Prop
  | .mkdir dir => dir ≠ v.dir
  | .remove dir => dir ≠ v.dir
  | .mount _ dir => dir ≠ v.dir
  | .unmount dir => dir ≠ v.dir
  | .newBuilder name fromImage pullPolicy =>
    name ≠ "" ∧ name ≠ v.name ∧ (pullPolicy = .always → ¬ RefersTo v.ref fromImage)
  | .builderMount id => Present v s → id ≠ v.id
  | .builderSave id dir => (Present v s → id ≠ v.id) ∧ dir ≠ v.dir
  | .builderUnmount id => Present v s → id ≠ v.id
  | .builderDelete id => Present v s → id ≠ v.id
  | .builderCommit _ imgRef => ∀ ref, RefersTo imgRef.dockerReference ref → ¬ RefersTo v.ref ref
  | _ => True

/-- Operations that delete a container. -/
def deletes : LayerfsOp → Bool
  | .builderDelete _ => true
  | _ => false

/-- Operations on the volume that depend on nothing else. -/
def Owned (v : Volume) (s : Node κ) : LayerfsOp → Prop
  | .unmount dir => dir = v.dir
  | .remove dir => dir = v.dir
  | .openBuilder name => name = v.name
  | .builderUnmount id => id = v.id ∧ Present v s
  | .builderDelete id => id = v.id ∧ Present v s
  | .container id => id = v.id ∧ Present v s
  | .changes layerID => layerID = v.id ∧ Present v s
  | .builderCommit id _ => id = v.id ∧ Present v s
  | .copyImage srcRef _ => RefersTo v.ref srcRef.dockerReference
  | .parseStoreReference _ => True
  | .parseImageName _ => True
  | .newStoreReference _ _ => True
  | .contextErr => True
  | _ => False

section Views

variable {v : Volume} {s t u : Node κ}

theorem Same.refl (v : Volume) (s : Node κ) : Same v s s :=
  ⟨rfl, Iff.rfl, Iff.rfl, fun _ _ => rfl, rfl⟩

theorem Same.trans (h : Same v s t) (h' : Same v t u) : Same v s u :=
  ⟨h'.containers.trans h.containers, h'.dirs.trans h.dirs, h'.binds.trans h.binds,
    fun ref href => (h'.images ref href).trans (h.images ref href),
    h'.cancelled.trans h.cancelled⟩

theorem Same.present (h : Same v s t) : Present v t ↔ Present v s := by
  rw [Present, Present, h.containers]

theorem mem_named {name : String} {k : WorkingContainer κ} :
    k ∈ named name s ↔ k ∈ s.containers ∧ k.name = name := by
  simp [named]

theorem present_of_mem {k : WorkingContainer κ} (hk : k ∈ s.containers) (hname : k.name = v.name) :
    Present v s :=
  List.ne_nil_of_mem (mem_named.mpr ⟨hk, hname⟩)

/-- Opening by the name finds the first container with the name. -/
theorem find_name (s : Node κ) (name : String) :
    s.containers.find? (·.name == name) = (named name s).head? :=
  List.head?_filter.symm

theorem named_modify {id : String} {f : WorkingContainer κ → WorkingContainer κ}
    (hfname : ∀ j, (f j).name = j.name) (name : String) :
    named name (s.modify id f) = (named name s).map fun k => if k.id = id then f k else k := by
  have hnames : (fun k : WorkingContainer κ => k.name == name) ∘
      (fun k => if k.id = id then f k else k) = fun k => k.name == name := by
    funext k
    simp only [Function.comp_apply]
    split
    · rw [hfname]
    · rfl
  unfold named Node.modify
  rw [List.filter_map, hnames]

theorem named_delete (s : Node κ) (id name : String) :
    named name { s with containers := s.containers.filter (·.id ≠ id) } =
      (named name s).filter (·.id ≠ id) := by
  unfold named
  rw [List.filter_filter, List.filter_filter]
  exact List.filter_congr fun k _ => Bool.and_comm _ _

/-- A container with another name is another one. -/
theorem Tidy.other (h : Tidy v s) {j : WorkingContainer κ} (hj : j ∈ s.containers)
    (hname : j.name ≠ v.name) : Other v j.builder s where
  container hpresent hid := by
    obtain ⟨k, hk⟩ := List.exists_mem_of_ne_nil _ hpresent
    obtain ⟨hmem, hkname⟩ := mem_named.mp hk
    have hsame : j = k := h.unique j hj k hmem (hid.trans (h.own k hmem hkname).symm)
    exact hname (hsame ▸ hkname)
  dir hdir := hname ((h.recorded j hj v.dir hdir).mp rfl)

/-- The container with the name of the volume is the one of the volume. -/
theorem Tidy.held (h : Tidy v s) {j : WorkingContainer κ} (hj : j ∈ s.containers)
    (hname : j.name = v.name) : Held v j.builder s where
  container := h.own j hj hname
  dir dir hdir := (h.recorded j hj dir hdir).mpr hname
  present := present_of_mem hj hname

/-- The container of the volume is found by its identifier. -/
theorem Tidy.withContainer_own {α : Type} (h : Tidy v s) {k : WorkingContainer κ}
    {rest : List (WorkingContainer κ)} (hk : named v.name s = k :: rest)
    (f : WorkingContainer κ → Except String α × Node κ) : s.withContainer v.id f = f k := by
  obtain ⟨hmem, hname⟩ := mem_named.mp (hk ▸ List.mem_cons_self : k ∈ named v.name s)
  have hid : k.id = v.id := h.own k hmem hname
  have hfind : s.containers.find? (·.id == v.id) = some k := by
    cases hfound : s.containers.find? (·.id == v.id) with
    | none =>
      have hnone := List.find?_eq_none.mp hfound k hmem
      exact absurd (beq_iff_eq.mpr hid) hnone
    | some j =>
      have hjid : j.id = v.id := by simpa using List.find?_some hfound
      rw [h.unique j (List.mem_of_find?_eq_some hfound) k hmem (hjid.trans hid.symm)]
  unfold Node.withContainer
  rw [hfind]

/-- Operations on the present container of the volume reach it. -/
theorem Tidy.exists_own (h : Tidy v s) (hpresent : Present v s) :
    ∃ k rest, named v.name s = k :: rest ∧
      ∀ {α : Type} (f : WorkingContainer κ → Except String α × Node κ),
        s.withContainer v.id f = f k := by
  obtain ⟨k, rest, hk⟩ := List.exists_cons_of_ne_nil hpresent
  exact ⟨k, rest, hk, h.withContainer_own hk⟩

end Views

section Changes

variable {lib : Libraries κ} {v : Volume} {s t : Node κ}

/-- Containers are rewritten, but not their names. -/
theorem Tidy.modify (h : Tidy v s) {id : String} {f : WorkingContainer κ → WorkingContainer κ}
    (hfid : ∀ j, (f j).id = j.id) (hfname : ∀ j, (f j).name = j.name)
    (hdir : ∀ j ∈ s.containers, j.id = id → ∀ dir, (f j).mountDir = some dir →
      (dir = v.dir ↔ j.name = v.name)) : Tidy v (s.modify id f) := by
  have hmodified : ∀ j' ∈ (s.modify id f).containers, ∃ j ∈ s.containers,
      j'.id = j.id ∧ j'.name = j.name ∧ j' = (if j.id = id then f j else j) ∧
        ∀ dir, j'.mountDir = some dir → (dir = v.dir ↔ j.name = v.name) := by
    intro j' hj'
    obtain ⟨j, hj, rfl⟩ := List.mem_map.mp hj'
    by_cases hid : j.id = id
    · rw [if_pos hid]
      exact ⟨j, hj, hfid j, hfname j, (if_pos hid).symm, hdir j hj hid⟩
    · rw [if_neg hid]
      exact ⟨j, hj, rfl, rfl, (if_neg hid).symm, h.recorded j hj⟩
  refine ⟨?_, ?_, ?_⟩
  · intro i' hi' j' hj' hsame
    obtain ⟨i, hi, hiid, -, hieq, -⟩ := hmodified i' hi'
    obtain ⟨j, hj, hjid, -, hjeq, -⟩ := hmodified j' hj'
    rw [hieq, hjeq, h.unique i hi j hj (hiid.symm.trans (hsame.trans hjid))]
  · intro j' hj' hname
    obtain ⟨j, hj, hjid, hjname, -, -⟩ := hmodified j' hj'
    exact hjid.trans (h.own j hj (hjname.symm.trans hname))
  · intro j' hj' dir hsame
    obtain ⟨j, hj, -, hjname, -, hjdir⟩ := hmodified j' hj'
    rw [hjname]
    exact hjdir dir hsame

/-- Other containers are rewritten. -/
theorem Tidy.same_modify (h : Tidy v s) {id : String}
    {f : WorkingContainer κ → WorkingContainer κ} (hid : Present v s → id ≠ v.id)
    (hfname : ∀ j, (f j).name = j.name) : Same v s (s.modify id f) := by
  have hkeeps : ∀ k ∈ named v.name s, (if k.id = id then f k else k) = k := by
    intro k hk
    obtain ⟨hmem, hname⟩ := mem_named.mp hk
    refine if_neg fun hkid => hid (List.ne_nil_of_mem hk) ?_
    exact hkid.symm.trans (h.own k hmem hname)
  refine ⟨?_, Iff.rfl, Iff.rfl, fun _ _ => rfl, rfl⟩
  rw [named_modify hfname]
  exact (List.map_congr_left hkeeps).trans (List.map_id _)

/-- Other containers are rewritten, but not their directories. -/
theorem Tidy.modify_other (h : Tidy v s) {id : String}
    {f : WorkingContainer κ → WorkingContainer κ} (hid : Present v s → id ≠ v.id)
    (hfid : ∀ j, (f j).id = j.id) (hfname : ∀ j, (f j).name = j.name)
    (hfdir : ∀ j, (f j).mountDir = j.mountDir) :
    Tidy v (s.modify id f) ∧ Same v s (s.modify id f) := by
  refine ⟨h.modify hfid hfname ?_, h.same_modify hid hfname⟩
  intro j hj _ dir hdir
  exact h.recorded j hj dir ((hfdir j).symm.trans hdir)

/-- Files are written into another container. -/
theorem Tidy.write (h : Tidy v s) (e : Write κ) (hother : e.containerID ≠ v.id) :
    Tidy v (s.modify e.containerID fun k => { k with contents := e.contents }) ∧
      Same v s (s.modify e.containerID fun k => { k with contents := e.contents }) :=
  h.modify_other (fun _ => hother) (fun _ => rfl) (fun _ => rfl) fun _ => rfl

theorem Tidy.withContainer {α : Type} (h : Tidy v s) {id : String}
    {f : WorkingContainer κ → Except String α × Node κ}
    (hf : ∀ k, Tidy v (f k).2 ∧ Same v s (f k).2) :
    Tidy v (s.withContainer id f).2 ∧ Same v s (s.withContainer id f).2 := by
  unfold Node.withContainer
  split
  · exact ⟨h, .refl v s⟩
  · exact hf _

/-- Nothing but the other images changes. -/
theorem Tidy.images (h : Tidy v s) {images : String → Option (Image κ)}
    (himages : ∀ ref, RefersTo v.ref ref → images ref = s.images ref) :
    Tidy v { s with images := images } ∧ Same v s { s with images := images } :=
  ⟨⟨h.unique, h.own, h.recorded⟩, rfl, Iff.rfl, Iff.rfl, himages, rfl⟩

theorem Tidy.pull (h : Tidy v s) {fromImage : String} {pullPolicy : PullPolicy}
    (hne : pullPolicy = .always → ¬ RefersTo v.ref fromImage) {image : Option (Image κ)}
    (hpull : lib.pull fromImage pullPolicy s = .ok (image, t)) : Tidy v t ∧ Same v s t := by
  unfold Libraries.pull at hpull
  split at hpull
  · cases hpull
    exact ⟨h, .refl v s⟩
  · cases pullPolicy with
    | never =>
      dsimp only at hpull
      split at hpull
      · cases hpull
      · cases hpull
        exact ⟨h, .refl v s⟩
    | always =>
      dsimp only at hpull
      split at hpull
      · cases hpull
      · cases hpull
        refine h.images fun ref href => Function.update_of_ne (fun heq => hne rfl ?_) _ _
        exact heq ▸ href

/-- A container of another name is added, with an identifier of its own and no directory. -/
theorem Tidy.append (h : Tidy v s) {k : WorkingContainer κ} (hname : k.name ≠ v.name)
    (hfresh : ∀ j ∈ s.containers, j.id ≠ k.id) (hdir : k.mountDir = none) :
    Tidy v { s with containers := s.containers ++ [k] } := by
  have hcases : ∀ j ∈ s.containers ++ [k], j ∈ s.containers ∨ j = k := by
    intro j hj
    exact (List.mem_append.mp hj).imp_right List.mem_singleton.mp
  refine ⟨?_, ?_, ?_⟩
  · intro i hi j hj hid
    rcases hcases i hi with hiold | hinew
    · rcases hcases j hj with hjold | hjnew
      · exact h.unique i hiold j hjold hid
      · rw [hjnew] at hid
        exact absurd hid (hfresh i hiold)
    · rcases hcases j hj with hjold | hjnew
      · rw [hinew] at hid
        exact absurd hid.symm (hfresh j hjold)
      · rw [hinew, hjnew]
  · intro j hj hjname
    rcases hcases j hj with hjold | hjnew
    · exact h.own j hjold hjname
    · rw [hjnew] at hjname
      exact absurd hjname hname
  · intro j hj dir hjdir
    rcases hcases j hj with hjold | hjnew
    · exact h.recorded j hjold dir hjdir
    · rw [hjnew, hdir] at hjdir
      cases hjdir

/-- A new container has an identifier of its own and no directory. -/
theorem Tidy.newBuilder (h : Tidy v s) (lib : Libraries κ) {name fromImage : String}
    {pullPolicy : PullPolicy} (hgiven : name ≠ "") (hname : name ≠ v.name)
    (hne : pullPolicy = .always → ¬ RefersTo v.ref fromImage) :
    Tidy v (lib.newBuilder name fromImage pullPolicy s).2 ∧
      Same v s (lib.newBuilder name fromImage pullPolicy s).2 ∧
      ∀ builder, (lib.newBuilder name fromImage pullPolicy s).1 = .ok builder →
        Other v builder (lib.newBuilder name fromImage pullPolicy s).2 := by
  unfold Libraries.newBuilder
  split
  · refine ⟨h, .refl v s, ?_⟩
    intro builder hbuilder
    cases hbuilder
  · next image t hpull =>
    obtain ⟨ht, hsame⟩ := h.pull hne hpull
    split
    · refine ⟨ht, hsame, ?_⟩
      intro builder hbuilder
      cases hbuilder
    · have hfresh : ∀ j ∈ t.containers, j.id ≠ (lib.newContainer name image t).id := by
        intro j hj hid
        exact lib.freshID_not_mem (t.containers.map (·.id)) (List.mem_map.mpr ⟨j, hj, hid⟩)
      have hnew : (lib.newContainer name image t).name ≠ v.name := by
        simp only [Libraries.newContainer, if_neg hgiven]
        exact hname
      have hkeeps : named v.name { t with containers := t.containers ++
          [lib.newContainer name image t] } = named v.name t := by
        simp [named, List.filter_append, hnew]
      have htidy := ht.append hnew hfresh rfl
      refine ⟨htidy, hsame.trans ⟨hkeeps, Iff.rfl, Iff.rfl, fun _ _ => rfl, rfl⟩, ?_⟩
      intro builder hbuilder
      cases hbuilder
      exact htidy.other (List.mem_append_right _ List.mem_cons_self) hnew

/-- A commit changes the images of one cache only. -/
theorem images_commitContainer (k : WorkingContainer κ) (imgRef : ImageRef) {ref : String}
    (hne : ¬ RefersTo imgRef.dockerReference ref) :
    (lib.commitContainer k imgRef s).2.images ref = s.images ref := by
  have hname : ref ≠ imgRef.dockerReference := fun heq => hne (.inl heq)
  have hcanonical : ref ≠ imgRef.dockerReference ++ "@" ++ lib.imageID k.contents :=
    fun heq => hne (.inr ⟨_, heq⟩)
  simp only [Libraries.commitContainer]
  rw [Function.update_of_ne hname, Function.update_of_ne hcanonical]

/-- Containers are deleted. -/
theorem Tidy.delete (h : Tidy v s) (id : String) :
    Tidy v { s with containers := s.containers.filter (·.id ≠ id) } := by
  have hmem : ∀ j ∈ s.containers.filter (·.id ≠ id), j ∈ s.containers :=
    fun j hj => (List.mem_filter.mp hj).1
  refine ⟨?_, ?_, ?_⟩
  · exact fun i hi j hj => h.unique i (hmem i hi) j (hmem j hj)
  · exact fun j hj => h.own j (hmem j hj)
  · exact fun j hj => h.recorded j (hmem j hj)

/-- Another container is deleted. -/
theorem Tidy.same_delete (h : Tidy v s) {id : String} (hid : Present v s → id ≠ v.id) :
    Same v s { s with containers := s.containers.filter (·.id ≠ id) } := by
  refine ⟨?_, Iff.rfl, Iff.rfl, fun _ _ => rfl, rfl⟩
  rw [named_delete, List.filter_eq_self]
  intro k hk
  obtain ⟨hmem, hname⟩ := mem_named.mp hk
  refine decide_eq_true fun hkid => hid (List.ne_nil_of_mem hk) ?_
  exact hkid.symm.trans (h.own k hmem hname)

theorem mem_filter_ne {dir other : String} {dirs : List String} (hne : dir ≠ other) :
    other ∈ dirs.filter (· ≠ dir) ↔ other ∈ dirs := by
  simp [hne.symm]

theorem mem_cons_ne {dir other : String} {dirs : List String} (hne : dir ≠ other) :
    other ∈ dir :: dirs ↔ other ∈ dirs := by
  simp [hne.symm]

end Changes

section Operations

variable {lib : Libraries κ} {v : Volume} {s s₀ : Node κ} {op : LayerfsOp}

/-- An operation that spares the volume leaves it alone. -/
theorem Tidy.perform (h : Tidy v s) (hop : Spared v s op) :
    Tidy v (lib.perform op s).2 ∧ Same v s (lib.perform op s).2 := by
  have hself : Tidy v s ∧ Same v s s := ⟨h, .refl v s⟩
  cases op with
  | mkdir dir =>
    simp only [Libraries.perform]
    split
    · exact hself
    · exact ⟨⟨h.unique, h.own, h.recorded⟩, rfl, mem_cons_ne hop, Iff.rfl, fun _ _ => rfl, rfl⟩
  | remove dir =>
    simp only [Libraries.perform]
    split
    · exact hself
    · split
      · exact ⟨⟨h.unique, h.own, h.recorded⟩, rfl, mem_filter_ne hop, Iff.rfl, fun _ _ => rfl, rfl⟩
      · exact hself
  | mount srcDir destDir =>
    exact ⟨⟨h.unique, h.own, h.recorded⟩, rfl, Iff.rfl, mem_cons_ne hop, fun _ _ => rfl, rfl⟩
  | unmount dir =>
    simp only [Libraries.perform]
    split
    · exact ⟨⟨h.unique, h.own, h.recorded⟩, rfl, Iff.rfl, mem_filter_ne hop, fun _ _ => rfl, rfl⟩
    · exact hself
  | newBuilder name fromImage pullPolicy =>
    have hnew := h.newBuilder lib hop.1 hop.2.1 hop.2.2
    exact ⟨hnew.1, hnew.2.1⟩
  | openBuilder name =>
    simp only [Libraries.perform]
    split <;> exact hself
  | openBuilderByPath path =>
    simp only [Libraries.perform]
    split <;> exact hself
  | builderMount id =>
    exact h.withContainer fun _ => h.modify_other hop (fun _ => rfl) (fun _ => rfl) fun _ => rfl
  | builderSave id dir =>
    refine h.withContainer fun _ => ⟨h.modify (fun _ => rfl) (fun _ => rfl) ?_,
      h.same_modify hop.1 fun _ => rfl⟩
    -- neither the directory nor the container is the one of the volume
    intro j hj hid other hsaved
    have hother : dir ≠ v.dir := hop.2
    rw [Option.some.inj hsaved] at hother
    refine iff_of_false hother fun hname => ?_
    exact hop.1 (present_of_mem hj hname) (hid.symm.trans (h.own j hj hname))
  | builderUnmount id =>
    exact h.withContainer fun _ => h.modify_other hop (fun _ => rfl) (fun _ => rfl) fun _ => rfl
  | builderDelete id => exact h.withContainer fun _ => ⟨h.delete id, h.same_delete hop⟩
  | container id => exact h.withContainer fun _ => hself
  | changes layerID => exact h.withContainer fun _ => hself
  | builderCommit id imgRef =>
    refine h.withContainer fun k => h.images fun ref href => ?_
    exact images_commitContainer k imgRef fun hsame => hop ref hsame href
  | copyImage srcRef destRef =>
    simp only [Libraries.perform]
    split
    · exact hself
    · exact ⟨⟨h.unique, h.own, h.recorded⟩, rfl, Iff.rfl, Iff.rfl, fun _ _ => rfl, rfl⟩
  | parseStoreReference name => exact hself
  | parseImageName name => exact hself
  | contextErr => exact hself
  | newStoreReference ref imageID => exact hself

/-- An operation on the volume keeps the node tidy. Only deleting the container ends it. -/
theorem Tidy.perform_owned (h : Tidy v s) (hop : Owned v s op) :
    Tidy v (lib.perform op s).2 ∧ (Present v (lib.perform op s).2 → Present v s) ∧
      (deletes op = false → Present v s → Present v (lib.perform op s).2) := by
  have hkept : ∀ t : Node κ, t.containers = s.containers →
      Tidy v t ∧ (Present v t → Present v s) ∧
        (deletes op = false → Present v s → Present v t) := by
    intro t hcontainers
    have hnamed : named v.name t = named v.name s := congrArg (List.filter _) hcontainers
    have hpresent : Present v t ↔ Present v s := by rw [Present, Present, hnamed]
    exact ⟨⟨hcontainers ▸ h.unique, hcontainers ▸ h.own, hcontainers ▸ h.recorded⟩,
      hpresent.mp, fun _ => hpresent.mpr⟩
  cases op with
  | remove dir =>
    simp only [Libraries.perform]
    split
    · exact hkept _ rfl
    · split <;> exact hkept _ rfl
  | unmount dir =>
    simp only [Libraries.perform]
    split <;> exact hkept _ rfl
  | openBuilder name =>
    simp only [Libraries.perform]
    split <;> exact hkept _ rfl
  | copyImage srcRef destRef =>
    simp only [Libraries.perform]
    split <;> exact hkept _ rfl
  | parseStoreReference name => exact hkept _ rfl
  | parseImageName name => exact hkept _ rfl
  | contextErr => exact hkept _ rfl
  | newStoreReference ref imageID => exact hkept _ rfl
  | container id =>
    obtain ⟨rfl, hpresent⟩ := hop
    obtain ⟨k, rest, hk, hreached⟩ := h.exists_own hpresent
    simp only [Libraries.perform, hreached]
    exact hkept _ rfl
  | changes layerID =>
    obtain ⟨rfl, hpresent⟩ := hop
    obtain ⟨k, rest, hk, hreached⟩ := h.exists_own hpresent
    simp only [Libraries.perform, hreached]
    exact hkept _ rfl
  | builderCommit id imgRef =>
    obtain ⟨rfl, hpresent⟩ := hop
    obtain ⟨k, rest, hk, hreached⟩ := h.exists_own hpresent
    simp only [Libraries.perform, hreached]
    exact hkept _ rfl
  | builderUnmount id =>
    obtain ⟨rfl, hpresent⟩ := hop
    obtain ⟨k, rest, hk, hreached⟩ := h.exists_own hpresent
    simp only [Libraries.perform, hreached]
    refine ⟨h.modify (fun _ => rfl) (fun _ => rfl) fun j hj _ => h.recorded j hj,
      fun _ => hpresent, fun _ _ => ?_⟩
    have hname : ∀ j : WorkingContainer κ, { j with mounted := false }.name = j.name :=
      fun _ => rfl
    rw [Present, named_modify hname, hk]
    exact List.cons_ne_nil _ _
  | builderDelete id =>
    obtain ⟨rfl, hpresent⟩ := hop
    obtain ⟨k, rest, hk, hreached⟩ := h.exists_own hpresent
    simp only [Libraries.perform, hreached]
    exact ⟨h.delete _, fun _ => hpresent, fun hkept => (by cases hkept)⟩
  | _ => cases hop

/-- Operations on the volume reach the same container on both nodes. -/
theorem Same.exists_own (h : Same v s₀ s) (hs₀ : Tidy v s₀) (hs : Tidy v s)
    (hpresent : Present v s) :
    ∃ k, (∀ {α : Type} (f : WorkingContainer κ → Except String α × Node κ),
        s.withContainer v.id f = f k) ∧
      ∀ {α : Type} (f : WorkingContainer κ → Except String α × Node κ),
        s₀.withContainer v.id f = f k := by
  obtain ⟨k, rest, hk, hreached⟩ := hs.exists_own hpresent
  exact ⟨k, hreached, hs₀.withContainer_own (h.containers.symm.trans hk)⟩

/-- An operation on the volume has the same outcome and the same effect on it, whatever
else is on the node. -/
theorem Same.perform_owned (hs₀ : Tidy v s₀) (hs : Tidy v s) (h : Same v s₀ s)
    (hop : Owned v s op) :
    (lib.perform op s₀).1 = (lib.perform op s).1 ∧
      Same v (lib.perform op s₀).2 (lib.perform op s).2 := by
  cases op with
  | unmount dir =>
    cases hop
    by_cases hbound : v.dir ∈ s.binds
    · have hbound₀ := h.binds.mp hbound
      simp only [Libraries.perform, if_pos hbound, if_pos hbound₀]
      exact ⟨trivial, h.containers, h.dirs, by simp, h.images, h.cancelled⟩
    · have hbound₀ := mt h.binds.mpr hbound
      simp only [Libraries.perform, if_neg hbound, if_neg hbound₀]
      exact ⟨trivial, h⟩
  | remove dir =>
    cases hop
    by_cases hbound : v.dir ∈ s.binds
    · have hbound₀ := h.binds.mp hbound
      simp only [Libraries.perform, if_pos hbound, if_pos hbound₀]
      exact ⟨trivial, h⟩
    · have hbound₀ := mt h.binds.mpr hbound
      by_cases hdir : v.dir ∈ s.dirs
      · have hdir₀ := h.dirs.mp hdir
        simp only [Libraries.perform, if_neg hbound, if_neg hbound₀, if_pos hdir, if_pos hdir₀]
        exact ⟨trivial, h.containers, by simp, h.binds, h.images, h.cancelled⟩
      · have hdir₀ := mt h.dirs.mpr hdir
        simp only [Libraries.perform, if_neg hbound, if_neg hbound₀, if_neg hdir, if_neg hdir₀]
        exact ⟨trivial, h⟩
  | openBuilder name =>
    cases hop
    simp only [Libraries.perform, find_name, h.containers]
    split <;> exact ⟨rfl, h⟩
  | copyImage srcRef destRef =>
    simp only [Libraries.perform, h.images _ hop]
    split
    · exact ⟨rfl, h⟩
    · exact ⟨rfl, h.containers, h.dirs, h.binds, h.images, h.cancelled⟩
  | parseStoreReference name => exact ⟨rfl, h⟩
  | parseImageName name => exact ⟨rfl, h⟩
  | contextErr => exact ⟨h.cancelled.symm, h⟩
  | newStoreReference ref imageID => exact ⟨rfl, h⟩
  | container id =>
    obtain ⟨rfl, hpresent⟩ := hop
    obtain ⟨k, hreached, hreached₀⟩ := h.exists_own hs₀ hs hpresent
    simp only [Libraries.perform, hreached, hreached₀]
    exact ⟨trivial, h⟩
  | changes layerID =>
    obtain ⟨rfl, hpresent⟩ := hop
    obtain ⟨k, hreached, hreached₀⟩ := h.exists_own hs₀ hs hpresent
    simp only [Libraries.perform, hreached, hreached₀]
    exact ⟨trivial, h⟩
  | builderCommit id imgRef =>
    obtain ⟨rfl, hpresent⟩ := hop
    obtain ⟨k, hreached, hreached₀⟩ := h.exists_own hs₀ hs hpresent
    simp only [Libraries.perform, hreached, hreached₀,
      Libraries.commitContainer]
    refine ⟨trivial, h.containers, h.dirs, h.binds, fun ref href => ?_, h.cancelled⟩
    simp only [Function.update_apply, h.images ref href]
  | builderUnmount id =>
    obtain ⟨rfl, hpresent⟩ := hop
    obtain ⟨k, hreached, hreached₀⟩ := h.exists_own hs₀ hs hpresent
    simp only [Libraries.perform, hreached, hreached₀]
    refine ⟨trivial, ?_, h.dirs, h.binds, h.images, h.cancelled⟩
    have hname : ∀ j : WorkingContainer κ, { j with mounted := false }.name = j.name :=
      fun _ => rfl
    rw [named_modify hname, named_modify hname, h.containers]
  | builderDelete id =>
    obtain ⟨rfl, hpresent⟩ := hop
    obtain ⟨k, hreached, hreached₀⟩ := h.exists_own hs₀ hs hpresent
    simp only [Libraries.perform, hreached, hreached₀]
    refine ⟨trivial, ?_, h.dirs, h.binds, h.images, h.cancelled⟩
    rw [named_delete, named_delete, h.containers]
  | _ => cases hop

end Operations

end K8StorageX.NodeVolumes
