import K8StorageX.LayerfsStore
import K8StorageX.CacheUpdater
import Mathlib.Algebra.Order.BigOperators.Group.List
import Mathlib.Algebra.Order.Ring.Nat

/-!
# The container libraries of a node

buildah, the container storage and the image libraries as far as the store of
cache containers uses them: images are stored under their names locally and in a
registry, containers start from an image or from scratch, a commit stores the
contents of a container under a name and a copy pushes an image to the registry.
Texts, identifiers and the parsing of references are parameters. An operation may
also fail without an effect.
-/

namespace K8StorageX.ContainerLibraries

open ApiProgram NodeAgent LayerfsStore CacheModel CacheUpdater GoErrors
open OptimisticStore (Cell)

/-- An image. -/
structure Image (κ : Type) where
  /-- Identifier of the image. -/
  id : String
  /-- File system contents. -/
  contents : κ

/-- A container. -/
structure WorkingContainer (κ : Type) where
  /-- Identifier of the container. -/
  id : String
  /-- Name of the container. -/
  name : String
  /-- Image it was created from, empty for scratch. -/
  imageID : String
  /-- Contents it was created with. -/
  base : κ
  /-- Current contents. -/
  contents : κ
  /-- `Args["MOUNT_DIR"]` -/
  mountDir : Option String
  /-- Whether the container is mounted. -/
  mounted : Bool

/-- Some component of the path of an image name is empty. -/
def emptyComponent (name : String) : Bool :=
  (GoPaths.segments name).any fun component => component.toList.takeWhile (· ≠ ':') == []

/-- What is assumed of the libraries. -/
structure Libraries (κ : Type) where
  /-- `imgstorage.Transport.ParseStoreReference` -/
  parseStoreReference : String → Except String ImageRef
  /-- `alltransports.ParseImageName` -/
  parseImageName : String → Except String ImageRef
  /-- Contents of an empty file system. -/
  scratch : κ
  /-- Number of paths in which two contents differ. -/
  changedPaths : κ → κ → ℕ
  /-- Identifier of a new container, given the ones in use. -/
  freshID : List String → String
  /-- Directory in which a container is mounted. -/
  mountPoint : String → String
  /-- Identifier of an image with given contents. -/
  imageID : κ → String
  /-- Error for an image that is not stored locally. -/
  missingLocally : String → String
  /-- Error for an image that is not in the registry. -/
  manifestUnknown : String → String
  /-- Error for a name that is in use. -/
  nameInUse : String → String
  /-- Nothing is reported as changed exactly if nothing has changed. -/
  changedPaths_eq_zero_iff : ∀ base contents, changedPaths base contents = 0 ↔ contents = base
  /-- New identifiers are not in use. -/
  freshID_not_mem : ∀ used, freshID used ∉ used
  /-- A missing local image is reported as the store expects it. -/
  imageMissing_missingLocally : ∀ name, imageMissing (missingLocally name) = true
  /-- A missing image of the registry is reported as the store expects it. -/
  imageMissing_manifestUnknown : ∀ name, imageMissing (manifestUnknown name) = true
  /-- Docker references are qualified with a domain. -/
  store_ne_scratch : ∀ name ref, parseStoreReference name = .ok ref →
    ref.dockerReference ≠ "scratch"
  /-- Docker references are qualified with a domain. -/
  image_ne_scratch : ∀ name ref, parseImageName name = .ok ref → ref.dockerReference ≠ "scratch"

/-- The file systems, containers and images of a node, and the registry. -/
structure Node (κ : Type) where
  /-- Local images by name or canonical reference. -/
  images : String → Option (Image κ)
  /-- Images of the registry by name. -/
  registry : String → Option (Image κ)
  /-- Containers, oldest first. -/
  containers : List (WorkingContainer κ)
  /-- Existing external mount directories. -/
  dirs : List String
  /-- Directories with a bind mount. -/
  binds : List String
  /-- Whether the context of the calls is cancelled. -/
  cancelled : Bool

variable {κ : Type}

/-- Change the container with an identifier. -/
def Node.modify (s : Node κ) (id : String) (f : WorkingContainer κ → WorkingContainer κ) : Node κ :=
  { s with containers := s.containers.map fun k => if k.id = id then f k else k }

/-- The handle of a container. -/
def WorkingContainer.builder (k : WorkingContainer κ) : Builder := ⟨k.id, k.mountDir⟩

/-- The image a container starts from, pulled into the local storage if asked for. -/
def Libraries.pull (lib : Libraries κ) (fromImage : String) (pullPolicy : PullPolicy) (s : Node κ) :
    Except String (Option (Image κ) × Node κ) :=
  if fromImage = "scratch" then .ok (none, s)
  else
    match pullPolicy with
    | .never =>
      match s.images fromImage with
      | none => .error (lib.missingLocally fromImage)
      | some image => .ok (some image, s)
    | .always =>
      match s.registry fromImage with
      | none => .error (lib.manifestUnknown fromImage)
      | some image =>
        .ok (some image, { s with images := Function.update s.images fromImage (some image) })

/-- The container `buildah.NewBuilder` creates. -/
def Libraries.newContainer (lib : Libraries κ) (name : String) (image : Option (Image κ))
    (s : Node κ) : WorkingContainer κ :=
  let id := lib.freshID (s.containers.map (·.id))
  let contents := image.elim lib.scratch (·.contents)
  ⟨id, if name = "" then id else name, image.elim "" (·.id), contents, contents, none, false⟩

/-- `buildah.NewBuilder` -/
def Libraries.newBuilder (lib : Libraries κ) (name fromImage : String) (pullPolicy : PullPolicy)
    (s : Node κ) : Except String Builder × Node κ :=
  match lib.pull fromImage pullPolicy s with
  | .error text => (.error text, s)
  | .ok (image, s) =>
    if name ≠ "" ∧ name ∈ s.containers.map (·.name) then (.error (lib.nameInUse name), s)
    else
      let k := lib.newContainer name image s
      (.ok k.builder, { s with containers := s.containers ++ [k] })

/-- The container with an identifier, or the error that it is not known. -/
def Node.withContainer {α : Type} (s : Node κ) (id : String)
    (f : WorkingContainer κ → Except String α × Node κ) : Except String α × Node κ :=
  match s.containers.find? (·.id == id) with
  | none => (.error "container not known", s)
  | some k => f k

/-- `Builder.Commit`: the contents are stored under the name and under the canonical
reference of the new image. -/
def Libraries.commitContainer (lib : Libraries κ) (k : WorkingContainer κ) (imgRef : ImageRef)
    (s : Node κ) : Except String (String × String) × Node κ :=
  let image : Image κ := ⟨lib.imageID k.contents, k.contents⟩
  let canonical := imgRef.dockerReference ++ "@" ++ image.id
  let images := Function.update s.images canonical (some image)
  (.ok (image.id, canonical),
    { s with images := Function.update images imgRef.dockerReference (some image) })

/-- An operation of the libraries that does what it is asked for. -/
def Libraries.perform (lib : Libraries κ) : (op : LayerfsOp) → Node κ → op.Outcome × Node κ
  | .parseStoreReference name, s => (lib.parseStoreReference name, s)
  | .parseImageName name, s => (lib.parseImageName name, s)
  | .mkdir dir, s =>
    if dir ∈ s.dirs then (.error ("mkdir " ++ dir ++ ": file exists"), s)
    else (.ok (), { s with dirs := dir :: s.dirs })
  | .remove dir, s =>
    if dir ∈ s.binds then (.error (.other ("remove " ++ dir ++ ": device or resource busy")), s)
    else if dir ∈ s.dirs then (.ok (), { s with dirs := s.dirs.filter (· ≠ dir) })
    else (.error .notExist, s)
  | .mount _ destDir, s => (.ok (), { s with binds := destDir :: s.binds })
  | .unmount destDir, s =>
    if destDir ∈ s.binds then (.ok (), { s with binds := s.binds.filter (· ≠ destDir) })
    else (.error "invalid argument", s)
  | .newBuilder name fromImage pullPolicy, s => lib.newBuilder name fromImage pullPolicy s
  | .openBuilder name, s =>
    match s.containers.find? (·.name == name) with
    | none => (.error "container not known", s)
    | some k => (.ok k.builder, s)
  | .openBuilderByPath path, s =>
    match s.containers.find? (lib.mountPoint ·.id == path) with
    | none => (.error "container not known", s)
    | some k => (.ok k.builder, s)
  | .builderMount id, s =>
    s.withContainer id fun _ =>
      (.ok (lib.mountPoint id), s.modify id fun k => { k with mounted := true })
  | .builderSave id mountDir, s =>
    s.withContainer id fun _ => (.ok (), s.modify id fun k => { k with mountDir := some mountDir })
  | .builderUnmount id, s =>
    s.withContainer id fun _ => (.ok (), s.modify id fun k => { k with mounted := false })
  | .builderDelete id, s =>
    s.withContainer id fun _ => (.ok (), { s with containers := s.containers.filter (·.id ≠ id) })
  | .contextErr, s => (s.cancelled, s)
  | .container id, s => s.withContainer id fun k => (.ok ⟨k.id, k.imageID⟩, s)
  | .changes layerID, s =>
    s.withContainer layerID fun k => (.ok (lib.changedPaths k.base k.contents), s)
  | .builderCommit id imgRef, s => s.withContainer id fun k => lib.commitContainer k imgRef s
  | .newStoreReference ref _, s => (.ok ⟨ref⟩, s)
  | .copyImage srcRef destRef, s =>
    match s.images srcRef.dockerReference with
    | none => (.error "identifier is not an image", s)
    | some image =>
      (.ok (), { s with
        registry := Function.update s.registry destRef.dockerReference (some image) })

/-- The outcome of a failing operation; the context is then cancelled. -/
def failedOutcome (text : String) : (op : LayerfsOp) → op.Outcome
  | .parseStoreReference _ => .error text
  | .parseImageName _ => .error text
  | .mkdir _ => .error text
  | .remove _ => .error (.other text)
  | .mount _ _ => .error text
  | .unmount _ => .error text
  | .newBuilder _ _ _ => .error text
  | .openBuilder _ => .error text
  | .openBuilderByPath _ => .error text
  | .builderMount _ => .error text
  | .builderSave _ _ => .error text
  | .builderUnmount _ => .error text
  | .builderDelete _ => .error text
  | .contextErr => true
  | .container _ => .error text
  | .changes _ => .error text
  | .builderCommit _ _ => .error text
  | .newStoreReference _ _ => .error text
  | .copyImage _ _ => .error text

/-- The answers of the libraries. Operations fail only if failures are allowed. -/
def Libraries.answers (lib : Libraries κ) (faulty : Bool) :
    (r : Req) → Node κ → Resp r → Node κ → Prop
  | .layerfs op, s, outcome, t => (outcome, t) = lib.perform op s ∨
      faulty = true ∧ ∃ text, outcome = failedOutcome text op ∧ t = s
  | .enterUnmount _, s, _, t => t = s
  | .cache _, s, _, t => t = s

/-- Evaluate requests without failures; there is no cluster. -/
def Libraries.serve (lib : Libraries κ) : (r : Req) → Node κ → Resp r × Node κ
  | .layerfs op, s => lib.perform op s
  | .enterUnmount _, s => ((), s)
  | .cache r, s => (((⟨none, 0, 0⟩ : Cell Cache).serve cacheSpec none r).1, s)

theorem Libraries.answers_serve (lib : Libraries κ) (faulty : Bool) (r : Req) (s : Node κ) :
    lib.answers faulty r s (lib.serve r s).1 (lib.serve r s).2 := by
  cases r with
  | layerfs op => exact .inl rfl
  | enterUnmount opts => rfl
  | cache r => rfl

section Operations

variable {lib : Libraries κ} {faulty : Bool} {s t : Node κ}

theorem runs_perform {α : Type} {op : LayerfsOp} {f : op.Outcome → Agent α} {value : α} :
    (LayerfsStore.perform op >>= f).Runs (lib.answers faulty) s value t ↔
      ∃ outcome s₁, lib.answers faulty (.layerfs op) s outcome s₁ ∧
        (f outcome).Runs (lib.answers faulty) s₁ value t := by
  rw [Prog.request_bind, Prog.runs_call_iff]

/-- The last container of a node, with an identifier of its own. -/
structure Latest (earlier : List (WorkingContainer κ)) (k : WorkingContainer κ) (s : Node κ) :
    Prop where
  /-- The containers of the node. -/
  containers : s.containers = earlier ++ [k]
  /-- No earlier container has the identifier. -/
  fresh : ∀ j ∈ earlier, j.id ≠ k.id

variable {earlier : List (WorkingContainer κ)} {k : WorkingContainer κ}

theorem Latest.find (h : Latest earlier k s) : s.containers.find? (·.id == k.id) = some k := by
  have hnone : earlier.find? (·.id == k.id) = none :=
    List.find?_eq_none.mpr fun j hj => by simpa using h.fresh j hj
  rw [h.containers, List.find?_append, hnone]
  simp

theorem Latest.withContainer {α : Type} (h : Latest earlier k s)
    (f : WorkingContainer κ → Except String α × Node κ) : s.withContainer k.id f = f k := by
  unfold Node.withContainer
  rw [h.find]

theorem Latest.modify (h : Latest earlier k s) {f : WorkingContainer κ → WorkingContainer κ}
    (hid : (f k).id = k.id) : Latest earlier (f k) (s.modify k.id f) where
  containers := by
    have hearlier : earlier.map (fun j => if j.id = k.id then f j else j) = earlier := by
      refine List.map_congr_left (g := id) (fun j hj => ?_) |>.trans (List.map_id _)
      exact if_neg (h.fresh j hj)
    simp [Node.modify, h.containers, hearlier]
  fresh j hj := hid ▸ h.fresh j hj

/-- The image stored under a name where a pull policy looks for it. -/
def Node.stored (s : Node κ) (imageName : String) : PullPolicy → Option (Image κ)
  | .never => s.images imageName
  | .always => s.registry imageName

/-- What creating a container leaves alone. -/
structure SameSurroundings (s t : Node κ) : Prop where
  /-- The registry is only read. -/
  registry : t.registry = s.registry
  /-- Directories are not touched. -/
  dirs : t.dirs = s.dirs
  /-- Bind mounts are not touched. -/
  binds : t.binds = s.binds
  /-- The context is not touched. -/
  cancelled : t.cancelled = s.cancelled

/-- A container has been created from an image or from scratch. -/
structure Created (lib : Libraries κ) (name : String) (image : Option (Image κ))
    (k : WorkingContainer κ) (s t : Node κ) : Prop where
  /-- It is the last one. -/
  latest : Latest s.containers k t
  /-- It has the requested name, which was not in use. -/
  name : name ≠ "" → k.name = name ∧ ∀ j ∈ s.containers, j.name ≠ name
  /-- It has the contents of the image. -/
  contents : k.contents = image.elim lib.scratch (·.contents)
  /-- It has not been changed. -/
  base : k.base = k.contents
  /-- It knows its image. -/
  imageID : k.imageID = image.elim "" (·.id)
  /-- It has no external directory yet. -/
  mountDir : k.mountDir = none
  /-- Nothing else has changed. -/
  same : SameSurroundings s t

/-- Pulling an image changes at most the local images. -/
theorem pull_ok {fromImage : String} {pullPolicy : PullPolicy} {image : Option (Image κ)}
    {s₁ : Node κ} (h : lib.pull fromImage pullPolicy s = .ok (image, s₁)) :
    s₁.containers = s.containers ∧ SameSurroundings s s₁ ∧
      (fromImage ≠ "scratch" → image = s.stored fromImage pullPolicy ∧
        s₁.stored fromImage pullPolicy = s.stored fromImage pullPolicy) := by
  unfold Libraries.pull at h
  split at h
  · rename_i hscratch
    cases h
    exact ⟨rfl, ⟨rfl, rfl, rfl, rfl⟩, fun hne => absurd hscratch hne⟩
  · cases pullPolicy with
    | never =>
      cases himage : s.images fromImage with
      | none => simp [himage] at h
      | some found =>
        simp only [himage, Except.ok.injEq, Prod.mk.injEq] at h
        obtain ⟨rfl, rfl⟩ := h
        exact ⟨rfl, ⟨rfl, rfl, rfl, rfl⟩, fun _ => ⟨himage.symm, rfl⟩⟩
    | always =>
      cases himage : s.registry fromImage with
      | none => simp [himage] at h
      | some found =>
        simp only [himage, Except.ok.injEq, Prod.mk.injEq] at h
        obtain ⟨rfl, rfl⟩ := h
        exact ⟨rfl, ⟨rfl, rfl, rfl, rfl⟩, fun _ => ⟨himage.symm, rfl⟩⟩

/-- A created container starts from the image that is stored under the name. -/
theorem newBuilder_ok {name fromImage : String} {pullPolicy : PullPolicy} {builder : Builder}
    (h : lib.newBuilder name fromImage pullPolicy s = (.ok builder, t)) :
    ∃ image k, builder = k.builder ∧ Created lib name image k s t ∧
      (fromImage = "scratch" → image = none ∧ t.images = s.images) ∧
      (fromImage ≠ "scratch" → image = s.stored fromImage pullPolicy ∧
        t.stored fromImage pullPolicy = s.stored fromImage pullPolicy) := by
  unfold Libraries.newBuilder at h
  split at h
  · cases h
  · rename_i image s₁ hpull
    split at h
    · cases h
    · rename_i hname
      cases h
      obtain ⟨hcontainers, hsame, hstored⟩ := pull_ok hpull
      refine ⟨image, _, rfl, ⟨⟨?_, ?_⟩, ?_, rfl, rfl, rfl, rfl, ?_⟩, ?_, hstored⟩
      · rw [hcontainers]
      · intro j hj heq
        refine lib.freshID_not_mem (s₁.containers.map (·.id)) ?_
        rw [hcontainers]
        exact List.mem_map.mpr ⟨j, hj, by rw [heq, ← hcontainers]; rfl⟩
      · intro hne
        refine ⟨if_neg hne, ?_⟩
        intro j hj heq
        exact hname ⟨hne, List.mem_map.mpr ⟨j, hcontainers ▸ hj, heq⟩⟩
      · exact ⟨hsame.registry, hsame.dirs, hsame.binds, hsame.cancelled⟩
      · intro hscratch
        unfold Libraries.pull at hpull
        rw [if_pos hscratch, Except.ok.injEq, Prod.mk.injEq] at hpull
        exact ⟨hpull.1.symm, by rw [← hpull.2]⟩

/-- Pulling fails exactly if the image is not stored where it is looked for. -/
theorem pull_error {fromImage text : String} {pullPolicy : PullPolicy}
    (h : lib.pull fromImage pullPolicy s = .error text) :
    s.stored fromImage pullPolicy = none ∧ imageMissing text = true := by
  unfold Libraries.pull at h
  split at h
  · cases h
  · cases pullPolicy with
    | never =>
      cases himage : s.images fromImage with
      | none =>
        simp only [himage, Except.error.injEq] at h
        exact ⟨himage, h ▸ lib.imageMissing_missingLocally fromImage⟩
      | some found => simp [himage] at h
    | always =>
      cases himage : s.registry fromImage with
      | none =>
        simp only [himage, Except.error.injEq] at h
        exact ⟨himage, h ▸ lib.imageMissing_manifestUnknown fromImage⟩
      | some found => simp [himage] at h

/-- No container is created if the image is missing or the name is in use. -/
theorem newBuilder_error {name fromImage text : String} {pullPolicy : PullPolicy}
    (h : lib.newBuilder name fromImage pullPolicy s = (.error text, t)) :
    t.containers = s.containers ∧ SameSurroundings s t ∧
      ((t = s ∧ s.stored fromImage pullPolicy = none ∧ imageMissing text = true) ∨
        name ≠ "" ∧ ∃ j ∈ s.containers, j.name = name) := by
  unfold Libraries.newBuilder at h
  split at h
  · rename_i hpull
    cases h
    exact ⟨rfl, ⟨rfl, rfl, rfl, rfl⟩, .inl ⟨rfl, pull_error hpull⟩⟩
  · rename_i image s₁ hpull
    obtain ⟨hcontainers, hsame, -⟩ := pull_ok hpull
    split at h
    · rename_i hname
      cases h
      obtain ⟨j, hj, hjname⟩ := List.mem_map.mp hname.2
      exact ⟨hcontainers, hsame, .inr ⟨hname.1, j, hcontainers ▸ hj, hjname⟩⟩
    · cases h

theorem Created.of_same {name : String} {image : Option (Image κ)} {s₁ : Node κ}
    (h : Created lib name image k s₁ t) (hcontainers : s₁.containers = s.containers)
    (hsame : SameSurroundings s s₁) : Created lib name image k s t where
  latest := hcontainers ▸ h.latest
  name := hcontainers ▸ h.name
  contents := h.contents
  base := h.base
  imageID := h.imageID
  mountDir := h.mountDir
  same := ⟨h.same.registry.trans hsame.registry, h.same.dirs.trans hsame.dirs,
    h.same.binds.trans hsame.binds, h.same.cancelled.trans hsame.cancelled⟩

/-- `createBuilder` creates a container. Without failures it starts from the stored
image, or from scratch if there is none. -/
theorem runs_createBuilder {name imageName : String} {pullPolicy : PullPolicy} {builder : Builder}
    (h : (createBuilder name imageName pullPolicy).Runs (lib.answers faulty) s (.ok builder) t) :
    ∃ image k, builder = k.builder ∧ Created lib name image k s t ∧
      (faulty = false → imageName ≠ "scratch" → image = s.stored imageName pullPolicy ∧
        t.stored imageName pullPolicy = s.stored imageName pullPolicy) := by
  unfold createBuilder at h
  obtain ⟨outcome, s₁, hanswer, hrest⟩ := runs_perform.mp h
  cases outcome with
  | ok created =>
    simp only [Prog.pure_eq, Prog.runs_ret_iff, Except.ok.injEq] at hrest
    obtain ⟨rfl, rfl⟩ := hrest
    rcases hanswer with hperform | ⟨-, text, houtcome, -⟩
    · obtain ⟨image, k, hbuilder, hcreated, -, hstored⟩ := newBuilder_ok hperform.symm
      exact ⟨image, k, hbuilder, hcreated, fun _ => hstored⟩
    · cases houtcome
  | error text =>
    dsimp only at hrest
    split at hrest
    · simp only [Prog.pure_eq, Prog.runs_ret_iff, reduceCtorEq, false_and] at hrest
    · obtain ⟨outcome', s₂, hanswer', hret⟩ := runs_perform.mp hrest
      simp only [Prog.pure_eq, Prog.runs_ret_iff] at hret
      obtain ⟨hok, rfl⟩ := hret
      have hcreate : lib.newBuilder name "scratch" .never s₁ = (outcome', t) := by
        rcases hanswer' with hperform | ⟨-, text', houtcome, -⟩
        · exact hperform.symm
        · rw [houtcome] at hok
          cases hok
      cases outcome' with
      | error text' => cases hok
      | ok created =>
        cases hok
        obtain ⟨image, k, hbuilder, hcreated, hscratch, -⟩ := newBuilder_ok hcreate
        obtain ⟨rfl, himages⟩ := hscratch rfl
        rcases hanswer with hperform | ⟨hfaulty, text', -, rfl⟩
        · obtain ⟨hcontainers, hsame, hcase⟩ := newBuilder_error hperform.symm
          have hcreated' := hcreated.of_same hcontainers hsame
          refine ⟨none, k, hbuilder, hcreated', fun _ _ => ?_⟩
          rcases hcase with ⟨rfl, hnone, -⟩ | ⟨hne, j, hj, hjname⟩
          · refine ⟨hnone.symm, ?_⟩
            cases pullPolicy with
            | never => exact congrFun himages imageName
            | always => exact congrFun hcreated.same.registry imageName
          · exact absurd hjname ((hcreated'.name hne).2 j hj)
        · exact ⟨none, k, hbuilder, hcreated, fun hno => absurd hfaulty (by simp [hno])⟩

/-- The container as `Mount` leaves it. -/
def WorkingContainer.mountedAt (k : WorkingContainer κ) (extMountDir : String) : WorkingContainer κ :=
  { k with mounted := true, mountDir := if extMountDir = "" then k.mountDir else some extMountDir }

/-- `mountBuilder` mounts the container and records its external directory. -/
theorem runs_mountBuilder {opts : MountOptions} {dir : String} (hk : Latest earlier k s)
    (h : (mountBuilder opts k.builder).Runs (lib.answers faulty) s (dir, none) t) :
    Latest earlier (k.mountedAt opts.extMountDir) t ∧ t.images = s.images ∧
      t.registry = s.registry ∧ t.dirs = s.dirs ∧ t.cancelled = s.cancelled ∧
      t.binds = if opts.extMountDir = "" then s.binds else opts.extMountDir :: s.binds := by
  unfold mountBuilder at h
  obtain ⟨mounted, s₁, hmount, hrest⟩ := runs_perform.mp h
  cases mounted with
  | error text => simp [Prog.pure_eq, Prog.runs_ret_iff] at hrest
  | ok dir₁ =>
    have hmounted : s₁ = s.modify k.id fun k => { k with mounted := true } := by
      rcases hmount with hperform | ⟨-, text, houtcome, -⟩
      · have hdone := hperform.trans (hk.withContainer _)
        exact congrArg Prod.snd hdone
      · cases houtcome
    have hk₁ : Latest earlier { k with mounted := true } s₁ := by
      rw [hmounted]
      exact hk.modify (f := fun k => { k with mounted := true }) rfl
    unfold WorkingContainer.mountedAt
    dsimp only at hrest
    split at hrest
    · rename_i hext
      simp only [Prog.pure_eq, Prog.runs_ret_iff] at hrest
      obtain ⟨-, rfl⟩ := hrest
      rw [if_pos hext, if_pos hext]
      rw [hmounted] at hk₁ ⊢
      exact ⟨hk₁, rfl, rfl, rfl, rfl, rfl⟩
    · rename_i hext
      obtain ⟨saved, s₂, hsave, hrest⟩ := runs_perform.mp hrest
      cases saved with
      | error text => simp [Prog.pure_eq, Prog.runs_ret_iff] at hrest
      | ok _ =>
        have hsaved : s₂ = s₁.modify k.id fun k => { k with mountDir := some opts.extMountDir } := by
          rcases hsave with hperform | ⟨-, text, houtcome, -⟩
          · have hdone := hperform.trans (hk₁.withContainer _)
            exact congrArg Prod.snd hdone
          · cases houtcome
        have hk₂ : Latest earlier { k with mounted := true, mountDir := some opts.extMountDir }
            s₂ := by
          rw [hsaved]
          exact hk₁.modify (f := fun k => { k with mountDir := some opts.extMountDir }) rfl
        obtain ⟨bound, s₃, hbind, hret⟩ := runs_perform.mp hrest
        simp only [Prog.pure_eq, Prog.runs_ret_iff, Prod.mk.injEq] at hret
        obtain ⟨⟨-, hfailure⟩, rfl⟩ := hret
        rcases hbind with hperform | ⟨-, text, houtcome, -⟩
        · cases hperform
          rw [if_neg hext, if_neg hext]
          refine ⟨⟨hk₂.containers, hk₂.fresh⟩, ?_⟩
          rw [hsaved, hmounted]
          exact ⟨rfl, rfl, rfl, rfl, rfl⟩
        · rw [houtcome] at hfailure
          simp [failedOutcome, LayerfsStore.failure] at hfailure

/-- Where a volume with given options starts. -/
def pullPolicyOf (opts : MountOptions) : PullPolicy := if opts.image = "" then .never else .always

/-- A successful `Mount` has created and mounted a container. -/
structure Mounted (lib : Libraries κ) (opts : MountOptions) (name : String)
    (image : Option (Image κ)) (k : WorkingContainer κ) (s t : Node κ) : Prop where
  /-- The options are valid. -/
  valid : validate opts = none
  /-- The name of the container. -/
  named : LayerfsStore.containerName opts = .ok name
  /-- It is the last container. -/
  latest : Latest s.containers (k.mountedAt opts.extMountDir) t
  /-- It has the requested name, which was not in use. -/
  name : name ≠ "" → k.name = name ∧ ∀ j ∈ s.containers, j.name ≠ name
  /-- It has the contents of the image. -/
  contents : k.contents = image.elim lib.scratch (·.contents)
  /-- It has not been changed. -/
  base : k.base = k.contents
  /-- It knows its image. -/
  imageID : k.imageID = image.elim "" (·.id)
  /-- It has no external directory of its own. -/
  mountDir : k.mountDir = none
  /-- The registry is only read. -/
  registry : t.registry = s.registry
  /-- The context is not touched. -/
  cancelled : t.cancelled = s.cancelled
  /-- The external directory has been created. -/
  dirs : t.dirs = if opts.extMountDir = "" then s.dirs else opts.extMountDir :: s.dirs
  /-- The external directory has been bound. -/
  binds : t.binds = if opts.extMountDir = "" then s.binds else opts.extMountDir :: s.binds

/-- The reference of the image to mount. -/
def Libraries.imageRefOf (lib : Libraries κ) (opts : MountOptions) : Except String ImageRef :=
  if opts.image = "" then lib.parseStoreReference (localImageName opts)
  else lib.parseImageName opts.image

theorem Libraries.imageRefOf_ne_scratch {opts : MountOptions} {ref : ImageRef}
    (h : lib.imageRefOf opts = .ok ref) : ref.dockerReference ≠ "scratch" := by
  unfold Libraries.imageRefOf at h
  split at h
  · exact lib.store_ne_scratch _ _ h
  · exact lib.image_ne_scratch _ _ h

/-- Looking up the reference of the image to mount changes nothing. -/
theorem runs_mountedImageRef {opts : MountOptions} {ref : Except GoError ImageRef}
    (h : (mountedImageRef opts).Runs (lib.answers faulty) s ref t) :
    t = s ∧ (faulty = false → ∀ r, ref = .ok r → lib.imageRefOf opts = .ok r) := by
  unfold mountedImageRef at h
  unfold Libraries.imageRefOf
  split at h
  · rename_i himage
    obtain ⟨outcome, s₁, hanswer, hret⟩ := runs_perform.mp h
    simp only [Prog.pure_eq, Prog.runs_ret_iff] at hret
    obtain ⟨rfl, rfl⟩ := hret
    rcases hanswer with hperform | ⟨hfaulty, text, houtcome, rfl⟩
    · cases hperform
      refine ⟨rfl, fun _ r hr => ?_⟩
      rw [if_pos himage]
      cases hparse : lib.parseStoreReference (localImageName opts) with
      | error text => simp [hparse, Except.mapError] at hr
      | ok ref => simpa [hparse, Except.mapError] using hr
    · exact ⟨rfl, fun hno => absurd hfaulty (by simp [hno])⟩
  · rename_i himage
    unfold imageRef at h
    rw [if_neg himage] at h
    obtain ⟨outcome, s₁, hanswer, hret⟩ := runs_perform.mp h
    simp only [Prog.pure_eq, Prog.runs_ret_iff] at hret
    obtain ⟨rfl, rfl⟩ := hret
    rcases hanswer with hperform | ⟨hfaulty, text, houtcome, rfl⟩
    · cases hperform
      refine ⟨rfl, fun _ r hr => ?_⟩
      rw [if_neg himage]
      cases hparse : lib.parseImageName opts.image with
      | error text => simp [hparse, Except.mapError] at hr
      | ok ref => simpa [hparse, Except.mapError] using hr
    · exact ⟨rfl, fun hno => absurd hfaulty (by simp [hno])⟩

/-- A successful `mountContainer` has created a container and mounted it. -/
theorem runs_mountContainer {opts : MountOptions} {name imageName dir : String}
    {pullPolicy : PullPolicy}
    (h : (mountContainer opts name imageName pullPolicy).Runs (lib.answers faulty) s (dir, none) t) :
    ∃ image k s₁, Created lib name image k s s₁ ∧
      (faulty = false → imageName ≠ "scratch" → image = s.stored imageName pullPolicy ∧
        s₁.stored imageName pullPolicy = s.stored imageName pullPolicy) ∧
      (mountBuilder opts k.builder).Runs (lib.answers faulty) s₁ (dir, none) t := by
  unfold mountContainer at h
  obtain ⟨created, s₁, hcreate, hrest⟩ := Prog.runs_bind_iff.mp h
  cases created with
  | error e => simp [Prog.pure_eq, Prog.runs_ret_iff] at hrest
  | ok builder =>
    obtain ⟨image, k, rfl, hcreated, hstored⟩ := runs_createBuilder hcreate
    refine ⟨image, k, s₁, hcreated, hstored, ?_⟩
    obtain ⟨result, s₂, hmount, hrest⟩ := Prog.runs_bind_iff.mp hrest
    split at hrest
    · rename_i hfailed
      obtain ⟨_, s₃, -, hrest⟩ := runs_perform.mp hrest
      obtain ⟨_, s₄, -, hret⟩ := runs_perform.mp hrest
      obtain ⟨hresult, -⟩ := Prog.runs_ret_iff.mp hret
      rw [← hresult] at hfailed
      cases hfailed
    · obtain ⟨hresult, rfl⟩ := Prog.runs_ret_iff.mp hrest
      rw [hresult]
      exact hmount

/-- A successful `Mount` has created and mounted a container with the name of the
options. Without failures it starts from the stored image, or from scratch if there
is none, and leaves the image stored. -/
theorem runs_mount {opts : MountOptions} {dir : String}
    (h : (LayerfsStore.mount opts).Runs (lib.answers faulty) s (dir, none) t) :
    ∃ name image k, Mounted lib opts name image k s t ∧
      (faulty = false → ∃ ref, lib.imageRefOf opts = .ok ref ∧
        image = s.stored ref.dockerReference (pullPolicyOf opts) ∧
        t.stored ref.dockerReference (pullPolicyOf opts) =
          s.stored ref.dockerReference (pullPolicyOf opts)) := by
  unfold LayerfsStore.mount at h
  split at h
  · simp [Prog.pure_eq, Prog.runs_ret_iff] at h
  · simp [Prog.pure_eq, Prog.runs_ret_iff] at h
  · rename_i name hvalid hnamed
    obtain ⟨ref, s₁, href, hrest⟩ := Prog.runs_bind_iff.mp h
    obtain ⟨rfl, hparsed⟩ := runs_mountedImageRef href
    cases ref with
    | error e => simp [Prog.pure_eq, Prog.runs_ret_iff] at hrest
    | ok ref =>
      dsimp only at hrest
      -- the container is created in a node that differs in its directories only
      have hfinish : ∀ {s₂ : Node κ},
          s₂ = { s₁ with dirs :=
            if opts.extMountDir = "" then s₁.dirs else opts.extMountDir :: s₁.dirs } →
          (mountContainer opts name ref.dockerReference (pullPolicyOf opts)).Runs
            (lib.answers faulty) s₂ (dir, none) t →
          ∃ name image k, Mounted lib opts name image k s₁ t ∧
            (faulty = false → ∃ ref, lib.imageRefOf opts = .ok ref ∧
              image = s₁.stored ref.dockerReference (pullPolicyOf opts) ∧
              t.stored ref.dockerReference (pullPolicyOf opts) =
                s₁.stored ref.dockerReference (pullPolicyOf opts)) := by
        rintro s₂ rfl hmount
        obtain ⟨image, k, s₃, hcreated, hstored, hbuilder⟩ := runs_mountContainer hmount
        obtain ⟨hlatest, himages, hregistry, hdirs, hcancelled, hbinds⟩ :=
          runs_mountBuilder hcreated.latest hbuilder
        have hsame := hcreated.same
        refine ⟨name, image, k, ⟨hvalid, hnamed, hlatest, hcreated.name, hcreated.contents,
          hcreated.base, hcreated.imageID, hcreated.mountDir, hregistry.trans hsame.registry,
          hcancelled.trans hsame.cancelled, hdirs.trans hsame.dirs, ?_⟩, ?_⟩
        · rw [hbinds, hsame.binds]
        · intro hno
          have href := hparsed hno ref rfl
          obtain ⟨himage, hkept⟩ := hstored hno (Libraries.imageRefOf_ne_scratch href)
          refine ⟨ref, href, himage, Eq.trans ?_ hkept⟩
          cases hpolicy : pullPolicyOf opts with
          | never => exact congrFun himages _
          | always => exact congrFun hregistry _
      split at hrest
      · rename_i hext
        refine hfinish ?_ hrest
        rw [if_pos hext]
      · rename_i hext
        obtain ⟨made, s₂, hmkdir, hrest⟩ := runs_perform.mp hrest
        cases made with
        | error text => simp [Prog.pure_eq, Prog.runs_ret_iff] at hrest
        | ok _ =>
          have hmade : s₂ = { s₁ with dirs := opts.extMountDir :: s₁.dirs } := by
            rcases hmkdir with hperform | ⟨-, text, houtcome, -⟩
            · simp only [Libraries.perform] at hperform
              split at hperform
              · cases hperform
              · exact congrArg Prod.snd hperform
            · cases houtcome
          obtain ⟨result, s₃, hmount, hrest⟩ := Prog.runs_bind_iff.mp hrest
          split at hrest
          · rename_i hfailed
            obtain ⟨_, s₄, -, hret⟩ := runs_perform.mp hrest
            obtain ⟨hresult, -⟩ := Prog.runs_ret_iff.mp hret
            rw [← hresult] at hfailed
            cases hfailed
          · obtain ⟨hresult, rfl⟩ := Prog.runs_ret_iff.mp hrest
            rw [← hresult] at hmount
            refine hfinish ?_ hmount
            rw [if_neg hext]
            exact hmade

end Operations

/-- A docker reference with its domain. -/
def qualified (name : String) : String :=
  if '/' ∈ name.toList then name else "docker.io/library/" ++ name

theorem qualified_ne_scratch (name : String) : qualified name ≠ "scratch" := by
  unfold qualified
  split
  · rename_i hslash
    rintro rfl
    exact absurd hslash (by decide)
  · intro heq
    have hhead := congrArg (·.toList.head?) heq
    simp at hhead

/-- Libraries with numbers as contents. -/
def numberLibraries : Libraries ℕ where
  parseStoreReference name :=
    if emptyComponent name then .error "invalid reference format" else .ok ⟨qualified name⟩
  parseImageName name := .ok ⟨qualified name⟩
  scratch := 0
  changedPaths base contents := if contents = base then 0 else 1
  freshID used := String.ofList (List.replicate ((used.map String.length).sum + 1) 'c')
  mountPoint id := "/var/lib/containers/" ++ id
  imageID contents := "sha256:" ++ toString contents
  missingLocally _ := "image could not be found locally"
  manifestUnknown _ := "reading manifest: manifest unknown"
  nameInUse _ := "that name is already in use"
  changedPaths_eq_zero_iff base contents := by
    split
    · simp [*]
    · simp [*]
  freshID_not_mem used hmem := by
    have hle := List.le_sum_of_mem (List.mem_map_of_mem (f := String.length) hmem)
    simp only [String.length_ofList, List.length_replicate] at hle
    omega
  imageMissing_missingLocally _ := by decide +kernel
  imageMissing_manifestUnknown _ := by decide +kernel
  store_ne_scratch name ref hparse := by
    split at hparse
    · cases hparse
    · cases hparse
      exact qualified_ne_scratch name
  image_ne_scratch name ref hparse := by
    cases hparse
    exact qualified_ne_scratch name

/-- A node without images, containers and mounts. -/
def emptyNode : Node ℕ := ⟨fun _ => none, fun _ => none, [], [], [], false⟩

end K8StorageX.ContainerLibraries
