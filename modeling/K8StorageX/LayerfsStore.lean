import K8StorageX.GoPaths
import K8StorageX.NodeAgent

/-!
# The store of cache containers on a node

`Mount` creates a container from the image of a cache and mounts it, `Unmount`
unmounts and deletes it and, if requested, commits it to a local image and pushes
that to a registry. Deferred functions run after the part of the program that
follows their `defer`. All answers of the container libraries are possible.
-/

namespace K8StorageX.LayerfsStore

open ApiProgram NodeAgent GoErrors GoPaths

/-- Issue an operation on the node. -/
abbrev perform (op : LayerfsOp) : Agent op.Outcome := Prog.request (Req.layerfs op)

/-- `MountOptions.validate` -/
def validate (o : MountOptions) : Option GoError :=
  if o.image = "" ∧ o.cacheName = "" then some (.text "neither cache name nor image specified")
  else if o.extMountDir ≠ "" ∧ isAbs o.extMountDir = false then
    some (.text ("non-absolute mount path " ++ o.extMountDir.quote ++ " provided"))
  else none

/-- `MountOptions.containerName` -/
def containerName (o : MountOptions) : Except GoError String :=
  if o.containerName ≠ "" then .ok o.containerName
  else if o.extMountDir ≠ "" then
    let name := base o.extMountDir
    if name = "" ∨ name = ".." ∨ name = "." ∨ name = "/" then
      .error (.text ("cannot derive container name from provided mount path " ++
        o.extMountDir.quote ++ ", requires sub directory"))
    else .ok (clean o.extMountDir)
  else .ok ""

/-- `localImageName` -/
def localImageName (o : MountOptions) : String :=
  "localhost/cache/" ++ o.cacheNamespace ++ "/" ++ o.cacheName ++ ":latest"

/-- An error of a library call as a Go error. -/
def failure : Except String Unit → Option GoError
  | .ok _ => none
  | .error text => some (.text text)

/-- `store.storeImageRef` -/
def storeImageRef (name : String) : Agent (Except GoError ImageRef) := do
  let ref ← perform (.parseStoreReference name)
  return ref.mapError .text

/-- `store.imageRef` -/
def imageRef (o : MountOptions) : Agent (Except GoError ImageRef) := do
  if o.image = "" then
    if o.cacheName = "" ∨ o.cacheNamespace = "" then
      return .error (.text "cache name and namespace must be specified")
    else storeImageRef (localImageName o)
  else
    let ref ← perform (.parseImageName o.image)
    return ref.mapError fun text => .wrapped "invalid image name provided" (.text text)

/-- The image to mount: the local one unless the cache has one in a registry. -/
def mountedImageRef (opts : MountOptions) : Agent (Except GoError ImageRef) :=
  if opts.image = "" then storeImageRef (localImageName opts) else imageRef opts

/-- `buildah` reports a missing image. -/
def imageMissing (text : String) : Bool :=
  text.endsWith ": manifest unknown" || text.endsWith " could not be found locally"

/-- Create the container, from scratch if the image does not exist. -/
def createBuilder (name imageName : String) (pullPolicy : PullPolicy) :
    Agent (Except GoError Builder) := do
  let created ← perform (.newBuilder name imageName pullPolicy)
  match created with
  | .ok builder => return .ok builder
  | .error text =>
    if imageMissing text = false ∨ imageName = "scratch" then return .error (.text text)
    else
      let created ← perform (.newBuilder name "scratch" .never)
      return created.mapError .text

/-- Mount the container and, if requested, bind it to the external directory. -/
def mountBuilder (opts : MountOptions) (builder : Builder) : Agent (String × Option GoError) := do
  let mounted ← perform (.builderMount builder.containerID)
  match mounted with
  | .error text => return ("", some (.text text))
  | .ok dir =>
    if opts.extMountDir = "" then return (dir, none)
    else
      let saved ← perform (.builderSave builder.containerID opts.extMountDir)
      match saved with
      | .error text => return ("", some (.text text))
      | .ok _ =>
        let bound ← perform (.mount dir opts.extMountDir)
        let context := "bind mount " ++ dir ++ " to " ++ opts.extMountDir
        return (opts.extMountDir, (failure bound).map (.wrapped context))

/-- Create and mount the container; a failure unmounts and deletes it again. -/
def mountContainer (opts : MountOptions) (name imageName : String) (pullPolicy : PullPolicy) :
    Agent (String × Option GoError) := do
  let created ← createBuilder name imageName pullPolicy
  match created with
  | .error e => return ("", some e)
  | .ok builder =>
    let result ← mountBuilder opts builder
    if result.2.isSome then
      let _ ← perform (.builderUnmount builder.containerID)
      let _ ← perform (.builderDelete builder.containerID)
      return result
    else return result

/-- `store.Mount` -/
def mount (opts : MountOptions) : Agent (String × Option GoError) := do
  match validate opts, containerName opts with
  | some e, _ => return ("", some e)
  | none, .error e => return ("", some e)
  | none, .ok name =>
    let ref ← mountedImageRef opts
    let pullPolicy := if opts.image = "" then PullPolicy.never else .always
    match ref with
    | .error e => return ("", some e)
    | .ok ref =>
      if opts.extMountDir = "" then mountContainer opts name ref.dockerReference pullPolicy
      else
        let made ← perform (.mkdir opts.extMountDir)
        match made with
        | .error text => return ("", some (.text text))
        | .ok _ =>
          let result ← mountContainer opts name ref.dockerReference pullPolicy
          if result.2.isSome then
            let _ ← perform (.remove opts.extMountDir)
            return result
          else return result

/-- `unmountAndDelete`: a failing unmount is only logged. -/
def unmountAndDelete (dir : String) : Agent (Option GoError) := do
  let _ ← perform (.unmount dir)
  let removed ← perform (.remove dir)
  match removed with
  | .error (.other text) => return some (.text text)
  | _ => return none

/-- Unmount a directory if there is one to unmount. -/
def unmountIf (needed : Bool) (dir : String) : Agent (Option GoError) :=
  if needed then unmountAndDelete dir else pure none

/-- Find the container by its name or by its mount path. -/
def openContainer (opts : MountOptions) (name : String) : Agent (Except GoError Builder) := do
  let opened ← perform (.openBuilder name)
  match opened with
  | .ok builder => return .ok builder
  | .error text =>
    if opts.containerName = "" then
      let opened ← perform (.openBuilderByPath opts.extMountDir)
      return opened.mapError fun text =>
        .wrapped ("find cache container by path " ++ opts.extMountDir) (.text text)
    else return .error (.wrapped ("find cache container " ++ name.quote) (.text text))

/-- `store.commit`: the image ID, the canonical reference of a new image and
whether the image is new. -/
def commit (builder : Builder) (imgRef : Option ImageRef) :
    Agent (Except GoError (String × String × Bool)) := do
  let container ← perform (.container builder.containerID)
  match container with
  | .error text => return .error (.text text)
  | .ok c =>
    let changes ← perform (.changes c.layerID)
    match changes, imgRef with
    | .error text, _ => return .error (.text text)
    | .ok _, none => return .ok (c.imageID, "", false)
    | .ok changed, some imgRef =>
      if changed = 0 ∧ c.imageID ≠ "" then return .ok (c.imageID, "", false)
      else
        let committed ← perform (.builderCommit builder.containerID imgRef)
        match committed with
        | .error text => return .error (.wrapped "commit" (.text text))
        | .ok (imageID, ref) => return .ok (imageID, ref, true)

/-- `store.pushImage` -/
def pushImage (srcImageRef srcImageID : String) (destRef : ImageRef) : Agent (Option GoError) := do
  let srcRef ← perform (.newStoreReference srcImageRef srcImageID)
  match srcRef with
  | .error text => return some (.wrapped "push source" (.text text))
  | .ok srcRef =>
    let copied ← perform (.copyImage srcRef destRef)
    return failure copied

/-- The reference to push to, if the cache has an image in a registry. -/
def destinationRef (opts : MountOptions) : Agent (Except GoError (Option ImageRef)) := do
  if opts.image = "" then return .ok none
  else
    let ref ← imageRef opts
    return ref.map some

/-- Commit the container and push a new image. -/
def publish (opts : MountOptions) (builder : Builder) : Agent (String × Bool × Option GoError) := do
  let localImgRef ← storeImageRef (localImageName opts)
  match localImgRef with
  | .error e => return ("", false, some e)
  | .ok localImgRef =>
    let destRef ← destinationRef opts
    match destRef with
    | .error e => return ("", false, some e)
    | .ok destRef =>
      let committed ← commit builder (some localImgRef)
      match committed, destRef with
      | .error e, _ => return ("", false, some e)
      | .ok (imageID, ref, true), some destRef =>
        let err ← pushImage ref imageID destRef
        if err.isSome then return ("", false, err) else return (imageID, true, none)
      | .ok (imageID, _, newImage), _ => return (imageID, newImage, none)

/-- Unmount the opened container and publish it if requested. -/
def unmountBuilder (opts : MountOptions) (builder : Builder) :
    Agent (String × Bool × Option GoError) := do
  let dir := builder.mountDir.getD ""
  let err ← unmountIf (dir ≠ "" ∧ dir ≠ opts.extMountDir) dir
  let unmounted ← perform (.builderUnmount builder.containerID)
  let err := err <|> failure unmounted
  if err.isSome ∨ opts.commit = false then return ("", false, err)
  else publish opts builder

/-- `store.Unmount`. The error of unmounting the external directory is overwritten
when the container is opened. -/
def unmount (opts : MountOptions) : Agent (String × Bool × Option GoError) := do
  let noName : Bool := opts.containerName = "" ∧ opts.extMountDir = ""
  match validate opts, noName, containerName opts with
  | some e, _, _ => return ("", false, some e)
  | none, true, _ =>
    return ("", false, some (.text "neither container name nor mount path provided"))
  | none, false, .error e => return ("", false, some e)
  | none, false, .ok name =>
    let _ ← unmountIf (opts.extMountDir ≠ "") opts.extMountDir
    let opened ← openContainer opts name
    match opened with
    | .error e => return ("", false, some e)
    | .ok builder =>
      let result ← unmountBuilder opts builder
      let cancelled ← perform .contextErr
      if cancelled then return result
      else
        let deleted ← perform (.builderDelete builder.containerID)
        return (result.1, result.2.1, result.2.2 <|> failure deleted)

/-- Operations that create or push an image. -/
def publishes : LayerfsOp → Bool
  | .builderCommit _ _ => true
  | .copyImage _ _ => true
  | _ => false

/-- Operations that leave the containers of the node alone. -/
def keepsContainers : LayerfsOp → Bool
  | .newBuilder _ _ _ => false
  | .builderMount _ => false
  | .builderSave _ _ => false
  | .builderUnmount _ => false
  | .builderDelete _ => false
  | _ => true

/-- Operations on the node that publish nothing unless a commit is requested. -/
def LocalWork (commit : Bool) (r : Req) : Prop :=
  ∃ op, r = .layerfs op ∧ (publishes op = true → commit = true)

/-- An operation is local work if it publishes nothing without a requested commit. -/
@[simp] theorem localWork_layerfs (commit : Bool) (op : LayerfsOp) :
    LocalWork commit (.layerfs op) ↔ (publishes op = true → commit = true) := by
  simp [LocalWork]

/-- Such operations that leave the containers alone. -/
def Bookkeeping (commit : Bool) (r : Req) : Prop :=
  ∃ op, r = .layerfs op ∧ keepsContainers op = true ∧ (publishes op = true → commit = true)

/-- It is bookkeeping if it also leaves the containers alone. -/
@[simp] theorem bookkeeping_layerfs (commit : Bool) (op : LayerfsOp) :
    Bookkeeping commit (.layerfs op) ↔
      keepsContainers op = true ∧ (publishes op = true → commit = true) := by
  simp [Bookkeeping]

/-- Bookkeeping is local work. -/
theorem Bookkeeping.localWork {commit : Bool} (r : Req) (h : Bookkeeping commit r) :
    LocalWork commit r := by
  obtain ⟨op, hr, -, hpublishes⟩ := h
  exact ⟨op, hr, hpublishes⟩

/-- Operations on references, layers and images. -/
def handlesImages : LayerfsOp → Bool
  | .parseStoreReference _ => true
  | .parseImageName _ => true
  | .container _ => true
  | .changes _ => true
  | .builderCommit _ _ => true
  | .newStoreReference _ _ => true
  | .copyImage _ _ => true
  | _ => false

/-- Operations on images that publish nothing unless a commit is requested. -/
def ImageWork (commit : Bool) (r : Req) : Prop :=
  ∃ op, r = .layerfs op ∧ handlesImages op = true ∧ (publishes op = true → commit = true)

/-- It is work on images if it handles images and publishes nothing without a requested commit. -/
@[simp] theorem imageWork_layerfs (commit : Bool) (op : LayerfsOp) :
    ImageWork commit (.layerfs op) ↔
      handlesImages op = true ∧ (publishes op = true → commit = true) := by
  simp [ImageWork]

/-- Work on images leaves the containers alone. -/
theorem ImageWork.bookkeeping {commit : Bool} (r : Req) (h : ImageWork commit r) :
    Bookkeeping commit r := by
  obtain ⟨op, hr, hhandles, hpublishes⟩ := h
  have hkeeps : keepsContainers op = true := by cases op <;> first | rfl | cases hhandles
  exact ⟨op, hr, hkeeps, hpublishes⟩

/-- Work on images is local work. -/
theorem ImageWork.localWork {commit : Bool} (r : Req) (h : ImageWork commit r) :
    LocalWork commit r := (h.bookkeeping r).localWork r

/-- Operations on a new container and its mounts. -/
def handlesContainers : LayerfsOp → Bool
  | .newBuilder _ _ _ => true
  | .builderMount _ => true
  | .builderSave _ _ => true
  | .mount _ _ => true
  | .builderUnmount _ => true
  | .builderDelete _ => true
  | _ => false

/-- Such an operation is performed. -/
def ContainerWork (r : Req) : Prop := ∃ op, r = .layerfs op ∧ handlesContainers op = true

/-- An operation is work on a container if it handles containers. -/
@[simp] theorem containerWork_layerfs (op : LayerfsOp) :
    ContainerWork (.layerfs op) ↔ handlesContainers op = true := by
  simp [ContainerWork]

/-- Work on a container publishes nothing, whatever is requested. -/
theorem ContainerWork.localWork {commit : Bool} (r : Req) (h : ContainerWork r) :
    LocalWork commit r := by
  obtain ⟨op, hr, hhandles⟩ := h
  have hpublishes : publishes op = false := by cases op <;> first | rfl | cases hhandles
  exact ⟨op, hr, by simp [hpublishes]⟩

section Requests

variable {requested : Bool}

/-- Parsing the name of a stored image works on images. -/
theorem issues_storeImageRef (name : String) :
    (storeImageRef name).Issues (ImageWork requested) := by
  simp [storeImageRef, handlesImages, publishes]

/-- `imageRef` works on images. -/
theorem issues_imageRef (o : MountOptions) : (imageRef o).Issues (ImageWork requested) := by
  unfold imageRef
  split
  · split
    · exact trivial
    · exact issues_storeImageRef _
  · simp [handlesImages, publishes]

/-- So does the choice of the image to mount. -/
theorem issues_mountedImageRef (opts : MountOptions) :
    (mountedImageRef opts).Issues (ImageWork requested) := by
  unfold mountedImageRef
  split
  · exact issues_storeImageRef _
  · exact issues_imageRef _

/-- Creating a container works on containers. -/
theorem issues_createBuilder (name imageName : String) (pullPolicy : PullPolicy) :
    (createBuilder name imageName pullPolicy).Issues (ContainerWork) := by
  simp only [createBuilder, Prog.request_bind, Prog.issues_call, containerWork_layerfs]
  refine ⟨by simp [handlesContainers], fun created => ?_⟩
  split
  · exact trivial
  · split
    · exact trivial
    · simp [handlesContainers]

/-- So does mounting it. -/
theorem issues_mountBuilder (opts : MountOptions) (builder : Builder) :
    (mountBuilder opts builder).Issues (ContainerWork) := by
  simp only [mountBuilder, Prog.request_bind, Prog.issues_call, containerWork_layerfs]
  refine ⟨by simp [handlesContainers], fun mounted => ?_⟩
  split
  · exact trivial
  · split
    · exact trivial
    · refine ⟨by simp [handlesContainers], fun saved => ?_⟩
      dsimp only
      split
      · exact trivial
      · simp [handlesContainers]

/-- So does creating and mounting it, with the cleanup after a failure. -/
theorem issues_mountContainer (opts : MountOptions) (name imageName : String)
    (pullPolicy : PullPolicy) :
    (mountContainer opts name imageName pullPolicy).Issues (ContainerWork) := by
  refine (issues_createBuilder name imageName pullPolicy).bind fun created => ?_
  split
  · exact trivial
  · refine (issues_mountBuilder opts _).bind fun result => ?_
    split
    · simp [handlesContainers]
    · exact trivial

/-- Mounting publishes nothing. -/
theorem issues_mount (opts : MountOptions) : (mount opts).Issues (LocalWork requested) := by
  unfold mount
  split
  · exact trivial
  · exact trivial
  · refine ((issues_mountedImageRef opts).mono ImageWork.localWork).bind fun ref => ?_
    dsimp only
    split
    · exact trivial
    · split
      · exact (issues_mountContainer _ _ _ _).mono ContainerWork.localWork
      · refine ⟨by simp [publishes], fun made => ?_⟩
        cases made with
        | error text => exact trivial
        | ok _ =>
          refine ((issues_mountContainer _ _ _ _).mono ContainerWork.localWork).bind fun result => ?_
          split
          · simp [publishes]
          · exact trivial

/-- Unmounting and deleting a directory is bookkeeping. -/
theorem issues_unmountAndDelete (dir : String) :
    (unmountAndDelete dir).Issues (Bookkeeping requested) := by
  simp only [unmountAndDelete, Prog.request_bind, Prog.issues_call, bookkeeping_layerfs]
  refine ⟨by simp [keepsContainers, publishes], fun _ => ⟨?_, fun removed => ?_⟩⟩
  · simp [keepsContainers, publishes]
  · split <;> exact trivial

/-- So it is where it is conditional. -/
theorem issues_unmountIf (needed : Bool) (dir : String) :
    (unmountIf needed dir).Issues (Bookkeeping requested) := by
  unfold unmountIf
  split
  · exact issues_unmountAndDelete dir
  · exact trivial

/-- Finding the container of a volume is bookkeeping. -/
theorem issues_openContainer (opts : MountOptions) (name : String) :
    (openContainer opts name).Issues (Bookkeeping requested) := by
  simp only [openContainer, Prog.request_bind, Prog.issues_call, bookkeeping_layerfs]
  refine ⟨by simp [keepsContainers, publishes], fun opened => ?_⟩
  split
  · exact trivial
  · split
    · simp [keepsContainers, publishes]
    · exact trivial

/-- A commit works on images and may publish. -/
theorem issues_commit (builder : Builder) (imgRef : Option ImageRef) :
    (commit builder imgRef).Issues (ImageWork true) := by
  simp only [commit, Prog.request_bind, Prog.issues_call, imageWork_layerfs]
  refine ⟨by simp [handlesImages], fun container => ?_⟩
  split
  · exact trivial
  · refine ⟨by simp [handlesImages], fun changes => ?_⟩
    dsimp only
    split
    · exact trivial
    · exact trivial
    · split
      · exact trivial
      · refine ⟨by simp [handlesImages], fun committed => ?_⟩
        dsimp only
        split <;> exact trivial

/-- Pushing an image works on images and may publish. -/
theorem issues_pushImage (srcImageRef srcImageID : String) (destRef : ImageRef) :
    (pushImage srcImageRef srcImageID destRef).Issues (ImageWork true) := by
  simp only [pushImage, Prog.request_bind, Prog.issues_call, imageWork_layerfs]
  refine ⟨by simp [handlesImages], fun srcRef => ?_⟩
  split
  · exact trivial
  · simp [handlesImages]

/-- So does the commit followed by the push. -/
theorem issues_publish (opts : MountOptions) (builder : Builder) :
    (publish opts builder).Issues (ImageWork true) := by
  refine (issues_storeImageRef _).bind fun localImgRef => ?_
  split
  · exact trivial
  · refine Prog.Issues.bind ?_ fun destRef => ?_
    · unfold destinationRef
      split
      · exact trivial
      · exact (issues_imageRef opts).bind fun _ => trivial
    · split
      · exact trivial
      · refine (issues_commit _ _).bind fun committed => ?_
        split
        · exact trivial
        · refine (issues_pushImage _ _ _).bind fun err => ?_
          split <;> exact trivial
        · exact trivial

/-- `Unmount` of a container publishes only if its options request a commit. -/
theorem issues_unmountBuilder (opts : MountOptions) (builder : Builder) :
    (unmountBuilder opts builder).Issues (LocalWork opts.commit) := by
  refine ((issues_unmountIf _ _).mono Bookkeeping.localWork).bind fun err => ?_
  simp only [Prog.request_bind, Prog.issues_call, localWork_layerfs]
  refine ⟨by simp [publishes], fun unmounted => ?_⟩
  split
  · exact trivial
  · rename_i hdone
    have hcommit : opts.commit = true := by
      cases h : opts.commit with
      | true => rfl
      | false => exact absurd (Or.inr h) hdone
    rw [hcommit]
    exact (issues_publish opts builder).mono ImageWork.localWork

/-- Unmounting publishes only if a commit is requested. -/
theorem issues_unmount (opts : MountOptions) : (unmount opts).Issues (LocalWork opts.commit) := by
  unfold unmount
  dsimp only
  split
  · exact trivial
  · exact trivial
  · exact trivial
  · refine ((issues_unmountIf _ _).mono Bookkeeping.localWork).bind fun _ =>
      ((issues_openContainer opts _).mono Bookkeeping.localWork).bind fun opened => ?_
    split
    · exact trivial
    · refine (issues_unmountBuilder opts _).bind fun result => ?_
      simp only [Prog.request_bind, Prog.issues_call, localWork_layerfs]
      refine ⟨by simp [publishes], fun cancelled => ?_⟩
      split
      · exact trivial
      · simp [publishes]

end Requests

end K8StorageX.LayerfsStore
