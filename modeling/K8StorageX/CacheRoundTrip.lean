import K8StorageX.ContainerLibraries

/-!
# From one mount of a cache to the next

A volume of a cache is mounted, its contents change, and it is unmounted with a
commit. The next mount starts from these contents if and only if the name of the
local image is a well-formed reference, whatever the image of the cache is: the
commit goes through the local image even if the cache has one in a registry.
-/

namespace K8StorageX.CacheRoundTrip

open ApiProgram NodeAgent LayerfsStore ContainerLibraries GoErrors

variable {κ : Type} {lib : Libraries κ} {s t : Node κ}
variable {earlier : List (WorkingContainer κ)} {k : WorkingContainer κ}

/-- Without failures an operation has one outcome. -/
theorem runs_perform_eq {α : Type} {op : LayerfsOp} {f : op.Outcome → Agent α} {value : α} :
    (LayerfsStore.perform op >>= f).Runs (lib.answers false) s value t ↔
      (f (lib.perform op s).1).Runs (lib.answers false) (lib.perform op s).2 value t := by
  rw [runs_perform]
  constructor
  · rintro ⟨outcome, s₁, hanswer, hrest⟩
    rcases hanswer with hperform | ⟨hfaulty, -⟩
    · rw [← hperform]
      exact hrest
    · cases hfaulty
  · intro h
    exact ⟨_, _, .inl rfl, h⟩

/-- The image a commit creates. -/
def committedImage (lib : Libraries κ) (k : WorkingContainer κ) : Image κ :=
  ⟨lib.imageID k.contents, k.contents⟩

/-- Nothing needs to be committed: the container is unchanged and has an image. -/
def Unchanged (k : WorkingContainer κ) : Prop := k.contents = k.base ∧ k.imageID ≠ ""

theorem perform_container (hk : Latest earlier k s) :
    lib.perform (.container k.id) s = (.ok ⟨k.id, k.imageID⟩, s) := hk.withContainer _

theorem perform_changes (hk : Latest earlier k s) :
    lib.perform (.changes k.id) s = (.ok (lib.changedPaths k.base k.contents), s) :=
  hk.withContainer _

theorem perform_builderCommit (hk : Latest earlier k s) (imgRef : ImageRef) :
    lib.perform (.builderCommit k.id imgRef) s = lib.commitContainer k imgRef s :=
  hk.withContainer _

theorem perform_builderUnmount (hk : Latest earlier k s) :
    lib.perform (.builderUnmount k.id) s =
      (.ok (), s.modify k.id fun k => { k with mounted := false }) := hk.withContainer _

theorem perform_builderDelete (hk : Latest earlier k s) :
    lib.perform (.builderDelete k.id) s = (.ok (), { s with containers := earlier }) := by
  have hfilter : (earlier ++ [k]).filter (·.id ≠ k.id) = earlier := by
    rw [List.filter_append, List.filter_eq_self.mpr fun j hj => by simpa using hk.fresh j hj]
    simp
  rw [← hfilter, ← hk.containers]
  exact hk.withContainer _

/-- `store.commit` skips an unchanged container that has an image. -/
theorem runs_commit_unchanged {imgRef : ImageRef} {result : Except GoError (String × String × Bool)}
    (hk : Latest earlier k s) (hsame : Unchanged k)
    (h : (commit k.builder (some imgRef)).Runs (lib.answers false) s result t) :
    result = .ok (k.imageID, "", false) ∧ t = s := by
  have hzero : lib.changedPaths k.base k.contents = 0 :=
    (lib.changedPaths_eq_zero_iff _ _).mpr hsame.1
  have hcontainer := runs_perform_eq.mp h
  rw [WorkingContainer.builder, perform_container hk] at hcontainer
  have hchanges := runs_perform_eq.mp hcontainer
  rw [perform_changes hk, hzero] at hchanges
  dsimp only at hchanges
  rw [if_pos ⟨rfl, hsame.2⟩] at hchanges
  exact Prog.runs_ret_iff.mp hchanges

/-- `store.commit` stores the contents of any other container. -/
theorem runs_commit_changed {imgRef : ImageRef} {result : Except GoError (String × String × Bool)}
    (hk : Latest earlier k s) (hchanged : ¬ Unchanged k)
    (h : (commit k.builder (some imgRef)).Runs (lib.answers false) s result t) :
    result = .ok ((committedImage lib k).id,
        imgRef.dockerReference ++ "@" ++ (committedImage lib k).id, true) ∧
      t = (lib.commitContainer k imgRef s).2 := by
  have hnot : ¬ (lib.changedPaths k.base k.contents = 0 ∧ k.imageID ≠ "") := by
    rw [lib.changedPaths_eq_zero_iff]
    exact hchanged
  have hcontainer := runs_perform_eq.mp h
  rw [WorkingContainer.builder, perform_container hk] at hcontainer
  have hchanges := runs_perform_eq.mp hcontainer
  rw [perform_changes hk] at hchanges
  dsimp only at hchanges
  rw [if_neg hnot] at hchanges
  have hcommitted := runs_perform_eq.mp hchanges
  rw [perform_builderCommit hk] at hcommitted
  exact Prog.runs_ret_iff.mp hcommitted

/-- A committed image is found under its name. -/
theorem commitContainer_images (k : WorkingContainer κ) (imgRef : ImageRef) (s : Node κ) :
    (lib.commitContainer k imgRef s).2.images imgRef.dockerReference =
      some (committedImage lib k) := by
  simp [Libraries.commitContainer, committedImage]

/-- A committed image is found under its canonical reference. -/
theorem commitContainer_canonical (k : WorkingContainer κ) (imgRef : ImageRef) (s : Node κ) :
    (lib.commitContainer k imgRef s).2.images
        (imgRef.dockerReference ++ "@" ++ (committedImage lib k).id) =
      some (committedImage lib k) := by
  unfold Libraries.commitContainer
  dsimp only
  by_cases hsame : imgRef.dockerReference ++ "@" ++ (committedImage lib k).id =
      imgRef.dockerReference
  · rw [hsame]
    simp [committedImage]
  · rw [Function.update_of_ne hsame]
    exact Function.update_self _ _ _

/-- Pushing a committed image stores it in the registry. -/
theorem runs_pushImage {imgRef destRef : ImageRef} {err : Option GoError}
    (h : (pushImage (imgRef.dockerReference ++ "@" ++ (committedImage lib k).id)
      (committedImage lib k).id destRef).Runs (lib.answers false)
        (lib.commitContainer k imgRef s).2 err t) :
    err = none ∧ t = { (lib.commitContainer k imgRef s).2 with
      registry := Function.update s.registry destRef.dockerReference
        (some (committedImage lib k)) } := by
  have hreference := runs_perform_eq.mp h
  have hcopied := runs_perform_eq.mp hreference
  simp only [Libraries.perform, commitContainer_canonical] at hcopied
  exact Prog.runs_ret_iff.mp hcopied

/-- Parsing the name of a local image changes nothing. -/
theorem runs_storeImageRef {name : String} {parsed : Except GoError ImageRef}
    (h : (storeImageRef name).Runs (lib.answers false) s parsed t) :
    parsed = (lib.parseStoreReference name).mapError .text ∧ t = s := by
  have hparse := runs_perform_eq.mp h
  exact Prog.runs_ret_iff.mp hparse

/-- Without a well-formed name of the local image nothing is published. -/
theorem runs_publish_error {opts : MountOptions} {text : String}
    {result : String × Bool × Option GoError}
    (hlocal : lib.parseStoreReference (localImageName opts) = .error text)
    (h : (publish opts k.builder).Runs (lib.answers false) s result t) :
    result.2.2 = some (.text text) := by
  unfold publish at h
  obtain ⟨localRef, s₁, hparse, hrest⟩ := Prog.runs_bind_iff.mp h
  obtain ⟨hparsed, rfl⟩ := runs_storeImageRef hparse
  rw [hlocal] at hparsed
  subst hparsed
  obtain ⟨rfl, -⟩ := Prog.runs_ret_iff.mp hrest
  rfl

/-- The destination of a push is the image of the options. -/
theorem runs_destinationRef {opts : MountOptions} {ref : ImageRef}
    {dest : Except GoError (Option ImageRef)} (href : lib.imageRefOf opts = .ok ref)
    (h : (destinationRef opts).Runs (lib.answers false) s dest t) :
    dest = .ok (if opts.image = "" then none else some ref) ∧ t = s := by
  unfold destinationRef at h
  split at h
  · rename_i himage
    rw [if_pos himage]
    exact Prog.runs_ret_iff.mp h
  · rename_i himage
    rw [Libraries.imageRefOf, if_neg himage] at href
    rw [if_neg himage]
    obtain ⟨parsed, s₁, hparse, hret⟩ := Prog.runs_bind_iff.mp h
    unfold imageRef at hparse
    rw [if_neg himage] at hparse
    have hparsed := runs_perform_eq.mp hparse
    simp only [Libraries.perform, href, Except.mapError, Prog.pure_eq, Prog.runs_ret_iff] at hparsed
    obtain ⟨rfl, rfl⟩ := hparsed
    exact Prog.runs_ret_iff.mp hret

/-- What publishing a container leaves behind. -/
structure Published (lib : Libraries κ) (opts : MountOptions) (ref : ImageRef)
    (k : WorkingContainer κ) (s t : Node κ) : Prop where
  /-- Containers are not touched. -/
  containers : t.containers = s.containers
  /-- Directories are not touched. -/
  dirs : t.dirs = s.dirs
  /-- Bind mounts are not touched. -/
  binds : t.binds = s.binds
  /-- The context is not touched. -/
  cancelled : t.cancelled = s.cancelled
  /-- The image of an unchanged container stays. -/
  unchanged : Unchanged k → t.stored ref.dockerReference (pullPolicyOf opts) =
    s.stored ref.dockerReference (pullPolicyOf opts)
  /-- The contents of any other container are stored where the next mount looks for them. -/
  changed : ¬ Unchanged k → t.stored ref.dockerReference (pullPolicyOf opts) =
    some (committedImage lib k)

/-- With a well-formed name of the local image the container is published. -/
theorem runs_publish_ok {opts : MountOptions} {localRef ref : ImageRef}
    {result : String × Bool × Option GoError} (hk : Latest earlier k s)
    (hlocal : lib.parseStoreReference (localImageName opts) = .ok localRef)
    (href : lib.imageRefOf opts = .ok ref)
    (h : (publish opts k.builder).Runs (lib.answers false) s result t) :
    result.2.2 = none ∧ Published lib opts ref k s t := by
  unfold publish at h
  obtain ⟨parsed, s₁, hparse, hfound⟩ := Prog.runs_bind_iff.mp h
  obtain ⟨hparsed, rfl⟩ := runs_storeImageRef hparse
  rw [hlocal] at hparsed
  subst hparsed
  obtain ⟨dest, s₂, hdest, hknown⟩ := Prog.runs_bind_iff.mp hfound
  obtain ⟨rfl, rfl⟩ := runs_destinationRef href hdest
  obtain ⟨committed, s₃, hcommit, hrest⟩ := Prog.runs_bind_iff.mp hknown
  by_cases hsame : Unchanged k
  · obtain ⟨rfl, rfl⟩ := runs_commit_unchanged hk hsame hcommit
    have hret : result = (k.imageID, false, none) ∧ t = s₃ := by
      by_cases himage : opts.image = ""
      · rw [if_pos himage] at hrest
        exact Prog.runs_ret_iff.mp hrest
      · rw [if_neg himage] at hrest
        exact Prog.runs_ret_iff.mp hrest
    obtain ⟨rfl, rfl⟩ := hret
    exact ⟨rfl, rfl, rfl, rfl, rfl, fun _ => rfl, fun hchanged => absurd hsame hchanged⟩
  · obtain ⟨rfl, rfl⟩ := runs_commit_changed hk hsame hcommit
    by_cases himage : opts.image = ""
    · rw [if_pos himage] at hrest
      obtain ⟨rfl, rfl⟩ := Prog.runs_ret_iff.mp hrest
      rw [Libraries.imageRefOf, if_pos himage, hlocal, Except.ok.injEq] at href
      subst href
      refine ⟨rfl, rfl, rfl, rfl, rfl, fun h => absurd h hsame, fun _ => ?_⟩
      rw [pullPolicyOf, if_pos himage]
      exact commitContainer_images k localRef _
    · rw [if_neg himage] at hrest
      obtain ⟨err, s₄, hpush, hret⟩ := Prog.runs_bind_iff.mp hrest
      obtain ⟨rfl, rfl⟩ := runs_pushImage hpush
      obtain ⟨rfl, rfl⟩ := Prog.runs_ret_iff.mp hret
      refine ⟨rfl, rfl, rfl, rfl, rfl, fun h => absurd h hsame, fun _ => ?_⟩
      rw [pullPolicyOf, if_neg himage]
      exact Function.update_self _ _ _

/-- A node without an external directory. -/
def withoutDir (s : Node κ) (dir : String) : Node κ :=
  { s with dirs := s.dirs.filter (· ≠ dir), binds := s.binds.filter (· ≠ dir) }

theorem filter_ne_eq_self {dir : String} {dirs : List String} (h : dir ∉ dirs) :
    dirs.filter (· ≠ dir) = dirs := by
  rw [List.filter_eq_self]
  intro d hd
  have hne : d ≠ dir := fun heq => h (heq ▸ hd)
  simpa using hne

/-- `unmountAndDelete` removes the directory and its bind mount. -/
theorem runs_unmountAndDelete {dir : String} {err : Option GoError}
    (h : (unmountAndDelete dir).Runs (lib.answers false) s err t) : t = withoutDir s dir := by
  have hunmount : (lib.perform (.unmount dir) s).2 =
      { s with binds := s.binds.filter (· ≠ dir) } := by
    simp only [Libraries.perform]
    split
    · rfl
    · rename_i hnot
      rw [filter_ne_eq_self hnot]
  have hremoved := runs_perform_eq.mp (runs_perform_eq.mp h)
  rw [hunmount] at hremoved
  have hstate : (lib.perform (.remove dir) { s with binds := s.binds.filter (· ≠ dir) }).2 =
      withoutDir s dir := by
    simp only [Libraries.perform, withoutDir]
    rw [if_neg (by simp)]
    split
    · rfl
    · rename_i hnot
      rw [filter_ne_eq_self hnot]
  rw [hstate] at hremoved
  split at hremoved
  · exact (Prog.runs_ret_iff.mp hremoved).2
  · exact (Prog.runs_ret_iff.mp hremoved).2

theorem runs_unmountIf {needed : Bool} {dir : String} {err : Option GoError}
    (h : (unmountIf needed dir).Runs (lib.answers false) s err t) :
    t = (if needed then withoutDir s dir else s) ∧ (needed = false → err = none) := by
  unfold unmountIf at h
  cases needed with
  | true => exact ⟨runs_unmountAndDelete h, nofun⟩
  | false =>
    obtain ⟨rfl, rfl⟩ := Prog.runs_ret_iff.mp h
    exact ⟨rfl, fun _ => rfl⟩

/-- The volume a call of `Unmount` is about: the last container of the node. -/
structure Unmounting (opts : MountOptions) (name : String) (earlier : List (WorkingContainer κ))
    (k : WorkingContainer κ) (s : Node κ) : Prop where
  /-- The options are valid. -/
  valid : validate opts = none
  /-- The options say which container is meant. -/
  given : ¬ (opts.containerName = "" ∧ opts.extMountDir = "")
  /-- The name of the container. -/
  named : LayerfsStore.containerName opts = .ok name
  /-- The container is the last one. -/
  latest : Latest earlier k s
  /-- It has the name. -/
  hasName : k.name = name
  /-- No other container has the name. -/
  fresh : ∀ j ∈ earlier, j.name ≠ name
  /-- It is mounted at the external directory. -/
  mountDir : k.mountDir.getD "" = opts.extMountDir

/-- The container is found by its name. -/
theorem Unmounting.runs_openContainer {opts : MountOptions} {name : String}
    {opened : Except GoError Builder} (hu : Unmounting opts name earlier k s)
    (h : (openContainer opts name).Runs (lib.answers false) s opened t) :
    opened = .ok k.builder ∧ t = s := by
  have hnone : earlier.find? (·.name == name) = none :=
    List.find?_eq_none.mpr fun j hj => by simpa using hu.fresh j hj
  have hfind : s.containers.find? (·.name == name) = some k := by
    rw [hu.latest.containers, List.find?_append, hnone]
    simp [hu.hasName]
  have hopen := runs_perform_eq.mp h
  simp only [Libraries.perform, hfind, Prog.pure_eq, Prog.runs_ret_iff] at hopen
  exact hopen

/-- The opened container is unmounted and published. -/
theorem Unmounting.runs_unmountBuilder {opts : MountOptions} {name : String}
    {result : String × Bool × Option GoError} (hu : Unmounting opts name earlier k s)
    (hcommit : opts.commit = true)
    (h : (unmountBuilder opts k.builder).Runs (lib.answers false) s result t) :
    Latest earlier { k with mounted := false }
        (s.modify k.id fun k => { k with mounted := false }) ∧
      (publish opts { k with mounted := false }.builder).Runs (lib.answers false)
        (s.modify k.id fun k => { k with mounted := false }) result t := by
  refine ⟨hu.latest.modify (f := fun k => { k with mounted := false }) rfl, ?_⟩
  unfold unmountBuilder at h
  obtain ⟨err, s₁, hif, hrest⟩ := Prog.runs_bind_iff.mp h
  have hneeded : decide (k.builder.mountDir.getD "" ≠ "" ∧
      k.builder.mountDir.getD "" ≠ opts.extMountDir) = false := by
    simp [WorkingContainer.builder, hu.mountDir]
  rw [hneeded] at hif
  obtain ⟨hstate, herr⟩ := runs_unmountIf hif
  rw [hstate, herr rfl] at hrest
  have hunmounted := runs_perform_eq.mp hrest
  have hperform : lib.perform (.builderUnmount k.builder.containerID) s =
      (.ok (), s.modify k.id fun k => { k with mounted := false }) :=
    perform_builderUnmount hu.latest
  simp only [Bool.false_eq_true, if_false] at hunmounted
  rw [hperform] at hunmounted
  simp only [LayerfsStore.failure, hcommit] at hunmounted
  exact hunmounted

/-- The node after the external directory has been released. -/
def released (opts : MountOptions) (s : Node κ) : Node κ :=
  if opts.extMountDir = "" then s else withoutDir s opts.extMountDir

theorem Unmounting.released {opts : MountOptions} {name : String}
    (hu : Unmounting opts name earlier k s) : Unmounting opts name earlier k (released opts s) where
  valid := hu.valid
  given := hu.given
  named := hu.named
  latest := by
    unfold CacheRoundTrip.released
    split
    · exact hu.latest
    · exact ⟨hu.latest.containers, hu.latest.fresh⟩
  hasName := hu.hasName
  fresh := hu.fresh
  mountDir := hu.mountDir

/-- `Unmount` releases the directory, unmounts and publishes the container and
deletes it unless the context is cancelled. -/
theorem Unmounting.runs_unmount {opts : MountOptions} {name : String}
    {value : String × Bool × Option GoError} (hu : Unmounting opts name earlier k s)
    (hcommit : opts.commit = true)
    (h : (LayerfsStore.unmount opts).Runs (lib.answers false) s value t) :
    ∃ s₁ result u, Latest earlier { k with mounted := false } s₁ ∧
      s₁ = (CacheRoundTrip.released opts s).modify k.id (fun k => { k with mounted := false }) ∧
      (publish opts { k with mounted := false }.builder).Runs (lib.answers false) s₁ result u ∧
      ((u.cancelled = true ∧ value = result ∧ t = u) ∨
        (u.cancelled = false ∧ t = (lib.perform (.builderDelete k.id) u).2 ∧
          value.2.2 = (result.2.2 <|>
            LayerfsStore.failure (lib.perform (.builderDelete k.id) u).1))) := by
  unfold LayerfsStore.unmount at h
  have hgiven : decide (opts.containerName = "" ∧ opts.extMountDir = "") = false :=
    decide_eq_false hu.given
  simp only [hgiven, hu.valid, hu.named] at h
  obtain ⟨err, s₁, hif, hopen⟩ := Prog.runs_bind_iff.mp h
  have hreleased : s₁ = CacheRoundTrip.released opts s := by
    rw [(runs_unmountIf hif).1, CacheRoundTrip.released]
    by_cases hext : opts.extMountDir = "" <;> simp [hext]
  subst hreleased
  obtain ⟨opened, s₂, hfound, hrest⟩ := Prog.runs_bind_iff.mp hopen
  obtain ⟨rfl, rfl⟩ := hu.released.runs_openContainer hfound
  obtain ⟨result, u, hbuilder, hfinish⟩ := Prog.runs_bind_iff.mp hrest
  obtain ⟨hlatest, hpublish⟩ := hu.released.runs_unmountBuilder hcommit hbuilder
  refine ⟨_, result, u, hlatest, rfl, hpublish, ?_⟩
  have hdelete := runs_perform_eq.mp hfinish
  split at hdelete
  · rename_i hcancelled
    obtain ⟨rfl, rfl⟩ := Prog.runs_ret_iff.mp hdelete
    exact .inl ⟨hcancelled, rfl, rfl⟩
  · rename_i hcancelled
    have hdeleted := runs_perform_eq.mp hdelete
    obtain ⟨rfl, rfl⟩ := Prog.runs_ret_iff.mp hdeleted
    exact .inr ⟨Bool.eq_false_iff.mpr hcancelled, rfl, rfl⟩

/-- Without a well-formed name of the local image `Unmount` fails. -/
theorem Unmounting.runs_unmount_error {opts : MountOptions} {name text : String}
    {value : String × Bool × Option GoError} (hu : Unmounting opts name earlier k s)
    (hcommit : opts.commit = true)
    (hlocal : lib.parseStoreReference (localImageName opts) = .error text)
    (h : (LayerfsStore.unmount opts).Runs (lib.answers false) s value t) :
    value.2.2 = some (.text text) := by
  obtain ⟨s₁, result, u, -, -, hpublish, hfinish⟩ := hu.runs_unmount hcommit h
  have herr := runs_publish_error hlocal hpublish
  rcases hfinish with ⟨-, rfl, -⟩ | ⟨-, -, hvalue⟩
  · exact herr
  · rw [hvalue, herr]
    rfl

/-- What `Unmount` with a commit leaves behind. -/
structure Unmounted (lib : Libraries κ) (opts : MountOptions) (ref : ImageRef)
    (earlier : List (WorkingContainer κ)) (k : WorkingContainer κ) (s t : Node κ) : Prop where
  /-- The container is gone unless the context was cancelled. -/
  containers : s.cancelled = false → t.containers = earlier
  /-- The external directory is gone. -/
  dirs : opts.extMountDir ≠ "" → opts.extMountDir ∉ t.dirs
  /-- The context is not touched. -/
  cancelled : t.cancelled = s.cancelled
  /-- The image of an unchanged container stays. -/
  unchanged : Unchanged k → t.stored ref.dockerReference (pullPolicyOf opts) =
    s.stored ref.dockerReference (pullPolicyOf opts)
  /-- The contents of any other container are stored where the next mount looks for them. -/
  changed : ¬ Unchanged k → t.stored ref.dockerReference (pullPolicyOf opts) =
    some (committedImage lib k)

/-- Releasing the directory and marking the container touch nothing else. -/
theorem released_modify (opts : MountOptions) (id : String)
    (f : WorkingContainer κ → WorkingContainer κ) (s : Node κ) :
    let u := (released opts s).modify id f
    u.images = s.images ∧ u.registry = s.registry ∧ u.cancelled = s.cancelled ∧
      (opts.extMountDir ≠ "" → opts.extMountDir ∉ u.dirs) := by
  unfold released
  split
  · rename_i hext
    exact ⟨rfl, rfl, rfl, fun hne => absurd hext hne⟩
  · exact ⟨rfl, rfl, rfl, fun _ => by simp [Node.modify, withoutDir]⟩

/-- With a well-formed name of the local image `Unmount` publishes the container. -/
theorem Unmounting.runs_unmount_ok {opts : MountOptions} {name : String} {localRef ref : ImageRef}
    {value : String × Bool × Option GoError} (hu : Unmounting opts name earlier k s)
    (hcommit : opts.commit = true)
    (hlocal : lib.parseStoreReference (localImageName opts) = .ok localRef)
    (href : lib.imageRefOf opts = .ok ref)
    (h : (LayerfsStore.unmount opts).Runs (lib.answers false) s value t) :
    value.2.2 = none ∧ Unmounted lib opts ref earlier k s t := by
  obtain ⟨s₁, result, u, hlatest, hs₁, hpublish, hfinish⟩ := hu.runs_unmount hcommit h
  obtain ⟨himages, hregistry, hcancelled, hdirs⟩ :=
    released_modify opts k.id (fun k => { k with mounted := false }) s
  rw [← hs₁] at himages hregistry hcancelled hdirs
  obtain ⟨hnone, hpublished⟩ := runs_publish_ok hlatest hlocal href hpublish
  have hstored : s₁.stored ref.dockerReference (pullPolicyOf opts) =
      s.stored ref.dockerReference (pullPolicyOf opts) := by
    cases pullPolicyOf opts with
    | never => exact congrFun himages _
    | always => exact congrFun hregistry _
  -- deleting the container keeps images, directories and the context
  have hlatest' : Latest earlier { k with mounted := false } u :=
    ⟨hpublished.containers.trans hlatest.containers, hlatest.fresh⟩
  have hdelete : lib.perform (.builderDelete k.id) u = (.ok (), { u with containers := earlier }) :=
    perform_builderDelete (k := { k with mounted := false }) hlatest'
  have hdirs' : opts.extMountDir ≠ "" → opts.extMountDir ∉ u.dirs := by
    rw [hpublished.dirs]
    exact hdirs
  have hcancelled' : u.cancelled = s.cancelled := hpublished.cancelled.trans hcancelled
  rcases hfinish with ⟨hyes, rfl, rfl⟩ | ⟨hno, rfl, hvalue⟩
  · refine ⟨hnone, ?_, hdirs', hcancelled', ?_, ?_⟩
    · intro hno
      rw [← hcancelled', hyes] at hno
      cases hno
    · intro hsame
      exact (hpublished.unchanged hsame).trans hstored
    · exact hpublished.changed
  · rw [hdelete] at hvalue ⊢
    refine ⟨?_, fun _ => rfl, hdirs', hcancelled', ?_, ?_⟩
    · rw [hvalue, hnone]
      rfl
    · intro hsame
      refine Eq.trans ?_ ((hpublished.unchanged hsame).trans hstored)
      cases pullPolicyOf opts <;> rfl
    · intro hchanged
      refine Eq.trans ?_ (hpublished.changed hchanged)
      cases pullPolicyOf opts <;> rfl

/-- Without failures a container with a free name is created. -/
theorem runs_createBuilder_free {name imageName : String} {pullPolicy : PullPolicy}
    {created : Except GoError Builder} (hne : imageName ≠ "scratch")
    (hfree : name ≠ "" → ∀ j ∈ s.containers, j.name ≠ name)
    (h : (createBuilder name imageName pullPolicy).Runs (lib.answers false) s created t) :
    ∃ builder, created = .ok builder := by
  have hnobody : ¬ (name ≠ "" ∧ ∃ j ∈ s.containers, j.name = name) := by
    rintro ⟨hname, j, hj, hjname⟩
    exact hfree hname j hj hjname
  have hfirst := runs_perform_eq.mp h
  cases hcreate : lib.newBuilder name imageName pullPolicy s with
  | mk outcome s₁ =>
    have hperform : lib.perform (.newBuilder name imageName pullPolicy) s = (outcome, s₁) := hcreate
    rw [hperform] at hfirst
    cases outcome with
    | ok builder => exact ⟨builder, (Prog.runs_ret_iff.mp hfirst).1⟩
    | error text =>
      obtain ⟨-, -, ⟨rfl, -, hmissing⟩ | hused⟩ := newBuilder_error hcreate
      · -- a missing image is replaced by an empty one
        dsimp only at hfirst
        rw [if_neg (by simp [hmissing, hne])] at hfirst
        have hsecond := runs_perform_eq.mp hfirst
        have hscratch : lib.newBuilder name "scratch" .never s₁ =
            (.ok (lib.newContainer name none s₁).builder,
              { s₁ with containers := s₁.containers ++ [lib.newContainer name none s₁] }) := by
          simp only [Libraries.newBuilder, Libraries.pull, if_true]
          rw [if_neg]
          rintro ⟨hname, hmem⟩
          obtain ⟨j, hj, hjname⟩ := List.mem_map.mp hmem
          exact hfree hname j hj hjname
        have hperform' : lib.perform (.newBuilder name "scratch" .never) s₁ = _ := hscratch
        rw [hperform'] at hsecond
        exact ⟨_, (Prog.runs_ret_iff.mp hsecond).1⟩
      · exact absurd hused hnobody

/-- Without failures a container is mounted. -/
theorem runs_mountBuilder_latest {opts : MountOptions} {result : String × Option GoError}
    (hk : Latest earlier k s)
    (h : (mountBuilder opts k.builder).Runs (lib.answers false) s result t) : result.2 = none := by
  have hmount := runs_perform_eq.mp h
  have hmounted : lib.perform (.builderMount k.builder.containerID) s =
      (.ok (lib.mountPoint k.id), s.modify k.id fun k => { k with mounted := true }) :=
    hk.withContainer _
  rw [hmounted] at hmount
  dsimp only at hmount
  split at hmount
  · obtain ⟨rfl, -⟩ := Prog.runs_ret_iff.mp hmount
    rfl
  · have hsave := runs_perform_eq.mp hmount
    have hk₁ := hk.modify (f := fun k => { k with mounted := true }) rfl
    have hsaved : lib.perform (.builderSave k.builder.containerID opts.extMountDir)
        (s.modify k.id fun k => { k with mounted := true }) = (.ok (), _) := hk₁.withContainer _
    rw [hsaved] at hsave
    have hbind := runs_perform_eq.mp hsave
    obtain ⟨rfl, -⟩ := Prog.runs_ret_iff.mp hbind
    rfl

/-- Without failures the reference of the image is found. -/
theorem runs_mountedImageRef_ok {opts : MountOptions} {ref : ImageRef}
    {parsed : Except GoError ImageRef} (href : lib.imageRefOf opts = .ok ref)
    (h : (mountedImageRef opts).Runs (lib.answers false) s parsed t) : parsed = .ok ref := by
  unfold mountedImageRef at h
  unfold Libraries.imageRefOf at href
  split at h
  · rename_i himage
    rw [if_pos himage] at href
    rw [(runs_storeImageRef h).1, href]
    rfl
  · rename_i himage
    rw [if_neg himage] at href
    unfold imageRef at h
    rw [if_neg himage] at h
    have hparsed := runs_perform_eq.mp h
    simp only [Libraries.perform, href] at hparsed
    exact (Prog.runs_ret_iff.mp hparsed).1

/-- Without failures `Mount` succeeds if the name and the directory are free. -/
theorem runs_mount_free {opts : MountOptions} {name : String} {ref : ImageRef}
    {result : String × Option GoError} (hvalid : validate opts = none)
    (hnamed : LayerfsStore.containerName opts = .ok name)
    (href : lib.imageRefOf opts = .ok ref)
    (hdir : opts.extMountDir ≠ "" → opts.extMountDir ∉ s.dirs)
    (hfree : name ≠ "" → ∀ j ∈ s.containers, j.name ≠ name)
    (h : (LayerfsStore.mount opts).Runs (lib.answers false) s result t) : result.2 = none := by
  -- creating and mounting the container succeeds
  have hcontainer : ∀ (s₁ t₁ : Node κ) (result : String × Option GoError),
      s₁.containers = s.containers →
      (mountContainer opts name ref.dockerReference (pullPolicyOf opts)).Runs (lib.answers false)
        s₁ result t₁ → result.2 = none := by
    intro s₁ t₁ result hsame hrun
    obtain ⟨created, s₂, hcreate, hrest⟩ := Prog.runs_bind_iff.mp hrun
    obtain ⟨builder, rfl⟩ := runs_createBuilder_free (Libraries.imageRefOf_ne_scratch href)
      (hsame ▸ hfree) hcreate
    obtain ⟨image, k, rfl, hcreated, -⟩ := runs_createBuilder hcreate
    obtain ⟨mounted, s₃, hmount, hfinish⟩ := Prog.runs_bind_iff.mp hrest
    have hnone := runs_mountBuilder_latest hcreated.latest hmount
    rw [hnone] at hfinish
    obtain ⟨rfl, -⟩ := Prog.runs_ret_iff.mp hfinish
    exact hnone
  unfold LayerfsStore.mount at h
  simp only [hvalid, hnamed] at h
  obtain ⟨parsed, s₁, hparse, hrest⟩ := Prog.runs_bind_iff.mp h
  obtain ⟨rfl, -⟩ := runs_mountedImageRef hparse
  rw [runs_mountedImageRef_ok href hparse] at hrest
  dsimp only at hrest
  split at hrest
  · exact hcontainer _ _ _ rfl hrest
  · rename_i hext
    have hmade : lib.perform (.mkdir opts.extMountDir) s₁ =
        (.ok (), { s₁ with dirs := opts.extMountDir :: s₁.dirs }) := if_neg (hdir hext)
    have hmkdir := runs_perform_eq.mp hrest
    rw [hmade] at hmkdir
    obtain ⟨mounted, s₂, hmount, hfinish⟩ := Prog.runs_bind_iff.mp hmkdir
    have hnone : mounted.2 = none := by
      refine hcontainer _ s₂ _ ?_ hmount
      rfl
    rw [hnone] at hfinish
    obtain ⟨rfl, -⟩ := Prog.runs_ret_iff.mp hfinish
    exact hnone

/-- The files of the container with a name are changed. -/
def writeFiles (s : Node κ) (name : String) (c : κ) : Node κ :=
  { s with containers := s.containers.map fun k =>
      if k.name = name then { k with contents := c } else k }

theorem stored_writeFiles (s : Node κ) (name : String) (c : κ) (imageName : String)
    (pullPolicy : PullPolicy) :
    (writeFiles s name c).stored imageName pullPolicy = s.stored imageName pullPolicy := by
  cases pullPolicy <;> rfl

/-- A container given by its name or its directory has a name. -/
theorem containerName_ne_empty {opts : MountOptions} {name : String}
    (hgiven : opts.containerName ≠ "" ∨ opts.extMountDir ≠ "")
    (h : LayerfsStore.containerName opts = .ok name) : name ≠ "" := by
  unfold LayerfsStore.containerName at h
  split at h
  · rename_i hname
    cases h
    exact hname
  · rename_i hname
    have hext : opts.extMountDir ≠ "" := hgiven.resolve_left hname
    rw [if_pos hext] at h
    dsimp only at h
    split at h
    · cases h
    · cases h
      exact GoPaths.clean_ne_empty _

/-- A mounted volume whose files have been changed can be unmounted. -/
theorem unmounting_of_mounted {opts : MountOptions} {name : String} {image : Option (Image κ)}
    {u : Node κ} (hgiven : opts.containerName ≠ "" ∨ opts.extMountDir ≠ "")
    (h : Mounted lib opts name image k s u) (c : κ) :
    Unmounting { opts with commit := true } name s.containers
      { k.mountedAt opts.extMountDir with contents := c } (writeFiles u name c) := by
  obtain ⟨hkname, hfresh⟩ := h.name (containerName_ne_empty hgiven h.named)
  refine ⟨h.valid, ?_, h.named, ⟨?_, h.latest.fresh⟩, hkname, hfresh, ?_⟩
  · rintro ⟨hname, hext⟩
    rcases hgiven with hne | hne
    · exact hne hname
    · exact hne hext
  · have hearlier : s.containers.map (fun j => if j.name = name then { j with contents := c } else j)
        = s.containers := by
      refine List.map_congr_left (g := id) (fun j hj => ?_) |>.trans (List.map_id _)
      exact if_neg (hfresh j hj)
    have hlast : (k.mountedAt opts.extMountDir).name = name := hkname
    simp [writeFiles, h.latest.containers, hearlier, hlast]
  · by_cases hext : opts.extMountDir = "" <;> simp [WorkingContainer.mountedAt, hext, h.mountDir]

/-- The image to mount depends on the image and the cache only. -/
theorem imageRefOf_congr {opts opts' : MountOptions}
    (hsame : opts'.image = opts.image ∧ opts'.cacheName = opts.cacheName ∧
      opts'.cacheNamespace = opts.cacheNamespace) :
    lib.imageRefOf opts' = lib.imageRefOf opts := by
  obtain ⟨himage, hname, hnamespace⟩ := hsame
  have hlocal : localImageName opts' = localImageName opts := by
    unfold localImageName
    rw [hname, hnamespace]
  unfold Libraries.imageRefOf
  rw [hlocal, himage]

/-- A mount after the volume has been unmounted starts from the contents it had. -/
theorem next_mount_contents {opts opts' : MountOptions} {name dir : String}
    {image : Option (Image κ)} {ref : ImageRef} {c : κ} {u t' : Node κ}
    (hmounted : Mounted lib opts name image k s u)
    (href : lib.imageRefOf opts = .ok ref)
    (himage : image = s.stored ref.dockerReference (pullPolicyOf opts))
    (hkept : u.stored ref.dockerReference (pullPolicyOf opts) =
      s.stored ref.dockerReference (pullPolicyOf opts))
    (hunmounted : Unmounted lib { opts with commit := true } ref s.containers
      { k.mountedAt opts.extMountDir with contents := c } (writeFiles u name c) t)
    (hsame : opts'.image = opts.image ∧ opts'.cacheName = opts.cacheName ∧
      opts'.cacheNamespace = opts.cacheNamespace)
    (h : (LayerfsStore.mount opts').Runs (lib.answers false) t (dir, none) t') :
    ∃ k', t'.containers = t.containers ++ [k'] ∧ k'.contents = c := by
  have hpolicy : pullPolicyOf opts' = pullPolicyOf opts := by
    unfold pullPolicyOf
    rw [hsame.1]
  have hrefs : lib.imageRefOf opts' = lib.imageRefOf opts := imageRefOf_congr hsame
  obtain ⟨name', image', k', hmounted', hstart⟩ := runs_mount h
  obtain ⟨ref', href', himage', -⟩ := hstart rfl
  rw [hrefs, href, Except.ok.injEq] at href'
  subst href'
  rw [hpolicy] at himage'
  refine ⟨_, hmounted'.latest.containers, ?_⟩
  have hcontents : (k'.mountedAt opts'.extMountDir).contents =
      image'.elim lib.scratch (·.contents) := hmounted'.contents
  rw [hcontents, himage']
  by_cases hunchanged : Unchanged { k.mountedAt opts.extMountDir with contents := c }
  · -- the image the volume was mounted from is still there
    have hstored : t.stored ref.dockerReference (pullPolicyOf opts) = image := by
      have hwritten := stored_writeFiles u name c ref.dockerReference (pullPolicyOf opts)
      exact (hunmounted.unchanged hunchanged).trans (hwritten.trans (hkept.trans himage.symm))
    have hbase : c = k.base := hunchanged.1
    rw [hstored, hbase, hmounted.base, hmounted.contents]
  · have hstored : t.stored ref.dockerReference (pullPolicyOf opts) = some _ :=
      hunmounted.changed hunchanged
    rw [hstored]
    rfl

/-- A volume of a cache without an image in a registry. -/
def localVolume : MountOptions :=
  { image := "", containerName := "vol1", extMountDir := "/data/vol1", commit := false
    cacheName := "cache1", cacheNamespace := "default" }

/-- A volume of an image, without the name of a cache. -/
def registryVolume : MountOptions :=
  { localVolume with image := "docker://registry/image1", cacheName := "", cacheNamespace := "" }

/-- A volume is mounted, its files are changed to any contents and it is unmounted
with a commit, all operations of the libraries doing what they are asked for. Then
`Unmount` returns no error and the next mount of the cache starts from these contents
exactly if the name of the local image is well-formed. Mounting again with the same
options then succeeds, unless the context was cancelled and the container stayed. -/
theorem commit_round_trip_iff (lib : Libraries κ) (o : MountOptions)
    (hgiven : o.containerName ≠ "" ∨ o.extMountDir ≠ "") (s : Node κ)
    (hmount : ((LayerfsStore.mount o).eval lib.serve s).1.2 = none) (c : κ) :
    ∃ name, LayerfsStore.containerName o = .ok name ∧
      let mounted := ((LayerfsStore.mount o).eval lib.serve s).2
      let unmounted := (LayerfsStore.unmount { o with commit := true }).eval lib.serve
        (writeFiles mounted name c)
      ((unmounted.1.2.2 = none ∧
        ∀ o', o'.image = o.image ∧ o'.cacheName = o.cacheName ∧
            o'.cacheNamespace = o.cacheNamespace →
          let next := (LayerfsStore.mount o').eval lib.serve unmounted.2
          (next.1.2 = none →
            ∃ k, next.2.containers = unmounted.2.containers ++ [k] ∧ k.contents = c) ∧
          (s.cancelled = false → o'.containerName = o.containerName →
            o'.extMountDir = o.extMountDir → next.1.2 = none)) ↔
        ∃ ref, lib.parseStoreReference (localImageName o) = .ok ref) := by
  have hrun : (LayerfsStore.mount o).Runs (lib.answers false) s
      (((LayerfsStore.mount o).eval lib.serve s).1.1, none)
      ((LayerfsStore.mount o).eval lib.serve s).2 :=
    Prog.runs_eval (lib.answers_serve false) (Prod.ext rfl hmount)
  obtain ⟨name, image, k, hmounted, hstart⟩ := runs_mount hrun
  obtain ⟨ref, href, himage, hkept⟩ := hstart rfl
  refine ⟨name, hmounted.named, ?_⟩
  intro mounted unmounted
  have hunmounting := unmounting_of_mounted hgiven hmounted c
  have hunmount : (LayerfsStore.unmount { o with commit := true }).Runs (lib.answers false)
      (writeFiles mounted name c) unmounted.1 unmounted.2 :=
    Prog.runs_eval (lib.answers_serve false) rfl
  constructor
  · rintro ⟨hnone, -⟩
    cases hlocal : lib.parseStoreReference (localImageName o) with
    | ok localRef => exact ⟨localRef, rfl⟩
    | error text =>
      have herr := hunmounting.runs_unmount_error rfl hlocal hunmount
      rw [hnone] at herr
      cases herr
  · rintro ⟨localRef, hlocal⟩
    obtain ⟨hnone, hunmounted⟩ := hunmounting.runs_unmount_ok rfl hlocal href hunmount
    refine ⟨hnone, ?_⟩
    intro o' hsame next
    constructor
    · intro hnext
      have hagain : (LayerfsStore.mount o').Runs (lib.answers false) unmounted.2
          (next.1.1, none) next.2 :=
        Prog.runs_eval (lib.answers_serve false) (Prod.ext rfl hnext)
      exact next_mount_contents hmounted href himage hkept hunmounted hsame hagain
    · intro hcancelled hname hext
      have hnextRef : lib.imageRefOf o' = .ok ref := (imageRefOf_congr hsame).trans href
      have hnextName : LayerfsStore.containerName o' = .ok name := by
        rw [← hmounted.named]
        unfold LayerfsStore.containerName
        rw [hname, hext]
      have hnextValid : validate o' = none := by
        rw [← hmounted.valid]
        unfold validate
        rw [hsame.1, hsame.2.1, hext]
      have hgone : unmounted.2.containers = s.containers :=
        hunmounted.containers (hmounted.cancelled.trans hcancelled)
      refine runs_mount_free (t := next.2) hnextValid hnextName hnextRef ?_ ?_
        (Prog.runs_eval (lib.answers_serve false) rfl)
      · rw [hext]
        exact hunmounted.dirs
      · intro hne
        rw [hgone]
        exact (hmounted.name hne).2

/-- The contents of a volume of a local cache come back. -/
theorem commit_round_trip_iff_local :
    ((LayerfsStore.mount localVolume).eval numberLibraries.serve emptyNode).1.2 = none ∧
      ∃ name, LayerfsStore.containerName localVolume = .ok name ∧
        ((LayerfsStore.unmount { localVolume with commit := true }).eval numberLibraries.serve
          (writeFiles ((LayerfsStore.mount localVolume).eval numberLibraries.serve emptyNode).2
            name 7)).1.2.2 = none := by
  refine ⟨by decide +kernel, ?_⟩
  obtain ⟨name, hnamed, hiff⟩ := commit_round_trip_iff numberLibraries localVolume
    (.inl (by decide)) emptyNode (by decide +kernel) 7
  have hparsed : ∃ ref, numberLibraries.parseStoreReference (localImageName localVolume) =
      .ok ref := ⟨⟨"localhost/cache/default/cache1:latest"⟩, by decide +kernel⟩
  exact ⟨name, hnamed, (hiff.mpr hparsed).1⟩

/-- A mounted image without the name of a cache cannot be committed: the name of the
local image has empty components. -/
theorem nameless_cache_not_committed :
    let mounted := (LayerfsStore.mount registryVolume).eval numberLibraries.serve emptyNode
    let unmounted := (LayerfsStore.unmount { registryVolume with commit := true }).eval
      numberLibraries.serve (writeFiles mounted.2 "vol1" 7)
    mounted.1.2 = none ∧ unmounted.1.2.2 = some (.text "invalid reference format") := by
  decide +kernel

end K8StorageX.CacheRoundTrip
