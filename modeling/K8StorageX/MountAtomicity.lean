import K8StorageX.StoreOutcomes

/-!
# A failing mount leaves nothing behind

`Mount` undoes what it has done when a step fails. It is followed along the record of its
operations on the node: if the cleanup succeeds, the containers, mounts and directories are
what they were before.
-/

namespace K8StorageX.StoreOutcomes

open ApiProgram NodeAgent GoErrors LayerfsStore ContainerLibraries

section Mounting

variable {κ : Type} {lib : Libraries κ} {s t : Node κ}

/-- The operations by which `Mount` cleans up succeed. -/
def CleanupSucceeds : (r : Req) → Resp r → Prop
  | .layerfs (.builderUnmount _), outcome => outcome = .ok ()
  | .layerfs (.builderDelete _), outcome => outcome = .ok ()
  | .layerfs (.remove _), outcome => outcome = .ok ()
  | _, _ => True

/-- Answers of the libraries with operations that may fail, except for the cleanup. -/
def cleanly (lib : Libraries κ) (r : Req) (s : Node κ) (outcome : Resp r) (t : Node κ) : Prop :=
  lib.answers true r s outcome t ∧ CleanupSucceeds r outcome

/-- The directories, containers and mounts of a node are what they were. -/
structure Undone (s t : Node κ) : Prop where
  /-- No container is left or missing. -/
  containers : t.containers = s.containers
  /-- No bind mount is left or missing. -/
  binds : t.binds = s.binds
  /-- No directory is left or missing. -/
  dirs : ∀ dir, dir ∈ t.dirs ↔ dir ∈ s.dirs

theorem Undone.refl (s : Node κ) : Undone s s := ⟨rfl, rfl, fun _ => Iff.rfl⟩

theorem runs_cleanly {α : Type} {p : Agent α} {value : α} (h : p.Runs (cleanly lib) s value t) :
    p.Runs (lib.answers true) s value t := h.map id fun hanswer => hanswer.1

/-- A failing `NewBuilder` leaves no container. -/
theorem newBuilder_failed {name fromImage text : String} {pullPolicy : PullPolicy}
    (h : lib.answers true (.layerfs (.newBuilder name fromImage pullPolicy)) s (.error text) t) :
    t.containers = s.containers ∧ SameSurroundings s t := by
  rcases h with hperform | ⟨-, text', -, rfl⟩
  · obtain ⟨hcontainers, hsame, -⟩ := newBuilder_error hperform.symm
    exact ⟨hcontainers, hsame⟩
  · exact ⟨rfl, rfl, rfl, rfl, rfl⟩

theorem createBuilder_failed {name imageName : String} {pullPolicy : PullPolicy} {e : GoError}
    (h : (createBuilder name imageName pullPolicy).Runs (lib.answers true) s (.error e) t) :
    t.containers = s.containers ∧ SameSurroundings s t := by
  unfold createBuilder at h
  obtain ⟨outcome, s₁, hanswer, hrest⟩ := runs_perform.mp h
  cases outcome with
  | ok builder => cases (Prog.runs_ret_iff.mp hrest).1
  | error text =>
    obtain ⟨hcontainers, hsame⟩ := newBuilder_failed hanswer
    dsimp only at hrest
    split at hrest
    · obtain ⟨-, rfl⟩ := Prog.runs_ret_iff.mp hrest
      exact ⟨hcontainers, hsame⟩
    · obtain ⟨outcome, s₂, hanswer, hret⟩ := runs_perform.mp hrest
      obtain ⟨hresult, rfl⟩ := Prog.runs_ret_iff.mp hret
      cases outcome with
      | ok builder => cases hresult
      | error text =>
        obtain ⟨hcontainers', hsame'⟩ := newBuilder_failed hanswer
        exact ⟨hcontainers'.trans hcontainers, hsame'.registry.trans hsame.registry,
          hsame'.dirs.trans hsame.dirs, hsame'.binds.trans hsame.binds,
          hsame'.cancelled.trans hsame.cancelled⟩

variable {earlier : List (WorkingContainer κ)} {k : WorkingContainer κ}

/-- An operation does its work or fails without an effect. -/
theorem answers_cases {op : LayerfsOp} {outcome : op.Outcome} {done : op.Outcome × Node κ}
    (h : lib.answers true (.layerfs op) s outcome t) (hperform : lib.perform op s = done) :
    (outcome, t) = done ∨ (∃ text, outcome = failedOutcome text op) ∧ t = s := by
  rcases h with hdone | ⟨-, text, houtcome, ht⟩
  · exact .inl (hdone.trans hperform)
  · exact .inr ⟨⟨text, houtcome⟩, ht⟩

/-- A failing `mountBuilder` leaves the container, and nothing else. -/
theorem mountBuilder_failed {opts : MountOptions} {dir : String} {e : GoError}
    (hk : Latest earlier k s)
    (h : (mountBuilder opts k.builder).Runs (lib.answers true) s (dir, some e) t) :
    ∃ k', Latest earlier k' t ∧ k'.id = k.id ∧ t.dirs = s.dirs ∧ t.binds = s.binds := by
  unfold mountBuilder at h
  obtain ⟨mounted, s₁, hmount, hrest⟩ := runs_perform.mp h
  have hmounts : lib.perform (.builderMount k.id) s =
      (.ok (lib.mountPoint k.id), s.modify k.id fun k => { k with mounted := true }) :=
    hk.withContainer _
  rcases answers_cases hmount hmounts with hdone | ⟨⟨text, rfl⟩, rfl⟩
  · cases hdone
    have hk₁ := hk.modify (f := fun k => { k with mounted := true }) rfl
    dsimp only at hrest
    split at hrest
    · cases (Prog.runs_ret_iff.mp hrest).1
    · obtain ⟨saved, s₂, hsave, hrest⟩ := runs_perform.mp hrest
      have hsaves : lib.perform (.builderSave k.id opts.extMountDir)
          (s.modify k.id fun k => { k with mounted := true }) = (.ok (), _) := hk₁.withContainer _
      rcases answers_cases hsave hsaves with hdone | ⟨⟨text, rfl⟩, rfl⟩
      · cases hdone
        have hk₂ := hk₁.modify (f := fun k => { k with mountDir := some opts.extMountDir }) rfl
        obtain ⟨bound, s₃, hbind, hret⟩ := runs_perform.mp hrest
        obtain ⟨hresult, rfl⟩ := Prog.runs_ret_iff.mp hret
        rcases hbind with hperform | ⟨-, text, -, rfl⟩
        · -- the last step has succeeded
          cases hperform
          cases hresult
        · exact ⟨_, hk₂, rfl, rfl, rfl⟩
      · obtain ⟨-, rfl⟩ := Prog.runs_ret_iff.mp hrest
        exact ⟨_, hk₁, rfl, rfl, rfl⟩
  · obtain ⟨-, rfl⟩ := Prog.runs_ret_iff.mp hrest
    exact ⟨k, hk, rfl, rfl, rfl⟩

/-- The cleanup unmounts the container that was created. -/
theorem cleanup_unmount {unmounted : Except String Unit} (hk : Latest earlier k s)
    (h : cleanly lib (.layerfs (.builderUnmount k.id)) s unmounted t) :
    ∃ k', Latest earlier k' t ∧ k.id = k'.id ∧ t.dirs = s.dirs ∧ t.binds = s.binds := by
  have hunmounted : unmounted = .ok () := h.2
  subst hunmounted
  rcases answers_cases h.1 (CacheRoundTrip.perform_builderUnmount hk) with
    hdone | ⟨⟨text, hfailed⟩, -⟩
  · cases hdone
    exact ⟨_, hk.modify rfl, rfl, rfl, rfl⟩
  · cases hfailed

/-- The cleanup deletes the container that was created. -/
theorem cleanup_delete {deleted : Except String Unit} (hk : Latest earlier k s)
    (h : cleanly lib (.layerfs (.builderDelete k.id)) s deleted t) :
    t.containers = earlier ∧ t.dirs = s.dirs ∧ t.binds = s.binds := by
  have hdeleted : deleted = .ok () := h.2
  subst hdeleted
  rcases answers_cases h.1 (CacheRoundTrip.perform_builderDelete hk) with
    hdone | ⟨⟨text, hfailed⟩, -⟩
  · cases hdone
    exact ⟨rfl, rfl, rfl⟩
  · cases hfailed

/-- A failing `mountContainer` leaves nothing behind. -/
theorem mountContainer_failed {opts : MountOptions} {name imageName dir : String}
    {pullPolicy : PullPolicy} {e : GoError}
    (h : (mountContainer opts name imageName pullPolicy).Runs (cleanly lib) s (dir, some e) t) :
    t.containers = s.containers ∧ t.dirs = s.dirs ∧ t.binds = s.binds := by
  unfold mountContainer at h
  obtain ⟨created, s₁, hcreate, hrest⟩ := Prog.runs_bind_iff.mp h
  cases created with
  | error e =>
    obtain ⟨-, rfl⟩ := Prog.runs_ret_iff.mp hrest
    obtain ⟨hcontainers, hsame⟩ := createBuilder_failed (runs_cleanly hcreate)
    exact ⟨hcontainers, hsame.dirs, hsame.binds⟩
  | ok builder =>
    obtain ⟨image, k, rfl, hcreated, -⟩ := runs_createBuilder (runs_cleanly hcreate)
    obtain ⟨result, s₂, hmount, hrest⟩ := Prog.runs_bind_iff.mp hrest
    split at hrest
    · rename_i hfailed
      rw [Prog.request_bind, Prog.runs_call_iff] at hrest
      obtain ⟨unmounted, s₃, hunmount, hrest⟩ := hrest
      rw [Prog.request_bind, Prog.runs_call_iff] at hrest
      obtain ⟨deleted, s₄, hdelete, hret⟩ := hrest
      obtain ⟨rfl, rfl⟩ := Prog.runs_ret_iff.mp hret
      obtain ⟨k', hk', hid, hdirs, hbinds⟩ :=
        mountBuilder_failed hcreated.latest (runs_cleanly hmount)
      have hbuilder : k.builder.containerID = k'.id := hid.symm
      rw [hbuilder] at hunmount hdelete
      obtain ⟨k'', hk'', hid', hdirs', hbinds'⟩ := cleanup_unmount hk' hunmount
      rw [hid'] at hdelete
      obtain ⟨hcontainers, hdirs'', hbinds''⟩ := cleanup_delete hk'' hdelete
      refine ⟨hcontainers, ?_, ?_⟩
      · rw [hdirs'', hdirs', hdirs, hcreated.same.dirs]
      · rw [hbinds'', hbinds', hbinds, hcreated.same.binds]
    · rename_i hok
      obtain ⟨rfl, -⟩ := Prog.runs_ret_iff.mp hrest
      exact absurd rfl hok

/-- The ways in which `Mount` can go, with the records of its parts. -/
inductive MountParts (opts : MountOptions) : Performed → String × Option GoError → Prop
  /-- The options are rejected. -/
  | rejected {e : GoError} : MountParts opts [] ("", some e)
  /-- The image has no valid name. -/
  | unnamed {refs : Performed} {e : GoError}
      (named : (mountedImageRef opts).Yields refs (.error e)) : MountParts opts refs ("", some e)
  /-- There is no external directory. -/
  | internal {refs steps : Performed} {ref : ImageRef} {name : String}
      {result : String × Option GoError} (noDir : opts.extMountDir = "")
      (named : (mountedImageRef opts).Yields refs (.ok ref))
      (mounted : (mountContainer opts name ref.dockerReference (pullPolicyOf opts)).Yields steps
        result) : MountParts opts (refs ++ steps) result
  /-- The external directory cannot be created. -/
  | occupied {refs : Performed} {ref : ImageRef} {text : String}
      (named : (mountedImageRef opts).Yields refs (.ok ref)) :
      MountParts opts (refs ++ [did (.mkdir opts.extMountDir) (.error text)]) ("", some (.text text))
  /-- The container is mounted. -/
  | mounted {refs steps : Performed} {ref : ImageRef} {name dir : String}
      (named : (mountedImageRef opts).Yields refs (.ok ref))
      (mounted : (mountContainer opts name ref.dockerReference (pullPolicyOf opts)).Yields steps
        (dir, none)) :
      MountParts opts (refs ++ did (.mkdir opts.extMountDir) (.ok ()) :: steps) (dir, none)
  /-- The container cannot be mounted, and the directory is removed. -/
  | failed {refs steps : Performed} {ref : ImageRef} {name dir : String} {e : GoError}
      {removed : Except RemoveError Unit}
      (named : (mountedImageRef opts).Yields refs (.ok ref))
      (failed : (mountContainer opts name ref.dockerReference (pullPolicyOf opts)).Yields steps
        (dir, some e)) :
      MountParts opts (refs ++ did (.mkdir opts.extMountDir) (.ok ()) ::
        (steps ++ [did (.remove opts.extMountDir) removed])) (dir, some e)

theorem yields_mount {opts : MountOptions} {record : Performed} {result : String × Option GoError}
    (h : (LayerfsStore.mount opts).Yields record result) : MountParts opts record result := by
  unfold LayerfsStore.mount at h
  split at h
  · obtain ⟨rfl, rfl⟩ := h
    exact .rejected
  · obtain ⟨rfl, rfl⟩ := h
    exact .rejected
  · rename_i name _ _
    rw [Prog.yields_bind_iff] at h
    obtain ⟨ref, refs, rest, rfl, hnamed, h⟩ := h
    cases ref with
    | error e =>
      obtain ⟨rfl, rfl⟩ := h
      rw [List.append_nil]
      exact .unnamed hnamed
    | ok ref =>
      dsimp only at h
      split at h
      · rename_i hnoDir
        exact .internal hnoDir hnamed h
      · rw [yields_perform] at h
        obtain ⟨made, rest, rfl, h⟩ := h
        cases made with
        | error text =>
          obtain ⟨rfl, rfl⟩ := h
          exact .occupied hnamed
        | ok _ =>
          rw [Prog.yields_bind_iff] at h
          obtain ⟨value, steps, last, rfl, hsteps, h⟩ := h
          obtain ⟨dir, err⟩ := value
          cases err with
          | none =>
            obtain ⟨rfl, rfl⟩ := h
            rw [List.append_nil]
            exact .mounted hnamed hsteps
          | some e =>
            rw [if_pos (show (dir, some e).2.isSome = true from rfl), yields_perform] at h
            obtain ⟨removed, rest, rfl, rfl, rfl⟩ := h
            exact .failed hnamed hsteps

theorem no_removal_of_mountContainer {opts : MountOptions} {record : Performed}
    {name imageName : String} {pullPolicy : PullPolicy} {result : String × Option GoError}
    (h : (mountContainer opts name imageName pullPolicy).Yields record result) (dir : String)
    (outcome : Except RemoveError Unit) : did (.remove dir) outcome ∉ record :=
  not_mem_of_issues (issues_mountContainer _ _ _ _) h (by simp [handlesContainers])

/-- A directory that is created did not exist. -/
theorem mkdir_ok {dir : String} (h : lib.answers true (.layerfs (.mkdir dir)) s (.ok ()) t) :
    dir ∉ s.dirs ∧ t = { s with dirs := dir :: s.dirs } := by
  rcases h with hperform | ⟨-, text, houtcome, -⟩
  · simp only [Libraries.perform] at hperform
    split at hperform
    · cases hperform
    · rename_i hnew
      exact ⟨hnew, congrArg Prod.snd hperform⟩
  · cases houtcome

theorem mkdir_error {dir text : String}
    (h : lib.answers true (.layerfs (.mkdir dir)) s (.error text) t) : t = s := by
  rcases h with hperform | ⟨-, text', -, rfl⟩
  · simp only [Libraries.perform] at hperform
    split at hperform
    · exact congrArg Prod.snd hperform
    · cases hperform
  · rfl

/-- The removal of a directory removes it and nothing else. -/
theorem remove_ok {dir : String} (h : lib.answers true (.layerfs (.remove dir)) s (.ok ()) t) :
    t = { s with dirs := s.dirs.filter (· ≠ dir) } := by
  rcases h with hperform | ⟨-, text, houtcome, -⟩
  · simp only [Libraries.perform] at hperform
    split at hperform
    · cases hperform
    · split at hperform
      · exact congrArg Prod.snd hperform
      · cases hperform
  · cases houtcome

theorem answered_mountedImageRef {opts : MountOptions} {refs : Performed}
    {ref : Except GoError ImageRef} (h : (mountedImageRef opts).Yields refs ref)
    (hanswered : Prog.Answered (cleanly lib) refs s t) : t = s :=
  (runs_mountedImageRef (runs_cleanly (Prog.runs_iff_yields.mpr ⟨refs, h, hanswered⟩))).1

/-- A failing `Mount` leaves the directories, containers and mounts of the node as they
were, provided that its cleanup succeeds. It never removes a directory that existed before. -/
theorem mount_atomic {opts : MountOptions} {record : Performed} {result : String × Option GoError}
    (h : (LayerfsStore.mount opts).Yields record result)
    (hanswered : Prog.Answered (lib.answers true) record s t)
    (hcleanup : ∀ e ∈ record, CleanupSucceeds e.1 e.2) :
    (result.2 ≠ none → Undone s t) ∧
      ∀ dir ∈ s.dirs, ∀ outcome, did (.remove dir) outcome ∉ record := by
  have hclean : Prog.Answered (cleanly lib) record s t := hanswered.restrict hcleanup
  have hnames : ∀ {refs ref}, (mountedImageRef opts).Yields refs ref →
      ∀ dir outcome, did (.remove dir) outcome ∉ refs :=
    fun hnamed => no_removal_of_imageWork
      (issues_mountedImageRef opts : (mountedImageRef opts).Issues (ImageWork false)) hnamed
  cases yields_mount h with
  | rejected =>
    cases hclean
    exact ⟨fun _ => .refl s, fun dir _ outcome hmem => by cases hmem⟩
  | unnamed hnamed =>
    cases answered_mountedImageRef hnamed hclean
    exact ⟨fun _ => .refl _, fun dir _ => hnames hnamed dir⟩
  | @internal refs steps ref name result hnoDir hnamed hmounted =>
    obtain ⟨s₁, hrefs, hsteps⟩ := Prog.answered_append.mp hclean
    cases answered_mountedImageRef hnamed hrefs
    refine ⟨fun hfailed => ?_, fun dir _ outcome hmem => ?_⟩
    · obtain ⟨dir, err⟩ := result
      cases err with
      | none => exact absurd rfl hfailed
      | some e =>
        obtain ⟨hcontainers, hdirs, hbinds⟩ :=
          mountContainer_failed (Prog.runs_iff_yields.mpr ⟨steps, hmounted, hsteps⟩)
        exact ⟨hcontainers, hbinds, fun dir => by rw [hdirs]⟩
    · rcases List.mem_append.mp hmem with hmem | hmem
      · exact hnames hnamed dir outcome hmem
      · exact no_removal_of_mountContainer hmounted dir outcome hmem
  | @occupied refs ref text hnamed =>
    obtain ⟨s₁, hrefs, s₂, hmkdir, hend⟩ := Prog.answered_append.mp hclean
    cases answered_mountedImageRef hnamed hrefs
    cases mkdir_error hmkdir.1
    cases hend
    refine ⟨fun _ => .refl _, fun dir _ outcome hmem => ?_⟩
    rcases List.mem_append.mp hmem with hmem | hmem
    · exact hnames hnamed dir outcome hmem
    · cases List.mem_singleton.mp hmem
  | @mounted refs steps ref name dir hnamed hmounted =>
    refine ⟨fun hfailed => absurd rfl hfailed, fun dir _ outcome hmem => ?_⟩
    rw [List.mem_append, List.mem_cons] at hmem
    rcases hmem with hmem | hmem | hmem
    · exact hnames hnamed dir outcome hmem
    · cases hmem
    · exact no_removal_of_mountContainer hmounted dir outcome hmem
  | @failed refs steps ref name dir e removed hnamed hfailed =>
    obtain ⟨s₁, hrefs, s₂, hmkdir, hrest⟩ := Prog.answered_append.mp hclean
    cases answered_mountedImageRef hnamed hrefs
    obtain ⟨hnew, rfl⟩ := mkdir_ok hmkdir.1
    obtain ⟨s₃, hsteps, s₄, hremove, hend⟩ := Prog.answered_append.mp hrest
    obtain ⟨hcontainers, hdirs, hbinds⟩ :=
      mountContainer_failed (Prog.runs_iff_yields.mpr ⟨steps, hfailed, hsteps⟩)
    have hremoved : removed = .ok () := hremove.2
    subst hremoved
    cases remove_ok hremove.1
    cases hend
    refine ⟨fun _ => ⟨hcontainers, hbinds, fun d => ?_⟩, fun d hd outcome hmem => ?_⟩
    · -- the directory that was created is the one that is removed
      have hmem : d ∈ s₃.dirs ↔ d = opts.extMountDir ∨ d ∈ s.dirs := by rw [hdirs, List.mem_cons]
      rw [List.mem_filter, hmem]
      by_cases hd : d = opts.extMountDir
      · subst hd
        simp [hnew]
      · simp [hd]
    · rw [List.mem_append, List.mem_cons, List.mem_append, List.mem_singleton] at hmem
      rcases hmem with hmem | hmem | hmem | hmem
      · exact hnames hnamed d outcome hmem
      · cases hmem
      · exact no_removal_of_mountContainer hfailed d outcome hmem
      · cases hmem
        exact hnew hd

/-- What is performed for the volume if its directory cannot be bound. -/
def mountSteps : Performed :=
  [did (.parseStoreReference "localhost/cache/default/cache:latest")
      (.ok ⟨"localhost/cache/default/cache:latest"⟩),
    did (.mkdir "/mnt/vol1") (.ok ()),
    did (.newBuilder "vol1" "localhost/cache/default/cache:latest" .never) (.ok ⟨"c", none⟩),
    did (.builderMount "c") (.ok "/var/lib/containers/c"),
    did (.builderSave "c" "/mnt/vol1") (.ok ()),
    did (.mount "/var/lib/containers/c" "/mnt/vol1") (.error "operation not permitted"),
    did (.builderUnmount "c") (.ok ()), did (.builderDelete "c") (.ok ()),
    did (.remove "/mnt/vol1") (.ok ())]

/-- Everything succeeds except for bind mounts; there is no cluster. -/
def unbindable : (r : Req) → Resp r
  | .layerfs (.newBuilder _ _ _) => .ok ⟨"c", none⟩
  | .layerfs (.builderMount _) => .ok "/var/lib/containers/c"
  | .layerfs (.mount _ _) => .error "operation not permitted"
  | r => removing (.ok ()) r

/-- A node with an image under every name. -/
def imageNode : Node ℕ := { emptyNode with images := fun _ => some ⟨"image1", 1⟩ }

theorem answered_mountSteps :
    Prog.Answered (numberLibraries.answers true) mountSteps imageNode imageNode := by
  have hparse : numberLibraries.parseStoreReference "localhost/cache/default/cache:latest" =
      .ok ⟨"localhost/cache/default/cache:latest"⟩ := by decide +kernel
  refine ⟨_, .inl (Prod.ext hparse.symm rfl), _, .inl rfl, _, .inl rfl, _, .inl rfl, _, .inl rfl,
    _, .inr ⟨rfl, _, rfl, rfl⟩, _, .inl rfl, _, .inl rfl, _, .inl rfl, rfl⟩

theorem mount_atomic_unbindable :
    ∃ e, (LayerfsStore.mount externalVolume).Yields mountSteps ("/mnt/vol1", some e) ∧
      Prog.Answered (numberLibraries.answers true) mountSteps imageNode imageNode ∧
      Undone imageNode imageNode := by
  have hvalid : validate externalVolume = none := by decide +kernel
  have hname : containerName externalVolume = .ok "vol1" := rfl
  have h := Prog.yields_respond unbindable (LayerfsStore.mount externalVolume)
  have hrespond : (LayerfsStore.mount externalVolume).respond unbindable =
      (mountSteps, "/mnt/vol1", some (.wrapped "bind mount /var/lib/containers/c to /mnt/vol1"
        (.text "operation not permitted"))) := by
    unfold LayerfsStore.mount
    rw [hvalid, hname]
    rfl
  rw [hrespond] at h
  refine ⟨_, h, answered_mountSteps, (mount_atomic h answered_mountSteps ?_).1 (by simp)⟩
  intro e he
  simp only [mountSteps, List.mem_cons, List.not_mem_nil, or_false] at he
  rcases he with rfl | rfl | rfl | rfl | rfl | rfl | rfl | rfl | rfl
  all_goals first | exact trivial | rfl

end Mounting

end K8StorageX.StoreOutcomes
