import K8StorageX.CacheRoundTrip
import K8StorageX.SynchronizedStore

/-!
# What the parts of an unmount report

`Unmount` carries one error through many steps. Each part of it is followed along the
record of its operations and of the outcomes of these: what has been performed if it
returns no error, and what it returns if a directory could not be removed.
-/

namespace K8StorageX.StoreOutcomes

open ApiProgram NodeAgent GoErrors LayerfsStore ContainerLibraries

/-- Operations with their outcomes, in the order in which they were performed. -/
abbrev Performed : Type := Record Req Resp

/-- One operation with its outcome. -/
abbrev did (op : LayerfsOp) (outcome : op.Outcome) : Σ r, Resp r := ⟨.layerfs op, outcome⟩

section Unmounting

/-- The directory could not be removed. -/
def RemovalFailed (record : Performed) (dir : String) : Prop :=
  ∃ text, did (.remove dir) (.error (.other text)) ∈ record

/-- The directory has been removed, or it did not exist. -/
def Removed (record : Performed) (dir : String) : Prop :=
  (∃ outcome, did (.remove dir) outcome ∈ record) ∧ ¬ RemovalFailed record dir

/-- The container has been found by its name or by its mount path. -/
def Opened (record : Performed) (builder : Builder) : Prop :=
  (∃ name, did (.openBuilder name) (.ok builder) ∈ record) ∨
    ∃ path, did (.openBuilderByPath path) (.ok builder) ∈ record

/-- The image of a container has been pushed to the registry. -/
def Pushed (opts : MountOptions) (record : Performed) (imageID canonical : String) : Prop :=
  ∃ src dest, did (.parseImageName opts.image) (.ok dest) ∈ record ∧
    did (.newStoreReference canonical imageID) (.ok src) ∈ record ∧
    did (.copyImage src dest) (.ok ()) ∈ record

/-- The changes of a container have been committed, and a new image has been pushed if
the cache has one in a registry. Without changes there is nothing to commit. -/
def Published (opts : MountOptions) (builder : Builder) (record : Performed) : Prop :=
  ∃ c changed, did (.container builder.containerID) (.ok c) ∈ record ∧
    did (.changes c.layerID) (.ok changed) ∈ record ∧
    ((changed = 0 ∧ c.imageID ≠ "") ∨
      ∃ ref imageID canonical, did (.parseStoreReference (localImageName opts)) (.ok ref) ∈ record ∧
        did (.builderCommit builder.containerID ref) (.ok (imageID, canonical)) ∈ record ∧
        (opts.image ≠ "" → Pushed opts record imageID canonical))

/-- The container has been unmounted, deleted and published. -/
structure Finished (opts : MountOptions) (record : Performed) : Prop where
  /-- The external directory is gone. -/
  extMountDir : opts.extMountDir ≠ "" → Removed record opts.extMountDir
  /-- What is done with the container. -/
  container : ∃ builder, Opened record builder ∧
    (∀ dir, builder.mountDir = some dir → dir ≠ "" → Removed record dir) ∧
    did (.builderUnmount builder.containerID) (.ok ()) ∈ record ∧
    (did .contextErr true ∈ record ∨ did (.builderDelete builder.containerID) (.ok ()) ∈ record) ∧
    (opts.commit = true → Published opts builder record)

/-- A commit was started after a directory could not be removed. -/
def CommitAfterFailure (record : Performed) : Prop :=
  ∃ earlier later dir text, record = earlier ++ did (.remove dir) (.error (.other text)) :: later ∧
    ∃ id ref outcome, did (.builderCommit id ref) outcome ∈ later

/-- What `Unmount` is to guarantee, whatever the steps yield. -/
structure Honest (opts : MountOptions) (record : Performed)
    (result : String × Bool × Option GoError) : Prop where
  /-- Success is reported for a finished unmount only. -/
  finished : result.2.2 = none → Finished opts record
  /-- Nothing is committed after a failed removal. -/
  noCommit : ¬ CommitAfterFailure record

/-- A commit was started. -/
def CommitStarted (record : Performed) : Prop :=
  ∃ id ref outcome, did (.builderCommit id ref) outcome ∈ record

/-- The external directory could not be removed. -/
def ExternalRemovalFailed (opts : MountOptions) (record : Performed) : Prop :=
  opts.extMountDir ≠ "" ∧ RemovalFailed record opts.extMountDir

/-- The error of a removal. -/
def removalError : Except RemoveError Unit → Option GoError
  | .error (.other text) => some (.text text)
  | _ => none

/-- Outcomes that end `Unmount` with an error before it commits. A container that is not
found by its name is looked up by its path, unless the name was given. -/
def Stops (opts : MountOptions) : (op : LayerfsOp) → op.Outcome → Prop
  | .openBuilder _, outcome => outcome.isOk = false ∧ opts.containerName ≠ ""
  | .openBuilderByPath _, outcome => outcome.isOk = false
  | .remove dir, outcome => removalError outcome ≠ none ∧ dir ≠ opts.extMountDir
  | .builderUnmount _, outcome => outcome.isOk = false
  | .parseStoreReference _, outcome => outcome.isOk = false
  | .parseImageName _, outcome => outcome.isOk = false
  | .container _, outcome => outcome.isOk = false
  | .changes _, outcome => outcome.isOk = false
  | _, _ => False

/-- One of the steps had such an outcome. -/
def Stopped (opts : MountOptions) (record : Performed) : Prop :=
  ∃ op outcome, did op outcome ∈ record ∧ Stops opts op outcome

/-- The container has an image and no changes to it. -/
def Unchanged (record : Performed) : Prop :=
  ∃ id c layerID, did (.container id) (.ok c) ∈ record ∧ c.imageID ≠ "" ∧
    did (.changes layerID) (.ok 0) ∈ record

/-- There is nothing to commit. -/
def NothingToCommit (opts : MountOptions) (record : Performed) : Prop :=
  opts.commit = false ∨ Unchanged record

/-- The container could not be deleted. -/
def DeletionFailed (record : Performed) : Prop :=
  ∃ id text, did (.builderDelete id) (.error text) ∈ record

/-- Another step fails before anything is committed. -/
def Interrupted (opts : MountOptions) (record : Performed) : Prop :=
  Stopped opts record ∨ NothingToCommit opts record ∧ DeletionFailed record

variable {opts : MountOptions} {record : Performed}

theorem yields_perform {α : Type} {op : LayerfsOp} {f : op.Outcome → Agent α} {value : α} :
    (LayerfsStore.perform op >>= f).Yields record value ↔
      ∃ outcome rest, record = did op outcome :: rest ∧ (f outcome).Yields rest value := by
  rw [Prog.request_bind, Prog.yields_call_iff]

@[simp] theorem commitStarted_cons {op : LayerfsOp} {outcome : op.Outcome} :
    CommitStarted (did op outcome :: record) ↔
      (∃ id ref, op = .builderCommit id ref) ∨ CommitStarted record := by
  constructor
  · rintro ⟨id, ref, outcome', hmem⟩
    rcases List.mem_cons.mp hmem with heq | hmem
    · cases heq
      exact .inl ⟨id, ref, rfl⟩
    · exact .inr ⟨id, ref, outcome', hmem⟩
  · rintro (⟨id, ref, rfl⟩ | ⟨id, ref, outcome', hmem⟩)
    · exact ⟨id, ref, outcome, List.mem_cons_self⟩
    · exact ⟨id, ref, outcome', List.mem_cons_of_mem _ hmem⟩

@[simp] theorem commitStarted_nil : ¬ CommitStarted [] := by
  rintro ⟨id, ref, outcome, hmem⟩
  cases hmem

theorem commitStarted_append {rest : Performed} :
    CommitStarted (record ++ rest) ↔ CommitStarted record ∨ CommitStarted rest := by
  simp only [CommitStarted, List.mem_append, exists_or]

theorem CommitAfterFailure.started (h : CommitAfterFailure record) : CommitStarted record := by
  obtain ⟨earlier, later, dir, text, rfl, id, ref, outcome, hmem⟩ := h
  exact ⟨id, ref, outcome, List.mem_append_right _ (List.mem_cons_of_mem _ hmem)⟩

/-- What a program does not request has not been performed. -/
theorem not_mem_of_issues {α : Type} {p : Agent α} {value : α} {kind : Req → Prop}
    (hp : p.Issues kind) (h : p.Yields record value) {op : LayerfsOp} {outcome : op.Outcome}
    (hop : ¬ kind (.layerfs op)) : did op outcome ∉ record :=
  fun hmem => hop (hp.of_yields h _ hmem)

section Kinds

variable {kind : LayerfsOp → Bool}

/-- Only operations of a kind have been performed. -/
def Only (kind : LayerfsOp → Bool) (record : Performed) : Prop :=
  ∀ e ∈ record, ∃ op, e.1 = .layerfs op ∧ kind op = true

@[simp] theorem only_nil : Only kind [] := by
  intro e he
  cases he

@[simp] theorem only_cons {op : LayerfsOp} {outcome : op.Outcome} :
    Only kind (did op outcome :: record) ↔ kind op = true ∧ Only kind record := by
  simp only [Only, List.forall_mem_cons]
  refine and_congr_left fun _ => ?_
  constructor
  · rintro ⟨op', heq, hkind⟩
    cases heq
    exact hkind
  · exact fun hkind => ⟨op, rfl, hkind⟩

theorem Only.not_mem (h : Only kind record) {op : LayerfsOp} {outcome : op.Outcome}
    (hop : kind op = false) : did op outcome ∉ record := by
  intro hmem
  obtain ⟨op', heq, hkind⟩ := h _ hmem
  cases heq
  rw [hop] at hkind
  cases hkind

theorem Only.no_commit (h : Only kind record)
    (hkind : ∀ id ref, kind (.builderCommit id ref) = false) : ¬ CommitStarted record := by
  rintro ⟨id, ref, outcome, hmem⟩
  exact h.not_mem (hkind id ref) hmem

end Kinds

theorem yields_unmountAndDelete {dir : String} {err : Option GoError}
    (h : (unmountAndDelete dir).Yields record err) :
    ∃ unmounted removed, record = [did (.unmount dir) unmounted, did (.remove dir) removed] ∧
      err = removalError removed := by
  rw [unmountAndDelete, yields_perform] at h
  obtain ⟨unmounted, rest, rfl, h⟩ := h
  rw [yields_perform] at h
  obtain ⟨removed, rest, rfl, h⟩ := h
  refine ⟨unmounted, removed, ?_⟩
  cases removed with
  | ok _ =>
    obtain ⟨rfl, rfl⟩ := h
    exact ⟨rfl, rfl⟩
  | error e =>
    cases e with
    | notExist =>
      obtain ⟨rfl, rfl⟩ := h
      exact ⟨rfl, rfl⟩
    | other text =>
      obtain ⟨rfl, rfl⟩ := h
      exact ⟨rfl, rfl⟩

/-- A directory is unmounted and removed only if that is needed. -/
theorem yields_unmountIf {needed : Bool} {dir : String} {err : Option GoError}
    (h : (unmountIf needed dir).Yields record err) :
    (needed = false ∧ record = [] ∧ err = none) ∨ needed = true ∧
      ∃ unmounted removed, record = [did (.unmount dir) unmounted, did (.remove dir) removed] ∧
        err = removalError removed := by
  cases needed with
  | false => exact .inl ⟨rfl, h⟩
  | true => exact .inr ⟨rfl, yields_unmountAndDelete h⟩

/-- The only failing removal is that of the directory, and it is returned. -/
theorem removal_of_unmountIf {needed : Bool} {dir : String} {err : Option GoError}
    (h : (unmountIf needed dir).Yields record err) {d text : String}
    (hfailed : did (.remove d) (.error (.other text)) ∈ record) :
    needed = true ∧ d = dir ∧ err ≠ none := by
  rcases yields_unmountIf h with ⟨-, rfl, -⟩ | ⟨hneeded, unmounted, removed, rfl, rfl⟩
  · cases hfailed
  · rw [List.mem_cons, List.mem_singleton] at hfailed
    rcases hfailed with hfailed | hfailed
    · cases hfailed
    · cases hfailed
      exact ⟨hneeded, rfl, by simp [removalError]⟩

theorem no_commit_of_unmountIf {needed : Bool} {dir : String} {err : Option GoError}
    (h : (unmountIf needed dir).Yields record err) : ¬ CommitStarted record := by
  rcases yields_unmountIf h with ⟨-, rfl, -⟩ | ⟨-, unmounted, removed, rfl, -⟩
  · exact commitStarted_nil
  · simp

/-- A needed removal takes place. -/
theorem removes_of_unmountIf {dir : String} {err : Option GoError}
    (h : (unmountIf true dir).Yields record err) : ∃ outcome, did (.remove dir) outcome ∈ record := by
  rcases yields_unmountIf h with ⟨hneeded, -⟩ | ⟨-, unmounted, removed, rfl, -⟩
  · cases hneeded
  · exact ⟨removed, by simp⟩

/-- Operations that neither remove a directory nor commit. -/
def quiet : LayerfsOp → Bool
  | .remove _ => false
  | .builderCommit _ _ => false
  | _ => true

theorem quiet_openContainer {name : String} {opened : Except GoError Builder}
    (h : (openContainer opts name).Yields record opened) : Only quiet record := by
  have hissues : (openContainer opts name).Issues fun r =>
      ∃ op, r = .layerfs op ∧ quiet op = true := by
    simp only [openContainer, Prog.request_bind, Prog.issues_call]
    refine ⟨⟨_, rfl, rfl⟩, fun opened => ?_⟩
    split
    · exact trivial
    · split
      · exact ⟨⟨_, rfl, rfl⟩, fun _ => trivial⟩
      · exact trivial
  exact hissues.of_yields h

/-- An opened container has been found. -/
theorem opened_of_yields {name : String} {builder : Builder}
    (h : (openContainer opts name).Yields record (.ok builder)) : Opened record builder := by
  rw [openContainer, yields_perform] at h
  obtain ⟨opened, rest, rfl, h⟩ := h
  cases opened with
  | ok found =>
    obtain ⟨rfl, heq⟩ := h
    cases heq
    exact .inl ⟨name, List.mem_cons_self⟩
  | error text =>
    dsimp only at h
    split at h
    · rw [yields_perform] at h
      obtain ⟨opened, rest, rfl, rfl, heq⟩ := h
      cases opened with
      | ok found =>
        cases heq
        exact .inr ⟨_, List.mem_cons_of_mem _ List.mem_cons_self⟩
      | error text => cases heq
    · cases h.2

/-- A successful `commit` has stored the changes, if there are any. -/
theorem commit_of_yields {builder : Builder} {ref : ImageRef} {imageID canonical : String}
    {newImage : Bool}
    (h : (commit builder (some ref)).Yields record (.ok (imageID, canonical, newImage))) :
    ∃ c changed, did (.container builder.containerID) (.ok c) ∈ record ∧
      did (.changes c.layerID) (.ok changed) ∈ record ∧
      ((newImage = false ∧ changed = 0 ∧ c.imageID ≠ "") ∨ newImage = true ∧
        did (.builderCommit builder.containerID ref) (.ok (imageID, canonical)) ∈ record) := by
  rw [commit, yields_perform] at h
  obtain ⟨container, rest, rfl, h⟩ := h
  cases container with
  | error text => cases h.2
  | ok c =>
    rw [yields_perform] at h
    obtain ⟨changes, rest, rfl, h⟩ := h
    cases changes with
    | error text => cases h.2
    | ok changed =>
      refine ⟨c, changed, by simp, by simp, ?_⟩
      dsimp only at h
      split at h
      · rename_i hunchanged
        obtain ⟨rfl, heq⟩ := h
        cases heq
        exact .inl ⟨rfl, hunchanged⟩
      · rw [yields_perform] at h
        obtain ⟨committed, rest, rfl, h⟩ := h
        cases committed with
        | error text => cases h.2
        | ok image =>
          obtain ⟨rfl, heq⟩ := h
          cases heq
          exact .inr ⟨rfl, by simp⟩

/-- A successful `pushImage` has copied the image. -/
theorem pushImage_of_yields {canonical imageID : String} {dest : ImageRef}
    (h : (pushImage canonical imageID dest).Yields record none) :
    ∃ src, did (.newStoreReference canonical imageID) (.ok src) ∈ record ∧
      did (.copyImage src dest) (.ok ()) ∈ record := by
  rw [pushImage, yields_perform] at h
  obtain ⟨reference, rest, rfl, h⟩ := h
  cases reference with
  | error text => cases h.2
  | ok src =>
    rw [yields_perform] at h
    obtain ⟨copied, rest, rfl, rfl, heq⟩ := h
    cases copied with
    | error text => cases heq
    | ok _ => exact ⟨src, by simp, by simp⟩

theorem storeImageRef_of_yields {name : String} {ref : ImageRef}
    (h : (storeImageRef name).Yields record (.ok ref)) :
    did (.parseStoreReference name) (.ok ref) ∈ record := by
  rw [storeImageRef, yields_perform] at h
  obtain ⟨parsed, rest, rfl, rfl, heq⟩ := h
  cases parsed with
  | error text => cases heq
  | ok found =>
    cases heq
    exact List.mem_cons_self

/-- The destination of a push is the image of the options. -/
theorem destinationRef_of_yields {dest : Option ImageRef}
    (h : (destinationRef opts).Yields record (.ok dest)) (himage : opts.image ≠ "") :
    ∃ ref, dest = some ref ∧ did (.parseImageName opts.image) (.ok ref) ∈ record := by
  rw [destinationRef, if_neg himage, Prog.yields_bind_iff] at h
  obtain ⟨found, first, last, rfl, h, rfl, heq⟩ := h
  rw [imageRef, if_neg himage, yields_perform] at h
  obtain ⟨parsed, rest, rfl, rfl, rfl⟩ := h
  cases parsed with
  | error text => cases heq
  | ok ref =>
    cases heq
    exact ⟨ref, rfl, by simp⟩

/-- A successful `publish` has committed the changes and pushed a new image. -/
theorem published_of_yields {builder : Builder} {result : String × Bool × Option GoError}
    (h : (publish opts builder).Yields record result) (hok : result.2.2 = none) :
    Published opts builder record := by
  rw [publish, Prog.yields_bind_iff] at h
  obtain ⟨localRef, first, rest, rfl, hlocal, h⟩ := h
  cases localRef with
  | error e =>
    rw [h.2] at hok
    cases hok
  | ok ref =>
    have hparsed := storeImageRef_of_yields hlocal
    rw [Prog.yields_bind_iff] at h
    obtain ⟨destRef, second, rest, rfl, hdest, h⟩ := h
    cases destRef with
    | error e =>
      rw [h.2] at hok
      cases hok
    | ok dest =>
      rw [Prog.yields_bind_iff] at h
      obtain ⟨committed, third, last, rfl, hcommit, h⟩ := h
      cases committed with
      | error e =>
        rw [h.2] at hok
        cases hok
      | ok image =>
        obtain ⟨imageID, canonical, newImage⟩ := image
        obtain ⟨c, changed, hc, hchanged, hcase⟩ := commit_of_yields hcommit
        refine ⟨c, changed, by simp [hc], by simp [hchanged], ?_⟩
        rcases hcase with ⟨-, hunchanged⟩ | ⟨rfl, hstored⟩
        · exact .inl hunchanged
        · refine .inr ⟨ref, imageID, canonical, by simp [hparsed], by simp [hstored], ?_⟩
          intro himage
          obtain ⟨dest, rfl, hfound⟩ := destinationRef_of_yields hdest himage
          dsimp only at h
          rw [Prog.yields_bind_iff] at h
          obtain ⟨err, fourth, last, rfl, hpush, h⟩ := h
          cases err with
          | some e =>
            rw [h.2] at hok
            cases hok
          | none =>
            obtain ⟨src, hsrc, hcopied⟩ := pushImage_of_yields hpush
            exact ⟨src, dest, by simp [hfound], by simp [hsrc], by simp [hcopied]⟩

/-- Work on images removes no directory. -/
theorem no_removal_of_imageWork {α : Type} {p : Agent α} {value : α} {commit : Bool}
    (hp : p.Issues (ImageWork commit)) (h : p.Yields record value) (dir : String)
    (outcome : Except RemoveError Unit) : did (.remove dir) outcome ∉ record :=
  not_mem_of_issues hp h (by simp [handlesImages])

/-- The steps on an opened container. It is published only if nothing has failed. -/
theorem yields_unmountBuilder {builder : Builder} {result : String × Bool × Option GoError}
    (h : (unmountBuilder opts builder).Yields record result) :
    ∃ err first unmounted rest, record = first ++ did (.builderUnmount builder.containerID) unmounted :: rest ∧
      (unmountIf (builder.mountDir.getD "" ≠ "" ∧ builder.mountDir.getD "" ≠ opts.extMountDir)
        (builder.mountDir.getD "")).Yields first err ∧
      ((rest = [] ∧ result.2.2 = (err <|> failure unmounted) ∧
          (result.2.2 = none → opts.commit = false)) ∨
        err = none ∧ failure unmounted = none ∧ opts.commit = true ∧
          (publish opts builder).Yields rest result) := by
  rw [unmountBuilder, Prog.yields_bind_iff] at h
  obtain ⟨err, first, last, rfl, hfirst, h⟩ := h
  rw [yields_perform] at h
  obtain ⟨unmounted, rest, rfl, h⟩ := h
  refine ⟨err, first, unmounted, rest, rfl, hfirst, ?_⟩
  dsimp only at h
  split at h
  · rename_i hstop
    obtain ⟨rfl, rfl⟩ := h
    refine .inl ⟨rfl, rfl, ?_⟩
    intro hnone
    dsimp only at hnone
    rw [hnone] at hstop
    simpa using hstop
  · rename_i hcontinue
    have hnone : (err <|> failure unmounted) = none :=
      Option.not_isSome_iff_eq_none.mp fun hsome => hcontinue (.inl hsome)
    obtain ⟨herr, hunmounted⟩ := (Option.orElse_eq_none _ _).mp hnone
    have hrequested : opts.commit = true := by
      cases hcommit : opts.commit with
      | false => exact absurd (.inr hcommit) hcontinue
      | true => rfl
    exact .inr ⟨herr, hunmounted, hrequested, h⟩

/-- A call of `Unmount` in its parts, once the options are accepted. -/
def Unmounted (opts : MountOptions) (builder : Builder) (record : Performed)
    (result body : String × Bool × Option GoError) : Prop :=
  ∃ extErr name ext opening steps cancelled last,
    record = ext ++ (opening ++ (steps ++ did .contextErr cancelled :: last)) ∧
    (unmountIf (opts.extMountDir ≠ "") opts.extMountDir).Yields ext extErr ∧
    (openContainer opts name).Yields opening (.ok builder) ∧
    (unmountBuilder opts builder).Yields steps body ∧
    ((cancelled = true ∧ last = [] ∧ result = body) ∨
      ∃ deleted, last = [did (.builderDelete builder.containerID) deleted] ∧
        result.2.2 = (body.2.2 <|> failure deleted))

/-- `Unmount` rejects the options, does not find the container or goes through all parts. -/
theorem yields_unmount {result : String × Bool × Option GoError}
    (h : (unmount opts).Yields record result) :
    (record = [] ∧ result.2.2 ≠ none) ∨
      (∃ extErr name ext opening e, record = ext ++ opening ∧
        (unmountIf (opts.extMountDir ≠ "") opts.extMountDir).Yields ext extErr ∧
        (openContainer opts name).Yields opening (.error e) ∧ result.2.2 ≠ none) ∨
      ∃ builder body, Unmounted opts builder record result body := by
  unfold unmount at h
  dsimp only at h
  split at h
  · obtain ⟨rfl, rfl⟩ := h
    exact .inl ⟨rfl, by simp⟩
  · obtain ⟨rfl, rfl⟩ := h
    exact .inl ⟨rfl, by simp⟩
  · obtain ⟨rfl, rfl⟩ := h
    exact .inl ⟨rfl, by simp⟩
  · rename_i name _ _ _
    rw [Prog.yields_bind_iff] at h
    obtain ⟨extErr, ext, rest, rfl, hext, h⟩ := h
    rw [Prog.yields_bind_iff] at h
    obtain ⟨opened, opening, rest, rfl, hopened, h⟩ := h
    cases opened with
    | error e =>
      obtain ⟨rfl, rfl⟩ := h
      exact .inr (.inl ⟨extErr, name, ext, opening, e, by simp, hext, hopened, by simp⟩)
    | ok builder =>
      rw [Prog.yields_bind_iff] at h
      obtain ⟨body, steps, rest, rfl, hsteps, h⟩ := h
      rw [yields_perform] at h
      obtain ⟨cancelled, last, rfl, h⟩ := h
      refine .inr (.inr ⟨builder, body, extErr, name, ext, opening, steps, cancelled, last, rfl,
        hext, hopened, hsteps, ?_⟩)
      split at h
      · rename_i hcancelled
        exact .inl ⟨hcancelled, h.1, h.2⟩
      · rw [yields_perform] at h
        obtain ⟨deleted, rest, rfl, rfl, rfl⟩ := h
        exact .inr ⟨deleted, rfl, rfl⟩

theorem Published.mono {builder : Builder} {later : Performed}
    (h : Published opts builder record) (hsub : record ⊆ later) : Published opts builder later := by
  obtain ⟨c, changed, hc, hchanged, hcase⟩ := h
  refine ⟨c, changed, hsub hc, hsub hchanged, hcase.imp_right ?_⟩
  rintro ⟨ref, imageID, canonical, hparsed, hstored, hpushed⟩
  refine ⟨ref, imageID, canonical, hsub hparsed, hsub hstored, fun himage => ?_⟩
  obtain ⟨src, dest, hdest, hsrc, hcopied⟩ := hpushed himage
  exact ⟨src, dest, hsub hdest, hsub hsrc, hsub hcopied⟩

/-- A failing removal of the recorded directory is returned, and nothing is committed. -/
theorem removal_of_unmountBuilder {builder : Builder} {body : String × Bool × Option GoError}
    (h : (unmountBuilder opts builder).Yields record body) {d text : String}
    (hfailed : did (.remove d) (.error (.other text)) ∈ record) :
    d ≠ opts.extMountDir ∧ body.2.2 ≠ none ∧ ¬ CommitStarted record := by
  obtain ⟨err, first, unmounted, rest, rfl, hfirst, hrest⟩ := yields_unmountBuilder h
  rw [List.mem_append, List.mem_cons] at hfailed
  rcases hfailed with hfailed | hfailed | hfailed
  · obtain ⟨hneeded, rfl, herr⟩ := removal_of_unmountIf hfirst hfailed
    have hother := (of_decide_eq_true hneeded).2
    rcases hrest with ⟨rfl, hbody, -⟩ | ⟨hnone, -⟩
    · refine ⟨hother, ?_, ?_⟩
      · rw [hbody]
        exact fun hnone => herr ((Option.orElse_eq_none _ _).mp hnone).1
      · rw [commitStarted_append]
        simp [no_commit_of_unmountIf hfirst]
    · exact absurd hnone herr
  · cases hfailed
  · rcases hrest with ⟨rfl, -⟩ | ⟨-, -, -, hpublish⟩
    · cases hfailed
    · exact absurd hfailed (no_removal_of_imageWork (issues_publish opts builder) hpublish d _)

/-- Without an error the recorded directory is removed, the container is unmounted and,
if requested, published. -/
theorem finished_of_unmountBuilder {builder : Builder} {body : String × Bool × Option GoError}
    (h : (unmountBuilder opts builder).Yields record body) (hnone : body.2.2 = none) :
    (∀ dir, builder.mountDir = some dir → dir ≠ "" → dir ≠ opts.extMountDir →
        ∃ outcome, did (.remove dir) outcome ∈ record) ∧
      did (.builderUnmount builder.containerID) (.ok ()) ∈ record ∧
      (opts.commit = true → Published opts builder record) := by
  obtain ⟨err, first, unmounted, rest, rfl, hfirst, hrest⟩ := yields_unmountBuilder h
  have hunmounted : failure unmounted = none := by
    rcases hrest with ⟨-, hbody, -⟩ | ⟨-, hunmounted, -⟩
    · rw [hbody] at hnone
      exact ((Option.orElse_eq_none _ _).mp hnone).2
    · exact hunmounted
  refine ⟨?_, ?_, ?_⟩
  · intro dir hdir hne hother
    have hneeded : decide (builder.mountDir.getD "" ≠ "" ∧
        builder.mountDir.getD "" ≠ opts.extMountDir) = true := by simp [hdir, hne, hother]
    rw [hneeded, hdir, Option.getD_some] at hfirst
    obtain ⟨outcome, houtcome⟩ := removes_of_unmountIf hfirst
    exact ⟨outcome, List.mem_append_left _ houtcome⟩
  · cases unmounted with
    | ok _ => simp
    | error text => cases hunmounted
  · intro hcommit
    rcases hrest with ⟨-, -, hskipped⟩ | ⟨-, -, -, hpublish⟩
    · rw [hskipped hnone] at hcommit
      cases hcommit
    · refine (published_of_yields hpublish hnone).mono fun e he => ?_
      exact List.mem_append_right _ (List.mem_cons_of_mem _ he)

section Parts

variable {builder : Builder} {result body : String × Bool × Option GoError}

/-- The last steps of `Unmount`: the container is deleted unless the context is cancelled. -/
theorem last_steps {cancelled : Bool} {last : Performed}
    (h : (cancelled = true ∧ last = [] ∧ result = body) ∨
      ∃ deleted, last = [did (.builderDelete builder.containerID) deleted] ∧
        result.2.2 = (body.2.2 <|> failure deleted)) :
    Only quiet (did .contextErr cancelled :: last) ∧
      (result.2.2 = none → body.2.2 = none ∧
        (did .contextErr true ∈ did .contextErr cancelled :: last ∨
          did (.builderDelete builder.containerID) (.ok ()) ∈ did .contextErr cancelled :: last)) := by
  rcases h with ⟨rfl, rfl, rfl⟩ | ⟨deleted, rfl, hresult⟩
  · exact ⟨by simp [quiet], fun hnone => ⟨hnone, .inl List.mem_cons_self⟩⟩
  · constructor
    · simp [quiet]
    · intro hnone
      rw [hresult] at hnone
      obtain ⟨hbody, hdeleted⟩ := (Option.orElse_eq_none _ _).mp hnone
      refine ⟨hbody, .inr ?_⟩
      cases deleted with
      | ok _ => simp
      | error text => cases hdeleted

/-- A failing removal is that of the external directory and comes before every commit, or
it is returned and nothing is committed. -/
theorem Unmounted.removal (h : Unmounted opts builder record result body) {d text : String}
    (hfailed : did (.remove d) (.error (.other text)) ∈ record) :
    (d = opts.extMountDir ∧ opts.extMountDir ≠ "" ∧
        (CommitStarted record → CommitAfterFailure record)) ∨
      d ≠ opts.extMountDir ∧ body.2.2 ≠ none ∧ ¬ CommitStarted record := by
  obtain ⟨extErr, name, ext, opening, steps, cancelled, last, rfl, hext, hopened, hsteps, hlast⟩ := h
  have hopening := quiet_openContainer hopened
  have hend := (last_steps hlast).1
  rw [List.mem_append, List.mem_append, List.mem_append] at hfailed
  rcases hfailed with hfailed | hfailed | hfailed | hfailed
  · obtain ⟨hneeded, rfl, -⟩ := removal_of_unmountIf hext hfailed
    refine .inl ⟨rfl, of_decide_eq_true hneeded, ?_⟩
    rintro ⟨id, ref, outcome, hcommit⟩
    rcases List.mem_append.mp hcommit with hbefore | hafter
    · exact absurd ⟨id, ref, outcome, hbefore⟩ (no_commit_of_unmountIf hext)
    · obtain ⟨earlier, later, rfl⟩ := List.append_of_mem hfailed
      exact ⟨earlier, later ++ (opening ++ (steps ++ did .contextErr cancelled :: last)),
        opts.extMountDir, text, by simp, id, ref, outcome, List.mem_append_right _ hafter⟩
  · exact absurd hfailed (hopening.not_mem rfl)
  · obtain ⟨hother, hbody, hcommit⟩ := removal_of_unmountBuilder hsteps hfailed
    refine .inr ⟨hother, hbody, ?_⟩
    rw [commitStarted_append, commitStarted_append, commitStarted_append]
    rintro (hstarted | hstarted | hstarted | hstarted)
    · exact no_commit_of_unmountIf hext hstarted
    · exact hopening.no_commit (fun _ _ => rfl) hstarted
    · exact hcommit hstarted
    · exact hend.no_commit (fun _ _ => rfl) hstarted
  · exact absurd hfailed (hend.not_mem rfl)

/-- Without an error everything is finished, unless the external directory stayed. -/
theorem Unmounted.finished (h : Unmounted opts builder record result body)
    (hnone : result.2.2 = none) (hremoved : ¬ ExternalRemovalFailed opts record) :
    Finished opts record := by
  have hbody : body.2.2 = none := by
    obtain ⟨_, _, _, _, _, _, _, _, _, _, _, hlast⟩ := h
    exact ((last_steps hlast).2 hnone).1
  have hclean : ∀ d, ¬ RemovalFailed record d := by
    rintro d ⟨text, hfailed⟩
    rcases h.removal hfailed with ⟨rfl, hne, -⟩ | ⟨-, hsome, -⟩
    · exact hremoved ⟨hne, text, hfailed⟩
    · exact hsome hbody
  obtain ⟨extErr, name, ext, opening, steps, cancelled, last, rfl, hext, hopened, hsteps, hlast⟩ := h
  obtain ⟨hdir, hunmounted, hpublished⟩ := finished_of_unmountBuilder hsteps hbody
  have hsteps_sub : steps ⊆ ext ++ (opening ++ (steps ++ did .contextErr cancelled :: last)) :=
    fun e he => by simp [he]
  have hgone : opts.extMountDir ≠ "" →
      Removed (ext ++ (opening ++ (steps ++ did .contextErr cancelled :: last))) opts.extMountDir := by
    intro hne
    rw [decide_eq_true hne] at hext
    obtain ⟨outcome, houtcome⟩ := removes_of_unmountIf hext
    exact ⟨⟨outcome, List.mem_append_left _ houtcome⟩, hclean _⟩
  refine ⟨hgone, builder, ?_, ?_, hsteps_sub hunmounted, ?_, fun hcommit => ?_⟩
  · exact (opened_of_yields hopened).imp (fun ⟨name, hmem⟩ => ⟨name, by simp [hmem]⟩)
      fun ⟨path, hmem⟩ => ⟨path, by simp [hmem]⟩
  · intro dir hrecorded hne
    by_cases hsame : dir = opts.extMountDir
    · exact hsame ▸ hgone (hsame ▸ hne)
    · obtain ⟨outcome, houtcome⟩ := hdir dir hrecorded hne hsame
      exact ⟨⟨outcome, hsteps_sub houtcome⟩, hclean dir⟩
  · refine ((last_steps hlast).2 hnone).2.imp (fun hmem => ?_) fun hmem => ?_
    · exact List.mem_append_right _ (List.mem_append_right _ (List.mem_append_right _ hmem))
    · exact List.mem_append_right _ (List.mem_append_right _ (List.mem_append_right _ hmem))
  · exact (hpublished hcommit).mono hsteps_sub

end Parts

end Unmounting

section Samples

/-- A volume with an external directory, whose container is committed. -/
def externalVolume : MountOptions := ⟨"", "vol1", "/mnt/vol1", true, "cache", "default"⟩

/-- Everything succeeds except for the removal of directories; there is no cluster. -/
def removing (removed : Except RemoveError Unit) : (r : Req) → Resp r
  | .layerfs (.remove _) => removed
  | .layerfs op => SynchronizedStore.succeeding.layerfs op
  | .enterUnmount _ => ()
  | .cache r => ((⟨none, 0, 0⟩ : OptimisticStore.Cell CacheModel.Cache).serve
      CacheUpdater.cacheSpec none r).1

end Samples

end K8StorageX.StoreOutcomes
