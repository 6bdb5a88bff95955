import K8StorageX.StoreOutcomes

/-!
# When the error of an unmount can be trusted

A step that fails before the commit stops `Unmount` with an error, except for the removal
of the external directory. So `Unmount` is honest exactly if that removal has not failed,
or another step has stopped it.
-/

namespace K8StorageX.StoreOutcomes

open ApiProgram NodeAgent GoErrors LayerfsStore ContainerLibraries

section Honesty

variable {opts : MountOptions} {record : Performed}

section Interruptions

variable {first rest : Performed} {err : Option GoError}

@[simp] theorem stopped_nil : ¬ Stopped opts [] := by
  rintro ⟨op, outcome, hmem, -⟩
  cases hmem

@[simp] theorem stopped_cons {op : LayerfsOp} {outcome : op.Outcome} :
    Stopped opts (did op outcome :: rest) ↔ Stops opts op outcome ∨ Stopped opts rest := by
  constructor
  · rintro ⟨op', outcome', hmem, hstops⟩
    rcases List.mem_cons.mp hmem with heq | hmem
    · cases heq
      exact .inl hstops
    · exact .inr ⟨op', outcome', hmem, hstops⟩
  · rintro (hstops | ⟨op', outcome', hmem, hstops⟩)
    · exact ⟨op, outcome, List.mem_cons_self, hstops⟩
    · exact ⟨op', outcome', List.mem_cons_of_mem _ hmem, hstops⟩

theorem stopped_append : Stopped opts (first ++ rest) ↔ Stopped opts first ∨ Stopped opts rest := by
  simp only [Stopped, List.mem_append, or_and_right, exists_or]

/-- Operations besides those of a commit. -/
def aside : LayerfsOp → Bool
  | .container _ => false
  | .changes _ => false
  | .builderCommit _ _ => false
  | _ => true

/-- Around a commit nothing else counts. -/
theorem mem_around {before after : Performed} (hbefore : Only aside before) (hafter : Only aside after)
    {op : LayerfsOp} {outcome : op.Outcome} (hop : aside op = false) :
    did op outcome ∈ before ++ (record ++ after) ↔ did op outcome ∈ record := by
  rw [List.mem_append, List.mem_append]
  constructor
  · rintro (hmem | hmem | hmem)
    · exact absurd hmem (hbefore.not_mem hop)
    · exact hmem
    · exact absurd hmem (hafter.not_mem hop)
  · exact fun hmem => .inr (.inl hmem)

/-- How the part of `Unmount` up to the commit ends. -/
def Course (opts : MountOptions) (record : Performed) (err : Option GoError) : Prop :=
  (Stopped opts record ∧ ¬ CommitStarted record ∧ err ≠ none) ∨
    (¬ Stopped opts record ∧ CommitStarted record ∧ ¬ NothingToCommit opts record) ∨
    ¬ Stopped opts record ∧ ¬ CommitStarted record ∧ NothingToCommit opts record ∧ err = none

/-- Other operations that stop nothing do not change the course. -/
theorem Course.around {before after : Performed} (h : Course opts record err)
    (hbefore : Only aside before) (hafter : Only aside after) (hgoes : ¬ Stopped opts before)
    (hgoes' : ¬ Stopped opts after) : Course opts (before ++ (record ++ after)) err := by
  have hstopped : Stopped opts (before ++ (record ++ after)) ↔ Stopped opts record := by
    simp [stopped_append, hgoes, hgoes']
  have hcommit : CommitStarted (before ++ (record ++ after)) ↔ CommitStarted record := by
    simp only [CommitStarted]
    exact exists_congr fun id => exists_congr fun ref => exists_congr fun outcome =>
      mem_around hbefore hafter rfl
  have hnothing : NothingToCommit opts (before ++ (record ++ after)) ↔
      NothingToCommit opts record := by
    refine or_congr_right (exists_congr fun id => exists_congr fun c => exists_congr fun layer => ?_)
    rw [mem_around hbefore hafter rfl, mem_around hbefore hafter rfl]
  rw [Course, hstopped, hcommit, hnothing]
  exact h

/-- Once a commit is started, its error and later ones make no difference. -/
theorem Course.of_commitStarted (h : Course opts record err) (hcommit : CommitStarted record)
    (later : Option GoError) : Course opts record later := by
  rcases h with ⟨-, hnot, -⟩ | hstarted | ⟨-, hnot, -⟩
  · exact absurd hcommit hnot
  · exact .inr (.inl hstarted)
  · exact absurd hcommit hnot

/-- The error of a step. -/
def errorOf {α : Type} : Except GoError α → Option GoError
  | .ok _ => none
  | .error e => some e

theorem course_commit {builder : Builder} {ref : ImageRef}
    {out : Except GoError (String × String × Bool)} (hrequested : opts.commit = true)
    (h : (commit builder (some ref)).Yields record out) : Course opts record (errorOf out) := by
  rw [commit, yields_perform] at h
  obtain ⟨container, rest, rfl, h⟩ := h
  cases container with
  | error text =>
    obtain ⟨rfl, rfl⟩ := h
    exact .inl ⟨by simp [Stops, Except.isOk, Except.toBool], by simp, by simp [errorOf]⟩
  | ok c =>
    rw [yields_perform] at h
    obtain ⟨changes, rest, rfl, h⟩ := h
    cases changes with
    | error text =>
      obtain ⟨rfl, rfl⟩ := h
      exact .inl ⟨by simp [Stops, Except.isOk, Except.toBool], by simp, by simp [errorOf]⟩
    | ok changed =>
      dsimp only at h
      split at h
      · rename_i hunchanged
        obtain ⟨rfl, himage⟩ := hunchanged
        obtain ⟨rfl, rfl⟩ := h
        refine .inr (.inr ⟨?_, by simp, ?_, rfl⟩)
        · simp [Stops, Except.isOk, Except.toBool]
        · exact .inr ⟨builder.containerID, c, c.layerID, by simp, himage, by simp⟩
      · rename_i hchanged
        rw [yields_perform] at h
        obtain ⟨committed, rest, rfl, h⟩ := h
        have hempty : rest = [] := by cases committed <;> exact h.1
        subst hempty
        refine .inr (.inl ⟨?_, by simp, ?_⟩)
        · simp [Stops, Except.isOk, Except.toBool]
        · rintro (hnot | ⟨id, c', layerID, hc, himage, hlayer⟩)
          · rw [hrequested] at hnot
            cases hnot
          · simp only [List.mem_cons, List.not_mem_nil, or_false] at hc hlayer
            rcases hc with hc | hc | hc <;> cases hc
            rcases hlayer with hlayer | hlayer | hlayer <;> cases hlayer
            exact hchanged ⟨rfl, himage⟩

/-- Steps besides a commit, which stop `Unmount` exactly if there is an error. -/
def Prepares (opts : MountOptions) (record : Performed) (err : Option GoError) : Prop :=
  Only aside record ∧ (Stopped opts record ↔ err ≠ none)

theorem Prepares.no_commit (h : Prepares opts record err) : ¬ CommitStarted record :=
  h.1.no_commit fun _ _ => rfl

theorem Prepares.append {later : Option GoError} (hfirst : Prepares opts first err)
    (hrest : Prepares opts rest later) : Prepares opts (first ++ rest) (err <|> later) := by
  constructor
  · intro e he
    exact (List.mem_append.mp he).elim (hfirst.1 e) (hrest.1 e)
  · rw [stopped_append, hfirst.2, hrest.2]
    cases err <;> simp

theorem Prepares.stop {e : GoError} (h : Prepares opts record (some e)) (herr : err ≠ none) :
    Course opts record err :=
  .inl ⟨h.2.mpr (by simp), h.no_commit, herr⟩

theorem Prepares.skip (h : Prepares opts record none) (hskipped : opts.commit = false) :
    Course opts record none :=
  .inr (.inr ⟨fun hstopped => h.2.mp hstopped rfl, h.no_commit, .inl hskipped, rfl⟩)

theorem Prepares.before (h : Prepares opts first none) (hrest : Course opts rest err) :
    Course opts (first ++ rest) err := by
  have hgoes : ¬ Stopped opts first := fun hstopped => h.2.mp hstopped rfl
  have hcourse := hrest.around h.1 only_nil hgoes stopped_nil
  rwa [List.append_nil] at hcourse

theorem prepares_storeImageRef {name : String} {out : Except GoError ImageRef}
    (h : (storeImageRef name).Yields record out) : Prepares opts record (errorOf out) := by
  rw [storeImageRef, yields_perform] at h
  obtain ⟨parsed, rest, rfl, rfl, rfl⟩ := h
  cases parsed <;> simp [Prepares, aside, Stops, Except.isOk, Except.toBool, errorOf, Except.mapError]

theorem prepares_destinationRef {out : Except GoError (Option ImageRef)}
    (h : (destinationRef opts).Yields record out) : Prepares opts record (errorOf out) := by
  by_cases himage : opts.image = ""
  · rw [destinationRef, if_pos himage] at h
    obtain ⟨rfl, rfl⟩ := h
    simp [Prepares, errorOf]
  · rw [destinationRef, if_neg himage, Prog.yields_bind_iff] at h
    obtain ⟨found, first, last, rfl, h, rfl, rfl⟩ := h
    rw [imageRef, if_neg himage, yields_perform] at h
    obtain ⟨parsed, rest, rfl, rfl, rfl⟩ := h
    cases parsed <;>
      simp [Prepares, aside, Stops, Except.isOk, Except.toBool, errorOf, Except.mapError, Except.map]

theorem prepares_openContainer {name : String} {out : Except GoError Builder}
    (h : (openContainer opts name).Yields record out) : Prepares opts record (errorOf out) := by
  rw [openContainer, yields_perform] at h
  obtain ⟨opened, rest, rfl, h⟩ := h
  cases opened with
  | ok builder =>
    obtain ⟨rfl, rfl⟩ := h
    simp [Prepares, aside, Stops, Except.isOk, Except.toBool, errorOf]
  | error text =>
    dsimp only at h
    split at h
    · rename_i hname
      rw [yields_perform] at h
      obtain ⟨opened, rest, rfl, rfl, rfl⟩ := h
      cases opened <;>
        simp [Prepares, aside, Stops, Except.isOk, Except.toBool, errorOf, Except.mapError, hname]
    · rename_i hname
      obtain ⟨rfl, rfl⟩ := h
      simp [Prepares, aside, Stops, Except.isOk, Except.toBool, errorOf, hname]

/-- The error of the external directory does not stop `Unmount`. -/
theorem prepares_unmountIf {needed : Bool} {dir : String}
    (h : (unmountIf needed dir).Yields record err) :
    Prepares opts record (if dir = opts.extMountDir then none else err) := by
  rcases yields_unmountIf h with ⟨-, rfl, rfl⟩ | ⟨-, unmounted, removed, rfl, rfl⟩
  · simp [Prepares]
  · by_cases hdir : dir = opts.extMountDir <;> simp [Prepares, aside, Stops, hdir]

/-- Pushing an image stops nothing. -/
theorem aside_pushImage {canonical imageID : String} {dest : ImageRef}
    (h : (pushImage canonical imageID dest).Yields record err) :
    Only aside record ∧ ¬ Stopped opts record := by
  rw [pushImage, yields_perform] at h
  obtain ⟨reference, rest, rfl, h⟩ := h
  cases reference with
  | error text =>
    obtain ⟨rfl, -⟩ := h
    simp [aside, Stops]
  | ok src =>
    rw [yields_perform] at h
    obtain ⟨copied, rest, rfl, rfl, -⟩ := h
    simp [aside, Stops]

theorem course_publish {builder : Builder} {result : String × Bool × Option GoError}
    (hrequested : opts.commit = true) (h : (publish opts builder).Yields record result) :
    Course opts record result.2.2 := by
  rw [publish, Prog.yields_bind_iff] at h
  obtain ⟨localRef, first, rest, rfl, hlocal, h⟩ := h
  have hfirst : Prepares opts first (errorOf localRef) := prepares_storeImageRef hlocal
  cases localRef with
  | error e =>
    obtain ⟨rfl, rfl⟩ := h
    rw [List.append_nil]
    exact hfirst.stop (by simp)
  | ok ref =>
    refine hfirst.before ?_
    rw [Prog.yields_bind_iff] at h
    obtain ⟨destRef, second, rest, rfl, hdest, h⟩ := h
    have hsecond := prepares_destinationRef hdest
    cases destRef with
    | error e =>
      obtain ⟨rfl, rfl⟩ := h
      rw [List.append_nil]
      exact hsecond.stop (by simp)
    | ok dest =>
      refine hsecond.before ?_
      rw [Prog.yields_bind_iff] at h
      obtain ⟨committed, third, last, rfl, hcommit, h⟩ := h
      have hthird := course_commit hrequested hcommit
      split at h
      · obtain ⟨rfl, rfl⟩ := h
        rw [List.append_nil]
        exact hthird
      · -- A new image is pushed; whatever comes of it, the commit has been made.
        obtain ⟨c, changed, -, -, ⟨hnew, -⟩ | ⟨-, hstored⟩⟩ := commit_of_yields hcommit
        · cases hnew
        rw [Prog.yields_bind_iff] at h
        obtain ⟨err, fourth, last, rfl, hpush, h⟩ := h
        have hempty : last = [] := by
          split at h <;> exact h.1
        subst hempty
        have hpushed : Only aside fourth ∧ ¬ Stopped opts fourth := aside_pushImage hpush
        have hstarted : CommitStarted third := ⟨_, _, _, hstored⟩
        rw [List.append_nil]
        exact (hthird.of_commitStarted hstarted _).around only_nil hpushed.1 stopped_nil hpushed.2
      · obtain ⟨rfl, rfl⟩ := h
        rw [List.append_nil]
        exact hthird

theorem course_unmountBuilder {builder : Builder} {body : String × Bool × Option GoError}
    (h : (unmountBuilder opts builder).Yields record body) : Course opts record body.2.2 := by
  obtain ⟨err, first, unmounted, rest, rfl, hfirst, hrest⟩ := yields_unmountBuilder h
  have hprepares : Prepares opts first err := by
    have hgeneral : Prepares opts first _ := prepares_unmountIf hfirst
    split at hgeneral
    · rename_i hsame
      have hneeded : decide (builder.mountDir.getD "" ≠ "" ∧
          builder.mountDir.getD "" ≠ opts.extMountDir) = false := by simp [hsame]
      rw [hneeded] at hfirst
      rw [hfirst.2]
      exact hgeneral
    · exact hgeneral
  have hunmounting : Prepares opts [did (.builderUnmount builder.containerID) unmounted]
      (failure unmounted) := by
    cases unmounted <;>
      simp [Prepares, aside, Stops, Except.isOk, Except.toBool, LayerfsStore.failure]
  rcases hrest with ⟨rfl, hbody, hskipped⟩ | ⟨rfl, hnone, hrequested, hpublish⟩
  · have hboth := hprepares.append hunmounting
    rw [← hbody] at hboth
    cases hend : body.2.2 with
    | some e =>
      rw [hend] at hboth
      exact hboth.stop (by simp)
    | none =>
      rw [hend] at hboth
      exact hboth.skip (hskipped hend)
  · rw [hnone] at hunmounting
    exact hprepares.before (hunmounting.before (course_publish hrequested hpublish))

/-- A container is deleted by none of these operations. -/
theorem no_deletion_of_bookkeeping {α : Type} {p : Agent α} {value : α}
    (hp : p.Issues (Bookkeeping true)) (h : p.Yields record value) (id : String)
    (outcome : Except String Unit) : did (.builderDelete id) outcome ∉ record :=
  not_mem_of_issues hp h (by simp [keepsContainers])

theorem no_deletion_of_unmountBuilder {builder : Builder} {body : String × Bool × Option GoError}
    (h : (unmountBuilder opts builder).Yields record body) (id : String)
    (outcome : Except String Unit) : did (.builderDelete id) outcome ∉ record := by
  obtain ⟨err, first, unmounted, rest, rfl, hfirst, hrest⟩ := yields_unmountBuilder h
  have hbefore := no_deletion_of_bookkeeping (issues_unmountIf _ _) hfirst id outcome
  intro hmem
  rw [List.mem_append, List.mem_cons] at hmem
  rcases hmem with hmem | hmem | hmem
  · exact hbefore hmem
  · cases hmem
  · rcases hrest with ⟨rfl, -⟩ | ⟨-, -, -, hpublish⟩
    · cases hmem
    · have himages := (issues_publish opts builder).mono ImageWork.bookkeeping
      exact no_deletion_of_bookkeeping himages hpublish id outcome hmem

/-- A part of `Unmount` in which the external directory is removed. -/
theorem prepares_external
    (h : (unmountIf (opts.extMountDir ≠ "") opts.extMountDir).Yields record err) :
    Prepares opts record none := by
  have hprepares : Prepares opts record _ := prepares_unmountIf h
  rwa [if_pos rfl] at hprepares

/-- Everything up to the deletion of the container takes the same course. -/
theorem Unmounted.course {builder : Builder} {result body : String × Bool × Option GoError}
    (h : Unmounted opts builder record result body) : Course opts record body.2.2 := by
  obtain ⟨extErr, name, ext, opening, steps, cancelled, last, rfl, hext, hopened, hsteps, hlast⟩ := h
  have hend : Only aside (did .contextErr cancelled :: last) ∧
      ¬ Stopped opts (did .contextErr cancelled :: last) := by
    rcases hlast with ⟨-, rfl, -⟩ | ⟨deleted, rfl, -⟩ <;> simp [aside, Stops]
  have hsteps := (course_unmountBuilder hsteps).around only_nil hend.1 stopped_nil hend.2
  exact (prepares_external hext).before ((prepares_openContainer hopened).before hsteps)

/-- Without an earlier error, `Unmount` fails exactly if the container is not deleted. -/
theorem Unmounted.deletion {builder : Builder} {result body : String × Bool × Option GoError}
    (h : Unmounted opts builder record result body) (hnone : body.2.2 = none) :
    result.2.2 ≠ none ↔ DeletionFailed record := by
  obtain ⟨extErr, name, ext, opening, steps, cancelled, last, rfl, hext, hopened, hsteps, hlast⟩ := h
  have hmem : ∀ id text, did (.builderDelete id) (.error text) ∈
      ext ++ (opening ++ (steps ++ did .contextErr cancelled :: last)) ↔
        did (.builderDelete id) (.error text) ∈ last := by
    intro id text
    have hext := no_deletion_of_bookkeeping (issues_unmountIf _ _) hext id (.error text)
    have hopened := no_deletion_of_bookkeeping (issues_openContainer _ _) hopened id (.error text)
    have hsteps := no_deletion_of_unmountBuilder hsteps id (.error text)
    simp [hext, hopened, hsteps]
  simp only [DeletionFailed, hmem]
  rcases hlast with ⟨-, rfl, rfl⟩ | ⟨deleted, rfl, hresult⟩
  · simp [hnone]
  · rw [hresult, hnone]
    cases deleted with
    | ok _ =>
      refine iff_of_false (fun hsome => hsome rfl) ?_
      rintro ⟨id, text, hdeleted⟩
      cases List.mem_singleton.mp hdeleted
    | error text =>
      exact iff_of_true (by simp [LayerfsStore.failure]) ⟨_, text, List.mem_singleton_self _⟩

/-- `Unmount` is interrupted exactly if it fails without having started a commit. -/
theorem interrupted_iff {result : String × Bool × Option GoError}
    (h : (unmount opts).Yields record result) (hne : record ≠ []) :
    Interrupted opts record ↔ result.2.2 ≠ none ∧ ¬ CommitStarted record := by
  rcases yields_unmount h with ⟨rfl, -⟩ | ⟨extErr, name, ext, opening, e, rfl, hext, hopened, hsome⟩ |
    ⟨builder, body, hparts⟩
  · exact absurd rfl hne
  · have hstopped : Prepares opts (ext ++ opening) (some e) :=
      (prepares_external hext).append (prepares_openContainer hopened)
    exact iff_of_true (.inl (hstopped.2.mpr (by simp))) ⟨hsome, hstopped.no_commit⟩
  · rcases hparts.course with ⟨hstopped, hcommit, herr⟩ | ⟨hgoes, hcommit, hsomething⟩ |
      ⟨hgoes, hcommit, hnothing, hnone⟩
    · have hsome : result.2.2 ≠ none := by
        obtain ⟨_, _, _, _, _, _, _, _, _, _, _, hlast⟩ := hparts
        exact fun hnone => herr ((last_steps hlast).2 hnone).1
      exact iff_of_true (.inl hstopped) ⟨hsome, hcommit⟩
    · refine iff_of_false ?_ fun hno => hno.2 hcommit
      exact fun hinterrupted => hinterrupted.elim hgoes fun hnothing => hsomething hnothing.1
    · rw [Interrupted, hparts.deletion hnone]
      simp [hgoes, hcommit, hnothing]

end Interruptions

/-- `Unmount` is honest exactly if it fails without a commit whenever the external directory
could not be removed. -/
theorem honest_iff_fails {result : String × Bool × Option GoError}
    (h : (unmount opts).Yields record result) :
    Honest opts record result ↔
      (ExternalRemovalFailed opts record → result.2.2 ≠ none ∧ ¬ CommitStarted record) := by
  constructor
  · rintro hhonest ⟨hne, text, hfailed⟩
    refine ⟨fun hnone => ?_, fun hcommit => hhonest.noCommit ?_⟩
    · exact ((hhonest.finished hnone).extMountDir hne).2 ⟨text, hfailed⟩
    · rcases yields_unmount h with ⟨rfl, -⟩ | ⟨extErr, name, ext, opening, e, rfl, hext, hopened, -⟩ |
        ⟨builder, body, hparts⟩
      · cases hfailed
      · exact absurd hcommit ((prepares_external hext).append (prepares_openContainer hopened)).no_commit
      · rcases hparts.removal hfailed with ⟨-, -, hafter⟩ | ⟨hother, -⟩
        · exact hafter hcommit
        · exact absurd rfl hother
  · intro hreported
    have hremoved : result.2.2 = none → ¬ ExternalRemovalFailed opts record :=
      fun hnone hfailed => (hreported hfailed).1 hnone
    rcases yields_unmount h with ⟨rfl, hsome⟩ | ⟨extErr, name, ext, opening, e, rfl, hext, hopened, hsome⟩ |
      ⟨builder, body, hparts⟩
    · refine ⟨fun hnone => absurd hnone hsome, ?_⟩
      rintro ⟨earlier, later, dir, text, heq, -⟩
      cases earlier <;> cases heq
    · have hnocommit := ((prepares_external hext).append (prepares_openContainer hopened)).no_commit
      exact ⟨fun hnone => absurd hnone hsome, fun hafter => hnocommit hafter.started⟩
    · refine ⟨fun hnone => hparts.finished hnone (hremoved hnone), ?_⟩
      intro hafter
      have hcommit := hafter.started
      obtain ⟨earlier, later, dir, text, heq, -⟩ := hafter
      have hfailed : did (.remove dir) (.error (.other text)) ∈ record := by
        rw [heq]
        simp
      rcases hparts.removal hfailed with ⟨rfl, hne, -⟩ | ⟨-, -, hnocommit⟩
      · exact (hreported ⟨hne, text, hfailed⟩).2 hcommit
      · exact hnocommit hcommit

/-- `Unmount` is honest exactly if a failing removal of the external directory, whose
error is overwritten, is followed by another failing step before anything is committed. -/
theorem unmount_honest_iff {result : String × Bool × Option GoError}
    (h : (unmount opts).Yields record result) :
    Honest opts record result ↔ (ExternalRemovalFailed opts record → Interrupted opts record) := by
  have hinterrupted : ExternalRemovalFailed opts record →
      (Interrupted opts record ↔ result.2.2 ≠ none ∧ ¬ CommitStarted record) := by
    rintro ⟨-, text, hfailed⟩
    exact interrupted_iff h (List.ne_nil_of_mem hfailed)
  rw [honest_iff_fails h]
  exact (forall_congr' hinterrupted).symm

/-- What is performed for the volume if the removal of its directory has an outcome. -/
def unmountSteps (removed : Except RemoveError Unit) : Performed :=
  [did (.unmount "/mnt/vol1") (.ok ()), did (.remove "/mnt/vol1") removed,
    did (.openBuilder "vol1") (.ok ⟨"container1", none⟩),
    did (.builderUnmount "container1") (.ok ()),
    did (.parseStoreReference "localhost/cache/default/cache:latest")
      (.ok ⟨"localhost/cache/default/cache:latest"⟩),
    did (.container "container1") (.ok ⟨"layer1", "image1"⟩), did (.changes "layer1") (.ok 1),
    did (.builderCommit "container1" ⟨"localhost/cache/default/cache:latest"⟩)
      (.ok ("image2", "ref2")),
    did .contextErr false, did (.builderDelete "container1") (.ok ())]

theorem yields_unmountSteps (removed : Except RemoveError Unit) :
    (unmount externalVolume).Yields (unmountSteps removed) ("image2", true, none) := by
  have hrespond : (unmount externalVolume).respond (removing removed) =
      (unmountSteps removed, "image2", true, none) := by
    have hvalid : validate externalVolume = none := by decide +kernel
    have hname : containerName externalVolume = .ok "vol1" := rfl
    unfold unmount
    rw [hvalid, hname]
    cases removed with
    | ok _ => rfl
    | error e => cases e <;> rfl
  have h := Prog.yields_respond (removing removed) (unmount externalVolume)
  rw [hrespond] at h
  exact h

theorem unmount_honest_iff_removed :
    (unmount externalVolume).Yields (unmountSteps (.ok ())) ("image2", true, none) ∧
      Honest externalVolume (unmountSteps (.ok ())) ("image2", true, none) := by
  have h := yields_unmountSteps (.ok ())
  refine ⟨h, (unmount_honest_iff h).mpr ?_⟩
  rintro ⟨-, text, hfailed⟩
  simp [unmountSteps] at hfailed

/-- The external directory cannot be removed. The container is committed, and no error
is returned. -/
theorem unmounted_with_directory_left :
    (unmount externalVolume).Yields (unmountSteps (.error (.other "device or resource busy")))
        ("image2", true, none) ∧
      RemovalFailed (unmountSteps (.error (.other "device or resource busy"))) "/mnt/vol1" ∧
      CommitStarted (unmountSteps (.error (.other "device or resource busy"))) ∧
      ¬ Honest externalVolume (unmountSteps (.error (.other "device or resource busy")))
        ("image2", true, none) := by
  have hfailed : RemovalFailed (unmountSteps (.error (.other "device or resource busy")))
      "/mnt/vol1" := ⟨"device or resource busy", by simp [unmountSteps]⟩
  refine ⟨yields_unmountSteps _, hfailed, ?_, ?_⟩
  · exact ⟨"container1", ⟨"localhost/cache/default/cache:latest"⟩, .ok ("image2", "ref2"),
      by simp [unmountSteps]⟩
  · intro h
    exact ((h.finished rfl).extMountDir (by decide)).2 hfailed

end Honesty

end K8StorageX.StoreOutcomes
