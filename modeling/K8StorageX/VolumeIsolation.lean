import K8StorageX.CacheRoundTrip
import K8StorageX.Noninterference
import K8StorageX.SoloRuns
import K8StorageX.VolumeRoles

/-!
# Volumes do not disturb each other

A volume that has been mounted stays as it is while processes mount and unmount other
volumes. The process that unmounts it does what it would do alone, also if operations
fail. So the contents of a volume come back with the next mount of its cache, whatever
the other processes of the node do in between.
-/

namespace K8StorageX.VolumeIsolation

open ApiProgram WorkerPool NodeAgent LayerfsStore ContainerLibraries CacheRoundTrip GoErrors
open NodeVolumes VolumeRoles
open SynchronizedStore (Result)

variable {κ : Type} {lib : Libraries κ} {v : Volume} {owner : Option ℕ} {p : ℕ}
variable {s s₀ t : Node κ} {st st' : NodeState κ} {es : List (NodeEvent κ)}

section Discipline

/-- The processes of the node share it. -/
theorem sharing_respected (lib : Libraries κ) (v : Volume) (owner : Option ℕ) :
    (sharing lib v owner).Respected where
  start := by
    intro w command s t hs hadmitted hstart
    cases hstart
    refine ⟨hs, fun _ _ => ⟨fun _ => .refl v s, fun h => h⟩, ?_⟩
    by_cases hw : owner = some w
    · obtain ⟨opts, rfl, hown⟩ := hadmitted.1 hw
      have hacts : Acts (ownerRole lib v hw) (fun _ => True) (Command.unmount opts).program
          fun _ _ => True := acts_own hown
      exact hacts [] s trivial
    · have hacts : Acts (others lib v hw) (fun _ => True) command.program fun _ _ => True :=
        acts_program (hadmitted.2 hw)
      exact hacts [] s trivial
  env := by
    intro e s t hs hother henv
    cases henv
    obtain ⟨htidy, hsame⟩ := hs.write e hother
    exact ⟨htidy, fun _ => ⟨fun _ => hsame, hsame.present.mp⟩⟩
  finish := by
    intro w seen value s t hs _ hfinish
    cases hfinish
    exact ⟨hs, fun _ _ => ⟨fun _ => .refl v s, fun h => h⟩⟩
  crash := by
    intro s t hs hcrash
    cases hcrash
    exact hs
  compatible := by
    intro w w' seen r response s t _ _ hkeeps hne
    refine ⟨fun howner => hkeeps.1 fun hw => hne ?_, hkeeps.2.2⟩
    exact Option.some.inj (howner.symm.trans hw)

/-- A step of another process leaves the volume as it is. -/
theorem same_step (hsafe : (sharing lib v owner).Safe st) {e : NodeEvent κ}
    (hadmits : (sharing lib v owner).Admits st e)
    (hworker : ∀ w, e.worker? = some w → owner ≠ some w)
    (hstep : (node lib).step st e = some st') : Same v st.shared st'.shared := by
  cases System.taken_of_step hstep with
  | start _ hook =>
    cases hook
    exact .refl v _
  | @serve w fault seen r next pending =>
    exact (hsafe.guarantee pending fault (hadmits seen r next pending)).1 (hworker w rfl)
  | finish _ hook =>
    cases hook
    exact .refl v _
  | crash hook =>
    cases hook
    exact .refl v _
  | env hook =>
    cases hook
    exact (hsafe.1.write _ hadmits).2

/-- The steps of the processes: the owner is started to unmount the volume, the others are
started with other options, and files are written into other containers. -/
def Allowed (lib : Libraries κ) (v : Volume) (owner : Option ℕ) : NodeEvent κ → Prop
  | .start w command =>
    if owner = some w then ∃ opts, command = .unmount opts ∧ Own lib v opts
    else Foreign lib v command.opts
  | .env e => e.containerID ≠ v.id
  | _ => True

theorem admits_of_allowed {e : NodeEvent κ} (h : Allowed lib v owner e) (st : NodeState κ) :
    (sharing lib v owner).Admits st e := by
  cases e with
  | start w command =>
    by_cases hw : owner = some w
    · have hown := (if_pos hw).mp h
      exact ⟨fun _ => hown, fun hne => absurd hw hne⟩
    · have hforeign := (if_neg hw).mp h
      exact ⟨fun howner => absurd howner hw, fun _ => hforeign⟩
  | serve w fault => exact fun _ _ _ _ => trivial
  | finish w => exact trivial
  | crash => exact trivial
  | env e => exact h

theorem runWhere_of_allowed (hallowed : ∀ e ∈ es, Allowed lib v owner e)
    (hrun : (node lib).run st es = some st') :
    (node lib).RunWhere (sharing lib v owner).Admits st es st' :=
  System.runWhere_of_forall (fun e he st => admits_of_allowed (hallowed e he) st) hrun

end Discipline

section Isolation

/-- The processes of other volumes leave the volume as it is. -/
theorem same_run (hs : Tidy v s) (hallowed : ∀ e ∈ es, Allowed lib v none e)
    (hrun : (node lib).run (idle s) es = some st) : Same v s st.shared := by
  refine Discipline.run_keeps (sharing_respected lib v none) (fun _ _ h => h)
    (runWhere_of_allowed hallowed hrun) (fun st => Same v s st.shared) ?_
    (Discipline.idle_safe hs) (.refl v s)
  intro mid e next hsafe hadmits hstep hsame
  exact hsame.trans (same_step hsafe hadmits (fun w _ howner => by cases howner) hstep)

/-- The volume that a successful `Mount` has mounted. -/
theorem tidy_of_mounted {opts : MountOptions} {name : String} {image : Option (Image κ)}
    {k : WorkingContainer κ} (h : Mounted lib opts name image k s t) (hname : name ≠ "")
    (hext : opts.extMountDir ≠ "")
    (hunique : ∀ i ∈ s.containers, ∀ j ∈ s.containers, i.id = j.id → i = j)
    (hfree : ∀ j ∈ s.containers, j.mountDir ≠ some opts.extMountDir) (ref : String) :
    Tidy ⟨name, k.id, opts.extMountDir, ref⟩ t ∧
      named name t = [k.mountedAt opts.extMountDir] := by
  obtain ⟨hkname, hothers⟩ := h.name hname
  have hself : (k.mountedAt opts.extMountDir).name = name := hkname
  have hrecorded : (k.mountedAt opts.extMountDir).mountDir = some opts.extMountDir := if_neg hext
  have hold : ∀ j ∈ t.containers, j ∈ s.containers ∨ j = k.mountedAt opts.extMountDir := by
    intro j hj
    rw [h.latest.containers] at hj
    rcases List.mem_append.mp hj with hj | hj
    · exact .inl hj
    · exact .inr (List.mem_singleton.mp hj)
  refine ⟨⟨?_, ?_, ?_⟩, ?_⟩
  · intro i hi j hj hid
    rcases hold i hi with hi | rfl
    · rcases hold j hj with hj | rfl
      · exact hunique i hi j hj hid
      · exact absurd hid (h.latest.fresh i hi)
    · rcases hold j hj with hj | rfl
      · exact absurd hid.symm (h.latest.fresh j hj)
      · rfl
  · intro j hj hjname
    rcases hold j hj with hj | rfl
    · exact absurd hjname (hothers j hj)
    · rfl
  · intro j hj dir hdir
    rcases hold j hj with hj | rfl
    · refine iff_of_false (fun heq => hfree j hj ?_) (hothers j hj)
      exact hdir.trans (congrArg some heq)
    · rw [hrecorded, Option.some.injEq] at hdir
      exact iff_of_true hdir.symm hself
  · have hnone : s.containers.filter (·.name == name) = [] :=
      List.filter_eq_nil_iff.mpr fun j hj => by simpa using hothers j hj
    rw [named, h.latest.containers, List.filter_append, hnone]
    simp [hself]

/-- References of one length belong to different caches. -/
theorem not_refersTo {ref ref' other : String} (hlength : ref.toList.length = ref'.toList.length)
    (hne : ref ≠ ref') (h : RefersTo ref' other) : ¬ RefersTo ref other := by
  have hstarts : ∀ {ref : String}, RefersTo ref other → ref.toList <+: other.toList := by
    rintro ref (rfl | ⟨digest, rfl⟩)
    · exact List.prefix_refl _
    · rw [String.toList_append, String.toList_append, List.append_assoc]
      exact List.prefix_append _ _
  intro hrefers
  have hprefixes := List.prefix_of_prefix_length_le (hstarts hrefers) (hstarts h) (le_of_eq hlength)
  exact hne (String.toList_injective (hprefixes.eq_of_length hlength))

/-- A volume at a directory. -/
def volumeAt (name cacheName : String) : MountOptions :=
  ⟨"", name, "/mnt/" ++ name, true, cacheName, "default"⟩

/-- A node with one volume. -/
def oneVolume : Node ℕ :=
  ((LayerfsStore.mount (volumeAt "vol1" "cache")).eval numberLibraries.serve emptyNode).2

theorem runs_mount_oneVolume : (LayerfsStore.mount (volumeAt "vol1" "cache")).Runs
    (numberLibraries.answers true) emptyNode ("/mnt/vol1", none) oneVolume :=
  Prog.runs_eval (numberLibraries.answers_serve true) (by decide +kernel)

theorem id_oneVolume {k : WorkingContainer ℕ}
    (h : oneVolume.containers = emptyNode.containers ++ [k]) : k.id = "c" := by
  have hone : oneVolume.containers.map (·.id) = ["c"] := by decide +kernel
  have hids : [k].map (·.id) = ["c"] := (congrArg (List.map (·.id)) h.symm).trans hone
  exact (List.cons.inj hids).1

/-- The one volume. -/
def vol1 : Volume := ⟨"vol1", "c", "/mnt/vol1", "localhost/cache/default/cache:latest"⟩

/-- Volumes of another cache with other names are foreign. -/
theorem foreign_vol1 {name : String} (hgiven : name ≠ "") (hname : name ≠ "vol1")
    (hdir : "/mnt/" ++ name ≠ "/mnt/vol1") :
    Foreign numberLibraries vol1 (volumeAt name "other") where
  name n hn := by
    have hcontainer : LayerfsStore.containerName (volumeAt name "other") = .ok name :=
      if_pos hgiven
    rw [hcontainer] at hn
    cases hn
    exact ⟨hgiven, hname⟩
  dir := hdir
  path hempty := absurd hempty hgiven
  image ref href := by
    have hshort : (qualified "").toList.length < vol1.ref.toList.length := by decide +kernel
    obtain rfl : ref = ⟨qualified ""⟩ := (Except.ok.inj href).symm
    rintro (heq | ⟨digest, heq⟩)
    · have hlength : (qualified "").toList.length = vol1.ref.toList.length :=
        congrArg (fun ref => ref.toList.length) heq
      omega
    · have hlength : (qualified "").toList.length =
          (vol1.ref ++ "@" ++ digest).toList.length := congrArg (fun ref => ref.toList.length) heq
      simp only [String.toList_append, List.length_append] at hlength
      omega
  cache ref href other hother := by
    have hparse : numberLibraries.parseStoreReference "localhost/cache/default/other:latest" =
        .ok ⟨"localhost/cache/default/other:latest"⟩ := by
      decide +kernel
    cases hparse.symm.trans href
    exact not_refersTo (by decide +kernel) (by decide +kernel) hother

/-- A step of one of two other volumes. -/
def ofOthers : NodeEvent ℕ → Bool
  | .start _ command =>
    command.opts = volumeAt "vol2" "other" ∨ command.opts = volumeAt "vol3" "other"
  | .env _ => false
  | _ => true

theorem allowed_of_ofOthers {e : NodeEvent ℕ} (h : ofOthers e = true) :
    Allowed numberLibraries vol1 none e := by
  cases e with
  | start w command =>
    have hforeign : Foreign numberLibraries vol1 command.opts := by
      rcases of_decide_eq_true h with hopts | hopts
      · rw [hopts]
        exact foreign_vol1 (by decide) (by decide) (by decide)
      · rw [hopts]
        exact foreign_vol1 (by decide) (by decide) (by decide)
    simpa [Allowed] using hforeign
  | serve w fault => exact trivial
  | finish w => exact trivial
  | crash => exact trivial
  | env e => cases h

/-- A volume that `Mount` has mounted at a directory of its own stays as it is while
processes mount and unmount other volumes of other caches on the node, in any
interleaving, with any of their operations failing and killed at any time: its container
with its files, its directory and bind mount and the image of its cache. -/
theorem mounted_volume_isolated {opts : MountOptions} {dir : String}
    (hmount : (LayerfsStore.mount opts).Runs (lib.answers true) s (dir, none) t)
    (hext : opts.extMountDir ≠ "")
    (hunique : ∀ i ∈ s.containers, ∀ j ∈ s.containers, i.id = j.id → i = j)
    (hfree : ∀ j ∈ s.containers, j.mountDir ≠ some opts.extMountDir) (ref : String) :
    ∃ name k, LayerfsStore.containerName opts = .ok name ∧ t.containers = s.containers ++ [k] ∧
      k.name = name ∧ k.mounted = true ∧ k.mountDir = some opts.extMountDir ∧
      ∀ es st, (∀ e ∈ es, Allowed lib ⟨name, k.id, opts.extMountDir, ref⟩ none e) →
        (node lib).run (idle t) es = some st →
        named name st.shared = [k] ∧ opts.extMountDir ∈ st.shared.dirs ∧
          opts.extMountDir ∈ st.shared.binds ∧ st.shared.images ref = t.images ref := by
  obtain ⟨name, image, k, hmounted, -⟩ := runs_mount hmount
  have hname : name ≠ "" := containerName_ne_empty (.inr hext) hmounted.named
  obtain ⟨htidy, hnamed⟩ := tidy_of_mounted hmounted hname hext hunique hfree ref
  have hrecorded : (k.mountedAt opts.extMountDir).mountDir = some opts.extMountDir :=
    if_neg hext
  refine ⟨name, k.mountedAt opts.extMountDir, hmounted.named, hmounted.latest.containers,
    (hmounted.name hname).1, rfl, hrecorded, ?_⟩
  intro es st hallowed hrun
  have hsame := same_run htidy hallowed hrun
  refine ⟨hsame.containers.trans hnamed, hsame.dirs.mpr ?_, hsame.binds.mpr ?_,
    hsame.images ref (.inl rfl)⟩
  · rw [hmounted.dirs, if_neg hext]
    exact List.mem_cons_self
  · rw [hmounted.binds, if_neg hext]
    exact List.mem_cons_self

/-- Two other volumes of another cache are mounted at the same time. One of them is then
unmounted, which commits an image. -/
def otherVolumes : List (NodeEvent ℕ) :=
  [.start 0 (.mount (volumeAt "vol2" "other")), .start 1 (.mount (volumeAt "vol3" "other"))] ++
    (List.replicate 7 [.serve 0 none, .serve 1 none]).flatten ++
    [.finish 0, .start 0 (.unmount (volumeAt "vol2" "other"))] ++ List.replicate 10 (.serve 0 none)

theorem mounted_volume_isolated_racing :
    ∃ st, (node numberLibraries).run (idle oneVolume) otherVolumes = some st ∧
      (named "vol1" st.shared).map (·.mountDir) = [some "/mnt/vol1"] ∧
      "/mnt/vol1" ∈ st.shared.dirs ∧ "/mnt/vol1" ∈ st.shared.binds := by
  obtain ⟨st, hrun⟩ := Option.isSome_iff_exists.mp (show
    ((node numberLibraries).run (idle oneVolume) otherVolumes).isSome by decide +kernel)
  have hothers : otherVolumes.all ofOthers = true := by decide +kernel
  obtain ⟨name, k, hname, hcontainers, -, -, hdir, hisolated⟩ :=
    mounted_volume_isolated runs_mount_oneVolume (by decide) (List.forall_mem_nil _)
      (List.forall_mem_nil _) vol1.ref
  have hvol1 : name = "vol1" := by
    cases hname
    rfl
  subst hvol1
  rw [id_oneVolume hcontainers] at hisolated
  have hallowed : ∀ e ∈ otherVolumes, Allowed numberLibraries vol1 none e :=
    fun e he => allowed_of_ofOthers (List.all_eq_true.mp hothers e he)
  obtain ⟨hnamed, hdirs, hbinds, -⟩ := hisolated otherVolumes st hallowed hrun
  refine ⟨st, hrun, ?_, hdirs, hbinds⟩
  rw [hnamed]
  exact congrArg (fun dir => [dir]) hdir

end Isolation

section Unmount

/-- The owner's operations are its own without the others as well. -/
theorem owned_of_same {op : LayerfsOp} (h : Same v s₀ s) (hop : Owned v s op) : Owned v s₀ op := by
  cases op with
  | builderUnmount id => exact ⟨hop.1, h.present.mp hop.2⟩
  | builderDelete id => exact ⟨hop.1, h.present.mp hop.2⟩
  | container id => exact ⟨hop.1, h.present.mp hop.2⟩
  | changes id => exact ⟨hop.1, h.present.mp hop.2⟩
  | builderCommit id imgRef => exact ⟨hop.1, h.present.mp hop.2⟩
  | _ => exact hop

/-- The owner sees nothing but the volume. -/
theorem unwinding_owner (lib : Libraries κ) (v : Volume) (p : ℕ) :
    Unwinding (sharing lib v (some p)) p fun s₀ s => Tidy v s₀ ∧ Same v s₀ s where
  others hview hrely := ⟨hview.1, hview.2.trans (hrely.1 rfl)⟩
  start hview hook := by
    cases hook
    exact ⟨_, rfl, hview⟩
  serve := by
    intro seen r fault s₀ s hview hs hkeeps
    have howned := hkeeps.2.1 rfl
    cases r with
    | layerfs op =>
      cases fault with
      | none =>
        have houtcome : (lib.perform op s₀).1 = (lib.perform op s).1 ∧
            Same v (lib.perform op s₀).2 (lib.perform op s).2 :=
          hview.2.perform_owned hview.1 hs howned
        have htidy : Tidy v (lib.perform op s₀).2 :=
          (hview.1.perform_owned (owned_of_same hview.2 howned)).1
        exact ⟨houtcome.1, htidy, houtcome.2⟩
      | some text => exact ⟨rfl, hview⟩
    | enterUnmount opts => exact ⟨rfl, hview⟩
    | cache r => exact ⟨rfl, hview⟩
  finish hview hook := by
    cases hook
    exact ⟨_, rfl, hview⟩
  crash hview hook := by
    cases hook
    exact ⟨_, rfl, hview⟩

/-- Whatever the processes of other volumes do meanwhile, the process that unmounts a volume
does what it does alone: it can take the same steps without the others, is answered the same
up to the same failures, returns the same, and leaves the container, the directory, the bind
mount and the images of the cache in the same state. -/
theorem unmount_undisturbed (hs : Tidy v s) (hallowed : ∀ e ∈ es, Allowed lib v (some p) e)
    (hrun : (node lib).run (idle s) es = some st) :
    ∃ alone, (node lib).run (idle s) (es.filter (·.concerns p)) = some alone ∧
      alone.running p = st.running p ∧ Same v alone.shared st.shared := by
  obtain ⟨alone, halone, hprojects⟩ := (unwinding_owner lib v p).run (sharing_respected lib v (some p))
    (Discipline.idle_safe hs) ⟨⟨hs, .refl v s⟩, rfl⟩ (runWhere_of_allowed hallowed hrun)
  exact ⟨alone, halone, hprojects.running, hprojects.shared.2⟩

theorem tidy_oneVolume : Tidy vol1 oneVolume := by
  obtain ⟨name, image, k, hmounted, -⟩ := runs_mount runs_mount_oneVolume
  have hid : (k.mountedAt "/mnt/vol1").id = "c" := id_oneVolume hmounted.latest.containers
  have hvol1 : name = "vol1" := by
    cases hmounted.named
    rfl
  subst hvol1
  have htidy := (tidy_of_mounted hmounted (by decide) (by decide) (List.forall_mem_nil _)
    (List.forall_mem_nil _) vol1.ref).1
  change Tidy ⟨"vol1", (k.mountedAt "/mnt/vol1").id, _, _⟩ oneVolume at htidy
  rw [hid] at htidy
  exact htidy

theorem own_vol1 : Own numberLibraries vol1 (volumeAt "vol1" "cache") where
  name := rfl
  given := by decide
  dir := .inr rfl
  cache ref href := by
    have hparse : numberLibraries.parseStoreReference "localhost/cache/default/cache:latest" =
        .ok ⟨"localhost/cache/default/cache:latest"⟩ := by
      decide +kernel
    cases hparse.symm.trans href
    rfl

/-- The steps of a process that only unmounts the volume, among those of others. -/
theorem allowed_of_once {n : ℕ} {o : MountOptions} (hown : Own lib v o)
    (hothers : ∀ e ∈ es, e.concerns p = false → Allowed lib v none e)
    (honce : es.filter (·.concerns p) = .start p (.unmount o) :: List.replicate n (.serve p none)) :
    ∀ e ∈ es, Allowed lib v (some p) e := by
  intro e he
  cases hconcerns : e.concerns p with
  | true =>
    have hmem : e ∈ es.filter (·.concerns p) := List.mem_filter.mpr ⟨he, hconcerns⟩
    rw [honce] at hmem
    rcases List.mem_cons.mp hmem with rfl | hserve
    · exact (if_pos rfl).mpr ⟨o, rfl, hown⟩
    · rw [List.eq_of_mem_replicate hserve]
      exact trivial
  | false =>
    have hother := hothers e he hconcerns
    cases e with
    | start w command =>
      have hne : some p ≠ some w := by
        intro heq
        rw [Option.some.inj heq] at hconcerns
        simp [Event.concerns] at hconcerns
      have hforeign : Foreign lib v command.opts := by simpa [Allowed] using hother
      exact (if_neg hne).mpr hforeign
    | serve w fault => exact trivial
    | finish w => exact trivial
    | crash => exact trivial
    | env e => exact hother

/-- The one volume is unmounted while two other volumes are mounted. -/
def sharedNode : List (NodeEvent ℕ) :=
  [.start 2 (.unmount (volumeAt "vol1" "cache")), .start 0 (.mount (volumeAt "vol2" "other")),
    .start 1 (.mount (volumeAt "vol3" "other"))] ++
    (List.replicate 7 [.serve 0 none, .serve 2 none, .serve 1 none]).flatten ++
    List.replicate 3 (.serve 2 none)

theorem once_sharedNode : sharedNode.filter (·.concerns 2) =
    .start 2 (.unmount (volumeAt "vol1" "cache")) :: List.replicate 10 (.serve 2 none) := rfl

theorem others_sharedNode : ∀ e ∈ sharedNode, e.concerns 2 = false →
    Allowed numberLibraries vol1 none e := by
  have hothers : sharedNode.all (fun e => e.concerns 2 || ofOthers e) = true := by decide +kernel
  intro e he hconcerns
  have hother := List.all_eq_true.mp hothers e he
  rw [hconcerns] at hother
  exact allowed_of_ofOthers hother

theorem unmount_undisturbed_racing :
    ∃ st alone, (node numberLibraries).run (idle oneVolume) sharedNode = some st ∧
      (node numberLibraries).run (idle oneVolume) (sharedNode.filter (·.concerns 2)) = some alone ∧
      alone.running 2 = st.running 2 ∧ Same vol1 alone.shared st.shared := by
  obtain ⟨st, hrun⟩ := Option.isSome_iff_exists.mp (show
    ((node numberLibraries).run (idle oneVolume) sharedNode).isSome by decide +kernel)
  have hallowed := allowed_of_once own_vol1 others_sharedNode once_sharedNode
  obtain ⟨alone, halone, hrunning, hsame⟩ := unmount_undisturbed tidy_oneVolume hallowed hrun
  exact ⟨st, alone, hrun, halone, hrunning, hsame⟩

end Unmount

section RoundTrip

variable {o o' : MountOptions} {name : String} {image : Option (Image κ)} {ref : ImageRef}
variable {k : WorkingContainer κ} {u : Node κ} {c : κ}

/-- Changing the files of the container of the volume. -/
theorem Tidy.writeFiles (h : Tidy v s) (hpresent : Present v s) (c : κ) :
    Tidy v (writeFiles s v.name c) := by
  obtain ⟨k, hk⟩ := List.exists_mem_of_ne_nil _ hpresent
  obtain ⟨hmem, hname⟩ := mem_named.mp hk
  have hsame : CacheRoundTrip.writeFiles s v.name c =
      s.modify v.id fun k => { k with contents := c } := by
    have hcontainers : ∀ j ∈ s.containers, (if j.name = v.name then { j with contents := c } else j) =
        if j.id = v.id then { j with contents := c } else j := by
      intro j hj
      have hiff : j.name = v.name ↔ j.id = v.id := by
        refine ⟨h.own j hj, fun hid => ?_⟩
        rw [h.unique j hj k hmem (hid.trans (h.own k hmem hname).symm)]
        exact hname
      simp only [hiff]
    simp only [CacheRoundTrip.writeFiles, Node.modify]
    rw [List.map_congr_left hcontainers]
  rw [hsame]
  exact h.modify (fun _ => rfl) (fun _ => rfl) fun j hj _ => h.recorded j hj

/-- The contents of an unmounted volume are stored for the next mount. -/
theorem stored_contents (hmounted : Mounted lib o name image k s u)
    (himage : image = s.stored ref.dockerReference (pullPolicyOf o))
    (hkept : u.stored ref.dockerReference (pullPolicyOf o) =
      s.stored ref.dockerReference (pullPolicyOf o))
    (hunmounted : Unmounted lib { o with commit := true } ref s.containers
      { k.mountedAt o.extMountDir with contents := c } (writeFiles u name c) t) :
    (t.stored ref.dockerReference (pullPolicyOf o)).elim lib.scratch (·.contents) = c := by
  by_cases hunchanged : Unchanged { k.mountedAt o.extMountDir with contents := c }
  · have hwritten := stored_writeFiles u name c ref.dockerReference (pullPolicyOf o)
    have hstored : t.stored ref.dockerReference (pullPolicyOf o) = image :=
      (hunmounted.unchanged hunchanged).trans (hwritten.trans (hkept.trans himage.symm))
    have hbase : c = k.base := hunchanged.1
    rw [hstored, hbase, hmounted.base, hmounted.contents]
  · have hstored : t.stored ref.dockerReference (pullPolicyOf o) = some _ :=
      hunmounted.changed hunchanged
    rw [hstored]
    rfl

/-- The next mount of a local cache starts from the image that is stored. -/
theorem next_mount_local {dir : String} (himage : o.image = "") (hlocal : lib.imageRefOf o = .ok ref)
    (hstored : (s.images ref.dockerReference).elim lib.scratch (·.contents) = c)
    (hsame : o'.image = o.image ∧ o'.cacheName = o.cacheName ∧
      o'.cacheNamespace = o.cacheNamespace)
    (h : (LayerfsStore.mount o').Runs (lib.answers false) s (dir, none) t) :
    ∃ k', t.containers = s.containers ++ [k'] ∧ k'.contents = c := by
  have hpolicy : pullPolicyOf o' = .never := if_pos (hsame.1.trans himage)
  obtain ⟨name, image, k, hmounted, hstart⟩ := runs_mount h
  obtain ⟨ref', href', himage', -⟩ := hstart rfl
  rw [imageRefOf_congr hsame, hlocal] at href'
  cases href'
  have hcontents : (k.mountedAt o'.extMountDir).contents = image.elim lib.scratch (·.contents) :=
    hmounted.contents
  refine ⟨_, hmounted.latest.containers, ?_⟩
  rw [hcontents, himage', hpolicy]
  exact hstored

theorem serve_none (lib : Libraries κ) (p : ℕ) : (node lib).serve p none = lib.serve := by
  funext r s
  cases r <;> rfl

/-- A process that is started once and served without failures evaluates its program. -/
theorem eval_of_alone {command : Command} {n : ℕ} {seen : Record Req Resp} {value : Result}
    (hrun : (node lib).run (idle s) (.start p command :: List.replicate n (.serve p none)) = some st)
    (hreturned : st.running p = some ⟨seen, .ret value⟩) :
    command.program.eval lib.serve s = (value, st.shared) := by
  obtain ⟨mid, hstart, hserved⟩ := Option.bind_eq_some_iff.mp hrun
  cases System.taken_of_step hstart with
  | start free hook =>
    cases hook
    rw [← serve_none lib p]
    exact System.eval_of_requests (Function.update_self _ _ _) hserved hreturned

/-- Such a process unmounts as if nothing could fail. -/
theorem runs_of_alone {n : ℕ} {seen : Record Req Resp} {value : Result}
    (hrun : (node lib).run (idle s)
      (.start p (.unmount o) :: List.replicate n (.serve p none)) = some st)
    (hreturned : st.running p = some ⟨seen, .ret value⟩) :
    ∃ result, (LayerfsStore.unmount o).Runs (lib.answers false) s result st.shared ∧
      value = .unmounted result.1 result.2.1 result.2.2 := by
  have heval := eval_of_alone hrun hreturned
  rw [Command.program, Prog.eval_bind] at heval
  obtain ⟨hvalue, hshared⟩ := Prod.mk.inj heval
  refine ⟨((LayerfsStore.unmount o).eval lib.serve s).1, ?_, hvalue.symm⟩
  rw [← hshared]
  exact Prog.runs_eval (lib.answers_serve false) rfl

/-- A volume of a local cache is mounted, its files are changed to any contents, and a
process unmounts it with a commit while processes mount and unmount volumes of other caches
in any interleaving, with any of their operations failing. If its own operations succeed and
it is not killed, it returns no error, and the next mount of the cache on the node starts
from these contents. -/
theorem contents_return_undisturbed (himage : o.image = "") (hgiven : o.containerName ≠ "")
    (hext : o.extMountDir ≠ "") (hmount : ((LayerfsStore.mount o).eval lib.serve s).1.2 = none)
    (hunique : ∀ i ∈ s.containers, ∀ j ∈ s.containers, i.id = j.id → i = j)
    (hfree : ∀ j ∈ s.containers, j.mountDir ≠ some o.extMountDir)
    (href : lib.parseStoreReference (localImageName o) = .ok ref) (c : κ) :
    let mounted := ((LayerfsStore.mount o).eval lib.serve s).2
    ∃ k, mounted.containers = s.containers ++ [k] ∧ ∀ es st p n seen value,
      (∀ e ∈ es, e.concerns p = false →
        Allowed lib ⟨o.containerName, k.id, o.extMountDir, ref.dockerReference⟩ none e) →
      es.filter (·.concerns p) =
        .start p (.unmount { o with commit := true }) :: List.replicate n (.serve p none) →
      (node lib).run (idle (writeFiles mounted o.containerName c)) es = some st →
      st.running p = some ⟨seen, .ret value⟩ →
      (∃ imageID newImage, value = .unmounted imageID newImage none) ∧
        ∀ o' dir next, o'.image = o.image ∧ o'.cacheName = o.cacheName ∧
            o'.cacheNamespace = o.cacheNamespace →
          (LayerfsStore.mount o').Runs (lib.answers false) st.shared (dir, none) next →
          ∃ k', next.containers = st.shared.containers ++ [k'] ∧ k'.contents = c := by
  intro mounted
  have hrun : (LayerfsStore.mount o).Runs (lib.answers false) s
      (((LayerfsStore.mount o).eval lib.serve s).1.1, none) mounted :=
    Prog.runs_eval (lib.answers_serve false) (Prod.ext rfl hmount)
  obtain ⟨name, image, k, hmounted, hstart⟩ := runs_mount hrun
  obtain ⟨ref', href', himage', hkept⟩ := hstart rfl
  have hlocal : lib.imageRefOf o = .ok ref := (if_pos himage).trans href
  obtain rfl : ref' = ref := Except.ok.inj (href'.symm.trans hlocal)
  have hcontainer : LayerfsStore.containerName o = .ok o.containerName := if_pos hgiven
  obtain rfl : name = o.containerName := Except.ok.inj (hmounted.named.symm.trans hcontainer)
  obtain ⟨htidy, hnamed⟩ :=
    tidy_of_mounted hmounted hgiven hext hunique hfree ref'.dockerReference
  have hpresent : Present ⟨o.containerName, k.id, o.extMountDir, ref'.dockerReference⟩ mounted := by
    rw [Present, hnamed]
    exact List.cons_ne_nil _ _
  refine ⟨k.mountedAt o.extMountDir, hmounted.latest.containers, ?_⟩
  intro es st p n seen value hothers honce hconcurrent hreturned
  -- without the others the process does the same
  have hown : Own lib ⟨o.containerName, k.id, o.extMountDir, ref'.dockerReference⟩
      { o with commit := true } := by
    refine ⟨rfl, hgiven, .inr rfl, fun parsed hparsed => ?_⟩
    rw [Except.ok.inj (hparsed.symm.trans href)]
  have hallowed := allowed_of_once hown hothers honce
  obtain ⟨alone, halone, hprojects⟩ := (unwinding_owner lib _ p).run
    (sharing_respected lib _ (some p)) (Discipline.idle_safe (Tidy.writeFiles htidy hpresent c))
    ⟨⟨Tidy.writeFiles htidy hpresent c, .refl _ _⟩, rfl⟩ (runWhere_of_allowed hallowed hconcurrent)
  rw [honce] at halone
  obtain ⟨result, hunmount, rfl⟩ := runs_of_alone halone (hprojects.running.trans hreturned)
  obtain ⟨hnone, hunmounted⟩ :=
    (unmounting_of_mounted (.inl hgiven) hmounted c).runs_unmount_ok rfl href hlocal hunmount
  refine ⟨⟨result.1, result.2.1, by rw [hnone]⟩, ?_⟩
  intro o' dir next hsame hnext
  -- the next mount finds the image the process has left
  have himages : st.shared.images ref'.dockerReference = alone.shared.images ref'.dockerReference :=
    hprojects.shared.2.images _ (.inl rfl)
  have hstored := stored_contents hmounted himage' hkept hunmounted
  have hnever : pullPolicyOf o = .never := if_pos himage
  rw [hnever] at hstored
  refine next_mount_local himage hlocal ?_ hsame hnext
  rw [himages]
  exact hstored

/-- Whether a process has returned. -/
def returned (p : ℕ) (st : NodeState ℕ) : Bool :=
  match st.running p with
  | some ⟨_, .ret _⟩ => true
  | _ => false

theorem contents_return_undisturbed_racing :
    ∃ st seen imageID newImage,
      (node numberLibraries).run (idle (writeFiles oneVolume "vol1" 7)) sharedNode = some st ∧
      st.running 2 = some ⟨seen, .ret (.unmounted imageID newImage none)⟩ ∧
      ∀ dir next, (LayerfsStore.mount (volumeAt "vol4" "cache")).Runs (numberLibraries.answers false)
          st.shared (dir, none) next →
        ∃ k', next.containers = st.shared.containers ++ [k'] ∧ k'.contents = 7 := by
  have hruns : ((node numberLibraries).run (idle (writeFiles oneVolume "vol1" 7)) sharedNode).any
      (returned 2) = true := by decide +kernel
  obtain ⟨st, hrun, hreturned⟩ := (Option.any_eq_true _ _).mp hruns
  have hparse : numberLibraries.parseStoreReference (localImageName (volumeAt "vol1" "cache")) =
      .ok ⟨"localhost/cache/default/cache:latest"⟩ := by decide +kernel
  obtain ⟨k, hcontainers, hround⟩ := contents_return_undisturbed (s := emptyNode) rfl (by decide)
    (by decide) (by decide +kernel) (List.forall_mem_nil _) (List.forall_mem_nil _) hparse 7
  rw [id_oneVolume hcontainers] at hround
  unfold returned at hreturned
  split at hreturned
  · next seen value hvalue =>
    obtain ⟨⟨imageID, newImage, rfl⟩, hnext⟩ :=
      hround sharedNode st 2 10 seen value others_sharedNode once_sharedNode hrun hvalue
    refine ⟨st, seen, imageID, newImage, hrun, hvalue, ?_⟩
    exact fun dir next => hnext (volumeAt "vol4" "cache") dir next ⟨rfl, rfl, rfl⟩
  · cases hreturned

end RoundTrip

end K8StorageX.VolumeIsolation
