import K8StorageX.ContainerLibraries
import K8StorageX.StoreWrapper

/-!
# Registered volumes and mounted containers

Calls of `Mount` and `Unmount` on one node, one after the other and each returning
without an error. A volume is registered under the container name of the options;
the wrapped store derives the name of the container from the mount path if the
options have none. As long as the options name the container and the wrapped
`Unmount` succeeds, the volumes registered for the node are the mounted containers.
-/

namespace K8StorageX.MountedVolumes

open ApiProgram CacheModel CommitLock CacheUpdater CacheStructure NodeAgent ContainerLibraries GoErrors
open StoreWrapper (undisturbed UpdateEffect UnmountParts stored listed registered)
open OptimisticStore (Cell)

variable {κ : Type}

section Containers

variable {lib : Libraries κ} {faulty : Bool} {s t : Node κ}

/-- Such operations leave the containers alone, whether they fail or not. -/
theorem containers_of_keeps {op : LayerfsOp} (hkeeps : LayerfsStore.keepsContainers op = true)
    {outcome : op.Outcome} (h : lib.answers faulty (.layerfs op) s outcome t) :
    t.containers = s.containers := by
  rcases h with hperform | ⟨-, text, -, rfl⟩
  · have hstate : t = (lib.perform op s).2 := congrArg Prod.snd hperform
    rw [hstate]
    cases op with
    | newBuilder => cases hkeeps
    | builderMount => cases hkeeps
    | builderSave => cases hkeeps
    | builderUnmount => cases hkeeps
    | builderDelete => cases hkeeps
    | mkdir dir =>
      simp only [Libraries.perform]
      split <;> rfl
    | remove dir =>
      simp only [Libraries.perform]
      split
      · rfl
      · split <;> rfl
    | unmount dir =>
      simp only [Libraries.perform]
      split <;> rfl
    | openBuilder name =>
      simp only [Libraries.perform]
      split <;> rfl
    | openBuilderByPath path =>
      simp only [Libraries.perform]
      split <;> rfl
    | container id =>
      simp only [Libraries.perform, Node.withContainer]
      split <;> rfl
    | changes id =>
      simp only [Libraries.perform, Node.withContainer]
      split <;> rfl
    | builderCommit id imgRef =>
      simp only [Libraries.perform, Node.withContainer]
      split <;> rfl
    | copyImage srcRef destRef =>
      simp only [Libraries.perform]
      split <;> rfl
    | parseStoreReference name => rfl
    | parseImageName name => rfl
    | mount srcDir destDir => rfl
    | contextErr => rfl
    | newStoreReference ref imageID => rfl
  · rfl

theorem containers_of_bookkeeping {α : Type} {p : Agent α} {value : α}
    (hp : p.Issues (LayerfsStore.Bookkeeping true))
    (h : p.Runs (lib.answers faulty) s value t) : t.containers = s.containers := by
  refine Prog.Runs.of_issues (fun s t : Node κ => t.containers = s.containers) (fun _ => rfl)
    ?_ ?_ hp h
  · intro s t u hst htu
    exact htu.trans hst
  · rintro r s response t ⟨op, rfl, hkeeps, -⟩ hanswer
    exact containers_of_keeps hkeeps hanswer

/-- Names of the mounted containers. -/
def mountedNames (s : Node κ) : List String := (s.containers.filter (·.mounted)).map (·.name)

/-- An operation that succeeds has done what it was asked for. -/
theorem perform_of_ok {op : LayerfsOp} {outcome : op.Outcome}
    (h : lib.answers faulty (.layerfs op) s outcome t)
    (hok : ∀ text, outcome ≠ failedOutcome text op) : (outcome, t) = lib.perform op s := by
  rcases h with hperform | ⟨-, text, houtcome, -⟩
  · exact hperform
  · exact absurd houtcome (hok text)

/-- A known container is needed for success; the effect is the same for each. -/
theorem withContainer_ok {α : Type} {id : String} {f : WorkingContainer κ → Except String α × Node κ}
    {value : α} {containers : List (WorkingContainer κ)}
    (h : s.withContainer id f = (.ok value, t)) (hf : ∀ k, (f k).2.containers = containers) :
    t.containers = containers := by
  unfold Node.withContainer at h
  split at h
  · cases h
  · rename_i k hfind
    rw [← hf k, h]

/-- Containers after one of them has been unmounted, and perhaps deleted. -/
def Dismounted (k : WorkingContainer κ) (before after : List (WorkingContainer κ)) : Prop :=
  let unmounted := before.map fun j => if j.id = k.id then { j with mounted := false } else j
  after = unmounted ∨ after = unmounted.filter (·.id ≠ k.id)

/-- The container is unmounted in the libraries. -/
theorem runs_unmountBuilder {opts : MountOptions} {k : WorkingContainer κ} {imageID : String}
    {newImage : Bool}
    (h : (LayerfsStore.unmountBuilder opts k.builder).Runs (lib.answers faulty) s
      (imageID, newImage, none) t) :
    t.containers =
      s.containers.map fun j => if j.id = k.id then { j with mounted := false } else j := by
  obtain ⟨err, s₁, hif, hrest⟩ := Prog.runs_bind_iff.mp h
  have hkept := containers_of_bookkeeping (LayerfsStore.issues_unmountIf _ _) hif
  obtain ⟨unmounted, s₂, hanswer, hpublish⟩ := runs_perform.mp hrest
  dsimp only at hpublish
  cases unmounted with
  | error text =>
    -- the error of the libraries is returned
    exfalso
    rw [if_pos (by cases err <;> simp [LayerfsStore.failure])] at hpublish
    obtain ⟨hvalue, -⟩ := Prog.runs_ret_iff.mp hpublish
    cases err <;> simp [LayerfsStore.failure] at hvalue
  | ok _ =>
    have hperform := perform_of_ok hanswer (by
      intro text houtcome
      cases houtcome)
    have hs₂ : s₂.containers =
        s₁.containers.map fun j => if j.id = k.id then { j with mounted := false } else j :=
      withContainer_ok hperform.symm fun _ => rfl
    rw [← hkept, ← hs₂]
    split at hpublish
    · obtain ⟨-, rfl⟩ := Prog.runs_ret_iff.mp hpublish
      rfl
    · exact containers_of_bookkeeping
        ((LayerfsStore.issues_publish opts _).mono LayerfsStore.ImageWork.bookkeeping) hpublish

/-- A named container is found by its name only. -/
theorem runs_openContainer {opts : MountOptions} {name : String} {builder : Builder}
    (hname : opts.containerName ≠ "")
    (h : (LayerfsStore.openContainer opts name).Runs (lib.answers faulty) s (.ok builder) t) :
    ∃ k, s.containers.find? (·.name == name) = some k ∧ builder = k.builder ∧ t = s := by
  obtain ⟨opened, s₁, hanswer, hrest⟩ := runs_perform.mp h
  cases opened with
  | error text =>
    dsimp only at hrest
    rw [if_neg hname] at hrest
    simp [Prog.pure_eq, Prog.runs_ret_iff] at hrest
  | ok found =>
    have hperform := perform_of_ok hanswer (by
      intro text houtcome
      cases houtcome)
    simp only [Prog.pure_eq, Prog.runs_ret_iff, Except.ok.injEq] at hrest
    obtain ⟨rfl, rfl⟩ := hrest
    unfold Libraries.perform at hperform
    dsimp only at hperform
    split at hperform
    · cases hperform
    · rename_i k hfind
      cases hperform
      exact ⟨k, hfind, rfl, rfl⟩

/-- A successful `Unmount` of a named container has found it by its name and
unmounted it. -/
theorem runs_unmount {opts : MountOptions} {imageID : String} {newImage : Bool}
    (hname : opts.containerName ≠ "")
    (h : (LayerfsStore.unmount opts).Runs (lib.answers faulty) s (imageID, newImage, none) t) :
    ∃ k ∈ s.containers, k.name = opts.containerName ∧
      Dismounted k s.containers t.containers := by
  unfold LayerfsStore.unmount at h
  have hnamed : LayerfsStore.containerName opts = .ok opts.containerName := by
    rw [LayerfsStore.containerName, if_pos hname]
  have hgiven : decide (opts.containerName = "" ∧ opts.extMountDir = "") = false := by
    simp [hname]
  simp only [hgiven, hnamed] at h
  cases hvalid : LayerfsStore.validate opts with
  | some e => simp [hvalid, Prog.pure_eq, Prog.runs_ret_iff] at h
  | none =>
    simp only [hvalid] at h
    obtain ⟨err, s₁, hif, hopen⟩ := Prog.runs_bind_iff.mp h
    have hkept := containers_of_bookkeeping (LayerfsStore.issues_unmountIf _ _) hif
    obtain ⟨opened, s₂, hfound, hrest⟩ := Prog.runs_bind_iff.mp hopen
    cases opened with
    | error e => simp [Prog.pure_eq, Prog.runs_ret_iff] at hrest
    | ok builder =>
      obtain ⟨k, hfind, rfl, rfl⟩ := runs_openContainer hname hfound
      have hk : k ∈ s.containers := hkept ▸ List.mem_of_find?_eq_some hfind
      have hkname : k.name = opts.containerName := by simpa using List.find?_some hfind
      refine ⟨k, hk, hkname, ?_⟩
      obtain ⟨⟨imageID', newImage', err'⟩, s₃, hbuilder, hfinish⟩ := Prog.runs_bind_iff.mp hrest
      obtain ⟨cancelled, s₄, hcancelled, hdelete⟩ := runs_perform.mp hfinish
      have hsame := containers_of_keeps rfl hcancelled
      split at hdelete
      · obtain ⟨hvalue, rfl⟩ := Prog.runs_ret_iff.mp hdelete
        cases hvalue
        left
        rw [hsame, runs_unmountBuilder hbuilder, hkept]
      · obtain ⟨deleted, s₅, hanswer, hret⟩ := runs_perform.mp hdelete
        obtain ⟨hvalue, rfl⟩ := Prog.runs_ret_iff.mp hret
        cases err' with
        | some e => simp at hvalue
        | none =>
          cases deleted with
          | error text => simp [LayerfsStore.failure] at hvalue
          | ok _ =>
            have hperform := perform_of_ok hanswer (by
              intro text houtcome
              cases houtcome)
            have hdeleted : t.containers = s₄.containers.filter (·.id ≠ k.id) :=
              withContainer_ok hperform.symm fun _ => rfl
            right
            rw [hdeleted, hsame, runs_unmountBuilder hbuilder, hkept]

end Containers

section Names

/-- A mounted container shares its identifier with those that have its name. -/
def Identified (containers : List (WorkingContainer κ)) : Prop :=
  ∀ j ∈ containers, ∀ k ∈ containers, j.mounted = true → (j.id = k.id ↔ j.name = k.name)

theorem filter_dismounted {k : WorkingContainer κ} {before : List (WorkingContainer κ)}
    (h : ∀ j ∈ before, j.mounted = true → (j.id = k.id ↔ j.name = k.name)) :
    ((before.map fun j => if j.id = k.id then { j with mounted := false } else j).filter
        (·.mounted)).map (·.name) =
      ((before.filter (·.mounted)).map (·.name)).filter (· ≠ k.name) := by
  induction before with
  | nil => rfl
  | cons j before ih =>
    have hrest := ih fun i hi => h i (List.mem_cons_of_mem j hi)
    have hj := h j List.mem_cons_self
    rw [List.map_cons]
    cases hmounted : j.mounted with
    | false => by_cases hid : j.id = k.id <;> simp [hid, hmounted] <;> simpa using hrest
    | true =>
      by_cases hid : j.id = k.id
      · simpa [hid, hmounted, (hj hmounted).mp hid] using hrest
      · have hname : j.name ≠ k.name := fun heq => hid ((hj hmounted).mpr heq)
        simpa [hid, hmounted, hname] using hrest

/-- Unmounting removes the name of the container. -/
theorem Dismounted.names {k : WorkingContainer κ} {before after : List (WorkingContainer κ)}
    (h : Dismounted k before after) (hidentified : Identified before) (hk : k ∈ before) :
    (after.filter (·.mounted)).map (·.name) =
      ((before.filter (·.mounted)).map (·.name)).filter (· ≠ k.name) := by
  have hfilter := filter_dismounted fun j hj => hidentified j hj k hk
  rcases h with rfl | rfl
  · exact hfilter
  · rw [← hfilter, List.filter_filter]
    congr 1
    refine List.filter_congr fun j hj => ?_
    obtain ⟨i, -, rfl⟩ := List.mem_map.mp hj
    by_cases hid : i.id = k.id <;> simp [hid]

/-- Containers keep their identifiers and names when one of them is unmounted. -/
theorem Dismounted.identified {k : WorkingContainer κ} {before after : List (WorkingContainer κ)}
    (h : Dismounted k before after) (hidentified : Identified before) : Identified after := by
  have horigin : ∀ j ∈ after, ∃ i ∈ before, j.id = i.id ∧ j.name = i.name ∧
      (j.mounted = true → i.mounted = true) := by
    intro j hj
    have hmem : j ∈ before.map fun j => if j.id = k.id then { j with mounted := false } else j := by
      rcases h with rfl | rfl
      · exact hj
      · exact List.mem_of_mem_filter hj
    obtain ⟨i, hi, rfl⟩ := List.mem_map.mp hmem
    refine ⟨i, hi, ?_⟩
    by_cases hid : i.id = k.id <;> simp [hid]
  intro j hj l hl hmounted
  obtain ⟨i, hi, hid, hname, hbefore⟩ := horigin j hj
  obtain ⟨i', hi', hid', hname', -⟩ := horigin l hl
  rw [hid, hname, hid', hname']
  exact hidentified i hi i' hi' (hbefore hmounted)

/-- Mounting adds a container with a name and an identifier of its own. -/
theorem identified_append {k : WorkingContainer κ} {before : List (WorkingContainer κ)}
    (hidentified : Identified before) (hid : ∀ j ∈ before, j.id ≠ k.id)
    (hname : ∀ j ∈ before, j.name ≠ k.name) : Identified (before ++ [k]) := by
  intro j hj l hl hmounted
  rw [List.mem_append, List.mem_singleton] at hj hl
  rcases hj with hj | rfl
  · rcases hl with hl | rfl
    · exact hidentified j hj l hl hmounted
    · exact iff_of_false (hid j hj) (hname j hj)
  · rcases hl with hl | rfl
    · exact iff_of_false (fun heq => hid l hl heq.symm) fun heq => hname l hl heq.symm
    · exact iff_of_true rfl rfl

end Names

section Volumes

/-- Updating a node leaves the first entries of the others alone. -/
theorem volumesOn_of_ne {nodeName other : String} {f : List VolumeStatus → List VolumeStatus}
    {nodes nodes' : List NodeStatus} (h : Updated nodeName f nodes nodes')
    (hne : other ≠ nodeName) : volumesOn nodes' other = volumesOn nodes other := by
  have hentry : ∀ {n : NodeStatus}, n.name = nodeName → (n.name == other) = false := by
    intro n hn
    simpa [hn] using fun heq => hne heq.symm
  unfold volumesOn
  cases h with
  | existing _ hname hname' _ => simp [List.find?_append, hentry hname, hentry hname']
  | appended _ hname _ => simp [List.find?_append, hentry hname]

/-- Changing the entry of another node leaves the volumes of a node alone. -/
theorem modify_of_ne {nodeName : String} {nodes : List NodeStatus} {i : ℕ} {n : NodeStatus}
    {f : NodeStatus → NodeStatus} (hi : nodes[i]? = some n) (hf : (f n).name = n.name)
    (hne : n.name ≠ nodeName) :
    listed (nodes.modify i f) nodeName = listed nodes nodeName ∧
      volumesOn (nodes.modify i f) nodeName = volumesOn nodes nodeName := by
  obtain ⟨pre, post, rfl, rfl⟩ : ∃ pre post, nodes = pre ++ n :: post ∧ pre.length = i := by
    obtain ⟨hlt, hget⟩ := List.getElem?_eq_some_iff.mp hi
    refine ⟨nodes.take i, nodes.drop (i + 1), ?_, List.length_take_of_le hlt.le⟩
    rw [← hget, List.getElem_cons_drop, List.take_append_drop]
  have hskip : (n.name == nodeName) = false := by simpa using hne
  have hskip' : ((f n).name == nodeName) = false := by rw [hf, hskip]
  rw [modify_split]
  constructor
  · simp [listed, List.filter_append, hskip, hskip']
  · simp [volumesOn, List.find?_append, hskip, hskip']

/-- Asking for a commit leaves the volumes of a node without locks alone. -/
theorem decideCommit_unlocked {c : Cache} {nodeName : String} (volumeName : String) (now : Time)
    (hunlocked : ∀ v ∈ listed c.status.nodes nodeName, v.commitStartTime = none) :
    let c' := (decideCommit nodeName volumeName now c).1
    listed c'.status.nodes nodeName = listed c.status.nodes nodeName ∧
      volumesOn c'.status.nodes nodeName = volumesOn c.status.nodes nodeName := by
  have hlisted : ∀ {n : NodeStatus} {v : VolumeStatus}, n ∈ c.status.nodes → v ∈ n.volumes →
      n.name = nodeName → v.commitStartTime = none := by
    intro n v hn hv hname
    refine hunlocked v (List.mem_flatMap.mpr ⟨n, ?_, hv⟩)
    simp [hn, hname]
  have hscan : listed (commitInProgress c now).2.status.nodes nodeName =
        listed c.status.nodes nodeName ∧
      volumesOn (commitInProgress c now).2.status.nodes nodeName =
        volumesOn c.status.nodes nodeName := by
    unfold commitInProgress
    rcases scanNodes_cases c now 0 c.status.nodes with hsame | ⟨k, n, j, v, hk, hv, hlock, hexpired⟩
    · rw [hsame]
      exact ⟨rfl, rfl⟩
    · -- an expired lock belongs to another node
      have hne : n.name ≠ nodeName := by
        intro hname
        rw [hlisted (List.mem_of_getElem? hk) hv hname] at hlock
        cases hlock
      rw [hexpired, Nat.zero_add]
      unfold expireCommit
      dsimp only
      have hremoved := fun cs : CacheStatus => removeVolume_updated cs n.name v.name now
      rw [StoreWrapper.listed_of_ne (hremoved _) hne.symm, volumesOn_of_ne (hremoved _) hne.symm]
      exact modify_of_ne hk rfl hne
  -- the volume itself holds no lock, so the commit is refused
  have hrefused : ∀ {i j : ℕ}, findVolume c nodeName volumeName = some (i, j) →
      (((c.status.nodes[i]?).bind (·.volumes[j]?)).any (·.committable)) = true →
      (commitInProgress c now).1 = true := by
    intro i j hfind hcommittable
    rw [findVolume_eq_some hfind, Option.any_eq_true] at hcommittable
    obtain ⟨v, hv, -⟩ := hcommittable
    simp only [registeredVolume, Option.bind_eq_some_iff] at hv
    obtain ⟨n, hn, hv⟩ := hv
    have hnode : n ∈ c.status.nodes := List.mem_of_find?_eq_some hn
    have hvolume : v ∈ n.volumes := List.mem_of_find?_eq_some hv
    have hname : n.name = nodeName := by simpa using List.find?_some hn
    cases hprogress : (commitInProgress c now).1 with
    | true => rfl
    | false =>
      have hrunning := (commitInProgress_eq_false_iff c).mp hprogress v
        (mem_volumes.mpr ⟨n, hnode, hvolume⟩)
      rw [commitRunning_of_none (hlisted hnode hvolume hname)] at hrunning
      cases hrunning
  dsimp only
  cases hdecided : decideCommit nodeName volumeName now c with
  | mk c' granted =>
    have houtcome := decided nodeName volumeName now c
    rw [hdecided] at houtcome
    cases houtcome with
    | refused => exact ⟨rfl, rfl⟩
    | inProgress => exact hscan
    | granted hfind hcommittable hscanned =>
      rw [hrefused hfind hcommittable] at hscanned
      cases hscanned

/-- Updating the only entry of a node that lists volumes. -/
theorem updated_entry {nodeName : String} {f : List VolumeStatus → List VolumeStatus}
    {nodes nodes' : List NodeStatus} (h : Updated nodeName f nodes nodes')
    (hentry : listed nodes nodeName = volumesOn nodes nodeName) :
    listed nodes' nodeName = f (listed nodes nodeName) ∧
      listed nodes' nodeName = volumesOn nodes' nodeName := by
  obtain ⟨rest, hlisted, hlisted', hvolumes⟩ := StoreWrapper.listed_self h
  have hrest : rest = [] := by simpa [hentry] using hlisted
  rw [hlisted', hvolumes, hentry, hrest, List.append_nil]
  exact ⟨rfl, rfl⟩

theorem registered_eq_listed (cache : Option Cache) (nodeName : String) :
    registered cache nodeName = listed (cache.getD .new).status.nodes nodeName := by
  cases cache <;> rfl

end Volumes

section Cluster

/-- Answers to undisturbed calls, as before, but an object that exists is never
reported as missing. -/
def truthful : (r : Req) → Cell Cache → Resp r → Cell Cache → Prop
  | .cache r, s, response, t => ∃ (fault : Option ApiError) (elapsed : ℕ), fault ≠ some .notFound ∧
      { s with clock := s.clock + elapsed }.serve cacheSpec fault r = (response, t)
  | .enterUnmount _, s, _, t => t = s
  | .layerfs _, s, _, t => t = s

theorem undisturbed_of_truthful {r : Req} {s t : Cell Cache} {response : Resp r}
    (h : truthful r s response t) : undisturbed r s response t := by
  cases r with
  | cache r =>
    obtain ⟨fault, elapsed, -, hserve⟩ := h
    exact ⟨fault, elapsed, hserve⟩
  | enterUnmount opts => exact h
  | layerfs op => exact h

/-- The response does not say that the object is missing. -/
def Present : (r : OptimisticStore.Req Cache) → OptimisticStore.Resp Cache r → Prop
  | .get, response => response ≠ .error .notFound
  | .create, response => response ≠ .error .notFound
  | .update _ _, response => response ≠ .error .notFound
  | .now, _ => True

/-- An object that exists stays and is not reported as missing. -/
theorem truthful_present {r : OptimisticStore.Req Cache} {s t : Cell Cache}
    {response : OptimisticStore.Resp Cache r} (hs : s.object.isSome)
    (h : truthful (.cache r) s response t) : t.object.isSome ∧ Present r response := by
  obtain ⟨fault, elapsed, hfault, hserve⟩ := h
  obtain ⟨read, hread⟩ := Option.isSome_iff_exists.mp hs
  cases fault with
  | some e =>
    have hne : e ≠ .notFound := fun heq => hfault (heq ▸ rfl)
    cases r <;> cases hserve <;> simp [Present, hs, hne]
  | none =>
    cases r with
    | get =>
      simp only [Cell.serve, hread, Prod.mk.injEq] at hserve
      obtain ⟨rfl, rfl⟩ := hserve
      exact ⟨by simp, by simp [Present]⟩
    | create =>
      simp only [Cell.serve, hread, Prod.mk.injEq] at hserve
      obtain ⟨rfl, rfl⟩ := hserve
      exact ⟨by simp, by simp [Present]⟩
    | now =>
      cases hserve
      exact ⟨hs, trivial⟩
    | update version value =>
      simp only [Cell.serve, hread] at hserve
      split at hserve <;> cases hserve
      · exact ⟨rfl, by simp [Present]⟩
      · exact ⟨by simp, by simp [Present]⟩

/-- What a client of the cache returns as long as the cache is present. -/
def Returns {α : Type} (post : α → Prop) :
    Prog (OptimisticStore.Req Cache) (OptimisticStore.Resp Cache) α → Prop
  | .ret value => post value
  | .call r next => ∀ response, Present r response → Returns post (next response)

theorem Returns.bind {α β : Type} {post : β → Prop}
    {p : Prog (OptimisticStore.Req Cache) (OptimisticStore.Resp Cache) α}
    {f : α → Prog (OptimisticStore.Req Cache) (OptimisticStore.Resp Cache) β}
    (h : Returns (fun value => Returns post (f value)) p) : Returns post (p >>= f) := by
  induction p with
  | ret value => exact h
  | call r next ih => exact fun response hpresent => ih response (h response hpresent)

theorem returns_mono {α : Type} {post weaker : α → Prop}
    {p : Prog (OptimisticStore.Req Cache) (OptimisticStore.Resp Cache) α}
    (hweaker : ∀ value, post value → weaker value) (h : Returns post p) : Returns weaker p := by
  induction p with
  | ret value => exact hweaker value h
  | call r next ih => exact fun response hpresent => ih response (h response hpresent)

theorem Returns.runs {α : Type} {post : α → Prop} {value : α} {s t : Cell Cache}
    {p : Prog (OptimisticStore.Req Cache) (OptimisticStore.Resp Cache) α}
    (hp : Returns post p) (hs : s.object.isSome) (h : (onCache p).Runs truthful s value t) :
    post value := by
  induction p generalizing s with
  | ret result =>
    obtain ⟨rfl, -⟩ := Prog.runs_ret_iff.mp h
    exact hp
  | call r next ih =>
    obtain ⟨response, s₁, hanswer, hrest⟩ := Prog.runs_call_iff.mp h
    obtain ⟨hs₁, hpresent⟩ := truthful_present hs hanswer
    exact ih response (hp response hpresent) hs₁ hrest

/-- An attempt on a cache that exists does not fail because it is missing. -/
theorem returns_attempt (call : Call) (captured : Captured) :
    Returns (fun outcome => outcome.2 ≠ some .notFound)
      (OptimisticStore.attempt cacheSpec call captured) := by
  simp only [OptimisticStore.attempt, Prog.request_bind]
  intro read hread
  cases read with
  | ok read =>
    simp only [OptimisticStore.store, Prog.request_bind]
    intro now _ updated hupdated
    cases updated with
    | ok _ =>
      intro hfailed
      cases hfailed
    | error e => exact fun heq => hupdated (by rw [Option.some.inj heq])
  | error e =>
    have hne : e ≠ .notFound := fun heq => hread (by rw [heq])
    dsimp only
    rw [if_pos (.inl hne)]
    exact fun heq => hne (Option.some.inj heq)

/-- An update of an existing cache does not fail because it is missing. -/
theorem runs_updateCache_present {call : Call} {s t : Cell Cache}
    {outcome : Captured × Option ApiError} (hs : s.object.isSome)
    (h : (updateCache call).Runs truthful s outcome t) : outcome.2 ≠ some .notFound := by
  have hreturns : ∀ retries captured, Returns (fun outcome => outcome.2 ≠ some .notFound)
      (OptimisticStore.retryOnConflict cacheSpec call retries captured) := by
    intro retries
    induction retries with
    | zero => exact returns_attempt call
    | succ retries ih =>
      intro captured
      refine Returns.bind (returns_mono ?_ (returns_attempt call captured))
      intro result hresult
      split
      · exact ih result.1
      · exact hresult
  exact (hreturns _ _).runs hs h

end Cluster

section Calls

/-- A node and the cache in the cluster. -/
structure Host (κ : Type) where
  /-- The cache and the clock. -/
  cell : Cell Cache
  /-- The containers and images of the node. -/
  node : Node κ

/-- Both sides answer a request, each what concerns it. -/
def answers (lib : Libraries κ) (r : Req) (s : Host κ) (response : Resp r) (t : Host κ) : Prop :=
  truthful r s.cell response t.cell ∧ lib.answers true r s.node response t.node

variable {lib : Libraries κ} {nodeName : String} {s t : Host κ}

theorem runs_cell {α : Type} {p : Agent α} {value : α} (h : p.Runs (answers lib) s value t) :
    p.Runs truthful s.cell value t.cell := h.map Host.cell And.left

theorem runs_undisturbed {α : Type} {p : Agent α} {value : α}
    (h : p.Runs (answers lib) s value t) : p.Runs undisturbed s.cell value t.cell :=
  h.map Host.cell fun hanswer => undisturbed_of_truthful hanswer.1

theorem runs_node {α : Type} {p : Agent α} {value : α} (h : p.Runs (answers lib) s value t) :
    p.Runs (lib.answers true) s.node value t.node := h.map Host.node And.right

/-- Updates of the cache leave the node alone. -/
theorem node_updateCache {call : Call} {outcome : Captured × Option ApiError}
    (h : (updateCache call).Runs (answers lib) s outcome t) : t.node = s.node := by
  have hissues : ∀ {α : Type} (p : Prog (OptimisticStore.Req Cache) (OptimisticStore.Resp Cache) α),
      (onCache p).Issues fun r => ∃ c, r = .cache c := by
    intro α p
    induction p with
    | ret value => trivial
    | call r next ih => exact ⟨⟨r, rfl⟩, ih⟩
  refine Prog.Runs.of_issues (fun s t : Host κ => t.node = s.node) (fun _ => rfl) ?_ ?_
    (hissues _) h
  · intro s t u hst htu
    exact htu.trans hst
  · rintro r s response t ⟨c, rfl⟩ hanswer
    exact hanswer.2

/-- An update of the cache, as seen by its callers. -/
theorem effect_updateCache {call : Call} {outcome : Captured × Option ApiError}
    (h : (updateCache call).Runs (answers lib) s outcome t) :
    UpdateEffect call (stored s.cell) (stored t.cell) outcome ∧
      (outcome.2 = some .notFound → stored s.cell = none) := by
  refine ⟨StoreWrapper.runs_updateCache (runs_undisturbed h), ?_⟩
  intro hmissing
  cases hobject : s.cell.object with
  | none => simp [stored, hobject]
  | some read =>
    exact absurd hmissing (runs_updateCache_present (by simp [hobject]) (runs_cell h))

/-- Working on the node leaves the cache alone. -/
theorem stored_onNode {α : Type} {p : Agent α} {value : α} (hp : p.Issues StoreWrapper.OnNode)
    (h : p.Runs (answers lib) s value t) : stored t.cell = stored s.cell :=
  StoreWrapper.stored_of_onNode hp (runs_undisturbed h)

/-- A call that returns without an error, with the error of the wrapped store. -/
inductive SuccessfulCall (lib : Libraries κ) (nodeName : String) (s : Host κ) :
    MountOptions → Option GoError → Host κ → Prop
  /-- `Mount` returns nil. -/
  | mount {opts : MountOptions} {dir : String} {t : Host κ}
      (run : (SynchronizedStore.mount nodeName opts).Runs (answers lib) s (dir, none) t) :
      SuccessfulCall lib nodeName s opts none t
  /-- `Unmount` returns nil. -/
  | unmount {opts : MountOptions} {prepared : Bool × Option GoError}
      {result : String × Bool × Option GoError} {t : Host κ}
      (named : ¬ (opts.cacheName = "" ∨ opts.cacheNamespace = ""))
      (run : UnmountParts (answers lib) StoreWrapper.layerfs nodeName opts prepared result none s t) :
      SuccessfulCall lib nodeName s opts result.2.2 t

/-- The parts of a successful `Unmount` are those of a call that returns nil. -/
theorem unmount_returns_nil_iff {opts : MountOptions} :
    (∃ imageID newImage, (SynchronizedStore.unmount nodeName opts).Runs (answers lib) s
        (imageID, newImage, none) t) ↔
      ¬ (opts.cacheName = "" ∨ opts.cacheNamespace = "") ∧ ∃ prepared result,
        UnmountParts (answers lib) StoreWrapper.layerfs nodeName opts prepared result none s t := by
  rw [SynchronizedStore.unmount]
  constructor
  · rintro ⟨imageID, newImage, h⟩
    by_cases hnamed : opts.cacheName = "" ∨ opts.cacheNamespace = ""
    · unfold StoreWrapper.unmount at h
      rw [if_pos hnamed] at h
      simp [Prog.pure_eq, Prog.runs_ret_iff] at h
    · obtain ⟨prepared, result, err, hparts, hvalue⟩ := (StoreWrapper.runs_unmount hnamed).mp h
      cases hvalue
      exact ⟨hnamed, prepared, result, hparts⟩
  · rintro ⟨hnamed, prepared, result, hparts⟩
    exact ⟨result.1, result.2.1, (StoreWrapper.runs_unmount hnamed).mpr
      ⟨prepared, result, none, hparts, rfl⟩⟩

/-- What the calls know a container by. -/
def containerKey (k : WorkingContainer κ) : String × String × Bool := (k.id, k.name, k.mounted)

theorem mountedNames_eq_keys (n : Node κ) :
    mountedNames n = ((n.containers.map containerKey).filter (·.2.2)).map (·.2.1) := by
  simp [mountedNames, List.filter_map, Function.comp_def, containerKey]

theorem identified_iff_keys (containers : List (WorkingContainer κ)) :
    Identified containers ↔ ∀ a ∈ containers.map containerKey, ∀ b ∈ containers.map containerKey,
      a.2.2 = true → (a.1 = b.1 ↔ a.2.1 = b.2.1) := by
  simp [Identified, containerKey]

/-- Between the calls files are written, images come and go, time passes and contexts
are cancelled, but nobody else touches the cache or mounts and unmounts containers. -/
structure Meanwhile (s t : Host κ) : Prop where
  /-- The cache stays. -/
  cache : stored t.cell = stored s.cell
  /-- The containers stay, apart from their files. -/
  containers : t.node.containers.map containerKey = s.node.containers.map containerKey

/-- Runs of successful calls that all meet a condition. -/
inductive SuccessfulCalls (lib : Libraries κ) (nodeName : String)
    (condition : MountOptions → Option GoError → Prop) (s : Host κ) : Host κ → Prop
  /-- No call yet. -/
  | start : SuccessfulCalls lib nodeName condition s s
  /-- One more call. -/
  | call {t u : Host κ} {opts : MountOptions} {err : Option GoError}
      (before : SuccessfulCalls lib nodeName condition s t)
      (step : SuccessfulCall lib nodeName t opts err u) (meets : condition opts err) :
      SuccessfulCalls lib nodeName condition s u
  /-- Something else happens in between. -/
  | between {t u : Host κ} (before : SuccessfulCalls lib nodeName condition s t)
      (step : Meanwhile t u) : SuccessfulCalls lib nodeName condition s u

/-- The entry of the node in the cache. -/
structure Entered (nodeName : String) (cache : Option Cache) : Prop where
  /-- Only the first entry of the node lists volumes. -/
  entry : listed (cache.getD .new).status.nodes nodeName =
    volumesOn (cache.getD .new).status.nodes nodeName
  /-- No volume of the node is being committed. -/
  unlocked : ∀ v ∈ registered cache nodeName, v.commitStartTime = none

/-- The volumes registered for the node are its mounted containers. -/
structure Matching (nodeName : String) (s : Host κ) : Prop where
  /-- Registered volumes and mounted containers have the same names. -/
  names : (registered (stored s.cell) nodeName).map (·.name) = mountedNames s.node
  /-- The volumes are listed once and hold no locks. -/
  entered : Entered nodeName (stored s.cell)
  /-- Mounted containers are known by their names. -/
  identified : Identified s.node.containers
  /-- Names of mounted containers are different. -/
  nodup : (mountedNames s.node).Nodup

/-- Updating the entry of the node. -/
theorem Entered.updated {before : Option Cache} {c : Cache}
    {f : List VolumeStatus → List VolumeStatus} (h : Entered nodeName before)
    (hupdated : Updated nodeName f (before.getD .new).status.nodes c.status.nodes)
    (hunlocked : ∀ v ∈ f (registered before nodeName), v.commitStartTime = none) :
    Entered nodeName (some c) ∧ registered (some c) nodeName = f (registered before nodeName) := by
  obtain ⟨hlisted, hentry⟩ := updated_entry hupdated h.entry
  have hregistered : registered (some c) nodeName = f (registered before nodeName) := by
    rw [registered_eq_listed before]
    exact hlisted
  refine ⟨⟨hentry, ?_⟩, hregistered⟩
  rw [hregistered]
  exact hunlocked

theorem node_register {volumeName image : String} {result : String × Option GoError}
    (h : (registerCacheVolume nodeName volumeName image true).Runs (answers lib) s result t) :
    t.node = s.node := by
  obtain ⟨outcome, t', hupdate, hret⟩ := Prog.runs_bind_iff.mp h
  obtain ⟨-, rfl⟩ := Prog.runs_ret_iff.mp hret
  exact node_updateCache hupdate

/-- Registering a new volume adds it to those of the node. -/
theorem runs_register {volumeName image image' : String} (hs : Entered nodeName (stored s.cell))
    (hnew : volumeName ∉ (registered (stored s.cell) nodeName).map (·.name))
    (h : (registerCacheVolume nodeName volumeName image true).Runs (answers lib) s (image', none) t) :
    Entered nodeName (stored t.cell) ∧
      (registered (stored t.cell) nodeName).map (·.name) =
        (registered (stored s.cell) nodeName).map (·.name) ++ [volumeName] := by
  obtain ⟨outcome, t', hupdate, hret⟩ := Prog.runs_bind_iff.mp h
  obtain ⟨hreply, rfl⟩ := Prog.runs_ret_iff.mp hret
  have hnone : outcome.2 = none := by
    have herr := congrArg Prod.snd hreply
    simpa [registerReply] using herr.symm
  obtain ⟨heffect, -⟩ := effect_updateCache hupdate
  generalize hbefore : stored s.cell = before at *
  generalize stored t.cell = after at *
  cases heffect with
  | failed captured e => cases hnone
  | created captured e missing creates => cases hnone
  | applied now _ =>
    have hnot : ¬ Registered (before.getD .new).status.nodes nodeName volumeName := by
      rintro ⟨v, hv, hvname⟩
      rw [← hs.entry, ← registered_eq_listed] at hv
      exact hnew (List.mem_map.mpr ⟨v, hv, hvname⟩)
    obtain ⟨hupdated, -, -⟩ := addVolume_of_not_registered
      (c := { before.getD .new with status := { (before.getD .new).status with
        image := if (before.getD .new).status.image = "" then image
          else (before.getD .new).status.image
        used := (before.getD .new).status.used + 1 } }) hnot true now
    obtain ⟨hentered, hlisted⟩ := hs.updated hupdated (by
      intro v hv
      rcases List.mem_append.mp hv with hold | hadded
      · exact hs.unlocked v hold
      · rw [List.mem_singleton.mp hadded]
        rfl)
    refine ⟨hentered, ?_⟩
    have hnames := congrArg (List.map (·.name)) hlisted
    rw [List.map_append] at hnames
    exact hnames

/-- Asking for the commit leaves the volumes of the node alone. -/
theorem runs_prepareCommit {volumeName : String} {prepared : Bool × Option GoError}
    (hs : Entered nodeName (stored s.cell))
    (h : (prepareCommit nodeName volumeName).Runs (answers lib) s prepared t) :
    t.node = s.node ∧ Entered nodeName (stored t.cell) ∧
      registered (stored t.cell) nodeName = registered (stored s.cell) nodeName := by
  obtain ⟨outcome, t', hupdate, hret⟩ := Prog.runs_bind_iff.mp h
  obtain ⟨-, rfl⟩ := Prog.runs_ret_iff.mp hret
  refine ⟨node_updateCache hupdate, ?_⟩
  obtain ⟨heffect, -⟩ := effect_updateCache hupdate
  generalize stored s.cell = before at *
  generalize stored t.cell = after at *
  cases heffect with
  | failed captured e => exact ⟨hs, rfl⟩
  | created captured e missing creates => cases creates
  | applied now _ =>
    have hunlocked : ∀ v ∈ listed (before.getD .new).status.nodes nodeName,
        v.commitStartTime = none := by
      rw [← registered_eq_listed]
      exact hs.unlocked
    obtain ⟨hlisted, hvolumes⟩ := decideCommit_unlocked volumeName now hunlocked
    have hsame : registered (some (decideCommit nodeName volumeName now (before.getD .new)).1)
        nodeName = registered before nodeName := by
      rw [registered_eq_listed before]
      exact hlisted
    refine ⟨⟨?_, ?_⟩, hsame⟩
    · exact hlisted.trans (hs.entry.trans hvolumes.symm)
    · intro v hv
      exact hs.unlocked v (hsame ▸ hv)

/-- Unregistering a volume removes it from those of the node. -/
theorem runs_unregister {volumeName : String} {commitErr : Option GoError}
    (hs : Entered nodeName (stored s.cell))
    (h : (unregisterCacheVolume nodeName volumeName commitErr).Runs (answers lib) s none t) :
    t.node = s.node ∧ Entered nodeName (stored t.cell) ∧
      (registered (stored t.cell) nodeName).map (·.name) =
        ((registered (stored s.cell) nodeName).map (·.name)).filter (· ≠ volumeName) := by
  obtain ⟨outcome, t', hupdate, hret⟩ := Prog.runs_bind_iff.mp h
  obtain ⟨hreply, rfl⟩ := Prog.runs_ret_iff.mp hret
  refine ⟨node_updateCache hupdate, ?_⟩
  obtain ⟨heffect, hmissing⟩ := effect_updateCache hupdate
  have hok : outcome.2 = none ∨ outcome.2 = some .notFound := by
    unfold unregisterReply at hreply
    split at hreply
    · rename_i hnotFound
      exact .inr hnotFound
    · exact .inl (by simpa using hreply.symm)
  generalize stored s.cell = before at *
  generalize stored t.cell = after at *
  cases heffect with
  | failed captured e =>
    have hnone : before = none := hmissing (hok.resolve_left (by simp))
    subst hnone
    exact ⟨hs, rfl⟩
  | created captured e missing creates => cases creates
  | applied now hexists =>
    have hupdated := unregisterVolume_updated nodeName volumeName (commitErr.map (·.message)) now
      (before.getD .new)
    obtain ⟨hentered, hlisted⟩ := hs.updated hupdated fun v hv =>
      hs.unlocked v (List.mem_of_mem_filter hv)
    refine ⟨hentered, ?_⟩
    have hnames := congrArg (List.map (·.name)) hlisted
    refine hnames.trans ?_
    rw [List.filter_map]
    congr 2
    funext v
    by_cases hv : v.name = volumeName <;> simp [hv]

/-- A successful `Mount` of a named volume. -/
theorem Matching.mount {opts : MountOptions} {dir : String} (hs : Matching nodeName s)
    (hname : opts.containerName ≠ "")
    (h : (SynchronizedStore.mount nodeName opts).Runs (answers lib) s (dir, none) t) :
    Matching nodeName t := by
  unfold SynchronizedStore.mount StoreWrapper.mount at h
  split at h
  · simp [Prog.pure_eq, Prog.runs_ret_iff] at h
  · obtain ⟨⟨image, err⟩, s₁, hregister, hrest⟩ := Prog.runs_bind_iff.mp h
    cases err with
    | some e => simp [Prog.pure_eq, Prog.runs_ret_iff] at hrest
    | none =>
      dsimp only at hrest
      rw [if_neg (by simp)] at hrest
      obtain ⟨result, s₂, hmount, hfinish⟩ := Prog.runs_bind_iff.mp hrest
      have hmounted : result = (dir, none) ∧ t = s₂ := by
        cases hresult : result.2 with
        | none =>
          rw [hresult, if_neg (by simp)] at hfinish
          obtain ⟨hvalue, hstate⟩ := Prog.runs_ret_iff.mp hfinish
          exact ⟨hvalue.symm, hstate⟩
        | some e =>
          rw [hresult, if_pos (by simp)] at hfinish
          obtain ⟨_, _, -, hret⟩ := Prog.runs_bind_iff.mp hfinish
          obtain ⟨rfl, -⟩ := Prog.runs_ret_iff.mp hret
          cases hresult
      obtain ⟨rfl, rfl⟩ := hmounted
      -- the wrapped store names the container after the options
      obtain ⟨name, base, k, hk, -⟩ := runs_mount (runs_node hmount)
      have hkname : name = opts.containerName := by
        have hnamed := hk.named
        rw [LayerfsStore.containerName, if_pos hname, Except.ok.injEq] at hnamed
        exact hnamed.symm
      subst hkname
      obtain ⟨hcontainer, hfresh⟩ := hk.name hname
      have hnode : s₁.node = s.node := node_register hregister
      rw [hnode] at hfresh
      have hnew : opts.containerName ∉ mountedNames s.node := by
        intro hmem
        obtain ⟨j, hj, hjname⟩ := List.mem_map.mp hmem
        exact hfresh j (List.mem_of_mem_filter hj) hjname
      obtain ⟨hentered, hregistered⟩ := runs_register hs.entered (hs.names ▸ hnew) hregister
      have hcell := stored_onNode (StoreWrapper.layerfs.mount_onNode _) hmount
      rw [← hcell] at hentered hregistered
      have hcontainers : t.node.containers =
          s.node.containers ++ [k.mountedAt opts.extMountDir] := hnode ▸ hk.latest.containers
      have hnames : mountedNames t.node = mountedNames s.node ++ [opts.containerName] := by
        simp [mountedNames, hcontainers, WorkingContainer.mountedAt, hcontainer]
      refine ⟨?_, hentered, ?_, ?_⟩
      · rw [hregistered, hs.names, hnames]
      · rw [hcontainers]
        refine identified_append hs.identified (hnode ▸ hk.latest.fresh) ?_
        intro j hj
        have hne := hfresh j hj
        rw [← hcontainer] at hne
        exact hne
      · rw [hnames]
        exact List.nodup_append.mpr ⟨hs.nodup, List.nodup_singleton _, by
          intro a ha b hb heq
          rw [List.mem_singleton.mp hb] at heq
          exact hnew (heq ▸ ha)⟩

/-- A successful `Unmount` of a named volume whose container has been unmounted. -/
theorem Matching.unmount {opts : MountOptions} {prepared : Bool × Option GoError}
    {imageID : String} {newImage : Bool} (hs : Matching nodeName s)
    (hname : opts.containerName ≠ "")
    (h : UnmountParts (answers lib) StoreWrapper.layerfs nodeName opts prepared
      (imageID, newImage, none) none s t) : Matching nodeName t := by
  obtain ⟨s₁, s₂, s₃, hprepare, henter, hunmount, hunregister⟩ := h.parts
  obtain ⟨hnode₁, hentered₁, hregistered₁⟩ := runs_prepareCommit hs.entered hprepare
  have hcell₂ : s₂.cell = s₁.cell := henter.1
  have hnode₂ : s₂.node = s₁.node := henter.2
  have hcell₃ := stored_onNode (StoreWrapper.layerfs.unmount_onNode _) hunmount
  rw [hcell₂] at hcell₃
  rw [← hcell₃] at hentered₁ hregistered₁
  obtain ⟨hnode₄, hentered, hregistered⟩ := runs_unregister hentered₁ hunregister
  obtain ⟨k, hk, hkname, hdismounted⟩ := runs_unmount hname (runs_node hunmount)
  rw [hnode₂, hnode₁] at hk hdismounted
  rw [← hnode₄] at hdismounted
  have hnames : mountedNames t.node = (mountedNames s.node).filter (· ≠ opts.containerName) := by
    rw [← hkname]
    exact hdismounted.names hs.identified hk
  refine ⟨?_, hentered, hdismounted.identified hs.identified, ?_⟩
  · rw [hregistered, hregistered₁, hs.names, hnames]
  · rw [hnames]
    exact hs.nodup.filter _

/-- What happens between the calls keeps volumes and containers. -/
theorem Matching.meanwhile (hs : Matching nodeName s) (h : Meanwhile s t) : Matching nodeName t := by
  have hnames : mountedNames t.node = mountedNames s.node := by
    rw [mountedNames_eq_keys, mountedNames_eq_keys, h.containers]
  have hidentified : Identified s.node.containers → Identified t.node.containers := by
    rw [identified_iff_keys, identified_iff_keys, h.containers]
    exact id
  refine ⟨?_, ?_, hidentified hs.identified, ?_⟩
  · rw [h.cache, hs.names, hnames]
  · rw [h.cache]
    exact hs.entered
  · rw [hnames]
    exact hs.nodup

/-- A node without mounted containers and without registered volumes. -/
theorem matching_initial (hnone : registered (stored s.cell) nodeName = [])
    (hunmounted : ∀ k ∈ s.node.containers, k.mounted = false) : Matching nodeName s := by
  have hnames : mountedNames s.node = [] := by
    have hfilter : s.node.containers.filter (·.mounted) = [] :=
      List.filter_eq_nil_iff.mpr fun k hk => by simp [hunmounted k hk]
    rw [mountedNames, hfilter, List.map_nil]
  have hlisted : listed ((stored s.cell).getD .new).status.nodes nodeName = [] := by
    rw [← registered_eq_listed, hnone]
  obtain ⟨rest, hsplit, -, -⟩ := StoreWrapper.listed_self
    (updated_upsertNode ((stored s.cell).getD .new).status nodeName 0)
  have hvolumes : volumesOn ((stored s.cell).getD .new).status.nodes nodeName = [] := by
    rw [hlisted] at hsplit
    exact (List.append_eq_nil_iff.mp hsplit.symm).1
  refine ⟨?_, ⟨?_, ?_⟩, ?_, ?_⟩
  · rw [hnone, hnames, List.map_nil]
  · rw [hlisted, hvolumes]
  · rw [hnone]
    exact nofun
  · intro j hj k _ hmounted
    rw [hunmounted j hj] at hmounted
    cases hmounted
  · rw [hnames]
    exact List.nodup_nil

/-- The options name the container and the wrapped store has succeeded. -/
def Named (opts : MountOptions) (wrappedErr : Option GoError) : Prop :=
  opts.containerName ≠ "" ∧ wrappedErr = none

/-- From a node without mounted containers and without registered volumes: after any
successful calls of `Mount` and `Unmount` that name the container and in which the
wrapped store succeeds, the cache lists for the node exactly one volume for each
mounted container. -/
theorem registered_volumes_mounted
    (hnone : registered (stored s.cell) nodeName = [])
    (hunmounted : ∀ k ∈ s.node.containers, k.mounted = false)
    (h : SuccessfulCalls lib nodeName Named s t) :
    (registered (stored t.cell) nodeName).map (·.name) = mountedNames t.node ∧
      (mountedNames t.node).Nodup := by
  have hmatching : Matching nodeName t := by
    induction h with
    | start => exact matching_initial hnone hunmounted
    | @call t u opts err before step meets ih =>
      obtain ⟨hname, herr⟩ := meets
      cases step with
      | mount run => exact ih.mount hname run
      | unmount named run =>
        rename_i prepared result
        obtain ⟨imageID, newImage, wrappedErr⟩ := result
        cases herr
        exact ih.unmount hname run
    | between before step ih => exact ih.meanwhile step
  exact ⟨hmatching.names, hmatching.nodup⟩

/-- Evaluate requests without failures. -/
def serve (lib : Libraries κ) : (r : Req) → Host κ → Resp r × Host κ
  | .cache r, s =>
    let answer := s.cell.serve cacheSpec none r
    (answer.1, { s with cell := answer.2 })
  | .enterUnmount _, s => ((), s)
  | .layerfs op, s =>
    let answer := lib.perform op s.node
    (answer.1, { s with node := answer.2 })

theorem answers_serve (lib : Libraries κ) (r : Req) (s : Host κ) :
    answers lib r s (serve lib r s).1 (serve lib r s).2 := by
  cases r with
  | cache r => exact ⟨⟨none, 0, nofun, by simp [serve]⟩, rfl⟩
  | enterUnmount opts => exact ⟨rfl, rfl⟩
  | layerfs op => exact ⟨rfl, .inl rfl⟩

theorem SuccessfulCall.mount_eval {opts : MountOptions}
    (h : ((SynchronizedStore.mount nodeName opts).eval (serve lib) s).1.2 = none) :
    SuccessfulCall lib nodeName s opts none
      ((SynchronizedStore.mount nodeName opts).eval (serve lib) s).2 :=
  .mount (Prog.runs_eval (answers_serve lib) (Prod.ext rfl h))

/-- A node without images and containers and a cluster without the cache. -/
def emptyHost : Host ℕ := ⟨⟨none, 0, 0⟩, emptyNode⟩

/-- A volume of a cache that may have no container name. -/
def volumeAt (containerName extMountDir : String) : MountOptions :=
  { image := "", containerName := containerName, extMountDir := extMountDir, commit := false
    cacheName := "cache1", cacheNamespace := "default" }

/-- The host after a volume has been mounted. -/
def afterMount (opts : MountOptions) (s : Host ℕ) : Host ℕ :=
  ((SynchronizedStore.mount "node1" opts).eval (serve numberLibraries) s).2

/-- Two named volumes are mounted. -/
theorem registered_volumes_mounted_named :
    let t := afterMount (volumeAt "vol2" "/data/b") (afterMount (volumeAt "vol1" "/data/a") emptyHost)
    SuccessfulCalls numberLibraries "node1" Named emptyHost t ∧
      (registered (stored t.cell) "node1").map (·.name) = mountedNames t.node ∧
      mountedNames t.node = ["vol1", "vol2"] := by
  have hcalls : SuccessfulCalls numberLibraries "node1" Named emptyHost
      (afterMount (volumeAt "vol2" "/data/b") (afterMount (volumeAt "vol1" "/data/a") emptyHost)) :=
    .call (.call .start (.mount_eval (by decide +kernel)) ⟨by decide, rfl⟩)
      (.mount_eval (by decide +kernel)) ⟨by decide, rfl⟩
  refine ⟨hcalls, (registered_volumes_mounted rfl (by simp [emptyHost, emptyNode]) hcalls).1, ?_⟩
  decide +kernel

/-- Two volumes without a container name are registered as one. -/
theorem unnamed_volumes_registered_once :
    ∃ t, SuccessfulCalls numberLibraries "node1" (fun _ _ => True) emptyHost t ∧
      mountedNames t.node = ["/data/a", "/data/b"] ∧
      (registered (stored t.cell) "node1").map (·.name) = [""] := by
  refine ⟨afterMount (volumeAt "" "/data/b") (afterMount (volumeAt "" "/data/a") emptyHost), ?_, ?_⟩
  · exact .call (.call .start (.mount_eval (by decide +kernel)) trivial)
      (.mount_eval (by decide +kernel)) trivial
  · decide +kernel

end Calls

end K8StorageX.MountedVolumes
