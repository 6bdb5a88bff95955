import K8StorageX.ImagePruning

/-!
# Pruning next to other users of the image store

`Prune` selects images from one listing and removes them after looking each of
them up again. The lookup by ID ignores a single name the record carries, so what
protects an image that is named in between is only that it was not selected. The
system keeps, as a ghost, the selected images that are still to be looked up; as
long as none of these is given a name, every removal is based on a record
without names.
-/

namespace K8StorageX.PruneSafety

open ApiProgram WorkerPool ImagePruning GoErrors

/-- Steps of the other processes. -/
inductive Env where
  /-- An image is created, with or without names. -/
  | create (image : Image) (layer : Layer) (config : Option ImageConfig)
  /-- An image is given a name, which no other image keeps. -/
  | name (id name : String)
  /-- An image is removed. -/
  | remove (id : String)
  /-- A container is created. -/
  | run (container : Container)
  deriving DecidableEq

/-- The image a step leaves with a name. -/
def Env.named : Env → Option String
  | .create image _ _ => if image.names = [] then none else some image.id
  | .name id _ => some id
  | .remove _ => none
  | .run _ => none

/-- The names of an image after a name has been given to the image with an ID. -/
def namesWith (id name : String) (image : Image) : List String :=
  if image.id = id then image.names ++ [name] else image.names.filter (· ≠ name)

/-- Effect of the other processes on the image store. -/
def act : Env → ImageStore → Option ImageStore
  | .create image layer config, s =>
    if fresh : image.id ∉ s.images.map Image.id then
      some
        { s with
          images := s.images ++ [image]
          distinct := by
            rw [List.map_append, List.nodup_append_comm]
            exact List.nodup_cons.mpr ⟨fresh, s.distinct⟩
          layers := Function.update s.layers layer.id (some layer)
          configs := Function.update s.configs image.id config }
    else none
  | .name id name, s => some (s.rename (namesWith id name))
  | .remove id, s => some (s.remove id)
  | .run container, s => some { s with containers := s.containers ++ [container] }

/-- The image store and what a running `Prune` has selected. -/
structure Shared where
  /-- The image store. -/
  store : ImageStore
  /-- The selected images that have not been looked up; `none` before the listing. -/
  awaiting : Option (List String)

/-- The selection after an answered call: the first listing makes it, a lookup
takes the image out. -/
def selection (awaiting : Option (List String)) : (r : Req) → Resp r → Option (List String)
  | .images, .ok images =>
    match awaiting with
    | none => some (dangling images)
    | some ids => some ids
  | .getStoreImage ref, _ => awaiting.map fun ids => ids.filter (· ≠ ref.imageID)
  | _, _ => awaiting

/-- A call of the libraries, with its effect on the selection. -/
def Shared.serve (fault : Option String) (r : Req) (s : Shared) : Resp r × Shared :=
  let answer := s.store.serve fault r
  (answer.1, ⟨answer.2, selection s.awaiting r answer.1⟩)

/-- One `Prune` after the other, among the other processes. -/
def pruning (rounds : ℕ) :
    System Unit Unit Req Resp Shared (Option String) Env (Option (Option GoError)) where
  serve _ := Shared.serve
  env e s := (act e s.store).map fun store => ⟨store, s.awaiting⟩
  onStart _ _ s := some ⟨s.store, none⟩
  program _ _ := prune rounds
  onFinish _ _ s := some s
  onCrash _ := none

/-- States of the system. -/
abbrev PruningState : Type := State Unit Req Resp Shared (Option (Option GoError))

/-- Steps of the system. -/
abbrev PruningEvent : Type := Event Unit Unit (Option String) Env

/-- The image has been selected and is still to be looked up. -/
def Shared.Awaits (s : Shared) (id : String) : Prop := ∃ ids, s.awaiting = some ids ∧ id ∈ ids

/-- No selected image is named before it is looked up. -/
def NamedLate (st : PruningState) : PruningEvent → Prop
  | .env e => ∀ id, e.named = some id → ¬st.shared.Awaits id
  | _ => True

/-- The record a pending removal is based on. -/
def removing (st : PruningState) : Option Image :=
  match st.running () with
  | some ⟨_, .call (.deleteImage _ fetched) _⟩ => some fetched
  | _ => none

section Invariant

variable {s t : Shared} {fault : Option String} {r : Req}

/-- No image with the ID has a name. -/
def Unnamed (s : ImageStore) (id : String) : Prop :=
  ∀ image ∈ s.images, image.id = id → image.names = []

/-- Selected images have no names until they are looked up. -/
def Selected (s : Shared) : Prop := ∀ id, s.Awaits id → Unnamed s.store id

/-- An image that is collected has no name. -/
theorem unnamed_of_dangling {s : ImageStore} {id : String} (h : id ∈ dangling s.images) :
    Unnamed s id := by
  intro image himage hid
  obtain ⟨listed, hlisted, rfl⟩ := List.mem_map.mp h
  obtain ⟨hmem, hnames⟩ := List.mem_filter.mp hlisted
  have heq : image = listed := s.eq_of_id himage hmem hid
  rw [heq]
  exact List.length_eq_zero_iff.mp (of_decide_eq_true hnames)

/-- It gets none by the removal of others. -/
theorem Unnamed.remove {s : ImageStore} {id : String} (h : Unnamed s id) (removed : String) :
    Unnamed (s.remove removed) id :=
  fun image himage => h image (List.mem_filter.mp himage).1

/-- A step that gives no name to the image leaves it unnamed. -/
theorem Unnamed.act {s t : ImageStore} {id : String} {e : Env} (h : Unnamed s id)
    (hstep : PruneSafety.act e s = some t) (hnamed : e.named ≠ some id) : Unnamed t id := by
  intro image himage hid
  cases e with
  | create created layer config =>
    simp only [PruneSafety.act] at hstep
    split at hstep
    · cases hstep
      rcases List.mem_append.mp himage with hmem | hmem
      · exact h image hmem hid
      · have heq : image = created := List.mem_singleton.mp hmem
        subst heq
        by_contra hnames
        rw [Env.named, if_neg hnames, hid] at hnamed
        exact hnamed rfl
    · cases hstep
  | name target name =>
    cases hstep
    obtain ⟨before, hbefore, rfl⟩ := List.mem_map.mp himage
    have hne : before.id ≠ target := fun heq => hnamed (congrArg some (heq.symm.trans hid))
    have hnames := h before hbefore hid
    simp only [namesWith, if_neg hne, hnames, List.filter_nil]
  | remove removed =>
    cases hstep
    exact h.remove removed image himage hid
  | run container =>
    cases hstep
    exact h image himage hid

/-- The calls that are still to be made for the rest of the selection. -/
def Pending (rest : List String) (s : Shared) : Prop :=
  ∃ ids, s.awaiting = some ids ∧ ∀ id ∈ rest, id ∈ ids

/-- A call that inspects the store takes no image out of the selection. -/
theorem awaiting_of_inspects (hr : Inspects r) {ids : List String} (h : s.awaiting = some ids) :
    (s.serve fault r).2.awaiting = some ids := by
  cases r with
  | images =>
    simp only [Shared.serve, h]
    cases (s.store.serve fault .images).1 with
    | error text => rfl
    | ok images => rfl
  | setNames id names => cases hr
  | deleteContainer id => cases hr
  | deleteImage id fetched => cases hr
  | getStoreImage ref => cases hr
  | _ => exact h

end Invariant

section Discipline

variable {rounds : ℕ} {s t : Shared} {seen : Record Req Resp}

/-- Every removal is based on a record without names. -/
def untagged (rounds : ℕ) : Discipline (pruning rounds) where
  inv := Selected
  rely _ s t := t.awaiting = s.awaiting
  guarantee _ _ r _ _ _ := ∀ id fetched, r = .deleteImage id fetched → fetched.names = []
  post _ _ _ _ := True
  admitsEnv e s := ∀ id, e.named = some id → ¬s.Awaits id
  rely_refl _ _ := rfl
  rely_trans _ _ _ _ h h' := h'.trans h

/-- Weakest preconditions of the argument. -/
abbrev Keeps {α : Type} (rounds : ℕ) (post : Record Req Resp → α → Shared → Prop)
    (p : Pruner α) (seen : Record Req Resp) (s : Shared) : Prop :=
  Wp ((untagged rounds).contract ()) post p seen s

/-- The others leave the selection alone. -/
theorem Pending.rely {rest : List String} (h : Pending rest s)
    (hr : ((untagged rounds).contract ()).rely s t) : Pending rest t := by
  obtain ⟨ids, hids, hrest⟩ := h
  exact ⟨ids, hr.trans hids, hrest⟩

/-- A call that inspects the store leaves the selected images without names. -/
theorem selected_of_inspects {fault : Option String} {r : Req} (hr : Inspects r)
    {ids : List String} (hids : s.awaiting = some ids) (h : Selected s) :
    Selected (s.serve fault r).2 := by
  rintro id ⟨ids', hids', hid⟩
  rw [awaiting_of_inspects hr hids, ← hids] at hids'
  have hstore : (s.serve fault r).2.store = s.store := store_of_inspects hr
  rw [hstore]
  exact h id ⟨ids', hids', hid⟩

/-- A program that only inspects the store keeps the selection. -/
theorem keeps_of_inspects {α : Type} {p : Pruner α} {rest : List String}
    (hp : p.Issues Inspects) (h : Pending rest s) :
    Keeps rounds (fun _ _ t => Pending rest t) p seen s := by
  refine Wp.of_issues Pending.rely ?_ hp h
  intro r s seen fault hr hpending hi _
  obtain ⟨ids, hids, hrest⟩ := hpending
  have hkept : (s.serve fault r).2.awaiting = some ids := awaiting_of_inspects hr hids
  refine ⟨selected_of_inspects hr hids hi, ?_, ids, hkept, hrest⟩
  rintro id fetched rfl
  cases hr

/-- Two parts keep the argument if the second begins with what the first has led to. -/
theorem Keeps.then {α β : Type} {p : Pruner α} {f : α → Pruner β} {fact : α → Shared → Prop}
    {post : Record Req Resp → β → Shared → Prop}
    (h : Keeps rounds (fun _ value t => fact value t) p seen s)
    (hf : ∀ value seen t, fact value t → Keeps rounds post (f value) seen t) :
    Keeps rounds post (p >>= f) seen s :=
  Wp.bind (Wp.mono h fun seen value t _ hfact => hf value seen t hfact)

/-- A value is returned while the selection is pending. -/
theorem keeps_ret {α : Type} {value : α} {fact : α → Shared → Prop} {rest : List String}
    (h : Pending rest s) (hfact : ∀ t, Pending rest t → fact value t) :
    Keeps rounds (fun _ value t => fact value t) (.ret value) seen s :=
  fun t hr _ => hfact t (h.rely hr)

/-- A call that only inspects the store leaves the selection as it is. -/
theorem keeps_inspect {α : Type} {r : Req} {next : Resp r → Pruner α} {rest : List String}
    {post : Record Req Resp → α → Shared → Prop} (hr : Inspects r) (h : Pending rest s)
    (hnext : ∀ (store : ImageStore) (fault : Option String) (seen : Record Req Resp) (t : Shared),
      Pending rest t → Keeps rounds post (next (store.serve fault r).1) seen t) :
    Keeps rounds post (Prog.request r >>= next) seen s := by
  intro t hrely hi fault _
  obtain ⟨ids, hids, hrest⟩ := h.rely hrely
  have hkept : (t.serve fault r).2.awaiting = some ids := awaiting_of_inspects hr hids
  refine ⟨selected_of_inspects hr hids hi, ?_, hnext t.store fault _ _ ⟨ids, hkept, hrest⟩⟩
  rintro id fetched rfl
  cases hr

/-- What a lookup of an ID resolves to, if anything, is the image with this ID. -/
def ResolvedTo (id : String) (rest : List String) (resolved : Option StoreRef) (t : Shared) :
    Prop :=
  Pending rest t ∧ ∀ ref, resolved = some ref → ref.imageID = id

/-- A lookup without a result resolves to nothing. -/
theorem keeps_unresolved {id : String} {rest : List String} (h : Pending rest s) :
    Keeps rounds (fun _ resolved t => ResolvedTo id rest resolved t) (.ret none) seen s :=
  keeps_ret h fun _ ht => ⟨ht, fun _ => nofun⟩

/-- A lookup with a result resolves to the image it refers to. -/
theorem keeps_resolved {ref : StoreRef} {rest : List String} (h : Pending rest s) :
    Keeps rounds (fun _ resolved t => ResolvedTo ref.imageID rest resolved t) (.ret (some ref))
      seen s := by
  refine keeps_ret h fun t ht => ⟨ht, fun found hfound => ?_⟩
  cases hfound
  rfl

/-- `storageImageRef` resolves to the image with the ID. -/
theorem keeps_storageImageRef {id : String} {rest : List String} (h : Pending rest s) :
    Keeps rounds (fun _ resolved t => ResolvedTo id rest resolved t) (storageImageRef id)
      seen s := by
  refine keeps_inspect trivial h fun store fault seen t ht => ?_
  split
  · exact keeps_unresolved ht
  · next ref hfound =>
    obtain rfl : ref.imageID = id := imageID_of_findImage hfound
    exact keeps_resolved ht

/-- So does `storageImageID`. -/
theorem keeps_storageImageID {id : String} {rest : List String} (h : Pending rest s) :
    Keeps rounds (fun _ resolved t => ResolvedTo id rest resolved t) (storageImageID id)
      seen s := by
  refine keeps_inspect trivial h fun store fault seen t ht => ?_
  rw [fullID_of_image]
  refine keeps_inspect trivial ht fun store fault seen u hu => ?_
  split
  · exact keeps_unresolved hu
  · next ref hparsed =>
    obtain rfl : ref.imageID = id := imageID_of_parseStoreReference hparsed
    refine keeps_inspect trivial hu fun store fault seen v hv => ?_
    split
    · exact keeps_unresolved hv
    · exact keeps_resolved hv

/-- An ID resolves to the image with this ID. -/
theorem keeps_resolveImage {id : String} {rest : List String} (h : Pending rest s) :
    Keeps rounds (fun _ resolved t => ResolvedTo id rest resolved t) (resolveImage id) seen s := by
  have hproper : Keeps rounds (fun _ resolved t => Pending rest t ∧ resolved = none)
      (properImageRef id) seen s := by
    refine keeps_inspect trivial h fun store fault seen t ht => ?_
    split
    · exact keeps_ret ht fun u hu => ⟨hu, rfl⟩
    · next hparsed => exact absurd hparsed parseImageName_fails
  refine hproper.then fun proper seen t ⟨ht, hresolved⟩ => ?_
  subst hresolved
  refine (keeps_storageImageRef ht).then fun stored seen u ⟨hu, hfound⟩ => ?_
  cases stored with
  | some ref =>
    obtain rfl : ref.imageID = id := hfound ref rfl
    exact keeps_resolved hu
  | none => exact keeps_storageImageID hu

/-- Looking up a selected image takes it out of the selection and finds it
without names. -/
theorem keeps_getStoreImage {α : Type} {ref : StoreRef} {next : Except String Image → Pruner α}
    {rest : List String} {post : Record Req Resp → α → Shared → Prop}
    (hid : ref.imageID ∉ rest) (h : Pending (ref.imageID :: rest) s)
    (hnext : ∀ (response : Except String Image) (seen : Record Req Resp) (t : Shared),
      (∀ image, response = .ok image → image.id = ref.imageID ∧ image.names = []) →
      Pending rest t → Keeps rounds post (next response) seen t) :
    Keeps rounds post (Prog.request (Req.getStoreImage ref) >>= next) seen s := by
  intro t hrely hi fault _
  obtain ⟨ids, hids, hrest⟩ := h.rely hrely
  have hunnamed : Unnamed t.store ref.imageID :=
    hi _ ⟨ids, hids, hrest _ List.mem_cons_self⟩
  have hafter : (t.serve fault (.getStoreImage ref)).2 =
      ⟨t.store, some (ids.filter (· ≠ ref.imageID))⟩ := by
    cases fault <;> simp only [Shared.serve, ImageStore.serve, ImageStore.answer, selection, hids,
      Option.map_some]
  refine ⟨?_, fun _ _ => nofun, hnext _ _ _ ?_ ?_⟩
  · change Selected (t.serve fault (.getStoreImage ref)).2
    rw [hafter]
    rintro other ⟨ids', hids', hother⟩
    cases hids'
    exact hi other ⟨ids, hids, (List.mem_filter.mp hother).1⟩
  · intro image himage
    obtain ⟨hmem, himageID⟩ := mem_of_find (find_of_getStoreImage himage)
    exact ⟨himageID, hunnamed image hmem himageID⟩
  · change Pending rest (t.serve fault (.getStoreImage ref)).2
    rw [hafter]
    refine ⟨_, rfl, fun other hother => ?_⟩
    have hne : other ≠ ref.imageID := fun heq => hid (heq ▸ hother)
    exact List.mem_filter.mpr
      ⟨hrest other (List.mem_cons_of_mem _ hother), decide_eq_true hne⟩

/-- The record that `getImage` finds for a selected image has no names. -/
theorem keeps_getImage {id : String} {rest : List String} (hid : id ∉ rest)
    (h : Pending (id :: rest) s) :
    Keeps rounds (fun _ found t => Pending rest t ∧
      ∀ image : Image, found = .ok (some image) → image.id = id ∧ image.names = [])
      (getImage id) seen s := by
  refine (keeps_resolveImage h).then fun resolved seen t ⟨ht, hresolved⟩ => ?_
  cases resolved with
  | none =>
    refine keeps_ret ht fun u hu => ⟨?_, fun image => nofun⟩
    obtain ⟨ids, hids, hrest⟩ := hu
    exact ⟨ids, hids, fun other hother => hrest other (List.mem_cons_of_mem id hother)⟩
  | some ref =>
    obtain rfl : ref.imageID = id := hresolved ref rfl
    refine keeps_getStoreImage hid ht fun response seen u hfound hu => ?_
    cases response with
    | error text => exact keeps_ret hu fun v hv => ⟨hv, fun image => nofun⟩
    | ok image =>
      refine keeps_ret hu fun v hv => ⟨hv, fun found heq => ?_⟩
      cases heq
      exact hfound image rfl

/-- A removal based on a record without names leaves the selection as it is. -/
theorem keeps_deleteImage {α : Type} {id : String} {fetched : Image}
    {next : Except String Unit → Pruner α} {rest : List String}
    {post : Record Req Resp → α → Shared → Prop} (hfetched : fetched.names = [])
    (h : Pending rest s)
    (hnext : ∀ (response : Except String Unit) (seen : Record Req Resp) (t : Shared),
      Pending rest t → Keeps rounds post (next response) seen t) :
    Keeps rounds post (Prog.request (Req.deleteImage id fetched) >>= next) seen s := by
  intro t hrely hi fault _
  obtain ⟨ids, hids, hrest⟩ := h.rely hrely
  refine ⟨?_, ?_, hnext _ _ _ ⟨ids, hids, hrest⟩⟩
  · intro other hother
    have hbefore : Unnamed t.store other := hi other hother
    change Unnamed (t.store.serve fault (.deleteImage id fetched)).2 other
    cases fault with
    | some text => exact hbefore
    | none =>
      simp only [ImageStore.serve, ImageStore.answer]
      split
      · exact hbefore
      · split
        · exact hbefore
        · exact hbefore.remove id
  · rintro id' fetched' hr
    cases hr
    exact hfetched

/-- A parent is only removed if the record `getParent` has found has no names. -/
theorem keeps_ascendRound {imageID : String} {parent : Image} {rest : List String}
    (h : Pending rest s) :
    Keeps rounds (fun _ _ t => Pending rest t) (ascendRound imageID parent) seen s := by
  refine (keeps_of_inspects (issues_getParent parent) h).then fun next seen t ht => ?_
  split
  · exact keeps_ret ht fun u hu => hu
  · refine (keeps_of_inspects (issues_imageIsParent parent) ht).then fun found seen u hu => ?_
    split
    · exact keeps_ret hu fun v hv => hv
    · split
      · exact keeps_ret hu fun v hv => hv
      · next hguard =>
        have hnames : parent.names = [] := by
          have hlength : ¬0 < parent.names.length := fun hlt => hguard (Or.inl hlt)
          exact List.length_eq_zero_iff.mp (by omega)
        exact keeps_deleteImage hnames hu fun _ seen v hv => keeps_ret hv fun t ht => ht

/-- The ascent through the parents keeps what is selected. -/
theorem keeps_ascend {imageID : String} {parent : Option Image} {limit : ℕ} {rest : List String}
    (h : Pending rest s) :
    Keeps rounds (fun _ _ t => Pending rest t) (ascend imageID limit parent) seen s := by
  induction limit generalizing parent s seen with
  | zero =>
    cases parent with
    | none => exact keeps_ret h fun t ht => ht
    | some parent => exact keeps_ret h fun t ht => ht
  | succ limit ih =>
    cases parent with
    | none => exact keeps_ret h fun t ht => ht
    | some parent =>
      refine (keeps_ascendRound h).then fun round seen t ht => ?_
      cases round with
      | left result => exact keeps_ret ht fun u hu => hu
      | goesOn nextParent => exact ih ht

/-- `removeImage` keeps what is selected if the fetched record has no names. -/
theorem keeps_removeImage {fetched image : Image} {limit : ℕ} {rest : List String}
    (hfetched : fetched.names = []) (h : Pending rest s) :
    Keeps rounds (fun _ _ t => Pending rest t) (removeImage limit fetched image) seen s := by
  have hchild : Keeps rounds (fun _ _ t => Pending rest t) (removeChild fetched image) seen s := by
    refine (keeps_of_inspects (issues_getParent image) h).then fun found seen t ht => ?_
    split
    · exact keeps_ret ht fun u hu => hu
    · refine keeps_deleteImage hfetched ht fun removed seen u hu => ?_
      split
      · exact keeps_ret hu fun v hv => hv
      · exact keeps_ret hu fun v hv => hv
  refine hchild.then fun removed seen t ht => ?_
  cases removed with
  | error e => exact keeps_ret ht fun u hu => hu
  | ok parent => exact keeps_ascend ht

/-- An image is removed on the basis of a record without names. -/
theorem keeps_deleteUnreferenced {o : DeleteOptions} {limit : ℕ} {lastError : Option GoError}
    {fetched image : Image} {rest : List String} (hfetched : fetched.names = [])
    (h : Pending rest s) :
    Keeps rounds (fun _ _ t => Pending rest t)
      (deleteUnreferenced o limit lastError fetched image) seen s := by
  refine (keeps_of_inspects (issues_imageIsParent image) h).then fun found seen t ht => ?_
  split
  · exact keeps_ret ht fun u hu => hu
  · split
    · exact keeps_ret ht fun u hu => hu
    · split
      · split
        · exact keeps_ret ht fun u hu => hu
        · exact keeps_ret ht fun u hu => hu
      · refine (keeps_removeImage hfetched ht).then fun removed seen u hu => ?_
        split
        · exact keeps_ret hu fun v hv => hv
        · exact keeps_ret hu fun v hv => hv
        · exact keeps_ret hu fun v hv => hv

/-- An image given by its ID is never untagged. -/
theorem keeps_deleteTagged {o : DeleteOptions} {limit : ℕ} {lastError : Option GoError}
    {image : Image} {rest : List String} (hnames : image.names = []) (h : Pending rest s) :
    Keeps rounds (fun _ _ t => Pending rest t)
      (deleteTagged o limit lastError image.id image) seen s := by
  have hprefix : image.id.toList.isPrefixOf image.id.toList = true :=
    List.isPrefixOf_iff_prefix.mpr List.prefix_rfl
  unfold deleteTagged
  rw [if_pos hprefix]
  split
  · exact keeps_ret h fun t ht => ht
  · exact keeps_deleteUnreferenced hnames h

/-- The flags `Prune` passes to `deleteImages`. -/
abbrev pruneOptions : DeleteOptions := ⟨false, false, true⟩

/-- So is one that has just been fetched. -/
theorem keeps_deleteFetched {limit : ℕ} {lastError : Option GoError}
    {image : Image} {rest : List String} (hnames : image.names = []) (h : Pending rest s) :
    Keeps rounds (fun _ _ t => Pending rest t)
      (deleteFetched pruneOptions limit lastError image.id image) seen s := by
  unfold deleteFetched
  split
  · exact keeps_ret h fun t ht => ht
  · refine (keeps_of_inspects (issues_runningContainers image) h).then fun running seen t ht => ?_
    split
    · exact keeps_ret ht fun u hu => hu
    · split
      · exact keeps_ret ht fun u hu => hu
      · exact keeps_deleteTagged hnames ht

/-- So are all selected images. -/
theorem keeps_deleteImages {limit : ℕ} {lastError : Option GoError} {ids : List String}
    (hids : ids.Nodup) (h : Pending ids s) :
    Keeps rounds (fun _ _ _ => True) (deleteImages pruneOptions limit lastError ids) seen s := by
  induction ids generalizing lastError s seen with
  | nil => exact fun t _ _ => trivial
  | cons id rest ih =>
    obtain ⟨hid, hrest⟩ := List.nodup_cons.mp hids
    have hone : Keeps rounds (fun _ _ t => Pending rest t)
        (deleteImage pruneOptions limit lastError id) seen s := by
      refine (keeps_getImage hid h).then fun found seen t ⟨ht, hfound⟩ => ?_
      rcases found with e | (_ | image)
      · exact keeps_ret ht fun u hu => hu
      · exact keeps_ret ht fun u hu => hu
      · obtain ⟨rfl, hnames⟩ := hfound image rfl
        exact keeps_deleteFetched hnames ht
    refine hone.then fun deleted seen t ht => ?_
    split
    · exact fun u _ _ => trivial
    · exact ih hrest ht

/-- The listing selects the images without a name. -/
theorem keeps_prune (hstart : s.awaiting = none) :
    Keeps rounds (fun _ _ _ => True) (prune rounds) seen s := by
  unfold prune findDanglingImages
  simp only [Prog.request_bind, Prog.call_bind]
  intro t hrely hi fault _
  have hnone : t.awaiting = none := hrely.trans hstart
  cases fault with
  | some text =>
    refine ⟨?_, fun _ _ => nofun, fun u _ _ => trivial⟩
    rintro id ⟨ids, hids, -⟩
    exact absurd (hnone.symm.trans hids) nofun
  | none =>
    have hafter : (t.serve none .images).2 = ⟨t.store, some (dangling t.store.images)⟩ := by
      simp only [Shared.serve, ImageStore.serve, ImageStore.answer, selection, hnone]
    have hids : (dangling t.store.images).Nodup :=
      t.store.distinct.sublist (List.Sublist.map _ List.filter_sublist)
    refine ⟨?_, fun _ _ => nofun, ?_⟩
    · change Selected (t.serve none .images).2
      rw [hafter]
      rintro id ⟨ids, hselected, hid⟩
      cases hselected
      exact unnamed_of_dangling hid
    · refine keeps_deleteImages hids ?_
      change Pending _ (t.serve none .images).2
      rw [hafter]
      exact ⟨_, rfl, fun id hid => hid⟩

/-- The system respects the argument. -/
theorem untagged_respected : (untagged rounds).Respected where
  start := by
    intro w j s t _ _ h
    cases h
    refine ⟨?_, fun v hv => absurd rfl hv, keeps_prune rfl⟩
    rintro id ⟨ids, hids, -⟩
    cases hids
  env := by
    intro e s t hi hadmits h
    obtain ⟨store, hact, rfl⟩ := Option.map_eq_some_iff.mp h
    refine ⟨?_, fun w => rfl⟩
    intro id hawaits
    have hnamed : e.named ≠ some id := fun hid => hadmits id hid hawaits
    exact (hi id hawaits).act hact hnamed
  finish := by
    intro w seen value s t hi _ h
    cases h
    exact ⟨hi, fun v hv => absurd rfl hv⟩
  crash := by
    intro s t _ h
    cases h
  compatible := by
    intro w v seen r response s t _ _ _ hne
    exact absurd rfl hne

end Discipline

section Removals

variable {rounds : ℕ} {st : PruningState} {es : List PruningEvent}

/-- The argument admits the steps that name no selected image too early. -/
theorem admits_of_namedLate (st : PruningState) (e : PruningEvent) (h : NamedLate st e) :
    (untagged rounds).Admits st e := by
  cases e with
  | env e => exact h
  | serve w fault => exact fun _ _ _ _ => trivial
  | _ => trivial

/-- In every run in which no selected image is named before it is looked up, every
image is removed on the ground of a record without names. -/
theorem prune_removes_untagged {store : ImageStore}
    (hrun : (pruning rounds).RunWhere NamedLate (idle ⟨store, none⟩) es st) {fetched : Image}
    (hremoving : removing st = some fetched) : fetched.names = [] := by
  have hinitial : (untagged rounds).inv ⟨store, none⟩ := by
    rintro id ⟨ids, hids, -⟩
    cases hids
  have hsafe : (untagged rounds).Safe st :=
    (untagged rounds).run_safe_where untagged_respected ((untagged rounds).idle_safe hinitial)
      (hrun.mono admits_of_namedLate)
  unfold removing at hremoving
  split at hremoving
  · next hrunning =>
    cases hremoving
    exact hsafe.guarantee hrunning none trivial _ _ rfl
  · cases hremoving

/-- A node with an old image of a cache, which has no name any more. -/
def sampleImages : List Image := [⟨"1f", [], "", false⟩, ⟨"2a", ["localhost/cache"], "", false⟩]

/-- The store of the node. -/
def sampleStore : ImageStore where
  images := sampleImages
  distinct := by decide
  containers := []
  layers _ := none
  configs _ := some ⟨[], []⟩

/-- `Prune` lists the images, one of them is named, and `Prune` goes on until it is
about to remove an image. -/
def namingRun (id name : String) : List PruningEvent :=
  [.start () (), .serve () none, .env (.name id name)] ++ List.replicate 18 (.serve () none)

/-- Check of `NamedLate` in a state. -/
def namesLate (st : PruningState) : PruningEvent → Bool
  | .env e => e.named.all fun id => (st.shared.awaiting.getD []).all (· ≠ id)
  | _ => true

/-- The check accepts such steps only. -/
theorem namedLate_of_check (st : PruningState) (e : PruningEvent) (h : namesLate st e = true) :
    NamedLate st e := by
  cases e with
  | env e =>
    rintro id hnamed ⟨ids, hids, hid⟩
    simp only [namesLate, hnamed, hids, Option.all_some, Option.getD_some, List.all_eq_true] at h
    exact absurd rfl (of_decide_eq_true (h id hid))
  | _ => trivial

/-- Another image is named, and the unnamed image is about to be removed. -/
theorem prune_removes_untagged_other :
    ∃ st, (pruning 1).RunWhere NamedLate (idle ⟨sampleStore, none⟩)
        (namingRun "2a" "localhost/cache:old") st ∧
      removing st = some ⟨"1f", [], "", false⟩ ∧ (⟨"1f", [], "", false⟩ : Image).names = [] := by
  have hreached : (((pruning 1).runIf namesLate (idle ⟨sampleStore, none⟩)
      (namingRun "2a" "localhost/cache:old")).bind removing) = some ⟨"1f", [], "", false⟩ := by
    decide +kernel
  obtain ⟨st, hrun, hremoving⟩ := Option.bind_eq_some_iff.mp hreached
  have hwhere := System.runWhere_of_runIf namedLate_of_check hrun
  exact ⟨st, hwhere, hremoving, prune_removes_untagged hwhere hremoving⟩

/-- The image is given its only name after the listing: the record that is fetched
carries it, and the image is removed nevertheless. -/
theorem named_image_removed :
    ∃ st, (pruning 1).run (idle ⟨sampleStore, none⟩) (namingRun "1f" "localhost/cache") = some st ∧
      removing st = some ⟨"1f", ["localhost/cache"], "", false⟩ := by
  have hreached : (((pruning 1).run (idle ⟨sampleStore, none⟩)
      (namingRun "1f" "localhost/cache")).bind removing) =
        some ⟨"1f", ["localhost/cache"], "", false⟩ := by
    decide +kernel
  exact Option.bind_eq_some_iff.mp hreached

end Removals

end K8StorageX.PruneSafety
