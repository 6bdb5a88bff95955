import K8StorageX.PruneRuns

/-!
# Pruning alone removes garbage only

A run keeps the images that it does not remove as they were. At each removal the image has
no name, no child and no container: the records may be old, but nobody else works on the
store, and the check for children has just been made. It sees all children as long as
images that can be read are opened.
-/

namespace K8StorageX.PruneGarbage

open ApiProgram GoErrors ImagePruning PruneRuns

/-- An image without a name, a child and a container. -/
structure Garbage (s : ImageStore) (image : Image) : Prop where
  /-- The image is in the store. -/
  stored : image ∈ s.images
  /-- It has no name. -/
  unnamed : image.names = []
  /-- No image is its child. -/
  childless : ∀ child ∈ s.images, isChild s image child = false
  /-- No container uses it. -/
  unused : ∀ ctr ∈ s.containers, ctr.imageID ≠ image.id

/-- A removal is justified: the image was garbage, and not read-only if it was the entry of
the list that was being handled. -/
def Justified (d : Deletion) : Prop :=
  ∃ image, image.id = d.id ∧ Garbage d.before image ∧ (d.id = d.entry → image.readOnly = false)

/-- What a run has done to a store: the images that are left are as they were, and the
removals are justified. -/
structure Pruned (s : ImageStore) (u : Pruning) : Prop where
  /-- The other images are unchanged. -/
  images : u.store.images = s.images.filter fun image => image.id ∉ u.deleted.map Deletion.id
  /-- The containers are unchanged. -/
  containers : u.store.containers = s.containers
  /-- The removals are justified. -/
  justified : ∀ d ∈ u.deleted, Justified d

variable {s : ImageStore} {u v : Pruning}

theorem Pruned.subset (h : Pruned s u) : u.store.images ⊆ s.images := by
  rw [h.images]
  exact List.filter_subset_self s.images

/-- Images that are still there are the same. -/
theorem Pruned.find {image found : Image} (h : Pruned s u) (himage : image ∈ s.images)
    (hfound : u.store.find image.id = some found) : found = image := by
  obtain ⟨hmem, hid⟩ := mem_of_find hfound
  exact s.eq_of_id (h.subset hmem) himage hid

/-- A removal fails, or it removes an image that no container uses. -/
theorem serve_deleteImage {fault : Option String} {id : String} {fetched : Image} {t : ImageStore}
    {response : Resp (.deleteImage id fetched)}
    (h : s.serve fault (.deleteImage id fetched) = (response, t)) :
    (t = s ∧ ∃ text, response = .error text) ∨
      (t = s.remove id ∧ response = .ok () ∧ (∃ image, s.find id = some image) ∧
        ∀ ctr ∈ s.containers, ctr.imageID ≠ id) := by
  cases fault with
  | some text =>
    cases h
    exact Or.inl ⟨rfl, text, rfl⟩
  | none =>
    simp only [ImageStore.serve, ImageStore.answer] at h
    split at h
    · cases h
      exact Or.inl ⟨rfl, _, rfl⟩
    · next image himage =>
      split at h
      · cases h
        exact Or.inl ⟨rfl, _, rfl⟩
      · next hunused =>
        cases h
        exact Or.inr ⟨rfl, rfl, ⟨image, himage⟩, by simpa using hunused⟩

theorem Pruned.of_same (h : Pruned s u) (hstore : v.store = u.store)
    (hdeleted : v.deleted = u.deleted) : Pruned s v := by
  constructor
  · rw [hstore, hdeleted, h.images]
  · rw [hstore, h.containers]
  · rw [hdeleted]
    exact h.justified

/-- The removal of an unnamed, childless image is justified or fails. -/
theorem Pruned.delete {allowed : Req → ImageStore → Prop} {image fetched : Image}
    {response : Resp (.deleteImage image.id fetched)}
    (h : Pruned s u) (himage : image ∈ s.images) (hnames : image.names = [])
    (hchildless : ∀ child ∈ u.store.images, isChild u.store image child = false)
    (hreadOnly : image.id = u.entry → image.readOnly = false)
    (hcall : Logged allowed (.deleteImage image.id fetched) u response v) :
    Pruned s v ∧ v.entry = u.entry := by
  obtain ⟨⟨fault, -, hserve⟩, hentry, hdeleted⟩ := hcall
  refine ⟨?_, hentry⟩
  rcases serve_deleteImage hserve with ⟨hstore, text, rfl⟩ | ⟨hstore, rfl, ⟨found, hfound⟩, hunused⟩
  · exact h.of_same hstore (by simpa [deletions] using hdeleted)
  · have hstored : image ∈ u.store.images := h.find himage hfound ▸ (mem_of_find hfound).1
    have hlog : v.deleted = u.deleted ++ [⟨image.id, u.entry, u.store⟩] := hdeleted
    constructor
    · have hleft : v.store.images = u.store.images.filter fun other => other.id ≠ image.id := by
        rw [hstore]
        rfl
      rw [hleft, hlog, h.images, List.filter_filter]
      refine List.filter_congr fun other _ => ?_
      rw [Bool.eq_iff_iff]
      simp only [Bool.and_eq_true, decide_eq_true_eq, List.map_append, List.map_cons, List.map_nil,
        List.mem_append, List.mem_singleton, not_or, ne_eq, and_comm]
    · rw [hstore]
      exact h.containers
    · intro d hd
      rw [hlog, List.mem_append, List.mem_singleton] at hd
      rcases hd with hd | rfl
      · exact h.justified d hd
      · exact ⟨image, rfl, ⟨hstored, hnames, hchildless, hunused⟩, hreadOnly⟩

theorem opens_of_opensReadable (s : ImageStore) (id : String)
    (h : OpensReadable (.newImage (storeRef id)) s) : s.find id = none ∨ s.configs id = none :=
  h (storeRef id) rfl

/-- A round of the ascent removes garbage only and goes on with a listed image. -/
theorem pruned_ascendRound {imageID : String} {parent : Image} {round : Ascent} (h : Pruned s u)
    (hparent : parent ∈ s.images)
    (hreadOnly : ∀ image ∈ s.images, image.id = u.entry → image.readOnly = false)
    (hrun : Prog.Runs (Logged OpensReadable) (ascendRound imageID parent) u round v) :
    Pruned s v ∧ v.entry = u.entry ∧ ∀ q, round = .goesOn (some q) → q ∈ s.images := by
  rw [ascendRound] at hrun
  obtain ⟨next, u₁, hnext, hbody⟩ := Prog.runs_bind_iff.mp hrun
  obtain ⟨rfl, hfound⟩ := runs_getParent hnext
  split at hbody
  · obtain ⟨rfl, rfl⟩ := Prog.runs_ret_iff.mp hbody
    exact ⟨h, rfl, fun q hq => (by cases hq)⟩
  · next nextParent =>
    obtain ⟨isParent, u₂, hisParent, hguarded⟩ := Prog.runs_bind_iff.mp hbody
    obtain ⟨rfl, hchildless⟩ := runs_imageIsParent opens_of_opensReadable hisParent
    split at hguarded
    · obtain ⟨rfl, rfl⟩ := Prog.runs_ret_iff.mp hguarded
      exact ⟨h, rfl, fun q hq => (by cases hq)⟩
    · next isParent =>
      split at hguarded
      · obtain ⟨rfl, rfl⟩ := Prog.runs_ret_iff.mp hguarded
        exact ⟨h, rfl, fun q hq => (by cases hq)⟩
      · next hguard =>
        obtain ⟨hnames, hnot⟩ := not_or.mp hguard
        rw [Prog.request_bind, Prog.runs_call_iff] at hguarded
        obtain ⟨removed, u₃, hremoved, hlast⟩ := hguarded
        obtain ⟨rfl, rfl⟩ := Prog.runs_ret_iff.mp hlast
        have hunnamed : parent.names = [] := List.eq_nil_of_length_eq_zero (by omega)
        obtain rfl : isParent = false := by simpa using hnot
        obtain ⟨hpruned, hentry⟩ :=
          h.delete hparent hunnamed (hchildless rfl) (hreadOnly parent hparent) hremoved
        refine ⟨hpruned, hentry, fun q hq => ?_⟩
        cases hq
        exact h.subset (hfound q rfl).1

/-- The ascent through the parents removes garbage only. -/
theorem pruned_ascend {imageID : String} {rounds : ℕ} {parent : Option Image}
    {value : Option (Except GoError String)} (h : Pruned s u)
    (hparent : ∀ p, parent = some p → p ∈ s.images)
    (hreadOnly : ∀ image ∈ s.images, image.id = u.entry → image.readOnly = false)
    (hrun : Prog.Runs (Logged OpensReadable) (ascend imageID rounds parent) u value v) :
    Pruned s v := by
  induction rounds generalizing u parent with
  | zero =>
    cases parent <;>
    · obtain ⟨-, rfl⟩ := Prog.runs_ret_iff.mp hrun
      exact h
  | succ rounds ih =>
    cases parent with
    | none =>
      obtain ⟨-, rfl⟩ := Prog.runs_ret_iff.mp hrun
      exact h
    | some p =>
      rw [ascend] at hrun
      obtain ⟨round, u₁, hround, hrest⟩ := Prog.runs_bind_iff.mp hrun
      obtain ⟨hpruned, hentry, hnext⟩ := pruned_ascendRound h (hparent p rfl) hreadOnly hround
      cases round with
      | left result =>
        obtain ⟨-, rfl⟩ := Prog.runs_ret_iff.mp hrest
        exact hpruned
      | goesOn nextParent =>
        refine ih hpruned ?_ (hentry ▸ hreadOnly) hrest
        rintro q rfl
        exact hnext q rfl

/-- Removing an unnamed, childless image removes garbage only and leads to a listed parent. -/
theorem pruned_removeChild {fetched image : Image} {value : Except GoError (Option Image)}
    (h : Pruned s u) (himage : image ∈ s.images) (hnames : image.names = [])
    (hchildless : ∀ child ∈ u.store.images, isChild u.store image child = false)
    (hreadOnly : ∀ image ∈ s.images, image.id = u.entry → image.readOnly = false)
    (hrun : Prog.Runs (Logged OpensReadable) (removeChild fetched image) u value v) :
    Pruned s v ∧ v.entry = u.entry ∧ ∀ p, value = .ok (some p) → p ∈ s.images := by
  rw [removeChild] at hrun
  obtain ⟨found, u₁, hfound, hbody⟩ := Prog.runs_bind_iff.mp hrun
  obtain ⟨rfl, hparent⟩ := runs_getParent hfound
  split at hbody
  · obtain ⟨rfl, rfl⟩ := Prog.runs_ret_iff.mp hbody
    exact ⟨h, rfl, fun p hp => (by cases hp)⟩
  · next parent =>
    rw [Prog.request_bind, Prog.runs_call_iff] at hbody
    obtain ⟨removed, u₂, hremoved, hrest⟩ := hbody
    obtain ⟨hpruned, hentry⟩ :=
      h.delete himage hnames hchildless (hreadOnly image himage) hremoved
    split at hrest
    · obtain ⟨rfl, rfl⟩ := Prog.runs_ret_iff.mp hrest
      exact ⟨hpruned, hentry, fun p hp => (by cases hp)⟩
    · obtain ⟨rfl, rfl⟩ := Prog.runs_ret_iff.mp hrest
      refine ⟨hpruned, hentry, fun p hp => ?_⟩
      cases hp
      exact h.subset (hparent p rfl).1

/-- `removeImage` on an unnamed, childless image removes garbage only. -/
theorem pruned_removeImage {rounds : ℕ} {fetched image : Image}
    {value : Option (Except GoError String)} (h : Pruned s u) (himage : image ∈ s.images)
    (hnames : image.names = [])
    (hchildless : ∀ child ∈ u.store.images, isChild u.store image child = false)
    (hreadOnly : ∀ image ∈ s.images, image.id = u.entry → image.readOnly = false)
    (hrun : Prog.Runs (Logged OpensReadable) (removeImage rounds fetched image) u value v) :
    Pruned s v := by
  rw [removeImage] at hrun
  obtain ⟨removed, u₁, hremoved, hrest⟩ := Prog.runs_bind_iff.mp hrun
  obtain ⟨hpruned, hentry, hnext⟩ :=
    pruned_removeChild h himage hnames hchildless hreadOnly hremoved
  cases removed with
  | error e =>
    obtain ⟨-, rfl⟩ := Prog.runs_ret_iff.mp hrest
    exact hpruned
  | ok parent =>
    refine pruned_ascend hpruned ?_ (hentry ▸ hreadOnly) hrest
    rintro p rfl
    exact hnext p rfl

/-- The lookup of an entry, which is not an image name. -/
theorem runs_properImageRef {allowed : Req → ImageStore → Prop} {id : String}
    {value : Option StoreRef} (h : Prog.Runs (Logged allowed) (properImageRef id) u value v) :
    v = { u with entry := id } ∧ value = none := by
  rw [properImageRef, Prog.request_bind, Prog.runs_call_iff] at h
  obtain ⟨parsed, u₁, ⟨⟨fault, -, hserve⟩, hentry, hdeleted⟩, hbody⟩ := h
  have hfails : ∃ text, parsed = .error text := by
    cases parsed with
    | error text => exact ⟨text, rfl⟩
    | ok ref =>
      have hok : (u.store.serve fault (.parseImageName id)).1 = .ok ref := by rw [hserve]
      exact absurd hok parseImageName_fails
  obtain ⟨text, rfl⟩ := hfails
  have hstore : u₁.store = u.store := by
    have hunchanged : (u.store.serve fault (.parseImageName id)).2 = u.store :=
      store_of_inspects trivial
    rw [← hunchanged, hserve]
  obtain ⟨rfl, rfl⟩ := Prog.runs_ret_iff.mp hbody
  refine ⟨?_, rfl⟩
  cases v
  simp_all [entryAfter, deletions]

theorem runs_storageImageRef {allowed : Req → ImageStore → Prop} {id : String}
    {value : Option StoreRef} (h : Prog.Runs (Logged allowed) (storageImageRef id) u value v) :
    v = u ∧ ∀ ref, value = some ref → ref.imageID = id := by
  obtain ⟨fault, -, hbody⟩ := runs_read h trivial
  split at hbody
  · obtain ⟨rfl, rfl⟩ := Prog.runs_ret_iff.mp hbody
    exact ⟨rfl, nofun⟩
  · next ref href =>
    obtain ⟨rfl, rfl⟩ := Prog.runs_ret_iff.mp hbody
    refine ⟨rfl, fun found hfound => ?_⟩
    cases hfound
    exact imageID_of_findImage href

theorem runs_storageImageID {allowed : Req → ImageStore → Prop} {id : String}
    {value : Option StoreRef} (h : Prog.Runs (Logged allowed) (storageImageID id) u value v) :
    v = u ∧ ∀ ref, value = some ref → ref.imageID = id := by
  obtain ⟨fault₁, -, hstored⟩ := runs_read h trivial
  rw [fullID_of_image] at hstored
  obtain ⟨fault₂, -, hparsed⟩ := runs_read hstored trivial
  split at hparsed
  · obtain ⟨rfl, rfl⟩ := Prog.runs_ret_iff.mp hparsed
    exact ⟨rfl, nofun⟩
  · next ref href =>
    obtain ⟨fault₃, -, hsource⟩ := runs_read hparsed trivial
    split at hsource
    · obtain ⟨rfl, rfl⟩ := Prog.runs_ret_iff.mp hsource
      exact ⟨rfl, nofun⟩
    · obtain ⟨rfl, rfl⟩ := Prog.runs_ret_iff.mp hsource
      refine ⟨rfl, fun found hfound => ?_⟩
      cases hfound
      exact imageID_of_parseStoreReference href

theorem runs_resolveImage {allowed : Req → ImageStore → Prop} {id : String}
    {value : Option StoreRef} (h : Prog.Runs (Logged allowed) (resolveImage id) u value v) :
    v = { u with entry := id } ∧ ∀ ref, value = some ref → ref.imageID = id := by
  obtain ⟨proper, u₁, hproper, hbody⟩ := Prog.runs_bind_iff.mp h
  obtain ⟨rfl, rfl⟩ := runs_properImageRef hproper
  obtain ⟨stored, u₂, hstored, hlast⟩ := Prog.runs_bind_iff.mp hbody
  obtain ⟨rfl, href⟩ := runs_storageImageRef hstored
  split at hlast
  · next ref =>
    obtain ⟨rfl, rfl⟩ := Prog.runs_ret_iff.mp hlast
    exact ⟨rfl, href⟩
  · exact runs_storageImageID hlast

/-- `getImage` looks up the image of the entry. -/
theorem runs_getImage {allowed : Req → ImageStore → Prop} {id : String}
    {value : Except GoError (Option Image)}
    (h : Prog.Runs (Logged allowed) (getImage id) u value v) :
    v = { u with entry := id } ∧ ∀ image, value = .ok (some image) →
      u.store.find id = some image := by
  obtain ⟨resolved, u₁, hresolved, hbody⟩ := Prog.runs_bind_iff.mp h
  obtain ⟨rfl, himageID⟩ := runs_resolveImage hresolved
  split at hbody
  · obtain ⟨rfl, rfl⟩ := Prog.runs_ret_iff.mp hbody
    exact ⟨rfl, nofun⟩
  · next ref =>
    obtain ⟨fault, -, hlast⟩ := runs_read hbody trivial
    split at hlast
    · obtain ⟨rfl, rfl⟩ := Prog.runs_ret_iff.mp hlast
      exact ⟨rfl, nofun⟩
    · next image himage =>
      obtain ⟨rfl, rfl⟩ := Prog.runs_ret_iff.mp hlast
      refine ⟨rfl, fun found hfound => ?_⟩
      cases hfound
      rw [← himageID ref rfl]
      exact find_of_getStoreImage himage

/-- The end of the loop body removes garbage only. -/
theorem pruned_deleteUnreferenced {rounds : ℕ} {lastError : Option GoError} {image : Image}
    {value : Option (Option GoError)} (h : Pruned s u) (himage : image ∈ s.images)
    (hnames : image.names = [])
    (hreadOnly : ∀ image ∈ s.images, image.id = u.entry → image.readOnly = false)
    (hrun : Prog.Runs (Logged OpensReadable)
      (deleteUnreferenced ⟨false, false, true⟩ rounds lastError image image) u value v) :
    Pruned s v := by
  rw [deleteUnreferenced] at hrun
  obtain ⟨isParent, u₁, hisParent, hbody⟩ := Prog.runs_bind_iff.mp hrun
  obtain ⟨rfl, hchildless⟩ := runs_imageIsParent opens_of_opensReadable hisParent
  split at hbody
  · obtain ⟨-, rfl⟩ := Prog.runs_ret_iff.mp hbody
    exact h
  · next isParent =>
    split at hbody
    · obtain ⟨-, rfl⟩ := Prog.runs_ret_iff.mp hbody
      exact h
    · split at hbody
      · obtain ⟨-, rfl⟩ := Prog.runs_ret_iff.mp hbody
        exact h
      · next hguard =>
        obtain rfl : isParent = false := by simpa [hnames] using hguard
        obtain ⟨removed, u₂, hremoved, hlast⟩ := Prog.runs_bind_iff.mp hbody
        have hpruned := pruned_removeImage h himage hnames (hchildless rfl) hreadOnly hremoved
        split at hlast <;>
        · obtain ⟨-, rfl⟩ := Prog.runs_ret_iff.mp hlast
          exact hpruned

/-- The loop body from the fetched image on removes garbage only. -/
theorem pruned_deleteFetched {rounds : ℕ} {lastError : Option GoError} {image : Image}
    {value : Option (Option GoError)} (h : Pruned s u) (hentry : u.entry = image.id)
    (himage : image ∈ s.images) (hnames : image.names = [])
    (hrun : Prog.Runs (Logged OpensReadable)
      (deleteFetched ⟨false, false, true⟩ rounds lastError image.id image) u value v) :
    Pruned s v := by
  rw [deleteFetched] at hrun
  split at hrun
  · obtain ⟨-, rfl⟩ := Prog.runs_ret_iff.mp hrun
    exact h
  · next hreadOnly =>
    obtain ⟨running, u₁, hrunning, hbody⟩ := Prog.runs_bind_iff.mp hrun
    obtain rfl : u₁ = u := by
      obtain ⟨fault, -, hlisted⟩ := runs_read hrunning trivial
      split at hlisted <;>
      · obtain ⟨-, rfl⟩ := Prog.runs_ret_iff.mp hlisted
        rfl
    split at hbody
    · obtain ⟨-, rfl⟩ := Prog.runs_ret_iff.mp hbody
      exact h
    · split at hbody
      · obtain ⟨-, rfl⟩ := Prog.runs_ret_iff.mp hbody
        exact h
      · have hself : image.id.toList.isPrefixOf image.id.toList = true := by simp
        have hplain : { image with names := [] } = image := by rw [← hnames]
        rw [deleteTagged, if_pos hself, if_neg (by simp [hnames]), hplain] at hbody
        refine pruned_deleteUnreferenced h himage hnames ?_ hbody
        intro other hother hid
        obtain rfl := s.eq_of_id hother himage (hid.trans hentry)
        simpa using hreadOnly

/-- The loop body for an unnamed image removes garbage only. -/
theorem pruned_deleteImage {rounds : ℕ} {lastError : Option GoError} {id : String}
    {value : Option (Option GoError)} (h : Pruned s u)
    (hunnamed : ∀ image ∈ s.images, image.id = id → image.names = [])
    (hrun : Prog.Runs (Logged OpensReadable)
      (deleteImage ⟨false, false, true⟩ rounds lastError id) u value v) :
    Pruned s v := by
  rw [deleteImage] at hrun
  obtain ⟨fetched, u₁, hfetched, hbody⟩ := Prog.runs_bind_iff.mp hrun
  obtain ⟨rfl, hfound⟩ := runs_getImage hfetched
  have hpruned : Pruned s { u with entry := id } := h.of_same rfl rfl
  split at hbody
  · obtain ⟨-, rfl⟩ := Prog.runs_ret_iff.mp hbody
    exact hpruned
  · obtain ⟨-, rfl⟩ := Prog.runs_ret_iff.mp hbody
    exact hpruned
  · next image =>
    obtain ⟨hmem, rfl⟩ := mem_of_find (hfound image rfl)
    have himage := h.subset hmem
    exact pruned_deleteFetched hpruned rfl himage (hunnamed image himage rfl) hbody

theorem pruned_deleteImages {rounds : ℕ} {lastError : Option GoError} {ids : List String}
    {value : Option (Option GoError)} (h : Pruned s u)
    (hunnamed : ∀ image ∈ s.images, image.id ∈ ids → image.names = [])
    (hrun : Prog.Runs (Logged OpensReadable)
      (deleteImages ⟨false, false, true⟩ rounds lastError ids) u value v) :
    Pruned s v := by
  induction ids generalizing u lastError with
  | nil =>
    obtain ⟨-, rfl⟩ := Prog.runs_ret_iff.mp hrun
    exact h
  | cons id ids ih =>
    rw [deleteImages] at hrun
    obtain ⟨deleted, u₁, hdeleted, hbody⟩ := Prog.runs_bind_iff.mp hrun
    have hfirst : ∀ image ∈ s.images, image.id = id → image.names = [] := fun image himage hid =>
      hunnamed image himage (hid ▸ List.mem_cons_self)
    have hpruned := pruned_deleteImage h hfirst hdeleted
    split at hbody
    · obtain ⟨-, rfl⟩ := Prog.runs_ret_iff.mp hbody
      exact hpruned
    · refine ih hpruned (fun image himage hid => ?_) hbody
      exact hunnamed image himage (List.mem_cons_of_mem id hid)

theorem pruned_start (s : ImageStore) : Pruned s (.start s) := by
  refine ⟨?_, rfl, fun d hd => absurd hd List.not_mem_nil⟩
  simp [Pruning.start]

/-- `Prune` alone removes garbage only. In every run in which images that exist and whose
configuration can be read are opened, whatever else fails, a removed image had no name, no
child and no container at its removal, and was not read-only if it was the entry of the
list that was being handled; all other images with their names and all containers are
unchanged. -/
theorem prune_removes_garbage {s : ImageStore} {rounds : ℕ} {value : Option (Option GoError)}
    {v : Pruning} (hrun : Prog.Runs (Logged OpensReadable) (prune rounds) (.start s) value v) :
    (∀ d ∈ v.deleted, Justified d) ∧
    v.store.images = (s.images.filter fun image => image.id ∉ v.deleted.map Deletion.id) ∧
    v.store.containers = s.containers := by
  have hpruned : Pruned s v := by
    rw [prune] at hrun
    obtain ⟨found, u₁, hfound, hbody⟩ := Prog.runs_bind_iff.mp hrun
    obtain ⟨fault, -, hlisted⟩ := runs_read hfound trivial
    split at hlisted
    · obtain ⟨rfl, rfl⟩ := Prog.runs_ret_iff.mp hlisted
      obtain ⟨-, rfl⟩ := Prog.runs_ret_iff.mp hbody
      exact pruned_start s
    · next images himages =>
      obtain rfl : s.images = images := Except.ok.inj (ok_of_serve himages)
      obtain ⟨rfl, rfl⟩ := Prog.runs_ret_iff.mp hlisted
      exact pruned_deleteImages (pruned_start s)
        (fun image himage hid => unnamed_of_mem_dangling himage hid) hbody
  exact ⟨hpruned.justified, hpruned.images, hpruned.containers⟩

/-- An image with a name or without one. -/
def sampleImage (id : String) (names : List String) : Image := ⟨id, names, "", false⟩

/-- An entry of a history. -/
def sampleHistory : History := ⟨none, "", "", "", false⟩

/-- The image `derived` is a child of the image `base`. -/
def sampleConfig (id : String) : Option ImageConfig :=
  if id = "derived" then some ⟨[sampleHistory, sampleHistory], []⟩ else some ⟨[sampleHistory], []⟩

/-- A store with an image and a child of it, which may have names. -/
def familyStore (names : List String) : ImageStore where
  images := [sampleImage "base" [], sampleImage "derived" names]
  distinct := by simp [sampleImage]
  containers := []
  layers _ := none
  configs := sampleConfig

theorem prune_removes_garbage_family :
    ∃ v, Prog.Runs (Logged OpensReadable) (prune 2) (.start (familyStore [])) (some none) v ∧
      v.deleted.map Deletion.id = ["derived", "base"] ∧ ∀ d ∈ v.deleted, Justified d := by
  have hreached : ((prune 2).eval (logServe fun _ => none) (.start (familyStore []))).1 =
      some none := by decide +kernel
  have hrun : Prog.Runs (Logged OpensReadable) (prune 2) (.start (familyStore [])) (some none) _ :=
    Prog.runs_eval (logged_logServe (by simp)) hreached
  exact ⟨_, hrun, by decide +kernel, (prune_removes_garbage hrun).1⟩

/-- Opening one image fails. -/
def failsToOpen (id : String) (r : Req) : Option String :=
  if r = .newImage (storeRef id) then some "timeout" else none

/-- A child of the removed image was in the store. -/
def hadChild (d : Deletion) : Bool :=
  d.before.images.any fun image =>
    image.id = d.id && d.before.images.any fun child => isChild d.before image child

theorem not_justified_of_hadChild {d : Deletion} (h : hadChild d = true) : ¬ Justified d := by
  rintro ⟨image, hid, hgarbage, -⟩
  simp only [hadChild, List.any_eq_true, Bool.and_eq_true, decide_eq_true_eq] at h
  obtain ⟨parent, hparent, hparentID, child, hchild, hisChild⟩ := h
  obtain rfl := d.before.eq_of_id hparent hgarbage.stored (hparentID.trans hid.symm)
  rw [hgarbage.childless child hchild] at hisChild
  cases hisChild

/-- An image that cannot be opened is removed although a named image is its child. -/
theorem parent_of_named_image_removed :
    ∃ v, Prog.Runs (Logged Anything) (prune 2) (.start (familyStore ["localhost/cache"]))
        (some none) v ∧
      ∃ d ∈ v.deleted, ¬ Justified d := by
  have hreached : ((prune 2).eval (logServe (failsToOpen "base"))
      (.start (familyStore ["localhost/cache"]))).1 = some none := by decide +kernel
  have hrun : Prog.Runs (Logged Anything) (prune 2) (.start (familyStore ["localhost/cache"]))
      (some none) _ := Prog.runs_eval (logged_logServe fun _ _ _ => trivial) hreached
  have hchild : (((prune 2).eval (logServe (failsToOpen "base"))
      (.start (familyStore ["localhost/cache"]))).2.deleted.any hadChild) = true := by
    decide +kernel
  obtain ⟨d, hd, hhad⟩ := List.any_eq_true.mp hchild
  exact ⟨_, hrun, d, hd, not_justified_of_hadChild hhad⟩

end K8StorageX.PruneGarbage
