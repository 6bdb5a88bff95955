import K8StorageX.PruneRuns

/-!
# Pruning a reliable store

On a store whose images can all be read, are not read-only and are not used by containers,
`Prune` alone is a sweep over the list of the unnamed images: an image that is still there
and has no child is removed, and then each first parent that has become childless. The
program evaluates to this sweep.
-/

namespace K8StorageX.PruneSweep

open ApiProgram GoErrors ImagePruning PruneRuns

/-- No image is read-only or used by a container, and all calls on images succeed. -/
structure Reliable (s : ImageStore) : Prop where
  /-- Configurations can be read. -/
  configs : ∀ image ∈ s.images, s.configs image.id ≠ none
  /-- Top layers are found. -/
  layers : ∀ image ∈ s.images, image.topLayer ≠ "" → s.layers image.topLayer ≠ none
  /-- No image is read-only. -/
  writable : ∀ image ∈ s.images, image.readOnly = false
  /-- No image is used by a container. -/
  unused : ∀ image ∈ s.images, ∀ ctr ∈ s.containers, ctr.imageID ≠ image.id

/-- A program runs alone on a store in which no call fails. -/
def alone {α : Type} (p : Pruner α) (s : ImageStore) : α × ImageStore := p.eval ImageStore.answer s

/-- The image has a child in the store. -/
def hasChild (s : ImageStore) (image : Image) : Bool := s.images.any fun child => isChild s image child

/-- The parent that `getParent` finds: the first one that is listed. -/
def parentOf (s : ImageStore) (child : Image) : Option Image :=
  s.images.find? fun parent => isParent s child parent

/-- The removals of `removeImage` among the parents. -/
def climb : ℕ → ImageStore → Option Image → ImageStore
  | 0, s, _ => s
  | _ + 1, s, none => s
  | rounds + 1, s, some parent =>
    if parent.names ≠ [] ∨ hasChild s parent = true then s
    else climb rounds (s.remove parent.id) (parentOf s parent)

/-- The removals of `removeImage`. -/
def collect (rounds : ℕ) (s : ImageStore) (image : Image) : ImageStore :=
  climb rounds (s.remove image.id) (parentOf s image)

/-- The error for an entry of the list that is gone. -/
def missing (id : String) : GoError :=
  .wrapped ("could not get image " ++ id.quote) (.text "identifier is not an image")

/-- The loop of `deleteImages` over the unnamed images, with its last error. -/
def sweep (rounds : ℕ) : Option GoError → List String → ImageStore → Option GoError × ImageStore
  | lastError, [], s => (lastError, s)
  | lastError, id :: ids, s =>
    match s.find id with
    | none => sweep rounds (some (missing id)) ids s
    | some image =>
      sweep rounds lastError ids (if hasChild s image = true then s else collect rounds s image)

section Reads

variable {s : ImageStore} {image : Image}

/-- A listed image is found under its ID. -/
theorem find_of_mem (himage : image ∈ s.images) : s.find image.id = some image := by
  cases hfind : s.find image.id with
  | none =>
    have hnot := List.find?_eq_none.mp hfind image himage
    simp at hnot
  | some found =>
    obtain ⟨hmem, hid⟩ := mem_of_find hfind
    rw [s.eq_of_id hmem himage hid]

/-- Programs run one after the other on the store. -/
theorem alone_bind {α β : Type} (p : Pruner α) (f : α → Pruner β) (s : ImageStore) :
    alone (p >>= f) s = alone (f (alone p s).1) (alone p s).2 :=
  Prog.eval_bind _ p f

/-- A call is answered without a failure, and the program goes on. -/
theorem alone_request {α : Type} (r : Req) (f : Resp r → Pruner α) (s : ImageStore) :
    alone (Prog.request r >>= f) s = alone (f (s.answer r).1) (s.answer r).2 := rfl

/-- Returning a value leaves the store as it is. -/
@[simp] theorem alone_pure {α : Type} (value : α) (s : ImageStore) :
    alone (pure value : Pruner α) s = (value, s) := rfl

/-- A listed image has a configuration. -/
theorem Reliable.config (h : Reliable s) (himage : image ∈ s.images) :
    ∃ config, s.configs image.id = some config :=
  Option.ne_none_iff_exists'.mp (h.configs image himage)

/-- The configuration of a listed image is read. -/
theorem alone_getImageConfig {config : ImageConfig} (himage : image ∈ s.images)
    (hconfig : s.configs image.id = some config) :
    alone (getImageConfig image.id) s = (.ok (some config), s) := by
  simp [alone, getImageConfig, ImageStore.answer, storeRef, foundOr, find_of_mem himage, hconfig]

/-- The top layer of a listed image is read. -/
theorem alone_topLayer (h : Reliable s) (himage : image ∈ s.images) (shown : String) :
    ∃ top, IsTopLayer s image top ∧ alone (topLayer image shown) s = (.ok top, s) := by
  by_cases hempty : image.topLayer = ""
  · refine ⟨none, hempty, ?_⟩
    rw [topLayer, if_pos hempty]
    rfl
  · obtain ⟨layer, hlayer⟩ := Option.ne_none_iff_exists'.mp (h.layers image himage hempty)
    refine ⟨some layer, ⟨hempty, hlayer⟩, ?_⟩
    rw [topLayer, if_neg hempty]
    simp [alone, ImageStore.answer, foundOr, hlayer]

/-- The loop of `getParent` finds the first parent in the list. -/
theorem alone_findParent (h : Reliable s) {child : Image} {top : Option Layer}
    {childConfig : ImageConfig} (htop : IsTopLayer s child top)
    (hconfig : s.configs child.id = some childConfig) {images : List Image}
    (himages : images ⊆ s.images) :
    alone (findParent child top childConfig images) s =
      (.ok (images.find? fun parent => isParent s child parent), s) := by
  induction images with
  | nil => rfl
  | cons parent rest ih =>
    obtain ⟨hparent, hrest⟩ := List.cons_subset.mp himages
    obtain ⟨parentConfig, hparentConfig⟩ := h.config hparent
    have hlater : isParent s child parent = false →
        alone (findParent child top childConfig rest) s =
          (.ok ((parent :: rest).find? fun parent => isParent s child parent), s) := by
      intro hnot
      rw [List.find?_cons, hnot, ih hrest]
    have hrelated : isParent s child parent = true ↔ (child.id ≠ parent.id ∧
        linkedTo s parent child = true ∧ extendsHistory parentConfig childConfig = true) ∧
        usesAllLayers parentConfig childConfig = true := by
      rw [isParent, Bool.and_eq_true, isChild_iff hparentConfig hconfig,
        configsRelated_eq hparentConfig hconfig]
    rw [findParent]
    split
    · next hid =>
      apply hlater
      rw [← Bool.not_eq_true, hrelated]
      exact fun hparent => hparent.1.1 hid.symm
    · next hid =>
      split
      · next hlayer =>
        apply hlater
        rw [← Bool.not_eq_true, hrelated]
        exact fun hparent => (linkedTo_iff_of_parent htop).mp hparent.1.2.1 hlayer
      · next hlayer =>
        rw [alone_bind, alone_getImageConfig hparent hparentConfig]
        dsimp only
        split
        · next hextends =>
          obtain ⟨hhistory, hlayers⟩ := Bool.and_eq_true_iff.mp hextends
          have hlinked := (linkedTo_iff_of_parent htop).mpr hlayer
          have hisParent := hrelated.mpr ⟨⟨Ne.symm hid, hlinked, hhistory⟩, hlayers⟩
          rw [List.find?_cons, hisParent]
          rfl
        · next hextends =>
          apply hlater
          rw [← Bool.not_eq_true, hrelated]
          exact fun hparent => hextends (Bool.and_eq_true_iff.mpr ⟨hparent.1.2.2, hparent.2⟩)

/-- `getParent` finds the first parent that is listed. -/
theorem alone_getParent (h : Reliable s) (himage : image ∈ s.images) :
    alone (getParent image) s = (.ok (parentOf s image), s) := by
  obtain ⟨top, htop, hread⟩ := alone_topLayer h himage image.topLayer
  obtain ⟨config, hconfig⟩ := h.config himage
  rw [getParent, alone_request]
  dsimp only [ImageStore.answer]
  rw [alone_bind, hread]
  dsimp only
  rw [alone_bind, alone_getImageConfig himage hconfig]
  dsimp only
  rw [alone_findParent h htop hconfig (List.Subset.refl _)]
  rfl

/-- The loop of `getChildren` that stops at the first child. -/
theorem alone_findChildren (h : Reliable s) {parent : Image} {parentConfig : ImageConfig}
    (hparent : s.configs parent.id = some parentConfig) {images : List Image}
    (himages : images ⊆ s.images) :
    alone (findChildren parent parentConfig 1 [] images) s =
      (.ok ((images.find? fun child => isChild s parent child).toList.map Image.id), s) := by
  induction images with
  | nil => rfl
  | cons child rest ih =>
    obtain ⟨hchild, hrest⟩ := List.cons_subset.mp himages
    obtain ⟨top, htop, hread⟩ := alone_topLayer h hchild child.topLayer.quote
    obtain ⟨childConfig, hchildConfig⟩ := h.config hchild
    have hrelated := isChild_iff hparent hchildConfig
    have hlater : isChild s parent child = false →
        alone (findChildren parent parentConfig 1 [] rest) s =
          (.ok (((child :: rest).find? fun child => isChild s parent child).toList.map Image.id),
            s) := by
      intro hnot
      rw [List.find?_cons, hnot, ih hrest]
    rw [findChildren]
    split
    · next hid =>
      apply hlater
      rw [← Bool.not_eq_true, hrelated]
      exact fun hisChild => hisChild.1 hid
    · next hid =>
      rw [alone_bind, hread]
      dsimp only
      split
      · next hlayer =>
        apply hlater
        rw [← Bool.not_eq_true, hrelated]
        exact fun hisChild => (linkedTo_iff htop).mp hisChild.2.1 hlayer
      · next hlayer =>
        rw [alone_bind, alone_getImageConfig hchild hchildConfig]
        dsimp only
        split
        · next hextends =>
          have hlinked := (linkedTo_iff htop).mpr hlayer
          have hisChild := hrelated.mpr ⟨hid, hlinked, hextends⟩
          rw [if_pos (by simp), List.find?_cons, hisChild]
          rfl
        · next hextends =>
          apply hlater
          rw [← Bool.not_eq_true, hrelated]
          exact fun hisChild => hextends hisChild.2.2

/-- `imageIsParent` tells whether the image has a child. -/
theorem alone_imageIsParent (h : Reliable s) (himage : image ∈ s.images) :
    alone (imageIsParent image) s = (.ok (hasChild s image), s) := by
  obtain ⟨config, hconfig⟩ := h.config himage
  have hchildren : alone (getChildren image 1) s =
      (.ok ((s.images.find? fun child => isChild s image child).toList.map Image.id), s) := by
    rw [getChildren, alone_request]
    dsimp only [ImageStore.answer]
    rw [alone_bind, alone_getImageConfig himage hconfig]
    dsimp only
    exact alone_findChildren h hconfig (List.Subset.refl _)
  have hfound : decide (0 < ((s.images.find? fun child => isChild s image child).toList.map
      Image.id).length) = hasChild s image := by
    have hsome : hasChild s image = (s.images.find? fun child => isChild s image child).isSome := by
      rw [Bool.eq_iff_iff, hasChild, List.any_eq_true, List.find?_isSome]
    rw [hsome]
    cases s.images.find? fun child => isChild s image child <;> rfl
  rw [imageIsParent, alone_bind, hchildren]
  dsimp only
  rw [hfound, alone_pure]

end Reads

section Removals

variable {s : ImageStore} {image : Image}

/-- A store with fewer images is as reliable. -/
theorem Reliable.of_subset {t : ImageStore} (h : Reliable s) (himages : t.images ⊆ s.images)
    (hcontainers : t.containers = s.containers) (hlayers : t.layers = s.layers)
    (hconfigs : t.configs = s.configs) : Reliable t := by
  constructor
  · intro image himage
    rw [hconfigs]
    exact h.configs image (himages himage)
  · intro image himage
    rw [hlayers]
    exact h.layers image (himages himage)
  · intro image himage
    exact h.writable image (himages himage)
  · intro image himage
    rw [hcontainers]
    exact h.unused image (himages himage)

/-- The other images stay when one is removed. -/
theorem mem_remove {id : String} : image ∈ (s.remove id).images ↔ image ∈ s.images ∧ image.id ≠ id := by
  simp [ImageStore.remove]

/-- A removal leaves the store reliable. -/
theorem Reliable.remove (h : Reliable s) (id : String) : Reliable (s.remove id) :=
  h.of_subset (fun _ himage => (mem_remove.mp himage).1) rfl rfl rfl

/-- Deleting a listed image succeeds. -/
theorem answer_deleteImage (h : Reliable s) (himage : image ∈ s.images) (fetched : Image) :
    s.answer (.deleteImage image.id fetched) = (.ok (), s.remove image.id) := by
  have hfind := find_of_mem himage
  have hunused : (s.containers.any fun ctr => ctr.imageID = image.id) = false := by
    simpa using h.unused image himage
  simp only [ImageStore.answer, hfind, hunused, Bool.false_eq_true, if_false]

/-- The parent that is found is listed and is a parent. -/
theorem mem_of_parentOf {parent : Image} (hparent : parentOf s image = some parent) :
    parent ∈ s.images ∧ isParent s image parent = true :=
  ⟨List.mem_of_find?_eq_some hparent, by simpa using List.find?_some hparent⟩

/-- No image is its own parent. -/
theorem isParent_ne {parent : Image} (h : isParent s image parent = true) : parent.id ≠ image.id := by
  simp only [isParent, isChild, Bool.and_eq_true, decide_eq_true_eq] at h
  exact Ne.symm h.1.1.1

/-- A round of the ascent ends it at a parent that has a name or a child, and removes any
other parent. -/
theorem alone_ascendRound (h : Reliable s) {imageID : String} {parent : Image}
    (hmem : parent ∈ s.images) :
    alone (ascendRound imageID parent) s =
      if parent.names ≠ [] ∨ hasChild s parent = true then (.left (.ok imageID), s)
      else (.goesOn (parentOf s parent), s.remove parent.id) := by
  rw [ascendRound, alone_bind, alone_getParent h hmem]
  dsimp only
  rw [alone_bind, alone_imageIsParent h hmem]
  dsimp only
  by_cases hstop : parent.names ≠ [] ∨ hasChild s parent = true
  · have hstop' : 0 < parent.names.length ∨ hasChild s parent = true :=
      hstop.imp_left List.length_pos_iff.mpr
    rw [if_pos hstop, if_pos hstop', alone_pure]
  · have hstop' : ¬ (0 < parent.names.length ∨ hasChild s parent = true) := fun hor =>
      hstop (hor.imp_left List.length_pos_iff.mp)
    rw [if_neg hstop, if_neg hstop', alone_request, answer_deleteImage h hmem, alone_pure]

/-- The ascent ends and removes what `climb` removes. -/
theorem alone_ascend (h : Reliable s) {imageID : String} {rounds : ℕ} {parent : Option Image}
    (hparent : ∀ p, parent = some p → p ∈ s.images ∧ historyLength s p < rounds) :
    alone (ascend imageID rounds parent) s = (some (.ok imageID), climb rounds s parent) := by
  induction rounds generalizing s parent with
  | zero =>
    cases parent with
    | none => rfl
    | some p => exact absurd (hparent p rfl).2 (Nat.not_lt_zero _)
  | succ rounds ih =>
    cases parent with
    | none => rfl
    | some p =>
      obtain ⟨hmem, hlength⟩ := hparent p rfl
      rw [ascend, alone_bind, alone_ascendRound h hmem, climb]
      by_cases hstop : p.names ≠ [] ∨ hasChild s p = true
      · rw [if_pos hstop, if_pos hstop, alone_pure]
      · rw [if_neg hstop, if_neg hstop]
        refine ih (h.remove p.id) fun q hq => ?_
        obtain ⟨hqmem, hisParent⟩ := mem_of_parentOf hq
        have hshorter := historyLength_of_isParent hisParent
        have hsame : historyLength (s.remove p.id) q = historyLength s q := rfl
        exact ⟨mem_remove.mpr ⟨hqmem, isParent_ne hisParent⟩, by omega⟩

/-- The image is removed before the ascent, which begins at its parent. -/
theorem alone_removeChild (h : Reliable s) (himage : image ∈ s.images) (fetched : Image) :
    alone (removeChild fetched image) s = (.ok (parentOf s image), s.remove image.id) := by
  rw [removeChild, alone_bind, alone_getParent h himage]
  dsimp only
  rw [alone_request, answer_deleteImage h himage]
  dsimp only
  rw [alone_pure]

/-- `removeImage` succeeds and removes what `collect` removes. -/
theorem alone_removeImage (h : Reliable s) (himage : image ∈ s.images) {rounds : ℕ}
    (hrounds : historyLength s image ≤ rounds) (fetched : Image) :
    alone (removeImage rounds fetched image) s =
      (some (.ok image.id), collect rounds s image) := by
  rw [removeImage, alone_bind, alone_removeChild h himage]
  dsimp only
  rw [alone_ascend (h.remove image.id), collect]
  intro p hp
  obtain ⟨hmem, hisParent⟩ := mem_of_parentOf hp
  have hshorter := historyLength_of_isParent hisParent
  have hsame : historyLength (s.remove image.id) p = historyLength s p := rfl
  exact ⟨mem_remove.mpr ⟨hmem, isParent_ne hisParent⟩, by omega⟩

end Removals

section Loop

variable {s : ImageStore} {image : Image} {rounds : ℕ}

/-- `getImage` finds the image with the ID, if it is listed. -/
theorem alone_getImage (s : ImageStore) (id : String) :
    alone (getImage id) s = (.ok (s.find id), s) := by
  cases hfind : s.find id with
  | none =>
    simp [alone, getImage, resolveImage, properImageRef, storageImageRef, storageImageID,
      ImageStore.answer, foundOr, fullID, storeRef, hfind]
  | some image =>
    obtain ⟨-, rfl⟩ := mem_of_find hfind
    simp [alone, getImage, resolveImage, properImageRef, storageImageRef, ImageStore.answer,
      foundOr, storeRef, hfind]

/-- The loop body on an unnamed image that is still there. -/
theorem alone_deleteFetched (h : Reliable s) (himage : image ∈ s.images)
    (hnames : image.names = []) (hrounds : historyLength s image ≤ rounds)
    (lastError : Option GoError) :
    alone (deleteFetched ⟨false, false, true⟩ rounds lastError image.id image) s =
      (some lastError, if hasChild s image = true then s else collect rounds s image) := by
  have hself : image.id.toList.isPrefixOf image.id.toList = true := by simp
  have hplain : { image with names := [] } = image := by rw [← hnames]
  have hrunning : (s.containers.filter fun ctr => ctr.imageID = image.id) = [] := by
    simpa using h.unused image himage
  rw [deleteFetched, h.writable image himage, if_neg Bool.false_ne_true, alone_bind,
    runningContainers, alone_request]
  dsimp only [ImageStore.answer]
  rw [hrunning, alone_pure]
  dsimp only
  rw [if_neg (by simp), deleteTagged, if_pos hself, if_neg (by simp [hnames]), hplain,
    deleteUnreferenced, alone_bind, alone_imageIsParent h himage]
  dsimp only
  rw [if_neg (by simp [hnames])]
  by_cases hchild : hasChild s image = true
  · rw [if_pos (by simp [hchild, hnames]), if_pos hchild, if_pos rfl, alone_pure]
  · rw [if_neg (by simp [hchild]), if_neg hchild, alone_bind, alone_removeImage h himage hrounds]
    rfl

/-- What a removal leaves is part of what was there. -/
structure Remains (s t : ImageStore) : Prop where
  /-- Images are only removed. -/
  images : t.images.Sublist s.images
  /-- The containers stay. -/
  containers : t.containers = s.containers
  /-- The layers stay. -/
  layers : t.layers = s.layers
  /-- The configurations stay. -/
  configs : t.configs = s.configs

/-- A store is part of itself. -/
theorem Remains.refl (s : ImageStore) : Remains s s := ⟨List.Sublist.refl _, rfl, rfl, rfl⟩

/-- What is left of what is left is left. -/
theorem Remains.trans {t u : ImageStore} (h : Remains s t) (h' : Remains t u) : Remains s u :=
  ⟨h'.images.trans h.images, h'.containers.trans h.containers, h'.layers.trans h.layers,
    h'.configs.trans h.configs⟩

/-- A removal leaves a part of the store. -/
theorem remains_remove (s : ImageStore) (id : String) : Remains s (s.remove id) :=
  ⟨List.filter_sublist, rfl, rfl, rfl⟩

/-- So do the removals among the parents. -/
theorem remains_climb (rounds : ℕ) (s : ImageStore) (parent : Option Image) :
    Remains s (climb rounds s parent) := by
  induction rounds generalizing s parent with
  | zero => exact .refl s
  | succ rounds ih =>
    cases parent with
    | none => exact .refl s
    | some p =>
      rw [climb]
      split
      · exact .refl s
      · exact (remains_remove s p.id).trans (ih _ _)

/-- So do the removals of `removeImage`. -/
theorem remains_collect (rounds : ℕ) (s : ImageStore) (image : Image) :
    Remains s (collect rounds s image) :=
  (remains_remove s image.id).trans (remains_climb rounds _ _)

/-- What is left of a reliable store is reliable. -/
theorem Remains.reliable {t : ImageStore} (h : Remains s t) (hs : Reliable s) : Reliable t :=
  hs.of_subset h.images.subset h.containers h.layers h.configs

/-- Which image is a child of which does not depend on the images that are left. -/
theorem Remains.isChild {t : ImageStore} (h : Remains s t) : isChild t = PruneRuns.isChild s :=
  isChild_congr h.layers h.configs

/-- Nor does which image is a parent of which. -/
theorem Remains.isParent {t : ImageStore} (h : Remains s t) : isParent t = PruneRuns.isParent s :=
  isParent_congr h.layers h.configs

/-- The loop over the unnamed images is the sweep. -/
theorem alone_deleteImages (h : Reliable s) (hrounds : ∀ image ∈ s.images, historyLength s image ≤ rounds)
    {ids : List String} (hunnamed : ∀ image ∈ s.images, image.id ∈ ids → image.names = [])
    (lastError : Option GoError) :
    alone (deleteImages ⟨false, false, true⟩ rounds lastError ids) s =
      (some (sweep rounds lastError ids s).1, (sweep rounds lastError ids s).2) := by
  induction ids generalizing s lastError with
  | nil => rfl
  | cons id ids ih =>
    rw [deleteImages, deleteImage, alone_bind, alone_bind, alone_getImage, sweep]
    dsimp only
    cases hfind : s.find id with
    | none =>
      dsimp only
      rw [alone_pure]
      dsimp only
      refine ih h hrounds (fun image himage hid => ?_) _
      exact hunnamed image himage (List.mem_cons_of_mem id hid)
    | some image =>
      obtain ⟨himage, rfl⟩ := mem_of_find hfind
      have hnames := hunnamed image himage List.mem_cons_self
      dsimp only
      rw [alone_deleteFetched h himage hnames (hrounds image himage)]
      dsimp only
      have hremains : Remains s
          (if hasChild s image = true then s else collect rounds s image) := by
        split
        · exact .refl s
        · exact remains_collect rounds s image
      refine ih (hremains.reliable h) (fun other hother => ?_) (fun other hother hid => ?_) _
      · rw [historyLength_congr hremains.configs]
        exact hrounds other (hremains.images.subset hother)
      · exact hunnamed other (hremains.images.subset hother) (List.mem_cons_of_mem _ hid)

/-- `Prune` alone on a reliable store is the sweep over the unnamed images. -/
theorem alone_prune (h : Reliable s) (hrounds : ∀ image ∈ s.images, historyLength s image ≤ rounds) :
    alone (prune rounds) s = (some (sweep rounds none (dangling s.images) s).1,
      (sweep rounds none (dangling s.images) s).2) := by
  rw [prune, alone_bind, findDanglingImages, alone_request]
  dsimp only [ImageStore.answer]
  rw [alone_pure]
  exact alone_deleteImages h hrounds (fun image => unnamed_of_mem_dangling) none

end Loop

end K8StorageX.PruneSweep
