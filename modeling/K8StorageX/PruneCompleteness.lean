import K8StorageX.PruneGarbage
import K8StorageX.PruneSweep
import Mathlib.Data.List.Perm.Subperm

/-!
# When pruning is complete

`Prune` lists the unnamed images once and removes further images while it ascends. It
removes all garbage in every listing order exactly if no unnamed image becomes childless
on the way: an unnamed image with children must have a child that stays. Then the sweep
removes the unnamed childless images and nothing else. Otherwise there is an order in
which an entry of the list is gone at its turn, or a childless image is left.
-/

namespace K8StorageX.PruneCompleteness

open ApiProgram GoErrors ImagePruning PruneGarbage PruneRuns PruneSweep

/-- An unnamed image without a child. -/
def Leaf (s : ImageStore) (image : Image) : Prop := image.names = [] ∧ hasChild s image = false

instance (s : ImageStore) (image : Image) : Decidable (Leaf s image) :=
  inferInstanceAs (Decidable (image.names = [] ∧ hasChild s image = false))

/-- Every unnamed image with a child has a child that is named or has a child itself. -/
def Settled (s : ImageStore) : Prop :=
  ∀ parent ∈ s.images, parent.names = [] → hasChild s parent = true →
    ∃ child ∈ s.images, isChild s parent child = true ∧ ¬ Leaf s child

instance (s : ImageStore) : Decidable (Settled s) :=
  inferInstanceAs (Decidable (∀ parent ∈ s.images, parent.names = [] → hasChild s parent = true →
    ∃ child ∈ s.images, isChild s parent child = true ∧ ¬ Leaf s child))

section Children

variable {s t : ImageStore} {image : Image}

/-- An image has a child if one is listed. -/
theorem hasChild_iff : hasChild s image = true ↔ ∃ child ∈ s.images, isChild s image child = true :=
  List.any_eq_true

/-- A listed child is one. -/
theorem hasChild_of_mem {child : Image} (hchild : child ∈ s.images)
    (h : isChild s image child = true) : hasChild s image = true :=
  hasChild_iff.mpr ⟨child, hchild, h⟩

/-- Removals take children away. -/
theorem hasChild_of_remains (h : Remains s t) (hchild : hasChild t image = true) :
    hasChild s image = true := by
  obtain ⟨child, hmem, hisChild⟩ := hasChild_iff.mp hchild
  rw [h.isChild] at hisChild
  exact hasChild_of_mem (h.images.subset hmem) hisChild

/-- An image without a child does not get one by removals. -/
theorem hasChild_eq_false_of_remains (h : Remains s t) (hchild : hasChild s image = false) :
    hasChild t image = false := by
  rw [← Bool.not_eq_true] at hchild ⊢
  exact mt (hasChild_of_remains h) hchild

/-- No image is listed twice. -/
theorem nodup_images (s : ImageStore) : s.images.Nodup := List.Nodup.of_map _ s.distinct

/-- No unnamed image is collected twice. -/
theorem nodup_dangling (s : ImageStore) : (dangling s.images).Nodup :=
  s.distinct.sublist (List.Sublist.map _ List.filter_sublist)

/-- Every unnamed image is collected. -/
theorem id_mem_dangling (himage : image ∈ s.images) (hnames : image.names = []) :
    image.id ∈ dangling s.images :=
  List.mem_map_of_mem (List.mem_filter.mpr ⟨himage, by simp [hnames]⟩)

/-- If all images are left, nothing has changed. -/
theorem eq_of_remains (h : Remains s t) (hall : s.images ⊆ t.images) : t = s := by
  have hlength : s.images.length ≤ t.images.length :=
    (List.subperm_of_subset (nodup_images s) hall).length_le
  have himages := h.images.eq_of_length_le hlength
  obtain ⟨-, hcontainers, hlayers, hconfigs⟩ := h
  cases s
  cases t
  simp_all

/-- An error of a sweep is not forgotten. -/
theorem sweep_error {rounds : ℕ} {e : GoError} {ids : List String} :
    (sweep rounds (some e) ids s).1 ≠ none := by
  induction ids generalizing s e with
  | nil => exact Option.some_ne_none e
  | cons id ids ih =>
    rw [sweep]
    split <;> exact ih

/-- The loop only removes images. -/
theorem remains_sweep {rounds : ℕ} {lastError : Option GoError} {ids : List String} :
    Remains s (sweep rounds lastError ids s).2 := by
  induction ids generalizing s lastError with
  | nil => exact .refl s
  | cons id ids ih =>
    rw [sweep]
    split
    · exact ih
    · split
      · exact ih
      · exact (remains_collect rounds s _).trans ih

end Children

section Settled

variable {s u : ImageStore} {image : Image} {rounds : ℕ}

/-- What holds of all removed images holds after another removal if it holds of that image. -/
theorem gone_remove {P : Image → Prop} (himage : image ∈ s.images)
    (hgone : ∀ other ∈ s.images, other ∉ u.images → P other) (hP : P image) :
    ∀ other ∈ s.images, other ∉ (u.remove image.id).images → P other := by
  intro other hother hnot
  by_cases hleft : other ∈ u.images
  · have hid : other.id = image.id := by
      by_contra hne
      exact hnot (mem_remove.mpr ⟨hleft, hne⟩)
    rwa [s.eq_of_id hother himage hid]
  · exact hgone other hother hleft

/-- Where only leaves have been removed, an unnamed image that had a child has one. -/
theorem Settled.hasChild (h : Settled s) (hremains : Remains s u)
    (hgone : ∀ other ∈ s.images, other ∉ u.images → Leaf s other) (himage : image ∈ s.images)
    (hnames : image.names = []) (hchild : hasChild s image = true) :
    PruneSweep.hasChild u image = true := by
  obtain ⟨child, hmem, hisChild, hstays⟩ := h image himage hnames hchild
  have hleft : child ∈ u.images := by
    by_contra hnot
    exact hstays (hgone child hmem hnot)
  rw [← hremains.isChild] at hisChild
  exact hasChild_of_mem hleft hisChild

/-- The removal of a leaf leaves its parents alone. -/
theorem Settled.collect (h : Settled s) (hremains : Remains s u)
    (hgone : ∀ other ∈ s.images, other ∉ u.images → Leaf s other) (himage : image ∈ u.images)
    (hleaf : Leaf s image) : PruneSweep.collect rounds u image = u.remove image.id := by
  have hremains' : Remains s (u.remove image.id) := hremains.trans (remains_remove u image.id)
  have hgone' := gone_remove (hremains.images.subset himage) hgone hleaf
  rw [PruneSweep.collect]
  cases hparent : parentOf u image with
  | none => cases rounds <;> rfl
  | some parent =>
    obtain ⟨hmem, hisParent⟩ := mem_of_parentOf hparent
    have hisChild : isChild s parent image = true := by
      rw [← hremains.isChild]
      exact (Bool.and_eq_true_iff.mp hisParent).1
    cases rounds with
    | zero => rfl
    | succ rounds =>
      rw [climb, if_pos]
      by_cases hnames : parent.names = []
      · have hstored := hremains.images.subset hmem
        have hhad := hasChild_of_mem (hremains.images.subset himage) hisChild
        exact Or.inr (h.hasChild hremains' hgone' hstored hnames hhad)
      · exact Or.inl hnames

/-- The sweep of a settled store removes the leaves of its list and reports no error. -/
theorem Settled.sweep (h : Settled s) {ids : List String} (hids : ids.Nodup)
    (hknown : ∀ id ∈ ids, ∃ image ∈ s.images, image.id = id ∧ image.names = [])
    (hremains : Remains s u)
    (hgone : ∀ other ∈ s.images, other ∉ u.images → Leaf s other ∧ other.id ∉ ids) :
    (PruneSweep.sweep rounds none ids u).1 = none ∧
      ∀ other, other ∈ (PruneSweep.sweep rounds none ids u).2.images ↔
        other ∈ u.images ∧ ¬ (Leaf s other ∧ other.id ∈ ids) := by
  induction ids generalizing u with
  | nil => simp [PruneSweep.sweep]
  | cons id ids ih =>
    obtain ⟨hfresh, hrest⟩ := List.nodup_cons.mp hids
    obtain ⟨image, himage, rfl, hnames⟩ := hknown id List.mem_cons_self
    have hleft : image ∈ u.images := by
      by_contra hnot
      exact (hgone image himage hnot).2 List.mem_cons_self
    have hknown' : ∀ id ∈ ids, ∃ image ∈ s.images, image.id = id ∧ image.names = [] :=
      fun id hid => hknown id (List.mem_cons_of_mem _ hid)
    have hleaves : ∀ other ∈ s.images, other ∉ u.images → Leaf s other :=
      fun other hother hnot => (hgone other hother hnot).1
    rw [PruneSweep.sweep, find_of_mem hleft]
    dsimp only
    by_cases hchild : PruneSweep.hasChild s image = true
    · rw [if_pos (h.hasChild hremains hleaves himage hnames hchild)]
      obtain ⟨herror, hmem⟩ := ih hrest hknown' hremains fun other hother hnot =>
        (hgone other hother hnot).imp_right (mt (List.mem_cons_of_mem _))
      refine ⟨herror, fun other => ?_⟩
      have hother : other ∈ u.images → Leaf s other → other.id ≠ image.id := by
        intro hother hleaf hid
        obtain rfl := s.eq_of_id (hremains.images.subset hother) himage hid
        rw [hleaf.2] at hchild
        cases hchild
      rw [hmem, List.mem_cons]
      grind
    · have hleaf : Leaf s image := ⟨hnames, by simpa using hchild⟩
      have hnone := hasChild_eq_false_of_remains hremains hleaf.2
      rw [hnone, if_neg Bool.false_ne_true, h.collect hremains hleaves hleft hleaf]
      have hgone' := gone_remove himage (fun other hother hnot =>
        (hgone other hother hnot).imp_right (mt (List.mem_cons_of_mem _))) ⟨hleaf, hfresh⟩
      obtain ⟨herror, hmem⟩ := ih hrest hknown' (hremains.trans (remains_remove u image.id)) hgone'
      refine ⟨herror, fun other => ?_⟩
      have hsame : other ∈ u.images → other.id = image.id → Leaf s other := by
        intro hother hid
        rwa [s.eq_of_id (hremains.images.subset hother) himage hid]
      rw [hmem, mem_remove, List.mem_cons]
      grind

/-- A settled store is left with the images that are no leaves. -/
theorem Settled.swept (h : Settled s) (rounds : ℕ) :
    (PruneSweep.sweep rounds none (dangling s.images) s).1 = none ∧
      ∀ image, image ∈ (PruneSweep.sweep rounds none (dangling s.images) s).2.images ↔
        image ∈ s.images ∧ ¬ Leaf s image := by
  have hknown : ∀ id ∈ dangling s.images, ∃ image ∈ s.images, image.id = id ∧ image.names = [] := by
    intro id hid
    obtain ⟨image, himage, rfl⟩ := List.mem_map.mp hid
    have hmem := (List.mem_filter.mp himage).1
    exact ⟨image, hmem, rfl, unnamed_of_mem_dangling hmem hid⟩
  obtain ⟨herror, hmem⟩ := h.sweep (nodup_dangling s) hknown (.refl s)
    fun other hother hnot => absurd hother hnot
  refine ⟨herror, fun image => ?_⟩
  rw [hmem]
  constructor
  · rintro ⟨himage, hnot⟩
    exact ⟨himage, fun hleaf => hnot ⟨hleaf, id_mem_dangling himage hleaf.1⟩⟩
  · rintro ⟨himage, hnot⟩
    exact ⟨himage, fun hleaf => hnot hleaf.1⟩

/-- A settled store without leaves. -/
theorem Settled.left (h : Settled s) (hremains : Remains s u)
    (hmem : ∀ image, image ∈ u.images ↔ image ∈ s.images ∧ ¬ Leaf s image) :
    Settled u ∧ ∀ image ∈ u.images, ¬ Leaf u image := by
  have hgone : ∀ other ∈ s.images, other ∉ u.images → Leaf s other := by
    intro other hother hnot
    by_contra hstays
    exact hnot ((hmem other).mpr ⟨hother, hstays⟩)
  have hno : ∀ image ∈ u.images, ¬ Leaf u image := by
    rintro image himage ⟨hnames, hchildless⟩
    obtain ⟨hstored, hnot⟩ := (hmem image).mp himage
    have hhad : PruneSweep.hasChild s image = true := by
      by_contra hchild
      exact hnot ⟨hnames, by simpa using hchild⟩
    rw [h.hasChild hremains hgone hstored hnames hhad] at hchildless
    cases hchildless
  refine ⟨fun parent hparent hnames hchild => ?_, hno⟩
  obtain ⟨child, hchildMem, hisChild⟩ := hasChild_iff.mp hchild
  exact ⟨child, hchildMem, hisChild, hno child hchildMem⟩

end Settled

section Unsettled

variable {s u : ImageStore} {image : Image} {rounds : ℕ}

/-- Images that an ascent from below a history length does not remove: their histories are
too long, another one of them is a child, or they are nobody's parent. -/
def Protected (s : ImageStore) (bound : ℕ) (keep : Image → Prop) : Prop :=
  ∀ image, keep image → image ∈ s.images ∧ (bound ≤ historyLength s image ∨
    (∃ child, keep child ∧ isChild s image child = true) ∨
    ∀ child ∈ s.images, isParent s child image = false)

/-- The ascent spares protected images. -/
theorem climb_keeps {bound : ℕ} {keep : Image → Prop} (hkeep : Protected s bound keep)
    (hremains : Remains s u) (hleft : ∀ image, keep image → image ∈ u.images)
    {parent : Option Image} (hparent : ∀ p, parent = some p → p ∈ u.images ∧
      historyLength s p < bound ∧ ∃ child ∈ s.images, isParent s child p = true) :
    ∀ image, keep image → image ∈ (climb rounds u parent).images := by
  induction rounds generalizing u parent with
  | zero => exact hleft
  | succ rounds ih =>
    cases parent with
    | none => exact hleft
    | some p =>
      rw [climb]
      split
      · exact hleft
      · next hstop =>
        obtain ⟨hmem, hlength, child, hchild, hisParent⟩ := hparent p rfl
        have hnot : ¬ keep p := by
          intro hp
          rcases (hkeep p hp).2 with hlong | ⟨other, hother, hisChild⟩ | hnobody
          · omega
          · rw [← hremains.isChild] at hisChild
            exact hstop (Or.inr (hasChild_of_mem (hleft other hother) hisChild))
          · rw [hnobody child hchild] at hisParent
            cases hisParent
        refine ih (hremains.trans (remains_remove u p.id)) ?_ ?_
        · intro image himage
          refine mem_remove.mpr ⟨hleft image himage, fun hid => hnot ?_⟩
          rwa [← u.eq_of_id (hleft image himage) hmem hid]
        · intro q hq
          obtain ⟨hqmem, hqparent⟩ := mem_of_parentOf hq
          rw [hremains.isParent] at hqparent
          have hshorter := historyLength_of_isParent hqparent
          exact ⟨mem_remove.mpr ⟨hqmem, isParent_ne hqparent⟩, by omega, p,
            hremains.images.subset hmem, hqparent⟩

/-- So does `removeImage` on an image that is not protected. -/
theorem collect_keeps {keep : Image → Prop} (hkeep : Protected s (historyLength s image) keep)
    (hremains : Remains s u) (hleft : ∀ other, keep other → other ∈ u.images)
    (himage : image ∈ u.images) (hnot : ¬ keep image) :
    ∀ other, keep other → other ∈ (collect rounds u image).images := by
  refine climb_keeps hkeep (hremains.trans (remains_remove u image.id)) ?_ ?_
  · intro other hother
    refine mem_remove.mpr ⟨hleft other hother, fun hid => hnot ?_⟩
    rwa [← u.eq_of_id (hleft other hother) himage hid]
  · intro p hp
    obtain ⟨hmem, hisParent⟩ := mem_of_parentOf hp
    rw [hremains.isParent] at hisParent
    have hshorter := historyLength_of_isParent hisParent
    exact ⟨mem_remove.mpr ⟨hmem, isParent_ne hisParent⟩, by omega, image,
      hremains.images.subset himage, hisParent⟩

/-- The image itself is removed. -/
theorem notMem_collect (rounds : ℕ) (u : ImageStore) (image : Image) :
    image ∉ (collect rounds u image).images := by
  intro hmem
  exact (mem_remove.mp ((remains_climb rounds _ _).images.subset hmem)).2 rfl

/-- An image that is nobody's parent stays while others are swept. -/
theorem sweep_keeps {parent : Image}
    (hnobody : ∀ child ∈ s.images, isParent s child parent = false)
    (hparent : parent ∈ s.images) (hremains : Remains s u) (hleft : parent ∈ u.images)
    {ids : List String} (hids : parent.id ∉ ids) {lastError : Option GoError} :
    parent ∈ (sweep rounds lastError ids u).2.images := by
  induction ids generalizing u lastError with
  | nil => exact hleft
  | cons id ids ih =>
    obtain ⟨hne, hrest⟩ : parent.id ≠ id ∧ parent.id ∉ ids := by simpa using hids
    rw [sweep]
    split
    · exact ih hremains hleft hrest
    · next image hfind =>
      obtain ⟨himage, rfl⟩ := mem_of_find hfind
      split
      · exact ih hremains hleft hrest
      · have hkeep : Protected s (historyLength s image) fun other => other = parent := by
          rintro other rfl
          exact ⟨hparent, Or.inr (Or.inr hnobody)⟩
        refine ih (hremains.trans (remains_collect rounds u image)) ?_ hrest
        exact collect_keeps hkeep hremains (fun other hother => hother ▸ hleft) himage
          (fun heq => hne (heq ▸ rfl)) parent rfl

/-- A sweep without an error has removed the leaves of its list. -/
theorem leaf_swept (hremains : Remains s u) {ids : List String}
    (hnone : (sweep rounds none ids u).1 = none) (hleaf : Leaf s image) (himage : image ∈ s.images)
    (hid : image.id ∈ ids) : image ∉ (sweep rounds none ids u).2.images := by
  induction ids generalizing u with
  | nil => cases hid
  | cons id ids ih =>
    rw [sweep] at hnone ⊢
    split at hnone
    · exact absurd hnone sweep_error
    · next found hfind =>
      obtain ⟨hfound, rfl⟩ := mem_of_find hfind
      rcases List.mem_cons.mp hid with heq | hid
      · obtain rfl := s.eq_of_id himage (hremains.images.subset hfound) heq
        rw [hasChild_eq_false_of_remains hremains hleaf.2, if_neg Bool.false_ne_true]
        intro hmem
        exact notMem_collect rounds u image (remains_sweep.images.subset hmem)
      · refine ih ?_ hnone hid
        split
        · exact hremains
        · exact hremains.trans (remains_collect rounds u found)

/-- An unnamed image whose children are all leaves, and that no child ascends to, is left
without a child if it is listed first. -/
theorem left_childless {parent : Image} {rest : List Image} (hlist : s.images = parent :: rest)
    (hnames : parent.names = []) (hchild : hasChild s parent = true)
    (hleaves : ∀ child ∈ s.images, isChild s parent child = true → Leaf s child)
    (hnobody : ∀ child ∈ s.images, isParent s child parent = false)
    (hnone : (sweep rounds none (dangling s.images) s).1 = none) :
    parent ∈ (sweep rounds none (dangling s.images) s).2.images ∧
      hasChild (sweep rounds none (dangling s.images) s).2 parent = false := by
  have hparent : parent ∈ s.images := hlist ▸ List.mem_cons_self
  have hentries : dangling s.images = parent.id :: dangling rest := by
    simp [hlist, dangling, hnames]
  have hfresh : parent.id ∉ dangling rest := by
    have hnodup := nodup_dangling s
    rw [hentries] at hnodup
    exact (List.nodup_cons.mp hnodup).1
  constructor
  · rw [hentries, sweep, find_of_mem hparent]
    dsimp only
    rw [if_pos hchild]
    exact sweep_keeps hnobody hparent (.refl s) hparent hfresh
  · rw [← Bool.not_eq_true, hasChild_iff]
    rintro ⟨child, hmem, hisChild⟩
    have hremains : Remains s (sweep rounds none (dangling s.images) s).2 := remains_sweep
    have hstored := hremains.images.subset hmem
    rw [hremains.isChild] at hisChild
    have hleaf := hleaves child hstored hisChild
    exact leaf_swept (.refl s) hnone hleaf hstored (id_mem_dangling hstored hleaf.1) hmem

/-- In a list without duplicates what precedes an element stands before it. -/
theorem mem_of_pair_sublist {α : Type} {a b : α} {before after : List α}
    (hnodup : (before ++ b :: after).Nodup) (h : [a, b].Sublist (before ++ b :: after)) :
    a ∈ before := by
  induction before with
  | nil =>
    have hfresh := (List.nodup_cons.mp hnodup).1
    have hmem : b ∈ after := by
      cases h with
      | cons _ hrest => exact hrest.subset (by simp)
      | cons_cons _ hrest => exact hrest.subset (by simp)
    exact absurd hmem hfresh
  | cons x before ih =>
    cases h with
    | cons _ hrest => exact List.mem_cons_of_mem x (ih (List.nodup_cons.mp hnodup).2 hrest)
    | cons_cons _ hrest => exact List.mem_cons_self

/-- The children that are listed before `last` are swept; `last` and the parent stay. -/
theorem sweep_children (rounds : ℕ) {parent last : Image} (hparent : parent ∈ s.images)
    (hlast : last ∈ s.images) (hlastChild : isChild s parent last = true) {children : List Image}
    (hchildren : ∀ child ∈ children, child ∈ s.images ∧ isChild s parent child = true ∧ Leaf s child)
    (hnodup : (last :: children).Nodup) (hremains : Remains s u)
    (hparentLeft : parent ∈ u.images) (hlastLeft : last ∈ u.images)
    (hleft : ∀ child ∈ children, child ∈ u.images) (ids : List String) :
    ∃ v, sweep rounds none (children.map Image.id ++ ids) u = sweep rounds none ids v ∧
      Remains u v ∧ parent ∈ v.images ∧ last ∈ v.images ∧ ∀ child ∈ children, child ∉ v.images := by
  induction children generalizing u with
  | nil => exact ⟨u, rfl, .refl u, hparentLeft, hlastLeft, by simp⟩
  | cons child children ih =>
    obtain ⟨hmem, hisChild, hleaf⟩ := hchildren child List.mem_cons_self
    have hother : ∀ c ∈ children, c ∈ s.images ∧ isChild s parent c = true ∧ Leaf s c :=
      fun c hc => hchildren c (List.mem_cons_of_mem child hc)
    obtain ⟨hlastNot, hnodup'⟩ := List.nodup_cons.mp hnodup
    obtain ⟨hchildNot, hnodup''⟩ := List.nodup_cons.mp hnodup'
    have hlength := historyLength_of_isChild hisChild
    -- the siblings have histories of the same length, and the parent keeps `last`
    have hkeep : Protected s (historyLength s child)
        fun image => image = parent ∨ image = last ∨ image ∈ children := by
      rintro image (rfl | rfl | himage)
      · exact ⟨hparent, Or.inr (Or.inl ⟨last, Or.inr (Or.inl rfl), hlastChild⟩)⟩
      · have := historyLength_of_isChild hlastChild
        exact ⟨hlast, Or.inl (by omega)⟩
      · have := historyLength_of_isChild (hother image himage).2.1
        exact ⟨(hother image himage).1, Or.inl (by omega)⟩
    have hstay : ∀ image, (image = parent ∨ image = last ∨ image ∈ children) →
        image ∈ (collect rounds u child).images := by
      refine collect_keeps hkeep hremains ?_ (hleft child List.mem_cons_self) ?_
      · rintro image (rfl | rfl | himage)
        · exact hparentLeft
        · exact hlastLeft
        · exact hleft image (List.mem_cons_of_mem child himage)
      · rintro (rfl | rfl | himage)
        · omega
        · exact hlastNot List.mem_cons_self
        · exact hchildNot himage
    obtain ⟨v, hsweep, hv, hvparent, hvlast, hvgone⟩ := ih hother
      (List.nodup_cons.mpr ⟨fun hin => hlastNot (List.mem_cons_of_mem child hin), hnodup''⟩)
      (hremains.trans (remains_collect rounds u child)) (hstay parent (Or.inl rfl))
      (hstay last (Or.inr (Or.inl rfl))) (fun c hc => hstay c (Or.inr (Or.inr hc)))
    refine ⟨v, ?_, (remains_collect rounds u child).trans hv, hvparent, hvlast, ?_⟩
    · rw [List.map_cons, List.cons_append, sweep, find_of_mem (hleft child List.mem_cons_self)]
      dsimp only
      rw [hasChild_eq_false_of_remains hremains hleaf.2, if_neg Bool.false_ne_true, hsweep]
    · intro c hc hcv
      rcases List.mem_cons.mp hc with rfl | hc
      · exact notMem_collect rounds u c (hv.images.subset hcv)
      · exact hvgone c hc hcv

/-- `getParent` returns a parent unless another one is listed before it. -/
theorem parentOf_of_first {parent child : Image} (hparent : parent ∈ s.images)
    (hisParent : isParent s child parent = true)
    (hbefore : ∀ q ∈ s.images, [q, parent].Sublist s.images → isParent s child q = false) :
    parentOf s child = some parent := by
  cases hfind : parentOf s child with
  | none => exact absurd hisParent (List.find?_eq_none.mp hfind parent hparent)
  | some q =>
    obtain ⟨hqmem, hqparent⟩ := mem_of_parentOf hfind
    obtain ⟨-, earlier, later, hsplit, hearlier⟩ := List.find?_eq_some_iff_append.mp hfind
    have hin : parent ∈ earlier ++ q :: later := hsplit ▸ hparent
    rcases List.mem_append.mp hin with hin | hin
    · exact absurd hisParent (by simpa using hearlier parent hin)
    rcases List.mem_cons.mp hin with rfl | hin
    · rfl
    have hpair : [q, parent].Sublist (earlier ++ q :: later) :=
      (List.Sublist.cons_cons q (List.singleton_sublist.mpr hin)).trans
        (List.sublist_append_right earlier _)
    rw [hbefore q hqmem (hsplit ▸ hpair)] at hqparent
    cases hqparent

/-- The removal of its last child removes an unnamed parent. -/
theorem find_of_collect {parent child : Image} (hfirst : parentOf s child = some parent)
    (hnames : parent.names = []) (hchildless : hasChild (s.remove child.id) parent = false)
    (hrounds : 0 < rounds) : (collect rounds s child).find parent.id = none := by
  obtain ⟨rounds, rfl⟩ : ∃ n, rounds = n + 1 := Nat.exists_eq_succ_of_ne_zero (by omega)
  rw [collect, hfirst, climb, if_neg (by simp [hnames, hchildless])]
  cases hfind : ImageStore.find _ parent.id with
  | none => rfl
  | some found =>
    obtain ⟨hfound, hid⟩ := mem_of_find hfind
    exact absurd hid (mem_remove.mp ((remains_climb _ _ _).images.subset hfound)).2

/-- An unnamed image whose children are all leaves is gone at its turn if it is listed after
its children, the last of which ascends to it, and before other parents of that child. -/
theorem gone_at_its_turn {parent last : Image} {children rest : List Image}
    (hlist : s.images = children ++ last :: parent :: rest) (hnames : parent.names = [])
    (hchildren : ∀ child ∈ s.images, isChild s parent child = true ↔
      child = last ∨ child ∈ children)
    (hleaves : ∀ child ∈ s.images, isChild s parent child = true → Leaf s child)
    (hisParent : isParent s last parent = true) (hrounds : historyLength s last ≤ rounds) :
    (sweep rounds none (dangling s.images) s).1 ≠ none := by
  have hnodup := nodup_images s
  have hparent : parent ∈ s.images := by simp [hlist]
  have hlast : last ∈ s.images := by simp [hlist]
  have hmem : ∀ child ∈ children, child ∈ s.images := fun child hchild => by simp [hlist, hchild]
  have hlastChild : isChild s parent last = true := (Bool.and_eq_true_iff.mp hisParent).1
  have hlength := historyLength_of_isChild hlastChild
  have hfacts : ∀ child ∈ children,
      child ∈ s.images ∧ isChild s parent child = true ∧ Leaf s child := by
    intro child hchild
    have hisChild := (hchildren child (hmem child hchild)).mpr (Or.inr hchild)
    exact ⟨hmem child hchild, hisChild, hleaves child (hmem child hchild) hisChild⟩
  have hlastLeaf := hleaves last hlast hlastChild
  have hentries : dangling s.images =
      children.map Image.id ++ last.id :: parent.id :: dangling rest := by
    have hunnamed : (children.filter fun image => image.names.length = 0) = children :=
      List.filter_eq_self.mpr fun child hchild => by simp [(hfacts child hchild).2.2.1]
    rw [hlist, dangling, List.filter_append, hunnamed]
    simp [dangling, hlastLeaf.1, hnames]
  have hdistinct : (last :: children).Nodup := by
    rw [hlist] at hnodup
    refine (List.perm_middle.nodup_iff.mp hnodup).sublist ?_
    exact (List.sublist_append_left children _).cons_cons last
  obtain ⟨v, hsweep, hremains, hparentLeft, hlastLeft, hgone⟩ :=
    sweep_children rounds hparent hlast hlastChild hfacts hdistinct (.refl s) hparent hlast hmem
      (last.id :: parent.id :: dangling rest)
  have hfirst : parentOf v last = some parent := by
    refine parentOf_of_first hparentLeft (by rw [hremains.isParent, hisParent]) ?_
    intro q hq hpair
    -- only the siblings, which are gone, and `last` are listed before the parent
    have hbefore : q ∈ children ++ [last] := by
      have hlisted : s.images = children ++ [last] ++ parent :: rest := by simp [hlist]
      rw [hlisted] at hnodup
      exact mem_of_pair_sublist hnodup (hlisted ▸ hpair.trans hremains.images)
    rcases List.mem_append.mp hbefore with hsibling | hself
    · exact absurd hq (hgone q hsibling)
    · by_contra hqparent
      have hid := isParent_ne (Bool.of_not_eq_false hqparent)
      exact hid (congrArg Image.id (List.mem_singleton.mp hself))
  have hchildless : hasChild (v.remove last.id) parent = false := by
    rw [← Bool.not_eq_true, hasChild_iff]
    rintro ⟨child, hmemChild, hisChild⟩
    obtain ⟨hchildLeft, hne⟩ := mem_remove.mp hmemChild
    rw [(hremains.trans (remains_remove v last.id)).isChild] at hisChild
    rcases (hchildren child (hremains.images.subset hchildLeft)).mp hisChild with rfl | hchild
    · exact hne rfl
    · exact hgone child hchild hchildLeft
  have hlost := find_of_collect hfirst hnames hchildless (by omega : 0 < rounds)
  rw [hentries, hsweep, sweep, find_of_mem hlastLeft]
  dsimp only
  rw [hasChild_eq_false_of_remains hremains hlastLeaf.2, if_neg Bool.false_ne_true, sweep, hlost]
  exact sweep_error

end Unsettled

section Orders

/-- A store with the same content that lists its images in another order. -/
structure Relisted (s t : ImageStore) : Prop where
  /-- The images are the same. -/
  images : t.images.Perm s.images
  /-- The containers are the same. -/
  containers : t.containers = s.containers
  /-- The layers are the same. -/
  layers : t.layers = s.layers
  /-- The configurations are the same. -/
  configs : t.configs = s.configs

/-- The store with its images in another order. -/
def relist (s : ImageStore) {order : List Image} (h : order.Perm s.images) : ImageStore :=
  { s with
    images := order
    distinct := (h.map Image.id).nodup_iff.mpr s.distinct }

/-- `Prune` is complete and does not depend on the listing order. -/
structure PrunesCompletely (rounds : ℕ) (s : ImageStore) : Prop where
  /-- No error is returned. -/
  noError : ∀ t, Relisted s t → (alone (prune rounds) t).1 = some none
  /-- The same images are left. -/
  sameImages : ∀ t, Relisted s t → ∀ image, image ∈ (alone (prune rounds) t).2.images ↔
    image ∈ (alone (prune rounds) s).2.images
  /-- No unnamed image without a child is left. -/
  collected : ∀ t, Relisted s t → ∀ image ∈ (alone (prune rounds) t).2.images,
    ¬ Leaf (alone (prune rounds) t).2 image
  /-- A second `Prune` changes nothing. -/
  stable : ∀ t, Relisted s t → alone (prune rounds) (alone (prune rounds) t).2 =
    (some none, (alone (prune rounds) t).2)

variable {s t : ImageStore} {rounds : ℕ}

/-- A store lists its own images. -/
theorem Relisted.refl (s : ImageStore) : Relisted s s := ⟨.refl _, rfl, rfl, rfl⟩

/-- A permutation is another listing. -/
theorem relisted_relist {order : List Image} (h : order.Perm s.images) : Relisted s (relist s h) :=
  ⟨h, rfl, rfl, rfl⟩

/-- Another listing is as reliable. -/
theorem Relisted.reliable (h : Relisted s t) (hs : Reliable s) : Reliable t :=
  hs.of_subset h.images.subset h.containers h.layers h.configs

/-- Which image is a child of which does not depend on the listing. -/
theorem Relisted.isChild (h : Relisted s t) : isChild t = PruneRuns.isChild s :=
  isChild_congr h.layers h.configs

/-- Nor does whether an image has a child. -/
theorem Relisted.hasChild (h : Relisted s t) (image : Image) :
    hasChild t image = PruneSweep.hasChild s image := by
  rw [Bool.eq_iff_iff, hasChild_iff, hasChild_iff, h.isChild]
  simp only [h.images.mem_iff]

/-- Nor does which images are leaves. -/
theorem Relisted.leaf_iff (h : Relisted s t) (image : Image) : Leaf t image ↔ Leaf s image := by
  rw [Leaf, Leaf, h.hasChild]

/-- Nor does whether the store is settled. -/
theorem Relisted.settled (h : Relisted s t) (hs : Settled s) : Settled t := by
  intro parent hparent hnames hchild
  rw [h.hasChild] at hchild
  obtain ⟨child, hmem, hisChild, hstays⟩ := hs parent (h.images.mem_iff.mp hparent) hnames hchild
  refine ⟨child, h.images.mem_iff.mpr hmem, ?_, mt (h.leaf_iff child).mp hstays⟩
  rw [h.isChild, hisChild]

/-- Nor does whether an image has leaves as children only. -/
theorem Relisted.leaves (h : Relisted s t) {parent : Image}
    (hleaves : ∀ child ∈ s.images, PruneRuns.isChild s parent child = true → Leaf s child) :
    ∀ child ∈ t.images, PruneRuns.isChild t parent child = true → Leaf t child := by
  intro child hmem hisChild
  rw [h.isChild] at hisChild
  exact (h.leaf_iff child).mpr (hleaves child (h.images.mem_iff.mp hmem) hisChild)

/-- Nor does the bound on the histories. -/
theorem Relisted.historyLength_le (h : Relisted s t)
    (hrounds : ∀ image ∈ s.images, historyLength s image ≤ rounds) :
    ∀ image ∈ t.images, historyLength t image ≤ rounds := by
  intro image himage
  rw [historyLength_congr h.configs]
  exact hrounds image (h.images.mem_iff.mp himage)

/-- The outcome of pruning a settled store. -/
theorem Settled.outcome (h : Settled s) (hs : Reliable s)
    (hrounds : ∀ image ∈ s.images, historyLength s image ≤ rounds) :
    (alone (prune rounds) s).1 = some none ∧ Remains s (alone (prune rounds) s).2 ∧
      ∀ image, image ∈ (alone (prune rounds) s).2.images ↔ image ∈ s.images ∧ ¬ Leaf s image := by
  rw [alone_prune hs hrounds]
  obtain ⟨herror, hmem⟩ := h.swept rounds
  exact ⟨congrArg some herror, remains_sweep, hmem⟩

/-- A settled store is pruned completely, whatever the listing order. -/
theorem Settled.prunesCompletely (h : Settled s) (hs : Reliable s)
    (hrounds : ∀ image ∈ s.images, historyLength s image ≤ rounds) : PrunesCompletely rounds s := by
  have houtcome := fun t (ht : Relisted s t) =>
    (ht.settled h).outcome (ht.reliable hs) (ht.historyLength_le hrounds)
  constructor
  · intro t ht
    exact (houtcome t ht).1
  · intro t ht image
    rw [(houtcome t ht).2.2, (houtcome s (.refl s)).2.2, ht.leaf_iff, ht.images.mem_iff]
  · intro t ht
    obtain ⟨-, hremains, hmem⟩ := houtcome t ht
    exact ((ht.settled h).left hremains hmem).2
  · intro t ht
    obtain ⟨-, hremains, hmem⟩ := houtcome t ht
    obtain ⟨hsettled, hno⟩ := (ht.settled h).left hremains hmem
    have hrounds' : ∀ image ∈ (alone (prune rounds) t).2.images,
        historyLength (alone (prune rounds) t).2 image ≤ rounds := by
      intro image himage
      rw [historyLength_congr hremains.configs]
      exact ht.historyLength_le hrounds image (hremains.images.subset himage)
    obtain ⟨herror, hagain, hleft⟩ :=
      hsettled.outcome (hremains.reliable (ht.reliable hs)) hrounds'
    refine Prod.ext herror (eq_of_remains hagain fun image himage => ?_)
    exact (hleft image).mpr ⟨himage, hno image himage⟩

/-- The children of an image, one of them last, then the image. -/
theorem perm_children_first {parent last : Image} (hparent : parent ∈ s.images)
    (hlast : last ∈ s.images) (hisChild : isChild s parent last = true) :
    ((s.images.filter (isChild s parent)).erase last ++ last :: parent ::
      (s.images.filter fun image => !isChild s parent image).erase parent).Perm s.images := by
  have hself : isChild s parent parent = false := by simp [isChild]
  have hchildren := List.perm_cons_erase (List.mem_filter.mpr ⟨hlast, hisChild⟩)
  have hmem : parent ∈ s.images.filter fun image => !isChild s parent image :=
    List.mem_filter.mpr ⟨hparent, by simp [hself]⟩
  have hother := List.perm_cons_erase hmem
  exact List.perm_middle.trans ((hchildren.append hother).symm.trans (List.filter_append_perm _ _))

/-- If the children of an unnamed image are all leaves, there is an order in which `Prune`
fails or leaves garbage. -/
theorem PrunesCompletely.settled (h : PrunesCompletely rounds s) (hs : Reliable s)
    (hrounds : ∀ image ∈ s.images, historyLength s image ≤ rounds) : Settled s := by
  intro parent hparent hnames hchild
  by_contra hall
  have hleaves : ∀ child ∈ s.images, isChild s parent child = true → Leaf s child := by
    intro child hmem hisChild
    by_contra hstays
    exact hall ⟨child, hmem, hisChild, hstays⟩
  by_cases hbody : ∃ last ∈ s.images, isParent s last parent = true
  · obtain ⟨last, hlast, hisParent⟩ := hbody
    have hisChild : isChild s parent last = true := (Bool.and_eq_true_iff.mp hisParent).1
    have ht := relisted_relist (perm_children_first hparent hlast hisChild)
    have herror := h.noError _ ht
    rw [alone_prune (ht.reliable hs) (ht.historyLength_le hrounds)] at herror
    have hchildren : ∀ child ∈ s.images, isChild s parent child = true ↔
        child = last ∨ child ∈ (s.images.filter (isChild s parent)).erase last := by
      intro child hmem
      have hfilter : last ∈ s.images.filter (isChild s parent) :=
        List.mem_filter.mpr ⟨hlast, hisChild⟩
      rw [← List.mem_cons, ← (List.perm_cons_erase hfilter).mem_iff, List.mem_filter]
      exact (and_iff_right hmem).symm
    refine gone_at_its_turn rfl hnames ?_ (ht.leaves hleaves) ?_ ?_ (Option.some_inj.mp herror)
    · intro child hmem
      rw [ht.isChild]
      exact hchildren child (ht.images.mem_iff.mp hmem)
    · rw [isParent_congr ht.layers ht.configs, hisParent]
    · rw [historyLength_congr ht.configs]
      exact hrounds last hlast
  · have ht := relisted_relist (List.perm_cons_erase hparent).symm
    have herror := h.noError _ ht
    have hcollected := h.collected _ ht
    rw [alone_prune (ht.reliable hs) (ht.historyLength_le hrounds)] at herror hcollected
    have hnobody : ∀ child ∈ s.images, isParent s child parent = false := by
      intro child hmem
      by_contra hisParent
      exact hbody ⟨child, hmem, by simpa using hisParent⟩
    have hleft := left_childless rfl hnames ((ht.hasChild parent).trans hchild)
      (ht.leaves hleaves) (fun child hmem => by
        rw [isParent_congr ht.layers ht.configs]
        exact hnobody child (ht.images.mem_iff.mp hmem)) (Option.some_inj.mp herror)
    exact hcollected parent hleft.1 ⟨hnames, hleft.2⟩

/-- `Prune` alone on a reliable store is complete in every listing order exactly if every
unnamed image with a child has a child that is named or has a child itself. -/
theorem prunesCompletely_iff_settled (s : ImageStore) (hs : Reliable s) (rounds : ℕ)
    (hrounds : ∀ image ∈ s.images, historyLength s image ≤ rounds) :
    PrunesCompletely rounds s ↔ Settled s :=
  ⟨fun h => h.settled hs hrounds, fun h => h.prunesCompletely hs hrounds⟩

/-- A named and an unnamed child of the unnamed image `base`. -/
def siblingStore : ImageStore where
  images := [sampleImage "stale" [], sampleImage "derived" ["localhost/cache"], sampleImage "base" []]
  distinct := by simp [sampleImage]
  containers := []
  layers _ := none
  configs id := if id = "base" then some ⟨[sampleHistory], []⟩
    else some ⟨[sampleHistory, sampleHistory], []⟩

/-- The base of a named and an unnamed child stays, the unnamed child is removed. -/
theorem prunesCompletely_siblingStore : Settled siblingStore ∧ PrunesCompletely 2 siblingStore ∧
    (alone (prune 2) siblingStore).2.images.map Image.id = ["derived", "base"] := by
  have hsettled : Settled siblingStore := by decide +kernel
  have hreliable : Reliable siblingStore := by
    constructor <;> simp [siblingStore, sampleImage]
  have hiff := prunesCompletely_iff_settled siblingStore hreliable 2 (by decide +kernel)
  exact ⟨hsettled, hiff.mpr hsettled, by decide +kernel⟩

/-- If a child is listed before its unnamed parent, both are removed at the turn of the child
and the turn of the parent is an error. -/
theorem prune_error_depends_on_order :
    Reliable (familyStore []) ∧ (alone (prune 2) (familyStore [])).1 = some none ∧
      ∃ t, Relisted (familyStore []) t ∧ (alone (prune 2) t).1 = some (some (missing "base")) := by
  refine ⟨?_, by decide +kernel, relist (familyStore []) (List.Perm.swap _ _ []), ?_, ?_⟩
  · constructor <;> simp [familyStore, sampleImage, sampleConfig]
  · exact relisted_relist _
  · rfl

end Orders

end K8StorageX.PruneCompleteness
