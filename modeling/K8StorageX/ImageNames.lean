import K8StorageX.LayerfsStore

/-!
# Image names of caches

The local image of a cache and its default image in a registry are named after the
namespace and the name of the cache. A namespace ends at the first separator after it,
so that the parts can be read off the image name even if the cache name holds separators.
-/

namespace K8StorageX.ImageNames

open NodeAgent LayerfsStore

/-- `applyDefaults` of the `layerfs` command, with the registry flag. -/
def applyDefaults (registryFlag : String) (o : MountOptions) : MountOptions :=
  let o := if o.cacheNamespace = "" then { o with cacheNamespace := "default" } else o
  if o.image = "" ∧ registryFlag ≠ "" then
    { o with image := registryFlag ++ "/cache/" ++ o.cacheNamespace ++ ":" ++ o.cacheName }
  else o

/-- The namespace has no separators of image names. -/
def SeparatorFree (namespaceName : String) : Prop :=
  '/' ∉ namespaceName.toList ∧ ':' ∉ namespaceName.toList

instance (namespaceName : String) : Decidable (SeparatorFree namespaceName) :=
  inferInstanceAs (Decidable (_ ∧ _))

/-- The options are for the same cache. -/
def SameCache (o o' : MountOptions) : Prop :=
  o.cacheNamespace = o'.cacheNamespace ∧ o.cacheName = o'.cacheName

section Parsing

variable {α : Type*} {separator : α} {a a' b b' : List α}

/-- What stands before the first separator is determined. -/
theorem eq_of_append_separator (ha : separator ∉ a) (ha' : separator ∉ a')
    (h : a ++ separator :: b = a' ++ separator :: b') : a = a' ∧ b = b' := by
  induction a generalizing a' with
  | nil =>
    cases a' with
    | nil => simpa using h
    | cons x a' =>
      have hx : separator = x := (List.cons.inj h).1
      exact absurd hx fun heq => ha' (heq ▸ List.mem_cons_self)
  | cons x a ih =>
    cases a' with
    | nil =>
      have hx : x = separator := (List.cons.inj h).1
      exact absurd hx.symm fun heq => ha (heq ▸ List.mem_cons_self)
    | cons y a' =>
      obtain ⟨hxy, hrest⟩ := List.cons.inj h
      have hnot : separator ∉ a := fun hmem => ha (List.mem_cons_of_mem x hmem)
      have hnot' : separator ∉ a' := fun hmem => ha' (List.mem_cons_of_mem y hmem)
      obtain ⟨htail, hb⟩ := ih hnot hnot' hrest
      exact ⟨by rw [hxy, htail], hb⟩

end Parsing

theorem localImageName_inj {o o' : MountOptions} (h : SeparatorFree o.cacheNamespace)
    (h' : SeparatorFree o'.cacheNamespace) :
    localImageName o = localImageName o' ↔ SameCache o o' := by
  constructor
  · intro heq
    unfold localImageName at heq
    rw [String.append_left_inj] at heq
    have hlist := congrArg String.toList heq
    have hslash : "/".toList = ['/'] := by decide
    simp only [String.toList_append, List.append_assoc, List.append_cancel_left_eq, hslash,
      List.singleton_append] at hlist
    obtain ⟨hnamespace, hname⟩ := eq_of_append_separator h.1 h'.1 hlist
    exact ⟨String.toList_inj.mp hnamespace, String.toList_inj.mp hname⟩
  · rintro ⟨hnamespace, hname⟩
    unfold localImageName
    rw [hnamespace, hname]

section Defaults

variable {registryFlag : String} {o o' : MountOptions}

theorem cacheName_applyDefaults (registryFlag : String) (o : MountOptions) :
    (applyDefaults registryFlag o).cacheName = o.cacheName := by
  unfold applyDefaults
  dsimp only
  split_ifs <;> rfl

theorem cacheNamespace_applyDefaults (registryFlag : String) (o : MountOptions) :
    (applyDefaults registryFlag o).cacheNamespace =
      if o.cacheNamespace = "" then "default" else o.cacheNamespace := by
  unfold applyDefaults
  dsimp only
  split_ifs <;> simp_all

/-- The default image is named after the cache as the defaults leave it. -/
theorem image_applyDefaults (hregistry : registryFlag ≠ "") (himage : o.image = "") :
    (applyDefaults registryFlag o).image = registryFlag ++ "/cache/" ++
      (applyDefaults registryFlag o).cacheNamespace ++ ":" ++
      (applyDefaults registryFlag o).cacheName := by
  rw [cacheNamespace_applyDefaults, cacheName_applyDefaults, applyDefaults]
  by_cases hempty : o.cacheNamespace = "" <;> simp [hempty, himage, hregistry]

theorem SeparatorFree.applyDefaults (h : SeparatorFree o.cacheNamespace) :
    SeparatorFree (applyDefaults registryFlag o).cacheNamespace := by
  rw [cacheNamespace_applyDefaults]
  split
  · decide
  · exact h

theorem image_applyDefaults_inj (hregistry : registryFlag ≠ "")
    (h : SeparatorFree o.cacheNamespace) (h' : SeparatorFree o'.cacheNamespace)
    (himage : o.image = "") (himage' : o'.image = "") :
    (applyDefaults registryFlag o).image = (applyDefaults registryFlag o').image ↔
      SameCache (applyDefaults registryFlag o) (applyDefaults registryFlag o') := by
  rw [image_applyDefaults hregistry himage, image_applyDefaults hregistry himage']
  constructor
  · intro heq
    have hlist := congrArg String.toList heq
    have hcolon : ":".toList = [':'] := by decide
    simp only [String.toList_append, List.append_assoc, List.append_cancel_left_eq, hcolon,
      List.singleton_append] at hlist
    obtain ⟨hnamespace, hname⟩ :=
      eq_of_append_separator h.applyDefaults.2 h'.applyDefaults.2 hlist
    exact ⟨String.toList_inj.mp hnamespace, String.toList_inj.mp hname⟩
  · rintro ⟨hnamespace, hname⟩
    rw [hnamespace, hname]

/-- Options with a namespace keep it. -/
theorem sameCache_applyDefaults (h : o.cacheNamespace ≠ "") (h' : o'.cacheNamespace ≠ "") :
    SameCache (applyDefaults registryFlag o) (applyDefaults registryFlag o') ↔ SameCache o o' := by
  simp only [SameCache, cacheNamespace_applyDefaults, cacheName_applyDefaults, if_neg h, if_neg h']

end Defaults

/-- Caches with different namespaces or names never share an image, whatever their names
hold. Local image names are equal exactly for the same cache. In one registry the default
image names are equal exactly for the same cache, where a missing namespace is the default
one; namespaces that are given are compared as they are. -/
theorem images_of_caches_distinct (o o' : MountOptions) (h : SeparatorFree o.cacheNamespace)
    (h' : SeparatorFree o'.cacheNamespace) :
    (localImageName o = localImageName o' ↔ SameCache o o') ∧
      ∀ registryFlag, registryFlag ≠ "" → o.image = "" → o'.image = "" →
        ((applyDefaults registryFlag o).image = (applyDefaults registryFlag o').image ↔
          SameCache (applyDefaults registryFlag o) (applyDefaults registryFlag o')) ∧
        (o.cacheNamespace ≠ "" → o'.cacheNamespace ≠ "" →
          ((applyDefaults registryFlag o).image = (applyDefaults registryFlag o').image ↔
            SameCache o o')) := by
  refine ⟨localImageName_inj h h', fun registryFlag hregistry himage himage' => ?_⟩
  have himages := image_applyDefaults_inj hregistry h h' himage himage'
  exact ⟨himages, fun hgiven hgiven' => himages.trans (sameCache_applyDefaults hgiven hgiven')⟩

/-- Options of a cache whose name looks like an image name of another one. -/
def misleadingOptions : MountOptions := ⟨"", "", "", true, "b/c:latest", "a"⟩

/-- Options of the cache that the name above looks like. -/
def plainOptions : MountOptions := ⟨"", "", "", true, "c", "a"⟩

theorem images_of_caches_distinct_misleading :
    localImageName misleadingOptions ≠ localImageName plainOptions ∧
      (applyDefaults "docker://registry" misleadingOptions).image ≠
        (applyDefaults "docker://registry" plainOptions).image := by
  have hdistinct := images_of_caches_distinct misleadingOptions plainOptions (by decide)
    (by decide)
  have hother : ¬ SameCache misleadingOptions plainOptions := fun hsame =>
    absurd hsame.2 (by decide)
  refine ⟨fun heq => hother (hdistinct.1.mp heq), fun heq => hother ?_⟩
  exact ((hdistinct.2 "docker://registry" (by decide) rfl rfl).2 (by decide) (by decide)).mp heq

end K8StorageX.ImageNames
