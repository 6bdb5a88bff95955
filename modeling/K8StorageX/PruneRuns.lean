import K8StorageX.ImagePruning

/-!
# Runs of the image pruning alone

Without other processes the store changes only by the removals of `Prune`. Each call may
fail; a run is logged with the store at each removal. What the reads return is what the
store holds, except that an image that cannot be opened is taken for one without a
configuration.
-/

namespace K8StorageX.PruneRuns

open ApiProgram GoErrors ImagePruning

section Relations

/-- The layers of a child continue those of a parent. -/
def linkedTo (s : ImageStore) (parent child : Image) : Bool :=
  child.topLayer = "" || (s.layers child.topLayer).any fun layer =>
    layer.parent = parent.topLayer || layer.id = parent.topLayer

/-- The configurations of two images, if both can be read, are related. -/
def configsRelated (related : ImageConfig → ImageConfig → Bool) (s : ImageStore)
    (parent child : Image) : Bool :=
  (s.configs parent.id).any fun parentConfig => (s.configs child.id).any (related parentConfig)

/-- A child image in the sense of `getChildren`. -/
def isChild (s : ImageStore) (parent child : Image) : Bool :=
  child.id ≠ parent.id && linkedTo s parent child && configsRelated extendsHistory s parent child

/-- A parent image in the sense of `getParent`. -/
def isParent (s : ImageStore) (child parent : Image) : Bool :=
  isChild s parent child && configsRelated usesAllLayers s parent child

/-- The length of the history of an image. -/
def historyLength (s : ImageStore) (image : Image) : ℕ :=
  ((s.configs image.id).map fun config => config.history.length).getD 0

/-- The history of a child has one more entry. -/
theorem historyLength_of_isChild {s : ImageStore} {parent child : Image}
    (h : isChild s parent child = true) :
    historyLength s parent + 1 = historyLength s child := by
  simp only [isChild, Bool.and_eq_true, configsRelated, Option.any_eq_true] at h
  obtain ⟨-, parentConfig, hparent, childConfig, hchild, hextends⟩ := h
  have hlength : parentConfig.history.length + 1 = childConfig.history.length := by
    simp only [extendsHistory, Bool.and_eq_true, beq_iff_eq] at hextends
    exact hextends.1
  simpa [historyLength, hparent, hchild] using hlength

theorem isChild_congr {s t : ImageStore} (hlayers : t.layers = s.layers)
    (hconfigs : t.configs = s.configs) : isChild t = isChild s := by
  funext parent child
  simp only [isChild, linkedTo, configsRelated, hlayers, hconfigs]

theorem isParent_congr {s t : ImageStore} (hlayers : t.layers = s.layers)
    (hconfigs : t.configs = s.configs) : isParent t = isParent s := by
  funext child parent
  simp only [isParent, isChild_congr hlayers hconfigs, configsRelated, hconfigs]

theorem historyLength_congr {s t : ImageStore} (h : s.configs = t.configs) (image : Image) :
    historyLength s image = historyLength t image := by
  rw [historyLength, historyLength, h]

theorem historyLength_of_isParent {s : ImageStore} {child parent : Image}
    (h : isParent s child parent = true) : historyLength s parent + 1 = historyLength s child := by
  rw [isParent, Bool.and_eq_true] at h
  exact historyLength_of_isChild h.1

/-- The images that `Prune` lists have no name. -/
theorem unnamed_of_mem_dangling {s : ImageStore} {image : Image} (himage : image ∈ s.images)
    (hid : image.id ∈ dangling s.images) : image.names = [] := by
  obtain ⟨other, hother, heq⟩ := List.mem_map.mp hid
  obtain ⟨hmem, hnames⟩ := List.mem_filter.mp hother
  obtain rfl := s.eq_of_id hmem himage heq
  exact List.eq_nil_of_length_eq_zero (of_decide_eq_true hnames)

end Relations

section Log

/-- A removal of an image. -/
structure Deletion where
  /-- The removed image. -/
  id : String
  /-- The entry of the list that is being handled. -/
  entry : String
  /-- The store at the removal. -/
  before : ImageStore

/-- The store with the log of a run. -/
structure Pruning where
  /-- The store. -/
  store : ImageStore
  /-- The image that was looked up last with `getImage`: the entry that is being handled. -/
  entry : String
  /-- The removals so far. -/
  deleted : List Deletion

/-- The entry that is being handled after a call. -/
def entryAfter (entry : String) : Req → String
  | .parseImageName name => name
  | _ => entry

/-- The removals of a call. -/
def deletions (u : Pruning) : (r : Req) → Resp r → List Deletion
  | .deleteImage id _, .ok _ => [⟨id, u.entry, u.store⟩]
  | _, _ => []

/-- A call and its log. Calls fail only where failures are allowed. -/
def Logged (allowed : Req → ImageStore → Prop) (r : Req) (u : Pruning) (response : Resp r)
    (v : Pruning) : Prop :=
  (∃ fault : Option String, (fault ≠ none → allowed r u.store) ∧
    u.store.serve fault r = (response, v.store)) ∧
  v.entry = entryAfter u.entry r ∧ v.deleted = u.deleted ++ deletions u r response

/-- The log of a run that starts with a store. -/
def Pruning.start (s : ImageStore) : Pruning := ⟨s, "", []⟩

/-- Any call may fail. -/
def Anything (_ : Req) (_ : ImageStore) : Prop := True

/-- A call may fail unless it opens an image that exists and whose configuration can be
read. -/
def OpensReadable (r : Req) (s : ImageStore) : Prop :=
  ∀ ref, r = .newImage ref → s.find ref.imageID = none ∨ s.configs ref.imageID = none

/-- Calls that change neither the store nor the entry. -/
def Reads : Req → Prop
  | .setNames _ _ => False
  | .deleteContainer _ => False
  | .deleteImage _ _ => False
  | .parseImageName _ => False
  | _ => True

variable {allowed : Req → ImageStore → Prop} {u v : Pruning}

theorem store_of_reads {s : ImageStore} {fault : Option String} {r : Req} (hr : Reads r) :
    (s.serve fault r).2 = s := by
  cases fault with
  | some text => rfl
  | none =>
    cases r with
    | setNames id names => cases hr
    | deleteContainer id => cases hr
    | deleteImage id fetched => cases hr
    | _ => rfl

/-- A read leaves everything as it was and returns what the store holds, or fails. -/
theorem Logged.read {r : Req} {response : Resp r} (h : Logged allowed r u response v)
    (hr : Reads r) : v = u ∧ ∃ fault : Option String, (fault ≠ none → allowed r u.store) ∧
      (u.store.serve fault r).1 = response := by
  obtain ⟨⟨fault, hfault, hserve⟩, hentry, hdeleted⟩ := h
  have hread : (u.store.serve fault r).2 = u.store := store_of_reads hr
  have hstore : v.store = u.store := by rw [← hread, hserve]
  have hsame : entryAfter u.entry r = u.entry ∧ deletions u r response = [] := by
    cases r with
    | parseImageName name => cases hr
    | deleteImage id fetched => cases hr
    | _ => exact ⟨rfl, rfl⟩
  refine ⟨?_, fault, hfault, by rw [hserve]⟩
  cases v
  simp_all

/-- A program that reads goes on from where it was. -/
theorem runs_read {α : Type} {r : Req} {f : Resp r → Pruner α} {value : α}
    (h : Prog.Runs (Logged allowed) (Prog.request r >>= f) u value v) (hr : Reads r) :
    ∃ fault : Option String, (fault ≠ none → allowed r u.store) ∧
      Prog.Runs (Logged allowed) (f (u.store.serve fault r).1) u value v := by
  rw [Prog.request_bind, Prog.runs_call_iff] at h
  obtain ⟨response, w, hcall, hrest⟩ := h
  obtain ⟨rfl, fault, hfault, rfl⟩ := hcall.read hr
  exact ⟨fault, hfault, hrest⟩

/-- A store that answers with chosen failures, with the log. -/
def logServe (fault : Req → Option String) (r : Req) (u : Pruning) : Resp r × Pruning :=
  let served := u.store.serve (fault r) r
  (served.1, ⟨served.2, entryAfter u.entry r, u.deleted ++ deletions u r served.1⟩)

theorem logged_logServe {fault : Req → Option String}
    (hfault : ∀ r s, fault r ≠ none → allowed r s) (r : Req) (u : Pruning) :
    Logged allowed r u (logServe fault r u).1 (logServe fault r u).2 :=
  ⟨⟨fault r, hfault r u.store, rfl⟩, rfl, rfl⟩

end Log

section Reading

variable {allowed : Req → ImageStore → Prop} {u v : Pruning}

/-- An image is opened unless the call fails. -/
theorem newImage_of_readable {s : ImageStore} {id : String} {image : Image} {config : ImageConfig}
    (hfind : s.find id = some image) (hconfig : s.configs id = some config) :
    (s.answer (.newImage (storeRef id))).1 = .ok () := by
  simp [ImageStore.answer, storeRef, hfind, hconfig, foundOr]

/-- What `getImageConfig` returns is the configuration in the store. No configuration
means that there is none to read, or that a failure was allowed. -/
theorem runs_getImageConfig {imageID : String} {value : Except GoError (Option ImageConfig)}
    (h : Prog.Runs (Logged allowed) (getImageConfig imageID) u value v) :
    v = u ∧ (∀ config, value = .ok (some config) → u.store.configs imageID = some config) ∧
      (value = .ok none → u.store.find imageID ≠ none ∧ (u.store.configs imageID = none ∨
        allowed (.newImage (storeRef imageID)) u.store)) := by
  obtain ⟨fault₁, -, h⟩ := runs_read h trivial
  split at h
  · obtain ⟨rfl, rfl⟩ := Prog.runs_ret_iff.mp h
    exact ⟨rfl, nofun, nofun⟩
  · next ref href =>
    obtain rfl : storeRef imageID = ref := by
      cases fault₁ with
      | some text => cases href
      | none => exact Except.ok.inj href
    obtain ⟨fault₂, hfault₂, h⟩ := runs_read h trivial
    split at h
    · next text htext =>
      obtain ⟨fault₃, -, h⟩ := runs_read h trivial
      split at h
      · obtain ⟨rfl, rfl⟩ := Prog.runs_ret_iff.mp h
        exact ⟨rfl, nofun, nofun⟩
      · next image himage =>
        split at h
        · obtain ⟨rfl, rfl⟩ := Prog.runs_ret_iff.mp h
          refine ⟨rfl, nofun, fun _ => ?_⟩
          have hfind : v.store.find imageID = some image :=
            ok_of_foundOr (ok_of_serve himage)
          refine ⟨by rw [hfind]; exact Option.some_ne_none image, ?_⟩
          cases fault₂ with
          | some text => exact Or.inr (hfault₂ nofun)
          | none =>
            left
            cases hconfig : v.store.configs imageID with
            | none => rfl
            | some config =>
              have hok := newImage_of_readable hfind hconfig
              cases htext.symm.trans hok
        · obtain ⟨rfl, rfl⟩ := Prog.runs_ret_iff.mp h
          exact ⟨rfl, nofun, nofun⟩
    · obtain ⟨fault₃, -, h⟩ := runs_read h trivial
      split at h
      · obtain ⟨rfl, rfl⟩ := Prog.runs_ret_iff.mp h
        exact ⟨rfl, nofun, nofun⟩
      · next config hread =>
        obtain ⟨rfl, rfl⟩ := Prog.runs_ret_iff.mp h
        refine ⟨rfl, fun found hfound => ?_, nofun⟩
        cases hfound
        exact ok_of_foundOr (ok_of_serve hread)

/-- The top layer of an image, if it has one. -/
def IsTopLayer (s : ImageStore) (image : Image) : Option Layer → Prop
  | none => image.topLayer = ""
  | some layer => image.topLayer ≠ "" ∧ s.layers image.topLayer = some layer

theorem runs_topLayer {image : Image} {shown : String} {value : Except GoError (Option Layer)}
    (h : Prog.Runs (Logged allowed) (topLayer image shown) u value v) :
    v = u ∧ ∀ top, value = .ok top → IsTopLayer u.store image top := by
  unfold topLayer at h
  split at h
  · next hnone =>
    obtain ⟨rfl, rfl⟩ := Prog.runs_ret_iff.mp h
    refine ⟨rfl, fun top htop => ?_⟩
    cases htop
    exact hnone
  · next hsome =>
    obtain ⟨fault, -, h⟩ := runs_read h trivial
    split at h
    · obtain ⟨rfl, rfl⟩ := Prog.runs_ret_iff.mp h
      exact ⟨rfl, nofun⟩
    · next layer hread =>
      obtain ⟨rfl, rfl⟩ := Prog.runs_ret_iff.mp h
      refine ⟨rfl, fun top htop => ?_⟩
      cases htop
      exact ⟨hsome, ok_of_foundOr (ok_of_serve hread)⟩

/-- The test of `getChildren` that skips images whose layers do not continue those of the
parent. -/
theorem linkedTo_iff {parent child : Image} {top : Option Layer} {s : ImageStore}
    (htop : IsTopLayer s child top) :
    linkedTo s parent child = true ↔ ¬ (top.any fun layer =>
      layer.parent != parent.topLayer && layer.id != parent.topLayer) = true := by
  cases top with
  | none =>
    have hempty : child.topLayer = "" := htop
    simp [linkedTo, hempty]
  | some layer =>
    obtain ⟨hne, hlayer⟩ := htop
    simp [linkedTo, hne, hlayer, or_iff_not_imp_left]

/-- The same test as `getParent` writes it. -/
theorem linkedTo_iff_of_parent {parent child : Image} {top : Option Layer} {s : ImageStore}
    (htop : IsTopLayer s child top) :
    linkedTo s parent child = true ↔ ¬ (top.any fun layer =>
      parent.topLayer != layer.parent && parent.topLayer != layer.id) = true := by
  rw [linkedTo_iff htop]
  simp only [bne_comm]

theorem configsRelated_eq {related : ImageConfig → ImageConfig → Bool} {s : ImageStore}
    {parent child : Image} {parentConfig childConfig : ImageConfig}
    (hparent : s.configs parent.id = some parentConfig)
    (hchild : s.configs child.id = some childConfig) :
    configsRelated related s parent child = related parentConfig childConfig := by
  simp [configsRelated, hparent, hchild]

theorem isChild_iff {s : ImageStore} {parent child : Image} {parentConfig childConfig : ImageConfig}
    (hparent : s.configs parent.id = some parentConfig)
    (hchild : s.configs child.id = some childConfig) :
    isChild s parent child = true ↔ child.id ≠ parent.id ∧ linkedTo s parent child = true ∧
      extendsHistory parentConfig childConfig = true := by
  rw [isChild, Bool.and_eq_true, Bool.and_eq_true, configsRelated_eq hparent hchild,
    decide_eq_true_iff, and_assoc]

/-- The loop of `getParent` returns a parent from the list. -/
theorem runs_findParent {child : Image} {top : Option Layer} {childConfig : ImageConfig}
    {images : List Image} {value : Except GoError (Option Image)}
    (htop : IsTopLayer u.store child top) (hconfig : u.store.configs child.id = some childConfig)
    (h : Prog.Runs (Logged allowed) (findParent child top childConfig images) u value v) :
    v = u ∧ ∀ parent, value = .ok (some parent) →
      parent ∈ images ∧ isParent u.store child parent = true := by
  induction images with
  | nil =>
    obtain ⟨rfl, rfl⟩ := Prog.runs_ret_iff.mp h
    exact ⟨rfl, nofun⟩
  | cons parent rest ih =>
    have hlater : Prog.Runs (Logged allowed) (findParent child top childConfig rest) u value v →
        v = u ∧ ∀ found, value = .ok (some found) →
          found ∈ parent :: rest ∧ isParent u.store child found = true := by
      intro hrest
      obtain ⟨hsame, hfound⟩ := ih hrest
      exact ⟨hsame, fun found hvalue => (hfound found hvalue).imp_left (List.mem_cons_of_mem parent)⟩
    unfold findParent at h
    split at h
    · exact hlater h
    · next hid =>
      split at h
      · exact hlater h
      · next hlayer =>
        obtain ⟨config, w, hread, hbody⟩ := Prog.runs_bind_iff.mp h
        obtain ⟨rfl, hvalue, -⟩ := runs_getImageConfig hread
        split at hbody
        · obtain ⟨rfl, rfl⟩ := Prog.runs_ret_iff.mp hbody
          exact ⟨rfl, nofun⟩
        · exact hlater hbody
        · next parentConfig =>
          split at hbody
          · next hrelated =>
            obtain ⟨rfl, rfl⟩ := Prog.runs_ret_iff.mp hbody
            refine ⟨rfl, fun found hfound => ?_⟩
            cases hfound
            have hparent := hvalue parentConfig rfl
            obtain ⟨hextends, hlayers⟩ := Bool.and_eq_true_iff.mp hrelated
            have hlinked := (linkedTo_iff_of_parent htop).mpr hlayer
            have hchild := (isChild_iff hparent hconfig).mpr ⟨Ne.symm hid, hlinked, hextends⟩
            refine ⟨List.mem_cons_self, ?_⟩
            rw [isParent, hchild, configsRelated_eq hparent hconfig, hlayers]
            rfl
          · exact hlater hbody

/-- `getParent` returns a parent from the store. -/
theorem runs_getParent {child : Image} {value : Except GoError (Option Image)}
    (h : Prog.Runs (Logged allowed) (getParent child) u value v) :
    v = u ∧ ∀ parent, value = .ok (some parent) →
      parent ∈ u.store.images ∧ isParent u.store child parent = true := by
  obtain ⟨fault, -, h⟩ := runs_read h trivial
  split at h
  · obtain ⟨rfl, rfl⟩ := Prog.runs_ret_iff.mp h
    exact ⟨rfl, nofun⟩
  · next images himages =>
    have hlist : u.store.images = images := Except.ok.inj (ok_of_serve himages)
    obtain ⟨top, w, htop, hbody⟩ := Prog.runs_bind_iff.mp h
    obtain ⟨rfl, hlayer⟩ := runs_topLayer htop
    split at hbody
    · obtain ⟨rfl, rfl⟩ := Prog.runs_ret_iff.mp hbody
      exact ⟨rfl, nofun⟩
    · next childTopLayer =>
      obtain ⟨config, w, hconfig, hloop⟩ := Prog.runs_bind_iff.mp hbody
      obtain ⟨rfl, hread, -⟩ := runs_getImageConfig hconfig
      split at hloop
      · obtain ⟨rfl, rfl⟩ := Prog.runs_ret_iff.mp hloop
        exact ⟨rfl, nofun⟩
      · obtain ⟨rfl, rfl⟩ := Prog.runs_ret_iff.mp hloop
        exact ⟨rfl, nofun⟩
      · next childConfig =>
        subst hlist
        exact runs_findParent (hlayer childTopLayer rfl) (hread childConfig rfl) hloop

/-- A loop of `getChildren` that stops at the first child and finds none has seen none. -/
theorem runs_findChildren {parent : Image} {parentConfig : ImageConfig} {images : List Image}
    (hopens : ∀ s : ImageStore, ∀ id, allowed (.newImage (storeRef id)) s →
      s.find id = none ∨ s.configs id = none)
    (hparent : u.store.configs parent.id = some parentConfig)
    {value : Except GoError (List String)}
    (h : Prog.Runs (Logged allowed) (findChildren parent parentConfig 1 [] images) u value v) :
    v = u ∧ (value = .ok [] → ∀ child ∈ images, isChild u.store parent child = false) := by
  induction images with
  | nil =>
    obtain ⟨rfl, rfl⟩ := Prog.runs_ret_iff.mp h
    exact ⟨rfl, fun _ child hchild => absurd hchild List.not_mem_nil⟩
  | cons child rest ih =>
    have hlater : isChild u.store parent child = false →
        Prog.Runs (Logged allowed) (findChildren parent parentConfig 1 [] rest) u value v →
        v = u ∧ (value = .ok [] → ∀ c ∈ child :: rest, isChild u.store parent c = false) := by
      intro hnot hrest
      obtain ⟨hsame, hnone⟩ := ih hrest
      refine ⟨hsame, fun hvalue c hc => ?_⟩
      rcases List.mem_cons.mp hc with rfl | hc
      · exact hnot
      · exact hnone hvalue c hc
    unfold findChildren at h
    split at h
    · next hid => exact hlater (by simp [isChild, hid]) h
    · next hid =>
      obtain ⟨top, w, htop, hbody⟩ := Prog.runs_bind_iff.mp h
      obtain ⟨rfl, hlayer⟩ := runs_topLayer htop
      split at hbody
      · obtain ⟨rfl, rfl⟩ := Prog.runs_ret_iff.mp hbody
        exact ⟨rfl, fun hvalue => by cases hvalue⟩
      · next childTopLayer =>
        have hstored := hlayer childTopLayer rfl
        split at hbody
        · next hunlinked =>
          refine hlater ?_ hbody
          have hnot : linkedTo w.store parent child = false := by
            rw [← Bool.not_eq_true, linkedTo_iff hstored]
            exact not_not_intro hunlinked
          simp [isChild, hnot]
        · next hlinked =>
          obtain ⟨config, w, hread, hloop⟩ := Prog.runs_bind_iff.mp hbody
          obtain ⟨rfl, hvalue, hmissing⟩ := runs_getImageConfig hread
          split at hloop
          · obtain ⟨rfl, rfl⟩ := Prog.runs_ret_iff.mp hloop
            exact ⟨rfl, fun hvalue => by cases hvalue⟩
          · have hnone : w.store.configs child.id = none := by
              obtain ⟨hfind, hnone | hallowed⟩ := hmissing rfl
              · exact hnone
              · exact (hopens _ _ hallowed).resolve_left hfind
            exact hlater (by simp [isChild, configsRelated, hnone]) hloop
          · next childConfig =>
            split at hloop
            · split at hloop
              · obtain ⟨rfl, rfl⟩ := Prog.runs_ret_iff.mp hloop
                exact ⟨rfl, fun hvalue => by cases hvalue⟩
              · next hmax => simp at hmax
            · next hhistory =>
              refine hlater ?_ hloop
              rw [← Bool.not_eq_true, isChild_iff hparent (hvalue childConfig rfl)]
              exact fun hchild => hhistory hchild.2.2

/-- An image that is not found to be a parent has no child in the store. -/
theorem runs_imageIsParent {image : Image}
    (hopens : ∀ s : ImageStore, ∀ id, allowed (.newImage (storeRef id)) s →
      s.find id = none ∨ s.configs id = none)
    {value : Except GoError Bool}
    (h : Prog.Runs (Logged allowed) (imageIsParent image) u value v) :
    v = u ∧ (value = .ok false → ∀ child ∈ u.store.images, isChild u.store image child = false) := by
  obtain ⟨children, w, hchildren, hbody⟩ := Prog.runs_bind_iff.mp h
  have hfound : w = u ∧ (children = .ok [] →
      ∀ child ∈ u.store.images, isChild u.store image child = false) := by
    obtain ⟨fault, -, hlisted⟩ := runs_read hchildren trivial
    split at hlisted
    · obtain ⟨rfl, rfl⟩ := Prog.runs_ret_iff.mp hlisted
      exact ⟨rfl, nofun⟩
    · next images himages =>
      obtain rfl : u.store.images = images := Except.ok.inj (ok_of_serve himages)
      obtain ⟨config, w, hconfig, hloop⟩ := Prog.runs_bind_iff.mp hlisted
      obtain ⟨rfl, hread, hmissing⟩ := runs_getImageConfig hconfig
      split at hloop
      · obtain ⟨rfl, rfl⟩ := Prog.runs_ret_iff.mp hloop
        exact ⟨rfl, nofun⟩
      · obtain ⟨rfl, rfl⟩ := Prog.runs_ret_iff.mp hloop
        refine ⟨rfl, fun _ child _ => ?_⟩
        have hnone : w.store.configs image.id = none := by
          obtain ⟨hfind, hnone | hallowed⟩ := hmissing rfl
          · exact hnone
          · exact (hopens _ _ hallowed).resolve_left hfind
        simp [isChild, configsRelated, hnone]
      · next parentConfig => exact runs_findChildren hopens (hread parentConfig rfl) hloop
  obtain ⟨rfl, hnone⟩ := hfound
  split at hbody
  · obtain ⟨rfl, rfl⟩ := Prog.runs_ret_iff.mp hbody
    exact ⟨rfl, nofun⟩
  · next found =>
    obtain ⟨rfl, rfl⟩ := Prog.runs_ret_iff.mp hbody
    refine ⟨rfl, fun hvalue => hnone ?_⟩
    have hempty : found = [] := by simpa using hvalue
    rw [hempty]

end Reading

end K8StorageX.PruneRuns
