import K8StorageX.DeprovisionerPods
import K8StorageX.PodController

/-!
# The claims of a completed Pod

Every writeable volume of the Pod is an iteration of its own: the claim is read, checked,
marked and deleted. What happens in an iteration depends on the responses it gets only.
An error is returned if a request of one of them has failed.
-/

namespace K8StorageX.CompletedPods

open ApiProgram GoErrors KubeObjects ProvisionerPods KubeApi VolumeController PodController

section Iterations

variable {registered : String → Option StorageProvisioner} {k : ObjectKey}
variable {c c' : PersistentVolumeClaim} {record rest : Record Req Resp} {failed : Bool}

/-- The claim is of a provisioner that is registered for deletion on completion. -/
def Eligible (registered : String → Option StorageProvisioner) (c : PersistentVolumeClaim) : Prop :=
  c.accessModes = [.readWriteOnce] ∧
    ∃ name p, c.annotations.entry annStorageProvisioner = some name ∧ registered name = some p ∧
      p.spec.deprovisionOnPodCompletion = true

/-- What `shouldDelete` checks: among other annotations, a missing one counts as an empty
one. -/
def Wanted (registered : String → Option StorageProvisioner) (c : PersistentVolumeClaim) : Prop :=
  c.accessModes = [.readWriteOnce] ∧ c.annotations.isNil = false ∧
    ∃ p, registered (c.annotations.get annStorageProvisioner) = some p ∧
      p.spec.deprovisionOnPodCompletion = true

/-- A claim without the annotation, taken for one of a provisioner without a name, that is
not yet marked or not yet being deleted. -/
def Nameless (registered : String → Option StorageProvisioner) (c : PersistentVolumeClaim) : Prop :=
  Wanted registered c ∧ c.annotations.entry annStorageProvisioner = none ∧
    (c.annotations.get annNoProtection = enabled → c.deleting = false)

theorem Eligible.wanted (h : Eligible registered c) : Wanted registered c := by
  obtain ⟨hmode, name, p, hname, hp, hcompletion⟩ := h
  refine ⟨hmode, Annotations.isNil_of_entry hname, p, ?_, hcompletion⟩
  rw [Annotations.get, hname]
  exact hp

/-- A claim that is deleted is eligible unless it has no annotation. -/
theorem Wanted.eligible (h : Wanted registered c)
    (hname : c.annotations.entry annStorageProvisioner ≠ none) : Eligible registered c := by
  obtain ⟨hmode, -, p, hp, hcompletion⟩ := h
  obtain ⟨name, hname⟩ := Option.ne_none_iff_exists'.mp hname
  rw [Annotations.get, hname] at hp
  exact ⟨hmode, name, p, hname, hp, hcompletion⟩

/-- The API returns the claims that are asked for and written, and the registry does not
change. -/
structure Truthful (registered : String → Option StorageProvisioner) (record : Record Req Resp) :
    Prop where
  /-- Provisioners are looked up in the registry. -/
  provisioners : ∀ name known, ⟨.getProvisioner name, known⟩ ∈ record → known = registered name
  /-- Claims are read by their names. -/
  read : ∀ key c, ⟨.getClaim key, .ok c⟩ ∈ record → c.key = key
  /-- Claims are returned as they have been written. -/
  written : ∀ c c', ⟨.updateClaim c, .ok c'⟩ ∈ record →
    c'.key = c.key ∧ c'.annotations = c.annotations

theorem Truthful.subset {first : Record Req Resp} (h : Truthful registered record)
    (hsub : ∀ x ∈ first, x ∈ record) : Truthful registered first where
  provisioners name known hmem := h.provisioners name known (hsub _ hmem)
  read key c hmem := h.read key c (hsub _ hmem)
  written c c' hmem := h.written c c' (hsub _ hmem)

/-- The claim with the annotation. -/
def withMark (c : PersistentVolumeClaim) : PersistentVolumeClaim :=
  { c with annotations := c.annotations.set annNoProtection enabled }

/-- The requests by which a claim gets the annotation, and the claim it is then. -/
inductive Marks (c : PersistentVolumeClaim) : PersistentVolumeClaim → Record Req Resp → Prop
  /-- It had the annotation. -/
  | already (annotated : c.annotations.get annNoProtection = enabled) : Marks c c []
  /-- It is updated. -/
  | now {c' : PersistentVolumeClaim} (unannotated : c.annotations.get annNoProtection ≠ enabled)
      (key : c'.key = c.key) (annotations : c'.annotations = (withMark c).annotations) :
      Marks c c' [⟨.updateClaim (withMark c), .ok c'⟩]

/-- A response that counts as a failure. -/
def failure : Except ApiError Unit → Bool
  | .ok _ => false
  | .error e => decide (e ≠ .notFound)

/-- The iterations of the loop, and whether they have failed. -/
inductive Iteration (registered : String → Option StorageProvisioner) (k : ObjectKey) :
    Record Req Resp → Bool → Prop
  /-- The claim is not read. -/
  | unread (e : ApiError) : Iteration registered k [⟨.getClaim k, .error e⟩] (decide (e ≠ .notFound))
  /-- The claim is not to be deleted. -/
  | spared {c : PersistentVolumeClaim} {lookup : Record Req Resp} (key : c.key = k)
      (unwanted : ¬ Wanted registered c)
      (looksUp : ∀ x ∈ lookup, ∃ name known, x = ⟨.getProvisioner name, known⟩) :
      Iteration registered k (⟨.getClaim k, .ok c⟩ :: lookup) false
  /-- The claim cannot be marked. -/
  | unmarked {c : PersistentVolumeClaim} {name : String} {known : Option StorageProvisioner}
      {e : ApiError} (key : c.key = k) (wanted : Wanted registered c)
      (unannotated : c.annotations.get annNoProtection ≠ enabled) :
      Iteration registered k [⟨.getClaim k, .ok c⟩, ⟨.getProvisioner name, known⟩,
        ⟨.updateClaim (withMark c), .error e⟩] (decide (e ≠ .notFound))
  /-- The claim is being deleted. -/
  | going {c c' : PersistentVolumeClaim} {name : String} {known : Option StorageProvisioner}
      {mark : Record Req Resp} (key : c.key = k) (wanted : Wanted registered c)
      (marks : Marks c c' mark) (deleting : c'.deleting = true) :
      Iteration registered k
        (⟨.getClaim k, .ok c⟩ :: ⟨.getProvisioner name, known⟩ :: mark) false
  /-- The claim is deleted. -/
  | deleted {c c' : PersistentVolumeClaim} {name : String} {known : Option StorageProvisioner}
      {mark : Record Req Resp} {response : Except ApiError Unit} (key : c.key = k)
      (wanted : Wanted registered c) (marks : Marks c c' mark) (active : c'.deleting = false) :
      Iteration registered k (⟨.getClaim k, .ok c⟩ :: ⟨.getProvisioner name, known⟩ ::
        (mark ++ [⟨.deleteClaim k, response⟩])) (failure response)

/-- The check reads the registry. -/
theorem yields_shouldDelete {should : Bool} (htruth : Truthful registered record)
    (h : (shouldDelete c).Yields record should) :
    (should = true ↔ Wanted registered c) ∧
      (should = true → ∃ name known, record = [⟨.getProvisioner name, known⟩]) ∧
      ∀ x ∈ record, ∃ name known, x = ⟨.getProvisioner name, known⟩ := by
  unfold shouldDelete at h
  split at h
  · rename_i hrefused
    obtain ⟨rfl, rfl⟩ := h
    have hunwanted : ¬ Wanted registered c := by
      rintro ⟨hmode, hannotated, -⟩
      simp [hasAccessMode, hmode, hannotated] at hrefused
    exact ⟨iff_of_false Bool.false_ne_true hunwanted, by simp, by simp⟩
  · rename_i hchecked
    have hboth : c.accessModes = [.readWriteOnce] ∧ c.annotations.isNil = false := by
      simpa [hasAccessMode] using hchecked
    rw [Prog.yields_request_bind_iff] at h
    obtain ⟨known, rest, rfl, h⟩ := h
    have hknown := htruth.provisioners _ known List.mem_cons_self
    have hrest : rest = [] ∧ (should = true ↔ Wanted registered c) := by
      unfold Wanted
      rw [← hknown]
      cases known with
      | none =>
        refine ⟨h.1, ?_⟩
        rw [h.2]
        simp
      | some p =>
        refine ⟨h.1, ?_⟩
        rw [h.2]
        simp [hboth]
    obtain ⟨rfl, hwanted⟩ := hrest
    refine ⟨hwanted, fun _ => ⟨_, known, rfl⟩, fun x hx => ?_⟩
    exact ⟨_, known, List.mem_singleton.mp hx⟩

theorem yields_deleteClaim (h : (deleteClaim c).Yields record failed) :
    c.deleting = true ∧ record = [] ∧ failed = false ∨
      c.deleting = false ∧
        ∃ response, record = [⟨.deleteClaim c.key, response⟩] ∧ failed = failure response := by
  unfold deleteClaim at h
  split at h
  · rename_i hdeleting
    exact Or.inl ⟨hdeleting, h.1, h.2⟩
  · rename_i hactive
    rw [Prog.yields_request_bind_iff] at h
    obtain ⟨response, rest, rfl, h⟩ := h
    refine Or.inr ⟨Bool.eq_false_of_not_eq_true hactive, response, ?_⟩
    cases response with
    | ok _ =>
      obtain ⟨rfl, rfl⟩ := h
      exact ⟨rfl, rfl⟩
    | error e =>
      obtain ⟨rfl, rfl⟩ := h
      exact ⟨rfl, rfl⟩

/-- A marked claim is deleted unless that has been done. -/
theorem iteration_of_marks {mark : Record Req Resp} {name : String}
    {known : Option StorageProvisioner} (hkey : c.key = k) (hwanted : Wanted registered c)
    (hmarks : Marks c c' mark) (hkey' : c'.key = c.key)
    (h : (deleteClaim c').Yields rest failed) :
    Iteration registered k
      (⟨.getClaim k, .ok c⟩ :: ⟨.getProvisioner name, known⟩ :: (mark ++ rest)) failed := by
  rcases yields_deleteClaim h with ⟨hdeleting, rfl, rfl⟩ | ⟨hactive, response, rfl, rfl⟩
  · rw [List.append_nil]
    exact .going hkey hwanted hmarks hdeleting
  · rw [hkey', hkey]
    exact .deleted hkey hwanted hmarks hactive

theorem yields_reconcileClaim (htruth : Truthful registered record)
    (h : (reconcileClaim k).Yields record failed) : Iteration registered k record failed := by
  unfold reconcileClaim at h
  rw [Prog.yields_request_bind_iff] at h
  obtain ⟨read, rest, rfl, h⟩ := h
  cases read with
  | error e =>
    obtain ⟨rfl, rfl⟩ := h
    exact .unread e
  | ok c =>
    have hkey := htruth.read k c List.mem_cons_self
    obtain ⟨should, lookup, last, rfl, hshould, hlast⟩ := Prog.yields_bind_iff.mp h
    have hlookup : Truthful registered lookup :=
      htruth.subset fun x hx => List.mem_cons_of_mem _ (List.mem_append_left last hx)
    obtain ⟨hwanted, hsingle, hreads⟩ := yields_shouldDelete hlookup hshould
    cases should with
    | false =>
      obtain ⟨rfl, rfl⟩ := hlast
      rw [List.append_nil]
      exact .spared hkey (fun hw => Bool.false_ne_true (hwanted.mpr hw)) hreads
    | true =>
      obtain ⟨name, known, rfl⟩ := hsingle rfl
      have hw := hwanted.mp rfl
      change (unprotectAndDelete c).Yields last failed at hlast
      unfold unprotectAndDelete at hlast
      split at hlast
      · rename_i hannotated
        exact iteration_of_marks hkey hw (.already hannotated) rfl hlast
      · rename_i hunannotated
        rw [Prog.yields_request_bind_iff] at hlast
        obtain ⟨updated, rest, rfl, hdelete⟩ := hlast
        cases updated with
        | error e =>
          obtain ⟨rfl, rfl⟩ := hdelete
          exact .unmarked hkey hw hunannotated
        | ok c' =>
          obtain ⟨hkey', hannotations⟩ := htruth.written (withMark c) c'
            (List.mem_cons_of_mem _ (List.mem_cons_of_mem _ List.mem_cons_self))
          have hiteration : Iteration registered k (⟨.getClaim k, .ok c⟩ ::
              ⟨.getProvisioner name, known⟩ :: ([⟨.updateClaim (withMark c), .ok c'⟩] ++ rest))
                failed :=
            iteration_of_marks hkey hw (.now hunannotated hkey' hannotations) hkey' hdelete
          exact hiteration

end Iterations

section Handling

variable {registered : String → Option StorageProvisioner} {k key : ObjectKey} {pod : Pod}
variable {c : PersistentVolumeClaim} {record : Record Req Resp} {failed : Bool}
variable {err : Option GoError}

/-- A request has been made. -/
def Requested (record : Record Req Resp) (r : Req) : Prop := ∃ response, ⟨r, response⟩ ∈ record

/-- The claim after it has been given the annotation, if it needed it. -/
def Marked (record : Record Req Resp) (c c' : PersistentVolumeClaim) : Prop :=
  c.annotations.get annNoProtection = enabled ∧ c' = c ∨
    c.annotations.get annNoProtection ≠ enabled ∧
      ⟨.updateClaim (withMark c), .ok c'⟩ ∈ record

/-- The claim has been read, is eligible, is marked, and is not being deleted. -/
def ToDelete (registered : String → Option StorageProvisioner) (k : ObjectKey)
    (record : Record Req Resp) : Prop :=
  ∃ c c', ⟨.getClaim k, .ok c⟩ ∈ record ∧ Eligible registered c ∧ Marked record c c' ∧
    c'.deleting = false ∧ c'.annotations.get annNoProtection = enabled

/-- Requests that only read. -/
def reads : Req → Bool
  | .getClaim _ => true
  | .getProvisioner _ => true
  | _ => false

/-- A request for a claim has failed other than with `NotFound`. -/
def Failed : (Σ r, Resp r) → Prop
  | ⟨.getClaim _, response⟩ => ∃ e, response = .error e ∧ e ≠ .notFound
  | ⟨.updateClaim _, response⟩ => ∃ e, response = .error e ∧ e ≠ .notFound
  | ⟨.deleteClaim _, response⟩ => ∃ e, response = .error e ∧ e ≠ .notFound
  | _ => False

/-- A claim is handled as it should be in one iteration. -/
structure Handled (registered : String → Option StorageProvisioner) (k : ObjectKey)
    (record : Record Req Resp) : Prop where
  /-- It is handled as if it were alone. -/
  alone : ∃ failed, (reconcileClaim k).Yields record failed
  /-- It is deleted exactly if it is to be deleted, and no other claim is. -/
  deleted : ∀ key, Requested record (.deleteClaim key) ↔ key = k ∧ ToDelete registered k record
  /-- It is only read if it is not eligible. -/
  spared : (∀ c, ⟨.getClaim k, .ok c⟩ ∈ record → ¬ Eligible registered c) →
    ∀ x ∈ record, reads x.1 = true

/-- A claim that is marked has been updated or had the annotation. -/
theorem Marks.marked {c' : PersistentVolumeClaim} {mark : Record Req Resp} (h : Marks c c' mark)
    (hsub : ∀ x ∈ mark, x ∈ record) :
    Marked record c c' ∧ c'.annotations.get annNoProtection = enabled := by
  cases h with
  | already hannotated => exact ⟨Or.inl ⟨hannotated, rfl⟩, hannotated⟩
  | now hunannotated _ hannotations =>
    refine ⟨Or.inr ⟨hunannotated, hsub _ List.mem_cons_self⟩, ?_⟩
    rw [hannotations]
    exact Annotations.get_set_self _ _ _

/-- Only the claim itself is updated, and it is neither read nor deleted meanwhile. -/
theorem Marks.eq_update {c' : PersistentVolumeClaim} {mark : Record Req Resp} (h : Marks c c' mark)
    {x : Σ r, Resp r} (hx : x ∈ mark) : x = ⟨.updateClaim (withMark c), .ok c'⟩ := by
  cases h with
  | already _ => cases hx
  | now _ _ _ => exact List.mem_singleton.mp hx

/-- The first request of an iteration is the only one that reads a claim. -/
theorem Iteration.read (h : Iteration registered k record failed)
    (hread : ⟨.getClaim key, .ok c⟩ ∈ record) :
    key = k ∧ ∃ rest, record = ⟨.getClaim k, .ok c⟩ :: rest := by
  cases h with
  | unread e => simp at hread
  | @spared c₀ lookup _ _ hlookup =>
    rcases List.mem_cons.mp hread with heq | hmem
    · cases heq
      exact ⟨rfl, lookup, rfl⟩
    · obtain ⟨name, known, heq⟩ := hlookup _ hmem
      cases heq
  | unmarked _ _ _ =>
    simp at hread
    obtain ⟨rfl, rfl⟩ := hread
    exact ⟨rfl, _, rfl⟩
  | @going c₀ c' name known mark _ _ hmarks _ =>
    rcases List.mem_cons.mp hread with heq | hmem
    · cases heq
      exact ⟨rfl, _, rfl⟩
    · rcases List.mem_cons.mp hmem with heq | hmem
      · cases heq
      · cases hmarks.eq_update hmem
  | @deleted c₀ c' name known mark response _ _ hmarks _ =>
    rcases List.mem_cons.mp hread with heq | hmem
    · cases heq
      exact ⟨rfl, _, rfl⟩
    · rcases List.mem_cons.mp hmem with heq | hmem
      · cases heq
      · rcases List.mem_append.mp hmem with hmem | hmem
        · cases hmarks.eq_update hmem
        · cases List.mem_singleton.mp hmem

/-- The error of an iteration. -/
theorem Iteration.failed_iff (h : Iteration registered k record failed) :
    failed = true ↔ ∃ x ∈ record, Failed x := by
  cases h with
  | unread e => simp [Failed]
  | spared _ _ hlookup =>
    refine iff_of_false Bool.false_ne_true ?_
    rintro ⟨x, hx, hfailed⟩
    rcases List.mem_cons.mp hx with rfl | hmem
    · obtain ⟨e, heq, -⟩ := hfailed
      cases heq
    · obtain ⟨name, known, rfl⟩ := hlookup x hmem
      exact hfailed
  | unmarked _ _ _ => simp [Failed]
  | going _ _ hmarks _ =>
    refine iff_of_false Bool.false_ne_true ?_
    rintro ⟨x, hx, hfailed⟩
    simp only [List.mem_cons] at hx
    rcases hx with rfl | rfl | hmark
    · simp [Failed] at hfailed
    · exact hfailed
    · rw [hmarks.eq_update hmark] at hfailed
      simp [Failed] at hfailed
  | @deleted c₀ c' name known mark response _ _ hmarks _ =>
    -- only the last request can have failed
    have hlast : failure response = true ↔ Failed ⟨.deleteClaim k, response⟩ := by
      cases response with
      | ok _ => simp [Failed, failure]
      | error e => simp [Failed, failure]
    rw [hlast]
    constructor
    · intro hfailed
      exact ⟨_, by simp, hfailed⟩
    · rintro ⟨x, hx, hfailed⟩
      simp only [List.mem_cons, List.mem_append, List.not_mem_nil, or_false] at hx
      rcases hx with rfl | rfl | hmark | rfl
      · simp [Failed] at hfailed
      · exact hfailed.elim
      · rw [hmarks.eq_update hmark] at hfailed
        simp [Failed] at hfailed
      · exact hfailed

/-- What is wanted is eligible, unless the claim has no annotation and nothing is done. -/
theorem eligible_or_done (hwanted : Wanted registered c) (hname : ¬ Nameless registered c) :
    Eligible registered c ∨
      c.annotations.get annNoProtection = enabled ∧ c.deleting = true := by
  by_cases hnone : c.annotations.entry annStorageProvisioner = none
  · right
    by_contra hdone
    refine hname ⟨hwanted, hnone, fun hannotated => ?_⟩
    exact Bool.eq_false_of_not_eq_true fun hdeleting => hdone ⟨hannotated, hdeleting⟩
  · exact Or.inl (hwanted.eligible hnone)

/-- A deletion is requested in an iteration exactly if the claim is to be deleted. -/
theorem Iteration.deleted_iff (h : Iteration registered k record failed)
    (hnames : ∀ c, ⟨.getClaim k, .ok c⟩ ∈ record → ¬ Nameless registered c) (key : ObjectKey) :
    Requested record (.deleteClaim key) ↔ key = k ∧ ToDelete registered k record := by
  constructor
  · rintro ⟨response, hmem⟩
    cases h with
    | unread e => simp at hmem
    | spared _ _ hlookup =>
      rcases List.mem_cons.mp hmem with heq | hmem
      · cases heq
      · obtain ⟨name, known, heq⟩ := hlookup _ hmem
        cases heq
    | unmarked _ _ _ => simp at hmem
    | going _ _ hmarks _ =>
      simp only [List.mem_cons] at hmem
      rcases hmem with heq | heq | hmark
      · cases heq
      · cases heq
      · cases hmarks.eq_update hmark
    | @deleted c c' name known mark response' _ hwanted hmarks hactive =>
      have hkey : key = k := by
        simp only [List.mem_cons, List.mem_append, List.not_mem_nil, or_false] at hmem
        rcases hmem with heq | heq | hmark | heq
        · cases heq
        · cases heq
        · cases hmarks.eq_update hmark
        · cases heq
          rfl
      have hmarked : Marked (⟨.getClaim k, .ok c⟩ :: ⟨.getProvisioner name, known⟩ ::
          (mark ++ [⟨.deleteClaim k, response'⟩])) c c' ∧
            c'.annotations.get annNoProtection = enabled :=
        hmarks.marked fun x hx => by simp [hx]
      refine ⟨hkey, c, c', List.mem_cons_self, ?_, hmarked.1, hactive, hmarked.2⟩
      rcases eligible_or_done hwanted (hnames c List.mem_cons_self) with heligible | hdone
      · exact heligible
      · cases hmarks with
        | already _ => exact absurd hdone.2 (Bool.eq_false_iff.mp hactive)
        | now hunannotated _ _ => exact absurd hdone.1 hunannotated
  · rintro ⟨rfl, c, c', hread, heligible, hmarked, hactive, -⟩
    obtain ⟨-, rest, hrecord⟩ := h.read hread
    cases h with
    | unread e => cases hrecord
    | spared _ hunwanted _ =>
      cases hrecord
      exact absurd heligible.wanted hunwanted
    | unmarked _ _ hunannotated =>
      cases hrecord
      rcases hmarked with ⟨hannotated, -⟩ | ⟨-, hupdate⟩
      · exact absurd hannotated hunannotated
      · simp at hupdate
    | going _ _ hmarks hdeleting =>
      cases hrecord
      cases hmarks with
      | already hannotated =>
        rcases hmarked with ⟨-, rfl⟩ | ⟨hunannotated, -⟩
        · exact absurd hdeleting (Bool.eq_false_iff.mp hactive)
        · exact absurd hannotated hunannotated
      | now hunannotated _ _ =>
        rcases hmarked with ⟨hannotated, -⟩ | ⟨-, hupdate⟩
        · exact absurd hannotated hunannotated
        · simp at hupdate
          rw [← hupdate] at hdeleting
          exact absurd hdeleting (Bool.eq_false_iff.mp hactive)
    | @deleted c₀ c₁ name known mark response _ _ _ _ => exact ⟨response, by simp⟩

/-- Unless a claim without the annotation is taken for another one, an iteration handles its
claim as it should. -/
theorem Iteration.handled (h : Iteration registered k record failed)
    (halone : (reconcileClaim k).Yields record failed)
    (hnames : ∀ c, ⟨.getClaim k, .ok c⟩ ∈ record → ¬ Nameless registered c) :
    Handled registered k record := by
  refine ⟨⟨failed, halone⟩, h.deleted_iff hnames, fun hineligible => ?_⟩
  · cases h with
    | unread e => simp [reads]
    | spared _ _ hlookup =>
      intro x hx
      rcases List.mem_cons.mp hx with rfl | hmem
      · rfl
      · obtain ⟨name, known, rfl⟩ := hlookup x hmem
        rfl
    | @unmarked c name known e _ hwanted hunannotated =>
      rcases eligible_or_done hwanted (hnames c List.mem_cons_self) with heligible | hdone
      · exact absurd heligible (hineligible c List.mem_cons_self)
      · exact absurd hdone.1 hunannotated
    | @going c c' name known mark _ hwanted hmarks _ =>
      rcases eligible_or_done hwanted (hnames c List.mem_cons_self) with heligible | hdone
      · exact absurd heligible (hineligible c List.mem_cons_self)
      · cases hmarks with
        | already _ => simp [reads]
        | now hunannotated _ _ => exact absurd hdone.1 hunannotated
    | @deleted c c' name known mark response _ hwanted hmarks hactive =>
      rcases eligible_or_done hwanted (hnames c List.mem_cons_self) with heligible | hdone
      · exact absurd heligible (hineligible c List.mem_cons_self)
      · cases hmarks with
        | already _ => exact absurd hdone.2 (Bool.eq_false_iff.mp hactive)
        | now hunannotated _ _ => exact absurd hdone.1 hunannotated

/-- A claim without the annotation that is taken for another one is not handled as it should
be. -/
theorem Iteration.not_handled (h : Iteration registered k record failed)
    (hread : ⟨.getClaim key, .ok c⟩ ∈ record) (hnameless : Nameless registered c) :
    ¬ Handled registered k record := by
  intro hhandled
  obtain ⟨-, rest, hrecord⟩ := h.read hread
  obtain ⟨hwanted, hnone, hactive⟩ := hnameless
  have hineligible : ¬ Eligible registered c := by
    rintro ⟨-, name, p, hname, -⟩
    rw [hnone] at hname
    cases hname
  have hreads := hhandled.spared fun c' hc' => by
    obtain ⟨-, rest', hrecord'⟩ := h.read hc'
    rw [hrecord] at hrecord'
    cases hrecord'
    exact hineligible
  cases h with
  | unread e => cases hrecord
  | spared _ hunwanted _ =>
    cases hrecord
    exact hunwanted hwanted
  | unmarked _ _ _ => simp [reads] at hreads
  | going _ _ hmarks hdeleting =>
    cases hrecord
    cases hmarks with
    | already hannotated => exact absurd hdeleting (Bool.eq_false_iff.mp (hactive hannotated))
    | now _ _ _ => simp [reads] at hreads
  | @deleted c₀ c₁ name known mark response _ _ _ _ =>
    have hdelete := hreads ⟨.deleteClaim k, response⟩ (by simp)
    cases hdelete

/-- The claims of the Pod are handled exactly and independently of each other. -/
def HandledExactly (registered : String → Option StorageProvisioner) (pod : Pod)
    (record : Record Req Resp) (err : Option GoError) : Prop :=
  ∃ iterations : List (ObjectKey × Record Req Resp),
    iterations.map Prod.fst = writeablePVCs pod ∧
    (iterations.map Prod.snd).flatten = record ∧
    (∀ it ∈ iterations, Handled registered it.1 it.2) ∧
    (∀ key, Requested record (.deleteClaim key) ↔
      ∃ it ∈ iterations, it.1 = key ∧ ToDelete registered key it.2) ∧
    (err ≠ none ↔ ∃ x ∈ record, Failed x)

/-- The loop consists of its iterations. -/
theorem yields_reconcileClaims {names : List ObjectKey} {err₀ : Option GoError}
    (htruth : Truthful registered record)
    (h : (reconcileClaims names err₀).Yields record err) :
    ∃ iterations : List (ObjectKey × Record Req Resp),
      iterations.map Prod.fst = names ∧ (iterations.map Prod.snd).flatten = record ∧
      (∀ it ∈ iterations, ∃ failed, Iteration registered it.1 it.2 failed ∧
        (reconcileClaim it.1).Yields it.2 failed) ∧
      (err ≠ none ↔ err₀ ≠ none ∨ ∃ x ∈ record, Failed x) := by
  induction names generalizing record err₀ with
  | nil =>
    obtain ⟨rfl, rfl⟩ := h
    exact ⟨[], rfl, rfl, by simp, by simp⟩
  | cons name names ih =>
    unfold reconcileClaims at h
    obtain ⟨failed, first, last, rfl, hfirst, hlast⟩ := Prog.yields_bind_iff.mp h
    have hiteration : Iteration registered name first failed :=
      yields_reconcileClaim (htruth.subset fun x hx => List.mem_append_left last hx) hfirst
    obtain ⟨iterations, hnames, hrecord, hall, herr⟩ :=
      ih (htruth.subset fun x hx => List.mem_append_right first hx) hlast
    refine ⟨(name, first) :: iterations, by simp [hnames], by simp [hrecord], ?_, ?_⟩
    · rintro it hit
      rcases List.mem_cons.mp hit with rfl | hmem
      · exact ⟨failed, hiteration, hfirst⟩
      · exact hall it hmem
    · rw [herr]
      have hfailed := hiteration.failed_iff
      simp only [List.mem_append, or_and_right, exists_or]
      cases failed with
      | true => simp [hfailed.mp rfl]
      | false =>
        have hnone : ¬ ∃ x ∈ first, Failed x := fun hsome => Bool.false_ne_true (hfailed.mpr hsome)
        simp [hnone]

/-- Whatever the API answers, the claims of a Pod are handled exactly and independently of
each other if and only if no claim without the annotation is taken for one of a provisioner
without a name. -/
theorem handled_exactly_iff
    (htruth : Truthful registered record)
    (h : (PodController.reconcile key).Yields (⟨.getPod key, .ok pod⟩ :: record) err) :
    HandledExactly registered pod record err ↔
      ∀ k c, ⟨.getClaim k, .ok c⟩ ∈ record → ¬ Nameless registered c := by
  have hloop : (reconcileClaims (writeablePVCs pod) none).Yields record err := by
    unfold PodController.reconcile at h
    rw [Prog.yields_request_bind_iff] at h
    obtain ⟨read, rest, heq, hrest⟩ := h
    cases heq
    exact hrest
  obtain ⟨iterations, hnames, hrecord, hall, herr⟩ := yields_reconcileClaims htruth hloop
  constructor
  · rintro ⟨its, -, hflat, hhandled, -⟩ k c hread hnameless
    rw [← hflat, List.mem_flatten] at hread
    obtain ⟨part, hpart, hread⟩ := hread
    obtain ⟨it, hit, rfl⟩ := List.mem_map.mp hpart
    obtain ⟨failed, halone⟩ := (hhandled it hit).alone
    have hsub : Truthful registered it.2 := htruth.subset fun x hx => by
      rw [← hflat, List.mem_flatten]
      exact ⟨it.2, hpart, hx⟩
    exact (yields_reconcileClaim hsub halone).not_handled hread hnameless (hhandled it hit)
  · intro hnames'
    have hmem {it : ObjectKey × Record Req Resp} (hit : it ∈ iterations) {x : Σ r, Resp r}
        (hx : x ∈ it.2) : x ∈ record := by
      rw [← hrecord, List.mem_flatten]
      exact ⟨it.2, List.mem_map_of_mem hit, hx⟩
    have hhandled : ∀ it ∈ iterations, Handled registered it.1 it.2 := by
      intro it hit
      obtain ⟨failed, hiteration, halone⟩ := hall it hit
      exact hiteration.handled halone fun c hc => hnames' it.1 c (hmem hit hc)
    refine ⟨iterations, hnames, hrecord, hhandled, fun key => ?_, by simpa using herr⟩
    constructor
    · rintro ⟨response, hdelete⟩
      rw [← hrecord, List.mem_flatten] at hdelete
      obtain ⟨part, hpart, hdelete⟩ := hdelete
      obtain ⟨it, hit, rfl⟩ := List.mem_map.mp hpart
      obtain ⟨rfl, htoDelete⟩ := ((hhandled it hit).deleted key).mp ⟨response, hdelete⟩
      exact ⟨it, hit, rfl, htoDelete⟩
    · rintro ⟨it, hit, rfl, htoDelete⟩
      obtain ⟨response, hdelete⟩ := ((hhandled it hit).deleted it.1).mpr ⟨rfl, htoDelete⟩
      exact ⟨response, hmem hit hdelete⟩

/-- A Pod with one writeable claim. -/
def cachePod : Pod where
  key := ⟨"default", "job"⟩
  annotations := .empty
  deleting := false
  spec := ⟨[], [⟨some "data", false⟩], .never⟩
  phase := .succeeded

/-- The registry with one provisioner for deletion on completion. -/
def registryOf (p : StorageProvisioner) : ProvisionerRegistry.Registry :=
  (ProvisionerRegistry.put (DeprovisionerPods.cacheConfig ⟨none, []⟩)
    ProvisionerRegistry.newProvisioners p).2

/-- The answers for a claim, with everything else done. -/
def completedAnswer (r : ProvisionerRegistry.Registry) (claim : PersistentVolumeClaim) :
    (q : Req) → Resp q
  | .getClaim key => .ok { claim with key := key }
  | .updateClaim c => .ok c
  | .updateClaimStatus _ => .ok ()
  | .deleteClaim _ => .ok ()
  | .getVolume _ => .error .notFound
  | .createVolume _ => .ok ()
  | .updateVolume _ => .ok ()
  | .updateVolumeStatus _ => .ok ()
  | .deleteVolume _ => .ok ()
  | .getPod _ => .ok cachePod
  | .createPod _ => .ok ()
  | .deletePod _ => .ok ()
  | .getStorageClass _ => .error .notFound
  | .getProvisioner name => ProvisionerRegistry.get r name

/-- The claims of the Pod are handled with these answers. -/
def completedRun (r : ProvisionerRegistry.Registry) (claim : PersistentVolumeClaim) :
    Record Req Resp × Option GoError :=
  (reconcileClaims (writeablePVCs cachePod) none).respond (completedAnswer r claim)

theorem yields_completedRun (r : ProvisionerRegistry.Registry) (claim : PersistentVolumeClaim) :
    (PodController.reconcile cachePod.key).Yields
      (⟨.getPod cachePod.key, .ok cachePod⟩ :: (completedRun r claim).1) (completedRun r claim).2 :=
  Prog.yields_respond (completedAnswer r claim) (PodController.reconcile cachePod.key)

/-- The cache provisioner under a name. -/
def namedCache (name : String) : StorageProvisioner :=
  let p := DeprovisionerPods.cacheProvisioner "setup" ⟨none, []⟩
  { p with spec := { p.spec with name := name } }

theorem truthful_completedRun (r : ProvisionerRegistry.Registry) (claim : PersistentVolumeClaim) :
    Truthful (ProvisionerRegistry.get r) (completedRun r claim).1 where
  provisioners name known hmem := Prog.mem_respond hmem
  read key c hmem := by
    have hc : c = { claim with key := key } := Except.ok.inj (Prog.mem_respond hmem)
    rw [hc]
  written c c' hmem := by
    have hc : c' = c := Except.ok.inj (Prog.mem_respond hmem)
    rw [hc]
    exact ⟨rfl, rfl⟩

theorem handled_exactly_iff_cache :
    HandledExactly (ProvisionerRegistry.get (registryOf (namedCache "cache"))) cachePod
      (completedRun (registryOf (namedCache "cache")) DeprovisionerPods.cacheClaim).1
      (completedRun (registryOf (namedCache "cache")) DeprovisionerPods.cacheClaim).2 := by
  refine (handled_exactly_iff (truthful_completedRun _ _) (yields_completedRun _ _)).mpr ?_
  rintro k c hread ⟨-, hnone, -⟩
  have hc : c = { DeprovisionerPods.cacheClaim with key := k } :=
    Except.ok.inj (Prog.mem_respond hread)
  have hannotated : DeprovisionerPods.cacheClaim.annotations.entry annStorageProvisioner = some "cache" := by
    decide +kernel
  rw [hc, hannotated] at hnone
  cases hnone

/-- A claim that is not of any provisioner. -/
def plainClaim : PersistentVolumeClaim :=
  { DeprovisionerPods.cacheClaim with annotations := Annotations.empty.set annSelectedNode "node1" }

/-- The claim a request deletes. -/
def deletedClaim : Req → Option ObjectKey
  | .deleteClaim key => some key
  | _ => none

/-- With a provisioner without a name, a claim that is not of any provisioner is deleted. -/
theorem plain_claim_deleted :
    ProvisionerRegistry.get (registryOf (namedCache "")) "" = some (namedCache "") ∧
      Truthful (ProvisionerRegistry.get (registryOf (namedCache "")))
        (completedRun (registryOf (namedCache "")) plainClaim).1 ∧
      (PodController.reconcile cachePod.key).Yields
        (⟨.getPod cachePod.key, .ok cachePod⟩ ::
          (completedRun (registryOf (namedCache "")) plainClaim).1)
        (completedRun (registryOf (namedCache "")) plainClaim).2 ∧
      (∀ k c, ⟨.getClaim k, .ok c⟩ ∈ (completedRun (registryOf (namedCache "")) plainClaim).1 →
        ¬ Eligible (ProvisionerRegistry.get (registryOf (namedCache ""))) c) ∧
      Requested (completedRun (registryOf (namedCache "")) plainClaim).1
        (.deleteClaim ⟨"default", "data"⟩) := by
  refine ⟨by decide +kernel, truthful_completedRun _ _, yields_completedRun _ _, ?_, ?_⟩
  · rintro k c hread ⟨-, name, p, hname, -⟩
    have hc : c = { plainClaim with key := k } := Except.ok.inj (Prog.mem_respond hread)
    have hnone : plainClaim.annotations.entry annStorageProvisioner = none := by decide +kernel
    rw [hc, hnone] at hname
    cases hname
  · have hdeleted : ((completedRun (registryOf (namedCache "")) plainClaim).1.findSome? fun x =>
        deletedClaim x.1) = some ⟨"default", "data"⟩ := by decide +kernel
    obtain ⟨⟨r, response⟩, hmem, hr⟩ := List.exists_of_findSome?_eq_some hdeleted
    cases r <;> cases hr
    exact ⟨response, hmem⟩

end Handling

end K8StorageX.CompletedPods
