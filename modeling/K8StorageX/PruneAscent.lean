import K8StorageX.PruneRuns

/-!
# The ascent through the parents ends

`removeImage` follows `getParent` without a bound and without remembering where it has
been. Every step goes to an image whose history is one entry shorter, whatever the layers
say and whatever calls fail.
-/

namespace K8StorageX.PruneAscent

open ApiProgram GoErrors ImagePruning PruneRuns

/-- `ascend` with the parents it has visited. -/
def ascendVisiting (imageID : String) :
    ℕ → Option Image → Pruner (List Image × Option (Except GoError String))
  | _, none => return ([], some (.ok imageID))
  | 0, some _ => return ([], none)
  | rounds + 1, some parent => do
    let round ← ascendRound imageID parent
    match round with
    | .left result => return ([parent], some result)
    | .goesOn nextParent =>
      let rest ← ascendVisiting imageID rounds nextParent
      return (parent :: rest.1, rest.2)

/-- `removeImage` with the parents it has visited. -/
def removeImageVisiting (rounds : ℕ) (fetched image : Image) :
    Pruner (List Image × Option (Except GoError String)) := do
  let removed ← removeChild fetched image
  match removed with
  | .error e => return ([], some (.error e))
  | .ok parent => ascendVisiting image.id rounds parent

/-- Recording the visited parents does not change the ascent. -/
theorem ascend_eq (imageID : String) (rounds : ℕ) (parent : Option Image) :
    ascend imageID rounds parent =
      ascendVisiting imageID rounds parent >>= fun result => pure result.2 := by
  induction rounds generalizing parent with
  | zero => cases parent <;> rfl
  | succ rounds ih =>
    cases parent with
    | none => rfl
    | some parent =>
      rw [ascend, ascendVisiting, Prog.bind_assoc]
      congr 1
      funext round
      cases round with
      | left result => rfl
      | goesOn nextParent =>
        dsimp only
        rw [ih, Prog.bind_assoc]
        rfl

/-- Recording the visited parents does not change the removal. -/
theorem removeImage_eq (rounds : ℕ) (fetched image : Image) :
    removeImage rounds fetched image =
      removeImageVisiting rounds fetched image >>= fun result => pure result.2 := by
  rw [removeImage, removeImageVisiting, Prog.bind_assoc]
  congr 1
  funext removed
  cases removed with
  | error e => rfl
  | ok parent => exact ascend_eq image.id rounds parent

variable {allowed : Req → ImageStore → Prop} {u v : Pruning}

/-- No call changes a configuration. -/
theorem configs_of_logged {r : Req} {response : Resp r} (h : Logged allowed r u response v) :
    v.store.configs = u.store.configs := by
  obtain ⟨⟨fault, -, hserve⟩, -⟩ := h
  have hstore : v.store = (u.store.serve fault r).2 := by rw [hserve]
  rw [hstore]
  cases fault with
  | some text => rfl
  | none =>
    cases r with
    | setNames id names =>
      simp only [ImageStore.serve, ImageStore.answer]
      split <;> rfl
    | deleteImage id fetched =>
      simp only [ImageStore.serve, ImageStore.answer]
      split
      · rfl
      · split <;> rfl
    | _ => rfl

/-- No run changes a configuration. -/
theorem configs_of_runs {α : Type} {p : Pruner α} {value : α}
    (h : Prog.Runs (Logged allowed) p u value v) : v.store.configs = u.store.configs := by
  induction h with
  | ret value u => rfl
  | call hcall _ ih => rw [ih, configs_of_logged hcall]

/-- A round goes on with a parent whose history is one entry shorter. -/
theorem runs_ascendRound {imageID : String} {parent : Image} {round : Ascent}
    (h : Prog.Runs (Logged allowed) (ascendRound imageID parent) u round v) :
    v.store.configs = u.store.configs ∧ ∀ q, round = .goesOn (some q) →
      historyLength u.store q + 1 = historyLength u.store parent := by
  refine ⟨configs_of_runs h, ?_⟩
  rw [ascendRound] at h
  obtain ⟨next, u₁, hnext, hbody⟩ := Prog.runs_bind_iff.mp h
  obtain ⟨rfl, hfound⟩ := runs_getParent hnext
  rintro q rfl
  split at hbody
  · cases (Prog.runs_ret_iff.mp hbody).1
  · obtain ⟨isParent, u₂, -, hguarded⟩ := Prog.runs_bind_iff.mp hbody
    split at hguarded
    · cases (Prog.runs_ret_iff.mp hguarded).1
    · split at hguarded
      · cases (Prog.runs_ret_iff.mp hguarded).1
      · rw [Prog.request_bind, Prog.runs_call_iff] at hguarded
        obtain ⟨removed, u₃, -, hlast⟩ := hguarded
        cases (Prog.runs_ret_iff.mp hlast).1
        exact historyLength_of_isParent (hfound q rfl).2

/-- The parents that are visited have histories that get shorter by one entry, and the
ascent has ended before the histories are used up. -/
theorem runs_ascendVisiting {imageID : String} {rounds : ℕ} {s : ImageStore} {child : Image}
    {parent : Option Image} {visited : List Image} {value : Option (Except GoError String)}
    (hconfigs : u.store.configs = s.configs)
    (hparent : ∀ p, parent = some p → historyLength s p + 1 = historyLength s child)
    (h : Prog.Runs (Logged allowed) (ascendVisiting imageID rounds parent) u (visited, value) v) :
    (child :: visited).IsChain (fun a b => historyLength s b + 1 = historyLength s a) ∧
      (value = none → rounds < historyLength s child) := by
  induction rounds generalizing u child parent visited value with
  | zero =>
    cases parent with
    | none =>
      cases (Prog.runs_ret_iff.mp h).1
      exact ⟨.singleton child, nofun⟩
    | some p =>
      cases (Prog.runs_ret_iff.mp h).1
      have hlength := hparent p rfl
      exact ⟨.singleton child, fun _ => by omega⟩
  | succ rounds ih =>
    cases parent with
    | none =>
      cases (Prog.runs_ret_iff.mp h).1
      exact ⟨.singleton child, nofun⟩
    | some p =>
      have hlength := hparent p rfl
      rw [ascendVisiting] at h
      obtain ⟨round, u₁, hround, hrest⟩ := Prog.runs_bind_iff.mp h
      obtain ⟨hkept, hnext⟩ := runs_ascendRound hround
      cases round with
      | left result =>
        cases (Prog.runs_ret_iff.mp hrest).1
        exact ⟨.cons_cons hlength (.singleton p), nofun⟩
      | goesOn nextParent =>
        obtain ⟨result, u₂, hascent, hlast⟩ := Prog.runs_bind_iff.mp hrest
        obtain ⟨hresult, rfl⟩ := Prog.runs_ret_iff.mp hlast
        cases hresult
        have hshorter : ∀ q, nextParent = some q →
            historyLength s q + 1 = historyLength s p := by
          rintro q rfl
          have hq := hnext q rfl
          rwa [historyLength_congr hconfigs, historyLength_congr hconfigs] at hq
        obtain ⟨hchain, hrounds⟩ := ih (hkept.trans hconfigs) hshorter hascent
        refine ⟨.cons_cons hlength hchain, fun hnone => ?_⟩
        have hleft := hrounds hnone
        omega

/-- The ascent begins with a parent whose history is one entry shorter. -/
theorem runs_removeChild {fetched image : Image} {value : Except GoError (Option Image)}
    (h : Prog.Runs (Logged allowed) (removeChild fetched image) u value v) :
    v.store.configs = u.store.configs ∧ ∀ p, value = .ok (some p) →
      historyLength u.store p + 1 = historyLength u.store image := by
  refine ⟨configs_of_runs h, ?_⟩
  rw [removeChild] at h
  obtain ⟨found, u₁, hfound, hbody⟩ := Prog.runs_bind_iff.mp h
  obtain ⟨rfl, hparent⟩ := runs_getParent hfound
  rintro p rfl
  split at hbody
  · cases (Prog.runs_ret_iff.mp hbody).1
  · rw [Prog.request_bind, Prog.runs_call_iff] at hbody
    obtain ⟨removed, u₂, -, hrest⟩ := hbody
    split at hrest
    · cases (Prog.runs_ret_iff.mp hrest).1
    · cases (Prog.runs_ret_iff.mp hrest).1
      exact historyLength_of_isParent (hparent p rfl).2

/-- The same from the removed image on. -/
theorem runs_removeImageVisiting {rounds : ℕ} {fetched image : Image} {visited : List Image}
    {value : Option (Except GoError String)}
    (h : Prog.Runs (Logged allowed) (removeImageVisiting rounds fetched image) u (visited, value) v) :
    (image :: visited).IsChain
        (fun a b => historyLength u.store b + 1 = historyLength u.store a) ∧
      (value = none → rounds < historyLength u.store image) := by
  rw [removeImageVisiting] at h
  obtain ⟨removed, u₁, hremoved, hrest⟩ := Prog.runs_bind_iff.mp h
  obtain ⟨hkept, hnext⟩ := runs_removeChild hremoved
  cases removed with
  | error e =>
    cases (Prog.runs_ret_iff.mp hrest).1
    exact ⟨.singleton image, nofun⟩
  | ok parent =>
    refine runs_ascendVisiting hkept ?_ hrest
    rintro p rfl
    exact hnext p rfl

/-- A chain of images whose histories get shorter is no longer than the first history. -/
theorem length_le_of_shortening {s : ImageStore} {image : Image} {visited : List Image}
    (h : (image :: visited).IsChain fun a b => historyLength s b + 1 = historyLength s a) :
    visited.length ≤ historyLength s image := by
  induction visited generalizing image with
  | nil => exact Nat.zero_le _
  | cons p visited ih =>
    obtain ⟨hstep, hrest⟩ := List.isChain_cons_cons.mp h
    have hlength := ih hrest
    rw [List.length_cons]
    omega

/-- Images whose histories get shorter are all different. -/
theorem nodup_of_shortening {s : ImageStore} {images : List Image}
    (h : images.IsChain fun a b => historyLength s b + 1 = historyLength s a) :
    (images.map Image.id).Nodup := by
  have hshorter : images.IsChain fun a b => historyLength s b < historyLength s a :=
    h.imp fun a b hstep => by omega
  have : IsTrans Image fun a b => historyLength s b < historyLength s a :=
    ⟨fun a b c hab hbc => Nat.lt_trans hbc hab⟩
  have hpairwise := List.isChain_iff_pairwise.mp hshorter
  refine List.pairwise_map.mpr (hpairwise.imp fun hlt heq => ?_)
  rw [historyLength, historyLength, heq] at hlt
  exact Nat.lt_irrefl _ hlt

/-- The ascent of `removeImage` through the parents ends on every store, whatever calls
fail. Each parent it visits has a history that is one entry shorter, it visits no image
twice and no more images than the history of the removed image has entries; no more rounds
are needed, so that the loop of the source ends. -/
theorem ascent_terminates (rounds : ℕ) (fetched image : Image) :
    (removeImage rounds fetched image =
      removeImageVisiting rounds fetched image >>= fun result => pure result.2) ∧
    ∀ u v visited value, Prog.Runs (Logged Anything) (removeImageVisiting rounds fetched image) u
        (visited, value) v →
      (image :: visited).IsChain
        (fun a b => historyLength u.store b + 1 = historyLength u.store a) ∧
      visited.length ≤ historyLength u.store image ∧
      ((image :: visited).map Image.id).Nodup ∧
      (historyLength u.store image ≤ rounds → value ≠ none) := by
  refine ⟨removeImage_eq rounds fetched image, fun u v visited value h => ?_⟩
  obtain ⟨hchain, hrounds⟩ := runs_removeImageVisiting h
  refine ⟨hchain, length_le_of_shortening hchain, nodup_of_shortening hchain, ?_⟩
  intro henough hnone
  have := hrounds hnone
  omega

end K8StorageX.PruneAscent
