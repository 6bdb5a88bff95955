import K8StorageX.ProvisionerController
import Mathlib.Data.List.Nodup

/-!
# The registry as a mirror of the cluster

Each key of the registry is absent, owned by one object or disabled. Putting objects
keeps the registry a mirror of the objects that have been put, as long as an object that
has been registered keeps its name and stays valid: neither `Put` nor `Delete` ever takes
an entry back that the object itself has outgrown.
-/

namespace K8StorageX.RegistryMirror

open ApiProgram WorkerPool GoErrors KubeObjects ProvisionerPods ProvisionerRegistry
open ProvisionerController
open KubeApi (Failure)

section Mirrors

variable {cfg : Config} {objects : ObjectKey → Option StorageProvisioner}
variable {registered changed : ObjectKey → Bool} {r : Registry}

/-- The object exists, passes `validateProvisioner` and has the name in its spec. -/
structure Named (cfg : Config) (objects : ObjectKey → Option StorageProvisioner) (k : String)
    (p : StorageProvisioner) : Prop where
  /-- It is the current object. -/
  current : objects p.key = some p
  /-- It is valid. -/
  valid : validateProvisioner cfg p = none
  /-- It has the name. -/
  name : p.spec.name = k

/-- A registered object holds the name. -/
def Holds (cfg : Config) (objects : ObjectKey → Option StorageProvisioner)
    (registered : ObjectKey → Bool) (k : String) (key : ObjectKey) : Prop :=
  registered key = true ∧ ∃ q, q.key = key ∧ Named cfg objects k q

/-- The registry agrees with the objects, apart from those that have changed. -/
structure Mirrors (cfg : Config) (objects : ObjectKey → Option StorageProvisioner)
    (registered changed : ObjectKey → Bool) (r : Registry) : Prop where
  /-- The owner of a name holds it. -/
  owned : ∀ k p, r k = some (some p) → Holds cfg objects registered k p.key
  /-- An entry is the current object. -/
  entry : ∀ k p, r k = some (some p) → changed p.key = false → objects p.key = some p
  /-- A disabled name is held twice. -/
  disabled : ∀ k, r k = some none → ∃ key key', key ≠ key' ∧
    Holds cfg objects registered k key ∧ Holds cfg objects registered k key'
  /-- A valid object owns its name or has disabled it. -/
  mirrored : ∀ k q, Named cfg objects k q → changed q.key = false →
    r k = some (some q) ∨ r k = some none

/-- An entry of a mirror has the name of its key. -/
theorem Mirrors.name_eq (h : Mirrors cfg objects registered changed r) {k : String}
    {p : StorageProvisioner} (hp : r k = some (some p)) (hchanged : changed p.key = false) :
    Named cfg objects k p := by
  have hcurrent := h.entry k p hp hchanged
  obtain ⟨-, q, hkey, hq⟩ := h.owned k p hp
  have hsame : objects q.key = some p := hkey ▸ hcurrent
  have heq : q = p := Option.some.inj (hq.current.symm.trans hsame)
  exact heq ▸ hq

/-- Once nothing has changed, the registry returns exactly the objects that have their
name alone. -/
theorem Mirrors.get_iff (h : Mirrors cfg objects registered changed r)
    (hsettled : ∀ key, changed key = false) (k : String) (p : StorageProvisioner) :
    ProvisionerRegistry.get r k = some p ↔ Named cfg objects k p ∧ ∀ q, Named cfg objects k q → q = p := by
  have hget : ProvisionerRegistry.get r k = some p ↔ r k = some (some p) := by
    unfold ProvisionerRegistry.get
    cases r k with
    | none => simp
    | some entry => simp
  rw [hget]
  constructor
  · intro hp
    refine ⟨h.name_eq hp (hsettled p.key), fun q hq => ?_⟩
    rcases h.mirrored k q hq (hsettled q.key) with hown | hdisabled
    · exact Option.some.inj (Option.some.inj (hown.symm.trans hp))
    · cases hp.symm.trans hdisabled
  · rintro ⟨hp, honly⟩
    rcases h.mirrored k p hp (hsettled p.key) with hown | hdisabled
    · exact hown
    · obtain ⟨key, key', hne, ⟨-, q, rfl, hq⟩, -, q', rfl, hq'⟩ := h.disabled k hdisabled
      exact absurd (congrArg StorageProvisioner.key ((honly q hq).trans (honly q' hq').symm)) hne

/-- What `Put` does to the registry. -/
inductive PutEffect (cfg : Config) (r : Registry) (p : StorageProvisioner) : Registry → Prop
  | rejected {e : GoError} (invalid : validateProvisioner cfg p = some e) : PutEffect cfg r p r
  | stored (valid : validateProvisioner cfg p = none)
      (own : ∀ existing, r p.spec.name = some existing →
        ∃ q, existing = some q ∧ q.key = p.key) :
      PutEffect cfg r p (Function.update r p.spec.name (some (some p)))
  | disabled (valid : validateProvisioner cfg p = none)
      (other : r p.spec.name = some none ∨ ∃ q, r p.spec.name = some (some q) ∧ q.key ≠ p.key) :
      PutEffect cfg r p (Function.update r p.spec.name (some none))

theorem put_effect (cfg : Config) (r : Registry) (p : StorageProvisioner) :
    PutEffect cfg r p (put cfg r p).2 := by
  unfold put
  split
  · next hinvalid => exact .rejected hinvalid
  · next hvalid =>
    dsimp only
    split
    · next hnone =>
      refine .stored hvalid fun existing hexisting => ?_
      rw [hnone] at hexisting
      cases hexisting
    · next hdisabled => exact .disabled hvalid (Or.inl hdisabled)
    · next q hq =>
      split
      · next hne => exact .disabled hvalid (Or.inr ⟨q, hq, fun heq => hne heq.symm⟩)
      · next heq =>
        refine .stored hvalid fun existing hexisting => ?_
        rw [hq] at hexisting
        cases hexisting
        exact ⟨q, rfl, (not_not.mp heq).symm⟩

section Put

variable {p : StorageProvisioner} {changed' : ObjectKey → Bool}

/-- The object that has been put is the current one under its key. -/
theorem eq_of_read (hread : changed' p.key = false → objects p.key = some p) {k : String}
    {q : StorageProvisioner} (hq : Named cfg objects k q) (hclean : changed' q.key = false)
    (hkey : q.key = p.key) : q = p := by
  have hstored := hread (hkey ▸ hclean)
  rw [← hkey, hq.current] at hstored
  exact Option.some.inj hstored

/-- Entries of names other than that of the object that is put stay current. -/
theorem Mirrors.entry_kept (h : Mirrors cfg objects registered changed r)
    (hread : changed' p.key = false → objects p.key = some p)
    (hothers : ∀ key, key ≠ p.key → changed' key = changed key) {k : String}
    (hname : validateProvisioner cfg p = none → k ≠ p.spec.name) {q : StorageProvisioner}
    (hq : r k = some (some q)) (hclean : changed' q.key = false) : objects q.key = some q := by
  by_cases hkey : q.key = p.key
  · obtain ⟨-, q', hkey', hq'⟩ := h.owned k q hq
    have heq : q' = p := eq_of_read hread hq' (hkey' ▸ hclean) (hkey'.trans hkey)
    subst heq
    exact absurd hq'.name.symm (hname hq'.valid)
  · exact h.entry k q hq ((hothers q.key hkey).symm.trans hclean)

theorem Mirrors.mirrored_kept (h : Mirrors cfg objects registered changed r)
    (hread : changed' p.key = false → objects p.key = some p)
    (hothers : ∀ key, key ≠ p.key → changed' key = changed key) {k : String}
    {q : StorageProvisioner} (hq : Named cfg objects k q) (hclean : changed' q.key = false) :
    q = p ∨ q.key ≠ p.key ∧ (r k = some (some q) ∨ r k = some none) := by
  by_cases hkey : q.key = p.key
  · exact Or.inl (eq_of_read hread hq hclean hkey)
  · exact Or.inr ⟨hkey, h.mirrored k q hq ((hothers q.key hkey).symm.trans hclean)⟩

/-- Putting an object that was current when it was read keeps the mirror. -/
theorem Mirrors.put (h : Mirrors cfg objects registered changed r)
    (hholds : validateProvisioner cfg p = none → Holds cfg objects registered p.spec.name p.key)
    (hread : changed' p.key = false → objects p.key = some p)
    (hothers : ∀ key, key ≠ p.key → changed' key = changed key) :
    Mirrors cfg objects registered changed' (ProvisionerRegistry.put cfg r p).2 := by
  have heffect := put_effect cfg r p
  generalize (ProvisionerRegistry.put cfg r p).2 = r' at heffect ⊢
  cases heffect with
  | rejected invalid =>
    refine ⟨h.owned, fun k q hq hclean => ?_, h.disabled, fun k q hq hclean => ?_⟩
    · refine h.entry_kept hread hothers (fun hvalid => ?_) hq hclean
      cases invalid.symm.trans hvalid
    · rcases h.mirrored_kept hread hothers hq hclean with rfl | ⟨-, hkept⟩
      · cases invalid.symm.trans hq.valid
      · exact hkept
  | stored valid own =>
    refine ⟨fun k q hq => ?_, fun k q hq hclean => ?_, fun k hk => ?_, fun k q hq hclean => ?_⟩
    · rcases of_update hq with ⟨rfl, hnew⟩ | ⟨-, hsame⟩
      · cases hnew
        exact hholds valid
      · exact h.owned k q hsame
    · rcases of_update hq with ⟨rfl, hnew⟩ | ⟨hne, hsame⟩
      · cases hnew
        exact hread hclean
      · exact h.entry_kept hread hothers (fun _ => hne) hsame hclean
    · rcases of_update hk with ⟨-, hnew⟩ | ⟨-, hsame⟩
      · cases hnew
      · exact h.disabled k hsame
    · rcases h.mirrored_kept hread hothers hq hclean with rfl | ⟨hkey, hkept⟩
      · refine Or.inl ?_
        rw [← hq.name, Function.update_self]
      · by_cases hk : k = p.spec.name
        · subst hk
          -- the name had no other owner before
          rcases hkept with hown | hdisabled
          · obtain ⟨q', hq', hsame⟩ := own _ hown
            cases hq'
            exact absurd hsame hkey
          · obtain ⟨q', hq', -⟩ := own _ hdisabled
            cases hq'
        · rw [Function.update_of_ne hk]
          exact hkept
  | disabled valid other =>
    refine ⟨fun k q hq => ?_, fun k q hq hclean => ?_, fun k hk => ?_, fun k q hq hclean => ?_⟩
    · rcases of_update hq with ⟨-, hnew⟩ | ⟨-, hsame⟩
      · cases hnew
      · exact h.owned k q hsame
    · rcases of_update hq with ⟨-, hnew⟩ | ⟨hne, hsame⟩
      · cases hnew
      · exact h.entry_kept hread hothers (fun _ => hne) hsame hclean
    · rcases of_update hk with ⟨rfl, -⟩ | ⟨-, hsame⟩
      · rcases other with hdisabled | ⟨q, hq, hne⟩
        · exact h.disabled _ hdisabled
        · exact ⟨q.key, p.key, hne, h.owned _ q hq, hholds valid⟩
      · exact h.disabled k hsame
    · by_cases hk : k = p.spec.name
      · subst hk
        exact Or.inr (Function.update_self _ _ _)
      · rcases h.mirrored_kept hread hothers hq hclean with rfl | ⟨-, hkept⟩
        · exact absurd hq.name.symm hk
        · rw [Function.update_of_ne hk]
          exact hkept

end Put

/-- Objects may change as long as registered names are kept. -/
theorem Mirrors.change (h : Mirrors cfg objects registered changed r)
    {objects' : ObjectKey → Option StorageProvisioner} {registered' changed' : ObjectKey → Bool}
    (hholds : ∀ k key, Holds cfg objects registered k key → Holds cfg objects' registered' k key)
    (hchanged : ∀ key, changed' key = false → changed key = false ∧ objects' key = objects key) :
    Mirrors cfg objects' registered' changed' r where
  owned k p hp := hholds k p.key (h.owned k p hp)
  entry := by
    intro k p hp hclean
    obtain ⟨hbefore, hsame⟩ := hchanged p.key hclean
    rw [hsame]
    exact h.entry k p hp hbefore
  disabled := by
    intro k hk
    obtain ⟨key, key', hne, hkey, hkey'⟩ := h.disabled k hk
    exact ⟨key, key', hne, hholds k key hkey, hholds k key' hkey'⟩
  mirrored := by
    intro k q hq hclean
    obtain ⟨hbefore, hsame⟩ := hchanged q.key hclean
    exact h.mirrored k q ⟨hsame ▸ hq.current, hq.valid, hq.name⟩ hbefore

/-- The empty name may be deleted if no valid object has it. -/
theorem Mirrors.delete (h : Mirrors cfg objects registered changed r) {p : StorageProvisioner}
    (hunused : ∀ q, ¬Named cfg objects p.spec.name q) {changed' : ObjectKey → Bool}
    (hchanged : ∀ key q, objects key = some q → changed' key = false → changed key = false) :
    Mirrors cfg objects registered changed' (delete r p) := by
  have hentry : ∀ k entry, ProvisionerRegistry.delete r p k = some entry → r k = some entry := by
    intro k entry hk
    unfold ProvisionerRegistry.delete at hk
    by_cases hname : k = p.spec.name
    · subst hname
      simp only [Function.update_self, reduceCtorEq] at hk
    · rw [Function.update_of_ne hname] at hk
      exact hk
  refine ⟨fun k q hq => h.owned k q (hentry k _ hq), fun k q hq hclean => ?_,
    fun k hk => h.disabled k (hentry k _ hk), fun k q hq hclean => ?_⟩
  · obtain ⟨-, q', hkey, hq'⟩ := h.owned k q (hentry k _ hq)
    have hstored : objects q.key = some q' := hkey ▸ hq'.current
    exact h.entry k q (hentry k _ hq) (hchanged q.key q' hstored hclean)
  · have hne : k ≠ p.spec.name := by
      rintro rfl
      exact hunused q hq
    unfold ProvisionerRegistry.delete
    rw [Function.update_of_ne hne]
    exact h.mirrored k q hq (hchanged q.key q hq.current hclean)

end Mirrors

section Load

variable {cfg : Config} {objects : ObjectKey → Option StorageProvisioner}
variable {registered : ObjectKey → Bool}

/-- The loop of `LoadProvisioners` takes care of the objects that are still to be put. -/
theorem mirrors_load {rest : List StorageProvisioner} {r : Registry} {changed : ObjectKey → Bool}
    (h : Mirrors cfg objects registered changed r)
    (hchanged : ∀ key, changed key = true ↔ key ∈ rest.map StorageProvisioner.key)
    (hcurrent : ∀ p ∈ rest, objects p.key = some p)
    (hregistered : ∀ p ∈ rest, validateProvisioner cfg p = none → registered p.key = true) :
    Mirrors cfg objects registered (fun _ => false)
      (rest.foldl (fun r p => (put cfg r p).2) r) := by
  induction rest generalizing r changed with
  | nil =>
    have hnone : changed = fun _ => false := by
      funext key
      by_contra htrue
      exact absurd ((hchanged key).mp (Bool.eq_true_of_not_eq_false htrue)) List.not_mem_nil
    exact hnone ▸ h
  | cons p rest ih =>
    have hp := hcurrent p List.mem_cons_self
    have hput : Mirrors cfg objects registered
        (fun key => decide (key ∈ rest.map StorageProvisioner.key)) (put cfg r p).2 := by
      refine h.put (fun hvalid => ?_) (fun _ => hp) fun key hne => ?_
      · exact ⟨hregistered p List.mem_cons_self hvalid, p, rfl, hp, hvalid, rfl⟩
      · rw [Bool.eq_iff_iff, decide_eq_true_iff, hchanged, List.map_cons, List.mem_cons]
        exact (or_iff_right hne).symm
    exact ih hput (fun key => decide_eq_true_iff)
      (fun q hq => hcurrent q (List.mem_cons_of_mem p hq))
      fun q hq => hregistered q (List.mem_cons_of_mem p hq)

end Load

section Controller

variable {cfg : Config} {s t : Shared} {seen : Record Req Resp}

/-- Valid objects have a name, and the registry mirrors the objects. -/
structure Inv (cfg : Config) (s : Shared) : Prop where
  /-- Objects are stored under their keys. -/
  keys : ∀ key p, s.specs key = some p → p.key = key
  /-- Valid objects have a name. -/
  named : ∀ key p, s.specs key = some p → validateProvisioner cfg p = none → p.spec.name ≠ ""
  /-- The registry mirrors the objects. -/
  mirrors : Mirrors cfg s.specs s.registered s.changed s.registry

/-- What the running reconcile has found under a key is current, or has changed since. -/
def Fresh (key : ObjectKey) (p : Option StorageProvisioner) (s : Shared) : Prop :=
  (s.fresh = some key ∧ s.specs key = p) ∨ (s.fresh = none ∧ s.changed key = true)

/-- What the reconcile tolerates from the users. -/
structure Rely (cfg : Config) (s t : Shared) : Prop where
  /-- A change of the object that has been read is noted. -/
  fresh : ∀ key p, Fresh key p s → Fresh key p t
  /-- Registered names are kept. -/
  holds : ∀ k key, Holds cfg s.specs s.registered k key → Holds cfg t.specs t.registered k key

/-- The object and its spec that a step leaves under a key. -/
def Env.change : Env → Option (ObjectKey × Option StorageProvisioner)
  | .create p => some (p.key, some p)
  | .update p => some (p.key, some p)
  | .delete key => some (key, none)
  | .tick _ => none

/-- A registered object is neither deleted nor renamed nor made invalid, and no valid
object has an empty name. -/
def KeepsNames (cfg : Config) (e : Env) (s : Shared) : Prop :=
  ∀ key after, Env.change e = some (key, after) →
    (s.registered key = true → ∃ before p, s.specs key = some before ∧ after = some p ∧
      validateProvisioner cfg p = none ∧ p.spec.name = before.spec.name) ∧
    ∀ p, after = some p → validateProvisioner cfg p = none → p.spec.name ≠ ""

theorem specs_change (s : Shared) (key : ObjectKey) (p : Option ProvisionerResource) :
    (s.change key p).specs =
      Function.update s.specs key (p.map ProvisionerResource.toStorageProvisioner) := by
  funext key'
  by_cases hkey : key' = key
  · subst hkey
    simp only [Shared.specs, Shared.change, Function.update_self]
  · simp only [Shared.specs, Shared.change, Function.update_of_ne hkey]

/-- The steps of the users change one object or only the time. -/
theorem act_cases {e : Env} (h : act e s = some t) :
    (∃ clock, t = { s with clock := clock }) ∨
      ∃ key after, Env.change e = some (key, after.map ProvisionerResource.toStorageProvisioner) ∧
        (∀ p, after = some p → p.key = key) ∧ t = s.change key after := by
  cases e with
  | create p =>
    simp only [act] at h
    split at h
    · cases h
    · cases h
      refine Or.inr ⟨p.key, _, rfl, fun q hq => ?_, rfl⟩
      cases hq
      rfl
  | update p =>
    obtain ⟨stored, -, rfl⟩ := Option.map_eq_some_iff.mp h
    refine Or.inr ⟨p.key, _, rfl, fun q hq => ?_, rfl⟩
    cases hq
    rfl
  | delete key =>
    obtain ⟨stored, -, rfl⟩ := Option.map_eq_some_iff.mp h
    exact Or.inr ⟨key, none, rfl, fun _ hq => (by cases hq), rfl⟩
  | tick duration =>
    cases h
    exact Or.inl ⟨_, rfl⟩

/-- A permitted change keeps the invariant, and the reconcile tolerates it. -/
theorem inv_change {key : ObjectKey} {after : Option ProvisionerResource} (hi : Inv cfg s)
    (hkey : ∀ p, after = some p → p.key = key)
    (hregistered : s.registered key = true → ∃ before p, s.specs key = some before ∧
      after.map ProvisionerResource.toStorageProvisioner = some p ∧
      validateProvisioner cfg p = none ∧ p.spec.name = before.spec.name)
    (hnamed : ∀ p, after.map ProvisionerResource.toStorageProvisioner = some p →
      validateProvisioner cfg p = none → p.spec.name ≠ "") :
    Inv cfg (s.change key after) ∧ Rely cfg s (s.change key after) := by
  have hspecs := specs_change s key after
  have hplace : ∀ p, after.map ProvisionerResource.toStorageProvisioner = some p → p.key = key := by
    intro p hp
    obtain ⟨resource, hresource, rfl⟩ := Option.map_eq_some_iff.mp hp
    exact hkey resource hresource
  have hother : ∀ key', key' ≠ key → (s.change key after).specs key' = s.specs key' := by
    intro key' hne
    rw [hspecs, Function.update_of_ne hne]
  have hself : (s.change key after).specs key =
      after.map ProvisionerResource.toStorageProvisioner := by
    rw [hspecs, Function.update_self]
  have hholds : ∀ k key', Holds cfg s.specs s.registered k key' →
      Holds cfg (s.change key after).specs s.registered k key' := by
    rintro k _ ⟨hreg, q, rfl, hq⟩
    refine ⟨hreg, ?_⟩
    by_cases hsame : q.key = key
    · obtain ⟨before, p, hbefore, hp, hvalid, hname⟩ := hregistered (hsame ▸ hreg)
      have heq : q = before := by
        have hcurrent := hq.current
        rw [hsame, hbefore] at hcurrent
        exact (Option.some.inj hcurrent).symm
      subst heq
      have hpkey := hplace p hp
      refine ⟨p, hpkey.trans hsame.symm, ?_, hvalid, hname.trans hq.name⟩
      rw [hpkey, hself]
      exact hp
    · exact ⟨q, rfl, (hother q.key hsame).trans hq.current, hq.valid, hq.name⟩
  refine ⟨⟨?_, ?_, ?_⟩, ⟨?_, hholds⟩⟩
  · intro key' p hp
    by_cases hsame : key' = key
    · subst hsame
      exact hplace p (hself ▸ hp)
    · exact hi.keys key' p ((hother key' hsame) ▸ hp)
  · intro key' p hp
    by_cases hsame : key' = key
    · subst hsame
      exact hnamed p (hself ▸ hp)
    · exact hi.named key' p ((hother key' hsame) ▸ hp)
  · refine hi.mirrors.change hholds fun key' hclean => ?_
    have hne : key' ≠ key := by
      rintro rfl
      simp only [Shared.change, Function.update_self, Bool.true_eq_false] at hclean
    simp only [Shared.change, Function.update_of_ne hne] at hclean
    exact ⟨hclean, hother key' hne⟩
  · rintro key' p (⟨hfresh, hp⟩ | ⟨hnone, hdirty⟩)
    · by_cases hsame : key' = key
      · subst hsame
        refine Or.inr ⟨?_, ?_⟩
        · simp only [Shared.change, hfresh, if_true]
        · simp only [Shared.change, Function.update_self]
      · refine Or.inl ⟨?_, (hother key' hsame).trans hp⟩
        have hne : s.fresh ≠ some key := by
          rw [hfresh]
          exact fun heq => hsame (Option.some.inj heq)
        exact (if_neg hne).trans hfresh
    · refine Or.inr ⟨?_, ?_⟩
      · simp only [Shared.change, hnone, reduceCtorEq, if_false]
      · by_cases hsame : key' = key
        · subst hsame
          simp only [Shared.change, Function.update_self]
        · simp only [Shared.change, Function.update_of_ne hsame, hdirty]

theorem inv_clock (hi : Inv cfg s) (clock : CacheModel.Time) : Inv cfg { s with clock := clock } :=
  ⟨hi.keys, hi.named, hi.mirrors⟩

/-- The users keep the invariant and are tolerated. -/
theorem inv_act {e : Env} (hi : Inv cfg s) (hkeeps : KeepsNames cfg e s) (h : act e s = some t) :
    Inv cfg t ∧ Rely cfg s t := by
  rcases act_cases h with ⟨clock, rfl⟩ | ⟨key, after, hchange, hkey, rfl⟩
  · exact ⟨inv_clock hi clock, fun _ _ h => h, fun _ _ h => h⟩
  · obtain ⟨hregistered, hnamed⟩ := hkeeps key _ hchange
    exact inv_change hi hkey hregistered hnamed

/-- Reading an object registers it if it is valid. -/
theorem inv_noteRead (hi : Inv cfg s) (key : ObjectKey) :
    Inv cfg (s.noteRead cfg key) ∧
      ∀ p, s.specs key = some p → validateProvisioner cfg p = none →
        Holds cfg s.specs (s.noteRead cfg key).registered p.spec.name key := by
  have hkept : ∀ key', s.registered key' = true → (s.noteRead cfg key).registered key' = true := by
    intro key' hreg
    simp only [Shared.noteRead]
    split
    · by_cases hsame : key' = key
      · rw [hsame, Function.update_self]
      · rw [Function.update_of_ne hsame]
        exact hreg
    · exact hreg
  refine ⟨⟨hi.keys, hi.named, ?_⟩, ?_⟩
  · refine hi.mirrors.change ?_ fun key' hclean => ⟨hclean, rfl⟩
    rintro k key' ⟨hreg, hq⟩
    exact ⟨hkept key' hreg, hq⟩
  · intro p hp hvalid
    have hkey : p.key = key := hi.keys key p hp
    refine ⟨?_, p, hkey, hkey.symm ▸ hp, hvalid, rfl⟩
    have hany : (s.specs key).any (fun p => validateProvisioner cfg p = none) = true := by
      rw [hp]
      exact decide_eq_true hvalid
    simp only [Shared.noteRead, hany, if_true, Function.update_self]

/-- The object a reconcile has dealt with is no longer counted as changed, if it is
still the one that was read. -/
theorem changed_settle {key : ObjectKey} {p : Option StorageProvisioner} (h : Fresh key p s) :
    (∀ key', key' ≠ key → s.settle.changed key' = s.changed key') ∧
      (s.settle.changed key = false → s.specs key = p) := by
  rcases h with ⟨hfresh, hp⟩ | ⟨hnone, hdirty⟩
  · refine ⟨fun key' hne => ?_, fun _ => hp⟩
    simp only [Shared.settle, hfresh, Function.update_of_ne hne]
  · have hsame : s.settle.changed = s.changed := by
      simp only [Shared.settle, hnone]
    rw [hsame]
    refine ⟨fun _ _ => rfl, fun hclean => ?_⟩
    cases hclean.symm.trans hdirty

theorem inv_put {p : StorageProvisioner} (hi : Inv cfg s) (hfresh : Fresh p.key (some p) s)
    (hholds : validateProvisioner cfg p = none →
      Holds cfg s.specs s.registered p.spec.name p.key) :
    Inv cfg { s.settle with registry := (put cfg s.registry p).2 } := by
  obtain ⟨hothers, hread⟩ := changed_settle hfresh
  exact ⟨hi.keys, hi.named, hi.mirrors.put hholds hread hothers⟩

theorem inv_delete {key : ObjectKey} (hi : Inv cfg s) (hfresh : Fresh key none s) :
    Inv cfg { s.settle with registry := delete s.registry emptyProvisioner } := by
  obtain ⟨hothers, hread⟩ := changed_settle hfresh
  refine ⟨hi.keys, hi.named, hi.mirrors.delete (fun q hq => ?_) fun key' q hq hclean => ?_⟩
  · exact hi.named q.key q hq.current hq.valid hq.name
  · by_cases hsame : key' = key
    · subst hsame
      cases (hread hclean).symm.trans hq
    · exact (hothers key' hsame).symm.trans hclean

/-- A status update leaves the specs alone. -/
theorem inv_updateStatus (hi : Inv cfg s) (fault : Option Failure) (config : ProvisionerResource) :
    Inv cfg (s.serve cfg fault (.updateStatus config)).2 := by
  simp only [Shared.serve]
  split
  · exact hi
  · exact hi
  · next stored hstored =>
    split
    · have hspecs : ∀ resourceVersion conditions revision,
          Shared.specs { s with
            objects := Function.update s.objects config.key (some { stored with
              conditions := conditions
              resourceVersion := resourceVersion })
            revision := revision } = s.specs := by
        intro resourceVersion conditions revision
        funext key
        by_cases hkey : key = config.key
        · subst hkey
          simp only [Shared.specs, Function.update_self, hstored, Option.map_some]
        · simp only [Shared.specs, Function.update_of_ne hkey]
      exact ⟨fun key p hp => hi.keys key p (hspecs _ _ _ ▸ hp),
        fun key p hp => hi.named key p (hspecs _ _ _ ▸ hp), (hspecs _ _ _).symm ▸ hi.mirrors⟩
    · exact hi

/-- The argument about the reconciles. -/
def mirror (cfg : Config) : Discipline (controller cfg) where
  inv := Inv cfg
  rely _ := Rely cfg
  guarantee _ _ _ _ _ _ := True
  post _ _ _ _ := True
  admitsEnv := KeepsNames cfg
  rely_refl _ _ := ⟨fun _ _ h => h, fun _ _ h => h⟩
  rely_trans _ _ _ _ h h' :=
    ⟨fun key p hp => h'.fresh key p (h.fresh key p hp),
      fun k key hk => h'.holds k key (h.holds k key hk)⟩

/-- After the registry has been updated only the status is written. -/
theorem wp_reportConfigured (config : ProvisionerResource) (err : Option GoError) :
    Wp ((mirror cfg).contract ()) (fun _ _ _ => True) (reportConfigured config err) seen s := by
  refine Wp.of_issues (fun _ _ => trivial) ?_ (issues_reportConfigured config err) trivial
  intro r s seen fault hr _ hi _
  refine ⟨?_, trivial, trivial⟩
  cases r with
  | now => exact hi
  | updateStatus config => exact inv_updateStatus hi fault config
  | get key => cases hr
  | put p => cases hr
  | delete p => cases hr

/-- An object that is not found is removed from the registry under the empty name. -/
theorem wp_deleteEmpty {key : ObjectKey} (hfresh : Fresh key none s) :
    Wp ((mirror cfg).contract ()) (fun _ _ _ => True)
      (Prog.request (Req.delete emptyProvisioner) >>= fun _ => Prog.ret (none : Option GoError))
      seen s := by
  intro t hrely hi fault _
  exact ⟨inv_delete hi (hrely.fresh key none hfresh), trivial, fun _ _ _ => trivial⟩

theorem wp_put {config : ProvisionerResource}
    (hfresh : Fresh config.key (some config.toStorageProvisioner) s)
    (hholds : validateProvisioner cfg config.toStorageProvisioner = none →
      Holds cfg s.specs s.registered config.spec.name config.key) :
    Wp ((mirror cfg).contract ()) (fun _ _ _ => True)
      (Prog.request (Req.put config.toStorageProvisioner) >>= reportConfigured config) seen s := by
  intro t hrely hi fault _
  have hinv := inv_put hi (hrely.fresh _ _ hfresh) fun hvalid => hrely.holds _ _ (hholds hvalid)
  exact ⟨hinv, trivial, wp_reportConfigured config _⟩

theorem wp_reconcile (key : ObjectKey) :
    Wp ((mirror cfg).contract ()) (fun _ _ _ => True) (reconcile key) [] s := by
  simp only [reconcile, Prog.request_bind]
  intro t _ hi fault _
  obtain ⟨hinv, hholds⟩ := inv_noteRead hi key
  change Inv cfg (t.serve cfg fault (.get key)).2 ∧ True ∧
    Wp _ _ _ _ (t.serve cfg fault (.get key)).2
  cases fault with
  | some failure =>
    refine ⟨hi, trivial, ?_⟩
    have hne : failure.error ≠ .notFound := failure.error_ne_notFound
    have hanswer : ((mirror cfg).contract ()).serve (some failure) (.get key) t =
        (.error failure.error, t) := rfl
    rw [hanswer]
    dsimp only
    rw [if_neg hne]
    exact fun _ _ _ => trivial
  | none =>
    cases hobject : t.objects key with
    | none =>
      have hanswer : Shared.serve cfg none (.get key) t =
          (.error .notFound, t.noteRead cfg key) := by
        simp only [Shared.serve, hobject]
      have hfresh : Fresh key none (t.noteRead cfg key) := by
        refine Or.inl ⟨rfl, ?_⟩
        change (t.objects key).map _ = none
        rw [hobject]
        rfl
      have hcontract : ((mirror cfg).contract ()).serve none (.get key) t =
          (.error .notFound, t.noteRead cfg key) := hanswer
      rw [hcontract, hanswer]
      exact ⟨hinv, trivial, wp_deleteEmpty hfresh⟩
    | some config =>
      have hanswer : Shared.serve cfg none (.get key) t =
          (.ok config, t.noteRead cfg key) := by
        simp only [Shared.serve, hobject]
      have hspecs : t.specs key = some config.toStorageProvisioner := by
        rw [Shared.specs, hobject]
        rfl
      have hkey : config.key = key := hi.keys key _ hspecs
      subst hkey
      have hcontract : ((mirror cfg).contract ()).serve none (.get config.key) t =
          (.ok config, t.noteRead cfg config.key) := hanswer
      rw [hcontract, hanswer]
      exact ⟨hinv, trivial, wp_put (Or.inl ⟨rfl, hspecs⟩) fun hvalid => hholds _ hspecs hvalid⟩

/-- The system respects the argument. -/
theorem mirror_respected : (mirror cfg).Respected where
  start := by
    intro w key s t hi _ h
    cases h
    exact ⟨⟨hi.keys, hi.named, hi.mirrors⟩, fun v hv => absurd rfl hv, wp_reconcile key⟩
  env := by
    intro e s t hi hkeeps h
    obtain ⟨hinv, hrely⟩ := inv_act hi hkeeps h
    exact ⟨hinv, fun _ => hrely⟩
  finish := by
    intro w seen value s t hi _ h
    cases h
    exact ⟨hi, fun v hv => absurd rfl hv⟩
  crash := by
    intro s t _ h
    cases h
  compatible := by
    intro w v seen r response s t _ _ _ hne
    exact absurd rfl hne

end Controller

section Mirror

variable {cfg : Config} {listing : Listing}

/-- A listed object is the one that is found under its key. -/
theorem find_item (listing : Listing) {p : ProvisionerResource} (h : p ∈ listing.items) :
    listing.items.find? (fun q => q.key = p.key) = some p := by
  have hsome : (listing.items.find? fun q => q.key = p.key).isSome := by
    rw [List.find?_isSome]
    exact ⟨p, h, decide_eq_true rfl⟩
  obtain ⟨q, hq⟩ := Option.isSome_iff_exists.mp hsome
  have hfound := List.find?_some hq
  have hkey : q.key = p.key := of_decide_eq_true hfound
  have heq : q = p := List.inj_on_of_nodup_map listing.distinct (List.mem_of_find?_eq_some hq) h hkey
  rw [hq, heq]

theorem specs_initial {revision : ℕ} {clock : CacheModel.Time} {key : ObjectKey}
    {p : StorageProvisioner} (h : (listing.initial cfg revision clock).specs key = some p) :
    ∃ item ∈ listing.items, item.toStorageProvisioner = p ∧ p.key = key := by
  obtain ⟨item, hitem, rfl⟩ := Option.map_eq_some_iff.mp h
  have hfound := List.find?_some hitem
  exact ⟨item, List.mem_of_find?_eq_some hitem, rfl, of_decide_eq_true hfound⟩

/-- `LoadProvisioners` makes the registry a mirror of the listed objects. -/
theorem inv_initial
    (hnamed : ∀ p ∈ listing.items, validateProvisioner cfg p.toStorageProvisioner = none →
      p.spec.name ≠ "") (revision : ℕ) (clock : CacheModel.Time) :
    Inv cfg (listing.initial cfg revision clock) where
  keys := by
    intro key p hp
    obtain ⟨item, -, -, hkey⟩ := specs_initial hp
    exact hkey
  named := by
    intro key p hp hvalid
    obtain ⟨item, hitem, rfl, -⟩ := specs_initial hp
    exact hnamed item hitem hvalid
  mirrors := by
    have hempty : Mirrors cfg (listing.initial cfg revision clock).specs
        (listing.initial cfg revision clock).registered
        (fun key => decide (key ∈ (listing.items.map
          ProvisionerResource.toStorageProvisioner).map StorageProvisioner.key))
        newProvisioners := by
      refine ⟨fun _ _ h => (by cases h), fun _ _ h => (by cases h), fun _ h => (by cases h), ?_⟩
      intro k q hq hclean
      obtain ⟨item, hitem, rfl, -⟩ := specs_initial hq.current
      have hmem := List.mem_map_of_mem (f := StorageProvisioner.key)
        (List.mem_map_of_mem (f := ProvisionerResource.toStorageProvisioner) hitem)
      exact absurd hmem (of_decide_eq_false hclean)
    refine mirrors_load hempty (fun key => decide_eq_true_iff) ?_ ?_
    · intro p hp
      obtain ⟨item, hitem, rfl⟩ := List.mem_map.mp hp
      have hfind := find_item listing hitem
      exact Option.map_eq_some_iff.mpr ⟨item, hfind, rfl⟩
    · intro p hp hvalid
      obtain ⟨item, hitem, rfl⟩ := List.mem_map.mp hp
      refine List.any_eq_true.mpr ⟨item, hitem, ?_⟩
      rw [Bool.and_eq_true]
      exact ⟨decide_eq_true rfl, decide_eq_true hvalid⟩

/-- States of the system. -/
abbrev MirrorState : Type := State Unit Req Resp Shared (Option GoError)

/-- Steps of the system. -/
abbrev MirrorEvent : Type := Event Unit ObjectKey (Option Failure) Env

/-- Users keep the names of registered objects. -/
def UsersKeepNames (cfg : Config) (st : MirrorState) : MirrorEvent → Prop
  | .env e => KeepsNames cfg e st.shared
  | _ => True

theorem admits_of_keepsNames (st : MirrorState) (e : MirrorEvent) (h : UsersKeepNames cfg st e) :
    (mirror cfg).Admits st e := by
  cases e with
  | env e => exact h
  | serve w fault => exact fun _ _ _ _ => trivial
  | _ => trivial

/-- In every run from `LoadProvisioners` in which no registered object is deleted, renamed
or made invalid and no valid object has an empty name: once every changed object has been
reconciled, `Get` returns an object if and only if it is the only valid one with the name. -/
theorem registry_mirrors_cluster {revision : ℕ} {clock : CacheModel.Time} {es : List MirrorEvent}
    {st : MirrorState}
    (hnamed : ∀ p ∈ listing.items, validateProvisioner cfg p.toStorageProvisioner = none →
      p.spec.name ≠ "")
    (hrun : (controller cfg).RunWhere (UsersKeepNames cfg)
      (idle (listing.initial cfg revision clock)) es st)
    (hreconciled : ∀ key, st.shared.changed key = false) (k : String) (p : StorageProvisioner) :
    ProvisionerRegistry.get st.shared.registry k = some p ↔
      Named cfg st.shared.specs k p ∧ ∀ q, Named cfg st.shared.specs k q → q = p := by
  have hsafe : (mirror cfg).Safe st :=
    (mirror cfg).run_safe_where mirror_respected
      ((mirror cfg).idle_safe (inv_initial hnamed revision clock)) (hrun.mono admits_of_keepsNames)
  exact hsafe.1.mirrors.get_iff hreconciled k p

/-- The step is one of the users that concerns the object. -/
def Touches (key : ObjectKey) : MirrorEvent → Prop
  | .env e => ∃ after, Env.change e = some (key, after)
  | _ => False

theorem changed_step {st st' : MirrorState} {e : MirrorEvent} {key : ObjectKey}
    (hstep : (controller cfg).step st e = some st') (huntouched : ¬Touches key e)
    (hclean : st.shared.changed key = false) : st'.shared.changed key = false := by
  have hsettle : st.shared.settle.changed key = false := by
    cases hfresh : st.shared.fresh with
    | none =>
      simp only [Shared.settle, hfresh]
      exact hclean
    | some read =>
      simp only [Shared.settle, hfresh]
      by_cases hkey : key = read
      · rw [hkey, Function.update_self]
      · rw [Function.update_of_ne hkey]
        exact hclean
  cases System.taken_of_step hstep with
  | start free hook =>
    cases hook
    exact hclean
  | @serve w fault seen r next pending =>
    change (Shared.serve cfg fault r st.shared).2.changed key = false
    cases r with
    | get key' =>
      simp only [Shared.serve]
      split
      · exact hclean
      · split <;> exact hclean
    | put p => exact hsettle
    | delete p => exact hsettle
    | now => exact hclean
    | updateStatus config =>
      simp only [Shared.serve]
      split
      · exact hclean
      · exact hclean
      · split <;> exact hclean
  | finish returned hook =>
    cases hook
    exact hclean
  | crash hook => cases hook
  | env hook =>
    rcases act_cases hook with ⟨clock, rfl⟩ | ⟨key', after, hchange, -, rfl⟩
    · exact hclean
    · have hne : key ≠ key' := by
        rintro rfl
        exact huntouched ⟨_, hchange⟩
      simp only [Shared.change, Function.update_of_ne hne]
      exact hclean

/-- An object the users leave alone stays reconciled. -/
theorem changed_run {st st' : MirrorState} {es : List MirrorEvent} {key : ObjectKey}
    (hrun : (controller cfg).run st es = some st') (huntouched : ∀ e ∈ es, ¬Touches key e)
    (hclean : st.shared.changed key = false) : st'.shared.changed key = false := by
  induction es generalizing st with
  | nil =>
    cases hrun
    exact hclean
  | cons e es ih =>
    obtain ⟨mid, hstep, hrest⟩ := Option.bind_eq_some_iff.mp hrun
    have hmid := changed_step hstep (huntouched e List.mem_cons_self) hclean
    exact ih hrest (fun e' he' => huntouched e' (List.mem_cons_of_mem e he')) hmid

/-- A provisioner of volumes on a disk. -/
def diskProvisioner (name specName : String) : StorageProvisioner where
  key := ⟨"system", name⟩
  spec :=
    { name := specName
      deprovisionOnPodCompletion := false
      persistentVolumeTemplate := ⟨none, "", some .filesystem, .delete, none⟩
      podTemplate := ⟨[⟨"main", "manager", [], [], []⟩], [], .always⟩
      provisioner := ⟨some ["provision"], []⟩
      deprovisioner := ⟨some ["deprovision"], []⟩
      env := []
      nodes := [⟨"node1", "/data"⟩] }

/-- A manager for which placeholders and matchers are plain texts. -/
def diskConfig : Config where
  managerNamespace := "system"
  digest := .sample
  storageProvisionerToJSON p := p.spec.name
  unmarshalProvisioner text := .ok (diskProvisioner text text)
  referenceToJSON _ := "reference"
  substitute p _ := .ok p
  matchPattern pattern nodeName := some (pattern == nodeName)

/-- A namespace with one provisioner. -/
def diskListing : Listing where
  items := [⟨diskProvisioner "local" "disk", 1, 1, []⟩]
  distinct := List.nodup_singleton _

/-- The users' change and the reconcile of the object: the read and the update of the
registry are answered. -/
def changeAndReconcile (e : Env) (key : ObjectKey) : List MirrorEvent :=
  [.env e, .start () key, .serve () none, .serve () none]

/-- After a change and its reconcile every object is reconciled. -/
theorem reconciled_after {e : Env} {key : ObjectKey} {after : Option StorageProvisioner}
    {st : MirrorState} (hchange : Env.change e = some (key, after))
    (hrun : (controller diskConfig).run (idle (diskListing.initial diskConfig 1 0))
      (changeAndReconcile e key) = some st)
    (hkey : st.shared.changed key = false) (key' : ObjectKey) :
    st.shared.changed key' = false := by
  by_cases hsame : key' = key
  · rw [hsame]
    exact hkey
  · refine changed_run hrun (fun event hevent => ?_) rfl
    simp only [changeAndReconcile, List.mem_cons, List.not_mem_nil, or_false] at hevent
    rcases hevent with rfl | rfl | rfl | rfl
    · rintro ⟨after', hafter⟩
      exact hsame (congrArg Prod.fst (Option.some.inj (hafter.symm.trans hchange)))
    · exact fun h => h
    · exact fun h => h
    · exact fun h => h

/-- What the registry returns for a name and whether an object has been reconciled. -/
def lookup (k : String) (key : ObjectKey) (st : MirrorState) :
    Option StorageProvisioner × Option StorageProvisioner × Bool :=
  (ProvisionerRegistry.get st.shared.registry k, st.shared.specs key, st.shared.changed key)

theorem keepsNames_create : KeepsNames diskConfig (.create (diskProvisioner "remote" "nfs"))
    (diskListing.initial diskConfig 1 0) := by
  rintro key after hchange
  cases hchange
  refine ⟨fun hregistered => ?_, fun p hp _ => ?_⟩
  · have hnot : (diskListing.initial diskConfig 1 0).registered ⟨"system", "remote"⟩ = false := by
      decide +kernel
    cases hnot.symm.trans hregistered
  · cases hp
    decide

theorem registry_mirrors_cluster_created :
    ∃ st, (controller diskConfig).RunWhere (UsersKeepNames diskConfig)
        (idle (diskListing.initial diskConfig 1 0))
        (changeAndReconcile (.create (diskProvisioner "remote" "nfs")) ⟨"system", "remote"⟩) st ∧
      (∀ key, st.shared.changed key = false) ∧
      ProvisionerRegistry.get st.shared.registry "nfs" = some (diskProvisioner "remote" "nfs") ∧
      Named diskConfig st.shared.specs "nfs" (diskProvisioner "remote" "nfs") := by
  have hnamed : ∀ p ∈ diskListing.items,
      validateProvisioner diskConfig p.toStorageProvisioner = none → p.spec.name ≠ "" := by
    intro p hp _
    cases List.mem_singleton.mp hp
    decide
  have hlookup : (((controller diskConfig).run (idle (diskListing.initial diskConfig 1 0))
      (changeAndReconcile (.create (diskProvisioner "remote" "nfs")) ⟨"system", "remote"⟩)).map
        (lookup "nfs" ⟨"system", "remote"⟩)) =
      some (some (diskProvisioner "remote" "nfs"), some (diskProvisioner "remote" "nfs"), false) := by
    decide +kernel
  obtain ⟨st, hrun, hst⟩ := Option.map_eq_some_iff.mp hlookup
  have hget := congrArg Prod.fst hst
  have hclean := congrArg (fun result => result.2.2) hst
  have hreconciled := reconciled_after rfl hrun hclean
  have hwhere : (controller diskConfig).RunWhere (UsersKeepNames diskConfig)
      (idle (diskListing.initial diskConfig 1 0))
      (changeAndReconcile (.create (diskProvisioner "remote" "nfs")) ⟨"system", "remote"⟩) st := by
    obtain ⟨mid, hstep, hrest⟩ := Option.bind_eq_some_iff.mp hrun
    refine ⟨keepsNames_create, mid, hstep, System.runWhere_of_forall (fun e he st => ?_) hrest⟩
    simp only [List.mem_cons, List.not_mem_nil, or_false] at he
    rcases he with rfl | rfl | rfl
    · trivial
    · trivial
    · trivial
  exact ⟨st, hwhere, hreconciled, hget,
    ((registry_mirrors_cluster hnamed hwhere hreconciled "nfs" _).mp hget).1⟩

/-- A deleted object is still returned after its reconcile, which removes the empty name
from the registry. -/
theorem deleted_provisioner_returned :
    ∃ st, (controller diskConfig).run (idle (diskListing.initial diskConfig 1 0))
        (changeAndReconcile (.delete ⟨"system", "local"⟩) ⟨"system", "local"⟩) = some st ∧
      (∀ key, st.shared.changed key = false) ∧
      ProvisionerRegistry.get st.shared.registry "disk" = some (diskProvisioner "local" "disk") ∧
      st.shared.specs ⟨"system", "local"⟩ = none := by
  have hlookup : (((controller diskConfig).run (idle (diskListing.initial diskConfig 1 0))
      (changeAndReconcile (.delete ⟨"system", "local"⟩) ⟨"system", "local"⟩)).map
        (lookup "disk" ⟨"system", "local"⟩)) =
      some (some (diskProvisioner "local" "disk"), none, false) := by
    decide +kernel
  obtain ⟨st, hrun, hst⟩ := Option.map_eq_some_iff.mp hlookup
  have hget := congrArg Prod.fst hst
  have hgone := congrArg (fun result => result.2.1) hst
  have hclean := congrArg (fun result => result.2.2) hst
  exact ⟨st, hrun, reconciled_after rfl hrun hclean, hget, hgone⟩

end Mirror

end K8StorageX.RegistryMirror
