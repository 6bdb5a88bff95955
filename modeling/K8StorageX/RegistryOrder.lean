import K8StorageX.GoMaps
import K8StorageX.RegistryMirror
import Mathlib.Data.List.Induction

/-!
# The registry does not depend on the order of its provisioners

An entry of the registry is absent, owned by one object or disabled. It is determined by
the provisioners that were accepted under its name: their last one if they all are
versions of one object. Different orders in which the same objects are put therefore
make the same registry.
-/

namespace K8StorageX.RegistryOrder

open GoErrors KubeObjects ProvisionerPods ProvisionerRegistry RegistryMirror

section Entries

variable {cfg : Config} {k : String}

/-- The provisioners of a sequence that are accepted under a name. -/
def accepted (cfg : Config) (k : String) (puts : List StorageProvisioner) :
    List StorageProvisioner :=
  puts.filter fun p => decide (validateProvisioner cfg p = none ∧ p.spec.name = k)

/-- The provisioners are versions of one object. -/
def OneObject (ps : List StorageProvisioner) : Prop := ∀ p ∈ ps, ∀ q ∈ ps, p.key = q.key

instance (ps : List StorageProvisioner) : Decidable (OneObject ps) :=
  inferInstanceAs (Decidable (∀ p ∈ ps, ∀ q ∈ ps, p.key = q.key))

/-- The entry that the provisioners accepted under a name leave. -/
def entryOf (ps : List StorageProvisioner) : Option (Option StorageProvisioner) :=
  if ps = [] then none else some (if OneObject ps then ps.getLast? else none)

/-- The entry of a name after another provisioner has been accepted under it. -/
def claimed (p : StorageProvisioner) :
    Option (Option StorageProvisioner) → Option (Option StorageProvisioner)
  | none => some (some p)
  | some none => some none
  | some (some q) => if p.key = q.key then some (some p) else some none

theorem put_apply (r : Registry) (p : StorageProvisioner) :
    (put cfg r p).2 k =
      if validateProvisioner cfg p = none ∧ p.spec.name = k then claimed p (r k) else r k := by
  have heffect := put_effect cfg r p
  generalize (put cfg r p).2 = r' at heffect ⊢
  cases heffect with
  | rejected hinvalid => simp [hinvalid]
  | stored hvalid hown =>
    by_cases hname : p.spec.name = k
    · subst hname
      rw [if_pos ⟨hvalid, rfl⟩, Function.update_self]
      cases hentry : r p.spec.name with
      | none => rfl
      | some existing =>
        obtain ⟨q, rfl, hkey⟩ := hown existing hentry
        simp [claimed, hkey]
    · rw [Function.update_of_ne (Ne.symm hname), if_neg fun h => hname h.2]
  | disabled hvalid hother =>
    by_cases hname : p.spec.name = k
    · subst hname
      rw [if_pos ⟨hvalid, rfl⟩, Function.update_self]
      rcases hother with hdisabled | ⟨q, hq, hne⟩
      · rw [hdisabled]
        rfl
      · have hkey : p.key ≠ q.key := hne.symm
        simp [hq, claimed, hkey]
    · rw [Function.update_of_ne (Ne.symm hname), if_neg fun h => hname h.2]

theorem oneObject_append {ps : List StorageProvisioner} {p q : StorageProvisioner} (hq : q ∈ ps) :
    OneObject (ps ++ [p]) ↔ OneObject ps ∧ p.key = q.key := by
  constructor
  · intro h
    refine ⟨fun a ha b hb => h a (by simp [ha]) b (by simp [hb]), ?_⟩
    exact h p (by simp) q (by simp [hq])
  · rintro ⟨h, hkey⟩ a ha b hb
    have hsame : ∀ a ∈ ps ++ [p], a.key = q.key := by
      intro a ha
      rcases List.mem_append.mp ha with ha | ha
      · exact h a ha q hq
      · rw [List.mem_singleton.mp ha]
        exact hkey
    rw [hsame a ha, hsame b hb]

theorem entryOf_append (ps : List StorageProvisioner) (p : StorageProvisioner) :
    entryOf (ps ++ [p]) = claimed p (entryOf ps) := by
  cases hlast : ps.getLast? with
  | none =>
    have hnil : ps = [] := List.getLast?_eq_none_iff.mp hlast
    subst hnil
    simp [entryOf, OneObject, claimed]
  | some q =>
    have hmem : q ∈ ps := List.mem_of_getLast? hlast
    have hne : ps ≠ [] := List.ne_nil_of_mem hmem
    have hone := oneObject_append (p := p) hmem
    by_cases hps : OneObject ps
    · by_cases hkey : p.key = q.key
      · simp [entryOf, hne, hps, hone, hlast, hkey, claimed]
      · simp [entryOf, hne, hps, hone, hlast, hkey, claimed]
    · simp [entryOf, hne, hps, hone, claimed]

/-- An entry of the registry is determined by the provisioners accepted under its name. -/
theorem loadProvisioners_apply (puts : List StorageProvisioner) :
    loadProvisioners cfg puts k = entryOf (accepted cfg k puts) := by
  induction puts using List.reverseRecOn with
  | nil => rfl
  | append_singleton puts p ih =>
    have hload : loadProvisioners cfg (puts ++ [p]) = (put cfg (loadProvisioners cfg puts) p).2 := by
      simp [loadProvisioners]
    rw [hload, put_apply, ih]
    by_cases haccepted : validateProvisioner cfg p = none ∧ p.spec.name = k
    · have hfilter : accepted cfg k (puts ++ [p]) = accepted cfg k puts ++ [p] := by
        simp [accepted, haccepted]
      rw [if_pos haccepted, hfilter, entryOf_append]
    · have hfilter : accepted cfg k (puts ++ [p]) = accepted cfg k puts := by
        simp [accepted, haccepted]
      rw [if_neg haccepted, hfilter]

/-- `Get` returns the last provisioner accepted under a name if all are one object. -/
theorem get_loadProvisioners (puts : List StorageProvisioner) :
    ProvisionerRegistry.get (loadProvisioners cfg puts) k =
      if OneObject (accepted cfg k puts) then (accepted cfg k puts).getLast? else none := by
  rw [ProvisionerRegistry.get, loadProvisioners_apply, entryOf]
  by_cases hnil : accepted cfg k puts = []
  · simp [hnil]
  · simp [hnil]

theorem mem_accepted {puts : List StorageProvisioner} {p : StorageProvisioner} :
    p ∈ accepted cfg k puts ↔ p ∈ puts ∧ validateProvisioner cfg p = none ∧ p.spec.name = k := by
  simp [accepted]

/-- No two provisioners of the sequence are versions of one object. -/
def DistinctObjects (puts : List StorageProvisioner) : Prop :=
  ∀ p ∈ puts, ∀ q ∈ puts, p.key = q.key → p = q

theorem getLast?_eq_of_mem_iff {ps qs : List StorageProvisioner} (hps : OneObject ps)
    (hdistinct : DistinctObjects ps) (hmem : ∀ p, p ∈ ps ↔ p ∈ qs) :
    ps.getLast? = qs.getLast? := by
  cases hlast : ps.getLast? with
  | none =>
    have hnil : ps = [] := List.getLast?_eq_none_iff.mp hlast
    subst hnil
    have hqs : qs = [] := List.eq_nil_iff_forall_not_mem.mpr fun q hq => by simpa using (hmem q).mpr hq
    rw [hqs]
    rfl
  | some p =>
    have hp : p ∈ ps := List.mem_of_getLast? hlast
    have hne : qs ≠ [] := List.ne_nil_of_mem ((hmem p).mp hp)
    have hq : qs.getLast hne ∈ ps := (hmem _).mpr (List.getLast_mem hne)
    have heq : p = qs.getLast hne := hdistinct p hp _ hq (hps p hp _ hq)
    rw [List.getLast?_eq_some_getLast hne, heq]

/-- Putting the same objects in another order, or repeatedly, gives the same lookups. -/
theorem get_eq_of_mem_iff {puts puts' : List StorageProvisioner}
    (hdistinct : DistinctObjects puts) (hmem : ∀ p, p ∈ puts ↔ p ∈ puts') :
    ProvisionerRegistry.get (loadProvisioners cfg puts) k =
      ProvisionerRegistry.get (loadProvisioners cfg puts') k := by
  have hsame : ∀ p, p ∈ accepted cfg k puts ↔ p ∈ accepted cfg k puts' := by
    intro p
    rw [mem_accepted, mem_accepted, hmem]
  have hone : OneObject (accepted cfg k puts) ↔ OneObject (accepted cfg k puts') := by
    simp only [OneObject, hsame]
  have hsub : DistinctObjects (accepted cfg k puts) := fun p hp q hq =>
    hdistinct p (mem_accepted.mp hp).1 q (mem_accepted.mp hq).1
  rw [get_loadProvisioners, get_loadProvisioners]
  by_cases h : OneObject (accepted cfg k puts)
  · rw [if_pos h, if_pos (hone.mp h), getLast?_eq_of_mem_iff h hsub hsame]
  · rw [if_neg h, if_neg (mt hone.mpr h)]

end Entries

section Keys

/-- The names of all entries of a registry, each once. -/
structure Enumerates (r : Registry) (names : List String) : Prop where
  /-- Every name is yielded once. -/
  nodup : names.Nodup
  /-- The names of the entries are yielded. -/
  mem_iff : ∀ name, name ∈ names ↔ r name ≠ none

variable {cfg : Config} {r r' : Registry} {names names' : List String}

theorem mem_keys (h : Enumerates r names) (name : String) :
    name ∈ keys r names ↔ (ProvisionerRegistry.get r name).isSome := by
  rw [keys, List.mem_mergeSort, List.mem_filter, h.mem_iff, ProvisionerRegistry.get]
  cases r name <;> simp

/-- `Keys` is sorted and has no duplicates. -/
theorem pairwise_keys (h : Enumerates r names) : (keys r names).Pairwise (· < ·) := by
  exact GoMaps.pairwise_sortStrings (h.nodup.filter _)

/-- Registries with the same lookups have the same `Keys`, whatever the order of the
iterations. -/
theorem keys_eq_of_get_eq (h : Enumerates r names) (h' : Enumerates r' names')
    (hget : ∀ k, ProvisionerRegistry.get r k = ProvisionerRegistry.get r' k) :
    keys r names = keys r' names' := by
  refine GoMaps.eq_of_sorted_of_mem_iff id (pairwise_keys h) (pairwise_keys h') fun k => ?_
  rw [mem_keys h, mem_keys h', hget]

/-- The entries of a registry that provisioners have been put into can be enumerated. -/
theorem exists_enumerates (puts : List StorageProvisioner) :
    ∃ names, Enumerates (loadProvisioners cfg puts) names := by
  refine ⟨((puts.filter fun p => decide (validateProvisioner cfg p = none)).map
    (·.spec.name)).dedup, List.nodup_dedup _, fun name => ?_⟩
  rw [List.mem_dedup, loadProvisioners_apply, entryOf]
  by_cases hnil : accepted cfg name puts = []
  · have hmissing : ∀ p ∈ puts, validateProvisioner cfg p = none → p.spec.name ≠ name := by
      intro p hp hvalid hname
      have hmem : p ∈ accepted cfg name puts := mem_accepted.mpr ⟨hp, hvalid, hname⟩
      rw [hnil] at hmem
      cases hmem
    simpa [hnil] using hmissing
  · obtain ⟨p, hp⟩ := List.exists_mem_of_ne_nil _ hnil
    obtain ⟨hput, hvalid, hname⟩ := mem_accepted.mp hp
    simpa [hnil] using ⟨p, ⟨hput, hvalid⟩, hname⟩

end Keys

section Order

/-- What a registry returns does not depend on the order in which its provisioners were put.
Each lookup returns the last accepted version of the only object with that name, the keys
are sorted without duplicates, and a rejected provisioner changes no lookup. -/
theorem put_order_independent (cfg : Config) :
    (∀ puts k, ProvisionerRegistry.get (loadProvisioners cfg puts) k =
      if OneObject (accepted cfg k puts) then (accepted cfg k puts).getLast? else none) ∧
    (∀ puts puts', DistinctObjects puts → (∀ p, p ∈ puts ↔ p ∈ puts') →
      (∀ k, ProvisionerRegistry.get (loadProvisioners cfg puts) k =
        ProvisionerRegistry.get (loadProvisioners cfg puts') k) ∧
      ∀ names names', Enumerates (loadProvisioners cfg puts) names →
        Enumerates (loadProvisioners cfg puts') names' →
        keys (loadProvisioners cfg puts) names = keys (loadProvisioners cfg puts') names') ∧
    (∀ puts, (∃ names, Enumerates (loadProvisioners cfg puts) names) ∧
      ∀ names, Enumerates (loadProvisioners cfg puts) names →
        (keys (loadProvisioners cfg puts) names).Pairwise (· < ·) ∧
        ∀ k, k ∈ keys (loadProvisioners cfg puts) names ↔
          (ProvisionerRegistry.get (loadProvisioners cfg puts) k).isSome) ∧
    ∀ r p e, validateProvisioner cfg p = some e →
      ∀ k, ProvisionerRegistry.get (put cfg r p).2 k = ProvisionerRegistry.get r k := by
  refine ⟨fun puts k => get_loadProvisioners puts, ?_, ?_, ?_⟩
  · intro puts puts' hdistinct hmem
    have hget : ∀ k, ProvisionerRegistry.get (loadProvisioners cfg puts) k =
        ProvisionerRegistry.get (loadProvisioners cfg puts') k :=
      fun k => get_eq_of_mem_iff hdistinct hmem
    exact ⟨hget, fun names names' h h' => keys_eq_of_get_eq h h' hget⟩
  · intro puts
    exact ⟨exists_enumerates puts, fun names h => ⟨pairwise_keys h, mem_keys h⟩⟩
  · intro r p e hinvalid k
    have hrejected : ¬ (validateProvisioner cfg p = none ∧ p.spec.name = k) := by simp [hinvalid]
    rw [ProvisionerRegistry.get, ProvisionerRegistry.get, put_apply, if_neg hrejected]

/-- The claimed order of two objects, one of them repeated. -/
theorem put_order_independent_disks :
    DistinctObjects [diskProvisioner "local" "disk", diskProvisioner "remote" "nfs"] ∧
      ProvisionerRegistry.get (loadProvisioners diskConfig [diskProvisioner "remote" "nfs",
        diskProvisioner "local" "disk", diskProvisioner "remote" "nfs"]) "disk" =
          some (diskProvisioner "local" "disk") := by
  have hdistinct :
      DistinctObjects [diskProvisioner "local" "disk", diskProvisioner "remote" "nfs"] := by
    simp [DistinctObjects, diskProvisioner]
  have hlookup : ProvisionerRegistry.get (loadProvisioners diskConfig
      [diskProvisioner "local" "disk", diskProvisioner "remote" "nfs"]) "disk" =
        some (diskProvisioner "local" "disk") := by
    decide +kernel
  refine ⟨hdistinct, ?_⟩
  rw [← hlookup]
  refine (((put_order_independent diskConfig).2.1 _ _ hdistinct fun p => ?_).1 "disk").symm
  simp only [List.mem_cons, List.not_mem_nil, or_false]
  tauto

end Order

end K8StorageX.RegistryOrder
