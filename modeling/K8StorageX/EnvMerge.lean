import K8StorageX.GoMaps
import K8StorageX.ProvisionerPods
import Mathlib.Data.List.Induction

/-!
# Merging environment variables

`uniqueEnv` keeps the last value of each name and sorts by name. Its result is
determined by the last values, so merges of several lists can be compared name by
name. The source goes through a map, whose names are sorted and looked up again; that
computes the same list in every order of the iteration over the map.
-/

namespace K8StorageX.EnvMerge

open GoMaps KubeObjects ProvisionerPods

/-- The last value of a name. -/
def lastValue : List EnvVar → String → Option String
  | [], _ => none
  | v :: env, name => (lastValue env name).or (if v.name = name then some v.value else none)

@[simp] theorem lastValue_append (a b : List EnvVar) (name : String) :
    lastValue (a ++ b) name = (lastValue b name).or (lastValue a name) := by
  induction a with
  | nil => simp [lastValue]
  | cons v a ih => simp [lastValue, ih, Option.or_assoc]

/-- Variables sorted by name, each name once. -/
def SortedByName (env : List EnvVar) : Prop := env.Pairwise fun v w => v.name < w.name

theorem lastValue_eq_none_of_lt {env : List EnvVar} {name : String}
    (h : ∀ w ∈ env, name < w.name) : lastValue env name = none := by
  induction env with
  | nil => rfl
  | cons w env ih =>
    have hne : w.name ≠ name := (h w List.mem_cons_self).ne'
    simp [lastValue, hne, ih fun u hu => h u (List.mem_cons_of_mem w hu)]

/-- In a sorted list the last value of a name is its only one. -/
theorem SortedByName.mem_iff {env : List EnvVar} (h : SortedByName env) (v : EnvVar) :
    v ∈ env ↔ lastValue env v.name = some v.value := by
  induction env with
  | nil => simp [lastValue]
  | cons w env ih =>
    obtain ⟨hlt, hsorted⟩ := List.pairwise_cons.mp h
    by_cases hname : w.name = v.name
    · have hnone : lastValue env v.name = none := lastValue_eq_none_of_lt (hname ▸ hlt)
      have hnot : v ∉ env := by
        rw [ih hsorted, hnone]
        exact nofun
      simp only [List.mem_cons, hnot, or_false, lastValue, hnone, hname, if_true, Option.none_or,
        Option.some.injEq]
      constructor
      · rintro rfl
        rfl
      · intro hvalue
        cases v
        cases w
        simp_all
    · have hne : v ≠ w := fun heq => hname (heq ▸ rfl)
      simp [lastValue, hname, hne, ih hsorted]

/-- Sorted lists with the same values are equal. -/
theorem SortedByName.ext {a b : List EnvVar} (ha : SortedByName a) (hb : SortedByName b)
    (h : ∀ name, lastValue a name = lastValue b name) : a = b := by
  have hmem : ∀ v, v ∈ a ↔ v ∈ b := by
    intro v
    rw [ha.mem_iff, hb.mem_iff, h]
  exact eq_of_sorted_of_mem_iff EnvVar.name ha hb hmem

theorem mem_insertEnv {v w : EnvVar} {env : List EnvVar} (h : w ∈ insertEnv v env) :
    w = v ∨ w ∈ env := by
  induction env with
  | nil => simpa [insertEnv] using h
  | cons u env ih =>
    unfold insertEnv at h
    split at h
    · rcases List.mem_cons.mp h with rfl | hw
      · exact .inl rfl
      · exact .inr (List.mem_cons_of_mem u hw)
    · split at h
      · rcases List.mem_cons.mp h with rfl | hw
        · exact .inl rfl
        · exact .inr hw
      · rcases List.mem_cons.mp h with rfl | hw
        · exact .inr List.mem_cons_self
        · exact (ih hw).imp_right (List.mem_cons_of_mem u)

theorem SortedByName.insertEnv {env : List EnvVar} (h : SortedByName env) (v : EnvVar) :
    SortedByName (insertEnv v env) ∧ ∀ name,
      lastValue (ProvisionerPods.insertEnv v env) name =
        if v.name = name then some v.value else lastValue env name := by
  induction env with
  | nil => exact ⟨List.pairwise_singleton _ _, fun name => by simp [ProvisionerPods.insertEnv, lastValue]⟩
  | cons w env ih =>
    obtain ⟨hlt, hsorted⟩ := List.pairwise_cons.mp h
    obtain ⟨hrest, hvalue⟩ := ih hsorted
    unfold ProvisionerPods.insertEnv
    split
    · rename_i hname
      refine ⟨List.pairwise_cons.mpr ⟨hname ▸ hlt, hsorted⟩, fun name => ?_⟩
      by_cases hv : v.name = name
      · have hnone : lastValue env name = none := lastValue_eq_none_of_lt (hv ▸ hname ▸ hlt)
        simp [lastValue, hv, hnone]
      · have hw : w.name ≠ name := hname ▸ hv
        simp [lastValue, hv, hw]
    · rename_i hname
      split
      · rename_i hless
        have hall : ∀ u ∈ w :: env, v.name < u.name := by
          intro u hu
          rcases List.mem_cons.mp hu with rfl | hu
          · exact hless
          · exact hless.trans (hlt u hu)
        refine ⟨List.pairwise_cons.mpr ⟨hall, h⟩, fun name => ?_⟩
        by_cases hv : v.name = name
        · have hnone : lastValue (w :: env) name = none := lastValue_eq_none_of_lt (hv ▸ hall)
          rw [lastValue, hnone]
          simp [hv]
        · rw [lastValue]
          simp [hv]
      · rename_i hmore
        have hwv : w.name < v.name := lt_of_le_of_ne (not_lt.mp hmore) fun heq => hname heq.symm
        refine ⟨List.pairwise_cons.mpr ⟨?_, hrest⟩, fun name => ?_⟩
        · intro u hu
          rcases mem_insertEnv hu with rfl | hu
          · exact hwv
          · exact hlt u hu
        · rw [lastValue, hvalue name]
          by_cases hv : v.name = name
          · simp [hv]
          · simp [hv, lastValue]

/-- `uniqueEnv` sorts by name and keeps the last values. -/
theorem uniqueEnv_spec (env : List EnvVar) :
    SortedByName (uniqueEnv env) ∧ ∀ name, lastValue (uniqueEnv env) name = lastValue env name := by
  have hfold : ∀ (env acc : List EnvVar), SortedByName acc →
      SortedByName (env.foldl (fun acc v => insertEnv v acc) acc) ∧ ∀ name,
        lastValue (env.foldl (fun acc v => insertEnv v acc) acc) name =
          (lastValue env name).or (lastValue acc name) := by
    intro env
    induction env with
    | nil => exact fun acc hacc => ⟨hacc, fun name => by simp [lastValue]⟩
    | cons v env ih =>
      intro acc hacc
      obtain ⟨hinsert, hvalue⟩ := hacc.insertEnv v
      obtain ⟨hsorted, hlast⟩ := ih _ hinsert
      refine ⟨hsorted, fun name => ?_⟩
      rw [List.foldl_cons, hlast, hvalue, lastValue]
      by_cases hv : v.name = name <;> simp [hv]
  obtain ⟨hsorted, hlast⟩ := hfold env [] List.Pairwise.nil
  exact ⟨hsorted, fun name => by simpa [uniqueEnv, lastValue] using hlast name⟩

section Source

-- `uniqueEnv` reads nothing of a variable but its name.
variable {V : Type*} (name : V → String)

/-- The map that `uniqueEnv` fills. -/
def envByName (env : List V) : String → Option V :=
  env.foldl (fun m v => Function.update m (name v) (some v)) fun _ => none

/-- `uniqueEnv` with the names that the iteration over the map yields. -/
def uniqueEnvIn (names : List String) (env : List V) : List V :=
  (sortStrings names).filterMap (envByName name env)

/-- A list that `uniqueEnv` can return. -/
def UniqueEnv (env result : List V) : Prop :=
  ∃ names, Iterates (envByName name env) names ∧ result = uniqueEnvIn name names env

/-- The variable is the last one of its name. -/
def IsLast (env : List V) (v : V) : Prop :=
  ∃ before after, env = before ++ v :: after ∧ ∀ w ∈ after, name w ≠ name v

variable {name}

theorem isLast_append_singleton {env : List V} {v w : V} :
    IsLast name (env ++ [w]) v ↔ v = w ∨ (name w ≠ name v ∧ IsLast name env v) := by
  constructor
  · rintro ⟨before, after, heq, hafter⟩
    rcases after.eq_nil_or_concat with rfl | ⟨rest, u, rfl⟩
    · exact Or.inl (by simpa using (List.append_inj' heq rfl).2.symm)
    · have hsplit : env ++ [w] = (before ++ v :: rest) ++ [u] := by simpa using heq
      obtain ⟨henv, hwu⟩ := List.append_inj' hsplit rfl
      have hw : w = u := by simpa using hwu
      refine Or.inr ⟨hw ▸ hafter u (by simp), before, rest, henv, ?_⟩
      exact fun x hx => hafter x (by simp [hx])
  · rintro (rfl | ⟨hne, before, after, rfl, hafter⟩)
    · exact ⟨env, [], rfl, by simp⟩
    · refine ⟨before, after ++ [w], by simp, fun x hx => ?_⟩
      rcases List.mem_append.mp hx with hx | hx
      · exact hafter x hx
      · rwa [List.mem_singleton.mp hx]

/-- The map holds the last variable of each name. -/
theorem envByName_eq_some_iff {env : List V} {k : String} {v : V} :
    envByName name env k = some v ↔ IsLast name env v ∧ name v = k := by
  induction env using List.reverseRecOn with
  | nil => simp [envByName, IsLast]
  | append_singleton env w ih =>
    have hstep : envByName name (env ++ [w]) =
        Function.update (envByName name env) (name w) (some w) := by simp [envByName]
    rw [hstep, isLast_append_singleton]
    by_cases hk : k = name w
    · subst hk
      rw [Function.update_self]
      constructor
      · intro h
        obtain rfl : w = v := by simpa using h
        exact ⟨Or.inl rfl, rfl⟩
      · rintro ⟨rfl | ⟨hne, -⟩, heq⟩
        · rfl
        · exact absurd heq.symm hne
    · rw [Function.update_of_ne hk, ih]
      constructor
      · rintro ⟨hlast, rfl⟩
        exact ⟨Or.inr ⟨Ne.symm hk, hlast⟩, rfl⟩
      · rintro ⟨rfl | ⟨-, hlast⟩, heq⟩
        · exact absurd heq.symm hk
        · exact ⟨hlast, heq⟩

/-- Every name of a list has a last variable. -/
theorem exists_isLast_iff {env : List V} {k : String} :
    (∃ v, IsLast name env v ∧ name v = k) ↔ ∃ v ∈ env, name v = k := by
  induction env using List.reverseRecOn with
  | nil => simp [IsLast]
  | append_singleton env w ih =>
    by_cases hk : name w = k
    · have hlast : IsLast name (env ++ [w]) w := isLast_append_singleton.mpr (Or.inl rfl)
      exact iff_of_true ⟨w, hlast, hk⟩ ⟨w, by simp, hk⟩
    · simp only [isLast_append_singleton, List.mem_append, List.mem_singleton]
      constructor
      · rintro ⟨v, rfl | ⟨-, hlast⟩, hv⟩
        · exact absurd hv hk
        · obtain ⟨u, hu, huk⟩ := ih.mp ⟨v, hlast, hv⟩
          exact ⟨u, Or.inl hu, huk⟩
      · rintro ⟨v, hv | rfl, hvk⟩
        · obtain ⟨u, hu, huk⟩ := ih.mpr ⟨v, hv, hvk⟩
          exact ⟨u, Or.inr ⟨huk ▸ hk, hu⟩, huk⟩
        · exact absurd hvk hk

variable {env result : List V}

/-- What `uniqueEnv` returns is strictly sorted by name. -/
theorem UniqueEnv.sorted (h : UniqueEnv name env result) :
    result.Pairwise fun v w => name v < name w := by
  obtain ⟨names, hnames, rfl⟩ := h
  rw [uniqueEnvIn, List.pairwise_filterMap]
  refine (pairwise_sortStrings hnames.nodup).imp fun hlt v hv w hw => ?_
  rwa [(envByName_eq_some_iff.mp hv).2, (envByName_eq_some_iff.mp hw).2]

/-- What `uniqueEnv` returns are the last variables of their names. -/
theorem UniqueEnv.mem_iff (h : UniqueEnv name env result) (v : V) :
    v ∈ result ↔ IsLast name env v := by
  obtain ⟨names, hnames, rfl⟩ := h
  simp only [uniqueEnvIn, List.mem_filterMap, mem_sortStrings, hnames.mem_iff,
    envByName_eq_some_iff]
  constructor
  · rintro ⟨k, -, hlast, -⟩
    exact hlast
  · intro hlast
    have hsome := envByName_eq_some_iff.mpr ⟨hlast, rfl⟩
    exact ⟨name v, by simp [hsome], hlast, rfl⟩

/-- `uniqueEnv` returns one list, whatever the order of the iteration. -/
theorem existsUnique_uniqueEnv (env : List V) : ∃! result, UniqueEnv name env result := by
  have hnames : Iterates (envByName name env) (env.map name).dedup := by
    refine ⟨List.nodup_dedup _, fun k => ?_⟩
    rw [List.mem_dedup, List.mem_map, ← exists_isLast_iff, Option.ne_none_iff_exists']
    simp only [envByName_eq_some_iff]
  refine ⟨_, ⟨_, hnames, rfl⟩, fun result h => ?_⟩
  refine eq_of_sorted_of_mem_iff name h.sorted (UniqueEnv.sorted ⟨_, hnames, rfl⟩) fun v => ?_
  rw [h.mem_iff, UniqueEnv.mem_iff ⟨_, hnames, rfl⟩]

/-- A last variable of a concatenation is one of the second list, or one of the first whose
name the second does not have. -/
theorem isLast_append {a b : List V} {v : V} :
    IsLast name (a ++ b) v ↔ IsLast name b v ∨ (IsLast name a v ∧ ∀ w ∈ b, name w ≠ name v) := by
  induction b using List.reverseRecOn with
  | nil => simp [IsLast]
  | append_singleton b w ih =>
    rw [← List.append_assoc, isLast_append_singleton, isLast_append_singleton, ih]
    simp only [List.mem_append, List.mem_singleton]
    grind

/-- The last variables of a merged list are those of the list. -/
theorem UniqueEnv.isLast_iff (h : UniqueEnv name env result) (v : V) :
    IsLast name result v ↔ IsLast name env v := by
  rw [← h.mem_iff]
  constructor
  · rintro ⟨before, after, rfl, -⟩
    simp
  · intro hv
    obtain ⟨before, after, heq⟩ := List.append_of_mem hv
    have hsorted := h.sorted
    rw [heq] at hsorted
    have hafter := (List.pairwise_cons.mp (List.pairwise_append.mp hsorted).2.1).1
    exact ⟨before, after, heq, fun w hw => (hafter w hw).ne'⟩

end Source

theorem isLast_iff_lastValue {env : List EnvVar} {v : EnvVar} :
    IsLast EnvVar.name env v ↔ lastValue env v.name = some v.value := by
  induction env using List.reverseRecOn with
  | nil => simp [IsLast, lastValue]
  | append_singleton env w ih =>
    rw [isLast_append_singleton, lastValue_append, ih]
    simp only [lastValue, Option.none_or]
    by_cases hname : w.name = v.name
    · simp only [hname, if_true, Option.some_or, Option.some.injEq, ne_eq, not_true_eq_false,
        false_and, or_false]
      cases v
      cases w
      simp_all [eq_comm]
    · have hne : v ≠ w := fun heq => hname (heq ▸ rfl)
      simp [hname, hne]

/-- The model of `uniqueEnv` is what the source computes. -/
theorem uniqueEnv_iff {env result : List EnvVar} :
    UniqueEnv EnvVar.name env result ↔ result = uniqueEnv env := by
  have heq : ∀ r, UniqueEnv EnvVar.name env r → r = uniqueEnv env := by
    intro r h
    refine eq_of_sorted_of_mem_iff EnvVar.name h.sorted (uniqueEnv_spec env).1 fun v => ?_
    rw [h.mem_iff, isLast_iff_lastValue, (uniqueEnv_spec env).1.mem_iff, (uniqueEnv_spec env).2]
  refine ⟨heq result, ?_⟩
  rintro rfl
  obtain ⟨r, hr, -⟩ : ∃! r, UniqueEnv EnvVar.name env r := existsUnique_uniqueEnv env
  rwa [← heq r hr]

/-- `uniqueEnv` is a merge in which the last variable of a name wins. Whatever the order
of the iterations, it returns one list, strictly sorted by name, with the last variable of
each name; lists can be merged in one step or in two; and the variables of the annotations,
which come last, reach the merged list. -/
theorem uniqueEnv_right_biased_merge {V : Type} (name : V → String) :
    (∀ env, ∃! result, UniqueEnv name env result) ∧
    (∀ env result, UniqueEnv name env result →
      (result.Pairwise fun v w => name v < name w) ∧
      (∀ k, (∃ v ∈ result, name v = k) ↔ ∃ v ∈ env, name v = k) ∧
      ∀ v, v ∈ result ↔ IsLast name env v) ∧
    (∀ a b merged inTwo inOne, UniqueEnv name a merged → UniqueEnv name (merged ++ b) inTwo →
      UniqueEnv name (a ++ b) inOne → inTwo = inOne) ∧
    (∀ template container annotations result, UniqueEnv name
      (template ++ container ++ annotations) result →
      ∀ v, IsLast name annotations v → v ∈ result) ∧
    ∀ env result, UniqueEnv EnvVar.name env result ↔ result = uniqueEnv env := by
  refine ⟨existsUnique_uniqueEnv, ?_, ?_, ?_, fun env result => uniqueEnv_iff⟩
  · intro env result h
    refine ⟨h.sorted, fun k => ?_, h.mem_iff⟩
    simp only [h.mem_iff, exists_isLast_iff]
  · intro a b merged inTwo inOne hmerged htwo hone
    refine eq_of_sorted_of_mem_iff name htwo.sorted hone.sorted fun v => ?_
    rw [htwo.mem_iff, hone.mem_iff, isLast_append, isLast_append, hmerged.isLast_iff]
  · intro template container annotations result h v hlast
    rw [h.mem_iff, isLast_append]
    exact Or.inl hlast

end K8StorageX.EnvMerge
