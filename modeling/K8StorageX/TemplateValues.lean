import K8StorageX.GoErrors
import Mathlib.Data.Finset.Dedup
import Mathlib.Data.List.Forall2

/-!
# Substitution in nested templates

`Substitution` walks a nested value of maps and slices and replaces its strings. A map is
the list of its entries in the order in which it is iterated, so that a value stands for
one choice of all iteration orders. What a value is apart from these orders is what can be
found in it along a path.
-/

namespace K8StorageX.TemplateValues

open GoErrors

variable {Leaf : Type}

/-- A nested value with the order in which each map is iterated. -/
inductive Value (Leaf : Type) where
  /-- `string` -/
  | string (text : String)
  /-- `map[string]interface{}` -/
  | map (entries : List (String × Value Leaf))
  /-- `[]interface{}` -/
  | slice (items : List (Value Leaf))
  /-- A value of another type. -/
  | leaf (content : Leaf)

/-- `Substitution`, whose parser is an arbitrary partial function. -/
structure Substitution where
  /-- `SubstituteString` -/
  substituteString : String → Except GoError String

mutual

/-- `substitute` -/
def Substitution.substitute (s : Substitution) :
    Value Leaf → String → Except GoError (Value Leaf)
  | .string text, _ => (s.substituteString text).map .string
  | .map entries, path => (s.substituteMapAt entries path).map .map
  | .slice items, path => (s.substituteSlice items 0 path).map .slice
  | .leaf content, _ => .ok (.leaf content)

/-- `substituteSlice` from an index on. -/
def Substitution.substituteSlice (s : Substitution) :
    List (Value Leaf) → ℕ → String → Except GoError (List (Value Leaf))
  | [], _, _ => .ok []
  | v :: items, i, parentPath =>
    let path := parentPath ++ ("[" ++ toString i ++ "]")
    match s.substitute v path with
    | .error err => .error (.wrapped path err)
    | .ok result => (s.substituteSlice items (i + 1) parentPath).map (result :: ·)

/-- `substituteMap` for the entries that have not been visited yet. -/
def Substitution.substituteMapAt (s : Substitution) :
    List (String × Value Leaf) → String → Except GoError (List (String × Value Leaf))
  | [], _ => .ok []
  | (k, v) :: entries, parentPath =>
    let path := parentPath ++ ("." ++ k)
    match s.substitute v path with
    | .error err => .error (.wrapped path err)
    | .ok result => (s.substituteMapAt entries parentPath).map ((k, result) :: ·)

end

/-- `SubstituteMap` -/
def Substitution.substituteMap (s : Substitution) (tpl : List (String × Value Leaf)) :
    Except GoError (List (String × Value Leaf)) :=
  s.substituteMapAt tpl ""

/-- Induction over nested values, with one case per type. -/
@[elab_as_elim]
theorem Value.nestedInduction {motive : Value Leaf → Prop}
    (string : ∀ text, motive (.string text))
    (map : ∀ entries, (∀ e ∈ entries, motive e.2) → motive (.map entries))
    (slice : ∀ items, (∀ v ∈ items, motive v) → motive (.slice items))
    (leaf : ∀ content, motive (.leaf content)) (v : Value Leaf) : motive v :=
  @Value.rec Leaf motive (fun entries => ∀ e ∈ entries, motive e.2)
    (fun items => ∀ v ∈ items, motive v) (fun e => motive e.2)
    string map slice leaf (by simp) (by simp_all) (by simp) (by simp_all) (fun _ _ h => h) v

section Paths

/-- A step into a map or a slice. -/
inductive Step where
  /-- To the value of a key. -/
  | key (k : String)
  /-- To an item. -/
  | index (i : ℕ)
  deriving DecidableEq

/-- A step as it is written in the path of an error. -/
def Step.text : Step → String
  | .key k => "." ++ k
  | .index i => "[" ++ toString i ++ "]"

/-- What is known of a value without descending into it. -/
inductive Shape (Leaf : Type) where
  /-- A string. -/
  | string (text : String)
  /-- A map with its keys. -/
  | map (keys : Finset String)
  /-- A slice with its length. -/
  | slice (length : ℕ)
  /-- A value of another type. -/
  | leaf (content : Leaf)

/-- The shape of a value. -/
def Value.shape : Value Leaf → Shape Leaf
  | .string text => .string text
  | .map entries => .map (entries.map Prod.fst).toFinset
  | .slice items => .slice items.length
  | .leaf content => .leaf content

/-- The value after a step. -/
def Value.child : Value Leaf → Step → Option (Value Leaf)
  | .map entries, .key k => entries.lookup k
  | .slice items, .index i => items[i]?
  | _, _ => none

/-- The value at the end of a path. -/
def Value.descend (v : Value Leaf) : List Step → Option (Value Leaf)
  | [] => some v
  | step :: path => (v.child step).bind fun child => child.descend path

/-- The shape at the end of a path. -/
def Value.look (v : Value Leaf) (path : List Step) : Option (Shape Leaf) :=
  (v.descend path).map Value.shape

/-- A Go value: the keys of every map are different. -/
def Value.Proper (v : Value Leaf) : Prop :=
  ∀ path entries, v.descend path = some (.map entries) → (entries.map Prod.fst).Nodup

/-- The empty path leads to the value itself. -/
@[simp] theorem look_nil (v : Value Leaf) : v.look [] = some v.shape := rfl

/-- A path leads on from the child of its first step. -/
theorem look_cons (v : Value Leaf) (step : Step) (path : List Step) :
    v.look (step :: path) = (v.child step).bind fun child => child.look path := by
  rw [Value.look, Value.descend]
  cases v.child step <;> rfl

/-- The children of a proper value are proper. -/
theorem Value.Proper.child {v child : Value Leaf} {step : Step} (h : v.Proper)
    (hchild : v.child step = some child) : child.Proper := by
  intro path entries hfind
  apply h (step :: path) entries
  rw [Value.descend, hchild]
  exact hfind

/-- An entry of a map with different keys is found under its key. -/
theorem lookup_of_mem {entries : List (String × Value Leaf)} {k : String} {v : Value Leaf}
    (hnodup : (entries.map Prod.fst).Nodup) (hmem : (k, v) ∈ entries) :
    entries.lookup k = some v := by
  induction entries with
  | nil => cases hmem
  | cons e entries ih =>
    obtain ⟨hnot, hrest⟩ := List.nodup_cons.mp hnodup
    rcases List.mem_cons.mp hmem with rfl | hmem
    · simp
    · have hne : (k == e.1) = false := beq_false_of_ne fun heq =>
        hnot (heq ▸ List.mem_map_of_mem hmem)
      rw [List.lookup_cons, hne]
      exact ih hrest hmem

/-- The entries of a map are found under their keys. -/
theorem Value.Proper.child_of_mem {entries : List (String × Value Leaf)} {k : String}
    {v : Value Leaf} (h : (Value.map entries).Proper) (hmem : (k, v) ∈ entries) :
    (Value.map entries).child (.key k) = some v :=
  lookup_of_mem (h [] entries rfl) hmem

/-- A map is proper if its keys are different and its values are proper. -/
@[simp] theorem proper_map_iff {entries : List (String × Value Leaf)} :
    (Value.map entries).Proper ↔
      (entries.map Prod.fst).Nodup ∧ ∀ e ∈ entries, e.2.Proper := by
  constructor
  · intro h
    exact ⟨h [] entries rfl, fun e he => h.child (h.child_of_mem he)⟩
  · rintro ⟨hnodup, hall⟩ path found hfind
    cases path with
    | nil =>
      cases hfind
      exact hnodup
    | cons step path =>
      obtain ⟨child, hchild, hrest⟩ := Option.bind_eq_some_iff.mp hfind
      cases step with
      | key k =>
        obtain ⟨before, after, rfl, -⟩ := List.lookup_eq_some_iff.mp hchild
        exact hall (k, child) (by simp) path found hrest
      | index i => cases hchild

/-- A slice is proper if its items are. -/
@[simp] theorem proper_slice_iff {items : List (Value Leaf)} :
    (Value.slice items).Proper ↔ ∀ v ∈ items, v.Proper := by
  constructor
  · intro h v hv
    obtain ⟨i, hi⟩ := List.mem_iff_getElem?.mp hv
    have hchild : (Value.slice items).child (.index i) = some v := hi
    exact h.child hchild
  · intro hall path found hfind
    cases path with
    | nil => cases hfind
    | cons step path =>
      obtain ⟨child, hchild, hrest⟩ := Option.bind_eq_some_iff.mp hfind
      cases step with
      | key k => cases hchild
      | index i => exact hall child (List.mem_of_getElem? hchild) path found hrest

/-- Strings are proper. -/
@[simp] theorem proper_string (text : String) : (Value.string text : Value Leaf).Proper := by
  intro path entries hfind
  cases path <;> cases hfind

/-- Leaves are proper. -/
@[simp] theorem proper_leaf (content : Leaf) : (Value.leaf content).Proper := by
  intro path entries hfind
  cases path <;> cases hfind

end Paths

section Walks

variable {s : Substitution}

/-- A string is replaced and everything else stays. -/
inductive Replaced (s : Substitution) : Shape Leaf → Shape Leaf → Prop
  /-- A string on which `SubstituteString` succeeds. -/
  | string {text result : String} (h : s.substituteString text = .ok result) :
      Replaced s (.string text) (.string result)
  /-- The keys stay. -/
  | map (keys : Finset String) : Replaced s (.map keys) (.map keys)
  /-- The length stays. -/
  | slice (length : ℕ) : Replaced s (.slice length) (.slice length)
  /-- The value stays. -/
  | leaf (content : Leaf) : Replaced s (.leaf content) (.leaf content)

/-- An error with the path of every level that it has passed. -/
def wrapPath (parentPath : String) : List Step → GoError → GoError
  | [], err => err
  | step :: path, err =>
    .wrapped (parentPath ++ step.text) (wrapPath (parentPath ++ step.text) path err)

/-- A mapped result succeeds if the result does. -/
theorem map_eq_ok_iff {α β : Type} {f : α → β} {x : Except GoError α} {b : β} :
    x.map f = .ok b ↔ ∃ a, x = .ok a ∧ f a = b := by
  cases x <;> simp [Except.map]

/-- It fails with the same error. -/
theorem map_eq_error_iff {α β : Type} {f : α → β} {x : Except GoError α} {err : GoError} :
    x.map f = .error err ↔ x = .error err := by
  cases x <;> simp [Except.map]

/-- A substituted map has the same keys in the same order, with substituted values. -/
theorem substituteMapAt_ok {entries result : List (String × Value Leaf)} {path : String}
    (h : s.substituteMapAt entries path = .ok result) :
    List.Forall₂ (fun e e' => e.1 = e'.1 ∧ ∃ path, s.substitute e.2 path = .ok e'.2)
      entries result := by
  induction entries generalizing result with
  | nil =>
    cases h
    exact .nil
  | cons e entries ih =>
    rw [Substitution.substituteMapAt] at h
    split at h
    · cases h
    · next v hv =>
      obtain ⟨rest, hrest, rfl⟩ := map_eq_ok_iff.mp h
      exact .cons ⟨rfl, _, hv⟩ (ih hrest)

/-- A substitution in a map fails with the error of one of its entries, wrapped with the path of
that entry. -/
theorem substituteMapAt_error {entries : List (String × Value Leaf)} {path : String} {err : GoError}
    (h : s.substituteMapAt entries path = .error err) :
    ∃ k v cause, (k, v) ∈ entries ∧ s.substitute v (path ++ (Step.key k).text) = .error cause ∧
      err = .wrapped (path ++ (Step.key k).text) cause := by
  induction entries with
  | nil => cases h
  | cons e entries ih =>
    rw [Substitution.substituteMapAt] at h
    split at h
    · next cause hcause =>
      cases h
      exact ⟨e.1, e.2, cause, List.mem_cons_self, hcause, rfl⟩
    · obtain ⟨k, v, cause, hmem, hv, rfl⟩ := ih (map_eq_error_iff.mp h)
      exact ⟨k, v, cause, List.mem_cons_of_mem e hmem, hv, rfl⟩

/-- A substituted slice has as many items, each of them substituted. -/
theorem substituteSlice_ok {items result : List (Value Leaf)} {i : ℕ} {path : String}
    (h : s.substituteSlice items i path = .ok result) :
    List.Forall₂ (fun v v' => ∃ path, s.substitute v path = .ok v') items result := by
  induction items generalizing i result with
  | nil =>
    cases h
    exact .nil
  | cons v items ih =>
    rw [Substitution.substituteSlice] at h
    split at h
    · cases h
    · next v' hv =>
      obtain ⟨rest, hrest, rfl⟩ := map_eq_ok_iff.mp h
      exact .cons ⟨_, hv⟩ (ih hrest)

/-- A substitution in a slice fails with the error of one of its items, wrapped with the path of
that item. -/
theorem substituteSlice_error {items : List (Value Leaf)} {i : ℕ} {path : String} {err : GoError}
    (h : s.substituteSlice items i path = .error err) :
    ∃ j v cause, items[j]? = some v ∧
      s.substitute v (path ++ (Step.index (i + j)).text) = .error cause ∧
      err = .wrapped (path ++ (Step.index (i + j)).text) cause := by
  induction items generalizing i with
  | nil => cases h
  | cons v items ih =>
    rw [Substitution.substituteSlice] at h
    split at h
    · next cause hcause =>
      cases h
      exact ⟨0, v, cause, rfl, hcause, rfl⟩
    · obtain ⟨j, v, cause, hj, hv, rfl⟩ := ih (map_eq_error_iff.mp h)
      have hindex : i + 1 + j = i + (j + 1) := by omega
      rw [hindex] at hv ⊢
      exact ⟨j + 1, v, cause, hj, hv, rfl⟩

/-- Entries with the same keys and related values have related lookups. -/
theorem rel_lookup {R : Value Leaf → Value Leaf → Prop} {entries result : List (String × Value Leaf)}
    (h : List.Forall₂ (fun e e' => e.1 = e'.1 ∧ R e.2 e'.2) entries result) (k : String) :
    Option.Rel R (entries.lookup k) (result.lookup k) := by
  induction h with
  | nil => exact .none
  | @cons e e' entries result hhead _ ih =>
    rw [List.lookup_cons, List.lookup_cons, ← hhead.1]
    split
    · exact .some hhead.2
    · exact ih

/-- Items at the same index are related. -/
theorem rel_getElem? {R : Value Leaf → Value Leaf → Prop} {items result : List (Value Leaf)}
    (h : List.Forall₂ R items result) (i : ℕ) : Option.Rel R items[i]? result[i]? := by
  induction h generalizing i with
  | nil => exact .none
  | cons hhead _ ih =>
    cases i with
    | zero => exact .some hhead
    | succ i => exact ih i

/-- Maps with the same keys entry by entry have the same keys. -/
theorem keys_eq {entries result : List (String × Value Leaf)}
    (h : List.Forall₂ (fun e e' => e.1 = e'.1) entries result) :
    entries.map Prod.fst = result.map Prod.fst := by
  induction h with
  | nil => rfl
  | cons hhead _ ih => rw [List.map_cons, List.map_cons, hhead, ih]

/-- Where the children of a value are replaced, everything below it is. -/
theorem rel_look_cons {v r : Value Leaf} {step : Step} {path : List Step}
    (hchild : Option.Rel (fun a b => Option.Rel (Replaced s) (a.look path) (b.look path))
      (v.child step) (r.child step)) :
    Option.Rel (Replaced s) (v.look (step :: path)) (r.look (step :: path)) := by
  rw [look_cons, look_cons]
  generalize v.child step = a at hchild ⊢
  generalize r.child step = b at hchild ⊢
  cases hchild with
  | none => exact .none
  | some h => exact h

/-- A successful substitution replaces the strings and keeps the structure. -/
theorem substitute_ok {v r : Value Leaf} {path : String} (h : s.substitute v path = .ok r)
    (steps : List Step) : Option.Rel (Replaced s) (v.look steps) (r.look steps) := by
  induction v using Value.nestedInduction generalizing r path steps with
  | string text =>
    obtain ⟨result, hresult, rfl⟩ := map_eq_ok_iff.mp h
    cases steps with
    | nil => exact .some (.string hresult)
    | cons step steps => exact .none
  | leaf content =>
    cases h
    cases steps with
    | nil => exact .some (.leaf content)
    | cons step steps => exact .none
  | map entries ih =>
    obtain ⟨result, hresult, rfl⟩ := map_eq_ok_iff.mp h
    have hentries := substituteMapAt_ok hresult
    cases steps with
    | nil =>
      have hkeys := keys_eq (hentries.imp fun _ _ hentry => hentry.1)
      rw [look_nil, look_nil, Value.shape, Value.shape, hkeys]
      exact .some (.map _)
    | cons step steps =>
      apply rel_look_cons
      cases step with
      | index i => exact .none
      | key k =>
        have hboth := (List.forall₂_and_left _ _).mpr ⟨ih, hentries⟩
        refine rel_lookup (hboth.imp fun e e' hentry => ?_) k
        obtain ⟨hvalue, hkey, subpath, hsub⟩ := hentry
        exact ⟨hkey, hvalue hsub steps⟩
  | slice items ih =>
    obtain ⟨result, hresult, rfl⟩ := map_eq_ok_iff.mp h
    have hitems := substituteSlice_ok hresult
    cases steps with
    | nil =>
      rw [look_nil, look_nil, Value.shape, Value.shape, hitems.length_eq]
      exact .some (.slice _)
    | cons step steps =>
      apply rel_look_cons
      cases step with
      | key k => exact .none
      | index i =>
        have hboth := (List.forall₂_and_left _ _).mpr ⟨ih, hitems⟩
        refine rel_getElem? (hboth.imp fun v v' hitem => ?_) i
        obtain ⟨hvalue, subpath, hsub⟩ := hitem
        exact hvalue hsub steps

/-- A failing substitution returns the error of a string, with the paths that lead to it. -/
theorem substitute_error {v : Value Leaf} (hproper : v.Proper) {path : String} {err : GoError}
    (h : s.substitute v path = .error err) :
    ∃ steps text cause, v.look steps = some (.string text) ∧
      s.substituteString text = .error cause ∧ err = wrapPath path steps cause := by
  induction v using Value.nestedInduction generalizing path err with
  | string text => exact ⟨[], text, err, rfl, map_eq_error_iff.mp h, rfl⟩
  | leaf content => cases h
  | map entries ih =>
    obtain ⟨k, v, cause, hmem, hv, rfl⟩ := substituteMapAt_error (map_eq_error_iff.mp h)
    have hchild := hproper.child_of_mem hmem
    obtain ⟨steps, text, cause, hlook, htext, rfl⟩ := ih (k, v) hmem (hproper.child hchild) hv
    refine ⟨.key k :: steps, text, cause, ?_, htext, rfl⟩
    rw [look_cons, hchild]
    exact hlook
  | slice items ih =>
    obtain ⟨i, v, cause, hi, hv, rfl⟩ := substituteSlice_error (map_eq_error_iff.mp h)
    rw [Nat.zero_add] at hv ⊢
    have hchild : (Value.slice items).child (.index i) = some v := hi
    have hmem : v ∈ items := List.mem_of_getElem? hi
    obtain ⟨steps, text, cause, hlook, htext, rfl⟩ := ih v hmem (hproper.child hchild) hv
    refine ⟨.index i :: steps, text, cause, ?_, htext, rfl⟩
    rw [look_cons, hchild]
    exact hlook

end Walks

section Templates

variable {s : Substitution} {tpl tpl' : List (String × Value Leaf)}

/-- Along every path the substituted template has what the template has, with strings replaced. -/
theorem substituteMap_ok {r : List (String × Value Leaf)} (h : s.substituteMap tpl = .ok r)
    (steps : List Step) :
    Option.Rel (Replaced s) ((Value.map tpl).look steps) ((Value.map r).look steps) := by
  have hmap : s.substitute (.map tpl) "" = .ok (.map r) := map_eq_ok_iff.mpr ⟨r, h, rfl⟩
  exact substitute_ok hmap steps

/-- A failing substitution reports the path to a string that cannot be substituted. -/
theorem substituteMap_error (hproper : (Value.map tpl).Proper) {err : GoError}
    (h : s.substituteMap tpl = .error err) :
    ∃ steps text cause, (Value.map tpl).look steps = some (.string text) ∧
      s.substituteString text = .error cause ∧ err = wrapPath "" steps cause := by
  have hmap : s.substitute (.map tpl) "" = .error err := map_eq_error_iff.mpr h
  exact substitute_error hproper hmap

/-- Substitution succeeds exactly if it succeeds on every string. -/
theorem substituteMap_succeeds_iff (hproper : (Value.map tpl).Proper) :
    (∃ r, s.substituteMap tpl = .ok r) ↔
      ∀ steps text, (Value.map tpl).look steps = some (.string text) →
        ∃ result, s.substituteString text = .ok result := by
  constructor
  · rintro ⟨r, hr⟩ steps text hlook
    have hrel := substituteMap_ok hr steps
    rw [hlook] at hrel
    generalize (Value.map r).look steps = found at hrel
    cases hrel with
    | some hreplaced =>
      cases hreplaced with
      | string htext => exact ⟨_, htext⟩
  · intro hall
    cases hresult : s.substituteMap tpl with
    | ok r => exact ⟨r, rfl⟩
    | error err =>
      obtain ⟨steps, text, cause, hlook, hcause, -⟩ := substituteMap_error hproper hresult
      obtain ⟨result, htext⟩ := hall steps text hlook
      rw [hcause] at htext
      cases htext

/-- A shape has one replacement. -/
theorem Replaced.unique {a b c : Shape Leaf} (hb : Replaced s a b) (hc : Replaced s a c) : b = c := by
  cases hb with
  | string hb =>
    cases hc with
    | string hc =>
      rw [hb, Except.ok.injEq] at hc
      rw [hc]
  | map keys => cases hc; rfl
  | slice length => cases hc; rfl
  | leaf content => cases hc; rfl

/-- There is one way to replace what is found along a path. -/
theorem rel_replaced_unique {a b c : Option (Shape Leaf)} (hb : Option.Rel (Replaced s) a b)
    (hc : Option.Rel (Replaced s) a c) : b = c := by
  cases hb with
  | none =>
    cases hc
    rfl
  | some hb =>
    cases hc with
    | some hc => rw [hb.unique hc]

/-- Substitution preserves the structure of nested templates. Whatever the order in which
maps are iterated, it succeeds exactly if it succeeds on every string at every depth; the
result has the same keys in every map, the same length of every slice, every string
replaced and every other leaf as it was; a failure returns the error of a string and no
map; and neither the success nor the result depends on the order of the iterations. -/
theorem substituteMap_preserves_structure (s : Substitution) (tpl : List (String × Value Leaf))
    (hproper : (Value.map tpl).Proper) :
    ((∃ r, s.substituteMap tpl = .ok r) ↔
      ∀ steps text, (Value.map tpl).look steps = some (.string text) →
        ∃ result, s.substituteString text = .ok result) ∧
    (∀ r, s.substituteMap tpl = .ok r → ∀ steps,
      Option.Rel (Replaced s) ((Value.map tpl).look steps) ((Value.map r).look steps)) ∧
    (∀ err, s.substituteMap tpl = .error err →
      ∃ steps text cause, (Value.map tpl).look steps = some (.string text) ∧
        s.substituteString text = .error cause ∧ err = wrapPath "" steps cause) ∧
    ∀ tpl', (Value.map tpl').Proper →
      (∀ steps, (Value.map tpl).look steps = (Value.map tpl').look steps) →
      ((∃ r, s.substituteMap tpl = .ok r) ↔ ∃ r, s.substituteMap tpl' = .ok r) ∧
      ∀ r r', s.substituteMap tpl = .ok r → s.substituteMap tpl' = .ok r' →
        ∀ steps, (Value.map r).look steps = (Value.map r').look steps := by
  refine ⟨substituteMap_succeeds_iff hproper, fun r hr => substituteMap_ok hr,
    fun err herr => substituteMap_error hproper herr, fun tpl' hproper' hsame => ⟨?_, ?_⟩⟩
  · rw [substituteMap_succeeds_iff hproper, substituteMap_succeeds_iff hproper']
    simp only [hsame]
  · intro r r' hr hr' steps
    have hrel := substituteMap_ok hr steps
    rw [hsame steps] at hrel
    exact rel_replaced_unique hrel (substituteMap_ok hr' steps)

/-- Strings stay, but a marked one has no substitution. -/
def sampleSubstitution : Substitution :=
  ⟨fun text => if text = "$\x7bUNDEFINED\x7d" then .error (.text "variable not set") else .ok (text ++ "!")⟩

/-- A nested template with leaves of several kinds. -/
def sampleTemplate : List (String × Value ℤ) :=
  [("name", .string "a"), ("list", .slice [.leaf 1, .map [("value", .string "b")]])]

/-- The sample template is substituted, and a nested string is found at its place. -/
theorem substituteMap_preserves_structure_sample :
    (∃ r, sampleSubstitution.substituteMap sampleTemplate = .ok r) ∧
      ∀ r, sampleSubstitution.substituteMap sampleTemplate = .ok r →
        Option.Rel (Replaced sampleSubstitution) (some (.string "b"))
          ((Value.map r).look [.key "list", .index 1, .key "value"]) := by
  have hstructure := substituteMap_preserves_structure sampleSubstitution sampleTemplate
    (by simp [sampleTemplate])
  exact ⟨⟨_, rfl⟩, fun r hr => hstructure.2.1 r hr [.key "list", .index 1, .key "value"]⟩

end Templates

end K8StorageX.TemplateValues
