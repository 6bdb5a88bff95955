import K8StorageX.ProvisionerRegistry

/-!
# Placeholders of a storage provisioner

A template is text with variables. `envsubst` replaces the variables and fails exactly on
malformed templates and on variables that are undefined or empty. `utils.Substitute`
applies it to every string of a provisioner. Whether that succeeds depends on the
templates only, as long as all values are there.
-/

namespace K8StorageX.Placeholders

open KubeObjects ProvisionerPods ProvisionerRegistry

section Templates

/-- A part of a template. -/
inductive Part where
  /-- Text that stays as it is. -/
  | text (content : String)
  /-- A variable that is replaced by its value. -/
  | variable (name : String)
  deriving DecidableEq, Repr

/-- The parser of `envsubst`. -/
structure Envsubst where
  /-- The parts of a template, unless it is malformed. -/
  parse : String → Option (List Part)
  /-- Without a dollar sign there are no variables. -/
  parse_plain : ∀ tpl, '$' ∉ tpl.toList → parse tpl = some [.text tpl]

/-- The value of a part. Variables must be set (`NoUnset`) and not empty (`NoEmpty`). -/
def Part.value (values : String → Option String) : Part → Option String
  | .text content => some content
  | .variable name => (values name).filter (· ≠ "")

/-- Replace the variables of a list of parts. -/
def expand (values : String → Option String) : List Part → Option String
  | [] => some ""
  | part :: parts => (part.value values).bind fun value => (expand values parts).map (value ++ ·)

/-- `Substitution.SubstituteString` -/
def Envsubst.substituteString (e : Envsubst) (values : String → Option String) (tpl : String) :
    Option String :=
  (e.parse tpl).bind (expand values)

/-- An expansion succeeds if all its parts have values. -/
theorem expand_isSome_iff (values : String → Option String) (parts : List Part) :
    (expand values parts).isSome ↔ ∀ part ∈ parts, (part.value values).isSome := by
  induction parts with
  | nil => simp [expand]
  | cons part parts ih =>
    rw [List.forall_mem_cons, ← ih, expand]
    cases part.value values <;> simp

/-- The result is empty only if all parts are. -/
theorem expand_eq_empty_iff {values : String → Option String} {parts : List Part} {result : String}
    (h : expand values parts = some result) :
    result = "" ↔ ∀ part ∈ parts, part.value values = some "" := by
  induction parts generalizing result with
  | nil =>
    cases h
    simp
  | cons part parts ih =>
    rw [expand, Option.bind_eq_some_iff] at h
    obtain ⟨value, hvalue, h⟩ := h
    obtain ⟨rest, hrest, rfl⟩ := Option.map_eq_some_iff.mp h
    rw [List.forall_mem_cons, ← ih hrest, hvalue, String.append_eq_empty_iff, Option.some.injEq]

/-- A result that is shorter than all values has no variables in it, so it is the same with
other values. -/
theorem expand_of_short {values : String → Option String} {n : ℕ}
    (hlong : ∀ name value, values name = some value → n < value.length) {parts : List Part}
    {result : String} (h : expand values parts = some result) (hshort : result.length ≤ n)
    (values' : String → Option String) : expand values' parts = some result := by
  induction parts generalizing result with
  | nil => exact h
  | cons part parts ih =>
    rw [expand, Option.bind_eq_some_iff] at h
    obtain ⟨value, hvalue, h⟩ := h
    obtain ⟨rest, hrest, rfl⟩ := Option.map_eq_some_iff.mp h
    rw [String.length_append] at hshort
    cases part with
    | text content =>
      have hsame := ih hrest (by omega)
      rw [expand, Part.value, Option.bind_some, hsame, Option.map_some]
      cases hvalue
      rfl
    | «variable» name =>
      -- the value of a variable would be too long
      have hlength := hlong name value (Option.filter_eq_some_iff.mp hvalue).1
      omega

/-- The same variables have a value. -/
def SameVariables (values values' : String → Option String) : Prop :=
  ∀ name, ((values name).filter (· ≠ "")).isSome ↔ ((values' name).filter (· ≠ "")).isSome

variable {e : Envsubst} {values values' : String → Option String} {tpl : String}

/-- A part has a value under both or under none. -/
theorem SameVariables.value (h : SameVariables values values') (part : Part) :
    (part.value values).isSome ↔ (part.value values').isSome := by
  cases part with
  | text content => simp [Part.value]
  | «variable» name => exact h name

/-- Whether a template can be expanded depends on which variables have a value. -/
theorem SameVariables.substituteString (h : SameVariables values values') :
    (e.substituteString values tpl).isSome ↔ (e.substituteString values' tpl).isSome := by
  unfold Envsubst.substituteString
  cases e.parse tpl with
  | none => simp
  | some parts => simp only [Option.bind_some, expand_isSome_iff, h.value]

/-- Only an empty text expands to nothing. -/
theorem Part.value_eq_empty_iff (part : Part) : part.value values = some "" ↔ part = .text "" := by
  cases part with
  | text content => simp [Part.value]
  | «variable» name => simp [Part.value, Option.filter_eq_some_iff]

/-- Whether a template becomes empty does not depend on the values. -/
theorem Envsubst.substituteString_empty {result result' : String}
    (h : e.substituteString values tpl = some result)
    (h' : e.substituteString values' tpl = some result') : result = "" ↔ result' = "" := by
  obtain ⟨parts, hparts, hexpand⟩ := Option.bind_eq_some_iff.mp h
  obtain ⟨parts', hparts', hexpand'⟩ := Option.bind_eq_some_iff.mp h'
  have heq : parts = parts' := Option.some.inj (hparts.symm.trans hparts')
  subst heq
  simp only [expand_eq_empty_iff hexpand, expand_eq_empty_iff hexpand', Part.value_eq_empty_iff]

/-- Text without a dollar sign stays as it is. -/
theorem Envsubst.substituteString_plain (e : Envsubst) (values : String → Option String)
    (h : '$' ∉ tpl.toList) : e.substituteString values tpl = some tpl := by
  simp [Envsubst.substituteString, e.parse_plain tpl h, expand, Part.value]

end Templates

section Provisioners

/-- Change the strings of a variable. -/
def mapEnvVar (g : String → String) (v : EnvVar) : EnvVar := ⟨g v.name, g v.value⟩

/-- Change the strings of a container. -/
def mapContainer (g : String → String) (c : Container) : Container :=
  ⟨g c.name, g c.image, c.command.map g, c.args.map g, c.env.map (mapEnvVar g)⟩

/-- Change the strings of a provisioner container. The conversion to a map and back drops
an empty command. -/
def mapProvisionerContainer (g : String → String) (c : ProvisionerContainer) :
    ProvisionerContainer :=
  ⟨(c.command.filter (· ≠ [])).map (List.map g), c.env.map (mapEnvVar g)⟩

/-- Change the strings of the template of the volumes. -/
def mapVolumeTemplate (g : String → String) (v : PersistentVolumeSpec) : PersistentVolumeSpec :=
  { v with
    storageClassName := g v.storageClassName
    claimRef := v.claimRef.map fun ref =>
      { ref with key := ⟨g ref.key.namespaceName, g ref.key.name⟩ } }

/-- Change the strings of the template of the Pods. -/
def mapPodTemplate (g : String → String) (t : PodSpec) : PodSpec :=
  { t with
    containers := t.containers.map (mapContainer g)
    volumes := t.volumes.map fun v => { v with claimName := v.claimName.map g } }

/-- Change the strings of a provisioner. -/
def mapStrings (g : String → String) (p : StorageProvisioner) : StorageProvisioner where
  key := ⟨g p.key.namespaceName, g p.key.name⟩
  spec := { p.spec with
    name := g p.spec.name
    persistentVolumeTemplate := mapVolumeTemplate g p.spec.persistentVolumeTemplate
    podTemplate := mapPodTemplate g p.spec.podTemplate
    provisioner := mapProvisionerContainer g p.spec.provisioner
    deprovisioner := mapProvisionerContainer g p.spec.deprovisioner
    env := p.spec.env.map fun m => ⟨g m.name, g m.annotation, m.required⟩
    nodes := p.spec.nodes.map fun n => ⟨g n.name, g n.path⟩ }

/-- The strings of variables. -/
def envStrings (env : List EnvVar) : List String := env.flatMap fun v => [v.name, v.value]

/-- The strings of a container. -/
def containerStrings (c : Container) : List String :=
  c.name :: c.image :: (c.command ++ c.args ++ envStrings c.env)

/-- The strings of a provisioner container. -/
def provisionerContainerStrings (c : ProvisionerContainer) : List String :=
  c.command.getD [] ++ envStrings c.env

/-- The strings of a provisioner. -/
def strings (p : StorageProvisioner) : List String :=
  [p.key.namespaceName, p.key.name, p.spec.name, p.spec.persistentVolumeTemplate.storageClassName] ++
    (p.spec.persistentVolumeTemplate.claimRef.elim [] fun ref =>
      [ref.key.namespaceName, ref.key.name]) ++
    p.spec.podTemplate.containers.flatMap containerStrings ++
    p.spec.podTemplate.volumes.filterMap (·.claimName) ++
    provisionerContainerStrings p.spec.provisioner ++
    provisionerContainerStrings p.spec.deprovisioner ++
    (p.spec.env.flatMap fun m => [m.name, m.annotation]) ++
    p.spec.nodes.flatMap fun n => [n.name, n.path]

/-- The variables of `SubstituteProvisionerPlaceholders`. -/
def paramValues (params : ProvisionerParams) (name : String) : Option String :=
  if name = "STORAGE_NODE_NAME" then some params.nodeName
  else if name = "STORAGE_NODE_PATH" then some params.nodePath
  else if name = "STORAGE_PV_NAME" then some params.persistentVolumeName
  else if name = "STORAGE_PVC_NAME" then some params.persistentVolumeClaim.name
  else if name = "STORAGE_PVC_NAMESPACE" then some params.persistentVolumeClaim.namespaceName
  else none

/-- All values are there. -/
structure Complete (params : ProvisionerParams) : Prop where
  /-- The node has a name. -/
  nodeName : params.nodeName ≠ ""
  /-- The node has a path. -/
  nodePath : params.nodePath ≠ ""
  /-- The volume has a name. -/
  persistentVolumeName : params.persistentVolumeName ≠ ""
  /-- The claim has a name. -/
  claimName : params.persistentVolumeClaim.name ≠ ""
  /-- The claim has a namespace. -/
  claimNamespace : params.persistentVolumeClaim.namespaceName ≠ ""

/-- The string a substitution leaves. -/
def replaced (e : Envsubst) (params : ProvisionerParams) (s : String) : String :=
  (e.substituteString (paramValues params) s).getD s

/-- `Substitute` replaces every string of a provisioner, and fails if one of them fails. -/
def SubstitutesWith (cfg : Config) (e : Envsubst) : Prop :=
  ∀ p params q, cfg.substitute p params = .ok q ↔
    (∀ s ∈ strings p, (e.substituteString (paramValues params) s).isSome) ∧
      q = mapStrings (replaced e params) p

/-- The test values are complete. -/
theorem complete_testParams : Complete testParams := by
  constructor <;> decide

/-- Complete values are values of the same variables. -/
theorem Complete.sameVariables {params params' : ProvisionerParams} (h : Complete params)
    (h' : Complete params') : SameVariables (paramValues params) (paramValues params') := by
  intro name
  unfold paramValues
  split
  · simp [h.nodeName, h'.nodeName]
  split
  · simp [h.nodePath, h'.nodePath]
  split
  · simp [h.persistentVolumeName, h'.persistentVolumeName]
  split
  · simp [h.claimName, h'.claimName]
  split
  · simp [h.claimNamespace, h'.claimNamespace]
  · rfl

variable {cfg : Config} {e : Envsubst} {p q : StorageProvisioner} {params params' : ProvisionerParams}

/-- A substitution succeeds if all strings can be substituted, and replaces all of them. -/
theorem substitutePlaceholders_iff (hsub : SubstitutesWith cfg e) :
    substituteProvisionerPlaceholders cfg p params = .ok q ↔
      (∀ s ∈ strings p, (e.substituteString (paramValues params) s).isSome) ∧
        q = mapStrings (replaced e params) p := by
  have hiff := hsub p params q
  unfold substituteProvisionerPlaceholders
  cases hsubstitute : cfg.substitute p params with
  | error text => simpa [hsubstitute, Except.mapError] using hiff
  | ok q' => simpa [hsubstitute, Except.mapError] using hiff

/-- A substitution that succeeds with some complete values succeeds with all of them. -/
theorem substitutePlaceholders_of_complete (hsub : SubstitutesWith cfg e) (h : Complete params)
    (h' : Complete params') (hok : substituteProvisionerPlaceholders cfg p params = .ok q) :
    substituteProvisionerPlaceholders cfg p params' = .ok (mapStrings (replaced e params') p) := by
  obtain ⟨hall, -⟩ := (substitutePlaceholders_iff hsub).mp hok
  refine (substitutePlaceholders_iff hsub).mpr ⟨fun s hs => ?_, rfl⟩
  exact (h.sameVariables h').substituteString.mp (hall s hs)

/-- A string of a provisioner becomes empty under all complete values or under none. -/
theorem replaced_eq_empty_iff (h : Complete params) (h' : Complete params') {s : String}
    (hs : (e.substituteString (paramValues params) s).isSome) :
    replaced e params s = "" ↔ replaced e params' s = "" := by
  obtain ⟨result, hresult⟩ := Option.isSome_iff_exists.mp hs
  obtain ⟨result', hresult'⟩ :=
    Option.isSome_iff_exists.mp ((h.sameVariables h').substituteString.mp hs)
  rw [replaced, replaced, hresult, hresult', Option.getD_some, Option.getD_some]
  exact Envsubst.substituteString_empty hresult hresult'

/-- The test values are longer than the name of the main container. -/
theorem length_testParams {name value : String} (h : paramValues testParams name = some value) :
    "main".length < value.length := by
  unfold paramValues at h
  split at h
  · cases h
    decide
  split at h
  · cases h
    decide
  split at h
  · cases h
    decide
  split at h
  · cases h
    decide
  split at h
  · cases h
    decide
  · cases h

/-- A string that the test values make the name of the main container is that name with all
values. -/
theorem replaced_eq_main {s : String} (hs : (e.substituteString (paramValues testParams) s).isSome)
    (h : replaced e testParams s = "main") (params : ProvisionerParams) :
    replaced e params s = "main" := by
  obtain ⟨result, hresult⟩ := Option.isSome_iff_exists.mp hs
  rw [replaced, hresult, Option.getD_some] at h
  obtain ⟨parts, hparts, hexpand⟩ := Option.bind_eq_some_iff.mp hresult
  have hshort : result.length ≤ "main".length := by rw [h]
  have hsame := expand_of_short (fun _ _ => length_testParams) hexpand hshort (paramValues params)
  rw [replaced, Envsubst.substituteString, hparts, Option.bind_some, hsame, Option.getD_some, h]

/-- Strings without a dollar sign are not changed. -/
theorem replaced_plain {s : String} (h : '$' ∉ s.toList) : replaced e params s = s := by
  rw [replaced, e.substituteString_plain _ h, Option.getD_some]

/-- Substitution with a given parser. -/
def substituteAll (e : Envsubst) (p : StorageProvisioner) (params : ProvisionerParams) :
    Except String StorageProvisioner :=
  if (strings p).all fun s => (e.substituteString (paramValues params) s).isSome then
    .ok (mapStrings (replaced e params) p)
  else .error "variable is not set"

/-- Substituting string by string is such a substitution. -/
theorem substitutesWith_substituteAll (h : cfg.substitute = substituteAll e) :
    SubstitutesWith cfg e := by
  intro p params q
  rw [h, substituteAll, ← List.all_eq_true]
  cases (strings p).all fun s => (e.substituteString (paramValues params) s).isSome with
  | true => simp [eq_comm]
  | false => simp

/-- Read variables in braces, given what has been read of a name or of a text. -/
def scan : Option (List Char) → List Char → List Char → Option (List Part)
  | none, text, [] => some [.text (String.ofList text.reverse)]
  | none, text, '$' :: '{' :: rest =>
    (scan (some []) [] rest).map (.text (String.ofList text.reverse) :: ·)
  | none, text, c :: rest => if c = '$' then none else scan none (c :: text) rest
  | some _, _, [] => none
  | some name, _, c :: rest =>
    if c = '}' then (scan none [] rest).map (.variable (String.ofList name.reverse) :: ·)
    else scan (some (c :: name)) [] rest

/-- A text without a dollar sign is one part. -/
theorem scan_plain {text chars : List Char} (h : '$' ∉ chars) :
    scan none text chars = some [.text (String.ofList (text.reverse ++ chars))] := by
  induction chars generalizing text with
  | nil => simp [scan]
  | cons c chars ih =>
    have hc : c ≠ '$' := fun heq => h (heq ▸ List.mem_cons_self)
    have hrest : '$' ∉ chars := fun hmem => h (List.mem_cons_of_mem c hmem)
    have hscan : scan none text (c :: chars) = scan none (c :: text) chars := by
      simp [scan, hc]
    rw [hscan, ih hrest]
    simp

/-- The part of `envsubst` for variables in braces. -/
def bracedVariables : Envsubst where
  parse tpl := scan none [] tpl.toList
  parse_plain tpl h := by simp [scan_plain h]

example : bracedVariables.substituteString (paramValues testParams)
    "$\x7bSTORAGE_NODE_PATH\x7d/data" = some "/test-node-path/data" := by decide +kernel

end Provisioners

end K8StorageX.Placeholders
