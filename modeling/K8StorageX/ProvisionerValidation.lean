import K8StorageX.DeprovisionerPods
import K8StorageX.GoPatterns
import K8StorageX.Placeholders

/-!
# What the validation of provisioners guarantees

The registry accepts a provisioner after a dry run with test values. From that follow
the Pods that are made from it later with other values, and the host paths that are
looked up in it, as far as the dry run covers them.
-/

namespace K8StorageX.ProvisionerValidation

open GoErrors KubeObjects ProvisionerPods ProvisionerRegistry Placeholders DeprovisionerPods

section Checks

variable {cfg : Config} {p q : StorageProvisioner} {main : Container}

/-- The provisioner that is checked: the test values are substituted if that is possible. -/
def dryRun (cfg : Config) (p : StorageProvisioner) : StorageProvisioner :=
  match substituteProvisionerPlaceholders cfg p testParams with
  | .error _ => p
  | .ok substituted => substituted

/-- What `validateProvisioner` checks after the substitution. -/
structure Checked (cfg : Config) (q : StorageProvisioner) : Prop where
  /-- The provisioner Pod can be made. -/
  pod : ∃ pod, (newProvisionerPod ⟨"test-namespace", "test-pod"⟩ q q.spec.provisioner []).1 = .ok pod
  /-- The volumes have a mode. -/
  volumeMode : q.spec.persistentVolumeTemplate.volumeMode ≠ none
  /-- The variables have names and annotations. -/
  env : validateEnv 0 q.spec.env = none
  /-- There are nodes. -/
  someNode : q.spec.nodes ≠ []
  /-- The nodes have patterns and paths. -/
  nodes : validateNodes cfg 0 q.spec.nodes = none

/-- An accepted provisioner has passed the checks of the dry run. -/
theorem checked_of_accepted (h : validateProvisioner cfg p = none) : Checked cfg (dryRun cfg p) := by
  generalize hq : dryRun cfg p = q
  unfold dryRun at hq
  unfold validateProvisioner at h
  -- the same is checked whether or not the test values can be substituted
  cases hsub : substituteProvisionerPlaceholders cfg p testParams
  all_goals
    rw [hsub] at h hq
    dsimp only at h hq
    rw [hq] at h
    cases hpod : newProvisionerPod ⟨"test-namespace", "test-pod"⟩ q q.spec.provisioner [] with
    | mk result left =>
      have hfst := congrArg Prod.fst hpod
      have hsnd := congrArg Prod.snd hpod
      rw [hpod] at h
      cases result with
      | error e => cases h
      | ok pod =>
        obtain ⟨main, hmain, -⟩ := newProvisionerPod_ok hfst
        -- only the containers of the template have changed
        rw [newProvisionerPod_snd hmain] at hsnd
        dsimp only at h hsnd
        subst hsnd
        split at h
        · cases h
        · rename_i hmode
          split at h
          · cases h
          · rename_i henv
            split at h
            · cases h
            · rename_i hnodes
              exact ⟨⟨pod, hfst⟩, hmode, henv, hnodes, h⟩

/-- A Pod can be made from a main container with an image, a command and no arguments. -/
theorem newProvisionerPod_succeeds (hmain : mainContainer q = some main) (himage : main.image ≠ "")
    (hargs : main.args = []) (podName : ObjectKey) {container : ProvisionerContainer}
    (hcommand : container.command.getD main.command ≠ []) (env : List EnvVar) :
    ∃ pod, (newProvisionerPod podName q container env).1 = .ok pod := by
  have hcontainers := newProvisionerPod_containers hmain himage hargs podName container env
  rw [if_neg hcommand] at hcontainers
  cases hresult : (newProvisionerPod podName q container env).1 with
  | error e =>
    rw [hresult] at hcontainers
    cases hcontainers
  | ok pod => exact ⟨pod, rfl⟩

end Checks

section PodConstruction

variable {cfg : Config} {e : Envsubst} {p q : StorageProvisioner} {main : Container}
variable {params : ProvisionerParams}

/-- What is left of a container that is written as JSON: an empty command is omitted. -/
def readBackContainer (c : ProvisionerContainer) : ProvisionerContainer :=
  { c with command := c.command.filter (· ≠ []) }

/-- The provisioner that is read from the stored spec. -/
def readBack (p : StorageProvisioner) : StorageProvisioner :=
  { p with spec := { p.spec with
      provisioner := readBackContainer p.spec.provisioner
      deprovisioner := readBackContainer p.spec.deprovisioner } }

/-- For all values and variables the placeholders can be substituted, the provisioner Pod
can be made, and the deprovisioner Pod from what has been stored then. -/
def ConstructsPods (cfg : Config) (p : StorageProvisioner) : Prop :=
  ∀ params, Complete params → ∃ q, substituteProvisionerPlaceholders cfg p params = .ok q ∧
    ∀ podName env,
      (∃ pod, (newProvisionerPod podName q q.spec.provisioner env).1 = .ok pod) ∧
      ∀ stored, stored = readBack (newProvisionerPod podName q q.spec.provisioner env).2 →
        ∀ podName' env',
          ∃ pod, (newProvisionerPod podName' stored stored.spec.deprovisioner env').1 = .ok pod

/-- The container that is called main once the values are substituted. -/
def mainContainerWith (e : Envsubst) (params : ProvisionerParams) (p : StorageProvisioner) :
    Option Container :=
  p.spec.podTemplate.containers.find? fun c => replaced e params c.name == "main"

/-- A container of the template that the provisioner Pod can be made from. -/
structure Usable (e : Envsubst) (p : StorageProvisioner) (c : Container) : Prop where
  /-- The image is not empty with the test values. -/
  image : replaced e testParams c.image ≠ ""
  /-- There are no arguments. -/
  args : c.args = []
  /-- There is a command, of the provisioner or of the container. -/
  command : (readBackContainer p.spec.provisioner).command.getD c.command ≠ []

/-- There is a command if the container has one. -/
theorem getD_command_ne_nil (c : ProvisionerContainer) {command : List String} (h : command ≠ []) :
    (readBackContainer c).command.getD command ≠ [] := by
  unfold readBackContainer
  cases hc : c.command with
  | none => exact h
  | some commands =>
    by_cases hnil : commands = []
    · simpa [Option.filter, hnil] using h
    · simp [Option.filter, hnil]

/-- After the provisioner Pod, the deprovisioner Pod can be made as well: it has the command
of the provisioner unless it has one of its own. -/
theorem deprovisioner_succeeds {podName : ObjectKey} {env : List EnvVar} {pod : Pod}
    (h : (newProvisionerPod podName q q.spec.provisioner env).1 = .ok pod) {stored : StorageProvisioner}
    (hstored : stored = readBack (newProvisionerPod podName q q.spec.provisioner env).2)
    (podName' : ObjectKey) (env' : List EnvVar) :
    ∃ pod, (newProvisionerPod podName' stored stored.spec.deprovisioner env').1 = .ok pod := by
  obtain ⟨main, hmain, himage, hargs, hcommand⟩ := newProvisionerPod_ok h
  rw [newProvisionerPod_snd hmain] at hstored
  subst hstored
  have hname : main.name = "main" := by simpa using List.find?_some hmain
  have hstoredMain : mainContainer (readBack (withMain q
      (mergedContainer main q.spec.provisioner env))) =
        some (mergedContainer main q.spec.provisioner env) :=
    find_modifyContainer hmain hname
  exact newProvisionerPod_succeeds hstoredMain himage hargs podName'
    (getD_command_ne_nil q.spec.deprovisioner hcommand) env'

/-- The main container of the substituted provisioner. -/
theorem mainContainer_mapStrings :
    mainContainer (mapStrings (replaced e params) p) =
      (mainContainerWith e params p).map (mapContainer (replaced e params)) :=
  List.find?_map ..

/-- The name and the image of a container are strings of the provisioner. -/
theorem mem_strings_of_container {c : Container} (h : c ∈ p.spec.podTemplate.containers) :
    c.name ∈ strings p ∧ c.image ∈ strings p := by
  have hstrings : ∀ s ∈ containerStrings c, s ∈ strings p := by
    intro s hs
    have hcontainer : s ∈ p.spec.podTemplate.containers.flatMap containerStrings :=
      List.mem_flatMap.mpr ⟨c, h, hs⟩
    simp [strings, hcontainer]
  exact ⟨hstrings _ (by simp [containerStrings]), hstrings _ (by simp [containerStrings])⟩

/-- Whether there is a command does not depend on the values. -/
theorem getD_mapProvisionerContainer_eq_nil (g : String → String) (c : ProvisionerContainer)
    (command : List String) :
    (mapProvisionerContainer g c).command.getD (command.map g) = [] ↔
      (readBackContainer c).command.getD command = [] := by
  unfold mapProvisionerContainer readBackContainer
  cases c.command.filter (· ≠ []) <;> simp

/-- The provisioner Pod can be made from the values if and only if the container that is called
main then is usable. -/
theorem provisioner_succeeds_iff (hparams : Complete params)
    (hall : ∀ s ∈ strings p, (e.substituteString (paramValues testParams) s).isSome)
    {main : Container} (hmain : mainContainerWith e params p = some main) (podName : ObjectKey)
    (env : List EnvVar) :
    (∃ pod, (newProvisionerPod podName (mapStrings (replaced e params) p)
      (mapStrings (replaced e params) p).spec.provisioner env).1 = .ok pod) ↔ Usable e p main := by
  have hmapped : mainContainer (mapStrings (replaced e params) p) =
      some (mapContainer (replaced e params) main) := by
    rw [mainContainer_mapStrings, hmain, Option.map_some]
  have hmem : main.image ∈ strings p :=
    (mem_strings_of_container (List.mem_of_find?_eq_some hmain)).2
  have himage := replaced_eq_empty_iff complete_testParams hparams (hall _ hmem)
  have hargs : (mapContainer (replaced e params) main).args = [] ↔ main.args = [] :=
    List.map_eq_nil_iff
  have hcommand := getD_mapProvisionerContainer_eq_nil (replaced e params) p.spec.provisioner
    main.command
  constructor
  · rintro ⟨pod, hpod⟩
    obtain ⟨found, hfound, hfoundImage, hfoundArgs, hfoundCommand⟩ := newProvisionerPod_ok hpod
    cases hmapped.symm.trans hfound
    exact ⟨fun hempty => hfoundImage (himage.mp hempty), hargs.mp hfoundArgs,
      fun hnil => hfoundCommand (hcommand.mpr hnil)⟩
  · intro h
    exact newProvisionerPod_succeeds hmapped (fun hempty => h.image (himage.mpr hempty))
      (hargs.mpr h.args) podName (fun hnil => h.command (hcommand.mp hnil)) env

/-- A container is called main with all values if one is with the test values. -/
theorem exists_mainContainerWith
    (hall : ∀ s ∈ strings p, (e.substituteString (paramValues testParams) s).isSome)
    {tested : Container} (htested : mainContainerWith e testParams p = some tested)
    (params : ProvisionerParams) : ∃ main, mainContainerWith e params p = some main := by
  have hmem : tested ∈ p.spec.podTemplate.containers := List.mem_of_find?_eq_some htested
  have hname : replaced e testParams tested.name = "main" := by simpa using List.find?_some htested
  have hsame := replaced_eq_main (hall _ (mem_strings_of_container hmem).1) hname params
  have hfound : (mainContainerWith e params p).isSome :=
    List.find?_isSome.mpr ⟨tested, hmem, by simp [hsame]⟩
  exact Option.isSome_iff_exists.mp hfound

/-- An accepted provisioner makes all its Pods if and only if the test values can be substituted
and, whatever the values are, the container that is called main then is usable. -/
theorem constructsPods_iff (hsub : SubstitutesWith cfg e)
    (haccepted : validateProvisioner cfg p = none) :
    ConstructsPods cfg p ↔
      (∃ q, substituteProvisionerPlaceholders cfg p testParams = .ok q) ∧
        ∀ params, Complete params → ∀ main, mainContainerWith e params p = some main →
          Usable e p main := by
  constructor
  · intro h
    obtain ⟨tested, htested, -⟩ := h testParams complete_testParams
    refine ⟨⟨tested, htested⟩, fun params hparams main hmain => ?_⟩
    obtain ⟨hall, -⟩ := (substitutePlaceholders_iff hsub).mp htested
    obtain ⟨q, hq, hpods⟩ := h params hparams
    obtain ⟨-, rfl⟩ := (substitutePlaceholders_iff hsub).mp hq
    exact (provisioner_succeeds_iff hparams hall hmain ⟨"", ""⟩ []).mp (hpods ⟨"", ""⟩ []).1
  · rintro ⟨⟨tested, htested⟩, husable⟩ params hparams
    refine ⟨_, substitutePlaceholders_of_complete hsub complete_testParams hparams htested, ?_⟩
    obtain ⟨hall, hmapped⟩ := (substitutePlaceholders_iff hsub).mp htested
    have hdry : dryRun cfg p = mapStrings (replaced e testParams) p := by
      unfold dryRun
      rw [htested, hmapped]
    -- the dry run has found a container that is called main
    obtain ⟨pod, hpod⟩ := (checked_of_accepted haccepted).pod
    rw [hdry] at hpod
    obtain ⟨found, hfound, -⟩ := newProvisionerPod_ok hpod
    rw [mainContainer_mapStrings] at hfound
    obtain ⟨container, hcontainer, -⟩ := Option.map_eq_some_iff.mp hfound
    obtain ⟨main, hmain⟩ := exists_mainContainerWith hall hcontainer params
    intro podName env
    obtain ⟨created, hcreated⟩ := (provisioner_succeeds_iff hparams hall hmain podName env).mpr
      (husable params hparams main hmain)
    exact ⟨⟨created, hcreated⟩, fun stored hstored => deprovisioner_succeeds hcreated hstored⟩

/-- The cache provisioner with other containers and nodes. -/
def templated (containers : List Container) (nodes : List NodePath) : StorageProvisioner :=
  let p := cacheProvisioner "setup" ⟨none, []⟩
  { p with spec := { p.spec with
      podTemplate := { p.spec.podTemplate with containers := containers }
      nodes := nodes } }

/-- A manager that substitutes variables in braces and matches as Go 1.15 does. -/
def templateConfig : Config :=
  { cacheConfig ⟨none, []⟩ with
    substitute := substituteAll bracedVariables
    matchPattern := GoPatterns.matchPattern }

/-- The sample manager substitutes variables in braces. -/
theorem substitutesWith_templateConfig : SubstitutesWith templateConfig bracedVariables :=
  substitutesWith_substituteAll rfl

/-- An image that is named after the node, and a container behind the main one that is named
after the node and has no image. -/
theorem constructsPods_iff_node_names :
    ConstructsPods templateConfig
      (templated [⟨"main", "manager-$\x7bSTORAGE_NODE_NAME\x7d", [], [], []⟩,
        ⟨"side-$\x7bSTORAGE_NODE_NAME\x7d", "", [], [], []⟩] [⟨"*", "/data"⟩]) := by
  refine (constructsPods_iff substitutesWith_templateConfig ?_).mpr ⟨?_, ?_⟩
  · decide +kernel
  · refine ⟨_, (substitutePlaceholders_iff substitutesWith_templateConfig).mpr ⟨?_, rfl⟩⟩
    decide +kernel
  · intro params _ main hmain
    -- the first container has a plain name, so it is called main with all values
    have hname : replaced bracedVariables params "main" = "main" := replaced_plain (by decide)
    have hfirst : ⟨"main", "manager-$\x7bSTORAGE_NODE_NAME\x7d", [], [], []⟩ = main := by
      simpa [mainContainerWith, templated, hname] using hmain
    subst hfirst
    constructor <;> decide +kernel

/-- The parameters of a node whose name is a container's. -/
def mainNode : ProvisionerParams := ⟨"main", "/data", "pvc-1", ⟨"default", "data"⟩⟩

/-- A placeholder that is never defined, and a container without an image that takes the place
of the main one on a node of that name. -/
theorem accepted_without_pods :
    (validateProvisioner templateConfig
        (templated [⟨"main", "$\x7bUNDEFINED\x7d", [], [], []⟩] [⟨"*", "/data"⟩]) = none ∧
      Complete mainNode ∧
      (substituteProvisionerPlaceholders templateConfig
        (templated [⟨"main", "$\x7bUNDEFINED\x7d", [], [], []⟩] [⟨"*", "/data"⟩]) mainNode).isOk =
          false) ∧
    (validateProvisioner templateConfig
        (templated [⟨"$\x7bSTORAGE_NODE_NAME\x7d", "", [], [], []⟩, ⟨"main", "manager", [], [], []⟩]
          [⟨"*", "/data"⟩]) = none ∧
      ∃ q, substituteProvisionerPlaceholders templateConfig
        (templated [⟨"$\x7bSTORAGE_NODE_NAME\x7d", "", [], [], []⟩, ⟨"main", "manager", [], [], []⟩]
          [⟨"*", "/data"⟩]) mainNode = .ok q ∧
        (newProvisionerPod ⟨"system", "pod"⟩ q q.spec.provisioner []).1.isOk = false) := by
  refine ⟨⟨?_, ?_, ?_⟩, ?_, _, (substitutePlaceholders_iff substitutesWith_templateConfig).mpr
    ⟨?_, rfl⟩, ?_⟩
  · decide +kernel
  · constructor <;> decide
  · decide +kernel
  · decide +kernel
  · decide +kernel
  · decide +kernel

end PodConstruction

section HostPaths

variable {cfg : Config} {e : Envsubst} {p : StorageProvisioner}

/-- Every node has an absolute path below the root, or none. -/
def Confined (cfg : Config) (p : StorageProvisioner) : Prop :=
  ∀ nodeName,
    storageRootPathForNode cfg nodeName 0 p.spec.nodes =
        .error (.text ("no storage root path mapped for node " ++ nodeName.quote)) ∨
      ∃ path, storageRootPathForNode cfg nodeName 0 p.spec.nodes = .ok path ∧
        GoPaths.isAbs path = true ∧ GoPaths.clean path ≠ "/"

/-- The paths that `validateNodes` accepts. -/
theorem path_of_validateNodes {i : ℕ} {nodes : List NodePath} (h : validateNodes cfg i nodes = none) :
    ∀ node ∈ nodes, GoPaths.isAbs node.path = true ∧ GoPaths.clean node.path ≠ "/" := by
  induction nodes generalizing i with
  | nil => simp
  | cons node nodes ih =>
    rw [validateNodes] at h
    split at h
    · cases h
    split at h
    · cases h
    dsimp only at h
    split at h
    · cases h
    · rename_i hpath
      rw [List.forall_mem_cons]
      refine ⟨⟨?_, fun hroot => hpath (Or.inl ?_)⟩, ih h⟩
      · rw [← GoPaths.isAbs_clean, ← Bool.not_eq_false]
        exact fun hrelative => hpath (Or.inr hrelative)
      · rw [hroot]
        decide +kernel

/-- The entry at which the lookup for a node ends: the first whose pattern matches or fails. -/
def lastEntry (cfg : Config) (nodeName : String) (nodes : List NodePath) : Option NodePath :=
  nodes.find? fun node => cfg.matchPattern node.name nodeName != some false

/-- The lookup passes the entries whose patterns neither match nor fail. -/
theorem lastEntry_cons (node : NodePath) (nodes : List NodePath) (nodeName : String) :
    lastEntry cfg nodeName (node :: nodes) =
      if cfg.matchPattern node.name nodeName = some false then lastEntry cfg nodeName nodes
      else some node := by
  unfold lastEntry
  by_cases hpassed : cfg.matchPattern node.name nodeName = some false
  · rw [if_pos hpassed, List.find?_cons_of_neg (by simp [hpassed])]
  · rw [if_neg hpassed, List.find?_cons_of_pos (by simp [hpassed])]

/-- No entry matches or fails, so there is no path. -/
theorem storageRootPathForNode_of_none {nodes : List NodePath} {nodeName : String}
    (h : lastEntry cfg nodeName nodes = none) (i : ℕ) :
    storageRootPathForNode cfg nodeName i nodes =
      .error (.text ("no storage root path mapped for node " ++ nodeName.quote)) := by
  induction nodes generalizing i with
  | nil => rfl
  | cons node nodes ih =>
    rw [lastEntry_cons] at h
    rw [storageRootPathForNode]
    cases hmatch : cfg.matchPattern node.name nodeName with
    | none => simp [hmatch] at h
    | some found =>
      cases found with
      | true => simp [hmatch] at h
      | false => exact ih (by simpa [hmatch] using h) (i + 1)

/-- The lookup ends with the path of a matching entry, or with an error about a malformed one. -/
theorem storageRootPathForNode_of_some {nodes : List NodePath} {nodeName : String} {node : NodePath}
    (h : lastEntry cfg nodeName nodes = some node) (i : ℕ) :
    (cfg.matchPattern node.name nodeName = some true ∧
        storageRootPathForNode cfg nodeName i nodes = .ok node.path) ∨
      (cfg.matchPattern node.name nodeName = none ∧
        ∃ j : ℕ, storageRootPathForNode cfg nodeName i nodes = .error (.text
          ("invalid node name matcher specified in spec.nodes[" ++ toString j ++ "].name"))) := by
  induction nodes generalizing i with
  | nil => cases h
  | cons entry nodes ih =>
    rw [lastEntry_cons] at h
    rw [storageRootPathForNode]
    cases hmatch : cfg.matchPattern entry.name nodeName with
    | none =>
      have hentry : entry = node := by simpa [hmatch] using h
      subst hentry
      exact Or.inr ⟨hmatch, i, rfl⟩
    | some found =>
      cases found with
      | true =>
        have hentry : entry = node := by simpa [hmatch] using h
        subst hentry
        exact Or.inl ⟨hmatch, rfl⟩
      | false => exact ih (by simpa [hmatch] using h) (i + 1)

/-- The two errors of the lookup have different texts. -/
theorem invalidMatcher_ne_unmapped (text text' : String) :
    GoError.text ("invalid node name matcher specified in spec.nodes[" ++ text ++ "].name") ≠
      GoError.text ("no storage root path mapped for node " ++ text') := by
  intro h
  have htext := congrArg String.toList (GoError.text.inj h)
  rw [String.toList_append, String.toList_append, String.toList_append] at htext
  have hhead := congrArg List.head? htext
  simp at hhead

/-- A path without placeholders is checked as it is. -/
theorem path_of_accepted (hsub : SubstitutesWith cfg e) (haccepted : validateProvisioner cfg p = none)
    {node : NodePath} (hnode : node ∈ p.spec.nodes) (hplain : '$' ∉ node.path.toList) :
    GoPaths.isAbs node.path = true ∧ GoPaths.clean node.path ≠ "/" := by
  have hchecked := path_of_validateNodes (checked_of_accepted haccepted).nodes
  unfold dryRun at hchecked
  cases hsubstituted : substituteProvisionerPlaceholders cfg p testParams with
  | error err =>
    rw [hsubstituted] at hchecked
    exact hchecked node hnode
  | ok q =>
    obtain ⟨-, hq⟩ := (substitutePlaceholders_iff hsub).mp hsubstituted
    rw [hsubstituted, hq] at hchecked
    have hmapped := hchecked ⟨replaced e testParams node.name, replaced e testParams node.path⟩
      (List.mem_map.mpr ⟨node, hnode, rfl⟩)
    dsimp only at hmapped
    rw [replaced_plain hplain] at hmapped
    exact hmapped

/-- The entries of accepted provisioners stay below the root, for all names of nodes, if and only
if no lookup ends at a pattern that fails, and each path with placeholders at which one ends is
absolute and below the root as it is written. -/
theorem paths_confined_iff (hmatch : cfg.matchPattern = GoPatterns.matchPattern)
    (hsub : SubstitutesWith cfg e) (haccepted : validateProvisioner cfg p = none) :
    Confined cfg p ↔
      ∀ nodeName node, lastEntry cfg nodeName p.spec.nodes = some node →
        GoPatterns.matchPattern node.name nodeName = some true ∧
          ('$' ∈ node.path.toList →
            GoPaths.isAbs node.path = true ∧ GoPaths.clean node.path ≠ "/") := by
  rw [← hmatch]
  constructor
  · intro h nodeName node hnode
    rcases storageRootPathForNode_of_some hnode 0 with ⟨hfound, hpath⟩ | ⟨-, j, herror⟩
    · refine ⟨hfound, fun _ => ?_⟩
      rcases h nodeName with hnone | ⟨path, hok, hconfined⟩
      · cases hpath.symm.trans hnone
      · cases hpath.symm.trans hok
        exact hconfined
    · -- the error is not the one for nodes without a path
      rcases h nodeName with hnone | ⟨path, hok, -⟩
      · have htexts := Except.error.inj (herror.symm.trans hnone)
        exact absurd htexts (invalidMatcher_ne_unmapped _ _)
      · cases herror.symm.trans hok
  · intro h nodeName
    cases hentry : lastEntry cfg nodeName p.spec.nodes with
    | none => exact Or.inl (storageRootPathForNode_of_none hentry 0)
    | some node =>
      obtain ⟨hfound, hconfined⟩ := h nodeName node hentry
      rcases storageRootPathForNode_of_some hentry 0 with ⟨-, hpath⟩ | ⟨hfailed, -⟩
      · refine Or.inr ⟨node.path, hpath, ?_⟩
        by_cases hplain : '$' ∈ node.path.toList
        · exact hconfined hplain
        · exact path_of_accepted hsub haccepted (List.mem_of_find?_eq_some hentry) hplain
      · cases hfound.symm.trans hfailed

/-- No lookup ends at a pattern that fails if the patterns are well formed. -/
theorem lastEntry_matches (hmatch : cfg.matchPattern = GoPatterns.matchPattern)
    {nodes : List NodePath} (hpatterns : ∀ node ∈ nodes, GoPatterns.wellFormed node.name = true)
    {nodeName : String} {node : NodePath} (h : lastEntry cfg nodeName nodes = some node) :
    node ∈ nodes ∧ GoPatterns.matchPattern node.name nodeName = some true := by
  have hmem : node ∈ nodes := List.mem_of_find?_eq_some h
  have htest := List.find?_some h
  have htotal := GoPatterns.matchPattern_ne_none (hpatterns node hmem) nodeName
  rw [hmatch] at htest
  refine ⟨hmem, ?_⟩
  cases hfound : GoPatterns.matchPattern node.name nodeName with
  | none => exact absurd hfound htotal
  | some found =>
    cases found with
    | true => rfl
    | false => simp [hfound] at htest

/-- Numbered nodes share a path, all others have one that is named after them. -/
theorem paths_confined_iff_numbered :
    Confined templateConfig
      (templated [⟨"main", "manager", [], [], []⟩]
        [⟨"node-[0-9]", "/data"⟩, ⟨"*", "/data/$\x7bSTORAGE_NODE_NAME\x7d"⟩]) := by
  refine (paths_confined_iff rfl substitutesWith_templateConfig ?_).mpr ?_
  · decide +kernel
  · intro nodeName node hnode
    obtain ⟨hmem, hfound⟩ := lastEntry_matches rfl (by decide +kernel) hnode
    refine ⟨hfound, fun _ => ?_⟩
    have hpaths : ∀ entry ∈ (templated [⟨"main", "manager", [], [], []⟩]
        [⟨"node-[0-9]", "/data"⟩, ⟨"*", "/data/$\x7bSTORAGE_NODE_NAME\x7d"⟩]).spec.nodes,
        GoPaths.isAbs entry.path = true ∧ GoPaths.clean entry.path ≠ "/" := by
      decide +kernel
    exact hpaths node hmem

/-- A pattern that is malformed behind what the test node matches, and a path that is
absolute only with the test values. -/
theorem accepted_without_confinement :
    (validateProvisioner templateConfig
        (templated [⟨"main", "manager", [], [], []⟩] [⟨"x[", "/data"⟩]) = none ∧
      storageRootPathForNode templateConfig "xa" 0
        (templated [⟨"main", "manager", [], [], []⟩] [⟨"x[", "/data"⟩]).spec.nodes =
          .error (.text "invalid node name matcher specified in spec.nodes[0].name")) ∧
    (validateProvisioner templateConfig (templated [⟨"main", "manager", [], [], []⟩]
        [⟨"*", "$\x7bSTORAGE_NODE_PATH\x7d/data"⟩]) = none ∧
      storageRootPathForNode templateConfig "node1" 0
        (templated [⟨"main", "manager", [], [], []⟩]
          [⟨"*", "$\x7bSTORAGE_NODE_PATH\x7d/data"⟩]).spec.nodes =
            .ok "$\x7bSTORAGE_NODE_PATH\x7d/data" ∧
      GoPaths.isAbs "$\x7bSTORAGE_NODE_PATH\x7d/data" = false) := by
  have hmalformed : templateConfig.matchPattern "x[" "xa" = none := by decide +kernel
  have hstar : templateConfig.matchPattern "*" "node1" = some true := by decide +kernel
  refine ⟨⟨?_, ?_⟩, ?_, ?_, ?_⟩
  · decide +kernel
  · unfold templated storageRootPathForNode
    rw [hmalformed]
    rfl
  · decide +kernel
  · unfold templated storageRootPathForNode
    rw [hstar]
  · decide +kernel

end HostPaths

end K8StorageX.ProvisionerValidation
