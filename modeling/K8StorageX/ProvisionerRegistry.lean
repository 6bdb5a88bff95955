import K8StorageX.GoPaths
import K8StorageX.ProvisionerPods

/-!
# The registry of storage provisioners

Provisioners are validated with test values for their placeholders and kept under
the name of their spec. A name that two objects claim is disabled: its entry is nil.
-/

namespace K8StorageX.ProvisionerRegistry

open GoErrors KubeObjects ProvisionerPods

/-- The values `validateProvisioner` substitutes. -/
def testParams : ProvisionerParams :=
  ⟨"test-node", "/test-node-path", "test-pv", ⟨"test-pvc-ns", "test-pvc"⟩⟩

/-- The checks of `spec.env` from the given index on. -/
def validateEnv : ℕ → List EnvMapping → Option GoError
  | _, [] => none
  | i, env :: rest =>
    if env.name = "" then some (.text ("spec.env[" ++ toString i ++ "].name is empty"))
    else if env.annotation = "" then
      some (.text ("spec.env[" ++ toString i ++ "].annotation is empty"))
    else validateEnv (i + 1) rest

/-- The checks of `spec.nodes` from the given index on. -/
def validateNodes (cfg : Config) : ℕ → List NodePath → Option GoError
  | _, [] => none
  | i, node :: rest =>
    if node.name = "" then some (.text ("spec.nodes[" ++ toString i ++ "].name is empty"))
    else
      match cfg.matchPattern node.name "test-node" with
      | none =>
        some (.wrapped ("spec.nodes[" ++ toString i ++ "].name is an invalid matcher")
          (.text "syntax error in pattern"))
      | some _ =>
        let path := GoPaths.clean node.path
        if GoPaths.dir path = path ∨ GoPaths.isAbs path = false then
          some (.text ("spec.nodes[" ++ toString i ++
            "].path must be an absolute sub directory but is " ++ path.quote))
        else validateNodes cfg (i + 1) rest

/-- `validateProvisioner`. The error of the substitution is ignored, and the provisioner
then stays as it is. -/
def validateProvisioner (cfg : Config) (p : StorageProvisioner) : Option GoError :=
  let p :=
    match substituteProvisionerPlaceholders cfg p testParams with
    | .error _ => p
    | .ok substituted => substituted
  match newProvisionerPod ⟨"test-namespace", "test-pod"⟩ p p.spec.provisioner [] with
  | (.error e, _) => some e
  | (.ok _, p) =>
    if p.spec.persistentVolumeTemplate.volumeMode = none then
      some (.text "spec.persistentVolumeTemplate.VolumeMode is empty")
    else
      match validateEnv 0 p.spec.env with
      | some e => some e
      | none =>
        if p.spec.nodes = [] then some (.text "spec.nodes is empty")
        else validateNodes cfg 0 p.spec.nodes

/-- The provisioners by the names of their specs; a nil entry is disabled. -/
abbrev Registry : Type := String → Option (Option StorageProvisioner)

/-- `newProvisioners` -/
def newProvisioners : Registry := fun _ => none

/-- `ProvisionerRegistry.Put` -/
def put (cfg : Config) (r : Registry) (p : StorageProvisioner) : Option GoError × Registry :=
  match validateProvisioner cfg p with
  | some e => (some (.wrapped ("validate StorageProvisioner " ++ p.key.name) e), r)
  | none =>
    let key := p.spec.name
    let duplicate := some (.text ("duplicate provisioner " ++ key ++ " - key is disabled now"))
    match r key with
    | none => (none, Function.update r key (some (some p)))
    | some none => (duplicate, Function.update r key (some none))
    | some (some existing) =>
      if p.key ≠ existing.key then (duplicate, Function.update r key (some none))
      else (none, Function.update r key (some (some p)))

/-- `ProvisionerRegistry.Get` -/
def get (r : Registry) (name : String) : Option StorageProvisioner := (r name).join

/-- `ProvisionerRegistry.Delete` -/
def delete (r : Registry) (p : StorageProvisioner) : Registry := Function.update r p.spec.name none

/-- `ProvisionerRegistry.Keys`, given the names of all entries in the order in which the
iteration over the map yields them. -/
def keys (r : Registry) (names : List String) : List String :=
  (names.filter fun name => (r name).join.isSome).mergeSort fun a b => decide (a ≤ b)

/-- The loop of `LoadProvisioners` over the listed objects; errors are only logged. -/
def loadProvisioners (cfg : Config) (items : List StorageProvisioner) : Registry :=
  items.foldl (fun r p => (put cfg r p).2) newProvisioners

end K8StorageX.ProvisionerRegistry
