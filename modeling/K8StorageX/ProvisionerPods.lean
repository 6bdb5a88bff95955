import K8StorageX.GoErrors
import K8StorageX.KubeObjects

/-!
# Pods and volumes made from a storage provisioner

The provisioner's templates and the annotations of a claim determine the job Pods
and the persistent volume. JSON, placeholder substitution, path patterns and
SHA-256 are libraries and enter as parameters.
-/

namespace K8StorageX.ProvisionerPods

open GoErrors KubeObjects

/-- `ProvisionerParams` -/
structure ProvisionerParams where
  /-- `NodeName` -/
  nodeName : String
  /-- `NodePath` -/
  nodePath : String
  /-- `PersistentVolumeName` -/
  persistentVolumeName : String
  /-- `PersistentVolumeClaim` -/
  persistentVolumeClaim : ObjectKey

/-- What a manager is configured with, and the libraries it uses. -/
structure Config where
  /-- `ManagerNamespace` -/
  managerNamespace : String
  /-- Digests in the names of Pods. -/
  digest : Digest
  /-- `utils.StorageProvisionerToJSON` -/
  storageProvisionerToJSON : StorageProvisioner → String
  /-- `json.Unmarshal` into a provisioner -/
  unmarshalProvisioner : String → Except String StorageProvisioner
  /-- `json.Marshal` of a reference to a claim -/
  referenceToJSON : ObjectReference → String
  /-- `utils.Substitute` with the values of the parameters -/
  substitute : StorageProvisioner → ProvisionerParams → Except String StorageProvisioner
  /-- `filepath.Match`, `none` for a malformed pattern -/
  matchPattern : String → String → Option Bool

/-- `utils.StorageProvisionerFromJSON` -/
def storageProvisionerFromJSON (cfg : Config) (data : String) : Except GoError StorageProvisioner :=
  (cfg.unmarshalProvisioner data).mapError fun text =>
    .wrapped "unmarshal provisioner spec" (.text text)

/-- `utils.AnnotationsToEnv`: the variables and the first missing annotation. -/
def annotationsToEnv (a : Annotations) (mapping : List EnvMapping) : List EnvVar × Option GoError :=
  mapping.foldl
    (fun (acc : List EnvVar × Option GoError) m =>
      if a.get m.annotation ≠ "" then (acc.1 ++ [⟨m.name, a.get m.annotation⟩], acc.2)
      else if m.required ≠ some false ∧ acc.2 = none then
        (acc.1, some (.text ("missing or empty annotation " ++ m.annotation.quote)))
      else acc)
    ([], none)

/-- No annotation is missing if every required one has a value. -/
theorem annotationsToEnv_eq_none_iff (a : Annotations) (mapping : List EnvMapping) :
    (annotationsToEnv a mapping).2 = none ↔
      ∀ m ∈ mapping, a.get m.annotation ≠ "" ∨ m.required = some false := by
  have hfold : ∀ (mapping : List EnvMapping) (acc : List EnvVar × Option GoError),
      (mapping.foldl (fun (acc : List EnvVar × Option GoError) m =>
        if a.get m.annotation ≠ "" then (acc.1 ++ [⟨m.name, a.get m.annotation⟩], acc.2)
        else if m.required ≠ some false ∧ acc.2 = none then
          (acc.1, some (.text ("missing or empty annotation " ++ m.annotation.quote)))
        else acc) acc).2 = none ↔
      acc.2 = none ∧ ∀ m ∈ mapping, a.get m.annotation ≠ "" ∨ m.required = some false := by
    intro mapping
    induction mapping with
    | nil => simp
    | cons m mapping ih =>
      intro acc
      rw [List.foldl_cons, ih, List.forall_mem_cons]
      by_cases hget : a.get m.annotation = "" <;> by_cases hreq : m.required = some false <;>
        cases hacc : acc.2 <;> simp [hget, hreq, hacc]
  rw [annotationsToEnv, hfold]
  simp

/-- The loop of `utils.CopyAnnotations`: nothing is copied from a source without annotations. -/
def copyMapped (src dest : Annotations) (mapping : List EnvMapping) : Annotations :=
  mapping.foldl (fun b m => if src.isNil then b else b.set m.annotation (src.get m.annotation)) dest

/-- `utils.CopyAnnotations` -/
def copyAnnotations (src dest : Annotations) (mapping : List EnvMapping) : Annotations :=
  copyMapped src dest.allocated mapping

/-- The loop goes on with one annotation set, unless the source is nil. -/
theorem copyMapped_cons (src dest : Annotations) (m : EnvMapping) (mapping : List EnvMapping) :
    copyMapped src dest (m :: mapping) = copyMapped src
      (if src.isNil then dest else dest.set m.annotation (src.get m.annotation)) mapping :=
  rfl

/-- The loop leaves each annotation with the value of the source or of the destination. -/
theorem get_copyMapped (src dest : Annotations) (mapping : List EnvMapping) (key : String) :
    (copyMapped src dest mapping).get key = src.get key ∨
      (copyMapped src dest mapping).get key = dest.get key := by
  induction mapping generalizing dest with
  | nil => exact Or.inr rfl
  | cons m mapping ih =>
    rw [copyMapped_cons]
    by_cases hnil : src.isNil = true
    · rw [if_pos hnil]
      exact ih dest
    · rw [if_neg hnil]
      rcases ih (dest.set m.annotation (src.get m.annotation)) with hsrc | hdest
      · exact Or.inl hsrc
      · by_cases hkey : key = m.annotation
        · subst hkey
          rw [Annotations.get_set_self] at hdest
          exact Or.inl hdest
        · rw [Annotations.get_set_of_ne _ _ hkey] at hdest
          exact Or.inr hdest

/-- Copied annotations have the value of the source or of the destination. -/
theorem get_copyAnnotations (src dest : Annotations) (mapping : List EnvMapping) (key : String) :
    (copyAnnotations src dest mapping).get key = src.get key ∨
      (copyAnnotations src dest mapping).get key = dest.get key := by
  have hloop := get_copyMapped src dest.allocated mapping key
  rw [Annotations.get_allocated] at hloop
  exact hloop

/-- Insert a variable into a list sorted by name, replacing one of the same name. -/
def insertEnv (v : EnvVar) : List EnvVar → List EnvVar
  | [] => [v]
  | w :: env =>
    if v.name = w.name then v :: env
    else if v.name < w.name then v :: w :: env
    else w :: insertEnv v env

/-- `uniqueEnv`: the last value of each name, sorted by name. -/
def uniqueEnv (env : List EnvVar) : List EnvVar := env.foldl (fun acc v => insertEnv v acc) []

/-- `findContainer` and a write through the pointer it returns. -/
def modifyContainer (name : String) (f : Container → Container) : List Container → List Container
  | [] => []
  | c :: containers =>
    if c.name = name then f c :: containers else c :: modifyContainer name f containers

/-- `utils.NewProvisionerPod`: the Pod or the error, and the provisioner it was given,
whose template shares the containers of the Pod. -/
def newProvisionerPod (podName : ObjectKey) (p : StorageProvisioner)
    (container : ProvisionerContainer) (env : List EnvVar) : Except GoError Pod × StorageProvisioner :=
  match p.spec.podTemplate.containers.find? (·.name == "main") with
  | none =>
    (.error (.text ("provisioner " ++ p.key.name ++
      " pod template does not specify container \"main\"")), p)
  | some main =>
    let c := { main with
      env := uniqueEnv (main.env ++ container.env ++ env)
      command := container.command.getD main.command }
    let template := { p.spec.podTemplate with
      containers := modifyContainer "main" (fun _ => c) p.spec.podTemplate.containers }
    let p' := { p with spec := { p.spec with podTemplate := template } }
    let context := "provisioner " ++ p.key.name ++ " pod template "
    if c.image = "" then
      (.error (.text (context ++ "does not specify an image for the main container")), p')
    else if c.command.isEmpty then
      (.error (.text (context ++ "does not specify a command for the main container")), p')
    else if c.args ≠ [] then
      (.error (.text (context ++ "specifies args for the main container")), p')
    else (.ok ⟨podName, .empty, false, template, .pending⟩, p')

/-- `utils.StorageRootPathForNode` from the given index on. -/
def storageRootPathForNode (cfg : Config) (nodeName : String) :
    ℕ → List NodePath → Except GoError String
  | _, [] => .error (.text ("no storage root path mapped for node " ++ nodeName.quote))
  | i, m :: mapping =>
    match cfg.matchPattern m.name nodeName with
    | none => .error (.text ("invalid node name matcher specified in spec.nodes[" ++ toString i ++
        "].name"))
    | some true => .ok m.path
    | some false => storageRootPathForNode cfg nodeName (i + 1) mapping

/-- `utils.SubstituteProvisionerPlaceholders` -/
def substituteProvisionerPlaceholders (cfg : Config) (tpl : StorageProvisioner)
    (params : ProvisionerParams) : Except GoError StorageProvisioner :=
  (cfg.substitute tpl params).mapError fun text =>
    .wrapped ("invalid provisioner template " ++ tpl.key.name) (.text text)

/-- Name of the provisioner Pod of a claim. -/
def provisionerPodName (cfg : Config) (uid : UID) : ObjectKey :=
  ⟨cfg.managerNamespace, resourceName cfg.digest (pvNameForPVC uid) provisioner⟩

/-- Name of the deprovisioner Pod of a volume. -/
def deprovisionerPodName (cfg : Config) (pvName : String) : ObjectKey :=
  ⟨cfg.managerNamespace, resourceName cfg.digest pvName deprovisioner⟩

theorem provisionerPodName_injective {cfg : Config} {u v : UID}
    (h : provisionerPodName cfg u = provisionerPodName cfg v) : u = v :=
  provisionerName_injective cfg.digest (congrArg ObjectKey.name h)

theorem deprovisionerPodName_injective {cfg : Config} {name : String} {u : UID}
    (h : deprovisionerPodName cfg name = deprovisionerPodName cfg (pvNameForPVC u)) :
    name = pvNameForPVC u :=
  deprovisionerName_injective cfg.digest (congrArg ObjectKey.name h)

theorem deprovisionerPodName_ne_provisionerPodName (cfg : Config) (name : String) (u : UID) :
    deprovisionerPodName cfg name ≠ provisionerPodName cfg u := by
  intro h
  exact deprovisionerName_ne_provisionerName cfg.digest name u (congrArg ObjectKey.name h)

/-- The Pod the closure `Create` of the claim controller returns. -/
def provisionerPod (cfg : Config) (claim : PersistentVolumeClaim) (nodeName : String)
    (env : List EnvVar) (p : StorageProvisioner) : Except GoError Pod := do
  let nodePath ← (storageRootPathForNode cfg nodeName 0 p.spec.nodes).mapError
    (.wrapped "invalid storageprovisioner")
  let p ← substituteProvisionerPlaceholders cfg p
    ⟨nodeName, nodePath, pvNameForPVC claim.uid, claim.key⟩
  let (pod, p) := newProvisionerPod (provisionerPodName cfg claim.uid) p p.spec.provisioner env
  let pod ← pod
  let annotations := copyAnnotations claim.annotations pod.annotations p.spec.env
  return { pod with
    annotations := annotations.set annStorageProvisionerSpec (cfg.storageProvisionerToJSON p) }

/-- A Pod of a provisioner has no annotations yet. -/
theorem annotations_newProvisionerPod {podName : ObjectKey} {p : StorageProvisioner}
    {container : ProvisionerContainer} {env : List EnvVar} {pod : Pod}
    (h : (newProvisionerPod podName p container env).1 = .ok pod) :
    pod.annotations = Annotations.empty := by
  unfold newProvisionerPod at h
  split at h
  · cases h
  · dsimp only at h
    split at h
    · cases h
    split at h
    · cases h
    split at h
    · cases h
    · have heq := Except.ok.inj h
      rw [← heq]

/-- A provisioner Pod is made from the provisioner with its placeholders replaced. It carries
the annotations of its claim and a record of the provisioner. -/
theorem provisionerPod_ok {cfg : Config} {claim : PersistentVolumeClaim}
    {nodeName : String} {env : List EnvVar} {p : StorageProvisioner} {pod : Pod}
    (h : provisionerPod cfg claim nodeName env p = .ok pod) :
    ∃ nodePath q created,
      storageRootPathForNode cfg nodeName 0 p.spec.nodes = .ok nodePath ∧
      substituteProvisionerPlaceholders cfg p
        ⟨nodeName, nodePath, pvNameForPVC claim.uid, claim.key⟩ = .ok q ∧
      (newProvisionerPod (provisionerPodName cfg claim.uid) q q.spec.provisioner env).1 =
        .ok created ∧
      pod.annotations = (copyAnnotations claim.annotations Annotations.empty
        (newProvisionerPod (provisionerPodName cfg claim.uid) q q.spec.provisioner env).2.spec.env).set
          annStorageProvisionerSpec (cfg.storageProvisionerToJSON
            (newProvisionerPod (provisionerPodName cfg claim.uid) q q.spec.provisioner env).2) := by
  unfold provisionerPod at h
  cases hpath : storageRootPathForNode cfg nodeName 0 p.spec.nodes with
  | error e => simp [hpath, Except.mapError, bind, Except.bind] at h
  | ok nodePath =>
    simp only [hpath, Except.mapError, bind, Except.bind] at h
    split at h
    · cases h
    · rename_i q hq
      split at h
      · cases h
      · rename_i created hcreated
        have heq := Except.ok.inj h
        refine ⟨nodePath, q, created, rfl, hq, hcreated, ?_⟩
        rw [← heq, ← annotations_newProvisionerPod hcreated]

/-- The Pod the closure `Create` of the volume controller returns. -/
def deprovisionerPod (cfg : Config) (pv : PersistentVolume) (p : StorageProvisioner) :
    Except GoError Pod := do
  let (env, err) := annotationsToEnv pv.annotations p.spec.env
  match err with
  | some e => .error (.wrapped "persistentvolume does not specify annotation" e)
  | none => (newProvisionerPod (deprovisionerPodName cfg pv.name) p p.spec.deprovisioner env).1

/-- `persistentVolumeForClaim` with the annotations of the Pod copied to it. -/
def persistentVolumeForClaim (claim : PersistentVolumeClaim) (p : StorageProvisioner)
    (provisionerJSON : String) (podAnnotations : Annotations) : PersistentVolume :=
  let template := p.spec.persistentVolumeTemplate
  let annotations := ((Annotations.empty.set annStorageProvisioner p.spec.name).set
    annStorageProvisionerSpec provisionerJSON).set annProvisionedBy "k8storagex"
  { name := pvNameForPVC claim.uid
    resourceVersion := 0
    annotations := copyAnnotations podAnnotations annotations p.spec.env
    finalizers := [finalizer]
    deleting := false
    spec := { template with
      capacity := some (template.capacity.getD claim.requests)
      storageClassName := claim.storageClassName.getD template.storageClassName
      claimRef := some ⟨claim.key, claim.uid, claim.resourceVersion⟩ }
    phase := .pending }

end K8StorageX.ProvisionerPods
