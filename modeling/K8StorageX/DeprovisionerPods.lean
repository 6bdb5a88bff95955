import K8StorageX.ClaimController
import K8StorageX.EnvMerge
import K8StorageX.ProvisionerRegistry
import K8StorageX.VolumeController

/-!
# From the provisioner container to the deprovisioner Pod

Creating the provisioner Pod merges the provisioner container into the Pod template
of the provisioner it was given. That provisioner is recorded on the Pod and on the
volume, and the deprovisioner Pod is made from it later: the command and the
variables of the provisioner container reach it unless they are replaced there.
-/

namespace K8StorageX.DeprovisionerPods

open GoErrors KubeObjects ProvisionerPods ProvisionerRegistry EnvMerge

section Merging

/-- The main container of a template. -/
def mainContainer (p : StorageProvisioner) : Option Container :=
  p.spec.podTemplate.containers.find? (·.name == "main")

/-- The main container as `NewProvisionerPod` leaves it. -/
def mergedContainer (main : Container) (container : ProvisionerContainer) (env : List EnvVar) :
    Container :=
  { main with
    env := uniqueEnv (main.env ++ container.env ++ env)
    command := container.command.getD main.command }

/-- The provisioner with another main container. -/
def withMain (p : StorageProvisioner) (c : Container) : StorageProvisioner :=
  { p with spec := { p.spec with podTemplate := { p.spec.podTemplate with
      containers := modifyContainer "main" (fun _ => c) p.spec.podTemplate.containers } } }

theorem newProvisionerPod_snd {p : StorageProvisioner} {main : Container}
    (hmain : mainContainer p = some main) (podName : ObjectKey) (container : ProvisionerContainer)
    (env : List EnvVar) :
    (newProvisionerPod podName p container env).2 =
      withMain p (mergedContainer main container env) := by
  unfold mainContainer at hmain
  unfold newProvisionerPod
  rw [hmain]
  dsimp only
  split
  · rfl
  · split
    · rfl
    · split <;> rfl

/-- A Pod is made exactly from a main container with an image, a command and no arguments. -/
theorem newProvisionerPod_containers {p : StorageProvisioner} {main : Container}
    (hmain : mainContainer p = some main) (himage : main.image ≠ "") (hargs : main.args = [])
    (podName : ObjectKey) (container : ProvisionerContainer) (env : List EnvVar) :
    (newProvisionerPod podName p container env).1.map (·.spec.containers) =
      if container.command.getD main.command = [] then
        .error (.text ("provisioner " ++ p.key.name ++ " pod template " ++
          "does not specify a command for the main container"))
      else .ok (modifyContainer "main" (fun _ => mergedContainer main container env)
        p.spec.podTemplate.containers) := by
  unfold mainContainer at hmain
  unfold newProvisionerPod
  rw [hmain]
  dsimp only
  rw [if_neg himage]
  by_cases hcommand : container.command.getD main.command = []
  · rw [if_pos (by simpa using hcommand), if_pos hcommand]
    rfl
  · rw [if_neg (by simpa using hcommand), if_neg hcommand, if_neg (by simpa using hargs)]
    rfl

/-- What a successful `NewProvisionerPod` has checked. -/
theorem newProvisionerPod_ok {p : StorageProvisioner} {podName : ObjectKey}
    {container : ProvisionerContainer} {env : List EnvVar} {pod : Pod}
    (h : (newProvisionerPod podName p container env).1 = .ok pod) :
    ∃ main, mainContainer p = some main ∧ main.image ≠ "" ∧ main.args = [] ∧
      container.command.getD main.command ≠ [] := by
  unfold newProvisionerPod at h
  split at h
  · cases h
  · rename_i main hmain
    dsimp only at h
    split at h
    · cases h
    · rename_i himage
      split at h
      · cases h
      · rename_i hcommand
        split at h
        · cases h
        · rename_i hargs
          exact ⟨main, hmain, himage, by simpa using hargs, by simpa using hcommand⟩

theorem find_modifyContainer {main c : Container} {containers : List Container}
    (hmain : containers.find? (·.name == "main") = some main) (hname : c.name = "main") :
    (modifyContainer "main" (fun _ => c) containers).find? (·.name == "main") = some c := by
  induction containers with
  | nil => cases hmain
  | cons b containers ih =>
    by_cases hb : b.name = "main"
    · simp [modifyContainer, hb, hname]
    · have hrest : containers.find? (·.name == "main") = some main := by simpa [hb] using hmain
      simpa [modifyContainer, hb] using ih hrest

end Merging

section Recording

variable {cfg : Config} {claim : PersistentVolumeClaim} {p q : StorageProvisioner}
variable {pv : PersistentVolume}

/-- The variables the claim contributes to its provisioner Pod. -/
def claimEnv (claim : PersistentVolumeClaim) (p : StorageProvisioner) : List EnvVar :=
  (annotationsToEnv claim.annotations p.spec.env).1

/-- The provisioner after the provisioner Pod has been created from it. -/
def merged (cfg : Config) (claim : PersistentVolumeClaim) (p q : StorageProvisioner) :
    StorageProvisioner :=
  (newProvisionerPod (provisionerPodName cfg claim.uid) q q.spec.provisioner (claimEnv claim p)).2

/-- The values for the placeholders of a claim's provisioner. -/
def paramsFor (claim : PersistentVolumeClaim) (nodePath : String) : ProvisionerParams :=
  ⟨claim.annotations.get annSelectedNode, nodePath, pvNameForPVC claim.uid, claim.key⟩

/-- A volume that has been provisioned for a claim with a provisioner `p`, which is `q`
after the substitution of its placeholders. The claim, the Pod and the volume may have
been changed meanwhile, but not the record of the provisioner. -/
structure Provisioned (cfg : Config) (claim : PersistentVolumeClaim) (p q : StorageProvisioner)
    (pv : PersistentVolume) : Prop where
  /-- The registry has accepted the provisioner. -/
  accepted : validateProvisioner cfg p = none
  /-- Its placeholders have been substituted. -/
  substituted : ∃ nodePath,
    storageRootPathForNode cfg (claim.annotations.get annSelectedNode) 0 p.spec.nodes =
      .ok nodePath ∧
    substituteProvisionerPlaceholders cfg p (paramsFor claim nodePath) = .ok q
  /-- JSON round-trips the provisioner that is recorded. -/
  roundTrip : cfg.unmarshalProvisioner (cfg.storageProvisionerToJSON (merged cfg claim p q)) =
    .ok (merged cfg claim p q)
  /-- The provisioner Pod has been created, and the volume from the annotations it had
  when it completed. -/
  recorded : ∃ (pod completed : Pod) (claim' : PersistentVolumeClaim) (p' : StorageProvisioner),
    (ClaimController.provisionerJob cfg claim p false).create = .ok pod ∧
    completed.annotations.get annStorageProvisionerSpec =
      pod.annotations.get annStorageProvisionerSpec ∧
    storageProvisionerFromJSON cfg (completed.annotations.get annStorageProvisionerSpec) = .ok p' ∧
    pv.annotations.get annStorageProvisionerSpec =
      (persistentVolumeForClaim claim' p' (completed.annotations.get annStorageProvisionerSpec)
        completed.annotations).annotations.get annStorageProvisionerSpec
  /-- The volume has the annotations the deprovisioner needs. -/
  annotated : (annotationsToEnv pv.annotations q.spec.env).2 = none

/-- What the provisioner container and the annotations of the claim add to the main
container is replaced for the deprovisioner. -/
def Replaced (main : Container) (provisioner deprovisioner : ProvisionerContainer)
    (claimEnv volumeEnv : List EnvVar) : Prop :=
  deprovisioner.command = some [] ∨
    ((deprovisioner.command ≠ none ∨ provisioner.command = none ∨
        provisioner.command = some main.command) ∧
      ∀ name, lastValue (deprovisioner.env ++ volumeEnv) name = none →
        lastValue (main.env ++ provisioner.env ++ claimEnv) name = lastValue main.env name)

/-- The volume records the provisioner as the provisioner Pod has left it. -/
theorem Provisioned.record (h : Provisioned cfg claim p q pv) :
    storageProvisionerFromJSON cfg (pv.annotations.get annStorageProvisionerSpec) =
      .ok (merged cfg claim p q) ∧
    ∃ created, (newProvisionerPod (provisionerPodName cfg claim.uid) q q.spec.provisioner
      (claimEnv claim p)).1 = .ok created := by
  obtain ⟨pod, completed, claim', p', hcreate, hcompleted, hread, hpv⟩ := h.recorded
  obtain ⟨nodePath, q', created, hpath, hsubstituted, hcreated, hrecorded⟩ :=
    provisionerPod_ok hcreate
  obtain ⟨nodePath', hpath', hsubstituted'⟩ := h.substituted
  have hpaths : nodePath' = nodePath := by
    rw [hpath, Except.ok.injEq] at hpath'
    exact hpath'.symm
  have hq : q' = q := by
    rw [hpaths] at hsubstituted'
    unfold paramsFor at hsubstituted'
    rw [hsubstituted, Except.ok.injEq] at hsubstituted'
    exact hsubstituted'
  subst hq
  -- copying annotations to the volume does not change the record
  have hrecord : pv.annotations.get annStorageProvisionerSpec =
      completed.annotations.get annStorageProvisionerSpec := by
    rw [hpv]
    rcases get_copyAnnotations completed.annotations _ p'.spec.env annStorageProvisionerSpec with
      hsrc | hdest
    · exact hsrc
    · refine hdest.trans ?_
      rw [Annotations.get_set_of_ne _ _ (by decide), Annotations.get_set_self]
  refine ⟨?_, created, hcreated⟩
  have hjson := h.roundTrip
  rw [hrecord, hcompleted, hrecorded, Annotations.get_set_self, storageProvisionerFromJSON]
  unfold merged claimEnv at hjson ⊢
  rw [hjson]
  rfl

end Recording

section Samples

/-- A provisioner without a command in its template. -/
def cacheProvisioner (command : String) (deprovisioner : ProvisionerContainer) :
    StorageProvisioner where
  key := ⟨"system", "cache"⟩
  spec :=
    { name := "cache"
      deprovisionOnPodCompletion := true
      persistentVolumeTemplate := ⟨none, "", some .filesystem, .delete, none⟩
      podTemplate := ⟨[⟨"main", "manager", [], [], []⟩], [], .always⟩
      provisioner := ⟨some [command], []⟩
      deprovisioner := deprovisioner
      env := []
      nodes := [⟨"node1", "/data"⟩] }

/-- A manager whose provisioners differ in the provisioner's command only. -/
def cacheConfig (deprovisioner : ProvisionerContainer) : Config where
  managerNamespace := "system"
  digest := .sample
  storageProvisionerToJSON p := (p.spec.provisioner.command.getD []).headD ""
  unmarshalProvisioner text :=
    .ok (withMain (cacheProvisioner text deprovisioner) ⟨"main", "manager", [text], [], []⟩)
  referenceToJSON _ := "reference"
  substitute p _ := .ok p
  matchPattern pattern nodeName := some (pattern == nodeName)

/-- A claim for a cache on a node. -/
def cacheClaim : PersistentVolumeClaim where
  key := ⟨"default", "data"⟩
  uid := .sample
  resourceVersion := 0
  annotations := (Annotations.empty.set annStorageProvisioner "cache").set annSelectedNode "node1"
  finalizers := []
  deleting := false
  volumeName := ""
  storageClassName := some "cache"
  volumeMode := some .filesystem
  accessModes := [.readWriteOnce]
  requests := []

end Samples

end K8StorageX.DeprovisionerPods
