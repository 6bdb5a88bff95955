import K8StorageX.ManagerSystem

/-!
# Who may do what to claims, volumes and job Pods

One step of anybody changes the objects of the cluster only as described here.
The relations say which changes everybody may make, which are reserved to a
controller, and in which situation the controller makes them. They do not
mention requests: the controllers' programs are shown to keep to them elsewhere.
-/

namespace K8StorageX.Lifecycle

open ApiProgram KubeObjects ProvisionerPods KubeApi VolumeController ManagerSystem

/-- A claim with this UID has existed and does not exist any more. -/
def Gone (s : Cluster) (u : UID) : Prop :=
  (∃ key, s.issued u = some key) ∧ ∀ key c, s.claims key = some c → c.uid ≠ u

/-- The volume of a claim is deleted, or to be kept, if there is one. -/
def LetGo (s : Cluster) (u : UID) : Prop :=
  ∀ pv, s.volumes (pvNameForPVC u) = some pv →
    pv.deleting = true ∨ pv.spec.reclaimPolicy ≠ .delete

/-- The annotations of a claim select a node and a registered provisioner, and
provide what the provisioner requires. -/
def Runnable (registry : String → Option StorageProvisioner) (a : Annotations) : Prop :=
  a.get annSelectedNode ≠ "" ∧ ∃ p, registry (a.get annStorageProvisioner) = some p ∧
    (annotationsToEnv a p.spec.env).2 = none

/-- The deprovisioner of the object's volume is disabled by its annotations. -/
def DisablesDeprovisioner (a : Annotations) : Prop := a.get annPVDisableDeprovisioner = "true"

/-- The volume the last successful read has returned. -/
def lastVolume (seen : Record Req Resp) : Option PersistentVolume :=
  seen.foldl
    (fun last exchange =>
      match exchange with
      | ⟨.getVolume _, .ok pv⟩ => some pv
      | _ => last)
    none

/-- The name is not one of a job Pod for a claim or its volume. -/
def NotJob (cfg : Config) (key : ObjectKey) : Prop :=
  ∀ u, key ≠ provisionerPodName cfg u ∧ key ≠ deprovisionerPodName cfg (pvNameForPVC u)

/-- A version handed out by the step. -/
def FreshVersion (s t : Cluster) (version : ℕ) : Prop :=
  s.revision < version ∧ version ≤ t.revision

section Changes

variable (cfg : Config) (steady : Prop) (w : Option Worker) (seen : Record Req Resp)
variable (s t : Cluster)

/-- A change of a claim. -/
structure ClaimUpdate (key : ObjectKey) (c c' : PersistentVolumeClaim) : Prop where
  /-- The name stays. -/
  name : c'.key = c.key
  /-- The UID stays. -/
  uid : c'.uid = c.uid
  /-- A deletion is final. -/
  deleting : c.deleting = true → c'.deleting = true
  /-- The version is new. -/
  version : FreshVersion s t c'.resourceVersion
  /-- The finalizer is removed by the claim's controller, when nothing is left behind. -/
  held : finalizer ∈ c.finalizers → finalizer ∈ c'.finalizers ∨
    (w = some (.claim key) ∧ c.deleting = true ∧ s.pods (provisionerPodName cfg c.uid) = none ∧
      t.pods (provisionerPodName cfg c.uid) = none ∧ LetGo s c.uid)
  /-- Nobody disables the deprovisioner on a claim. -/
  clean : ¬ DisablesDeprovisioner c.annotations → ¬ DisablesDeprovisioner c'.annotations
  /-- In a steady cluster the provisioner of the claim can go on. -/
  runnable : steady → Runnable s.provisioners c.annotations → Runnable s.provisioners c'.annotations

/-- The creation of a claim with a UID of its own. -/
structure ClaimCreation (key : ObjectKey) (c : PersistentVolumeClaim) : Prop where
  /-- It has the name. -/
  name : c.key = key
  /-- The UID has not been used. -/
  fresh : s.issued c.uid = none
  /-- The UID is recorded. -/
  issued : t.issued c.uid = some key
  /-- The version is new. -/
  version : FreshVersion s t c.resourceVersion
  /-- Nobody disables the deprovisioner on a claim. -/
  clean : ¬ DisablesDeprovisioner c.annotations

/-- What may happen to the claim of a name. -/
inductive ClaimChange (key : ObjectKey) :
    Option PersistentVolumeClaim → Option PersistentVolumeClaim → Prop where
  /-- Nothing. -/
  | same (c : Option PersistentVolumeClaim) : ClaimChange key c c
  /-- It is created. -/
  | created {c : PersistentVolumeClaim} (h : ClaimCreation s t key c) : ClaimChange key none (some c)
  /-- It is changed, and removed if it is being deleted and has no finalizer left. -/
  | updated {c c' : PersistentVolumeClaim} {after : Option PersistentVolumeClaim}
      (h : ClaimUpdate cfg steady w s t key c c')
      (stored : after = if c'.deleting && c'.finalizers.isEmpty then none else some c') :
      ClaimChange key (some c) after

/-- A change of a volume. -/
structure VolumeUpdate (volume : String) (pv pv' : PersistentVolume) : Prop where
  /-- The name stays. -/
  name : pv'.name = pv.name
  /-- A deletion is final. -/
  deleting : pv.deleting = true → pv'.deleting = true
  /-- The claim's controller only deletes volumes to be deleted. -/
  deleted : pv.deleting = false → pv'.deleting = true →
    ∀ key, w = some (.claim key) → pv.spec.reclaimPolicy = .delete
  /-- The version is new. -/
  version : FreshVersion s t pv'.resourceVersion
  /-- The reclaim policy stays. -/
  policy : pv'.spec.reclaimPolicy = pv.spec.reclaimPolicy
  /-- The finalizer is not added. -/
  managed : finalizer ∈ pv'.finalizers → finalizer ∈ pv.finalizers
  /-- The finalizer is removed by the volume's controller, when the volume has been
  deprovisioned. -/
  held : finalizer ∈ pv.finalizers → finalizer ∈ pv'.finalizers ∨
    (w = some (.volume volume) ∧ deprovisionerDisabled pv = true ∧
      s.pods (deprovisionerPodName cfg volume) = none)
  /-- The reference to the claim is cleared by the volume's controller, when the claim is
  gone. -/
  claimRef : finalizer ∈ pv.finalizers → pv'.spec.claimRef = pv.spec.claimRef ∨
    (w = some (.volume volume) ∧ pv'.spec.claimRef = none ∧
      ∀ ref, pv.spec.claimRef = some ref → Gone s ref.uid)
  /-- The deprovisioner is disabled by the volume's controller, when it has succeeded. -/
  disabled : deprovisionerDisabled pv' = deprovisionerDisabled pv ∨
    (w = some (.volume volume) ∧ deprovisionerDisabled pv' = true ∧
      s.succeeded (deprovisionerPodName cfg volume) = true)

/-- The creation of a volume by somebody else, not under the name of a volume of a
managed claim. -/
structure ForeignVolume (volume : String) (pv : PersistentVolume) : Prop where
  /-- Not a controller of the manager creates it. -/
  actor : w = none
  /-- It has the name. -/
  name : pv.name = volume
  /-- The version is new. -/
  version : FreshVersion s t pv.resourceVersion
  /-- It does not have the finalizer. -/
  unmanaged : finalizer ∉ pv.finalizers
  /-- Its deprovisioner is not disabled. -/
  clean : deprovisionerDisabled pv = false
  /-- It is not in the way of a managed claim. -/
  apart : ∀ key c, s.claims key = some c → finalizer ∈ c.finalizers → volume ≠ pvNameForPVC c.uid

/-- The creation of the volume of a claim by the claim's controller. -/
structure ProvisionedVolume (volume : String) (pv : PersistentVolume) (key : ObjectKey)
    (c : PersistentVolumeClaim) (ref : ObjectReference) : Prop where
  /-- The claim's controller creates it. -/
  actor : w = some (.claim key)
  /-- The claim exists. -/
  claim : s.claims key = some c
  /-- The claim has the finalizer. -/
  managed : finalizer ∈ c.finalizers
  /-- It has the name. -/
  name : pv.name = volume
  /-- It is named after the claim. -/
  name_eq : volume = pvNameForPVC c.uid
  /-- The version is new. -/
  version : FreshVersion s t pv.resourceVersion
  /-- It refers to the claim. -/
  claimRef : pv.spec.claimRef = some ref
  /-- The reference has the name of the claim. -/
  ref_key : ref.key = key
  /-- The reference has the UID of the claim. -/
  ref_uid : ref.uid = c.uid
  /-- The reference is recorded. -/
  recorded : t.provisioned volume = some ref
  /-- Its deprovisioner is not disabled. -/
  clean : deprovisionerDisabled pv = false
  /-- In a steady cluster the provisioner Pod is there and has succeeded. -/
  succeeded : steady → ∃ pod, s.pods (provisionerPodName cfg c.uid) = some pod ∧
    pod.phase = .succeeded

/-- What may happen to the volume of a name. -/
inductive VolumeChange (volume : String) :
    Option PersistentVolume → Option PersistentVolume → Prop where
  /-- Nothing. -/
  | same (pv : Option PersistentVolume) : VolumeChange volume pv pv
  /-- Somebody else creates it. -/
  | foreign {pv : PersistentVolume} (h : ForeignVolume w s t volume pv) :
      VolumeChange volume none (some pv)
  /-- The claim's controller creates it. -/
  | provisioned {pv : PersistentVolume} {key : ObjectKey} {c : PersistentVolumeClaim}
      {ref : ObjectReference} (h : ProvisionedVolume cfg steady w s t volume pv key c ref) :
      VolumeChange volume none (some pv)
  /-- It is changed, and removed if it is being deleted and has no finalizer left. -/
  | updated {pv pv' : PersistentVolume} {after : Option PersistentVolume}
      (h : VolumeUpdate cfg w s t volume pv pv')
      (stored : after = if pv'.deleting && pv'.finalizers.isEmpty then none else some pv') :
      VolumeChange volume (some pv) after

/-- Who may delete a Pod. -/
inductive MayDelete (key : ObjectKey) (pod : Pod) : Prop where
  /-- Anybody may delete a Pod that is no job. -/
  | other (h : NotJob cfg key)
  /-- The claim's controller may delete the provisioner Pod. -/
  | provisioner {owner : ObjectKey} {c : PersistentVolumeClaim} (actor : w = some (.claim owner))
      (claim : s.claims owner = some c) (key_eq : key = provisionerPodName cfg c.uid)
      (allowed : steady → c.deleting = true ∨ pod.phase.terminal = true)
  /-- The volume's controller may delete the deprovisioner Pod when it has remembered its
  success. -/
  | deprovisioner {name : String} {pv : PersistentVolume} (actor : w = some (.volume name))
      (volume : s.volumes name = some pv) (key_eq : key = deprovisionerPodName cfg name)
      (disabled : deprovisionerDisabled pv = true)

/-- The creation of the provisioner Pod of a claim by the claim's controller. -/
structure ProvisionerCreation (key : ObjectKey) (pod : Pod) (owner : ObjectKey)
    (c : PersistentVolumeClaim) : Prop where
  /-- The claim's controller creates it. -/
  actor : w = some (.claim owner)
  /-- The claim exists. -/
  claim : s.claims owner = some c
  /-- The claim has the finalizer. -/
  managed : finalizer ∈ c.finalizers
  /-- It is named after the claim. -/
  key_eq : key = provisionerPodName cfg c.uid
  /-- It has the name. -/
  pod_key : pod.key = key
  /-- There is no volume yet. -/
  absent : s.volumes (pvNameForPVC c.uid) = none
  /-- It has not run yet. -/
  pending : pod.phase = .pending
  /-- It is not being deleted. -/
  kept : pod.deleting = false
  /-- Its annotations do not disable the deprovisioner of the volume. -/
  clean : ¬ DisablesDeprovisioner pod.annotations
  /-- In a steady cluster the annotations of the claim ask for it. -/
  runnable : steady → Runnable s.provisioners c.annotations

/-- The creation of the deprovisioner Pod of a volume by the volume's controller. -/
structure DeprovisionerCreation (key : ObjectKey) (pod : Pod) (name : String)
    (pv read : PersistentVolume) : Prop where
  /-- The volume's controller creates it. -/
  actor : w = some (.volume name)
  /-- The volume exists. -/
  volume : s.volumes name = some pv
  /-- It is named after the volume. -/
  key_eq : key = deprovisionerPodName cfg name
  /-- It has the name. -/
  pod_key : pod.key = key
  /-- It has not run yet. -/
  pending : pod.phase = .pending
  /-- It is not being deleted. -/
  kept : pod.deleting = false
  /-- The volume is being deleted. -/
  deleting : pv.deleting = true
  /-- The volume has the finalizer. -/
  managed : finalizer ∈ pv.finalizers
  /-- The volume refers to no claim. -/
  released : pv.spec.claimRef = none
  /-- The volume has not been deprovisioned. -/
  due : deprovisionerDisabled pv = false
  /-- What the controller has read of the volume. -/
  last : lastVolume seen = some read
  /-- The volume was not bound when it was read. -/
  unbound : read.phase ≠ .bound

/-- What may happen to the Pod of a name. -/
inductive PodChange (key : ObjectKey) : Option Pod → Option Pod → Prop where
  /-- Nothing. -/
  | same (pod : Option Pod) : PodChange key pod pod
  /-- Anybody creates a Pod that is no job. -/
  | created {pod : Pod} (key_eq : pod.key = key) (other : NotJob cfg key)
      (pending : pod.phase = .pending) : PodChange key none (some pod)
  /-- The claim's controller creates the provisioner Pod. -/
  | provisioner {pod : Pod} {owner : ObjectKey} {c : PersistentVolumeClaim}
      (h : ProvisionerCreation cfg steady w s key pod owner c) : PodChange key none (some pod)
  /-- The volume's controller creates the deprovisioner Pod. -/
  | deprovisioner {pod : Pod} {name : String} {pv read : PersistentVolume}
      (h : DeprovisionerCreation cfg w seen s key pod name pv read) :
      PodChange key none (some pod)
  /-- A Pod that has not terminated gets into another phase. -/
  | phase {pod : Pod} {phase : PodPhase} (running : pod.phase.terminal = false)
      (recorded : phase = .succeeded → t.succeeded key = true) :
      PodChange key (some pod) (some { pod with phase := phase })
  /-- A Pod that has not terminated is to terminate. -/
  | marked {pod : Pod} (running : pod.phase.terminal = false)
      (allowed : MayDelete cfg steady w s key pod) :
      PodChange key (some pod) (some { pod with deleting := true })
  /-- A Pod is removed. -/
  | dropped {pod : Pod} (allowed : pod.deleting = true ∨ MayDelete cfg steady w s key pod) :
      PodChange key (some pod) none

/-- What one step may do to the cluster. -/
structure Step : Prop where
  /-- Changes of claims -/
  claims : ∀ key, ClaimChange cfg steady w s t key (s.claims key) (t.claims key)
  /-- Changes of volumes -/
  volumes : ∀ name, VolumeChange cfg steady w s t name (s.volumes name) (t.volumes name)
  /-- Changes of Pods -/
  pods : ∀ key, PodChange cfg steady w seen s t key (s.pods key) (t.pods key)
  /-- Versions grow. -/
  revision : s.revision ≤ t.revision
  /-- UIDs are not reused. -/
  issued : ∀ {u key}, s.issued u = some key → t.issued u = some key
  /-- The record of the creation of a volume stays until another one is created. -/
  provisioned : ∀ name, t.provisioned name = s.provisioned name ∨
    s.volumes name = none ∧ ∃ ref, t.provisioned name = some ref ∧ name = pvNameForPVC ref.uid
  /-- The record of the success of a Pod stays. -/
  succeeded : ∀ {key}, s.succeeded key = true → t.succeeded key = true
  /-- Only a Pod that succeeds is recorded. -/
  recorded : ∀ {key}, t.succeeded key = true → s.succeeded key = true ∨
    ∃ pod, t.pods key = some pod ∧ pod.phase = .succeeded
  /-- The registry of a steady cluster stays. -/
  registry : steady → t.provisioners = s.provisioners

end Changes

end K8StorageX.Lifecycle
