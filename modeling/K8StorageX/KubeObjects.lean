import Mathlib.Data.String.Basic
import Mathlib.Tactic.Common

/-!
# Kubernetes objects the controllers work with

Claims, volumes, Pods, storage classes and storage provisioners with the fields
the controllers read or write. Annotations are maps that may be nil; a missing entry
reads as the empty string. Object names are ASCII, so characters count as bytes.
-/

namespace K8StorageX.KubeObjects

/-- Namespace and name of an object. -/
structure ObjectKey where
  /-- `Namespace` -/
  namespaceName : String
  /-- `Name` -/
  name : String
  deriving DecidableEq, Repr

/-- The unique identifier of an object, a UUID in its canonical form. -/
structure UID where
  /-- The text of the UUID. -/
  text : String
  /-- The canonical form has 36 characters. -/
  length_eq : text.length = 36
  deriving DecidableEq

/-- The UID of the claim in sample runs. -/
def UID.sample : UID := ⟨"11111111-2222-3333-4444-555555555555", by decide⟩

/-- Annotations of an object: a map that may be nil. -/
structure Annotations where
  /-- The value of a key, if it has one. -/
  entry : String → Option String
  /-- Whether the map is nil. -/
  isNil : Bool
  /-- A nil map has no values. -/
  entry_of_isNil : isNil = true → ∀ key, entry key = none

/-- No annotations, as `map[string]string{}`. -/
def Annotations.empty : Annotations := ⟨fun _ => none, false, fun _ _ => rfl⟩

/-- `annotations[key]` -/
def Annotations.get (a : Annotations) (key : String) : String := (a.entry key).getD ""

/-- `annotations[key] = value`, in a new map if there is none -/
def Annotations.set (a : Annotations) (key value : String) : Annotations :=
  ⟨Function.update a.entry key (some value), false, fun h => nomatch h⟩

/-- A map to write to: a nil map is replaced by an empty one. -/
def Annotations.allocated (a : Annotations) : Annotations := if a.isNil then .empty else a

/-- A nil map has the values of an empty one. -/
@[simp] theorem Annotations.get_allocated (a : Annotations) (key : String) :
    a.allocated.get key = a.get key := by
  unfold Annotations.allocated
  split
  · next hnil =>
    rw [Annotations.get, Annotations.get, a.entry_of_isNil hnil key]
    rfl
  · rfl

/-- A map with a value is not nil. -/
theorem Annotations.isNil_of_entry {a : Annotations} {key value : String}
    (h : a.entry key = some value) : a.isNil = false := by
  cases hnil : a.isNil with
  | false => rfl
  | true =>
    rw [a.entry_of_isNil hnil key] at h
    cases h

@[simp] theorem Annotations.get_set_self (a : Annotations) (key value : String) :
    (a.set key value).get key = value := by
  simp [Annotations.get, Annotations.set]

theorem Annotations.get_set_of_ne (a : Annotations) {key key' : String} (value : String)
    (h : key' ≠ key) : (a.set key value).get key' = a.get key' := by
  simp [Annotations.get, Annotations.set, Function.update_of_ne h]

/-- `AnnotationPersistentVolumeClaimNoProtection` -/
def annNoProtection : String := "k8storagex.mgoltzsche.github.com/no-pvc-protection"

/-- `Enabled` -/
def enabled : String := "true"

/-- `annPVCName` -/
def annPVCName : String := "k8storagex.mgoltzsche.github.com/pvc-name"

/-- `annPVCNamespace` -/
def annPVCNamespace : String := "k8storagex.mgoltzsche.github.com/pvc-namespace"

/-- `annPVName` -/
def annPVName : String := "k8storagex.mgoltzsche.github.com/pv-name"

/-- `annPVDisableDeprovisioner` -/
def annPVDisableDeprovisioner : String :=
  "k8storagex.mgoltzsche.github.com/pv-deprovisioner-disabled"

/-- `annPVClaimRef` -/
def annPVClaimRef : String := "k8storagex.mgoltzsche.github.com/pvc"

/-- `annStorageProvisioner` -/
def annStorageProvisioner : String := "volume.beta.kubernetes.io/storage-provisioner"

/-- `annStorageProvisionerSpec` -/
def annStorageProvisionerSpec : String := "k8storagex.mgoltzsche.github.com/provisioner-spec"

/-- `annProvisionedBy` -/
def annProvisionedBy : String := "pv.kubernetes.io/provisioned-by"

/-- `annSelectedNode` -/
def annSelectedNode : String := "volume.kubernetes.io/selected-node"

/-- `corev1.BetaStorageClassAnnotation` -/
def betaStorageClassAnnotation : String := "volume.beta.kubernetes.io/storage-class"

/-- `finalizer` -/
def finalizer : String := "k8storagex.mgoltzsche.github.com/finalizer"

/-- `finalizerPVCProtection` -/
def finalizerPVCProtection : String := "kubernetes.io/pvc-protection"

/-- `utils.HasString` -/
def hasString (slice : List String) (s : String) : Bool := slice.any (· == s)

/-- `utils.RemoveString`: the slice afterwards. -/
def removeString (slice : List String) (s : String) : List String := slice.filter (· != s)

/-- `utils.AddString`: whether the string was missing, and the slice afterwards. -/
def addString (slice : List String) (s : String) : Bool × List String :=
  if hasString slice s then (false, slice) else (true, slice ++ [s])

@[simp] theorem hasString_iff (slice : List String) (s : String) :
    hasString slice s = true ↔ s ∈ slice := by
  simp [hasString]

@[simp] theorem mem_removeString (slice : List String) (s item : String) :
    item ∈ removeString slice s ↔ item ∈ slice ∧ item ≠ s := by
  simp [removeString]

/-- Adding a string keeps the others. -/
theorem subset_addString (slice : List String) (s : String) : slice ⊆ (addString slice s).2 := by
  unfold addString
  split
  · exact fun _ h => h
  · exact fun _ h => List.mem_append_left _ h

/-- Afterwards the string is there. -/
theorem mem_addString (slice : List String) (s : String) : s ∈ (addString slice s).2 := by
  unfold addString
  split
  · next hmem => exact (hasString_iff slice s).mp hmem
  · exact List.mem_append_right _ (List.mem_singleton_self s)

/-- `corev1.PersistentVolumeAccessMode` -/
inductive AccessMode where
  /-- `ReadWriteOnce` -/
  | readWriteOnce
  /-- `ReadOnlyMany` -/
  | readOnlyMany
  /-- `ReadWriteMany` -/
  | readWriteMany
  deriving DecidableEq, Repr

/-- `corev1.PersistentVolumeMode` -/
inductive VolumeMode where
  /-- `Filesystem` -/
  | filesystem
  /-- `Block` -/
  | block
  deriving DecidableEq, Repr

/-- `corev1.PersistentVolumeReclaimPolicy` -/
inductive ReclaimPolicy where
  /-- `Retain` -/
  | retain
  /-- `Delete` -/
  | delete
  /-- `Recycle` -/
  | recycle
  deriving DecidableEq, Repr

/-- `corev1.PersistentVolumePhase` -/
inductive VolumePhase where
  /-- `Pending` -/
  | pending
  /-- `Available` -/
  | available
  /-- `Bound` -/
  | bound
  /-- `Released` -/
  | released
  /-- `Failed` -/
  | failed
  deriving DecidableEq, Repr

/-- `corev1.PodPhase` -/
inductive PodPhase where
  /-- `Pending` -/
  | pending
  /-- `Running` -/
  | running
  /-- `Succeeded` -/
  | succeeded
  /-- `Failed` -/
  | failed
  /-- `Unknown` -/
  | unknown
  deriving DecidableEq, Repr

/-- A Pod in this phase has terminated and stays so. -/
def PodPhase.terminal : PodPhase → Bool
  | .succeeded => true
  | .failed => true
  | _ => false

/-- `corev1.RestartPolicy` -/
inductive RestartPolicy where
  /-- `Always` -/
  | always
  /-- `OnFailure` -/
  | onFailure
  /-- `Never` -/
  | never
  deriving DecidableEq, Repr

/-- Resource quantities. -/
abbrev Quantities : Type := List (String × String)

/-- `corev1.PersistentVolumeClaim` -/
structure PersistentVolumeClaim where
  /-- Namespace and name. -/
  key : ObjectKey
  /-- `UID` -/
  uid : UID
  /-- `ResourceVersion` -/
  resourceVersion : ℕ
  /-- `Annotations` -/
  annotations : Annotations
  /-- `Finalizers` -/
  finalizers : List String
  /-- `DeletionTimestamp != nil` -/
  deleting : Bool
  /-- `Spec.VolumeName` -/
  volumeName : String
  /-- `Spec.StorageClassName` -/
  storageClassName : Option String
  /-- `Spec.VolumeMode` -/
  volumeMode : Option VolumeMode
  /-- `Spec.AccessModes` -/
  accessModes : List AccessMode
  /-- `Spec.Resources.Requests` -/
  requests : Quantities

/-- `corev1.ObjectReference` to a claim. -/
structure ObjectReference where
  /-- Namespace and name. -/
  key : ObjectKey
  /-- `UID` -/
  uid : UID
  /-- `ResourceVersion` -/
  resourceVersion : ℕ
  deriving DecidableEq

/-- `corev1.PersistentVolumeSpec` -/
structure PersistentVolumeSpec where
  /-- `Capacity`, nil when missing -/
  capacity : Option Quantities
  /-- `StorageClassName` -/
  storageClassName : String
  /-- `VolumeMode` -/
  volumeMode : Option VolumeMode
  /-- `PersistentVolumeReclaimPolicy` -/
  reclaimPolicy : ReclaimPolicy
  /-- `ClaimRef` -/
  claimRef : Option ObjectReference
  deriving DecidableEq

/-- `corev1.PersistentVolume` -/
structure PersistentVolume where
  /-- `Name` -/
  name : String
  /-- `ResourceVersion` -/
  resourceVersion : ℕ
  /-- `Annotations` -/
  annotations : Annotations
  /-- `Finalizers` -/
  finalizers : List String
  /-- `DeletionTimestamp != nil` -/
  deleting : Bool
  /-- `Spec` -/
  spec : PersistentVolumeSpec
  /-- `Status.Phase` -/
  phase : VolumePhase

/-- `corev1.EnvVar` -/
structure EnvVar where
  /-- `Name` -/
  name : String
  /-- `Value` -/
  value : String
  deriving DecidableEq, Repr

/-- `corev1.Container` -/
structure Container where
  /-- `Name` -/
  name : String
  /-- `Image` -/
  image : String
  /-- `Command` -/
  command : List String
  /-- `Args` -/
  args : List String
  /-- `Env` -/
  env : List EnvVar
  deriving DecidableEq, Repr

/-- A volume of a Pod that refers to a claim; other volumes have no reference. -/
structure PodVolume where
  /-- `PersistentVolumeClaim.ClaimName`, if the volume refers to a claim -/
  claimName : Option String
  /-- `PersistentVolumeClaim.ReadOnly` -/
  readOnly : Bool
  deriving DecidableEq, Repr

/-- `corev1.PodSpec` -/
structure PodSpec where
  /-- `Containers` -/
  containers : List Container
  /-- `Volumes` -/
  volumes : List PodVolume
  /-- `RestartPolicy` -/
  restartPolicy : RestartPolicy
  deriving DecidableEq, Repr

/-- `corev1.Pod` -/
structure Pod where
  /-- Namespace and name. -/
  key : ObjectKey
  /-- `Annotations` -/
  annotations : Annotations
  /-- `DeletionTimestamp != nil` -/
  deleting : Bool
  /-- `Spec` -/
  spec : PodSpec
  /-- `Status.Phase` -/
  phase : PodPhase

/-- A volume of the Pod refers to the claim. -/
def Pod.refersTo (pod : Pod) (claim : ObjectKey) : Bool :=
  pod.key.namespaceName == claim.namespaceName &&
    pod.spec.volumes.any fun v => v.claimName == some claim.name

/-- `storage.StorageClass` -/
structure StorageClass where
  /-- `VolumeBindingMode` is `WaitForFirstConsumer` -/
  waitForFirstConsumer : Bool
  deriving DecidableEq, Repr

/-- `EnvVar` of a provisioner: an annotation that becomes an environment variable. -/
structure EnvMapping where
  /-- `Name` -/
  name : String
  /-- `Annotation` -/
  annotation : String
  /-- `Required` -/
  required : Option Bool
  deriving DecidableEq, Repr

/-- `NodePath` -/
structure NodePath where
  /-- `Name`, a pattern -/
  name : String
  /-- `Path` -/
  path : String
  deriving DecidableEq, Repr

/-- `ProvisionerContainer` -/
structure ProvisionerContainer where
  /-- `Command`, nil when missing -/
  command : Option (List String)
  /-- `Env` -/
  env : List EnvVar
  deriving DecidableEq, Repr

/-- `StorageProvisionerSpec` -/
structure StorageProvisionerSpec where
  /-- `Name` -/
  name : String
  /-- `DeprovisionOnPodCompletion` -/
  deprovisionOnPodCompletion : Bool
  /-- `PersistentVolumeTemplate` -/
  persistentVolumeTemplate : PersistentVolumeSpec
  /-- `PodTemplate` -/
  podTemplate : PodSpec
  /-- `Containers.Provisioner` -/
  provisioner : ProvisionerContainer
  /-- `Containers.Deprovisioner` -/
  deprovisioner : ProvisionerContainer
  /-- `Env` -/
  env : List EnvMapping
  /-- `Nodes` -/
  nodes : List NodePath
  deriving DecidableEq

/-- `StorageProvisioner` -/
structure StorageProvisioner where
  /-- Namespace and name. -/
  key : ObjectKey
  /-- `Spec` -/
  spec : StorageProvisionerSpec
  deriving DecidableEq

/-- The first seven hexadecimal digits of a SHA-256 sum. -/
structure Digest where
  /-- The digits. -/
  hex7 : String → String
  /-- There are seven of them. -/
  length_hex7 : ∀ text, (hex7 text).length = 7

/-- The digest of sample runs, in which no two long names meet. -/
def Digest.sample : Digest := ⟨fun _ => "0000000", fun _ => by decide⟩

/-- `utils.ResourceName`. The source counts bytes. The names of Kubernetes objects are ASCII, so
that characters are bytes here. -/
def resourceName (digest : Digest) (ownerName suffix : String) : String :=
  let maxLen := 63 - 8 - 1 - suffix.length
  let name := ownerName ++ "-" ++ suffix
  if maxLen < ownerName.length then
    String.ofList (ownerName.toList.take maxLen) ++ "-" ++ digest.hex7 name
  else name

/-- `pvNameForPVC`: the name of the volume of a claim with this UID. -/
def pvNameForPVC (uid : UID) : String := "pvc-" ++ uid.text

/-- The constant `provisioner`. -/
def provisioner : String := "provisioner"

/-- The constant `deprovisioner`. -/
def deprovisioner : String := "deprovisioner"

section Names

variable (digest : Digest)

theorem pvNameForPVC_injective {u v : UID} (h : pvNameForPVC u = pvNameForPVC v) : u = v := by
  have htext : u.text = v.text := (String.append_right_inj "pvc-").mp h
  cases u
  cases v
  congr

theorem length_pvNameForPVC (u : UID) : (pvNameForPVC u).length = 40 := by
  have hpre : "pvc-".length = 4 := by decide
  rw [pvNameForPVC, String.length_append, u.length_eq, hpre]

theorem length_provisioner : provisioner.length = 11 := by decide

theorem length_deprovisioner : deprovisioner.length = 13 := by decide

/-- A volume name of a claim is short enough for its provisioner Pod's name. -/
theorem resourceName_provisioner (u : UID) :
    resourceName digest (pvNameForPVC u) provisioner = pvNameForPVC u ++ "-" ++ provisioner := by
  have hlen := length_pvNameForPVC u
  simp only [resourceName, length_provisioner]
  rw [if_neg (by omega)]

/-- A volume name of a claim is short enough for its deprovisioner Pod's name. -/
theorem resourceName_deprovisioner (u : UID) :
    resourceName digest (pvNameForPVC u) deprovisioner =
      pvNameForPVC u ++ "-" ++ deprovisioner := by
  have hlen := length_pvNameForPVC u
  simp only [resourceName, length_deprovisioner]
  rw [if_neg (by omega)]

/-- A name shortened for a deprovisioner Pod has 49 characters. -/
theorem length_resourceName_shortened {name : String} (h : 41 < name.length) :
    (resourceName digest name deprovisioner).length = 49 := by
  have hdash : "-".length = 1 := by decide
  have htake : (String.ofList (name.toList.take 41)).length = 41 := by
    rw [String.length_ofList, List.length_take, String.length_toList]
    omega
  simp only [resourceName, length_deprovisioner]
  rw [if_pos (by omega), String.length_append, String.length_append, digest.length_hex7, hdash,
    htake]

/-- Provisioner Pods of different claims have different names. -/
theorem provisionerName_injective {u v : UID}
    (h : resourceName digest (pvNameForPVC u) provisioner =
      resourceName digest (pvNameForPVC v) provisioner) : u = v := by
  rw [resourceName_provisioner, resourceName_provisioner, String.append_left_inj,
    String.append_left_inj] at h
  exact pvNameForPVC_injective h

/-- The deprovisioner Pod of a claim's volume shares its name with no other volume's. -/
theorem deprovisionerName_injective {name : String} {u : UID}
    (h : resourceName digest name deprovisioner =
      resourceName digest (pvNameForPVC u) deprovisioner) : name = pvNameForPVC u := by
  by_cases hlong : 41 < name.length
  · have hlen := congrArg String.length h
    have hdash : "-".length = 1 := by decide
    rw [length_resourceName_shortened digest hlong, resourceName_deprovisioner,
      String.length_append, String.length_append, length_pvNameForPVC, length_deprovisioner,
      hdash] at hlen
    omega
  · rw [resourceName_deprovisioner] at h
    simp only [resourceName, length_deprovisioner] at h
    rw [if_neg (by omega), String.append_left_inj, String.append_left_inj] at h
    exact h

/-- No deprovisioner Pod has the name of a provisioner Pod of a claim. -/
theorem deprovisionerName_ne_provisionerName (name : String) (u : UID) :
    resourceName digest name deprovisioner ≠
      resourceName digest (pvNameForPVC u) provisioner := by
  intro h
  have hdash : "-".length = 1 := by decide
  by_cases hlong : 41 < name.length
  · have hlen := congrArg String.length h
    rw [length_resourceName_shortened digest hlong, resourceName_provisioner,
      String.length_append, String.length_append, length_pvNameForPVC, length_provisioner,
      hdash] at hlen
    omega
  · rw [resourceName_provisioner] at h
    simp only [resourceName, length_deprovisioner] at h
    rw [if_neg (by omega)] at h
    have hlist := congrArg String.toList h
    have hleft : "-".toList ++ deprovisioner.toList = "-d".toList ++ "eprovisioner".toList := by
      decide
    simp only [String.toList_append, List.append_assoc] at hlist
    rw [hleft, ← List.append_assoc] at hlist
    have htail := (List.append_inj' hlist (by decide)).2
    revert htail
    decide

end Names

end K8StorageX.KubeObjects
