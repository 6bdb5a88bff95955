import K8StorageX.CacheConsistency
import K8StorageX.LayerfsStore
import K8StorageX.SynchronizedStore
import K8StorageX.KubeObjects
import K8StorageX.ProvisionerPods
import K8StorageX.JobReconciler
import K8StorageX.VolumeController
import K8StorageX.ClaimController
import K8StorageX.ManagerSystem
import K8StorageX.Lifecycle
import K8StorageX.LifecycleInvariant
import K8StorageX.LifecycleSteps
import K8StorageX.LifecycleRely
import K8StorageX.ControllerRules
import K8StorageX.JobRules
import K8StorageX.VolumeRefinement
import K8StorageX.ClaimRefinement
import K8StorageX.PodRefinement
import K8StorageX.ManagerGuarantees
import K8StorageX.PodCompletion
import K8StorageX.ClaimWrites
import K8StorageX.ClaimProtection
import K8StorageX.CacheStructure
import K8StorageX.StoreWrapper
import K8StorageX.CacheRoundTrip
import K8StorageX.MountedVolumes
import K8StorageX.DeprovisionerPods
import K8StorageX.ImagePruning
import K8StorageX.PruneSafety
import K8StorageX.CacheController
import K8StorageX.CacheRelease
import K8StorageX.ProvisionerController
import K8StorageX.RegistryMirror
import K8StorageX.OrphanedVolumes
import K8StorageX.RegistryOrder
import K8StorageX.StoreOutcomes
import K8StorageX.Placeholders
import K8StorageX.ProvisionerValidation
import K8StorageX.AnnotationLife
import K8StorageX.ClaimReferences
import K8StorageX.ReconcileOutcomes
import K8StorageX.CompletedPods
import K8StorageX.ConditionHistory
import K8StorageX.ImageNames
import K8StorageX.PodNames
import K8StorageX.PruneRuns
import K8StorageX.TemplateValues
import K8StorageX.PruneAscent
import K8StorageX.PruneGarbage
import K8StorageX.PruneSweep
import K8StorageX.PruneCompleteness
import K8StorageX.CacheGenerations
import K8StorageX.LifecycleStages
import K8StorageX.StageRefinement
import K8StorageX.SoloRuns
import K8StorageX.UndisturbedRuns
import K8StorageX.DeprovisioningProgress
import K8StorageX.ProvisioningProgress
import K8StorageX.JobOwners
import K8StorageX.CacheFinalizers
import K8StorageX.CacheLedger
import K8StorageX.NodeVolumes
import K8StorageX.Noninterference
import K8StorageX.VolumeRoles
import K8StorageX.VolumeIsolation
import K8StorageX.CacheContention
import K8StorageX.MountAtomicity
import K8StorageX.UnmountHonesty
