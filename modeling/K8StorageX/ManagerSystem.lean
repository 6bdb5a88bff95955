import K8StorageX.WorkerPool
import K8StorageX.ClaimController
import K8StorageX.PodController

/-!
# The manager in its cluster

The manager runs one reconcile at a time for each object of each controller.
Claims and volumes may be reconciled at any time; Pods are reconciled when they
are in the queue of the Pod controller, which reported Pods enter through the
predicate and failed reconciles enter again. Users, the scheduler, the kubelets
and the cluster's own controllers act in between.
-/

namespace K8StorageX.ManagerSystem

open ApiProgram KubeObjects ProvisionerPods KubeApi WorkerPool

/-- The reconciles that exclude each other. -/
inductive Worker where
  /-- `PersistentVolumeClaimReconciler` for one claim. -/
  | claim (key : ObjectKey)
  /-- `PersistentVolumeReconciler` for one volume. -/
  | volume (name : String)
  /-- `PodReconciler` for one Pod. -/
  | pod (key : ObjectKey)
  deriving DecidableEq

/-- What others do to the cluster. -/
inductive Env where
  /-- A claim is created. -/
  | createClaim (claim : PersistentVolumeClaim)
  /-- A claim is changed, for instance bound. -/
  | editClaim (claim : PersistentVolumeClaim)
  /-- A claim is deleted. -/
  | deleteClaim (key : ObjectKey)
  /-- A volume is created. -/
  | createVolume (pv : PersistentVolume)
  /-- A volume or its status is changed. -/
  | editVolume (pv : PersistentVolume)
  /-- A volume is deleted. -/
  | deleteVolume (name : String)
  /-- A Pod is created. -/
  | createPod (pod : Pod)
  /-- A Pod gets into another phase. -/
  | podPhase (key : ObjectKey) (phase : PodPhase)
  /-- A Pod is deleted. -/
  | deletePod (key : ObjectKey) (graceful : Bool)
  /-- A Pod that is being deleted has terminated. -/
  | removePod (key : ObjectKey)
  /-- A storage class is changed. -/
  | setStorageClass (name : String) (storageClass : Option StorageClass)
  /-- The registry of provisioners is changed. -/
  | setProvisioner (name : String) (p : Option StorageProvisioner)
  /-- A reported Pod reaches the Pod controller. -/
  | deliver (i : ℕ)
  /-- A Pod is reported again. -/
  | resync (key : ObjectKey)

/-- What others do to the objects. UIDs are never reused and a Pod that has
terminated does not run again. -/
def act (s : Cluster) : Env → Option Cluster
  | .createClaim c =>
    if s.claims c.key |>.isSome then none
    else if s.issued c.uid |>.isSome then none
    else some { s.putClaim { c with deleting := false } with
      issued := Function.update s.issued c.uid (some c.key) }
  | .editClaim c => (s.claims c.key).map fun stored => s.putClaim (Cluster.mergeClaim stored c)
  | .deleteClaim key => (s.claims key).map s.markClaim
  | .createVolume pv =>
    match s.volumes pv.name with
    | some _ => none
    | none => some (s.putVolume { pv with deleting := false })
  | .editVolume pv => (s.volumes pv.name).map fun stored =>
      s.putVolume { pv with deleting := stored.deleting }
  | .deleteVolume name => (s.volumes name).map s.markVolume
  | .createPod pod =>
    match s.pods pod.key with
    | some _ => none
    | none => some (s.putPod { pod with deleting := false, phase := .pending })
  | .podPhase key phase =>
    match s.pods key with
    | none => none
    | some pod =>
      if pod.phase.terminal then none
      else
        let t := s.putPod { pod with phase := phase }
        if phase = .succeeded then
          some { t with succeeded := Function.update t.succeeded key true }
        else some t
  | .deletePod key graceful => (s.pods key).map (s.markPod graceful)
  | .removePod key =>
    match s.pods key with
    | none => none
    | some pod => if pod.deleting then some (s.dropPod pod) else none
  | .setStorageClass name storageClass =>
    some { s with storageClasses := Function.update s.storageClasses name storageClass }
  | .setProvisioner name p => some { s with provisioners := Function.update s.provisioners name p }
  | .deliver i => if i < s.events.length then some { s with events := s.events.eraseIdx i } else none
  | .resync _ => some s

/-- The effects of the steps of others that can be taken. -/
inductive Acts (s : Cluster) : Env → Cluster → Prop
  | createClaim {c : PersistentVolumeClaim} (absent : s.claims c.key = none)
      (unused : s.issued c.uid = none) :
      Acts s (.createClaim c) { s.putClaim { c with deleting := false } with
        issued := Function.update s.issued c.uid (some c.key) }
  | editClaim {c stored : PersistentVolumeClaim} (found : s.claims c.key = some stored) :
      Acts s (.editClaim c) (s.putClaim (Cluster.mergeClaim stored c))
  | deleteClaim {key : ObjectKey} {c : PersistentVolumeClaim} (found : s.claims key = some c) :
      Acts s (.deleteClaim key) (s.markClaim c)
  | createVolume {pv : PersistentVolume} (absent : s.volumes pv.name = none) :
      Acts s (.createVolume pv) (s.putVolume { pv with deleting := false })
  | editVolume {pv stored : PersistentVolume} (found : s.volumes pv.name = some stored) :
      Acts s (.editVolume pv) (s.putVolume { pv with deleting := stored.deleting })
  | deleteVolume {name : String} {pv : PersistentVolume} (found : s.volumes name = some pv) :
      Acts s (.deleteVolume name) (s.markVolume pv)
  | createPod {pod : Pod} (absent : s.pods pod.key = none) :
      Acts s (.createPod pod) (s.putPod { pod with deleting := false, phase := .pending })
  | podPhase {key : ObjectKey} {phase : PodPhase} {pod : Pod} (found : s.pods key = some pod)
      (running : pod.phase.terminal = false) :
      Acts s (.podPhase key phase) (if phase = .succeeded then
        { s.putPod { pod with phase := phase } with
          succeeded := Function.update s.succeeded key true }
        else s.putPod { pod with phase := phase })
  | deletePod {key : ObjectKey} {graceful : Bool} {pod : Pod} (found : s.pods key = some pod) :
      Acts s (.deletePod key graceful) (s.markPod graceful pod)
  | removePod {key : ObjectKey} {pod : Pod} (found : s.pods key = some pod)
      (deleting : pod.deleting = true) : Acts s (.removePod key) (s.dropPod pod)
  | setStorageClass {name : String} {storageClass : Option StorageClass} :
      Acts s (.setStorageClass name storageClass)
        { s with storageClasses := Function.update s.storageClasses name storageClass }
  | setProvisioner {name : String} {p : Option StorageProvisioner} :
      Acts s (.setProvisioner name p)
        { s with provisioners := Function.update s.provisioners name p }
  | deliver {i : ℕ} : Acts s (.deliver i) { s with events := s.events.eraseIdx i }
  | resync {key : ObjectKey} : Acts s (.resync key) s

theorem acts_of_act {s t : Cluster} {e : Env} (h : act s e = some t) : Acts s e t := by
  cases e with
  | createClaim c =>
    simp only [act, Option.ite_none_left_eq_some, Option.not_isSome_iff_eq_none,
      Option.some.injEq] at h
    obtain ⟨habsent, hunused, rfl⟩ := h
    exact .createClaim habsent hunused
  | editClaim c =>
    simp only [act, Option.map_eq_some_iff] at h
    obtain ⟨stored, hstored, rfl⟩ := h
    exact .editClaim hstored
  | deleteClaim key =>
    simp only [act, Option.map_eq_some_iff] at h
    obtain ⟨c, hc, rfl⟩ := h
    exact .deleteClaim hc
  | createVolume pv =>
    cases hpv : s.volumes pv.name with
    | some stored => simp only [act, hpv, reduceCtorEq] at h
    | none =>
      simp only [act, hpv, Option.some.injEq] at h
      exact h ▸ .createVolume hpv
  | editVolume pv =>
    simp only [act, Option.map_eq_some_iff] at h
    obtain ⟨stored, hstored, rfl⟩ := h
    exact .editVolume hstored
  | deleteVolume name =>
    simp only [act, Option.map_eq_some_iff] at h
    obtain ⟨pv, hpv, rfl⟩ := h
    exact .deleteVolume hpv
  | createPod pod =>
    cases hpod : s.pods pod.key with
    | some stored => simp only [act, hpod, reduceCtorEq] at h
    | none =>
      simp only [act, hpod, Option.some.injEq] at h
      exact h ▸ .createPod hpod
  | podPhase key phase =>
    cases hpod : s.pods key with
    | none => simp only [act, hpod, reduceCtorEq] at h
    | some pod =>
      cases hrunning : pod.phase.terminal with
      | true => simp only [act, hpod, hrunning, if_true, reduceCtorEq] at h
      | false =>
        have heffect : Acts s (.podPhase key phase) _ := .podPhase hpod hrunning
        simp only [act, hpod, hrunning, Bool.false_eq_true, if_false] at h
        split at h
        · next hphase =>
          rw [if_pos hphase] at heffect
          exact Option.some.inj h ▸ heffect
        · next hphase =>
          rw [if_neg hphase] at heffect
          exact Option.some.inj h ▸ heffect
  | deletePod key graceful =>
    simp only [act, Option.map_eq_some_iff] at h
    obtain ⟨pod, hpod, rfl⟩ := h
    exact .deletePod hpod
  | removePod key =>
    cases hpod : s.pods key with
    | none => simp only [act, hpod, reduceCtorEq] at h
    | some pod =>
      simp only [act, hpod, Option.ite_none_right_eq_some, Option.some.injEq] at h
      obtain ⟨hdeleting, rfl⟩ := h
      exact .removePod hpod hdeleting
  | setStorageClass name storageClass =>
    cases h
    exact .setStorageClass
  | setProvisioner name p =>
    cases h
    exact .setProvisioner
  | deliver i =>
    simp only [act, Option.ite_none_right_eq_some, Option.some.injEq] at h
    obtain ⟨-, rfl⟩ := h
    exact .deliver
  | resync key =>
    cases h
    exact .resync

/-- The cluster and the state of the Pod controller. -/
structure Shared extends Cluster where
  /-- The queue of the Pod controller. -/
  queue : List ObjectKey
  /-- The calls of the Pod controller in progress, with the Pod each has read. -/
  calls : ObjectKey → Option (Option Pod)

/-- Let a reported Pod pass the predicate into the queue. -/
def Shared.report (s : Shared) (pod : Option Pod) : Shared :=
  match pod with
  | none => s
  | some pod =>
    if PodController.podCompleted pod then { s with queue := s.queue.insert pod.key } else s

/-- The Pod that reaches the Pod controller by a step of others. -/
def reported (s : Cluster) : Env → Option Pod
  | .deliver i => s.events[i]?
  | .resync key => s.pods key
  | _ => none

/-- A step of others. -/
def Shared.env (e : Env) (s : Shared) : Option Shared :=
  (act s.toCluster e).map fun c =>
    { s with toCluster := c }.report (reported s.toCluster e)

/-- Remember the Pod that a call of the Pod controller has read. -/
def noteRead (calls : ObjectKey → Option (Option Pod)) (w : Worker) :
    (r : Req) → Resp r → ObjectKey → Option (Option Pod)
  | .getPod _, .ok pod =>
    match w with
    | .pod key => Function.update calls key (some (some pod))
    | _ => calls
  | _, _ => calls

/-- Serve a request of a worker. -/
def Shared.serve (w : Worker) (fault : Fault) (r : Req) (s : Shared) : Resp r × Shared :=
  let answer := s.toCluster.serve fault r
  (answer.1, { toCluster := answer.2, queue := s.queue, calls := noteRead s.calls w r answer.1 })

/-- Start a reconcile. -/
def Shared.start (w : Worker) (s : Shared) : Option Shared :=
  match w with
  | .pod key =>
    if key ∈ s.queue then
      some { s with queue := s.queue.erase key, calls := Function.update s.calls key (some none) }
    else none
  | _ => some s

/-- Finish a reconcile; a panic does not return. -/
def Shared.finish (w : Worker) (outcome : ClaimController.Outcome) (s : Shared) : Option Shared :=
  match outcome with
  | .panicked => none
  | .returned err =>
    match w with
    | .pod key => some { s with
        queue := if err.isSome then s.queue.insert key else s.queue
        calls := Function.update s.calls key none }
    | _ => some s

/-- A crash of the manager: a restarted manager lists the Pods again. -/
def Shared.crash (s : Shared) : Shared :=
  { s with events := [], queue := [], calls := fun _ => none }

/-- The program of a worker. -/
def program (cfg : Config) : Worker → Controller ClaimController.Outcome
  | .claim key => ClaimController.reconcile cfg key
  | .volume name => do
    let err ← VolumeController.reconcile cfg name
    return .returned err
  | .pod key => do
    let err ← PodController.reconcile key
    return .returned err

/-- The manager in its cluster. -/
def manager (cfg : Config) :
    System Worker Unit Req Resp Shared Fault Env ClaimController.Outcome where
  serve := Shared.serve
  env := Shared.env
  onStart w _ s := s.start w
  program w _ := program cfg w
  onFinish := Shared.finish
  onCrash s := some s.crash

/-- A cluster without claims, volumes and Pods. -/
def Shared.initial (storageClasses : String → Option StorageClass)
    (provisioners : String → Option StorageProvisioner) : Shared where
  claims _ := none
  volumes _ := none
  pods _ := none
  storageClasses := storageClasses
  provisioners := provisioners
  revision := 0
  events := []
  issued _ := none
  provisioned _ := none
  succeeded _ := false
  queue := []
  calls _ := none

end K8StorageX.ManagerSystem
