import K8StorageX.WorkerPool
import K8StorageX.Conditions
import K8StorageX.KubeApi
import K8StorageX.ProvisionerRegistry

/-!
# The StorageProvisioner controller

`StorageProvisionerReconciler` keeps the registry of provisioners up to date. It is
called with the name of an object, reads the object and puts it into the registry, which
is keyed by the names in the specs. The reconciles run one after the other. The state
records which objects have changed since a reconcile has last dealt with them.
-/

namespace K8StorageX.ProvisionerController

open ApiProgram GoErrors CacheModel Conditions KubeObjects ProvisionerPods ProvisionerRegistry
open WorkerPool
open KubeApi (Failure)

/-- A `StorageProvisioner` with its metadata and status. -/
structure ProvisionerResource extends StorageProvisioner where
  /-- `ResourceVersion` -/
  resourceVersion : ℕ
  /-- `Generation` -/
  generation : Int64
  /-- `Status.Conditions` -/
  conditions : List Condition

/-- `ConditionConfigured` -/
def conditionConfigured : String := "Configured"

/-- The object `Reconcile` passes to `Get`, which stays empty if nothing is found. -/
def emptyProvisioner : StorageProvisioner where
  key := ⟨"", ""⟩
  spec :=
    { name := ""
      deprovisionOnPodCompletion := false
      persistentVolumeTemplate := ⟨none, "", none, .delete, none⟩
      podTemplate := ⟨[], [], .always⟩
      provisioner := ⟨none, []⟩
      deprovisioner := ⟨none, []⟩
      env := []
      nodes := [] }

/-- Requests of the controller: to the API and to the registry, which is locked during
each of them. -/
inductive Req where
  /-- `Client.Get` -/
  | get (key : ObjectKey)
  /-- `Provisioners.Put` -/
  | put (p : StorageProvisioner)
  /-- `Provisioners.Delete` -/
  | delete (p : StorageProvisioner)
  /-- `time.Now` -/
  | now
  /-- `Status().Update` -/
  | updateStatus (config : ProvisionerResource)

/-- Responses to the requests. -/
abbrev Resp : Req → Type
  | .get _ => Except ApiError ProvisionerResource
  | .put _ => Option GoError
  | .delete _ => Unit
  | .now => Time
  | .updateStatus _ => Except ApiError Unit

/-- Programs of the controller. -/
abbrev Controller : Type → Type := Prog Req Resp

/-- The condition that reports what `Put` has returned. -/
def configured (now : Time) (generation : Int64) : Option GoError → Condition
  | some e => ⟨conditionConfigured, .false, "InvalidProvisioner", e.message, generation, now⟩
  | none => ⟨conditionConfigured, .true, "Success", "provisioner configured", generation, now⟩

/-- The end of `Reconcile`: the condition is stored if it has changed. -/
def reportConfigured (config : ProvisionerResource) (err : Option GoError) :
    Controller (Option GoError) := do
  let now : Time ← Prog.request Req.now
  let set := setCondition now (configured now config.generation err) config.conditions
  if set.1 then
    let updated : Except ApiError Unit ←
      Prog.request (Req.updateStatus { config with conditions := set.2 })
    match updated with
    | .error e => return some (.api e)
    | .ok _ => return none
  else return none

/-- `StorageProvisionerReconciler.Reconcile` -/
def reconcile (key : ObjectKey) : Controller (Option GoError) := do
  let read : Except ApiError ProvisionerResource ← Prog.request (Req.get key)
  match read with
  | .error e =>
    if e = .notFound then
      let _deleted : Unit ← Prog.request (Req.delete emptyProvisioner)
      return none
    else return some (.api e)
  | .ok config =>
    let err : Option GoError ← Prog.request (Req.put config.toStorageProvisioner)
    reportConfigured config err

/-- Requests that do not concern the registry. -/
def Reports : Req → Prop
  | .now => True
  | .updateStatus _ => True
  | _ => False

theorem issues_reportConfigured (config : ProvisionerResource) (err : Option GoError) :
    (reportConfigured config err).Issues Reports := by
  refine .request_bind trivial fun now => ?_
  dsimp only
  split
  · refine .request_bind trivial fun updated => ?_
    split <;> exact trivial
  · exact trivial

/-- The objects of the manager's namespace, the registry and the record of changes. -/
structure Shared where
  /-- The objects. -/
  objects : ObjectKey → Option ProvisionerResource
  /-- Bound of all resource versions handed out. -/
  revision : ℕ
  /-- Current time. -/
  clock : Time
  /-- `ProvisionerRegistry.provisioners` -/
  registry : Registry
  /-- Objects that have changed since they were last reconciled. -/
  changed : ObjectKey → Bool
  /-- The object the running reconcile has read, unless it has changed since. -/
  fresh : Option ObjectKey
  /-- Objects that have been read when they were valid. -/
  registered : ObjectKey → Bool

/-- The object with a key as the registry keeps it. -/
def Shared.specs (s : Shared) (key : ObjectKey) : Option StorageProvisioner :=
  (s.objects key).map ProvisionerResource.toStorageProvisioner

/-- The reconcile has dealt with the object it has read. -/
def Shared.settle (s : Shared) : Shared :=
  { s with
    changed := match s.fresh with
      | some key => Function.update s.changed key false
      | none => s.changed
    fresh := none }

/-- A reconcile has read an object, or has not found it. -/
def Shared.noteRead (cfg : Config) (s : Shared) (key : ObjectKey) : Shared :=
  { s with
    fresh := some key
    registered :=
      if (s.specs key).any fun p => validateProvisioner cfg p = none then
        Function.update s.registered key true
      else s.registered }

/-- Serve a request; requests to the API may fail. -/
def Shared.serve (cfg : Config) (fault : Option Failure) : (r : Req) → Shared → Resp r × Shared
  | .get key, s =>
    match fault with
    | some failure => (.error failure.error, s)
    | none =>
      match s.objects key with
      | none => (.error .notFound, s.noteRead cfg key)
      | some p => (.ok p, s.noteRead cfg key)
  | .put p, s => ((put cfg s.registry p).1, { s.settle with registry := (put cfg s.registry p).2 })
  | .delete p, s => ((), { s.settle with registry := delete s.registry p })
  | .now, s => (s.clock, s)
  | .updateStatus config, s =>
    match fault, s.objects config.key with
    | some failure, _ => (.error failure.error, s)
    | none, none => (.error .notFound, s)
    | none, some stored =>
      if config.resourceVersion = stored.resourceVersion then
        (.ok (), { s with
          objects := Function.update s.objects config.key
            (some { stored with
              conditions := config.conditions
              resourceVersion := s.revision + 1 })
          revision := s.revision + 1 })
      else (.error .conflict, s)

/-- What users do. -/
inductive Env where
  /-- An object is created. -/
  | create (p : StorageProvisioner)
  /-- An object is given another spec. -/
  | update (p : StorageProvisioner)
  /-- An object is deleted. -/
  | delete (key : ObjectKey)
  /-- Time passes. -/
  | tick (duration : ℕ)

/-- The object with a key has been replaced. -/
def Shared.change (s : Shared) (key : ObjectKey) (p : Option ProvisionerResource) : Shared :=
  { s with
    objects := Function.update s.objects key p
    revision := s.revision + 1
    changed := Function.update s.changed key true
    fresh := if s.fresh = some key then none else s.fresh }

/-- Effect of the users. -/
def act : Env → Shared → Option Shared
  | .create p, s =>
    match s.objects p.key with
    | some _ => none
    | none => some (s.change p.key (some ⟨p, s.revision + 1, 1, []⟩))
  | .update p, s =>
    (s.objects p.key).map fun stored =>
      s.change p.key (some ⟨p, s.revision + 1, stored.generation + 1, stored.conditions⟩)
  | .delete key, s => (s.objects key).map fun _ => s.change key none
  | .tick duration, s => some { s with clock := s.clock + duration }

/-- One reconcile after the other, each for any object. -/
def controller (cfg : Config) :
    System Unit ObjectKey Req Resp Shared (Option Failure) Env (Option GoError) where
  serve _ := Shared.serve cfg
  env := act
  onStart _ _ s := some { s with fresh := none }
  program _ key := reconcile key
  onFinish _ _ s := some s
  onCrash _ := none

/-- The objects of a namespace as they are listed. -/
structure Listing where
  /-- The objects in the order of the list. -/
  items : List ProvisionerResource
  /-- Names are unique. -/
  distinct : (items.map fun p => p.key).Nodup

/-- The manager starts with the registry `LoadProvisioners` has made. -/
def Listing.initial (cfg : Config) (listing : Listing) (revision : ℕ) (clock : Time) : Shared where
  objects key := listing.items.find? fun p => p.key = key
  revision := revision
  clock := clock
  registry := loadProvisioners cfg (listing.items.map ProvisionerResource.toStorageProvisioner)
  changed _ := false
  fresh := none
  registered key := listing.items.any fun p =>
    p.key = key && validateProvisioner cfg p.toStorageProvisioner = none

end K8StorageX.ProvisionerController
