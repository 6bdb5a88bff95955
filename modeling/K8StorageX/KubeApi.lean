import K8StorageX.ApiProgram
import K8StorageX.ProvisionerPods

/-!
# The Kubernetes API as the controllers see it

Reads return the current object, updates are checked against the resource version,
objects with finalizers are only marked for deletion, and status updates keep the
spec. A request may fail before or after it has taken effect. The cluster keeps a
record of the claims that have existed, of the volumes made for them and of the
Pods that have succeeded.
-/

namespace K8StorageX.KubeApi

open ApiProgram KubeObjects ProvisionerPods

/-- The objects of the cluster and what has happened to them. -/
structure Cluster where
  /-- Persistent volume claims. -/
  claims : ObjectKey → Option PersistentVolumeClaim
  /-- Persistent volumes. -/
  volumes : String → Option PersistentVolume
  /-- Pods. -/
  pods : ObjectKey → Option Pod
  /-- Storage classes. -/
  storageClasses : String → Option StorageClass
  /-- The manager's registry of storage provisioners. -/
  provisioners : String → Option StorageProvisioner
  /-- Bound of all resource versions handed out. -/
  revision : ℕ
  /-- Pods as the watch has reported them, not yet delivered to the controllers. -/
  events : List Pod
  /-- The claim each UID has been given to. -/
  issued : UID → Option ObjectKey
  /-- The reference to its claim each volume has been created with by the manager. -/
  provisioned : String → Option ObjectReference
  /-- Names under which a Pod has reached `Succeeded`. -/
  succeeded : ObjectKey → Bool

/-- Requests to the API, and the lookup in the registry. -/
inductive Req where
  /-- `Get` of a claim -/
  | getClaim (key : ObjectKey)
  /-- `Update` of a claim -/
  | updateClaim (claim : PersistentVolumeClaim)
  /-- `Status().Update` of a claim -/
  | updateClaimStatus (claim : PersistentVolumeClaim)
  /-- `Delete` of a claim -/
  | deleteClaim (key : ObjectKey)
  /-- `Get` of a volume -/
  | getVolume (name : String)
  /-- `Create` of a volume -/
  | createVolume (pv : PersistentVolume)
  /-- `Update` of a volume -/
  | updateVolume (pv : PersistentVolume)
  /-- `Status().Update` of a volume -/
  | updateVolumeStatus (pv : PersistentVolume)
  /-- `Delete` of a volume -/
  | deleteVolume (name : String)
  /-- `Get` of a Pod -/
  | getPod (key : ObjectKey)
  /-- `Create` of a Pod -/
  | createPod (pod : Pod)
  /-- `Delete` of a Pod -/
  | deletePod (key : ObjectKey)
  /-- `Get` of a storage class -/
  | getStorageClass (name : String)
  /-- `Provisioners.Get` -/
  | getProvisioner (name : String)

/-- Responses to the requests. -/
abbrev Resp : Req → Type
  | .getClaim _ => Except ApiError PersistentVolumeClaim
  | .updateClaim _ => Except ApiError PersistentVolumeClaim
  | .updateClaimStatus _ => Except ApiError Unit
  | .deleteClaim _ => Except ApiError Unit
  | .getVolume _ => Except ApiError PersistentVolume
  | .createVolume _ => Except ApiError Unit
  | .updateVolume _ => Except ApiError Unit
  | .updateVolumeStatus _ => Except ApiError Unit
  | .deleteVolume _ => Except ApiError Unit
  | .getPod _ => Except ApiError Pod
  | .createPod _ => Except ApiError Unit
  | .deletePod _ => Except ApiError Unit
  | .getStorageClass _ => Except ApiError StorageClass
  | .getProvisioner _ => Option StorageProvisioner

/-- Programs of the controllers. -/
abbrev Controller : Type → Type := Prog Req Resp

namespace Cluster

/-- Store a claim under a new version; a claim that is being deleted goes with its
last finalizer. -/
def putClaim (s : Cluster) (c : PersistentVolumeClaim) : Cluster :=
  { s with
    claims := Function.update s.claims c.key
      (if c.deleting && c.finalizers.isEmpty then none
        else some { c with resourceVersion := s.revision + 1 })
    revision := s.revision + 1 }

/-- Store a volume under a new version; a volume that is being deleted goes with its
last finalizer. -/
def putVolume (s : Cluster) (pv : PersistentVolume) : Cluster :=
  { s with
    volumes := Function.update s.volumes pv.name
      (if pv.deleting && pv.finalizers.isEmpty then none
        else some { pv with resourceVersion := s.revision + 1 })
    revision := s.revision + 1 }

/-- A claim with a finalizer is stored. -/
theorem claims_putClaim_of_mem (s : Cluster) {c : PersistentVolumeClaim} {item : String}
    (h : item ∈ c.finalizers) :
    (s.putClaim c).claims c.key = some { c with resourceVersion := s.revision + 1 } := by
  have hne : c.finalizers.isEmpty = false := List.isEmpty_eq_false_iff_exists_mem.mpr ⟨item, h⟩
  simp only [putClaim, Function.update_self, hne, Bool.and_false, Bool.false_eq_true, if_false]

/-- A claim that is found was stored last or was there before. -/
theorem of_claims_putClaim {s : Cluster} {c c' : PersistentVolumeClaim} {key : ObjectKey}
    (h : (s.putClaim c).claims key = some c') :
    key = c.key ∧ c' = { c with resourceVersion := s.revision + 1 } ∨ s.claims key = some c' := by
  by_cases hkey : key = c.key
  · simp only [putClaim, hkey, Function.update_self] at h
    split at h
    · cases h
    · exact Or.inl ⟨hkey, (Option.some.inj h).symm⟩
  · simp only [putClaim, Function.update_of_ne hkey] at h
    exact Or.inr h

/-- A volume with a finalizer is stored. -/
theorem volumes_putVolume_of_mem (s : Cluster) {pv : PersistentVolume} {item : String}
    (h : item ∈ pv.finalizers) :
    (s.putVolume pv).volumes pv.name = some { pv with resourceVersion := s.revision + 1 } := by
  have hne : pv.finalizers.isEmpty = false := List.isEmpty_eq_false_iff_exists_mem.mpr ⟨item, h⟩
  simp only [putVolume, Function.update_self, hne, Bool.and_false, Bool.false_eq_true, if_false]

/-- Store a Pod and report it. -/
def putPod (s : Cluster) (pod : Pod) : Cluster :=
  { s with pods := Function.update s.pods pod.key (some pod), events := s.events ++ [pod] }

/-- Remove a Pod and report its last state. -/
def dropPod (s : Cluster) (pod : Pod) : Cluster :=
  { s with pods := Function.update s.pods pod.key none, events := s.events ++ [pod] }

/-- A removed Pod is not found. -/
theorem pods_dropPod (s : Cluster) {pod : Pod} {key : ObjectKey} (hkey : pod.key = key) :
    (s.dropPod pod).pods key = none := by
  rw [dropPod, hkey]
  exact Function.update_self ..

/-- Store a new volume and record its claim. -/
def provision (s : Cluster) (pv : PersistentVolume) : Cluster :=
  { s.putVolume { pv with deleting := false, phase := .pending } with
    provisioned := Function.update s.provisioned pv.name pv.spec.claimRef }

/-- The effect of deleting a claim. -/
def markClaim (s : Cluster) (c : PersistentVolumeClaim) : Cluster :=
  if c.deleting then s else s.putClaim { c with deleting := true }

/-- The effect of deleting a volume. -/
def markVolume (s : Cluster) (pv : PersistentVolume) : Cluster :=
  if pv.deleting then s else s.putVolume { pv with deleting := true }

/-- The effect of deleting a Pod: a terminated Pod is removed at once, another one
may be given time to terminate. -/
def markPod (s : Cluster) (graceful : Bool) (pod : Pod) : Cluster :=
  if graceful && !pod.phase.terminal then s.putPod { pod with deleting := true }
  else s.dropPod pod

/-- What `Update` of a claim stores. -/
def mergeClaim (stored written : PersistentVolumeClaim) : PersistentVolumeClaim :=
  { written with key := stored.key, uid := stored.uid, deleting := stored.deleting }

/-- What `Status().Update` of a claim stores. -/
def mergeClaimStatus (stored written : PersistentVolumeClaim) : PersistentVolumeClaim :=
  { stored with annotations := written.annotations, finalizers := written.finalizers }

/-- What `Update` of a volume stores. -/
def mergeVolume (stored written : PersistentVolume) : PersistentVolume :=
  { written with name := stored.name, deleting := stored.deleting, phase := stored.phase }

/-- What `Status().Update` of a volume stores. -/
def mergeVolumeStatus (stored written : PersistentVolume) : PersistentVolume :=
  { stored with
    annotations := written.annotations
    finalizers := written.finalizers
    phase := written.phase }

/-- An update is rejected unless it is of the stored version. -/
def checked {γ ρ : Type} (s : Cluster) (object : Option γ) (sameVersion : γ → Bool)
    (store : γ → ρ × Cluster) : Except ApiError ρ × Cluster :=
  match object with
  | none => (.error .notFound, s)
  | some stored =>
    if sameVersion stored then (.ok (store stored).1, (store stored).2) else (.error .conflict, s)

theorem checked_snd {γ ρ : Type} (s : Cluster) (object : Option γ) (sameVersion : γ → Bool)
    (store : γ → ρ × Cluster) :
    (s.checked object sameVersion store).2 = s ∨ ∃ stored, object = some stored ∧
      sameVersion stored = true ∧ (s.checked object sameVersion store).2 = (store stored).2 := by
  cases object with
  | none => exact Or.inl rfl
  | some stored =>
    by_cases hversion : sameVersion stored = true
    · refine Or.inr ⟨stored, rfl, hversion, ?_⟩
      simp only [checked, hversion, if_true]
    · refine Or.inl ?_
      simp only [checked, hversion, Bool.false_eq_true, if_false]

/-- The answer to a request that does not fail. -/
def answer (s : Cluster) (graceful : Bool) : (r : Req) → Resp r × Cluster
  | .getClaim key =>
    match s.claims key with
    | none => (.error .notFound, s)
    | some c => (.ok c, s)
  | .updateClaim c =>
    s.checked (s.claims c.key) (fun stored => c.resourceVersion == stored.resourceVersion)
      fun stored => ({ mergeClaim stored c with resourceVersion := s.revision + 1 },
        s.putClaim (mergeClaim stored c))
  | .updateClaimStatus c =>
    s.checked (s.claims c.key) (fun stored => c.resourceVersion == stored.resourceVersion)
      fun stored => ((), s.putClaim (mergeClaimStatus stored c))
  | .deleteClaim key =>
    match s.claims key with
    | none => (.error .notFound, s)
    | some c => (.ok (), s.markClaim c)
  | .getVolume name =>
    match s.volumes name with
    | none => (.error .notFound, s)
    | some pv => (.ok pv, s)
  | .createVolume pv =>
    match s.volumes pv.name with
    | some _ => (.error .alreadyExists, s)
    | none => (.ok (), s.provision pv)
  | .updateVolume pv =>
    s.checked (s.volumes pv.name) (fun stored => pv.resourceVersion == stored.resourceVersion)
      fun stored => ((), s.putVolume (mergeVolume stored pv))
  | .updateVolumeStatus pv =>
    s.checked (s.volumes pv.name) (fun stored => pv.resourceVersion == stored.resourceVersion)
      fun stored => ((), s.putVolume (mergeVolumeStatus stored pv))
  | .deleteVolume name =>
    match s.volumes name with
    | none => (.error .notFound, s)
    | some pv => (.ok (), s.markVolume pv)
  | .getPod key =>
    match s.pods key with
    | none => (.error .notFound, s)
    | some pod => (.ok pod, s)
  | .createPod pod =>
    match s.pods pod.key with
    | some _ => (.error .alreadyExists, s)
    | none => (.ok (), s.putPod { pod with deleting := false, phase := .pending })
  | .deletePod key =>
    match s.pods key with
    | none => (.error .notFound, s)
    | some pod => (.ok (), s.markPod graceful pod)
  | .getStorageClass name =>
    match s.storageClasses name with
    | none => (.error .notFound, s)
    | some c => (.ok c, s)
  | .getProvisioner name => (s.provisioners name, s)

theorem answer_updateVolume (pv : PersistentVolume) (t : Cluster) (graceful : Bool) :
    (t.answer graceful (.updateVolume pv)).2 = t ∨
      ∃ stored, t.volumes pv.name = some stored ∧ pv.resourceVersion = stored.resourceVersion ∧
        (t.answer graceful (.updateVolume pv)).2 =
          t.putVolume (mergeVolume stored pv) := by
  have h := t.checked_snd (t.volumes pv.name)
    (fun stored => pv.resourceVersion == stored.resourceVersion)
    fun stored => ((), t.putVolume (mergeVolume stored pv))
  simp only [beq_iff_eq] at h
  exact h

theorem answer_updateVolumeStatus (pv : PersistentVolume) (t : Cluster) (graceful : Bool) :
    (t.answer graceful (.updateVolumeStatus pv)).2 = t ∨
      ∃ stored, t.volumes pv.name = some stored ∧ pv.resourceVersion = stored.resourceVersion ∧
        (t.answer graceful (.updateVolumeStatus pv)).2 =
          t.putVolume (mergeVolumeStatus stored pv) := by
  have h := t.checked_snd (t.volumes pv.name)
    (fun stored => pv.resourceVersion == stored.resourceVersion)
    fun stored => ((), t.putVolume (mergeVolumeStatus stored pv))
  simp only [beq_iff_eq] at h
  exact h

theorem answer_updateClaim (c : PersistentVolumeClaim) (t : Cluster) (graceful : Bool) :
    (t.answer graceful (.updateClaim c)).2 = t ∨
      ∃ stored, t.claims c.key = some stored ∧ c.resourceVersion = stored.resourceVersion ∧
        (t.answer graceful (.updateClaim c)).2 = t.putClaim (mergeClaim stored c) := by
  have h := t.checked_snd (t.claims c.key)
    (fun stored => c.resourceVersion == stored.resourceVersion)
    fun stored => ({ mergeClaim stored c with resourceVersion := t.revision + 1 },
      t.putClaim (mergeClaim stored c))
  simp only [beq_iff_eq] at h
  exact h

theorem answer_updateClaimStatus (c : PersistentVolumeClaim) (t : Cluster) (graceful : Bool) :
    (t.answer graceful (.updateClaimStatus c)).2 = t ∨
      ∃ stored, t.claims c.key = some stored ∧ c.resourceVersion = stored.resourceVersion ∧
        (t.answer graceful (.updateClaimStatus c)).2 =
          t.putClaim (mergeClaimStatus stored c) := by
  have h := t.checked_snd (t.claims c.key)
    (fun stored => c.resourceVersion == stored.resourceVersion)
    fun stored => ((), t.putClaim (mergeClaimStatus stored c))
  simp only [beq_iff_eq] at h
  exact h

/-- The effects of the requests that change the cluster. -/
inductive Effect (s : Cluster) (graceful : Bool) : Req → Cluster → Prop
  | updateClaim {c stored : PersistentVolumeClaim} (found : s.claims c.key = some stored)
      (current : c.resourceVersion = stored.resourceVersion) :
      Effect s graceful (.updateClaim c) (s.putClaim (mergeClaim stored c))
  | updateClaimStatus {c stored : PersistentVolumeClaim} (found : s.claims c.key = some stored)
      (current : c.resourceVersion = stored.resourceVersion) :
      Effect s graceful (.updateClaimStatus c) (s.putClaim (mergeClaimStatus stored c))
  | deleteClaim {key : ObjectKey} {c : PersistentVolumeClaim} (found : s.claims key = some c) :
      Effect s graceful (.deleteClaim key) (s.markClaim c)
  | createVolume {pv : PersistentVolume} (absent : s.volumes pv.name = none) :
      Effect s graceful (.createVolume pv) (s.provision pv)
  | updateVolume {pv stored : PersistentVolume} (found : s.volumes pv.name = some stored)
      (current : pv.resourceVersion = stored.resourceVersion) :
      Effect s graceful (.updateVolume pv) (s.putVolume (mergeVolume stored pv))
  | updateVolumeStatus {pv stored : PersistentVolume} (found : s.volumes pv.name = some stored)
      (current : pv.resourceVersion = stored.resourceVersion) :
      Effect s graceful (.updateVolumeStatus pv) (s.putVolume (mergeVolumeStatus stored pv))
  | deleteVolume {name : String} {pv : PersistentVolume} (found : s.volumes name = some pv) :
      Effect s graceful (.deleteVolume name) (s.markVolume pv)
  | createPod {pod : Pod} (absent : s.pods pod.key = none) :
      Effect s graceful (.createPod pod)
        (s.putPod { pod with deleting := false, phase := .pending })
  | deletePod {key : ObjectKey} {pod : Pod} (found : s.pods key = some pod) :
      Effect s graceful (.deletePod key) (s.markPod graceful pod)

/-- A request changes nothing or has its effect. -/
theorem answer_snd (s : Cluster) (graceful : Bool) (r : Req) :
    (s.answer graceful r).2 = s ∨ Effect s graceful r (s.answer graceful r).2 := by
  cases r with
  | updateClaim c =>
    refine (answer_updateClaim c s graceful).imp_right ?_
    rintro ⟨stored, hstored, hversion, h⟩
    exact h ▸ .updateClaim hstored hversion
  | updateClaimStatus c =>
    refine (answer_updateClaimStatus c s graceful).imp_right ?_
    rintro ⟨stored, hstored, hversion, h⟩
    exact h ▸ .updateClaimStatus hstored hversion
  | updateVolume pv =>
    refine (answer_updateVolume pv s graceful).imp_right ?_
    rintro ⟨stored, hstored, hversion, h⟩
    exact h ▸ .updateVolume hstored hversion
  | updateVolumeStatus pv =>
    refine (answer_updateVolumeStatus pv s graceful).imp_right ?_
    rintro ⟨stored, hstored, hversion, h⟩
    exact h ▸ .updateVolumeStatus hstored hversion
  | deleteClaim key =>
    rw [answer]
    split
    · exact Or.inl rfl
    · next hc => exact Or.inr (.deleteClaim hc)
  | createVolume pv =>
    rw [answer]
    split
    · exact Or.inl rfl
    · next habsent => exact Or.inr (.createVolume habsent)
  | deleteVolume name =>
    rw [answer]
    split
    · exact Or.inl rfl
    · next hpv => exact Or.inr (.deleteVolume hpv)
  | createPod pod =>
    rw [answer]
    split
    · exact Or.inl rfl
    · next habsent => exact Or.inr (.createPod habsent)
  | deletePod key =>
    rw [answer]
    split
    · exact Or.inl rfl
    · next hpod => exact Or.inr (.deletePod hpod)
  | getProvisioner name => exact Or.inl rfl
  | _ =>
    rw [answer]
    split
    · exact Or.inl rfl
    · exact Or.inl rfl

end Cluster

/-- Failures of the API that do not depend on its objects. -/
inductive Failure where
  /-- The update is rejected as conflicting. -/
  | conflict
  /-- Any other failure, a timeout for instance. -/
  | other (text : String)

/-- The error a failure is reported as. -/
def Failure.error : Failure → ApiError
  | .conflict => .conflict
  | .other text => .other text

theorem Failure.error_ne_notFound (failure : Failure) : failure.error ≠ .notFound := by
  cases failure <;> exact nofun

theorem Failure.error_ne_alreadyExists (failure : Failure) : failure.error ≠ .alreadyExists := by
  cases failure <;> exact nofun

/-- Choices of the API. -/
structure Fault where
  /-- The failure of the request, if it fails. -/
  failure : Option Failure
  /-- Whether the failing request has taken effect nevertheless. -/
  lost : Bool
  /-- Whether a deleted Pod is given time to terminate. -/
  graceful : Bool

/-- The response to a failing request; the registry does not fail. -/
def failed (e : ApiError) : (r : Req) → Option (Resp r)
  | .getClaim _ => some (.error e)
  | .updateClaim _ => some (.error e)
  | .updateClaimStatus _ => some (.error e)
  | .deleteClaim _ => some (.error e)
  | .getVolume _ => some (.error e)
  | .createVolume _ => some (.error e)
  | .updateVolume _ => some (.error e)
  | .updateVolumeStatus _ => some (.error e)
  | .deleteVolume _ => some (.error e)
  | .getPod _ => some (.error e)
  | .createPod _ => some (.error e)
  | .deletePod _ => some (.error e)
  | .getStorageClass _ => some (.error e)
  | .getProvisioner _ => none

/-- Serve a request under the choices of the API. -/
def Cluster.serve (s : Cluster) (fault : Fault) (r : Req) : Resp r × Cluster :=
  match fault.failure.bind fun f => failed f.error r with
  | none => s.answer fault.graceful r
  | some response => (response, if fault.lost then (s.answer fault.graceful r).2 else s)

/-- A request leaves the cluster alone or has the effect of its answer. -/
theorem serve_snd (s : Cluster) (fault : Fault) (r : Req) :
    (s.serve fault r).2 = s ∨ (s.serve fault r).2 = (s.answer fault.graceful r).2 := by
  rw [Cluster.serve]
  split
  · exact Or.inr rfl
  · cases fault.lost with
    | true => exact Or.inr rfl
    | false => exact Or.inl rfl

/-- A request changes nothing or has its effect, also when it fails. -/
theorem serve_effect (s : Cluster) (fault : Fault) (r : Req) :
    (s.serve fault r).2 = s ∨ Cluster.Effect s fault.graceful r (s.serve fault r).2 := by
  rcases serve_snd s fault r with hsame | hanswer
  · exact Or.inl hsame
  · rw [hanswer]
    exact s.answer_snd fault.graceful r

/-- A request that does not fail by itself is answered. -/
theorem serve_fst (s : Cluster) (fault : Fault) (r : Req) :
    s.serve fault r = s.answer fault.graceful r ∨
      ∃ failure : Failure, failed failure.error r = some (s.serve fault r).1 := by
  rw [Cluster.serve]
  cases hf : fault.failure with
  | none => exact Or.inl rfl
  | some failure =>
    cases hr : failed failure.error r with
    | none =>
      simp only [Option.bind_some, hr]
      exact Or.inl trivial
    | some response =>
      simp only [Option.bind_some, hr]
      exact Or.inr ⟨failure, hr⟩

end K8StorageX.KubeApi
