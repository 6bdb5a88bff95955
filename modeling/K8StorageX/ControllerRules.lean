import K8StorageX.LifecycleRely

/-!
# Rules for the programs of the controllers

`Follows` says that a program takes only permitted steps, whatever the others do
in between, and what it establishes when it returns. There is one rule for each
request of the API and one for each of the job programs; each asks for the
permission of the step and hands on what the response tells.
-/

namespace K8StorageX.ControllerRules

open ApiProgram WorkerPool GoErrors KubeObjects ProvisionerPods KubeApi ManagerSystem Lifecycle
open JobReconciler VolumeController

variable {cfg : Config} {steady : Prop} {w : Worker} {seen : Record Req Resp} {s : Cluster}
variable {α β : Type}

/-- Every worker takes permitted steps as long as the others do. -/
def lifecycle (cfg : Config) (steady : Prop) : Discipline (manager cfg) where
  inv s := Inv cfg steady s.toCluster
  rely w s t := Rely cfg steady w s.toCluster t.toCluster
  guarantee w seen _ _ s t := Step cfg steady (some w) seen s.toCluster t.toCluster
  post _ _ _ _ := True
  admitsEnv e s := Respects cfg steady s.toCluster e
  rely_refl _ _ := .refl
  rely_trans _ := .trans

/-- From this cluster on the program takes only permitted steps and establishes the
postcondition when it returns. -/
def Follows (cfg : Config) (steady : Prop) (w : Worker)
    (post : Record Req Resp → α → Cluster → Prop) (p : Controller α) (seen : Record Req Resp)
    (s : Cluster) : Prop :=
  ∀ shared : Shared, shared.toCluster = s →
    Wp ((lifecycle cfg steady).contract w) (fun seen value t => post seen value t.toCluster) p
      seen shared

section Rules

variable {post : Record Req Resp → α → Cluster → Prop}

theorem Follows.ret {value : α} (h : ∀ t, Rely cfg steady w s t → Inv cfg steady t →
    post seen value t) : Follows cfg steady w post (.ret value) seen s := by
  rintro shared rfl t hr hi
  exact h t.toCluster hr hi

theorem Follows.ret_true (value : α) :
    Follows cfg steady w (fun _ _ _ => True) (.ret value) seen s :=
  .ret fun _ _ _ => trivial

theorem Follows.bind {p : Controller α} {f : α → Controller β}
    {post : Record Req Resp → β → Cluster → Prop}
    (h : Follows cfg steady w
      (fun seen value t => Follows cfg steady w post (f value) seen t) p seen s) :
    Follows cfg steady w post (p >>= f) seen s := by
  intro shared hshared
  refine Wp.bind ((h shared hshared).mono ?_)
  intro seen value t _ hpost
  exact hpost t rfl

theorem Follows.mono {p : Controller α} {weaker : Record Req Resp → α → Cluster → Prop}
    (h : Follows cfg steady w post p seen s)
    (hpost : ∀ seen value t, Inv cfg steady t → post seen value t → weaker seen value t) :
    Follows cfg steady w weaker p seen s := by
  intro shared hshared
  exact (h shared hshared).mono fun seen value t hi hp => hpost seen value t.toCluster hi hp

/-- The general rule for a request. -/
theorem Follows.call {r : Req} {next : Resp r → Controller α} {fact : Cluster → Prop}
    (hstable : Stable cfg steady w fact) (hs : fact s)
    (hstep : ∀ t graceful, Inv cfg steady t → fact t →
      Step cfg steady (some w) seen t (t.answer graceful r).2)
    (hnext : ∀ t fault, Inv cfg steady t → fact t → Inv cfg steady (t.serve fault r).2 →
      Follows cfg steady w post (next (t.serve fault r).1)
        (seen ++ [⟨r, (t.serve fault r).1⟩]) (t.serve fault r).2) :
    Follows cfg steady w post (.call r next) seen s := by
  rintro shared rfl t hr hi fault _
  have hfact : fact t.toCluster := hstable.rely hr hs
  have hpermitted : Step cfg steady (some w) seen t.toCluster (t.toCluster.serve fault r).2 := by
    rcases serve_snd t.toCluster fault r with hsame | heffect
    · rw [hsame]
      exact .refl ..
    · rw [heffect]
      exact hstep _ _ hi hfact
  have hinv := Inv.step hi hpermitted
  exact ⟨hinv, hpermitted, hnext _ fault hi hfact hinv _ rfl⟩

end Rules

section Reads

variable {post : Record Req Resp → α → Cluster → Prop} {fact : Cluster → Prop}

/-- The rule for a request that does not change the cluster. -/
theorem Follows.read {r : Req} {next : Resp r → Controller α}
    (hread : ∀ t graceful, (Cluster.answer t graceful r).2 = t)
    (hstable : Stable cfg steady w fact) (hs : fact s)
    (hnext : ∀ t response, Inv cfg steady t → fact t →
      ((∃ graceful, response = (t.answer graceful r).1) ∨
        ∃ failure : Failure, failed failure.error r = some response) →
      Follows cfg steady w post (next response) (seen ++ [⟨r, response⟩]) t) :
    Follows cfg steady w post (.call r next) seen s := by
  refine .call hstable hs ?_ ?_
  · intro t graceful _ _
    rw [hread]
    exact .refl ..
  · intro t fault hi hfact _
    have hsame : (t.serve fault r).2 = t := by
      rcases serve_snd t fault r with hsame | heffect
      · exact hsame
      · exact heffect.trans (hread t fault.graceful)
    rw [hsame]
    refine hnext t _ hi hfact ?_
    rcases serve_fst t fault r with hanswer | hfailed
    · exact Or.inl ⟨fault.graceful, congrArg Prod.fst hanswer⟩
    · exact Or.inr hfailed

theorem ok_ne_error {ε β : Type} (value : β) (e : ε) : (.ok value : Except ε β) ≠ .error e :=
  nofun

/-- The response to a lookup. -/
def found (object : Option β) : Except ApiError β :=
  match object with
  | none => .error .notFound
  | some value => .ok value

/-- A lookup tells whether the object exists, unless it fails. -/
theorem lookup_cases {motive : Except ApiError β → Prop} (object : Option β)
    (hok : ∀ value, object = some value → motive (.ok value))
    (hnone : object = none → motive (.error .notFound))
    (herror : ∀ e, e ≠ .notFound → motive (.error e)) {response : Except ApiError β}
    (h : response = found object ∨ ∃ failure : Failure, .error failure.error = response) :
    motive response := by
  rcases h with rfl | ⟨failure, rfl⟩
  · cases object with
    | none => exact hnone rfl
    | some value => exact hok value rfl
  · exact herror _ failure.error_ne_notFound

/-- The rule for `Get` of a claim. -/
theorem Follows.getClaim {key : ObjectKey} {next : Except ApiError PersistentVolumeClaim → Controller α}
    (hstable : Stable cfg steady w fact) (hs : fact s)
    (hok : ∀ t c, Inv cfg steady t → fact t → t.claims key = some c →
      Follows cfg steady w post (next (.ok c)) (seen ++ [⟨.getClaim key, .ok c⟩]) t)
    (hnone : ∀ t, Inv cfg steady t → fact t → t.claims key = none →
      Follows cfg steady w post (next (.error .notFound))
        (seen ++ [⟨.getClaim key, .error .notFound⟩]) t)
    (herror : ∀ t e, Inv cfg steady t → fact t → e ≠ .notFound →
      Follows cfg steady w post (next (.error e)) (seen ++ [⟨.getClaim key, .error e⟩]) t) :
    Follows cfg steady w post (.call (.getClaim key) next) seen s := by
  have hanswer : ∀ t graceful,
      Cluster.answer t graceful (.getClaim key) = (found (t.claims key), t) := by
    intro t graceful
    rw [Cluster.answer]
    cases t.claims key <;> rfl
  refine .read (fun t graceful => by rw [hanswer]) hstable hs ?_
  intro t response hi hfact hresponse
  refine lookup_cases (motive := fun response =>
    Follows cfg steady w post (next response) (seen ++ [⟨.getClaim key, response⟩]) t)
    (t.claims key) (fun c => hok t c hi hfact) (hnone t hi hfact)
    (fun e => herror t e hi hfact) (hresponse.imp ?_ ?_)
  · rintro ⟨graceful, rfl⟩
    rw [hanswer]
  · rintro ⟨failure, hfailed⟩
    exact ⟨failure, Option.some.inj hfailed⟩

/-- The rule for `Get` of a volume. -/
theorem Follows.getVolume {name : String} {next : Except ApiError PersistentVolume → Controller α}
    (hstable : Stable cfg steady w fact) (hs : fact s)
    (hok : ∀ t pv, Inv cfg steady t → fact t → t.volumes name = some pv →
      Follows cfg steady w post (next (.ok pv)) (seen ++ [⟨.getVolume name, .ok pv⟩]) t)
    (hnone : ∀ t, Inv cfg steady t → fact t → t.volumes name = none →
      Follows cfg steady w post (next (.error .notFound))
        (seen ++ [⟨.getVolume name, .error .notFound⟩]) t)
    (herror : ∀ t e, Inv cfg steady t → fact t → e ≠ .notFound →
      Follows cfg steady w post (next (.error e)) (seen ++ [⟨.getVolume name, .error e⟩]) t) :
    Follows cfg steady w post (.call (.getVolume name) next) seen s := by
  have hanswer : ∀ t graceful,
      Cluster.answer t graceful (.getVolume name) = (found (t.volumes name), t) := by
    intro t graceful
    rw [Cluster.answer]
    cases t.volumes name <;> rfl
  refine .read (fun t graceful => by rw [hanswer]) hstable hs ?_
  intro t response hi hfact hresponse
  refine lookup_cases (motive := fun response =>
    Follows cfg steady w post (next response) (seen ++ [⟨.getVolume name, response⟩]) t)
    (t.volumes name) (fun pv => hok t pv hi hfact) (hnone t hi hfact)
    (fun e => herror t e hi hfact) (hresponse.imp ?_ ?_)
  · rintro ⟨graceful, rfl⟩
    rw [hanswer]
  · rintro ⟨failure, hfailed⟩
    exact ⟨failure, Option.some.inj hfailed⟩

/-- The rule for `Get` of a Pod. -/
theorem Follows.getPod {key : ObjectKey} {next : Except ApiError Pod → Controller α}
    (hstable : Stable cfg steady w fact) (hs : fact s)
    (hok : ∀ t pod, Inv cfg steady t → fact t → t.pods key = some pod →
      Follows cfg steady w post (next (.ok pod)) (seen ++ [⟨.getPod key, .ok pod⟩]) t)
    (hnone : ∀ t, Inv cfg steady t → fact t → t.pods key = none →
      Follows cfg steady w post (next (.error .notFound))
        (seen ++ [⟨.getPod key, .error .notFound⟩]) t)
    (herror : ∀ t e, Inv cfg steady t → fact t → e ≠ .notFound →
      Follows cfg steady w post (next (.error e)) (seen ++ [⟨.getPod key, .error e⟩]) t) :
    Follows cfg steady w post (.call (.getPod key) next) seen s := by
  have hanswer : ∀ t graceful,
      Cluster.answer t graceful (.getPod key) = (found (t.pods key), t) := by
    intro t graceful
    rw [Cluster.answer]
    cases t.pods key <;> rfl
  refine .read (fun t graceful => by rw [hanswer]) hstable hs ?_
  intro t response hi hfact hresponse
  refine lookup_cases (motive := fun response =>
    Follows cfg steady w post (next response) (seen ++ [⟨.getPod key, response⟩]) t)
    (t.pods key) (fun pod => hok t pod hi hfact) (hnone t hi hfact)
    (fun e => herror t e hi hfact) (hresponse.imp ?_ ?_)
  · rintro ⟨graceful, rfl⟩
    rw [hanswer]
  · rintro ⟨failure, hfailed⟩
    exact ⟨failure, Option.some.inj hfailed⟩

/-- The rule for `Get` of a storage class: nothing depends on it. -/
theorem Follows.getStorageClass {name : String}
    {next : Except ApiError StorageClass → Controller α}
    (hstable : Stable cfg steady w fact) (hs : fact s)
    (hnext : ∀ t response, Inv cfg steady t → fact t →
      Follows cfg steady w post (next response)
        (seen ++ [⟨.getStorageClass name, response⟩]) t) :
    Follows cfg steady w post (.call (.getStorageClass name) next) seen s := by
  refine .read ?_ hstable hs fun t response hi hfact _ => hnext t response hi hfact
  intro t graceful
  simp only [Cluster.answer]
  split <;> rfl

/-- The rule for a lookup in the registry. -/
theorem Follows.getProvisioner {name : String}
    {next : Option StorageProvisioner → Controller α}
    (hstable : Stable cfg steady w fact) (hs : fact s)
    (hnext : ∀ t, Inv cfg steady t → fact t →
      Follows cfg steady w post (next (t.provisioners name))
        (seen ++ [⟨.getProvisioner name, t.provisioners name⟩]) t) :
    Follows cfg steady w post (.call (.getProvisioner name) next) seen s := by
  refine .read (fun _ _ => rfl) hstable hs ?_
  rintro t response hi hfact (⟨graceful, rfl⟩ | ⟨failure, hfailed⟩)
  · exact hnext t hi hfact
  · cases hfailed

end Reads

section Writes

variable {post : Record Req Resp → α → Cluster → Prop} {fact : Cluster → Prop}

/-- The rule for a request whose response only tells something if it is the answer. -/
theorem Follows.write {r : Req} {next : Resp r → Controller α}
    (hstable : Stable cfg steady w fact) (hs : fact s)
    (hstep : ∀ t graceful, Inv cfg steady t → fact t →
      Step cfg steady (some w) seen t (t.answer graceful r).2)
    (hanswer : ∀ t graceful, Inv cfg steady t → fact t →
      Inv cfg steady (t.answer graceful r).2 →
      Follows cfg steady w post (next (t.answer graceful r).1)
        (seen ++ [⟨r, (t.answer graceful r).1⟩]) (t.answer graceful r).2)
    (hfailed : ∀ t u (failure : Failure) response, Inv cfg steady t → fact t → Inv cfg steady u →
      (u = t ∨ ∃ graceful, u = (t.answer graceful r).2) →
      failed failure.error r = some response →
      Follows cfg steady w post (next response) (seen ++ [⟨r, response⟩]) u) :
    Follows cfg steady w post (.call r next) seen s := by
  refine .call hstable hs hstep ?_
  intro t fault hi hfact hinv
  rcases serve_fst t fault r with hserved | ⟨failure, hresponse⟩
  · rw [hserved] at hinv ⊢
    exact hanswer t fault.graceful hi hfact hinv
  · refine hfailed t _ failure _ hi hfact hinv ?_ hresponse
    exact (serve_snd t fault r).imp_right fun heffect => ⟨fault.graceful, heffect⟩

/-- A new Pod as it is stored. -/
def newPod (pod : Pod) : Pod := { pod with deleting := false, phase := .pending }

/-- The rule for `Create` of a Pod. -/
theorem Follows.createPod {pod : Pod} {next : Except ApiError Unit → Controller α}
    (hstable : Stable cfg steady w fact) (hs : fact s)
    (hcreate : ∀ t, Inv cfg steady t → fact t → t.pods pod.key = none →
      PodChange cfg steady (some w) seen t (t.putPod (newPod pod)) pod.key none
        (some (newPod pod)))
    (hexists : ∀ t, Inv cfg steady t → fact t →
      Follows cfg steady w post (next (.error .alreadyExists))
        (seen ++ [⟨.createPod pod, .error .alreadyExists⟩]) t)
    (hother : ∀ t response, response ≠ .error .alreadyExists →
      Follows cfg steady w post (next response) (seen ++ [⟨.createPod pod, response⟩]) t) :
    Follows cfg steady w post (.call (.createPod pod) next) seen s := by
  refine .write hstable hs ?_ ?_ ?_
  · intro t graceful hi hfact
    cases hpod : t.pods pod.key with
    | some stored =>
      simp only [Cluster.answer, hpod]
      exact .refl ..
    | none =>
      simp only [Cluster.answer, hpod]
      refine .putPod ?_
      have hnew := hcreate t hi hfact hpod
      rw [← hpod] at hnew
      exact hnew
  · intro t graceful hi hfact _
    cases hpod : t.pods pod.key with
    | some stored =>
      simp only [Cluster.answer, hpod]
      exact hexists t hi hfact
    | none =>
      simp only [Cluster.answer, hpod]
      exact hother _ _ (ok_ne_error _ _)
  · intro t u failure response _ _ _ _ hresponse
    refine hother u response ?_
    rw [← Option.some.inj hresponse]
    intro heq
    exact failure.error_ne_alreadyExists (Except.error.inj heq)

/-- The rule for `Delete` of a Pod. -/
theorem Follows.deletePod {key : ObjectKey} {next : Except ApiError Unit → Controller α}
    (hstable : Stable cfg steady w fact) (hs : fact s)
    (hmay : ∀ t pod, Inv cfg steady t → fact t → t.pods key = some pod →
      MayDelete cfg steady (some w) t key pod)
    (hnone : ∀ t, Inv cfg steady t → fact t → t.pods key = none →
      Follows cfg steady w post (next (.error .notFound))
        (seen ++ [⟨.deletePod key, .error .notFound⟩]) t)
    (hother : ∀ t response, response ≠ .error .notFound →
      Follows cfg steady w post (next response) (seen ++ [⟨.deletePod key, response⟩]) t) :
    Follows cfg steady w post (.call (.deletePod key) next) seen s := by
  refine .write hstable hs ?_ ?_ ?_
  · intro t graceful hi hfact
    cases hpod : t.pods key with
    | none =>
      simp only [Cluster.answer, hpod]
      exact .refl ..
    | some pod =>
      simp only [Cluster.answer, hpod]
      exact .markPod hi hpod graceful (hmay t pod hi hfact hpod)
  · intro t graceful hi hfact _
    cases hpod : t.pods key with
    | none =>
      simp only [Cluster.answer, hpod]
      exact hnone t hi hfact hpod
    | some pod =>
      simp only [Cluster.answer, hpod]
      exact hother _ _ (ok_ne_error _ _)
  · intro t u failure response _ _ _ _ hresponse
    refine hother u response ?_
    rw [← Option.some.inj hresponse]
    intro heq
    exact failure.error_ne_notFound (Except.error.inj heq)

/-- The rule for a request that stores a version of a volume. -/
theorem Follows.putVolume {r : Req} {next : Resp r → Controller α} (pv : PersistentVolume)
    (merge : PersistentVolume → PersistentVolume)
    (hmerge : ∀ stored, (merge stored).name = stored.name)
    (heffect : ∀ t graceful, (Cluster.answer t graceful r).2 = t ∨
      ∃ stored, t.volumes pv.name = some stored ∧ pv.resourceVersion = stored.resourceVersion ∧
        (t.answer graceful r).2 = t.putVolume (merge stored))
    (hstable : Stable cfg steady w fact) (hs : fact s)
    (hupdate : ∀ t stored, Inv cfg steady t → fact t → t.volumes pv.name = some stored →
      pv.resourceVersion = stored.resourceVersion →
      VolumeUpdate cfg (some w) t (t.putVolume (merge stored)) pv.name stored
        { merge stored with resourceVersion := t.revision + 1 })
    (hnext : ∀ t u response, Inv cfg steady t → fact t → Inv cfg steady u →
      (u = t ∨ ∃ stored, t.volumes pv.name = some stored ∧
        pv.resourceVersion = stored.resourceVersion ∧ u = t.putVolume (merge stored)) →
      Follows cfg steady w post (next response) (seen ++ [⟨r, response⟩]) u) :
    Follows cfg steady w post (.call r next) seen s := by
  refine .write hstable hs ?_ ?_ ?_
  · intro t graceful hi hfact
    rcases heffect t graceful with hsame | ⟨stored, hstored, hversion, hput⟩
    · rw [hsame]
      exact .refl ..
    · rw [hput]
      have hu := hupdate t stored hi hfact hstored hversion
      have hname : (merge stored).name = pv.name := (hmerge stored).trans (hi.volume_name hstored)
      rw [← hname] at hstored hu
      exact .putVolume hstored hu
  · intro t graceful hi hfact hinv
    exact hnext t _ _ hi hfact hinv (heffect t graceful)
  · intro t u failure response hi hfact hinv hu _
    refine hnext t u response hi hfact hinv ?_
    rcases hu with rfl | ⟨graceful, rfl⟩
    · exact Or.inl rfl
    · exact heffect t graceful

/-- The rule for a request that stores a version of a claim. -/
theorem Follows.putClaim {r : Req} {next : Resp r → Controller α} (c : PersistentVolumeClaim)
    (merge : PersistentVolumeClaim → PersistentVolumeClaim)
    (hmerge : ∀ stored, (merge stored).key = stored.key)
    (heffect : ∀ t graceful, (Cluster.answer t graceful r).2 = t ∨
      ∃ stored, t.claims c.key = some stored ∧ c.resourceVersion = stored.resourceVersion ∧
        (t.answer graceful r).2 = t.putClaim (merge stored))
    (hstable : Stable cfg steady w fact) (hs : fact s)
    (hupdate : ∀ t stored, Inv cfg steady t → fact t → t.claims c.key = some stored →
      c.resourceVersion = stored.resourceVersion →
      ClaimUpdate cfg steady (some w) t (t.putClaim (merge stored)) c.key stored
        { merge stored with resourceVersion := t.revision + 1 })
    (hnext : ∀ u response,
      Follows cfg steady w post (next response) (seen ++ [⟨r, response⟩]) u) :
    Follows cfg steady w post (.call r next) seen s := by
  refine .write hstable hs ?_ (fun _ _ _ _ _ => hnext _ _)
    (fun _ u _ response _ _ _ _ _ => hnext u response)
  intro t graceful hi hfact
  rcases heffect t graceful with hsame | ⟨stored, hstored, hversion, hput⟩
  · rw [hsame]
    exact .refl ..
  · rw [hput]
    have hu := hupdate t stored hi hfact hstored hversion
    have hkey : (merge stored).key = c.key := (hmerge stored).trans (hi.claim hstored).1
    rw [← hkey] at hstored hu
    exact .putClaim hstored hu

/-- The rule for `Delete` of a claim: it is always permitted. -/
theorem Follows.deleteClaim {key : ObjectKey} {next : Except ApiError Unit → Controller α}
    (hnext : ∀ u response, Follows cfg steady w post (next response)
      (seen ++ [⟨.deleteClaim key, response⟩]) u) :
    Follows cfg steady w post (.call (.deleteClaim key) next) seen s := by
  refine .write (stable_const True) trivial ?_ (fun _ _ _ _ _ => hnext _ _)
    (fun _ u _ response _ _ _ _ _ => hnext u response)
  intro t graceful hi _
  cases hc : t.claims key with
  | none =>
    simp only [Cluster.answer, hc]
    exact .refl ..
  | some c =>
    simp only [Cluster.answer, hc]
    exact .markClaim hi hc

/-- The rule for `Delete` of a volume. -/
theorem Follows.deleteVolume {name : String} {next : Except ApiError Unit → Controller α}
    (hstable : Stable cfg steady w fact) (hs : fact s)
    (hpolicy : ∀ t pv, Inv cfg steady t → fact t → t.volumes name = some pv →
      pv.spec.reclaimPolicy = .delete)
    (hok : ∀ t pv, Inv cfg steady t → fact t → t.volumes name = some pv →
      Follows cfg steady w post (next (.ok ())) (seen ++ [⟨.deleteVolume name, .ok ()⟩])
        (t.markVolume pv))
    (hnone : ∀ t, Inv cfg steady t → fact t → t.volumes name = none →
      Follows cfg steady w post (next (.error .notFound))
        (seen ++ [⟨.deleteVolume name, .error .notFound⟩]) t)
    (herror : ∀ u e, e ≠ .notFound → Follows cfg steady w post (next (.error e))
      (seen ++ [⟨.deleteVolume name, .error e⟩]) u) :
    Follows cfg steady w post (.call (.deleteVolume name) next) seen s := by
  refine .write hstable hs ?_ ?_ ?_
  · intro t graceful hi hfact
    cases hpv : t.volumes name with
    | none =>
      simp only [Cluster.answer, hpv]
      exact .refl ..
    | some pv =>
      simp only [Cluster.answer, hpv]
      exact .markVolume hi hpv fun _ _ => hpolicy t pv hi hfact hpv
  · intro t graceful hi hfact _
    cases hpv : t.volumes name with
    | none =>
      simp only [Cluster.answer, hpv]
      exact hnone t hi hfact hpv
    | some pv =>
      simp only [Cluster.answer, hpv]
      exact hok t pv hi hfact hpv
  · intro t u failure response _ _ _ _ hresponse
    rw [← Option.some.inj hresponse]
    exact herror u _ failure.error_ne_notFound

/-- The rule for `Create` of a volume. -/
theorem Follows.createVolume {pv : PersistentVolume} {next : Except ApiError Unit → Controller α}
    (hstable : Stable cfg steady w fact) (hs : fact s)
    (hcreate : ∀ t, Inv cfg steady t → fact t → t.volumes pv.name = none →
      Step cfg steady (some w) seen t (t.provision pv))
    (hok : ∀ t, Inv cfg steady t → fact t →
      Follows cfg steady w post (next (.ok ())) (seen ++ [⟨.createVolume pv, .ok ()⟩])
        (t.provision pv))
    (herror : ∀ u e, Follows cfg steady w post (next (.error e))
      (seen ++ [⟨.createVolume pv, .error e⟩]) u) :
    Follows cfg steady w post (.call (.createVolume pv) next) seen s := by
  refine .write hstable hs ?_ ?_ ?_
  · intro t graceful hi hfact
    cases hpv : t.volumes pv.name with
    | some stored =>
      simp only [Cluster.answer, hpv]
      exact .refl ..
    | none =>
      simp only [Cluster.answer, hpv]
      exact hcreate t hi hfact hpv
  · intro t graceful hi hfact _
    cases hpv : t.volumes pv.name with
    | some stored =>
      simp only [Cluster.answer, hpv]
      exact herror t _
    | none =>
      simp only [Cluster.answer, hpv]
      exact hok t hi hfact
  · intro t u failure response _ _ _ _ hresponse
    rw [← Option.some.inj hresponse]
    exact herror u _

end Writes

end K8StorageX.ControllerRules
