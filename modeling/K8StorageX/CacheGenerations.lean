import K8StorageX.CacheReset
import K8StorageX.CacheStructure
import K8StorageX.CacheUpdater

/-!
# The generation a reset is recorded for

`freeStorage` skips a Cache whose last reset belongs to its current
`Status.CacheGeneration`. What it records at the end of a reset is `Generation` of the
Cache instead, the counter of its specification. A reset is finished for good exactly if
both counters agree at that time.
-/

namespace K8StorageX.CacheGenerations

open ApiProgram GoErrors CacheModel CacheStructure Conditions CacheController CacheReset
open KubeObjects (ObjectKey)
open KubeApi (Fault)
open JobReconciler (PodResult podResult)

/-- The last reset belongs to the current generation. -/
def Recorded (status : FullStatus) : Prop :=
  status.lastReset.map ResetStatus.cacheGeneration = some status.cacheGeneration

instance (status : FullStatus) : Decidable (Recorded status) :=
  inferInstanceAs (Decidable (_ = _))

/-- A version of a Cache with the generation and the last reset of a status. -/
structure Shows (key : ObjectKey) (status : FullStatus) (c : CacheResource) : Prop where
  /-- It is this Cache. -/
  key : c.key = key
  /-- Its generation. -/
  cacheGeneration : c.status.cacheGeneration = status.cacheGeneration
  /-- Its last reset. -/
  lastReset : c.status.lastReset = status.lastReset

/-- What is stored of a Cache shows a status. -/
def StoredAs (key : ObjectKey) (status : FullStatus) (s : Cluster) : Prop :=
  ∀ c, s.caches key = some c → Shows key status c

/-- A Cache is stored under its key. -/
def Keyed (key : ObjectKey) (s : Cluster) : Prop := ∀ c, s.caches key = some c → c.key = key

/-- The others leave the generation and the last reset of a Cache alone. They may edit it
otherwise or remove it, and do anything to other objects. -/
def Spares (key : ObjectKey) (s t : Cluster) : Prop :=
  ∀ c, t.caches key = some c → ∃ before, s.caches key = some before ∧ Shows before.key before.status c

/-- The others act, then a request is served. -/
def Answers (key : ObjectKey) (r : Req) (s : Cluster) (response : Resp r) (t : Cluster) : Prop :=
  ∃ u fault, Spares key s u ∧ u.serve fault r = (response, t)

/-- The Cache that a request has read. -/
def readCache : (r : Req) → Resp r → Option CacheResource
  | .getCache _, response => response.toOption
  | _, _ => none

/-- The Cache as it has been read last, at first the one given. -/
def lastRead (cache : CacheResource) (record : Record Req Resp) : CacheResource :=
  record.foldl (fun known exchange => (readCache exchange.1 exchange.2).getD known) cache

/-- A Pod has been found to have succeeded. -/
def findsSucceeded (key : ObjectKey) : (r : Req) → Resp r → Bool
  | .getPod k, .ok pod => k = key && pod.phase = .succeeded
  | _, _ => false

/-- The Pod of a reset has succeeded. -/
def PodSucceeded (key : ObjectKey) (record : Record Req Resp) : Prop :=
  ∃ exchange ∈ record, findsSucceeded key exchange.1 exchange.2 = true

instance (key : ObjectKey) (record : Record Req Resp) : Decidable (PodSucceeded key record) :=
  inferInstanceAs (Decidable (∃ exchange ∈ record, _ = true))

/-- A status update that is answered has been stored. -/
def storesStatus : (r : Req) → Resp r → Bool
  | .updateCacheStatus _, .error _ => false
  | _, _ => true

/-- All status updates have been stored. -/
def UpdatesStored (record : Record Req Resp) : Prop :=
  ∀ exchange ∈ record, storesStatus exchange.1 exchange.2 = true

instance (record : Record Req Resp) : Decidable (UpdatesStored record) :=
  inferInstanceAs (Decidable (∀ exchange ∈ record, _ = true))

/-- A request creates a Pod. -/
def createsPod : Req → Bool
  | .createPod _ => true
  | _ => false

/-- A call of an `Updater` registers a committable volume. -/
def registersCommittable (spec : CacheSpec) : CacheUpdater.Call → Bool
  | .register _ _ _ commit => commit && !spec.readOnly
  | _ => false

/-- Later calls of `freeStorage`, each with the Cache as it is stored, with the record of all
their requests. In between nodes update the status of the Cache without registering
committable volumes, and others act. -/
inductive LaterCalls (settings : Settings) (key : ObjectKey) :
    Cluster → Record Req Resp → Cluster → Prop
  /-- No further call. -/
  | done (s : Cluster) : LaterCalls settings key s [] s
  /-- The others act. -/
  | others {s t u : Cluster} {later : Record Req Resp} (spares : Spares key s t)
      (rest : LaterCalls settings key t later u) : LaterCalls settings key s later u
  /-- A node updates the status. -/
  | update {s u : Cluster} {cache : CacheResource} {later : Record Req Resp} {spec : CacheSpec}
      {update : CacheUpdater.Call} (now : Time) (stored : s.caches key = some cache)
      (uncommitted : registersCommittable spec update = false)
      (rest : LaterCalls settings key (s.putCache (edited cache cache.generation
        (update.modify now ⟨spec, cache.status.toCacheStatus⟩).1.status)) later u) :
      LaterCalls settings key s later u
  /-- One call. -/
  | call {s t u : Cluster} {cache : CacheResource} {record later : Record Req Resp}
      {result : Option GoError × CacheResource} (stored : s.caches key = some cache)
      (yields : (freeStorage settings cache).Yields record result)
      (answered : Prog.Answered (Answers key) record s t)
      (rest : LaterCalls settings key t later u) :
      LaterCalls settings key s (record ++ later) u

/-- The requests that follow a finished reset: none creates a Pod, and a status that is
written shows the recorded reset. -/
def Concludes (key : ObjectKey) (status : FullStatus) : Req → Prop
  | .updateCacheStatus c => Shows key status c
  | .getPod _ => True
  | .deletePod _ => True
  | .now => True
  | _ => False

section Updates

/-- Only the registration of a committable volume starts a new generation. -/
theorem cacheGeneration_modify {c : Cache} {update : CacheUpdater.Call} (now : Time)
    (h : registersCommittable c.spec update = false) :
    (update.modify now c).1.status.cacheGeneration = c.status.cacheGeneration := by
  cases update with
  | register nodeName volumeName defaultImage commit =>
    exact cacheGeneration_addVolume nodeName volumeName now h
  | prepareCommit nodeName volumeName =>
    exact cacheGeneration_decideCommit nodeName volumeName now c
  | unregister nodeName volumeName commitErr =>
    exact cacheGeneration_removeVolume c.status nodeName volumeName now

end Updates

section Answers

variable {key : ObjectKey} {status : FullStatus} {s t : Cluster} {r : Req} {response : Resp r}

/-- What the others do leaves the Cache under its key. -/
theorem Spares.keyed (h : Spares key s t) (hs : Keyed key s) : Keyed key t := by
  intro c hc
  obtain ⟨before, hbefore, hshows⟩ := h c hc
  rw [hshows.key, hs before hbefore]

/-- It leaves the recorded reset as it is. -/
theorem Spares.storedAs (h : Spares key s t) (hs : StoredAs key status s) : StoredAs key status t := by
  intro c hc
  obtain ⟨before, hbefore, hshows⟩ := h c hc
  have hstored := hs before hbefore
  exact ⟨hshows.key.trans hstored.key, hshows.cacheGeneration.trans hstored.cacheGeneration,
    hshows.lastReset.trans hstored.lastReset⟩

/-- The Caches after a status update. -/
theorem caches_of_putStatus {c stored : CacheResource} {k : ObjectKey} {c' : CacheResource}
    (h : (s.putStatus stored c).caches k = some c') :
    (k = stored.key ∧ c'.key = stored.key ∧ c'.status = c.status) ∨
      (k ≠ stored.key ∧ s.caches k = some c') := by
  rw [caches_putStatus] at h
  rcases caches_putCache h with ⟨hk, rfl⟩ | hother
  · exact Or.inl ⟨hk, rfl, rfl⟩
  · exact Or.inr hother

/-- A request has an effect on what the others leave, or none. -/
theorem Answers.effect (h : Answers key r s response t) :
    ∃ u graceful, Spares key s u ∧ (t = u ∨ Effect u graceful r t) := by
  obtain ⟨u, fault, hspares, hserve⟩ := h
  obtain rfl : t = (u.serve fault r).2 := by rw [hserve]
  exact ⟨u, fault.graceful, hspares, serve_snd u fault r⟩

/-- A served request leaves the Cache under its key. -/
theorem Answers.keyed (h : Answers key r s response t) (hs : Keyed key s) : Keyed key t := by
  obtain ⟨u, graceful, hspares, hsame | heffect⟩ := h.effect
  · rw [hsame]
    exact hspares.keyed hs
  · have hu := hspares.keyed hs
    intro c hc
    cases heffect with
    | updateCache hfound _ =>
      rcases caches_putCache hc with ⟨hk, rfl⟩ | ⟨-, hsame⟩
      · exact hk.symm
      · exact hu c hsame
    | updateCacheStatus hfound _ =>
      rcases caches_of_putStatus hc with ⟨hk, hkey, -⟩ | ⟨-, hsame⟩
      · exact hkey.trans hk.symm
      · exact hu c hsame
    | createPod _ => exact hu c hc
    | deletePod _ =>
      rw [Cluster.caches_markPod] at hc
      exact hu c hc

/-- What follows a finished reset keeps the recorded reset. -/
theorem Answers.storedAs (h : Answers key r s response t) (hr : Concludes key status r)
    (hs : StoredAs key status s) : StoredAs key status t := by
  obtain ⟨u, graceful, hspares, hsame | heffect⟩ := h.effect
  · rw [hsame]
    exact hspares.storedAs hs
  · have hu := hspares.storedAs hs
    intro c hc
    cases heffect with
    | updateCache hfound _ => exact hr.elim
    | @updateCacheStatus written stored hfound _ =>
      rcases caches_of_putStatus hc with ⟨hk, hkey, hstatus⟩ | ⟨-, hsame⟩
      · refine ⟨hkey.trans hk.symm, ?_, ?_⟩
        · rw [hstatus, hr.cacheGeneration]
        · rw [hstatus, hr.lastReset]
      · exact hu c hsame
    | createPod _ => exact hr.elim
    | deletePod _ =>
      rw [Cluster.caches_markPod] at hc
      exact hu c hc

/-- So does a whole record. -/
theorem keyed_of_answered {record : Record Req Resp} (h : Prog.Answered (Answers key) record s t)
    (hs : Keyed key s) : Keyed key t := by
  induction record generalizing s with
  | nil =>
    obtain rfl := h
    exact hs
  | cons exchange record ih =>
    obtain ⟨u, hanswer, hrest⟩ := h
    exact ih hrest (hanswer.keyed hs)

/-- A record of requests that show the status leaves the recorded reset as it is. -/
theorem storedAs_of_answered {record : Record Req Resp}
    (h : Prog.Answered (Answers key) record s t)
    (hrecord : ∀ exchange ∈ record, Concludes key status exchange.1) (hs : StoredAs key status s) :
    StoredAs key status t := by
  induction record generalizing s with
  | nil =>
    obtain rfl := h
    exact hs
  | cons exchange record ih =>
    obtain ⟨u, hanswer, hrest⟩ := h
    exact ih hrest (fun e he => hrecord e (List.mem_cons_of_mem exchange he))
      (hanswer.storedAs (hrecord exchange List.mem_cons_self) hs)

/-- A status update that is answered is stored and returned. -/
theorem Answers.stored {c updated : CacheResource}
    (h : Answers key (.updateCacheStatus c) s (.ok updated) t) (hkey : c.key = key)
    (hs : Keyed key s) : Shows key c.status updated ∧ StoredAs key c.status t := by
  subst hkey
  obtain ⟨u, fault, hspares, hserve⟩ := h
  obtain ⟨stored, hfound, -, hupdated, hstate⟩ :=
    serve_updateCacheStatus (congrArg Prod.fst hserve)
  have hstoredKey : stored.key = c.key := hspares.keyed hs stored hfound
  obtain rfl : t = u.putStatus stored c := by rw [← hstate, hserve]
  constructor
  · subst hupdated
    exact ⟨hstoredKey, rfl, rfl⟩
  · intro c' hc'
    rcases caches_of_putStatus hc' with ⟨-, hkey, hstatus⟩ | ⟨hne, -⟩
    · exact ⟨hkey.trans hstoredKey, by rw [hstatus], by rw [hstatus]⟩
    · exact absurd hstoredKey.symm hne

end Answers

section Programs

variable {settings : Settings} {cache : CacheResource} {key : ObjectKey} {status : FullStatus}
variable {record : Record Req Resp} {s t : Cluster}

/-- A condition does not change what a Cache shows. -/
theorem shows_withCondition (h : Shows key status cache) (now : Time) (condType : String)
    (condStatus : ConditionStatus) (reason message : String) :
    Shows key status (withCondition now cache condType condStatus reason message).2 :=
  ⟨h.key, h.cacheGeneration, h.lastReset⟩

/-- Nor does the condition about its Pods. -/
theorem shows_podsCleared (h : Shows key status cache) (now : Time) (err : Option GoError) :
    Shows key status (podsCleared now cache err).2 := by
  cases err with
  | none => exact shows_withCondition h _ _ _ _ _
  | some e => exact shows_withCondition h _ _ _ _ _

/-- Deleting the Pods of a Cache writes what it shows. -/
theorem concludes_deletePods (h : Shows key status cache) (name : String) :
    (deletePods settings cache name).Issues (Concludes key status) := by
  unfold deletePods
  split
  · trivial
  · refine Prog.Issues.bind ?_ fun err => Prog.Issues.request_bind trivial fun now => ?_
    · refine Prog.Issues.request_bind trivial fun read => ?_
      split
      · split <;> trivial
      · refine Prog.Issues.request_bind trivial fun deleted => ?_
        split <;> trivial
    · dsimp only
      split
      · refine Prog.Issues.request_bind (shows_podsCleared h now err) fun updated => ?_
        split <;> trivial
      · trivial

/-- The last read of two parts is that of the second, if it has one. -/
@[simp] theorem lastRead_append (cache : CacheResource) (first last : Record Req Resp) :
    lastRead cache (first ++ last) = lastRead (lastRead cache first) last :=
  List.foldl_append

/-- A read replaces the Cache that was known. -/
@[simp] theorem lastRead_cons (cache : CacheResource) (exchange : Σ r, Resp r)
    (record : Record Req Resp) : lastRead cache (exchange :: record) =
      lastRead ((readCache exchange.1 exchange.2).getD cache) record := rfl

/-- Without a read the given Cache is known. -/
@[simp] theorem lastRead_nil (cache : CacheResource) : lastRead cache [] = cache := rfl

/-- What follows a finished reset does not read the Cache. -/
theorem lastRead_of_concludes (h : ∀ exchange ∈ record, Concludes key status exchange.1) :
    lastRead cache record = cache := by
  induction record with
  | nil => rfl
  | cons exchange record ih =>
    have hnone : readCache exchange.1 exchange.2 = none := by
      obtain ⟨r, response⟩ := exchange
      have hr := h ⟨r, response⟩ List.mem_cons_self
      cases r with
      | getCache k => exact hr.elim
      | _ => rfl
    rw [lastRead_cons, hnone]
    exact ih fun e he => h e (List.mem_cons_of_mem exchange he)

/-- The check decides whether the reset is recorded. -/
theorem recorded_iff : Recorded status ↔ status.lastReset.any (fun reset =>
    reset.cacheGeneration == status.cacheGeneration) = true := by
  unfold Recorded
  cases status.lastReset <;> simp

/-- A Cache that shows a status has recorded the reset if the status has. -/
theorem Shows.recorded_iff (h : Shows key status cache) : Recorded cache.status ↔ Recorded status := by
  rw [Recorded, Recorded, h.cacheGeneration, h.lastReset]

/-- A Cache whose reset is recorded is only cleaned up. -/
theorem freeStorage_of_recorded (h : Recorded cache.status) :
    freeStorage settings cache = deletePods settings cache (imageUntagPodName cache) := by
  rw [freeStorage, if_pos (recorded_iff.mp h)]

/-- The same Cache with the same two counters. -/
structure Agrees (c known : CacheResource) : Prop where
  /-- `Generation` -/
  generation : c.generation = known.generation
  /-- `Status.CacheGeneration` -/
  cacheGeneration : c.status.cacheGeneration = known.status.cacheGeneration

/-- Nothing has been found in an empty record. -/
@[simp] theorem podSucceeded_nil : ¬ PodSucceeded key [] := by simp [PodSucceeded]

/-- A success is found in the first exchange or later. -/
@[simp] theorem podSucceeded_cons (exchange : Σ r, Resp r) : PodSucceeded key (exchange :: record) ↔
    findsSucceeded key exchange.1 exchange.2 = true ∨ PodSucceeded key record := by
  simp [PodSucceeded]

/-- It is found in one of two parts. -/
@[simp] theorem podSucceeded_append (first last : Record Req Resp) :
    PodSucceeded key (first ++ last) ↔ PodSucceeded key first ∨ PodSucceeded key last := by
  simp [PodSucceeded, or_and_right, exists_or]

/-- `lockCache` hands on the Cache as it has been read last, and asks for no Pod. -/
theorem yields_lockCache (key : ObjectKey) {result : Except GoError Pod × CacheResource}
    (h : (lockCache settings cache).Yields record result)
    (hanswered : Prog.Answered (Answers cache.key) record s t) (hs : Keyed cache.key s) :
    (∀ pod c, result = (.ok pod, c) → c.key = cache.key ∧ Agrees c (lastRead cache record)) ∧
      ¬ PodSucceeded key record := by
  replace ⟨now, rest, hrecord, h⟩ := Prog.yields_request_bind_iff.mp h
  subst hrecord
  obtain ⟨s₁, hnow, hanswered⟩ := hanswered
  split at h
  · replace ⟨updated, rest, hrecord, h⟩ := Prog.yields_request_bind_iff.mp h
    subst hrecord
    obtain ⟨s₂, hupdate, hanswered⟩ := hanswered
    cases updated with
    | error e =>
      obtain ⟨rfl, rfl⟩ := h
      exact ⟨fun pod c heq => (by cases heq), by simp [findsSucceeded]⟩
    | ok updated =>
      replace ⟨read, rest, hrecord, h⟩ := Prog.yields_request_bind_iff.mp h
      subst hrecord
      obtain ⟨s₃, hread, -⟩ := hanswered
      cases read with
      | error e =>
        obtain ⟨rfl, rfl⟩ := h
        exact ⟨fun pod c heq => (by cases heq), by simp [findsSucceeded]⟩
      | ok read =>
        obtain ⟨rfl, rfl⟩ := h
        refine ⟨fun pod c heq => ?_, by simp [findsSucceeded]⟩
        cases heq
        obtain ⟨u, fault, hspares, hserve⟩ := hread
        have hfound : u.caches cache.key = some read :=
          serve_getCache (congrArg Prod.fst hserve)
        exact ⟨hspares.keyed (hupdate.keyed (hnow.keyed hs)) read hfound, ⟨rfl, rfl⟩⟩
  · obtain ⟨rfl, rfl⟩ := h
    refine ⟨fun pod c heq => ?_, by simp [findsSucceeded]⟩
    cases heq
    exact ⟨rfl, ⟨rfl, rfl⟩⟩

/-- A Pod with an error has not succeeded. -/
theorem phase_of_podResult {pod : KubeObjects.Pod} (h : (podResult pod).err ≠ none) :
    pod.phase ≠ .succeeded := by
  intro hphase
  simp [podResult, hphase] at h

/-- `ReconcilePod` without an error hands on the Cache as it has been read last. With an
error no Pod has been found to have succeeded. -/
theorem yields_reconcilePod {result : PodResult × CacheResource}
    (h : (reconcilePod key cache (lockCache settings cache)).Yields record result)
    (hanswered : Prog.Answered (Answers cache.key) record s t) (hs : Keyed cache.key s) :
    (result.1.err = none → result.2.key = cache.key ∧ Agrees result.2 (lastRead cache record)) ∧
      (result.1.err ≠ none → ¬ PodSucceeded key record) := by
  replace ⟨read, rest, hrecord, h⟩ := Prog.yields_request_bind_iff.mp h
  subst hrecord
  obtain ⟨s₁, hread, hanswered⟩ := hanswered
  cases read with
  | ok pod =>
    obtain ⟨rfl, rfl⟩ := h
    refine ⟨fun _ => ⟨rfl, ⟨rfl, rfl⟩⟩, fun herr => ?_⟩
    simpa [findsSucceeded] using phase_of_podResult herr
  | error e =>
    dsimp only at h
    split at h
    · replace ⟨made, lock, rest, hrecord, hlock, h⟩ := Prog.yields_bind_iff.mp h
      subst hrecord
      obtain ⟨s₂, hlocked, hanswered⟩ := Prog.answered_append.mp hanswered
      obtain ⟨hhands, hasks⟩ := yields_lockCache key hlock hlocked (hread.keyed hs)
      obtain ⟨made, known⟩ := made
      cases made with
      | error e =>
        obtain ⟨rfl, rfl⟩ := h
        exact ⟨fun herr => (by cases herr), by simp [findsSucceeded, hasks]⟩
      | ok pod =>
        obtain ⟨hkey, hagrees⟩ := hhands pod known rfl
        replace ⟨created, rest, hrecord, h⟩ := Prog.yields_request_bind_iff.mp h
        subst hrecord
        cases created with
        | ok _ =>
          obtain ⟨rfl, rfl⟩ := h
          exact ⟨fun _ => ⟨hkey, by simpa [readCache] using hagrees⟩, by simp⟩
        | error e =>
          dsimp only at h
          split at h
          · replace ⟨again, rest, hrecord, h⟩ := Prog.yields_request_bind_iff.mp h
            subst hrecord
            cases again with
            | ok pod =>
              obtain ⟨rfl, rfl⟩ := h
              refine ⟨fun _ => ⟨hkey, by simpa [readCache] using hagrees⟩, fun herr => ?_⟩
              simpa [findsSucceeded, hasks] using phase_of_podResult herr
            | error e =>
              obtain ⟨rfl, rfl⟩ := h
              exact ⟨fun herr => (by cases herr), by simp [findsSucceeded, hasks]⟩
          · obtain ⟨rfl, rfl⟩ := h
            exact ⟨fun herr => (by cases herr), by simp [findsSucceeded, hasks]⟩
    · obtain ⟨rfl, rfl⟩ := h
      exact ⟨fun herr => (by cases herr), by simp [findsSucceeded]⟩

/-- A report of a failure finds no success. -/
theorem not_podSucceeded_reportFailure {done : Bool} {err : GoError}
    {result : Option GoError × CacheResource}
    (h : (reportFailure cache done err).Yields record result) : ¬ PodSucceeded key record := by
  replace ⟨now, rest, hrecord, h⟩ := Prog.yields_request_bind_iff.mp h
  subst hrecord
  dsimp only at h
  split at h
  · replace ⟨updated, rest, hrecord, h⟩ := Prog.yields_request_bind_iff.mp h
    subst hrecord
    cases updated <;> (obtain ⟨rfl, rfl⟩ := h; simp [findsSucceeded])
  · obtain ⟨rfl, rfl⟩ := h
    simp [findsSucceeded]

/-- The reset that is recorded belongs to `Generation`. -/
theorem recorded_finished (now resetTime : Time) (cache : CacheResource) :
    Recorded (finished now resetTime cache).status ↔
      cache.generation = cache.status.cacheGeneration := by
  simp [Recorded, finished, withCondition]

/-- What is stored once the reset is reported, and that the Cache is not read again. -/
theorem yields_reportSuccess {result : Option GoError × CacheResource}
    (h : (reportSuccess settings cache).Yields record result)
    (hanswered : Prog.Answered (Answers cache.key) record s t) (hs : Keyed cache.key s)
    (hstored : UpdatesStored record) :
    (∃ status, StoredAs cache.key status t ∧
      (Recorded status ↔ cache.generation = cache.status.cacheGeneration)) ∧
      ∀ known, lastRead known record = known := by
  replace ⟨now, rest, hrecord, h⟩ := Prog.yields_request_bind_iff.mp h
  subst hrecord
  obtain ⟨s₁, hnow, hanswered⟩ := hanswered
  replace ⟨resetTime, rest, hrecord, h⟩ := Prog.yields_request_bind_iff.mp h
  subst hrecord
  obtain ⟨s₂, hresetTime, hanswered⟩ := hanswered
  replace ⟨updated, rest, hrecord, h⟩ := Prog.yields_request_bind_iff.mp h
  subst hrecord
  obtain ⟨s₃, hupdate, hanswered⟩ := hanswered
  cases updated with
  | error e =>
    have hlost := hstored ⟨.updateCacheStatus (finished now resetTime cache), .error e⟩ (by simp)
    cases hlost
  | ok updated =>
    have hkeyed := hresetTime.keyed (hnow.keyed hs)
    obtain ⟨hshows, hstoredAs⟩ := hupdate.stored rfl hkeyed
    have hrest := (concludes_deletePods hshows _).of_yields h
    refine ⟨⟨_, storedAs_of_answered hanswered hrest hstoredAs, recorded_finished _ _ _⟩, ?_⟩
    intro known
    simpa [readCache] using lastRead_of_concludes hrest

end Programs

section Calls

variable {settings : Settings} {cache : CacheResource} {key : ObjectKey} {status : FullStatus}
variable {record later : Record Req Resp} {s t u : Cluster}

/-- An update of a node that registers no committable volume keeps the recorded reset. -/
theorem storedAs_update {update : CacheUpdater.Call} {spec : CacheSpec} (now : Time)
    (hs : StoredAs key status s) (hstored : s.caches key = some cache)
    (huncommitted : registersCommittable spec update = false) :
    StoredAs key status (s.putCache (edited cache cache.generation
      (update.modify now ⟨spec, cache.status.toCacheStatus⟩).1.status)) := by
  intro c hc
  have hshows := hs cache hstored
  rcases caches_putCache hc with ⟨-, rfl⟩ | ⟨-, hsame⟩
  · exact ⟨hshows.key, (cacheGeneration_modify now huncommitted).trans hshows.cacheGeneration,
      hshows.lastReset⟩
  · exact hs c hsame

/-- A recorded reset is not repeated. -/
theorem LaterCalls.storedAs (h : LaterCalls settings key s later u) (hs : StoredAs key status s)
    (hrecorded : Recorded status) :
    StoredAs key status u ∧ ∀ exchange ∈ later, createsPod exchange.1 = false := by
  induction h with
  | done s => exact ⟨hs, by simp⟩
  | others hspares _ ih => exact ih (hspares.storedAs hs)
  | update now hstored huncommitted _ ih => exact ih (storedAs_update now hs hstored huncommitted)
  | call hstored hyields hanswered _ ih =>
    have hshows := hs _ hstored
    rw [freeStorage_of_recorded (hshows.recorded_iff.mpr hrecorded)] at hyields
    have hconcludes := (concludes_deletePods hshows _).of_yields hyields
    obtain ⟨hlast, hlater⟩ := ih (storedAs_of_answered hanswered hconcludes hs)
    refine ⟨hlast, fun exchange hmem => ?_⟩
    rcases List.mem_append.mp hmem with hmem | hmem
    · have hr := hconcludes exchange hmem
      generalize exchange.1 = r at hr ⊢
      cases r with
      | createPod pod => exact hr.elim
      | _ => rfl
    · exact hlater exchange hmem

/-- The reset has been recorded before, or the two counters of the Cache agree in the
version with which the reset is reported. -/
def Matched (cache : CacheResource) (record : Record Req Resp) : Prop :=
  Recorded cache.status ∨
    (lastRead cache record).generation = (lastRead cache record).status.cacheGeneration

/-- What a reset leaves behind once its Pod has succeeded and its updates are stored. -/
theorem yields_freeStorage {result : Option GoError × CacheResource}
    (h : (freeStorage settings cache).Yields record result) (hcurrent : s.caches cache.key = some cache)
    (hanswered : Prog.Answered (Answers cache.key) record s t)
    (hpod : PodSucceeded (podKey settings cache.key) record) (hstored : UpdatesStored record) :
    ∃ status, StoredAs cache.key status t ∧ (Recorded status ↔ Matched cache record) := by
  have hself : Shows cache.key cache.status cache := ⟨rfl, rfl, rfl⟩
  have hstoredAs : StoredAs cache.key cache.status s := by
    intro c hc
    cases hcurrent.symm.trans hc
    exact hself
  by_cases hrecorded : Recorded cache.status
  · rw [freeStorage_of_recorded hrecorded] at h
    have hconcludes := (concludes_deletePods hself _).of_yields h
    exact ⟨cache.status, storedAs_of_answered hanswered hconcludes hstoredAs,
      iff_of_true hrecorded (Or.inl hrecorded)⟩
  · rw [freeStorage, if_neg (mt recorded_iff.mpr hrecorded)] at h
    obtain ⟨reconciled, first, last, rfl, hfirst, hlast⟩ := Prog.yields_bind_iff.mp h
    obtain ⟨s₁, hanswered₁, hanswered₂⟩ := Prog.answered_append.mp hanswered
    have hkeyed : Keyed cache.key s := fun c hc => (hstoredAs c hc).key
    obtain ⟨hhands, hfails⟩ := yields_reconcilePod hfirst hanswered₁ hkeyed
    cases herr : reconciled.1.err with
    | some err =>
      rw [herr] at hlast
      have hnone : ¬ PodSucceeded (podKey settings cache.key) last :=
        not_podSucceeded_reportFailure hlast
      rcases (podSucceeded_append first last).mp hpod with hpod | hpod
      · exact absurd hpod (hfails (by simp [herr]))
      · exact absurd hpod hnone
    | none =>
      rw [herr] at hlast
      obtain ⟨hkey, hagrees⟩ := hhands herr
      rw [← hkey] at hanswered₂
      obtain ⟨⟨status, hstatus, hiff⟩, hread⟩ := yields_reportSuccess hlast hanswered₂
        (hkey ▸ keyed_of_answered hanswered₁ hkeyed)
        (fun exchange hmem => hstored exchange (List.mem_append_right first hmem))
      refine ⟨status, hkey ▸ hstatus, ?_⟩
      rw [hiff, hagrees.generation, hagrees.cacheGeneration, Matched, lastRead_append, hread]
      exact (or_iff_right hrecorded).symm

/-- A reset whose Pod has succeeded and whose status updates are stored is recorded for the
current `Status.CacheGeneration` exactly if `Generation` has that value. Then later calls
create no Pod and do not change `Status.CacheGeneration`. -/
theorem finished_reset_recorded_iff {settings : Settings} {cache : CacheResource}
    {record : Record Req Resp} {result : Option GoError × CacheResource} {s t : Cluster}
    (hcurrent : s.caches cache.key = some cache)
    (hyields : (freeStorage settings cache).Yields record result)
    (hanswered : Prog.Answered (Answers cache.key) record s t)
    (hpod : PodSucceeded (podKey settings cache.key) record) (hstored : UpdatesStored record) :
    (∀ c, t.caches cache.key = some c → (Recorded c.status ↔ Matched cache record)) ∧
      (Matched cache record → ∀ later u, LaterCalls settings cache.key t later u →
        (∀ exchange ∈ later, createsPod exchange.1 = false) ∧
        ∀ c c', t.caches cache.key = some c → u.caches cache.key = some c' →
          c'.status.cacheGeneration = c.status.cacheGeneration) := by
  obtain ⟨status, hstatus, hiff⟩ := yields_freeStorage hyields hcurrent hanswered hpod hstored
  constructor
  · intro c hc
    rw [(hstatus c hc).recorded_iff, hiff]
  · intro hmatched later u hlater
    obtain ⟨hlast, hcreates⟩ := hlater.storedAs hstatus (hiff.mpr hmatched)
    refine ⟨hcreates, fun c c' hc hc' => ?_⟩
    rw [(hlast c' hc').cacheGeneration, (hstatus c hc).cacheGeneration]

/-- A locked Cache in its third generation. -/
def lockedCache (generation : Int64) : CacheResource where
  key := ⟨"default", "build"⟩
  resourceVersion := 1
  generation := generation
  deleting := true
  finalizers := [cacheFinalizer]
  status := { CacheStatus.empty with
    cacheGeneration := 3
    phase := .reject
    lastReset := none
    conditions := [] }

/-- The Pod for its reset has succeeded. -/
def resetCluster (generation : Int64) : Cluster where
  caches k := if k = (lockedCache generation).key then some (lockedCache generation) else none
  pods k := if k = podKey sampleSettings (lockedCache generation).key then
      some { untaggerPod sampleSettings (lockedCache generation) with
        key := k
        phase := .succeeded }
    else none
  revision := 1
  clock := 0
  succeeded _ := true

/-- All requests are answered and nobody else acts. -/
def undisturbed (r : Req) (s : Cluster) : Resp r × Cluster := s.serve ⟨none, false, true⟩ r

/-- A request that nobody interferes with is answered. -/
theorem answers_undisturbed (key : ObjectKey) (r : Req) (s : Cluster) :
    Answers key r s (undisturbed r s).1 (undisturbed r s).2 :=
  ⟨s, ⟨none, false, true⟩, fun c hc => ⟨c, hc, ⟨rfl, rfl, rfl⟩⟩, rfl⟩

/-- The requests of a call and the cluster after it. -/
def callRecord (cache : CacheResource) (s : Cluster) : Record Req Resp × Cluster :=
  ((freeStorage sampleSettings cache).transcript undisturbed s,
    ((freeStorage sampleSettings cache).eval undisturbed s).2)

/-- The stored generation and whether the reset is recorded for it. -/
def resetReport (s : Cluster) : Option (Int64 × Bool) :=
  (s.caches (lockedCache 0).key).map fun c => (c.status.cacheGeneration, decide (Recorded c.status))

/-- The reset of the locked Cache is recorded for its third generation, and no later call creates
a Pod. -/
theorem finished_reset_recorded_third_generation :
    resetReport (callRecord (lockedCache 3) (resetCluster 3)).2 = some (3, true) ∧
      ∀ later u, LaterCalls sampleSettings (lockedCache 3).key
        (callRecord (lockedCache 3) (resetCluster 3)).2 later u →
          ∀ exchange ∈ later, createsPod exchange.1 = false := by
  have hmatched : Matched (lockedCache 3) (callRecord (lockedCache 3) (resetCluster 3)).1 :=
    Or.inr (by decide +kernel)
  have hcurrent : (resetCluster 3).caches (lockedCache 3).key = some (lockedCache 3) := by
    decide +kernel
  have hfinished := finished_reset_recorded_iff hcurrent
    (Prog.yields_transcript undisturbed (freeStorage sampleSettings (lockedCache 3)) _)
    (Prog.answered_transcript (answers_undisturbed _) _ _) (by decide +kernel) (by decide +kernel)
  exact ⟨by decide +kernel, fun later u hlater => (hfinished.2 hmatched later u hlater).1⟩

/-- The cluster after the reset of a Cache whose specification is in its second generation. -/
def mismatched : Cluster := (callRecord (lockedCache 2) (resetCluster 2)).2

/-- What is stored of the Cache then. -/
def mismatchedCache : CacheResource := (mismatched.caches (lockedCache 2).key).getD (lockedCache 2)

/-- That reset is recorded for the second generation, and the next call starts another one. -/
theorem finished_reset_repeated :
    PodSucceeded (podKey sampleSettings (lockedCache 2).key)
        (callRecord (lockedCache 2) (resetCluster 2)).1 ∧
      UpdatesStored (callRecord (lockedCache 2) (resetCluster 2)).1 ∧
      resetReport mismatched = some (3, false) ∧
      ∃ later u, LaterCalls sampleSettings (lockedCache 2).key mismatched later u ∧
        (∃ exchange ∈ later, createsPod exchange.1 = true) ∧
        (resetReport u).map Prod.fst = some 4 := by
  have hstored : mismatched.caches (lockedCache 2).key = some mismatchedCache := by decide +kernel
  have hcreates : ∃ exchange ∈ (callRecord mismatchedCache mismatched).1,
      createsPod exchange.1 = true := by decide +kernel
  refine ⟨by decide +kernel, by decide +kernel, by decide +kernel,
    (callRecord mismatchedCache mismatched).1, (callRecord mismatchedCache mismatched).2,
    ?_, hcreates, by decide +kernel⟩
  have hcalls := LaterCalls.call hstored (Prog.yields_transcript undisturbed _ _)
    (Prog.answered_transcript (answers_undisturbed _) (freeStorage sampleSettings _) _) (.done _)
  rwa [List.append_nil] at hcalls

end Calls

end K8StorageX.CacheGenerations
