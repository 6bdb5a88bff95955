import K8StorageX.ManagerGuarantees

/-!
# The Pods the Pod controller acts for

The predicate of the Pod controller is evaluated when a Pod is reported, and the
request it leads to only carries the Pod's name. Until the request has been handled
the name is outstanding. As long as no Pod is created under an outstanding name, the
Pod that is read for a request is the one that was reported, and has finished.
-/

namespace K8StorageX.PodCompletion

open ApiProgram KubeObjects ProvisionerPods KubeApi WorkerPool ManagerSystem PodController
open ControllerRules ManagerGuarantees

section Steps

variable {new : Pod → Prop} {s t : Cluster}

/-- What a step can do to the Pods and to the reports about them. -/
inductive PodStep (new : Pod → Prop) (s t : Cluster) : Prop
  /-- The Pods stay as they are; reports may be delivered or lost. -/
  | unchanged (pods : t.pods = s.pods) (events : ∀ pod ∈ t.events, pod ∈ s.events)
  /-- A Pod changes, but not from a phase in which it has terminated. -/
  | stored {old p : Pod} (present : s.pods p.key = some old) (spec : p.spec = old.spec)
      (phase : old.phase.terminal = true → p.phase = old.phase)
      (pods : t.pods = Function.update s.pods p.key (some p)) (events : t.events = s.events ++ [p])
  /-- A Pod is created. -/
  | created {p : Pod} (absent : s.pods p.key = none) (allowed : new p)
      (pods : t.pods = Function.update s.pods p.key (some p)) (events : t.events = s.events ++ [p])
  /-- A Pod is removed. -/
  | removed {p : Pod} (pods : t.pods = Function.update s.pods p.key none)
      (events : t.events = s.events ++ [p])

/-- Pods are stored under their names. -/
def Named (s : Cluster) : Prop := ∀ key pod, s.pods key = some pod → pod.key = key

/-- The Pods of two clusters are the same. -/
theorem PodStep.of_eq (hpods : t.pods = s.pods) (hevents : t.events = s.events) :
    PodStep new s t :=
  .unchanged hpods fun _ hpod => hevents ▸ hpod

/-- A step that does nothing. -/
theorem PodStep.refl (s : Cluster) : PodStep new s s := .of_eq rfl rfl

/-- A Pod after a step is the one before, has changed or is new. -/
theorem PodStep.of_some (h : PodStep new s t) {key : ObjectKey} {pod : Pod}
    (hpod : t.pods key = some pod) :
    s.pods key = some pod ∨
      (∃ old, s.pods key = some old ∧ pod.key = key ∧ pod.spec = old.spec ∧
        (old.phase.terminal = true → pod.phase = old.phase)) ∨
      s.pods key = none ∧ pod.key = key ∧ new pod ∧
        ∀ key', key' ≠ key → t.pods key' = s.pods key' := by
  cases h with
  | unchanged hpods =>
    rw [hpods] at hpod
    exact Or.inl hpod
  | @stored old p hpresent hspec hphase hpods =>
    rw [hpods] at hpod
    rcases of_update hpod with ⟨rfl, hnew⟩ | ⟨-, hsame⟩
    · cases hnew
      exact Or.inr (Or.inl ⟨old, hpresent, rfl, hspec, hphase⟩)
    · exact Or.inl hsame
  | @created p habsent hallowed hpods =>
    rw [hpods] at hpod
    rcases of_update hpod with ⟨rfl, hnew⟩ | ⟨-, hsame⟩
    · cases hnew
      refine Or.inr (Or.inr ⟨habsent, rfl, hallowed, ?_⟩)
      intro key' hne
      rw [hpods, Function.update_of_ne hne]
    · exact Or.inl hsame
  | @removed p hpods =>
    rw [hpods] at hpod
    rcases of_update hpod with ⟨-, hnew⟩ | ⟨-, hsame⟩
    · cases hnew
    · exact Or.inl hsame

/-- A report was there before a step, or is about the Pod that has the name after it. -/
theorem PodStep.of_report (h : PodStep new s t) {pod pod' : Pod} (hevent : pod ∈ t.events)
    (hpod : t.pods pod.key = some pod') : pod ∈ s.events ∨ pod' = pod := by
  cases h with
  | unchanged _ hevents => exact Or.inl (hevents pod hevent)
  | stored _ _ _ hpods hevents =>
    rw [hevents, List.mem_append, List.mem_singleton] at hevent
    rcases hevent with hold | rfl
    · exact Or.inl hold
    · rw [hpods, Function.update_self] at hpod
      exact Or.inr (Option.some.inj hpod).symm
  | created _ _ hpods hevents =>
    rw [hevents, List.mem_append, List.mem_singleton] at hevent
    rcases hevent with hold | rfl
    · exact Or.inl hold
    · rw [hpods, Function.update_self] at hpod
      exact Or.inr (Option.some.inj hpod).symm
  | removed hpods hevents =>
    rw [hevents, List.mem_append, List.mem_singleton] at hevent
    rcases hevent with hold | rfl
    · exact Or.inl hold
    · rw [hpods, Function.update_self] at hpod
      cases hpod

/-- After a step the Pods are still stored under their names. -/
theorem PodStep.named (h : PodStep new s t) (hs : Named s) : Named t := by
  intro key pod hpod
  rcases h.of_some hpod with hsame | ⟨_, _, hkey, _⟩ | ⟨_, hkey, _⟩
  · exact hs key pod hsame
  · exact hkey
  · exact hkey

/-- The deletion of a claim leaves the Pods as they are. -/
theorem podStep_markClaim (c : PersistentVolumeClaim) : PodStep new s (s.markClaim c) := by
  rw [Cluster.markClaim]
  split
  · exact .refl s
  · exact .of_eq rfl rfl

/-- So does the deletion of a volume. -/
theorem podStep_markVolume (pv : PersistentVolume) : PodStep new s (s.markVolume pv) := by
  rw [Cluster.markVolume]
  split
  · exact .refl s
  · exact .of_eq rfl rfl

/-- The deletion of a Pod marks or removes that Pod and reports it. -/
theorem podStep_markPod (hnamed : Named s) {key : ObjectKey} {pod : Pod}
    (hpod : s.pods key = some pod) (graceful : Bool) : PodStep new s (s.markPod graceful pod) := by
  have hkey := hnamed key pod hpod
  subst hkey
  rw [Cluster.markPod]
  split
  · exact .stored (p := { pod with deleting := true }) hpod rfl (fun _ => rfl) rfl rfl
  · exact .removed rfl rfl

/-- The Pods after a request. -/
theorem podStep_serve (hnamed : Named s) (fault : Fault) (r : Req)
    (hnew : ∀ pod, r = .createPod pod → s.pods pod.key = none → new (newPod pod)) :
    PodStep new s (s.serve fault r).2 := by
  rcases serve_effect s fault r with hsame | heffect
  · rw [hsame]
    exact .refl s
  · generalize (s.serve fault r).2 = t at heffect
    cases heffect with
    | @createPod pod habsent =>
      exact .created (p := newPod pod) habsent (hnew pod rfl habsent) rfl rfl
    | deletePod hpod => exact podStep_markPod hnamed hpod fault.graceful
    | deleteClaim => exact podStep_markClaim _
    | deleteVolume => exact podStep_markVolume _
    | _ => exact .of_eq rfl rfl

/-- A Pod that is read is stored. -/
theorem pods_of_getPod {fault : Fault} {key : ObjectKey} {pod : Pod}
    (h : (s.serve fault (.getPod key)).1 = .ok pod) : s.pods key = some pod := by
  rcases serve_fst s fault (.getPod key) with hanswer | ⟨failure, hfailed⟩
  · rw [hanswer, Cluster.answer] at h
    split at h
    · cases h
    · next hpod =>
      cases h
      exact hpod
  · rw [h] at hfailed
    cases hfailed

/-- A Pod that has not terminated gets into another phase and is reported. -/
theorem podStep_podPhase {key : ObjectKey} {phase : PodPhase} {pod : Pod} (hnamed : Named s)
    (hpod : s.pods key = some pod) (hrunning : pod.phase.terminal = false) :
    PodStep new s (if phase = .succeeded then
      { s.putPod { pod with phase := phase } with
        succeeded := Function.update s.succeeded key true }
      else s.putPod { pod with phase := phase }) := by
  have hkey := hnamed key pod hpod
  subst hkey
  have hkept : pod.phase.terminal = true → phase = pod.phase := by
    intro hterminal
    rw [hrunning] at hterminal
    cases hterminal
  split
  · exact .stored (p := { pod with phase := phase }) hpod rfl hkept rfl rfl
  · exact .stored (p := { pod with phase := phase }) hpod rfl hkept rfl rfl

/-- The Pods after a step of others. -/
theorem podStep_act (hnamed : Named s) {e : Env}
    (hnew : ∀ pod, e = .createPod pod → s.pods pod.key = none → new (newPod pod))
    (h : act s e = some t) : PodStep new s t := by
  cases acts_of_act h with
  | @createPod pod habsent =>
    exact .created (p := newPod pod) habsent (hnew pod rfl habsent) rfl rfl
  | podPhase hpod hrunning => exact podStep_podPhase hnamed hpod hrunning
  | deletePod hpod => exact podStep_markPod hnamed hpod _
  | removePod => exact .removed rfl rfl
  | deliver => exact .unchanged rfl fun _ hpod => List.mem_of_mem_eraseIdx hpod
  | deleteClaim => exact podStep_markClaim _
  | deleteVolume => exact podStep_markVolume _
  | _ => exact .of_eq rfl rfl

end Steps

section Requests

variable {s t : Shared}

/-- A request for the name is on its way, waits in the queue or is being handled. -/
def Outstanding (s : Shared) (key : ObjectKey) : Prop :=
  (∃ pod ∈ s.events, podCompleted pod = true ∧ pod.key = key) ∨ key ∈ s.queue ∨
    (s.calls key).isSome = true

/-- The Pods for which a request is outstanding have finished. -/
structure Completed (s : Shared) : Prop where
  /-- Pods are stored under their names. -/
  named : Named s.toCluster
  /-- Nothing else has taken the name of a Pod that was reported. -/
  done : ∀ key pod, Outstanding s key → s.pods key = some pod → finished pod = true

/-- A request may become outstanding for the name. -/
def Ready (s : Shared) (key : ObjectKey) : Prop :=
  Outstanding s key ∨ ∃ pod, s.pods key = some pod ∧ finished pod = true

/-- A Pod that passes the predicate has finished. -/
theorem finished_of_podCompleted {pod : Pod} (h : podCompleted pod = true) :
    finished pod = true := by
  rw [podCompleted, Bool.and_eq_true] at h
  exact h.1

/-- A Pod that has finished has terminated. -/
theorem terminal_of_finished {pod : Pod} (h : finished pod = true) :
    pod.phase.terminal = true := by
  unfold finished at h
  cases hphase : pod.phase with
  | succeeded => rfl
  | failed => rfl
  | _ => simp [hphase] at h

/-- Whether a Pod has finished depends on its spec and its phase only. -/
theorem finished_of_eq {pod old : Pod} (h : finished old = true) (hspec : pod.spec = old.spec)
    (hphase : pod.phase = old.phase) : finished pod = true := by
  rw [finished, hspec, hphase]
  exact h

/-- A Pod for which a request may become outstanding has finished. -/
theorem Completed.of_ready (h : Completed s) {key : ObjectKey} {pod : Pod} (hready : Ready s key)
    (hpod : s.pods key = some pod) : finished pod = true := by
  rcases hready with hout | ⟨pod', hpod', hfinished⟩
  · exact h.done key pod hout hpod
  · rw [hpod] at hpod'
    cases hpod'
    exact hfinished

/-- What is in the queue or handled after a step was ready before it. -/
def TakesReady (s t : Shared) : Prop :=
  ∀ key, key ∈ t.queue ∨ (t.calls key).isSome = true → Ready s key

/-- Pods stay finished as long as no Pod is created under an outstanding name. -/
theorem Completed.step {new : Pod → Prop} (h : Completed s)
    (hnew : ∀ pod, new pod → ¬Outstanding s pod.key)
    (hstep : PodStep new s.toCluster t.toCluster) (hready : TakesReady s t) : Completed t := by
  refine ⟨hstep.named h.named, ?_⟩
  intro key pod hout hpod
  have hcases : Ready s key ∨ finished pod = true := by
    rcases hout with ⟨p, hp, hcompleted, rfl⟩ | htaken
    · rcases hstep.of_report hp hpod with hold | rfl
      · exact Or.inl (Or.inl (Or.inl ⟨p, hold, hcompleted, rfl⟩))
      · exact Or.inr (finished_of_podCompleted hcompleted)
    · exact Or.inl (hready key htaken)
  rcases hcases with hs | hfinished
  · have hbefore := hstep.of_some hpod
    rcases hbefore with hsame | ⟨old, hold, _, hspec, hphase⟩ | ⟨habsent, hkey, hallowed, _⟩
    · exact h.of_ready hs hsame
    · have hfinished := h.of_ready hs hold
      exact finished_of_eq hfinished hspec (hphase (terminal_of_finished hfinished))
    · rcases hs with hs | ⟨_, hpresent, _⟩
      · have hfree := hnew pod hallowed
        rw [hkey] at hfree
        exact absurd hs hfree
      · rw [habsent] at hpresent
        cases hpresent
  · exact hfinished

/-- The queue after a reported Pod has passed the predicate. -/
theorem mem_queue_report {pod : Option Pod} {key : ObjectKey} (h : key ∈ (s.report pod).queue) :
    key ∈ s.queue ∨ ∃ p, pod = some p ∧ podCompleted p = true ∧ p.key = key := by
  cases pod with
  | none => exact Or.inl h
  | some p =>
    rw [Shared.report] at h
    split at h
    · next hcompleted =>
      rcases List.mem_insert_iff.mp h with heq | hold
      · exact Or.inr ⟨p, rfl, hcompleted, heq.symm⟩
      · exact Or.inl hold
    · exact Or.inl h

/-- A report leaves the calls as they are. -/
theorem calls_report (s : Shared) (pod : Option Pod) : (s.report pod).calls = s.calls := by
  cases pod with
  | none => rfl
  | some p =>
    rw [Shared.report]
    split
    · rfl
    · rfl

/-- A Pod that is reported was in the reports or is in the cluster. -/
theorem ready_of_reported (hnamed : Named s.toCluster) {e : Env} {pod : Pod}
    (h : reported s.toCluster e = some pod) (hcompleted : podCompleted pod = true) :
    Ready s pod.key := by
  cases e with
  | deliver i =>
    have hmem : pod ∈ s.events := List.mem_of_getElem? h
    exact Or.inl (Or.inl ⟨pod, hmem, hcompleted, rfl⟩)
  | resync key =>
    have hpod : s.pods key = some pod := h
    have hkey := hnamed key pod hpod
    rw [hkey]
    exact Or.inr ⟨pod, hpod, finished_of_podCompleted hcompleted⟩
  | _ => cases h

/-- So do the steps of others. -/
theorem calls_env {e : Env} (h : Shared.env e s = some t) : t.calls = s.calls := by
  simp only [Shared.env, Option.map_eq_some_iff] at h
  obtain ⟨c, -, rfl⟩ := h
  rw [calls_report]

/-- After a step of others only what was ready is queued or handled. -/
theorem takesReady_env (hnamed : Named s.toCluster) {e : Env} (h : Shared.env e s = some t) :
    TakesReady s t := by
  intro key htaken
  rcases htaken with hqueue | hcall
  · simp only [Shared.env, Option.map_eq_some_iff] at h
    obtain ⟨c, -, rfl⟩ := h
    rcases mem_queue_report hqueue with hold | ⟨p, hreported, hcompleted, rfl⟩
    · exact Or.inl (Or.inr (Or.inl hold))
    · exact ready_of_reported hnamed hreported hcompleted
  · rw [calls_env h] at hcall
    exact Or.inl (Or.inr (Or.inr hcall))

/-- A request changes what is remembered about a call by reading a Pod for it. -/
theorem noteRead_cases (calls : ObjectKey → Option (Option Pod)) (w : Worker) (r : Req)
    (response : Resp r) (key : ObjectKey) :
    noteRead calls w r response key = calls key ∨
      ∃ name pod, w = .pod key ∧ (⟨r, response⟩ : Σ r, Resp r) = ⟨.getPod name, .ok pod⟩ ∧
        noteRead calls w r response key = some (some pod) := by
  cases r with
  | getPod name =>
    cases response with
    | error e => exact Or.inl rfl
    | ok pod =>
      cases w with
      | pod key' =>
        by_cases hkey : key = key'
        · subst hkey
          exact Or.inr ⟨name, pod, rfl, rfl, Function.update_self _ _ _⟩
        · exact Or.inl (Function.update_of_ne hkey _ _)
      | claim _ => exact Or.inl rfl
      | volume _ => exact Or.inl rfl
  | _ => exact Or.inl rfl

/-- A response is noted for the call of the worker only. -/
theorem noteRead_of_ne (calls : ObjectKey → Option (Option Pod)) {w : Worker} (r : Req)
    (response : Resp r) {key : ObjectKey} (h : w ≠ .pod key) :
    noteRead calls w r response key = calls key := by
  rcases noteRead_cases calls w r response key with hsame | ⟨_, _, hw, _⟩
  · exact hsame
  · exact absurd hw h

/-- A call that is being handled is so after a response. -/
theorem noteRead_isSome {calls : ObjectKey → Option (Option Pod)} (w : Worker) (r : Req)
    (response : Resp r) {key : ObjectKey} (h : (calls key).isSome = true) :
    (noteRead calls w r response key).isSome = true := by
  rcases noteRead_cases calls w r response key with hsame | ⟨_, _, _, _, hread⟩
  · rw [hsame]
    exact h
  · rw [hread]
    rfl

/-- The worker of a Pod is started before it issues requests. -/
def Handling (w : Worker) (s : Shared) : Prop :=
  ∀ key, w = .pod key → (s.calls key).isSome = true

/-- A worker of a claim needs no call of the Pod controller. -/
theorem handling_claim (key : ObjectKey) (s : Shared) : Handling (.claim key) s := nofun

/-- Nor does a worker of a volume. -/
theorem handling_volume (name : String) (s : Shared) : Handling (.volume name) s := nofun

/-- After a request only what was ready is queued or handled. -/
theorem takesReady_serve {w : Worker} (hcall : Handling w s) (fault : Fault) (r : Req) :
    TakesReady s (s.serve w fault r).2 := by
  intro key htaken
  refine Or.inl (Or.inr ?_)
  rcases htaken with hqueue | hsome
  · exact Or.inl hqueue
  · by_cases hw : w = .pod key
    · exact Or.inr (hcall key hw)
    · have hkept : (s.serve w fault r).2.calls key = s.calls key := noteRead_of_ne _ _ _ hw
      rw [hkept] at hsome
      exact Or.inr hsome

/-- A request leaves its call being handled. -/
theorem handling_serve {w : Worker} (hcall : Handling w s) (fault : Fault) (r : Req) :
    Handling w (s.serve w fault r).2 :=
  fun key hw => noteRead_isSome w r _ (hcall key hw)

/-- Starting a reconcile takes the name from the queue. -/
theorem start_cases {w : Worker} (h : s.start w = some t) :
    t.toCluster = s.toCluster ∧ Handling w t ∧ TakesReady s t ∧
      ∀ key, w ≠ .pod key → t.calls key = s.calls key := by
  refine ⟨toCluster_start h, ?_⟩
  cases w with
  | pod key =>
    simp only [Shared.start] at h
    split at h
    · next hqueue =>
      cases h
      refine ⟨?_, ?_, ?_⟩
      · intro key' hkey
        cases hkey
        simp only [Function.update_self, Option.isSome_some]
      · intro key' htaken
        refine Or.inl (Or.inr ?_)
        by_cases hkey : key' = key
        · exact Or.inl (hkey ▸ hqueue)
        · rcases htaken with hmem | hsome
          · exact Or.inl (List.mem_of_mem_erase hmem)
          · simp only [Function.update_of_ne hkey] at hsome
            exact Or.inr hsome
      · intro key' hne
        have hkey : key' ≠ key := fun heq => hne (congrArg Worker.pod heq.symm)
        exact Function.update_of_ne hkey _ _
    · cases h
  | claim key =>
    cases h
    exact ⟨handling_claim key s, fun _ htaken => Or.inl (Or.inr htaken), fun _ _ => rfl⟩
  | volume name =>
    cases h
    exact ⟨handling_volume name s, fun _ htaken => Or.inl (Or.inr htaken), fun _ _ => rfl⟩

/-- Finishing a reconcile returns the name to the queue if it has failed. -/
theorem finish_cases {w : Worker} {outcome : ClaimController.Outcome} (hcall : Handling w s)
    (h : s.finish w outcome = some t) :
    t.toCluster = s.toCluster ∧ TakesReady s t ∧
      ∀ key, w ≠ .pod key → t.calls key = s.calls key := by
  refine ⟨toCluster_finish h, ?_⟩
  cases outcome with
  | panicked => cases h
  | returned err =>
    cases w with
    | pod key =>
      cases h
      refine ⟨?_, ?_⟩
      · intro key' htaken
        refine Or.inl (Or.inr ?_)
        by_cases hkey : key' = key
        · exact Or.inr (hcall key' (congrArg Worker.pod hkey.symm))
        · rcases htaken with hmem | hsome
          · refine Or.inl ?_
            dsimp only at hmem
            split at hmem
            · exact (List.mem_insert_iff.mp hmem).resolve_left hkey
            · exact hmem
          · simp only [Function.update_of_ne hkey] at hsome
            exact Or.inr hsome
      · intro key' hne
        have hkey : key' ≠ key := fun heq => hne (congrArg Worker.pod heq.symm)
        exact Function.update_of_ne hkey _ _
    | claim key =>
      cases h
      exact ⟨fun _ htaken => Or.inl (Or.inr htaken), fun _ _ => rfl⟩
    | volume name =>
      cases h
      exact ⟨fun _ htaken => Or.inl (Or.inr htaken), fun _ _ => rfl⟩

end Requests

section Discipline

variable {cfg : Config} {w : Worker} {s t : Shared} {seen : Record Req Resp}

/-- Requests by which the Pod controller annotates or deletes a claim. -/
def acts : Req → Bool
  | .updateClaim _ => true
  | .deleteClaim _ => true
  | _ => false

/-- The call of the Pod controller has begun by reading a finished Pod. -/
def ReadFinished (w : Worker) (seen : Record Req Resp) : Prop :=
  ∀ key, w = .pod key →
    ∃ pod, seen.head? = some ⟨.getPod key, .ok pod⟩ ∧ finished pod = true

/-- The calls of others are not touched. -/
def KeepsCalls (w : Worker) (s t : Shared) : Prop :=
  ∀ key, w ≠ .pod key → t.calls key = s.calls key

/-- A request leaves the calls of the others alone. -/
theorem keepsCalls_serve (w : Worker) (fault : Fault) (r : Req) (s : Shared) :
    KeepsCalls w s (s.serve w fault r).2 :=
  fun _ hw => noteRead_of_ne _ _ _ hw

/-- The call of another worker is still being handled. -/
theorem KeepsCalls.handling {v : Worker} (h : KeepsCalls w s t) (hne : v ≠ w)
    (hcall : Handling v s) : Handling v t := by
  intro key hv
  have hw : w ≠ .pod key := fun heq => hne (hv.trans heq.symm)
  rw [h key hw]
  exact hcall key hv

/-- No Pod is created under an outstanding name. -/
def NameFree (s : Shared) (pod : Pod) : Prop :=
  s.pods pod.key = none → ¬Outstanding s pod.key

/-- The argument that the Pod controller acts for finished Pods. -/
def completion (cfg : Config) : Discipline (manager cfg) where
  inv := Completed
  rely w s t := Handling w s → Handling w t
  guarantee w seen r _ s t := KeepsCalls w s t ∧ (acts r = true → ReadFinished w seen)
  post w _ _ s := Handling w s
  admits _ _ r s := ∀ pod, r = .createPod pod → NameFree s pod
  admitsEnv e s := ∀ pod, e = .createPod pod → NameFree s pod
  rely_refl _ _ h := h
  rely_trans _ _ _ _ h h' hs := h' (h hs)

/-- A request keeps the Pods of outstanding requests finished, unless it creates one under such a
name. -/
theorem completed_serve (h : Completed s) (hcall : Handling w s) (fault : Fault) {r : Req}
    (hadmits : ∀ pod, r = .createPod pod → NameFree s pod) :
    Completed (s.serve w fault r).2 := by
  have hstep : PodStep (fun pod => ¬Outstanding s pod.key) s.toCluster
      (s.toCluster.serve fault r).2 := podStep_serve h.named fault r hadmits
  exact h.step (fun _ hpod => hpod) hstep (takesReady_serve hcall fault r)

/-- So does a step of others. -/
theorem completed_env (h : Completed s) {e : Env}
    (hadmits : ∀ pod, e = .createPod pod → NameFree s pod) (hstep : Shared.env e s = some t) :
    Completed t := by
  have hpods : PodStep (fun pod => ¬Outstanding s pod.key) s.toCluster t.toCluster :=
    podStep_act h.named hadmits (act_of_env hstep)
  exact h.step (fun _ hpod => hpod) hpods (takesReady_env h.named hstep)

/-- So does a step that changes the requests only and takes those that are ready. -/
theorem completed_of_toCluster (h : Completed s) (hcluster : t.toCluster = s.toCluster)
    (hready : TakesReady s t) : Completed t := by
  have hstep : PodStep (fun _ => False) s.toCluster t.toCluster := by
    rw [hcluster]
    exact .refl _
  exact h.step (fun _ => nofun) hstep hready

/-- So does a restart. -/
theorem completed_crash (h : Completed s) : Completed s.crash := by
  have hstep : PodStep (fun _ => False) s.toCluster s.crash.toCluster :=
    .unchanged rfl fun _ => nofun
  refine h.step (fun _ => nofun) hstep ?_
  rintro key (hqueue | hcall)
  · cases hqueue
  · cases hcall

/-- After a finished Pod has been read, every program is safe. -/
theorem wp_readFinished (p : Controller ClaimController.Outcome) (hcall : Handling w s)
    (hread : ReadFinished w seen) :
    Wp ((completion cfg).contract w) ((completion cfg).post w) p seen s := by
  induction p generalizing seen s with
  | ret value => exact fun t hr _ => hr hcall
  | call r next ih =>
    intro t hr hi fault hadmits
    have hnow := hr hcall
    refine ⟨completed_serve hi hnow fault hadmits,
      ⟨keepsCalls_serve w fault r t, fun _ => hread⟩, ih _ (handling_serve hnow fault r) ?_⟩
    intro key hw
    obtain ⟨pod, hhead, hfinished⟩ := hread key hw
    refine ⟨pod, ?_, hfinished⟩
    rw [List.head?_append, hhead]
    rfl

/-- The Pod controller begins by reading the Pod, which has finished. -/
theorem wp_podReconcile {key : ObjectKey} (hcall : Handling (.pod key) s) :
    Wp ((completion cfg).contract (.pod key)) ((completion cfg).post (.pod key))
      (program cfg (.pod key)) [] s := by
  simp only [program, PodController.reconcile, Prog.request_bind, Prog.call_bind]
  intro t hr hi fault hadmits
  have hnow := hr hcall
  refine ⟨completed_serve hi hnow fault hadmits,
    ⟨keepsCalls_serve _ fault _ t, fun hacts => by cases hacts⟩, ?_⟩
  have hthen := handling_serve hnow fault (.getPod key)
  beta_reduce
  split
  · split
    · exact fun u hu _ => hu hthen
    · exact fun u hu _ => hu hthen
  · next pod hpod =>
    refine wp_readFinished _ hthen ?_
    rintro key' hkey
    cases hkey
    have hstored := pods_of_getPod hpod
    refine ⟨pod, ?_, hi.done key pod (Or.inr (Or.inr (hnow key rfl))) hstored⟩
    rw [hpod]
    rfl

/-- The system respects the argument. -/
theorem completion_respected : (completion cfg).Respected where
  start := by
    intro w j s t hi _ h
    obtain ⟨hcluster, hcall, hready, hkeeps⟩ := start_cases h
    refine ⟨completed_of_toCluster hi hcluster hready,
      fun v hv => KeepsCalls.handling hkeeps hv, ?_⟩
    cases w with
    | pod key => exact wp_podReconcile hcall
    | claim key => exact wp_readFinished _ hcall nofun
    | volume name => exact wp_readFinished _ hcall nofun
  env := by
    intro e s t hi hadmits h
    refine ⟨completed_env hi hadmits h, ?_⟩
    intro w hcall key hw
    rw [calls_env h]
    exact hcall key hw
  finish := by
    intro w seen value s t hi hcall h
    obtain ⟨hcluster, hready, hkeeps⟩ := finish_cases hcall h
    exact ⟨completed_of_toCluster hi hcluster hready, fun v hv => KeepsCalls.handling hkeeps hv⟩
  crash := by
    intro s t hi h
    cases h
    exact completed_crash hi
  compatible := by
    intro w v seen r response s t _ _ hguar hne
    exact hguar.1.handling hne

end Discipline

section Acting

variable {cfg : Config} {st : ManagerState} {es : List ManagerEvent}

/-- The step is to create the Pod. -/
def Creates (st : ManagerState) (pod : Pod) : ManagerEvent → Prop
  | .env e => e = .createPod pod
  | .serve w _ => ∃ seen next, st.running w = some ⟨seen, .call (.createPod pod) next⟩
  | _ => False

/-- No Pod is created under a name for which a request is outstanding. -/
def NamesFree (st : ManagerState) (e : ManagerEvent) : Prop :=
  ∀ pod, Creates st pod e → NameFree st.shared pod

/-- The argument admits the steps that create Pods under free names only. -/
theorem admits_of_namesFree (st : ManagerState) (e : ManagerEvent) (h : NamesFree st e) :
    (completion cfg).Admits st e := by
  cases e with
  | env e => exact h
  | serve w fault =>
    intro seen r next hw pod hr
    subst hr
    exact h pod ⟨seen, next, hw⟩
  | _ => trivial

/-- At first no request is outstanding. -/
theorem completed_initial (storageClasses : String → Option StorageClass)
    (provisioners : String → Option StorageProvisioner) :
    Completed (.initial storageClasses provisioners) :=
  ⟨fun _ _ => nofun, fun _ _ _ => nofun⟩

/-- In every run in which no Pod is created under an outstanding name, the Pod
controller annotates or deletes a claim only in a call that has read a finished Pod. -/
theorem acts_for_finished_pod {storageClasses : String → Option StorageClass}
    {provisioners : String → Option StorageProvisioner}
    (hrun : (manager cfg).RunWhere NamesFree (idle (.initial storageClasses provisioners)) es st)
    {key : ObjectKey} {seen : Record Req Resp} {r : Req}
    {next : Resp r → Controller ClaimController.Outcome}
    (hpending : st.running (.pod key) = some ⟨seen, .call r next⟩) (hacts : acts r = true) :
    ∃ pod, seen.head? = some ⟨.getPod key, .ok pod⟩ ∧ finished pod = true := by
  have hsafe : (completion cfg).Safe st :=
    (completion cfg).run_safe_where completion_respected
      ((completion cfg).idle_safe (completed_initial storageClasses provisioners))
      (hrun.mono admits_of_namesFree)
  have hadmits : ∀ pod, r = .createPod pod → NameFree st.shared pod := by
    rintro pod rfl
    cases hacts
  have hguar := hsafe.guarantee hpending ⟨none, false, false⟩ hadmits
  exact hguar.2 hacts key rfl

/-- A claim that is protected against deletion. -/
def protectedClaim : PersistentVolumeClaim :=
  { sampleClaim with finalizers := [finalizerPVCProtection] }

/-- A Pod that writes to the claim and is not restarted. -/
def samplePod : Pod where
  key := ⟨"default", "app"⟩
  annotations := .empty
  deleting := false
  spec := ⟨[⟨"main", "app", [], [], []⟩], [⟨some "data", false⟩], .never⟩
  phase := .pending

/-- The cluster in which the Pod has been created. -/
def podShared : Shared :=
  { sampleShared with toCluster := sampleShared.toCluster.putPod samplePod }

/-- The steps do not create Pods. -/
def createsNone (st : ManagerState) : ManagerEvent → Bool
  | .env (.createPod _) => false
  | .env _ => true
  | .serve w _ =>
    match st.running w with
    | some ⟨_, .call (.createPod _) _⟩ => false
    | _ => true
  | _ => true

/-- What passes the check creates no Pod. -/
theorem not_creates {e : ManagerEvent} {pod : Pod} (h : createsNone st e = true) :
    ¬Creates st pod e := by
  intro hc
  cases e with
  | env e =>
    cases hc
    cases h
  | serve w fault =>
    obtain ⟨seen, next, hw⟩ := hc
    simp only [createsNone, hw, Bool.false_eq_true] at h
  | _ => exact hc

/-- The sample Pod is created by the first step. -/
theorem step_samplePod :
    (manager sampleConfig).step (idle sampleShared) (.env (.createPod samplePod)) =
      some (idle podShared) := rfl

/-- The Pod succeeds and is reported; the Pod controller has read it, its claim and the
provisioner. -/
def completingRun : List ManagerEvent :=
  [.env (.createClaim protectedClaim), .env (.podPhase samplePod.key .succeeded),
    .env (.deliver 1)] ++ requests (.pod samplePod.key) 3

/-- The controller of a Pod is about to annotate or delete a claim; the phase of the Pod
it has read. -/
def actingPhase (st : ManagerState) (key : ObjectKey) : Option PodPhase :=
  match st.running (.pod key) with
  | some ⟨⟨.getPod name, .ok pod⟩ :: _, .call r _⟩ =>
    if name = key ∧ acts r = true then some pod.phase else none
  | _ => none

/-- A check of the call of a Pod's controller speaks of its record. -/
theorem of_actingPhase {key : ObjectKey} {phase : PodPhase}
    (h : actingPhase st key = some phase) :
    ∃ seen r next pod, st.running (.pod key) = some ⟨seen, .call r next⟩ ∧ acts r = true ∧
      seen.head? = some ⟨.getPod key, .ok pod⟩ ∧ pod.phase = phase := by
  unfold actingPhase at h
  split at h
  · next name pod rest r next hw =>
    split at h
    · next hcond =>
      obtain ⟨rfl, hacts⟩ := hcond
      exact ⟨_, r, next, pod, hw, hacts, rfl, Option.some.inj h⟩
    · cases h
  · cases h

/-- At first every name is free. -/
theorem nameFree_initial (pod : Pod) : NameFree sampleShared pod := by
  rintro - (⟨_, hmem, -⟩ | hqueue | hcall)
  · cases hmem
  · cases hqueue
  · cases hcall

/-- The Pod controller acts for the sample Pod after it has succeeded. -/
theorem acts_for_finished_pod_succeeded :
    ∃ (st : ManagerState) (seen : Record Req Resp) (r : Req)
      (next : Resp r → Controller ClaimController.Outcome),
      (manager sampleConfig).RunWhere NamesFree (idle sampleShared)
        (.env (.createPod samplePod) :: completingRun) st ∧
      st.running (.pod samplePod.key) = some ⟨seen, .call r next⟩ ∧ acts r = true ∧
      ∃ pod, seen.head? = some ⟨.getPod samplePod.key, .ok pod⟩ ∧ finished pod = true := by
  have hchecked : ((manager sampleConfig).runIf createsNone (idle podShared) completingRun).any
      (fun st => actingPhase st samplePod.key = some .succeeded) = true := by decide +kernel
  obtain ⟨st, hrest, hacting⟩ := (Option.any_eq_true ..).mp hchecked
  obtain ⟨seen, r, next, -, hw, hacts, -⟩ := of_actingPhase (of_decide_eq_true hacting)
  have hfirst : NamesFree (idle sampleShared) (.env (.createPod samplePod)) :=
    fun pod _ => nameFree_initial pod
  have hrun : (manager sampleConfig).RunWhere NamesFree (idle sampleShared)
      (.env (.createPod samplePod) :: completingRun) st :=
    ⟨hfirst, _, step_samplePod,
      System.runWhere_of_runIf (fun _ _ h pod hc => absurd hc (not_creates h)) hrest⟩
  exact ⟨st, seen, r, next, hrun, hw, hacts, acts_for_finished_pod hrun hw hacts⟩

/-- The Pod succeeds, is deleted and created again before its report is delivered; the
Pod controller has read the new one, its claim and the provisioner. -/
def recreatingRun : List ManagerEvent :=
  [.env (.createClaim protectedClaim), .env (.createPod samplePod),
    .env (.podPhase samplePod.key .succeeded), .env (.deletePod samplePod.key false),
    .env (.createPod samplePod), .env (.podPhase samplePod.key .running), .env (.deliver 1)] ++
    requests (.pod samplePod.key) 3

/-- The controller annotates and deletes the claim of a Pod that runs under the name of
one that has succeeded. -/
theorem recreated_pod_acted_for :
    ∃ (st st' : ManagerState) (seen : Record Req Resp) (r : Req)
      (next : Resp r → Controller ClaimController.Outcome) (pod : Pod)
      (claim : PersistentVolumeClaim),
      (manager sampleConfig).run (idle sampleShared) recreatingRun = some st ∧
      st.running (.pod samplePod.key) = some ⟨seen, .call r next⟩ ∧ acts r = true ∧
      seen.head? = some ⟨.getPod samplePod.key, .ok pod⟩ ∧ pod.phase = .running ∧
      finished pod = false ∧
      (manager sampleConfig).run st (List.replicate 2 (served (.pod samplePod.key))) = some st' ∧
      st'.shared.claims protectedClaim.key = some claim ∧
      claim.annotations.get annNoProtection = enabled ∧ claim.deleting = true := by
  have hchecked : ((manager sampleConfig).run (idle sampleShared) recreatingRun).any (fun st =>
      decide (actingPhase st samplePod.key = some .running) &&
        ((manager sampleConfig).run st (List.replicate 2 (served (.pod samplePod.key)))).any
          fun st' => (st'.shared.claims protectedClaim.key).any fun claim =>
            decide (claim.annotations.get annNoProtection = enabled) && claim.deleting) = true := by
    decide +kernel
  simp only [Option.any_eq_true, Bool.and_eq_true, decide_eq_true_eq] at hchecked
  obtain ⟨st, hrun, hacting, st', hrest, claim, hclaim, hannotated, hdeleting⟩ := hchecked
  obtain ⟨seen, r, next, pod, hw, hacts, hread, hphase⟩ := of_actingPhase hacting
  have hunfinished : finished pod = false := by simp [finished, hphase]
  exact ⟨st, st', seen, r, next, pod, claim, hrun, hw, hacts, hread, hphase, hunfinished, hrest,
    hclaim, hannotated, hdeleting⟩

end Acting

end K8StorageX.PodCompletion
