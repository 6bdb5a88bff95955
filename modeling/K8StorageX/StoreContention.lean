import K8StorageX.OptimisticStore

/-!
# What a conflict costs

A client of the optimistic store repeats its attempt when the object has changed between
its read and its write. Every such conflict is caused by a change that somebody has stored
meanwhile, and each change causes at most one conflict of a client. So a client that gives
up has been overtaken once for every attempt.
-/

namespace K8StorageX.OptimisticStore

open ApiProgram WorkerPool

variable {Obj Call Edit ρ : Type} {spec : Spec Obj Call Edit ρ} {retries : ℕ}
variable {s t u : Server Obj Call Edit}

/-- What anybody may do to the store: versions are counted, the object stays, and a new
version means that something has been stored. -/
structure Counted (s t : Server Obj Call Edit) : Prop where
  /-- Versions are counted upwards. -/
  revision : s.revision ≤ t.revision
  /-- The object stays, under the same version unless something has been stored. -/
  kept : ∀ o, s.object = some o → ∃ o', t.object = some o' ∧
    (o'.version = o.version ∨ s.revision < t.revision)
  /-- Creating the object stores something. -/
  created : s.object = none → t.object ≠ none → s.revision < t.revision

theorem Counted.refl (s : Server Obj Call Edit) : Counted s s :=
  ⟨le_rfl, fun o ho => ⟨o, ho, .inl rfl⟩, fun hnone hsome => absurd hnone hsome⟩

theorem Counted.trans (h : Counted s t) (h' : Counted t u) : Counted s u where
  revision := h.revision.trans h'.revision
  kept o ho := by
    obtain ⟨o', ho', hfirst⟩ := h.kept o ho
    obtain ⟨o'', ho'', hsecond⟩ := h'.kept o' ho'
    have hrevision := h.revision
    have hrevision' := h'.revision
    refine ⟨o'', ho'', ?_⟩
    rcases hfirst with hfirst | hfirst
    · rcases hsecond with hsecond | hsecond
      · exact .inl (hsecond.trans hfirst)
      · exact .inr (by omega)
    · exact .inr (by omega)
  created hnone hsome := by
    have hrevision := h.revision
    have hrevision' := h'.revision
    by_cases ht : t.object = none
    · have hlater := h'.created ht hsome
      omega
    · have hfirst := h.created hnone ht
      omega

/-- Storing a value. -/
theorem counted_put {value : Obj} (hobject : t.object = some ⟨s.revision + 1, value⟩)
    (hrevision : t.revision = s.revision + 1) : Counted s t :=
  ⟨by omega, fun _ _ => ⟨_, hobject, .inr (by omega)⟩, fun _ _ => by omega⟩

/-- Leaving the object alone. -/
theorem counted_of_same (hobject : t.object = s.object) (hrevision : t.revision = s.revision) :
    Counted s t :=
  ⟨by omega, fun o ho => ⟨o, hobject.trans ho, .inl rfl⟩,
    fun hnone hsome => absurd (hobject.trans hnone) hsome⟩

/-- The answer to any request is counted. -/
theorem counted_serve (spec : Spec Obj Call Edit ρ) (client : ℕ) (fault : Option ApiError)
    (r : Req Obj) (s : Server Obj Call Edit) : Counted s (serve spec client fault r s).2 := by
  cases r with
  | get =>
    refine counted_of_same ?_ ?_ <;>
    · simp only [serve, Cell.serve]
      split <;> rfl
  | now => exact counted_of_same rfl rfl
  | create =>
    simp only [serve, Cell.serve]
    split
    · exact counted_of_same rfl rfl
    · exact counted_of_same rfl rfl
    · exact counted_put rfl rfl
  | update version value =>
    simp only [serve, Cell.serve]
    split
    · exact counted_of_same rfl rfl
    · exact counted_of_same rfl rfl
    · split
      · exact counted_put rfl rfl
      · exact counted_of_same rfl rfl

/-- The steps of the other parties are counted. -/
theorem counted_env {e : Env Edit} (h : env spec e s = some t) : Counted s t := by
  obtain ⟨cell, hcell, rfl⟩ := Option.map_eq_some_iff.mp h
  cases e with
  | tick duration =>
    cases hcell
    exact counted_of_same rfl rfl
  | create edit =>
    simp only [Cell.env] at hcell
    split at hcell
    · cases hcell
    · cases hcell
      exact counted_put rfl rfl
  | edit edit =>
    obtain ⟨stored, -, rfl⟩ := Option.map_eq_some_iff.mp hcell
    exact counted_put rfl rfl

/-- A number that has been reached, where an object that does not exist yet is already
counted. -/
def Spent (n : ℕ) (s : Server Obj Call Edit) : Prop :=
  n ≤ s.revision + if s.object = none then 1 else 0

theorem Spent.stable {n : ℕ} (h : Spent n s) (hcounted : Counted s t) : Spent n t := by
  have hrevision := hcounted.revision
  unfold Spent at h ⊢
  by_cases hs : s.object = none
  · by_cases ht : t.object = none
    · simp only [hs, ht, if_true] at h ⊢
      omega
    · have hcreated := hcounted.created hs ht
      simp only [hs, if_true] at h
      omega
  · simp only [hs, if_false] at h
    omega

/-- The object exists, or it will be created. -/
def Expected (spec : Spec Obj Call Edit ρ) (call : Call) (s : Server Obj Call Edit) : Prop :=
  spec.creates call = true ∨ s.object ≠ none

theorem Expected.stable {call : Call} (h : Expected spec call s) (hcounted : Counted s t) :
    Expected spec call t := by
  refine h.imp_right fun hs ht => ?_
  obtain ⟨o, ho⟩ := Option.ne_none_iff_exists'.mp hs
  obtain ⟨o', ho', -⟩ := hcounted.kept o ho
  rw [ht] at ho'
  cases ho'

/-- What a client knows between its read and its write. -/
structure HasRead (n : ℕ) (read : Versioned Obj) (s : Server Obj Call Edit) : Prop where
  /-- The number had been reached. -/
  spent : n ≤ s.revision
  /-- The object has the version that was read, unless something has been stored since. -/
  object : ∃ o, s.object = some o ∧ (o.version = read.version ∨ n < s.revision)

theorem HasRead.stable {n : ℕ} {read : Versioned Obj} (h : HasRead n read s)
    (hcounted : Counted s t) : HasRead n read t := by
  have hrevision := hcounted.revision
  obtain ⟨hspent, o, ho, hversion⟩ := h
  obtain ⟨o', ho', hkept⟩ := hcounted.kept o ho
  refine ⟨by omega, o', ho', ?_⟩
  rcases hversion with hversion | hversion
  · rcases hkept with hkept | hkept
    · exact .inl (hkept.trans hversion)
    · exact .inr (by omega)
  · exact .inr (by omega)

/-- An attempt has ended: only a conflict makes it fail, and something has been stored then. -/
structure Attempted (n : ℕ) (result : ρ × Option ApiError) (s : Server Obj Call Edit) : Prop where
  /-- The object exists. -/
  exists_object : s.object ≠ none
  /-- The number has been reached, and the next one after a conflict. -/
  failed : ∀ e, result.2 = some e → e = .conflict ∧ n + 1 ≤ s.revision

theorem Attempted.stable {n : ℕ} {result : ρ × Option ApiError} (h : Attempted n result s)
    (hcounted : Counted s t) : Attempted n result t := by
  have hrevision := hcounted.revision
  refine ⟨fun ht => ?_, fun e he => ?_⟩
  · obtain ⟨o, ho⟩ := Option.ne_none_iff_exists'.mp h.exists_object
    obtain ⟨o', ho', -⟩ := hcounted.kept o ho
    rw [ht] at ho'
    cases ho'
  · obtain ⟨hconflict, hspent⟩ := h.failed e he
    exact ⟨hconflict, by omega⟩

/-- One client is watched from its start on; its requests are answered without failures. -/
def contention (spec : Spec Obj Call Edit ρ) (retries client n : ℕ) :
    Discipline (system spec retries) where
  inv _ := True
  rely _ := Counted
  guarantee _ _ _ _ := Counted
  post w _ result t := w = client → ∀ e, result.2 = some e →
    e = .conflict ∧ n + retries + 1 ≤ t.revision
  admits w fault _ _ := w = client → fault = none
  admitsStart w call s := w = client → Spent n s ∧ Expected spec call s
  rely_refl _ := .refl
  rely_trans _ _ _ _ := Counted.trans

section Client

variable {client n m : ℕ} {call : Call} {captured : ρ} {read : Versioned Obj}
variable {seen : Record (Req Obj) (Resp Obj)}

/-- The contract of the client. -/
abbrev watched (spec : Spec Obj Call Edit ρ) (retries client n : ℕ) :
    Contract (Req Obj) (Resp Obj) (Server Obj Call Edit) (Option ApiError) :=
  (contention spec retries client n).contract client

/-- The attempt returns. -/
theorem wp_attempted {result : ρ × Option ApiError} (h : Attempted m result s) :
    Wp (watched spec retries client n) (fun _ result t => Attempted m result t)
      (.ret result) seen s :=
  fun _ hcounted _ => h.stable hcounted

/-- A request of the client is answered after others have acted. -/
theorem wp_request {α : Type} {r : Req Obj} {f : Resp Obj r → Prog (Req Obj) (Resp Obj) α}
    {post : Record (Req Obj) (Resp Obj) → α → Server Obj Call Edit → Prop}
    (h : ∀ t, Counted s t → ∀ seen, Wp (watched spec retries client n) post
      (f (serve spec client none r t).1) seen (serve spec client none r t).2) :
    Wp (watched spec retries client n) post (Prog.request r >>= f) seen s := by
  intro t hcounted _ fault hfault
  obtain rfl : fault = none := hfault rfl
  exact ⟨trivial, counted_serve spec client none r t, h t hcounted _⟩

/-- Writing back what was read fails only if something has been stored in between. -/
theorem wp_contended_store (h : HasRead m read s) :
    Wp (watched spec retries client n) (fun _ result t => Attempted m result t)
      (store spec call read) seen s := by
  refine wp_request fun t hcounted seen => ?_
  have hnow := (h.stable hcounted).stable (counted_serve spec client none .now t)
  refine wp_request fun u hcounted' seen => ?_
  obtain ⟨hspent, o, ho, hversion⟩ := hnow.stable hcounted'
  simp only [serve, Cell.serve, ho]
  by_cases hsame : o.version = read.version
  · rw [if_pos hsame]
    exact wp_attempted ⟨Option.some_ne_none _, fun e he => by cases he⟩
  · rw [if_neg hsame]
    have hovertaken := hversion.resolve_left hsame
    refine wp_attempted ⟨?_, fun e he => ?_⟩
    · rw [ho]
      exact Option.some_ne_none _
    · cases he
      exact ⟨rfl, hovertaken⟩

/-- Reading the object. -/
theorem hasRead_of_spent (hspent : Spent m s) (ho : s.object = some read) : HasRead m read s := by
  refine ⟨?_, read, ho, .inl rfl⟩
  simpa only [Spent, ho, reduceCtorEq, if_false, Nat.add_zero] using hspent

/-- An attempt after the object has been created by somebody. -/
theorem wp_contended_reload (hspent : Spent m s) (hexists : s.object ≠ none) :
    Wp (watched spec retries client n) (fun _ result t => Attempted m result t)
      (attempt.reload spec call captured) seen s := by
  refine wp_request fun t hcounted seen => ?_
  obtain ⟨o, ho⟩ := Option.ne_none_iff_exists'.mp hexists
  obtain ⟨read, hread, -⟩ := hcounted.kept o ho
  simp only [serve, Cell.serve, hread]
  exact wp_contended_store (hasRead_of_spent (hspent.stable hcounted) hread)

/-- An attempt fails only if something has been stored between its read and its write. -/
theorem wp_contended_attempt (hspent : Spent m s) (hexpected : Expected spec call s) :
    Wp (watched spec retries client n) (fun _ result t => Attempted m result t)
      (attempt spec call captured) seen s := by
  refine wp_request fun t hcounted seen => ?_
  have hspent := hspent.stable hcounted
  cases hread : t.object with
  | some read =>
    simp only [serve, Cell.serve, hread]
    exact wp_contended_store (hasRead_of_spent hspent hread)
  | none =>
    have hcreates : spec.creates call = true :=
      (hexpected.stable hcounted).resolve_right fun hexists => hexists hread
    simp only [serve, Cell.serve, hread, hcreates, ne_eq, not_true_eq_false, Bool.true_eq_false,
      or_self, if_false]
    refine wp_request fun u hcounted' seen => ?_
    have hlater := (hspent.stable hcounted').stable (counted_serve spec client none .create u)
    cases hobject : u.object with
    | none =>
      simp only [serve, Cell.serve, hobject] at hlater ⊢
      exact wp_contended_reload hlater (Option.some_ne_none _)
    | some o =>
      simp only [serve, Cell.serve, hobject, if_true] at hlater ⊢
      refine wp_contended_reload hlater ?_
      rw [hobject]
      exact Option.some_ne_none _

/-- A client that gives up has been overtaken once for every attempt. -/
theorem wp_contended (k : ℕ) (hspent : Spent m s) (hexpected : Expected spec call s) :
    Wp (watched spec retries client n) (fun _ result t => ∀ e, result.2 = some e →
      e = .conflict ∧ m + k + 1 ≤ t.revision) (retryOnConflict spec call k captured) seen s := by
  induction k generalizing m captured seen s with
  | zero =>
    refine (wp_contended_attempt hspent hexpected).mono ?_
    intro seen result t _ hattempted e he
    exact hattempted.failed e he
  | succ k ih =>
    refine Wp.bind ((wp_contended_attempt hspent hexpected).mono ?_)
    intro seen result t _ hattempted
    have hexists := hattempted.exists_object
    split
    · next hconflict =>
      obtain ⟨-, hnext⟩ := hattempted.failed _ hconflict
      have hspent' : Spent (m + 1) t := by
        unfold Spent
        omega
      refine (ih hspent' (.inr hexists)).mono ?_
      intro seen result' u _ hfailed e he
      obtain ⟨hcause, hcount⟩ := hfailed e he
      exact ⟨hcause, by omega⟩
    · next hother =>
      intro u _ _ e he
      obtain ⟨rfl, -⟩ := hattempted.failed e he
      exact absurd he hother

end Client

/-- Nothing is said about the other clients. -/
theorem wp_unwatched {client n w : ℕ} (hw : w ≠ client)
    (p : Prog (Req Obj) (Resp Obj) (ρ × Option ApiError)) (seen : Record (Req Obj) (Resp Obj))
    (s : Server Obj Call Edit) :
    Wp ((contention spec retries client n).contract w)
      ((contention spec retries client n).post w) p seen s := by
  induction p generalizing seen s with
  | ret value => exact fun t _ _ hclient => absurd hclient hw
  | call r next ih =>
    intro t _ _ fault _
    exact ⟨trivial, counted_serve spec w fault r t, ih _ _ _⟩

/-- A client calls once, and starting it records the call only. -/
theorem calls_of_onStart {i : ℕ} {call : Call}
    (h : (system spec retries).onStart i call s = some t) :
    s.calls i = none ∧ t = { s with calls := Function.update s.calls i (some call) } := by
  simp only [system] at h
  split at h
  · cases h
  · next hnone => exact ⟨hnone, (Option.some.inj h).symm⟩

theorem contention_respected (spec : Spec Obj Call Edit ρ) (retries client n : ℕ) :
    (contention spec retries client n).Respected where
  start := by
    intro w call s t _ hadmits hstart
    have hcounted : Counted s t := by
      rw [(calls_of_onStart hstart).2]
      exact counted_of_same rfl rfl
    refine ⟨trivial, fun _ _ => hcounted, ?_⟩
    by_cases hw : w = client
    · subst hw
      obtain ⟨hspent, hexpected⟩ := hadmits rfl
      refine (wp_contended retries (hspent.stable hcounted) (hexpected.stable hcounted)).mono ?_
      exact fun _ _ _ _ hfailed _ => hfailed
    · exact wp_unwatched hw _ _ _
  env := fun _ _ h => ⟨trivial, fun _ => counted_env h⟩
  finish := by
    intro w seen value s t _ _ hfinish
    cases hfinish
  crash := by
    intro s t _ hcrash
    cases hcrash
  compatible := fun _ _ hcounted _ => hcounted

/-- A client that has made its call does not start again. -/
theorem admits_of_called {client n : ℕ}
    {st st' : State ℕ (Req Obj) (Resp Obj) (Server Obj Call Edit) (ρ × Option ApiError)}
    {e : Event ℕ Call (Option ApiError) (Env Edit)} (hcalled : st.shared.calls client ≠ none)
    (hcalm : ∀ fault, e = .serve client fault → fault = none)
    (hstep : (system spec retries).step st e = some st') :
    (contention spec retries client n).Admits st e ∧ st'.shared.calls client ≠ none := by
  cases System.taken_of_step hstep with
  | @start w call s free hook =>
    obtain ⟨hnone, rfl⟩ := calls_of_onStart hook
    have hne : client ≠ w := fun heq => hcalled (heq ▸ hnone)
    refine ⟨fun heq => absurd heq.symm hne, ?_⟩
    dsimp only
    rw [Function.update_of_ne hne]
    exact hcalled
  | @serve w fault seen r next pending =>
    refine ⟨fun _ _ _ _ hw => hcalm fault ?_, hcalled⟩
    rw [hw]
  | finish _ hook => cases hook
  | crash hook => cases hook
  | @env e s hook =>
    obtain ⟨cell, -, rfl⟩ := Option.map_eq_some_iff.mp hook
    exact ⟨trivial, hcalled⟩

theorem runWhere_of_called {client n : ℕ}
    {st st' : State ℕ (Req Obj) (Resp Obj) (Server Obj Call Edit) (ρ × Option ApiError)}
    {es : List (Event ℕ Call (Option ApiError) (Env Edit))}
    (hcalled : st.shared.calls client ≠ none)
    (hcalm : ∀ fault, .serve client fault ∈ es → fault = none)
    (hrun : (system spec retries).run st es = some st') :
    (system spec retries).RunWhere (contention spec retries client n).Admits st es st' := by
  induction es generalizing st with
  | nil => exact Option.some.inj hrun
  | cons e es ih =>
    obtain ⟨mid, hstep, hrest⟩ := Option.bind_eq_some_iff.mp hrun
    have hfirst : ∀ fault, e = .serve client fault → fault = none :=
      fun fault he => hcalm fault (he ▸ List.mem_cons_self)
    obtain ⟨hadmits, hmid⟩ := admits_of_called hcalled hfirst hstep
    exact ⟨hadmits, mid, hstep, ih hmid (fun fault he => hcalm fault (List.mem_cons_of_mem e he)) hrest⟩

/-- From any state in which a call is started: if its requests are answered without failures
and it returns an error, the error is a conflict, and something has been stored once for
every attempt since. Creating a missing object is counted on top. -/
theorem conflict_overtaken {client : ℕ} {call : Call} {e : ApiError} {result : ρ}
    {st st₁ st' : State ℕ (Req Obj) (Resp Obj) (Server Obj Call Edit) (ρ × Option ApiError)}
    {es : List (Event ℕ Call (Option ApiError) (Env Edit))} {seen : Record (Req Obj) (Resp Obj)}
    (hstart : (system spec retries).step st (.start client call) = some st₁)
    (hexpected : Expected spec call st.shared)
    (hcalm : ∀ fault, .serve client fault ∈ es → fault = none)
    (hrun : (system spec retries).run st₁ es = some st')
    (hreturned : st'.running client = some ⟨seen, .ret (result, some e)⟩) :
    e = .conflict ∧ st.shared.revision + (if st.shared.object = none then 1 else 0) + retries + 1 ≤
      st'.shared.revision := by
  generalize hn : st.shared.revision + (if st.shared.object = none then 1 else 0) = n
  have hd := contention_respected spec retries client n
  -- the client is not running yet, and nothing is asked of the others
  have hfree : st.running client = none ∧ st₁.shared.calls client ≠ none := by
    cases System.taken_of_step hstart with
    | start free hook =>
      obtain ⟨-, rfl⟩ := calls_of_onStart hook
      refine ⟨free, ?_⟩
      dsimp only
      rw [Function.update_self]
      exact Option.some_ne_none _
  have hsafe : (contention spec retries client n).Safe st := by
    refine ⟨trivial, fun w activity hw => wp_unwatched ?_ _ _ _⟩
    rintro rfl
    rw [hfree.1] at hw
    cases hw
  have hspent : Spent n st.shared := le_of_eq hn.symm
  have hadmits : (contention spec retries client n).Admits st (.start client call) :=
    fun _ => ⟨hspent, hexpected⟩
  have hstarted := Discipline.step_safe hd hsafe hadmits hstart
  have hend := Discipline.run_safe_where hd hstarted (runWhere_of_called hfree.2 hcalm hrun)
  exact hend.post hreturned rfl e rfl

/-- Versions are handed out for recorded changes only, and running clients have made a call. -/
structure Tallied (st : State ℕ (Req Obj) (Resp Obj) (Server Obj Call Edit) (ρ × Option ApiError)) :
    Prop where
  /-- There is one version for each change. -/
  revision : st.shared.revision = st.shared.history.length
  /-- The calls of running clients are known. -/
  called : ∀ i, st.running i ≠ none → st.shared.calls i ≠ none

/-- A request of a client that has made its call. -/
theorem length_serve {i : ℕ} (hcalled : s.calls i ≠ none) (h : s.revision = s.history.length)
    (fault : Option ApiError) (r : Req Obj) :
    (serve spec i fault r s).2.revision = (serve spec i fault r s).2.history.length := by
  obtain ⟨call, hcall⟩ := Option.ne_none_iff_exists'.mp hcalled
  cases r with
  | get =>
    simp only [serve, Cell.serve]
    split <;> exact h
  | now => exact h
  | create =>
    simp only [serve, Cell.serve]
    split
    · exact h
    · exact h
    · simp [Server.recorded, Cell.put, h]
  | update version value =>
    simp only [serve, Cell.serve]
    split
    · exact h
    · exact h
    · split
      · simp [Server.recorded, Cell.put, h, hcall]
      · exact h

theorem Tallied.step
    {st st' : State ℕ (Req Obj) (Resp Obj) (Server Obj Call Edit) (ρ × Option ApiError)}
    {e : Event ℕ Call (Option ApiError) (Env Edit)} (h : Tallied st)
    (hstep : (system spec retries).step st e = some st') : Tallied st' := by
  cases System.taken_of_step hstep with
  | @start w call s free hook =>
    obtain ⟨-, rfl⟩ := calls_of_onStart hook
    refine ⟨h.revision, fun i hi => ?_⟩
    dsimp only at hi ⊢
    by_cases hw : i = w
    · rw [hw, Function.update_self]
      exact Option.some_ne_none _
    · rw [Function.update_of_ne hw] at hi ⊢
      exact h.called i hi
  | @serve w fault seen r next pending =>
    have hcalled : st.shared.calls w ≠ none := by
      refine h.called w ?_
      rw [pending]
      exact Option.some_ne_none _
    refine ⟨length_serve hcalled h.revision fault r, fun i hi => ?_⟩
    by_cases hw : i = w
    · rw [hw]
      exact hcalled
    · dsimp only at hi
      rw [Function.update_of_ne hw] at hi
      exact h.called i hi
  | finish _ hook => cases hook
  | crash hook => cases hook
  | @env e s hook =>
    obtain ⟨cell, hcell, rfl⟩ := Option.map_eq_some_iff.mp hook
    refine ⟨?_, h.called⟩
    cases e with
    | tick duration =>
      cases hcell
      exact h.revision
    | create edit =>
      simp only [Cell.env] at hcell
      split at hcell
      · cases hcell
      · cases hcell
        simp [Env.recorded, Cell.put, h.revision]
    | edit edit =>
      obtain ⟨stored, -, rfl⟩ := Option.map_eq_some_iff.mp hcell
      simp [Env.recorded, Cell.put, h.revision]

/-- In every reachable state there is one version for each change. -/
theorem tallied_of_reachable {init : Option Obj} {start : Instant}
    {st : State ℕ (Req Obj) (Resp Obj) (Server Obj Call Edit) (ρ × Option ApiError)}
    (h : (system spec retries).Reachable (idle (Server.initial init start)) st) : Tallied st := by
  obtain ⟨es, hrun⟩ := h
  have hinit : Tallied (idle (Server.initial init start) :
      State ℕ (Req Obj) (Resp Obj) (Server Obj Call Edit) (ρ × Option ApiError)) :=
    ⟨rfl, fun i hi => absurd rfl hi⟩
  have hwhere : (system spec retries).RunWhere (fun _ _ => True) _ es st :=
    System.runWhere_of_run (fun _ _ => trivial) hrun
  exact hwhere.invariant Tallied (fun _ hstep hmid => hmid.step hstep) hinit

end K8StorageX.OptimisticStore
