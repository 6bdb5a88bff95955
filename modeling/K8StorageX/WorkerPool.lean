import K8StorageX.ApiProgram

/-!
# Workers that interleave their requests

Workers run programs against one shared state. A step starts a program, serves
one pending request, removes a returned program, loses all running programs in
a crash, or lets the environment act. `Discipline` collects the obligations of
a rely-guarantee argument; `Discipline.reachable_safe` is the induction over
all interleavings, done once.
-/

namespace K8StorageX.WorkerPool

open ApiProgram

variable {ι J Req σ Fault E α : Type} {Resp : Req → Type}

/-- The parties of a concurrent system. Hooks return `none` where the system
has no such step. -/
structure System (ι J Req : Type) (Resp : Req → Type) (σ Fault E α : Type) where
  /-- Answer to a request of a worker, for a chosen fault. -/
  serve : ι → Fault → (r : Req) → σ → Resp r × σ
  /-- Steps of everybody who is not a worker. -/
  env : E → σ → Option σ
  /-- Effect of handing a job to a worker. -/
  onStart : ι → J → σ → Option σ
  /-- The program a worker runs for a job. -/
  program : ι → J → Prog Req Resp α
  /-- Effect of a worker that returned a result. -/
  onFinish : ι → α → σ → Option σ
  /-- Effect of losing all running programs. -/
  onCrash : σ → Option σ

/-- A running program with everything it has read so far. -/
structure Activity (Req : Type) (Resp : Req → Type) (α : Type) where
  /-- The exchanges of this run of the program, oldest first. -/
  seen : Record Req Resp
  /-- What is left to do. -/
  rest : Prog Req Resp α

/-- Shared state and the programs in progress. -/
structure State (ι Req : Type) (Resp : Req → Type) (σ α : Type) where
  /-- State all parties act on. -/
  shared : σ
  /-- The program each worker is running, if any. -/
  running : ι → Option (Activity Req Resp α)

/-- One step of one party. -/
inductive Event (ι J Fault E : Type) where
  /-- A worker takes a job. -/
  | start (worker : ι) (job : J)
  /-- The pending request of a worker is served. -/
  | serve (worker : ι) (fault : Fault)
  /-- A returned program is removed. -/
  | finish (worker : ι)
  /-- All running programs are lost. -/
  | crash
  /-- The environment acts. -/
  | env (event : E)

/-- The worker a step belongs to. -/
def Event.worker? : Event ι J Fault E → Option ι
  | .start w _ => some w
  | .serve w _ => some w
  | .finish w => some w
  | .crash => none
  | .env _ => none

/-- The state in which nothing is running. -/
def idle (s : σ) : State ι Req Resp σ α := ⟨s, fun _ => none⟩

/-- One step of the system; `none` when the event is not enabled. -/
def System.step [DecidableEq ι] (sys : System ι J Req Resp σ Fault E α)
    (st : State ι Req Resp σ α) : Event ι J Fault E → Option (State ι Req Resp σ α)
  | .start w j =>
    match st.running w with
    | some _ => none
    | none => (sys.onStart w j st.shared).map fun s =>
        ⟨s, Function.update st.running w (some ⟨[], sys.program w j⟩)⟩
  | .serve w fault =>
    match st.running w with
    | some ⟨seen, .call r next⟩ =>
      let answer := sys.serve w fault r st.shared
      some ⟨answer.2,
        Function.update st.running w (some ⟨seen ++ [⟨r, answer.1⟩], next answer.1⟩)⟩
    | _ => none
  | .finish w =>
    match st.running w with
    | some ⟨_, .ret value⟩ => (sys.onFinish w value st.shared).map fun s =>
        ⟨s, Function.update st.running w none⟩
    | _ => none
  | .crash => (sys.onCrash st.shared).map idle
  | .env e => (sys.env e st.shared).map fun s => ⟨s, st.running⟩

/-- The steps that can be taken, with the state each leads to. -/
inductive System.Taken [DecidableEq ι] (sys : System ι J Req Resp σ Fault E α)
    (st : State ι Req Resp σ α) : Event ι J Fault E → State ι Req Resp σ α → Prop
  | start {w : ι} {j : J} {s : σ} (free : st.running w = none)
      (hook : sys.onStart w j st.shared = some s) :
      Taken sys st (.start w j) ⟨s, Function.update st.running w (some ⟨[], sys.program w j⟩)⟩
  | serve {w : ι} {fault : Fault} {seen : Record Req Resp} {r : Req}
      {next : Resp r → Prog Req Resp α} (pending : st.running w = some ⟨seen, .call r next⟩) :
      Taken sys st (.serve w fault) ⟨(sys.serve w fault r st.shared).2,
        Function.update st.running w (some ⟨seen ++ [⟨r, (sys.serve w fault r st.shared).1⟩],
          next (sys.serve w fault r st.shared).1⟩)⟩
  | finish {w : ι} {seen : Record Req Resp} {value : α} {s : σ}
      (returned : st.running w = some ⟨seen, .ret value⟩)
      (hook : sys.onFinish w value st.shared = some s) :
      Taken sys st (.finish w) ⟨s, Function.update st.running w none⟩
  | crash {s : σ} (hook : sys.onCrash st.shared = some s) : Taken sys st .crash (idle s)
  | env {e : E} {s : σ} (hook : sys.env e st.shared = some s) :
      Taken sys st (.env e) ⟨s, st.running⟩

theorem System.taken_of_step [DecidableEq ι] {sys : System ι J Req Resp σ Fault E α}
    {st st' : State ι Req Resp σ α} {e : Event ι J Fault E} (h : sys.step st e = some st') :
    sys.Taken st e st' := by
  cases e with
  | start w j =>
    cases hw : st.running w with
    | some activity => simp only [System.step, hw, reduceCtorEq] at h
    | none =>
      simp only [System.step, hw, Option.map_eq_some_iff] at h
      obtain ⟨s, hs, rfl⟩ := h
      exact .start hw hs
  | serve w fault =>
    cases hw : st.running w with
    | none => simp only [System.step, hw, reduceCtorEq] at h
    | some activity =>
      obtain ⟨seen, rest⟩ := activity
      cases rest with
      | ret value => simp only [System.step, hw, reduceCtorEq] at h
      | call r next =>
        simp only [System.step, hw, Option.some.injEq] at h
        subst h
        exact .serve hw
  | finish w =>
    cases hw : st.running w with
    | none => simp only [System.step, hw, reduceCtorEq] at h
    | some activity =>
      obtain ⟨seen, rest⟩ := activity
      cases rest with
      | call r next => simp only [System.step, hw, reduceCtorEq] at h
      | ret value =>
        simp only [System.step, hw, Option.map_eq_some_iff] at h
        obtain ⟨s, hs, rfl⟩ := h
        exact .finish hw hs
  | crash =>
    simp only [System.step, Option.map_eq_some_iff] at h
    obtain ⟨s, hs, rfl⟩ := h
    exact .crash hs
  | env e =>
    simp only [System.step, Option.map_eq_some_iff] at h
    obtain ⟨s, hs, rfl⟩ := h
    exact .env hs

/-- A run of the system along a list of events. -/
def System.run [DecidableEq ι] (sys : System ι J Req Resp σ Fault E α)
    (st : State ι Req Resp σ α) : List (Event ι J Fault E) → Option (State ι Req Resp σ α)
  | [] => some st
  | e :: es => (sys.step st e).bind fun st' => sys.run st' es

theorem System.run_append [DecidableEq ι] (sys : System ι J Req Resp σ Fault E α)
    (st : State ι Req Resp σ α) (es fs : List (Event ι J Fault E)) :
    sys.run st (es ++ fs) = (sys.run st es).bind fun st' => sys.run st' fs := by
  induction es generalizing st with
  | nil => rfl
  | cons e es ih =>
    simp only [List.cons_append, System.run]
    cases sys.step st e with
    | none => rfl
    | some st' => exact ih st'

/-- States some run leads to. -/
def System.Reachable [DecidableEq ι] (sys : System ι J Req Resp σ Fault E α)
    (init st : State ι Req Resp σ α) : Prop := ∃ es, sys.run init es = some st

/-- A step leads from a reachable state to a reachable state. -/
theorem System.Reachable.step [DecidableEq ι] {sys : System ι J Req Resp σ Fault E α}
    {init st st' : State ι Req Resp σ α} {e : Event ι J Fault E} (h : sys.Reachable init st)
    (hstep : sys.step st e = some st') : sys.Reachable init st' := by
  obtain ⟨es, hrun⟩ := h
  refine ⟨es ++ [e], ?_⟩
  rw [System.run_append, hrun]
  simp only [Option.bind_some, System.run, hstep]

/-- A run in which every step meets a condition in the state before it. -/
def System.RunWhere [DecidableEq ι] (sys : System ι J Req Resp σ Fault E α)
    (cond : State ι Req Resp σ α → Event ι J Fault E → Prop) (st : State ι Req Resp σ α) :
    List (Event ι J Fault E) → State ι Req Resp σ α → Prop
  | [], st' => st = st'
  | e :: es, st' => cond st e ∧ ∃ mid, sys.step st e = some mid ∧ sys.RunWhere cond mid es st'

theorem System.runWhere_of_forall [DecidableEq ι] {sys : System ι J Req Resp σ Fault E α}
    {cond : State ι Req Resp σ α → Event ι J Fault E → Prop} {st st' : State ι Req Resp σ α}
    {es : List (Event ι J Fault E)} (hcond : ∀ e ∈ es, ∀ st, cond st e)
    (h : sys.run st es = some st') : sys.RunWhere cond st es st' := by
  induction es generalizing st with
  | nil => exact Option.some.inj h
  | cons e es ih =>
    simp only [System.run, Option.bind_eq_some_iff] at h
    obtain ⟨mid, hstep, hrun⟩ := h
    have htail : ∀ e ∈ es, ∀ st, cond st e := fun e' he' => hcond e' (List.mem_cons_of_mem e he')
    exact ⟨hcond e List.mem_cons_self st, mid, hstep, ih htail hrun⟩

theorem System.runWhere_of_run [DecidableEq ι] {sys : System ι J Req Resp σ Fault E α}
    {cond : State ι Req Resp σ α → Event ι J Fault E → Prop} (hcond : ∀ st e, cond st e)
    {st st' : State ι Req Resp σ α} {es : List (Event ι J Fault E)}
    (h : sys.run st es = some st') : sys.RunWhere cond st es st' :=
  System.runWhere_of_forall (fun e _ st => hcond st e) h

/-- A run in which every step passes a check in the state before it. -/
def System.runIf [DecidableEq ι] (sys : System ι J Req Resp σ Fault E α)
    (check : State ι Req Resp σ α → Event ι J Fault E → Bool) (st : State ι Req Resp σ α) :
    List (Event ι J Fault E) → Option (State ι Req Resp σ α)
  | [] => some st
  | e :: es => if check st e then (sys.step st e).bind fun st' => sys.runIf check st' es else none

theorem System.runWhere_of_runIf [DecidableEq ι] {sys : System ι J Req Resp σ Fault E α}
    {cond : State ι Req Resp σ α → Event ι J Fault E → Prop}
    {check : State ι Req Resp σ α → Event ι J Fault E → Bool}
    (hcheck : ∀ st e, check st e = true → cond st e) {st st' : State ι Req Resp σ α}
    {es : List (Event ι J Fault E)} (h : sys.runIf check st es = some st') :
    sys.RunWhere cond st es st' := by
  induction es generalizing st with
  | nil => exact Option.some.inj h
  | cons e es ih =>
    rw [System.runIf] at h
    split at h
    · next hpass =>
      obtain ⟨mid, hstep, hrun⟩ := Option.bind_eq_some_iff.mp h
      exact ⟨hcheck st e hpass, mid, hstep, ih hrun⟩
    · cases h

theorem System.RunWhere.mono [DecidableEq ι] {sys : System ι J Req Resp σ Fault E α}
    {cond weaker : State ι Req Resp σ α → Event ι J Fault E → Prop}
    (hweaker : ∀ st e, cond st e → weaker st e) {st st' : State ι Req Resp σ α}
    {es : List (Event ι J Fault E)} (h : sys.RunWhere cond st es st') :
    sys.RunWhere weaker st es st' := by
  induction es generalizing st with
  | nil => exact h
  | cons e es ih =>
    obtain ⟨hcond, mid, hstep, hrun⟩ := h
    exact ⟨hweaker st e hcond, mid, hstep, ih hrun⟩

/-- A run along two lists goes through a state in between. -/
theorem System.RunWhere.split [DecidableEq ι] {sys : System ι J Req Resp σ Fault E α}
    {cond : State ι Req Resp σ α → Event ι J Fault E → Prop} {st st' : State ι Req Resp σ α}
    {es fs : List (Event ι J Fault E)} (h : sys.RunWhere cond st (es ++ fs) st') :
    ∃ mid, sys.run st es = some mid ∧ sys.RunWhere cond st es mid ∧
      sys.RunWhere cond mid fs st' := by
  induction es generalizing st with
  | nil => exact ⟨st, rfl, rfl, h⟩
  | cons e es ih =>
    obtain ⟨hcond, next, hstep, hrun⟩ := h
    obtain ⟨mid, hmid, hfirst, hlast⟩ := ih hrun
    refine ⟨mid, ?_, ⟨hcond, next, hstep, hfirst⟩, hlast⟩
    rw [System.run, hstep]
    exact hmid

/-- What every step keeps holds at the end of a run. -/
theorem System.RunWhere.invariant [DecidableEq ι] {sys : System ι J Req Resp σ Fault E α}
    {cond : State ι Req Resp σ α → Event ι J Fault E → Prop} {st st' : State ι Req Resp σ α}
    {es : List (Event ι J Fault E)} (h : sys.RunWhere cond st es st')
    (fact : State ι Req Resp σ α → Prop)
    (hstep : ∀ {mid e next}, cond mid e → sys.step mid e = some next → fact mid → fact next)
    (hbefore : fact st) : fact st' := by
  induction es generalizing st with
  | nil =>
    have heq : st = st' := h
    rw [← heq]
    exact hbefore
  | cons e es ih =>
    obtain ⟨hcond, next, hnext, hrun⟩ := h
    exact ih hrun (hstep hcond hnext hbefore)

/-- What holds at the end of a run and not at its beginning is brought about by a step. -/
theorem System.RunWhere.brought_about [DecidableEq ι] {sys : System ι J Req Resp σ Fault E α}
    {cond : State ι Req Resp σ α → Event ι J Fault E → Prop} {st st' : State ι Req Resp σ α}
    {es : List (Event ι J Fault E)} (h : sys.RunWhere cond st es st')
    (fact : State ι Req Resp σ α → Prop) (hbefore : ¬ fact st) (hafter : fact st') :
    ∃ first e last mid next, es = (first ++ [e]) ++ last ∧ sys.RunWhere cond st first mid ∧
      cond mid e ∧ sys.step mid e = some next ∧ sys.run st (first ++ [e]) = some next ∧
      ¬ fact mid ∧ fact next := by
  induction es generalizing st with
  | nil =>
    have heq : st = st' := h
    rw [heq] at hbefore
    exact absurd hafter hbefore
  | cons e es ih =>
    obtain ⟨hcond, next, hstep, hrun⟩ := h
    by_cases hnext : fact next
    · refine ⟨[], e, es, st, next, rfl, rfl, hcond, hstep, ?_, hbefore, hnext⟩
      simp only [List.nil_append, System.run, hstep, Option.bind_some]
    · obtain ⟨first, f, last, mid, after, hes, hfirst, hf, hmid, hall, hnot, hfact⟩ :=
        ih hrun hnext
      refine ⟨e :: first, f, last, mid, after, ?_, ⟨hcond, next, hstep, hfirst⟩, hf, hmid, ?_,
        hnot, hfact⟩
      · rw [hes]
        rfl
      · simp only [List.cons_append, System.run, hstep, Option.bind_some]
        exact hall

/-- The rely-guarantee obligations of a system. Every worker keeps its
guarantee as long as the others stay within what it relies on. -/
structure Discipline (sys : System ι J Req Resp σ Fault E α) where
  /-- Invariant of the shared state. -/
  inv : σ → Prop
  /-- What a worker tolerates from the others. -/
  rely : ι → σ → σ → Prop
  /-- What each request of a worker keeps. -/
  guarantee : ι → Record Req Resp → (r : Req) → Resp r → σ → σ → Prop
  /-- What a worker has established when it returns. -/
  post : ι → Record Req Resp → α → σ → Prop
  /-- The answers to workers the argument is about. -/
  admits : ι → Fault → (r : Req) → σ → Prop := fun _ _ _ _ => True
  /-- The jobs the argument is about. -/
  admitsStart : ι → J → σ → Prop := fun _ _ _ => True
  /-- The steps of the environment the argument is about. -/
  admitsEnv : E → σ → Prop := fun _ _ => True
  /-- Doing nothing is tolerated. -/
  rely_refl : ∀ w s, rely w s s
  /-- Tolerated steps accumulate. -/
  rely_trans : ∀ w {s t u}, rely w s t → rely w t u → rely w s u

/-- The contract of one worker. -/
def Discipline.contract {sys : System ι J Req Resp σ Fault E α} (d : Discipline sys) (w : ι) :
    Contract Req Resp σ Fault where
  serve := sys.serve w
  rely := d.rely w
  inv := d.inv
  admits := d.admits w
  guarantee := d.guarantee w
  rely_refl := d.rely_refl w
  rely_trans := d.rely_trans w

/-- The steps of the system respect the discipline. -/
structure Discipline.Respected {sys : System ι J Req Resp σ Fault E α} (d : Discipline sys) :
    Prop where
  /-- A started program is safe, and its start is tolerated by the others. -/
  start : ∀ {w j s t}, d.inv s → d.admitsStart w j s → sys.onStart w j s = some t →
    d.inv t ∧ (∀ v, v ≠ w → d.rely v s t) ∧ Wp (d.contract w) (d.post w) (sys.program w j) [] t
  /-- The environment keeps the invariant and is tolerated by everybody. -/
  env : ∀ {e s t}, d.inv s → d.admitsEnv e s → sys.env e s = some t →
    d.inv t ∧ ∀ w, d.rely w s t
  /-- Removing a returned program is tolerated. -/
  finish : ∀ {w seen value s t}, d.inv s → d.post w seen value s →
    sys.onFinish w value s = some t → d.inv t ∧ ∀ v, v ≠ w → d.rely v s t
  /-- A crash keeps the invariant. -/
  crash : ∀ {s t}, d.inv s → sys.onCrash s = some t → d.inv t
  /-- What one worker guarantees is tolerated by every other. -/
  compatible : ∀ {w v seen r response s t}, d.inv s → d.inv t →
    d.guarantee w seen r response s t → v ≠ w → d.rely v s t

/-- The steps the argument is about. -/
def Discipline.Admits {sys : System ι J Req Resp σ Fault E α} (d : Discipline sys)
    (st : State ι Req Resp σ α) : Event ι J Fault E → Prop
  | .start w j => d.admitsStart w j st.shared
  | .serve w fault => ∀ seen r next, st.running w = some ⟨seen, .call r next⟩ →
      d.admits w fault r st.shared
  | .finish _ => True
  | .crash => True
  | .env e => d.admitsEnv e st.shared

/-- Every running program is safe from the current state on. -/
def Discipline.Safe {sys : System ι J Req Resp σ Fault E α} (d : Discipline sys)
    (st : State ι Req Resp σ α) : Prop :=
  d.inv st.shared ∧ ∀ w activity, st.running w = some activity →
    Wp (d.contract w) (d.post w) activity.rest activity.seen st.shared

section Soundness

variable {sys : System ι J Req Resp σ Fault E α} {d : Discipline sys}
variable {st st' : State ι Req Resp σ α}

/-- A system in which nothing runs yet is safe as soon as the invariant holds. -/
theorem Discipline.idle_safe {s : σ} (h : d.inv s) : d.Safe (idle s) := by
  refine ⟨h, ?_⟩
  rintro w activity ha
  cases ha

/-- In a safe state the next request of every worker meets its guarantee. -/
theorem Discipline.Safe.guarantee (hs : d.Safe st) {w : ι} {seen : Record Req Resp} {r : Req}
    {next : Resp r → Prog Req Resp α} (hw : st.running w = some ⟨seen, .call r next⟩)
    (fault : Fault) (ha : d.admits w fault r st.shared) :
    d.guarantee w seen r (sys.serve w fault r st.shared).1 st.shared
      (sys.serve w fault r st.shared).2 :=
  (hs.2 w _ hw _ (d.rely_refl w _) hs.1 fault ha).2.1

/-- In a safe state a returned program has established its postcondition. -/
theorem Discipline.Safe.post (hs : d.Safe st) {w : ι} {seen : Record Req Resp} {value : α}
    (hw : st.running w = some ⟨seen, .ret value⟩) : d.post w seen value st.shared :=
  hs.2 w _ hw _ (d.rely_refl w _) hs.1

variable [DecidableEq ι]

/-- Programs of the workers other than `w` stay safe when `w`'s entry is replaced. -/
theorem Discipline.others_safe {t : σ} {w : ι} {entry : Option (Activity Req Resp α)}
    (hs : d.Safe st) (hr : ∀ v, v ≠ w → d.rely v st.shared t)
    (hw : ∀ activity, entry = some activity →
      Wp (d.contract w) (d.post w) activity.rest activity.seen t) :
    ∀ v activity, Function.update st.running w entry v = some activity →
      Wp (d.contract v) (d.post v) activity.rest activity.seen t := by
  intro v activity hv
  by_cases hvw : v = w
  · subst hvw
    rw [Function.update_self] at hv
    exact hw activity hv
  · rw [Function.update_of_ne hvw] at hv
    exact (hs.2 v activity hv).stable (hr v hvw)

/-- One step keeps all running programs safe. -/
theorem Discipline.step_safe (hd : d.Respected) (hs : d.Safe st) {e : Event ι J Fault E}
    (ha : d.Admits st e) (h : sys.step st e = some st') : d.Safe st' := by
  cases System.taken_of_step h with
  | start _ ht =>
    obtain ⟨hinv, hrely, hwp⟩ := hd.start hs.1 ha ht
    refine ⟨hinv, d.others_safe hs hrely ?_⟩
    rintro activity ha
    cases ha
    exact hwp
  | @serve w fault seen r next hw =>
    have hadmits := ha seen r next hw
    obtain ⟨hinv, hguar, hnext⟩ := hs.2 w _ hw _ (d.rely_refl w _) hs.1 fault hadmits
    refine ⟨hinv, d.others_safe hs (fun v hv => hd.compatible hs.1 hinv hguar hv) ?_⟩
    rintro activity ha
    cases ha
    exact hnext
  | finish hw ht =>
    obtain ⟨hinv, hrely⟩ := hd.finish hs.1 (hs.post hw) ht
    refine ⟨hinv, d.others_safe hs hrely ?_⟩
    rintro activity ha
    cases ha
  | crash ht =>
    refine ⟨hd.crash hs.1 ht, ?_⟩
    rintro w activity ha
    cases ha
  | env ht =>
    obtain ⟨hinv, hrely⟩ := hd.env hs.1 ha ht
    exact ⟨hinv, fun w activity ha => (hs.2 w activity ha).stable (hrely w)⟩

/-- A step of somebody else is within what a worker relies on and leaves its
program alone, unless it is a crash. -/
theorem Discipline.step_frame (hd : d.Respected) (hs : d.Safe st) {e : Event ι J Fault E}
    (ha : d.Admits st e) (h : sys.step st e = some st') {w : ι} (hw : e.worker? ≠ some w)
    (hcrash : e ≠ .crash) :
    d.rely w st.shared st'.shared ∧ st'.running w = st.running w := by
  cases System.taken_of_step h with
  | start _ ht =>
    have hne : w ≠ _ := fun heq => hw (congrArg some heq.symm)
    exact ⟨(hd.start hs.1 ha ht).2.1 w hne, Function.update_of_ne hne _ _⟩
  | @serve v fault seen r next hv =>
    have hne : w ≠ v := fun heq => hw (congrArg some heq.symm)
    have hadmits := ha seen r next hv
    obtain ⟨hinv, hguar, -⟩ := hs.2 v _ hv _ (d.rely_refl v _) hs.1 fault hadmits
    exact ⟨hd.compatible hs.1 hinv hguar hne, Function.update_of_ne hne _ _⟩
  | finish hv ht =>
    have hne : w ≠ _ := fun heq => hw (congrArg some heq.symm)
    exact ⟨(hd.finish hs.1 (hs.post hv) ht).2 w hne, Function.update_of_ne hne _ _⟩
  | crash => exact absurd rfl hcrash
  | env ht => exact ⟨(hd.env hs.1 ha ht).2 w, rfl⟩

/-- Every run of admitted steps keeps all running programs safe. -/
theorem Discipline.run_safe_where (hd : d.Respected) (hs : d.Safe st)
    {es : List (Event ι J Fault E)} (h : sys.RunWhere d.Admits st es st') : d.Safe st' :=
  h.invariant d.Safe (fun ha hstep hsafe => d.step_safe hd hsafe ha hstep) hs

/-- What admitted steps keep from safe states holds at the end of a run. -/
theorem Discipline.run_keeps (hd : d.Respected)
    {cond : State ι Req Resp σ α → Event ι J Fault E → Prop}
    (hadmits : ∀ st e, cond st e → d.Admits st e) {es : List (Event ι J Fault E)}
    (h : sys.RunWhere cond st es st') (fact : State ι Req Resp σ α → Prop)
    (hkeeps : ∀ {mid e next}, d.Safe mid → cond mid e → sys.step mid e = some next →
      fact mid → fact next)
    (hs : d.Safe st) (hbefore : fact st) : fact st' := by
  have hboth := h.invariant (fun st => d.Safe st ∧ fact st) ?_ ⟨hs, hbefore⟩
  · exact hboth.2
  · rintro mid e next hcond hstep ⟨hsafe, hmid⟩
    exact ⟨d.step_safe hd hsafe (hadmits mid e hcond) hstep, hkeeps hsafe hcond hstep hmid⟩

/-- Every run keeps all running programs safe if all steps are admitted. -/
theorem Discipline.run_safe (hd : d.Respected) (ha : ∀ st e, d.Admits st e) (hs : d.Safe st)
    {es : List (Event ι J Fault E)} (h : sys.run st es = some st') : d.Safe st' :=
  d.run_safe_where hd hs (System.runWhere_of_run ha h)

/-- All states reachable from an idle system are safe if all steps are admitted. -/
theorem Discipline.reachable_safe (hd : d.Respected) (ha : ∀ st e, d.Admits st e) {s : σ}
    (h : d.inv s) (hr : sys.Reachable (idle s) st) : d.Safe st := by
  obtain ⟨es, hrun⟩ := hr
  exact d.run_safe hd ha (d.idle_safe h) hrun

end Soundness

end K8StorageX.WorkerPool
