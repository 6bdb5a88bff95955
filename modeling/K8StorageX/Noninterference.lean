import K8StorageX.WorkerPool

/-!
# What one worker sees of a run

A worker sees a part of the shared state. If the others leave this part alone and the
worker's own steps depend on nothing else, then leaving out the steps of the others
changes nothing for the worker: it does the same, it is answered the same, and it leaves
the same behind. `Unwinding.run` is the induction over all interleavings, done once.
-/

namespace K8StorageX.WorkerPool

open ApiProgram

variable {ι J Req σ Fault E α : Type} {Resp : Req → Type} [DecidableEq ι]

/-- The steps a worker takes, and the crashes. -/
def Event.concerns (w : ι) : Event ι J Fault E → Bool
  | .start v _ => v == w
  | .serve v _ => v == w
  | .finish v => v == w
  | .crash => true
  | .env _ => false

theorem Event.concerns_of_worker {w : ι} {e : Event ι J Fault E} (h : e.worker? = some w) :
    e.concerns w = true := by
  cases e with
  | start v job => exact beq_iff_eq.mpr (Option.some.inj h)
  | serve v fault => exact beq_iff_eq.mpr (Option.some.inj h)
  | finish v => exact beq_iff_eq.mpr (Option.some.inj h)
  | crash => rfl
  | env e => cases h

/-- What a worker sees: `view s₀ s` relates a state without the others to one with them. -/
structure Unwinding {sys : System ι J Req Resp σ Fault E α} (d : Discipline sys) (w : ι)
    (view : σ → σ → Prop) : Prop where
  /-- What the worker tolerates is not seen. -/
  others : ∀ {s₀ s t}, view s₀ s → d.rely w s t → view s₀ t
  /-- The worker can start without the others. -/
  start : ∀ {j s₀ s t}, view s₀ s → sys.onStart w j s = some t →
    ∃ t₀, sys.onStart w j s₀ = some t₀ ∧ view t₀ t
  /-- The worker is answered the same. -/
  serve : ∀ {seen r fault s₀ s}, view s₀ s → d.inv s →
    d.guarantee w seen r (sys.serve w fault r s).1 s (sys.serve w fault r s).2 →
    (sys.serve w fault r s₀).1 = (sys.serve w fault r s).1 ∧
      view (sys.serve w fault r s₀).2 (sys.serve w fault r s).2
  /-- The worker can finish without the others. -/
  finish : ∀ {value s₀ s t}, view s₀ s → sys.onFinish w value s = some t →
    ∃ t₀, sys.onFinish w value s₀ = some t₀ ∧ view t₀ t
  /-- A crash is possible without the others. -/
  crash : ∀ {s₀ s t}, view s₀ s → sys.onCrash s = some t →
    ∃ t₀, sys.onCrash s₀ = some t₀ ∧ view t₀ t

/-- Two states are the same for a worker. -/
structure Projects (view : σ → σ → Prop) (w : ι) (alone st : State ι Req Resp σ α) : Prop where
  /-- It sees the same. -/
  shared : view alone.shared st.shared
  /-- It runs the same program and has been answered the same. -/
  running : alone.running w = st.running w

section Steps

variable {sys : System ι J Req Resp σ Fault E α} {d : Discipline sys} {w : ι}
variable {view : σ → σ → Prop} {alone st st' : State ι Req Resp σ α} {e : Event ι J Fault E}

/-- The steps of the others are not seen. -/
theorem Unwinding.skip (hu : Unwinding d w view) (hd : d.Respected) (hs : d.Safe st)
    (hp : Projects view w alone st) (ha : d.Admits st e) (hstep : sys.step st e = some st')
    (he : e.concerns w = false) : Projects view w alone st' := by
  have hworker : e.worker? ≠ some w := by
    intro hw
    rw [Event.concerns_of_worker hw] at he
    cases he
  have hcrash : e ≠ .crash := by
    intro heq
    rw [heq] at he
    cases he
  obtain ⟨hrely, hrunning⟩ := d.step_frame hd hs ha hstep hworker hcrash
  exact ⟨hu.others hp.shared hrely, hp.running.trans hrunning.symm⟩

/-- The steps of the worker can be taken without the others. -/
theorem Unwinding.step (hu : Unwinding d w view) (hs : d.Safe st) (hp : Projects view w alone st)
    (ha : d.Admits st e) (hstep : sys.step st e = some st') (he : e.concerns w = true) :
    ∃ alone', sys.step alone e = some alone' ∧ Projects view w alone' st' := by
  cases System.taken_of_step hstep with
  | @start v j s free hook =>
    obtain rfl : v = w := beq_iff_eq.mp he
    obtain ⟨t₀, hook₀, hview⟩ := hu.start hp.shared hook
    have hfree : alone.running v = none := hp.running.trans free
    refine ⟨⟨t₀, Function.update alone.running v (some ⟨[], sys.program v j⟩)⟩, ?_, hview, ?_⟩
    · simp only [System.step, hfree, hook₀, Option.map_some]
    · simp only [Function.update_self]
  | @serve v fault seen r next pending =>
    obtain rfl : v = w := beq_iff_eq.mp he
    have hguarantee := hs.guarantee pending fault (ha seen r next pending)
    obtain ⟨hanswer, hview⟩ := hu.serve hp.shared hs.1 hguarantee
    have hpending : alone.running v = some ⟨seen, .call r next⟩ := hp.running.trans pending
    refine ⟨⟨(sys.serve v fault r alone.shared).2, Function.update alone.running v
      (some ⟨seen ++ [⟨r, (sys.serve v fault r alone.shared).1⟩],
        next (sys.serve v fault r alone.shared).1⟩)⟩, ?_, hview, ?_⟩
    · simp only [System.step, hpending]
    · simp only [Function.update_self, hanswer]
  | @finish v seen value s returned hook =>
    obtain rfl : v = w := beq_iff_eq.mp he
    obtain ⟨t₀, hook₀, hview⟩ := hu.finish hp.shared hook
    have hreturned : alone.running v = some ⟨seen, .ret value⟩ := hp.running.trans returned
    refine ⟨⟨t₀, Function.update alone.running v none⟩, ?_, hview, ?_⟩
    · simp only [System.step, hreturned, hook₀, Option.map_some]
    · simp only [Function.update_self]
  | crash hook =>
    obtain ⟨t₀, hook₀, hview⟩ := hu.crash hp.shared hook
    refine ⟨idle t₀, ?_, hview, rfl⟩
    simp only [System.step, hook₀, Option.map_some]
  | env hook => cases he

/-- A run without the steps of the others is the same for the worker. -/
theorem Unwinding.run (hu : Unwinding d w view) (hd : d.Respected) (hs : d.Safe st)
    (hp : Projects view w alone st) {es : List (Event ι J Fault E)}
    (hrun : sys.RunWhere d.Admits st es st') :
    ∃ alone', sys.run alone (es.filter (·.concerns w)) = some alone' ∧
      Projects view w alone' st' := by
  induction es generalizing st alone with
  | nil =>
    have heq : st = st' := hrun
    exact ⟨alone, rfl, heq ▸ hp⟩
  | cons e es ih =>
    obtain ⟨ha, mid, hstep, hrest⟩ := hrun
    have hmid := d.step_safe hd hs ha hstep
    cases he : e.concerns w with
    | false =>
      rw [List.filter_cons_of_neg (by simp [he])]
      exact ih hmid (hu.skip hd hs hp ha hstep he) hrest
    | true =>
      obtain ⟨next, hnext, hprojects⟩ := hu.step hs hp ha hstep he
      obtain ⟨alone', hlast, hdone⟩ := ih hmid hprojects hrest
      refine ⟨alone', ?_, hdone⟩
      rw [List.filter_cons_of_pos he, System.run, hnext]
      exact hlast

end Steps

end K8StorageX.WorkerPool
