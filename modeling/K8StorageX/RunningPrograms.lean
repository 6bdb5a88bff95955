import K8StorageX.WorkerPool

/-!
# What running programs have in common

If every program of a system keeps to a rule about its next request and what it has been
answered before, all running programs do so in every run. What the answers have told stays
true as long as the steps of the system keep it.
-/

namespace K8StorageX.WorkerPool

open ApiProgram

variable {ι J Req σ Fault E α : Type} {Resp : Req → Type}

/-- A program keeps to a rule, and what it has been answered is true. -/
structure Keeps (allowed : Record Req Resp → Req → Prop) (told : (r : Req) → Resp r → σ → Prop)
    (s : σ) (activity : Activity Req Resp α) : Prop where
  /-- All later requests keep to the rule. -/
  traced : activity.rest.Traced allowed activity.seen
  /-- What has been answered is true. -/
  answered : ∀ exchange ∈ activity.seen, told exchange.1 exchange.2 s

/-- All running programs keep to a rule, and what they have been answered is true. -/
def Keeping (rule : ι → Record Req Resp → Req → Prop) (told : (r : Req) → Resp r → σ → Prop)
    (st : State ι Req Resp σ α) : Prop :=
  ∀ w activity, st.running w = some activity → Keeps (rule w) told st.shared activity

variable {sys : System ι J Req Resp σ Fault E α} {st st' : State ι Req Resp σ α}
  {rule : ι → Record Req Resp → Req → Prop} {told : (r : Req) → Resp r → σ → Prop}

/-- Nothing runs at first. -/
theorem keeping_idle (s : σ) : Keeping rule told (idle s : State ι Req Resp σ α) := by
  intro w activity hw
  cases hw

/-- The next request keeps to the rule. -/
theorem Keeping.request (h : Keeping rule told st) {w : ι} {seen : Record Req Resp} {r : Req}
    {next : Resp r → Prog Req Resp α} (hw : st.running w = some ⟨seen, .call r next⟩) :
    rule w seen r :=
  (h w _ hw).traced.1

variable [DecidableEq ι]

/-- The activity of one worker is replaced. -/
theorem Keeping.update (h : Keeping rule told st) {t : σ} {w : ι}
    {entry : Option (Activity Req Resp α)}
    (hstable : ∀ r response, told r response st.shared → told r response t)
    (hentry : ∀ activity, entry = some activity → Keeps (rule w) told t activity) :
    Keeping rule told (⟨t, Function.update st.running w entry⟩ : State ι Req Resp σ α) := by
  intro v activity hv
  dsimp only at hv
  by_cases hvw : v = w
  · subst hvw
    rw [Function.update_self] at hv
    exact hentry activity hv
  · rw [Function.update_of_ne hvw] at hv
    have hkeeps := h v activity hv
    exact ⟨hkeeps.traced, fun exchange hmem => hstable _ _ (hkeeps.answered exchange hmem)⟩

/-- A step of a system whose programs keep to the rule. -/
theorem Keeping.step (h : Keeping rule told st) {e : Event ι J Fault E}
    (hstep : sys.step st e = some st') (hprogram : ∀ w j, (sys.program w j).Traced (rule w) [])
    (hstable : ∀ r response, told r response st.shared → told r response st'.shared)
    (hanswer : ∀ w fault r, told r (sys.serve w fault r st.shared).1
      (sys.serve w fault r st.shared).2) : Keeping rule told st' := by
  cases System.taken_of_step hstep with
  | @start w j t _ ht =>
    refine h.update hstable fun activity hactivity => ?_
    cases hactivity
    exact ⟨hprogram w j, List.forall_mem_nil _⟩
  | @serve w fault seen r next hw =>
    refine h.update hstable fun activity hactivity => ?_
    cases hactivity
    refine ⟨(h w _ hw).traced.2 _, fun exchange hmem => ?_⟩
    rcases List.mem_append.mp hmem with hold | hnew
    · exact hstable _ _ ((h w _ hw).answered exchange hold)
    · rw [List.mem_singleton.mp hnew]
      exact hanswer w fault r
  | finish _ _ =>
    refine h.update hstable fun activity hactivity => ?_
    cases hactivity
  | crash _ => exact keeping_idle _
  | env _ =>
    intro w activity hw
    have hkeeps := h w activity hw
    exact ⟨hkeeps.traced, fun exchange hmem => hstable _ _ (hkeeps.answered exchange hmem)⟩

end K8StorageX.WorkerPool
