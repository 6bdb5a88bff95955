import K8StorageX.WorkerPool

/-!
# A worker that runs alone

If nobody else acts, a worker that is started issues its requests one after the other and
returns. What it does to the shared state is what evaluating its program does. The lemmas
turn such an evaluation into a run of the whole system.
-/

namespace K8StorageX.WorkerPool

open ApiProgram

variable {ι J Req σ τ Fault E α : Type} {Resp : Req → Type}

/-- Evaluating a program commutes with a view of the states that the service respects. -/
theorem eval_view (serve : (r : Req) → σ → Resp r × σ) (seen : (r : Req) → τ → Resp r × τ)
    (view : σ → τ) (hview : ∀ r s, ((serve r s).1, view (serve r s).2) = seen r (view s))
    (p : Prog Req Resp α) (s : σ) :
    ((p.eval serve s).1, view (p.eval serve s).2) = p.eval seen (view s) := by
  induction p generalizing s with
  | ret value => rfl
  | call r next ih =>
    have hrest := ih (serve r s).1 (serve r s).2
    have hfirst := hview r s
    rw [Prog.eval_call, Prog.eval_call, ← hfirst]
    exact hrest

variable [DecidableEq ι] {sys : System ι J Req Resp σ Fault E α} {st st' : State ι Req Resp σ α}

/-- The state after a worker has acted. -/
def State.entry (st : State ι Req Resp σ α) (w : ι) (s : σ)
    (activity : Option (Activity Req Resp α)) : State ι Req Resp σ α :=
  ⟨s, Function.update st.running w activity⟩

@[simp] theorem State.shared_entry (st : State ι Req Resp σ α) (w : ι) (s : σ)
    (activity : Option (Activity Req Resp α)) : (st.entry w s activity).shared = s := rfl

@[simp] theorem State.running_entry (st : State ι Req Resp σ α) (w : ι) (s : σ)
    (activity : Option (Activity Req Resp α)) : (st.entry w s activity).running w = activity := by
  simp only [State.entry, Function.update_self]

theorem State.entry_self (st : State ι Req Resp σ α) (w : ι) :
    st.entry w st.shared (st.running w) = st := by
  rw [State.entry, Function.update_eq_self]

theorem State.entry_entry (st : State ι Req Resp σ α) (w : ι) (s t : σ)
    (first last : Option (Activity Req Resp α)) :
    (st.entry w s first).entry w t last = st.entry w t last := by
  rw [State.entry, State.entry, State.entry, Function.update_idem]

/-- The pending requests of a worker can be served until its program returns. -/
theorem System.run_requests (fault : Fault) {w : ι} {seen : Record Req Resp}
    {p : Prog Req Resp α} (hw : st.running w = some ⟨seen, p⟩) :
    ∃ n seen', sys.run st (List.replicate n (.serve w fault)) =
      some (st.entry w (p.eval (sys.serve w fault) st.shared).2
        (some ⟨seen', .ret (p.eval (sys.serve w fault) st.shared).1⟩)) := by
  induction p generalizing st seen with
  | ret value =>
    refine ⟨0, seen, ?_⟩
    rw [Prog.eval_ret, ← hw, State.entry_self]
    rfl
  | call r next ih =>
    have hstep : sys.step st (.serve w fault) = some (st.entry w (sys.serve w fault r st.shared).2
        (some ⟨seen ++ [⟨r, (sys.serve w fault r st.shared).1⟩],
          next (sys.serve w fault r st.shared).1⟩)) := by
      simp only [System.step, hw]
      rfl
    obtain ⟨n, seen', hrun⟩ := ih (sys.serve w fault r st.shared).1 (st.running_entry w _ _)
    refine ⟨n + 1, seen', ?_⟩
    rw [List.replicate_succ, System.run, hstep, Option.bind_some, hrun, State.entry_entry,
      Prog.eval_call]
    rfl

/-- A worker that is started alone returns what its program evaluates to. -/
theorem System.run_alone (fault : Fault) {w : ι} {j : J} {s t : σ} (hfree : st.running w = none)
    (hstart : sys.onStart w j st.shared = some s)
    (hfinish : sys.onFinish w ((sys.program w j).eval (sys.serve w fault) s).1
      ((sys.program w j).eval (sys.serve w fault) s).2 = some t) :
    ∃ n, sys.run st (.start w j :: List.replicate n (.serve w fault) ++ [.finish w]) =
      some ⟨t, st.running⟩ := by
  have hstarted : sys.step st (.start w j) =
      some (st.entry w s (some ⟨[], sys.program w j⟩)) := by
    simp only [System.step, hfree, hstart, Option.map_some]
    rfl
  obtain ⟨n, seen, hrun⟩ :=
    System.run_requests fault (st.running_entry w s (some ⟨[], sys.program w j⟩))
  rw [State.entry_entry, State.shared_entry] at hrun
  generalize (sys.program w j).eval (sys.serve w fault) s = result at hrun hfinish
  -- removing the returned program leaves the workers as they were
  have hrest : Function.update (st.entry w result.2 (some ⟨seen, .ret result.1⟩)).running w none =
      st.running := by
    rw [State.entry, Function.update_idem, ← hfree, Function.update_eq_self]
  have hreturned : sys.step (st.entry w result.2 (some ⟨seen, .ret result.1⟩)) (.finish w) =
      some ⟨t, st.running⟩ := by
    simp only [System.step, State.running_entry, State.shared_entry, hfinish, Option.map_some, hrest]
  refine ⟨n, ?_⟩
  rw [List.cons_append, System.run, hstarted, Option.bind_some, System.run_append, hrun,
    Option.bind_some, System.run, hreturned]
  rfl

/-- A worker whose requests have been served one after the other, and that has returned, has
evaluated its program. -/
theorem System.eval_of_requests {fault : Fault} {w : ι} {n : ℕ} {seen last : Record Req Resp}
    {p : Prog Req Resp α} {value : α} (hw : st.running w = some ⟨seen, p⟩)
    (hrun : sys.run st (List.replicate n (.serve w fault)) = some st')
    (hreturned : st'.running w = some ⟨last, .ret value⟩) :
    p.eval (sys.serve w fault) st.shared = (value, st'.shared) := by
  induction n generalizing st seen p with
  | zero =>
    cases hrun
    cases hw.symm.trans hreturned
    rfl
  | succ n ih =>
    rw [List.replicate_succ] at hrun
    obtain ⟨mid, hstep, hrest⟩ := Option.bind_eq_some_iff.mp hrun
    cases System.taken_of_step hstep with
    | serve pending =>
      cases hw.symm.trans pending
      rw [Prog.eval_call]
      exact ih (Function.update_self _ _ _) hrest

end K8StorageX.WorkerPool
