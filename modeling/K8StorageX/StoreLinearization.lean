import K8StorageX.OptimisticStore

/-!
# Linearization of optimistic updates

The invariant says that the stored object is the replay of the recorded
changes. A client that has read the object relies on the version: as long as
it is the one it read, neither the object nor the record has changed, so its
write appends exactly the change it computed.
-/

namespace K8StorageX.OptimisticStore

open ApiProgram WorkerPool

variable {Obj Call Edit ρ : Type} {spec : Spec Obj Call Edit ρ} {init : Option Obj} {start : Instant}
variable {s t : Server Obj Call Edit}

/-- What every change preserves, a replay preserves. -/
theorem replay_preserves {P : Option Obj → Prop}
    (hstep : ∀ object (change : Change Call Edit), P object → P (change.apply spec object))
    (history : List (Change Call Edit)) {object : Option Obj} (h : P object) :
    P (replay spec object history) := by
  induction history generalizing object with
  | nil => exact h
  | cons change history ih => exact ih (hstep object change h)

/-- What every change preserves at its own time and what time does not destroy,
a replay at non-decreasing times preserves. -/
theorem replay_preserves_timed {P : Instant → Option Obj → Prop}
    (hlater : ∀ t u object, t ≤ u → P t object → P u object)
    (hstep : ∀ t object (change : Change Call Edit), (∀ u ∈ change.time?, u = t) →
      P t object → P t (change.apply spec object))
    (history : List (Change Call Edit)) (hordered : (times history).Pairwise (· ≤ ·))
    {now : Instant} (hnow : ∀ u ∈ times history, start ≤ u ∧ u ≤ now) (hle : start ≤ now)
    {object : Option Obj} (h : P start object) : P now (replay spec object history) := by
  induction history generalizing start object with
  | nil => exact hlater start now object hle h
  | cons change history ih =>
    cases htime : change.time? with
    | none =>
      have hskip : times (change :: history) = times history := by simp [times, htime]
      rw [hskip] at hordered hnow
      exact ih hordered hnow hle (hstep start object change (by simp [htime]) h)
    | some t =>
      have hcons : times (change :: history) = t :: times history := by simp [times, htime]
      rw [hcons] at hordered hnow
      have hlate : ∀ u ∈ times history, t ≤ u := (List.pairwise_cons.mp hordered).1
      have hbound : start ≤ t ∧ t ≤ now := hnow t List.mem_cons_self
      have hat : P t object := hlater start t object hbound.1 h
      refine ih (List.pairwise_cons.mp hordered).2 ?_ hbound.2 (hstep t object change ?_ hat)
      · intro u hu
        exact ⟨hlate u hu, (hnow u (List.mem_cons_of_mem t hu)).2⟩
      · intro u hu
        rw [htime, Option.mem_some_iff] at hu
        exact hu.symm

/-- What every change of two objects preserves, replaying the same changes on both preserves. -/
theorem replay_rel {Obj' ρ' : Type} {spec' : Spec Obj' Call Edit ρ'} {R : Obj' → Obj → Prop}
    (hnew : ∀ edit, R (spec'.newObject edit) (spec.newObject edit))
    (hedit : ∀ edit value' value, R value' value → R (spec'.edit edit value') (spec.edit edit value))
    (hmodify : ∀ call now value' value, R value' value →
      R (spec'.modify call now value').1 (spec.modify call now value).1)
    (history : List (Change Call Edit)) {object' : Option Obj'} {object : Option Obj}
    (h : Option.Rel R object' object) :
    Option.Rel R (replay spec' object' history) (replay spec object history) := by
  induction history generalizing object' object with
  | nil => exact h
  | cons change history ih =>
    refine ih ?_
    cases h with
    | none =>
      cases change with
      | created edit => exact .some (hnew edit)
      | edited edit => exact .none
      | applied client call now => exact .none
    | @some value' value h =>
      cases change with
      | created edit => exact .some h
      | edited edit => exact .some (hedit edit value' value h)
      | applied client call now => exact .some (hmodify call now value' value h)

/-- The record explains the stored object. -/
structure Inv (spec : Spec Obj Call Edit ρ) (init : Option Obj) (start : Instant)
    (s : Server Obj Call Edit) : Prop where
  /-- The object is the replay of all changes. -/
  replayed : s.object.map (·.value) = replay spec init s.history
  /-- Versions in use have been handed out. -/
  bounded : ∀ o, s.object = some o → o.version ≤ s.revision
  /-- No call is applied twice. -/
  once : (order s.history).Nodup
  /-- Updates belong to the calls that were made. -/
  called : ∀ i call now, Change.applied i call now ∈ s.history → s.calls i = some call
  /-- Updates are computed at non-decreasing times. -/
  ordered : (times s.history).Pairwise (· ≤ ·)
  /-- Updates are computed after the start and before now. -/
  elapsed : ∀ u ∈ times s.history, start ≤ u ∧ u ≤ s.clock
  /-- Time does not run backwards. -/
  started : start ≤ s.clock

/-- What a client tolerates from the others. -/
structure Rely (i : ℕ) (s t : Server Obj Call Edit) : Prop where
  /-- The call stays the same. -/
  calls : t.calls i = s.calls i
  /-- The last clock reading stays the same. -/
  readAt : t.readAt i = s.readAt i
  /-- Changes by others are appended to the record. -/
  grows : ∃ suf, t.history = s.history ++ suf ∧ i ∉ order suf
  /-- Versions only grow. -/
  revision : s.revision ≤ t.revision
  /-- An object under an old version has not been changed. -/
  unchanged : ∀ o, t.object = some o → o.version ≤ s.revision →
    s.object = some o ∧ t.history = s.history
  /-- Instant passes. -/
  clock : s.clock ≤ t.clock

theorem Rely.refl (i : ℕ) (s : Server Obj Call Edit) : Rely i s s :=
  ⟨rfl, rfl, ⟨[], by simp [order]⟩, le_rfl, fun _ h _ => ⟨h, rfl⟩, le_rfl⟩

theorem Rely.trans {i : ℕ} {u : Server Obj Call Edit} (h : Rely i s t) (k : Rely i t u) :
    Rely i s u := by
  obtain ⟨suf, hs, hn⟩ := h.grows
  obtain ⟨suf', hs', hn'⟩ := k.grows
  refine ⟨k.calls.trans h.calls, k.readAt.trans h.readAt, ⟨suf ++ suf', ?_, ?_⟩,
    h.revision.trans k.revision, ?_, h.clock.trans k.clock⟩
  · rw [hs', hs, List.append_assoc]
  · simpa only [order, List.filterMap_append, List.mem_append, not_or] using ⟨hn, hn'⟩
  · intro o ho hv
    obtain ⟨ht, hh⟩ := k.unchanged o ho (hv.trans h.revision)
    obtain ⟨hs, hh'⟩ := h.unchanged o ht hv
    exact ⟨hs, hh.trans hh'⟩

theorem order_append_singleton (history : List (Change Call Edit)) (change : Change Call Edit) :
    order (history ++ [change]) = order history ++ change.client?.toList := by
  cases change <;> simp [order, Change.client?]

theorem times_append_singleton (history : List (Change Call Edit)) (change : Change Call Edit) :
    times (history ++ [change]) = times history ++ change.time?.toList := by
  cases change <;> simp [times, Change.time?]

/-- A write is tolerated by everybody whose update it is not. -/
theorem Rely.write {i : ℕ} (value : Obj) {change : Change Call Edit}
    (h : change.client? ≠ some i) : Rely i s (s.write value change) := by
  refine ⟨rfl, rfl, ⟨[change], rfl, ?_⟩, Nat.le_succ _, ?_, le_rfl⟩
  · rw [← List.nil_append [change], order_append_singleton]
    simpa [order, Option.mem_toList] using h
  · rintro o ho hv
    cases ho
    exact absurd hv (Nat.not_succ_le_self _)

/-- A write that matches its recorded change keeps the invariant. -/
theorem Inv.write (h : Inv spec init start s) {value : Obj} {change : Change Call Edit}
    (happly : change.apply spec (s.object.map (·.value)) = some value)
    (honce : ∀ i ∈ change.client?, i ∉ order s.history)
    (hcall : ∀ i call now, change = .applied i call now → s.calls i = some call)
    (htime : ∀ u ∈ change.time?, (∀ v ∈ times s.history, v ≤ u) ∧ start ≤ u ∧ u ≤ s.clock) :
    Inv spec init start (s.write value change) where
  replayed := by
    have hvalue : (s.write value change).object.map (·.value) = some value := rfl
    rw [hvalue, Server.write, replay_append, ← happly, h.replayed]
    rfl
  bounded := by
    rintro o ho
    cases ho
    exact le_rfl
  once := by
    simp only [Server.write, order_append_singleton]
    refine List.nodup_append.mpr ⟨h.once, ?_, ?_⟩
    · cases change.client? <;> simp
    · intro i hi j hj hij
      exact honce j (Option.mem_toList.mp hj) (hij ▸ hi)
  called := by
    intro i call now hm
    rcases List.mem_append.mp hm with hm | hm
    · exact h.called i call now hm
    · exact hcall i call now (List.mem_singleton.mp hm).symm
  ordered := by
    simp only [Server.write, times_append_singleton]
    refine List.pairwise_append.mpr ⟨h.ordered, ?_, ?_⟩
    · cases change.time? <;> simp
    · intro u hu v hv
      exact (htime v (Option.mem_toList.mp hv)).1 u hu
  elapsed := by
    intro u hu
    simp only [Server.write, times_append_singleton, List.mem_append] at hu
    rcases hu with hu | hu
    · exact h.elapsed u hu
    · exact (htime u (Option.mem_toList.mp hu)).2
  started := h.started

/-- What a call has stored: its change is recorded, and the result is the one
computed from the object as it was just before. -/
def Stored (spec : Spec Obj Call Edit ρ) (init : Option Obj) (s : Server Obj Call Edit) (i : ℕ)
    (call : Call) (now : Instant) (value : Obj) (result : ρ) : Prop :=
  ∃ pre suf, s.history = pre ++ Change.applied i call now :: suf ∧
    replay spec init pre = some value ∧ (spec.modify call now value).2 = result

/-- What a call has achieved when it returns: without an error its update is
stored, with an error it is not. -/
def Returned (spec : Spec Obj Call Edit ρ) (init : Option Obj) (i : ℕ) (call : Call)
    (result : ρ × Option ApiError) (s : Server Obj Call Edit) : Prop :=
  s.calls i = some call ∧
    match result.2 with
    | none => ∃ now value, Stored spec init s i call now value result.1
    | some _ => i ∉ order s.history

theorem Stored.stable {i : ℕ} {call : Call} {now : Instant} {value : Obj} {result : ρ} {j : ℕ}
    (h : Stored spec init s i call now value result) (hr : Rely j s t) :
    Stored spec init t i call now value result := by
  obtain ⟨pre, suf, hs, hv, hresult⟩ := h
  obtain ⟨ext, ht, -⟩ := hr.grows
  refine ⟨pre, suf ++ ext, ?_, hv, hresult⟩
  rw [ht, hs, List.append_assoc, List.cons_append]

/-- The rely-guarantee discipline of the store. -/
def discipline (spec : Spec Obj Call Edit ρ) (retries : ℕ) (init : Option Obj) (start : Instant) :
    Discipline (system spec retries) where
  inv := Inv spec init start
  rely := Rely
  guarantee i _ _ _ s t := i ∉ order s.history ∧ ∀ j, j ≠ i → Rely j s t
  post i _ result s := ∃ call, Returned spec init i call result s
  rely_refl := Rely.refl
  rely_trans _ _ _ _ := Rely.trans

/-- Knowledge of a client that has not written yet. -/
structure Pending (i : ℕ) (call : Call) (s : Server Obj Call Edit) : Prop where
  /-- No update of the client is stored. -/
  pending : i ∉ order s.history
  /-- The call of the client. -/
  called : s.calls i = some call

theorem Pending.stable {i : ℕ} {call : Call} (h : Pending i call s) (hr : Rely i s t) :
    Pending i call t := by
  obtain ⟨suf, hs, hn⟩ := hr.grows
  refine ⟨?_, hr.calls.trans h.called⟩
  rw [hs, order, List.filterMap_append, List.mem_append]
  rintro (hm | hm)
  · exact h.pending hm
  · exact hn hm

/-- What a call has achieved is not undone by the others. -/
theorem Returned.stable {i : ℕ} {call : Call} {result : ρ × Option ApiError}
    (h : Returned spec init i call result s) (hr : Rely i s t) :
    Returned spec init i call result t := by
  obtain ⟨captured, err⟩ := result
  cases err with
  | some e =>
    have hp : Pending i call t := Pending.stable ⟨h.2, h.1⟩ hr
    exact ⟨hp.called, hp.pending⟩
  | none =>
    obtain ⟨hcall, now, value, hstored⟩ := h
    exact ⟨hr.calls.trans hcall, now, value, hstored.stable hr⟩

/-- Knowledge of a client about to write: it has not written yet, and as long
as the version is the one it read nothing has changed. -/
structure Reading (i : ℕ) (call : Call) (read : Versioned Obj)
    (history : List (Change Call Edit)) (s : Server Obj Call Edit) : Prop
    extends Pending i call s where
  /-- The version read has been handed out. -/
  known : read.version ≤ s.revision
  /-- The version identifies the object and the record. -/
  current : ∀ o, s.object = some o → o.version = read.version → o = read ∧ s.history = history
  /-- Recorded updates are in the past. -/
  past : ∀ u ∈ times history, u ≤ s.clock

theorem Reading.stable {i : ℕ} {call : Call} {read : Versioned Obj}
    {history : List (Change Call Edit)} (h : Reading i call read history s) (hr : Rely i s t) :
    Reading i call read history t where
  toPending := h.toPending.stable hr
  known := h.known.trans hr.revision
  current := by
    intro o ho hv
    obtain ⟨hs, hh⟩ := hr.unchanged o ho (hv ▸ h.known)
    obtain ⟨heq, hh'⟩ := h.current o hs hv
    exact ⟨heq, hh.trans hh'⟩
  past := fun u hu => (h.past u hu).trans hr.clock

/-- The contract of one client. -/
abbrev contract (spec : Spec Obj Call Edit ρ) (retries : ℕ) (init : Option Obj) (start : Instant)
    (i : ℕ) : Contract (Req Obj) (Resp Obj) (Server Obj Call Edit) (Option ApiError) :=
  (discipline spec retries init start).contract i

/-- Returning an error is fine for a client that has not written. -/
theorem wp_ret_error (retries : ℕ) {i : ℕ} {call : Call} {captured : ρ} {e : ApiError}
    {seen : Record (Req Obj) (Resp Obj)} (h : Pending i call s) :
    Wp (contract spec retries init start i) (fun _ => Returned spec init i call)
      (.ret (captured, some e)) seen s :=
  fun _ hr _ => ⟨(h.stable hr).called, (h.stable hr).pending⟩

/-- A clock reading changes nothing the other clients look at. -/
theorem Rely.readClock {i j : ℕ} (h : j ≠ i) :
    Rely j s { s with readAt := Function.update s.readAt i s.clock } :=
  ⟨rfl, Function.update_of_ne h _ _, ⟨[], by simp [order]⟩, le_rfl, fun _ h _ => ⟨h, rfl⟩, le_rfl⟩

theorem Inv.readClock (h : Inv spec init start s) (readAt : ℕ → Instant) :
    Inv spec init start { s with readAt := readAt } :=
  ⟨h.replayed, h.bounded, h.once, h.called, h.ordered, h.elapsed, h.started⟩

theorem Reading.readClock {i : ℕ} {call : Call} {read : Versioned Obj}
    {history : List (Change Call Edit)} (h : Reading i call read history s)
    (readAt : ℕ → Instant) : Reading i call read history { s with readAt := readAt } :=
  ⟨⟨h.pending, h.called⟩, h.known, h.current, h.past⟩

/-- A successful write of a client that relies on the version it read. -/
theorem wp_write (retries : ℕ) {i : ℕ} {call : Call} {read : Versioned Obj} {now : Instant}
    {history : List (Change Call Edit)} {seen : Record (Req Obj) (Resp Obj)}
    (h : Reading i call read history s) (hi : Inv spec init start s) (hnow : s.readAt i = now)
    (hpast : ∀ u ∈ times history, u ≤ now) (hclock : start ≤ now ∧ now ≤ s.clock)
    (hobject : s.object = some read) :
    let written := s.write (spec.merge read.value (spec.modify call now read.value).1)
      (.applied i call (s.readAt i))
    Inv spec init start written ∧ (∀ j, j ≠ i → Rely j s written) ∧
      Wp (contract spec retries init start i) (fun _ => Returned spec init i call)
        (.ret ((spec.modify call now read.value).2, none)) seen written := by
  intro written
  obtain ⟨-, hhistory⟩ := h.current read hobject rfl
  have hvalue : replay spec init s.history = some read.value := by
    rw [← hi.replayed, hobject]
    rfl
  have hinv : Inv spec init start written := by
    apply hi.write
    · rw [hobject, spec.merge_modify, hnow]
      rfl
    · intro j hj
      cases hj
      exact h.pending
    · intro j call' now' hc
      cases hc
      exact h.called
    · intro u hu
      cases hu
      rw [hnow, hhistory]
      exact ⟨hpast, hclock⟩
  refine ⟨hinv, fun j hj => Rely.write _ (by simpa [Change.client?] using hj.symm), ?_⟩
  intro t hr _
  obtain ⟨suf, hsuf, -⟩ := hr.grows
  refine ⟨hr.calls.trans h.called, now, read.value, s.history, suf, ?_, hvalue, rfl⟩
  rw [hsuf, ← hnow]
  exact List.append_assoc _ _ _

/-- Computing and writing back what was read is safe. -/
theorem wp_store (retries : ℕ) {i : ℕ} {call : Call} {read : Versioned Obj}
    {history : List (Change Call Edit)} {seen : Record (Req Obj) (Resp Obj)}
    (h : Reading i call read history s) :
    Wp (contract spec retries init start i) (fun _ => Returned spec init i call)
      (store spec call read) seen s := by
  intro t hr hi _ _
  have ht := h.stable hr
  refine ⟨hi.readClock _, ⟨ht.pending, fun j hj => Rely.readClock hj⟩, ?_⟩
  intro u hru hiu fault _
  have hu := (ht.readClock (Function.update t.readAt i t.clock)).stable hru
  have hnow : u.readAt i = t.clock := hru.readAt.trans (Function.update_self _ _ _)
  have hkeep : Inv spec init start u ∧ i ∉ order u.history ∧ ∀ j, j ≠ i → Rely j u u :=
    ⟨hiu, hu.pending, fun j _ => Rely.refl j u⟩
  cases fault with
  | some e => exact ⟨hkeep.1, hkeep.2, wp_ret_error retries hu.toPending⟩
  | none =>
    cases hobject : u.object with
    | none =>
      simp only [contract, Discipline.contract, system, serve, Cell.serve, Server.recorded, hobject]
      exact ⟨hkeep.1, hkeep.2, wp_ret_error retries hu.toPending⟩
    | some stored =>
      by_cases hv : stored.version = read.version
      · obtain ⟨rfl, -⟩ := hu.current stored hobject hv
        obtain ⟨hinv, hrely, hpost⟩ := wp_write retries hu hiu hnow ht.past
          ⟨hi.started, hru.clock⟩ hobject
        simp only [contract, Discipline.contract, system, serve, Cell.serve, Server.recorded,
          hobject, hu.called, if_true]
        exact ⟨hinv, ⟨hu.pending, hrely⟩, hpost⟩
      · simp only [contract, Discipline.contract, system, serve, Cell.serve, Server.recorded,
          hobject, if_neg hv]
        exact ⟨hkeep.1, hkeep.2, wp_ret_error retries hu.toPending⟩

/-- What a client knows after reading the object. -/
theorem Pending.reading {i : ℕ} {call : Call} (h : Pending i call s) (hi : Inv spec init start s)
    {read : Versioned Obj} (hread : s.object = some read) :
    Reading i call read s.history s where
  toPending := h
  known := hi.bounded read hread
  current := by
    intro o ho _
    rw [ho] at hread
    exact ⟨Option.some.inj hread, rfl⟩
  past := fun u hu => (hi.elapsed u hu).2

/-- Reading the object leads to a write or to a failure that changes nothing. -/
theorem wp_get {retries i : ℕ} {call : Call} {seen : Record (Req Obj) (Resp Obj)}
    {next : Except ApiError (Versioned Obj) → Prog (Req Obj) (Resp Obj) (ρ × Option ApiError)}
    (h : Pending i call s) (hok : ∀ read, next (.ok read) = store spec call read)
    (herror : ∀ e t seen, Pending i call t → Wp (contract spec retries init start i)
      (fun _ => Returned spec init i call) (next (.error e)) seen t) :
    Wp (contract spec retries init start i) (fun _ => Returned spec init i call)
      (.call Req.get next) seen s := by
  intro t hr hi fault _
  have ht := h.stable hr
  have hkeep : i ∉ order t.history ∧ ∀ j, j ≠ i → Rely j t t :=
    ⟨ht.pending, fun j _ => Rely.refl j t⟩
  cases fault with
  | some e => exact ⟨hi, hkeep, herror _ _ _ ht⟩
  | none =>
    cases hobject : t.object with
    | none =>
      simp only [contract, Discipline.contract, system, serve, Cell.serve, Server.recorded, hobject]
      exact ⟨hi, hkeep, herror _ _ _ ht⟩
    | some read =>
      simp only [contract, Discipline.contract, system, serve, Cell.serve, Server.recorded, hobject]
      refine ⟨hi, hkeep, ?_⟩
      rw [hok]
      exact wp_store retries (ht.reading hi hobject)

theorem wp_reload (retries : ℕ) {i : ℕ} {call : Call} {captured : ρ}
    {seen : Record (Req Obj) (Resp Obj)} (h : Pending i call s) :
    Wp (contract spec retries init start i) (fun _ => Returned spec init i call)
      (attempt.reload spec call captured) seen s :=
  wp_get h (fun _ => rfl) fun _ _ _ ht => wp_ret_error retries ht

/-- One attempt is safe, including the race to create a missing object. -/
theorem wp_attempt (retries : ℕ) {i : ℕ} {call : Call} {captured : ρ}
    {seen : Record (Req Obj) (Resp Obj)} (h : Pending i call s) :
    Wp (contract spec retries init start i) (fun _ => Returned spec init i call)
      (attempt spec call captured) seen s := by
  simp only [attempt, Prog.request_bind, Prog.pure_eq]
  refine wp_get h (fun _ => rfl) ?_
  intro e t seen ht
  dsimp only
  split
  · exact wp_ret_error retries ht
  · intro u hr hi fault _
    have hu := ht.stable hr
    have hkeep : i ∉ order u.history ∧ ∀ j, j ≠ i → Rely j u u :=
      ⟨hu.pending, fun j _ => Rely.refl j u⟩
    cases fault with
    | some e =>
      refine ⟨hi, hkeep, ?_⟩
      simp only [contract, Discipline.contract, system, serve, Cell.serve, Server.recorded]
      split
      · exact wp_reload retries hu
      · exact wp_ret_error retries hu
    | none =>
      cases hobject : u.object with
      | some stored =>
        simp only [contract, Discipline.contract, system, serve, Cell.serve, Server.recorded, hobject]
        exact ⟨hi, hkeep, wp_reload retries hu⟩
      | none =>
        simp only [contract, Discipline.contract, system, serve, Cell.serve, Server.recorded, hobject]
        have hinv : Inv spec init start (u.write (spec.newObject none) (.created none)) := by
          refine hi.write ?_ (by simp [Change.client?]) (by simp) (by simp [Change.time?])
          rw [hobject]
          rfl
        have hown : Rely i u (u.write (spec.newObject none) (.created none)) :=
          Rely.write _ (by simp [Change.client?])
        refine ⟨hinv, ⟨hu.pending, fun j _ => Rely.write _ (by simp [Change.client?])⟩, ?_⟩
        exact wp_reload retries (hu.stable hown)

/-- All attempts of a call together are safe. -/
theorem wp_retryOnConflict (retries : ℕ) {i : ℕ} {call : Call} (n : ℕ) (captured : ρ)
    {seen : Record (Req Obj) (Resp Obj)} (h : Pending i call s) :
    Wp (contract spec retries init start i) (fun _ => Returned spec init i call)
      (retryOnConflict spec call n captured) seen s := by
  induction n generalizing captured seen s with
  | zero => exact wp_attempt retries h
  | succ n ih =>
    refine Wp.bind ((wp_attempt retries h).mono ?_)
    intro seen result t _ hresult
    split
    · rename_i hconflict
      simp only [Returned, hconflict] at hresult
      exact ih _ ⟨hresult.2, hresult.1⟩
    · exact fun u hr _ => hresult.stable hr

/-- Steps of the other parties keep the invariant and are tolerated. -/
theorem env_respected {e : Env Edit} (hi : Inv spec init start s) (h : env spec e s = some t) :
    Inv spec init start t ∧ ∀ i, Rely i s t := by
  cases e with
  | tick duration =>
    cases h
    have hle : s.clock ≤ s.clock + duration := Int.le_add_of_nonneg_right (Int.natCast_nonneg _)
    refine ⟨⟨hi.replayed, hi.bounded, hi.once, hi.called, hi.ordered, ?_, hi.started.trans hle⟩, ?_⟩
    · exact fun u hu => ⟨(hi.elapsed u hu).1, (hi.elapsed u hu).2.trans hle⟩
    · exact fun i => ⟨rfl, rfl, ⟨[], by simp [order, Env.recorded]⟩, le_rfl,
        fun _ h _ => ⟨h, rfl⟩, hle⟩
  | create edit =>
    cases hobject : s.object with
    | some stored => simp only [env, Cell.env, hobject, Option.map_none, reduceCtorEq] at h
    | none =>
      simp only [env, Cell.env, hobject, Option.map_some, Option.some.injEq] at h
      subst h
      refine ⟨?_, fun i => Rely.write _ (by simp [Change.client?])⟩
      refine hi.write ?_ (by simp [Change.client?]) (by simp) (by simp [Change.time?])
      rw [hobject]
      rfl
  | edit edit =>
    simp only [env, Cell.env, Option.map_map, Option.map_eq_some_iff] at h
    obtain ⟨stored, hobject, rfl⟩ := h
    refine ⟨?_, fun i => Rely.write _ (by simp [Change.client?])⟩
    refine hi.write ?_ (by simp [Change.client?]) (by simp) (by simp [Change.time?])
    rw [hobject]
    rfl

/-- A client that makes its call has not written yet, and nobody else notices. -/
theorem start_respected {i : ℕ} (call : Call) (hi : Inv spec init start s) (hc : s.calls i = none) :
    let started := { s with calls := Function.update s.calls i (some call) }
    Inv spec init start started ∧ (∀ j, j ≠ i → Rely j s started) ∧ Pending i call started := by
  intro started
  have hpending : i ∉ order s.history := by
    intro hm
    obtain ⟨change, hchange, hclient⟩ := List.mem_filterMap.mp hm
    cases change with
    | applied j call' now =>
      cases hclient
      rw [hi.called i call' now hchange] at hc
      contradiction
    | created value => contradiction
    | edited edit => contradiction
  refine ⟨⟨hi.replayed, hi.bounded, hi.once, ?_, hi.ordered, hi.elapsed, hi.started⟩, ?_,
    hpending, Function.update_self _ _ _⟩
  · intro j call' now hm
    by_cases hj : j = i
    · subst hj
      rw [hi.called j call' now hm] at hc
      contradiction
    · exact (Function.update_of_ne hj _ _).trans (hi.called j call' now hm)
  · intro j hj
    exact ⟨Function.update_of_ne hj _ _, rfl, ⟨[], by simp [started, order]⟩, le_rfl,
      fun _ h _ => ⟨h, rfl⟩, le_rfl⟩

/-- All parties of the store respect the discipline. -/
theorem discipline_respected (spec : Spec Obj Call Edit ρ) (retries : ℕ) (init : Option Obj)
    (start : Instant) : (discipline spec retries init start).Respected where
  start := by
    intro i call s t hi _ h
    cases hc : s.calls i with
    | some call' => simp only [system, hc, reduceCtorEq] at h
    | none =>
      simp only [system, hc, Option.some.injEq] at h
      subst h
      obtain ⟨hinv, hrely, hpending⟩ := start_respected call hi hc
      refine ⟨hinv, hrely, (wp_retryOnConflict retries retries _ hpending).mono ?_⟩
      exact fun _ _ _ _ hreturned => ⟨call, hreturned⟩
  env := fun hi _ h => env_respected hi h
  finish := by
    intro w seen value s t _ _ h
    simp only [system, reduceCtorEq] at h
  crash := by
    intro s t _ h
    simp only [system, reduceCtorEq] at h
  compatible := fun _ _ h hne => h.2 _ hne

/-- The discipline is about all steps. -/
theorem discipline_admits (spec : Spec Obj Call Edit ρ) (retries : ℕ) (init : Option Obj)
    (start : Instant)
    (st : State ℕ (Req Obj) (Resp Obj) (Server Obj Call Edit) (ρ × Option ApiError))
    (e : Event ℕ Call (Option ApiError) (Env Edit)) :
    (discipline spec retries init start).Admits st e := by
  cases e with
  | start w j => exact trivial
  | serve w fault => exact fun _ _ _ _ => trivial
  | finish w => exact trivial
  | crash => exact trivial
  | env e => exact trivial

/-- The store before any call satisfies the invariant. -/
theorem inv_initial (spec : Spec Obj Call Edit ρ) (init : Option Obj) (start : Instant) :
    Inv spec init start (Server.initial init start) where
  replayed := by cases init <;> rfl
  bounded := by
    intro o ho
    cases init with
    | none => contradiction
    | some value =>
      cases ho
      exact le_rfl
  once := List.nodup_nil
  called := by
    intro i call now hm
    contradiction
  ordered := List.Pairwise.nil
  elapsed := by
    intro u hu
    contradiction
  started := le_rfl

section Runs

variable {retries : ℕ} {st st' : State ℕ (Req Obj) (Resp Obj) (Server Obj Call Edit) (ρ × Option ApiError)}

/-- Every state a run of calls reaches is safe. -/
theorem reachable_safe
    (h : (system spec retries).Reachable (idle (Server.initial init start)) st) :
    (discipline spec retries init start).Safe st :=
  Discipline.reachable_safe (discipline_respected spec retries init start)
    (discipline_admits spec retries init start) (inv_initial spec init start) h

/-- No program is ever removed from the pool of calls. -/
theorem step_worker_running {e : Event ℕ Call (Option ApiError) (Env Edit)} {i : ℕ}
    (h : (system spec retries).step st e = some st') (hi : e.worker? = some i) :
    st'.running i ≠ none := by
  cases System.taken_of_step h with
  | start =>
    cases hi
    simp
  | serve =>
    cases hi
    simp
  | finish _ hook => cases hook
  | crash => cases hi
  | env => cases hi

theorem step_ne_crash {e : Event ℕ Call (Option ApiError) (Env Edit)}
    (h : (system spec retries).step st e = some st') : e ≠ .crash := by
  intro he
  simp [he, System.step, system] at h

/-- A client that has made its call keeps its program, running or returned. -/
theorem run_called {es : List (Event ℕ Call (Option ApiError) (Env Edit))}
    (hs : (discipline spec retries init start).Safe st)
    (hcalled : ∀ i, st.shared.calls i ≠ none → st.running i ≠ none)
    (h : (system spec retries).run st es = some st') :
    ∀ i, st'.shared.calls i ≠ none → st'.running i ≠ none := by
  have hd := discipline_respected spec retries init start
  have hadmits := discipline_admits spec retries init start
  refine Discipline.run_keeps hd (fun _ _ h => h) (System.runWhere_of_run hadmits h)
    (fun st => ∀ i, st.shared.calls i ≠ none → st.running i ≠ none) ?_ hs hcalled
  intro mid e next hsafe hadmit hstep hmid i hi
  by_cases hw : e.worker? = some i
  · exact step_worker_running hstep hw
  · obtain ⟨hrely, hkeep⟩ :=
      Discipline.step_frame hd hsafe hadmit hstep hw (step_ne_crash hstep)
    rw [hkeep]
    exact hmid i (fun hnone => hi (hrely.calls.trans hnone))

/-- The record of changes only grows along a run. -/
theorem run_history {es : List (Event ℕ Call (Option ApiError) (Env Edit))}
    (hs : (discipline spec retries init start).Safe st)
    (h : (system spec retries).run st es = some st') :
    st.shared.history <+: st'.shared.history := by
  have hd := discipline_respected spec retries init start
  have hadmits := discipline_admits spec retries init start
  refine Discipline.run_keeps hd (fun _ _ h => h) (System.runWhere_of_run hadmits h)
    (fun mid => st.shared.history <+: mid.shared.history) ?_ hs (List.prefix_refl _)
  intro mid e next hsafe hadmit hstep hmid
  -- A client that takes no part in the step observes it as a step of others.
  have hfresh : e.worker? ≠ some (e.worker?.getD 0 + 1) := by
    cases e.worker? <;> simp
  obtain ⟨hrely, -⟩ := Discipline.step_frame hd hsafe hadmit hstep hfresh (step_ne_crash hstep)
  obtain ⟨suf, hsuf, -⟩ := hrely.grows
  have hgrown : mid.shared.history <+: next.shared.history := by
    rw [hsuf]
    exact List.prefix_append _ _
  exact hmid.trans hgrown

/-- The calls whose updates are stored are exactly those that returned without
an error. -/
theorem mem_order_iff_returned
    (h : (system spec retries).Reachable (idle (Server.initial init start)) st) (i : ℕ) :
    i ∈ order st.shared.history ↔ ∃ seen result, st.running i = some ⟨seen, .ret (result, none)⟩ := by
  have hs := reachable_safe h
  constructor
  · intro hm
    obtain ⟨change, hchange, hclient⟩ := List.mem_filterMap.mp hm
    have hcalled : st.shared.calls i ≠ none := by
      cases change with
      | applied j call now =>
        cases hclient
        rw [hs.1.called i call now hchange]
        simp
      | created value => contradiction
      | edited edit => contradiction
    obtain ⟨es, hrun⟩ := h
    have hrunning := run_called (Discipline.idle_safe (inv_initial spec init start))
      (fun j hj => absurd rfl hj) hrun i hcalled
    cases hw : st.running i with
    | none => exact absurd hw hrunning
    | some activity =>
      obtain ⟨seen, rest⟩ := activity
      cases rest with
      | call r next => exact absurd hm (hs.guarantee hw none trivial).1
      | ret result =>
        obtain ⟨captured, err⟩ := result
        cases err with
        | none => exact ⟨seen, captured, rfl⟩
        | some e =>
          obtain ⟨call, -, hpending⟩ := hs.post hw
          exact absurd hm hpending
  · rintro ⟨seen, result, hw⟩
    obtain ⟨call, -, now, value, pre, suf, hhistory, -, -⟩ := hs.post hw
    rw [hhistory]
    exact List.mem_filterMap.mpr ⟨_, List.mem_append_right _ List.mem_cons_self, rfl⟩

/-- A request changes the object in one of two ways: it creates it or it stores
the update of the client's call. -/
theorem recorded_cases (s : Server Obj Call Edit) (i : ℕ) (r : Req Obj) (response : Resp Obj r) :
    s.recorded i r response = none ∨ s.recorded i r response = some (.created none) ∨
      ∃ call now, s.recorded i r response = some (.applied i call now) := by
  cases r with
  | get => exact Or.inl rfl
  | now => exact Or.inl rfl
  | create =>
    cases response with
    | error e => exact Or.inl rfl
    | ok _ => exact Or.inr (Or.inl rfl)
  | update version value =>
    cases response with
    | error e => exact Or.inl rfl
    | ok _ =>
      cases hcall : s.calls i with
      | none => simp [Server.recorded, hcall]
      | some call => simp [Server.recorded, hcall]

theorem serve_history (spec : Spec Obj Call Edit ρ) (i : ℕ) (fault : Option ApiError)
    (r : Req Obj) (s : Server Obj Call Edit) :
    (serve spec i fault r s).2.history = s.history ∨
      (serve spec i fault r s).2.history = s.history ++ [.created none] ∨
      ∃ call now, (serve spec i fault r s).2.history = s.history ++ [.applied i call now] := by
  rcases recorded_cases s i r (s.toCell.serve spec fault r).1 with h | h | ⟨call, now, h⟩
  · exact Or.inl (by simp only [serve, h])
  · exact Or.inr (Or.inl (by simp only [serve, h]))
  · exact Or.inr (Or.inr ⟨call, now, by simp only [serve, h]⟩)

/-- The update of a client stands in one place of the record. -/
theorem applied_position {i : ℕ} {pre pre' suf suf' : List (Change Call Edit)}
    {call call' : Call} {now now' : Instant}
    (honce : (order (pre ++ Change.applied i call now :: suf)).Nodup)
    (h : pre ++ Change.applied i call now :: suf = pre' ++ Change.applied i call' now' :: suf') :
    pre = pre' := by
  have hapart : ∀ {first last : List (Change Call Edit)} {call : Call} {now : Instant},
      (order (first ++ Change.applied i call now :: last)).Nodup →
      i ∉ order first ∧ i ∉ order last := by
    intro first last call now hnodup
    simp only [order, List.filterMap_append, List.filterMap_cons, Change.client?] at hnodup
    have hparts := List.nodup_append.mp hnodup
    refine ⟨fun hfirst => hparts.2.2 i hfirst i List.mem_cons_self rfl, ?_⟩
    exact (List.nodup_cons.mp hparts.2.1).1
  have hmem : ∀ {first last : List (Change Call Edit)} {call : Call} {now : Instant},
      i ∈ order (first ++ Change.applied i call now :: last) := fun {_ _ _ _} =>
    List.mem_filterMap.mpr ⟨_, List.mem_append_right _ List.mem_cons_self, rfl⟩
  rcases List.append_eq_append_iff.mp h with ⟨mid, rfl, hmid⟩ | ⟨mid, rfl, hmid⟩
  · cases mid with
    | nil => exact (List.append_nil pre).symm
    | cons change mid =>
      obtain ⟨-, hsuf⟩ := List.cons.inj hmid
      rw [hsuf] at honce
      exact absurd hmem (hapart honce).2
  · cases mid with
    | nil => exact List.append_nil pre'
    | cons change mid =>
      obtain ⟨rfl, -⟩ := List.cons.inj hmid
      exact absurd hmem (hapart honce).1

/-- The one update of a client is the last change if the client had none before. -/
theorem applied_eq_last {i : ℕ} {history pre suf : List (Change Call Edit)}
    {call call' : Call} {now now' : Instant} (hn : i ∉ order history)
    (h : history ++ [Change.applied i call now] = pre ++ Change.applied i call' now' :: suf) :
    history = pre ∧ call = call' ∧ now = now' := by
  rcases List.eq_nil_or_concat suf with hsuf | ⟨init, last, hsuf⟩
  · rw [hsuf] at h
    have hlast := List.append_inj' h rfl
    simpa using hlast
  · rw [hsuf, List.concat_eq_append, ← List.cons_append, ← List.append_assoc] at h
    have hinit : history = pre ++ Change.applied i call' now' :: init := (List.append_inj' h rfl).1
    refine absurd ?_ hn
    rw [hinit]
    exact List.mem_filterMap.mpr ⟨_, List.mem_append_right _ List.mem_cons_self, rfl⟩

/-- One request of a client changes nothing, creates the object, or stores the
client's update; in the last case the call has returned the result computed
from the object it replaced. -/
theorem step_change
    (h : (system spec retries).Reachable (idle (Server.initial init start)) st) {i : ℕ}
    {fault : Option ApiError} (hstep : (system spec retries).step st (.serve i fault) = some st') :
    st'.shared.history = st.shared.history ∨
      st'.shared.history = st.shared.history ++ [.created none] ∨
      ∃ call now value seen, st.shared.calls i = some call ∧
        st'.shared.history = st.shared.history ++ [.applied i call now] ∧
        st.shared.object.map (·.value) = some value ∧
        st'.shared.object.map (·.value) = some (spec.modify call now value).1 ∧
        st'.running i = some ⟨seen, .ret ((spec.modify call now value).2, none)⟩ := by
  have hreach := h.step hstep
  have hs := reachable_safe h
  have hs' := reachable_safe hreach
  cases System.taken_of_step hstep with
  | @serve _ _ seen r next hw =>
    have hpending : i ∉ order st.shared.history := (hs.guarantee hw fault trivial).1
    rcases serve_history spec i fault r st.shared with hkeep | hcreated | ⟨call, now, happlied⟩
    · exact Or.inl hkeep
    · exact Or.inr (Or.inl hcreated)
    · have hmem : i ∈ order (serve spec i fault r st.shared).2.history := by
        rw [happlied, order_append_singleton]
        simp [Change.client?]
      obtain ⟨seen', result, hreturned⟩ := (mem_order_iff_returned hreach i).mp hmem
      obtain ⟨call', hcall, now', value, pre, suf, hhistory, hvalue, hresult⟩ := hs'.post hreturned
      have hlast := happlied.symm.trans hhistory
      obtain ⟨rfl, rfl, rfl⟩ := applied_eq_last hpending hlast
      refine Or.inr (Or.inr ⟨call, now, value, seen', hcall, happlied, ?_, ?_, ?_⟩)
      · rw [hs.1.replayed, hvalue]
      · have hreplayed := congrArg (replay spec init) happlied
        rw [replay_append, hvalue] at hreplayed
        exact hs'.1.replayed.trans hreplayed
      · rw [hreturned, hresult]

end Runs

end K8StorageX.OptimisticStore
