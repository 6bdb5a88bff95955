import Mathlib.Logic.Function.Basic
import Mathlib.Tactic.Common

/-!
# Programs that issue requests to a shared service

A program is a finite tree: it has returned, or it waits for the response to
one request. Requests are the only atomic actions; between two of them any
number of other parties may act on the shared state. `Wp` is the weakest
precondition of a program under such interference. It is relative to a rely
relation for the other parties, an invariant of the shared state and a
guarantee that every single request of the program has to meet.
-/

namespace K8StorageX.ApiProgram

/-- An entry of a table after an update is the new one or has been there before. -/
theorem of_update {κ ν : Type} [DecidableEq κ] {table : κ → ν} {updated key : κ} {new value : ν}
    (h : Function.update table updated new key = value) :
    (key = updated ∧ new = value) ∨ (key ≠ updated ∧ table key = value) := by
  by_cases hkey : key = updated
  · subst hkey
    rw [Function.update_self] at h
    exact Or.inl ⟨rfl, h⟩
  · rw [Function.update_of_ne hkey] at h
    exact Or.inr ⟨hkey, h⟩

/-- The kinds of failures a client distinguishes. -/
inductive ApiError where
  /-- The object does not exist. -/
  | notFound
  /-- The object to create exists. -/
  | alreadyExists
  /-- The object has been changed since it was read. -/
  | conflict
  /-- Any other failure with its text. -/
  | other (text : String)
  deriving DecidableEq, Repr

/-- A program over a request signature. Every run is finite because the tree
is inductive; loops of the modelled code are bounded recursions over it. -/
inductive Prog (Req : Type) (Resp : Req → Type) (α : Type) where
  /-- The program has returned. -/
  | ret (value : α)
  /-- The program waits for the response to one request. -/
  | call (request : Req) (next : Resp request → Prog Req Resp α)

namespace Prog

variable {Req : Type} {Resp : Req → Type} {α β γ : Type}

/-- Sequential composition: continue with the returned value. -/
def bind : Prog Req Resp α → (α → Prog Req Resp β) → Prog Req Resp β
  | ret value, f => f value
  | call request next, f => call request fun response => (next response).bind f

instance : Monad (Prog Req Resp) where
  pure := ret
  bind := bind

/-- Issue one request and return its response. -/
def request (r : Req) : Prog Req Resp (Resp r) := call r ret

/-- `pure` is the program that returns a value. -/
@[simp] theorem pure_eq (value : α) : (pure value : Prog Req Resp α) = ret value := rfl

/-- A returned value is handed on. -/
@[simp] theorem ret_bind (value : α) (f : α → Prog Req Resp β) : ret value >>= f = f value := rfl

/-- What follows a program follows its first call. -/
@[simp] theorem call_bind (r : Req) (next : Resp r → Prog Req Resp α)
    (f : α → Prog Req Resp β) :
    call r next >>= f = call r fun response => next response >>= f := rfl

/-- Programs are composed associatively. -/
theorem bind_assoc {γ : Type} (p : Prog Req Resp α) (f : α → Prog Req Resp β)
    (g : β → Prog Req Resp γ) : p >>= f >>= g = p >>= fun value => f value >>= g := by
  induction p with
  | ret value => rfl
  | call r next ih =>
    rw [call_bind, call_bind, call_bind]
    exact congrArg (call r) (funext ih)

/-- A request goes on with its response. -/
@[simp] theorem request_bind (r : Req) (f : Resp r → Prog Req Resp β) :
    request r >>= f = call r f := rfl

/-- Replay a program against recorded responses. The result is the returned
value with the unused rest of the record, provided the record answers exactly
the requests the program issues. -/
def replay [DecidableEq Req] : Prog Req Resp α → List (Σ r, Resp r) → Option (α × List (Σ r, Resp r))
  | ret value, record => some (value, record)
  | call _ _, [] => none
  | call r next, ⟨r', response⟩ :: record =>
    if h : r' = r then (next (h ▸ response)).replay record else none

/-- Run a program alone, answering every request from the current state. -/
def eval {σ : Type} (serve : (r : Req) → σ → Resp r × σ) : Prog Req Resp α → σ → α × σ
  | ret value, s => (value, s)
  | call r next, s => (next (serve r s).1).eval serve (serve r s).2

/-- Every request the program can issue is of a kind, whatever the responses. -/
def Issues (kind : Req → Prop) : Prog Req Resp α → Prop
  | ret _ => True
  | call r next => kind r ∧ ∀ response, (next response).Issues kind

/-- A returned value issues no request. -/
@[simp] theorem issues_ret (kind : Req → Prop) (value : α) :
    (ret value : Prog Req Resp α).Issues kind ↔ True := Iff.rfl

/-- A call issues its request and those of what follows any response. -/
@[simp] theorem issues_call (kind : Req → Prop) (r : Req) (next : Resp r → Prog Req Resp α) :
    (call r next).Issues kind ↔ kind r ∧ ∀ response, (next response).Issues kind := Iff.rfl

/-- Two programs in sequence issue what both of them issue. -/
theorem Issues.bind {kind : Req → Prop} {p : Prog Req Resp α} {f : α → Prog Req Resp β}
    (hp : p.Issues kind) (hf : ∀ value, (f value).Issues kind) : (p >>= f).Issues kind := by
  induction p with
  | ret value => exact hf value
  | call r next ih => exact ⟨hp.1, fun response => ih response (hp.2 response)⟩

/-- Requests of a kind are of every weaker kind. -/
theorem Issues.mono {kind weaker : Req → Prop} (hweaker : ∀ r, kind r → weaker r)
    {p : Prog Req Resp α} (hp : p.Issues kind) : p.Issues weaker := by
  induction p with
  | ret value => trivial
  | call r next ih => exact ⟨hweaker r hp.1, fun response => ih response (hp.2 response)⟩

/-- A request of the kind may come first. -/
theorem Issues.request_bind {kind : Req → Prop} {r : Req} {f : Resp r → Prog Req Resp β}
    (hr : kind r) (hf : ∀ response, (f response).Issues kind) : (request r >>= f).Issues kind :=
  ⟨hr, hf⟩

/-- A complete run of a program alone, with the states before and after it. Each
request is answered as the environment allows in the state it finds. -/
inductive Runs {σ : Type} (answers : (r : Req) → σ → Resp r → σ → Prop) :
    Prog Req Resp α → σ → α → σ → Prop
  /-- The program has returned. -/
  | ret (value : α) (s : σ) : Runs answers (ret value) s value s
  /-- One request is answered. -/
  | call {r : Req} {next : Resp r → Prog Req Resp α} {response : Resp r} {value : α} {s t u : σ}
      (answered : answers r s response t) (rest : Runs answers (next response) t value u) :
      Runs answers (call r next) s value u

section Runs

variable {σ : Type} {answers : (r : Req) → σ → Resp r → σ → Prop} {s u : σ}

/-- A returned value leaves the state as it is. -/
@[simp] theorem runs_ret_iff {value result : α} :
    Runs answers (ret value : Prog Req Resp α) s result u ↔ result = value ∧ u = s := by
  constructor
  · intro h
    cases h
    exact ⟨rfl, rfl⟩
  · rintro ⟨rfl, rfl⟩
    exact .ret _ _

/-- A call runs if it is answered and what follows the answer runs. -/
theorem runs_call_iff {r : Req} {next : Resp r → Prog Req Resp α} {result : α} :
    Runs answers (call r next) s result u ↔
      ∃ response t, answers r s response t ∧ Runs answers (next response) t result u := by
  constructor
  · intro h
    cases h with
    | call answered rest => exact ⟨_, _, answered, rest⟩
  · rintro ⟨response, t, answered, rest⟩
    exact .call answered rest

/-- A sequence runs its first part and then its second part. -/
theorem runs_bind_iff {p : Prog Req Resp α} {f : α → Prog Req Resp β} {result : β} :
    Runs answers (p >>= f) s result u ↔
      ∃ value t, Runs answers p s value t ∧ Runs answers (f value) t result u := by
  induction p generalizing s with
  | ret value =>
    simp only [ret_bind, runs_ret_iff]
    constructor
    · intro h
      exact ⟨value, s, ⟨rfl, rfl⟩, h⟩
    · rintro ⟨_, _, ⟨rfl, rfl⟩, h⟩
      exact h
  | call r next ih =>
    simp only [call_bind, runs_call_iff, ih]
    constructor
    · rintro ⟨response, t, answered, value, v, hfirst, hlast⟩
      exact ⟨value, v, ⟨response, t, answered, hfirst⟩, hlast⟩
    · rintro ⟨value, v, ⟨response, t, answered, hfirst⟩, hlast⟩
      exact ⟨response, t, answered, value, v, hfirst, hlast⟩

/-- A returned value is the result. -/
@[simp] theorem eval_ret (serve : (r : Req) → σ → Resp r × σ) (value : α) :
    (ret value : Prog Req Resp α).eval serve s = (value, s) := rfl

/-- A call is served, and what follows is evaluated. -/
@[simp] theorem eval_call (serve : (r : Req) → σ → Resp r × σ) (r : Req)
    (next : Resp r → Prog Req Resp α) :
    (call r next).eval serve s = (next (serve r s).1).eval serve (serve r s).2 := rfl

/-- A sequence is evaluated part by part. -/
theorem eval_bind (serve : (r : Req) → σ → Resp r × σ) (p : Prog Req Resp α)
    (f : α → Prog Req Resp β) :
    (p >>= f).eval serve s = (f (p.eval serve s).1).eval serve (p.eval serve s).2 := by
  induction p generalizing s with
  | ret value => rfl
  | call r next ih => exact ih _

/-- Evaluating a program is one of its runs. -/
theorem runs_eval {serve : (r : Req) → σ → Resp r × σ}
    (h : ∀ r s, answers r s (serve r s).1 (serve r s).2) {p : Prog Req Resp α} {value : α}
    (hvalue : (p.eval serve s).1 = value) : Runs answers p s value (p.eval serve s).2 := by
  induction p generalizing s with
  | ret result => exact hvalue ▸ .ret result s
  | call r next ih => exact .call (h r s) (ih _ hvalue)

/-- A run seen through a view of the states. -/
theorem Runs.map {τ : Type} {seen : (r : Req) → τ → Resp r → τ → Prop} (view : σ → τ)
    (hview : ∀ {r s response t}, answers r s response t → seen r (view s) response (view t))
    {p : Prog Req Resp α} {value : α} (h : Runs answers p s value u) :
    Runs seen p (view s) value (view u) := by
  induction h with
  | ret value s => exact .ret value (view s)
  | call answered rest ih => exact .call (hview answered) ih

/-- A program that only issues requests of a kind relates states as those requests do. -/
theorem Runs.of_issues {kind : Req → Prop} (rel : σ → σ → Prop) (hrefl : ∀ s, rel s s)
    (htrans : ∀ {s t u}, rel s t → rel t u → rel s u)
    (hkind : ∀ {r s response t}, kind r → answers r s response t → rel s t)
    {p : Prog Req Resp α} {value : α} (hp : p.Issues kind) (h : Runs answers p s value u) :
    rel s u := by
  induction h with
  | ret value s => exact hrefl s
  | call answered rest ih => exact htrans (hkind hp.1 answered) (ih (hp.2 _))

end Runs

/-- A program returns a value after exactly the recorded requests and responses. -/
def Yields : Prog Req Resp α → List (Σ r, Resp r) → α → Prop
  | ret value, record, result => record = [] ∧ result = value
  | call r next, record, result =>
    ∃ response rest, record = ⟨r, response⟩ :: rest ∧ (next response).Yields rest result

/-- What a program records and returns if the response depends on the request only. -/
def respond (answer : (r : Req) → Resp r) : Prog Req Resp α → List (Σ r, Resp r) × α
  | ret value => ([], value)
  | call r next =>
    let rest := (next (answer r)).respond answer
    (⟨r, answer r⟩ :: rest.1, rest.2)

/-- The recorded responses are given one after the other, with the states before and
after them. -/
def Answered {σ : Type} (answers : (r : Req) → σ → Resp r → σ → Prop) :
    List (Σ r, Resp r) → σ → σ → Prop
  | [], s, u => u = s
  | exchange :: record, s, u =>
    ∃ t, answers exchange.1 s exchange.2 t ∧ Answered answers record t u

/-- Every request meets a condition on what has been recorded before it. -/
def Traced (allowed : List (Σ r, Resp r) → Req → Prop) : Prog Req Resp α → List (Σ r, Resp r) → Prop
  | ret _, _ => True
  | call r next, seen =>
    allowed seen r ∧ ∀ response, (next response).Traced allowed (seen ++ [⟨r, response⟩])

section Yields

variable {record : List (Σ r, Resp r)}

/-- A returned value has an empty record. -/
@[simp] theorem yields_ret_iff {value result : α} :
    (ret value : Prog Req Resp α).Yields record result ↔ record = [] ∧ result = value := Iff.rfl

/-- The record of a call begins with its request and response. -/
theorem yields_call_iff {r : Req} {next : Resp r → Prog Req Resp α} {result : α} :
    (call r next).Yields record result ↔
      ∃ response rest, record = ⟨r, response⟩ :: rest ∧ (next response).Yields rest result := Iff.rfl

/-- So does the record of a request that is followed by a program. -/
theorem yields_request_bind_iff {r : Req} {f : Resp r → Prog Req Resp α} {result : α} :
    (request r >>= f).Yields record result ↔
      ∃ response rest, record = ⟨r, response⟩ :: rest ∧ (f response).Yields rest result := Iff.rfl

/-- The record of a sequence is that of its first part and then that of its second part. -/
theorem yields_bind_iff {p : Prog Req Resp α} {f : α → Prog Req Resp β} {result : β} :
    (p >>= f).Yields record result ↔
      ∃ value first last, record = first ++ last ∧ p.Yields first value ∧
        (f value).Yields last result := by
  induction p generalizing record with
  | ret value =>
    constructor
    · intro h
      exact ⟨value, [], record, rfl, ⟨rfl, rfl⟩, h⟩
    · rintro ⟨value, first, last, rfl, ⟨rfl, rfl⟩, hlast⟩
      exact hlast
  | call r next ih =>
    simp only [call_bind, yields_call_iff, ih]
    constructor
    · rintro ⟨response, rest, rfl, value, first, last, rfl, hfirst, hlast⟩
      exact ⟨value, ⟨r, response⟩ :: first, last, rfl, ⟨response, first, rfl, hfirst⟩, hlast⟩
    · rintro ⟨value, first, last, rfl, ⟨response, rest, rfl, hfirst⟩, hlast⟩
      exact ⟨response, rest ++ last, rfl, value, rest, last, rfl, hfirst, hlast⟩

/-- Answering all requests by a function gives a record. -/
theorem yields_respond (answer : (r : Req) → Resp r) (p : Prog Req Resp α) :
    p.Yields (p.respond answer).1 (p.respond answer).2 := by
  induction p with
  | ret value => exact ⟨rfl, rfl⟩
  | call r next ih => exact ⟨answer r, _, rfl, ih (answer r)⟩

/-- The responses in that record are those of the function. -/
theorem mem_respond {answer : (r : Req) → Resp r} {p : Prog Req Resp α} {r : Req} {response : Resp r}
    (h : ⟨r, response⟩ ∈ (p.respond answer).1) : response = answer r := by
  induction p with
  | ret value => cases h
  | call r' next ih =>
    rcases List.mem_cons.mp h with heq | hrest
    · cases heq
      rfl
    · exact ih _ hrest

/-- What is recorded is of the kind the program issues. -/
theorem Issues.of_yields {kind : Req → Prop} {p : Prog Req Resp α} {result : α}
    (hp : p.Issues kind) (h : p.Yields record result) : ∀ exchange ∈ record, kind exchange.1 := by
  induction p generalizing record with
  | ret value => simp [h.1]
  | call r next ih =>
    obtain ⟨response, rest, rfl, hrest⟩ := h
    intro exchange hmem
    rcases List.mem_cons.mp hmem with rfl | hmem
    · exact hp.1
    · exact ih response (hp.2 response) hrest exchange hmem

section Traced

variable {allowed : List (Σ r, Resp r) → Req → Prop} {seen : List (Σ r, Resp r)}

/-- A request is allowed after what has been seen, and then belongs to it. -/
theorem Traced.request_bind {r : Req} {f : Resp r → Prog Req Resp β} (hr : allowed seen r)
    (hf : ∀ response, (f response).Traced allowed (seen ++ [⟨r, response⟩])) :
    (request r >>= f).Traced allowed seen :=
  ⟨hr, hf⟩

/-- What follows a program may refer to the record of the program. -/
theorem Traced.bind {p : Prog Req Resp α} {f : α → Prog Req Resp β} (hp : p.Traced allowed seen)
    (hf : ∀ record value, p.Yields record value → (f value).Traced allowed (seen ++ record)) :
    (p >>= f).Traced allowed seen := by
  induction p generalizing seen with
  | ret value =>
    have hrest := hf [] value ⟨rfl, rfl⟩
    rw [List.append_nil] at hrest
    exact hrest
  | call r next ih =>
    refine ⟨hp.1, fun response => ih response (hp.2 response) fun record value h => ?_⟩
    rw [List.append_assoc]
    exact hf (⟨r, response⟩ :: record) value ⟨response, record, rfl, h⟩

/-- Requests of a kind that is always allowed need no record. -/
theorem traced_of_issues {kind : Req → Prop} (hkind : ∀ seen r, kind r → allowed seen r)
    {p : Prog Req Resp α} (hp : p.Issues kind) : p.Traced allowed seen := by
  induction p generalizing seen with
  | ret value => trivial
  | call r next ih => exact ⟨hkind seen r hp.1, fun response => ih response (hp.2 response)⟩

/-- What is allowed before a request is allowed in the whole record, if it only asks for
something that has been recorded. -/
theorem Traced.of_yields {p : Prog Req Resp α} {result : α} (hp : p.Traced allowed seen)
    (hmono : ∀ seen later r, allowed seen r → allowed (seen ++ later) r)
    (h : p.Yields record result) : ∀ exchange ∈ record, allowed (seen ++ record) exchange.1 := by
  induction p generalizing seen record with
  | ret value => simp [h.1]
  | call r next ih =>
    obtain ⟨response, rest, rfl, hrest⟩ := h
    intro exchange hmem
    rcases List.mem_cons.mp hmem with rfl | hmem
    · exact hmono _ _ _ hp.1
    · have hlater := ih response (hp.2 response) hrest exchange hmem
      rw [List.append_assoc] at hlater
      exact hlater

end Traced

/-- A run has a record, and the record is answered as the run is. -/
theorem runs_iff_yields {σ : Type} {answers : (r : Req) → σ → Resp r → σ → Prop} {s u : σ}
    {p : Prog Req Resp α} {result : α} :
    Runs answers p s result u ↔ ∃ record, p.Yields record result ∧ Answered answers record s u := by
  induction p generalizing s with
  | ret value =>
    rw [runs_ret_iff]
    constructor
    · rintro ⟨rfl, rfl⟩
      exact ⟨[], ⟨rfl, rfl⟩, rfl⟩
    · rintro ⟨record, ⟨rfl, rfl⟩, hanswered⟩
      exact ⟨rfl, hanswered⟩
  | call r next ih =>
    rw [runs_call_iff]
    simp only [ih]
    constructor
    · rintro ⟨response, t, hanswer, record, hyields, hanswered⟩
      exact ⟨⟨r, response⟩ :: record, ⟨response, record, rfl, hyields⟩, t, hanswer, hanswered⟩
    · rintro ⟨record, ⟨response, rest, rfl, hyields⟩, t, hanswer, hanswered⟩
      exact ⟨response, t, hanswer, rest, hyields, hanswered⟩

/-- The record of a program that runs alone. -/
def transcript {σ : Type} (serve : (r : Req) → σ → Resp r × σ) :
    Prog Req Resp α → σ → List (Σ r, Resp r)
  | ret _, _ => []
  | call r next, s =>
    ⟨r, (serve r s).1⟩ :: (next (serve r s).1).transcript serve (serve r s).2

/-- The transcript of an evaluation is a record of its result. -/
theorem yields_transcript {σ : Type} (serve : (r : Req) → σ → Resp r × σ) (p : Prog Req Resp α)
    (s : σ) : p.Yields (p.transcript serve s) (p.eval serve s).1 := by
  induction p generalizing s with
  | ret value => exact ⟨rfl, rfl⟩
  | call r next ih => exact ⟨(serve r s).1, _, rfl, ih _ _⟩

/-- The transcript is answered as the server answers. -/
theorem answered_transcript {σ : Type} {answers : (r : Req) → σ → Resp r → σ → Prop}
    {serve : (r : Req) → σ → Resp r × σ} (h : ∀ r s, answers r s (serve r s).1 (serve r s).2)
    (p : Prog Req Resp α) (s : σ) :
    Answered answers (p.transcript serve s) s (p.eval serve s).2 := by
  induction p generalizing s with
  | ret value => exact rfl
  | call r next ih => exact ⟨_, h r s, ih _ _⟩

/-- A record is answered in two parts with a state in between. -/
theorem answered_append {σ : Type} {answers : (r : Req) → σ → Resp r → σ → Prop} {s u : σ}
    {first last : List (Σ r, Resp r)} :
    Answered answers (first ++ last) s u ↔
      ∃ t, Answered answers first s t ∧ Answered answers last t u := by
  induction first generalizing s with
  | nil =>
    constructor
    · intro h
      exact ⟨s, rfl, h⟩
    · rintro ⟨t, rfl, h⟩
      exact h
  | cons exchange first ih =>
    simp only [List.cons_append, Answered, ih]
    constructor
    · rintro ⟨t, hanswer, v, hfirst, hlast⟩
      exact ⟨v, ⟨t, hanswer, hfirst⟩, hlast⟩
    · rintro ⟨v, ⟨t, hanswer, hfirst⟩, hlast⟩
      exact ⟨t, hanswer, v, hfirst, hlast⟩

/-- Answers of which every one has a property. -/
theorem Answered.restrict {σ : Type} {answers : (r : Req) → σ → Resp r → σ → Prop}
    {allowed : (r : Req) → Resp r → Prop} {s u : σ} (h : Answered answers record s u)
    (hallowed : ∀ exchange ∈ record, allowed exchange.1 exchange.2) :
    Answered (fun r s response t => answers r s response t ∧ allowed r response) record s u := by
  induction record generalizing s with
  | nil => exact h
  | cons exchange record ih =>
    obtain ⟨t, hanswer, hrest⟩ := h
    exact ⟨t, ⟨hanswer, hallowed exchange List.mem_cons_self⟩,
      ih hrest fun e he => hallowed e (List.mem_cons_of_mem exchange he)⟩

end Yields

end Prog

/-- The requests a program has issued so far, each with its response. -/
abbrev Record (Req : Type) (Resp : Req → Type) : Type := List (Σ r, Resp r)

/-- What the proof of one program may assume and has to show. -/
structure Contract (Req : Type) (Resp : Req → Type) (σ Fault : Type) where
  /-- The answer to a request in a state, for a chosen fault of the service. -/
  serve : Fault → (r : Req) → σ → Resp r × σ
  /-- What the other parties may do between two requests. -/
  rely : σ → σ → Prop
  /-- An invariant of every state in which a request is served. -/
  inv : σ → Prop
  /-- The answers the argument is about, given the state in which they are chosen. -/
  admits : Fault → (r : Req) → σ → Prop
  /-- What every single request has to meet, given what the program has read before. -/
  guarantee : Record Req Resp → (r : Req) → Resp r → σ → σ → Prop
  /-- Doing nothing is tolerated interference. -/
  rely_refl : ∀ s, rely s s
  /-- Interference accumulates. -/
  rely_trans : ∀ {s t u}, rely s t → rely t u → rely s u

variable {Req : Type} {Resp : Req → Type} {σ Fault α β : Type}

/-- Weakest precondition under interference: before each request the other
parties may act, the request then keeps the invariant, meets the guarantee and
leaves a state from which the rest of the program is safe again. -/
def Wp (c : Contract Req Resp σ Fault) (post : Record Req Resp → α → σ → Prop) :
    Prog Req Resp α → Record Req Resp → σ → Prop
  | .ret value, seen, s => ∀ t, c.rely s t → c.inv t → post seen value t
  | .call r next, seen, s => ∀ t, c.rely s t → c.inv t → ∀ fault, c.admits fault r t →
      c.inv (c.serve fault r t).2 ∧
      c.guarantee seen r (c.serve fault r t).1 t (c.serve fault r t).2 ∧
      Wp c post (next (c.serve fault r t).1) (seen ++ [⟨r, (c.serve fault r t).1⟩])
        (c.serve fault r t).2

section Rules

variable {c : Contract Req Resp σ Fault} {post : Record Req Resp → α → σ → Prop}
variable {seen : Record Req Resp} {s t : σ}

/-- Interference never invalidates a weakest precondition. -/
theorem Wp.stable {p : Prog Req Resp α} (h : Wp c post p seen s) (hr : c.rely s t) :
    Wp c post p seen t := by
  cases p with
  | ret value => exact fun u hu hi => h u (c.rely_trans hr hu) hi
  | call r next => exact fun u hu hi => h u (c.rely_trans hr hu) hi

/-- It suffices to treat the state in which interference has already happened. -/
theorem Wp.of_rely {p : Prog Req Resp α}
    (h : ∀ t, c.rely s t → c.inv t → Wp c post p seen t) : Wp c post p seen s := by
  cases p with
  | ret value => exact fun t hr hi => h t hr hi t (c.rely_refl t) hi
  | call r next => exact fun t hr hi => h t hr hi t (c.rely_refl t) hi

/-- Sequential composition runs the rest from whatever the first part establishes. -/
theorem Wp.bind {p : Prog Req Resp α} {f : α → Prog Req Resp β}
    {post : Record Req Resp → β → σ → Prop}
    (h : Wp c (fun seen value t => Wp c post (f value) seen t) p seen s) :
    Wp c post (p >>= f) seen s := by
  induction p generalizing seen s with
  | ret value => exact Wp.of_rely h
  | call r next ih =>
    intro t hr hi fault ha
    obtain ⟨hinv, hguar, hnext⟩ := h t hr hi fault ha
    exact ⟨hinv, hguar, ih _ hnext⟩

/-- Consequence rule for the postcondition. -/
theorem Wp.mono {p : Prog Req Resp α} {weaker : Record Req Resp → α → σ → Prop}
    (h : Wp c post p seen s)
    (hpost : ∀ seen value t, c.inv t → post seen value t → weaker seen value t) :
    Wp c weaker p seen s := by
  induction p generalizing seen s with
  | ret value => exact fun t hr hi => hpost seen value t hi (h t hr hi)
  | call r next ih =>
    intro t hr hi fault ha
    obtain ⟨hinv, hguar, hnext⟩ := h t hr hi fault ha
    exact ⟨hinv, hguar, ih _ hnext⟩

/-- A program that only issues requests of a kind keeps whatever each request of
that kind keeps. -/
theorem Wp.of_issues {p : Prog Req Resp α} {kind : Req → Prop} {fact : σ → Prop}
    (hrely : ∀ {s t}, fact s → c.rely s t → fact t)
    (hserve : ∀ {r s} seen fault, kind r → fact s → c.inv s → c.admits fault r s →
      c.inv (c.serve fault r s).2 ∧
        c.guarantee seen r (c.serve fault r s).1 s (c.serve fault r s).2 ∧
        fact (c.serve fault r s).2)
    (hp : p.Issues kind) (hs : fact s) : Wp c (fun _ _ t => fact t) p seen s := by
  induction p generalizing seen s with
  | ret value => exact fun t hr _ => hrely hs hr
  | call r next ih =>
    intro t hr hi fault ha
    obtain ⟨hinv, hguar, hfact⟩ := hserve seen fault hp.1 (hrely hs hr) hi ha
    exact ⟨hinv, hguar, ih _ (hp.2 _) hfact⟩

/-- A returned program has read exactly what makes it return its value. -/
theorem Wp.replayed [DecidableEq Req] {p : Prog Req Resp α} (h : Wp c post p [] s) :
    Wp c (fun seen value t => post seen value t ∧ p.replay seen = some (value, [])) p [] s := by
  have hrest : ∀ (q : Prog Req Resp α) (seen : Record Req Resp) (s : σ),
      (∀ record, p.replay (seen ++ record) = q.replay record) → Wp c post q seen s →
      Wp c (fun seen value t => post seen value t ∧ p.replay seen = some (value, [])) q seen s := by
    intro q
    induction q with
    | ret value =>
      intro seen s hq hw t hr hi
      have hret := hq []
      rw [List.append_nil] at hret
      exact ⟨hw t hr hi, hret⟩
    | call r next ih =>
      intro seen s hq hw t hr hi fault ha
      obtain ⟨hinv, hguar, hnext⟩ := hw t hr hi fault ha
      refine ⟨hinv, hguar, ih _ _ _ ?_ hnext⟩
      intro record
      rw [List.append_assoc, List.singleton_append, hq, Prog.replay, dif_pos rfl]
  exact hrest p [] s (fun record => rfl) h

end Rules

end K8StorageX.ApiProgram
