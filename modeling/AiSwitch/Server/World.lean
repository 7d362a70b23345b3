import AiSwitch.Adapter.Factory
import AiSwitch.Db.KeyStore
import AiSwitch.Db.Repository
import AiSwitch.Middleware.RateLimiter
import AiSwitch.Server.Router

/-!
# The gateway and its state

`Gateway` is what `main` sets up and nothing changes: the registered adapters, the master key, and
what the libraries and the database decide. `World` is what a request can change: the database, the
middlewares with their state, the flags of the session, and a record of what was done (`Event`), in
order, from which properties of the handling of a request are read off.
-/

namespace AiSwitch

open ByteString Effect Nlohmann Http Mysql

/-- The routes that `main` registers. -/
inductive Route where
  | health
  | chat
  | createKey
  | listKeys
  | disableKey
deriving DecidableEq, Repr

/-- What the handling of a request does, as far as it is seen outside: calls of the repository and
of adapters, the handler that runs, and the start of a response. -/
inductive Event where
  | findApiKey (token : Bytes) (result : ApiKeyResult)
  | createApiKey (name : Bytes) (rateLimit : ℤ)
  | listApiKeys
  | disableApiKey (id : ℤ)
  | handler (route : Route)
  | chatCompletion (ai : ℕ) (request : Json)
  | chatCompletionStream (ai : ℕ) (request : Json)
  | doWrite (res : Response)
  | startStream (version : ℕ) (keepAlive : Bool)

/-- A middleware with its state. -/
inductive Middleware where
  | auth
  | rateLimiter (bucket : TokenBucket)
  | log
deriving DecidableEq, Repr

/-- What is fixed when the server starts. `dis` is the distribution of key characters. -/
structure Gateway where
  lib : Lib
  backend : Backend
  dis : UInt32 → ℕ → Fin 16
  adapters : AdapterFactory
  adminMasterKey : Bytes

/-- What a request can change. The `n`-th call of `try_acquire` reads the clock at `clock n`, before
and after the lock. -/
structure World where
  db : Db
  chain : List Middleware
  clock : ℕ → ℤ × ℤ
  acquisitions : ℕ := 0
  isStreaming : Bool := false
  streamHeadersSent : Bool := false
  trace : List Event := []

/-- A computation of the gateway. -/
abbrev Act (α : Type) := Prog World Exn α

/-- Record an event. -/
def emit (e : Event) : Act Unit := Prog.modify fun w => { w with trace := w.trace ++ [e] }

/-- What follows a recorded event runs with the event in the record. -/
@[simp] theorem emit_bind_apply {α : Type} (e : Event) (f : Unit → Act α) (w : World) :
    (emit e >>= f) w = f () { w with trace := w.trace ++ [e] } := rfl

/-! ## What is recorded -/

/-- Between two states only events with the property `P` have been recorded. -/
def Recorded (P : Event → Prop) (w w' : World) : Prop :=
  ∃ events, w'.trace = w.trace ++ events ∧ ∀ e ∈ events, P e

/-- The computation records only events with the property `P`. -/
abbrev Records {α : Type} (P : Event → Prop) (x : Act α) : Prop := Prog.Moves (Recorded P) x

variable {P : Event → Prop}

/-- Nothing is recorded where the record stays as it is. -/
theorem recorded_of_trace_eq {w w' : World} (h : w'.trace = w.trace) : Recorded P w w' :=
  ⟨[], by rw [h, List.append_nil], by simp⟩

/-- Nothing is recorded where nothing happens. -/
theorem recorded_refl (w : World) : Recorded P w w := recorded_of_trace_eq rfl

/-- What is recorded later comes after it. -/
theorem recorded_trans (u v w : World) : Recorded P u v → Recorded P v w → Recorded P u w := by
  rintro ⟨es, hes, hP⟩ ⟨fs, hfs, hQ⟩
  refine ⟨es ++ fs, by rw [hfs, hes, List.append_assoc], ?_⟩
  intro e he
  exact (List.mem_append.mp he).elim (hP e) (hQ e)

/-- Along `R` a computation may do what the middlewares and the route handlers do apart from their
calls of the repository: change the middlewares, and record events with the property `P`. -/
structure Tracks (P : Event → Prop) (R : World → World → Prop) : Prop where
  refl : ∀ w, R w w
  trans : ∀ u v w, R u v → R v w → R u w
  event : ∀ w e, P e → R w { w with trace := w.trace ++ [e] }
  middlewares : ∀ w chain n, R w { w with chain := chain, acquisitions := n }

/-- Along `R` a computation may do what `Tracks` says, and use the database. -/
structure Follows (P : Event → Prop) (R : World → World → Prop) : Prop extends Tracks P R where
  database : ∀ w db, R w { w with db := db }

/-- The record itself is followed by every part of the gateway. -/
theorem follows_recorded : Follows P (Recorded P) where
  refl := recorded_refl
  trans := recorded_trans
  event _ e he := ⟨[e], rfl, by simpa using he⟩
  database _ _ := recorded_of_trace_eq rfl
  middlewares _ _ _ := recorded_of_trace_eq rfl

/-- What tracks a condition on the events tracks a stronger one. -/
theorem Tracks.mono {Q : Event → Prop} {R : World → World → Prop} (h : Tracks P R)
    (himp : ∀ e, Q e → P e) : Tracks Q R :=
  { h with event := fun w e he => h.event w e (himp e he) }

/-- What follows a condition on the events follows a stronger one. -/
theorem Follows.mono {Q : Event → Prop} {R : World → World → Prop} (h : Follows P R)
    (himp : ∀ e, Q e → P e) : Follows Q R :=
  { h with toTracks := h.toTracks.mono himp }

namespace Tracks

variable {α β : Type} {R : World → World → Prop} (h : Tracks P R)

include h

/-- An outcome that does not depend on the state leaves no trace. -/
theorem lift (x : Outcome Exn α) : Prog.Moves R (Prog.lift x : Act α) := Prog.moves_lift h.refl x

/-- A result leaves no trace. -/
theorem pure (a : α) : Prog.Moves R (Pure.pure a : Act α) := Prog.moves_pure h.refl a

/-- An exception leaves no trace. -/
theorem throw (e : Exn) : Prog.Moves R (Prog.throw e : Act α) := Prog.moves_throw h.refl e

/-- Undefined behaviour leaves no trace. -/
theorem ub : Prog.Moves R (Prog.ub : Act α) := Prog.moves_ub h.refl

/-- An event that is permitted may be recorded. -/
theorem emit {e : Event} (he : P e) : Prog.Moves R (emit e) := fun w => h.event w e he

/-- The parts of a sequence may both do what is permitted. -/
theorem bind {x : Act α} {f : α → Act β} (hx : Prog.Moves R x) (hf : ∀ a, Prog.Moves R (f a)) :
    Prog.Moves R (x >>= f) :=
  Prog.Moves.bind h.trans hx hf

/-- Recording a permitted event and what follows it may do what is permitted. -/
theorem emit_bind {e : Event} {f : Unit → Act β} (he : P e) (hf : Prog.Moves R (f ())) :
    Prog.Moves R (AiSwitch.emit e >>= f) :=
  h.bind (h.emit he) fun _ => hf

/-- A `try` block and its handler may do what is permitted. -/
theorem tryCatch {x : Act α} {handler : Exn → Act α} (hx : Prog.Moves R x)
    (hh : ∀ e, Prog.Moves R (handler e)) : Prog.Moves R (Prog.tryCatch x handler) :=
  Prog.Moves.tryCatch h.trans hx hh

end Tracks

section

variable {α β : Type}

/-- What is recorded meets every weaker condition. -/
theorem records_mono {Q : Event → Prop} {x : Act α} (hx : Records P x) (h : ∀ e, P e → Q e) :
    Records Q x := by
  intro w
  obtain ⟨events, htrace, hevents⟩ := hx w
  exact ⟨events, htrace, fun e he => h e (hevents e he)⟩

/-- A computation that records nothing leaves the record as it is. -/
theorem trace_eq_of_records {x : Act α} (hx : Records (fun _ => False) x) (w : World) :
    (x w).2.trace = w.trace := by
  obtain ⟨events, htrace, hevents⟩ := hx w
  rw [htrace, List.eq_nil_iff_forall_not_mem.mpr hevents, List.append_nil]

end

namespace Gateway

variable (gw : Gateway)

/-- Run a program of the repository. -/
def repository {α : Type} (m : Repository.Repo α) : Act α :=
  Prog.zoom World.db (fun w db => { w with db := db }) (m.run gw.backend)

/-- An operation that returns changes the database alone. -/
theorem repository_of_ok {α : Type} {m : Repository.Repo α} {w : World} {a : α} {db : Db}
    (h : m.run gw.backend w.db = (.ok a, db)) :
    gw.repository m w = (.ok a, { w with db := db }) := by
  rw [repository, Prog.zoom_apply, h]

/-- An operation without defined behaviour changes the database alone. -/
theorem repository_of_ub {α : Type} {m : Repository.Repo α} {w : World} {db : Db}
    (h : m.run gw.backend w.db = (.ub, db)) :
    gw.repository m w = (.ub, { w with db := db }) := by
  rw [repository, Prog.zoom_apply, h]

/-- Operations record nothing of themselves. -/
theorem moves_repository {R : World → World → Prop} (h : Follows P R) {α : Type}
    (m : Repository.Repo α) : Prog.Moves R (gw.repository m) :=
  fun w => h.database w (m.run gw.backend w.db).2

/-- An error response to a request. -/
def errorResponse (status : Status) (code : String) (message : Bytes) (req : RequestHeader) :
    Act Response :=
  Prog.lift (makeErrorResponse gw.lib status code message req.version req.keepAlive)

/-- An error response changes nothing. -/
theorem moves_errorResponse {R : World → World → Prop} (h : Tracks P R) (status : Status)
    (code : String) (message : Bytes) (req : RequestHeader) :
    Prog.Moves R (gw.errorResponse status code message req) :=
  h.lift _

/-- The error response that is built from a text. -/
def errorResult (status : Status) (code : String) (message : Bytes) (req : RequestHeader) :
    Response :=
  makeResponse status req.version req.keepAlive (gw.lib.text (errorDocument code message))

/-- A response to the request that reports an error. -/
def IsErrorResult (req : RequestHeader) (res : Response) : Prop :=
  ∃ status code message, res = gw.errorResult status code message req

/-- A message in UTF-8 is reported. -/
theorem errorResponse_of_validUtf8 {message : Bytes} (h : ValidUtf8 message) (status : Status)
    (code : String) (req : RequestHeader) (w : World) :
    gw.errorResponse status code message req w
      = (.ok (gw.errorResult status code message req), w) := by
  rw [errorResponse, makeErrorResponse_of_validUtf8 h]
  rfl

/-- An error response whose message is not UTF-8 ends in an exception. -/
theorem errorResponse_of_not_validUtf8 {message : Bytes} (h : ¬ ValidUtf8 message) (status : Status)
    (code : String) (req : RequestHeader) (w : World) :
    ∃ e, gw.errorResponse status code message req w = (.throw e, w) := by
  rw [errorResponse, makeErrorResponse_of_not_validUtf8 h]
  exact ⟨_, rfl⟩

/-! ## A small gateway -/

/-- A gateway that parses the listed bodies, on a database that answers every call. -/
def small (docs : List (Bytes × { j : Json // j.isValid = true })) (adapters : AdapterFactory) :
    Gateway where
  lib := Lib.ofTable docs
  backend := ⟨.ascii, fun a b => a == b, fun _ => none, fun _ => 0⟩
  dis := KeyStore.zeros
  adapters := adapters
  adminMasterKey := utf8 "master"

end Gateway

/-- An empty table behind one connection, at time 0. -/
def World.small : World where
  db := { table := [], idle := [some 0] }
  chain := []
  clock _ := (0, 0)

/-- An adapter that answers every request with an empty document. -/
def Adapter.small (modelPrefix : String) : Adapter where
  modelPrefix := utf8 modelPrefix
  chatCompletion _ := .ok (.obj [])
  chatCompletionStream _ := pure ()

end AiSwitch
