import AiSwitch.Server.KeyManagement

/-!
# What holds along every request

The handling of a request reaches the table through four operations only, which the middleware and
three handlers call. A relation between states that these calls keep to, and that does not look at
middlewares and flags, is kept by whole requests (`moves_serve`), and by runs of them
(`moves_handleArrivals`). What comes after the middlewares is kept apart (`Handles`), for relations
that do look at them.
-/

namespace AiSwitch

open Effect Nlohmann Http

/-- Along `R` goes what follows the middlewares: the calls of the repository, each with the record
that is made of it, and what touches nothing but flags and the record, where only events with the
property `P` are recorded. -/
structure Handles (gw : Gateway) (P : Event → Prop) (R : World → World → Prop) : Prop where
  refl : ∀ w, R w w
  trans : ∀ u v w, R u v → R v w → R u w
  event : ∀ w e, P e → R w { w with trace := w.trace ++ [e] }
  flags : ∀ w isStreaming sent, R w { w with isStreaming := isStreaming, streamHeadersSent := sent }
  create : ∀ name rateLimit, Prog.Moves R (emit (.createApiKey name rateLimit) >>= fun _ =>
    gw.repository (Repository.createApiKey gw.dis name rateLimit))
  list : Prog.Moves R (gw.repository Repository.listApiKeys)
  disable : ∀ id, Prog.Moves R (emit (.disableApiKey id) >>= fun _ =>
    gw.repository (Repository.disableApiKey id))

/-- Along `R` go all parts of the handling of a request. -/
structure Serves (gw : Gateway) (R : World → World → Prop) : Prop
    extends Handles gw (fun _ => True) R where
  middlewares : ∀ w chain n, R w { w with chain := chain, acquisitions := n }
  find : ∀ key, Prog.Moves R (gw.repository (Repository.findApiKey key))

/-- What a request as a whole may do includes every event. -/
theorem Serves.toTracks {gw : Gateway} {R : World → World → Prop} (h : Serves gw R) :
    Tracks (fun _ => True) R :=
  { h with }

namespace Handles

variable {gw : Gateway} {P : Event → Prop} {R : World → World → Prop} {α β : Type}
  (h : Handles gw P R)

include h

/-- An outcome that does not depend on the state is permitted. -/
theorem lift (x : Outcome Exn α) : Prog.Moves R (Prog.lift x : Act α) := Prog.moves_lift h.refl x

/-- A result is permitted. -/
theorem pure (a : α) : Prog.Moves R (Pure.pure a : Act α) := Prog.moves_pure h.refl a

/-- A sequence of permitted parts is permitted. -/
theorem bind {x : Act α} {f : α → Act β} (hx : Prog.Moves R x) (hf : ∀ a, Prog.Moves R (f a)) :
    Prog.Moves R (x >>= f) :=
  Prog.Moves.bind h.trans hx hf

/-- A `try` block is permitted if it and its handler are. -/
theorem tryCatch {x : Act α} {handler : Exn → Act α} (hx : Prog.Moves R x)
    (hh : ∀ e, Prog.Moves R (handler e)) : Prog.Moves R (Prog.tryCatch x handler) :=
  Prog.Moves.tryCatch h.trans hx hh

/-- What follows a permitted event is permitted with it. -/
theorem emit_bind {e : Event} {f : Unit → Act β} (he : P e) (hf : Prog.Moves R (f ())) :
    Prog.Moves R (emit e >>= f) :=
  h.bind (fun w => h.event w e he) fun _ => hf

/-! ## The handlers -/

/-- To make an error response is permitted. -/
theorem errorResponse (status : Status) (code : String) (message : ByteString.Bytes)
    (req : RequestHeader) : Prog.Moves R (gw.errorResponse status code message req) :=
  h.lift _

/-- To make a response of a document is permitted. -/
theorem jsonResponse (body : Json) (req : RequestHeader) :
    Prog.Moves R (gw.jsonResponse body req) :=
  h.bind (h.lift _) fun _ => h.pure _

/-- A handler that asks for the master key is permitted if it is so with it. -/
theorem requireAdmin {k : Act Response} (hk : Prog.Moves R k) (req : RequestHeader) :
    Prog.Moves R (gw.requireAdmin req k) := by
  unfold Gateway.requireAdmin
  split
  · exact hk
  · exact h.errorResponse _ _ _ _

/-- A handler that asks for a document is permitted if it is so with every document. -/
theorem requireJson {k : Json → Act Response} (hk : ∀ body, Prog.Moves R (k body)) (req : Request)
    (message : String) : Prog.Moves R (gw.requireJson req message k) := by
  unfold Gateway.requireJson
  split
  · exact hk _
  · exact h.errorResponse _ _ _ _
  · exact Prog.moves_ub h.refl

/-- Chat requests are permitted where calls of adapters are. -/
theorem chatWith (hP : ∀ ai body, P (.chatCompletion ai body)) (body : Json) (req : RequestHeader) :
    Prog.Moves R (gw.chatWith body req) := by
  unfold Gateway.chatWith
  split
  · exact h.errorResponse _ _ _ _
  · apply h.bind (h.lift _)
    intro model
    split
    · exact h.errorResponse _ _ _ _
    · refine h.tryCatch ?_ fun e => h.errorResponse _ _ _ _
      refine h.emit_bind (hP _ _) ?_
      exact h.bind (h.lift _) fun doc => h.jsonResponse _ _

/-- Creations are permitted where the operation is. -/
theorem createKeyWith (body : Json) (req : RequestHeader) :
    Prog.Moves R (gw.createKeyWith body req) := by
  unfold Gateway.createKeyWith
  apply h.bind (h.lift _)
  intro name
  apply h.bind (h.lift _)
  intro rateLimit
  split
  · exact h.errorResponse _ _ _ _
  · rw [← Prog.bind_assoc]
    exact h.bind (h.create _ _) fun key => h.jsonResponse _ _

/-- Requests to disable keys are permitted where the operation is. -/
theorem disableKeyWith (body : Json) (req : RequestHeader) :
    Prog.Moves R (gw.disableKeyWith body req) := by
  unfold Gateway.disableKeyWith
  apply h.bind (h.lift _)
  intro id
  split
  · exact h.errorResponse _ _ _ _
  · rw [← Prog.bind_assoc]
    apply h.bind (h.disable _)
    intro disabled
    split
    · exact h.jsonResponse _ _
    · exact h.errorResponse _ _ _ _

/-- A handler, where what it records has the property. -/
theorem handlerOf {r : Route} (hP : ∀ e, e.InHandler r → P e) (req : Request) :
    Prog.Moves R (gw.handlerOf r req) := by
  cases r with
  | health => exact h.emit_bind (hP _ rfl) (h.jsonResponse _ _)
  | chat =>
    refine h.emit_bind (hP _ rfl) ?_
    split
    · exact h.chatWith (fun _ _ => hP _ rfl) _ _
    · exact h.errorResponse _ _ _ _
    · exact Prog.moves_throw h.refl _
    · exact Prog.moves_ub h.refl
  | createKey =>
    refine h.emit_bind (hP _ rfl) (h.requireAdmin ?_ _)
    exact h.requireJson (fun body => h.createKeyWith body _) _ _
  | listKeys =>
    refine h.emit_bind (hP _ rfl) (h.requireAdmin ?_ _)
    exact h.emit_bind (hP _ rfl) (h.bind h.list fun keys => h.jsonResponse _ _)
  | disableKey =>
    refine h.emit_bind (hP _ rfl) (h.requireAdmin ?_ _)
    exact h.requireJson (fun body => h.disableKeyWith body _) _ _

/-- What the router does is permitted if what its handler records is. -/
theorem dispatch {req : Request}
    (hP : ∀ r, routeOf req.method req.target = some r → ∀ e, e.InHandler r → P e) :
    Prog.Moves R (gw.router.dispatch gw.lib req) := by
  cases hr : routeOf req.method req.target with
  | none =>
    rw [gw.dispatch_of_none hr]
    exact h.errorResponse _ _ _ _
  | some r =>
    rw [gw.dispatch_of_some hr]
    exact h.handlerOf (hP r hr) req

/-- The streaming branch is permitted where responses and streams are. -/
theorem streamBranch (hwrite : ∀ res, P (.doWrite res))
    (hstart : ∀ version keepAlive, P (.startStream version keepAlive)) (req : Request) :
    Prog.Moves R (gw.streamBranch req) := by
  unfold Gateway.streamBranch
  apply h.bind (h.lift _)
  intro body
  apply h.bind (h.lift _)
  intro wantStream
  split
  · apply h.bind fun w => h.flags w true w.streamHeadersSent
    intro _
    apply h.bind (h.lift _)
    intro model
    unfold Gateway.startStream
    split
    · apply h.bind (h.errorResponse _ _ _ _)
      intro res
      exact h.emit_bind (hwrite res) (h.pure _)
    · exact h.emit_bind (hstart _ _) (h.pure _)
  · exact h.pure _

end Handles

/-! ## Requests -/

namespace Gateway

variable {gw : Gateway} {R : World → World → Prop} (h : Serves gw R)

include h

/-- A session does what is permitted. -/
theorem moves_handleRequest (req : Request) : Prog.Moves R (gw.handleRequest req) := by
  unfold handleRequest
  apply h.bind (moves_processChain h.toTracks gw h.find (fun _ _ => trivial) _)
  intro ctx
  split
  · split
    · exact h.emit_bind trivial (h.pure _)
    · exact Prog.moves_throw h.refl _
  · apply h.bind
      (h.tryCatch (h.streamBranch (fun _ => trivial) (fun _ _ => trivial) req) fun _ => h.pure _)
    intro branch
    cases branch with
    | answered => exact h.pure _
    | started ai body => exact h.pure _
    | notTaken =>
      unfold route
      exact h.bind (h.dispatch fun _ _ _ _ => trivial) fun res => h.emit_bind trivial (h.pure _)

/-- **One request**, with what follows it. -/
theorem moves_serve (req : Request) (headerWritten : Bool) :
    Prog.Moves R (gw.serve req headerWritten) := by
  unfold serve
  apply h.bind (moves_handleRequest h req)
  intro started
  cases started with
  | none => exact h.pure _
  | some s =>
    dsimp only
    split
    · apply h.bind fun w => h.flags w w.isStreaming true
      intro _
      exact fun w => h.event w _ trivial
    · exact h.pure _

variable (harrive : ∀ w (found : World),
  R w { found with db := { found.db with table := w.db.table }, trace := w.trace })

include harrive

/-- A session and the tasks of its stream do what is permitted. -/
theorem moves_handleArrival (a : Arrival) : Prog.Moves R (gw.handleArrival a) := by
  unfold handleArrival
  apply h.bind fun w => harrive w a.found
  intro _
  exact h.tryCatch (moves_serve h _ _) fun _ => h.pure _

/-- **Runs of requests**, where what a request finds may have changed except for the table. -/
theorem moves_handleArrivals (arrivals : List Arrival) :
    Prog.Moves R (gw.handleArrivals arrivals) := by
  induction arrivals with
  | nil => exact h.pure _
  | cons a arrivals ih =>
    rw [handleArrivals]
    exact h.bind (moves_handleArrival h harrive a) fun _ => ih

end Gateway

end AiSwitch
