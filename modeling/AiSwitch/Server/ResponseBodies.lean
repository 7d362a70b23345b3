import AiSwitch.Common.JsonDump
import AiSwitch.Server.RequestRule

/-!
# What clients read

Middlewares, handlers, session and router build their responses each for themselves, of texts that
quote what a client or a provider has sent. `responses_readable` says what all responses have in
common, whoever builds them: the body is a JSON text, and one of an error with a code that goes with
the status where the status is not 200. So a client that parses every body, and looks up the code of
an error, is never at a loss.
-/

namespace AiSwitch

open ByteString Effect Nlohmann Nlohmann.Json Http

/-- The codes of errors, with the status of the responses that carry them. -/
def errorStatuses : List (String × Status) :=
  [("auth_failed", .unauthorized), ("service_unavailable", .serviceUnavailable),
    ("rate_limited", .tooManyRequests), ("no_ai_configured", .serviceUnavailable),
    ("unsupported_model", .badRequest), ("provider_error", .badGateway),
    ("invalid_json", .badRequest), ("missing_name", .badRequest), ("invalid_id", .badRequest),
    ("not_found", .notFound)]

/-- A client can read the response to its request: head and length are as they should be, and the
body denotes a document, which reports an error unless the status is 200. -/
structure Readable (fractions : Bytes → ℚ → Prop) (req : RequestHeader) (res : Response) :
    Prop where
  eq_makeResponse : res = makeResponse res.status req.version req.keepAlive res.body
  denotes : ∃ j, Denotes fractions res.body j ∧ (res.status = .ok ∨
    ∃ code message, (code, res.status) ∈ errorStatuses ∧ j = errorDocument code message)

/-- What is written as a response can be read. -/
def Event.WritesReadable (fractions : Bytes → ℚ → Prop) (req : RequestHeader) : Event → Prop
  | doWrite res => Readable fractions req res
  | findApiKey _ _ | createApiKey _ _ | listApiKeys | disableApiKey _ | handler _
  | chatCompletion _ _ | chatCompletionStream _ _ | startStream _ _ => True

/-- An error reads as it has been written. -/
theorem normal_errorDocument (code : String) (message : Bytes) :
    (errorDocument code message).normal = errorDocument code message := rfl

section

variable {gw : Gateway} {fractions : Bytes → ℚ → Prop}
  (hwrites : WritesFractions gw.lib fractions)

include hwrites

/-- An error response with a code of the table for its status is readable. -/
theorem yields_errorResponse {status : Status} {code : String}
    (h : (code, status) ∈ errorStatuses) (message : Bytes) (req : RequestHeader) :
    Prog.Yields (Readable fractions req) (gw.errorResponse status code message req) := by
  refine Prog.yields_lift fun res hres => ?_
  obtain ⟨t, ht, hres⟩ := Outcome.bind_eq_ok_iff.mp hres
  cases hres
  refine ⟨rfl, _, denotes_of_dump hwrites ht, .inr ⟨code, message, h, ?_⟩⟩
  exact normal_errorDocument code message

/-- The response of a document is readable. -/
theorem yields_jsonResponse (body : Json) (req : RequestHeader) :
    Prog.Yields (Readable fractions req) (gw.jsonResponse body req) := by
  refine Prog.Yields.bind (Prog.yields_lift fun t ht => ht) fun t ht => Prog.yields_pure ?_
  exact ⟨rfl, _, denotes_of_dump hwrites ht, .inl rfl⟩

/-! ## The middlewares -/

/-- The context is that of the request, and what it has for a response can be read. -/
def ReadableContext (fractions : Bytes → ℚ → Prop) (req : RequestHeader) (ctx : Context) : Prop :=
  ctx.request = req ∧ ∀ res, ctx.response = some res → Readable fractions req res

variable {req : RequestHeader} {ctx : Context} (hctx : ReadableContext fractions req ctx)

include hctx

/-- A rejection with such a code holds a readable response. -/
theorem yields_rejectWith {status : Status} {code : String}
    (h : (code, status) ∈ errorStatuses) (message : String) :
    Prog.Yields (ReadableContext fractions req) (ctx.rejectWith gw status code message) := by
  obtain ⟨rfl, -⟩ := hctx
  refine (yields_errorResponse hwrites h _ _).bind fun res hres => Prog.yields_pure ⟨rfl, ?_⟩
  rintro _ ⟨⟩
  exact hres

/-- The authentication rejects with a readable response. -/
theorem yields_auth : Prog.Yields (ReadableContext fractions req)
    (Middleware.auth.process gw ctx) := by
  unfold Middleware.auth.process
  dsimp only
  split_ifs
  · exact Prog.yields_pure hctx
  · exact yields_rejectWith hwrites hctx (by decide) _
  · refine Prog.yields_bind fun result => Prog.yields_bind fun _ => ?_
    unfold Middleware.auth.judge
    split_ifs
    · exact yields_rejectWith hwrites hctx (by decide) _
    · exact yields_rejectWith hwrites hctx (by decide) _
    · exact Prog.yields_pure hctx

/-- The limiter rejects with a readable response. -/
theorem yields_rateLimiter (bucket : TokenBucket) :
    Prog.Yields (fun r => ReadableContext fractions req r.1)
      (Middleware.rateLimiter.process gw bucket ctx) := by
  unfold Middleware.rateLimiter.process
  refine Prog.yields_bind fun now => Prog.yields_bind fun _ => Prog.yields_bind fun acquired => ?_
  split_ifs
  · exact Prog.yields_pure hctx
  · exact (yields_rejectWith hwrites hctx (by decide) _).bind fun ctx hctx =>
      Prog.yields_pure hctx

/-- Every middleware that rejects does so with a readable response. -/
theorem yields_process (mw : Middleware) : Prog.Yields
    (fun r => ReadableContext fractions req r.1) (Middleware.process gw ctx mw) := by
  cases mw with
  | auth => exact (yields_auth hwrites hctx).bind fun ctx hctx => Prog.yields_pure hctx
  | rateLimiter bucket =>
    exact (yields_rateLimiter hwrites hctx bucket).bind fun r hr => Prog.yields_pure hr
  | log => exact Prog.yields_pure hctx

omit hctx in
/-- Several middlewares that reject do so with a readable response. -/
theorem yields_processAll (mws : List Middleware) {ctx : Context}
    (hctx : ReadableContext fractions req ctx) : Prog.Yields
      (fun r => ReadableContext fractions req r.1) (Middleware.processAll gw mws ctx) := by
  induction mws generalizing ctx with
  | nil => exact Prog.yields_pure hctx
  | cons mw mws ih =>
    refine (yields_process hwrites hctx mw).bind fun r hr => ?_
    split_ifs
    · exact Prog.yields_pure hr
    · exact (ih hr).bind fun rs hrs => Prog.yields_pure hrs

/-- What the chain answers is readable. -/
theorem yields_processChain : Prog.Yields (ReadableContext fractions req)
    (gw.processChain ctx) := by
  refine Prog.yields_bind fun chain => ?_
  refine (yields_processAll hwrites chain hctx).bind fun r hr => ?_
  exact Prog.yields_bind fun _ => Prog.yields_pure hr

end

/-! ## The handlers -/

section

variable {gw : Gateway} {fractions : Bytes → ℚ → Prop}
  (hwrites : WritesFractions gw.lib fractions)

include hwrites

/-- The answer to a chat request is readable, whether the adapter is called or not. -/
theorem yields_chatWith (body : Json) (req : RequestHeader) :
    Prog.Yields (Readable fractions req) (gw.chatWith body req) := by
  unfold Gateway.chatWith
  split_ifs
  · exact yields_errorResponse hwrites (by decide) _ _
  · refine Prog.yields_bind fun model => ?_
    split
    · exact yields_errorResponse hwrites (by decide) _ _
    · refine Prog.Yields.tryCatch ?_ fun e => yields_errorResponse hwrites (by decide) _ _
      exact Prog.yields_bind fun _ => Prog.yields_bind fun doc => yields_jsonResponse hwrites _ _

/-- The answer to a creation is readable. -/
theorem yields_createKeyWith (body : Json) (req : RequestHeader) :
    Prog.Yields (Readable fractions req) (gw.createKeyWith body req) := by
  refine Prog.yields_bind fun name => Prog.yields_bind fun rateLimit => ?_
  split_ifs
  · exact yields_errorResponse hwrites (by decide) _ _
  · exact Prog.yields_bind fun _ => Prog.yields_bind fun key => yields_jsonResponse hwrites _ _

/-- The answer to a request to disable a key is readable. -/
theorem yields_disableKeyWith (body : Json) (req : RequestHeader) :
    Prog.Yields (Readable fractions req) (gw.disableKeyWith body req) := by
  refine Prog.yields_bind fun id => ?_
  split_ifs
  · exact yields_errorResponse hwrites (by decide) _ _
  · refine Prog.yields_bind fun _ => Prog.yields_bind fun disabled => ?_
    split_ifs
    · exact yields_jsonResponse hwrites _ _
    · exact yields_errorResponse hwrites (by decide) _ _

/-- The refusal of a request without the master key is readable. -/
theorem yields_requireAdmin {k : Act Response} {req : RequestHeader}
    (hk : Prog.Yields (Readable fractions req) k) :
    Prog.Yields (Readable fractions req) (gw.requireAdmin req k) := by
  unfold Gateway.requireAdmin
  split_ifs
  · exact hk
  · exact yields_errorResponse hwrites (by decide) _ _

/-- The refusal of a body that does not parse is readable. -/
theorem yields_requireJson {k : Json → Act Response} {req : Request}
    (hk : ∀ body, Prog.Yields (Readable fractions req.toRequestHeader) (k body))
    (message : String) :
    Prog.Yields (Readable fractions req.toRequestHeader) (gw.requireJson req message k) := by
  unfold Gateway.requireJson
  split
  · exact hk _
  · exact yields_errorResponse hwrites (by decide) _ _
  · exact Prog.yields_ub

/-- Every handler answers with a readable response. -/
theorem yields_handlerOf (r : Route) (req : Request) :
    Prog.Yields (Readable fractions req.toRequestHeader) (gw.handlerOf r req) := by
  cases r with
  | health => exact Prog.yields_bind fun _ => yields_jsonResponse hwrites _ _
  | chat =>
    refine Prog.yields_bind fun _ => ?_
    split
    · exact yields_chatWith hwrites _ _
    · exact yields_errorResponse hwrites (by decide) _ _
    · exact Prog.yields_throw _
    · exact Prog.yields_ub
  | createKey =>
    exact Prog.yields_bind fun _ => yields_requireAdmin hwrites <|
      yields_requireJson hwrites (fun body => yields_createKeyWith hwrites body _) _
  | listKeys =>
    exact Prog.yields_bind fun _ => yields_requireAdmin hwrites <|
      Prog.yields_bind fun _ => Prog.yields_bind fun keys => yields_jsonResponse hwrites _ _
  | disableKey =>
    exact Prog.yields_bind fun _ => yields_requireAdmin hwrites <|
      yields_requireJson hwrites (fun body => yields_disableKeyWith hwrites body _) _

/-- The router answers with a readable response, also where it finds no route. -/
theorem yields_dispatch (req : Request) :
    Prog.Yields (Readable fractions req.toRequestHeader) (gw.router.dispatch gw.lib req) := by
  cases hr : routeOf req.method req.target with
  | none =>
    rw [gw.dispatch_of_none hr]
    exact yields_errorResponse hwrites (by decide) _ _
  | some r =>
    rw [gw.dispatch_of_some hr]
    exact yields_handlerOf hwrites r req

end

/-! ## The session -/

/-- What a handler records is no response. -/
theorem Event.InHandler.writesReadable {r : Route} {e : Event} (h : e.InHandler r)
    (fractions : Bytes → ℚ → Prop) (req : RequestHeader) : e.WritesReadable fractions req := by
  cases e with
  | doWrite res => exact h.elim
  | _ => trivial

namespace Gateway

variable {gw : Gateway} {fractions : Bytes → ℚ → Prop} (req : Request)

/-- A readable response that is then written is a permitted record. -/
theorem writesReadable_bind {α : Type} {x : Act Response} {f : Unit → Act α}
    (hx : Records (Event.WritesReadable fractions req.toRequestHeader) x)
    (hyields : Prog.Yields (Readable fractions req.toRequestHeader) x)
    (hf : Records (Event.WritesReadable fractions req.toRequestHeader) (f ())) :
    Records (Event.WritesReadable fractions req.toRequestHeader)
      (x >>= fun res => doWrite res >>= f) :=
  Prog.Moves.bind_of_yields recorded_trans hx hyields fun res hres =>
    follows_recorded.emit_bind (e := .doWrite res) hres hf

variable (hwrites : WritesFractions gw.lib fractions)

include hwrites

/-- The streaming branch writes only readable responses. -/
theorem writesReadable_streamBranch :
    Records (Event.WritesReadable fractions req.toRequestHeader) (gw.streamBranch req) := by
  unfold streamBranch
  apply follows_recorded.bind (follows_recorded.lift _)
  intro body
  apply follows_recorded.bind (follows_recorded.lift _)
  intro wantStream
  split_ifs
  · apply follows_recorded.bind fun w => recorded_of_trace_eq rfl
    intro _
    apply follows_recorded.bind (follows_recorded.lift _)
    intro model
    unfold startStream
    split
    · exact writesReadable_bind req
        (gw.moves_errorResponse follows_recorded.toTracks _ _ _ _)
        (yields_errorResponse hwrites (by decide) _ _) (follows_recorded.pure _)
    · exact follows_recorded.emit_bind trivial (follows_recorded.pure _)
  · exact follows_recorded.pure _

/-- The session writes only readable responses. -/
theorem writesReadable_handleRequest :
    Records (Event.WritesReadable fractions req.toRequestHeader) (gw.handleRequest req) := by
  have hchain : Prog.Yields (ReadableContext fractions req.toRequestHeader)
      (gw.processChain (freshContext req.toRequestHeader)) :=
    yields_processChain hwrites ⟨rfl, by rintro res ⟨⟩⟩
  unfold handleRequest
  refine Prog.Moves.bind_of_yields recorded_trans (moves_processChain follows_recorded.toTracks gw
    (fun _ => gw.moves_repository follows_recorded _) (fun _ _ => trivial) _) hchain ?_
  intro ctx hctx
  split_ifs
  · split
    · rename_i res hres
      exact follows_recorded.emit_bind (hctx.2 res hres) (follows_recorded.pure _)
    · exact follows_recorded.throw _
  · apply follows_recorded.bind (follows_recorded.tryCatch
      (writesReadable_streamBranch req hwrites) fun _ => follows_recorded.pure _)
    intro branch
    cases branch with
    | answered => exact follows_recorded.pure _
    | started ai body => exact follows_recorded.pure _
    | notTaken =>
      refine writesReadable_bind req ?_ (yields_dispatch hwrites req)
        (follows_recorded.pure _)
      exact records_mono (gw.records_dispatch req) fun e he => by
        obtain ⟨r, -, hr⟩ := he
        exact hr.writesReadable fractions _

/-- **One request.** -/
theorem writesReadable_handleArrival (a : Arrival) :
    Records (Event.WritesReadable fractions a.request.toRequestHeader) (gw.handleArrival a) := by
  unfold handleArrival serve
  apply follows_recorded.bind fun w => recorded_of_trace_eq rfl
  intro _
  refine follows_recorded.tryCatch ?_ fun _ => follows_recorded.pure _
  apply follows_recorded.bind (writesReadable_handleRequest a.request hwrites)
  intro started
  split
  · split_ifs
    · apply follows_recorded.bind fun w => recorded_of_trace_eq rfl
      intro _
      exact follows_recorded.emit trivial
    · exact follows_recorded.pure _
  · exact follows_recorded.pure _

/-- Every response that a run of requests writes is readable for one of them. -/
theorem writesReadable_handleArrivals (arrivals : List Arrival) :
    Records (fun e => ∃ a ∈ arrivals, e.WritesReadable fractions a.request.toRequestHeader)
      (gw.handleArrivals arrivals) := by
  induction arrivals with
  | nil => exact follows_recorded.pure _
  | cons a arrivals ih =>
    rw [handleArrivals]
    apply follows_recorded.bind (records_mono (writesReadable_handleArrival hwrites a)
      fun e he => ⟨a, List.mem_cons_self, he⟩)
    intro _
    refine records_mono ih fun e he => ?_
    obtain ⟨b, hb, he⟩ := he
    exact ⟨b, List.mem_cons_of_mem a hb, he⟩

omit hwrites in
/-- **All responses can be read.** For every gateway, every run of requests, up to one without
defined behaviour, and every state to start from: each response that is written answers one of the
requests with the right head, and its body is a JSON text, of an error with a code of the table for
the status unless the status is 200. -/
theorem responses_readable (gw : Gateway) (fractions : Bytes → ℚ → Prop)
    (hwrites : WritesFractions gw.lib fractions) (arrivals : List Arrival) (w : World) :
    ∃ events, (gw.handleArrivals arrivals w).2.trace = w.trace ++ events ∧
      ∀ res, .doWrite res ∈ events →
        ∃ a ∈ arrivals, Readable fractions a.request.toRequestHeader res := by
  obtain ⟨events, htrace, hevents⟩ := writesReadable_handleArrivals hwrites arrivals w
  exact ⟨events, htrace, fun res hres => hevents _ hres⟩

omit hwrites in
/-- The theorem at a request with a key that the table does not have. -/
theorem responses_readable_k :
    ∃ events, (withBody.handleArrivals [chatArrival "Bearer k"] World.small).2.trace
        = World.small.trace ++ events ∧
      ∀ res, .doWrite res ∈ events → ∃ a ∈ [chatArrival "Bearer k"],
        Readable (fun t x => t = utf8 (withBody.lib.floatText x)) a.request.toRequestHeader res :=
  responses_readable withBody _ (fun _ => rfl) _ _

end Gateway

end AiSwitch
