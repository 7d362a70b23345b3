import AiSwitch.Main

/-!
# The session

`session::handle_request` (`server/session.cpp`): the middleware chain first, then a branch that
looks at the body of the request alone and starts a stream, and the router for everything that the
branch leaves. The branch runs inside `catch (...)`, the rest does not.

A stream is started by writing its header. When that has been written the task of `StreamTask` runs
and calls the adapter.
-/

namespace AiSwitch

open ByteString Effect Nlohmann Http

/-- How the streaming branch ends: it wrote a response, started a stream that an adapter is to
serve, or left the request to the router. -/
inductive StreamBranch (gw : Gateway) where
  | answered
  | started (ai : Fin gw.adapters.length) (body : Json)
  | notTaken

namespace Gateway

variable (gw : Gateway)

/-- `do_write` -/
def doWrite (res : Response) : Act Unit := emit (.doWrite res)

/-- The `try` block of `handle_request` from the selection of the adapter on. -/
def startStream (req : Request) (body : Json) (model : Bytes) : Act (StreamBranch gw) :=
  match gw.adapters.create model with
  | none => do
    let res ← gw.errorResponse .badRequest "unsupported_model" (utf8 "不支持的模型: " ++ model)
      req.toRequestHeader
    doWrite res
    return .answered
  | some ai => do
    emit (.startStream req.version req.keepAlive)
    return .started ai body

/-- The `try` block of `handle_request`. -/
def streamBranch (req : Request) : Act (StreamBranch gw) := do
  let body ← Prog.lift (gw.lib.parse req.body)
  let wantStream ← Prog.lift (body.value "stream" Json.getBool false)
  if wantStream ∧ gw.adapters.count > 0 then
    Prog.modify fun w => { w with isStreaming := true }
    let model ← Prog.lift (body.value "model" Json.getString (utf8 "deepseek-chat"))
    gw.startStream req body model
  else
    return .notTaken

/-- The end of `handle_request`: the router answers. -/
def route (req : Request) : Act (Option (Fin gw.adapters.length × Json)) := do
  let res ← gw.router.dispatch gw.lib req
  doWrite res
  return none

/-- `handle_request`, with the stream that it has started. -/
def handleRequest (req : Request) : Act (Option (Fin gw.adapters.length × Json)) := do
  let ctx ← gw.processChain (freshContext req.toRequestHeader)
  if ctx.terminated then
    match ctx.response with
    | some res =>
      doWrite res
      return none
    | none => Prog.throw (.badOptionalAccess (utf8 "bad optional access"))
  else
    match ← Prog.tryCatch (gw.streamBranch req) fun _ => return .notTaken with
    | .answered => return none
    | .started ai body => return some (ai, body)
    | .notTaken => gw.route req

/-- A request with what follows it: once the header of a stream has been written, the pool task
calls the adapter. -/
def serve (req : Request) (headerWritten : Bool) : Act Unit := do
  match ← gw.handleRequest req with
  | some (ai, body) =>
    if headerWritten then
      Prog.modify fun w => { w with streamHeadersSent := true }
      emit (.chatCompletionStream ai body)
  | none => return ()

/-! ## The streaming branch -/

/-- The streaming branch takes the request: its body parses to a document that asks for a stream
and names a model, or none. -/
structure Streams (req : Request) (body : Json) (model : Bytes) : Prop where
  parsed : gw.lib.tryParse req.body = .ok body
  wanted : body.value "stream" Json.getBool false = .ok true
  adapters : gw.adapters ≠ []
  model_eq : body.value "model" Json.getString (utf8 "deepseek-chat") = .ok model

variable {gw} {w : World} {req : Request} {body : Json} {model : Bytes}

/-- A body that the non-throwing parser reads is read by the throwing one alike. -/
theorem parse_of_tryParse {t : Bytes} (h : gw.lib.tryParse t = .ok body) :
    gw.lib.parse t = .ok body := by
  rw [Lib.parse, parseBy, h]

/-- The body and the model are those of the request. -/
theorem Streams.unique {body' : Json} {model' : Bytes} (h : gw.Streams req body model)
    (h' : gw.Streams req body' model') : body' = body ∧ model' = model := by
  have hbody : body' = body := Except.ok.inj (h'.parsed.symm.trans h.parsed)
  subst hbody
  exact ⟨rfl, Outcome.ok.inj (h'.model_eq.symm.trans h.model_eq)⟩

/-- A model name that was read from a parsed body is text. -/
theorem validUtf8_model {t : Bytes} (h : gw.lib.tryParse t = .ok body) {default : String}
    (hmodel : body.value "model" Json.getString (utf8 default) = .ok model) : ValidUtf8 model :=
  Json.validUtf8_of_value (gw.lib.valid_of_tryParse h) (validUtf8_utf8 default) hmodel

/-- On a body that asks for a stream the branch is `startStream`. -/
theorem streamBranch_of_streams (h : gw.Streams req body model) :
    gw.streamBranch req w = gw.startStream req body model { w with isStreaming := true } := by
  have hcount : gw.adapters.count > 0 := List.length_pos_iff.mpr h.adapters
  unfold streamBranch
  rw [parse_of_tryParse h.parsed, Prog.lift_ok_bind, h.wanted, Prog.lift_ok_bind,
    if_pos ⟨rfl, hcount⟩, Prog.modify_bind_apply, h.model_eq, Prog.lift_ok_bind]

/-- A stream for which no adapter is registered is refused. -/
theorem startStream_of_none (h : gw.Streams req body model)
    (hcreate : gw.adapters.create model = none) :
    gw.startStream req body model w = (.ok .answered,
      { w with trace := w.trace ++ [.doWrite (gw.errorResult .badRequest "unsupported_model"
        (utf8 "不支持的模型: " ++ model) req.toRequestHeader)] }) := by
  have hmessage : ValidUtf8 (utf8 "不支持的模型: " ++ model) :=
    (validUtf8_utf8 _).append (validUtf8_model h.parsed h.model_eq)
  unfold startStream
  rw [hcreate]
  exact Prog.bind_of_ok (gw.errorResponse_of_validUtf8 hmessage _ _ _ _) _

/-- With an adapter for its model the stream is started. -/
theorem startStream_of_some {ai : Fin gw.adapters.length}
    (hcreate : gw.adapters.create model = some ai) :
    gw.startStream req body model w = (.ok (.started ai body),
      { w with trace := w.trace ++ [.startStream req.version req.keepAlive] }) := by
  unfold startStream
  rw [hcreate]
  rfl

/-- A value that is read as a truth value or a string is read or refused. -/
theorem value_ne_ub {α : Type} {get : Json → Outcome Exn α} (hget : ∀ v, get v ≠ .ub)
    (body : Json) (key : String) (default : α) : body.value key get default ≠ .ub := by
  cases body with
  | object fs =>
    rw [Json.value]
    cases fs.lookup (utf8 key) with
    | none => simp
    | some v => exact hget v
  | _ => simp [Json.value]

/-- The request asks for a stream, as far as the branch looks before it sets the flag. -/
structure AsksStream (gw : Gateway) (req : Request) (body : Json) : Prop where
  parsed : gw.lib.tryParse req.body = .ok body
  wanted : body.value "stream" Json.getBool false = .ok true
  adapters : gw.adapters ≠ []

/-- On any other body the branch is not taken, whatever it threw. -/
theorem tryCatch_streamBranch_of_not_asks (h : ¬ ∃ body, AsksStream gw req body) :
    Prog.tryCatch (gw.streamBranch req) (fun _ => pure .notTaken) w = (.ok .notTaken, w) := by
  unfold streamBranch
  cases hparse : gw.lib.tryParse req.body with
  | error e =>
    have hthrow : gw.lib.parse req.body = .throw e.exn := by rw [Lib.parse, parseBy, hparse]
    rw [hthrow]
    rfl
  | ok body =>
    rw [parse_of_tryParse hparse, Prog.lift_ok_bind]
    cases hstream : body.value "stream" Json.getBool false with
    | ub => exact absurd hstream (value_ne_ub (fun v => by cases v <;> simp) _ _ _)
    | throw e => rfl
    | ok wantStream =>
      have hwant : ¬ (wantStream = true ∧ gw.adapters.count > 0) := fun hwant =>
        h ⟨body, hparse, by rw [hstream, hwant.1], List.length_pos_iff.mp hwant.2⟩
      rw [Prog.lift_ok_bind, if_neg hwant]
      rfl

/-- A model name that is not a string is noticed after the flag has been set. -/
theorem tryCatch_streamBranch_of_unreadable (h : AsksStream gw req body) {e : Exn}
    (hmodel : body.value "model" Json.getString (utf8 "deepseek-chat") = .throw e) :
    Prog.tryCatch (gw.streamBranch req) (fun _ => pure .notTaken) w
      = (.ok .notTaken, { w with isStreaming := true }) := by
  have hcount : gw.adapters.count > 0 := List.length_pos_iff.mpr h.adapters
  unfold streamBranch
  rw [parse_of_tryParse h.parsed, Prog.lift_ok_bind, h.wanted, Prog.lift_ok_bind,
    if_pos ⟨rfl, hcount⟩, hmodel]
  rfl

/-- A request that the branch does not take is left to the router, with no trace of the attempt but
the flag. -/
theorem tryCatch_streamBranch_of_not_streams (h : ¬ ∃ body model, gw.Streams req body model) :
    ∃ flag, Prog.tryCatch (gw.streamBranch req) (fun _ => pure .notTaken) w
      = (.ok .notTaken, { w with isStreaming := flag }) := by
  by_cases hasks : ∃ body, AsksStream gw req body
  swap
  · exact ⟨w.isStreaming, tryCatch_streamBranch_of_not_asks hasks⟩
  obtain ⟨body, hasks⟩ := hasks
  cases hmodel : body.value "model" Json.getString (utf8 "deepseek-chat") with
  | ub => exact absurd hmodel (value_ne_ub (fun v => by cases v <;> simp) _ _ _)
  | throw e => exact ⟨true, tryCatch_streamBranch_of_unreadable hasks hmodel⟩
  | ok model =>
    exact absurd ⟨body, model, hasks.parsed, hasks.wanted, hasks.adapters, hmodel⟩ h

/-! ## How a request is handled

Every request ends in one of five ways: in undefined behaviour of the chain, in an answer of the
chain, in a refused stream, in a started stream, or with the router.
-/

section

open Middleware

variable {bucket : TokenBucket}

/-- What the chain does not define, no body does. -/
theorem handleRequest_of_not_defined {header : RequestHeader}
    (hdef : ¬ ChainDefined gw w bucket header) :
    ∃ w', (∀ e ∈ w'.trace, e ∈ lookups gw w header) ∧
      ∀ body, gw.handleRequest ⟨header, body⟩ (w.inMain bucket) = (.ub, w') := by
  obtain ⟨w', hchain, htrace⟩ := processChain_of_not_defined gw w hdef
  exact ⟨w', htrace, fun body => Prog.bind_of_ub hchain _⟩

/-- The chain answers whatever the body is. -/
theorem handleRequest_of_not_admitted {header : RequestHeader}
    (hdef : ChainDefined gw w bucket header) (hadm : ¬ Admitted gw w bucket header) :
    ∃ res w', gw.IsErrorResult header res ∧ w'.trace = lookups gw w header ++ [.doWrite res] ∧
      ∀ body, gw.handleRequest ⟨header, body⟩ (w.inMain bucket) = (.ok none, w') := by
  obtain ⟨ctx, res, w', hchain, hterm, hres, herror, htrace⟩ :=
    processChain_of_not_admitted gw w hdef hadm
  refine ⟨res, { w' with trace := w'.trace ++ [.doWrite res] }, herror, by rw [htrace], ?_⟩
  intro body
  unfold handleRequest
  rw [Prog.bind_of_ok hchain, if_pos hterm, hres]
  rfl

/-- A request that is let through reaches the streaming branch. -/
theorem handleRequest_of_admitted (hdef : ChainDefined gw w bucket req.toRequestHeader)
    (hadm : Admitted gw w bucket req.toRequestHeader) :
    ∃ w', w'.trace = lookups gw w req.toRequestHeader ∧
      (Whitelisted req.target → w'.db = w.db) ∧
      gw.handleRequest req (w.inMain bucket) = (do
        match ← Prog.tryCatch (gw.streamBranch req) fun _ => return .notTaken with
        | .answered => return none
        | .started ai body => return some (ai, body)
        | .notTaken => gw.route req : Act _) w' := by
  obtain ⟨ctx, w', hchain, hterm, htrace, hdb⟩ := processChain_of_admitted gw w hdef hadm
  refine ⟨w', htrace, hdb, ?_⟩
  unfold handleRequest
  rw [Prog.bind_of_ok hchain, if_neg (by simp [hterm])]

/-- A stream that no adapter serves is answered at once. -/
theorem handleRequest_of_streams_none (h : gw.Streams req body model)
    (hdef : ChainDefined gw w bucket req.toRequestHeader)
    (hadm : Admitted gw w bucket req.toRequestHeader) (hcreate : gw.adapters.create model = none) :
    ∃ w', gw.handleRequest req (w.inMain bucket) = (.ok none, w') ∧
      w'.trace = lookups gw w req.toRequestHeader ++
        [.doWrite (gw.errorResult .badRequest "unsupported_model"
          (utf8 "不支持的模型: " ++ model) req.toRequestHeader)] := by
  obtain ⟨w', htrace, -, hreq⟩ := handleRequest_of_admitted hdef hadm
  have hbranch := (streamBranch_of_streams h).trans
    (startStream_of_none (w := { w' with isStreaming := true }) h hcreate)
  rw [hreq, Prog.bind_of_ok (Prog.tryCatch_of_ok hbranch _)]
  exact ⟨_, rfl, by rw [htrace]⟩

/-- A stream that an adapter serves is handed to the pool. -/
theorem handleRequest_of_streams_some (h : gw.Streams req body model)
    (hdef : ChainDefined gw w bucket req.toRequestHeader)
    (hadm : Admitted gw w bucket req.toRequestHeader) {ai : Fin gw.adapters.length}
    (hcreate : gw.adapters.create model = some ai) :
    ∃ w', gw.handleRequest req (w.inMain bucket) = (.ok (some (ai, body)), w') ∧
      w'.trace = lookups gw w req.toRequestHeader ++ [.startStream req.version req.keepAlive] := by
  obtain ⟨w', htrace, -, hreq⟩ := handleRequest_of_admitted hdef hadm
  have hbranch := (streamBranch_of_streams h).trans
    (startStream_of_some (w := { w' with isStreaming := true }) hcreate)
  rw [hreq, Prog.bind_of_ok (Prog.tryCatch_of_ok hbranch _)]
  exact ⟨_, rfl, by rw [htrace]⟩

/-- An admitted request that asks for no stream reaches the router. -/
theorem handleRequest_of_not_streams (h : ¬ ∃ body model, gw.Streams req body model)
    (hdef : ChainDefined gw w bucket req.toRequestHeader)
    (hadm : Admitted gw w bucket req.toRequestHeader) :
    ∃ w', w'.trace = lookups gw w req.toRequestHeader ∧
      (Whitelisted req.target → w'.db = w.db) ∧
      gw.handleRequest req (w.inMain bucket) = gw.route req w' := by
  obtain ⟨w', htrace, hdb, hreq⟩ := handleRequest_of_admitted hdef hadm
  obtain ⟨flag, hbranch⟩ := tryCatch_streamBranch_of_not_streams (w := w') h
  refine ⟨{ w' with isStreaming := flag }, htrace, hdb, ?_⟩
  rw [hreq, Prog.bind_of_ok hbranch]

end

/-! ## With what follows -/

/-- The state after a request and what follows it, from a state in which nothing was recorded. -/
def served (gw : Gateway) (w : World) (bucket : TokenBucket) (req : Request)
    (headerWritten : Bool) : World :=
  (gw.serve req headerWritten (w.inMain bucket)).2

variable {bucket : TokenBucket} (headerWritten : Bool)

/-- Where no stream was started nothing follows. -/
theorem served_of_not_started {w' : World}
    {r : Outcome Exn (Option (Fin gw.adapters.length × Json))}
    (h : gw.handleRequest req (w.inMain bucket) = (r, w')) (hr : ∀ s, r ≠ .ok (some s)) :
    served gw w bucket req headerWritten = w' := by
  unfold served serve
  cases r with
  | ok s =>
    cases s with
    | none => rw [Prog.bind_of_ok h]; rfl
    | some s => exact absurd rfl (hr s)
  | throw e => rw [Prog.bind_of_throw h]
  | ub => rw [Prog.bind_of_ub h]

/-- A started stream reaches its adapter when the header has been written. -/
theorem served_of_started {ai : Fin gw.adapters.length} {body : Json} {w' : World}
    (h : gw.handleRequest req (w.inMain bucket) = (.ok (some (ai, body)), w')) :
    (served gw w bucket req headerWritten).trace
      = w'.trace ++ if headerWritten then [.chatCompletionStream ai body] else [] := by
  unfold served serve
  rw [Prog.bind_of_ok h]
  cases headerWritten with
  | false => exact (List.append_nil _).symm
  | true => rfl

/-- The router starts no stream. -/
theorem route_ne_started (s : Fin gw.adapters.length × Json) :
    (gw.route req w).1 ≠ .ok (some s) := by
  unfold route
  rw [Prog.bind_apply]
  rcases gw.router.dispatch gw.lib req w with ⟨res | e | _, w'⟩ <;> simp [doWrite]

/-- A request that is handed to the router is served as the router serves it. -/
theorem served_of_routed {w' : World}
    (h : gw.handleRequest req (w.inMain bucket) = gw.route req w') :
    served gw w bucket req headerWritten = (gw.route req w').2 :=
  served_of_not_started headerWritten h route_ne_started

/-- The router's answer is written once. -/
theorem trace_route_of_ok {res : Response} {w' : World}
    (h : gw.router.dispatch gw.lib req w = (.ok res, w')) :
    (gw.route req w).2.trace = w'.trace ++ [.doWrite res] := by
  unfold route
  rw [Prog.bind_of_ok h]
  rfl

/-- What throws is not answered. -/
theorem trace_route_of_throw {e : Exn} {w' : World}
    (h : gw.router.dispatch gw.lib req w = (.throw e, w')) :
    (gw.route req w).2.trace = w'.trace := by
  unfold route
  rw [Prog.bind_of_throw h]

variable (gw) in
/-- The answer comes after everything that the handler records. -/
theorem exists_trace_route_eq (w : World) (req : Request) :
    ∃ answers, (gw.route req w).2.trace = (gw.router.dispatch gw.lib req w).2.trace ++ answers ∧
      ∀ e ∈ answers, ∃ res, e = .doWrite res := by
  rcases h : gw.router.dispatch gw.lib req w with ⟨res | e | _, w'⟩
  · exact ⟨[.doWrite res], trace_route_of_ok h, by simp⟩
  · exact ⟨[], by rw [trace_route_of_throw h, List.append_nil], by simp⟩
  · refine ⟨[], ?_, by simp⟩
    unfold route
    rw [Prog.bind_of_ub h, List.append_nil]

/-- The router records nothing but what a route may record. -/
theorem records_route (req : Request) :
    Records (Event.InRoute req.toRequestHeader) (gw.route req) := by
  unfold route
  refine follows_recorded.bind (records_mono (gw.records_dispatch req) fun e => .inl) fun res => ?_
  exact follows_recorded.emit_bind (.inr ⟨res, rfl⟩) (follows_recorded.pure _)

end Gateway

end AiSwitch
