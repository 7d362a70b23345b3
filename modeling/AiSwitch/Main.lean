import AiSwitch.Middleware.Chain

/-!
# The route handlers

The handlers that `main` (`main.cpp`) registers with the router. Each of them parses the body for
itself where it needs one, and guards only part of what it does: reading a member of a document that
is not an object, or of the wrong type, and serialising a text that is not UTF-8 leave a handler as
exceptions, and the database operations need a connection.
-/

namespace AiSwitch

open ByteString Effect Nlohmann Http

namespace Gateway

variable (gw : Gateway)

/-- `make_json_response` with a document. -/
def jsonResponse (body : Json) (req : RequestHeader) : Act Response := do
  return makeJsonResponse (← Prog.lift (gw.lib.dump body)) req.version req.keepAlive

/-- `handle_health` -/
def handleHealth : Handler World := fun req => do
  emit (.handler .health)
  gw.jsonResponse (.obj [("status", .lit "ok"), ("version", .lit "1.0.0"),
    ("service", .lit "AI-switch")]) req.toRequestHeader

/-! ## `POST /api/chat` -/

/-- The call of the adapter. -/
def callAdapter (ai : Fin gw.adapters.length) (requestBody : Json) (req : RequestHeader) :
    Act Response :=
  Prog.tryCatch
    (do
      emit (.chatCompletion ai requestBody)
      gw.jsonResponse (← Prog.lift (gw.adapters[ai].chatCompletion requestBody)) req)
    fun e =>
      gw.errorResponse .badGateway "provider_error" (utf8 "AI 服务响应错误: " ++ cstr e.what) req

/-- The handler from the parsed body on. -/
def chatWith (requestBody : Json) (req : RequestHeader) : Act Response :=
  if gw.adapters.count = 0 then
    gw.errorResponse .serviceUnavailable "no_ai_configured"
      (utf8 "服务未配置任何 AI 模型, 请先设置 API Key") req
  else do
    let model ← Prog.lift (requestBody.value "model" Json.getString (utf8 "deepseek-v4-flash"))
    match gw.adapters.create model with
    | none =>
      gw.errorResponse .badRequest "unsupported_model" (utf8 "不支持的模型: " ++ model) req
    | some ai => gw.callAdapter ai requestBody req

/-- The handler of `POST /api/chat`. It catches `parse_error` and nothing else that `parse` can
throw. -/
def handleChat : Handler World := fun req => do
  emit (.handler .chat)
  match gw.lib.parse req.body with
  | .ok requestBody => gw.chatWith requestBody req.toRequestHeader
  | .throw (.parseError what) =>
    gw.errorResponse .badRequest "invalid_json" (utf8 "请求体不是合法的 JSON: " ++ cstr what)
      req.toRequestHeader
  | .throw e => Prog.throw e
  | .ub => Prog.ub

/-! ## The management of keys -/

/-- `verify_admin` -/
def verifyAdmin (req : RequestHeader) : Bool :=
  req.authorization == some (utf8 "Bearer " ++ gw.adminMasterKey)

/-- The beginning of all three handlers. -/
def requireAdmin (req : RequestHeader) (k : Act Response) : Act Response :=
  if gw.verifyAdmin req then k
  else gw.errorResponse .unauthorized "auth_failed" (utf8 "无效的管理 Key") req

/-- The parsing of a body, where `catch (...)` answers with `message`. -/
def requireJson (req : Request) (message : String) (k : Json → Act Response) : Act Response :=
  match gw.lib.parse req.body with
  | .ok body => k body
  | .throw _ =>
    gw.errorResponse .badRequest "invalid_json" (utf8 message) req.toRequestHeader
  | .ub => Prog.ub

/-- The document of a new key. -/
def createdDocument (key : ApiKeyInfo) : Json :=
  .obj [("api_key", .string key.apiKey), ("name", .string key.name),
    ("rate_limit", .integer key.rateLimit)]

/-- The handler of `POST /admin/api-keys` from the parsed body on. -/
def createKeyWith (body : Json) (req : RequestHeader) : Act Response := do
  let name ← Prog.lift (body.value "name" Json.getString [])
  let rateLimit ← Prog.lift (body.value "rate_limit" (Json.getInt 32) 60)
  if name = [] then
    gw.errorResponse .badRequest "missing_name" (utf8 "缺少 name 字段") req
  else
    emit (.createApiKey name rateLimit)
    let key ← gw.repository (Repository.createApiKey gw.dis name rateLimit)
    gw.jsonResponse (createdDocument key) req

/-- The handler of `POST /admin/api-keys`. -/
def handleCreateKey : Handler World := fun req => do
  emit (.handler .createKey)
  gw.requireAdmin req.toRequestHeader <|
    gw.requireJson req "请求体不是合法 JSON" fun body => gw.createKeyWith body req.toRequestHeader

/-- One key of the list. -/
def keyDocument (key : ApiKeyInfo) : Json :=
  .obj [("id", .integer key.id), ("api_key", .string key.apiKey), ("name", .string key.name),
    ("rate_limit", .integer key.rateLimit), ("enabled", .boolean key.enabled)]

/-- The handler of `GET /admin/api-keys`. -/
def handleListKeys : Handler World := fun req => do
  emit (.handler .listKeys)
  gw.requireAdmin req.toRequestHeader do
    emit .listApiKeys
    let keys ← gw.repository Repository.listApiKeys
    gw.jsonResponse (.array (keys.map keyDocument)) req.toRequestHeader

/-- The handler of `DELETE /admin/api-keys` from the parsed body on. -/
def disableKeyWith (body : Json) (req : RequestHeader) : Act Response := do
  let id ← Prog.lift (body.value "id" (Json.getInt 64) 0)
  if id ≤ 0 then
    gw.errorResponse .badRequest "invalid_id" (utf8 "请传有效的 id") req
  else
    emit (.disableApiKey id)
    if ← gw.repository (Repository.disableApiKey id) then
      gw.jsonResponse (.obj [("status", .lit "disabled"), ("id", .integer id)]) req
    else
      gw.errorResponse .notFound "not_found"
        (utf8 ("未找到 id=" ++ toString id ++ " 的 Key")) req

/-- The handler of `DELETE /admin/api-keys`. -/
def handleDisableKey : Handler World := fun req => do
  emit (.handler .disableKey)
  gw.requireAdmin req.toRequestHeader <|
    gw.requireJson req "请传 \x7b\"id\": N\x7d" fun body => gw.disableKeyWith body req.toRequestHeader

/-! ## The routes -/

/-- The router that `main` sets up. -/
def router : Router World :=
  ((((Router.addRoute {} .get (utf8 "/health") gw.handleHealth).addRoute
    .post (utf8 "/api/chat") gw.handleChat).addRoute
    .post (utf8 "/admin/api-keys") gw.handleCreateKey).addRoute
    .get (utf8 "/admin/api-keys") gw.handleListKeys).addRoute
    .delete (utf8 "/admin/api-keys") gw.handleDisableKey

/-- The handler of a route. -/
def handlerOf : Route → Handler World
  | .health => gw.handleHealth
  | .chat => gw.handleChat
  | .createKey => gw.handleCreateKey
  | .listKeys => gw.handleListKeys
  | .disableKey => gw.handleDisableKey

end Gateway

/-- The route of a method and a target. -/
def routeOf (method : Verb) (target : Bytes) : Option Route :=
  if method = .delete ∧ target = utf8 "/admin/api-keys" then some .disableKey
  else if method = .get ∧ target = utf8 "/admin/api-keys" then some .listKeys
  else if method = .post ∧ target = utf8 "/admin/api-keys" then some .createKey
  else if method = .post ∧ target = utf8 "/api/chat" then some .chat
  else if method = .get ∧ target = utf8 "/health" then some .health
  else none

namespace Gateway

variable (gw : Gateway)

/-- The router calls the handler of the route, and no other. -/
theorem find_router (method : Verb) (target : Bytes) :
    gw.router.find method target = (routeOf method target).map gw.handlerOf := by
  simp only [router, Router.find_addRoute, Router.find_empty, routeOf]
  split_ifs <;> rfl

/-- The router calls the handler of the route that the request has. -/
theorem dispatch_of_some {req : Request} {r : Route} (h : routeOf req.method req.target = some r) :
    gw.router.dispatch gw.lib req = gw.handlerOf r req :=
  Router.dispatch_of_some (by rw [find_router, h, Option.map_some])

/-- The router answers 404 where the request has no route. -/
theorem dispatch_of_none {req : Request} (h : routeOf req.method req.target = none) :
    gw.router.dispatch gw.lib req = gw.errorResponse .notFound "not_found"
      (utf8 "请求的路径不存在: " ++ req.target) req.toRequestHeader :=
  Router.dispatch_of_none (by rw [find_router, h, Option.map_none])

end Gateway

/-! ## What a handler records -/

/-- The handler of the route `r` may record the event: that it runs, and the calls that it makes. -/
def Event.InHandler (r : Route) : Event → Prop
  | handler r' => r' = r
  | createApiKey _ _ => r = .createKey
  | listApiKeys => r = .listKeys
  | disableApiKey _ => r = .disableKey
  | chatCompletion _ _ => r = .chat
  | findApiKey _ _ | chatCompletionStream _ _ | doWrite _ | startStream _ _ => False

/-- What is recorded when the router answers a request: what the handler of the route does, and the
response. -/
def Event.InRoute (req : RequestHeader) (e : Event) : Prop :=
  (∃ r, routeOf req.method req.target = some r ∧ e.InHandler r) ∨ ∃ res, e = .doWrite res

/-- The computation records that the handler of the route `r` runs, and then nothing but the calls
of this handler. -/
def RunsHandler (r : Route) (x : Act Response) : Prop :=
  ∃ y : Act Response, x = (emit (.handler r) >>= fun _ => y) ∧ Records (Event.InHandler r) y

/-- A handler records first that it runs, and then what belongs to it. -/
theorem RunsHandler.exists_trace_eq {r : Route} {x : Act Response} (h : RunsHandler r x)
    (w : World) : ∃ events, (x w).2.trace = w.trace ++ .handler r :: events ∧
      ∀ e ∈ events, e.InHandler r := by
  obtain ⟨y, rfl, hy⟩ := h
  obtain ⟨events, htrace, hevents⟩ := hy { w with trace := w.trace ++ [.handler r] }
  refine ⟨events, ?_, hevents⟩
  rw [emit_bind_apply, htrace, List.append_assoc, List.singleton_append]

namespace Gateway

variable (gw : Gateway) (req : Request) {P : Event → Prop} {R : World → World → Prop}

/-- Asking for the master key adds nothing to what a handler does. -/
theorem moves_requireAdmin (h : Tracks P R) {k : Act Response} (hk : Prog.Moves R k)
    (req : RequestHeader) : Prog.Moves R (gw.requireAdmin req k) := by
  unfold requireAdmin
  split
  · exact hk
  · exact gw.moves_errorResponse h _ _ _ _

/-- Asking for a document adds nothing to what a handler does. -/
theorem moves_requireJson (h : Tracks P R) {k : Json → Act Response}
    (hk : ∀ body, Prog.Moves R (k body)) (message : String) :
    Prog.Moves R (gw.requireJson req message k) := by
  unfold requireJson
  split
  · exact hk _
  · exact gw.moves_errorResponse h _ _ _ _
  · exact h.ub

/-- To send a document changes nothing. -/
theorem moves_jsonResponse (h : Tracks P R) (body : Json) (req : RequestHeader) :
    Prog.Moves R (gw.jsonResponse body req) :=
  h.bind (h.lift _) fun _ => h.pure _

/-- Calling the adapter moves the state as the chat handler may. -/
theorem moves_callAdapter (h : Tracks (Event.InHandler .chat) R) (ai : Fin gw.adapters.length)
    (body : Json) (req : RequestHeader) : Prog.Moves R (gw.callAdapter ai body req) := by
  refine h.tryCatch ?_ fun e => gw.moves_errorResponse h _ _ _ _
  refine h.emit_bind rfl ?_
  exact h.bind (h.lift _) fun _ => gw.moves_jsonResponse h _ _

/-- The chat handler does nothing but call an adapter. -/
theorem moves_chatWith (h : Tracks (Event.InHandler .chat) R) (body : Json)
    (req : RequestHeader) : Prog.Moves R (gw.chatWith body req) := by
  unfold chatWith
  split
  · exact gw.moves_errorResponse h _ _ _ _
  · apply h.bind (h.lift _)
    intro model
    split
    · exact gw.moves_errorResponse h _ _ _ _
    · exact gw.moves_callAdapter h _ _ _

/-- The handler of creations does nothing but create keys. -/
theorem moves_createKeyWith (h : Follows (Event.InHandler .createKey) R) (body : Json)
    (req : RequestHeader) : Prog.Moves R (gw.createKeyWith body req) := by
  unfold createKeyWith
  apply h.bind (h.lift _)
  intro name
  apply h.bind (h.lift _)
  intro rateLimit
  split
  · exact gw.moves_errorResponse h.toTracks _ _ _ _
  · refine h.emit_bind rfl ?_
    exact h.bind (gw.moves_repository h _) fun _ => gw.moves_jsonResponse h.toTracks _ _

/-- The handler of the last route does nothing but disable keys. -/
theorem moves_disableKeyWith (h : Follows (Event.InHandler .disableKey) R) (body : Json)
    (req : RequestHeader) : Prog.Moves R (gw.disableKeyWith body req) := by
  unfold disableKeyWith
  apply h.bind (h.lift _)
  intro id
  split
  · exact gw.moves_errorResponse h.toTracks _ _ _ _
  · refine h.emit_bind rfl ?_
    apply h.bind (gw.moves_repository h _)
    intro disabled
    split
    · exact gw.moves_jsonResponse h.toTracks _ _
    · exact gw.moves_errorResponse h.toTracks _ _ _ _

/-- A handler records that it runs, and then does nothing but what is its own. -/
theorem exists_handlerOf_eq (r : Route) (h : Follows (Event.InHandler r) R) :
    ∃ y, gw.handlerOf r req = (emit (.handler r) >>= fun _ => y) ∧ Prog.Moves R y := by
  cases r with
  | health => exact ⟨_, rfl, gw.moves_jsonResponse h.toTracks _ _⟩
  | chat =>
    refine ⟨_, rfl, ?_⟩
    split
    · exact gw.moves_chatWith h.toTracks _ _
    · exact gw.moves_errorResponse h.toTracks _ _ _ _
    · exact h.throw _
    · exact h.ub
  | createKey =>
    exact ⟨_, rfl, gw.moves_requireAdmin h.toTracks
      (gw.moves_requireJson req h.toTracks (fun _ => gw.moves_createKeyWith h _ _) _) _⟩
  | listKeys =>
    refine ⟨_, rfl, gw.moves_requireAdmin h.toTracks ?_ _⟩
    refine h.emit_bind rfl ?_
    exact h.bind (gw.moves_repository h _) fun _ => gw.moves_jsonResponse h.toTracks _ _
  | disableKey =>
    exact ⟨_, rfl, gw.moves_requireAdmin h.toTracks
      (gw.moves_requireJson req h.toTracks (fun _ => gw.moves_disableKeyWith h _ _) _) _⟩

/-- Each handler does what belongs to its route. -/
theorem runsHandler_handlerOf (r : Route) : RunsHandler r (gw.handlerOf r req) :=
  gw.exists_handlerOf_eq req r follows_recorded

/-- The router does what the handler of the route does. -/
theorem moves_dispatch (h : ∀ r, routeOf req.method req.target = some r →
      Follows (Event.InHandler r) R) (hrefl : ∀ w, R w w) :
    Prog.Moves R (gw.router.dispatch gw.lib req) := by
  cases hr : routeOf req.method req.target with
  | none =>
    rw [gw.dispatch_of_none hr]
    exact Prog.moves_lift hrefl _
  | some r =>
    obtain ⟨y, heq, hy⟩ := gw.exists_handlerOf_eq req r (h r hr)
    rw [gw.dispatch_of_some hr, heq]
    exact (h r hr).emit_bind rfl hy

/-- The router records what the handler of the route records. -/
theorem records_dispatch : Records (fun e => ∃ r, routeOf req.method req.target = some r ∧
    e.InHandler r) (gw.router.dispatch gw.lib req) := by
  apply gw.moves_dispatch req _ recorded_refl
  intro r hr
  exact { follows_recorded with event := fun _ e he => ⟨[e], rfl, by simpa using ⟨r, hr, he⟩⟩ }

end Gateway

/-- Every other handler answers for a path that needs no key. -/
theorem whitelisted_of_routeOf {method : Verb} {target : Bytes} {r : Route}
    (h : routeOf method target = some r) (hr : r ≠ .chat) : Middleware.Whitelisted target := by
  have hadmin : Middleware.Whitelisted (utf8 "/admin/api-keys") := by decide +kernel
  unfold routeOf at h
  split_ifs at h with hdelete hget hpost hchat hhealth
  · exact hdelete.2 ▸ hadmin
  · exact hget.2 ▸ hadmin
  · exact hpost.2 ▸ hadmin
  · exact absurd (Option.some.inj h).symm hr
  · exact .inl hhealth.2

/-- The chat handler is the one for `POST /api/chat`. -/
theorem routeOf_eq_chat {method : Verb} {target : Bytes} :
    routeOf method target = some .chat ↔ method = .post ∧ target = utf8 "/api/chat" := by
  have hne : utf8 "/api/chat" ≠ utf8 "/admin/api-keys" := by decide +kernel
  unfold routeOf
  constructor
  · intro h
    split_ifs at h with _ _ _ hchat
    · cases h
    · cases h
    · cases h
    · exact hchat
    · cases h
  · rintro ⟨rfl, rfl⟩
    simp [hne]

/-! ## What the chat handler does -/

namespace Gateway

variable (gw : Gateway) (w : World)

/-- A chat request whose body parses is handled with the document. -/
theorem handleChat_of_parsed {req : Request} {body : Json}
    (h : gw.lib.tryParse req.body = .ok body) :
    gw.handleChat req w
      = gw.chatWith body req.toRequestHeader { w with trace := w.trace ++ [.handler .chat] } := by
  unfold handleChat
  rw [emit_bind_apply, Lib.parse, parseBy, h]

variable {gw} {body : Json} {req : RequestHeader}

/-- Without adapters a chat request is answered 503. -/
theorem chatWith_of_no_adapters (h : gw.adapters = []) :
    gw.chatWith body req w = (.ok (gw.errorResult .serviceUnavailable "no_ai_configured"
      (utf8 "服务未配置任何 AI 模型, 请先设置 API Key") req), w) := by
  unfold chatWith
  rw [if_pos (by simp [h, AdapterFactory.count])]
  exact gw.errorResponse_of_validUtf8 (validUtf8_utf8 _) _ _ _ _

/-- A model that is not a string leaves the handler as an exception. -/
theorem chatWith_of_unreadable (h : gw.adapters ≠ []) {e : Exn}
    (hmodel : body.value "model" Json.getString (utf8 "deepseek-v4-flash") = .throw e) :
    gw.chatWith body req w = (.throw e, w) := by
  unfold chatWith
  rw [if_neg (by simpa [AdapterFactory.count] using h), hmodel]
  rfl

/-- However the call of the adapter ends, it has been made. -/
theorem trace_callAdapter (ai : Fin gw.adapters.length) :
    (gw.callAdapter ai body req w).2.trace = w.trace ++ [.chatCompletion ai body] := by
  have hrest : Records (fun _ => False) (Prog.tryCatch
      (Prog.lift (gw.adapters[ai].chatCompletion body) >>= fun doc => gw.jsonResponse doc req)
      fun e => gw.errorResponse .badGateway "provider_error"
        (utf8 "AI 服务响应错误: " ++ cstr e.what) req) :=
    follows_recorded.tryCatch
      (follows_recorded.bind (follows_recorded.lift _) fun _ =>
        gw.moves_jsonResponse follows_recorded.toTracks _ _)
      fun e => gw.moves_errorResponse follows_recorded.toTracks _ _ _ _
  exact trace_eq_of_records hrest { w with trace := w.trace ++ [.chatCompletion ai body] }

variable {model : Bytes}
  (hmodel : body.value "model" Json.getString (utf8 "deepseek-v4-flash") = .ok model)

include hmodel

/-- Without an adapter for its model a chat request is answered 400. -/
theorem chatWith_of_create_none (h : gw.adapters ≠ []) (htext : ValidUtf8 model)
    (hcreate : gw.adapters.create model = none) :
    gw.chatWith body req w = (.ok (gw.errorResult .badRequest "unsupported_model"
      (utf8 "不支持的模型: " ++ model) req), w) := by
  unfold chatWith
  rw [if_neg (by simpa [AdapterFactory.count] using h), hmodel, Prog.lift_ok_bind, hcreate]
  exact gw.errorResponse_of_validUtf8 ((validUtf8_utf8 _).append htext) _ _ _ _

/-- With an adapter for its model a chat request calls it once. -/
theorem trace_chatWith_of_create_some {ai : Fin gw.adapters.length}
    (hcreate : gw.adapters.create model = some ai) :
    (gw.chatWith body req w).2.trace = w.trace ++ [.chatCompletion ai body] := by
  have hadapters : gw.adapters ≠ [] := fun h => by simpa [h] using ai.pos
  unfold chatWith
  rw [if_neg (by simpa [AdapterFactory.count] using hadapters), hmodel, Prog.lift_ok_bind, hcreate]
  exact trace_callAdapter w ai

end Gateway

end AiSwitch
