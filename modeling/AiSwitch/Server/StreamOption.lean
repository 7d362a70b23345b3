import AiSwitch.Server.Session

/-!
# What the option `stream` changes

A chat can be asked for as a stream or as one document. The streaming branch of the session and the
route table decide separately what a request is for: the branch looks at the body alone and has a
default model of its own. `sameRouting_iff` compares two requests that differ in the option alone
and says exactly when they are routed alike.
-/

namespace AiSwitch

open ByteString Effect Nlohmann Http Middleware

/-! ## Two requests that differ in the option -/

/-- Two requests with one header, whose bodies parse to one object but for the member `stream`. -/
structure StreamPair (lib : Lib) where
  header : RequestHeader
  fields : List (Bytes × Json)
  body : Bool → Bytes
  parsed : ∀ stream, lib.tryParse (body stream)
    = .ok (.object (Json.insertField (utf8 "stream") (.boolean stream) fields))

namespace StreamPair

variable {lib : Lib} (p : StreamPair lib)

/-- The document of the request with the given option. -/
def document (stream : Bool) : Json :=
  .object (Json.insertField (utf8 "stream") (.boolean stream) p.fields)

/-- The request with the given option. -/
def request (stream : Bool) : Request := ⟨p.header, p.body stream⟩

/-- Both requests name the model, or name none and it is the default. -/
def Names (default : String) (model : Bytes) : Prop :=
  (Json.object p.fields).value "model" Json.getString (utf8 default) = .ok model

end StreamPair

/-! ## What is compared -/

/-- The model that a request to an adapter names. Where it names none, the adapter has one default
for both of its calls. -/
def modelOf : Json → Option Json
  | .object fs => fs.lookup (utf8 "model")
  | _ => none

/-- The call of the adapter `ai` with the model `model`. -/
def Event.Calls (ai : ℕ) (model : Option Json) : Event → Prop
  | chatCompletion ai' request | chatCompletionStream ai' request =>
    ai' = ai ∧ modelOf request = model
  | findApiKey _ _ | createApiKey _ _ | listApiKeys | disableApiKey _ | handler _ | doWrite _
  | startStream _ _ => False

/-- The event neither calls an adapter nor answers, and is no other handler than that of
`/api/chat`. -/
def Event.IsSilent : Event → Prop
  | findApiKey _ _ | startStream _ _ => True
  | handler r => r = .chat
  | createApiKey _ _ | listApiKeys | disableApiKey _ | chatCompletion _ _
  | chatCompletionStream _ _ | doWrite _ => False

/-- Two error responses with the same status and the same error code. -/
def Gateway.SameError (gw : Gateway) (res res' : Response) : Prop :=
  res.status = res'.status ∧ ∃ code message message',
    res.body = gw.lib.text (errorDocument code message) ∧
    res'.body = gw.lib.text (errorDocument code message')

/-- Two requests with the same header are routed alike: to the same adapter with the same model, to
the same handler other than that of `/api/chat`, or to the same error. Adapters serve
`POST /api/chat` only. -/
structure SameRouting (gw : Gateway) (header : RequestHeader) (on off : List Event) : Prop where
  adapter : ∀ ai model, (∃ e ∈ on, e.Calls ai model) ↔ ∃ e ∈ off, e.Calls ai model
  handler : ∀ r, r ≠ .chat → (.handler r ∈ on ↔ .handler r ∈ off)
  answer : (∀ ai model, ¬ ∃ e ∈ on, e.Calls ai model) → (∀ r, r ≠ .chat → .handler r ∉ on) →
    ∃ res res', .doWrite res ∈ on ∧ .doWrite res' ∈ off ∧ gw.SameError res res'
  chat : ∀ ai model, (∃ e ∈ on, e.Calls ai model) ∨ (∃ e ∈ off, e.Calls ai model) →
    header.method = .post ∧ header.target = utf8 "/api/chat"

/-! ## The condition -/

/-- The request with the option is taken by the streaming branch. -/
def StreamPair.Streams {gw : Gateway} (p : StreamPair gw.lib) : Prop :=
  gw.adapters ≠ [] ∧ ∃ model, p.Names "deepseek-chat" model

/-- A stream is for `POST /api/chat`, and the two default models select the same adapter, which is
reached once the header of the stream has been written. What is no stream has a handler other than
that of `/api/chat`, or none although its target is text, or there is no adapter to chat with. -/
def RoutedAlike (gw : Gateway) (p : StreamPair gw.lib) (headerWritten : Bool) : Prop :=
  (p.Streams → routeOf p.header.method p.header.target = some .chat ∧
    ∃ model model', p.Names "deepseek-chat" model ∧ p.Names "deepseek-v4-flash" model' ∧
      gw.adapters.create model = gw.adapters.create model' ∧
      (gw.adapters.create model = none ∨ headerWritten = true)) ∧
  (¬ p.Streams → match routeOf p.header.method p.header.target with
    | some .chat => gw.adapters = []
    | some _ => True
    | none => ValidUtf8 p.header.target)

/-! ## The two documents -/

namespace StreamPair

section

variable {lib : Lib} (p : StreamPair lib) (stream : Bool)

/-- The option is read from the body as it is set. -/
theorem value_stream : (p.document stream).value "stream" Json.getBool false = .ok stream := by
  rw [document, Json.value, Json.lookup_insertField, if_pos rfl]
  rfl

/-- The documents have every other member in common. -/
theorem lookup_model (stream : Bool) :
    (Json.insertField (utf8 "stream") (.boolean stream) p.fields).lookup (utf8 "model")
      = p.fields.lookup (utf8 "model") := by
  rw [Json.lookup_insertField, if_neg (by simp [utf8_inj])]

/-- The option does not change which model is named. -/
theorem modelOf_document : modelOf (p.document stream) = p.fields.lookup (utf8 "model") :=
  p.lookup_model stream

/-- The option does not change which model is read. -/
theorem value_model (default : String) :
    (p.document stream).value "model" Json.getString (utf8 default)
      = (Json.object p.fields).value "model" Json.getString (utf8 default) := by
  rw [document, Json.value, Json.value, p.lookup_model]

variable {p}

/-- The pair names one model. -/
theorem Names.unique {default : String} {model model' : Bytes} (h : p.Names default model)
    (h' : p.Names default model') : model' = model :=
  Outcome.ok.inj (h'.symm.trans h)

/-- Whether a model can be read does not depend on the default. -/
theorem Names.exists {default : String} {model : Bytes} (h : p.Names default model)
    (default' : String) : ∃ model', p.Names default' model' := by
  unfold Names at h ⊢
  rw [Json.value] at h ⊢
  cases hlookup : p.fields.lookup (utf8 "model") with
  | none => exact ⟨_, rfl⟩
  | some v =>
    rw [hlookup] at h
    exact ⟨model, h⟩

end

variable {gw : Gateway} (p : StreamPair gw.lib)

/-- The streaming branch takes the request with the option, on its own default model. -/
theorem streams_true {model : Bytes} (hadapters : gw.adapters ≠ [])
    (h : p.Names "deepseek-chat" model) :
    gw.Streams (p.request true) (p.document true) model where
  parsed := p.parsed true
  wanted := p.value_stream true
  adapters := hadapters
  model_eq := (p.value_model true _).trans h

/-- The branch takes the request with the option exactly if its fields allow it. -/
theorem exists_streams_true_iff :
    (∃ body model, gw.Streams (p.request true) body model) ↔ p.Streams := by
  constructor
  · rintro ⟨body, model, h⟩
    have hbody : body = p.document true := Except.ok.inj (h.parsed.symm.trans (p.parsed true))
    subst hbody
    exact ⟨h.adapters, model, (p.value_model true _).symm.trans h.model_eq⟩
  · rintro ⟨hadapters, model, h⟩
    exact ⟨_, model, p.streams_true hadapters h⟩

/-- The streaming branch leaves the request without the option. -/
theorem not_streams_false : ¬ ∃ body model, gw.Streams (p.request false) body model := by
  rintro ⟨body, model, h⟩
  have hbody : body = p.document false := Except.ok.inj (h.parsed.symm.trans (p.parsed false))
  subst hbody
  have hfalse := (p.value_stream false).symm.trans h.wanted
  cases hfalse

end StreamPair

/-! ## The two runs

Each run begins with what `auth_middleware` looks up. `Run` is what it records after that.
-/

section

variable {gw : Gateway} {w : World} {bucket : TokenBucket} {p : StreamPair gw.lib}
  (headerWritten : Bool)

/-- What the request with the given option records after the lookup. -/
def Run (gw : Gateway) (w : World) (bucket : TokenBucket) (p : StreamPair gw.lib)
    (headerWritten stream : Bool) (events : List Event) : Prop :=
  (Gateway.served gw w bucket (p.request stream) headerWritten).trace
    = lookups gw w p.header ++ events

/-- A request that is not admitted is answered by the chain, with the option or without. -/
theorem run_of_not_admitted (hdef : ChainDefined gw w bucket p.header)
    (hadm : ¬ Admitted gw w bucket p.header) : ∃ res, gw.IsErrorResult p.header res ∧
      ∀ stream, Run gw w bucket p headerWritten stream [.doWrite res] := by
  obtain ⟨res, w', herror, htrace, hreq⟩ := Gateway.handleRequest_of_not_admitted hdef hadm
  refine ⟨res, herror, fun stream => ?_⟩
  have hreq' : gw.handleRequest (p.request stream) (w.inMain bucket) = (.ok none, w') := hreq _
  rw [Run, Gateway.served_of_not_started headerWritten hreq' (by simp), htrace]

variable (hdef : ChainDefined gw w bucket p.header) (hadm : Admitted gw w bucket p.header)

include hdef hadm

/-- With the option, a model without an adapter is answered 400. -/
theorem run_of_streams_none (hadapters : gw.adapters ≠ []) {model : Bytes}
    (hmodel : p.Names "deepseek-chat" model) (hcreate : gw.adapters.create model = none) :
    Run gw w bucket p headerWritten true [.doWrite (gw.errorResult .badRequest "unsupported_model"
      (utf8 "不支持的模型: " ++ model) p.header)] := by
  obtain ⟨w', hreq, htrace⟩ := Gateway.handleRequest_of_streams_none
    (p.streams_true hadapters hmodel) hdef hadm hcreate
  rw [Run, Gateway.served_of_not_started headerWritten hreq (by simp), htrace]
  rfl

/-- With the option, a model with an adapter begins a stream. -/
theorem run_of_streams_some {model : Bytes} (hmodel : p.Names "deepseek-chat" model)
    {ai : Fin gw.adapters.length} (hcreate : gw.adapters.create model = some ai) :
    Run gw w bucket p headerWritten true (.startStream p.header.version p.header.keepAlive ::
      if headerWritten then [.chatCompletionStream ai (p.document true)] else []) := by
  have hadapters : gw.adapters ≠ [] := fun h => by simpa [h] using ai.pos
  obtain ⟨w', hreq, htrace⟩ := Gateway.handleRequest_of_streams_some
    (p.streams_true hadapters hmodel) hdef hadm hcreate
  rw [Run, Gateway.served_of_started headerWritten hreq, htrace, List.append_assoc]
  rfl

/-- The stream calls the adapter once the header is written. -/
theorem run_of_streams_written {model : Bytes} (hmodel : p.Names "deepseek-chat" model)
    {ai : Fin gw.adapters.length} (hcreate : gw.adapters.create model = some ai) :
    Run gw w bucket p true true [.startStream p.header.version p.header.keepAlive,
      .chatCompletionStream ai (p.document true)] :=
  run_of_streams_some true hdef hadm hmodel hcreate

/-- Where the header is not written, no adapter is called. -/
theorem run_of_streams_not_written {model : Bytes} (hmodel : p.Names "deepseek-chat" model)
    {ai : Fin gw.adapters.length} (hcreate : gw.adapters.create model = some ai) :
    Run gw w bucket p false true [.startStream p.header.version p.header.keepAlive] :=
  run_of_streams_some false hdef hadm hmodel hcreate

/-- What the branch leaves is routed, from a state that records the lookup. -/
theorem run_of_not_streams {stream : Bool}
    (h : ¬ ∃ body model, gw.Streams (p.request stream) body model) :
    ∃ w', w'.trace = lookups gw w p.header ∧ ∀ events,
      (gw.route (p.request stream) w').2.trace = w'.trace ++ events →
        Run gw w bucket p headerWritten stream events := by
  obtain ⟨w', htrace, -, hreq⟩ := Gateway.handleRequest_of_not_streams h hdef hadm
  refine ⟨w', htrace, fun events hevents => ?_⟩
  rw [Run, Gateway.served_of_routed headerWritten hreq, hevents, htrace]
  rfl

variable {stream : Bool} (hstreams : ¬ ∃ body model, gw.Streams (p.request stream) body model)

include hstreams

/-- Without a route the request is answered 404, if its target is text. -/
theorem run_of_no_route (hr : routeOf p.header.method p.header.target = none) :
    (ValidUtf8 p.header.target → Run gw w bucket p headerWritten stream
      [.doWrite (gw.errorResult .notFound "not_found"
        (utf8 "请求的路径不存在: " ++ p.header.target) p.header)]) ∧
    (¬ ValidUtf8 p.header.target → Run gw w bucket p headerWritten stream []) := by
  obtain ⟨w', -, hrun⟩ := run_of_not_streams headerWritten hdef hadm hstreams
  have hdispatch : gw.router.dispatch gw.lib (p.request stream) = gw.errorResponse .notFound
      "not_found" (utf8 "请求的路径不存在: " ++ p.header.target) p.header := gw.dispatch_of_none hr
  constructor
  · intro htext
    refine hrun _ (Gateway.trace_route_of_ok ?_)
    rw [hdispatch]
    exact gw.errorResponse_of_validUtf8 ((validUtf8_utf8 _).append htext) _ _ _ _
  · intro htext
    have hmessage := mt (validUtf8_append_iff (validUtf8_utf8 "请求的路径不存在: ")).mp htext
    obtain ⟨e, he⟩ := gw.errorResponse_of_not_validUtf8 hmessage .notFound "not_found" p.header w'
    refine hrun _ ?_
    rw [List.append_nil]
    exact Gateway.trace_route_of_throw ((congrFun hdispatch w').trans he)

/-- Without a stream a request records what its handler records, and perhaps an answer. -/
theorem exists_run_of_route {r : Route} (hr : routeOf p.header.method p.header.target = some r) :
    ∃ events, Run gw w bucket p headerWritten stream (.handler r :: events) ∧
      ∀ e ∈ events, e.InHandler r ∨ ∃ res, e = .doWrite res := by
  obtain ⟨w', -, hrun⟩ := run_of_not_streams headerWritten hdef hadm hstreams
  obtain ⟨answers, hroute, hanswers⟩ := gw.exists_trace_route_eq w' (p.request stream)
  obtain ⟨events, htrace, hevents⟩ :=
    (gw.runsHandler_handlerOf (p.request stream) r).exists_trace_eq w'
  refine ⟨events ++ answers, hrun _ ?_, ?_⟩
  · have hdispatch : gw.router.dispatch gw.lib (p.request stream)
        = gw.handlerOf r (p.request stream) := gw.dispatch_of_some hr
    rw [hroute, hdispatch, htrace, List.append_assoc, List.cons_append]
  · intro e he
    exact (List.mem_append.mp he).imp (hevents e) (hanswers e)

variable (hchat : routeOf p.header.method p.header.target = some .chat)

omit hdef hadm hstreams in
/-- The chat handler has the parsed body. -/
theorem dispatch_chat (hchat : routeOf p.header.method p.header.target = some .chat) (stream : Bool)
    (w : World) : gw.router.dispatch gw.lib (p.request stream) w
      = gw.chatWith (p.document stream) p.header
          { w with trace := w.trace ++ [.handler .chat] } := by
  have hdispatch : gw.router.dispatch gw.lib (p.request stream)
      = gw.handlerOf .chat (p.request stream) := gw.dispatch_of_some hchat
  rw [hdispatch]
  exact gw.handleChat_of_parsed w (p.parsed stream)

include hchat

/-- Without adapters the handler answers 503. -/
theorem run_of_chat_no_adapters (hadapters : gw.adapters = []) :
    Run gw w bucket p headerWritten stream [.handler .chat,
      .doWrite (gw.errorResult .serviceUnavailable "no_ai_configured"
        (utf8 "服务未配置任何 AI 模型, 请先设置 API Key") p.header)] := by
  obtain ⟨w', -, hrun⟩ := run_of_not_streams headerWritten hdef hadm hstreams
  refine hrun _ ?_
  rw [Gateway.trace_route_of_ok
    ((dispatch_chat hchat stream w').trans (Gateway.chatWith_of_no_adapters _ hadapters))]
  exact List.append_assoc _ _ _

/-- Where no model can be read the handler throws. -/
theorem run_of_chat_unreadable (hadapters : gw.adapters ≠ [])
    (hmodel : ∀ model, ¬ p.Names "deepseek-v4-flash" model) :
    Run gw w bucket p headerWritten stream [.handler .chat] := by
  obtain ⟨w', -, hrun⟩ := run_of_not_streams headerWritten hdef hadm hstreams
  refine hrun _ ?_
  cases hvalue : (p.document stream).value "model" Json.getString (utf8 "deepseek-v4-flash") with
  | ok model => exact absurd ((p.value_model stream _).symm.trans hvalue) (hmodel model)
  | throw e =>
    exact Gateway.trace_route_of_throw
      ((dispatch_chat hchat stream w').trans (Gateway.chatWith_of_unreadable _ hadapters hvalue))
  | ub => exact absurd hvalue (Gateway.value_ne_ub (fun v => by cases v <;> simp) _ _ _)

variable {model : Bytes} (hmodel : p.Names "deepseek-v4-flash" model)

include hmodel

/-- With no adapter for the model the handler answers 400. -/
theorem run_of_chat_none (hadapters : gw.adapters ≠ [])
    (hcreate : gw.adapters.create model = none) :
    Run gw w bucket p headerWritten stream [.handler .chat,
      .doWrite (gw.errorResult .badRequest "unsupported_model" (utf8 "不支持的模型: " ++ model)
        p.header)] := by
  obtain ⟨w', -, hrun⟩ := run_of_not_streams headerWritten hdef hadm hstreams
  have hvalue := (p.value_model stream _).trans hmodel
  have htext : ValidUtf8 model := Gateway.validUtf8_model (p.parsed stream) hvalue
  refine hrun _ ?_
  rw [Gateway.trace_route_of_ok ((dispatch_chat hchat stream w').trans
    (Gateway.chatWith_of_create_none _ hvalue hadapters htext hcreate))]
  exact List.append_assoc _ _ _

/-- With an adapter for the model the handler calls it. -/
theorem exists_run_of_chat_some {ai : Fin gw.adapters.length}
    (hcreate : gw.adapters.create model = some ai) :
    ∃ answers, Run gw w bucket p headerWritten stream
      (.handler .chat :: .chatCompletion ai (p.document stream) :: answers) ∧
      ∀ e ∈ answers, ∃ res, e = .doWrite res := by
  obtain ⟨w', -, hrun⟩ := run_of_not_streams headerWritten hdef hadm hstreams
  obtain ⟨answers, hroute, hanswers⟩ := gw.exists_trace_route_eq w' (p.request stream)
  refine ⟨answers, hrun _ ?_, hanswers⟩
  rw [hroute, dispatch_chat hchat, Gateway.trace_chatWith_of_create_some _
    ((p.value_model stream _).trans hmodel) hcreate, List.append_assoc, List.append_assoc]
  rfl

end

/-! ## The comparison -/

section

variable {gw : Gateway} {w : World} {header : RequestHeader}

/-- The lookup has no part in whether other events have been recorded. -/
theorem exists_mem_lookups_append {P : Event → Prop} (hP : ∀ t r, ¬ P (.findApiKey t r))
    (events : List Event) :
    (∃ e ∈ lookups gw w header ++ events, P e) ↔ ∃ e ∈ events, P e := by
  constructor
  · rintro ⟨e, he, h⟩
    rcases List.mem_append.mp he with he | he
    · obtain ⟨t, r, rfl⟩ := lookups_spec he
      exact absurd h (hP t r)
    · exact ⟨e, he, h⟩
  · rintro ⟨e, he, h⟩
    exact ⟨e, List.mem_append_right _ he, h⟩

/-- An event that is no lookup is recorded beside the lookup or not at all. -/
theorem mem_lookups_append {e : Event} (he : ∀ t r, e ≠ .findApiKey t r) (events : List Event) :
    e ∈ lookups gw w header ++ events ↔ e ∈ events := by
  have h : (∃ f ∈ lookups gw w header ++ events, f = e) ↔ ∃ f ∈ events, f = e :=
    exists_mem_lookups_append (fun t r h => he t r h.symm) events
  simpa using h

/-- What is looked up makes no difference. -/
theorem sameRouting_lookups_append {on off : List Event} :
    SameRouting gw header (lookups gw w header ++ on) (lookups gw w header ++ off)
      ↔ SameRouting gw header on off := by
  have hcalls (ai model) (events : List Event) :
      (∃ e ∈ lookups gw w header ++ events, e.Calls ai model) ↔ ∃ e ∈ events, e.Calls ai model :=
    exists_mem_lookups_append (fun t r h => h) events
  have hhandler (r : Route) (events : List Event) :
      .handler r ∈ lookups gw w header ++ events ↔ .handler r ∈ events :=
    mem_lookups_append (by simp) events
  have hwrite (res : Response) (events : List Event) :
      .doWrite res ∈ lookups gw w header ++ events ↔ .doWrite res ∈ events :=
    mem_lookups_append (by simp) events
  constructor
  · rintro ⟨hadapter, hhandlers, hanswer, hchat⟩
    simp only [hcalls, hhandler, hwrite] at hadapter hhandlers hanswer hchat
    exact ⟨hadapter, hhandlers, hanswer, hchat⟩
  · rintro ⟨hadapter, hhandlers, hanswer, hchat⟩
    refine ⟨?_, ?_, ?_, ?_⟩ <;> simp only [hcalls, hhandler, hwrite] <;> assumption

/-- An error response is the same error as itself. -/
theorem isErrorResult_sameError {res : Response} (h : gw.IsErrorResult header res) :
    gw.SameError res res := by
  obtain ⟨status, code, message, rfl⟩ := h
  exact ⟨rfl, code, message, message, rfl, rfl⟩

/-- Two runs that are answered, with no adapter and no handler but that of `/api/chat`. -/
theorem sameRouting_of_sameError {on off : List Event} {res res' : Response}
    (hon : on = [.doWrite res] ∨ on = [.handler .chat, .doWrite res])
    (hoff : off = [.doWrite res'] ∨ off = [.handler .chat, .doWrite res'])
    (h : gw.SameError res res') : SameRouting gw header on off := by
  have hcalls {events : List Event} {res : Response}
      (hevents : events = [.doWrite res] ∨ events = [.handler .chat, .doWrite res]) (ai model) :
      ¬ ∃ e ∈ events, e.Calls ai model := by
    rcases hevents with rfl | rfl <;> simp [Event.Calls]
  have hhandler {events : List Event} {res : Response}
      (hevents : events = [.doWrite res] ∨ events = [.handler .chat, .doWrite res]) {r : Route}
      (hr : r ≠ .chat) : .handler r ∉ events := by
    rcases hevents with rfl | rfl <;> simp [hr]
  exact {
    adapter := fun ai model => iff_of_false (hcalls hon ai model) (hcalls hoff ai model)
    handler := fun r hr => iff_of_false (hhandler hon hr) (hhandler hoff hr)
    answer := fun _ _ => ⟨res, res', by rcases hon with rfl | rfl <;> simp,
      by rcases hoff with rfl | rfl <;> simp, h⟩
    chat := fun ai model hcall => absurd hcall (not_or_intro (hcalls hon ai model)
      (hcalls hoff ai model)) }

/-- Only the handler of `/api/chat` calls an adapter. -/
theorem not_calls_of_handler {r : Route} (hr : r ≠ .chat) {events : List Event}
    (hevents : ∀ e ∈ events, e.InHandler r ∨ ∃ res, e = .doWrite res) (ai : ℕ)
    (model : Option Json) : ¬ ∃ e ∈ .handler r :: events, e.Calls ai model := by
  rintro ⟨e, he, hcall⟩
  rcases List.mem_cons.mp he with rfl | he
  · exact hcall
  rcases hevents e he with hin | ⟨res, rfl⟩
  · cases e <;> first | exact hcall | exact hr hin | exact hin
  · exact hcall

/-- Two runs of the handler of a route other than `/api/chat`. -/
theorem sameRouting_of_handler {r : Route} (hr : r ≠ .chat) {on off : List Event}
    (hon : ∀ e ∈ on, e.InHandler r ∨ ∃ res, e = .doWrite res)
    (hoff : ∀ e ∈ off, e.InHandler r ∨ ∃ res, e = .doWrite res) :
    SameRouting gw header (.handler r :: on) (.handler r :: off) := by
  have hoff' := not_calls_of_handler hr hoff
  have hon' := not_calls_of_handler hr hon
  have hhandler {events : List Event}
      (hevents : ∀ e ∈ events, e.InHandler r ∨ ∃ res, e = .doWrite res) (r' : Route) :
      .handler r' ∈ .handler r :: events ↔ r' = r := by
    constructor
    · intro hmem
      rcases List.mem_cons.mp hmem with h | hmem
      · cases h
        rfl
      · rcases hevents _ hmem with hin | ⟨res, h⟩
        · exact hin
        · cases h
    · rintro rfl
      exact List.mem_cons_self
  exact {
    adapter := fun ai model => iff_of_false (hon' ai model) (hoff' ai model)
    handler := fun r' _ => (hhandler hon r').trans (hhandler hoff r').symm
    answer := fun _ h => absurd List.mem_cons_self (h r hr)
    chat := fun ai model hcall => absurd hcall (not_or_intro (hon' ai model) (hoff' ai model)) }

/-- A stream and a chat that call the same adapter with the same model. -/
theorem sameRouting_of_chat (hchat : header.method = .post ∧ header.target = utf8 "/api/chat")
    {ai : ℕ} {body body' : Json} (hmodel : modelOf body = modelOf body') {version : ℕ}
    {keepAlive : Bool} {answers : List Event} (hanswers : ∀ e ∈ answers, ∃ res, e = .doWrite res) :
    SameRouting gw header [.startStream version keepAlive, .chatCompletionStream ai body]
      (.handler .chat :: .chatCompletion ai body' :: answers) := by
  have hno {P : Event → Prop} (hP : ∀ res, ¬ P (.doWrite res)) : ¬ ∃ e ∈ answers, P e := by
    rintro ⟨e, he, h⟩
    obtain ⟨res, rfl⟩ := hanswers e he
    exact hP res h
  have hon (ai' model) :
      (∃ e ∈ [Event.startStream version keepAlive, .chatCompletionStream ai body],
        e.Calls ai' model) ↔ ai = ai' ∧ modelOf body = model := by
    simp [Event.Calls]
  exact {
    adapter := fun ai' model => by
      rw [hon]
      simp [Event.Calls, hno, hmodel]
    handler := fun r hr => by
      have hmem : .handler r ∉ answers := fun h => by
        obtain ⟨res, h⟩ := hanswers _ h
        cases h
      simp [hr, hmem]
    answer := fun h _ => absurd ((hon ai (modelOf body)).mpr ⟨rfl, rfl⟩) (h ai (modelOf body))
    chat := fun _ _ _ => hchat }

end

section

variable {gw : Gateway} {w : World} {bucket : TokenBucket} {p : StreamPair gw.lib}
  {headerWritten : Bool}

/-- The runs are compared by what follows the lookup. -/
theorem sameRouting_iff_of_run {on off : List Event}
    (hon : Run gw w bucket p headerWritten true on)
    (hoff : Run gw w bucket p headerWritten false off) :
    SameRouting gw p.header (Gateway.served gw w bucket (p.request true) headerWritten).trace
        (Gateway.served gw w bucket (p.request false) headerWritten).trace
      ↔ SameRouting gw p.header on off := by
  rw [hon, hoff, sameRouting_lookups_append]

/-- A run in which nothing is called and nothing is written is not routed like any other. -/
theorem not_sameRouting_of_silent {header : RequestHeader} {on off : List Event}
    (h : ∀ e ∈ on, e.IsSilent) : ¬ SameRouting gw header on off := by
  intro hsame
  obtain ⟨res, -, hres, -⟩ := hsame.answer
    (by
      rintro ai model ⟨e, he, hcall⟩
      have hsilent := h e he
      cases e <;> first | exact hcall | exact hsilent)
    (fun r hr hmem => hr (h _ hmem))
  exact h _ hres

variable (hdef : ChainDefined gw w bucket p.header) (hadm : Admitted gw w bucket p.header)

include hdef hadm

/-- Without a stream both requests are routed. -/
theorem sameRouting_iff_of_not_streams (hstreams : ¬ p.Streams) :
    SameRouting gw p.header (Gateway.served gw w bucket (p.request true) headerWritten).trace
        (Gateway.served gw w bucket (p.request false) headerWritten).trace
      ↔ match routeOf p.header.method p.header.target with
        | some .chat => gw.adapters = []
        | some _ => True
        | none => ValidUtf8 p.header.target := by
  have hnot : ∀ stream, ¬ ∃ body model, gw.Streams (p.request stream) body model
    | true => mt p.exists_streams_true_iff.mp hstreams
    | false => p.not_streams_false
  cases hr : routeOf p.header.method p.header.target with
  | none =>
    have hrun := fun stream => run_of_no_route headerWritten hdef hadm
      (hnot stream) hr
    by_cases htext : ValidUtf8 p.header.target
    · rw [sameRouting_iff_of_run ((hrun true).1 htext) ((hrun false).1 htext)]
      exact iff_of_true (sameRouting_of_sameError (.inl rfl) (.inl rfl)
        (isErrorResult_sameError ⟨_, _, _, rfl⟩)) htext
    · rw [sameRouting_iff_of_run ((hrun true).2 htext) ((hrun false).2 htext)]
      exact iff_of_false (not_sameRouting_of_silent (by simp [Event.IsSilent])) htext
  | some r =>
    by_cases hchat : r = .chat
    · subst hchat
      by_cases hadapters : gw.adapters = []
      · have hrun := fun stream => run_of_chat_no_adapters headerWritten hdef hadm
          (hnot stream) hr hadapters
        rw [sameRouting_iff_of_run (hrun true) (hrun false)]
        exact iff_of_true (sameRouting_of_sameError (.inr rfl) (.inr rfl)
          (isErrorResult_sameError ⟨_, _, _, rfl⟩)) hadapters
      · have hmodel : ∀ model, ¬ p.Names "deepseek-v4-flash" model := fun model h =>
          hstreams ⟨hadapters, h.exists "deepseek-chat"⟩
        have hrun := fun stream => run_of_chat_unreadable headerWritten hdef hadm
          (hnot stream) hr hadapters hmodel
        rw [sameRouting_iff_of_run (hrun true) (hrun false)]
        exact iff_of_false (not_sameRouting_of_silent (by simp [Event.IsSilent])) hadapters
    · obtain ⟨on, hon, hon'⟩ := exists_run_of_route headerWritten hdef hadm
        (hnot true) hr
      obtain ⟨off, hoff, hoff'⟩ := exists_run_of_route headerWritten hdef hadm
        (hnot false) hr
      rw [sameRouting_iff_of_run hon hoff]
      refine iff_of_true (sameRouting_of_handler hchat hon' hoff') ?_
      cases r <;> first | exact trivial | exact absurd rfl hchat

variable {model : Bytes} (hadapters : gw.adapters ≠ []) (hmodel : p.Names "deepseek-chat" model)

include hmodel

/-- A request that is answered without an adapter is not routed like one that starts a stream. -/
theorem not_sameRouting_of_started {ai : Fin gw.adapters.length}
    (hcreate : gw.adapters.create model = some ai) {off : List Event}
    (hoff : Run gw w bucket p headerWritten false off)
    (hno : ∀ ai model, ¬ ∃ e ∈ off, e.Calls ai model) :
    ¬ SameRouting gw p.header (Gateway.served gw w bucket (p.request true) headerWritten).trace
        (Gateway.served gw w bucket (p.request false) headerWritten).trace := by
  cases headerWritten with
  | false =>
    rw [sameRouting_iff_of_run (run_of_streams_not_written hdef hadm hmodel hcreate) hoff]
    exact not_sameRouting_of_silent (by simp [Event.IsSilent])
  | true =>
    rw [sameRouting_iff_of_run (run_of_streams_written hdef hadm hmodel hcreate) hoff]
    intro h
    -- the adapter that serves the stream is called in the first run only
    have hcall := (h.adapter ai (modelOf (p.document true))).mp
      ⟨.chatCompletionStream ai (p.document true), by simp, rfl, rfl⟩
    exact hno _ _ hcall

include hadapters

/-- A stream that has another handler, or none, is not routed like it. -/
theorem not_sameRouting_of_not_chat (hr : routeOf p.header.method p.header.target ≠ some .chat) :
    ¬ SameRouting gw p.header (Gateway.served gw w bucket (p.request true) headerWritten).trace
        (Gateway.served gw w bucket (p.request false) headerWritten).trace := by
  cases hroute : routeOf p.header.method p.header.target with
  | none =>
    obtain ⟨off, hoff, hnotFound⟩ : ∃ off, Run gw w bucket p headerWritten false off ∧
        ∀ e ∈ off, e = .doWrite (gw.errorResult .notFound "not_found"
          (utf8 "请求的路径不存在: " ++ p.header.target) p.header) := by
      have hrun := run_of_no_route headerWritten hdef hadm p.not_streams_false hroute
      by_cases htext : ValidUtf8 p.header.target
      · exact ⟨_, hrun.1 htext, by simp⟩
      · exact ⟨_, hrun.2 htext, by simp⟩
    cases hcreate : gw.adapters.create model with
    | none =>
      -- the two answers have different statuses
      have hon := run_of_streams_none headerWritten hdef hadm hadapters hmodel hcreate
      rw [sameRouting_iff_of_run hon hoff]
      intro h
      obtain ⟨res, res', hres, hres', hstatus, -⟩ :=
        h.answer (by simp [Event.Calls]) (by simp)
      cases List.mem_singleton.mp hres
      cases hnotFound _ hres'
      cases hstatus
    | some ai =>
      apply not_sameRouting_of_started hdef hadm hmodel hcreate hoff
      rintro ai' model' ⟨e, he, hcall⟩
      rw [hnotFound e he] at hcall
      exact hcall
  | some r =>
    have hne : r ≠ .chat := fun h => hr (by rw [hroute, h])
    obtain ⟨off, hoff, hevents⟩ :=
      exists_run_of_route headerWritten hdef hadm p.not_streams_false hroute
    cases hcreate : gw.adapters.create model with
    | none =>
      -- the handler runs for the second request only
      have hon := run_of_streams_none headerWritten hdef hadm hadapters hmodel hcreate
      rw [sameRouting_iff_of_run hon hoff]
      intro h
      simpa using (h.handler r hne).mpr List.mem_cons_self
    | some ai =>
      exact not_sameRouting_of_started hdef hadm hmodel hcreate hoff
        (not_calls_of_handler hne hevents)

/-- For a stream that has the chat handler, the two default models decide. -/
theorem sameRouting_iff_of_chat (hchat : routeOf p.header.method p.header.target = some .chat)
    {model' : Bytes} (hmodel' : p.Names "deepseek-v4-flash" model') :
    SameRouting gw p.header (Gateway.served gw w bucket (p.request true) headerWritten).trace
        (Gateway.served gw w bucket (p.request false) headerWritten).trace
      ↔ gw.adapters.create model = gw.adapters.create model' ∧
        (gw.adapters.create model = none ∨ headerWritten = true) := by
  have hnot := p.not_streams_false
  cases hcreate' : gw.adapters.create model' with
  | none =>
    have hoff := run_of_chat_none headerWritten hdef hadm hnot hchat hmodel' hadapters hcreate'
    cases hcreate : gw.adapters.create model with
    | none =>
      -- both are refused, though with different texts
      have hon := run_of_streams_none headerWritten hdef hadm hadapters hmodel hcreate
      rw [sameRouting_iff_of_run hon hoff]
      exact iff_of_true (sameRouting_of_sameError (.inl rfl) (.inr rfl)
        ⟨rfl, _, _, _, rfl, rfl⟩) ⟨rfl, .inl rfl⟩
    | some ai =>
      refine iff_of_false (not_sameRouting_of_started hdef hadm hmodel hcreate hoff ?_) (by simp)
      simp [Event.Calls]
  | some ai' =>
    obtain ⟨answers, hoff, hanswers⟩ :=
      exists_run_of_chat_some headerWritten hdef hadm hnot hchat hmodel' hcreate'
    have hcalls {on : List Event} (h : SameRouting gw p.header on
        (.handler .chat :: .chatCompletion ai' (p.document false) :: answers)) :
        ∃ e ∈ on, e.Calls ai' (modelOf (p.document false)) :=
      (h.adapter ai' _).mpr ⟨.chatCompletion ai' (p.document false), by simp, rfl, rfl⟩
    cases hcreate : gw.adapters.create model with
    | none =>
      have hon := run_of_streams_none headerWritten hdef hadm hadapters hmodel hcreate
      rw [sameRouting_iff_of_run hon hoff]
      refine iff_of_false (fun h => ?_) (by simp)
      simpa [Event.Calls] using hcalls h
    | some ai =>
      cases headerWritten with
      | false =>
        rw [sameRouting_iff_of_run (run_of_streams_not_written hdef hadm hmodel hcreate) hoff]
        exact iff_of_false (not_sameRouting_of_silent (by simp [Event.IsSilent])) (by simp)
      | true =>
        rw [sameRouting_iff_of_run (run_of_streams_written hdef hadm hmodel hcreate) hoff,
          and_iff_left (.inr rfl), Option.some.injEq]
        constructor
        · intro h
          obtain ⟨e, he, hcall⟩ := hcalls h
          rcases List.mem_pair.mp he with rfl | rfl
          · exact absurd hcall id
          · exact Fin.ext hcall.1
        · rintro rfl
          have hmodels : modelOf (p.document true) = modelOf (p.document false) := by
            rw [p.modelOf_document, p.modelOf_document]
          exact sameRouting_of_chat (routeOf_eq_chat.mp hchat) hmodels hanswers

end

/-- **What the option `stream` changes.** Two requests that differ in the option alone are routed
alike exactly where the chain has a defined behaviour and either answers them or `RoutedAlike`
holds. -/
theorem sameRouting_iff (gw : Gateway) (w : World) (bucket : TokenBucket) (p : StreamPair gw.lib)
    (headerWritten : Bool) :
    SameRouting gw p.header (Gateway.served gw w bucket (p.request true) headerWritten).trace
        (Gateway.served gw w bucket (p.request false) headerWritten).trace
      ↔ ChainDefined gw w bucket p.header ∧
        (Admitted gw w bucket p.header → RoutedAlike gw p headerWritten) := by
  by_cases hdef : ChainDefined gw w bucket p.header
  swap
  · -- undefined behaviour in the chain: nothing is answered
    obtain ⟨w', htrace, hreq⟩ := Gateway.handleRequest_of_not_defined hdef
    have hreq' : gw.handleRequest (p.request true) (w.inMain bucket) = (.ub, w') := hreq _
    rw [Gateway.served_of_not_started headerWritten hreq' (by simp)]
    refine iff_of_false (not_sameRouting_of_silent ?_) fun h => hdef h.1
    intro e he
    obtain ⟨t, r, rfl⟩ := lookups_spec (htrace e he)
    exact trivial
  rw [and_iff_right hdef]
  by_cases hadm : Admitted gw w bucket p.header
  swap
  · -- the chain answers both
    obtain ⟨res, hres, hrun⟩ := run_of_not_admitted headerWritten hdef hadm
    rw [sameRouting_iff_of_run (hrun true) (hrun false)]
    exact iff_of_true (sameRouting_of_sameError (.inl rfl) (.inl rfl)
      (isErrorResult_sameError hres)) fun h => absurd h hadm
  rw [forall_prop_of_true hadm, RoutedAlike]
  by_cases hstreams : p.Streams
  swap
  · rw [sameRouting_iff_of_not_streams hdef hadm hstreams, forall_prop_of_true hstreams,
      and_iff_right fun h => absurd h hstreams]
  rw [forall_prop_of_true hstreams, and_iff_left fun h => absurd hstreams h]
  obtain ⟨hadapters, model, hmodel⟩ := hstreams
  by_cases hchat : routeOf p.header.method p.header.target = some .chat
  · obtain ⟨model', hmodel'⟩ := hmodel.exists "deepseek-v4-flash"
    rw [sameRouting_iff_of_chat hdef hadm hadapters hmodel hchat hmodel',
      and_iff_right hchat]
    constructor
    · intro h
      exact ⟨model, model', hmodel, hmodel', h⟩
    · rintro ⟨m, m', hm, hm', h⟩
      rwa [hmodel.unique hm, hmodel'.unique hm'] at h
  · exact iff_of_false (not_sameRouting_of_not_chat hdef hadm hadapters hmodel hchat)
      fun h => hchat h.1

/-- A gateway that parses `{"stream":true}` and `{"stream":false}`. -/
def Gateway.smallStream : Gateway :=
  .small [(utf8 "\x7b\"stream\":true\x7d", ⟨.obj [("stream", .boolean true)], rfl⟩),
    (utf8 "\x7b\"stream\":false\x7d", ⟨.obj [("stream", .boolean false)], rfl⟩)]
    [Adapter.small "deepseek"]

/-- Two requests for the health of the server. -/
def StreamPair.health : StreamPair Gateway.smallStream.lib where
  header := { method := .get, target := utf8 "/health" }
  fields := []
  body stream := utf8 (if stream then "\x7b\"stream\":true\x7d" else "\x7b\"stream\":false\x7d")
  parsed stream := by cases stream <;> rfl

/-- With a body that asks for a stream, the question for the health of the server is put to an
adapter. -/
theorem not_sameRouting_health :
    let gw := Gateway.smallStream
    let p := StreamPair.health
    ¬ SameRouting gw p.header (gw.served .small ⟨10, 10, 5, 0⟩ (p.request true) true).trace
      (gw.served .small ⟨10, 10, 5, 0⟩ (p.request false) true).trace := by
  have hpath : Whitelisted StreamPair.health.header.target := .inl rfl
  have hlimit : LimiterDefined .small ⟨10, 10, 5, 0⟩ := by
    unfold LimiterDefined
    decide
  have hadm : Admitted .smallStream .small ⟨10, 10, 5, 0⟩ StreamPair.health.header :=
    ⟨.inl hpath, by decide⟩
  have hmodel : StreamPair.health.Names "deepseek-chat" (utf8 "deepseek-chat") := rfl
  exact not_sameRouting_of_not_chat ⟨.inl hpath, fun _ => hlimit⟩ hadm (List.cons_ne_nil _ _)
    hmodel (by decide +kernel)

end AiSwitch
