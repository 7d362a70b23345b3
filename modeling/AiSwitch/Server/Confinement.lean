import AiSwitch.Common.TwoRuns
import AiSwitch.Server.RequestRule
import AiSwitch.Server.StreamTask
import AiSwitch.Startup
import Mathlib.Logic.Function.DependsOn

/-!
# Where requests and keys go

A run of requests depends on the network only at the POSTs that an adapter makes of the body of one
of the requests, to the provider that this body names, with the key that the operator has given for
this provider (`posts_confined`). So no provider receives the key of another one, or a request that
is meant for another one.

The proof runs the gateway on two networks side by side (`Prog.Alike`), which agree on these POSTs.
-/

namespace AiSwitch

open ByteString Effect Nlohmann Http

/-! ## The POSTs of an adapter -/

section Calls

variable {lib : Lib} {net net' : Network} {request : Json}

namespace OpenaiCompatible

variable {a : OpenaiCompatible}

/-- The call depends on one POST, which carries the document made of the request. -/
theorem chatCompletion_congr (h : ∀ doc text, a.buildRequestBody request false = .ok doc →
      lib.dump doc = .ok text → net (a.httpRequest text) = net' (a.httpRequest text)) :
    a.chatCompletion lib net request = a.chatCompletion lib net' request := by
  unfold chatCompletion
  cases hdoc : a.buildRequestBody request false with
  | ok doc =>
    cases htext : lib.dump doc with
    | ok text => simp only [Outcome.ok_bind, htext, httpPost, h doc text hdoc htext]
    | throw e => simp [htext]
    | ub => simp [htext]
  | throw e => rfl
  | ub => rfl

/-- The streaming call depends on one POST, which carries the document made of the request. -/
theorem chatCompletionStream_congr (h : ∀ doc text, a.buildRequestBody request true = .ok doc →
      lib.dump doc = .ok text → net (a.httpRequest text) = net' (a.httpRequest text)) :
    a.chatCompletionStream lib net request = a.chatCompletionStream lib net' request := by
  unfold chatCompletionStream
  cases hdoc : a.buildRequestBody request true with
  | ok doc =>
    cases htext : lib.dump doc with
    | ok text => simp only [Prog.lift_ok_bind, htext, httpPostStream, h doc text hdoc htext]
    | throw e => simp [htext]
    | ub => simp [htext]
  | throw e => rfl
  | ub => rfl

end OpenaiCompatible

namespace Anthropic

variable {a : Anthropic}

/-- The call of the adapter of `anthropic` depends on one POST, to `/messages`. -/
theorem chatCompletion_congr (h : ∀ doc text, a.buildRequestBody request false = .ok doc →
      lib.dump doc = .ok text → net ⟨a.baseUrl ++ utf8 "/messages", a.headers, text⟩
        = net' ⟨a.baseUrl ++ utf8 "/messages", a.headers, text⟩) :
    a.chatCompletion lib net request = a.chatCompletion lib net' request := by
  unfold chatCompletion
  cases hdoc : a.buildRequestBody request false with
  | ok doc =>
    cases htext : lib.dump doc with
    | ok text => simp only [Outcome.ok_bind, htext, httpPost, h doc text hdoc htext]
    | throw e => simp [htext]
    | ub => simp [htext]
  | throw e => rfl
  | ub => rfl

/-- The streaming call of the adapter of `anthropic` depends on one POST, to a URL without the
slash. -/
theorem chatCompletionStream_congr (h : ∀ doc text, a.buildRequestBody request true = .ok doc →
      lib.dump doc = .ok text → net ⟨a.baseUrl ++ utf8 "messages", a.headers, text⟩
        = net' ⟨a.baseUrl ++ utf8 "messages", a.headers, text⟩) :
    a.chatCompletionStream lib net request = a.chatCompletionStream lib net' request := by
  unfold chatCompletionStream
  cases hdoc : a.buildRequestBody request true with
  | ok doc =>
    cases htext : lib.dump doc with
    | ok text => simp only [Prog.lift_ok_bind, htext, httpPostStream, h doc text hdoc htext]
    | throw e => simp [htext]
    | ub => simp [htext]
  | throw e => rfl
  | ub => rfl

end Anthropic

end Calls

namespace Provider

/-- The paths below its base URL that the provider's adapter uses. -/
def paths : Provider → List String
  | deepseek | openai => ["/chat/completions"]
  | anthropic => ["/messages", "messages"]

/-- The headers that the provider's adapter sends. -/
def headers (key : Bytes) : Provider → List Bytes
  | deepseek | openai =>
    [utf8 "Content-Type: application/json", utf8 "Authorization: Bearer " ++ key]
  | anthropic =>
    [utf8 "Content-Type: application/json", utf8 "x-api-key: " ++ key,
      utf8 "anthropic-version: 2023-06-01"]

/-- The document that the provider's adapter makes of a request. -/
def buildRequestBody (key url : Bytes) (request : Json) (stream : Bool) :
    Provider → Outcome Exn Json
  | deepseek => (deepseekAdapter key url).buildRequestBody request stream
  | openai => (openaiAdapter key url).buildRequestBody request stream
  | anthropic => Anthropic.buildRequestBody { apiKey := key, baseUrl := url } request stream

/-- The POST goes to the provider, with this key and no other, and carries the request. -/
structure Receives (lib : Lib) (key baseUrl : Bytes) (request : Json) (pr : Provider)
    (p : HttpPost) : Prop where
  url : ∃ path ∈ pr.paths, p.url = baseUrl ++ utf8 path
  headers : p.headers = pr.headers key
  body : ∃ stream doc, pr.buildRequestBody key baseUrl request stream = .ok doc ∧
    lib.dump doc = .ok p.body

variable {lib : Lib} {net net' : Network} {key url : Bytes} {request : Json} {pr : Provider}

/-- The calls of an adapter depend on the POSTs to its provider alone. -/
theorem calls_congr (h : ∀ p, pr.Receives lib key url request p → net p = net' p) :
    (pr.adapter lib net key url).chatCompletion request
        = (pr.adapter lib net' key url).chatCompletion request ∧
      (pr.adapter lib net key url).chatCompletionStream request
        = (pr.adapter lib net' key url).chatCompletionStream request := by
  cases pr with
  | deepseek | openai =>
    exact ⟨OpenaiCompatible.chatCompletion_congr fun doc text hdoc htext =>
        h _ ⟨⟨_, List.mem_singleton_self _, rfl⟩, rfl, false, doc, hdoc, htext⟩,
      OpenaiCompatible.chatCompletionStream_congr fun doc text hdoc htext =>
        h _ ⟨⟨_, List.mem_singleton_self _, rfl⟩, rfl, true, doc, hdoc, htext⟩⟩
  | anthropic =>
    exact ⟨Anthropic.chatCompletion_congr fun doc text hdoc htext =>
        h _ ⟨⟨"/messages", by simp [paths], rfl⟩, rfl, false, doc, hdoc, htext⟩,
      Anthropic.chatCompletionStream_congr fun doc text hdoc htext =>
        h _ ⟨⟨"messages", by simp [paths], rfl⟩, rfl, true, doc, hdoc, htext⟩⟩

end Provider

/-! ## The adapter of a request -/

namespace AdapterFactory

variable {factory factory' : AdapterFactory}

/-- Which position is selected depends on the prefixes alone. -/
theorem map_val_create (factory : AdapterFactory) (modelName : Bytes) :
    (factory.create modelName).map Fin.val = (factory.map (·.modelPrefix)).findIdx?
      fun modelPrefix => Delimited.find modelPrefix modelName == some 0 := by
  rw [create, ← List.findIdx?_eq_map_findFinIdx?_val, List.findIdx?_map]
  rfl

/-- The factories select adapters at the same positions, which answer the request alike. -/
structure SameFor (lib : Lib) (req : Request) (factory factory' : AdapterFactory) : Prop where
  prefixes : factory.map (·.modelPrefix) = factory'.map (·.modelPrefix)
  answers : ∀ body model i j, lib.parse req.body = .ok body →
    body.value "model" Json.getString (utf8 "deepseek-v4-flash") = .ok model →
    factory.create model = some i → factory'.create model = some j →
    (factory.get i).chatCompletion body = (factory'.get j).chatCompletion body

/-- Both factories select the adapter at one position, or neither selects one. -/
theorem SameFor.create_cases {lib : Lib} {req : Request} (h : SameFor lib req factory factory')
    (modelName : Bytes) : factory.create modelName = none ∧ factory'.create modelName = none ∨
      ∃ i j, factory.create modelName = some i ∧ factory'.create modelName = some j ∧
        i.val = j.val := by
  have hval : (factory.create modelName).map Fin.val = (factory'.create modelName).map Fin.val := by
    rw [map_val_create, map_val_create, h.prefixes]
  cases hi : factory.create modelName with
  | none =>
    rw [hi, Option.map_none, eq_comm, Option.map_eq_none_iff] at hval
    exact .inl ⟨rfl, hval⟩
  | some i =>
    rw [hi, Option.map_some, eq_comm, Option.map_eq_some_iff] at hval
    obtain ⟨j, hj, hij⟩ := hval
    exact .inr ⟨i, j, rfl, hj, hij.symm⟩

end AdapterFactory

/-! ## Two gateways -/

namespace Gateway

/-- The gateway with other adapters. -/
abbrev withAdapters (gw : Gateway) (factory : AdapterFactory) : Gateway :=
  { gw with adapters := factory }

/-- The middlewares do not know the adapters. -/
theorem processAll_congr (gw : Gateway) (factory : AdapterFactory) (mws : List Middleware)
    (ctx : Context) : Middleware.processAll gw mws ctx
      = Middleware.processAll (gw.withAdapters factory) mws ctx := by
  induction mws generalizing ctx with
  | nil => rfl
  | cons mw mws ih =>
    have hprocess : Middleware.process gw ctx mw
        = Middleware.process (gw.withAdapters factory) ctx mw := by cases mw <;> rfl
    simp only [Middleware.processAll, hprocess, ih]

/-- The chain does not know the adapters. -/
theorem processChain_congr (gw : Gateway) (factory : AdapterFactory) (ctx : Context) :
    gw.processChain ctx = (gw.withAdapters factory).processChain ctx := by
  simp only [processChain, processAll_congr gw factory]

variable {gw : Gateway} {factory : AdapterFactory} {req : Request}
  (h : AdapterFactory.SameFor gw.lib req gw.adapters factory)

include h

/-- A chat request is answered alike where the adapters that it selects answer alike. -/
theorem chatWith_congr {body : Json} (hbody : gw.lib.parse req.body = .ok body) :
    gw.chatWith body req.toRequestHeader
      = (gw.withAdapters factory).chatWith body req.toRequestHeader := by
  have hcount : gw.adapters.count = factory.count := by
    simpa [AdapterFactory.count] using congrArg List.length h.prefixes
  unfold chatWith
  rw [hcount]
  split
  · rfl
  · cases hmodel : body.value "model" Json.getString (utf8 "deepseek-v4-flash") with
    | ok model =>
      simp only [Prog.lift_ok_bind]
      rcases h.create_cases model with ⟨hi, hj⟩ | ⟨i, j, hi, hj, hij⟩
      · rw [hi, hj]
        rfl
      · rw [hi, hj]
        unfold callAdapter
        have hcall : gw.adapters[i].chatCompletion body = factory[j].chatCompletion body :=
          h.answers body model i j hbody hmodel hi hj
        dsimp only
        rw [hcall, hij]
        rfl
    | throw e => rfl
    | ub => rfl

/-- Every handler answers alike where the adapters that the request selects answer alike. -/
theorem handlerOf_congr (r : Route) :
    gw.handlerOf r req = (gw.withAdapters factory).handlerOf r req := by
  cases r with
  | chat =>
    show gw.handleChat req = (gw.withAdapters factory).handleChat req
    unfold handleChat
    cases hbody : gw.lib.parse req.body with
    | ok body =>
      exact congrArg (fun k => emit (.handler .chat) >>= fun _ => k) (chatWith_congr h hbody)
    | throw e => cases e <;> rfl
    | ub => rfl
  | health | createKey | listKeys | disableKey => rfl

/-- The router answers alike where the adapters that the request selects answer alike. -/
theorem dispatch_congr :
    gw.router.dispatch gw.lib req = (gw.withAdapters factory).router.dispatch gw.lib req := by
  cases hr : routeOf req.method req.target with
  | none =>
    rw [gw.dispatch_of_none hr]
    exact ((gw.withAdapters factory).dispatch_of_none hr).symm
  | some r =>
    rw [gw.dispatch_of_some hr, handlerOf_congr h]
    exact ((gw.withAdapters factory).dispatch_of_some hr).symm

/-- The branches end in the same way, with adapters at the same position. -/
def AtSamePosition : StreamBranch gw → StreamBranch (gw.withAdapters factory) → Prop
  | .answered, .answered => True
  | .started ai body, .started ai' body' => ai.val = ai'.val ∧ body = body'
  | .notTaken, .notTaken => True
  | _, _ => False

/-- The streaming branch ends in the same way, with adapters at the same position. -/
theorem alike_streamBranch :
    Prog.Alike (fun s t => s = t) AtSamePosition (gw.streamBranch req)
      ((gw.withAdapters factory).streamBranch req) := by
  have hcount : gw.adapters.count = factory.count := by
    simpa [AdapterFactory.count] using congrArg List.length h.prefixes
  unfold streamBranch
  rw [hcount]
  refine (Prog.alike_lift _).bind_eq fun body => (Prog.alike_lift _).bind_eq fun wantStream => ?_
  split
  · refine (Prog.alike_of_eq rfl).bind_eq fun _ => (Prog.alike_lift _).bind_eq fun model => ?_
    unfold startStream
    rcases h.create_cases model with ⟨hi, hj⟩ | ⟨i, j, hi, hj, hij⟩
    · rw [hi, hj]
      refine (Prog.alike_of_eq rfl).bind_eq fun res => (Prog.alike_of_eq rfl).bind_eq fun _ => ?_
      exact Prog.alike_pure trivial
    · rw [hi, hj]
      exact (Prog.alike_of_eq rfl).bind_eq fun _ => Prog.alike_pure ⟨hij, rfl⟩
  · exact Prog.alike_pure trivial

/-- The position and the request of a stream. -/
def position {n : ℕ} (s : Fin n × Json) : ℕ × Json := (s.1, s.2)

/-- The session handles the request alike under both factories. -/
theorem alike_handleRequest :
    Prog.Alike (fun s t => s = t) (fun s t => s.map position = t.map position)
      (gw.handleRequest req) ((gw.withAdapters factory).handleRequest req) := by
  unfold handleRequest
  refine (Prog.alike_of_eq (processChain_congr gw factory _)).bind_eq fun ctx => ?_
  split
  · split
    · exact (Prog.alike_of_eq rfl).bind_eq fun _ => Prog.alike_pure rfl
    · exact Prog.alike_throw _
  · have hcaught : Prog.Alike (fun s t => s = t) AtSamePosition
        (Prog.tryCatch (gw.streamBranch req) fun _ => pure .notTaken)
        (Prog.tryCatch ((gw.withAdapters factory).streamBranch req) fun _ => pure .notTaken) :=
      (alike_streamBranch h).tryCatch fun _ => Prog.alike_pure trivial
    refine hcaught.bind fun branch branch' hbranch => ?_
    cases branch with
    | answered =>
      cases branch' with
      | answered => exact Prog.alike_pure rfl
      | started | notTaken => exact hbranch.elim
    | started ai body =>
      cases branch' with
      | started ai' body' => exact Prog.alike_pure (congrArg some (Prod.ext hbranch.1 hbranch.2))
      | answered | notTaken => exact hbranch.elim
    | notTaken =>
      cases branch' with
      | notTaken =>
        refine (Prog.alike_of_eq (dispatch_congr h)).bind_eq fun res => ?_
        exact (Prog.alike_of_eq rfl).bind_eq fun _ => Prog.alike_pure rfl
      | answered | started => exact hbranch.elim

/-- With what follows it, the request is served alike. -/
theorem serve_congr (headerWritten : Bool) :
    gw.serve req headerWritten = (gw.withAdapters factory).serve req headerWritten := by
  apply Prog.Alike.eq
  unfold serve
  refine (alike_handleRequest h).bind fun s s' hs => ?_
  cases s with
  | none =>
    rw [Option.map_none, eq_comm, Option.map_eq_none_iff] at hs
    rw [hs]
    exact Prog.alike_pure rfl
  | some s =>
    rw [Option.map_some, eq_comm, Option.map_eq_some_iff] at hs
    obtain ⟨⟨ai, body⟩, rfl, hpos⟩ := hs
    obtain ⟨ai', body'⟩ := s
    obtain ⟨hai, rfl⟩ := Prod.mk.inj hpos
    dsimp only at hai ⊢
    rw [hai]
    exact Prog.alike_of_eq rfl

omit h in
/-- A run of requests that the adapters answer alike. -/
theorem handleArrivals_congr {arrivals : List Arrival}
    (h : ∀ a ∈ arrivals, AdapterFactory.SameFor gw.lib a.request gw.adapters factory) :
    gw.handleArrivals arrivals = (gw.withAdapters factory).handleArrivals arrivals := by
  induction arrivals with
  | nil => rfl
  | cons a arrivals ih =>
    rw [List.forall_mem_cons] at h
    rw [handleArrivals, handleArrivals, handleArrival, handleArrival, serve_congr h.1, ih h.2]

end Gateway

/-! ## The streams -/

/-- A stream is served by the adapter at the position that the body of the request selects. -/
def Event.Selected (gw : Gateway) (req : Request) : Event → Prop
  | chatCompletionStream ai body => ∃ model i, gw.lib.parse req.body = .ok body ∧
    body.value "model" Json.getString (utf8 "deepseek-chat") = .ok model ∧
    gw.adapters.create model = some i ∧ i.val = ai
  | findApiKey _ _ | createApiKey _ _ | listApiKeys | disableApiKey _ | handler _
  | chatCompletion _ _ | doWrite _ | startStream _ _ => True

namespace Gateway

variable (gw : Gateway) (req : Request)

/-- What handlers record meets the condition, as long as it is no stream. -/
theorem handles_selected : Handles gw (Event.Selected gw req) (Recorded (Event.Selected gw req)) :=
  { follows_recorded with
    flags := fun _ _ _ => recorded_of_trace_eq rfl
    create := fun _ _ => follows_recorded.emit_bind trivial (gw.moves_repository follows_recorded _)
    list := gw.moves_repository follows_recorded _
    disable := fun _ =>
      follows_recorded.emit_bind trivial (gw.moves_repository follows_recorded _) }

/-- The branch starts no stream but one that the body selects. -/
def BranchSelected : StreamBranch gw → Prop
  | .started ai body => Event.Selected gw req (.chatCompletionStream ai body)
  | .answered | .notTaken => True

/-- The stream that the branch starts is that of the body, -/
theorem yields_streamBranch :
    Prog.Yields (BranchSelected gw req) (gw.streamBranch req) := by
  unfold streamBranch
  refine Prog.Yields.bind (Prog.yields_lift fun body hbody => hbody) fun body hbody => ?_
  refine Prog.yields_bind fun wantStream => ?_
  split
  · refine Prog.yields_bind fun _ => ?_
    refine Prog.Yields.bind (Prog.yields_lift fun model hmodel => hmodel) fun model hmodel => ?_
    unfold startStream
    cases hai : gw.adapters.create model with
    | none =>
      exact Prog.yields_bind fun res => Prog.yields_bind fun _ => Prog.yields_pure trivial
    | some ai =>
      exact Prog.yields_bind fun _ => Prog.yields_pure ⟨model, ai, hbody, hmodel, hai, rfl⟩
  · exact Prog.yields_pure trivial

/-- A session hands over a selected stream, if any. -/
theorem yields_handleRequest : Prog.Yields (fun started => ∀ s ∈ started,
    Event.Selected gw req (.chatCompletionStream s.1 s.2)) (gw.handleRequest req) := by
  unfold handleRequest
  refine Prog.yields_bind fun ctx => ?_
  split
  · split
    · exact Prog.yields_bind fun _ => Prog.yields_pure (by simp)
    · exact Prog.yields_throw _
  · refine Prog.Yields.bind ((gw.yields_streamBranch req).tryCatch
      fun _ => Prog.yields_pure trivial) fun branch hbranch => ?_
    cases branch with
    | answered => exact Prog.yields_pure (by simp)
    | started ai body =>
      refine Prog.yields_pure ?_
      rintro _ ⟨⟩
      exact hbranch
    | notTaken =>
      exact Prog.yields_bind fun res => Prog.yields_bind fun _ => Prog.yields_pure (by simp)

/-- Only selected streams are recorded of a request. -/
theorem selected_handleRequest : Records (Event.Selected gw req) (gw.handleRequest req) := by
  have hselected := gw.handles_selected req
  unfold handleRequest
  apply hselected.bind (moves_processChain follows_recorded.toTracks gw
    (fun _ => gw.moves_repository follows_recorded _) (fun _ _ => trivial) _)
  intro ctx
  split
  · split
    · exact hselected.emit_bind trivial (hselected.pure _)
    · exact follows_recorded.throw _
  · apply hselected.bind (hselected.tryCatch
      (hselected.streamBranch (fun _ => trivial) (fun _ _ => trivial) req)
      fun _ => hselected.pure _)
    intro branch
    cases branch with
    | answered => exact hselected.pure _
    | started ai body => exact hselected.pure _
    | notTaken =>
      refine hselected.bind (hselected.dispatch ?_) fun res =>
        hselected.emit_bind trivial (hselected.pure _)
      intro r _ e he
      cases e with
      | chatCompletionStream => exact he.elim
      | _ => trivial

/-- Only selected streams are recorded of a request with what follows it. -/
theorem selected_handleArrival (a : Arrival) :
    Records (Event.Selected gw a.request) (gw.handleArrival a) := by
  have hselected := gw.handles_selected a.request
  unfold handleArrival serve
  apply hselected.bind fun w => recorded_of_trace_eq rfl
  intro _
  refine hselected.tryCatch ?_ fun _ => hselected.pure _
  refine Prog.Moves.bind_of_yields recorded_trans (gw.selected_handleRequest a.request)
    (gw.yields_handleRequest a.request) fun started hstarted => ?_
  split
  · rename_i ai body
    split
    · apply hselected.bind fun w => recorded_of_trace_eq rfl
      intro _
      exact fun w => hselected.event w _ (hstarted (ai, body) rfl)
    · exact hselected.pure _
  · exact hselected.pure _

/-- Only streams that one of the requests selects are recorded of a run of requests. -/
theorem selected_handleArrivals (arrivals : List Arrival) :
    Records (fun e => ∃ a ∈ arrivals, Event.Selected gw a.request e)
      (gw.handleArrivals arrivals) := by
  induction arrivals with
  | nil => exact follows_recorded.pure _
  | cons a arrivals ih =>
    rw [handleArrivals]
    apply follows_recorded.bind (records_mono (gw.selected_handleArrival a)
      fun e he => ⟨a, List.mem_cons_self, he⟩)
    intro _
    refine records_mono ih fun e he => ?_
    obtain ⟨b, hb, he⟩ := he
    exact ⟨b, List.mem_cons_of_mem a hb, he⟩

/-- The pool tasks of the recorded streams, in their order. -/
def streamTasks (events : List Event) : List (Option (List PostedHandler × Outcome Exn Unit)) :=
  events.filterMap fun
    | .chatCompletionStream ai body => some (gw.adapters[ai]?.map fun a => streamTask a body)
    | _ => none

/-- A run of requests, with the pool tasks of the streams that it starts. -/
def handleAll (arrivals : List Arrival) (w : World) :
    (Outcome Exn Unit × World) × List (Option (List PostedHandler × Outcome Exn Unit)) :=
  let ran := gw.handleArrivals arrivals w
  (ran, gw.streamTasks (ran.2.trace.drop w.trace.length))

end Gateway

/-! ## The gateway that `main` sets up -/

namespace AppConfig

variable {config : AppConfig} {lib : Lib} {net net' : Network}

/-- The adapters stand in the order of the providers that have keys. -/
theorem getElem?_adapterFactory (n : ℕ) : (config.adapterFactory lib net)[n]? =
    config.providers[n]?.map fun pr =>
      pr.adapter lib net (pr.apiKey config) (pr.baseUrl config) := by
  rw [adapterFactory_eq, List.getElem?_map]

/-- The adapter at a position of the factory is that of the provider there. -/
theorem getElem_adapterFactory {pr : Provider} {n : Fin (config.adapterFactory lib net).length}
    (h : config.providers[n.val]? = some pr) : (config.adapterFactory lib net)[n]
      = pr.adapter lib net (pr.apiKey config) (pr.baseUrl config) := by
  have hn := List.getElem?_eq_getElem n.isLt
  rw [getElem?_adapterFactory, h, Option.map_some] at hn
  exact (Option.some.inj hn).symm

/-- The prefixes of the factory are those of the providers. -/
theorem map_modelPrefix_adapterFactory : (config.adapterFactory lib net).map (·.modelPrefix) =
    config.providers.map fun pr => utf8 pr.modelPrefix := by
  rw [adapterFactory_eq, List.map_map]
  refine List.map_congr_left fun pr _ => ?_
  cases pr <;> rfl

/-- The adapter that is selected is that of a provider with a key, whose prefix begins the name. -/
theorem exists_provider {modelName : Bytes} {i : Fin (config.adapterFactory lib net).length}
    (h : (config.adapterFactory lib net).create modelName = some i) :
    ∃ pr, config.providers[i.val]? = some pr ∧ pr.apiKey config ≠ [] ∧
      utf8 pr.modelPrefix <+: modelName := by
  have hi := List.getElem?_eq_getElem i.isLt
  rw [getElem?_adapterFactory, Option.map_eq_some_iff] at hi
  obtain ⟨pr, hpr, hadapter⟩ := hi
  refine ⟨pr, hpr, ?_, ?_⟩
  · simpa using (List.mem_filter.mp (List.mem_of_getElem? hpr)).2
  · have hprefix := (AdapterFactory.create_eq_some_iff.mp h).1
    rw [Fin.getElem_fin, ← hadapter] at hprefix
    cases pr <;> exact hprefix

end AppConfig

/-- The POST serves the request: it carries its body to the provider that this names, with the key
and below the base URL that the operator has given for this provider. -/
def Environment.MayPost (env : Environment) (lib : Lib) (req : Request) (p : HttpPost) : Prop :=
  ∃ (pr : Provider) (body : Json) (model key url : Bytes), lib.parse req.body = .ok body ∧
    (∃ default ∈ ["deepseek-v4-flash", "deepseek-chat"],
      body.value "model" Json.getString (utf8 default) = .ok model) ∧
    utf8 pr.modelPrefix <+: model ∧ env.Gives lib pr key url ∧ key ≠ [] ∧
    pr.Receives lib key url body p

section

variable {env : Environment} {lib : Lib} {config : AppConfig} {idle : List (Option ℕ)}
  {net net' : Network} {req : Request}
  (hstart : env.start lib = .ok (.serving config idle))
  (hnet : ∀ p, env.MayPost lib req p → net p = net' p)

include hstart hnet

/-- The provider that a body names answers it alike. -/
theorem calls_of_agree {pr : Provider} {body : Json} {model : Bytes} {default : String}
    (hbody : lib.parse req.body = .ok body)
    (hdefault : default ∈ ["deepseek-v4-flash", "deepseek-chat"])
    (hmodel : body.value "model" Json.getString (utf8 default) = .ok model)
    (hbegins : utf8 pr.modelPrefix <+: model) (hkey : pr.apiKey config ≠ []) :
    (pr.adapter lib net (pr.apiKey config) (pr.baseUrl config)).chatCompletion body
        = (pr.adapter lib net' (pr.apiKey config) (pr.baseUrl config)).chatCompletion body ∧
      (pr.adapter lib net (pr.apiKey config) (pr.baseUrl config)).chatCompletionStream body
        = (pr.adapter lib net' (pr.apiKey config) (pr.baseUrl config)).chatCompletionStream body :=
  Provider.calls_congr fun p hp => hnet p ⟨pr, body, model, _, _, hbody,
    ⟨default, hdefault, hmodel⟩, hbegins, Environment.gives_of_start hstart pr, hkey, hp⟩

/-- The adapters of both networks answer the request alike. -/
theorem sameFor_of_agree :
    AdapterFactory.SameFor lib req (config.adapterFactory lib net)
      (config.adapterFactory lib net') := by
  have hprefixes : (config.adapterFactory lib net).map (·.modelPrefix)
      = (config.adapterFactory lib net').map (·.modelPrefix) := by
    rw [AppConfig.map_modelPrefix_adapterFactory, AppConfig.map_modelPrefix_adapterFactory]
  refine ⟨hprefixes, fun body model i j hbody hmodel hi hj => ?_⟩
  obtain ⟨pr, hpr, hkey, hprefix⟩ := AppConfig.exists_provider hi
  have hij : i.val = j.val := by
    have hval := AdapterFactory.map_val_create (config.adapterFactory lib net) model
    rw [hprefixes, ← AdapterFactory.map_val_create, hi, hj] at hval
    exact Option.some.inj hval
  have hcall := (calls_of_agree hstart hnet hbody (by simp) hmodel hprefix hkey).1
  change (config.adapterFactory lib net)[i].chatCompletion body
    = (config.adapterFactory lib net')[j].chatCompletion body
  rw [AppConfig.getElem_adapterFactory hpr, AppConfig.getElem_adapterFactory (hij ▸ hpr), hcall]

/-- The tasks of the request's streams do the same on both networks. -/
theorem streamTask_of_agree {ai : ℕ} {body : Json} {backend : Mysql.Backend}
    {dis : UInt32 → ℕ → Fin 16} (h : Event.Selected (config.gateway lib net backend dis) req
      (.chatCompletionStream ai body)) :
    ((config.adapterFactory lib net)[ai]?.map fun a => streamTask a body)
      = (config.adapterFactory lib net')[ai]?.map fun a => streamTask a body := by
  obtain ⟨model, i, hbody, hmodel, hi, rfl⟩ := h
  obtain ⟨pr, hpr, hkey, hprefix⟩ := AppConfig.exists_provider hi
  have hcall := (calls_of_agree hstart hnet hbody (by simp) hmodel hprefix hkey).2
  rw [AppConfig.getElem?_adapterFactory, AppConfig.getElem?_adapterFactory, hpr, Option.map_some,
    Option.map_some, Option.map_some, Option.map_some, streamTask, streamTask, hcall]

end

/-- **Requests and keys stay with the provider.** Wherever the program gets to its event loop: what
it does for a run of requests, up to one without defined behaviour, and what the pool tasks of the
streams do, depends on the network only at POSTs that serve one of the requests. -/
theorem posts_confined {env : Environment} {lib : Lib} {config : AppConfig}
    {idle : List (Option ℕ)} (hstart : env.start lib = .ok (.serving config idle))
    (backend : Mysql.Backend) (dis : UInt32 → ℕ → Fin 16) (arrivals : List Arrival) (w : World) :
    DependsOn (fun net => (config.gateway lib net backend dis).handleAll arrivals w)
      {p | ∃ a ∈ arrivals, env.MayPost lib a.request p} := by
  intro net net' hnet
  have hagree : ∀ a ∈ arrivals, ∀ p, env.MayPost lib a.request p → net p = net' p :=
    fun a ha p hp => hnet p ⟨a, ha, hp⟩
  have hran : (config.gateway lib net backend dis).handleArrivals arrivals
      = (config.gateway lib net' backend dis).handleArrivals arrivals :=
    Gateway.handleArrivals_congr fun a ha => sameFor_of_agree hstart (hagree a ha)
  obtain ⟨events, htrace, hevents⟩ :=
    (config.gateway lib net backend dis).selected_handleArrivals arrivals w
  have htasks : (config.gateway lib net backend dis).streamTasks events
      = (config.gateway lib net' backend dis).streamTasks events := by
    refine List.filterMap_congr fun e he => ?_
    obtain ⟨a, ha, hselected⟩ := hevents e he
    cases e with
    | chatCompletionStream ai body =>
      exact congrArg some (streamTask_of_agree hstart (hagree a ha) hselected)
    | _ => rfl
  dsimp only
  rw [Gateway.handleAll, Gateway.handleAll, ← hran, htrace, List.drop_left, htasks]

namespace TwoKeys

/-- A file with a key for one provider. -/
def document : Json :=
  .obj [("ai_models", .obj [("deepseek", .obj [("api_key", .lit "sk-d")])])]

/-- A request for the other provider. -/
def plain : Json := .obj [("messages", .array []), ("model", .lit "gpt-4")]

/-- A streaming one for the first. -/
def streaming : Json :=
  .obj [("messages", .array []), ("model", .lit "deepseek-chat"), ("stream", .boolean true)]

/-- A library that knows these documents by their names. -/
def lib : Lib :=
  .ofTable [(utf8 "document", ⟨document, by decide +kernel⟩),
    (utf8 "plain", ⟨plain, by decide +kernel⟩), (utf8 "streaming", ⟨streaming, by decide +kernel⟩)]

/-- One key comes from the file and one from the environment. -/
def env : Environment where
  args := [utf8 "--config", utf8 "c.json"]
  file _ := some (utf8 "document")
  getenv v := if v = "OPENAI_API_KEY" then some (utf8 "sk-o") else none
  created _ := true
  listens _ _ := true

/-- What is read of them. -/
def config : AppConfig :=
  { deepseekApiKey := utf8 "sk-d", openaiApiKey := utf8 "sk-o", loaded := true }

/-- Both requests, under a key of the table. -/
def arrivals : List Arrival :=
  [utf8 "plain", utf8 "streaming"].map fun body =>
    { Gateway.chatArrival "Bearer k" with
      request := { (Gateway.chatArrival "Bearer k").request with body := body } }

/-- What the gateway does with them over a network, and what the tasks of their streams do. -/
def served (net : Network) :
    (Outcome Exn Unit × World) × List (Option (List PostedHandler × Outcome Exn Unit)) :=
  (config.gateway lib net (Gateway.small [] []).backend KeyStore.zeros).handleAll arrivals
    { World.small with db := { table := [⟨1, utf8 "k", utf8 "test", 60, 1⟩], idle := [some 0] } }

/-- The statuses of the responses, and how many handlers each stream has posted. -/
def noticed (net : Network) : List Status × List (Option ℕ) :=
  ((served net).1.2.trace.filterMap fun
      | .doWrite res => some res.status
      | _ => none,
    (served net).2.map fun task => task.map fun t => t.1.length)

/-- A network on which one URL answers, with an empty body. -/
def answering (url : String) : Network := fun p =>
  if p.url = utf8 url then some ⟨[], .ok, 200⟩ else none

end TwoKeys

open TwoKeys in
/-- Both requests are sent on, each to its provider: where `openai` answers the first one is
answered, and where `deepseek` does the stream ends without an error. -/
theorem posts_confined_two_keys :
    DependsOn served {p | ∃ a ∈ arrivals, env.MayPost lib a.request p} ∧
      noticed (fun _ => none) = ([.badGateway], [some 2]) ∧
      noticed (answering "https://api.openai.com/v1/chat/completions") = ([.ok], [some 2]) ∧
      noticed (answering "https://api.deepseek.com/v1/chat/completions")
        = ([.badGateway], [some 0]) := by
  have hstart : env.start lib = .ok (.serving config [some 0, some 1, some 2, some 3]) := by
    decide +kernel
  exact ⟨posts_confined hstart _ _ _ _, by decide +kernel⟩

end AiSwitch
