import AiSwitch.Adapter.RequestBody
import AiSwitch.Main
import AiSwitch.Server.StreamTask

/-!
# Chat requests at the OpenAI-compatible adapters

`POST /api/chat` and the streaming branch of the session both parse the body and read `model` from
it before they call an adapter, and nothing more. So a request that reaches an adapter is an object
whose model is absent or a string, and whether it has messages is first asked by the `const` lookup
of `build_request_body`, which has no behaviour where it has none.
-/

namespace AiSwitch

open ByteString Effect Nlohmann Nlohmann.Json Http

namespace OpenaiCompatible

variable {a : OpenaiCompatible} {request : Json}

/-- What the two callers make of an exception: the plain call is answered by a 502, the streaming
call by an error event. -/
def ErrorAnswered (a : OpenaiCompatible) (request : Json) (e : Exn) : Bool → Prop
  | false => ∀ (lib : Lib) (net : Network) (gw : Gateway) (ai : Fin gw.adapters.length)
      (req : RequestHeader) (w : World), gw.adapters.get ai = a.toAdapter lib net →
      ∃ message w', gw.callAdapter ai request req w
        = (.ok (gw.errorResult .badGateway "provider_error" message req), w')
  | true => ∀ (lib : Lib) (net : Network),
      streamTask (a.toAdapter lib net) request = ([errorHandler e], .ok ())

/-- A call ends in an error response, or with a body that hands the request on. -/
def ChatDefined (a : OpenaiCompatible) (request : Json) (stream : Bool) : Prop :=
  (∃ e, a.buildRequestBody request stream = .throw e ∧ ErrorAnswered a request e stream) ∨
    ∃ body, a.buildRequestBody request stream = .ok body ∧ HandedOn a request stream body

/-! ## Exceptions -/

/-- An exception of the plain call is answered by a 502, as its text is a literal. -/
theorem callAdapter_of_throw {lib : Lib} {net : Network} {gw : Gateway}
    {ai : Fin gw.adapters.length} {what : String} (req : RequestHeader) (w : World)
    (hai : gw.adapters.get ai = a.toAdapter lib net)
    (h : a.buildRequestBody request false = .throw (.typeError (utf8 what))) :
    ∃ message w', gw.callAdapter ai request req w
      = (.ok (gw.errorResult .badGateway "provider_error" message req), w') := by
  have hcall : gw.adapters[ai].chatCompletion request = .throw (.typeError (utf8 what)) := by
    rw [show gw.adapters[ai] = a.toAdapter lib net from hai]
    simp only [toAdapter, chatCompletion, h, Outcome.throw_bind]
  refine ⟨utf8 "AI 服务响应错误: " ++ cstr (utf8 what),
    { w with trace := w.trace ++ [.chatCompletion ai request] }, ?_⟩
  rw [Gateway.callAdapter, Prog.tryCatch, emit_bind_apply, hcall]
  exact gw.errorResponse_of_validUtf8 ((validUtf8_utf8 _).append (validUtf8_utf8 _).cstr) _ _ _ _

/-- A body that cannot be built is reported as one error event. -/
theorem streamTask_of_build_throw {e : Exn} (lib : Lib) (net : Network)
    (h : a.buildRequestBody request true = .throw e) :
    streamTask (a.toAdapter lib net) request = ([errorHandler e], .ok ()) := by
  have hcall : (a.toAdapter lib net).chatCompletionStream request [] = (.throw e, []) := by
    simp only [toAdapter, chatCompletionStream, h, Prog.lift_throw_bind]
    rfl
  exact streamTask_of_throw hcall

/-- A body that cannot be built is answered with its error, streamed or not. -/
theorem errorAnswered {what : String} {stream : Bool}
    (h : a.buildRequestBody request stream = .throw (.typeError (utf8 what))) :
    ErrorAnswered a request (.typeError (utf8 what)) stream := by
  cases stream with
  | false => exact fun lib net gw ai req w hai => callAdapter_of_throw req w hai h
  | true => exact fun lib net => streamTask_of_build_throw lib net h

/-! ## Both calls -/

/-- With messages both calls have a behaviour unless they get to a `max_tokens` that is no `int`. -/
theorem chatDefined_iff_of_messages {messages : Json} {stream : Bool}
    (hobj : request.isObject = true) (hmodel : ¬ Unconvertible getString (request.member "model"))
    (h : request.member "messages" = some messages) :
    ChatDefined a request stream ↔
      Unconvertible getDouble (request.member "temperature") ∨ TokensKept request := by
  rw [← refused_or_handedOn_iff (a := a) hobj hmodel h, ChatDefined]
  refine or_congr_left (exists_congr fun e => and_iff_left_of_imp fun he => ?_)
  obtain ⟨what, rfl⟩ := typeError_of_buildRequestBody hobj hmodel h he
  exact errorAnswered he

/-- Without messages neither call has a behaviour. -/
theorem not_chatDefined_of_no_messages {stream : Bool} (hobj : request.isObject = true)
    (hmodel : ¬ Unconvertible getString (request.member "model"))
    (h : request.member "messages" = none) :
    ¬ ChatDefined a request stream := by
  have hub := @buildRequestBody_of_no_messages a _ stream hobj hmodel h
  rintro (⟨e, he, -⟩ | ⟨body, hbody, -⟩)
  · rw [hub] at he
    cases he
  · rw [hub] at hbody
    cases hbody

/-- **When a chat request keeps an OpenAI-compatible adapter within defined behaviour.** Both
callers have read the model of a body before they hand it over. Each call then ends in an error
response or hands the request on, exactly where the body has messages, and its number of tokens is
refused, is absent or is a number within `int`, or its temperature is refused before. -/
theorem chat_defined_iff (a : OpenaiCompatible) (stream : Bool) {request : Json}
    {default model : Bytes} (hmodel : request.value "model" getString default = .ok model) :
    ChatDefined a request stream ↔
      request.member "messages" ≠ none ∧
        (Unconvertible getDouble (request.member "temperature") ∨ TokensKept request) := by
  obtain ⟨hobj, hread⟩ := readable_of_value_ok hmodel
  cases h : request.member "messages" with
  | none => exact iff_of_false (not_chatDefined_of_no_messages hobj hread h) (by simp)
  | some messages =>
    rw [chatDefined_iff_of_messages hobj hread h]
    simp

/-- The equivalence at one plain request. -/
theorem chat_defined_iff_hello :
    ChatDefined (openaiAdapter (utf8 "sk-provider") (utf8 "https://api.openai.com/v1"))
      (.object [(utf8 "messages", .lit "Hello"), (utf8 "model", .lit "gpt-4")]) false :=
  have hmodel : (Json.object [(utf8 "messages", .lit "Hello"), (utf8 "model", .lit "gpt-4")]).value
      "model" getString (utf8 "deepseek-v4-flash") = .ok (utf8 "gpt-4") := rfl
  (chat_defined_iff _ false hmodel).mpr ⟨nofun, .inr (.inr nofun)⟩

/-- A request that names a model and nothing else reaches the adapter. -/
theorem not_chatDefined_no_messages :
    (Json.object [(utf8 "model", .lit "gpt-4")]).value "model" getString (utf8 "deepseek-v4-flash")
        = .ok (utf8 "gpt-4") ∧
      ¬ ChatDefined (openaiAdapter (utf8 "sk-provider") (utf8 "https://api.openai.com/v1"))
        (.object [(utf8 "model", .lit "gpt-4")]) false := by
  have hmodel : (Json.object [(utf8 "model", .lit "gpt-4")]).value "model" getString
      (utf8 "deepseek-v4-flash") = .ok (utf8 "gpt-4") := rfl
  exact ⟨hmodel, not_chatDefined_of_no_messages rfl (readable_of_value_ok hmodel).2 rfl⟩

end OpenaiCompatible

end AiSwitch
