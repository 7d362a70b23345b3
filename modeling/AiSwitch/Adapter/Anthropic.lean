import AiSwitch.Adapter.AnthropicParser
import AiSwitch.Adapter.Basic

/-!
# The Anthropic adapter

`anthropic_adapter` (`adapter/anthropic_adapter.cpp`): the translation of requests and responses,
and the streaming call. libcurl calls the function registered as `CURLOPT_WRITEFUNCTION` with the
pointer registered as `CURLOPT_WRITEDATA`, whatever it points to. `http_post_stream` registers
`write_callback`, which takes the pointer for a `std::string`, together with a
`stream_callback_data`; so a handle is embedded as a function and typed user data, and a call that
reads the data as another type is undefined.
-/

namespace AiSwitch

open ByteString Delimited Effect Nlohmann

/-- An `anthropic_adapter`. -/
structure Anthropic where
  apiKey : Bytes
  baseUrl : Bytes := utf8 "https://api.anthropic.com/v1"
  defaultModel : Bytes := utf8 "claude-3-5-sonnet-20241022"
  anthropicVersion : Bytes := utf8 "2023-06-01"

namespace Anthropic

variable (a : Anthropic) (lib : Lib) (net : Network)

/-- The values that a range-based `for` visits. -/
def elements : Json → List Json
  | .null => []
  | .array elems => elems
  | .object fields => fields.map Prod.snd
  | j => [j]

/-- The message loop of `build_request_body`, with `messages` and `system_prompt` so far. -/
def splitMessages (messages : List Json) (systemPrompt : Bytes) :
    List Json → Outcome Exn (List Json × Bytes)
  | [] => return (messages, systemPrompt)
  | msg :: msgs => do
    let role ← msg.value "role" Json.getString (utf8 "user")
    if role = utf8 "system" then do
      let systemPrompt := if systemPrompt ≠ [] then systemPrompt ++ utf8 "\n" else systemPrompt
      let content ← msg.value "content" Json.getString []
      splitMessages messages (systemPrompt ++ content) msgs
    else
      splitMessages (messages ++ [msg]) systemPrompt msgs

/-- `build_request_body` -/
def buildRequestBody (request : Json) (stream : Bool) : Outcome Exn Json := do
  let body := Json.null
  let model ← request.value "model" Json.getString a.defaultModel
  let body ← body.set "model" (.string model)
  let maxTokens ← request.value "max_tokens" (Json.getInt 32) 2048
  let body ← body.set "max_tokens" (.integer maxTokens)
  let temperature ← request.value "temperature" Json.getDouble defaultTemperature
  let body ← body.set "temperature" (.floating temperature)
  let body ← body.set "stream" (.boolean stream)
  let (messages, systemPrompt) ←
    if request.contains "messages" then do
      splitMessages [] [] (elements (← request.indexConst "messages"))
    else pure ([], [])
  let body ← body.set "messages" (.array messages)
  if systemPrompt ≠ [] then
    body.set "system" (.string systemPrompt)
  else
    return body

/-- The headers of both calls. -/
def headers : List Bytes :=
  [utf8 "Content-Type: application/json", utf8 "x-api-key: " ++ a.apiKey,
    utf8 "anthropic-version: " ++ a.anthropicVersion]

/-- `http_post` -/
def httpPost (url body : Bytes) : Outcome Exn Bytes :=
  match net ⟨url, a.headers, body⟩ with
  | none => .throw curlInitFailed
  | some t => checkResponse t

/-- The text blocks of a response. -/
def contentText (text : Bytes) : List Json → Outcome Exn Bytes
  | [] => return text
  | block :: blocks => do
    let type ← block.value "type" Json.getString []
    if type = utf8 "text" then do
      contentText (text ++ (← block.value "text" Json.getString [])) blocks
    else
      contentText text blocks

/-- The answer in the form of an OpenAI response. -/
def convertResponse (response : Json) : Outcome Exn Json := do
  if response.contains "error" then
    let error ← response.index "error"
    return .obj [("error", error)]
  else
    let text ←
      if response.contains "content" then do
        match ← response.index "content" with
        | .array blocks => contentText [] blocks
        | _ => pure []
      else pure []
    let id ← response.value "id" Json.getString []
    let model ← response.value "model" Json.getString []
    let stopReason ← response.value "stop_reason" Json.getString (utf8 "stop")
    return .obj [
      ("id", .string id),
      ("model", .string model),
      ("choices", .array [.obj [
        ("index", .integer 0),
        ("message", .obj [("role", .lit "assistant"), ("content", .string text)]),
        ("finish_reason", .string stopReason)]])]

/-- `chat_completion` -/
def chatCompletion (request : Json) : Outcome Exn Json := do
  let body ← a.buildRequestBody request false
  let responseBody ← a.httpPost net (a.baseUrl ++ utf8 "/messages") (← lib.dump body)
  match lib.parse responseBody >>= convertResponse with
  | .throw (.parseError what) => .ok (parseErrorDocument what)
  | result => result

/-! ## Streaming -/

/-- What a `CURLOPT_WRITEDATA` pointer points to: a `std::string`, or a `stream_callback_data` with
its parser (and the user callback). -/
inductive UserData where
  | string (s : Bytes)
  | streamCallbackData (parser : AnthropicStreamParser)
deriving DecidableEq

/-- A write function: what it does to its user data for one block. -/
abbrev WriteFunction := UserData → Bytes → Streaming UserData

/-- `write_callback` -/
def writeCallback : WriteFunction
  | .string s, raw => pure (.string (s ++ raw))
  | .streamCallbackData _, _ => Prog.ub

/-- The forwarding loop of `stream_write_callback`. -/
def forwardTexts : List Bytes → Streaming Unit
  | [] => pure ()
  | text :: texts => do
    callback text false
    forwardTexts texts

/-- `stream_write_callback`, which nothing registers. -/
def streamWriteCallback : WriteFunction
  | .string _, _ => Prog.ub
  | .streamCallbackData parser, raw => do
    let (texts, parser) ← Prog.lift (parser.feed lib.tryParse raw)
    forwardTexts texts
    if parser.done then
      callback [] true
    return .streamCallbackData parser

/-- The calls that `curl_easy_perform` makes to the registered function. -/
def perform (write : WriteFunction) : UserData → List Bytes → Streaming UserData
  | data, [] => pure data
  | data, raw :: raws => do
    let data ← write data raw
    perform write data raws

/-- `http_post_stream` -/
def httpPostStream (url body : Bytes) : Streaming Unit :=
  match net ⟨url, a.headers, body⟩ with
  | none => do
    callback [] true
    Prog.throw curlInitFailed
  | some t => do
    let _ ← perform writeCallback (.streamCallbackData {}) t.blocks
    Prog.lift (checkTransfer t)

/-- `chat_completion_stream` -/
def chatCompletionStream (request : Json) : Streaming Unit := do
  let body ← Prog.lift (a.buildRequestBody request true)
  a.httpPostStream net (a.baseUrl ++ utf8 "messages") (← Prog.lift (lib.dump body))

/-- The adapter as the gateway sees it. -/
def toAdapter : Adapter where
  modelPrefix := utf8 "claude"
  chatCompletion := a.chatCompletion lib net
  chatCompletionStream := a.chatCompletionStream lib net

/-! ## Delivery -/

/-- The response in `blocks` is delivered by a call that ends in `r.1` and has made the callbacks
`r.2`: it has a defined behaviour, the texts it forwards are those of the response, in order, and
the terminator follows `message_stop`. -/
def Delivered (blocks : List Bytes) (r : Outcome Exn Unit × List StreamCall) : Prop :=
  r.1 ≠ .ub ∧
    (r.2.filter (fun c => !c.done)).map StreamCall.content
      = (cut nlnl blocks.flatten).1.filterMap (AnthropicStreamParser.blockDelta lib.tryParse) ∧
    ((∃ b ∈ (cut nlnl blocks.flatten).1, AnthropicStreamParser.eventType b = messageStop) →
      ⟨[], true⟩ ∈ r.2)

/-- The registered function is undefined on the registered data, from the first block on. -/
theorem perform_writeCallback_cons (parser : AnthropicStreamParser) (raw : Bytes)
    (raws : List Bytes) (calls : List StreamCall) :
    perform writeCallback (.streamCallbackData parser) (raw :: raws) calls = (.ub, calls) := rfl

variable {a lib net} {request body : Json} {text : Bytes} {t : Transfer}

/-- Once the POST is made, the call is the transfer through the registered function. -/
theorem chatCompletionStream_of_post (hbody : a.buildRequestBody request true = .ok body)
    (htext : lib.dump body = .ok text)
    (hnet : net ⟨a.baseUrl ++ utf8 "messages", a.headers, text⟩ = some t) :
    a.chatCompletionStream lib net request []
      = (perform writeCallback (.streamCallbackData {}) t.blocks >>=
          fun _ => Prog.lift (checkTransfer t)) [] := by
  rw [chatCompletionStream, hbody, Prog.lift_ok_bind, htext, Prog.lift_ok_bind, httpPostStream,
    hnet]

/-- **When an Anthropic stream is delivered: only when there is nothing to deliver.** For every
request that is posted and every response, in any blocks. -/
theorem delivered_iff (hbody : a.buildRequestBody request true = .ok body)
    (htext : lib.dump body = .ok text)
    (hnet : net ⟨a.baseUrl ++ utf8 "messages", a.headers, text⟩ = some t) :
    Delivered lib t.blocks (a.chatCompletionStream lib net request []) ↔ t.blocks = [] := by
  rw [chatCompletionStream_of_post hbody htext hnet]
  cases hblocks : t.blocks with
  | nil =>
    refine iff_of_true ⟨?_, by simp [perform], by simp⟩ rfl
    by_cases hsucc : t.Succeeded
    · simp [perform, checkTransfer_of_succeeded hsucc]
    · obtain ⟨what, hwhat⟩ := checkTransfer_of_not_succeeded hsucc
      simp [perform, hwhat]
  | cons raw raws =>
    refine iff_of_false ?_ (by simp)
    rw [Prog.bind_of_ub (perform_writeCallback_cons {} raw raws [])]
    exact fun h => h.1 rfl

/-- A request with one message, posted to a provider that answers with an empty body. -/
theorem delivered_iff_empty_response :
    Delivered (Lib.ofTable []) []
        (chatCompletionStream { apiKey := utf8 "sk-ant" } (Lib.ofTable [])
          (fun _ => some ⟨[], .ok, 200⟩)
          (.object [(utf8 "messages", .array [.object [(utf8 "content", .lit "hi")]])]) [])
      ↔ ([] : List Bytes) = [] :=
  delivered_iff (t := ⟨[], .ok, 200⟩) rfl (Lib.dump_of_isValid (by decide +kernel)) rfl

/-- The shortest complete response is not delivered. -/
theorem not_delivered_message_stop :
    ¬ Delivered (Lib.ofTable []) [utf8 "event: message_stop\ndata: \x7b\x7d\n\n"]
        (chatCompletionStream { apiKey := utf8 "sk-ant" } (Lib.ofTable [])
          (fun _ => some ⟨[utf8 "event: message_stop\ndata: \x7b\x7d\n\n"], .ok, 200⟩)
          (.object [(utf8 "messages", .array [.object [(utf8 "content", .lit "hi")]])]) []) := by
  rintro ⟨hub, -, -⟩
  exact hub (by decide +kernel)

end Anthropic

end AiSwitch
