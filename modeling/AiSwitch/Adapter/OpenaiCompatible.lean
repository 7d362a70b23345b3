import AiSwitch.Adapter.Basic
import AiSwitch.Stream.SseHandler

/-!
# The OpenAI-compatible adapter

`openai_compatible_adapter` (`adapter/openai_compatible_adapter.cpp`): the request body, the plain
call, and the streaming call, whose write function feeds an `sse_handler` and forwards the
`choices[0].delta.content` of each message. `streamWriteCallback_apply` says what one block of the
transfer adds to the callback's invocations, `deliver_apply` what the whole transfer adds.
-/

namespace AiSwitch

open ByteString Effect Nlohmann

/-- An `openai_compatible_adapter`. The texts that its subclasses fix are literals. -/
structure OpenaiCompatible where
  apiKey : Bytes
  baseUrl : Bytes
  defaultModel : String
  modelPrefix : String
  providerName : String

/-- `openai_adapter` -/
def openaiAdapter (apiKey baseUrl : Bytes) : OpenaiCompatible where
  apiKey := apiKey
  baseUrl := baseUrl
  defaultModel := "gpt-3.5-turbo"
  modelPrefix := "gpt"
  providerName := "openai"

/-- `deepseek_adapter` -/
def deepseekAdapter (apiKey baseUrl : Bytes) : OpenaiCompatible where
  apiKey := apiKey
  baseUrl := baseUrl
  defaultModel := "deepseek-v4-flash"
  modelPrefix := "deepseek"
  providerName := "deepseek"

namespace OpenaiCompatible

variable (a : OpenaiCompatible) (lib : Lib) (net : Network)

/-- `build_request_body` -/
def buildRequestBody (request : Json) (stream : Bool) : Outcome Exn Json := do
  let body := Json.null
  let model ← request.value "model" Json.getString (utf8 a.defaultModel)
  let body ← body.set "model" (.string model)
  let messages ← request.indexConst "messages"
  let body ← body.set "messages" messages
  let temperature ← request.value "temperature" Json.getDouble defaultTemperature
  let body ← body.set "temperature" (.floating temperature)
  let maxTokens ← request.value "max_tokens" (Json.getInt 32) 2048
  let body ← body.set "max_tokens" (.integer maxTokens)
  body.set "stream" (.boolean stream)

/-- The POST that both calls make. -/
def httpRequest (body : Bytes) : HttpPost where
  url := a.baseUrl ++ utf8 "/chat/completions"
  headers := [utf8 "Content-Type: application/json", utf8 "Authorization: Bearer " ++ a.apiKey]
  body := body

/-- `http_post` -/
def httpPost (body : Bytes) : Outcome Exn Bytes :=
  match net (a.httpRequest body) with
  | none => .throw curlInitFailed
  | some t => checkResponse t

/-- `chat_completion` -/
def chatCompletion (request : Json) : Outcome Exn Json := do
  let body ← a.buildRequestBody request false
  let responseBody ← a.httpPost net (← lib.dump body)
  match lib.parse responseBody with
  | .throw (.parseError what) => .ok (parseErrorDocument what)
  | response => response

/-! ## Streaming -/

/-- The body of the message loop of `stream_write_callback`, inside its `catch (...)`. -/
def relayMessage (msg : Bytes) : Streaming Unit :=
  Prog.tryCatch (do
    let chunk ← Prog.lift (lib.parse msg)
    let choices ← Prog.lift (chunk.index "choices")
    if !choices.empty then
      let choice ← Prog.lift (choices.at' 0)
      if choice.contains "delta" then
        let delta ← Prog.lift (choice.index "delta")
        if delta.contains "content" then
          let content ← Prog.lift (delta.index "content" >>= Json.getString)
          callback content false)
    (fun _ => pure ())

/-- The message loop. -/
def relayMessages : List Bytes → Streaming Unit
  | [] => pure ()
  | msg :: msgs => do
    relayMessage lib msg
    relayMessages msgs

/-- `stream_write_callback`, returning the parser it leaves. -/
def streamWriteCallback (parser : SseHandler) (raw : Bytes) : Streaming SseHandler := do
  let (messages, parser) := parser.feed raw
  relayMessages lib messages
  if parser.isDone then
    callback [] true
  return parser

/-- The calls that `curl_easy_perform` makes to the write function. -/
def deliver : SseHandler → List Bytes → Streaming SseHandler
  | parser, [] => pure parser
  | parser, raw :: raws => do
    let parser ← streamWriteCallback lib parser raw
    deliver parser raws

/-- `http_post_stream` -/
def httpPostStream (body : Bytes) : Streaming Unit :=
  match net (a.httpRequest body) with
  | none => do
    callback [] true
    Prog.throw curlInitFailed
  | some t => do
    let _ ← deliver lib {} t.blocks
    Prog.lift (checkTransfer t)

/-- `chat_completion_stream` -/
def chatCompletionStream (request : Json) : Streaming Unit := do
  let body ← Prog.lift (a.buildRequestBody request true)
  a.httpPostStream lib net (← Prog.lift (lib.dump body))

/-- The adapter as the gateway sees it. -/
def toAdapter : Adapter where
  modelPrefix := utf8 a.modelPrefix
  chatCompletion := a.chatCompletion lib net
  chatCompletionStream := a.chatCompletionStream lib net

/-! ## What a message contributes -/

/-- The text that a message document carries: `choices` is an array whose first element is an
object with an object `delta` that holds a string `content`. -/
def deltaContent : Json → Option Bytes
  | .object fields => do
    let .array (.object choice :: _) ← fields.lookup (utf8 "choices") | none
    let .object delta ← choice.lookup (utf8 "delta") | none
    let .string content ← delta.lookup (utf8 "content") | none
    return content
  | _ => none

/-- The text that a message carries, `none` also where it does not parse. -/
def messageContent (msg : Bytes) : Option Bytes := (lib.tryParse msg).toOption.bind deltaContent

/-- The invocations that forward some messages. -/
def contentCalls (msgs : List Bytes) : List StreamCall :=
  (msgs.filterMap (messageContent lib)).map (⟨·, false⟩)

/-- **One message, one invocation at most.** The message loop's body forwards the text that the
message carries and does nothing else: every exception on the way is swallowed. -/
theorem relayMessage_apply (msg : Bytes) (calls : List StreamCall) :
    relayMessage lib msg calls = (.ok (), calls ++ contentCalls lib [msg]) := by
  simp only [contentCalls, List.filterMap_cons, List.filterMap_nil, messageContent, relayMessage,
    Lib.parse, parseBy]
  cases hparse : lib.tryParse msg with
  | error e => simp [Prog.tryCatch, Except.toOption]
  | ok chunk =>
    simp only [Except.toOption, Option.bind_some, Prog.lift_ok_bind]
    -- one level of the document at a time, as `deltaContent` reads it
    cases chunk with
    | object fields =>
      simp only [deltaContent, Json.index, Prog.lift_ok_bind]
      cases fields.lookup (utf8 "choices") with
      | none => simp [Prog.tryCatch]
      | some choices =>
        simp only [Option.getD_some, Option.bind_eq_bind, Option.bind_some]
        cases choices with
        | array elems =>
          cases elems with
          | nil => simp [Prog.tryCatch]
          | cons choice elems =>
            simp only [Json.empty, List.isEmpty_cons, Bool.not_false, if_true, Json.at',
              List.getD_cons_zero, Prog.lift_ok_bind]
            cases choice with
            | object choice =>
              cases hdelta : choice.lookup (utf8 "delta") with
              | none => simp [Prog.tryCatch, hdelta]
              | some delta =>
                simp only [Json.contains, hdelta, Option.isSome_some, if_true, Option.getD_some,
                  Prog.lift_ok_bind, Option.bind_some]
                cases delta with
                | object delta =>
                  cases hcontent : delta.lookup (utf8 "content") with
                  | none => simp [Prog.tryCatch, hcontent]
                  | some content => cases content <;> simp [Prog.tryCatch, hcontent]
                | null | boolean | integer | floating | string | array => simp [Prog.tryCatch]
            | null | boolean | integer | floating | string | array => simp [Prog.tryCatch]
        | object members => by_cases hnil : members = [] <;> simp [Prog.tryCatch, hnil]
        | null | boolean | integer | floating | string => simp [Prog.tryCatch]
    | null | boolean | integer | floating | string | array => simp [Prog.tryCatch, deltaContent]

/-- The message loop forwards the texts of the messages that carry one, in order. -/
theorem relayMessages_apply (msgs : List Bytes) (calls : List StreamCall) :
    relayMessages lib msgs calls = (.ok (), calls ++ contentCalls lib msgs) := by
  induction msgs generalizing calls with
  | nil => simp [relayMessages, contentCalls]
  | cons msg msgs ih =>
    rw [relayMessages, Prog.bind_of_ok (relayMessage_apply lib msg calls), ih]
    simp only [contentCalls, ← List.map_append, ← List.filterMap_append, List.append_assoc,
      List.singleton_append]

/-- The invocations that one block of the transfer causes. -/
def blockCalls (parser : SseHandler) (raw : Bytes) : List StreamCall :=
  contentCalls lib (parser.feed raw).1 ++
    if (parser.feed raw).2.isDone then [⟨[], true⟩] else []

/-- A block feeds the parser and makes the calls of its messages. -/
theorem streamWriteCallback_apply (parser : SseHandler) (raw : Bytes) (calls : List StreamCall) :
    streamWriteCallback lib parser raw calls
      = (.ok (parser.feed raw).2, calls ++ blockCalls lib parser raw) := by
  obtain ⟨messages, parser', hfeed⟩ : ∃ messages parser', parser.feed raw = (messages, parser') :=
    ⟨_, _, rfl⟩
  simp only [streamWriteCallback, blockCalls, hfeed]
  rw [Prog.bind_of_ok (relayMessages_apply lib messages calls)]
  cases hdone : parser'.isDone <;> simp [Prog.bind_apply]

/-- The invocations that a transfer causes. -/
def transferCalls : SseHandler → List Bytes → List StreamCall
  | _, [] => []
  | parser, raw :: raws => blockCalls lib parser raw ++ transferCalls (parser.feed raw).2 raws

/-- A transfer feeds the parser all its blocks and makes the calls of their messages. -/
theorem deliver_apply (parser : SseHandler) (raws : List Bytes) (calls : List StreamCall) :
    deliver lib parser raws calls
      = (.ok (parser.feedAll raws).2, calls ++ transferCalls lib parser raws) := by
  induction raws generalizing parser calls with
  | nil => simp [deliver, transferCalls, SseHandler.feedAll]
  | cons raw raws ih =>
    rw [deliver, Prog.bind_of_ok (streamWriteCallback_apply lib parser raw calls), ih]
    simp only [transferCalls, SseHandler.feedAll, List.append_assoc]

/-- The calls of a longer transfer go on from where the parser stands. -/
theorem transferCalls_append (parser : SseHandler) (raws raws' : List Bytes) :
    transferCalls lib parser (raws ++ raws')
      = transferCalls lib parser raws ++ transferCalls lib (parser.feedAll raws).2 raws' := by
  induction raws generalizing parser with
  | nil => rfl
  | cons raw raws ih =>
    simp only [List.cons_append, transferCalls, SseHandler.feedAll, ih, List.append_assoc]

/-! ## Terminators -/

/-- No content is handed on as the last. -/
theorem done_of_mem_contentCalls {msgs : List Bytes} {c : StreamCall}
    (hc : c ∈ contentCalls lib msgs) : c.done = false := by
  obtain ⟨_, -, rfl⟩ := List.mem_map.mp hc
  rfl

/-- A block that leaves the parser unfinished causes no terminator. -/
theorem done_of_mem_blockCalls {parser : SseHandler} {raw : Bytes}
    (hdone : (parser.feed raw).2.isDone = false) {c : StreamCall}
    (hc : c ∈ blockCalls lib parser raw) : c.done = false := by
  rw [blockCalls, hdone] at hc
  exact done_of_mem_contentCalls lib (by simpa using hc)

/-- **Where terminators come from.** A transfer to an unfinished parser causes a terminator exactly
when it finishes the parser. -/
theorem exists_done_transferCalls_iff {parser : SseHandler} (hparser : parser.isDone = false)
    (raws : List Bytes) :
    (∃ c ∈ transferCalls lib parser raws, c.done = true)
      ↔ (parser.feedAll raws).2.isDone = true := by
  induction raws generalizing parser with
  | nil => simp [transferCalls, SseHandler.feedAll, hparser]
  | cons raw raws ih =>
    rw [transferCalls, SseHandler.feedAll]
    cases hdone : (parser.feed raw).2.isDone with
    | true =>
      refine iff_of_true ⟨⟨[], true⟩, ?_, rfl⟩ (SseHandler.isDone_feedAll_of_isDone hdone raws)
      simp [blockCalls, hdone]
    | false =>
      rw [← ih hdone]
      constructor
      · rintro ⟨c, hc, hcdone⟩
        rcases List.mem_append.mp hc with hc | hc
        · rw [done_of_mem_blockCalls lib hdone hc] at hcdone
          cases hcdone
        · exact ⟨c, hc, hcdone⟩
      · rintro ⟨c, hc, hcdone⟩
        exact ⟨c, List.mem_append_right _ hc, hcdone⟩

/-! ## Malformed events -/

/-- The message is the text of an object whose `choices` is a non-empty array, whose first element
is an object with an object `delta` that holds the string `content`. -/
def Carries (msg content : Bytes) : Prop :=
  ∃ fields choice elems delta, lib.tryParse msg = .ok (.object fields) ∧
    fields.lookup (utf8 "choices") = some (.array (.object choice :: elems)) ∧
    choice.lookup (utf8 "delta") = some (.object delta) ∧
    delta.lookup (utf8 "content") = some (.string content)

/-- The invocations that are due for some messages: one for each that carries a text, in order. -/
inductive Forwards : List Bytes → List StreamCall → Prop where
  | nil : Forwards [] []
  | carried {msg content : Bytes} {msgs : List Bytes} {calls : List StreamCall} :
      Carries lib msg content → Forwards msgs calls →
        Forwards (msg :: msgs) (⟨content, false⟩ :: calls)
  | skipped {msg : Bytes} {msgs : List Bytes} {calls : List StreamCall} :
      (∀ content, ¬ Carries lib msg content) → Forwards msgs calls → Forwards (msg :: msgs) calls

/-- The path of members that a delta's content is found under. -/
theorem deltaContent_eq_some_iff (j : Json) (content : Bytes) :
    deltaContent j = some content ↔ ∃ fields choice elems delta, j = .object fields ∧
      fields.lookup (utf8 "choices") = some (.array (.object choice :: elems)) ∧
      choice.lookup (utf8 "delta") = some (.object delta) ∧
      delta.lookup (utf8 "content") = some (.string content) := by
  constructor
  · intro h
    -- each pattern of `deltaContent` that does not match gives `none`
    cases j with
    | object fields =>
      obtain ⟨choices, hchoices, h⟩ := Option.bind_eq_some_iff.mp h
      split at h
      · obtain ⟨delta, hdelta, h⟩ := Option.bind_eq_some_iff.mp h
        split at h
        · obtain ⟨text, hcontent, h⟩ := Option.bind_eq_some_iff.mp h
          split at h
          · cases h
            exact ⟨fields, _, _, _, rfl, hchoices, hdelta, hcontent⟩
          · cases h
        · cases h
      · cases h
    | null | boolean | integer | floating | string | array => cases h
  · rintro ⟨fields, choice, elems, delta, rfl, hchoices, hdelta, hcontent⟩
    simp [deltaContent, hchoices, hdelta, hcontent]

/-- A message yields a content exactly when it carries that content. -/
theorem messageContent_eq_some_iff (msg content : Bytes) :
    messageContent lib msg = some content ↔ Carries lib msg content := by
  rw [messageContent]
  cases hparse : lib.tryParse msg with
  | error e => simp [Carries, hparse, Except.toOption]
  | ok j =>
    rw [Except.toOption, Option.bind_some, deltaContent_eq_some_iff]
    simp [Carries, hparse]

/-- A message that carries no content yields none. -/
theorem messageContent_eq_none {msg : Bytes} (h : ∀ content, ¬ Carries lib msg content) :
    messageContent lib msg = none :=
  Option.eq_none_iff_forall_ne_some.mpr fun content hcontent =>
    h content ((messageContent_eq_some_iff lib msg content).mp hcontent)

/-- The contents forwarded are exactly the calls that the messages make. -/
theorem forwards_iff (msgs : List Bytes) (calls : List StreamCall) :
    Forwards lib msgs calls ↔ calls = contentCalls lib msgs := by
  constructor
  · intro h
    induction h with
    | nil => rfl
    | carried hmsg _ ih =>
      simp [contentCalls, (messageContent_eq_some_iff lib _ _).mpr hmsg, ih]
    | skipped hmsg _ ih => simp [contentCalls, messageContent_eq_none lib hmsg, ih]
  · rintro rfl
    induction msgs with
    | nil => exact .nil
    | cons msg msgs ih =>
      cases hmsg : messageContent lib msg with
      | none =>
        rw [contentCalls, List.filterMap_cons_none hmsg]
        refine .skipped (fun content h => ?_) ih
        rw [(messageContent_eq_some_iff lib msg content).mpr h] at hmsg
        cases hmsg
      | some content =>
        rw [contentCalls, List.filterMap_cons_some hmsg]
        exact .carried ((messageContent_eq_some_iff lib msg content).mp hmsg) ih

/-- **A malformed event costs only itself.** The write function returns on every block in every
state of the parser, having forwarded exactly what is due for the messages of the block and, where
the parser has seen the end marker, the terminator. The message loop does so for any list of
texts, and it makes no difference whether a text that carries nothing is in the list. -/
theorem malformed_event_costs_itself :
    (∀ (parser : SseHandler) (raw : Bytes) (calls : List StreamCall), ∃ due,
      Forwards lib (parser.feed raw).1 due ∧
        streamWriteCallback lib parser raw calls = (.ok (parser.feed raw).2,
          calls ++ (due ++ if (parser.feed raw).2.isDone then [⟨[], true⟩] else []))) ∧
    (∀ (msgs : List Bytes) (calls : List StreamCall), ∃ due,
      Forwards lib msgs due ∧ relayMessages lib msgs calls = (.ok (), calls ++ due)) ∧
    (∀ (msgs : List Bytes) (due due' : List StreamCall),
      Forwards lib msgs due → Forwards lib msgs due' → due = due') ∧
    ∀ (msgs msgs' : List Bytes) (msg : Bytes), (∀ content, ¬ Carries lib msg content) →
      relayMessages lib (msgs ++ msg :: msgs') = relayMessages lib (msgs ++ msgs') := by
  refine ⟨?_, ?_, ?_, ?_⟩
  · intro parser raw calls
    exact ⟨_, (forwards_iff lib _ _).mpr rfl, streamWriteCallback_apply lib parser raw calls⟩
  · intro msgs calls
    exact ⟨_, (forwards_iff lib _ _).mpr rfl, relayMessages_apply lib msgs calls⟩
  · intro msgs due due' hdue hdue'
    rw [(forwards_iff lib msgs due).mp hdue, (forwards_iff lib msgs due').mp hdue']
  · intro msgs msgs' msg hmsg
    funext calls
    rw [relayMessages_apply, relayMessages_apply, contentCalls, contentCalls,
      List.filterMap_append, List.filterMap_append,
      List.filterMap_cons_none (messageContent_eq_none lib hmsg)]

end OpenaiCompatible

end AiSwitch
