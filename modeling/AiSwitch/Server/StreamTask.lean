import AiSwitch.Adapter.OpenaiCompatible

/-!
# The pool task of a streaming request

`handle_request` (`server/session.cpp`) submits one task per streaming request to the thread pool.
The task runs `chat_completion_stream` and posts a handler to the socket's executor for each
callback; an exception becomes a last handler that sends an error event and the terminator. The
sends of a response are those of its handlers in the order in which they are posted.

The adapter's write function repeats the terminator on every block after the end marker, and the
failure paths of the adapter and of the task each add one of their own.
`terminatedOnce_streamTask_iff` says for which transfers exactly one is sent, as the last send.
-/

namespace AiSwitch

open ByteString Effect Nlohmann

/-- One call of `send_stream_chunk`. -/
structure Send where
  chunkData : Bytes
  done : Bool
deriving DecidableEq, Repr

/-- A handler posted to the executor: the sends it makes, one after the other. -/
abbrev PostedHandler := List Send

/-- The handler of one callback. -/
def StreamCall.handler (c : StreamCall) : PostedHandler :=
  [⟨SseHandler.makeChunk c.content, c.done⟩]

/-- The event that reports an exception, spliced from its message. -/
def errorEvent (msg : Bytes) : Bytes :=
  utf8 "data: \x7b\"error\":\x7b\"code\":\"provider_error\",\"message\":\"" ++ msg ++
    utf8 "\"\x7d\x7d\n\n"

/-- The handler of an exception, whose message it copies as a C string. -/
def errorHandler (e : Exn) : PostedHandler := [⟨errorEvent (cstr e.what), false⟩, ⟨[], true⟩]

/-- The task: the handlers it posts, and how it ends. -/
def streamTask (ai : Adapter) (body : Json) : List PostedHandler × Outcome Exn Unit :=
  match ai.chatCompletionStream body [] with
  | (.throw e, calls) => (calls.map StreamCall.handler ++ [errorHandler e], .ok ())
  | (r, calls) => (calls.map StreamCall.handler, r)

/-- An exception of the adapter is reported to the client. -/
theorem streamTask_of_throw {ai : Adapter} {body : Json} {e : Exn} {calls : List StreamCall}
    (h : ai.chatCompletionStream body [] = (.throw e, calls)) :
    streamTask ai body = (calls.map StreamCall.handler ++ [errorHandler e], .ok ()) := by
  rw [streamTask, h]

/-- A task that returns has posted what was called back. -/
theorem streamTask_of_ok {ai : Adapter} {body : Json} {calls : List StreamCall}
    (h : ai.chatCompletionStream body [] = (.ok (), calls)) :
    streamTask ai body = (calls.map StreamCall.handler, .ok ()) := by
  rw [streamTask, h]

/-- Undefined behaviour of the adapter is that of the task. -/
theorem streamTask_of_ub {ai : Adapter} {body : Json} {calls : List StreamCall}
    (h : ai.chatCompletionStream body [] = (.ub, calls)) :
    streamTask ai body = (calls.map StreamCall.handler, .ub) := by
  rw [streamTask, h]

/-- The body of a streaming request as the session hands it to an adapter: an object that came out
of the parser and whose `model`, if there is one, has been read as a string. -/
structure StreamRequest where
  fields : List (Bytes × Json)
  valid : (Json.object fields).isValid = true
  model_string : ∀ v, fields.lookup (utf8 "model") = some v → ∃ s, v = .string s

/-- The request as a document. -/
def StreamRequest.json (r : StreamRequest) : Json := .object r.fields

namespace StreamRequest

variable (r : StreamRequest)

/-- `temperature` and `max_tokens` as the OpenAI-compatible adapter reads them. -/
def temperature : Outcome Exn ℚ :=
  r.json.value "temperature" Json.getDouble defaultTemperature

def maxTokens : Outcome Exn ℤ := r.json.value "max_tokens" (Json.getInt 32) 2048

/-- The request has messages. -/
def HasMessages : Prop := ∃ messages, r.fields.lookup (utf8 "messages") = some messages

/-- A number of the request has the wrong type. -/
def Mistyped : Prop := (∃ e, r.temperature = .throw e) ∨ ∃ e, r.maxTokens = .throw e

/-- The numbers of the request can be read. -/
def Readable : Prop := (∃ t, r.temperature = .ok t) ∧ ∃ n, r.maxTokens = .ok n

/-- A temperature is read or refused, but a token limit may also be out of range. -/
theorem temperature_ne_ub : r.temperature ≠ .ub := by
  rw [temperature, json, Json.value]
  cases r.fields.lookup (utf8 "temperature") with
  | none => simp
  | some v => cases v <;> simp [Json.getDouble]

/-- The model is a text, and valid. -/
theorem value_model (default : String) :
    ∃ s, r.json.value "model" Json.getString (utf8 default) = .ok s ∧ ValidUtf8 s := by
  cases h : r.fields.lookup (utf8 "model") with
  | none => exact ⟨utf8 default, by simp [json, Json.value, h], validUtf8_utf8 default⟩
  | some v =>
    obtain ⟨s, rfl⟩ := r.model_string v h
    refine ⟨s, by simp [json, Json.value, h], ?_⟩
    exact (Json.isValid_string s).mp (Json.isValid_of_lookup r.valid h)

end StreamRequest

/-! ## Termination of the response -/

/-- The task has a defined behaviour, exactly one of its sends is the terminator, and it is the
last one. -/
def TerminatedOnce (t : List PostedHandler × Outcome Exn Unit) : Prop :=
  t.2 ≠ .ub ∧ ∃ sends last, t.1.flatten = sends ++ [last] ∧ last.done = true ∧
    ∀ s ∈ sends, s.done = false

/-- Each callback posts one handler. -/
theorem flatten_map_handler (calls : List StreamCall) :
    (calls.map StreamCall.handler).flatten
      = calls.map fun c => ⟨SseHandler.makeChunk c.content, c.done⟩ := by
  induction calls with
  | nil => rfl
  | cons c calls ih => simp [StreamCall.handler, ih]

/-- After an exception the response is terminated once exactly if no terminator preceded it. -/
theorem terminatedOnce_throw_iff (calls : List StreamCall) (e : Exn) :
    TerminatedOnce (calls.map StreamCall.handler ++ [errorHandler e], .ok ())
      ↔ ∀ c ∈ calls, c.done = false := by
  rw [TerminatedOnce, List.flatten_append, flatten_map_handler]
  constructor
  · rintro ⟨-, sends, last, heq, -, hsends⟩ c hc
    have hsplit : sends = calls.map (fun c => ⟨SseHandler.makeChunk c.content, c.done⟩)
        ++ [⟨errorEvent (cstr e.what), false⟩] := by
      have := congrArg List.dropLast heq
      simpa [errorHandler, List.dropLast_append] using this.symm
    exact hsends ⟨SseHandler.makeChunk c.content, c.done⟩
      (hsplit ▸ List.mem_append_left _ (List.mem_map_of_mem hc))
  · intro hcalls
    refine ⟨by simp, calls.map (fun c => ⟨SseHandler.makeChunk c.content, c.done⟩)
      ++ [⟨errorEvent (cstr e.what), false⟩], ⟨[], true⟩, by simp [errorHandler], rfl, ?_⟩
    intro s hs
    rcases List.mem_append.mp hs with hs | hs
    · obtain ⟨c, hc, rfl⟩ := List.mem_map.mp hs
      exact hcalls c hc
    · rw [List.mem_singleton.mp hs]

/-- Without an exception the terminator has to be the last callback and no other. -/
theorem terminatedOnce_ok_iff (calls : List StreamCall) :
    TerminatedOnce (calls.map StreamCall.handler, .ok ())
      ↔ ∃ init last, calls = init ++ [last] ∧ last.done = true ∧ ∀ c ∈ init, c.done = false := by
  rw [TerminatedOnce, flatten_map_handler]
  constructor
  · rintro ⟨-, sends, last, heq, hlast, hsends⟩
    obtain ⟨init, tail, rfl, hinit, htail⟩ := List.map_eq_append_iff.mp heq
    obtain ⟨c, rfl, rfl⟩ := List.map_eq_singleton_iff.mp htail
    refine ⟨init, c, rfl, hlast, fun d hd => hsends _ (hinit ▸ List.mem_map_of_mem hd)⟩
  · rintro ⟨init, last, rfl, hlast, hinit⟩
    refine ⟨by simp, init.map (fun c => ⟨SseHandler.makeChunk c.content, c.done⟩),
      ⟨SseHandler.makeChunk last.content, last.done⟩, by simp, hlast, ?_⟩
    intro s hs
    obtain ⟨c, hc, rfl⟩ := List.mem_map.mp hs
    exact hinit c hc

namespace OpenaiCompatible

variable (a : OpenaiCompatible) (lib : Lib)

/-- The last block finishes the parser and no block before it does: the callbacks of the transfer
end in their only terminator. -/
theorem transferCalls_terminated_iff (raws : List Bytes) :
    (∃ init last, transferCalls lib {} raws = init ++ [last] ∧ last.done = true ∧
        ∀ c ∈ init, c.done = false)
      ↔ SseHandler.Ended raws.flatten ∧ ¬ SseHandler.Ended raws.dropLast.flatten := by
  rw [← SseHandler.isDone_feedAll_iff, ← SseHandler.isDone_feedAll_iff,
    ← exists_done_transferCalls_iff lib rfl, ← exists_done_transferCalls_iff lib rfl]
  rcases List.eq_nil_or_concat raws with rfl | ⟨raws, raw, rfl⟩
  · simp [transferCalls]
  rw [List.concat_eq_append, List.dropLast_concat, transferCalls_append]
  have hlastCalls : transferCalls lib (SseHandler.feedAll {} raws).2 [raw]
      = blockCalls lib (SseHandler.feedAll {} raws).2 raw := by simp [transferCalls]
  rw [hlastCalls]
  constructor
  · rintro ⟨init, last, heq, hlast, hinit⟩
    refine ⟨⟨last, heq ▸ List.mem_append_right _ (List.mem_singleton_self _), hlast⟩, ?_⟩
    -- a terminator in an earlier block would be followed by the one of the last block
    rintro ⟨c, hc, hcdone⟩
    have hdone : (SseHandler.feedAll {} raws).2.isDone = true :=
      (exists_done_transferCalls_iff lib rfl raws).mp ⟨c, hc, hcdone⟩
    have hblock : ((SseHandler.feedAll {} raws).2.feed raw).2.isDone = true :=
      SseHandler.isDone_feed_of_isDone hdone raw
    rw [blockCalls, hblock, if_pos rfl, ← List.append_assoc] at heq
    have hmem : c ∈ init := by
      rw [← (List.append_inj_left' heq rfl)]
      exact List.mem_append_left _ hc
    rw [hinit c hmem] at hcdone
    cases hcdone
  · rintro ⟨⟨c, hc, hcdone⟩, hbefore⟩
    have hblock : ((SseHandler.feedAll {} raws).2.feed raw).2.isDone = true := by
      rcases List.mem_append.mp hc with hc | hc
      · exact absurd ⟨c, hc, hcdone⟩ hbefore
      · by_contra h
        rw [done_of_mem_blockCalls lib (by simpa using h) hc] at hcdone
        cases hcdone
    refine ⟨transferCalls lib {} raws
      ++ contentCalls lib ((SseHandler.feedAll {} raws).2.feed raw).1, ⟨[], true⟩, ?_, rfl, ?_⟩
    · rw [blockCalls, hblock, if_pos rfl, List.append_assoc]
    · intro d hd
      rcases List.mem_append.mp hd with hd | hd
      · by_contra h
        exact hbefore ⟨d, hd, by simpa using h⟩
      · exact done_of_mem_contentCalls lib hd

/-! ## The request body -/

variable {a} (r : StreamRequest)

/-- A request without messages meets the constant access, which is undefined. -/
theorem buildRequestBody_of_not_hasMessages (h : ¬ r.HasMessages) (stream : Bool) :
    a.buildRequestBody r.json stream = .ub := by
  obtain ⟨model, hmodel, -⟩ := r.value_model a.defaultModel
  have hnone : r.fields.lookup (utf8 "messages") = none := by
    rwa [StreamRequest.HasMessages, ← Option.isSome_iff_exists, Option.not_isSome_iff_eq_none] at h
  simp only [buildRequestBody, hmodel]
  simp [StreamRequest.json, Json.set, Json.indexConst, hnone]

/-- The body of a request with messages is built from its two numbers. -/
theorem buildRequestBody_of_hasMessages (h : r.HasMessages) (stream : Bool) :
    ∃ body : ℚ → ℤ → Json, (∀ t n, (body t n).isValid = true) ∧
      a.buildRequestBody r.json stream = do
        let t ← r.temperature
        let n ← r.maxTokens
        return body t n := by
  obtain ⟨model, hmodel, hvalid⟩ := r.value_model a.defaultModel
  obtain ⟨messages, hmessages⟩ := h
  have hindex : r.json.indexConst "messages" = .ok messages := by
    simp [StreamRequest.json, Json.indexConst, hmessages]
  refine ⟨fun t n => .object (Json.insertField (utf8 "stream") (.boolean stream)
    (Json.insertField (utf8 "max_tokens") (.integer n)
      (Json.insertField (utf8 "temperature") (.floating t)
        (Json.insertField (utf8 "messages") messages [(utf8 "model", .string model)])))), ?_, ?_⟩
  · intro t n
    refine Json.isValid_insertField (Json.isValid_insertField (Json.isValid_insertField
      (Json.isValid_insertField ?_ (Json.isValid_of_lookup r.valid hmessages)) rfl) rfl) rfl
    simp [validUtf8_utf8, hvalid]
  · simp only [buildRequestBody, hmodel, hindex, StreamRequest.temperature, StreamRequest.maxTokens,
      Outcome.ok_bind, Json.set]
    rfl

/-- The numbers of a request are of the wrong type, or can be read, or do not fit. -/
theorem mistyped_or_readable_or_ub :
    r.Mistyped ∨ r.Readable ∨ (∃ t, r.temperature = .ok t) ∧ r.maxTokens = .ub := by
  have htemp := r.temperature_ne_ub
  rw [StreamRequest.Mistyped, StreamRequest.Readable]
  cases ht : r.temperature with
  | throw e => exact .inl (.inl ⟨e, rfl⟩)
  | ub => exact absurd ht htemp
  | ok t =>
    cases hn : r.maxTokens with
    | throw e => exact .inl (.inr ⟨e, rfl⟩)
    | ok n => exact .inr (.inl ⟨⟨t, rfl⟩, n, rfl⟩)
    | ub => exact .inr (.inr ⟨⟨t, rfl⟩, rfl⟩)

section

variable {r}

/-- Numbers that can be read are not mistyped. -/
theorem not_mistyped_of_readable (h : r.Readable) : ¬ r.Mistyped := by
  obtain ⟨⟨t, ht⟩, n, hn⟩ := h
  rintro (⟨e, he⟩ | ⟨e, he⟩)
  · rw [ht] at he
    cases he
  · rw [hn] at he
    cases he

/-- Numbers that do not fit are neither mistyped nor readable. -/
theorem not_mistyped_or_readable_of_ub (ht : ∃ t, r.temperature = .ok t)
    (hn : r.maxTokens = .ub) : ¬ (r.Mistyped ∨ r.Readable) := by
  obtain ⟨t, ht⟩ := ht
  rintro ((⟨e, he⟩ | ⟨e, he⟩) | ⟨-, n, he⟩)
  · rw [ht] at he
    cases he
  · rw [hn] at he
    cases he
  · rw [hn] at he
    cases he

/-- A number that does not fit is converted without defined behaviour. -/
theorem buildRequestBody_of_ub (hmsg : r.HasMessages) (ht : ∃ t, r.temperature = .ok t)
    (hn : r.maxTokens = .ub) (stream : Bool) : a.buildRequestBody r.json stream = .ub := by
  obtain ⟨body, -, hbody⟩ := buildRequestBody_of_hasMessages (a := a) r hmsg stream
  obtain ⟨t, ht⟩ := ht
  rw [hbody, ht, hn]
  rfl

end

/-! ## The call -/

variable (net : Network)

/-- A number of the wrong type ends in an exception before anything is sent. -/
theorem chatCompletionStream_of_mistyped (hmsg : r.HasMessages) (h : r.Mistyped) :
    ∃ e, a.chatCompletionStream lib net r.json [] = (.throw e, []) := by
  obtain ⟨body, -, hbody⟩ := buildRequestBody_of_hasMessages (a := a) r hmsg true
  have hthrow : ∃ e, a.buildRequestBody r.json true = .throw e := by
    rw [hbody]
    cases ht : r.temperature with
    | throw e => exact ⟨e, rfl⟩
    | ub => exact absurd ht r.temperature_ne_ub
    | ok t =>
      obtain ⟨e, he⟩ | ⟨e, he⟩ := h
      · rw [ht] at he
        cases he
      · exact ⟨e, by simp [he]⟩
  obtain ⟨e, he⟩ := hthrow
  exact ⟨e, by simp [chatCompletionStream, he]⟩

/-- A readable request is posted. -/
theorem chatCompletionStream_of_readable (hmsg : r.HasMessages) (h : r.Readable) :
    ∃ text, a.chatCompletionStream lib net r.json [] = a.httpPostStream lib net text [] := by
  obtain ⟨body, hvalid, hbody⟩ := buildRequestBody_of_hasMessages (a := a) r hmsg true
  obtain ⟨⟨t, ht⟩, n, hn⟩ := h
  refine ⟨lib.text (body t n), ?_⟩
  simp [chatCompletionStream, hbody, ht, hn, Lib.dump_of_isValid (hvalid t n)]

/-- A body that cannot be built is not sent. -/
theorem chatCompletionStream_of_ub (h : a.buildRequestBody r.json true = .ub) :
    a.chatCompletionStream lib net r.json [] = (.ub, []) := by
  simp [chatCompletionStream, h]

/-- Without a handle the stream is ended and an exception thrown. -/
theorem httpPostStream_none (body : Bytes) :
    a.httpPostStream lib (fun _ => none) body [] = (.throw curlInitFailed, [⟨[], true⟩]) := rfl

/-- With a handle the blocks are called back and the transfer is checked. -/
theorem httpPostStream_some (t : Transfer) (body : Bytes) :
    a.httpPostStream lib (fun _ => some t) body []
      = (checkTransfer t, transferCalls lib {} t.blocks) :=
  Prog.bind_of_ok (deliver_apply lib {} t.blocks []) _

/-- When the response to a streaming request is terminated once: it has messages, and either a
number in it is refused before the transfer, or the transfer takes place and finishes the parser
with its last block, if it succeeds, or with none, if it fails. -/
def ClosedOnce (curl : Option Transfer) (r : StreamRequest) : Prop :=
  r.HasMessages ∧ (r.Mistyped ∨ r.Readable ∧ ∃ t, curl = some t ∧
    if t.Succeeded then
      SseHandler.Ended t.blocks.flatten ∧ ¬ SseHandler.Ended t.blocks.dropLast.flatten
    else ¬ SseHandler.Ended t.blocks.flatten)

/-- A transfer that takes place is closed once as `ClosedOnce` says. -/
theorem terminatedOnce_transfer_iff (t : Transfer) {request : Json}
    (hcall : a.chatCompletionStream lib (fun _ => some t) request []
      = (checkTransfer t, transferCalls lib {} t.blocks)) :
    TerminatedOnce (streamTask (a.toAdapter lib fun _ => some t) request) ↔
      if t.Succeeded then
        SseHandler.Ended t.blocks.flatten ∧ ¬ SseHandler.Ended t.blocks.dropLast.flatten
      else ¬ SseHandler.Ended t.blocks.flatten := by
  split_ifs with hsucc
  · rw [checkTransfer_of_succeeded hsucc] at hcall
    rw [streamTask_of_ok hcall, terminatedOnce_ok_iff, transferCalls_terminated_iff]
  · obtain ⟨what, hwhat⟩ := checkTransfer_of_not_succeeded hsucc
    rw [hwhat] at hcall
    rw [streamTask_of_throw hcall, terminatedOnce_throw_iff, ← SseHandler.isDone_feedAll_iff,
      ← exists_done_transferCalls_iff lib rfl]
    simp

/-- **When a stream is terminated exactly once.** The task of a streaming request handed to an
OpenAI-compatible adapter sends one terminator, as its last send, exactly when `ClosedOnce`. -/
theorem terminatedOnce_streamTask_iff (curl : Option Transfer) :
    TerminatedOnce (streamTask (a.toAdapter lib fun _ => curl) r.json) ↔ ClosedOnce curl r := by
  have hub : a.buildRequestBody r.json true = .ub →
      ¬ TerminatedOnce (streamTask (a.toAdapter lib fun _ => curl) r.json) := by
    intro h
    rw [streamTask_of_ub (chatCompletionStream_of_ub lib r _ h)]
    exact fun ht => ht.1 rfl
  by_cases hmsg : r.HasMessages
  swap
  · exact iff_of_false (hub (buildRequestBody_of_not_hasMessages r hmsg true)) fun h => hmsg h.1
  rcases mistyped_or_readable_or_ub r with hmis | hread | ⟨ht, hn⟩
  · -- a number of the request is refused before anything is sent
    obtain ⟨e, he⟩ := chatCompletionStream_of_mistyped (a := a) lib r (fun _ => curl) hmsg hmis
    refine iff_of_true ?_ ⟨hmsg, .inl hmis⟩
    rw [streamTask_of_throw he, terminatedOnce_throw_iff]
    simp
  · have hnot := not_mistyped_of_readable hread
    obtain ⟨text, htext⟩ :=
      chatCompletionStream_of_readable (a := a) lib r (fun _ => curl) hmsg hread
    cases curl with
    | none =>
      -- the adapter has sent a terminator of its own before it throws
      refine iff_of_false ?_ ?_
      · rw [streamTask_of_throw (htext.trans (httpPostStream_none lib text)),
          terminatedOnce_throw_iff]
        simp
      · rintro ⟨-, h | ⟨-, t, h, -⟩⟩
        · exact hnot h
        · cases h
    | some t =>
      rw [terminatedOnce_transfer_iff lib t (htext.trans (httpPostStream_some lib t text))]
      simp [ClosedOnce, hmsg, hread, hnot]
  · -- the fraction of `max_tokens` does not fit an integer
    refine iff_of_false (hub (buildRequestBody_of_ub hmsg ht hn true)) fun h => ?_
    exact not_mistyped_or_readable_of_ub ht hn (h.2.imp_right And.left)

/-- A provider that closes its response without an end marker leaves the client's response
without a terminator. -/
theorem not_terminatedOnce_without_end_marker :
    ¬ TerminatedOnce (streamTask
      ((openaiAdapter (utf8 "sk-provider") (utf8 "https://api.openai.com/v1")).toAdapter
        (Lib.ofTable []) fun _ => some ⟨[], .ok, 200⟩)
      (.object [(utf8 "messages", .array []), (utf8 "model", .lit "gpt-4"),
        (utf8 "stream", .boolean true)])) := by
  have hrun : streamTask
      ((openaiAdapter (utf8 "sk-provider") (utf8 "https://api.openai.com/v1")).toAdapter
        (Lib.ofTable []) fun _ => some ⟨[], .ok, 200⟩)
      (.object [(utf8 "messages", .array []), (utf8 "model", .lit "gpt-4"),
        (utf8 "stream", .boolean true)]) = ([], .ok ()) := by
    decide +kernel
  rw [hrun]
  rintro ⟨-, sends, last, heq, -⟩
  simp at heq

end OpenaiCompatible

end AiSwitch
