import AiSwitch.Adapter.Anthropic
import AiSwitch.Adapter.OpenaiCompatible
import Mathlib.Logic.Function.DependsOn

/-!
# The endpoint of a call

Each adapter builds the URL, the headers and the body of its POST twice, once for the plain and
once for the streaming call. The POST a call makes is the one argument of the network on which its
result depends (`Posts`). libcurl reads URL and headers as C strings, so it is `HttpPost.sent` that
goes out.
-/

namespace AiSwitch

open ByteString Effect Nlohmann

/-- What libcurl reads of the strings it is given. -/
def HttpPost.sent (p : HttpPost) : HttpPost := ⟨cstr p.url, p.headers.map cstr, cstr p.body⟩

/-- The call makes the POST `p`: its result depends on the answer to `p`, and on nothing else of
the network. -/
def Posts {α : Type} (call : Network → α) (p : HttpPost) : Prop :=
  DependsOn call {p} ∧ ∃ net net', call net ≠ call net'

section Posts

variable {α : Type} {call : Network → α}

/-- A call makes at most one POST. -/
theorem Posts.unique {p q : HttpPost} (hp : Posts call p) (hq : Posts call q) : p = q := by
  by_contra hne
  obtain ⟨net, net', hdiff⟩ := hq.2
  -- a network that answers `p` as `net` does and `q` as `net'` does
  apply hdiff
  calc call net = call (fun r => if r = p then net p else net' r) := hp.1 (by simp)
    _ = call net' := hq.1 (by simp [Ne.symm hne])

/-- A call posts `p` if it does not tell a network from the constant one with the answer to `p`, and
tells two constant ones apart. -/
theorem posts_of_const {p : HttpPost} (hcall : ∀ net : Network, call net = call fun _ => net p)
    {s t : Option Transfer} (hne : call (fun _ => s) ≠ call fun _ => t) : Posts call p := by
  refine ⟨fun net net' h => ?_, fun _ => s, fun _ => t, hne⟩
  rw [hcall net, hcall net', h p rfl]

end Posts

/-- The bodies are texts of one document, but for the field `stream`. -/
def SameButStream (lib : Lib) (p q : HttpPost) : Prop :=
  ∃ body body' : Json, p.body = lib.text body ∧ q.body = lib.text body' ∧
    body.index "stream" = .ok (.boolean false) ∧ body.set "stream" (.boolean true) = .ok body'

/-- The plain and the streaming call of a request make one POST each, to one endpoint. -/
def SameEndpoint (lib : Lib) (adapter : Network → Adapter) (request : Json) : Prop :=
  ∃ p q, Posts (fun net => (adapter net).chatCompletion request) p ∧
    Posts (fun net => (adapter net).chatCompletionStream request []) q ∧
    p.sent.url = q.sent.url ∧ p.sent.headers = q.sent.headers ∧ SameButStream lib p q

/-- A transfer that a plain call reports otherwise than the failure to make a handle. -/
def unavailable : Transfer := ⟨[], .ok, 503⟩

/-- The made-up answer 503 is thrown as an error, which is not the one of a failed init. -/
theorem checkResponse_unavailable :
    ∃ e, checkResponse unavailable = .throw e ∧ e ≠ curlInitFailed :=
  ⟨.runtimeError (utf8 "API 返回错误 (HTTP 503): "), by decide +kernel, by decide +kernel⟩

variable {lib : Lib} {request body : Json}

namespace OpenaiCompatible

variable {a : OpenaiCompatible}

/-- An OpenAI-compatible `chat_completion` posts to the endpoint of `http_request`. -/
theorem posts_chatCompletion (hbody : a.buildRequestBody request false = .ok body)
    (hvalid : body.isValid = true) :
    Posts (fun net => a.chatCompletion lib net request) (a.httpRequest (lib.text body)) := by
  refine posts_of_const (s := none) (t := some unavailable) (fun net => ?_) ?_
  · simp [chatCompletion, hbody, Lib.dump_of_isValid hvalid, httpPost]
  · obtain ⟨e, he, hne⟩ := checkResponse_unavailable
    simp [chatCompletion, hbody, Lib.dump_of_isValid hvalid, httpPost, he, Ne.symm hne]

/-- An OpenAI-compatible `chat_completion_stream` posts to the endpoint of `http_request`. -/
theorem posts_chatCompletionStream (hbody : a.buildRequestBody request true = .ok body)
    (hvalid : body.isValid = true) :
    Posts (fun net => a.chatCompletionStream lib net request [])
      (a.httpRequest (lib.text body)) := by
  refine posts_of_const (s := none) (t := some unavailable) (fun net => ?_) ?_
  · simp [chatCompletionStream, hbody, Lib.dump_of_isValid hvalid, httpPostStream]
  · -- the failure to make a handle is reported through the callback as well
    intro h
    have hcalls := congrArg Prod.snd h
    simp [chatCompletionStream, hbody, Lib.dump_of_isValid hvalid, httpPostStream, deliver,
      unavailable, Prog.bind_apply] at hcalls

/-- The document of the streaming body is that of the plain one with `stream` set. -/
theorem buildRequestBody_stream (hbody : a.buildRequestBody request false = .ok body) :
    body.index "stream" = .ok (.boolean false) ∧
      ∃ body', a.buildRequestBody request true = .ok body' ∧
        body.set "stream" (.boolean true) = .ok body' := by
  obtain ⟨model, hmodel, h⟩ := Outcome.bind_eq_ok_iff.mp hbody
  obtain ⟨b₁, hb₁, h⟩ := Outcome.bind_eq_ok_iff.mp h
  obtain ⟨messages, hmessages, h⟩ := Outcome.bind_eq_ok_iff.mp h
  obtain ⟨b₂, hb₂, h⟩ := Outcome.bind_eq_ok_iff.mp h
  obtain ⟨temperature, htemperature, h⟩ := Outcome.bind_eq_ok_iff.mp h
  obtain ⟨b₃, hb₃, h⟩ := Outcome.bind_eq_ok_iff.mp h
  obtain ⟨maxTokens, hmaxTokens, h⟩ := Outcome.bind_eq_ok_iff.mp h
  obtain ⟨b₄, hb₄, h⟩ := Outcome.bind_eq_ok_iff.mp h
  obtain ⟨body', hbody'⟩ := Json.exists_set_of_set h "stream" (.boolean true)
  refine ⟨Json.index_of_set h, body', ?_, hbody'⟩
  rw [Json.set_of_set h] at hbody'
  simp only [buildRequestBody, hmodel, hb₁, hmessages, hb₂, htemperature, hb₃, hmaxTokens, hb₄,
    Outcome.ok_bind, hbody']

end OpenaiCompatible

namespace Anthropic

variable {a : Anthropic}

/-- Anthropic's `chat_completion` posts to `/messages` under the base URL. -/
theorem posts_chatCompletion (hbody : a.buildRequestBody request false = .ok body)
    (hvalid : body.isValid = true) :
    Posts (fun net => a.chatCompletion lib net request)
      ⟨a.baseUrl ++ utf8 "/messages", a.headers, lib.text body⟩ := by
  refine posts_of_const (s := none) (t := some unavailable) (fun net => ?_) ?_
  · simp [chatCompletion, hbody, Lib.dump_of_isValid hvalid, httpPost]
  · obtain ⟨e, he, hne⟩ := checkResponse_unavailable
    simp [chatCompletion, hbody, Lib.dump_of_isValid hvalid, httpPost, he, Ne.symm hne]

/-- Anthropic's `chat_completion_stream` posts to `messages` with no slash before it. -/
theorem posts_chatCompletionStream (hbody : a.buildRequestBody request true = .ok body)
    (hvalid : body.isValid = true) :
    Posts (fun net => a.chatCompletionStream lib net request [])
      ⟨a.baseUrl ++ utf8 "messages", a.headers, lib.text body⟩ := by
  refine posts_of_const (s := none) (t := some unavailable) (fun net => ?_) ?_
  · simp [chatCompletionStream, hbody, Lib.dump_of_isValid hvalid, httpPostStream]
  · intro h
    have hcalls := congrArg Prod.snd h
    simp [chatCompletionStream, hbody, Lib.dump_of_isValid hvalid, httpPostStream, perform,
      unavailable, Prog.bind_apply] at hcalls

/-- The messages of a request, split. -/
def splitRequest (request : Json) : Outcome Exn (List Json × Bytes) :=
  if request.contains "messages" then
    request.indexConst "messages" >>= fun messages => splitMessages [] [] (elements messages)
  else pure ([], [])

/-- What follows the member `stream` of a body. -/
def finishBody (body : Json) (split : List Json × Bytes) : Outcome Exn Json := do
  let body ← body.set "messages" (.array split.1)
  if split.2 ≠ [] then
    body.set "system" (.string split.2)
  else
    return body

/-- The body is the members with their defaults, and then the messages. -/
theorem buildRequestBody_eq (request : Json) (stream : Bool) :
    a.buildRequestBody request stream = (do
      let model ← request.value "model" Json.getString a.defaultModel
      let body ← Json.null.set "model" (.string model)
      let maxTokens ← request.value "max_tokens" (Json.getInt 32) 2048
      let body ← body.set "max_tokens" (.integer maxTokens)
      let temperature ← request.value "temperature" Json.getDouble defaultTemperature
      let body ← body.set "temperature" (.floating temperature)
      let body ← body.set "stream" (.boolean stream)
      finishBody body (← splitRequest request)) := by
  rw [buildRequestBody, splitRequest]
  cases request.contains "messages" with
  | false => rfl
  | true => cases request.indexConst "messages" <;> rfl

/-- Whatever follows, it leaves `stream` as it was set, and setting it afterwards is the same. -/
theorem finishBody_stream {b b' c body : Json} {split : List Json × Bytes}
    (hb' : b.set "stream" (.boolean false) = .ok b') (hc : b.set "stream" (.boolean true) = .ok c)
    (h : finishBody b' split = .ok body) :
    body.index "stream" = .ok (.boolean false) ∧
      ∃ body', finishBody c split = .ok body' ∧ body.set "stream" (.boolean true) = .ok body' := by
  obtain ⟨messages, systemPrompt⟩ := split
  obtain ⟨d, hd, h⟩ := Outcome.bind_eq_ok_iff.mp h
  obtain ⟨d', hd'⟩ := Json.exists_set_of_set hd "stream" (.boolean true)
  have hfalse : d.index "stream" = .ok (.boolean false) := by
    rw [Json.index_of_set_ne (by decide) hd, Json.index_of_set hb']
  have hmember : c.set "messages" (.array messages) = .ok d' := by
    rw [← Json.set_of_set hb'] at hc
    rw [← Json.set_comm (.inl (by decide)) hd hc, hd']
  by_cases hsystem : systemPrompt ≠ []
  · simp only [if_pos hsystem] at h
    obtain ⟨body', hbody'⟩ := Json.exists_set_of_set h "stream" (.boolean true)
    refine ⟨?_, body', ?_, hbody'⟩
    · rw [Json.index_of_set_ne (by decide) h, hfalse]
    · rw [Json.set_comm (.inr (by decide)) h hd'] at hbody'
      simp only [finishBody, hmember, Outcome.ok_bind, if_pos hsystem, hbody']
  · simp only [if_neg hsystem] at h
    cases h
    refine ⟨hfalse, d', ?_, hd'⟩
    simp only [finishBody, hmember, Outcome.ok_bind, if_neg hsystem]
    rfl

/-- As for the other adapter, although `stream` is not the member set last. -/
theorem buildRequestBody_stream (hbody : a.buildRequestBody request false = .ok body) :
    body.index "stream" = .ok (.boolean false) ∧
      ∃ body', a.buildRequestBody request true = .ok body' ∧
        body.set "stream" (.boolean true) = .ok body' := by
  rw [buildRequestBody_eq] at hbody ⊢
  obtain ⟨model, hmodel, h⟩ := Outcome.bind_eq_ok_iff.mp hbody
  obtain ⟨b₁, hb₁, h⟩ := Outcome.bind_eq_ok_iff.mp h
  obtain ⟨maxTokens, hmaxTokens, h⟩ := Outcome.bind_eq_ok_iff.mp h
  obtain ⟨b₂, hb₂, h⟩ := Outcome.bind_eq_ok_iff.mp h
  obtain ⟨temperature, htemperature, h⟩ := Outcome.bind_eq_ok_iff.mp h
  obtain ⟨b₃, hb₃, h⟩ := Outcome.bind_eq_ok_iff.mp h
  obtain ⟨b₄, hb₄, h⟩ := Outcome.bind_eq_ok_iff.mp h
  obtain ⟨split, hsplit, h⟩ := Outcome.bind_eq_ok_iff.mp h
  obtain ⟨c₄, hc₄⟩ := Json.exists_set_of_set hb₄ "stream" (.boolean true)
  rw [Json.set_of_set hb₄] at hc₄
  obtain ⟨hfalse, body', hbody', hset⟩ := finishBody_stream hb₄ hc₄ h
  refine ⟨hfalse, body', ?_, hset⟩
  simp only [hmodel, hb₁, hmaxTokens, hb₂, htemperature, hb₃, hc₄, hsplit, Outcome.ok_bind, hbody']

/-- The two URLs differ in a slash behind the base URL. -/
theorem cstr_urls_iff : cstr (a.baseUrl ++ utf8 "/messages") = cstr (a.baseUrl ++ utf8 "messages")
    ↔ 0 ∈ a.baseUrl := by
  rw [cstr_append, cstr_append]
  split
  · simpa
  · rename_i hzero
    refine iff_of_false (fun h => ?_) hzero
    exact absurd (List.append_cancel_left h) (by decide)

/-- The two endpoints agree only where the C string ends inside the base URL. -/
theorem sameEndpoint_iff_zero_mem (hbody : a.buildRequestBody request false = .ok body)
    (hvalid : body.isValid = true) :
    SameEndpoint lib (a.toAdapter lib) request ↔ 0 ∈ a.baseUrl := by
  obtain ⟨hfalse, body', hbody', hset⟩ := buildRequestBody_stream hbody
  have hplain : Posts (fun net => a.chatCompletion lib net request) _ :=
    posts_chatCompletion hbody hvalid
  have hstream : Posts (fun net => a.chatCompletionStream lib net request []) _ :=
    posts_chatCompletionStream hbody' (Json.isValid_of_set hvalid rfl hset)
  rw [← cstr_urls_iff]
  constructor
  · rintro ⟨p, q, hp, hq, hurl, -, -⟩
    rwa [hp.unique hplain, hq.unique hstream] at hurl
  · intro hurl
    exact ⟨_, _, hplain, hstream, hurl, rfl, body, body', rfl, rfl, hfalse, hset⟩

end Anthropic

/-- **Which adapters keep to one endpoint.** For every request whose body can be posted: the
OpenAI-compatible adapters always do, the Anthropic one exactly when its base URL holds a zero
byte, which cuts the URL off on both paths. -/
theorem sameEndpoint_iff (lib : Lib) (request body : Json) (hvalid : body.isValid = true) :
    (∀ a : OpenaiCompatible, a.buildRequestBody request false = .ok body →
      SameEndpoint lib (a.toAdapter lib) request) ∧
    ∀ a : Anthropic, a.buildRequestBody request false = .ok body →
      (SameEndpoint lib (a.toAdapter lib) request ↔ 0 ∈ a.baseUrl) := by
  refine ⟨fun a hbody => ?_, fun a hbody => Anthropic.sameEndpoint_iff_zero_mem hbody hvalid⟩
  obtain ⟨hfalse, body', hbody', hset⟩ := OpenaiCompatible.buildRequestBody_stream hbody
  have hvalid' : body'.isValid = true := Json.isValid_of_set hvalid rfl hset
  exact ⟨_, _, OpenaiCompatible.posts_chatCompletion hbody hvalid,
    OpenaiCompatible.posts_chatCompletionStream hbody' hvalid', rfl, rfl,
    body, body', rfl, rfl, hfalse, hset⟩

/-- A request with one message. -/
def oneMessage : Json := .object [(utf8 "messages", .array [.object [(utf8 "content", .lit "hi")]])]

/-- The equivalence at one message and the default base URL. -/
theorem sameEndpoint_iff_oneMessage :
    SameEndpoint (Lib.ofTable []) (Anthropic.toAdapter { apiKey := utf8 "sk-ant" } (Lib.ofTable []))
        oneMessage
      ↔ 0 ∈ ({ apiKey := utf8 "sk-ant" } : Anthropic).baseUrl :=
  (sameEndpoint_iff (Lib.ofTable []) oneMessage _ (by decide +kernel)).2 _ rfl

/-- The plain call goes to `https://api.anthropic.com/v1/messages`, the streaming call to
`https://api.anthropic.com/v1messages`. -/
theorem not_sameEndpoint_default_base_url :
    ¬ SameEndpoint (Lib.ofTable [])
      (Anthropic.toAdapter { apiKey := utf8 "sk-ant" } (Lib.ofTable [])) oneMessage := by
  rw [Anthropic.sameEndpoint_iff_zero_mem rfl (by decide +kernel)]
  decide

end AiSwitch
