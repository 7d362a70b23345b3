import AiSwitch.Server.Session

/-!
# Which requests reach an adapter

An adapter is called by the chat handler and by the task of a stream. The chat handler answers for
one path, which `auth_middleware` does not let pass without a key. The streaming branch of the
session looks at the body alone, so a white-listed path opens it to everybody:
`adaptersAuthorized_iff` says for exactly which requests that happens.
-/

namespace AiSwitch

open ByteString Effect Nlohmann Http Middleware

/-- The call of an adapter. -/
def Event.IsAdapterCall : Event → Prop
  | chatCompletion _ _ | chatCompletionStream _ _ => True
  | findApiKey _ _ | createApiKey _ _ | listApiKeys | disableApiKey _ | handler _ | doWrite _
  | startStream _ _ => False

instance : DecidablePred Event.IsAdapterCall
  | .chatCompletion _ _ | .chatCompletionStream _ _ => isTrue trivial
  | .findApiKey _ _ | .createApiKey _ _ | .listApiKeys | .disableApiKey _ | .handler _
  | .doWrite _ | .startStream _ _ => isFalse id

/-- If an adapter was called, the request carried a token that the repository found. -/
def AdaptersAuthorized (req : RequestHeader) (trace : List Event) : Prop :=
  (∃ e ∈ trace, e.IsAdapterCall) →
    ∃ t r, t ≠ [] ∧ req.authorization = some (utf8 "Bearer " ++ t) ∧
      Event.findApiKey t r ∈ trace ∧ r.found = true

/-- A request that reaches an adapter without a key: its path is white-listed, the limiter has a
token left for it, and its body asks for a stream of a model that an adapter serves. -/
def Bypasses (gw : Gateway) (w : World) (bucket : TokenBucket) (req : Request)
    (headerWritten : Bool) : Prop :=
  Whitelisted req.target ∧ LimiterDefined w bucket ∧ 1 ≤ (currentBucket w bucket).tokens ∧
    headerWritten = true ∧
    ∃ body model, gw.Streams req body model ∧ gw.adapters.create model ≠ none

section

variable {gw : Gateway} {w : World} {bucket : TokenBucket} {req : Request}

/-- The lookups of a request are no adapter calls. -/
theorem not_isAdapterCall_of_mem_lookups {req : RequestHeader} {e : Event}
    (he : e ∈ lookups gw w req) : ¬ e.IsAdapterCall := by
  obtain ⟨t, r, rfl⟩ := lookups_spec he
  exact id

/-- A trace without a call of an adapter needs no key. -/
theorem adaptersAuthorized_of_forall {req : RequestHeader} {trace : List Event}
    (h : ∀ e ∈ trace, ¬ e.IsAdapterCall) : AdaptersAuthorized req trace := by
  rintro ⟨e, he, hcall⟩
  exact absurd hcall (h e he)

/-- The session answers without an adapter. -/
theorem adaptersAuthorized_answered {req : RequestHeader} (res : Response) :
    AdaptersAuthorized req (lookups gw w req ++ [.doWrite res]) := by
  apply adaptersAuthorized_of_forall
  intro e he
  rcases List.mem_append.mp he with he | he
  · exact not_isAdapterCall_of_mem_lookups he
  · rw [List.mem_singleton.mp he]
    exact id

/-- A request that passes on a path that needs a key has one. -/
theorem exists_findApiKey {req : RequestHeader} (hpass : Passes gw w req)
    (hpath : ¬ Whitelisted req.target) :
    ∃ t r, t ≠ [] ∧ req.authorization = some (utf8 "Bearer " ++ t) ∧
      Event.findApiKey t r ∈ lookups gw w req ∧ r.found = true := by
  obtain ⟨htoken, hfound⟩ := hpass.resolve_left hpath
  refine ⟨_, _, htoken, authorization_of_token htoken, ?_, hfound⟩
  rw [lookups, if_neg (by tauto)]
  exact List.mem_singleton_self _

/-- A request that passes has its key looked up before its adapter calls. -/
theorem adaptersAuthorized_of_passes {req : RequestHeader} (hpass : Passes gw w req)
    (hpath : ¬ Whitelisted req.target) {trace : List Event}
    (htrace : ∀ e ∈ lookups gw w req, e ∈ trace) : AdaptersAuthorized req trace := by
  intro _
  obtain ⟨t, r, ht, hauth, hmem, hfound⟩ := exists_findApiKey hpass hpath
  exact ⟨t, r, ht, hauth, htrace _ hmem, hfound⟩

/-- `/api/chat` is not whitelisted. -/
theorem not_whitelisted_chat : ¬ Whitelisted (utf8 "/api/chat") := by decide +kernel

/-- What the router answers is authorized: only the chat handler calls an adapter, and its path
needs a key. -/
theorem adaptersAuthorized_of_route (hpass : Passes gw w req.toRequestHeader) {w' : World}
    (htrace : w'.trace = lookups gw w req.toRequestHeader) :
    AdaptersAuthorized req.toRequestHeader (gw.route req w').2.trace := by
  obtain ⟨events, hevents, hroute⟩ := Gateway.records_route req w'
  rintro ⟨e, he, hcall⟩
  rw [hevents, htrace] at he
  rcases List.mem_append.mp he with he | he
  · exact absurd hcall (not_isAdapterCall_of_mem_lookups he)
  rcases hroute e he with ⟨r, hr, hin⟩ | ⟨res, rfl⟩
  · have hchat : r = .chat := by
      cases e <;> first | exact absurd hcall id | exact hin | exact absurd hin id
    subst hchat
    have htarget := (routeOf_eq_chat.mp hr).2
    refine adaptersAuthorized_of_passes hpass (htarget ▸ not_whitelisted_chat) ?_ ⟨e, ?_, hcall⟩
    · intro f hf
      rw [hevents, htrace]
      exact List.mem_append_left _ hf
    · rw [hevents]
      exact List.mem_append_right _ he
  · exact absurd hcall id

/-- A stream that was started is authorized unless its path needs no key. -/
theorem adaptersAuthorized_started_iff {req : RequestHeader} (hpass : Passes gw w req) {ai : ℕ}
    {body : Json} {headerWritten : Bool} :
    AdaptersAuthorized req (lookups gw w req ++ [.startStream req.version req.keepAlive] ++
        if headerWritten then [.chatCompletionStream ai body] else [])
      ↔ ¬ (Whitelisted req.target ∧ headerWritten = true) := by
  by_cases hpath : Whitelisted req.target
  · rw [lookups, if_pos (.inl hpath)]
    cases headerWritten with
    | false => simp [AdaptersAuthorized, Event.IsAdapterCall]
    | true => simp [AdaptersAuthorized, Event.IsAdapterCall, hpath]
  · refine iff_of_true (adaptersAuthorized_of_passes hpass hpath ?_) fun h => hpath h.1
    intro e he
    exact List.mem_append_left _ (List.mem_append_left _ he)

end

/-- **Which requests reach an adapter without a key.** An adapter is called only for a request with
a key that was found, unless the request bypasses the check. -/
theorem adaptersAuthorized_iff (gw : Gateway) (w : World) (bucket : TokenBucket) (req : Request)
    (headerWritten : Bool) :
    AdaptersAuthorized req.toRequestHeader (Gateway.served gw w bucket req headerWritten).trace
      ↔ ¬ Bypasses gw w bucket req headerWritten := by
  by_cases hdef : ChainDefined gw w bucket req.toRequestHeader
  swap
  · -- undefined behaviour in the chain: no adapter is reached
    obtain ⟨w', htrace, hreq⟩ := Gateway.handleRequest_of_not_defined hdef
    rw [Gateway.served_of_not_started headerWritten (hreq req.body) (by simp)]
    refine iff_of_true (adaptersAuthorized_of_forall fun e he =>
      not_isAdapterCall_of_mem_lookups (htrace e he)) ?_
    rintro ⟨hpath, hlimit, -⟩
    exact hdef ⟨.inl hpath, fun _ => hlimit⟩
  by_cases hadm : Admitted gw w bucket req.toRequestHeader
  swap
  · -- the chain answers
    obtain ⟨res, w', -, htrace, hreq⟩ := Gateway.handleRequest_of_not_admitted hdef hadm
    rw [Gateway.served_of_not_started headerWritten (hreq req.body) (by simp), htrace]
    refine iff_of_true (adaptersAuthorized_answered res) ?_
    rintro ⟨hpath, -, htokens, -⟩
    exact hadm ⟨.inl hpath, htokens⟩
  by_cases hstreams : ∃ body model, gw.Streams req body model
  · obtain ⟨body, model, hstreams⟩ := hstreams
    cases hcreate : gw.adapters.create model with
    | none =>
      -- the stream is refused
      obtain ⟨w', hreq, htrace⟩ := Gateway.handleRequest_of_streams_none hstreams hdef hadm hcreate
      rw [Gateway.served_of_not_started headerWritten hreq (by simp), htrace]
      refine iff_of_true (adaptersAuthorized_answered _) ?_
      rintro ⟨-, -, -, -, body', model', h, hsome⟩
      obtain ⟨-, rfl⟩ := hstreams.unique h
      exact hsome hcreate
    | some ai =>
      obtain ⟨w', hreq, htrace⟩ := Gateway.handleRequest_of_streams_some hstreams hdef hadm hcreate
      rw [Gateway.served_of_started headerWritten hreq, htrace,
        adaptersAuthorized_started_iff hadm.1, not_iff_not]
      constructor
      · rintro ⟨hpath, hwritten⟩
        exact ⟨hpath, hdef.2 hadm.1, hadm.2, hwritten, body, model, hstreams, by simp [hcreate]⟩
      · rintro ⟨hpath, -, -, hwritten, -⟩
        exact ⟨hpath, hwritten⟩
  · -- the router answers
    obtain ⟨w', htrace, -, hreq⟩ := Gateway.handleRequest_of_not_streams hstreams hdef hadm
    rw [Gateway.served_of_routed headerWritten hreq]
    refine iff_of_true (adaptersAuthorized_of_route hadm.1 htrace) ?_
    rintro ⟨-, -, -, -, body, model, h, -⟩
    exact hstreams ⟨body, model, h⟩

/-- A white-listed path with the body of a streaming chat reaches the adapter without any header. -/
theorem not_adaptersAuthorized_admin_path :
    ¬ AdaptersAuthorized { method := .post, target := utf8 "/admin/x" }
      (Gateway.served
        (Gateway.small [(utf8 "\x7b\"stream\":true\x7d", ⟨.obj [("stream", .boolean true)], rfl⟩)]
          [Adapter.small "deepseek"]) World.small ⟨10, 10, 5, 0⟩
        { method := .post, target := utf8 "/admin/x", body := utf8 "\x7b\"stream\":true\x7d" }
        true).trace := by
  intro h
  obtain ⟨t, r, -, hauth, -⟩ := h (by decide +kernel)
  cases hauth

end AiSwitch
