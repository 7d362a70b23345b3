import AiSwitch.Adapter.Endpoint
import AiSwitch.Common.JsonValue

/-!
# What the adapters make of a request

`build_request_body` of the two kinds of adapter. The Anthropic adapter moves the contents of the
system messages into a member of its own and keeps every other message; the OpenAI-compatible ones
hand the messages on as they are, without looking whether there are any. Both read `model`,
`temperature` and `max_tokens` by `value`, which refuses other types, and converts a number of
tokens to `int` without a look at its range.
-/

namespace AiSwitch

open ByteString Effect Nlohmann Nlohmann.Json

/-! ## System prompts -/

namespace Anthropic

/-- The role of a message, which is `user` where it is missing. -/
def roleOf (msg : Json) : Bytes := textOr (msg.member "role") (utf8 "user")

def contentOf (msg : Json) : Bytes := textOr (msg.member "content") []

def IsSystem (msg : Json) : Prop := roleOf msg = utf8 "system"

instance : DecidablePred IsSystem := fun _ => inferInstanceAs (Decidable (_ = _))

/-- The message is no object, its role is no string, or it is a system message whose content is no
string. -/
def Unreadable (msg : Json) : Prop :=
  msg.isObject = false ∨ Unconvertible getString (msg.member "role") ∨
    IsSystem msg ∧ Unconvertible getString (msg.member "content")

/-- The prompt with one more content. -/
def extend (systemPrompt content : Bytes) : Bytes :=
  (if systemPrompt ≠ [] then systemPrompt ++ utf8 "\n" else systemPrompt) ++ content

section Split

variable {msg : Json} (messages : List Json) (systemPrompt : Bytes) (msgs : List Json)

/-! ### One message -/

/-- One message with a readable role, split off before the rest. -/
theorem splitMessages_cons (hobj : msg.isObject = true)
    (hrole : ¬ Unconvertible getString (msg.member "role")) :
    splitMessages messages systemPrompt (msg :: msgs) =
      if IsSystem msg then
        msg.value "content" getString [] >>= fun content =>
          splitMessages messages (extend systemPrompt content) msgs
      else splitMessages (messages ++ [msg]) systemPrompt msgs := by
  rw [splitMessages, value_getString hobj hrole]
  rfl

/-- A message that cannot be read throws. -/
theorem splitMessages_cons_of_unreadable (h : Unreadable msg) :
    ∃ e, splitMessages messages systemPrompt (msg :: msgs) = .throw e := by
  cases hobj : msg.isObject with
  | false =>
    obtain ⟨e, he⟩ := @exists_value_throw_of_not_isObject _ getString msg "role" (utf8 "user") hobj
    exact ⟨e, by rw [splitMessages, he]; rfl⟩
  | true =>
    by_cases hrole : Unconvertible getString (msg.member "role")
    · obtain ⟨e, he⟩ := @exists_value_throw _ getString msg "role" (utf8 "user") hobj hrole
      exact ⟨e, by rw [splitMessages, he]; rfl⟩
    · obtain ⟨hsystem, hcontent⟩ := (h.resolve_left (by simp [hobj])).resolve_left hrole
      obtain ⟨e, he⟩ := @exists_value_throw _ getString msg "content" [] hobj hcontent
      refine ⟨e, ?_⟩
      rw [splitMessages_cons messages systemPrompt msgs hobj hrole, if_pos hsystem, he]
      rfl

/-- A system message's content extends the prompt. -/
theorem splitMessages_cons_of_system (h : ¬ Unreadable msg) (hsystem : IsSystem msg) :
    splitMessages messages systemPrompt (msg :: msgs)
      = splitMessages messages (extend systemPrompt (contentOf msg)) msgs := by
  simp only [Unreadable, not_or, not_and, Bool.not_eq_false] at h
  obtain ⟨hobj, hrole, hcontent⟩ := h
  rw [splitMessages_cons messages systemPrompt msgs hobj hrole, if_pos hsystem,
    value_getString hobj (hcontent hsystem)]
  rfl

/-- Any other message is kept as it stands. -/
theorem splitMessages_cons_of_not_system (h : ¬ Unreadable msg) (hsystem : ¬ IsSystem msg) :
    splitMessages messages systemPrompt (msg :: msgs)
      = splitMessages (messages ++ [msg]) systemPrompt msgs := by
  simp only [Unreadable, not_or, Bool.not_eq_false] at h
  rw [splitMessages_cons messages systemPrompt msgs h.1 h.2.1, if_neg hsystem]

/-! ### All messages -/

variable {msgs}

/-- One unreadable message among them is enough to throw. -/
theorem exists_splitMessages_throw (h : ∃ msg ∈ msgs, Unreadable msg) :
    ∃ e, splitMessages messages systemPrompt msgs = .throw e := by
  induction msgs generalizing messages systemPrompt with
  | nil => simp at h
  | cons msg msgs ih =>
    by_cases hmsg : Unreadable msg
    · exact splitMessages_cons_of_unreadable messages systemPrompt msgs hmsg
    · have hrest : ∃ m ∈ msgs, Unreadable m := by simpa [hmsg] using h
      by_cases hsystem : IsSystem msg
      · rw [splitMessages_cons_of_system messages systemPrompt msgs hmsg hsystem]
        exact ih _ _ hrest
      · rw [splitMessages_cons_of_not_system messages systemPrompt msgs hmsg hsystem]
        exact ih _ _ hrest

/-- Readable messages are split, in order, with none lost. -/
theorem splitMessages_of_readable (h : ∀ msg ∈ msgs, ¬ Unreadable msg) :
    splitMessages messages systemPrompt msgs
      = .ok (messages ++ msgs.filter (¬ IsSystem ·),
        ((msgs.filter (IsSystem ·)).map contentOf).foldl extend systemPrompt) := by
  induction msgs generalizing messages systemPrompt with
  | nil => simp [splitMessages]
  | cons msg msgs ih =>
    obtain ⟨hmsg, hmsgs⟩ := List.forall_mem_cons.mp h
    by_cases hsystem : IsSystem msg
    · rw [splitMessages_cons_of_system messages systemPrompt msgs hmsg hsystem, ih _ _ hmsgs]
      simp [hsystem]
    · rw [splitMessages_cons_of_not_system messages systemPrompt msgs hmsg hsystem, ih _ _ hmsgs]
      simp [hsystem]

end Split

/-! ### The prompt -/

/-- A prompt that is not empty is continued by a separator and the next content. -/
theorem foldl_extend_of_ne_nil (contents : List Bytes) {systemPrompt : Bytes}
    (h : systemPrompt ≠ []) :
    contents.foldl extend systemPrompt = (utf8 "\n").intercalate (systemPrompt :: contents) := by
  induction contents generalizing systemPrompt with
  | nil => simp
  | cons content contents ih =>
    have hextend : extend systemPrompt content = systemPrompt ++ (utf8 "\n" ++ content) := by
      rw [extend, if_pos h, List.append_assoc]
    rw [List.foldl_cons, ih (by simp [hextend, h]), List.intercalate_cons_cons, hextend]
    cases contents with
    | nil => simp
    | cons c cs => simp [List.intercalate_cons_cons]

/-- An empty one is replaced, so leading empty contents leave no trace. -/
theorem foldl_extend_nil (contents : List Bytes) :
    contents.foldl extend [] = (utf8 "\n").intercalate (contents.dropWhile (· = [])) := by
  induction contents with
  | nil => rfl
  | cons content contents ih =>
    have hextend : extend [] content = content := rfl
    rw [List.foldl_cons, hextend]
    by_cases hcontent : content = []
    · subst hcontent
      rw [ih, List.dropWhile_cons_of_pos (by simp)]
    · rw [foldl_extend_of_ne_nil contents hcontent, List.dropWhile_cons_of_neg (by simpa)]

/-- The contents of the system messages, joined by newlines, without the leading empty ones. -/
def systemPromptOf (msgs : List Json) : Bytes :=
  (utf8 "\n").intercalate (((msgs.filter (IsSystem ·)).map contentOf).dropWhile (· = []))

/-! ### The body -/

/-- What the adapter refuses of a request with these messages. -/
def Refused (request : Json) (msgs : List Json) : Prop :=
  Unconvertible getString (request.member "model") ∨
    Unconvertible (getInt 32) (request.member "max_tokens") ∨
    Unconvertible getDouble (request.member "temperature") ∨ ∃ msg ∈ msgs, Unreadable msg

/-- The body holds every message but the system ones, and the contents of these in a member of their
own. -/
structure Moved (msgs : List Json) (body : Json) : Prop where
  messages : body.member "messages" = some (.array (msgs.filter (¬ IsSystem ·)))
  system : body.member "system"
    = if systemPromptOf msgs = [] then none else some (.string (systemPromptOf msgs))

/-- System prompts are moved and nothing else is lost: what is refused is thrown, and every other
request leads to a body with the messages of the request. -/
def MovesSystemPrompts (a : Anthropic) (request : Json) (msgs : List Json) (stream : Bool) :
    Prop :=
  ((∃ e, a.buildRequestBody request stream = .throw e) ↔ Refused request msgs) ∧
    (¬ Refused request msgs →
      ∃ body, a.buildRequestBody request stream = .ok body ∧ Moved msgs body)

/-- The number of tokens is a fraction that is cut off to a number beyond `int`. -/
def TokensOverflow (request : Json) : Prop :=
  ∃ x, request.member "max_tokens" = some (.floating x) ∧
    ¬ (-2 ^ 31 ≤ x.num.tdiv x.den ∧ x.num.tdiv x.den < 2 ^ 31)

variable {a : Anthropic} {request : Json} {msgs : List Json} {stream : Bool}

/-- Where there is an array of messages, it is what is split. -/
theorem splitRequest_of_messages (hmsgs : request.member "messages" = some (.array msgs)) :
    splitRequest request = splitMessages [] [] msgs := by
  rw [splitRequest, contains_eq_isSome_member, hmsgs, if_pos (by simp), indexConst_of_member hmsgs]
  rfl

/-- The last two members of a body are the messages and the system prompt, and the others stay. -/
theorem exists_finishBody_eq (fs : List (Bytes × Json)) (split : List Json × Bytes) :
    ∃ body, finishBody (.object fs) split = .ok body ∧
      body.member "messages" = some (.array split.1) ∧
      body.member "system" = (if split.2 = [] then (Json.object fs).member "system"
        else some (.string split.2)) ∧
      ∀ key, utf8 key ≠ utf8 "messages" → utf8 key ≠ utf8 "system" →
        body.member key = (Json.object fs).member key := by
  unfold finishBody
  by_cases hprompt : split.2 = []
  · refine ⟨.object (insertField (utf8 "messages") (.array split.1) fs), ?_, ?_, ?_, ?_⟩
    · simp [hprompt, Json.set]
    · simp [member, lookup_insertField]
    · simp [member, lookup_insertField, utf8_inj, hprompt]
    · intro key h₁ h₂
      simp [member, lookup_insertField, h₁]
  · refine ⟨.object (insertField (utf8 "system") (.string split.2)
      (insertField (utf8 "messages") (.array split.1) fs)), ?_, ?_, ?_, ?_⟩
    · simp [hprompt, Json.set]
    · simp [member, lookup_insertField, utf8_inj]
    · simp [member, lookup_insertField, hprompt]
    · intro key h₁ h₂
      simp [member, lookup_insertField, h₁, h₂]

/-- A body is built of what has been read. -/
theorem exists_buildRequestBody_eq {model : Bytes} {maxTokens : ℤ} {temperature : ℚ}
    {split : List Json × Bytes}
    (hmodel : request.value "model" getString a.defaultModel = .ok model)
    (htokens : request.value "max_tokens" (getInt 32) 2048 = .ok maxTokens)
    (htemperature : request.value "temperature" getDouble defaultTemperature = .ok temperature)
    (hsplit : splitRequest request = .ok split) :
    ∃ body, a.buildRequestBody request stream = .ok body ∧
      body.member "messages" = some (.array split.1) ∧
      body.member "system" = (if split.2 = [] then none else some (.string split.2)) ∧
      body.member "max_tokens" = some (.integer maxTokens) := by
  obtain ⟨body, hbody, hmessages, hsystem, hother⟩ := exists_finishBody_eq
    (insertField (utf8 "stream") (.boolean stream) (insertField (utf8 "temperature")
      (.floating temperature) (insertField (utf8 "max_tokens") (.integer maxTokens)
        [(utf8 "model", .string model)]))) split
  refine ⟨body, ?_, hmessages, ?_, ?_⟩
  · rw [buildRequestBody_eq]
    simp only [hmodel, htokens, htemperature, hsplit, Json.set, Outcome.ok_bind, hbody]
  · rw [hsystem]
    simp [member, lookup_insertField, lookup_cons_eq, utf8_inj]
  · rw [hother "max_tokens" (by simp [utf8_inj]) (by simp [utf8_inj])]
    simp [member, lookup_insertField, utf8_inj]

/-- Whatever body is built, it has the number of tokens that was read. -/
theorem member_max_tokens {maxTokens : ℤ} {body : Json}
    (htokens : request.value "max_tokens" (getInt 32) 2048 = .ok maxTokens)
    (hbody : a.buildRequestBody request stream = .ok body) :
    body.member "max_tokens" = some (.integer maxTokens) := by
  have hbuild := hbody
  rw [buildRequestBody_eq] at hbuild
  obtain ⟨model, hmodel, hbuild⟩ := Outcome.bind_eq_ok_iff.mp hbuild
  obtain ⟨body₁, -, hbuild⟩ := Outcome.bind_eq_ok_iff.mp hbuild
  obtain ⟨_, -, hbuild⟩ := Outcome.bind_eq_ok_iff.mp hbuild
  obtain ⟨body₂, -, hbuild⟩ := Outcome.bind_eq_ok_iff.mp hbuild
  obtain ⟨temperature, htemperature, hbuild⟩ := Outcome.bind_eq_ok_iff.mp hbuild
  obtain ⟨body₃, -, hbuild⟩ := Outcome.bind_eq_ok_iff.mp hbuild
  obtain ⟨body₄, -, hbuild⟩ := Outcome.bind_eq_ok_iff.mp hbuild
  obtain ⟨split, hsplit, -⟩ := Outcome.bind_eq_ok_iff.mp hbuild
  obtain ⟨body', hbody', -, -, hmember⟩ :=
    @exists_buildRequestBody_eq a request stream _ _ _ _ hmodel htokens htemperature hsplit
  rw [hbody] at hbody'
  cases hbody'
  exact hmember

/-- A model that is no string throws. -/
theorem exists_buildRequestBody_throw_of_model (hobj : request.isObject = true)
    (h : Unconvertible getString (request.member "model")) :
    ∃ e, a.buildRequestBody request stream = .throw e := by
  obtain ⟨e, he⟩ := @exists_value_throw _ getString request "model" a.defaultModel hobj h
  exact ⟨e, by rw [buildRequestBody_eq, he]; rfl⟩

/-- A number of tokens out of range is read before anything else can be refused but the model. -/
theorem buildRequestBody_of_tokensOverflow (hobj : request.isObject = true)
    (hmodel : ¬ Unconvertible getString (request.member "model")) (h : TokensOverflow request) :
    a.buildRequestBody request stream = .ub := by
  obtain ⟨x, hx, hrange⟩ := h
  have hub : request.value "max_tokens" (getInt 32) 2048 = .ub :=
    (value_of_member hx _ _).trans (getInt_eq_ub_iff.mpr ⟨x, rfl, hrange⟩)
  rw [buildRequestBody_eq, value_getString hobj hmodel]
  simp only [Json.set, Outcome.ok_bind, hub, Outcome.ub_bind]

/-- Everything else that is refused is thrown, once the number of tokens can be read. -/
theorem exists_buildRequestBody_throw (hobj : request.isObject = true)
    (hmsgs : request.member "messages" = some (.array msgs)) (hover : ¬ TokensOverflow request)
    (h : Refused request msgs) : ∃ e, a.buildRequestBody request stream = .throw e := by
  by_cases hmodel : Unconvertible getString (request.member "model")
  · exact exists_buildRequestBody_throw_of_model hobj hmodel
  rw [buildRequestBody_eq, value_getString hobj hmodel]
  simp only [Json.set, Outcome.ok_bind]
  by_cases htokens : Unconvertible (getInt 32) (request.member "max_tokens")
  · obtain ⟨e, he⟩ := @exists_value_throw _ _ _ _ (2048 : ℤ) hobj htokens
    exact ⟨e, by rw [he]; rfl⟩
  obtain ⟨n, hn⟩ := @exists_value_ok _ _ _ _ (2048 : ℤ) hobj htokens fun v hv hub => by
    obtain ⟨x, rfl, hx⟩ := getInt_eq_ub_iff.mp hub
    exact hover ⟨x, hv, hx⟩
  rw [hn, Outcome.ok_bind]
  by_cases htemperature : Unconvertible getDouble (request.member "temperature")
  · obtain ⟨e, he⟩ := @exists_value_throw _ _ _ _ defaultTemperature hobj htemperature
    exact ⟨e, by rw [he]; rfl⟩
  obtain ⟨t, ht⟩ := @exists_value_ok _ _ _ _ defaultTemperature hobj htemperature
    fun v _ => getDouble_ne_ub v
  rw [ht, Outcome.ok_bind, splitRequest_of_messages hmsgs]
  obtain ⟨e, he⟩ := exists_splitMessages_throw [] []
    (((h.resolve_left hmodel).resolve_left htokens).resolve_left htemperature)
  exact ⟨e, by rw [he]; rfl⟩

/-- What is not refused is read, unless the number of tokens is out of range. -/
theorem exists_buildRequestBody_moved (hobj : request.isObject = true)
    (hmsgs : request.member "messages" = some (.array msgs)) (hover : ¬ TokensOverflow request)
    (h : ¬ Refused request msgs) :
    ∃ body, a.buildRequestBody request stream = .ok body ∧ Moved msgs body := by
  simp only [Refused, not_or, not_exists, not_and] at h
  obtain ⟨hmodel, htokens, htemperature, hreadable⟩ := h
  obtain ⟨n, hn⟩ := @exists_value_ok _ _ _ _ (2048 : ℤ) hobj htokens fun v hv hub => by
    obtain ⟨x, rfl, hx⟩ := getInt_eq_ub_iff.mp hub
    exact hover ⟨x, hv, hx⟩
  obtain ⟨t, ht⟩ := @exists_value_ok _ _ _ _ defaultTemperature hobj htemperature
    fun v _ => getDouble_ne_ub v
  obtain ⟨body, hbody, hmessages, hsystem, -⟩ := exists_buildRequestBody_eq
    (value_getString hobj hmodel a.defaultModel) hn ht
    ((splitRequest_of_messages hmsgs).trans (splitMessages_of_readable [] [] hreadable))
  refine ⟨body, hbody, hmessages, ?_⟩
  rw [hsystem, foldl_extend_nil]
  rfl

/-- **System prompts are moved, and nothing else is lost,** exactly where the number of tokens is
not a fraction beyond `int`, or the model is refused before it is read. -/
theorem movesSystemPrompts_iff (a : Anthropic) {request : Json} {msgs : List Json}
    (hmsgs : request.member "messages" = some (.array msgs)) (stream : Bool) :
    MovesSystemPrompts a request msgs stream ↔
      Unconvertible getString (request.member "model") ∨ ¬ TokensOverflow request := by
  have hobj : request.isObject = true := by
    cases request with
    | object fs => rfl
    | _ => cases hmsgs
  by_cases hmodel : Unconvertible getString (request.member "model")
  · have hrefused : Refused request msgs := .inl hmodel
    refine iff_of_true ⟨iff_of_true ?_ hrefused, fun h => absurd hrefused h⟩ (.inl hmodel)
    exact exists_buildRequestBody_throw_of_model hobj hmodel
  by_cases hover : TokensOverflow request
  · refine iff_of_false ?_ (by simp [hmodel, hover])
    -- neither an exception nor a body
    rintro ⟨hthrow, hok⟩
    rw [buildRequestBody_of_tokensOverflow hobj hmodel hover] at hthrow hok
    obtain ⟨body, hbody, -⟩ := hok fun hrefused => by simpa using hthrow.mpr hrefused
    cases hbody
  · refine iff_of_true ⟨⟨?_, ?_⟩, ?_⟩ (.inr hover)
    · rintro ⟨e, he⟩
      by_contra hrefused
      obtain ⟨body, hbody, -⟩ := exists_buildRequestBody_moved hobj hmsgs hover hrefused
      rw [he] at hbody
      cases hbody
    · exact exists_buildRequestBody_throw hobj hmsgs hover
    · exact exists_buildRequestBody_moved hobj hmsgs hover

/-- The equivalence at three system messages, two of them empty. -/
theorem movesSystemPrompts_iff_three_prompts :
    let message (role content : String) : Json :=
      .obj [("role", .lit role), ("content", .lit content)]
    let msgs := [message "system" "", message "system" "a", .obj [("content", .lit "hi")],
      message "system" ""]
    let request : Json := .obj [("messages", .array msgs)]
    MovesSystemPrompts { apiKey := utf8 "sk-ant" } request msgs false ↔
      Unconvertible getString (request.member "model") ∨ ¬ TokensOverflow request := by
  intro message msgs request
  exact movesSystemPrompts_iff _ rfl false

/-- Ten thousand million tokens, written with an exponent. -/
theorem not_movesSystemPrompts_1e10 :
    ¬ MovesSystemPrompts { apiKey := utf8 "sk-ant" }
      (.obj [("messages", .array []), ("max_tokens", .floating 10000000000)]) [] false := by
  rintro ⟨hthrow, hok⟩
  have hub : Anthropic.buildRequestBody { apiKey := utf8 "sk-ant" }
      (.obj [("messages", .array []), ("max_tokens", .floating 10000000000)]) false = .ub :=
    buildRequestBody_of_tokensOverflow rfl
      (by simp [Unconvertible, member, obj, lookup_insertField, utf8_inj]) ⟨_, rfl, by decide⟩
  rw [hub] at hthrow hok
  obtain ⟨body, hbody, -⟩ := hok fun hrefused => by simpa using hthrow.mpr hrefused
  cases hbody

end Anthropic

/-! ## Requests handed on -/

namespace OpenaiCompatible

variable {a : OpenaiCompatible} {request messages : Json} {stream : Bool}

/-- The body of a request with messages is determined by the two conversions. -/
theorem buildRequestBody_eq (hobj : request.isObject = true)
    (hmodel : ¬ Unconvertible getString (request.member "model"))
    (hmessages : request.member "messages" = some messages) :
    a.buildRequestBody request stream = (do
      let temperature ← request.value "temperature" getDouble defaultTemperature
      let maxTokens ← request.value "max_tokens" (getInt 32) 2048
      return .object (insertField (utf8 "stream") (.boolean stream)
        (insertField (utf8 "max_tokens") (.integer maxTokens)
          (insertField (utf8 "temperature") (.floating temperature)
            (insertField (utf8 "messages") messages
              [(utf8 "model", .string
                (textOr (request.member "model") (utf8 a.defaultModel)))]))))) := by
  rw [buildRequestBody, value_getString hobj hmodel, indexConst_of_member hmessages]
  rfl

/-- Without messages the `const` lookup has no behaviour, before anything but the model is read. -/
theorem buildRequestBody_of_no_messages (hobj : request.isObject = true)
    (hmodel : ¬ Unconvertible getString (request.member "model"))
    (hmessages : request.member "messages" = none) :
    a.buildRequestBody request stream = .ub := by
  rw [buildRequestBody, value_getString hobj hmodel]
  cases request with
  | object fs =>
    have hlookup : fs.lookup (utf8 "messages") = none := hmessages
    simp [Json.set, indexConst, hlookup]
  | _ => cases hobj

/-- The body holds the messages of the request, and otherwise its values or the defaults. A
temperature is compared as a double. -/
structure HandedOn (a : OpenaiCompatible) (request : Json) (stream : Bool) (body : Json) :
    Prop where
  messages : body.member "messages" = request.member "messages"
  model : body.member "model"
    = some ((request.member "model").getD (.string (utf8 a.defaultModel)))
  temperature : ∃ t, body.member "temperature" = some (.floating t) ∧
    (request.member "temperature").elim (t = defaultTemperature) fun v => v.getDouble = .ok t
  maxTokens : ∃ n, body.member "max_tokens" = some (.integer n) ∧
    NumberIs (request.member "max_tokens") 2048 n
  stream : body.member "stream" = some (.boolean stream)

/-- The number of tokens is refused, or it is a number within `int`. -/
def TokensKept (request : Json) : Prop :=
  Unconvertible (getInt 32) (request.member "max_tokens") ∨
    NumberFits (request.member "max_tokens") (-2 ^ 31) (2 ^ 31)

/-- What is thrown is the error of a value of another type. -/
theorem typeError_of_buildRequestBody (hobj : request.isObject = true)
    (hmodel : ¬ Unconvertible getString (request.member "model"))
    (hmessages : request.member "messages" = some messages) {e : Exn}
    (h : a.buildRequestBody request stream = .throw e) :
    ∃ what : String, e = .typeError (utf8 what) := by
  rw [buildRequestBody_eq hobj hmodel hmessages, Outcome.bind_eq_throw_iff] at h
  rcases h with ht | ⟨t, -, h⟩
  · exact refusesByType_getDouble.value ht
  rw [Outcome.bind_eq_throw_iff] at h
  rcases h with hn | ⟨n, -, h⟩
  · exact (refusesByType_getInt 32).value hn
  · cases h

/-- The body cannot be built exactly when one of the two conversions throws. -/
theorem exists_buildRequestBody_throw_iff (hobj : request.isObject = true)
    (hmodel : ¬ Unconvertible getString (request.member "model"))
    (hmessages : request.member "messages" = some messages) :
    (∃ e, a.buildRequestBody request stream = .throw e) ↔
      Unconvertible getDouble (request.member "temperature") ∨
        Unconvertible (getInt 32) (request.member "max_tokens") := by
  constructor
  · rintro ⟨e, he⟩
    rw [buildRequestBody_eq hobj hmodel hmessages, Outcome.bind_eq_throw_iff] at he
    rcases he with ht | ⟨t, -, he⟩
    · exact .inl (unconvertible_of_value_throw hobj ht)
    rw [Outcome.bind_eq_throw_iff] at he
    rcases he with hn | ⟨n, -, he⟩
    · exact .inr (unconvertible_of_value_throw hobj hn)
    · cases he
  · intro hrefused
    rw [buildRequestBody_eq hobj hmodel hmessages]
    by_cases htemperature : Unconvertible getDouble (request.member "temperature")
    · obtain ⟨e, he⟩ := @exists_value_throw _ _ _ _ defaultTemperature hobj htemperature
      exact ⟨e, by rw [he, Outcome.throw_bind]⟩
    · obtain ⟨t, ht⟩ := @exists_value_ok _ _ _ _ defaultTemperature hobj htemperature
        fun v _ => getDouble_ne_ub v
      obtain ⟨e, he⟩ := @exists_value_throw _ _ _ _ (2048 : ℤ) hobj
        (hrefused.resolve_left htemperature)
      exact ⟨e, by rw [ht, Outcome.ok_bind, he, Outcome.throw_bind]⟩

/-- A body that is built has the messages, the two numbers and the option as members. -/
theorem exists_members_eq (a : OpenaiCompatible) (stream : Bool) (hobj : request.isObject = true)
    (hmodel : ¬ Unconvertible getString (request.member "model"))
    (hmessages : request.member "messages" = some messages) {t : ℚ} {n : ℤ}
    (ht : request.value "temperature" getDouble defaultTemperature = .ok t)
    (hn : request.value "max_tokens" (getInt 32) 2048 = .ok n) :
    ∃ body, a.buildRequestBody request stream = .ok body ∧
      body.member "messages" = some messages ∧
      body.member "model" = some (.string (textOr (request.member "model") (utf8 a.defaultModel))) ∧
      body.member "temperature" = some (.floating t) ∧
      body.member "max_tokens" = some (.integer n) ∧
      body.member "stream" = some (.boolean stream) := by
  rw [buildRequestBody_eq hobj hmodel hmessages, ht, Outcome.ok_bind, hn, Outcome.ok_bind]
  refine ⟨_, rfl, ?_⟩
  simp [member, lookup_insertField, utf8_inj]

/-- Whatever body is built, it has the number of tokens that was read. -/
theorem member_max_tokens {maxTokens : ℤ} {body : Json}
    (htokens : request.value "max_tokens" (getInt 32) 2048 = .ok maxTokens)
    (hbody : a.buildRequestBody request stream = .ok body) :
    body.member "max_tokens" = some (.integer maxTokens) := by
  have hobj := (readable_of_value_ok htokens).1
  have hmodel : ¬ Unconvertible getString (request.member "model") := by
    rw [buildRequestBody] at hbody
    obtain ⟨model, hvalue, -⟩ := Outcome.bind_eq_ok_iff.mp hbody
    exact (readable_of_value_ok hvalue).2
  obtain ⟨messages, hmessages⟩ : ∃ messages, request.member "messages" = some messages := by
    rw [← Option.ne_none_iff_exists']
    intro hmessages
    rw [buildRequestBody_of_no_messages hobj hmodel hmessages] at hbody
    cases hbody
  have hbuild := hbody
  rw [buildRequestBody_eq hobj hmodel hmessages] at hbuild
  obtain ⟨t, ht, -⟩ := Outcome.bind_eq_ok_iff.mp hbuild
  obtain ⟨body', hbody', -, -, -, hmember, -⟩ :=
    exists_members_eq a stream hobj hmodel hmessages ht htokens
  rw [hbody] at hbody'
  cases hbody'
  exact hmember

/-- A model that converts is the string that is read. -/
theorem string_textOr_of_not_unconvertible {v : Option Json} (h : ¬ Unconvertible getString v)
    (default : Bytes) : Json.string (textOr v default) = v.getD (.string default) := by
  cases v with
  | none => rfl
  | some j =>
    cases j with
    | string s => rfl
    | _ => exact absurd ⟨_, _, rfl, rfl⟩ h

/-- A request is handed on exactly if its numbers convert and the number of tokens is one of `int`:
the number in the body is, so the one that it is equal to was. -/
theorem exists_handedOn_iff (hobj : request.isObject = true)
    (hmodel : ¬ Unconvertible getString (request.member "model"))
    (hmessages : request.member "messages" = some messages) :
    (∃ body, a.buildRequestBody request stream = .ok body ∧ HandedOn a request stream body) ↔
      ¬ Unconvertible getDouble (request.member "temperature") ∧
        NumberFits (request.member "max_tokens") (-2 ^ 31) (2 ^ 31) := by
  constructor
  · rintro ⟨body, hbody, hhanded⟩
    have hbuild := hbody
    rw [buildRequestBody_eq hobj hmodel hmessages] at hbuild
    obtain ⟨t, ht, hbuild⟩ := Outcome.bind_eq_ok_iff.mp hbuild
    obtain ⟨n, hn, -⟩ := Outcome.bind_eq_ok_iff.mp hbuild
    obtain ⟨k, hk, hnumber⟩ := hhanded.maxTokens
    rw [member_max_tokens hn hbody] at hk
    cases hk
    refine ⟨(readable_of_value_ok ht).2, hnumber.numberFits ?_⟩
    exact (convertsTo_getInt (show 2 ≤ 32 by omega)).value_range (by decide) hn
  · rintro ⟨htemperature, hfits⟩
    obtain ⟨t, ht⟩ := @exists_value_ok _ _ _ _ defaultTemperature hobj htemperature
      fun v _ => getDouble_ne_ub v
    obtain ⟨n, hn, hnumber⟩ :=
      (convertsTo_getInt (show 2 ≤ 32 by omega)).exists_value hobj hfits 2048
    obtain ⟨body, hbody, h₁, h₂, h₃, h₄, h₅⟩ :=
      exists_members_eq a stream hobj hmodel hmessages ht hn
    refine ⟨body, hbody, ?_, ?_, ⟨t, h₃, elim_of_value_ok ht⟩, ⟨n, h₄, hnumber⟩, h₅⟩
    · rw [h₁, hmessages]
    · rw [h₂, string_textOr_of_not_unconvertible hmodel]

/-- Where the temperature converts, a request is handed on exactly if the number of tokens is. -/
theorem refused_or_handedOn_iff (hobj : request.isObject = true)
    (hmodel : ¬ Unconvertible getString (request.member "model"))
    (hmessages : request.member "messages" = some messages) :
    ((∃ e, a.buildRequestBody request stream = .throw e) ∨
        ∃ body, a.buildRequestBody request stream = .ok body ∧ HandedOn a request stream body) ↔
      Unconvertible getDouble (request.member "temperature") ∨ TokensKept request := by
  rw [exists_buildRequestBody_throw_iff hobj hmodel hmessages,
    exists_handedOn_iff hobj hmodel hmessages, TokensKept]
  tauto

end OpenaiCompatible

end AiSwitch
