import AiSwitch.Server.Session

/-!
# Which requests are answered

`handle_request` runs on an event loop that has no handler for exceptions, so a request must not
only be answered once but must not leave it in any other way. `answeredOnce_iff` gives the exact
condition on the request and the state, `Answerable`: the key fits its buffer, the refill does not
overflow, and then, unless the streaming branch takes the request, the route can be answered. The
conditions of the routes (`RouteAnswers`) are those under which no document is read against its
type, nothing is serialised that is not text, and the database is reached with a connection.
-/

namespace AiSwitch

open ByteString Effect Nlohmann Http Mysql Middleware

/-- The start of a response. -/
def Event.IsResponse : Event → Prop
  | doWrite _ | startStream _ _ => True
  | findApiKey _ _ | createApiKey _ _ | listApiKeys | disableApiKey _ | handler _
  | chatCompletion _ _ | chatCompletionStream _ _ => False

instance : DecidablePred Event.IsResponse
  | .doWrite _ | .startStream _ _ => isTrue trivial
  | .findApiKey _ _ | .createApiKey _ _ | .listApiKeys | .disableApiKey _ | .handler _
  | .chatCompletion _ _ | .chatCompletionStream _ _ => isFalse id

/-- `handle_request` returns normally and has started exactly one response. -/
def AnsweredOnce {gw : Gateway} (r : Outcome Exn (Option (Fin gw.adapters.length × Json)) × World) :
    Prop :=
  (∃ started, r.1 = .ok started) ∧ r.2.trace.countP (·.IsResponse) = 1

instance {gw : Gateway} (r : Outcome Exn (Option (Fin gw.adapters.length × Json)) × World) :
    Decidable (AnsweredOnce r) := inferInstanceAs (Decidable (_ ∧ _))

/-! ## The conditions -/

/-- The outcome of an adapter can be reported, an exception by its text up to the first zero. A
document that is not text is itself reported as an error. -/
def AdapterAnswers : Outcome Exn Json → Prop
  | .ok _ => True
  | .throw e => ValidUtf8 (cstr e.what)
  | .ub => False

/-- `POST /api/chat` -/
def ChatAnswers (gw : Gateway) (req : Request) : Prop :=
  match gw.lib.tryParse req.body with
  | .error (.parseError what) => ValidUtf8 (cstr what)
  | .error (.outOfRange _) => False
  | .ok body => gw.adapters = [] ∨
      ∃ model, body.value "model" Json.getString (utf8 "deepseek-v4-flash") = .ok model ∧
        ∀ ai, gw.adapters.create model = some ai →
          AdapterAnswers ((gw.adapters.get ai).chatCompletion body)

/-- `POST /admin/api-keys` with the master key. -/
def CreateKeyAnswers (gw : Gateway) (db : Db) (req : Request) : Prop :=
  ∀ body, gw.lib.tryParse req.body = .ok body →
    ∃ name rateLimit, body.value "name" Json.getString [] = .ok name ∧
      body.value "rate_limit" (Json.getInt 32) 60 = .ok rateLimit ∧
      (name = [] ∨ db.connection ≠ none ∧ gw.backend.Fits name)

/-- `GET /admin/api-keys` with the master key. -/
def ListKeysAnswers (gw : Gateway) (db : Db) : Prop :=
  db.connection ≠ none ∧
    (gw.backend.Answers db.calls ∧ gw.backend.Answers (db.calls + 1) →
      ∀ row ∈ db.table, ValidUtf8 (cstr row.apiKey) ∧ ValidUtf8 (cstr row.name))

/-- `DELETE /admin/api-keys` with the master key. -/
def DisableKeyAnswers (gw : Gateway) (db : Db) (req : Request) : Prop :=
  ∀ body, gw.lib.tryParse req.body = .ok body →
    ∃ id, body.value "id" (Json.getInt 64) 0 = .ok id ∧ (id ≤ 0 ∨ db.connection ≠ none)

/-- The router can answer the request. -/
def RouteAnswers (gw : Gateway) (db : Db) (req : Request) : Prop :=
  match routeOf req.method req.target with
  | none => ValidUtf8 req.target
  | some .health => True
  | some .chat => ChatAnswers gw req
  | some .createKey => gw.verifyAdmin req.toRequestHeader = true → CreateKeyAnswers gw db req
  | some .listKeys => gw.verifyAdmin req.toRequestHeader = true → ListKeysAnswers gw db
  | some .disableKey => gw.verifyAdmin req.toRequestHeader = true → DisableKeyAnswers gw db req

/-- The request can be answered. -/
def Answerable (gw : Gateway) (w : World) (bucket : TokenBucket) (req : Request) : Prop :=
  ChainDefined gw w bucket req.toRequestHeader ∧
    (Admitted gw w bucket req.toRequestHeader →
      (∃ body model, gw.Streams req body model) ∨ RouteAnswers gw w.db req)

/-! ## When a handler returns -/

namespace Gateway

variable (gw : Gateway) (w : World)

/-- What is recorded does not decide whether anything returns. -/
@[simp] theorem returns_emit_bind {α : Type} (e : Event) (f : Unit → Act α) :
    (emit e >>= f).Returns w ↔ (f ()).Returns { w with trace := w.trace ++ [e] } := Iff.rfl

/-- An error can be reported if its message is text. -/
theorem returns_errorResponse (status : Status) (code : String) (message : Bytes)
    (req : RequestHeader) :
    (gw.errorResponse status code message req).Returns w ↔ ValidUtf8 message := by
  by_cases h : ValidUtf8 message
  · exact iff_of_true ⟨_, _, gw.errorResponse_of_validUtf8 h status code req w⟩ h
  · refine iff_of_false ?_ h
    obtain ⟨e, he⟩ := gw.errorResponse_of_not_validUtf8 h status code req w
    rintro ⟨res, w', hres⟩
    rw [he] at hres
    cases hres

/-- A literal can always be reported. -/
theorem returns_errorResponse_utf8 (status : Status) (code message : String)
    (req : RequestHeader) : (gw.errorResponse status code (utf8 message) req).Returns w :=
  (gw.returns_errorResponse w status code _ req).mpr (validUtf8_utf8 message)

/-- An error can be reported if the part of its message that comes from elsewhere is text. -/
theorem returns_errorResponse_append (status : Status) (code message : String) (text : Bytes)
    (req : RequestHeader) :
    (gw.errorResponse status code (utf8 message ++ text) req).Returns w ↔ ValidUtf8 text :=
  (gw.returns_errorResponse w status code _ req).trans
    (validUtf8_append_iff (validUtf8_utf8 message))

/-- A document can be sent if all its texts are UTF-8. -/
theorem returns_jsonResponse (body : Json) (req : RequestHeader) :
    (gw.jsonResponse body req).Returns w ↔ body.isValid = true := by
  unfold jsonResponse
  rw [Prog.returns_lift_bind, Lib.dump]
  split_ifs with h <;> simp [h]

/-- A handler that asks for the master key returns without it. -/
theorem returns_requireAdmin (k : Act Response) (req : RequestHeader) :
    (gw.requireAdmin req k).Returns w ↔ (gw.verifyAdmin req = true → k.Returns w) := by
  unfold requireAdmin
  split_ifs with h
  · simp [h]
  · simp [h, gw.returns_errorResponse_utf8]

/-- A handler that asks for a document returns if it does so with the document that the body parses
to. -/
theorem returns_requireJson (req : Request) (message : String) (k : Json → Act Response) :
    (gw.requireJson req message k).Returns w ↔
      ∀ body, gw.lib.tryParse req.body = .ok body → (k body).Returns w := by
  unfold requireJson
  rw [Lib.parse, parseBy]
  cases gw.lib.tryParse req.body with
  | ok body => simp
  | error e => simpa using gw.returns_errorResponse_utf8 w _ _ message _

/-- A document that cannot be serialised ends in the exception of `dump`. -/
theorem jsonResponse_of_not_isValid {body : Json} (h : ¬ body.isValid = true)
    (req : RequestHeader) :
    gw.jsonResponse body req w = (.throw (.typeError (utf8 (gw.lib.invalidUtf8 body))), w) := by
  rw [jsonResponse, Lib.dump, if_neg h]
  rfl

/-- A document that cannot be serialised is reported like any other error of the adapter. -/
theorem returns_callAdapter (ai : Fin gw.adapters.length) (body : Json) (req : RequestHeader) :
    (gw.callAdapter ai body req).Returns w ↔
      AdapterAnswers ((gw.adapters.get ai).chatCompletion body) := by
  unfold callAdapter
  rw [Prog.returns_tryCatch, returns_emit_bind, Prog.returns_lift_bind, emit_bind_apply]
  show _ ↔ AdapterAnswers (gw.adapters[ai].chatCompletion body)
  cases gw.adapters[ai].chatCompletion body with
  | ok doc =>
    refine iff_of_true ?_ trivial
    rw [Prog.lift_ok_bind]
    by_cases hdoc : doc.isValid = true
    · exact .inl ⟨doc, rfl, (gw.returns_jsonResponse _ doc req).mpr hdoc⟩
    · -- `dump` throws inside the `try` block, with a text that can be reported
      refine .inr ⟨_, _, gw.jsonResponse_of_not_isValid _ hdoc req, ?_⟩
      exact (gw.returns_errorResponse_append _ _ _ _ _ req).mpr (validUtf8_utf8 _).cstr
  | throw e =>
    constructor
    · rintro (⟨doc, hdoc, -⟩ | ⟨e', w', he, h⟩)
      · cases hdoc
      · cases he
        exact (gw.returns_errorResponse_append _ _ _ _ _ req).mp h
    · intro he
      exact .inr ⟨e, _, rfl, (gw.returns_errorResponse_append _ _ _ _ _ req).mpr he⟩
  | ub =>
    refine iff_of_false ?_ id
    rintro (⟨doc, hdoc, -⟩ | ⟨e', w', he, h⟩)
    · cases hdoc
    · cases he

/-! ### Chat -/

variable {req : Request}

/-- A chat request is answered unless its model or the adapter's outcome stands against it. -/
theorem returns_chatWith {body : Json} (hparse : gw.lib.tryParse req.body = .ok body) :
    (gw.chatWith body req.toRequestHeader).Returns w ↔ gw.adapters = [] ∨
      ∃ model, body.value "model" Json.getString (utf8 "deepseek-v4-flash") = .ok model ∧
        ∀ ai, gw.adapters.create model = some ai →
          AdapterAnswers ((gw.adapters.get ai).chatCompletion body) := by
  unfold chatWith
  by_cases hadapters : gw.adapters = []
  · rw [if_pos (by simp [hadapters, AdapterFactory.count])]
    exact iff_of_true (gw.returns_errorResponse_utf8 w _ _ _ _) (.inl hadapters)
  · rw [if_neg (by simpa [AdapterFactory.count] using hadapters), Prog.returns_lift_bind,
      or_iff_right hadapters]
    apply exists_congr
    intro model
    apply and_congr_right
    intro hmodel
    cases hcreate : gw.adapters.create model with
    | none =>
      refine iff_of_true ?_ (by simp)
      exact (gw.returns_errorResponse_append w _ _ _ model _).mpr (validUtf8_model hparse hmodel)
    | some ai => simpa using gw.returns_callAdapter w ai body req.toRequestHeader

/-- **When a chat request is answered.** -/
theorem returns_handleChat : (gw.handleChat req).Returns w ↔ ChatAnswers gw req := by
  unfold handleChat
  rw [returns_emit_bind, ChatAnswers]
  cases hparse : gw.lib.tryParse req.body with
  | ok body =>
    rw [parse_of_tryParse hparse]
    exact gw.returns_chatWith _ hparse
  | error e =>
    rw [Lib.parse, parseBy, hparse]
    cases e with
    | parseError what => exact gw.returns_errorResponse_append _ _ _ _ _ _
    | outOfRange what => simp [ParseFailure.exn]

/-! ### The management of keys -/

/-- The document of a new key can be sent if the key and its name are text. -/
theorem isValid_createdDocument (key : ApiKeyInfo) :
    (createdDocument key).isValid = true ↔ ValidUtf8 key.apiKey ∧ ValidUtf8 key.name := by
  unfold createdDocument
  rw [Json.isValid_obj_iff (by simp)]
  simp [Json.isValid]

/-- The document of a listed key can be sent if the key and its name are text. -/
theorem isValid_keyDocument (key : ApiKeyInfo) :
    (keyDocument key).isValid = true ↔ ValidUtf8 key.apiKey ∧ ValidUtf8 key.name := by
  unfold keyDocument
  rw [Json.isValid_obj_iff (by simp)]
  simp [Json.isValid]

/-- A name that is text can be reported with its key, a failed creation as an empty one. -/
theorem returns_repository_createApiKey {name : Bytes} (hname : ValidUtf8 name) (rateLimit : ℤ)
    (req : RequestHeader) :
    (gw.repository (Repository.createApiKey gw.dis name rateLimit) >>= fun key =>
        gw.jsonResponse (createdDocument key) req).Returns w
      ↔ w.db.connection ≠ none ∧ gw.backend.Fits name := by
  cases hconn : w.db.connection with
  | none =>
    obtain ⟨db, h⟩ :=
      Repository.run_createApiKey_of_none gw.backend w.db gw.dis rateLimit name hconn
    exact iff_of_false (Prog.not_returns_bind_of_ub (gw.repository_of_ub h) _) (by simp)
  | some c =>
    by_cases hfits : gw.backend.Fits name
    · obtain ⟨info, db, h, hinfo⟩ :=
        Repository.run_createApiKey_of_fits gw.backend w.db gw.dis rateLimit hconn hfits
      rw [Prog.returns_bind_of_ok (gw.repository_of_ok h), returns_jsonResponse,
        isValid_createdDocument]
      refine iff_of_true ?_ ⟨by simp, hfits⟩
      rcases hinfo with rfl | ⟨rfl, hkey⟩
      · exact ⟨validUtf8_utf8 "", validUtf8_utf8 ""⟩
      · exact ⟨hkey, hname⟩
    · obtain ⟨db, h⟩ :=
        Repository.run_createApiKey_of_not_fits gw.backend w.db gw.dis rateLimit hconn hfits
      exact iff_of_false (Prog.not_returns_bind_of_ub (gw.repository_of_ub h) _)
        fun hboth => hfits hboth.2

/-- A creation is answered where the two members can be read and the operation is defined. -/
theorem returns_createKeyWith {body : Json} (hbody : body.isValid = true) (req : RequestHeader) :
    (gw.createKeyWith body req).Returns w ↔
      ∃ name rateLimit, body.value "name" Json.getString [] = .ok name ∧
        body.value "rate_limit" (Json.getInt 32) 60 = .ok rateLimit ∧
        (name = [] ∨ w.db.connection ≠ none ∧ gw.backend.Fits name) := by
  unfold createKeyWith
  rw [Prog.returns_lift_bind]
  apply exists_congr
  intro name
  rw [Prog.returns_lift_bind, ← exists_and_left]
  apply exists_congr
  intro rateLimit
  apply and_congr_right
  intro hname
  apply and_congr_right
  intro _
  split_ifs with hempty
  · exact iff_of_true (gw.returns_errorResponse_utf8 w _ _ _ _) (.inl hempty)
  · rw [returns_emit_bind, or_iff_right hempty]
    exact gw.returns_repository_createApiKey _
      (Json.validUtf8_of_value hbody (validUtf8_utf8 "") hname) rateLimit req

/-- **When a creation is answered.** -/
theorem returns_handleCreateKey : (gw.handleCreateKey req).Returns w ↔
    (gw.verifyAdmin req.toRequestHeader = true → CreateKeyAnswers gw w.db req) := by
  unfold handleCreateKey
  rw [returns_emit_bind, returns_requireAdmin]
  apply imp_congr_right
  intro _
  rw [returns_requireJson]
  exact forall₂_congr fun body hparse =>
    gw.returns_createKeyWith _ (gw.lib.valid_of_tryParse hparse) _

/-- The list can be sent where there is a connection and what it reads is text. -/
theorem returns_repository_listApiKeys (req : RequestHeader) :
    (gw.repository Repository.listApiKeys >>= fun keys =>
      gw.jsonResponse (.array (keys.map keyDocument)) req).Returns w ↔ ListKeysAnswers gw w.db := by
  unfold ListKeysAnswers
  cases hconn : w.db.connection with
  | none =>
    obtain ⟨db, h⟩ := Repository.run_listApiKeys_of_none gw.backend w.db hconn
    exact iff_of_false (Prog.not_returns_bind_of_ub (gw.repository_of_ub h) _) (by simp)
  | some c =>
    obtain ⟨db, h⟩ := Repository.run_listApiKeys_of_some gw.backend w.db hconn
    rw [Prog.returns_bind_of_ok (gw.repository_of_ok h), returns_jsonResponse, Json.isValid_array,
      and_iff_right (by simp), List.forall_mem_map]
    constructor
    · intro hkeys hanswers row hrow
      have hmem : Repository.rowInfo row ∈ Repository.listResult gw.backend w.db :=
        (Repository.mem_listResult gw.backend w.db).mpr ⟨hanswers, row, hrow, rfl⟩
      exact (isValid_keyDocument _).mp (hkeys _ hmem)
    · intro hrows key hkey
      obtain ⟨hanswers, row, hrow, rfl⟩ := (Repository.mem_listResult gw.backend w.db).mp hkey
      exact (isValid_keyDocument _).mpr (hrows hanswers row hrow)

/-- **When the list is answered.** -/
theorem returns_handleListKeys : (gw.handleListKeys req).Returns w ↔
    (gw.verifyAdmin req.toRequestHeader = true → ListKeysAnswers gw w.db) := by
  unfold handleListKeys
  rw [returns_emit_bind, returns_requireAdmin]
  apply imp_congr_right
  intro _
  rw [returns_emit_bind]
  exact gw.returns_repository_listApiKeys _ _

/-- Disabling is defined where there is a connection. -/
theorem returns_repository_disableApiKey (id : ℤ) {f : Bool → Act Response}
    (hf : ∀ disabled w, (f disabled).Returns w) :
    (gw.repository (Repository.disableApiKey id) >>= f).Returns w ↔ w.db.connection ≠ none := by
  cases hconn : w.db.connection with
  | none =>
    obtain ⟨db, h⟩ := Repository.run_disableApiKey_of_none gw.backend w.db id hconn
    exact iff_of_false (Prog.not_returns_bind_of_ub (gw.repository_of_ub h) _) (by simp)
  | some c =>
    obtain ⟨disabled, db, h⟩ := Repository.run_disableApiKey_of_some gw.backend w.db id hconn
    rw [Prog.returns_bind_of_ok (gw.repository_of_ok h)]
    exact iff_of_true (hf _ _) (by simp)

/-- The confirmation of a disabling can always be sent. -/
theorem isValid_disabledDocument (id : ℤ) :
    (Json.obj [("status", .lit "disabled"), ("id", .integer id)]).isValid = true := by
  rw [Json.isValid_obj_iff (by simp)]
  simp [Json.isValid, Json.isValid_lit]

/-- A request to disable a key is answered where the id can be read and the operation is defined. -/
theorem returns_disableKeyWith (body : Json) (req : RequestHeader) :
    (gw.disableKeyWith body req).Returns w ↔
      ∃ id, body.value "id" (Json.getInt 64) 0 = .ok id ∧
        (id ≤ 0 ∨ w.db.connection ≠ none) := by
  unfold disableKeyWith
  rw [Prog.returns_lift_bind]
  apply exists_congr
  intro id
  apply and_congr_right
  intro _
  split_ifs with hid
  · exact iff_of_true (gw.returns_errorResponse_utf8 w _ _ _ _) (.inl hid)
  · rw [returns_emit_bind, or_iff_right hid]
    apply gw.returns_repository_disableApiKey
    intro disabled w'
    split
    · exact (gw.returns_jsonResponse _ _ _).mpr (isValid_disabledDocument id)
    · exact gw.returns_errorResponse_utf8 _ _ _ _ _

/-- **When such a request is answered.** -/
theorem returns_handleDisableKey : (gw.handleDisableKey req).Returns w ↔
    (gw.verifyAdmin req.toRequestHeader = true → DisableKeyAnswers gw w.db req) := by
  unfold handleDisableKey
  rw [returns_emit_bind, returns_requireAdmin]
  apply imp_congr_right
  intro _
  rw [returns_requireJson]
  exact forall₂_congr fun body _ => gw.returns_disableKeyWith _ body _

/-- The question for the health of the server is always answered. -/
theorem returns_handleHealth : (gw.handleHealth req).Returns w := by
  unfold handleHealth
  rw [returns_emit_bind, returns_jsonResponse, Json.isValid_obj_iff (by simp)]
  simp [Json.isValid_lit]

/-- The router returns exactly where its handler does. -/
theorem returns_dispatch :
    (gw.router.dispatch gw.lib req).Returns w ↔ RouteAnswers gw w.db req := by
  unfold RouteAnswers
  cases hr : routeOf req.method req.target with
  | none =>
    rw [gw.dispatch_of_none hr]
    exact gw.returns_errorResponse_append w _ _ _ _ _
  | some r =>
    rw [gw.dispatch_of_some hr]
    cases r with
    | health => exact iff_of_true (gw.returns_handleHealth w) trivial
    | chat => exact gw.returns_handleChat w
    | createKey => exact gw.returns_handleCreateKey w
    | listKeys => exact gw.returns_handleListKeys w
    | disableKey => exact gw.returns_handleDisableKey w

end Gateway

/-! ## How often a request is answered -/

open Gateway

section

variable {gw : Gateway} {w : World} {req : Request}

/-- The database is asked only on paths that `auth_middleware` lets pass unasked. -/
theorem routeAnswers_congr {db db' : Db} (h : Whitelisted req.target → db' = db) :
    RouteAnswers gw db' req ↔ RouteAnswers gw db req := by
  by_cases hpath : Whitelisted req.target
  · rw [h hpath]
  · unfold RouteAnswers
    cases hr : routeOf req.method req.target with
    | none => rfl
    | some r =>
      cases r with
      | chat => rfl
      | _ => exact absurd (whitelisted_of_routeOf hr (by simp)) hpath

/-- A lookup is no response. -/
theorem countP_lookups (req : RequestHeader) :
    (lookups gw w req).countP (·.IsResponse) = 0 := by
  rw [List.countP_eq_zero]
  intro e he
  obtain ⟨t, r, rfl⟩ := lookups_spec he
  rw [decide_eq_true_eq]
  exact id

/-- The lookups and one response contain one response. -/
theorem countP_lookups_append {req : RequestHeader} {e : Event} (he : e.IsResponse) :
    (lookups gw w req ++ [e]).countP (·.IsResponse) = 1 := by
  rw [List.countP_append, countP_lookups, Nat.zero_add, List.countP_singleton,
    if_pos (by simpa using he)]

/-- Handlers write no responses. -/
theorem not_isResponse_of_inHandler {r : Route} {e : Event} (he : e.InHandler r) :
    ¬ e.IsResponse := by
  cases e <;> first | exact id | exact absurd he id

/-- What the router answers is written once, or never. -/
theorem answeredOnce_route {w' : World} (htrace : w'.trace = lookups gw w req.toRequestHeader) :
    AnsweredOnce (gw.route req w') ↔ (gw.router.dispatch gw.lib req).Returns w' := by
  unfold route
  constructor
  · rintro ⟨⟨started, h⟩, -⟩
    obtain ⟨res, w'', hdispatch, -⟩ := Prog.returns_bind.mp ⟨started, _, Prod.ext h rfl⟩
    exact ⟨res, w'', hdispatch⟩
  · rintro ⟨res, w'', hdispatch⟩
    obtain ⟨events, hevents, hhandler⟩ := gw.records_dispatch req w'
    rw [hdispatch, htrace] at hevents
    rw [Prog.bind_of_ok hdispatch]
    refine ⟨⟨none, rfl⟩, ?_⟩
    -- the handler records no response, so the one that is counted is the one written after it
    have hzero : events.countP (·.IsResponse) = 0 := by
      rw [List.countP_eq_zero]
      intro e he
      obtain ⟨r, -, hin⟩ := hhandler e he
      simpa using not_isResponse_of_inHandler hin
    show (w''.trace ++ [Event.doWrite res]).countP (·.IsResponse) = 1
    rw [hevents, List.append_assoc, List.countP_append, List.countP_append, countP_lookups, hzero]
    rfl

end

/-- **Which requests are answered.** `handle_request` returns normally after starting exactly one
response on the answerable requests, and on no others. -/
theorem answeredOnce_iff (gw : Gateway) (w : World) (bucket : TokenBucket) (req : Request) :
    AnsweredOnce (gw.handleRequest req (w.inMain bucket)) ↔ Answerable gw w bucket req := by
  unfold Answerable
  by_cases hdef : ChainDefined gw w bucket req.toRequestHeader
  swap
  · obtain ⟨w', -, hreq⟩ := handleRequest_of_not_defined hdef
    rw [hreq req.body]
    refine iff_of_false ?_ fun h => hdef h.1
    rintro ⟨⟨started, h⟩, -⟩
    cases h
  rw [and_iff_right hdef]
  by_cases hadm : Admitted gw w bucket req.toRequestHeader
  swap
  · -- the chain answers
    obtain ⟨res, w', -, htrace, hreq⟩ := handleRequest_of_not_admitted hdef hadm
    rw [hreq req.body]
    refine iff_of_true ⟨⟨none, rfl⟩, ?_⟩ fun h => absurd h hadm
    show w'.trace.countP (·.IsResponse) = 1
    rw [htrace]
    exact countP_lookups_append trivial
  rw [forall_prop_of_true hadm]
  by_cases hstreams : ∃ body model, gw.Streams req body model
  · -- the streaming branch answers or starts a stream
    obtain ⟨body, model, hstreams⟩ := hstreams
    refine iff_of_true ?_ (.inl ⟨body, model, hstreams⟩)
    cases hcreate : gw.adapters.create model with
    | none =>
      obtain ⟨w', hreq, htrace⟩ := handleRequest_of_streams_none hstreams hdef hadm hcreate
      rw [hreq]
      refine ⟨⟨none, rfl⟩, ?_⟩
      show w'.trace.countP (·.IsResponse) = 1
      rw [htrace]
      exact countP_lookups_append trivial
    | some ai =>
      obtain ⟨w', hreq, htrace⟩ := handleRequest_of_streams_some hstreams hdef hadm hcreate
      rw [hreq]
      refine ⟨⟨_, rfl⟩, ?_⟩
      show w'.trace.countP (·.IsResponse) = 1
      rw [htrace]
      exact countP_lookups_append trivial
  · -- the router answers
    rw [or_iff_right hstreams]
    obtain ⟨w', htrace, hdb, hreq⟩ := handleRequest_of_not_streams hstreams hdef hadm
    rw [hreq, answeredOnce_route htrace, returns_dispatch]
    exact routeAnswers_congr hdb

/-- The path of a request is quoted in the answer that there is no such path. Where it is not text
the answer cannot be built, and no key is needed to get there. -/
theorem not_answeredOnce_path_not_utf8 :
    ¬ AnsweredOnce ((Gateway.small [] []).handleRequest
      { method := .get, target := utf8 "/admin/" ++ [0xff], body := [] }
      (World.small.inMain ⟨10, 10, 5, 0⟩)) := by
  decide +kernel

end AiSwitch
