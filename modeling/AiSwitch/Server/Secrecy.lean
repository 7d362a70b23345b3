import AiSwitch.Common.TwoRuns
import AiSwitch.Server.KeyManagement

/-!
# What a client without the master key learns

Nothing that the gateway does for requests without the master key depends on the master key, and it
depends on the table only through the answer to one question for each request: whether the table has
an enabled key for the token that the request itself presents (`unprivileged_alike`). In particular
an unknown key cannot be told from a disabled one, nor can the number, the names or the limits of
keys be learned.

The proof runs two gateways side by side (`Prog.Alike`), which differ in their master keys and in
their tables.
-/

namespace AiSwitch

open ByteString Effect Nlohmann Http Mysql

/-! ## A lookup -/

namespace Repository

variable (be : Backend) (db : Db) (key : Bytes)

/-- The table has an enabled row for the key. -/
def accepts (table : List Row) : Bool :=
  (rowResult (table.find? fun r => be.collates r.apiKey key)).found

/-- A lookup that gets an answer reports no error. -/
@[simp] theorem dbError_rowResult (row : Option Row) : (rowResult row).dbError = false := by
  cases row with
  | none => rfl
  | some row =>
    rw [rowResult]
    split <;> rfl

/-- The queue of connections after a lookup. -/
def idleAfter : List (Option ℕ) :=
  match db.connection with
  | some c => if be.Fits key then db.idle.tail ++ [some c] else db.idle.tail
  | none => db.idle.tail

/-- The number of calls after a lookup. -/
def callsAfter : ℕ :=
  match db.connection with
  | some _ =>
    if be.Fits key then if be.Answers db.calls then db.calls + 2 else db.calls + 1 else db.calls
  | none => db.calls

/-- What a lookup leaves behind it, with some result set. -/
theorem run_findApiKey_state : ∃ rows, ((findApiKey key).run be db).2 =
    { db with idle := idleAfter be db key, calls := callsAfter be db key, resultSet := rows } := by
  unfold idleAfter callsAfter
  cases hconn : db.connection with
  | none =>
    refine ⟨db.resultSet, ?_⟩
    unfold findApiKey
    rw [run_borrow_bind, hconn, if_pos rfl, run_pure]
  | some c =>
    dsimp only
    by_cases hfit : be.Fits key
    · rw [if_pos hfit, if_pos hfit]
      unfold findApiKey
      rw [run_borrow_bind, hconn, if_neg (by simp),
        run_realEscapeString_bind (Mysql.realEscapeString_of_fits be _ hfit), be.cstr_escape]
      by_cases hquery : be.Answers db.calls
      · obtain ⟨rows, hsent⟩ : ∃ rows, Mysql.query be (some c) (.selectKey (be.escape key))
            { db with idle := db.idle.tail } = (.ok true, { db with
              idle := db.idle.tail, calls := db.calls + 1, resultSet := rows }) :=
          ⟨_, Mysql.query_of_answers be { db with idle := db.idle.tail } hquery _⟩
        rw [run_query_bind hsent, if_neg (by simp), run_storeResult_bind, if_pos hquery]
        refine ⟨rows, ?_⟩
        split <;> rfl
      · obtain ⟨db', hdb', hstate⟩ := Mysql.query_of_not_answers (c := c) be
          { db with idle := db.idle.tail } hquery (.selectKey (be.escape key))
        rw [run_query_bind hdb', if_pos rfl, run_returnConnection_bind, run_pure, if_neg hquery]
        rcases hstate with rfl | hexec
        · exact ⟨db.resultSet, rfl⟩
        · cases hexec
          exact ⟨_, rfl⟩
    · rw [run_findApiKey_of_not_fits be db hconn hfit, if_neg hfit, if_neg hfit]
      exact ⟨db.resultSet, rfl⟩

/-- A lookup ends with what the database says, unless the token does not fit. -/
theorem run_findApiKey_outcome : ((findApiKey key).run be db).1 =
    if db.connection = none ∨ be.Fits key then .ok (findResult be db key) else .ub := by
  by_cases h : db.connection = none ∨ be.Fits key
  · obtain ⟨db', hdb'⟩ := run_findApiKey be db h
    rw [if_pos h, hdb']
  · rw [not_or] at h
    obtain ⟨c, hc⟩ := Option.ne_none_iff_exists'.mp h.1
    rw [if_neg (by simpa using h), run_findApiKey_of_not_fits be db hc h.2]

end Repository

/-! ## Two gateways -/

/-- What can be noticed outside: everything but the lookup of a token. -/
def Event.visible : Event → Bool
  | findApiKey _ _ => false
  | createApiKey _ _ | listApiKeys | disableApiKey _ | handler _ | chatCompletion _ _
  | chatCompletionStream _ _ | doWrite _ | startStream _ _ => true

/-- The states differ in what the keys `tokens` do not tell: in the tables, as long as they accept
the same of these keys, in the result sets, and in what has been recorded of the lookups. -/
structure Unnoticed (be : Backend) (tokens : Bytes → Prop) (w w' : World) : Prop where
  accepts : ∀ t, tokens t → Repository.accepts be t w.db.table = Repository.accepts be t w'.db.table
  idle : w.db.idle = w'.db.idle
  calls : w.db.calls = w'.db.calls
  chain : w.chain = w'.chain
  clock : w.clock = w'.clock
  acquisitions : w.acquisitions = w'.acquisitions
  trace : w.trace.filter Event.visible = w'.trace.filter Event.visible

/-- The contexts of the request differ in the id of the key at most. -/
def SameContext (req : RequestHeader) (ctx ctx' : Context) : Prop :=
  ctx.request = req ∧ ∃ id, ctx' = { ctx with apiKeyId := id }

namespace Gateway

/-- The gateway under another master key. -/
abbrev withMasterKey (gw : Gateway) (masterKey : Bytes) : Gateway :=
  { gw with adminMasterKey := masterKey }

/-- From states whose difference is not noticed, computations look the same. -/
abbrev LooksSame {α β : Type} (gw : Gateway) (tokens : Bytes → Prop) (V : α → β → Prop)
    (x : Act α) (y : Act β) : Prop :=
  Prog.Alike (Unnoticed gw.backend tokens) V x y

variable {gw : Gateway} {masterKey : Bytes} {tokens : Bytes → Prop}

/-- Events that look the same outside may be recorded on both sides. -/
theorem unnoticed_event {w w' : World} (h : Unnoticed gw.backend tokens w w') {e e' : Event}
    (he : [e].filter Event.visible = [e'].filter Event.visible) :
    Unnoticed gw.backend tokens { w with trace := w.trace ++ [e] }
      { w' with trace := w'.trace ++ [e'] } :=
  { h with trace := by rw [List.filter_append, List.filter_append, h.trace, he] }

/-- The same event may be recorded on both sides. -/
theorem looksSame_emit (e : Event) :
    LooksSame gw tokens (fun a b => a = b) (emit e) (emit e) :=
  Prog.alike_modify fun _ _ h => unnoticed_event h rfl

/-- An error response does not tell the master key. -/
theorem looksSame_errorResponse (status : Status) (code : String) (message : Bytes)
    (req : RequestHeader) :
    LooksSame gw tokens (fun a b => a = b) (gw.errorResponse status code message req)
      ((gw.withMasterKey masterKey).errorResponse status code message req) :=
  Prog.alike_lift _

/-- The response of a document does not tell the master key. -/
theorem looksSame_jsonResponse (body : Json) (req : RequestHeader) :
    LooksSame gw tokens (fun a b => a = b) (gw.jsonResponse body req)
      ((gw.withMasterKey masterKey).jsonResponse body req) :=
  (Prog.alike_lift _).bind_eq fun _ => Prog.alike_pure rfl

/-- A lookup gives the same verdict on both sides. -/
theorem looksSame_findApiKey {key : Bytes} (hkey : tokens key) :
    LooksSame gw tokens (fun r r' => r.found = r'.found ∧ r.dbError = r'.dbError)
      (gw.repository (Repository.findApiKey key))
      ((gw.withMasterKey masterKey).repository (Repository.findApiKey key)) := by
  intro w w' h
  have hconn : w.db.connection = w'.db.connection := by rw [Db.connection, h.idle, Db.connection]
  obtain ⟨rows, hstate⟩ := Repository.run_findApiKey_state gw.backend w.db key
  obtain ⟨rows', hstate'⟩ := Repository.run_findApiKey_state gw.backend w'.db key
  rw [repository, repository, Prog.zoom_apply, Prog.zoom_apply, hstate, hstate',
    Repository.run_findApiKey_outcome, Repository.run_findApiKey_outcome, hconn]
  refine ⟨?_, { h with idle := ?_, calls := ?_ }⟩
  · split
    · refine .ok ?_
      have haccepts := h.accepts key hkey
      unfold Repository.findResult
      rw [hconn, h.calls]
      split
      · exact ⟨haccepts, by rw [Repository.dbError_rowResult, Repository.dbError_rowResult]⟩
      · exact ⟨rfl, rfl⟩
    · exact .ub
  · simp only [Repository.idleAfter, hconn, h.idle]
  · simp only [Repository.callsAfter, hconn, h.calls]

/-! ### The chain -/

section

open Middleware

variable {req : RequestHeader} {ctx ctx' : Context}

/-- A rejection looks the same on both sides. -/
theorem looksSame_rejectWith (h : SameContext req ctx ctx') (status : Status)
    (code message : String) :
    LooksSame gw tokens (SameContext req) (ctx.rejectWith gw status code message)
      (ctx'.rejectWith (gw.withMasterKey masterKey) status code message) := by
  obtain ⟨rfl, id, rfl⟩ := h
  exact (looksSame_errorResponse _ _ _ _).bind_eq fun res => Prog.alike_pure ⟨rfl, id, rfl⟩

/-- The authentication looks the same with a token that both tables treat alike. -/
theorem looksSame_auth (htoken : tokens (extractBearerToken req)) (h : SameContext req ctx ctx') :
    LooksSame gw tokens (SameContext req) (auth.process gw ctx)
      (auth.process (gw.withMasterKey masterKey) ctx') := by
  have hsame := h
  obtain ⟨rfl, id, rfl⟩ := h
  unfold auth.process
  dsimp only
  split
  · exact Prog.alike_pure hsame
  · split
    · exact looksSame_rejectWith hsame _ _ _
    · refine (looksSame_findApiKey htoken).bind fun r r' hr => ?_
      refine (Prog.alike_modify fun w w' hw => unnoticed_event hw (by rfl)).bind_eq fun _ => ?_
      unfold auth.judge
      rw [hr.1, hr.2]
      split
      · exact looksSame_rejectWith hsame _ _ _
      · split
        · exact looksSame_rejectWith hsame _ _ _
        · exact Prog.alike_pure ⟨rfl, r'.info.id, rfl⟩

/-- The limiter looks the same on both sides. -/
theorem looksSame_rateLimiter (bucket : TokenBucket) (h : SameContext req ctx ctx') :
    LooksSame gw tokens (fun r r' => SameContext req r.1 r'.1 ∧ r.2 = r'.2)
      (rateLimiter.process gw bucket ctx)
      (rateLimiter.process (gw.withMasterKey masterKey) bucket ctx') := by
  unfold rateLimiter.process
  have hclock : LooksSame gw tokens (fun a b => a = b)
      (Prog.read fun w => w.clock w.acquisitions) (Prog.read fun w => w.clock w.acquisitions) :=
    Prog.alike_read fun w w' hw => by rw [hw.clock, hw.acquisitions]
  refine hclock.bind_eq fun now => ?_
  refine (Prog.alike_modify fun w w' hw => { hw with
    acquisitions := congrArg (· + 1) hw.acquisitions }).bind_eq fun _ => ?_
  refine (Prog.alike_lift _).bind_eq fun acquired => ?_
  split
  · exact Prog.alike_pure ⟨h, rfl⟩
  · exact (looksSame_rejectWith h _ _ _).bind fun _ _ hctx => Prog.alike_pure ⟨hctx, rfl⟩

/-- Every middleware looks the same with a token that both tables treat alike. -/
theorem looksSame_process (htoken : tokens (extractBearerToken req)) (h : SameContext req ctx ctx')
    (mw : Middleware) :
    LooksSame gw tokens (fun r r' => SameContext req r.1 r'.1 ∧ r.2 = r'.2)
      (process gw ctx mw) (process (gw.withMasterKey masterKey) ctx' mw) := by
  cases mw with
  | auth => exact (looksSame_auth htoken h).bind fun _ _ hctx => Prog.alike_pure ⟨hctx, rfl⟩
  | rateLimiter bucket =>
    exact (looksSame_rateLimiter bucket h).bind fun _ _ hr => Prog.alike_pure ⟨hr.1, by rw [hr.2]⟩
  | log => exact Prog.alike_pure ⟨h, rfl⟩

/-- Several middlewares look the same with a token that both tables treat alike. -/
theorem looksSame_processAll (htoken : tokens (extractBearerToken req)) (mws : List Middleware)
    (h : SameContext req ctx ctx') :
    LooksSame gw tokens (fun r r' => SameContext req r.1 r'.1 ∧ r.2 = r'.2)
      (processAll gw mws ctx) (processAll (gw.withMasterKey masterKey) mws ctx') := by
  induction mws generalizing ctx ctx' with
  | nil => exact Prog.alike_pure ⟨h, rfl⟩
  | cons mw mws ih =>
    rw [processAll, processAll]
    refine (looksSame_process htoken h mw).bind fun r r' hr => ?_
    have hterm : r'.1.terminated = r.1.terminated := by
      obtain ⟨⟨-, id, hid⟩, -⟩ := hr
      rw [hid]
    rw [hterm]
    split
    · exact Prog.alike_pure ⟨hr.1, by rw [hr.2]⟩
    · exact (ih hr.1).bind fun rs rs' hrs => Prog.alike_pure ⟨hrs.1, by rw [hr.2, hrs.2]⟩

/-- The chain looks the same with a token that both tables treat alike. -/
theorem looksSame_processChain (htoken : tokens (extractBearerToken req)) :
    LooksSame gw tokens (SameContext req) (gw.processChain (freshContext req))
      ((gw.withMasterKey masterKey).processChain (freshContext req)) := by
  unfold processChain
  have hread : LooksSame gw tokens (fun a b => a = b) (Prog.read World.chain)
      (Prog.read World.chain) := Prog.alike_read fun _ _ hw => hw.chain
  refine hread.bind_eq fun chain => ?_
  refine (looksSame_processAll htoken chain ⟨rfl, -1, rfl⟩).bind fun r r' hr => ?_
  refine (Prog.alike_modify fun w w' hw => { hw with chain := hr.2 }).bind_eq fun _ => ?_
  exact Prog.alike_pure hr.1

end

/-! ### The handlers -/

section

variable {req : Request}

/-- The answer to a chat request looks the same. -/
theorem looksSame_chatWith (body : Json) (req : RequestHeader) :
    LooksSame gw tokens (fun a b => a = b) (gw.chatWith body req)
      ((gw.withMasterKey masterKey).chatWith body req) := by
  unfold chatWith
  split
  · exact looksSame_errorResponse _ _ _ _
  · refine (Prog.alike_lift _).bind_eq fun model => ?_
    cases gw.adapters.create model with
    | none => exact looksSame_errorResponse _ _ _ _
    | some ai =>
      unfold callAdapter
      refine Prog.Alike.tryCatch ?_ fun e => looksSame_errorResponse _ _ _ _
      refine (looksSame_emit _).bind_eq fun _ => (Prog.alike_lift _).bind_eq fun doc => ?_
      exact looksSame_jsonResponse _ _

/-- Without either master key the handlers for administrators end with their check. -/
theorem looksSame_requireAdmin {header : RequestHeader} (h : gw.verifyAdmin header = false)
    (h' : (gw.withMasterKey masterKey).verifyAdmin header = false) (k k' : Act Response) :
    LooksSame gw tokens (fun a b => a = b) (gw.requireAdmin header k)
      ((gw.withMasterKey masterKey).requireAdmin header k') := by
  rw [requireAdmin, requireAdmin, if_neg (by simp [h]), if_neg (by simp [h'])]
  exact looksSame_errorResponse _ _ _ _

variable (h : gw.verifyAdmin req.toRequestHeader = false)
  (h' : (gw.withMasterKey masterKey).verifyAdmin req.toRequestHeader = false)

include h h'

/-- Without the master key every handler looks the same. -/
theorem looksSame_handlerOf (r : Route) :
    LooksSame gw tokens (fun a b => a = b) (gw.handlerOf r req)
      ((gw.withMasterKey masterKey).handlerOf r req) := by
  cases r with
  | health => exact (looksSame_emit _).bind_eq fun _ => looksSame_jsonResponse _ _
  | chat =>
    refine (looksSame_emit _).bind_eq fun _ => ?_
    cases gw.lib.parse req.body with
    | ok body => exact looksSame_chatWith _ _
    | throw e =>
      cases e with
      | parseError what => exact looksSame_errorResponse _ _ _ _
      | _ => exact Prog.alike_throw _
    | ub => exact Prog.alike_ub
  | createKey => exact (looksSame_emit _).bind_eq fun _ => looksSame_requireAdmin h h' _ _
  | listKeys => exact (looksSame_emit _).bind_eq fun _ => looksSame_requireAdmin h h' _ _
  | disableKey => exact (looksSame_emit _).bind_eq fun _ => looksSame_requireAdmin h h' _ _

/-- Without the master key the router looks the same. -/
theorem looksSame_route :
    LooksSame gw tokens (fun a b => a = b) (gw.route req)
      ((gw.withMasterKey masterKey).route req) := by
  unfold route
  have hdispatch : LooksSame gw tokens (fun a b => a = b) (gw.router.dispatch gw.lib req)
      ((gw.withMasterKey masterKey).router.dispatch gw.lib req) := by
    cases hr : routeOf req.method req.target with
    | none =>
      rw [gw.dispatch_of_none hr, (gw.withMasterKey masterKey).dispatch_of_none hr]
      exact looksSame_errorResponse _ _ _ _
    | some r =>
      rw [gw.dispatch_of_some hr, (gw.withMasterKey masterKey).dispatch_of_some hr]
      exact looksSame_handlerOf h h' r
  refine hdispatch.bind_eq fun res => (looksSame_emit _).bind_eq fun _ => ?_
  exact Prog.alike_pure rfl

end

/-! ### The streaming branch -/

/-- The streaming branch ends in the same way. -/
def SameBranch : StreamBranch gw → StreamBranch (gw.withMasterKey masterKey) → Prop
  | .answered, .answered => True
  | .started ai body, .started ai' body' => ai = ai' ∧ body = body'
  | .notTaken, .notTaken => True
  | _, _ => False

/-- The streaming branch does not look at tables and master key. -/
theorem looksSame_streamBranch (req : Request) :
    LooksSame gw tokens SameBranch (gw.streamBranch req)
      ((gw.withMasterKey masterKey).streamBranch req) := by
  unfold streamBranch
  refine (Prog.alike_lift _).bind_eq fun body => (Prog.alike_lift _).bind_eq fun wantStream => ?_
  split
  · refine (Prog.alike_modify fun w w' hw => { hw with }).bind_eq fun _ => ?_
    refine (Prog.alike_lift _).bind_eq fun model => ?_
    unfold startStream
    cases gw.adapters.create model with
    | none =>
      refine (looksSame_errorResponse _ _ _ _).bind_eq fun res => ?_
      exact (looksSame_emit _).bind_eq fun _ => Prog.alike_pure trivial
    | some ai => exact (looksSame_emit _).bind_eq fun _ => Prog.alike_pure ⟨rfl, rfl⟩
  · exact Prog.alike_pure trivial

/-! ### Requests -/

section

variable {req : Request} (htoken : tokens (Middleware.extractBearerToken req.toRequestHeader))
  (h : gw.verifyAdmin req.toRequestHeader = false)
  (h' : (gw.withMasterKey masterKey).verifyAdmin req.toRequestHeader = false)

include htoken h h'

/-- Without the master key the session looks the same as a whole. -/
theorem looksSame_handleRequest :
    LooksSame gw tokens (fun a b => a = b) (gw.handleRequest req)
      ((gw.withMasterKey masterKey).handleRequest req) := by
  unfold handleRequest
  refine (looksSame_processChain htoken).bind fun ctx ctx' hctx => ?_
  obtain ⟨-, id, rfl⟩ := hctx
  dsimp only
  split
  · split
    · exact (looksSame_emit _).bind_eq fun _ => Prog.alike_pure rfl
    · exact Prog.alike_throw _
  · have hcaught : LooksSame gw tokens SameBranch
        (Prog.tryCatch (gw.streamBranch req) fun _ => pure .notTaken)
        (Prog.tryCatch ((gw.withMasterKey masterKey).streamBranch req) fun _ => pure .notTaken) :=
      (looksSame_streamBranch req).tryCatch fun _ => Prog.alike_pure trivial
    refine hcaught.bind fun branch branch' hbranch => ?_
    cases branch with
    | answered =>
      cases branch' with
      | answered => exact Prog.alike_pure rfl
      | started | notTaken => exact hbranch.elim
    | started ai body =>
      cases branch' with
      | started ai' body' =>
        obtain ⟨rfl, rfl⟩ := hbranch
        exact Prog.alike_pure rfl
      | answered | notTaken => exact hbranch.elim
    | notTaken =>
      cases branch' with
      | notTaken => exact looksSame_route h h'
      | answered | started => exact hbranch.elim

/-- Without the master key one request, with what follows it, looks the same. -/
theorem looksSame_serve (headerWritten : Bool) :
    LooksSame gw tokens (fun a b => a = b) (gw.serve req headerWritten)
      ((gw.withMasterKey masterKey).serve req headerWritten) := by
  unfold serve
  refine (looksSame_handleRequest htoken h h').bind_eq fun started => ?_
  cases started with
  | none => exact Prog.alike_pure rfl
  | some s =>
    dsimp only
    split
    · refine (Prog.alike_modify fun w w' hw => { hw with }).bind_eq fun _ => ?_
      exact looksSame_emit _
    · exact Prog.alike_pure rfl

end

variable (gw masterKey tokens) in
/-- Without the master key a run of requests looks the same. -/
theorem looksSame_handleArrivals {arrivals : List Arrival}
    (htokens : ∀ a ∈ arrivals, tokens (Middleware.extractBearerToken a.request.toRequestHeader))
    (h : ∀ a ∈ arrivals, gw.verifyAdmin a.request.toRequestHeader = false)
    (h' : ∀ a ∈ arrivals, (gw.withMasterKey masterKey).verifyAdmin a.request.toRequestHeader
      = false) :
    LooksSame gw tokens (fun a b => a = b) (gw.handleArrivals arrivals)
      ((gw.withMasterKey masterKey).handleArrivals arrivals) := by
  induction arrivals with
  | nil => exact Prog.alike_pure rfl
  | cons a arrivals ih =>
    rw [List.forall_mem_cons] at htokens h h'
    rw [handleArrivals, handleArrivals]
    refine Prog.Alike.bind_eq ?_ fun _ => ih htokens.2 h.2 h'.2
    unfold handleArrival
    refine (Prog.alike_modify fun w w' hw => ?_).bind_eq fun _ => ?_
    · exact
        { accepts := hw.accepts
          idle := rfl
          calls := rfl
          chain := rfl
          clock := rfl
          acquisitions := rfl
          trace := hw.trace }
    · exact (looksSame_serve htokens.1 h.1 h'.1 _).tryCatch fun _ => Prog.alike_pure rfl

/-- **Without the master key, only the own key tells anything.** Two gateways differ in nothing but
their master keys and their tables. A run of requests of any kind, none of which carries either
master key, is handled alike by both, with the same responses, streams and calls of adapters, as
soon as both tables accept the same of the tokens that these requests present. If one of the
requests has no defined behaviour, both runs end there. -/
theorem unprivileged_alike (gw : Gateway) (masterKey : Bytes) (arrivals : List Arrival) (w : World)
    (table : List Row)
    (h : ∀ a ∈ arrivals, a.request.authorization ≠ some (utf8 "Bearer " ++ gw.adminMasterKey))
    (h' : ∀ a ∈ arrivals, a.request.authorization ≠ some (utf8 "Bearer " ++ masterKey))
    (haccepts : ∀ a ∈ arrivals,
      Repository.accepts gw.backend (Middleware.extractBearerToken a.request.toRequestHeader)
          w.db.table
        = Repository.accepts gw.backend
          (Middleware.extractBearerToken a.request.toRequestHeader) table) :
    let ran := gw.handleArrivals arrivals w
    let ran' := (gw.withMasterKey masterKey).handleArrivals arrivals
      { w with db := { w.db with table := table } }
    ran'.1 = ran.1 ∧ ran'.2.trace.filter Event.visible = ran.2.trace.filter Event.visible := by
  have hrun := gw.looksSame_handleArrivals masterKey
    (fun t => ∃ a ∈ arrivals, t = Middleware.extractBearerToken a.request.toRequestHeader)
    (fun a ha => ⟨a, ha, rfl⟩)
    (fun a ha => by rw [verifyAdmin, beq_eq_false_iff_ne]; exact h a ha)
    (fun a ha => by rw [verifyAdmin, beq_eq_false_iff_ne]; exact h' a ha)
  obtain ⟨hvalue, hstate⟩ := hrun w { w with db := { w.db with table := table } }
    { accepts := by
        rintro _ ⟨a, ha, rfl⟩
        exact haccepts a ha
      idle := rfl
      calls := rfl
      chain := rfl
      clock := rfl
      acquisitions := rfl
      trace := rfl }
  exact ⟨hvalue.eq.symm, hstate.trace.symm⟩

/-- A disabled key and a key that never was are told from each other by nobody but the holder of the
master key. -/
theorem unprivileged_alike_k :
    let w : World := { World.small with
      db := { table := [⟨1, utf8 "k", utf8 "test", 60, 0⟩], idle := [some 0] } }
    let ran := withBody.handleArrivals [chatArrival "Bearer k"] w
    let ran' := (withBody.withMasterKey (utf8 "other")).handleArrivals [chatArrival "Bearer k"]
      { w with db := { w.db with table := [] } }
    ran'.1 = ran.1 ∧ ran'.2.trace.filter Event.visible = ran.2.trace.filter Event.visible :=
  unprivileged_alike withBody (utf8 "other") [chatArrival "Bearer k"] _ [] (by decide +kernel)
    (by decide +kernel) (by decide +kernel)

end Gateway

end AiSwitch
