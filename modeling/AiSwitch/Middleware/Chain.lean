import AiSwitch.Server.World

/-!
# The middleware chain

`middleware_chain` (`middleware/middleware.h`) runs its middlewares in order until one of them
answers the request. `auth_middleware` lets `/health` and everything below `/admin/` pass without a
key and asks the repository about every other request, `rate_limiter_middleware` takes a token, and
`log_middleware` only writes to the console. All three look at the header of a request alone.
-/

namespace AiSwitch

open ByteString Effect Nlohmann Http Mysql

/-- `context` -/
structure Context where
  request : RequestHeader
  response : Option Response := none
  terminated : Bool := false
  apiKeyId : ℤ := -1

/-- Stop the chain with a response. -/
def Context.reject (ctx : Context) (res : Response) : Context :=
  { ctx with response := some res, terminated := true }

/-- A middleware answers the request with an error. The texts are literals, so this always works. -/
def Context.rejectWith (gw : Gateway) (ctx : Context) (status : Status) (code message : String) :
    Act Context := do
  return ctx.reject (← gw.errorResponse status code (utf8 message) ctx.request)

/-- A rejection always returns: its message is text. -/
theorem Context.rejectWith_apply (gw : Gateway) (ctx : Context) (status : Status)
    (code message : String) (w : World) :
    ctx.rejectWith gw status code message w
      = (.ok (ctx.reject (gw.errorResult status code (utf8 message) ctx.request)), w) :=
  Prog.bind_of_ok (gw.errorResponse_of_validUtf8 (validUtf8_utf8 message) status code _ w) _

namespace Middleware

/-! ## `auth_middleware` -/

/-- The paths that need no key. -/
def Whitelisted (target : Bytes) : Prop :=
  target = utf8 "/health" ∨ utf8 "/admin/" <+: target

instance : DecidablePred Whitelisted := fun _ => inferInstanceAs (Decidable (_ ∨ _))

/-- What precedes the token in the header. -/
def bearer : Bytes := utf8 "Bearer "

/-- `extract_bearer_token` -/
def extractBearerToken (req : RequestHeader) : Bytes :=
  match req.authorization with
  | none => []
  | some authValue =>
    if authValue.length ≤ bearer.length ∨ authValue.take bearer.length ≠ bearer then []
    else authValue.drop bearer.length

/-- A non-empty token is what follows `Bearer ` in the header. -/
theorem authorization_of_token {req : RequestHeader} (h : extractBearerToken req ≠ []) :
    req.authorization = some (bearer ++ extractBearerToken req) := by
  unfold extractBearerToken at h ⊢
  cases hauth : req.authorization with
  | none =>
    rw [hauth] at h
    exact absurd rfl h
  | some authValue =>
    rw [hauth] at h
    dsimp only at h ⊢
    split_ifs at h ⊢ with hvalue
    · exact absurd rfl h
    · push Not at hvalue
      rw [← hvalue.2, List.length_take, min_eq_left hvalue.1.le, List.take_append_drop]

variable (gw : Gateway)

/-- `auth_middleware::process` from the result of the lookup on. -/
def auth.judge (ctx : Context) (result : ApiKeyResult) : Act Context :=
  if result.dbError then
    ctx.rejectWith gw .serviceUnavailable "service_unavailable" "服务暂时不可用, 请稍后重试"
  else if !result.found then
    ctx.rejectWith gw .unauthorized "auth_failed" "API Key 无效或已被禁用"
  else
    return { ctx with apiKeyId := result.info.id }

/-- `auth_middleware::process` -/
def auth.process (ctx : Context) : Act Context :=
  if Whitelisted ctx.request.target then
    return ctx
  else
    let token := extractBearerToken ctx.request
    if token = [] then
      ctx.rejectWith gw .unauthorized "auth_failed"
        "缺少有效的 Authorization 头, 格式: Bearer <api_key>"
    else do
      let result ← gw.repository (Repository.findApiKey token)
      emit (.findApiKey token result)
      auth.judge gw ctx result

/-! ## `rate_limiter_middleware` -/

/-- `rate_limiter_middleware::process` -/
def rateLimiter.process (bucket : TokenBucket) (ctx : Context) : Act (Context × TokenBucket) := do
  let now ← Prog.read fun w => w.clock w.acquisitions
  Prog.modify fun w => { w with acquisitions := w.acquisitions + 1 }
  let acquired ← Prog.lift (bucket.tryAcquire 1 now.1 now.2)
  if acquired.1 then
    return (ctx, acquired.2)
  else
    let ctx ← ctx.rejectWith gw .tooManyRequests "rate_limited" "请求过于频繁, 请稍后重试"
    return (ctx, acquired.2)

/-! ## The chain -/

/-- `process`, with the state that the middleware has afterwards. -/
def process (ctx : Context) : Middleware → Act (Context × Middleware)
  | auth => do return (← auth.process gw ctx, auth)
  | rateLimiter bucket => do
    let r ← rateLimiter.process gw bucket ctx
    return (r.1, rateLimiter r.2)
  | log => return (ctx, log)

/-- The loop of `middleware_chain::process`. -/
def processAll : List Middleware → Context → Act (Context × List Middleware)
  | [], ctx => return (ctx, [])
  | mw :: mws, ctx => do
    let r ← process gw ctx mw
    if r.1.terminated then
      return (r.1, r.2 :: mws)
    else
      let rs ← processAll mws r.1
      return (rs.1, r.2 :: rs.2)

end Middleware

namespace Gateway

/-- `middleware_chain::process` -/
def processChain (gw : Gateway) (ctx : Context) : Act Context := do
  let chain ← Prog.read World.chain
  let r ← Middleware.processAll gw chain ctx
  Prog.modify fun w => { w with chain := r.2 }
  return r.1

end Gateway

/-- The chain that `main` builds. -/
def mainChain (bucket : TokenBucket) : List Middleware := [.auth, .rateLimiter bucket, .log]

/-- A state of the gateway with the chain of `main`, in which nothing has been recorded. -/
def World.inMain (w : World) (bucket : TokenBucket) : World :=
  { w with chain := mainChain bucket, trace := [] }

/-! ## What the chain of `main` decides -/

namespace Middleware

variable (gw : Gateway) (w : World) (req : RequestHeader)

/-- What the database says about the token of the request. -/
def keyResult : ApiKeyResult :=
  Repository.findResult gw.backend w.db (extractBearerToken req)

/-- The request carries a key that is found. -/
def Authenticated : Prop :=
  extractBearerToken req ≠ [] ∧ (keyResult gw w req).found = true

/-- `auth_middleware` has a defined behaviour: a token that is looked up fits its buffer. -/
def AuthDefined : Prop :=
  Whitelisted req.target ∨ extractBearerToken req = [] ∨
    w.db.connection = none ∨ gw.backend.Fits (extractBearerToken req)

/-- What `auth_middleware` asks of the repository. -/
def lookups : List Event :=
  if Whitelisted req.target ∨ extractBearerToken req = [] then []
  else [.findApiKey (extractBearerToken req) (keyResult gw w req)]

instance : Decidable (Authenticated gw w req) := inferInstanceAs (Decidable (_ ∧ _))

instance : Decidable (AuthDefined gw w req) := inferInstanceAs (Decidable (_ ∨ _))

/-- Nothing but lookups is asked of the repository. -/
theorem lookups_spec {gw : Gateway} {w : World} {req : RequestHeader} {e : Event}
    (he : e ∈ lookups gw w req) : ∃ t r, e = .findApiKey t r := by
  unfold lookups at he
  split_ifs at he
  · cases he
  · exact ⟨_, _, List.mem_singleton.mp he⟩

variable {w} (ctx : Context)

/-- A whitelisted path passes. -/
theorem auth_process_of_whitelisted (h : Whitelisted ctx.request.target) :
    auth.process gw ctx w = (.ok ctx, w) := by
  unfold auth.process
  rw [if_pos h]
  rfl

/-- A token that does not fit has no defined behaviour. -/
theorem auth_process_of_not_defined (h : ¬ AuthDefined gw w ctx.request) :
    ∃ db, auth.process gw ctx w = (.ub, { w with db := db }) := by
  unfold AuthDefined at h
  push Not at h
  obtain ⟨hpath, htoken, hconn, hfits⟩ := h
  obtain ⟨c, hc⟩ := Option.ne_none_iff_exists'.mp hconn
  have hlookup := gw.repository_of_ub
    (Repository.run_findApiKey_of_not_fits gw.backend w.db hc hfits)
  unfold auth.process
  rw [if_neg hpath, if_neg htoken]
  exact ⟨_, Prog.bind_of_ub hlookup _⟩

/-- A request that is looked up is judged by the result. -/
theorem auth_process_of_token (hpath : ¬ Whitelisted ctx.request.target)
    (hdef : AuthDefined gw w ctx.request) (htoken : extractBearerToken ctx.request ≠ []) :
    ∃ db, auth.process gw ctx w = auth.judge gw ctx (keyResult gw w ctx.request)
      { w with db := db, trace := w.trace ++ lookups gw w ctx.request } := by
  obtain ⟨db, hdb⟩ := Repository.run_findApiKey gw.backend w.db
    ((hdef.resolve_left hpath).resolve_left htoken)
  refine ⟨db, ?_⟩
  unfold auth.process
  rw [if_neg hpath, if_neg htoken, lookups, if_neg (by tauto)]
  exact Prog.bind_of_ok (gw.repository_of_ok hdb) _

/-- A key that is found lets the request pass. -/
theorem auth_process_of_authenticated (hpath : ¬ Whitelisted ctx.request.target)
    (hdef : AuthDefined gw w ctx.request) (h : Authenticated gw w ctx.request) :
    ∃ db, auth.process gw ctx w
      = (.ok { ctx with apiKeyId := (keyResult gw w ctx.request).info.id },
        { w with db := db, trace := w.trace ++ lookups gw w ctx.request }) := by
  obtain ⟨db, hdb⟩ := auth_process_of_token gw ctx hpath hdef h.1
  refine ⟨db, ?_⟩
  have herror := Repository.dbError_of_found gw.backend w.db h.2
  rw [hdb, auth.judge, if_neg (by rw [keyResult, herror]; simp), if_neg (by simp [h.2])]
  rfl

/-- A request that is not authenticated is answered. -/
theorem auth_process_of_not_authenticated (hpath : ¬ Whitelisted ctx.request.target)
    (hdef : AuthDefined gw w ctx.request) (h : ¬ Authenticated gw w ctx.request) :
    ∃ db res, gw.IsErrorResult ctx.request res ∧ auth.process gw ctx w = (.ok (ctx.reject res),
      { w with db := db, trace := w.trace ++ lookups gw w ctx.request }) := by
  by_cases htoken : extractBearerToken ctx.request = []
  · unfold auth.process
    rw [if_neg hpath, if_pos htoken, ctx.rejectWith_apply, lookups, if_pos (.inr htoken),
      List.append_nil]
    exact ⟨w.db, _, ⟨_, _, _, rfl⟩, rfl⟩
  · obtain ⟨db, hdb⟩ := auth_process_of_token gw ctx hpath hdef htoken
    rw [hdb, auth.judge]
    split
    · rw [ctx.rejectWith_apply]
      exact ⟨db, _, ⟨_, _, _, rfl⟩, rfl⟩
    · have hfound : (keyResult gw w ctx.request).found = false := by
        simpa using fun hfound => h ⟨htoken, hfound⟩
      rw [if_pos (by simp [hfound]), ctx.rejectWith_apply]
      exact ⟨db, _, ⟨_, _, _, rfl⟩, rfl⟩

/-! ### The limiter -/

variable (w) in
/-- The bucket when the limiter looks at it. -/
def currentBucket (bucket : TokenBucket) : TokenBucket :=
  bucket.current (w.clock w.acquisitions).1 (w.clock w.acquisitions).2

variable (w) in
/-- The limiter has a defined behaviour: its refill does not overflow. -/
def LimiterDefined (bucket : TokenBucket) : Prop :=
  bucket.Defined (w.clock w.acquisitions).1 (w.clock w.acquisitions).2

variable {bucket : TokenBucket}

/-- A refill that overflows has no defined behaviour. -/
theorem rateLimiter_process_of_not_defined (h : ¬ LimiterDefined w bucket) :
    rateLimiter.process gw bucket ctx w = (.ub, { w with acquisitions := w.acquisitions + 1 }) := by
  unfold rateLimiter.process
  rw [Prog.read_bind_apply, Prog.modify_bind_apply, TokenBucket.tryAcquire_of_not_defined h]
  rfl

/-- With a token in the bucket the request passes the limiter. -/
theorem rateLimiter_process_of_le (h : LimiterDefined w bucket)
    (htokens : 1 ≤ (currentBucket w bucket).tokens) :
    ∃ b, rateLimiter.process gw bucket ctx w
      = (.ok (ctx, b), { w with acquisitions := w.acquisitions + 1 }) := by
  unfold currentBucket at htokens
  unfold rateLimiter.process
  rw [Prog.read_bind_apply, Prog.modify_bind_apply, TokenBucket.tryAcquire_of_defined h,
    if_pos htokens]
  exact ⟨_, rfl⟩

/-- Without a token in the bucket the request is rejected. -/
theorem rateLimiter_process_of_lt (h : LimiterDefined w bucket)
    (htokens : ¬ 1 ≤ (currentBucket w bucket).tokens) :
    ∃ b res, gw.IsErrorResult ctx.request res ∧ rateLimiter.process gw bucket ctx w
      = (.ok (ctx.reject res, b), { w with acquisitions := w.acquisitions + 1 }) := by
  unfold currentBucket at htokens
  unfold rateLimiter.process
  rw [Prog.read_bind_apply, Prog.modify_bind_apply, TokenBucket.tryAcquire_of_defined h,
    if_neg htokens, Prog.lift_ok_bind, if_neg (by simp)]
  exact ⟨_, _, ⟨_, _, _, rfl⟩, Prog.bind_of_ok (ctx.rejectWith_apply gw _ _ _ _) _⟩

/-! ### The chain -/

/-- `auth_middleware` lets the request pass. -/
def Passes (gw : Gateway) (w : World) (req : RequestHeader) : Prop :=
  Whitelisted req.target ∨ Authenticated gw w req

/-- The chain of `main` has a defined behaviour. -/
def ChainDefined (gw : Gateway) (w : World) (bucket : TokenBucket) (req : RequestHeader) : Prop :=
  AuthDefined gw w req ∧ (Passes gw w req → LimiterDefined w bucket)

/-- The chain of `main` lets the request through. -/
def Admitted (gw : Gateway) (w : World) (bucket : TokenBucket) (req : RequestHeader) : Prop :=
  Passes gw w req ∧ 1 ≤ (currentBucket w bucket).tokens

/-- A middleware that rejects ends the loop. -/
theorem processAll_cons_of_rejected {mw mw' : Middleware} {res : Response} {w' : World}
    (h : process gw ctx mw w = (.ok (ctx.reject res, mw'), w')) (mws : List Middleware) :
    processAll gw (mw :: mws) ctx w = (.ok (ctx.reject res, mw' :: mws), w') := by
  rw [processAll, Prog.bind_of_ok h]
  rfl

/-- A middleware that lets the request pass hands it on. -/
theorem processAll_cons_of_passed {ctx' : Context} {mw mw' : Middleware} {w' : World}
    (h : process gw ctx mw w = (.ok (ctx', mw'), w')) (hpass : ctx'.terminated = false)
    (mws : List Middleware) :
    processAll gw (mw :: mws) ctx w = (do
      let rs ← processAll gw mws ctx'
      return (rs.1, mw' :: rs.2) : Act _) w' := by
  rw [processAll, Prog.bind_of_ok h, if_neg (by simp [hpass])]

/-- A request that passes reaches the limiter with the state as it was, but for the lookup. -/
theorem auth_process_of_passes (hdef : AuthDefined gw w ctx.request) (h : Passes gw w ctx.request) :
    ∃ db id, auth.process gw ctx w = (.ok { ctx with apiKeyId := id },
        { w with db := db, trace := w.trace ++ lookups gw w ctx.request }) ∧
      (Whitelisted ctx.request.target → db = w.db) := by
  by_cases hpath : Whitelisted ctx.request.target
  · refine ⟨w.db, ctx.apiKeyId, ?_, fun _ => rfl⟩
    rw [auth_process_of_whitelisted gw ctx hpath, lookups, if_pos (.inl hpath), List.append_nil]
  · obtain ⟨db, hauth⟩ :=
      auth_process_of_authenticated gw ctx hpath hdef (h.resolve_left hpath)
    exact ⟨db, _, hauth, fun h => absurd h hpath⟩

/-- What the authentication does is done by the chain. -/
theorem process_auth_of_ok {ctx' : Context} {w' : World}
    (h : auth.process gw ctx w = (.ok ctx', w')) :
    process gw ctx auth w = (.ok (ctx', auth), w') :=
  Prog.bind_of_ok h _

/-- What the limiter does is done by the chain, which keeps the new bucket. -/
theorem process_rateLimiter_of_ok {ctx' : Context} {b : TokenBucket} {w' : World}
    (h : rateLimiter.process gw bucket ctx w = (.ok (ctx', b), w')) :
    process gw ctx (rateLimiter bucket) w = (.ok (ctx', rateLimiter b), w') :=
  Prog.bind_of_ok h _

/-- The last middleware only writes its line. -/
theorem processAll_log (hctx : ctx.terminated = false) (w : World) :
    processAll gw [log] ctx w = (.ok (ctx, [log]), w) :=
  processAll_cons_of_passed gw ctx rfl hctx []

/-- With a token in the bucket the limiter and the log let the request pass. -/
theorem processAll_limiter_of_le (hctx : ctx.terminated = false) (h : LimiterDefined w bucket)
    (htokens : 1 ≤ (currentBucket w bucket).tokens) :
    ∃ b, processAll gw [rateLimiter bucket, log] ctx w
      = (.ok (ctx, [rateLimiter b, log]), { w with acquisitions := w.acquisitions + 1 }) := by
  obtain ⟨b, hlimit⟩ := rateLimiter_process_of_le gw ctx h htokens
  rw [processAll_cons_of_passed gw ctx (process_rateLimiter_of_ok gw ctx hlimit) hctx]
  exact ⟨b, Prog.bind_of_ok (processAll_log gw ctx hctx _) _⟩

/-- From the limiter on, a request without a token is rejected. -/
theorem processAll_limiter_of_lt (h : LimiterDefined w bucket)
    (htokens : ¬ 1 ≤ (currentBucket w bucket).tokens) :
    ∃ res b, gw.IsErrorResult ctx.request res ∧
      processAll gw [rateLimiter bucket, log] ctx w = (.ok (ctx.reject res, [rateLimiter b, log]),
        { w with acquisitions := w.acquisitions + 1 }) := by
  obtain ⟨b, res, hres, hlimit⟩ := rateLimiter_process_of_lt gw ctx h htokens
  exact ⟨res, b, hres,
    processAll_cons_of_rejected gw ctx (process_rateLimiter_of_ok gw ctx hlimit) _⟩

/-- From the limiter on, a refill that overflows has no defined behaviour. -/
theorem processAll_limiter_of_not_defined (h : ¬ LimiterDefined w bucket) :
    processAll gw [rateLimiter bucket, log] ctx w
      = (.ub, { w with acquisitions := w.acquisitions + 1 }) :=
  Prog.bind_of_ub (Prog.bind_of_ub (rateLimiter_process_of_not_defined gw ctx h) _) _

end Middleware

namespace Gateway

open Middleware

variable (gw : Gateway) (w : World) {req : RequestHeader} {bucket : TokenBucket}

/-- The context that a request starts with. -/
def freshContext (req : RequestHeader) : Context := { request := req }

variable {w} in
/-- The chain keeps the middlewares as they are afterwards. -/
theorem processChain_of_ok {ctx ctx' : Context} {mws : List Middleware} {w' : World}
    (h : processAll gw w.chain ctx w = (.ok (ctx', mws), w')) :
    gw.processChain ctx w = (.ok ctx', { w' with chain := mws }) := by
  rw [processChain, Prog.read_bind_apply, Prog.bind_of_ok h]
  rfl

variable {w} in
/-- Undefined behaviour ends the chain. -/
theorem processChain_of_ub {ctx : Context} {w' : World}
    (h : processAll gw w.chain ctx w = (.ub, w')) : gw.processChain ctx w = (.ub, w') := by
  rw [processChain, Prog.read_bind_apply, Prog.bind_of_ub h]

/-- A request that passes `auth_middleware` goes on to the limiter, in a state that differs in the
database alone, and there only if the key was looked up. -/
theorem exists_processAll_mainChain_eq (bucket : TokenBucket) (hauth : AuthDefined gw w req)
    (hpass : Passes gw w req) :
    ∃ ctx db, ctx.request = req ∧ ctx.terminated = false ∧ (Whitelisted req.target → db = w.db) ∧
      processAll gw (mainChain bucket) (freshContext req) (w.inMain bucket) = (do
        let rs ← processAll gw [.rateLimiter bucket, .log] ctx
        return (rs.1, .auth :: rs.2) : Act _)
          { w.inMain bucket with db := db, trace := lookups gw w req } := by
  obtain ⟨db, id, h, hdb⟩ := auth_process_of_passes (w := w.inMain bucket) gw (freshContext req)
    hauth hpass
  exact ⟨_, db, rfl, rfl, hdb,
    processAll_cons_of_passed gw _ (process_auth_of_ok gw _ h) rfl [.rateLimiter bucket, .log]⟩

/-- A request that is let through reaches the session unanswered. -/
theorem processChain_of_admitted (hdef : ChainDefined gw w bucket req)
    (hadm : Admitted gw w bucket req) :
    ∃ ctx w', gw.processChain (freshContext req) (w.inMain bucket) = (.ok ctx, w') ∧
      ctx.terminated = false ∧ w'.trace = lookups gw w req ∧
      (Whitelisted req.target → w'.db = w.db) := by
  obtain ⟨ctx, db, -, hctx, hdb, hchain⟩ :=
    exists_processAll_mainChain_eq gw w bucket hdef.1 hadm.1
  obtain ⟨mws, htail⟩ := processAll_limiter_of_le
      (w := { w.inMain bucket with db := db, trace := lookups gw w req }) gw ctx hctx
      (hdef.2 hadm.1) hadm.2
  exact ⟨_, _, processChain_of_ok gw (hchain.trans (Prog.bind_of_ok htail _)), hctx, rfl, hdb⟩

/-- A request that is not let through is answered by the chain. -/
theorem processChain_of_not_admitted (hdef : ChainDefined gw w bucket req)
    (hadm : ¬ Admitted gw w bucket req) :
    ∃ ctx res w', gw.processChain (freshContext req) (w.inMain bucket) = (.ok ctx, w') ∧
      ctx.terminated = true ∧ ctx.response = some res ∧ gw.IsErrorResult req res ∧
      w'.trace = lookups gw w req := by
  by_cases hpass : Passes gw w req
  · -- the limiter answers
    obtain ⟨ctx, db, hreq, -, -, hchain⟩ := exists_processAll_mainChain_eq gw w bucket hdef.1 hpass
    obtain ⟨res, mws, hres, htail⟩ := processAll_limiter_of_lt
      (w := { w.inMain bucket with db := db, trace := lookups gw w req }) gw ctx (hdef.2 hpass)
      fun htokens => hadm ⟨hpass, htokens⟩
    exact ⟨_, res, _, processChain_of_ok gw (hchain.trans (Prog.bind_of_ok htail _)), rfl, rfl,
      hreq ▸ hres, rfl⟩
  · -- `auth_middleware` answers
    rw [Passes, not_or] at hpass
    obtain ⟨db, res, hres, h⟩ := auth_process_of_not_authenticated (w := w.inMain bucket) gw
      (freshContext req) hpass.1 hdef.1 hpass.2
    exact ⟨_, res, _, processChain_of_ok gw (processAll_cons_of_rejected gw _
      (process_auth_of_ok gw _ h) [.rateLimiter bucket, .log]), rfl, rfl, hres, rfl⟩

/-- Undefined behaviour of the chain comes before anything but a lookup. -/
theorem processChain_of_not_defined (hdef : ¬ ChainDefined gw w bucket req) :
    ∃ w', gw.processChain (freshContext req) (w.inMain bucket) = (.ub, w') ∧
      ∀ e ∈ w'.trace, e ∈ lookups gw w req := by
  by_cases hauth : AuthDefined gw w req
  · rw [ChainDefined, not_and, Classical.not_imp] at hdef
    obtain ⟨hpass, hlimit⟩ := hdef hauth
    obtain ⟨ctx, db, -, -, -, hchain⟩ := exists_processAll_mainChain_eq gw w bucket hauth hpass
    have htail := processAll_limiter_of_not_defined
      (w := { w.inMain bucket with db := db, trace := lookups gw w req }) gw ctx hlimit
    exact ⟨_, processChain_of_ub gw (hchain.trans (Prog.bind_of_ub htail _)), fun _ he => he⟩
  · obtain ⟨db, h⟩ := auth_process_of_not_defined (w := w.inMain bucket) gw (freshContext req) hauth
    refine ⟨_, processChain_of_ub gw (Prog.bind_of_ub (Prog.bind_of_ub h _) _), ?_⟩
    intro e he
    cases he

end Gateway

/-! ## What the chain does to the state -/

section Moves

variable {P : Event → Prop} {R : World → World → Prop} (h : Tracks P R) (gw : Gateway)

include h

/-- A rejection changes nothing. -/
theorem Context.moves_rejectWith (ctx : Context) (status : Status) (code message : String) :
    Prog.Moves R (ctx.rejectWith gw status code message) :=
  h.bind (gw.moves_errorResponse h _ _ _ _) fun _ => h.pure _

namespace Middleware

/-- The limiter does no more than count its call. -/
theorem moves_rateLimiter_process (bucket : TokenBucket) (ctx : Context) :
    Prog.Moves R (rateLimiter.process gw bucket ctx) := by
  unfold rateLimiter.process
  apply h.bind fun w => h.refl w
  intro now
  apply h.bind fun w => h.middlewares w w.chain _
  intro _
  apply h.bind (h.lift _)
  intro acquired
  split
  · exact h.pure _
  · exact h.bind (ctx.moves_rejectWith h gw _ _ _) fun _ => h.pure _

-- what the chain asks of the repository is what `auth_middleware` asks: a lookup
variable (hfind : ∀ key, Prog.Moves R (gw.repository (Repository.findApiKey key)))
  (hP : ∀ t r, P (.findApiKey t r))

include hfind hP

/-- The authentication does no more than look its token up. -/
theorem moves_auth_process (ctx : Context) : Prog.Moves R (auth.process gw ctx) := by
  unfold auth.process
  split
  · exact h.pure _
  · dsimp only
    split
    · exact ctx.moves_rejectWith h gw _ _ _
    · apply h.bind (hfind _)
      intro result
      apply h.emit_bind (hP _ _)
      unfold auth.judge
      split
      · exact ctx.moves_rejectWith h gw _ _ _
      · split
        · exact ctx.moves_rejectWith h gw _ _ _
        · exact h.pure _

/-- No middleware does more than a lookup and a call of the limiter. -/
theorem moves_process (ctx : Context) (mw : Middleware) : Prog.Moves R (process gw ctx mw) := by
  cases mw with
  | auth => exact h.bind (moves_auth_process h gw hfind hP ctx) fun _ => h.pure _
  | rateLimiter bucket => exact h.bind (moves_rateLimiter_process h gw bucket ctx) fun _ => h.pure _
  | log => exact h.pure _

/-- Several middlewares do no more than one does. -/
theorem moves_processAll (mws : List Middleware) (ctx : Context) :
    Prog.Moves R (processAll gw mws ctx) := by
  induction mws generalizing ctx with
  | nil => exact h.pure _
  | cons mw mws ih =>
    rw [processAll]
    apply h.bind (moves_process h gw hfind hP ctx mw)
    intro r
    split
    · exact h.pure _
    · exact h.bind (ih _) fun _ => h.pure _

end Middleware

/-- The chain does no more than its middlewares. -/
theorem Gateway.moves_processChain
    (hfind : ∀ key, Prog.Moves R (gw.repository (Repository.findApiKey key)))
    (hP : ∀ t r, P (.findApiKey t r)) (ctx : Context) : Prog.Moves R (gw.processChain ctx) := by
  unfold processChain
  apply h.bind fun w => h.refl w
  intro chain
  apply h.bind (Middleware.moves_processAll h gw hfind hP chain ctx)
  intro r
  exact h.bind (fun w => h.middlewares w r.2 w.acquisitions) fun _ => h.pure _

end Moves

end AiSwitch
