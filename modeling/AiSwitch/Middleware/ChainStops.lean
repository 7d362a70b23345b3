import AiSwitch.Server.Session

/-!
# Where the middleware chain stops

`middleware_chain::process` gives the middlewares their turns one after another and returns after
the first one that sets `terminated`. `Ran` records such turns for any chain, with the state that
each of them starts from, and `StopsAfter` says where the chain has stopped: what has had its turn,
what has not and is as it was, and that the context holds a response exactly if it is terminated,
which is what `session::handle_request` relies on.

Two middlewares can leave defined behaviour: `auth_middleware` on a token that does not fit the
buffer it is escaped into, and the limiter on a refill that overflows. The chain stops cleanly
exactly where no turn that is reached does.
-/

namespace AiSwitch

open ByteString Effect Http Mysql

/-- A response is what terminates the chain. -/
def Context.Consistent (ctx : Context) : Prop := ctx.terminated = true ↔ ctx.response.isSome = true

namespace Middleware

/-- The turn of a middleware has a defined behaviour. -/
def Defined (gw : Gateway) (w : World) (req : RequestHeader) : Middleware → Prop
  | auth => AuthDefined gw w req
  | rateLimiter bucket => LimiterDefined w bucket
  | log => True

/-- Middlewares that had their turns, each with a context that the one before it left open: the
context and the state that they started with and ended with, and the middlewares afterwards. -/
inductive Ran (gw : Gateway) :
    Context → World → List Middleware → Context → World → List Middleware → Prop where
  | nil (ctx : Context) (w : World) : Ran gw ctx w [] ctx w []
  | cons {ctx ctx₁ ctx' : Context} {w w₁ w' : World} {mw mw' : Middleware}
      {mws mws' : List Middleware} (hopen : ctx.terminated = false)
      (hturn : process gw ctx mw w = (.ok (ctx₁, mw'), w₁))
      (hrest : Ran gw ctx₁ w₁ mws ctx' w' mws') : Ran gw ctx w (mw :: mws) ctx' w' (mw' :: mws')

/-! ## One turn -/

variable (gw : Gateway) {w : World} {ctx : Context}

/-- Every exit of `auth_middleware` keeps response and flag together. -/
theorem exists_auth_process_eq (hctx : ctx.Consistent) (hdef : AuthDefined gw w ctx.request) :
    ∃ ctx' w', auth.process gw ctx w = (.ok ctx', w') ∧ ctx'.request = ctx.request ∧
      ctx'.Consistent := by
  by_cases hpass : Passes gw w ctx.request
  · obtain ⟨db, id, h, -⟩ := auth_process_of_passes gw ctx hdef hpass
    exact ⟨_, _, h, rfl, hctx⟩
  · rw [Passes, not_or] at hpass
    obtain ⟨db, res, -, h⟩ := auth_process_of_not_authenticated gw ctx hpass.1 hdef hpass.2
    exact ⟨_, _, h, rfl, by simp [Context.Consistent, Context.reject]⟩

/-- Where the refill is defined, the limiter answers and leaves the request as it is. -/
theorem exists_rateLimiter_process_eq {bucket : TokenBucket} (hctx : ctx.Consistent)
    (hdef : LimiterDefined w bucket) :
    ∃ ctx' b w', rateLimiter.process gw bucket ctx w = (.ok (ctx', b), w') ∧
      ctx'.request = ctx.request ∧ ctx'.Consistent := by
  by_cases htokens : 1 ≤ (currentBucket w bucket).tokens
  · obtain ⟨b, h⟩ := rateLimiter_process_of_le gw ctx hdef htokens
    exact ⟨_, b, _, h, rfl, hctx⟩
  · obtain ⟨b, res, -, h⟩ := rateLimiter_process_of_lt gw ctx hdef htokens
    exact ⟨_, b, _, h, rfl, by simp [Context.Consistent, Context.reject]⟩

/-- A turn with a defined behaviour ends, and keeps response and flag together. -/
theorem exists_process_eq {mw : Middleware} (hctx : ctx.Consistent)
    (hdef : mw.Defined gw w ctx.request) :
    ∃ ctx' mw' w', process gw ctx mw w = (.ok (ctx', mw'), w') ∧ ctx'.request = ctx.request ∧
      ctx'.Consistent := by
  cases mw with
  | auth =>
    obtain ⟨ctx', w', h, hreq, hctx'⟩ := exists_auth_process_eq gw hctx hdef
    exact ⟨ctx', auth, w', process_auth_of_ok gw ctx h, hreq, hctx'⟩
  | rateLimiter bucket =>
    obtain ⟨ctx', b, w', h, hreq, hctx'⟩ := exists_rateLimiter_process_eq gw hctx hdef
    exact ⟨ctx', rateLimiter b, w', process_rateLimiter_of_ok gw ctx h, hreq, hctx'⟩
  | log => exact ⟨ctx, log, w, rfl, rfl, hctx⟩

/-- A middleware has no defined behaviour at an input where it is not defined. -/
theorem process_of_not_defined {mw : Middleware} (hdef : ¬ mw.Defined gw w ctx.request) :
    ∃ w', process gw ctx mw w = (.ub, w') := by
  cases mw with
  | auth =>
    obtain ⟨db, h⟩ := auth_process_of_not_defined gw ctx hdef
    exact ⟨_, Prog.bind_of_ub h _⟩
  | rateLimiter bucket =>
    exact ⟨_, Prog.bind_of_ub (rateLimiter_process_of_not_defined gw ctx hdef) _⟩
  | log => exact absurd trivial hdef

/-! ## The loop -/

variable {gw}

/-- The chain goes on behind a middleware unless that has terminated the context. -/
theorem processAll_cons_of_ok {ctx' : Context} {mw mw' : Middleware} {w' : World}
    (h : process gw ctx mw w = (.ok (ctx', mw'), w')) (mws : List Middleware) :
    processAll gw (mw :: mws) ctx w =
      if ctx'.terminated then (.ok (ctx', mw' :: mws), w')
      else (do
        let rs ← processAll gw mws ctx'
        return (rs.1, mw' :: rs.2) : Act _) w' := by
  rw [processAll, Prog.bind_of_ok h]
  split <;> rfl

/-- The chain stops at the first response, if no turn that is reached leaves defined behaviour. -/
theorem exists_ran_of_defined {mws : List Middleware} (hopen : ctx.terminated = false)
    (hctx : ctx.Consistent)
    (hdef : ∀ ran mw rest ctx' w' ran', mws = ran ++ mw :: rest → Ran gw ctx w ran ctx' w' ran' →
      ctx'.terminated = false → mw.Defined gw w' ctx.request) :
    ∃ ran rest ctx' w' ran', mws = ran ++ rest ∧ Ran gw ctx w ran ctx' w' ran' ∧
      (ctx'.terminated = true ∨ rest = []) ∧ ctx'.Consistent ∧
      processAll gw mws ctx w = (.ok (ctx', ran' ++ rest), w') := by
  induction mws generalizing ctx w with
  | nil => exact ⟨[], [], ctx, w, [], rfl, .nil ctx w, .inr rfl, hctx, rfl⟩
  | cons mw mws ih =>
    obtain ⟨ctx₁, mw', w₁, hturn, hreq, hctx₁⟩ := exists_process_eq gw hctx
      (hdef [] mw mws ctx w [] rfl (.nil ctx w) hopen)
    cases hterm : ctx₁.terminated with
    | true =>
      refine ⟨[mw], mws, ctx₁, w₁, [mw'], rfl, .cons hopen hturn (.nil ctx₁ w₁), .inl hterm,
        hctx₁, ?_⟩
      rw [processAll_cons_of_ok hturn, if_pos hterm]
      rfl
    | false =>
      -- the turns that are reached after this one are reached from the start
      obtain ⟨ran, rest, ctx', w', ran', rfl, hran, hstop, hctx', hall⟩ :=
        ih hterm hctx₁ fun _ _ _ _ _ _ hmws hran hlast => by
          rw [hreq]
          exact hdef _ _ _ _ _ _ (congrArg (mw :: ·) hmws) (.cons hopen hturn hran) hlast
      refine ⟨mw :: ran, rest, ctx', w', mw' :: ran', rfl, .cons hopen hturn hran, hstop, hctx', ?_⟩
      rw [processAll_cons_of_ok hturn, if_neg (by simp [hterm]), Prog.bind_of_ok hall]
      rfl

/-- A context that is open at the end was open at the start. -/
theorem Ran.open_of_open {mws mws' : List Middleware} {ctx' : Context} {w' : World}
    (h : Ran gw ctx w mws ctx' w' mws') (hlast : ctx'.terminated = false) :
    ctx.terminated = false := by
  cases h with
  | nil => exact hlast
  | cons hopen _ _ => exact hopen

/-- A middleware leaves the request as it is and the context consistent. -/
theorem process_request {ctx' : Context} {mw mw' : Middleware} {w' : World} (hctx : ctx.Consistent)
    (h : process gw ctx mw w = (.ok (ctx', mw'), w')) :
    ctx'.request = ctx.request ∧ ctx'.Consistent := by
  by_cases hdef : mw.Defined gw w ctx.request
  · obtain ⟨ctx₁, mw₁, w₁, hturn, hreq, hctx₁⟩ := exists_process_eq gw hctx hdef
    rw [h] at hturn
    cases hturn
    exact ⟨hreq, hctx₁⟩
  · obtain ⟨w₁, hub⟩ := process_of_not_defined gw hdef
    rw [h] at hub
    cases hub

/-- A turn that is reached and leaves defined behaviour takes the chain with it. -/
theorem Ran.processAll_of_not_defined {ran ran' : List Middleware} {ctx' : Context}
    {w' : World} {mw : Middleware} (h : Ran gw ctx w ran ctx' w' ran') (hctx : ctx.Consistent)
    (hlast : ctx'.terminated = false) (hdef : ¬ mw.Defined gw w' ctx.request)
    (rest : List Middleware) : ∃ w'', processAll gw (ran ++ mw :: rest) ctx w = (.ub, w'') := by
  induction h with
  | nil ctx w =>
    obtain ⟨w'', hub⟩ := process_of_not_defined gw hdef
    exact ⟨w'', Prog.bind_of_ub hub _⟩
  | cons hopen hturn hrest ih =>
    obtain ⟨hreq, hctx₁⟩ := process_request hctx hturn
    obtain ⟨w'', hub⟩ := ih hctx₁ hlast (hreq ▸ hdef)
    refine ⟨w'', ?_⟩
    rw [List.cons_append, processAll_cons_of_ok hturn,
      if_neg (by simp [hrest.open_of_open hlast]), Prog.bind_of_ub hub]

end Middleware

/-! ## The chain of a request -/

namespace Gateway

open Middleware

variable {gw : Gateway} {w : World} {req : RequestHeader}

/-- The chain stops with `ctx` after the turns of `ran`: the last of them terminated the context, or
nothing is left; `rest` is as it was; response and flag agree, so that the session can send the
response of a terminated context. -/
structure StopsAfter (gw : Gateway) (w : World) (req : RequestHeader)
    (ran rest : List Middleware) (ctx : Context) : Prop where
  chain_eq : w.chain = ran ++ rest
  stopped : ctx.terminated = true ∨ rest = []
  process_eq : ∃ w' ran', Ran gw (freshContext req) w ran ctx w' ran' ∧
    gw.processChain (freshContext req) w = (.ok ctx, { w' with chain := ran' ++ rest })
  response_iff : ctx.terminated = true ↔ ctx.response.isSome = true
  handleRequest_eq : ctx.terminated = true → ∃ res, ctx.response = some res ∧
    ∀ body, ∃ w', gw.handleRequest ⟨req, body⟩ w = (.ok none, w') ∧
      w'.trace.getLast? = some (.doWrite res)

/-- The session sends the response of a terminated context. -/
theorem handleRequest_of_terminated {ctx : Context} {w' : World} {res : Response}
    (h : gw.processChain (freshContext req) w = (.ok ctx, w')) (hterm : ctx.terminated = true)
    (hres : ctx.response = some res) (body : Bytes) :
    gw.handleRequest ⟨req, body⟩ w
      = (.ok none, { w' with trace := w'.trace ++ [.doWrite res] }) := by
  unfold handleRequest
  rw [Prog.bind_of_ok h, if_pos hterm, hres]
  rfl

/-- The fresh context holds no response. -/
theorem consistent_freshContext (req : RequestHeader) : (freshContext req).Consistent := by
  simp [Context.Consistent, freshContext]

/-- A reached turn without a defined behaviour leaves the chain without one. -/
theorem not_stopsAfter_of_not_defined {ran ran' rest : List Middleware} {mw : Middleware}
    {ctx : Context} {w' : World} (hchain : w.chain = ran ++ mw :: rest)
    (hran : Ran gw (freshContext req) w ran ctx w' ran') (hlast : ctx.terminated = false)
    (hdef : ¬ mw.Defined gw w' req) : ¬ ∃ ran rest ctx, StopsAfter gw w req ran rest ctx := by
  rintro ⟨_, _, _, hstops⟩
  obtain ⟨w₁, ran₁, -, heq⟩ := hstops.process_eq
  obtain ⟨w₂, hub⟩ := hran.processAll_of_not_defined (consistent_freshContext req) hlast hdef
    rest
  rw [← hchain] at hub
  rw [processChain_of_ub gw hub] at heq
  cases heq

/-- **The chain stops cleanly exactly where no turn that is reached leaves defined behaviour.** -/
theorem exists_stopsAfter_iff (gw : Gateway) (w : World) (req : RequestHeader) :
    (∃ ran rest ctx, StopsAfter gw w req ran rest ctx) ↔
      ∀ ran mw rest ctx w' ran', w.chain = ran ++ mw :: rest →
        Ran gw (freshContext req) w ran ctx w' ran' → ctx.terminated = false →
        mw.Defined gw w' req := by
  constructor
  · intro hstops ran mw rest ctx w' ran' hchain hran hlast
    by_contra hdef
    exact not_stopsAfter_of_not_defined hchain hran hlast hdef hstops
  · intro hdef
    obtain ⟨ran, rest, ctx, w', ran', hchain, hran, hstop, hctx, hall⟩ :=
      exists_ran_of_defined (show (freshContext req).terminated = false from rfl)
        (consistent_freshContext req) hdef
    have hprocess := processChain_of_ok gw hall
    refine ⟨ran, rest, ctx, hchain, hstop, ⟨w', ran', hran, hprocess⟩, hctx, ?_⟩
    intro hterm
    obtain ⟨res, hres⟩ := Option.isSome_iff_exists.mp (hctx.mp hterm)
    refine ⟨res, hres, fun body => ⟨_, handleRequest_of_terminated hprocess hterm hres body, ?_⟩⟩
    simp

/-- A single `auth_middleware`, and a token that does not fit its buffer. -/
theorem not_stopsAfter_longToken :
    ¬ ∃ ran rest ctx, StopsAfter (Gateway.small [] []) { World.small with chain := [.auth] }
      { method := .post, target := utf8 "/api/chat"
        fields := [(utf8 "Authorization", utf8 "Bearer " ++ List.replicate 256 97)] }
      ran rest ctx := by
  refine not_stopsAfter_of_not_defined (List.nil_append _).symm (.nil _ _) rfl ?_
  rw [Middleware.Defined]
  decide +kernel

end Gateway

end AiSwitch
