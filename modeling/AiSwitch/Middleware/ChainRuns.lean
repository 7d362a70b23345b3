import AiSwitch.Common.Transition
import AiSwitch.Middleware.Chain

/-!
# Runs of the middleware chain

Requests reach the chain of `main` one after another. All that one leaves for the next is the state
of the middlewares, the token bucket; what the database holds and what the clock reads when a
request arrives is given with it.

`rate_limiter_middleware` stands behind `auth_middleware` so that a request without a valid key
spends no token. It is enough for this that no request is for a path that needs no key
(`only_authenticated_spend`): such a request passes `auth_middleware` and takes a token
(`not_only_authenticated_spend_health`).
-/

namespace AiSwitch

open ByteString Effect Http Mysql Transition

deriving instance DecidableEq for Context

namespace Middleware

/-- A request that arrives at the chain, and the context in which the chain leaves it. -/
structure Visit where
  request : RequestHeader
  db : Db
  now : ℤ
  now2 : ℤ
  result : Context

namespace Visit

variable (gw : Gateway) (v : Visit)

/-- The state of the gateway when the request arrives. -/
def world (chain : List Middleware) : World where
  db := v.db
  chain := chain
  clock _ := (v.now, v.now2)

/-- What the database says about the key of the request. -/
def keyResult : ApiKeyResult := Middleware.keyResult gw (v.world []) v.request

/-- `auth_middleware` accepts an API key for the request. -/
def Accepted : Prop := ¬ Whitelisted v.request.target ∧ Authenticated gw (v.world []) v.request

instance : Decidable (v.Accepted gw) := inferInstanceAs (Decidable (_ ∧ _))

end Visit

variable (gw : Gateway)

/-- One request goes through the chain, `none` where it is left in another context or where the
behaviour of the chain is not defined. -/
def visit (chain : List Middleware) (v : Visit) : Option (List Middleware) :=
  match gw.processChain (Gateway.freshContext v.request) (v.world chain) with
  | (.ok ctx, w) => if ctx = v.result then some w.chain else none
  | (.throw _, _) | (.ub, _) => none

variable {gw} {v : Visit} {bucket : TokenBucket} {chain : List Middleware}

/-- A visit that the chain answers has that answer as its result. -/
theorem visit_of_ok {ctx : Context} {w : World}
    (h : gw.processChain (Gateway.freshContext v.request) (v.world chain) = (.ok ctx, w))
    {chain' : List Middleware} (hstep : visit gw chain v = some chain') :
    v.result = ctx ∧ chain' = w.chain := by
  rw [visit, h] at hstep
  obtain ⟨hctx, hchain⟩ := Option.ite_none_right_eq_some.mp hstep
  exact ⟨hctx.symm, (Option.some.inj hchain).symm⟩

/-- A visit without defined behaviour ends the run. -/
theorem visit_of_ub {w : World}
    (h : gw.processChain (Gateway.freshContext v.request) (v.world chain) = (.ub, w)) :
    visit gw chain v = none := by
  rw [visit, h]

/-- A request that has gone through the chain met a defined behaviour of it. -/
theorem chainDefined_of_visit (hstep : visit gw (mainChain bucket) v = some chain) :
    ChainDefined gw (v.world []) bucket v.request := by
  by_contra hdef
  obtain ⟨w', hub, -⟩ := gw.processChain_of_not_defined (v.world []) hdef
  have hnone : visit gw (mainChain bucket) v = none := visit_of_ub hub
  rw [hnone] at hstep
  cases hstep

/-- A request for which no key is accepted is answered before it reaches the limiter. -/
theorem visit_of_not_accepted (hpath : ¬ Whitelisted v.request.target) (hkey : ¬ v.Accepted gw)
    (hstep : visit gw (mainChain bucket) v = some chain) : chain = mainChain bucket := by
  obtain ⟨db, res, -, hauth⟩ := auth_process_of_not_authenticated (w := v.world (mainChain bucket))
    gw (Gateway.freshContext v.request) hpath (chainDefined_of_visit hstep).1
    fun h => hkey ⟨hpath, h⟩
  have hchain := processAll_cons_of_rejected gw _ (process_auth_of_ok gw _ hauth)
    [.rateLimiter bucket, .log]
  exact (visit_of_ok (gw.processChain_of_ok hchain) hstep).2

/-- Whether or not the limiter lets a request pass, it keeps the id of its key. -/
theorem processAll_limiter_apiKeyId (ctx : Context) {w : World} (hctx : ctx.terminated = false)
    (h : LimiterDefined w bucket) :
    ∃ ctx' b w', processAll gw [.rateLimiter bucket, .log] ctx w
        = (.ok (ctx', [.rateLimiter b, .log]), w') ∧ ctx'.apiKeyId = ctx.apiKeyId := by
  by_cases htokens : 1 ≤ (currentBucket w bucket).tokens
  · obtain ⟨b, htail⟩ := processAll_limiter_of_le gw ctx hctx h htokens
    exact ⟨ctx, b, _, htail, rfl⟩
  · obtain ⟨res, b, -, htail⟩ := processAll_limiter_of_lt gw ctx h htokens
    exact ⟨ctx.reject res, b, _, htail, rfl⟩

/-- A request with a key goes on to the limiter under the id of that key. -/
theorem visit_of_accepted (hkey : v.Accepted gw)
    (hstep : visit gw (mainChain bucket) v = some chain) :
    v.result.apiKeyId = (v.keyResult gw).info.id ∧ ∃ b, chain = mainChain b := by
  obtain ⟨hpath, hfound⟩ := hkey
  have hdef := chainDefined_of_visit hstep
  obtain ⟨db, hauth⟩ := auth_process_of_authenticated (w := v.world (mainChain bucket)) gw
    (Gateway.freshContext v.request) hpath hdef.1 hfound
  have hchain := processAll_cons_of_passed gw _ (process_auth_of_ok gw _ hauth) rfl
    [.rateLimiter bucket, .log]
  have hlimiter : LimiterDefined (v.world []) bucket := hdef.2 (.inr hfound)
  obtain ⟨ctx, b, w, htail, hid⟩ := processAll_limiter_apiKeyId
    (w := { v.world (mainChain bucket) with
      db := db, trace := lookups gw (v.world []) v.request })
    { Gateway.freshContext v.request with apiKeyId := (v.keyResult gw).info.id } rfl hlimiter
  obtain ⟨hresult, hchain'⟩ :=
    visit_of_ok (gw.processChain_of_ok (hchain.trans (Prog.bind_of_ok htail _))) hstep
  exact ⟨by rw [hresult, hid], b, hchain'⟩

/-! ## Whole runs -/

/-- Without paths that need no key, one request is either answered by `auth_middleware`, which
leaves every middleware as it was, or accepted. -/
theorem visit_cases (hpath : ¬ Whitelisted v.request.target)
    (hstep : visit gw (mainChain bucket) v = some chain) :
    ¬ v.Accepted gw ∧ chain = mainChain bucket ∨
      v.Accepted gw ∧ v.result.apiKeyId = (v.keyResult gw).info.id ∧
        ∃ b, chain = mainChain b := by
  by_cases hkey : v.Accepted gw
  · exact .inr ⟨hkey, visit_of_accepted hkey hstep⟩
  · exact .inl ⟨hkey, visit_of_not_accepted hpath hkey hstep⟩

/-- **Only authenticated requests spend tokens**, as long as no request is for a path that needs no
key. For every gateway, bucket and run of requests, with any headers, key tables and times: a
request that changes the state of a middleware has had its API key accepted and carries its id;
and without any of the requests whose key is not accepted the others are left in the same
contexts, and the middlewares in the same state. -/
theorem only_authenticated_spend {visits : List Visit} {chain' : List Middleware}
    (hpaths : ∀ v ∈ visits, ¬ Whitelisted v.request.target)
    (hrun : run (visit gw) (mainChain bucket) visits = some chain') :
    (∀ before v after chain₁ chain₂, visits = before ++ v :: after →
        run (visit gw) (mainChain bucket) before = some chain₁ → visit gw chain₁ v = some chain₂ →
        chain₂ ≠ chain₁ → v.Accepted gw ∧ v.result.apiKeyId = (v.keyResult gw).info.id) ∧
      ∀ others, Inserts (fun v => ¬ v.Accepted gw) others visits →
        run (visit gw) (mainChain bucket) others = some chain' := by
  have hstep : ∀ chain v chain', (∃ b, chain = mainChain b) → ¬ Whitelisted v.request.target →
      visit gw chain v = some chain' → ∃ b, chain' = mainChain b := by
    rintro _ v chain' ⟨b, rfl⟩ hpath hvisit
    rcases visit_cases hpath hvisit with ⟨-, hchain⟩ | ⟨-, -, hchain⟩
    · exact ⟨b, hchain⟩
    · exact hchain
  have hresp : ∀ {vs : List Visit}, (∀ v ∈ vs, ¬ Whitelisted v.request.target) →
      Respects (visit gw) (fun _ v => ¬ Whitelisted v.request.target) (mainChain bucket) vs :=
    fun h => respects_of_forall h
  constructor
  · intro before v after chain₁ chain₂ hvisits hbefore hvisit hne
    obtain ⟨b, rfl⟩ := invariant_run hstep ⟨bucket, rfl⟩
      (hresp fun u hu => hpaths u (by simp [hvisits, hu])) hbefore
    rcases visit_cases (hpaths v (by simp [hvisits])) hvisit with ⟨-, hchain⟩ | ⟨hkey, hid, -⟩
    · exact absurd hchain hne
    · exact ⟨hkey, hid⟩
  · intro others hins
    refine run_of_inserts hstep ?_ hins ⟨bucket, rfl⟩ (hresp hpaths) hrun
    rintro _ v chain' ⟨b, rfl⟩ hpath hkey hvisit
    exact visit_of_not_accepted hpath hkey hvisit

/-! ## A path that needs no key -/

/-- A request at time 0, with the key `k` in the table. -/
def Visit.small (request : RequestHeader) (result : Context) : Visit where
  request := request
  db := { table := [⟨1, utf8 "k", utf8 "test", 60, 1⟩], idle := [some 0] }
  now := 0
  now2 := 0
  result := result

/-- A request without a key is turned away. -/
def Visit.noKey : Visit :=
  let request : RequestHeader := { method := .post, target := utf8 "/api/chat" }
  .small request (Context.reject { request := request } ((Gateway.small [] []).errorResult
    .unauthorized "auth_failed" (utf8 "缺少有效的 Authorization 头, 格式: Bearer <api_key>") request))

/-- A health check needs no key. -/
def Visit.health : Visit :=
  let request : RequestHeader := { method := .get, target := utf8 "/health" }
  .small request { request := request }

/-- The header of a request with the key. -/
def Visit.keyRequest : RequestHeader where
  method := .post
  target := utf8 "/api/chat"
  fields := [(utf8 "Authorization", utf8 "Bearer k")]

/-- A request with the key, let through. -/
def Visit.admitted : Visit := .small keyRequest { request := keyRequest, apiKeyId := 1 }

/-- The same request, refused by the limiter. -/
def Visit.limited : Visit :=
  .small keyRequest (Context.reject { request := keyRequest, apiKeyId := 1 }
    ((Gateway.small [] []).errorResult .tooManyRequests "rate_limited"
      (utf8 "请求过于频繁, 请稍后重试") keyRequest))

/-- A request without a key before one with a key takes nothing from it. -/
theorem only_authenticated_spend_no_key :
    run (visit (.small [] [])) (mainChain ⟨1, 1, 0, 0⟩) [.admitted]
      = some (mainChain ⟨0, 1, 0, 0⟩) :=
  (@only_authenticated_spend (.small [] []) ⟨1, 1, 0, 0⟩ [.noKey, .admitted]
    (mainChain ⟨0, 1, 0, 0⟩) (by decide +kernel) (by decide +kernel)).2 [.admitted]
    (.insert (by decide +kernel) (.keep _ .nil))

/-- A health check, for which no key is accepted, takes the only token: the request after it is
let through without it and refused with it. -/
theorem not_only_authenticated_spend_health :
    ¬ Visit.health.Accepted (.small [] []) ∧
      run (visit (.small [] [])) (mainChain ⟨1, 1, 0, 0⟩) [.health]
        = some (mainChain ⟨0, 1, 0, 0⟩) ∧
      run (visit (.small [] [])) (mainChain ⟨1, 1, 0, 0⟩) [.admitted]
        = some (mainChain ⟨0, 1, 0, 0⟩) ∧
      run (visit (.small [] [])) (mainChain ⟨1, 1, 0, 0⟩) [.health, .limited]
        = some (mainChain ⟨0, 1, 0, 0⟩) ∧
      run (visit (.small [] [])) (mainChain ⟨1, 1, 0, 0⟩) [.health, .admitted] = none := by
  decide +kernel

end Middleware

end AiSwitch
