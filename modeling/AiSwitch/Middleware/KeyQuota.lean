import AiSwitch.Middleware.ChainRuns
import AiSwitch.Middleware.TokenRuns

/-!
# The quota of a key

The column `rate_limit` of `api_keys` is the number of requests per minute that a key may make,
meant for the limiter. The limiter has one bucket for all keys, whose capacity and rate stand in the
configuration, and never looks at the column. `quotaKept_iff` says for which configurations the
quota of a key is kept all the same.
-/

namespace AiSwitch

open ByteString Effect Http Mysql Transition

namespace TokenBucket

/-! ## What a bucket grants in a window -/

variable (b : TokenBucket) (lo hi : ℤ)

/-- The most that a second can bring. -/
def perSecond : ℤ := max (min b.refillRate b.capacity) 0

/-- What the bucket can still grant until `hi`. -/
def allowance : ℤ :=
  max b.tokens 0 + b.perSecond * elapsedSeconds (hi - b.lastRefill)

/-- The calls that are granted within a window. -/
def grantedWithin (as : List Acquisition) : ℕ :=
  as.countP fun a => a.granted ∧ lo ≤ a.now ∧ a.now2 ≤ hi

variable {b lo hi} {b' : TokenBucket} {a : Acquisition} {as : List Acquisition} {u : ℤ}

/-- A second brings no debt. -/
theorem perSecond_nonneg : 0 ≤ b.perSecond := le_max_right _ _

/-- What is due is never negative. -/
theorem allowance_nonneg (h : b.lastRefill ≤ hi) : 0 ≤ b.allowance hi := by
  have hspan : 0 ≤ elapsedSeconds (hi - b.lastRefill) := Int.tdiv_nonneg (by omega) (by decide)
  exact Int.add_nonneg (le_max_right _ _) (mul_nonneg perSecond_nonneg hspan)

/-- A refill brings no more than its seconds can. -/
theorem tokens_refilled_le_perSecond {now2 : ℤ} (h : 0 < elapsedSeconds (now2 - b.lastRefill)) :
    (b.refilled now2).tokens
      ≤ max b.tokens 0 + b.perSecond * elapsedSeconds (now2 - b.lastRefill) := by
  have htokens : b.tokens ≤ max b.tokens 0 := le_max_left _ _
  rcases le_total b.refillRate b.capacity with hle | hle
  · -- the rate is the limit
    have hrate : b.refillRate ≤ b.perSecond := by
      rw [perSecond, min_eq_left hle]
      exact le_max_left _ _
    have hmul := mul_le_mul_of_nonneg_right hrate h.le
    have hnew : (b.refilled now2).tokens ≤ b.newTokens now2 := tokens_refilled_le
    rw [newTokens, mul_comm _ b.refillRate] at hnew
    omega
  · -- the capacity is the limit, in each second
    have hcapacity : b.capacity ≤ b.perSecond := by
      rw [perSecond, min_eq_right hle]
      exact le_max_left _ _
    have hmul := mul_le_mul_of_nonneg_left (show 1 ≤ elapsedSeconds (now2 - b.lastRefill) from h)
      (perSecond_nonneg : 0 ≤ b.perSecond)
    have hfull : (b.refilled now2).tokens ≤ b.capacity := tokens_refilled_le_capacity
    have hzero : 0 ≤ max b.tokens 0 := le_max_right _ _
    omega

/-- Looking at the bucket adds nothing to what it can still grant. -/
theorem allowance_current_le (hhi : a.now2 ≤ hi) :
    (b.current a.now a.now2).allowance hi ≤ b.allowance hi := by
  by_cases h : b.Refills a.now a.now2
  · rw [current_of_refills h]
    have htokens := tokens_refilled_le_perSecond h.2
    have hlast := pos_of_elapsedSeconds_pos h.2
    have hadd := elapsedSeconds_add_le (d := a.now2 - b.lastRefill) (e := hi - a.now2)
      (by omega) (by omega)
    rw [show a.now2 - b.lastRefill + (hi - a.now2) = hi - b.lastRefill by omega] at hadd
    have hmul := mul_le_mul_of_nonneg_left hadd (perSecond_nonneg : 0 ≤ b.perSecond)
    have hmax : max (b.refilled a.now2).tokens 0
        ≤ max b.tokens 0 + b.perSecond * elapsedSeconds (a.now2 - b.lastRefill) :=
      max_le htokens (Int.add_nonneg (le_max_right _ _) (mul_nonneg perSecond_nonneg h.2.le))
    show max (b.refilled a.now2).tokens 0 + b.perSecond * elapsedSeconds (hi - a.now2) ≤ _
    rw [mul_add] at hmul
    rw [allowance]
    omega
  · rw [current_of_not_refills h]

/-- A call that begins before the window or ends after it does not count. -/
theorem grantedWithin_cons_of_outside (h : a.now < lo ∨ hi < a.now2) :
    grantedWithin lo hi (a :: as) = grantedWithin lo hi as := by
  have hout : ¬ (a.granted = true ∧ lo ≤ a.now ∧ a.now2 ≤ hi) := by omega
  rw [grantedWithin, List.countP_cons_of_neg (by simpa using hout), ← grantedWithin]

/-- What comes after the window is not in it. -/
theorem grantedWithin_of_lt (horder : InOrder u as) (hu : hi < u) : grantedWithin lo hi as = 0 := by
  induction as generalizing u with
  | nil => rfl
  | cons a as ih =>
    obtain ⟨hnow, hnow2, hrest⟩ := horder
    rw [grantedWithin_cons_of_outside (.inr (by omega))]
    exact ih hrest (by omega)

/-- A call takes from what can still be granted what it is granted. -/
theorem grantedWithin_cons_le (hone : a.tokens = 1) (hstep : acquire b a = some b')
    (hrest : grantedWithin lo hi as ≤ b'.allowance hi) :
    grantedWithin lo hi (a :: as) ≤ (b.current a.now a.now2).allowance hi := by
  obtain ⟨-, rfl, hgranted⟩ := acquire_cases hstep
  have hsame : (b.current a.now a.now2).allowance hi
      = max (b.current a.now a.now2).tokens 0 + ({ b.current a.now a.now2 with
          tokens := (b.current a.now a.now2).tokens - a.spent } : TokenBucket).allowance hi
        - max ((b.current a.now a.now2).tokens - a.spent) 0 := by
    simp only [allowance, perSecond]
    omega
  rw [hone] at hgranted
  by_cases hg : a.granted = true
  · have htokens := hgranted.mp hg
    have hspent : a.spent = 1 := by rw [Acquisition.spent, if_pos hg, hone]
    rw [hspent, max_eq_left (by omega), max_eq_left (by omega)] at hsame
    rw [hspent] at hrest
    have hcount : grantedWithin lo hi (a :: as) ≤ grantedWithin lo hi as + 1 := by
      rw [grantedWithin, List.countP_cons]
      split <;> simp [grantedWithin]
    omega
  · have hspent : a.spent = 0 := by rw [Acquisition.spent, if_neg hg]
    rw [hspent, Int.sub_zero] at hsame
    rw [hspent, Int.sub_zero] at hrest
    rw [grantedWithin, List.countP_cons_of_neg (by simp [hg])]
    rw [grantedWithin] at hrest
    omega

/-- From any state on, no more is granted than the bucket can still grant. -/
theorem grantedWithin_le_allowance (hlast : b.lastRefill ≤ u) (hhi : b.lastRefill ≤ hi)
    (horder : InOrder u as) (hone : ∀ a ∈ as, a.tokens = 1) (hrun : run acquire b as = some b') :
    grantedWithin lo hi as ≤ b.allowance hi := by
  induction as generalizing b u with
  | nil =>
    exact allowance_nonneg hhi
  | cons a as ih =>
    obtain ⟨m, hm, hrest⟩ := run_cons.mp hrun
    obtain ⟨hm', horder'⟩ := inOrder_acquire hlast horder hm
    by_cases hlate : hi < a.now2
    · -- neither this call nor a later one is in the window
      rw [grantedWithin_cons_of_outside (.inr hlate), grantedWithin_of_lt horder' hlate]
      exact allowance_nonneg hhi
    · have hcount :=
        ih hm' (by omega) horder' (fun c hc => hone c (List.mem_cons_of_mem a hc)) hrest
      exact (grantedWithin_cons_le (hone a List.mem_cons_self) hm hcount).trans
        (allowance_current_le (by omega))

/-- A call leaves the limits as they are, and the count within them. -/
theorem limits_of_acquire (hone : a.tokens = 1) (htokens : b.tokens ≤ b.capacity)
    (hstep : acquire b a = some b') :
    b'.capacity = b.capacity ∧ b'.perSecond = b.perSecond ∧ b'.tokens ≤ b'.capacity := by
  obtain ⟨-, rfl, -⟩ := acquire_cases hstep
  have hcurrent : (b.current a.now a.now2).tokens ≤ b.capacity := tokens_current_le_capacity htokens
  have hspent : 0 ≤ a.spent := by
    rw [Acquisition.spent, hone]
    split <;> decide
  refine ⟨by simp, by simp [perSecond], ?_⟩
  rw [capacity_current]
  show (b.current a.now a.now2).tokens - a.spent ≤ b.capacity
  omega

/-- **The limit over a window.** However the clock is read, and whatever happened before: within `n`
seconds a bucket grants at most its capacity and, for each of them, what a second can bring. -/
theorem grantedWithin_le {n : ℕ} (hlast : b.lastRefill ≤ u) (htokens : b.tokens ≤ b.capacity)
    (horder : InOrder u as) (hone : ∀ a ∈ as, a.tokens = 1) (hrun : run acquire b as = some b') :
    grantedWithin lo (lo + n * 1000000000) as ≤ max b.capacity 0 + n * b.perSecond := by
  induction as generalizing b u with
  | nil =>
    exact Int.add_nonneg (le_max_right _ _) (mul_nonneg (by omega) perSecond_nonneg)
  | cons a as ih =>
    obtain ⟨m, hm, hrest⟩ := run_cons.mp hrun
    obtain ⟨hm', horder'⟩ := inOrder_acquire hlast horder hm
    have hone' : ∀ c ∈ as, c.tokens = 1 := fun c hc => hone c (List.mem_cons_of_mem a hc)
    by_cases hearly : a.now < lo
    · -- the window has not begun
      obtain ⟨hcapacity, hrate, hfull⟩ := limits_of_acquire (hone a List.mem_cons_self) htokens hm
      have hcount := ih hm' hfull horder' hone' hrest
      rw [hcapacity, hrate] at hcount
      rw [grantedWithin_cons_of_outside (.inl hearly)]
      exact hcount
    by_cases hlate : lo + n * 1000000000 < a.now2
    · -- the window is over
      rw [grantedWithin_cons_of_outside (.inr hlate), grantedWithin_of_lt horder' hlate]
      exact Int.add_nonneg (le_max_right _ _) (mul_nonneg (by omega) perSecond_nonneg)
    · have hcount : grantedWithin lo (lo + n * 1000000000) (a :: as)
          ≤ (b.current a.now a.now2).allowance (lo + n * 1000000000) :=
        grantedWithin_cons_le (hone a List.mem_cons_self) hm
          (grantedWithin_le_allowance hm' (by omega) horder' hone' hrest)
      -- at most `n` whole seconds of it are not yet accounted for
      have hrecent := lt_lastRefill_current (b := b) horder.2.1
      have hspan : elapsedSeconds (lo + n * 1000000000 - (b.current a.now a.now2).lastRefill)
          ≤ n := by
        have hle : (b.current a.now a.now2).lastRefill ≤ a.now2 :=
          lastRefill_current_le (hlast.trans (horder.1.trans horder.2.1))
        rw [elapsedSeconds_of_nonneg (by omega)]
        omega
      have hmul := mul_le_mul_of_nonneg_left hspan (perSecond_nonneg : 0 ≤ b.perSecond)
      have hsame : (b.current a.now a.now2).perSecond = b.perSecond := by simp [perSecond]
      have hmax : max (b.current a.now a.now2).tokens 0 ≤ max b.capacity 0 :=
        max_le_max_right 0 (tokens_current_le_capacity htokens)
      rw [allowance, hsame] at hcount
      rw [mul_comm (n : ℤ) b.perSecond]
      omega

/-- Visits that are in order after some time are so after an earlier one. -/
theorem InOrder.mono {u' : ℤ} (h : InOrder u as) (hu : u' ≤ u) : InOrder u' as := by
  cases as with
  | nil => trivial
  | cons a as => exact ⟨hu.trans h.1, h.2⟩

/-- The step of the runs is the call of the source. -/
theorem tryAcquire_of_acquire (h : acquire b a = some b') :
    b.tryAcquire a.tokens a.now a.now2 = .ok (a.granted, b') := by
  unfold acquire at h
  split at h
  · rename_i granted m htry
    obtain ⟨hgranted, hm⟩ := Option.ite_none_right_eq_some.mp h
    rw [htry, hgranted, Option.some.inj hm]
  · cases h
  · cases h

end TokenBucket

namespace Middleware

open Repository TokenBucket

/-! ## The calls that the chain makes -/

instance (gw : Gateway) (w : World) (req : RequestHeader) : Decidable (Passes gw w req) :=
  inferInstanceAs (Decidable (_ ∨ _))

namespace Visit

/-- The call of the limiter, if the request gets there. -/
def call (v : Visit) : Acquisition := ⟨1, v.now, v.now2, !v.result.terminated⟩

/-- The requests come one after the other, from time `t` on. -/
def InOrder : ℤ → List Visit → Prop
  | _, [] => True
  | t, v :: visits => t ≤ v.now ∧ v.now ≤ v.now2 ∧ InOrder v.now2 visits

instance decidableInOrder : ∀ t visits, Decidable (InOrder t visits)
  | _, [] => isTrue trivial
  | t, v :: visits =>
    have := decidableInOrder v.now2 visits
    inferInstanceAs (Decidable (t ≤ v.now ∧ v.now ≤ v.now2 ∧ InOrder v.now2 visits))

end Visit

/-- The calls of the limiter in a run of the chain: those of the requests that `auth_middleware`
lets pass. -/
def limiterCalls (gw : Gateway) (visits : List Visit) : List Acquisition :=
  (visits.filter fun v => Passes gw (v.world []) v.request).map Visit.call

variable {gw : Gateway} {v : Visit} {visits : List Visit} {bucket b' : TokenBucket}
  {chain : List Middleware}

/-- A visit that passes the authentication calls the limiter. -/
theorem limiterCalls_cons_of_passes (h : Passes gw (v.world []) v.request) :
    limiterCalls gw (v :: visits) = v.call :: limiterCalls gw visits := by
  rw [limiterCalls, List.filter_cons_of_pos (by simpa using h), List.map_cons, ← limiterCalls]

/-- A visit that does not pass the authentication does not call the limiter. -/
theorem limiterCalls_cons_of_not_passes (h : ¬ Passes gw (v.world []) v.request) :
    limiterCalls gw (v :: visits) = limiterCalls gw visits := by
  rw [limiterCalls, List.filter_cons_of_neg (by simpa using h), ← limiterCalls]

/-- The calls come in the order of the visits. -/
theorem inOrder_limiterCalls {u : ℤ} (h : Visit.InOrder u visits) :
    TokenBucket.InOrder u (limiterCalls gw visits) := by
  induction visits generalizing u with
  | nil => trivial
  | cons v visits ih =>
    obtain ⟨hnow, hnow2, hrest⟩ := h
    by_cases hpass : Passes gw (v.world []) v.request
    · rw [limiterCalls_cons_of_passes hpass]
      exact ⟨hnow, hnow2, ih hrest⟩
    · rw [limiterCalls_cons_of_not_passes hpass]
      exact (ih hrest).mono (hnow.trans hnow2)

/-- What follows `auth_middleware` in the chain of `main`, by the answer of the limiter. -/
theorem processAll_limiter_of_acquire {ctx : Context} {w : World} (hctx : ctx.terminated = false)
    {granted : Bool} (h : acquire bucket
      ⟨1, (w.clock w.acquisitions).1, (w.clock w.acquisitions).2, granted⟩ = some b') :
    ∃ ctx', processAll gw [.rateLimiter bucket, .log] ctx w
        = (.ok (ctx', [.rateLimiter b', .log]), { w with acquisitions := w.acquisitions + 1 }) ∧
      ctx'.terminated = !granted ∧ (granted = true → ctx' = ctx) := by
  have htry := tryAcquire_of_acquire h
  cases granted with
  | true =>
    have hlimit : rateLimiter.process gw bucket ctx w
        = (.ok (ctx, b'), { w with acquisitions := w.acquisitions + 1 }) := by
      unfold rateLimiter.process
      rw [Prog.read_bind_apply, Prog.modify_bind_apply, htry]
      rfl
    rw [processAll_cons_of_passed gw ctx (process_rateLimiter_of_ok gw ctx hlimit) hctx]
    exact ⟨ctx, Prog.bind_of_ok (processAll_log gw ctx hctx _) _, hctx, fun _ => rfl⟩
  | false =>
    have hlimit : ∃ res, rateLimiter.process gw bucket ctx w
        = (.ok (ctx.reject res, b'), { w with acquisitions := w.acquisitions + 1 }) := by
      unfold rateLimiter.process
      rw [Prog.read_bind_apply, Prog.modify_bind_apply, htry, Prog.lift_ok_bind, if_neg (by simp)]
      exact ⟨_, Prog.bind_of_ok (ctx.rejectWith_apply gw _ _ _ _) _⟩
    obtain ⟨res, hres⟩ := hlimit
    exact ⟨ctx.reject res,
      processAll_cons_of_rejected gw ctx (process_rateLimiter_of_ok gw ctx hres) _, rfl, nofun⟩

/-- A request that passes `auth_middleware` makes its call. -/
theorem acquire_of_visit (hpass : Passes gw (v.world []) v.request)
    (hstep : visit gw (mainChain bucket) v = some chain) :
    ∃ b', acquire bucket v.call = some b' ∧ chain = mainChain b' := by
  have hdef := chainDefined_of_visit hstep
  obtain ⟨ctx, db, -, hctx, -, hchain⟩ :=
    gw.exists_processAll_mainChain_eq (v.world []) bucket hdef.1 hpass
  obtain ⟨granted, b', hacquire⟩ := exists_acquire (hdef.2 hpass) 1
  obtain ⟨ctx', htail, hterm, -⟩ := @processAll_limiter_of_acquire gw bucket b' ctx
    { v.world (mainChain bucket) with db := db, trace := lookups gw (v.world []) v.request }
    hctx granted hacquire
  obtain ⟨hresult, hchain'⟩ := visit_of_ok
    (gw.processChain_of_ok (hchain.trans (Prog.bind_of_ok htail _))) hstep
  have hcall : v.call = ⟨1, v.now, v.now2, granted⟩ := by
    rw [Visit.call, hresult]
    show (⟨1, v.now, v.now2, !ctx'.terminated⟩ : Acquisition) = _
    rw [hterm, Bool.not_not]
  exact ⟨b', hcall ▸ hacquire, hchain'⟩

/-- **The chain runs the bucket.** What a run of the chain does to the bucket is what its calls
do. -/
theorem run_limiterCalls (hrun : run (visit gw) (mainChain bucket) visits = some chain) :
    ∃ b', run acquire bucket (limiterCalls gw visits) = some b' ∧ chain = mainChain b' := by
  induction visits generalizing bucket with
  | nil =>
    cases hrun
    exact ⟨bucket, rfl, rfl⟩
  | cons v visits ih =>
    obtain ⟨chain₁, hv, hrest⟩ := run_cons.mp hrun
    by_cases hpass : Passes gw (v.world []) v.request
    · obtain ⟨b₁, hb₁, rfl⟩ := acquire_of_visit hpass hv
      obtain ⟨b', hb', hchain⟩ := ih hrest
      rw [limiterCalls_cons_of_passes hpass]
      exact ⟨b', run_cons.mpr ⟨b₁, hb₁, hb'⟩, hchain⟩
    · rw [Passes, not_or] at hpass
      obtain rfl := visit_of_not_accepted hpass.1 (fun hkey => hpass.2 hkey.2) hv
      obtain ⟨b', hb', hchain⟩ := ih hrest
      rw [limiterCalls_cons_of_not_passes (by rw [Passes, not_or]; exact hpass)]
      exact ⟨b', hb', hchain⟩

/-! ## The quota -/

/-- The request is let through under the key of the row, which the database found for it. -/
def Visit.LetThrough (gw : Gateway) (row : Row) (v : Visit) : Prop :=
  v.Accepted gw ∧ v.keyResult gw = { info := rowInfo row, found := true } ∧
    v.result.terminated = false

instance (gw : Gateway) (row : Row) : DecidablePred (Visit.LetThrough gw row) :=
  fun _ => inferInstanceAs (Decidable (_ ∧ _))

/-- The number of requests that are let through under the key of the row in the 60 seconds from `lo`
on. -/
def letThrough (gw : Gateway) (row : Row) (lo : ℤ) (visits : List Visit) : ℕ :=
  visits.countP fun v => v.LetThrough gw row ∧ lo ≤ v.now ∧ v.now2 ≤ lo + 60 * 1000000000

/-- The quota of every key that may make `r` requests per minute is kept where the limiter has the
capacity `C` and the rate `R`: in any 60 seconds of any run no more are let through than a full
burst and the refill of a minute. -/
def QuotaKept (C R r : ℤ) : Prop :=
  ∀ (gw : Gateway) (row : Row) (t0 lo : ℤ) (visits : List Visit) (chain : List Middleware),
    row.rateLimit = r → Visit.InOrder t0 visits →
    run (visit gw) (mainChain (init C R t0)) visits = some chain →
    letThrough gw row lo visits ≤ 2 * r

/-- A request that is let through is a call that is granted. -/
theorem letThrough_le (gw : Gateway) (row : Row) (lo : ℤ) (visits : List Visit) :
    letThrough gw row lo visits
      ≤ grantedWithin lo (lo + 60 * 1000000000) (limiterCalls gw visits) := by
  unfold letThrough grantedWithin limiterCalls
  rw [List.countP_map, List.countP_filter]
  apply List.countP_mono_left
  intro v _ hv
  obtain ⟨⟨⟨-, hauth⟩, -, hterm⟩, hwindow⟩ := of_decide_eq_true hv
  have hgranted : v.call.granted = true := by rw [Visit.call, hterm]; rfl
  have hpass : Passes gw (v.world []) v.request := .inr hauth
  rw [Bool.and_eq_true]
  exact ⟨decide_eq_true ⟨hgranted, hwindow⟩, decide_eq_true hpass⟩

/-- The limits of the configuration are enough for a quota. -/
theorem quotaKept_of_le {C R r : ℤ} (h : max C 0 + 60 * max (min R C) 0 ≤ 2 * r) :
    QuotaKept C R r := by
  intro gw row t0 lo visits chain _ horder hrun
  obtain ⟨b', hcalls, -⟩ := run_limiterCalls hrun
  have hone : ∀ a ∈ limiterCalls gw visits, a.tokens = 1 := by
    intro a ha
    obtain ⟨v, -, rfl⟩ := List.mem_map.mp ha
    rfl
  have hcount := letThrough_le gw row lo visits
  have hgranted : grantedWithin lo (lo + 60 * 1000000000) (limiterCalls gw visits)
      ≤ max C 0 + 60 * max (min R C) 0 :=
    grantedWithin_le (n := 60) le_rfl le_rfl (inOrder_limiterCalls horder) hone hcalls
  omega

/-! ### A run that takes all there is -/

/-- A request with the key of a row that may make `r` requests per minute, let through at time
`now`. -/
def Visit.granted (r now : ℤ) : Visit where
  request := Visit.keyRequest
  db := { table := [⟨1, utf8 "k", utf8 "test", r, 1⟩], idle := [some 0] }
  now := now
  now2 := now
  result := { request := Visit.keyRequest, apiKeyId := 1 }

/-- The row of its key. -/
def Visit.keyRow (r : ℤ) : Row := ⟨1, utf8 "k", utf8 "test", r, 1⟩

variable (r : ℤ) {now : ℤ} {b : TokenBucket}

/-- The key of a granted visit is found. -/
theorem keyResult_granted (now : ℤ) : (Visit.granted r now).keyResult (.small [] [])
    = { info := rowInfo (Visit.keyRow r), found := true } := by
  have hkey : (Gateway.small [] []).backend.collates (Visit.keyRow r).apiKey
      (extractBearerToken Visit.keyRequest) = true := by
    show (utf8 "k" == extractBearerToken Visit.keyRequest) = true
    decide +kernel
  have hfind : ([Visit.keyRow r].find? fun row => (Gateway.small [] []).backend.collates row.apiKey
      (extractBearerToken Visit.keyRequest)) = some (Visit.keyRow r) :=
    List.find?_cons_of_pos hkey
  have hresult : (Visit.granted r now).keyResult (.small [] [])
      = rowResult ([Visit.keyRow r].find? fun row =>
        (Gateway.small [] []).backend.collates row.apiKey
          (extractBearerToken Visit.keyRequest)) := by
    unfold Visit.keyResult Middleware.keyResult findResult
    exact if_pos ⟨by simp [Visit.granted, Visit.world, Db.connection], rfl, rfl⟩
  rw [hresult, hfind]
  rfl

/-- A granted visit is accepted. -/
theorem accepted_granted (now : ℤ) : (Visit.granted r now).Accepted (.small [] []) := by
  have hpath : ¬ Whitelisted Visit.keyRequest.target := by decide +kernel
  have htoken : extractBearerToken Visit.keyRequest ≠ [] := by decide +kernel
  have hfound := congrArg ApiKeyResult.found (keyResult_granted r now)
  exact ⟨hpath, htoken, hfound⟩

/-- Where the bucket grants a token, the request is let through. -/
theorem visit_granted (h : acquire b ⟨1, now, now, true⟩ = some b') :
    visit (.small [] []) (mainChain b) (Visit.granted r now) = some (mainChain b') := by
  obtain ⟨hpath, hauthenticated⟩ := accepted_granted r now
  have hfits : Escaping.ascii.Fits (extractBearerToken Visit.keyRequest) := by decide +kernel
  obtain ⟨db, hauth⟩ := auth_process_of_authenticated
    (w := (Visit.granted r now).world (mainChain b)) (.small [] [])
    (Gateway.freshContext Visit.keyRequest) hpath (.inr (.inr (.inr hfits))) hauthenticated
  have hid : (Middleware.keyResult (.small [] []) ((Visit.granted r now).world (mainChain b))
      Visit.keyRequest).info.id = 1 :=
    congrArg (fun result => result.info.id) (keyResult_granted r now)
  rw [show (Gateway.freshContext Visit.keyRequest).request = Visit.keyRequest from rfl, hid]
    at hauth
  have hchain := processAll_cons_of_passed (.small [] []) _ (process_auth_of_ok _ _ hauth) rfl
    [.rateLimiter b, .log]
  obtain ⟨ctx, htail, -, hctx⟩ := @processAll_limiter_of_acquire (.small [] []) b b'
    (Visit.granted r now).result
    { (Visit.granted r now).world (mainChain b) with
      db := db, trace := lookups (.small [] []) ((Visit.granted r now).world []) Visit.keyRequest }
    rfl true h
  rw [hctx rfl] at htail
  have hvisit := (Gateway.small [] []).processChain_of_ok
    (w := (Visit.granted r now).world (mainChain b)) (hchain.trans (Prog.bind_of_ok htail _))
  unfold visit
  rw [show (Visit.granted r now).request = Visit.keyRequest from rfl, hvisit]
  exact if_pos rfl

/-- A burst of `k` requests at one time. -/
def burst (now : ℤ) (k : ℕ) : List Visit := List.replicate k (Visit.granted r now)

/-- A burst of `k` requests in each of the `n` seconds after `t`. -/
def bursts (k : ℕ) : ℕ → ℤ → List Visit
  | 0, _ => []
  | n + 1, t => burst r (t + 1000000000) k ++ bursts k n (t + 1000000000)

/-- First all the tokens, and then a minute long what each second brings. -/
def greedy (C R : ℤ) : List Visit := burst r 0 C.toNat ++ bursts r (max (min R C) 0).toNat 60 0

variable {C R t : ℤ} {k n : ℕ}

/-- Within a second the tokens are taken one by one. -/
theorem run_burst {tokens : ℤ} (h : k ≤ tokens) :
    run (visit (.small [] [])) (mainChain ⟨tokens, C, R, t⟩) (burst r t k)
      = some (mainChain ⟨tokens - k, C, R, t⟩) := by
  induction k generalizing tokens with
  | zero => simp [burst, run]
  | succ k ih =>
    push_cast at h
    have hacquire : acquire ⟨tokens, C, R, t⟩ ⟨1, t, t, true⟩ = some ⟨tokens - 1, C, R, t⟩ := by
      simp [acquire, tryAcquire, refill, elapsedSeconds, show 1 ≤ tokens by omega]
    refine run_cons.mpr ⟨_, visit_granted r hacquire, ?_⟩
    have hrest := @ih (tokens - 1) (by omega)
    rw [show tokens - 1 - (k : ℤ) = tokens - (k + 1 : ℕ) by omega] at hrest
    exact hrest

/-- A second later an empty bucket is refilled, and emptied again. -/
theorem run_burst_refilled (hR : InInt64 R) (hk : (k : ℤ) = min R C) (hpos : 0 < k) :
    run (visit (.small [] [])) (mainChain ⟨0, C, R, t⟩) (burst r (t + 1000000000) k)
      = some (mainChain ⟨0, C, R, t + 1000000000⟩) := by
  obtain ⟨j, rfl⟩ : ∃ j, k = j + 1 := ⟨k - 1, by omega⟩
  have hrefilled : (if C < R then C else R) = min R C := by
    split <;> omega
  have hacquire : acquire ⟨0, C, R, t⟩ ⟨1, t + 1000000000, t + 1000000000, true⟩
      = some ⟨min R C - 1, C, R, t + 1000000000⟩ := by
    simp [acquire, tryAcquire, refill, elapsedSeconds, RefillFits, newTokens, refilled, hR,
      hrefilled, show 1 ≤ min R C by omega]
  refine run_cons.mpr ⟨_, visit_granted r hacquire, ?_⟩
  have hrest := @run_burst r C R (t + 1000000000) j (min R C - 1) (by omega)
  rw [show min R C - 1 - (j : ℤ) = 0 by omega] at hrest
  exact hrest

/-- Bursts of what a second brings are let through one after another. -/
theorem run_bursts (hR : InInt64 R) (hk : (k : ℤ) = min R C) (hpos : 0 < k) :
    run (visit (.small [] [])) (mainChain ⟨0, C, R, t⟩) (bursts r k n t)
      = some (mainChain ⟨0, C, R, t + n * 1000000000⟩) := by
  induction n generalizing t with
  | zero => simp [bursts, run]
  | succ n ih =>
    have hrest := run_append (run_burst_refilled r hR hk hpos) (@ih (t + 1000000000))
    rw [show t + 1000000000 + (n : ℤ) * 1000000000 = t + (n + 1 : ℕ) * 1000000000 by
      push_cast; omega] at hrest
    exact hrest

/-- Bursts of nothing are nothing. -/
theorem bursts_zero : bursts r 0 n t = [] := by
  induction n generalizing t with
  | zero => rfl
  | succ n ih => exact ih

/-- The greedy schedule is a run of the chain. -/
theorem exists_run_greedy (hR : InInt64 R) :
    ∃ chain, run (visit (.small [] [])) (mainChain (init C R 0)) (greedy r C R) = some chain := by
  rw [greedy]
  by_cases hpos : 0 < min R C
  · rw [max_eq_left hpos.le]
    have hfirst := @run_burst r C R 0 C.toNat C (by omega)
    rw [show C - (C.toNat : ℤ) = 0 by omega] at hfirst
    exact ⟨_, run_append hfirst (run_bursts r hR (by omega) (by omega))⟩
  · rw [max_eq_right (by omega), Int.toNat_zero, bursts_zero, List.append_nil]
    by_cases hC : 0 ≤ C
    · exact ⟨_, run_burst r (by omega)⟩
    · rw [show C.toNat = 0 by omega]
      exact ⟨_, rfl⟩

/-- A burst may come before visits in order. -/
theorem inOrder_burst_append {u : ℤ} {visits : List Visit} (hu : u ≤ t)
    (h : Visit.InOrder t visits) : Visit.InOrder u (burst r t k ++ visits) := by
  induction k generalizing u with
  | zero =>
    cases visits with
    | nil => trivial
    | cons v visits => exact ⟨hu.trans h.1, h.2⟩
  | succ k ih => exact ⟨hu, le_rfl, ih le_rfl⟩

/-- Bursts are in order. -/
theorem inOrder_bursts : Visit.InOrder t (bursts r k n t) := by
  induction n generalizing t with
  | zero => trivial
  | succ n ih => exact inOrder_burst_append r (by omega) ih

/-- Every visit of the bursts falls into their time. -/
theorem mem_bursts {v : Visit} (h : v ∈ bursts r k n t) :
    ∃ now, t ≤ now ∧ now ≤ t + n * 1000000000 ∧ v = Visit.granted r now := by
  induction n generalizing t with
  | zero => cases h
  | succ n ih =>
    rcases List.mem_append.mp h with h | h
    · exact ⟨t + 1000000000, by omega, by push_cast; omega, List.eq_of_mem_replicate h⟩
    · obtain ⟨now, hfrom, hto, rfl⟩ := ih h
      exact ⟨now, by omega, by push_cast; omega, rfl⟩

/-- Bursts are as many visits as their seconds and sizes say. -/
theorem length_bursts : (bursts r k n t).length = n * k := by
  induction n generalizing t with
  | zero => simp [bursts]
  | succ n ih =>
    rw [bursts, List.length_append, ih, burst, List.length_replicate, Nat.succ_mul, Nat.add_comm]

/-- The greedy schedule is let through in full and reaches the bound for 60 seconds. -/
theorem letThrough_greedy : (letThrough (.small [] []) (Visit.keyRow r) 0 (greedy r C R) : ℤ)
    = max C 0 + 60 * max (min R C) 0 := by
  have hall : letThrough (.small [] []) (Visit.keyRow r) 0 (greedy r C R)
      = (greedy r C R).length := by
    apply List.countP_eq_length.mpr
    intro v hv
    obtain ⟨now, hfrom, hto, rfl⟩ : ∃ now, 0 ≤ now ∧ now ≤ 60 * 1000000000 ∧
        v = Visit.granted r now := by
      rcases List.mem_append.mp hv with hv | hv
      · exact ⟨0, le_rfl, by omega, List.eq_of_mem_replicate hv⟩
      · obtain ⟨now, hfrom, hto, rfl⟩ := mem_bursts r hv
        exact ⟨now, hfrom, by omega, rfl⟩
    exact decide_eq_true ⟨⟨accepted_granted r now, keyResult_granted r now, rfl⟩, hfrom, by
      rw [Int.zero_add]
      exact hto⟩
  rw [hall, greedy, List.length_append, length_bursts, burst, List.length_replicate]
  push_cast
  omega

/-- **When a quota is kept.** In every run of requests that pass the chain one after another, and in
any 60 seconds of it, no more requests are let through under a key than twice what its row allows
per minute, exactly if the capacity of the one bucket and 60 times what a second can bring are no
more than that. -/
theorem quotaKept_iff (C R r : ℤ) (hR : InInt64 R) :
    QuotaKept C R r ↔ max C 0 + 60 * max (min R C) 0 ≤ 2 * r := by
  refine ⟨fun h => ?_, quotaKept_of_le⟩
  obtain ⟨chain, hrun⟩ := @exists_run_greedy r C R hR
  have horder : Visit.InOrder 0 (greedy r C R) := inOrder_burst_append r le_rfl (inOrder_bursts r)
  have hquota := h (.small [] []) (Visit.keyRow r) 0 0 (greedy r C R) chain rfl horder hrun
  rw [letThrough_greedy] at hquota
  exact hquota

/-- A key with 60 requests per minute, behind a bucket of 60 tokens that gains one a second. -/
theorem quotaKept_iff_sixty : QuotaKept 60 1 60 :=
  (quotaKept_iff 60 1 60 (by decide)).mpr (by decide)

/-- Behind a bucket of three tokens, a key with one request per minute makes three at once. -/
theorem not_quotaKept_three : ¬ QuotaKept 3 3 1 := by
  intro h
  have hquota := h (.small [] []) (Visit.keyRow 1) 0 0
    [.granted 1 0, .granted 1 0, .granted 1 0] (mainChain ⟨0, 3, 3, 0⟩) rfl (by decide)
    (by decide +kernel)
  revert hquota
  decide +kernel

end Middleware

end AiSwitch
