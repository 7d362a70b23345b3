import AiSwitch.Common.Graded
import AiSwitch.Middleware.KeyQuota
import AiSwitch.Server.Authorization
import AiSwitch.Server.RequestRule

/-!
# How often adapters are called

Each call of an adapter costs the operator money. A request is answered by at most one call
(`calls_serve_of_passed`), whatever its body asks for, and only if the limiter has granted a token
for it. So the bound on what the bucket grants is a bound on the calls: `adapter_calls_le` says how
many there are at most in any stretch of time of any run of requests that are handled one after
another, on any paths and under any keys.
-/

namespace AiSwitch

open ByteString Effect Nlohmann Http Transition Middleware TokenBucket

/-- The middlewares are as before, and adapters have been called at most `n` times. -/
def Calls (n : ℕ) (w w' : World) : Prop :=
  w'.chain = w.chain ∧
    ∃ events, w'.trace = w.trace ++ events ∧ events.countP (fun e => e.IsAdapterCall) ≤ n

/-- A step that leaves the chain and the trace alone makes no call. -/
theorem calls_of_eq {w w' : World} (hchain : w'.chain = w.chain) (htrace : w'.trace = w.trace) :
    Calls 0 w w' :=
  ⟨hchain, [], by rw [htrace, List.append_nil], le_rfl⟩

/-- Recording an event is a call only where the event is one. -/
theorem calls_event (w : World) (e : Event) :
    Calls (if e.IsAdapterCall then 1 else 0) w { w with trace := w.trace ++ [e] } :=
  ⟨rfl, [e], rfl, by simp [List.countP_cons]⟩

/-- The calls of two steps add up. -/
theorem grading_calls : Grading Calls where
  refl _ := calls_of_eq rfl rfl
  mono := by
    rintro m n w w' hmn ⟨hchain, events, htrace, hcount⟩
    exact ⟨hchain, events, htrace, hcount.trans hmn⟩
  add := by
    rintro m n u v w ⟨hchain, es, hes, hm⟩ ⟨hchain', fs, hfs, hn⟩
    refine ⟨hchain'.trans hchain, es ++ fs, by rw [hfs, hes, List.append_assoc], ?_⟩
    rw [List.countP_append]
    exact Nat.add_le_add hm hn

/-! ## One request -/

namespace Gateway

variable (gw : Gateway)

/-- Nothing but an adapter's call counts. -/
theorem handles_calls : Handles gw (fun e => ¬ e.IsAdapterCall) (Calls 0) where
  refl := grading_calls.refl
  trans _ _ _ := grading_calls.add
  event w e he := by simpa [he] using calls_event w e
  flags _ _ _ := calls_of_eq rfl rfl
  create name rateLimit w := by
    have hevent := calls_event w (.createApiKey name rateLimit)
    exact hevent
  list _ := calls_of_eq rfl rfl
  disable id w := by
    have hevent := calls_event w (.disableApiKey id)
    exact hevent

/-- The chat handler calls one adapter. -/
theorem calls_chatWith (body : Json) (req : RequestHeader) :
    Prog.Moves (Calls 1) (gw.chatWith body req) := by
  have hfree := gw.handles_calls
  unfold chatWith
  split
  · exact (hfree.errorResponse _ _ _ _).mono grading_calls zero_le_one
  · apply Prog.Moves.free_bind grading_calls (hfree.lift _)
    intro model
    split
    · exact (hfree.errorResponse _ _ _ _).mono grading_calls zero_le_one
    · rename_i ai _
      have hcall : Prog.Moves (Calls 1) (emit (.chatCompletion ai body)) :=
        fun w => calls_event w (.chatCompletion ai body)
      refine Prog.Moves.tryCatch_free grading_calls ?_ fun e => hfree.errorResponse _ _ _ _
      exact hcall.bind_free grading_calls fun _ =>
        hfree.bind (hfree.lift _) fun doc => hfree.jsonResponse _ _

/-- The router makes at most one call of an adapter. -/
theorem calls_dispatch (req : Request) :
    Prog.Moves (Calls 1) (gw.router.dispatch gw.lib req) := by
  have hfree := gw.handles_calls
  by_cases hchat : routeOf req.method req.target = some .chat
  · rw [gw.dispatch_of_some hchat]
    refine Prog.Moves.free_bind grading_calls (fun w => calls_event w (.handler .chat)) fun _ => ?_
    split
    · exact gw.calls_chatWith _ _
    · exact (hfree.errorResponse _ _ _ _).mono grading_calls zero_le_one
    · exact fun w => grading_calls.mono zero_le_one (grading_calls.refl w)
    · exact fun w => grading_calls.mono zero_le_one (grading_calls.refl w)
  · refine (hfree.dispatch fun r hr e he => ?_).mono grading_calls zero_le_one
    cases e with
    | chatCompletion ai body => exact absurd (he ▸ hr) hchat
    | chatCompletionStream => exact he.elim
    | _ => exact id

variable {gw} {w w' : World} {req : Request} {ctx : Context}

/-- A request that the chain lets pass leads to one call at most. -/
theorem calls_serve_of_passed
    (h : gw.processChain (freshContext req.toRequestHeader) w = (.ok ctx, w'))
    (hctx : ctx.terminated = false) (headerWritten : Bool) :
    Calls 1 w' (gw.serve req headerWritten w).2 := by
  have hfree := gw.handles_calls
  have hbranch : Calls 0 w' (Prog.tryCatch (gw.streamBranch req) (fun _ => pure .notTaken) w').2 :=
    hfree.tryCatch (hfree.streamBranch (fun _ => id) (fun _ _ => id) req)
      (fun _ => hfree.pure _) w'
  unfold serve handleRequest
  rw [Prog.bind_apply, Prog.bind_of_ok h, if_neg (by simp [hctx]), Prog.bind_apply]
  rcases hrun : Prog.tryCatch (gw.streamBranch req) (fun _ => pure .notTaken) w'
    with ⟨branch | e | _, w''⟩ <;> rw [hrun] at hbranch
  · cases branch with
    | answered => exact grading_calls.mono zero_le_one hbranch
    | started ai body =>
      dsimp only [Prog.pure_apply]
      cases headerWritten with
      | false => exact grading_calls.mono zero_le_one hbranch
      | true =>
        have hevent := calls_event { w'' with streamHeadersSent := true }
          (.chatCompletionStream ai body)
        exact grading_calls.add hbranch hevent
    | notTaken =>
      -- the router starts no stream, so nothing follows
      have hroute : Calls 1 w'' (gw.route req w'').2 := by
        unfold route
        refine (gw.calls_dispatch req).bind_free grading_calls (fun res => ?_) w''
        exact hfree.emit_bind (e := .doWrite res) id (hfree.pure _)
      have hstarts := @route_ne_started gw w'' req
      dsimp only
      rcases hdone : gw.route req w'' with ⟨started | e | _, w₃⟩ <;> rw [hdone] at hroute hstarts
      · cases started with
        | none => exact grading_calls.add hbranch hroute
        | some s => exact absurd rfl (hstarts s)
      · exact grading_calls.add hbranch hroute
      · exact grading_calls.add hbranch hroute
  · exact grading_calls.mono zero_le_one hbranch
  · exact grading_calls.mono zero_le_one hbranch

/-- A request that the chain has answered, or that it has no defined behaviour for, leads to no
call. -/
theorem calls_serve_of_stopped {r : Outcome Exn Context}
    (h : gw.processChain (freshContext req.toRequestHeader) w = (r, w'))
    (hr : ∀ ctx, r = .ok ctx → ctx.terminated = true) (headerWritten : Bool) :
    Calls 0 w' (gw.serve req headerWritten w).2 := by
  unfold serve handleRequest
  cases r with
  | throw e =>
    rw [Prog.bind_of_throw (Prog.bind_of_throw h _)]
    exact grading_calls.refl w'
  | ub =>
    rw [Prog.bind_of_ub (Prog.bind_of_ub h _)]
    exact grading_calls.refl w'
  | ok ctx =>
    rw [Prog.bind_apply, Prog.bind_of_ok h, if_pos (hr ctx rfl)]
    cases ctx.response with
    | none => exact grading_calls.refl w'
    | some res => exact calls_event w' (.doWrite res)

/-! ## The chain -/

/-- The chain of `main` stops before the limiter, or it lets the limiter decide by a call. -/
theorem processChain_mainChain {b : TokenBucket} (hchain : w.chain = mainChain b)
    (req : RequestHeader) :
    ∃ r w', gw.processChain (freshContext req) w = (r, w') ∧
      (w'.chain = mainChain b ∧ (∀ ctx, r = .ok ctx → ctx.terminated = true) ∨
        ∃ granted b' ctx, r = .ok ctx ∧ ctx.terminated = !granted ∧ w'.chain = mainChain b' ∧
          acquire b ⟨1, (w.clock w.acquisitions).1, (w.clock w.acquisitions).2, granted⟩
            = some b') := by
  by_cases hdef : AuthDefined gw w req
  swap
  · obtain ⟨db, hauth⟩ := auth_process_of_not_defined gw (freshContext req) hdef
    have hall : processAll gw (mainChain b) (freshContext req) w = (.ub, { w with db := db }) :=
      Prog.bind_of_ub (Prog.bind_of_ub hauth _) _
    rw [← hchain] at hall
    refine ⟨.ub, { w with db := db }, processChain_of_ub gw hall, .inl ⟨hchain, ?_⟩⟩
    intro ctx hctx
    cases hctx
  by_cases hpass : Passes gw w req
  swap
  · rw [Passes, not_or] at hpass
    obtain ⟨db, res, -, hauth⟩ := auth_process_of_not_authenticated gw (freshContext req) hpass.1
      hdef hpass.2
    have hall := processAll_cons_of_rejected gw _ (process_auth_of_ok gw _ hauth)
      [.rateLimiter b, .log]
    rw [show Middleware.auth :: [.rateLimiter b, .log] = mainChain b from rfl, ← hchain] at hall
    refine ⟨_, _, processChain_of_ok gw hall, .inl ⟨hchain, fun ctx hctx => ?_⟩⟩
    cases hctx
    rfl
  obtain ⟨db, id, hauth, -⟩ := auth_process_of_passes gw (freshContext req) hdef hpass
  have hall := processAll_cons_of_passed gw _ (process_auth_of_ok gw _ hauth) rfl
    [.rateLimiter b, .log]
  rw [show Middleware.auth :: [.rateLimiter b, .log] = mainChain b from rfl, ← hchain] at hall
  by_cases hlimit : LimiterDefined w b
  swap
  · have hub := processAll_limiter_of_not_defined
      (w := { w with db := db, trace := w.trace ++ lookups gw w req }) gw
      { freshContext req with apiKeyId := id } hlimit
    have hrun := processChain_of_ub gw (hall.trans (Prog.bind_of_ub hub _))
    refine ⟨.ub, _, hrun, .inl ⟨hchain, ?_⟩⟩
    intro ctx hctx
    cases hctx
  · obtain ⟨granted, b', hacquire⟩ := exists_acquire hlimit 1
    obtain ⟨ctx', htail, hterm, -⟩ := @processAll_limiter_of_acquire gw b b'
      { freshContext req with apiKeyId := id }
      { w with db := db, trace := w.trace ++ lookups gw w req } rfl granted hacquire
    exact ⟨_, _, processChain_of_ok gw (hall.trans (Prog.bind_of_ok htail _)),
      .inr ⟨granted, b', ctx', rfl, hterm, rfl, hacquire⟩⟩

end Gateway

/-! ## Runs of requests -/

namespace Arrival

/-- The clock as the limiter reads it. -/
def now (a : Arrival) : ℤ := (a.found.clock a.found.acquisitions).1

/-- The clock as the limiter reads it under the lock. -/
def now2 (a : Arrival) : ℤ := (a.found.clock a.found.acquisitions).2

/-- The call of the limiter, if the request gets there. -/
def acquisition (a : Arrival) (granted : Bool) : Acquisition := ⟨1, a.now, a.now2, granted⟩

/-- The requests come one after the other, from time `t` on. -/
def InOrder : ℤ → List Arrival → Prop
  | _, [] => True
  | t, a :: arrivals => t ≤ a.now ∧ a.now ≤ a.now2 ∧ InOrder a.now2 arrivals

instance decidableInOrder : ∀ t arrivals, Decidable (InOrder t arrivals)
  | _, [] => isTrue trivial
  | t, a :: arrivals =>
    have := decidableInOrder a.now2 arrivals
    inferInstanceAs (Decidable (t ≤ a.now ∧ a.now ≤ a.now2 ∧ InOrder a.now2 arrivals))

/-- Arrivals in order from some time on are so from any earlier time on. -/
theorem InOrder.mono {t u : ℤ} {arrivals : List Arrival} (h : InOrder t arrivals) (hu : u ≤ t) :
    InOrder u arrivals := by
  cases arrivals with
  | nil => trivial
  | cons a arrivals => exact ⟨hu.trans h.1, h.2⟩

end Arrival

/-- Some of the requests have called the limiter, in their order. -/
inductive Called : List Arrival → List Acquisition → Prop
  | nil : Called [] []
  | skip {arrivals : List Arrival} {as : List Acquisition} (a : Arrival) :
    Called arrivals as → Called (a :: arrivals) as
  | call {arrivals : List Arrival} {as : List Acquisition} (a : Arrival) (granted : Bool) :
    Called arrivals as → Called (a :: arrivals) (a.acquisition granted :: as)

namespace Called

variable {arrivals arrivals' : List Arrival} {as bs : List Acquisition}

/-- Arrivals may leave the bucket alone. -/
theorem none_called (arrivals : List Arrival) : Called arrivals [] := by
  induction arrivals with
  | nil => exact .nil
  | cons a arrivals ih => exact .skip a ih

/-- What two lists of arrivals ask of the bucket is what they ask together. -/
theorem append (h : Called arrivals as) (h' : Called arrivals' bs) :
    Called (arrivals ++ arrivals') (as ++ bs) := by
  induction h with
  | nil => exact h'
  | skip a _ ih => exact .skip a ih
  | call a granted _ ih => exact .call a granted ih

/-- Arrivals in order ask the bucket in order. -/
theorem inOrder {t : ℤ} (h : Called arrivals as) (horder : Arrival.InOrder t arrivals) :
    TokenBucket.InOrder t as := by
  induction h generalizing t with
  | nil => trivial
  | skip a _ ih => exact ih (horder.2.2.mono (horder.1.trans horder.2.1))
  | call a granted _ ih => exact ⟨horder.1, horder.2.1, ih horder.2.2⟩

/-- Each question to the bucket is some arrival's. -/
theorem exists_arrival (h : Called arrivals as) {c : Acquisition} (hc : c ∈ as) :
    ∃ a ∈ arrivals, c = a.acquisition c.granted := by
  induction h with
  | nil => cases hc
  | skip a _ ih =>
    obtain ⟨a', ha', hsame⟩ := ih hc
    exact ⟨a', List.mem_cons_of_mem a ha', hsame⟩
  | call a granted _ ih =>
    rcases List.mem_cons.mp hc with rfl | hc
    · exact ⟨a, List.mem_cons_self, rfl⟩
    · obtain ⟨a', ha', hsame⟩ := ih hc
      exact ⟨a', List.mem_cons_of_mem a ha', hsame⟩

end Called

namespace Gateway

variable (gw : Gateway)

/-- A request is handled in the state that the last one has left to it: the table, the middlewares
and the record. The rest is as the request finds it. -/
def takeTurn (a : Arrival) : Act Unit := do
  Prog.modify fun w => { a.found with
    db := { a.found.db with table := w.db.table }, chain := w.chain, trace := w.trace }
  Prog.tryCatch (gw.serve a.request a.headerWritten) fun _ => return ()

/-- Requests are handled one after another, up to one that has no defined behaviour. -/
def takeTurns : List Arrival → Act Unit
  | [] => return ()
  | a :: arrivals => do
    gw.takeTurn a
    takeTurns arrivals

variable {w : World} {b : TokenBucket}

/-- **One request**: its calls of adapters are paid for by its call of the limiter. -/
theorem exists_acquire_takeTurn (hchain : w.chain = mainChain b) (a : Arrival) :
    ∃ as b' events, Called [a] as ∧ run acquire b as = some b' ∧
      (gw.takeTurn a w).2.chain = mainChain b' ∧ (gw.takeTurn a w).2.trace = w.trace ++ events ∧
      events.countP (fun e => e.IsAdapterCall) ≤ as.countP fun c => c.granted := by
  -- the request is served in this state, and an exception changes nothing
  let w₀ : World := { a.found with
    db := { a.found.db with table := w.db.table }, chain := w.chain, trace := w.trace }
  have hturn : (gw.takeTurn a w).2 = (gw.serve a.request a.headerWritten w₀).2 := by
    rw [takeTurn, Prog.modify_bind_apply, Prog.tryCatch]
    rcases gw.serve a.request a.headerWritten w₀ with ⟨_ | _ | _, w'⟩ <;> rfl
  obtain ⟨r, w₁, hrun, hstop⟩ :=
    @processChain_mainChain gw w₀ b hchain a.request.toRequestHeader
  have hrecorded : Recorded (fun e => ¬ e.IsAdapterCall) w₀ w₁ := by
    have hfollows : Follows (fun e => ¬ e.IsAdapterCall) (Recorded fun e => ¬ e.IsAdapterCall) :=
      follows_recorded
    have hmoves := moves_processChain hfollows.toTracks gw
      (fun key => gw.moves_repository hfollows (Repository.findApiKey key))
      (fun _ _ => id) (freshContext a.request.toRequestHeader) w₀
    rw [hrun] at hmoves
    exact hmoves
  obtain ⟨es, hes, hnone⟩ := hrecorded
  have hzero : es.countP (fun e => e.IsAdapterCall) = 0 :=
    List.countP_eq_zero.mpr fun e he => by simpa using hnone e he
  rw [hturn]
  rcases hstop with ⟨hchain₁, hterm⟩ | ⟨granted, b', ctx, rfl, hterm, hchain₁, hacquire⟩
  · obtain ⟨hchain', fs, hfs, hcount⟩ := calls_serve_of_stopped hrun hterm a.headerWritten
    refine ⟨[], b, es ++ fs, .skip a .nil, rfl, hchain'.trans hchain₁,
      by rw [hfs, hes, List.append_assoc], ?_⟩
    rw [List.countP_append, hzero]
    simpa using hcount
  · have hcalls : Calls (if granted then 1 else 0) w₁
        (gw.serve a.request a.headerWritten w₀).2 := by
      cases granted with
      | true => exact calls_serve_of_passed hrun hterm a.headerWritten
      | false => exact calls_serve_of_stopped hrun (fun _ h => by cases h; exact hterm) _
    obtain ⟨hchain', fs, hfs, hcount⟩ := hcalls
    refine ⟨[a.acquisition granted], b', es ++ fs, .call a granted .nil,
      run_cons.mpr ⟨b', hacquire, rfl⟩, hchain'.trans hchain₁,
      by rw [hfs, hes, List.append_assoc], ?_⟩
    rw [List.countP_append, hzero, List.countP_singleton, Nat.zero_add]
    cases granted <;> exact hcount

/-- **A run of requests**: the same of all of them. -/
theorem exists_run_takeTurns (hchain : w.chain = mainChain b) (arrivals : List Arrival) :
    ∃ as b' events, Called arrivals as ∧ run acquire b as = some b' ∧
      (gw.takeTurns arrivals w).2.chain = mainChain b' ∧
      (gw.takeTurns arrivals w).2.trace = w.trace ++ events ∧
      events.countP (fun e => e.IsAdapterCall) ≤ as.countP fun c => c.granted := by
  induction arrivals generalizing w b with
  | nil => exact ⟨[], b, [], .nil, rfl, hchain, (List.append_nil _).symm, le_rfl⟩
  | cons a arrivals ih =>
    obtain ⟨as, b', events, hcalled, hrun, hchain', htrace, hcount⟩ :=
      gw.exists_acquire_takeTurn hchain a
    rw [takeTurns, Prog.bind_apply]
    rcases hturn : gw.takeTurn a w with ⟨_ | e | _, w'⟩ <;> rw [hturn] at hchain' htrace
    · obtain ⟨bs, b'', events', hcalled', hrun', hchain'', htrace', hcount'⟩ := ih hchain'
      refine ⟨as ++ bs, b'', events ++ events', hcalled.append hcalled', run_append hrun hrun',
        hchain'', by rw [htrace', htrace, List.append_assoc], ?_⟩
      rw [List.countP_append, List.countP_append]
      exact Nat.add_le_add hcount hcount'
    · exact ⟨as ++ [], b', events, hcalled.append (.none_called arrivals), by simpa using hrun,
        hchain', htrace, by simpa using hcount⟩
    · exact ⟨as ++ [], b', events, hcalled.append (.none_called arrivals), by simpa using hrun,
        hchain', htrace, by simpa using hcount⟩

/-- The window's requests are served after those before it, unless the run has ended. -/
theorem takeTurns_append (before window : List Arrival) (w : World) :
    (gw.takeTurns (before ++ window) w).2 = (gw.takeTurns before w).2 ∨
      (gw.takeTurns (before ++ window) w).2
        = (gw.takeTurns window (gw.takeTurns before w).2).2 := by
  induction before generalizing w with
  | nil => exact .inr rfl
  | cons a before ih =>
    rw [List.cons_append, takeTurns, takeTurns, Prog.bind_apply, Prog.bind_apply]
    rcases gw.takeTurn a w with ⟨_ | _ | _, w'⟩
    · exact ih w'
    · exact .inl rfl
    · exact .inl rfl

/-- **How often adapters are called.** Behind a bucket of capacity `C` and rate `R`: in any run of
requests that are handled one after another, up to one without defined behaviour, those that reach
the limiter within `n` seconds, whatever came before them, lead to at most `C` calls of adapters,
plain or streaming, and `n` times what a second can bring. -/
theorem adapter_calls_le (gw : Gateway) (before window : List Arrival) (w : World)
    (C R t0 lo : ℤ) (n : ℕ) (hchain : w.chain = mainChain (init C R t0))
    (horder : Arrival.InOrder t0 (before ++ window))
    (hwindow : ∀ a ∈ window, lo ≤ a.now ∧ a.now2 ≤ lo + n * 1000000000) :
    ∃ events, (gw.takeTurns (before ++ window) w).2.trace
        = (gw.takeTurns before w).2.trace ++ events ∧
      (events.countP (fun e => e.IsAdapterCall) : ℤ) ≤ max C 0 + n * max (min R C) 0 := by
  obtain ⟨as, b, -, hcalled, hrun, hchain', -⟩ := gw.exists_run_takeTurns hchain before
  obtain ⟨bs, b', events, hcalled', hrun', -, htrace, hcount⟩ :=
    gw.exists_run_takeTurns hchain' window
  have hnonneg : 0 ≤ max C 0 + n * max (min R C) 0 :=
    Int.add_nonneg (le_max_right _ _) (mul_nonneg (by omega) (le_max_right _ _))
  rcases gw.takeTurns_append before window w with hend | hend
  · exact ⟨[], by rw [hend, List.append_nil], by simpa using hnonneg⟩
  refine ⟨events, by rw [hend, htrace], ?_⟩
  have hone : ∀ c ∈ as ++ bs, c.tokens = 1 := by
    intro c hc
    obtain ⟨a, -, hsame⟩ := (hcalled.append hcalled').exists_arrival hc
    rw [hsame]
    rfl
  have hbound : (grantedWithin lo (lo + n * 1000000000) (as ++ bs) : ℤ)
      ≤ max C 0 + n * max (min R C) 0 :=
    grantedWithin_le le_rfl le_rfl ((hcalled.append hcalled').inOrder horder) hone
      (run_append hrun hrun')
  have hgranted : bs.countP (fun c => c.granted)
      ≤ grantedWithin lo (lo + n * 1000000000) (as ++ bs) := by
    rw [grantedWithin, List.countP_append]
    refine (List.countP_mono_left fun c hc hgranted => ?_).trans (Nat.le_add_left _ _)
    obtain ⟨a, ha, hsame⟩ := hcalled'.exists_arrival hc
    have hin := hwindow a ha
    rw [hsame]
    simpa [Arrival.acquisition, hgranted] using hin
  omega

/-- A gateway with an adapter, whose library knows a plain and a streaming body by their names. -/
def withAdapter : Gateway :=
  .small [(utf8 "plain", ⟨.obj [("model", .lit "deepseek-chat")], rfl⟩),
    (utf8 "streaming", ⟨.obj [("model", .lit "deepseek-chat"), ("stream", .boolean true)], rfl⟩)]
    [Adapter.small "deepseek"]

/-- A chat request with the key `k` and some body. -/
def bodyArrival (body : String) : Arrival where
  request := { (chatArrival "Bearer k").request with body := utf8 body }
  found := World.small
  headerWritten := true

/-- Four requests with a key at one time, plain and streaming. -/
def fourRequests : List Arrival :=
  [bodyArrival "plain", bodyArrival "streaming", bodyArrival "plain", bodyArrival "plain"]

/-- Behind a bucket of three tokens the adapter is called for three of them. -/
theorem adapter_calls_le_three :
    let w : World := { World.small with
      db := { table := [⟨1, utf8 "k", utf8 "test", 60, 1⟩], idle := [some 0] }
      chain := mainChain (init 3 1 0) }
    ∃ events, (withAdapter.takeTurns ([] ++ fourRequests) w).2.trace
        = (withAdapter.takeTurns [] w).2.trace ++ events ∧
      events.countP (fun e => e.IsAdapterCall) = 3 ∧
      (events.countP (fun e => e.IsAdapterCall) : ℤ) ≤ max 3 0 + (0 : ℕ) * max (min 1 3) 0 := by
  intro w
  obtain ⟨events, htrace, hle⟩ := adapter_calls_le withAdapter [] fourRequests w 3 1 0 0 0 rfl
    (by decide +kernel) (by decide +kernel)
  have hcount : ((withAdapter.takeTurns ([] ++ fourRequests) w).2.trace).countP
      (fun e => e.IsAdapterCall) = 3 := by
    decide +kernel
  refine ⟨events, htrace, ?_, hle⟩
  rw [htrace, List.countP_append] at hcount
  exact (Nat.zero_add _).symm.trans hcount

end Gateway

end AiSwitch
