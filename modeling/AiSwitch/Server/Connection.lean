import AiSwitch.Common.Transition
import AiSwitch.Middleware.ChainRuns
import AiSwitch.Server.Session

/-!
# The life of a connection

`session` (`server/session.cpp`) reads a request, answers it and reads the next one, until the
connection is closed. Every step is a completion handler: of the read, of the write of an ordinary
response, of the header of a stream, and of each write of the stream.

The streaming branch of `handle_request` sets `is_streaming_` before it knows whether a stream can
be started, and `on_write` arms no read while the flag is set. `keepsAlive_iff` says for which
requests the flag is set only during a stream.
-/

namespace AiSwitch

open ByteString Effect Nlohmann Http Transition

/-- What a session waits for. -/
inductive SessionPhase where
  /-- The read armed by `do_read`. -/
  | reading
  /-- The write of `res_` that `do_write` has started. -/
  | writing (res : Response)
  /-- The write of the header of a stream. -/
  | startingStream
  /-- The handlers that the pool task posts. -/
  | streaming
  /-- Nothing: `on_write` has returned without arming a read. -/
  | stalled
  /-- Nothing but the rest of a stream: `do_close` has run. -/
  | closed
  /-- Nothing: `handle_request` has not returned normally. -/
  | aborted
deriving DecidableEq

/-- `session`, as far as it outlives a request. -/
structure SessionState where
  phase : SessionPhase := .reading
  isStreaming : Bool := false
  streamHeadersSent : Bool := false
deriving DecidableEq

namespace SessionState

/-- A completion handler runs. `read` comes with the state of what the sessions share, and with the
request; the others with the success of the write, `chunkWritten` also with whether it was the
terminator's. -/
inductive Action where
  | read (w : World) (bucket : TokenBucket) (req : Request)
  | readFailed
  | written (ok : Bool)
  | headerWritten (ok : Bool)
  | chunkWritten (done ok : Bool)

/-- `do_close` -/
def doClose (s : SessionState) : SessionState := { s with phase := .closed, isStreaming := false }

/-- The state of the gateway in which the session handles a request. -/
def world (s : SessionState) (w : World) : World :=
  { w with isStreaming := s.isStreaming, streamHeadersSent := s.streamHeadersSent }

/-- The session after `handle_request`: a response is being written, or the header of a stream. -/
def afterRequest {gw : Gateway}
    (r : Outcome Exn (Option (Fin gw.adapters.length × Json)) × World) : SessionState where
  phase :=
    match r.1, r.2.trace.getLast? with
    | .ok (some _), _ => .startingStream
    | .ok none, some (.doWrite res) => .writing res
    | _, _ => .aborted
  isStreaming := r.2.isStreaming
  streamHeadersSent := r.2.streamHeadersSent

variable (gw : Gateway)

/-- One completion handler. -/
def step (s : SessionState) : Action → Option SessionState
  | .read w bucket req =>
    if s.phase = .reading then
      some (afterRequest (gw.handleRequest req ((s.world w).inMain bucket)))
    else none
  | .readFailed => if s.phase = .reading then some s.doClose else none
  | .written ok =>
    match s.phase with
    | .writing res =>
      if ok = false then some s.doClose
      else if res.needEof then some s.doClose
      else if s.isStreaming then some { s with phase := .stalled }
      else some { s with phase := .reading }
    | _ => none
  | .headerWritten ok =>
    if s.phase = .startingStream then
      if ok = false then some s.doClose
      else some { s with phase := .streaming, streamHeadersSent := true }
    else none
  | .chunkWritten done ok =>
    if s.streamHeadersSent ∧ (s.phase = .streaming ∨ s.phase = .closed) then
      if done ∨ ok = false then some s.doClose else some s
    else none

/-- The flag is set only during a stream, and after an ordinary response on a connection that stays
open the next read is armed. -/
structure KeepsAlive (s : SessionState) : Prop where
  flag : s.isStreaming = true → s.phase = .startingStream ∨ s.phase = .streaming
  armed : ∀ res, s.phase = .writing res → res.needEof = false →
    ∃ s', step gw s (.written true) = some s' ∧ s'.phase = .reading

/-- The request asks for a stream that is not started: its model is not a string, or no adapter is
registered for it. -/
def RefusesStream (req : Request) : Prop :=
  ∃ body, Gateway.AsksStream gw req body ∧
    ∀ model, body.value "model" Json.getString (utf8 "deepseek-chat") = .ok model →
      gw.adapters.create model = none

/-- The handler does not set the flag for nothing: it is not that of a request that the chain lets
through and whose stream is then refused. -/
def Harmless : Action → Prop
  | .read w bucket req =>
    ¬ (Middleware.ChainDefined gw w bucket req.toRequestHeader ∧
      Middleware.Admitted gw w bucket req.toRequestHeader ∧ RefusesStream gw req)
  | _ => True

/-! ## What a request does to the flag -/

/-- The flag is as it was. -/
def SameFlag (w w' : World) : Prop := w'.isStreaming = w.isStreaming

/-- Steps that keep the streaming flag make runs that do. -/
theorem follows_sameFlag : Follows (fun _ => True) SameFlag where
  refl _ := rfl
  trans _ _ _ huv hvw := hvw.trans huv
  event _ _ _ := rfl
  database _ _ := rfl
  middlewares _ _ _ := rfl

variable {gw} {w w' : World} {bucket : TokenBucket} {req : Request} {header : RequestHeader}

variable (gw) in
/-- The middleware chain keeps the flag. -/
theorem sameFlag_processChain (ctx : Context) (w : World) :
    SameFlag w (gw.processChain ctx w).2 :=
  Gateway.moves_processChain follows_sameFlag.toTracks gw
    (fun _ => gw.moves_repository follows_sameFlag _) (fun _ _ => trivial) ctx w

/-- The router leaves the flag alone. -/
theorem sameFlag_route (req : Request) (w : World) : SameFlag w (gw.route req w).2 := by
  have hdispatch := gw.moves_dispatch req
    (fun _ _ => follows_sameFlag.mono fun _ _ => trivial) follows_sameFlag.refl
  have hroute : Prog.Moves SameFlag (gw.route req) := by
    unfold Gateway.route
    apply follows_sameFlag.bind hdispatch
    intro res
    exact follows_sameFlag.emit_bind trivial (follows_sameFlag.pure _)
  exact hroute w

/-- What `handle_request` does with a request that the chain has let through. -/
def unanswered (gw : Gateway) (req : Request) : Act (Option (Fin gw.adapters.length × Json)) := do
  match ← Prog.tryCatch (gw.streamBranch req) fun _ => return .notTaken with
  | .answered => return none
  | .started ai body => return some (ai, body)
  | .notTaken => gw.route req

variable (gw) in
/-- A request that is not let through leaves the flag alone and starts no stream. -/
theorem handleRequest_cases (req : Request) (w : World) :
    SameFlag w (gw.handleRequest req w).2 ∧ (∀ s, (gw.handleRequest req w).1 ≠ .ok (some s)) ∨
      ∃ ctx w', gw.processChain (Gateway.freshContext req.toRequestHeader) w = (.ok ctx, w') ∧
        ctx.terminated = false ∧ SameFlag w w' ∧ gw.handleRequest req w = unanswered gw req w' := by
  have hflag := sameFlag_processChain gw (Gateway.freshContext req.toRequestHeader) w
  unfold Gateway.handleRequest
  rcases hchain : gw.processChain (Gateway.freshContext req.toRequestHeader) w with
    ⟨ctx | e | _, w'⟩
  · rw [hchain] at hflag
    rw [Prog.bind_of_ok hchain]
    by_cases hterm : ctx.terminated = true
    · rw [if_pos hterm]
      cases ctx.response with
      | none => exact .inl ⟨hflag, by simp⟩
      | some res => exact .inl ⟨hflag, by simp [Gateway.doWrite]⟩
    · rw [if_neg hterm]
      exact .inr ⟨ctx, w', rfl, by simpa using hterm, hflag, rfl⟩
  · rw [hchain] at hflag
    rw [Prog.bind_of_throw hchain]
    exact .inl ⟨hflag, by simp⟩
  · rw [hchain] at hflag
    rw [Prog.bind_of_ub hchain]
    exact .inl ⟨hflag, by simp⟩

/-- What the chain leaves unanswered it has let through. -/
theorem admitted_of_unanswered {ctx : Context}
    (hchain : gw.processChain (Gateway.freshContext header) (w.inMain bucket) = (.ok ctx, w'))
    (hterm : ctx.terminated = false) : Middleware.Admitted gw w bucket header := by
  by_contra hadm
  by_cases hdef : Middleware.ChainDefined gw w bucket header
  · obtain ⟨ctx', res, w'', hchain', hterm', -⟩ := gw.processChain_of_not_admitted w hdef hadm
    rw [hchain] at hchain'
    cases hchain'
    rw [hterm] at hterm'
    cases hterm'
  · obtain ⟨w'', hub, -⟩ := gw.processChain_of_not_defined w hdef
    rw [hchain] at hub
    cases hub

/-- A refused stream leaves the flag set. -/
theorem unanswered_of_refuses (h : RefusesStream gw req) (w : World) :
    (unanswered gw req w).2.isStreaming = true ∧
      ∀ s, (unanswered gw req w).1 ≠ .ok (some s) := by
  obtain ⟨body, hasks, hmodel⟩ := h
  unfold unanswered
  cases hread : body.value "model" Json.getString (utf8 "deepseek-chat") with
  | ub => exact absurd hread (Gateway.value_ne_ub (fun v => by cases v <;> simp) _ _ _)
  | throw e =>
    rw [Prog.bind_of_ok (Gateway.tryCatch_streamBranch_of_unreadable hasks hread)]
    exact ⟨sameFlag_route req { w with isStreaming := true }, Gateway.route_ne_started⟩
  | ok model =>
    have hstreams : gw.Streams req body model :=
      ⟨hasks.parsed, hasks.wanted, hasks.adapters, hread⟩
    have hbranch := (Gateway.streamBranch_of_streams hstreams).trans (Gateway.startStream_of_none
      (w := { w with isStreaming := true }) hstreams (hmodel model hread))
    rw [Prog.bind_of_ok (Prog.tryCatch_of_ok hbranch _)]
    exact ⟨rfl, by simp⟩

/-- Any other request starts a stream or leaves the flag alone. -/
theorem unanswered_of_not_refuses (h : ¬ RefusesStream gw req) (w : World) :
    (∃ s, (unanswered gw req w).1 = .ok (some s)) ∨ SameFlag w (unanswered gw req w).2 := by
  unfold unanswered
  by_cases hasks : ∃ body, Gateway.AsksStream gw req body
  swap
  · rw [Prog.bind_of_ok (Gateway.tryCatch_streamBranch_of_not_asks hasks)]
    exact .inr (sameFlag_route req w)
  obtain ⟨body, hasks⟩ := hasks
  -- the model is read and has an adapter, or the stream would be refused
  have hmodel : ∃ model ai, body.value "model" Json.getString (utf8 "deepseek-chat") = .ok model ∧
      gw.adapters.create model = some ai := by
    by_contra hno
    refine h ⟨body, hasks, fun model hread => ?_⟩
    by_contra hsome
    obtain ⟨ai, hai⟩ := Option.ne_none_iff_exists'.mp hsome
    exact hno ⟨model, ai, hread, hai⟩
  obtain ⟨model, ai, hread, hcreate⟩ := hmodel
  have hstreams : gw.Streams req body model :=
    ⟨hasks.parsed, hasks.wanted, hasks.adapters, hread⟩
  have hbranch := (Gateway.streamBranch_of_streams hstreams).trans
    (Gateway.startStream_of_some (w := { w with isStreaming := true }) hcreate)
  rw [Prog.bind_of_ok (Prog.tryCatch_of_ok hbranch _)]
  exact .inl ⟨(ai, body), rfl⟩

/-! ## Whole runs -/

/-- The flag is set only during a stream. -/
def FlagInStream (s : SessionState) : Prop :=
  s.isStreaming = true → s.phase = .startingStream ∨ s.phase = .streaming

variable {s s' : SessionState}

/-- Where the flag is set only during a stream, `on_write` finds it clear. -/
theorem FlagInStream.keepsAlive (h : FlagInStream s) : KeepsAlive gw s where
  flag := h
  armed res hphase heof := by
    have hflag : s.isStreaming ≠ true := fun hs => by
      rcases h hs with hp | hp <;> rw [hphase] at hp <;> cases hp
    refine ⟨{ s with phase := .reading }, ?_, rfl⟩
    simp [step, hphase, heof, hflag]

/-- A session that has started a stream, or has the flag clear. -/
theorem flagInStream_afterRequest {r : Outcome Exn (Option (Fin gw.adapters.length × Json)) × World}
    (h : (∃ s, r.1 = .ok (some s)) ∨ r.2.isStreaming = false) : FlagInStream (afterRequest r) := by
  obtain ⟨o, w⟩ := r
  intro hset
  rcases h with ⟨t, ht⟩ | hclear
  · obtain rfl : o = .ok (some t) := ht
    exact .inl rfl
  · exact absurd (hset.symm.trans hclear) (by simp)

/-- The header of a stream is written only if one was started. -/
theorem not_flagInStream_afterRequest
    {r : Outcome Exn (Option (Fin gw.adapters.length × Json)) × World}
    (hflag : r.2.isStreaming = true) (h : ∀ s, r.1 ≠ .ok (some s)) :
    ¬ FlagInStream (afterRequest r) := by
  obtain ⟨o, w⟩ := r
  intro hinv
  have hphase := hinv hflag
  cases o with
  | ok t =>
    cases t with
    | some t => exact h t rfl
    | none =>
      simp only [afterRequest] at hphase
      split at hphase
      · rename_i heq
        cases heq
      · simp at hphase
      · simp at hphase
  | throw e => simp [afterRequest] at hphase
  | ub => simp [afterRequest] at hphase

/-- A request that is handled with the flag clear leaves it clear, starts a stream, or is one whose
stream the branch refuses. -/
theorem handleRequest_of_harmless (hclear : w.isStreaming = false)
    (h : Harmless gw (.read w bucket req)) :
    (∃ s, (gw.handleRequest req (w.inMain bucket)).1 = .ok (some s)) ∨
      (gw.handleRequest req (w.inMain bucket)).2.isStreaming = false := by
  rcases handleRequest_cases gw req (w.inMain bucket) with
    ⟨hsame, -⟩ | ⟨ctx, w', hchain, hterm, hsame, heq⟩
  · exact .inr (hsame.trans hclear)
  have hadm := admitted_of_unanswered hchain hterm
  have hdef : Middleware.ChainDefined gw w bucket req.toRequestHeader := by
    by_contra hdef
    obtain ⟨w'', hub, -⟩ := gw.processChain_of_not_defined w hdef
    rw [hchain] at hub
    cases hub
  have hstream : ¬ RefusesStream gw req := fun hr => h ⟨hdef, hadm, hr⟩
  rw [heq]
  rcases unanswered_of_not_refuses hstream w' with hstarted | hsame'
  · exact .inl hstarted
  · exact .inr (hsame'.trans (hsame.trans hclear))

/-- A request that is not harmless leaves the flag set, and no stream has started. -/
theorem handleRequest_of_not_harmless (h : ¬ Harmless gw (.read w bucket req)) :
    (gw.handleRequest req (w.inMain bucket)).2.isStreaming = true ∧
      ∀ s, (gw.handleRequest req (w.inMain bucket)).1 ≠ .ok (some s) := by
  obtain ⟨hdef, hadm, hrefuse⟩ := not_not.mp h
  obtain ⟨ctx, w', hchain, hterm, -, -⟩ := gw.processChain_of_admitted w hdef hadm
  have heq : gw.handleRequest req (w.inMain bucket) = unanswered gw req w' := by
    unfold Gateway.handleRequest
    rw [Prog.bind_of_ok hchain, if_neg (by simp [hterm])]
    rfl
  rw [heq]
  exact unanswered_of_refuses hrefuse w'

/-- After a harmless step the flag is set only in a session that streams. -/
theorem flagInStream_step (s : SessionState) (a : Action) (s' : SessionState) (h : FlagInStream s)
    (hok : Harmless gw a) (hstep : step gw s a = some s') : FlagInStream s' := by
  cases a with
  | read w bucket req =>
    obtain ⟨hphase, hs'⟩ := Option.ite_none_right_eq_some.mp hstep
    cases hs'
    have hclear : s.isStreaming = false := by
      by_contra hflag
      rcases h (by simpa using hflag) with hp | hp <;> rw [hphase] at hp <;> cases hp
    exact flagInStream_afterRequest (handleRequest_of_harmless (w := s.world w) hclear hok)
  | readFailed =>
    obtain ⟨-, hs'⟩ := Option.ite_none_right_eq_some.mp hstep
    cases hs'
    exact fun hset => by cases hset
  | written ok =>
    cases hphase : s.phase with
    | writing res =>
      have hclear : ¬ s.isStreaming = true := by
        intro hflag
        rcases h hflag with hp | hp <;> rw [hphase] at hp <;> cases hp
      simp only [step, hphase, if_neg hclear] at hstep
      split_ifs at hstep
      · cases hstep
        exact fun hset => by cases hset
      · cases hstep
        exact fun hset => by cases hset
      · cases hstep
        exact fun hset => absurd hset hclear
    | _ => simp [step, hphase] at hstep
  | headerWritten ok =>
    obtain ⟨-, hs'⟩ := Option.ite_none_right_eq_some.mp hstep
    split_ifs at hs'
    · cases hs'
      exact fun hset => by cases hset
    · cases hs'
      exact fun _ => .inr rfl
  | chunkWritten done ok =>
    obtain ⟨-, hs'⟩ := Option.ite_none_right_eq_some.mp hstep
    split_ifs at hs'
    · cases hs'
      exact fun hset => by cases hset
    · cases hs'
      exact h

/-- A refused stream leaves the flag set in a session that does not stream. -/
theorem not_flagInStream_step (s : SessionState) (a : Action) (s' : SessionState)
    (hbad : ¬ Harmless gw a) (hstep : step gw s a = some s') : ¬ FlagInStream s' := by
  cases a with
  | read w bucket req =>
    obtain ⟨-, hs'⟩ := Option.ite_none_right_eq_some.mp hstep
    cases hs'
    obtain ⟨hflag, hnone⟩ := handleRequest_of_not_harmless (w := s.world w) hbad
    exact not_flagInStream_afterRequest hflag hnone
  | _ => exact absurd trivial hbad

/-- **When a connection survives its ordinary responses.** For every gateway and every run of a
session, with any requests and any outcomes of the reads and writes: in all its states the flag is
set only during a stream and every ordinary response on a connection that stays open is followed by
the next read, if and only if no request of the run is let through by the chain, asks for a stream
and has it refused. -/
theorem keepsAlive_iff {as : List Action} (hrun : run (step gw) {} as = some s) :
    Always (step gw) (KeepsAlive gw) {} as ↔ ∀ a ∈ as, Harmless gw a := by
  have hinit : FlagInStream {} := fun hset => by cases hset
  rw [← respects_iff_forall hrun]
  apply always_iff_respects flagInStream_step (fun _ h => h.keepsAlive) _ hinit hrun
  intro s a s' _ hbad hstep h
  exact not_flagInStream_step s a s' hbad hstep h.flag

/-- A health check. -/
def Action.health : Action :=
  .read .small ⟨10, 10, 5, 0⟩ { method := .get, target := utf8 "/health", body := [] }

/-- A health check is answered and the next read is armed. -/
theorem keepsAlive_iff_health :
    Always (step (.small [] [])) (KeepsAlive (.small [] [])) {} [.health, .written true] ↔
      ∀ a ∈ [Action.health, .written true], Harmless (.small [] []) a :=
  @keepsAlive_iff (.small [] []) {} [.health, .written true] (by decide +kernel)

/-- A gateway with one adapter, and a body that asks for a stream of a model it does not serve. -/
def smallRefusing : Gateway :=
  .small [(utf8 "\x7b\"stream\":true,\"model\":\"gpt-4\"\x7d",
    ⟨.obj [("stream", .boolean true), ("model", .lit "gpt-4")], rfl⟩)] [Adapter.small "deepseek"]

/-- The request with that body, under the key `k`. -/
def Action.refused : Action :=
  .read
    { World.small with db := { table := [⟨1, utf8 "k", utf8 "test", 60, 1⟩], idle := [some 0] } }
    ⟨10, 10, 5, 0⟩
    { toRequestHeader := Middleware.Visit.keyRequest
      body := utf8 "\x7b\"stream\":true,\"model\":\"gpt-4\"\x7d" }

/-- The request is answered with an ordinary response on a connection that stays open, and no read
follows: the session stalls with the flag set. -/
theorem not_keepsAlive_unsupported_model :
    (∃ s res, run (step smallRefusing) {} [.refused] = some s ∧ s.phase = .writing res ∧
        res.status = .badRequest ∧ res.needEof = false ∧ ¬ KeepsAlive smallRefusing s) ∧
      run (step smallRefusing) {} [.refused, .written true] = some ⟨.stalled, true, false⟩ := by
  refine ⟨⟨_, smallRefusing.errorResult .badRequest "unsupported_model"
    (utf8 "不支持的模型: gpt-4") Middleware.Visit.keyRequest, rfl, ?_, rfl, ?_, fun h => ?_⟩, ?_⟩
  · decide +kernel
  · decide +kernel
  · exact absurd h.flag (by decide +kernel)
  · decide +kernel

end SessionState

end AiSwitch
