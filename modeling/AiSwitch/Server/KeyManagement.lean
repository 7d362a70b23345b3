import AiSwitch.Db.Operations
import AiSwitch.Server.Session

/-!
# The management of keys needs the master key

`auth_middleware` lets everything below `/admin/` pass, so the key table is guarded by
`verify_admin` alone, which the three handlers of `/admin/api-keys` call before anything else.
Nothing else that a request can reach writes to the table: the chain looks keys up, and neither the
streaming branch nor the other handlers use the repository (`key_management_needs_master_key`).
-/

namespace AiSwitch

open ByteString Effect Nlohmann Http

/-- The call of an operation that manages keys. -/
def Event.IsKeyManagement : Event → Prop
  | createApiKey _ _ | listApiKeys | disableApiKey _ => True
  | findApiKey _ _ | handler _ | chatCompletion _ _ | chatCompletionStream _ _ | doWrite _
  | startStream _ _ => False

/-- The chat handler records no event of the key management. -/
theorem not_isKeyManagement_of_chat (e : Event) (he : e.InHandler .chat) :
    ¬ e.IsKeyManagement := by
  cases e with
  | createApiKey | listApiKeys | disableApiKey => cases he
  | _ => exact id

/-- The table is as it was, and no operation that manages keys has been called. -/
structure KeysUntouched (w w' : World) : Prop where
  table : w'.db.table = w.db.table
  calls : Recorded (fun e => ¬ e.IsKeyManagement) w w'

/-- Where no such event is recorded, the keys are left alone. -/
theorem tracks_keysUntouched : Tracks (fun e => ¬ e.IsKeyManagement) KeysUntouched where
  refl w := ⟨rfl, recorded_refl w⟩
  trans _ _ _ huv hvw :=
    ⟨hvw.table.trans huv.table, recorded_trans _ _ _ huv.calls hvw.calls⟩
  event w e he := ⟨rfl, follows_recorded.event w e he⟩
  middlewares w chain n := ⟨rfl, follows_recorded.middlewares w chain n⟩

/-! ## One request -/

namespace Gateway

variable (gw : Gateway)

/-- A lookup only reads. -/
theorem keysUntouched_findApiKey (key : Bytes) :
    Prog.Moves KeysUntouched (gw.repository (Repository.findApiKey key)) :=
  fun w => ⟨Operation.table_run_findApiKey gw.backend w.db key, recorded_of_trace_eq rfl⟩

/-- The middleware chain leaves the keys alone. -/
theorem keysUntouched_processChain (ctx : Context) :
    Prog.Moves KeysUntouched (gw.processChain ctx) :=
  moves_processChain tracks_keysUntouched gw gw.keysUntouched_findApiKey (fun _ _ => id) ctx

/-- A handler for administrators ends with its check. -/
theorem keysUntouched_requireAdmin {req : RequestHeader} (h : gw.verifyAdmin req = false)
    (r : Route) (k : Act Response) :
    Prog.Moves KeysUntouched (emit (.handler r) >>= fun _ => gw.requireAdmin req k) := by
  refine tracks_keysUntouched.emit_bind (e := .handler r) id ?_
  rw [requireAdmin, if_neg (by simp [h])]
  exact gw.moves_errorResponse tracks_keysUntouched _ _ _ _

/-- Whatever the route, its handler does not get to the table. -/
theorem keysUntouched_handlerOf {req : Request} (h : gw.verifyAdmin req.toRequestHeader = false)
    (r : Route) : Prog.Moves KeysUntouched (gw.handlerOf r req) := by
  cases r with
  | health =>
    refine tracks_keysUntouched.emit_bind (e := .handler .health) id ?_
    exact gw.moves_jsonResponse tracks_keysUntouched _ _
  | chat =>
    refine tracks_keysUntouched.emit_bind (e := .handler .chat) id ?_
    split
    · exact gw.moves_chatWith (tracks_keysUntouched.mono not_isKeyManagement_of_chat) _ _
    · exact gw.moves_errorResponse tracks_keysUntouched _ _ _ _
    · exact tracks_keysUntouched.throw _
    · exact tracks_keysUntouched.ub
  | createKey => exact gw.keysUntouched_requireAdmin h _ _
  | listKeys => exact gw.keysUntouched_requireAdmin h _ _
  | disableKey => exact gw.keysUntouched_requireAdmin h _ _

/-- Without the master key the router leaves the keys alone. -/
theorem keysUntouched_dispatch {req : Request} (h : gw.verifyAdmin req.toRequestHeader = false) :
    Prog.Moves KeysUntouched (gw.router.dispatch gw.lib req) := by
  cases hr : routeOf req.method req.target with
  | none =>
    rw [gw.dispatch_of_none hr]
    exact gw.moves_errorResponse tracks_keysUntouched _ _ _ _
  | some r =>
    rw [gw.dispatch_of_some hr]
    exact gw.keysUntouched_handlerOf h r

/-- Without the master key the router leaves them alone. -/
theorem keysUntouched_route {req : Request} (h : gw.verifyAdmin req.toRequestHeader = false) :
    Prog.Moves KeysUntouched (gw.route req) := by
  unfold route
  apply tracks_keysUntouched.bind (gw.keysUntouched_dispatch h)
  intro res
  exact tracks_keysUntouched.emit_bind (e := .doWrite res) id (tracks_keysUntouched.pure _)

/-- The streaming branch looks at the body alone, and does not use the repository. -/
theorem keysUntouched_streamBranch (req : Request) :
    Prog.Moves KeysUntouched (gw.streamBranch req) := by
  unfold streamBranch
  apply tracks_keysUntouched.bind (tracks_keysUntouched.lift _)
  intro body
  apply tracks_keysUntouched.bind (tracks_keysUntouched.lift _)
  intro wantStream
  split
  · apply tracks_keysUntouched.bind fun w => ⟨rfl, recorded_of_trace_eq rfl⟩
    intro _
    apply tracks_keysUntouched.bind (tracks_keysUntouched.lift _)
    intro model
    unfold startStream
    split
    · apply tracks_keysUntouched.bind (gw.moves_errorResponse tracks_keysUntouched _ _ _ _)
      intro res
      exact tracks_keysUntouched.emit_bind (e := .doWrite res) id (tracks_keysUntouched.pure _)
    · exact tracks_keysUntouched.emit_bind (e := .startStream _ _) id (tracks_keysUntouched.pure _)
  · exact tracks_keysUntouched.pure _

/-- Without the master key the handling of a request leaves the keys alone. -/
theorem keysUntouched_handleRequest {req : Request}
    (h : gw.verifyAdmin req.toRequestHeader = false) :
    Prog.Moves KeysUntouched (gw.handleRequest req) := by
  unfold handleRequest
  apply tracks_keysUntouched.bind (gw.keysUntouched_processChain _)
  intro ctx
  split
  · split
    · rename_i res _
      exact tracks_keysUntouched.emit_bind (e := .doWrite res) id (tracks_keysUntouched.pure _)
    · exact tracks_keysUntouched.throw _
  · apply tracks_keysUntouched.bind
      (tracks_keysUntouched.tryCatch (gw.keysUntouched_streamBranch req)
        fun _ => tracks_keysUntouched.pure _)
    intro branch
    cases branch with
    | answered => exact tracks_keysUntouched.pure _
    | started ai body => exact tracks_keysUntouched.pure _
    | notTaken => exact gw.keysUntouched_route h

/-- **One request** without the master key, whatever it asks for, does not get to the keys. -/
theorem keysUntouched_serve {req : Request} (h : gw.verifyAdmin req.toRequestHeader = false)
    (headerWritten : Bool) : Prog.Moves KeysUntouched (gw.serve req headerWritten) := by
  unfold serve
  apply tracks_keysUntouched.bind (gw.keysUntouched_handleRequest h)
  intro started
  cases started with
  | none => exact tracks_keysUntouched.pure _
  | some s =>
    dsimp only
    split
    · apply tracks_keysUntouched.bind fun w => ⟨rfl, recorded_of_trace_eq rfl⟩
      intro _
      exact tracks_keysUntouched.emit (e := .chatCompletionStream _ _) id
    · exact tracks_keysUntouched.pure _

end Gateway

/-! ## Whole runs -/

/-- A request that reaches a session, with the state of everything but the table and the record as
it finds them, and with whether the header of a stream gets written. -/
structure Arrival where
  request : Request
  found : World
  headerWritten : Bool

namespace Gateway

variable (gw : Gateway)

/-- The session handles the request. An exception ends that alone. -/
def handleArrival (a : Arrival) : Act Unit := do
  Prog.modify fun w =>
    { a.found with db := { a.found.db with table := w.db.table }, trace := w.trace }
  Prog.tryCatch (gw.serve a.request a.headerWritten) fun _ => return ()

/-- Requests are handled one after another, up to one that has no defined behaviour. -/
def handleArrivals : List Arrival → Act Unit
  | [] => return ()
  | a :: arrivals => do
    gw.handleArrival a
    handleArrivals arrivals

/-- Without the master key the arrival of a request leaves the keys alone. -/
theorem keysUntouched_handleArrival {a : Arrival}
    (h : gw.verifyAdmin a.request.toRequestHeader = false) :
    Prog.Moves KeysUntouched (gw.handleArrival a) := by
  unfold handleArrival
  apply tracks_keysUntouched.bind fun w => ⟨rfl, recorded_of_trace_eq rfl⟩
  intro _
  exact tracks_keysUntouched.tryCatch (gw.keysUntouched_serve h _)
    fun _ => tracks_keysUntouched.pure _

/-- A run of requests without the master key leaves the keys alone. -/
theorem keysUntouched_handleArrivals {arrivals : List Arrival}
    (h : ∀ a ∈ arrivals, gw.verifyAdmin a.request.toRequestHeader = false) :
    Prog.Moves KeysUntouched (gw.handleArrivals arrivals) := by
  induction arrivals with
  | nil => exact tracks_keysUntouched.pure _
  | cons a arrivals ih =>
    rw [handleArrivals]
    apply tracks_keysUntouched.bind
      (gw.keysUntouched_handleArrival (h a List.mem_cons_self))
    intro _
    exact ih fun b hb => h b (List.mem_cons_of_mem a hb)

/-- **The management of keys needs the master key.** For every gateway and every run of requests,
of any method, target, headers and body, none of which carries the master key: no operation that
manages keys is called, and the table is in the end what it was. It does not matter which
middlewares the requests meet, or what happens to pool, clock and sessions in between. A run ends at
a request that has no defined behaviour. -/
theorem key_management_needs_master_key (arrivals : List Arrival) (w : World)
    (h : ∀ a ∈ arrivals, a.request.authorization ≠ some (utf8 "Bearer " ++ gw.adminMasterKey)) :
    (gw.handleArrivals arrivals w).2.db.table = w.db.table ∧
      ∃ events, (gw.handleArrivals arrivals w).2.trace = w.trace ++ events ∧
        ∀ e ∈ events, ¬ e.IsKeyManagement := by
  have hadmin : ∀ a ∈ arrivals, gw.verifyAdmin a.request.toRequestHeader = false := by
    intro a ha
    rw [verifyAdmin, beq_eq_false_iff_ne]
    exact h a ha
  exact ⟨(gw.keysUntouched_handleArrivals hadmin w).table,
    (gw.keysUntouched_handleArrivals hadmin w).calls⟩

/-- A gateway that parses one body, and a table with one key. -/
def withBody : Gateway :=
  .small [(utf8 "\x7b\"id\":1\x7d", ⟨.obj [("id", .integer 1)], rfl⟩)] []

/-- A request to disable a key, under some header. -/
def disableArrival (authorization : String) : Arrival where
  request :=
    { method := .delete, target := utf8 "/admin/api-keys", body := utf8 "\x7b\"id\":1\x7d"
      fields := [(utf8 "Authorization", utf8 authorization)] }
  found := World.small
  headerWritten := true

/-- A chat request, under some header. -/
def chatArrival (authorization : String) : Arrival where
  request :=
    { method := .post, target := utf8 "/api/chat", body := []
      fields := [(utf8 "Authorization", utf8 authorization)] }
  found := { World.small with chain := [.auth] }
  headerWritten := true

/-- A key of the table does not give the right to disable it. -/
theorem key_management_needs_master_key_bearer_k :
    let w : World :=
      { World.small with db := { table := [⟨1, utf8 "k", utf8 "test", 60, 1⟩], idle := [] } }
    (withBody.handleArrivals [disableArrival "Bearer k"] w).2.db.table = w.db.table ∧
      ∃ events, (withBody.handleArrivals [disableArrival "Bearer k"] w).2.trace
          = w.trace ++ events ∧ ∀ e ∈ events, ¬ e.IsKeyManagement :=
  key_management_needs_master_key withBody _ _ (by decide +kernel)

-- the master key does
example :
    (withBody.handleArrivals [disableArrival "Bearer master"] { World.small with
      db := { table := [⟨1, utf8 "k", utf8 "test", 60, 1⟩], idle := [] } }).2.db.table
      = [⟨1, utf8 "k", utf8 "test", 60, 0⟩] := by decide +kernel

end Gateway

end AiSwitch
