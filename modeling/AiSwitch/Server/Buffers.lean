import AiSwitch.Db.Operations
import AiSwitch.Main

/-!
# The buffers of escaped texts

`find_api_key` and `create_api_key` escape texts of clients into 256 bytes on the stack. The token
of a request reaches the first one before anything is known about the client, the name in a body the
second one, both at whatever length they were sent. `escapes_in_bounds_iff` says which texts fit, in
terms of what the client library escapes.
-/

namespace AiSwitch

open ByteString Effect Nlohmann Http Mysql Middleware Script

/-! ## The writes of an operation -/

namespace Operation

/-- Whatever `mysql_real_escape_string` writes in the operation, with its terminating zero, fits
into the buffer it is given. -/
def EscapesInBounds (be : Backend) (op : Operation) (db : Db) : Prop :=
  ∀ conn src, .realEscapeString conn src ∈ op.calls be db →
    (be.escape src).length + 1 ≤ bufferSize

/-- Only texts with the property `S` are escaped. -/
def escapes (S : Bytes → Prop) : Protocol Op Op.Res Unit where
  allowed _ op := ∀ conn src, op = .realEscapeString conn src → S src
  expected _ _ _ := True
  after _ _ _ := ()
  final _ := True

variable {S : Bytes → Prop} {be : Backend} {op : Operation} {db : Db} {key name : Bytes}

/-- An operation that only escapes what fits stays within its buffers. -/
theorem escapesInBounds_of_obeys (h : Obeys (escapes be.Fits) () op.program) :
    EscapesInBounds be op db := by
  intro conn src hcall
  obtain ⟨_, hallowed⟩ := h.allowed_of_mem_trace (I := fun _ _ => True)
    (fun _ _ _ => ⟨trivial, trivial⟩) trivial hcall
  exact hallowed conn src rfl

/-- A lookup escapes its key alone. -/
theorem obeys_escapes_findApiKey (hkey : S key) :
    Obeys (escapes S) () (Repository.findApiKey key) := by
  refine obeys_findApiKey_of_allowed nofun (fun _ conn src h => ?_) (fun _ _ => nofun)
    (fun _ => nofun) (fun _ => nofun) trivial
  cases h
  exact hkey

/-- A creation escapes the drawn key and the name alone. -/
theorem obeys_escapes_createApiKey {dis : UInt32 → ℕ → Fin 16}
    (hkey : ∀ seed, S (Repository.generateApiKey dis seed)) (hname : S name) (rateLimit : ℤ) :
    Obeys (escapes S) () (Repository.createApiKey dis name rateLimit) := by
  refine ⟨nofun, fun conn _ => ⟨nofun, fun seed _ => ⟨fun conn src h => by cases h; exact hname,
    fun escapedName _ => ⟨fun conn src h => by cases h; exact hkey seed,
      fun escapedKey _ => ⟨nofun, fun answered _ => ?_⟩⟩⟩⟩⟩
  cases answered with
  | false => exact ⟨nofun, fun _ _ => trivial⟩
  | true => exact ⟨nofun, fun _ _ => ⟨nofun, fun _ _ => trivial⟩⟩

/-- A lookup escapes its key as soon as it has a connection. -/
theorem escapesInBounds_findApiKey_iff (be : Backend) (db : Db) (key : Bytes) :
    EscapesInBounds be (findApiKey key) db ↔ db.connection = none ∨ be.Fits key := by
  constructor
  · intro h
    rw [or_iff_not_imp_left]
    intro hconn
    have hborrow : Mysql.server be .borrow db
      = (.ok db.connection, { db with idle := db.idle.tail }) := rfl
    apply h db.connection key
    rw [calls, program, trace_map, Repository.findApiKey, Repository.borrow,
      trace_perform_bind_of_ok hborrow, if_neg hconn]
    exact List.mem_cons_of_mem _ (mem_trace_perform_bind _ _)
  · rintro (hconn | hkey)
    · -- without a connection there is no call after `borrow`
      have hborrow : Mysql.server be .borrow db = (.ok none, { db with idle := db.idle.tail }) := by
        rw [← hconn]
        rfl
      intro conn src hcall
      rw [calls, program, trace_map, Repository.findApiKey, Repository.borrow,
        trace_perform_bind_of_ok hborrow, if_pos rfl] at hcall
      simp [trace, pure] at hcall
    · exact escapesInBounds_of_obeys ((obeys_escapes_findApiKey hkey).map _)

/-- A creation escapes its name in any case. -/
theorem escapesInBounds_createApiKey_iff (be : Backend) (db : Db) (dis : UInt32 → ℕ → Fin 16)
    (name : Bytes) (rateLimit : ℤ) :
    EscapesInBounds be (createApiKey dis name rateLimit) db ↔ be.Fits name := by
  constructor
  · intro h
    have hborrow : Mysql.server be .borrow db
      = (.ok db.connection, { db with idle := db.idle.tail }) := rfl
    apply h db.connection name
    rw [calls, program, trace_map, Repository.createApiKey, Repository.borrow,
      trace_perform_bind_of_ok hborrow, Repository.randomDevice, trace_perform_bind_of_ok rfl]
    exact List.mem_cons_of_mem _ (List.mem_cons_of_mem _ (mem_trace_perform_bind _ _))
  · intro hname
    exact escapesInBounds_of_obeys ((obeys_escapes_createApiKey
      (Repository.fits_generateApiKey be dis) hname rateLimit).map _)

end Operation

/-! ## The requests -/

open Operation

variable (gw : Gateway) (w : World)

/-- After a lookup the request is judged without further calls. -/
theorem Middleware.auth.exists_judge_eq (ctx : Context) (result : ApiKeyResult) :
    ∃ ctx', auth.judge gw ctx result w = (.ok ctx', w) := by
  unfold auth.judge
  split
  · exact ⟨_, ctx.rejectWith_apply gw _ _ _ _⟩
  · split
    · exact ⟨_, ctx.rejectWith_apply gw _ _ _ _⟩
    · exact ⟨_, rfl⟩

/-- A token that is too long is the only way in which `auth_middleware` has no behaviour. -/
theorem auth_process_eq_ub_iff {ctx : Context} (hpath : ¬ Whitelisted ctx.request.target)
    (htoken : extractBearerToken ctx.request ≠ []) :
    (auth.process gw ctx w).1 = .ub
      ↔ ¬ EscapesInBounds gw.backend (.findApiKey (extractBearerToken ctx.request)) w.db := by
  have hdef : AuthDefined gw w ctx.request
      ↔ EscapesInBounds gw.backend (.findApiKey (extractBearerToken ctx.request)) w.db := by
    rw [escapesInBounds_findApiKey_iff, AuthDefined, or_iff_right hpath, or_iff_right htoken]
  rw [← hdef]
  by_cases h : AuthDefined gw w ctx.request
  · refine iff_of_false ?_ (not_not.mpr h)
    obtain ⟨db, hdb⟩ := auth_process_of_token gw ctx hpath h htoken
    obtain ⟨ctx', hjudge⟩ := auth.exists_judge_eq gw
      { w with db := db, trace := w.trace ++ lookups gw w ctx.request } ctx
      (keyResult gw w ctx.request)
    rw [hdb, hjudge]
    simp
  · obtain ⟨db, hdb⟩ := auth_process_of_not_defined gw ctx h
    exact iff_of_true (by rw [hdb]) h

/-- With a connection, a name that is too long is the only way in which the handler that creates a
key has no behaviour. -/
theorem createKeyWith_eq_ub_iff {body : Json} {name : Bytes} {rateLimit : ℤ} (req : RequestHeader)
    (hname : body.value "name" Json.getString [] = .ok name)
    (hrate : body.value "rate_limit" (Json.getInt 32) 60 = .ok rateLimit) (hne : name ≠ [])
    (hconn : w.db.connection ≠ none) :
    (gw.createKeyWith body req w).1 = .ub
      ↔ ¬ EscapesInBounds gw.backend (.createApiKey gw.dis name rateLimit) w.db := by
  obtain ⟨c, hc⟩ := Option.ne_none_iff_exists'.mp hconn
  unfold Gateway.createKeyWith
  rw [hname, Prog.lift_ok_bind, hrate, Prog.lift_ok_bind, if_neg hne, emit_bind_apply,
    escapesInBounds_createApiKey_iff]
  by_cases hfits : gw.backend.Fits name
  · refine iff_of_false ?_ (not_not.mpr hfits)
    obtain ⟨key, db, hrun, -⟩ :=
      Repository.run_createApiKey_of_fits gw.backend w.db gw.dis rateLimit hc hfits
    have hcreate := gw.repository_of_ok
      (w := { w with trace := w.trace ++ [.createApiKey name rateLimit] }) hrun
    rw [Prog.bind_of_ok hcreate, Gateway.jsonResponse, Lib.dump]
    split <;> simp
  · obtain ⟨db, hrun⟩ :=
      Repository.run_createApiKey_of_not_fits gw.backend w.db gw.dis rateLimit hc hfits
    have hcreate := gw.repository_of_ub
      (w := { w with trace := w.trace ++ [.createApiKey name rateLimit] }) hrun
    exact iff_of_true (congrArg Prod.fst (Prog.bind_of_ub hcreate _)) hfits

/-- **Which texts the buffers hold.** For every escaping, every request to a path that needs a key
and every token in it, whatever the database does, and for every name that the handler of
`POST /admin/api-keys` accepts: what is written stays within the buffer exactly if the bytes of the
text and its escaped characters are 255 at most (or, for a token, there is no connection and nothing
is written). A longer text overflows the buffer, which leaves the middleware or the handler without
behaviour. -/
theorem escapes_in_bounds_iff :
    (∀ ctx : Context, ¬ Whitelisted ctx.request.target → extractBearerToken ctx.request ≠ [] →
      (EscapesInBounds gw.backend (.findApiKey (extractBearerToken ctx.request)) w.db ↔
        w.db.connection = none ∨ (extractBearerToken ctx.request).length
          + gw.backend.escapes (extractBearerToken ctx.request) ≤ 255) ∧
      ((auth.process gw ctx w).1 = .ub ↔
        ¬ EscapesInBounds gw.backend (.findApiKey (extractBearerToken ctx.request)) w.db)) ∧
    ∀ (body : Json) (req : RequestHeader) (name : Bytes) (rateLimit : ℤ),
      body.value "name" Json.getString [] = .ok name →
      body.value "rate_limit" (Json.getInt 32) 60 = .ok rateLimit → name ≠ [] →
      (EscapesInBounds gw.backend (.createApiKey gw.dis name rateLimit) w.db ↔
        name.length + gw.backend.escapes name ≤ 255) ∧
      (w.db.connection ≠ none → ((gw.createKeyWith body req w).1 = .ub ↔
        ¬ EscapesInBounds gw.backend (.createApiKey gw.dis name rateLimit) w.db)) := by
  refine ⟨fun ctx hpath htoken => ⟨?_, auth_process_eq_ub_iff gw w hpath htoken⟩,
    fun body req name rateLimit hname hrate hne =>
      ⟨?_, createKeyWith_eq_ub_iff gw w req hname hrate hne⟩⟩
  · rw [escapesInBounds_findApiKey_iff, Escaping.fits_iff]
  · rw [escapesInBounds_createApiKey_iff, Escaping.fits_iff]

/-- A request with a token of 256 characters. -/
def longToken : Context where
  request :=
    { method := .post, target := utf8 "/api/chat"
      fields := [(utf8 "Authorization", utf8 "Bearer " ++ List.replicate 256 97)] }

/-- The token need not be a key of anybody. -/
theorem not_escapesInBounds_longToken :
    ¬ Whitelisted longToken.request.target ∧
      ¬ EscapesInBounds (Gateway.small [] []).backend
        (.findApiKey (extractBearerToken longToken.request)) World.small.db ∧
      (auth.process (Gateway.small [] []) longToken World.small).1 = .ub := by
  have hpath : ¬ Whitelisted longToken.request.target := by decide
  have hout : ¬ EscapesInBounds (Gateway.small [] []).backend
      (.findApiKey (extractBearerToken longToken.request)) World.small.db := by
    rw [escapesInBounds_findApiKey_iff]
    decide +kernel
  exact ⟨hpath, hout, (auth_process_eq_ub_iff _ _ hpath (by decide +kernel)).mpr hout⟩

end AiSwitch
