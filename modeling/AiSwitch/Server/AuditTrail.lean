import AiSwitch.Db.TableChanges
import AiSwitch.Server.DisableKey
import AiSwitch.Server.RequestRule

/-!
# The table as an audit trail

`disable_api_key` sets a field and deletes nothing, so that the table tells which keys there have
been. `table_accounted` says so of whole runs of requests: in the end the table has the rows that it
had, in their places, each as it was but for keys that a recorded call has disabled, and after them
one new row for some of the recorded creations, in their order.

No request enables a key again. So a key that an administrator has been told is disabled is refused
for good (`disabled_key_refused`), whatever is requested in between.
-/

namespace AiSwitch

open ByteString Effect Nlohmann Http
open Mysql (Row UniqueKeys)
open Operation (Issues Changes)

/-- The creation that is recorded: the name and the limit of the new key. -/
def Event.creation : Event → Option (Bytes × ℤ)
  | createApiKey name rateLimit => some (name, rateLimit)
  | findApiKey _ _ | listApiKeys | disableApiKey _ | handler _ | chatCompletion _ _
  | chatCompletionStream _ _ | doWrite _ | startStream _ _ => none

/-- The row is as it was, or has been disabled by a recorded call. -/
def Ages (events : List Event) (row row' : Row) : Prop :=
  row' = row ∨ .disableApiKey row.id ∈ events ∧ row' = { row with enabled := 0 }

/-- The row stems from a recorded creation. -/
def Stems (dis : UInt32 → ℕ → Fin 16) (events : List Event) (creation : Bytes × ℤ) (row : Row) :
    Prop :=
  ∃ new, Issues dis creation.1 creation.2 new ∧ Ages events new row

/-- The table is accounted for by what is recorded: the rows that were there have aged, and the
others stem from a part of the recorded creations. -/
def Accounted (dis : UInt32 → ℕ → Fin 16) (events : List Event) (table table' : List Row) : Prop :=
  ∃ kept added creations, table' = kept ++ added ∧ List.Forall₂ (Ages events) table kept ∧
    creations.Sublist (events.filterMap Event.creation) ∧
    List.Forall₂ (Stems dis events) creations added

section

variable {dis : UInt32 → ℕ → Fin 16} {events events' : List Event} {table table' table'' : List Row}
  {row row' row'' : Row}

/-- A row keeps its key. -/
@[simp] theorem Ages.apiKey_eq (h : Ages events row row') : row'.apiKey = row.apiKey := by
  obtain rfl | ⟨-, rfl⟩ := h <;> rfl

/-- More events explain no less of what has become of a row. -/
theorem Ages.mono (h : Ages events row row') (hsub : events ⊆ events') : Ages events' row row' :=
  h.imp_right fun h => ⟨hsub h.1, h.2⟩

/-- A disabled row stays as it is. -/
theorem Ages.trans (h : Ages events row row') (h' : Ages events' row' row'') :
    Ages (events ++ events') row row'' := by
  obtain rfl | ⟨hdisabled, rfl⟩ := h
  · exact h'.mono (List.subset_append_right _ _)
  · refine .inr ⟨List.mem_append_left _ hdisabled, ?_⟩
    obtain rfl | ⟨-, rfl⟩ := h' <;> rfl

/-- A row that a creation has made and that ages still stems from that creation. -/
theorem Stems.trans {creation : Bytes × ℤ} (h : Stems dis events creation row)
    (h' : Ages events' row row') : Stems dis (events ++ events') creation row' := by
  obtain ⟨new, hnew, hages⟩ := h
  exact ⟨new, hnew, hages.trans h'⟩

/-- Two relations along lists compose. -/
theorem forall₂_comp {α β γ : Type} {R : α → β → Prop} {S : β → γ → Prop} {T : α → γ → Prop}
    (hstep : ∀ a b c, R a b → S b c → T a c) {as : List α} {bs : List β} {cs : List γ}
    (h : List.Forall₂ R as bs) (h' : List.Forall₂ S bs cs) : List.Forall₂ T as cs := by
  induction h generalizing cs with
  | nil =>
    cases h'
    exact .nil
  | cons hab _ ih =>
    obtain ⟨c, cs, hbc, hrest, rfl⟩ := List.forall₂_cons_left_iff.mp h'
    exact .cons (hstep _ _ _ hab hbc) (ih hrest)

/-- A table that nothing has touched is accounted for by any events. -/
theorem Accounted.refl (dis : UInt32 → ℕ → Fin 16) (events : List Event) (table : List Row) :
    Accounted dis events table table :=
  ⟨table, [], [], (List.append_nil _).symm, List.forall₂_same.mpr fun _ _ => .inl rfl,
    List.nil_sublist _, .nil⟩

/-- What two stretches of a run account for, they account for together. -/
theorem Accounted.trans (h : Accounted dis events table table')
    (h' : Accounted dis events' table' table'') :
    Accounted dis (events ++ events') table table'' := by
  obtain ⟨kept, added, creations, rfl, hkept, hsub, hadded⟩ := h
  obtain ⟨later, new, creations', rfl, hlater, hsub', hnew⟩ := h'
  -- the rows that were there at first, and those of the first part
  have hfirst : List.Forall₂ (Ages events') kept (later.take kept.length) := by
    simpa using List.forall₂_take kept.length hlater
  have hsecond : List.Forall₂ (Ages events') added (later.drop kept.length) := by
    simpa using List.forall₂_drop kept.length hlater
  refine ⟨later.take kept.length, later.drop kept.length ++ new, creations ++ creations', ?_,
    forall₂_comp (fun _ _ _ h h' => h.trans h') hkept hfirst, ?_, ?_⟩
  · rw [← List.append_assoc, List.take_append_drop]
  · rw [List.filterMap_append]
    exact hsub.append hsub'
  · refine List.rel_append (forall₂_comp (fun _ _ _ h h' => h.trans h') hadded hsecond) ?_
    refine hnew.imp fun creation row hrow => ?_
    obtain ⟨issued, hissued, hages⟩ := hrow
    exact ⟨issued, hissued, hages.mono (List.subset_append_right _ _)⟩

/-- **No key is enabled again.** Where a search for a key meets a row that is not enabled, it meets
such a row ever after. -/
theorem Accounted.find?_eq_some (h : Accounted dis events table table') {p : Bytes → Bool}
    (hfind : (table.find? fun r => p r.apiKey) = some row) (hrow : row.enabled ≠ 1) :
    ∃ row', (table'.find? fun r => p r.apiKey) = some row' ∧ row'.enabled ≠ 1 := by
  obtain ⟨kept, added, -, rfl, hkept, -⟩ := h
  induction hkept with
  | nil => cases hfind
  | @cons r r' rs rs' hages _ ih =>
    rw [List.find?_cons] at hfind
    rw [List.cons_append, List.find?_cons, hages.apiKey_eq]
    cases hp : p r.apiKey with
    | true =>
      rw [hp] at hfind
      obtain rfl : r = row := Option.some.inj hfind
      refine ⟨r', rfl, ?_⟩
      obtain rfl | ⟨-, rfl⟩ := hages
      · exact hrow
      · exact zero_ne_one
    | false =>
      rw [hp] at hfind
      exact ih hfind

end

/-! ## Runs of requests -/

namespace Gateway

variable (gw : Gateway)

/-- What is recorded between two states accounts for what has become of the table. -/
def Audits (w w' : World) : Prop :=
  ∃ events, w'.trace = w.trace ++ events ∧ Accounted gw.dis events w.db.table w'.db.table

variable {gw}

/-- A step that records nothing and leaves the table alone needs no account. -/
theorem audits_of_eq {w w' : World} (htrace : w'.trace = w.trace)
    (htable : w'.db.table = w.db.table) : gw.Audits w w' :=
  ⟨[], by rw [htrace, List.append_nil], htable ▸ .refl _ _ _⟩

variable (gw) in
/-- An operation records nothing and changes the table only as it may. -/
theorem audits_repository {α : Type} {m : Repository.Repo α} (op : Operation)
    {g : α → Operation.Result} (hop : op.program = g <$> m) (w : World) :
    ∃ table', (gw.repository m w).2.db.table = table' ∧ (gw.repository m w).2.trace = w.trace ∧
      op.Changed w.db.table table' := by
  have hchanged := Operation.changed_run_program gw.backend op w.db
  rw [hop, Repository.Repo.run, Script.run_map_state] at hchanged
  exact ⟨_, rfl, rfl, hchanged⟩

/-- An operation that only reads needs no account. -/
theorem audits_reading {α : Type} {m : Repository.Repo α} (op : Operation)
    {g : α → Operation.Result} (hop : op.program = g <$> m)
    (hreads : ∀ t t', op.Changes t t' → t' = t) : Prog.Moves gw.Audits (gw.repository m) := by
  intro w
  obtain ⟨table', htable, htrace, hchanged⟩ := gw.audits_repository op hop w
  refine audits_of_eq htrace (htable.trans ?_)
  exact hchanged.elim id (hreads _ _)

/-- The row that `create_api_key` inserts stems from the recorded creation. -/
theorem audits_createApiKey (name : Bytes) (rateLimit : ℤ) :
    Prog.Moves gw.Audits (emit (.createApiKey name rateLimit) >>= fun _ =>
      gw.repository (Repository.createApiKey gw.dis name rateLimit)) := by
  intro w
  rw [emit_bind_apply]
  obtain ⟨table', htable, htrace, hchanged⟩ := gw.audits_repository
    (.createApiKey gw.dis name rateLimit) rfl
    { w with trace := w.trace ++ [.createApiKey name rateLimit] }
  refine ⟨[.createApiKey name rateLimit], htrace, ?_⟩
  rw [htable]
  rcases hchanged with rfl | ⟨row, rfl, hrow⟩
  · exact .refl _ _ _
  · exact ⟨w.db.table, [row], [(name, rateLimit)], rfl, List.forall₂_same.mpr fun _ _ => .inl rfl,
      List.Sublist.refl _, .cons ⟨row, hrow, .inl rfl⟩ .nil⟩

/-- The row that `disable_api_key` switches off has aged by the recorded call. -/
theorem audits_disableApiKey (id : ℤ) :
    Prog.Moves gw.Audits (emit (.disableApiKey id) >>= fun _ =>
      gw.repository (Repository.disableApiKey id)) := by
  intro w
  rw [emit_bind_apply]
  obtain ⟨table', htable, htrace, hchanged⟩ := gw.audits_repository
    (.disableApiKey id) rfl { w with trace := w.trace ++ [.disableApiKey id] }
  refine ⟨[.disableApiKey id], htrace, ?_⟩
  rw [htable]
  rcases hchanged with rfl | hmap
  · exact .refl _ _ _
  · refine ⟨table', [], [], (List.append_nil _).symm, ?_, List.nil_sublist _, .nil⟩
    rw [show table' = w.db.table.map (disableRow id) from hmap, List.forall₂_map_right_iff,
      List.forall₂_same]
    intro row _
    rw [disableRow]
    split_ifs with hid
    · exact .inr ⟨by simp [hid], rfl⟩
    · exact .inl rfl

/-- Every request is served so that the table stays accounted for. -/
theorem serves_audits : Serves gw gw.Audits where
  refl w := audits_of_eq rfl rfl
  trans u v w := by
    rintro ⟨es, hes, huv⟩ ⟨fs, hfs, hvw⟩
    exact ⟨es ++ fs, by rw [hfs, hes, List.append_assoc], huv.trans hvw⟩
  event _ e _ := ⟨[e], rfl, .refl _ _ _⟩
  flags _ _ _ := audits_of_eq rfl rfl
  middlewares _ _ _ := audits_of_eq rfl rfl
  find key := audits_reading (.findApiKey key) rfl fun _ _ => id
  create := audits_createApiKey
  list := audits_reading .listApiKeys rfl fun _ _ => id
  disable := audits_disableApiKey

/-- Every run of the server keeps the table accounted for. -/
theorem audits_handleArrivals (arrivals : List Arrival) (w : World) :
    gw.Audits w (gw.handleArrivals arrivals w).2 :=
  moves_handleArrivals serves_audits (fun _ _ => audits_of_eq rfl rfl) arrivals w

/-- **The table tells which keys there have been.** For every gateway, every run of requests, up to
one without defined behaviour, and every table to start with: no row is removed, moved or changed,
except that a key gets disabled whose disabling is recorded; the rows that come after them are those
of recorded creations, in their order, with generated keys. -/
theorem table_accounted (gw : Gateway) (arrivals : List Arrival) (w : World) :
    ∃ events, (gw.handleArrivals arrivals w).2.trace = w.trace ++ events ∧
      Accounted gw.dis events w.db.table (gw.handleArrivals arrivals w).2.db.table :=
  audits_handleArrivals arrivals w

/-! ## A disabled key -/

variable {w w' : World} {req : Request} {body : Json} {id : ℤ}

/-- A confirmation is given where the statement has been executed. -/
theorem table_of_disableKeyWith_ok {res : Response}
    (hid : body.value "id" (Json.getInt 64) 0 = .ok id)
    (h : gw.disableKeyWith body req.toRequestHeader w = (.ok res, w')) (hok : res.status = .ok) :
    w'.db.table = w.db.table.map (disableRow id) := by
  have hpos : 0 < id := by
    by_contra hnot
    unfold disableKeyWith at h
    rw [hid, Prog.lift_ok_bind, if_pos (not_lt.mp hnot),
      gw.errorResponse_of_validUtf8 (validUtf8_utf8 _)] at h
    cases h
    cases hok
  cases hconn : w.db.connection with
  | none =>
    obtain ⟨w'', hub⟩ :=
      @disableKeyWith_of_connection_none gw w body req.toRequestHeader id hid hpos hconn
    rw [hub] at h
    cases h
  | some c =>
    obtain ⟨db, hrun, htable, -⟩ := @Repository.run_disableApiKey gw.backend w.db c id hconn
    obtain ⟨res', w'', hres, rfl, hstatus⟩ :=
      @disableKeyWith_of_ok gw w body req.toRequestHeader id hid hpos _ _ hrun
    rw [hres] at h
    cases h
    rw [hok] at hstatus
    have hanswers : gw.backend.Answers w.db.calls := by
      by_contra hnot
      rw [if_neg (by simp [hnot])] at hstatus
      cases hstatus
    rw [htable, if_neg (by simp [show gw.backend.fault w.db.calls = none from hanswers])]

/-- Where the handler says that the key is disabled, it is. -/
theorem table_of_handleDisableKey_ok {res : Response} (hparse : gw.lib.parse req.body = .ok body)
    (hid : body.value "id" (Json.getInt 64) 0 = .ok id)
    (h : gw.handleDisableKey req w = (.ok res, w')) (hok : res.status = .ok) :
    w'.db.table = w.db.table.map (disableRow id) := by
  unfold handleDisableKey requireAdmin requireJson at h
  rw [emit_bind_apply] at h
  split_ifs at h
  · rw [hparse] at h
    exact table_of_disableKeyWith_ok (w := { w with trace := w.trace ++ [.handler .disableKey] })
      hid h hok
  · rw [gw.errorResponse_of_validUtf8 (validUtf8_utf8 _)] at h
    cases h
    cases hok

end Gateway

/-- What is recorded of a request that is refused for its key: the lookup, which does not find it,
and a response 401 or 503. A request without a token is not looked up. -/
def Refusal (token : Bytes) (events : List Event) : Prop :=
  ∃ result res, result.found = false ∧
    (res.status = .unauthorized ∨ res.status = .serviceUnavailable) ∧
    events = (if token = [] then [] else [.findApiKey token result]) ++ [.doWrite res]

namespace Gateway

open Middleware

variable {gw : Gateway} {w : World} {req : Request}

variable (gw) in
/-- A key that is not found is refused. -/
theorem auth_process_of_not_found (ctx : Context) (hpath : ¬ Whitelisted ctx.request.target)
    (hdef : AuthDefined gw w ctx.request) (hfound : (keyResult gw w ctx.request).found = false) :
    ∃ db res, (res.status = .unauthorized ∨ res.status = .serviceUnavailable) ∧
      auth.process gw ctx w = (.ok (ctx.reject res),
        { w with db := db, trace := w.trace ++ lookups gw w ctx.request }) := by
  by_cases htoken : extractBearerToken ctx.request = []
  · unfold auth.process
    rw [if_neg hpath, if_pos htoken, ctx.rejectWith_apply, lookups, if_pos (.inr htoken),
      List.append_nil]
    exact ⟨w.db, _, .inl rfl, rfl⟩
  · obtain ⟨db, hdb⟩ := auth_process_of_token gw ctx hpath hdef htoken
    rw [hdb, auth.judge]
    split
    · rw [ctx.rejectWith_apply]
      exact ⟨db, _, .inr rfl, rfl⟩
    · rw [if_pos (by simp [hfound]), ctx.rejectWith_apply]
      exact ⟨db, _, .inl rfl, rfl⟩

variable (gw) in
/-- A request whose key is not found is answered 401 or 503, and nothing else happens. -/
theorem serve_of_not_found {mws : List Middleware} (hchain : w.chain = .auth :: mws)
    (hpath : ¬ Whitelisted req.target)
    (hfits : gw.backend.Fits (extractBearerToken req.toRequestHeader))
    (hfound : (keyResult gw w req.toRequestHeader).found = false) (headerWritten : Bool) :
    ∃ events w', gw.serve req headerWritten w = (.ok (), w') ∧
      w'.trace = w.trace ++ events ∧ Refusal (extractBearerToken req.toRequestHeader) events := by
  obtain ⟨db, res, hstatus, hauth⟩ := auth_process_of_not_found gw
    (freshContext req.toRequestHeader) hpath (.inr (.inr (.inr hfits))) hfound
  have hall := processAll_cons_of_rejected gw _ (process_auth_of_ok gw _ hauth) mws
  rw [← hchain] at hall
  refine ⟨lookups gw w req.toRequestHeader ++ [.doWrite res], { w with
    db := db, trace := w.trace ++ lookups gw w req.toRequestHeader ++ [.doWrite res] }, ?_,
    List.append_assoc _ _ _, keyResult gw w req.toRequestHeader, res, hfound, hstatus, ?_⟩
  · unfold serve handleRequest
    rw [Prog.bind_apply, Prog.bind_of_ok (processChain_of_ok gw hall)]
    rfl
  · rw [lookups]
    simp only [hpath, false_or]

/-- What comes after a run that has not ended is handled in the state that the run leaves. -/
theorem handleArrivals_append_singleton {arrivals : List Arrival} (a : Arrival) {w w' : World}
    (h : gw.handleArrivals arrivals w = (.ok (), w')) :
    gw.handleArrivals (arrivals ++ [a]) w = gw.handleArrival a w' := by
  induction arrivals generalizing w with
  | nil =>
    cases h
    have hone : gw.handleArrivals [a] = gw.handleArrival a >>= fun _ => pure () := rfl
    rw [List.nil_append, hone, Prog.bind_apply]
    rcases gw.handleArrival a w' with ⟨_ | _ | _, w₁⟩ <;> rfl
  | cons b arrivals ih =>
    rw [handleArrivals, Prog.bind_apply] at h
    rw [List.cons_append, handleArrivals, Prog.bind_apply]
    rcases hb : gw.handleArrival b w with ⟨_ | _ | _, w₁⟩
    · rw [hb] at h
      exact ih h
    · rw [hb] at h
      cases h
    · rw [hb] at h
      cases h

/-- **A disabled key is refused for good.** An administrator has been told that the key of a row is
disabled. Then, after any run of requests that has not ended, a request that carries this key, or
what the collation takes for it, and whose path needs a key, is refused, whatever it asks for: the
key is looked up and not found, a response 401 or 503 is written, and nothing else happens. -/
theorem disabled_key_refused (gw : Gateway) (req : Request) (body : Json) (w w' w₁ : World)
    (res : Response) (row : Row) (arrivals : List Arrival) (a : Arrival) (mws : List Middleware)
    (hcoll : gw.backend.IsCollation) (hkeys : UniqueKeys gw.backend w.db.table)
    (hrow : row ∈ w.db.table) (hparse : gw.lib.parse req.body = .ok body)
    (hid : body.value "id" (Json.getInt 64) 0 = .ok row.id)
    (hdisable : gw.handleDisableKey req w = (.ok res, w')) (hok : res.status = .ok)
    (hrun : gw.handleArrivals arrivals w' = (.ok (), w₁))
    (hchain : a.found.chain = .auth :: mws) (hpath : ¬ Whitelisted a.request.target)
    (hfits : gw.backend.Fits (extractBearerToken a.request.toRequestHeader))
    (htoken : gw.backend.collates row.apiKey (extractBearerToken a.request.toRequestHeader)
      = true) :
    ∃ events w₂, gw.handleArrivals (arrivals ++ [a]) w' = (.ok (), w₂) ∧
      w₂.trace = w₁.trace ++ events ∧
      Refusal (extractBearerToken a.request.toRequestHeader) events := by
  have htable := table_of_handleDisableKey_ok hparse hid hdisable hok
  -- the search for the key meets the row, now disabled
  have hfind : (w'.db.table.find? fun r => gw.backend.collates r.apiKey
      (extractBearerToken a.request.toRequestHeader)) = some { row with enabled := 0 } := by
    rw [htable, find?_map_disableRow row.id fun key => gw.backend.collates key
        (extractBearerToken a.request.toRequestHeader),
      hkeys.find?_eq_some hcoll hrow htoken, Option.map_some, disableRow, if_pos rfl]
  obtain ⟨_, -, haccounted⟩ : gw.Audits w' w₁ := by
    have haudits : gw.Audits w' _ := audits_handleArrivals arrivals w'
    rwa [hrun] at haudits
  obtain ⟨row', hfind', hdisabled⟩ := haccounted.find?_eq_some
    (p := fun key => gw.backend.collates key (extractBearerToken a.request.toRequestHeader)) hfind
    zero_ne_one
  have hfound : (Repository.findResult gw.backend { a.found.db with table := w₁.db.table }
      (extractBearerToken a.request.toRequestHeader)).found = false := by
    rw [Repository.findResult]
    split_ifs
    · rw [hfind', Repository.rowResult, if_neg (by simpa [Repository.rowInfo] using hdisabled)]
    · rfl
  obtain ⟨events, w₂, hserve, htrace, hrefusal⟩ := gw.serve_of_not_found
    (w := { a.found with db := { a.found.db with table := w₁.db.table }, trace := w₁.trace })
    hchain hpath hfits hfound a.headerWritten
  refine ⟨events, w₂, ?_, htrace, hrefusal⟩
  rw [handleArrivals_append_singleton a hrun, handleArrival, Prog.modify_bind_apply, Prog.tryCatch,
    hserve]

/-- A table with the key `k`. -/
def withKey : World :=
  { World.small with db := { table := [⟨1, utf8 "k", utf8 "test", 60, 1⟩], idle := [some 0] } }

/-- The key `k` is refused once the administrator has been told so, also after his next request. -/
theorem disabled_key_refused_k :
    let again := disableArrival "Bearer master"
    let w' := (withBody.handleDisableKey again.request withKey).2
    ∃ events w₂, withBody.handleArrivals ([again] ++ [chatArrival "Bearer k"]) w' = (.ok (), w₂) ∧
      w₂.trace = (withBody.handleArrivals [again] w').2.trace ++ events ∧
      Refusal (extractBearerToken (chatArrival "Bearer k").request.toRequestHeader) events :=
  disabled_key_refused withBody (disableArrival "Bearer master").request
    (.obj [("id", .integer 1)]) withKey _ _
    (makeJsonResponse (withBody.lib.text (.obj [("status", .lit "disabled"), ("id", .integer 1)]))
      11 true)
    ⟨1, utf8 "k", utf8 "test", 60, 1⟩ [disableArrival "Bearer master"] (chatArrival "Bearer k") []
    KeyStore.isCollation_bytewise (List.pairwise_singleton _ _) List.mem_cons_self rfl rfl
    (Prod.ext (by decide +kernel) rfl) rfl (Prod.ext (by decide +kernel) rfl) rfl
    (by decide +kernel) (by decide +kernel) (by decide +kernel)

end Gateway

end AiSwitch
