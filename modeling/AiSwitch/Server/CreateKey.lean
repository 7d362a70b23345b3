import AiSwitch.Common.JsonText
import AiSwitch.Common.Transition
import AiSwitch.Db.KeyStore
import AiSwitch.Server.Answers
import Std.Data.String.ToInt

/-!
# What is handed out as a new key

`create_api_key` tells that its `INSERT` has failed by a record of empty fields, and the handler of
`POST /admin/api-keys` sends it like any other, with the status 200. `creates_usable_key_iff` says
for which requests, tables and outcomes of the statement the answer 200 means that there is a new
key, which is then accepted until it is disabled.
-/

namespace AiSwitch

open ByteString Effect Nlohmann Http
open Mysql (Backend Db Row Statement UniqueKeys varchar charLength)

/-! ## The statement -/

namespace Mysql

/-- Cutting a text that is too long loses bytes of it. -/
theorem length_takeChars_lt {n : ℕ} {s : Bytes} (h : n < charLength s) :
    (takeChars n s).length < s.length := by
  induction s generalizing n with
  | nil => exact absurd h (Nat.not_lt_zero n)
  | cons b s ih =>
    rw [charLength, List.countP_cons] at h
    rw [takeChars.eq_def]
    dsimp only
    split
    · rename_i hb
      rw [if_pos (by simpa using hb)] at h
      cases n with
      | zero => simp
      | succ n => exact Nat.succ_lt_succ (ih (Nat.lt_of_succ_lt_succ h))
    · rename_i hb
      rw [if_neg (by simpa using hb)] at h
      exact Nat.succ_lt_succ (ih h)

/-- The column holds exactly the texts that are not too long as they are. -/
theorem varchar_eq_some_self_iff {n : ℕ} {s : Bytes} :
    varchar n s = some s ↔ charLength s ≤ n := by
  refine ⟨fun h => ?_, varchar_of_le⟩
  by_contra hlong
  have hlt := length_takeChars_lt (not_le.mp hlong)
  rw [varchar] at h
  split_ifs at h
  rw [Option.some.inj h] at hlt
  exact lt_irrefl _ hlt

/-- The row that the `INSERT` of a key adds, where the server accepts it. -/
def insertedRow (be : Backend) (db : Db) (key name : Bytes) (rateLimit : ℤ) : Option Row :=
  (varchar 128 name).bind fun stored =>
    if db.table.any fun r => be.collates r.apiKey key then none
    else some ⟨db.nextId, key, stored, rateLimit, 1⟩

/-- A row is inserted when its name fits and its key is new. -/
theorem insertedRow_eq_some_iff {be : Backend} {db : Db} {key name : Bytes} {rateLimit : ℤ}
    {row : Row} :
    insertedRow be db key name rateLimit = some row ↔
      ∃ stored, varchar 128 name = some stored ∧
        (∀ r ∈ db.table, be.collates r.apiKey key = false) ∧
        row = ⟨db.nextId, key, stored, rateLimit, 1⟩ := by
  unfold insertedRow
  rw [Option.bind_eq_some_iff]
  apply exists_congr
  intro stored
  apply and_congr_right
  intro _
  have hnew : ¬ (db.table.any fun r => be.collates r.apiKey key) = true ↔
      ∀ r ∈ db.table, be.collates r.apiKey key = false := by simp
  rw [Option.ite_none_left_eq_some, hnew, Option.some.injEq, @eq_comm _ _ row]

/-- The state with a row more. -/
def Db.insert (db : Db) (c : ℕ) (row : Row) : Db := { db with
  table := db.table ++ [row]
  nextId := db.nextId + 1
  insertId := Function.update db.insertId c row.id }

/-- The INSERT adds the row that is inserted, and fails without one. -/
theorem execute_insert {be : Backend} {db : Db} {key : Bytes} (hkey : charLength key ≤ 64) (c : ℕ)
    (name : Bytes) (rateLimit : ℤ) :
    execute be db c (.insert (be.escape key) (be.escape name) rateLimit)
      = (insertedRow be db key name rateLimit).map (db.insert c) := by
  simp only [execute, insertedRow, be.unescape_escape, varchar_of_le hkey]
  cases varchar 128 name with
  | none => rfl
  | some stored =>
    by_cases hany : (db.table.any fun r => be.collates r.apiKey key) = true
    · simp [hany]
    · simp [hany, Db.insert]

/-- No statement makes two keys equal. -/
theorem UniqueKeys.execute {be : Backend} {db db' : Db} {c : ℕ} {stmt : Statement}
    (h : UniqueKeys be db.table) (hexec : execute be db c stmt = some db') :
    UniqueKeys be db'.table := by
  cases stmt with
  | insert key name rateLimit =>
    dsimp only [Mysql.execute] at hexec
    split at hexec
    · rename_i apiKey name _ _
      obtain ⟨hnew, hsome⟩ := Option.ite_none_left_eq_some.mp hexec
      cases hsome
      have hnew' : ∀ r ∈ db.table, be.collates r.apiKey apiKey = false := by simpa using hnew
      exact h.append hnew'
    · cases hexec
  | selectKey | selectAll =>
    cases hexec
    exact h
  | disable id =>
    cases hexec
    show UniqueKeys be (db.table.map (disableRow id))
    simpa [UniqueKeys, List.pairwise_map] using h

/-- A row stays as it is under a statement that does not disable it. -/
theorem mem_execute {be : Backend} {db db' : Db} {c : ℕ} {stmt : Statement} {row : Row}
    (h : row ∈ db.table) (hexec : Mysql.execute be db c stmt = some db')
    (hstmt : stmt ≠ .disable row.id) : row ∈ db'.table := by
  cases stmt with
  | insert key name rateLimit =>
    dsimp only [Mysql.execute] at hexec
    split at hexec
    · obtain ⟨-, hsome⟩ := Option.ite_none_left_eq_some.mp hexec
      cases hsome
      exact List.mem_append_left _ h
    · cases hexec
  | selectKey | selectAll =>
    cases hexec
    exact h
  | disable id =>
    cases hexec
    refine List.mem_map.mpr ⟨row, h, if_neg fun hid => hstmt ?_⟩
    rw [hid]

/-- Execute a statement over a connection. -/
def step (be : Backend) (db : Db) (a : ℕ × Statement) : Option Db := execute be db a.1 a.2

end Mysql

/-! ## The life of the new row -/

/-- The key of the row is accepted in every table that statements make of this one, as long as none
of them disables the row. -/
def AcceptedUntilDisabled (be : Backend) (db : Db) (row : Row) : Prop :=
  ∀ statements db', Transition.run (Mysql.step be) db statements = some db' →
    (∀ a ∈ statements, a.2 ≠ .disable row.id) → Accepts be db'.table row.apiKey

section

variable {be : Backend} {db : Db} {row : Row}

/-- **A row is accepted until it is disabled.** -/
theorem acceptedUntilDisabled (hcoll : be.IsCollation) (hkeys : UniqueKeys be db.table)
    (hrow : row ∈ db.table) (hfits : be.Fits row.apiKey) (henabled : row.enabled = 1) :
    AcceptedUntilDisabled be db row := by
  intro statements db' hrun hnot
  -- the keys stay unique, and the row stays what it is
  have hstep : ∀ (db : Db) (a : ℕ × Statement) (db' : Db),
      UniqueKeys be db.table ∧ row ∈ db.table → a.2 ≠ .disable row.id →
        Mysql.step be db a = some db' → UniqueKeys be db'.table ∧ row ∈ db'.table :=
    fun _ _ _ hinv hne hexec => ⟨hinv.1.execute hexec, Mysql.mem_execute hinv.2 hexec hne⟩
  have hinv := Transition.invariant_run hstep ⟨hkeys, hrow⟩
    (Transition.respects_of_forall hnot) hrun
  exact (accepts_iff hcoll hinv.1 hinv.2 hfits).mpr henabled

end

/-! ## The answer -/

namespace Gateway

section

variable {lib : Lib} (key : ApiKeyInfo)

/-- The text of the answer, member by member. -/
theorem text_createdDocument : lib.text (createdDocument key) =
    utf8 "\x7b\"api_key\":" ++ (quote key.apiKey ++ (utf8 ",\"name\":" ++ (quote key.name ++
      (utf8 ",\"rate_limit\":" ++ (utf8 (toString key.rateLimit) ++ utf8 "\x7d"))))) := by
  have hkeys : utf8 "\x7b" ++ (quote (utf8 "api_key") ++ utf8 ":") = utf8 "\x7b\"api_key\":" ∧
      utf8 "," ++ (quote (utf8 "name") ++ utf8 ":") = utf8 ",\"name\":" ∧
      utf8 "," ++ (quote (utf8 "rate_limit") ++ utf8 ":") = utf8 ",\"rate_limit\":" := by
    decide +kernel
  have hdocument : createdDocument key = .object [(utf8 "api_key", .string key.apiKey),
      (utf8 "name", .string key.name), (utf8 "rate_limit", .integer key.rateLimit)] := rfl
  rw [hdocument, ← hkeys.1, ← hkeys.2.1, ← hkeys.2.2]
  simp [Lib.text, Lib.fieldTexts]

variable {key} {key' : ApiKeyInfo}

/-- The text of the answer has the key, its name and its limit in it. -/
theorem text_createdDocument_inj
    (h : lib.text (createdDocument key) = lib.text (createdDocument key')) :
    key.apiKey = key'.apiKey ∧ key.name = key'.name ∧ key.rateLimit = key'.rateLimit := by
  rw [text_createdDocument, text_createdDocument, List.append_cancel_left_eq] at h
  obtain ⟨hkey, h⟩ := Json.quote_append_inj h
  obtain ⟨hname, h⟩ := Json.quote_append_inj (List.append_cancel_left h)
  have hlimit := utf8_inj.mp (List.append_cancel_right (List.append_cancel_left h))
  exact ⟨hkey, hname, Int.repr_injective hlimit⟩

end

end Gateway

/-! ## The call -/

namespace Repository

variable {be : Backend} {db : Db} {dis : UInt32 → ℕ → Fin 16} {name : Bytes} {rateLimit : ℤ}
  {c : ℕ} {row : Row}

/-- The drawn key fits its column. -/
theorem charLength_drawnKey_le (be : Backend) (db : Db) (dis : UInt32 → ℕ → Fin 16) :
    charLength (drawnKey be db dis) ≤ 64 :=
  KeyStore.charLength_generateApiKey_le dis _

/-- What the statement of a creation does where it is executed. -/
theorem execute_creation (be : Backend) (db : Db) (dis : UInt32 → ℕ → Fin 16) (c : ℕ) (name : Bytes)
    (rateLimit : ℤ) :
    Mysql.execute be (drawn db).called c
        (.insert (be.escape (drawnKey be db dis)) (be.escape name) rateLimit)
      = (Mysql.insertedRow be db (drawnKey be db dis) name rateLimit).map
        ((drawn db).called.insert c) :=
  Mysql.execute_insert (charLength_drawnKey_le be db dis) c name rateLimit

/-- A creation whose statement adds a row, and is answered, returns the record of that row. -/
theorem run_createApiKey_of_inserted (h : db.connection = some c) (hfits : be.Fits name)
    (hanswers : be.Answers db.calls)
    (hrow : Mysql.insertedRow be db (drawnKey be db dis) name rateLimit = some row) :
    ∃ db', (createApiKey dis name rateLimit).run be db
        = (.ok ⟨row.id, row.apiKey, name, rateLimit, true⟩, db') ∧
      db'.table = db.table ++ [row] := by
  have hkey : row.apiKey = drawnKey be db dis := by
    obtain ⟨stored, -, -, rfl⟩ := Mysql.insertedRow_eq_some_iff.mp hrow
    rfl
  have hquery := Mysql.query_of_answers (c := c) be (drawn db) hanswers
    (.insert (be.escape (drawnKey be db dis)) (be.escape name) rateLimit)
  rw [execute_creation, hrow, Option.map_some] at hquery
  rw [run_createApiKey_of_query be db dis rateLimit h hfits hquery, if_pos rfl, ← hkey]
  refine ⟨_, congrArg (fun id => (Outcome.ok (ApiKeyInfo.mk id _ _ _ _), _)) ?_, rfl⟩
  exact Function.update_self _ _ _

/-- A creation whose statement adds none, or is not answered, returns the empty record, whether or
not a row has been added. -/
theorem run_createApiKey_of_failed (h : db.connection = some c) (hfits : be.Fits name)
    (hfailed : be.Answers db.calls →
      Mysql.insertedRow be db (drawnKey be db dis) name rateLimit = none) :
    ∃ db', (createApiKey dis name rateLimit).run be db = (.ok {}, db') ∧
      (db'.table = db.table ∨ ∃ row,
        Mysql.insertedRow be db (drawnKey be db dis) name rateLimit = some row ∧
          db'.table = db.table ++ [row]) := by
  by_cases hanswers : be.Answers db.calls
  · have hquery := Mysql.query_of_answers (c := c) be (drawn db) hanswers
      (.insert (be.escape (drawnKey be db dis)) (be.escape name) rateLimit)
    rw [execute_creation, hfailed hanswers, Option.map_none] at hquery
    exact ⟨_, run_createApiKey_of_query be db dis rateLimit h hfits hquery, .inl rfl⟩
  · obtain ⟨db', hquery, hdb'⟩ := Mysql.query_of_not_answers (c := c) be (drawn db) hanswers
      (.insert (be.escape (drawnKey be db dis)) (be.escape name) rateLimit)
    refine ⟨_, run_createApiKey_of_query be db dis rateLimit h hfits hquery, ?_⟩
    rcases hdb' with rfl | hexec
    · exact .inl rfl
    · rw [execute_creation] at hexec
      obtain ⟨row, hrow, rfl⟩ := Option.map_eq_some_iff.mp hexec
      exact .inr ⟨row, hrow, rfl⟩

end Repository

/-! ## The handler -/

namespace Gateway

open Repository

/-- The answer hands out a key: a row has been added with the name that was asked for, the answer
shows its key, which is not empty, and the name, and the key is accepted until it is disabled. -/
def HandsOut (gw : Gateway) (w w' : World) (req : RequestHeader) (name : Bytes) (res : Response) :
    Prop :=
  ∃ (row : Row) (key : ApiKeyInfo), w'.db.table = w.db.table ++ [row] ∧ row.name = name ∧
    res = makeJsonResponse (gw.lib.text (createdDocument key)) req.version req.keepAlive ∧
    key.apiKey = row.apiKey ∧ key.apiKey ≠ [] ∧ key.name = name ∧
    AcceptedUntilDisabled gw.backend w'.db row

/-- The handler of `POST /admin/api-keys` answers, with 200 only if it hands out the key that the
body asks for, and otherwise with the status of an error and an unchanged table. -/
def CreatesUsableKey (gw : Gateway) (w : World) (req : Request) : Prop :=
  ∃ res w', gw.handleCreateKey req w = (.ok res, w') ∧
    (res.status = .ok → ∃ body name, gw.lib.tryParse req.body = .ok body ∧
      body.value "name" Json.getString [] = .ok name ∧
      gw.HandsOut w w' req.toRequestHeader name res) ∧
    (res.status ≠ .ok → w'.db.table = w.db.table)

/-- The database adds the key and says so: there is a connection, the name fits its buffer and its
column, the key that is drawn is new, and the statement is answered. -/
structure Creatable (gw : Gateway) (db : Db) (name : Bytes) : Prop where
  connection : db.connection ≠ none
  fits : gw.backend.Fits name
  length : charLength name ≤ 128
  key_new : ∀ r ∈ db.table, gw.backend.collates r.apiKey (drawnKey gw.backend db gw.dis) = false
  answers : gw.backend.Answers db.calls

variable {gw : Gateway} {w : World} {body : Json} {req : Request} {name : Bytes} {rateLimit : ℤ}

/-- With the master key and a body that parses, the handler creates the key. -/
theorem handleCreateKey_of_ok (hadmin : gw.verifyAdmin req.toRequestHeader = true)
    (hbody : gw.lib.tryParse req.body = .ok body) :
    gw.handleCreateKey req w = gw.createKeyWith body req.toRequestHeader
      { w with trace := w.trace ++ [.handler .createKey] } := by
  unfold handleCreateKey requireAdmin requireJson
  rw [emit_bind_apply, if_pos hadmin, parse_of_tryParse hbody]

/-- A body that is no JSON is answered with an error. -/
theorem createsUsableKey_of_error (hadmin : gw.verifyAdmin req.toRequestHeader = true)
    {e : ParseFailure} (hbody : gw.lib.tryParse req.body = .error e) :
    CreatesUsableKey gw w req := by
  have hrun : gw.handleCreateKey req w =
      (.ok (gw.errorResult .badRequest "invalid_json" (utf8 "请求体不是合法 JSON")
        req.toRequestHeader), { w with trace := w.trace ++ [.handler .createKey] }) := by
    unfold handleCreateKey requireAdmin requireJson
    rw [emit_bind_apply, if_pos hadmin, Lib.parse, parseBy, hbody]
    exact gw.errorResponse_of_validUtf8 (validUtf8_utf8 _) _ _ _ _
  refine ⟨_, _, hrun, fun hok => ?_, fun _ => rfl⟩
  cases hok

/-- A body without a name is answered with an error. -/
theorem createKeyWith_of_nil (hname : body.value "name" Json.getString [] = .ok [])
    (hlimit : body.value "rate_limit" (Json.getInt 32) 60 = .ok rateLimit) (req : RequestHeader) :
    gw.createKeyWith body req w
      = (.ok (gw.errorResult .badRequest "missing_name" (utf8 "缺少 name 字段") req), w) := by
  unfold createKeyWith
  rw [hname, Prog.lift_ok_bind, hlimit, Prog.lift_ok_bind, if_pos rfl]
  exact gw.errorResponse_of_validUtf8 (validUtf8_utf8 _) _ _ _ _

/-- Any other is answered with the document of the record that the call returns. -/
theorem createKeyWith_of_ok (hname : body.value "name" Json.getString [] = .ok name)
    (hlimit : body.value "rate_limit" (Json.getInt 32) 60 = .ok rateLimit) (hne : name ≠ [])
    {key : ApiKeyInfo} {db : Db}
    (hrun : (createApiKey gw.dis name rateLimit).run gw.backend w.db = (.ok key, db))
    (hkey : (createdDocument key).isValid = true) (req : RequestHeader) :
    ∃ w', gw.createKeyWith body req w
        = (.ok (makeJsonResponse (gw.lib.text (createdDocument key)) req.version req.keepAlive),
          w') ∧
      w'.db = db := by
  unfold createKeyWith
  rw [hname, Prog.lift_ok_bind, hlimit, Prog.lift_ok_bind, if_neg hne, emit_bind_apply,
    Prog.bind_of_ok (gw.repository_of_ok
      (w := { w with trace := w.trace ++ [.createApiKey name rateLimit] }) hrun),
    jsonResponse, Lib.dump_of_isValid hkey]
  exact ⟨_, rfl, rfl⟩

/-- The statement of a creation adds the row, and is answered. -/
def Adds (gw : Gateway) (db : Db) (name : Bytes) (rateLimit : ℤ) (row : Row) : Prop :=
  gw.backend.Answers db.calls ∧
    Mysql.insertedRow gw.backend db (drawnKey gw.backend db gw.dis) name rateLimit = some row

section

variable (hbody : body.isValid = true) (hname : body.value "name" Json.getString [] = .ok name)
  (hlimit : body.value "rate_limit" (Json.getInt 32) 60 = .ok rateLimit) (hne : name ≠ [])
  (hconn : w.db.connection ≠ none) (hfits : gw.backend.Fits name) (req : RequestHeader)

include hbody hname hlimit hne hconn hfits

/-- Where a row is added, the answer is the document of the key. -/
theorem createKeyWith_of_adds {row : Row} (h : gw.Adds w.db name rateLimit row) :
    ∃ w', gw.createKeyWith body req w = (.ok (makeJsonResponse (gw.lib.text (createdDocument
          ⟨row.id, row.apiKey, name, rateLimit, true⟩)) req.version req.keepAlive), w') ∧
      w'.db.table = w.db.table ++ [row] := by
  obtain ⟨c, hc⟩ := Option.ne_none_iff_exists'.mp hconn
  obtain ⟨db', hrun, htable⟩ := run_createApiKey_of_inserted hc hfits h.1 h.2
  obtain ⟨stored, -, -, rfl⟩ := Mysql.insertedRow_eq_some_iff.mp h.2
  obtain ⟨w', hw', rfl⟩ := createKeyWith_of_ok hname hlimit hne hrun
    ((isValid_createdDocument _).mpr ⟨validUtf8_generateApiKey _ _,
      Json.validUtf8_of_value hbody (validUtf8_utf8 "") hname⟩) req
  exact ⟨w', hw', htable⟩

omit hbody in
/-- A failed statement is answered with the document of the empty record. -/
theorem createKeyWith_of_not_adds (h : ¬ ∃ row, gw.Adds w.db name rateLimit row) :
    ∃ w', gw.createKeyWith body req w = (.ok (makeJsonResponse (gw.lib.text (createdDocument {}))
          req.version req.keepAlive), w') ∧
      (w'.db.table = w.db.table ∨ ∃ row, Mysql.insertedRow gw.backend w.db
        (drawnKey gw.backend w.db gw.dis) name rateLimit = some row ∧
          w'.db.table = w.db.table ++ [row]) := by
  obtain ⟨c, hc⟩ := Option.ne_none_iff_exists'.mp hconn
  obtain ⟨db', hrun, htable⟩ := run_createApiKey_of_failed hc hfits fun hanswers => by
    by_contra hrow
    obtain ⟨row, hrow⟩ := Option.ne_none_iff_exists'.mp hrow
    exact h ⟨row, hanswers, hrow⟩
  obtain ⟨w', hw', rfl⟩ := createKeyWith_of_ok hname hlimit hne hrun
    ((isValid_createdDocument _).mpr ⟨validUtf8_utf8 "", validUtf8_utf8 ""⟩) req
  exact ⟨w', hw', htable⟩

end

/-- What a call that returns has done: it has answered with an error, or with a record, which is
empty or has the limit that was asked for, as has a row that was added. -/
theorem createKeyWith_eq_ok (hbody : body.isValid = true)
    (hlimit : body.value "rate_limit" (Json.getInt 32) 60 = .ok rateLimit) {req : RequestHeader}
    {res : Response} {w' : World} (h : gw.createKeyWith body req w = (.ok res, w')) :
    (res.status ≠ .ok ∨ ∃ key : ApiKeyInfo, (key = {} ∨ key.rateLimit = rateLimit) ∧
        res = makeJsonResponse (gw.lib.text (createdDocument key)) req.version req.keepAlive) ∧
      (w'.db.table = w.db.table ∨
        ∃ row : Row, w'.db.table = w.db.table ++ [row] ∧ row.rateLimit = rateLimit) := by
  obtain ⟨name, limit, hname, hlimit', hreach⟩ :=
    (gw.returns_createKeyWith w hbody req).mp ⟨res, w', h⟩
  rw [hlimit] at hlimit'
  cases hlimit'
  by_cases hne : name = []
  · subst hne
    rw [createKeyWith_of_nil hname hlimit] at h
    cases h
    exact ⟨.inl nofun, .inl rfl⟩
  obtain ⟨hconn, hfits⟩ := hreach.resolve_left hne
  by_cases hadds : ∃ row, gw.Adds w.db name rateLimit row
  · obtain ⟨row, hadds⟩ := hadds
    obtain ⟨stored, -, -, rfl⟩ := Mysql.insertedRow_eq_some_iff.mp hadds.2
    obtain ⟨w'', hw'', htable⟩ := createKeyWith_of_adds hbody hname hlimit hne hconn hfits req hadds
    rw [hw''] at h
    cases h
    exact ⟨.inr ⟨_, .inr rfl, rfl⟩, .inr ⟨_, htable, rfl⟩⟩
  · obtain ⟨w'', hw'', htable⟩ :=
      createKeyWith_of_not_adds hname hlimit hne hconn hfits req hadds
    rw [hw''] at h
    cases h
    refine ⟨.inr ⟨_, .inl rfl, rfl⟩, htable.imp_right ?_⟩
    rintro ⟨row, hrow, htable⟩
    obtain ⟨stored, -, -, rfl⟩ := Mysql.insertedRow_eq_some_iff.mp hrow
    exact ⟨_, htable, rfl⟩

/-! ### When a key is created -/

section

variable (hadmin : gw.verifyAdmin req.toRequestHeader = true)
  (hparse : gw.lib.tryParse req.body = .ok body)
  (hname : body.value "name" Json.getString [] = .ok name)
  (hlimit : body.value "rate_limit" (Json.getInt 32) 60 = .ok rateLimit)

include hadmin hparse hname hlimit

/-- Where the statement adds a row and is answered, the key of the row is handed out. -/
theorem createsUsableKey_of_creatable (hcoll : gw.backend.IsCollation)
    (hkeys : UniqueKeys gw.backend w.db.table) (hne : name ≠ []) (h : Creatable gw w.db name) :
    CreatesUsableKey gw w req := by
  have hadds : gw.Adds w.db name rateLimit _ :=
    ⟨h.answers, Mysql.insertedRow_eq_some_iff.mpr
      ⟨name, Mysql.varchar_of_le h.length, h.key_new, rfl⟩⟩
  obtain ⟨w', hw', htable⟩ := createKeyWith_of_adds
    (w := { w with trace := w.trace ++ [.handler .createKey] }) (gw.lib.valid_of_tryParse hparse)
    hname hlimit hne h.connection h.fits req.toRequestHeader hadds
  refine ⟨_, w', (handleCreateKey_of_ok hadmin hparse).trans hw', fun _ => ?_,
    fun h => absurd rfl h⟩
  refine ⟨body, name, hparse, hname, _, _, htable, rfl, rfl, rfl, ?_, rfl, ?_⟩
  · -- a key begins with `sk_`
    exact List.append_ne_nil_of_left_ne_nil (by decide) _
  · refine acceptedUntilDisabled hcoll ?_ ?_ (fits_generateApiKey _ _ _) rfl
    · rw [htable]
      exact hkeys.append h.key_new
    · simp [htable]

/-- Where it does not, an empty record is handed out as a key. -/
theorem creatable_of_createsUsableKey (hne : name ≠ []) (hconn : w.db.connection ≠ none)
    (hfits : gw.backend.Fits name) (h : CreatesUsableKey gw w req) : Creatable gw w.db name := by
  obtain ⟨res, w', hrun, hok, -⟩ := h
  rw [handleCreateKey_of_ok hadmin hparse] at hrun
  by_cases hadds : ∃ row, gw.Adds w.db name rateLimit row
  · obtain ⟨row, hadds⟩ := hadds
    obtain ⟨stored, hstored, hnew, rfl⟩ := Mysql.insertedRow_eq_some_iff.mp hadds.2
    obtain ⟨w'', hw'', htable⟩ := createKeyWith_of_adds
      (w := { w with trace := w.trace ++ [.handler .createKey] })
      (gw.lib.valid_of_tryParse hparse) hname hlimit hne hconn hfits req.toRequestHeader hadds
    rw [hw''] at hrun
    cases hrun
    obtain ⟨body', name', hparse', hname', row, -, hrow', hrowName, -⟩ := hok rfl
    -- the row has the name that was asked for, so it was not cut off
    rw [hparse] at hparse'
    cases hparse'
    rw [hname] at hname'
    cases hname'
    rw [htable, List.append_cancel_left_eq, List.singleton_inj] at hrow'
    rw [← hrow'] at hrowName
    obtain rfl : stored = name := hrowName
    exact ⟨hconn, hfits, Mysql.varchar_eq_some_self_iff.mp hstored, hnew, hadds.1⟩
  · obtain ⟨w'', hw'', -⟩ := createKeyWith_of_not_adds
      (w := { w with trace := w.trace ++ [.handler .createKey] }) hname hlimit hne hconn hfits
      req.toRequestHeader hadds
    rw [hw''] at hrun
    cases hrun
    obtain ⟨-, -, -, -, row, key, -, -, hres, -, hkey, -⟩ := hok rfl
    exact absurd (text_createdDocument_inj (congrArg Response.body hres)).1.symm hkey

omit hname hlimit in
/-- **When a request for a key creates one**, for a body that is JSON. -/
theorem createsUsableKey_iff (hcoll : gw.backend.IsCollation)
    (hkeys : UniqueKeys gw.backend w.db.table) :
    CreatesUsableKey gw w req ↔ ∃ name rateLimit, body.value "name" Json.getString [] = .ok name ∧
      body.value "rate_limit" (Json.getInt 32) 60 = .ok rateLimit ∧
      (name = [] ∨ Creatable gw w.db name) := by
  constructor
  · intro h
    have hreturns : (gw.handleCreateKey req).Returns w := by
      obtain ⟨res, w', hrun, -⟩ := h
      exact ⟨res, w', hrun⟩
    obtain ⟨name, rateLimit, hname, hlimit, hreach⟩ :=
      (gw.returns_handleCreateKey w).mp hreturns hadmin body hparse
    refine ⟨name, rateLimit, hname, hlimit, ?_⟩
    by_cases hne : name = []
    · exact .inl hne
    · obtain ⟨hconn, hfits⟩ := hreach.resolve_left hne
      exact .inr (creatable_of_createsUsableKey hadmin hparse hname hlimit hne hconn hfits h)
  · rintro ⟨name, rateLimit, hname, hlimit, hcreatable⟩
    by_cases hne : name = []
    · subst hne
      refine ⟨_, _, (handleCreateKey_of_ok hadmin hparse).trans
        (createKeyWith_of_nil hname hlimit _), nofun, fun _ => rfl⟩
    · exact createsUsableKey_of_creatable hadmin hparse hname hlimit hcoll hkeys hne
        (hcreatable.resolve_left hne)

end

/-- **When a created key is usable.** For every request with the master key, every table and every
outcome of the statement: the handler keeps what its answer promises exactly if a body that is JSON
has a name and a limit that can be read, and, unless the name is empty, the database adds the key
and says so. -/
theorem creates_usable_key_iff (gw : Gateway) (w : World) (req : Request)
    (hadmin : req.authorization = some (utf8 "Bearer " ++ gw.adminMasterKey))
    (hcoll : gw.backend.IsCollation) (hkeys : UniqueKeys gw.backend w.db.table) :
    CreatesUsableKey gw w req ↔ ∀ body, gw.lib.tryParse req.body = .ok body →
      ∃ name rateLimit, body.value "name" Json.getString [] = .ok name ∧
        body.value "rate_limit" (Json.getInt 32) 60 = .ok rateLimit ∧
        (name = [] ∨ Creatable gw w.db name) := by
  have hverify : gw.verifyAdmin req.toRequestHeader = true := by
    rw [verifyAdmin, beq_iff_eq]
    exact hadmin
  cases hparse : gw.lib.tryParse req.body with
  | error e => exact iff_of_true (createsUsableKey_of_error hverify hparse) nofun
  | ok body =>
    rw [createsUsableKey_iff hverify hparse hcoll hkeys]
    simp

/-- The request for a key with a name. -/
def createRequest (name : Bytes) : Request where
  method := .post
  target := utf8 "/admin/api-keys"
  fields := [(utf8 "Authorization", utf8 "Bearer master")]
  body := utf8 "\x7b\"name\":\"" ++ name ++ utf8 "\"\x7d"

/-- A gateway that parses it. -/
def creating (name : Bytes) (h : (Json.obj [("name", .string name)]).isValid = true) : Gateway :=
  .small [((createRequest name).body, ⟨.obj [("name", .string name)], h⟩)] []

/-- The equivalence at the name "test". -/
theorem creates_usable_key_iff_test :
    CreatesUsableKey (creating (utf8 "test") (by decide +kernel)) World.small
      (createRequest (utf8 "test")) := by
  refine (creates_usable_key_iff (creating (utf8 "test") (by decide +kernel)) World.small
    (createRequest (utf8 "test")) (by decide +kernel) KeyStore.isCollation_bytewise
    (by decide +kernel)).mpr ?_
  intro body hbody
  cases hbody
  exact ⟨utf8 "test", 60, rfl, rfl, .inr ⟨nofun, by decide +kernel, by decide +kernel, nofun, rfl⟩⟩

/-- A name of 129 characters is too long for its column, and the answer is an empty key. -/
theorem not_createsUsableKey_long_name :
    ¬ CreatesUsableKey (creating (List.replicate 129 97) (by decide +kernel)) World.small
      (createRequest (List.replicate 129 97)) := by
  intro h
  have hparse : (creating (List.replicate 129 97) (by decide +kernel)).lib.tryParse
      (createRequest (List.replicate 129 97)).body = .ok _ := rfl
  have hcreatable := @creatable_of_createsUsableKey _ _ _ _ (List.replicate 129 97) _
    (by decide +kernel) hparse rfl rfl (by decide) (by decide) (by decide +kernel) h
  exact absurd hcreatable.length (by decide +kernel)

end Gateway

end AiSwitch
