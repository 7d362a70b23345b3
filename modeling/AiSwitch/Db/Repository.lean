import AiSwitch.Db.Mysql

/-!
# The repository

`repository` (`db/repository.cpp`): the four operations on the `api_keys` table. Each borrows a
connection, sends one statement made of escaped texts and returns the connection. They are programs
over the operations of `Mysql.Op`, so the same text runs against the sequential server here and can
be taken one step at a time elsewhere.

Only `find_api_key` checks the pointer that `borrow` hands out, and no operation checks that the
text fits the buffer it is escaped into.
-/

namespace AiSwitch

open ByteString Effect
open Mysql (Backend Db Op Row Statement)

/-- `api_key_info` -/
structure ApiKeyInfo where
  id : ℤ := 0
  apiKey : Bytes := []
  name : Bytes := []
  rateLimit : ℤ := 0
  enabled : Bool := false
deriving DecidableEq, Repr

/-- `api_key_result`. Where no row is found, the code leaves the numbers and `enabled` of the record
uninitialised; here they are zero and false. Nothing reads them. -/
structure ApiKeyResult where
  info : ApiKeyInfo := {}
  found : Bool := false
  dbError : Bool := false
deriving DecidableEq, Repr

namespace Repository

/-- A program of the repository. -/
abbrev Repo (α : Type) := Script Op Op.Res α

/-- Run one on the sequential server. -/
def Repo.run {α : Type} (be : Backend) (m : Repo α) : Prog Db Exn α :=
  Script.run (Mysql.server be) m

def borrow : Repo (Option ℕ) := Script.perform Op.borrow

def returnConnection (conn : Option ℕ) : Repo Unit := Script.perform (Op.returnConnection conn)

def realEscapeString (conn : Option ℕ) (src : Bytes) : Repo Bytes :=
  Script.perform (Op.realEscapeString conn src)

def query (conn : Option ℕ) (stmt : Statement) : Repo Bool := Script.perform (Op.query conn stmt)

def storeResult (conn : Option ℕ) : Repo (Option (List Row)) :=
  Script.perform (Op.storeResult conn)

def insertId (conn : Option ℕ) : Repo ℤ := Script.perform (Op.insertId conn)

def affectedRows (conn : Option ℕ) : Repo ℤ := Script.perform (Op.affectedRows conn)

def randomDevice : Repo UInt32 := Script.perform Op.randomDevice

/-! ## The operations -/

/-- The fields of a row, read as C strings. -/
def rowInfo (row : Row) : ApiKeyInfo where
  id := row.id
  apiKey := cstr row.apiKey
  name := cstr row.name
  rateLimit := row.rateLimit
  enabled := row.enabled == 1

/-- What `find_api_key` makes of the first row. -/
def rowResult : Option Row → ApiKeyResult
  | some row => if (rowInfo row).enabled then { info := rowInfo row, found := true } else {}
  | none => {}

/-- `find_api_key` -/
def findApiKey (key : Bytes) : Repo ApiKeyResult := do
  let conn ← borrow
  if conn = none then
    return { dbError := true }
  let escapedKey ← realEscapeString conn key
  if (← query conn (.selectKey (cstr escapedKey))) = false then
    returnConnection conn
    return { dbError := true }
  match ← storeResult conn with
  | none =>
    returnConnection conn
    return { dbError := true }
  | some rows =>
    returnConnection conn
    return rowResult rows.head?

/-- `hex_chars[d]` -/
def hexChar (d : Fin 16) : UInt8 := (utf8 "0123456789abcdef").getD d 0

/-- `generate_api_key`, where `dis seed i` is the `i`-th value of the distribution over `0..15` for
a generator seeded with `seed`. -/
def generateApiKey (dis : UInt32 → ℕ → Fin 16) (seed : UInt32) : Bytes :=
  utf8 "sk_" ++ (List.range 32).map fun i => hexChar (dis seed i)

/-- `create_api_key` -/
def createApiKey (dis : UInt32 → ℕ → Fin 16) (name : Bytes) (rateLimit : ℤ) :
    Repo ApiKeyInfo := do
  let conn ← borrow
  let apiKey := generateApiKey dis (← randomDevice)
  let escapedName ← realEscapeString conn name
  let escapedKey ← realEscapeString conn apiKey
  if (← query conn (.insert (cstr escapedKey) (cstr escapedName) rateLimit)) = false then
    returnConnection conn
    return {}
  let newId ← insertId conn
  returnConnection conn
  return { id := newId, apiKey := apiKey, name := name, rateLimit := rateLimit, enabled := true }

/-- `list_api_keys` -/
def listApiKeys : Repo (List ApiKeyInfo) := do
  let conn ← borrow
  if (← query conn .selectAll) = false then
    returnConnection conn
    return []
  match ← storeResult conn with
  | none =>
    returnConnection conn
    return []
  | some rows =>
    returnConnection conn
    return rows.map rowInfo

/-- `disable_api_key` -/
def disableApiKey (id : ℤ) : Repo Bool := do
  let conn ← borrow
  if (← query conn (.disable id)) = false then
    returnConnection conn
    return false
  let affected ← affectedRows conn
  returnConnection conn
  return decide (0 < affected)

/-! ## What they do on the sequential server -/

section

variable (be : Backend) (db : Db) {db' : Db} {c : ℕ} {α : Type}

/-- A result needs no call. -/
@[simp] theorem run_pure (a : α) : Repo.run be (pure a) db = (.ok a, db) := rfl

/-- A borrowed connection is the first of the queue. -/
@[simp] theorem run_borrow_bind (f : Option ℕ → Repo α) :
    Repo.run be (borrow >>= f) db
      = Repo.run be (f db.connection) { db with idle := db.idle.tail } := rfl

/-- A connection is returned to its end. -/
@[simp] theorem run_returnConnection_bind (conn : Option ℕ) (f : Unit → Repo α) :
    Repo.run be (returnConnection conn >>= f) db
      = Repo.run be (f ()) { db with idle := db.idle ++ [conn] } := rfl

/-- Each random value is drawn once. -/
@[simp] theorem run_randomDevice_bind (f : UInt32 → Repo α) :
    Repo.run be (randomDevice >>= f) db
      = Repo.run be (f (be.random db.draws)) { db with draws := db.draws + 1 } := rfl

variable {be db} {conn : Option ℕ}

/-- What follows an escaping gets the escaped text. -/
theorem run_realEscapeString_bind {src dst : Bytes}
    (h : Mysql.realEscapeString be conn src db = (.ok dst, db')) (f : Bytes → Repo α) :
    Repo.run be (realEscapeString conn src >>= f) db = Repo.run be (f dst) db' :=
  Prog.bind_of_ok h _

/-- Nothing follows an escaping that has no defined behaviour. -/
theorem run_realEscapeString_bind_ub {src : Bytes}
    (h : Mysql.realEscapeString be conn src db = (.ub, db')) (f : Bytes → Repo α) :
    Repo.run be (realEscapeString conn src >>= f) db = (.ub, db') :=
  Prog.bind_of_ub h _

/-- What follows a statement learns whether it has been answered. -/
theorem run_query_bind {stmt : Statement} {b : Bool}
    (h : Mysql.query be conn stmt db = (.ok b, db')) (f : Bool → Repo α) :
    Repo.run be (query conn stmt >>= f) db = Repo.run be (f b) db' :=
  Prog.bind_of_ok h _

/-- A statement on the null pointer has no defined behaviour. -/
theorem run_query_none_bind (stmt : Statement) (f : Bool → Repo α) :
    Repo.run be (query none stmt >>= f) db = (.ub, db) := rfl

/-- A result set is that of the connection, unless the call fails. -/
theorem run_storeResult_bind (f : Option (List Row) → Repo α) :
    Repo.run be (storeResult (some c) >>= f) db
      = Repo.run be (f (if be.Answers db.calls then some (db.resultSet c) else none)) db.called :=
  Prog.bind_of_ok (Mysql.storeResult_some be db) _

/-- `mysql_insert_id` is the id of the connection's last insertion. -/
theorem run_insertId_bind (f : ℤ → Repo α) :
    Repo.run be (insertId (some c) >>= f) db = Repo.run be (f (db.insertId c)) db := rfl

/-- `mysql_affected_rows` is the number of rows that the connection's last statement has changed. -/
theorem run_affectedRows_bind (f : ℤ → Repo α) :
    Repo.run be (affectedRows (some c) >>= f) db = Repo.run be (f (db.affectedRows c)) db := rfl

/-! ### `find_api_key` -/

variable (be db)

/-- The result for a key that is compared by the collation of the column. -/
def findResult (key : Bytes) : ApiKeyResult :=
  if db.connection ≠ none ∧ be.Answers db.calls ∧ be.Answers (db.calls + 1) then
    rowResult (db.table.find? fun r => be.collates r.apiKey key)
  else { dbError := true }

/-- Without a connection a lookup reports an error. -/
theorem run_findApiKey_of_none (h : db.connection = none) (key : Bytes) :
    ∃ db', (findApiKey key).run be db = (.ok (findResult be db key), db') := by
  unfold findApiKey
  rw [run_borrow_bind, h, if_pos rfl, run_pure, findResult, if_neg fun hall => hall.1 h]
  exact ⟨_, rfl⟩

/-- A lookup of a key that does not fit has no defined behaviour. -/
theorem run_findApiKey_of_not_fits (h : db.connection = some c) {key : Bytes}
    (hfit : ¬ be.Fits key) :
    (findApiKey key).run be db = (.ub, { db with idle := db.idle.tail }) := by
  unfold findApiKey
  rw [run_borrow_bind, h, if_neg (by simp)]
  exact run_realEscapeString_bind_ub (Mysql.realEscapeString_of_not_fits be _ hfit) _

/-- A lookup of a key that fits finds what the database says. -/
theorem run_findApiKey_of_fits (h : db.connection = some c) {key : Bytes} (hfit : be.Fits key) :
    ∃ db', (findApiKey key).run be db = (.ok (findResult be db key), db') := by
  have hconn : db.connection ≠ none := by simp [h]
  unfold findApiKey
  rw [run_borrow_bind, h, if_neg (by simp),
    run_realEscapeString_bind (Mysql.realEscapeString_of_fits be _ hfit), be.cstr_escape]
  by_cases hquery : be.Answers db.calls
  · -- the row is looked up by the value of the literal, which is the key itself
    obtain ⟨db', hdb', hrows, hcalls⟩ := Mysql.query_of_rows (c := c) be
      { db with idle := db.idle.tail } hquery (.selectKey (be.escape key)) rfl
    rw [run_query_bind hdb', if_neg (by simp), run_storeResult_bind, hcalls, hrows,
      be.unescape_escape, findResult]
    by_cases hstore : be.Answers (db.calls + 1)
    · rw [if_pos hstore, if_pos ⟨hconn, hquery, hstore⟩, run_returnConnection_bind, run_pure,
        List.head?_take, List.head?_filter]
      exact ⟨_, rfl⟩
    · rw [if_neg hstore, if_neg fun hall => hstore hall.2.2, run_returnConnection_bind, run_pure]
      exact ⟨_, rfl⟩
  · obtain ⟨db', hdb', -⟩ := Mysql.query_of_not_answers be { db with idle := db.idle.tail } hquery
      (.selectKey (be.escape key))
    rw [run_query_bind hdb', if_pos rfl, run_returnConnection_bind, run_pure, findResult,
      if_neg fun hall => hquery hall.2.1]
    exact ⟨_, rfl⟩

/-- A lookup has a result unless the key overflows the buffer. -/
theorem run_findApiKey {key : Bytes} (h : db.connection = none ∨ be.Fits key) :
    ∃ db', (findApiKey key).run be db = (.ok (findResult be db key), db') := by
  cases hconn : db.connection with
  | none => exact run_findApiKey_of_none be db hconn key
  | some c => exact run_findApiKey_of_fits be db hconn (h.resolve_left (by simp [hconn]))

/-- A key that is found is not an error. -/
theorem dbError_of_found {key : Bytes} (h : (findResult be db key).found = true) :
    (findResult be db key).dbError = false := by
  unfold findResult at h ⊢
  split_ifs at h ⊢
  cases hrow : db.table.find? fun r => be.collates r.apiKey key with
  | none => rfl
  | some row =>
    rw [rowResult]
    split <;> rfl

/-! ### `create_api_key` -/

/-- A digit is a character in ASCII, and no zero. -/
theorem hexChar_spec (d : Fin 16) : hexChar d ≠ 0 ∧ ValidUtf8 [hexChar d] := by
  revert d
  decide +kernel

/-- Digits are text. -/
theorem validUtf8_map_hexChar (ds : List (Fin 16)) : ValidUtf8 (ds.map hexChar) := by
  induction ds with
  | nil => exact validUtf8_utf8 ""
  | cons d ds ih => exact (hexChar_spec d).2.append ih

variable (dis : UInt32 → ℕ → Fin 16) (seed : UInt32)

/-- The key is made of 32 digits. -/
theorem generateApiKey_eq :
    generateApiKey dis seed = utf8 "sk_" ++ ((List.range 32).map (dis seed)).map hexChar := by
  rw [generateApiKey, List.map_map]
  rfl

/-- A generated key is text. -/
theorem validUtf8_generateApiKey : ValidUtf8 (generateApiKey dis seed) := by
  rw [generateApiKey_eq]
  exact (validUtf8_utf8 _).append (validUtf8_map_hexChar _)

/-- A generated key has no zero. -/
theorem zero_notMem_generateApiKey : (0 : UInt8) ∉ generateApiKey dis seed := by
  have hmark : (0 : UInt8) ∉ utf8 "sk_" := by decide +kernel
  rw [generateApiKey_eq, List.mem_append, not_or]
  refine ⟨hmark, fun hzero => ?_⟩
  obtain ⟨d, -, hd⟩ := List.mem_map.mp hzero
  exact (hexChar_spec d).1 hd

/-- A generated key has 35 characters. -/
theorem length_generateApiKey : (generateApiKey dis seed).length = 35 := by
  have hlen : (utf8 "sk_").length = 3 := by decide +kernel
  rw [generateApiKey_eq]
  simp [hlen]

/-- A generated key fits the buffer however it is escaped. -/
theorem fits_generateApiKey : be.Fits (generateApiKey dis seed) :=
  be.fits_of_length_le (by rw [length_generateApiKey]; decide)

variable {name : Bytes} (rateLimit : ℤ)

/-- Without a connection a creation has no defined behaviour. -/
theorem run_createApiKey_of_none (name : Bytes) (h : db.connection = none) :
    ∃ db', (createApiKey dis name rateLimit).run be db = (.ub, db') := by
  unfold createApiKey
  rw [run_borrow_bind, h, run_randomDevice_bind]
  exact ⟨_, run_realEscapeString_bind_ub (Mysql.realEscapeString_none be _ name) _⟩

/-- A creation with a name that does not fit has no defined behaviour. -/
theorem run_createApiKey_of_not_fits (h : db.connection = some c) (hfit : ¬ be.Fits name) :
    ∃ db', (createApiKey dis name rateLimit).run be db = (.ub, db') := by
  unfold createApiKey
  rw [run_borrow_bind, h, run_randomDevice_bind]
  exact ⟨_, run_realEscapeString_bind_ub (Mysql.realEscapeString_of_not_fits be _ hfit) _⟩

/-- The key that the next creation draws. -/
def drawnKey : Bytes := generateApiKey dis (be.random db.draws)

/-- The state in which a creation sends its statement. -/
def drawn : Db := { db with idle := db.idle.tail, draws := db.draws + 1 }

/-- What a creation does with the answer to its statement. -/
theorem run_createApiKey_of_query (h : db.connection = some c) (hfit : be.Fits name) {b : Bool}
    (hquery : Mysql.query be (some c)
      (.insert (be.escape (drawnKey be db dis)) (be.escape name) rateLimit) (drawn db)
        = (.ok b, db')) :
    (createApiKey dis name rateLimit).run be db
      = (.ok (if b then ⟨db'.insertId c, drawnKey be db dis, name, rateLimit, true⟩ else {}),
        { db' with idle := db'.idle ++ [some c] }) := by
  unfold createApiKey
  rw [run_borrow_bind, h, run_randomDevice_bind,
    run_realEscapeString_bind (Mysql.realEscapeString_of_fits be _ hfit),
    run_realEscapeString_bind (Mysql.realEscapeString_of_fits be _ (fits_generateApiKey be dis _)),
    be.cstr_escape, be.cstr_escape]
  refine (run_query_bind hquery _).trans ?_
  cases b with
  | false => rw [if_pos rfl, run_returnConnection_bind, run_pure, if_neg (by simp)]
  | true =>
    rw [if_neg (by simp), run_insertId_bind, run_returnConnection_bind, run_pure, if_pos rfl]
    rfl

/-- A creation that has a connection and a name that fits ends, with the new key or with the empty
record of a failed statement. -/
theorem run_createApiKey_of_fits (h : db.connection = some c) (hfit : be.Fits name) :
    ∃ info db', (createApiKey dis name rateLimit).run be db = (.ok info, db') ∧
      (info = {} ∨ info.name = name ∧ ValidUtf8 info.apiKey) := by
  obtain ⟨b, db', hdb'⟩ := Mysql.exists_query_some be (drawn db) (c := c)
    (.insert (be.escape (drawnKey be db dis)) (be.escape name) rateLimit)
  refine ⟨_, _, run_createApiKey_of_query be db dis rateLimit h hfit hdb', ?_⟩
  cases b with
  | false => exact .inl rfl
  | true => exact .inr ⟨rfl, validUtf8_generateApiKey dis _⟩

/-! ### `list_api_keys` -/

/-- Without a connection the list has no defined behaviour. -/
theorem run_listApiKeys_of_none (h : db.connection = none) :
    ∃ db', listApiKeys.run be db = (.ub, db') := by
  unfold listApiKeys
  rw [run_borrow_bind, h, run_query_none_bind]
  exact ⟨_, rfl⟩

/-- The keys that are listed: all of them, or none where the database fails. -/
def listResult : List ApiKeyInfo :=
  if be.Answers db.calls ∧ be.Answers (db.calls + 1) then
    (db.table.insertionSort (·.id ≤ ·.id)).map rowInfo
  else []

/-- With a connection the list has the rows of the table, or none. -/
theorem run_listApiKeys_of_some (h : db.connection = some c) :
    ∃ db', listApiKeys.run be db = (.ok (listResult be db), db') := by
  unfold listApiKeys
  rw [run_borrow_bind, h, listResult]
  by_cases hquery : be.Answers db.calls
  · obtain ⟨db', hdb', hrows, hcalls⟩ := Mysql.query_of_rows (c := c) be
      { db with idle := db.idle.tail } hquery .selectAll rfl
    rw [run_query_bind hdb', if_neg (by simp), run_storeResult_bind, hcalls, hrows]
    by_cases hstore : be.Answers (db.calls + 1)
    · rw [if_pos hstore, if_pos ⟨hquery, hstore⟩, run_returnConnection_bind, run_pure]
      exact ⟨_, rfl⟩
    · rw [if_neg hstore, if_neg fun hboth => hstore hboth.2, run_returnConnection_bind, run_pure]
      exact ⟨_, rfl⟩
  · obtain ⟨db', hdb', -⟩ := Mysql.query_of_not_answers (c := c) be
      { db with idle := db.idle.tail } hquery .selectAll
    rw [run_query_bind hdb', if_pos rfl, run_returnConnection_bind, run_pure,
      if_neg fun hboth => hquery hboth.1]
    exact ⟨_, rfl⟩

/-- A listed key is that of a row, and the calls for it have been answered. -/
theorem mem_listResult {info : ApiKeyInfo} :
    info ∈ listResult be db ↔ (be.Answers db.calls ∧ be.Answers (db.calls + 1)) ∧
      ∃ row ∈ db.table, rowInfo row = info := by
  unfold listResult
  split_ifs with h
  · simp [h, List.mem_insertionSort]
  · simp [h]

/-! ### `disable_api_key` -/

variable (id : ℤ)

/-- Without a connection disabling has no defined behaviour. -/
theorem run_disableApiKey_of_none (h : db.connection = none) :
    ∃ db', (disableApiKey id).run be db = (.ub, db') := by
  unfold disableApiKey
  rw [run_borrow_bind, h, run_query_none_bind]
  exact ⟨_, rfl⟩

/-- With a connection disabling returns. -/
theorem run_disableApiKey_of_some (h : db.connection = some c) :
    ∃ b db', (disableApiKey id).run be db = (.ok b, db') := by
  unfold disableApiKey
  rw [run_borrow_bind, h]
  obtain ⟨b, db', hdb'⟩ := Mysql.exists_query_some (c := c) be
    { db with idle := db.idle.tail } (.disable id)
  rw [run_query_bind hdb']
  cases b with
  | false =>
    rw [if_pos rfl, run_returnConnection_bind, run_pure]
    exact ⟨_, _, rfl⟩
  | true =>
    rw [if_neg (by simp), run_affectedRows_bind, run_returnConnection_bind, run_pure]
    exact ⟨_, _, rfl⟩

end

end Repository

end AiSwitch
