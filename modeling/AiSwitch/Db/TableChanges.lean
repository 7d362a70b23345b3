import AiSwitch.Db.KeyStore

/-!
# What a call leaves in the table

Whatever its arguments, the pool and the answers of the database, a call of the repository sends at
most one statement, and it may end before or after it, in an exception, in undefined behaviour or
with a result. So the table is afterwards what it was, or what that one statement makes of it
(`changed_run_program`): only `disable_api_key` touches a row that is there, and no row is removed.
-/

namespace AiSwitch

open ByteString Effect
open Mysql (Backend Db Op Row)

namespace Operation

/-- The row is one that a creation of a key with this name and limit adds. -/
structure Issues (dis : UInt32 → ℕ → Fin 16) (name : Bytes) (rateLimit : ℤ) (row : Row) :
    Prop where
  name_eq : Mysql.varchar 128 name = some row.name
  rateLimit_eq : row.rateLimit = rateLimit
  enabled_eq : row.enabled = 1
  apiKey_eq : ∃ seed, row.apiKey = Repository.generateApiKey dis seed

/-- What the statement of an operation makes of the table. -/
def Changes (table table' : List Row) : Operation → Prop
  | .findApiKey _ | .listApiKeys => table' = table
  | .createApiKey dis name rateLimit =>
    ∃ row, table' = table ++ [row] ∧ Issues dis name rateLimit row
  | .disableApiKey id => table' = table.map (disableRow id)

/-- The calls of an operation: one statement at most, which is its own. The state says whether it
has been sent. -/
def single (be : Backend) (op : Operation) : Protocol Op Op.Res Bool where
  allowed sent
    | .query _ stmt => sent = false ∧ KeyStore.Sends be op stmt
    | _ => True
  expected
    | _, .realEscapeString _ src, dst => dst = be.escape src
    | _, _, _ => True
  after
    | _, .query _ _, _ => true
    | sent, _, _ => sent
  final _ := True

section

variable (be : Backend) {op : Operation} {α : Type} {sent : Bool}

/-- After its statement an operation sends no other one. -/
theorem obeys_single_returnConnection (conn : Option ℕ) (a : α) :
    Script.Obeys (single be op) sent (Repository.returnConnection conn >>= fun _ => pure a) :=
  ⟨trivial, fun _ _ => trivial⟩

/-- A lookup sends its SELECT at most once. -/
theorem obeys_single_findApiKey (key : Bytes) :
    Script.Obeys (single be (findApiKey key)) false (Repository.findApiKey key) := by
  refine ⟨trivial, fun conn _ => ?_⟩
  cases conn with
  | none => trivial
  | some c =>
    refine ⟨trivial, fun escaped hescaped => ?_⟩
    obtain rfl : escaped = be.escape key := hescaped
    refine ⟨⟨rfl, by rw [be.cstr_escape]; rfl⟩, fun answered _ => ?_⟩
    cases answered with
    | false => exact obeys_single_returnConnection be _ _
    | true =>
      refine ⟨trivial, fun rows _ => ?_⟩
      cases rows with
      | none => exact obeys_single_returnConnection be _ _
      | some rows => exact obeys_single_returnConnection be _ _

/-- A creation sends its INSERT at most once. -/
theorem obeys_single_createApiKey (dis : UInt32 → ℕ → Fin 16) (name : Bytes) (rateLimit : ℤ) :
    Script.Obeys (single be (createApiKey dis name rateLimit)) false
      (Repository.createApiKey dis name rateLimit) := by
  refine ⟨trivial, fun conn _ => ⟨trivial, fun seed _ => ?_⟩⟩
  refine ⟨trivial, fun escapedName hname => ⟨trivial, fun escapedKey hkey => ?_⟩⟩
  obtain rfl : escapedName = be.escape name := hname
  obtain rfl : escapedKey = be.escape (Repository.generateApiKey dis seed) := hkey
  refine ⟨⟨rfl, seed, by rw [be.cstr_escape, be.cstr_escape]⟩, fun answered _ => ?_⟩
  cases answered with
  | false => exact obeys_single_returnConnection be _ _
  | true => exact ⟨trivial, fun newId _ => obeys_single_returnConnection be _ _⟩

/-- A listing sends its SELECT at most once. -/
theorem obeys_single_listApiKeys :
    Script.Obeys (single be listApiKeys) false Repository.listApiKeys := by
  refine ⟨trivial, fun conn _ => ⟨⟨rfl, rfl⟩, fun answered _ => ?_⟩⟩
  cases answered with
  | false => exact obeys_single_returnConnection be _ _
  | true =>
    refine ⟨trivial, fun rows _ => ?_⟩
    cases rows with
    | none => exact obeys_single_returnConnection be _ _
    | some rows => exact obeys_single_returnConnection be _ _

/-- A disabling sends its UPDATE at most once. -/
theorem obeys_single_disableApiKey (id : ℤ) :
    Script.Obeys (single be (disableApiKey id)) false (Repository.disableApiKey id) := by
  refine ⟨trivial, fun conn _ => ⟨⟨rfl, rfl⟩, fun answered _ => ?_⟩⟩
  cases answered with
  | false => exact obeys_single_returnConnection be _ _
  | true => exact ⟨trivial, fun affected _ => obeys_single_returnConnection be _ _⟩

/-- Every operation sends at most one statement. -/
theorem obeys_single (op : Operation) : Script.Obeys (single be op) false op.program := by
  cases op with
  | findApiKey key => exact (obeys_single_findApiKey be key).map _
  | createApiKey dis name rateLimit => exact (obeys_single_createApiKey be dis name rateLimit).map _
  | listApiKeys => exact (obeys_single_listApiKeys be).map _
  | disableApiKey id => exact (obeys_single_disableApiKey be id).map _

end

/-! ## The statement -/

section

variable {be : Backend} {db db' : Db} {c : ℕ} {op : Operation} {stmt : Mysql.Statement}
  {table : List Row}

/-- What the statement of an operation does where it is executed. -/
theorem changes_execute (hsends : KeyStore.Sends be op stmt)
    (h : Mysql.execute be db c stmt = some db') : op.Changes db.table db'.table := by
  cases op with
  | findApiKey key =>
    obtain rfl := hsends
    cases h
    rfl
  | createApiKey dis name rateLimit =>
    obtain ⟨seed, rfl⟩ := hsends
    simp only [Mysql.execute, be.unescape_escape,
      Mysql.varchar_of_le (KeyStore.charLength_generateApiKey_le dis seed)] at h
    cases hname : Mysql.varchar 128 name with
    | none =>
      rw [hname] at h
      cases h
    | some stored =>
      rw [hname] at h
      obtain ⟨-, hsome⟩ := Option.ite_none_left_eq_some.mp h
      cases hsome
      exact ⟨_, rfl, hname, rfl, rfl, seed, rfl⟩
  | listApiKeys =>
    obtain rfl := hsends
    cases h
    rfl
  | disableApiKey id =>
    obtain rfl := hsends
    cases h
    rfl

/-- A table that is as before, or as the statement leaves it. -/
def Changed (op : Operation) (table : List Row) (table' : List Row) : Prop :=
  table' = table ∨ op.Changes table table'

/-- How far a call is: before its statement the table is as it was. -/
def Reached (op : Operation) (table : List Row) (sent : Bool) (db : Db) : Prop :=
  op.Changed table db.table ∧ (sent = false → db.table = table)

/-- Sending a statement executes it or leaves the table as it was. -/
theorem table_query (conn : Option ℕ) (stmt : Mysql.Statement) :
    (Mysql.query be conn stmt db).2.table = db.table ∨
      ∃ c db', Mysql.execute be db.called c stmt = some db' ∧
        (Mysql.query be conn stmt db).2.table = db'.table := by
  cases conn with
  | none => exact .inl rfl
  | some c =>
    rw [Mysql.query, Mysql.send]
    cases hexec : Mysql.execute be db.called c stmt with
    | none =>
      left
      cases be.fault db.calls with
      | none => rfl
      | some fault => cases fault <;> rfl
    | some db' =>
      cases be.fault db.calls with
      | none => exact .inr ⟨c, db', hexec, rfl⟩
      | some fault =>
        cases fault with
        | refused => exact .inl rfl
        | answerLost => exact .inr ⟨c, db', hexec, rfl⟩

/-- The other calls leave the table as it is. -/
theorem table_server_of_ne_query {call : Op} (h : ∀ conn stmt, call ≠ .query conn stmt) :
    (Mysql.server be call db).2.table = db.table :=
  table_server_of_readOnly be db (by
    cases call with
    | query conn stmt => exact absurd rfl (h conn stmt)
    | _ => trivial)

/-- One call of an operation changes the table only as the operation may. -/
theorem reached_server {call : Op} {sent : Bool} (hdb : op.Reached table sent db)
    (h : (single be op).allowed sent call) :
    op.Changed table (Mysql.server be call db).2.table ∧
      ((∀ conn stmt, call ≠ .query conn stmt) →
        (Mysql.server be call db).2.table = db.table) := by
  refine ⟨?_, table_server_of_ne_query⟩
  cases call with
  | query conn stmt =>
    obtain ⟨rfl, hsends⟩ := h
    have hbefore : db.table = table := hdb.2 rfl
    rcases @table_query be db conn stmt with hsame | ⟨c, db', hexec, htable⟩
    · exact .inl (hsame.trans hbefore)
    · refine .inr ?_
      have hchanges : op.Changes db.called.table db'.table := changes_execute hsends hexec
      rw [show (Mysql.server be (.query conn stmt) db).2.table = db'.table from htable,
        ← hbefore]
      exact hchanges
  | _ =>
    rw [table_server_of_ne_query (by simp)]
    exact hdb.1

/-- The answers of the server are what an operation expects. -/
theorem expected_server {call : Op} {r : call.Res} (sent : Bool)
    (h : Mysql.server be call db = (.ok r, db')) : (single be op).expected sent call r := by
  cases call with
  | realEscapeString conn src =>
    cases conn with
    | none => cases h
    | some c =>
      rw [Mysql.server, Mysql.realEscapeString] at h
      split at h
      · cases h
        rfl
      · cases h
  | _ => trivial

/-- **A call and the table.** However it ends, the table is as before or as the statement of the
call leaves it. -/
theorem changed_run_program (be : Backend) (op : Operation) (db : Db) :
    op.Changed db.table (op.program.run be db).2.table := by
  refine (obeys_single be op).run_server (I := op.Reached db.table)
    (J := fun db' => op.Changed db.table db'.table) And.left ?_ ?_ ⟨.inl rfl, fun _ => rfl⟩
  · intro sent s call r s' hs hallowed h
    obtain ⟨hchanged, hsame⟩ := @reached_server be s op db.table call sent hs hallowed
    rw [h] at hchanged hsame
    refine ⟨expected_server sent h, hchanged, ?_⟩
    cases call with
    | query conn stmt => exact nofun
    | _ => exact fun hsent => (hsame (by simp)).trans (hs.2 hsent)
  · intro sent s call hs hallowed
    exact (@reached_server be s op db.table call sent hs hallowed).1

end

end Operation

end AiSwitch
