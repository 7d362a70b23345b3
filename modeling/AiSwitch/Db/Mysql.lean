import AiSwitch.Common.Exn
import AiSwitch.Db.Escaping
import Mathlib.Data.List.Sort
import Mathlib.Data.List.TakeWhile

/-!
# The database behind the repository

`repository` reaches MySQL through a pool of connections and the C client library. The operations
it uses (`Op`) are left open in the repository's own programs and answered here by a sequential
server: the pool's queue, the `api_keys` table of `bootstrap.sql`, and the statements on it, each
executed as one step. A statement may fail, or succeed with the answer lost, as `Backend.fault`
says.

Three operations have no defined behaviour outside their contract: a client function on a null
connection, and escaping a text that does not fit its 256-byte buffer.
-/

namespace AiSwitch

open ByteString Effect

namespace Mysql

/-! ## The table -/

/-- A row of `api_keys`. -/
structure Row where
  id : ℤ
  apiKey : Bytes
  name : Bytes
  rateLimit : ℤ
  enabled : ℤ
deriving DecidableEq, Repr

/-- The statements that the repository sends, with the literals it puts into them. -/
inductive Statement where
  /-- `SELECT … WHERE api_key = '…' LIMIT 1` -/
  | selectKey (apiKey : Bytes)
  /-- `SELECT … ORDER BY id` -/
  | selectAll
  /-- `INSERT INTO api_keys (api_key, name, rate_limit, enabled) VALUES ('…', '…', …, 1)` -/
  | insert (apiKey name : Bytes) (rateLimit : ℤ)
  /-- `UPDATE api_keys SET enabled = 0 WHERE id = …` -/
  | disable (id : ℤ)
deriving DecidableEq, Repr

/-- How a call of the client library goes wrong: the server refuses it or is not reached, or the
answer to an executed statement is lost. -/
inductive Fault where
  | refused
  | answerLost
deriving DecidableEq, Repr

/-- What the client library, the database and its host decide: how texts are escaped, when two keys
are equal under the column's collation, which calls fail, and the values of
`std::random_device`. -/
structure Backend extends Escaping where
  collates : Bytes → Bytes → Bool
  fault : ℕ → Option Fault
  random : ℕ → UInt32

/-- The comparison of keys is an equivalence, as a collation is. -/
def Backend.IsCollation (be : Backend) : Prop := Equivalence fun a b => be.collates a b = true

/-- The unique index on `api_key`: no two keys are equal under the collation. -/
def UniqueKeys (be : Backend) (table : List Row) : Prop :=
  table.Pairwise fun r s => be.collates r.apiKey s.apiKey = false

instance (be : Backend) (table : List Row) : Decidable (UniqueKeys be table) :=
  inferInstanceAs (Decidable (List.Pairwise _ _))

/-- A row whose key no other collates with keeps the keys unique. -/
theorem UniqueKeys.append {be : Backend} {table : List Row} (h : UniqueKeys be table) {row : Row}
    (hnew : ∀ r ∈ table, be.collates r.apiKey row.apiKey = false) :
    UniqueKeys be (table ++ [row]) := by
  refine List.pairwise_append.mpr ⟨h, List.pairwise_singleton _ _, fun r hr s hs => ?_⟩
  rw [List.mem_singleton.mp hs]
  exact hnew r hr

/-- At most one row has a key that is equal to a text, so a search for the text finds that row. -/
theorem UniqueKeys.find?_eq_some {be : Backend} {table : List Row} (h : UniqueKeys be table)
    (hcoll : be.IsCollation) {row : Row} (hrow : row ∈ table) {key : Bytes}
    (hkey : be.collates row.apiKey key = true) :
    (table.find? fun r => be.collates r.apiKey key) = some row := by
  induction table with
  | nil => cases hrow
  | cons r table ih =>
    obtain ⟨hr, htable⟩ := List.pairwise_cons.mp h
    rcases List.mem_cons.mp hrow with rfl | hrow
    · exact List.find?_cons_of_pos hkey
    · have hne : ¬ be.collates r.apiKey key = true := by
        intro hcollates
        have hsame := hcoll.trans hcollates (hcoll.symm hkey)
        rw [hr row hrow] at hsame
        cases hsame
      exact (List.find?_cons_of_neg (p := fun r : Row => be.collates r.apiKey key) hne).trans
        (ih htable hrow)

/-- The pool, the table, and what each connection holds of its last statement. `calls` counts the
statements sent and the result sets fetched, `draws` the values taken from `std::random_device`.
A null connection that was returned to the pool stays in its queue. -/
structure Db where
  table : List Row
  nextId : ℤ := 1
  idle : List (Option ℕ)
  resultSet : ℕ → List Row := fun _ => []
  insertId : ℕ → ℤ := fun _ => 0
  affectedRows : ℕ → ℤ := fun _ => 0
  calls : ℕ := 0
  draws : ℕ := 0

/-- The number of characters of a text in UTF-8. -/
def charLength (s : Bytes) : ℕ := s.countP fun b => b < 128 ∨ 192 ≤ b

/-- The first `n` characters. -/
def takeChars : ℕ → Bytes → Bytes
  | _, [] => []
  | n, b :: s =>
    if b < 128 ∨ 192 ≤ b then
      match n with
      | 0 => []
      | n + 1 => b :: takeChars n s
    else b :: takeChars n s

/-- What a column of type `VARCHAR(n)` holds of a text. A longer one is cut off if nothing but
spaces is lost, and refused otherwise. -/
def varchar (n : ℕ) (s : Bytes) : Option Bytes :=
  if (s.drop (takeChars n s).length).all (· = 32) then some (takeChars n s) else none

/-- A text that is short enough is not cut. -/
theorem takeChars_of_le {n : ℕ} {s : Bytes} (h : charLength s ≤ n) : takeChars n s = s := by
  induction s generalizing n with
  | nil => cases n <;> rfl
  | cons b s ih =>
    rw [charLength, List.countP_cons] at h
    rw [takeChars.eq_def]
    dsimp only
    split
    · rename_i hb
      rw [if_pos (by simpa using hb)] at h
      cases n with
      | zero => omega
      | succ n => exact congrArg (b :: ·) (ih (by rw [charLength]; omega))
    · rename_i hb
      rw [if_neg (by simpa using hb)] at h
      exact congrArg (b :: ·) (ih h)

/-- A text that fits the column is held as it is. -/
theorem varchar_of_le {n : ℕ} {s : Bytes} (h : charLength s ≤ n) : varchar n s = some s := by
  rw [varchar, takeChars_of_le h, List.drop_length]
  exact if_pos rfl

/-- The effect of a statement on the connection `c`, `none` where the server reports an error. -/
def execute (be : Backend) (db : Db) (c : ℕ) : Statement → Option Db
  | .selectKey key => some { db with
      resultSet := Function.update db.resultSet c
        ((db.table.filter fun r => be.collates r.apiKey (be.unescape key)).take 1) }
  | .selectAll => some { db with
      resultSet := Function.update db.resultSet c (db.table.insertionSort (·.id ≤ ·.id)) }
  | .insert key name rateLimit =>
    match varchar 64 (be.unescape key), varchar 128 (be.unescape name) with
    | some apiKey, some name =>
      if db.table.any fun r => be.collates r.apiKey apiKey then none
      else some { db with
        table := db.table ++ [⟨db.nextId, apiKey, name, rateLimit, 1⟩]
        nextId := db.nextId + 1
        insertId := Function.update db.insertId c db.nextId }
    | _, _ => none
  | .disable id => some { db with
      table := db.table.map fun r => if r.id = id then { r with enabled := 0 } else r
      affectedRows := Function.update db.affectedRows c
        (db.table.countP fun r => r.id = id ∧ r.enabled ≠ 0) }

/-! ## The operations -/

/-- The connection that the next `borrow` hands out, `none` where it times out or hands out a null
pointer. -/
def Db.connection (db : Db) : Option ℕ := db.idle.head?.join

/-- The `n`-th call to the server is answered. -/
def Backend.Answers (be : Backend) (n : ℕ) : Prop := be.fault n = none

instance (be : Backend) (n : ℕ) : Decidable (be.Answers n) := inferInstanceAs (Decidable (_ = _))

/-- `connection_pool::borrow` -/
def borrow : Prog Db Exn (Option ℕ) := fun db =>
  (.ok db.connection, { db with idle := db.idle.tail })

/-- `connection_pool::return_connection` -/
def returnConnection (conn : Option ℕ) : Prog Db Exn Unit :=
  Prog.modify fun db => { db with idle := db.idle ++ [conn] }

/-- `mysql_real_escape_string` into one of the buffers. -/
def realEscapeString (be : Backend) (conn : Option ℕ) (src : Bytes) : Prog Db Exn Bytes :=
  match conn with
  | some _ => if be.Fits src then pure (be.escape src) else Prog.ub
  | none => Prog.ub

/-- One more call to the server. -/
def Db.called (db : Db) : Db := { db with calls := db.calls + 1 }

/-- A statement sent over the connection `c`. -/
def send (be : Backend) (c : ℕ) (stmt : Statement) : Prog Db Exn Bool := fun db =>
  match be.fault db.calls, execute be db.called c stmt with
  | none, some db' => (.ok true, db')
  | some .answerLost, some db' => (.ok false, db')
  | _, _ => (.ok false, db.called)

/-- `mysql_query`, whose answer is `true` for the status 0. -/
def query (be : Backend) (conn : Option ℕ) (stmt : Statement) : Prog Db Exn Bool :=
  match conn with
  | some c => send be c stmt
  | none => Prog.ub

/-- `mysql_store_result` -/
def storeResult (be : Backend) (conn : Option ℕ) : Prog Db Exn (Option (List Row)) :=
  match conn with
  | some c => fun db =>
    (.ok (if be.Answers db.calls then some (db.resultSet c) else none), db.called)
  | none => Prog.ub

/-- `mysql_insert_id` and `mysql_affected_rows`, which read a field of the connection. -/
def readConnection (field : Db → ℕ → ℤ) : Option ℕ → Prog Db Exn ℤ
  | none => Prog.ub
  | some c => Prog.read (field · c)

/-- `std::random_device` -/
def randomDevice (be : Backend) : Prog Db Exn UInt32 := fun db =>
  (.ok (be.random db.draws), { db with draws := db.draws + 1 })

/-- The foreign operations of the repository. -/
inductive Op where
  | borrow
  | returnConnection (conn : Option ℕ)
  | realEscapeString (conn : Option ℕ) (src : Bytes)
  | query (conn : Option ℕ) (stmt : Statement)
  | storeResult (conn : Option ℕ)
  | insertId (conn : Option ℕ)
  | affectedRows (conn : Option ℕ)
  | randomDevice
deriving DecidableEq, Repr

/-- What an operation answers. -/
abbrev Op.Res : Op → Type
  | borrow => Option ℕ
  | returnConnection _ => Unit
  | realEscapeString _ _ => Bytes
  | query _ _ => Bool
  | storeResult _ => Option (List Row)
  | insertId _ | affectedRows _ => ℤ
  | randomDevice => UInt32

/-- The sequential server. -/
def server (be : Backend) : (op : Op) → Prog Db Exn op.Res
  | .borrow => borrow
  | .returnConnection conn => returnConnection conn
  | .realEscapeString conn src => realEscapeString be conn src
  | .query conn stmt => query be conn stmt
  | .storeResult conn => storeResult be conn
  | .insertId conn => readConnection Db.insertId conn
  | .affectedRows conn => readConnection Db.affectedRows conn
  | .randomDevice => randomDevice be

/-! ## One lemma for each operation -/

variable (be : Backend) (db : Db) {c : ℕ}

/-- A text that fits its buffer is escaped. -/
theorem realEscapeString_of_fits {src : Bytes} (h : be.Fits src) :
    realEscapeString be (some c) src db = (.ok (be.escape src), db) := by
  rw [realEscapeString, if_pos h]
  rfl

/-- A text that does not fit is written over the end of the buffer. -/
theorem realEscapeString_of_not_fits {src : Bytes} (h : ¬ be.Fits src) :
    realEscapeString be (some c) src db = (.ub, db) := by
  rw [realEscapeString, if_neg h]
  rfl

/-- Without a connection the call has no defined behaviour. -/
theorem realEscapeString_none (src : Bytes) : realEscapeString be none src db = (.ub, db) := rfl

/-- Storing a result counts one answer of the database, which may be a failure. -/
theorem storeResult_some :
    storeResult be (some c) db
      = (.ok (if be.Answers db.calls then some (db.resultSet c) else none), db.called) := rfl

/-- An answered statement succeeds where the server reports no error. -/
theorem query_of_answers (h : be.Answers db.calls) (stmt : Statement) :
    query be (some c) stmt db
      = match execute be db.called c stmt with
        | some db' => (.ok true, db')
        | none => (.ok false, db.called) := by
  rw [query, send, show be.fault db.calls = none from h]
  cases execute be db.called c stmt <;> rfl

/-- An answered `SELECT` leaves its rows at the connection. -/
theorem query_of_rows (h : be.Answers db.calls) (stmt : Statement) {rows : List Row}
    (hexec : execute be db.called c stmt
      = some { db.called with resultSet := Function.update db.resultSet c rows }) :
    ∃ db', query be (some c) stmt db = (.ok true, db') ∧
      db'.resultSet c = rows ∧ db'.calls = db.calls + 1 := by
  refine ⟨_, (query_of_answers be db h stmt).trans (by rw [hexec]), ?_, rfl⟩
  exact Function.update_self _ _ _

/-- Without an answer its failure is reported, whether or not it was executed. -/
theorem query_of_not_answers (h : ¬ be.Answers db.calls) (stmt : Statement) :
    ∃ db', query be (some c) stmt db = (.ok false, db') ∧
      (db' = db.called ∨ execute be db.called c stmt = some db') := by
  rw [query, send]
  cases hf : be.fault db.calls with
  | none => exact absurd hf h
  | some f =>
    cases he : execute be db.called c stmt with
    | none => exact ⟨db.called, by cases f <;> rfl, .inl rfl⟩
    | some db' =>
      cases f with
      | refused => exact ⟨db.called, rfl, .inl rfl⟩
      | answerLost => exact ⟨db', rfl, .inr rfl⟩

/-- A statement that is sent has some answer. -/
theorem exists_query_some (stmt : Statement) :
    ∃ b db', query be (some c) stmt db = (.ok b, db') := by
  by_cases h : be.Answers db.calls
  · rw [query_of_answers be db h]
    cases execute be db.called c stmt with
    | none => exact ⟨false, db.called, rfl⟩
    | some db' => exact ⟨true, db', rfl⟩
  · obtain ⟨db', hdb', -⟩ := query_of_not_answers be db h stmt
    exact ⟨false, db', hdb'⟩

end Mysql

end AiSwitch
