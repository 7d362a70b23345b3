import AiSwitch.Common.Protocol
import AiSwitch.Db.Repository

/-!
# How the repository uses its connections

The four operations of `repository` as programs of one type, and the protocol that they owe the
pool: borrow once, call the client library on that connection only, return it once. All of them
keep it where `borrow` hands out a connection (`obeys_lease`).

`borrow` hands out a null pointer when it times out. `timeout_is_error_iff` says which operations
take that for an error.
-/

namespace AiSwitch

open ByteString Effect Script
open Mysql (Backend Db Op)
open Repository (Repo)

/-- A call of the repository. -/
inductive Operation where
  | findApiKey (key : Bytes)
  | createApiKey (dis : UInt32 → ℕ → Fin 16) (name : Bytes) (rateLimit : ℤ)
  | listApiKeys
  | disableApiKey (id : ℤ)

/-- What it returns. -/
inductive Operation.Result where
  | found (r : ApiKeyResult)
  | created (info : ApiKeyInfo)
  | listed (keys : List ApiKeyInfo)
  | disabled (affected : Bool)
deriving DecidableEq

namespace Operation

def program : Operation → Repo Result
  | findApiKey key => .found <$> Repository.findApiKey key
  | createApiKey dis name rateLimit => .created <$> Repository.createApiKey dis name rateLimit
  | listApiKeys => .listed <$> Repository.listApiKeys
  | disableApiKey id => .disabled <$> Repository.disableApiKey id

/-! ## The protocol -/

/-- The connection that a call is made on. -/
def callConnection : Op → Option (Option ℕ)
  | .borrow | .randomDevice => none
  | .returnConnection conn | .realEscapeString conn _ | .query conn _ | .storeResult conn
  | .insertId conn | .affectedRows conn => some conn

/-- How far an operation is with its connection. -/
inductive Stage where
  | start
  /-- `borrow` has handed out `conn`. -/
  | holding (conn : Option ℕ)
  | returned
deriving DecidableEq

/-- The connection that the operation holds. -/
def Stage.connection : Stage → Option ℕ
  | start | returned => none
  | holding conn => conn

/-- Borrow once, use the connection that was borrowed, return it once. What `borrow` may answer is
left open. -/
def lease (expected : Option ℕ → Prop) : Protocol Op Op.Res Stage where
  allowed stage
    | .borrow => stage = .start
    | .randomDevice => True
    | op => ∃ c, stage = .holding (some c) ∧ callConnection op = some (some c)
  expected
    | _, .borrow, conn => expected conn
    | _, _, _ => True
  after
    | _, .borrow, conn => .holding conn
    | _, .returnConnection _, _ => .returned
    | stage, _, _ => stage
  final stage := stage.connection = none

section

variable {expected : Option ℕ → Prop} {c : ℕ} {α : Type}

/-- An allowed call is made on the connection that is held. -/
theorem stage_of_allowed {stage : Stage} {call : Op} {conn : Option ℕ}
    (h : (lease expected).allowed stage call) (hconn : callConnection call = some conn) :
    ∃ c, conn = some c ∧ stage = .holding (some c) := by
  cases call with
  | borrow | randomDevice => cases hconn
  | _ =>
    obtain ⟨c, hstage, hc⟩ := h
    exact ⟨c, Option.some.inj (hconn.symm.trans hc), hstage⟩

/-- The last call of an operation gives the connection back. -/
theorem obeys_returnConnection (a : α) :
    Obeys (lease expected) (.holding (some c))
      (Repository.returnConnection (some c) >>= fun _ => pure a) :=
  ⟨⟨c, rfl, rfl⟩, fun _ _ => rfl⟩

/-- Only `find_api_key` keeps the protocol whatever `borrow` answers. -/
theorem obeys_findApiKey (key : Bytes) :
    Obeys (lease expected) .start (Repository.findApiKey key) := by
  refine ⟨rfl, fun conn _ => ?_⟩
  cases conn with
  | none => exact rfl
  | some c =>
    refine ⟨⟨c, rfl, rfl⟩, fun escaped _ => ⟨⟨c, rfl, rfl⟩, fun answered _ => ?_⟩⟩
    cases answered with
    | false => exact obeys_returnConnection _
    | true =>
      refine ⟨⟨c, rfl, rfl⟩, fun rows _ => ?_⟩
      cases rows with
      | none => exact obeys_returnConnection _
      | some rows => exact obeys_returnConnection _

/-- `create_api_key` borrows before it queries and returns what it borrowed. -/
theorem obeys_createApiKey (dis : UInt32 → ℕ → Fin 16) (name : Bytes) (rateLimit : ℤ)
    (hexpected : ∀ conn, expected conn → conn ≠ none) :
    Obeys (lease expected) .start (Repository.createApiKey dis name rateLimit) := by
  refine ⟨rfl, fun conn hconn => ?_⟩
  obtain ⟨c, rfl⟩ := Option.ne_none_iff_exists'.mp (hexpected conn hconn)
  refine ⟨trivial, fun seed _ => ⟨⟨c, rfl, rfl⟩, fun escapedName _ => ⟨⟨c, rfl, rfl⟩,
    fun escapedKey _ => ⟨⟨c, rfl, rfl⟩, fun answered _ => ?_⟩⟩⟩⟩
  cases answered with
  | false => exact obeys_returnConnection _
  | true => exact ⟨⟨c, rfl, rfl⟩, fun newId _ => obeys_returnConnection _⟩

/-- `list_api_keys` borrows before it queries and returns what it borrowed. -/
theorem obeys_listApiKeys (hexpected : ∀ conn, expected conn → conn ≠ none) :
    Obeys (lease expected) .start Repository.listApiKeys := by
  refine ⟨rfl, fun conn hconn => ?_⟩
  obtain ⟨c, rfl⟩ := Option.ne_none_iff_exists'.mp (hexpected conn hconn)
  refine ⟨⟨c, rfl, rfl⟩, fun answered _ => ?_⟩
  cases answered with
  | false => exact obeys_returnConnection _
  | true =>
    refine ⟨⟨c, rfl, rfl⟩, fun rows _ => ?_⟩
    cases rows with
    | none => exact obeys_returnConnection _
    | some rows => exact obeys_returnConnection _

/-- `disable_api_key` borrows before it queries and returns what it borrowed. -/
theorem obeys_disableApiKey (id : ℤ) (hexpected : ∀ conn, expected conn → conn ≠ none) :
    Obeys (lease expected) .start (Repository.disableApiKey id) := by
  refine ⟨rfl, fun conn hconn => ?_⟩
  obtain ⟨c, rfl⟩ := Option.ne_none_iff_exists'.mp (hexpected conn hconn)
  refine ⟨⟨c, rfl, rfl⟩, fun answered _ => ?_⟩
  cases answered with
  | false => exact obeys_returnConnection _
  | true => exact ⟨⟨c, rfl, rfl⟩, fun affected _ => obeys_returnConnection _⟩

/-- **Every operation keeps the protocol** where `borrow` hands out a connection: on each of its
exits it has returned what it borrowed, once. -/
theorem obeys_lease (op : Operation) (hexpected : ∀ conn, expected conn → conn ≠ none) :
    Obeys (lease expected) .start op.program := by
  cases op with
  | findApiKey key => exact (obeys_findApiKey key).map _
  | createApiKey dis name rateLimit =>
    exact (obeys_createApiKey dis name rateLimit hexpected).map _
  | listApiKeys => exact (obeys_listApiKeys hexpected).map _
  | disableApiKey id => exact (obeys_disableApiKey id hexpected).map _

end

/-! ## Time-outs -/

/-- The calls that the operation makes. -/
def calls (be : Backend) (op : Operation) (db : Db) : List Op :=
  trace (Mysql.server be) op.program db

/-- The operation may return `r` when it has a connection and the database answers. -/
def Normal (op : Operation) (r : Result) : Prop :=
  ∃ be db db', db.connection ≠ none ∧ (∀ n, be.Answers n) ∧ op.program.run be db = (.ok r, db')

/-- A borrow that times out is an error: no call is made on a null connection, neither of the
client library nor of `return_connection`, so that none gets into the queue; and where the queue is
empty it stays so, and the operation returns something else than a normal result. -/
structure TimeoutIsError (be : Backend) (op : Operation) (db : Db) : Prop where
  no_null_call : ∀ call ∈ op.calls be db, callConnection call ≠ some none
  no_null_idle : none ∉ db.idle → none ∉ (op.program.run be db).2.idle
  pool_unchanged : db.idle = [] → (op.program.run be db).2.idle = []
  result_told : db.idle = [] → ∃ r, (op.program.run be db).1 = .ok r ∧ ¬ op.Normal r

/-- The operation borrows from the queue as it finds it. -/
def Borrows (conn : Option ℕ) (idle : List (Option ℕ)) (stage : Stage) (db : Db) : Prop :=
  (stage = .start → db.connection = conn) ∧ (none ∉ idle → none ∉ db.idle)

variable {be : Backend} {db db' : Db} {conn : Option ℕ} {idle : List (Option ℕ)} {stage : Stage}

/-- Only the idle queue matters to what is borrowed. -/
theorem Borrows.congr (h : Borrows conn idle stage db) (hidle : db'.idle = db.idle) :
    Borrows conn idle stage db' := by
  rw [Borrows, Db.connection, hidle]
  exact h

/-- A statement leaves the queue alone. -/
theorem idle_execute {c : ℕ} {stmt : Mysql.Statement}
    (h : Mysql.execute be db c stmt = some db') : db'.idle = db.idle := by
  cases stmt with
  | insert apiKey name rateLimit =>
    dsimp only [Mysql.execute] at h
    split at h
    · obtain ⟨-, hsome⟩ := Option.ite_none_left_eq_some.mp h
      cases hsome
      rfl
    · cases h
  | selectKey | selectAll | disable =>
    cases h
    rfl

/-- Only borrowing and returning change the queue. -/
theorem idle_server (be : Backend) (db : Db) (call : Op) :
    (Mysql.server be call db).2.idle = match call with
      | .borrow => db.idle.tail
      | .returnConnection conn => db.idle ++ [conn]
      | _ => db.idle := by
  cases call with
  | borrow | returnConnection | randomDevice => rfl
  | realEscapeString conn src =>
    cases conn with
    | none => rfl
    | some c =>
      simp only [Mysql.server, Mysql.realEscapeString]
      split <;> rfl
  | query conn stmt =>
    cases conn with
    | none => rfl
    | some c =>
      simp only [Mysql.server, Mysql.query, Mysql.send]
      split
      · rename_i hexec
        have hidle := idle_execute hexec
        exact hidle
      · rename_i hexec
        have hidle := idle_execute hexec
        exact hidle
      · rfl
  | storeResult conn | insertId conn | affectedRows conn => cases conn <;> rfl

/-- The server's side of the protocol, and what it means for the queue. -/
theorem borrows_server (be : Backend) {call : Op} (hdb : Borrows conn idle stage db)
    (hallowed : (lease (· = conn)).allowed stage call) :
    (none ∉ idle → none ∉ (Mysql.server be call db).2.idle) ∧
      ∀ {r db'}, Mysql.server be call db = (.ok r, db') →
        (lease (· = conn)).expected stage call r ∧
        Borrows conn idle ((lease (· = conn)).after stage call r) db' := by
  have hidle := idle_server be db call
  cases call with
  | borrow =>
    have htail : none ∉ idle → none ∉ db.idle.tail :=
      fun h hmem => hdb.2 h (List.mem_of_mem_tail hmem)
    refine ⟨htail, fun h => ?_⟩
    cases h
    exact ⟨hdb.1 hallowed, nofun, htail⟩
  | returnConnection conn' =>
    obtain ⟨c, -, hc⟩ := hallowed
    cases hc
    have happend : none ∉ idle → none ∉ db.idle ++ [some c] := by simpa using hdb.2
    refine ⟨happend, fun h => ?_⟩
    cases h
    exact ⟨trivial, nofun, happend⟩
  | _ =>
    refine ⟨fun h => ?_, fun h => ?_⟩
    · rw [hidle]
      exact hdb.2 h
    · rw [h] at hidle
      exact ⟨trivial, hdb.congr hidle⟩

/-- At the start nothing is borrowed. -/
theorem borrows_start (db : Db) : Borrows db.connection db.idle .start db := ⟨fun _ => rfl, id⟩

/-- An operation that keeps the protocol makes no call on a null connection. -/
theorem callConnection_ne_of_obeys {op : Operation} (be : Backend)
    (hop : Obeys (lease (· = db.connection)) .start op.program) {call : Op}
    (hcall : call ∈ op.calls be db) : callConnection call ≠ some none := by
  obtain ⟨stage, hallowed⟩ := hop.allowed_of_mem_trace
    (I := Borrows db.connection db.idle) (fun hdb hallowed h =>
      (borrows_server be hdb hallowed).2 h) (borrows_start db) hcall
  intro hnull
  obtain ⟨c, hc, -⟩ := stage_of_allowed hallowed hnull
  cases hc

/-- An operation that keeps the protocol puts no null connection into the queue. -/
theorem null_notMem_idle_of_obeys {op : Operation} (be : Backend)
    (hop : Obeys (lease (· = db.connection)) .start op.program) :
    none ∉ db.idle → none ∉ (op.program.run be db).2.idle :=
  hop.run_server (J := fun db' : Db => none ∉ db.idle → none ∉ db'.idle) (fun h => h.2)
    (fun hdb hallowed h => (borrows_server be hdb hallowed).2 h)
    (fun hdb hallowed => (borrows_server be hdb hallowed).1) (borrows_start db)

/-- On an empty queue `find_api_key` reports a database error. -/
theorem run_findApiKey_of_idle_nil (be : Backend) (key : Bytes) (h : db.idle = []) :
    (findApiKey key).program.run be db = (.ok (.found { dbError := true }), db) := by
  have hconn : db.connection = none := by simp [Db.connection, h]
  have hdb : { db with idle := db.idle.tail } = db := by rw [h, List.tail_nil, ← h]
  have hrun : (Repository.findApiKey key).run be db = (.ok { dbError := true }, db) := by
    unfold Repository.findApiKey
    rw [Repository.run_borrow_bind, hconn, if_pos rfl, Repository.run_pure, hdb]
  exact run_map_of_ok hrun Result.found

/-- A lookup that the database answers reports no error. -/
theorem dbError_of_normal {key : Bytes} {r : ApiKeyResult}
    (h : (findApiKey key).Normal (.found r)) : r.dbError = false := by
  obtain ⟨be, db, db', hconn, hanswers, hrun⟩ := h
  by_cases hfit : be.Fits key
  · obtain ⟨db'', hfind⟩ := Repository.run_findApiKey be db (.inr hfit)
    have hprogram := run_map_of_ok hfind Result.found
    have hr : Repository.findResult be db key = r := by
      have heq := hprogram.symm.trans hrun
      simpa using (Prod.mk.inj heq).1
    rw [← hr, Repository.findResult, if_pos ⟨hconn, hanswers _, hanswers _⟩]
    cases db.table.find? fun row => be.collates row.apiKey key with
    | none => rfl
    | some row =>
      rw [Repository.rowResult]
      split <;> rfl
  · obtain ⟨c, hc⟩ := Option.ne_none_iff_exists'.mp hconn
    have hub := run_map_of_ub (Repository.run_findApiKey_of_not_fits be db hc hfit) Result.found
    have heq := hub.symm.trans hrun
    cases heq

/-- `find_api_key` reports a timeout as an error that throws. -/
theorem timeoutIsError_findApiKey (be : Backend) (db : Db) (key : Bytes) :
    TimeoutIsError be (findApiKey key) db where
  no_null_call _ := callConnection_ne_of_obeys be ((obeys_findApiKey key).map _)
  no_null_idle := null_notMem_idle_of_obeys be ((obeys_findApiKey key).map _)
  pool_unchanged h := by
    rw [run_findApiKey_of_idle_nil be key h]
    exact h
  result_told h := by
    refine ⟨_, by rw [run_findApiKey_of_idle_nil be key h], fun hnormal => ?_⟩
    cases dbError_of_normal hnormal

/-- An operation that gets a connection does not time out. -/
theorem timeoutIsError_of_connection (be : Backend) (op : Operation)
    (hconn : db.connection ≠ none) : TimeoutIsError be op db where
  no_null_call _ := callConnection_ne_of_obeys be (obeys_lease op fun _ h => h ▸ hconn)
  no_null_idle := null_notMem_idle_of_obeys be (obeys_lease op fun _ h => h ▸ hconn)
  pool_unchanged h := absurd (by simp [Db.connection, h]) hconn
  result_told h := absurd (by simp [Db.connection, h]) hconn

/-- Without a connection every operation but `find_api_key` goes on to call the client library. -/
theorem exists_null_call (be : Backend) {op : Operation} (hconn : db.connection = none)
    (hop : ∀ key, op ≠ findApiKey key) :
    ∃ call ∈ op.calls be db, callConnection call = some none := by
  have hborrow : Mysql.server be .borrow db = (.ok none, { db with idle := db.idle.tail }) := by
    rw [← hconn]
    rfl
  cases op with
  | findApiKey key => exact absurd rfl (hop key)
  | createApiKey dis name rateLimit =>
    refine ⟨.realEscapeString none name, ?_, rfl⟩
    rw [calls, program, trace_map, Repository.createApiKey, Repository.borrow,
      trace_perform_bind_of_ok hborrow]
    refine List.mem_cons_of_mem _ ?_
    rw [Repository.randomDevice, trace_perform_bind_of_ok rfl]
    exact List.mem_cons_of_mem _ (mem_trace_perform_bind _ _)
  | listApiKeys =>
    refine ⟨.query none .selectAll, ?_, rfl⟩
    rw [calls, program, trace_map, Repository.listApiKeys, Repository.borrow,
      trace_perform_bind_of_ok hborrow]
    exact List.mem_cons_of_mem _ (mem_trace_perform_bind _ _)
  | disableApiKey id =>
    refine ⟨.query none (.disable id), ?_, rfl⟩
    rw [calls, program, trace_map, Repository.disableApiKey, Repository.borrow,
      trace_perform_bind_of_ok hborrow]
    exact List.mem_cons_of_mem _ (mem_trace_perform_bind _ _)

/-- **When a borrow that times out is an error.** For every operation with any arguments, every
behaviour of the database and every state of the pool: where `borrow` hands out a connection, and
in `find_api_key` also where it does not. The three other operations do not check the pointer. -/
theorem timeout_is_error_iff (be : Backend) (op : Operation) (db : Db) :
    TimeoutIsError be op db ↔ (∃ key, op = findApiKey key) ∨ db.connection ≠ none := by
  constructor
  · intro h
    by_contra hnot
    obtain ⟨hop, hconn⟩ := not_or.mp hnot
    obtain ⟨call, hcall, hnull⟩ :=
      exists_null_call be (not_not.mp hconn) fun key heq => hop ⟨key, heq⟩
    exact h.no_null_call call hcall hnull
  · rintro (⟨key, rfl⟩ | hconn)
    · exact timeoutIsError_findApiKey be db key
    · exact timeoutIsError_of_connection be op hconn

/-- `disable_api_key` after a time-out calls `mysql_query` on a null connection. -/
theorem not_timeoutIsError_disableApiKey :
    ¬ TimeoutIsError ⟨.ascii, (· == ·), fun _ => none, fun _ => 0⟩ (disableApiKey 1)
      { table := [], idle := [] } := by
  intro h
  obtain ⟨call, hcall, hnull⟩ := @exists_null_call { table := [], idle := [] }
    ⟨.ascii, (· == ·), fun _ => none, fun _ => 0⟩ (disableApiKey 1) rfl nofun
  exact h.no_null_call call hcall hnull

/-! ## Operations that only read -/

/-- `find_api_key` keeps to a set of calls that has those that it makes. -/
theorem obeys_findApiKey_of_allowed {P : Protocol Op Op.Res Unit} {key : Bytes}
    (hborrow : P.allowed () .borrow) (hescape : ∀ conn, P.allowed () (.realEscapeString conn key))
    (hquery : ∀ conn literal, P.allowed () (.query conn (.selectKey literal)))
    (hstore : ∀ conn, P.allowed () (.storeResult conn))
    (hreturn : ∀ conn, P.allowed () (.returnConnection conn)) (hfinal : P.final ()) :
    Obeys P () (Repository.findApiKey key) := by
  refine ⟨hborrow, fun conn _ => ?_⟩
  cases conn with
  | none => exact hfinal
  | some c =>
    refine ⟨hescape _, fun escaped _ => ⟨hquery _ _, fun answered _ => ?_⟩⟩
    cases answered with
    | false => exact ⟨hreturn _, fun _ _ => hfinal⟩
    | true =>
      refine ⟨hstore _, fun rows _ => ?_⟩
      cases rows with
      | none => exact ⟨hreturn _, fun _ _ => hfinal⟩
      | some rows => exact ⟨hreturn _, fun _ _ => hfinal⟩

/-- A program that sends no other statements than `SELECT`. -/
def readOnly : Protocol Op Op.Res Unit where
  allowed
    | _, .query _ (.insert _ _ _) | _, .query _ (.disable _) => False
    | _, _ => True
  expected _ _ _ := True
  after _ _ _ := ()
  final _ := True

/-- `find_api_key` sends nothing but SELECTs. -/
theorem obeys_readOnly_findApiKey (key : Bytes) :
    Obeys readOnly () (Repository.findApiKey key) :=
  obeys_findApiKey_of_allowed trivial (fun _ => trivial) (fun _ _ => trivial) (fun _ => trivial)
    (fun _ => trivial) trivial

/-- What it does leaves the table as it is, whether or not it is answered. -/
theorem table_server_of_readOnly (be : Backend) (db : Db) {call : Op}
    (h : readOnly.allowed () call) : (Mysql.server be call db).2.table = db.table := by
  cases call with
  | borrow | returnConnection | randomDevice => rfl
  | realEscapeString conn src =>
    cases conn with
    | none => rfl
    | some c =>
      simp only [Mysql.server, Mysql.realEscapeString]
      split <;> rfl
  | storeResult conn | insertId conn | affectedRows conn => cases conn <;> rfl
  | query conn stmt =>
    cases conn with
    | none => rfl
    | some c =>
      cases stmt with
      | insert | disable => exact absurd h id
      | selectKey | selectAll =>
        simp only [Mysql.server, Mysql.query, Mysql.send, Mysql.execute]
        cases be.fault db.calls with
        | none => rfl
        | some f => cases f <;> rfl

/-- `find_api_key` leaves the table as it is. -/
theorem table_run_findApiKey (be : Backend) (db : Db) (key : Bytes) :
    ((Repository.findApiKey key).run be db).2.table = db.table := by
  refine (obeys_readOnly_findApiKey key).run_server (I := fun _ (db' : Db) => db'.table = db.table)
    (J := fun db' => db'.table = db.table) id ?_ ?_ rfl
  · intro _ db' call r db'' hI hallowed h
    have htable := table_server_of_readOnly be db' hallowed
    rw [h] at htable
    exact ⟨trivial, htable.trans hI⟩
  · intro _ db' call hI hallowed
    exact (table_server_of_readOnly be db' hallowed).trans hI

end Operation

end AiSwitch
