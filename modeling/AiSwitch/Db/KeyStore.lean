import AiSwitch.Common.Transition
import AiSwitch.Db.KeyTable

/-!
# The operations of several clients

Threads call the operations of the repository, and take the calls that these make one at a time, in
any order, on one database. What each thread knows of its connection and its statement (`Progress`)
is enough to tell what it will return, since no other thread uses the connection. So the calls have
the effects and the results of their statements, executed one after the other (`inv_step`), and
`lifeCycle_run` gives their history the properties of `LifeCycle`.
-/

namespace AiSwitch

open ByteString Effect Transition
open Mysql (Backend Db Op Row Statement UniqueKeys)
open Repository (Repo rowInfo rowResult)

namespace KeyStore

/-- An operation that a thread has called: what is left of its program, and where in the history its
statement stands, once that has been executed. -/
structure Task where
  op : Operation
  rest : Repo Operation.Result
  entry : Option ℕ := none

/-- The database, what the threads are doing, and the calls in the order of their statements. -/
structure State (ι : Type) where
  db : Db
  tasks : ι → Option Task
  history : List Entry := []

/-- A thread calls an operation, takes the next call of its program, or returns. -/
inductive Action (ι : Type) where
  | call (t : ι) (op : Operation)
  | advance (t : ι)
  | ret (t : ι)

/-- No borrow times out and no statement fails. -/
def Succeeds : (call : Op) → call.Res → Prop
  | .borrow, conn => conn ≠ none
  | .query _ _, answered => answered = true
  | .storeResult _, rows => rows ≠ none
  | .returnConnection _, _ | .realEscapeString _ _, _ | .insertId _, _ | .affectedRows _, _
  | .randomDevice, _ => True

instance : (call : Op) → (r : call.Res) → Decidable (Succeeds call r)
  | .borrow, conn => inferInstanceAs (Decidable (conn ≠ none))
  | .query _ _, answered => inferInstanceAs (Decidable (answered = true))
  | .storeResult _, rows => inferInstanceAs (Decidable (rows ≠ none))
  | .returnConnection _, _ | .realEscapeString _ _, _ | .insertId _, _ | .affectedRows _, _
  | .randomDevice, _ => isTrue trivial

variable {ι : Type} [DecidableEq ι]

/-- No thread is doing anything, and the pool has `n` connections. -/
def State.init (table : List Row) (nextId : ℤ) (n : ℕ) : State ι where
  db := { table := table, nextId := nextId, idle := (List.range n).map some }
  tasks _ := none

/-- The thread `t` goes on with `rest`. A statement is entered into the history. -/
def State.advanced (s : State ι) (t : ι) (task : Task) (call : Op) (db : Db)
    (rest : Repo Operation.Result) : State ι :=
  match call with
  | .query _ _ =>
    { db := db
      tasks := Function.update s.tasks t (some ⟨task.op, rest, some s.history.length⟩)
      history := s.history ++ [⟨task.op, s.db.table, db.table, none⟩] }
  | _ =>
    { s with
      db := db
      tasks := Function.update s.tasks t (some ⟨task.op, rest, task.entry⟩) }

variable (be : Backend)

/-- One action. -/
def step (s : State ι) : Action ι → Option (State ι)
  | .call t op =>
    match s.tasks t with
    | none => some { s with tasks := Function.update s.tasks t (some ⟨op, op.program, none⟩) }
    | some _ => none
  | .advance t =>
    match s.tasks t with
    | some task =>
      match task.rest with
      | .call call next =>
        match Mysql.server be call s.db with
        | (.ok r, db) => if Succeeds call r then some (s.advanced t task call db (next r)) else none
        | (.throw _, _) | (.ub, _) => none
      | .ret _ => none
    | none => none
  | .ret t =>
    match s.tasks t with
    | some ⟨_, .ret result, some i⟩ => some
        { s with
          tasks := Function.update s.tasks t none
          history := s.history.modify i fun e => { e with result := some result } }
    | _ => none

/-! ## What a thread knows -/

/-- What an operation reads from its connection. -/
inductive Fetched where
  | rows (rows : List Row)
  | number (n : ℤ)

/-- How far an operation is: it has a connection, has executed its statement there, has read what it
needs from the connection, and has returned it. -/
inductive Progress where
  | start
  | holding (c : ℕ)
  | executed (c : ℕ) (stmt : Statement)
  | answered (c : ℕ) (stmt : Statement) (x : Fetched)
  | returned (stmt : Statement) (x : Fetched)

/-- The connection that is held. -/
def Progress.connection : Progress → Option ℕ
  | start | returned _ _ => none
  | holding c | executed c _ | answered c _ _ => some c

/-- The statement of an operation. -/
def Sends : Operation → Statement → Prop
  | .findApiKey key, stmt => stmt = .selectKey (be.escape key)
  | .createApiKey dis name rateLimit, stmt => ∃ seed, stmt = .insert
      (be.escape (Repository.generateApiKey dis seed)) (be.escape name) rateLimit
  | .listApiKeys, stmt => stmt = .selectAll
  | .disableApiKey id, stmt => stmt = .disable id

/-- The order of the calls of an operation, up to its return. -/
def conduct (op : Operation) : Protocol Op Op.Res Progress where
  allowed
    | .start, .borrow => True
    | .holding _, .randomDevice => True
    | .holding c, .realEscapeString conn _ => conn = some c
    | .holding c, .query conn stmt => conn = some c ∧ Sends be op stmt
    | .executed c (.selectKey _), .storeResult conn => conn = some c
    | .executed c .selectAll, .storeResult conn => conn = some c
    | .executed c (.insert _ _ _), .insertId conn => conn = some c
    | .executed c (.disable _), .affectedRows conn => conn = some c
    | .answered c _ _, .returnConnection conn => conn = some c
    | _, _ => False
  expected
    | _, .realEscapeString _ src, dst => dst = be.escape src
    | _, call, r => Succeeds call r
  after
    | .start, .borrow, some c => .holding c
    | .holding c, .query _ stmt, _ => .executed c stmt
    | .executed c stmt, .storeResult _, some rows => .answered c stmt (.rows rows)
    | .executed c stmt, .insertId _, n => .answered c stmt (.number n)
    | .executed c stmt, .affectedRows _, n => .answered c stmt (.number n)
    | .answered _ stmt x, .returnConnection _, _ => .returned stmt x
    | progress, _, _ => progress
  final _ := True

/-- The result of an operation that has read `x` after its statement. -/
def resultOf : Operation → Statement → Fetched → Option Operation.Result
  | .findApiKey _, _, .rows rows => some (.found (rowResult rows.head?))
  | .createApiKey _ name rateLimit, .insert key _ _, .number n =>
    some (.created ⟨n, be.unescape key, name, rateLimit, true⟩)
  | .listApiKeys, _, .rows rows => some (.listed (rows.map rowInfo))
  | .disableApiKey _, _, .number n => some (.disabled (decide (0 < n)))
  | _, _, _ => none

/-- An operation that has returned its connection ends with its result. -/
def EndsWith (op : Operation) : Progress → Operation.Result → Prop
  | .returned stmt x, result => resultOf be op stmt x = some result
  | _, _ => False

/-- An operation that has its answer returns the connection and ends with the result. -/
theorem ends_returnConnection {op : Operation} {c : ℕ} {stmt : Statement} {x : Fetched} {α : Type}
    {g : α → Operation.Result} {a : α} (h : resultOf be op stmt x = some (g a)) :
    Script.Ends (conduct be op) (fun progress a => EndsWith be op progress (g a))
      (.answered c stmt x)
      (Repository.returnConnection (some c) >>= fun _ => pure a) :=
  ⟨rfl, fun _ _ => h⟩

/-- A lookup makes its calls in order and ends with the result of the database. -/
theorem ends_findApiKey (key : Bytes) :
    Script.Ends (conduct be (.findApiKey key))
      (fun progress r => EndsWith be (.findApiKey key) progress (.found r)) .start
      (Repository.findApiKey key) := by
  refine ⟨trivial, fun conn hconn => ?_⟩
  obtain ⟨c, rfl⟩ := Option.ne_none_iff_exists'.mp hconn
  refine ⟨rfl, fun escaped hescaped => ?_⟩
  obtain rfl : escaped = be.escape key := hescaped
  refine ⟨⟨rfl, by rw [be.cstr_escape]; rfl⟩, fun answered hanswered => ?_⟩
  obtain rfl : answered = true := hanswered
  refine ⟨rfl, fun rows hrows => ?_⟩
  obtain ⟨rows, rfl⟩ := Option.ne_none_iff_exists'.mp hrows
  exact ends_returnConnection be rfl

/-- A creation makes its calls in order and ends with the result of the database. -/
theorem ends_createApiKey (dis : UInt32 → ℕ → Fin 16) (name : Bytes) (rateLimit : ℤ) :
    Script.Ends (conduct be (.createApiKey dis name rateLimit))
      (fun progress info => EndsWith be (.createApiKey dis name rateLimit) progress (.created info))
      .start (Repository.createApiKey dis name rateLimit) := by
  refine ⟨trivial, fun conn hconn => ?_⟩
  obtain ⟨c, rfl⟩ := Option.ne_none_iff_exists'.mp hconn
  refine ⟨trivial, fun seed _ => ⟨rfl, fun escapedName hname => ⟨rfl, fun escapedKey hkey => ?_⟩⟩⟩
  obtain rfl : escapedName = be.escape name := hname
  obtain rfl : escapedKey = be.escape (Repository.generateApiKey dis seed) := hkey
  refine ⟨⟨rfl, seed, by rw [be.cstr_escape, be.cstr_escape]⟩, fun answered hanswered => ?_⟩
  obtain rfl : answered = true := hanswered
  refine ⟨rfl, fun newId _ => ends_returnConnection be ?_⟩
  rw [resultOf, be.cstr_escape, be.unescape_escape]

/-- The list makes its calls in order and ends with the result of the database. -/
theorem ends_listApiKeys :
    Script.Ends (conduct be .listApiKeys)
      (fun progress keys => EndsWith be .listApiKeys progress (.listed keys)) .start
      Repository.listApiKeys := by
  refine ⟨trivial, fun conn hconn => ?_⟩
  obtain ⟨c, rfl⟩ := Option.ne_none_iff_exists'.mp hconn
  refine ⟨⟨rfl, rfl⟩, fun answered hanswered => ?_⟩
  obtain rfl : answered = true := hanswered
  refine ⟨rfl, fun rows hrows => ?_⟩
  obtain ⟨rows, rfl⟩ := Option.ne_none_iff_exists'.mp hrows
  exact ends_returnConnection be rfl

/-- Disabling makes its calls in order and ends with the result of the database. -/
theorem ends_disableApiKey (id : ℤ) :
    Script.Ends (conduct be (.disableApiKey id))
      (fun progress b => EndsWith be (.disableApiKey id) progress (.disabled b)) .start
      (Repository.disableApiKey id) := by
  refine ⟨trivial, fun conn hconn => ?_⟩
  obtain ⟨c, rfl⟩ := Option.ne_none_iff_exists'.mp hconn
  refine ⟨⟨rfl, rfl⟩, fun answered hanswered => ?_⟩
  obtain rfl : answered = true := hanswered
  exact ⟨rfl, fun affected _ => ends_returnConnection be rfl⟩

/-- **Every operation keeps the order of the calls** (`conduct`), and ends with what it has read. -/
theorem ends_program (op : Operation) :
    Script.Ends (conduct be op) (EndsWith be op) .start op.program := by
  cases op with
  | findApiKey key => exact (ends_findApiKey be key).map
  | createApiKey dis name rateLimit => exact (ends_createApiKey be dis name rateLimit).map
  | listApiKeys => exact (ends_listApiKeys be).map
  | disableApiKey id => exact (ends_disableApiKey be id).map

/-! ## The statement of an operation -/

/-- The name that an operation is given is read back as it is, and fits its column. -/
def NameReadable : Operation → Prop
  | .createApiKey _ name _ => ZeroFree name ∧ Mysql.charLength name ≤ 128
  | .findApiKey _ | .listApiKeys | .disableApiKey _ => True

instance : DecidablePred NameReadable
  | .createApiKey _ _ _ => inferInstanceAs (Decidable (_ ∧ _))
  | .findApiKey _ | .listApiKeys | .disableApiKey _ => isTrue trivial

/-- What a connection holds for the operation that has executed the statement there. -/
def fetch (db : Db) (c : ℕ) : Statement → Fetched
  | .selectKey _ | .selectAll => .rows (db.resultSet c)
  | .insert _ _ _ => .number (db.insertId c)
  | .disable _ => .number (db.affectedRows c)

/-- A connection holds what it held. -/
def SameAt (db db' : Db) (c : ℕ) : Prop := ∀ stmt, fetch db' c stmt = fetch db c stmt

/-- A generated key has no zero byte. -/
theorem zeroFree_generateApiKey (dis : UInt32 → ℕ → Fin 16) (seed : UInt32) :
    ZeroFree (Repository.generateApiKey dis seed) := by
  exact Repository.zero_notMem_generateApiKey dis seed

/-- A generated key fits its column. -/
theorem charLength_generateApiKey_le (dis : UInt32 → ℕ → Fin 16) (seed : UInt32) :
    Mysql.charLength (Repository.generateApiKey dis seed) ≤ 64 := by
  have hlen : (utf8 "sk_").length = 3 := by decide +kernel
  have hle := List.countP_le_length (l := Repository.generateApiKey dis seed)
    (p := fun b => decide (b < 128 ∨ 192 ≤ b))
  rw [Repository.generateApiKey_eq, List.length_append, hlen] at hle
  rw [Repository.generateApiKey_eq, Mysql.charLength]
  simp only [List.length_map, List.length_range] at hle
  omega

section Execute

variable {be : Backend} {db db' : Db} {c : ℕ} {op : Operation} {stmt : Statement}

/-- A statement leaves the queue and the other connections alone. -/
theorem execute_frame (h : Mysql.execute be db c stmt = some db') :
    db'.idle = db.idle ∧ ∀ c', c' ≠ c → SameAt db db' c' := by
  refine ⟨Operation.idle_execute h, fun c' hc stmt' => ?_⟩
  cases stmt with
  | insert key name rateLimit =>
    dsimp only [Mysql.execute] at h
    split at h
    · obtain ⟨-, hsome⟩ := Option.ite_none_left_eq_some.mp h
      cases hsome
      cases stmt' <;> simp [fetch, Function.update_of_ne hc]
    · cases h
  | selectKey | selectAll | disable =>
    cases h
    cases stmt' <;> simp [fetch, Function.update_of_ne hc]

/-- **One statement.** What it does to the table, and what it leaves for its operation to read. -/
theorem execute_sends (hsends : Sends be op stmt) (hname : NameReadable op)
    (hids : ∀ r ∈ db.table, r.id < db.nextId) (h : Mysql.execute be db c stmt = some db') :
    Entry.Effect be ⟨op, db.table, db'.table, none⟩ ∧
      (∀ result, resultOf be op stmt (fetch db' c stmt) = some result →
        Entry.Answer be ⟨op, db.table, db'.table, none⟩ result) ∧
      ∀ r ∈ db'.table, r.id < db'.nextId := by
  cases op with
  | findApiKey key =>
    obtain rfl := hsends
    cases h
    refine ⟨rfl, fun result hresult => ?_, hids⟩
    simp only [fetch, resultOf, Function.update_self, be.unescape_escape, List.head?_take,
      List.head?_filter, Option.some.injEq] at hresult
    exact hresult.symm
  | createApiKey dis name rateLimit =>
    obtain ⟨seed, rfl⟩ := hsends
    obtain ⟨hzero, hlength⟩ := hname
    simp only [Mysql.execute, be.unescape_escape, Mysql.varchar_of_le hlength,
      Mysql.varchar_of_le (charLength_generateApiKey_le dis seed)] at h
    obtain ⟨hnew, hsome⟩ := Option.ite_none_left_eq_some.mp h
    cases hsome
    have hnew' : ∀ r ∈ db.table,
        be.collates r.apiKey (Repository.generateApiKey dis seed) = false := by
      simpa using hnew
    refine ⟨⟨_, rfl, rfl, rfl, hids, hnew', rfl, zeroFree_generateApiKey dis seed,
      Repository.fits_generateApiKey be dis seed⟩, fun result hresult => ⟨_, rfl, ?_⟩, ?_⟩
    · simp only [fetch, resultOf, Function.update_self, be.unescape_escape,
        Option.some.injEq] at hresult
      exact hresult.symm
    · intro r hr
      rcases List.mem_append.mp hr with hr | hr
      · exact (hids r hr).trans (Int.lt_succ _)
      · rw [List.mem_singleton.mp hr]
        exact Int.lt_succ _
  | listApiKeys =>
    obtain rfl := hsends
    cases h
    refine ⟨rfl, fun result hresult => ?_, hids⟩
    simp only [fetch, resultOf, Function.update_self, Option.some.injEq] at hresult
    exact hresult.symm
  | disableApiKey id =>
    obtain rfl := hsends
    cases h
    refine ⟨rfl, fun result hresult => ?_, ?_⟩
    · simp only [fetch, resultOf, Function.update_self, Option.some.injEq, Int.natCast_pos]
        at hresult
      exact hresult.symm
    · intro r hr
      obtain ⟨r', hr', rfl⟩ := List.mem_map.mp hr
      split
      · exact hids r' hr'
      · exact hids r' hr'

end Execute

/-! ## The invariant -/

/-- What an operation has read, or is going to read. -/
def Progress.fetched (db : Db) : Progress → Option (Statement × Fetched)
  | start | holding _ => none
  | executed c stmt => some (stmt, fetch db c stmt)
  | answered _ stmt x | returned stmt x => some (stmt, x)

/-- A thread is so far with its operation. If the statement has been executed, the history has it,
and what the operation will return is the answer to it. -/
structure Doing (be : Backend) (db : Db) (history : List Entry) (task : Task)
    (progress : Progress) : Prop where
  ends : Script.Ends (conduct be task.op) (EndsWith be task.op) progress task.rest
  name : NameReadable task.op
  entered : ∀ stmt x, progress.fetched db = some (stmt, x) → ∃ i e, task.entry = some i ∧
    history[i]? = some e ∧ ∀ result, resultOf be task.op stmt x = some result → e.Answer be result

/-- The invariant, with what each thread knows. A connection is in the queue or belongs to one
thread. -/
structure Inv (be : Backend) (table : List Row) (s : State ι) (k : ι → Progress) : Prop where
  chained : Chained table s.history s.db.table
  right : ∀ e ∈ s.history, e.Right be
  names : ∀ e ∈ s.history, e.NameZeroFree
  ids : ∀ r ∈ s.db.table, r.id < s.db.nextId
  quiet : ∀ t, s.tasks t = none → (k t).connection = none
  doing : ∀ t task, s.tasks t = some task → Doing be s.db s.history task (k t)
  nodup : s.db.idle.Nodup
  apart : ∀ t c, (k t).connection = some c → some c ∉ s.db.idle
  alone : ∀ t t' c, (k t).connection = some c → (k t').connection = some c → t = t'

/-- The history has the entries that it had, with the same answers. -/
def Grows (be : Backend) (history history' : List Entry) : Prop :=
  ∀ (i : ℕ) (e : Entry), history[i]? = some e → ∃ e' : Entry, history'[i]? = some e' ∧
    ∀ result, e.Answer be result → e'.Answer be result

/-- A history goes on from itself. -/
theorem grows_refl (be : Backend) (history : List Entry) : Grows be history history :=
  fun _ e he => ⟨e, he, fun _ => id⟩

variable {be} {table : List Row} {s : State ι} {k : ι → Progress} {t : ι}

/-- What an operation has read or is going to read depends on its own connection alone. -/
theorem Progress.fetched_congr {progress : Progress} {db db' : Db}
    (h : ∀ c, progress.connection = some c → SameAt db db' c) :
    progress.fetched db' = progress.fetched db := by
  cases progress with
  | executed c stmt => rw [fetched, fetched, h c rfl stmt]
  | start | holding | answered | returned => rfl

/-- A thread is as far as before when others change their connections and the history grows. -/
theorem Doing.frame {db db' : Db} {history history' : List Entry} {task : Task}
    {progress : Progress} (h : Doing be db history task progress)
    (hsame : ∀ c, progress.connection = some c → SameAt db db' c)
    (hgrows : Grows be history history') : Doing be db' history' task progress := by
  refine ⟨h.ends, h.name, fun stmt x hx => ?_⟩
  rw [Progress.fetched_congr hsame] at hx
  obtain ⟨i, e, hi, he, hanswer⟩ := h.entered stmt x hx
  obtain ⟨e', he', hkept⟩ := hgrows i e he
  exact ⟨i, e', hi, he', fun result hresult => hkept result (hanswer result hresult)⟩

omit [DecidableEq ι] in
/-- A connection that a thread has had or takes out of the queue belongs to no other thread. -/
theorem Inv.connection_ne (h : Inv be table s k) {u : ι} {c c' : ℕ} (hut : u ≠ t)
    (hu : (k u).connection = some c) (hc' : (k t).connection = some c' ∨ some c' ∈ s.db.idle) :
    c ≠ c' := by
  rintro rfl
  rcases hc' with hc' | hc'
  · exact hut (h.alone u t c hu hc')
  · exact h.apart u c hu hc'

/-- What one thread does to the others: nothing, if it changes no connection but its own. -/
theorem Inv.update (h : Inv be table s k) {task' : Option Task} {progress' : Progress} {db' : Db}
    {history' : List Entry} (hchained : Chained table history' db'.table)
    (hright : ∀ e ∈ history', e.Right be) (hnames : ∀ e ∈ history', e.NameZeroFree)
    (hids : ∀ r ∈ db'.table, r.id < db'.nextId) (hgrows : Grows be s.history history')
    (hnodup : db'.idle.Nodup)
    (hsame : ∀ c, (k t).connection ≠ some c → SameAt s.db db' c)
    (hidle : ∀ c, some c ∈ db'.idle → some c ∈ s.db.idle ∨ (k t).connection = some c)
    (hconn : ∀ c, progress'.connection = some c →
      some c ∉ db'.idle ∧ ((k t).connection = some c ∨ some c ∈ s.db.idle))
    (hquiet : task' = none → progress'.connection = none)
    (hdoing : ∀ task, task' = some task → Doing be db' history' task progress') :
    Inv be table ⟨db', Function.update s.tasks t task', history'⟩
      (Function.update k t progress') where
  chained := hchained
  right := hright
  names := hnames
  ids := hids
  quiet u hu := by
    change Function.update s.tasks t task' u = none at hu
    by_cases hut : u = t
    · subst hut
      rw [Function.update_self] at hu ⊢
      exact hquiet hu
    · rw [Function.update_of_ne hut] at hu ⊢
      exact h.quiet u hu
  doing u task hu := by
    change Function.update s.tasks t task' u = some task at hu
    by_cases hut : u = t
    · subst hut
      rw [Function.update_self] at hu ⊢
      exact hdoing task hu
    · rw [Function.update_of_ne hut] at hu ⊢
      refine (h.doing u task hu).frame (fun c hc => hsame c fun ht => ?_) hgrows
      exact hut (h.alone u t c hc ht)
  nodup := hnodup
  apart u c hu := by
    by_cases hut : u = t
    · subst hut
      rw [Function.update_self] at hu
      exact (hconn c hu).1
    · rw [Function.update_of_ne hut] at hu
      exact fun hc => h.connection_ne hut hu (hidle c hc).symm rfl
  alone u v c hu hv := by
    by_cases hut : u = t <;> by_cases hvt : v = t
    · rw [hut, hvt]
    · rw [hut, Function.update_self] at hu
      rw [Function.update_of_ne hvt] at hv
      exact absurd rfl (h.connection_ne hvt hv (hconn c hu).2)
    · rw [hvt, Function.update_self] at hv
      rw [Function.update_of_ne hut] at hu
      exact absurd rfl (h.connection_ne hut hu (hconn c hv).2)
    · rw [Function.update_of_ne hut] at hu
      rw [Function.update_of_ne hvt] at hv
      exact h.alone u v c hu hv

/-- A thread that sends no statement. It may take a connection out of the queue, and put its own
back. -/
theorem Inv.quiet_update (h : Inv be table s k) {task : Task} (htask : s.tasks t = some task)
    {rest' : Repo Operation.Result} {progress' : Progress} {db' : Db}
    (htable : db'.table = s.db.table) (hnext : db'.nextId = s.db.nextId)
    (hsame : ∀ c, SameAt s.db db' c) (hfetched : progress'.fetched db' = (k t).fetched s.db)
    (hends : Script.Ends (conduct be task.op) (EndsWith be task.op) progress' rest')
    (hnodup : db'.idle.Nodup)
    (hidle : ∀ c, some c ∈ db'.idle → some c ∈ s.db.idle ∨ (k t).connection = some c)
    (hconn : ∀ c, progress'.connection = some c →
      some c ∉ db'.idle ∧ ((k t).connection = some c ∨ some c ∈ s.db.idle)) :
    Inv be table ⟨db', Function.update s.tasks t (some ⟨task.op, rest', task.entry⟩), s.history⟩
      (Function.update k t progress') := by
  have hold := h.doing t task htask
  refine h.update (htable ▸ h.chained) h.right h.names ?_ (grows_refl be _) hnodup
    (fun c _ => hsame c) hidle hconn nofun ?_
  · rw [htable, hnext]
    exact h.ids
  · intro _ htask'
    obtain rfl := Option.some.inj htask'
    exact ⟨hends, hold.name, hfetched ▸ hold.entered⟩

/-- A step of a thread that sends no statement and leaves the queue alone keeps the invariant. -/
theorem Inv.read_update (h : Inv be table s k) {task : Task} (htask : s.tasks t = some task)
    {rest' : Repo Operation.Result} {progress' : Progress} {db' : Db}
    (htable : db'.table = s.db.table) (hnext : db'.nextId = s.db.nextId)
    (hsame : ∀ c, SameAt s.db db' c) (hidle : db'.idle = s.db.idle)
    (hfetched : progress'.fetched db' = (k t).fetched s.db)
    (hconn : progress'.connection = (k t).connection)
    (hends : Script.Ends (conduct be task.op) (EndsWith be task.op) progress' rest') :
    Inv be table ⟨db', Function.update s.tasks t (some ⟨task.op, rest', task.entry⟩), s.history⟩
      (Function.update k t progress') := by
  refine h.quiet_update htask htable hnext hsame hfetched hends ?_ ?_ ?_
  · rw [hidle]
    exact h.nodup
  · rw [hidle]
    exact fun c => Or.inl
  · rw [hconn, hidle]
    exact fun c hc => ⟨h.apart t c hc, .inl hc⟩

/-- A statement that succeeds has been executed. -/
theorem execute_of_query {db db' : Db} {c : ℕ} {stmt : Statement}
    (h : Mysql.query be (some c) stmt db = (.ok true, db')) :
    Mysql.execute be db.called c stmt = some db' := by
  rw [Mysql.query, Mysql.send] at h
  cases hfault : be.fault db.calls with
  | none =>
    rw [hfault] at h
    cases hexec : Mysql.execute be db.called c stmt with
    | none =>
      rw [hexec] at h
      cases h
    | some db'' =>
      rw [hexec] at h
      cases h
      rfl
  | some f =>
    rw [hfault] at h
    cases hexec : Mysql.execute be db.called c stmt <;> rw [hexec] at h <;> cases f <;> cases h

/-- **The statement of an operation** is entered into the history. -/
theorem Inv.query (h : Inv be table s k) {task : Task} (htask : s.tasks t = some task) {c : ℕ}
    {stmt : Statement} (hk : k t = .holding c) (hsends : Sends be task.op stmt) {db' : Db}
    (hquery : Mysql.query be (some c) stmt s.db = (.ok true, db')) {rest' : Repo Operation.Result}
    (hends : Script.Ends (conduct be task.op) (EndsWith be task.op) (.executed c stmt) rest') :
    Inv be table
      ⟨db', Function.update s.tasks t (some ⟨task.op, rest', some s.history.length⟩),
        s.history ++ [⟨task.op, s.db.table, db'.table, none⟩]⟩
      (Function.update k t (.executed c stmt)) := by
  have hname := (h.doing t task htask).name
  have hexec := execute_of_query hquery
  obtain ⟨hidle, hothers⟩ := execute_frame hexec
  have hids : ∀ r ∈ s.db.called.table, r.id < s.db.called.nextId := h.ids
  obtain ⟨heffect, hanswer, hids'⟩ := execute_sends hsends hname hids hexec
  have hidle' : db'.idle = s.db.idle := hidle
  have hheld : (k t).connection = some c := by rw [hk]; rfl
  refine h.update ?_ ?_ ?_ hids' ?_ ?_ ?_ ?_ ?_ nofun ?_
  · exact chained_append.mpr ⟨s.db.table, h.chained, rfl, rfl⟩
  · intro e he
    rcases List.mem_append.mp he with he | he
    · exact h.right e he
    · rw [List.mem_singleton.mp he]
      exact ⟨heffect, nofun⟩
  · intro e he
    rcases List.mem_append.mp he with he | he
    · exact h.names e he
    · rw [List.mem_singleton.mp he]
      intro dis name rateLimit hop
      have hname' : NameReadable (.createApiKey dis name rateLimit) := hop ▸ hname
      exact hname'.1
  · intro i e he
    have hi : i < s.history.length := (List.getElem?_eq_some_iff.mp he).1
    exact ⟨e, by rw [List.getElem?_append_left hi, he], fun _ => id⟩
  · rw [hidle']
    exact h.nodup
  · intro c' hc'
    have hne : c' ≠ c := fun heq => hc' (heq ▸ hheld)
    exact hothers c' hne
  · rw [hidle']
    exact fun c' => Or.inl
  · intro c' hc'
    obtain rfl : c = c' := Option.some.inj hc'
    rw [hidle']
    exact ⟨h.apart t c hheld, .inl hheld⟩
  · intro _ htask'
    obtain rfl := Option.some.inj htask'
    refine ⟨hends, hname, fun _ _ hfetched => ?_⟩
    obtain ⟨rfl, rfl⟩ := Prod.mk.inj (Option.some.inj hfetched)
    exact ⟨_, _, rfl, List.getElem?_concat_length, hanswer⟩

/-- Taking a connection out of the queue keeps the invariant. -/
theorem Inv.borrow (h : Inv be table s k) {task : Task} (htask : s.tasks t = some task)
    (hk : k t = .start) {c : ℕ} (hc : s.db.connection = some c) {rest' : Repo Operation.Result}
    (hends : Script.Ends (conduct be task.op) (EndsWith be task.op) (.holding c) rest') :
    Inv be table
      ⟨{ s.db with idle := s.db.idle.tail },
        Function.update s.tasks t (some ⟨task.op, rest', task.entry⟩), s.history⟩
      (Function.update k t (.holding c)) := by
  obtain ⟨idle, hidle⟩ : ∃ idle, s.db.idle = some c :: idle := by
    rw [Db.connection] at hc
    cases hs : s.db.idle with
    | nil => simp [hs] at hc
    | cons conn idle =>
      rw [hs] at hc
      exact ⟨idle, congrArg (· :: idle) hc⟩
  have hnodup := h.nodup
  rw [hidle, List.nodup_cons] at hnodup
  refine h.quiet_update htask rfl rfl (fun _ _ => rfl) (by rw [hk]; rfl) hends ?_ ?_ ?_
  · rw [hidle]
    exact hnodup.2
  · exact fun c' hc' => .inl (List.mem_of_mem_tail hc')
  · intro c' hc'
    obtain rfl : c = c' := Option.some.inj hc'
    rw [hidle]
    exact ⟨hnodup.1, .inr List.mem_cons_self⟩

/-- An operation reads from its connection what it needs. -/
theorem Inv.answer (h : Inv be table s k) {task : Task} (htask : s.tasks t = some task) {c : ℕ}
    {stmt : Statement} {x : Fetched} (hk : k t = .executed c stmt) (hx : fetch s.db c stmt = x)
    {db' : Db} (htable : db'.table = s.db.table) (hnext : db'.nextId = s.db.nextId)
    (hsame : ∀ c, SameAt s.db db' c) (hidle : db'.idle = s.db.idle) {rest' : Repo Operation.Result}
    (hends : Script.Ends (conduct be task.op) (EndsWith be task.op) (.answered c stmt x) rest') :
    Inv be table ⟨db', Function.update s.tasks t (some ⟨task.op, rest', task.entry⟩), s.history⟩
      (Function.update k t (.answered c stmt x)) := by
  refine h.read_update htask htable hnext hsame hidle ?_ (by rw [hk]; rfl) hends
  rw [hk, Progress.fetched, Progress.fetched, hx]

/-- Putting the connection back keeps the invariant. -/
theorem Inv.returnConnection (h : Inv be table s k) {task : Task} (htask : s.tasks t = some task)
    {c : ℕ} {stmt : Statement} {x : Fetched} (hk : k t = .answered c stmt x)
    {rest' : Repo Operation.Result}
    (hends : Script.Ends (conduct be task.op) (EndsWith be task.op) (.returned stmt x) rest') :
    Inv be table
      ⟨{ s.db with idle := s.db.idle ++ [some c] },
        Function.update s.tasks t (some ⟨task.op, rest', task.entry⟩), s.history⟩
      (Function.update k t (.returned stmt x)) := by
  have hheld : (k t).connection = some c := by rw [hk]; rfl
  refine h.quiet_update htask rfl rfl (fun _ _ => rfl) (by rw [hk]; rfl) hends ?_ ?_ nofun
  · have hnodup := h.nodup.concat (h.apart t c hheld)
    rwa [List.concat_eq_append] at hnodup
  · intro c' hc'
    rcases List.mem_append.mp hc' with hc' | hc'
    · exact .inl hc'
    · rw [List.mem_singleton.mp hc']
      exact .inr hheld

/-- How far an operation is when it makes a call. -/
theorem progress_of_allowed {op : Operation} {progress : Progress} {call : Op}
    (h : (conduct be op).allowed progress call) :
    match call with
    | .borrow => progress = .start
    | .randomDevice => ∃ c, progress = .holding c
    | .realEscapeString conn _ => ∃ c, progress = .holding c ∧ conn = some c
    | .query conn stmt => ∃ c, progress = .holding c ∧ conn = some c ∧ Sends be op stmt
    | .storeResult conn => ∃ c stmt, progress = .executed c stmt ∧ conn = some c ∧
        ∀ db, fetch db c stmt = .rows (db.resultSet c)
    | .insertId conn => ∃ c stmt, progress = .executed c stmt ∧ conn = some c ∧
        ∀ db, fetch db c stmt = .number (db.insertId c)
    | .affectedRows conn => ∃ c stmt, progress = .executed c stmt ∧ conn = some c ∧
        ∀ db, fetch db c stmt = .number (db.affectedRows c)
    | .returnConnection conn => ∃ c stmt x, progress = .answered c stmt x ∧ conn = some c := by
  cases progress with
  | start =>
    cases call with
    | borrow => rfl
    | _ => exact h.elim
  | holding c =>
    cases call with
    | randomDevice => exact ⟨c, rfl⟩
    | realEscapeString conn src => exact ⟨c, rfl, h⟩
    | query conn stmt => exact ⟨c, rfl, h⟩
    | _ => exact h.elim
  | executed c stmt =>
    cases call with
    | storeResult conn =>
      cases stmt with
      | selectKey | selectAll => exact ⟨c, _, rfl, h, fun _ => rfl⟩
      | insert | disable => exact h.elim
    | insertId conn =>
      cases stmt with
      | insert => exact ⟨c, _, rfl, h, fun _ => rfl⟩
      | _ => exact h.elim
    | affectedRows conn =>
      cases stmt with
      | disable => exact ⟨c, _, rfl, h, fun _ => rfl⟩
      | _ => exact h.elim
    | _ => cases stmt <;> exact h.elim
  | answered c stmt x =>
    cases call with
    | returnConnection conn => exact ⟨c, stmt, x, rfl, h⟩
    | _ => exact h.elim
  | returned stmt x => cases call <;> exact h.elim

/-- A thread takes the next call of its program. -/
theorem Inv.advance (h : Inv be table s k) {task : Task} (htask : s.tasks t = some task) {call : Op}
    {next : call.Res → Repo Operation.Result} (hrest : task.rest = .call call next) {r : call.Res}
    {db' : Db} (hserver : Mysql.server be call s.db = (.ok r, db')) (hr : Succeeds call r) :
    ∃ k', Inv be table (s.advanced t task call db' (next r)) k' := by
  have hends := (h.doing t task htask).ends
  rw [hrest] at hends
  obtain ⟨hallowed, hends⟩ := hends
  have hk := progress_of_allowed hallowed
  cases call with
  | borrow =>
    replace hk : k t = .start := hk
    obtain ⟨c, rfl⟩ := Option.ne_none_iff_exists'.mp hr
    rw [hk] at hends
    obtain ⟨hc, rfl⟩ : s.db.connection = some c ∧ { s.db with idle := s.db.idle.tail } = db' := by
      simpa [Mysql.server, Mysql.borrow] using hserver
    exact ⟨_, h.borrow htask hk hc (hends _ hr)⟩
  | randomDevice =>
    obtain ⟨c, hk⟩ := hk
    rw [hk] at hends
    cases hserver
    exact ⟨_, h.read_update htask rfl rfl (fun _ _ => rfl) rfl (by rw [hk]; rfl) (by rw [hk]; rfl)
      (hends _ hr)⟩
  | realEscapeString conn src =>
    obtain ⟨c, hk, rfl⟩ := hk
    rw [hk] at hends
    by_cases hfits : be.Fits src
    · rw [Mysql.server, Mysql.realEscapeString_of_fits be s.db hfits] at hserver
      cases hserver
      exact ⟨_, h.read_update htask rfl rfl (fun _ _ => rfl) rfl (by rw [hk]; rfl) (by rw [hk]; rfl)
        (hends _ rfl)⟩
    · rw [Mysql.server, Mysql.realEscapeString_of_not_fits be s.db hfits] at hserver
      cases hserver
  | query conn stmt =>
    obtain ⟨c, hk, rfl, hsends⟩ := hk
    rw [hk] at hends
    obtain rfl : r = true := hr
    exact ⟨_, h.query htask hk hsends hserver (hends true rfl)⟩
  | storeResult conn =>
    obtain ⟨c, stmt, hk, rfl, hfetch⟩ := hk
    rw [hk] at hends
    obtain ⟨rows, rfl⟩ := Option.ne_none_iff_exists'.mp hr
    obtain ⟨⟨-, rfl⟩, rfl⟩ :
        (be.Answers s.db.calls ∧ s.db.resultSet c = rows) ∧ s.db.called = db' := by
      simpa [Mysql.server, Mysql.storeResult] using hserver
    have htable : s.db.called.table = s.db.table := rfl
    exact ⟨_, h.answer htask hk (hfetch _) htable rfl (fun _ _ => rfl) rfl (hends _ hr)⟩
  | insertId conn | affectedRows conn =>
    obtain ⟨c, stmt, hk, rfl, hfetch⟩ := hk
    rw [hk] at hends
    cases hserver
    exact ⟨_, h.answer htask hk (hfetch _) rfl rfl (fun _ _ => rfl) rfl (hends _ hr)⟩
  | returnConnection conn =>
    obtain ⟨c, stmt, x, hk, rfl⟩ := hk
    rw [hk] at hends
    cases hserver
    exact ⟨_, h.returnConnection htask hk (hends _ hr)⟩

/-! ## Calls and returns -/

/-- A call of an operation keeps the invariant. -/
theorem Inv.call (h : Inv be table s k) {op : Operation}
    (hname : NameReadable op) :
    Inv be table { s with tasks := Function.update s.tasks t (some ⟨op, op.program, none⟩) }
      (Function.update k t .start) := by
  refine h.update h.chained h.right h.names h.ids (grows_refl be _) h.nodup (fun _ _ _ => rfl)
    (fun c => Or.inl) nofun nofun fun _ htask' => ?_
  obtain rfl := Option.some.inj htask'
  exact ⟨ends_program be op, hname, nofun⟩

/-- A history with a result entered is chained as it was. -/
theorem chained_modify {history : List Entry} {table' : List Row} (i : ℕ)
    (result : Operation.Result) (h : Chained table history table') :
    Chained table (history.modify i fun e => { e with result := some result }) table' := by
  induction history generalizing table i with
  | nil => cases i <;> exact h
  | cons e history ih =>
    cases i with
    | zero => exact h
    | succ i => exact ⟨h.1, ih i h.2⟩

/-- What holds of the entries holds after a change of one of them that keeps it. -/
theorem forall_mem_modify {p : Entry → Prop} {history : List Entry} {i : ℕ} {f : Entry → Entry}
    (h : ∀ e ∈ history, p e) (hf : ∀ e, history[i]? = some e → p (f e)) :
    ∀ e ∈ history.modify i f, p e := by
  intro e he
  obtain ⟨j, hj⟩ := List.mem_iff_getElem?.mp he
  rw [List.getElem?_modify, Option.map_eq_map, Option.map_eq_some_iff] at hj
  obtain ⟨e', he', rfl⟩ := hj
  split
  · rename_i hij
    exact hf e' (hij ▸ he')
  · exact h e' (List.mem_of_getElem? he')

/-- The return of an operation keeps the invariant. -/
theorem Inv.ret (h : Inv be table s k) {op : Operation} {result : Operation.Result} {i : ℕ}
    (htask : s.tasks t = some ⟨op, .ret result, some i⟩) :
    Inv be table
      { s with
        tasks := Function.update s.tasks t none
        history := s.history.modify i fun e => { e with result := some result } }
      (Function.update k t .start) := by
  have hdoing := h.doing t _ htask
  -- the result is the answer to the statement
  obtain ⟨stmt, x, hk, hresult⟩ :
      ∃ stmt x, k t = .returned stmt x ∧ resultOf be op stmt x = some result := by
    have hends : EndsWith be op (k t) result := hdoing.ends
    cases hk : k t with
    | returned stmt x =>
      rw [hk] at hends
      exact ⟨stmt, x, rfl, hends⟩
    | _ =>
      rw [hk] at hends
      exact hends.elim
  obtain ⟨_, e, hi, he, hanswer⟩ := hdoing.entered stmt x (by rw [hk]; rfl)
  obtain rfl := Option.some.inj hi
  have hmem := List.mem_of_getElem? he
  have hsame : ∀ e', s.history[i]? = some e' → e' = e :=
    fun e' he' => Option.some.inj (he'.symm.trans he)
  refine h.update (chained_modify i result h.chained) (forall_mem_modify h.right ?_)
    (forall_mem_modify h.names ?_) h.ids ?_ h.nodup (fun _ _ _ => rfl) (fun c => Or.inl) nofun
    (fun _ => rfl) nofun
  · intro e' he'
    obtain rfl := hsame e' he'
    refine ⟨(h.right e' hmem).effect, fun result' hresult' => ?_⟩
    obtain rfl := Option.some.inj hresult'
    exact hanswer result hresult
  · intro e' he'
    obtain rfl := hsame e' he'
    exact h.names e' hmem
  · intro j e' he'
    rw [List.getElem?_modify, he']
    refine ⟨_, rfl, fun result' hresult' => ?_⟩
    split
    · exact hresult'
    · exact hresult'

/-! ## Every run -/

omit [DecidableEq ι] in
/-- At first, without a history, the invariant holds. -/
theorem inv_init {nextId : ℤ} (n : ℕ) (hids : ∀ r ∈ table, r.id < nextId) :
    Inv be table (State.init table nextId n : State ι) fun _ => .start where
  chained := rfl
  right := List.forall_mem_nil _
  names := List.forall_mem_nil _
  ids := hids
  quiet _ _ := rfl
  doing _ _ htask := nomatch htask
  nodup := List.nodup_range.map (Option.some_injective _)
  apart _ _ hc := nomatch hc
  alone _ _ _ hc := nomatch hc

/-- The names that are given. -/
def Action.NameReadable : Action ι → Prop
  | .call _ op => KeyStore.NameReadable op
  | .advance _ | .ret _ => True

instance : DecidablePred (@Action.NameReadable ι)
  | .call _ op => inferInstanceAs (Decidable (KeyStore.NameReadable op))
  | .advance _ | .ret _ => isTrue trivial

/-- **One action.** -/
theorem inv_step {s' : State ι} {a : Action ι} (h : ∃ k, Inv be table s k) (hname : a.NameReadable)
    (hstep : step be s a = some s') : ∃ k, Inv be table s' k := by
  obtain ⟨k, h⟩ := h
  cases a with
  | call t op =>
    dsimp only [step] at hstep
    split at hstep
    · cases hstep
      exact ⟨_, h.call hname⟩
    · cases hstep
  | advance t =>
    dsimp only [step] at hstep
    split at hstep
    · rename_i task htask
      split at hstep
      · rename_i call next hrest
        split at hstep
        · rename_i r db' hserver
          obtain ⟨hr, hs'⟩ := Option.ite_none_right_eq_some.mp hstep
          cases hs'
          exact h.advance htask hrest hserver hr
        · cases hstep
        · cases hstep
      · cases hstep
    · cases hstep
  | ret t =>
    dsimp only [step] at hstep
    split at hstep
    · rename_i op result i htask
      cases hstep
      exact ⟨_, h.ret htask⟩
    · cases hstep

/-- **The life cycle of keys in every run.** For every initial table without zero bytes whose keys
are unique and fit the buffer, in every run of the operations by any number of threads, in any
order, in which no statement fails and no borrow times out: if the names that are created have no
zero byte and fit their column, a created key is found with the record of its creation until it is
disabled and not afterwards, disabling changes no other field and no other row, and the list has
every row once, in the order of the ids, with the field `enabled` as the lookup sees it. -/
theorem lifeCycle_run {s : State ι} {nextId : ℤ} {n : ℕ} {actions : List (Action ι)}
    (hcoll : be.IsCollation) (hT : KeyTable be table) (hids : ∀ r ∈ table, r.id < nextId)
    (hnames : ∀ a ∈ actions, a.NameReadable)
    (hrun : run (step be) (State.init table nextId n) actions = some s) :
    LifeCycle be table s.history s.db.table := by
  have hstep : ∀ (s : State ι) a s', (∃ k, Inv be table s k) → a.NameReadable →
      step be s a = some s' → ∃ k, Inv be table s' k := fun _ _ _ => inv_step
  obtain ⟨k, h⟩ := invariant_run hstep ⟨_, inv_init n hids⟩ (respects_of_forall hnames) hrun
  exact lifeCycle_of_right hcoll hT h.chained h.right h.names

/-! ## Two clients -/

/-- A database that compares keys by their bytes. -/
def bytewise : Backend := ⟨.ascii, (· == ·), fun _ => none, fun _ => 0⟩

/-- To be equal byte by byte is a collation. -/
theorem isCollation_bytewise : bytewise.IsCollation where
  refl a := beq_self_eq_true a
  symm h := beq_iff_eq.mpr (eq_of_beq h).symm
  trans h h' := beq_iff_eq.mpr ((eq_of_beq h).trans (eq_of_beq h'))

/-- A key of zeros only. -/
def zeros : UInt32 → ℕ → Fin 16 := fun _ _ => 0

/-- A call from beginning to end, with `n` steps between. -/
def whole (t : Bool) (n : ℕ) (op : Operation) : List (Action Bool) :=
  .call t op :: (List.replicate n (Action.advance t) ++ [Action.ret t])

/-- The first test key of `bootstrap.sql`. -/
def firstKey : List Row := [⟨1, utf8 "sk-test-key-001", utf8 "60 RPM", 60, 1⟩]

/-- A client lists the keys while another one creates a key, and disables it after a lookup. -/
def createDisable : List (Action Bool) :=
  [Action.call false .listApiKeys, .advance false]
    ++ whole true 7 (.createApiKey zeros (utf8 "ci") 60)
    ++ List.replicate 3 (Action.advance false) ++ [Action.ret false]
    ++ whole false 5 (.findApiKey (Repository.generateApiKey zeros 0))
    ++ whole true 4 (.disableApiKey 2)
    ++ whole false 5 (.findApiKey (Repository.generateApiKey zeros 0))

/-- Its history is the life cycle of the two keys. -/
theorem lifeCycle_run_createDisable : ∃ s : State Bool,
    run (step bytewise) (State.init firstKey 2 2) createDisable = some s ∧
      LifeCycle bytewise firstKey s.history s.db.table := by
  have hsome : (run (step bytewise) (State.init firstKey 2 2) createDisable).isSome := by
    decide +kernel
  obtain ⟨s, hs⟩ := Option.isSome_iff_exists.mp hsome
  refine ⟨s, hs, lifeCycle_run isCollation_bytewise ?_ (by decide +kernel) ?_ hs⟩
  · exact ⟨by decide +kernel, by decide +kernel, by decide +kernel, by decide +kernel,
      by decide +kernel⟩
  · decide +kernel

/-- A name with a zero byte is handed out whole at the creation, and cut off by the lookup. -/
theorem not_lifeCycle_zero_byte : ∃ s : State Bool,
    run (step bytewise) (State.init [] 1 1)
      (whole true 7 (.createApiKey zeros [97, 0, 98] 60)
        ++ whole true 5 (.findApiKey (Repository.generateApiKey zeros 0))) = some s ∧
      ¬ LifeCycle bytewise [] s.history s.db.table := by
  refine ⟨_, rfl, fun h => ?_⟩
  obtain ⟨hfound, -⟩ := h.found [] _ [] _ [] zeros [97, 0, 98] 60
    ⟨1, Repository.generateApiKey zeros 0, [97, 0, 98], 60, true⟩
    ⟨⟨1, Repository.generateApiKey zeros 0, [97], 60, true⟩, true, false⟩ rfl rfl rfl rfl rfl
  obtain ⟨-, hinfo⟩ := hfound nofun
  cases hinfo

end KeyStore

end AiSwitch
