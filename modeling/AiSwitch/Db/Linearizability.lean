import AiSwitch.Common.AtomicObject
import AiSwitch.Common.Lending
import AiSwitch.Db.KeyStore

/-!
# The repository as one table of keys

Threads call the operations of the repository and take the calls that these make one at a time, in
any order, on one pool and one database. A borrow may time out, a statement may be refused, and the
answer to it may get lost. To the threads this is a table of keys on which every operation takes
effect at once (`keyTable`, `linearizable_run`): it does what it should and says so, or it reports a
failure and has done that or nothing.

The run ends where a call has no defined behaviour.
-/

namespace AiSwitch

open AtomicObject (Phase Runs)
open ByteString Effect Lending Transition
open KeyStore (Fetched SameAt Sends fetch resultOf)
open Mysql (Backend Db Op Row Statement)
open Repository (Repo rowInfo rowResult)

/-- The rows of `api_keys` and the id of the next one. -/
structure Store where
  table : List Row
  nextId : ℤ
deriving DecidableEq

def Mysql.Db.store (db : Db) : Store := ⟨db.table, db.nextId⟩

namespace Shared

/-! ## What the threads are to see -/

/-- What an operation that succeeds makes of the table, and what it returns. -/
inductive Performs (be : Backend) (s : Store) : Operation → Store → Operation.Result → Prop where
  | find (key : Bytes) : Performs be s (.findApiKey key) s
      (.found (rowResult (s.table.find? fun r => be.collates r.apiKey key)))
  | create {dis : UInt32 → ℕ → Fin 16} {name stored : Bytes} {rateLimit : ℤ} (seed : UInt32)
      (hstored : Mysql.varchar 128 name = some stored)
      (hnew : ∀ r ∈ s.table,
        be.collates r.apiKey (Repository.generateApiKey dis seed) = false) :
      Performs be s (.createApiKey dis name rateLimit)
        { table := s.table ++
            [⟨s.nextId, Repository.generateApiKey dis seed, stored, rateLimit, 1⟩]
          nextId := s.nextId + 1 }
        (.created ⟨s.nextId, Repository.generateApiKey dis seed, name, rateLimit, true⟩)
  | list : Performs be s .listApiKeys s
      (.listed ((s.table.insertionSort (·.id ≤ ·.id)).map rowInfo))
  | disable (id : ℤ) : Performs be s (.disableApiKey id)
      { s with table := s.table.map (disableRow id) }
      (.disabled (decide (0 < s.table.countP fun r => r.id = id ∧ r.enabled ≠ 0)))

/-- What an operation returns that reports a failure. -/
def failed : Operation → Operation.Result
  | .findApiKey _ => .found { dbError := true }
  | .createApiKey _ _ _ => .created {}
  | .listApiKeys => .listed []
  | .disableApiKey _ => .disabled false

/-- The table of keys: an operation is performed and answered, or performed without an answer, or
not performed. -/
inductive keyTable (be : Backend) : AtomicObject.Spec Operation Operation.Result Store where
  | answered {op : Operation} {s s' : Store} {result : Operation.Result}
      (h : Performs be s op s' result) : keyTable be op s s' result
  | unanswered {op : Operation} {s s' : Store} {result : Operation.Result}
      (h : Performs be s op s' result) : keyTable be op s s' (failed op)
  | refused (op : Operation) (s : Store) : keyTable be op s s (failed op)

/-! ## What the threads do -/

/-- An operation that a thread has called, with what is left of its program. -/
structure Task where
  op : Operation
  rest : Repo Operation.Result

structure State (ι : Type) where
  db : Db
  tasks : ι → Option Task

/-- A thread calls an operation, takes the next call of its program, or returns. -/
inductive Action (ι : Type) where
  | call (t : ι) (op : Operation)
  | advance (t : ι)
  | ret (t : ι) (result : Operation.Result)

/-- Calls and returns are seen. -/
def Action.visible {ι : Type} :
    Action ι → Option (AtomicObject.Event ι Operation Operation.Result)
  | .call t op => some (.call t op)
  | .advance _ => none
  | .ret t result => some (.ret t result)

variable {ι : Type} [DecidableEq ι]

/-- No thread is doing anything, and the pool has `n` connections. -/
def State.init (table : List Row) (nextId : ℤ) (n : ℕ) : State ι where
  db := { table := table, nextId := nextId, idle := (List.range n).map some }
  tasks _ := none

/-- No thread is doing anything, and the queue of the pool is as given. -/
def State.start (table : List Row) (nextId : ℤ) (idle : List (Option ℕ)) : State ι where
  db := { table := table, nextId := nextId, idle := idle }
  tasks _ := none

variable (be : Backend)

/-- One action. -/
def step (s : State ι) : Action ι → Option (State ι)
  | .call t op =>
    match s.tasks t with
    | none => some { s with tasks := Function.update s.tasks t (some ⟨op, op.program⟩) }
    | some _ => none
  | .advance t =>
    match s.tasks t with
    | some ⟨op, .call call next⟩ =>
      match Mysql.server be call s.db with
      | (.ok r, db) => some ⟨db, Function.update s.tasks t (some ⟨op, next r⟩)⟩
      | (.throw _, _) | (.ub, _) => none
    | _ => none
  | .ret t result =>
    match s.tasks t with
    | some ⟨_, .ret r⟩ =>
      if result = r then some { s with tasks := Function.update s.tasks t none } else none
    | _ => none

/-! ## What a thread knows -/

/-- How far an operation is with its connection: it has none yet, has been handed a null pointer,
has one, has a statement executed there, knows its result, and has returned the connection. -/
inductive Progress where
  | start
  | null
  | holding (c : ℕ)
  | executed (c : ℕ) (stmt : Statement)
  | settled (c : ℕ) (result : Operation.Result)
  | returned (result : Operation.Result)

/-- The connection that is held. -/
def Progress.connection : Progress → Option ℕ
  | start | null | returned _ => none
  | holding c | executed c _ | settled c _ => some c

/-- What an operation makes of what it has read. -/
def settle (op : Operation) (stmt : Statement) (x : Fetched) : Operation.Result :=
  (resultOf be op stmt x).getD (failed op)

/-- The order of the calls of an operation, whatever they answer. -/
def conduct (op : Operation) : Protocol Op Op.Res Progress where
  allowed
    | .start, .borrow => True
    | .null, .randomDevice => True
    | .null, .realEscapeString conn _ => conn = none
    | .null, .query conn _ => conn = none
    | .holding _, .randomDevice => True
    | .holding c, .realEscapeString conn _ => conn = some c
    | .holding c, .query conn stmt => conn = some c ∧ Sends be op stmt
    | .executed c (.selectKey _), .storeResult conn => conn = some c
    | .executed c .selectAll, .storeResult conn => conn = some c
    | .executed c (.insert _ _ _), .insertId conn => conn = some c
    | .executed c (.disable _), .affectedRows conn => conn = some c
    | .settled c _, .returnConnection conn => conn = some c
    | _, _ => False
  expected
    | _, .realEscapeString conn src, dst => conn ≠ none ∧ dst = be.escape src
    | _, .query conn _, _ => conn ≠ none
    | _, _, _ => True
  after
    | .start, .borrow, some c => .holding c
    | .start, .borrow, none => .null
    | .holding c, .query _ stmt, true => .executed c stmt
    | .holding c, .query _ _, false => .settled c (failed op)
    | .executed c stmt, .storeResult _, some rows => .settled c (settle be op stmt (.rows rows))
    | .executed c _, .storeResult _, none => .settled c (failed op)
    | .executed c stmt, .insertId _, n => .settled c (settle be op stmt (.number n))
    | .executed c stmt, .affectedRows _, n => .settled c (settle be op stmt (.number n))
    | .settled _ result, .returnConnection _, _ => .returned result
    | progress, _, _ => progress
  final _ := True

/-- What an operation ends with: its result, or a failure if it has no connection. -/
def EndsWith (op : Operation) : Progress → Operation.Result → Prop
  | .returned r, result => result = r
  | .null, result => result = failed op
  | _, _ => False

/-- An operation that has its answer returns the connection and ends with the result. -/
theorem ends_returnConnection {op : Operation} {c : ℕ} {result : Operation.Result} {α : Type}
    {g : α → Operation.Result} {a : α} (h : g a = result) :
    Script.Ends (conduct be op) (fun progress a => EndsWith op progress (g a)) (.settled c result)
      (Repository.returnConnection (some c) >>= fun _ => pure a) :=
  ⟨rfl, fun _ _ => h⟩

/-- A lookup keeps the order of the calls and ends with its result, or with a failure if it has no
connection. -/
theorem ends_findApiKey (key : Bytes) :
    Script.Ends (conduct be (.findApiKey key))
      (fun progress r => EndsWith (.findApiKey key) progress (.found r)) .start
      (Repository.findApiKey key) := by
  refine ⟨trivial, fun conn _ => ?_⟩
  cases conn with
  | none => exact rfl
  | some c =>
    refine ⟨rfl, fun escaped hescaped => ?_⟩
    obtain rfl : escaped = be.escape key := hescaped.2
    refine ⟨⟨rfl, by rw [be.cstr_escape]; rfl⟩, fun answered _ => ?_⟩
    cases answered with
    | false => exact ends_returnConnection be rfl
    | true =>
      refine ⟨rfl, fun rows _ => ?_⟩
      cases rows with
      | none => exact ends_returnConnection be rfl
      | some rows => exact ends_returnConnection be rfl

/-- A creation keeps the order of the calls and ends with its result, or with a failure if it has no
connection. -/
theorem ends_createApiKey (dis : UInt32 → ℕ → Fin 16) (name : Bytes) (rateLimit : ℤ) :
    Script.Ends (conduct be (.createApiKey dis name rateLimit))
      (fun progress info => EndsWith (.createApiKey dis name rateLimit) progress (.created info))
      .start (Repository.createApiKey dis name rateLimit) := by
  refine ⟨trivial, fun conn _ => ?_⟩
  cases conn with
  | none => exact ⟨trivial, fun seed _ => ⟨rfl, fun _ h => absurd rfl h.1⟩⟩
  | some c =>
    refine ⟨trivial, fun seed _ => ⟨rfl, fun escapedName hname => ⟨rfl, fun escapedKey hkey => ?_⟩⟩⟩
    obtain rfl : escapedName = be.escape name := hname.2
    obtain rfl : escapedKey = be.escape (Repository.generateApiKey dis seed) := hkey.2
    refine ⟨⟨rfl, seed, by rw [be.cstr_escape, be.cstr_escape]⟩, fun answered _ => ?_⟩
    cases answered with
    | false => exact ends_returnConnection be rfl
    | true =>
      refine ⟨rfl, fun newId _ => ends_returnConnection be ?_⟩
      rw [settle, resultOf, be.cstr_escape, be.unescape_escape, Option.getD_some]

/-- The list keeps the order of the calls and ends with its result, or with a failure if it has no
connection. -/
theorem ends_listApiKeys :
    Script.Ends (conduct be .listApiKeys)
      (fun progress keys => EndsWith .listApiKeys progress (.listed keys)) .start
      Repository.listApiKeys := by
  refine ⟨trivial, fun conn _ => ?_⟩
  cases conn with
  | none => exact ⟨rfl, fun _ h => absurd rfl h⟩
  | some c =>
    refine ⟨⟨rfl, rfl⟩, fun answered _ => ?_⟩
    cases answered with
    | false => exact ends_returnConnection be rfl
    | true =>
      refine ⟨rfl, fun rows _ => ?_⟩
      cases rows with
      | none => exact ends_returnConnection be rfl
      | some rows => exact ends_returnConnection be rfl

/-- Disabling keeps the order of the calls and ends with its result, or with a failure if it has no
connection. -/
theorem ends_disableApiKey (id : ℤ) :
    Script.Ends (conduct be (.disableApiKey id))
      (fun progress b => EndsWith (.disableApiKey id) progress (.disabled b)) .start
      (Repository.disableApiKey id) := by
  refine ⟨trivial, fun conn _ => ?_⟩
  cases conn with
  | none => exact ⟨rfl, fun _ h => absurd rfl h⟩
  | some c =>
    refine ⟨⟨rfl, rfl⟩, fun answered _ => ?_⟩
    cases answered with
    | false => exact ends_returnConnection be rfl
    | true => exact ⟨rfl, fun affected _ => ends_returnConnection be rfl⟩

/-- **Every operation keeps the order of the calls** (`conduct`), whatever they are answered, and
ends with the result that it has settled on, or with the report of a failure. -/
theorem ends_program (op : Operation) :
    Script.Ends (conduct be op) (EndsWith op) .start op.program := by
  cases op with
  | findApiKey key => exact (ends_findApiKey be key).map
  | createApiKey dis name rateLimit => exact (ends_createApiKey be dis name rateLimit).map
  | listApiKeys => exact (ends_listApiKeys be).map
  | disableApiKey id => exact (ends_disableApiKey be id).map

/-! ## The statement of an operation -/

section Execute

variable {be : Backend} {db db' : Db} {c : ℕ} {op : Operation} {stmt : Statement}

/-- **One statement** performs its operation, and leaves at the connection what the result is made
of. -/
theorem performs_of_execute (hsends : Sends be op stmt)
    (h : Mysql.execute be db c stmt = some db') :
    ∃ result, Performs be db.store op db'.store result ∧
      resultOf be op stmt (fetch db' c stmt) = some result := by
  cases op with
  | findApiKey key =>
    obtain rfl := hsends
    cases h
    refine ⟨_, .find key, ?_⟩
    simp only [fetch, resultOf, Function.update_self, be.unescape_escape, List.head?_take,
      List.head?_filter]
    rfl
  | createApiKey dis name rateLimit =>
    obtain ⟨seed, rfl⟩ := hsends
    have hkey := Mysql.varchar_of_le (KeyStore.charLength_generateApiKey_le dis seed)
    cases hstored : Mysql.varchar 128 name with
    | none => simp [Mysql.execute, be.unescape_escape, hkey, hstored] at h
    | some stored =>
      simp only [Mysql.execute, be.unescape_escape, hkey, hstored] at h
      obtain ⟨hnew, hsome⟩ := Option.ite_none_left_eq_some.mp h
      cases hsome
      have hnew' : ∀ r ∈ db.table,
          be.collates r.apiKey (Repository.generateApiKey dis seed) = false := by
        simpa using hnew
      refine ⟨_, .create seed hstored hnew', ?_⟩
      simp [fetch, resultOf, be.unescape_escape, Mysql.Db.store]
  | listApiKeys =>
    obtain rfl := hsends
    cases h
    exact ⟨_, .list, by simp [fetch, resultOf, Mysql.Db.store]⟩
  | disableApiKey id =>
    obtain rfl := hsends
    cases h
    refine ⟨_, .disable id, ?_⟩
    simp only [fetch, resultOf, Function.update_self, Int.natCast_pos]
    rfl

/-- A statement is executed, or it is reported as a failure and has done nothing. -/
theorem query_cases {answered : Bool}
    (h : Mysql.query be (some c) stmt db = (.ok answered, db')) :
    Mysql.execute be db.called c stmt = some db' ∨ answered = false ∧ db' = db.called := by
  rw [Mysql.query, Mysql.send] at h
  split at h
  · rename_i hexec
    cases h
    exact .inl hexec
  · rename_i hexec
    cases h
    exact .inl hexec
  · cases h
    exact .inr ⟨rfl, rfl⟩

end Execute

/-! ## The simulation -/

/-- What is seen of an operation: whether it has taken effect, and that what it may still return is
a result of that. -/
def Progress.Seen (be : Backend) (db : Db) (op : Operation) :
    Progress → Phase Operation Store → Prop
  | start, phase | null, phase | holding _, phase => phase = .called op
  | executed c stmt, phase => ∃ s s', phase = .done op s s' ∧ keyTable be op s s' (failed op) ∧
      ∀ result, resultOf be op stmt (fetch db c stmt) = some result → keyTable be op s s' result
  | settled _ result, phase | returned result, phase =>
    ∃ s s', phase = .done op s s' ∧ keyTable be op s s' result

/-- A thread is so far with its operation. -/
structure Doing (be : Backend) (db : Db) (task : Task) (progress : Progress)
    (phase : Phase Operation Store) : Prop where
  ends : Script.Ends (conduct be task.op) (EndsWith task.op) progress task.rest
  seen : progress.Seen be db task.op phase

/-- The table of keys shows what the threads have done. -/
structure Simulates (be : Backend) (s : State ι) (o : AtomicObject.State ι Operation Store)
    (k : ι → Progress) : Prop where
  store : o.store = s.db.store
  idle : ∀ t, s.tasks t = none → o.phase t = .idle
  doing : ∀ t task, s.tasks t = some task → Doing be s.db task (k t) (o.phase t)
  loan : OnLoan s.db.idle fun t => (k t).connection

variable {be} {s s' : State ι} {o : AtomicObject.State ι Operation Store} {k : ι → Progress}
  {t : ι} {op : Operation} {db' : Db}

/-- What is seen of an operation depends on its own connection alone. -/
theorem Progress.Seen.frame {progress : Progress} {phase : Phase Operation Store} {db db' : Db}
    (h : progress.Seen be db op phase) (hsame : ∀ c, progress.connection = some c →
      SameAt db db' c) : progress.Seen be db' op phase := by
  cases progress with
  | executed c stmt =>
    obtain ⟨s, s', hphase, hfailed, hresult⟩ := h
    refine ⟨s, s', hphase, hfailed, fun result hfetch => hresult result ?_⟩
    rwa [hsame c rfl stmt] at hfetch
  | _ => exact h

/-- What one thread does, if it changes no connection but its own. -/
theorem Simulates.update (h : Simulates be s o k) {task' : Option Task} {progress' : Progress}
    {phase' : Phase Operation Store} {store' : Store} (hstore : store' = db'.store)
    (hsame : ∀ c, (k t).connection ≠ some c → SameAt s.db db' c)
    (hidle : task' = none → phase' = .idle)
    (hdoing : ∀ task, task' = some task → Doing be db' task progress' phase')
    (hloan : OnLoan db'.idle
      (Function.update (fun u => (k u).connection) t progress'.connection)) :
    Simulates be ⟨db', Function.update s.tasks t task'⟩
      ⟨store', Function.update o.phase t phase'⟩ (Function.update k t progress') where
  store := hstore
  idle u hu := by
    change Function.update s.tasks t task' u = none at hu
    show Function.update o.phase t phase' u = .idle
    by_cases hut : u = t
    · subst hut
      rw [Function.update_self] at hu ⊢
      exact hidle hu
    · rw [Function.update_of_ne hut] at hu ⊢
      exact h.idle u hu
  doing u task hu := by
    change Function.update s.tasks t task' u = some task at hu
    show Doing be db' task (Function.update k t progress' u) (Function.update o.phase t phase' u)
    by_cases hut : u = t
    · subst hut
      rw [Function.update_self] at hu ⊢
      rw [Function.update_self]
      exact hdoing task hu
    · rw [Function.update_of_ne hut] at hu ⊢
      rw [Function.update_of_ne hut]
      obtain ⟨hends, hseen⟩ := h.doing u task hu
      exact ⟨hends, hseen.frame fun c hc => hsame c fun ht => hut (h.loan.alone u t c hc ht)⟩
  loan := by
    have hconn : (fun u => (Function.update k t progress' u).connection)
        = Function.update (fun u => (k u).connection) t progress'.connection :=
      Function.comp_update Progress.connection k t progress'
    show OnLoan db'.idle fun u => (Function.update k t progress' u).connection
    rw [hconn]
    exact hloan

/-- A call that is not seen, and that changes no connection. -/
theorem Simulates.unseen (h : Simulates be s o k) {rest' : Repo Operation.Result}
    {progress' : Progress} (hstore : db'.store = s.db.store) (hsame : ∀ c, SameAt s.db db' c)
    (hends : Script.Ends (conduct be op) (EndsWith op) progress' rest')
    (hseen : progress'.Seen be db' op (o.phase t))
    (hloan : OnLoan db'.idle
      (Function.update (fun u => (k u).connection) t progress'.connection)) :
    Simulates be ⟨db', Function.update s.tasks t (some ⟨op, rest'⟩)⟩ o
      (Function.update k t progress') := by
  have hupdate : Simulates be ⟨db', Function.update s.tasks t (some ⟨op, rest'⟩)⟩
      ⟨o.store, Function.update o.phase t (o.phase t)⟩ (Function.update k t progress') := by
    refine h.update (h.store.trans hstore.symm) (fun c _ => hsame c) nofun (fun task htask => ?_)
      hloan
    obtain rfl := Option.some.inj htask
    exact ⟨hends, hseen⟩
  rwa [Function.update_eq_self] at hupdate

/-- A call that is not seen and leaves the queue alone keeps the simulation. -/
theorem Simulates.read (h : Simulates be s o k) {rest' : Repo Operation.Result}
    {progress' : Progress} (hstore : db'.store = s.db.store) (hsame : ∀ c, SameAt s.db db' c)
    (hidle : db'.idle = s.db.idle) (hconn : progress'.connection = (k t).connection)
    (hends : Script.Ends (conduct be op) (EndsWith op) progress' rest')
    (hseen : progress'.Seen be db' op (o.phase t)) :
    Simulates be ⟨db', Function.update s.tasks t (some ⟨op, rest'⟩)⟩ o
      (Function.update k t progress') := by
  refine h.unseen hstore hsame hends hseen ?_
  rw [hidle, hconn, Function.update_eq_self]
  exact h.loan

/-- A connection is taken out of the queue, or none is there. -/
theorem Simulates.borrow (h : Simulates be s o k) {next : Option ℕ → Repo Operation.Result}
    (hphase : o.phase t = .called op)
    (hends : ∀ conn, Script.Ends (conduct be op) (EndsWith op)
      ((conduct be op).after .start .borrow conn) (next conn)) :
    ∃ k', Simulates be ⟨{ s.db with idle := s.db.idle.tail },
      Function.update s.tasks t (some ⟨op, next s.db.connection⟩)⟩ o k' := by
  cases hconn : s.db.connection with
  | none =>
    have hnull : Script.Ends (conduct be op) (EndsWith op) .null (next none) := hends none
    exact ⟨_, h.unseen rfl (fun _ _ => rfl) hnull hphase (h.loan.tail.drop t)⟩
  | some c =>
    have hholding : Script.Ends (conduct be op) (EndsWith op) (.holding c) (next (some c)) :=
      hends (some c)
    refine ⟨_, h.unseen rfl (fun _ _ => rfl) hholding hphase ?_⟩
    obtain ⟨idle, hidle⟩ : ∃ idle, s.db.idle = some c :: idle := by
      rw [Db.connection] at hconn
      cases hs : s.db.idle with
      | nil => simp [hs] at hconn
      | cons conn idle =>
        rw [hs] at hconn
        exact ⟨idle, congrArg (· :: idle) hconn⟩
    have hloan := h.loan
    rw [hidle] at hloan
    show OnLoan s.db.idle.tail _
    rw [hidle]
    exact hloan.take t

/-- **The statement of an operation** is where it takes effect. -/
theorem Simulates.query (h : Simulates be s o k) {c : ℕ} {stmt : Statement} {answered : Bool}
    {next : Bool → Repo Operation.Result} (hk : k t = .holding c) (hphase : o.phase t = .called op)
    (hsends : Sends be op stmt)
    (hends : ∀ answered, Script.Ends (conduct be op) (EndsWith op)
      ((conduct be op).after (.holding c) (.query (some c) stmt) answered) (next answered))
    (hquery : Mysql.query be (some c) stmt s.db = (.ok answered, db')) :
    ∃ o', Runs (keyTable be) o [] o' ∧ ∃ k', Simulates be
      ⟨db', Function.update s.tasks t (some ⟨op, next answered⟩)⟩ o' k' := by
  have hheld : (k t).connection = some c := by rw [hk]; rfl
  have hcalled : s.db.called.store = o.store := h.store.symm
  -- the operation is performed on the table as it is, with some result
  have hperform : ∀ {progress' : Progress} {result : Operation.Result},
      keyTable be op o.store db'.store result → progress'.connection = some c →
      db'.idle = s.db.idle → (∀ c', c' ≠ c → SameAt s.db db' c') →
      Script.Ends (conduct be op) (EndsWith op) progress' (next answered) →
      progress'.Seen be db' op (.done op o.store db'.store) →
      ∃ o', Runs (keyTable be) o [] o' ∧ ∃ k', Simulates be
        ⟨db', Function.update s.tasks t (some ⟨op, next answered⟩)⟩ o' k' := by
    intro progress' result hspec hconn hidle hsame hends' hseen
    refine ⟨_, .silent (.perform hphase hspec) (.refl _), Function.update k t progress', ?_⟩
    refine h.update rfl (fun c' hc' => hsame c' ?_) nofun (fun task htask => ?_) ?_
    · rintro rfl
      exact hc' hheld
    · obtain rfl := Option.some.inj htask
      exact ⟨hends', hseen⟩
    · rw [hidle, hconn, ← hheld, Function.update_eq_self]
      exact h.loan
  rcases query_cases hquery with hexec | ⟨rfl, rfl⟩
  · obtain ⟨hidle, hsame⟩ := KeyStore.execute_frame hexec
    obtain ⟨result, hperformed, hresult⟩ := performs_of_execute hsends hexec
    rw [hcalled] at hperformed
    cases answered with
    | true =>
      refine hperform (.answered hperformed) rfl hidle hsame (hends true) ?_
      refine ⟨_, _, rfl, .unanswered hperformed, fun result' hresult' => ?_⟩
      obtain rfl := Option.some.inj (hresult.symm.trans hresult')
      exact .answered hperformed
    | false =>
      exact hperform (.unanswered hperformed) rfl hidle hsame (hends false)
        ⟨_, _, rfl, .unanswered hperformed⟩
  · have hrefused : keyTable be op o.store s.db.called.store (failed op) := by
      rw [hcalled]
      exact .refused op o.store
    exact hperform hrefused rfl rfl (fun _ _ _ => rfl) (hends false) ⟨_, _, rfl, hrefused⟩

/-- An operation reads from its connection what its result is made of, or fails to. -/
theorem Simulates.settle (h : Simulates be s o k) {c : ℕ} {stmt : Statement}
    {rest' : Repo Operation.Result} {result : Operation.Result} (hk : k t = .executed c stmt)
    (hseen : (Progress.executed c stmt).Seen be s.db op (o.phase t))
    (hresult : result = failed op ∨ result = Shared.settle be op stmt (fetch s.db c stmt))
    (hstore : db'.store = s.db.store) (hsame : ∀ c, SameAt s.db db' c)
    (hidle : db'.idle = s.db.idle)
    (hends : Script.Ends (conduct be op) (EndsWith op) (.settled c result) rest') :
    Simulates be ⟨db', Function.update s.tasks t (some ⟨op, rest'⟩)⟩ o
      (Function.update k t (.settled c result)) := by
  refine h.read hstore hsame hidle (by rw [hk]; rfl) hends ?_
  obtain ⟨store, store', hphase, hfailed, hread⟩ := hseen
  refine ⟨store, store', hphase, ?_⟩
  rcases hresult with rfl | rfl
  · exact hfailed
  · rw [Shared.settle]
    cases hx : resultOf be op stmt (fetch s.db c stmt) with
    | none => exact hfailed
    | some result => exact hread result hx

/-- **A thread takes the next call of its program.** -/
theorem Simulates.advance (h : Simulates be s o k) {call : Op}
    {next : call.Res → Repo Operation.Result} (htask : s.tasks t = some ⟨op, .call call next⟩)
    {r : call.Res} (hserver : Mysql.server be call s.db = (.ok r, db')) :
    ∃ o', Runs (keyTable be) o [] o' ∧ ∃ k', Simulates be
      ⟨db', Function.update s.tasks t (some ⟨op, next r⟩)⟩ o' k' := by
  obtain ⟨⟨hallowed, hends⟩, hseen⟩ := h.doing t _ htask
  dsimp only at hallowed hends hseen
  cases hk : k t with
  | start =>
    rw [hk] at hallowed hends hseen
    cases call with
    | borrow =>
      cases hserver
      exact ⟨o, .refl o, h.borrow hseen fun conn => hends conn trivial⟩
    | _ => exact hallowed.elim
  | null =>
    rw [hk] at hallowed hends hseen
    cases call with
    | randomDevice =>
      cases hserver
      exact ⟨o, .refl o, _, h.read rfl (fun _ _ => rfl) rfl (by rw [hk]; rfl) (hends _ trivial)
        hseen⟩
    | realEscapeString | query =>
      obtain rfl := hallowed
      cases hserver
    | _ => exact hallowed.elim
  | holding c =>
    rw [hk] at hallowed hends hseen
    cases call with
    | randomDevice =>
      cases hserver
      exact ⟨o, .refl o, _, h.read rfl (fun _ _ => rfl) rfl (by rw [hk]; rfl) (hends _ trivial)
        hseen⟩
    | realEscapeString conn src =>
      obtain rfl := hallowed
      by_cases hfits : be.Fits src
      · rw [Mysql.server, Mysql.realEscapeString_of_fits be s.db hfits] at hserver
        cases hserver
        exact ⟨o, .refl o, _, h.read rfl (fun _ _ => rfl) rfl (by rw [hk]; rfl)
          (hends _ ⟨Option.some_ne_none c, rfl⟩) hseen⟩
      · rw [Mysql.server, Mysql.realEscapeString_of_not_fits be s.db hfits] at hserver
        cases hserver
    | query conn stmt =>
      obtain ⟨rfl, hsends⟩ := hallowed
      exact h.query hk hseen hsends (fun answered => hends answered (Option.some_ne_none c)) hserver
    | _ => exact hallowed.elim
  | executed c stmt =>
    rw [hk] at hallowed hends hseen
    cases call with
    | storeResult conn =>
      have hrows : conn = some c ∧ fetch s.db c stmt = .rows (s.db.resultSet c) := by
        cases stmt with
        | selectKey | selectAll => exact ⟨hallowed, rfl⟩
        | insert | disable => exact hallowed.elim
      obtain ⟨rfl, hfetch⟩ := hrows
      rw [Mysql.server, Mysql.storeResult_some] at hserver
      cases hserver
      split
      · exact ⟨o, .refl o, _, h.settle hk hseen (.inr (by rw [hfetch])) rfl (fun _ _ => rfl) rfl
          (hends (some (s.db.resultSet c)) trivial)⟩
      · exact ⟨o, .refl o, _, h.settle hk hseen (.inl rfl) rfl (fun _ _ => rfl) rfl
          (hends none trivial)⟩
    | insertId conn =>
      cases stmt with
      | insert =>
        obtain rfl := hallowed
        cases hserver
        exact ⟨o, .refl o, _, h.settle hk hseen (.inr rfl) rfl (fun _ _ => rfl) rfl
          (hends _ trivial)⟩
      | _ => exact hallowed.elim
    | affectedRows conn =>
      cases stmt with
      | disable =>
        obtain rfl := hallowed
        cases hserver
        exact ⟨o, .refl o, _, h.settle hk hseen (.inr rfl) rfl (fun _ _ => rfl) rfl
          (hends _ trivial)⟩
      | _ => exact hallowed.elim
    | _ => cases stmt <;> exact hallowed.elim
  | settled c result =>
    rw [hk] at hallowed hends hseen
    cases call with
    | returnConnection conn =>
      obtain rfl := hallowed
      cases hserver
      have hheld : (k t).connection = some c := by rw [hk]; rfl
      exact ⟨o, .refl o, _, h.unseen rfl (fun _ _ => rfl) (hends _ trivial) hseen
        (h.loan.give hheld)⟩
    | _ => exact hallowed.elim
  | returned result =>
    rw [hk] at hallowed
    cases call <;> exact hallowed.elim

/-! ## Every run -/

omit [DecidableEq ι] in
/-- At the start no operation is under way on either side. -/
theorem simulates_start (table : List Row) (nextId : ℤ) {idle : List (Option ℕ)}
    (hidle : idle.Nodup) :
    Simulates be (State.start table nextId idle : State ι) ⟨⟨table, nextId⟩, fun _ => .idle⟩
      fun _ => .start where
  store := rfl
  idle _ _ := rfl
  doing _ _ htask := by cases htask
  loan := onLoan_init hidle

/-- A call of an operation is one of the atomic table. -/
theorem Simulates.call (h : Simulates be s o k) (htask : s.tasks t = none) (op : Operation) :
    ∃ o', Runs (keyTable be) o [.call t op] o' ∧ ∃ k', Simulates be
      { s with tasks := Function.update s.tasks t (some ⟨op, op.program⟩) } o' k' := by
  refine ⟨_, .single (.call (h.idle t htask)), Function.update k t .start, ?_⟩
  refine h.update h.store (fun _ _ _ => rfl) nofun (fun task hsome => ?_) (h.loan.drop t)
  obtain rfl := Option.some.inj hsome
  exact ⟨ends_program be op, rfl⟩

/-- An operation without a connection takes effect as it returns: nothing. -/
theorem Simulates.ret (h : Simulates be s o k) {result : Operation.Result}
    (htask : s.tasks t = some ⟨op, .ret result⟩) :
    ∃ o', Runs (keyTable be) o [.ret t result] o' ∧ ∃ k', Simulates be
      { s with tasks := Function.update s.tasks t none } o' k' := by
  obtain ⟨hends, hseen⟩ := h.doing t _ htask
  replace hends : EndsWith op (k t) result := hends
  have hidle : ∀ {o'}, o'.store = o.store → o'.phase = Function.update o.phase t .idle →
      ∃ k', Simulates be { s with tasks := Function.update s.tasks t none } o' k' := by
    rintro ⟨store, phase⟩ rfl rfl
    refine ⟨Function.update k t .start, ?_⟩
    exact h.update h.store (fun _ _ _ => rfl) (fun _ => rfl) nofun (h.loan.drop t)
  cases hk : k t with
  | null =>
    rw [hk] at hends hseen
    obtain rfl := hends
    have hrefused : keyTable be op o.store o.store (failed op) := .refused op o.store
    have hphase := Function.update_self t (Phase.done op o.store o.store) o.phase
    refine ⟨_, .silent (.perform hseen hrefused) (.single (.ret hphase hrefused)), hidle rfl ?_⟩
    exact Function.update_idem _ _ _
  | returned result' =>
    rw [hk] at hends hseen
    obtain rfl := hends
    obtain ⟨store, store', hphase, hspec⟩ := hseen
    exact ⟨_, .single (.ret hphase hspec), hidle rfl rfl⟩
  | _ =>
    rw [hk] at hends
    exact hends.elim

/-- **One action** is one of the table of keys. -/
theorem simulates_step {a : Action ι} (h : ∃ k, Simulates be s o k)
    (hstep : step be s a = some s') :
    ∃ o', Runs (keyTable be) o a.visible.toList o' ∧ ∃ k', Simulates be s' o' k' := by
  obtain ⟨k, h⟩ := h
  cases a with
  | call t op =>
    dsimp only [step] at hstep
    split at hstep
    · rename_i htask
      cases hstep
      exact h.call htask op
    · cases hstep
  | advance t =>
    dsimp only [step] at hstep
    split at hstep
    · rename_i op call next htask
      split at hstep
      · rename_i r db' hserver
        cases hstep
        exact h.advance htask hserver
      · cases hstep
      · cases hstep
    · cases hstep
  | ret t result =>
    dsimp only [step] at hstep
    split at hstep
    · rename_i op r htask
      obtain ⟨rfl, hs'⟩ := Option.ite_none_right_eq_some.mp hstep
      cases hs'
      exact h.ret htask
    · cases hstep

/-- The history of a run on a pool that has each connection once. -/
theorem linearizable_of_nodup {table : List Row} {nextId : ℤ} {idle : List (Option ℕ)}
    {actions : List (Action ι)} (hidle : idle.Nodup)
    (hrun : run (step be) (State.start table nextId idle) actions = some s) :
    AtomicObject.Linearizable (keyTable be) ⟨table, nextId⟩ (actions.filterMap Action.visible)
      s.db.store := by
  obtain ⟨o, hruns, k, h⟩ := AtomicObject.runs_of_simulation
    (fun c a c' o hR hstep => simulates_step hR hstep) ⟨_, simulates_start table nextId hidle⟩ hrun
  refine ⟨o.phase, ?_⟩
  rw [← h.store]
  exact hruns

/-- The pool starts with each connection once. -/
theorem nodup_init (n : ℕ) : ((List.range n).map some).Nodup :=
  List.nodup_range.map (Option.some_injective _)

/-- **The repository is linearizable.** For every initial table, every pool and every behaviour of
the database, in every run of the operations by any number of threads, in any order and with
whatever time-outs and failures: the calls and returns are those of the table of keys, which is left
as the database has it. -/
theorem linearizable_run {table : List Row} {nextId : ℤ} {n : ℕ} {actions : List (Action ι)}
    (hrun : run (step be) (State.init table nextId n) actions = some s) :
    AtomicObject.Linearizable (keyTable be) ⟨table, nextId⟩ (actions.filterMap Action.visible)
      s.db.store :=
  linearizable_of_nodup (nodup_init n) hrun

/-- A database that loses the answer to the first statement. -/
def forgetful : Backend :=
  { KeyStore.bytewise with fault := fun n => if n = 0 then some .answerLost else none }

/-- While a client creates a key, another one times out on the only connection. The creation reports
a failure, and the key is there. -/
def createForgotten : List (Action Bool) :=
  let key := Repository.generateApiKey KeyStore.zeros 0
  [Action.call true (.createApiKey KeyStore.zeros (utf8 "ci") 60), .advance true,
    .call false (.findApiKey key), .advance false, .ret false (.found { dbError := true })]
    ++ List.replicate 5 (Action.advance true)
    ++ [Action.ret true (.created {}), .call false .listApiKeys]
    ++ List.replicate 4 (Action.advance false)
    ++ [Action.ret false (.listed [⟨1, key, utf8 "ci", 60, true⟩])]

/-- The theorem at a creation whose answer is forgotten, with a lookup after it. -/
theorem linearizable_run_createForgotten :
    let key := Repository.generateApiKey KeyStore.zeros 0
    AtomicObject.Linearizable (keyTable forgetful) ⟨[], 1⟩
      [.call true (.createApiKey KeyStore.zeros (utf8 "ci") 60), .call false (.findApiKey key),
        .ret false (.found { dbError := true }), .ret true (.created {}), .call false .listApiKeys,
        .ret false (.listed [⟨1, key, utf8 "ci", 60, true⟩])]
      ⟨[⟨1, key, utf8 "ci", 60, 1⟩], 2⟩ := by
  intro key
  have hrun : (run (step forgetful) (State.init [] 1 1) createForgotten).map (·.db.store)
      = some ⟨[⟨1, key, utf8 "ci", 60, 1⟩], 2⟩ := by decide +kernel
  obtain ⟨s, hs, hstore⟩ := Option.map_eq_some_iff.mp hrun
  rw [← hstore]
  exact linearizable_run hs

end Shared

end AiSwitch
