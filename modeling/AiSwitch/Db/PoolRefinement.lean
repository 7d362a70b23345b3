import AiSwitch.Db.Linearizability
import AiSwitch.Db.PoolProgress

/-!
# The pool as one queue

In `Linearizability` a thread takes `borrow` and `return_connection` in one step each. Here it takes
them as they are written: with their locks, with a wait that ends by a notification, by itself or by
its time-out, and with the other threads in between. What the threads see is the same
(`refines_step`): a `borrow` is the step in which it takes its connection out of the queue, or finds
the queue empty for the last time, and a `return_connection` the one in which it puts its connection
there. So the repository is linearizable on the pool as it is (`history_linearizable`).

As there, a run ends where a call has no defined behaviour.
-/

namespace AiSwitch

open AtomicObject (Event)
open ConnectionPool (Action Local Pc construct enter threadStep)
open ByteString Effect Transition
open Mysql (Backend Db Op Row)
open Operation (Result)
open Repository (Repo)

/-- Answers can be compared. -/
instance Mysql.Op.decidableEqRes : (op : Op) → DecidableEq op.Res
  | .borrow => inferInstanceAs (DecidableEq (Option ℕ))
  | .returnConnection _ => inferInstanceAs (DecidableEq Unit)
  | .realEscapeString _ _ => inferInstanceAs (DecidableEq Bytes)
  | .query _ _ => inferInstanceAs (DecidableEq Bool)
  | .storeResult _ => inferInstanceAs (DecidableEq (Option (List Row)))
  | .insertId _ | .affectedRows _ => inferInstanceAs (DecidableEq ℤ)
  | .randomDevice => inferInstanceAs (DecidableEq UInt32)

/-- A pool in use by `m` threads, and its database. -/
structure Deployment (m : ℕ) where
  pool : ConnectionPool.State m
  db : Db

namespace Deployment

variable {m : ℕ}

/-- A pool with this queue, used by nobody. -/
def init (table : List Row) (nextId : ℤ) (idle : List (Option ℕ)) : Deployment m where
  pool := ConnectionPool.init idle
  db := { table := table, nextId := nextId, idle := idle }

/-- The database, with the queue of the pool. -/
def view (s : Deployment m) : Db := { s.db with idle := s.pool.shared.idle }

/-- What an action of the pool does to the database: a call of the client library gets the answer
that the database gives. -/
def answered (be : Backend) (db : Db) : Action m → Option Db
  | .answer _ op r =>
    match Mysql.server be op db with
    | (.ok r', db') => if r = r' then some db' else none
    | (.throw _, _) | (.ub, _) => none
  | _ => some db

/-- One action. -/
def step (be : Backend) (s : Deployment m) (a : Action m) : Option (Deployment m) :=
  (ConnectionPool.step s.pool a).bind fun pool => (answered be s.view a).map fun db => ⟨pool, db⟩

/-- What is seen of an operation that goes on. -/
def shows (t : Fin m) : Repo Result → List (Event (Fin m) Operation Result)
  | .ret r => [.ret t r]
  | .call _ _ => []

/-- A `borrow` that has unlocked returns, and with it perhaps the operation. -/
def borrowed (t : Fin m) : Pc → List (Event (Fin m) Operation Result)
  | .unlockBorrow conn next => shows t (next conn)
  | .unlockTimeout next => shows t (next none)
  | _ => []

/-- What is seen of an action: a call, or that an operation returns. -/
def seen (s : Deployment m) : Action m → List (Event (Fin m) Operation Result)
  | .call t op => [.call t op]
  | .run t => borrowed t (s.pool.threads t).pc
  | .answer t op r =>
    match (s.pool.threads t).pc with
    | .calling op' next => if h : op = op' then shows t (next (h ▸ r)) else []
    | _ => []
  | .notify t _ =>
    match (s.pool.threads t).pc with
    | .notifyOne next => shows t (next ())
    | _ => []
  | .spurious _ | .timeout _ => []

/-! ## What one thread does on the atomic queue -/

/-- The thread, and no other, takes some steps that show this. -/
structure Follows (be : Backend) (t : Fin m) (x : Shared.State (Fin m))
    (es : List (Event (Fin m) Operation Result)) (x' : Shared.State (Fin m)) : Prop where
  shows : Shows (Shared.step be) Shared.Action.visible x es x'
  others : ∀ u, u ≠ t → x'.tasks u = x.tasks u

/-- What is left of the operation that the thread has called. -/
def remaining (x : Shared.State (Fin m)) (t : Fin m) : Option (Repo Result) :=
  (x.tasks t).map Shared.Task.rest

section Follows

variable {be : Backend} {t : Fin m} {x y z : Shared.State (Fin m)}
  {es fs : List (Event (Fin m) Operation Result)} {op : Op} {next : op.Res → Repo Result}
  {r : op.Res} {rest' : Repo Result} {db' : Db}

/-- The atomic pool may stay where it is. -/
theorem Follows.refl (x : Shared.State (Fin m)) : Follows be t x [] x := ⟨.refl x, fun _ _ => rfl⟩

/-- Two stretches of the atomic pool's run in a row are one. -/
theorem Follows.trans (h : Follows be t x es y) (h' : Follows be t y fs z) :
    Follows be t x (es ++ fs) z :=
  ⟨h.shows.trans h'.shows, fun u hu => (h'.others u hu).trans (h.others u hu)⟩

/-- A thread with work left has an operation under way. -/
theorem exists_task_of_remaining (h : remaining x t = some rest') :
    ∃ op, x.tasks t = some ⟨op, rest'⟩ := by
  obtain ⟨⟨op, rest''⟩, htask, rfl⟩ := Option.map_eq_some_iff.mp h
  exact ⟨op, htask⟩

/-- The atomic pool can follow a call. -/
theorem exists_follows_call (be : Backend) (h : remaining x t = none) (op : Operation) :
    ∃ x', Follows be t x [.call t op] x' ∧ x'.db = x.db ∧ remaining x' t = some op.program := by
  have htask : x.tasks t = none := Option.map_eq_none_iff.mp h
  have hstep : Shared.step be x (.call t op) = some
      { x with tasks := Function.update x.tasks t (some ⟨op, op.program⟩) } := by
    simp only [Shared.step, htask]
  refine ⟨_, ⟨.single hstep, fun u hu => Function.update_of_ne hu _ _⟩, rfl, ?_⟩
  simp [remaining]

/-- The atomic pool can follow a request that the server answers. -/
theorem exists_follows_advance (h : remaining x t = some (.call op next))
    (hserver : Mysql.server be op x.db = (.ok r, db')) :
    ∃ x', Follows be t x [] x' ∧ x'.db = db' ∧ remaining x' t = some (next r) := by
  obtain ⟨called, htask⟩ := exists_task_of_remaining h
  have hstep : Shared.step be x (.advance t) = some
      ⟨db', Function.update x.tasks t (some ⟨called, next r⟩)⟩ := by
    simp only [Shared.step, htask, hserver]
  refine ⟨_, ⟨.single hstep, fun u hu => Function.update_of_ne hu _ _⟩, rfl, ?_⟩
  simp [remaining]

/-- The operation goes on: where nothing is left of it, it returns. -/
theorem exists_follows_enter (be : Backend) (h : remaining x t = some rest') :
    ∃ x', Follows be t x (shows t rest') x' ∧ x'.db = x.db ∧
      remaining x' t = (enter rest').rest := by
  cases rest' with
  | call op next =>
    refine ⟨x, .refl x, rfl, ?_⟩
    rw [h]
    cases op <;> rfl
  | ret r =>
    obtain ⟨called, htask⟩ := exists_task_of_remaining h
    have hstep : Shared.step be x (.ret t r) = some
        { x with tasks := Function.update x.tasks t none } := by
      simp only [Shared.step, htask, if_pos]
    refine ⟨_, ⟨.single hstep, fun u hu => Function.update_of_ne hu _ _⟩, rfl, ?_⟩
    simp [remaining, enter, Pc.rest]

end Follows

/-! ## The refinement -/

/-- A call that is answered by the client library is not one of the pool's. -/
def Foreign : Pc → Prop
  | .calling .borrow _ | .calling (.returnConnection _) _ => False
  | _ => True

/-- Entering an operation makes no call that the pool would answer. -/
theorem foreign_enter (x : Repo Result) : Foreign (enter x) := by
  cases x with
  | ret r => trivial
  | call op next => cases op <;> trivial

/-- The threads are where they are on the atomic queue, but for the steps by which they take a
connection or put it back. -/
structure Refines (s : Deployment m) (x : Shared.State (Fin m)) : Prop where
  db : x.db = s.view
  rest : ∀ t, remaining x t = (s.pool.threads t).pc.rest
  foreign : ∀ t, Foreign (s.pool.threads t).pc

variable {be : Backend} {s : Deployment m} {x x' : Shared.State (Fin m)} {t : Fin m}
  {es : List (Event (Fin m) Operation Result)} {b' : ConnectionPool.Shared m} {l' : Local}
  {db' : Db} {stage : Operation.Stage} {pc : Pc}

/-- The refinement is kept where one thread moves as the atomic one does. -/
theorem Refines.move (h : Refines s x) (hothers : ∀ u, u ≠ t → x'.tasks u = x.tasks u)
    (hdb : x'.db = { db' with idle := b'.idle }) (hrest : remaining x' t = l'.pc.rest)
    (hforeign : Foreign l'.pc) :
    Refines ⟨⟨b', Function.update s.pool.threads t l'⟩, db'⟩ x' where
  db := hdb
  rest := by
    refine (Function.forall_update_iff s.pool.threads fun u l =>
      remaining x' u = l.pc.rest).mpr ⟨hrest, fun u hu => ?_⟩
    rw [remaining, hothers u hu]
    exact h.rest u
  foreign := (Function.forall_update_iff s.pool.threads fun _ l => Foreign l.pc).mpr
    ⟨hforeign, fun u _ => h.foreign u⟩

/-- A step that is none on the atomic queue. -/
theorem Refines.stay (h : Refines s x) (hidle : b'.idle = s.pool.shared.idle)
    (hrest : l'.pc.rest = (s.pool.threads t).pc.rest) (hforeign : Foreign l'.pc) :
    Refines ⟨⟨b', Function.update s.pool.threads t l'⟩, s.view⟩ x := by
  refine h.move (fun _ _ => rfl) ?_ ((h.rest t).trans hrest.symm) hforeign
  rw [h.db, hidle]
  rfl

/-- The atomic pool follows a call that its queue answers. -/
theorem Refines.advance {op : Op} {next : op.Res → Repo Result} {r : op.Res} (h : Refines s x)
    (hcall : (s.pool.threads t).pc.rest = some (.call op next))
    (hserver : Mysql.server be op s.view = (.ok r, { s.view with idle := b'.idle }))
    (hnext : l'.pc.rest = some (next r)) (hforeign : Foreign l'.pc) :
    ∃ x', Shows (Shared.step be) Shared.Action.visible x [] x' ∧
      Refines ⟨⟨b', Function.update s.pool.threads t l'⟩, s.view⟩ x' := by
  rw [← h.db] at hserver
  obtain ⟨x', hfollows, hdb, hrest⟩ := exists_follows_advance ((h.rest t).trans hcall) hserver
  rw [h.db] at hdb
  exact ⟨x', hfollows.shows, h.move hfollows.others hdb (hrest.trans hnext.symm) hforeign⟩

/-- The atomic pool follows an operation that goes on. -/
theorem Refines.resume (be : Backend) (stage : Operation.Stage) {y : Repo Result}
    (h : Refines s x) (hidle : b'.idle = s.pool.shared.idle)
    (hrest : (s.pool.threads t).pc.rest = some y) :
    ∃ x', Shows (Shared.step be) Shared.Action.visible x (shows t y) x' ∧
      Refines ⟨⟨b', Function.update s.pool.threads t ⟨stage, enter y⟩⟩, s.view⟩ x' := by
  obtain ⟨x', hfollows, hdb, hrest'⟩ := exists_follows_enter be ((h.rest t).trans hrest)
  refine ⟨x', hfollows.shows, h.move hfollows.others ?_ hrest' (foreign_enter y)⟩
  rw [hdb, h.db, hidle]
  rfl

/-- **A step of one thread.** -/
theorem Refines.run (h : Refines s x) (hl : s.pool.threads t = ⟨stage, pc⟩)
    (hstep : threadStep s.pool.shared t stage pc = some (b', l')) :
    ∃ x', Shows (Shared.step be) Shared.Action.visible x (seen s (.run t)) x' ∧
      Refines ⟨⟨b', Function.update s.pool.threads t l'⟩, s.view⟩ x' := by
  have hpc : (s.pool.threads t).pc = pc := by rw [hl]
  have hrest : (s.pool.threads t).pc.rest = pc.rest := by rw [hpc]
  rw [seen, hpc]
  cases pc with
  | outside | waiting | calling | notifyOne => cases hstep
  | lock | returnLock =>
    obtain ⟨-, hsome⟩ := Option.ite_none_right_eq_some.mp hstep
    cases hsome
    exact ⟨x, .refl x, h.stay rfl hrest.symm trivial⟩
  | check expired next =>
    simp only [threadStep, Option.some.injEq, Prod.mk.injEq] at hstep
    obtain ⟨rfl, hl'⟩ := hstep
    split_ifs at hl' with hidle hexpired
    · subst hl'
      exact ⟨x, .refl x, h.stay rfl hrest.symm trivial⟩
    · -- the last look into the queue, which is empty
      subst hl'
      rw [not_not] at hidle
      refine h.advance hrest ?_ rfl trivial
      simp [Mysql.server, Mysql.borrow, Mysql.Db.connection, view, hidle]
    · subst hl'
      exact ⟨x, .refl x, h.stay rfl hrest.symm trivial⟩
  | sleep | returnUnlock =>
    cases hstep
    exact ⟨x, .refl x, h.stay rfl hrest.symm trivial⟩
  | pop next =>
    cases hidle : s.pool.shared.idle with
    | nil => simp [threadStep, hidle] at hstep
    | cons conn idle =>
      simp only [threadStep, hidle, Option.some.injEq, Prod.mk.injEq] at hstep
      obtain ⟨rfl, rfl⟩ := hstep
      refine h.advance hrest ?_ rfl trivial
      simp [Mysql.server, Mysql.borrow, Mysql.Db.connection, view, hidle]
  | unlockBorrow | unlockTimeout =>
    cases hstep
    exact h.resume be _ rfl hrest
  | push conn next =>
    cases hstep
    exact h.advance hrest rfl rfl trivial

/-- A wait that ends leaves the thread where it is on the atomic queue. -/
theorem Refines.wake {pool : ConnectionPool.State m} {expired : Bool} (h : Refines s x)
    (hstep : ConnectionPool.wake s.pool t expired = some pool) :
    Refines ⟨pool, s.view⟩ x := by
  rcases hl : s.pool.threads t with ⟨stage, pc⟩
  cases pc with
  | waiting next =>
    simp only [ConnectionPool.wake, hl, Option.some.injEq] at hstep
    subst hstep
    exact h.stay rfl (by rw [hl]; rfl) trivial
  | _ => simp [ConnectionPool.wake, hl] at hstep

/-- The atomic pool follows an answer of the database. -/
theorem Refines.answer {op : Op} {next : op.Res → Repo Result} {r : op.Res} (h : Refines s x)
    (hl : s.pool.threads t = ⟨stage, .calling op next⟩)
    (hserver : Mysql.server be op s.view = (.ok r, db')) :
    ∃ x', Shows (Shared.step be) Shared.Action.visible x (shows t (next r)) x' ∧
      Refines ⟨⟨s.pool.shared, Function.update s.pool.threads t ⟨stage, enter (next r)⟩⟩, db'⟩
        x' := by
  have hrest : remaining x t = some (.call op next) := by rw [h.rest, hl, Pc.rest]
  have hidle : db'.idle = s.pool.shared.idle := by
    have hforeign : Foreign (.calling op next) := by
      have := h.foreign t
      rwa [hl] at this
    have hserver' := Operation.idle_server be s.view op
    rw [hserver] at hserver'
    cases op with
    | borrow | returnConnection => exact hforeign.elim
    | _ => exact hserver'
  obtain ⟨y, hadvance, hy, hnext⟩ := exists_follows_advance hrest (h.db ▸ hserver)
  obtain ⟨x', henter, hx', hrest'⟩ := exists_follows_enter be hnext
  refine ⟨x', (hadvance.trans henter).shows, h.move (hadvance.trans henter).others ?_ hrest'
    (foreign_enter _)⟩
  rw [hx', hy, ← hidle]

/-- The atomic pool follows a `return_connection` that has notified. -/
theorem Refines.notify {next : Unit → Repo Result} {woken : Option (Fin m)}
    {pool : ConnectionPool.State m} (h : Refines s x)
    (hl : s.pool.threads t = ⟨stage, .notifyOne next⟩)
    (hstep : ConnectionPool.step s.pool (.notify t woken) = some pool) :
    ∃ x', Shows (Shared.step be) Shared.Action.visible x (shows t (next ())) x' ∧
      Refines ⟨pool, s.view⟩ x' := by
  have hrest : (s.pool.threads t).pc.rest = some (next ()) := by rw [hl]; rfl
  obtain ⟨x', hshows, hentered⟩ := h.resume be stage rfl hrest
  refine ⟨x', hshows, ?_⟩
  simp only [ConnectionPool.step, hl] at hstep
  cases woken with
  | some u => exact hentered.wake hstep
  | none =>
    obtain ⟨-, hsome⟩ := Option.ite_none_right_eq_some.mp hstep
    cases hsome
    exact hentered

/-- **One action** is what it is on the atomic queue. -/
theorem refines_step (s : Deployment m) (a : Action m) (s' : Deployment m)
    (x : Shared.State (Fin m)) (h : Refines s x) (hstep : step be s a = some s') :
    ∃ x', Shows (Shared.step be) Shared.Action.visible x (seen s a) x' ∧ Refines s' x' := by
  obtain ⟨pool, hpool, hdb⟩ := Option.bind_eq_some_iff.mp hstep
  obtain ⟨db, hanswered, rfl⟩ := Option.map_eq_some_iff.mp hdb
  cases a with
  | call t op =>
    cases hanswered
    rcases hl : s.pool.threads t with ⟨stage, pc⟩
    cases pc with
    | outside =>
      simp only [ConnectionPool.step, hl, Option.some.injEq] at hpool
      subst hpool
      have hrest : remaining x t = none := by rw [h.rest, hl, Pc.rest]
      obtain ⟨x', hfollows, hdb, hrest'⟩ := exists_follows_call be hrest op
      refine ⟨x', hfollows.shows, h.move hfollows.others (hdb.trans h.db) ?_ (foreign_enter _)⟩
      rw [hrest']
      cases op <;> rfl
    | _ => simp [ConnectionPool.step, hl] at hpool
  | run t =>
    cases hanswered
    obtain ⟨⟨b', l'⟩, hthread, rfl⟩ := Option.map_eq_some_iff.mp hpool
    exact h.run rfl hthread
  | answer t op r =>
    rcases hl : s.pool.threads t with ⟨stage, pc⟩
    cases pc with
    | calling op' next =>
      simp only [ConnectionPool.step, hl, Option.dite_none_right_eq_some] at hpool
      obtain ⟨rfl, hsome⟩ := hpool
      cases hsome
      simp only [answered] at hanswered
      split at hanswered
      · rename_i r' db' hserver
        obtain ⟨rfl, hsome⟩ := Option.ite_none_right_eq_some.mp hanswered
        cases hsome
        simp only [seen, hl, dif_pos]
        exact h.answer hl hserver
      · cases hanswered
      · cases hanswered
    | _ => simp [ConnectionPool.step, hl] at hpool
  | notify t woken =>
    cases hanswered
    rcases hl : s.pool.threads t with ⟨stage, pc⟩
    cases pc with
    | notifyOne next =>
      simp only [seen, hl]
      exact h.notify hl hpool
    | _ => simp [ConnectionPool.step, hl] at hpool
  | spurious t | timeout t =>
    cases hanswered
    exact ⟨x, .refl x, h.wake hpool⟩

/-! ## Every run -/

/-- The two pools start alike. -/
theorem refines_init (table : List Row) (nextId : ℤ) (idle : List (Option ℕ)) :
    Refines (init table nextId idle : Deployment m) (Shared.State.start table nextId idle) where
  db := rfl
  rest _ := rfl
  foreign _ := trivial

/-- **The repository is linearizable on its connection pool.** For every initial table, every pool
that the constructor makes and every behaviour of the database, in every run of the operations by
any number of threads, with the steps of `borrow` and `return_connection` in any order, whatever
waits end by themselves and whichever borrows time out: the calls and returns are those of the table
of keys, which is left as the database has it. -/
theorem history_linearizable {poolSize : ℤ} {created : ℕ → Bool} {idle : List (Option ℕ)}
    {table : List Row} {nextId : ℤ} {as : List (Action m)} {s : Deployment m}
    (hpool : construct poolSize created = .ok idle)
    (hrun : Transition.run (step be) (init table nextId idle) as = some s) :
    AtomicObject.Linearizable (Shared.keyTable be) ⟨table, nextId⟩
      (history (step be) seen (init table nextId idle) as) s.db.store := by
  obtain ⟨-, rfl⟩ := ConnectionPool.construct_eq_ok_iff.mp hpool
  have hidle := (ConnectionPool.nodup_connections poolSize created).map (Option.some_injective ℕ)
  obtain ⟨x, ⟨bs, hbs, hseen⟩, hrefines⟩ :=
    shows_of_refinement refines_step (refines_init table nextId _) hrun
  have hlinearizable := Shared.linearizable_of_nodup hidle hbs
  rwa [hseen, hrefines.db] at hlinearizable

/-- While a client creates a key on the only connection, another one looks it up. The first lookup
times out, the second one is woken when the connection is returned, and finds the key. -/
def lookupWoken : List (Action 2) :=
  let key := Repository.generateApiKey KeyStore.zeros 0
  let lookup : List (Action 2) := .call 1 (.findApiKey key) :: List.replicate 3 (.run 1)
  let borrow : List (Action 2) :=
    .call 0 (.createApiKey KeyStore.zeros (utf8 "ci") 60) :: List.replicate 4 (.run 0)
  let timeout : List (Action 2) := .timeout 1 :: List.replicate 3 (.run 1)
  let creation : List (Action 2) :=
    [.answer 0 .randomDevice 0, .answer 0 (.realEscapeString (some 0) (utf8 "ci")) (utf8 "ci"),
      .answer 0 (.realEscapeString (some 0) key) key,
      .answer 0 (.query (some 0) (.insert key (utf8 "ci") 60)) true,
      .answer 0 (.insertId (some 0)) 1]
  let wakeup : List (Action 2) := .notify 0 (some 1) :: List.replicate 4 (.run 1)
  let selection : List (Action 2) :=
    [.answer 1 (.realEscapeString (some 0) key) key,
      .answer 1 (.query (some 0) (.selectKey key)) true,
      .answer 1 (.storeResult (some 0)) (some [⟨1, key, utf8 "ci", 60, 1⟩])]
  let last : List (Action 2) := [.notify 1 none]
  borrow ++ lookup ++ timeout ++ lookup ++ creation ++ List.replicate 3 (.run 0) ++ wakeup
    ++ selection ++ List.replicate 3 (.run 1) ++ last

set_option maxRecDepth 2000 in
/-- The theorem at a run in which a waiting lookup is woken by a return. -/
theorem history_linearizable_lookupWoken :
    let key := Repository.generateApiKey KeyStore.zeros 0
    let events : List (Event (Fin 2) Operation Result) :=
      [.call 0 (.createApiKey KeyStore.zeros (utf8 "ci") 60), .call 1 (.findApiKey key),
        .ret 1 (.found { dbError := true }), .call 1 (.findApiKey key),
        .ret 0 (.created ⟨1, key, utf8 "ci", 60, true⟩),
        .ret 1 (.found { found := true, info := ⟨1, key, utf8 "ci", 60, true⟩ })]
    history (step KeyStore.bytewise) seen (init [] 1 [some 0]) lookupWoken = events ∧
      AtomicObject.Linearizable (Shared.keyTable KeyStore.bytewise) ⟨[], 1⟩ events
        ⟨[⟨1, key, utf8 "ci", 60, 1⟩], 2⟩ := by
  intro key events
  have hhistory : history (step KeyStore.bytewise) seen (init [] 1 [some 0]) lookupWoken
      = events := by with_unfolding_all rfl
  have hrun : (Transition.run (step KeyStore.bytewise) (init [] 1 [some 0]) lookupWoken).map
      (·.db.store) = some ⟨[⟨1, key, utf8 "ci", 60, 1⟩], 2⟩ := by decide +kernel
  obtain ⟨s, hs, hstore⟩ := Option.map_eq_some_iff.mp hrun
  have hpool : construct 1 (fun _ => true) = .ok [some 0] := rfl
  rw [← hstore, ← hhistory]
  exact ⟨rfl, history_linearizable hpool hs⟩

end Deployment

end AiSwitch
