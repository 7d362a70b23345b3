import AiSwitch.Common.Ledger
import AiSwitch.Common.Mutex
import AiSwitch.Common.Transition
import AiSwitch.Db.Operations
import Mathlib.Data.Fintype.Basic

/-!
# The connection pool, one step at a time

`borrow` and `return_connection` (`db/connection_pool.cpp`) under any number of threads that run
operations of the repository. The operations are the programs of `Repository`, taken one call at a
time; a call of the client library may answer anything, and a text that overflows its buffer is
answered like any other.

`cv_.wait_for` evaluates its predicate under the mutex, and where that fails releases the mutex and
starts waiting in one step; a wait ends by a notification, by itself or when the five seconds are
over, and then the predicate decides.
-/

namespace AiSwitch

open ByteString Effect Ledger Mutex Transition
open Mysql (Op)
open Operation (Result Stage callConnection lease)
open Repository (Repo)
open Script (Obeys)

namespace ConnectionPool

/-! ## The constructor -/

/-- The exception of the constructor. -/
def noConnection : Exn := .runtimeError (utf8 "无法连接到 MySQL, 请检查数据库配置")

/-- The connections that the constructor creates, named by their position in its loop. `created`
says which calls of `create_connection` succeed. -/
def connections (poolSize : ℤ) (created : ℕ → Bool) : List ℕ :=
  (List.range poolSize.toNat).filter created

/-- `connection_pool::connection_pool`: the queue of a new pool. -/
def construct (poolSize : ℤ) (created : ℕ → Bool) : Outcome Exn (List (Option ℕ)) :=
  if connections poolSize created = [] then .throw noConnection
  else .ok ((connections poolSize created).map some)

/-- The constructor succeeds exactly if it has made a connection. -/
theorem construct_eq_ok_iff {poolSize : ℤ} {created : ℕ → Bool} {idle : List (Option ℕ)} :
    construct poolSize created = .ok idle ↔
      connections poolSize created ≠ [] ∧ idle = (connections poolSize created).map some := by
  unfold construct
  split_ifs with h
  · simp [h]
  · simp [h, eq_comm]

/-- Connections have different names. -/
theorem nodup_connections (poolSize : ℤ) (created : ℕ → Bool) :
    (connections poolSize created).Nodup := List.nodup_range.filter _

/-! ## States -/

/-- Where a thread stands. `next` is what is left of its operation. -/
inductive Pc where
  | outside
  /-- The lock of `borrow`, or of a wait that has ended. -/
  | lock (expired : Bool) (next : Option ℕ → Repo Result)
  /-- The predicate of `cv_.wait_for`. -/
  | check (expired : Bool) (next : Option ℕ → Repo Result)
  /-- The predicate was false. -/
  | sleep (next : Option ℕ → Repo Result)
  | waiting (next : Option ℕ → Repo Result)
  /-- `conn = idle_connections_.front(); idle_connections_.pop()` -/
  | pop (next : Option ℕ → Repo Result)
  | unlockBorrow (conn : Option ℕ) (next : Option ℕ → Repo Result)
  /-- The unlock of a `borrow` that returns `nullptr`. -/
  | unlockTimeout (next : Option ℕ → Repo Result)
  /-- Inside a call that is not one of the pool's. -/
  | calling (op : Op) (next : op.Res → Repo Result)
  | returnLock (conn : Option ℕ) (next : Unit → Repo Result)
  /-- `idle_connections_.push(conn)` -/
  | push (conn : Option ℕ) (next : Unit → Repo Result)
  | returnUnlock (next : Unit → Repo Result)
  | notifyOne (next : Unit → Repo Result)

/-- A thread: where it stands, and what its operation has done about its connection so far. -/
structure Local where
  stage : Stage := .start
  pc : Pc := .outside

variable {m : ℕ}

/-- The fields of the pool. -/
structure Shared (m : ℕ) where
  idle : List (Option ℕ)
  mutex : Option (Fin m) := none

/-- A pool in use by `m` threads. -/
structure State (m : ℕ) where
  shared : Shared m
  threads : Fin m → Local

/-- A pool with this queue, used by nobody. -/
def init (idle : List (Option ℕ)) : State m where
  shared := { idle := idle }
  threads _ := {}

/-! ## Steps -/

/-- An operation goes on to its next call, or returns. -/
def enter : Repo Result → Pc
  | .ret _ => .outside
  | .call .borrow next => .lock false next
  | .call (.returnConnection conn) next => .returnLock conn next
  | .call op next => .calling op next

/-- The next step of thread `t`, `none` where it has none or waits for the mutex. -/
def threadStep (b : Shared m) (t : Fin m) (stage : Stage) : Pc → Option (Shared m × Local)
  | .outside => none
  | .lock expired next =>
    if b.mutex = none then some ({ b with mutex := some t }, ⟨stage, .check expired next⟩) else none
  | .check expired next =>
    some (b, ⟨stage,
      if b.idle ≠ [] then .pop next else if expired then .unlockTimeout next else .sleep next⟩)
  | .sleep next => some ({ b with mutex := none }, ⟨stage, .waiting next⟩)
  | .waiting _ => none
  | .pop next =>
    match b.idle with
    | [] => none
    | conn :: idle => some ({ b with idle := idle }, ⟨.holding conn, .unlockBorrow conn next⟩)
  | .unlockBorrow conn next => some ({ b with mutex := none }, ⟨stage, enter (next conn)⟩)
  | .unlockTimeout next => some ({ b with mutex := none }, ⟨.holding none, enter (next none)⟩)
  | .calling _ _ => none
  | .returnLock conn next =>
    if b.mutex = none then some ({ b with mutex := some t }, ⟨stage, .push conn next⟩) else none
  | .push conn next => some ({ b with idle := b.idle ++ [conn] }, ⟨.returned, .returnUnlock next⟩)
  | .returnUnlock next => some ({ b with mutex := none }, ⟨stage, .notifyOne next⟩)
  | .notifyOne _ => none

/-- What can happen next: a thread calls an operation, takes its next step, gets the answer of a
call outside the pool, or notifies (with the waiting thread it wakes, none where nobody waits); a
wait ends by itself, or its time is over. -/
inductive Action (m : ℕ) where
  | call (t : Fin m) (op : Operation)
  | run (t : Fin m)
  | answer (t : Fin m) (op : Op) (r : op.Res)
  | notify (t : Fin m) (woken : Option (Fin m))
  | spurious (t : Fin m)
  | timeout (t : Fin m)

/-- The thread is in the waiting part of `cv_.wait_for`. -/
def Pc.isWaiting : Pc → Bool
  | .waiting _ => true
  | _ => false

/-- A waiting thread is woken, or has waited long enough. -/
def wake (s : State m) (t : Fin m) (expired : Bool) : Option (State m) :=
  match (s.threads t).pc with
  | .waiting next => some
      { s with threads := Function.update s.threads t ⟨(s.threads t).stage, .lock expired next⟩ }
  | _ => none

/-- One action. -/
def step (s : State m) : Action m → Option (State m)
  | .call t op =>
    match (s.threads t).pc with
    | .outside => some
        { s with threads := Function.update s.threads t ⟨.start, enter op.program⟩ }
    | _ => none
  | .run t =>
    (threadStep s.shared t (s.threads t).stage (s.threads t).pc).map fun r =>
      { shared := r.1, threads := Function.update s.threads t r.2 }
  | .answer t op r =>
    match (s.threads t).pc with
    | .calling op' next =>
      if h : op = op' then some
        { s with
          threads := Function.update s.threads t ⟨(s.threads t).stage, enter (next (h ▸ r))⟩ }
      else none
    | _ => none
  | .notify t woken =>
    match (s.threads t).pc with
    | .notifyOne next =>
      let s' : State m :=
        { s with threads := Function.update s.threads t ⟨(s.threads t).stage, enter (next ())⟩ }
      match woken with
      | some u => wake s' u false
      | none => if ∀ u, (s.threads u).pc.isWaiting = false then some s' else none
    | _ => none
  | .spurious t => wake s t false
  | .timeout t => wake s t true

/-! ## A lone caller

A thread that is not disturbed does what the sequential server does.
-/

section Lone

variable {s : State m} {t : Fin m} {stage : Stage} {be : Mysql.Backend} {db db' : Mysql.Db}

/-- A thread alone takes the steps of `borrow` as the sequential one does, timing out on an empty
queue. -/
theorem exists_run_borrow {next : Option ℕ → Repo Result} (hfree : s.shared.mutex = none)
    (hl : s.threads t = ⟨stage, .lock false next⟩) (hidle : s.shared.idle = db.idle)
    {conn : Option ℕ} (hborrow : Mysql.borrow db = (.ok conn, db')) :
    ∃ as, run step s as = some
      { shared := { idle := db'.idle, mutex := none }
        threads := Function.update s.threads t ⟨.holding conn, enter (next conn)⟩ } := by
  cases hborrow
  cases hqueue : db.idle with
  | nil =>
    refine ⟨List.replicate 3 (.run t) ++ .timeout t :: List.replicate 3 (.run t), ?_⟩
    simp [run, step, wake, threadStep, List.replicate, hfree, hl, hidle, hqueue,
      Mysql.Db.connection]
  | cons conn idle =>
    refine ⟨List.replicate 4 (.run t), ?_⟩
    simp [run, step, threadStep, List.replicate, hfree, hl, hidle, hqueue, Mysql.Db.connection]

/-- A thread alone takes the steps of `return_connection` where nobody waits. -/
theorem exists_run_returnConnection {conn : Option ℕ} {next : Unit → Repo Result}
    (hfree : s.shared.mutex = none) (hl : s.threads t = ⟨stage, .returnLock conn next⟩)
    (hnobody : ∀ u, (s.threads u).pc.isWaiting = false) (hidle : s.shared.idle = db.idle)
    (hreturn : Mysql.returnConnection conn db = (.ok (), db')) :
    ∃ as, run step s as = some
      { shared := { idle := db'.idle, mutex := none }
        threads := Function.update s.threads t ⟨.returned, enter (next ())⟩ } := by
  cases hreturn
  refine ⟨List.replicate 3 (.run t) ++ [.notify t none], ?_⟩
  have hquiet : ∀ u, (Function.update s.threads t
      (⟨.returned, .notifyOne next⟩ : Local) u).pc.isWaiting = false :=
    (Function.forall_update_iff s.threads fun _ l => l.pc.isWaiting = false).mpr
      ⟨rfl, fun u _ => hnobody u⟩
  simp [run, step, threadStep, List.replicate, hfree, hl, hidle, hquiet]

end Lone

/-! ## What a thread owes the pool -/

/-- The thread holds the mutex. -/
def Pc.Critical : Pc → Prop
  | .check .. | .sleep _ | .pop _ | .unlockBorrow .. | .unlockTimeout _ | .push .. |
    .returnUnlock _ => True
  | _ => False

/-- What is left of the operation keeps the protocol, where `borrow` does not time out. -/
def Pc.Ok (stage : Stage) : Pc → Prop
  | .outside => stage.connection = none
  | .lock _ next | .check _ next | .sleep next | .waiting next | .pop next =>
    Obeys (lease (· ≠ none)) stage (.call .borrow next)
  | .unlockBorrow conn next => Obeys (lease (· ≠ none)) stage (next conn)
  | .unlockTimeout _ => False
  | .calling op next =>
    (lease (· ≠ none)).allowed stage op ∧ ∀ r, Obeys (lease (· ≠ none)) stage (next r)
  | .returnLock conn next | .push conn next =>
    Obeys (lease (· ≠ none)) stage (.call (.returnConnection conn) next)
  | .returnUnlock next | .notifyOne next => Obeys (lease (· ≠ none)) stage (next ())

/-- A thread that takes a connection out of the queue has seen that there is one. -/
def Checked (b : Shared m) : Pc → Prop
  | .pop _ => b.idle ≠ []
  | _ => True

namespace Local

/-- The connection that the thread holds. -/
def held (l : Local) : Option ℕ := l.stage.connection

/-- The connection that the thread holds, as a part of the pool. -/
def share (l : Local) : Multiset (Option ℕ) := l.held.toList.map some

/-- A thread that holds no connection has no share of them. -/
theorem share_eq_zero {l : Local} (h : l.held = none) : l.share = 0 := by
  rw [share, h]
  rfl

/-- The share of a thread is the connection that it holds. -/
theorem mem_share {l : Local} {c : ℕ} : some c ∈ l.share ↔ l.held = some c := by
  cases hheld : l.held <;> simp [share, hheld, eq_comm]

/-- The thread is where the protocol lets it be. -/
def Ok (l : Local) : Prop := l.pc.Ok l.stage

def Critical (l : Local) : Prop := l.pc.Critical

end Local

/-- What is left of an operation keeps to its rules. -/
theorem ok_enter {stage : Stage} {x : Repo Result} (hx : Obeys (lease (· ≠ none)) stage x) :
    (enter x).Ok stage := by
  cases x with
  | ret r => exact hx
  | call op next =>
    cases op with
    | borrow | returnConnection => exact hx
    | _ => exact ⟨hx.1, fun r => hx.2 r trivial⟩

/-- Before a call no thread is in the critical section. -/
theorem not_critical_enter (x : Repo Result) : ¬ (enter x).Critical := by
  cases x with
  | ret r => exact id
  | call op next => cases op <;> exact id

/-- Before a call a thread relies on nothing about the queue. -/
theorem checked_enter (b : Shared m) (x : Repo Result) : Checked b (enter x) := by
  cases x with
  | ret r => trivial
  | call op next => cases op <;> trivial

/-- What a thread has found out about the queue depends on the queue alone. -/
theorem checked_congr {b b' : Shared m} {pc : Pc} (hidle : b'.idle = b.idle) (h : Checked b pc) :
    Checked b' pc := by
  cases pc with
  | pop => exact fun hnil => h (hidle ▸ hnil)
  | _ => trivial

/-- Outside the critical section nothing is relied on. -/
theorem checked_of_not_critical {b : Shared m} {pc : Pc} (hpc : ¬ pc.Critical) : Checked b pc := by
  cases pc with
  | pop => exact absurd trivial hpc
  | _ => trivial

/-- All that matters of a step that takes thread `t` from `l` to `l'`. -/
structure Advance (t : Fin m) (b : Shared m) (l : Local) (b' : Shared m) (l' : Local) : Prop where
  mutex : Move t l.Critical l'.Critical b.mutex b'.mutex
  /-- What leaves the queue is held, and what is given up returns to it. -/
  books : (b.idle : Multiset (Option ℕ)) + l.share = b'.idle + l'.share
  ok : l'.Ok
  checked : Checked b' l'.pc
  idle : ¬ l.Critical → b'.idle = b.idle

variable {s s' : State m} {t : Fin m} {b b' : Shared m} {l l' : Local} {stage : Stage} {pc pc' : Pc}

/-- A step that at most locks or unlocks advances its thread. -/
theorem Advance.of_mutex {owner : Option (Fin m)}
    (hmutex : Move t pc.Critical pc'.Critical b.mutex owner) (hok : pc'.Ok stage)
    (hchecked : Checked b pc') :
    Advance t b ⟨stage, pc⟩ { b with mutex := owner } ⟨stage, pc'⟩ where
  mutex := hmutex
  books := rfl
  ok := hok
  checked := by cases pc' <;> exact hchecked
  idle _ := rfl

/-- A thread that unlocks and goes on with its operation advances. -/
theorem advance_unlock {x : Repo Result} (hcrit : pc.Critical)
    (hx : Obeys (lease (· ≠ none)) stage x) :
    Advance t b ⟨stage, pc⟩ { b with mutex := none } ⟨stage, enter x⟩ :=
  .of_mutex (.unlock hcrit (not_critical_enter x)) (ok_enter hx) (checked_enter b x)

/-- A thread that goes on with its operation outside the mutex advances. -/
theorem advance_enter {x : Repo Result} (hcrit : ¬ pc.Critical)
    (hx : Obeys (lease (· ≠ none)) stage x) : Advance t b ⟨stage, pc⟩ b ⟨stage, enter x⟩ :=
  .of_mutex (.stay (iff_of_false (not_critical_enter x) hcrit)) (ok_enter hx) (checked_enter b x)

/-- A thread that calls an operation advances. -/
theorem advance_call (op : Operation) (hok : Pc.outside.Ok stage) :
    Advance t b ⟨stage, .outside⟩ b ⟨.start, enter op.program⟩ where
  mutex := .stay (iff_of_false (not_critical_enter _) id)
  books := by rw [Local.share_eq_zero (l := ⟨stage, .outside⟩) hok, Local.share_eq_zero rfl]
  ok := ok_enter (Operation.obeys_lease op fun _ => id)
  checked := checked_enter b _
  idle _ := rfl

/-- `borrow` takes the connection at the front of the queue. -/
theorem advance_pop {next : Option ℕ → Repo Result} {c : ℕ} {idle : List (Option ℕ)}
    (hok : (Pc.pop next).Ok stage) (hidle : b.idle = some c :: idle) :
    Advance t b ⟨stage, .pop next⟩ { b with idle := idle }
      ⟨.holding (some c), .unlockBorrow (some c) next⟩ where
  mutex := .stay Iff.rfl
  books := by
    have hstart : stage = .start := hok.1
    simp only [hidle, hstart, Local.share, Local.held, Stage.connection, Option.toList_none,
      Option.toList_some, List.map_nil, List.map_cons, Multiset.coe_nil, add_zero,
      Multiset.coe_singleton]
    rw [← Multiset.cons_coe, ← Multiset.singleton_add, add_comm]
  ok := hok.2 (some c) nofun
  checked := trivial
  idle h := absurd trivial h

/-- A thread that puts its connection back into the queue advances. -/
theorem advance_push {next : Unit → Repo Result} {conn : Option ℕ}
    (hok : (Pc.push conn next).Ok stage) :
    Advance t b ⟨stage, .push conn next⟩ { b with idle := b.idle ++ [conn] }
      ⟨.returned, .returnUnlock next⟩ where
  mutex := .stay Iff.rfl
  books := by
    obtain ⟨c, rfl, hconn⟩ := hok.1
    cases hconn
    simp [Local.share, Local.held, Stage.connection, ← Multiset.coe_add]
  ok := hok.2 () trivial
  checked := trivial
  idle h := absurd trivial h

/-- The thread looks into the queue for the last time. -/
def Pc.isExpired : Pc → Bool
  | .check true _ => true
  | _ => false

/-- The step is not the one by which a `borrow` times out: a thread whose time is over does not find
the queue empty. -/
def NoTimeout (s : State m) : Action m → Prop
  | .run t => (s.threads t).pc.isExpired = true → s.shared.idle ≠ []
  | _ => True

instance (s : State m) (a : Action m) : Decidable (NoTimeout s a) :=
  match a with
  | .run _ => inferInstanceAs (Decidable (_ → _))
  | .call .. | .answer .. | .notify .. | .spurious _ | .timeout _ => isTrue trivial

/-- **What a step does**, where no `borrow` times out and no null pointer is in the queue. -/
theorem advance_threadStep (hok : pc.Ok stage) (hchecked : Checked b pc) (hnull : none ∉ b.idle)
    (htime : pc.isExpired = true → b.idle ≠ [])
    (hstep : threadStep b t stage pc = some (b', l')) : Advance t b ⟨stage, pc⟩ b' l' := by
  cases pc with
  | outside | waiting | calling | notifyOne => cases hstep
  | lock expired next =>
    obtain ⟨hfree, hsome⟩ := Option.ite_none_right_eq_some.mp hstep
    cases hsome
    exact .of_mutex (hfree ▸ .lock trivial) hok trivial
  | returnLock conn next =>
    obtain ⟨hfree, hsome⟩ := Option.ite_none_right_eq_some.mp hstep
    cases hsome
    exact .of_mutex (hfree ▸ .lock trivial) hok trivial
  | check expired next =>
    cases hstep
    split_ifs with hidle hexpired
    · exact .of_mutex (.stay Iff.rfl) hok hidle
    · subst hexpired
      exact absurd (htime rfl) hidle
    · exact .of_mutex (.stay Iff.rfl) hok trivial
  | sleep next =>
    cases hstep
    exact .of_mutex (.unlock trivial id) hok trivial
  | pop next =>
    obtain ⟨conn, idle, hidle⟩ := List.exists_cons_of_ne_nil hchecked
    simp only [threadStep, hidle, Option.some.injEq, Prod.mk.injEq] at hstep
    obtain ⟨rfl, rfl⟩ := hstep
    obtain ⟨c, rfl⟩ : ∃ c, conn = some c := by
      apply Option.ne_none_iff_exists'.mp
      rintro rfl
      exact hnull (hidle ▸ List.mem_cons_self)
    exact advance_pop hok hidle
  | unlockBorrow conn next =>
    cases hstep
    exact advance_unlock trivial hok
  | unlockTimeout next => exact hok.elim
  | push conn next =>
    cases hstep
    exact advance_push hok
  | returnUnlock next =>
    cases hstep
    exact .of_mutex (.unlock trivial id) hok trivial

/-! ## The invariant -/

/-- Every connection is in the queue or held by a thread, and every thread keeps the protocol. -/
structure Inv (conns : List ℕ) (s : State m) : Prop where
  mutex : Exact (fun t => (s.threads t).Critical) s.shared.mutex
  books : Reconciled ((conns.map some : List (Option ℕ)) : Multiset (Option ℕ)) s.shared.idle
    Local.share s.threads
  ok : ∀ t, (s.threads t).Ok
  checked : ∀ t, Checked s.shared (s.threads t).pc

variable {conns : List ℕ}

/-- The queue holds connections only. -/
theorem Inv.mem_of_mem_idle (hs : Inv conns s) {conn : Option ℕ} (h : conn ∈ s.shared.idle) :
    ∃ c ∈ conns, conn = some c := by
  have hmem : conn ∈ ((conns.map some : List (Option ℕ)) : Multiset (Option ℕ)) := by
    rw [hs.books]
    exact Multiset.mem_add.mpr (.inl h)
  obtain ⟨c, hc, rfl⟩ := List.mem_map.mp (Multiset.mem_coe.mp hmem)
  exact ⟨c, hc, rfl⟩

/-- There is no null pointer in the queue. -/
theorem Inv.null_notMem_idle (hs : Inv conns s) : none ∉ s.shared.idle := by
  intro h
  obtain ⟨c, -, hc⟩ := hs.mem_of_mem_idle h
  cases hc

/-- **A step of one thread keeps the invariant.** -/
theorem Inv.advance (hs : Inv conns s) (hl : s.threads t = l) (h : Advance t s.shared l b' l') :
    Inv conns { shared := b', threads := Function.update s.threads t l' } where
  mutex := hs.mutex.move (hl ▸ h.mutex)
  books := hs.books.update (by rw [hl, add_assoc, h.books, add_assoc])
  ok := (Function.forall_update_iff s.threads fun _ l => l.Ok).mpr ⟨h.ok, fun u _ => hs.ok u⟩
  checked := by
    refine (Function.forall_update_iff s.threads fun _ l => Checked b' l.pc).mpr
      ⟨h.checked, fun u hu => ?_⟩
    by_cases hcrit : (s.threads u).Critical
    · -- then `t` does not hold the mutex and leaves the queue alone
      have hfree : ¬ l.Critical := hl ▸ hs.mutex.guards.not_inside hcrit hu.symm
      exact checked_congr (h.idle hfree) (hs.checked u)
    · exact checked_of_not_critical hcrit

/-- The end of a wait keeps the invariant. -/
theorem inv_wake (hs : Inv conns s) {expired : Bool} (hstep : wake s t expired = some s') :
    Inv conns s' := by
  rcases hl : s.threads t with ⟨stage, pc⟩
  have hok : Local.Ok ⟨stage, pc⟩ := hl ▸ hs.ok t
  cases pc with
  | waiting next =>
    simp only [wake, hl, Option.some.injEq] at hstep
    subst hstep
    exact hs.advance hl (.of_mutex (.stay Iff.rfl) hok trivial)
  | _ => simp [wake, hl] at hstep

/-- **One action keeps the invariant**, where no `borrow` times out. -/
theorem inv_step (s : State m) (a : Action m) (s' : State m) (hs : Inv conns s)
    (htime : NoTimeout s a) (hstep : step s a = some s') : Inv conns s' := by
  cases a with
  | call t op =>
    rcases hl : s.threads t with ⟨stage, pc⟩
    have hok : Local.Ok ⟨stage, pc⟩ := hl ▸ hs.ok t
    cases pc with
    | outside =>
      simp only [step, hl, Option.some.injEq] at hstep
      subst hstep
      exact hs.advance hl (advance_call op hok)
    | _ => simp [step, hl] at hstep
  | run t =>
    simp only [step, Option.map_eq_some_iff] at hstep
    obtain ⟨⟨b, l⟩, hthread, rfl⟩ := hstep
    exact hs.advance rfl
      (advance_threadStep (hs.ok t) (hs.checked t) hs.null_notMem_idle htime hthread)
  | answer t op r =>
    rcases hl : s.threads t with ⟨stage, pc⟩
    have hok : Local.Ok ⟨stage, pc⟩ := hl ▸ hs.ok t
    cases pc with
    | calling op' next =>
      simp only [step, hl, Option.dite_none_right_eq_some] at hstep
      obtain ⟨rfl, hsome⟩ := hstep
      cases hsome
      exact hs.advance hl (advance_enter id (hok.2 r))
    | _ => simp [step, hl] at hstep
  | notify t woken =>
    rcases hl : s.threads t with ⟨stage, pc⟩
    have hok : Local.Ok ⟨stage, pc⟩ := hl ▸ hs.ok t
    cases pc with
    | notifyOne next =>
      have hreturn := hs.advance hl (advance_enter id hok)
      simp only [step, hl] at hstep
      cases woken with
      | some u => exact inv_wake hreturn hstep
      | none =>
        obtain ⟨-, hsome⟩ := Option.ite_none_right_eq_some.mp hstep
        cases hsome
        exact hreturn
    | _ => simp [step, hl] at hstep
  | spurious t => exact inv_wake hs hstep
  | timeout t => exact inv_wake hs hstep

/-- A new pool meets the invariant. -/
theorem inv_init (conns : List ℕ) : Inv conns (init (m := m) (conns.map some)) where
  mutex _ := iff_of_false id nofun
  books := by
    rw [Reconciled, underWay_eq_zero fun t => ?_, add_zero]
    · rfl
    · exact Local.share_eq_zero rfl
  ok _ := rfl
  checked _ := trivial

/-- No thread is running an operation. -/
def Quiescent (s : State m) : Prop := ∀ t, (s.threads t).pc = .outside

/-- The thread is running no operation. -/
def Pc.isOutside : Pc → Bool
  | .outside => true
  | _ => false

instance (s : State m) : Decidable (Quiescent s) :=
  decidable_of_iff (∀ t, (s.threads t).pc.isOutside = true) <| forall_congr' fun t => by
    cases (s.threads t).pc <;> simp [Pc.isOutside]

/-- A thread that holds a connection is running an operation. -/
theorem Inv.pc_ne_outside (hs : Inv conns s) {c : ℕ} (h : (s.threads t).held = some c) :
    (s.threads t).pc ≠ .outside := by
  intro hpc
  have hok := hs.ok t
  rw [Local.Ok, hpc] at hok
  rw [Local.held, hok] at h
  cases h

/-- As elements of the queue the connections are different. -/
theorem nodup_map_connections (poolSize : ℤ) (created : ℕ → Bool) :
    (((connections poolSize created).map some : List (Option ℕ)) :
      Multiset (Option ℕ)).Nodup := by
  rw [Multiset.coe_nodup]
  exact (nodup_connections poolSize created).map (Option.some_injective ℕ)

/-- **No connection is leaked or shared.** For every pool that the constructor makes, any number of
threads that run operations of the repository, every answer of the client library and every
interleaving in which no `borrow` times out, in every state reached: each connection is once in the
queue and no thread holds it, or it is not in the queue and exactly one thread holds it; a thread
that holds one is running an operation, and calls the client library on no other; and when no
operation is running, the queue is a permutation of the connections. A text that overflows its
buffer ends no run here. -/
theorem each_connection_once {poolSize : ℤ} {created : ℕ → Bool} {idle : List (Option ℕ)}
    (hpool : construct poolSize created = .ok idle) {as : List (Action m)} {s : State m}
    (htime : Respects step NoTimeout (init idle) as) (hrun : run step (init idle) as = some s) :
    (∀ c ∈ connections poolSize created,
      (Multiset.count (some c) s.shared.idle = 1 ∧ ∀ t, (s.threads t).held ≠ some c) ∨
        (some c ∉ s.shared.idle ∧ ∃! t, (s.threads t).held = some c)) ∧
      (∀ t, (s.threads t).held ≠ none → (s.threads t).pc ≠ .outside) ∧
      (∀ t op next conn, (s.threads t).pc = .calling op next → callConnection op = some conn →
        conn ≠ none ∧ (s.threads t).held = conn) ∧
      (Quiescent s → s.shared.idle.Perm ((connections poolSize created).map some)) := by
  obtain ⟨-, rfl⟩ := construct_eq_ok_iff.mp hpool
  have hs : Inv (connections poolSize created) s :=
    invariant_run inv_step (inv_init _) htime hrun
  refine ⟨fun c hc => ?_, fun t hheld => ?_, ?_, fun hquiet => ?_⟩
  · have hplace := hs.books.settled_or_unique (nodup_map_connections poolSize created)
      (Multiset.mem_coe.mpr (List.mem_map_of_mem hc))
    simpa only [Local.mem_share, Multiset.mem_coe] using hplace
  · obtain ⟨c, hc⟩ := Option.ne_none_iff_exists'.mp hheld
    exact hs.pc_ne_outside hc
  · intro t op next conn hpc hconn
    have hok := hs.ok t
    rw [Local.Ok, hpc] at hok
    obtain ⟨c, rfl, hstage⟩ := Operation.stage_of_allowed hok.1 hconn
    exact ⟨nofun, by rw [Local.held, hstage, Stage.connection]⟩
  · apply Multiset.coe_eq_coe.mp
    refine (hs.books.eq_settled fun t => Local.share_eq_zero ?_).symm
    by_contra hheld
    obtain ⟨c, hc⟩ := Option.ne_none_iff_exists'.mp hheld
    exact hs.pc_ne_outside hc (hquiet t)

/-- Two threads list the keys over one connection, and the second one has to wait. -/
def secondWaits (t u : Fin m) : List (Action m) :=
  let borrowed : List (Action m) := .call t .listApiKeys :: List.replicate 4 (.run t)
  let waiting : List (Action m) := .call u .listApiKeys :: List.replicate 3 (.run u)
  borrowed ++ waiting

/-- The query of the first thread fails, the second one is woken, and its query fails as well. -/
def bothFail (t u : Fin m) : List (Action m) :=
  let failed (v : Fin m) (woken : Option (Fin m)) : List (Action m) :=
    .answer v (.query (some 0) .selectAll) false ::
      (List.replicate 3 (Action.run v) ++ [Action.notify v woken])
  failed t (some u) ++ List.replicate 4 (Action.run u) ++ failed u none

/-- While one thread waits the other one holds the connection, and in the end it is in the queue. -/
theorem each_connection_once_two_threads :
    (∃ s : State 2, run step (init [some 0]) (secondWaits 0 1) = some s ∧
      some 0 ∉ s.shared.idle ∧ ∃! t, (s.threads t).held = some 0) ∧
    ∃ s : State 2, run step (init [some 0]) (secondWaits 0 1 ++ bothFail 0 1) = some s ∧
      s.shared.idle.Perm [some 0] := by
  constructor
  · obtain ⟨s, hs, hidle⟩ : ∃ s : State 2, run step (init [some 0]) (secondWaits 0 1) = some s ∧
        some 0 ∉ s.shared.idle := exists_of_any (by decide +kernel)
    refine ⟨s, hs, ?_⟩
    have hplace := (@each_connection_once 2 1 (fun _ => true) [some 0] (by decide)
      (secondWaits 0 1) s (by decide +kernel) hs).1 0 (by decide)
    refine hplace.resolve_left fun hcount => hidle ?_
    exact Multiset.count_pos.mp (by rw [hcount.1]; decide)
  · obtain ⟨s, hs, hquiet⟩ : ∃ s : State 2,
        run step (init [some 0]) (secondWaits 0 1 ++ bothFail 0 1) = some s ∧ Quiescent s :=
      exists_of_any (by decide +kernel)
    exact ⟨s, hs, (@each_connection_once 2 1 (fun _ => true) [some 0] (by decide)
      (secondWaits 0 1 ++ bothFail 0 1) s (by decide +kernel) hs).2.2.2 hquiet⟩

end ConnectionPool

end AiSwitch
