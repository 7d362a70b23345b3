import AiSwitch.Common.Exn
import AiSwitch.Common.Ledger
import AiSwitch.Common.Mutex
import AiSwitch.Common.Transition
import Mathlib.Data.Fintype.Sum

/-!
# The thread pool, one step at a time

`submit` (`util/thread_pool.h`), `worker_loop` and the destructor (`util/thread_pool.cpp`), with
every lock, unlock, check, queue operation and notification a step of its own. `n` workers and `m`
other threads interleave; any thread may submit, a worker from inside the task that it runs.

`cv_.wait` evaluates its predicate under the mutex, and where that fails releases the mutex and
starts waiting in one step; a notification reaches only threads that wait, and a wait may end
without one. The destructor sets `stop_` without the mutex.
-/

namespace AiSwitch

open ByteString Ledger Mutex Transition

namespace ThreadPool

/-! ## States -/

/-- A worker, or a thread that is not one. -/
abbrev Thread (n m : ℕ) := Fin n ⊕ Fin m

/-- Where a thread stands. `running` is the task that the thread is in, for a worker. -/
inductive Pc (α : Type) where
  /-- A worker at the lock of its loop, or woken and locking again. -/
  | lock
  /-- The predicate of `cv_.wait`. -/
  | check
  /-- The predicate was false. -/
  | sleep
  | waiting
  /-- `stop_ && tasks_.empty()` -/
  | exitCheck
  /-- `task = std::move(tasks_.front()); tasks_.pop()` -/
  | pop
  | unlockRun (task : α)
  /-- The unlock on the way out of `worker_loop`. -/
  | unlockReturn
  | returned
  /-- Not in the pool's code: in a task, or in none. -/
  | outside (running : Option α)
  | submitLock (running : Option α) (task : α)
  /-- `if (stop_)` -/
  | submitCheck (running : Option α) (task : α)
  | emplace (running : Option α) (task : α)
  | submitUnlock (running : Option α) (task : α)
  | notifyOne (running : Option α) (task : α)
  /-- The unlock while the exception of `submit` leaves it. -/
  | unlockThrow (running : Option α) (task : α)
deriving DecidableEq

/-- How far the destructor is. -/
inductive Destructor where
  | alive
  /-- `stop_` is set. -/
  | stopSet
  /-- All are notified and the first `i` workers joined. -/
  | joining (i : ℕ)
deriving DecidableEq

variable {n m : ℕ} {α : Type}

/-- The fields that the threads share. The last five record the history: the tasks of all calls of
`submit`, those enqueued, those popped, those that have been run, and how the calls ended. -/
structure Shared (n m : ℕ) (α : Type) where
  tasks : List α := []
  mutex : Option (Thread n m) := none
  stop : Bool := false
  called : List α := []
  accepted : List α := []
  popped : List α := []
  ran : List α := []
  returned : List α := []
  thrown : List (α × Exn) := []
deriving DecidableEq

/-- A pool in use. -/
structure State (n m : ℕ) (α : Type) where
  shared : Shared n m α
  destructor : Destructor
  pc : Thread n m → Pc α

/-- A pool constructed with `n` workers. -/
def init : State n m α where
  shared := {}
  destructor := .alive
  pc := Sum.elim (fun _ => .lock) fun _ => .outside none

/-! ## Steps -/

/-- What `submit` throws. -/
def stopped : Exn := .runtimeError (utf8 "线程池已停止")

/-- The next step of thread `t`, `none` where it has none or waits for the mutex. -/
def threadStep (b : Shared n m α) (t : Thread n m) : Pc α → Option (Shared n m α × Pc α)
  | .lock => if b.mutex = none then some ({ b with mutex := some t }, .check) else none
  | .check => some (b, if b.stop = true ∨ b.tasks ≠ [] then .exitCheck else .sleep)
  | .sleep => some ({ b with mutex := none }, .waiting)
  | .waiting => none
  | .exitCheck => some (b, if b.stop = true ∧ b.tasks = [] then .unlockReturn else .pop)
  | .pop =>
    match b.tasks with
    | [] => none
    | task :: tasks =>
      some ({ b with tasks := tasks, popped := b.popped ++ [task] }, .unlockRun task)
  | .unlockRun task => some ({ b with mutex := none }, .outside (some task))
  | .unlockReturn => some ({ b with mutex := none }, .returned)
  | .returned => none
  | .outside none => none
  | .outside (some task) => some ({ b with ran := b.ran ++ [task] }, .lock)
  | .submitLock running task =>
    if b.mutex = none then some ({ b with mutex := some t }, .submitCheck running task) else none
  | .submitCheck running task =>
    some (b, if b.stop = true then .unlockThrow running task else .emplace running task)
  | .emplace running task =>
    some ({ b with tasks := b.tasks ++ [task], accepted := b.accepted ++ [task] },
      .submitUnlock running task)
  | .submitUnlock running task => some ({ b with mutex := none }, .notifyOne running task)
  | .notifyOne .. => none
  | .unlockThrow running task =>
    some ({ b with mutex := none, thrown := b.thrown ++ [(task, stopped)] }, .outside running)

/-- What can happen next: a thread takes its next step, calls `submit`, or notifies (with the
waiting thread it wakes, none where nobody waits), a wait ends without a notification, or the
destructor goes on. -/
inductive Action (n m : ℕ) (α : Type) where
  | run (t : Thread n m)
  | call (t : Thread n m) (task : α)
  | notify (t : Thread n m) (woken : Option (Thread n m))
  | spurious (t : Thread n m)
  | destroy
deriving DecidableEq

/-- The thread is in the waiting part of `cv_.wait`. -/
def Pc.isWaiting : Pc α → Bool
  | .waiting => true
  | _ => false

/-- Every waiting thread is woken. -/
def wakeAll (pc : Thread n m → Pc α) : Thread n m → Pc α :=
  fun t => if (pc t).isWaiting then .lock else pc t

/-- A waiting thread is woken. -/
def wake (s : State n m α) (t : Thread n m) : Option (State n m α) :=
  if (s.pc t).isWaiting then some { s with pc := Function.update s.pc t .lock } else none

/-- One action. -/
def step (s : State n m α) : Action n m α → Option (State n m α)
  | .run t =>
    (threadStep s.shared t (s.pc t)).map fun r =>
      { s with shared := r.1, pc := Function.update s.pc t r.2 }
  | .call t task =>
    match s.pc t with
    | .outside running => some
        { s with
          shared := { s.shared with called := s.shared.called ++ [task] }
          pc := Function.update s.pc t (.submitLock running task) }
    | _ => none
  | .notify t woken =>
    match s.pc t with
    | .notifyOne running task =>
      let s' : State n m α :=
        { s with
          shared := { s.shared with returned := s.shared.returned ++ [task] }
          pc := Function.update s.pc t (.outside running) }
      match woken with
      | some u => wake s' u
      | none => if ∀ u, (s.pc u).isWaiting = false then some s' else none
    | _ => none
  | .spurious t => wake s t
  | .destroy =>
    match s.destructor with
    | .alive => some { s with shared := { s.shared with stop := true }, destructor := .stopSet }
    | .stopSet => some { s with pc := wakeAll s.pc, destructor := .joining 0 }
    | .joining i =>
      if h : i < n then
        match s.pc (.inl ⟨i, h⟩) with
        | .returned => some { s with destructor := .joining (i + 1) }
        | _ => none
      else none

/-! ## What a thread has under way -/

namespace Pc

/-- The thread holds the mutex. -/
def Critical : Pc α → Prop
  | .check | .sleep | .exitCheck | .pop | .unlockRun _ | .unlockReturn | .submitCheck ..
  | .emplace .. | .submitUnlock .. | .unlockThrow .. => True
  | _ => False

/-- The task that the thread has popped and not finished. -/
def running : Pc α → Option α
  | .unlockRun task => some task
  | .outside running | .submitLock running _ | .submitCheck running _ | .emplace running _
  | .submitUnlock running _ | .notifyOne running _ | .unlockThrow running _ => running
  | _ => none

/-- The task of the `submit` that the thread is in. -/
def submitting : Pc α → Option α
  | .submitLock _ task | .submitCheck _ task | .emplace _ task | .submitUnlock _ task
  | .notifyOne _ task | .unlockThrow _ task => some task
  | _ => none

/-- The task that this `submit` has enqueued. -/
def enqueued : Pc α → Option α
  | .submitUnlock _ task | .notifyOne _ task => some task
  | _ => none

/-- A position of `worker_loop`, or of a `submit` inside a task. -/
def OfWorker : Pc α → Prop
  | .outside running | .submitLock running _ | .submitCheck running _ | .emplace running _
  | .submitUnlock running _ | .notifyOne running _ | .unlockThrow running _ => running ≠ none
  | _ => True

/-- The worker leaves `worker_loop`. -/
def Leaving : Pc α → Prop
  | .unlockReturn | .returned => True
  | _ => False

/-- The thread is going to enqueue a task. -/
def Emplacing : Pc α → Prop
  | .emplace .. => True
  | _ => False

/-- The thread neither waits nor is about to. -/
def Awake : Pc α → Prop
  | .sleep | .waiting => False
  | _ => True

/-- The calls under way, the tasks enqueued by them, and the tasks being run. -/
def books (p : Pc α) : Multiset α × Multiset α × Multiset α :=
  (p.submitting.toList, p.enqueued.toList, p.running.toList)

end Pc

/-- What a thread has found out about the queue and is relying on. -/
def Checked (b : Shared n m α) : Pc α → Prop
  | .exitCheck => b.stop = true ∨ b.tasks ≠ []
  | .pop => b.tasks ≠ []
  | .unlockReturn => b.stop = true ∧ b.tasks = []
  | _ => True

/-- What `books` adds up to: calls, enqueued tasks and popped tasks. -/
def Shared.opened (b : Shared n m α) : Multiset α × Multiset α × Multiset α :=
  (b.called, b.accepted, b.popped)

/-- Of these the calls that have ended, those that have returned normally, and the tasks that have
been run. -/
def Shared.settled (b : Shared n m α) : Multiset α × Multiset α × Multiset α :=
  (b.returned + b.thrown.map Prod.fst, b.returned, b.ran)

/-- All that matters of a step that takes thread `t` from `p` to `p'`. -/
structure Advance (t : Thread n m) (b : Shared n m α) (p : Pc α) (b' : Shared n m α)
    (p' : Pc α) : Prop where
  mutex : Move t p.Critical p'.Critical b.mutex b'.mutex
  worker : p'.OfWorker ↔ p.OfWorker
  fifo : b.popped ++ b.tasks = b.accepted → b'.popped ++ b'.tasks = b'.accepted
  books : b'.opened + b.settled + p.books = b.opened + b'.settled + p'.books
  checked : Checked b p → Checked b' p'
  stop : b'.stop = b.stop
  /-- The queue changes only under the mutex, and grows only in `submit`. -/
  tasks : ¬ p.Critical → b'.tasks = b.tasks
  tasks_nil : ¬ p.Emplacing → b.tasks = [] → b'.tasks = []
  /-- Once `stop_` is set, a `submit` throws, -/
  emplacing : p'.Emplacing → b.stop = false
  /-- and the predicate of `cv_.wait` holds. -/
  awake : b.stop = true → p.Awake → p'.Awake
  leaving : p'.Leaving → p.Leaving ∨ p = .exitCheck ∧ b.stop = true ∧ b.tasks = []

variable {s s' : State n m α} {t : Thread n m} {b b' : Shared n m α} {p p' : Pc α}

/-- A step that at most locks or unlocks advances its thread. -/
theorem Advance.of_mutex {owner : Option (Thread n m)}
    (hmutex : Move t p.Critical p'.Critical b.mutex owner) (hworker : p'.OfWorker ↔ p.OfWorker)
    (hbooks : p'.books = p.books) (hchecked : Checked b p → Checked b p')
    (hemplacing : p'.Emplacing → b.stop = false)
    (hawake : b.stop = true → p.Awake → p'.Awake)
    (hleaving : p'.Leaving → p.Leaving ∨ p = .exitCheck ∧ b.stop = true ∧ b.tasks = []) :
    Advance t b p { b with mutex := owner } p' where
  mutex := hmutex
  worker := hworker
  fifo := id
  books := by rw [hbooks]; rfl
  checked h := by cases p' <;> exact hchecked h
  stop := rfl
  tasks _ := rfl
  tasks_nil _ := id
  emplacing := hemplacing
  awake := hawake
  leaving := hleaving

/-- A step that does not touch the queue advances its thread. -/
theorem Advance.of_queue_eq (hmutex : Move t p.Critical p'.Critical b.mutex b'.mutex)
    (hworker : p'.OfWorker ↔ p.OfWorker)
    (hbooks : b'.opened + b.settled + p.books = b.opened + b'.settled + p'.books)
    (htasks : b'.tasks = b.tasks) (hpopped : b'.popped = b.popped)
    (haccepted : b'.accepted = b.accepted) (hstop : b'.stop = b.stop) (hchecked : Checked b' p')
    (hemplacing : ¬ p'.Emplacing) (hawake : p'.Awake) (hleaving : ¬ p'.Leaving) :
    Advance t b p b' p' where
  mutex := hmutex
  worker := hworker
  fifo h := by rw [hpopped, htasks, haccepted, h]
  books := hbooks
  checked _ := hchecked
  stop := hstop
  tasks _ := htasks
  tasks_nil _ h := htasks.trans h
  emplacing h := absurd h hemplacing
  awake _ _ := hawake
  leaving h := absurd h hleaving

/-- A worker takes the task at the front of the queue. -/
theorem advance_pop {task : α} {tasks : List α} (htasks : b.tasks = task :: tasks) :
    Advance t b .pop { b with tasks := tasks, popped := b.popped ++ [task] } (.unlockRun task) where
  mutex := .stay Iff.rfl
  worker := Iff.rfl
  fifo h := by
    rw [← h, htasks, List.append_assoc]
    rfl
  books := by simp [Shared.opened, Shared.settled, Pc.books, Pc.submitting, Pc.enqueued,
    Pc.running, ← Multiset.coe_add, ← add_assoc, add_right_comm]
  checked _ := trivial
  stop := rfl
  tasks h := absurd trivial h
  tasks_nil _ h := by rw [h] at htasks; cases htasks
  emplacing h := h.elim
  awake _ _ := trivial
  leaving h := h.elim

/-- A thread whose task ends advances. -/
theorem advance_finish (task : α) :
    Advance t b (.outside (some task)) { b with ran := b.ran ++ [task] } .lock := by
  refine .of_queue_eq (.stay Iff.rfl) (iff_of_true trivial nofun) ?_ rfl rfl rfl rfl trivial id
    trivial id
  simp [Shared.opened, Shared.settled, Pc.books, Pc.submitting, Pc.enqueued, Pc.running,
    ← Multiset.coe_add, ← add_assoc]

/-- `submit` enqueues its task. It has found `stop_` unset, but that may have changed. -/
theorem advance_emplace (running : Option α) (task : α) :
    Advance t b (.emplace running task)
      { b with tasks := b.tasks ++ [task], accepted := b.accepted ++ [task] }
      (.submitUnlock running task) where
  mutex := .stay Iff.rfl
  worker := Iff.rfl
  fifo h := by rw [← h, List.append_assoc]
  books := by simp [Shared.opened, Shared.settled, Pc.books, Pc.submitting, Pc.enqueued,
    Pc.running, ← Multiset.coe_add, ← add_assoc, add_right_comm]
  checked _ := trivial
  stop := rfl
  tasks h := absurd trivial h
  tasks_nil h := absurd trivial h
  emplacing h := h.elim
  awake _ _ := trivial
  leaving h := h.elim

/-- A thread whose `submit` throws advances. -/
theorem advance_throw (running : Option α) (task : α) (e : Exn) :
    Advance t b (.unlockThrow running task)
      { b with mutex := none, thrown := b.thrown ++ [(task, e)] } (.outside running) := by
  refine .of_queue_eq (.unlock trivial id) Iff.rfl ?_ rfl rfl rfl rfl trivial id trivial id
  simp [Shared.opened, Shared.settled, Pc.books, Pc.submitting, Pc.enqueued, Pc.running,
    ← Multiset.coe_add, ← add_assoc]

/-- A thread that calls `submit` advances. -/
theorem advance_call (running : Option α) (task : α) :
    Advance t b (.outside running) { b with called := b.called ++ [task] }
      (.submitLock running task) := by
  refine .of_queue_eq (.stay Iff.rfl) Iff.rfl ?_ rfl rfl rfl rfl trivial id trivial id
  simp [Shared.opened, Shared.settled, Pc.books, Pc.submitting, Pc.enqueued, Pc.running,
    ← Multiset.coe_add, ← add_assoc, add_right_comm]

/-- A thread whose `submit` returns advances. -/
theorem advance_return (running : Option α) (task : α) :
    Advance t b (.notifyOne running task) { b with returned := b.returned ++ [task] }
      (.outside running) := by
  refine .of_queue_eq (.stay Iff.rfl) Iff.rfl ?_ rfl rfl rfl rfl trivial id trivial id
  simp [Shared.opened, Shared.settled, Pc.books, Pc.submitting, Pc.enqueued, Pc.running,
    ← Multiset.coe_add, ← add_assoc, add_right_comm]

/-- A waiting thread that is woken advances, and locks again. -/
theorem advance_wake : Advance t b .waiting b .lock :=
  .of_mutex (.stay Iff.rfl) Iff.rfl rfl id False.elim (fun _ _ => trivial) False.elim

/-- A worker at `pop` takes the task at the front of the queue. -/
theorem threadStep_pop (hstep : threadStep b t .pop = some (b', p')) :
    ∃ task tasks, b.tasks = task :: tasks ∧
      b' = { b with tasks := tasks, popped := b.popped ++ [task] } ∧ p' = .unlockRun task := by
  cases htasks : b.tasks with
  | nil => simp [threadStep, htasks] at hstep
  | cons task tasks =>
    simp only [threadStep, htasks, Option.some.injEq, Prod.mk.injEq] at hstep
    exact ⟨task, tasks, rfl, hstep.1.symm, hstep.2.symm⟩

/-- **What a step does.** -/
theorem advance_threadStep (hstep : threadStep b t p = some (b', p')) : Advance t b p b' p' := by
  cases p with
  | lock | submitLock running task =>
    obtain ⟨hfree, hsome⟩ := Option.ite_none_right_eq_some.mp hstep
    cases hsome
    exact .of_mutex (hfree ▸ .lock trivial) Iff.rfl rfl (fun _ => trivial) False.elim
      (fun _ _ => trivial) False.elim
  | check =>
    cases hstep
    split
    · rename_i htrue
      exact .of_mutex (.stay Iff.rfl) Iff.rfl rfl (fun _ => htrue) False.elim
        (fun _ _ => trivial) False.elim
    · rename_i hfalse
      exact .of_mutex (.stay Iff.rfl) Iff.rfl rfl (fun _ => trivial) False.elim
        (fun hstop => absurd (.inl hstop) hfalse) False.elim
  | sleep =>
    cases hstep
    exact .of_mutex (.unlock trivial id) Iff.rfl rfl (fun _ => trivial) False.elim
      (fun _ => False.elim) False.elim
  | exitCheck =>
    cases hstep
    split
    · rename_i hexit
      exact .of_mutex (.stay Iff.rfl) Iff.rfl rfl (fun _ => hexit) False.elim
        (fun _ _ => trivial) fun _ => .inr ⟨rfl, hexit⟩
    · rename_i hexit
      -- the predicate held, so that there is a task where the pool is not stopped and empty
      refine .of_mutex (.stay Iff.rfl) Iff.rfl rfl ?_ False.elim (fun _ _ => trivial) False.elim
      exact fun hpred hnil => hexit ⟨hpred.resolve_right (absurd hnil), hnil⟩
  | pop =>
    obtain ⟨task, tasks, htasks, rfl, rfl⟩ := threadStep_pop hstep
    exact advance_pop htasks
  | unlockRun task =>
    cases hstep
    exact .of_mutex (.unlock trivial id) (iff_of_true nofun trivial) rfl (fun _ => trivial)
      False.elim (fun _ _ => trivial) False.elim
  | unlockReturn =>
    cases hstep
    exact .of_mutex (.unlock trivial id) Iff.rfl rfl (fun _ => trivial) False.elim
      (fun _ _ => trivial) fun _ => .inl trivial
  | waiting | returned | notifyOne => cases hstep
  | outside running =>
    cases running with
    | none => cases hstep
    | some task =>
      cases hstep
      exact advance_finish task
  | submitCheck running task =>
    cases hstep
    split
    · exact .of_mutex (.stay Iff.rfl) Iff.rfl rfl (fun _ => trivial) False.elim
        (fun _ _ => trivial) False.elim
    · rename_i hstop
      exact .of_mutex (.stay Iff.rfl) Iff.rfl rfl (fun _ => trivial)
        (fun _ => Bool.eq_false_iff.mpr hstop) (fun _ _ => trivial) False.elim
  | emplace running task =>
    cases hstep
    exact advance_emplace running task
  | submitUnlock running task =>
    cases hstep
    exact .of_mutex (.unlock trivial id) Iff.rfl rfl (fun _ => trivial) False.elim
      (fun _ _ => trivial) False.elim
  | unlockThrow running task =>
    cases hstep
    exact advance_throw running task stopped

/-- The test of the waiting threads, as a proposition. -/
theorem isWaiting_iff : p.isWaiting = true ↔ p = .waiting := by
  cases p <;> simp [Pc.isWaiting]

/-- **The rule of the steps.** What every step of one thread preserves is preserved by every action
but those of the destructor. -/
theorem step_of_advance {P : State n m α → Prop}
    (hadvance : ∀ {s : State n m α} {t p b' p'}, P s → s.pc t = p → Advance t s.shared p b' p' →
      P { s with shared := b', pc := Function.update s.pc t p' })
    {a : Action n m α} (hs : P s) (hstep : step s a = some s') (ha : a ≠ .destroy) : P s' := by
  have hwake : ∀ {s s' : State n m α} {u}, P s → wake s u = some s' → P s' := by
    intro s s' u hs hstep
    obtain ⟨hwait, hsome⟩ := Option.ite_none_right_eq_some.mp hstep
    cases hsome
    exact hadvance hs (isWaiting_iff.mp hwait) advance_wake
  cases a with
  | run t =>
    simp only [step, Option.map_eq_some_iff] at hstep
    obtain ⟨⟨b, p⟩, hthread, rfl⟩ := hstep
    exact hadvance hs rfl (advance_threadStep hthread)
  | call t task =>
    cases hpc : s.pc t with
    | outside running =>
      simp only [step, hpc, Option.some.injEq] at hstep
      subst hstep
      exact hadvance hs hpc (advance_call running task)
    | _ => simp [step, hpc] at hstep
  | notify t woken =>
    cases hpc : s.pc t with
    | notifyOne running task =>
      have hreturn := hadvance hs hpc (advance_return running task)
      simp only [step, hpc] at hstep
      cases woken with
      | some u => exact hwake hreturn hstep
      | none =>
        obtain ⟨-, hsome⟩ := Option.ite_none_right_eq_some.mp hstep
        cases hsome
        exact hreturn
    | _ => simp [step, hpc] at hstep
  | spurious u => exact hwake hs hstep
  | destroy => exact absurd rfl ha

/-- The destructor sets `stop_`, notifies all, or joins a worker that has returned. -/
theorem destroy_cases (hstep : step s .destroy = some s') :
    (s.destructor = .alive ∧
      s' = { s with shared := { s.shared with stop := true }, destructor := .stopSet }) ∨
    (s.destructor = .stopSet ∧ s' = { s with pc := wakeAll s.pc, destructor := .joining 0 }) ∨
    ∃ i, ∃ h : i < n, s.destructor = .joining i ∧ s.pc (.inl ⟨i, h⟩) = .returned ∧
      s' = { s with destructor := .joining (i + 1) } := by
  cases hd : s.destructor with
  | alive =>
    simp only [step, hd, Option.some.injEq] at hstep
    exact .inl ⟨rfl, hstep.symm⟩
  | stopSet =>
    simp only [step, hd, Option.some.injEq] at hstep
    exact .inr (.inl ⟨rfl, hstep.symm⟩)
  | joining i =>
    simp only [step, hd] at hstep
    split at hstep
    · rename_i hi
      split at hstep
      · rename_i hreturned
        exact .inr (.inr ⟨i, hi, rfl, hreturned, (Option.some.inj hstep).symm⟩)
      · cases hstep
    · cases hstep

/-! ## The invariant -/

/-- Nothing is left in the queue, and nothing can be added any more. -/
structure Drained (s : State n m α) : Prop where
  stop : s.shared.stop = true
  tasks : s.shared.tasks = []
  emplacing : ∀ t, ¬ (s.pc t).Emplacing

/-- The queue is first in, first out, the books are reconciled, and a worker that leaves has seen
the last task go. -/
structure Inv (s : State n m α) : Prop where
  mutex : Exact (fun t => (s.pc t).Critical) s.shared.mutex
  worker : ∀ t, (s.pc t).OfWorker ↔ t.isLeft = true
  fifo : s.shared.popped ++ s.shared.tasks = s.shared.accepted
  books : Reconciled s.shared.opened s.shared.settled Pc.books s.pc
  checked : ∀ t, Checked s.shared (s.pc t)
  drained : ∀ t, (s.pc t).Leaving → Drained s

/-- A task is queued under the mutex. -/
theorem Pc.Emplacing.critical (h : p.Emplacing) : p.Critical := by
  cases p <;> first | exact trivial | exact h.elim

/-- Outside the critical section nothing is relied on. -/
theorem checked_of_not_critical (hp : ¬ p.Critical) : Checked b p := by
  cases p <;> first | exact trivial | exact absurd trivial hp

/-- A drained pool stays drained. -/
theorem Drained.advance (hs : Drained s) (hpc : s.pc t = p) (h : Advance t s.shared p b' p') :
    Drained { s with shared := b', pc := Function.update s.pc t p' } where
  stop := h.stop.trans hs.stop
  tasks := h.tasks_nil (hpc ▸ hs.emplacing t) hs.tasks
  emplacing := by
    refine (Function.forall_update_iff s.pc fun _ q => ¬ q.Emplacing).mpr
      ⟨fun hp' => ?_, fun u _ => hs.emplacing u⟩
    have hrunning := h.emplacing hp'
    rw [hs.stop] at hrunning
    cases hrunning

/-- The worker that finds the pool stopped and empty holds the mutex, so that no `submit` is past
its own check. -/
theorem Inv.drained_of_exitCheck (hs : Inv s) (hpc : s.pc t = .exitCheck)
    (hstop : s.shared.stop = true) (htasks : s.shared.tasks = []) : Drained s where
  stop := hstop
  tasks := htasks
  emplacing u hu := by
    by_cases hut : u = t
    · rw [hut, hpc] at hu
      exact hu
    · have hcrit : (s.pc t).Critical := hpc ▸ trivial
      exact hs.mutex.guards.not_inside hcrit hut hu.critical

/-- **A step of one thread keeps the invariant.** -/
theorem Inv.advance (hs : Inv s) (hpc : s.pc t = p) (h : Advance t s.shared p b' p') :
    Inv { s with shared := b', pc := Function.update s.pc t p' } where
  mutex := hs.mutex.move (hpc ▸ h.mutex)
  worker := (Function.forall_update_iff s.pc fun u q => q.OfWorker ↔ u.isLeft = true).mpr
    ⟨h.worker.trans (hpc ▸ hs.worker t), fun u _ => hs.worker u⟩
  fifo := h.fifo hs.fifo
  books := hs.books.update (hpc ▸ h.books)
  checked := by
    refine (Function.forall_update_iff s.pc fun _ q => Checked b' q).mpr
      ⟨h.checked (hpc ▸ hs.checked t), fun u hu => ?_⟩
    by_cases hcrit : (s.pc u).Critical
    · -- then `t` does not hold the mutex and leaves the queue alone
      have hfree : ¬ p.Critical := hpc ▸ hs.mutex.guards.not_inside hcrit hu.symm
      have hold := hs.checked u
      revert hold
      cases s.pc u <;> simp only [Checked, h.stop, h.tasks hfree] <;> exact id
    · exact checked_of_not_critical hcrit
  drained := by
    have hleave : p'.Leaving → Drained s := by
      intro hp'
      rcases h.leaving hp' with hp | ⟨rfl, hstop, htasks⟩
      · exact hs.drained t (hpc ▸ hp)
      · exact hs.drained_of_exitCheck hpc hstop htasks
    exact (Function.forall_update_iff s.pc fun _ q => q.Leaving → Drained _).mpr
      ⟨fun hp' => (hleave hp').advance hpc h, fun u _ hu => (hs.drained u hu).advance hpc h⟩

/-- Where `notify_all` leaves a thread, for a set of positions that does not tell waiting from
locking. -/
theorem wakeAll_congr {β : Type*} (f : Pc α → β) (hf : f .lock = f .waiting)
    (pc : Thread n m → Pc α) (t : Thread n m) : f (wakeAll pc t) = f (pc t) := by
  unfold wakeAll
  split
  · rename_i hwait
    rw [isWaiting_iff.mp hwait, hf]
  · rfl

/-- Waking all waiting threads keeps the invariant. -/
theorem inv_wakeAll (hs : Inv s) (d : Destructor) :
    Inv { s with pc := wakeAll s.pc, destructor := d } where
  mutex t := (iff_of_eq (wakeAll_congr Pc.Critical rfl s.pc t)).trans (hs.mutex t)
  worker t := by
    rw [wakeAll_congr Pc.OfWorker rfl]
    exact hs.worker t
  fifo := hs.fifo
  books := hs.books.congr (wakeAll_congr Pc.books rfl s.pc)
  checked t := by
    rw [wakeAll_congr (Checked s.shared) rfl]
    exact hs.checked t
  drained t ht := by
    rw [wakeAll_congr Pc.Leaving rfl] at ht
    have h := hs.drained t ht
    refine ⟨h.stop, h.tasks, fun u => ?_⟩
    rw [wakeAll_congr Pc.Emplacing rfl]
    exact h.emplacing u

/-- Setting `stop_` outside the mutex disturbs nobody. -/
theorem inv_stop (hs : Inv s) (d : Destructor) :
    Inv { s with shared := { s.shared with stop := true }, destructor := d } where
  mutex := hs.mutex
  worker := hs.worker
  fifo := hs.fifo
  books := hs.books
  checked t := by
    have h := hs.checked t
    revert h
    show _ → Checked _ (s.pc t)
    cases s.pc t with
    | exitCheck => exact fun _ => .inl rfl
    | unlockReturn => exact fun h => ⟨rfl, h.2⟩
    | _ => exact id
  drained t ht :=
    have h := hs.drained t ht
    ⟨rfl, h.tasks, h.emplacing⟩

/-- A step of the destructor's own keeps the invariant. -/
theorem inv_joining (hs : Inv s) (d : Destructor) : Inv { s with destructor := d } where
  mutex := hs.mutex
  worker := hs.worker
  fifo := hs.fifo
  books := hs.books
  checked := hs.checked
  drained t ht :=
    have h := hs.drained t ht
    ⟨h.stop, h.tasks, h.emplacing⟩

/-- **One action keeps the invariant.** -/
theorem inv_step (s : State n m α) (a : Action n m α) (s' : State n m α) (hs : Inv s)
    (hstep : step s a = some s') : Inv s' := by
  by_cases ha : a = .destroy
  · subst ha
    obtain ⟨-, rfl⟩ | ⟨-, rfl⟩ | ⟨i, -, -, -, rfl⟩ := destroy_cases hstep
    · exact inv_stop hs .stopSet
    · exact inv_wakeAll hs (.joining 0)
    · exact inv_joining hs (.joining (i + 1))
  · exact step_of_advance Inv.advance hs hstep ha

/-- The invariant holds at the start. -/
theorem inv_init : Inv (init : State n m α) where
  mutex t := by cases t <;> simp [init, Pc.Critical]
  worker t := by cases t <;> simp [init, Pc.OfWorker]
  fifo := rfl
  books := by
    rw [Reconciled, underWay_eq_zero fun t => ?_]
    · rfl
    · cases t <;> rfl
  checked t := by cases t <;> trivial
  drained t ht := by cases t <;> exact ht.elim

/-- The invariant holds in every state of every run. -/
theorem inv_run {as : List (Action n m α)} (hrun : run step init as = some s) : Inv s :=
  invariant_run (C := fun _ _ => True) (fun s a s' hs _ => inv_step s a s' hs) inv_init
    (respects_of_forall fun _ _ => trivial) hrun

/-- Every worker has returned from `worker_loop`. -/
def AllReturned (s : State n m α) : Prop := ∀ i, s.pc (.inl i) = .returned

/-- With all workers gone there is nobody left who runs a task. -/
theorem Inv.running_eq_none (hs : Inv s) (hall : AllReturned s) (t : Thread n m) :
    (s.pc t).running = none := by
  cases t with
  | inl i => simp [hall i, Pc.running]
  | inr j =>
    have hnot : ¬ (s.pc (.inr j)).OfWorker := by simp [hs.worker]
    revert hnot
    cases s.pc (.inr j) <;> simp [Pc.OfWorker, Pc.running]

/-- **Every accepted task is run, and run once.** For any number of workers and of other threads
and every interleaving of their steps, in every state reached: the tasks popped are those enqueued,
in the same order, but for those still in the queue; the tasks enqueued are those of the calls of
`submit` that have returned normally or are past their `emplace`, so that a call that throws
enqueues nothing; the tasks popped are those that have been run or are being run; and where there
are workers and all of them have returned, the queue is empty and all that was accepted has been
run. -/
theorem accepted_run_once {as : List (Action n m α)} {s : State n m α}
    (hrun : run step init as = some s) :
    s.shared.popped ++ s.shared.tasks = s.shared.accepted ∧
      (s.shared.called : Multiset α) = s.shared.returned + s.shared.thrown.map Prod.fst
        + ∑ t, ((s.pc t).submitting.toList : Multiset α) ∧
      (s.shared.accepted : Multiset α)
        = s.shared.returned + ∑ t, ((s.pc t).enqueued.toList : Multiset α) ∧
      (s.shared.popped : Multiset α)
        = s.shared.ran + ∑ t, ((s.pc t).running.toList : Multiset α) ∧
      (0 < n → AllReturned s →
        s.shared.tasks = [] ∧ s.shared.ran.Perm s.shared.accepted) := by
  have hs := inv_run hrun
  have hcalled := hs.books.map (.fst _ _)
  have haccepted := hs.books.map ((AddMonoidHom.fst _ _).comp (.snd _ _))
  have hpopped := hs.books.map ((AddMonoidHom.snd _ _).comp (.snd _ _))
  refine ⟨hs.fifo, hcalled, haccepted, hpopped, fun hn hall => ?_⟩
  have hdrained : Drained s := hs.drained (.inl ⟨0, hn⟩) (hall ⟨0, hn⟩ ▸ trivial)
  refine ⟨hdrained.tasks, Multiset.coe_eq_coe.mp ?_⟩
  calc (s.shared.ran : Multiset α)
      = s.shared.popped := by
        refine (hpopped.eq_settled fun t => ?_).symm
        show ((s.pc t).running.toList : Multiset α) = 0
        rw [hs.running_eq_none hall t]
        rfl
    _ = s.shared.accepted := by rw [← hs.fifo, hdrained.tasks, List.append_nil]

/-- One worker runs the task of one call, also after the destructor has set `stop_`. -/
theorem accepted_run_once_destroyed :
    ∃ s : State 1 1 ℕ, run step init ([Action.call (.inr 0) 7] ++
        List.replicate 4 (Action.run (.inr 0)) ++ [Action.destroy] ++
        List.replicate 10 (Action.run (.inl 0))) = some s ∧
      s.shared.tasks = [] ∧ s.shared.ran.Perm s.shared.accepted := by
  obtain ⟨s, hs, hreturned⟩ : ∃ s : State 1 1 ℕ, run step init ([Action.call (.inr 0) 7] ++
      List.replicate 4 (Action.run (.inr 0)) ++ [Action.destroy] ++
      List.replicate 10 (Action.run (.inl 0))) = some s ∧ ∀ i, s.pc (.inl i) = .returned :=
    exists_of_any (by decide +kernel)
  exact ⟨s, hs, (accepted_run_once hs).2.2.2.2 Nat.zero_lt_one hreturned⟩

end ThreadPool

end AiSwitch
