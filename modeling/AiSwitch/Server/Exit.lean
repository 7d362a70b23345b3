import AiSwitch.Server.StreamTask
import AiSwitch.Util.ThreadPool

/-!
# The order of destruction at exit

`main` constructs `ai_thread_pool` before the scope of `http_server`, which owns the `io_context`.
A signal stops the event loop, `run` returns once its threads have left the loop, and the server is
destroyed with its `io_context`; only when `main` returns does the destructor of the pool let the
tasks end. A task still queued or running at that point posts its callbacks to the executor of a
context that is gone.

`posted_before_destroy` shows that this is the only way, and `posted_after_destroy` that it happens.
-/

namespace AiSwitch

open ByteString Nlohmann ThreadPool Transition

/-- How far `main` is. -/
inductive MainPhase where
  /-- In `server.run()`. -/
  | serving
  /-- The signal handler has called `stop()`. -/
  | stopping
  /-- `run()` has joined the threads of the event loop. -/
  | returned
  /-- `http_server` and its `io_context` are destroyed. -/
  | destroyed
deriving DecidableEq

/-- A pool of `n` workers and an event loop on `m` threads. The pool holds for each task the
callbacks that it has still to post. -/
structure ExitState (n m : ℕ) where
  pool : ThreadPool.State n m (List PostedHandler)
  phase : MainPhase
  /-- The callbacks posted, each with the phase in which it was. -/
  posts : List (PostedHandler × MainPhase)

namespace ExitState

variable {n m : ℕ}

def init : ExitState n m where
  pool := ThreadPool.init
  phase := .serving
  posts := []

/-- What can happen next: a thread of the event loop submits the task of a streaming request, the
pool takes a step of its own, a running task posts its next callback, a signal arrives, `run()`
returns, or `http_server` is destroyed. -/
inductive Action (n m : ℕ) where
  | stream (j : Fin m) (ai : Adapter) (body : Json)
  | pool (a : ThreadPool.Action n m (List PostedHandler))
  | post (t : Thread n m)
  | signal
  | runReturns
  | destroyServer

/-- A task ends when it has posted all its callbacks, tasks are submitted only by `stream`, and the
pool is destroyed after the server. -/
def mayStep (s : ExitState n m) : ThreadPool.Action n m (List PostedHandler) → Bool
  | .run t =>
    match s.pool.pc t with
    | .outside (some (_ :: _)) => false
    | _ => true
  | .call .. => false
  | .notify .. | .spurious _ => true
  | .destroy => s.phase = .destroyed

/-- One action. -/
def step (s : ExitState n m) : Action n m → Option (ExitState n m)
  | .stream j ai body =>
    if s.phase = .serving ∨ s.phase = .stopping then
      (ThreadPool.step s.pool (.call (.inr j) (streamTask ai body).1)).map ({ s with pool := · })
    else none
  | .pool a =>
    if s.mayStep a then (ThreadPool.step s.pool a).map ({ s with pool := · }) else none
  | .post t =>
    match s.pool.pc t with
    | .outside (some (h :: task)) => some
        { s with
          pool := { s.pool with pc := Function.update s.pool.pc t (.outside (some task)) }
          posts := s.posts ++ [(h, s.phase)] }
    | _ => none
  | .signal => if s.phase = .serving then some { s with phase := .stopping } else none
  | .runReturns =>
    if s.phase = .stopping ∧ ∀ j, (s.pool.pc (.inr j)).submitting = none then
      some { s with phase := .returned }
    else none
  | .destroyServer =>
    if s.phase = .returned then some { s with phase := .destroyed } else none

/-- Every callback was posted while the `io_context` existed. -/
def PostedInTime (s : ExitState n m) : Prop := ∀ p ∈ s.posts, p.2 ≠ .destroyed

/-- The task is queued or being run. -/
def Holds (s : ThreadPool.State n m (List PostedHandler)) (task : List PostedHandler) : Prop :=
  task ∈ s.shared.tasks ∨ ∃ t, (s.pc t).running = some task

/-- The server is not destroyed while a task that is queued or being run has callbacks left. -/
def NothingLeft (s : ExitState n m) : Action n m → Prop
  | .destroyServer => ∀ task, Holds s.pool task → task = []
  | _ => True

/-! ## A pool into which nobody submits -/

section Pool

variable {s s' : ThreadPool.State n m (List PostedHandler)} {t : Thread n m}
  {b b' : Shared n m (List PostedHandler)} {p p' : Pc (List PostedHandler)}
  {task : List PostedHandler}

/-- The task is queued, or run by a thread at this position. -/
def HoldsAt (b : Shared n m (List PostedHandler)) (p : Pc (List PostedHandler))
    (task : List PostedHandler) : Prop := task ∈ b.tasks ∨ p.running = some task

/-- A thread that is not in `submit` does not get there by a step, and only passes tasks on. -/
theorem threadStep_quiet (hp : p.submitting = none) (hstep : threadStep b t p = some (b', p')) :
    p'.submitting = none ∧ ∀ task, HoldsAt b' p' task → HoldsAt b p task := by
  cases p with
  | lock =>
    obtain ⟨-, hsome⟩ := Option.ite_none_right_eq_some.mp hstep
    cases hsome
    exact ⟨rfl, fun _ => id⟩
  | check | exitCheck =>
    cases hstep
    split <;> exact ⟨rfl, fun _ => id⟩
  | pop =>
    obtain ⟨task, tasks, htasks, rfl, rfl⟩ := threadStep_pop hstep
    refine ⟨rfl, fun task' h => .inl ?_⟩
    rw [htasks]
    rcases h with h | h
    · exact List.mem_cons_of_mem task h
    · cases h
      exact List.mem_cons_self
  | outside running =>
    cases running with
    | none => cases hstep
    | some task =>
      cases hstep
      exact ⟨rfl, fun _ h => .inl (h.resolve_right nofun)⟩
  | waiting | returned => cases hstep
  | sleep | unlockRun | unlockReturn =>
    cases hstep
    exact ⟨rfl, fun _ => id⟩
  | _ => cases hp

/-- A thread that submits nothing still does not, after a step that makes no submission of it. -/
theorem submitting_update {u : Thread n m} (ht : (s.pc t).submitting = none)
    (hp : u = t → p'.submitting = none) :
    (Function.update s.pc u p' t).submitting = none := by
  by_cases hut : u = t
  · rw [← hut, Function.update_self]
    exact hp hut
  · rwa [Function.update_of_ne (Ne.symm hut)]

/-- A thread gets into `submit` by calling it. -/
theorem submitting_step {a : ThreadPool.Action n m (List PostedHandler)}
    (ht : (s.pc t).submitting = none) (hcall : ∀ task, a ≠ .call t task)
    (hstep : ThreadPool.step s a = some s') : (s'.pc t).submitting = none := by
  cases a with
  | run u =>
    simp only [ThreadPool.step, Option.map_eq_some_iff] at hstep
    obtain ⟨⟨b, p⟩, hthread, rfl⟩ := hstep
    exact submitting_update ht fun hut => (threadStep_quiet (hut ▸ ht) hthread).1
  | call u task =>
    cases hpc : s.pc u with
    | outside running =>
      simp only [ThreadPool.step, hpc, Option.some.injEq] at hstep
      subst hstep
      exact submitting_update ht fun hut => absurd rfl (hut ▸ hcall task)
    | _ => simp [ThreadPool.step, hpc] at hstep
  | notify u woken =>
    cases hpc : s.pc u with
    | notifyOne running task =>
      simp only [ThreadPool.step, hpc] at hstep
      cases woken with
      | some v =>
        obtain ⟨-, hsome⟩ := Option.ite_none_right_eq_some.mp hstep
        cases hsome
        exact submitting_update (submitting_update ht fun _ => rfl) fun _ => rfl
      | none =>
        obtain ⟨-, hsome⟩ := Option.ite_none_right_eq_some.mp hstep
        cases hsome
        exact submitting_update ht fun _ => rfl
    | _ => simp [ThreadPool.step, hpc] at hstep
  | spurious u =>
    obtain ⟨-, hsome⟩ := Option.ite_none_right_eq_some.mp hstep
    cases hsome
    exact submitting_update ht fun _ => rfl
  | destroy =>
    obtain ⟨-, rfl⟩ | ⟨-, rfl⟩ | ⟨i, -, -, -, rfl⟩ := destroy_cases hstep
    · exact ht
    · exact (wakeAll_congr Pc.submitting rfl s.pc t).trans ht
    · exact ht

/-- A step of one thread that only passes tasks on. -/
theorem Holds.of_update
    (h : Holds { s with shared := b', pc := Function.update s.pc t p' } task)
    (hp : HoldsAt b' p' task → HoldsAt s.shared (s.pc t) task) : Holds s task := by
  have hholds : HoldsAt s.shared (s.pc t) task → Holds s task := Or.imp_right fun h => ⟨t, h⟩
  rcases h with h | ⟨u, hu⟩
  · exact hholds (hp (.inl h))
  · have hu : (Function.update s.pc t p' u).running = some task := hu
    by_cases hut : u = t
    · rw [hut, Function.update_self] at hu
      exact hholds (hp (.inr hu))
    · exact .inr ⟨u, by rwa [Function.update_of_ne hut] at hu⟩

/-- While nobody is in `submit` the pool gets no new task. -/
theorem holds_step {a : ThreadPool.Action n m (List PostedHandler)}
    (hquiet : ∀ t, (s.pc t).submitting = none) (hcall : ∀ t task, a ≠ .call t task)
    (hstep : ThreadPool.step s a = some s') (h : Holds s' task) : Holds s task := by
  cases a with
  | run t =>
    simp only [ThreadPool.step, Option.map_eq_some_iff] at hstep
    obtain ⟨⟨b, p⟩, hthread, rfl⟩ := hstep
    exact h.of_update ((threadStep_quiet (hquiet t) hthread).2 task)
  | call t task => exact absurd rfl (hcall t task)
  | notify t woken =>
    have ht := hquiet t
    cases hpc : s.pc t with
    | notifyOne running task =>
      rw [hpc] at ht
      cases ht
    | _ => simp [ThreadPool.step, hpc] at hstep
  | spurious t =>
    obtain ⟨hwait, hsome⟩ := Option.ite_none_right_eq_some.mp hstep
    cases hsome
    exact h.of_update fun htask => .inl (htask.resolve_right fun hpc => by cases hpc)
  | destroy =>
    obtain ⟨-, rfl⟩ | ⟨-, rfl⟩ | ⟨i, -, -, -, rfl⟩ := destroy_cases hstep
    · exact h
    · refine h.imp_right fun hrunning => ?_
      obtain ⟨t, ht⟩ := hrunning
      exact ⟨t, (wakeAll_congr Pc.running rfl s.pc t).symm.trans ht⟩
    · exact h

end Pool

/-! ## The invariant -/

/-- The threads of the event loop are the only ones that submit, none of them once `run()` has
returned, and when the server is gone no task has a callback left. -/
structure Inv (s : ExitState n m) : Prop where
  workers : ∀ i, (s.pool.pc (.inl i)).submitting = none
  quiet : s.phase = .returned ∨ s.phase = .destroyed → ∀ t, (s.pool.pc t).submitting = none
  nothing_left : s.phase = .destroyed → ∀ task, Holds s.pool task → task = []
  in_time : PostedInTime s

variable {s s' : ExitState n m}

/-- The invariant holds at the start. -/
theorem inv_init : Inv (init : ExitState n m) where
  workers _ := rfl
  quiet h := by simp [init] at h
  nothing_left h := by simp [init] at h
  in_time := by simp [PostedInTime, init]

/-- A step of the pool keeps the invariant. -/
theorem inv_pool {a : ThreadPool.Action n m (List PostedHandler)} (hs : Inv s)
    (hcall : ∀ t task, a ≠ .call t task) {pool : ThreadPool.State n m (List PostedHandler)}
    (hstep : ThreadPool.step s.pool a = some pool) : Inv { s with pool := pool } where
  workers i := submitting_step (hs.workers i) (hcall _) hstep
  quiet h t := submitting_step (hs.quiet h t) (hcall t) hstep
  nothing_left h task htask :=
    hs.nothing_left h task (holds_step (hs.quiet (.inr h)) hcall hstep htask)
  in_time := hs.in_time

/-- A task is submitted while the event loop runs. -/
theorem inv_stream {j : Fin m} {task : List PostedHandler} (hs : Inv s)
    (hphase : s.phase = .serving ∨ s.phase = .stopping)
    {pool : ThreadPool.State n m (List PostedHandler)}
    (hstep : ThreadPool.step s.pool (.call (.inr j) task) = some pool) :
    Inv { s with pool := pool } where
  workers i := submitting_step (hs.workers i) (by simp) hstep
  quiet h := by
    exfalso
    rcases hphase with hphase | hphase <;> simp [hphase] at h
  nothing_left h := by
    exfalso
    rcases hphase with hphase | hphase <;> simp [hphase] at h
  in_time := hs.in_time

/-- A task posts a callback. Once the server is destroyed there is none left to post. -/
theorem inv_post {t : Thread n m} {h : PostedHandler} {task : List PostedHandler} (hs : Inv s)
    (hpc : s.pool.pc t = .outside (some (h :: task))) :
    Inv { s with
      pool := { s.pool with pc := Function.update s.pool.pc t (.outside (some task)) }
      posts := s.posts ++ [(h, s.phase)] } where
  workers i := submitting_update (hs.workers i) fun _ => rfl
  quiet hphase u := submitting_update (hs.quiet hphase u) fun _ => rfl
  nothing_left hphase := by
    have hnil := hs.nothing_left hphase (h :: task) (.inr ⟨t, by rw [hpc, Pc.running]⟩)
    cases hnil
  in_time := by
    intro p hp
    rcases List.mem_append.mp hp with hp | hp
    · exact hs.in_time p hp
    · rw [List.mem_singleton.mp hp]
      intro hphase
      have hnil := hs.nothing_left hphase (h :: task) (.inr ⟨t, by rw [hpc, Pc.running]⟩)
      cases hnil

/-- **One action keeps the invariant**, where it does not destroy the server too early. -/
theorem inv_step (s : ExitState n m) (a : Action n m) (s' : ExitState n m) (hs : Inv s)
    (hleft : NothingLeft s a) (hstep : step s a = some s') : Inv s' := by
  cases a with
  | stream j ai body =>
    simp only [step, Option.ite_none_right_eq_some, Option.map_eq_some_iff] at hstep
    obtain ⟨hphase, pool, hpool, rfl⟩ := hstep
    exact inv_stream hs hphase hpool
  | pool a =>
    simp only [step, Option.ite_none_right_eq_some, Option.map_eq_some_iff] at hstep
    obtain ⟨hmay, pool, hpool, rfl⟩ := hstep
    refine inv_pool hs ?_ hpool
    rintro t task rfl
    cases hmay
  | post t =>
    simp only [step] at hstep
    split at hstep
    · rename_i h task hpc
      cases hstep
      exact inv_post hs hpc
    · cases hstep
  | signal =>
    obtain ⟨hphase, hsome⟩ := Option.ite_none_right_eq_some.mp hstep
    cases hsome
    exact { hs with quiet := by simp, nothing_left := by simp }
  | runReturns =>
    obtain ⟨⟨-, hloop⟩, hsome⟩ := Option.ite_none_right_eq_some.mp hstep
    cases hsome
    exact { hs with quiet := fun _ => Sum.rec hs.workers hloop, nothing_left := by simp }
  | destroyServer =>
    obtain ⟨hphase, hsome⟩ := Option.ite_none_right_eq_some.mp hstep
    cases hsome
    exact { hs with quiet := fun _ => hs.quiet (.inl hphase), nothing_left := fun _ => hleft }

/-- **No callback is posted to a destroyed event loop** in a run in which the server is destroyed
only when no task that is queued or being run has callbacks left: for any number of workers, of
threads of the event loop and of streaming requests, a signal at any moment, and every interleaving
of the steps of `main`, the event loop and the pool. -/
theorem posted_before_destroy {as : List (Action n m)} {s : ExitState n m}
    (hresp : Respects step NothingLeft init as) (hrun : run step init as = some s) :
    PostedInTime s :=
  (invariant_run inv_step inv_init hresp hrun).in_time

/-- A thread of the event loop that starts a stream calls `submit` with its task. -/
theorem step_stream {j : Fin m} {ai : Adapter} {body : Json} {task : List PostedHandler}
    (hphase : s.phase = .serving) (hpc : s.pool.pc (.inr j) = .outside none)
    (htask : (streamTask ai body).1 = task) :
    step s (.stream j ai body) = some
      { s with pool := { s.pool with
          shared := { s.pool.shared with called := s.pool.shared.called ++ [task] }
          pc := Function.update s.pool.pc (.inr j) (.submitLock none task) } } := by
  simp [step, ThreadPool.step, hphase, hpc, htask]

/-- A schedule is checked by running it. -/
instance (s : ExitState n m) (a : Action n m) : Decidable (NothingLeft s a) :=
  match a with
  | .destroyServer =>
    decidable_of_iff ((∀ task ∈ s.pool.shared.tasks, task = []) ∧
        ∀ t, ∀ task ∈ (s.pool.pc t).running, task = []) <| by
      simp only [NothingLeft, Holds, or_imp, forall_and, forall_exists_index, Option.mem_def]
      exact and_congr_right fun _ => forall_comm
  | .stream .. | .pool _ | .post _ | .signal | .runReturns => isTrue trivial

/-- The steps from the call of `submit` to the start of the task, in a pool of one worker. -/
def startTask : List (Action 1 1) :=
  List.replicate 4 (.pool (.run (.inr 0))) ++ .pool (.notify (.inr 0) none) ::
    List.replicate 5 (.pool (.run (.inl 0)))

/-- A provider that answers every request with status 500. -/
def refusingProvider : Adapter :=
  (openaiAdapter (utf8 "sk-provider") (utf8 "https://api.openai.com/v1")).toAdapter
    (Lib.ofTable []) fun _ => some ⟨[], .ok, 500⟩

/-- The body of a streaming request. -/
def streamBody : Json :=
  .object [(utf8 "messages", .array []), (utf8 "model", .lit "gpt-4"),
    (utf8 "stream", .boolean true)]

/-- The task posts the handler of the exception. -/
theorem streamTask_refusingProvider :
    ∃ h, (streamTask refusingProvider streamBody).1 = [h] :=
  List.length_eq_one_iff.mp (by decide +kernel)

/-- The theorem at a task whose callback comes before the signal. -/
theorem posted_before_destroy_refused :
    ∃ s : ExitState 1 1, run step init (.stream 0 refusingProvider streamBody :: (startTask ++
        [.post (.inl 0), .pool (.run (.inl 0)), .signal, .runReturns, .destroyServer])) = some s ∧
      s.phase = .destroyed ∧ s.posts.length = 1 ∧ PostedInTime s := by
  obtain ⟨h, htask⟩ := streamTask_refusingProvider
  have hrun : ∃ s, run step init (.stream 0 refusingProvider streamBody :: (startTask ++
      [.post (.inl 0), .pool (.run (.inl 0)), .signal, .runReturns, .destroyServer])) = some s ∧
      s.phase = .destroyed ∧ s.posts.length = 1 :=
    ⟨_, run_cons.mpr ⟨_, step_stream rfl rfl htask, rfl⟩, rfl, rfl⟩
  obtain ⟨s, hs, hphase, hposts⟩ := hrun
  exact ⟨s, hs, hphase, hposts, posted_before_destroy (by decide +kernel) hs⟩

/-- **A callback posted to a destroyed event loop.** The worker is in the task of a streaming
request when the signal arrives. `run()` returns and the server is destroyed, and only then does
the callback come. -/
theorem posted_after_destroy :
    ∃ s : ExitState 1 1, run step init (.stream 0 refusingProvider streamBody :: (startTask ++
        [.signal, .runReturns, .destroyServer, .post (.inl 0)])) = some s ∧
      ¬ PostedInTime s := by
  obtain ⟨h, htask⟩ := streamTask_refusingProvider
  refine ⟨_, run_cons.mpr ⟨_, step_stream rfl rfl htask, rfl⟩, fun hs => ?_⟩
  exact hs (h, .destroyed) (List.mem_singleton_self _) rfl

end ExitState

end AiSwitch
