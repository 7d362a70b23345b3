import AiSwitch.Common.Wakeups
import AiSwitch.Util.Shutdown

/-!
# The thread pool keeps its workers busy

`submit` unlocks before it notifies, and `notify_one` may find nobody waiting, or wake a worker that
comes too late because another one has taken the task. `queued_tasks_attended` shows that no task is
left to a waiting worker all the same: as long as a worker waits, every task in the queue has a
worker that is going to look for it, or a notification that is going to be sent.

From this follows that a pool in use makes progress under every schedule: the tasks of all calls of
`submit` are run (`submitted_inevitably_run`).
-/

namespace AiSwitch

open Ledger Mutex Transition Wakeups

namespace ThreadPool

variable {n m : ℕ} {α : Type}

/-- A worker that is going to look into the queue, or a `submit` that has enqueued its task and not
notified yet. -/
def Pc.attends : Pc α → Bool
  | .lock | .check | .exitCheck | .pop | .submitUnlock .. | .notifyOne .. => true
  | _ => false

/-- How many tasks a thread at this position takes care of. -/
def Pc.cover (p : Pc α) : ℕ := if p.attends then 1 else 0

/-- As long as a worker waits, every queued task is attended to; and who is about to wait has found
no task. -/
structure Attended (s : State n m α) : Prop where
  slept : ∀ t, s.pc t = .sleep → s.shared.tasks = []
  covered : Covered Pc.cover (·.isWaiting = true) s.shared.tasks.length s.pc

variable {s s' : State n m α} {t : Thread n m} {b b' : Shared n m α} {p p' : Pc α}

/-! ## Steps -/

/-- What a step takes out of the queue or ceases to attend to, unless the queue is empty after
it. -/
theorem cover_threadStep (hslept : p = .sleep → b.tasks = [])
    (hstep : threadStep b t p = some (b', p')) :
    b'.tasks = [] ∨ (p'.isWaiting = true → p.isWaiting = true) ∧
      b'.tasks.length + p.cover ≤ b.tasks.length + p'.cover := by
  cases p with
  | lock | submitLock =>
    obtain ⟨-, hsome⟩ := Option.ite_none_right_eq_some.mp hstep
    cases hsome
    exact .inr ⟨nofun, by simp [Pc.cover, Pc.attends]⟩
  | check =>
    cases hstep
    split
    · exact .inr ⟨nofun, by simp [Pc.cover, Pc.attends]⟩
    · rename_i hfalse
      rw [not_or, not_not] at hfalse
      exact .inl hfalse.2
  | sleep =>
    cases hstep
    exact .inl (hslept rfl)
  | exitCheck =>
    cases hstep
    split
    · rename_i hexit
      exact .inl hexit.2
    · exact .inr ⟨nofun, by simp [Pc.cover, Pc.attends]⟩
  | pop =>
    obtain ⟨task, tasks, htasks, rfl, rfl⟩ := threadStep_pop hstep
    exact .inr ⟨nofun, by simp [htasks, Pc.cover, Pc.attends]⟩
  | submitCheck =>
    cases hstep
    split <;> exact .inr ⟨nofun, by simp [Pc.cover, Pc.attends]⟩
  | outside running =>
    cases running with
    | none => cases hstep
    | some task =>
      cases hstep
      exact .inr ⟨nofun, by simp [Pc.cover, Pc.attends]⟩
  | waiting | returned | notifyOne => cases hstep
  | unlockRun | unlockReturn | emplace | submitUnlock | unlockThrow =>
    cases hstep
    exact .inr ⟨nofun, by simp [Pc.cover, Pc.attends]⟩

/-- Only the predicate sends a worker to sleep. -/
theorem tasks_eq_nil_of_sleep (hstep : threadStep b t p = some (b', .sleep)) : b'.tasks = [] := by
  cases p with
  | check =>
    simp only [threadStep, Option.some.injEq, Prod.mk.injEq] at hstep
    obtain ⟨rfl, hsleep⟩ := hstep
    by_contra hne
    rw [if_pos (.inr hne)] at hsleep
    cases hsleep
  | lock | submitLock =>
    obtain ⟨-, hsome⟩ := Option.ite_none_right_eq_some.mp hstep
    cases hsome
  | exitCheck | submitCheck =>
    simp only [threadStep, Option.some.injEq, Prod.mk.injEq] at hstep
    obtain ⟨-, hsleep⟩ := hstep
    split at hsleep <;> cases hsleep
  | pop =>
    obtain ⟨task, tasks, -, -, hsleep⟩ := threadStep_pop hstep
    cases hsleep
  | outside running => cases running <;> cases hstep
  | _ => cases hstep

/-- A thread that is about to wait holds the mutex. -/
theorem Attended.slept_update (hs : Attended s) (hinv : Inv s)
    (hstep : threadStep s.shared t (s.pc t) = some (b', p')) (u : Thread n m)
    (hu : Function.update s.pc t p' u = .sleep) : b'.tasks = [] := by
  by_cases hut : u = t
  · subst hut
    rw [Function.update_self] at hu
    subst hu
    exact tasks_eq_nil_of_sleep hstep
  · rw [Function.update_of_ne hut] at hu
    have hcrit : (s.pc u).Critical := hu ▸ trivial
    have hfree : ¬ (s.pc t).Critical := hinv.mutex.guards.not_inside hcrit (Ne.symm hut)
    rw [(advance_threadStep hstep).tasks hfree]
    exact hs.slept u hu

/-- A step of one thread leaves the queued tasks attended. -/
theorem Attended.threadStep (hs : Attended s) (hinv : Inv s)
    (hstep : threadStep s.shared t (s.pc t) = some (b', p')) :
    Attended { s with shared := b', pc := Function.update s.pc t p' } where
  slept := hs.slept_update hinv hstep
  covered := by
    show Covered Pc.cover (·.isWaiting = true) b'.tasks.length (Function.update s.pc t p')
    rcases cover_threadStep (hs.slept t) hstep with hnil | ⟨hwaits, hcover⟩
    · rw [hnil]
      exact covered_zero
    · exact hs.covered.update rfl hwaits hcover

/-- A thread moves, and the queue stays as it is. -/
theorem Attended.move (hs : Attended s) (hpc : s.pc t = p) (htasks : b'.tasks = s.shared.tasks)
    (hsleep : p' ≠ .sleep) (hwaits : p'.isWaiting = true → p.isWaiting = true)
    (hcover : p.cover ≤ p'.cover) :
    Attended { s with shared := b', pc := Function.update s.pc t p' } where
  slept u hu := by
    show b'.tasks = []
    by_cases hut : u = t
    · subst hut
      exact absurd (by simpa using hu) hsleep
    · rw [htasks]
      exact hs.slept u (by simpa [Function.update_of_ne hut] using hu)
  covered := by
    show Covered Pc.cover (·.isWaiting = true) b'.tasks.length (Function.update s.pc t p')
    rw [htasks]
    exact hs.covered.update hpc hwaits (Nat.add_le_add_left hcover _)

/-- A wake-up leaves the queued tasks attended. -/
theorem Attended.wake (hs : Attended s) (hstep : wake s t = some s') : Attended s' := by
  obtain ⟨hwait, hsome⟩ := Option.ite_none_right_eq_some.mp hstep
  cases hsome
  exact hs.move (isWaiting_iff.mp hwait) rfl nofun nofun (Nat.zero_le _)

/-- A `submit` notifies: the worker that is woken takes the place of the notification. -/
theorem Attended.notify {running : Option α} {task : α} {woken : Option (Thread n m)}
    (hs : Attended s) (hpc : s.pc t = .notifyOne running task)
    (hstep : step s (.notify t woken) = some s') : Attended s' := by
  simp only [step, hpc] at hstep
  have hslept : ∀ u, Function.update s.pc t (.outside running) u = .sleep →
      s.shared.tasks = [] := by
    intro u hu
    by_cases hut : u = t
    · subst hut
      simp at hu
    · exact hs.slept u (by simpa [Function.update_of_ne hut] using hu)
  cases woken with
  | none =>
    obtain ⟨hnone, hsome⟩ := Option.ite_none_right_eq_some.mp hstep
    cases hsome
    refine ⟨hslept, covered_of_forall ?_⟩
    refine (Function.forall_update_iff s.pc fun _ q => ¬ q.isWaiting = true).mpr ⟨?_, ?_⟩
    · simp [Pc.isWaiting]
    intro u _
    simp [hnone u]
  | some u =>
    obtain ⟨hwait, hsome⟩ := Option.ite_none_right_eq_some.mp hstep
    cases hsome
    change (Function.update s.pc t (.outside running) u).isWaiting = true at hwait
    have hut : u ≠ t := by
      rintro rfl
      simp [Pc.isWaiting] at hwait
    rw [Function.update_of_ne hut] at hwait
    refine ⟨fun v hv => ?_, ?_⟩
    · by_cases hvu : v = u
      · subst hvu
        simp at hv
      · exact hslept v (by simpa [Function.update_of_ne hvu] using hv)
    · refine hs.covered.notify hpc hut hwait ?_ (by simp [Pc.cover, Pc.attends])
      rw [isWaiting_iff.mp hwait]
      rfl

/-- At the start no task is queued. -/
theorem attended_init : Attended (init : State n m α) where
  slept _ _ := rfl
  covered := covered_zero

/-- **One action leaves no task unattended.** -/
theorem attended_step (s : State n m α) (a : Action n m α) (s' : State n m α)
    (hs : Inv s ∧ Attended s) (hstep : step s a = some s') : Inv s' ∧ Attended s' := by
  obtain ⟨hinv, hs⟩ := hs
  refine ⟨inv_step s a s' hinv hstep, ?_⟩
  cases a with
  | run t =>
    simp only [step, Option.map_eq_some_iff] at hstep
    obtain ⟨⟨b, p⟩, hthread, rfl⟩ := hstep
    exact hs.threadStep hinv hthread
  | call t task =>
    cases hpc : s.pc t with
    | outside running =>
      simp only [step, hpc, Option.some.injEq] at hstep
      subst hstep
      exact hs.move hpc rfl (by simp) (by simp [Pc.isWaiting]) (Nat.zero_le _)
    | _ => simp [step, hpc] at hstep
  | notify t woken =>
    cases hpc : s.pc t with
    | notifyOne running task => exact hs.notify hpc hstep
    | _ => simp [step, hpc] at hstep
  | spurious t => exact hs.wake hstep
  | destroy =>
    obtain ⟨-, rfl⟩ | ⟨-, rfl⟩ | ⟨i, -, -, -, rfl⟩ := destroy_cases hstep
    · exact ⟨hs.slept, hs.covered⟩
    · -- `notify_all` leaves nobody waiting
      refine ⟨fun t ht => hs.slept t ?_, covered_of_forall fun t => ?_⟩
      · show s.pc t = .sleep
        revert ht
        simp only [wakeAll]
        split <;> simp
      · simp only [wakeAll]
        split <;> simp_all [Pc.isWaiting]
    · exact ⟨hs.slept, hs.covered⟩

/-- The tasks are attended in every state of every run. -/
theorem attended_run {as : List (Action n m α)} (hrun : run step init as = some s) :
    Inv s ∧ Attended s :=
  invariant_run (C := fun _ _ => True) (fun s a s' hs _ => attended_step s a s' hs)
    ⟨inv_init, attended_init⟩ (respects_of_forall fun _ _ => trivial) hrun

/-- **No task is left to a waiting worker.** For any number of workers and of other threads and
every interleaving of their steps, also across shutdown: as long as a worker waits, there are at
least as many workers on their way to the queue and notifications on their way to a worker as there
are tasks in the queue. So where nobody is on the way, either the queue is empty or no worker
waits. -/
theorem queued_tasks_attended {as : List (Action n m α)} {s : State n m α}
    (hrun : run step init as = some s) (hwait : ∃ t, s.pc t = .waiting) :
    s.shared.tasks.length ≤ (Finset.univ.filter fun t => (s.pc t).attends).card ∧
      ((∀ t, (s.pc t).attends = false) → s.shared.tasks = []) := by
  have hcovered := (attended_run hrun).2.covered
  have hwait' : ∃ t, (s.pc t).isWaiting = true := by
    obtain ⟨t, ht⟩ := hwait
    exact ⟨t, isWaiting_iff.mpr ht⟩
  constructor
  · rw [Finset.card_filter]
    exact hcovered hwait'
  · intro hnone
    refine List.length_eq_zero_iff.mp (hcovered.eq_zero hwait' fun t => ?_)
    rw [Pc.cover, hnone t]
    rfl

/-- The only worker waits, and a `submit` has enqueued its task and is going to notify. -/
theorem queued_tasks_attended_notify :
    ∃ s : State 1 1 ℕ, run step init (List.replicate 3 (Action.run (.inl 0)) ++
        Action.call (.inr 0) 7 :: List.replicate 4 (.run (.inr 0))) = some s ∧
      s.shared.tasks = [7] ∧
      s.shared.tasks.length ≤ (Finset.univ.filter fun t => (s.pc t).attends).card :=
  ⟨_, rfl, rfl, (@queued_tasks_attended 1 1 ℕ (List.replicate 3 (Action.run (.inl 0)) ++
    Action.call (.inr 0) 7 :: List.replicate 4 (.run (.inr 0))) _ rfl ⟨.inl 0, rfl⟩).1⟩

/-! ## Progress -/

/-- A step that a pool in use takes by itself: no new `submit`, no wait that ends without a
notification, no destructor. -/
def Action.Live : Action n m α → Prop
  | .run _ | .notify .. => True
  | .call .. | .spurious _ | .destroy => False

/-- The thread is on its way out of a `submit` that throws. -/
def Pc.Throwing : Pc α → Prop
  | .unlockThrow .. => True
  | _ => False

/-- The destructor has not begun, so that no `submit` throws. -/
structure Alive (s : State n m α) : Prop where
  stop : s.shared.stop = false
  thrown : s.shared.thrown = []
  throwing : ∀ t, ¬ (s.pc t).Throwing

/-- The tasks of all calls of `submit` have been run. -/
def AllRun (s : State n m α) : Prop := s.shared.ran.Perm s.shared.called

/-- While the pool is not stopped, a thread's step neither stops it nor throws. -/
theorem alive_threadStep (hstop : b.stop = false) (hp : ¬ p.Throwing)
    (hstep : threadStep b t p = some (b', p')) :
    b'.stop = false ∧ b'.thrown = b.thrown ∧ ¬ p'.Throwing := by
  cases p with
  | lock | submitLock =>
    obtain ⟨-, hsome⟩ := Option.ite_none_right_eq_some.mp hstep
    cases hsome
    exact ⟨hstop, rfl, id⟩
  | check | exitCheck =>
    cases hstep
    refine ⟨hstop, rfl, ?_⟩
    split <;> exact id
  | submitCheck =>
    cases hstep
    refine ⟨hstop, rfl, ?_⟩
    rw [if_neg (by simp [hstop])]
    exact id
  | pop =>
    obtain ⟨task, tasks, -, rfl, rfl⟩ := threadStep_pop hstep
    exact ⟨hstop, rfl, id⟩
  | outside running =>
    cases running with
    | none => cases hstep
    | some task =>
      cases hstep
      exact ⟨hstop, rfl, id⟩
  | waiting | returned | notifyOne => cases hstep
  | unlockThrow => exact absurd trivial hp
  | sleep | unlockRun | unlockReturn | emplace | submitUnlock =>
    cases hstep
    exact ⟨hstop, rfl, id⟩

/-- A thread that moves without a stop or an exception keeps the pool alive. -/
theorem Alive.move (hs : Alive s) (hstop : b'.stop = false) (hthrown : b'.thrown = [])
    (hp : ¬ p'.Throwing) : Alive { s with shared := b', pc := Function.update s.pc t p' } where
  stop := hstop
  thrown := hthrown
  throwing := (Function.forall_update_iff s.pc fun _ q => ¬ q.Throwing).mpr
    ⟨hp, fun u _ => hs.throwing u⟩

/-- A wake-up keeps the pool alive. -/
theorem Alive.wake (hs : Alive s) (hstep : wake s t = some s') : Alive s' := by
  obtain ⟨-, hsome⟩ := Option.ite_none_right_eq_some.mp hstep
  cases hsome
  exact hs.move hs.stop hs.thrown id

/-- Any step other than the destructor's keeps the pool alive. -/
theorem alive_step (s : State n m α) (a : Action n m α) (s' : State n m α) (hs : Alive s)
    (ha : a ≠ .destroy) (hstep : step s a = some s') : Alive s' := by
  cases a with
  | run t =>
    simp only [step, Option.map_eq_some_iff] at hstep
    obtain ⟨⟨b, p⟩, hthread, rfl⟩ := hstep
    obtain ⟨hstop, hthrown, hp⟩ := alive_threadStep hs.stop (hs.throwing t) hthread
    exact hs.move hstop (hthrown.trans hs.thrown) hp
  | call t task =>
    cases hpc : s.pc t with
    | outside running =>
      simp only [step, hpc, Option.some.injEq] at hstep
      subst hstep
      exact hs.move hs.stop hs.thrown id
    | _ => simp [step, hpc] at hstep
  | notify t woken =>
    cases hpc : s.pc t with
    | notifyOne running task =>
      have hreturn : Alive { s with
          shared := { s.shared with returned := s.shared.returned ++ [task] }
          pc := Function.update s.pc t (.outside running) } := hs.move hs.stop hs.thrown id
      simp only [step, hpc] at hstep
      cases woken with
      | some u => exact hreturn.wake hstep
      | none =>
        obtain ⟨-, hsome⟩ := Option.ite_none_right_eq_some.mp hstep
        cases hsome
        exact hreturn
    | _ => simp [step, hpc] at hstep
  | spurious t => exact hs.wake hstep
  | destroy => exact absurd rfl ha

/-- The steps that a thread has left, and those of the worker that its notification will wake. -/
def Pc.work (p : Pc α) : ℕ := p.weight + 6 * p.submitting.toList.length

/-- The steps left in the queue and in the threads. -/
def workLeft (s : State n m α) : ℕ := 10 * s.shared.tasks.length + underWay Pc.work s.pc

/-- A thread's step submits nothing that it was not about to submit. -/
theorem submitting_threadStep (hstep : threadStep b t p = some (b', p')) :
    p'.submitting.toList.length ≤ p.submitting.toList.length := by
  cases p with
  | lock | submitLock =>
    obtain ⟨-, hsome⟩ := Option.ite_none_right_eq_some.mp hstep
    cases hsome
    exact le_rfl
  | check | exitCheck | submitCheck =>
    cases hstep
    split <;> exact le_rfl
  | pop =>
    obtain ⟨task, tasks, -, rfl, rfl⟩ := threadStep_pop hstep
    exact le_rfl
  | outside running =>
    cases running with
    | none => cases hstep
    | some task =>
      cases hstep
      exact le_rfl
  | waiting | returned | notifyOne => cases hstep
  | sleep | unlockRun | unlockReturn | emplace | submitUnlock | unlockThrow =>
    cases hstep
    simp [Pc.submitting]

/-- **Every step of a pool in use leaves less work.** -/
theorem workLeft_lt {a : Action n m α} (ha : a.Live) (hstep : step s a = some s') :
    workLeft s' < workLeft s := by
  cases a with
  | run t =>
    simp only [step, Option.map_eq_some_iff] at hstep
    obtain ⟨⟨b, p⟩, hthread, rfl⟩ := hstep
    have hweight := weight_threadStep hthread
    have hsubmitting := submitting_threadStep hthread
    have hsum := underWay_update Pc.work s.pc t p
    simp only [workLeft, Pc.work] at hsum ⊢
    omega
  | notify t woken =>
    cases hpc : s.pc t with
    | notifyOne running task =>
      have hsum := underWay_update Pc.work s.pc t (.outside running)
      simp only [hpc, Pc.work, Pc.weight, Pc.submitting, Option.toList_some, Option.toList_none,
        List.length_singleton, List.length_nil] at hsum
      simp only [step, hpc] at hstep
      cases woken with
      | some u =>
        obtain ⟨hwait, hsome⟩ := Option.ite_none_right_eq_some.mp hstep
        cases hsome
        change (Function.update s.pc t (.outside running) u).isWaiting = true at hwait
        -- the worker that is woken has its steps paid by the notification
        have hwoken := underWay_update Pc.work (Function.update s.pc t (.outside running)) u .lock
        rw [isWaiting_iff.mp hwait] at hwoken
        simp only [Pc.work, Pc.weight, Pc.submitting, Option.toList_none, List.length_nil]
          at hwoken
        simp only [workLeft]
        omega
      | none =>
        obtain ⟨-, hsome⟩ := Option.ite_none_right_eq_some.mp hstep
        cases hsome
        simp only [workLeft]
        omega
    | _ => simp [step, hpc] at hstep
  | call | spurious | destroy => exact ha.elim

/-- A live action that is enabled can be taken. -/
theorem exists_step_of_isSome {a : Action n m α} (ha : a.Live) (h : (step s a).isSome = true) :
    ∃ a s', Action.Live a ∧ step s a = some s' := by
  obtain ⟨s', hstep⟩ := Option.isSome_iff_exists.mp h
  exact ⟨a, s', ha, hstep⟩

/-- A thread that can step gives the pool a step. -/
theorem exists_step_run (hstep : threadStep s.shared t (s.pc t) = some (b', p')) :
    ∃ a s', Action.Live a ∧ step s a = some s' :=
  exists_step_of_isSome (a := .run t) trivial (by simp [step, hstep])

/-- A `submit` can notify. -/
theorem exists_step_notifyOne {running : Option α} {task : α}
    (hpc : s.pc t = .notifyOne running task) :
    ∃ a s', Action.Live a ∧ step s a = some s' := by
  by_cases hwait : ∃ u, (s.pc u).isWaiting = true
  · obtain ⟨u, hu⟩ := hwait
    have hut : u ≠ t := by
      rintro rfl
      rw [hpc] at hu
      cases hu
    exact exists_step_of_isSome (a := .notify t (some u)) trivial
      (by simp [step, hpc, ThreadPool.wake, hut, hu])
  · have hnone : ∀ u, (s.pc u).isWaiting = false := fun u =>
      Bool.eq_false_iff.mpr fun hu => hwait ⟨u, hu⟩
    exact exists_step_of_isSome (a := .notify t none) trivial (by simp [step, hpc, hnone])

/-- A pool in use: the invariants together. -/
structure InUse (s : State n m α) : Prop where
  inv : Inv s
  attended : Attended s
  alive : Alive s

/-- In a pool in which no thread has a step, all tasks have been run. -/
theorem allRun_of_stuck (hn : 0 < n) (hs : InUse s)
    (hstuck : ∀ t, s.pc t = .waiting ∨ s.pc t = .outside none) : AllRun s := by
  have hbooks : ∀ t, (s.pc t).books = 0 := by
    intro t
    rcases hstuck t with h | h <;> rw [h] <;> rfl
  have hwait : ∃ t, (s.pc t).isWaiting = true := by
    refine ⟨.inl ⟨0, hn⟩, ?_⟩
    rcases hstuck (.inl ⟨0, hn⟩) with h | h
    · rw [h]
      rfl
    · have hworker := (hs.inv.worker (.inl ⟨0, hn⟩)).mpr rfl
      rw [h] at hworker
      exact absurd rfl hworker
  have htasks : s.shared.tasks = [] := by
    refine List.length_eq_zero_iff.mp (hs.attended.covered.eq_zero hwait fun t => ?_)
    rcases hstuck t with h | h <;> rw [h] <;> rfl
  have hsettled := hs.inv.books.eq_settled hbooks
  have hthrown := hs.alive.thrown
  simp only [Shared.opened, Shared.settled, Prod.mk.injEq, hthrown, List.map_nil,
    Multiset.coe_nil, add_zero] at hsettled
  obtain ⟨hcalled, haccepted, hpopped⟩ := hsettled
  have hfifo := hs.inv.fifo
  rw [htasks, List.append_nil] at hfifo
  apply Multiset.coe_eq_coe.mp
  rw [← hpopped, hfifo, haccepted, hcalled]

/-- **A pool in use is never stuck** before all tasks have been run. -/
theorem exists_live_step (hn : 0 < n) (hs : InUse s) (hgoal : ¬ AllRun s) :
    ∃ a s', Action.Live a ∧ step s a = some s' := by
  cases hmutex : s.shared.mutex with
  | some t =>
    obtain ⟨b', p', hstep⟩ :=
      exists_threadStep_of_critical ((hs.inv.mutex t).mpr hmutex) (hs.inv.checked t)
    exact exists_step_run hstep
  | none =>
    by_contra hstuck
    refine hgoal (allRun_of_stuck hn hs fun t => ?_)
    have hout : ¬ (s.pc t).Critical := fun ht => by
      have howner := (hs.inv.mutex t).mp ht
      rw [hmutex] at howner
      cases howner
    cases hpc : s.pc t with
    | waiting => exact .inl rfl
    | outside running =>
      cases running with
      | none => exact .inr rfl
      | some task => exact absurd (exists_step_run (by rw [hpc]; rfl)) hstuck
    | lock | submitLock =>
      exact absurd (exists_step_run (by rw [hpc]; exact if_pos hmutex)) hstuck
    | notifyOne => exact absurd (exists_step_notifyOne hpc) hstuck
    | returned =>
      have hstop := (hs.inv.drained t (hpc ▸ trivial)).stop
      rw [hs.alive.stop] at hstop
      cases hstop
    | _ =>
      rw [hpc] at hout
      exact absurd trivial hout

/-- **Submitted tasks are run.** For any number of workers but none, any number of other threads and
every interleaving before the destructor begins: whichever steps the threads take from there, with
each task ending when its turn comes, they come to an end, and not before the task of every call of
`submit` has been run. -/
theorem submitted_inevitably_run (hn : 0 < n) {as : List (Action n m α)} {s : State n m α}
    (halive : ∀ a ∈ as, a ≠ .destroy) (hrun : run step init as = some s) :
    Inevitable step Action.Live AllRun s := by
  have hinit : Alive (init : State n m α) :=
    ⟨rfl, rfl, fun t => by cases t <;> exact id⟩
  have halive' : Alive s := invariant_run (C := fun _ a => a ≠ .destroy) alive_step hinit
    (respects_of_forall halive) hrun
  obtain ⟨hinv, hattended⟩ := attended_run hrun
  refine inevitable_of_measure workLeft ?_ (fun s => exists_live_step hn)
    (InUse.mk hinv hattended halive')
  intro s a s' hs ha hstep
  have hne : a ≠ .destroy := by
    rintro rfl
    exact ha
  obtain ⟨hinv, hattended⟩ := attended_step s a s' ⟨hs.inv, hs.attended⟩ hstep
  exact ⟨⟨hinv, hattended, alive_step s a s' hs.alive hne hstep⟩, workLeft_lt ha hstep⟩

/-- The only worker waits while `submit` is about to notify it. -/
theorem submitted_inevitably_run_notify :
    ∃ s : State 1 1 ℕ, run step init (List.replicate 3 (Action.run (.inl 0)) ++
        Action.call (.inr 0) 7 :: List.replicate 4 (.run (.inr 0))) = some s ∧
      Inevitable step Action.Live AllRun s :=
  ⟨_, rfl, @submitted_inevitably_run 1 1 ℕ Nat.one_pos (List.replicate 3 (Action.run (.inl 0)) ++
    Action.call (.inr 0) 7 :: List.replicate 4 (.run (.inr 0))) _ (by decide) rfl⟩

end ThreadPool

end AiSwitch
