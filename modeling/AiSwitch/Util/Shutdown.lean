import AiSwitch.Util.ThreadPool

/-!
# Shutting the thread pool down

The destructor sets `stop_`, notifies all workers and joins them. It does not take the mutex, so
that both can happen while a worker has found the predicate of `cv_.wait` false and does not wait
yet. That worker misses the notification, and no other follows.

`shutdown_of_no_sleep` shows that this is the only way for a join to hang: where no thread is in
that window at the `notify_all`, nobody waits from then on, and the workers' own steps take the
destructor to its end.
-/

namespace AiSwitch

open Ledger Mutex Transition

namespace ThreadPool

variable {n m : ℕ} {α : Type}

/-- The thread is on its way to a `notify_one`. -/
def Pc.Notifying : Pc α → Prop
  | .emplace .. | .submitUnlock .. | .notifyOne .. => True
  | _ => False

/-- The destructor is past `notify_all`. -/
def Joining (s : State n m α) : Prop := ∃ i, s.destructor = .joining i

/-- The lost wake-up: the destructor is past `notify_all`, a worker waits, and nobody is going to
notify it. -/
structure Stranded (s : State n m α) : Prop where
  joining : Joining s
  waiting : ∃ i, s.pc (.inl i) = .waiting
  silent : ∀ t, ¬ (s.pc t).Notifying

/-- A step that the pool takes by itself: no new `submit`, no wait that ends without a
notification. -/
def Action.Own : Action n m α → Prop
  | .run _ | .notify .. | .destroy => True
  | .call .. | .spurious _ => False

/-- The pool's own steps can bring the destructor to its end, each task ending when its turn
comes. -/
def CanFinish (s : State n m α) : Prop :=
  ∃ as s', (∀ a ∈ as, a.Own) ∧ run step s as = some s' ∧ s'.destructor = .joining n

/-- The step is not a `notify_all` that finds a thread between its check and its wait. -/
def NoSleepAtNotify (s : State n m α) (a : Action n m α) : Prop :=
  a = .destroy → s.destructor = .stopSet → ∀ t, s.pc t ≠ .sleep

instance [DecidableEq α] (s : State n m α) (a : Action n m α) : Decidable (NoSleepAtNotify s a) :=
  inferInstanceAs (Decidable (_ → _ → _))

/-! ## Nobody waits -/

/-- What the destructor has achieved so far. -/
def Awake (s : State n m α) : Prop :=
  match s.destructor with
  | .alive => True
  | .stopSet => s.shared.stop = true
  | .joining i => i ≤ n ∧ s.shared.stop = true ∧ ∀ t, (s.pc t).Awake

variable {s s' : State n m α} {t : Thread n m} {b b' : Shared n m α} {p p' : Pc α}

/-- A step of one thread keeps what the destructor has achieved. -/
theorem Awake.advance (hs : Awake s) (hpc : s.pc t = p) (h : Advance t s.shared p b' p') :
    Awake { s with shared := b', pc := Function.update s.pc t p' } := by
  revert hs
  unfold Awake
  cases s.destructor with
  | alive => exact id
  | stopSet => exact fun hset => h.stop.trans hset
  | joining i =>
    rintro ⟨hi, hset, hall⟩
    refine ⟨hi, h.stop.trans hset, ?_⟩
    exact (Function.forall_update_iff s.pc fun _ q => q.Awake).mpr
      ⟨h.awake hset (hpc ▸ hall t), fun u _ => hall u⟩

/-- Who was not about to sleep is awake after all are woken. -/
theorem awake_wakeAll {pc : Thread n m → Pc α} (h : pc t ≠ .sleep) : (wakeAll pc t).Awake := by
  unfold wakeAll
  split
  · trivial
  · rename_i hwait
    revert h hwait
    cases pc t <;> simp [Pc.isWaiting, Pc.Awake]

/-- **One action** outside the window **keeps everybody awake.** -/
theorem awake_step (s : State n m α) (a : Action n m α) (s' : State n m α) (hs : Awake s)
    (hsleep : NoSleepAtNotify s a) (hstep : step s a = some s') : Awake s' := by
  by_cases ha : a = .destroy
  · subst ha
    obtain ⟨hd, rfl⟩ | ⟨hd, rfl⟩ | ⟨i, hi, hd, -, rfl⟩ := destroy_cases hstep
    · exact rfl
    · have hset : s.shared.stop = true := by simpa only [Awake, hd] using hs
      exact ⟨Nat.zero_le n, hset, fun t => awake_wakeAll (hsleep rfl hd t)⟩
    · have hall : i ≤ n ∧ s.shared.stop = true ∧ ∀ t, (s.pc t).Awake := by
        simpa only [Awake, hd] using hs
      exact ⟨hi, hall.2⟩
  · exact step_of_advance Awake.advance hs hstep ha

/-! ## The joins complete -/

/-- How many steps a thread at this position has left, at most, before it has returned or is
outside with no task. A task in the queue counts for `10`. -/
def Pc.weight : Pc α → ℕ
  | .lock => 6
  | .check => 5
  | .exitCheck => 4
  | .pop => 3
  | .unlockReturn => 2
  | .sleep => 1
  | .waiting | .returned => 0
  | .unlockRun _ => 8
  | .outside running => outsideWeight running
  | .submitLock running _ => outsideWeight running + 15
  | .submitCheck running _ => outsideWeight running + 14
  | .emplace running _ => outsideWeight running + 13
  | .submitUnlock running _ => outsideWeight running + 2
  | .notifyOne running _ | .unlockThrow running _ => outsideWeight running + 1
where
  /-- A worker still has its task to end. -/
  outsideWeight : Option α → ℕ
    | none => 0
    | some _ => 7

/-- The steps left in the queue, in the threads and in the destructor. -/
def fuel (s : State n m α) : ℕ :=
  10 * s.shared.tasks.length + underWay Pc.weight s.pc +
    match s.destructor with
    | .joining i => n - i
    | _ => 0

/-- A step of a thread uses fuel. -/
theorem weight_threadStep (hstep : threadStep b t p = some (b', p')) :
    10 * b'.tasks.length + p'.weight < 10 * b.tasks.length + p.weight := by
  cases p with
  | lock | submitLock =>
    obtain ⟨-, hsome⟩ := Option.ite_none_right_eq_some.mp hstep
    cases hsome
    simp [Pc.weight]
  | check | exitCheck | submitCheck =>
    cases hstep
    split <;> simp [Pc.weight]
  | pop =>
    obtain ⟨task, tasks, htasks, rfl, rfl⟩ := threadStep_pop hstep
    simp only [htasks, Pc.weight, List.length_cons]
    omega
  | outside running =>
    cases running with
    | none => cases hstep
    | some task =>
      cases hstep
      simp [Pc.weight, Pc.weight.outsideWeight]
  | waiting | returned | notifyOne => cases hstep
  | emplace =>
    cases hstep
    simp only [Pc.weight, List.length_append, List.length_singleton]
    omega
  | unlockRun =>
    cases hstep
    simp [Pc.weight, Pc.weight.outsideWeight]
  | sleep | unlockReturn | submitUnlock | unlockThrow =>
    cases hstep
    simp [Pc.weight]

/-- A thread whose own fuel and that of the queue go down takes the whole down. -/
theorem fuel_update (hpc : s.pc t = p)
    (hlt : 10 * b'.tasks.length + p'.weight < 10 * s.shared.tasks.length + p.weight) :
    fuel { s with shared := b', pc := Function.update s.pc t p' } < fuel s := by
  have hsum := underWay_update Pc.weight s.pc t p'
  rw [hpc] at hsum
  simp only [fuel]
  omega

/-- The holder of the mutex has a step. -/
theorem exists_threadStep_of_critical (hcrit : p.Critical) (hchecked : Checked b p) :
    ∃ b' p', threadStep b t p = some (b', p') := by
  cases p with
  | pop =>
    obtain ⟨task, tasks, htasks⟩ := List.exists_cons_of_ne_nil hchecked
    refine ⟨{ b with tasks := tasks, popped := b.popped ++ [task] }, .unlockRun task, ?_⟩
    simp [threadStep, htasks]
  | lock | waiting | returned | outside | submitLock | notifyOne => exact hcrit.elim
  | _ => exact ⟨_, _, rfl⟩

/-- The pool can move on. -/
def Progresses (s : State n m α) : Prop :=
  ∃ a s', Action.Own a ∧ step s a = some s' ∧ Joining s' ∧ fuel s' < fuel s

/-- A step of a thread is progress. -/
theorem progresses_of_threadStep (hjoining : Joining s) (hpc : s.pc t = p)
    (hstep : threadStep s.shared t p = some (b', p')) : Progresses s := by
  refine ⟨.run t, { s with shared := b', pc := Function.update s.pc t p' }, trivial, ?_, hjoining,
    fuel_update hpc (weight_threadStep hstep)⟩
  simp only [step, hpc, hstep, Option.map_some]

/-- Where nobody waits, a `notify_one` wakes nobody. -/
theorem progresses_of_notifyOne (hjoining : Joining s) (hall : ∀ t, (s.pc t).Awake)
    {running : Option α} {task : α} (hpc : s.pc t = .notifyOne running task) : Progresses s := by
  have hnone : ∀ u, (s.pc u).isWaiting = false := by
    intro u
    have hu := hall u
    revert hu
    cases s.pc u <;> simp [Pc.Awake, Pc.isWaiting]
  refine ⟨.notify t none, { s with
    shared := { s.shared with returned := s.shared.returned ++ [task] }
    pc := Function.update s.pc t (.outside running) }, trivial, ?_, hjoining, fuel_update hpc ?_⟩
  · simp only [step, hpc]
    exact if_pos hnone
  · simp [Pc.weight]

/-- **Progress.** As long as a worker is to be joined, the pool has a step of its own: that of the
thread that holds the mutex, or else one of the worker itself, or the join. -/
theorem progress (hs : Inv s) (hawake : Awake s) {i : ℕ} (hi : i < n)
    (hd : s.destructor = .joining i) : Progresses s := by
  have hjoining : Joining s := ⟨i, hd⟩
  have hall : ∀ t, (s.pc t).Awake := by
    simp only [Awake, hd] at hawake
    exact hawake.2.2
  cases hmutex : s.shared.mutex with
  | some t =>
    obtain ⟨b', p', hstep⟩ :=
      exists_threadStep_of_critical ((hs.mutex t).mpr hmutex) (hs.checked t)
    exact progresses_of_threadStep hjoining rfl hstep
  | none =>
    have hout : ∀ t, ¬ (s.pc t).Critical := fun t ht => by
      have howner := (hs.mutex t).mp ht
      rw [hmutex] at howner
      cases howner
    have hworker := (hs.worker (.inl ⟨i, hi⟩)).mpr rfl
    have hout' := hout (.inl ⟨i, hi⟩)
    have hawake' := hall (.inl ⟨i, hi⟩)
    cases hpc : s.pc (.inl ⟨i, hi⟩) with
    | returned =>
      refine ⟨.destroy, { s with destructor := .joining (i + 1) }, trivial, ?_, ⟨i + 1, rfl⟩, ?_⟩
      · simp [step, hd, hi, hpc]
      · simp only [fuel, hd]
        omega
    | lock | submitLock => exact progresses_of_threadStep hjoining hpc (if_pos hmutex)
    | outside running =>
      cases running with
      | none =>
        rw [hpc] at hworker
        exact absurd rfl hworker
      | some task => exact progresses_of_threadStep hjoining hpc rfl
    | notifyOne running task => exact progresses_of_notifyOne hjoining hall hpc
    | waiting | sleep =>
      rw [hpc] at hawake'
      exact hawake'.elim
    | _ =>
      rw [hpc] at hout'
      exact absurd trivial hout'

/-- Where no one sleeps at the notification, every thread is awake in every run. -/
theorem awake_run {as : List (Action n m α)} (hresp : Respects step NoSleepAtNotify init as)
    (hrun : run step init as = some s) : Awake s :=
  invariant_run awake_step (show Awake init from trivial) hresp hrun

/-- The destructor joins, and nobody has missed its notification. -/
structure Closing (s : State n m α) : Prop where
  inv : Inv s
  awake : Awake s
  joining : Joining s

/-- While the destructor joins, the pool's own steps bring it to its end. -/
theorem Closing.canFinish (h : Closing s) : CanFinish s := by
  refine exists_run_of_measure fuel ?_ h
  rintro s ⟨hs, hawake, i, hd⟩ hgoal
  have hi : i ≤ n := by
    simp only [Awake, hd] at hawake
    exact hawake.1
  have hne : i ≠ n := by
    rintro rfl
    exact hgoal hd
  obtain ⟨a, s', ha, hstep, hjoining, hfuel⟩ := progress hs hawake (by omega) hd
  have hsleep : NoSleepAtNotify s a := by
    intro _ hset
    rw [hd] at hset
    cases hset
  exact ⟨a, s', ha, hstep, ⟨inv_step s a s' hs hstep, awake_step s a s' hawake hsleep hstep,
    hjoining⟩, hfuel⟩

/-- **The pool shuts down.** For any number of workers and of other threads, and every run in which
the destructor's `notify_all` does not find a thread between its check and its wait: no state is
reached in which a worker waits for a notification that is not going to come, and from every state
past the `notify_all` the pool's own steps let all joins return. -/
theorem shutdown_of_no_sleep {as : List (Action n m α)} {s : State n m α}
    (hresp : Respects step NoSleepAtNotify init as) (hrun : run step init as = some s) :
    ¬ Stranded s ∧ (Joining s → CanFinish s) := by
  have hs := inv_run hrun
  have hawake := awake_run hresp hrun
  refine ⟨?_, fun hjoining => (Closing.mk hs hawake hjoining).canFinish⟩
  rintro ⟨⟨i, hd⟩, ⟨w, hwaiting⟩, -⟩
  simp only [Awake, hd] at hawake
  have hw := hawake.2.2 (.inl w)
  rw [hwaiting] at hw
  exact hw

/-- The theorem at a destructor that finds the only worker waiting. -/
theorem shutdown_of_no_sleep_waiting :
    ∃ s : State 1 0 ℕ, run step init [.run (.inl 0), .run (.inl 0), .run (.inl 0), .destroy,
        .destroy] = some s ∧ Joining s ∧ CanFinish s :=
  ⟨_, rfl, ⟨0, rfl⟩, (@shutdown_of_no_sleep 1 0 ℕ [.run (.inl 0), .run (.inl 0), .run (.inl 0),
    .destroy, .destroy] _ (by decide) rfl).2 ⟨0, rfl⟩⟩

/-- Where every thread waits, and one of them is to be joined, the pool has no step of its own. -/
theorem not_canFinish_of_waiting (hall : ∀ t, s.pc t = .waiting) {i : ℕ} (hi : i < n)
    (hd : s.destructor = .joining i) : ¬ CanFinish s := by
  rintro ⟨as, s', hown, hrun, hd'⟩
  cases as with
  | nil =>
    cases hrun
    rw [hd] at hd'
    cases hd'
    exact absurd hi (lt_irrefl _)
  | cons a as =>
    obtain ⟨m, hstep, -⟩ := run_cons.mp hrun
    have ha := hown a List.mem_cons_self
    cases a with
    | run t => simp [step, threadStep, hall t] at hstep
    | notify t => simp [step, hall t] at hstep
    | destroy => simp [step, hd, hi, hall] at hstep
    | call | spurious => exact ha.elim

/-- **The lost wake-up.** The only worker has found the queue empty and the pool running. Before it
waits, the destructor sets `stop_` and notifies nobody. Then the worker waits, and is not joined. -/
theorem stranded_of_sleep :
    ∃ s : State 1 0 ℕ, run step init [.run (.inl 0), .run (.inl 0), .destroy, .destroy,
        .run (.inl 0)] = some s ∧ Stranded s ∧ ¬ CanFinish s := by
  have hreached : ∃ s : State 1 0 ℕ, run step init [.run (.inl 0), .run (.inl 0), .destroy,
      .destroy, .run (.inl 0)] = some s ∧ s.pc (.inl 0) = .waiting ∧ s.destructor = .joining 0 :=
    ⟨_, rfl, rfl, rfl⟩
  obtain ⟨s, hrun, hwaiting, hd⟩ := hreached
  have hall : ∀ t, s.pc t = .waiting := by
    rintro (i | j)
    · rw [Fin.eq_zero i, hwaiting]
    · exact j.elim0
  have hsilent : ∀ t, ¬ (s.pc t).Notifying := fun t => hall t ▸ id
  exact ⟨s, hrun, ⟨⟨0, hd⟩, ⟨0, hwaiting⟩, hsilent⟩,
    not_canFinish_of_waiting hall Nat.zero_lt_one hd⟩

end ThreadPool

end AiSwitch
