import AiSwitch.Common.Progress
import AiSwitch.Middleware.TokenBucketSteps
import Mathlib.Algebra.BigOperators.Group.Finset.Basic
import Mathlib.Algebra.Order.BigOperators.Group.Finset

/-!
# The loop of `try_acquire` comes to an end

`try_acquire` tries its compare-exchange again as long as others change the count, and `refill` and
`update_config` wait for each other. A compare-exchange whose values differ fails because somebody
has stored a count since, and every call stores at most two. So the calls on a bucket come to an
end, in whatever order the threads take their steps (`calls_inevitably_return`).
-/

namespace AiSwitch

open Mutex Transition

namespace TokenBucketSteps

/-- The steps that are left to a thread that nobody disturbs. -/
def Pc.stepsLeft : Pc → ℕ
  | .idle => 0
  | .acquireCas .. | .configUnlock => 1
  | .acquireLoad _ | .configStore _ => 2
  | .refillUnlock _ | .configLoad => 3
  | .refillStamp .. | .configRate _ => 4
  | .refillStore .. | .configCapacity .. => 5
  | .refillClamp .. | .configLock .. => 6
  | .refillLoad .. => 7
  | .refillCheck2 .. => 8
  | .refillNow2 _ => 9
  | .refillLock _ => 10
  | .refillCheck .. => 11
  | .refillNow _ => 12

/-- How often the thread may still store a count. -/
def Pc.storesLeft : Pc → ℕ
  | .idle | .configUnlock => 0
  | .refillStamp .. | .refillUnlock _ | .acquireLoad _ | .acquireCas .. | .configLock ..
  | .configCapacity .. | .configRate _ | .configLoad | .configStore _ => 1
  | .refillNow _ | .refillCheck .. | .refillLock _ | .refillNow2 _ | .refillCheck2 ..
  | .refillLoad .. | .refillClamp .. | .refillStore .. => 2

/-- One, if the thread is going to find another count than it expects. -/
def Pc.stale (tokens : ℤ) : Pc → ℕ
  | .acquireCas _ expected => if expected = tokens then 0 else 1
  | _ => 0

/-- What a thread has to do: a count that it stores may cost each of `m` threads a step. -/
def Pc.work (m : ℕ) (tokens : ℤ) (pc : Pc) : ℕ :=
  (m + 1) * pc.storesLeft + pc.stepsLeft + pc.stale tokens

/-- What the first `m` threads have to do. -/
def State.workLeft (m : ℕ) (s : State) : ℕ :=
  ∑ t ∈ Finset.range m, (s.pc t).work m s.bucket.tokens

variable {m : ℕ} {s s' : State} {t : ℕ} {b b' : Shared} {pc pc' : Pc}

/-- A step that stores no count leaves less work, if fewer steps are left. -/
theorem work_lt_of_tokens_eq (htokens : b'.tokens = b.tokens)
    (hstores : pc'.storesLeft ≤ pc.storesLeft)
    (hsteps : pc'.stepsLeft + pc'.stale b.tokens < pc.stepsLeft + pc.stale b.tokens) :
    pc'.work m b'.tokens + (if b'.tokens = b.tokens then 0 else m) < pc.work m b.tokens := by
  have hmul : (m + 1) * pc'.storesLeft ≤ (m + 1) * pc.storesLeft := Nat.mul_le_mul_left _ hstores
  rw [if_pos htokens, htokens, Pc.work, Pc.work]
  omega

/-- A step that may store a count leaves less work. -/
theorem work_lt_of_stores (hstores : pc'.storesLeft + 1 = pc.storesLeft)
    (hsteps : pc'.stepsLeft ≤ pc.stepsLeft) (hstale : ∀ tokens, pc'.stale tokens = 0) :
    pc'.work m b'.tokens + (if b'.tokens = b.tokens then 0 else m) < pc.work m b.tokens := by
  have hcost : (if b'.tokens = b.tokens then 0 else m) ≤ m := by split_ifs <;> omega
  have hmul : (m + 1) * pc.storesLeft = (m + 1) * pc'.storesLeft + (m + 1) := by
    rw [← hstores, Nat.mul_succ]
  rw [Pc.work, Pc.work, hstale, hmul]
  omega

/-- **A step** leaves the thread less to do, also with what the step costs the others. -/
theorem work_threadStep (hstep : threadStep b t pc = some (b', pc')) :
    pc'.work m b'.tokens + (if b'.tokens = b.tokens then 0 else m) < pc.work m b.tokens := by
  cases pc with
  | idle => cases hstep
  | refillLock k =>
    obtain ⟨-, hsome⟩ := Option.ite_none_right_eq_some.mp hstep
    cases hsome
    exact work_lt_of_tokens_eq rfl le_rfl (by simp [Pc.stepsLeft, Pc.stale])
  | configLock c r =>
    obtain ⟨-, hsome⟩ := Option.ite_none_right_eq_some.mp hstep
    cases hsome
    exact work_lt_of_tokens_eq rfl le_rfl (by simp [Pc.stepsLeft, Pc.stale])
  | refillStore | configStore =>
    cases hstep
    exact work_lt_of_stores rfl (by simp [Pc.stepsLeft]) fun _ => rfl
  | refillCheck | refillCheck2 =>
    cases hstep
    refine work_lt_of_tokens_eq rfl ?_ ?_ <;>
      split_ifs <;> simp [Pc.storesLeft, Pc.stepsLeft, Pc.stale]
  | acquireCas k expected =>
    rw [threadStep] at hstep
    split_ifs at hstep with hfew hsame
    · cases hstep
      exact work_lt_of_tokens_eq rfl (by simp [Pc.storesLeft]) (by simp [Pc.stepsLeft, Pc.stale])
    · cases hstep
      exact work_lt_of_stores rfl (by simp [Pc.stepsLeft]) fun _ => rfl
    · -- the comparison has failed, and the next one does not unless somebody stores again
      cases hstep
      refine work_lt_of_tokens_eq rfl le_rfl ?_
      simp [Pc.stepsLeft, Pc.stale, Ne.symm hsame]
  | _ =>
    cases hstep
    exact work_lt_of_tokens_eq rfl (by simp [Pc.storesLeft]) (by simp [Pc.stepsLeft, Pc.stale])

/-- A stored count costs another thread a step at most. -/
theorem work_le (tokens tokens' : ℤ) (pc : Pc) :
    pc.work m tokens' ≤ pc.work m tokens + (if tokens' = tokens then 0 else 1) := by
  split_ifs with htokens
  · rw [htokens, add_zero]
  · have hstale : pc.stale tokens' ≤ 1 := by
      unfold Pc.stale
      split
      · split_ifs <;> omega
      · omega
    rw [Pc.work, Pc.work]
    omega

/-! ## Runs -/

/-- The mutex is with the thread in the critical section, and only the first `m` threads have called
anything. -/
structure InUse (m : ℕ) (s : State) : Prop where
  mutex : Exact (fun t => (s.pc t).Critical) s.bucket.refillMutex
  idle : ∀ t, m ≤ t → s.pc t = .idle

/-- A step locks the mutex as it enters the critical section, and unlocks it as it leaves. -/
theorem move_threadStep (hstep : threadStep b t pc = some (b', pc')) :
    Move t pc.Critical pc'.Critical b.refillMutex b'.refillMutex := by
  cases pc with
  | idle => cases hstep
  | refillLock | configLock =>
    obtain ⟨hfree, hsome⟩ := Option.ite_none_right_eq_some.mp hstep
    cases hsome
    rw [hfree]
    exact .lock trivial
  | refillUnlock | configUnlock =>
    cases hstep
    exact .unlock trivial id
  | refillCheck | refillCheck2 =>
    cases hstep
    split_ifs <;> exact .stay Iff.rfl
  | configStore =>
    cases hstep
    split_ifs <;> exact .stay Iff.rfl
  | acquireCas =>
    rw [threadStep] at hstep
    split_ifs at hstep <;> cases hstep <;> exact .stay Iff.rfl
  | _ =>
    cases hstep
    exact .stay Iff.rfl

/-- A thread has nothing to do, waits for the mutex, or has a step. -/
theorem exists_threadStep (hidle : pc ≠ .idle) (hfree : b.refillMutex = none ∨ pc.Critical) :
    (threadStep b t pc).isSome = true := by
  cases pc with
  | idle => exact absurd rfl hidle
  | refillLock | configLock =>
    have hfree := hfree.resolve_right id
    simp [threadStep, hfree]
  | acquireCas =>
    rw [threadStep]
    split_ifs <;> rfl
  | _ => rfl

variable {a : Action}

/-- The next step of some thread. -/
def Action.IsRun : Action → Prop
  | .run _ => True
  | .tick _ | .call _ _ | .spurious _ => False

instance : DecidablePred Action.IsRun
  | .run _ => isTrue trivial
  | .tick _ | .call _ _ | .spurious _ => isFalse id

/-- Time passes, or a `compare_exchange_weak` fails although the values agree. -/
def Action.IsOther : Action → Prop
  | .tick _ | .spurious _ => True
  | .run _ | .call _ _ => False

/-- A thread that is not idle is one of those in use. -/
theorem InUse.lt (hs : InUse m s) (ht : s.pc t ≠ .idle) : t < m := by
  by_contra hle
  exact ht (hs.idle t (not_lt.mp hle))

/-- A step of such a thread keeps the others idle and the mutex exact. -/
theorem InUse.update (hs : InUse m s) (ht : t < m)
    (hmove : Move t (s.pc t).Critical pc'.Critical s.bucket.refillMutex b'.refillMutex) :
    InUse m ⟨b', Function.update s.pc t pc'⟩ := by
  refine ⟨hs.mutex.move hmove, fun u hu => ?_⟩
  have hut : u ≠ t := by omega
  show Function.update s.pc t pc' u = .idle
  rw [Function.update_of_ne hut]
  exact hs.idle u hu

/-- What one thread does to the work of all. -/
theorem workLeft_update (ht : t < m) :
    State.workLeft m ⟨b', Function.update s.pc t pc'⟩ + (s.pc t).work m s.bucket.tokens
      ≤ s.workLeft m + (pc'.work m b'.tokens + if b'.tokens = s.bucket.tokens then 0 else m) := by
  have hmem : t ∈ Finset.range m := Finset.mem_range.mpr ht
  have hothers : ∑ u ∈ (Finset.range m).erase t, (Function.update s.pc t pc' u).work m b'.tokens
      ≤ (∑ u ∈ (Finset.range m).erase t, (s.pc u).work m s.bucket.tokens)
        + if b'.tokens = s.bucket.tokens then 0 else m := by
    calc _ ≤ ∑ u ∈ (Finset.range m).erase t, ((s.pc u).work m s.bucket.tokens
          + if b'.tokens = s.bucket.tokens then 0 else 1) := by
          refine Finset.sum_le_sum fun u hu => ?_
          rw [Function.update_of_ne (Finset.ne_of_mem_erase hu)]
          exact work_le _ _ _
      _ ≤ _ := by
          rw [Finset.sum_add_distrib, Finset.sum_const, Finset.card_erase_of_mem hmem,
            Finset.card_range]
          split_ifs <;> simp
  rw [State.workLeft, State.workLeft, ← Finset.add_sum_erase _ _ hmem,
    ← Finset.add_sum_erase _ _ hmem]
  dsimp only
  rw [Function.update_self]
  omega

/-- A thread's step keeps the invariant and leaves less work. -/
theorem inUse_run (hs : InUse m s) (hstep : step s (.run t) = some s') :
    InUse m s' ∧ s'.workLeft m < s.workLeft m := by
  simp only [step, Option.map_eq_some_iff] at hstep
  obtain ⟨⟨b', pc'⟩, hthread, rfl⟩ := hstep
  have ht : t < m := hs.lt fun hidle => by
    rw [hidle] at hthread
    cases hthread
  refine ⟨hs.update ht (move_threadStep hthread), ?_⟩
  have hupdate : State.workLeft m ⟨b', Function.update s.pc t pc'⟩
      + (s.pc t).work m s.bucket.tokens ≤ _ := workLeft_update ht
  have hwork := work_threadStep (m := m) hthread
  dsimp only
  omega

/-- Time and vain attempts leave no more work. -/
theorem inUse_other (hs : InUse m s) (ha : a.IsOther) (hstep : step s a = some s') :
    InUse m s' ∧ s'.workLeft m ≤ s.workLeft m := by
  cases a with
  | tick ns =>
    cases hstep
    exact ⟨⟨hs.mutex, hs.idle⟩, le_rfl⟩
  | spurious t =>
    rw [step] at hstep
    split at hstep
    · rename_i k expected hpc
      obtain ⟨-, hsome⟩ := Option.ite_none_right_eq_some.mp hstep
      cases hsome
      have ht : t < m := hs.lt (by rw [hpc]; simp)
      refine ⟨hs.update ht (hpc ▸ .stay Iff.rfl), ?_⟩
      have hupdate : State.workLeft m ⟨s.bucket, Function.update s.pc t
            (.acquireCas k s.bucket.tokens)⟩ + (s.pc t).work m s.bucket.tokens ≤ _ :=
        workLeft_update ht
      have hwork : (Pc.acquireCas k s.bucket.tokens).work m s.bucket.tokens
          ≤ (s.pc t).work m s.bucket.tokens := by
        rw [hpc]
        simp [Pc.work, Pc.storesLeft, Pc.stepsLeft, Pc.stale]
      rw [if_pos rfl] at hupdate
      omega
    · cases hstep
  | run | call => exact ha.elim

/-- Where a call has not returned some thread has a step. -/
theorem exists_run (hs : InUse m s) (hbusy : ¬ ∀ t, s.pc t = .idle) :
    ∃ a s', a.IsRun ∧ step s a = some s' := by
  obtain ⟨t, ht⟩ := not_forall.mp hbusy
  obtain ⟨u, hu⟩ : ∃ u, (threadStep s.bucket u (s.pc u)).isSome = true := by
    cases hmutex : s.bucket.refillMutex with
    | none => exact ⟨t, exists_threadStep ht (.inl hmutex)⟩
    | some u =>
      have hcrit : (s.pc u).Critical := (hs.mutex u).mpr hmutex
      refine ⟨u, exists_threadStep (fun hidle => ?_) (.inr hcrit)⟩
      rw [hidle] at hcrit
      exact hcrit
  obtain ⟨r, hr⟩ := Option.isSome_iff_exists.mp hu
  exact ⟨.run u, _, trivial, by rw [step, hr, Option.map_some]⟩

/-- In every state of a run only so many threads have called. -/
theorem exists_inUse {C R t0 : ℤ} {as : List Action} (hrun : run step (init C R t0) as = some s) :
    ∃ m, InUse m s := by
  have hinit : ∃ m, InUse m (init C R t0) :=
    ⟨0, fun _ => iff_of_false id (by simp [init]), fun _ _ => rfl⟩
  have hstep : ∀ s a s', (∃ m, InUse m s) → True → step s a = some s' → ∃ m, InUse m s' := by
    rintro s a s' ⟨m, hs⟩ - hstep
    cases a with
    | run t => exact ⟨m, (inUse_run hs hstep).1⟩
    | tick ns => exact ⟨m, (inUse_other (a := .tick ns) hs trivial hstep).1⟩
    | spurious t => exact ⟨m, (inUse_other (a := .spurious t) hs trivial hstep).1⟩
    | call t op =>
      obtain ⟨hidle, hsome⟩ := Option.ite_none_right_eq_some.mp hstep
      cases hsome
      have hwider : InUse (max m (t + 1)) s := ⟨hs.mutex, fun u hu => hs.idle u (by omega)⟩
      refine ⟨_, hwider.update (by omega) (.stay (iff_of_false ?_ ?_))⟩
      · cases op <;> exact id
      · rw [hidle]
        exact id
  exact invariant_run hstep hinit (respects_of_forall fun _ _ => trivial) hrun

/-- **Every call returns.** For every bucket and every interleaving of `try_acquire` and
`update_config` by any number of threads: whichever steps the threads take from there, with time
passing and `compare_exchange_weak` failing in vain in between, the steps come to an end, and not
before all calls have returned. The arithmetic is exact. -/
theorem calls_inevitably_return {C R t0 : ℤ} {as : List Action}
    (hrun : run step (init C R t0) as = some s) :
    InevitableAmong step Action.IsOther Action.IsRun (fun s => ∀ t, s.pc t = .idle) s := by
  obtain ⟨m, hs⟩ := exists_inUse hrun
  refine inevitableAmong_of_measure (State.workLeft m) ?_ ?_ ?_ hs
  · intro s a s' hs ha hstep
    cases a with
    | run t => exact inUse_run hs hstep
    | tick | call | spurious => exact ha.elim
  · exact fun s a s' hs ha hstep => inUse_other hs ha hstep
  · exact fun s hs hbusy => exists_run hs hbusy

/-- Two threads have loaded the count, and only one of them can take a token from it. -/
theorem calls_inevitably_return_two : ∃ s,
    run step (init 5 1 0) ([Action.call 0 (.tryAcquire 1), .call 1 (.tryAcquire 1)]
        ++ List.replicate 3 (Action.run 0) ++ List.replicate 3 (Action.run 1)) = some s ∧
      s.pc 0 = .acquireCas 1 5 ∧ s.pc 1 = .acquireCas 1 5 ∧
      InevitableAmong step Action.IsOther Action.IsRun (fun s => ∀ t, s.pc t = .idle) s := by
  obtain ⟨s, hs, hpc⟩ : ∃ s, run step (init 5 1 0) ([Action.call 0 (.tryAcquire 1),
      .call 1 (.tryAcquire 1)] ++ List.replicate 3 (Action.run 0)
      ++ List.replicate 3 (Action.run 1)) = some s ∧
      (s.pc 0 = .acquireCas 1 5 ∧ s.pc 1 = .acquireCas 1 5) := exists_of_any (by decide +kernel)
  exact ⟨s, hs, hpc.1, hpc.2, calls_inevitably_return hs⟩

end TokenBucketSteps

end AiSwitch
