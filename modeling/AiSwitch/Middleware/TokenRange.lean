import AiSwitch.Common.Mutex
import AiSwitch.Middleware.TokenBucketSteps

/-!
# The token count stays in range

A refill stores a count that it computed from an earlier load, consumers change the count without
the mutex, and `update_config` lowers the capacity before it trims the count. `tokens_in_range`
shows that none of this takes the count below zero, or above the capacity while no thread is in
`update_config`, in any interleaving of the steps of `TokenBucketSteps`.

The invariant says of every thread what it may still store. A consumer can only lower the count, so
what a thread in the critical section has learned about the count stays an upper bound.
-/

namespace AiSwitch

open Mutex Transition

namespace TokenBucketSteps

/-! ## The calls -/

/-- The arguments of a call are not negative. -/
def Action.Nonneg : Action → Prop
  | .call _ (.tryAcquire k) => 0 ≤ k
  | .call _ (.updateConfig c r) => 0 ≤ c ∧ 0 ≤ r
  | _ => True

instance (a : Action) : Decidable a.Nonneg :=
  match a with
  | .call _ (.tryAcquire k) => inferInstanceAs (Decidable (0 ≤ k))
  | .call _ (.updateConfig c r) => inferInstanceAs (Decidable (0 ≤ c ∧ 0 ≤ r))
  | .tick _ | .run _ | .spurious _ => isTrue trivial

/-- The thread is inside the critical section of `update_config`. -/
def Pc.Configuring : Pc → Prop
  | .configCapacity .. | .configRate _ | .configLoad | .configStore _ | .configUnlock => True
  | _ => False

/-- The limits are stored under the mutex. -/
theorem Pc.Configuring.critical {pc : Pc} (h : pc.Configuring) : pc.Critical := by
  cases pc <;> first | exact trivial | exact h.elim

/-! ## The invariant -/

/-- What a thread knows about the values that it is going to store. -/
def PcInRange (b : Shared) : Pc → Prop
  | .idle | .configLoad => True
  | .refillNow k | .refillCheck k _ | .refillLock k | .refillNow2 k | .refillCheck2 k _
  | .refillStamp k _ | .refillUnlock k | .acquireLoad k | .acquireCas k _ => 0 ≤ k
  | .refillLoad k _ elapsed => 0 ≤ k ∧ 0 < elapsed
  | .refillClamp k _ _ newTokens => 0 ≤ k ∧ 0 ≤ newTokens
  | .refillStore k _ _ newTokens => 0 ≤ k ∧ 0 ≤ newTokens ∧ newTokens ≤ b.capacity
  | .configLock c r | .configCapacity c r => 0 ≤ c ∧ 0 ≤ r
  | .configRate r => 0 ≤ r
  | .configStore current => b.tokens ≤ current
  | .configUnlock => b.tokens ≤ b.capacity

/-- The fields are in range, and so is everything that a thread is going to store. -/
structure InRange (s : State) : Prop where
  tokens_nonneg : 0 ≤ s.bucket.tokens
  capacity_nonneg : 0 ≤ s.bucket.capacity
  rate_nonneg : 0 ≤ s.bucket.refillRate
  tokens_le : (∀ t, ¬ (s.pc t).Configuring) → s.bucket.tokens ≤ s.bucket.capacity
  guards : Guards (fun t => (s.pc t).Critical) s.bucket.refillMutex
  threads : ∀ t, PcInRange s.bucket (s.pc t)

variable {s : State} {t : ℕ} {b : Shared} {pc : Pc}

/-- Outside the critical section nothing about a thread depends on the bucket. -/
theorem PcInRange.of_not_critical (h : PcInRange b pc) (hpc : ¬ pc.Critical) (b' : Shared) :
    PcInRange b' pc := by
  cases pc <;> first | exact h | exact absurd trivial hpc

/-- What a thread knows stays true when the count gets smaller. -/
theorem PcInRange.of_le (h : PcInRange b pc) {b' : Shared} (htokens : b'.tokens ≤ b.tokens)
    (hcapacity : b'.capacity = b.capacity) : PcInRange b' pc := by
  cases pc with
  | refillStore => exact ⟨h.1, h.2.1, hcapacity ▸ h.2.2⟩
  | configStore => exact htokens.trans h
  | configUnlock => exact htokens.trans (hcapacity ▸ h)
  | _ => exact h

/-- While a refill is in its critical section nobody changes the configuration. -/
theorem InRange.tokens_le_of_critical (h : InRange s) (ht : (s.pc t).Critical)
    (hconf : ¬ (s.pc t).Configuring) : s.bucket.tokens ≤ s.bucket.capacity := by
  apply h.tokens_le
  intro u hu
  by_cases hut : u = t
  · exact hconf (hut ▸ hu)
  · exact h.guards.not_inside ht hut hu.critical

/-! ## Preservation

A step of thread `t` takes it from `pc₀` to `pc`.
-/

variable {pc₀ : Pc}

/-- A thread that moves on without touching the bucket keeps the count in range. -/
theorem inRange_local (h : InRange s) (hpc₀ : s.pc t = pc₀) (hpc : PcInRange s.bucket pc)
    (hcrit : pc.Critical → pc₀.Critical) (hconf : pc₀.Configuring → pc.Configuring) :
    InRange { bucket := s.bucket, pc := Function.update s.pc t pc } where
  tokens_nonneg := h.tokens_nonneg
  capacity_nonneg := h.capacity_nonneg
  rate_nonneg := h.rate_nonneg
  tokens_le hnone := by
    apply h.tokens_le
    intro u
    by_cases hut : u = t
    · rw [hut, hpc₀]
      exact fun hu => hnone t (by simpa using hconf hu)
    · simpa [Function.update_of_ne hut] using hnone u
  guards := h.guards.update fun hc => hpc₀ ▸ hcrit hc
  threads := (Function.forall_update_iff s.pc fun _ q => PcInRange s.bucket q).mpr
    ⟨hpc, fun u _ => h.threads u⟩

/-- The holder of the mutex changes the bucket. No other thread depends on it. -/
theorem inRange_critical (h : InRange s) (hpc₀ : s.pc t = pc₀) (hcrit : pc₀.Critical)
    (hmutex : b.refillMutex = s.bucket.refillMutex) (htokens : 0 ≤ b.tokens)
    (hcapacity : 0 ≤ b.capacity) (hrate : 0 ≤ b.refillRate) (hpc : PcInRange b pc)
    (hle : pc.Configuring ∨ b.tokens ≤ b.capacity) :
    InRange { bucket := b, pc := Function.update s.pc t pc } where
  tokens_nonneg := htokens
  capacity_nonneg := hcapacity
  rate_nonneg := hrate
  tokens_le hnone := hle.resolve_left (by simpa using hnone t)
  guards := by
    show Guards _ b.refillMutex
    rw [hmutex]
    exact h.guards.update fun _ => hpc₀ ▸ hcrit
  threads := (Function.forall_update_iff s.pc fun _ q => PcInRange b q).mpr
    ⟨hpc, fun u hu => (h.threads u).of_not_critical (h.guards.not_inside (hpc₀ ▸ hcrit) hu) b⟩

/-- A thread that takes the free mutex keeps the count in range. -/
theorem inRange_lock (h : InRange s) (hfree : s.bucket.refillMutex = none)
    (hpc : PcInRange s.bucket pc) :
    InRange
      { bucket := { s.bucket with refillMutex := some t }, pc := Function.update s.pc t pc } where
  tokens_nonneg := h.tokens_nonneg
  capacity_nonneg := h.capacity_nonneg
  rate_nonneg := h.rate_nonneg
  tokens_le _ := by
    apply h.tokens_le
    intro u hu
    exact (hfree ▸ h.guards).not_inside_of_free u hu.critical
  guards := (hfree ▸ h.guards).update_lock
  threads := (Function.forall_update_iff s.pc fun _ q => PcInRange _ q).mpr
    ⟨hpc.of_le le_rfl rfl, fun u _ => (h.threads u).of_le le_rfl rfl⟩

/-- The holder gives the mutex back, with the count within the capacity. -/
theorem inRange_unlock (h : InRange s) (hpc₀ : s.pc t = pc₀) (hcrit : pc₀.Critical)
    (hpc : PcInRange s.bucket pc) (hout : ¬ pc.Critical)
    (hle : s.bucket.tokens ≤ s.bucket.capacity) :
    InRange
      { bucket := { s.bucket with refillMutex := none }, pc := Function.update s.pc t pc } where
  tokens_nonneg := h.tokens_nonneg
  capacity_nonneg := h.capacity_nonneg
  rate_nonneg := h.rate_nonneg
  tokens_le _ := hle
  guards := h.guards.update_unlock (hpc₀ ▸ hcrit) hout
  threads := (Function.forall_update_iff s.pc fun _ q => PcInRange _ q).mpr
    ⟨hpc.of_le le_rfl rfl, fun u _ => (h.threads u).of_le le_rfl rfl⟩

/-- Tokens are taken by compare-and-swap, whatever the other threads are doing. -/
theorem inRange_consume (h : InRange s) {k : ℤ} (hcas : s.pc t = .acquireCas k s.bucket.tokens)
    (hk : 0 ≤ k) (hle : k ≤ s.bucket.tokens) :
    InRange
      { bucket := { s.bucket with
          tokens := s.bucket.tokens - k, granted := s.bucket.granted + 1
          consumed := s.bucket.consumed + k }
        pc := Function.update s.pc t .idle } where
  tokens_nonneg := Int.sub_nonneg_of_le hle
  capacity_nonneg := h.capacity_nonneg
  rate_nonneg := h.rate_nonneg
  tokens_le hnone := by
    have hidle : InRange { bucket := s.bucket, pc := Function.update s.pc t .idle } :=
      inRange_local h hcas trivial (fun hc => hc.elim) fun hc => hc.elim
    have htokens : s.bucket.tokens ≤ s.bucket.capacity := hidle.tokens_le hnone
    show s.bucket.tokens - k ≤ s.bucket.capacity
    omega
  guards := h.guards.update fun hc => absurd hc id
  threads := by
    refine (Function.forall_update_iff s.pc fun _ q => PcInRange _ q).mpr ⟨trivial, fun u _ => ?_⟩
    exact (h.threads u).of_le (Int.sub_le_self _ hk) rfl

/-- **One step of a thread keeps the count in range.** -/
theorem inRange_run (h : InRange s) (hpc₀ : s.pc t = pc₀)
    (hstep : threadStep s.bucket t pc₀ = some (b, pc)) :
    InRange { bucket := b, pc := Function.update s.pc t pc } := by
  have ht : PcInRange s.bucket pc₀ := hpc₀ ▸ h.threads t
  have hcapacity := h.capacity_nonneg
  -- a refill that holds the mutex finds the count within the capacity
  have hle : pc₀.Critical → ¬ pc₀.Configuring → s.bucket.tokens ≤ s.bucket.capacity :=
    fun hcrit hconf => h.tokens_le_of_critical (hpc₀ ▸ hcrit) (hpc₀ ▸ hconf)
  cases pc₀ with
  | idle => cases hstep
  | refillNow k | acquireLoad k =>
    cases hstep
    exact inRange_local h hpc₀ ht (fun hc => hc.elim) fun hc => hc.elim
  | refillCheck k now =>
    cases hstep
    split
    · exact inRange_local h hpc₀ ht (fun hc => hc.elim) fun hc => hc.elim
    · exact inRange_local h hpc₀ ht (fun hc => hc.elim) fun hc => hc.elim
  | refillLock k | configLock c r =>
    obtain ⟨hfree, hsome⟩ := Option.ite_none_right_eq_some.mp hstep
    cases hsome
    exact inRange_lock h hfree ht
  | refillNow2 k =>
    cases hstep
    exact inRange_local h hpc₀ ht (fun _ => trivial) fun hc => hc.elim
  | refillCheck2 k now2 =>
    cases hstep
    split
    · exact inRange_local h hpc₀ ht (fun _ => trivial) fun hc => hc.elim
    · exact inRange_local h hpc₀ ⟨ht, by omega⟩ (fun _ => trivial) fun hc => hc.elim
  | refillLoad k now2 elapsed =>
    cases hstep
    have hadded : 0 ≤ elapsed * s.bucket.refillRate := Int.mul_nonneg ht.2.le h.rate_nonneg
    exact inRange_local h hpc₀ ⟨ht.1, Int.add_nonneg h.tokens_nonneg hadded⟩ (fun _ => trivial)
      fun hc => hc.elim
  | refillClamp k now2 loaded newTokens =>
    cases hstep
    split
    · exact inRange_local h hpc₀ ⟨ht.1, hcapacity, le_rfl⟩ (fun _ => trivial) fun hc => hc.elim
    · exact inRange_local h hpc₀ ⟨ht.1, ht.2, by omega⟩ (fun _ => trivial) fun hc => hc.elim
  | refillStore k now2 loaded newTokens =>
    cases hstep
    -- the store may undo what consumers did since the load, but the count stored is in range
    exact inRange_critical h hpc₀ trivial rfl ht.2.1 hcapacity h.rate_nonneg ht.1 (.inr ht.2.2)
  | refillStamp k now2 =>
    cases hstep
    exact inRange_critical h hpc₀ trivial rfl h.tokens_nonneg hcapacity h.rate_nonneg ht
      (.inr (hle trivial id))
  | refillUnlock k =>
    cases hstep
    exact inRange_unlock h hpc₀ trivial ht id (hle trivial id)
  | acquireCas k expected =>
    -- the loop gives up, the exchange succeeds, or it fails and the count is looked at again
    simp only [threadStep] at hstep
    split_ifs at hstep with hfew hequal
    · cases hstep
      exact inRange_local h hpc₀ trivial (fun hc => hc.elim) fun hc => hc.elim
    · subst hequal
      cases hstep
      exact inRange_consume h hpc₀ ht (not_lt.mp hfew)
    · cases hstep
      exact inRange_local h hpc₀ ht (fun hc => hc.elim) fun hc => hc.elim
  | configCapacity c r =>
    cases hstep
    -- from here to the trimming the count may be above the capacity
    exact inRange_critical h hpc₀ trivial rfl h.tokens_nonneg ht.1 h.rate_nonneg ht.2
      (.inl trivial)
  | configRate r =>
    cases hstep
    exact inRange_critical h hpc₀ trivial rfl h.tokens_nonneg hcapacity ht trivial (.inl trivial)
  | configLoad =>
    cases hstep
    exact inRange_local h hpc₀ le_rfl (fun _ => trivial) fun _ => trivial
  | configStore current =>
    cases hstep
    split
    · exact inRange_critical h hpc₀ trivial rfl hcapacity hcapacity h.rate_nonneg le_rfl
        (.inl trivial)
    · -- the loaded count was within the capacity, and only smaller ones have followed
      have htrimmed : s.bucket.tokens ≤ s.bucket.capacity := ht.trans (by omega)
      exact inRange_local h hpc₀ htrimmed (fun _ => trivial) fun _ => trivial
  | configUnlock =>
    cases hstep
    exact inRange_unlock h hpc₀ trivial trivial id ht

/-- One action keeps the count in range. -/
theorem inRange_step (s : State) (a : Action) (s' : State) (h : InRange s) (hok : a.Nonneg)
    (hstep : step s a = some s') : InRange s' := by
  cases a with
  | tick ns =>
    simp only [step, Option.some.injEq] at hstep
    subst hstep
    exact { h with threads := fun u => (h.threads u).of_le le_rfl rfl }
  | call t op =>
    simp only [step, Option.ite_none_right_eq_some, Option.some.injEq] at hstep
    obtain ⟨hidle, rfl⟩ := hstep
    cases op with
    | tryAcquire k => exact inRange_local h hidle hok (fun hc => hc.elim) fun hc => hc.elim
    | updateConfig c r => exact inRange_local h hidle hok (fun hc => hc.elim) fun hc => hc.elim
  | run t =>
    simp only [step, Option.map_eq_some_iff] at hstep
    obtain ⟨⟨b, pc⟩, hthread, rfl⟩ := hstep
    exact inRange_run h rfl hthread
  | spurious t =>
    have ht := h.threads t
    cases hpc : s.pc t with
    | acquireCas k expected =>
      simp only [step, hpc, Option.ite_none_right_eq_some, Option.some.injEq] at hstep
      obtain ⟨-, rfl⟩ := hstep
      rw [hpc] at ht
      exact inRange_local h hpc ht (fun hc => hc.elim) fun hc => hc.elim
    | _ => simp [step, hpc] at hstep

/-- The bucket starts full, which is in range. -/
theorem inRange_init {C R : ℤ} (hC : 0 ≤ C) (hR : 0 ≤ R) (t0 : ℤ) : InRange (init C R t0) where
  tokens_nonneg := hC
  capacity_nonneg := hC
  rate_nonneg := hR
  tokens_le _ := le_rfl
  guards _ ht := ht.elim
  threads _ := trivial

/-- **The token count stays in range.** For every capacity and rate, any number of threads calling
`try_acquire` and `update_config` with arguments that are not negative, and every interleaving of
their steps, in every state reached: the count is not negative, and it is at most the capacity
unless a thread is inside the critical section of `update_config`. -/
theorem tokens_in_range {C R t0 : ℤ} (hC : 0 ≤ C) (hR : 0 ≤ R) {as : List Action} {s : State}
    (hargs : ∀ a ∈ as, a.Nonneg) (hrun : run step (init C R t0) as = some s) :
    0 ≤ s.bucket.tokens ∧
      ((∀ t, ¬ (s.pc t).Configuring) → s.bucket.tokens ≤ s.bucket.capacity) := by
  have h : InRange s :=
    invariant_run inRange_step (inRange_init hC hR t0) (respects_of_forall hargs) hrun
  exact ⟨h.tokens_nonneg, h.tokens_le⟩

/-- While one thread refills, another lowers the capacity from 5 to 2 and trims the count. -/
theorem tokens_in_range_lowered :
    ∃ s, run step (init 5 1 0) ([Action.tick 1000000000, .call 0 (.tryAcquire 4), .run 0, .run 0,
        .call 1 (.updateConfig 2 1)] ++ List.replicate 6 (Action.run 1)
        ++ List.replicate 8 (Action.run 0)) = some s ∧
      0 ≤ s.bucket.tokens ∧
      ((∀ t, ¬ (s.pc t).Configuring) → s.bucket.tokens ≤ s.bucket.capacity) := by
  obtain ⟨s, hs⟩ := Option.isSome_iff_exists.mp (show (run step (init 5 1 0)
    ([Action.tick 1000000000, .call 0 (.tryAcquire 4), .run 0, .run 0, .call 1 (.updateConfig 2 1)]
      ++ List.replicate 6 (Action.run 1) ++ List.replicate 8 (Action.run 0))).isSome = true by
    decide +kernel)
  exact ⟨s, hs, tokens_in_range (by decide) (by decide) (by decide +kernel) hs⟩

end TokenBucketSteps

end AiSwitch
