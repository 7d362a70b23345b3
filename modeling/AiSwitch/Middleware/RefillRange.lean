import AiSwitch.Middleware.TokenRange

/-!
# The arithmetic of a refill

A refill multiplies the seconds since the last one with the rate and adds the product to the count,
in 64 bits, and only then compares the sum with the capacity. `refillSafe_iff` says for which
limits that is safe up to a given time after the construction, in any interleaving of calls.
-/

namespace AiSwitch

open Transition

namespace TokenBucketSteps

/-- The call is one of `try_acquire`, with an argument that is not negative. -/
def Action.Acquires : Action → Prop
  | .call _ (.tryAcquire k) => 0 ≤ k
  | .call _ (.updateConfig ..) => False
  | _ => True

instance (a : Action) : Decidable a.Acquires :=
  match a with
  | .call _ (.tryAcquire k) => inferInstanceAs (Decidable (0 ≤ k))
  | .call _ (.updateConfig ..) => isFalse id
  | .tick _ | .run _ | .spurious _ => isTrue trivial

/-- What a refill in progress computes fits into 64 bits, and what it stores is within the capacity
and at least what it loaded. -/
def Pc.RefillSafe (b : Shared) : Pc → Prop
  | .refillLoad _ _ elapsed =>
    InInt64 (elapsed * b.refillRate) ∧ InInt64 (b.tokens + elapsed * b.refillRate)
  | .refillStore _ _ loaded newTokens =>
    0 ≤ newTokens ∧ newTokens ≤ b.capacity ∧ loaded ≤ newTokens
  | _ => True

/-- What a thread knows about the times it has read and the count it has loaded. -/
def PcTimed (C t0 : ℤ) (b : Shared) : Pc → Prop
  | .refillCheck2 _ now2 => now2 ≤ b.clock
  | .refillLoad _ now2 elapsed => t0 ≤ now2 ∧ elapsed ≤ elapsedSeconds (b.clock - t0)
  | .refillClamp _ now2 loaded newTokens => t0 ≤ now2 ∧ loaded ≤ C ∧ loaded ≤ newTokens
  | .refillStore _ now2 loaded newTokens => t0 ≤ now2 ∧ loaded ≤ newTokens
  | .refillStamp _ now2 => t0 ≤ now2
  | .configLock .. | .configCapacity .. | .configRate _ | .configLoad | .configStore _
  | .configUnlock => False
  | .idle | .refillNow _ | .refillCheck .. | .refillLock _ | .refillNow2 _ | .refillUnlock _
  | .acquireLoad _ | .acquireCas .. => True

/-- The limits stay as constructed, and no time that is stored lies before the construction. -/
structure Timed (C R t0 : ℤ) (s : State) : Prop where
  inRange : InRange s
  capacity_eq : s.bucket.capacity = C
  rate_eq : s.bucket.refillRate = R
  start_le : t0 ≤ s.bucket.lastRefill
  clock_le : t0 ≤ s.bucket.clock
  threads : ∀ t, PcTimed C t0 s.bucket (s.pc t)

variable {C R t0 : ℤ} {s s' : State} {t : ℕ} {b : Shared} {pc pc₀ : Pc}

/-- A call of `try_acquire` asks for no negative number of tokens. -/
theorem Action.Acquires.nonneg {a : Action} (h : a.Acquires) : a.Nonneg := by
  cases a with
  | call t op => cases op with
    | tryAcquire k => exact h
    | updateConfig c r => exact h.elim
  | tick | run | spurious => trivial

/-- What a thread knows depends on the bucket through the clock alone, which only advances. -/
theorem PcTimed.of_clock_le (h : PcTimed C t0 b pc) (ht0 : t0 ≤ b.clock) {b' : Shared}
    (hclock : b.clock ≤ b'.clock) : PcTimed C t0 b' pc := by
  cases pc with
  | refillCheck2 => exact h.trans hclock
  | refillLoad => exact ⟨h.1, h.2.trans (elapsedSeconds_mono (by omega) (by omega))⟩
  | _ => exact h

/-! ## Preservation -/

/-- A step of a thread changes neither the limits nor the clock. -/
theorem timed_run (h : Timed C R t0 s) (hpc₀ : s.pc t = pc₀)
    (hstep : threadStep s.bucket t pc₀ = some (b, pc)) :
    b.capacity = C ∧ b.refillRate = R ∧ t0 ≤ b.lastRefill ∧ b.clock = s.bucket.clock ∧
      PcTimed C t0 b pc := by
  have hcapacity := h.capacity_eq
  have hrate := h.rate_eq
  have hstart := h.start_le
  have hclock := h.clock_le
  have ht : PcTimed C t0 s.bucket pc₀ := hpc₀ ▸ h.threads t
  have hrange : PcInRange s.bucket pc₀ := hpc₀ ▸ h.inRange.threads t
  cases pc₀ with
  | idle => cases hstep
  | configLock | configCapacity | configRate | configLoad | configStore | configUnlock =>
    exact ht.elim
  | refillNow | refillUnlock | acquireLoad =>
    cases hstep
    exact ⟨hcapacity, hrate, hstart, rfl, trivial⟩
  | refillCheck k now =>
    cases hstep
    split <;> exact ⟨hcapacity, hrate, hstart, rfl, trivial⟩
  | refillLock k =>
    obtain ⟨-, hsome⟩ := Option.ite_none_right_eq_some.mp hstep
    cases hsome
    exact ⟨hcapacity, hrate, hstart, rfl, trivial⟩
  | refillNow2 k =>
    cases hstep
    exact ⟨hcapacity, hrate, hstart, rfl, le_rfl⟩
  | refillCheck2 k now2 =>
    cases hstep
    split
    · exact ⟨hcapacity, hrate, hstart, rfl, trivial⟩
    · -- the time since the last refill lies within the time since the construction
      have hspan := pos_of_elapsedSeconds_pos (d := now2 - s.bucket.lastRefill) (by omega)
      have hnow2 : now2 ≤ s.bucket.clock := ht
      exact ⟨hcapacity, hrate, hstart, rfl, by omega, elapsedSeconds_mono hspan.le (by omega)⟩
  | refillLoad k now2 elapsed =>
    cases hstep
    have hadded : 0 ≤ elapsed * s.bucket.refillRate :=
      Int.mul_nonneg hrange.2.le h.inRange.rate_nonneg
    have hloaded : s.bucket.tokens ≤ s.bucket.capacity :=
      h.inRange.tokens_le_of_critical (t := t) (by rw [hpc₀]; trivial) (by rw [hpc₀]; exact id)
    exact ⟨hcapacity, hrate, hstart, rfl, ht.1, by omega, by omega⟩
  | refillClamp k now2 loaded newTokens =>
    cases hstep
    refine ⟨hcapacity, hrate, hstart, rfl, ht.1, ?_⟩
    split
    · exact hcapacity ▸ ht.2.1
    · exact ht.2.2
  | refillStore k now2 loaded newTokens =>
    cases hstep
    exact ⟨hcapacity, hrate, hstart, rfl, ht.1⟩
  | refillStamp k now2 =>
    cases hstep
    exact ⟨hcapacity, hrate, ht, rfl, trivial⟩
  | acquireCas k expected =>
    simp only [threadStep] at hstep
    split_ifs at hstep <;> cases hstep <;> exact ⟨hcapacity, hrate, hstart, rfl, trivial⟩

/-- One action keeps the invariant. -/
theorem timed_step (s : State) (a : Action) (s' : State) (h : Timed C R t0 s) (hok : a.Acquires)
    (hstep : step s a = some s') : Timed C R t0 s' := by
  have hrange := inRange_step s a s' h.inRange hok.nonneg hstep
  cases a with
  | tick ns =>
    simp only [step, Option.some.injEq] at hstep
    subst hstep
    have hle : s.bucket.clock ≤ s.bucket.clock + ns := by omega
    exact ⟨hrange, h.capacity_eq, h.rate_eq, h.start_le, h.clock_le.trans hle,
      fun u => (h.threads u).of_clock_le h.clock_le hle⟩
  | call t op =>
    simp only [step, Option.ite_none_right_eq_some, Option.some.injEq] at hstep
    obtain ⟨-, rfl⟩ := hstep
    cases op with
    | updateConfig => exact hok.elim
    | tryAcquire k =>
      refine ⟨hrange, h.capacity_eq, h.rate_eq, h.start_le, h.clock_le, ?_⟩
      exact (Function.forall_update_iff s.pc fun _ q => PcTimed C t0 s.bucket q).mpr
        ⟨trivial, fun u _ => h.threads u⟩
  | run t =>
    simp only [step, Option.map_eq_some_iff] at hstep
    obtain ⟨⟨b, pc⟩, hthread, rfl⟩ := hstep
    obtain ⟨hcapacity, hrate, hstart, hclock, hpc⟩ := timed_run h rfl hthread
    refine ⟨hrange, hcapacity, hrate, hstart, hclock ▸ h.clock_le, ?_⟩
    exact (Function.forall_update_iff s.pc fun _ q => PcTimed C t0 b q).mpr
      ⟨hpc, fun u _ => (h.threads u).of_clock_le h.clock_le hclock.ge⟩
  | spurious t =>
    cases hpc : s.pc t with
    | acquireCas k expected =>
      simp only [step, hpc, Option.ite_none_right_eq_some, Option.some.injEq] at hstep
      obtain ⟨-, rfl⟩ := hstep
      refine ⟨hrange, h.capacity_eq, h.rate_eq, h.start_le, h.clock_le, ?_⟩
      exact (Function.forall_update_iff s.pc fun _ q => PcTimed C t0 s.bucket q).mpr
        ⟨trivial, fun u _ => h.threads u⟩
    | _ => simp [step, hpc] at hstep

/-- The invariant holds at the start. -/
theorem timed_init (hC : 0 ≤ C) (hR : 0 ≤ R) (t0 : ℤ) : Timed C R t0 (init C R t0) :=
  ⟨inRange_init hC hR t0, rfl, rfl, le_rfl, le_rfl, fun _ => trivial⟩

/-! ## Which limits are safe -/

/-- The largest sum that a refill can compute within `T` seconds of the construction. -/
theorem refillSafe_of_timed (h : Timed C R t0 s) {T : ℕ}
    (htime : elapsedSeconds (s.bucket.clock - t0) ≤ T) (hfits : T = 0 ∨ C + T * R < 2 ^ 63)
    (t : ℕ) : (s.pc t).RefillSafe s.bucket := by
  have ht := h.threads t
  have hrange := h.inRange.threads t
  cases hpc : s.pc t with
  | refillLoad k now2 elapsed =>
    rw [hpc] at ht hrange
    have hrate : 0 ≤ R := h.rate_eq ▸ h.inRange.rate_nonneg
    have htokens : s.bucket.tokens ≤ s.bucket.capacity :=
      h.inRange.tokens_le_of_critical (t := t) (by rw [hpc]; trivial) (by rw [hpc]; exact id)
    have hpos : 0 ≤ s.bucket.tokens := h.inRange.tokens_nonneg
    have hadded : 0 ≤ elapsed * R := Int.mul_nonneg hrange.2.le hrate
    have hmul : elapsed * R ≤ T * R := Int.mul_le_mul_of_nonneg_right (ht.2.trans htime) hrate
    have hcapacity := h.capacity_eq
    have hsum : C + T * R < 2 ^ 63 := by
      refine hfits.resolve_left fun hzero => ?_
      have := hrange.2
      have := ht.2
      omega
    rw [Pc.RefillSafe, h.rate_eq]
    exact ⟨⟨by omega, by omega⟩, by omega, by omega⟩
  | refillStore k now2 loaded newTokens =>
    rw [hpc] at ht hrange
    exact ⟨hrange.2.1, hrange.2.2, ht.2⟩
  | _ => trivial

/-- A call to a full bucket, the first one for `T` seconds, up to the addition. -/
def firstCall (T : ℕ) : List Action :=
  [.tick (T * 1000000000), .call 0 (.tryAcquire 1), .run 0, .run 0, .run 0, .run 0, .run 0]

/-- A first call after `T` seconds comes to where the refill is computed. -/
theorem run_firstCall {T : ℕ} (hT : 0 < T) :
    ∃ s now2, run step (init C R t0) (firstCall T) = some s ∧ s.pc 0 = .refillLoad 1 now2 T ∧
      s.bucket.tokens = C ∧ s.bucket.refillRate = R ∧ elapsedSeconds (s.bucket.clock - t0) = T := by
  have helapsed : elapsedSeconds (t0 + (T * 1000000000 : ℕ) - t0) = T := by
    rw [add_sub_cancel_left, elapsedSeconds]
    push_cast
    exact Int.mul_tdiv_cancel _ (by decide)
  have hlate : ¬ elapsedSeconds (t0 + (T * 1000000000 : ℕ) - t0) ≤ 0 := by omega
  let b : Shared := { (init C R t0).bucket with clock := t0 + (T * 1000000000 : ℕ) }
  have hcheck : threadStep b 0 (.refillCheck 1 b.clock) = some (b, .refillLock 1) := by
    rw [threadStep]
    exact congrArg (fun pc => some (b, pc)) (if_neg hlate)
  have hcheck2 : threadStep { b with refillMutex := some 0 } 0 (.refillCheck2 1 b.clock)
      = some ({ b with refillMutex := some 0 }, .refillLoad 1 b.clock T) := by
    rw [threadStep]
    exact congrArg (fun pc => some (_, pc)) ((if_neg hlate).trans (congrArg _ helapsed))
  refine ⟨{ bucket := { b with refillMutex := some 0 }
            pc := Function.update (fun _ => .idle) 0 (.refillLoad 1 b.clock T) }, b.clock,
    ?_, rfl, rfl, rfl, helapsed⟩
  refine run_cons.mpr ⟨_, rfl, run_cons.mpr ⟨_, rfl, ?_⟩⟩
  refine run_cons.mpr ⟨_, step_run rfl _, run_cons.mpr ⟨_, step_run hcheck _, ?_⟩⟩
  refine run_cons.mpr ⟨_, step_run rfl _, run_cons.mpr ⟨_, step_run rfl _, ?_⟩⟩
  exact run_cons.mpr ⟨_, step_run hcheck2 _, rfl⟩

/-- **Which limits a refill can handle.** For every capacity and rate, in all interleavings of calls
of `try_acquire` during the first `T` seconds after the construction: every refill stays within 64
bits, and stores a count within the capacity that is not smaller than the one it loaded, if and
only if `T` is zero or the capacity and the rate for `T` seconds are together less than `2 ^ 63`. -/
theorem refillSafe_iff (hC : 0 ≤ C) (hR : 0 ≤ R) (t0 : ℤ) (T : ℕ) :
    (∀ as s, (∀ a ∈ as, a.Acquires) → run step (init C R t0) as = some s →
      elapsedSeconds (s.bucket.clock - t0) ≤ T → ∀ t, (s.pc t).RefillSafe s.bucket) ↔
      T = 0 ∨ C + T * R < 2 ^ 63 := by
  constructor
  · intro hsafe
    rw [or_iff_not_imp_left]
    intro hT
    obtain ⟨s, now2, hrun, hpc, htokens, hrate, htime⟩ := run_firstCall (Nat.pos_of_ne_zero hT)
    have hfits := hsafe (firstCall T) s (by simp [firstCall, Action.Acquires]) hrun htime.le 0
    rw [hpc, Pc.RefillSafe, htokens, hrate] at hfits
    exact hfits.2.2
  · intro hfits as s hargs hrun htime
    have h : Timed C R t0 s :=
      invariant_run timed_step (timed_init hC hR t0) (respects_of_forall hargs) hrun
    exact refillSafe_of_timed h htime hfits

/-- The default limits are safe for a thousand years. -/
theorem refillSafe_iff_default_limits :
    (∀ as s, (∀ a ∈ as, a.Acquires) → run step (init 10 5 0) as = some s →
      elapsedSeconds (s.bucket.clock - 0) ≤ (31557600000 : ℕ) →
        ∀ t, (s.pc t).RefillSafe s.bucket) ↔
      31557600000 = 0 ∨ (10 : ℤ) + (31557600000 : ℕ) * 5 < 2 ^ 63 :=
  refillSafe_iff (by decide) (by decide) 0 31557600000

/-- A capacity meant to be unlimited: the first refill overflows. -/
theorem not_refillSafe_unlimited :
    ∃ as s, (∀ a ∈ as, a.Acquires) ∧ run step (init (2 ^ 63 - 1) 1 0) as = some s ∧
      ¬ (s.pc 0).RefillSafe s.bucket := by
  obtain ⟨s, now2, hrun, hpc, htokens, hrate, -⟩ :=
    @run_firstCall (2 ^ 63 - 1) 1 0 1 (by decide)
  refine ⟨firstCall 1, s, by decide, hrun, ?_⟩
  rw [hpc, Pc.RefillSafe, htokens, hrate]
  decide

end TokenBucketSteps

end AiSwitch
