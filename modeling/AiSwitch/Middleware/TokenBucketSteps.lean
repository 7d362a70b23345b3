import AiSwitch.Common.Mutex
import AiSwitch.Common.Transition
import AiSwitch.Middleware.RateLimiter
import Mathlib.Logic.Function.Basic
import Mathlib.Tactic.Linarith

/-!
# The token bucket, one atomic step at a time

`token_bucket` (`middleware/rate_limiter.cpp`) consumes tokens by compare-and-swap without a lock
and refills them by a load, an addition and a store under `refill_mutex_`. Here every load, store,
compare-exchange, clock read, lock and unlock of `try_acquire`, `refill` and `update_config` is a
step of its own, sequentially consistent, on exact integers and a clock in nanoseconds; any number
of threads interleave.

A consumption that falls between the load and the store of a refill is overwritten. `granted_le`
bounds what is granted, and shows that nothing is lost, for the schedules in which none does.
-/

namespace AiSwitch

open Mutex Transition

namespace TokenBucketSteps

/-! ## States -/

/-- A call on the bucket. -/
inductive Op where
  | tryAcquire (tokens : ℤ)
  | updateConfig (capacity refillPerSecond : ℤ)
deriving DecidableEq

/-- Where a thread stands, with its local variables. `k` is the argument of `try_acquire`, during
the `refill` it begins with. -/
inductive Pc where
  | idle
  /-- `now = clock_type::now()` -/
  | refillNow (k : ℤ)
  /-- The first check of `elapsed`. -/
  | refillCheck (k now : ℤ)
  | refillLock (k : ℤ)
  /-- `now2 = clock_type::now()` -/
  | refillNow2 (k : ℤ)
  /-- The second check of `elapsed`. -/
  | refillCheck2 (k now2 : ℤ)
  /-- `tokens_.load() + elapsed * refill_rate_` -/
  | refillLoad (k now2 elapsed : ℤ)
  /-- The comparison with `capacity_`. -/
  | refillClamp (k now2 loaded newTokens : ℤ)
  /-- `tokens_.store(new_tokens)` -/
  | refillStore (k now2 loaded newTokens : ℤ)
  /-- `last_refill_ = now2` -/
  | refillStamp (k now2 : ℤ)
  | refillUnlock (k : ℤ)
  /-- `expected = tokens_.load()` -/
  | acquireLoad (k : ℤ)
  /-- The loop condition and the compare-exchange. -/
  | acquireCas (k expected : ℤ)
  | configLock (capacity refillPerSecond : ℤ)
  | configCapacity (capacity refillPerSecond : ℤ)
  | configRate (refillPerSecond : ℤ)
  | configLoad
  /-- `tokens_.store(capacity_)` if the loaded count is larger. -/
  | configStore (current : ℤ)
  | configUnlock
deriving DecidableEq

/-- The fields of the bucket and the clock. The last three fields record the history: the calls
that have returned true, the tokens they took, and the tokens that refills have added. -/
structure Shared where
  tokens : ℤ
  capacity : ℤ
  refillRate : ℤ
  lastRefill : ℤ
  refillMutex : Option ℕ := none
  clock : ℤ
  granted : ℕ := 0
  consumed : ℤ := 0
  credited : ℤ := 0
deriving DecidableEq

/-- A bucket in use by threads numbered from `0`. -/
structure State where
  bucket : Shared
  pc : ℕ → Pc

/-- A bucket constructed at time `t0`, with no thread in it. -/
def init (capacity refillPerSecond t0 : ℤ) : State where
  bucket :=
    { tokens := capacity, capacity := capacity, refillRate := refillPerSecond,
      lastRefill := t0, clock := t0 }
  pc := fun _ => .idle

/-! ## Steps -/

/-- The first step of a call. -/
def Op.start : Op → Pc
  | .tryAcquire k => .refillNow k
  | .updateConfig c r => .configLock c r

/-- The next step of thread `t`, `none` where it has none or waits for the mutex. -/
def threadStep (b : Shared) (t : ℕ) : Pc → Option (Shared × Pc)
  | .idle => none
  | .refillNow k => some (b, .refillCheck k b.clock)
  | .refillCheck k now =>
    some (b, if elapsedSeconds (now - b.lastRefill) ≤ 0 then .acquireLoad k else .refillLock k)
  | .refillLock k =>
    if b.refillMutex = none then some ({ b with refillMutex := some t }, .refillNow2 k) else none
  | .refillNow2 k => some (b, .refillCheck2 k b.clock)
  | .refillCheck2 k now2 =>
    some (b,
      if elapsedSeconds (now2 - b.lastRefill) ≤ 0 then .refillUnlock k
      else .refillLoad k now2 (elapsedSeconds (now2 - b.lastRefill)))
  | .refillLoad k now2 elapsed =>
    some (b, .refillClamp k now2 b.tokens (b.tokens + elapsed * b.refillRate))
  | .refillClamp k now2 loaded newTokens =>
    some (b, .refillStore k now2 loaded (if b.capacity < newTokens then b.capacity else newTokens))
  | .refillStore k now2 loaded newTokens =>
    some ({ b with tokens := newTokens, credited := b.credited + (newTokens - loaded) },
      .refillStamp k now2)
  | .refillStamp k now2 => some ({ b with lastRefill := now2 }, .refillUnlock k)
  | .refillUnlock k => some ({ b with refillMutex := none }, .acquireLoad k)
  | .acquireLoad k => some (b, .acquireCas k b.tokens)
  | .acquireCas k expected =>
    if expected < k then some (b, .idle)
    else if b.tokens = expected then
      some ({ b with
        tokens := expected - k, granted := b.granted + 1, consumed := b.consumed + k }, .idle)
    else some (b, .acquireCas k b.tokens)
  | .configLock c r =>
    if b.refillMutex = none then some ({ b with refillMutex := some t }, .configCapacity c r)
    else none
  | .configCapacity c r => some ({ b with capacity := c }, .configRate r)
  | .configRate r => some ({ b with refillRate := r }, .configLoad)
  | .configLoad => some (b, .configStore b.tokens)
  | .configStore current =>
    some (if b.capacity < current then { b with tokens := b.capacity } else b, .configUnlock)
  | .configUnlock => some ({ b with refillMutex := none }, .idle)

/-- What can happen next: time passes, an idle thread makes a call, a thread takes its next step,
or its `compare_exchange_weak` fails although the values agree. -/
inductive Action where
  | tick (ns : ℕ)
  | call (t : ℕ) (op : Op)
  | run (t : ℕ)
  | spurious (t : ℕ)
deriving DecidableEq

/-- One action. -/
def step (s : State) : Action → Option State
  | .tick ns => some { s with bucket := { s.bucket with clock := s.bucket.clock + ns } }
  | .call t op =>
    if s.pc t = .idle then some { s with pc := Function.update s.pc t op.start } else none
  | .run t =>
    (threadStep s.bucket t (s.pc t)).map fun r =>
      { bucket := r.1, pc := Function.update s.pc t r.2 }
  | .spurious t =>
    match s.pc t with
    | .acquireCas k expected =>
      if k ≤ expected then
        some { s with pc := Function.update s.pc t (.acquireCas k s.bucket.tokens) }
      else none
    | _ => none

/-! ## A lone caller

A thread that is not disturbed does what the sequential bucket of `RateLimiter` does.
-/

/-- The fields that the sequential bucket has. -/
def Shared.toBucket (b : Shared) : TokenBucket where
  tokens := b.tokens
  capacity := b.capacity
  refillRate := b.refillRate
  lastRefill := b.lastRefill

/-- Some schedule without another thread takes `t` to `pc` and the fields to `b`. -/
def Reaches (s : State) (t : ℕ) (b : Shared) (pc : Pc) : Prop :=
  ∃ as, Transition.run step s as = some { bucket := b, pc := Function.update s.pc t pc }

section Lone

variable {s : State} {t : ℕ} {b b' : Shared} {pc pc' : Pc}

/-- A thread has reached where it stands. -/
theorem Reaches.refl (s : State) (t : ℕ) : Reaches s t s.bucket (s.pc t) :=
  ⟨[], by rw [Function.update_eq_self]; rfl⟩

/-- A thread that takes one more of its own steps reaches what it leads to. -/
theorem Reaches.then (h : Reaches s t b pc) {a : Action}
    (ha : step { bucket := b, pc := Function.update s.pc t pc } a
      = some { bucket := b', pc := Function.update s.pc t pc' }) : Reaches s t b' pc' := by
  obtain ⟨as, has⟩ := h
  exact ⟨as ++ [a], Transition.run_append has (run_cons.mpr ⟨_, ha, rfl⟩)⟩

/-- A thread's step is one of the bucket's. -/
theorem step_run (hstep : threadStep b t pc = some (b', pc')) (p : ℕ → Pc) :
    step { bucket := b, pc := Function.update p t pc } (.run t)
      = some { bucket := b', pc := Function.update p t pc' } := by
  simp only [step, Function.update_self, hstep, Option.map_some, Function.update_idem]

/-- A thread reaches what its next step leads to. -/
theorem Reaches.run (h : Reaches s t b pc) (hstep : threadStep b t pc = some (b', pc')) :
    Reaches s t b' pc' :=
  h.then (step_run hstep s.pc)

/-- A thread reaches the same position at any later time. -/
theorem Reaches.tick (h : Reaches s t b pc) (d : ℕ) :
    Reaches s t { b with clock := b.clock + d } pc :=
  h.then (a := .tick d) rfl

/-- `refill` as `RateLimiter` has it, with the clock advancing by `d` before the lock. -/
theorem reaches_refill (hfree : b.refillMutex = none) (k : ℤ) (d : ℕ)
    (h : Reaches s t b (.refillNow k)) :
    ∃ b', Reaches s t b' (.acquireLoad k) ∧
      b'.toBucket = b.toBucket.current b.clock (b.clock + d) ∧ b'.granted = b.granted := by
  have hcheck := h.run rfl
  by_cases hfirst : elapsedSeconds (b.clock - b.lastRefill) ≤ 0
  · refine ⟨b, hcheck.run (by rw [threadStep, if_pos hfirst]), ?_, rfl⟩
    rw [TokenBucket.current, if_neg fun hrefills => absurd hfirst (not_le.mpr hrefills.1)]
  · have hsecond : ¬ elapsedSeconds (b.clock + d - b.lastRefill) ≤ 0 := by
      have hpos := pos_of_elapsedSeconds_pos (not_le.mp hfirst)
      have hmono := elapsedSeconds_mono hpos.le
        (show b.clock - b.lastRefill ≤ b.clock + d - b.lastRefill by omega)
      omega
    have hlock := (hcheck.run (by rw [threadStep, if_neg hfirst])).tick d
    have hload := (hlock.run (by rw [threadStep, if_pos hfree])).run rfl
    have hstore := (((hload.run (by rw [threadStep, if_neg hsecond])).run rfl).run rfl).run rfl
    refine ⟨_, (hstore.run rfl).run rfl, ?_, rfl⟩
    have hrefills : b.toBucket.Refills b.clock (b.clock + d) :=
      ⟨not_le.mp hfirst, not_le.mp hsecond⟩
    rw [TokenBucket.current, if_pos hrefills]
    rfl

/-- **A lone call is sequential.** A thread that calls `try_acquire` and is not disturbed gets the
answer, and leaves the bucket, of `TokenBucket.tryAcquire`, unless that overflows. -/
theorem reaches_tryAcquire (hidle : s.pc t = .idle) (hfree : s.bucket.refillMutex = none) (k : ℤ)
    (d : ℕ) {r : Bool} {b' : TokenBucket}
    (h : s.bucket.toBucket.tryAcquire k s.bucket.clock (s.bucket.clock + d) = .ok (r, b')) :
    ∃ b, Reaches s t b .idle ∧ b.toBucket = b' ∧ b.granted = s.bucket.granted + r.toNat := by
  have hdef : s.bucket.toBucket.Defined s.bucket.clock (s.bucket.clock + d) := by
    by_contra hdef
    rw [TokenBucket.tryAcquire_of_not_defined hdef] at h
    cases h
  have hcall : Reaches s t s.bucket (.refillNow k) :=
    (Reaches.refl s t).then (a := .call t (.tryAcquire k))
      (by rw [Function.update_eq_self, step, if_pos hidle]; rfl)
  obtain ⟨b, hb, hbucket, hgranted⟩ := reaches_refill hfree k d hcall
  rw [TokenBucket.tryAcquire_of_defined hdef, ← hbucket, show b.toBucket.tokens = b.tokens from rfl]
    at h
  have hcas := hb.run rfl
  by_cases hk : b.tokens < k
  · rw [if_neg (not_le.mpr hk)] at h
    cases h
    exact ⟨_, hcas.run (by rw [threadStep, if_pos hk]), rfl, hgranted⟩
  · rw [if_pos (not_lt.mp hk)] at h
    cases h
    refine ⟨_, hcas.run (by rw [threadStep, if_neg hk, if_pos rfl]), rfl, ?_⟩
    simp [hgranted]

end Lone

/-! ## Conditions on a schedule -/

/-- The calls are `try_acquire(1)`. -/
def Action.AcquiresOne : Action → Prop
  | .call _ op => op = .tryAcquire 1
  | _ => True

/-- The thread holds a token count that it is going to store. -/
def Pc.InWindow : Pc → Prop
  | .refillClamp .. | .refillStore .. => True
  | _ => False

instance : DecidablePred Pc.InWindow := fun pc => by
  cases pc <;> first | exact isTrue trivial | exact isFalse id

/-- The action is a successful compare-exchange. -/
def Consumes (s : State) : Action → Prop
  | .run t =>
    match s.pc t with
    | .acquireCas k expected => k ≤ expected ∧ s.bucket.tokens = expected
    | _ => False
  | _ => False

/-- No token is taken between the load and the store of a refill: the thread that holds the mutex
is not in that window. -/
def Exclusive (s : State) (a : Action) : Prop :=
  Consumes s a → ∀ t ∈ s.bucket.refillMutex, ¬ (s.pc t).InWindow

instance (a : Action) : Decidable a.AcquiresOne :=
  match a with
  | .call _ op => inferInstanceAs (Decidable (op = .tryAcquire 1))
  | .tick _ | .run _ | .spurious _ => isTrue trivial

instance (s : State) (a : Action) : Decidable (Consumes s a) := by
  cases a with
  | run t => exact match h : s.pc t with
    | .acquireCas k expected =>
      decidable_of_iff (k ≤ expected ∧ s.bucket.tokens = expected) (by simp [Consumes, h])
    | .idle | .refillNow _ | .refillCheck .. | .refillLock _ | .refillNow2 _ | .refillCheck2 ..
    | .refillLoad .. | .refillClamp .. | .refillStore .. | .refillStamp .. | .refillUnlock _
    | .acquireLoad _ | .configLock .. | .configCapacity .. | .configRate _ | .configLoad
    | .configStore _ | .configUnlock => isFalse (by simp [Consumes, h])
  | tick | call | spurious => exact isFalse id

instance (s : State) (a : Action) : Decidable (Exclusive s a) :=
  inferInstanceAs (Decidable (Consumes s a → ∀ t ∈ s.bucket.refillMutex, ¬ (s.pc t).InWindow))

/-! ## The invariant -/

/-- The thread is between the lock and the unlock. -/
def Pc.Critical : Pc → Prop
  | .refillNow2 _ | .refillCheck2 .. | .refillLoad .. | .refillClamp .. | .refillStore ..
  | .refillStamp .. | .refillUnlock _ | .configCapacity .. | .configRate _ | .configLoad
  | .configStore _ | .configUnlock => True
  | _ => False

/-- The thread has stored a refill but not yet its time. -/
def Pc.Stamping : Pc → Prop
  | .refillStamp .. => True
  | _ => False

/-- What holds of the fields: tokens are only granted or added, and every grant took one. -/
structure BucketOk (C R t0 : ℤ) (b : Shared) : Prop where
  capacity_eq : b.capacity = C
  rate_eq : b.refillRate = R
  tokens_nonneg : 0 ≤ b.tokens
  granted_eq : (b.granted : ℤ) = b.consumed
  conserved : b.tokens + b.consumed = C + b.credited
  start_le : t0 ≤ b.lastRefill
  last_le : b.lastRefill ≤ b.clock

/-- A refill in progress at `now2`: at least a second has passed, and the count to be stored is at
most what that time allows. -/
structure Refilling (b : Shared) (now2 loaded newTokens : ℤ) : Prop where
  now_le : now2 ≤ b.clock
  loaded_eq : loaded = b.tokens
  elapsed_pos : 0 < elapsedSeconds (now2 - b.lastRefill)
  new_le : newTokens ≤ loaded + elapsedSeconds (now2 - b.lastRefill) * b.refillRate

/-- What holds of a thread that calls `try_acquire(1)`. -/
def PcOk (t0 : ℤ) (b : Shared) : Pc → Prop
  | .idle => True
  | .refillNow k | .refillCheck k _ | .refillLock k | .refillNow2 k | .refillUnlock k
  | .acquireLoad k | .acquireCas k _ => k = 1
  | .refillCheck2 k now2 => k = 1 ∧ now2 ≤ b.clock
  | .refillLoad k now2 elapsed =>
    k = 1 ∧ now2 ≤ b.clock ∧ elapsed = elapsedSeconds (now2 - b.lastRefill) ∧ 0 < elapsed
  | .refillClamp k now2 loaded newTokens | .refillStore k now2 loaded newTokens =>
    k = 1 ∧ 0 ≤ newTokens ∧ Refilling b now2 loaded newTokens
  | .refillStamp k now2 =>
    k = 1 ∧ now2 ≤ b.clock ∧ b.lastRefill ≤ now2 ∧
      b.credited ≤ b.refillRate * elapsedSeconds (now2 - t0)
  | .configLock .. | .configCapacity .. | .configRate _ | .configLoad | .configStore _
  | .configUnlock => False

/-- The invariant. Outside the moment between the two stores of a refill, what refills have added
is accounted for by the time up to `last_refill_`. -/
structure Inv (C R t0 : ℤ) (s : State) : Prop where
  bucket : BucketOk C R t0 s.bucket
  credited_le : (∀ t, ¬ (s.pc t).Stamping) →
    s.bucket.credited ≤ R * elapsedSeconds (s.bucket.lastRefill - t0)
  holder : ∀ t, (s.pc t).Critical → s.bucket.refillMutex = some t
  threads : ∀ t, PcOk t0 s.bucket (s.pc t)

section Preservation

variable {C R t0 : ℤ} {s : State} {t : ℕ} {b : Shared} {pc pc₀ : Pc}

/-- A thread that stamps the time is in the critical section. -/
theorem Pc.Stamping.critical (h : pc.Stamping) : pc.Critical := by
  cases pc <;> first | exact trivial | exact h.elim

/-- A thread that is going to store a number of tokens is in the critical section. -/
theorem Pc.InWindow.critical (h : pc.InWindow) : pc.Critical := by
  cases pc <;> first | exact trivial | exact h.elim

/-- Outside the critical section nothing about a thread depends on the bucket. -/
theorem PcOk.of_not_critical (h : PcOk t0 b pc) (hpc : ¬ pc.Critical) (b' : Shared) :
    PcOk t0 b' pc := by
  cases pc <;> first | exact h | exact absurd trivial hpc

/-- Only a thread that is going to store a count depends on the count. -/
theorem PcOk.of_not_inWindow (h : PcOk t0 b pc) (hpc : ¬ pc.InWindow) (tokens : ℤ) (granted : ℕ)
    (consumed : ℤ) :
    PcOk t0 { b with tokens := tokens, granted := granted, consumed := consumed } pc := by
  cases pc <;> first | exact h | exact absurd trivial hpc

/-- The clock readings of a thread stay in the past. -/
theorem PcOk.tick (h : PcOk t0 b pc) (ns : ℕ) : PcOk t0 { b with clock := b.clock + ns } pc := by
  have hle : b.clock ≤ b.clock + ns := by omega
  cases pc with
  | refillCheck2 => exact ⟨h.1, h.2.trans hle⟩
  | refillLoad | refillStamp => exact ⟨h.1, h.2.1.trans hle, h.2.2⟩
  | refillClamp | refillStore => exact ⟨h.1, h.2.1, { h.2.2 with now_le := h.2.2.now_le.trans hle }⟩
  | _ => exact h

/-- The mutex guards the critical section. -/
theorem Inv.guards (h : Inv C R t0 s) :
    Guards (fun t => (s.pc t).Critical) s.bucket.refillMutex := h.holder

/-- In the critical section, before the second store, everything added is accounted for. -/
theorem Inv.credited_le_of_critical (h : Inv C R t0 s) (hpc₀ : s.pc t = pc₀)
    (hcrit : pc₀.Critical) (hstamp : ¬ pc₀.Stamping) :
    s.bucket.credited ≤ R * elapsedSeconds (s.bucket.lastRefill - t0) := by
  apply h.credited_le
  intro u hu
  by_cases hut : u = t
  · rw [hut, hpc₀] at hu
    exact hstamp hu
  · exact h.guards.not_inside (hpc₀ ▸ hcrit) hut hu.critical

/-! ## Preservation

A step of thread `t` takes it from `pc₀` to `pc`.
-/

/-- A thread that moves on without touching the bucket keeps the invariant. -/
theorem inv_local (h : Inv C R t0 s) (hpc₀ : s.pc t = pc₀) (hpc : PcOk t0 s.bucket pc)
    (hcrit : pc.Critical → pc₀.Critical) (hstamp : ¬ pc₀.Stamping) :
    Inv C R t0 { bucket := s.bucket, pc := Function.update s.pc t pc } where
  bucket := h.bucket
  credited_le hnone := by
    apply h.credited_le
    intro u
    by_cases hut : u = t
    · rwa [hut, hpc₀]
    · simpa [Function.update_of_ne hut] using hnone u
  holder := h.guards.update fun hc => hpc₀ ▸ hcrit hc
  threads := (Function.forall_update_iff s.pc fun _ q => PcOk t0 s.bucket q).mpr
    ⟨hpc, fun u _ => h.threads u⟩

/-- The holder of the mutex changes the bucket. No other thread depends on it. -/
theorem inv_critical (h : Inv C R t0 s) (hpc₀ : s.pc t = pc₀) (hcrit : pc₀.Critical)
    (hmutex : b.refillMutex = s.bucket.refillMutex) (hb : BucketOk C R t0 b) (hpc : PcOk t0 b pc)
    (hcredit : pc.Stamping ∨ b.credited ≤ R * elapsedSeconds (b.lastRefill - t0)) :
    Inv C R t0 { bucket := b, pc := Function.update s.pc t pc } where
  bucket := hb
  credited_le hnone := hcredit.resolve_left (by simpa using hnone t)
  holder := by
    show Guards _ b.refillMutex
    rw [hmutex]
    exact h.guards.update fun _ => hpc₀ ▸ hcrit
  threads := (Function.forall_update_iff s.pc fun _ q => PcOk t0 b q).mpr
    ⟨hpc, fun u hu => (h.threads u).of_not_critical (h.guards.not_inside (hpc₀ ▸ hcrit) hu) b⟩

/-- A thread that takes the free mutex keeps the invariant. -/
theorem inv_lock (h : Inv C R t0 s) (hfree : s.bucket.refillMutex = none)
    (hpc : PcOk t0 { s.bucket with refillMutex := some t } pc) :
    Inv C R t0
      { bucket := { s.bucket with refillMutex := some t }, pc := Function.update s.pc t pc } :=
  have hnone := (hfree ▸ h.guards).not_inside_of_free
  { bucket := { h.bucket with }
    credited_le := fun _ => h.credited_le fun u hu => hnone u hu.critical
    holder := (hfree ▸ h.guards).update_lock
    threads := (Function.forall_update_iff s.pc fun _ q => PcOk t0 _ q).mpr
      ⟨hpc, fun u _ => (h.threads u).of_not_critical (hnone u) _⟩ }

/-- A holder that gives the mutex back keeps the invariant. -/
theorem inv_unlock (h : Inv C R t0 s) (hpc₀ : s.pc t = pc₀) (hcrit : pc₀.Critical)
    (hstamp : ¬ pc₀.Stamping) (hpc : PcOk t0 { s.bucket with refillMutex := none } pc)
    (hout : ¬ pc.Critical) :
    Inv C R t0
      { bucket := { s.bucket with refillMutex := none }, pc := Function.update s.pc t pc } where
  bucket := { h.bucket with }
  credited_le _ := h.credited_le_of_critical hpc₀ hcrit hstamp
  holder := h.guards.update_unlock (hpc₀ ▸ hcrit) hout
  threads := (Function.forall_update_iff s.pc fun _ q => PcOk t0 _ q).mpr
    ⟨hpc, fun u hu => (h.threads u).of_not_critical (h.guards.not_inside (hpc₀ ▸ hcrit) hu) _⟩

/-- The clock may advance without breaking the invariant. -/
theorem inv_tick (h : Inv C R t0 s) (ns : ℕ) :
    Inv C R t0 { s with bucket := { s.bucket with clock := s.bucket.clock + ns } } where
  bucket := { h.bucket with last_le := by have := h.bucket.last_le; simp only; omega }
  credited_le := h.credited_le
  holder := h.holder
  threads u := (h.threads u).tick ns

/-- The two stores of a refill: what they add is covered by the time they account for. -/
theorem credited_le_of_refilling (hR : 0 ≤ R) (h : Inv C R t0 s) {k now2 loaded newTokens : ℤ}
    (hpc₀ : s.pc t = .refillStore k now2 loaded newTokens)
    (href : Refilling s.bucket now2 loaded newTokens) :
    s.bucket.credited + (newTokens - loaded) ≤ R * elapsedSeconds (now2 - t0) := by
  have hbefore := h.credited_le_of_critical hpc₀ trivial id
  have hspan := pos_of_elapsedSeconds_pos href.elapsed_pos
  have hadd := elapsedSeconds_add_le (d := s.bucket.lastRefill - t0)
    (e := now2 - s.bucket.lastRefill) (by have := h.bucket.start_le; omega) hspan.le
  rw [show s.bucket.lastRefill - t0 + (now2 - s.bucket.lastRefill) = now2 - t0 by omega] at hadd
  have hnew := href.new_le
  rw [h.bucket.rate_eq] at hnew
  have hmul := mul_le_mul_of_nonneg_left hadd hR
  rw [mul_add] at hmul
  linarith [mul_comm R (elapsedSeconds (now2 - s.bucket.lastRefill))]

/-- A token is taken by compare-exchange while no refill is under way. -/
theorem inv_consume (h : Inv C R t0 s) (hpc₀ : s.pc t = .acquireCas 1 s.bucket.tokens)
    (hexcl : ∀ t ∈ s.bucket.refillMutex, ¬ (s.pc t).InWindow) (htokens : 1 ≤ s.bucket.tokens) :
    Inv C R t0
      { bucket := { s.bucket with
          tokens := s.bucket.tokens - 1, granted := s.bucket.granted + 1
          consumed := s.bucket.consumed + 1 }
        pc := Function.update s.pc t .idle } where
  bucket := { h.bucket with
    tokens_nonneg := by simp only; omega
    granted_eq := by have := h.bucket.granted_eq; simp only; omega
    conserved := by have := h.bucket.conserved; simp only; omega }
  credited_le := by
    have hidle : Inv C R t0 { bucket := s.bucket, pc := Function.update s.pc t .idle } :=
      inv_local h hpc₀ trivial id id
    exact hidle.credited_le
  holder := h.guards.update fun hc => absurd hc id
  threads := by
    refine (Function.forall_update_iff s.pc fun _ q => PcOk t0 _ q).mpr ⟨trivial, fun u _ => ?_⟩
    have hwindow : ¬ (s.pc u).InWindow := fun hu => hexcl u (h.holder u hu.critical) hu
    exact (h.threads u).of_not_inWindow hwindow _ _ _

/-- **One step of a thread keeps the invariant**, if it takes no token during a refill. -/
theorem inv_run (hC : 0 ≤ C) (hR : 0 ≤ R) (h : Inv C R t0 s) (hexcl : Exclusive s (.run t))
    (hpc₀ : s.pc t = pc₀) (hstep : threadStep s.bucket t pc₀ = some (b, pc)) :
    Inv C R t0 { bucket := b, pc := Function.update s.pc t pc } := by
  have hb := h.bucket
  have ht : PcOk t0 s.bucket pc₀ := hpc₀ ▸ h.threads t
  cases pc₀ with
  | idle => cases hstep
  | configLock | configCapacity | configRate | configLoad | configStore | configUnlock =>
    exact ht.elim
  | refillNow k | acquireLoad k =>
    cases hstep
    exact inv_local h hpc₀ ht (fun hc => hc.elim) id
  | refillCheck k now =>
    cases hstep
    split
    · exact inv_local h hpc₀ ht (fun hc => hc.elim) id
    · exact inv_local h hpc₀ ht (fun hc => hc.elim) id
  | refillLock k =>
    obtain ⟨hfree, hsome⟩ := Option.ite_none_right_eq_some.mp hstep
    cases hsome
    exact inv_lock h hfree ht
  | refillNow2 k =>
    cases hstep
    exact inv_local h hpc₀ ⟨ht, le_rfl⟩ (fun _ => trivial) id
  | refillCheck2 k now2 =>
    cases hstep
    split
    · exact inv_local h hpc₀ ht.1 (fun _ => trivial) id
    · exact inv_local h hpc₀ ⟨ht.1, ht.2, rfl, by omega⟩ (fun _ => trivial) id
  | refillLoad k now2 elapsed =>
    cases hstep
    obtain ⟨hk, hnow, rfl, hpos⟩ := ht
    -- from here to the store the thread relies on the count it has loaded
    have hrefill : 0 ≤ elapsedSeconds (now2 - s.bucket.lastRefill) * s.bucket.refillRate :=
      mul_nonneg hpos.le (hb.rate_eq ▸ hR)
    have hnew : 0 ≤ s.bucket.tokens
        + elapsedSeconds (now2 - s.bucket.lastRefill) * s.bucket.refillRate :=
      add_nonneg hb.tokens_nonneg hrefill
    exact inv_local h hpc₀ ⟨hk, hnew, hnow, rfl, hpos, le_rfl⟩ (fun _ => trivial) id
  | refillClamp k now2 loaded newTokens =>
    cases hstep
    obtain ⟨hk, hnew, href⟩ := ht
    split
    · have hle := href.new_le
      exact inv_local h hpc₀ ⟨hk, hb.capacity_eq ▸ hC, { href with new_le := by omega }⟩
        (fun _ => trivial) id
    · exact inv_local h hpc₀ ⟨hk, hnew, href⟩ (fun _ => trivial) id
  | refillStore k now2 loaded newTokens =>
    cases hstep
    obtain ⟨hk, hnew, href⟩ := ht
    have hcredit := credited_le_of_refilling hR h hpc₀ href
    have hspan := pos_of_elapsedSeconds_pos href.elapsed_pos
    -- nothing was taken since the load, so the store adds exactly what is credited
    have hloaded := href.loaded_eq
    refine inv_critical h hpc₀ trivial rfl ?_ ?_ (.inl trivial)
    · exact { hb with
        tokens_nonneg := hnew
        conserved := by have := hb.conserved; simp only; omega }
    · refine ⟨hk, href.now_le, Int.sub_nonneg.mp hspan.le, ?_⟩
      rw [hb.rate_eq]
      exact hcredit
  | refillStamp k now2 =>
    cases hstep
    obtain ⟨hk, hnow, hlast, hcredit⟩ := ht
    -- the time that the credit was computed from is now accounted for
    refine inv_critical h hpc₀ trivial rfl ?_ hk (.inr (hb.rate_eq ▸ hcredit))
    exact { hb with start_le := hb.start_le.trans hlast, last_le := hnow }
  | refillUnlock k =>
    cases hstep
    exact inv_unlock h hpc₀ trivial id ht id
  | acquireCas k expected =>
    -- the loop gives up, the exchange succeeds, or it fails and the count is looked at again
    simp only [threadStep] at hstep
    split_ifs at hstep with hfew hequal
    · cases hstep
      exact inv_local h hpc₀ trivial (fun hc => hc.elim) id
    · subst hequal
      cases hstep
      obtain rfl : k = 1 := ht
      have hconsumes : Consumes s (.run t) := by
        simp only [Consumes, hpc₀, and_true]
        omega
      exact inv_consume h hpc₀ (hexcl hconsumes) (by omega)
    · cases hstep
      exact inv_local h hpc₀ ht (fun hc => hc.elim) id

/-- One action keeps the invariant. -/
theorem inv_step (hC : 0 ≤ C) (hR : 0 ≤ R) (s : State) (a : Action) (s' : State) (h : Inv C R t0 s)
    (hok : a.AcquiresOne ∧ Exclusive s a) (hstep : step s a = some s') : Inv C R t0 s' := by
  obtain ⟨hone, hexcl⟩ := hok
  cases a with
  | tick ns =>
    simp only [step, Option.some.injEq] at hstep
    subst hstep
    exact inv_tick h ns
  | call t op =>
    simp only [step, Option.ite_none_right_eq_some, Option.some.injEq] at hstep
    obtain ⟨hidle, rfl⟩ := hstep
    obtain rfl : op = .tryAcquire 1 := hone
    exact inv_local h hidle rfl (fun hc => hc.elim) id
  | run t =>
    simp only [step, Option.map_eq_some_iff] at hstep
    obtain ⟨⟨b, pc⟩, hthread, rfl⟩ := hstep
    exact inv_run hC hR h hexcl rfl hthread
  | spurious t =>
    have ht := h.threads t
    cases hpc₀ : s.pc t with
    | acquireCas k expected =>
      simp only [step, hpc₀, Option.ite_none_right_eq_some, Option.some.injEq] at hstep
      obtain ⟨-, rfl⟩ := hstep
      rw [hpc₀] at ht
      exact inv_local h hpc₀ ht (fun hc => hc.elim) id
    | _ => simp [step, hpc₀] at hstep

/-- The invariant holds at the start. -/
theorem inv_init (hC : 0 ≤ C) : Inv C R t0 (init C R t0) where
  bucket :=
    { capacity_eq := rfl, rate_eq := rfl, tokens_nonneg := hC, granted_eq := rfl
      conserved := by simp [init], start_le := le_rfl, last_le := le_rfl }
  credited_le _ := by simp [init, elapsedSeconds]
  holder t ht := ht.elim
  threads t := trivial

end Preservation

/-! ## Whole runs -/

/-- What has been added is bounded by the time that has passed. -/
theorem Inv.credited_le_clock {C R t0 : ℤ} (hR : 0 ≤ R) {s : State} (h : Inv C R t0 s) :
    s.bucket.credited ≤ R * elapsedSeconds (s.bucket.clock - t0) := by
  have hb := h.bucket
  have hmono : ∀ u, t0 ≤ u → u ≤ s.bucket.clock →
      R * elapsedSeconds (u - t0) ≤ R * elapsedSeconds (s.bucket.clock - t0) := fun u hu hle =>
    mul_le_mul_of_nonneg_left (elapsedSeconds_mono (by omega) (by omega)) hR
  by_cases hstamp : ∃ t, (s.pc t).Stamping
  · obtain ⟨t, ht⟩ := hstamp
    have hok := h.threads t
    cases hpc : s.pc t <;> rw [hpc] at ht hok <;> try exact ht.elim
    rename_i k now2
    obtain ⟨-, hnow, hlast, hcredit⟩ := hok
    rw [hb.rate_eq] at hcredit
    exact hcredit.trans (hmono now2 (hb.start_le.trans hlast) hnow)
  · exact (h.credited_le fun t ht => hstamp ⟨t, ht⟩).trans (hmono _ hb.start_le hb.last_le)

/-- **When the rate limit holds under concurrency.** For every capacity and rate, any number of
threads calling `try_acquire(1)` and every schedule that takes no token between the load and the
store of a refill, in every state reached: the calls granted are within the capacity and the whole
seconds since construction at the rate, and no consumption is lost. -/
theorem granted_le {C R t0 : ℤ} (hC : 0 ≤ C) (hR : 0 ≤ R) {as : List Action} {s : State}
    (hok : Respects step (fun s a => a.AcquiresOne ∧ Exclusive s a) (init C R t0) as)
    (hrun : run step (init C R t0) as = some s) :
    (s.bucket.granted : ℤ) ≤ C + R * elapsedSeconds (s.bucket.clock - t0) ∧
      s.bucket.tokens + s.bucket.granted = C + s.bucket.credited := by
  have h : Inv C R t0 s := invariant_run (inv_step hC hR) (inv_init hC) hok hrun
  have hcredit := h.credited_le_clock hR
  have hb := h.bucket
  have hconserved := hb.conserved
  have hgranted := hb.granted_eq
  have htokens := hb.tokens_nonneg
  exact ⟨by omega, by omega⟩

/-- Two calls, a second and a half after construction. While thread `0` refills, thread `1` waits
for the mutex; then both take a token, their steps interleaved. -/
def twoCalls : List Action :=
  [Action.tick 1500000000, .call 0 (.tryAcquire 1), .call 1 (.tryAcquire 1),
      .run 0, .run 1, .run 0, .run 1]
    ++ List.replicate 8 (Action.run 0)
    ++ [Action.run 1, .run 0, .run 1, .run 0, .run 1, .run 1, .run 1, .run 1]

/-- The theorem at two threads whose calls of `try_acquire` interleave. -/
theorem granted_le_two_calls :
    ∃ s, run step (init 2 1 0) twoCalls = some s ∧ s.bucket.granted = 2 ∧
      (s.bucket.granted : ℤ) ≤ 2 + 1 * elapsedSeconds (s.bucket.clock - 0) ∧
      s.bucket.tokens + s.bucket.granted = 2 + s.bucket.credited := by
  obtain ⟨s, hs, hgranted⟩ : ∃ s, run step (init 2 1 0) twoCalls = some s ∧ s.bucket.granted = 2 :=
    exists_of_any (by decide +kernel)
  exact ⟨s, hs, hgranted, granted_le (by decide) (by decide) (by decide +kernel) hs⟩

/-- A bucket of one token that is never refilled grants two calls: thread `1` takes the token
between the load and the store of the refill of thread `0`, which puts it back. -/
theorem not_granted_le_lost_consumption :
    ∃ s, run step (init 1 0 0)
        ([Action.call 1 (.tryAcquire 1), .run 1, .run 1, .tick 1000000000, .call 0 (.tryAcquire 1)]
          ++ List.replicate 6 (Action.run 0) ++ [Action.run 1, .run 1]
          ++ List.replicate 6 (Action.run 0)) = some s ∧
      ¬ (s.bucket.granted : ℤ) ≤ 1 + 0 * elapsedSeconds (s.bucket.clock - 0) :=
  exists_of_any (by decide +kernel)

end TokenBucketSteps

end AiSwitch
