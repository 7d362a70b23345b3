import AiSwitch.Common.Transition
import AiSwitch.Middleware.RateLimiter
import Mathlib.Tactic.Linarith

/-!
# Runs of the token bucket

One caller after another calls `try_acquire`. A run is the list of its calls with their answers, so
that what was granted in any part of it can be read off.

A refill moves `last_refill_` to the present and credits the whole seconds since it was there
before. The credits of a run therefore never exceed the whole seconds that have passed
(`spent_add_tokens_le`), which bounds what any stretch of the run is granted (`spent_window_le`);
and the fractions of a second that are left over at each refill are lost, which
`delivers_iff_inStep` makes exact.
-/

namespace AiSwitch

open Effect Transition

/-- Of a time that is not negative the whole seconds count. -/
theorem elapsedSeconds_of_nonneg {d : ℤ} (h : 0 ≤ d) : elapsedSeconds d = d / 1000000000 :=
  Int.tdiv_eq_ediv_of_nonneg h

namespace TokenBucket

/-- The constructor, at time `t0`. -/
def init (capacity refillPerSecond t0 : ℤ) : TokenBucket where
  tokens := capacity
  capacity := capacity
  refillRate := refillPerSecond
  lastRefill := t0

/-- A call of `try_acquire` with its answer. The clock is read at `now`, and at `now2` under the
lock. -/
structure Acquisition where
  tokens : ℤ
  now : ℤ
  now2 : ℤ
  granted : Bool
deriving DecidableEq, Repr

/-- The state after a call, `none` where it has another answer or overflows. -/
def acquire (b : TokenBucket) (a : Acquisition) : Option TokenBucket :=
  match b.tryAcquire a.tokens a.now a.now2 with
  | .ok (granted, b') => if granted = a.granted then some b' else none
  | .throw _ | .ub => none

/-- The tokens that a call has taken. -/
def Acquisition.spent (a : Acquisition) : ℤ := if a.granted then a.tokens else 0

/-- The tokens that a run has taken. -/
def spent (as : List Acquisition) : ℤ := (as.map Acquisition.spent).sum

/-- The calls come one after the other, from time `t` on. -/
def InOrder : ℤ → List Acquisition → Prop
  | _, [] => True
  | t, a :: as => t ≤ a.now ∧ a.now ≤ a.now2 ∧ InOrder a.now2 as

instance decidableInOrder : ∀ t as, Decidable (InOrder t as)
  | _, [] => isTrue trivial
  | t, a :: as =>
    have := decidableInOrder a.now2 as
    inferInstanceAs (Decidable (t ≤ a.now ∧ a.now ≤ a.now2 ∧ InOrder a.now2 as))

/-- Without a call no token is taken. -/
@[simp] theorem spent_nil : spent [] = 0 := rfl

/-- What the first call takes is added. -/
@[simp] theorem spent_cons (a : Acquisition) (as : List Acquisition) :
    spent (a :: as) = a.spent + spent as := List.sum_cons

variable {b b' : TokenBucket} {a : Acquisition} {as bs : List Acquisition}

/-- The first part of calls in order is in order. -/
theorem InOrder.left {t : ℤ} (h : InOrder t (as ++ bs)) : InOrder t as := by
  induction as generalizing t with
  | nil => trivial
  | cons a as ih => exact ⟨h.1, h.2.1, ih h.2.2⟩

/-- The last call of them is not before the start. -/
theorem InOrder.le_last {t : ℤ} (h : InOrder t (as ++ [a])) : t ≤ a.now2 := by
  induction as generalizing t with
  | nil => exact h.1.trans h.2.1
  | cons c as ih => exact (h.1.trans h.2.1).trans (ih h.2.2)

/-! ## One call -/

/-- A call takes its tokens from the current bucket, or nothing if they are too few. -/
theorem acquire_cases (h : acquire b a = some b') :
    b.Defined a.now a.now2 ∧ b' = { b.current a.now a.now2 with
      tokens := (b.current a.now a.now2).tokens - a.spent } ∧
      (a.granted = true ↔ a.tokens ≤ (b.current a.now a.now2).tokens) := by
  unfold acquire at h
  by_cases hdef : b.Defined a.now a.now2
  swap
  · rw [tryAcquire_of_not_defined hdef] at h
    cases h
  refine ⟨hdef, ?_⟩
  rw [tryAcquire_of_defined hdef] at h
  split_ifs at h with hk
  · obtain ⟨hgranted, hb⟩ := Option.ite_none_right_eq_some.mp h
    simp only [Option.some.injEq] at hb
    rw [Acquisition.spent, ← hgranted, if_pos rfl]
    exact ⟨hb.symm, iff_of_true rfl hk⟩
  · obtain ⟨hgranted, hb⟩ := Option.ite_none_right_eq_some.mp h
    simp only [Option.some.injEq] at hb
    rw [Acquisition.spent, ← hgranted, if_neg (by simp), Int.sub_zero]
    exact ⟨hb.symm, iff_of_false (by simp) hk⟩

/-- A call that does not overflow has an answer. -/
theorem exists_acquire {now now2 : ℤ} (h : b.Defined now now2) (k : ℤ) :
    ∃ granted b', acquire b ⟨k, now, now2, granted⟩ = some b' := by
  by_cases hk : k ≤ (b.current now now2).tokens
  · refine ⟨true, { b.current now now2 with tokens := (b.current now now2).tokens - k }, ?_⟩
    rw [acquire, tryAcquire_of_defined h, if_pos hk]
    rfl
  · refine ⟨false, b.current now now2, ?_⟩
    rw [acquire, tryAcquire_of_defined h, if_neg hk]
    rfl

section Current

variable (b) (now now2 : ℤ)

/-- A refill does not change the capacity. -/
@[simp] theorem capacity_current : (b.current now now2).capacity = b.capacity := by
  unfold current
  split <;> rfl

/-- A refill does not change the rate. -/
@[simp] theorem refillRate_current : (b.current now now2).refillRate = b.refillRate := by
  unfold current
  split <;> rfl

variable {b now now2}

/-- Where a second has passed, the bucket is refilled. -/
theorem current_of_refills (h : b.Refills now now2) : b.current now now2 = b.refilled now2 :=
  if_pos h

/-- Where no second has passed, the bucket stays as it is. -/
theorem current_of_not_refills (h : ¬ b.Refills now now2) : b.current now now2 = b := if_neg h

/-- A refill puts in no more than the seconds bring. -/
theorem tokens_refilled_le : (b.refilled now2).tokens ≤ b.newTokens now2 := by
  show (if b.capacity < b.newTokens now2 then b.capacity else b.newTokens now2) ≤ _
  split <;> omega

/-- After a refill there are no more tokens than the capacity. -/
theorem tokens_refilled_le_capacity : (b.refilled now2).tokens ≤ b.capacity := by
  show (if b.capacity < b.newTokens now2 then b.capacity else b.newTokens now2) ≤ _
  split <;> omega

/-- Looking at the bucket moves `last_refill_` forward, if at all. -/
theorem lastRefill_le_current : b.lastRefill ≤ (b.current now now2).lastRefill := by
  by_cases h : b.Refills now now2
  · rw [current_of_refills h]
    have := pos_of_elapsedSeconds_pos h.2
    show b.lastRefill ≤ now2
    omega
  · rw [current_of_not_refills h]

/-- No refill is from the future. -/
theorem lastRefill_current_le (h : b.lastRefill ≤ now2) :
    (b.current now now2).lastRefill ≤ now2 := by
  unfold current
  split
  · exact le_rfl
  · exact h

/-- After a look at the bucket less than a second has passed since `last_refill_`. -/
theorem lt_lastRefill_current (h : now ≤ now2) :
    now < (b.current now now2).lastRefill + 1000000000 := by
  by_cases hrefills : b.Refills now now2
  · rw [current_of_refills hrefills]
    show now < now2 + 1000000000
    omega
  · rw [current_of_not_refills hrefills]
    -- if the first reading were a second later, so would be the second one
    by_contra hlate
    have hone : 0 < elapsedSeconds (now - b.lastRefill) := by
      rw [elapsedSeconds_of_nonneg (by omega)]
      omega
    exact hrefills ⟨hone, hone.trans_le (elapsedSeconds_mono (by omega) (by omega))⟩

/-- What a refill adds is at most the whole seconds that it accounts for, at the rate. -/
theorem tokens_current_le : (b.current now now2).tokens ≤
    b.tokens + b.refillRate * elapsedSeconds ((b.current now now2).lastRefill - b.lastRefill) := by
  by_cases h : b.Refills now now2
  · rw [current_of_refills h, mul_comm]
    exact tokens_refilled_le
  · rw [current_of_not_refills h, Int.sub_self]
    simp [elapsedSeconds]

/-- A bucket that is not overfull is not so after a refill. -/
theorem tokens_current_le_capacity (h : b.tokens ≤ b.capacity) :
    (b.current now now2).tokens ≤ b.capacity := by
  unfold current
  split
  · exact tokens_refilled_le_capacity
  · exact h

/-- A bucket that is not in debt is not so after a refill. -/
theorem tokens_current_nonneg (htokens : 0 ≤ b.tokens) (hcapacity : 0 ≤ b.capacity)
    (hrate : 0 ≤ b.refillRate) : 0 ≤ (b.current now now2).tokens := by
  by_cases h : b.Refills now now2
  · rw [current_of_refills h]
    have hadded : 0 ≤ elapsedSeconds (now2 - b.lastRefill) * b.refillRate :=
      Int.mul_nonneg h.2.le hrate
    show 0 ≤ if b.capacity < b.newTokens now2 then b.capacity else b.newTokens now2
    split
    · exact hcapacity
    · exact Int.add_nonneg htokens hadded
  · rwa [current_of_not_refills h]

end Current

/-! ## Whole runs -/

variable {C R t : ℤ}

/-- The limits of a bucket, with a count within them. -/
structure Limits (C R : ℤ) (b : TokenBucket) : Prop where
  capacity_eq : b.capacity = C
  rate_eq : b.refillRate = R
  tokens_nonneg : 0 ≤ b.tokens
  tokens_le : b.tokens ≤ C

/-- A call keeps the count within its limits. -/
theorem limits_acquire (hC : 0 ≤ C) (hR : 0 ≤ R) (h : Limits C R b) (hk : 0 ≤ a.tokens)
    (hstep : acquire b a = some b') : Limits C R b' := by
  obtain ⟨-, rfl, hgranted⟩ := acquire_cases hstep
  have hnonneg : 0 ≤ (b.current a.now a.now2).tokens :=
    tokens_current_nonneg h.tokens_nonneg (h.capacity_eq ▸ hC) (h.rate_eq ▸ hR)
  have hle : (b.current a.now a.now2).tokens ≤ C :=
    h.capacity_eq ▸ tokens_current_le_capacity (h.capacity_eq ▸ h.tokens_le)
  have hspent : 0 ≤ a.spent ∧ a.spent ≤ (b.current a.now a.now2).tokens := by
    unfold Acquisition.spent
    split_ifs with hg
    · exact ⟨hk, hgranted.mp hg⟩
    · exact ⟨le_rfl, hnonneg⟩
  refine ⟨by simp [h.capacity_eq], by simp [h.rate_eq], ?_, ?_⟩
  · exact Int.sub_nonneg_of_le hspent.2
  · show (b.current a.now a.now2).tokens - a.spent ≤ C
    omega

/-- The clock has reached `last_refill_`, and what follows comes later. -/
theorem inOrder_acquire (hlast : b.lastRefill ≤ t) (horder : InOrder t (a :: as))
    (hstep : acquire b a = some b') : b'.lastRefill ≤ a.now2 ∧ InOrder a.now2 as := by
  obtain ⟨-, rfl, -⟩ := acquire_cases hstep
  obtain ⟨hnow, hnow2, hrest⟩ := horder
  exact ⟨lastRefill_current_le (by omega), hrest⟩

/-- **No run is credited more than the time that it accounts for.** -/
theorem spent_add_tokens_le (hR : 0 ≤ b.refillRate) (hrun : run acquire b as = some b') :
    b.lastRefill ≤ b'.lastRefill ∧
      spent as + b'.tokens ≤
        b.tokens + b.refillRate * elapsedSeconds (b'.lastRefill - b.lastRefill) := by
  induction as generalizing b with
  | nil =>
    cases hrun
    simp [elapsedSeconds]
  | cons a as ih =>
    obtain ⟨m, hm, hrest⟩ := run_cons.mp hrun
    obtain ⟨-, rfl, -⟩ := acquire_cases hm
    obtain ⟨hlater, hcredit⟩ := ih (by simpa using hR) hrest
    have hfirst : b.lastRefill ≤ (b.current a.now a.now2).lastRefill := lastRefill_le_current
    have htokens : (b.current a.now a.now2).tokens ≤ b.tokens + b.refillRate *
        elapsedSeconds ((b.current a.now a.now2).lastRefill - b.lastRefill) := tokens_current_le
    simp only [refillRate_current, spent_cons] at hlater hcredit ⊢
    -- whole seconds of the first refill and of the others fit into those of both together
    have hadd := elapsedSeconds_add_le
      (d := (b.current a.now a.now2).lastRefill - b.lastRefill)
      (e := b'.lastRefill - (b.current a.now a.now2).lastRefill) (by omega) (by omega)
    rw [show (b.current a.now a.now2).lastRefill - b.lastRefill
      + (b'.lastRefill - (b.current a.now a.now2).lastRefill)
      = b'.lastRefill - b.lastRefill by omega] at hadd
    have hmul := mul_le_mul_of_nonneg_left hadd hR
    rw [mul_add] at hmul
    exact ⟨by omega, by omega⟩

/-- In a run whose calls come in order `last_refill_` stays behind the last call. -/
theorem lastRefill_le_getLast (hlast : b.lastRefill ≤ t) (horder : InOrder t (as ++ [a]))
    (hrun : run acquire b (as ++ [a]) = some b') : b'.lastRefill ≤ a.now2 := by
  induction as generalizing b t with
  | nil =>
    obtain ⟨m, hm, hrest⟩ := run_cons.mp hrun
    cases hrest
    exact (inOrder_acquire hlast horder hm).1
  | cons c as ih =>
    obtain ⟨m, hm, hrest⟩ := run_cons.mp hrun
    obtain ⟨hm', horder'⟩ := inOrder_acquire hlast horder hm
    exact ih hm' horder' hrest

/-- A run of calls keeps the count within its limits. -/
theorem limits_run (hC : 0 ≤ C) (hR : 0 ≤ R) (h : Limits C R b) (hargs : ∀ a ∈ as, 0 ≤ a.tokens)
    (hrun : run acquire b as = some b') : Limits C R b' := by
  have hresp : Respects acquire (fun _ a => 0 ≤ a.tokens) b as := respects_of_forall hargs
  exact invariant_run (fun _ _ _ h hk hstep => limits_acquire hC hR h hk hstep) h hresp hrun

/-- A later part of a run starts in order. -/
theorem inOrder_run (hlast : b.lastRefill ≤ t) (horder : InOrder t (as ++ bs))
    (hrun : run acquire b as = some b') : ∃ t', b'.lastRefill ≤ t' ∧ InOrder t' bs := by
  induction as generalizing b t with
  | nil =>
    cases hrun
    exact ⟨t, hlast, horder⟩
  | cons a as ih =>
    obtain ⟨m, hm, hrest⟩ := run_cons.mp hrun
    obtain ⟨hm', horder'⟩ := inOrder_acquire hlast horder hm
    exact ih hm' horder' hrest

/-- The part of a run from a call on. The call sees at most the capacity, and after it less than a
second has gone by that is not accounted for. -/
theorem spent_cons_le (hC : 0 ≤ C) (hR : 0 ≤ R) (h : Limits C R b) (hnow : a.now ≤ a.now2)
    (hargs : ∀ c ∈ a :: as, 0 ≤ c.tokens) (hrun : run acquire b (a :: as) = some b') {last : ℤ}
    (hlast : b'.lastRefill ≤ last) (hnowlast : a.now ≤ last) :
    spent (a :: as) ≤ C + R * (elapsedSeconds (last - a.now) + 1) := by
  obtain ⟨m, hm, hrest⟩ := run_cons.mp hrun
  have hm' : Limits C R m := limits_acquire hC hR h (hargs a List.mem_cons_self) hm
  have hb' : Limits C R b' :=
    limits_run hC hR hm' (fun c hc => hargs c (List.mem_cons_of_mem a hc)) hrest
  obtain ⟨hlater, hcredit⟩ := spent_add_tokens_le (hm'.rate_eq ▸ hR) hrest
  obtain ⟨-, rfl, -⟩ := acquire_cases hm
  have hfull : (b.current a.now a.now2).tokens ≤ C :=
    h.capacity_eq ▸ tokens_current_le_capacity (h.capacity_eq ▸ h.tokens_le)
  have hrecent := lt_lastRefill_current (b := b) hnow
  have htokens := hb'.tokens_nonneg
  simp only [refillRate_current, h.rate_eq] at hlater hcredit
  -- the time accounted for afterwards is the window and less than a second
  have hspan : elapsedSeconds (b'.lastRefill - (b.current a.now a.now2).lastRefill)
      ≤ elapsedSeconds (last - a.now) + 1 := by
    rw [elapsedSeconds_of_nonneg (by omega), elapsedSeconds_of_nonneg (by omega)]
    omega
  have hmul := mul_le_mul_of_nonneg_left hspan hR
  rw [spent_cons]
  omega

/-- A new bucket is within its limits. -/
theorem limits_init (hC : 0 ≤ C) (t0 : ℤ) : Limits C R (init C R t0) := ⟨rfl, rfl, hC, le_rfl⟩

/-- **The limit over every window.** For every capacity and rate and every run of calls with
arguments that are not negative, one after the other from the construction on: the calls from
`first` to `last` together take at most the capacity and, for each whole second between them and one
more, the rate, whatever happened before. -/
theorem spent_window_le {t0 : ℤ} (hC : 0 ≤ C) (hR : 0 ≤ R) {before window after : List Acquisition}
    (hargs : ∀ a ∈ before ++ window ++ after, 0 ≤ a.tokens)
    (horder : InOrder t0 (before ++ window ++ after))
    (hrun : run acquire (init C R t0) (before ++ window ++ after) = some b)
    {first last : Acquisition} (hfirst : window.head? = some first)
    (hlast : window.getLast? = some last) :
    spent window ≤ C + R * (elapsedSeconds (last.now2 - first.now) + 1) := by
  obtain ⟨rest, rfl⟩ := List.head?_eq_some_iff.mp hfirst
  obtain ⟨most, hmost⟩ := List.getLast?_eq_some_iff.mp hlast
  obtain ⟨b₂, hrun₂, -⟩ := run_append_iff.mp hrun
  obtain ⟨b₁, hbefore, hwindow⟩ := run_append_iff.mp hrun₂
  obtain ⟨t, hb₁, horder₁⟩ := inOrder_run le_rfl horder.left hbefore
  have hb₁' : Limits C R b₁ := by
    apply limits_run hC hR (limits_init hC t0) _ hbefore
    intro a ha
    exact hargs a (by simp [ha])
  -- the window ends with its last call, from whichever side it is looked at
  have hb₂ : b₂.lastRefill ≤ last.now2 :=
    lastRefill_le_getLast hb₁ (hmost ▸ horder₁) (hmost ▸ hwindow)
  have hspan : first.now ≤ last.now2 := by
    have hfrom : InOrder first.now (first :: rest) := ⟨le_rfl, horder₁.2.1, horder₁.2.2⟩
    exact (hmost ▸ hfrom).le_last
  apply spent_cons_le hC hR hb₁' horder₁.2.1 _ hwindow hb₂ hspan
  intro c hc
  exact hargs c (List.mem_append_left _ (List.mem_append_right _ hc))

/-- Three calls on a bucket of two tokens: the last one is granted after a refill. -/
theorem spent_window_le_three_calls :
    spent [⟨1, 1000000000, 1000000000, true⟩, ⟨1, 2500000000, 2500000001, true⟩]
      ≤ 2 + 1 * (elapsedSeconds (2500000001 - 1000000000) + 1) :=
  @spent_window_le _ 2 1 0 (by decide) (by decide) [⟨2, 0, 0, true⟩]
    [⟨1, 1000000000, 1000000000, true⟩, ⟨1, 2500000000, 2500000001, true⟩] []
    (by decide) (by decide) rfl _ _ rfl rfl

/-! ## The delivered rate

For the calls `try_acquire(1)` at the times `T` of a run in which no refill is cut off at the
capacity. The tokens handed out and those left should be the capacity and the rate for each whole
second since construction.
-/

/-- A call `try_acquire(1)` that takes no time. -/
def Acquisition.OneAt (a : Acquisition) : Prop := a.tokens = 1 ∧ a.now2 = a.now

instance : DecidablePred Acquisition.OneAt := fun _ => inferInstanceAs (Decidable (_ ∧ _))

/-- A refill that the call makes is not cut off at the capacity. -/
def Untruncated (b : TokenBucket) (a : Acquisition) : Prop :=
  b.Refills a.now a.now2 → b.newTokens a.now2 ≤ b.capacity

instance (b : TokenBucket) : DecidablePred (Untruncated b) :=
  fun _ => inferInstanceAs (Decidable (_ → _))

/-- After each call of the run, made at some time `T`, the tokens taken in it and those left are
`total` and the rate for each whole second from `t0` to `T`. -/
def Delivers (total R t0 : ℤ) (b : TokenBucket) (as : List Acquisition) : Prop :=
  ∀ before a after, as = before ++ a :: after → ∀ m, run acquire b (before ++ [a]) = some m →
    spent (before ++ [a]) + m.tokens = total + R * elapsedSeconds (a.now - t0)

/-- Seconds are counted from `t0`. Among the calls that are the first in their second, each comes at
least as late in its second as the one before, the first of which is at `mark`. -/
def InStep (t0 : ℤ) : ℤ → List Acquisition → Prop
  | _, [] => True
  | mark, a :: as =>
    if elapsedSeconds (a.now - t0) = elapsedSeconds (mark - t0) then InStep t0 mark as
    else (mark - t0) % 1000000000 ≤ (a.now - t0) % 1000000000 ∧ InStep t0 a.now as

instance decidableInStep (t0 : ℤ) : ∀ mark as, Decidable (InStep t0 mark as)
  | _, [] => isTrue trivial
  | mark, a :: as =>
    have := decidableInStep t0 mark as
    have := decidableInStep t0 a.now as
    inferInstanceAs (Decidable
      (if elapsedSeconds (a.now - t0) = elapsedSeconds (mark - t0) then InStep t0 mark as
        else (mark - t0) % 1000000000 ≤ (a.now - t0) % 1000000000 ∧ InStep t0 a.now as))

/-- A run delivers what is due if its first call does, and the rest does of what is left. -/
theorem delivers_cons_iff {total t0 : ℤ} (hstep : acquire b a = some b') :
    Delivers total R t0 b (a :: as) ↔
      a.spent + b'.tokens = total + R * elapsedSeconds (a.now - t0) ∧
        Delivers (total - a.spent) R t0 b' as := by
  constructor
  · intro h
    refine ⟨?_, ?_⟩
    · have := h [] a as rfl b' (run_cons.mpr ⟨b', hstep, rfl⟩)
      simpa using this
    · rintro before c after rfl m hm
      have := h (a :: before) c after rfl m (run_cons.mpr ⟨b', hstep, hm⟩)
      simp only [List.cons_append, spent_cons] at this
      omega
  · rintro ⟨hfirst, hrest⟩ before c after heq m hm
    cases before with
    | nil =>
      obtain ⟨rfl, rfl⟩ := List.cons.inj heq
      obtain ⟨n, hn, hnil⟩ := run_cons.mp hm
      obtain rfl : n = b' := Option.some.inj (hn.symm.trans hstep)
      obtain rfl : n = m := Option.some.inj hnil
      simpa using hfirst
    | cons d before =>
      obtain ⟨rfl, rfl⟩ := List.cons.inj heq
      obtain ⟨n, hn, hm⟩ := run_cons.mp hm
      obtain rfl : n = b' := Option.some.inj (hn.symm.trans hstep)
      have := hrest before c after rfl m hm
      simp only [List.cons_append, spent_cons] at this ⊢
      omega

/-- What one call leaves, and where it leaves `last_refill_`. -/
theorem acquire_of_untruncated (hone : a.OneAt) (hfull : Untruncated b a)
    (hstep : acquire b a = some b') :
    b'.refillRate = b.refillRate ∧
      if 0 < elapsedSeconds (a.now - b.lastRefill) then
        b'.lastRefill = a.now ∧ a.spent + b'.tokens
          = b.tokens + b.refillRate * elapsedSeconds (a.now - b.lastRefill)
      else b'.lastRefill = b.lastRefill ∧ a.spent + b'.tokens = b.tokens := by
  obtain ⟨-, rfl, -⟩ := acquire_cases hstep
  refine ⟨by simp, ?_⟩
  rw [hone.2]
  split_ifs with hpos
  · have hrefills : b.Refills a.now a.now := ⟨hpos, hpos⟩
    have hcap : ¬ b.capacity < b.newTokens a.now := by
      have := hfull (hone.2.symm ▸ hrefills)
      rw [hone.2] at this
      omega
    have htokens : (b.refilled a.now).tokens = b.newTokens a.now := if_neg hcap
    rw [current_of_refills hrefills]
    refine ⟨rfl, ?_⟩
    show a.spent + ((b.refilled a.now).tokens - a.spent) = _
    rw [htokens, newTokens, mul_comm b.refillRate]
    omega
  · rw [current_of_not_refills fun h => hpos h.1]
    refine ⟨rfl, ?_⟩
    show a.spent + (b.tokens - a.spent) = b.tokens
    omega

section Delivered

variable {total t0 : ℤ}

/-- Where nothing is refilled, nothing is lost. -/
theorem delivers_of_rate_zero (hR : b.refillRate = 0) (htotal : b.tokens = total)
    (hone : ∀ a ∈ as, a.OneAt) (hfull : Respects acquire Untruncated b as)
    (hrun : run acquire b as = some b') : Delivers total 0 t0 b as := by
  induction as generalizing b total with
  | nil =>
    intro before a after heq
    cases before <;> cases heq
  | cons a as ih =>
    obtain ⟨m, hm, hrest⟩ := run_cons.mp hrun
    obtain ⟨hrate, hcall⟩ := acquire_of_untruncated (hone a List.mem_cons_self) hfull.1 hm
    have htokens : a.spent + m.tokens = total := by
      split_ifs at hcall with hpos
      · rw [hcall.2, hR, htotal]
        omega
      · rw [hcall.2, htotal]
    refine (delivers_cons_iff hm).mpr ⟨by omega, ?_⟩
    exact ih (hrate.trans hR) (by omega) (fun c hc => hone c (List.mem_cons_of_mem a hc))
      (hfull.2 m hm) hrest

/-- Between two instants in the same second no full second passes. -/
theorem elapsedSeconds_sub_of_eq {mark now : ℤ} (h₀ : t0 ≤ mark) (h₁ : mark ≤ now)
    (h : elapsedSeconds (now - t0) = elapsedSeconds (mark - t0)) :
    elapsedSeconds (now - mark) = 0 := by
  rw [elapsedSeconds_of_nonneg (by omega), elapsedSeconds_of_nonneg (by omega)] at h
  rw [elapsedSeconds_of_nonneg (by omega)]
  omega

/-- From an instant to one that comes at least as late in its second. -/
theorem elapsedSeconds_sub_of_le {mark now : ℤ} (h₀ : t0 ≤ mark) (h₁ : mark ≤ now)
    (h : (mark - t0) % 1000000000 ≤ (now - t0) % 1000000000) :
    elapsedSeconds (now - mark) = elapsedSeconds (now - t0) - elapsedSeconds (mark - t0) := by
  rw [elapsedSeconds_of_nonneg (by omega), elapsedSeconds_of_nonneg (by omega),
    elapsedSeconds_of_nonneg (by omega)]
  omega

/-- From an instant to one that comes earlier in its second: a whole second is missing. -/
theorem elapsedSeconds_sub_of_lt {mark now : ℤ} (h₀ : t0 ≤ mark) (h₁ : mark ≤ now)
    (h : (now - t0) % 1000000000 < (mark - t0) % 1000000000) :
    elapsedSeconds (now - mark) = elapsedSeconds (now - t0) - elapsedSeconds (mark - t0) - 1 := by
  rw [elapsedSeconds_of_nonneg (by omega), elapsedSeconds_of_nonneg (by omega),
    elapsedSeconds_of_nonneg (by omega)]
  omega

/-- A call of an untruncated run leaves what there was and what the time since `last_refill_` is
worth, whether or not it refills. -/
theorem acquire_tokens_eq (hone : a.OneAt) (hfull : Untruncated b a) (hlast : b.lastRefill ≤ a.now)
    (hstep : acquire b a = some b') :
    a.spent + b'.tokens = b.tokens + b.refillRate * elapsedSeconds (a.now - b.lastRefill) := by
  obtain ⟨-, hcall⟩ := acquire_of_untruncated hone hfull hstep
  split_ifs at hcall with hpos
  · exact hcall.2
  · have hzero : elapsedSeconds (a.now - b.lastRefill) = 0 := by
      rw [elapsedSeconds_of_nonneg (by omega)] at hpos ⊢
      omega
    rw [hcall.2, hzero]
    omega

/-- As long as the calls are in step, `last_refill_` is at the first call of the latest second that
had one, and nothing has been lost. -/
theorem delivers_iff_of_mark {t : ℤ} (hR : b.refillRate = R) (hne : R ≠ 0) (h₀ : t0 ≤ b.lastRefill)
    (ht : b.lastRefill ≤ t)
    (htotal : b.tokens = total + R * elapsedSeconds (b.lastRefill - t0)) (horder : InOrder t as)
    (hone : ∀ a ∈ as, a.OneAt) (hfull : Respects acquire Untruncated b as)
    (hrun : run acquire b as = some b') :
    Delivers total R t0 b as ↔ InStep t0 b.lastRefill as := by
  induction as generalizing b total t with
  | nil =>
    refine iff_of_true ?_ trivial
    intro before a after heq
    cases before <;> cases heq
  | cons a as ih =>
    obtain ⟨m, hm, hrest⟩ := run_cons.mp hrun
    have hone' : ∀ c ∈ as, c.OneAt := fun c hc => hone c (List.mem_cons_of_mem a hc)
    have hlast : b.lastRefill ≤ a.now := ht.trans horder.1
    have hnow2 : a.now2 = a.now := (hone a List.mem_cons_self).2
    have htokens := acquire_tokens_eq (hone a List.mem_cons_self) hfull.1 hlast hm
    obtain ⟨hrate, hcall⟩ := acquire_of_untruncated (hone a List.mem_cons_self) hfull.1 hm
    rw [hR, htotal] at htokens
    rw [delivers_cons_iff hm, InStep]
    by_cases hsame : elapsedSeconds (a.now - t0) = elapsedSeconds (b.lastRefill - t0)
    · -- the same second: no refill
      have hzero := elapsedSeconds_sub_of_eq h₀ hlast hsame
      rw [if_neg (by omega)] at hcall
      rw [hzero, Int.mul_zero] at htokens
      rw [if_pos hsame, ← hcall.1, hsame, and_iff_right (by omega)]
      exact ih (hrate.trans hR) (hcall.1 ▸ h₀) (by omega) (by rw [hcall.1]; omega) horder.2.2
        hone' (hfull.2 m hm) hrest
    rw [if_neg hsame]
    have hmono := elapsedSeconds_mono (d := b.lastRefill - t0) (e := a.now - t0) (by omega)
      (by omega)
    by_cases hphase : (b.lastRefill - t0) % 1000000000 ≤ (a.now - t0) % 1000000000
    · -- a new second, and no fraction is lost
      have hgap := elapsedSeconds_sub_of_le h₀ hlast hphase
      rw [if_pos (by omega)] at hcall
      rw [hgap, mul_sub] at htokens
      rw [and_iff_right hphase, and_iff_right (by omega), ← hcall.1]
      exact ih (hrate.trans hR) (by omega) (by omega) (by rw [hcall.1]; omega) horder.2.2
        hone' (hfull.2 m hm) hrest
    · -- the fraction since `last_refill_` is lost, and a whole second with it
      have hgap := elapsedSeconds_sub_of_lt h₀ hlast (not_le.mp hphase)
      rw [hgap, mul_sub, mul_sub, mul_one] at htokens
      refine iff_of_false (fun h => ?_) fun h => hphase h.1
      exact hne (by omega)

/-- **When the configured rate is delivered.** For every capacity, rate and construction time and
every run of calls `try_acquire(1)` one after the other, in which no refill is cut off: after each
call the tokens granted and left are the capacity and the rate for each whole second since
construction, if and only if the rate is zero or no call that is the first in its second, counted
from construction, comes earlier in its second than the one before. -/
theorem delivers_iff_inStep (horder : InOrder t0 as) (hone : ∀ a ∈ as, a.OneAt)
    (hfull : Respects acquire Untruncated (init C R t0) as)
    (hrun : run acquire (init C R t0) as = some b) :
    Delivers C R t0 (init C R t0) as ↔ R = 0 ∨ InStep t0 t0 as := by
  by_cases hR : R = 0
  · subst hR
    exact iff_of_true (delivers_of_rate_zero rfl rfl hone hfull hrun) (.inl rfl)
  · have htotal : C = C + R * elapsedSeconds (t0 - t0) := by simp [elapsedSeconds]
    rw [or_iff_right hR]
    exact delivers_iff_of_mark (b := init C R t0) rfl hR le_rfl le_rfl htotal horder hone hfull hrun

/-- Calls at 0 s, 1.2 s and 2.5 s. -/
theorem delivers_iff_inStep_three_calls :
    Delivers 10 1 0 (init 10 1 0) [⟨1, 0, 0, true⟩, ⟨1, 1200000000, 1200000000, true⟩,
        ⟨1, 2500000000, 2500000000, true⟩] ↔
      (1 : ℤ) = 0 ∨ InStep 0 0 [⟨1, 0, 0, true⟩, ⟨1, 1200000000, 1200000000, true⟩,
        ⟨1, 2500000000, 2500000000, true⟩] :=
  delivers_iff_inStep (by decide) (by decide) (by decide +kernel) rfl

/-- Calls at 0 s, 1.9 s and 3 s: the 0.9 s before the refill at 1.9 s are lost, and at 3 s two
tokens have been added where three are due. -/
theorem not_delivers_three_calls :
    ∃ as b, InOrder 0 as ∧ (∀ a ∈ as, a.OneAt) ∧ Respects acquire Untruncated (init 10 1 0) as ∧
      run acquire (init 10 1 0) as = some b ∧ ¬ Delivers 10 1 0 (init 10 1 0) as := by
  refine ⟨[⟨1, 0, 0, true⟩, ⟨1, 1900000000, 1900000000, true⟩, ⟨1, 3000000000, 3000000000, true⟩],
    ⟨9, 10, 1, 3000000000⟩, by decide, by decide, by decide +kernel, rfl, fun h => ?_⟩
  have hlast := h [⟨1, 0, 0, true⟩, ⟨1, 1900000000, 1900000000, true⟩]
    ⟨1, 3000000000, 3000000000, true⟩ [] rfl ⟨9, 10, 1, 3000000000⟩ rfl
  exact absurd hlast (by decide)

end Delivered

end TokenBucket

end AiSwitch
