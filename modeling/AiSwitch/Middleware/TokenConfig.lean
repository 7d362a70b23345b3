import AiSwitch.Middleware.TokenBucketSteps

/-!
# Changing the limits of a bucket

`update_config` replaces the capacity and the rate and cuts the tokens off at the new capacity, but
leaves `last_refill_` where it is. The time since then has not been credited yet; the next
`try_acquire` credits it at the new rate and up to the new capacity. `notRetroactive_iff` says when
that makes no difference.
-/

namespace AiSwitch

open Effect Transition

namespace TokenBucket

/-- `update_config` -/
def updateConfig (b : TokenBucket) (capacity refillPerSecond : ℤ) : TokenBucket :=
  { b with
    tokens := if capacity < b.tokens then capacity else b.tokens
    capacity := capacity
    refillRate := refillPerSecond }

/-- The count that a `try_acquire` at time `u` compares its argument with. -/
def available (b : TokenBucket) (u : ℤ) : Outcome Exn ℤ := do
  return (← b.refill u u).tokens

/-- After an update to the limits `c` and `r` at time `u` there is what there was before, cut off
at the new capacity. -/
def NotRetroactive (b : TokenBucket) (c r u : ℤ) : Prop :=
  ∃ n, b.available u = .ok n ∧ (b.updateConfig c r).available u = .ok (min c n)

variable {b : TokenBucket} {c r u : ℤ}

/-- What is available after a defined refill. -/
theorem available_of_defined (h : b.Defined u u) :
    b.available u = .ok (if 0 < elapsedSeconds (u - b.lastRefill) then
      min b.capacity (b.tokens + elapsedSeconds (u - b.lastRefill) * b.refillRate)
      else b.tokens) := by
  rw [available, refill_of_defined h, Outcome.ok_bind, Outcome.pure_eq, current]
  by_cases hpos : 0 < elapsedSeconds (u - b.lastRefill)
  · rw [if_pos ⟨hpos, hpos⟩, if_pos hpos, min_def]
    show Outcome.ok (if b.capacity < b.newTokens u then b.capacity else b.newTokens u) = _
    rw [newTokens]
    congr 1
    split_ifs <;> omega
  · rw [if_neg fun h => hpos h.1, if_neg hpos]

/-- A call finds what is available: it succeeds exactly if it asks for no more. -/
theorem tryAcquire_eq_true_iff {n k : ℤ} (h : b.available u = .ok n) :
    (∃ b', b.tryAcquire k u u = .ok (true, b')) ↔ k ≤ n := by
  rw [available] at h
  obtain ⟨b', hb', hn⟩ := Outcome.bind_eq_ok_iff.mp h
  obtain rfl : b'.tokens = n := by simpa using hn
  rw [tryAcquire, hb', Outcome.ok_bind]
  split_ifs with hk <;> simp [hk]

/-- **When an update is not retroactive.** For every bucket, time and new limits without overflow:
exactly if no whole second is uncredited, or the uncredited seconds are worth the same at the new
rate as they were at the old rate up to the old capacity, or the new capacity is reached either
way. -/
theorem notRetroactive_iff (hlast : b.lastRefill ≤ u) (hr : 0 ≤ r) (hold : b.Defined u u)
    (hnew : (b.updateConfig c r).Defined u u) :
    let e := elapsedSeconds (u - b.lastRefill)
    b.NotRetroactive c r u ↔
      e = 0 ∨ b.tokens + e * r = min b.capacity (b.tokens + e * b.refillRate) ∨
        c ≤ b.capacity ∧ c ≤ b.tokens + e * b.refillRate ∧ c ≤ b.tokens + e * r := by
  intro e
  have he : 0 ≤ e := Int.tdiv_nonneg (by omega) (by decide)
  have hcredit : 0 ≤ e * r := mul_nonneg he hr
  rw [NotRetroactive, available_of_defined hold, available_of_defined hnew]
  change (∃ n, Outcome.ok (if 0 < e then min b.capacity (b.tokens + e * b.refillRate)
      else b.tokens) = .ok n ∧ Outcome.ok (if 0 < e then
        min c ((if c < b.tokens then c else b.tokens) + e * r)
        else if c < b.tokens then c else b.tokens) = .ok (min c n)) ↔ _
  simp only [Outcome.ok.injEq, exists_eq_left']
  by_cases hpos : 0 < e
  · rw [if_pos hpos, if_pos hpos, or_iff_right (by omega)]
    split_ifs <;> omega
  · rw [if_neg hpos, if_neg hpos]
    refine iff_of_true ?_ (.inl (by omega))
    split_ifs <;> omega

/-- An update half a second after the last refill. -/
theorem notRetroactive_iff_half_second :
    NotRetroactive ⟨0, 5, 1, 0⟩ 20 10 500000000 ↔
      elapsedSeconds (500000000 - 0) = 0 ∨
        0 + elapsedSeconds (500000000 - 0) * 10 = min 5 (0 + elapsedSeconds (500000000 - 0) * 1) ∨
        (20 : ℤ) ≤ 5 ∧ 20 ≤ 0 + elapsedSeconds (500000000 - 0) * 1 ∧
          20 ≤ 0 + elapsedSeconds (500000000 - 0) * 10 :=
  notRetroactive_iff (b := ⟨0, 5, 1, 0⟩) (by decide) (by decide) (by decide) (by decide)

/-- An empty bucket of five tokens, one a second, that is idle for ten seconds: five are due, but
after an update to twenty tokens, ten a second, there are twenty. -/
theorem not_notRetroactive_ten_seconds : ¬ NotRetroactive ⟨0, 5, 1, 0⟩ 20 10 10000000000 := by
  rintro ⟨n, hold, hnew⟩
  cases hold
  exact absurd hnew (by decide)

end TokenBucket

namespace TokenBucketSteps

/-- **A lone update is sequential.** A thread that calls `update_config` and is not disturbed leaves
the bucket of `TokenBucket.updateConfig`. -/
theorem reaches_updateConfig {s : State} {t : ℕ} (hidle : s.pc t = .idle)
    (hfree : s.bucket.refillMutex = none) (c r : ℤ) :
    ∃ b, Reaches s t b .idle ∧ b.toBucket = s.bucket.toBucket.updateConfig c r := by
  have hcall : Reaches s t s.bucket (.configLock c r) :=
    (Reaches.refl s t).then (a := .call t (.updateConfig c r))
      (by rw [Function.update_eq_self, step, if_pos hidle]; rfl)
  have hload := (((hcall.run (by rw [threadStep, if_pos hfree])).run rfl).run rfl).run rfl
  refine ⟨_, (hload.run rfl).run rfl, ?_⟩
  rw [TokenBucket.updateConfig]
  by_cases hcut : c < s.bucket.tokens
  · simp [Shared.toBucket, hcut]
  · simp [Shared.toBucket, hcut]

end TokenBucketSteps

end AiSwitch
