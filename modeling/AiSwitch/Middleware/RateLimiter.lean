import AiSwitch.Common.Exn
import Mathlib.Algebra.Group.Int.Defs
import Mathlib.Data.Int.Order.Basic

/-!
# The token bucket of the rate limiter

`token_bucket` (`middleware/rate_limiter.cpp`) as one caller at a time sees it: a call of
`try_acquire` first credits the whole seconds since the last refill, cut off at the capacity, and
then takes its tokens if there are enough. Times are in nanoseconds. The products and sums of the
refill are signed 64-bit arithmetic, which has no behaviour where it overflows.
-/

namespace AiSwitch

open Effect

/-- `duration_cast<seconds>`, which truncates. -/
def elapsedSeconds (d : ℤ) : ℤ := d.tdiv 1000000000

/-- Whole seconds of two spans fit into those of both together. -/
theorem elapsedSeconds_add_le {d e : ℤ} (hd : 0 ≤ d) (he : 0 ≤ e) :
    elapsedSeconds d + elapsedSeconds e ≤ elapsedSeconds (d + e) := by
  simp only [elapsedSeconds, Int.tdiv_eq_ediv_of_nonneg hd, Int.tdiv_eq_ediv_of_nonneg he,
    Int.tdiv_eq_ediv_of_nonneg (Int.add_nonneg hd he)]
  omega

/-- A longer duration has no fewer full seconds. -/
theorem elapsedSeconds_mono {d e : ℤ} (hd : 0 ≤ d) (h : d ≤ e) :
    elapsedSeconds d ≤ elapsedSeconds e := by
  simp only [elapsedSeconds, Int.tdiv_eq_ediv_of_nonneg hd,
    Int.tdiv_eq_ediv_of_nonneg (Int.le_trans hd h)]
  omega

/-- A positive number of seconds is a positive time. -/
theorem pos_of_elapsedSeconds_pos {d : ℤ} (h : 0 < elapsedSeconds d) : 0 < d := by
  by_contra hd
  have hneg : 0 ≤ (-d).tdiv 1000000000 := Int.tdiv_nonneg (by omega) (by decide)
  rw [Int.neg_tdiv] at hneg
  rw [elapsedSeconds] at h
  omega

/-- The values of `int64_t`. -/
def InInt64 (n : ℤ) : Prop := -2 ^ 63 ≤ n ∧ n < 2 ^ 63

instance : DecidablePred InInt64 := fun _ => inferInstanceAs (Decidable (_ ∧ _))

/-- The fields of `token_bucket`. -/
structure TokenBucket where
  tokens : ℤ
  capacity : ℤ
  refillRate : ℤ
  lastRefill : ℤ
deriving DecidableEq, Repr

namespace TokenBucket

variable (b : TokenBucket) {now now2 : ℤ}

/-- `tokens_ + elapsed * refill_rate_` -/
def newTokens (now2 : ℤ) : ℤ := b.tokens + elapsedSeconds (now2 - b.lastRefill) * b.refillRate

/-- The state after the two stores of a refill at `now2`. -/
def refilled (now2 : ℤ) : TokenBucket :=
  { b with
    tokens := if b.capacity < b.newTokens now2 then b.capacity else b.newTokens now2
    lastRefill := now2 }

/-- The arithmetic of a refill at `now2` does not overflow. -/
def RefillFits (now2 : ℤ) : Prop :=
  InInt64 (elapsedSeconds (now2 - b.lastRefill) * b.refillRate) ∧ InInt64 (b.newTokens now2)

instance : Decidable (b.RefillFits now2) := inferInstanceAs (Decidable (_ ∧ _))

/-- A refill whose two checks read the clock at `now` and `now2` credits something. -/
def Refills (now now2 : ℤ) : Prop :=
  0 < elapsedSeconds (now - b.lastRefill) ∧ 0 < elapsedSeconds (now2 - b.lastRefill)

instance : Decidable (b.Refills now now2) := inferInstanceAs (Decidable (_ ∧ _))

/-- `refill`, with the readings of the clock before and after the lock. -/
def refill (now now2 : ℤ) : Outcome Exn TokenBucket :=
  if elapsedSeconds (now - b.lastRefill) ≤ 0 then .ok b
  else if elapsedSeconds (now2 - b.lastRefill) ≤ 0 then .ok b
  else if b.RefillFits now2 then .ok (b.refilled now2)
  else .ub

/-- `try_acquire`. Without another thread the first compare-exchange decides. -/
def tryAcquire (k now now2 : ℤ) : Outcome Exn (Bool × TokenBucket) := do
  let b ← b.refill now now2
  if k ≤ b.tokens then
    return (true, { b with tokens := b.tokens - k })
  else
    return (false, b)

/-- The bucket that `try_acquire` looks at: refilled, if at least a second has passed. -/
def current (now now2 : ℤ) : TokenBucket := if b.Refills now now2 then b.refilled now2 else b

/-- The arithmetic of `try_acquire` does not overflow. -/
def Defined (now now2 : ℤ) : Prop := b.Refills now now2 → b.RefillFits now2

instance : Decidable (b.Defined now now2) := inferInstanceAs (Decidable (_ → _))

variable {b}

/-- A refill without overflow fills up to the current tokens. -/
theorem refill_of_defined (h : b.Defined now now2) :
    b.refill now now2 = .ok (b.current now now2) := by
  unfold refill current
  by_cases hrefills : b.Refills now now2
  · rw [if_neg (not_le.mpr hrefills.1), if_neg (not_le.mpr hrefills.2), if_pos (h hrefills),
      if_pos hrefills]
  · rw [if_neg hrefills]
    split_ifs with hfirst hsecond
    · rfl
    · rfl
    · exact absurd ⟨not_le.mp hfirst, not_le.mp hsecond⟩ hrefills
    · exact absurd ⟨not_le.mp hfirst, not_le.mp hsecond⟩ hrefills

/-- An overflow in the refill has no defined behaviour. -/
theorem refill_of_not_defined (h : ¬ b.Defined now now2) : b.refill now now2 = .ub := by
  rw [Defined, Classical.not_imp] at h
  obtain ⟨⟨hfirst, hsecond⟩, hfits⟩ := h
  rw [refill, if_neg (not_le.mpr hfirst), if_neg (not_le.mpr hsecond), if_neg hfits]

/-- A defined `try_acquire` succeeds exactly when the current bucket holds enough. -/
theorem tryAcquire_of_defined (h : b.Defined now now2) (k : ℤ) :
    b.tryAcquire k now now2 =
      if k ≤ (b.current now now2).tokens then
        .ok (true, { b.current now now2 with tokens := (b.current now now2).tokens - k })
      else .ok (false, b.current now now2) := by
  rw [tryAcquire, refill_of_defined h, Outcome.ok_bind]
  split <;> rfl

/-- `try_acquire` has no defined behaviour where its refill has none. -/
theorem tryAcquire_of_not_defined (h : ¬ b.Defined now now2) (k : ℤ) :
    b.tryAcquire k now now2 = .ub := by
  rw [tryAcquire, refill_of_not_defined h, Outcome.ub_bind]

end TokenBucket

end AiSwitch
