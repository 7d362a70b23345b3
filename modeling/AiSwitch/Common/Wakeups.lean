import AiSwitch.Common.Ledger

/-!
# Wake-ups that are not lost

A queue is filled and emptied by threads that wait for it on a condition variable. `cover p` is `1`
where a thread at position `p` is going to look into the queue, or is going to notify a thread that
will, and `waits p` says that the thread waits. The queue is `Covered` if, as long as anybody waits,
every element has a thread of its own that takes care of it.

A step of one thread keeps this where what it puts into the queue it covers itself, and what it
ceases to cover it has taken out (`Covered.update`). A thread may begin to wait where the queue is
empty, and a notification hands its cover over to the thread that it wakes (`Covered.notify`).
-/

namespace Wakeups

open Ledger

variable {ι π : Type*} [Fintype ι] {cover : π → ℕ} {waits : π → Prop} {pc : ι → π} {q q' : ℕ}

/-- If a thread waits, at most as many elements are queued as threads take care of. -/
def Covered (cover : π → ℕ) (waits : π → Prop) (q : ℕ) (pc : ι → π) : Prop :=
  (∃ t, waits (pc t)) → q ≤ underWay cover pc

/-- Nothing to do needs no wake-up. -/
theorem covered_zero : Covered cover waits 0 pc := fun _ => Nat.zero_le _

/-- Where nobody waits nothing needs to be covered. -/
theorem covered_of_forall (h : ∀ t, ¬ waits (pc t)) : Covered cover waits q pc :=
  fun ⟨t, ht⟩ => absurd ht (h t)

/-- **No wake-up is lost.** If somebody waits and nobody takes care of the queue, it is empty. -/
theorem Covered.eq_zero (h : Covered cover waits q pc) (hwaits : ∃ t, waits (pc t))
    (hcover : ∀ t, cover (pc t) = 0) : q = 0 := by
  have hle := h hwaits
  rw [underWay_eq_zero hcover] at hle
  exact Nat.eq_zero_of_le_zero hle

section

variable [DecidableEq ι] {t u : ι} {p p' w : π}

/-- **One thread takes a step.** -/
theorem Covered.update (h : Covered cover waits q pc) (hpc : pc t = p)
    (hwaits : waits p' → waits p) (hcover : q' + cover p ≤ q + cover p') :
    Covered cover waits q' (Function.update pc t p') := by
  rintro ⟨v, hv⟩
  have hle : q ≤ underWay cover pc := by
    refine h ⟨v, ?_⟩
    by_cases hvt : v = t
    · subst hvt
      rw [Function.update_self] at hv
      exact hpc ▸ hwaits hv
    · rwa [Function.update_of_ne hvt] at hv
  have hsum := underWay_update cover pc t p'
  rw [hpc] at hsum
  omega

/-- **A notification.** Thread `t` gives up its cover, and the waiting thread `u` that it wakes
covers what `t` did. -/
theorem Covered.notify (h : Covered cover waits q pc) (ht : pc t = p) (hut : u ≠ t)
    (hu : waits (pc u)) (hsleep : cover (pc u) = 0) (hcover : cover p ≤ cover p' + cover w) :
    Covered cover waits q (Function.update (Function.update pc t p') u w) := by
  intro _
  have hle := h ⟨u, hu⟩
  have hfirst := underWay_update cover pc t p'
  have hsecond := underWay_update cover (Function.update pc t p') u w
  rw [Function.update_of_ne hut, hsleep] at hsecond
  rw [ht] at hfirst
  omega

end

end Wakeups
