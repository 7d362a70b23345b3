import Mathlib.Logic.Function.Basic
import Mathlib.Tactic.Common

/-!
# Mutual exclusion

Threads are indexed by `ι`, `inside t` says that thread `t` stands between its lock and its unlock,
and `owner` is the recorded holder of the mutex. `Guards` says that these agree. Every step of a
system keeps it by one of three rules: nobody enters (`mono`), one thread locks (`lock`), or the
holder unlocks (`unlock`). `Exact` says that the holder is inside as well.
-/

namespace Mutex

variable {ι π : Type*} {inside inside' : ι → Prop} {owner : Option ι} {t u : ι}

/-- A thread in the critical section owns the mutex. -/
def Guards (inside : ι → Prop) (owner : Option ι) : Prop := ∀ t, inside t → owner = some t

/-- **Mutual exclusion.** While one thread is in the critical section, no other is. -/
theorem Guards.not_inside (h : Guards inside owner) (ht : inside t) (hu : u ≠ t) : ¬ inside u := by
  intro hin
  exact hu (Option.some.inj ((h u hin).symm.trans (h t ht)))

/-- While the mutex is free no thread is inside. -/
theorem Guards.not_inside_of_free (h : Guards inside none) (t : ι) : ¬ inside t := by
  intro ht
  cases h t ht

/-- A step after which no other thread is inside. -/
theorem Guards.mono (h : Guards inside owner) (himp : ∀ t, inside' t → inside t) :
    Guards inside' owner := fun t ht => h t (himp t ht)

/-- A mutex that is locked when it is free guards its new holder. -/
theorem Guards.lock (h : Guards inside none) (himp : ∀ u, u ≠ t → inside' u → inside u) :
    Guards inside' (some t) := by
  intro u hu
  by_cases hut : u = t
  · rw [hut]
  · exact absurd (himp u hut hu) (h.not_inside_of_free u)

/-- A mutex that is unlocked by a holder who leaves is free with nobody inside. -/
theorem Guards.unlock (h : Guards inside owner) (ht : inside t) (hout : ¬ inside' t)
    (himp : ∀ u, u ≠ t → inside' u → inside u) : Guards inside' none := by
  intro u hu
  by_cases hut : u = t
  · exact absurd (hut ▸ hu) hout
  · exact absurd (himp u hut hu) (h.not_inside ht hut)

/-! ## The exact owner

A step of one thread stays on its side of the lock, takes the free mutex or gives its own back.
-/

/-- The owner, and no other thread, is in the critical section. -/
def Exact (inside : ι → Prop) (owner : Option ι) : Prop := ∀ t, inside t ↔ owner = some t

/-- A mutex that is held by exactly the thread inside guards it. -/
theorem Exact.guards (h : Exact inside owner) : Guards inside owner := fun t => (h t).mp

/-- What thread `t` does to the mutex on its way from one position to the next. -/
inductive Move (t : ι) (before after : Prop) : Option ι → Option ι → Prop where
  | stay {owner : Option ι} : (after ↔ before) → Move t before after owner owner
  | lock : after → Move t before after none (some t)
  | unlock {owner : Option ι} : before → ¬ after → Move t before after owner none

/-! ## Threads with a position

Where the critical section is a set of positions, a step changes the position of one thread.
-/

section

variable [DecidableEq ι] {critical : π → Prop} {pc : ι → π} {p : π}

/-- A step of one thread leaves the others where they are. -/
theorem critical_of_update_of_ne (hu : u ≠ t) (h : critical (Function.update pc t p u)) :
    critical (pc u) := by
  rwa [Function.update_of_ne hu] at h

/-- A step that does not enter the critical section keeps the mutex its guard. -/
theorem Guards.update (h : Guards (fun u => critical (pc u)) owner)
    (hp : critical p → critical (pc t)) :
    Guards (fun u => critical (Function.update pc t p u)) owner := by
  apply h.mono
  intro u hu
  by_cases hut : u = t
  · subst hut
    exact hp (by simpa using hu)
  · exact critical_of_update_of_ne hut hu

/-- Taking the free mutex lets its new owner in. -/
theorem Guards.update_lock (h : Guards (fun u => critical (pc u)) none) :
    Guards (fun u => critical (Function.update pc t p u)) (some t) :=
  h.lock fun _ hu => critical_of_update_of_ne hu

/-- The owner leaves and frees the mutex. -/
theorem Guards.update_unlock (h : Guards (fun u => critical (pc u)) owner) (ht : critical (pc t))
    (hp : ¬ critical p) : Guards (fun u => critical (Function.update pc t p u)) none :=
  h.unlock ht (by simpa using hp) fun _ hu => critical_of_update_of_ne hu

/-- **The rule of the exact owner.** -/
theorem Exact.move {owner owner' : Option ι} (h : Exact (fun u => critical (pc u)) owner)
    (hmove : Move t (critical (pc t)) (critical p) owner owner') :
    Exact (fun u => critical (Function.update pc t p u)) owner' := by
  intro u
  by_cases hut : u = t
  · subst hut
    show critical (Function.update pc u p u) ↔ _
    rw [Function.update_self]
    cases hmove with
    | stay hiff => exact hiff.trans (h u)
    | lock hp => exact iff_of_true hp rfl
    | unlock _ hp => exact iff_of_false hp nofun
  · show critical (Function.update pc t p u) ↔ _
    rw [Function.update_of_ne hut]
    cases hmove with
    | stay => exact h u
    | lock => exact iff_of_false (h.guards.not_inside_of_free u) (by simpa using Ne.symm hut)
    | unlock ht => exact iff_of_false (h.guards.not_inside ht hut) nofun

end

end Mutex
