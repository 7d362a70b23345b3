import Mathlib.Data.List.Nodup
import Mathlib.Logic.Function.Basic

/-!
# Resources on loan

Threads take resources from a queue and put them back. As long as nobody puts back what is not on
loan to it, a resource is in the queue or held by one thread.
-/

namespace Lending

variable {ι α : Type*}

/-- The queue, which may also have null pointers in it, and what each thread holds. -/
structure OnLoan (free : List (Option α)) (held : ι → Option α) : Prop where
  nodup : free.Nodup
  apart : ∀ t a, held t = some a → some a ∉ free
  alone : ∀ t u a, held t = some a → held u = some a → t = u

variable {free : List (Option α)} {held : ι → Option α} {t u : ι} {a b : α}

/-- At the start everything is free. -/
theorem onLoan_init (h : free.Nodup) : OnLoan free fun _ : ι => (none : Option α) where
  nodup := h
  apart _ _ ha := by cases ha
  alone _ _ _ ha := by cases ha

/-- Two threads hold different things. -/
theorem OnLoan.ne (h : OnLoan free held) (htu : t ≠ u) (ha : held t = some a)
    (hb : held u = some b) : a ≠ b := by
  rintro rfl
  exact htu (h.alone t u a ha hb)

/-- What is at the head of the queue gets lost. -/
theorem OnLoan.tail (h : OnLoan free held) : OnLoan free.tail held :=
  ⟨h.nodup.tail, fun t a ha hmem => h.apart t a ha (List.mem_of_mem_tail hmem), h.alone⟩

variable [DecidableEq ι]

/-- A thread that holds nothing more disturbs nobody. -/
theorem OnLoan.drop (h : OnLoan free held) (t : ι) : OnLoan free (Function.update held t none) := by
  have hheld : ∀ {u b}, Function.update held t none u = some b → held u = some b := by
    intro u b hu
    by_cases hut : u = t
    · subst hut
      rw [Function.update_self] at hu
      cases hu
    · rwa [Function.update_of_ne hut] at hu
  exact ⟨h.nodup, fun u b hu => h.apart u b (hheld hu),
    fun u v b hu hv => h.alone u v b (hheld hu) (hheld hv)⟩

/-- A thread may take the first of the free ones. -/
theorem OnLoan.take (h : OnLoan (some a :: free) held) (t : ι) :
    OnLoan free (Function.update held t (some a)) := by
  obtain ⟨hhead, hnodup⟩ := List.nodup_cons.mp h.nodup
  have hothers : ∀ u, held u ≠ some a := fun u hu => h.apart u a hu List.mem_cons_self
  refine ⟨hnodup, fun u b hu => ?_, fun u v b hu hv => ?_⟩
  · by_cases hut : u = t
    · rw [hut, Function.update_self] at hu
      rwa [← hu]
    · rw [Function.update_of_ne hut] at hu
      exact fun hb => h.apart u b hu (List.mem_cons_of_mem _ hb)
  · by_cases hut : u = t <;> by_cases hvt : v = t
    · rw [hut, hvt]
    · rw [hut, Function.update_self] at hu
      rw [Function.update_of_ne hvt, ← hu] at hv
      exact (hothers v hv).elim
    · rw [hvt, Function.update_self] at hv
      rw [Function.update_of_ne hut, ← hv] at hu
      exact (hothers u hu).elim
    · rw [Function.update_of_ne hut] at hu
      rw [Function.update_of_ne hvt] at hv
      exact h.alone u v b hu hv

/-- A thread may give back what it holds. -/
theorem OnLoan.give (h : OnLoan free held) (ha : held t = some a) :
    OnLoan (free ++ [some a]) (Function.update held t none) := by
  refine ⟨?_, fun u b hu => ?_, (h.drop t).alone⟩
  · have hnodup := h.nodup.concat (h.apart t a ha)
    rwa [List.concat_eq_append] at hnodup
  · have hfree := (h.drop t).apart u b hu
    by_cases hut : u = t
    · rw [hut, Function.update_self] at hu
      cases hu
    · rw [Function.update_of_ne hut] at hu
      simpa [hfree] using h.ne hut hu ha

end Lending
