import AiSwitch.Common.Effect
import Mathlib.Order.Basic

/-!
# Computations that cost something

What a computation does to the state may be bounded by a number, such as how often it does something
at most. Such bounds add up along a computation.
-/

namespace Effect

/-- Relations between states that are indexed by a cost: what costs nothing may be left out, what
costs less may be taken for what costs more, and costs add up. -/
structure Grading {σ : Type} (R : ℕ → σ → σ → Prop) : Prop where
  refl : ∀ s, R 0 s s
  mono : ∀ {m n s t}, m ≤ n → R m s t → R n s t
  add : ∀ {m n s t u}, R m s t → R n t u → R (m + n) s u

namespace Prog

variable {σ ε α β : Type} {R : ℕ → σ → σ → Prop} {m n : ℕ} {x : Prog σ ε α}

/-- What costs at most `m` costs at most any more than that. -/
theorem Moves.mono (h : Grading R) (hmn : m ≤ n) (hx : Moves (R m) x) : Moves (R n) x :=
  fun s => h.mono hmn (hx s)

/-- The costs of two steps add up. -/
theorem Moves.bind_add (h : Grading R) {f : α → Prog σ ε β} (hx : Moves (R m) x)
    (hf : ∀ a, Moves (R n) (f a)) : Moves (R (m + n)) (x >>= f) := by
  intro s
  have hs := hx s
  rw [bind_apply]
  rcases hrun : x s with ⟨a | _ | _, s'⟩ <;> rw [hrun] at hs
  · exact h.add hs (hf a s')
  · exact h.mono (Nat.le_add_right m n) hs
  · exact h.mono (Nat.le_add_right m n) hs

/-- What is free beforehand adds nothing. -/
theorem Moves.free_bind (h : Grading R) {f : α → Prog σ ε β} (hx : Moves (R 0) x)
    (hf : ∀ a, Moves (R n) (f a)) : Moves (R n) (x >>= f) :=
  Nat.zero_add n ▸ hx.bind_add h hf

/-- What follows for free adds nothing. -/
theorem Moves.bind_free (h : Grading R) {f : α → Prog σ ε β} (hx : Moves (R m) x)
    (hf : ∀ a, Moves (R 0) (f a)) : Moves (R m) (x >>= f) :=
  hx.bind_add h hf

/-- A handler that is free adds nothing. -/
theorem Moves.tryCatch_free (h : Grading R) {handler : ε → Prog σ ε α} (hx : Moves (R m) x)
    (hh : ∀ e, Moves (R 0) (handler e)) : Moves (R m) (Prog.tryCatch x handler) := by
  intro s
  have hs := hx s
  rw [Prog.tryCatch]
  rcases hrun : x s with ⟨_ | e | _, s'⟩ <;> rw [hrun] at hs
  · exact hs
  · exact h.add hs (hh e s')
  · exact hs

end Prog

end Effect
