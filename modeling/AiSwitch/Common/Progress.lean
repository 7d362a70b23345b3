import AiSwitch.Common.Transition
import Mathlib.Algebra.BigOperators.Group.List.Basic
import Mathlib.Algebra.GroupWithZero.Nat
import Mathlib.Data.List.Perm.Basic

/-!
# Progress among other actions

`Inevitable` is about runs in which nothing else happens. Here other actions may come in between,
which do not bring the goal nearer but do not put it off either. At the end stands what a step
does to a measure that adds up over a list.
-/

namespace Transition

variable {σ ℓ : Type*} {step : σ → ℓ → Option σ} {Inv : σ → Prop}

/-- Whichever actions of the kind `P` are taken, with others of the kind `N` among them, those of
the kind `P` come to an end, and not before the goal is reached. -/
def InevitableAmong (step : σ → ℓ → Option σ) (N P : ℓ → Prop) [DecidablePred P] (Goal : σ → Prop)
    (s : σ) : Prop :=
  ∃ bound, ∀ as s', (∀ a ∈ as, N a ∨ P a) → run step s as = some s' →
    as.countP P ≤ bound ∧ (Goal s' ∨ ∃ a s'', P a ∧ step s' a = some s'')

/-- **The rule of termination among other actions.** If the actions of the kind `P` lower the
measure, those of the kind `N` do not raise it, and some action of the kind `P` is enabled as long
as the goal is not reached, the goal is inevitable. -/
theorem inevitableAmong_of_measure {N P : ℓ → Prop} [DecidablePred P] {Goal : σ → Prop}
    (measure : σ → ℕ)
    (hstep : ∀ s a s', Inv s → P a → step s a = some s' → Inv s' ∧ measure s' < measure s)
    (hother : ∀ s a s', Inv s → N a → step s a = some s' → Inv s' ∧ measure s' ≤ measure s)
    (hprogress : ∀ s, Inv s → ¬ Goal s → ∃ a s', P a ∧ step s a = some s') {s : σ}
    (hinv : Inv s) : InevitableAmong step N P Goal s := by
  have hrun : ∀ {as : List ℓ} {s s' : σ}, Inv s → (∀ a ∈ as, N a ∨ P a) →
      run step s as = some s' → Inv s' ∧ as.countP P + measure s' ≤ measure s := by
    intro as
    induction as with
    | nil =>
      rintro s s' hinv - hrun
      cases hrun
      exact ⟨hinv, by simp⟩
    | cons a as ih =>
      intro s s' hinv hkinds hrun
      obtain ⟨m, hm, hrest⟩ := run_cons.mp hrun
      obtain ⟨ha, has⟩ := List.forall_mem_cons.mp hkinds
      by_cases hP : P a
      · obtain ⟨hinv', hlt⟩ := hstep s a m hinv hP hm
        obtain ⟨hinv'', hle⟩ := ih hinv' has hrest
        rw [List.countP_cons_of_pos (by simpa using hP)]
        exact ⟨hinv'', by omega⟩
      · obtain ⟨hinv', hlt⟩ := hother s a m hinv (ha.resolve_right hP) hm
        obtain ⟨hinv'', hle⟩ := ih hinv' has hrest
        rw [List.countP_cons_of_neg (by simpa using hP)]
        exact ⟨hinv'', by omega⟩
  refine ⟨measure s, fun as s' hkinds has => ?_⟩
  obtain ⟨hinv', hle⟩ := hrun hinv hkinds has
  refine ⟨by omega, ?_⟩
  by_cases hgoal : Goal s'
  · exact .inl hgoal
  · exact .inr (hprogress s' hinv' hgoal)

/-! ## A measure that is a sum over a list -/

section Sums

variable {α : Type*} {l : List α} {i : ℕ} {a : α}

/-- What one element adds, and what the others do. -/
theorem sum_map_of_getElem (f : α → ℕ) (h : l[i]? = some a) :
    (l.map f).sum = f a + ((l.eraseIdx i).map f).sum := by
  obtain ⟨hi, rfl⟩ := List.getElem?_eq_some_iff.mp h
  have hperm := (List.getElem_cons_eraseIdx_perm hi).map f
  rw [← hperm.sum_eq, List.map_cons, List.sum_cons]

/-- The others add the same when it is replaced. -/
theorem sum_map_set (f : α → ℕ) (h : l[i]? = some a) (b : α) :
    ((l.set i b).map f).sum = f b + ((l.eraseIdx i).map f).sum := by
  obtain ⟨hi, rfl⟩ := List.getElem?_eq_some_iff.mp h
  have hperm := (List.set_perm_cons_eraseIdx hi b).map f
  rw [hperm.sum_eq, List.map_cons, List.sum_cons]

end Sums

end Transition
