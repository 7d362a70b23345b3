import Mathlib.Algebra.BigOperators.Group.Finset.Piecewise
import Mathlib.Algebra.BigOperators.Group.Multiset.Basic
import Mathlib.Algebra.Order.BigOperators.Group.Finset
import Mathlib.Algebra.Order.Group.Multiset
import Mathlib.Data.Multiset.Count
import Mathlib.Tactic.Abel

/-!
# Accounts kept by threads

Threads are indexed by `ι`, and `share p` is what a thread at position `p` has under way. A total is
`Reconciled` if all of it is either settled or under way in some thread. A step of one thread keeps
it so where the books of that thread agree (`Reconciled.update`).
-/

namespace Ledger

variable {ι π M : Type*} [Fintype ι]

section Account

variable [AddCommMonoid M] {share : π → M} {pc pc' : ι → π} {total settled : M}

/-- What the threads have under way between them. -/
def underWay (share : π → M) (pc : ι → π) : M := ∑ t, share (pc t)

/-- Everything in the total is settled or under way. -/
def Reconciled (total settled : M) (share : π → M) (pc : ι → π) : Prop :=
  total = settled + underWay share pc

/-- A thread's step exchanges its own share. -/
theorem underWay_update [DecidableEq ι] (share : π → M) (pc : ι → π) (t : ι) (p : π) :
    share (pc t) + underWay share (Function.update pc t p) = share p + underWay share pc := by
  have hothers : ∑ u ∈ Finset.univ.erase t, share (Function.update pc t p u)
      = ∑ u ∈ Finset.univ.erase t, share (pc u) := by
    apply Finset.sum_congr rfl
    intro u hu
    rw [Function.update_of_ne (Finset.ne_of_mem_erase hu)]
  rw [underWay, underWay, ← Finset.add_sum_erase _ _ (Finset.mem_univ t), hothers,
    Function.update_self, add_left_comm,
    Finset.add_sum_erase _ (fun u => share (pc u)) (Finset.mem_univ t)]

/-- A step that changes no share changes no sum. -/
theorem underWay_congr (h : ∀ t, share (pc' t) = share (pc t)) :
    underWay share pc' = underWay share pc := Finset.sum_congr rfl fun t _ => h t

/-- Without shares nothing is under way. -/
theorem underWay_eq_zero (h : ∀ t, share (pc t) = 0) : underWay share pc = 0 :=
  Finset.sum_eq_zero fun t _ => h t

/-- The account stays settled while no thread's share changes. -/
theorem Reconciled.congr (h : Reconciled total settled share pc)
    (hshare : ∀ t, share (pc' t) = share (pc t)) : Reconciled total settled share pc' := by
  rw [Reconciled, underWay_congr hshare]
  exact h

/-- Where nothing is under way, everything is settled. -/
theorem Reconciled.eq_settled (h : Reconciled total settled share pc)
    (hshare : ∀ t, share (pc t) = 0) : total = settled := by
  rw [h, underWay_eq_zero hshare, add_zero]

/-- An account of several things at once is an account of each of them. -/
theorem Reconciled.map {N : Type*} [AddCommMonoid N] (h : Reconciled total settled share pc)
    (f : M →+ N) : Reconciled (f total) (f settled) (fun p => f (share p)) pc := by
  rw [Reconciled, h, map_add, underWay, map_sum]
  rfl

end Account

/-- **One thread takes a step.** The account stays reconciled if the books of that thread do. -/
theorem Reconciled.update [AddCancelCommMonoid M] [DecidableEq ι] {share : π → M} {pc : ι → π}
    {total settled total' settled' : M} {t : ι} {p : π} (h : Reconciled total settled share pc)
    (hbooks : total' + settled + share (pc t) = total + settled' + share p) :
    Reconciled total' settled' share (Function.update pc t p) := by
  apply add_right_cancel (b := settled + share (pc t))
  calc total' + (settled + share (pc t))
      = settled + underWay share pc + settled' + share p := by rw [← add_assoc, hbooks, h]
    _ = settled + settled' + (share p + underWay share pc) := by abel
    _ = settled + settled' + (share (pc t) + underWay share (Function.update pc t p)) := by
      rw [underWay_update]
    _ = settled' + underWay share (Function.update pc t p) + (settled + share (pc t)) := by abel

/-! ## Accounts of things

Where the total holds no thing twice, each has one place.
-/

section Things

variable {α : Type*} {share : π → Multiset α} {pc : ι → π} {total settled : Multiset α} {x : α}

/-- What is under way is in some thread's share. -/
theorem mem_underWay : x ∈ underWay share pc ↔ ∃ t, x ∈ share (pc t) := by
  simp [underWay, Multiset.mem_sum]

/-- **Every thing has one place.** It is settled once and no thread has it, or it is not settled and
exactly one thread has it. -/
theorem Reconciled.settled_or_unique [DecidableEq ι] [DecidableEq α]
    (h : Reconciled total settled share pc)
    (hnodup : total.Nodup) (hx : x ∈ total) :
    (settled.count x = 1 ∧ ∀ t, x ∉ share (pc t)) ∨ (x ∉ settled ∧ ∃! t, x ∈ share (pc t)) := by
  rw [h] at hx hnodup
  obtain ⟨hsettled, hunder, hdisjoint⟩ := Multiset.nodup_add.mp hnodup
  rcases Multiset.mem_add.mp hx with hx | hx
  · refine .inl ⟨Multiset.count_eq_one_of_mem hsettled hx, fun t ht => ?_⟩
    exact Multiset.disjoint_left.mp hdisjoint hx (mem_underWay.mpr ⟨t, ht⟩)
  · refine .inr ⟨fun hmem => Multiset.disjoint_left.mp hdisjoint hmem hx, ?_⟩
    obtain ⟨t, ht⟩ := mem_underWay.mp hx
    refine ⟨t, ht, fun u hu => ?_⟩
    by_contra hut
    rw [underWay, ← Finset.add_sum_erase _ _ (Finset.mem_univ t)] at hunder
    obtain ⟨-, -, hothers⟩ := Multiset.nodup_add.mp hunder
    refine Multiset.disjoint_left.mp hothers ht (Multiset.mem_sum.mpr ⟨u, ?_, hu⟩)
    exact Finset.mem_erase.mpr ⟨hut, Finset.mem_univ u⟩

end Things

end Ledger
