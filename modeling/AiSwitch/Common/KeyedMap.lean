import Mathlib.Data.List.Induction
import Mathlib.Logic.Function.Basic

/-!
# Maps made of bindings

A map that is filled by a sequence of bindings, each of which takes the place of an earlier one with
the same key, has at every key the last element bound to it (`ofList_of_isLast`). Where the keys are
encoded, nothing changes as long as the encoding is injective (`ofList_comp_encode`): the map on
codes is the map on keys.
-/

namespace KeyedMap

variable {α β ι κ : Type*}

/-! ## The last element with a property -/

/-- `a` stands at position `i` of the list, has the property, and is the last one that has it. -/
def IsLast (p : α → Prop) (l : List α) (i : ℕ) (a : α) : Prop :=
  ∃ l₁ l₂, l = l₁ ++ a :: l₂ ∧ l₁.length = i ∧ p a ∧ ∀ b ∈ l₂, ¬ p b

/-- The last element with a property is one of the list. -/
theorem IsLast.mem {p : α → Prop} {l : List α} {i : ℕ} {a : α} (h : IsLast p l i a) : a ∈ l := by
  obtain ⟨l₁, l₂, rfl, -⟩ := h
  simp

/-- The last element with a property has it. -/
theorem IsLast.holds {p : α → Prop} {l : List α} {i : ℕ} {a : α} (h : IsLast p l i a) : p a := by
  obtain ⟨-, -, -, -, ha, -⟩ := h
  exact ha

/-- An element with the property is the last one when it ends the list. -/
theorem isLast_concat {p : α → Prop} (l : List α) {a : α} (ha : p a) :
    IsLast p (l ++ [a]) l.length a :=
  ⟨l, [], rfl, rfl, ha, List.forall_mem_nil _⟩

/-- An element without the property changes nothing. -/
theorem IsLast.concat {p : α → Prop} {l : List α} {i : ℕ} {a b : α} (h : IsLast p l i a)
    (hb : ¬ p b) : IsLast p (l ++ [b]) i a := by
  obtain ⟨l₁, l₂, rfl, hi, ha, hl₂⟩ := h
  refine ⟨l₁, l₂ ++ [b], by simp, hi, ha, fun c hc => ?_⟩
  rcases List.mem_append.mp hc with hc | hc
  · exact hl₂ c hc
  · rw [List.mem_singleton.mp hc]
    exact hb

/-- Where some element has the property, one is the last. -/
theorem exists_isLast {p : α → Prop} {l : List α} (h : ∃ a ∈ l, p a) : ∃ i a, IsLast p l i a := by
  induction l using List.reverseRecOn with
  | nil => simp at h
  | append_singleton l b ih =>
    by_cases hb : p b
    · exact ⟨_, b, isLast_concat l hb⟩
    · obtain ⟨a, ha, hp⟩ := h
      have hmem : a ∈ l := by
        rcases List.mem_append.mp ha with ha | ha
        · exact ha
        · exact absurd (List.mem_singleton.mp ha ▸ hp) hb
      obtain ⟨i, c, hc⟩ := ih ⟨a, hmem, hp⟩
      exact ⟨i, c, hc.concat hb⟩

/-- The last element stays where it is when the elements are marked with their positions. -/
theorem IsLast.mapIdx {p : α → Prop} {q : β → Prop} {f : ℕ → α → β} (hf : ∀ i a, q (f i a) ↔ p a)
    {l : List α} {i : ℕ} {a : α} (h : IsLast p l i a) : IsLast q (l.mapIdx f) i (f i a) := by
  obtain ⟨l₁, l₂, rfl, rfl, ha, hl₂⟩ := h
  rw [List.mapIdx_append, List.mapIdx_cons, Nat.zero_add]
  refine ⟨_, _, rfl, List.length_mapIdx, (hf _ a).mpr ha, fun b hb => ?_⟩
  obtain ⟨j, hj, rfl⟩ := List.mem_mapIdx.mp hb
  exact fun hq => hl₂ _ (List.getElem_mem hj) ((hf _ _).mp hq)

/-! ## Bindings -/

section

variable [DecidableEq ι] [DecidableEq κ]

/-- The map of a sequence of bindings, of each element to its key. -/
def ofList (key : α → ι) (l : List α) : ι → Option α :=
  l.foldl (fun m a => Function.update m (key a) (some a)) fun _ => none

/-- The last entry of a list overwrites its key. -/
@[simp] theorem ofList_concat (key : α → ι) (l : List α) (a : α) :
    ofList key (l ++ [a]) = Function.update (ofList key l) (key a) (some a) := by
  rw [ofList, List.foldl_append]
  rfl

/-- A binding to another key is not seen. -/
theorem ofList_append_of_ne (key : α → ι) (l₁ : List α) {l₂ : List α} {k : ι}
    (h : ∀ a ∈ l₂, key a ≠ k) : ofList key (l₁ ++ l₂) k = ofList key l₁ k := by
  induction l₂ using List.reverseRecOn with
  | nil => rw [List.append_nil]
  | append_singleton l₂ a ih =>
    rw [← List.append_assoc, ofList_concat, Function.update_of_ne (h a (by simp)).symm]
    exact ih fun b hb => h b (List.mem_append_left _ hb)

/-- A key that no entry has is absent. -/
theorem ofList_eq_none {key : α → ι} {l : List α} {k : ι} (h : ∀ a ∈ l, key a ≠ k) :
    ofList key l k = none :=
  ofList_append_of_ne key [] h

/-- At every key there is the last element that was bound to it. -/
theorem ofList_of_isLast {key : α → ι} {l : List α} {k : ι} {i : ℕ} {a : α}
    (h : IsLast (key · = k) l i a) : ofList key l k = some a := by
  obtain ⟨l₁, l₂, rfl, -, rfl, hl₂⟩ := h
  rw [← List.singleton_append, ← List.append_assoc, ofList_append_of_ne key _ hl₂, ofList_concat,
    Function.update_self]

/-- **A map on codes is the map on keys.** -/
theorem ofList_comp_encode {encode : κ → ι} (hencode : Function.Injective encode) (key : α → κ)
    (l : List α) : ofList (encode ∘ key) l ∘ encode = ofList key l := by
  induction l using List.reverseRecOn with
  | nil => rfl
  | append_singleton l a ih =>
    rw [ofList_concat, ofList_concat, Function.comp_apply,
      Function.update_comp_eq_of_injective _ hencode, ih]

end

end KeyedMap
