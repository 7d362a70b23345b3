import AiSwitch.Adapter.Basic
import AiSwitch.Common.Delimited
import Mathlib.Data.List.FinRange
import Mathlib.Logic.Equiv.Defs

/-!
# The adapter factory

`adapter_factory` (`adapter/adapter_factory.cpp`) keeps the registered adapters in order and selects
the first one whose prefix the model name begins with. An adapter is known by its position, as by
its address in the program.

The position of a registration matters only where one prefix begins with another: apart from that
at most one adapter matches a name, and it is found wherever it stands.
-/

namespace AiSwitch

open ByteString Delimited

/-- The registered adapters, in the order of registration. -/
abbrev AdapterFactory := List Adapter

namespace AdapterFactory

/-- `register_adapter` -/
def registerAdapter (factory : AdapterFactory) (ai : Adapter) : AdapterFactory := factory ++ [ai]

/-- `count` -/
def count (factory : AdapterFactory) : ℕ := factory.length

/-- `create`, `none` for a null pointer: the first adapter with `model_name.find(prefix) == 0`. -/
def create (factory : AdapterFactory) (modelName : Bytes) : Option (Fin factory.length) :=
  factory.findFinIdx? fun ai => find ai.modelPrefix modelName == some 0

/-- Registering one after another keeps the order. -/
theorem foldl_registerAdapter (factory : AdapterFactory) (ais : List Adapter) :
    ais.foldl registerAdapter factory = factory ++ ais := by
  induction ais generalizing factory with
  | nil => simp
  | cons ai ais ih => rw [List.foldl_cons, ih, registerAdapter, List.append_assoc]; rfl

/-! ## Selection -/

variable {factory : AdapterFactory} {modelName : Bytes}

/-- The adapter that is created is the first one whose prefix begins the name. -/
theorem create_eq_some_iff {i : Fin factory.length} :
    factory.create modelName = some i ↔
      factory[i].modelPrefix <+: modelName ∧ ∀ j < i, ¬ factory[j].modelPrefix <+: modelName := by
  simp [create, find_eq_some_zero_iff]

/-- No adapter is created exactly when no registered prefix starts the name. -/
theorem create_eq_none_iff :
    factory.create modelName = none ↔ ∀ ai ∈ factory, ¬ ai.modelPrefix <+: modelName := by
  simp [create, find_eq_some_zero_iff]

/-- No registered prefix begins with the prefix of another registration. -/
def PrefixFree (factory : AdapterFactory) : Prop :=
  ∀ i j : Fin factory.length, i ≠ j → ¬ factory[i].modelPrefix <+: factory[j].modelPrefix

instance (factory : AdapterFactory) : Decidable factory.PrefixFree :=
  inferInstanceAs (Decidable (∀ i j : Fin factory.length, i ≠ j →
    ¬ factory[i].modelPrefix <+: factory[j].modelPrefix))

/-- Two prefixes of one name are comparable, so at most one adapter matches. -/
theorem PrefixFree.eq_of_prefix (hfree : factory.PrefixFree) {i j : Fin factory.length}
    (hi : factory[i].modelPrefix <+: modelName) (hj : factory[j].modelPrefix <+: modelName) :
    i = j := by
  by_contra hij
  rcases le_total factory[i].modelPrefix.length factory[j].modelPrefix.length with hle | hle
  · exact hfree i j hij (List.prefix_of_prefix_length_le hi hj hle)
  · exact hfree j i (Ne.symm hij) (List.prefix_of_prefix_length_le hj hi hle)

/-- The adapter that matches is the one selected, wherever it stands. -/
theorem PrefixFree.create_eq_some_iff (hfree : factory.PrefixFree) {i : Fin factory.length} :
    factory.create modelName = some i ↔ factory[i].modelPrefix <+: modelName := by
  rw [AdapterFactory.create_eq_some_iff, and_iff_left_iff_imp]
  intro hi j hlt hj
  exact absurd (hfree.eq_of_prefix hi hj) (Ne.symm (Fin.ne_of_lt hlt))

/-! ## Another order of registration -/

/-- The registrations in the order `σ`. -/
def reorder (factory : AdapterFactory) (σ : Equiv.Perm (Fin factory.length)) : AdapterFactory :=
  List.ofFn fun i => factory[σ i]

/-- The registration that stands at a place of the new order. -/
def original (σ : Equiv.Perm (Fin factory.length)) (i : Fin (factory.reorder σ).length) :
    Fin factory.length :=
  σ (i.cast List.length_ofFn)

/-- An adapter of the reordered registrations is one of the original ones. -/
theorem getElem_reorder (σ : Equiv.Perm (Fin factory.length))
    (i : Fin (factory.reorder σ).length) : (factory.reorder σ)[i] = factory[original σ i] :=
  List.getElem_ofFn _

/-- Each original position is taken once. -/
theorem original_bijective (σ : Equiv.Perm (Fin factory.length)) :
    Function.Bijective (original σ) :=
  σ.bijective.comp (finCongr List.length_ofFn).bijective

/-- Reordering keeps the prefixes apart. -/
theorem PrefixFree.reorder (hfree : factory.PrefixFree) (σ : Equiv.Perm (Fin factory.length)) :
    (factory.reorder σ).PrefixFree := by
  intro i j hij
  rw [getElem_reorder, getElem_reorder]
  exact hfree _ _ fun h => hij ((original_bijective σ).injective h)

/-- The same registration is selected in every order. -/
theorem PrefixFree.map_create_reorder (hfree : factory.PrefixFree)
    (σ : Equiv.Perm (Fin factory.length)) (modelName : Bytes) :
    ((factory.reorder σ).create modelName).map (original σ) = factory.create modelName := by
  ext i
  rw [Option.map_eq_some_iff, hfree.create_eq_some_iff]
  constructor
  · rintro ⟨k, hk, rfl⟩
    rwa [(hfree.reorder σ).create_eq_some_iff, getElem_reorder] at hk
  · intro hi
    obtain ⟨k, rfl⟩ := (original_bijective σ).surjective i
    refine ⟨k, ?_, rfl⟩
    rwa [(hfree.reorder σ).create_eq_some_iff, getElem_reorder]

/-- **Selection is by prefix, and independent of the order where no prefix begins another.** -/
theorem create_selects_by_prefix (ais : List Adapter) :
    ais.foldl registerAdapter [] = ais ∧
    (∀ modelName (i : Fin ais.length), create ais modelName = some i ↔
      ais[i].modelPrefix <+: modelName ∧ ∀ j < i, ¬ ais[j].modelPrefix <+: modelName) ∧
    (∀ modelName, create ais modelName = none ↔
      ∀ ai ∈ ais, ¬ ai.modelPrefix <+: modelName) ∧
    (PrefixFree ais → ∀ (σ : Equiv.Perm (Fin ais.length)) modelName,
      ((reorder ais σ).create modelName).map (original σ) = create ais modelName) := by
  refine ⟨foldl_registerAdapter [] ais, fun _ _ => create_eq_some_iff,
    fun _ => create_eq_none_iff, fun hfree => hfree.map_create_reorder⟩

/-- The prefixes of the program, with the first two registrations exchanged. -/
theorem create_selects_by_prefix_registered :
    let named (modelPrefix : String) : Adapter :=
      ⟨utf8 modelPrefix, fun _ => .ok .null, fun _ => pure ()⟩
    let ais := [named "deepseek", named "gpt", named "claude"]
    PrefixFree ais ∧
      ((reorder ais (Equiv.swap 0 1)).create (utf8 "gpt-4")).map (original (Equiv.swap 0 1))
        = create ais (utf8 "gpt-4") := by
  intro named ais
  have hfree : PrefixFree ais := by decide
  have hselects := create_selects_by_prefix ais
  exact ⟨hfree, hselects.2.2.2 hfree (Equiv.swap 0 1) _⟩

end AdapterFactory

end AiSwitch
