import AiSwitch.Common.MersenneTwister
import AiSwitch.Db.Repository
import Mathlib.Data.Fintype.Pi
import Mathlib.Data.Set.Card
import Mathlib.Data.Set.Finite.Range
import Mathlib.SetTheory.Cardinal.NatCard

/-!
# The key space

A key has 32 hexadecimal digits, so there are `16 ^ 32` texts of the documented form. But
`generate_api_key` draws one value of 32 bits from `std::random_device` and computes all digits from
it, so whatever the generator and the distribution make of it, at most `2 ^ 32` keys are ever
issued.
-/

namespace AiSwitch

open ByteString Effect MersenneTwister
open Mysql (Backend Db)

namespace Repository

/-- The texts of the documented form: `sk_` and 32 hexadecimal digits. -/
def keySpace : Set Bytes :=
  {key | ∃ digits : Bytes, key = utf8 "sk_" ++ digits ∧ digits.length = 32 ∧
    ∀ b ∈ digits, b ∈ utf8 "0123456789abcdef"}

/-- The keys that are issued for some value of the random device. -/
def issuedKeys (dis : UInt32 → ℕ → Fin 16) : Set Bytes := Set.range (generateApiKey dis)

/-- Every text of the documented form is issued. -/
def UsesWholeKeySpace (dis : UInt32 → ℕ → Fin 16) : Prop :=
  ∀ key ∈ keySpace, ∃ seed, generateApiKey dis seed = key

/-! ## Keys and digits -/

/-- The key with the given digits. -/
def keyOf (ds : Fin 32 → Fin 16) : Bytes := utf8 "sk_" ++ (List.ofFn ds).map hexChar

/-- Different digits are written differently. -/
theorem hexChar_injective : Function.Injective hexChar := by
  have hinj : ∀ d e, hexChar d = hexChar e → d = e := by decide +kernel
  exact fun d e => hinj d e

/-- Keys of different digits differ. -/
theorem keyOf_injective : Function.Injective keyOf := by
  intro ds ds' h
  have hdigits : (List.ofFn ds).map hexChar = (List.ofFn ds').map hexChar :=
    List.append_cancel_left h
  exact List.ofFn_injective (List.map_injective_iff.mpr hexChar_injective hdigits)

/-- Every key of digits has the format. -/
theorem keyOf_mem_keySpace (ds : Fin 32 → Fin 16) : keyOf ds ∈ keySpace := by
  have hhex : ∀ d, hexChar d ∈ utf8 "0123456789abcdef" := by decide +kernel
  refine ⟨_, rfl, by simp, fun b hb => ?_⟩
  obtain ⟨d, -, rfl⟩ := List.mem_map.mp hb
  exact hhex d

/-- Every text of the form has digits. -/
theorem exists_keyOf_eq {key : Bytes} (h : key ∈ keySpace) : ∃ ds, keyOf ds = key := by
  have hhex : ∀ b ∈ utf8 "0123456789abcdef", ∃ d, hexChar d = b := by decide +kernel
  obtain ⟨digits, rfl, hlen, hdigits⟩ := h
  have hdigit : ∀ i : Fin 32, ∃ d, hexChar d = digits[i] := fun i =>
    hhex _ (hdigits _ (List.getElem_mem _))
  choose ds hds using hdigit
  refine ⟨ds, congrArg (utf8 "sk_" ++ ·) (List.ext_getElem (by simp [hlen]) fun i hi hi' => ?_)⟩
  rw [List.getElem_map, List.getElem_ofFn]
  exact hds ⟨i, hlen ▸ hi'⟩

/-- The keys of the format are those of digits. -/
theorem range_keyOf : Set.range keyOf = keySpace := by
  refine Set.Subset.antisymm ?_ fun key hkey => exists_keyOf_eq hkey
  rintro key ⟨ds, rfl⟩
  exact keyOf_mem_keySpace ds

/-- There are finitely many keys of the format. -/
theorem finite_keySpace : keySpace.Finite := by
  rw [← range_keyOf]
  exact Set.finite_range _

/-- **The key space has `16 ^ 32` elements.** -/
theorem ncard_keySpace : keySpace.ncard = 16 ^ 32 := by
  rw [← range_keyOf, Set.ncard_range_of_injective keyOf_injective, Nat.card_eq_fintype_card,
    Fintype.card_fun, Fintype.card_fin, Fintype.card_fin]

/-! ## Issued keys -/

variable (dis : UInt32 → ℕ → Fin 16)

/-- A generated key is that of the digits that are drawn. -/
theorem generateApiKey_eq_keyOf (seed : UInt32) :
    generateApiKey dis seed = keyOf fun i => dis seed i := by
  have hdigits : (List.range 32).map (dis seed) = List.ofFn fun i : Fin 32 => dis seed i := by
    apply List.ext_getElem
    · rw [List.length_map, List.length_range, List.length_ofFn]
    · intro i hi hi'
      rw [List.getElem_map, List.getElem_range, List.getElem_ofFn]
  rw [generateApiKey_eq, keyOf, hdigits]

/-- Every generated key has the format. -/
theorem issuedKeys_subset : issuedKeys dis ⊆ keySpace := by
  rintro key ⟨seed, rfl⟩
  rw [generateApiKey_eq_keyOf]
  exact keyOf_mem_keySpace _

/-- There are `2 ^ 32` seeds. -/
theorem card_uint32 : Nat.card UInt32 = 2 ^ 32 := by
  rw [Nat.card_congr ⟨UInt32.toFin, UInt32.ofFin, fun _ => rfl, fun _ => rfl⟩,
    Nat.card_eq_fintype_card, Fintype.card_fin]
  rfl

/-- There are finitely many seeds. -/
theorem finite_uint32 : Finite UInt32 := Nat.finite_of_card_ne_zero (by rw [card_uint32]; simp)

/-- There are finitely many generated keys. -/
theorem finite_issuedKeys : (issuedKeys dis).Finite := by
  have := finite_uint32
  exact Set.finite_range _

/-- **A seed of 32 bits issues at most `2 ^ 32` keys.** -/
theorem ncard_issuedKeys_le : (issuedKeys dis).ncard ≤ 2 ^ 32 := by
  have := finite_uint32
  rw [← card_uint32]
  exact Finite.card_range_le _

/-- The whole space is used exactly if there are as many issued keys as it has elements. -/
theorem usesWholeKeySpace_iff : UsesWholeKeySpace dis ↔ (issuedKeys dis).ncard = 16 ^ 32 := by
  rw [← ncard_keySpace]
  constructor
  · intro h
    rw [(issuedKeys_subset dis).antisymm h]
  · intro hcard
    exact (Set.eq_of_subset_of_ncard_le (issuedKeys_subset dis) hcard.ge finite_keySpace).ge

/-- What `create_api_key` hands out is the empty record or has an issued key. -/
theorem apiKey_mem_issuedKeys {be : Backend} {db db' : Db} {name : Bytes} {rateLimit : ℤ}
    {info : ApiKeyInfo} (h : (createApiKey dis name rateLimit).run be db = (.ok info, db')) :
    info = {} ∨ info.apiKey ∈ issuedKeys dis := by
  cases hconn : db.connection with
  | none =>
    obtain ⟨db'', hub⟩ := run_createApiKey_of_none be db dis rateLimit name hconn
    rw [hub] at h
    cases h
  | some c =>
    by_cases hfits : be.Fits name
    · obtain ⟨b, db'', hquery⟩ := Mysql.exists_query_some be (drawn db) (c := c)
        (.insert (be.escape (drawnKey be db dis)) (be.escape name) rateLimit)
      rw [run_createApiKey_of_query be db dis rateLimit hconn hfits hquery] at h
      cases h
      cases b with
      | false => exact .inl rfl
      | true => exact .inr ⟨be.random db.draws, rfl⟩
    · obtain ⟨db'', hub⟩ := run_createApiKey_of_not_fits be db dis rateLimit hconn hfits
      rw [hub] at h
      cases h

/-- No generator issues every key of the format. -/
theorem not_usesWholeKeySpace : ¬ UsesWholeKeySpace dis := by
  rw [usesWholeKeySpace_iff]
  intro hcard
  have hle := ncard_issuedKeys_le dis
  rw [hcard] at hle
  exact absurd hle (by decide)

/-- **The whole key space is never used.** Whatever digits the library makes of a seed, some text of
the documented form is issued for no value of the random device, and so are all but `2 ^ 32` of the
`16 ^ 32` at least. -/
theorem keys_never_issued (dis : UInt32 → ℕ → Fin 16) :
    ¬ UsesWholeKeySpace dis ∧ 16 ^ 32 - 2 ^ 32 ≤ (keySpace \ issuedKeys dis).ncard := by
  refine ⟨not_usesWholeKeySpace dis, ?_⟩
  have hmissed := Set.le_ncard_sdiff (issuedKeys dis) keySpace (finite_issuedKeys dis)
  rw [ncard_keySpace] at hmissed
  exact (Nat.sub_le_sub_left (ncard_issuedKeys_le dis) _).trans hmissed

/-- The digits that the standard generator and distribution make of a seed. -/
def standardDigits (seed : UInt32) (i : ℕ) : Fin 16 := uniformInt (by omega) (mt19937 seed i)

/-- The generator of the standard library does not issue every key of the format. -/
theorem not_usesWholeKeySpace_standardDigits : ¬ UsesWholeKeySpace standardDigits :=
  not_usesWholeKeySpace _

end Repository

end AiSwitch
