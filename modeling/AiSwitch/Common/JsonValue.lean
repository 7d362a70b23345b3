import AiSwitch.Common.Json

/-!
# What `value` reads

The member that a path of keys leads to, and what `value(key, default)` makes of it: the member
where it has the type of the default, the default where there is none. The conversions to integer
types check the type of a value but not its range, so that a number is read as itself exactly where
it is a value of the type (`ConvertsTo`).
-/

open ByteString

namespace Nlohmann.Json

open Effect

/-- The member of an object, none where there is no such member or no object. -/
def member (j : Json) (key : String) : Option Json :=
  match j with
  | object fs => fs.lookup (utf8 key)
  | _ => none

/-- The value that a path of keys leads to. -/
def path (j : Json) : List String → Option Json
  | [] => some j
  | key :: keys => (j.member key).bind fun v => v.path keys

/-- A member of a valid document is valid. -/
theorem isValid_of_member {j v : Json} {key : String} (hj : j.isValid = true)
    (h : j.member key = some v) : v.isValid = true := by
  cases j with
  | object fs => exact isValid_of_lookup hj h
  | _ => cases h

/-- A path of two keys is an access to a member of a member. -/
theorem path_pair (j : Json) (key key' : String) :
    j.path [key, key'] = (j.member key).bind fun v => v.member key' := by
  simp [path]

def isObject : Json → Bool
  | object _ => true
  | _ => false

/-- The value is the number `n`. -/
def IsNumber (j : Json) (n : ℤ) : Prop := j = integer n ∨ j = floating n

/-- An integer denotes itself. -/
theorem isNumber_integer (n : ℤ) : (integer n).IsNumber n := .inl rfl

/-- A conversion to an integer type with the values `lo ≤ n < hi`: the numbers among them are kept,
and whatever is read is one of them. -/
structure ConvertsTo (get : Json → Outcome Exn ℤ) (lo hi : ℤ) : Prop where
  keeps : ∀ {j : Json} {n : ℤ}, j.IsNumber n → lo ≤ n ∧ n < hi → get j = .ok n
  range : ∀ {j : Json} {n : ℤ}, get j = .ok n → lo ≤ n ∧ n < hi

/-- A number is read as itself exactly where it is a value of the type. -/
theorem ConvertsTo.eq_ok_iff {get : Json → Outcome Exn ℤ} {lo hi : ℤ} (h : ConvertsTo get lo hi)
    {j : Json} {n : ℤ} (hj : j.IsNumber n) : get j = .ok n ↔ lo ≤ n ∧ n < hi :=
  ⟨h.range, h.keeps hj⟩

/-- A number of at least one bit has at least two values. -/
theorem two_le_two_pow {w : ℕ} (hw : 1 ≤ w) : (2 : ℤ) ≤ 2 ^ w := by
  obtain ⟨v, rfl⟩ : ∃ v, w = v + 1 := ⟨w - 1, by omega⟩
  have hpos : (0 : ℤ) < 2 ^ v := Int.pow_pos (by omega)
  rw [Int.pow_succ]
  omega

/-- An unsigned conversion keeps the numbers that fit into its bits. -/
theorem convertsTo_getUInt {w : ℕ} (hw : 1 ≤ w) : ConvertsTo (getUInt w) 0 (2 ^ w) where
  keeps := by
    rintro j n (rfl | rfl) hn
    · rw [getUInt, Int.emod_eq_of_lt hn.1 hn.2]
    · simpa [getUInt] using hn
  range := by
    intro j n h
    have hpos := two_le_two_pow hw
    cases j with
    | integer m =>
      cases h
      exact ⟨Int.emod_nonneg _ (by omega), Int.emod_lt_of_pos _ (by omega)⟩
    | floating x =>
      rw [getUInt] at h
      split_ifs at h with hx
      cases h
      exact hx
    | boolean b =>
      cases h
      have hle := b.toNat_le
      exact ⟨by omega, by omega⟩
    | null | string | array | object => cases h

/-- A signed conversion keeps the numbers that fit into its bits with a sign. -/
theorem convertsTo_getInt {w : ℕ} (hw : 2 ≤ w) :
    ConvertsTo (getInt w) (-2 ^ (w - 1)) (2 ^ (w - 1)) := by
  obtain ⟨v, rfl⟩ : ∃ v, w = v + 2 := ⟨w - 2, by omega⟩
  rw [show v + 2 - 1 = v + 1 from rfl]
  have hhalf : (2 : ℤ) ^ (v + 2) = 2 ^ (v + 1) * 2 := Int.pow_succ 2 (v + 1)
  have hpos : (2 : ℤ) ≤ 2 ^ (v + 1) := two_le_two_pow (by omega)
  constructor
  · rintro j n (rfl | rfl) hn
    · rw [getInt, Int.bmod_eq_of_le_mul_two (by push_cast; omega) (by push_cast; omega)]
    · simpa [getInt] using hn
  · intro j n h
    cases j with
    | integer m =>
      cases h
      have hle := @Int.le_bmod m (2 ^ (v + 2)) (Nat.two_pow_pos _)
      have hlt := @Int.bmod_lt m (2 ^ (v + 2)) (Nat.two_pow_pos _)
      push_cast at hle hlt
      exact ⟨by omega, by omega⟩
    | floating x =>
      rw [getInt] at h
      split_ifs at h with hx
      cases h
      exact hx
    | boolean b =>
      cases h
      have hle := b.toNat_le
      exact ⟨by omega, by omega⟩
    | null | string | array | object => cases h

/-- The conversion to 64 bits differs from the others on booleans only. -/
theorem getInt64_of_ne_boolean {j : Json} (h : ∀ b, j ≠ boolean b) : j.getInt64 = j.getInt 64 := by
  cases j with
  | boolean b => exact absurd rfl (h b)
  | _ => rfl

/-- The conversion to 64 bits keeps the numbers of 64 bits. -/
theorem convertsTo_getInt64 : ConvertsTo getInt64 (-2 ^ 63) (2 ^ 63) where
  keeps := by
    intro j n hj hn
    rw [getInt64_of_ne_boolean (by rcases hj with rfl | rfl <;> simp)]
    exact (convertsTo_getInt (by omega)).keeps hj hn
  range := by
    intro j n h
    by_cases hj : ∃ b, j = boolean b
    · obtain ⟨b, rfl⟩ := hj
      cases h
    · rw [getInt64_of_ne_boolean (by simpa using hj)] at h
      exact (convertsTo_getInt (by omega)).range h

/-! ## `value` on an object -/

/-- What is read is the default where there is no such member, else the member. -/
def TextIs (v : Option Json) (default s : Bytes) : Prop := v.elim (s = default) (· = string s)

def NumberIs (v : Option Json) (default n : ℤ) : Prop := v.elim (n = default) (·.IsNumber n)

/-- The member, if there is one, is a string. -/
def IsText (v : Option Json) : Prop := ∀ j, v = some j → ∃ s, j = string s

/-- The member, if there is one, is a number `lo ≤ n < hi`. -/
def NumberFits (v : Option Json) (lo hi : ℤ) : Prop :=
  ∀ j, v = some j → ∃ n, j.IsNumber n ∧ lo ≤ n ∧ n < hi

/-- In an object `value` converts the member, or takes the default where there is none. -/
theorem value_of_isObject {α : Type} {j : Json} (hj : j.isObject = true) (key : String)
    (get : Json → Outcome Exn α) (default : α) :
    j.value key get default = (j.member key).elim (.ok default) get := by
  cases j with
  | object fs =>
    rw [value, member]
    cases fs.lookup (utf8 key) <;> rfl
  | _ => cases hj

/-- A member that is there is what is converted. -/
theorem value_of_member {α : Type} {j v : Json} {key : String} (h : j.member key = some v)
    (get : Json → Outcome Exn α) (default : α) : j.value key get default = get v := by
  cases j with
  | object fs => rw [value_of_isObject rfl, h, Option.elim_some]
  | _ => cases h

/-- A text is read where the member is one or is not there. -/
theorem exists_value_text {j : Json} (hj : j.isObject = true) {key : String}
    (h : IsText (j.member key)) (default : Bytes) :
    ∃ s, j.value key getString default = .ok s ∧ TextIs (j.member key) default s := by
  rw [value_of_isObject hj]
  cases hmember : j.member key with
  | none => exact ⟨default, rfl, rfl⟩
  | some v =>
    obtain ⟨s, rfl⟩ := h v hmember
    exact ⟨s, rfl, rfl⟩

/-- A number is read where the member is one that fits or is not there. -/
theorem ConvertsTo.exists_value {get : Json → Outcome Exn ℤ} {lo hi : ℤ}
    (hget : ConvertsTo get lo hi) {j : Json} (hj : j.isObject = true) {key : String}
    (h : NumberFits (j.member key) lo hi) (default : ℤ) :
    ∃ n, j.value key get default = .ok n ∧ NumberIs (j.member key) default n := by
  rw [value_of_isObject hj]
  cases hmember : j.member key with
  | none => exact ⟨default, rfl, rfl⟩
  | some v =>
    obtain ⟨n, hn, hrange⟩ := h v hmember
    exact ⟨n, hget.keeps hn hrange, hn⟩

/-- A number that is read is a value of the type where the default is one. -/
theorem ConvertsTo.value_range {get : Json → Outcome Exn ℤ} {lo hi : ℤ}
    (hget : ConvertsTo get lo hi) {j : Json} {key : String} {default n : ℤ}
    (hdefault : lo ≤ default ∧ default < hi) (h : j.value key get default = .ok n) :
    lo ≤ n ∧ n < hi := by
  cases j with
  | object fs =>
    rw [value_of_isObject rfl] at h
    cases hmember : (object fs).member key with
    | none =>
      rw [hmember] at h
      cases h
      exact hdefault
    | some v =>
      rw [hmember] at h
      exact hget.range h
  | _ => cases h

/-- Where what was read is a value of the type, the member was one. -/
theorem NumberIs.numberFits {v : Option Json} {default n lo hi : ℤ} (h : NumberIs v default n)
    (hn : lo ≤ n ∧ n < hi) : NumberFits v lo hi := by
  rintro j rfl
  exact ⟨n, h, hn⟩

/-- What a conversion refuses is a value of another type. -/
def RefusesByType {α : Type} (get : Json → Outcome Exn α) : Prop :=
  ∀ j e, get j = .throw e → ∃ what : String, e = .typeError (utf8 what)

/-- The conversion to a text throws no exception but that of a wrong type. -/
theorem refusesByType_getString : RefusesByType getString := by
  intro j e h
  cases j with
  | string s => cases h
  | _ =>
    cases h
    exact ⟨_, rfl⟩

/-- An unsigned conversion throws no exception but that of a wrong type. -/
theorem refusesByType_getUInt (w : ℕ) : RefusesByType (getUInt w) := by
  intro j e h
  cases j with
  | integer n => cases h
  | boolean b => cases h
  | floating x =>
    rw [getUInt] at h
    split_ifs at h
  | null | string | array | object =>
    cases h
    exact ⟨_, rfl⟩

/-- A signed conversion throws no exception but that of a wrong type. -/
theorem refusesByType_getInt (w : ℕ) : RefusesByType (getInt w) := by
  intro j e h
  cases j with
  | integer n => cases h
  | boolean b => cases h
  | floating x =>
    rw [getInt] at h
    split_ifs at h
  | null | string | array | object =>
    cases h
    exact ⟨_, rfl⟩

/-- The conversion to 64 bits throws no exception but that of a wrong type. -/
theorem refusesByType_getInt64 : RefusesByType getInt64 := by
  intro j e h
  by_cases hj : ∃ b, j = boolean b
  · obtain ⟨b, rfl⟩ := hj
    cases h
    exact ⟨_, rfl⟩
  · rw [getInt64_of_ne_boolean (by simpa using hj)] at h
    exact refusesByType_getInt 64 j e h

/-- The conversion to a fraction throws no exception but that of a wrong type. -/
theorem refusesByType_getDouble : RefusesByType getDouble := by
  intro j e h
  cases j with
  | integer n => cases h
  | floating x => cases h
  | null | boolean | string | array | object =>
    cases h
    exact ⟨_, rfl⟩

/-- Where the conversion throws no exception but that of a wrong type, neither does `value`. -/
theorem RefusesByType.value {α : Type} {get : Json → Outcome Exn α} (hget : RefusesByType get)
    {j : Json} {key : String} {default : α} {e : Exn} (h : j.value key get default = .throw e) :
    ∃ what : String, e = .typeError (utf8 what) := by
  cases j with
  | object fs =>
    rw [value_of_isObject rfl] at h
    cases hmember : (object fs).member key with
    | none =>
      rw [hmember] at h
      cases h
    | some v =>
      rw [hmember] at h
      exact hget v e h
  | null | boolean | integer | floating | string | array =>
    cases h
    exact ⟨_, rfl⟩

/-- What is contained is a member. -/
theorem contains_eq_isSome_member (j : Json) (key : String) :
    j.contains key = (j.member key).isSome := by
  cases j <;> rfl

/-- `operator[]` finds a member that is there. -/
theorem index_of_member {j v : Json} {key : String} (h : j.member key = some v) :
    j.index key = .ok v := by
  cases j with
  | object fs => rw [index, show fs.lookup (utf8 key) = some v from h, Option.getD_some]
  | _ => cases h

/-- The constant `operator[]` finds a member that is there. -/
theorem indexConst_of_member {j v : Json} {key : String} (h : j.member key = some v) :
    j.indexConst key = .ok v := by
  cases j with
  | object fs => rw [indexConst, show fs.lookup (utf8 key) = some v from h]
  | _ => cases h

/-! ## What `value` refuses -/

/-- The member, if there is one, is not of a type that converts. -/
def Unconvertible {α : Type} (get : Json → Outcome Exn α) (v : Option Json) : Prop :=
  ∃ j e, v = some j ∧ get j = .throw e

section

variable {α : Type} {get : Json → Outcome Exn α} {j : Json} {key : String} {default : α}

/-- Of a document that is no object no value is read. -/
theorem exists_value_throw_of_not_isObject (hj : j.isObject = false) :
    ∃ e, j.value key get default = .throw e := by
  cases j with
  | object fs => cases hj
  | _ => exact ⟨_, rfl⟩

/-- No value is read of a member that cannot be converted. -/
theorem exists_value_throw (hj : j.isObject = true) (h : Unconvertible get (j.member key)) :
    ∃ e, j.value key get default = .throw e := by
  obtain ⟨v, e, hmember, hget⟩ := h
  rw [value_of_isObject hj, hmember]
  exact ⟨e, hget⟩

/-- In an object it throws for no other reason. -/
theorem unconvertible_of_value_throw {e : Exn} (hj : j.isObject = true)
    (h : j.value key get default = .throw e) : Unconvertible get (j.member key) := by
  rw [value_of_isObject hj] at h
  cases hmember : j.member key with
  | none =>
    rw [hmember] at h
    cases h
  | some v =>
    rw [hmember] at h
    exact ⟨v, e, rfl, h⟩

/-- What has been read came from an object, and its member was not refused. -/
theorem readable_of_value_ok {x : α} (h : j.value key get default = .ok x) :
    j.isObject = true ∧ ¬ Unconvertible get (j.member key) := by
  have hobj : j.isObject = true := by
    by_contra hj
    obtain ⟨e, he⟩ := @exists_value_throw_of_not_isObject _ get _ key default (by simpa using hj)
    rw [he] at h
    cases h
  refine ⟨hobj, fun hun => ?_⟩
  obtain ⟨e, he⟩ := @exists_value_throw _ _ _ _ default hobj hun
  rw [he] at h
  cases h

/-- A value that is read is the converted member, or the default. -/
theorem elim_of_value_ok {x : α} (h : j.value key get default = .ok x) :
    (j.member key).elim (x = default) fun v => get v = .ok x := by
  rw [value_of_isObject (readable_of_value_ok h).1] at h
  cases hmember : j.member key with
  | none =>
    rw [hmember] at h
    exact (Outcome.ok.inj h).symm
  | some v =>
    rw [hmember] at h
    exact h

/-- What is neither refused nor undefined is read. -/
theorem exists_value_ok (hj : j.isObject = true) (h : ¬ Unconvertible get (j.member key))
    (hub : ∀ v, j.member key = some v → get v ≠ .ub) : ∃ a, j.value key get default = .ok a := by
  rw [value_of_isObject hj]
  cases hmember : j.member key with
  | none => exact ⟨default, rfl⟩
  | some v =>
    cases hget : get v with
    | ok a => exact ⟨a, hget⟩
    | throw e => exact absurd ⟨v, e, hmember, hget⟩ h
    | ub => exact absurd hget (hub v hmember)

end

/-- The conversion to a text is defined everywhere. -/
theorem getString_ne_ub (j : Json) : j.getString ≠ .ub := by
  cases j <;> simp

/-- The conversion to a fraction is defined everywhere. -/
theorem getDouble_ne_ub (j : Json) : j.getDouble ≠ .ub := by
  cases j <;> simp [getDouble]

/-- Only a fraction that is cut off to something out of range has no behaviour. -/
theorem getInt_eq_ub_iff {w : ℕ} {j : Json} : j.getInt w = .ub ↔ ∃ x, j = floating x ∧
    ¬ (-2 ^ (w - 1) ≤ x.num.tdiv x.den ∧ x.num.tdiv x.den < 2 ^ (w - 1)) := by
  cases j with
  | floating x =>
    rw [getInt]
    split_ifs with hx
    · simpa using hx
    · simpa using hx
  | _ => simp [getInt]

/-- The string that a member holds, or the default. -/
def textOr (v : Option Json) (default : Bytes) : Bytes :=
  match v with
  | some (string s) => s
  | _ => default

/-- A text that is not of another type is read as it stands, or as the default. -/
theorem value_getString {j : Json} (hj : j.isObject = true) {key : String}
    (h : ¬ Unconvertible getString (j.member key)) (default : Bytes) :
    j.value key getString default = .ok (textOr (j.member key) default) := by
  obtain ⟨s, hs⟩ := @exists_value_ok _ _ _ _ default hj h fun v _ => getString_ne_ub v
  rw [hs]
  rw [value_of_isObject hj] at hs
  cases hmember : j.member key with
  | none =>
    rw [hmember] at hs
    cases hs
    rfl
  | some v =>
    rw [hmember] at hs
    cases v with
    | string t =>
      cases hs
      rfl
    | _ => cases hs

/-! ## Members that are set -/

end Nlohmann.Json
