import AiSwitch.Common.Exn
import Mathlib.Algebra.Group.Int.Defs
import Mathlib.Algebra.Group.Nat.Defs
import Mathlib.Data.Nat.Log
import Mathlib.Data.Rat.Defs

/-!
# JSON documents under the access rules of `nlohmann::json`

A document is a tree, and reading it is where a program goes wrong: `value` throws on anything but
an object, `operator[]` inserts into what it reads, the `const` one has no behaviour for an absent
key, a conversion throws on the wrong type and does not check a range, and `dump` throws on a
string that is not UTF-8. Each of these is a function into `Outcome`. Parsing text, and the digits
of a floating-point number, are the library's (`Lib`).
-/

open ByteString

namespace Nlohmann

open Effect

/-- A document. The members of an object are in the order of their keys, as in a `std::map`. -/
inductive Json where
  | null
  | boolean (b : Bool)
  | integer (n : ℤ)
  | floating (x : ℚ)
  | string (s : Bytes)
  | array (elems : List Json)
  | object (fields : List (Bytes × Json))
deriving Repr

namespace Json

/-- `type_name` -/
def typeName : Json → String
  | null => "null"
  | boolean _ => "boolean"
  | integer _ | floating _ => "number"
  | string _ => "string"
  | array _ => "array"
  | object _ => "object"

/-! ## Construction -/

/-- Set a member, keeping the keys in order. -/
def insertField (k : Bytes) (v : Json) : List (Bytes × Json) → List (Bytes × Json)
  | [] => [(k, v)]
  | (k', v') :: fs =>
    if k = k' then (k, v) :: fs
    else if k < k' then (k, v) :: (k', v') :: fs
    else (k', v') :: insertField k v fs

/-- The first field with the key is found. -/
theorem lookup_cons_eq (k k' : Bytes) (v : Json) (fs : List (Bytes × Json)) :
    ((k', v) :: fs).lookup k = if k = k' then some v else fs.lookup k := by
  rw [List.lookup_cons]
  split <;> simp_all

/-- A field that is inserted is found, and the others are found as before. -/
theorem lookup_insertField (k k' : Bytes) (v : Json) (fs : List (Bytes × Json)) :
    (insertField k v fs).lookup k' = if k' = k then some v else fs.lookup k' := by
  induction fs with
  | nil => simp [insertField, lookup_cons_eq]
  | cons f fs ih =>
    obtain ⟨l, w⟩ := f
    by_cases hkl : k = l
    · subst hkl
      rw [insertField, if_pos rfl, lookup_cons_eq, lookup_cons_eq]
      split <;> rfl
    · by_cases hlt : k < l
      · rw [insertField, if_neg hkl, if_pos hlt, lookup_cons_eq]
      · rw [insertField, if_neg hkl, if_neg hlt, lookup_cons_eq, lookup_cons_eq, ih]
        by_cases h : k' = l
        · rw [if_pos h, if_pos h, if_neg (h ▸ Ne.symm hkl)]
        · rw [if_neg h, if_neg h]

/-- Setting a member again overwrites it. -/
theorem insertField_self (k : Bytes) (v w : Json) (fs : List (Bytes × Json)) :
    insertField k v (insertField k w fs) = insertField k v fs := by
  induction fs with
  | nil => simp [insertField]
  | cons f fs ih =>
    obtain ⟨l, u⟩ := f
    by_cases hkl : k = l
    · simp [insertField, hkl]
    · by_cases hlt : k < l
      · simp [insertField, hkl, hlt]
      · simp [insertField, hkl, hlt, ih]

/-- Members are set in any order. -/
theorem insertField_comm {k l : Bytes} (hkl : k < l) (v w : Json) (fs : List (Bytes × Json)) :
    insertField k v (insertField l w fs) = insertField l w (insertField k v fs) := by
  have hne : k ≠ l := fun h => List.lt_irrefl k (h ▸ hkl)
  have hnlt : ¬ l < k := fun h => List.lt_irrefl k (List.lt_trans hkl h)
  induction fs with
  | nil => simp [insertField, hne, hne.symm, hkl, hnlt]
  | cons f fs ih =>
    obtain ⟨m, u⟩ := f
    -- where the larger key goes, then where the smaller one does
    by_cases hlm : l = m
    · subst hlm
      simp [insertField, hne, hne.symm, hkl, hnlt]
    · by_cases hlt : l < m
      · have hkm : k < m := List.lt_trans hkl hlt
        have hkne : k ≠ m := fun h => List.lt_irrefl k (h ▸ hkm)
        simp [insertField, hne, hne.symm, hkl, hnlt, hlm, hlt, hkm, hkne]
      · by_cases hkm : k = m
        · subst hkm
          simp [insertField, hne.symm, hnlt]
        · by_cases hklt : k < m
          · simp [insertField, hne.symm, hnlt, hlm, hlt, hkm, hklt]
          · simp [insertField, hlm, hlt, hkm, hklt, ih]

/-- An object from the members of an initialiser list. -/
def obj (fs : List (String × Json)) : Json :=
  object (fs.foldl (fun acc f => insertField (utf8 f.1) f.2 acc) [])

/-- A string value from a literal. -/
def lit (s : String) : Json := string (utf8 s)

/-! ## UTF-8 -/

mutual

/-- Every string and every key of the document is UTF-8. -/
def isValid : Json → Bool
  | null | boolean _ | integer _ | floating _ => true
  | string s => decide (ValidUtf8 s)
  | array elems => allValid elems
  | object fields => fieldsValid fields

def allValid : List Json → Bool
  | [] => true
  | j :: js => j.isValid && allValid js

def fieldsValid : List (Bytes × Json) → Bool
  | [] => true
  | (k, v) :: fs => decide (ValidUtf8 k) && v.isValid && fieldsValid fs

end

/-- A text can be serialised if it is UTF-8, -/
@[simp] theorem isValid_string (s : Bytes) : (string s).isValid = true ↔ ValidUtf8 s := by
  simp [isValid]

/-- Every literal of the source can be serialised. -/
theorem isValid_lit (s : String) : (lit s).isValid = true :=
  (isValid_string _).mpr (validUtf8_utf8 s)

/-- An array can be serialised if its items can. -/
@[simp] theorem isValid_array (js : List Json) :
    (array js).isValid = true ↔ ∀ j ∈ js, j.isValid = true := by
  rw [isValid]
  induction js with
  | nil => simp [allValid]
  | cons j js ih => simp [allValid, ih]

/-- Fields can be serialised if their keys are text and their values can be. -/
theorem fieldsValid_iff (fs : List (Bytes × Json)) :
    fieldsValid fs = true ↔ ∀ f ∈ fs, ValidUtf8 f.1 ∧ f.2.isValid = true := by
  induction fs with
  | nil => simp [fieldsValid]
  | cons f fs ih =>
    obtain ⟨k, v⟩ := f
    simp [fieldsValid, ih]

/-- An object can be serialised if its keys are text and its values can be. -/
@[simp] theorem isValid_object (fs : List (Bytes × Json)) :
    (object fs).isValid = true ↔ ∀ f ∈ fs, ValidUtf8 f.1 ∧ f.2.isValid = true := by
  rw [isValid, fieldsValid_iff]

/-- No field comes in but the one that is inserted. -/
theorem mem_insertField {k : Bytes} {v : Json} {fs : List (Bytes × Json)} {f : Bytes × Json}
    (hf : f ∈ insertField k v fs) : f = (k, v) ∨ f ∈ fs := by
  induction fs with
  | nil => simpa [insertField] using hf
  | cons g fs ih =>
    obtain ⟨l, w⟩ := g
    simp only [insertField] at hf
    split at hf
    · rcases List.mem_cons.mp hf with rfl | hf
      · exact .inl rfl
      · exact .inr (List.mem_cons_of_mem _ hf)
    · split at hf
      · exact List.mem_cons.mp hf
      · rcases List.mem_cons.mp hf with rfl | hf
        · exact .inr List.mem_cons_self
        · exact (ih hf).imp_right (List.mem_cons_of_mem _)

/-- An object with literal keys is valid where its values are. -/
theorem isValid_obj {fs : List (String × Json)} (hfs : ∀ f ∈ fs, f.2.isValid = true) :
    (obj fs).isValid = true := by
  have hfold : ∀ acc : List (Bytes × Json), (∀ f ∈ acc, ValidUtf8 f.1 ∧ f.2.isValid = true) →
      ∀ f ∈ fs.foldl (fun acc f => insertField (utf8 f.1) f.2 acc) acc,
        ValidUtf8 f.1 ∧ f.2.isValid = true := by
    induction fs with
    | nil => exact fun acc hacc => hacc
    | cons g fs ih =>
      intro acc hacc
      refine ih (fun f hf => hfs f (List.mem_cons_of_mem _ hf)) _ ?_
      intro f hf
      rcases mem_insertField hf with rfl | hf
      · exact ⟨validUtf8_utf8 _, hfs g List.mem_cons_self⟩
      · exact hacc f hf
  exact (isValid_object _).mpr (hfold [] (by simp))

/-- The field that is inserted is there. -/
theorem mem_insertField_self (k : Bytes) (v : Json) (fs : List (Bytes × Json)) :
    (k, v) ∈ insertField k v fs := by
  induction fs with
  | nil => exact List.mem_cons_self
  | cons g fs ih =>
    unfold insertField
    split_ifs
    · exact List.mem_cons_self
    · exact List.mem_cons_self
    · exact List.mem_cons_of_mem _ ih

/-- Fields with other keys stay when one is inserted. -/
theorem mem_insertField_of_ne {k : Bytes} {v : Json} {fs : List (Bytes × Json)} {f : Bytes × Json}
    (hf : f ∈ fs) (hk : f.1 ≠ k) : f ∈ insertField k v fs := by
  induction fs with
  | nil => cases hf
  | cons g fs ih =>
    unfold insertField
    split_ifs with heq
    · rcases List.mem_cons.mp hf with rfl | hf
      · exact absurd heq.symm hk
      · exact List.mem_cons_of_mem _ hf
    · exact List.mem_cons_of_mem _ hf
    · rcases List.mem_cons.mp hf with rfl | hf
      · exact List.mem_cons_self
      · exact List.mem_cons_of_mem _ (ih hf)

/-- The members of an initialiser list with distinct keys. -/
theorem mem_foldl_insertField {fs : List (String × Json)} (hkeys : (fs.map (·.1)).Nodup)
    (acc : List (Bytes × Json)) {f : Bytes × Json}
    (hf : (f ∈ acc ∧ ∀ g ∈ fs, f.1 ≠ utf8 g.1) ∨ ∃ g ∈ fs, (utf8 g.1, g.2) = f) :
    f ∈ fs.foldl (fun acc f => insertField (utf8 f.1) f.2 acc) acc := by
  induction fs generalizing acc with
  | nil => exact hf.elim And.left (by simp)
  | cons g fs ih =>
    obtain ⟨hg, hfs⟩ := List.nodup_cons.mp hkeys
    refine ih hfs _ ?_
    rcases hf with ⟨hmem, hkey⟩ | ⟨g', hg', rfl⟩
    · exact .inl ⟨mem_insertField_of_ne hmem (hkey g List.mem_cons_self),
        fun g' hg' => hkey g' (List.mem_cons_of_mem _ hg')⟩
    · rcases List.mem_cons.mp hg' with rfl | hg'
      · refine .inl ⟨mem_insertField_self _ _ _, fun g'' hg'' heq => hg ?_⟩
        exact List.mem_map.mpr ⟨g'', hg'', (utf8_inj.mp heq).symm⟩
      · exact .inr ⟨g', hg', rfl⟩

/-- An object with literal keys can be serialised if its values can. -/
theorem isValid_obj_iff {fs : List (String × Json)} (hkeys : (fs.map (·.1)).Nodup) :
    (obj fs).isValid = true ↔ ∀ f ∈ fs, f.2.isValid = true := by
  refine ⟨fun h f hf => ?_, isValid_obj⟩
  exact ((isValid_object _).mp h _ (mem_foldl_insertField hkeys [] (.inr ⟨f, hf, rfl⟩))).2

/-- A value found in an object that can be serialised can be serialised. -/
theorem isValid_of_lookup {fs : List (Bytes × Json)} {k : Bytes} {v : Json}
    (hfs : (object fs).isValid = true) (h : fs.lookup k = some v) : v.isValid = true := by
  obtain ⟨l, l', rfl, -⟩ := List.lookup_eq_some_iff.mp h
  exact ((isValid_object _).mp hfs (k, v) (by simp)).2

/-! ## Access -/

/-- `contains(key)` -/
@[simp] def contains (j : Json) (key : String) : Bool :=
  match j with
  | object fs => (fs.lookup (utf8 key)).isSome
  | _ => false

/-- `empty()` -/
@[simp] def empty : Json → Bool
  | null => true
  | array js => js.isEmpty
  | object fs => fs.isEmpty
  | _ => false

/-- `operator[](key)` on a mutable value: an absent member is inserted as `null`, and a `null`
becomes an object first. -/
@[simp] def index (j : Json) (key : String) : Outcome Exn Json :=
  match j with
  | null => .ok null
  | object fs => .ok ((fs.lookup (utf8 key)).getD null)
  | _ => .throw (.typeError (utf8 ("[json.exception.type_error.305] cannot use operator[] " ++
      "with a string argument with " ++ j.typeName)))

/-- `operator[](key)` on a `const` value: an absent member has no behaviour. -/
def indexConst (j : Json) (key : String) : Outcome Exn Json :=
  match j with
  | object fs =>
    match fs.lookup (utf8 key) with
    | some v => .ok v
    | none => .ub
  | _ => .throw (.typeError (utf8 ("[json.exception.type_error.305] cannot use operator[] " ++
      "with a string argument with " ++ j.typeName)))

/-- `operator[](idx)` on a mutable value: an array grows by `null`s to hold the index, and a
`null` becomes an array first. -/
@[simp] def at' (j : Json) (idx : ℕ) : Outcome Exn Json :=
  match j with
  | null => .ok null
  | array js => .ok (js.getD idx null)
  | _ => .throw (.typeError (utf8 ("[json.exception.type_error.305] cannot use operator[] " ++
      "with a numeric argument with " ++ j.typeName)))

/-- `body[key] = v` on a value that is `null` or an object. -/
def set (j : Json) (key : String) (v : Json) : Outcome Exn Json :=
  match j with
  | null => .ok (object [(utf8 key, v)])
  | object fs => .ok (object (insertField (utf8 key) v fs))
  | _ => .throw (.typeError (utf8 ("[json.exception.type_error.305] cannot use operator[] " ++
      "with a string argument with " ++ j.typeName)))

/-- An object can still be serialised after a value that can be is inserted. -/
theorem isValid_insertField {fs : List (Bytes × Json)} {key : String} {v : Json}
    (hfs : (object fs).isValid = true) (hv : v.isValid = true) :
    (object (insertField (utf8 key) v fs)).isValid = true := by
  apply (isValid_object _).mpr
  intro f hf
  rcases mem_insertField hf with rfl | hf
  · exact ⟨validUtf8_utf8 key, hv⟩
  · exact (isValid_object _).mp hfs f hf

/-- What a value is whose member can be set: an object, where `null` counts as the empty one. -/
theorem exists_fields_of_set {j j' : Json} {key : String} {v : Json} (h : j.set key v = .ok j') :
    ∃ fs, (∀ l, j.index l = .ok ((fs.lookup (utf8 l)).getD null)) ∧
      (∀ l w, j.set l w = .ok (object (insertField (utf8 l) w fs))) ∧
      j' = object (insertField (utf8 key) v fs) := by
  cases j with
  | null =>
    cases h
    exact ⟨[], fun _ => rfl, fun _ _ => rfl, rfl⟩
  | object fs =>
    cases h
    exact ⟨fs, fun _ => rfl, fun _ _ => rfl, rfl⟩
  | boolean | integer | floating | string | array => cases h

section set

variable {j j' j'' : Json} {key key' : String} {v w : Json}

/-- Where one member can be set, every other can be set afterwards. -/
theorem exists_set_of_set (h : j.set key v = .ok j') (key' : String) (w : Json) :
    ∃ j'', j'.set key' w = .ok j'' := by
  obtain ⟨fs, -, -, rfl⟩ := exists_fields_of_set h
  exact ⟨_, rfl⟩

/-- Setting a member again overwrites it. -/
theorem set_of_set (h : j.set key v = .ok j') (w : Json) : j'.set key w = j.set key w := by
  obtain ⟨fs, -, hset, rfl⟩ := exists_fields_of_set h
  rw [hset, set, insertField_self]

/-- Members are set in any order. -/
theorem set_comm (hne : utf8 key < utf8 key' ∨ utf8 key' < utf8 key)
    (h : j.set key v = .ok j') (h' : j.set key' w = .ok j'') : j'.set key' w = j''.set key v := by
  obtain ⟨fs, -, hset, rfl⟩ := exists_fields_of_set h
  rw [hset] at h'
  cases h'
  rcases hne with hlt | hlt
  · rw [set, set, insertField_comm hlt]
  · rw [set, set, insertField_comm hlt]

/-- A member that is set is read back. -/
theorem index_of_set (h : j.set key v = .ok j') : j'.index key = .ok v := by
  obtain ⟨fs, -, -, rfl⟩ := exists_fields_of_set h
  simp [lookup_insertField]

/-- The other members stay as they are when one is set. -/
theorem index_of_set_ne (hne : utf8 key' ≠ utf8 key) (h : j.set key v = .ok j') :
    j'.index key' = j.index key' := by
  obtain ⟨fs, hindex, -, rfl⟩ := exists_fields_of_set h
  rw [hindex]
  simp [lookup_insertField, hne]

/-- A document that can be serialised stays so. -/
theorem isValid_of_set (hj : j.isValid = true) (hv : v.isValid = true)
    (h : j.set key v = .ok j') : j'.isValid = true := by
  cases j with
  | null =>
    cases h
    exact isValid_insertField (isValid_object [] |>.mpr (by simp)) hv
  | object fs =>
    cases h
    exact isValid_insertField hj hv
  | boolean | integer | floating | string | array => cases h

end set

/-- The `type_error` of a conversion to another type. -/
def mustBe (expected : String) (j : Json) : Exn :=
  .typeError (utf8 ("[json.exception.type_error.302] type must be " ++ expected ++ ", but is " ++
    j.typeName))

/-- `get<std::string>()` -/
@[simp] def getString : Json → Outcome Exn Bytes
  | string s => .ok s
  | j => .throw (j.mustBe "string")

/-- `get<bool>()` -/
@[simp] def getBool : Json → Outcome Exn Bool
  | boolean b => .ok b
  | j => .throw (j.mustBe "boolean")

/-- Conversion to a signed integer of `w` bits: integers wrap, truth values count as 0 and 1, and a
fraction is truncated, which has no behaviour where the result does not fit. -/
def getInt (w : ℕ) : Json → Outcome Exn ℤ
  | integer n => .ok (n.bmod (2 ^ w))
  | floating x =>
    if -2 ^ (w - 1) ≤ x.num.tdiv x.den ∧ x.num.tdiv x.den < 2 ^ (w - 1) then
      .ok (x.num.tdiv x.den)
    else .ub
  | boolean b => .ok b.toNat
  | j => .throw (j.mustBe "number")

/-- Conversion to an unsigned integer of `w` bits. -/
def getUInt (w : ℕ) : Json → Outcome Exn ℤ
  | integer n => .ok (n % 2 ^ w)
  | floating x =>
    if 0 ≤ x.num.tdiv x.den ∧ x.num.tdiv x.den < 2 ^ w then .ok (x.num.tdiv x.den) else .ub
  | boolean b => .ok b.toNat
  | j => .throw (j.mustBe "number")

/-- Conversion to the integer type of the library itself, `int64_t`, which takes no truth values. -/
def getInt64 : Json → Outcome Exn ℤ
  | boolean b => .throw ((boolean b).mustBe "number")
  | j => j.getInt 64

/-- The nearest double of an integer, ties to even. -/
def doubleOfInt (n : ℤ) : ℚ :=
  let u : ℤ := 2 ^ (n.natAbs.log2 - 52)
  let q := n / u
  let r := n % u
  (if 2 * r < u ∨ 2 * r = u ∧ q % 2 = 0 then q * u else (q + 1) * u : ℤ)

/-- `get<double>()` -/
def getDouble : Json → Outcome Exn ℚ
  | integer n => .ok (doubleOfInt n)
  | floating x => .ok x
  | j => .throw (j.mustBe "number")

/-- `value(key, default)` for a type read by `get`. -/
def value {α : Type} (j : Json) (key : String) (get : Json → Outcome Exn α) (default : α) :
    Outcome Exn α :=
  match j with
  | object fs =>
    match fs.lookup (utf8 key) with
    | some v => get v
    | none => .ok default
  | _ => .throw (.typeError (utf8 ("[json.exception.type_error.306] cannot use value() with " ++
      j.typeName)))

/-- A string that is read from a valid document is UTF-8 where the default is. -/
theorem validUtf8_of_value {j : Json} (hj : j.isValid = true) {key : String} {default s : Bytes}
    (hdefault : ValidUtf8 default) (h : j.value key getString default = .ok s) : ValidUtf8 s := by
  cases j with
  | object fs =>
    rw [value] at h
    cases hlookup : fs.lookup (utf8 key) with
    | none =>
      rw [hlookup] at h
      cases h
      exact hdefault
    | some v =>
      rw [hlookup] at h
      cases v with
      | string s =>
        cases h
        exact (isValid_string _).mp (isValid_of_lookup hj hlookup)
      | _ => cases h
  | _ => cases h

end Json

/-! ## Text -/

/-- Why a text is not parsed: it is malformed, with a message that may quote raw input, or a number
in it does not fit. -/
inductive ParseFailure where
  | parseError (what : Bytes)
  | outOfRange (what : Bytes)
deriving DecidableEq, Repr

/-- What is thrown for it. -/
def ParseFailure.exn : ParseFailure → Exn
  | parseError w => .parseError w
  | outOfRange w => .outOfRange w

/-- `json::parse`, for any partial function that tells the documents from the malformed texts. -/
def parseBy (tryParse : Bytes → Except ParseFailure Json) (t : Bytes) : Outcome Exn Json :=
  match tryParse t with
  | .ok j => .ok j
  | .error e => .throw e.exn

/-- The parts of the library that are not rules of access: the parser, the digits of a
floating-point number, and the message of `dump` for a string that is not UTF-8. The parser
checks the encoding of every string it reads. -/
structure Lib where
  tryParse : Bytes → Except ParseFailure Json
  floatText : ℚ → String
  invalidUtf8 : Json → String
  valid_of_tryParse : ∀ {t j}, tryParse t = .ok j → j.isValid = true

/-- One byte of a string literal. -/
def escapeByte (b : UInt8) : Bytes :=
  if b = 8 then utf8 "\\b"
  else if b = 9 then utf8 "\\t"
  else if b = 10 then utf8 "\\n"
  else if b = 12 then utf8 "\\f"
  else if b = 13 then utf8 "\\r"
  else if b = 34 then utf8 "\\\""
  else if b = 92 then utf8 "\\\\"
  else if b < 32 then
    utf8 "\\u00" ++ [(if b < 16 then 48 else 49), (if b % 16 < 10 then 48 else 87) + b % 16]
  else [b]

/-- A string literal. -/
def quote (s : Bytes) : Bytes := utf8 "\"" ++ s.flatMap escapeByte ++ utf8 "\""

namespace Lib

/-- `json::parse` -/
def parse (lib : Lib) (t : Bytes) : Outcome Exn Json := parseBy lib.tryParse t

mutual

/-- The compact text of a document. -/
def text (lib : Lib) : Json → Bytes
  | .null => utf8 "null"
  | .boolean b => utf8 (if b then "true" else "false")
  | .integer n => utf8 (toString n)
  | .floating x => utf8 (lib.floatText x)
  | .string s => quote s
  | .array elems => utf8 "[" ++ (utf8 ",").intercalate (texts lib elems) ++ utf8 "]"
  | .object fields =>
    utf8 "\x7b" ++ (utf8 ",").intercalate (fieldTexts lib fields) ++ utf8 "\x7d"

def texts (lib : Lib) : List Json → List Bytes
  | [] => []
  | j :: js => text lib j :: texts lib js

def fieldTexts (lib : Lib) : List (Bytes × Json) → List Bytes
  | [] => []
  | (k, v) :: fs => (quote k ++ utf8 ":" ++ text lib v) :: fieldTexts lib fs

end

/-- `dump()` -/
def dump (lib : Lib) (j : Json) : Outcome Exn Bytes :=
  if j.isValid then .ok (lib.text j)
  else .throw (.typeError (utf8 (lib.invalidUtf8 j)))

/-- A library that parses the listed texts and refuses every other. -/
def ofTable (docs : List (Bytes × { j : Json // j.isValid = true })) : Lib where
  tryParse t :=
    match docs.lookup t with
    | some j => .ok j.1
    | none => .error (.parseError (utf8 "[json.exception.parse_error.101] parse error"))
  floatText _ := "0.7"
  invalidUtf8 _ := "[json.exception.type_error.316] invalid UTF-8 byte"
  valid_of_tryParse {t j} h := by
    split at h
    · rename_i doc _
      cases h
      exact doc.2
    · cases h

/-- A document in UTF-8 is serialised. -/
theorem dump_of_isValid {lib : Lib} {j : Json} (h : j.isValid = true) :
    lib.dump j = .ok (lib.text j) := if_pos h

end Lib

end Nlohmann
