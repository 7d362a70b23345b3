import AiSwitch.Common.JsonValue

/-!
# JSON texts

The grammar of JSON as a relation between texts and documents: `Denotes t j` says that `t`, with any
spaces and any escapes, is a text of `j`. Of two members with one key the later counts. Which
literals denote which fractions is left open.

A document has no shorter text than its compact one, in which a character that has to be escaped
takes two bytes at least (`weight_le_length`). So a text that is made by quoting something without
escapes denotes what was quoted only where nothing had to be escaped.
-/

namespace Nlohmann

open ByteString

namespace Json

/-! ## Characters -/

/-- A byte that does not stand for itself in a string literal: a quotation mark, a backslash, or a
control character. -/
def IsSpecial (b : UInt8) : Prop := b = 34 ∨ b = 92 ∨ b < 32

instance : DecidablePred IsSpecial := fun _ => inferInstanceAs (Decidable (_ ∨ _))

/-- A character that does not stand for itself in a string literal. -/
def IsSpecialChar (c : Char) : Prop := c.toNat = 34 ∨ c.toNat = 92 ∨ c.toNat < 32

/-- The characters that a backslash and a letter stand for. -/
def escapes : List (UInt8 × UInt8) :=
  [(34, 34), (92, 92), (47, 47), (98, 8), (102, 12), (110, 10), (114, 13), (116, 9)]

def hexDigit (b : UInt8) : Option ℕ :=
  if 48 ≤ b ∧ b ≤ 57 then some (b.toNat - 48)
  else if 97 ≤ b ∧ b ≤ 102 then some (b.toNat - 87)
  else if 65 ≤ b ∧ b ≤ 70 then some (b.toNat - 55)
  else none

/-- The number that hexadecimal digits write. -/
def hexNumber (digits : Bytes) : Option ℕ :=
  digits.foldlM (fun n d => (hexDigit d).map (16 * n + ·)) 0

/-- What stands between the quotation marks of a literal, and the string that it denotes. A
character beyond the first plane is escaped as a pair of surrogates. -/
inductive Chars : Bytes → Bytes → Prop
  | nil : Chars [] []
  | char {c : Char} {r s : Bytes} (hc : ¬ IsSpecialChar c) (hr : Chars r s) :
      Chars (String.utf8EncodeChar c ++ r) (String.utf8EncodeChar c ++ s)
  | escape {x b : UInt8} {r s : Bytes} (hx : (x, b) ∈ escapes) (hr : Chars r s) :
      Chars (92 :: x :: r) (b :: s)
  | unicode {ds r s : Bytes} {c : Char} (hlen : ds.length = 4) (hds : hexNumber ds = some c.toNat)
      (hr : Chars r s) : Chars (92 :: 117 :: (ds ++ r)) (String.utf8EncodeChar c ++ s)
  | surrogates {ds ds' r s : Bytes} {hi lo : ℕ} {c : Char} (hlen : ds.length = 4)
      (hlen' : ds'.length = 4) (hds : hexNumber ds = some (0xd800 + hi))
      (hds' : hexNumber ds' = some (0xdc00 + lo)) (hhi : hi < 0x400) (hlo : lo < 0x400)
      (hc : c.toNat = 0x10000 + 0x400 * hi + lo) (hr : Chars r s) :
      Chars (92 :: 117 :: (ds ++ 92 :: 117 :: (ds' ++ r))) (String.utf8EncodeChar c ++ s)

/-- The length of the shortest literal of a string, without its quotation marks. -/
def cost (s : Bytes) : ℕ := s.length + s.countP IsSpecial

/-- Two texts cost what they cost one by one. -/
theorem cost_append (s t : Bytes) : cost (s ++ t) = cost s + cost t := by
  simp only [cost, List.length_append, List.countP_append]
  omega

/-- A byte costs at most two. -/
theorem cost_cons_le (b : UInt8) (s : Bytes) : cost (b :: s) ≤ 2 + cost s := by
  simp only [cost, List.length_cons, List.countP_cons]
  split <;> omega

/-- A character of its own value costs nothing beyond its bytes. -/
theorem cost_of_not_isSpecialChar {c : Char} (h : ¬ IsSpecialChar c) :
    cost (String.utf8EncodeChar c) = (String.utf8EncodeChar c).length := by
  have hnone : (String.utf8EncodeChar c).countP IsSpecial = 0 := by
    rw [List.countP_eq_zero]
    intro b hb hspecial
    have hb' : b.toNat = 34 ∨ b.toNat = 92 ∨ b.toNat < 32 := by
      simpa [IsSpecial, ← UInt8.toNat_inj, UInt8.lt_iff_toNat_lt] using hspecial
    rcases utf8EncodeChar_spec c with ⟨b', hc, hval⟩ | ⟨-, -, hbytes⟩
    · rw [hc, List.mem_singleton] at hb
      rw [hb, hval] at hb'
      exact h hb'
    · have := hbytes b hb
      omega
  rw [cost, hnone, Nat.add_zero]

/-- The bytes of a character cost at most four. -/
theorem cost_utf8EncodeChar_le (c : Char) : cost (String.utf8EncodeChar c) ≤ 4 := by
  by_cases h : IsSpecialChar c
  · rcases utf8EncodeChar_spec c with ⟨b, hc, -⟩ | ⟨hval, -, -⟩
    · rw [hc]
      exact (cost_cons_le b []).trans (by decide)
    · rw [IsSpecialChar] at h
      omega
  · rw [cost_of_not_isSpecialChar h]
    rcases utf8EncodeChar_spec c with ⟨b, hc, -⟩ | ⟨-, hlen, -⟩
    · simp [hc]
    · exact hlen

/-- No literal is shorter than the cost of what it denotes. -/
theorem Chars.cost_le {r s : Bytes} (h : Chars r s) : cost s ≤ r.length := by
  induction h with
  | nil => decide
  | char hc hr ih =>
    rw [cost_append, cost_of_not_isSpecialChar hc, List.length_append]
    omega
  | @escape x b r s hx hr ih =>
    have := cost_cons_le b s
    simp only [List.length_cons]
    omega
  | @unicode ds r s c hlen hds hr ih =>
    have := cost_utf8EncodeChar_le c
    simp only [cost_append, List.length_cons, List.length_append]
    omega
  | @surrogates ds ds' r s hi lo c hlen hlen' hds hds' hhi hlo hc hr ih =>
    have := cost_utf8EncodeChar_le c
    simp only [cost_append, List.length_cons, List.length_append]
    omega

/-- A character with an escape is one byte. -/
theorem utf8EncodeChar_of_mem_escapes {x : UInt8 × UInt8} (hx : x ∈ escapes) :
    String.utf8EncodeChar (Char.ofNat x.2.toNat) = [x.2] := by
  simp only [escapes, List.mem_cons, List.not_mem_nil, or_false] at hx
  rcases hx with rfl | rfl | rfl | rfl | rfl | rfl | rfl | rfl <;> rfl

/-- What a literal denotes is UTF-8. -/
theorem Chars.validUtf8 {r s : Bytes} (h : Chars r s) : ValidUtf8 s := by
  have hescape : ∀ x ∈ escapes, ValidUtf8 [x.2] := by
    intro x hx
    rw [← utf8EncodeChar_of_mem_escapes hx]
    exact validUtf8_utf8EncodeChar _
  induction h with
  | nil => exact validUtf8_utf8 ""
  | char hc hr ih => exact (validUtf8_utf8EncodeChar _).append ih
  | escape hx hr ih => exact (hescape _ hx).append ih
  | unicode hlen hds hr ih => exact (validUtf8_utf8EncodeChar _).append ih
  | surrogates hlen hlen' hds hds' hhi hlo hc hr ih =>
    exact (validUtf8_utf8EncodeChar _).append ih

/-- A string without special bytes is its own literal. -/
theorem chars_self {s : Bytes} (hs : ValidUtf8 s) (h : ∀ b ∈ s, ¬ IsSpecial b) : Chars s s := by
  obtain ⟨cs, rfl⟩ := validUtf8_iff.mp hs
  clear hs
  induction cs with
  | nil => exact .nil
  | cons c cs ih =>
    rw [List.flatMap_cons, List.forall_mem_append] at h
    rw [List.flatMap_cons]
    refine .char (fun hc => ?_) (ih h.2)
    rcases utf8EncodeChar_spec c with ⟨b, hb, hval⟩ | ⟨hval, -, -⟩
    · refine h.1 b (by simp [hb]) ?_
      simpa [IsSpecial, IsSpecialChar, ← UInt8.toNat_inj, UInt8.lt_iff_toNat_lt, hval] using hc
    · rw [IsSpecialChar] at hc
      omega

/-! ### The literals that are written -/

/-- The byte that two hexadecimal digits write, of those that `escapeByte` uses. -/
def hexByte (h l : UInt8) : UInt8 :=
  (if h = 48 then 0 else 16) + if l < 87 then l - 48 else l - 87

/-- Read one byte of a literal back. -/
def unescapeByte : Bytes → UInt8 × Bytes
  | [] => (0, [])
  | [b] => (b, [])
  | b :: x :: s =>
    if b ≠ 92 then (b, x :: s)
    else if x = 117 then (hexByte (s.getD 2 0) (s.getD 3 0), s.drop 4)
    else ((escapes.lookup x).getD 0, s)

/-- No escape is a prefix of another, so that each is read back from whatever follows it. -/
theorem unescapeByte_escapeByte_append (b : UInt8) (s : Bytes) :
    unescapeByte (escapeByte b ++ s) = (b, s) := by
  have hcontrol : ∀ n : Fin 32, hexByte (if UInt8.ofNat n < 16 then 48 else 49)
      ((if UInt8.ofNat n % 16 < 10 then 48 else 87) + UInt8.ofNat n % 16) = UInt8.ofNat n := by
    decide +kernel
  have hopening : utf8 "\\u00" = [92, 117, 48, 48] := by decide
  unfold escapeByte
  iterate 7
    split
    · rename_i h
      subst h
      rfl
  rename_i h92
  split
  · rename_i hlt
    have hbyte := hcontrol ⟨b.toNat, hlt⟩
    rw [UInt8.ofNat_toNat] at hbyte
    rw [hopening]
    exact congrArg (·, s) hbyte
  · cases s with
    | nil => rfl
    | cons x s => rw [List.singleton_append, unescapeByte, if_pos h92]

/-- The first byte can be read off an escaped text. -/
theorem escapeByte_append_inj {b b' : UInt8} {s s' : Bytes}
    (h : escapeByte b ++ s = escapeByte b' ++ s') : b = b' ∧ s = s' := by
  have heq := congrArg unescapeByte h
  rw [unescapeByte_escapeByte_append, unescapeByte_escapeByte_append] at heq
  exact Prod.mk.inj heq

/-- No escape begins with a quotation mark. -/
theorem escapeByte_append_ne (b : UInt8) (s s' : Bytes) : escapeByte b ++ s ≠ 34 :: s' := by
  have hall : ∀ n : Fin 256, (escapeByte (UInt8.ofNat n)).head? ∉ [none, some 34] := by
    decide +kernel
  have hb := hall ⟨b.toNat, b.toNat_lt⟩
  rw [UInt8.ofNat_toNat] at hb
  cases hesc : escapeByte b with
  | nil => simp [hesc] at hb
  | cons x r =>
    rintro ⟨⟩
    simp [hesc] at hb

/-- What stands between the quotation marks is read back up to the second one. -/
theorem flatMap_escapeByte_append_inj {s s' t t' : Bytes}
    (h : s.flatMap escapeByte ++ 34 :: t = s'.flatMap escapeByte ++ 34 :: t') :
    s = s' ∧ t = t' := by
  induction s generalizing s' with
  | nil =>
    cases s' with
    | nil => simpa using h
    | cons b' s' =>
      rw [List.flatMap_cons, List.append_assoc] at h
      exact absurd h.symm (escapeByte_append_ne _ _ _)
  | cons b s ih =>
    rw [List.flatMap_cons, List.append_assoc] at h
    cases s' with
    | nil => exact absurd h (escapeByte_append_ne _ _ _)
    | cons b' s' =>
      rw [List.flatMap_cons, List.append_assoc] at h
      obtain ⟨rfl, hrest⟩ := escapeByte_append_inj h
      obtain ⟨rfl, ht⟩ := ih hrest
      exact ⟨rfl, ht⟩

/-- A literal is read back from whatever follows it. -/
theorem quote_append_inj {s s' t t' : Bytes} (h : quote s ++ t = quote s' ++ t') :
    s = s' ∧ t = t' := by
  have hquote : utf8 "\"" = [34] := by decide
  rw [quote, quote, hquote, List.append_assoc, List.append_assoc, List.append_assoc,
    List.append_assoc, List.append_cancel_left_eq] at h
  exact flatMap_escapeByte_append_inj h

/-! ## Documents -/

/-- A part of a text: a value, the elements of an array, or the members of an object. -/
inductive Part where
  | value (j : Json)
  | elements (js : List Json)
  | members (fs : List (Bytes × Json))

/-- What may stand around a value. -/
def IsSpace (w : Bytes) : Prop := ∀ b ∈ w, b ∈ [32, 9, 10, 13]

/-- The texts of a part. `fractions` are the literals of fractions. -/
inductive Reads (fractions : Bytes → ℚ → Prop) : Part → Bytes → Prop
  | null : Reads fractions (.value .null) (utf8 "null")
  | boolean (b : Bool) :
      Reads fractions (.value (.boolean b)) (utf8 (if b then "true" else "false"))
  | integer (n : ℤ) : Reads fractions (.value (.integer n)) (utf8 (toString n))
  | negativeZero : Reads fractions (.value (.integer 0)) (utf8 "-0")
  | floating {t : Bytes} {x : ℚ} (h : fractions t x) : Reads fractions (.value (.floating x)) t
  | string {r s : Bytes} (h : Chars r s) :
      Reads fractions (.value (.string s)) (34 :: (r ++ [34]))
  | emptyArray {w : Bytes} (hw : IsSpace w) :
      Reads fractions (.value (.array [])) (91 :: (w ++ [93]))
  | array {js : List Json} {t : Bytes} (h : Reads fractions (.elements js) t) :
      Reads fractions (.value (.array js)) (91 :: (t ++ [93]))
  | emptyObject {w : Bytes} (hw : IsSpace w) :
      Reads fractions (.value (.object [])) (123 :: (w ++ [125]))
  | object {fs : List (Bytes × Json)} {t : Bytes} (h : Reads fractions (.members fs) t) :
      Reads fractions (.value (.object (fs.foldl (fun acc f => insertField f.1 f.2 acc) [])))
        (123 :: (t ++ [125]))
  | lastElement {j : Json} {w t w' : Bytes} (hw : IsSpace w) (h : Reads fractions (.value j) t)
      (hw' : IsSpace w') : Reads fractions (.elements [j]) (w ++ t ++ w')
  | element {j : Json} {js : List Json} {w t w' t' : Bytes} (hw : IsSpace w)
      (h : Reads fractions (.value j) t) (hw' : IsSpace w')
      (h' : Reads fractions (.elements js) t') :
      Reads fractions (.elements (j :: js)) (w ++ t ++ w' ++ 44 :: t')
  | lastMember {k : Bytes} {j : Json} {w r v w' t w'' : Bytes} (hw : IsSpace w) (hk : Chars r k)
      (hv : IsSpace v) (hw' : IsSpace w') (h : Reads fractions (.value j) t) (hw'' : IsSpace w'') :
      Reads fractions (.members [(k, j)]) (w ++ 34 :: (r ++ 34 :: (v ++ 58 :: (w' ++ t ++ w''))))
  | member {k : Bytes} {j : Json} {fs : List (Bytes × Json)} {w r v w' t w'' t' : Bytes}
      (hw : IsSpace w) (hk : Chars r k) (hv : IsSpace v) (hw' : IsSpace w')
      (h : Reads fractions (.value j) t) (hw'' : IsSpace w'')
      (h' : Reads fractions (.members fs) t') :
      Reads fractions (.members ((k, j) :: fs))
        (w ++ 34 :: (r ++ 34 :: (v ++ 58 :: (w' ++ t ++ w'' ++ 44 :: t'))))

/-- The text denotes the document. -/
def Denotes (fractions : Bytes → ℚ → Prop) (t : Bytes) (j : Json) : Prop :=
  ∃ w t' w', t = w ++ t' ++ w' ∧ IsSpace w ∧ Reads fractions (.value j) t' ∧ IsSpace w'

/-! ### Compact texts -/

section

variable {fractions : Bytes → ℚ → Prop} {k : Bytes} {j : Json} {t : Bytes}

/-- The empty text is white space. -/
theorem isSpace_nil : IsSpace [] := by simp [IsSpace]

/-- The last member of an object is read from its key and its value. -/
theorem reads_lastMember (hk : Chars k k) (h : Reads fractions (.value j) t) :
    Reads fractions (.members [(k, j)]) (34 :: (k ++ 34 :: 58 :: t)) := by
  simpa using Reads.lastMember isSpace_nil hk isSpace_nil isSpace_nil h isSpace_nil

/-- A member that others follow is read from its key and its value before a comma. -/
theorem reads_member (hk : Chars k k) (h : Reads fractions (.value j) t)
    {fs : List (Bytes × Json)} {t' : Bytes} (h' : Reads fractions (.members fs) t') :
    Reads fractions (.members ((k, j) :: fs)) (34 :: (k ++ 34 :: 58 :: (t ++ 44 :: t'))) := by
  simpa using Reads.member isSpace_nil hk isSpace_nil isSpace_nil h isSpace_nil h'

/-- A text that is read without white space around it denotes the value. -/
theorem denotes_of_reads (h : Reads fractions (.value j) t) : Denotes fractions t j :=
  ⟨[], t, [], by simp, isSpace_nil, h, isSpace_nil⟩

end

/-! ## The length of a text -/

mutual

/-- What the strings and the objects of a document take in its compact text, without its arrays. -/
def weight : Json → ℕ
  | .string s => 2 + cost s
  | .object fields => 1 + fieldsWeight fields
  | .null | .boolean _ | .integer _ | .floating _ | .array _ => 0

def fieldsWeight : List (Bytes × Json) → ℕ
  | [] => 0
  | (k, v) :: fs => 4 + cost k + weight v + fieldsWeight fs

end

/-- A field that is inserted weighs no more than itself, -/
theorem fieldsWeight_insertField_le (k : Bytes) (v : Json) (fs : List (Bytes × Json)) :
    fieldsWeight (insertField k v fs) ≤ 4 + cost k + weight v + fieldsWeight fs := by
  induction fs with
  | nil => simp [insertField, fieldsWeight]
  | cons f fs ih =>
    obtain ⟨l, u⟩ := f
    rw [insertField]
    split_ifs <;> simp only [fieldsWeight] <;> omega

/-- Fields that are inserted one after another weigh no more than they do together. -/
theorem fieldsWeight_foldl_le (fs acc : List (Bytes × Json)) :
    fieldsWeight (fs.foldl (fun acc f => insertField f.1 f.2 acc) acc)
      ≤ fieldsWeight fs + fieldsWeight acc := by
  induction fs generalizing acc with
  | nil => simp [fieldsWeight]
  | cons f fs ih =>
    have := ih (insertField f.1 f.2 acc)
    have := fieldsWeight_insertField_le f.1 f.2 acc
    simp only [List.foldl_cons, fieldsWeight]
    omega

/-- A part takes at most `n` bytes, where the separators of members count for all but the last. -/
def Part.TakesAtMost : Part → ℕ → Prop
  | value j, n => weight j ≤ n
  | elements _, _ => True
  | members fs, n => fieldsWeight fs ≤ n + 1

/-- No text is shorter than its document. -/
theorem Reads.takesAtMost {fractions : Bytes → ℚ → Prop} {p : Part} {t : Bytes}
    (h : Reads fractions p t) : p.TakesAtMost t.length := by
  induction h with
  | null | boolean | integer | negativeZero | floating | emptyArray | array =>
    simp [Part.TakesAtMost, weight]
  | lastElement | element => trivial
  | emptyObject => simp [Part.TakesAtMost, weight, fieldsWeight]
  | string h =>
    have := h.cost_le
    simp only [Part.TakesAtMost, weight, List.length_cons, List.length_append, List.length_nil]
    omega
  | @object fs t h ih =>
    have := fieldsWeight_foldl_le fs []
    simp only [Part.TakesAtMost, weight, fieldsWeight, List.length_cons, List.length_append,
      List.length_nil] at this ih ⊢
    omega
  | lastMember hw hk hv hw' h hw'' ih =>
    have := hk.cost_le
    simp only [Part.TakesAtMost, fieldsWeight, List.length_cons, List.length_append] at ih ⊢
    omega
  | member hw hk hv hw' h hw'' h' ih ih' =>
    have := hk.cost_le
    simp only [Part.TakesAtMost, fieldsWeight, List.length_cons, List.length_append] at ih ih' ⊢
    omega

/-- A text is at least as long as its value is heavy. -/
theorem Denotes.weight_le {fractions : Bytes → ℚ → Prop} {t : Bytes} {j : Json}
    (h : Denotes fractions t j) : weight j ≤ t.length := by
  obtain ⟨w, t, w', rfl, -, hread, -⟩ := h
  have hle : weight j ≤ t.length := hread.takesAtMost
  simp only [List.length_append]
  omega

/-- What is read is UTF-8. -/
def Part.IsValid : Part → Prop
  | value j => j.isValid = true
  | elements js => ∀ j ∈ js, j.isValid = true
  | members fs => ∀ f ∈ fs, ValidUtf8 f.1 ∧ f.2.isValid = true

/-- Fields that are inserted keep keys and values valid. -/
theorem isValid_foldl_insertField {fs acc : List (Bytes × Json)}
    (hfs : ∀ f ∈ fs, ValidUtf8 f.1 ∧ f.2.isValid = true)
    (hacc : ∀ f ∈ acc, ValidUtf8 f.1 ∧ f.2.isValid = true) :
    ∀ f ∈ fs.foldl (fun acc f => insertField f.1 f.2 acc) acc,
      ValidUtf8 f.1 ∧ f.2.isValid = true := by
  induction fs generalizing acc with
  | nil => exact hacc
  | cons g fs ih =>
    obtain ⟨hg, hfs⟩ := List.forall_mem_cons.mp hfs
    refine ih hfs fun f hf => ?_
    rcases mem_insertField hf with rfl | hf
    · exact hg
    · exact hacc f hf

/-- What is read from a text can be serialised. -/
theorem Reads.isValid {fractions : Bytes → ℚ → Prop} {p : Part} {t : Bytes}
    (h : Reads fractions p t) : p.IsValid := by
  induction h with
  | null | boolean | integer | negativeZero | floating => rfl
  | string h => exact (isValid_string _).mpr h.validUtf8
  | emptyArray => exact (isValid_array _).mpr (by simp)
  | array h ih => exact (isValid_array _).mpr ih
  | emptyObject => exact (isValid_object _).mpr (by simp)
  | object h ih => exact (isValid_object _).mpr (isValid_foldl_insertField ih (by simp))
  | lastElement hw h hw' ih => simpa [Part.IsValid] using ih
  | element hw h hw' h' ih ih' => exact List.forall_mem_cons.mpr ⟨ih, ih'⟩
  | lastMember hw hk hv hw' h hw'' ih => simpa [Part.IsValid] using ⟨hk.validUtf8, ih⟩
  | member hw hk hv hw' h hw'' h' ih ih' =>
    exact List.forall_mem_cons.mpr ⟨⟨hk.validUtf8, ih⟩, ih'⟩

/-- A value that a text denotes can be serialised. -/
theorem Denotes.isValid {fractions : Bytes → ℚ → Prop} {t : Bytes} {j : Json}
    (h : Denotes fractions t j) : j.isValid = true := by
  obtain ⟨w, t, w', rfl, -, hread, -⟩ := h
  exact hread.isValid

/-! ### Members -/

/-- One field weighs no more than all of them. -/
theorem le_fieldsWeight {fs : List (Bytes × Json)} {k : Bytes} {v : Json}
    (h : fs.lookup k = some v) : 4 + cost k + weight v ≤ fieldsWeight fs := by
  induction fs with
  | nil => cases h
  | cons f fs ih =>
    obtain ⟨l, u⟩ := f
    rw [lookup_cons_eq] at h
    rw [fieldsWeight]
    split_ifs at h with hkl
    · cases h
      rw [hkl]
      omega
    · have := ih h
      omega

/-- Two fields with different keys weigh no more than all of them. -/
theorem add_le_fieldsWeight {fs : List (Bytes × Json)} {k k' : Bytes} {v v' : Json} (hne : k ≠ k')
    (h : fs.lookup k = some v) (h' : fs.lookup k' = some v') :
    4 + cost k + weight v + (4 + cost k' + weight v') ≤ fieldsWeight fs := by
  induction fs with
  | nil => cases h
  | cons f fs ih =>
    obtain ⟨l, u⟩ := f
    rw [lookup_cons_eq] at h h'
    rw [fieldsWeight]
    split_ifs at h h' with hk hk' hk'
    · exact absurd (hk.trans hk'.symm) hne
    · cases h
      have := le_fieldsWeight h'
      rw [hk]
      omega
    · cases h'
      have := le_fieldsWeight h
      rw [hk']
      omega
    · have := ih h h'
      omega

/-- A member is lighter than its object. -/
theorem weight_of_member {j v : Json} {key : String} (h : j.member key = some v) :
    5 + cost (utf8 key) + weight v ≤ weight j := by
  cases j with
  | object fs =>
    have := le_fieldsWeight h
    rw [weight]
    omega
  | _ => cases h

/-- Two members of an object take their places both. -/
theorem weight_of_members {j v v' : Json} {key key' : String} (hne : utf8 key ≠ utf8 key')
    (h : j.member key = some v) (h' : j.member key' = some v') :
    9 + cost (utf8 key) + weight v + cost (utf8 key') + weight v' ≤ weight j := by
  cases j with
  | object fs =>
    have := add_le_fieldsWeight hne h h'
    rw [weight]
    omega
  | _ => cases h

end Json

end Nlohmann
