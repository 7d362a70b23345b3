import AiSwitch.Common.JsonText

/-!
# What `dump` writes

`dump` and a reader agree: the compact text of a document denotes the document (`denotes_text`),
whatever bytes its strings hold, as long as they are UTF-8. The members of an object are read into
the order in which a `std::map` keeps them, so that it is the document in that order which is read
back (`normal`). Nothing is assumed of the digits of a fraction but that they denote it.
-/

namespace Nlohmann

open ByteString

namespace Json

/-! ## Strings -/

/-- What is written for an ASCII byte: a letter behind a backslash, its number in four hexadecimal
digits, or the byte itself. -/
theorem escapeByte_of_lt {b : UInt8} (hb : b < 128) :
    (∃ x, (x, b) ∈ escapes ∧ escapeByte b = [92, x]) ∨
      (∃ ds, ds.length = 4 ∧ hexNumber ds = some b.toNat ∧ escapeByte b = 92 :: 117 :: ds) ∨
      ¬ IsSpecial b ∧ escapeByte b = [b] := by
  have hall : ∀ n : Fin 128, let b := UInt8.ofNat n
      ((escapeByte b).getD 1 0, b) ∈ escapes ∧ escapeByte b = [92, (escapeByte b).getD 1 0] ∨
        ((escapeByte b).drop 2).length = 4 ∧ hexNumber ((escapeByte b).drop 2) = some b.toNat ∧
          escapeByte b = 92 :: 117 :: (escapeByte b).drop 2 ∨
        ¬ IsSpecial b ∧ escapeByte b = [b] := by
    decide +kernel
  have h := hall ⟨b.toNat, hb⟩
  dsimp only at h
  rw [UInt8.ofNat_toNat] at h
  exact h.imp (fun h => ⟨_, h⟩) (Or.imp_left fun h => ⟨_, h⟩)

/-- Other bytes are written as they are. -/
theorem escapeByte_of_le {b : UInt8} (hb : 128 ≤ b) : escapeByte b = [b] := by
  have hall : ∀ n : Fin 256,
      128 ≤ UInt8.ofNat n → escapeByte (UInt8.ofNat n) = [UInt8.ofNat n] := by
    decide +kernel
  have h := hall ⟨b.toNat, b.toNat_lt⟩
  rw [UInt8.ofNat_toNat] at h
  exact h hb

/-- Bytes outside ASCII are not escaped. -/
theorem flatMap_escapeByte_of_le {s : Bytes} (hs : ∀ b ∈ s, 128 ≤ b) :
    s.flatMap escapeByte = s := by
  induction s with
  | nil => rfl
  | cons b s ih =>
    obtain ⟨hb, hs⟩ := List.forall_mem_cons.mp hs
    rw [List.flatMap_cons, escapeByte_of_le hb, ih hs, List.singleton_append]

/-- The escaped bytes of one character are read back before any literal. -/
theorem chars_escape_append (c : Char) {r s : Bytes} (h : Chars r s) :
    Chars ((String.utf8EncodeChar c).flatMap escapeByte ++ r) (String.utf8EncodeChar c ++ s) := by
  rcases utf8EncodeChar_spec c with ⟨b, hc, hval⟩ | ⟨hval, -, hbytes⟩
  · have hnat : b.toNat = c.toNat → ¬ IsSpecial b → ¬ IsSpecialChar c := by
      simp only [IsSpecial, IsSpecialChar, ← UInt8.toNat_inj, UInt8.lt_iff_toNat_lt]
      intro heq
      simp [heq]
    by_cases hb : b < 128
    · rw [hc, List.flatMap_singleton]
      rcases escapeByte_of_lt hb with ⟨x, hx, hesc⟩ | ⟨ds, hlen, hds, hesc⟩ | ⟨hplain, hesc⟩
      · rw [hesc]
        exact .escape hx h
      · rw [hesc, ← hc]
        exact .unicode hlen (hval ▸ hds) h
      · rw [hesc, ← hc]
        exact .char (hnat hval hplain) h
    · have hle : 128 ≤ b := UInt8.not_lt.mp hb
      have hplain : ¬ IsSpecial b := by
        simp only [IsSpecial, ← UInt8.toNat_inj, UInt8.lt_iff_toNat_lt, UInt8.le_iff_toNat_le,
          UInt8.reduceToNat] at hle ⊢
        omega
      rw [hc, List.flatMap_singleton, escapeByte_of_le hle, ← hc]
      exact .char (hnat hval hplain) h
  · have hle : ∀ b ∈ String.utf8EncodeChar c, 128 ≤ b := fun b hb => hbytes b hb
    rw [flatMap_escapeByte_of_le hle]
    refine .char ?_ h
    rw [IsSpecialChar]
    omega

/-- The literal of a string denotes it. -/
theorem chars_escape {s : Bytes} (hs : ValidUtf8 s) : Chars (s.flatMap escapeByte) s := by
  obtain ⟨cs, rfl⟩ := validUtf8_iff.mp hs
  clear hs
  induction cs with
  | nil => exact .nil
  | cons c cs ih =>
    rw [List.flatMap_cons, List.flatMap_append]
    exact chars_escape_append c ih

/-- A quoted text is its escaped bytes between quotation marks. -/
theorem quote_eq (s : Bytes) : quote s = 34 :: (s.flatMap escapeByte ++ [34]) := by
  have hquote : utf8 "\"" = [34] := by decide
  rw [quote, hquote, List.singleton_append, List.cons_append]

/-! ## Documents -/

mutual

/-- The document with the members of its objects in the order of a `std::map`. -/
def normal : Json → Json
  | array elems => array (normals elems)
  | object fields =>
    object ((normalFields fields).foldl (fun acc f => insertField f.1 f.2 acc) [])
  | null => null
  | boolean b => boolean b
  | integer n => integer n
  | floating x => floating x
  | string s => string s

def normals : List Json → List Json
  | [] => []
  | j :: js => normal j :: normals js

def normalFields : List (Bytes × Json) → List (Bytes × Json)
  | [] => []
  | (k, v) :: fs => (k, normal v) :: normalFields fs

end

/-- The texts behind the first one, with a separator before each. -/
theorem intercalate_cons_of_ne_nil (sep t : Bytes) {ts : List Bytes} (hts : ts ≠ []) :
    sep.intercalate (t :: ts) = t ++ (sep ++ sep.intercalate ts) := by
  cases ts with
  | nil => exact absurd rfl hts
  | cons t' ts => simp [List.intercalate]

section

variable {lib : Lib} {fractions : Bytes → ℚ → Prop} {j : Json}

/-- The elements of an array are read one after the other. -/
theorem reads_texts_cons (hj : Reads fractions (.value j.normal) (lib.text j)) {js : List Json}
    (h : js ≠ [] →
      Reads fractions (.elements (normals js)) ((utf8 ",").intercalate (lib.texts js))) :
    Reads fractions (.elements (normals (j :: js)))
      ((utf8 ",").intercalate (lib.texts (j :: js))) := by
  cases js with
  | nil => simpa [Lib.texts, normals] using Reads.lastElement isSpace_nil hj isSpace_nil
  | cons j' js =>
    have hcomma : utf8 "," = [44] := by decide
    have hread := Reads.element isSpace_nil hj isSpace_nil (h (List.cons_ne_nil _ _))
    rw [Lib.texts, intercalate_cons_of_ne_nil _ _ (by simp [Lib.texts])]
    simpa [normals, hcomma] using hread

/-- The members of an object are read one after the other. -/
theorem reads_fieldTexts_cons (hj : Reads fractions (.value j.normal) (lib.text j)) {k : Bytes}
    (hk : ValidUtf8 k) {fs : List (Bytes × Json)}
    (h : fs ≠ [] → Reads fractions (.members (normalFields fs))
      ((utf8 ",").intercalate (lib.fieldTexts fs))) :
    Reads fractions (.members (normalFields ((k, j) :: fs)))
      ((utf8 ",").intercalate (lib.fieldTexts ((k, j) :: fs))) := by
  have hkey := chars_escape hk
  have hcolon : utf8 ":" = [58] := by decide
  cases fs with
  | nil =>
    have hread := Reads.lastMember isSpace_nil hkey isSpace_nil isSpace_nil hj isSpace_nil
    simpa [Lib.fieldTexts, normalFields, quote_eq, hcolon] using hread
  | cons f fs =>
    have hcomma : utf8 "," = [44] := by decide
    have hread := Reads.member isSpace_nil hkey isSpace_nil isSpace_nil hj isSpace_nil
      (h (List.cons_ne_nil _ _))
    rw [Lib.fieldTexts, intercalate_cons_of_ne_nil _ _ (by simp [Lib.fieldTexts])]
    simpa [normalFields, quote_eq, hcolon, hcomma] using hread

variable (lib fractions) in
/-- The digits that are written for a fraction denote it. -/
def WritesFractions : Prop := ∀ x, fractions (utf8 (lib.floatText x)) x

mutual

/-- The text of a value is read back. -/
theorem reads_text (hwrites : WritesFractions lib fractions) : (j : Json) → j.isValid = true →
    Reads fractions (.value j.normal) (lib.text j)
  | null, _ => .null
  | boolean b, _ => .boolean b
  | integer n, _ => .integer n
  | floating x, _ => .floating (hwrites x)
  | string s, hj => by
    rw [Lib.text, quote_eq]
    exact .string (chars_escape ((isValid_string s).mp hj))
  | array js, hj => by
    have hbrackets : utf8 "[" = [91] ∧ utf8 "]" = [93] := by decide
    rw [Lib.text, hbrackets.1, hbrackets.2]
    by_cases hne : js = []
    · rw [hne]
      exact .emptyArray isSpace_nil
    · exact .array (reads_texts hwrites js ((isValid_array js).mp hj) hne)
  | object fs, hj => by
    have hbraces : utf8 "\x7b" = [123] ∧ utf8 "\x7d" = [125] := by decide
    rw [Lib.text, hbraces.1, hbraces.2]
    by_cases hne : fs = []
    · rw [hne]
      exact .emptyObject isSpace_nil
    · exact .object (reads_fieldTexts hwrites fs ((isValid_object fs).mp hj) hne)

/-- The elements of an array are read back from their texts. -/
theorem reads_texts (hwrites : WritesFractions lib fractions) : (js : List Json) →
    (∀ j ∈ js, j.isValid = true) → js ≠ [] →
    Reads fractions (.elements (normals js)) ((utf8 ",").intercalate (lib.texts js))
  | [], _, hne => absurd rfl hne
  | j :: js, h, _ =>
    have hall := List.forall_mem_cons.mp h
    reads_texts_cons (reads_text hwrites j hall.1) (reads_texts hwrites js hall.2)

/-- The members of an object are read back from their texts. -/
theorem reads_fieldTexts (hwrites : WritesFractions lib fractions) : (fs : List (Bytes × Json)) →
    (∀ f ∈ fs, ValidUtf8 f.1 ∧ f.2.isValid = true) → fs ≠ [] →
    Reads fractions (.members (normalFields fs)) ((utf8 ",").intercalate (lib.fieldTexts fs))
  | [], _, hne => absurd rfl hne
  | (_, j) :: fs, h, _ =>
    have hall := List.forall_mem_cons.mp h
    reads_fieldTexts_cons (reads_text hwrites j hall.1.2) hall.1.1
      (reads_fieldTexts hwrites fs hall.2)

end

/-- **What is dumped is read back.** -/
theorem denotes_of_dump (hwrites : WritesFractions lib fractions) {t : Bytes}
    (h : lib.dump j = .ok t) : Denotes fractions t j.normal := by
  rw [Lib.dump] at h
  split_ifs at h with hj
  cases h
  exact denotes_of_reads (reads_text hwrites j hj)

end

end Json

end Nlohmann
