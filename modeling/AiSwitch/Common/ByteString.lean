import Mathlib.Data.List.Basic
import Mathlib.Data.List.TakeWhile

/-!
# Byte strings and UTF-8

A `std::string` is a sequence of bytes with no encoding attached. `utf8` gives the bytes of a
literal, and `ValidUtf8` is the predicate a serialiser checks before it writes a byte string as
text. Lean's own decoder supplies both the predicate and its decision procedure.
-/

namespace ByteString

/-- A byte string: any sequence of bytes, not necessarily text. -/
abbrev Bytes := List UInt8

/-- The bytes of a string literal in a UTF-8 source file. -/
def utf8 (s : String) : Bytes := s.toByteArray.data.toList

/-- A C string ends at its first zero. -/
def cstr (s : Bytes) : Bytes := s.takeWhile (· ≠ 0)

/-- A zero ends the string, whatever is appended. -/
theorem cstr_append (s t : Bytes) : cstr (s ++ t) = if 0 ∈ s then cstr s else s ++ cstr t := by
  induction s with
  | nil => simp
  | cons b s ih =>
    by_cases hb : b = 0
    · simp [cstr, hb]
    · have hcons : ∀ u, cstr (b :: u) = b :: cstr u := fun u => by simp [cstr, hb]
      rw [List.cons_append, hcons, hcons, ih]
      by_cases hs : 0 ∈ s <;> simp [hs, Ne.symm hb]

/-- A text without a zero is read back whole. -/
theorem cstr_eq_self {s : Bytes} (h : 0 ∉ s) : cstr s = s := by
  apply List.takeWhile_eq_self_iff.mpr
  intro b hb
  have hne : b ≠ 0 := fun hzero => h (hzero ▸ hb)
  simpa using hne

/-- Texts with the same bytes are the same. -/
theorem utf8_inj {s t : String} : utf8 s = utf8 t ↔ s = t := by
  constructor
  · intro h
    apply String.toByteArray_inj.mp
    apply ByteArray.ext
    apply Array.ext'
    exact h
  · rintro rfl
    rfl

/-- The byte string is the UTF-8 encoding of some sequence of characters. -/
def ValidUtf8 (b : Bytes) : Prop := (ByteArray.mk b.toArray).IsValidUTF8

instance : DecidablePred ValidUtf8 :=
  fun b => inferInstanceAs (Decidable (ByteArray.mk b.toArray).IsValidUTF8)

/-- The byte array of two lists of bytes, one after the other. -/
theorem mk_append (a b : Bytes) :
    ByteArray.mk (a ++ b).toArray = ByteArray.mk a.toArray ++ ByteArray.mk b.toArray := by
  apply ByteArray.ext
  simp

/-- Literals are valid. -/
theorem validUtf8_utf8 (s : String) : ValidUtf8 (utf8 s) := by
  have h : ByteArray.mk (utf8 s).toArray = s.toByteArray := by
    apply ByteArray.ext
    simp [utf8]
  rw [ValidUtf8, h]
  exact s.isValidUTF8

/-- The byte array of a list of bytes, under the library's name. -/
theorem mk_toArray (b : Bytes) : ByteArray.mk b.toArray = b.toByteArray := by
  apply ByteArray.ext
  rw [List.data_toByteArray]

/-- A valid byte string is the concatenation of the encodings of characters. -/
theorem validUtf8_iff {b : Bytes} :
    ValidUtf8 b ↔ ∃ cs : List Char, b = cs.flatMap String.utf8EncodeChar := by
  rw [ValidUtf8, mk_toArray]
  constructor
  · rintro ⟨cs, hcs⟩
    exact ⟨cs, List.toByteArray_inj.mp hcs⟩
  · rintro ⟨cs, rfl⟩
    exact ⟨cs, rfl⟩

/-- The bytes of one character are well-formed. -/
theorem validUtf8_utf8EncodeChar (c : Char) : ValidUtf8 (String.utf8EncodeChar c) :=
  validUtf8_iff.mpr ⟨[c], by simp⟩

/-- Well-formed bytes in a row are well-formed. -/
theorem ValidUtf8.append {a b : Bytes} (ha : ValidUtf8 a) (hb : ValidUtf8 b) :
    ValidUtf8 (a ++ b) := by
  rw [ValidUtf8, mk_append]
  exact ByteArray.IsValidUTF8.append ha hb

/-- Behind whole characters, what is left of well-formed bytes is well-formed. -/
theorem isValidUTF8_of_append {l : List Char} {b : ByteArray}
    (h : (l.utf8Encode ++ b).IsValidUTF8) : b.IsValidUTF8 := by
  induction l with
  | nil => simpa using h
  | cons c l ih =>
    apply ih
    obtain ⟨m, hm⟩ := h
    rw [List.utf8Encode_cons, ByteArray.append_assoc] at hm
    have hc := List.utf8DecodeChar?_utf8Encode_singleton_append (b := l.utf8Encode ++ b) (c := c)
    rw [hm] at hc
    -- the first character decoded from both sides is `c`, so it can be cancelled
    cases m with
    | nil =>
      have hsize := congrArg ByteArray.size hm
      simp [List.utf8Encode_singleton, Char.utf8Size_pos, Nat.ne_of_gt] at hsize
    | cons c' m =>
      rw [List.utf8DecodeChar?_utf8Encode_cons, Option.some.injEq] at hc
      subst hc
      exact ⟨m, (ByteArray.append_right_inj _).mp (hm.trans List.utf8Encode_cons)⟩

/-- A valid prefix neither repairs nor damages what follows it. -/
theorem validUtf8_append_iff {a b : Bytes} (ha : ValidUtf8 a) :
    ValidUtf8 (a ++ b) ↔ ValidUtf8 b := by
  constructor
  · intro h
    rw [ValidUtf8, mk_append] at h
    obtain ⟨l, hl⟩ := ha
    rw [hl] at h
    exact isValidUTF8_of_append h
  · exact ha.append

/-- A character is one byte of the same value, or bytes that are not ASCII. -/
theorem utf8EncodeChar_spec (c : Char) :
    (∃ b : UInt8, String.utf8EncodeChar c = [b] ∧ b.toNat = c.toNat) ∨
      128 ≤ c.toNat ∧ (String.utf8EncodeChar c).length ≤ 4 ∧
        ∀ b ∈ String.utf8EncodeChar c, 128 ≤ b.toNat := by
  have hval : c.val.toNat = c.toNat := rfl
  have hmax : c.toNat < 0x110000 := by
    have hvalid : c.toNat < 0xd800 ∨ 0xdfff < c.toNat ∧ c.toNat < 0x110000 := c.valid
    omega
  unfold String.utf8EncodeChar
  simp only [hval]
  split_ifs with h₁ h₂ h₃
  · exact .inl ⟨_, rfl, by simp; omega⟩
  · refine .inr ⟨by omega, by simp, ?_⟩
    simp
    omega
  · refine .inr ⟨by omega, by simp, ?_⟩
    simp
    omega
  · refine .inr ⟨by omega, by simp, ?_⟩
    simp
    omega

/-- What a C string has of a valid text is valid: a zero is a character of its own. -/
theorem ValidUtf8.cstr {b : Bytes} (hb : ValidUtf8 b) : ValidUtf8 (cstr b) := by
  obtain ⟨cs, rfl⟩ := validUtf8_iff.mp hb
  clear hb
  induction cs with
  | nil => exact validUtf8_utf8 ""
  | cons c cs ih =>
    rw [List.flatMap_cons, cstr_append]
    split_ifs with hzero
    · obtain ⟨b, hc, -⟩ | ⟨-, -, hbytes⟩ := utf8EncodeChar_spec c
      · rw [hc, List.mem_singleton] at hzero
        rw [hc, ← hzero]
        exact validUtf8_utf8 ""
      · exact absurd (hbytes 0 hzero) (by decide)
    · exact (validUtf8_utf8EncodeChar c).append ih

end ByteString
