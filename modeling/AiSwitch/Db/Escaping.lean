import AiSwitch.Common.ByteString

/-!
# Escaped texts

The repository splices keys and names into its statements after `mysql_real_escape_string` has put a
backslash before some of their characters. The function belongs to the client library and the
reading of the literals to the server, so both are a parameter, `Escaping`, which carries what is
documented of them. Which characters are escaped depends on the character set of the connection and
is left open.

`Escaping.ascii` goes byte by byte, as the library does with texts in ASCII.
-/

namespace AiSwitch

open ByteString

namespace Mysql

/-- The size of the buffers `escaped_key` and `escaped_name`. -/
def bufferSize : ℕ := 256

/-- What `mysql_real_escape_string` writes, without the terminating zero, and the value that the
server gives a literal. -/
structure Escaping where
  escape : Bytes → Bytes
  /-- The number of characters of a text that are escaped. -/
  escapes : Bytes → ℕ
  unescape : Bytes → Bytes
  /-- An escaped character takes one byte more. -/
  length_escape : ∀ s, (escape s).length = s.length + escapes s
  escapes_le : ∀ s, escapes s ≤ s.length
  /-- The literal made of an escaped text has that text as its value. -/
  unescape_escape : ∀ s, unescape (escape s) = s
  zero_notMem_escape : ∀ s, (0 : UInt8) ∉ escape s

namespace Escaping

variable (esc : Escaping)

/-- The escaped text and its terminating zero fit the buffer. -/
def Fits (s : Bytes) : Prop := (esc.escape s).length + 1 ≤ bufferSize

instance : DecidablePred esc.Fits := fun _ => inferInstanceAs (Decidable (_ ≤ _))

/-- An escaped text is read back whole as a C string. -/
theorem cstr_escape (s : Bytes) : cstr (esc.escape s) = esc.escape s :=
  cstr_eq_self (esc.zero_notMem_escape s)

/-- A text fits if it has at most 255 bytes, with one more for each character that is escaped. -/
theorem fits_iff (s : Bytes) : esc.Fits s ↔ s.length + esc.escapes s ≤ 255 := by
  rw [Fits, esc.length_escape, bufferSize]
  omega

/-- A text of half the size fits whatever its characters are. -/
theorem fits_of_length_le {s : Bytes} (h : s.length ≤ 127) : esc.Fits s := by
  have hle := esc.escapes_le s
  rw [fits_iff]
  omega

end Escaping

/-! ## Texts in ASCII -/

namespace Ascii

/-- What stands after the backslash for the characters that are escaped. -/
def escapeCode (b : UInt8) : Option UInt8 :=
  if b = 0 then some 48
  else if b = 10 then some 110
  else if b = 13 then some 114
  else if b = 26 then some 90
  else if b = 34 ∨ b = 39 ∨ b = 92 then some b
  else none

/-- What is written for one byte. -/
def escapeByte (b : UInt8) : Bytes := (escapeCode b).elim [b] fun c => [92, c]

/-- The character that a backslash and `c` stand for in a literal. -/
def unescapeCode (c : UInt8) : Bytes :=
  if c = 48 then [0]
  else if c = 98 then [8]
  else if c = 110 then [10]
  else if c = 114 then [13]
  else if c = 116 then [9]
  else if c = 90 then [26]
  else if c = 37 ∨ c = 95 then [92, c]
  else [c]

/-- The value of a literal. -/
def unescape : Bytes → Bytes
  | [] => []
  | [b] => [b]
  | b :: c :: s => if b = 92 then unescapeCode c ++ unescape s else b :: unescape (c :: s)

/-- What is written behind a backslash stands for the byte that is escaped. -/
theorem escapeCode_eq_some {b c : UInt8} (h : escapeCode b = some c) :
    unescapeCode c = [b] ∧ c ≠ 0 := by
  unfold escapeCode at h
  split_ifs at h with h0 h10 h13 h26 hself <;> cases h
  · exact ⟨by rw [h0]; rfl, by decide⟩
  · exact ⟨by rw [h10]; rfl, by decide⟩
  · exact ⟨by rw [h13]; rfl, by decide⟩
  · exact ⟨by rw [h26]; rfl, by decide⟩
  · rcases hself with rfl | rfl | rfl <;> exact ⟨rfl, by decide⟩

/-- A zero and a backslash do not stand for themselves. -/
theorem escapeCode_eq_none {b : UInt8} (h : escapeCode b = none) : b ≠ 0 ∧ b ≠ 92 := by
  constructor <;> rintro rfl <;> exact absurd h (by decide)

/-- A character of a literal other than a backslash stands for itself. -/
theorem unescape_cons {b : UInt8} (hb : b ≠ 92) (s : Bytes) :
    unescape (b :: s) = b :: unescape s := by
  cases s with
  | nil => rfl
  | cons c s => rw [unescape, if_neg hb]

/-- The literal of a text that is escaped byte by byte has the text as its value. -/
theorem unescape_escape (s : Bytes) : unescape (s.flatMap escapeByte) = s := by
  induction s with
  | nil => rfl
  | cons b s ih =>
    rw [List.flatMap_cons, escapeByte]
    cases h : escapeCode b with
    | some c =>
      rw [Option.elim, List.cons_append, List.cons_append, unescape, if_pos rfl,
        (escapeCode_eq_some h).1, List.nil_append, ih, List.singleton_append]
    | none =>
      rw [Option.elim, List.singleton_append, unescape_cons (escapeCode_eq_none h).2, ih]

/-- No zero is written for a byte. -/
theorem zero_notMem_escapeByte (b : UInt8) : (0 : UInt8) ∉ escapeByte b := by
  rw [escapeByte]
  cases h : escapeCode b with
  | some c => simpa using (escapeCode_eq_some h).2.symm
  | none => simpa using (escapeCode_eq_none h).1.symm

/-- A byte becomes two if it is escaped. -/
theorem length_escape (s : Bytes) : (s.flatMap escapeByte).length
    = s.length + s.countP fun b => (escapeCode b).isSome := by
  induction s with
  | nil => rfl
  | cons b s ih =>
    rw [List.flatMap_cons, List.length_append, ih, List.length_cons, List.countP_cons, escapeByte]
    cases escapeCode b with
    | some c =>
      simp only [Option.elim, List.length_cons, List.length_nil, Option.isSome_some, if_pos]
      omega
    | none =>
      simp only [Option.elim, List.length_cons, List.length_nil, Option.isSome_none,
        Bool.false_eq_true, if_false]
      omega

end Ascii

/-- Escaping byte by byte. -/
def Escaping.ascii : Escaping where
  escape s := s.flatMap Ascii.escapeByte
  escapes s := s.countP fun b => (Ascii.escapeCode b).isSome
  unescape := Ascii.unescape
  length_escape := Ascii.length_escape
  escapes_le _ := List.countP_le_length
  unescape_escape := Ascii.unescape_escape
  zero_notMem_escape s h := by
    obtain ⟨b, -, hb⟩ := List.mem_flatMap.mp h
    exact Ascii.zero_notMem_escapeByte b hb

end Mysql

end AiSwitch
