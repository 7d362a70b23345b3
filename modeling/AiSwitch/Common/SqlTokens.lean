import AiSwitch.Common.ByteString

/-!
# The tokens of an SQL statement

A server takes the text of a statement apart before anything else, so whether a value that is put
into the text stays a value is decided there. How it does so is a parameter, `Lexer`, which carries
what is documented of it: a text without quotation marks and comments has tokens, and an escaped
text between two single quotation marks is one literal, whose value is the text.

`Bytewise.lexer` is one that reads a byte at a time: within a literal a mark that stands twice
counts for itself, and a backslash and the byte behind it for what `unescape` says.
-/

namespace Sql

open ByteString

/-! ## What a server does with a text -/

/-- A letter, a digit, `_`, a blank, or one of `(`, `)`, `,`, `=` and `-`. -/
def IsPlain (b : UInt8) : Prop :=
  65 ≤ b ∧ b ≤ 90 ∨ 97 ≤ b ∧ b ≤ 122 ∨ 48 ≤ b ∧ b ≤ 57 ∨ b = 95 ∨ b = 32 ∨ b = 40 ∨ b = 41 ∨
    b = 44 ∨ b = 61 ∨ b = 45

instance : DecidablePred IsPlain := fun _ => inferInstanceAs (Decidable (_ ∨ _))

/-- A text before a literal: there is no comment in it, and its last token ends with it. -/
def Opens (s : Bytes) : Prop :=
  (∀ b ∈ s, IsPlain b ∧ b ≠ 45) ∧ s.getLast? ∈ [some 32, some 40, some 44]

instance : DecidablePred Opens := fun _ => inferInstanceAs (Decidable (_ ∧ _))

/-- How a server takes texts apart into which `escape` has put values. -/
structure Lexer (escape : Bytes → Bytes) where
  Token : Type
  /-- A literal is known by its value. -/
  literal : Bytes → Token
  literal_injective : Function.Injective literal
  tokens : Bytes → Option (List Token)
  isSome_of_plain : ∀ s, (∀ b ∈ s, IsPlain b) → (tokens s).isSome
  /-- An escaped text stays inside its literal and is its value. -/
  tokens_literal : ∀ s value b rest, Opens s → b ≠ 39 →
    tokens (s ++ 39 :: (escape value ++ 39 :: b :: rest))
      = (tokens s).bind fun ts => (tokens (b :: rest)).map fun ts' => ts ++ literal value :: ts'

namespace Lexer

variable {escape : Bytes → Bytes} (lexer : Lexer escape)

/-- The tokens of a text that the source writes. -/
def fixed (s : Bytes) : List lexer.Token := (lexer.tokens s).getD []

/-- A plain text has tokens. -/
theorem tokens_of_plain {s : Bytes} (hs : ∀ b ∈ s, IsPlain b) :
    lexer.tokens s = some (lexer.fixed s) := by
  obtain ⟨ts, hts⟩ := Option.isSome_iff_exists.mp (lexer.isSome_of_plain s hs)
  rw [fixed, hts, Option.getD_some]

/-- **A value that is spliced in is one token**, and what stands before and behind it is read as if
it were not there. -/
theorem tokens_spliced {s rest : Bytes} {b : UInt8} {ts : List lexer.Token} (hs : Opens s)
    (hb : b ≠ 39) (hrest : lexer.tokens (b :: rest) = some ts) (value : Bytes) :
    lexer.tokens (s ++ 39 :: (escape value ++ 39 :: b :: rest))
      = some (lexer.fixed s ++ lexer.literal value :: ts) := by
  have hplain := lexer.tokens_of_plain fun c hc => (hs.1 c hc).1
  rw [lexer.tokens_literal s value b rest hs hb, hplain, hrest]
  rfl

end Lexer

/-! ## Numbers -/

/-- A number is written in digits. -/
theorem digit_of_mem_toString {n : ℕ} {b : UInt8} (hb : b ∈ utf8 (toString n)) :
    48 ≤ b ∧ b ≤ 57 := by
  rw [Nat.toString_eq_ofList_toDigits, utf8, String.toByteArray_ofList, List.utf8Encode,
    List.data_toByteArray, List.mem_flatMap] at hb
  obtain ⟨c, hc, hb⟩ := hb
  have hdigit := Nat.isDigit_of_mem_toDigits (by omega) (by omega) hc
  have hrange : 48 ≤ c.toNat ∧ c.toNat ≤ 57 := by
    simpa [Char.isDigit, UInt32.le_iff_toNat_le] using hdigit
  have hval : c.val.toNat = c.toNat := rfl
  rw [String.utf8EncodeChar, if_pos (by omega), List.mem_singleton] at hb
  have hnat : b.toNat = c.toNat := by
    rw [hb, hval]
    exact Nat.mod_eq_of_lt (by omega)
  simp only [UInt8.le_iff_toNat_le, UInt8.reduceToNat]
  omega

/-- A negative number has a sign before its digits. -/
theorem utf8_toString_negSucc (n : ℕ) :
    utf8 (toString (Int.negSucc n)) = 45 :: utf8 (toString (n + 1)) := by
  have hsplit : toString (Int.negSucc n) = "-" ++ toString (n + 1) := rfl
  rw [hsplit, utf8, String.toByteArray_append]
  rfl

/-- A number is a plain text. -/
theorem isPlain_of_mem_toString {n : ℤ} {b : UInt8} (hb : b ∈ utf8 (toString n)) : IsPlain b := by
  have hdigit : ∀ {m : ℕ}, b ∈ utf8 (toString m) → IsPlain b :=
    fun h => .inr (.inr (.inl (digit_of_mem_toString h)))
  cases n with
  | ofNat n => exact hdigit hb
  | negSucc n =>
    rw [utf8_toString_negSucc] at hb
    rcases List.mem_cons.mp hb with rfl | hb
    · decide
    · exact hdigit hb

/-! ## Reading byte by byte -/

namespace Bytewise

/-- A token. -/
inductive Token where
  | word (w : Bytes)
  | symbol (b : UInt8)
  | literal (value : Bytes)
deriving DecidableEq, Repr

/-- Where the scanner is: between two tokens, in a word, in a literal, behind a backslash in a
literal, or behind a mark that ends the literal if no second one follows. -/
inductive Mode where
  | between
  | word (w : Bytes)
  | literal (mark : UInt8) (value : Bytes)
  | escape (mark : UInt8) (value : Bytes)
  | closing (mark : UInt8) (value : Bytes)
deriving DecidableEq, Repr

def isSpace (b : UInt8) : Bool := b = 32 ∨ 9 ≤ b ∧ b ≤ 13

/-- A letter, a digit, `_`, `$`, or a part of a character that is not ASCII. -/
def isWord (b : UInt8) : Bool :=
  65 ≤ b ∧ b ≤ 90 ∨ 97 ≤ b ∧ b ≤ 122 ∨ 48 ≤ b ∧ b ≤ 57 ∨ b = 95 ∨ b = 36 ∨ 128 ≤ b

/-- A byte between two tokens. -/
def start (b : UInt8) : List Token × Mode :=
  if isSpace b then ([], .between)
  else if b = 34 ∨ b = 39 then ([], .literal b [])
  else if isWord b then ([], .word [b])
  else ([.symbol b], .between)

variable (unescape : UInt8 → Bytes)

/-- One byte, with the token that it completes. -/
def step : Mode → UInt8 → List Token × Mode
  | .between, b => start b
  | .word w, b => if isWord b then ([], .word (w ++ [b])) else (.word w :: (start b).1, (start b).2)
  | .literal mark value, b =>
    if b = 92 then ([], .escape mark value)
    else if b = mark then ([], .closing mark value)
    else ([], .literal mark (value ++ [b]))
  | .escape mark value, b => ([], .literal mark (value ++ unescape b))
  | .closing mark value, b =>
    if b = mark then ([], .literal mark (value ++ [b]))
    else (.literal value :: (start b).1, (start b).2)

/-- The tokens that a text completes, and where it leaves the scanner. -/
def scan : Mode → Bytes → List Token × Mode
  | m, [] => ([], m)
  | m, b :: s =>
    ((step unescape m b).1 ++ (scan (step unescape m b).2 s).1, (scan (step unescape m b).2 s).2)

/-- The last token, which ends with the text. A literal has to be closed. -/
def Mode.finish : Mode → Option (List Token)
  | between => some []
  | word w => some [.word w]
  | closing _ value => some [.literal value]
  | literal _ _ | escape _ _ => none

/-- The tokens of a whole text. -/
def tokens (text : Bytes) : Option (List Token) :=
  (scan unescape .between text).2.finish.map ((scan unescape .between text).1 ++ ·)

variable {unescape} {m m' m'' : Mode} {s t : Bytes} {ts ts' : List Token}

/-- Where a first part leaves the scanner, the rest is taken up. -/
theorem scan_append (hs : scan unescape m s = (ts, m')) (ht : scan unescape m' t = (ts', m'')) :
    scan unescape m (s ++ t) = (ts ++ ts', m'') := by
  induction s generalizing m ts with
  | nil =>
    cases hs
    exact ht
  | cons b s ih =>
    rw [scan] at hs
    obtain ⟨rfl, hm⟩ := Prod.mk.inj hs
    rw [List.cons_append, scan, ih (Prod.ext rfl hm), List.append_assoc]

/-- The scanner is not in a literal. -/
def Mode.Outside : Mode → Prop
  | between | word _ => True
  | literal _ _ | escape _ _ | closing _ _ => False

/-- A plain byte begins no literal. -/
theorem outside_start {b : UInt8} (hb : IsPlain b) : (start b).2.Outside := by
  have hmark : ¬ (b = 34 ∨ b = 39) := by
    rintro (rfl | rfl) <;> exact absurd hb (by decide)
  rw [start, if_neg hmark]
  split_ifs <;> trivial

/-- A plain text leads into no literal. -/
theorem outside_scan (hs : ∀ b ∈ s, IsPlain b) (hm : m.Outside) :
    (scan unescape m s).2.Outside := by
  induction s generalizing m with
  | nil => exact hm
  | cons b s ih =>
    obtain ⟨hb, hs⟩ := List.forall_mem_cons.mp hs
    refine ih hs ?_
    cases m with
    | between => exact outside_start hb
    | word w =>
      rw [step]
      split_ifs
      · trivial
      · exact outside_start hb
    | literal | escape | closing => exact hm.elim

/-- Outside of literals a text may end. -/
theorem isSome_finish (hm : m.Outside) : m.finish.isSome := by
  cases m with
  | between | word => rfl
  | literal | escape | closing => exact hm.elim

/-- A blank, a parenthesis and a comma end the token before them. -/
theorem scan_of_opens (hs : Opens s) : ∃ ts, scan unescape .between s = (ts, .between) := by
  obtain ⟨hplain, hlast⟩ := hs
  rcases List.eq_nil_or_concat s with rfl | ⟨t, b, rfl⟩
  · simp at hlast
  rw [List.concat_eq_append] at hplain hlast ⊢
  have hb : b = 32 ∨ b = 40 ∨ b = 44 := by simpa using hlast
  have hout : (scan unescape .between t).2.Outside :=
    outside_scan (fun c hc => (hplain c (List.mem_append_left _ hc)).1) trivial
  have hword : isWord b = false ∧ (start b).2 = .between := by
    rcases hb with rfl | rfl | rfl <;> exact ⟨by decide, by decide⟩
  have hend : (scan unescape (scan unescape .between t).2 [b]).2 = .between := by
    cases hmode : (scan unescape .between t).2 with
    | between => exact hword.2
    | word w =>
      rw [scan, scan, step, if_neg (by simp [hword.1])]
      exact hword.2
    | literal | escape | closing => exact (hmode ▸ hout).elim
  exact ⟨_, scan_append rfl (Prod.ext rfl hend)⟩

/-- **A text that is escaped stays in its literal**, whatever it is. -/
theorem scan_literal_flatMap {escape : UInt8 → Bytes} {mark : UInt8}
    (hescape : ∀ b value,
      scan unescape (.literal mark value) (escape b) = ([], .literal mark (value ++ [b])))
    (s value : Bytes) :
    scan unescape (.literal mark value) (s.flatMap escape) = ([], .literal mark (value ++ s)) := by
  induction s generalizing value with
  | nil => rw [List.append_nil, List.flatMap_nil, scan]
  | cons b s ih =>
    rw [List.flatMap_cons, scan_append (hescape b value) (ih _), List.append_assoc,
      List.singleton_append, List.append_nil]

/-- The mark behind a literal ends it. -/
theorem scan_close {mark b : UInt8} (hmark : mark ≠ 92) (hb : b ≠ mark)
    (h : scan unescape .between (b :: s) = (ts, m)) (value : Bytes) :
    scan unescape (.literal mark value) (mark :: b :: s) = (.literal value :: ts, m) := by
  rw [scan, step] at h
  obtain ⟨rfl, rfl⟩ := Prod.mk.inj h
  rw [scan, step, if_neg hmark, if_pos rfl, scan, step, if_neg hb]
  rfl

/-- The lexer that reads byte by byte what is escaped byte by byte. -/
def lexer (unescape escape : UInt8 → Bytes)
    (hescape : ∀ b value,
      scan unescape (.literal 39 value) (escape b) = ([], .literal 39 (value ++ [b]))) :
    Lexer (·.flatMap escape) where
  Token := Token
  literal := .literal
  literal_injective _ _ h := Token.literal.inj h
  tokens := tokens unescape
  isSome_of_plain s hs := by
    rw [tokens, Option.isSome_map]
    exact isSome_finish (outside_scan hs trivial)
  tokens_literal s value b rest hs hb := by
    obtain ⟨ts, hopening⟩ : ∃ ts, scan unescape .between s = (ts, .between) := scan_of_opens hs
    obtain ⟨ts', m, hrest⟩ : ∃ ts' m, scan unescape .between (b :: rest) = (ts', m) := ⟨_, _, rfl⟩
    have hvalue := scan_append (scan_literal_flatMap hescape value [])
      (scan_close (by decide) hb hrest _)
    have hmark : scan unescape .between [39] = ([], .literal 39 []) := rfl
    have hall := scan_append hopening (scan_append hmark hvalue)
    rw [tokens, tokens, tokens, hopening, hrest,
      show s ++ 39 :: (value.flatMap escape ++ 39 :: b :: rest)
        = s ++ ([39] ++ (value.flatMap escape ++ 39 :: b :: rest)) from rfl, hall]
    cases m.finish with
    | none => rfl
    | some last => simp [Mode.finish]

end Bytewise

end Sql
