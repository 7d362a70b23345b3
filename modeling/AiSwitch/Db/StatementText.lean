import AiSwitch.Common.SqlTokens
import AiSwitch.Db.TableChanges

/-!
# The texts of the statements

The repository splices keys, names and numbers into the texts of its statements, and what keeps a
name from being read as SQL is `mysql_real_escape_string` alone. `statements_as_intended` says that
it suffices for a server that keeps to what is documented (`Sql.Lexer`): whatever bytes a client
sends for a key or a name, it takes the text apart into the tokens of what stands in the source,
with this key and this name as single literals between them. The text contains no zero, so that all
of it is sent.
-/

namespace AiSwitch

open ByteString Effect Sql
open Mysql (Backend Db Op Row Statement)

namespace Mysql

/-- The text of a statement, as the repository puts it together. -/
def Statement.sql : Statement → Bytes
  | selectKey apiKey =>
    utf8 "SELECT id, api_key, name, rate_limit, enabled FROM api_keys WHERE api_key = '" ++
      apiKey ++
      utf8 "' LIMIT 1"
  | selectAll => utf8 "SELECT id, api_key, name, rate_limit, enabled FROM api_keys ORDER BY id"
  | insert apiKey name rateLimit =>
    utf8 "INSERT INTO api_keys (api_key, name, rate_limit, enabled) VALUES ('" ++ apiKey ++
      utf8 "', '" ++ name ++ utf8 "', " ++ utf8 (toString rateLimit) ++ utf8 ", 1)"
  | disable id => utf8 "UPDATE api_keys SET enabled = 0 WHERE id = " ++ utf8 (toString id)

end Mysql

namespace Operation

/-! ## What the texts are meant to say -/

/-- What stands in the source before the key of a lookup. -/
def selectKeyText : Bytes :=
  utf8 "SELECT id, api_key, name, rate_limit, enabled FROM api_keys WHERE api_key = "

/-- What stands before the key of a creation. -/
def insertText : Bytes :=
  utf8 "INSERT INTO api_keys (api_key, name, rate_limit, enabled) VALUES ("

/-- What stands behind its name. -/
def limitText (rateLimit : ℤ) : Bytes := utf8 ", " ++ utf8 (toString rateLimit) ++ utf8 ", 1)"

section

variable {be : Backend} (lexer : Lexer be.escape)

/-- The tokens that an operation is meant to send: those of the source, with the values as literals
between them. -/
def Intends : Operation → List lexer.Token → Prop
  | findApiKey key, ts =>
    ts = lexer.fixed selectKeyText ++ lexer.literal key :: lexer.fixed (utf8 " LIMIT 1")
  | createApiKey dis name rateLimit, ts => ∃ seed,
    ts = lexer.fixed insertText ++ lexer.literal (Repository.generateApiKey dis seed) ::
      (lexer.fixed (utf8 ", ") ++ lexer.literal name :: lexer.fixed (limitText rateLimit))
  | listApiKeys, ts =>
    ts = lexer.fixed
      (utf8 "SELECT id, api_key, name, rate_limit, enabled FROM api_keys ORDER BY id")
  | disableApiKey id, ts =>
    ts = lexer.fixed (utf8 "UPDATE api_keys SET enabled = 0 WHERE id = " ++ utf8 (toString id))

/-! ## The texts -/

/-- The source puts the marks into the texts around the values. -/
theorem marks_split :
    utf8 "SELECT id, api_key, name, rate_limit, enabled FROM api_keys WHERE api_key = '"
        = selectKeyText ++ [39] ∧
      utf8 "' LIMIT 1" = 39 :: 32 :: utf8 "LIMIT 1" ∧ utf8 " LIMIT 1" = 32 :: utf8 "LIMIT 1" ∧
      utf8 "INSERT INTO api_keys (api_key, name, rate_limit, enabled) VALUES ('"
        = insertText ++ [39] ∧
      utf8 "', '" = 39 :: 44 :: (utf8 " " ++ [39]) ∧ utf8 "', " = 39 :: 44 :: utf8 " " ∧
      utf8 ", " = 44 :: utf8 " " := by
  decide +kernel

/-- Without the marks the texts of the source are plain. -/
theorem texts_plain :
    Opens selectKeyText ∧ Opens insertText ∧ Opens (utf8 ", ") ∧
      (∀ b ∈ utf8 " LIMIT 1", IsPlain b) ∧ (∀ b ∈ utf8 ", 1)", IsPlain b) ∧
      (∀ b ∈ utf8 "SELECT id, api_key, name, rate_limit, enabled FROM api_keys ORDER BY id",
        IsPlain b) ∧
      ∀ b ∈ utf8 "UPDATE api_keys SET enabled = 0 WHERE id = ", IsPlain b := by
  decide +kernel

/-- Two marks enclose the key of a lookup. -/
theorem sql_selectKey (apiKey : Bytes) : (Statement.selectKey apiKey).sql
    = selectKeyText ++ 39 :: (apiKey ++ 39 :: utf8 " LIMIT 1") := by
  obtain ⟨hopening, hclosing, hlimit, -⟩ := marks_split
  rw [Statement.sql, hopening, hclosing, hlimit, List.append_assoc, List.append_assoc,
    List.singleton_append]

/-- Marks enclose each of the two texts of a creation. -/
theorem sql_insert (apiKey name : Bytes) (rateLimit : ℤ) :
    (Statement.insert apiKey name rateLimit).sql
      = insertText ++ 39 :: (apiKey ++ 39 :: (utf8 ", " ++ 39 :: (name ++
        39 :: limitText rateLimit))) := by
  obtain ⟨-, -, -, hopening, hbetween, hbehind, hcomma⟩ := marks_split
  rw [Statement.sql, limitText, hopening, hbetween, hbehind, hcomma]
  simp only [List.append_assoc, List.cons_append, List.nil_append]

/-- What stands behind the name of a creation is plain. -/
theorem isPlain_of_mem_limitText (rateLimit : ℤ) : ∀ b ∈ limitText rateLimit, IsPlain b := by
  obtain ⟨-, -, hcomma, -, hbehind, -⟩ := texts_plain
  intro b hb
  rcases List.mem_append.mp hb with hb | hb
  · rcases List.mem_append.mp hb with hb | hb
    · exact (hcomma.1 b hb).1
    · exact isPlain_of_mem_toString hb
  · exact hbehind b hb

/-- The text of a disabling is plain. -/
theorem isPlain_of_mem_disable (id : ℤ) : ∀ b ∈ (Statement.disable id).sql, IsPlain b := by
  obtain ⟨-, -, -, -, -, -, hfixed⟩ := texts_plain
  intro b hb
  rcases List.mem_append.mp hb with hb | hb
  · exact hfixed b hb
  · exact isPlain_of_mem_toString hb

/-- The key of a lookup is one token. -/
theorem tokens_selectKey (key : Bytes) :
    lexer.tokens (Statement.selectKey (be.escape key)).sql
      = some (lexer.fixed selectKeyText ++ lexer.literal key :: lexer.fixed (utf8 " LIMIT 1")) := by
  obtain ⟨hopening, -, -, hplain, -⟩ := texts_plain
  obtain ⟨-, -, hlimit, -⟩ := marks_split
  have hrest := lexer.tokens_of_plain hplain
  rw [sql_selectKey]
  rw [hlimit] at hrest ⊢
  exact lexer.tokens_spliced hopening (by decide) hrest key

/-- The key and the name of a creation are one token each. -/
theorem tokens_insert (apiKey name : Bytes) (rateLimit : ℤ) :
    lexer.tokens (Statement.insert (be.escape apiKey) (be.escape name) rateLimit).sql
      = some (lexer.fixed insertText ++ lexer.literal apiKey ::
        (lexer.fixed (utf8 ", ") ++ lexer.literal name :: lexer.fixed (limitText rateLimit))) := by
  obtain ⟨-, hopening, hbetween, -⟩ := texts_plain
  obtain ⟨-, -, -, -, -, -, hcomma⟩ := marks_split
  have hlimit := lexer.tokens_of_plain (isPlain_of_mem_limitText rateLimit)
  rw [limitText, hcomma, List.cons_append, List.cons_append] at hlimit
  -- the name is read first, with what stands behind it, and then the key
  have hname := lexer.tokens_spliced hbetween (by decide) hlimit name
  rw [hcomma, List.cons_append] at hname
  rw [sql_insert, limitText, hcomma, List.cons_append, List.cons_append, List.cons_append,
    lexer.tokens_spliced hopening (by decide) hname]

/-- The number of a deletion is read with the text before it. -/
theorem tokens_disable (id : ℤ) : lexer.tokens (Statement.disable id).sql = some (lexer.fixed
    (utf8 "UPDATE api_keys SET enabled = 0 WHERE id = " ++ utf8 (toString id))) :=
  lexer.tokens_of_plain (isPlain_of_mem_disable id)

/-! ## What is sent -/

/-- A plain text has no zero byte. -/
theorem zero_notMem_of_plain {s : Bytes} (hs : ∀ b ∈ s, IsPlain b) : (0 : UInt8) ∉ s :=
  fun hzero => absurd (hs 0 hzero) (by decide)

variable {op : Operation} {stmt : Statement}

/-- The text of a statement goes out whole. -/
theorem cstr_sql (h : KeyStore.Sends be op stmt) : cstr stmt.sql = stmt.sql := by
  obtain ⟨hselect, hinsert, hcomma, hlimit, -, hlist, -⟩ := texts_plain
  have hzero {s : Bytes} (hs : Opens s) : (0 : UInt8) ∉ s :=
    zero_notMem_of_plain fun b hb => (hs.1 b hb).1
  apply cstr_eq_self
  cases op with
  | findApiKey key =>
    obtain rfl := h
    simp [sql_selectKey, hzero hselect, be.zero_notMem_escape, zero_notMem_of_plain hlimit]
  | createApiKey dis name rateLimit =>
    obtain ⟨seed, rfl⟩ := h
    simp [sql_insert, hzero hinsert, hzero hcomma, be.zero_notMem_escape,
      zero_notMem_of_plain (isPlain_of_mem_limitText rateLimit)]
  | listApiKeys =>
    obtain rfl := h
    exact zero_notMem_of_plain hlist
  | disableApiKey id =>
    obtain rfl := h
    exact zero_notMem_of_plain (isPlain_of_mem_disable id)

/-- The statement of an operation says what it is meant to say. -/
theorem intends_of_sends (h : KeyStore.Sends be op stmt) :
    ∃ ts, lexer.tokens stmt.sql = some ts ∧ Intends lexer op ts := by
  cases op with
  | findApiKey key =>
    obtain rfl := h
    exact ⟨_, tokens_selectKey lexer key, rfl⟩
  | createApiKey dis name rateLimit =>
    obtain ⟨seed, rfl⟩ := h
    exact ⟨_, tokens_insert lexer _ name rateLimit, seed, rfl⟩
  | listApiKeys =>
    obtain rfl := h
    exact ⟨_, lexer.tokens_of_plain texts_plain.2.2.2.2.2.1, rfl⟩
  | disableApiKey id =>
    obtain rfl := h
    exact ⟨_, tokens_disable lexer id, rfl⟩

/-- **No value becomes a part of a statement.** For every escaping and every way to take texts apart
that keep to what is documented, and for every operation, with any key, name and numbers, in every
state of pool and table, whatever calls of the database fail: each statement that is sent is read as
the tokens of the source with the given values as literals between them. -/
theorem statements_as_intended (op : Operation) (db : Db) (conn : Option ℕ) (stmt : Statement)
    (h : .query conn stmt ∈ Script.trace (Mysql.server be) op.program db) :
    ∃ ts, lexer.tokens (cstr stmt.sql) = some ts ∧ Intends lexer op ts := by
  obtain ⟨sent, -, hsends⟩ := (obeys_single be op).allowed_of_mem_trace (I := fun _ _ => True)
    (fun {sent _ _ _ _} _ _ hanswer => ⟨expected_server sent hanswer, trivial⟩) trivial h
  rw [cstr_sql hsends]
  exact intends_of_sends lexer hsends

end

/-- Byte by byte, an escaped byte stays inside its literal. -/
theorem scan_escapeByte (b : UInt8) (value : Bytes) :
    Bytewise.scan Mysql.Ascii.unescapeCode (.literal 39 value) (Mysql.Ascii.escapeByte b)
      = ([], .literal 39 (value ++ [b])) := by
  cases h : Mysql.Ascii.escapeCode b with
  | some c =>
    rw [Mysql.Ascii.escapeByte, h, ← (Mysql.Ascii.escapeCode_eq_some h).1]
    rfl
  | none =>
    have hquote : b ≠ 39 := by
      rintro rfl
      exact absurd h (by decide)
    rw [Mysql.Ascii.escapeByte, h, Option.elim, Bytewise.scan, Bytewise.step,
      if_neg (Mysql.Ascii.escapeCode_eq_none h).2, if_neg hquote, Bytewise.scan]
    rfl

/-- A server that reads texts in ASCII. -/
def asciiLexer : Lexer KeyStore.bytewise.escape :=
  Bytewise.lexer Mysql.Ascii.unescapeCode Mysql.Ascii.escapeByte scan_escapeByte

/-- A key that is meant to end the literal. -/
theorem statements_as_intended_quote :
    let op := findApiKey (utf8 "' OR '1'='1")
    let stmt := Statement.selectKey (KeyStore.bytewise.escape (utf8 "' OR '1'='1"))
    ∃ ts, asciiLexer.tokens (cstr stmt.sql) = some ts ∧ Intends asciiLexer op ts :=
  statements_as_intended asciiLexer (findApiKey (utf8 "' OR '1'='1"))
    { table := KeyStore.firstKey, idle := [some 0] } (some 0) _ (by decide +kernel)

end Operation

end AiSwitch
