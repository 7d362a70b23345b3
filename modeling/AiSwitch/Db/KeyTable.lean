import AiSwitch.Db.Operations

/-!
# The life of a key

Each operation of the repository sends one statement, so what the operations of several clients do
to the table is told by the order of their statements. A history is the list of the calls in that
order, each with the table that its statement met and left.

A key is found from its creation to the first call that disables it, disabling changes nothing else,
and the list has every row once. `lifeCycle_of_right` derives this from what the single statements
do, for a table without zero bytes: the fields of a row are read as C strings.
-/

namespace AiSwitch

open ByteString Effect
open Mysql (Backend Db Row UniqueKeys)
open Repository (rowInfo rowResult)

/-- A call whose statement has been executed, with the table before and after the statement, and
with the result if the call has returned. -/
structure Entry where
  op : Operation
  before : List Row
  after : List Row
  result : Option Operation.Result := none

/-- What no operation changes of a row: its id, key, name and limit. -/
def Mysql.Row.identity (row : Row) : ℤ × Bytes × Bytes × ℤ :=
  (row.id, row.apiKey, row.name, row.rateLimit)

/-- What no operation changes of a record: its id, key, name and limit. -/
def ApiKeyInfo.identity (info : ApiKeyInfo) : ℤ × Bytes × Bytes × ℤ :=
  (info.id, info.apiKey, info.name, info.rateLimit)

/-- The text has no zero byte, so that it is read back whole as a C string. -/
def ZeroFree (s : Bytes) : Prop := 0 ∉ s

instance : DecidablePred ZeroFree := fun _ => inferInstanceAs (Decidable (¬ _))

/-- A table as `bootstrap.sql` creates it, with texts that have no zero byte and keys that fit the
buffer. -/
structure KeyTable (be : Backend) (table : List Row) : Prop where
  ids : table.Pairwise fun r s => r.id ≠ s.id
  keys : UniqueKeys be table
  key_zeroFree : ∀ r ∈ table, ZeroFree r.apiKey
  name_zeroFree : ∀ r ∈ table, ZeroFree r.name
  key_fits : ∀ r ∈ table, be.Fits r.apiKey

/-- A row that is added comes after the others, and its key is not among theirs. -/
structure Mysql.Row.IsNew (be : Backend) (table : List Row) (row : Row) : Prop where
  id_lt : ∀ r ∈ table, r.id < row.id
  key_new : ∀ r ∈ table, be.collates r.apiKey row.apiKey = false
  enabled_eq : row.enabled = 1
  key_zeroFree : ZeroFree row.apiKey
  key_fits : be.Fits row.apiKey

/-- What `UPDATE api_keys SET enabled = 0 WHERE id = …` does to a row. -/
def disableRow (id : ℤ) (row : Row) : Row := if row.id = id then { row with enabled := 0 } else row

namespace Entry

variable (be : Backend) (e : Entry)

/-- The rows that a creation has added. -/
def created : List Row :=
  match e.op with
  | .createApiKey _ _ _ => e.after.drop e.before.length
  | .findApiKey _ | .listApiKeys | .disableApiKey _ => []

/-- What the statement of a call does to the table. -/
def Effect : Prop :=
  match e.op with
  | .findApiKey _ | .listApiKeys => e.after = e.before
  | .createApiKey _ name rateLimit => ∃ row : Row, e.after = e.before ++ [row] ∧
      row.name = name ∧ row.rateLimit = rateLimit ∧ row.IsNew be e.before
  | .disableApiKey id => e.after = e.before.map (disableRow id)

/-- What the call returns. -/
def Answer (result : Operation.Result) : Prop :=
  match e.op with
  | .findApiKey key =>
    result = .found (rowResult (e.before.find? fun row => be.collates row.apiKey key))
  | .createApiKey _ _ _ => ∃ row : Row, e.after = e.before ++ [row] ∧
      result = .created ⟨row.id, row.apiKey, row.name, row.rateLimit, true⟩
  | .listApiKeys => result = .listed ((e.before.insertionSort (·.id ≤ ·.id)).map rowInfo)
  | .disableApiKey id =>
    result = .disabled (decide (0 < e.before.countP fun r => r.id = id ∧ r.enabled ≠ 0))

/-- The statement and the result of the call are as they should be. -/
structure Right : Prop where
  effect : e.Effect be
  answer : ∀ result, e.result = some result → e.Answer be result

/-- A created name has no zero byte. -/
def NameZeroFree : Prop :=
  ∀ dis name rateLimit, e.op = .createApiKey dis name rateLimit → ZeroFree name

end Entry

/-- The calls follow each other on the table. -/
def Chained : List Row → List Entry → List Row → Prop
  | table, [], table' => table' = table
  | table, e :: history, table' => e.before = table ∧ Chained e.after history table'

/-- Where the table is this, `find_api_key` with a connection and a database that answers accepts
the key. -/
def Accepts (be : Backend) (table : List Row) (key : Bytes) : Prop :=
  ∀ db : Db, db.table = table → db.connection ≠ none → ∃ r db',
    (Repository.findApiKey key).run { be with fault := fun _ => none } db = (.ok r, db') ∧
      r.found = true

/-- **The life cycle of keys** in a history that starts from a table. -/
structure LifeCycle (be : Backend) (table : List Row) (history : List Entry)
    (table' : List Row) : Prop where
  chained : Chained table history table'
  /-- A lookup and the list change nothing. -/
  reads : ∀ e ∈ history, ((∃ key, e.op = .findApiKey key) ∨ e.op = .listApiKeys) →
    e.after = e.before
  /-- A creation adds the row of which it hands out the record. -/
  creates : ∀ e ∈ history, ∀ dis name rateLimit, e.op = .createApiKey dis name rateLimit →
    ∃ row : Row, e.after = e.before ++ [row] ∧ row.name = name ∧ row.rateLimit = rateLimit ∧
      ∀ info, e.result = some (.created info) → info.identity = row.identity
  /-- Disabling changes nothing but the field `enabled` of the row with the id. -/
  disables : ∀ e ∈ history, ∀ id, e.op = .disableApiKey id →
    List.Forall₂ (fun r r' : Row => r' = r ∨ r.id = id ∧ r' = { r with enabled := r'.enabled })
      e.before e.after
  /-- A created key is found, with the record of its creation, until it is disabled, and not found
  afterwards. -/
  found : ∀ (h₁ : List Entry) (e : Entry) (h₂ : List Entry) (e' : Entry) (h₃ : List Entry)
    dis name rateLimit info r, history = h₁ ++ e :: (h₂ ++ e' :: h₃) →
    e.op = .createApiKey dis name rateLimit → e.result = some (.created info) →
    e'.op = .findApiKey info.apiKey → e'.result = some (.found r) →
    ((∀ d ∈ h₂, d.op ≠ .disableApiKey info.id) → r.found = true ∧ r.info = info) ∧
      ((∃ d ∈ h₂, d.op = .disableApiKey info.id) → r.found = false)
  /-- The list has each row of the table and each that was created so far once, in the order of the
  ids, and tells which of the keys are accepted. -/
  listed : ∀ (h₁ : List Entry) (e : Entry) (h₂ : List Entry) infos, history = h₁ ++ e :: h₂ →
    e.op = .listApiKeys →
    e.result = some (.listed infos) →
    infos.Pairwise (·.id < ·.id) ∧
      (infos.map ApiKeyInfo.identity).Perm
        ((table ++ h₁.flatMap Entry.created).map Row.identity) ∧
      ∀ info ∈ infos, info.enabled = true ↔ Accepts be e.before info.apiKey

/-! ## One statement -/

section

variable {be : Backend} {table table' : List Row} {row : Row} {e : Entry} {history : List Entry}

section

variable (id : ℤ) (row : Row)

/-- Disabling leaves a row's id as it is. -/
@[simp] theorem disableRow_id : (disableRow id row).id = row.id := by
  rw [disableRow]
  split <;> rfl

/-- Disabling leaves a row's key as it is. -/
@[simp] theorem disableRow_apiKey : (disableRow id row).apiKey = row.apiKey := by
  rw [disableRow]
  split <;> rfl

/-- Disabling leaves a row's name as it is. -/
@[simp] theorem disableRow_name : (disableRow id row).name = row.name := by
  rw [disableRow]
  split <;> rfl

/-- Nothing but `enabled` changes. -/
@[simp] theorem identity_disableRow : (disableRow id row).identity = row.identity := by
  rw [disableRow]
  split <;> rfl

/-- A search for a key finds the row that it found before the disabling. -/
theorem find?_map_disableRow (p : Bytes → Bool) (table : List Row) :
    ((table.map (disableRow id)).find? fun r => p r.apiKey)
      = (table.find? fun r => p r.apiKey).map (disableRow id) := by
  have hsame : ((fun r : Row => p r.apiKey) ∘ disableRow id) = fun r => p r.apiKey := by
    funext r
    exact congrArg p (disableRow_apiKey id r)
  rw [List.find?_map, hsame]

end

/-- A row without zero bytes in its texts is read as it stands. -/
theorem rowInfo_of_zeroFree (hkey : ZeroFree row.apiKey) (hname : ZeroFree row.name) :
    rowInfo row = ⟨row.id, row.apiKey, row.name, row.rateLimit, row.enabled == 1⟩ := by
  rw [rowInfo, cstr_eq_self hkey, cstr_eq_self hname]

/-- A new row keeps the table as it should be. -/
theorem KeyTable.append (h : KeyTable be table) (hnew : row.IsNew be table)
    (hname : ZeroFree row.name) : KeyTable be (table ++ [row]) where
  ids := by
    refine List.pairwise_append.mpr ⟨h.ids, List.pairwise_singleton _ _, fun r hr s hs => ?_⟩
    rw [List.mem_singleton.mp hs]
    exact (hnew.id_lt r hr).ne
  keys := h.keys.append hnew.key_new
  key_zeroFree := by simpa [or_imp, forall_and] using ⟨h.key_zeroFree, hnew.key_zeroFree⟩
  name_zeroFree := by simpa [or_imp, forall_and] using ⟨h.name_zeroFree, hname⟩
  key_fits := by simpa [or_imp, forall_and] using ⟨h.key_fits, hnew.key_fits⟩

/-- A change of the field `enabled` keeps the table as it should be. -/
theorem KeyTable.disable (h : KeyTable be table) (id : ℤ) :
    KeyTable be (table.map (disableRow id)) where
  ids := by simpa [List.pairwise_map] using h.ids
  keys := by simpa [UniqueKeys, List.pairwise_map] using h.keys
  key_zeroFree := by simpa using h.key_zeroFree
  name_zeroFree := by simpa using h.name_zeroFree
  key_fits := by simpa using h.key_fits

/-- One operation keeps the table a key table. -/
theorem KeyTable.effect (h : KeyTable be e.before) (heffect : e.Effect be)
    (hname : e.NameZeroFree) : KeyTable be e.after := by
  unfold Entry.Effect at heffect
  split at heffect
  · exact heffect ▸ h
  · exact heffect ▸ h
  · rename_i dis name rateLimit hop
    obtain ⟨row, hafter, rfl, -, hnew⟩ := heffect
    exact hafter ▸ h.append hnew (hname dis _ rateLimit hop)
  · exact heffect ▸ h.disable _

/-- The identities after a statement are those before it and that of the row it creates. -/
theorem identity_effect (heffect : e.Effect be) :
    e.after.map Row.identity = (e.before ++ e.created).map Row.identity := by
  unfold Entry.Effect at heffect
  unfold Entry.created
  split at heffect
  · rename_i hop
    simp [hop, heffect]
  · rename_i hop
    simp [hop, heffect]
  · rename_i hop
    obtain ⟨row, hafter, -⟩ := heffect
    simp [hop, hafter]
  · rename_i hop
    simp [hop, heffect]

/-- A row that the statement does not disable stays as it is. -/
theorem mem_after (heffect : e.Effect be) (hrow : row ∈ e.before)
    (hop : e.op ≠ .disableApiKey row.id) : row ∈ e.after := by
  unfold Entry.Effect at heffect
  split at heffect
  · exact heffect ▸ hrow
  · exact heffect ▸ hrow
  · obtain ⟨new, hafter, -⟩ := heffect
    exact hafter ▸ List.mem_append_left _ hrow
  · rename_i id hid
    rw [heffect]
    refine List.mem_map.mpr ⟨row, hrow, if_neg fun heq => hop ?_⟩
    rw [hid, heq]

/-- A row that is or gets disabled is so afterwards. -/
theorem mem_after_disabled (heffect : e.Effect be) (hrow : row ∈ e.before)
    (h : row.enabled = 0 ∨ e.op = .disableApiKey row.id) : { row with enabled := 0 } ∈ e.after := by
  by_cases hop : e.op = .disableApiKey row.id
  · have hafter : e.after = e.before.map (disableRow row.id) := by
      unfold Entry.Effect at heffect
      rw [hop] at heffect
      exact heffect
    rw [hafter]
    exact List.mem_map.mpr ⟨row, hrow, if_pos rfl⟩
  · have hzero : row.enabled = 0 := h.resolve_right hop
    have hsame : { row with enabled := 0 } = row := by rw [← hzero]
    rw [hsame]
    exact mem_after heffect hrow hop

/-- A creation adds one enabled row, and a record that it returns is the one of this row. -/
theorem exists_row_of_createApiKey {dis : UInt32 → ℕ → Fin 16} {name : Bytes} {rateLimit : ℤ}
    (hright : e.Right be) (hop : e.op = .createApiKey dis name rateLimit) :
    ∃ row : Row, e.after = e.before ++ [row] ∧ row.name = name ∧ row.rateLimit = rateLimit ∧
      row.enabled = 1 ∧ ∀ info, e.result = some (.created info) →
        info = ⟨row.id, row.apiKey, row.name, row.rateLimit, true⟩ := by
  have heffect := hright.effect
  rw [Entry.Effect, hop] at heffect
  obtain ⟨row, hafter, hrowName, hrowLimit, hnew⟩ := heffect
  refine ⟨row, hafter, hrowName, hrowLimit, hnew.enabled_eq, fun info hinfo => ?_⟩
  have hanswer := hright.answer _ hinfo
  rw [Entry.Answer, hop] at hanswer
  obtain ⟨row', hafter', hrecord⟩ := hanswer
  rw [hafter] at hafter'
  obtain rfl : row = row' := by simpa using hafter'
  exact Operation.Result.created.inj hrecord

/-- A lookup that returns decodes the row of the key. -/
theorem eq_rowResult_of_found {key : Bytes} {r : ApiKeyResult} (hright : e.Right be)
    (hop : e.op = .findApiKey key) (hr : e.result = some (.found r)) :
    r = rowResult (e.before.find? fun row => be.collates row.apiKey key) := by
  have hanswer := hright.answer _ hr
  rw [Entry.Answer, hop] at hanswer
  exact Operation.Result.found.inj hanswer

/-! ## Histories -/

/-- A history of two parts passes through the table between them. -/
theorem chained_append {h₁ h₂ : List Entry} :
    Chained table (h₁ ++ h₂) table' ↔
      ∃ middle, Chained table h₁ middle ∧ Chained middle h₂ table' := by
  induction h₁ generalizing table with
  | nil => simp [Chained]
  | cons e h₁ ih =>
    rw [List.cons_append, Chained, ih]
    constructor
    · rintro ⟨hbefore, middle, hfirst, hrest⟩
      exact ⟨middle, ⟨hbefore, hfirst⟩, hrest⟩
    · rintro ⟨middle, ⟨hbefore, hfirst⟩, hrest⟩
      exact ⟨hbefore, middle, hfirst, hrest⟩

/-- A whole history of operations keeps it one. -/
theorem KeyTable.chained (h : KeyTable be table) (hchain : Chained table history table')
    (heffect : ∀ e ∈ history, e.Effect be) (hname : ∀ e ∈ history, e.NameZeroFree) :
    KeyTable be table' := by
  induction history generalizing table with
  | nil => exact hchain ▸ h
  | cons e history ih =>
    obtain ⟨rfl, hrest⟩ := hchain
    rw [List.forall_mem_cons] at heffect hname
    exact ih (h.effect heffect.1 hname.1) hrest heffect.2 hname.2

/-- A history leaves what was there, and what it has created. -/
theorem identity_chained (hchain : Chained table history table')
    (heffect : ∀ e ∈ history, e.Effect be) :
    table'.map Row.identity = (table ++ history.flatMap Entry.created).map Row.identity := by
  induction history generalizing table with
  | nil => simpa using congrArg _ hchain
  | cons e history ih =>
    obtain ⟨rfl, hrest⟩ := hchain
    rw [List.forall_mem_cons] at heffect
    rw [ih hrest heffect.2, List.map_append, identity_effect heffect.1, List.flatMap_cons,
      ← List.map_append, List.append_assoc]

/-- A row stays as it is as long as it is not disabled. -/
theorem mem_chained (hrow : row ∈ table) (hchain : Chained table history table')
    (heffect : ∀ e ∈ history, e.Effect be) (hop : ∀ e ∈ history, e.op ≠ .disableApiKey row.id) :
    row ∈ table' := by
  induction history generalizing table with
  | nil => exact hchain ▸ hrow
  | cons e history ih =>
    obtain ⟨rfl, hrest⟩ := hchain
    rw [List.forall_mem_cons] at heffect hop
    exact ih (mem_after heffect.1 hrow hop.1) hrest heffect.2 hop.2

/-- A row that is disabled stays disabled. -/
theorem mem_chained_disabled (hrow : row ∈ table) (hchain : Chained table history table')
    (heffect : ∀ e ∈ history, e.Effect be)
    (h : row.enabled = 0 ∨ ∃ e ∈ history, e.op = .disableApiKey row.id) :
    { row with enabled := 0 } ∈ table' := by
  induction history generalizing table row with
  | nil =>
    have hzero : row.enabled = 0 := by simpa using h
    have hsame : { row with enabled := 0 } = row := by rw [← hzero]
    exact hchain ▸ hsame ▸ hrow
  | cons e history ih =>
    obtain ⟨rfl, hrest⟩ := hchain
    rw [List.forall_mem_cons] at heffect
    by_cases hnow : row.enabled = 0 ∨ e.op = .disableApiKey row.id
    · have hdisabled := @ih e.after { row with enabled := 0 }
        (mem_after_disabled heffect.1 hrow hnow) hrest heffect.2 (.inl rfl)
      exact hdisabled
    · rw [not_or] at hnow
      have hlater : ∃ e ∈ history, e.op = .disableApiKey row.id := by
        simpa [hnow.1, hnow.2] using h
      exact ih (mem_after heffect.1 hrow hnow.2) hrest heffect.2 (.inr hlater)

/-! ## The life cycle -/

variable (hcoll : be.IsCollation)

include hcoll

/-- A lookup of the key of a row decodes that row. -/
theorem KeyTable.find?_eq_some (h : KeyTable be table) (hrow : row ∈ table) :
    (table.find? fun r => be.collates r.apiKey row.apiKey) = some row :=
  h.keys.find?_eq_some hcoll hrow (hcoll.refl _)

/-- The key of a row is accepted exactly if the row is enabled. -/
theorem accepts_iff (hkeys : UniqueKeys be table) (hrow : row ∈ table)
    (hfits : be.Fits row.apiKey) :
    Accepts be table row.apiKey ↔ row.enabled = 1 := by
  have hrun : ∀ db : Db, db.table = table → db.connection ≠ none → ∃ db',
      (Repository.findApiKey row.apiKey).run { be with fault := fun _ => none } db
        = (.ok (rowResult (some row)), db') := by
    intro db hdb hconn
    obtain ⟨db', hfind⟩ := Repository.run_findApiKey { be with fault := fun _ => none } db
      (.inr hfits)
    rw [Repository.findResult, if_pos ⟨hconn, rfl, rfl⟩, hdb,
      hkeys.find?_eq_some hcoll hrow (hcoll.refl _)] at hfind
    exact ⟨db', hfind⟩
  have hfound : (rowResult (some row)).found = true ↔ row.enabled = 1 := by
    rw [rowResult]
    by_cases henabled : row.enabled = 1 <;> simp [rowInfo, henabled]
  constructor
  · intro haccepts
    -- a database with this table and a connection
    let db : Db := { table := table, idle := [some 0] }
    have hconn : db.connection ≠ none := by simp [db, Db.connection]
    obtain ⟨r, db', hr, htrue⟩ := haccepts db rfl hconn
    obtain ⟨db'', hrow'⟩ := hrun db rfl hconn
    rw [hr] at hrow'
    cases hrow'
    exact hfound.mp htrue
  · intro henabled db hdb hconn
    obtain ⟨db', hdb'⟩ := hrun db hdb hconn
    exact ⟨_, db', hdb', hfound.mpr henabled⟩

variable (hT : KeyTable be table) (hchain : Chained table history table')
  (hright : ∀ e ∈ history, e.Right be) (hname : ∀ e ∈ history, e.NameZeroFree)

include hT hchain hright hname

/-- The lookup of a created key meets the row that was created. -/
theorem found_of_right {h₁ h₂ h₃ : List Entry} {e e' : Entry} {dis : UInt32 → ℕ → Fin 16}
    {name : Bytes} {rateLimit : ℤ} {info : ApiKeyInfo} {r : ApiKeyResult}
    (hsplit : history = h₁ ++ e :: (h₂ ++ e' :: h₃)) (hop : e.op = .createApiKey dis name rateLimit)
    (hinfo : e.result = some (.created info)) (hop' : e'.op = .findApiKey info.apiKey)
    (hr : e'.result = some (.found r)) :
    ((∀ d ∈ h₂, d.op ≠ .disableApiKey info.id) → r.found = true ∧ r.info = info) ∧
      ((∃ d ∈ h₂, d.op = .disableApiKey info.id) → r.found = false) := by
  subst hsplit
  simp only [List.forall_mem_append, List.forall_mem_cons] at hright hname
  obtain ⟨hright₁, hright, hright₂, hright', -⟩ := hright
  obtain ⟨hname₁, hname, hname₂, -⟩ := hname
  obtain ⟨_, hchain₁, rfl, hchain⟩ := chained_append.mp hchain
  obtain ⟨_, hchain₂, rfl, -⟩ := chained_append.mp hchain
  have hT₁ := hT.chained hchain₁ (fun d hd => (hright₁ d hd).effect) hname₁
  have hT₂ := hT₁.effect hright.effect hname
  have hT' := hT₂.chained hchain₂ (fun d hd => (hright₂ d hd).effect) hname₂
  -- the row that was created is the one of the record
  obtain ⟨row, hafter, -, -, henabled, hrecord⟩ := exists_row_of_createApiKey hright hop
  obtain rfl := hrecord info hinfo
  have hrow : row ∈ e.after := by simp [hafter]
  have hlookup := eq_rowResult_of_found hright' hop' hr
  have heffect₂ : ∀ d ∈ h₂, d.Effect be := fun d hd => (hright₂ d hd).effect
  constructor
  · intro hnever
    have hrow' := mem_chained hrow hchain₂ heffect₂ hnever
    rw [hT'.find?_eq_some hcoll hrow', rowResult,
      rowInfo_of_zeroFree (hT'.key_zeroFree row hrow') (hT'.name_zeroFree row hrow'), henabled]
      at hlookup
    rw [hlookup]
    exact ⟨rfl, rfl⟩
  · intro hdisabled
    have hrow' := mem_chained_disabled hrow hchain₂ heffect₂ (.inr hdisabled)
    have hfind := hT'.find?_eq_some hcoll hrow'
    rw [show ({ row with enabled := 0 } : Row).apiKey = row.apiKey from rfl] at hfind
    rw [hlookup, hfind]
    rfl

/-- The list has every row once. -/
theorem listed_of_right {h₁ h₂ : List Entry} {e : Entry} {infos : List ApiKeyInfo}
    (hsplit : history = h₁ ++ e :: h₂) (hop : e.op = .listApiKeys)
    (hinfos : e.result = some (.listed infos)) :
    infos.Pairwise (·.id < ·.id) ∧
      (infos.map ApiKeyInfo.identity).Perm
        ((table ++ h₁.flatMap Entry.created).map Row.identity) ∧
      ∀ info ∈ infos, info.enabled = true ↔ Accepts be e.before info.apiKey := by
  subst hsplit
  simp only [List.forall_mem_append, List.forall_mem_cons] at hright hname
  obtain ⟨_, hchain₁, rfl, -⟩ := chained_append.mp hchain
  have heffect₁ : ∀ d ∈ h₁, d.Effect be := fun d hd => (hright.1 d hd).effect
  have hT₁ := hT.chained hchain₁ heffect₁ hname.1
  have hanswer := hright.2.1.answer _ hinfos
  rw [Entry.Answer, hop] at hanswer
  obtain rfl := Operation.Result.listed.inj hanswer
  have hperm := List.perm_insertionSort (fun r s : Row => r.id ≤ s.id) e.before
  have hinfo : ∀ row ∈ e.before,
      rowInfo row = ⟨row.id, row.apiKey, row.name, row.rateLimit, row.enabled == 1⟩ :=
    fun row hrow => rowInfo_of_zeroFree (hT₁.key_zeroFree row hrow) (hT₁.name_zeroFree row hrow)
  refine ⟨?_, ?_, ?_⟩
  · have hsorted := List.pairwise_insertionSort (fun r s : Row => r.id ≤ s.id) e.before
    have hids :=
      (hperm.pairwise_iff (R := fun r s : Row => r.id ≠ s.id) fun h => h.symm).mpr hT₁.ids
    rw [List.pairwise_map]
    exact (hsorted.and hids).imp fun h => lt_of_le_of_ne h.1 h.2
  · rw [← identity_chained hchain₁ heffect₁, List.map_map]
    have hmap : e.before.map (ApiKeyInfo.identity ∘ rowInfo) = e.before.map Row.identity := by
      apply List.map_congr_left
      intro row hrow
      rw [Function.comp_apply, hinfo row hrow]
      rfl
    exact hmap ▸ hperm.map _
  · intro info hmem
    obtain ⟨row, hrow, rfl⟩ := List.mem_map.mp hmem
    have hrow' := hperm.mem_iff.mp hrow
    rw [hinfo row hrow', accepts_iff hcoll hT₁.keys hrow' (hT₁.key_fits row hrow')]
    exact beq_iff_eq

/-- **From the statements to the life cycle.** If each statement and each result is as it should be,
the history is. -/
theorem lifeCycle_of_right : LifeCycle be table history table' where
  chained := hchain
  reads e he hop := by
    have heffect := (hright e he).effect
    rcases hop with ⟨key, hop⟩ | hop <;> rw [Entry.Effect, hop] at heffect <;> exact heffect
  creates e he dis name rateLimit hop := by
    obtain ⟨row, hafter, hrowName, hrowLimit, -, hrecord⟩ :=
      exists_row_of_createApiKey (hright e he) hop
    refine ⟨row, hafter, hrowName, hrowLimit, fun info hinfo => ?_⟩
    rw [hrecord info hinfo]
    rfl
  disables e he id hop := by
    have heffect := (hright e he).effect
    rw [Entry.Effect, hop] at heffect
    rw [heffect, List.forall₂_map_right_iff, List.forall₂_same]
    intro row _
    rw [disableRow]
    split
    · exact .inr ⟨by assumption, rfl⟩
    · exact .inl rfl
  found h₁ e h₂ e' h₃ dis name rateLimit info r hsplit hop hinfo hop' hr :=
    found_of_right hcoll hT hchain hright hname hsplit hop hinfo hop' hr
  listed h₁ e h₂ infos hsplit hop hinfos :=
    listed_of_right hcoll hT hchain hright hname hsplit hop hinfos

end

end AiSwitch
