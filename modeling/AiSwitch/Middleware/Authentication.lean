import AiSwitch.Middleware.Chain

/-!
# What `auth_middleware` accepts

A key is looked up with `=`, that is under the collation of the column, which takes texts for equal
that differ in case or in trailing spaces. The row that is found is not compared with the token
again. `exactAuth_iff` says that this is the only way in which the middleware decides otherwise than
by the bytes of the token.
-/

namespace AiSwitch

open ByteString Effect Nlohmann Http Mysql

namespace Middleware

/-- What becomes of a request: it passes under the id of a key, or is answered with 503 or 401. -/
inductive Verdict where
  | pass (apiKeyId : ℤ)
  | unavailable
  | unauthorized

/-- The context says so. -/
def Verdict.In (ctx : Context) : Verdict → Prop
  | pass id => ctx.terminated = false ∧ ctx.apiKeyId = id
  | unavailable => ctx.terminated = true ∧ ctx.response.map (·.status) = some .serviceUnavailable
  | unauthorized => ctx.terminated = true ∧ ctx.response.map (·.status) = some .unauthorized

variable (gw : Gateway) (w : World) (req : RequestHeader)

/-- The database answers a lookup. -/
def LookupAnswered : Prop :=
  w.db.connection ≠ none ∧ gw.backend.Answers w.db.calls ∧ gw.backend.Answers (w.db.calls + 1)

instance : Decidable (LookupAnswered gw w) := inferInstanceAs (Decidable (_ ∧ _))

/-- The request carries the token `t`. -/
def Carries (t : Bytes) : Prop := t ≠ [] ∧ req.authorization = some (utf8 "Bearer " ++ t)

/-- An enabled row has the token of the request for its key, byte for byte. -/
def HasKey (row : Row) : Prop := row ∈ w.db.table ∧ row.enabled = 1 ∧ Carries req row.apiKey

/-- What a request deserves: to pass under the id of the row that has its token for a key, 503 if
the database does not answer, and 401 in all other cases. -/
def Verdict.Due : Verdict → Prop
  | pass id => LookupAnswered gw w ∧ ∃ row, HasKey w req row ∧ row.id = id
  | unavailable => ¬ LookupAnswered gw w ∧ ∃ t, Carries req t
  | unauthorized => ¬ (LookupAnswered gw w ∧ ∃ row, HasKey w req row) ∧
      ¬ (¬ LookupAnswered gw w ∧ ∃ t, Carries req t)

/-- `auth_middleware` reaches the verdict on a request. -/
def Reaches (verdict : Verdict) : Prop :=
  ∃ ctx w', auth.process gw (Gateway.freshContext req) w = (.ok ctx, w') ∧ verdict.In ctx

/-- Authentication is exact. -/
def ExactAuth : Prop := ∀ verdict, Reaches gw w req verdict ↔ verdict.Due gw w req

/-- The database takes the token for the key of an enabled row that has another key. -/
def Mistaken : Prop :=
  LookupAnswered gw w ∧ ∃ row ∈ w.db.table, row.enabled = 1 ∧
    ∃ t, Carries req t ∧ gw.backend.collates row.apiKey t = true ∧ row.apiKey ≠ t

variable {gw w req}

/-! ## What is due -/

/-- A request carries the token that its header yields, if that is not empty. -/
theorem carries_iff {t : Bytes} : Carries req t ↔ t ≠ [] ∧ extractBearerToken req = t := by
  constructor
  · rintro ⟨ht, hauth⟩
    have hlen : 0 < t.length := List.length_pos_iff.mpr ht
    refine ⟨ht, ?_⟩
    unfold extractBearerToken
    rw [hauth]
    dsimp only
    rw [← bearer, List.take_left, List.drop_left, if_neg (by simp; omega)]
  · rintro ⟨ht, rfl⟩
    exact ⟨ht, authorization_of_token ht⟩

/-- A request carries one token. -/
theorem Carries.unique {t t' : Bytes} (h : Carries req t) (h' : Carries req t') : t = t' :=
  (carries_iff.mp h).2.symm.trans (carries_iff.mp h').2

section

variable (hcoll : gw.backend.IsCollation) (hkeys : UniqueKeys gw.backend w.db.table)

include hcoll hkeys

/-- Two rows that are equal to one text under the collation are one row. -/
theorem row_eq_of_collates {row row' : Row} {t : Bytes} (hrow : row ∈ w.db.table)
    (hrow' : row' ∈ w.db.table) (h : gw.backend.collates row.apiKey t = true)
    (h' : gw.backend.collates row'.apiKey t = true) : row = row' :=
  Option.some.inj ((hkeys.find?_eq_some hcoll hrow h).symm.trans
    (hkeys.find?_eq_some hcoll hrow' h'))

/-- At most one verdict is due. -/
theorem Verdict.Due.unique {v v' : Verdict} (h : v.Due gw w req) (h' : v'.Due gw w req) :
    v = v' := by
  cases v with
  | pass id =>
    obtain ⟨hans, row, hkey, rfl⟩ := h
    cases v' with
    | pass id' =>
      obtain ⟨-, row', hkey', rfl⟩ := h'
      have hsame : row'.apiKey = row.apiKey := hkey'.2.2.unique hkey.2.2
      rw [row_eq_of_collates hcoll hkeys hkey.1 hkey'.1 (hcoll.refl row.apiKey)
        (hsame ▸ hcoll.refl row'.apiKey)]
    | unavailable => exact absurd hans h'.1
    | unauthorized => exact absurd ⟨hans, row, hkey⟩ h'.1
  | unavailable =>
    cases v' with
    | pass id' => exact absurd h'.1 h.1
    | unavailable => rfl
    | unauthorized => exact absurd h h'.2
  | unauthorized =>
    cases v' with
    | pass id' =>
      obtain ⟨hans, row, hkey, -⟩ := h'
      exact absurd ⟨hans, row, hkey⟩ h.1
    | unavailable => exact absurd h' h.2
    | unauthorized => rfl

end

/-! ## What is decided -/

/-- A context tells at most one verdict. -/
theorem Verdict.In.unique {ctx : Context} {v v' : Verdict} (h : v.In ctx) (h' : v'.In ctx) :
    v = v' := by
  cases v with
  | pass id =>
    cases v' with
    | pass id' => rw [← h.2, ← h'.2]
    | unavailable | unauthorized => exact absurd (h'.1.symm.trans h.1) (by simp)
  | unavailable =>
    cases v' with
    | pass id' => exact absurd (h.1.symm.trans h'.1) (by simp)
    | unavailable => rfl
    | unauthorized => exact absurd (h.2.symm.trans h'.2) (by simp)
  | unauthorized =>
    cases v' with
    | pass id' => exact absurd (h.1.symm.trans h'.1) (by simp)
    | unavailable => exact absurd (h.2.symm.trans h'.2) (by simp)
    | unauthorized => rfl

/-- A request reaches one verdict. -/
theorem Reaches.unique {v v' : Verdict} (h : Reaches gw w req v) (h' : Reaches gw w req v') :
    v = v' := by
  obtain ⟨ctx, w₁, hrun, hv⟩ := h
  obtain ⟨ctx', w₂, hrun', hv'⟩ := h'
  rw [hrun] at hrun'
  cases hrun'
  exact hv.unique hv'

/-- Without a token the request is unauthorized. -/
theorem reaches_of_no_token (hpath : ¬ Whitelisted req.target) (h : ¬ ∃ t, Carries req t) :
    Reaches gw w req .unauthorized := by
  have htoken : extractBearerToken req = [] := by
    by_contra hne
    exact h ⟨_, carries_iff.mpr ⟨hne, rfl⟩⟩
  have hprocess : auth.process gw (Gateway.freshContext req) = (Gateway.freshContext req).rejectWith
      gw .unauthorized "auth_failed" "缺少有效的 Authorization 头, 格式: Bearer <api_key>" :=
    (if_neg hpath).trans (if_pos htoken)
  have hreject := (congrFun hprocess w).trans (Context.rejectWith_apply gw _ _ _ _ w)
  exact ⟨_, w, hreject, rfl, rfl⟩

section

variable (hpath : ¬ Whitelisted req.target) (hdef : AuthDefined gw w req) {t : Bytes}
  (ht : Carries req t)

include hpath hdef ht

/-- A token is judged by the result of its lookup. -/
theorem reaches_of_judge {verdict : Verdict} {result : ApiKeyResult} {ctx : Context}
    (hresult : Repository.findResult gw.backend w.db t = result)
    (hjudge : ∀ w', auth.judge gw (Gateway.freshContext req) result w' = (.ok ctx, w'))
    (hctx : verdict.In ctx) : Reaches gw w req verdict := by
  obtain ⟨hne, rfl⟩ := carries_iff.mp ht
  obtain ⟨db, hdb⟩ := auth_process_of_token gw (Gateway.freshContext req) hpath hdef hne
  have hkey : keyResult gw w req = result := hresult
  rw [hkey.symm] at hjudge
  exact ⟨ctx, _, hdb.trans (hjudge _), hctx⟩

/-- Where the lookup is not answered the service is unavailable. -/
theorem reaches_of_not_answered (h : ¬ LookupAnswered gw w) : Reaches gw w req .unavailable :=
  reaches_of_judge hpath hdef ht (if_neg h) (fun _ => Context.rejectWith_apply gw _ _ _ _ _)
    ⟨rfl, rfl⟩

/-- Where no enabled row is found the request is refused. -/
theorem reaches_of_not_found (hanswered : LookupAnswered gw w)
    (h : ∀ row, (w.db.table.find? fun r => gw.backend.collates r.apiKey t) = some row →
      row.enabled ≠ 1) : Reaches gw w req .unauthorized := by
  have hrow : Repository.rowResult
      (w.db.table.find? fun r => gw.backend.collates r.apiKey t) = {} := by
    cases hfind : w.db.table.find? fun r => gw.backend.collates r.apiKey t with
    | none => rfl
    | some row => exact if_neg (by simpa [Repository.rowInfo] using h row hfind)
  exact reaches_of_judge hpath hdef ht ((if_pos hanswered).trans hrow)
    (fun _ => Context.rejectWith_apply gw _ _ _ _ _) ⟨rfl, rfl⟩

/-- Where one is found the request passes under its id, whatever its key is. -/
theorem reaches_of_found (hanswered : LookupAnswered gw w) {row : Row}
    (h : (w.db.table.find? fun r => gw.backend.collates r.apiKey t) = some row)
    (henabled : row.enabled = 1) : Reaches gw w req (.pass row.id) := by
  have hrow : Repository.rowResult (w.db.table.find? fun r => gw.backend.collates r.apiKey t)
      = { info := Repository.rowInfo row, found := true } := by
    rw [h]
    exact if_pos (by simpa [Repository.rowInfo] using henabled)
  exact reaches_of_judge hpath hdef ht ((if_pos hanswered).trans hrow) (fun _ => rfl) ⟨rfl, rfl⟩

end

/-- The verdict that is reached decides whether authentication is exact. -/
theorem Reaches.exactAuth_iff_due (hcoll : gw.backend.IsCollation)
    (hkeys : UniqueKeys gw.backend w.db.table) {verdict : Verdict}
    (h : Reaches gw w req verdict) : ExactAuth gw w req ↔ verdict.Due gw w req := by
  constructor
  · intro hexact
    exact (hexact verdict).mp h
  · intro hdue v
    constructor
    · intro hv
      exact hv.unique h ▸ hdue
    · intro hv
      exact (hv.unique hcoll hkeys hdue) ▸ h

/-- **When authentication is exact.** For every request to a path that needs a key, with a token, if
any, that fits the buffer, every table, and whatever the database does: the middleware decides by
the bytes of the token, unless the database takes it for another key. -/
theorem exactAuth_iff (gw : Gateway) (w : World) (req : RequestHeader)
    (hpath : ¬ Whitelisted req.target) (hfits : ∀ t, Carries req t → gw.backend.Fits t)
    (hcoll : gw.backend.IsCollation) (hkeys : UniqueKeys gw.backend w.db.table) :
    ExactAuth gw w req ↔ ¬ Mistaken gw w req := by
  by_cases htoken : ∃ t, Carries req t
  swap
  · rw [(reaches_of_no_token hpath htoken).exactAuth_iff_due hcoll hkeys]
    refine iff_of_true ⟨?_, fun hdue => htoken hdue.2⟩ ?_
    · rintro ⟨-, row, -, -, hkey⟩
      exact htoken ⟨_, hkey⟩
    · rintro ⟨-, -, -, -, t, ht, -⟩
      exact htoken ⟨t, ht⟩
  obtain ⟨t, ht⟩ := htoken
  have hdef : AuthDefined gw w req :=
    .inr (.inr (.inr ((carries_iff.mp ht).2 ▸ hfits t ht)))
  by_cases hanswered : LookupAnswered gw w
  swap
  · rw [(reaches_of_not_answered hpath hdef ht hanswered).exactAuth_iff_due hcoll hkeys]
    exact iff_of_true ⟨hanswered, t, ht⟩ fun hmistaken => hanswered hmistaken.1
  -- an enabled row that the database takes for the token is the one it finds
  have hfind : ∀ {row : Row}, row ∈ w.db.table → gw.backend.collates row.apiKey t = true →
      (w.db.table.find? fun r => gw.backend.collates r.apiKey t) = some row :=
    fun hrow hkey => hkeys.find?_eq_some hcoll hrow hkey
  by_cases hfound : ∃ row, row ∈ w.db.table ∧ row.enabled = 1 ∧
      gw.backend.collates row.apiKey t = true
  · obtain ⟨row, hrow, henabled, hkey⟩ := hfound
    rw [(reaches_of_found hpath hdef ht hanswered (hfind hrow hkey) henabled).exactAuth_iff_due
      hcoll hkeys]
    by_cases hsame : row.apiKey = t
    · refine iff_of_true ⟨hanswered, row, ⟨hrow, henabled, hsame ▸ ht⟩, rfl⟩ ?_
      rintro ⟨-, row', hrow', -, t', ht', hkey', hne⟩
      rw [← ht.unique ht'] at hkey' hne
      rw [row_eq_of_collates hcoll hkeys hrow' hrow hkey' hkey] at hne
      exact hne hsame
    · refine iff_of_false ?_ fun hnot => hnot ⟨hanswered, row, hrow, henabled, t, ht, hkey, hsame⟩
      rintro ⟨-, row', ⟨hrow', -, hkey'⟩, -⟩
      have hsame' : row'.apiKey = t := hkey'.unique ht
      rw [row_eq_of_collates hcoll hkeys hrow hrow' hkey (hsame' ▸ hcoll.refl row'.apiKey)] at hsame
      exact hsame hsame'
  · have hrefused := reaches_of_not_found hpath hdef ht hanswered fun row hrow henabled =>
      hfound ⟨row, List.mem_of_find?_eq_some hrow, henabled, by simpa using List.find?_some hrow⟩
    rw [hrefused.exactAuth_iff_due hcoll hkeys]
    refine iff_of_true ⟨?_, fun hdue => hdue.1 hanswered⟩ ?_
    · rintro ⟨-, row, hrow, henabled, hkey⟩
      have hsame : row.apiKey = t := hkey.unique ht
      exact hfound ⟨row, hrow, henabled, hsame ▸ hcoll.refl row.apiKey⟩
    · rintro ⟨-, row, hrow, henabled, t', ht', hkey, -⟩
      exact hfound ⟨row, hrow, henabled, ht.unique ht' ▸ hkey⟩

/-! ## A key in capital letters -/

/-- What the collation of the table compares of an ASCII text: it does not tell the cases of a
letter apart, and trailing spaces do not count. -/
def collationKey (s : Bytes) : Bytes :=
  (s.reverse.dropWhile (· = 32)).map fun c => if 65 ≤ c ∧ c ≤ 90 then c + 32 else c

/-- A gateway on a database that compares keys in this way. -/
def ciGateway : Gateway :=
  { Gateway.small [] [] with
    backend := ⟨.ascii, fun a b => collationKey a = collationKey b, fun _ => none, fun _ => 0⟩ }

/-- A comparison that ignores case is a collation. -/
theorem isCollation_ciGateway : ciGateway.backend.IsCollation where
  refl _ := decide_eq_true rfl
  symm h := decide_eq_true (of_decide_eq_true h).symm
  trans h h' := decide_eq_true ((of_decide_eq_true h).trans (of_decide_eq_true h'))

/-- The first test key, and a connection. -/
def testKey : World :=
  { World.small with
    db := { table := [⟨1, utf8 "sk-test-key-001", utf8 "60 RPM", 60, 1⟩], idle := [some 0] } }

/-- A request under some header. -/
def chatRequest (authorization : String) : RequestHeader where
  method := .post
  target := utf8 "/api/chat"
  fields := [(utf8 "Authorization", utf8 authorization)]

/-- The key as it was handed out is judged by its bytes. -/
theorem exactAuth_iff_test_key :
    ExactAuth ciGateway testKey (chatRequest "Bearer sk-test-key-001") := by
  have htoken : ∀ t, Carries (chatRequest "Bearer sk-test-key-001") t →
      t = utf8 "sk-test-key-001" := by
    intro t ht
    rw [← (carries_iff.mp ht).2]
    decide +kernel
  refine (exactAuth_iff ciGateway testKey _ (by decide +kernel) ?_ isCollation_ciGateway
    (by decide +kernel)).mpr ?_
  · intro t ht
    rw [htoken t ht]
    decide +kernel
  · rintro ⟨-, row, hrow, -, t, ht, -, hne⟩
    rw [List.mem_singleton.mp hrow, htoken t ht] at hne
    exact hne rfl

/-- In capital letters it passes as well, although no key reads so. -/
theorem not_exactAuth_capitals :
    ¬ ExactAuth ciGateway testKey (chatRequest "Bearer SK-TEST-KEY-001") := by
  intro h
  have htoken : Carries (chatRequest "Bearer SK-TEST-KEY-001") (utf8 "SK-TEST-KEY-001") :=
    carries_iff.mpr (by decide +kernel)
  have hfind : (testKey.db.table.find? fun r =>
      ciGateway.backend.collates r.apiKey (utf8 "SK-TEST-KEY-001"))
        = some ⟨1, utf8 "sk-test-key-001", utf8 "60 RPM", 60, 1⟩ := by decide +kernel
  have hreaches : Reaches ciGateway testKey (chatRequest "Bearer SK-TEST-KEY-001") (.pass 1) :=
    reaches_of_found (by decide +kernel) (by decide +kernel) htoken (by decide +kernel) hfind rfl
  obtain ⟨-, row, ⟨hrow, -, hkey⟩, -⟩ := (h (.pass 1)).mp hreaches
  have hsame := hkey.unique htoken
  rw [List.mem_singleton.mp hrow] at hsame
  revert hsame
  decide +kernel

end Middleware

end AiSwitch
