import AiSwitch.Db.KeyTable
import AiSwitch.Server.Answers

/-!
# What is told about a disabled key

`disable_api_key` answers by the number of rows that its `UPDATE` has changed. A row that is
disabled already is not changed again, and a statement that fails has the same answer as one that
changes nothing, so `false` (a 404 of the handler) does not mean that there is no such key.
`tells_truth_iff` says when the answer is true of the table, and when it is given twice.
-/

namespace AiSwitch

open ByteString Effect Nlohmann Http
open Mysql (Backend Db Row)

/-- There is a row with the id. -/
def HasKey (table : List Row) (id : ℤ) : Prop := ∃ row ∈ table, row.id = id

/-- There is a row with the id that is not disabled. -/
def HasLiveKey (table : List Row) (id : ℤ) : Prop := ∃ row ∈ table, row.id = id ∧ row.enabled ≠ 0

instance (table : List Row) (id : ℤ) : Decidable (HasLiveKey table id) :=
  inferInstanceAs (Decidable (∃ row ∈ table, _))

/-! ## The table -/

section

variable {table : List Row} {id : ℤ}

/-- A live key is a key. -/
theorem HasLiveKey.hasKey (h : HasLiveKey table id) : HasKey table id := by
  obtain ⟨row, hrow, hid, -⟩ := h
  exact ⟨row, hrow, hid⟩

/-- After the disabling the id has no live key. -/
theorem not_hasLiveKey_map_disableRow : ¬ HasLiveKey (table.map (disableRow id)) id := by
  rintro ⟨row, hrow, hid, henabled⟩
  obtain ⟨row, -, rfl⟩ := List.mem_map.mp hrow
  rw [disableRow_id] at hid
  rw [disableRow, if_pos hid] at henabled
  exact henabled rfl

/-- After the disabling the id has a disabled key exactly when it had a key. -/
theorem exists_disabled_map_disableRow_iff :
    (∃ row ∈ table.map (disableRow id), row.id = id ∧ row.enabled = 0) ↔ HasKey table id := by
  constructor
  · rintro ⟨row, hrow, hid, -⟩
    obtain ⟨row', hrow', rfl⟩ := List.mem_map.mp hrow
    exact ⟨row', hrow', by rwa [disableRow_id] at hid⟩
  · rintro ⟨row, hrow, rfl⟩
    exact ⟨_, List.mem_map_of_mem hrow, disableRow_id _ _, by rw [disableRow, if_pos rfl]⟩

end

/-! ## The call -/

namespace Repository

variable {be : Backend} {db : Db} {c : ℕ} (id : ℤ)

/-- **What `disable_api_key` does.** It answers by whether the statement is answered and has changed
a row; the statement is executed unless it is refused. -/
theorem run_disableApiKey (h : db.connection = some c) :
    ∃ db', (disableApiKey id).run be db
        = (.ok (decide (be.Answers db.calls ∧ HasLiveKey db.table id)), db') ∧
      db'.table = (if be.fault db.calls = some .refused then db.table
        else db.table.map (disableRow id)) ∧
      db'.idle = db.idle.tail ++ [some c] ∧ db'.calls = db.calls + 1 := by
  unfold disableApiKey
  rw [run_borrow_bind, h]
  by_cases hanswers : be.Answers db.calls
  · have hfault : be.fault db.calls ≠ some .refused := by
      simp [show be.fault db.calls = none from hanswers]
    have hchanged : decide (be.Answers db.calls ∧ HasLiveKey db.table id)
        = decide ((0 : ℤ) < (db.table.countP fun r => r.id = id ∧ r.enabled ≠ 0 : ℕ)) := by
      rw [decide_eq_decide, Int.natCast_pos, List.countP_pos_iff, and_iff_right hanswers]
      simp [HasLiveKey]
    have hquery := Mysql.query_of_answers (c := c) be { db with idle := db.idle.tail } hanswers
      (.disable id)
    rw [run_query_bind hquery, if_neg (by simp), run_affectedRows_bind, run_returnConnection_bind,
      run_pure, hchanged, if_neg hfault]
    refine ⟨_, congrArg (fun n : ℤ => (Outcome.ok (decide (0 < n)), _)) ?_, rfl, rfl, rfl⟩
    exact Function.update_self _ _ _
  · rw [decide_eq_false fun hboth => hanswers hboth.1]
    obtain ⟨fault, hfault⟩ := Option.ne_none_iff_exists'.mp hanswers
    cases fault with
    | refused =>
      have hquery : Mysql.query be (some c) (.disable id) { db with idle := db.idle.tail }
          = (.ok false, Mysql.Db.called { db with idle := db.idle.tail }) := by
        simp [Mysql.query, Mysql.send, hfault]
      rw [run_query_bind hquery, if_pos rfl, run_returnConnection_bind, run_pure, if_pos hfault]
      exact ⟨_, rfl, rfl, rfl, rfl⟩
    | answerLost =>
      obtain ⟨db', hexec⟩ : ∃ db', Mysql.execute be
        (Mysql.Db.called { db with idle := db.idle.tail }) c (.disable id) = some db' := ⟨_, rfl⟩
      have hquery : Mysql.query be (some c) (.disable id) { db with idle := db.idle.tail }
          = (.ok false, db') := by
        simp [Mysql.query, Mysql.send, hfault, hexec]
      cases hexec
      rw [run_query_bind hquery, if_pos rfl, run_returnConnection_bind, run_pure,
        if_neg (by simp [hfault])]
      exact ⟨_, rfl, rfl, rfl, rfl⟩

/-! ## What its answer says -/

/-- The answer to a call that has met the state `db` and left `db'` is true: `true` says that there
is a row with the id, which is disabled now, `false` that there is none, and a failure of the
database is not reported as that. -/
structure TrueOf (be : Backend) (db db' : Db) (id : ℤ) (b : Bool) : Prop where
  disabled : b = true ↔ ∃ row ∈ db'.table, row.id = id ∧ row.enabled = 0
  no_key : b = false → ¬ HasKey db.table id
  no_failure : b = false → be.Answers db.calls

/-- The call returns, and what it answers is true. -/
def TellsTruth (be : Backend) (db : Db) (id : ℤ) : Prop :=
  ∃ b db', (disableApiKey id).run be db = (.ok b, db') ∧ TrueOf be db db' id b

/-- Two calls, one after the other, return the same answer. -/
def SameTwice (be : Backend) (db : Db) (id : ℤ) : Prop :=
  ∃ b db' db'', (disableApiKey id).run be db = (.ok b, db') ∧
    (disableApiKey id).run be db' = (.ok b, db'')

/-- The answer is true where there is a connection, the database answers, and a row with the id, if
there is one, is not disabled already. -/
def Tellable (be : Backend) (db : Db) (id : ℤ) : Prop :=
  db.connection ≠ none ∧ be.Answers db.calls ∧ (HasKey db.table id → HasLiveKey db.table id)

variable {id}

/-- Without a connection `disable_api_key` does not return. -/
theorem not_returns_disableApiKey (h : db.connection = none) {b : Bool} {db' : Db} :
    (disableApiKey id).run be db ≠ (.ok b, db') := by
  obtain ⟨db'', hub⟩ := run_disableApiKey_of_none be db id h
  rw [hub]
  exact nofun

/-- The truth is told exactly of the ids and outcomes that are tellable. -/
theorem tellsTruth_iff (be : Backend) (db : Db) (id : ℤ) :
    TellsTruth be db id ↔ Tellable be db id := by
  cases hconn : db.connection with
  | none =>
    refine iff_of_false ?_ fun h => h.1 hconn
    rintro ⟨b, db', hrun, -⟩
    exact not_returns_disableApiKey hconn hrun
  | some c =>
    obtain ⟨db', hrun, htable, -⟩ := @run_disableApiKey be db c id hconn
    constructor
    · rintro ⟨b, db'', hrun', htrue⟩
      rw [hrun] at hrun'
      cases hrun'
      have hanswers : be.Answers db.calls := by
        by_contra hnot
        exact hnot (htrue.no_failure (decide_eq_false fun hboth => hnot hboth.1))
      refine ⟨by simp [hconn], hanswers, fun hkey => ?_⟩
      by_contra hlive
      exact htrue.no_key (decide_eq_false fun hboth => hlive hboth.2) hkey
    · rintro ⟨-, hanswers, hlive⟩
      have hfault : be.fault db.calls ≠ some .refused := by
        rw [show be.fault db.calls = none from hanswers]
        simp
      rw [if_neg hfault] at htable
      refine ⟨_, db', hrun, ?_, ?_, fun _ => hanswers⟩
      · rw [htable, exists_disabled_map_disableRow_iff, decide_eq_true_iff, and_iff_right hanswers]
        exact ⟨HasLiveKey.hasKey, hlive⟩
      · intro hfalse hkey
        exact of_decide_eq_false hfalse ⟨hanswers, hlive hkey⟩

/-- The connection for a second call is the next one in the queue, or the same again. -/
theorem connection_of_idle {db db' : Db} {c : ℕ} (h : db'.idle = db.idle.tail ++ [some c]) :
    db'.connection = none ↔ db.idle.tail.head? = some none := by
  rw [Mysql.Db.connection, h]
  cases db.idle.tail with
  | nil => simp
  | cons conn conns => simp

/-- Two calls that return agree when they return the same. -/
theorem sameTwice_iff_of_runs {b b' : Bool} {db' db'' : Db}
    (hrun : (disableApiKey id).run be db = (.ok b, db'))
    (hrun' : (disableApiKey id).run be db' = (.ok b', db'')) : SameTwice be db id ↔ b = b' := by
  constructor
  · rintro ⟨b₁, db₁, db₂, hrun₁, hrun₂⟩
    rw [hrun] at hrun₁
    cases hrun₁
    rw [hrun'] at hrun₂
    cases hrun₂
    rfl
  · rintro rfl
    exact ⟨b, db', db'', hrun, hrun'⟩

/-- After one call, the next one answers the same where nothing was there to be disabled, or where
the first statement was not answered and, if it was not even executed, neither is the second. -/
theorem answers_again_iff {db' : Db} (htable : db'.table
      = if be.fault db.calls = some .refused then db.table else db.table.map (disableRow id))
    (hcalls : db'.calls = db.calls + 1) :
    ((be.Answers db.calls ∧ HasLiveKey db.table id) ↔
        be.Answers db'.calls ∧ HasLiveKey db'.table id) ↔
      ¬ HasLiveKey db.table id ∨ be.fault db.calls = some .answerLost ∨
        be.fault db.calls = some .refused ∧ ¬ be.Answers (db.calls + 1) := by
  -- a statement that is executed leaves nothing to be disabled
  have hlive : be.fault db.calls ≠ some .refused → ¬ HasLiveKey db'.table id := by
    intro hfault
    rw [htable, if_neg hfault]
    exact not_hasLiveKey_map_disableRow
  rw [hcalls, show be.Answers db.calls ↔ be.fault db.calls = none from Iff.rfl]
  cases hfault : be.fault db.calls with
  | none => simp [hlive (by simp [hfault])]
  | some fault =>
    cases fault with
    | answerLost => simp [hlive (by simp [hfault])]
    | refused =>
      rw [htable, if_pos hfault]
      simp
      tauto

/-- Two answers are one where there are connections for both calls, and the second is the first one
again. -/
theorem sameTwice_iff (be : Backend) (db : Db) (id : ℤ) :
    SameTwice be db id ↔ db.connection ≠ none ∧ db.idle.tail.head? ≠ some none ∧
      (¬ HasLiveKey db.table id ∨ be.fault db.calls = some .answerLost ∨
        be.fault db.calls = some .refused ∧ ¬ be.Answers (db.calls + 1)) := by
  cases hconn : db.connection with
  | none =>
    refine iff_of_false ?_ fun h => h.1 rfl
    rintro ⟨b, db', -, hrun, -⟩
    exact not_returns_disableApiKey hconn hrun
  | some c =>
    obtain ⟨db', hrun, htable, hidle, hcalls⟩ := @run_disableApiKey be db c id hconn
    have hnext := connection_of_idle hidle
    cases hconn' : db'.connection with
    | none =>
      refine iff_of_false ?_ fun h => h.2.1 (hnext.mp hconn')
      rintro ⟨b, db₁, db₂, hrun₁, hrun₂⟩
      rw [hrun] at hrun₁
      cases hrun₁
      exact not_returns_disableApiKey hconn' hrun₂
    | some c' =>
      obtain ⟨db'', hrun', -⟩ := @run_disableApiKey be db' c' id hconn'
      have hqueue : db.idle.tail.head? ≠ some none := fun h => by
        rw [hnext.mpr h] at hconn'
        cases hconn'
      rw [sameTwice_iff_of_runs hrun hrun', decide_eq_decide, answers_again_iff htable hcalls,
        and_iff_right (Option.some_ne_none c), and_iff_right hqueue]

end Repository

/-! ## The handler -/

namespace Gateway

open Repository

variable {gw : Gateway} {w : World} {body : Json} {req : RequestHeader} {id : ℤ}

/-- The handler answers, with a 404 instead of the confirmation where there is no such key. -/
def AnswersTruly (gw : Gateway) (w : World) (body : Json) (req : RequestHeader) (id : ℤ) : Prop :=
  ∃ b res w', gw.disableKeyWith body req w = (.ok res, w') ∧
    (res.status = .ok ↔ b = true) ∧ (res.status = .notFound ↔ b = false) ∧
    TrueOf gw.backend w.db w'.db id b

/-- The handler answers 200 or 404 as `disable_api_key` returns. -/
theorem disableKeyWith_of_ok (hid : body.value "id" (Json.getInt 64) 0 = .ok id) (hpos : 0 < id)
    {b : Bool} {db : Db} (hrun : (disableApiKey id).run gw.backend w.db = (.ok b, db)) :
    ∃ res w', gw.disableKeyWith body req w = (.ok res, w') ∧ w'.db = db ∧
      res.status = if b then .ok else .notFound := by
  unfold disableKeyWith
  rw [hid, Prog.lift_ok_bind, if_neg (not_le.mpr hpos), emit_bind_apply,
    Prog.bind_of_ok (gw.repository_of_ok
      (w := { w with trace := w.trace ++ [.disableApiKey id] }) hrun)]
  cases b with
  | true =>
    rw [if_pos rfl, if_pos rfl, jsonResponse, Lib.dump_of_isValid (isValid_disabledDocument id)]
    exact ⟨_, _, rfl, rfl, rfl⟩
  | false =>
    rw [if_neg (by simp), if_neg (by simp), gw.errorResponse_of_validUtf8 (validUtf8_utf8 _)]
    exact ⟨_, _, rfl, rfl, rfl⟩

/-- Without a connection the handler has no defined behaviour. -/
theorem disableKeyWith_of_connection_none (hid : body.value "id" (Json.getInt 64) 0 = .ok id)
    (hpos : 0 < id) (hconn : w.db.connection = none) :
    ∃ w', gw.disableKeyWith body req w = (.ub, w') := by
  obtain ⟨db, hub⟩ := run_disableApiKey_of_none gw.backend w.db id hconn
  unfold disableKeyWith
  rw [hid, Prog.lift_ok_bind, if_neg (not_le.mpr hpos), emit_bind_apply,
    Prog.bind_of_ub (gw.repository_of_ub
      (w := { w with trace := w.trace ++ [.disableApiKey id] }) hub)]
  exact ⟨_, rfl⟩

/-- The handler tells what the call tells. -/
theorem answersTruly_iff (hid : body.value "id" (Json.getInt 64) 0 = .ok id) (hpos : 0 < id) :
    AnswersTruly gw w body req id ↔ TellsTruth gw.backend w.db id := by
  cases hconn : w.db.connection with
  | none =>
    obtain ⟨w', hub⟩ := @disableKeyWith_of_connection_none gw w body req id hid hpos hconn
    refine iff_of_false ?_ ?_
    · rintro ⟨b, res, w'', hrun, -⟩
      rw [hub] at hrun
      cases hrun
    · rintro ⟨b, db, hrun, -⟩
      exact not_returns_disableApiKey hconn hrun
  | some c =>
    obtain ⟨b, db, hrun⟩ := run_disableApiKey_of_some gw.backend w.db id hconn
    obtain ⟨res, w', hres, rfl, hstatus⟩ := @disableKeyWith_of_ok gw w body req id hid hpos _ _ hrun
    have hok : res.status = .ok ↔ b = true := by
      rw [hstatus]
      cases b <;> simp
    have hnotFound : res.status = .notFound ↔ b = false := by
      rw [hstatus]
      cases b <;> simp
    constructor
    · rintro ⟨b', res', w'', hres', hok', -, htrue⟩
      rw [hres] at hres'
      cases hres'
      have hb : b = b' := Bool.eq_iff_iff.mpr (hok.symm.trans hok')
      exact ⟨b', _, hb ▸ hrun, htrue⟩
    · rintro ⟨b', db, hrun', htrue⟩
      rw [hrun] at hrun'
      cases hrun'
      exact ⟨b, res, w', hres, hok, hnotFound, htrue⟩

/-- **When the answer about a disabled key is true, and when it is given twice.** For every table,
id and outcome of the statements. The call tells the truth where it has a connection, the statement
is answered, and no row with the id is disabled already; and where the handler of
`DELETE /admin/api-keys` calls it, its 404 does so in the same cases. Two calls have one answer
where there is nothing to be disabled, or the first one fails. -/
theorem disable_tells_truth_iff (gw : Gateway) (w : World) (id : ℤ) :
    (TellsTruth gw.backend w.db id ↔ Tellable gw.backend w.db id) ∧
      (SameTwice gw.backend w.db id ↔ w.db.connection ≠ none ∧ w.db.idle.tail.head? ≠ some none ∧
        (¬ HasLiveKey w.db.table id ∨ gw.backend.fault w.db.calls = some .answerLost ∨
          gw.backend.fault w.db.calls = some .refused ∧
            ¬ gw.backend.Answers (w.db.calls + 1))) ∧
      ∀ (body : Json) (req : RequestHeader), body.value "id" (Json.getInt 64) 0 = .ok id → 0 < id →
        (AnswersTruly gw w body req id ↔ Tellable gw.backend w.db id) :=
  ⟨tellsTruth_iff _ _ _, sameTwice_iff _ _ _, fun _ _ hid hpos =>
    (answersTruly_iff hid hpos).trans (tellsTruth_iff _ _ _)⟩

/-- A key that is disabled already is said not to exist, and so the two answers about a key that is
not differ. -/
theorem not_tellsTruth_disabled :
    ¬ TellsTruth (Gateway.small [] []).backend
        { table := [⟨1, utf8 "k", utf8 "test", 60, 0⟩], idle := [some 0] } 1 ∧
      ¬ SameTwice (Gateway.small [] []).backend
        { table := [⟨1, utf8 "k", utf8 "test", 60, 1⟩], idle := [some 0] } 1 := by
  rw [tellsTruth_iff, sameTwice_iff]
  constructor
  · rintro ⟨-, -, hlive⟩
    have hkey : HasKey [(⟨1, utf8 "k", utf8 "test", 60, 0⟩ : Row)] 1 :=
      ⟨_, List.mem_cons_self, rfl⟩
    exact absurd (hlive hkey) (by decide +kernel)
  · rintro ⟨-, -, hlive | hfault | ⟨hfault, -⟩⟩
    · exact hlive (by decide +kernel)
    · cases hfault
    · cases hfault

end Gateway

end AiSwitch
