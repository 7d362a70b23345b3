import AiSwitch.Db.Linearizability

/-!
# What the clients of the repository can rely on

Since the repository is linearizable, what clients see of the keys follows from what the single
operations do to a table, for every interleaving and whatever fails meanwhile. A key that has been
disabled is never told as enabled again (`disabled_for_good`), and one that has been created is
found (`created_found`).
-/

namespace AiSwitch

open AtomicObject (IsCall Reaches)
open ByteString Transition
open Mysql (Backend Row UniqueKeys)
open Repository (rowInfo rowResult)

/-- As `AUTO_INCREMENT` has it. -/
def Store.IdsBelow (s : Store) : Prop := ∀ r ∈ s.table, r.id < s.nextId

/-- The id has been given to a row, and every row that has it is disabled. -/
structure Store.Retired (id : ℤ) (s : Store) : Prop where
  given : id < s.nextId
  disabled : ∀ r ∈ s.table, r.id = id → r.enabled = 0

/-- The row is there, enabled, and no other one has its key. -/
structure Store.Holds (be : Backend) (row : Row) (s : Store) : Prop where
  mem : row ∈ s.table
  unique : UniqueKeys be s.table

namespace Shared

variable {be : Backend} {op : Operation} {s s' : Store} {result : Operation.Result} {id : ℤ}
  {row : Row}

/-- Whatever is reported, the table is as it was, or the operation is performed on it. -/
theorem keyTable.effect (h : keyTable be op s s' result) :
    s' = s ∨ ∃ result, Performs be s op s' result := by
  cases h with
  | answered h | unanswered h => exact .inr ⟨_, h⟩
  | refused => exact .inl rfl

/-- A property of the table that the operations keep if they succeed. -/
theorem keyTable.keeps {P : Store → Prop} (h : keyTable be op s s' result)
    (hP : ∀ result, Performs be s op s' result → P s') (hs : P s) : P s' := by
  rcases h.effect with rfl | ⟨result, hperforms⟩
  · exact hs
  · exact hP result hperforms

/-! ## Disabled keys -/

/-- An operation keeps every id below the next one. -/
theorem idsBelow_step (hs : s.IdsBelow) (h : keyTable be op s s' result) : s'.IdsBelow := by
  refine h.keeps (fun _ hperforms => ?_) hs
  cases hperforms with
  | find | list => exact hs
  | create =>
    intro r hr
    rcases List.mem_append.mp hr with hr | hr
    · exact (hs r hr).trans (Int.lt_succ _)
    · rw [List.mem_singleton.mp hr]
      exact Int.lt_succ _
  | disable id =>
    intro r hr
    obtain ⟨r', hr', rfl⟩ := List.mem_map.mp hr
    rw [disableRow_id]
    exact hs r' hr'

/-- An id that is retired stays so. -/
theorem retired_step (hs : s.Retired id) (h : keyTable be op s s' result) : s'.Retired id := by
  refine h.keeps (fun _ hperforms => ?_) hs
  cases hperforms with
  | find | list => exact hs
  | create =>
    refine ⟨hs.given.trans (Int.lt_succ _), fun r hr hid => ?_⟩
    rcases List.mem_append.mp hr with hr | hr
    · exact hs.disabled r hr hid
    · -- a new row has a new id
      rw [List.mem_singleton.mp hr] at hid
      exact absurd hid hs.given.ne'
  | disable id' =>
    refine ⟨hs.given, fun r hr hid => ?_⟩
    obtain ⟨r', hr', rfl⟩ := List.mem_map.mp hr
    rw [disableRow_id] at hid
    rw [disableRow]
    split_ifs
    · rfl
    · exact hs.disabled r' hr' hid

/-- A key is retired by a call that says so. -/
theorem retired_of_disabled (hs : s.IdsBelow)
    (h : keyTable be (.disableApiKey id) s s' (.disabled true)) : s'.Retired id := by
  generalize hop : Operation.disableApiKey id = op at h
  generalize hresult : Operation.Result.disabled true = result at h
  cases h with
  | unanswered | refused =>
    subst hop
    cases hresult
  | answered hperforms =>
    subst hop
    cases hperforms with
    | disable =>
      have hcount := of_decide_eq_true (Operation.Result.disabled.inj hresult).symm
      obtain ⟨r, hr, hid⟩ := List.countP_pos_iff.mp hcount
      have hid : r.id = id := by simpa using (of_decide_eq_true hid).1
      refine ⟨hid ▸ hs r hr, fun r' hr' hid' => ?_⟩
      obtain ⟨r'', -, rfl⟩ := List.mem_map.mp hr'
      rw [disableRow_id] at hid'
      rw [disableRow, if_pos hid']

/-- The result tells of an enabled key with the id. -/
def TellsEnabled (id : ℤ) : Operation.Result → Prop
  | .found r => r.found = true ∧ r.info.id = id
  | .created info => info.enabled = true ∧ info.id = id
  | .listed keys => ∃ info ∈ keys, info.enabled = true ∧ info.id = id
  | .disabled _ => False

/-- A retired key is enabled in no row that a client gets. -/
theorem ne_of_enabled (hs : s.Retired id) (hrow : row ∈ s.table)
    (henabled : (rowInfo row).enabled = true) : row.id ≠ id := by
  intro hid
  rw [rowInfo, hs.disabled row hrow hid] at henabled
  cases henabled

/-- No answer tells that a retired id is enabled. -/
theorem not_tellsEnabled (hs : s.Retired id) (h : keyTable be op s s' result) :
    ¬ TellsEnabled id result := by
  cases h with
  | unanswered | refused =>
    cases op <;> simp [failed, TellsEnabled]
  | answered hperforms =>
    cases hperforms with
    | find key =>
      rintro ⟨hfound, hid⟩
      cases hrow : s.table.find? fun r => be.collates r.apiKey key with
      | none =>
        rw [hrow] at hfound
        cases hfound
      | some row =>
        rw [hrow, rowResult] at hfound hid
        split_ifs at hfound hid with henabled
        exact ne_of_enabled hs (List.mem_of_find?_eq_some hrow) henabled hid
    | create =>
      rintro ⟨-, hid⟩
      exact hs.given.ne' hid
    | list =>
      rintro ⟨info, hinfo, henabled, hid⟩
      obtain ⟨row, hrow, rfl⟩ := List.mem_map.mp hinfo
      exact ne_of_enabled hs ((List.mem_insertionSort _).mp hrow) henabled hid
    | disable => exact False.elim

/-- **Disabled is disabled.** For every initial table whose ids are below the next one, every pool
and every behaviour of the database, in every run of the operations by any number of threads, in any
order and with whatever time-outs and failures: once a call has returned that the key with an id is
now disabled, no operation that is called afterwards tells of an enabled key with this id. -/
theorem disabled_for_good {ι : Type} [DecidableEq ι] {table : List Row} {nextId : ℤ} {n : ℕ}
    {actions : List (Action ι)} {final : State ι} {t u : ι}
    {h₁ c h₂ c' h₃ : List (AtomicObject.Event ι Operation Operation.Result)}
    (hids : ∀ r ∈ table, r.id < nextId)
    (hrun : run (step be) (State.init table nextId n) actions = some final)
    (hhistory : actions.filterMap Action.visible = h₁ ++ (c ++ (h₂ ++ (c' ++ h₃))))
    (hc : IsCall t (.disableApiKey id) (.disabled true) c) (hc' : IsCall u op result c') :
    ¬ TellsEnabled id result := by
  have hlinearizable := linearizable_of_nodup (nodup_init n) hrun
  rw [hhistory] at hlinearizable
  obtain ⟨b, a, b', a', hb, hdisable, ha, hop⟩ := hlinearizable.exists_points hc hc'
  have hbelow : b.IdsBelow := hb.keeps (fun _ _ _ _ hs h => idsBelow_step hs h) hids
  have hretired : a.Retired id := retired_of_disabled hbelow hdisable
  exact not_tellsEnabled (ha.keeps (fun _ _ _ _ hs h => retired_step hs h) hretired) hop

/-- A key is disabled while another client looks it up, and listed afterwards. -/
theorem disabled_for_good_firstKey :
    let listed : Operation.Result :=
      .listed [⟨1, utf8 "sk-test-key-001", utf8 "60 RPM", 60, false⟩]
    let actions : List (Action Bool) :=
      [Action.call true (.disableApiKey 1), .call false (.findApiKey (utf8 "sk-test-key-001")),
        .advance false] ++ List.replicate 4 (Action.advance true)
        ++ [Action.ret true (.disabled true), .call true .listApiKeys]
        ++ List.replicate 4 (Action.advance true) ++ [Action.ret true listed]
    (run (step KeyStore.bytewise) (State.init KeyStore.firstKey 2 2) actions).isSome = true ∧
      ¬ TellsEnabled 1 listed := by
  intro listed actions
  have hsome : (run (step KeyStore.bytewise) (State.init KeyStore.firstKey 2 2) actions).isSome
      = true := by decide +kernel
  obtain ⟨s, hs⟩ := Option.isSome_iff_exists.mp hsome
  let disabling : List (AtomicObject.Event Bool Operation Operation.Result) :=
    [.call true (.disableApiKey 1), .call false (.findApiKey (utf8 "sk-test-key-001")),
      .ret true (.disabled true)]
  let listing : List (AtomicObject.Event Bool Operation Operation.Result) :=
    [.call true .listApiKeys, .ret true listed]
  have hhistory : actions.filterMap Action.visible = [] ++ (disabling ++ ([] ++ (listing ++ []))) :=
    rfl
  refine ⟨hsome, disabled_for_good (by decide +kernel) hs hhistory ⟨[_], rfl, ?_⟩ ⟨[], rfl, ?_⟩⟩
  · simp [AtomicObject.Event.thread]
  · exact List.forall_mem_nil _

/-! ## Created keys -/

/-- A row stays in the table until its id is disabled. -/
theorem holds_step (hs : s.Holds be row) (h : keyTable be op s s' result)
    (hop : op ≠ .disableApiKey row.id) : s'.Holds be row := by
  refine h.keeps (fun _ hperforms => ?_) hs
  cases hperforms with
  | find | list => exact hs
  | create seed hstored hnew =>
    exact ⟨List.mem_append_left _ hs.mem, hs.unique.append hnew⟩
  | disable id =>
    have hid : row.id ≠ id := fun hid => hop (congrArg Operation.disableApiKey hid.symm)
    refine ⟨List.mem_map.mpr ⟨row, hs.mem, if_neg hid⟩, ?_⟩
    simpa [UniqueKeys, List.pairwise_map] using hs.unique

/-- An operation keeps the keys unique. -/
theorem unique_step (hs : UniqueKeys be s.table) (h : keyTable be op s s' result) :
    UniqueKeys be s'.table := by
  refine h.keeps (P := fun s => UniqueKeys be s.table) (fun _ hperforms => ?_) hs
  cases hperforms with
  | find | list => exact hs
  | create seed hstored hnew => exact hs.append hnew
  | disable id => simpa [UniqueKeys, List.pairwise_map] using hs

/-- A creation that reports no failure leaves an enabled row with the key that it tells. -/
theorem holds_of_created {dis : UInt32 → ℕ → Fin 16} {name : Bytes} {rateLimit : ℤ}
    {info : ApiKeyInfo} (hs : UniqueKeys be s.table)
    (h : keyTable be (.createApiKey dis name rateLimit) s s' (.created info)) (hinfo : info ≠ {}) :
    ∃ row : Row, s'.Holds be row ∧ row.enabled = 1 ∧ row.id = info.id ∧ row.apiKey = info.apiKey ∧
      row.rateLimit = info.rateLimit ∧ ZeroFree row.apiKey := by
  generalize hop : Operation.createApiKey dis name rateLimit = op at h
  generalize hresult : Operation.Result.created info = result at h
  cases h with
  | unanswered | refused =>
    subst hop
    cases hresult
    exact absurd rfl hinfo
  | answered hperforms =>
    subst hop
    cases hperforms with
    | create seed hstored hnew =>
      cases hresult
      exact ⟨_, ⟨List.mem_append_right _ List.mem_cons_self, hs.append hnew⟩, rfl, rfl, rfl, rfl,
        KeyStore.zeroFree_generateApiKey dis seed⟩

/-- A lookup that is not reported as a failure finds it. -/
theorem found_of_holds (hs : s.Holds be row) (hcoll : be.IsCollation) (henabled : row.enabled = 1)
    {r : ApiKeyResult} (h : keyTable be (.findApiKey row.apiKey) s s' (.found r)) :
    r.dbError = true ∨ r = { info := rowInfo row, found := true } := by
  generalize hop : Operation.findApiKey row.apiKey = op at h
  generalize hresult : Operation.Result.found r = result at h
  cases h with
  | unanswered | refused =>
    subst hop
    cases hresult
    exact .inl rfl
  | answered hperforms =>
    subst hop
    cases hperforms with
    | find key =>
      rw [hs.unique.find?_eq_some hcoll hs.mem (hcoll.refl row.apiKey)] at hresult
      cases hresult
      exact .inr (if_pos (by simp [rowInfo, henabled]))

/-- **What is created is found.** For every collation, every initial table with unique keys, every
pool and every behaviour of the database, in every run of the operations by any number of threads,
in any order and with whatever time-outs and failures: a lookup that is called after a creation has
returned with a key finds this key with the id and the limit that the creation has told, or reports
a failure, unless somebody has by then asked for the key to be disabled. -/
theorem created_found {ι : Type} [DecidableEq ι] {table : List Row} {nextId : ℤ} {n : ℕ}
    {actions : List (Action ι)} {final : State ι} {t u : ι} {dis : UInt32 → ℕ → Fin 16}
    {name : Bytes} {rateLimit : ℤ} {info : ApiKeyInfo} {r : ApiKeyResult}
    {h₁ c h₂ c' h₃ : List (AtomicObject.Event ι Operation Operation.Result)}
    (hcoll : be.IsCollation) (hkeys : UniqueKeys be table)
    (hrun : run (step be) (State.init table nextId n) actions = some final)
    (hhistory : actions.filterMap Action.visible = (h₁ ++ (c ++ (h₂ ++ c'))) ++ h₃)
    (hc : IsCall t (.createApiKey dis name rateLimit) (.created info) c) (hinfo : info ≠ {})
    (hc' : IsCall u (.findApiKey info.apiKey) (.found r) c')
    (hdisable : ∀ v, .call v (.disableApiKey info.id) ∉ h₁ ++ (c ++ (h₂ ++ c'))) :
    r.dbError = true ∨ r.found = true ∧ r.info.enabled = true ∧ r.info.id = info.id ∧
      r.info.apiKey = info.apiKey ∧ r.info.rateLimit = info.rateLimit := by
  have hlinearizable := linearizable_of_nodup (nodup_init n) hrun
  rw [hhistory] at hlinearizable
  obtain ⟨store, hbefore⟩ := hlinearizable.of_append
  -- so nobody disables the key
  have honly := hbefore.only (P := (· ≠ .disableApiKey info.id)) fun e he => by
    cases e with
    | call v op =>
      rintro rfl
      exact hdisable v he
    | ret => trivial
  rw [← List.append_nil c'] at honly
  obtain ⟨b, a, b', a', hb, hcreate, ha, hfind⟩ := honly.exists_points hc hc'
  have hunique : UniqueKeys be b.table :=
    hb.keeps (P := fun s => UniqueKeys be s.table) (fun _ _ _ _ hs h => unique_step hs h.2) hkeys
  obtain ⟨row, hrow, henabled, hid, hkey, hlimit, hzero⟩ :=
    holds_of_created hunique hcreate.2 hinfo
  have hrow' : b'.Holds be row := ha.keeps (P := Store.Holds be row)
    (fun op _ _ _ hs h => holds_step hs h.2 (hid ▸ h.1)) hrow
  have hfind' := hfind.2
  rw [← hkey] at hfind'
  refine (found_of_holds hrow' hcoll henabled hfind').imp_right ?_
  rintro rfl
  refine ⟨rfl, by simp [rowInfo, henabled], hid, ?_, hlimit⟩
  rw [← hkey]
  exact cstr_eq_self hzero

/-- A client creates a key that another one looks up. -/
theorem created_found_zeros :
    let info : ApiKeyInfo := ⟨1, Repository.generateApiKey KeyStore.zeros 0, utf8 "ci", 60, true⟩
    let r : ApiKeyResult := { info := info, found := true }
    let actions : List (Action Bool) :=
      Action.call false (.createApiKey KeyStore.zeros (utf8 "ci") 60)
        :: List.replicate 7 (Action.advance false)
        ++ [Action.ret false (.created info), .call true (.findApiKey info.apiKey)]
        ++ List.replicate 5 (Action.advance true) ++ [Action.ret true (.found r)]
    (run (step KeyStore.bytewise) (State.init [] 1 1) actions).isSome = true ∧
      (r.dbError = true ∨ r.found = true ∧ r.info.enabled = true ∧ r.info.id = info.id ∧
        r.info.apiKey = info.apiKey ∧ r.info.rateLimit = info.rateLimit) := by
  intro info r actions
  have hsome : (run (step KeyStore.bytewise) (State.init [] 1 1) actions).isSome = true := by
    decide +kernel
  obtain ⟨s, hs⟩ := Option.isSome_iff_exists.mp hsome
  let creating : List (AtomicObject.Event Bool Operation Operation.Result) :=
    [.call false (.createApiKey KeyStore.zeros (utf8 "ci") 60), .ret false (.created info)]
  let finding : List (AtomicObject.Event Bool Operation Operation.Result) :=
    [.call true (.findApiKey info.apiKey), .ret true (.found r)]
  have hhistory : actions.filterMap Action.visible
      = ([] ++ (creating ++ ([] ++ finding))) ++ [] := rfl
  refine ⟨hsome, created_found KeyStore.isCollation_bytewise .nil hs hhistory ⟨[], rfl, ?_⟩ ?_
    ⟨[], rfl, ?_⟩ (by simp [creating, finding])⟩
  · exact List.forall_mem_nil _
  · exact fun h => absurd (congrArg ApiKeyInfo.id h) (by decide)
  · exact List.forall_mem_nil _

end Shared

end AiSwitch
