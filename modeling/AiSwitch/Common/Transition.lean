import Mathlib.Tactic.Common

/-!
# Labelled partial transitions and their runs

`step s a` is the state after the action `a`, or `none` where `a` is not enabled. A run is a list
of actions, so a schedule is an ordinary value that can be quantified over, restricted
(`Respects`) and executed on a concrete input (`run`).
-/

namespace Transition

variable {σ ℓ : Type*}

/-- Perform the actions one after another; `none` as soon as one of them is not enabled. -/
def run (step : σ → ℓ → Option σ) : σ → List ℓ → Option σ
  | s, [] => some s
  | s, a :: as => (step s a).bind fun s' => run step s' as

/-- What can be checked of the state at the end of a run is checked by performing the run. -/
theorem exists_of_any {P : σ → Prop} [DecidablePred P] {o : Option σ}
    (h : o.any (fun s => P s) = true) : ∃ s, o = some s ∧ P s := by
  obtain ⟨s, hs, hP⟩ := (Option.any_eq_true _ _).mp h
  exact ⟨s, hs, of_decide_eq_true hP⟩

/-- Every action of the schedule meets `C` in the state in which it is taken. -/
def Respects (step : σ → ℓ → Option σ) (C : σ → ℓ → Prop) : σ → List ℓ → Prop
  | _, [] => True
  | s, a :: as => C s a ∧ ∀ s', step s a = some s' → Respects step C s' as

/-- A schedule is checked by running it. -/
instance decidableRespects (step : σ → ℓ → Option σ) (C : σ → ℓ → Prop)
    [∀ s a, Decidable (C s a)] : ∀ s as, Decidable (Respects step C s as)
  | _, [] => isTrue trivial
  | s, a :: as =>
    match h : step s a with
    | none => decidable_of_iff (C s a) (by simp [Respects, h])
    | some m =>
      have := decidableRespects step C m as
      decidable_of_iff (C s a ∧ Respects step C m as) (by simp [Respects, h])

variable {step : σ → ℓ → Option σ} {C : σ → ℓ → Prop} {Inv : σ → Prop}

/-- A run is its first step and the run from there. -/
theorem run_cons {s s' : σ} {a : ℓ} {as : List ℓ} :
    run step s (a :: as) = some s' ↔ ∃ m, step s a = some m ∧ run step m as = some s' := by
  rw [run, Option.bind_eq_some_iff]

/-- A run of two schedules is a run of each, one after the other. -/
theorem run_append_iff {s s' : σ} {as bs : List ℓ} :
    run step s (as ++ bs) = some s' ↔ ∃ m, run step s as = some m ∧ run step m bs = some s' := by
  induction as generalizing s with
  | nil => simp [run]
  | cons a as ih =>
    rw [List.cons_append, run_cons]
    constructor
    · rintro ⟨n, hn, hrest⟩
      obtain ⟨m, has, hbs⟩ := ih.mp hrest
      exact ⟨m, run_cons.mpr ⟨n, hn, has⟩, hbs⟩
    · rintro ⟨m, has, hbs⟩
      obtain ⟨n, hn, hrest⟩ := run_cons.mp has
      exact ⟨n, hn, ih.mpr ⟨m, hrest, hbs⟩⟩

/-- Two runs, one from where the other ends, are one run. -/
theorem run_append {s m s' : σ} {as bs : List ℓ} (has : run step s as = some m)
    (hbs : run step m bs = some s') : run step s (as ++ bs) = some s' :=
  run_append_iff.mpr ⟨m, has, hbs⟩

/-- A condition on the actions alone is respected where every action meets it. -/
theorem respects_of_forall {C : ℓ → Prop} {s : σ} {as : List ℓ} (h : ∀ a ∈ as, C a) :
    Respects step (fun _ a => C a) s as := by
  induction as generalizing s with
  | nil => trivial
  | cons a as ih =>
    refine ⟨h a List.mem_cons_self, fun s' _ => ?_⟩
    exact ih fun b hb => h b (List.mem_cons_of_mem a hb)

/-- A condition on the actions alone is respected when each action of the run meets it. -/
theorem respects_iff_forall {C : ℓ → Prop} {s s' : σ} {as : List ℓ}
    (hrun : run step s as = some s') : Respects step (fun _ a => C a) s as ↔ ∀ a ∈ as, C a := by
  refine ⟨fun h => ?_, respects_of_forall⟩
  induction as generalizing s with
  | nil => simp
  | cons a as ih =>
    obtain ⟨m, hm, hrest⟩ := run_cons.mp hrun
    exact List.forall_mem_cons.mpr ⟨h.1, ih hrest (h.2 m hm)⟩

/-- **The invariant rule.** What one permitted step preserves holds in every state that a
schedule of permitted steps reaches. -/
theorem invariant_run (hstep : ∀ s a s', Inv s → C s a → step s a = some s' → Inv s')
    {s s' : σ} {as : List ℓ} (hinv : Inv s) (hresp : Respects step C s as)
    (hrun : run step s as = some s') : Inv s' := by
  induction as generalizing s with
  | nil =>
    cases hrun
    exact hinv
  | cons a as ih =>
    obtain ⟨m, hm, hrest⟩ := run_cons.mp hrun
    obtain ⟨hC, htail⟩ := hresp
    exact ih (hstep s a m hinv hC hm) (htail m hm) hrest

/-- The property holds in every state that the schedule passes through. -/
def Always (step : σ → ℓ → Option σ) (P : σ → Prop) : σ → List ℓ → Prop
  | s, [] => P s
  | s, a :: as => P s ∧ ∀ s', step s a = some s' → Always step P s' as

/-- What always holds holds at the start. -/
theorem Always.head {P : σ → Prop} {s : σ} {as : List ℓ} (h : Always step P s as) : P s := by
  cases as with
  | nil => exact h
  | cons a as => exact h.1

/-- **When a property holds all along.** If the permitted steps preserve an invariant that implies
the property and every other step breaks it, it holds in every state of a run exactly where all
steps are permitted. -/
theorem always_iff_respects {P : σ → Prop}
    (hstep : ∀ s a s', Inv s → C s a → step s a = some s' → Inv s') (himp : ∀ s, Inv s → P s)
    (hbreak : ∀ s a s', Inv s → ¬ C s a → step s a = some s' → ¬ P s') {s s' : σ} {as : List ℓ}
    (hinv : Inv s) (hrun : run step s as = some s') :
    Always step P s as ↔ Respects step C s as := by
  induction as generalizing s with
  | nil => exact iff_of_true (himp s hinv) trivial
  | cons a as ih =>
    obtain ⟨m, hm, hrest⟩ := run_cons.mp hrun
    have hunique : ∀ {t}, step s a = some t → t = m := fun ht => Option.some.inj (ht.symm.trans hm)
    by_cases hC : C s a
    · have hm' := ih (hstep s a m hinv hC hm) hrest
      constructor
      · rintro ⟨-, h⟩
        exact ⟨hC, fun t ht => hunique ht ▸ hm'.mp (h m hm)⟩
      · rintro ⟨-, h⟩
        exact ⟨himp s hinv, fun t ht => hunique ht ▸ hm'.mpr (h m hm)⟩
    · exact iff_of_false (fun h => hbreak s a m hinv hC hm (h.2 m hm).head) fun h => hC h.1

/-- **The rule of progress.** If as long as the goal is not reached some action of the kind `P`
keeps the invariant and lowers the measure, then actions of that kind lead to the goal. -/
theorem exists_run_of_measure {P : ℓ → Prop} {Goal : σ → Prop} (measure : σ → ℕ)
    (hprogress : ∀ s, Inv s → ¬ Goal s →
      ∃ a s', P a ∧ step s a = some s' ∧ Inv s' ∧ measure s' < measure s) {s : σ} (hinv : Inv s) :
    ∃ as s', (∀ a ∈ as, P a) ∧ run step s as = some s' ∧ Goal s' := by
  induction hfuel : measure s using Nat.strongRecOn generalizing s with
  | ind fuel ih =>
    by_cases hgoal : Goal s
    · exact ⟨[], s, by simp, rfl, hgoal⟩
    · obtain ⟨a, m, ha, hm, hinv', hlt⟩ := hprogress s hinv hgoal
      obtain ⟨as, s', has, hrun, hgoal'⟩ := ih (measure m) (hfuel ▸ hlt) hinv' rfl
      exact ⟨a :: as, s', List.forall_mem_cons.mpr ⟨ha, has⟩, run_cons.mpr ⟨m, hm, hrun⟩, hgoal'⟩

/-- Whichever actions of the kind `P` are taken, they come to an end, and not before the goal is
reached. -/
def Inevitable (step : σ → ℓ → Option σ) (P : ℓ → Prop) (Goal : σ → Prop) (s : σ) : Prop :=
  ∃ bound, ∀ as s', (∀ a ∈ as, P a) → run step s as = some s' →
    as.length ≤ bound ∧ (Goal s' ∨ ∃ a s'', P a ∧ step s' a = some s'')

/-- **The rule of termination.** If all actions of the kind `P` keep the invariant and lower the
measure, and one of them is enabled as long as the goal is not reached, the goal is inevitable. -/
theorem inevitable_of_measure {P : ℓ → Prop} {Goal : σ → Prop} (measure : σ → ℕ)
    (hstep : ∀ s a s', Inv s → P a → step s a = some s' → Inv s' ∧ measure s' < measure s)
    (hprogress : ∀ s, Inv s → ¬ Goal s → ∃ a s', P a ∧ step s a = some s') {s : σ}
    (hinv : Inv s) : Inevitable step P Goal s := by
  have hrun : ∀ {as : List ℓ} {s s' : σ}, Inv s → (∀ a ∈ as, P a) → run step s as = some s' →
      Inv s' ∧ as.length + measure s' ≤ measure s := by
    intro as
    induction as with
    | nil =>
      rintro s s' hinv - hrun
      cases hrun
      exact ⟨hinv, by simp⟩
    | cons a as ih =>
      intro s s' hinv hP hrun
      obtain ⟨m, hm, hrest⟩ := run_cons.mp hrun
      obtain ⟨ha, has⟩ := List.forall_mem_cons.mp hP
      obtain ⟨hinv', hlt⟩ := hstep s a m hinv ha hm
      obtain ⟨hinv'', hle⟩ := ih hinv' has hrest
      refine ⟨hinv'', ?_⟩
      rw [List.length_cons]
      omega
  refine ⟨measure s, fun as s' hP has => ?_⟩
  obtain ⟨hinv', hle⟩ := hrun hinv hP has
  refine ⟨by omega, ?_⟩
  by_cases hgoal : Goal s'
  · exact .inl hgoal
  · exact .inr (hprogress s' hinv' hgoal)

/-- The system with only the permitted actions. -/
def restrict (step : σ → ℓ → Option σ) (C : σ → ℓ → Prop) [∀ s a, Decidable (C s a)] (s : σ)
    (a : ℓ) : Option σ :=
  if C s a then step s a else none

/-- A step of the restricted system is a step that meets the condition. -/
theorem restrict_eq_some_iff [∀ s a, Decidable (C s a)] {s s' : σ} {a : ℓ} :
    restrict step C s a = some s' ↔ C s a ∧ step s a = some s' :=
  Option.ite_none_right_eq_some

/-! ## Refinement -/

section Refinement

variable {τ κ ε : Type*}

/-- What is seen of a schedule, where that depends on the state in which an action is taken. -/
def history (step : σ → ℓ → Option σ) (seen : σ → ℓ → List ε) : σ → List ℓ → List ε
  | _, [] => []
  | s, a :: as => seen s a ++ (step s a).elim [] fun s' => history step seen s' as

/-- Some schedule leads from one state to the other, and this is what is seen of it. -/
def Shows (step : τ → κ → Option τ) (seen : κ → Option ε) (x : τ) (es : List ε) (x' : τ) : Prop :=
  ∃ bs, run step x bs = some x' ∧ bs.filterMap seen = es

variable {step' : τ → κ → Option τ} {seen' : κ → Option ε} {x y z : τ} {es fs : List ε}

/-- Doing nothing shows nothing. -/
theorem Shows.refl (x : τ) : Shows step' seen' x [] x := ⟨[], rfl, rfl⟩

/-- One action shows what is seen of it. -/
theorem Shows.single {b : κ} (h : step' x b = some y) : Shows step' seen' x (seen' b).toList y := by
  refine ⟨[b], run_cons.mpr ⟨y, h, rfl⟩, ?_⟩
  cases hb : seen' b <;> simp [hb]

/-- Two runs in a row show what each of them shows. -/
theorem Shows.trans (h : Shows step' seen' x es y) (h' : Shows step' seen' y fs z) :
    Shows step' seen' x (es ++ fs) z := by
  obtain ⟨as, has, rfl⟩ := h
  obtain ⟨bs, hbs, rfl⟩ := h'
  exact ⟨as ++ bs, run_append has hbs, List.filterMap_append⟩

/-- **The rule of refinement.** If every step of one system is a schedule of another that shows the
same, so is every run. -/
theorem shows_of_refinement {seen : σ → ℓ → List ε} {R : σ → τ → Prop}
    (hstep : ∀ s a s' x, R s x → step s a = some s' →
      ∃ x', Shows step' seen' x (seen s a) x' ∧ R s' x') {s s' : σ} {as : List ℓ} (hR : R s x)
    (hrun : run step s as = some s') :
    ∃ x', Shows step' seen' x (history step seen s as) x' ∧ R s' x' := by
  induction as generalizing s x with
  | nil =>
    cases hrun
    exact ⟨x, .refl x, hR⟩
  | cons a as ih =>
    obtain ⟨m, hm, hrest⟩ := run_cons.mp hrun
    obtain ⟨y, hy, hRm⟩ := hstep s a m x hR hm
    obtain ⟨z, hz, hR'⟩ := ih hRm hrest
    refine ⟨z, ?_, hR'⟩
    rw [history, hm]
    exact hy.trans hz

end Refinement

/-! ## Actions that can be left out -/

/-- The second schedule is the first one with actions inserted that have the property `P`. -/
inductive Inserts (P : ℓ → Prop) : List ℓ → List ℓ → Prop where
  | nil : Inserts P [] []
  | keep (a : ℓ) {as bs : List ℓ} : Inserts P as bs → Inserts P (a :: as) (a :: bs)
  | insert {a : ℓ} {as bs : List ℓ} : P a → Inserts P as bs → Inserts P as (a :: bs)

/-- **The rule of noninterference.** If the inserted actions change nothing, the others do in the
run without them what they do in the run with them. -/
theorem run_of_inserts {P : ℓ → Prop}
    (hstep : ∀ s a s', Inv s → C s a → step s a = some s' → Inv s')
    (hskip : ∀ s a s', Inv s → C s a → P a → step s a = some s' → s' = s) {s s' : σ}
    {as bs : List ℓ} (hins : Inserts P as bs) (hinv : Inv s) (hresp : Respects step C s bs)
    (hrun : run step s bs = some s') : run step s as = some s' := by
  induction hins generalizing s with
  | nil => exact hrun
  | keep a _ ih =>
    obtain ⟨m, hm, hrest⟩ := run_cons.mp hrun
    exact run_cons.mpr ⟨m, hm, ih (hstep s a m hinv hresp.1 hm) (hresp.2 m hm) hrest⟩
  | @insert a as bs hP _ ih =>
    obtain ⟨m, hm, hrest⟩ := run_cons.mp hrun
    have hsame : m = s := hskip s a m hinv hresp.1 hP hm
    exact ih hinv (hsame ▸ hresp.2 m hm) (hsame ▸ hrest)

end Transition
