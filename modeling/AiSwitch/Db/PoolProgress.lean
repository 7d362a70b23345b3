import AiSwitch.Common.Wakeups
import AiSwitch.Db.ConnectionPool

/-!
# Borrowers do not wait for ever

`return_connection` notifies after it has released the mutex, and `cv_.wait_for` may end by itself,
by a notification that another borrower has made useless, or by its time-out.
`idle_connections_attended` shows that nobody waits for a connection that is there: as long as a
borrower waits, every idle connection has a borrower that is going to look for it, or a notification
that is going to be sent. This holds of every run, also of those in which a borrow times out.

No operation holds a connection while it waits for one. Hence the pool cannot deadlock, and whatever
the threads do and the client library answers, every operation returns without a time-out
(`operations_inevitably_return`).
-/

namespace AiSwitch

open Effect Ledger Mutex Transition Wakeups
open Mysql (Op)
open Operation (Result)
open Repository (Repo)

/-- No operation makes more than seven calls. -/
theorem Operation.within_program (op : Operation) : Script.Within 7 op.program := by
  cases op with
  | findApiKey key =>
    have hfind : Script.Within 7 (Repository.findApiKey key) := by
      intro conn
      cases conn with
      | none => trivial
      | some c =>
        intro escaped answered
        cases answered with
        | false => exact fun _ => trivial
        | true =>
          intro rows
          cases rows <;> exact fun _ => trivial
    exact hfind.map _
  | createApiKey dis name rateLimit =>
    have hcreate : Script.Within 7 (Repository.createApiKey dis name rateLimit) := by
      intro conn seed escapedName escapedKey answered
      cases answered with
      | false => exact fun _ => trivial
      | true => exact fun _ _ => trivial
    exact hcreate.map _
  | listApiKeys =>
    have hlist : Script.Within 7 Repository.listApiKeys := by
      intro conn answered
      cases answered with
      | false => exact fun _ => trivial
      | true =>
        intro rows
        cases rows <;> exact fun _ => trivial
    exact hlist.map _
  | disableApiKey id =>
    have hdisable : Script.Within 7 (Repository.disableApiKey id) := by
      intro conn answered
      cases answered with
      | false => exact fun _ => trivial
      | true => exact fun _ _ => trivial
    exact hdisable.map _

namespace ConnectionPool

variable {m : ℕ}

/-- A borrower that is going to look into the queue, or a `return_connection` that has put its
connection back and not notified yet. -/
def Pc.attends : Pc → Bool
  | .lock .. | .check .. | .pop _ | .returnUnlock _ | .notifyOne _ => true
  | _ => false

/-- How many connections a thread takes care of. -/
def Local.cover (l : Local) : ℕ := if l.pc.attends then 1 else 0

/-- The thread waits for a connection. -/
def Local.Waits (l : Local) : Prop := l.pc.isWaiting = true

/-- The thread has found no connection. -/
def Pc.Sleeping : Pc → Prop
  | .sleep _ => True
  | _ => False

/-- As long as a borrower waits, every idle connection is attended to; and who is about to wait has
found none. -/
structure Attended (s : State m) : Prop where
  mutex : Exact (fun t => (s.threads t).Critical) s.shared.mutex
  slept : ∀ t, (s.threads t).pc.Sleeping → s.shared.idle = []
  covered : Covered Local.cover Local.Waits s.shared.idle.length s.threads

variable {s s' : State m} {t : Fin m} {b b' : Shared m} {l l' : Local}

/-! ## Steps -/

/-- What a step that takes thread `t` from `l` to `l'` does to the mutex and to the queue. -/
structure Shift (t : Fin m) (b : Shared m) (l : Local) (b' : Shared m) (l' : Local) : Prop where
  mutex : Move t l.Critical l'.Critical b.mutex b'.mutex
  idle : ¬ l.Critical → b'.idle = b.idle
  slept : l'.pc.Sleeping → b'.idle = []
  cover : b'.idle = [] ∨ (l'.Waits → l.Waits) ∧
    b'.idle.length + l.cover ≤ b.idle.length + l'.cover

/-- Before a call no thread sleeps. -/
theorem not_sleeping_enter (x : Repo Result) : ¬ (enter x).Sleeping := by
  cases x with
  | ret r => exact id
  | call op next => cases op <;> exact id

/-- Before a call no thread waits. -/
theorem isWaiting_enter (x : Repo Result) : (enter x).isWaiting = false := by
  cases x with
  | ret r => rfl
  | call op next => cases op <;> rfl

/-- An operation goes on from a position outside the critical section at which the thread takes care
of nothing. -/
theorem shift_enter {stage stage' : Operation.Stage} {pc : Pc} {x : Repo Result}
    (hcrit : ¬ pc.Critical) (hattends : pc.attends = false) :
    Shift t b ⟨stage, pc⟩ b ⟨stage', enter x⟩ where
  mutex := .stay (iff_of_false (not_critical_enter x) hcrit)
  idle _ := rfl
  slept h := absurd h (not_sleeping_enter x)
  cover := .inr ⟨fun h => absurd h (by simp [Local.Waits, isWaiting_enter]),
    by simp [Local.cover, hattends]⟩

/-- A thread that unlocks and goes on with its operation leaves the connections attended to. -/
theorem shift_unlock {stage stage' : Operation.Stage} {pc : Pc} {x : Repo Result}
    (hcrit : pc.Critical) (hattends : pc.attends = false) :
    Shift t b ⟨stage, pc⟩ { b with mutex := none } ⟨stage', enter x⟩ where
  mutex := .unlock hcrit (not_critical_enter x)
  idle _ := rfl
  slept h := absurd h (not_sleeping_enter x)
  cover := .inr ⟨fun h => absurd h (by simp [Local.Waits, isWaiting_enter]),
    by simp [Local.cover, hattends]⟩

/-- A step that leaves the queue alone and takes care of as much as before. -/
theorem shift_of_idle_eq {stage : Operation.Stage} {pc pc' : Pc} {owner : Option (Fin m)}
    (hmutex : Move t pc.Critical pc'.Critical b.mutex owner) (hslept : ¬ pc'.Sleeping)
    (hwaits : pc'.isWaiting = false) (hcover : pc.attends = true → pc'.attends = true) :
    Shift t b ⟨stage, pc⟩ { b with mutex := owner } ⟨stage, pc'⟩ where
  mutex := hmutex
  idle _ := rfl
  slept h := absurd h hslept
  cover := by
    refine .inr ⟨fun h => absurd h (by simp [Local.Waits, hwaits]), ?_⟩
    cases hattends : pc.attends with
    | false => simp [Local.cover, hattends]
    | true => simp [Local.cover, hattends, hcover hattends]

/-- **What a step does** to the mutex and to the queue. -/
theorem shift_threadStep {stage : Operation.Stage} {pc : Pc}
    (hslept : pc.Sleeping → b.idle = []) (hstep : threadStep b t stage pc = some (b', l')) :
    Shift t b ⟨stage, pc⟩ b' l' := by
  cases pc with
  | outside | waiting | calling | notifyOne => cases hstep
  | lock | returnLock =>
    obtain ⟨hfree, hsome⟩ := Option.ite_none_right_eq_some.mp hstep
    cases hsome
    exact shift_of_idle_eq (hfree ▸ .lock trivial) id rfl (by simp [Pc.attends])
  | check expired next =>
    cases hstep
    split_ifs with hidle hexpired
    · exact shift_of_idle_eq (.stay Iff.rfl) id rfl fun _ => rfl
    all_goals
      rw [not_not] at hidle
      exact ⟨.stay Iff.rfl, fun _ => rfl, fun _ => hidle, .inl hidle⟩
  | sleep next =>
    cases hstep
    exact ⟨.unlock trivial id, fun _ => rfl, False.elim, .inl (hslept trivial)⟩
  | pop next =>
    cases hidle : b.idle with
    | nil => simp [threadStep, hidle] at hstep
    | cons conn idle =>
      simp only [threadStep, hidle, Option.some.injEq, Prod.mk.injEq] at hstep
      obtain ⟨rfl, rfl⟩ := hstep
      exact ⟨.stay Iff.rfl, fun h => absurd trivial h, False.elim,
        .inr ⟨by simp [Local.Waits, Pc.isWaiting], by simp [hidle, Local.cover, Pc.attends]⟩⟩
  | unlockBorrow | unlockTimeout =>
    cases hstep
    exact shift_unlock trivial rfl
  | push conn next =>
    cases hstep
    exact ⟨.stay Iff.rfl, fun h => absurd trivial h, False.elim,
      .inr ⟨by simp [Local.Waits, Pc.isWaiting], by simp [Local.cover, Pc.attends]⟩⟩
  | returnUnlock next =>
    cases hstep
    exact shift_of_idle_eq (.unlock trivial id) id rfl fun _ => rfl

/-- **A step of one thread.** -/
theorem Attended.shift (hs : Attended s) (hl : s.threads t = l) (h : Shift t s.shared l b' l') :
    Attended { shared := b', threads := Function.update s.threads t l' } where
  mutex := hs.mutex.move (hl ▸ h.mutex)
  slept := by
    refine (Function.forall_update_iff s.threads fun _ l => l.pc.Sleeping → b'.idle = []).mpr
      ⟨h.slept, fun u hu hsleep => ?_⟩
    -- who is about to wait holds the mutex, so that the queue is left alone
    have hcrit : (s.threads u).Critical := by
      revert hsleep
      rw [Local.Critical]
      cases (s.threads u).pc <;> simp [Pc.Sleeping, Pc.Critical]
    rw [h.idle (hl ▸ hs.mutex.guards.not_inside hcrit hu.symm)]
    exact hs.slept u hsleep
  covered := by
    show Covered Local.cover Local.Waits b'.idle.length (Function.update s.threads t l')
    rcases h.cover with hnil | ⟨hwaits, hcover⟩
    · rw [hnil]
      exact covered_zero
    · exact hs.covered.update hl hwaits hcover

/-- A borrower that wakes up goes to the queue, so it attends. -/
theorem Attended.wake (hs : Attended s) {expired : Bool} (hstep : wake s t expired = some s') :
    Attended s' := by
  rcases hl : s.threads t with ⟨stage, pc⟩
  cases pc with
  | waiting next =>
    simp only [ConnectionPool.wake, hl, Option.some.injEq] at hstep
    subst hstep
    exact hs.shift hl (shift_of_idle_eq (.stay Iff.rfl) id rfl fun _ => rfl)
  | _ => simp [ConnectionPool.wake, hl] at hstep

/-- A `return_connection` notifies: the borrower that is woken takes the place of the
notification. -/
theorem Attended.notify {stage : Operation.Stage} {next : Unit → Repo Result}
    {woken : Option (Fin m)} (hs : Attended s) (hl : s.threads t = ⟨stage, .notifyOne next⟩)
    (hstep : step s (.notify t woken) = some s') : Attended s' := by
  simp only [step, hl] at hstep
  have hmutex : Exact (fun u => (Function.update s.threads t ⟨stage, enter (next ())⟩ u).Critical)
      s.shared.mutex := by
    refine hs.mutex.move (.stay ?_)
    rw [hl]
    exact iff_of_false (not_critical_enter _) id
  have hslept : ∀ u, (Function.update s.threads t ⟨stage, enter (next ())⟩ u).pc.Sleeping →
      s.shared.idle = [] :=
    (Function.forall_update_iff s.threads fun _ l => l.pc.Sleeping → s.shared.idle = []).mpr
      ⟨fun h => absurd h (not_sleeping_enter _), fun u _ => hs.slept u⟩
  cases woken with
  | none =>
    obtain ⟨hnone, hsome⟩ := Option.ite_none_right_eq_some.mp hstep
    cases hsome
    refine ⟨hmutex, hslept, covered_of_forall ?_⟩
    refine (Function.forall_update_iff s.threads fun _ l => ¬ l.Waits).mpr ⟨?_, fun u _ => ?_⟩
    · simp [Local.Waits, isWaiting_enter]
    · simp [Local.Waits, hnone u]
  | some u =>
    have hut : u ≠ t := by
      rintro rfl
      have hwaits := isWaiting_enter (next ())
      simp only [ConnectionPool.wake, Function.update_self] at hstep
      split at hstep
      · rename_i henter
        rw [henter] at hwaits
        cases hwaits
      · cases hstep
    rcases hu : s.threads u with ⟨stage', pc⟩
    cases pc with
    | waiting next' =>
      simp only [ConnectionPool.wake, Function.update_of_ne hut, hu, Option.some.injEq] at hstep
      subst hstep
      refine ⟨?_, ?_, ?_⟩
      · refine hmutex.move (.stay ?_)
        rw [Function.update_of_ne hut, hu]
        exact Iff.rfl
      · exact (Function.forall_update_iff (Function.update s.threads t ⟨stage, enter (next ())⟩)
          fun _ l => l.pc.Sleeping → s.shared.idle = []).mpr ⟨False.elim, fun v _ => hslept v⟩
      · exact hs.covered.notify hl hut (by simp [hu, Local.Waits, Pc.isWaiting])
          (by simp [hu, Local.cover, Pc.attends]) (by simp [Local.cover, Pc.attends])
    | _ => simp [ConnectionPool.wake, Function.update_of_ne hut, hu] at hstep

/-- **One action leaves no idle connection unattended.** -/
theorem attended_step (s : State m) (a : Action m) (s' : State m) (hs : Attended s)
    (hstep : step s a = some s') : Attended s' := by
  cases a with
  | call t op =>
    rcases hl : s.threads t with ⟨stage, pc⟩
    cases pc with
    | outside =>
      simp only [step, hl, Option.some.injEq] at hstep
      subst hstep
      exact hs.shift hl (shift_enter id rfl)
    | _ => simp [step, hl] at hstep
  | run t =>
    simp only [step, Option.map_eq_some_iff] at hstep
    obtain ⟨⟨b, l⟩, hthread, rfl⟩ := hstep
    exact hs.shift rfl (shift_threadStep (hs.slept t) hthread)
  | answer t op r =>
    rcases hl : s.threads t with ⟨stage, pc⟩
    cases pc with
    | calling op' next =>
      simp only [step, hl, Option.dite_none_right_eq_some] at hstep
      obtain ⟨rfl, hsome⟩ := hstep
      cases hsome
      exact hs.shift hl (shift_enter id rfl)
    | _ => simp [step, hl] at hstep
  | notify t woken =>
    rcases hl : s.threads t with ⟨stage, pc⟩
    cases pc with
    | notifyOne next => exact hs.notify hl hstep
    | _ => simp [step, hl] at hstep
  | spurious t => exact hs.wake hstep
  | timeout t => exact hs.wake hstep

/-- At first nobody waits, so every connection is attended to. -/
theorem attended_init (idle : List (Option ℕ)) : Attended (init (m := m) idle) where
  mutex _ := iff_of_false id nofun
  slept _ h := h.elim
  covered := covered_of_forall fun _ => nofun

/-- Idle connections are attended to in every run. -/
theorem attended_run {idle : List (Option ℕ)} {as : List (Action m)}
    (hrun : run step (init idle) as = some s) : Attended s :=
  invariant_run (C := fun _ _ => True) (fun s a s' hs _ => attended_step s a s' hs)
    (attended_init idle) (respects_of_forall fun _ _ => trivial) hrun

/-- **Nobody waits for a connection that is there.** For every queue that the pool begins with, any
number of threads that run operations of the repository, every answer of the client library and
every interleaving, with time-outs or without: as long as a borrower waits, there are at least as
many borrowers on their way to the queue and notifications on their way to a borrower as there are
idle connections. So where nobody is on the way, either no connection is idle or no borrower
waits. -/
theorem idle_connections_attended {idle : List (Option ℕ)} {as : List (Action m)} {s : State m}
    (hrun : run step (init idle) as = some s) (hwait : ∃ t, (s.threads t).pc.isWaiting = true) :
    s.shared.idle.length ≤ (Finset.univ.filter fun t => (s.threads t).pc.attends).card ∧
      ((∀ t, (s.threads t).pc.attends = false) → s.shared.idle = []) := by
  have hcovered := (attended_run hrun).covered
  constructor
  · rw [Finset.card_filter]
    exact hcovered hwait
  · intro hnone
    refine List.length_eq_zero_iff.mp (hcovered.eq_zero hwait fun t => ?_)
    rw [Local.cover, hnone t]
    rfl

/-- The query of the first thread fails, and it puts the connection back. -/
def firstReturns (t : Fin m) : List (Action m) :=
  .answer t (.query (some 0) .selectAll) false :: List.replicate 2 (.run t)

/-- A borrower waits while the connection that was returned has not been announced yet. -/
theorem idle_connections_attended_notify :
    ∃ s : State 2, run step (init [some 0]) (secondWaits 0 1 ++ firstReturns 0) = some s ∧
      s.shared.idle = [some 0] ∧
      s.shared.idle.length ≤ (Finset.univ.filter fun t => (s.threads t).pc.attends).card := by
  obtain ⟨s, hs, hidle, hwait⟩ : ∃ s : State 2,
      run step (init [some 0]) (secondWaits 0 1 ++ firstReturns 0) = some s ∧
        (s.shared.idle = [some 0] ∧ (s.threads 1).pc.isWaiting = true) :=
    exists_of_any (by decide +kernel)
  exact ⟨s, hs, hidle, (idle_connections_attended hs ⟨1, hwait⟩).1⟩

/-! ## Progress -/

/-- A step by which the operations under way go on: no new call, and no wait that ends without a
notification. -/
def Action.Own : Action m → Prop
  | .run _ | .answer .. | .notify .. => True
  | .call .. | .spurious _ | .timeout _ => False

/-- What is left of the operation. -/
def Pc.rest : Pc → Option (Repo Result)
  | .outside => none
  | .lock _ next | .check _ next | .sleep next | .waiting next | .pop next =>
    some (.call .borrow next)
  | .unlockBorrow conn next => some (next conn)
  | .unlockTimeout next => some (next none)
  | .calling op next => some (.call op next)
  | .returnLock conn next | .push conn next => some (.call (.returnConnection conn) next)
  | .returnUnlock next | .notifyOne next => some (next ())

/-- The operation makes a bounded number of calls. -/
def Pc.Finite (pc : Pc) : Prop := ∀ x ∈ pc.rest, x.Finite

/-- How far the thread is from its next call, within `12` steps for each call. -/
def Pc.offset : Pc → ℕ
  | .outside | .waiting _ => 0
  | .sleep _ | .pop _ => 1
  | .check .. | .push .. => 2
  | .lock .. | .calling .. | .returnLock .. => 3
  | .unlockBorrow .. | .unlockTimeout _ => 4
  | .notifyOne _ => 7
  | .returnUnlock _ => 8

/-- How many steps the thread has left, and the borrower that its notification will wake. -/
noncomputable def Local.work (l : Local) : ℕ :=
  12 * (l.pc.rest.elim 0 Script.depth) + l.pc.offset

/-- A step that leaves the thread less to do. -/
structure Spends (pc pc' : Pc) : Prop where
  finite : pc.Finite → pc'.Finite
  work : pc.Finite → ∀ stage stage', Local.work ⟨stage', pc'⟩ < Local.work ⟨stage, pc⟩

variable {pc pc' : Pc} {stage : Operation.Stage}

/-- A step within a call spends something if it comes closer to its end. -/
theorem spends_of_rest_eq (hrest : pc'.rest = pc.rest) (hoffset : pc'.offset < pc.offset) :
    Spends pc pc' where
  finite h := by
    rw [Pc.Finite, hrest]
    exact h
  work _ _ _ := by
    simp only [Local.work, hrest]
    omega

/-- An operation that ends does so from its first call on. -/
theorem finite_enter {x : Repo Result} (hx : x.Finite) : (enter x).Finite := by
  intro y hy
  cases x with
  | ret r => cases hy
  | call op next =>
    cases op <;> exact Option.mem_some_iff.mp hy ▸ hx

/-- The work before a call is bounded by the depth of what is left. -/
theorem work_enter_le (stage : Operation.Stage) (x : Repo Result) :
    Local.work ⟨stage, enter x⟩ ≤ 12 * Script.depth x + 3 := by
  cases x with
  | ret r => exact Nat.zero_le _
  | call op next => cases op <;> exact le_rfl

/-- Going on with the operation spends work. -/
theorem spends_enter {x : Repo Result} (hrest : pc.rest = some x) (hoffset : 3 < pc.offset) :
    Spends pc (enter x) where
  finite h := finite_enter (h x (by rw [hrest]; rfl))
  work _ stage stage' := by
    have hle := work_enter_le stage' x
    simp only [Local.work, hrest, Option.elim_some] at hle ⊢
    omega

/-- A call that has been answered spends work. -/
theorem spends_call {op : Op} {next : op.Res → Repo Result} (r : op.Res)
    (hrest : pc.rest = some (.call op next)) (hrest' : pc'.rest = some (next r))
    (hoffset : pc'.offset < pc.offset + 12) : Spends pc pc' where
  finite h := by
    intro y hy
    rw [hrest', Option.mem_some_iff] at hy
    exact hy ▸ (h _ (by rw [hrest]; rfl)).next r
  work h _ _ := by
    have hlt := (h _ (by rw [hrest]; rfl)).depth_next_lt r
    simp only [Local.work, hrest, hrest', Option.elim_some]
    omega

/-- A call outside the pool has been answered, and the operation goes on. -/
theorem spends_answer {op : Op} {next : op.Res → Repo Result} (r : op.Res) :
    Spends (.calling op next) (enter (next r)) where
  finite h := finite_enter ((h _ rfl).next r)
  work h stage stage' := by
    have hlt := (h _ rfl).depth_next_lt r
    have hle := work_enter_le stage' (next r)
    simp only [Local.work, Pc.rest, Pc.offset, Option.elim_some] at hle ⊢
    omega

/-- **Every step of a thread** leaves it less to do. -/
theorem spends_threadStep (hstep : threadStep b t stage pc = some (b', l')) :
    Spends pc l'.pc := by
  cases pc with
  | outside | waiting | calling | notifyOne => cases hstep
  | lock | returnLock =>
    obtain ⟨-, hsome⟩ := Option.ite_none_right_eq_some.mp hstep
    cases hsome
    exact spends_of_rest_eq rfl (by simp [Pc.offset])
  | check expired next =>
    cases hstep
    split_ifs
    · exact spends_of_rest_eq rfl (by simp [Pc.offset])
    · exact spends_call none rfl rfl (by simp [Pc.offset])
    · exact spends_of_rest_eq rfl (by simp [Pc.offset])
  | sleep next =>
    cases hstep
    exact spends_of_rest_eq rfl (by simp [Pc.offset])
  | pop next =>
    cases hidle : b.idle with
    | nil => simp [threadStep, hidle] at hstep
    | cons conn idle =>
      simp only [threadStep, hidle, Option.some.injEq, Prod.mk.injEq] at hstep
      obtain ⟨-, rfl⟩ := hstep
      exact spends_call conn rfl rfl (by simp [Pc.offset])
  | unlockBorrow | unlockTimeout =>
    cases hstep
    exact spends_enter rfl (by simp [Pc.offset])
  | push conn next =>
    cases hstep
    exact spends_call () rfl rfl (by simp [Pc.offset])
  | returnUnlock next =>
    cases hstep
    exact spends_of_rest_eq rfl (by simp [Pc.offset])

/-- What the operations under way have left to do. -/
noncomputable def workLeft (s : State m) : ℕ := underWay Local.work s.threads

/-- Less work for one thread is less work altogether. -/
theorem workLeft_update_lt (hl : s.threads t = l) (hwork : l'.work < l.work) :
    workLeft { shared := b', threads := Function.update s.threads t l' } < workLeft s := by
  have hsum := underWay_update Local.work s.threads t l'
  rw [hl] at hsum
  simp only [workLeft]
  omega

/-- The thread has not run out of time. -/
def Pc.Unexpired : Pc → Prop
  | .lock expired _ | .check expired _ => expired = false
  | _ => True

/-- The pool in a run in which no wait runs out of time. -/
structure InUse (conns : List ℕ) (s : State m) : Prop where
  inv : Inv conns s
  attended : Attended s
  finite : ∀ t, (s.threads t).pc.Finite
  unexpired : ∀ t, (s.threads t).pc.Unexpired

variable {conns : List ℕ}

/-- No wait has run out before a call. -/
theorem unexpired_enter (x : Repo Result) : (enter x).Unexpired := by
  cases x with
  | ret r => trivial
  | call op next => cases op <;> trivial

/-- A thread by itself does not run out of time. -/
theorem unexpired_threadStep (hpc : pc.Unexpired)
    (hstep : threadStep b t stage pc = some (b', l')) : l'.pc.Unexpired := by
  cases pc with
  | outside | waiting | calling | notifyOne => cases hstep
  | lock | returnLock =>
    obtain ⟨-, hsome⟩ := Option.ite_none_right_eq_some.mp hstep
    cases hsome
    exact hpc
  | check =>
    cases hstep
    split_ifs <;> trivial
  | pop next =>
    cases hidle : b.idle with
    | nil => simp [threadStep, hidle] at hstep
    | cons conn idle =>
      simp only [threadStep, hidle, Option.some.injEq, Prod.mk.injEq] at hstep
      obtain ⟨-, rfl⟩ := hstep
      trivial
  | unlockBorrow | unlockTimeout =>
    cases hstep
    exact unexpired_enter _
  | sleep | push | returnUnlock =>
    cases hstep
    trivial

/-- The part of `InUse` that concerns each thread by itself. -/
def Local.Going (l : Local) : Prop := l.pc.Finite ∧ l.pc.Unexpired

/-- A finite operation that goes on has no wait that has run out. -/
theorem going_enter (stage : Operation.Stage) {x : Repo Result} (hx : x.Finite) :
    (⟨stage, enter x⟩ : Local).Going :=
  ⟨finite_enter hx, unexpired_enter x⟩

/-- What one action does to the threads, where no wait runs out of time. -/
theorem going_step {a : Action m} (hs : ∀ t, (s.threads t).Going) (ha : ∀ t, a ≠ .timeout t)
    (hstep : step s a = some s') : ∀ t, (s'.threads t).Going := by
  have hupdate : ∀ {threads : Fin m → Local} {t l}, (∀ u, (threads u).Going) → l.Going →
      ∀ u, (Function.update threads t l u).Going := by
    intro threads t l hthreads hl
    exact (Function.forall_update_iff threads fun _ l => l.Going).mpr ⟨hl, fun u _ => hthreads u⟩
  have hwake : ∀ {s s' : State m} {u}, (∀ t, (s.threads t).Going) → wake s u false = some s' →
      ∀ t, (s'.threads t).Going := by
    intro s s' u hs hstep
    rcases hl : s.threads u with ⟨stage, pc⟩
    cases pc with
    | waiting next =>
      simp only [wake, hl, Option.some.injEq] at hstep
      subst hstep
      have hu := hs u
      rw [hl] at hu
      exact hupdate hs ⟨hu.1, rfl⟩
    | _ => simp [wake, hl] at hstep
  cases a with
  | call t op =>
    rcases hl : s.threads t with ⟨stage, pc⟩
    cases pc with
    | outside =>
      simp only [step, hl, Option.some.injEq] at hstep
      subst hstep
      exact hupdate hs (going_enter _ ⟨7, op.within_program⟩)
    | _ => simp [step, hl] at hstep
  | run t =>
    simp only [step, Option.map_eq_some_iff] at hstep
    obtain ⟨⟨b, l⟩, hthread, rfl⟩ := hstep
    exact hupdate hs ⟨(spends_threadStep hthread).finite (hs t).1,
      unexpired_threadStep (hs t).2 hthread⟩
  | answer t op r =>
    rcases hl : s.threads t with ⟨stage, pc⟩
    cases pc with
    | calling op' next =>
      simp only [step, hl, Option.dite_none_right_eq_some] at hstep
      obtain ⟨rfl, hsome⟩ := hstep
      cases hsome
      have ht := hs t
      rw [hl] at ht
      exact hupdate hs ⟨(spends_answer r).finite ht.1, unexpired_enter _⟩
    | _ => simp [step, hl] at hstep
  | notify t woken =>
    rcases hl : s.threads t with ⟨stage, pc⟩
    cases pc with
    | notifyOne next =>
      have ht := hs t
      rw [hl] at ht
      have hreturn := hupdate (t := t) hs (going_enter stage (ht.1 _ rfl))
      simp only [step, hl] at hstep
      cases woken with
      | some u => exact hwake hreturn hstep
      | none =>
        obtain ⟨-, hsome⟩ := Option.ite_none_right_eq_some.mp hstep
        cases hsome
        exact hreturn
    | _ => simp [step, hl] at hstep
  | spurious t => exact hwake hs hstep
  | timeout t => exact absurd rfl (ha t)

/-- In a pool in use every operation goes on. -/
theorem InUse.going (hs : InUse conns s) (t : Fin m) : (s.threads t).Going :=
  ⟨hs.finite t, hs.unexpired t⟩

/-- **One action** in a run in which no wait runs out of time. -/
theorem inUse_step (s : State m) (a : Action m) (s' : State m) (hs : InUse conns s)
    (ha : ∀ t, a ≠ .timeout t) (hstep : step s a = some s') : InUse conns s' := by
  have htime : NoTimeout s a := by
    cases a with
    | run t =>
      intro hexpired
      have hnot := hs.unexpired t
      revert hexpired hnot
      cases (s.threads t).pc with
      | check expired next => cases expired <;> simp [Pc.isExpired, Pc.Unexpired]
      | _ => simp [Pc.isExpired]
    | call | answer | notify | spurious | timeout => trivial
  have hgoing := going_step hs.going ha hstep
  exact ⟨inv_step s a s' hs.inv htime hstep, attended_step s a s' hs.attended hstep,
    fun t => (hgoing t).1, fun t => (hgoing t).2⟩

/-- **Every step of the operations under way** leaves less to do. -/
theorem workLeft_lt {a : Action m} (hs : InUse conns s) (ha : a.Own)
    (hstep : step s a = some s') : workLeft s' < workLeft s := by
  cases a with
  | run t =>
    simp only [step, Option.map_eq_some_iff] at hstep
    obtain ⟨⟨b, l⟩, hthread, rfl⟩ := hstep
    exact workLeft_update_lt rfl ((spends_threadStep hthread).work (hs.finite t) _ _)
  | answer t op r =>
    rcases hl : s.threads t with ⟨stage, pc⟩
    have ht := hs.finite t
    rw [hl] at ht
    cases pc with
    | calling op' next =>
      simp only [step, hl, Option.dite_none_right_eq_some] at hstep
      obtain ⟨rfl, hsome⟩ := hstep
      cases hsome
      exact workLeft_update_lt hl ((spends_answer r).work ht _ _)
    | _ => simp [step, hl] at hstep
  | notify t woken =>
    rcases hl : s.threads t with ⟨stage, pc⟩
    cases pc with
    | notifyOne next =>
      have hsum := underWay_update Local.work s.threads t ⟨stage, enter (next ())⟩
      have hle := work_enter_le stage (next ())
      have hwork : Local.work ⟨stage, .notifyOne next⟩ = 12 * Script.depth (next ()) + 7 := rfl
      rw [hl, hwork] at hsum
      simp only [step, hl] at hstep
      cases woken with
      | some u =>
        rcases hu : Function.update s.threads t ⟨stage, enter (next ())⟩ u with ⟨stage', pc⟩
        cases pc with
        | waiting next' =>
          simp only [wake, hu, Option.some.injEq] at hstep
          subst hstep
          -- the borrower that is woken has its steps paid by the notification
          have hwoken := underWay_update Local.work
            (Function.update s.threads t ⟨stage, enter (next ())⟩) u ⟨stage', .lock false next'⟩
          have hpaid : Local.work ⟨stage', .lock false next'⟩
              = Local.work ⟨stage', .waiting next'⟩ + 3 := rfl
          rw [hu, hpaid] at hwoken
          simp only [workLeft]
          omega
        | _ => simp [wake, hu] at hstep
      | none =>
        obtain ⟨-, hsome⟩ := Option.ite_none_right_eq_some.mp hstep
        cases hsome
        simp only [workLeft]
        omega
    | _ => simp [step, hl] at hstep
  | call | spurious | timeout => exact ha.elim

/-- A step that can be taken leads somewhere. -/
theorem exists_step_of_isSome {a : Action m} (ha : a.Own) (h : (step s a).isSome = true) :
    ∃ a s', Action.Own a ∧ step s a = some s' := by
  obtain ⟨s', hstep⟩ := Option.isSome_iff_exists.mp h
  exact ⟨a, s', ha, hstep⟩

/-- A thread that can step gives the pool a step. -/
theorem exists_step_run (hl : s.threads t = ⟨stage, pc⟩)
    (hstep : (threadStep s.shared t stage pc).isSome = true) :
    ∃ a s', Action.Own a ∧ step s a = some s' :=
  exists_step_of_isSome (a := .run t) trivial (by simp [step, hl, hstep])

/-- A call outside the pool can be answered. -/
theorem exists_step_calling {op : Op} {next : op.Res → Repo Result}
    (hl : s.threads t = ⟨stage, .calling op next⟩) : ∃ a s', Action.Own a ∧ step s a = some s' := by
  have hanswer : Nonempty op.Res := by cases op <;> exact ⟨default⟩
  obtain ⟨r⟩ := hanswer
  exact exists_step_of_isSome (a := .answer t op r) trivial (by simp [step, hl])

/-- A `return_connection` can notify. -/
theorem exists_step_notifyOne {next : Unit → Repo Result}
    (hl : s.threads t = ⟨stage, .notifyOne next⟩) : ∃ a s', Action.Own a ∧ step s a = some s' := by
  by_cases hwait : ∃ u, (s.threads u).pc.isWaiting = true
  · obtain ⟨u, hu⟩ := hwait
    have hut : u ≠ t := by
      rintro rfl
      rw [hl] at hu
      cases hu
    rcases hlu : s.threads u with ⟨stage', pc⟩
    cases pc with
    | waiting next' =>
      exact exists_step_of_isSome (a := .notify t (some u)) trivial
        (by simp [step, hl, wake, hut, hlu])
    | _ => simp [hlu, Pc.isWaiting] at hu
  · have hnone : ∀ u, (s.threads u).pc.isWaiting = false := fun u =>
      Bool.eq_false_iff.mpr fun hu => hwait ⟨u, hu⟩
    exact exists_step_of_isSome (a := .notify t none) trivial (by simp [step, hl, hnone])

/-- The holder of the mutex has a step. -/
theorem isSome_threadStep_of_critical (hcrit : pc.Critical) (hchecked : Checked b pc) :
    (threadStep b t stage pc).isSome = true := by
  cases pc with
  | pop next =>
    obtain ⟨conn, idle, hidle⟩ := List.exists_cons_of_ne_nil hchecked
    simp [threadStep, hidle]
  | outside | lock | waiting | calling | returnLock | notifyOne => exact hcrit.elim
  | check | sleep | unlockBorrow | unlockTimeout | push | returnUnlock => rfl

/-- **Not everybody waits.** Threads that wait hold no connection, so that all connections are idle;
but as long as somebody waits, somebody takes care of an idle connection. -/
theorem quiescent_of_stuck (hconns : conns ≠ []) (hs : InUse conns s)
    (hstuck : ∀ t, (s.threads t).pc.isWaiting = true ∨ (s.threads t).pc = .outside) :
    Quiescent s := by
  by_contra hbusy
  obtain ⟨t, ht⟩ := not_forall.mp hbusy
  have hidle : s.shared.idle = [] := by
    refine List.length_eq_zero_iff.mp
      (hs.attended.covered.eq_zero ⟨t, (hstuck t).resolve_right ht⟩ fun u => ?_)
    rcases hl : s.threads u with ⟨stage, pc⟩
    have hu := hstuck u
    rw [hl] at hu
    revert hu
    cases pc <;> simp [Pc.isWaiting, Local.cover, Pc.attends]
  have hfree : ∀ u, (s.threads u).share = 0 := by
    intro u
    rcases hl : s.threads u with ⟨stage, pc⟩
    have hu := hstuck u
    have hok := hs.inv.ok u
    rw [hl] at hu hok
    apply Local.share_eq_zero
    show stage.connection = none
    cases pc with
    | waiting next =>
      have hstart : stage = .start := hok.1
      rw [hstart]
      rfl
    | outside => exact hok
    | _ => simp [Pc.isWaiting] at hu
  have hall := hs.inv.books.eq_settled hfree
  rw [hidle, Multiset.coe_eq_coe, List.perm_nil, List.map_eq_nil_iff] at hall
  exact hconns hall

/-- **The pool does not deadlock.** -/
theorem exists_own_step (hconns : conns ≠ []) (hs : InUse conns s) (hbusy : ¬ Quiescent s) :
    ∃ a s', Action.Own a ∧ step s a = some s' := by
  cases hmutex : s.shared.mutex with
  | some t =>
    have hcrit : (s.threads t).pc.Critical := (hs.inv.mutex t).mpr hmutex
    exact exists_step_run rfl (isSome_threadStep_of_critical hcrit (hs.inv.checked t))
  | none =>
    by_contra hstuck
    refine hbusy (quiescent_of_stuck hconns hs fun t => ?_)
    have hout : ¬ (s.threads t).Critical := fun ht => by
      have howner := (hs.inv.mutex t).mp ht
      rw [hmutex] at howner
      cases howner
    rcases hl : s.threads t with ⟨stage, pc⟩
    rw [hl] at hout
    cases pc with
    | outside => exact .inr rfl
    | waiting next => exact .inl rfl
    | lock | returnLock =>
      exact absurd (exists_step_run hl (by simp [threadStep, hmutex])) hstuck
    | calling => exact absurd (exists_step_calling hl) hstuck
    | notifyOne => exact absurd (exists_step_notifyOne hl) hstuck
    | check | sleep | pop | unlockBorrow | unlockTimeout | push | returnUnlock =>
      exact absurd trivial hout

/-- **Every operation returns.** For every pool that the constructor makes, any number of threads
that run operations of the repository and every interleaving in which no wait has run out of time:
whichever steps the threads take from there and whatever the client library answers, they come to an
end, and not before all operations have returned. -/
theorem operations_inevitably_return {poolSize : ℤ} {created : ℕ → Bool}
    {idle : List (Option ℕ)} (hpool : construct poolSize created = .ok idle)
    {as : List (Action m)} {s : State m} (htime : ∀ a ∈ as, ∀ t, a ≠ .timeout t)
    (hrun : run step (init idle) as = some s) : Inevitable step Action.Own Quiescent s := by
  obtain ⟨hconns, rfl⟩ := construct_eq_ok_iff.mp hpool
  have hinit : InUse (connections poolSize created)
      (init (m := m) ((connections poolSize created).map some)) :=
    ⟨inv_init _, attended_init _, fun _ => nofun, fun _ => trivial⟩
  have hs : InUse (connections poolSize created) s :=
    invariant_run (C := fun _ a => ∀ t, a ≠ .timeout t) inUse_step hinit
      (respects_of_forall htime) hrun
  refine inevitable_of_measure workLeft ?_ (fun s => exists_own_step hconns) hs
  intro s a s' hs ha hstep
  have hne : ∀ t, a ≠ .timeout t := by
    rintro t rfl
    exact ha
  exact ⟨inUse_step s a s' hs hne hstep, workLeft_lt hs ha hstep⟩

/-- One of two threads has the only connection, and the other one waits for it. -/
theorem operations_inevitably_return_two :
    ∃ s : State 2, run step (init [some 0]) (secondWaits 0 1) = some s ∧
      (s.threads 1).pc.isWaiting = true ∧ Inevitable step Action.Own Quiescent s := by
  obtain ⟨s, hs, hwait⟩ : ∃ s : State 2, run step (init [some 0]) (secondWaits 0 1) = some s ∧
      (s.threads 1).pc.isWaiting = true := exists_of_any (by decide +kernel)
  exact ⟨s, hs, hwait, @operations_inevitably_return 2 1 (fun _ => true) [some 0] (by decide)
    (secondWaits 0 1) s (by simp [secondWaits]) hs⟩

end ConnectionPool

end AiSwitch
