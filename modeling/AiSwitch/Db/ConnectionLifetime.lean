import AiSwitch.Db.ConnectionPool

/-!
# From `mysql_init` to `mysql_close`

The handles of the client library over the life of a pool: `create_connection` opens them, and
closes the one that does not connect, the threads borrow and return them, and the destructor closes
what it finds in the queue. `handles_closed_once` follows each of them from beginning to end.
-/

namespace AiSwitch

open Ledger Transition

namespace ConnectionPool

/-- How the calls of the client library go in `create_connection`. -/
inductive Attempt where
  /-- `mysql_init` returns a null pointer. -/
  | noHandle
  /-- `mysql_real_connect` fails. -/
  | notConnected
  /-- `mysql_set_character_set` fails, which is only logged. -/
  | noCharacterSet
  | connected

/-- What is done with a handle of the client library. -/
inductive HandleCall where
  /-- `mysql_init` -/
  | init (h : ℕ)
  /-- `mysql_close` -/
  | close (h : ℕ)
deriving DecidableEq

def HandleCall.handle : HandleCall → ℕ
  | init h | close h => h

/-- `create_connection`, called in round `i` of the constructor's loop, after which its handle is
named. -/
def createConnection (i : ℕ) : Attempt → List HandleCall × Option ℕ
  | .noHandle => ([], none)
  | .notConnected => ([.init i, .close i], none)
  | .noCharacterSet | .connected => ([.init i], some i)

/-- The first rounds of the constructor's loop: the calls that are made, and the queue. -/
def createLoop (attempt : ℕ → Attempt) : ℕ → List HandleCall × List (Option ℕ)
  | 0 => ([], [])
  | i + 1 =>
    let (calls, idle) := createLoop attempt i
    match createConnection i (attempt i) with
    | (made, some conn) => (calls ++ made, idle ++ [some conn])
    | (made, none) => (calls ++ made, idle)

/-- The rounds that make a connection. -/
def created (attempt : ℕ → Attempt) (i : ℕ) : Bool := (createConnection i (attempt i)).2.isSome

/-- `~connection_pool`. To close a null pointer does nothing. -/
def destroy : List (Option ℕ) → List HandleCall
  | [] => []
  | some conn :: idle => .close conn :: destroy idle
  | none :: idle => destroy idle

/-- What is done with one handle. -/
def about (h : ℕ) (calls : List HandleCall) : List HandleCall := calls.filter (·.handle = h)

/-- The handle is not opened, or it is opened and then closed, once. -/
def ClosedOnce (calls : List HandleCall) (h : ℕ) : Prop :=
  about h calls = [] ∨ about h calls = [.init h, .close h]

variable {attempt : ℕ → Attempt} {h : ℕ}

/-- The calls about a handle are those of the one part and of the other. -/
theorem about_append (calls calls' : List HandleCall) :
    about h (calls ++ calls') = about h calls ++ about h calls' := List.filter_append _ _

/-- The loop makes the queue of the constructor. -/
theorem createLoop_queue (attempt : ℕ → Attempt) (n : ℕ) :
    (createLoop attempt n).2 = ((List.range n).filter (created attempt)).map some := by
  induction n with
  | zero => rfl
  | succ n ih =>
    rw [List.range_succ, List.filter_append, List.map_append, ← ih, createLoop]
    cases hn : attempt n <;> simp [created, createConnection, hn]

/-- Each round is about its own handle. -/
theorem about_createConnection (i : ℕ) (a : Attempt) :
    about h (createConnection i a).1 = if h = i then (createConnection i a).1 else [] := by
  by_cases hi : h = i
  · subst hi
    cases a <;> simp [about, createConnection, HandleCall.handle]
  · have hne : ¬ i = h := fun heq => hi heq.symm
    cases a <;> simp [about, createConnection, HandleCall.handle, hi, hne]

/-- The constructor's loop makes the calls of the one attempt that is at the handle. -/
theorem about_createLoop (n : ℕ) :
    about h (createLoop attempt n).1
      = if h < n then (createConnection h (attempt h)).1 else [] := by
  induction n with
  | zero => rfl
  | succ n ih =>
    have hround : (createLoop attempt (n + 1)).1
        = (createLoop attempt n).1 ++ (createConnection n (attempt n)).1 := by
      rw [createLoop]
      cases attempt n <;> rfl
    rw [hround, about_append, ih, about_createConnection]
    rcases Nat.lt_trichotomy h n with hlt | rfl | hlt
    · rw [if_pos hlt, if_neg hlt.ne, if_pos (by omega), List.append_nil]
    · rw [if_neg (lt_irrefl h), if_pos rfl, if_pos (by omega), List.nil_append]
    · rw [if_neg (by omega), if_neg hlt.ne', if_neg (by omega), List.append_nil]

/-- The destructor closes a handle as often as it is in the queue. -/
theorem about_destroy (idle : List (Option ℕ)) :
    about h (destroy idle) = List.replicate (idle.count (some h)) (.close h) := by
  induction idle with
  | nil => rfl
  | cons conn idle ih =>
    cases conn with
    | none => simpa [destroy] using ih
    | some c =>
      by_cases hc : c = h
      · subst hc
        simpa [destroy, about, HandleCall.handle, List.replicate_succ] using ih
      · simpa [destroy, about, HandleCall.handle, hc] using ih

/-- A connection that is made is open after the constructor. -/
theorem about_of_mem {poolSize : ℤ} (hmem : h ∈ connections poolSize (created attempt)) :
    about h (createLoop attempt poolSize.toNat).1 = [.init h] := by
  obtain ⟨hlt, hcreated⟩ := List.mem_filter.mp hmem
  rw [about_createLoop, if_pos (List.mem_range.mp hlt)]
  cases hattempt : attempt h <;> simp_all [created, createConnection]

/-- A handle that is not in the queue of the constructor has been closed by then. -/
theorem closedOnce_of_notMem {poolSize : ℤ} (hmem : h ∉ connections poolSize (created attempt)) :
    ClosedOnce (createLoop attempt poolSize.toNat).1 h := by
  rw [ClosedOnce, about_createLoop]
  split_ifs with hlt
  · cases hattempt : attempt h with
    | noHandle => exact .inl rfl
    | notConnected => exact .inr rfl
    | noCharacterSet | connected =>
      refine absurd (List.mem_filter.mpr ⟨List.mem_range.mpr hlt, ?_⟩) hmem
      simp [created, createConnection, hattempt]
  · exact .inl rfl

section

variable {m : ℕ} {s : State m} {poolSize : ℤ}

/-- What has become of a handle when the destructor runs. -/
theorem closed_or_held (hs : Inv (connections poolSize (created attempt)) s) (h : ℕ) :
    let calls := (createLoop attempt poolSize.toNat).1 ++ destroy s.shared.idle
    ClosedOnce calls h ∧ (∀ t, (s.threads t).held ≠ some h) ∨
      about h calls = [.init h] ∧ ∃! t, (s.threads t).held = some h := by
  intro calls
  have hcalls : about h calls = about h (createLoop attempt poolSize.toNat).1
      ++ List.replicate (s.shared.idle.count (some h)) (.close h) := by
    rw [about_append, about_destroy]
  by_cases hmem : h ∈ connections poolSize (created attempt)
  · rw [about_of_mem hmem] at hcalls
    have hplace := hs.books.settled_or_unique (nodup_map_connections poolSize (created attempt))
      (Multiset.mem_coe.mpr (List.mem_map_of_mem hmem))
    simp only [Local.mem_share, Multiset.mem_coe, Multiset.coe_count] at hplace
    rcases hplace with ⟨hcount, hheld⟩ | ⟨hidle, hheld⟩
    · have hone : s.shared.idle.count (some h) = 1 := by convert hcount
      rw [hone] at hcalls
      exact .inl ⟨.inr hcalls, hheld⟩
    · rw [List.count_eq_zero_of_not_mem hidle] at hcalls
      exact .inr ⟨hcalls, hheld⟩
  · -- nobody ever gets to see it
    have hplace : some h ∉ (connections poolSize (created attempt)).map some := by simpa using hmem
    rw [← Multiset.mem_coe, hs.books, Multiset.mem_add, not_or] at hplace
    rw [List.count_eq_zero_of_not_mem hplace.1, List.replicate_zero, List.append_nil] at hcalls
    refine .inl ⟨?_, fun t hheld => hplace.2 (mem_underWay.mpr ⟨t, Local.mem_share.mpr hheld⟩)⟩
    rw [ClosedOnce, hcalls]
    exact closedOnce_of_notMem hmem

end

/-- **Every handle is closed once.** Whatever the calls of the client library answer: a constructor
that throws has closed what it has opened. Otherwise, for any number of threads that run operations
of the repository and every interleaving in which no `borrow` times out, at whatever time the
destructor runs: each handle has been opened and closed once, or not at all, and no thread holds it,
or it has been opened and one thread still holds it; and when no operation is running, none is left
open. -/
theorem handles_closed_once (poolSize : ℤ) (attempt : ℕ → Attempt) :
    (construct poolSize (created attempt) = .throw noConnection →
      ∀ h, ClosedOnce (createLoop attempt poolSize.toNat).1 h) ∧
    ∀ idle, construct poolSize (created attempt) = .ok idle →
      (createLoop attempt poolSize.toNat).2 = idle ∧
      ∀ (m : ℕ) (as : List (Action m)) (s : State m), Respects step NoTimeout (init idle) as →
        run step (init idle) as = some s →
        let calls := (createLoop attempt poolSize.toNat).1 ++ destroy s.shared.idle
        (∀ h, ClosedOnce calls h ∧ (∀ t, (s.threads t).held ≠ some h) ∨
          about h calls = [.init h] ∧ ∃! t, (s.threads t).held = some h) ∧
        (Quiescent s → ∀ h, ClosedOnce calls h) := by
  refine ⟨fun hthrow h => closedOnce_of_notMem ?_, fun idle hpool => ?_⟩
  · unfold construct at hthrow
    split_ifs at hthrow with hnone
    rw [hnone]
    exact List.not_mem_nil
  · obtain ⟨-, rfl⟩ := construct_eq_ok_iff.mp hpool
    refine ⟨createLoop_queue attempt _, fun m as s htime hrun => ?_⟩
    have hs : Inv (connections poolSize (created attempt)) s :=
      invariant_run inv_step (inv_init _) htime hrun
    refine ⟨closed_or_held hs, fun hquiet h => ?_⟩
    rcases closed_or_held hs h with ⟨hclosed, -⟩ | ⟨-, t, ht, -⟩
    · exact hclosed
    · exact absurd (hquiet t) (hs.pc_ne_outside ht)

/-- One of two connections is made, and the queries of two threads fail on it. -/
theorem handles_closed_once_two_threads :
    ∃ s : State 2, run step (init [some 0]) (secondWaits 0 1 ++ bothFail 0 1) = some s ∧
      ∀ h, ClosedOnce ([HandleCall.init 0, .init 1, .close 1] ++ destroy s.shared.idle) h := by
  obtain ⟨s, hs, hquiet⟩ : ∃ s : State 2,
      run step (init [some 0]) (secondWaits 0 1 ++ bothFail 0 1) = some s ∧ Quiescent s :=
    exists_of_any (by decide +kernel)
  refine ⟨s, hs, ?_⟩
  let attempt : ℕ → Attempt := fun i => if i = 0 then .connected else .notConnected
  have hpool : construct 2 (created attempt) = .ok [some 0] := by decide
  exact (((handles_closed_once 2 attempt).2 _ hpool).2 2 (secondWaits 0 1 ++ bothFail 0 1) s
    (by decide +kernel) hs).2 hquiet

end ConnectionPool

end AiSwitch
