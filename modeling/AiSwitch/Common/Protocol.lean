import AiSwitch.Common.Effect
import Mathlib.Order.Lattice.Nat

/-!
# Protocols of foreign interfaces

A `Protocol` says in which order the operations of an interface may be called: it keeps a state of
its own, which each answer changes. `Script.Obeys` is a property of the text of a program, for every
answer that the protocol expects; `Obeys.allowed_of_mem_trace` carries it over to the calls that the
program makes to a server.
-/

namespace Effect

variable {Op : Type} {Res : Op → Type} {H α β σ ε : Type}

/-- The operations that may be called in a state, the answers to be expected, the state after an
answer, and the states in which a program may end. -/
structure Protocol (Op : Type) (Res : Op → Type) (H : Type) where
  allowed : H → Op → Prop
  expected : H → (op : Op) → Res op → Prop
  after : H → (op : Op) → Res op → H
  final : H → Prop

namespace Script

/-- Every call of the program is allowed, and it ends in a final state. -/
def Obeys (P : Protocol Op Res H) : H → Script Op Res α → Prop
  | h, ret _ => P.final h
  | h, call op next => P.allowed h op ∧ ∀ r, P.expected h op r → Obeys P (P.after h op r) (next r)

/-- Every call of the program is allowed, and it ends with a value that its state calls for. -/
def Ends (P : Protocol Op Res H) (Q : H → α → Prop) : H → Script Op Res α → Prop
  | h, ret a => Q h a
  | h, call op next => P.allowed h op ∧ ∀ r, P.expected h op r → Ends P Q (P.after h op r) (next r)

/-- The program makes at most `n` calls, whatever they answer. -/
def Within : ℕ → Script Op Res α → Prop
  | _, ret _ => True
  | 0, call _ _ => False
  | n + 1, call _ next => ∀ r, Within n (next r)

/-- There is a bound on the calls that the program makes. -/
def Finite (x : Script Op Res α) : Prop := ∃ n, Within n x

/-- The least bound. -/
noncomputable def depth (x : Script Op Res α) : ℕ := sInf {n | Within n x}

/-- The operations that the program calls on a server, until one does not return normally. -/
def trace (server : (op : Op) → Prog σ ε (Res op)) : Script Op Res α → σ → List Op
  | ret _, _ => []
  | call op next, s =>
    op :: match server op s with
      | (.ok r, s') => trace server (next r) s'
      | _ => []

variable {P : Protocol Op Res H} {h : H}

/-- What is left of a finite script after its first operation is finite. -/
theorem Finite.next {op : Op} {next : Res op → Script Op Res α} (h : Finite (call op next))
    (r : Res op) : Finite (next r) := by
  obtain ⟨n, hn⟩ := h
  cases n with
  | zero => exact hn.elim
  | succ n => exact ⟨n, hn r⟩

/-- Every call brings the program nearer to its end. -/
theorem Finite.depth_next_lt {op : Op} {next : Res op → Script Op Res α}
    (h : Finite (call op next)) (r : Res op) : depth (next r) < depth (call op next) := by
  have hmem : Within (depth (call op next)) (call op next) := Nat.sInf_mem h
  cases hdepth : depth (call op next) with
  | zero =>
    rw [hdepth] at hmem
    exact hmem.elim
  | succ n =>
    rw [hdepth] at hmem
    exact Nat.lt_succ_of_le (Nat.sInf_le (hmem r))

/-- Relabelling the result of a script leaves its number of operations as it is. -/
theorem Within.map {n : ℕ} {x : Script Op Res α} (h : Within n x) (g : α → β) :
    Within n (g <$> x) := by
  induction x generalizing n with
  | ret a => cases n <;> trivial
  | call op next ih =>
    cases n with
    | zero => exact h.elim
    | succ n => exact fun r => ih r (h r)

/-- An operation and what follows it are a script of their own. -/
theorem perform_bind (op : Op) (f : Res op → Script Op Res α) : (perform op >>= f) = call op f :=
  rfl

/-- An operation that is performed first stands in the trace. -/
theorem mem_trace_perform_bind {server : (op : Op) → Prog σ ε (Res op)} {op : Op}
    (f : Res op → Script Op Res α) (s : σ) : op ∈ trace server (perform op >>= f) s := by
  rw [perform_bind, trace]
  exact List.mem_cons_self

/-- An operation that is answered comes first in the trace, and then what follows it. -/
theorem trace_perform_bind_of_ok {server : (op : Op) → Prog σ ε (Res op)} {op : Op} {s s' : σ}
    {r : Res op} (h : server op s = (.ok r, s')) (f : Res op → Script Op Res α) :
    trace server (perform op >>= f) s = op :: trace server (f r) s' := by
  rw [perform_bind, trace, h]

/-- Relabelling the result acts after the operation. -/
theorem map_call (g : α → β) (op : Op) (next : Res op → Script Op Res α) :
    g <$> call op next = call op fun r => g <$> next r := rfl

/-- Relabelling the result of a script leaves its trace as it is. -/
theorem trace_map (server : (op : Op) → Prog σ ε (Res op)) (g : α → β) (x : Script Op Res α)
    (s : σ) : trace server (g <$> x) s = trace server x s := by
  induction x generalizing s with
  | ret a => rfl
  | call op next ih =>
    rw [map_call, trace, trace]
    rcases server op s with ⟨r | _ | _, s'⟩
    · exact congrArg (op :: ·) (ih r s')
    · rfl
    · rfl

/-- A script that returns does so with its result relabelled. -/
theorem run_map_of_ok {server : (op : Op) → Prog σ ε (Res op)} {x : Script Op Res α} {s s' : σ}
    {a : α} (hx : run server x s = (.ok a, s')) (g : α → β) :
    run server (g <$> x) s = (.ok (g a), s') := by
  induction x generalizing s with
  | ret b =>
    cases hx
    rfl
  | call op next ih =>
    rw [map_call, run]
    rw [run] at hx
    rcases hanswer : server op s with ⟨r | _ | _, t⟩
    · rw [Prog.bind_of_ok hanswer] at hx ⊢
      exact ih r hx
    · rw [Prog.bind_of_throw hanswer] at hx
      cases hx
    · rw [Prog.bind_of_ub hanswer] at hx
      cases hx

/-- A script without defined behaviour has none when its result is relabelled. -/
theorem run_map_of_ub {server : (op : Op) → Prog σ ε (Res op)} {x : Script Op Res α} {s s' : σ}
    (hx : run server x s = (.ub, s')) (g : α → β) : run server (g <$> x) s = (.ub, s') := by
  induction x generalizing s with
  | ret b => cases hx
  | call op next ih =>
    rw [map_call, run]
    rw [run] at hx
    rcases hanswer : server op s with ⟨r | _ | _, t⟩
    · rw [Prog.bind_of_ok hanswer] at hx ⊢
      exact ih r hx
    · rw [Prog.bind_of_throw hanswer] at hx
      cases hx
    · rw [Prog.bind_of_ub hanswer] at hx ⊢
      cases hx
      rfl

/-- A program leaves what it leaves, whatever is made of its value. -/
theorem run_map_state (server : (op : Op) → Prog σ ε (Res op)) (g : α → β) (x : Script Op Res α)
    (s : σ) : (run server (g <$> x) s).2 = (run server x s).2 := by
  induction x generalizing s with
  | ret a => rfl
  | call op next ih =>
    rw [map_call, run, run, Prog.bind_apply, Prog.bind_apply]
    rcases server op s with ⟨r | _ | _, s'⟩
    · exact ih r s'
    · rfl
    · rfl

/-- Relabelling the result of a script leaves the order of its operations as it is. -/
theorem Obeys.map {x : Script Op Res α} (hx : Obeys P h x) (g : α → β) : Obeys P h (g <$> x) := by
  induction x generalizing h with
  | ret a => exact hx
  | call op next ih => exact ⟨hx.1, fun r hr => ih r (hx.2 r hr)⟩

/-- What holds of the relabelled result of a script holds of its result. -/
theorem Ends.map {x : Script Op Res α} {g : α → β} {Q : H → β → Prop}
    (hx : Ends P (fun h a => Q h (g a)) h x) : Ends P Q h (g <$> x) := by
  induction x generalizing h with
  | ret a => exact hx
  | call op next ih => exact ⟨hx.1, fun r hr => ih r (hx.2 r hr)⟩

section Server

variable {server : (op : Op) → Prog σ ε (Res op)} {I : H → σ → Prop} {x : Script Op Res α} {s : σ}

/-- **The calls made to a server.** If the server's answers are those that the protocol expects,
every call that it receives was allowed. -/
theorem Obeys.allowed_of_mem_trace
    (hserver : ∀ {h s op r s'}, I h s → P.allowed h op → server op s = (.ok r, s') →
      P.expected h op r ∧ I (P.after h op r) s')
    (hx : Obeys P h x) (hs : I h s) {op : Op} (hop : op ∈ trace server x s) :
    ∃ h', P.allowed h' op := by
  induction x generalizing h s with
  | ret a => cases hop
  | call op' next ih =>
    simp only [trace, List.mem_cons] at hop
    rcases hop with rfl | hop
    · exact ⟨h, hx.1⟩
    · rcases hanswer : server op' s with ⟨r | _ | _, s'⟩ <;> simp only [hanswer] at hop
      · obtain ⟨hr, hs'⟩ := hserver hs hx.1 hanswer
        exact ih r (hx.2 r hr) hs' hop
      all_goals cases hop

/-- **What the calls leave.** A property that every allowed call keeps, also one that does not
return normally, holds when the program ends. -/
theorem Obeys.run_server {J : σ → Prop} (hI : ∀ {h s}, I h s → J s)
    (hserver : ∀ {h s op r s'}, I h s → P.allowed h op → server op s = (.ok r, s') →
      P.expected h op r ∧ I (P.after h op r) s')
    (habort : ∀ {h s op}, I h s → P.allowed h op → J (server op s).2)
    (hx : Obeys P h x) (hs : I h s) : J (run server x s).2 := by
  induction x generalizing h s with
  | ret a => exact hI hs
  | call op next ih =>
    have hleft := habort hs hx.1
    simp only [run, Prog.bind_apply]
    rcases hanswer : server op s with ⟨r | _ | _, s'⟩
    · obtain ⟨hr, hs'⟩ := hserver hs hx.1 hanswer
      exact ih r (hx.2 r hr) hs'
    all_goals
      rw [hanswer] at hleft
      exact hleft

end Server

end Script

end Effect
