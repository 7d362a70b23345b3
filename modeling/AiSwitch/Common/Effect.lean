import Mathlib.Tactic.Common

/-!
# Effects: exceptions, undefined behaviour, state, foreign calls

The result of a call in a language such as C++ is a value, an exception, or undefined behaviour,
after which the language promises nothing. `Outcome` is that result, `Prog` a computation on a
state that ends in one (an exception keeps the state changes made before it), and `Script` a
program whose calls to a foreign interface are left open, so that one text can be run against a
sequential server (`Script.run`) or taken one call at a time.
-/

namespace Effect

/-! ## Outcomes -/

/-- How a call ends: with a value, with an exception, or in undefined behaviour. -/
inductive Outcome (ε α : Type*) where
  | ok (value : α)
  | throw (error : ε)
  | ub
deriving DecidableEq

namespace Outcome

universe u v

variable {ε : Type v} {α β : Type u}

protected def bind : Outcome ε α → (α → Outcome ε β) → Outcome ε β
  | ok a, f => f a
  | throw e, _ => throw e
  | ub, _ => ub

instance : Monad (Outcome ε) where
  pure := ok
  bind := Outcome.bind

/-- Returning is the outcome `ok`. -/
@[simp] theorem pure_eq (a : α) : (pure a : Outcome ε α) = ok a := rfl

/-- After `ok` the next step runs at its value. -/
@[simp] theorem ok_bind (a : α) (f : α → Outcome ε β) : (ok a >>= f) = f a := rfl

/-- An exception skips what follows. -/
@[simp] theorem throw_bind (e : ε) (f : α → Outcome ε β) :
    ((throw e : Outcome ε α) >>= f) = throw e := rfl

/-- Nothing follows undefined behaviour. -/
@[simp] theorem ub_bind (f : α → Outcome ε β) : ((ub : Outcome ε α) >>= f) = ub := rfl

/-- A sequence ends with a result where both of its parts do. -/
theorem bind_eq_ok_iff {x : Outcome ε α} {f : α → Outcome ε β} {b : β} :
    (x >>= f) = ok b ↔ ∃ a, x = ok a ∧ f a = ok b := by
  cases x <;> simp

/-- A sequence ends with an exception where one of its parts throws it. -/
theorem bind_eq_throw_iff {x : Outcome ε α} {f : α → Outcome ε β} {e : ε} :
    (x >>= f) = throw e ↔ x = throw e ∨ ∃ a, x = ok a ∧ f a = throw e := by
  cases x <;> simp

instance (x : Outcome ε α) : Decidable (∃ a, x = ok a) :=
  match x with
  | ok a => isTrue ⟨a, rfl⟩
  | throw _ | ub => isFalse (by simp)

/-- `catch (...)`: every exception is handled, undefined behaviour is not. -/
def catchAll (x : Outcome ε α) (handler : ε → Outcome ε α) : Outcome ε α :=
  match x with
  | throw e => handler e
  | x => x

/-- Where nothing is thrown there is nothing to catch. -/
@[simp] theorem catchAll_ok (a : α) (h : ε → Outcome ε α) : catchAll (ok a) h = ok a := rfl

/-- An exception is passed to its handler. -/
@[simp] theorem catchAll_throw (e : ε) (h : ε → Outcome ε α) : catchAll (throw e) h = h e := rfl

end Outcome

/-! ## Stateful programs -/

/-- A computation on a state `σ`. The state changes made before an exception stay. -/
def Prog (σ ε α : Type*) := σ → Outcome ε α × σ

namespace Prog

variable {σ ε α β : Type}

instance : Monad (Prog σ ε) where
  pure a := fun s => (.ok a, s)
  bind x f := fun s =>
    match x s with
    | (.ok a, s') => f a s'
    | (.throw e, s') => (.throw e, s')
    | (.ub, s') => (.ub, s')

/-- Run a pure call that may throw. -/
def lift (x : Outcome ε α) : Prog σ ε α := fun s => (x, s)

def throw (e : ε) : Prog σ ε α := fun s => (.throw e, s)

def ub : Prog σ ε α := fun s => (.ub, s)

/-- Read a component of the state. -/
def read (f : σ → α) : Prog σ ε α := fun s => (.ok (f s), s)

def modify (f : σ → σ) : Prog σ ε Unit := fun s => (.ok (), f s)

/-- `try { x } catch`: the handler runs on the state the exception left. -/
def tryCatch (x : Prog σ ε α) (handler : ε → Prog σ ε α) : Prog σ ε α := fun s =>
  match x s with
  | (.throw e, s') => handler e s'
  | r => r

/-- Run a computation on a component of the state. -/
def zoom {τ : Type} (get : σ → τ) (set : σ → τ → σ) (x : Prog τ ε α) : Prog σ ε α := fun s =>
  let r := x (get s)
  (r.1, set s r.2)

/-- A result leaves the state as it is. -/
@[simp] theorem pure_apply (a : α) (s : σ) : (pure a : Prog σ ε α) s = (.ok a, s) := rfl

/-- An outcome that does not depend on the state leaves it as it is. -/
@[simp] theorem lift_apply (x : Outcome ε α) (s : σ) : lift x s = (x, s) := rfl

/-- An exception leaves the state as it is. -/
@[simp] theorem throw_apply (e : ε) (s : σ) : (throw e : Prog σ ε α) s = (.throw e, s) := rfl

/-- Undefined behaviour leaves the state as it is. -/
@[simp] theorem ub_apply (s : σ) : (ub : Prog σ ε α) s = (.ub, s) := rfl

/-- The second part runs in the state that the first one leaves, if that has a result. -/
theorem bind_apply (x : Prog σ ε α) (f : α → Prog σ ε β) (s : σ) :
    (x >>= f) s = match x s with
      | (.ok a, s') => f a s'
      | (.throw e, s') => (.throw e, s')
      | (.ub, s') => (.ub, s') := rfl

/-- After a result a sequence goes on with its second part. -/
theorem bind_of_ok {x : Prog σ ε α} {s s' : σ} {a : α} (h : x s = (.ok a, s'))
    (f : α → Prog σ ε β) : (x >>= f) s = f a s' := by
  rw [bind_apply, h]

/-- An exception of the first part is that of the sequence. -/
theorem bind_of_throw {x : Prog σ ε α} {s s' : σ} {e : ε} (h : x s = (.throw e, s'))
    (f : α → Prog σ ε β) : (x >>= f) s = (.throw e, s') := by
  rw [bind_apply, h]

/-- Undefined behaviour of the first part is that of the sequence. -/
theorem bind_of_ub {x : Prog σ ε α} {s s' : σ} (h : x s = (.ub, s'))
    (f : α → Prog σ ε β) : (x >>= f) s = (.ub, s') := by
  rw [bind_apply, h]

/-- A sequence returns where both of its parts do, one after the other. -/
theorem bind_eq_ok_iff {x : Prog σ ε α} {f : α → Prog σ ε β} {s s'' : σ} {b : β} :
    (x >>= f) s = (.ok b, s'') ↔ ∃ a s', x s = (.ok a, s') ∧ f a s' = (.ok b, s'') := by
  rw [bind_apply]
  rcases x s with ⟨a | e | _, s'⟩ <;> simp

/-- How a sequence is bracketed does not matter. -/
theorem bind_assoc {γ : Type} (x : Prog σ ε α) (f : α → Prog σ ε β) (g : β → Prog σ ε γ) :
    (x >>= f) >>= g = x >>= fun a => f a >>= g := by
  funext s
  rw [bind_apply, bind_apply, bind_apply]
  rcases x s with ⟨_ | _ | _, s'⟩
  · rfl
  · rfl
  · rfl

/-- A result that is given is handed on. -/
@[simp] theorem lift_ok_bind (a : α) (f : α → Prog σ ε β) : (lift (.ok a) >>= f) = f a := rfl

/-- A thrown outcome ends the sequence with its exception. -/
@[simp] theorem lift_throw_bind (e : ε) (f : α → Prog σ ε β) :
    (lift (.throw e) >>= f) = throw e := rfl

/-- An undefined outcome ends the sequence without defined behaviour. -/
@[simp] theorem lift_ub_bind (f : α → Prog σ ε β) : (lift (σ := σ) (ε := ε) .ub >>= f) = ub := rfl

/-- A result is handed on. -/
@[simp] theorem pure_bind (a : α) (f : α → Prog σ ε β) : (pure a >>= f) = f a := rfl

/-- Nothing follows an exception. -/
@[simp] theorem throw_bind (e : ε) (f : α → Prog σ ε β) :
    ((throw e : Prog σ ε α) >>= f) = throw e := rfl

/-- What is read is handed on, in the same state. -/
@[simp] theorem read_bind_apply (g : σ → α) (f : α → Prog σ ε β) (s : σ) :
    (read g >>= f) s = f (g s) s := rfl

/-- What follows a change runs in the changed state. -/
@[simp] theorem modify_bind_apply (g : σ → σ) (f : Unit → Prog σ ε β) (s : σ) :
    (modify g >>= f) s = f () (g s) := rfl

/-- A program of a part of the state changes that part alone. -/
theorem zoom_apply {τ : Type} (get : σ → τ) (set : σ → τ → σ) (x : Prog τ ε α) (s : σ) :
    zoom get set x s = ((x (get s)).1, set s (x (get s)).2) := rfl

/-- A result is not handled. -/
theorem tryCatch_of_ok {x : Prog σ ε α} {s s' : σ} {a : α} (h : x s = (.ok a, s'))
    (handler : ε → Prog σ ε α) : tryCatch x handler s = (.ok a, s') := by
  rw [tryCatch, h]

/-! ### Returning normally -/

/-- The computation ends with a value when it starts in `s`. -/
def Returns (x : Prog σ ε α) (s : σ) : Prop := ∃ a s', x s = (.ok a, s')

/-- A sequence returns where its first part returns, and its second one after that. -/
theorem returns_bind {x : Prog σ ε α} {f : α → Prog σ ε β} {s : σ} :
    (x >>= f).Returns s ↔ ∃ a s', x s = (.ok a, s') ∧ (f a).Returns s' := by
  constructor
  · rintro ⟨b, t, h⟩
    rcases hx : x s with ⟨_ | _ | _, s'⟩
    · rw [bind_of_ok hx] at h
      exact ⟨_, s', rfl, b, t, h⟩
    · rw [bind_of_throw hx] at h
      cases h
    · rw [bind_of_ub hx] at h
      cases h
  · rintro ⟨a, s', hx, b, t, h⟩
    exact ⟨b, t, (bind_of_ok hx f).trans h⟩

/-- After a result the second part decides. -/
theorem returns_bind_of_ok {x : Prog σ ε α} {s s' : σ} {a : α} (h : x s = (.ok a, s'))
    (f : α → Prog σ ε β) : (x >>= f).Returns s ↔ (f a).Returns s' := by
  rw [Returns, Returns, bind_of_ok h]

/-- After undefined behaviour nothing returns. -/
theorem not_returns_bind_of_ub {x : Prog σ ε α} {s s' : σ} (h : x s = (.ub, s'))
    (f : α → Prog σ ε β) : ¬ (x >>= f).Returns s := by
  rw [Returns, bind_of_ub h]
  rintro ⟨b, t, hub⟩
  cases hub

/-- A result returns. -/
@[simp] theorem returns_pure (a : α) (s : σ) : (pure a : Prog σ ε α).Returns s := ⟨a, s, rfl⟩

/-- A program that throws does not return. -/
@[simp] theorem not_returns_throw (e : ε) (s : σ) : ¬ (throw e : Prog σ ε α).Returns s := by
  rintro ⟨a, s', h⟩
  cases h

/-- A program without defined behaviour does not return. -/
@[simp] theorem not_returns_ub (s : σ) : ¬ (ub : Prog σ ε α).Returns s := by
  rintro ⟨a, s', h⟩
  cases h

/-- After an outcome that is given, the sequence returns if this is a result and the rest returns.
-/
theorem returns_lift_bind {x : Outcome ε α} {f : α → Prog σ ε β} {s : σ} :
    (lift x >>= f).Returns s ↔ ∃ a, x = .ok a ∧ (f a).Returns s := by
  cases x with
  | ok a => simp
  | throw e => simp
  | ub => simp

/-- A `try` block returns, or the handler of its exception does. -/
theorem returns_tryCatch {x : Prog σ ε α} {handler : ε → Prog σ ε α} {s : σ} :
    (tryCatch x handler).Returns s ↔
      x.Returns s ∨ ∃ e s', x s = (.throw e, s') ∧ (handler e).Returns s' := by
  rcases hx : x s with ⟨_ | _ | _, s'⟩ <;> simp [Returns, tryCatch, hx]

/-! ### What a computation does to the state -/

/-- However it ends, the computation changes the state along `R`. -/
def Moves (R : σ → σ → Prop) (x : Prog σ ε α) : Prop := ∀ s, R s (x s).2

section Moves

variable {R : σ → σ → Prop}

/-- A result moves nothing. -/
theorem moves_pure (hrefl : ∀ s, R s s) (a : α) : Moves R (pure a : Prog σ ε α) := hrefl

/-- An outcome that does not depend on the state moves nothing. -/
theorem moves_lift (hrefl : ∀ s, R s s) (x : Outcome ε α) : Moves R (lift x : Prog σ ε α) := hrefl

/-- An exception moves nothing. -/
theorem moves_throw (hrefl : ∀ s, R s s) (e : ε) : Moves R (throw e : Prog σ ε α) := hrefl

/-- Undefined behaviour moves nothing. -/
theorem moves_ub (hrefl : ∀ s, R s s) : Moves R (ub : Prog σ ε α) := hrefl

/-- The moves of a sequence are composed. -/
theorem Moves.bind (htrans : ∀ s t u, R s t → R t u → R s u) {x : Prog σ ε α}
    {f : α → Prog σ ε β} (hx : Moves R x) (hf : ∀ a, Moves R (f a)) : Moves R (x >>= f) := by
  intro s
  have hs := hx s
  rw [bind_apply]
  rcases h : x s with ⟨a | _ | _, s'⟩ <;> rw [h] at hs
  · exact htrans _ _ _ hs (hf a s')
  · exact hs
  · exact hs

/-- A handler goes on from where the exception was thrown. -/
theorem Moves.tryCatch (htrans : ∀ s t u, R s t → R t u → R s u) {x : Prog σ ε α}
    {handler : ε → Prog σ ε α} (hx : Moves R x) (hh : ∀ e, Moves R (handler e)) :
    Moves R (tryCatch x handler) := by
  intro s
  have hs := hx s
  rw [Prog.tryCatch]
  rcases h : x s with ⟨_ | e | _, s'⟩ <;> rw [h] at hs
  · exact hs
  · exact htrans _ _ _ hs (hh e s')
  · exact hs

end Moves

/-! ### What a computation returns -/

/-- Where the computation ends with a value, this has the property. -/
def Yields (Q : α → Prop) (x : Prog σ ε α) : Prop := ∀ s a s', x s = (.ok a, s') → Q a

section Yields

variable {P : α → Prop} {Q : β → Prop}

/-- A result is what is yielded. -/
theorem yields_pure {b : β} (h : Q b) : Yields Q (pure b : Prog σ ε β) := by
  rintro s b' s' ⟨⟩
  exact h

/-- An outcome that does not depend on the state yields its result. -/
theorem yields_lift {x : Outcome ε β} (h : ∀ b, x = .ok b → Q b) :
    Yields Q (lift x : Prog σ ε β) :=
  fun _ b _ heq => h b (congrArg Prod.fst heq)

/-- An exception yields no result. -/
theorem yields_throw (e : ε) : Yields Q (throw e : Prog σ ε β) := by
  rintro s b s' ⟨⟩

/-- Undefined behaviour yields no result. -/
theorem yields_ub : Yields Q (ub : Prog σ ε β) := by
  rintro s b s' ⟨⟩

/-- What the first part yields may be used by the second one. -/
theorem Yields.bind {x : Prog σ ε α} {f : α → Prog σ ε β} (hx : Yields P x)
    (hf : ∀ a, P a → Yields Q (f a)) : Yields Q (x >>= f) := by
  intro s b s'' h
  obtain ⟨a, s', ha, hb⟩ := bind_eq_ok_iff.mp h
  exact hf a (hx s a s' ha) s' b s'' hb

/-- A sequence yields what its second part yields. -/
theorem yields_bind {x : Prog σ ε α} {f : α → Prog σ ε β} (hf : ∀ a, Yields Q (f a)) :
    Yields Q (x >>= f) :=
  Yields.bind (P := fun _ => True) (fun _ _ _ _ => trivial) fun a _ => hf a

/-- A `try` block yields what its body or its handler yields. -/
theorem Yields.tryCatch {x : Prog σ ε β} {handler : ε → Prog σ ε β} (hx : Yields Q x)
    (hh : ∀ e, Yields Q (handler e)) : Yields Q (tryCatch x handler) := by
  intro s b s'' h
  rw [Prog.tryCatch] at h
  rcases hcase : x s with ⟨_ | e | _, s'⟩ <;> rw [hcase] at h
  · exact hx s b s'' (hcase.trans h)
  · exact hh e s' b s'' h
  · cases h

/-- A sequence moves the state as its parts do, where the second one may rely on what the first one
yields. -/
theorem Moves.bind_of_yields {R : σ → σ → Prop} (htrans : ∀ s t u, R s t → R t u → R s u)
    {x : Prog σ ε α} {f : α → Prog σ ε β} (hx : Moves R x) (hyields : Yields P x)
    (hf : ∀ a, P a → Moves R (f a)) : Moves R (x >>= f) := by
  intro s
  have hs := hx s
  rw [bind_apply]
  rcases h : x s with ⟨a | _ | _, s'⟩ <;> rw [h] at hs
  · exact htrans _ _ _ hs (hf a (hyields s a s' h) s')
  · exact hs
  · exact hs

end Yields

end Prog

/-! ## Foreign calls -/

/-- A program over an interface with operations `Op`, where `op` answers in `Res op`. -/
inductive Script (Op : Type) (Res : Op → Type) (α : Type) where
  | ret (value : α)
  | call (op : Op) (next : Res op → Script Op Res α)

namespace Script

variable {Op : Type} {Res : Op → Type} {α β : Type} {σ ε : Type}

protected def bind : Script Op Res α → (α → Script Op Res β) → Script Op Res β
  | ret a, f => f a
  | call op next, f => call op fun r => (next r).bind f

instance : Monad (Script Op Res) where
  pure := ret
  bind := Script.bind

/-- A single call. -/
def perform (op : Op) : Script Op Res (Res op) := call op ret

/-- Answer every call by a server on the state `σ`. -/
def run (server : (op : Op) → Prog σ ε (Res op)) : Script Op Res α → Prog σ ε α
  | ret a => pure a
  | call op next => server op >>= fun r => run server (next r)

variable (server : (op : Op) → Prog σ ε (Res op))

/-- A script without calls returns. -/
@[simp] theorem run_pure (a : α) : run server (pure a : Script Op Res α) = pure a := rfl

end Script

end Effect
