import AiSwitch.Common.Effect

/-!
# Two runs side by side

Two computations are alike (`Prog.Alike`) if from related states they end in the same way, with
related values, and in related states. What relates the states says which part of them is hidden;
that a computation is alike to itself says that it does not give away anything hidden.
-/

namespace Effect

/-- Two outcomes are of the same kind, with related values or the same exception. -/
inductive Outcome.Rel {ε α β : Type} (V : α → β → Prop) : Outcome ε α → Outcome ε β → Prop
  | ok {a : α} {b : β} (h : V a b) : Rel V (.ok a) (.ok b)
  | throw (e : ε) : Rel V (.throw e) (.throw e)
  | ub : Rel V .ub .ub

/-- An outcome is related to itself. -/
theorem Outcome.rel_refl {ε α : Type} (x : Outcome ε α) : Outcome.Rel (fun a b => a = b) x x := by
  cases x with
  | ok a => exact .ok rfl
  | throw e => exact .throw e
  | ub => exact .ub

/-- Outcomes that are related by equality are equal. -/
theorem Outcome.Rel.eq {ε α : Type} {x y : Outcome ε α}
    (h : Outcome.Rel (fun a b => a = b) x y) : x = y := by
  cases h with
  | ok h => rw [h]
  | throw e => rfl
  | ub => rfl

namespace Prog

variable {σ τ ε α β γ δ : Type} {S : σ → τ → Prop}

/-- From related states the computations end alike, in related states. -/
def Alike (S : σ → τ → Prop) (V : α → β → Prop) (x : Prog σ ε α) (y : Prog τ ε β) : Prop :=
  ∀ s t, S s t → Outcome.Rel V (x s).1 (y t).1 ∧ S (x s).2 (y t).2

variable {V : α → β → Prop} {W : γ → δ → Prop} {x : Prog σ ε α} {y : Prog τ ε β}

/-- Two programs that return related values are alike. -/
theorem alike_pure {a : α} {b : β} (h : V a b) :
    Alike S V (pure a : Prog σ ε α) (pure b : Prog τ ε β) :=
  fun _ _ hs => ⟨.ok h, hs⟩

/-- Two programs that throw one exception are alike. -/
theorem alike_throw (e : ε) : Alike S V (throw e : Prog σ ε α) (throw e : Prog τ ε β) :=
  fun _ _ hs => ⟨.throw e, hs⟩

/-- Two programs without defined behaviour are alike. -/
theorem alike_ub : Alike S V (ub : Prog σ ε α) (ub : Prog τ ε β) := fun _ _ hs => ⟨.ub, hs⟩

/-- One computation that leaves the state alone is alike in both. -/
theorem alike_lift (o : Outcome ε α) :
    Alike S (fun a b => a = b) (lift o : Prog σ ε α) (lift o : Prog τ ε α) :=
  fun _ _ hs => ⟨o.rel_refl, hs⟩

/-- Two programs that read related parts of the state are alike. -/
theorem alike_read {f : σ → α} {g : τ → β} (h : ∀ s t, S s t → V (f s) (g t)) :
    Alike S V (read f : Prog σ ε α) (read g : Prog τ ε β) :=
  fun s t hs => ⟨.ok (h s t hs), hs⟩

/-- Two changes that keep the states related are alike. -/
theorem alike_modify {f : σ → σ} {g : τ → τ} (h : ∀ s t, S s t → S (f s) (g t)) :
    Alike S (fun a b => a = b) (modify f : Prog σ ε Unit) (modify g : Prog τ ε Unit) :=
  fun s t hs => ⟨.ok rfl, h s t hs⟩

/-- Two runs that are alike go on alike where what follows is alike at related values. -/
theorem Alike.bind (h : Alike S V x y) {f : α → Prog σ ε γ} {g : β → Prog τ ε δ}
    (hf : ∀ a b, V a b → Alike S W (f a) (g b)) : Alike S W (x >>= f) (y >>= g) := by
  intro s t hs
  obtain ⟨hvalue, hstate⟩ := h s t hs
  rw [bind_apply, bind_apply]
  generalize x s = r, y t = q at hvalue hstate
  obtain ⟨o, s'⟩ := r
  obtain ⟨o', t'⟩ := q
  cases hvalue with
  | ok hab => exact hf _ _ hab s' t' hstate
  | throw e => exact ⟨.throw e, hstate⟩
  | ub => exact ⟨.ub, hstate⟩

/-- Two runs that return the same value go on alike with what is alike after it. -/
theorem Alike.bind_eq {y : Prog τ ε α} (h : Alike S (fun a b => a = b) x y)
    {f : α → Prog σ ε γ} {g : α → Prog τ ε δ} (hf : ∀ a, Alike S W (f a) (g a)) :
    Alike S W (x >>= f) (y >>= g) :=
  h.bind fun a _ hab => hab ▸ hf a

/-- Two runs that are alike stay so under handlers that are alike. -/
theorem Alike.tryCatch (h : Alike S V x y) {f : ε → Prog σ ε α} {g : ε → Prog τ ε β}
    (hf : ∀ e, Alike S V (f e) (g e)) : Alike S V (tryCatch x f) (tryCatch y g) := by
  intro s t hs
  obtain ⟨hvalue, hstate⟩ := h s t hs
  rw [Prog.tryCatch, Prog.tryCatch]
  generalize x s = r, y t = q at hvalue hstate
  obtain ⟨o, s'⟩ := r
  obtain ⟨o', t'⟩ := q
  cases hvalue with
  | ok hab => exact ⟨.ok hab, hstate⟩
  | throw e => exact hf e s' t' hstate
  | ub => exact ⟨.ub, hstate⟩

/-- Computations that are alike from equal states, with equal values, are equal. -/
theorem Alike.eq {x y : Prog σ ε α} (h : Alike (fun s t => s = t) (fun a b => a = b) x y) :
    x = y := by
  funext s
  obtain ⟨hvalue, hstate⟩ := h s s rfl
  exact Prod.ext hvalue.eq hstate

/-- A program is like itself when it starts in one state. -/
theorem alike_of_eq {x y : Prog σ ε α} (h : x = y) :
    Alike (fun s t => s = t) (fun a b => a = b) x y := by
  rintro s _ rfl
  rw [h]
  exact ⟨Outcome.rel_refl _, rfl⟩

end Prog

end Effect
