import AiSwitch.Common.Transition
import Mathlib.Logic.Function.Basic
import Mathlib.Logic.Relation

/-!
# Atomic objects

What the threads that share an object are to see: an operation takes effect at one point between its
call and its return. `Step` is the object that does this, for any sequential specification, and a
history of calls and returns is `Linearizable` if this object has it.

An implementation is shown to have only such histories by `runs_of_simulation`. What a history tells
of the store is had from `exists_point`.
-/

namespace AtomicObject

open Transition

variable {ι Op Res σ : Type*}

/-- What an operation may do to the store in one go, and what it may then return. -/
abbrev Spec (Op Res σ : Type*) := Op → σ → σ → Res → Prop

/-- What is seen of the threads. -/
inductive Event (ι Op Res : Type*) where
  | call (t : ι) (op : Op)
  | ret (t : ι) (result : Res)

def Event.thread : Event ι Op Res → ι
  | call t _ | ret t _ => t

/-- How far a thread is: it has called an operation, and the operation has taken effect. -/
inductive Phase (Op σ : Type*) where
  | idle
  | called (op : Op)
  | done (op : Op) (before after : σ)

structure State (ι Op σ : Type*) where
  store : σ
  phase : ι → Phase Op σ

variable [DecidableEq ι] (spec : Spec Op Res σ)

/-- One event, or `none` where an operation takes effect. The result is left open until the
operation returns, since an operation that may fail can still do so after it has taken effect. -/
inductive Step : State ι Op σ → Option (Event ι Op Res) → State ι Op σ → Prop where
  | call {s : State ι Op σ} {t : ι} {op : Op} (h : s.phase t = .idle) :
      Step s (some (.call t op)) { s with phase := Function.update s.phase t (.called op) }
  | perform {s : State ι Op σ} {t : ι} {op : Op} {after : σ} {result : Res}
      (h : s.phase t = .called op) (hspec : spec op s.store after result) :
      Step s none ⟨after, Function.update s.phase t (.done op s.store after)⟩
  | ret {s : State ι Op σ} {t : ι} {op : Op} {before after : σ} {result : Res}
      (h : s.phase t = .done op before after) (hspec : spec op before after result) :
      Step s (some (.ret t result)) { s with phase := Function.update s.phase t .idle }

/-- Steps one after another, with the events among them. -/
inductive Runs : State ι Op σ → List (Event ι Op Res) → State ι Op σ → Prop where
  | refl (s : State ι Op σ) : Runs s [] s
  | silent {s m s' : State ι Op σ} {es : List (Event ι Op Res)} (h : Step spec s none m)
      (hruns : Runs m es s') : Runs s es s'
  | event {s m s' : State ι Op σ} {e : Event ι Op Res} {es : List (Event ι Op Res)}
      (h : Step spec s (some e) m) (hruns : Runs m es s') : Runs s (e :: es) s'

/-- The object has this history from a store on which no thread is doing anything. -/
def Linearizable (store : σ) (history : List (Event ι Op Res)) (store' : σ) : Prop :=
  ∃ phase, Runs spec ⟨store, fun _ => .idle⟩ history ⟨store', phase⟩

/-- Some operations lead from one store to the other. -/
def Reaches : σ → σ → Prop := Relation.ReflTransGen fun s s' => ∃ op result, spec op s s' result

variable {spec} {s m s' : State ι Op σ} {es fs : List (Event ι Op Res)} {t : ι} {op : Op}

/-! ## Runs -/

/-- One step with an event is a run of it. -/
theorem Runs.single {e : Event ι Op Res} (h : Step spec s (some e) s') : Runs spec s [e] s' :=
  .event h (.refl s')

/-- Two runs, one from where the other ends, are one run. -/
theorem Runs.append (h : Runs spec s es m) (h' : Runs spec m fs s') :
    Runs spec s (es ++ fs) s' := by
  induction h with
  | refl s => exact h'
  | silent hstep _ ih => exact .silent hstep (ih h')
  | event hstep _ ih => exact .event hstep (ih h')

/-- A run can be cut between any two of its events. -/
theorem Runs.split (h : Runs spec s (es ++ fs) s') :
    ∃ m, Runs spec s es m ∧ Runs spec m fs s' := by
  generalize hall : es ++ fs = all at h
  induction h generalizing es with
  | refl s =>
    obtain ⟨rfl, rfl⟩ := List.append_eq_nil_iff.mp hall
    exact ⟨s, .refl s, .refl s⟩
  | silent hstep _ ih =>
    obtain ⟨m, hes, hfs⟩ := ih hall
    exact ⟨m, .silent hstep hes, hfs⟩
  | @event s m s' e all hstep hrest ih =>
    rcases List.append_eq_cons_iff.mp hall with ⟨rfl, rfl⟩ | ⟨es, rfl, rfl⟩
    · exact ⟨s, .refl s, .event hstep hrest⟩
    · obtain ⟨m, hes, hfs⟩ := ih rfl
      exact ⟨m, .event hstep hes, hfs⟩

/-- **The rule of simulation.** If every step of an implementation is one of the object, up to steps
that are not seen, then the object has every history that the implementation has. -/
theorem runs_of_simulation {κ ℓ : Type*} {step : κ → ℓ → Option κ}
    {visible : ℓ → Option (Event ι Op Res)} {R : κ → State ι Op σ → Prop}
    (hsim : ∀ c a c' s, R c s → step c a = some c' →
      ∃ s', Runs spec s (visible a).toList s' ∧ R c' s') {c c' : κ} {as : List ℓ} (hR : R c s)
    (hrun : run step c as = some c') :
    ∃ s', Runs spec s (as.filterMap visible) s' ∧ R c' s' := by
  induction as generalizing c s with
  | nil =>
    cases hrun
    exact ⟨s, .refl s, hR⟩
  | cons a as ih =>
    obtain ⟨d, hd, hrest⟩ := run_cons.mp hrun
    obtain ⟨m, hm, hRm⟩ := hsim c a d s hR hd
    obtain ⟨s', hs', hR'⟩ := ih hRm hrest
    refine ⟨s', ?_, hR'⟩
    cases hvisible : visible a with
    | none =>
      rw [hvisible] at hm
      rw [List.filterMap_cons_none hvisible]
      exact hm.append hs'
    | some e =>
      rw [hvisible] at hm
      rw [List.filterMap_cons_some hvisible]
      exact hm.append hs'

/-! ## What the threads see -/

/-- One step reaches its store. -/
theorem Step.reaches {e : Option (Event ι Op Res)} (h : Step spec s e m) :
    Reaches spec s.store m.store := by
  cases h with
  | call | ret => exact .refl
  | perform h hspec => exact .single ⟨_, _, hspec⟩

/-- An operation that was called on `store` is still to take effect, or has done so since. -/
def UnderWay (spec : Spec Op Res σ) (store : σ) (t : ι) (op : Op) (s : State ι Op σ) : Prop :=
  Reaches spec store s.store ∧ (s.phase t = .called op ∨
    ∃ before after, s.phase t = .done op before after ∧ Reaches spec store before ∧
      Reaches spec after s.store)

/-- No step of another thread changes that, nor the step in which it takes effect. -/
theorem UnderWay.step {store : σ} {e : Option (Event ι Op Res)} (h : UnderWay spec store t op s)
    (hstep : Step spec s e m) (he : ∀ event ∈ e, event.thread ≠ t) :
    UnderWay spec store t op m := by
  have hsince : Reaches spec store m.store := h.1.trans hstep.reaches
  refine ⟨hsince, ?_⟩
  -- the phase of `t` stays as it is, unless `t` performs its operation
  have hkept : m.phase t = s.phase t → m.phase t = .called op ∨
      ∃ before after, m.phase t = .done op before after ∧ Reaches spec store before ∧
        Reaches spec after m.store := by
    intro hphase
    rw [hphase]
    refine h.2.imp_right fun hdone => ?_
    obtain ⟨before, after, hdone, hbefore, hafter⟩ := hdone
    exact ⟨before, after, hdone, hbefore, hafter.trans hstep.reaches⟩
  cases hstep with
  | @call u op' hu =>
    have hut : t ≠ u := (he _ rfl).symm
    exact hkept (Function.update_of_ne hut _ _)
  | @ret u op' before after result hu hspec =>
    have hut : t ≠ u := (he _ rfl).symm
    exact hkept (Function.update_of_ne hut _ _)
  | @perform u op' after result hu hspec =>
    by_cases hut : t = u
    · subst hut
      obtain rfl : op = op' := by
        rcases h.2 with hcalled | ⟨_, _, hdone, -⟩
        · rw [hu] at hcalled
          cases hcalled
          rfl
        · rw [hu] at hdone
          cases hdone
      exact .inr ⟨s.store, after, Function.update_self _ _ _, h.1, .refl⟩
    · exact hkept (Function.update_of_ne hut _ _)

/-- An operation stays under way while the others run. -/
theorem UnderWay.runs {store : σ} (h : UnderWay spec store t op s) (hruns : Runs spec s es m)
    (hes : ∀ e ∈ es, e.thread ≠ t) : UnderWay spec store t op m := by
  induction hruns with
  | refl => exact h
  | silent hstep _ ih => exact ih (h.step hstep (by simp)) hes
  | event hstep _ ih =>
    obtain ⟨he, hes⟩ := List.forall_mem_cons.mp hes
    exact ih (h.step hstep (by simpa using he)) hes

/-- What stands at the head of a history happens first, but for the effects of operations. -/
theorem Runs.exists_step {e : Event ι Op Res} (h : Runs spec s (e :: es) s') :
    ∃ m m', Runs spec s [] m ∧ Step spec m (some e) m' ∧ Runs spec m' es s' := by
  generalize hall : e :: es = all at h
  induction h with
  | refl => cases hall
  | silent hstep _ ih =>
    obtain ⟨m, m', hm, he, hes⟩ := ih hall
    exact ⟨m, m', .silent hstep hm, he, hes⟩
  | event hstep hrest _ =>
    cases hall
    exact ⟨_, _, .refl _, hstep, hrest⟩

/-- A run reaches its last store. -/
theorem Runs.reaches (h : Runs spec s es s') : Reaches spec s.store s'.store := by
  induction h with
  | refl => exact .refl
  | silent hstep _ ih => exact hstep.reaches.trans ih
  | event hstep _ ih => exact hstep.reaches.trans ih

/-- A piece of a history: a thread calls an operation, and the operation returns. -/
def IsCall (t : ι) (op : Op) (result : Res) (es : List (Event ι Op Res)) : Prop :=
  ∃ mid, es = .call t op :: (mid ++ [.ret t result]) ∧ ∀ e ∈ mid, e.thread ≠ t

/-- **The point of an operation.** It takes effect, with the result that it returns, on a store
between those of its call and its return. -/
theorem exists_point {result : Res} (h : Runs spec s es s') (hcall : IsCall t op result es) :
    ∃ before after, Reaches spec s.store before ∧ spec op before after result ∧
      Reaches spec after s'.store := by
  obtain ⟨mid, rfl, hmid⟩ := hcall
  obtain ⟨m, m', hm, hcall, hrest⟩ := h.exists_step
  obtain ⟨n, hn, hret⟩ := hrest.split
  obtain ⟨p, p', hp, hret, hs'⟩ := hret.exists_step
  have hunder : UnderWay spec s.store t op m' := by
    refine ⟨hm.reaches.trans hcall.reaches, .inl ?_⟩
    cases hcall with
    | call h => exact Function.update_self _ _ _
  have hunder' := (hunder.runs hn hmid).runs hp (List.forall_mem_nil _)
  have hafter := hret.reaches.trans hs'.reaches
  cases hret with
  | @ret _ op' before after _ hdone hspec =>
    rcases hunder'.2 with hcalled | ⟨before', after', hdone', hbefore, hsince⟩
    · rw [hdone] at hcalled
      cases hcalled
    · rw [hdone] at hdone'
      cases hdone'
      exact ⟨before, after, hbefore, hspec, hsince.trans hafter⟩

/-- Operations that follow each other take effect in this order. -/
theorem Linearizable.exists_points {store store' : σ} {u : ι} {op' : Op} {result result' : Res}
    {c c' h₁ h₂ h₃ : List (Event ι Op Res)}
    (h : Linearizable spec store (h₁ ++ (c ++ (h₂ ++ (c' ++ h₃)))) store')
    (hc : IsCall t op result c) (hc' : IsCall u op' result' c') :
    ∃ b a b' a', Reaches spec store b ∧ spec op b a result ∧ Reaches spec a b' ∧
      spec op' b' a' result' := by
  obtain ⟨phase, hruns⟩ := h
  obtain ⟨m₁, hm₁, hrest⟩ := hruns.split
  obtain ⟨m₂, hm₂, hrest⟩ := hrest.split
  obtain ⟨m₃, hm₃, hrest⟩ := hrest.split
  obtain ⟨m₄, hm₄, -⟩ := hrest.split
  obtain ⟨b, a, hb, hspec, ha⟩ := exists_point hm₂ hc
  obtain ⟨b', a', hb', hspec', -⟩ := exists_point hm₄ hc'
  exact ⟨b, a, b', a', hm₁.reaches.trans hb, hspec, (ha.trans hm₃.reaches).trans hb', hspec'⟩

/-! ## Invariants of the store -/

/-- What every operation keeps holds of the stores that are reached. -/
theorem Reaches.keeps {P : σ → Prop} {a b : σ} (h : Reaches spec a b)
    (hP : ∀ op s s' result, P s → spec op s s' result → P s') (ha : P a) : P b := by
  induction h with
  | refl => exact ha
  | tail _ hstep ih =>
    obtain ⟨op, result, hspec⟩ := hstep
    exact hP op _ _ result ih hspec

/-- The operations of a kind. -/
def Spec.only (spec : Spec Op Res σ) (P : Op → Prop) : Spec Op Res σ :=
  fun op s s' result => P op ∧ spec op s s' result

def Event.Admits (P : Op → Prop) : Event ι Op Res → Prop
  | call _ op => P op
  | ret _ _ => True

/-- The operation that a thread is at. -/
def Phase.Admits (P : Op → Prop) : Phase Op σ → Prop
  | idle => True
  | called op | done op _ _ => P op

/-- A step of operations that are all in `P` is one of the object that offers no others. -/
theorem Step.only {P : Op → Prop} {e : Option (Event ι Op Res)} (h : Step spec s e m)
    (hs : ∀ t, (s.phase t).Admits P) (he : ∀ event ∈ e, event.Admits P) :
    Step (spec.only P) s e m ∧ ∀ t, (m.phase t).Admits P := by
  have hupdate : ∀ {t : ι} {phase : Phase Op σ}, phase.Admits P →
      ∀ u, (Function.update s.phase t phase u).Admits P := fun hphase =>
    (Function.forall_update_iff s.phase fun _ phase => phase.Admits P).mpr
      ⟨hphase, fun u _ => hs u⟩
  cases h with
  | call hidle => exact ⟨.call hidle, hupdate (he _ rfl)⟩
  | @perform t op after result hcalled hspec =>
    have hop : P op := by
      have ht := hs t
      rwa [hcalled] at ht
    exact ⟨.perform hcalled ⟨hop, hspec⟩, hupdate hop⟩
  | @ret t op before after result hdone hspec =>
    have hop : P op := by
      have ht := hs t
      rwa [hdone] at ht
    exact ⟨.ret hdone ⟨hop, hspec⟩, hupdate trivial⟩

/-- A run of operations that are all in `P` is one of the object that offers no others. -/
theorem Runs.only {P : Op → Prop} (h : Runs spec s es s') (hs : ∀ t, (s.phase t).Admits P)
    (hes : ∀ e ∈ es, e.Admits P) : Runs (spec.only P) s es s' := by
  induction h with
  | refl s => exact .refl s
  | silent hstep _ ih =>
    obtain ⟨hstep', hm⟩ := hstep.only hs (by simp)
    exact .silent hstep' (ih hm hes)
  | event hstep _ ih =>
    obtain ⟨he, hes⟩ := List.forall_mem_cons.mp hes
    obtain ⟨hstep', hm⟩ := hstep.only hs (by simpa using he)
    exact .event hstep' (ih hm hes)

/-- Only operations that are called take effect. -/
theorem Linearizable.only {P : Op → Prop} {store store' : σ} (h : Linearizable spec store es store')
    (hes : ∀ e ∈ es, e.Admits P) : Linearizable (spec.only P) store es store' := by
  obtain ⟨phase, hruns⟩ := h
  exact ⟨phase, hruns.only (fun _ => trivial) hes⟩

/-- The beginning of a linearizable history is linearizable. -/
theorem Linearizable.of_append {store store' : σ} (h : Linearizable spec store (es ++ fs) store') :
    ∃ store', Linearizable spec store es store' := by
  obtain ⟨phase, hruns⟩ := h
  obtain ⟨m, hm, -⟩ := hruns.split
  exact ⟨m.store, m.phase, hm⟩

end AtomicObject
