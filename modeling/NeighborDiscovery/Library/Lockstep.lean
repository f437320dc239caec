/-
Two computations in lockstep.

Computations that may fail end alike if both end with an error, the same for both, or
both with values in some relation.  The relation is kept step by step, and a run
follows another where single steps do.
-/
import NeighborDiscovery.Library.Runs

namespace Lockstep

universe u v

section Except

variable {ε : Type v} {α β γ δ : Type u} {R : α → β → Prop} {S : γ → δ → Prop}

/-- Both end with related values, or both with one error. -/
inductive Alike (R : α → β → Prop) : Except ε α → Except ε β → Prop where
  | ok {a : α} {b : β} : R a b → Alike R (.ok a) (.ok b)
  | error (e : ε) : Alike R (.error e) (.error e)

theorem Alike.refl {R : α → α → Prop} (hR : ∀ a, R a a) (x : Except ε α) : Alike R x x := by
  cases x with
  | error e => exact .error e
  | ok a => exact .ok (hR a)

theorem Alike.bind {x : Except ε α} {y : Except ε β} {f : α → Except ε γ} {g : β → Except ε δ}
    (h : Alike R x y) (hf : ∀ a b, R a b → Alike S (f a) (g b)) : Alike S (x >>= f) (y >>= g) := by
  cases h with
  | ok hab => exact hf _ _ hab
  | error e => exact .error e

/-- What the second computation ends with, where the first ends well. -/
theorem Alike.of_ok {x : Except ε α} {y : Except ε β} (h : Alike R x y) {a : α} (hx : x = .ok a) :
    ∃ b, y = .ok b ∧ R a b := by
  cases h with
  | ok hab =>
    cases hx
    exact ⟨_, rfl, hab⟩
  | error e => cases hx

end Except

section State

variable {ε : Type v} {σ α β γ δ : Type u} {R : α → β → Prop} {S : γ → δ → Prop}

/-- From every state both end alike, and in one state. -/
def Steps (R : α → β → Prop) (x : StateT σ (Except ε) α) (y : StateT σ (Except ε) β) : Prop :=
  ∀ s, Alike (fun p q => R p.1 q.1 ∧ p.2 = q.2) (x s) (y s)

theorem Steps.refl {R : α → α → Prop} (hR : ∀ a, R a a) (x : StateT σ (Except ε) α) :
    Steps R x x := fun s => Alike.refl (fun p => ⟨hR p.1, rfl⟩) (x s)

theorem Steps.pure {a : α} {b : β} (h : R a b) :
    Steps R (Pure.pure a : StateT σ (Except ε) α) (Pure.pure b) := fun _ => .ok ⟨h, rfl⟩

theorem Steps.lift {x : Except ε α} {y : Except ε β} (h : Alike R x y) :
    Steps R (liftM x : StateT σ (Except ε) α) (liftM y) := by
  intro s
  cases h with
  | ok hab => exact .ok ⟨hab, rfl⟩
  | error e => exact .error e

theorem Steps.bind {x : StateT σ (Except ε) α} {y : StateT σ (Except ε) β}
    {f : α → StateT σ (Except ε) γ} {g : β → StateT σ (Except ε) δ} (h : Steps R x y)
    (hf : ∀ a b, R a b → Steps S (f a) (g b)) : Steps S (x >>= f) (y >>= g) := by
  intro s
  refine Alike.bind (h s) fun p q hpq => ?_
  obtain ⟨hR, hs⟩ := hpq
  show Alike _ (f p.1 p.2) (g q.1 q.2)
  rw [hs]
  exact hf p.1 q.1 hR q.2

end State

section Run

open Runs

variable {σ ι ο σ' ι' ο' : Type*} {step : σ → ι → ο → σ → Prop}
  {step' : σ' → ι' → ο' → σ' → Prop} {init : σ} {init' : σ'}

/-- Where each step has a step beside it, a run has a run on any inputs beside its own. -/
theorem run_beside (Inv : σ → σ' → Prop) (Q : ι → ι' → Prop) (P : ο → ο' → Prop)
    (hinit : Inv init init')
    (hstep : ∀ s t i o s' i', Inv s t → Q i i' → step s i o s' →
      ∃ o' t', step' t i' o' t' ∧ P o o' ∧ Inv s' t')
    {h : List (Event σ ι ο)} {s : σ} (hrun : Run step init h s) {inputs : List ι'}
    (hinputs : List.Forall₂ Q (h.map Event.input) inputs) :
    ∃ h' t, Run step' init' h' t ∧ h'.map Event.input = inputs ∧
      List.Forall₂ (fun e e' => P e.output e'.output ∧ Inv e.after e'.after) h h' ∧ Inv s t := by
  induction hrun generalizing inputs with
  | nil =>
    cases hinputs
    exact ⟨[], init', .nil, rfl, .nil, hinit⟩
  | snoc hrun hlast ih =>
    rw [List.map_append, List.map_singleton] at hinputs
    obtain ⟨before, i', hbefore, hQ, rfl⟩ := forall₂_snoc.mp hinputs
    obtain ⟨h', t, hrun', hmade, hpast, hInv⟩ := ih hbefore
    obtain ⟨o', t', hlast', hP, hInv'⟩ := hstep _ _ _ _ _ _ hInv hQ hlast
    refine ⟨h' ++ [⟨t, i', o', t'⟩], t', hrun'.snoc hlast', ?_, ?_, hInv'⟩
    · rw [List.map_append, hmade]
      rfl
    · exact forall₂_snoc.mpr ⟨h', _, hpast, ⟨hP, hInv'⟩, rfl⟩

end Run

end Lockstep
