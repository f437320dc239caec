/-
Computations in `Except`, taken apart.

A computation that ends well has ended well at every step, so a statement about
its result is a statement about the intermediate values.  The lemmas here peel
one step off, and describe the searches `anyM` and `filterM` by the predicate
they evaluate.
-/
import Mathlib.Data.List.Basic

namespace Fallible

universe u v

variable {ε : Type v} {α β : Type u}

theorem ok_bind (a : α) (f : α → Except ε β) : (Except.ok a >>= f) = f a := rfl

theorem error_bind (e : ε) (f : α → Except ε β) :
    ((Except.error e : Except ε α) >>= f) = .error e := rfl

theorem bind_eq_ok {x : Except ε α} {f : α → Except ε β} {b : β} :
    (x >>= f) = .ok b ↔ ∃ a, x = .ok a ∧ f a = .ok b := by
  cases x with
  | error e =>
    rw [error_bind]
    constructor
    · intro h
      cases h
    · rintro ⟨a, h, -⟩
      cases h
  | ok a =>
    rw [ok_bind]
    constructor
    · intro h
      exact ⟨a, rfl, h⟩
    · rintro ⟨a', h, hf⟩
      cases h
      exact hf

/-- A computation that faults does so at one of its steps. -/
theorem bind_eq_error {x : Except ε α} {f : α → Except ε β} {e : ε} :
    (x >>= f) = .error e ↔ x = .error e ∨ ∃ a, x = .ok a ∧ f a = .error e := by
  cases x with
  | error e' =>
    rw [error_bind]
    constructor
    · intro h
      cases h
      exact Or.inl rfl
    · rintro (h | ⟨a, h, -⟩)
      · cases h
        rfl
      · cases h
  | ok a =>
    rw [ok_bind]
    constructor
    · intro h
      exact Or.inr ⟨a, rfl, h⟩
    · rintro (h | ⟨a', h, hf⟩)
      · cases h
      · cases h
        exact hf

/-! ## Searches -/

/-- The answer of a test, a fault counting as no. -/
def holds : Except ε Bool → Bool
  | .ok b => b
  | .error _ => false

/-- Whether some element passes a test that may fault, stopping at the first
that does. -/
def any (p : α → Except ε Bool) : List α → Except ε Bool
  | [] => .ok false
  | a :: rest =>
    match p a with
    | .error e => .error e
    | .ok true => .ok true
    | .ok false => any p rest

def filter (p : α → Except ε Bool) : List α → Except ε (List α)
  | [] => .ok []
  | a :: rest =>
    match p a with
    | .error e => .error e
    | .ok keep =>
      match filter p rest with
      | .error e => .error e
      | .ok kept => .ok (if keep then a :: kept else kept)

theorem holds_eq_true {x : Except ε Bool} : holds x = true ↔ x = .ok true := by
  cases x with
  | error e => exact ⟨fun h => Bool.noConfusion h, fun h => by cases h⟩
  | ok b => exact ⟨fun h => congrArg Except.ok h, fun h => Except.ok.inj h⟩

theorem eq_holds {x : Except ε Bool} {b : Bool} (h : x = .ok b) : b = holds x := by
  rw [h]
  rfl

/-- A search that ends well agrees with any predicate its test agrees with. -/
theorem any_ok {p : α → Except ε Bool} {q : α → Bool} (hq : ∀ a b, p a = .ok b → b = q a)
    {l : List α} {r : Bool} (h : any p l = .ok r) : r = l.any q := by
  induction l with
  | nil =>
    cases h
    rfl
  | cons a rest ih =>
    simp only [any] at h
    rw [List.any_cons]
    split at h
    · cases h
    · rename_i hp
      cases h
      rw [← hq a true hp, Bool.true_or]
    · rename_i hp
      rw [← hq a false hp, Bool.false_or]
      exact ih h

theorem filter_ok {p : α → Except ε Bool} {q : α → Bool} (hq : ∀ a b, p a = .ok b → b = q a)
    {l l' : List α} (h : filter p l = .ok l') : l' = l.filter q := by
  induction l generalizing l' with
  | nil =>
    cases h
    rfl
  | cons a rest ih =>
    simp only [filter] at h
    split at h
    · cases h
    · rename_i keep hp
      split at h
      · cases h
      · rename_i kept hrest
        cases h
        rw [List.filter_cons, hq a keep hp, ih hrest]

/-- A search whose test never faults does not fault. -/
theorem any_returns {p : α → Except ε Bool} {l : List α} (h : ∀ a ∈ l, ∃ b, p a = .ok b) :
    ∃ b, any p l = .ok b := by
  induction l with
  | nil => exact ⟨false, rfl⟩
  | cons a rest ih =>
    obtain ⟨⟨b, ha⟩, hrest⟩ := List.forall_mem_cons.mp h
    unfold any
    rw [ha]
    cases b with
    | true => exact ⟨true, rfl⟩
    | false => exact ih hrest

theorem filter_returns {p : α → Except ε Bool} {l : List α} (h : ∀ a ∈ l, ∃ b, p a = .ok b) :
    ∃ l', filter p l = .ok l' := by
  induction l with
  | nil => exact ⟨[], rfl⟩
  | cons a rest ih =>
    obtain ⟨⟨b, ha⟩, hrest⟩ := List.forall_mem_cons.mp h
    obtain ⟨kept, hkept⟩ := ih hrest
    unfold filter
    rw [ha, hkept]
    exact ⟨_, rfl⟩

/-- A search that faults does so at one of its elements. -/
theorem any_fault {p : α → Except ε Bool} {P : ε → Prop} {l : List α}
    (h : ∀ a ∈ l, ∀ e, p a = .error e → P e) {e : ε} (hany : any p l = .error e) : P e := by
  induction l with
  | nil => cases hany
  | cons a rest ih =>
    obtain ⟨ha, hrest⟩ := List.forall_mem_cons.mp h
    simp only [any] at hany
    split at hany
    · rename_i hp
      cases hany
      exact ha e hp
    · cases hany
    · exact ih hrest hany

theorem filter_fault {p : α → Except ε Bool} {P : ε → Prop} {l : List α}
    (h : ∀ a ∈ l, ∀ e, p a = .error e → P e) {e : ε} (hfilter : filter p l = .error e) : P e := by
  induction l with
  | nil => cases hfilter
  | cons a rest ih =>
    obtain ⟨ha, hrest⟩ := List.forall_mem_cons.mp h
    simp only [filter] at hfilter
    split at hfilter
    · rename_i hp
      cases hfilter
      exact ha e hp
    · split at hfilter
      · rename_i hr
        cases hfilter
        exact ih hrest hr
      · cases hfilter

/-! ## Folds -/

/-- A fold whose steps, seen through `view`, are pure steps wherever they end well
is the pure fold. -/
theorem foldlM_view {γ : Type u} {f : β → α → Except ε β} {view : β → γ} {g : γ → α → γ}
    (hstep : ∀ b a b', f b a = .ok b' → view b' = g (view b) a) {l : List α} {b b' : β}
    (h : l.foldlM f b = .ok b') : view b' = l.foldl g (view b) := by
  induction l generalizing b with
  | nil =>
    cases h
    rfl
  | cons a rest ih =>
    rw [List.foldlM_cons, bind_eq_ok] at h
    obtain ⟨b₁, h₁, h₂⟩ := h
    rw [ih h₂, hstep b a b₁ h₁]
    rfl

theorem foldlM_invariant {f : β → α → Except ε β} {Inv : β → Prop}
    (hstep : ∀ b a b', Inv b → f b a = .ok b' → Inv b') {l : List α} {b b' : β} (hb : Inv b)
    (h : l.foldlM f b = .ok b') : Inv b' := by
  induction l generalizing b with
  | nil =>
    cases h
    exact hb
  | cons a rest ih =>
    rw [List.foldlM_cons, bind_eq_ok] at h
    obtain ⟨b₁, h₁, h₂⟩ := h
    exact ih (hstep b a b₁ hb h₁) h₂

theorem foldlM_returns {f : β → α → Except ε β} {l : List α}
    (h : ∀ a ∈ l, ∀ b, ∃ b', f b a = .ok b') (b : β) : ∃ b', l.foldlM f b = .ok b' := by
  induction l generalizing b with
  | nil => exact ⟨b, rfl⟩
  | cons a rest ih =>
    obtain ⟨ha, hrest⟩ := List.forall_mem_cons.mp h
    obtain ⟨b₁, h₁⟩ := ha b
    rw [List.foldlM_cons, h₁]
    exact ih hrest b₁

/-- A fold that ends well has ended well at each of its elements. -/
theorem foldlM_steps {f : β → α → Except ε β} {l : List α} {b b' : β}
    (h : l.foldlM f b = .ok b') : ∀ a ∈ l, ∃ b₁ b₂, f b₁ a = .ok b₂ := by
  induction l generalizing b with
  | nil => exact fun a ha => absurd ha List.not_mem_nil
  | cons a rest ih =>
    rw [List.foldlM_cons, bind_eq_ok] at h
    obtain ⟨b₁, h₁, h₂⟩ := h
    exact List.forall_mem_cons.mpr ⟨⟨b, b₁, h₁⟩, ih h₂⟩

theorem foldlM_fault {f : β → α → Except ε β} {P : ε → Prop}
    (h : ∀ b a e, f b a = .error e → P e) {l : List α} {b : β} {e : ε}
    (hfold : l.foldlM f b = .error e) : P e := by
  induction l generalizing b with
  | nil => cases hfold
  | cons a rest ih =>
    rw [List.foldlM_cons] at hfold
    rcases bind_eq_error.mp hfold with hstep | ⟨b₁, -, hrest⟩
    · exact h b a e hstep
    · exact ih hrest

end Fallible
