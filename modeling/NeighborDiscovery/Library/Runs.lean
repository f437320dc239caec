/-
Runs of a step relation with the events they pass through.

A run is a list of events from an initial state, each event being one step with
the states before and after it, its input and its output.  An invariant may speak
of the events so far, and a property of single steps holds of every event of a
run once it holds wherever the invariant does.
-/
import Mathlib.Data.List.Forall2
import Mathlib.Data.List.Induction

namespace Runs

theorem snoc_eq_split {α : Type*} {l l₁ l₂ : List α} {a b : α} :
    l ++ [a] = l₁ ++ b :: l₂ ↔
      (l₂ = [] ∧ l = l₁ ∧ a = b) ∨ ∃ l₃, l₂ = l₃ ++ [a] ∧ l = l₁ ++ b :: l₃ := by
  constructor
  · intro h
    rcases List.eq_nil_or_concat l₂ with rfl | ⟨l₃, c, rfl⟩
    · obtain ⟨hl, hab⟩ := List.append_inj' h rfl
      exact Or.inl ⟨rfl, hl, (List.cons.inj hab).1⟩
    · have hparts : l ++ [a] = (l₁ ++ b :: l₃) ++ [c] := by
        rw [h, List.concat_eq_append, List.append_assoc, List.cons_append]
      obtain ⟨hl, hac⟩ := List.append_inj' hparts rfl
      rw [List.concat_eq_append, (List.cons.inj hac).1]
      exact Or.inr ⟨l₃, rfl, hl⟩
  · intro h
    rcases h with ⟨rfl, rfl, rfl⟩ | ⟨l₃, rfl, rfl⟩
    · rfl
    · rw [List.append_assoc, List.cons_append]

/-- An element of the list meets `P`, and none after it meets `Q`. -/
def Since {α : Type*} (P Q : α → Prop) (l : List α) : Prop :=
  ∃ l₁ a l₂, l = l₁ ++ a :: l₂ ∧ P a ∧ ∀ b ∈ l₂, ¬ Q b

theorem not_since_nil {α : Type*} {P Q : α → Prop} : ¬ Since P Q [] := by
  intro h
  obtain ⟨l₁, a, l₂, hl, -⟩ := h
  simp at hl

theorem since_snoc {α : Type*} {P Q : α → Prop} {l : List α} {a : α} :
    Since P Q (l ++ [a]) ↔ (Since P Q l ∧ ¬ Q a) ∨ P a := by
  constructor
  · intro h
    obtain ⟨l₁, b, l₂, hl, hb, hl₂⟩ := h
    rcases snoc_eq_split.mp hl with ⟨-, -, rfl⟩ | ⟨l₃, rfl, rfl⟩
    · exact Or.inr hb
    · exact Or.inl ⟨⟨l₁, b, l₃, rfl, hb, fun c hc => hl₂ c (List.mem_append_left _ hc)⟩,
        hl₂ a (by simp)⟩
  · intro h
    rcases h with ⟨⟨l₁, b, l₂, rfl, hb, hl₂⟩, ha⟩ | ha
    · refine ⟨l₁, b, l₂ ++ [a], by simp, hb, fun c hc => ?_⟩
      rcases List.mem_append.mp hc with hc | hc
      · exact hl₂ c hc
      · rwa [List.mem_singleton.mp hc]
    · exact ⟨l, a, [], rfl, ha, fun c hc => absurd hc List.not_mem_nil⟩

theorem since_append {α : Type*} {P Q : α → Prop} {l l' : List α} :
    Since P Q (l ++ l') ↔ (Since P Q l ∧ ∀ a ∈ l', ¬ Q a) ∨ Since P Q l' := by
  induction l' using List.reverseRecOn with
  | nil => simp [not_since_nil]
  | append_singleton l' a ih =>
    rw [← List.append_assoc, since_snoc, since_snoc, ih, List.forall_mem_append,
      List.forall_mem_singleton, or_and_right, and_assoc, or_assoc]

/-- What the elements of a list make, each at most one. -/
theorem since_filterMap {α β : Type*} {P Q : β → Prop} {f : α → Option β} {l : List α} :
    Since P Q (l.filterMap f) ↔ Since (fun a => ∃ b ∈ f a, P b) (fun a => ∃ b ∈ f a, Q b) l := by
  induction l using List.reverseRecOn with
  | nil => exact iff_of_false not_since_nil not_since_nil
  | append_singleton l a ih =>
    rw [List.filterMap_append, since_snoc, ← ih]
    cases h : f a with
    | none => simp [h]
    | some b =>
      rw [List.filterMap_cons_some h, List.filterMap_nil, since_snoc]
      simp

variable {σ ι ο : Type*}

structure Event (σ ι ο : Type*) where
  before : σ
  input : ι
  output : ο
  after : σ

variable (step : σ → ι → ο → σ → Prop) (init : σ)

/-- The events from `init` to a state, the last of them at the end. -/
inductive Run : List (Event σ ι ο) → σ → Prop where
  | nil : Run [] init
  | snoc {h : List (Event σ ι ο)} {s : σ} {i : ι} {o : ο} {s' : σ} :
      Run h s → step s i o s' → Run (h ++ [⟨s, i, o, s'⟩]) s'

variable {step init}

/-- What holds at the start and is kept by every step holds at the end, with the
events seen so far at hand. -/
theorem Run.invariant (Inv : List (Event σ ι ο) → σ → Prop) (hinit : Inv [] init)
    (hstep : ∀ h s i o s', Run step init h s → step s i o s' → Inv h s →
      Inv (h ++ [⟨s, i, o, s'⟩]) s')
    {h : List (Event σ ι ο)} {s : σ} (hrun : Run step init h s) : Inv h s := by
  induction hrun with
  | nil => exact hinit
  | snoc hrun hs ih => exact hstep _ _ _ _ _ hrun hs ih

/-- Every event is a step from a state that an initial part of the run reaches. -/
theorem Run.split {h₁ h₂ : List (Event σ ι ο)} {e : Event σ ι ο} {s : σ}
    (hrun : Run step init (h₁ ++ e :: h₂) s) :
    Run step init h₁ e.before ∧ step e.before e.input e.output e.after := by
  generalize hh : h₁ ++ e :: h₂ = h at hrun
  induction hrun generalizing h₂ with
  | nil => exact absurd hh (by simp)
  | @snoc h s i o s' hrun hs ih =>
    rcases snoc_eq_split.mp hh.symm with ⟨-, rfl, rfl⟩ | ⟨h₃, -, hsplit⟩
    · exact ⟨hrun, hs⟩
    · exact ih hsplit.symm

theorem Run.event {h : List (Event σ ι ο)} {s : σ} (hrun : Run step init h s)
    {e : Event σ ι ο} (he : e ∈ h) :
    ∃ h₁ h₂, h = h₁ ++ e :: h₂ ∧ Run step init h₁ e.before ∧
      step e.before e.input e.output e.after := by
  obtain ⟨h₁, h₂, rfl⟩ := List.append_of_mem he
  exact ⟨h₁, h₂, rfl, hrun.split⟩

theorem Run.last {h : List (Event σ ι ο)} {e : Event σ ι ο} {s : σ}
    (hrun : Run step init (h ++ [e]) s) :
    Run step init h e.before ∧ step e.before e.input e.output e.after ∧ s = e.after := by
  generalize hh : h ++ [e] = h' at hrun
  cases hrun with
  | nil => exact absurd hh (by simp)
  | snoc hrun hs =>
    obtain ⟨rfl, he⟩ := List.append_inj' hh rfl
    cases he
    exact ⟨hrun, hs, rfl⟩

/-- What holds at the start and is kept by every step that meets `Q` holds after
every step of a run whose steps all meet it. -/
theorem Run.forall_after (Inv : σ → Prop) (Q : Event σ ι ο → Prop) (hinit : Inv init)
    (hstep : ∀ e : Event σ ι ο, Q e → step e.before e.input e.output e.after → Inv e.before →
      Inv e.after)
    {h : List (Event σ ι ο)} {s : σ} (hrun : Run step init h s) (hQ : ∀ e ∈ h, Q e) :
    ∀ e ∈ h, Inv e.after := by
  have hall : Inv s ∧ ∀ e ∈ h, Inv e.after := by
    induction hrun with
    | nil => exact ⟨hinit, fun _ he => absurd he List.not_mem_nil⟩
    | @snoc h s i o s' hrun hs ih =>
      obtain ⟨hbefore, hpast⟩ := ih fun e he => hQ e (List.mem_append_left _ he)
      have hafter := hstep ⟨s, i, o, s'⟩ (hQ _ (by simp)) hs hbefore
      refine ⟨hafter, ?_⟩
      rw [List.forall_mem_append, List.forall_mem_singleton]
      exact ⟨hpast, hafter⟩
  exact hall.2

/-- Among steps that meet `Q`, where `P` after a step means that the step meets `C`,
given `P` before it and an invariant, `P` holds after every step of a run exactly
if every step meets `C`. -/
theorem Run.forall_after_iff (Inv P : σ → Prop) (Q C : Event σ ι ο → Prop) (hinv : Inv init)
    (hP : P init)
    (hkeep : ∀ e : Event σ ι ο, Q e → step e.before e.input e.output e.after → Inv e.before →
      Inv e.after)
    (hstep : ∀ e : Event σ ι ο, Q e → step e.before e.input e.output e.after → Inv e.before →
      P e.before → (P e.after ↔ C e))
    {h : List (Event σ ι ο)} {s : σ} (hrun : Run step init h s) (hQ : ∀ e ∈ h, Q e) :
    (∀ e ∈ h, P e.after) ↔ ∀ e ∈ h, C e := by
  have hall : Inv s ∧ ((∀ e ∈ h, P e.after) ↔ ∀ e ∈ h, C e) ∧ ((∀ e ∈ h, P e.after) → P s) := by
    induction hrun with
    | nil => exact ⟨hinv, ⟨fun _ e he => absurd he List.not_mem_nil,
        fun _ e he => absurd he List.not_mem_nil⟩, fun _ => hP⟩
    | @snoc h s i o s' hrun hs ih =>
      have hlast : Q ⟨s, i, o, s'⟩ := hQ _ (by simp)
      obtain ⟨hbefore, hiff, hend⟩ := ih fun e he => hQ e (List.mem_append_left _ he)
      have hone := hstep ⟨s, i, o, s'⟩ hlast hs hbefore
      simp only [List.forall_mem_append, List.forall_mem_singleton]
      refine ⟨hkeep ⟨s, i, o, s'⟩ hlast hs hbefore, ⟨fun hall => ?_, fun hall => ?_⟩,
        fun hall => hall.2⟩
      · exact ⟨hiff.mp hall.1, (hone (hend hall.1)).mp hall.2⟩
      · have hprev := hiff.mpr hall.1
        exact ⟨hprev, (hone (hend hprev)).mpr hall.2⟩
  exact hall.2.1

/-- An event as a function of states, of inputs and of outputs shows it. -/
def Event.map {σ' ι' ο' : Type*} (f : σ → σ') (g : ι → ι') (k : ο → ο') (e : Event σ ι ο) :
    Event σ' ι' ο' := ⟨f e.before, g e.input, k e.output, f e.after⟩

/-- A run shows as a run where every step does. -/
theorem Run.map {σ' ι' ο' : Type*} {step' : σ' → ι' → ο' → σ' → Prop} (f : σ → σ')
    (g : ι → ι') (k : ο → ο')
    (hstep : ∀ s i o s', step s i o s' → step' (f s) (g i) (k o) (f s'))
    {h : List (Event σ ι ο)} {s : σ} (hrun : Run step init h s) :
    Run step' (f init) (h.map (Event.map f g k)) (f s) := by
  induction hrun with
  | nil => exact .nil
  | snoc hrun hlast ih =>
    rw [List.map_append]
    exact ih.snoc (hstep _ _ _ _ hlast)

/-- The events of a step function on given inputs, where it takes them all. -/
def follow (f : σ → ι → Option (σ × ο)) (s : σ) : List ι → Option (List (Event σ ι ο) × σ)
  | [] => some ([], s)
  | i :: is =>
    match f s i with
    | none => none
    | some (s', o) => (follow f s' is).map fun r => (⟨s, i, o, s'⟩ :: r.1, r.2)

theorem Run.follow {f : σ → ι → Option (σ × ο)} (hf : ∀ s i s' o, f s i = some (s', o) → step s i o s')
    {h h' : List (Event σ ι ο)} {s s' : σ} {is : List ι} (hrun : Run step init h s)
    (his : Runs.follow f s is = some (h', s')) :
    Run step init (h ++ h') s' ∧ h'.map (·.input) = is := by
  induction is generalizing h h' s with
  | nil =>
    cases his
    rw [List.append_nil]
    exact ⟨hrun, rfl⟩
  | cons i is ih =>
    simp only [Runs.follow] at his
    split at his
    · cases his
    · rename_i s₁ o hstep
      obtain ⟨r, hrest, heq⟩ := Option.map_eq_some_iff.mp his
      cases heq
      obtain ⟨hall, hinputs⟩ := ih (hrun.snoc (hf s i s₁ o hstep)) hrest
      rw [← List.append_cons] at hall
      exact ⟨hall, congrArg (i :: ·) hinputs⟩

theorem forall₂_snoc {α β : Type*} {R : α → β → Prop} {l : List α} {l' : List β} {a : α} :
    List.Forall₂ R (l ++ [a]) l' ↔ ∃ l₀ b, List.Forall₂ R l l₀ ∧ R a b ∧ l' = l₀ ++ [b] := by
  constructor
  · intro h
    induction l generalizing l' with
    | nil =>
      obtain ⟨b, l₀, hab, hnil, rfl⟩ := List.forall₂_cons_left_iff.mp h
      cases hnil
      exact ⟨[], b, .nil, hab, rfl⟩
    | cons c l ih =>
      obtain ⟨d, l₁, hcd, hrest, rfl⟩ := List.forall₂_cons_left_iff.mp h
      obtain ⟨l₀, b, hl, hab, rfl⟩ := ih hrest
      exact ⟨d :: l₀, b, .cons hcd hl, hab, rfl⟩
  · intro h
    obtain ⟨l₀, b, hl, hab, rfl⟩ := h
    exact List.rel_append hl (.cons hab .nil)

/-- Two runs whose events are related one by one, and whose steps keep a relation
between the states, are in related states after every pair of events. -/
theorem Run.forall₂_after {σ' ι' ο' : Type*} {step' : σ' → ι' → ο' → σ' → Prop} {init' : σ'}
    (Inv : σ → σ' → Prop) (R : Event σ ι ο → Event σ' ι' ο' → Prop) (hinit : Inv init init')
    {h : List (Event σ ι ο)} {h' : List (Event σ' ι' ο')} {s : σ} {s' : σ'}
    (hrun : Run step init h s) (hrun' : Run step' init' h' s')
    (hstep : ∀ e ∈ h, ∀ e' ∈ h', R e e' → step e.before e.input e.output e.after →
      step' e'.before e'.input e'.output e'.after → Inv e.before e'.before → Inv e.after e'.after)
    (hR : List.Forall₂ R h h') : List.Forall₂ (fun e e' => Inv e.after e'.after) h h' := by
  have hall : Inv s s' ∧ List.Forall₂ (fun e e' => Inv e.after e'.after) h h' := by
    induction hrun generalizing h' s' with
    | nil =>
      cases List.forall₂_nil_left_iff.mp hR
      generalize hnil : ([] : List (Event σ' ι' ο')) = l at hrun'
      cases hrun' with
      | nil => exact ⟨hinit, .nil⟩
      | snoc _ _ => exact absurd hnil (by simp)
    | @snoc h s i o t hrun hs ih =>
      obtain ⟨h₀, e', hpast, hlast, rfl⟩ := forall₂_snoc.mp hR
      obtain ⟨hbefore, hs', rfl⟩ := hrun'.last
      have hprev := ih hbefore (fun e he e' he' => hstep e (List.mem_append_left _ he) e'
        (List.mem_append_left _ he')) hpast
      have hnext := hstep ⟨s, i, o, t⟩ (by simp) e' (by simp) hlast hs hs' hprev.1
      exact ⟨hnext, forall₂_snoc.mpr ⟨_, _, hprev.2, hnext, rfl⟩⟩
  exact hall.2

end Runs
