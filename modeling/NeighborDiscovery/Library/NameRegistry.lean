/-
Names that are taken and removed.

A name is held by one party at most.  A party that wants a name removes it and then takes
it, and others may act between the two, so that who holds a name after all is the party
that took it last, unless it was removed since.  Where nothing is taken that is held, a
name that is not removed stays with its holder, and a party that takes a name once and has
lost it does not hold it again.
-/
import Mathlib.Logic.Function.Basic
import NeighborDiscovery.Library.Runs

namespace NameRegistry

variable {ν π : Type*}

inductive Change (ν π : Type*) where
  | removed (n : ν)
  | taken (n : ν) (p : π)

variable [DecidableEq ν]

/-- Who holds a name after a change. -/
def Change.apply (holder : ν → Option π) : Change ν π → ν → Option π
  | .removed n => Function.update holder n none
  | .taken n p => Function.update holder n (some p)

/-- Who holds a name after some changes, where all are free before. -/
def holder (cs : List (Change ν π)) : ν → Option π := cs.foldl Change.apply fun _ => none

theorem holder_snoc (cs : List (Change ν π)) (c : Change ν π) :
    holder (cs ++ [c]) = c.apply (holder cs) := by
  unfold holder
  rw [List.foldl_append]
  rfl

/-- Nothing is taken that is held. -/
def Guarded (cs : List (Change ν π)) : Prop :=
  ∀ l n p r, cs = l ++ .taken n p :: r → holder l n = none

theorem Guarded.nil : Guarded ([] : List (Change ν π)) := by
  intro l n p r h
  simp at h

theorem Guarded.of_append {cs later : List (Change ν π)} (h : Guarded (cs ++ later)) :
    Guarded cs := fun l n p r hcs => h l n p (r ++ later) (by rw [hcs]; simp)

theorem Guarded.snoc {cs : List (Change ν π)} (h : Guarded cs) {c : Change ν π}
    (hfree : ∀ n p, c = .taken n p → holder cs n = none) : Guarded (cs ++ [c]) := by
  intro l n p r hsplit
  rcases List.eq_nil_or_concat r with rfl | ⟨r', d, rfl⟩
  · obtain ⟨rfl, hc⟩ := List.append_inj' hsplit rfl
    exact hfree n p (List.cons.inj hc).1
  · rw [List.concat_eq_append, ← List.cons_append, ← List.append_assoc] at hsplit
    exact h l n p r' (List.append_inj' hsplit rfl).1

/-- A name is held by the party that took it last, unless it was removed since. -/
theorem holder_eq_some_iff {cs : List (Change ν π)} (hguarded : Guarded cs) {n : ν} {p : π} :
    holder cs n = some p ↔ Runs.Since (· = .taken n p) (· = .removed n) cs := by
  induction cs using List.reverseRecOn with
  | nil => exact iff_of_false (fun h => by cases h) Runs.not_since_nil
  | append_singleton cs c ih =>
    rw [holder_snoc, Runs.since_snoc, ← ih hguarded.of_append]
    cases c with
    | removed m =>
      by_cases hm : n = m
      · subst hm
        simp [Change.apply]
      · simp [Change.apply, Function.update_of_ne hm, Ne.symm hm]
    | taken m q =>
      by_cases hm : n = m
      · subst hm
        have hfree : holder cs n = none := hguarded cs n q [] rfl
        simp [Change.apply, hfree]
      · simp [Change.apply, Function.update_of_ne hm, Ne.symm hm]

/-- A name that was removed is free until it is taken. -/
theorem holder_removed {l r : List (Change ν π)} {n : ν} (hr : ∀ p, .taken n p ∉ r) :
    holder (l ++ .removed n :: r) n = none := by
  induction r using List.reverseRecOn with
  | nil =>
    rw [holder_snoc]
    exact Function.update_self ..
  | append_singleton r c ih =>
    have hfree := ih fun p h => hr p (List.mem_append_left _ h)
    rw [← List.cons_append, ← List.append_assoc, holder_snoc]
    cases c with
    | removed m => rw [Change.apply, Function.update_apply, hfree, ite_self]
    | taken m q =>
      have hne : n ≠ m := fun h => hr q (by simp [h])
      exact (Function.update_of_ne hne ..).trans hfree

/-- A name that is held is not taken before it is removed. -/
theorem not_taken {l r : List (Change ν π)} {n : ν} {p : π} (hguarded : Guarded (l ++ r))
    (hheld : holder l n = some p) (hr : .removed n ∉ r) (q : π) : .taken n q ∉ r := by
  intro hmem
  obtain ⟨r₁, r₂, rfl⟩ := List.append_of_mem hmem
  have hfree : holder (l ++ r₁) n = none := hguarded (l ++ r₁) n q r₂ (by simp)
  have hstill : holder (l ++ r₁) n = some p := by
    rw [← List.append_assoc] at hguarded
    have hone := (holder_eq_some_iff hguarded.of_append.of_append).mp hheld
    refine (holder_eq_some_iff hguarded.of_append).mpr (Runs.since_append.mpr (Or.inl ⟨hone, ?_⟩))
    rintro c hc rfl
    exact hr (List.mem_append_left _ hc)
  rw [hfree] at hstill
  cases hstill

/-- Who has lost a name, and does not take it again, has lost it for good. -/
theorem lost_for_good {cs later : List (Change ν π)} {n : ν} {p : π} (h : holder cs n ≠ some p)
    (hlater : .taken n p ∉ later) : holder (cs ++ later) n ≠ some p := by
  induction later using List.reverseRecOn with
  | nil => rwa [List.append_nil]
  | append_singleton later c ih =>
    have hpast := ih fun hmem => hlater (List.mem_append_left _ hmem)
    rw [← List.append_assoc, holder_snoc]
    cases c with
    | removed m =>
      by_cases hm : n = m
      · subst hm
        simp [Change.apply]
      · rwa [Change.apply, Function.update_of_ne hm]
    | taken m q =>
      by_cases hm : n = m
      · subst hm
        have hq : q ≠ p := fun hq => hlater (by simp [hq])
        simpa [Change.apply] using hq
      · rwa [Change.apply, Function.update_of_ne hm]

end NameRegistry
