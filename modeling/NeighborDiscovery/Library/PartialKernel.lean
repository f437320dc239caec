/-
Partial equivalences, and those that a partial function makes.

A partial equivalence is symmetric and transitive, and it relates an element to
itself exactly on its domain.  Two arguments to which a partial function gives the
same value are so related, its domain being where it is defined.
-/
import Mathlib.Data.Option.Basic

namespace PartialKernel

variable {α κ : Type*}

structure PartialEquivalence (R : α → α → Prop) (domain : α → Prop) : Prop where
  symm : ∀ a b, R a b → R b a
  trans : ∀ a b c, R a b → R b c → R a c
  refl_iff : ∀ a, R a a ↔ domain a

/-- Two arguments with one value. -/
def SameValue (f : α → Option κ) (a b : α) : Prop := ∃ k, f a = some k ∧ f b = some k

theorem sameValue_iff {f : α → Option κ} {a b : α} {x y : κ} (ha : f a = some x)
    (hb : f b = some y) : SameValue f a b ↔ x = y := by
  unfold SameValue
  rw [ha, hb]
  constructor
  · intro h
    obtain ⟨k, hx, hy⟩ := h
    exact Option.some.inj (hx.trans hy.symm)
  · intro h
    exact ⟨x, rfl, congrArg some h.symm⟩

theorem not_sameValue {f : α → Option κ} {a b : α} (h : f a = none ∨ f b = none) :
    ¬SameValue f a b := by
  intro hsame
  obtain ⟨k, ha, hb⟩ := hsame
  rcases h with h | h
  · rw [h] at ha
    cases ha
  · rw [h] at hb
    cases hb

theorem partialEquivalence_sameValue (f : α → Option κ) :
    PartialEquivalence (SameValue f) fun a => (f a).isSome where
  symm a b h := by
    obtain ⟨k, ha, hb⟩ := h
    exact ⟨k, hb, ha⟩
  trans a b c hab hbc := by
    obtain ⟨k, ha, hb⟩ := hab
    obtain ⟨k', hb', hc⟩ := hbc
    have hk : k = k' := Option.some.inj (hb.symm.trans hb')
    rw [hk] at ha
    exact ⟨k', ha, hc⟩
  refl_iff a := by
    rw [Option.isSome_iff_exists]
    exact ⟨fun h => ⟨h.choose, h.choose_spec.1⟩, fun h => ⟨h.choose, h.choose_spec, h.choose_spec⟩⟩

theorem PartialEquivalence.congr {R R' : α → α → Prop} {domain domain' : α → Prop}
    (h : PartialEquivalence R domain) (hR : ∀ a b, R' a b ↔ R a b)
    (hdomain : ∀ a, domain' a ↔ domain a) : PartialEquivalence R' domain' where
  symm a b hab := (hR b a).mpr (h.symm a b ((hR a b).mp hab))
  trans a b c hab hbc := (hR a c).mpr (h.trans a b c ((hR a b).mp hab) ((hR b c).mp hbc))
  refl_iff a := by rw [hR, hdomain, h.refl_iff]

end PartialKernel
