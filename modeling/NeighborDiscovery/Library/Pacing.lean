/-
Events at bounded distances from one another.

In a list whose consecutive events are at least, or at most, some distance apart,
two events that are `n` steps apart are `n` times that distance apart.  The times
may be of any ordered group.
-/
import Mathlib.Data.List.Chain
import Mathlib.Algebra.Order.Monoid.OrderDual
import Mathlib.Algebra.Order.Monoid.Defs
import Mathlib.Algebra.Group.Nat.Defs
import Mathlib.Tactic.Abel

namespace Pacing

variable {α G : Type*} [AddCommMonoid G] [PartialOrder G] [IsOrderedAddMonoid G]

theorem add_nsmul_le {t : α → G} {d : G} {a b : α} {l : List α}
    (h : (a :: (l ++ [b])).IsChain fun x y => t x + d ≤ t y) :
    t a + (l.length + 1) • d ≤ t b := by
  induction l generalizing a with
  | nil =>
    rw [List.nil_append, List.isChain_pair] at h
    rw [List.length_nil, zero_add, one_nsmul]
    exact h
  | cons c l ih =>
    rw [List.cons_append, List.isChain_cons_cons] at h
    have hrest := ih h.2
    rw [List.length_cons, succ_nsmul']
    calc t a + (d + (l.length + 1) • d) = t a + d + (l.length + 1) • d := by rw [add_assoc]
      _ ≤ t c + (l.length + 1) • d := add_le_add_left h.1 _
      _ ≤ t b := hrest

theorem le_add_nsmul {t : α → G} {d : G} {a b : α} {l : List α}
    (h : (a :: (l ++ [b])).IsChain fun x y => t y ≤ t x + d) :
    t b ≤ t a + (l.length + 1) • d :=
  @add_nsmul_le α Gᵒᵈ _ _ _ t d a b l h

end Pacing
