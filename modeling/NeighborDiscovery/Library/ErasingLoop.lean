/-
A loop that erases elements of a sequence while it walks over it.

A pass looks at the element at the position.  An element that is to go is erased,
and the position then is that of the element behind it; else the position moves on.
So every element comes to be looked at once, in its order.
-/
import Mathlib.Data.List.Basic

namespace ErasingLoop

variable {α : Type*}

/-- The sequence, the position and the elements looked at so far. -/
structure Walk (α : Type*) where
  elements : List α
  position : Nat
  examined : List α

def start (l : List α) : Walk α := ⟨l, 0, []⟩

variable (p : α → Bool)

/-- A pass of the loop, which is over at the end of the sequence. -/
def pass (w : Walk α) : Option (Walk α) :=
  match w.elements[w.position]? with
  | none => none
  | some a =>
    if p a then some ⟨w.elements.eraseIdx w.position, w.position, w.examined ++ [a]⟩
    else some ⟨w.elements, w.position + 1, w.examined ++ [a]⟩

/-- The elements from the position on become fewer. -/
theorem pass_lt {w w' : Walk α} (h : pass p w = some w') :
    w'.elements.length - w'.position < w.elements.length - w.position := by
  unfold pass at h
  split at h
  · cases h
  · rename_i a ha
    obtain ⟨hlt, -⟩ := List.getElem?_eq_some_iff.mp ha
    split at h
    · cases h
      show (w.elements.eraseIdx w.position).length - w.position < _
      rw [List.length_eraseIdx_of_lt hlt]
      omega
    · cases h
      show w.elements.length - (w.position + 1) < _
      omega

def loop (w : Walk α) : Walk α :=
  match _ : pass p w with
  | none => w
  | some w' => loop w'
termination_by w.elements.length - w.position
decreasing_by exact pass_lt p (by assumption)

variable {p}

theorem loop_over {w : Walk α} (h : pass p w = none) : loop p w = w := by
  rw [loop]
  split
  · rfl
  · rename_i w' h'
    rw [h] at h'
    cases h'

theorem loop_pass {w w' : Walk α} (h : pass p w = some w') : loop p w = loop p w' := by
  rw [loop]
  split
  · rename_i h'
    rw [h] at h'
    cases h'
  · rename_i w'' h'
    rw [h] at h'
    cases h'
    rfl

variable (p)

def kept (l : List α) : List α := l.filter fun a => !p a

/-- The walk over `l` after `n` passes. -/
def after (l : List α) (n : Nat) : Walk α :=
  ⟨kept p (l.take n) ++ l.drop n, (kept p (l.take n)).length, l.take n⟩

theorem getElem?_after (l : List α) (n : Nat) :
    (after p l n).elements[(after p l n).position]? = l[n]? := by
  unfold after
  rw [List.getElem?_append_right (Nat.le_refl _), Nat.sub_self, List.getElem?_drop, Nat.add_zero]

theorem pass_after {l : List α} {n : Nat} (h : n < l.length) :
    pass p (after p l n) = some (after p l (n + 1)) := by
  have htake : l.take (n + 1) = l.take n ++ [l[n]] := by
    rw [List.take_add_one, List.getElem?_eq_getElem h]
    rfl
  have hdrop : l.drop n = l[n] :: l.drop (n + 1) := List.drop_eq_getElem_cons h
  unfold pass
  rw [getElem?_after, List.getElem?_eq_getElem h]
  dsimp only
  unfold after kept
  rw [htake, List.filter_append]
  by_cases hp : p l[n] = true
  · -- The element leaves, and what follows it moves up to the position.
    have hgone : [l[n]].filter (fun a => !p a) = [] := by simp [hp]
    rw [if_pos hp, hgone, List.append_nil, hdrop,
      List.eraseIdx_append_of_length_le (Nat.le_refl _), Nat.sub_self, List.eraseIdx_cons_zero]
  · have hstays : [l[n]].filter (fun a => !p a) = [l[n]] := by simp [hp]
    rw [if_neg hp, hstays, hdrop, List.append_assoc, List.length_append]
    rfl

theorem pass_after_length (l : List α) : pass p (after p l l.length) = none := by
  unfold pass
  rw [getElem?_after, List.getElem?_eq_none (Nat.le_refl _)]

theorem loop_after {l : List α} {n : Nat} (h : n ≤ l.length) :
    loop p (after p l n) = after p l l.length := by
  induction hrest : l.length - n generalizing n with
  | zero =>
    have hn : n = l.length := by omega
    rw [hn]
    exact loop_over (pass_after_length p l)
  | succ rest ih =>
    rw [loop_pass (pass_after p (by omega))]
    exact ih (by omega) (by omega)

/-- The loop looks at every element once and keeps those that are not to go. -/
theorem loop_start (l : List α) :
    (loop p (start l)).examined = l ∧ (loop p (start l)).elements = kept p l := by
  have hloop : loop p (start l) = after p l l.length := loop_after p (Nat.zero_le _)
  rw [hloop]
  unfold after
  rw [List.take_length, List.drop_length, List.append_nil]
  exact ⟨rfl, rfl⟩

end ErasingLoop
