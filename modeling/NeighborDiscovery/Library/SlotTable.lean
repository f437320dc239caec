/-
Tables of slots, as a kernel keeps one for the descriptors of a process.

A slot holds something or is empty, and what is new goes into the lowest empty slot.
Every operation is described by what it leaves in each slot.
-/
import Mathlib.Data.List.Basic

namespace SlotTable

variable {α : Type*}

/-- The slots up to some number.  The slots after these are empty. -/
abbrev Table (α : Type*) := List (Option α)

/-- What a slot holds. -/
def at? (t : Table α) (n : Nat) : Option α := t[n]?.join

/-- The lowest empty slot. -/
def lowest (t : Table α) : Nat := t.findIdx Option.isNone

/-- The table with something else, or nothing, in a slot. -/
def put (t : Table α) (n : Nat) (f : Option α) : Table α :=
  (t ++ List.replicate (n + 1 - t.length) none).set n f

theorem at?_put (t : Table α) (n : Nat) (f : Option α) (k : Nat) :
    at? (put t n f) k = if k = n then f else at? t k := by
  unfold at? put
  by_cases hk : k = n
  · have hlt : n < (t ++ List.replicate (n + 1 - t.length) none).length := by
      rw [List.length_append, List.length_replicate]
      omega
    rw [if_pos hk, hk, List.getElem?_set_self hlt]
    rfl
  · rw [if_neg hk, List.getElem?_set_ne (Ne.symm hk), List.getElem?_append]
    by_cases hlt : k < t.length
    · rw [if_pos hlt]
    · rw [if_neg hlt, List.getElem?_eq_none (Nat.le_of_not_lt hlt), List.getElem?_replicate]
      split <;> rfl

theorem at?_lowest (t : Table α) : at? t (lowest t) = none := by
  unfold at? lowest
  by_cases hlt : t.findIdx Option.isNone < t.length
  · rw [List.getElem?_eq_getElem hlt]
    exact Option.isNone_iff_eq_none.mp (List.findIdx_getElem (w := hlt))
  · rw [List.getElem?_eq_none (Nat.le_of_not_lt hlt)]
    rfl

/-- Of two slots the second, copied into the first in a row of slots. -/
def copyInto (n : Nat) (t : Table α) (k : Nat) : Table α := put t k (at? t n)

theorem at?_copies (n : Nat) (ks : List Nat) (t : Table α) (k : Nat) :
    at? (ks.foldl (copyInto n) t) k = if k ∈ ks then at? t n else at? t k := by
  induction ks generalizing t with
  | nil => rfl
  | cons k' ks ih =>
    rw [List.foldl_cons, ih]
    unfold copyInto
    rw [at?_put, at?_put]
    grind

end SlotTable
