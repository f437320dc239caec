/-
Resources that are granted, used and given back.

A trace of accesses holds the acquisitions and releases of a ledger and the uses in
between.  Whoever grants the resources promises that what is acquired is free; the
holder has to use and release only what it holds.

A slot is a variable that owns at most one resource, as a smart pointer does.  It
holds a new resource before it releases the old one, so that whatever passes
through a slot, two resources more than the others are out at most, and none once
the slot is emptied.
-/
import NeighborDiscovery.Library.Ownership

namespace Leases

open Ownership

variable {ρ : Type*}

inductive Access (ρ : Type*) where
  | event (e : Event ρ)
  | used (r : ρ)

namespace Access

def event? : Access ρ → Option (Event ρ)
  | .event e => some e
  | .used _ => none

/-- What is acquired. -/
def grants : Access ρ → List ρ
  | .event (.acquired r) => [r]
  | _ => []

/-- What has to be held for the access to be made. -/
def needs : Access ρ → List ρ
  | .event (.acquired _) => []
  | .event (.released r) => [r]
  | .used r => [r]

end Access

/-! ## Traces -/

section Traces

variable [DecidableEq ρ]

/-- The resources held after some accesses. -/
def held (rs : List ρ) (as : List (Access ρ)) : List ρ :=
  outstanding rs (as.filterMap Access.event?)

/-- Every access is made when what is held meets `P`. -/
def Along (P : List ρ → Access ρ → Prop) (rs : List ρ) : List (Access ρ) → Prop
  | [] => True
  | a :: as => P rs a ∧ Along P (held rs [a]) as

instance decidableAlong {P : List ρ → Access ρ → Prop} [∀ rs a, Decidable (P rs a)]
    (rs : List ρ) : (as : List (Access ρ)) → Decidable (Along P rs as)
  | [] => inferInstanceAs (Decidable True)
  | a :: as =>
    have := decidableAlong (P := P) (held rs [a]) as
    inferInstanceAs (Decidable (P rs a ∧ Along P (held rs [a]) as))

/-- What is acquired is free. -/
def Fresh (rs : List ρ) (as : List (Access ρ)) : Prop :=
  Along (fun rs a => ∀ r ∈ a.grants, r ∉ rs) rs as

/-- What is used or released is held, and at most `n` resources ever are. -/
def Sound (n : Nat) (rs : List ρ) (as : List (Access ρ)) : Prop :=
  Along (fun rs a => (∀ r ∈ a.needs, r ∈ rs) ∧ (held rs [a]).length ≤ n) rs as

instance (rs : List ρ) (as : List (Access ρ)) : Decidable (Fresh rs as) :=
  inferInstanceAs (Decidable (Along _ rs as))

theorem held_append (rs : List ρ) (as₁ as₂ : List (Access ρ)) :
    held rs (as₁ ++ as₂) = held (held rs as₁) as₂ := by
  unfold held
  rw [List.filterMap_append, outstanding_append]

theorem held_cons (rs : List ρ) (a : Access ρ) (as : List (Access ρ)) :
    held rs (a :: as) = held (held rs [a]) as := held_append rs [a] as

theorem along_append {P : List ρ → Access ρ → Prop} {rs : List ρ} {as₁ as₂ : List (Access ρ)} :
    Along P rs (as₁ ++ as₂) ↔ Along P rs as₁ ∧ Along P (held rs as₁) as₂ := by
  induction as₁ generalizing rs with
  | nil => exact (and_iff_right trivial).symm
  | cons a as₁ ih =>
    rw [List.cons_append, held_cons]
    simp only [Along, ih, and_assoc]

/-- A fresh and sound trace is proper for the ledger. -/
theorem proper_of_sound {n : Nat} {rs : List ρ} {as : List (Access ρ)} (hfresh : Fresh rs as)
    (hsound : Sound n rs as) : Proper rs (as.filterMap Access.event?) := by
  induction as generalizing rs with
  | nil => trivial
  | cons a as ih =>
    have hrest := ih hfresh.2 hsound.2
    cases a with
    | used r => exact hrest
    | event e =>
      cases e with
      | acquired r => exact ⟨hfresh.1 r (List.mem_singleton_self r), hrest⟩
      | released r => exact ⟨hsound.1.1 r (List.mem_singleton_self r), hrest⟩

/-- Uses of what is held change nothing. -/
theorem sound_used {n : Nat} {rs : List ρ} (hn : rs.length ≤ n) {as : List (Access ρ)}
    (h : ∀ a ∈ as, ∃ r ∈ rs, a = .used r) : Sound n rs as ∧ held rs as = rs := by
  induction as with
  | nil => exact ⟨trivial, rfl⟩
  | cons a as ih =>
    obtain ⟨r, hr, rfl⟩ := h a List.mem_cons_self
    obtain ⟨hsound, hheld⟩ := ih fun a ha => h a (List.mem_cons_of_mem _ ha)
    exact ⟨⟨⟨fun r' hr' => List.mem_singleton.mp hr' ▸ hr, hn⟩, hsound⟩, hheld⟩

end Traces

/-! ## Slots -/

/-- A slot takes a new resource over. -/
def takes (slot : Option ρ) (r : ρ) : List (Access ρ) :=
  .event (.acquired r) :: (releases slot).map .event

def gives (slot : Option ρ) : List (Access ρ) := (releases slot).map .event

/-- The slot holds what is held beside `base`. -/
structure Owns (slot : Option ρ) (base rs : List ρ) : Prop where
  nodup : rs.Nodup
  perm : rs.Perm (slot.toList ++ base)

section Slots

variable {slot : Option ρ} {base rs : List ρ}

theorem Owns.mem_iff (h : Owns slot base rs) {r : ρ} : r ∈ rs ↔ slot = some r ∨ r ∈ base := by
  rw [h.perm.mem_iff, List.mem_append, Option.mem_toList]

theorem Owns.length_le (h : Owns slot base rs) : rs.length ≤ base.length + 1 := by
  have hlen := h.perm.length_eq
  have hslot : slot.toList.length ≤ 1 := by cases slot <;> simp
  rw [List.length_append] at hlen
  omega

variable [DecidableEq ρ]

/-- The accesses are sound and leave the slot with `slot'`, whatever else is held
being `base`. -/
def Keeps (base : List ρ) (slot : Option ρ) (as : List (Access ρ)) (slot' : Option ρ) : Prop :=
  ∀ rs, Owns slot base rs → Fresh rs as →
    Sound (base.length + 2) rs as ∧ Owns slot' base (held rs as)

theorem Keeps.append {slot₁ slot₂ : Option ρ} {as₁ as₂ : List (Access ρ)}
    (h₁ : Keeps base slot as₁ slot₁) (h₂ : Keeps base slot₁ as₂ slot₂) :
    Keeps base slot (as₁ ++ as₂) slot₂ := by
  intro rs howns hfresh
  obtain ⟨hfresh₁, hfresh₂⟩ := along_append.mp hfresh
  obtain ⟨hsound₁, howns₁⟩ := h₁ rs howns hfresh₁
  obtain ⟨hsound₂, howns₂⟩ := h₂ _ howns₁ hfresh₂
  rw [held_append]
  exact ⟨along_append.mpr ⟨hsound₁, hsound₂⟩, howns₂⟩

/-- A sequence of rounds, each of which empties the slot, empties it. -/
theorem keeps_flatMap {α : Type*} {f : α → List (Access ρ)} {l : List α}
    (h : ∀ a ∈ l, Keeps base none (f a) none) : Keeps base none (l.flatMap f) none := by
  induction l with
  | nil => exact fun rs howns _ => ⟨trivial, howns⟩
  | cons a l ih =>
    obtain ⟨hone, hrest⟩ := List.forall_mem_cons.mp h
    exact hone.append (ih hrest)

theorem keeps_used {as : List (Access ρ)}
    (h : ∀ a ∈ as, ∃ r, a = .used r ∧ (slot = some r ∨ r ∈ base)) : Keeps base slot as slot := by
  intro rs howns _
  have hlen := howns.length_le
  obtain ⟨hsound, hheld⟩ := @sound_used _ _ (base.length + 2) rs (by omega) as fun a ha => by
    obtain ⟨r, hused, hr⟩ := h a ha
    exact ⟨r, howns.mem_iff.mpr hr, hused⟩
  rw [hheld]
  exact ⟨hsound, howns⟩

theorem keeps_gives : Keeps base slot (gives slot) none := by
  intro rs howns _
  cases slot with
  | none => exact ⟨trivial, howns⟩
  | some r =>
    have hheld : (rs.erase r).Perm base := by simpa using howns.perm.erase r
    have hlen := hheld.length_eq
    refine ⟨⟨⟨fun r' hr' => ?_, ?_⟩, trivial⟩, howns.nodup.erase r, hheld⟩
    · rw [List.mem_singleton.mp hr']
      exact howns.mem_iff.mpr (Or.inl rfl)
    · show (rs.erase r).length ≤ base.length + 2
      omega

theorem keeps_takes (r : ρ) : Keeps base slot (takes slot r) (some r) := by
  intro rs howns hfresh
  have hr : r ∉ rs := hfresh.1 r (List.mem_singleton_self r)
  have hlen := howns.length_le
  have hfirst : (held rs [.event (.acquired r)]).length ≤ base.length + 2 := by
    show rs.length + 1 ≤ base.length + 2
    omega
  cases slot with
  | none => exact ⟨⟨⟨fun r' hr' => absurd hr' List.not_mem_nil, hfirst⟩, trivial⟩,
      List.nodup_cons.mpr ⟨hr, howns.nodup⟩, howns.perm.cons r⟩
  | some old =>
    have hold : old ∈ rs := howns.mem_iff.mpr (Or.inl rfl)
    have hne : r ≠ old := fun heq => hr (heq ▸ hold)
    have hkept : ((r :: rs).erase old).Perm (r :: base) := by
      rw [List.erase_cons_tail (by simpa using hne)]
      simpa using (howns.perm.erase old).cons r
    have hkeptlen := hkept.length_eq
    refine ⟨⟨⟨fun r' hr' => absurd hr' List.not_mem_nil, hfirst⟩, ⟨fun r' hr' => ?_, ?_⟩, trivial⟩,
      (List.nodup_cons.mpr ⟨hr, howns.nodup⟩).erase old, hkept⟩
    · rw [List.mem_singleton.mp hr']
      exact List.mem_cons_of_mem r hold
    · show ((r :: rs).erase old).length ≤ base.length + 2
      rw [hkeptlen, List.length_cons]
      omega

end Slots

/-! ## What is left -/

section Left

variable [DecidableEq ρ]

/-- The accesses add `gained` to what is held, and nothing else. -/
def Leaves (as : List (Access ρ)) (gained : List ρ) : Prop :=
  ∀ rs, rs.Nodup → Fresh rs as → (held rs as).Nodup ∧ (held rs as).Perm (gained ++ rs)

theorem Leaves.append {as₁ as₂ : List (Access ρ)} {gained₁ gained₂ : List ρ}
    (h₁ : Leaves as₁ gained₁) (h₂ : Leaves as₂ gained₂) :
    Leaves (as₁ ++ as₂) (gained₂ ++ gained₁) := by
  intro rs hrs hfresh
  obtain ⟨hfresh₁, hfresh₂⟩ := along_append.mp hfresh
  obtain ⟨hnodup₁, hperm₁⟩ := h₁ rs hrs hfresh₁
  obtain ⟨hnodup₂, hperm₂⟩ := h₂ _ hnodup₁ hfresh₂
  rw [held_append, List.append_assoc]
  exact ⟨hnodup₂, hperm₂.trans (hperm₁.append_left gained₂)⟩

theorem leaves_acquired (r : ρ) : Leaves [.event (.acquired r)] [r] := fun _ hrs hfresh =>
  ⟨List.nodup_cons.mpr ⟨hfresh.1 r (List.mem_singleton_self r), hrs⟩, .refl _⟩

/-- To release what was just acquired, any number of times, leaves nothing. -/
theorem leaves_released (r : ρ) (n : Nat) :
    Leaves (.event (.acquired r) :: List.replicate (n + 1) (.event (.released r))) [] := by
  intro rs hrs hfresh
  have hr : r ∉ rs := hfresh.1 r (List.mem_singleton_self r)
  have hagain : ∀ n, held rs (List.replicate n (.event (.released r))) = rs := by
    intro n
    induction n with
    | zero => rfl
    | succ n ih =>
      rw [List.replicate_succ, held_cons]
      show held (rs.erase r) _ = rs
      rw [List.erase_of_not_mem hr, ih]
  have hheld : held rs (.event (.acquired r) :: List.replicate (n + 1) (.event (.released r))) =
      rs := by
    rw [List.replicate_succ, held_cons, held_cons]
    show held ((r :: rs).erase r) _ = rs
    rw [List.erase_cons_head, hagain n]
  rw [hheld]
  exact ⟨hrs, .refl _⟩

end Left

end Leases
