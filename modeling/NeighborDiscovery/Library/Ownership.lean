/-
Objects that are moved and not copied, and the resources they hold.

A ledger keeps which resources are out.  A trace of acquisitions and releases is
proper if no resource is acquired while it is out and none is released while it is
not, so that a proper trace that ends with nothing out has released every resource
exactly once for each time it was acquired.

A class gives its move constructor, its move assignment and its destructor.  Where
these pass on, take over and release what an object holds, every step of a program
over objects of the class keeps each resource with one object.
-/
import Mathlib.Data.List.Count
import Mathlib.Logic.Equiv.Basic

namespace Ownership

variable {σ ε ρ : Type*}

/-! ## Ledgers -/

inductive Event (ρ : Type*) where
  | acquired (r : ρ)
  | released (r : ρ)
deriving DecidableEq

section Ledger

variable [DecidableEq ρ]

/-- The resources that are out after some events. -/
def outstanding (rs : List ρ) : List (Event ρ) → List ρ
  | [] => rs
  | .acquired r :: es => outstanding (r :: rs) es
  | .released r :: es => outstanding (rs.erase r) es

/-- Nothing is acquired that is out, and nothing is released that is not. -/
def Proper (rs : List ρ) : List (Event ρ) → Prop
  | [] => True
  | .acquired r :: es => r ∉ rs ∧ Proper (r :: rs) es
  | .released r :: es => r ∈ rs ∧ Proper (rs.erase r) es

theorem outstanding_append (rs : List ρ) (es₁ es₂ : List (Event ρ)) :
    outstanding rs (es₁ ++ es₂) = outstanding (outstanding rs es₁) es₂ := by
  induction es₁ generalizing rs with
  | nil => rfl
  | cons e es₁ ih => cases e <;> exact ih _

theorem proper_append (rs : List ρ) (es₁ es₂ : List (Event ρ)) :
    Proper rs (es₁ ++ es₂) ↔ Proper rs es₁ ∧ Proper (outstanding rs es₁) es₂ := by
  induction es₁ generalizing rs with
  | nil => exact (and_iff_right trivial).symm
  | cons e es₁ ih =>
    cases e with
    | acquired r =>
      simp only [List.cons_append, Proper, outstanding, ih, and_assoc]
    | released r =>
      simp only [List.cons_append, Proper, outstanding, ih, and_assoc]

/-- In a proper trace every resource is released as often as it is acquired, but for
what was out before and what is out at the end. -/
theorem Proper.count_released {rs : List ρ} {es : List (Event ρ)} (h : Proper rs es) (r : ρ) :
    es.count (.released r) + (outstanding rs es).count r =
      es.count (.acquired r) + rs.count r := by
  induction es generalizing rs with
  | nil => simp [outstanding]
  | cons e es ih =>
    cases e with
    | acquired a =>
      have hrest := ih h.2
      by_cases ha : a = r
      · subst ha
        simp [outstanding] at hrest ⊢
        omega
      · simp [outstanding, ha] at hrest ⊢
        omega
    | released a =>
      have hrest := ih h.2
      have hmem := h.1
      by_cases ha : a = r
      · subst ha
        have hpos := List.count_pos_iff.mpr hmem
        simp [outstanding, List.count_erase_self] at hrest ⊢
        omega
      · simp [outstanding, ha, List.count_erase_of_ne (Ne.symm ha)] at hrest ⊢
        omega

end Ledger

/-! ## Owners -/

def acquires (o : Option ρ) : List (Event ρ) := o.toList.map .acquired

def releases (o : Option ρ) : List (Event ρ) := o.toList.map .released

section Lists

variable [DecidableEq ρ]

theorem mem_outstanding_acquires {rs : List ρ} {o : Option ρ} {r : ρ} :
    r ∈ outstanding rs (acquires o) ↔ o = some r ∨ r ∈ rs := by
  cases o with
  | none => simp [acquires, outstanding]
  | some r' => simp [acquires, outstanding, eq_comm]

theorem mem_outstanding_releases {rs : List ρ} (hrs : rs.Nodup) {o : Option ρ} {r : ρ} :
    r ∈ outstanding rs (releases o) ↔ o ≠ some r ∧ r ∈ rs := by
  cases o with
  | none => simp [releases, outstanding]
  | some r' =>
    show r ∈ rs.erase r' ↔ _
    rw [hrs.mem_erase_iff, Ne, Ne, Option.some_inj, eq_comm]

theorem count_releases (o : Option ρ) (r : ρ) :
    (releases o).count (.released r) = if o = some r then 1 else 0 := by
  cases o with
  | none => simp [releases]
  | some r' => simp [releases, List.count_singleton]

end Lists

/-- Every resource that is out has one owner, and nothing else is owned. -/
structure OwnedOnce (owner : Nat → Option ρ) (rs : List ρ) : Prop where
  nodup : rs.Nodup
  mem_iff : ∀ r, r ∈ rs ↔ ∃ id, owner id = some r
  unique : ∀ id id' r, owner id = some r → owner id' = some r → id = id'

section Owners

open Function

variable {owner : Nat → Option ρ} {rs : List ρ}

theorem ownedOnce_nil : OwnedOnce (fun _ => none : Nat → Option ρ) [] :=
  ⟨List.nodup_nil, fun _ => iff_of_false List.not_mem_nil fun h => (by cases h.choose_spec),
    fun _ _ _ h => by cases h⟩

/-- With no owner left nothing is out. -/
theorem OwnedOnce.eq_nil (h : OwnedOnce owner rs) (hnone : ∀ id, owner id = none) : rs = [] := by
  apply List.eq_nil_iff_forall_not_mem.mpr
  intro r hr
  obtain ⟨id, hid⟩ := (h.mem_iff r).mp hr
  rw [hnone id] at hid
  cases hid

theorem OwnedOnce.mem_iff_existsUnique (h : OwnedOnce owner rs) (r : ρ) :
    r ∈ rs ↔ ∃! id, owner id = some r := by
  rw [h.mem_iff]
  refine ⟨fun hex => ?_, fun hunique => hunique.exists⟩
  obtain ⟨id, hid⟩ := hex
  exact ⟨id, hid, fun id' hid' => h.unique id' id r hid' hid⟩

theorem OwnedOnce.not_mem_iff (h : OwnedOnce owner rs) (r : ρ) :
    r ∉ rs ↔ ∀ id, owner id ≠ some r := by
  rw [h.mem_iff, not_exists]

/-- Owners may change their names. -/
theorem OwnedOnce.relabel (h : OwnedOnce owner rs) (e : Nat ≃ Nat) : OwnedOnce (owner ∘ e) rs := by
  refine ⟨h.nodup, fun r => ?_, fun id id' r hid hid' => ?_⟩
  · rw [h.mem_iff, e.surjective.exists]
    rfl
  · exact e.injective (h.unique (e id) (e id') r hid hid')

theorem OwnedOnce.move (h : OwnedOnce owner rs) {source target : Nat} (hne : source ≠ target)
    (htarget : owner target = none) :
    OwnedOnce (update (update owner source none) target (owner source)) rs := by
  have hswap : update (update owner source none) target (owner source) =
      owner ∘ Equiv.swap source target := by
    funext id
    by_cases htgt : id = target
    · subst htgt
      rw [update_self, comp_apply, Equiv.swap_apply_right]
    · by_cases hsrc : id = source
      · subst hsrc
        rw [update_of_ne htgt, update_self, comp_apply, Equiv.swap_apply_left, htarget]
      · rw [update_of_ne htgt, update_of_ne hsrc, comp_apply,
          Equiv.swap_apply_of_ne_of_ne hsrc htgt]
  rw [hswap]
  exact h.relabel (Equiv.swap source target)

theorem update_eq_some_iff {id i : Nat} {o : Option ρ} {r : ρ} :
    update owner id o i = some r ↔ i = id ∧ o = some r ∨ i ≠ id ∧ owner i = some r := by
  by_cases hi : i = id
  · rw [hi, update_self]
    simp
  · rw [update_of_ne hi]
    simp [hi]

variable [DecidableEq ρ]

theorem OwnedOnce.create (h : OwnedOnce owner rs) {id : Nat} (hid : owner id = none) {o : Option ρ}
    (hfresh : ∀ r, o = some r → r ∉ rs) :
    Proper rs (acquires o) ∧ OwnedOnce (update owner id o) (outstanding rs (acquires o)) := by
  cases o with
  | none =>
    have hsame : update owner id none = owner := by rw [← hid, update_eq_self]
    refine ⟨trivial, ?_⟩
    rw [hsame]
    exact h
  | some r =>
    have hr := hfresh r rfl
    refine ⟨⟨hr, trivial⟩, List.nodup_cons.mpr ⟨hr, h.nodup⟩, fun r' => ?_,
      fun i i' r' hi hi' => ?_⟩
    · show r' ∈ r :: rs ↔ _
      rw [List.mem_cons, h.mem_iff]
      constructor
      · intro hor
        rcases hor with rfl | ⟨i, hi⟩
        · exact ⟨id, update_self ..⟩
        · have hne : i ≠ id := fun heq => by simp [← heq, hi] at hid
          exact ⟨i, update_eq_some_iff.mpr (Or.inr ⟨hne, hi⟩)⟩
      · intro hex
        obtain ⟨i, hi⟩ := hex
        rcases update_eq_some_iff.mp hi with ⟨-, hnew⟩ | ⟨-, hold⟩
        · exact Or.inl (Option.some.inj hnew).symm
        · exact Or.inr ⟨i, hold⟩
    · -- A new resource has no owner among the others.
      have hother : ∀ j, some r = some r' → owner j ≠ some r' := fun j hnew hold =>
        hr (Option.some.inj hnew ▸ (h.mem_iff r').mpr ⟨j, hold⟩)
      rcases update_eq_some_iff.mp hi with ⟨hone, hnew⟩ | ⟨-, hold⟩
      · rcases update_eq_some_iff.mp hi' with ⟨htwo, -⟩ | ⟨-, hold'⟩
        · rw [hone, htwo]
        · exact absurd hold' (hother i' hnew)
      · rcases update_eq_some_iff.mp hi' with ⟨-, hnew'⟩ | ⟨-, hold'⟩
        · exact absurd hold (hother i hnew')
        · exact h.unique i i' r' hold hold'

/-- An owner that goes releases what it owned. -/
theorem OwnedOnce.drop (h : OwnedOnce owner rs) (id : Nat) :
    Proper rs (releases (owner id)) ∧
      OwnedOnce (update owner id none) (outstanding rs (releases (owner id))) := by
  have hleft : ∀ i r, update owner id none i = some r ↔ i ≠ id ∧ owner i = some r := by
    intro i r
    rw [update_eq_some_iff]
    simp
  cases hid : owner id with
  | none =>
    have hsame : update owner id none = owner := by rw [← hid, update_eq_self]
    refine ⟨trivial, ?_⟩
    rw [hsame]
    exact h
  | some r =>
    have hr : r ∈ rs := (h.mem_iff r).mpr ⟨id, hid⟩
    refine ⟨⟨hr, trivial⟩, h.nodup.erase r, fun r' => ?_, fun i i' r' hi hi' => ?_⟩
    · show r' ∈ rs.erase r ↔ _
      rw [h.nodup.mem_erase_iff, h.mem_iff]
      constructor
      · intro hboth
        obtain ⟨hne, i, hi⟩ := hboth
        have hnot : i ≠ id := fun heq => hne (Option.some.inj (hi.symm.trans (heq ▸ hid)))
        exact ⟨i, (hleft i r').mpr ⟨hnot, hi⟩⟩
      · intro hex
        obtain ⟨i, hi⟩ := hex
        obtain ⟨hnot, hold⟩ := (hleft i r').mp hi
        exact ⟨fun heq => hnot (h.unique i id r (heq ▸ hold) hid), i, hold⟩
    · exact h.unique i i' r' ((hleft i r').mp hi).2 ((hleft i' r').mp hi').2

end Owners

/-! ## Classes -/

/-- The special members of a class.  Those that take another object also give what is
left of it, and an assignment of an object to itself is apart. -/
structure Members (σ ε : Type*) where
  moveConstruct : σ → σ × σ
  moveAssign : σ → σ → (σ × σ) × List ε
  assignSelf : σ → σ × List ε
  destroy : σ → List ε

/-- The objects that are live. -/
abbrev Objects (σ : Type*) := Nat → Option σ

inductive Op where
  | moveConstruct (new source : Nat)
  | moveAssign (target source : Nat)
  | destroy (id : Nat)
deriving DecidableEq

/-- The object that is destroyed or assigned over. -/
def Op.subject : Op → Option Nat
  | .moveConstruct _ _ => none
  | .moveAssign target _ => some target
  | .destroy id => some id

namespace Members

open Function

variable (M : Members σ ε)

/-- An operation on live objects, with the calls it makes. -/
def step (objects : Objects σ) : Op → Option (Objects σ × List ε)
  | .moveConstruct new source =>
    match objects new, objects source with
    | none, some other =>
      some (update (update objects source (some (M.moveConstruct other).2)) new
        (some (M.moveConstruct other).1), [])
    | _, _ => none
  | .moveAssign target source =>
    match objects target, objects source with
    | some this, some other =>
      if target = source then
        some (update objects target (some (M.assignSelf this).1), (M.assignSelf this).2)
      else
        some (update (update objects source (some (M.moveAssign this other).1.2)) target
          (some (M.moveAssign this other).1.1), (M.moveAssign this other).2)
    | _, _ => none
  | .destroy id => (objects id).map fun this => (update objects id none, M.destroy this)

/-- An object that a function returns by moving a local one, which is destroyed at the
end of the function. -/
def returned (s : σ) : σ × List ε := ((M.moveConstruct s).1, M.destroy (M.moveConstruct s).2)

/-- The class hands on what an object holds: a move takes it along, and an object that
is assigned over or destroyed releases it. -/
structure HandsOn (held : σ → Option ρ) (view : ε → Option (Event ρ)) : Prop where
  moveConstruct : ∀ s, held (M.moveConstruct s).1 = held s ∧ held (M.moveConstruct s).2 = none
  moveAssign : ∀ this other, held (M.moveAssign this other).1.1 = held other ∧
    held (M.moveAssign this other).1.2 = none ∧
    (M.moveAssign this other).2.filterMap view = releases (held this)
  assignSelf : ∀ s, M.assignSelf s = (s, [])
  destroy : ∀ s, (M.destroy s).filterMap view = releases (held s)

/-- What each object holds. -/
def ownerOf (held : σ → Option ρ) (objects : Objects σ) : Nat → Option ρ :=
  fun id => (objects id).bind held

variable {held : σ → Option ρ} {view : ε → Option (Event ρ)}

theorem ownerOf_update (objects : Objects σ) (id : Nat) (o : Option σ) :
    ownerOf held (update objects id o) = update (ownerOf held objects) id (o.bind held) := by
  funext i
  unfold ownerOf
  by_cases hi : i = id
  · rw [hi, update_self, update_self]
  · rw [update_of_ne hi, update_of_ne hi]

theorem ownerOf_some {objects : Objects σ} {id : Nat} {s : σ} (h : objects id = some s) :
    ownerOf held objects id = held s := by
  unfold ownerOf
  rw [h, Option.bind_some]

theorem ownerOf_none {objects : Objects σ} {id : Nat} (h : objects id = none) :
    ownerOf held objects id = none := by
  unfold ownerOf
  rw [h, Option.bind_none]

variable {M}

theorem step_moveConstruct {objects : Objects σ} {new source : Nat} {r : Objects σ × List ε}
    (h : M.step objects (.moveConstruct new source) = some r) :
    ∃ other, objects new = none ∧ objects source = some other ∧
      r = (update (update objects source (some (M.moveConstruct other).2)) new
        (some (M.moveConstruct other).1), []) := by
  simp only [Members.step] at h
  split at h
  · rename_i other hnew hsource
    exact ⟨other, hnew, hsource, (Option.some.inj h).symm⟩
  · cases h

theorem step_moveAssign {objects : Objects σ} {target source : Nat} {r : Objects σ × List ε}
    (h : M.step objects (.moveAssign target source) = some r) :
    ∃ this, objects target = some this ∧
      (target = source ∧
          r = (update objects target (some (M.assignSelf this).1), (M.assignSelf this).2) ∨
        target ≠ source ∧ ∃ other, objects source = some other ∧
          r = (update (update objects source (some (M.moveAssign this other).1.2)) target
            (some (M.moveAssign this other).1.1), (M.moveAssign this other).2)) := by
  simp only [Members.step] at h
  split at h
  · rename_i this other htarget hsource
    refine ⟨this, htarget, ?_⟩
    split at h
    · rename_i hself
      exact Or.inl ⟨hself, (Option.some.inj h).symm⟩
    · rename_i hne
      exact Or.inr ⟨hne, other, hsource, (Option.some.inj h).symm⟩
  · cases h

theorem HandsOn.returned (hM : M.HandsOn held view) (s : σ) :
    held (M.returned s).1 = held s ∧ (M.returned s).2.filterMap view = [] := by
  obtain ⟨htaken, hleft⟩ := hM.moveConstruct s
  refine ⟨htaken, (hM.destroy _).trans ?_⟩
  rw [hleft]
  rfl

variable [DecidableEq ρ]

/-- What a step releases was owned by the object it destroys or assigns over, and each
resource keeps its one owner. -/
theorem HandsOn.step (hM : M.HandsOn held view) {objects objects' : Objects σ} {op : Op}
    {calls : List ε} (h : M.step objects op = some (objects', calls)) {rs : List ρ}
    (hown : OwnedOnce (ownerOf held objects) rs) :
    (calls.filterMap view = [] ∨ ∃ id, op.subject = some id ∧
        calls.filterMap view = releases (ownerOf held objects id)) ∧
      Proper rs (calls.filterMap view) ∧
      OwnedOnce (ownerOf held objects') (outstanding rs (calls.filterMap view)) := by
  cases op with
  | moveConstruct new source =>
    obtain ⟨other, hnew, hsource, heq⟩ := step_moveConstruct h
    cases heq
    obtain ⟨htaken, hleft⟩ := hM.moveConstruct other
    have hne : source ≠ new := fun heq => by simp [heq, hnew] at hsource
    have howner : ownerOf held objects source = held other := ownerOf_some hsource
    refine ⟨Or.inl rfl, trivial, ?_⟩
    rw [ownerOf_update, ownerOf_update, Option.bind_some, Option.bind_some, htaken, hleft,
      ← howner]
    exact hown.move hne (ownerOf_none hnew)
  | moveAssign target source =>
    obtain ⟨this, htarget, ⟨-, heq⟩ | ⟨hne, other, hsource, heq⟩⟩ := step_moveAssign h
    · cases heq
      rw [hM.assignSelf this, ← htarget, update_eq_self]
      exact ⟨Or.inl rfl, trivial, hown⟩
    · cases heq
      obtain ⟨htaken, hleft, hcalls⟩ := hM.moveAssign this other
      -- An assignment is the end of the object assigned over and a move into its place.
      obtain ⟨hproper, hdropped⟩ := hown.drop target
      have hmoved := hdropped.move (Ne.symm hne) (update_self ..)
      rw [update_of_ne (Ne.symm hne), ownerOf_some hsource, update_comm hne, update_idem] at hmoved
      have hthis : ownerOf held objects target = held this := ownerOf_some htarget
      rw [hcalls, ← hthis]
      refine ⟨Or.inr ⟨target, rfl, rfl⟩, hproper, ?_⟩
      rw [ownerOf_update, ownerOf_update, Option.bind_some, Option.bind_some, htaken, hleft]
      exact hmoved
  | destroy id =>
    obtain ⟨this, hthis, heq⟩ := Option.map_eq_some_iff.mp h
    cases heq
    obtain ⟨hproper, hdropped⟩ := hown.drop id
    have howner : ownerOf held objects id = held this := ownerOf_some hthis
    rw [hM.destroy, ← howner, ownerOf_update]
    exact ⟨Or.inr ⟨id, rfl, rfl⟩, hproper, hdropped⟩

end Members

end Ownership
