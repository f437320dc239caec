/-
Association lists filled and thinned out in passes over a list.

`putAll` runs through a list of values, storing what `g` makes of each under the
value's key; the last value with a key decides.  `eraseWhere` is the loop that
erases entries while it walks over them.  Both are described by `lookup`, so the
order in which the entries are kept does not show.
-/
import Mathlib.Data.List.AList

namespace KeyedMap

variable {κ ν μ : Type*}

abbrev Map (κ ν : Type*) := AList (fun _ : κ => ν)

def values (m : Map κ ν) : List ν := m.entries.map Sigma.snd

/-- Every value is stored under its own key. -/
def KeyedBy (key : ν → κ) (m : Map κ ν) : Prop := ∀ e ∈ m.entries, e.1 = key e.2

theorem nodup_values {key : ν → κ} {m : Map κ ν} (hm : KeyedBy key m) :
    ((values m).map key).Nodup := by
  have hkeys : (values m).map key = m.keys := by
    rw [values, List.map_map]
    exact List.map_congr_left fun e he => (hm e he).symm
  rw [hkeys]
  exact m.keys_nodup

variable [DecidableEq κ]

theorem mem_values_iff {m : Map κ ν} {v : ν} : v ∈ values m ↔ ∃ k, m.lookup k = some v := by
  rw [values, List.mem_map]
  constructor
  · intro h
    obtain ⟨⟨k, w⟩, he, rfl⟩ := h
    exact ⟨k, AList.mem_lookup_iff.mpr he⟩
  · intro h
    obtain ⟨k, hk⟩ := h
    exact ⟨⟨k, v⟩, AList.mem_lookup_iff.mp hk, rfl⟩

theorem lookup_key {key : ν → κ} {m : Map κ ν} (hm : KeyedBy key m) {v : ν} :
    v ∈ values m ↔ m.lookup (key v) = some v := by
  rw [mem_values_iff]
  refine ⟨fun h => ?_, fun h => ⟨_, h⟩⟩
  obtain ⟨k, hk⟩ := h
  have hkey : k = key v := hm ⟨k, v⟩ (AList.mem_lookup_iff.mp hk)
  rwa [hkey] at hk

/-- What `f` shows of the values depends on what it shows under each key, up to order. -/
theorem perm_map_values {f : ν → μ} {m m' : Map κ ν}
    (h : ∀ k, (m.lookup k).map f = (m'.lookup k).map f) :
    ((values m).map f).Perm ((values m').map f) := by
  have hshown : ∀ m : Map κ ν, (values m).map f =
      ((m.entries.map (.map id fun _ => f) : List (Sigma fun _ : κ => μ))).map Sigma.snd := by
    intro m
    rw [values, List.map_map, List.map_map]
    rfl
  have hnodup : ∀ m : Map κ ν,
      (m.entries.map (.map id fun _ => f) : List (Sigma fun _ : κ => μ)).NodupKeys := by
    intro m
    unfold List.NodupKeys
    rw [List.map₂_keys]
    exact m.keys_nodup
  rw [hshown, hshown]
  refine List.Perm.map _ (List.lookup_ext (hnodup m) (hnodup m') fun k v => ?_)
  rw [List.dlookup_map₂, List.dlookup_map₂]
  show v ∈ (m.lookup k).map f ↔ v ∈ (m'.lookup k).map f
  rw [h]

/-! ## Filling -/

/-- Store what `g` makes of a value under the value's key. -/
def put (key : ν → κ) (g : ν → Option μ) (m : Map κ μ) (v : ν) : Map κ μ :=
  match g v with
  | some x => m.insert (key v) x
  | none => m

def putAll (key : ν → κ) (g : ν → Option μ) (l : List ν) (m : Map κ μ) : Map κ μ :=
  l.foldl (put key g) m

theorem lookup_put (key : ν → κ) (g : ν → Option μ) (m : Map κ μ) (v : ν) (k : κ) :
    (put key g m v).lookup k = (if key v = k then g v else none).or (m.lookup k) := by
  unfold put
  cases hg : g v with
  | none =>
    by_cases hk : key v = k
    · rw [if_pos hk, Option.none_or]
    · rw [if_neg hk, Option.none_or]
  | some x =>
    by_cases hk : key v = k
    · subst hk
      rw [if_pos rfl]
      exact AList.lookup_insert m
    · rw [if_neg hk, Option.none_or]
      exact AList.lookup_insert_ne fun h => hk h.symm

theorem lookup_putAll (key : ν → κ) (g : ν → Option μ) (l : List ν) (m : Map κ μ) (k : κ) :
    (putAll key g l m).lookup k =
      (l.reverse.findSome? fun v => if key v = k then g v else none).or (m.lookup k) := by
  unfold putAll
  induction l generalizing m with
  | nil => rfl
  | cons v l ih =>
    rw [List.foldl_cons, ih, lookup_put, List.reverse_cons, List.findSome?_append,
      List.findSome?_singleton, Option.or_assoc]

theorem keyedBy_put {key : μ → κ} {key' : ν → κ} {g : ν → Option μ}
    (hg : ∀ v x, g v = some x → key x = key' v) {m : Map κ μ} (hm : KeyedBy key m) (v : ν) :
    KeyedBy key (put key' g m v) := by
  unfold put
  cases h : g v with
  | none => exact hm
  | some x =>
    intro e he
    rw [AList.entries_insert, List.mem_cons] at he
    rcases he with rfl | he
    · exact (hg v x h).symm
    · exact hm e ((List.kerase_sublist _ m.entries).subset he)

theorem keyedBy_putAll {key : μ → κ} {key' : ν → κ} {g : ν → Option μ}
    (hg : ∀ v x, g v = some x → key x = key' v) {m : Map κ μ} (hm : KeyedBy key m)
    (l : List ν) : KeyedBy key (putAll key' g l m) := by
  unfold putAll
  induction l generalizing m with
  | nil => exact hm
  | cons v l ih => exact ih (keyedBy_put hg hm v)

/-- A search by key in the values of a map, in any order, finds what the map
looks up. -/
theorem findSome?_values {key : ν → κ} {m : Map κ ν} (hm : KeyedBy key m) {l : List ν}
    (hl : l.Perm (values m)) (g : ν → Option μ) (k : κ) :
    (l.findSome? fun v => if key v = k then g v else none) = (m.lookup k).bind g := by
  cases hfind : l.findSome? fun v => if key v = k then g v else none with
  | none =>
    rw [List.findSome?_eq_none_iff] at hfind
    cases hk : m.lookup k with
    | none => rfl
    | some v =>
      have hkey : key v = k := (hm ⟨k, v⟩ (AList.mem_lookup_iff.mp hk)).symm
      have hv : v ∈ l := hl.mem_iff.mpr (mem_values_iff.mpr ⟨k, hk⟩)
      have := hfind v hv
      rw [if_pos hkey] at this
      exact this.symm
  | some x =>
    obtain ⟨v, hv, hx⟩ := List.exists_of_findSome?_eq_some hfind
    by_cases hkey : key v = k
    · rw [if_pos hkey] at hx
      have hlook := (lookup_key hm).mp (hl.mem_iff.mp hv)
      rw [hkey] at hlook
      rw [hlook]
      exact hx.symm
    · rw [if_neg hkey] at hx
      cases hx

/-! ## Thinning out -/

/-- Erase the entry `e` if its value satisfies `p`. -/
def eraseIf (p : ν → Bool) (m : Map κ ν) (e : Sigma fun _ : κ => ν) : Map κ ν :=
  if p e.2 then m.erase e.1 else m

/-- Walk over the entries and erase those that satisfy `p`. -/
def eraseWhere (p : ν → Bool) (m : Map κ ν) : Map κ ν := m.entries.foldl (eraseIf p) m

theorem lookup_eraseIf (p : ν → Bool) (m : Map κ ν) (e : Sigma fun _ : κ => ν) (k : κ) :
    (eraseIf p m e).lookup k = if e.1 = k ∧ p e.2 = true then none else m.lookup k := by
  unfold eraseIf
  by_cases hp : p e.2 = true
  · by_cases hk : e.1 = k
    · rw [if_pos hp, if_pos ⟨hk, hp⟩, hk]
      exact AList.lookup_erase k m
    · rw [if_pos hp, if_neg fun h => hk h.1]
      exact AList.lookup_erase_ne fun h => hk h.symm
  · rw [if_neg hp, if_neg fun h => hp h.2]

theorem lookup_foldl_eraseIf (p : ν → Bool) (l : List (Sigma fun _ : κ => ν)) (m : Map κ ν)
    (k : κ) :
    (l.foldl (eraseIf p) m).lookup k =
      if ∃ e ∈ l, e.1 = k ∧ p e.2 = true then none else m.lookup k := by
  induction l generalizing m with
  | nil => simp
  | cons e l ih =>
    rw [List.foldl_cons, ih, lookup_eraseIf]
    by_cases hl : ∃ e' ∈ l, e'.1 = k ∧ p e'.2 = true
    · simp [hl]
    · by_cases he : e.1 = k ∧ p e.2 = true
      · simp [hl, he]
      · simp [hl, he]

theorem lookup_eraseWhere (p : ν → Bool) (m : Map κ ν) (k : κ) :
    (eraseWhere p m).lookup k = (m.lookup k).filter fun v => !p v := by
  rw [eraseWhere, lookup_foldl_eraseIf]
  cases hk : m.lookup k with
  | none => rw [ite_self, Option.filter_none]
  | some v =>
    have hmem : (⟨k, v⟩ : Sigma fun _ : κ => ν) ∈ m.entries := AList.mem_lookup_iff.mp hk
    have herased : (∃ e ∈ m.entries, e.1 = k ∧ p e.2 = true) ↔ p v = true := by
      refine ⟨fun h => ?_, fun h => ⟨⟨k, v⟩, hmem, rfl, h⟩⟩
      obtain ⟨⟨k', w⟩, he, hk', hw⟩ := h
      have hlook : m.lookup k' = some w := AList.mem_lookup_iff.mpr he
      cases hk'
      rw [hk] at hlook
      cases hlook
      exact hw
    rw [Option.filter_some]
    by_cases hp : p v = true
    · rw [if_pos (herased.mpr hp), hp]
      rfl
    · rw [if_neg fun h => hp (herased.mp h)]
      simp [hp]

theorem KeyedBy.erase {key : ν → κ} {m : Map κ ν} (hm : KeyedBy key m) (k : κ) :
    KeyedBy key (m.erase k) := fun e he => hm e ((List.kerase_sublist k m.entries).subset he)

theorem keyedBy_eraseWhere {key : ν → κ} (p : ν → Bool) {m : Map κ ν} (hm : KeyedBy key m) :
    KeyedBy key (eraseWhere p m) := by
  unfold eraseWhere
  generalize m.entries = l
  induction l generalizing m with
  | nil => exact hm
  | cons e l ih =>
    refine ih ?_
    unfold eraseIf
    by_cases hp : p e.2 = true
    · rw [if_pos hp]
      exact hm.erase e.1
    · rw [if_neg hp]
      exact hm

end KeyedMap
