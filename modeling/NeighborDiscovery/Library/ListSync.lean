/-
A list of keys that follows a list of elements through its differences.

`sync` removes the keys of the elements that left and appends the keys of those
that arrived.  Whether the keys stay in step depends on two key functions, the
one that names the keys to remove and the one that made them: the results below
say what each has to satisfy for the list to serve every element, to hold no key
twice, and to hold no key of an element that is gone.
-/
import Mathlib.Data.List.Nodup

namespace ListSync

variable {α κ : Type*} [DecidableEq α] [DecidableEq κ]

def departed (old new : List α) : List α := old.filter (· ∉ new)

def arrived (old new : List α) : List α := new.filter (· ∉ old)

/-- Bring `keys` from the elements `old` to the elements `new`. -/
def sync (key : α → κ) (old new : List α) (keys : List κ) : List κ :=
  keys.filter (fun k => k ∉ (departed old new).map key) ++ (arrived old new).map key

theorem mem_departed {old new : List α} {a : α} : a ∈ departed old new ↔ a ∈ old ∧ a ∉ new := by
  rw [departed, List.mem_filter, decide_eq_true_iff]

theorem mem_arrived {old new : List α} {a : α} : a ∈ arrived old new ↔ a ∈ new ∧ a ∉ old := by
  rw [arrived, List.mem_filter, decide_eq_true_iff]

theorem departed_self (l : List α) : departed l l = [] :=
  List.filter_eq_nil_iff.mpr fun _ ha h => of_decide_eq_true h ha

theorem arrived_self (l : List α) : arrived l l = [] := departed_self l

theorem sync_congr {key key' : α → κ} {old new : List α} (h : ∀ a ∈ old ++ new, key a = key' a)
    (keys : List κ) : sync key old new keys = sync key' old new keys := by
  have hdeparted : (departed old new).map key = (departed old new).map key' :=
    List.map_congr_left fun a ha => h a (List.mem_append_left new (mem_departed.mp ha).1)
  have harrived : (arrived old new).map key = (arrived old new).map key' :=
    List.map_congr_left fun a ha => h a (List.mem_append_right old (mem_arrived.mp ha).1)
  rw [sync, sync, hdeparted, harrived]

theorem mem_sync {key : α → κ} {old new : List α} {keys : List κ} {k : κ} :
    k ∈ sync key old new keys ↔
      (k ∈ keys ∧ ∀ a ∈ old, a ∉ new → key a ≠ k) ∨ ∃ a ∈ new, a ∉ old ∧ key a = k := by
  rw [sync, List.mem_append, List.mem_filter, decide_eq_true_iff, List.mem_map, List.mem_map]
  simp only [mem_departed, mem_arrived]
  refine or_congr (and_congr_right fun _ => ?_) ?_
  · refine ⟨fun h a hold hnew hk => h ⟨a, ⟨hold, hnew⟩, hk⟩, fun h => ?_⟩
    intro hex
    obtain ⟨a, ⟨hold, hnew⟩, hk⟩ := hex
    exact h a hold hnew hk
  · constructor
    · intro h
      obtain ⟨a, ⟨hnew, hold⟩, hk⟩ := h
      exact ⟨a, hnew, hold, hk⟩
    · intro h
      obtain ⟨a, hnew, hold, hk⟩ := h
      exact ⟨a, ⟨hnew, hold⟩, hk⟩

/-- If the keys to remove are never those of an element that stays, every element
of the new list is served where every element of the old one was. -/
theorem served {key key' : α → κ} {old new : List α} {keys : List κ}
    (hserved : ∀ a ∈ old, key a ∈ keys) (hmade : ∀ a ∈ new, key' a = key a)
    (hstay : ∀ a ∈ old, a ∉ new → ∀ b ∈ old, b ∈ new → key' a ≠ key b) :
    ∀ b ∈ new, key b ∈ sync key' old new keys := by
  intro b hb
  by_cases hold : b ∈ old
  · exact mem_sync.mpr (Or.inl ⟨hserved b hold, fun a ha hna => hstay a ha hna b hold hb⟩)
  · exact mem_sync.mpr (Or.inr ⟨b, hb, hold, hmade b hb⟩)

/-- If every key comes from an element of the old list or belongs to a set that
keeps its keys, so it is after the step, provided the keys to remove are the ones
that were made. -/
theorem within {key key' : α → κ} {old new : List α} {keys : List κ} {spare : κ → Prop}
    (hwithin : ∀ k ∈ keys, (∃ a ∈ old, key a = k) ∨ spare k)
    (hmade : ∀ a ∈ new, key' a = key a)
    (hremove : ∀ a ∈ old, a ∉ new → key' a = key a) :
    ∀ k ∈ sync key' old new keys, (∃ a ∈ new, key a = k) ∨ spare k := by
  intro k hk
  rcases mem_sync.mp hk with ⟨hk, hkept⟩ | ⟨a, hnew, -, rfl⟩
  · rcases hwithin k hk with ⟨a, hold, rfl⟩ | hspare
    · by_cases hnew : a ∈ new
      · exact Or.inl ⟨a, hnew, rfl⟩
      · exact absurd (hremove a hold hnew) (hkept a hold hnew)
    · exact Or.inr hspare
  · exact Or.inl ⟨a, hnew, (hmade a hnew).symm⟩

/-- No key is held twice after the step, if none was before it, the keys that are
added are different, and a key that is added and was held already is one of those
to remove. -/
theorem nodup {key : α → κ} {old new : List α} {keys : List κ} (hkeys : keys.Nodup)
    (hnew : (new.map key).Nodup)
    (hheld : ∀ a ∈ new, a ∉ old → key a ∈ keys → ∃ b ∈ old, b ∉ new ∧ key b = key a) :
    (sync key old new keys).Nodup := by
  have hadded : ((arrived old new).map key).Nodup :=
    hnew.sublist (List.filter_sublist.map key)
  refine List.nodup_append.mpr ⟨hkeys.filter _, hadded, fun k hk k' hk' heq => ?_⟩
  subst heq
  rw [List.mem_filter, decide_eq_true_iff] at hk
  obtain ⟨a, ha, rfl⟩ := List.mem_map.mp hk'
  obtain ⟨hanew, haold⟩ := mem_arrived.mp ha
  obtain ⟨b, hbold, hbnew, hkey⟩ := hheld a hanew haold hk.1
  exact hk.2 (List.mem_map.mpr ⟨b, mem_departed.mpr ⟨hbold, hbnew⟩, hkey⟩)

/-- Which elements departed and which arrived does not depend on the order of the
two lists. -/
theorem departed_perm {old old' new new' : List α} (hold : old.Perm old') (hnew : new.Perm new') :
    (departed old new).Perm (departed old' new') := by
  have hsame : (fun a => decide (a ∉ new)) = fun a => decide (a ∉ new') :=
    funext fun a => decide_eq_decide.mpr (not_congr hnew.mem_iff)
  unfold departed
  rw [hsame]
  exact hold.filter _

theorem arrived_perm {old old' new new' : List α} (hold : old.Perm old') (hnew : new.Perm new') :
    (arrived old new).Perm (arrived old' new') := departed_perm hnew hold

theorem departed_of_perm {old new : List α} (h : old.Perm new) : departed old new = [] :=
  List.filter_eq_nil_iff.mpr fun _ ha hna => of_decide_eq_true hna (h.mem_iff.mp ha)

theorem arrived_of_perm {old new : List α} (h : old.Perm new) : arrived old new = [] :=
  departed_of_perm h.symm

theorem sync_perm {key : α → κ} {old old' new new' : List α} {keys keys' : List κ}
    (hold : old.Perm old') (hnew : new.Perm new') (hkeys : keys.Perm keys') :
    (sync key old new keys).Perm (sync key old' new' keys') := by
  have hremove : ((departed old new).map key).Perm ((departed old' new').map key) :=
    (departed_perm hold hnew).map key
  have hadd : ((arrived old new).map key).Perm ((arrived old' new').map key) :=
    (arrived_perm hold hnew).map key
  have hsame : (fun k => decide (k ∉ (departed old new).map key)) =
      fun k => decide (k ∉ (departed old' new').map key) :=
    funext fun k => decide_eq_decide.mpr (not_congr hremove.mem_iff)
  unfold sync
  rw [hsame]
  exact (hkeys.filter _).append hadd

end ListSync
