/-
A store whose entries are overwritten and expire.

Each step of a history may write a value under a key and then decides which values
it keeps.  A key holds a value exactly if some step wrote it, no later step wrote
another, and the writing step and all later ones kept it.  Where keeping at the
last step means having been kept at the earlier ones, only the last decision
counts.
-/
import Mathlib.Data.List.Induction
import NeighborDiscovery.Library.Runs

namespace Expiry

variable {β κ ν : Type*} (write : β → κ → Option ν) (keep : β → κ → ν → Bool)

def after (old : κ → Option ν) (b : β) : κ → Option ν :=
  fun k => ((write b k).or (old k)).filter (keep b k)

/-- The contents after a history, the oldest step first. -/
def contents (h : List β) : κ → Option ν := h.foldl (after write keep) fun _ => none

/-- The step `b` of a history wrote the value `v` under `k` and no later step wrote
under `k`. -/
def LastWrite (h : List β) (k : κ) (b : β) (v : ν) : Prop :=
  ∃ h₁ h₂, h = h₁ ++ b :: h₂ ∧ write b k = some v ∧ ∀ c ∈ h₂, write c k = none

variable {write keep}

theorem contents_snoc (h : List β) (b : β) (k : κ) :
    contents write keep (h ++ [b]) k =
      ((write b k).or (contents write keep h k)).filter (keep b k) := by
  rw [contents, List.foldl_append]
  rfl

theorem contents_eq_some {h : List β} {k : κ} {v : ν} :
    contents write keep h k = some v ↔
      ∃ h₁ b h₂, h = h₁ ++ b :: h₂ ∧ write b k = some v ∧ (∀ c ∈ h₂, write c k = none) ∧
        ∀ c ∈ b :: h₂, keep c k v = true := by
  induction h using List.reverseRecOn with
  | nil =>
    constructor
    · intro hv
      cases hv
    · intro hex
      obtain ⟨h₁, b, h₂, hsplit, -⟩ := hex
      exact absurd hsplit.symm (by simp)
  | append_singleton h b ih =>
    rw [contents_snoc, Option.filter_eq_some_iff]
    constructor
    · intro hv
      obtain ⟨hor, hkeep⟩ := hv
      rcases Option.or_eq_some_iff.mp hor with hwrite | ⟨hwrite, hold⟩
      · refine ⟨h, b, [], rfl, hwrite, fun c hc => absurd hc List.not_mem_nil, fun c hc => ?_⟩
        rw [List.mem_singleton.mp hc]
        exact hkeep
      · obtain ⟨h₁, c, h₂, rfl, hc, hlater, hkept⟩ := ih.mp hold
        refine ⟨h₁, c, h₂ ++ [b], by simp, hc, fun d hd => ?_, fun d hd => ?_⟩
        · rcases List.mem_append.mp hd with hd | hd
          · exact hlater d hd
          · rw [List.mem_singleton.mp hd]
            exact hwrite
        · rcases List.mem_cons.mp hd with rfl | hd
          · exact hkept d (List.mem_cons_self ..)
          · rcases List.mem_append.mp hd with hd | hd
            · exact hkept d (List.mem_cons_of_mem _ hd)
            · rw [List.mem_singleton.mp hd]
              exact hkeep
    · intro hex
      obtain ⟨h₁, c, h₂, hsplit, hc, hlater, hkept⟩ := hex
      rcases Runs.snoc_eq_split.mp hsplit with ⟨rfl, rfl, rfl⟩ | ⟨h₃, rfl, rfl⟩
      · exact ⟨Option.or_eq_some_iff.mpr (Or.inl hc), hkept b (List.mem_singleton_self b)⟩
      · have hwrite : write b k = none := hlater b (by simp)
        have hold := ih.mpr ⟨h₁, c, h₃, rfl, hc, fun e he => hlater e (by simp [he]),
          fun e he => hkept e (List.mem_append_left [b] he)⟩
        exact ⟨Option.or_eq_some_iff.mpr (Or.inr ⟨hwrite, hold⟩), hkept b (by simp)⟩

/-- A value that is held was the last one written and is kept by the last step. -/
theorem contents_snoc_some {h : List β} {b : β} {k : κ} {v : ν}
    (hv : contents write keep (h ++ [b]) k = some v) :
    (∃ c, LastWrite write (h ++ [b]) k c v) ∧ keep b k v = true := by
  obtain ⟨h₁, c, h₂, hsplit, hc, hlater, hkept⟩ := contents_eq_some.mp hv
  refine ⟨⟨c, h₁, h₂, hsplit, hc, hlater⟩, hkept b ?_⟩
  rcases Runs.snoc_eq_split.mp hsplit with ⟨rfl, -, rfl⟩ | ⟨h₃, rfl, -⟩
  · exact List.mem_singleton_self b
  · exact List.mem_cons_of_mem c (List.mem_append_right h₃ (List.mem_singleton_self b))

/-- Where a value that the last step keeps was kept at every earlier one, only the
last step decides. -/
theorem contents_snoc_eq_some {h : List β} {b : β} {k : κ} {v : ν}
    (hmono : ∀ c ∈ h, keep b k v = true → keep c k v = true) :
    contents write keep (h ++ [b]) k = some v ↔
      (∃ c, LastWrite write (h ++ [b]) k c v) ∧ keep b k v = true := by
  refine ⟨contents_snoc_some, fun hboth => contents_eq_some.mpr ?_⟩
  obtain ⟨⟨c, h₁, h₂, hsplit, hc, hlater⟩, hkeep⟩ := hboth
  refine ⟨h₁, c, h₂, hsplit, hc, hlater, fun d hd => ?_⟩
  have hmem : d ∈ h ++ [b] := by
    rw [hsplit]
    exact List.mem_append_right h₁ hd
  rcases List.mem_append.mp hmem with hd | hd
  · exact hmono d hd hkeep
  · rw [List.mem_singleton.mp hd]
    exact hkeep

/-- What the last write left is held as long as every later step keeps it. -/
theorem contents_last {h₁ h₂ : List β} {b : β} {k : κ} {v x : ν} (hwrite : write b k = some v)
    (hlater : ∀ c ∈ h₂, write c k = none) :
    contents write keep (h₁ ++ b :: h₂) k = some x ↔ x = v ∧ ∀ c ∈ b :: h₂, keep c k v = true := by
  induction h₂ using List.reverseRecOn generalizing x with
  | nil =>
    rw [contents_snoc, hwrite, Option.some_or, Option.filter_eq_some_iff, List.forall_mem_singleton,
      Option.some_inj]
    constructor
    · intro h
      rw [h.1]
      exact ⟨rfl, h.2⟩
    · intro h
      rw [h.1]
      exact ⟨rfl, h.2⟩
  | append_singleton h₂ c ih =>
    have hbefore := ih (x := x) fun d hd => hlater d (List.mem_append_left [c] hd)
    rw [← List.cons_append, ← List.append_assoc, contents_snoc, hlater c (by simp),
      Option.none_or, Option.filter_eq_some_iff, hbefore, List.forall_mem_append,
      List.forall_mem_singleton]
    constructor
    · intro h
      exact ⟨h.1.1, h.1.2, h.1.1 ▸ h.2⟩
    · intro h
      exact ⟨⟨h.1, h.2.1⟩, h.1.symm ▸ h.2.2⟩

/-- A key that holds nothing holds nothing until it is written again. -/
theorem contents_none {h₁ h₂ : List β} {k : κ} (h : contents write keep h₁ k = none)
    (hlater : ∀ c ∈ h₂, write c k = none) : contents write keep (h₁ ++ h₂) k = none := by
  induction h₂ using List.reverseRecOn with
  | nil =>
    rw [List.append_nil]
    exact h
  | append_singleton h₂ b ih =>
    have hrest := ih fun c hc => hlater c (List.mem_append_left [b] hc)
    rw [← List.append_assoc, contents_snoc, hlater b (by simp), hrest]
    rfl

end Expiry
