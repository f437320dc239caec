/-
The contents of an `IndexedTimedSet` after any calls.

The calls that change the set come with the clock readings they take.  An entry is
there exactly if an update wrote it and no later call overwrote it, removed its key
or found it too old.  `removeOlder` is compared with its loop, which erases from the
map it walks over.
-/
import NeighborDiscovery.Containers.IndexedTimedSet
import NeighborDiscovery.Library.ErasingLoop
import NeighborDiscovery.Library.Expiry

namespace NeighborDiscovery

namespace IndexedTimedSet

variable {TIndex TData : Type} [DecidableEq TIndex]

/-- A call that changes the set. -/
inductive Call (TIndex TData : Type) where
  | update (index : TIndex) (data : TData)
  | remove (index : TIndex)
  | removeOlder (maxDuration : Int)

/-- A call and the clock reading during it. -/
abbrev TimedCall (TIndex TData : Type) := Call TIndex TData × Int

def apply (s : IndexedTimedSet TIndex TData) : TimedCall TIndex TData →
    IndexedTimedSet TIndex TData
  | (.update index data, now) => s.update index data now
  | (.remove index, _) => s.remove index
  | (.removeOlder maxDuration, now) => s.removeOlder maxDuration now

/-- The set after some calls, the first one first. -/
def afterCalls (calls : List (TimedCall TIndex TData)) : IndexedTimedSet TIndex TData :=
  calls.foldl apply empty

/-- An update at `t` put the data there, and since then no call has overwritten it,
removed its key or found it older than allowed. -/
def Stands (calls : List (TimedCall TIndex TData)) (index : TIndex) (data : TData) (t : Int) :
    Prop :=
  ∃ earlier later, calls = earlier ++ (.update index data, t) :: later ∧
    (∀ data' s, (.update index data', s) ∉ later) ∧ (∀ s, (.remove index, s) ∉ later) ∧
    ∀ maxDuration s, (.removeOlder maxDuration, s) ∈ later → s - t ≤ maxDuration

/-! ## Calls as steps of a store -/

def written (c : TimedCall TIndex TData) (k : TIndex) : Option (TData × Int) :=
  match c.1 with
  | .update index data => if index = k then some (data, c.2) else none
  | _ => none

def kept (c : TimedCall TIndex TData) (k : TIndex) (e : TData × Int) : Bool :=
  match c.1 with
  | .update _ _ => true
  | .remove index => decide (index ≠ k)
  | .removeOlder maxDuration => decide (c.2 - e.2 ≤ maxDuration)

theorem written_update (index k : TIndex) (data : TData) (now : Int) :
    written (.update index data, now) k = if index = k then some (data, now) else none := rfl

theorem lookup_apply (s : IndexedTimedSet TIndex TData) (c : TimedCall TIndex TData)
    (k : TIndex) :
    (s.apply c).lookup k = ((written c k).or (s.lookup k)).filter (kept c k) := by
  obtain ⟨call, now⟩ := c
  cases call with
  | update index data =>
    show (s.map.insert index (data, now)).lookup k = _
    rw [written_update]
    by_cases hk : index = k
    · subst hk
      rw [if_pos rfl, AList.lookup_insert]
      rfl
    · rw [if_neg hk, Option.none_or, AList.lookup_insert_ne fun h => hk h.symm]
      show s.map.lookup k = (s.map.lookup k).filter fun _ => true
      cases s.map.lookup k <;> rfl
  | remove index =>
    show (s.map.erase index).lookup k = (s.map.lookup k).filter fun _ => decide (index ≠ k)
    by_cases hk : index = k
    · subst hk
      rw [AList.lookup_erase]
      cases s.map.lookup index <;> simp
    · rw [AList.lookup_erase_ne fun h => hk h.symm]
      cases s.map.lookup k <;> simp [hk, Option.filter_some]
  | removeOlder maxDuration => exact lookup_removeOlder s maxDuration now k

theorem lookup_afterCalls (calls : List (TimedCall TIndex TData)) (k : TIndex) :
    (afterCalls calls).lookup k = Expiry.contents written kept calls k := by
  induction calls using List.reverseRecOn generalizing k with
  | nil => rfl
  | append_singleton calls c ih =>
    rw [Expiry.contents_snoc, ← ih]
    unfold afterCalls
    rw [List.foldl_append]
    exact lookup_apply _ c k

theorem written_eq_none {c : TimedCall TIndex TData} {k : TIndex} :
    written c k = none ↔ ∀ data s, c ≠ (.update k data, s) := by
  obtain ⟨call, now⟩ := c
  cases call with
  | update index data =>
    rw [written_update]
    by_cases hk : index = k
    · subst hk
      rw [if_pos rfl]
      exact iff_of_false (by simp) fun h => h data now rfl
    · rw [if_neg hk]
      refine iff_of_true rfl fun data' s h => ?_
      cases h
      exact hk rfl
  | remove index => exact iff_of_true rfl fun data s h => by cases h
  | removeOlder maxDuration => exact iff_of_true rfl fun data s h => by cases h

theorem written_eq_some {c : TimedCall TIndex TData} {k : TIndex} {data : TData} {t : Int} :
    written c k = some (data, t) ↔ c = (.update k data, t) := by
  obtain ⟨call, now⟩ := c
  cases call with
  | update index data' =>
    rw [written_update]
    by_cases hk : index = k
    · subst hk
      simp
    · simp [hk]
  | remove index => simp [written]
  | removeOlder maxDuration => simp [written]

theorem kept_eq_true {c : TimedCall TIndex TData} {k : TIndex} {data : TData} {t : Int} :
    kept c k (data, t) = true ↔ (∀ s, c ≠ (.remove k, s)) ∧
      ∀ maxDuration s, c = (.removeOlder maxDuration, s) → s - t ≤ maxDuration := by
  obtain ⟨call, now⟩ := c
  cases call with
  | update index data' => simp [kept]
  | remove index => simp [kept]
  | removeOlder maxDuration =>
    simp only [kept, decide_eq_true_eq]
    constructor
    · intro h
      refine ⟨fun s hs => ?_, fun D s hs => ?_⟩
      · cases hs
      · cases hs
        exact h
    · intro h
      exact h.2 maxDuration now rfl

/-- An entry is there if and only if the calls left it standing. -/
theorem lookup_eq_some {calls : List (TimedCall TIndex TData)} {k : TIndex} {data : TData}
    {t : Int} : (afterCalls calls).lookup k = some (data, t) ↔ Stands calls k data t := by
  rw [lookup_afterCalls, Expiry.contents_eq_some]
  constructor
  · intro h
    obtain ⟨earlier, c, later, hsplit, hwrite, hlater, hkept⟩ := h
    rw [written_eq_some] at hwrite
    subst hwrite
    refine ⟨earlier, later, hsplit, fun data' s hmem => ?_, fun s hmem => ?_,
      fun maxDuration s hmem => ?_⟩
    · exact written_eq_none.mp (hlater _ hmem) data' s rfl
    · exact (kept_eq_true.mp (hkept _ (List.mem_cons_of_mem _ hmem))).1 s rfl
    · exact (kept_eq_true.mp (hkept _ (List.mem_cons_of_mem _ hmem))).2 maxDuration s rfl
  · intro h
    obtain ⟨earlier, later, hsplit, hupdates, hremoves, hages⟩ := h
    refine ⟨earlier, _, later, hsplit, written_eq_some.mpr rfl, fun c hc => ?_, fun c hc => ?_⟩
    · apply written_eq_none.mpr
      intro data' s heq
      rw [heq] at hc
      exact hupdates data' s hc
    · rcases List.mem_cons.mp hc with rfl | hc
      · rfl
      · apply kept_eq_true.mpr
        refine ⟨fun s heq => ?_, fun maxDuration s heq => ?_⟩
        · rw [heq] at hc
          exact hremoves s hc
        · rw [heq] at hc
          exact hages maxDuration s hc

/-! ## What `data` returns -/

/-- One value for every key that is present. -/
def DataOfKeys (s : IndexedTimedSet TIndex TData) (data : List TData) : Prop :=
  ∃ keys : List TIndex, keys.Nodup ∧ (∀ k, k ∈ keys ↔ (s.lookup k).isSome = true) ∧
    (data.map some).Perm (keys.map fun k => (s.lookup k).map Prod.fst)

theorem data_ofKeys (s : IndexedTimedSet TIndex TData) (order : Traversal (TData × Int)) :
    s.DataOfKeys (s.data order) := by
  refine ⟨s.map.keys, s.map.keys_nodup, fun k => AList.lookup_isSome.symm, ?_⟩
  have hvalues : ((KeyedMap.values s.map).map Prod.fst).map some =
      s.map.keys.map fun k => (s.lookup k).map Prod.fst := by
    show ((s.map.entries.map Sigma.snd).map Prod.fst).map some = (s.map.entries.map Sigma.fst).map _
    rw [List.map_map, List.map_map, List.map_map]
    apply List.map_congr_left
    intro e he
    have hlook : s.map.lookup e.1 = some e.2 := AList.mem_lookup_iff.mpr he
    show some e.2.1 = (s.map.lookup e.1).map Prod.fst
    rw [hlook]
    rfl
  rw [← hvalues]
  exact ((order.perm (KeyedMap.values s.map)).map Prod.fst).map some

theorem size_eq (s : IndexedTimedSet TIndex TData) (order : Traversal (TData × Int)) :
    s.size = (s.data order).length := by
  have hlen := (order.perm (KeyedMap.values s.map)).length_eq
  unfold KeyedMap.values at hlen
  rw [List.length_map] at hlen
  unfold data KeyedMap.values
  rw [List.length_map, hlen]
  rfl

/-! ## The loop of `remove(maxDuration)` -/

/-- An element of the map: a key, its data and the time of its update. -/
abbrev Entry (TIndex TData : Type) := Sigma fun _ : TIndex => TData × Int

def tooOld (maxDuration now : Int) (e : Entry TIndex TData) : Bool :=
  decide (now - e.2.2 > maxDuration)

/-- The loop over the map, traversed in the order `order`. -/
def removeLoop (order : Traversal (Entry TIndex TData)) (s : IndexedTimedSet TIndex TData)
    (maxDuration now : Int) : ErasingLoop.Walk (Entry TIndex TData) :=
  ErasingLoop.loop (tooOld maxDuration now) (ErasingLoop.start (order.visit s.map.entries))

/-- The loop looks at every entry once and leaves those that `removeOlder` leaves. -/
theorem removeLoop_entries (order : Traversal (Entry TIndex TData))
    (s : IndexedTimedSet TIndex TData) (maxDuration now : Int) :
    (removeLoop order s maxDuration now).examined.Nodup ∧
      (removeLoop order s maxDuration now).examined.Perm s.map.entries ∧
      (removeLoop order s maxDuration now).elements.Perm
        (s.removeOlder maxDuration now).map.entries := by
  obtain ⟨hexamined, helements⟩ :=
    ErasingLoop.loop_start (tooOld maxDuration now) (order.visit s.map.entries)
  have hperm := order.perm s.map.entries
  have hkeys : (order.visit s.map.entries).NodupKeys :=
    (List.perm_nodupKeys hperm).mpr s.map.nodupKeys
  have hkept : (ErasingLoop.kept (tooOld maxDuration now)
      (order.visit s.map.entries)).NodupKeys := hkeys.sublist List.filter_sublist
  unfold removeLoop
  rw [hexamined, helements]
  refine ⟨hkeys.nodup, hperm,
    List.lookup_ext hkept (s.removeOlder maxDuration now).map.nodupKeys fun k e => ?_⟩
  show _ ↔ (s.removeOlder maxDuration now).lookup k = some e
  rw [lookup_removeOlder, Option.filter_eq_some_iff, List.mem_dlookup_iff hkept]
  unfold ErasingLoop.kept
  rw [List.mem_filter, hperm.mem_iff]
  refine and_congr AList.mem_lookup_iff.symm ?_
  simp [tooOld]

/-- After any calls the entries are those that stand, `data` has one value for each key
and `size` counts them, and the loop of the next `remove(maxDuration)` looks at every
entry once. -/
theorem contents_are_history (calls : List (TimedCall TIndex TData)) :
    (∀ index data t, (afterCalls calls).lookup index = some (data, t) ↔
      Stands calls index data t) ∧
    (∀ order, (afterCalls calls).DataOfKeys ((afterCalls calls).data order) ∧
      (afterCalls calls).size = ((afterCalls calls).data order).length) ∧
    ∀ order maxDuration now,
      (removeLoop order (afterCalls calls) maxDuration now).examined.Nodup ∧
      (removeLoop order (afterCalls calls) maxDuration now).examined.Perm
        (afterCalls calls).map.entries ∧
      (removeLoop order (afterCalls calls) maxDuration now).elements.Perm
        (afterCalls (calls ++ [(.removeOlder maxDuration, now)])).map.entries := by
  refine ⟨fun _ _ _ => lookup_eq_some, fun order => ⟨data_ofKeys _ order, size_eq _ order⟩,
    fun order maxDuration now => ?_⟩
  have hnext : afterCalls (calls ++ [(.removeOlder maxDuration, now)]) =
      (afterCalls calls).removeOlder maxDuration now := by
    unfold afterCalls
    rw [List.foldl_append]
    rfl
  rw [hnext]
  exact removeLoop_entries order (afterCalls calls) maxDuration now

end IndexedTimedSet

end NeighborDiscovery
