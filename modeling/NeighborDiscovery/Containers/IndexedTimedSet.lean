/-
A map from keys to data with the time of their last update.

Clock readings are nanoseconds of `std::chrono::steady_clock`, and every
operation that reads the clock takes the reading as an argument.  The traversal
order of `std::unordered_map` is left open: `data` follows any order the caller
supplies.
-/
import NeighborDiscovery.Library.KeyedMap

namespace NeighborDiscovery

/-- An order in which the elements of a container are visited. -/
structure Traversal (α : Type) where
  visit : List α → List α
  perm : ∀ l, (visit l).Perm l

/-- The order in which the elements are kept. -/
def Traversal.kept (α : Type) : Traversal α := ⟨id, fun l => List.Perm.refl l⟩

/-- `std::chrono::seconds(n)` in nanoseconds. -/
def seconds (n : Nat) : Int := n * 1000000000

/-- `Containers::IndexedTimedSet<TIndex, TData>`. -/
structure IndexedTimedSet (TIndex TData : Type) [DecidableEq TIndex] where
  map : KeyedMap.Map TIndex (TData × Int)

namespace IndexedTimedSet

variable {TIndex TData : Type} [DecidableEq TIndex]

def empty : IndexedTimedSet TIndex TData := ⟨∅⟩

/-- `update(index, data)`, the clock reading `now`. -/
def update (s : IndexedTimedSet TIndex TData) (index : TIndex) (data : TData) (now : Int) :
    IndexedTimedSet TIndex TData := ⟨s.map.insert index (data, now)⟩

def remove (s : IndexedTimedSet TIndex TData) (index : TIndex) :
    IndexedTimedSet TIndex TData := ⟨s.map.erase index⟩

/-- `remove(maxDuration)`, the clock reading `now`. -/
def removeOlder (s : IndexedTimedSet TIndex TData) (maxDuration now : Int) :
    IndexedTimedSet TIndex TData :=
  ⟨KeyedMap.eraseWhere (fun e => decide (now - e.2 > maxDuration)) s.map⟩

def size (s : IndexedTimedSet TIndex TData) : Nat := s.map.entries.length

/-- `data()`, the map being traversed in the order `order`. -/
def data (order : Traversal (TData × Int)) (s : IndexedTimedSet TIndex TData) : List TData :=
  (order.visit (KeyedMap.values s.map)).map Prod.fst

def lookup (s : IndexedTimedSet TIndex TData) (index : TIndex) : Option (TData × Int) :=
  s.map.lookup index

/-- The data of every entry has the entry's key. -/
def KeyedBy (key : TData → TIndex) (s : IndexedTimedSet TIndex TData) : Prop :=
  KeyedMap.KeyedBy (fun e => key e.1) s.map

theorem lookup_removeOlder (s : IndexedTimedSet TIndex TData) (maxDuration now : Int)
    (index : TIndex) :
    (s.removeOlder maxDuration now).lookup index =
      (s.lookup index).filter fun e => decide (now - e.2 ≤ maxDuration) := by
  show (KeyedMap.eraseWhere _ s.map).lookup index = (s.map.lookup index).filter _
  rw [KeyedMap.lookup_eraseWhere]
  have hkeep : ∀ e : TData × Int,
      (!decide (now - e.2 > maxDuration)) = decide (now - e.2 ≤ maxDuration) := by
    intro e
    rw [← decide_not, decide_eq_decide]
    exact Int.not_lt
  simp only [hkeep]

theorem mem_data {order : Traversal (TData × Int)} {s : IndexedTimedSet TIndex TData} {x : TData} :
    x ∈ s.data order ↔ ∃ index t, s.lookup index = some (x, t) := by
  unfold data
  rw [List.mem_map]
  constructor
  · intro h
    obtain ⟨⟨y, t⟩, hy, rfl⟩ := h
    obtain ⟨index, hindex⟩ := KeyedMap.mem_values_iff.mp ((order.perm _).mem_iff.mp hy)
    exact ⟨index, t, hindex⟩
  · intro h
    obtain ⟨index, t, hindex⟩ := h
    exact ⟨(x, t), (order.perm _).mem_iff.mpr (KeyedMap.mem_values_iff.mpr ⟨index, hindex⟩), rfl⟩

theorem mem_data_key {key : TData → TIndex} {order : Traversal (TData × Int)}
    {s : IndexedTimedSet TIndex TData} (hs : s.KeyedBy key) {x : TData} :
    x ∈ s.data order ↔ ∃ t, s.lookup (key x) = some (x, t) := by
  rw [mem_data]
  refine ⟨fun h => ?_, fun h => ⟨_, h⟩⟩
  obtain ⟨index, t, hindex⟩ := h
  have hkey : index = key x := hs ⟨index, (x, t)⟩ (AList.mem_lookup_iff.mp hindex)
  rw [hkey] at hindex
  exact ⟨t, hindex⟩

theorem nodup_data {key : TData → TIndex} {order : Traversal (TData × Int)}
    {s : IndexedTimedSet TIndex TData} (hs : s.KeyedBy key) : ((s.data order).map key).Nodup := by
  have hvalues := KeyedMap.nodup_values hs
  have hperm := (order.perm (KeyedMap.values s.map)).map fun e => key e.1
  rw [data, List.map_map]
  exact hperm.nodup_iff.mpr hvalues

theorem keyedBy_removeOlder {key : TData → TIndex} {s : IndexedTimedSet TIndex TData}
    (hs : s.KeyedBy key) (maxDuration now : Int) : (s.removeOlder maxDuration now).KeyedBy key :=
  KeyedMap.keyedBy_eraseWhere _ hs

theorem keyedBy_empty (key : TData → TIndex) :
    (empty : IndexedTimedSet TIndex TData).KeyedBy key := by
  intro e he
  cases he

end IndexedTimedSet

end NeighborDiscovery
