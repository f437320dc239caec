/-
The serializer and the deserializer of primitives, strings and vectors.

Primitives are written as their object representation, strings and vectors with
their length in front.  The deserializer works on a whole buffer with an offset
passed by reference, which is the state of the `Decode` monad.  Its bound checks
are sums of `std::size_t`, so they wrap, and a string or vector of a length above
`max_size`, or one the allocator refuses, throws before it reads anything.
-/
import NeighborDiscovery.Library.FixedWidth
import NeighborDiscovery.Library.OffsetCodec
import NeighborDiscovery.Library.Fallible
import NeighborDiscovery.Utility.FunctionReturn

namespace NeighborDiscovery

open OffsetCodec

/-! ## Object representations -/

inductive ByteOrder where
  | little
  | big
deriving DecidableEq, Repr

/-- Little-endian digits in the order of the host, and back. -/
def ByteOrder.arrange : ByteOrder → Bytes → Bytes
  | .little, w => w
  | .big, w => w.reverse

theorem ByteOrder.arrange_arrange (order : ByteOrder) (w : Bytes) :
    order.arrange (order.arrange w) = w := by
  cases order
  · rfl
  · exact List.reverse_reverse w

theorem ByteOrder.length_arrange (order : ByteOrder) (w : Bytes) :
    (order.arrange w).length = w.length := by
  cases order
  · rfl
  · exact List.length_reverse

/-- A type the source calls trivial, with its object representation. -/
class TrivialType (T : Type) where
  size : Nat
  bytes : ByteOrder → T → Bytes
  ofBytes : ByteOrder → Bytes → T
  size_le : size ≤ 8
  length_bytes : ∀ order v, (bytes order v).length = size
  ofBytes_bytes : ∀ order v, ofBytes order (bytes order v) = v
  bytes_ofBytes : ∀ order w, w.length = size → bytes order (ofBytes order w) = w

instance : TrivialType UInt64 where
  size := 8
  bytes order v := order.arrange (FixedWidth.digits 8 v.toNat)
  ofBytes order w := UInt64.ofNat (FixedWidth.value (order.arrange w))
  size_le := Nat.le_refl 8
  length_bytes order v := by rw [order.length_arrange, FixedWidth.length_digits]
  ofBytes_bytes order v := by
    rw [order.arrange_arrange, FixedWidth.value_digits]
    apply UInt64.toNat_inj.mp
    have hlt : v.toNat < 256 ^ 8 := v.toNat_lt
    rw [UInt64.toNat_ofNat', Nat.mod_eq_of_lt hlt]
    exact Nat.mod_eq_of_lt v.toNat_lt
  bytes_ofBytes order w hw := by
    have hlen : (order.arrange w).length = 8 := by rw [order.length_arrange, hw]
    have hlt : FixedWidth.value (order.arrange w) < 2 ^ 64 := by
      have := FixedWidth.value_lt (order.arrange w)
      rw [hlen] at this
      omega
    have hdigits := FixedWidth.digits_value (order.arrange w)
    rw [hlen] at hdigits
    rw [UInt64.toNat_ofNat', Nat.mod_eq_of_lt hlt, hdigits, order.arrange_arrange]

instance : TrivialType UInt8 where
  size := 1
  bytes _ v := [v]
  ofBytes _ w := w.headD 0
  size_le := by decide
  length_bytes _ _ := rfl
  ofBytes_bytes _ _ := rfl
  bytes_ofBytes _ w hw := by
    obtain ⟨a, rfl⟩ := List.length_eq_one_iff.mp hw
    rfl

/-! ## Serializer -/

namespace Serializer

variable (order : ByteOrder)

/-- `Serializer::serialize(buff, const T& val)` for a trivial `T`. -/
def serializeTrivial {T : Type} [TrivialType T] (buff : Bytes) (val : T) : Bytes :=
  buff ++ TrivialType.bytes order val

/-- `Serializer::serialize(buff, const std::string& str)`. -/
def serializeString (buff : Bytes) (str : Bytes) : Bytes :=
  serializeTrivial order buff (UInt64.ofNat str.length) ++ str

/-- `Serializer::serialize(buff, const std::vector<T>& vec)`, where `serialize` is
`T::serialize`. -/
def serializeVector {T : Type} (serialize : Bytes → T → Bytes) (buff : Bytes) (vec : List T) :
    Bytes :=
  vec.foldl serialize (serializeTrivial order buff (UInt64.ofNat vec.length))

def lengthField (n : Nat) : Bytes := TrivialType.bytes order (UInt64.ofNat n)

theorem length_lengthField (n : Nat) : (lengthField order n).length = 8 :=
  TrivialType.length_bytes order (UInt64.ofNat n)

def stringBytes (str : Bytes) : Bytes := lengthField order str.length ++ str

def vectorBytes {T : Type} (enc : T → Bytes) (vec : List T) : Bytes :=
  lengthField order vec.length ++ vec.flatMap enc

theorem serializeString_append (buff str : Bytes) :
    serializeString order buff str = buff ++ stringBytes order str := by
  rw [serializeString, serializeTrivial, List.append_assoc]
  rfl

theorem foldl_append {T : Type} {serialize : Bytes → T → Bytes} {enc : T → Bytes}
    (h : ∀ buff x, serialize buff x = buff ++ enc x) (vec : List T) (buff : Bytes) :
    vec.foldl serialize buff = buff ++ vec.flatMap enc := by
  induction vec generalizing buff with
  | nil => rw [List.foldl_nil, List.flatMap_nil, List.append_nil]
  | cons x vec ih => rw [List.foldl_cons, ih, h, List.flatMap_cons, List.append_assoc]

/-- Where the elements only append to the buffer, so does the vector. -/
theorem serializeVector_append {T : Type} {serialize : Bytes → T → Bytes} {enc : T → Bytes}
    (h : ∀ buff x, serialize buff x = buff ++ enc x) (buff : Bytes) (vec : List T) :
    serializeVector order serialize buff vec = buff ++ vectorBytes order enc vec := by
  rw [serializeVector, foldl_append h, serializeTrivial, List.append_assoc]
  rfl

end Serializer

/-! ## Deserializer -/

/-- The lengths a container type can be given: at most its `max_size`, which for
bytes or objects is at most `PTRDIFF_MAX`, and what the allocator grants. -/
structure Room where
  maxSize : Nat
  grants : Nat → Bool
  maxSize_lt : maxSize < 2 ^ 63

/-- Making room for `length` elements, which for none asks nothing of the allocator. -/
def Room.allocate (room : Room) (length : Nat) : Except Fault Unit :=
  if length > room.maxSize then .error .lengthError
  else if length = 0 ∨ room.grants length then .ok ()
  else .error .badAlloc

def Room.Holds (room : Room) (n : Nat) : Prop :=
  n ≤ room.maxSize ∧ (n = 0 ∨ room.grants n = true)

instance (room : Room) (n : Nat) : Decidable (room.Holds n) := inferInstanceAs (Decidable (_ ∧ _))

theorem Room.holds_zero (room : Room) : room.Holds 0 := ⟨Nat.zero_le _, Or.inl rfl⟩

theorem Room.Holds.lt {room : Room} {n : Nat} (h : room.Holds n) : n < 2 ^ 63 :=
  Nat.lt_of_le_of_lt h.1 room.maxSize_lt

theorem Room.allocate_eq_ok {room : Room} {n : Nat} : room.allocate n = .ok () ↔ room.Holds n := by
  unfold Room.allocate Room.Holds
  by_cases hmax : n > room.maxSize
  · rw [if_pos hmax]
    exact ⟨fun h => (nomatch h), fun h => absurd h.1 (Nat.not_le.mpr hmax)⟩
  · rw [if_neg hmax]
    by_cases hgranted : n = 0 ∨ room.grants n = true
    · rw [if_pos hgranted]
      exact ⟨fun _ => ⟨Nat.not_lt.mp hmax, hgranted⟩, fun _ => rfl⟩
    · rw [if_neg hgranted]
      exact ⟨fun h => (nomatch h), fun h => absurd h.2 hgranted⟩

theorem Room.allocate_fault {room : Room} {n : Nat} (h : ¬ room.Holds n) :
    ∃ e, room.allocate n = .error e := by
  cases hroom : room.allocate n with
  | error e => exact ⟨e, rfl⟩
  | ok _ => exact absurd (Room.allocate_eq_ok.mp hroom) h

/-- The string and vector types the decoder builds. -/
structure Limits where
  string : Room
  interfaces : Room
  ipv4s : Room
  ipv6s : Room

def addSize (a b : Nat) : Nat := (a + b) % 2 ^ 64

/-- The decoder's effects: the offset passed by reference, and faults. -/
abbrev Decode (T : Type) := StateT Nat (Except Fault) T

namespace Deserializer

variable (order : ByteOrder) (lim : Limits)

/-- The `length` bytes from `buff.data() + offset` on. -/
def readRange (buff : Bytes) (offset length : Nat) : Except Fault Bytes :=
  if offset + length ≤ buff.length then .ok ((buff.drop offset).take length)
  else .error .outOfRange

/-- `std::string(buff.data() + offset, length)`. -/
def constructString (buff : Bytes) (offset length : Nat) : Except Fault Bytes := do
  lim.string.allocate length
  readRange buff offset length

/-- `vec.reserve(length)` on an empty vector. -/
def reserve (room : Room) (length : Nat) : Except Fault Unit := room.allocate length

/-- `Deserializer::deserialize<T>(buff, offset)` for a trivial `T`. -/
def deserializeTrivial (T : Type) [TrivialType T] (buff : Bytes) : Decode (FunctionReturn T) := do
  let offset ← get
  if addSize offset (TrivialType.size T) > buff.length then
    return .ofMsg .Error (text "Primitive deserialization failed, overflow")
  let val ← readRange buff offset (TrivialType.size T)
  set (addSize offset (TrivialType.size T))
  return .ofData (TrivialType.ofBytes order val)

/-- `Deserializer::deserialize(buff, offset)` for strings. -/
def deserializeString (buff : Bytes) : Decode (FunctionReturn Bytes) := do
  let funcReturn ← deserializeTrivial order UInt64 buff
  if !funcReturn.isOk then
    return .chain (text "String deserialization failed") funcReturn
  let length := (← value funcReturn.data).toNat
  let offset ← get
  if addSize offset length > buff.length then
    return .ofCodeData .Error (text "String deserialization failed, overflow")
  let str ← constructString lim buff offset length
  set (addSize offset length)
  return .ofData str

/-- The loop of the vector form, `vec` being the elements pushed back so far and
the number the rounds left. -/
def deserializeElems {T : Type} (deserialize : Bytes → Decode (FunctionReturn T)) (buff : Bytes) :
    Nat → List T → Decode (FunctionReturn (List T))
  | 0, vec => return .ofData vec
  | i + 1, vec => do
    let funcReturnElem ← deserialize buff
    if !funcReturnElem.isOk then
      return .chain (text "Vector deserialization failed") funcReturnElem
    deserializeElems deserialize buff i (vec ++ [← value funcReturnElem.data])

/-- `Deserializer::deserialize<T>(buff, offset)` for a vector of `T`, where `room` is
what the vector can hold and `deserialize` is `T::deserialize`. -/
def deserializeVector {T : Type} (room : Room) (deserialize : Bytes → Decode (FunctionReturn T))
    (buff : Bytes) : Decode (FunctionReturn (List T)) := do
  let funcReturn ← deserializeTrivial order UInt64 buff
  if !funcReturn.isOk then
    return .chain (text "Vector deserialization failed") funcReturn
  let length := (← value funcReturn.data).toNat
  reserve room length
  deserializeElems deserialize buff length []

end Deserializer

end NeighborDiscovery
