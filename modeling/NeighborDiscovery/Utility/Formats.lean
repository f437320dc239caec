/-
The decoders of primitives, strings and vectors as readers of a format.

`view` forgets the error texts of a decoder and keeps what the wire format is
about: the value, the offset and the faults.  `stringFormat` and `vectorFormat`
take their encodings from the serializer.  A string overflows on a length whose
bound check wraps, or on one that is in range and that no string can be given.  A
vector overflows on a length it cannot be given, since the room is reserved before
the length is compared with the bytes left.
-/
import NeighborDiscovery.Utility.Serialization

namespace NeighborDiscovery

open OffsetCodec

/-- Buffers shorter than this have offsets that do not wrap. -/
def bufferLimit : Nat := 2 ^ 63

def view {T : Type} (d : Bytes → Decode (FunctionReturn T)) : Reader Fault UInt8 T := fun b o =>
  match (d b).run o with
  | .error e => .error e
  | .ok (r, o₁) => .ok (r.toOption, o₁)

theorem view_eq_some {T : Type} {d : Bytes → Decode (FunctionReturn T)} {b : Bytes} {o o' : Nat}
    {x : T} : view d b o = .ok (some x, o') ↔
      ∃ r, (d b).run o = .ok (r, o') ∧ r.isOk = true ∧ r.data = some x := by
  unfold view
  constructor
  · intro h
    split at h
    · cases h
    · rename_i r o₁ e
      simp only [Except.ok.injEq, Prod.mk.injEq] at h
      obtain ⟨hr, rfl⟩ := h
      exact ⟨r, e, FunctionReturn.toOption_eq_some.mp hr⟩
  · intro h
    obtain ⟨r, e, hr⟩ := h
    rw [e]
    exact congrArg (fun t => Except.ok (t, o')) (FunctionReturn.toOption_eq_some.mpr hr)

theorem view_faults {T : Type} {d : Bytes → Decode (FunctionReturn T)} {b : Bytes} {o : Nat} :
    (∃ e, view d b o = .error e) ↔ ∃ e, (d b).run o = .error e := by
  unfold view
  cases (d b).run o <;> simp

/-- A call, the check of its result and the use of its payload are a bound
reader. -/
theorem view_check {T U : Type} (d : Bytes → Decode (FunctionReturn U)) (msg : Bytes)
    (k : U → Bytes → Decode (FunctionReturn T)) :
    view (fun b => do
      let r ← d b
      if !r.isOk then
        return .chain msg r
      let x ← value r.data
      k x b) = (view d).bind fun x => view (k x) := by
  funext b o
  simp only [view, Reader.bind, StateT.run_bind]
  cases (d b).run o with
  | error e => rfl
  | ok p =>
    obtain ⟨⟨code, data, m⟩, o₁⟩ := p
    cases code <;> cases data <;> rfl

/-! ## Primitives -/

section Primitive

variable (order : ByteOrder) (T : Type) [TrivialType T]

def trivialFormat : Format UInt8 T where
  enc := TrivialType.bytes order
  fits _ := True
  overflows _ _ := False

theorem view_deserializeTrivial {b : Bytes} {o : Nat} (hb : b.length < bufferLimit)
    (ho : o ≤ b.length) :
    view (Deserializer.deserializeTrivial order T) b o =
      if o + TrivialType.size T ≤ b.length then
        .ok (some (TrivialType.ofBytes order ((b.drop o).take (TrivialType.size T))),
          o + TrivialType.size T)
      else .ok (none, o) := by
  have hsize : TrivialType.size T ≤ 8 := TrivialType.size_le
  have hsum : addSize o (TrivialType.size T) = o + TrivialType.size T := by
    unfold addSize
    unfold bufferLimit at hb
    omega
  unfold view Deserializer.deserializeTrivial Deserializer.readRange
  rw [StateT.run_bind, StateT.run_get]
  simp only [hsum, pure_bind]
  by_cases h : o + TrivialType.size T ≤ b.length
  · rw [if_neg (by omega), if_pos h, if_pos h]
    rfl
  · rw [if_pos (by omega), if_neg h]
    rfl

theorem deserializeTrivial_reads :
    (view (Deserializer.deserializeTrivial order T)).Reads bufferLimit
      (trivialFormat order T) where
  accepts := by
    intro b o hb ho x o'
    rw [view_deserializeTrivial order T hb ho]
    simp only [trivialFormat, true_and]
    have hlen : (TrivialType.bytes order x).length = TrivialType.size T :=
      TrivialType.length_bytes order x
    constructor
    · intro h
      by_cases hin : o + TrivialType.size T ≤ b.length
      · rw [if_pos hin] at h
        simp only [Except.ok.injEq, Prod.mk.injEq, Option.some.injEq] at h
        obtain ⟨rfl, rfl⟩ := h
        have hw : ((b.drop o).take (TrivialType.size T)).length = TrivialType.size T := by
          rw [List.length_take, List.length_drop]
          omega
        refine ⟨?_, by rw [hlen]⟩
        rw [TrivialType.bytes_ofBytes order _ hw]
        exact List.take_prefix _ _
      · rw [if_neg hin] at h
        cases h
    · intro h
      obtain ⟨hat, rfl⟩ := h
      have hin := hat.le_length ho
      rw [hlen] at hin
      have hslice := hasAt_iff_slice.mp hat
      rw [hlen] at hslice
      rw [if_pos hin, hslice, TrivialType.ofBytes_bytes, hlen]
  faults := by
    intro b o hb ho
    rw [view_deserializeTrivial order T hb ho]
    by_cases hin : o + TrivialType.size T ≤ b.length
    · simp [hin, trivialFormat]
    · simp [hin, trivialFormat]

end Primitive

/-! ## Length fields -/

variable (order : ByteOrder)

def lengthFormat : Format UInt8 Nat where
  enc := Serializer.lengthField order
  fits n := n < 2 ^ 64
  overflows _ _ := False

def readLength : Reader Fault UInt8 Nat :=
  Reader.map (view (Deserializer.deserializeTrivial order UInt64)) UInt64.toNat

theorem readLength_reads : (readLength order).Reads bufferLimit (lengthFormat order) := by
  refine (deserializeTrivial_reads order UInt64).map (fun v => ?_) (fun n => ?_)
    (fun _ _ => Iff.rfl)
  · show Serializer.lengthField order v.toNat = TrivialType.bytes order v
    rw [Serializer.lengthField, UInt64.ofNat_toNat]
  · refine ⟨fun h => ⟨UInt64.ofNat n, trivial, UInt64.toNat_ofNat_of_lt' h⟩, fun h => ?_⟩
    obtain ⟨v, -, rfl⟩ := h
    exact v.toNat_lt

/-- A length field that is read lies in the buffer with all its eight bytes. -/
theorem readLength_eq_some {b : Bytes} {o n o₁ : Nat} (hb : b.length < bufferLimit)
    (ho : o ≤ b.length) :
    readLength order b o = .ok (some n, o₁) ↔
      HasAt b o (Serializer.lengthField order n) ∧ n < 2 ^ 64 ∧ o + 8 ≤ b.length ∧
        o₁ = o + 8 := by
  rw [(readLength_reads order).accepts hb ho]
  simp only [lengthFormat, Serializer.length_lengthField]
  constructor
  · intro h
    obtain ⟨hat, hn, ho₁⟩ := h
    have hin := hat.le_length ho
    rw [Serializer.length_lengthField] at hin
    exact ⟨hat, hn, hin, ho₁⟩
  · exact fun h => ⟨h.1, h.2.1, h.2.2.2⟩

/-! ## Strings -/

variable (lim : Limits)

/-- Strings.  The bound check of a length `n` at `o` passes when `o + 8 + n`
wraps, or when the bytes are there. -/
def stringFormat : Format UInt8 Bytes where
  enc := Serializer.stringBytes order
  fits s := lim.string.Holds s.length
  overflows b o := ∃ n, n < 2 ^ 64 ∧ HasAt b o (Serializer.lengthField order n) ∧
    (2 ^ 64 ≤ o + 8 + n ∨ (o + 8 + n ≤ b.length ∧ ¬ lim.string.Holds n))

theorem stringFormat_persistent : (stringFormat order lim).Persistent := by
  intro b o t h
  obtain ⟨n, hn, hat, h⟩ := h
  refine ⟨n, hn, hat.extend t, h.imp id fun hshort => ⟨?_, hshort.2⟩⟩
  rw [List.length_append]
  exact Nat.le_trans hshort.1 (Nat.le_add_right _ _)

def readChars (n : Nat) : Reader Fault UInt8 Bytes := fun b o =>
  if addSize o n > b.length then .ok (none, o)
  else
    match Deserializer.constructString lim b o n with
    | .error e => .error e
    | .ok str => .ok (some str, addSize o n)

theorem view_deserializeString :
    view (Deserializer.deserializeString order lim) = (readLength order).bind (readChars lim) := by
  unfold Deserializer.deserializeString readLength
  rw [view_check, Reader.map, Reader.bind_bind]
  congr 1
  funext v b o
  show view _ b o = readChars lim v.toNat b o
  unfold view readChars
  rw [StateT.run_bind, StateT.run_get]
  simp only [pure_bind]
  by_cases h : addSize o v.toNat > b.length
  · rw [if_pos h, if_pos h]
    rfl
  · rw [if_neg h, if_neg h, StateT.run_bind]
    cases Deserializer.constructString lim b o v.toNat <;> rfl

/-- Behind a length field that does not overflow, the string is read from the
bytes that follow or rejected. -/
theorem readChars_of_lt {b : Bytes} {o n : Nat}
    (hwrap : o + n < 2 ^ 64) (hroom : o + n ≤ b.length → lim.string.Holds n) :
    readChars lim n b o =
      if o + n ≤ b.length then .ok (some ((b.drop o).take n), o + n) else .ok (none, o) := by
  have hsum : addSize o n = o + n := Nat.mod_eq_of_lt hwrap
  unfold readChars Deserializer.constructString Deserializer.readRange
  rw [hsum]
  by_cases h : o + n ≤ b.length
  · rw [if_neg (by omega), Room.allocate_eq_ok.mpr (hroom h), if_pos h, if_pos h]
    rfl
  · rw [if_pos (by omega), if_neg h]

/-- A length that overflows ends in an exception: a sum that wraps comes from a
length no string can have. -/
theorem readChars_of_overflow {b : Bytes} {o n : Nat} (hb : b.length < bufferLimit)
    (ho : o ≤ b.length) (hn : n < 2 ^ 64)
    (h : 2 ^ 64 ≤ o + n ∨ (o + n ≤ b.length ∧ ¬ lim.string.Holds n)) :
    ∃ e, readChars lim n b o = .error e := by
  unfold bufferLimit at hb
  have hcheck : addSize o n ≤ b.length := by
    unfold addSize
    rcases h with h | ⟨h, -⟩ <;> omega
  have hrefused : ¬ lim.string.Holds n := by
    rcases h with h | ⟨-, h⟩
    · intro hroom
      have := hroom.lt
      omega
    · exact h
  obtain ⟨e, he⟩ := Room.allocate_fault hrefused
  unfold readChars Deserializer.constructString
  rw [if_neg (by omega), he]
  exact ⟨e, rfl⟩

/-- What is behind a length field: that many bytes, if a string can hold them. -/
theorem readChars_eq_some {b s : Bytes} {o o' n : Nat} (hb : b.length < bufferLimit)
    (ho : o ≤ b.length) (hn : n < 2 ^ 64) :
    readChars lim n b o = .ok (some s, o') ↔
      s.length = n ∧ lim.string.Holds n ∧ HasAt b o s ∧ o' = o + n := by
  by_cases hover : 2 ^ 64 ≤ o + n ∨ (o + n ≤ b.length ∧ ¬ lim.string.Holds n)
  · obtain ⟨e, he⟩ := readChars_of_overflow lim hb ho hn hover
    rw [he]
    constructor
    · intro h
      cases h
    · intro h
      obtain ⟨rfl, hfit, hat, -⟩ := h
      have hin := hat.le_length ho
      unfold bufferLimit at hb
      rcases hover with hwrap | ⟨-, hrefused⟩
      · omega
      · exact absurd hfit hrefused
  · rw [not_or, not_and, not_not] at hover
    rw [readChars_of_lt lim (by omega) hover.2]
    by_cases hin : o + n ≤ b.length
    · rw [if_pos hin]
      constructor
      · intro h
        simp only [Except.ok.injEq, Prod.mk.injEq, Option.some.injEq] at h
        obtain ⟨rfl, rfl⟩ := h
        have hlen : ((b.drop o).take n).length = n := by
          rw [List.length_take, List.length_drop]
          omega
        exact ⟨hlen, hover.2 hin, List.take_prefix _ _, rfl⟩
      · intro h
        obtain ⟨rfl, -, hat, rfl⟩ := h
        rw [hasAt_iff_slice.mp hat]
    · rw [if_neg hin]
      constructor
      · intro h
        cases h
      · intro h
        obtain ⟨rfl, -, hat, -⟩ := h
        exact absurd (hat.le_length ho) hin

theorem readChars_faults {b : Bytes} {o n : Nat} (hb : b.length < bufferLimit)
    (ho : o ≤ b.length) (hn : n < 2 ^ 64) :
    (∃ e, readChars lim n b o = .error e) ↔
      2 ^ 64 ≤ o + n ∨ (o + n ≤ b.length ∧ ¬ lim.string.Holds n) := by
  constructor
  · intro h
    obtain ⟨e, h⟩ := h
    by_contra hover
    rw [not_or, not_and, not_not] at hover
    rw [readChars_of_lt lim (by omega) hover.2] at h
    split at h
    · cases h
    · cases h
  · exact readChars_of_overflow lim hb ho hn

theorem deserializeString_reads :
    (view (Deserializer.deserializeString order lim)).Reads bufferLimit
      (stringFormat order lim) where
  accepts := by
    intro b o hb ho s o'
    rw [view_deserializeString, Reader.bind_eq_some]
    simp only [stringFormat, Serializer.stringBytes, hasAt_append, List.length_append,
      Serializer.length_lengthField]
    constructor
    · intro h
      obtain ⟨n, o₁, h₁, h₂⟩ := h
      obtain ⟨an, fn, ho₁, rfl⟩ := (readLength_eq_some order hb ho).mp h₁
      obtain ⟨rfl, fs, as, rfl⟩ := (readChars_eq_some lim hb ho₁ fn).mp h₂
      exact ⟨⟨an, as⟩, fs, Nat.add_assoc o 8 s.length⟩
    · intro h
      obtain ⟨⟨an, as⟩, fs, rfl⟩ := h
      have hlt := fs.lt
      have fn : s.length < 2 ^ 64 := by omega
      have ho₁ := an.le_length ho
      rw [Serializer.length_lengthField] at ho₁
      refine ⟨s.length, o + 8, (readLength_eq_some order hb ho).mpr ⟨an, fn, ho₁, rfl⟩, ?_⟩
      exact (readChars_eq_some lim hb ho₁ fn).mpr ⟨rfl, fs, as, (Nat.add_assoc o 8 s.length).symm⟩
  faults := by
    intro b o hb ho
    rw [view_deserializeString, Reader.bind_faults, (readLength_reads order).faults hb ho]
    simp only [lengthFormat, stringFormat, false_or]
    constructor
    · intro h
      obtain ⟨n, o₁, h₁, h₂⟩ := h
      obtain ⟨an, fn, ho₁, rfl⟩ := (readLength_eq_some order hb ho).mp h₁
      exact ⟨n, fn, an, (readChars_faults lim hb ho₁ fn).mp h₂⟩
    · intro h
      obtain ⟨n, fn, an, hover⟩ := h
      have ho₁ := an.le_length ho
      rw [Serializer.length_lengthField] at ho₁
      exact ⟨n, o + 8, (readLength_eq_some order hb ho).mpr ⟨an, fn, ho₁, rfl⟩,
        (readChars_faults lim hb ho₁ fn).mpr hover⟩

/-! ## Vectors -/

section Vector

variable {T : Type} {d : Bytes → Decode (FunctionReturn T)}

theorem view_deserializeElems (n : Nat) (vec : List T) :
    view (fun b => Deserializer.deserializeElems d b n vec) =
      Reader.map (Reader.times (view d) n) (vec ++ ·) := by
  induction n generalizing vec with
  | zero =>
    funext b o
    show Except.ok (some vec, o) = Except.ok (some (vec ++ []), o)
    rw [List.append_nil]
  | succ n ih =>
    simp only [Deserializer.deserializeElems]
    rw [view_check, Reader.times, Reader.map_map, Reader.map_seq]
    congr 1
    funext x
    rw [ih]
    simp only [List.append_assoc, List.singleton_append]

theorem view_deserializeVector (room : Room) :
    view (Deserializer.deserializeVector order room d) =
      Reader.counted (readLength order) room.allocate (view d) := by
  unfold Deserializer.deserializeVector Reader.counted readLength
  rw [view_check, Reader.map, Reader.bind_bind]
  congr 1
  funext v b o
  have helems : view (fun b => Deserializer.deserializeElems d b v.toNat []) b o =
      Reader.times (view d) v.toNat b o := by
    rw [view_deserializeElems]
    simp only [List.nil_append]
    show (Reader.times (view d) v.toNat).bind Reader.pure b o = _
    unfold Reader.bind
    cases Reader.times (view d) v.toNat b o with
    | error e => rfl
    | ok p =>
      obtain ⟨x, o₁⟩ := p
      cases x <;> rfl
  cases hroom : room.allocate v.toNat with
  | error e =>
    simp only [view, Deserializer.reserve, Reader.bind, Reader.pure, hroom]
    rfl
  | ok _ =>
    simp only [Reader.bind, Reader.pure, hroom, ← helems]
    simp only [view, Deserializer.reserve, hroom]
    rfl

def vectorFormat (room : Room) (F : Format UInt8 T) : Format UInt8 (List T) :=
  Format.counted (lengthFormat order) room.Holds F

theorem deserializeVector_reads {F : Format UInt8 T} (h : (view d).Reads bufferLimit F)
    (room : Room) :
    (view (Deserializer.deserializeVector order room d)).Reads bufferLimit
      (vectorFormat order room F) := by
  rw [view_deserializeVector]
  exact (readLength_reads order).counted h fun _ => Room.allocate_eq_ok

end Vector

end NeighborDiscovery
