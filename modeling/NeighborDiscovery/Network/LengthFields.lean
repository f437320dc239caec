/-
The length fields of a message and the buffers that bring the decoder down.

A length field is due behind certain beginnings of a message, which are listed
here in terms of the serializer alone: whole encodings of the parts in front of
it, and nothing else.  A length found there is too long when the vector it
announces cannot be given that room, when the sum of the string's bound check wraps,
or when the bytes are there and the string cannot.  The decoder returns exactly when
no length due in the buffer is too long; on all other contents the checks of the
source keep it inside the buffer.
-/
import NeighborDiscovery.Network.WireFormat

namespace NeighborDiscovery

open OffsetCodec Serializer

inductive LengthField where
  | chars
  | interfaces
  | ipv4s
  | ipv6s
deriving DecidableEq, Repr

/-- The beginnings of a value that end in front of a length field, with what
that field counts. -/
abbrev Beginnings := LengthField → Bytes → Prop

section Beginnings

variable (order : ByteOrder) (lim : Limits)

inductive StringLengthDue : Beginnings where
  | length : StringLengthDue .chars []

def NoLengthDue : Beginnings := fun _ _ => False

/-- A beginning of the first part, or the first part and a beginning of the
second. -/
inductive SeqLengthDue {T : Type} (F : Format UInt8 T) (D E : Beginnings) : Beginnings where
  | first {k : LengthField} {p : Bytes} : D k p → SeqLengthDue F D E k p
  | second {x : T} {k : LengthField} {p : Bytes} : F.fits x → E k p →
      SeqLengthDue F D E k (F.enc x ++ p)

/-- Nothing, or a length field, fewer elements than it announces and a beginning
of the next. -/
inductive VectorLengthDue {T : Type} (kind : LengthField) (room : Room) (F : Format UInt8 T)
    (D : Beginnings) : Beginnings where
  | length : VectorLengthDue kind room F D kind []
  | element {n : Nat} {vec : List T} {k : LengthField} {p : Bytes} : room.Holds n →
      vec.length < n → (∀ x ∈ vec, F.fits x) → D k p →
      VectorLengthDue kind room F D k (lengthField order n ++ (vec.flatMap F.enc ++ p))

def IPv4Info.LengthDue : Beginnings :=
  SeqLengthDue (stringFormat order lim) StringLengthDue StringLengthDue

def IPv6Info.LengthDue : Beginnings :=
  SeqLengthDue (stringFormat order lim) StringLengthDue NoLengthDue

def NetInterface.LengthDue : Beginnings :=
  SeqLengthDue (stringFormat order lim) StringLengthDue
    (SeqLengthDue (stringFormat order lim) StringLengthDue
      (SeqLengthDue (vectorFormat order lim.ipv4s (ipv4Format order lim))
        (VectorLengthDue order .ipv4s lim.ipv4s (ipv4Format order lim)
          (IPv4Info.LengthDue order lim))
        (VectorLengthDue order .ipv6s lim.ipv6s (ipv6Format order lim)
          (IPv6Info.LengthDue order lim))))

def LengthDue : Beginnings :=
  VectorLengthDue order .interfaces lim.interfaces (netInterfaceFormat order lim)
    (NetInterface.LengthDue order lim)

/-- The number `n` is too long in a field of the given kind at offset `o` of a
buffer of `size` bytes. -/
def TooLong (size : Nat) : LengthField → Nat → Nat → Prop
  | .chars, o, n => 2 ^ 64 ≤ o + 8 + n ∨ (o + 8 + n ≤ size ∧ ¬ lim.string.Holds n)
  | .interfaces, _, n => ¬ lim.interfaces.Holds n
  | .ipv4s, _, n => ¬ lim.ipv4s.Holds n
  | .ipv6s, _, n => ¬ lim.ipv6s.Holds n

/-- Behind offset `o` a length due by `D` is too long. -/
def HasTooLong (D : Beginnings) (b : Bytes) (o : Nat) : Prop :=
  ∃ k p n, D k p ∧ n < 2 ^ 64 ∧ HasAt b o (p ++ lengthField order n) ∧
    TooLong lim b.length k (o + p.length) n

def OversizedLength (b : Bytes) : Prop :=
  ∃ k p n, LengthDue order lim k p ∧ n < 2 ^ 64 ∧ (p ++ lengthField order n) <+: b ∧
    TooLong lim b.length k p.length n

end Beginnings

/-! ## Overflows are lengths that are too long -/

section Overflows

variable {order : ByteOrder} {lim : Limits}

theorem HasTooLong.append {D E : Beginnings} {b w : Bytes} {o : Nat} (hat : HasAt b o w)
    (hdue : ∀ k p, D k p → E k (w ++ p)) (h : HasTooLong order lim D b (o + w.length)) :
    HasTooLong order lim E b o := by
  obtain ⟨k, p, n, hp, hn, hlen, hlong⟩ := h
  refine ⟨k, w ++ p, n, hdue k p hp, hn, ?_, ?_⟩
  · rw [List.append_assoc]
    exact hasAt_append.mpr ⟨hat, hlen⟩
  · rw [List.length_append, ← Nat.add_assoc]
    exact hlong

theorem HasTooLong.of_append {D : Beginnings} {b w p : Bytes} {o n : Nat} {k : LengthField}
    (hp : D k p) (hn : n < 2 ^ 64) (hat : HasAt b o (w ++ p ++ lengthField order n))
    (hlong : TooLong lim b.length k (o + (w ++ p).length) n) :
    HasAt b o w ∧ HasTooLong order lim D b (o + w.length) := by
  rw [List.append_assoc] at hat
  obtain ⟨hw, hrest⟩ := hasAt_append.mp hat
  rw [List.length_append, ← Nat.add_assoc] at hlong
  exact ⟨hw, k, p, n, hp, hn, hrest, hlong⟩

variable (order lim)

theorem string_overflows (b : Bytes) (o : Nat) :
    (stringFormat order lim).overflows b o ↔ HasTooLong order lim StringLengthDue b o := by
  simp only [stringFormat]
  constructor
  · intro h
    obtain ⟨n, hn, hat, h⟩ := h
    exact ⟨.chars, [], n, .length, hn, hat, h⟩
  · intro h
    obtain ⟨k, p, n, hdue, hn, hat, h⟩ := h
    cases hdue
    exact ⟨n, hn, hat, h⟩

theorem trivial_overflows (b : Bytes) (o : Nat) :
    (trivialFormat order UInt8).overflows b o ↔ HasTooLong order lim NoLengthDue b o := by
  refine ⟨fun h => h.elim, fun h => ?_⟩
  obtain ⟨k, p, n, hdue, -⟩ := h
  exact hdue.elim

theorem seq_overflows {T U : Type} {F : Format UInt8 T} {G : Format UInt8 U} {D E : Beginnings}
    (hF : ∀ b o, F.overflows b o ↔ HasTooLong order lim D b o)
    (hG : ∀ b o, G.overflows b o ↔ HasTooLong order lim E b o) (b : Bytes) (o : Nat) :
    (F.seq G).overflows b o ↔ HasTooLong order lim (SeqLengthDue F D E) b o := by
  simp only [Format.seq, hF, hG]
  constructor
  · intro h
    rcases h with ⟨k, p, n, hp, h⟩ | ⟨x, hfit, hat, h⟩
    · exact ⟨k, p, n, .first hp, h⟩
    · exact h.append hat fun k p hp => .second hfit hp
  · intro h
    obtain ⟨k, p, n, hdue, hn, hat, h⟩ := h
    cases hdue with
    | first hp => exact .inl ⟨k, p, n, hp, hn, hat, h⟩
    | second hfit hp =>
      obtain ⟨hx, hrest⟩ := HasTooLong.of_append hp hn hat h
      exact .inr ⟨_, hfit, hx, hrest⟩

theorem vector_overflows {T : Type} (kind : LengthField) {room : Room} {F : Format UInt8 T}
    {D : Beginnings} (hkind : ∀ size o n, TooLong lim size kind o n ↔ ¬ room.Holds n)
    (hF : ∀ b o, F.overflows b o ↔ HasTooLong order lim D b o) (b : Bytes) (o : Nat) :
    (vectorFormat order room F).overflows b o ↔
      HasTooLong order lim (VectorLengthDue order kind room F D) b o := by
  simp only [vectorFormat, Format.counted, Format.times, lengthFormat, false_or, hF]
  constructor
  · intro h
    obtain ⟨n, hn, hat, h⟩ := h
    by_cases hroom : room.Holds n
    · obtain ⟨vec, hvec, hfit, hats, h⟩ := h.resolve_left (not_not_intro hroom)
      have hboth := hasAt_append.mpr ⟨hat, hats⟩
      rw [Nat.add_assoc, ← List.length_append] at h
      refine h.append hboth fun k p hp => ?_
      rw [List.append_assoc]
      exact .element hroom hvec hfit hp
    · exact ⟨kind, [], n, .length, hn, hat, (hkind _ _ n).mpr hroom⟩
  · intro h
    obtain ⟨k, p, n, hdue, hn, hat, h⟩ := h
    cases hdue with
    | length => exact ⟨n, hn, hat, .inl ((hkind _ _ n).mp h)⟩
    | element hle hvec hfit hp =>
      rw [← List.append_assoc] at hat h
      obtain ⟨hboth, hrest⟩ := HasTooLong.of_append hp hn hat h
      obtain ⟨hcount, hats⟩ := hasAt_append.mp hboth
      rw [List.length_append, ← Nat.add_assoc] at hrest
      have hlt := hle.lt
      exact ⟨_, by omega, hcount, .inr ⟨_, hvec, hfit, hats, hrest⟩⟩

theorem ipv4_overflows (b : Bytes) (o : Nat) :
    (ipv4Format order lim).overflows b o ↔
      HasTooLong order lim (IPv4Info.LengthDue order lim) b o :=
  seq_overflows order lim (string_overflows order lim) (string_overflows order lim) b o

theorem ipv6_overflows (b : Bytes) (o : Nat) :
    (ipv6Format order lim).overflows b o ↔
      HasTooLong order lim (IPv6Info.LengthDue order lim) b o :=
  seq_overflows order lim (string_overflows order lim) (trivial_overflows order lim) b o

theorem netInterface_overflows (b : Bytes) (o : Nat) :
    (netInterfaceFormat order lim).overflows b o ↔
      HasTooLong order lim (NetInterface.LengthDue order lim) b o := by
  have hs := string_overflows order lim
  have h4 := vector_overflows order lim .ipv4s (fun _ _ _ => Iff.rfl)
    (ipv4_overflows order lim)
  have h6 := vector_overflows order lim .ipv6s (fun _ _ _ => Iff.rfl)
    (ipv6_overflows order lim)
  exact seq_overflows order lim hs (seq_overflows order lim hs (seq_overflows order lim h4 h6)) b o

theorem netInterfaces_overflows (b : Bytes) :
    (netInterfacesFormat order lim).overflows b 0 ↔ OversizedLength order lim b := by
  have h := vector_overflows order lim .interfaces (fun _ _ _ => Iff.rfl)
    (netInterface_overflows order lim) b 0
  simp only [HasTooLong, HasAt, List.drop_zero, Nat.zero_add] at h
  exact h

end Overflows

/-! ## When the decoder returns -/

/-- The decoder returns, with every construction inside the buffer, exactly on
the buffers without an oversized length. -/
theorem deserialize_returns_iff (order : ByteOrder) (lim : Limits) {b : Bytes}
    (hb : b.length < 2 ^ 63) :
    (∃ r o, (deserializeNetInterfaces order lim b).run 0 = .ok (r, o)) ↔
      ¬ OversizedLength order lim b := by
  have hfaults := (netInterfaces_reads order lim).faults hb (Nat.zero_le b.length)
  rw [view_faults, netInterfaces_overflows] at hfaults
  rw [← hfaults]
  cases (deserializeNetInterfaces order lim b).run 0 with
  | error e => simp
  | ok p =>
    have hok : ¬ ∃ e, (Except.ok p : Except Fault _) = .error e := by simp
    exact ⟨fun _ => hok, fun _ => ⟨p.1, p.2, rfl⟩⟩

/-- No length is too long in a message with an interface of both families, and the
count 2^40 is, for which the allocator would have to grant 2^47 bytes. -/
theorem deserialize_returns_nested :
    ¬ OversizedLength .little .libstdcxx (nested.drop 1) ∧
      OversizedLength .little .libstdcxx [0, 0, 0, 0, 0, 1, 0, 0] := by
  constructor
  · exact (deserialize_returns_iff .little .libstdcxx (by decide)).mp ⟨_, _, rfl⟩
  · by_contra hfits
    obtain ⟨r, o, hrun⟩ := (deserialize_returns_iff .little .libstdcxx (by decide)).mpr hfits
    have hthrows : (deserializeNetInterfaces .little .libstdcxx [0, 0, 0, 0, 0, 1, 0, 0]).run 0 =
        .error .badAlloc := rfl
    rw [hthrows] at hrun
    cases hrun

/-- Eight bytes of ones announce more interfaces than a vector can have room
for. -/
theorem deserialize_ones_throws :
    ¬ ∃ r o, (deserializeNetInterfaces .little .libstdcxx (List.replicate 8 255)).run 0 =
      .ok (r, o) := by
  have hrun : (deserializeNetInterfaces .little .libstdcxx (List.replicate 8 255)).run 0 =
      .error .lengthError := rfl
  intro h
  obtain ⟨r, o, h⟩ := h
  rw [hrun] at h
  cases h

end NeighborDiscovery
