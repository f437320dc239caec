/-
Round trip and canonicity of the wire format.

A list of interfaces is read back from any buffer that holds its encoding,
whatever stands before and behind it, and the decoder accepts nothing but
encodings.  The two are the two directions of one equivalence of
`netInterfaces_reads`; here they are stated about the serializer and the decoder
of the source.
-/
import NeighborDiscovery.Network.NetInterface

namespace NeighborDiscovery

open OffsetCodec

/-- A container of libstdc++ on a 64-bit host, for elements of `size` bytes, where
the allocator grants all that fits the user half of a 48-bit address space. -/
def Room.libstdcxx (size : Nat) : Room where
  maxSize := (2 ^ 63 - 1) / size
  grants n := decide (n * size < 2 ^ 47)
  maxSize_lt := Nat.lt_of_le_of_lt (Nat.div_le_self _ _) (by decide)

def Limits.libstdcxx : Limits where
  string := .libstdcxx 1
  interfaces := .libstdcxx 128
  ipv4s := .libstdcxx 80
  ipv6s := .libstdcxx 56

/-- Every container can be given every length up to `n`. -/
def Limits.Ample (lim : Limits) (n : Nat) : Prop :=
  ∀ m ≤ n, lim.string.Holds m ∧ lim.interfaces.Holds m ∧ lim.ipv4s.Holds m ∧ lim.ipv6s.Holds m

theorem Limits.Ample.mono {lim : Limits} {n k : Nat} (h : lim.Ample n) (hk : k ≤ n) :
    lim.Ample k :=
  fun m hm => h m (Nat.le_trans hm hk)

theorem Limits.Ample.lt {lim : Limits} {n : Nat} (h : lim.Ample n) : n < 2 ^ 63 :=
  (h n (Nat.le_refl n)).1.lt

theorem Limits.libstdcxx_ample {n : Nat} (hn : n < 2 ^ 40) : Limits.libstdcxx.Ample n := by
  have hroom : ∀ size ≤ 128, 1 ≤ size → ∀ m ≤ n, (Room.libstdcxx size).Holds m := by
    intro size hsize hpos m hm
    have hbytes : m * size ≤ m * 128 := Nat.mul_le_mul_left m hsize
    refine ⟨(Nat.le_div_iff_mul_le hpos).mpr (by omega), Or.inr (decide_eq_true ?_)⟩
    omega
  exact fun m hm => ⟨hroom 1 (by decide) (by decide) m hm, hroom 128 (by decide) (by decide) m hm,
    hroom 80 (by decide) (by decide) m hm, hroom 56 (by decide) (by decide) m hm⟩

theorem deserialize_serialize (order : ByteOrder) (lim : Limits) (nifs : List NetInterface)
    (pre post : Bytes) (hfit : Representable lim nifs)
    (hlen : (serializeNetInterfaces order pre nifs ++ post).length < 2 ^ 63) :
    serializeNetInterfaces order pre nifs = pre ++ serializeNetInterfaces order [] nifs ∧
    ∃ r, (deserializeNetInterfaces order lim
          (serializeNetInterfaces order pre nifs ++ post)).run pre.length
        = .ok (r, pre.length + (serializeNetInterfaces order [] nifs).length) ∧
      r.isOk = true ∧ r.data = some nifs := by
  have happend := serializeNetInterfaces_append order pre nifs
  rw [serializeNetInterfaces_nil]
  refine ⟨happend, ?_⟩
  rw [happend] at hlen ⊢
  have hread := (netInterfaces_reads order lim).roundTrip
    ((netInterfacesFormat_fits order lim).mpr hfit) pre post hlen
  exact view_eq_some.mp hread

/-- Two interfaces, one without any field and one with a NUL byte in its name,
between three bytes and two more. -/
theorem deserialize_serialize_two :
    ∃ r, (deserializeNetInterfaces .little .libstdcxx
          (serializeNetInterfaces .little [1, 2, 3]
            [⟨[], [], [], []⟩, ⟨[0, 101], [97], [⟨[], [49]⟩], [⟨[58], 64⟩]⟩] ++ [0, 0])).run 3
        = .ok (r, 3 + 102) ∧
      r.isOk = true ∧
      r.data = some [⟨[], [], [], []⟩, ⟨[0, 101], [97], [⟨[], [49]⟩], [⟨[58], 64⟩]⟩] := by
  exact (deserialize_serialize .little .libstdcxx
    [⟨[], [], [], []⟩, ⟨[0, 101], [97], [⟨[], [49]⟩], [⟨[58], 64⟩]⟩] [1, 2, 3] [0, 0]
    (by decide) (by decide)).2

theorem deserialize_canonical (order : ByteOrder) (lim : Limits) {b : Bytes} {o o' : Nat}
    {r : FunctionReturn (List NetInterface)} {nifs : List NetInterface}
    (hb : b.length < 2 ^ 63) (ho : o ≤ b.length)
    (hrun : (deserializeNetInterfaces order lim b).run o = .ok (r, o'))
    (hok : r.isOk = true) (hdata : r.data = some nifs) :
    o ≤ o' ∧ o' ≤ b.length ∧
      ∀ pre, serializeNetInterfaces order pre nifs = pre ++ (b.drop o).take (o' - o) := by
  have hread : view (deserializeNetInterfaces order lim) b o = .ok (some nifs, o') :=
    view_eq_some.mpr ⟨r, hrun, hok, hdata⟩
  obtain ⟨hle, hend, hbytes⟩ := (netInterfaces_reads order lim).canonical hb ho hread
  refine ⟨hle, hend, fun pre => ?_⟩
  rw [hbytes]
  exact serializeNetInterfaces_append order pre nifs

/-- The encoding of one interface with an address of each family, behind one byte
and in front of another. -/
def nested : Bytes :=
  [7,
    1, 0, 0, 0, 0, 0, 0, 0,
    1, 0, 0, 0, 0, 0, 0, 0, 101,
    1, 0, 0, 0, 0, 0, 0, 0, 97,
    1, 0, 0, 0, 0, 0, 0, 0,
    1, 0, 0, 0, 0, 0, 0, 0, 49, 1, 0, 0, 0, 0, 0, 0, 0, 50,
    1, 0, 0, 0, 0, 0, 0, 0,
    1, 0, 0, 0, 0, 0, 0, 0, 58, 64,
    5]

theorem deserialize_nested :
    (deserializeNetInterfaces .little .libstdcxx nested).run 1 =
      .ok (.ofData [⟨[101], [97], [⟨[49], [50]⟩], [⟨[58], 64⟩]⟩], 71) := rfl

theorem deserialize_canonical_nested :
    1 ≤ 71 ∧ 71 ≤ nested.length ∧
      ∀ pre, serializeNetInterfaces .little pre [⟨[101], [97], [⟨[49], [50]⟩], [⟨[58], 64⟩]⟩] =
        pre ++ (nested.drop 1).take (71 - 1) :=
  deserialize_canonical .little .libstdcxx (by decide) (by decide) deserialize_nested rfl rfl

end NeighborDiscovery
