/-
What a host reads in the announcement of another host.

A datagram holds at most 65535 bytes, so every field of an announcement counts
less than that.  A host of the same byte order reads the announced list or, where
its buffer cuts the announcement short, nothing.  A host of the other byte order
reads the number of interfaces with its bytes reversed, and makes room for that
many before it looks at the first.
-/
import NeighborDiscovery.Network.Truncation

namespace NeighborDiscovery

open OffsetCodec Serializer

/-! ## Short announcements -/

theorem length_le_flatMap {α β : Type} {f : α → List β} {l : List α} {x : α} (hx : x ∈ l) :
    (f x).length ≤ (l.flatMap f).length := by
  rw [List.flatMap_def]
  exact (List.sublist_flatten_of_mem (List.mem_map_of_mem hx)).length_le

theorem count_le_flatMap {α β : Type} {f : α → List β} (hf : ∀ x, 1 ≤ (f x).length)
    (l : List α) : l.length ≤ (l.flatMap f).length := by
  induction l with
  | nil => exact Nat.le_refl 0
  | cons x l ih =>
    have hx := hf x
    rw [List.flatMap_cons, List.length_append, List.length_cons]
    omega

theorem length_stringBytes (order : ByteOrder) (str : Bytes) :
    (stringBytes order str).length = 8 + str.length := by
  rw [stringBytes, List.length_append, length_lengthField]

theorem length_vectorBytes {T : Type} (order : ByteOrder) (enc : T → Bytes) (vec : List T) :
    (vectorBytes order enc vec).length = 8 + (vec.flatMap enc).length := by
  rw [vectorBytes, List.length_append, length_lengthField]

theorem NetInterface.fits_of_length {lim : Limits} {order : ByteOrder} {nif : NetInterface}
    {n : Nat} (hlen : (nif.bytes order).length ≤ n) (hlim : lim.Ample n) : nif.Fits lim := by
  have h4 : ∀ ip : IPv4Info, (ip.bytes order).length =
      16 + ip.address.length + ip.netmask.length := by
    intro ip
    rw [IPv4Info.bytes, List.length_append, length_stringBytes, length_stringBytes]
    omega
  have h6 : ∀ ip : IPv6Info, (ip.bytes order).length = 9 + ip.address.length := by
    intro ip
    rw [IPv6Info.bytes, List.length_append, length_stringBytes, TrivialType.length_bytes]
    show 8 + ip.address.length + 1 = 9 + ip.address.length
    omega
  have hcount4 := count_le_flatMap (f := IPv4Info.bytes order) (fun ip => by rw [h4]; omega)
    nif.ipv4s
  have hcount6 := count_le_flatMap (f := IPv6Info.bytes order) (fun ip => by rw [h6]; omega)
    nif.ipv6s
  simp only [NetInterface.bytes, List.length_append, length_stringBytes,
    length_vectorBytes] at hlen
  refine ⟨(hlim _ (by omega)).1, (hlim _ (by omega)).1, (hlim _ (by omega)).2.2.1,
    fun ip hip => ?_, (hlim _ (by omega)).2.2.2, fun ip hip => ?_⟩
  · have hle := length_le_flatMap (f := IPv4Info.bytes order) hip
    rw [h4] at hle
    exact ⟨(hlim _ (by omega)).1, (hlim _ (by omega)).1⟩
  · have hle := length_le_flatMap (f := IPv6Info.bytes order) hip
    rw [h6] at hle
    exact (hlim _ (by omega)).1

/-- No part of a list is longer than its announcement. -/
theorem representable_of_length {host : Host} {lim : Limits} {nifs : List NetInterface} {n : Nat}
    (hlen : (announcement host nifs).length ≤ n) (hlim : lim.Ample n) :
    Representable lim nifs := by
  have hcount := length_le_announcement host nifs
  rw [announcement, serializeNetInterfaces_nil, netInterfacesBytes, length_vectorBytes] at hlen
  rw [announcement, serializeNetInterfaces_nil, netInterfacesBytes, length_vectorBytes] at hcount
  refine ⟨(hlim _ (by omega)).2.1, fun nif hnif => ?_⟩
  have hle := length_le_flatMap (f := NetInterface.bytes host.order) hnif
  exact NetInterface.fits_of_length hle (hlim.mono (by omega))

section Delivered

variable {sender receiver : Host} {maxBufferSize : UInt32} {nifs : List NetInterface}
  {incoming : Incoming}

theorem announcement_unique {b : Bytes} (hb : b.length < 2 ^ 32) {others : List NetInterface}
    (h : announcement receiver nifs <+: b) (h' : announcement receiver others <+: b) :
    nifs = others := by
  have hfits : ∀ l, announcement receiver l <+: b →
      HasAt b 0 ((netInterfacesFormat receiver.order .libstdcxx).enc l) ∧
        (netInterfacesFormat receiver.order .libstdcxx).fits l := by
    intro l hl
    refine ⟨?_, (netInterfacesFormat_fits receiver.order .libstdcxx).mpr
      (representable_of_length hl.length_le (Limits.libstdcxx_ample (by omega)))⟩
    rw [announcement, serializeNetInterfaces_nil] at hl
    exact hl
  have hlimit : b.length < bufferLimit := Nat.lt_trans hb (by decide)
  exact (netInterfaces_reads receiver.order .libstdcxx).unique hlimit (Nat.zero_le _)
    (hfits nifs h).1 (hfits nifs h).2 (hfits others h').1 (hfits others h').2

/-- A buffer holds a whole datagram and zeros, or its beginning. -/
theorem receive_cases (maxBufferSize : UInt32) (incoming : Incoming) :
    (incoming.data <+: (IPMulticastReceiver.receive maxBufferSize (some incoming)).1 ∧
      incoming.data.length ≤ maxBufferSize.toNat) ∨
    ((IPMulticastReceiver.receive maxBufferSize (some incoming)).1 <+: incoming.data ∧
      maxBufferSize.toNat < incoming.data.length) := by
  show (_ <+: incoming.data.take maxBufferSize.toNat ++ _ ∧ _) ∨
    (incoming.data.take maxBufferSize.toNat ++ _ <+: _ ∧ _)
  by_cases hlen : incoming.data.length ≤ maxBufferSize.toNat
  · rw [List.take_of_length_le hlen]
    exact Or.inl ⟨List.prefix_append _ _, hlen⟩
  · have hkept : (incoming.data.take maxBufferSize.toNat).length = maxBufferSize.toNat := by
      rw [List.length_take]
      omega
    rw [hkept, Nat.sub_self, List.replicate_zero, List.append_nil]
    exact Or.inr ⟨List.take_prefix _ _, by omega⟩

/-- A host reads another host's list, in the same byte order, or nothing. -/
theorem decodedNifs_delivered (hdelivered : incoming.data = announcement sender nifs) :
    decodedNifs receiver (IPMulticastReceiver.receive maxBufferSize (some incoming)).1 = [] ∨
      (sender.order = receiver.order ∧
        decodedNifs receiver (IPMulticastReceiver.receive maxBufferSize (some incoming)).1 =
          nifs) := by
  by_cases hnone :
      decodedNifs receiver (IPMulticastReceiver.receive maxBufferSize (some incoming)).1 = []
  · exact Or.inl hnone
  right
  have hbuffer := length_receive maxBufferSize incoming
  have hmax := maxBufferSize.toNat_lt
  have hsize := incoming.length_le
  have hdecodes := decodes_decodedNifs hnone
  rcases order_of_decodes hdelivered hdecodes with ⟨horder, -⟩ | ⟨-, hempty⟩
  · refine ⟨horder, ?_⟩
    obtain ⟨hpre, -⟩ := (decodes_iff (by omega)).mp hdecodes
    have hsent : announcement receiver nifs <+: incoming.data :=
      ⟨[], by rw [List.append_nil, hdelivered, announcement_order (Or.inl horder)]⟩
    rcases receive_cases maxBufferSize incoming with ⟨hwhole, -⟩ | ⟨hcut, -⟩
    · exact announcement_unique (by omega) hpre (hsent.trans hwhole)
    · exact announcement_unique (by omega) (hpre.trans hcut) hsent
  · exact absurd hempty hnone

/-- An announcement of the host's own byte order never ends its decoder. -/
theorem decode_own_order (hlim : receiver.lim.Ample 65535)
    (horder : sender.order = receiver.order)
    (hdelivered : incoming.data = announcement sender nifs) :
    ∃ r, decode receiver (IPMulticastReceiver.receive maxBufferSize (some incoming)).1 =
      .ok r := by
  have hbuffer := length_receive maxBufferSize incoming
  have hmax := maxBufferSize.toNat_lt
  have hsize := incoming.length_le
  rw [← announcement_order (Or.inl horder)] at hdelivered
  rw [hdelivered] at hsize
  have hfit : Representable receiver.lim nifs := representable_of_length hsize hlim
  rcases receive_cases maxBufferSize incoming with ⟨hwhole, -⟩ | ⟨hcut, hshort⟩
  · rw [hdelivered] at hwhole
    obtain ⟨r, hr, -⟩ := (decodes_iff (by omega)).mpr ⟨hwhole, hfit⟩
    exact ⟨r, hr⟩
  · rw [hdelivered] at hcut hshort
    obtain ⟨r, hr, -⟩ := decode_cut hfit (by omega) hcut fun heq => by
      rw [heq] at hbuffer
      omega
    exact ⟨r, hr⟩

/-! ## The other byte order -/

/-- The eight bytes of a small count, read from the other end. -/
theorem lengthField_swapped {o₁ o₂ : ByteOrder} (ho : o₁ ≠ o₂) {n : Nat} (hn : n < 2 ^ 16) :
    lengthField o₁ n = lengthField o₂ (n % 256 * 2 ^ 56 + n / 256 * 2 ^ 48) := by
  have hfield : ∀ order k, k < 2 ^ 64 →
      lengthField order k = ByteOrder.arrange order (FixedWidth.digits 8 k) := by
    intro order k hk
    show ByteOrder.arrange order (FixedWidth.digits 8 (UInt64.ofNat k).toNat) = _
    rw [UInt64.toNat_ofNat', Nat.mod_eq_of_lt hk]
  have hswap : (FixedWidth.digits 8 n).reverse =
      FixedWidth.digits 8 (n % 256 * 2 ^ 56 + n / 256 * 2 ^ 48) := by
    have hlen : (FixedWidth.digits 8 n).reverse.length = 8 := by
      rw [List.length_reverse, FixedWidth.length_digits]
    have hvalue : FixedWidth.value (FixedWidth.digits 8 n).reverse =
        n % 256 * 2 ^ 56 + n / 256 * 2 ^ 48 := by
      have hzero : n / 256 / 256 = 0 := by omega
      simp only [FixedWidth.digits, FixedWidth.value, List.reverse_cons, List.reverse_nil,
        List.nil_append, List.cons_append, hzero, Nat.zero_div, UInt8.toNat_ofNat']
      omega
    have hdigits := FixedWidth.digits_value (FixedWidth.digits 8 n).reverse
    rw [hlen, hvalue] at hdigits
    exact hdigits.symm
  rw [hfield o₁ n (by omega), hfield o₂ _ (by omega), ← hswap]
  cases o₁ <;> cases o₂
  · exact absurd rfl ho
  · exact (List.reverse_reverse _).symm
  · rfl
  · exact absurd rfl ho

/-- A vector longer than any vector ends the decoder before its first element. -/
theorem decode_count_too_large {host : Host} {b : Bytes} (hb : b.length < 2 ^ 63) {m : Nat}
    (hm : m < 2 ^ 64) (hat : lengthField host.order m <+: b)
    (hlong : host.lim.interfaces.maxSize < m) :
    decode host b = .error .lengthError := by
  have hlen := hat.length_le
  rw [length_lengthField] at hlen
  have hcount : readLength host.order b 0 = .ok (some m, 8) :=
    (readLength_eq_some host.order hb (Nat.zero_le _)).mpr ⟨hat, hm, by omega, by omega⟩
  have hview : view (deserializeNetInterfaces host.order host.lim) b 0 = .error .lengthError := by
    show view (Deserializer.deserializeVector host.order host.lim.interfaces _) b 0 = _
    have hthrows : host.lim.interfaces.allocate m = .error .lengthError := if_pos hlong
    rw [view_deserializeVector, Reader.counted, Reader.bind, hcount]
    simp only [hthrows]
  unfold view at hview
  unfold decode
  cases hrun : (deserializeNetInterfaces host.order host.lim b).run 0 with
  | error e =>
    rw [hrun] at hview
    cases hview
    show Prod.fst <$> (deserializeNetInterfaces host.order host.lim b).run 0 = _
    rw [hrun]
    rfl
  | ok q =>
    rw [hrun] at hview
    cases hview

/-- An announcement of the other byte order ends the decoder, unless the number of
its interfaces is a multiple of 256. -/
theorem decode_other_order (hlim : receiver.lim.interfaces.maxSize < 2 ^ 56)
    (horder : sender.order ≠ receiver.order) (hmax : 8 ≤ maxBufferSize.toNat)
    (hcount : nifs.length % 256 ≠ 0) (hdelivered : incoming.data = announcement sender nifs) :
    decode receiver (IPMulticastReceiver.receive maxBufferSize (some incoming)).1 =
      .error .lengthError := by
  have hbuffer := length_receive maxBufferSize incoming
  have hlt := maxBufferSize.toNat_lt
  have hsize := incoming.length_le
  have hlist := length_le_announcement sender nifs
  rw [hdelivered] at hsize
  have hfield : lengthField sender.order nifs.length <+:
      (IPMulticastReceiver.receive maxBufferSize (some incoming)).1 := by
    show _ <+: incoming.data.take maxBufferSize.toNat ++ _
    rw [hdelivered]
    refine List.IsPrefix.trans ?_ (List.prefix_append _ _)
    refine List.prefix_take_iff.mpr ⟨lengthField_begins sender nifs, ?_⟩
    rw [length_lengthField]
    exact hmax
  rw [lengthField_swapped horder (by omega)] at hfield
  exact decode_count_too_large (by omega) (by omega) hfield (by omega)

end Delivered

end NeighborDiscovery
