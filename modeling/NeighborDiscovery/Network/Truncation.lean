/-
Messages that are cut off, and messages in front of padding.

A receiver hands the decoder its whole buffer.  What the buffer lacks of a message
is noticed, since no beginning of a message decodes; but the zero bytes behind a
datagram count as bytes that arrived.  The results here say on which datagrams that
makes a difference, and which announcements fit a buffer.
-/
import NeighborDiscovery.Network.ReceiveHalf

namespace NeighborDiscovery

open OffsetCodec

/-! ## The decoder as a reader -/

section Decoding

variable {host : Host}

/-- The decoder accepts the list `nifs` in a buffer. -/
def Decodes (host : Host) (b : Bytes) (nifs : List NetInterface) : Prop :=
  ∃ r, decode host b = .ok r ∧ r.isOk = true ∧ r.data = some nifs

theorem decodes_iff {b : Bytes} (hb : b.length < 2 ^ 63) {nifs : List NetInterface} :
    Decodes host b nifs ↔ announcement host nifs <+: b ∧ Representable host.lim nifs := by
  have hreads := netInterfaces_reads host.order host.lim
  have henc : announcement host nifs = (netInterfacesFormat host.order host.lim).enc nifs :=
    serializeNetInterfaces_nil host.order nifs
  constructor
  · intro h
    obtain ⟨r, hdecode, hok, hdata⟩ := h
    obtain ⟨o, hrun⟩ := decode_eq_ok.mp hdecode
    obtain ⟨hat, hfit, -⟩ := (hreads.accepts hb (Nat.zero_le _) nifs o).mp
      (view_eq_some.mpr ⟨r, hrun, hok, hdata⟩)
    rw [henc]
    exact ⟨hat, (netInterfacesFormat_fits host.order host.lim).mp hfit⟩
  · intro h
    obtain ⟨hat, hfit⟩ := h
    rw [henc] at hat
    have hview := (hreads.accepts hb (Nat.zero_le _) nifs _).mpr
      ⟨hat, (netInterfacesFormat_fits host.order host.lim).mpr hfit, rfl⟩
    obtain ⟨r, hrun, hok, hdata⟩ := view_eq_some.mp hview
    exact ⟨r, decode_eq_ok.mpr ⟨_, hrun⟩, hok, hdata⟩

theorem decodes_announcement {nifs : List NetInterface} (hfit : Representable host.lim nifs)
    (hlen : (announcement host nifs).length < 2 ^ 63) :
    Decodes host (announcement host nifs) nifs :=
  (decodes_iff hlen).mpr ⟨List.prefix_rfl, hfit⟩

theorem decodedNifs_of_decodes {b : Bytes} {nifs : List NetInterface}
    (h : Decodes host b nifs) : decodedNifs host b = nifs := by
  obtain ⟨r, hdecode, hok, hdata⟩ := h
  unfold decodedNifs
  rw [hdecode]
  show r.toOption.getD [] = nifs
  rw [FunctionReturn.toOption_eq_some.mpr ⟨hok, hdata⟩]
  rfl

theorem decodes_decodedNifs {b : Bytes} (h : decodedNifs host b ≠ []) :
    Decodes host b (decodedNifs host b) := by
  unfold decodedNifs at h ⊢
  cases hdecode : decode host b with
  | error e =>
    rw [hdecode] at h
    exact absurd rfl h
  | ok r =>
    rw [hdecode] at h
    dsimp only at h ⊢
    cases hopt : r.toOption with
    | none =>
      rw [hopt] at h
      exact absurd rfl h
    | some nifs =>
      obtain ⟨hok, hdata⟩ := FunctionReturn.toOption_eq_some.mp hopt
      exact ⟨r, hdecode, hok, hdata⟩

/-- No beginning of a message decodes, and the failure is an error. -/
theorem decode_cut {nifs : List NetInterface} (hfit : Representable host.lim nifs)
    (hlen : (announcement host nifs).length < 2 ^ 63) {p : Bytes}
    (hp : p <+: announcement host nifs) (hne : p ≠ announcement host nifs) :
    ∃ r, decode host p = .ok r ∧ r.isOk = false ∧ r.code = .Error := by
  obtain ⟨t, ht⟩ := hp
  have hcut : p.length < (announcement host nifs).length := by
    refine Nat.lt_of_le_of_ne (List.IsPrefix.length_le ⟨t, ht⟩) fun heq => ?_
    exact hne (List.IsPrefix.eq_of_length ⟨t, ht⟩ heq)
  obtain ⟨r, hdecode, hok, hdata⟩ := decodes_announcement hfit hlen
  obtain ⟨o, hrun⟩ := decode_eq_ok.mp hdecode
  have hview : view (deserializeNetInterfaces host.order host.lim) (p ++ t) 0 =
      .ok (some nifs, o) := by
    rw [ht]
    exact view_eq_some.mpr ⟨r, hrun, hok, hdata⟩
  have hreads := netInterfaces_reads host.order host.lim
  have hlen' : (p ++ t).length < bufferLimit := by
    rw [ht]
    exact hlen
  obtain ⟨-, -, hend⟩ := (hreads.accepts hlen' (Nat.zero_le _) nifs o).mp hview
  have hlast : p.length < o := by
    rw [hend, Nat.zero_add]
    rw [announcement, serializeNetInterfaces_nil] at hcut
    exact hcut
  obtain ⟨o₁, hnone⟩ := hreads.cut (netInterfacesFormat_persistent host.order host.lim) hlen'
    (Nat.zero_le _) hview hlast
  unfold view at hnone
  cases hshort : (deserializeNetInterfaces host.order host.lim p).run 0 with
  | error e =>
    rw [hshort] at hnone
    cases hnone
  | ok q =>
    obtain ⟨r', o'⟩ := q
    rw [hshort] at hnone
    have hbad : r'.isOk = false :=
      FunctionReturn.isOk_eq_false.mpr (congrArg Prod.fst (Except.ok.inj hnone))
    refine ⟨r', decode_eq_ok.mpr ⟨o', hshort⟩, hbad, ?_⟩
    rcases netInterfaces_failsWithCode host.order host.lim p 0 r' o' hshort with hgood | hcode
    · rw [hbad] at hgood
      cases hgood
    · exact hcode

theorem decodedNifs_cut {nifs : List NetInterface} (hfit : Representable host.lim nifs)
    (hlen : (announcement host nifs).length < 2 ^ 63) {p : Bytes}
    (hp : p <+: announcement host nifs) (hne : p ≠ announcement host nifs) :
    decodedNifs host p = [] := by
  obtain ⟨r, hdecode, hbad, -⟩ := decode_cut hfit hlen hp hne
  unfold decodedNifs
  rw [hdecode]
  show r.toOption.getD [] = []
  rw [FunctionReturn.isOk_eq_false.mp hbad]
  rfl

end Decoding

/-! ## A datagram in front of padding -/

theorem length_receive (maxBufferSize : UInt32) (incoming : Incoming) :
    (IPMulticastReceiver.receive maxBufferSize (some incoming)).1.length =
      maxBufferSize.toNat := by
  show (incoming.data.take maxBufferSize.toNat ++ List.replicate (maxBufferSize.toNat -
    (incoming.data.take maxBufferSize.toNat).length) 0).length = _
  rw [List.length_append, List.length_replicate, List.length_take]
  omega

section Padding

variable {host : Host}

/-- What a pass without a logger does with a datagram whose buffer decodes. -/
theorem receiveHalf_decodes {T : Family} {nnd : NetworkNeighborDiscoverer} {pass : Pass}
    {incoming : Incoming} (hsender : (nnd.sender T).isSome = true)
    (hreceiver : (nnd.receiver T).isSome = true) (hincoming : pass.incoming T = some incoming)
    (hpos : incoming.data ≠ [])
    (hfit : incoming.data.length ≤ nnd.settings.maxBufferSize.toNat) {nifs : List NetInterface}
    (h : Decodes host (bufferOf nnd incoming) nifs) :
    ∃ r' buff, receiveHalf host T nnd true pass .start none = .ok ((r', buff), none) ∧
      r'.receivedNifs = storeNifs ∅ nifs := by
  have hle := incoming.length_le
  have hadd : addInt 0 (toInt (IPMulticastReceiver.receive nnd.settings.maxBufferSize
      (pass.incoming T)).2) = .ok (incoming.data.length : Int) := by
    rw [hincoming, toInt_size, Nat.min_eq_right hfit]
    unfold addInt
    rw [Int.zero_add, if_pos (by omega)]
  have hfilled : filled nnd.settings.maxBufferSize (true && (nnd.sender T).isSome)
      (pass.incoming T) = some (bufferOf nnd incoming) := by
    rw [hsender, hincoming, bufferOf_fits hfit]
    exact filled_some hpos hfit
  obtain ⟨r, hdecode, -, -⟩ := id h
  obtain ⟨logger', hrun, hlogger⟩ := @receiveHalf_takes host T nnd true pass .start none _ _
    hreceiver hfilled fun _ _ => takeBuffer_yields hdecode hadd
  rw [decodedNifs_of_decodes h] at hrun
  cases logger' with
  | none => exact ⟨_, _, hrun, rfl⟩
  | some lines => cases hlogger

/-- Zero bytes behind the data, as many as a buffer has room for, complete the
encoding of a list that is not empty. -/
def PaddingCompletes (host : Host) (maxBufferSize : UInt32) (data : Bytes) : Prop :=
  ∃ nifs k, nifs ≠ [] ∧ Representable host.lim nifs ∧ 0 < k ∧
    data.length + k ≤ maxBufferSize.toNat ∧
    announcement host nifs = data ++ List.replicate k 0

theorem storeNifs_ne_empty {nifs : List NetInterface} (h : nifs ≠ []) : storeNifs ∅ nifs ≠ ∅ := by
  intro hempty
  obtain ⟨nif, hnif⟩ := List.exists_mem_of_ne_nil nifs h
  have hlook := lookup_storeNifs nifs nif.mac
  rw [hempty, AList.lookup_empty] at hlook
  exact lastWithMac_none.mp hlook.symm nif hnif rfl

theorem PaddingCompletes.decodes {data : Bytes} {maxBufferSize : UInt32}
    (h : PaddingCompletes host maxBufferSize data) :
    decodedNifs host data = [] ∧ ∃ nifs, nifs ≠ [] ∧
      Decodes host (data ++ List.replicate (maxBufferSize.toNat - data.length) 0) nifs := by
  obtain ⟨nifs, k, hne, hrep, hk, hroom, henc⟩ := h
  have hmax := maxBufferSize.toNat_lt
  constructor
  · refine decodedNifs_cut hrep ?_ ⟨_, henc.symm⟩ fun heq => ?_
    · rw [henc, List.length_append, List.length_replicate]
      omega
    · have hlen := congrArg List.length (heq.trans henc)
      rw [List.length_append, List.length_replicate] at hlen
      omega
  · refine ⟨nifs, hne, (decodes_iff ?_).mpr ⟨?_, hrep⟩⟩
    · rw [List.length_append, List.length_replicate]
      omega
    · rw [henc]
      refine (List.prefix_append_right_inj data).mpr
        ⟨List.replicate (maxBufferSize.toNat - data.length - k) 0, ?_⟩
      rw [List.replicate_append_replicate]
      congr 1
      omega

/-- Without padding that completes a list, the buffer decodes to what the datagram
does. -/
theorem decodedNifs_padded {data : Bytes} {maxBufferSize : UInt32}
    (hfit : data.length ≤ maxBufferSize.toNat)
    (hnone : ¬ PaddingCompletes host maxBufferSize data) :
    decodedNifs host (data ++ List.replicate (maxBufferSize.toNat - data.length) 0) =
      decodedNifs host data := by
  have hmax := maxBufferSize.toNat_lt
  have hdata : data.length < 2 ^ 63 := by omega
  have hpadded : (data ++ List.replicate (maxBufferSize.toNat - data.length) (0 : UInt8)).length <
      2 ^ 63 := by
    rw [List.length_append, List.length_replicate]
    omega
  generalize hbuffer : data ++ List.replicate (maxBufferSize.toNat - data.length) 0 = buffer
    at hpadded
  have hbegins : data <+: buffer := ⟨_, hbuffer⟩
  by_cases hempty : decodedNifs host buffer = []
  · rw [hempty]
    by_contra hne
    have halone := decodes_decodedNifs fun h => hne h.symm
    obtain ⟨hpre, hrep⟩ := (decodes_iff hdata).mp halone
    have hall := (decodes_iff hpadded).mpr ⟨hpre.trans hbegins, hrep⟩
    rw [decodedNifs_of_decodes hall] at hempty
    exact hne hempty.symm
  · have hall := decodes_decodedNifs hempty
    generalize decodedNifs host buffer = nifs at hall hempty
    obtain ⟨hpre, hrep⟩ := (decodes_iff hpadded).mp hall
    by_cases hinside : (announcement host nifs).length ≤ data.length
    · have hdatapre := List.prefix_of_prefix_length_le hpre hbegins hinside
      exact (decodedNifs_of_decodes ((decodes_iff hdata).mpr ⟨hdatapre, hrep⟩)).symm
    · -- The encoding goes on where the datagram ends, so padding completes it.
      obtain ⟨t, ht⟩ := List.prefix_of_prefix_length_le hbegins hpre (Nat.le_of_not_le hinside)
      rw [← ht, ← hbuffer] at hpre
      obtain ⟨hlong, hrepl⟩ :=
        List.prefix_replicate_iff.mp ((List.prefix_append_right_inj data).mp hpre)
      have hlen := congrArg List.length ht
      rw [List.length_append] at hlen
      refine absurd ⟨nifs, t.length, hempty, hrep, by omega, by omega, ?_⟩ hnone
      rw [← ht, ← hrepl]

theorem datagram_decoded_alone_iff {T : Family} {nnd : NetworkNeighborDiscoverer} {pass : Pass}
    {incoming : Incoming} (hsender : (nnd.sender T).isSome = true)
    (hreceiver : (nnd.receiver T).isSome = true) (hincoming : pass.incoming T = some incoming)
    (hpos : incoming.data ≠ [])
    (hfit : incoming.data.length ≤ nnd.settings.maxBufferSize.toNat) :
    (∀ r r' buff logger logger',
      receiveHalf host T nnd true pass r logger = .ok ((r', buff), logger') →
        r'.receivedNifs = storeNifs r.receivedNifs (decodedNifs host incoming.data)) ↔
      ¬ PaddingCompletes host nnd.settings.maxBufferSize incoming.data := by
  constructor
  · intro hall hcompletes
    obtain ⟨hnone, nifs, hne, hdecodes⟩ := hcompletes.decodes
    rw [← bufferOf_fits hfit] at hdecodes
    obtain ⟨r', buff, hrun, hstored⟩ :=
      receiveHalf_decodes hsender hreceiver hincoming hpos hfit hdecodes
    have hmap := hall .start r' buff none none hrun
    rw [hstored, hnone] at hmap
    exact storeNifs_ne_empty hne hmap
  · intro hnone r r' buff logger logger' hrun
    have hstored := receiveHalf_ok hrun
    rw [hsender, hincoming, Bool.true_and, filled_some hpos hfit] at hstored
    rw [hstored, ← decodedNifs_padded hfit hnone]
    unfold decodedAll
    rw [Option.toList_some, List.flatMap_singleton]

end Padding

/-- An interface without addresses, its last length field being zero. -/
def Small.bare : NetInterface := ⟨text "a", text "bb", [], []⟩

/-- What is left of the announcement of `Small.bare` without its last eight bytes. -/
def Small.shortened : Incoming :=
  ⟨(announcement Small.host [Small.bare]).take 35, text "fe80::2", by decide⟩

theorem datagram_decoded_alone_iff_small :
    (∀ r r' buff logger logger',
      receiveHalf Small.host .inet6 Small.init true ⟨some Small.shortened, none, none, 1⟩ r logger =
          .ok ((r', buff), logger') →
        r'.receivedNifs =
          storeNifs r.receivedNifs (decodedNifs Small.host Small.shortened.data)) ↔
      ¬ PaddingCompletes Small.host Small.init.settings.maxBufferSize Small.shortened.data :=
  datagram_decoded_alone_iff rfl rfl rfl (by decide) (by decide)

set_option maxRecDepth 10000 in
/-- The padding supplies the eight bytes, and the interface is accepted. -/
theorem shortened_accepted :
    (∃ r, decode Small.host Small.shortened.data = .ok r ∧ r.code = .Error) ∧
      ∃ r' buff logger',
        receiveHalf Small.host .inet6 Small.init true ⟨some Small.shortened, none, none, 1⟩
          .start none = .ok ((r', buff), logger') ∧
        KeyedMap.values r'.receivedNifs = [Small.bare] := by
  have hdecodes : Decodes Small.host (bufferOf Small.init Small.shortened) [Small.bare] :=
    (decodes_iff (by rw [bufferOf, length_receive]; decide)).mpr ⟨by decide, by decide⟩
  have hincoming : (⟨some Small.shortened, none, none, 1⟩ : Pass).incoming .inet6 =
      some Small.shortened := rfl
  obtain ⟨r', buff, hrun, hstored⟩ := receiveHalf_decodes rfl rfl hincoming (by decide)
    (by decide) hdecodes
  have hrep : Representable Small.host.lim [Small.bare] := by decide
  obtain ⟨r, hdecode, -, hcode⟩ :=
    decode_cut hrep (by decide) (List.take_prefix 35 _) (by decide)
  refine ⟨⟨r, hdecode, hcode⟩, r', buff, none, hrun, ?_⟩
  rw [hstored]
  rfl

/-! ## Announcements and the size of a buffer -/

section Sizes

variable {sender receiver : Host}

/-- The daemon of `receiver` reads a datagram into its buffer and decodes it to `nifs`. -/
def ReadsExactly (receiver : Host) (maxBufferSize : UInt32) (incoming : Incoming)
    (nifs : List NetInterface) : Prop :=
  toInt (IPMulticastReceiver.receive maxBufferSize (some incoming)).2 > 0 ∧
    Decodes receiver (IPMulticastReceiver.receive maxBufferSize (some incoming)).1 nifs

theorem lengthField_begins (host : Host) (nifs : List NetInterface) :
    Serializer.lengthField host.order nifs.length <+: announcement host nifs := by
  rw [announcement, serializeNetInterfaces_nil]
  exact List.prefix_append _ _

theorem length_le_announcement (host : Host) (nifs : List NetInterface) :
    nifs.length + 8 ≤ (announcement host nifs).length := by
  have hone : ∀ nif : NetInterface, 1 ≤ (nif.bytes host.order).length := by
    intro nif
    unfold NetInterface.bytes Serializer.stringBytes
    rw [List.length_append, List.length_append, Serializer.length_lengthField]
    omega
  have hall : nifs.length ≤ (nifs.flatMap (NetInterface.bytes host.order)).length := by
    induction nifs with
    | nil => exact Nat.le_refl 0
    | cons nif rest ih =>
      have hnif := hone nif
      rw [List.flatMap_cons, List.length_append, List.length_cons]
      omega
  rw [announcement, serializeNetInterfaces_nil, netInterfacesBytes, Serializer.vectorBytes,
    List.length_append, Serializer.length_lengthField]
  omega

/-- Counts below 2^32 fill the lower half of a length field, so in different byte
orders only zero looks the same. -/
theorem lengthField_eq {o₁ o₂ : ByteOrder} {m n : Nat} (hm : m < 2 ^ 32) (hn : n < 2 ^ 32)
    (h : Serializer.lengthField o₁ m = Serializer.lengthField o₂ n) :
    (o₁ = o₂ ∧ m = n) ∨ (m = 0 ∧ n = 0) := by
  have hfield : ∀ order k, k < 2 ^ 32 → Serializer.lengthField order k =
      ByteOrder.arrange order (FixedWidth.digits 8 k) := by
    intro order k hk
    show ByteOrder.arrange order (FixedWidth.digits 8 (UInt64.ofNat k).toNat) = _
    rw [UInt64.toNat_ofNat', Nat.mod_eq_of_lt (by omega)]
  have hsame : FixedWidth.digits 8 m = FixedWidth.digits 8 n → m = n := by
    intro hdigits
    have hvalue := congrArg FixedWidth.value hdigits
    rw [FixedWidth.value_digits, FixedWidth.value_digits] at hvalue
    omega
  have hreversed : ∀ k l, k < 2 ^ 32 → l < 2 ^ 32 →
      (FixedWidth.digits 8 k).reverse = FixedWidth.digits 8 l → k = 0 ∧ l = 0 := by
    intro k l hk hl hdigits
    have hk4 : k / 256 / 256 / 256 / 256 = 0 := by omega
    have hl4 : l / 256 / 256 / 256 / 256 = 0 := by omega
    simp only [FixedWidth.digits, List.reverse_cons, List.reverse_nil, List.nil_append,
      List.cons_append, List.cons.injEq, hk4, hl4, Nat.zero_div, ← UInt8.toNat_inj,
      UInt8.toNat_ofNat'] at hdigits
    omega
  rw [hfield o₁ m hm, hfield o₂ n hn] at h
  cases o₁ <;> cases o₂
  · exact Or.inl ⟨rfl, hsame h⟩
  · exact Or.inr (hreversed n m hn hm h.symm).symm
  · exact Or.inr (hreversed m n hm hn h)
  · exact Or.inl ⟨rfl, hsame (List.reverse_injective h)⟩

theorem announcement_order {nifs : List NetInterface}
    (h : sender.order = receiver.order ∨ nifs = []) :
    announcement receiver nifs = announcement sender nifs := by
  rcases h with h | rfl
  · unfold announcement
    rw [h]
  · rw [announcement, announcement, serializeNetInterfaces_nil, serializeNetInterfaces_nil]
    cases sender.order <;> cases receiver.order <;> rfl

/-- A receiver that decodes anything of an announcement finds its length field, so it
has the sender's byte order and decodes a list of that length, or both lists are empty. -/
theorem order_of_decodes {maxBufferSize : UInt32} {nifs others : List NetInterface}
    {incoming : Incoming} (hdelivered : incoming.data = announcement sender nifs)
    (hdecodes : Decodes receiver (IPMulticastReceiver.receive maxBufferSize (some incoming)).1
      others) :
    (sender.order = receiver.order ∧ nifs.length = others.length) ∨ (nifs = [] ∧ others = []) := by
  have hmax := maxBufferSize.toNat_lt
  have hbuffer := length_receive maxBufferSize incoming
  have hcount := length_le_announcement sender nifs
  have hothers := length_le_announcement receiver others
  have hsize := incoming.length_le
  rw [hdelivered] at hsize
  obtain ⟨hpre, -⟩ := (decodes_iff (by omega)).mp hdecodes
  have hroom := hpre.length_le
  -- Both length fields stand at the start of the buffer.
  have hreceived := (lengthField_begins receiver others).trans hpre
  have hsent : Serializer.lengthField sender.order nifs.length <+:
      (IPMulticastReceiver.receive maxBufferSize (some incoming)).1 := by
    show _ <+: incoming.data.take maxBufferSize.toNat ++ _
    rw [hdelivered]
    refine List.IsPrefix.trans ?_ (List.prefix_append _ _)
    refine (List.prefix_take_iff).mpr ⟨lengthField_begins sender nifs, ?_⟩
    rw [Serializer.length_lengthField]
    omega
  have hlen : (Serializer.lengthField sender.order nifs.length).length =
      (Serializer.lengthField receiver.order others.length).length := by
    rw [Serializer.length_lengthField, Serializer.length_lengthField]
  have hsame := List.IsPrefix.eq_of_length
    (List.prefix_of_prefix_length_le hsent hreceived (Nat.le_of_eq hlen)) hlen
  exact (lengthField_eq (by omega) (by omega) hsame).imp_right fun hzero =>
    ⟨List.length_eq_zero_iff.mp hzero.1, List.length_eq_zero_iff.mp hzero.2⟩

theorem announcement_read_iff {maxBufferSize : UInt32} {nifs : List NetInterface}
    (hfit : Representable receiver.lim nifs) {incoming : Incoming}
    (hdelivered : incoming.data = announcement sender nifs) :
    ReadsExactly receiver maxBufferSize incoming nifs ↔
      (announcement sender nifs).length ≤ maxBufferSize.toNat ∧
        (sender.order = receiver.order ∨ nifs = []) := by
  have hmax := maxBufferSize.toNat_lt
  have hcount := length_le_announcement sender nifs
  have hbuffer := length_receive maxBufferSize incoming
  constructor
  · intro h
    obtain ⟨-, hdecodes⟩ := h
    have horder : sender.order = receiver.order ∨ nifs = [] :=
      (order_of_decodes hdelivered hdecodes).imp (fun h => h.1) fun h => h.1
    refine ⟨?_, horder⟩
    obtain ⟨hpre, -⟩ := (decodes_iff (by omega)).mp hdecodes
    have hroom := hpre.length_le
    rw [announcement_order horder] at hroom
    omega
  · intro h
    obtain ⟨hroom, horder⟩ := h
    have hn := toInt_size maxBufferSize incoming
    rw [hdelivered, Nat.min_eq_right hroom] at hn
    refine ⟨by omega, (decodes_iff (by omega)).mpr ⟨?_, hfit⟩⟩
    show _ <+: incoming.data.take maxBufferSize.toNat ++ _
    rw [announcement_order horder, hdelivered, List.take_of_length_le hroom]
    exact List.prefix_append _ _

end Sizes

/-- The announcement of `Small.bare`, as it arrives. -/
def Small.whole : Incoming :=
  ⟨announcement Small.host [Small.bare], text "fe80::2", by decide⟩

theorem announcement_read_iff_small :
    ReadsExactly Small.host 256 Small.whole [Small.bare] ↔
      (announcement Small.host [Small.bare]).length ≤ (256 : UInt32).toNat ∧
        (Small.host.order = Small.host.order ∨ [Small.bare] = []) :=
  announcement_read_iff (by decide) rfl

/-- A buffer of forty bytes loses the end of an announcement of forty-three. -/
theorem announcement_unread : Small.whole.data = announcement Small.host [Small.bare] ∧
    ¬ ReadsExactly Small.host 40 Small.whole [Small.bare] := by
  refine ⟨rfl, fun h => ?_⟩
  obtain ⟨-, r, hdecode, hok, -⟩ := h
  have hrun : ∃ r, decode Small.host
      (IPMulticastReceiver.receive 40 (some Small.whole)).1 = .ok r ∧ r.isOk = false :=
    ⟨_, rfl, rfl⟩
  obtain ⟨r', hdecode', hbad⟩ := hrun
  rw [hdecode] at hdecode'
  cases hdecode'
  rw [hok] at hbad
  cases hbad

end NeighborDiscovery
