/-
Network interfaces and their wire format.

The three structures are written and read field by field, in the order of the
source.  Each decoder is tied to a format whose encodings are the bytes its
serializer appends, so the round trip and its converse follow for whole lists of
interfaces from the rules for sequences and counted runs.
-/
import NeighborDiscovery.Utility.Failures
import NeighborDiscovery.Utility.Formats

namespace NeighborDiscovery

open OffsetCodec

structure IPv4Info where
  address : Bytes
  netmask : Bytes
deriving DecidableEq, Repr

structure IPv6Info where
  address : Bytes
  prefixLength : UInt8
deriving DecidableEq, Repr

structure NetInterface where
  name : Bytes
  mac : Bytes
  ipv4s : List IPv4Info
  ipv6s : List IPv6Info
deriving DecidableEq, Repr

/-! ## Serializations -/

section Serializations

variable (order : ByteOrder)

def IPv4Info.serialize (buff : Bytes) (ip : IPv4Info) : Bytes :=
  let buff := Serializer.serializeString order buff ip.address
  Serializer.serializeString order buff ip.netmask

def IPv6Info.serialize (buff : Bytes) (ip : IPv6Info) : Bytes :=
  let buff := Serializer.serializeString order buff ip.address
  Serializer.serializeTrivial order buff ip.prefixLength

def NetInterface.serialize (buff : Bytes) (nif : NetInterface) : Bytes :=
  let buff := Serializer.serializeString order buff nif.name
  let buff := Serializer.serializeString order buff nif.mac
  let buff := Serializer.serializeVector order (IPv4Info.serialize order) buff nif.ipv4s
  Serializer.serializeVector order (IPv6Info.serialize order) buff nif.ipv6s

/-- `Serializer::serialize<NetInterface>(buff, nifs)`. -/
def serializeNetInterfaces (buff : Bytes) (nifs : List NetInterface) : Bytes :=
  Serializer.serializeVector order (NetInterface.serialize order) buff nifs

end Serializations

/-! ## Deserializations -/

section Deserializations

variable (order : ByteOrder) (lim : Limits)

def IPv4Info.deserializeImpl (buff : Bytes) : Decode (FunctionReturn IPv4Info) := do
  let funcReturn ← Deserializer.deserializeString order lim buff
  if !funcReturn.isOk then
    return .chain (text "Couldn't deserialize IPv4 address") funcReturn
  let addr ← value funcReturn.data
  let funcReturn1 ← Deserializer.deserializeString order lim buff
  if !funcReturn1.isOk then
    return .chain (text "Couldn't deserialize IPv4 netmask") funcReturn1
  let netmask ← value funcReturn1.data
  return .ofData ⟨addr, netmask⟩

def IPv6Info.deserializeImpl (buff : Bytes) : Decode (FunctionReturn IPv6Info) := do
  let funcReturn ← Deserializer.deserializeString order lim buff
  if !funcReturn.isOk then
    return .chain (text "Couldn't deserialize IPv6 address") funcReturn
  let addr ← value funcReturn.data
  let funcReturn1 ← Deserializer.deserializeTrivial order UInt8 buff
  if !funcReturn1.isOk then
    return .chain (text "Couldn't deserialize IPv6 prefix") funcReturn1
  let prefixLength ← value funcReturn1.data
  return .ofData ⟨addr, prefixLength⟩

def NetInterface.deserializeImpl (buff : Bytes) : Decode (FunctionReturn NetInterface) := do
  let funcReturn ← Deserializer.deserializeString order lim buff
  if !funcReturn.isOk then
    return .chain (text "Couldn't deserialize network interface name") funcReturn
  let name ← value funcReturn.data
  let funcReturn1 ← Deserializer.deserializeString order lim buff
  if !funcReturn1.isOk then
    return .chain (text "Couldn't deserialize network interface MAC") funcReturn1
  let mac ← value funcReturn1.data
  let funcReturn2 ←
    Deserializer.deserializeVector order lim.ipv4s (IPv4Info.deserializeImpl order lim) buff
  if !funcReturn2.isOk then
    return .chain (text "Couldn't deserialize IPv4s") funcReturn2
  let ipv4s ← value funcReturn2.data
  let funcReturn3 ←
    Deserializer.deserializeVector order lim.ipv6s (IPv6Info.deserializeImpl order lim) buff
  if !funcReturn3.isOk then
    return .chain (text "Couldn't deserialize IPv6s") funcReturn3
  let ipv6s ← value funcReturn3.data
  return .ofCodeData .Ok ⟨name, mac, ipv4s, ipv6s⟩

/-- `Deserializer::deserialize<NetInterface>(buff, offset)`. -/
def deserializeNetInterfaces (buff : Bytes) : Decode (FunctionReturn (List NetInterface)) :=
  Deserializer.deserializeVector order lim.interfaces (NetInterface.deserializeImpl order lim) buff

end Deserializations

/-! ## The bytes of an interface -/

section Encodings

variable (order : ByteOrder)

open Serializer

def IPv4Info.bytes (ip : IPv4Info) : Bytes :=
  stringBytes order ip.address ++ stringBytes order ip.netmask

def IPv6Info.bytes (ip : IPv6Info) : Bytes :=
  stringBytes order ip.address ++ TrivialType.bytes order ip.prefixLength

def NetInterface.bytes (nif : NetInterface) : Bytes :=
  stringBytes order nif.name ++ (stringBytes order nif.mac ++
    (vectorBytes order (IPv4Info.bytes order) nif.ipv4s ++
      vectorBytes order (IPv6Info.bytes order) nif.ipv6s))

def netInterfacesBytes (nifs : List NetInterface) : Bytes :=
  vectorBytes order (NetInterface.bytes order) nifs

theorem IPv4Info.serialize_append (buff : Bytes) (ip : IPv4Info) :
    ip.serialize order buff = buff ++ ip.bytes order := by
  simp only [IPv4Info.serialize, IPv4Info.bytes, serializeString_append, List.append_assoc]

theorem IPv6Info.serialize_append (buff : Bytes) (ip : IPv6Info) :
    ip.serialize order buff = buff ++ ip.bytes order := by
  simp only [IPv6Info.serialize, IPv6Info.bytes, serializeString_append, serializeTrivial,
    List.append_assoc]

theorem NetInterface.serialize_append (buff : Bytes) (nif : NetInterface) :
    nif.serialize order buff = buff ++ nif.bytes order := by
  simp only [NetInterface.serialize, NetInterface.bytes, serializeString_append,
    serializeVector_append order (IPv4Info.serialize_append order),
    serializeVector_append order (IPv6Info.serialize_append order), List.append_assoc]

theorem serializeNetInterfaces_append (buff : Bytes) (nifs : List NetInterface) :
    serializeNetInterfaces order buff nifs = buff ++ netInterfacesBytes order nifs :=
  serializeVector_append order (NetInterface.serialize_append order) buff nifs

theorem serializeNetInterfaces_nil (nifs : List NetInterface) :
    serializeNetInterfaces order [] nifs = netInterfacesBytes order nifs :=
  serializeNetInterfaces_append order [] nifs

end Encodings

/-! ## Formats -/

section Formats

variable (order : ByteOrder) (lim : Limits)

/-- The C++ types can hold every part of the interface. -/
structure NetInterface.Fits (nif : NetInterface) : Prop where
  name : lim.string.Holds nif.name.length
  mac : lim.string.Holds nif.mac.length
  ipv4s : lim.ipv4s.Holds nif.ipv4s.length
  ipv4 : ∀ ip ∈ nif.ipv4s, lim.string.Holds ip.address.length ∧ lim.string.Holds ip.netmask.length
  ipv6s : lim.ipv6s.Holds nif.ipv6s.length
  ipv6 : ∀ ip ∈ nif.ipv6s, lim.string.Holds ip.address.length

instance (nif : NetInterface) : Decidable (nif.Fits lim) :=
  decidable_of_iff (lim.string.Holds nif.name.length ∧ lim.string.Holds nif.mac.length ∧
      lim.ipv4s.Holds nif.ipv4s.length ∧
      (∀ ip ∈ nif.ipv4s,
        lim.string.Holds ip.address.length ∧ lim.string.Holds ip.netmask.length) ∧
      lim.ipv6s.Holds nif.ipv6s.length ∧ ∀ ip ∈ nif.ipv6s, lim.string.Holds ip.address.length)
    ⟨fun h => ⟨h.1, h.2.1, h.2.2.1, h.2.2.2.1, h.2.2.2.2.1, h.2.2.2.2.2⟩,
      fun h => ⟨h.name, h.mac, h.ipv4s, h.ipv4, h.ipv6s, h.ipv6⟩⟩

def Representable (nifs : List NetInterface) : Prop :=
  lim.interfaces.Holds nifs.length ∧ ∀ nif ∈ nifs, nif.Fits lim

instance (nifs : List NetInterface) : Decidable (Representable lim nifs) :=
  inferInstanceAs (Decidable (_ ∧ _))

def ipv4Format : Format UInt8 IPv4Info where
  enc := IPv4Info.bytes order
  fits ip := lim.string.Holds ip.address.length ∧ lim.string.Holds ip.netmask.length
  overflows := ((stringFormat order lim).seq (stringFormat order lim)).overflows

def ipv6Format : Format UInt8 IPv6Info where
  enc := IPv6Info.bytes order
  fits ip := lim.string.Holds ip.address.length
  overflows := ((stringFormat order lim).seq (trivialFormat order UInt8)).overflows

def fieldsFormat : Format UInt8 (Bytes × Bytes × List IPv4Info × List IPv6Info) :=
  (stringFormat order lim).seq ((stringFormat order lim).seq
    ((vectorFormat order lim.ipv4s (ipv4Format order lim)).seq
      (vectorFormat order lim.ipv6s (ipv6Format order lim))))

def netInterfaceFormat : Format UInt8 NetInterface where
  enc := NetInterface.bytes order
  fits := NetInterface.Fits lim
  overflows := (fieldsFormat order lim).overflows

def netInterfacesFormat : Format UInt8 (List NetInterface) :=
  vectorFormat order lim.interfaces (netInterfaceFormat order lim)

theorem netInterfacesFormat_persistent : (netInterfacesFormat order lim).Persistent := by
  have hs := stringFormat_persistent order lim
  have h4 : (ipv4Format order lim).Persistent := hs.seq hs
  have h6 : (ipv6Format order lim).Persistent := hs.seq fun _ _ _ h => h.elim
  have hlength : (lengthFormat order).Persistent := fun _ _ _ h => h.elim
  have hnif : (netInterfaceFormat order lim).Persistent :=
    hs.seq (hs.seq ((hlength.counted h4 lim.ipv4s.Holds).seq (hlength.counted h6 lim.ipv6s.Holds)))
  exact hlength.counted hnif lim.interfaces.Holds

theorem IPv4Info.view_deserializeImpl :
    view (IPv4Info.deserializeImpl order lim) =
      Reader.map ((view (Deserializer.deserializeString order lim)).seq
        (view (Deserializer.deserializeString order lim))) fun p => ⟨p.1, p.2⟩ := by
  unfold IPv4Info.deserializeImpl
  rw [view_check, Reader.map_seq]
  congr 1
  funext addr
  rw [view_check]
  rfl

theorem IPv6Info.view_deserializeImpl :
    view (IPv6Info.deserializeImpl order lim) =
      Reader.map ((view (Deserializer.deserializeString order lim)).seq
        (view (Deserializer.deserializeTrivial order UInt8))) fun p => ⟨p.1, p.2⟩ := by
  unfold IPv6Info.deserializeImpl
  rw [view_check, Reader.map_seq]
  congr 1
  funext addr
  rw [view_check]
  rfl

theorem NetInterface.view_deserializeImpl :
    view (NetInterface.deserializeImpl order lim) =
      Reader.map ((view (Deserializer.deserializeString order lim)).seq
        ((view (Deserializer.deserializeString order lim)).seq
          ((view (Deserializer.deserializeVector order lim.ipv4s
            (IPv4Info.deserializeImpl order lim))).seq
          (view (Deserializer.deserializeVector order lim.ipv6s
            (IPv6Info.deserializeImpl order lim)))))) fun p =>
        ⟨p.1, p.2.1, p.2.2.1, p.2.2.2⟩ := by
  unfold NetInterface.deserializeImpl
  rw [view_check, Reader.map_seq]
  congr 1
  funext name
  rw [view_check, Reader.map_seq]
  congr 1
  funext mac
  rw [view_check, Reader.map_seq]
  congr 1
  funext ipv4s
  rw [view_check]
  rfl

theorem ipv4_reads :
    (view (IPv4Info.deserializeImpl order lim)).Reads bufferLimit (ipv4Format order lim) := by
  have hs := deserializeString_reads order lim
  rw [IPv4Info.view_deserializeImpl]
  refine (hs.seq hs).map (fun _ => rfl) (fun ip => ?_) (fun _ _ => Iff.rfl)
  refine ⟨fun h => ⟨(ip.address, ip.netmask), h, rfl⟩, fun h => ?_⟩
  obtain ⟨p, hp, rfl⟩ := h
  exact hp

theorem ipv6_reads :
    (view (IPv6Info.deserializeImpl order lim)).Reads bufferLimit (ipv6Format order lim) := by
  rw [IPv6Info.view_deserializeImpl]
  refine ((deserializeString_reads order lim).seq (deserializeTrivial_reads order UInt8)).map
    (fun _ => rfl) (fun ip => ?_) (fun _ _ => Iff.rfl)
  refine ⟨fun h => ⟨(ip.address, ip.prefixLength), ⟨h, trivial⟩, rfl⟩, fun h => ?_⟩
  obtain ⟨p, hp, rfl⟩ := h
  exact hp.1

/-- A vector that can be made has a length field that holds its length. -/
theorem vectorFormat_fits {T : Type} {room : Room} {F : Format UInt8 T} {vec : List T} :
    (vectorFormat order room F).fits vec ↔ room.Holds vec.length ∧ ∀ x ∈ vec, F.fits x := by
  simp only [vectorFormat, Format.counted, lengthFormat]
  refine ⟨fun h => h.2, fun h => ⟨?_, h⟩⟩
  have := h.1.lt
  omega

theorem netInterface_reads :
    (view (NetInterface.deserializeImpl order lim)).Reads bufferLimit
      (netInterfaceFormat order lim) := by
  have hs := deserializeString_reads order lim
  have h4 := deserializeVector_reads order (ipv4_reads order lim) lim.ipv4s
  have h6 := deserializeVector_reads order (ipv6_reads order lim) lim.ipv6s
  rw [NetInterface.view_deserializeImpl]
  refine (hs.seq (hs.seq (h4.seq h6))).map (fun _ => rfl) (fun nif => ?_) (fun _ _ => Iff.rfl)
  have h4fits : (vectorFormat order lim.ipv4s (ipv4Format order lim)).fits nif.ipv4s ↔ _ :=
    vectorFormat_fits order
  have h6fits : (vectorFormat order lim.ipv6s (ipv6Format order lim)).fits nif.ipv6s ↔ _ :=
    vectorFormat_fits order
  constructor
  · intro h
    exact ⟨(nif.name, nif.mac, nif.ipv4s, nif.ipv6s),
      ⟨h.name, h.mac, h4fits.mpr ⟨h.ipv4s, h.ipv4⟩, h6fits.mpr ⟨h.ipv6s, h.ipv6⟩⟩, rfl⟩
  · intro h
    obtain ⟨p, ⟨hname, hmac, hv4, hv6⟩, rfl⟩ := h
    have h4 := h4fits.mp hv4
    have h6 := h6fits.mp hv6
    exact ⟨hname, hmac, h4.1, h4.2, h6.1, h6.2⟩

theorem netInterfaces_reads :
    (view (deserializeNetInterfaces order lim)).Reads bufferLimit
      (netInterfacesFormat order lim) :=
  deserializeVector_reads order (netInterface_reads order lim) lim.interfaces

theorem netInterfacesFormat_fits {nifs : List NetInterface} :
    (netInterfacesFormat order lim).fits nifs ↔ Representable lim nifs :=
  vectorFormat_fits order

end Formats

/-! ## Failures -/

section Failures

variable (order : ByteOrder) (lim : Limits)

/-- What the check of a result keeps, and strings, bytes and vectors have, the decoder
of an interface has. -/
theorem NetInterface.decoder_has {Q : {T : Type} → (Bytes → Decode (FunctionReturn T)) → Prop}
    (hcheck : ∀ {T U : Type} {d : Bytes → Decode (FunctionReturn U)} {msg : Bytes}
      {k : U → Bytes → Decode (FunctionReturn T)}, Q d → (∀ x, Q (k x)) →
        Q (fun b => (do
          let r ← d b
          if !r.isOk then
            return .chain msg r
          let x ← value r.data
          k x b)))
    (hdone : ∀ {T : Type} (r : FunctionReturn T), r.isOk = true → Q fun _ => return r)
    (hstring : Q (Deserializer.deserializeString order lim))
    (hbyte : Q (Deserializer.deserializeTrivial order UInt8))
    (hvector : ∀ {T : Type} {d : Bytes → Decode (FunctionReturn T)} (room : Room), Q d →
      Q (Deserializer.deserializeVector order room d)) :
    Q (NetInterface.deserializeImpl order lim) := by
  have h4 : Q (IPv4Info.deserializeImpl order lim) :=
    hcheck hstring fun addr => hcheck hstring fun netmask =>
      hdone (.ofData (IPv4Info.mk addr netmask)) rfl
  have h6 : Q (IPv6Info.deserializeImpl order lim) :=
    hcheck hstring fun addr => hcheck hbyte fun prefixLength =>
      hdone (.ofData (IPv6Info.mk addr prefixLength)) rfl
  exact hcheck hstring fun name => hcheck hstring fun mac =>
    hcheck (hvector lim.ipv4s h4) fun ipv4s => hcheck (hvector lim.ipv6s h6) fun ipv6s =>
      hdone (.ofCodeData .Ok (NetInterface.mk name mac ipv4s ipv6s)) rfl

theorem NetInterface.failsWithCode : FailsWithCode (NetInterface.deserializeImpl order lim) := by
  refine NetInterface.decoder_has order lim failsWithCode_check (fun r hok b o r' o' h => ?_)
    (deserializeString_failsWithCode order lim) (deserializeTrivial_failsWithCode order UInt8)
    fun room hd => deserializeVector_failsWithCode order hd room
  cases h
  exact Or.inl hok

theorem NetInterface.faultsOfBuffer : FaultsOfBuffer (NetInterface.deserializeImpl order lim) := by
  refine NetInterface.decoder_has order lim faultsOfBuffer_check (fun r hok b o e h => ?_)
    (deserializeString_faultsOfBuffer order lim) (deserializeTrivial_faultsOfBuffer order UInt8)
    fun room hd => deserializeVector_faultsOfBuffer order hd room
  cases h

theorem netInterfaces_failsWithCode : FailsWithCode (deserializeNetInterfaces order lim) :=
  deserializeVector_failsWithCode order (NetInterface.failsWithCode order lim) lim.interfaces

theorem netInterfaces_failsWithMsg : FailsWithMsg (deserializeNetInterfaces order lim) :=
  deserializeVector_failsWithMsg order lim.interfaces _

theorem netInterfaces_faultsOfBuffer : FaultsOfBuffer (deserializeNetInterfaces order lim) :=
  deserializeVector_faultsOfBuffer order (NetInterface.faultsOfBuffer order lim) lim.interfaces

theorem netInterfaces_faultsOfInput : FaultsOfInput (deserializeNetInterfaces order lim) :=
  fun b o e h => (netInterfaces_faultsOfBuffer order lim b o e h).ofInput

end Failures

end NeighborDiscovery
