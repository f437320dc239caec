/-
The multicast sender of either address family.

`targets` is the vector of the source.  `outgoing` is what the kernel keeps for
the socket: the interface multicast leaves through, none being the system's
default.  IPv4 sets it to INADDR_ANY, which is the default again.  A call of
`setsockopt` or `sendto` is answered by a record the environment supplies for
each target.
-/
import NeighborDiscovery.Network.Sockets.InetAddr

namespace NeighborDiscovery

/-- `sockaddr_in` and `sockaddr_in6`.  The family is the type's, and the port is
kept in host order. -/
structure SockAddr (T : Family) where
  port : UInt16
  addr : InAddr T
deriving DecidableEq

structure Target (T : Family) where
  addr : SockAddr T
  ifindex : UInt32
deriving DecidableEq

structure IPMulticastSender (T : Family) where
  sockFd : Nat
  targets : List (Target T)
  outgoing : Option UInt32
deriving DecidableEq

structure Sent (T : Family) where
  outgoing : Option UInt32
  addr : SockAddr T
  data : Bytes
deriving DecidableEq

structure SendCall where
  setsockopt : Bool
  sendto : Bool
deriving DecidableEq

namespace IPMulticastSender

variable {T : Family} (pton : InetPton)

/-- `IPMulticastSender<T>::factory`, given what `socket` returns. -/
def factory (T : Family) : Option Nat → FunctionReturn (IPMulticastSender T)
  | none => .ofMsg .Error (text "IPMulticastSender socket creation failed")
  | some sockFd => .ofData ⟨sockFd, [], none⟩

def addMulticastAddress (s : IPMulticastSender T) (multicastIp : Bytes) (port : UInt16)
    (ifindex : UInt32) : FunctionReturnVoid × IPMulticastSender T :=
  match (pton T (cStr multicastIp)).written with
  | none =>
    (.ofMsg (text "Failed converting IPv4 " ++ multicastIp ++ text " from text to binary"), s)
  | some addr => (.ok, { s with targets := s.targets ++ [⟨⟨port, addr⟩, ifindex⟩] })

def familyText : Family → String
  | .inet => "IPv4"
  | .inet6 => "IPv6"

def removeMulticastAddress (s : IPMulticastSender T) (multicastIp : Bytes) (port : UInt16)
    (ifindex : UInt32) : FunctionReturnVoid × IPMulticastSender T :=
  match (pton T (cStr multicastIp)).written with
  | none =>
    (.ofMsg (text ("Failed converting " ++ familyText T ++ " ") ++ multicastIp ++
      text " from text to binary"), s)
  | some addr =>
    let t : Target T := ⟨⟨port, addr⟩, ifindex⟩
    if s.targets.all (· ≠ t) then
      (.ofMsg (text ("Multicast " ++ familyText T ++ " address not found")), s)
    else (.ok, { s with targets := s.targets.filter (· ≠ t) })

def selected (T : Family) (ifindex : UInt32) : Option UInt32 :=
  match T with
  | .inet => none
  | .inet6 => some ifindex

def setsockoptFailed (T : Family) (sockFd : Nat) (ifindex : UInt32) : Bytes :=
  match T with
  | .inet => text ("Failed setting IPPROTO_IP, IP_MULTICAST_IF on " ++ toString sockFd ++
      " socket for " ++ toString ifindex ++ " interface")
  | .inet6 => text ("Failed setting IPPROTO_IPV6, IPV6_MULTICAST_IF on " ++ toString sockFd ++
      " socket for " ++ toString ifindex ++ " interface")

/-- The loop of `send` over the targets left, the first of them being number `i`. -/
def sendTargets (sockFd : Nat) (data : Bytes) (calls : Nat → SendCall) :
    List (Target T) → Nat → Option UInt32 → FunctionReturnVoid × Option UInt32 × List (Sent T)
  | [], _, outgoing => (.ok, outgoing, [])
  | target :: rest, i, outgoing =>
    if target.ifindex ≠ 0 ∧ (calls i).setsockopt = false then
      (.ofMsg (setsockoptFailed T sockFd target.ifindex), outgoing, [])
    else
      let outgoing := if target.ifindex ≠ 0 then selected T target.ifindex else outgoing
      if (calls i).sendto = false then
        (.ofMsg (text ("Failed sending data on " ++ toString sockFd ++ " socket for " ++
          toString target.ifindex ++ " interface")), outgoing, [])
      else
        let (ret, outgoing', sent) := sendTargets sockFd data calls rest (i + 1) outgoing
        (ret, outgoing', ⟨outgoing, target.addr, data⟩ :: sent)

/-- `send`: the return value, the sender after it, and the datagrams it has sent. -/
def send (s : IPMulticastSender T) (data : Bytes) (calls : Nat → SendCall) :
    FunctionReturnVoid × IPMulticastSender T × List (Sent T) :=
  let (ret, outgoing, sent) := sendTargets s.sockFd data calls s.targets 0 s.outgoing
  (ret, { s with outgoing := outgoing }, sent)

theorem addMulticastAddress_explained (s : IPMulticastSender T) (multicastIp : Bytes)
    (port : UInt16) (ifindex : UInt32) :
    (s.addMulticastAddress pton multicastIp port ifindex).1.Explained := by
  unfold addMulticastAddress
  cases (pton T (cStr multicastIp)).written with
  | none => exact FunctionReturnVoid.explained_ofMsg _
  | some addr => exact FunctionReturnVoid.explained_ok

theorem removeMulticastAddress_explained (s : IPMulticastSender T) (multicastIp : Bytes)
    (port : UInt16) (ifindex : UInt32) :
    (s.removeMulticastAddress pton multicastIp port ifindex).1.Explained := by
  unfold removeMulticastAddress
  cases (pton T (cStr multicastIp)).written with
  | none => exact FunctionReturnVoid.explained_ofMsg _
  | some addr =>
    dsimp only
    by_cases hnone : s.targets.all (· ≠ (⟨⟨port, addr⟩, ifindex⟩ : Target T)) = true
    · rw [if_pos hnone]
      exact FunctionReturnVoid.explained_ofMsg _
    · rw [if_neg hnone]
      exact FunctionReturnVoid.explained_ok

theorem targets_add (s : IPMulticastSender T) (multicastIp : Bytes) (port : UInt16)
    (ifindex : UInt32) {addr : InAddr T} (h : (pton T (cStr multicastIp)).written = some addr) :
    (s.addMulticastAddress pton multicastIp port ifindex).2.targets =
      s.targets ++ [⟨⟨port, addr⟩, ifindex⟩] := by
  unfold addMulticastAddress
  rw [h]

/-- The targets after a removal: a removal that finds nothing leaves a list that
holds nothing to remove. -/
theorem targets_remove (s : IPMulticastSender T) (multicastIp : Bytes) (port : UInt16)
    (ifindex : UInt32) {addr : InAddr T} (h : (pton T (cStr multicastIp)).written = some addr) :
    (s.removeMulticastAddress pton multicastIp port ifindex).2.targets =
      s.targets.filter (· ≠ ⟨⟨port, addr⟩, ifindex⟩) := by
  unfold removeMulticastAddress
  rw [h]
  dsimp only
  by_cases hnone : s.targets.all (· ≠ (⟨⟨port, addr⟩, ifindex⟩ : Target T)) = true
  · rw [if_pos hnone, List.filter_eq_self.mpr (List.all_eq_true.mp hnone)]
  · rw [if_neg hnone]

/-- Where no call fails, every target is sent the data. -/
theorem sendTargets_all (sockFd : Nat) (data : Bytes) {calls : Nat → SendCall}
    (hcalls : ∀ i, calls i = ⟨true, true⟩) (targets : List (Target T)) (i : Nat)
    (outgoing : Option UInt32) :
    (sendTargets sockFd data calls targets i outgoing).2.2.map (fun s => (s.addr, s.data)) =
      targets.map fun t => (t.addr, data) := by
  induction targets generalizing i outgoing with
  | nil => rfl
  | cons target rest ih =>
    have hset : ¬ (target.ifindex ≠ 0 ∧ (calls i).setsockopt = false) := by
      rw [hcalls i]
      exact fun h => Bool.noConfusion h.2
    have hsend : ¬ (calls i).sendto = false := by
      rw [hcalls i]
      exact fun h => Bool.noConfusion h
    unfold sendTargets
    rw [if_neg hset]
    dsimp only
    rw [if_neg hsend]
    show (target.addr, data) :: List.map _ _ = (target.addr, data) :: List.map _ rest
    rw [ih]

end IPMulticastSender

end NeighborDiscovery
