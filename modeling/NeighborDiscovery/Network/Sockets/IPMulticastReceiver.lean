/-
The multicast receiver of either address family.

`groups` are the memberships the kernel keeps for the socket.  Joining a group on
an interface fails where the membership exists and leaving it fails where it does
not; besides these the kernel may refuse a call for reasons of its own.  IPv4
joins and leaves with INADDR_ANY whatever the interface, so that all its calls
are about one membership.
-/
import Mathlib.Algebra.Group.Int.Defs
import Mathlib.Algebra.Group.Nat.Defs
import NeighborDiscovery.Network.Sockets.InetAddr

namespace NeighborDiscovery

/-- The membership of a group on an interface, 0 standing for INADDR_ANY. -/
structure Membership (T : Family) where
  group : InAddr T
  ifindex : UInt32
deriving DecidableEq

structure IPMulticastReceiver (T : Family) where
  port : UInt16
  sockFd : Nat
  groups : List (Membership T)
deriving DecidableEq

/-- A datagram waiting in a socket, with the text of its source address.  The
length field of UDP has 16 bits. -/
structure Incoming where
  data : Bytes
  sender : Bytes
  length_le : data.length ≤ 65535

/-- `ssize_t` to `int`. -/
def toInt (n : Int) : Int := n.bmod (2 ^ 32)

structure ReceiverCalls where
  socket : Option Nat
  setsockopt : Bool
  bind : Bool

namespace IPMulticastReceiver

variable {T : Family} (pton : InetPton)

def bindText : Family → String
  | .inet => "bind IPv4"
  | .inet6 => "bind IPv6"

def factory (T : Family) (port : UInt16) (calls : ReceiverCalls) :
    FunctionReturn (IPMulticastReceiver T) :=
  match calls.socket with
  | none =>
    .ofMsg .Error (text ("IPMulticastReceiver socket creation on port " ++ toString port ++
      " failed"))
  | some sockFd =>
    if calls.setsockopt = false then
      .ofMsg .Error (text ("setsockopt SO_REUSEADDR on IPMulticastReceiver socket on port " ++
        toString port ++ " failed"))
    else if calls.bind = false then
      .ofMsg .Error (text (bindText T ++ " on IPMulticastReceiver socket on port " ++
        toString port ++ " failed"))
    else .ofData ⟨port, sockFd, []⟩

def requested (T : Family) (ifindex : UInt32) : UInt32 :=
  match T with
  | .inet => 0
  | .inet6 => ifindex

def familyText : Family → String
  | .inet => "IPv4"
  | .inet6 => "IPv6"

def setsockoptFailed (T : Family) (sockFd : Nat) : Bytes :=
  match T with
  | .inet => text ("Failed setting IPPROTO_IP, IP_DROP_MEMBERSHIP on " ++ toString sockFd ++
      " socket")
  | .inet6 => text ("Failed setting IPPROTO_IPV5, IPV6_DROP_MEMBERSHIP on " ++ toString sockFd ++
      " socket")

/-- A membership call: `setsockopt` on the groups, failing where `fails` holds. -/
def changeGroups (r : IPMulticastReceiver T) (multicastIp : Bytes) (ifindex : UInt32)
    (fails : Membership T → Bool) (change : Membership T → List (Membership T)) :
    FunctionReturnVoid × IPMulticastReceiver T :=
  match (pton T (cStr multicastIp)).written with
  | none =>
    (.ofMsg (text ("Failed converting " ++ familyText T ++ " ") ++ multicastIp ++
      text " from text to binary"), r)
  | some group =>
    let mreq : Membership T := ⟨group, requested T ifindex⟩
    if fails mreq then (.ofMsg (setsockoptFailed T r.sockFd), r)
    else (.ok, { r with groups := change mreq })

def enableMulticastGroup (r : IPMulticastReceiver T) (refused : Bool) (multicastIp : Bytes)
    (ifindex : UInt32) : FunctionReturnVoid × IPMulticastReceiver T :=
  r.changeGroups pton multicastIp ifindex (fun mreq => refused || r.groups.contains mreq)
    fun mreq => r.groups ++ [mreq]

def disableMulticastGroup (r : IPMulticastReceiver T) (refused : Bool) (multicastIp : Bytes)
    (ifindex : UInt32) : FunctionReturnVoid × IPMulticastReceiver T :=
  r.changeGroups pton multicastIp ifindex (fun mreq => refused || !r.groups.contains mreq)
    fun mreq => r.groups.filter (· ≠ mreq)

/-- `receive` into a zero-filled buffer of `maxBufferSize` bytes: the buffer after
it and the number of bytes, -1 where no datagram waits. -/
def receive (maxBufferSize : UInt32) : Option Incoming → Bytes × Int
  | none => (List.replicate maxBufferSize.toNat 0, -1)
  | some incoming =>
    let kept := incoming.data.take maxBufferSize.toNat
    (kept ++ List.replicate (maxBufferSize.toNat - kept.length) 0, kept.length)

theorem changeGroups_explained (r : IPMulticastReceiver T) (multicastIp : Bytes)
    (ifindex : UInt32) (fails : Membership T → Bool)
    (change : Membership T → List (Membership T)) :
    (r.changeGroups pton multicastIp ifindex fails change).1.Explained := by
  unfold changeGroups
  cases (pton T (cStr multicastIp)).written with
  | none => exact FunctionReturnVoid.explained_ofMsg _
  | some group =>
    dsimp only
    by_cases hfails : fails ⟨group, requested T ifindex⟩ = true
    · rw [if_pos hfails]
      exact FunctionReturnVoid.explained_ofMsg _
    · rw [if_neg hfails]
      exact FunctionReturnVoid.explained_ok

theorem groups_enable (r : IPMulticastReceiver T) (multicastIp : Bytes) (ifindex : UInt32)
    {group : InAddr T} (h : (pton T (cStr multicastIp)).written = some group)
    (m : Membership T) :
    m ∈ (r.enableMulticastGroup pton false multicastIp ifindex).2.groups ↔
      m ∈ r.groups ∨ m = ⟨group, requested T ifindex⟩ := by
  unfold enableMulticastGroup changeGroups
  rw [h]
  simp only [Bool.false_or, List.contains_iff_mem]
  by_cases hmem : ⟨group, requested T ifindex⟩ ∈ r.groups
  · rw [if_pos hmem]
    refine ⟨fun hm => Or.inl hm, fun hm => ?_⟩
    rcases hm with hm | rfl
    · exact hm
    · exact hmem
  · rw [if_neg hmem, List.mem_append, List.mem_singleton]

theorem groups_disable (r : IPMulticastReceiver T) (multicastIp : Bytes) (ifindex : UInt32)
    {group : InAddr T} (h : (pton T (cStr multicastIp)).written = some group)
    (m : Membership T) :
    m ∈ (r.disableMulticastGroup pton false multicastIp ifindex).2.groups ↔
      m ∈ r.groups ∧ m ≠ ⟨group, requested T ifindex⟩ := by
  unfold disableMulticastGroup changeGroups
  rw [h]
  simp only [Bool.false_or, Bool.not_eq_true', List.contains_eq_mem, decide_eq_false_iff_not]
  by_cases hmem : ⟨group, requested T ifindex⟩ ∈ r.groups
  · rw [if_neg (not_not_intro hmem), List.mem_filter, decide_eq_true_iff]
  · rw [if_pos hmem]
    refine ⟨fun hm => ⟨hm, fun heq => ?_⟩, fun hm => hm.1⟩
    rw [heq] at hm
    exact hmem hm

end IPMulticastReceiver

end NeighborDiscovery
