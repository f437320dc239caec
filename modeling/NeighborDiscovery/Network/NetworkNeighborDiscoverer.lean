/-
The daemon's state and `NetworkNeighborDiscoverer::runIteration`.

An iteration is a function of the state and of one record of its environment:
what the system calls it makes return, the clock readings, and the orders in
which the two unordered maps are traversed.  The iteration follows the source in
the order of its calls, in what it tests before it uses a pointer, and in what it
reads of a failed call.  Its result is the next state and what other parties see
of it: the datagrams sent, what each pass of the receive loop read and accepted,
and the reply to the command line program.
-/
import NeighborDiscovery.Containers.IndexedTimedSet
import NeighborDiscovery.Library.ListSync
import NeighborDiscovery.Logging.Logger
import NeighborDiscovery.Network.IPAddressManager
import NeighborDiscovery.Network.Sockets.IPMulticastReceiver
import NeighborDiscovery.Network.Sockets.IPMulticastSender
import NeighborDiscovery.Unix.UnixSocket

namespace NeighborDiscovery

open Fallible

/-! ## Settings and state -/

/-- `IPAddresses::IPv6CustomMulticast` and `IPAddresses::IPv4CustomMulticast`. -/
def customMulticast : Family → Bytes
  | .inet => text "239.1.1.1"
  | .inet6 => text "ff02::100"

structure DiscoverySettings where
  port : UInt16
  sendingPeriodS : UInt32
  neighborActivityPeriodS : UInt32
  maxBufferSize : UInt32

/-- `Unix::UnixDomainSettings`, its buffer size apart, which the daemon does not use. -/
structure UnixDomainSettings where
  requestString : Bytes
  socketPath : Bytes

/-- What is fixed for a host: its byte order, the limits of its library, and its
`inet_pton`. -/
structure Host where
  order : ByteOrder
  lim : Limits
  pton : InetPton

structure MulticastSockets where
  ipv6sender : Option (IPMulticastSender .inet6)
  ipv4sender : Option (IPMulticastSender .inet)
  ipv6receiver : Option (IPMulticastReceiver .inet6)
  ipv4receiver : Option (IPMulticastReceiver .inet)

/-- `Network::NetworkNeighborDiscoverer`, less a time point that nothing reads. -/
structure NetworkNeighborDiscoverer extends MulticastSockets where
  settings : DiscoverySettings
  localSettings : UnixDomainSettings
  logger : Logger
  neighbors : IndexedTimedSet Bytes NetInterface
  prevNifs : List NetInterface
  unixDomainServer : Option UnixSocket

/-! ## The environment of an iteration -/

structure Client where
  fd : Nat
  reads : List ReadResult

/-- What one pass of the receive loop finds: the datagram at the head of each
receiver, a client waiting for `accept`, and the clock at its end. -/
structure Pass where
  ipv6 : Option Incoming
  ipv4 : Option Incoming
  client : Option Client
  now : Int

inductive MembershipCall where
  | enable
  | disable
deriving DecidableEq

/-- The environment of one iteration.  The update clock is read at most once for
each MAC address, and the membership calls are made at most once for each name. -/
structure Env where
  interfaces : FunctionReturn (List NetInterface)
  ifNametoindex : Bytes → UInt32
  refused : Family → MembershipCall → Bytes → Bool
  sendCalls : Family → Nat → SendCall
  receiveStart : Int
  passes : List Pass
  receivedOrder : Traversal NetInterface
  updateNow : Bytes → Int
  removeNow : Int
  dataOrder : Traversal (NetInterface × Int)
  writes : List WriteResult

/-! ## What others see of an iteration -/

/-- What a pass of the receive loop read and accepted. -/
structure PassTrace where
  ipv6 : Option Bytes
  ipv4 : Option Bytes
  client : Option UnixSocket

def PassTrace.received (p : PassTrace) : List Bytes := p.ipv6.toList ++ p.ipv4.toList

structure Reply where
  client : UnixSocket
  clientSBuff : Bytes
  handed : Bytes

structure Output where
  sentIPv6 : List (Sent .inet6)
  sentIPv4 : List (Sent .inet)
  passes : List PassTrace
  reply : Option Reply

def Output.none : Output := ⟨[], [], [], Option.none⟩

/-! ## Multicast set-up -/

variable (host : Host)

/-- A call on a socket that may be null, its failure being logged. -/
def onSocket {S : Type} (socket : Option S) (call : S → FunctionReturnVoid × S)
    (failure : Bytes) : Logging (Option S) :=
  match socket with
  | none => pure none
  | some s =>
    if (call s).1.isOk then pure (some (call s).2)
    else do
      Logging.guarded do return .error (failure ++ text ": " ++ (← value (call s).1.msg))
      pure (some (call s).2)

/-- The body of the loop over `nifsToDisable`. -/
def disableNif (env : Env) (port : UInt16) (s : MulticastSockets) (nif : NetInterface) :
    Logging MulticastSockets := do
  let ifindex := env.ifNametoindex (cStr nif.name)
  let ipv6receiver ← onSocket s.ipv6receiver
    (·.disableMulticastGroup host.pton (env.refused .inet6 .disable nif.name)
      (customMulticast .inet6) ifindex)
    (text "Couldn't disable IPv6 multicast receival on " ++ nif.name)
  let ipv6sender ← onSocket s.ipv6sender
    (·.removeMulticastAddress host.pton (customMulticast .inet6) port ifindex)
    (text "Couldn't disable IPv6 multicast sending on " ++ nif.name)
  let ipv4receiver ← onSocket s.ipv4receiver
    (·.disableMulticastGroup host.pton (env.refused .inet .disable nif.name)
      (customMulticast .inet) ifindex)
    (text "Couldn't disable IPv4 multicast receival on " ++ nif.name)
  let ipv4sender ← onSocket s.ipv4sender
    (·.removeMulticastAddress host.pton (customMulticast .inet) port ifindex)
    (text "Couldn't disable IPv4 multicast sending on " ++ nif.name)
  return ⟨ipv6sender, ipv4sender, ipv6receiver, ipv4receiver⟩

/-- The body of the loop over `nifsToEnable`. -/
def enableNif (env : Env) (port : UInt16) (s : MulticastSockets) (nif : NetInterface) :
    Logging MulticastSockets := do
  let ifindex := env.ifNametoindex (cStr nif.name)
  let ipv6receiver ← onSocket s.ipv6receiver
    (·.enableMulticastGroup host.pton (env.refused .inet6 .enable nif.name)
      (customMulticast .inet6) ifindex)
    (text "Couldn't enable IPv6 multicast receival on " ++ nif.name)
  let ipv6sender ← onSocket s.ipv6sender
    (·.addMulticastAddress host.pton (customMulticast .inet6) port ifindex)
    (text "Couldn't enable IPv6 multicast sending on " ++ nif.name)
  let ipv4receiver ← onSocket s.ipv4receiver
    (·.enableMulticastGroup host.pton (env.refused .inet .enable nif.name)
      (customMulticast .inet) ifindex)
    (text "Couldn't enable IPv4 multicast receival on " ++ nif.name)
  let ipv4sender ← onSocket s.ipv4sender
    (·.addMulticastAddress host.pton (customMulticast .inet) port ifindex)
    (text "Couldn't enable IPv4 multicast sending on " ++ nif.name)
  return ⟨ipv6sender, ipv4sender, ipv6receiver, ipv4receiver⟩

def nifsToDisable (prevNifs nifs : List NetInterface) : List NetInterface :=
  ListSync.departed prevNifs nifs

def nifsToEnable (prevNifs nifs : List NetInterface) : List NetInterface :=
  ListSync.arrived prevNifs nifs

/-- The block under `prevNifs != nifs`. -/
def updateSockets (env : Env) (nnd : NetworkNeighborDiscoverer) (nifs : List NetInterface) :
    Logging MulticastSockets :=
  if nnd.prevNifs = nifs then pure nnd.toMulticastSockets
  else do
    Logging.guarded (.ok (.info (text "Found system's interfaces with MACs: " ++
      nifs.flatMap fun nif => nif.mac ++ text " ")))
    let s ← (nifsToDisable nnd.prevNifs nifs).foldlM (disableNif host env nnd.settings.port)
      nnd.toMulticastSockets
    (nifsToEnable nnd.prevNifs nifs).foldlM (enableNif host env nnd.settings.port) s

/-! ## Sending -/

def canUseIPv6 (nifs : List NetInterface) : Bool := nifs.any fun nif => nif.ipv6s.length > 0

/-- The source tests the IPv6 addresses here too. -/
def canUseIPv4 (nifs : List NetInterface) : Bool := nifs.any fun nif => nif.ipv6s.length > 0

def announcement (nifs : List NetInterface) : Bytes := serializeNetInterfaces host.order [] nifs

/-- `send` on a sender that may be null, behind the family's gate. -/
def sendOn {T : Family} (canUse : Bool) (sender : Option (IPMulticastSender T)) (sbuff : Bytes)
    (calls : Nat → SendCall) : Option (IPMulticastSender T) × List (Sent T) :=
  match sender with
  | none => (none, [])
  | some s =>
    if canUse then (some (s.send sbuff calls).2.1, (s.send sbuff calls).2.2) else (some s, [])

/-! ## Receiving -/

/-- The variables of the receive loop, and what its passes have read so far. -/
structure Reception where
  receivedNifs : KeyedMap.Map Bytes NetInterface
  receivedRequestFromCliClient : Bool
  clientSocket : Option UnixSocket
  receivedBytes : Int
  passes : List PassTrace

def Reception.start : Reception := ⟨∅, false, none, 0, []⟩

/-- `receivedBytes += n`, a sum of type `int`. -/
def addInt (a b : Int) : Except Fault Int :=
  if -2 ^ 31 ≤ a + b ∧ a + b < 2 ^ 31 then .ok (a + b) else .error .signedOverflow

/-- `Deserializer::deserialize<NetInterface>(rbuff)`. -/
def decode (rbuff : Bytes) : Except Fault (FunctionReturn (List NetInterface)) :=
  (deserializeNetInterfaces host.order host.lim rbuff).run' 0

/-- The decoded interfaces go into the map, each under its MAC address. -/
def storeNifs (receivedNifs : KeyedMap.Map Bytes NetInterface) (nifs : List NetInterface) :
    KeyedMap.Map Bytes NetInterface :=
  KeyedMap.putAll NetInterface.mac some nifs receivedNifs

/-- Decode a buffer and store what it holds. -/
def storeReceived (rbuff : Bytes) (receivedNifs : KeyedMap.Map Bytes NetInterface) :
    Logging (KeyedMap.Map Bytes NetInterface) := do
  let desReturn ← liftM (decode host rbuff)
  if desReturn.isOk then do
    let nifs ← liftM (value desReturn.data)
    pure (storeNifs receivedNifs nifs)
  else do
    Logging.guarded do
      return .error (text "Couldn't deserialize data: " ++ (← value desReturn.msg))
    pure receivedNifs

def receivedLine (n : Int) (incoming : Option Incoming) : LogLine :=
  .info (text ("Received " ++ toString n ++ "B from ") ++ (incoming.map (·.sender)).getD [])

/-- The IPv6 half of a pass.  It is gated by the sender and uses the receiver. -/
def receiveIPv6 (nnd : NetworkNeighborDiscoverer) (canUseIPv6 : Bool) (pass : Pass)
    (r : Reception) : Logging (Reception × Option Bytes) :=
  if canUseIPv6 && nnd.ipv6sender.isSome then do
    let _ ← liftM (deref .ipv6receiver nnd.ipv6receiver)
    let (rbuff, size) := IPMulticastReceiver.receive nnd.settings.maxBufferSize pass.ipv6
    let n := toInt size
    if n > 0 then do
      Logging.guarded (.ok (receivedLine n pass.ipv6))
      let receivedNifs ← storeReceived host rbuff r.receivedNifs
      let receivedBytes ← liftM (addInt r.receivedBytes n)
      pure ({ r with receivedNifs := receivedNifs, receivedBytes := receivedBytes }, some rbuff)
    else pure (r, none)
  else pure (r, none)

/-- The IPv4 half of a pass.  It adds the size before it decodes. -/
def receiveIPv4 (nnd : NetworkNeighborDiscoverer) (canUseIPv4 : Bool) (pass : Pass)
    (r : Reception) : Logging (Reception × Option Bytes) :=
  if canUseIPv4 && nnd.ipv4sender.isSome then do
    let _ ← liftM (deref .ipv4receiver nnd.ipv4receiver)
    let (rbuff, size) := IPMulticastReceiver.receive nnd.settings.maxBufferSize pass.ipv4
    let n := toInt size
    if n > 0 then do
      Logging.guarded (.ok (receivedLine n pass.ipv4))
      let receivedBytes ← liftM (addInt r.receivedBytes n)
      let receivedNifs ← storeReceived host rbuff r.receivedNifs
      pure ({ r with receivedNifs := receivedNifs, receivedBytes := receivedBytes }, some rbuff)
    else pure (r, none)
  else pure (r, none)

/-- `sizeof(this->localSettings.requestString)`, the size of the string object. -/
def requestSize : Nat := 32

/-- Whether what a client sent is the request. -/
def readRequest (nnd : NetworkNeighborDiscoverer) (recReturn : FunctionReturn Bytes) :
    Logging Bool :=
  if recReturn.isOk then do
    let request ← liftM (value recReturn.data)
    if request = nnd.localSettings.requestString then do
      Logging.guarded (.ok (.info (text "Received neigbhor list request from CLI program")))
      pure true
    else pure false
  else do
    Logging.guarded do
      return .error (text "Couldn't receive from client over UNIX domain: " ++
        (← value recReturn.msg))
    pure false

/-- The part of a pass that looks for a client. -/
def acceptRequest (nnd : NetworkNeighborDiscoverer) (pass : Pass) (r : Reception) :
    Logging (Reception × Option UnixSocket) :=
  match nnd.unixDomainServer with
  | none => pure (r, none)
  | some unixDomainServer =>
    let clientSocketReturn := unixDomainServer.acceptClient (pass.client.map (·.fd))
    if clientSocketReturn.isOk then do
      Logging.guarded (.ok (.info (text "Established client connection on UNIX domain socket")))
      let clientSocket ← liftM (value clientSocketReturn.data)
      let recReturn ← liftM (clientSocket.receiveString requestSize
        ((pass.client.map (·.reads)).getD []))
      let requested ← readRequest nnd recReturn
      pure ({ r with
        clientSocket := some clientSocket
        receivedRequestFromCliClient := r.receivedRequestFromCliClient || requested },
        some clientSocket)
    else pure (r, none)

def receivePass (nnd : NetworkNeighborDiscoverer) (nifs : List NetInterface) (pass : Pass)
    (r : Reception) : Logging Reception := do
  let (r, ipv6) ← receiveIPv6 host nnd (canUseIPv6 nifs) pass r
  let (r, ipv4) ← receiveIPv4 host nnd (canUseIPv4 nifs) pass r
  let (r, client) ← acceptRequest nnd pass r
  pure { r with passes := r.passes ++ [⟨ipv6, ipv4, client⟩] }

/-- The seconds since `receiveStart`, as an `unsigned int`. -/
def receiveTimePassedS (env : Env) (pass : Pass) : UInt32 :=
  UInt32.ofInt (Int.tdiv (pass.now - env.receiveStart) 1000000000)

/-- The receive loop, over the passes the environment has left. -/
def receiveLoop (env : Env) (nnd : NetworkNeighborDiscoverer) (nifs : List NetInterface) :
    List Pass → Reception → Logging Reception
  | [], _ => liftM (Except.error Fault.waiting : Except Fault Reception)
  | pass :: passes, r => do
    let r ← receivePass host nnd nifs pass r
    if r.receivedBytes > 0 ∧ receiveTimePassedS env pass < nnd.settings.sendingPeriodS ∧
        r.receivedRequestFromCliClient = false then
      receiveLoop env nnd nifs passes r
    else pure r

/-! ## The neighbour table -/

/-- The received addresses that match an address of some local interface. -/
def matchedIPv4 (nifs : List NetInterface) (received : NetInterface) : List IPv4Info :=
  received.ipv4s.filter fun rIPv4 => nifs.any fun loc => loc.ipv4s.any fun lIPv4 =>
    IPAddressManager.isSameSubnetIPv4 host.pton lIPv4 rIPv4

def matchedIPv6 (nifs : List NetInterface) (received : NetInterface) :
    Except Fault (List IPv6Info) :=
  Fallible.filter (fun rIPv6 => Fallible.any (fun loc => Fallible.any (fun lIPv6 =>
    IPAddressManager.isSameSubnetIPv6 host.pton lIPv6 rIPv6) loc.ipv6s) nifs) received.ipv6s

/-- The body of the loop over the received interfaces. -/
def handleReceived (env : Env) (nifs : List NetInterface)
    (neighbors : IndexedTimedSet Bytes NetInterface) (received : NetInterface) :
    Except Fault (IndexedTimedSet Bytes NetInterface) := do
  let matchedIPv4 := matchedIPv4 host nifs received
  let matchedIPv6 ← matchedIPv6 host nifs received
  if !matchedIPv4.isEmpty || !matchedIPv6.isEmpty then
    let filteredNif := { received with ipv4s := matchedIPv4, ipv6s := matchedIPv6 }
    return neighbors.update filteredNif.mac filteredNif (env.updateNow filteredNif.mac)
  else return neighbors

/-- The block that handles the received interfaces. -/
def updateNeighbors (env : Env) (nnd : NetworkNeighborDiscoverer) (nifs : List NetInterface)
    (receivedNifs : KeyedMap.Map Bytes NetInterface) :
    Except Fault (IndexedTimedSet Bytes NetInterface) := do
  let neighbors ← (env.receivedOrder.visit (KeyedMap.values receivedNifs)).foldlM
    (handleReceived host env nifs) nnd.neighbors
  return neighbors.removeOlder (seconds nnd.settings.neighborActivityPeriodS.toNat) env.removeNow

/-! ## The reply -/

/-- The lines after `send` on the client.  The second is not guarded. -/
def logReply (sendReturn : FunctionReturnVoid) : Logging Unit :=
  if sendReturn.isOk then
    Logging.unguarded (.info (text "Sent neighbor list to CLI client"))
  else
    Logging.guarded do
      return .error (text "Failed to send neighbor list to client: " ++ (← value sendReturn.msg))

/-- The block that answers the command line program. -/
def reply (env : Env) (nnd : NetworkNeighborDiscoverer) (r : Reception) :
    Logging (Option Reply) :=
  match r.clientSocket with
  | none => pure none
  | some clientSocket =>
    if r.receivedRequestFromCliClient && nnd.unixDomainServer.isSome then do
      let clientSBuff := serializeNetInterfaces host.order [] (nnd.neighbors.data env.dataOrder)
      let (sendReturn, handed) ← liftM (clientSocket.send clientSBuff env.writes)
      logReply sendReturn
      pure (some ⟨clientSocket, clientSBuff, handed⟩)
    else pure none

/-! ## The iteration -/

def readInterfaces (env : Env) : Logging (List NetInterface) :=
  if env.interfaces.isOk then liftM (value env.interfaces.data)
  else do
    Logging.guarded do
      return .error (text "Couldn't retrieve system's network interfaces :" ++
        (← value env.interfaces.msg))
    pure []

/-- The block under `nifs.size() > 0`. -/
def discover (env : Env) (nnd : NetworkNeighborDiscoverer) (nifs : List NetInterface) :
    Logging (NetworkNeighborDiscoverer × Output) := do
  let s ← updateSockets host env nnd nifs
  let sbuff := announcement host nifs
  let (ipv6sender, sentIPv6) :=
    sendOn (canUseIPv6 nifs) s.ipv6sender sbuff (env.sendCalls .inet6)
  let (ipv4sender, sentIPv4) :=
    sendOn (canUseIPv4 nifs) s.ipv4sender sbuff (env.sendCalls .inet)
  let nnd := { nnd with
    toMulticastSockets := { s with ipv6sender := ipv6sender, ipv4sender := ipv4sender } }
  let r ← receiveLoop host env nnd nifs env.passes .start
  let neighbors ← liftM (updateNeighbors host env nnd nifs r.receivedNifs)
  let nnd := { nnd with neighbors := neighbors }
  let answer ← reply host env nnd r
  pure (nnd, ⟨sentIPv6, sentIPv4, r.passes, answer⟩)

/-- `runIteration` but for the state of the logger. -/
def iterate (env : Env) (nnd : NetworkNeighborDiscoverer) :
    Logging (NetworkNeighborDiscoverer × Output) := do
  let nifs ← readInterfaces env
  let (nnd, out) ← if nifs.length > 0 then discover host env nnd nifs else pure (nnd, .none)
  pure ({ nnd with prevNifs := nifs }, out)

/-- `NetworkNeighborDiscoverer::runIteration`. -/
def runIteration (env : Env) (nnd : NetworkNeighborDiscoverer) :
    Except Fault (NetworkNeighborDiscoverer × Output) := do
  let ((nnd', out), logger) ← iterate host env nnd nnd.logger
  return ({ nnd' with logger := logger }, out)

/-! ## The constructor -/

structure SetupCalls where
  senderSocket : Family → Option Nat
  receiver : Family → ReceiverCalls
  unixDomain : ServerCalls

/-- The object a factory made, or null with the failure logged. -/
def setupSocket {S : Type} (funcReturn : FunctionReturn S) (failure : Bytes) :
    Logging (Option S) :=
  if funcReturn.isOk then do
    let socket ← liftM (value funcReturn.data)
    pure (some socket)
  else do
    Logging.guarded do return .error (failure ++ (← value funcReturn.msg))
    pure none

def setupIPv6Sockets (settings : DiscoverySettings) (calls : SetupCalls) :
    Logging (Option (IPMulticastSender .inet6) × Option (IPMulticastReceiver .inet6)) := do
  let ipv6sender ← setupSocket (IPMulticastSender.factory .inet6 (calls.senderSocket .inet6))
    (text "Failed creating IPv6 sender socket: ")
  let ipv6receiver ← setupSocket
    (IPMulticastReceiver.factory .inet6 settings.port (calls.receiver .inet6))
    (text "Failed creating IPv6 receiver socket: ")
  return (ipv6sender, ipv6receiver)

def setupIPv4Sockets (settings : DiscoverySettings) (calls : SetupCalls) :
    Logging (Option (IPMulticastSender .inet) × Option (IPMulticastReceiver .inet)) := do
  let ipv4sender ← setupSocket (IPMulticastSender.factory .inet (calls.senderSocket .inet))
    (text "Failed creating IPv4 sender socket: ")
  let ipv4receiver ← setupSocket
    (IPMulticastReceiver.factory .inet settings.port (calls.receiver .inet))
    (text "Failed creating IPv4 receiver socket: ")
  return (ipv4sender, ipv4receiver)

def setupUnixDomainSockets (localSettings : UnixDomainSettings) (calls : SetupCalls) :
    Logging (Option UnixSocket) :=
  setupSocket (UnixSocket.serverFactory localSettings.socketPath calls.unixDomain)
    (text "Couldn't open Unix domain socket: ")

def construct (logger : Logger) (settings : DiscoverySettings)
    (localSettings : UnixDomainSettings) (calls : SetupCalls) :
    Except Fault NetworkNeighborDiscoverer := do
  let ((ipv4sender, ipv4receiver), logger) ← setupIPv4Sockets settings calls logger
  let ((ipv6sender, ipv6receiver), logger) ← setupIPv6Sockets settings calls logger
  let (unixDomainServer, logger) ← setupUnixDomainSockets localSettings calls logger
  return { ipv6sender, ipv4sender, ipv6receiver, ipv4receiver, settings, localSettings, logger,
           neighbors := .empty, prevNifs := [], unixDomainServer }

end NeighborDiscovery
