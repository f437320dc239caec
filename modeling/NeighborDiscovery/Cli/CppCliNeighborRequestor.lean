/-
The command line program.

`main` asks the daemon for its neighbours, decodes the bytes of the first read that
brings any, and prints the list.  Each of its early exits prints one line and
returns -1.  The loop runs over the rounds the environment offers; where it offers
none, the program is still waiting.
-/
import NeighborDiscovery.Network.NetInterfaceManager
import NeighborDiscovery.Network.NetworkNeighborDiscoverer

namespace NeighborDiscovery

/-! ## Constants of `Config` -/

def UNIX_DOMAIN_SOCKET_PATH : Bytes := text "/tmp/cppneigbhordiscovery.sock"

def UNIX_DOMAIN_REQUEST_COMMAND : Bytes := text "request"

def SINGLE_MESSAGE_MAX_SIZE_BYTES : Nat := 12800

def CLI_REQUEST_WAIT_TIME_SECONDS : Nat := 10

/-! ## The environment of a run -/

/-- One round of the receive loop: what `read` returns, and the clock at its end. -/
structure Round where
  reads : List ReceiveResult
  now : Int

structure CliCalls where
  client : ClientCalls
  writes : List WriteResult
  start : Int
  rounds : List Round
  interfaces : Except Fault (FunctionReturn (List NetInterface))

/-- The exit code of `main`, and what it printed. -/
structure CliExit where
  code : Int
  out : Bytes
deriving DecidableEq

/-- A part of `main`: it may fault, or print a line and return -1. -/
abbrev Cli := ExceptT Bytes (Except Fault)

/-- Print what is said before the message of a failed call, and the message. -/
def Cli.quit {α : Type} (before : Bytes) (msg : Option Bytes) : Cli α := do
  throw (before ++ (← liftM (value msg)))

/-! ## The parts of `main` -/

variable (host : Host)

def openClient (calls : CliCalls) : Cli UnixSocket := do
  let clientReturn := UnixSocket.clientFactory calls.client
  if !clientReturn.isOk then
    Cli.quit (text "Failed opening UNIX domain socket on " ++ UNIX_DOMAIN_SOCKET_PATH ++
      text ": ") clientReturn.msg
  else liftM (value clientReturn.data)

def sendRequest (calls : CliCalls) (client : UnixSocket) : Cli Unit := do
  let (sendReturn, _) ← liftM (client.send UNIX_DOMAIN_REQUEST_COMMAND calls.writes)
  if !sendReturn.isOk then
    Cli.quit (text "Failed sending on UNIX domain socket on " ++ UNIX_DOMAIN_SOCKET_PATH ++
      text ": ") sendReturn.msg
  else pure ()

/-- Whether the loop goes on after a round that brought nothing. -/
def withinWaitTime (start now : Int) : Bool :=
  Int.tdiv (now - start) 1000000000 < CLI_REQUEST_WAIT_TIME_SECONDS

/-- The receive loop: the buffer of its first read that is not empty. -/
def receiveReply (client : UnixSocket) (start : Int) : List Round → Cli Bytes
  | [] => liftM (Except.error Fault.waiting : Except Fault Bytes)
  | round :: rounds => do
    let (receiveReturn, rbuff) ← liftM (client.receive SINGLE_MESSAGE_MAX_SIZE_BYTES round.reads)
    if !receiveReturn.isOk then
      Cli.quit (text "Failed receiving on UNIX domain socket on " ++ UNIX_DOMAIN_SOCKET_PATH ++
        text ": ") receiveReturn.msg
    else if rbuff.length > 0 then pure rbuff
    else if withinWaitTime start round.now then receiveReply client start rounds
    else throw (text "Couldn't receive data from daemon")

def decodeReply (buff : Bytes) : Cli (List NetInterface) := do
  let desReturn ← liftM (decode host buff)
  if !desReturn.isOk then
    Cli.quit (text "Failed deserializing: ") desReturn.msg
  else liftM (value desReturn.data)

/-- The part of `main` that ends with the neighbours of the daemon. -/
def requestNeighbors (calls : CliCalls) : Cli (List NetInterface) := do
  let client ← openClient calls
  sendRequest calls client
  let buff ← receiveReply client calls.start calls.rounds
  decodeReply host buff

/-! ## The printed list -/

def ipv4Line (ipv4 : IPv4Info) : Bytes :=
  text "\t - " ++ ipv4.address ++ text " (" ++ ipv4.netmask ++ text " netmask)" ++ text "\n"

def ipv6Line (ipv6 : IPv6Info) : Bytes :=
  text "\t - " ++ ipv6.address ++ text " (" ++ text (toString ipv6.prefixLength.toNat) ++
    text " prefix length)" ++ text "\n"

def neighborLines (localMacs : List Bytes) (i : Nat) (nif : NetInterface) : Bytes :=
  let loc := if nif.mac ∈ localMacs then text "LOCAL " else text ""
  text (toString (i + 1)) ++ text ") " ++ loc ++ nif.mac ++ text "\n" ++
    text "\tSame subnet IPv4s: \n" ++ nif.ipv4s.flatMap ipv4Line ++
    text "\tSame subnet IPv6s: \n" ++ nif.ipv6s.flatMap ipv6Line

def listing (localMacs : List Bytes) (neighbors : List NetInterface) : Bytes :=
  text "Current neighbors: \n" ++
    (neighbors.mapIdx (neighborLines localMacs)).flatten ++ text "\n"

/-- The part of `main` that looks the local interfaces up and prints the list.  It
goes on where they could not be found. -/
def printNeighbors (calls : CliCalls) (neighbors : List NetInterface) : Except Fault Bytes := do
  let nifsReturn ← calls.interfaces
  let warning ←
    if !nifsReturn.isOk then do
      return text "Couldn't check local network interfaces:" ++ (← value nifsReturn.msg)
    else pure []
  let nifs ← value nifsReturn.data
  return warning ++ listing (nifs.map NetInterface.mac) neighbors

def main (calls : CliCalls) : Except Fault CliExit := do
  match ← (requestNeighbors host calls).run with
  | .error line => return ⟨-1, line ++ text "\n"⟩
  | .ok neighbors => return ⟨0, ← printNeighbors calls neighbors⟩

end NeighborDiscovery
