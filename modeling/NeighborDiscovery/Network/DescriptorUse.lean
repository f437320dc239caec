/-
The descriptors of the daemon.

The constructor opens five sockets at most.  An iteration accepts clients into
`clientSocket`, reads from each and may write to the last; nothing else in it gives
or takes a descriptor.  Listed are these calls and those that use the server or a client,
in the order the source makes them, with those of the move members and of the destructors;
`setsockopt`, `sendto` and `recvfrom` on the multicast sockets are not.  What `std::string` leaves in
a string that is moved from is any function `leftover` of its text.

The kernel hands out a descriptor that is not open, and closing one that is not open
changes nothing.
-/
import NeighborDiscovery.Library.Leases
import NeighborDiscovery.Network.ClientReplies
import NeighborDiscovery.Network.DaemonRun
import NeighborDiscovery.Network.Discovery
import NeighborDiscovery.Network.NeighborHistory
import NeighborDiscovery.Network.Sockets.ReceiverOwnership
import NeighborDiscovery.Unix.SocketOwnership

namespace NeighborDiscovery

open Ownership Leases

/-! ## The calls of an iteration -/

/-- A system call that gives or takes a descriptor, or one that uses it. -/
inductive FdCall where
  | sys (call : SysCall)
  | use (fd : Int)
deriving DecidableEq

def FdCall.access : FdCall → Option (Access Int)
  | .sys call => call.onDescriptor.map .event
  | .use fd => some (.used fd)

def accesses (calls : List FdCall) : List (Access Int) := calls.filterMap FdCall.access

namespace UnixSocket

/-- The call of `accept` in `acceptClient`. -/
def acceptUse (s : UnixSocket) : List FdCall :=
  if !s.isServer || s.sockFd < 0 then [] else [.use s.sockFd]

/-- The calls of `read` in `receiveString`. -/
def receiveStringCalls (s : UnixSocket) (results : List ReadResult) : List FdCall :=
  if s.sockFd < 0 then [] else calls results
where
  calls : List ReadResult → List FdCall
    | [] => []
    | .interrupted :: results => .use s.sockFd :: calls results
    | _ :: _ => [.use s.sockFd]

/-- The calls of `write` in `send`. -/
def sendCalls (s : UnixSocket) (buff : Bytes) (results : List WriteResult) : List FdCall :=
  if s.sockFd < 0 then [] else calls results buff
where
  calls : List WriteResult → Bytes → List FdCall
    | [], _ => []
    | result :: results, left =>
      if left = [] then []
      else .use s.sockFd ::
        match result with
        | .interrupted => calls results left
        | .wrote (n + 1) => calls results (left.drop (n + 1))
        | _ => []

end UnixSocket

variable (leftover : Bytes → Bytes)

/-- What `clientSocket` does to the socket it owns when it is given another one, or
destroyed. -/
def resetClient (clientSocket : Option UnixSocket) : List FdCall :=
  (clientSocket.elim [] UnixSocket.release).map .sys

/-- The part of a pass that looks for a client.  The new socket is moved into
`clientSocket` before the one of an earlier client is destroyed. -/
def takeClient (server : Option UnixSocket) (pass : Pass) (clientSocket : Option UnixSocket) :
    List FdCall × Option UnixSocket :=
  match server with
  | none => ([], clientSocket)
  | some unixDomainServer =>
    let accept := pass.client.map (·.fd)
    let clientSocketReturn := Process.returnedData (UnixSocket.members leftover)
      (unixDomainServer.acceptClient accept)
    let accepts := unixDomainServer.acceptUse ++
      (unixDomainServer.acceptCalls accept ++ clientSocketReturn.2).map .sys
    match clientSocketReturn.1 with
    | none => (accepts, clientSocket)
    | some data =>
      let (moved, left) := UnixSocket.moveConstruct leftover data
      (accepts ++ resetClient clientSocket ++
        moved.receiveStringCalls ((pass.client.map (·.reads)).getD []) ++ left.release.map .sys,
        some moved)

/-- The passes of the receive loop. -/
def loopCalls (server : Option UnixSocket) :
    List Pass → Option UnixSocket → List FdCall × Option UnixSocket
  | [], clientSocket => ([], clientSocket)
  | pass :: passes, clientSocket =>
    let (calls, clientSocket) := takeClient leftover server pass clientSocket
    let (rest, clientSocket) := loopCalls server passes clientSocket
    (calls ++ rest, clientSocket)

/-- The calls of `runIteration` that give or take a descriptor, and those on the server and
on clients. -/
def iterationCalls (e : Iteration) : List FdCall :=
  let (calls, clientSocket) := loopCalls leftover e.before.unixDomainServer (passesMade e) none
  calls ++ (match e.output.reply with
    | none => []
    | some answer => answer.client.sendCalls answer.clientSBuff e.input.writes) ++
    resetClient clientSocket

/-! ## The calls of the constructor -/

/-- The calls of `IPMulticastSender<T>::factory`.  A sender that is moved from has no
descriptor left to close. -/
def senderCalls (socket : Option Nat) : List SysCall := socket.toList.map fun fd => .opened fd

def socketPairCalls (T : Family) (settings : DiscoverySettings) (calls : SetupCalls) :
    List SysCall :=
  senderCalls (calls.senderSocket T) ++
    (ReceiverObject.factory T settings.port (calls.receiver T)).2

/-- The calls of the constructor. -/
def constructCalls (settings : DiscoverySettings) (localSettings : UnixDomainSettings)
    (calls : SetupCalls) : List SysCall :=
  socketPairCalls .inet settings calls ++ socketPairCalls .inet6 settings calls ++
    (UnixSocket.serverCalls localSettings.socketPath calls.unixDomain ++
      (Process.returnedData (UnixSocket.members leftover)
        (UnixSocket.serverFactory localSettings.socketPath calls.unixDomain)).2)

/-- The descriptors of the members. -/
def NetworkNeighborDiscoverer.descriptors (nnd : NetworkNeighborDiscoverer) : List Int :=
  (nnd.unixDomainServer.bind UnixSocket.descriptor).toList ++
    (((nnd.ipv6receiver.map fun r => (r.sockFd : Int)).toList ++
      (nnd.ipv6sender.map fun s => (s.sockFd : Int)).toList) ++
    ((nnd.ipv4receiver.map fun r => (r.sockFd : Int)).toList ++
      (nnd.ipv4sender.map fun s => (s.sockFd : Int)).toList))

/-! ## Accesses -/

section Accesses

variable {leftover : Bytes → Bytes} {base : List Int} {slot : Option Int}

theorem accesses_append (calls₁ calls₂ : List FdCall) :
    accesses (calls₁ ++ calls₂) = accesses calls₁ ++ accesses calls₂ := List.filterMap_append

theorem accesses_sys (calls : List SysCall) :
    accesses (calls.map .sys) = (descriptorEvents calls).map .event := by
  unfold accesses descriptorEvents
  rw [List.filterMap_map, List.map_filterMap]
  rfl

theorem accesses_reset (clientSocket : Option UnixSocket) :
    accesses (resetClient clientSocket) = gives (clientSocket.bind UnixSocket.descriptor) := by
  unfold resetClient
  rw [accesses_sys]
  cases clientSocket with
  | none => rfl
  | some s => exact congrArg (List.map Access.event) s.release_descriptor

/-- The calls use the descriptor of a socket and do nothing else. -/
def UsesOnly (s : UnixSocket) (calls : List FdCall) : Prop :=
  ∀ call ∈ calls, ∃ fd, s.descriptor = some fd ∧ call = .use fd

theorem UsesOnly.keeps {s : UnixSocket} {calls : List FdCall} (h : UsesOnly s calls)
    (hs : ∀ fd, s.descriptor = some fd → slot = some fd ∨ fd ∈ base) :
    Keeps base slot (accesses calls) slot := by
  refine keeps_used fun a ha => ?_
  obtain ⟨call, hcall, haccess⟩ := List.mem_filterMap.mp ha
  obtain ⟨fd, hfd, rfl⟩ := h call hcall
  cases haccess
  exact ⟨fd, rfl, hs fd hfd⟩

theorem descriptor_of_nonneg {s : UnixSocket} (h : ¬ s.sockFd < 0) :
    s.descriptor = some s.sockFd := if_pos (not_lt.mp h)

theorem usesOnly_accept (s : UnixSocket) : UsesOnly s s.acceptUse := by
  intro call hcall
  unfold UnixSocket.acceptUse at hcall
  split at hcall
  · exact absurd hcall List.not_mem_nil
  · rename_i hserver
    rw [List.mem_singleton.mp hcall]
    exact ⟨s.sockFd, descriptor_of_nonneg (by simp_all), rfl⟩

theorem usesOnly_receiveString (s : UnixSocket) (results : List ReadResult) :
    UsesOnly s (s.receiveStringCalls results) := by
  intro call hcall
  unfold UnixSocket.receiveStringCalls at hcall
  split at hcall
  · exact absurd hcall List.not_mem_nil
  · rename_i hfd
    refine ⟨s.sockFd, descriptor_of_nonneg hfd, ?_⟩
    induction results with
    | nil => exact absurd hcall List.not_mem_nil
    | cons result results ih =>
      cases result with
      | interrupted =>
        rcases List.mem_cons.mp hcall with rfl | hrest
        · rfl
        · exact ih hrest
      | failed => exact List.mem_singleton.mp hcall
      | read pending => exact List.mem_singleton.mp hcall

theorem usesOnly_send (s : UnixSocket) (buff : Bytes) (results : List WriteResult) :
    UsesOnly s (s.sendCalls buff results) := by
  intro call hcall
  unfold UnixSocket.sendCalls at hcall
  split at hcall
  · exact absurd hcall List.not_mem_nil
  · rename_i hfd
    refine ⟨s.sockFd, descriptor_of_nonneg hfd, ?_⟩
    induction results generalizing buff with
    | nil => exact absurd hcall List.not_mem_nil
    | cons result results ih =>
      unfold UnixSocket.sendCalls.calls at hcall
      split at hcall
      · exact absurd hcall List.not_mem_nil
      · rcases List.mem_cons.mp hcall with rfl | hrest
        · rfl
        · split at hrest
          · exact ih _ hrest
          · exact ih _ hrest
          · exact absurd hrest List.not_mem_nil

end Accesses

/-! ## The clients of an iteration -/

section Clients

variable {leftover : Bytes → Bytes} {base : List Int}

theorem acceptCalls_eq (s : UnixSocket) (accept : Option Nat) :
    s.acceptCalls accept = ((s.acceptClient accept).data.map fun c => .opened c.sockFd).toList := by
  unfold UnixSocket.acceptCalls UnixSocket.acceptClient
  split
  · rfl
  · cases accept <;> rfl

/-- What a pass does with the client it accepts, if any. -/
theorem takeClient_eq (s : UnixSocket) (pass : Pass) (clientSocket : Option UnixSocket) :
    takeClient leftover (some s) pass clientSocket =
      match (s.acceptClient (pass.client.map (·.fd))).data with
      | none => (s.acceptUse, clientSocket)
      | some c => (s.acceptUse ++ ([.sys (.opened c.sockFd)] ++ resetClient clientSocket) ++
          c.receiveStringCalls ((pass.client.map (·.reads)).getD []), some c) := by
  unfold takeClient
  dsimp only
  rw [acceptCalls_eq]
  cases hdata : (s.acceptClient (pass.client.map (·.fd))).data with
  | none =>
    rw [Process.returnedData_none hdata]
    simp
  | some c =>
    obtain ⟨cfd, -, rfl⟩ := UnixSocket.acceptClient_data hdata
    have hreturned : Process.returnedData (UnixSocket.members leftover)
        (s.acceptClient (pass.client.map (·.fd))) = (some ⟨cfd, [], false⟩, []) := by
      unfold Process.returnedData
      rw [hdata]
      rfl
    rw [hreturned]
    simp [UnixSocket.moveConstruct, UnixSocket.release]

theorem takeClient_keeps {server : Option UnixSocket}
    (hserver : ∀ fd, server.bind UnixSocket.descriptor = some fd → fd ∈ base) (pass : Pass)
    (clientSocket : Option UnixSocket) :
    Keeps base (clientSocket.bind UnixSocket.descriptor)
      (accesses (takeClient leftover server pass clientSocket).1)
      ((takeClient leftover server pass clientSocket).2.bind UnixSocket.descriptor) := by
  cases server with
  | none => exact keeps_used fun a ha => absurd ha List.not_mem_nil
  | some s =>
    have haccept : ∀ slot, Keeps base slot (accesses s.acceptUse) slot := fun slot =>
      (usesOnly_accept s).keeps fun fd hfd => Or.inr (hserver fd hfd)
    rw [takeClient_eq]
    cases hdata : (s.acceptClient (pass.client.map (·.fd))).data with
    | none => exact haccept _
    | some c =>
      obtain ⟨cfd, -, rfl⟩ := UnixSocket.acceptClient_data hdata
      dsimp only
      rw [accesses_append, accesses_append, accesses_append, accesses_reset]
      exact ((haccept _).append (keeps_takes (cfd : Int))).append
        ((usesOnly_receiveString _ _).keeps fun fd hfd => Or.inl hfd)

theorem loopCalls_keeps {server : Option UnixSocket}
    (hserver : ∀ fd, server.bind UnixSocket.descriptor = some fd → fd ∈ base) (passes : List Pass)
    (clientSocket : Option UnixSocket) :
    Keeps base (clientSocket.bind UnixSocket.descriptor)
      (accesses (loopCalls leftover server passes clientSocket).1)
      ((loopCalls leftover server passes clientSocket).2.bind UnixSocket.descriptor) := by
  induction passes generalizing clientSocket with
  | nil => exact keeps_used fun a ha => absurd ha List.not_mem_nil
  | cons pass passes ih =>
    show Keeps base _ (accesses (_ ++ _)) _
    rw [accesses_append]
    exact (takeClient_keeps hserver pass clientSocket).append (ih _)

/-- The client of the last pass is the one that is left. -/
theorem loopCalls_last (server : Option UnixSocket) (before : List Pass) (pass : Pass)
    (clientSocket : Option UnixSocket) :
    (loopCalls leftover server (before ++ [pass]) clientSocket).2 =
      (takeClient leftover server pass (loopCalls leftover server before clientSocket).2).2 := by
  induction before generalizing clientSocket with
  | nil => rfl
  | cons first before ih => exact ih _

theorem takeClient_accepted {l : Listening} {pass : Pass} {client : Client}
    (h : l.accepted pass = some client) (clientSocket : Option UnixSocket) :
    (takeClient leftover l.server pass clientSocket).2 = some ⟨client.fd, [], false⟩ := by
  unfold Listening.accepted at h
  split at h
  · rename_i s c hs hc
    split at h
    · rename_i hok
      cases h
      have hdata : (s.acceptClient (some client.fd)).data = some ⟨client.fd, [], false⟩ := by
        unfold UnixSocket.acceptClient at hok ⊢
        split at hok
        · cases hok
        · rename_i hserver
          rw [if_neg hserver]
          rfl
      rw [hs, takeClient_eq, hc, Option.map_some, hdata]
    · cases h
  · cases h

/-- The reply goes to the client of the last pass, as far as its `send` comes. -/
theorem reply_client {host : Host} {e : Iteration}
    (hstep : runIteration host e.input e.before = .ok (e.after, e.output)) {answer : Reply}
    (hreply : e.output.reply = some answer) :
    ∃ before pass client, passesMade e = before ++ [pass] ∧
      e.before.listening.accepted pass = some client ∧
      answer.client = ⟨client.fd, [], false⟩ ∧
      ∃ ret, answer.client.send answer.clientSBuff e.input.writes = .ok (ret, answer.handed) := by
  have hnifs := nifs_ne_nil_of_reply hstep hreply
  obtain ⟨nnd, sentIPv6, sentIPv4, logger, hlistening, hneighbors, hlogger, hiterate⟩ :=
    @iterate_receives host e.input e.before hnifs e.before.logger
  rcases unanswered_or_asked host e.input nnd logger with
    hunanswered | ⟨before, pass, client, neighbors, hasked, htable⟩
  · obtain ⟨o, hnone, ho⟩ := @receiveAndReply_unanswered host e.input nnd sentIPv6 sentIPv4
      logger hunanswered
    have hnothing := sendsNothing_of_iterate hnone fun writes => (hiterate writes).trans (ho writes)
    rw [hnothing.2 _ _ hstep] at hreply
    cases hreply
  · rw [hlistening, hlogger] at hasked
    rw [updateNeighbors_congr hlistening hneighbors, hlistening] at htable
    obtain ⟨nnd', out, logger', -, hclients, hrun⟩ := runIteration_asked hnifs hasked htable
    rw [hstep] at hrun
    obtain ⟨⟨ret, handed⟩, hsend, hrest⟩ := Fallible.bind_eq_ok.mp hrun.symm
    obtain ⟨⟨_, logger''⟩, -, hrest⟩ := Fallible.bind_eq_ok.mp hrest
    have hout := (Prod.mk.inj (Except.ok.inj hrest)).2
    obtain ⟨after, hpasses⟩ := hasked.reaches.passes
    have hanswer := hreply
    rw [← hout] at hanswer
    cases hanswer
    refine ⟨before, pass, client, ?_, hasked.accepted, rfl, ret, hsend⟩
    have hlen := congrArg List.length hclients
    rw [List.length_map, List.length_map] at hlen
    unfold passesMade
    rw [← hout, hpasses, List.append_cons]
    exact List.take_left' hlen.symm

theorem iterationCalls_keeps {host : Host} {e : Iteration}
    (hstep : runIteration host e.input e.before = .ok (e.after, e.output))
    (hserver : ∀ fd, e.before.unixDomainServer.bind UnixSocket.descriptor = some fd → fd ∈ base) :
    Keeps base none (accesses (iterationCalls leftover e)) none := by
  unfold iterationCalls
  dsimp only
  rw [accesses_append, accesses_append, accesses_reset]
  refine ((loopCalls_keeps hserver (passesMade e) none).append ?_).append keeps_gives
  cases hreply : e.output.reply with
  | none => exact keeps_used fun a ha => absurd ha List.not_mem_nil
  | some answer =>
    obtain ⟨before, pass, client, hmade, haccepted, hclient, -⟩ := reply_client hstep hreply
    have hslot : (loopCalls leftover e.before.unixDomainServer (passesMade e) none).2 =
        some answer.client := by
      rw [hmade, loopCalls_last, hclient]
      exact takeClient_accepted haccepted _
    rw [hslot]
    exact (usesOnly_send _ _ _).keeps fun fd hfd => Or.inl hfd

end Clients

/-! ## The sockets of the daemon -/

section Members

theorem setupSocket_data {S : Type} {funcReturn : FunctionReturn S} {failure : Bytes}
    {socket : Option S} {logger logger' : Logger}
    (h : setupSocket funcReturn failure logger = .ok (socket, logger'))
    (hdata : funcReturn.isOk = funcReturn.data.isSome) : socket = funcReturn.data := by
  unfold setupSocket at h
  by_cases hok : funcReturn.isOk = true
  · rw [if_pos hok] at h
    obtain ⟨s, _, hvalue, h⟩ := Logging.bind_eq_ok.mp h
    cases h
    exact (value_eq_ok.mp (Logging.lift_eq_ok.mp hvalue).1).symm
  · rw [if_neg hok] at h
    obtain ⟨_, _, _, h⟩ := Logging.bind_eq_ok.mp h
    cases h
    rw [hdata, Option.not_isSome_iff_eq_none] at hok
    exact hok.symm

theorem isOk_sender (T : Family) (socket : Option Nat) :
    (IPMulticastSender.factory T socket).isOk =
      (IPMulticastSender.factory T socket).data.isSome := by
  cases socket <;> rfl

theorem isOk_receiver (T : Family) (port : UInt16) (calls : ReceiverCalls) :
    (IPMulticastReceiver.factory T port calls).isOk =
      (IPMulticastReceiver.factory T port calls).data.isSome := by
  obtain ⟨socket, setsockopt, bind⟩ := calls
  cases socket with
  | none => rfl
  | some fd => cases setsockopt <;> cases bind <;> rfl

theorem isOk_server (path : Bytes) (calls : ServerCalls) :
    (UnixSocket.serverFactory path calls).isOk =
      (UnixSocket.serverFactory path calls).data.isSome := by
  obtain ⟨socket, bind, listen⟩ := calls
  cases socket with
  | none => rfl
  | some fd => cases bind <;> cases listen <;> rfl

theorem leaves_sender {T : Family} (socket : Option Nat) :
    Leaves (accesses ((senderCalls socket).map .sys))
      ((IPMulticastSender.factory T socket).data.map fun s => (s.sockFd : Int)).toList := by
  rw [accesses_sys]
  cases socket with
  | none => exact fun rs hrs _ => ⟨hrs, .refl _⟩
  | some fd => exact leaves_acquired (fd : Int)

/-- A receiver that could not be set up is closed twice, the second time to no effect. -/
theorem leaves_receiver (T : Family) (port : UInt16) (calls : ReceiverCalls) :
    Leaves (accesses ((ReceiverObject.factory T port calls).2.map .sys))
      ((IPMulticastReceiver.factory T port calls).data.map fun r => (r.sockFd : Int)).toList := by
  rw [accesses_sys]
  obtain ⟨socket, setsockopt, bind⟩ := calls
  cases socket with
  | none => exact fun rs hrs _ => ⟨hrs, .refl _⟩
  | some fd =>
    cases setsockopt with
    | false => exact leaves_released (fd : Int) 1
    | true =>
      cases bind with
      | false => exact leaves_released (fd : Int) 1
      | true => exact leaves_acquired (fd : Int)

theorem leaves_server (leftover : Bytes → Bytes) (path : Bytes) (calls : ServerCalls) :
    Leaves (accesses ((UnixSocket.serverCalls path calls ++ (Process.returnedData
        (UnixSocket.members leftover) (UnixSocket.serverFactory path calls)).2).map .sys))
      ((UnixSocket.serverFactory path calls).data.bind UnixSocket.descriptor).toList := by
  rw [accesses_sys]
  obtain ⟨socket, bind, listen⟩ := calls
  cases socket with
  | none => exact fun rs hrs _ => ⟨hrs, .refl _⟩
  | some fd =>
    cases bind with
    | false => exact leaves_released (fd : Int) 0
    | true =>
      cases listen with
      | false => exact leaves_released (fd : Int) 0
      | true => exact leaves_acquired (fd : Int)

theorem construct_leaves (leftover : Bytes → Bytes) {logger : Logger}
    {settings : DiscoverySettings} {localSettings : UnixDomainSettings} {calls : SetupCalls}
    {init : NetworkNeighborDiscoverer}
    (hinit : construct logger settings localSettings calls = .ok init) :
    Leaves (accesses ((constructCalls leftover settings localSettings calls).map .sys))
      init.descriptors := by
  unfold construct at hinit
  obtain ⟨⟨⟨ipv4sender, ipv4receiver⟩, logger₁⟩, h4, hinit⟩ := Fallible.bind_eq_ok.mp hinit
  obtain ⟨⟨⟨ipv6sender, ipv6receiver⟩, logger₂⟩, h6, hinit⟩ := Fallible.bind_eq_ok.mp hinit
  obtain ⟨⟨unixDomainServer, logger₃⟩, hunix, hinit⟩ := Fallible.bind_eq_ok.mp hinit
  cases hinit
  obtain ⟨s4, _, hs4, h4⟩ := Logging.bind_eq_ok.mp h4
  obtain ⟨r4, _, hr4, h4⟩ := Logging.bind_eq_ok.mp h4
  cases h4
  obtain ⟨s6, _, hs6, h6⟩ := Logging.bind_eq_ok.mp h6
  obtain ⟨r6, _, hr6, h6⟩ := Logging.bind_eq_ok.mp h6
  cases h6
  unfold constructCalls socketPairCalls NetworkNeighborDiscoverer.descriptors
  rw [setupSocket_data hs4 (isOk_sender _ _), setupSocket_data hs6 (isOk_sender _ _),
    setupSocket_data hr4 (isOk_receiver _ _ _), setupSocket_data hr6 (isOk_receiver _ _ _),
    setupSocket_data hunix (isOk_server _ _)]
  simp only [List.map_append, accesses_append]
  have hleaves := (((leaves_sender (T := .inet) (calls.senderSocket .inet)).append
    (leaves_receiver .inet settings.port (calls.receiver .inet))).append
    ((leaves_sender (T := .inet6) (calls.senderSocket .inet6)).append
      (leaves_receiver .inet6 settings.port (calls.receiver .inet6)))).append
    (leaves_server leftover localSettings.socketPath calls.unixDomain)
  simpa only [List.map_append, accesses_append] using hleaves

variable {host : Host} {env : Env}

/-- What every step of a fold keeps, the fold keeps. -/
theorem foldl_keeps {α β γ : Type} (view : β → γ) {f : β → α → β}
    (hf : ∀ b a, view (f b a) = view b) (l : List α) (b : β) : view (l.foldl f b) = view b := by
  induction l generalizing b with
  | nil => rfl
  | cons a l ih => exact (ih (f b a)).trans (hf b a)

theorem sockFd_addTarget (port : UInt16) {T : Family} (s : IPMulticastSender T)
    (nif : NetInterface) : (addTarget host env port s nif).sockFd = s.sockFd := by
  unfold addTarget IPMulticastSender.addMulticastAddress
  split <;> rfl

theorem sockFd_removeTarget (port : UInt16) {T : Family} (s : IPMulticastSender T)
    (nif : NetInterface) : (removeTarget host env port s nif).sockFd = s.sockFd := by
  unfold removeTarget IPMulticastSender.removeMulticastAddress
  split
  · rfl
  · dsimp only
    split <;> rfl

theorem sockFd_changeGroups {T : Family} (r : IPMulticastReceiver T) (multicastIp : Bytes)
    (ifindex : UInt32) (fails : Membership T → Bool) (change : Membership T → List (Membership T)) :
    (r.changeGroups host.pton multicastIp ifindex fails change).2.sockFd = r.sockFd := by
  unfold IPMulticastReceiver.changeGroups
  split
  · rfl
  · dsimp only
    split <;> rfl

theorem sockFd_updatedSender (port : UInt16) (prevNifs nifs : List NetInterface) {T : Family}
    (s : IPMulticastSender T) : (updatedSender host env port prevNifs nifs s).sockFd = s.sockFd :=
  (foldl_keeps IPMulticastSender.sockFd (sockFd_addTarget port) _ _).trans
    (foldl_keeps IPMulticastSender.sockFd (sockFd_removeTarget port) _ _)

theorem sockFd_updatedReceiver (prevNifs nifs : List NetInterface) {T : Family}
    (r : IPMulticastReceiver T) : (updatedReceiver host env prevNifs nifs r).sockFd = r.sockFd :=
  (foldl_keeps IPMulticastReceiver.sockFd (fun r _ => sockFd_changeGroups r _ _ _ _) _ _).trans
    (foldl_keeps IPMulticastReceiver.sockFd (fun r _ => sockFd_changeGroups r _ _ _ _) _ _)

theorem sockFd_sendOn {T : Family} (use : Bool) (sender : Option (IPMulticastSender T))
    (sbuff : Bytes) (calls : Nat → SendCall) :
    (sendOn use sender sbuff calls).1.map (·.sockFd) = sender.map (·.sockFd) := by
  cases sender with
  | none => rfl
  | some s => cases use <;> rfl

/-- An iteration leaves every socket of the daemon its descriptor. -/
theorem runIteration_descriptors {nnd nnd' : NetworkNeighborDiscoverer} {out : Output}
    (h : runIteration host env nnd = .ok (nnd', out)) : nnd'.descriptors = nnd.descriptors := by
  have hserver := (runIteration_config host h).2.2.2
  obtain ⟨nnd₁, logger, logger', rfl, hbranch⟩ := runIteration_eq_ok host h
  have hsockets : ∀ T, (nnd₁.sender T).map (·.sockFd) = (nnd.sender T).map (·.sockFd) ∧
      (nnd₁.receiver T).map (·.sockFd) = (nnd.receiver T).map (·.sockFd) := by
    split at hbranch
    · unfold discover at hbranch
      obtain ⟨s, _, hupdate, hrest⟩ := Logging.bind_eq_ok.mp hbranch
      dsimp only at hrest
      obtain ⟨r, _, -, hrest⟩ := Logging.bind_eq_ok.mp hrest
      obtain ⟨t, _, -, hrest⟩ := Logging.bind_eq_ok.mp hrest
      obtain ⟨answer, _, -, hrest⟩ := Logging.bind_eq_ok.mp hrest
      cases hrest
      intro T
      have hsender : (s.sender T).map (·.sockFd) = (nnd.sender T).map (·.sockFd) := by
        rw [(updateSockets_ok host env hupdate T).1, Option.map_map]
        exact congrArg (Option.map · (nnd.sender T)) (funext fun s => sockFd_updatedSender _ _ _ s)
      have hreceiver : (s.receiver T).map (·.sockFd) = (nnd.receiver T).map (·.sockFd) := by
        rw [(updateSockets_ok host env hupdate T).2, Option.map_map]
        exact congrArg (Option.map · (nnd.receiver T))
          (funext fun r => sockFd_updatedReceiver _ _ r)
      cases T
      · exact ⟨(sockFd_sendOn _ _ _ _).trans hsender, hreceiver⟩
      · exact ⟨(sockFd_sendOn _ _ _ _).trans hsender, hreceiver⟩
    · cases hbranch
      exact fun _ => ⟨rfl, rfl⟩
  have hcast : ∀ {S S' : Type} {o : Option S} {o' : Option S'} {fd : S → Nat} {fd' : S' → Nat},
      o.map fd = o'.map fd' → (o.map fun s => (fd s : Int)) = o'.map fun s => (fd' s : Int) := by
    intro S S' o o' fd fd' heq
    have hint := congrArg (Option.map Int.ofNat) heq
    rw [Option.map_map, Option.map_map] at hint
    exact hint
  have h6 := hsockets .inet6
  have h4 := hsockets .inet
  unfold NetworkNeighborDiscoverer.descriptors
  rw [hserver]
  show _ ++ (((nnd₁.receiver .inet6).map _).toList ++ ((nnd₁.sender .inet6).map _).toList ++
    (((nnd₁.receiver .inet).map _).toList ++ ((nnd₁.sender .inet).map _).toList)) = _
  rw [hcast h6.1, hcast h6.2, hcast h4.1, hcast h4.2]
  rfl

end Members

/-! ## Whole runs -/

section Runs

variable {leftover : Bytes → Bytes} {base opened : List Int}

theorem accesses_flatMap {α : Type} (f : α → List FdCall) (l : List α) :
    accesses (l.flatMap f) = l.flatMap fun a => accesses (f a) := List.filterMap_flatMap

/-- Counting calls is counting what they do to the ledger. -/
theorem count_events {call : FdCall} (event : Event Int)
    (h : ∀ call', call'.access.bind Access.event? = some event ↔ call' = call)
    (calls : List FdCall) :
    calls.count call = ((accesses calls).filterMap Access.event?).count event := by
  unfold accesses
  rw [List.filterMap_filterMap, List.count_filterMap]
  refine List.countP_congr fun call' _ => ?_
  rw [beq_iff_eq, beq_iff_eq]
  exact (h call').symm

/-- What an iteration does that starts with `opened` and has to leave `base` open. -/
structure DescriptorsKept (leftover : Bytes → Bytes) (base opened : List Int) (e : Iteration) :
    Prop where
  before : opened.Perm base
  /-- Nothing is used or closed that is not open, and besides `base` two clients at
  most are open at any moment. -/
  sound : Sound (base.length + 2) opened (accesses (iterationCalls leftover e))
  closed : ∀ fd, (iterationCalls leftover e).count (.sys (.close fd)) =
    (iterationCalls leftover e).count (.sys (.opened fd))
  after : (held opened (accesses (iterationCalls leftover e))).Perm base

theorem descriptorsKept {e : Iteration}
    (hkeeps : Keeps base none (accesses (iterationCalls leftover e)) none)
    (howns : Owns none base opened) (hfresh : Fresh opened (accesses (iterationCalls leftover e))) :
    DescriptorsKept leftover base opened e := by
  obtain ⟨hsound, howns'⟩ := hkeeps opened howns hfresh
  have hbefore : opened.Perm base := howns.perm
  have hafter : (held opened (accesses (iterationCalls leftover e))).Perm base := howns'.perm
  refine ⟨hbefore, hsound, fun fd => ?_, hafter⟩
  have hcount := (proper_of_sound hfresh hsound).count_released fd
  have hsame : (outstanding opened ((accesses (iterationCalls leftover e)).filterMap
      Access.event?)).count fd = opened.count fd := (hafter.trans hbefore.symm).count_eq fd
  rw [count_events (.released fd), count_events (.acquired fd)]
  · omega
  · rintro ((_ | _ | _) | _) <;> simp [FdCall.access, SysCall.onDescriptor, Access.event?]
  · rintro ((_ | _ | _) | _) <;> simp [FdCall.access, SysCall.onDescriptor, Access.event?]

variable {host : Host} {logger : Logger} {settings : DiscoverySettings}
  {localSettings : UnixDomainSettings} {calls : SetupCalls} {init s : NetworkNeighborDiscoverer}
  {h : List Iteration}

theorem descriptors_eq (hrun : DaemonRun host init h s) : s.descriptors = init.descriptors :=
  hrun.invariant (fun _ s => s.descriptors = init.descriptors) rfl
    fun _ _ _ _ _ _ hstep ih => (runIteration_descriptors hstep).trans ih

theorem iteration_keeps (leftover : Bytes → Bytes) (opened : List Int)
    (hrun : DaemonRun host init h s) {e : Iteration} (he : e ∈ h) :
    Keeps (init.descriptors ++ opened) none (accesses (iterationCalls leftover e)) none := by
  obtain ⟨before, after, -, hbefore, hstep⟩ := hrun.event he
  refine iterationCalls_keeps hstep fun fd hfd => ?_
  rw [← descriptors_eq hbefore]
  unfold NetworkNeighborDiscoverer.descriptors
  rw [hfd]
  simp

/-- Whatever the five sockets of the constructor come to, and whatever clients connect,
every iteration leaves open what it found open: the sockets of the daemon and what was
open before it. -/
theorem descriptors_kept
    (hinit : construct logger settings localSettings calls = .ok init)
    (hrun : DaemonRun host init h s) (hopened : opened.Nodup)
    (hfresh : Fresh opened (accesses
      ((constructCalls leftover settings localSettings calls).map .sys ++
        h.flatMap (iterationCalls leftover)))) :
    (s.descriptors ++ opened).Nodup ∧ ∀ before e after, h = before ++ e :: after →
      DescriptorsKept leftover (s.descriptors ++ opened)
        (held opened (accesses ((constructCalls leftover settings localSettings calls).map .sys ++
          before.flatMap (iterationCalls leftover)))) e := by
  rw [accesses_append, accesses_flatMap] at hfresh
  obtain ⟨hfresh₁, hfresh₂⟩ := along_append.mp hfresh
  obtain ⟨hnodup, hperm⟩ := construct_leaves leftover hinit opened hopened hfresh₁
  have howns : Owns none (init.descriptors ++ opened) _ := ⟨hnodup, hperm⟩
  rw [descriptors_eq hrun]
  refine ⟨hperm.nodup_iff.mp hnodup, fun before e after hsplit => ?_⟩
  subst hsplit
  rw [List.flatMap_append, List.flatMap_cons] at hfresh₂
  obtain ⟨hfresh₃, hfresh₄⟩ := along_append.mp hfresh₂
  obtain ⟨-, howns'⟩ := keeps_flatMap (fun e' he' =>
    iteration_keeps leftover opened hrun (List.mem_append_left _ he')) _ howns hfresh₃
  rw [accesses_append, accesses_flatMap, held_append]
  exact descriptorsKept (iteration_keeps leftover opened hrun (by simp)) howns'
    (along_append.mp hfresh₄).1

end Runs

namespace Small

/-- The IPv4 sender is not opened, and the IPv4 receiver not bound and closed twice. -/
def noIPv4 : SetupCalls where
  senderSocket
    | .inet => none
    | .inet6 => some 3
  receiver
    | .inet => ⟨some 3, true, false⟩
    | .inet6 => ⟨some 4, true, true⟩
  unixDomain := ⟨some 5, true, true⟩

theorem visit_fits : (announcement host [remote]).length ≤ 65535 := by decide

/-- A client that asks for nothing, beside an announcement, and then one that asks. -/
def visits : Env :=
  env [eth0] [⟨some ⟨announcement host [remote], text "fe80::2", visit_fits⟩, none,
    some ⟨6, [.read (text "x")]⟩, 1⟩, ⟨none, none, some ⟨7, [.read (text "request")]⟩, 1⟩] 0

set_option maxRecDepth 40000 in
theorem visits_made : ∃ init e answer, construct (some []) settings localSettings noIPv4 = .ok init ∧
    init.descriptors = [5, 4, 3] ∧ iterations host init [visits] = some [e] ∧
    e.output.reply = some answer ∧
    accesses ((constructCalls id settings localSettings noIPv4).map .sys ++
      [e].flatMap (iterationCalls id)) =
      [.event (.acquired 3), .event (.released 3), .event (.released 3), .event (.acquired 3),
        .event (.acquired 4), .event (.acquired 5), .used 5, .event (.acquired 6), .used 6, .used 5,
        .event (.acquired 7), .event (.released 6), .used 7, .used 7, .event (.released 7)] :=
  ⟨_, _, _, rfl, rfl, rfl, rfl, rfl⟩

end Small

theorem descriptors_kept_small : ∃ init e answer,
    construct (some []) Small.settings Small.localSettings Small.noIPv4 = .ok init ∧
      iterations Small.host init [Small.visits] = some [e] ∧ e.output.reply = some answer ∧
      DescriptorsKept id [5, 4, 3, 0, 1, 2] (held [0, 1, 2] (accesses ((constructCalls id
        Small.settings Small.localSettings Small.noIPv4).map .sys ++
          [].flatMap (iterationCalls id)))) e := by
  obtain ⟨init, e, answer, hinit, hdescriptors, hmade, hreply, haccesses⟩ := Small.visits_made
  obtain ⟨s, hrun⟩ := iterations_run .nil hmade
  have hfresh : Fresh [0, 1, 2] (accesses ((constructCalls id Small.settings Small.localSettings
      Small.noIPv4).map .sys ++ ([] ++ [e]).flatMap (iterationCalls id))) := by
    rw [List.nil_append, haccesses]
    decide
  have hkept := (descriptors_kept hinit hrun (by decide) hfresh).2 [] e [] rfl
  rw [descriptors_eq hrun, hdescriptors] at hkept
  exact ⟨init, e, answer, hinit, hmade, hreply, hkept⟩

end NeighborDiscovery
