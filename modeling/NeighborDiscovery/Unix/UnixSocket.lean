/-
The UNIX domain socket between the daemon and the command line program.

A call that the source repeats after an interrupt takes the results of the
repeated system call as a list; where the list ends first, the call is still
waiting.  The daemon's sockets for clients block, the client's own does not.
-/
import NeighborDiscovery.Library.Fallible
import NeighborDiscovery.Utility.FunctionReturn

namespace NeighborDiscovery

structure UnixSocket where
  sockFd : Int
  path : Bytes
  isServer : Bool
deriving DecidableEq

inductive ReadResult where
  | interrupted
  | failed
  | read (pending : Bytes)
deriving DecidableEq

/-- A result of `write`, the kernel taking at most what it is offered. -/
inductive WriteResult where
  | interrupted
  | failed
  | wrote (n : Nat)
deriving DecidableEq

/-- A result of the `read` inside `receive`, with the text of `strerror`. -/
inductive ReceiveResult where
  | interrupted
  | wouldBlock
  | failed (strerror : Bytes)
  | read (pending : Bytes)
deriving DecidableEq

structure ServerCalls where
  socket : Option Nat
  bind : Bool
  listen : Bool

structure ClientCalls where
  socket : Option Nat
  connect : Bool

namespace UnixSocket

def serverFactory (path : Bytes) (calls : ServerCalls) : FunctionReturn UnixSocket :=
  match calls.socket with
  | none => .ofMsg .Error (text "socket(AF_UNIX, SOCK_STREAM) failed")
  | some fd =>
    if calls.bind = false then .ofMsg .Error (text "bind() failed")
    else if calls.listen = false then .ofMsg .Error (text "listen() failed")
    else .ofData ⟨fd, path, true⟩

/-- `acceptClient`, given what `accept` returns. -/
def acceptClient (s : UnixSocket) (accept : Option Nat) : FunctionReturn UnixSocket :=
  if !s.isServer || s.sockFd < 0 then
    .ofMsg .Error (text "acceptClient() called on non-server socket")
  else
    match accept with
    | none => .ofMsg .Error (text "accept() failed")
    | some cfd => .ofData ⟨cfd, [], false⟩

def clientFactory (calls : ClientCalls) : FunctionReturn UnixSocket :=
  match calls.socket with
  | none => .ofMsg .Error (text "socket(AF_UNIX, SOCK_STREAM) failed")
  | some fd =>
    if calls.connect = false then .ofMsg .Error (text "connect() failed")
    else .ofData ⟨fd, [], false⟩

/-- The calls of `read` inside `receiveString`.  The text of a failure is taken by
the constructor of `FunctionReturn<std::string>` that stores it as data. -/
def readString (maxBytes : Nat) : List ReadResult → Except Fault (FunctionReturn Bytes)
  | [] => .error .waiting
  | .interrupted :: results => readString maxBytes results
  | .failed :: _ => .ok (.ofCodeData .Error (text "read() failed"))
  | .read pending :: _ => .ok (.ofData (pending.take maxBytes))

def receiveString (s : UnixSocket) (maxBytes : Nat) (results : List ReadResult) :
    Except Fault (FunctionReturn Bytes) :=
  if s.sockFd < 0 then .ok (.ofCodeData .Error (text "invalid socket"))
  else readString maxBytes results

/-- The calls of `read` inside `receive`, with the buffer after them.  Where nothing
is read, or nothing is left to read, the buffer is cleared. -/
def readBuffer (size : Nat) : List ReceiveResult → Except Fault (FunctionReturnVoid × Bytes)
  | [] => .error .waiting
  | .interrupted :: results => readBuffer size results
  | .wouldBlock :: _ => .ok (.ok, [])
  | .failed strerror :: _ =>
    .ok (.ofMsg (text "read() failed: " ++ strerror), List.replicate size 0)
  | .read pending :: _ => .ok (.ok, pending.take size)

/-- `receive` into a zero-filled buffer of `size` bytes. -/
def receive (s : UnixSocket) (size : Nat) (results : List ReceiveResult) :
    Except Fault (FunctionReturnVoid × Bytes) :=
  if s.sockFd < 0 then .ok (.ofMsg (text "invalid socket"), List.replicate size 0)
  else readBuffer size results

/-- The loop of `send` over the bytes left, with the bytes it hands to the kernel. -/
def writeLeft : List WriteResult → Bytes → Except Fault (FunctionReturnVoid × Bytes)
  | [], left => if left = [] then .ok (.ok, []) else .error .waiting
  | result :: results, left =>
    if left = [] then .ok (.ok, [])
    else
      match result with
      | .interrupted => writeLeft results left
      | .failed => .ok (.ofMsg (text "write() failed"), [])
      | .wrote 0 => .ok (.ofMsg (text "write() returned 0"), [])
      | .wrote n => do
        let (ret, handed) ← writeLeft results (left.drop n)
        return (ret, left.take n ++ handed)

/-- `send`, of a byte vector and of a string alike. -/
def send (s : UnixSocket) (buff : Bytes) (results : List WriteResult) :
    Except Fault (FunctionReturnVoid × Bytes) :=
  if s.sockFd < 0 then .ok (.ofMsg (text "invalid socket"), []) else writeLeft results buff

theorem writeLeft_explained {results : List WriteResult} {left handed : Bytes}
    {ret : FunctionReturnVoid} (h : writeLeft results left = .ok (ret, handed)) :
    ret.Explained := by
  induction results generalizing left ret handed with
  | nil =>
    unfold writeLeft at h
    split at h
    · cases h
      exact FunctionReturnVoid.explained_ok
    · cases h
  | cons result results ih =>
    unfold writeLeft at h
    split at h
    · cases h
      exact FunctionReturnVoid.explained_ok
    · split at h
      · exact ih h
      · cases h
        exact FunctionReturnVoid.explained_ofMsg _
      · cases h
        exact FunctionReturnVoid.explained_ofMsg _
      · obtain ⟨r, hrest, h⟩ := Fallible.bind_eq_ok.mp h
        cases h
        exact ih hrest

theorem send_explained {s : UnixSocket} {buff handed : Bytes} {results : List WriteResult}
    {ret : FunctionReturnVoid} (h : s.send buff results = .ok (ret, handed)) :
    ret.Explained := by
  unfold send at h
  split at h
  · cases h
    exact FunctionReturnVoid.explained_ofMsg _
  · exact writeLeft_explained h

/-- What is not sent yet when the recorded calls end is waited for. -/
theorem writeLeft_fault {results : List WriteResult} {left : Bytes} {e : Fault}
    (h : writeLeft results left = .error e) : e = .waiting := by
  induction results generalizing left with
  | nil =>
    unfold writeLeft at h
    split at h
    · cases h
    · cases h
      rfl
  | cons result results ih =>
    unfold writeLeft at h
    split at h
    · cases h
    · split at h
      · exact ih h
      · cases h
      · cases h
      · rcases Fallible.bind_eq_error.mp h with hrest | ⟨r, -, h⟩
        · exact ih hrest
        · cases h

theorem send_fault {s : UnixSocket} {buff : Bytes} {results : List WriteResult} {e : Fault}
    (h : s.send buff results = .error e) : e = .waiting := by
  unfold send at h
  split at h
  · cases h
  · exact writeLeft_fault h

/-- A loop of `write` that ends well has handed over every byte. -/
theorem writeLeft_all {results : List WriteResult} {left handed : Bytes}
    {ret : FunctionReturnVoid} (h : writeLeft results left = .ok (ret, handed))
    (hok : ret.isOk = true) : handed = left := by
  induction results generalizing left ret handed with
  | nil =>
    unfold writeLeft at h
    split at h
    · rename_i hleft
      cases h
      exact hleft.symm
    · cases h
  | cons result results ih =>
    unfold writeLeft at h
    split at h
    · rename_i hleft
      cases h
      exact hleft.symm
    · split at h
      · exact ih h hok
      · cases h
        cases hok
      · cases h
        cases hok
      · obtain ⟨r, hrest, h⟩ := Fallible.bind_eq_ok.mp h
        cases h
        rw [ih hrest hok]
        exact List.take_append_drop _ left

theorem send_all {s : UnixSocket} {buff handed : Bytes} {results : List WriteResult}
    {ret : FunctionReturnVoid} (h : s.send buff results = .ok (ret, handed))
    (hok : ret.isOk = true) : handed = buff := by
  unfold send at h
  split at h
  · cases h
    cases hok
  · exact writeLeft_all h hok

/-- What a call of `receive` finds is the first result that is no interrupt. -/
theorem readBuffer_eq (size : Nat) (results : List ReceiveResult) :
    readBuffer size results =
      match results.find? (· ≠ .interrupted) with
      | some .wouldBlock => .ok (.ok, [])
      | some (.failed strerror) =>
        .ok (.ofMsg (text "read() failed: " ++ strerror), List.replicate size 0)
      | some (.read pending) => .ok (.ok, pending.take size)
      | _ => .error .waiting := by
  induction results with
  | nil => rfl
  | cons result results ih =>
    cases result with
    | interrupted => exact ih
    | wouldBlock => rfl
    | failed strerror => rfl
    | read pending => rfl

theorem readBuffer_explained {size : Nat} {results : List ReceiveResult} {buff : Bytes}
    {ret : FunctionReturnVoid} (h : readBuffer size results = .ok (ret, buff)) :
    ret.Explained := by
  rw [readBuffer_eq] at h
  split at h
  · cases h
    exact FunctionReturnVoid.explained_ok
  · cases h
    exact FunctionReturnVoid.explained_ofMsg _
  · cases h
    exact FunctionReturnVoid.explained_ok
  · cases h

/-- Where the call succeeds there was nothing to read, or the buffer holds what was. -/
theorem readBuffer_pending {size : Nat} {results : List ReceiveResult} {buff : Bytes}
    {ret : FunctionReturnVoid} (h : readBuffer size results = .ok (ret, buff))
    (hok : ret.isOk = true) :
    (results.find? (· ≠ .interrupted) = some .wouldBlock ∧ buff = []) ∨
      ∃ pending, results.find? (· ≠ .interrupted) = some (.read pending) ∧
        buff = pending.take size := by
  rw [readBuffer_eq] at h
  split at h
  · rename_i hfind
    cases h
    exact Or.inl ⟨hfind, rfl⟩
  · cases h
    cases hok
  · rename_i pending hfind
    cases h
    exact Or.inr ⟨pending, hfind, rfl⟩
  · cases h

theorem readBuffer_fault {size : Nat} {results : List ReceiveResult} {e : Fault}
    (h : readBuffer size results = .error e) : e = .waiting := by
  rw [readBuffer_eq] at h
  split at h
  · cases h
  · cases h
  · cases h
  · cases h
    rfl

theorem receive_fault {s : UnixSocket} {size : Nat} {results : List ReceiveResult} {e : Fault}
    (h : s.receive size results = .error e) : e = .waiting := by
  unfold receive at h
  split at h
  · cases h
  · exact readBuffer_fault h

theorem receive_explained {s : UnixSocket} {size : Nat} {results : List ReceiveResult}
    {buff : Bytes} {ret : FunctionReturnVoid} (h : s.receive size results = .ok (ret, buff)) :
    ret.Explained := by
  unfold receive at h
  split at h
  · cases h
    exact FunctionReturnVoid.explained_ofMsg _
  · exact readBuffer_explained h

/-- The calls of `read` end with the first result that is no interrupt. -/
theorem readString_eq (maxBytes : Nat) (results : List ReadResult) :
    readString maxBytes results =
      match results.find? (· ≠ .interrupted) with
      | some (.read pending) => .ok (.ofData (pending.take maxBytes))
      | some .failed => .ok (.ofCodeData .Error (text "read() failed"))
      | _ => .error .waiting := by
  induction results with
  | nil => rfl
  | cons result results ih =>
    cases result with
    | interrupted => exact ih
    | failed => rfl
    | read pending => rfl

theorem acceptClient_data {s c : UnixSocket} {accept : Option Nat}
    (h : (s.acceptClient accept).data = some c) : ∃ cfd, accept = some cfd ∧ c = ⟨cfd, [], false⟩ := by
  unfold acceptClient at h
  split at h
  · cases h
  · split at h
    · cases h
    · rename_i cfd
      cases h
      exact ⟨cfd, rfl, rfl⟩

end UnixSocket

end NeighborDiscovery
