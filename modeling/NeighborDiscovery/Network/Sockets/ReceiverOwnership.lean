/-
Who closes the descriptor of a multicast receiver.

A factory that fails after `socket` closes the descriptor itself, and its local
object, which still has it, closes it again.  The objects that a factory returns
hand their descriptor on.  The field `family` is the same for every object of the
class and is its parameter here.
-/
import NeighborDiscovery.Network.Sockets.IPMulticastReceiver
import NeighborDiscovery.Utility.Descriptors

namespace NeighborDiscovery

open Function Ownership Ownership.Members

/-- A receiver with what it owns, also after it is moved from. -/
structure ReceiverObject (T : Family) where
  port : UInt16
  sockFd : Int
deriving DecidableEq

namespace ReceiverObject

variable {T : Family}

/-! ## The members -/

/-- `IPMulticastReceiver(std::uint16_t port)`. -/
def construct (T : Family) (port : UInt16) : ReceiverObject T := ⟨port, -1⟩

/-- The test of the destructor, which the move assignment makes as well. -/
def release (r : ReceiverObject T) : List SysCall :=
  if r.sockFd ≥ 0 then [.close r.sockFd] else []

/-- `IPMulticastReceiver(IPMulticastReceiver&& other)`, with what is left of `other`. -/
def moveConstruct (other : ReceiverObject T) : ReceiverObject T × ReceiverObject T :=
  (⟨other.port, other.sockFd⟩, { other with sockFd := -1 })

/-- `operator=(IPMulticastReceiver&& other)`. -/
def moveAssign (isThis : Bool) (this other : ReceiverObject T) :
    (ReceiverObject T × ReceiverObject T) × List SysCall :=
  if !isThis then ((⟨other.port, other.sockFd⟩, { other with sockFd := -1 }), this.release)
  else ((this, other), [])

def members (T : Family) : Members (ReceiverObject T) SysCall where
  moveConstruct := moveConstruct
  moveAssign := moveAssign false
  assignSelf s := ((moveAssign true s s).1.1, (moveAssign true s s).2)
  destroy := release

/-- `factory` with its system calls, those of the local object's destructor last. -/
def factory (T : Family) (port : UInt16) (calls : ReceiverCalls) :
    Option (ReceiverObject T) × List SysCall :=
  let receiver := construct T port
  match calls.socket with
  | none => (none, receiver.release)
  | some fd =>
    let receiver := { receiver with sockFd := fd }
    if calls.setsockopt = false then (none, [.opened fd, .close fd] ++ receiver.release)
    else if calls.bind = false then (none, [.opened fd, .close fd] ++ receiver.release)
    else ((some (moveConstruct receiver).1), [.opened fd] ++ (moveConstruct receiver).2.release)

/-- The objects are those of the factory's results. -/
theorem factory_data (T : Family) (port : UInt16) (calls : ReceiverCalls) :
    (factory T port calls).1 =
      (IPMulticastReceiver.factory T port calls).data.map fun r => ⟨r.port, r.sockFd⟩ := by
  obtain ⟨socket, setsockopt, bind⟩ := calls
  cases socket with
  | none => rfl
  | some fd => cases setsockopt <;> cases bind <;> rfl

/-! ## The steps of a process -/

inductive Action where
  | factory (id : Nat) (port : UInt16) (calls : ReceiverCalls)
  | object (op : Op)

def act (p : Process (ReceiverObject T)) :
    Action → Option (Process (ReceiverObject T) × List SysCall)
  | .factory id port calls => p.make id (factory T port calls).1 (factory T port calls).2
  | .object op => p.operate (members T) op

def Acts (p : Process (ReceiverObject T)) (a : Action) (calls : List SysCall)
    (p' : Process (ReceiverObject T)) : Prop := act p a = some (p', calls)

abbrev ReceiverEvent (T : Family) := Runs.Event (Process (ReceiverObject T)) Action (List SysCall)

abbrev ReceiverRun (T : Family) (h : List (ReceiverEvent T)) (p : Process (ReceiverObject T)) :
    Prop := Runs.Run Acts Process.start h p

/-! ## What an object holds -/

def descriptor (r : ReceiverObject T) : Option Int := if r.sockFd ≥ 0 then some r.sockFd else none

theorem release_descriptor (r : ReceiverObject T) :
    descriptorEvents r.release = releases r.descriptor := by
  unfold release descriptor
  by_cases hfd : r.sockFd ≥ 0
  · rw [if_pos hfd, if_pos hfd]
    rfl
  · rw [if_neg hfd, if_neg hfd]
    rfl

theorem handsOn_descriptor (T : Family) :
    (members T).HandsOn descriptor SysCall.onDescriptor where
  moveConstruct _ := ⟨rfl, rfl⟩
  moveAssign this _ := ⟨rfl, rfl, this.release_descriptor⟩
  assignSelf _ := rfl
  destroy := release_descriptor

/-- The factory fails before it has a descriptor, or it does not fail. -/
def Clean : Action → Prop
  | .factory _ _ calls => calls.socket = none ∨ calls.setsockopt = true ∧ calls.bind = true
  | .object _ => True

/-- Every descriptor that `socket` returned is open until it is closed, and closed once. -/
def ClosedOnce (h : List (ReceiverEvent T)) : Prop :=
  Proper [] (descriptorEvents (Process.made h)) ∧
    ∀ fd, (Process.made h).count (.close fd) = (Process.made h).count (.opened fd)

/-! ## One step -/

section Steps

variable {p p' : Process (ReceiverObject T)} {a : Action} {calls : List SysCall}

theorem factory_clean {port : UInt16} {calls : ReceiverCalls}
    (h : calls.socket = none ∨ calls.setsockopt = true ∧ calls.bind = true) :
    descriptorEvents (factory T port calls).2 =
      acquires ((factory T port calls).1.bind descriptor) := by
  obtain ⟨socket, setsockopt, bind⟩ := calls
  cases socket with
  | none => rfl
  | some fd =>
    rcases h with hnone | ⟨hsetsockopt, hbind⟩
    · cases hnone
    · dsimp only at hsetsockopt hbind
      subst hsetsockopt hbind
      rfl

/-- A factory that fails with a descriptor closes it twice. -/
theorem factory_twice {port : UInt16} {calls : ReceiverCalls}
    (h : ¬(calls.socket = none ∨ calls.setsockopt = true ∧ calls.bind = true)) :
    ∃ fd : Int, descriptorEvents (factory T port calls).2 =
      [.acquired fd, .released fd, .released fd] := by
  obtain ⟨socket, setsockopt, bind⟩ := calls
  cases socket with
  | none => exact absurd (Or.inl rfl) h
  | some fd =>
    refine ⟨fd, ?_⟩
    cases setsockopt with
    | false => rfl
    | true =>
      cases bind with
      | false => rfl
      | true => exact absurd (Or.inr ⟨rfl, rfl⟩) h

theorem acts_opened (h : Acts p a calls p') : p'.opened = openAfter p.opened calls := by
  cases a with
  | factory id port calls₀ =>
    obtain ⟨-, -, heq⟩ := Process.make_eq_some h
    cases heq
    rfl
  | object op => exact (Process.operate_eq_some h).2

theorem acts_clean (h : Acts p a calls p') (hclean : Clean a)
    (hsound : Process.Sound descriptor p) :
    Proper p.opened (descriptorEvents calls) ∧ Process.Sound descriptor p' := by
  cases a with
  | factory id port calls₀ =>
    obtain ⟨-, -, heq⟩ := Process.make_eq_some h
    cases heq
    exact Process.make_sound h hsound (Or.inl (factory_clean hclean))
  | object op => exact (Process.operate_sound (handsOn_descriptor T) h hsound).2

theorem acts_unclean (h : Acts p a calls p') (hclean : ¬Clean a) :
    ∃ fd : Int, descriptorEvents calls = [.acquired fd, .released fd, .released fd] := by
  cases a with
  | factory id port calls₀ =>
    obtain ⟨-, -, heq⟩ := Process.make_eq_some h
    cases heq
    exact factory_twice hclean
  | object op => exact absurd trivial hclean

end Steps

/-! ## Runs -/

/-- A descriptor that is closed twice is not open the second time. -/
theorem not_proper_twice {fds : List Int} {fd : Int} :
    ¬Proper fds [.acquired fd, .released fd, .released fd] := by
  intro hproper
  obtain ⟨hfresh, -, hagain, -⟩ := hproper
  rw [List.erase_cons_head] at hagain
  exact hfresh hagain

theorem count_close (calls : List SysCall) (fd : Int) :
    calls.count (.close fd) = (descriptorEvents calls).count (.released fd) :=
  count_view (fun c => by cases c <;> simp [SysCall.onDescriptor]) calls

theorem count_opened (calls : List SysCall) (fd : Int) :
    calls.count (.opened fd) = (descriptorEvents calls).count (.acquired fd) :=
  count_view (fun c => by cases c <;> simp [SysCall.onDescriptor]) calls

section ClosedOnce

variable {h : List (ReceiverEvent T)} {p : Process (ReceiverObject T)}

/-- Once all objects are destroyed, every descriptor was closed once exactly if no
factory failed after `socket`. -/
theorem closed_once_iff (hrun : ReceiverRun T h p) (hdead : ∀ id, p.objects id = none) :
    ClosedOnce h ↔ ∀ e ∈ h, Clean e.input := by
  constructor
  · intro hclosed e he
    by_contra hunclean
    obtain ⟨h₁, h₂, rfl, -, hacts⟩ := hrun.event he
    obtain ⟨fd, hevents⟩ := acts_unclean hacts hunclean
    have hproper := hclosed.1
    unfold Process.made at hproper
    rw [List.flatMap_append, List.flatMap_cons, Process.descriptorEvents_append,
      Process.descriptorEvents_append, hevents, proper_append, proper_append] at hproper
    exact not_proper_twice hproper.2.1
  · intro hclean
    obtain ⟨hproper, hsound⟩ := Process.proper_run (fun p a c p' => acts_opened)
      (fun e hclean hacts hsound => acts_clean hacts hclean hsound) hrun hclean
    have hopened := Process.opened_eq (fun p a c p' => acts_opened) hrun
    have hnil : p.opened = [] := OwnedOnce.eq_nil hsound fun id => ownerOf_none (hdead id)
    refine ⟨hproper, fun fd => ?_⟩
    have hcount := hproper.count_released fd
    unfold openAfter at hopened
    rw [← hopened, hnil, ← count_close, ← count_opened] at hcount
    simpa using hcount

end ClosedOnce

/-! ## A receiver that is moved, and one that fails -/

namespace Small

def moved : List Action :=
  [.factory 0 4000 ⟨some 5, true, true⟩, .object (.moveConstruct 1 0), .object (.destroy 0),
    .object (.destroy 1)]

def failed : List Action := [.factory 0 4000 ⟨some 5, false, true⟩]

theorem moved_run : ∃ h p, ReceiverRun .inet h p ∧ h.map (·.input) = moved ∧
    Process.made h = [.opened 5, .close 5] ∧ ∀ id, p.objects id = none := by
  refine Process.follow_run rfl fun id => ?_
  match id with
  | 0 => rfl
  | 1 => rfl
  | id + 2 => rfl

theorem failed_run : ∃ h p, ReceiverRun .inet h p ∧ h.map (·.input) = failed ∧
    Process.made h = [.opened 5, .close 5, .close 5] ∧ ∀ id, p.objects id = none := by
  refine Process.follow_run rfl fun id => ?_
  match id with
  | 0 => rfl
  | id + 1 => rfl

end Small

theorem closed_once_small : ∃ h p, ReceiverRun .inet h p ∧ h.map (·.input) = Small.moved ∧
    (∀ id, p.objects id = none) ∧ ClosedOnce h := by
  obtain ⟨h, p, hrun, hinputs, -, hdead⟩ := Small.moved_run
  refine ⟨h, p, hrun, hinputs, hdead, (closed_once_iff hrun hdead).mpr fun e he => ?_⟩
  have hmem : e.input ∈ Small.moved := by
    rw [← hinputs]
    exact List.mem_map_of_mem he
  simp [Small.moved] at hmem
  rcases hmem with hinput | hinput | hinput | hinput <;> simp [hinput, Clean]

theorem closed_twice :
    ¬∀ (T : Family) (h : List (ReceiverEvent T)) (p : Process (ReceiverObject T)),
      ReceiverRun T h p → (∀ id, p.objects id = none) → ClosedOnce h := by
  intro hall
  obtain ⟨h, p, hrun, -, hmade, hdead⟩ := Small.failed_run
  have hcount := (hall .inet h p hrun hdead).2 5
  rw [hmade] at hcount
  simp at hcount

end ReceiverObject

end NeighborDiscovery
