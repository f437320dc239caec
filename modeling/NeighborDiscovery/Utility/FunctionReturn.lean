/-
The result type of every fallible call, and the ways out of a call that are no
result at all.

`FunctionReturn` has one constructor of the model for each constructor of the
source that overload resolution can select.  They differ in which of the two
optional fields they fill, and a caller that reads the field left empty ends the
process, so the model keeps both fields.
-/
import Mathlib.Data.List.Basic

namespace NeighborDiscovery

/-- `std::string` and `std::vector<std::uint8_t>`. -/
abbrev Bytes := List UInt8

def text (s : String) : Bytes := s.toUTF8.data.toList

/-- The pointers of the daemon that may be null. -/
inductive Handle where
  | ipv6sender
  | ipv4sender
  | ipv6receiver
  | ipv4receiver
  | unixDomainServer
  | clientSocket
  | logger
deriving DecidableEq, Repr

/-- The ways an evaluation leaves the program's own results: an exception that
nothing catches, undefined behaviour, or a system call that has not returned. -/
inductive Fault where
  /-- `std::length_error` -/
  | lengthError
  /-- `std::bad_alloc` -/
  | badAlloc
  /-- a read outside the object it names -/
  | outOfRange
  /-- `std::bad_optional_access` -/
  | badOptionalAccess
  /-- a null pointer dereferenced -/
  | nullDereference (handle : Handle)
  /-- a signed sum outside `int` -/
  | signedOverflow
  /-- the recorded system calls end while the code still waits for one -/
  | waiting
deriving DecidableEq, Repr

def value {α : Type} : Option α → Except Fault α
  | some a => .ok a
  | none => .error .badOptionalAccess

def deref {α : Type} (handle : Handle) : Option α → Except Fault α
  | some a => .ok a
  | none => .error (.nullDereference handle)

theorem value_eq_ok {α : Type} {o : Option α} {a : α} : value o = .ok a ↔ o = some a := by
  cases o <;> simp [value]

inductive ExitCode where
  | Ok
  | Error
deriving DecidableEq, Repr

structure FunctionReturn (T : Type) where
  code : ExitCode
  data : Option T
  msg : Option Bytes
deriving DecidableEq, Repr

namespace FunctionReturn

variable {T U : Type}

/-- `FunctionReturn(ExitCode, const std::string& msg)`. -/
def ofMsg (code : ExitCode) (msg : Bytes) : FunctionReturn T := ⟨code, none, some msg⟩

/-- `FunctionReturn(ExitCode, const T& data)` and `FunctionReturn(ExitCode, T&& data)`.
For `T = std::string` the second of them takes every string literal, so that an
error text ends up in `data` and `msg` stays empty. -/
def ofCodeData (code : ExitCode) (data : T) : FunctionReturn T := ⟨code, some data, none⟩

/-- `FunctionReturn(const T& data)` and `FunctionReturn(T&& data)`. -/
def ofData (data : T) : FunctionReturn T := ⟨.Ok, some data, none⟩

/-- `FunctionReturn(const std::string& msg, const FunctionReturn<U>& other)`. -/
def chain (msg : Bytes) (other : FunctionReturn U) : FunctionReturn T :=
  ⟨other.code, none, some (msg ++ text ": " ++ other.msg.getD [])⟩

def isOk (r : FunctionReturn T) : Bool := r.code == .Ok && r.data.isSome

def toOption (r : FunctionReturn T) : Option T := if r.isOk then r.data else none

theorem toOption_eq_some {r : FunctionReturn T} {x : T} :
    r.toOption = some x ↔ r.isOk = true ∧ r.data = some x := by
  unfold toOption
  by_cases h : r.isOk = true
  · rw [if_pos h]
    exact ⟨fun hx => ⟨h, hx⟩, fun hx => hx.2⟩
  · rw [if_neg h]
    exact ⟨fun hx => (Option.some_ne_none x hx.symm).elim, fun hx => absurd hx.1 h⟩

theorem isOk_eq_false {r : FunctionReturn T} : r.isOk = false ↔ r.toOption = none := by
  obtain ⟨code, data, msg⟩ := r
  cases code <;> cases data <;> simp [isOk, toOption]

end FunctionReturn

structure FunctionReturnVoid where
  code : ExitCode
  msg : Option Bytes
deriving DecidableEq, Repr

namespace FunctionReturnVoid

/-- `FunctionReturn()`, and `FunctionReturn(ExitCode)` with `ExitCode::Ok`. -/
def ok : FunctionReturnVoid := ⟨.Ok, none⟩

/-- `FunctionReturn(const std::string& msg)`, and `FunctionReturn(ExitCode, const
std::string& msg)` with `ExitCode::Error`. -/
def ofMsg (msg : Bytes) : FunctionReturnVoid := ⟨.Error, some msg⟩

def isOk (r : FunctionReturnVoid) : Bool := r.code == .Ok

/-- Every failure the void form is built with carries its message. -/
def Explained (r : FunctionReturnVoid) : Prop := r.isOk = false → ∃ m, r.msg = some m

theorem explained_ok : ok.Explained := fun h => by cases h

theorem explained_ofMsg (m : Bytes) : (ofMsg m).Explained := fun _ => ⟨m, rfl⟩

end FunctionReturnVoid

end NeighborDiscovery
