/-
How the decoders fail.

A decoder checks the result of each call and chains the message of a failure.  So
a failure has the code of the innermost one, which is always `Error`, and the
failure of a vector always has a message, although that of a string may have none.
Where a decoder faults, the buffer is the reason, not a field left empty.
-/
import NeighborDiscovery.Utility.Serialization

namespace NeighborDiscovery

/-- A fault for which neither a missing message nor a null pointer is the reason. -/
def Fault.OfInput : Fault → Prop
  | .badOptionalAccess => False
  | .nullDereference _ => False
  | _ => True

theorem Fault.OfInput.not_null {e : Fault} (h : e.OfInput) (handle : Handle) :
    e ≠ .nullDereference handle := by
  intro he
  rw [he] at h
  exact h

theorem Fault.OfInput.not_optional {e : Fault} (h : e.OfInput) : e ≠ .badOptionalAccess := by
  intro he
  rw [he] at h
  exact h

/-- A fault of a construction or a read whose size the buffer gives. -/
def Fault.OfBuffer : Fault → Prop
  | .lengthError => True
  | .badAlloc => True
  | .outOfRange => True
  | _ => False

theorem Fault.OfBuffer.ofInput {e : Fault} (h : e.OfBuffer) : e.OfInput := by
  cases e with
  | lengthError => trivial
  | badAlloc => trivial
  | outOfRange => trivial
  | badOptionalAccess => exact h
  | nullDereference handle => exact h
  | signedOverflow => trivial
  | waiting => trivial

theorem Fault.OfBuffer.not_overflow {e : Fault} (h : e.OfBuffer) : e ≠ .signedOverflow := by
  intro he
  rw [he] at h
  exact h

variable {T U : Type}

/-- A decoder whose results are successes or carry the code `Error`. -/
def FailsWithCode (d : Bytes → Decode (FunctionReturn T)) : Prop :=
  ∀ b o r o', (d b).run o = .ok (r, o') → r.isOk = true ∨ r.code = .Error

/-- A decoder whose results are successes or carry a message. -/
def FailsWithMsg (d : Bytes → Decode (FunctionReturn T)) : Prop :=
  ∀ b o r o', (d b).run o = .ok (r, o') → r.isOk = true ∨ ∃ m, r.msg = some m

/-- A call, the check of its result and the use of its payload fail with the chained
message or go on. -/
theorem check_run {d : Bytes → Decode (FunctionReturn U)} {msg : Bytes}
    {k : U → Bytes → Decode (FunctionReturn T)} {b : Bytes} {o o' : Nat} {r : FunctionReturn T}
    (h : (do
      let r ← d b
      if !r.isOk then
        return .chain msg r
      let x ← value r.data
      k x b : Decode (FunctionReturn T)).run o = .ok (r, o')) :
    ∃ r₁ o₁, (d b).run o = .ok (r₁, o₁) ∧
      ((r₁.isOk = false ∧ r = .chain msg r₁) ∨ ∃ x, (k x b).run o₁ = .ok (r, o')) := by
  rw [StateT.run_bind] at h
  obtain ⟨⟨r₁, o₁⟩, hd, h⟩ := Fallible.bind_eq_ok.mp h
  refine ⟨r₁, o₁, hd, ?_⟩
  dsimp only at h
  cases hok : r₁.isOk with
  | false =>
    rw [hok] at h
    cases h
    exact .inl ⟨rfl, rfl⟩
  | true =>
    rw [hok] at h
    cases hdata : r₁.data with
    | none =>
      rw [hdata] at h
      cases h
    | some x =>
      rw [hdata] at h
      exact .inr ⟨x, h⟩

theorem failsWithCode_check {d : Bytes → Decode (FunctionReturn U)} {msg : Bytes}
    {k : U → Bytes → Decode (FunctionReturn T)} (hd : FailsWithCode d)
    (hk : ∀ x, FailsWithCode (k x)) :
    FailsWithCode (fun b => do
      let r ← d b
      if !r.isOk then
        return .chain msg r
      let x ← value r.data
      k x b) := by
  intro b o r o' h
  obtain ⟨r₁, o₁, hrun, hcase⟩ := check_run h
  rcases hcase with ⟨hbad, rfl⟩ | ⟨x, hx⟩
  · have hcode := (hd b o r₁ o₁ hrun).resolve_left (by rw [hbad]; exact Bool.false_ne_true)
    exact Or.inr hcode
  · exact hk x b o₁ r o' hx

theorem failsWithMsg_check {d : Bytes → Decode (FunctionReturn U)} {msg : Bytes}
    {k : U → Bytes → Decode (FunctionReturn T)} (hk : ∀ x, FailsWithMsg (k x)) :
    FailsWithMsg (fun b => do
      let r ← d b
      if !r.isOk then
        return .chain msg r
      let x ← value r.data
      k x b) := by
  intro b o r o' h
  obtain ⟨r₁, o₁, -, hcase⟩ := check_run h
  rcases hcase with ⟨-, rfl⟩ | ⟨x, hx⟩
  · exact Or.inr ⟨_, rfl⟩
  · exact hk x b o₁ r o' hx

theorem deserializeTrivial_failsWithCode (order : ByteOrder) (V : Type) [TrivialType V] :
    FailsWithCode (Deserializer.deserializeTrivial order V) := by
  intro b o r o' h
  unfold Deserializer.deserializeTrivial at h
  rw [StateT.run_bind, StateT.run_get] at h
  simp only [pure_bind] at h
  split at h
  · cases h
    exact Or.inr rfl
  · obtain ⟨⟨val, o₁⟩, -, h⟩ := Fallible.bind_eq_ok.mp h
    cases h
    exact Or.inl rfl

theorem deserializeString_failsWithCode (order : ByteOrder) (lim : Limits) :
    FailsWithCode (Deserializer.deserializeString order lim) := by
  unfold Deserializer.deserializeString
  refine failsWithCode_check (deserializeTrivial_failsWithCode order UInt64) fun v b o r o' h => ?_
  rw [StateT.run_bind, StateT.run_get] at h
  simp only [pure_bind] at h
  split at h
  · cases h
    exact Or.inr rfl
  · obtain ⟨⟨val, o₁⟩, -, h⟩ := Fallible.bind_eq_ok.mp h
    cases h
    exact Or.inl rfl

theorem deserializeElems_failsWithCode {d : Bytes → Decode (FunctionReturn T)}
    (hd : FailsWithCode d) (n : Nat) (vec : List T) :
    FailsWithCode fun b => Deserializer.deserializeElems d b n vec := by
  induction n generalizing vec with
  | zero =>
    intro b o r o' h
    cases h
    exact Or.inl rfl
  | succ n ih => exact failsWithCode_check hd fun x => ih (vec ++ [x])

theorem deserializeElems_failsWithMsg (d : Bytes → Decode (FunctionReturn T)) (n : Nat)
    (vec : List T) : FailsWithMsg fun b => Deserializer.deserializeElems d b n vec := by
  induction n generalizing vec with
  | zero =>
    intro b o r o' h
    cases h
    exact Or.inl rfl
  | succ n ih => exact failsWithMsg_check fun x => ih (vec ++ [x])

theorem deserializeVector_failsWithCode (order : ByteOrder) {d : Bytes → Decode (FunctionReturn T)}
    (hd : FailsWithCode d) (room : Room) :
    FailsWithCode (Deserializer.deserializeVector order room d) := by
  refine failsWithCode_check (deserializeTrivial_failsWithCode order UInt64) fun v b o r o' h => ?_
  rw [StateT.run_bind] at h
  obtain ⟨⟨_, o₁⟩, -, h⟩ := Fallible.bind_eq_ok.mp h
  exact deserializeElems_failsWithCode hd _ _ b o₁ r o' h

/-- Whatever its elements do, a vector's failure carries a message. -/
theorem deserializeVector_failsWithMsg (order : ByteOrder) (room : Room)
    (d : Bytes → Decode (FunctionReturn T)) :
    FailsWithMsg (Deserializer.deserializeVector order room d) := by
  refine failsWithMsg_check fun v b o r o' h => ?_
  rw [StateT.run_bind] at h
  obtain ⟨⟨_, o₁⟩, -, h⟩ := Fallible.bind_eq_ok.mp h
  exact deserializeElems_failsWithMsg d _ _ b o₁ r o' h

/-! ## Faults -/

def FaultsOfInput (d : Bytes → Decode (FunctionReturn T)) : Prop :=
  ∀ b o e, (d b).run o = .error e → e.OfInput

def FaultsOfBuffer (d : Bytes → Decode (FunctionReturn T)) : Prop :=
  ∀ b o e, (d b).run o = .error e → e.OfBuffer

theorem data_of_isOk {r : FunctionReturn T} (h : r.isOk = true) : ∃ x, r.data = some x := by
  unfold FunctionReturn.isOk at h
  exact Option.isSome_iff_exists.mp (Bool.and_eq_true_iff.mp h).2

theorem faultsOfBuffer_check {d : Bytes → Decode (FunctionReturn U)} {msg : Bytes}
    {k : U → Bytes → Decode (FunctionReturn T)} (hd : FaultsOfBuffer d)
    (hk : ∀ x, FaultsOfBuffer (k x)) :
    FaultsOfBuffer (fun b => do
      let r ← d b
      if !r.isOk then
        return .chain msg r
      let x ← value r.data
      k x b) := by
  intro b o e h
  rw [StateT.run_bind] at h
  rcases Fallible.bind_eq_error.mp h with hrun | ⟨⟨r, o₁⟩, -, h⟩
  · exact hd b o e hrun
  · dsimp only at h
    cases hok : r.isOk with
    | false =>
      rw [hok] at h
      cases h
    | true =>
      obtain ⟨x, hx⟩ := data_of_isOk hok
      rw [hok, hx] at h
      exact hk x b o₁ e h

theorem run_lift_error {y : Except Fault U} {o : Nat} {e : Fault}
    (h : (liftM y : Decode U).run o = .error e) : y = .error e := by
  cases y with
  | error e' =>
    cases h
    rfl
  | ok a => cases h

theorem readRange_fault {b : Bytes} {offset length : Nat} {e : Fault}
    (h : Deserializer.readRange b offset length = .error e) : e.OfBuffer := by
  unfold Deserializer.readRange at h
  split at h
  · cases h
  · cases h
    trivial

theorem allocate_ofBuffer {room : Room} {length : Nat} {e : Fault}
    (h : room.allocate length = .error e) : e.OfBuffer := by
  unfold Room.allocate at h
  split at h
  · cases h
    trivial
  · split at h
    · cases h
    · cases h
      trivial

theorem constructString_fault {lim : Limits} {b : Bytes} {offset length : Nat} {e : Fault}
    (h : Deserializer.constructString lim b offset length = .error e) : e.OfBuffer := by
  unfold Deserializer.constructString at h
  rcases Fallible.bind_eq_error.mp h with hroom | ⟨_, -, hread⟩
  · exact allocate_ofBuffer hroom
  · exact readRange_fault hread

theorem deserializeTrivial_faultsOfBuffer (order : ByteOrder) (V : Type) [TrivialType V] :
    FaultsOfBuffer (Deserializer.deserializeTrivial order V) := by
  intro b o e h
  unfold Deserializer.deserializeTrivial at h
  rw [StateT.run_bind, StateT.run_get] at h
  simp only [pure_bind] at h
  split at h
  · cases h
  · rw [StateT.run_bind] at h
    rcases Fallible.bind_eq_error.mp h with hread | ⟨val, -, h⟩
    · exact readRange_fault (run_lift_error hread)
    · cases h

theorem deserializeString_faultsOfBuffer (order : ByteOrder) (lim : Limits) :
    FaultsOfBuffer (Deserializer.deserializeString order lim) := by
  unfold Deserializer.deserializeString
  refine faultsOfBuffer_check (deserializeTrivial_faultsOfBuffer order UInt64) fun v b o e h => ?_
  rw [StateT.run_bind, StateT.run_get] at h
  simp only [pure_bind] at h
  split at h
  · cases h
  · rw [StateT.run_bind] at h
    rcases Fallible.bind_eq_error.mp h with hread | ⟨str, -, h⟩
    · exact constructString_fault (run_lift_error hread)
    · cases h

theorem deserializeElems_faultsOfBuffer {d : Bytes → Decode (FunctionReturn T)}
    (hd : FaultsOfBuffer d) (n : Nat) (vec : List T) :
    FaultsOfBuffer fun b => Deserializer.deserializeElems d b n vec := by
  induction n generalizing vec with
  | zero =>
    intro b o e h
    cases h
  | succ n ih => exact faultsOfBuffer_check hd fun x => ih (vec ++ [x])

theorem deserializeVector_faultsOfBuffer (order : ByteOrder) {d : Bytes → Decode (FunctionReturn T)}
    (hd : FaultsOfBuffer d) (room : Room) :
    FaultsOfBuffer (Deserializer.deserializeVector order room d) := by
  refine faultsOfBuffer_check (deserializeTrivial_faultsOfBuffer order UInt64) fun v b o e h => ?_
  rw [StateT.run_bind] at h
  rcases Fallible.bind_eq_error.mp h with hroom | ⟨_, hroom, h⟩
  · exact allocate_ofBuffer (run_lift_error hroom)
  · exact deserializeElems_faultsOfBuffer hd _ _ b _ e h

end NeighborDiscovery
