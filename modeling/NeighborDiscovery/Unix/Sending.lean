/-
The loops of the two overloads of `UnixSocket::send`, with their pointer and their
count.

Each pass of a loop offers `left` bytes from `p` on to `write`.  The pointer and
the count move together, so the bytes handed over are the buffer up to `p` and the
bytes left are those behind it, whatever the calls of `write` return.
-/
import NeighborDiscovery.Unix.UnixSocket

namespace NeighborDiscovery

namespace WriteResult

/-- What `write` returns where `left` bytes are offered. -/
def ssize (left : Nat) : WriteResult → Int
  | .interrupted => -1
  | .failed => -1
  | .wrote n => (min n left : Nat)

/-- How many bytes `write` takes where there are enough. -/
def taken : WriteResult → Nat
  | .wrote n => n
  | _ => 0

def takenAll : List WriteResult → Nat
  | [] => 0
  | result :: results => result.taken + takenAll results

/-- `errno == EINTR` after the call. -/
def isEINTR : WriteResult → Bool
  | .interrupted => true
  | .failed => false
  | .wrote _ => false

end WriteResult

/-- Where a call of `send` stands: in a call of `write`, or at its end. -/
inductive SendState where
  | writing (p left : Nat) (handed : Bytes)
  | returned (ret : FunctionReturnVoid) (handed : Bytes)
deriving DecidableEq

namespace SendState

/-- The bytes the kernel has been handed. -/
def handed : SendState → Bytes
  | .writing _ _ handed => handed
  | .returned _ handed => handed

/-- The result, once the call has returned. -/
def result : SendState → Except Fault (FunctionReturnVoid × Bytes)
  | .writing _ _ _ => .error .waiting
  | .returned ret handed => .ok (ret, handed)

end SendState

namespace UnixSocket

/-- The loop of `send(const std::vector<std::uint8_t>&)`. -/
def sendVectorLoop (buff : Bytes) : List WriteResult → Nat → Nat → Bytes → SendState
  | [], p, left, handed => if left > 0 then .writing p left handed else .returned .ok handed
  | result :: results, p, left, handed =>
    if left > 0 then
      let n := result.ssize left
      if n < 0 then
        if result.isEINTR then sendVectorLoop buff results p left handed
        else .returned (.ofMsg (text "write() failed")) handed
      else if n = 0 then .returned (.ofMsg (text "write() returned 0")) handed
      else sendVectorLoop buff results (p + n.toNat) (left - n.toNat)
        (handed ++ (buff.drop p).take n.toNat)
    else .returned .ok handed

def sendVector (s : UnixSocket) (buff : Bytes) (results : List WriteResult) : SendState :=
  if s.sockFd < 0 then .returned (.ofMsg (text "invalid socket")) []
  else sendVectorLoop buff results 0 buff.length []

/-- The loop of `send(const std::string&)`. -/
def sendStringLoop (str : Bytes) : List WriteResult → Nat → Nat → Bytes → SendState
  | [], p, left, handed => if left > 0 then .writing p left handed else .returned .ok handed
  | result :: results, p, left, handed =>
    if left > 0 then
      let n := result.ssize left
      if n < 0 ∧ result.isEINTR = true then sendStringLoop str results p left handed
      else if n < 0 then .returned (.ofMsg (text "write() failed")) handed
      else if n = 0 then .returned (.ofMsg (text "write() returned 0")) handed
      else sendStringLoop str results (p + n.toNat) (left - n.toNat)
        (handed ++ (str.drop p).take n.toNat)
    else .returned .ok handed

def sendString (s : UnixSocket) (str : Bytes) (results : List WriteResult) : SendState :=
  if s.sockFd < 0 then .returned (.ofMsg (text "invalid socket")) []
  else sendStringLoop str results 0 str.length []

/-! ## The loop over the results -/

section Loop

variable {buff handed : Bytes} {p left : Nat} {results : List WriteResult}

theorem sendStringLoop_eq (buff : Bytes) (results : List WriteResult) (p left : Nat)
    (handed : Bytes) :
    sendStringLoop buff results p left handed = sendVectorLoop buff results p left handed := by
  induction results generalizing p left handed with
  | nil => rfl
  | cons result results ih =>
    unfold sendStringLoop sendVectorLoop
    simp only [ih]
    by_cases hneg : result.ssize left < 0
    · cases result.isEINTR <;> simp [hneg]
    · simp [hneg]

theorem sendString_eq (s : UnixSocket) (buff : Bytes) (results : List WriteResult) :
    s.sendString buff results = s.sendVector buff results := by
  unfold sendString sendVector
  rw [sendStringLoop_eq]

/-- A call that fails returned 0 or was refused, and not interrupted. -/
def Fails : WriteResult → Prop
  | .interrupted => False
  | .failed => True
  | .wrote n => n = 0

theorem loop_done (hleft : left = 0) :
    sendVectorLoop buff results p left handed = .returned .ok handed := by
  subst hleft
  cases results <;> rfl

theorem loop_waits (hleft : 0 < left) :
    sendVectorLoop buff [] p left handed = .writing p left handed := if_pos hleft

theorem loop_interrupted (hleft : 0 < left) :
    sendVectorLoop buff (.interrupted :: results) p left handed =
      sendVectorLoop buff results p left handed := if_pos hleft

/-- The text of the error after a call that fails. -/
def failureText : WriteResult → Bytes
  | .wrote _ => text "write() returned 0"
  | _ => text "write() failed"

theorem loop_fails {result : WriteResult} (hleft : 0 < left) (h : Fails result) :
    sendVectorLoop buff (result :: results) p left handed =
      .returned (.ofMsg (failureText result)) handed := by
  refine (if_pos hleft).trans ?_
  cases result with
  | interrupted => exact absurd h id
  | failed => rfl
  | wrote n =>
    have hnone : (WriteResult.wrote n).ssize left = 0 := by
      have hzero : n = 0 := h
      show ((min n left : Nat) : Int) = 0
      omega
    rw [hnone]
    rfl

theorem loop_wrote {n : Nat} (hleft : 0 < left) (hn : n ≠ 0) :
    sendVectorLoop buff (.wrote n :: results) p left handed =
      sendVectorLoop buff results (p + min n left) (left - min n left)
        (handed ++ (buff.drop p).take (min n left)) := by
  have hnat : (WriteResult.wrote n).ssize left = (min n left : Nat) := rfl
  have hneg : ¬ ((min n left : Nat) : Int) < 0 := by omega
  have hzero : ¬ ((min n left : Nat) : Int) = 0 := by omega
  conv => lhs; unfold sendVectorLoop
  rw [if_pos hleft, hnat]
  dsimp only
  rw [if_neg hneg, if_neg hzero, Int.toNat_natCast]

/-! ## Pointer and count -/

/-- The pointer and the count cut the buffer in two, and what lies before the pointer
has been handed over. -/
def Handing (buff : Bytes) (p left : Nat) (handed : Bytes) : Prop :=
  p + left = buff.length ∧ handed = buff.take p

theorem Handing.wrote (h : Handing buff p left handed) (n : Nat) :
    Handing buff (p + min n left) (left - min n left)
      (handed ++ (buff.drop p).take (min n left)) := by
  obtain ⟨hlength, hhanded⟩ := h
  constructor
  · omega
  · rw [hhanded, List.take_add]

/-- The states a call of `send` can be in. -/
def Delivering (buff : Bytes) : SendState → Prop
  | .writing p left handed => 0 < left ∧ Handing buff p left handed
  | .returned ret handed => (ret = .ok ∧ handed = buff) ∨
      (ret.code = .Error ∧ ∃ p, p < buff.length ∧ handed = buff.take p)

theorem loop_delivering (h : Handing buff p left handed) :
    Delivering buff (sendVectorLoop buff results p left handed) := by
  induction results generalizing p left handed with
  | nil =>
    by_cases hleft : 0 < left
    · rw [loop_waits hleft]
      exact ⟨hleft, h⟩
    · rw [loop_done (by omega)]
      refine Or.inl ⟨rfl, ?_⟩
      rw [h.2, List.take_of_length_le (by have := h.1; omega)]
  | cons result results ih =>
    by_cases hleft : 0 < left
    · by_cases hfails : Fails result
      · rw [loop_fails hleft hfails]
        exact Or.inr ⟨rfl, p, by have := h.1; omega, h.2⟩
      · cases result with
        | interrupted =>
          rw [loop_interrupted hleft]
          exact ih h
        | failed => exact absurd trivial hfails
        | wrote n =>
          rw [loop_wrote hleft hfails]
          exact ih (h.wrote n)
    · rw [loop_done (by omega)]
      refine Or.inl ⟨rfl, ?_⟩
      rw [h.2, List.take_of_length_le (by have := h.1; omega)]

/-- After some results the loop is at its end or goes on from where it stands. -/
theorem loop_append (before after : List WriteResult) :
    sendVectorLoop buff (before ++ after) p left handed =
      match sendVectorLoop buff before p left handed with
      | .writing p' left' handed' => sendVectorLoop buff after p' left' handed'
      | .returned ret handed' => .returned ret handed' := by
  induction before generalizing p left handed with
  | nil =>
    by_cases hleft : 0 < left
    · rw [loop_waits hleft]
      rfl
    · rw [List.nil_append, loop_done (by omega), loop_done (by omega)]
  | cons result before ih =>
    by_cases hleft : 0 < left
    · by_cases hfails : Fails result
      · rw [List.cons_append, loop_fails hleft hfails, loop_fails hleft hfails]
      · cases result with
        | interrupted =>
          rw [List.cons_append, loop_interrupted hleft, loop_interrupted hleft]
          exact ih
        | failed => exact absurd trivial hfails
        | wrote n =>
          rw [List.cons_append, loop_wrote hleft hfails, loop_wrote hleft hfails]
          exact ih
    · rw [loop_done (by omega), loop_done (by omega)]

theorem loop_writing {p' left' : Nat} {handed' : Bytes} (h : Handing buff p left handed)
    (hwriting : sendVectorLoop buff results p left handed = .writing p' left' handed') :
    0 < left' ∧ Handing buff p' left' handed' := by
  have hdelivering := @loop_delivering buff handed p left results h
  rw [hwriting] at hdelivering
  exact hdelivering

/-- An error comes from a call of `write` that failed while bytes were left. -/
theorem loop_error {ret : FunctionReturnVoid} {handed' : Bytes}
    (hreturned : sendVectorLoop buff results p left handed = .returned ret handed')
    (herror : ret.code = .Error) :
    ∃ before result after p' left' handed'', results = before ++ result :: after ∧
      sendVectorLoop buff before p left handed = .writing p' left' handed'' ∧ Fails result := by
  induction results generalizing p left handed with
  | nil =>
    by_cases hleft : 0 < left
    · rw [loop_waits hleft] at hreturned
      cases hreturned
    · rw [loop_done (by omega)] at hreturned
      cases hreturned
      cases herror
  | cons result results ih =>
    by_cases hleft : 0 < left
    · by_cases hfails : Fails result
      · exact ⟨[], result, results, p, left, handed, rfl, loop_waits hleft, hfails⟩
      · cases result with
        | interrupted =>
          rw [loop_interrupted hleft] at hreturned
          obtain ⟨before, bad, after, p', left', handed'', rfl, hbefore, hbad⟩ := ih hreturned
          exact ⟨.interrupted :: before, bad, after, p', left', handed'', rfl,
            (loop_interrupted hleft).trans hbefore, hbad⟩
        | failed => exact absurd trivial hfails
        | wrote n =>
          rw [loop_wrote hleft hfails] at hreturned
          obtain ⟨before, bad, after, p', left', handed'', rfl, hbefore, hbad⟩ := ih hreturned
          exact ⟨.wrote n :: before, bad, after, p', left', handed'', rfl,
            (loop_wrote hleft hfails).trans hbefore, hbad⟩
    · rw [loop_done (by omega)] at hreturned
      cases hreturned
      cases herror

theorem drop_ne_nil (hlength : p + left = buff.length) (hleft : 0 < left) : buff.drop p ≠ [] := by
  rw [ne_eq, List.drop_eq_nil_iff]
  omega

theorem take_written (hlength : p + left = buff.length) (n : Nat) :
    (buff.drop p).take (min n left) = (buff.drop p).take n := by
  have hrest : (buff.drop p).length = left := by
    rw [List.length_drop]
    omega
  rw [← hrest, List.take_eq_take_min (i := n)]

theorem drop_written (hlength : p + left = buff.length) (n : Nat) :
    buff.drop (p + min n left) = (buff.drop p).drop n := by
  rw [List.drop_drop]
  by_cases hle : n ≤ left
  · rw [Nat.min_eq_left hle]
  · rw [List.drop_eq_nil_of_le (by omega), List.drop_eq_nil_of_le (by omega)]

/-- The loop with its pointer does what the loop over the bytes left does. -/
theorem loop_result (hlength : p + left = buff.length) :
    (sendVectorLoop buff results p left handed).result =
      (writeLeft results (buff.drop p)).map fun r => (r.1, handed ++ r.2) := by
  induction results generalizing p left handed with
  | nil =>
    unfold writeLeft
    by_cases hleft : 0 < left
    · rw [loop_waits hleft, if_neg (drop_ne_nil hlength hleft)]
      rfl
    · rw [loop_done (by omega), if_pos (List.drop_eq_nil_of_le (by omega))]
      simp [SendState.result, Except.map]
  | cons result results ih =>
    unfold writeLeft
    by_cases hleft : 0 < left
    · rw [if_neg (drop_ne_nil hlength hleft)]
      cases result with
      | interrupted =>
        rw [loop_interrupted hleft]
        exact ih hlength
      | failed =>
        have hfails : Fails .failed := trivial
        rw [loop_fails hleft hfails]
        simp [SendState.result, Except.map, failureText]
      | wrote n =>
        by_cases hn : n = 0
        · subst hn
          have hfails : Fails (.wrote 0) := rfl
          rw [loop_fails hleft hfails]
          simp [SendState.result, Except.map, failureText]
        · rw [loop_wrote hleft hn, ih (by omega), take_written hlength, drop_written hlength]
          cases n with
          | zero => exact absurd rfl hn
          | succ n =>
            show _ = Except.map _ (writeLeft results ((buff.drop p).drop (n + 1)) >>= _)
            cases writeLeft results ((buff.drop p).drop (n + 1)) with
            | error e => rfl
            | ok r =>
              exact congrArg (fun l => Except.ok (r.1, l)) (List.append_assoc _ _ _)
    · rw [loop_done (by omega), if_pos (List.drop_eq_nil_of_le (by omega))]
      simp [SendState.result, Except.map]

end Loop

/-! ## When a call ends well -/

section Taking

variable {results : List WriteResult} {n : Nat}

/-- The calls of `write` take `n` bytes before one of them fails. -/
def Takes (results : List WriteResult) (n : Nat) : Prop :=
  ∃ before after, results = before ++ after ∧ (∀ result ∈ before, ¬ Fails result) ∧
    n ≤ WriteResult.takenAll before

theorem takes_zero : Takes results 0 :=
  ⟨[], results, rfl, fun _ h => absurd h List.not_mem_nil, Nat.le_refl 0⟩

theorem takes_nil : Takes [] n ↔ n = 0 := by
  constructor
  · intro h
    obtain ⟨before, after, hsplit, -, hn⟩ := h
    rw [(List.append_eq_nil_iff.mp hsplit.symm).1] at hn
    exact Nat.le_zero.mp hn
  · intro h
    rw [h]
    exact takes_zero

theorem takes_cons {result : WriteResult} (h : ¬ Fails result) :
    Takes (result :: results) n ↔ Takes results (n - result.taken) := by
  constructor
  · intro htakes
    obtain ⟨before, after, hsplit, hall, hn⟩ := htakes
    cases before with
    | nil =>
      rw [Nat.le_zero.mp hn, Nat.zero_sub]
      exact takes_zero
    | cons first before =>
      obtain ⟨rfl, rfl⟩ := List.cons.inj hsplit
      unfold WriteResult.takenAll at hn
      exact ⟨before, after, rfl, fun r hr => hall r (List.mem_cons_of_mem result hr), by omega⟩
  · intro htakes
    obtain ⟨before, after, rfl, hall, hn⟩ := htakes
    refine ⟨result :: before, after, rfl, List.forall_mem_cons.mpr ⟨h, hall⟩, ?_⟩
    unfold WriteResult.takenAll
    omega

theorem takes_fails {result : WriteResult} (h : Fails result) :
    Takes (result :: results) n ↔ n = 0 := by
  constructor
  · intro htakes
    obtain ⟨before, after, hsplit, hall, hn⟩ := htakes
    cases before with
    | nil => exact Nat.le_zero.mp hn
    | cons first before =>
      rw [(List.cons.inj hsplit).1] at h
      exact absurd h (hall first List.mem_cons_self)
  · intro hn
    rw [hn]
    exact takes_zero

theorem writeLeft_nil (results : List WriteResult) : writeLeft results [] = .ok (.ok, []) := by
  cases results <;> rfl

/-- The loop ends well exactly if `write` takes all that is left. -/
theorem writeLeft_isOk_iff {left : Bytes} :
    (∃ ret handed, writeLeft results left = .ok (ret, handed) ∧ ret.isOk = true) ↔
      Takes results left.length := by
  induction results generalizing left with
  | nil =>
    by_cases hleft : left = []
    · rw [hleft]
      exact iff_of_true ⟨.ok, [], rfl, rfl⟩ takes_zero
    · unfold writeLeft
      rw [if_neg hleft, takes_nil, List.length_eq_zero_iff]
      exact iff_of_false (fun h => by obtain ⟨_, _, ⟨⟩, -⟩ := h) hleft
  | cons result results ih =>
    by_cases hleft : left = []
    · rw [hleft]
      exact iff_of_true ⟨.ok, [], writeLeft_nil _, rfl⟩ takes_zero
    by_cases hfails : Fails result
    · rw [takes_fails hfails, List.length_eq_zero_iff]
      refine iff_of_false (fun h => ?_) hleft
      obtain ⟨ret, handed, hrun, hok⟩ := h
      unfold writeLeft at hrun
      rw [if_neg hleft] at hrun
      cases result with
      | interrupted => exact hfails
      | failed =>
        cases hrun
        cases hok
      | wrote n =>
        obtain rfl : n = 0 := hfails
        cases hrun
        cases hok
    · rw [takes_cons hfails]
      unfold writeLeft
      rw [if_neg hleft]
      cases result with
      | interrupted => exact ih
      | failed => exact absurd trivial hfails
      | wrote n =>
        rw [show (WriteResult.wrote n).taken = n from rfl, ← List.length_drop, ← ih]
        cases n with
        | zero => exact absurd rfl hfails
        | succ n =>
          constructor
          · intro h
            obtain ⟨ret, handed, hrun, hok⟩ := h
            obtain ⟨r, hleft, hrun⟩ := Fallible.bind_eq_ok.mp hrun
            cases hrun
            exact ⟨_, _, hleft, hok⟩
          · intro h
            obtain ⟨ret, handed, hrun, hok⟩ := h
            exact ⟨ret, _, Fallible.bind_eq_ok.mpr ⟨_, hrun, rfl⟩, hok⟩

theorem send_isOk_iff {s : UnixSocket} (h : 0 ≤ s.sockFd) {buff : Bytes} :
    (∃ ret handed, s.send buff results = .ok (ret, handed) ∧ ret.isOk = true) ↔
      Takes results buff.length := by
  unfold send
  rw [if_neg (Int.not_lt.mpr h)]
  exact writeLeft_isOk_iff

end Taking

/-! ## The calls -/

section Calls

variable {s : UnixSocket} {buff : Bytes} {results : List WriteResult}

theorem send_result (s : UnixSocket) (buff : Bytes) (results : List WriteResult) :
    (s.sendVector buff results).result = s.send buff results := by
  unfold sendVector send
  by_cases hfd : s.sockFd < 0
  · rw [if_pos hfd, if_pos hfd]
    rfl
  · rw [if_neg hfd, if_neg hfd, loop_result (by omega), List.drop_zero]
    cases writeLeft results buff <;> rfl

theorem sendVector_valid (h : 0 ≤ s.sockFd) (results : List WriteResult) :
    s.sendVector buff results = sendVectorLoop buff results 0 buff.length [] :=
  if_neg (by omega)

theorem handing_start (buff : Bytes) : Handing buff 0 buff.length [] :=
  ⟨by omega, rfl⟩

/-- `send` has handed over the beginning of the buffer up to its pointer. -/
theorem sendVector_delivering (h : 0 ≤ s.sockFd) (buff : Bytes) (results : List WriteResult) :
    Delivering buff (s.sendVector buff results) := by
  rw [sendVector_valid h]
  exact loop_delivering (handing_start buff)

theorem Delivering.handed_isPrefix {state : SendState} (h : Delivering buff state) :
    state.handed <+: buff := by
  cases state with
  | writing p left handed =>
    show handed <+: buff
    rw [h.2.2]
    exact List.take_prefix p buff
  | returned ret handed =>
    show handed <+: buff
    rcases h with ⟨-, rfl⟩ | ⟨-, p, -, rfl⟩
    · exact List.prefix_rfl
    · exact List.take_prefix p buff

theorem Delivering.isOk_iff {ret : FunctionReturnVoid} {handed : Bytes}
    (h : Delivering buff (.returned ret handed)) : ret.isOk = true ↔ handed = buff := by
  rcases h with ⟨rfl, rfl⟩ | ⟨herror, p, hp, rfl⟩
  · exact iff_of_true rfl rfl
  · refine iff_of_false (fun hok => ?_) fun heq => ?_
    · unfold FunctionReturnVoid.isOk at hok
      rw [herror] at hok
      cases hok
    · have hlength := congrArg List.length heq
      rw [List.length_take] at hlength
      omega

theorem sendVector_error_iff (h : 0 ≤ s.sockFd) {ret : FunctionReturnVoid} {handed : Bytes}
    (hreturned : s.sendVector buff results = .returned ret handed) :
    ret.code = .Error ↔ ∃ before result after p left handed',
      results = before ++ result :: after ∧ s.sendVector buff before = .writing p left handed' ∧
        0 < left ∧ Fails result := by
  simp only [sendVector_valid h] at hreturned ⊢
  constructor
  · intro herror
    obtain ⟨before, result, after, p, left, handed', hsplit, hbefore, hfails⟩ :=
      loop_error hreturned herror
    exact ⟨before, result, after, p, left, handed', hsplit, hbefore,
      (loop_writing (handing_start buff) hbefore).1, hfails⟩
  · intro hex
    obtain ⟨before, result, after, p, left, handed', rfl, hbefore, hleft, hfails⟩ := hex
    rw [loop_append, hbefore] at hreturned
    dsimp only at hreturned
    rw [loop_fails hleft hfails] at hreturned
    cases hreturned
    rfl

theorem sendVector_interrupted (h : 0 ≤ s.sockFd) (buff : Bytes) (before after : List WriteResult) :
    s.sendVector buff (before ++ .interrupted :: after) = s.sendVector buff (before ++ after) := by
  rw [sendVector_valid h, sendVector_valid h, loop_append, loop_append before after]
  cases hbefore : sendVectorLoop buff before 0 buff.length [] with
  | writing p left handed =>
    exact loop_interrupted (loop_writing (handing_start buff) hbefore).1
  | returned ret handed => rfl

/-- Both overloads, after any results of `write`. -/
theorem send_delivers (h : 0 ≤ s.sockFd) (buff : Bytes) (results : List WriteResult) :
    s.sendString buff results = s.sendVector buff results ∧
      (s.sendVector buff results).handed <+: buff ∧
      (∀ p left handed, s.sendVector buff results = .writing p left handed →
        p + left = buff.length ∧ handed = buff.take p) ∧
      (∀ ret handed, s.sendVector buff results = .returned ret handed →
        (ret.isOk = true ↔ handed = buff) ∧
        (ret.code = .Error ↔ ∃ before result after p left handed',
          results = before ++ result :: after ∧
            s.sendVector buff before = .writing p left handed' ∧ 0 < left ∧ Fails result)) ∧
      ∀ before after, results = before ++ .interrupted :: after →
        s.sendVector buff results = s.sendVector buff (before ++ after) := by
  have hdelivering := sendVector_delivering h buff results
  refine ⟨sendString_eq s buff results, hdelivering.handed_isPrefix, fun p left handed hwriting => ?_,
    fun ret handed hreturned => ⟨?_, sendVector_error_iff h hreturned⟩,
    fun before after hsplit => ?_⟩
  · rw [hwriting] at hdelivering
    exact hdelivering.2
  · rw [hreturned] at hdelivering
    exact hdelivering.isOk_iff
  · rw [hsplit]
    exact sendVector_interrupted h buff before after

/-- Two short writes and an interruption between them. -/
theorem send_delivers_short :
    (⟨6, [], false⟩ : UnixSocket).sendVector [1, 2, 3] [.wrote 2, .interrupted, .wrote 1] =
        .returned .ok [1, 2, 3] ∧
      ((⟨6, [], false⟩ : UnixSocket).sendVector [1, 2, 3]
        [.wrote 2, .interrupted, .wrote 1]).handed <+: [1, 2, 3] := by
  have hvalid : (0 : Int) ≤ (⟨6, [], false⟩ : UnixSocket).sockFd := by decide
  exact ⟨rfl, (send_delivers hvalid [1, 2, 3] [.wrote 2, .interrupted, .wrote 1]).2.1⟩

end Calls

end UnixSocket

end NeighborDiscovery
