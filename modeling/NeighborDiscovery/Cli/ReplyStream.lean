/-
The daemon's reply on its way to the command line program.

The stream hands the reply over in pieces of any size.  The program decodes the
bytes of its first read that brings any.  So it never shows a wrong list, since no
beginning of a message decodes, and it shows the list exactly if one read brings
the whole of it.
-/
import NeighborDiscovery.Cli.CppCliNeighborRequestor
import NeighborDiscovery.Network.Truncation
import NeighborDiscovery.Unix.Sending

namespace NeighborDiscovery

/-! ## Parts of `main` -/

namespace Cli

variable {α β : Type}

theorem bind_eq_ok {x : Cli α} {f : α → Cli β} {b : β} :
    (x >>= f).run = .ok (.ok b) ↔ ∃ a, x.run = .ok (.ok a) ∧ (f a).run = .ok (.ok b) := by
  show ExceptT.bind x f = _ ↔ _
  constructor
  · intro h
    obtain ⟨r, hx, hf⟩ := Fallible.bind_eq_ok.mp h
    cases r with
    | error line => cases hf
    | ok a => exact ⟨a, hx, hf⟩
  · intro h
    obtain ⟨a, hx, hf⟩ := h
    exact Fallible.bind_eq_ok.mpr ⟨.ok a, hx, hf⟩

theorem lift_eq_ok {x : Except Fault α} {a : α} :
    (liftM x : Cli α).run = .ok (.ok a) ↔ x = .ok a := by
  cases x with
  | error e =>
    constructor
    · intro h
      cases h
    · intro h
      cases h
  | ok b =>
    constructor
    · intro h
      cases h
      rfl
    · intro h
      cases h
      rfl

/-- Every fault of a part of `main` is one of `P`. -/
def FaultsIn (P : Fault → Prop) (x : Cli α) : Prop := ∀ e, x.run = .error e → P e

variable {P : Fault → Prop}

theorem faultsIn_bind {x : Cli α} {f : α → Cli β} (hx : x.FaultsIn P)
    (hf : ∀ a, x.run = .ok (.ok a) → (f a).FaultsIn P) : (x >>= f).FaultsIn P := by
  intro e h
  have h : (x.run >>= ExceptT.bindCont f) = .error e := h
  rcases Fallible.bind_eq_error.mp h with hrun | ⟨r, hrun, h⟩
  · exact hx e hrun
  · cases r with
    | error line => cases h
    | ok a => exact hf a hrun e h

theorem faultsIn_lift {x : Except Fault α} (h : ∀ e, x = .error e → P e) :
    (liftM x : Cli α).FaultsIn P := by
  intro e hrun
  cases x with
  | error e' =>
    cases hrun
    exact h e rfl
  | ok a => cases hrun

theorem faultsIn_pure (a : α) : (pure a : Cli α).FaultsIn P := fun e h => by cases h

/-- Leaving `main` with the message of a call that has one is no fault. -/
theorem faultsIn_quit {before : Bytes} {msg : Option Bytes} (h : ∃ m, msg = some m) :
    (quit before msg : Cli α).FaultsIn P := by
  obtain ⟨m, rfl⟩ := h
  exact fun e hrun => by cases hrun

end Cli

theorem UnixSocket.clientFactory_explained {calls : ClientCalls} :
    (UnixSocket.clientFactory calls).isOk = true ∨ ∃ m, (UnixSocket.clientFactory calls).msg = some m := by
  unfold UnixSocket.clientFactory
  split
  · exact Or.inr ⟨_, rfl⟩
  · split
    · exact Or.inr ⟨_, rfl⟩
    · exact Or.inl rfl

section Faults

variable {host : Host} {P : Fault → Prop} {calls : CliCalls}

theorem value_of_isOk {T : Type} {r : FunctionReturn T} (h : r.isOk = true) {e : Fault} :
    value r.data ≠ .error e := by
  obtain ⟨x, hx⟩ := data_of_isOk h
  rw [hx]
  intro hval
  cases hval

theorem openClient_faultsIn : (openClient calls).FaultsIn P := by
  unfold openClient
  dsimp only
  by_cases hok : (UnixSocket.clientFactory calls.client).isOk = true
  · rw [hok]
    exact Cli.faultsIn_lift fun e he => absurd he (value_of_isOk hok)
  · rw [Bool.eq_false_iff.mpr hok]
    exact Cli.faultsIn_quit (UnixSocket.clientFactory_explained.resolve_left hok)

theorem sendRequest_faultsIn (hwait : P .waiting) {client : UnixSocket} :
    (sendRequest calls client).FaultsIn P := by
  unfold sendRequest
  refine Cli.faultsIn_bind (Cli.faultsIn_lift fun e he => ?_) fun r hr => ?_
  · rw [UnixSocket.send_fault he]
    exact hwait
  · obtain ⟨sendReturn, handed⟩ := r
    have hexplained := UnixSocket.send_explained (Cli.lift_eq_ok.mp hr)
    dsimp only
    by_cases hok : sendReturn.isOk = true
    · rw [hok]
      exact Cli.faultsIn_pure ()
    · rw [Bool.eq_false_iff.mpr hok]
      exact Cli.faultsIn_quit (hexplained (Bool.eq_false_iff.mpr hok))

theorem receiveReply_faultsIn (hwait : P .waiting) {client : UnixSocket} {start : Int}
    {rounds : List Round} : (receiveReply client start rounds).FaultsIn P := by
  induction rounds with
  | nil =>
    refine Cli.faultsIn_lift fun e he => ?_
    cases he
    exact hwait
  | cons round rounds ih =>
    unfold receiveReply
    refine Cli.faultsIn_bind (Cli.faultsIn_lift fun e he => ?_) fun r hr => ?_
    · rw [UnixSocket.receive_fault he]
      exact hwait
    · obtain ⟨receiveReturn, rbuff⟩ := r
      have hexplained := UnixSocket.receive_explained (Cli.lift_eq_ok.mp hr)
      dsimp only
      by_cases hok : receiveReturn.isOk = true
      · rw [hok]
        by_cases hlen : rbuff.length > 0
        · rw [if_neg (by decide), if_pos hlen]
          exact Cli.faultsIn_pure rbuff
        · rw [if_neg (by decide), if_neg hlen]
          by_cases htime : withinWaitTime start round.now = true
          · rw [if_pos htime]
            exact ih
          · rw [if_neg htime]
            exact fun e he => by cases he
      · rw [Bool.eq_false_iff.mpr hok]
        exact Cli.faultsIn_quit (hexplained (Bool.eq_false_iff.mpr hok))

theorem decodeReply_faultsIn {buff : Bytes} (hdecode : ∀ e, decode host buff = .error e → P e) :
    (decodeReply host buff).FaultsIn P := by
  unfold decodeReply
  refine Cli.faultsIn_bind (Cli.faultsIn_lift hdecode) fun desReturn hr => ?_
  by_cases hok : desReturn.isOk = true
  · rw [hok]
    exact Cli.faultsIn_lift fun e he => absurd he (value_of_isOk hok)
  · rw [Bool.eq_false_iff.mpr hok]
    obtain ⟨o, hrun⟩ := decode_eq_ok.mp (Cli.lift_eq_ok.mp hr)
    exact Cli.faultsIn_quit
      ((netInterfaces_failsWithMsg host.order host.lim buff 0 desReturn o hrun).resolve_left hok)

/-- Beside waiting, only the decoder brings `main` down before it prints. -/
theorem requestNeighbors_faultsIn (hwait : P .waiting)
    (hdecode : ∀ client buff,
      (receiveReply client calls.start calls.rounds).run = .ok (.ok buff) →
        ∀ e, decode host buff = .error e → P e) :
    (requestNeighbors host calls).FaultsIn P := by
  refine Cli.faultsIn_bind openClient_faultsIn fun client _ =>
    Cli.faultsIn_bind (sendRequest_faultsIn hwait) fun _ _ =>
      Cli.faultsIn_bind (receiveReply_faultsIn hwait) fun buff hbuff => ?_
  exact decodeReply_faultsIn (hdecode client buff hbuff)

end Faults

/-! ## The stream -/

/-- What the round's call of `receive` ends with. -/
def Round.result (round : Round) : Option ReceiveResult := round.reads.find? (· ≠ .interrupted)

/-- The reads of the rounds take their bytes from the front of a stream. -/
def Delivers : Bytes → List Round → Prop
  | _, [] => True
  | left, round :: rounds =>
    match round.result with
    | some (.read pending) => pending <+: left ∧
        Delivers (left.drop (min SINGLE_MESSAGE_MAX_SIZE_BYTES pending.length)) rounds
    | _ => Delivers left rounds

/-- A call of `receive` that succeeds has taken what the round's result brought. -/
theorem receive_result {client : UnixSocket} {round : Round} {ret : FunctionReturnVoid}
    {rbuff : Bytes}
    (h : client.receive SINGLE_MESSAGE_MAX_SIZE_BYTES round.reads = .ok (ret, rbuff))
    (hok : ret.isOk = true) : (round.result = some .wouldBlock ∧ rbuff = []) ∨
      ∃ pending, round.result = some (.read pending) ∧
        rbuff = pending.take SINGLE_MESSAGE_MAX_SIZE_BYTES := by
  unfold UnixSocket.receive at h
  split at h
  · cases h
    cases hok
  · exact UnixSocket.readBuffer_pending h hok

theorem Cli.quit_ne_ok {α : Type} {before : Bytes} {msg : Option Bytes} {a : α} :
    (Cli.quit before msg : Cli α).run ≠ .ok (.ok a) := by
  intro h
  cases msg with
  | none => cases h
  | some m => cases h

theorem take_message_eq_nil {pending : Bytes} :
    pending.take SINGLE_MESSAGE_MAX_SIZE_BYTES = [] ↔ pending = [] :=
  List.take_eq_nil_iff.trans (or_iff_right (by decide))

/-- The round reads nothing, and the waiting time is not over at its end. -/
def Round.Waits (start : Int) (round : Round) : Prop :=
  (round.result = some .wouldBlock ∨ round.result = some (.read [])) ∧
    withinWaitTime start round.now = true

/-- A loop that ends with a buffer has read it in its first round or waited through that. -/
theorem receiveReply_cons {client : UnixSocket} {start : Int} {round : Round}
    {rounds : List Round} {buff : Bytes}
    (h : (receiveReply client start (round :: rounds)).run = .ok (.ok buff)) :
    (∃ pending, round.result = some (.read pending) ∧ pending ≠ [] ∧
      buff = pending.take SINGLE_MESSAGE_MAX_SIZE_BYTES) ∨
    (round.Waits start ∧ (receiveReply client start rounds).run = .ok (.ok buff)) := by
  unfold receiveReply at h
  obtain ⟨⟨receiveReturn, rbuff⟩, hreceive, h⟩ := Cli.bind_eq_ok.mp h
  dsimp only at h
  by_cases hok : receiveReturn.isOk = true
  · rw [hok, if_neg (by decide)] at h
    have hresult := receive_result (Cli.lift_eq_ok.mp hreceive) hok
    by_cases hlen : rbuff.length > 0
    · rw [if_pos hlen] at h
      cases h
      rcases hresult with ⟨-, rfl⟩ | ⟨pending, hread, rfl⟩
      · exact absurd hlen (Nat.lt_irrefl 0)
      · exact Or.inl ⟨pending, hread,
          fun hnil => List.ne_nil_of_length_pos hlen (take_message_eq_nil.mpr hnil), rfl⟩
    · rw [if_neg hlen] at h
      have hnone : rbuff = [] := List.eq_nil_of_length_eq_zero (by omega)
      by_cases hwithin : withinWaitTime start round.now = true
      · rw [if_pos hwithin] at h
        refine Or.inr ⟨⟨?_, hwithin⟩, h⟩
        rcases hresult with ⟨hblock, -⟩ | ⟨pending, hread, hbuff⟩
        · exact Or.inl hblock
        · rw [take_message_eq_nil.mp (hbuff.symm.trans hnone)] at hread
          exact Or.inr hread
      · rw [if_neg hwithin] at h
        cases h
  · rw [Bool.eq_false_iff.mpr hok] at h
    exact absurd h Cli.quit_ne_ok

theorem receiveReply_beginning {client : UnixSocket} {start : Int} {rounds : List Round}
    {left buff : Bytes} (hdelivers : Delivers left rounds)
    (h : (receiveReply client start rounds).run = .ok (.ok buff)) : buff <+: left := by
  induction rounds with
  | nil => cases h
  | cons round rounds ih =>
    unfold Delivers at hdelivers
    rcases receiveReply_cons h with ⟨pending, hread, -, rfl⟩ | ⟨⟨hblock | hread, -⟩, hrest⟩
    · rw [hread] at hdelivers
      exact (List.take_prefix _ _).trans hdelivers.1
    · rw [hblock] at hdelivers
      exact ih hdelivers hrest
    · -- Nothing was read, so the stream is where it was.
      rw [hread] at hdelivers
      exact ih hdelivers.2 hrest

/-! ## A small reply -/

namespace Small

def reply : Bytes := serializeNetInterfaces host.order [] [bare]

def brings (chunk : Bytes) : Round := ⟨[.interrupted, .read chunk], 1⟩

def cliCalls (chunks : List Bytes) : CliCalls where
  client := ⟨some 3, true⟩
  writes := [.wrote 7]
  start := 0
  rounds := chunks.map brings
  interfaces := .ok (.ofCodeData .Ok [bare])

end Small

/-! ## Messages that are cut off -/

section Cut

variable {host : Host} {xs : List NetInterface}

theorem decodeReply_ok {buff : Bytes} {ys : List NetInterface} :
    (decodeReply host buff).run = .ok (.ok ys) ↔ Decodes host buff ys := by
  unfold decodeReply Decodes
  rw [Cli.bind_eq_ok]
  refine exists_congr fun r => ?_
  rw [Cli.lift_eq_ok]
  refine and_congr_right fun _ => ?_
  by_cases hok : r.isOk = true
  · rw [hok, if_neg (by decide), Cli.lift_eq_ok, value_eq_ok]
    exact ⟨fun h => ⟨rfl, h⟩, fun h => h.2⟩
  · rw [Bool.eq_false_iff.mpr hok, if_pos (by decide)]
    exact ⟨fun h => absurd h Cli.quit_ne_ok, fun h => absurd h.1 (by decide)⟩

theorem requestNeighbors_ok {calls : CliCalls} {ys : List NetInterface} :
    (requestNeighbors host calls).run = .ok (.ok ys) ↔ ∃ client buff,
      (openClient calls).run = .ok (.ok client) ∧
      (sendRequest calls client).run = .ok (.ok ()) ∧
      (receiveReply client calls.start calls.rounds).run = .ok (.ok buff) ∧
      Decodes host buff ys := by
  unfold requestNeighbors
  simp only [Cli.bind_eq_ok, decodeReply_ok]
  constructor
  · intro h
    obtain ⟨client, hopen, ⟨⟩, hsend, buff, hreceive, hdecodes⟩ := h
    exact ⟨client, buff, hopen, hsend, hreceive, hdecodes⟩
  · intro h
    obtain ⟨client, buff, hopen, hsend, hreceive, hdecodes⟩ := h
    exact ⟨client, hopen, (), hsend, buff, hreceive, hdecodes⟩

/-! ### What the calls of `main` have to bring -/

/-- After rounds that read nothing, one finds `pending` in the socket. -/
def ReadsFirst (start : Int) (rounds : List Round) (pending : Bytes) : Prop :=
  ∃ before round after, rounds = before ++ round :: after ∧ (∀ r ∈ before, r.Waits start) ∧
    round.result = some (.read pending)

theorem not_readsFirst_nil {start : Int} {pending : Bytes} : ¬ ReadsFirst start [] pending := by
  intro h
  obtain ⟨before, round, after, hsplit, -⟩ := h
  simp at hsplit

theorem readsFirst_cons {start : Int} {round : Round} {rounds : List Round} {pending : Bytes} :
    ReadsFirst start (round :: rounds) pending ↔
      round.result = some (.read pending) ∨
        (round.Waits start ∧ ReadsFirst start rounds pending) := by
  constructor
  · intro h
    obtain ⟨before, first, after, hsplit, hwaits, hread⟩ := h
    cases before with
    | nil =>
      obtain ⟨rfl, rfl⟩ := List.cons.inj hsplit
      exact Or.inl hread
    | cons r before =>
      obtain ⟨rfl, rfl⟩ := List.cons.inj hsplit
      obtain ⟨hround, hbefore⟩ := List.forall_mem_cons.mp hwaits
      exact Or.inr ⟨hround, before, first, after, rfl, hbefore, hread⟩
  · intro h
    rcases h with hread | ⟨hround, before, first, after, rfl, hbefore, hread⟩
    · exact ⟨[], round, rounds, rfl, fun _ h => absurd h List.not_mem_nil, hread⟩
    · exact ⟨round :: before, first, after, rfl, List.forall_mem_cons.mpr ⟨hround, hbefore⟩, hread⟩

theorem receive_finds {client : UnixSocket} (hfd : 0 ≤ client.sockFd) {round : Round}
    {pending : Bytes} (h : round.result = some (.read pending)) :
    client.receive SINGLE_MESSAGE_MAX_SIZE_BYTES round.reads =
      .ok (.ok, pending.take SINGLE_MESSAGE_MAX_SIZE_BYTES) := by
  rw [UnixSocket.receive, if_neg (Int.not_lt.mpr hfd), UnixSocket.readBuffer_eq,
    show round.reads.find? (· ≠ .interrupted) = _ from h]

theorem receive_blocks {client : UnixSocket} (hfd : 0 ≤ client.sockFd) {round : Round}
    (h : round.result = some .wouldBlock) :
    client.receive SINGLE_MESSAGE_MAX_SIZE_BYTES round.reads = .ok (.ok, []) := by
  rw [UnixSocket.receive, if_neg (Int.not_lt.mpr hfd), UnixSocket.readBuffer_eq,
    show round.reads.find? (· ≠ .interrupted) = _ from h]

theorem Round.Waits.receive {client : UnixSocket} (hfd : 0 ≤ client.sockFd) {start : Int}
    {round : Round} (h : round.Waits start) :
    client.receive SINGLE_MESSAGE_MAX_SIZE_BYTES round.reads = .ok (.ok, []) := by
  rcases h.1 with hblock | hread
  · exact receive_blocks hfd hblock
  · exact receive_finds hfd hread

/-- The buffer of the loop holds the first bytes that a round finds. -/
theorem receiveReply_ok_iff {client : UnixSocket} (hfd : 0 ≤ client.sockFd) {start : Int}
    {rounds : List Round} {buff : Bytes} :
    (receiveReply client start rounds).run = .ok (.ok buff) ↔ ∃ pending,
      ReadsFirst start rounds pending ∧ pending ≠ [] ∧
        buff = pending.take SINGLE_MESSAGE_MAX_SIZE_BYTES := by
  constructor
  · intro h
    induction rounds with
    | nil => cases h
    | cons round rounds ih =>
      rcases receiveReply_cons h with ⟨pending, hread, hne, hbuff⟩ | ⟨hwaits, hrest⟩
      · exact ⟨pending, readsFirst_cons.mpr (Or.inl hread), hne, hbuff⟩
      · obtain ⟨pending, hfirst, hne, hbuff⟩ := ih hrest
        exact ⟨pending, readsFirst_cons.mpr (Or.inr ⟨hwaits, hfirst⟩), hne, hbuff⟩
  · intro h
    obtain ⟨pending, hfirst, hne, rfl⟩ := h
    have hpos : (pending.take SINGLE_MESSAGE_MAX_SIZE_BYTES).length > 0 :=
      List.length_pos_of_ne_nil fun h => hne (take_message_eq_nil.mp h)
    induction rounds with
    | nil => exact absurd hfirst not_readsFirst_nil
    | cons round rounds ih =>
      unfold receiveReply
      rcases readsFirst_cons.mp hfirst with hread | ⟨hwaits, hrest⟩
      · refine Cli.bind_eq_ok.mpr ⟨_, Cli.lift_eq_ok.mpr (receive_finds hfd hread), ?_⟩
        show (if (pending.take SINGLE_MESSAGE_MAX_SIZE_BYTES).length > 0 then pure _ else _ :
          Cli Bytes).run = _
        rw [if_pos hpos]
        rfl
      · refine Cli.bind_eq_ok.mpr ⟨_, Cli.lift_eq_ok.mpr (hwaits.receive hfd), ?_⟩
        show (if withinWaitTime start round.now = true then receiveReply client start rounds
          else throw (text "Couldn't receive data from daemon")).run = _
        rw [if_pos hwaits.2]
        exact ih hrest

theorem openClient_ok_iff {calls : CliCalls} {client : UnixSocket} :
    (openClient calls).run = .ok (.ok client) ↔
      ∃ fd : Nat, calls.client = ⟨some fd, true⟩ ∧ client = ⟨fd, [], false⟩ := by
  unfold openClient UnixSocket.clientFactory
  obtain ⟨socket, connect⟩ := calls.client
  cases socket with
  | none => exact iff_of_false (fun h => by cases h) fun h => by obtain ⟨_, ⟨⟩, -⟩ := h
  | some fd =>
    cases connect with
    | false => exact iff_of_false (fun h => by cases h) fun h => by obtain ⟨_, ⟨⟩, -⟩ := h
    | true =>
      constructor
      · intro h
        cases h
        exact ⟨fd, rfl, rfl⟩
      · intro h
        obtain ⟨_, ⟨⟩, rfl⟩ := h
        rfl

theorem sendRequest_ok_iff {calls : CliCalls} {client : UnixSocket} (hfd : 0 ≤ client.sockFd) :
    (sendRequest calls client).run = .ok (.ok ()) ↔
      UnixSocket.Takes calls.writes UNIX_DOMAIN_REQUEST_COMMAND.length := by
  rw [← UnixSocket.send_isOk_iff hfd]
  unfold sendRequest
  rw [Cli.bind_eq_ok]
  constructor
  · intro h
    obtain ⟨⟨ret, handed⟩, hsend, h⟩ := h
    refine ⟨ret, handed, Cli.lift_eq_ok.mp hsend, ?_⟩
    by_contra hfailed
    dsimp only at h
    rw [Bool.eq_false_iff.mpr hfailed] at h
    exact Cli.quit_ne_ok h
  · intro h
    obtain ⟨ret, handed, hsend, hok⟩ := h
    refine ⟨(ret, handed), Cli.lift_eq_ok.mpr hsend, ?_⟩
    dsimp only
    rw [hok]
    rfl

/-- The program is connected, `write` takes its request, and the first bytes that it reads
within its waiting time are those of a list. -/
structure Obtains (host : Host) (calls : CliCalls) (ys : List NetInterface) : Prop where
  client : ∃ fd, calls.client = ⟨some fd, true⟩
  request : UnixSocket.Takes calls.writes UNIX_DOMAIN_REQUEST_COMMAND.length
  reply : ∃ pending, ReadsFirst calls.start calls.rounds pending ∧ pending ≠ [] ∧
    Decodes host (pending.take SINGLE_MESSAGE_MAX_SIZE_BYTES) ys

theorem requestNeighbors_ok_iff {calls : CliCalls} {ys : List NetInterface} :
    (requestNeighbors host calls).run = .ok (.ok ys) ↔ Obtains host calls ys := by
  rw [requestNeighbors_ok]
  constructor
  · intro h
    obtain ⟨client, buff, hopen, hsend, hreceive, hdecodes⟩ := h
    obtain ⟨fd, hclient, rfl⟩ := openClient_ok_iff.mp hopen
    have hfd : (0 : Int) ≤ fd := Int.natCast_nonneg fd
    obtain ⟨pending, hfirst, hne, rfl⟩ := (receiveReply_ok_iff hfd).mp hreceive
    exact ⟨⟨fd, hclient⟩, (sendRequest_ok_iff hfd).mp hsend, pending, hfirst, hne, hdecodes⟩
  · intro h
    obtain ⟨⟨fd, hclient⟩, hrequest, pending, hfirst, hne, hdecodes⟩ := h
    have hfd : (0 : Int) ≤ fd := Int.natCast_nonneg fd
    exact ⟨⟨fd, [], false⟩, _, openClient_ok_iff.mpr ⟨fd, hclient, rfl⟩,
      (sendRequest_ok_iff hfd).mpr hrequest,
      (receiveReply_ok_iff hfd).mpr ⟨pending, hfirst, hne, rfl⟩, hdecodes⟩

/-- A beginning of a message decodes to the list of the message or to none. -/
theorem decodes_beginning (hfit : Representable host.lim xs)
    (hlen : (announcement host xs).length < 2 ^ 63) {p : Bytes} (hp : p <+: announcement host xs)
    {ys : List NetInterface} (h : Decodes host p ys) : p = announcement host xs ∧ ys = xs := by
  obtain ⟨r, hr, hok, hdata⟩ := h
  by_cases hall : p = announcement host xs
  · obtain ⟨r', hr', -, hdata'⟩ := decodes_announcement hfit hlen
    rw [hall, hr'] at hr
    cases hr
    rw [hdata'] at hdata
    exact ⟨hall, (Option.some.inj hdata).symm⟩
  · obtain ⟨r', hr', hbad, -⟩ := decode_cut hfit hlen hp hall
    rw [hr'] at hr
    cases hr
    rw [hbad] at hok
    cases hok

theorem decode_beginning_returns (hfit : Representable host.lim xs)
    (hlen : (announcement host xs).length < 2 ^ 63) {p : Bytes} (hp : p <+: announcement host xs)
    {e : Fault} : decode host p ≠ .error e := by
  intro he
  by_cases hall : p = announcement host xs
  · obtain ⟨r, hr, -⟩ := decodes_announcement hfit hlen
    rw [hall, hr] at he
    cases he
  · obtain ⟨r, hr, -⟩ := decode_cut hfit hlen hp hall
    rw [hr] at he
    cases he

/-- Of the beginning of a message the program shows the whole list or none, and it ends
with a message unless it is still waiting. -/
theorem requestNeighbors_beginning (hfit : Representable host.lim xs)
    (hlen : (announcement host xs).length < 2 ^ 63) {calls : CliCalls}
    (hdelivers : Delivers (announcement host xs) calls.rounds) :
    (requestNeighbors host calls).run = .ok (.ok xs) ∨
      (∃ line, (requestNeighbors host calls).run = .ok (.error line)) ∨
      (requestNeighbors host calls).run = .error .waiting := by
  cases hrun : (requestNeighbors host calls).run with
  | error e =>
    have hfaults : (requestNeighbors host calls).FaultsIn (· = .waiting) := by
      refine requestNeighbors_faultsIn rfl fun client buff hbuff e he => ?_
      exact absurd he (decode_beginning_returns hfit hlen (receiveReply_beginning hdelivers hbuff))
    rw [hfaults e hrun]
    exact Or.inr (Or.inr rfl)
  | ok result =>
    cases result with
    | error line => exact Or.inr (Or.inl ⟨line, rfl⟩)
    | ok ys =>
      obtain ⟨client, buff, -, -, hbuff, hdecodes⟩ := requestNeighbors_ok.mp hrun
      rw [(decodes_beginning hfit hlen (receiveReply_beginning hdelivers hbuff) hdecodes).2]
      exact Or.inl rfl

theorem main_error {calls : CliCalls} {line : Bytes}
    (h : (requestNeighbors host calls).run = .ok (.error line)) :
    main host calls = .ok ⟨-1, line ++ text "\n"⟩ := by
  unfold main
  rw [h]
  rfl

/-- A buffer that a longer message fills holds its first bytes and nothing else. -/
theorem receive_long {maxBufferSize : UInt32} {incoming : Incoming} {message : Bytes}
    (hmessage : message <+: incoming.data) (hlong : maxBufferSize.toNat < message.length) :
    (IPMulticastReceiver.receive maxBufferSize (some incoming)).1 =
      message.take maxBufferSize.toNat := by
  have hroom : maxBufferSize.toNat ≤ incoming.data.length :=
    Nat.le_trans (Nat.le_of_lt hlong) hmessage.length_le
  show incoming.data.take _ ++ List.replicate (_ - (incoming.data.take _).length) 0 = _
  rw [List.length_take, Nat.min_eq_left hroom, Nat.sub_self, List.replicate_zero, List.append_nil]
  obtain ⟨t, ht⟩ := hmessage
  rw [← ht, List.take_append_of_le_length (Nat.le_of_lt hlong)]

theorem decodedNifs_long (hfit : Representable host.lim xs)
    (hlen : (announcement host xs).length < 2 ^ 63) {maxBufferSize : UInt32} {incoming : Incoming}
    (hmessage : announcement host xs <+: incoming.data)
    (hlong : maxBufferSize.toNat < (announcement host xs).length) :
    decodedNifs host (IPMulticastReceiver.receive maxBufferSize (some incoming)).1 = [] := by
  rw [receive_long hmessage hlong]
  refine decodedNifs_cut hfit hlen (List.take_prefix _ _) fun heq => ?_
  have hshort := congrArg List.length heq
  rw [List.length_take] at hshort
  omega

theorem cut_message_rejected (hfit : Representable host.lim xs)
    (hlen : (serializeNetInterfaces host.order [] xs).length < 2 ^ 63) :
    (∀ p, p <+: serializeNetInterfaces host.order [] xs →
      p ≠ serializeNetInterfaces host.order [] xs →
        ∃ r o, (deserializeNetInterfaces host.order host.lim p).run 0 = .ok (r, o) ∧
          r.code = .Error) ∧
      (∀ calls, Delivers (serializeNetInterfaces host.order [] xs) calls.rounds →
        (requestNeighbors host calls).run = .ok (.ok xs) ∨
          (∃ line, (requestNeighbors host calls).run = .ok (.error line) ∧
            main host calls = .ok ⟨-1, line ++ text "\n"⟩) ∨
          (requestNeighbors host calls).run = .error .waiting) ∧
      ∀ T nnd use pass incoming r r' buff logger logger',
        pass.incoming T = some incoming →
        serializeNetInterfaces host.order [] xs <+: incoming.data →
        nnd.settings.maxBufferSize.toNat < (serializeNetInterfaces host.order [] xs).length →
        receiveHalf host T nnd use pass r logger = .ok ((r', buff), logger') →
          r'.receivedNifs = r.receivedNifs := by
  refine ⟨fun p hp hne => ?_, fun calls hdelivers => ?_, ?_⟩
  · obtain ⟨r, hdecode, -, hcode⟩ := decode_cut hfit hlen hp hne
    obtain ⟨o, hrun⟩ := decode_eq_ok.mp hdecode
    exact ⟨r, o, hrun, hcode⟩
  · rcases requestNeighbors_beginning hfit hlen hdelivers with hok | ⟨line, herror⟩ | hwaits
    · exact Or.inl hok
    · exact Or.inr (Or.inl ⟨line, herror, main_error herror⟩)
    · exact Or.inr (Or.inr hwaits)
  · intro T nnd use pass incoming r r' buff logger logger' hincoming hmessage hlong hrun
    have hstored := receiveHalf_ok hrun
    rw [hincoming] at hstored
    rw [hstored]
    cases hbuffer : filled nnd.settings.maxBufferSize (use && (nnd.sender T).isSome)
        (some incoming) with
    | none => rfl
    | some buffer =>
      obtain ⟨-, d, hd, rfl⟩ := filled_eq_some hbuffer
      cases hd
      unfold decodedAll
      rw [Option.toList_some, List.flatMap_singleton, decodedNifs_long hfit hlen hmessage hlong]
      rfl

end Cut

/-- Thirty-five bytes of a message of forty-three, decoded alone and read from the
stream. -/
theorem cut_message_rejected_small :
    (∃ r o, (deserializeNetInterfaces Small.host.order Small.host.lim (Small.reply.take 35)).run 0 =
        .ok (r, o) ∧ r.code = .Error) ∧
      ((requestNeighbors Small.host (Small.cliCalls [Small.reply.take 35])).run =
          .ok (.ok [Small.bare]) ∨
        (∃ line, (requestNeighbors Small.host (Small.cliCalls [Small.reply.take 35])).run =
            .ok (.error line) ∧
          main Small.host (Small.cliCalls [Small.reply.take 35]) =
            .ok ⟨-1, line ++ text "\n"⟩) ∨
        (requestNeighbors Small.host (Small.cliCalls [Small.reply.take 35])).run =
          .error .waiting) := by
  have hrep : Representable Small.host.lim [Small.bare] := by decide
  have h := cut_message_rejected hrep (by decide)
  exact ⟨h.1 _ (List.take_prefix 35 _) (by decide),
    h.2.1 _ ⟨List.take_prefix 35 _, trivial⟩⟩

/-! ## Replies in chunks -/

def Round.chunk (round : Round) : Option Bytes :=
  match round.result with
  | some (.read pending) => some pending
  | _ => none

def chunks (rounds : List Round) : List Bytes := rounds.filterMap Round.chunk

/-- A round within the waiting time that brings nothing yet, or a chunk no longer
than what was asked for. -/
structure Arrives (start : Int) (round : Round) : Prop where
  intime : withinWaitTime start round.now = true
  brings : round.result = some .wouldBlock ∨ ∃ chunk, round.result = some (.read chunk) ∧
    chunk ≠ [] ∧ chunk.length ≤ SINGLE_MESSAGE_MAX_SIZE_BYTES

section Chunks

variable {host : Host} {xs : List NetInterface}

/-- The program takes the first chunk and looks for no other. -/
theorem receiveReply_first {start : Int} {rounds : List Round}
    (harrives : ∀ round ∈ rounds, Arrives start round) {client : UnixSocket}
    (hfd : 0 ≤ client.sockFd) {c : Bytes} {rest : List Bytes} (hchunks : chunks rounds = c :: rest) :
    (receiveReply client start rounds).run = .ok (.ok c) := by
  induction rounds with
  | nil => cases hchunks
  | cons round rounds ih =>
    obtain ⟨hone, hothers⟩ := List.forall_mem_cons.mp harrives
    unfold receiveReply
    rw [UnixSocket.receive, if_neg (Int.not_lt.mpr hfd), UnixSocket.readBuffer_eq]
    rcases hone.brings with hblock | ⟨chunk, hread, hne, hle⟩
    · rw [show round.reads.find? (· ≠ .interrupted) = _ from hblock]
      have hskip : chunks (round :: rounds) = chunks rounds := by
        unfold chunks Round.chunk
        rw [List.filterMap_cons, hblock]
      rw [hskip] at hchunks
      show (if withinWaitTime start round.now = true then receiveReply client start rounds
        else throw (text "Couldn't receive data from daemon")).run = _
      rw [if_pos hone.intime]
      exact ih hothers hchunks
    · rw [show round.reads.find? (· ≠ .interrupted) = _ from hread]
      dsimp only
      rw [List.take_of_length_le hle]
      have htake : chunks (round :: rounds) = chunk :: chunks rounds := by
        unfold chunks Round.chunk
        rw [List.filterMap_cons, hread]
      rw [htake] at hchunks
      cases hchunks
      show (if c.length > 0 then pure c else if withinWaitTime start round.now = true then
        receiveReply client start rounds
        else throw (text "Couldn't receive data from daemon") : Cli Bytes).run = _
      rw [if_pos (List.length_pos_of_ne_nil hne)]
      rfl

/-- So what it shows is what that chunk alone decodes to. -/
theorem requestNeighbors_first {calls : CliCalls} {fd : Nat} {request : Bytes}
    (hclient : calls.client = ⟨some fd, true⟩)
    (hrequest : (⟨fd, [], false⟩ : UnixSocket).send UNIX_DOMAIN_REQUEST_COMMAND calls.writes =
      .ok (.ok, request))
    (harrives : ∀ round ∈ calls.rounds, Arrives calls.start round) {c : Bytes} {rest : List Bytes}
    (hchunks : chunks calls.rounds = c :: rest) :
    (requestNeighbors host calls).run = .ok (.ok xs) ↔ Decodes host c xs := by
  have hopen : (openClient calls).run = .ok (.ok ⟨fd, [], false⟩) := by
    unfold openClient
    rw [hclient]
    rfl
  have hasked : (sendRequest calls ⟨fd, [], false⟩).run = .ok (.ok ()) :=
    Cli.bind_eq_ok.mpr ⟨_, Cli.lift_eq_ok.mpr hrequest, rfl⟩
  have hfirst : (receiveReply ⟨fd, [], false⟩ calls.start calls.rounds).run = .ok (.ok c) :=
    receiveReply_first harrives (Int.natCast_nonneg fd) hchunks
  rw [requestNeighbors_ok]
  constructor
  · intro h
    obtain ⟨client, buff, hclient', -, hbuff, hdecodes⟩ := h
    rw [hopen] at hclient'
    cases hclient'
    rw [hfirst] at hbuff
    cases hbuff
    exact hdecodes
  · intro h
    exact ⟨_, c, hopen, hasked, hfirst, h⟩

theorem chunk_ne_nil {start : Int} {rounds : List Round}
    (harrives : ∀ round ∈ rounds, Arrives start round) {c : Bytes} (hc : c ∈ chunks rounds) :
    c ≠ [] := by
  obtain ⟨round, hround, hchunk⟩ := List.mem_filterMap.mp hc
  unfold Round.chunk at hchunk
  rcases (harrives round hround).brings with hblock | ⟨chunk, hread, hne, -⟩
  · rw [hblock] at hchunk
    cases hchunk
  · rw [hread] at hchunk
    cases hchunk
    exact hne

theorem cli_shows_list_iff (hfit : Representable host.lim xs)
    (hlen : (serializeNetInterfaces host.order [] xs).length < 2 ^ 63)
    {server : UnixSocket} {writes : List WriteResult} {handed : Bytes}
    (hsent : server.send (serializeNetInterfaces host.order [] xs) writes = .ok (.ok, handed))
    {calls : CliCalls} {fd : Nat} {request : Bytes} (hclient : calls.client = ⟨some fd, true⟩)
    (hrequest : (⟨fd, [], false⟩ : UnixSocket).send UNIX_DOMAIN_REQUEST_COMMAND calls.writes =
      .ok (.ok, request))
    (harrives : ∀ round ∈ calls.rounds, Arrives calls.start round)
    (hstream : (chunks calls.rounds).flatten = handed) :
    (requestNeighbors host calls).run = .ok (.ok xs) ↔ (chunks calls.rounds).length = 1 := by
  have hall : handed = announcement host xs := UnixSocket.send_all hsent rfl
  obtain ⟨c, rest, hchunks⟩ : ∃ c rest, chunks calls.rounds = c :: rest := by
    refine List.exists_cons_of_ne_nil fun hnil => ?_
    rw [hnil, hall] at hstream
    exact announcement_ne_nil xs hstream.symm
  rw [hchunks, List.flatten_cons, hall] at hstream
  rw [requestNeighbors_first hclient hrequest harrives hchunks, hchunks, List.length_cons,
    Nat.add_eq_right, List.length_eq_zero_iff]
  constructor
  · intro h
    have hwhole := (decodes_beginning hfit hlen ⟨_, hstream⟩ h).1
    -- What follows the whole list is no chunk, since chunks are not empty.
    have hnone : rest.flatten = [] := by
      rw [hwhole] at hstream
      exact List.append_right_eq_self.mp hstream
    refine List.eq_nil_iff_forall_not_mem.mpr fun d hd => ?_
    have hmem : d ∈ chunks calls.rounds := by
      rw [hchunks]
      exact List.mem_cons_of_mem c hd
    exact chunk_ne_nil harrives hmem (List.flatten_eq_nil_iff.mp hnone d hd)
  · intro h
    rw [h, List.flatten_nil, List.append_nil] at hstream
    rw [hstream]
    exact decodes_announcement hfit hlen

end Chunks

theorem Small.arrives {chunk : Bytes} (hne : chunk ≠ [])
    (hle : chunk.length ≤ SINGLE_MESSAGE_MAX_SIZE_BYTES) : Arrives 0 (Small.brings chunk) :=
  ⟨rfl, Or.inr ⟨chunk, rfl, hne, hle⟩⟩

theorem cli_shows_list_iff_small :
    (requestNeighbors Small.host (Small.cliCalls [Small.reply])).run = .ok (.ok [Small.bare]) ↔
      (chunks (Small.cliCalls [Small.reply]).rounds).length = 1 := by
  have hsent : (⟨6, [], false⟩ : UnixSocket).send Small.reply [.interrupted, .wrote 64] =
      .ok (.ok, Small.reply) := rfl
  refine cli_shows_list_iff (by decide) (by decide) hsent rfl rfl (fun round hround => ?_) rfl
  rw [List.mem_singleton.mp hround]
  exact Small.arrives (by decide) (by decide)

/-- Of a reply in two chunks the program decodes the first. -/
theorem reply_in_two_chunks :
    (∀ round ∈ (Small.cliCalls [Small.reply.take 20, Small.reply.drop 20]).rounds,
        Arrives 0 round) ∧
      (chunks (Small.cliCalls [Small.reply.take 20, Small.reply.drop 20]).rounds).flatten =
        Small.reply ∧
      (requestNeighbors Small.host
        (Small.cliCalls [Small.reply.take 20, Small.reply.drop 20])).run ≠
          .ok (.ok [Small.bare]) := by
  refine ⟨fun round hround => ?_, rfl, fun h => ?_⟩
  · rcases List.mem_pair.mp hround with rfl | rfl
    · exact Small.arrives (by decide) (by decide)
    · exact Small.arrives (by decide) (by decide)
  · have hrun : ∃ line, (requestNeighbors Small.host
        (Small.cliCalls [Small.reply.take 20, Small.reply.drop 20])).run = .ok (.error line) :=
      ⟨_, rfl⟩
    obtain ⟨line, hrun⟩ := hrun
    rw [h] at hrun
    cases hrun

end NeighborDiscovery
