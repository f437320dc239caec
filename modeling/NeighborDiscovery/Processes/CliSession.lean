/-
A session of the command line program with the daemon.

The program asks in some turn of the daemon and reads the reply when it has been
written, unless it has given up by then.  What it prints is the table of that turn.
A turn that answers ends there, and the daemon sleeps for the rest of its period, so a
program that asks too soon after it gives up.  Both programs read the steady clock of
one host, and the reply reaches the socket of the program at one moment.  A daemon that
writes to a program that has ended gets a signal, which is not followed here.
-/
import NeighborDiscovery.Cli.ReplyStream
import NeighborDiscovery.Library.Polling
import NeighborDiscovery.Network.CliReply
import NeighborDiscovery.Network.DescriptorUse
import NeighborDiscovery.Network.ForeignAnnouncements
import NeighborDiscovery.Processes.Retention
import NeighborDiscovery.Unix.Sending

namespace NeighborDiscovery.Processes

open Polling

/-- A round of the receive loop of the program, with the moment of its `read`. -/
structure RoundAt where
  looked : Int
  round : Round

def RoundAt.poll (r : RoundAt) : Poll := ⟨r.looked, r.round.now⟩

/-- Until `reply` arrives there is nothing to read.  Its first read finds the whole of it. -/
def Finds (reply : Bytes) (arrival : Int) : List RoundAt → Prop
  | [] => True
  | r :: rounds =>
    if arrival ≤ r.looked then r.round.result = some (.read reply)
    else r.round.result = some .wouldBlock ∧ Finds reply arrival rounds

/-- The program connects, sends its request and looks for the reply. -/
structure Asking (calls : CliCalls) (reply : Bytes) (arrival : Int) (rounds : List RoundAt) :
    Prop where
  client : ∃ fd, calls.client = ⟨some fd, true⟩
  request : ∀ fd : Nat, ∃ request, (⟨fd, [], false⟩ : UnixSocket).send UNIX_DOMAIN_REQUEST_COMMAND
    calls.writes = .ok (.ok, request)
  made : calls.rounds = rounds.map RoundAt.round
  finds : Finds reply arrival rounds

/-- How the receive loop of the program ends. -/
def ends (calls : CliCalls) (arrival : Int) (rounds : List RoundAt) : Outcome :=
  outcome (withinWaitTime calls.start) arrival (rounds.map RoundAt.poll)

section Session

variable {host : Host} {calls : CliCalls} {reply : Bytes} {arrival : Int} {rounds : List RoundAt}

/-- What the loop leaves to be decoded, or why it ends without. -/
def taken (reply : Bytes) : Outcome → Except Fault (Except Bytes Bytes)
  | .arrived => .ok (.ok (reply.take SINGLE_MESSAGE_MAX_SIZE_BYTES))
  | .expired => .ok (.error (text "Couldn't receive data from daemon"))
  | .waiting => .error .waiting

theorem receiveReply_ends {client : UnixSocket} (hfd : 0 ≤ client.sockFd) {start : Int}
    (hreply : reply ≠ []) (hfinds : Finds reply arrival rounds) :
    (receiveReply client start (rounds.map RoundAt.round)).run =
      taken reply (outcome (withinWaitTime start) arrival (rounds.map RoundAt.poll)) := by
  induction rounds with
  | nil => rfl
  | cons r rounds ih =>
    unfold Finds at hfinds
    rw [List.map_cons, List.map_cons]
    unfold receiveReply
    have houtcome : outcome (withinWaitTime start) arrival (r.poll :: rounds.map RoundAt.poll) =
        if arrival ≤ r.looked then .arrived
        else if withinWaitTime start r.round.now then
          outcome (withinWaitTime start) arrival (rounds.map RoundAt.poll)
        else .expired := rfl
    rw [houtcome]
    by_cases harrived : arrival ≤ r.looked
    · have hne : (reply.take SINGLE_MESSAGE_MAX_SIZE_BYTES).length > 0 := by
        refine List.length_pos_of_ne_nil fun hnil => ?_
        rcases List.take_eq_nil_iff.mp hnil with hzero | hempty
        · cases hzero
        · exact hreply hempty
      rw [if_pos harrived] at hfinds
      rw [receive_finds hfd hfinds, if_pos harrived]
      show (if (reply.take SINGLE_MESSAGE_MAX_SIZE_BYTES).length > 0 then pure _ else _ :
        Cli Bytes).run = _
      rw [if_pos hne]
      rfl
    · rw [if_neg harrived] at hfinds
      rw [receive_blocks hfd hfinds.1, if_neg harrived]
      show (if withinWaitTime start r.round.now = true then
        receiveReply client start (rounds.map RoundAt.round)
        else throw (text "Couldn't receive data from daemon")).run = _
      by_cases hwithin : withinWaitTime start r.round.now = true
      · rw [if_pos hwithin, if_pos hwithin]
        exact ih hfinds.2
      · rw [if_neg hwithin, if_neg hwithin]
        rfl

/-- The program decodes what its receive loop leaves. -/
theorem Asking.requested (h : Asking calls reply arrival rounds) (hreply : reply ≠ []) :
    (requestNeighbors host calls).run =
      taken reply (ends calls arrival rounds) >>= ExceptT.bindCont (decodeReply host) := by
  obtain ⟨fd, hclient⟩ := h.client
  obtain ⟨request, hrequest⟩ := h.request fd
  have hopen : (openClient calls).run = .ok (.ok ⟨fd, [], false⟩) := by
    unfold openClient
    rw [hclient]
    rfl
  have hasked : (sendRequest calls ⟨fd, [], false⟩).run = .ok (.ok ()) :=
    Cli.bind_eq_ok.mpr ⟨_, Cli.lift_eq_ok.mpr hrequest, rfl⟩
  have hreceived : (receiveReply ⟨fd, [], false⟩ calls.start calls.rounds).run =
      taken reply (ends calls arrival rounds) := by
    rw [h.made]
    exact receiveReply_ends (Int.natCast_nonneg fd) hreply h.finds
  rw [← hreceived]
  show (openClient calls).run >>= ExceptT.bindCont _ = _
  rw [hopen]
  show (sendRequest calls ⟨fd, [], false⟩).run >>= ExceptT.bindCont _ = _
  rw [hasked]
  rfl

/-! ## What is printed -/

/-- What `main` prints of the list `l`, of whose message the bytes `reply` were sent. -/
def Prints (host : Host) (calls : CliCalls) (nifs l : List NetInterface) (reply : Bytes) :
    Outcome → Prop
  | .arrived =>
    if reply = announcement host l ∧ reply.length ≤ SINGLE_MESSAGE_MAX_SIZE_BYTES then
      main host calls = .ok ⟨0, listing (nifs.map NetInterface.mac) l⟩
    else ∃ line, main host calls = .ok ⟨-1, line⟩
  | .expired => main host calls = .ok ⟨-1, text "Couldn't receive data from daemon" ++ text "\n"⟩
  | .waiting => main host calls = .error .waiting

variable {nifs l : List NetInterface}

theorem main_ok (hlocal : calls.interfaces = .ok (.ofCodeData .Ok nifs))
    (h : (requestNeighbors host calls).run = .ok (.ok l)) :
    main host calls = .ok ⟨0, listing (nifs.map NetInterface.mac) l⟩ := by
  unfold main printNeighbors
  rw [h, hlocal]
  rfl

/-- Of the beginning of a message the program decodes the whole or nothing. -/
theorem decodeReply_beginning (hfit : Representable host.lim l)
    (hlen : (announcement host l).length < 2 ^ 63) {buff : Bytes}
    (hbuff : buff <+: announcement host l) :
    if buff = announcement host l then (decodeReply host buff).run = .ok (.ok l)
    else ∃ line, (decodeReply host buff).run = .ok (.error line) := by
  by_cases hall : buff = announcement host l
  · rw [if_pos hall, hall]
    exact decodeReply_ok.mpr (decodes_announcement hfit hlen)
  · rw [if_neg hall]
    cases hrun : (decodeReply host buff).run with
    | error e =>
      have hfaults : (decodeReply host buff).FaultsIn fun _ => False :=
        decodeReply_faultsIn fun e he => decode_beginning_returns hfit hlen hbuff he
      exact absurd (hfaults e hrun) id
    | ok result =>
      cases result with
      | error line => exact ⟨line, rfl⟩
      | ok ys => exact absurd (decodes_beginning hfit hlen hbuff (decodeReply_ok.mp hrun)).1 hall

theorem take_eq_announcement (hbuff : reply <+: announcement host l) :
    reply.take SINGLE_MESSAGE_MAX_SIZE_BYTES = announcement host l ↔
      reply = announcement host l ∧ reply.length ≤ SINGLE_MESSAGE_MAX_SIZE_BYTES := by
  constructor
  · intro h
    have hlength := congrArg List.length h
    have hle := hbuff.length_le
    rw [List.length_take] at hlength
    exact ⟨hbuff.eq_of_length (by omega), by omega⟩
  · intro h
    rw [List.take_of_length_le h.2]
    exact h.1

theorem Asking.expires (h : Asking calls reply arrival rounds) (hreply : reply ≠ [])
    (hends : ends calls arrival rounds = .expired) :
    main host calls = .ok ⟨-1, text "Couldn't receive data from daemon" ++ text "\n"⟩ := by
  have hrequested : (requestNeighbors host calls).run = _ := h.requested hreply
  rw [hends] at hrequested
  exact main_error hrequested

theorem Asking.prints (h : Asking calls reply arrival rounds) (hreply : reply ≠ [])
    (hlocal : calls.interfaces = .ok (.ofCodeData .Ok nifs)) (hfit : Representable host.lim l)
    (hlen : (announcement host l).length < 2 ^ 63) (hbuff : reply <+: announcement host l) :
    Prints host calls nifs l reply (ends calls arrival rounds) := by
  have hrequested : (requestNeighbors host calls).run = _ := h.requested hreply
  cases hends : ends calls arrival rounds with
  | arrived =>
    rw [hends] at hrequested
    have hdecoded := decodeReply_beginning hfit hlen ((List.take_prefix
      SINGLE_MESSAGE_MAX_SIZE_BYTES reply).trans hbuff)
    simp only [take_eq_announcement hbuff] at hdecoded
    show if _ then _ else _
    split at hdecoded
    · rename_i hwhole
      rw [if_pos hwhole]
      exact main_ok hlocal (hrequested.trans hdecoded)
    · rename_i hpart
      rw [if_neg hpart]
      obtain ⟨line, hline⟩ := hdecoded
      exact ⟨_, main_error (hrequested.trans hline)⟩
  | expired => exact h.expires hreply hends
  | waiting =>
    rw [hends] at hrequested
    show main host calls = _
    unfold main
    rw [hrequested]
    rfl

/-- The reply of an iteration is sent as far as the socket takes it. -/
theorem reply_handed {e : Iteration}
    (hstep : runIteration host e.input e.before = .ok (e.after, e.output)) {answer : Reply}
    (hreply : e.output.reply = some answer) : answer.handed <+: answer.clientSBuff := by
  obtain ⟨before, pass, client, -, -, hclient, ret, hsend⟩ := reply_client hstep hreply
  have hfd : 0 ≤ answer.client.sockFd := by
    rw [hclient]
    exact Int.natCast_nonneg client.fd
  have hprefix := (UnixSocket.sendVector_delivering hfd answer.clientSBuff
    e.input.writes).handed_isPrefix
  rw [← UnixSocket.send_result] at hsend
  cases hstate : answer.client.sendVector answer.clientSBuff e.input.writes with
  | writing p left handed =>
    rw [hstate] at hsend
    cases hsend
  | returned ret' handed =>
    rw [hstate] at hsend hprefix
    rw [← (Prod.mk.inj (Except.ok.inj hsend)).2]
    exact hprefix

/-- What the program prints of the list that an iteration has sent it. -/
theorem reply_prints {e : Iteration}
    (hstep : runIteration host e.input e.before = .ok (e.after, e.output))
    {answer : Reply} (hreply : e.output.reply = some answer)
    (hbuff : answer.clientSBuff = announcement host l)
    (hlim : host.lim.Ample answer.clientSBuff.length) (hsent : answer.handed ≠ [])
    (hasking : Asking calls answer.handed arrival rounds)
    (hlocal : calls.interfaces = .ok (.ofCodeData .Ok nifs)) :
    Prints host calls nifs l answer.handed (ends calls arrival rounds) := by
  have hprefix := reply_handed hstep hreply
  rw [hbuff] at hprefix hlim
  exact hasking.prints hsent hlocal (representable_of_length (Nat.le_refl _) hlim) hlim.lt hprefix

end Session

/-! ## A session -/

section Table

variable {process : Process} {settings : DiscoverySettings} {localSettings : UnixDomainSettings}
  {host : Host} {setup : SetupCalls} {h : List ServiceTurn} {b : ServiceTurn}
  {s : NetworkNeighborDiscoverer}

/-- What the program prints of the list that a turn has sent it. -/
theorem ServiceRun.prints
    (hrun : ServiceRun process settings localSettings host setup (h ++ [b]) s)
    {answer : Reply} (hreply : b.output.output.reply = some answer)
    {l : List NetInterface} (hbuff : answer.clientSBuff = announcement host l)
    (hlim : host.lim.Ample answer.clientSBuff.length) (hsent : answer.handed ≠ [])
    {calls : CliCalls} {arrival : Int} {rounds : List RoundAt}
    (hasking : Asking calls answer.handed arrival rounds) {nifs : List NetInterface}
    (hlocal : calls.interfaces = .ok (.ofCodeData .Ok nifs)) :
    Prints host calls nifs l answer.handed (ends calls arrival rounds) := by
  obtain ⟨-, hstep, -, hafter⟩ := hrun.last
  rw [← hafter] at hstep
  exact reply_prints (e := iterationOf b) hstep hreply hbuff hlim hsent hasking hlocal

/-- The recent announcements at the end of a turn. -/
def Recent (host : Host) (settings : DiscoverySettings) (h : List Iteration) (e : Iteration)
    (x : NetInterface) : Prop :=
  ∃ j nif, LatestAnnouncement host (h ++ [e]) x.mac j nif ∧
    e.input.removeNow - j.input.updateNow x.mac ≤ activity settings ∧
    x = restrict host j.input.nifs nif

theorem reply_recent {init : NetworkNeighborDiscoverer}
    (hinit : Initial settings localSettings init) {h : List Iteration} {e : Iteration}
    (hrun : DaemonRun host init (h ++ [e]) s) (hclock : RemovalsInOrder (h ++ [e]))
    {answer : Reply} (hreply : e.output.reply = some answer) :
    ∃ l, answer.clientSBuff = announcement host l ∧ (l.map NetInterface.mac).Nodup ∧
      ∀ x, x ∈ l ↔ Recent host settings h e x := by
  obtain ⟨l, hbuff, hnodup, hmem⟩ := reply_data hinit.neighbors hrun hreply
  obtain ⟨-, hstep, -⟩ := hrun.last
  have hnifs := nifs_ne_nil_of_reply hstep hreply
  rw [hinit.settings] at hmem
  refine ⟨l, hbuff, hnodup, fun x => ?_⟩
  rw [hmem]
  simp only [mem_contents_iff hclock hnifs]
  constructor
  · intro hx
    obtain ⟨t, ⟨j, nif, hlatest, hxt⟩, hage⟩ := hx
    cases hxt
    exact ⟨j, nif, hlatest, hage, rfl⟩
  · intro hx
    obtain ⟨j, nif, hlatest, hage, hx⟩ := hx
    exact ⟨j.input.updateNow x.mac, ⟨j, nif, hlatest, Prod.ext hx rfl⟩, hage⟩

/-- The program prints the recent announcements, or the line of an error. -/
theorem cli_session (hrun : ServiceRun process settings localSettings host setup (h ++ [b]) s)
    (hclock : RemovalsInOrder (h.map iterationOf ++ [iterationOf b]))
    {answer : Reply} (hreply : b.output.output.reply = some answer)
    (hlim : host.lim.Ample answer.clientSBuff.length) (hsent : answer.handed ≠ [])
    {calls : CliCalls} {arrival : Int} {rounds : List RoundAt}
    (hasking : Asking calls answer.handed arrival rounds) {nifs : List NetInterface}
    (hlocal : calls.interfaces = .ok (.ofCodeData .Ok nifs)) :
    ∃ l, answer.clientSBuff = announcement host l ∧ (l.map NetInterface.mac).Nodup ∧
      (∀ x, x ∈ l ↔ Recent host settings (h.map iterationOf) (iterationOf b) x) ∧
      Prints host calls nifs l answer.handed (ends calls arrival rounds) := by
  obtain ⟨init, hinit, hdaemon⟩ := hrun.daemonRun
  rw [List.map_append, List.map_singleton] at hdaemon
  obtain ⟨l, hbuff, hnodup, hmem⟩ := reply_recent hinit hdaemon hclock hreply
  exact ⟨l, hbuff, hnodup, hmem, hrun.prints hreply hbuff hlim hsent hasking hlocal⟩

/-! ## When to ask -/

theorem withinWaitTime_iff {start now : Int} :
    withinWaitTime start now = true ↔ now < start + seconds CLI_REQUEST_WAIT_TIME_SECONDS := by
  unfold withinWaitTime seconds CLI_REQUEST_WAIT_TIME_SECONDS
  rw [decide_eq_true_iff]
  by_cases hforth : 0 ≤ now - start
  · rw [Int.tdiv_eq_ediv_of_nonneg hforth]
    omega
  · have hle := Int.tdiv_mul_le (now - start) (b := 1000000000) (by omega)
    rw [if_neg hforth] at hle
    omega

/-- A program whose waiting time is over when the daemon can wake from its last turn gives
up, unless that turn has answered it. -/
theorem request_expires (hcyclic : process.cyclic = true) {a : ServiceTurn}
    (hrun : ServiceRun process settings localSettings host setup (h ++ [a]) s) {δ : Nat}
    (hδ : process.SleepFits δ) (htimely : Timely δ (h ++ [a])) {calls : CliCalls} {reply : Bytes}
    {arrival gap : Int} {rounds : List RoundAt} (hreply : reply ≠ [])
    (hasking : Asking calls reply arrival rounds)
    (harrival : a.input.ended + a.output.slept ≤ arrival)
    (hsteady : Steady gap calls.start (rounds.map RoundAt.poll))
    (hended : ∃ poll ∈ rounds.map RoundAt.poll,
      arrival ≤ poll.looked ∨ withinWaitTime calls.start poll.now = false)
    (hlate : calls.start + seconds CLI_REQUEST_WAIT_TIME_SECONDS + gap ≤
      a.input.began + (process.period - δ)) :
    main host calls = .ok ⟨-1, text "Couldn't receive data from daemon" ++ text "\n"⟩ := by
  have hwakes : a.input.began + (process.period - δ) ≤ a.input.ended + a.output.slept := by
    obtain ⟨_, -, hturns⟩ := hrun
    exact (hturns.lasts hcyclic hδ htimely (List.mem_append_right h (List.mem_singleton_self a))).1
  have hover : ∀ now, calls.start + seconds CLI_REQUEST_WAIT_TIME_SECONDS ≤ now →
      withinWaitTime calls.start now = false := by
    intro now hnow
    rw [Bool.eq_false_iff]
    intro hwithin
    exact absurd (withinWaitTime_iff.mp hwithin) (Int.not_lt.mpr hnow)
  have hstart : calls.start < calls.start + seconds CLI_REQUEST_WAIT_TIME_SECONDS := by
    unfold seconds CLI_REQUEST_WAIT_TIME_SECONDS
    omega
  exact hasking.expires hreply (expired_of_late hover hsteady hstart (by omega) hended)

end Table

/-! ## Small sessions -/

namespace Small

/-- A pass that ends with a request. -/
def requested (ipv6 : Option Incoming) (began : Int) : Env :=
  Small.env [Small.eth0] [⟨ipv6, none, some Small.client, began + 1⟩] (began + 2)

def requestTurn (ipv6 : Option Incoming) (began : Int) : Turn Env :=
  ⟨began, requested ipv6 began, began + 3, began, began + 3⟩

/-- A turn that hears of `remote` and is asked, and the next turn, which is asked too. -/
structure AskedTwice (a b : ServiceTurn) (s : NetworkNeighborDiscoverer) (answer : Reply) :
    Prop where
  run : ServiceRun daemon (settings 30) Small.localSettings Small.host Small.calls
    ([] ++ [a] ++ [b]) s
  first : a.input = requestTurn remoteData 0
  second : b.input = requestTurn none 16000000003
  sleep : a.output.sleep = some 16
  reply : b.output.output.reply = some answer
  handed : answer.handed = announcement Small.host [Small.remote]
  clientSBuff : answer.clientSBuff = announcement Small.host [Small.remote]

set_option maxRecDepth 10000 in
theorem asked_iterations : ∃ nnd₁ nnd₂ out₁ out₂ answer,
    Iterates Small.host (discoverer 30) (requested remoteData 0) out₁ nnd₁ ∧
    Iterates Small.host nnd₁ (requested none 16000000003) out₂ nnd₂ ∧
    out₂.reply = some answer ∧ answer.handed = announcement Small.host [Small.remote] ∧
    answer.clientSBuff = announcement Small.host [Small.remote] :=
  ⟨_, _, _, _, _, rfl, rfl, rfl, rfl, rfl⟩

theorem asked_twice : ∃ a b s answer, AskedTwice a b s answer := by
  obtain ⟨nnd₁, nnd₂, out₁, out₂, answer, hfirst, hsecond, hreply, hhanded, hbuff⟩ :=
    asked_iterations
  have hturn : ∀ {nnd nnd' : NetworkNeighborDiscoverer} {out : Output} {ipv6 began},
      Iterates Small.host nnd (requested ipv6 began) out nnd' →
      daemon.Turns (some fun nnd env => runIteration Small.host env nnd) ⟨nnd, true⟩
        (requestTurn ipv6 began) ⟨out, some 16⟩ ⟨nnd', true⟩ := by
    intro nnd nnd' out ipv6 began hstep
    have hsleep : daemon.sleep began (began + 3) = some 16 := by
      unfold Process.sleep Process.secondsToWait
      rw [show began + 3 - began = 3 by omega]
      rfl
    refine ⟨rfl, _, rfl, Fallible.bind_eq_ok.mpr ⟨(nnd', out), hstep, ?_⟩⟩
    rw [← hsleep]
    rfl
  exact ⟨⟨_, _, ⟨out₁, some 16⟩, _⟩, ⟨_, _, ⟨out₂, some 16⟩, _⟩, nnd₂, answer,
    ⟨discoverer 30, started_discoverer 30,
      (Runs.Run.nil.snoc (hturn hfirst)).snoc (hturn hsecond)⟩,
    rfl, rfl, rfl, hreply, hhanded, hbuff⟩

/-- The program, asking at `start` and looking every five seconds. -/
def session (start : Int) (rounds : List RoundAt) : CliCalls where
  client := ⟨some 3, true⟩
  writes := [.wrote 7]
  start := start
  rounds := rounds.map RoundAt.round
  interfaces := .ok (.ofCodeData .Ok [Small.eth0])

/-- It asks as soon as the first answer is out, and gives up. -/
def early : List RoundAt :=
  [⟨6000000000, [.wouldBlock], 6000000000⟩, ⟨11000000000, [.wouldBlock], 11000000000⟩]

/-- It asks before the next turn begins. -/
def late (reply : Bytes) : List RoundAt :=
  [⟨15000000000, [.wouldBlock], 15000000001⟩,
    ⟨20000000001, [.interrupted, .read reply], 20000000002⟩]

theorem asking_early (reply : Bytes) :
    Asking (session 1000000000 early) reply 16000000005 early :=
  ⟨⟨3, rfl⟩, fun _ => ⟨_, rfl⟩, rfl, rfl, rfl, trivial⟩

theorem asking_late (reply : Bytes) :
    Asking (session 12000000000 (late reply)) reply 16000000005 (late reply) :=
  ⟨⟨3, rfl⟩, fun _ => ⟨_, rfl⟩, rfl, rfl, rfl⟩

theorem AskedTwice.sent {a b : ServiceTurn} {s : NetworkNeighborDiscoverer} {answer : Reply}
    (h : AskedTwice a b s answer) :
    answer.handed = answer.clientSBuff ∧ answer.handed ≠ [] ∧
      Small.host.lim.Ample answer.clientSBuff.length ∧
      answer.handed.length ≤ SINGLE_MESSAGE_MAX_SIZE_BYTES := by
  rw [h.handed, h.clientSBuff]
  exact ⟨rfl, by decide, Limits.libstdcxx_ample (by decide), by decide⟩

theorem AskedTwice.timely {a b : ServiceTurn} {s : NetworkNeighborDiscoverer} {answer : Reply}
    (h : AskedTwice a b s answer) : Timely 0 ([] ++ [a]) := by
  have hlasts : ∀ e ∈ [] ++ [a], e.input.ended = e.input.began + 3 ∧
      e.input.finish - e.input.start = 3 := by
    intro e he
    rw [List.mem_singleton.mp he, h.first]
    exact ⟨rfl, rfl⟩
  refine ⟨fun e he => ?_, fun e he => ?_, fun e he => ?_, List.isChain_singleton a⟩
  · have := hlasts e he
    omega
  · have := hlasts e he
    omega
  · have := hlasts e he
    omega

end Small

theorem cli_session_small : ∃ a b s answer l, Small.AskedTwice a b s answer ∧
    (∀ x, x ∈ l ↔ Recent Small.host (Small.settings 30) [iterationOf a] (iterationOf b) x) ∧
    main Small.host (Small.session 12000000000 (Small.late answer.handed)) =
      .ok ⟨0, listing [Small.eth0.mac] l⟩ := by
  obtain ⟨a, b, s, answer, hasked⟩ := Small.asked_twice
  obtain ⟨hwhole, hsent, hlim, hfits⟩ := hasked.sent
  have hclock : RemovalsInOrder (([] ++ [a]).map iterationOf ++ [iterationOf b]) := by
    refine List.pairwise_pair.mpr fun _ _ => ?_
    show a.input.input.removeNow ≤ b.input.input.removeNow
    rw [hasked.first, hasked.second]
    decide
  obtain ⟨l, hbuff, -, hmem, hprints⟩ := cli_session hasked.run hclock hasked.reply hlim hsent
    (Small.asking_late answer.handed) rfl
  refine ⟨a, b, s, answer, l, hasked, hmem, ?_⟩
  have hends : ends (Small.session 12000000000 (Small.late answer.handed)) 16000000005
    (Small.late answer.handed) = .arrived := rfl
  rw [hends] at hprints
  unfold Prints at hprints
  rw [if_pos ⟨hwhole.trans hbuff, hfits⟩] at hprints
  exact hprints

theorem request_expires_small : ∃ a s,
    ServiceRun Small.daemon (Small.settings 30) Small.localSettings Small.host Small.calls
      ([] ++ [a]) s ∧ a.output.sleep = some 16 ∧
    main Small.host (Small.session 1000000000 Small.early) =
      .ok ⟨-1, text "Couldn't receive data from daemon" ++ text "\n"⟩ := by
  obtain ⟨a, b, s, answer, hasked⟩ := Small.asked_twice
  have hbegan : a.input.began = 0 := by rw [hasked.first]; rfl
  have hwakes : a.input.ended + a.output.slept ≤ 16000000005 := by
    unfold Turned.slept
    rw [hasked.sleep, hasked.first]
    decide
  have hsteady : Steady 5000000000 1000000000 (Small.early.map RoundAt.poll) := by decide
  refine ⟨a, _, hasked.run.last.1, hasked.sleep, ?_⟩
  refine request_expires rfl hasked.run.last.1 (by decide) hasked.timely (List.cons_ne_nil 0 [])
    (Small.asking_early [0]) hwakes hsteady (by decide) ?_
  rw [hbegan]
  decide

end NeighborDiscovery.Processes
