/-
Which iterations end on a link.

On a host whose own calls go well, an iteration ends exactly if every pass it
comes to ends, and such a pass ends exactly if its buffers decode.  What waits in
the receivers of a link are announcements, so whether they decode depends on who
sent them: a host takes in every announcement of its own byte order, and the first
one of the other byte order ends its daemon.
-/
import NeighborDiscovery.Network.ByteCounter
import NeighborDiscovery.Network.DaemonNetwork
import NeighborDiscovery.Network.IterationFaults

namespace NeighborDiscovery

open Broadcast

section Orderly

/-- An iteration in which nothing fails on the host itself: there is a logger, the
interfaces are read, each used family has its receiver, clients that connect send
something, the bytes can be counted, and the clock passes the sending period. -/
structure Orderly (env : Env) (nnd : NetworkNeighborDiscoverer) : Prop where
  logger : nnd.logger.isSome = true
  interfaces : env.interfaces.isOk = true
  prefixes : ∀ nif ∈ env.nifs, NetInterfaceManager.PrefixesFit nif
  receivers : ∀ T, ¬ nnd.listening.LacksReceiver env.nifs T
  clients : ∀ pass ∈ env.passes, nnd.listening.ClientEnds pass true
  bytes : nnd.listening.receivedAll env.nifs 0 env.passes < 2 ^ 31
  late : ∃ pass ∈ env.passes, nnd.settings.sendingPeriodS ≤ receiveTimePassedS env pass
  writes : ∀ pass ∈ env.passes, nnd.listening.Asks pass →
    ∀ (client : UnixSocket) buff, ∃ r, client.send buff env.writes = .ok r

variable {host : Host} {env : Env} {nnd : NetworkNeighborDiscoverer}

theorem le_receivedAll (l : Listening) (nifs : List NetInterface) (bytes : Int)
    (passes : List Pass) : bytes ≤ l.receivedAll nifs bytes passes := by
  induction passes generalizing bytes with
  | nil => exact Int.le_refl bytes
  | cons pass passes ih =>
    have h6 := (gained_bounds l nifs pass .inet6).1
    have h4 := (gained_bounds l nifs pass .inet).1
    have hrest := ih (l.received nifs pass bytes)
    show bytes ≤ l.receivedAll nifs (l.received nifs pass bytes) passes
    have hpass : bytes ≤ l.received nifs pass bytes := by
      unfold Listening.received
      omega
    omega

/-- A loop that goes on is within the sending period. -/
theorem goesOn_early {l : Listening} {nifs : List NetInterface} {logging : Bool} {bytes : Int}
    {passes : List Pass} (h : l.GoesOn nifs host env logging bytes passes) :
    ∀ pass ∈ passes, receiveTimePassedS env pass < l.settings.sendingPeriodS := by
  induction passes generalizing bytes with
  | nil => exact fun _ hpass => absurd hpass List.not_mem_nil
  | cons pass passes ih => exact List.forall_mem_cons.mpr ⟨h.2.1.2.1, ih h.2.2⟩

/-- An orderly host can count what it reads. -/
theorem Orderly.counts (h : Orderly env nnd) {before after : List Pass} {pass : Pass}
    (hpasses : env.passes = before ++ pass :: after) :
    (∃ sum, addInt (nnd.listening.receivedAll env.nifs 0 before)
        (nnd.listening.gained env.nifs pass .inet6) = .ok sum) ∧
      ∃ sum, addInt (nnd.listening.receivedAll env.nifs 0 before +
        nnd.listening.gained env.nifs pass .inet6)
        (nnd.listening.gained env.nifs pass .inet) = .ok sum := by
  have hstart := le_receivedAll nnd.listening env.nifs 0 before
  have htotal := h.bytes
  rw [hpasses, receivedAll_append] at htotal
  have hrest := le_receivedAll nnd.listening env.nifs
    (nnd.listening.received env.nifs pass (nnd.listening.receivedAll env.nifs 0 before)) after
  have h6 := (gained_bounds nnd.listening env.nifs pass .inet6).1
  have h4 := (gained_bounds nnd.listening env.nifs pass .inet).1
  have hsum : nnd.listening.receivedAll env.nifs 0 before +
      nnd.listening.gained env.nifs pass .inet6 +
      nnd.listening.gained env.nifs pass .inet < 2 ^ 31 :=
    Int.lt_of_le_of_lt hrest htotal
  exact ⟨(addInt_returns_iff hstart h6).mpr (by omega),
    (addInt_returns_iff (by omega) h4).mpr hsum⟩

/-- On an orderly host a pass ends exactly if what it reads can be decoded. -/
theorem Orderly.passEnds_iff (h : Orderly env nnd) {before after : List Pass} {pass : Pass}
    (hpasses : env.passes = before ++ pass :: after) :
    PassEndsAfter host env nnd.listening true before pass ↔
      ∀ T buff, nnd.listening.buffer env.nifs pass T = some buff →
        ∃ desReturn, decode host buff = .ok desReturn := by
  constructor
  · intro hends T buff hbuff
    cases T
    · exact (hends.ipv4.reads buff hbuff).1
    · exact (hends.ipv6.reads buff hbuff).1
  · intro hdecodes
    obtain ⟨h6, h4⟩ := h.counts hpasses
    have hmem : pass ∈ env.passes := by
      rw [hpasses]
      simp
    exact ⟨⟨h.receivers .inet6, fun buff hbuff => ⟨hdecodes .inet6 buff hbuff, h6⟩⟩,
      ⟨h.receivers .inet, fun buff hbuff => ⟨hdecodes .inet buff hbuff, h4⟩⟩, h.clients pass hmem⟩

/-- After the last pass nothing on an orderly host keeps the iteration from ending. -/
theorem Orderly.receiveAndReply_ends (h : Orderly env nnd) {nnd₁ : NetworkNeighborDiscoverer}
    (hlistening : nnd₁.listening = nnd.listening) {sentIPv6 : List (Sent .inet6)}
    {sentIPv4 : List (Sent .inet)} {logger : Logger} (hlogger : logger.isSome = true)
    {before : List Pass} {pass : Pass}
    (hreaches : Reaches host env nnd.listening true before pass)
    (hends : PassEndsAfter host env nnd.listening true before pass)
    (hstop : ¬ nnd.listening.Continues env.nifs env (nnd.listening.receivedAll env.nifs 0 before)
      pass) :
    ∃ result, Logging.Yields (receiveAndReply host env nnd₁ sentIPv6 sentIPv4) logger
      (.ok result) := by
  rw [← hlistening, ← hlogger] at hreaches hends
  rw [← hlistening] at hstop
  obtain ⟨after, hpasses⟩ := hreaches.passes
  obtain ⟨r, hloop, hrequest, -, hreceives⟩ :=
    @receiveLoop_stop host env nnd₁ env.nifs logger.isSome before after pass hreaches.goesOn hends
      hstop
  rw [← hpasses] at hloop
  obtain ⟨neighbors, htable⟩ := @updateNeighbors_returns host env env.nifs h.prefixes nnd₁
    r.receivedNifs
  by_cases hasks : nnd₁.listening.Asks pass
  · obtain ⟨client, pending, haccepted, -⟩ := id hasks
    have hmem : pass ∈ env.passes := by
      rw [hpasses]
      simp
    obtain ⟨⟨ret, handed⟩, hsend⟩ := h.writes pass hmem (hlistening ▸ hasks) ⟨client.fd, [], false⟩
      (serializeNetInterfaces host.order [] (neighbors.data env.dataOrder))
    rw [collected_eq hreceives] at htable
    obtain ⟨passes, hyields⟩ := @receiveAndReply_asked host env nnd₁ sentIPv6 sentIPv4 logger
      before pass client neighbors ret handed ⟨hreaches, hends, hasks, haccepted⟩ htable hsend
    rw [if_neg (by rw [hlogger]; simp)] at hyields
    exact ⟨_, hyields⟩
  · exact ⟨_, receiveAndReply_unasked (hloop logger rfl) htable
      (Bool.eq_false_iff.mpr fun htrue => hasks (hrequest.mp htrue))⟩

theorem runIteration_ok_iff :
    (∃ nnd' out, runIteration host env nnd = .ok (nnd', out)) ↔
      ∀ e, iterate host env nnd nnd.logger ≠ .error e := by
  constructor
  · intro h e hfault
    obtain ⟨nnd', out, hrun⟩ := h
    rw [runIteration_error.mpr hfault] at hrun
    cases hrun
  · intro h
    cases hrun : runIteration host env nnd with
    | error e => exact absurd (runIteration_error.mp hrun) (h e)
    | ok result => exact ⟨result.1, result.2, rfl⟩

theorem buffer_nil (l : Listening) (pass : Pass) (T : Family) : l.buffer [] pass T = none := by
  have huses : l.uses [] T = false := by cases T <;> rfl
  unfold Listening.buffer filled
  rw [huses]
  simp

/-- An iteration of an orderly host ends exactly if every pass it comes to ends. -/
theorem Orderly.ends_iff (h : Orderly env nnd) :
    (∃ nnd' out, runIteration host env nnd = .ok (nnd', out)) ↔
      ∀ before pass, Reaches host env nnd.listening true before pass →
        PassEndsAfter host env nnd.listening true before pass := by
  rw [runIteration_ok_iff]
  by_cases hnifs : env.nifs = []
  · refine ⟨fun _ before pass hreaches => ?_, fun _ e hfault => ?_⟩
    · obtain ⟨after, hpasses⟩ := hreaches.passes
      refine (h.passEnds_iff hpasses).mpr fun T buff hbuff => ?_
      rw [hnifs, buffer_nil] at hbuff
      cases hbuff
    · have hfailed := ((iterate_idle hnifs).mp hfault).2.1
      rw [h.interfaces] at hfailed
      cases hfailed
  obtain ⟨nnd₁, sentIPv6, sentIPv4, logger, hlistening, -, hlogger, hiterate⟩ :=
    @iterate_discovers host env nnd hnifs nnd.logger
  rw [h.logger] at hlogger
  rw [hiterate]
  constructor
  · intro hends before pass hreaches
    by_contra hpass
    rw [← hlistening, ← hlogger] at hreaches hpass
    obtain ⟨e, hyields, -⟩ := @receiveAndReply_fault host env nnd₁ sentIPv6 sentIPv4 logger before
      pass hreaches hpass
    exact hends e hyields
  · intro hall e
    rcases @Listening.goesOn_or_stops nnd.listening env.nifs host env true 0 env.passes with
      hon | ⟨before, pass, after, hpasses, hbefore, hstop⟩
    · obtain ⟨pass, hpass, hlate⟩ := h.late
      exact absurd hlate (UInt32.not_le.mpr (goesOn_early hon pass hpass))
    · have hreaches : Reaches host env nnd.listening true before pass := ⟨⟨after, hpasses⟩, hbefore⟩
      have hends := hall before pass hreaches
      obtain ⟨result, hyields⟩ := @Orderly.receiveAndReply_ends host env nnd h nnd₁ hlistening
        sentIPv6 sentIPv4 logger hlogger before pass hreaches hends
        fun hgoes => hstop ⟨hends, hgoes⟩
      exact hyields.not_error e

/-- What ends the decoder on a buffer ends the half of the pass that filled it. -/
theorem receiveHalf_undecoded {T : Family} {nifs : List NetInterface} {pass : Pass} {r : Reception}
    {buff : Bytes} {e : Fault} (hreceiver : ¬ nnd.listening.LacksReceiver nifs T)
    (hbuffer : nnd.listening.buffer nifs pass T = some buff) (hdecode : decode host buff = .error e)
    (hcounts : ∃ sum, addInt r.receivedBytes (nnd.listening.gained nifs pass T) = .ok sum)
    (logger : Logger) :
    Logging.Yields (receiveHalf host T nnd (canUse T nifs) pass r) logger (.error e) := by
  obtain ⟨sum, hsum⟩ := hcounts
  refine receiveHalf_counts hreceiver hbuffer fun logger' => ?_
  cases T with
  | inet =>
    exact (Logging.yields_lift hsum).bind fun _ _ => (storeReceived_fault hdecode _ _).fault
  | inet6 => exact (storeReceived_fault hdecode _ _).fault

/-- A pass whose buffers decode or end the decoder in one way ends in this way. -/
theorem receivePass_undecoded {nifs : List NetInterface} {pass : Pass} {r : Reception} {e : Fault}
    (hreceivers : ∀ T, ¬ nnd.listening.LacksReceiver nifs T)
    (h6 : ∃ sum, addInt r.receivedBytes (nnd.listening.gained nifs pass .inet6) = .ok sum)
    (h4 : ∃ sum, addInt (r.receivedBytes + nnd.listening.gained nifs pass .inet6)
      (nnd.listening.gained nifs pass .inet) = .ok sum)
    (hbuffers : ∀ T buff, nnd.listening.buffer nifs pass T = some buff →
      (∃ desReturn, decode host buff = .ok desReturn) ∨ decode host buff = .error e)
    (hundecoded : ∃ T buff, nnd.listening.buffer nifs pass T = some buff ∧
      decode host buff = .error e) (logger : Logger) :
    Logging.Yields (receivePass host nnd nifs pass r) logger (.error e) := by
  by_cases hends : nnd.listening.HalfEnds nifs host pass r.receivedBytes .inet6
  · obtain ⟨r₁, hrun₁, hbytes₁, -, -⟩ := receiveHalf_ends hends
    obtain ⟨T, buff, hbuffer, hdecode⟩ := hundecoded
    rw [← hbytes₁] at h4
    cases T with
    | inet =>
      exact (hrun₁ logger).bind fun logger₁ _ =>
        (receiveHalf_undecoded (hreceivers .inet) hbuffer hdecode h4 logger₁).fault
    | inet6 =>
      obtain ⟨⟨desReturn, hok⟩, -⟩ := hends.reads buff hbuffer
      cases hdecode.symm.trans hok
  · have hbuffer : ∃ buff, nnd.listening.buffer nifs pass .inet6 = some buff ∧
        decode host buff = .error e := by
      by_contra hnone
      refine hends ⟨hreceivers .inet6, fun buff hbuff => ⟨?_, h6⟩⟩
      exact (hbuffers .inet6 buff hbuff).resolve_right fun hdecode => hnone ⟨buff, hbuff, hdecode⟩
    obtain ⟨buff, hbuffer, hdecode⟩ := hbuffer
    exact (receiveHalf_undecoded (hreceivers .inet6) hbuffer hdecode h6 logger).fault

/-- An orderly host comes to a pass that ends the decoder: so ends its iteration. -/
theorem Orderly.undecoded (h : Orderly env nnd) {before : List Pass} {pass : Pass} {e : Fault}
    (hreaches : Reaches host env nnd.listening true before pass)
    (hbuffers : ∀ T buff, nnd.listening.buffer env.nifs pass T = some buff →
      (∃ desReturn, decode host buff = .ok desReturn) ∨ decode host buff = .error e)
    (hundecoded : ∃ T buff, nnd.listening.buffer env.nifs pass T = some buff ∧
      decode host buff = .error e) :
    runIteration host env nnd = .error e := by
  have hnifs : env.nifs ≠ [] := by
    intro hnil
    obtain ⟨T, buff, hbuffer, -⟩ := hundecoded
    rw [hnil, buffer_nil] at hbuffer
    cases hbuffer
  obtain ⟨nnd₁, sentIPv6, sentIPv4, logger, hlistening, -, hlogger, hiterate⟩ :=
    @iterate_discovers host env nnd hnifs nnd.logger
  obtain ⟨after, hpasses⟩ := hreaches.passes
  obtain ⟨h6, h4⟩ := h.counts hpasses
  have hreceivers := h.receivers
  have hgoes := hreaches.goesOn
  rw [← hlistening] at h6 h4 hreceivers hgoes hbuffers hundecoded
  obtain ⟨r₁, hcomes⟩ := receiveLoop_advance (r := .start) rfl hgoes
  rw [show nnd₁.listening.receivedAll env.nifs 0 before = r₁.receivedBytes from
    hcomes.bytes.symm] at h6 h4
  have hend : ∀ logger₁ : Logger, logger₁.isSome = true →
      Logging.Yields (receiveLoop host env nnd₁ env.nifs (pass :: after) r₁) logger₁ (.error e) :=
    fun logger₁ _ => (receivePass_undecoded hreceivers h6 h4 hbuffers hundecoded logger₁).fault
  have hloop := hcomes.loop logger (hlogger.trans h.logger) hend
  rw [← hpasses] at hloop
  rw [runIteration_error, hiterate]
  exact hloop.fault

end Orderly

section Link

variable {ν : Type} [DecidableEq ν] {site : ν → Site} {s : Link ν}

theorem settings_of_reachable (hs : Reachable (daemons site) s) (i : ν) :
    (s.node i).settings = (site i).settings := by
  obtain ⟨init, ⟨logger, calls, hinit⟩, hrun⟩ := hs.run i
  rw [DaemonRun.settings_eq hrun, (construct_ok hinit).settings]

theorem buffer_of_incoming {l : Listening} {nifs : List NetInterface} {pass : Pass} {T : Family}
    {d : Incoming} (huses : l.uses nifs T = true) (hd : pass.incoming T = some d)
    (hpos : d.data ≠ []) (hmax : 0 < l.settings.maxBufferSize.toNat) :
    l.buffer nifs pass T =
      some (IPMulticastReceiver.receive l.settings.maxBufferSize (some d)).1 := by
  have hlen := List.length_pos_of_ne_nil hpos
  have hsize := toInt_size l.settings.maxBufferSize d
  unfold Listening.buffer filled
  rw [huses, hd, if_pos ⟨rfl, by omega⟩]

/-- Every datagram that an iteration of host `i` comes to is the announcement of a host
of its own byte order. -/
def HearsOwnOrder (site : ν → Site) (s : Link ν) (i : ν) (env : Env) : Prop :=
  ∀ before pass, Reaches (site i).host env (s.node i).listening true before pass →
    ∀ T d, (s.node i).listening.uses env.nifs T = true → pass.incoming T = some d →
      ∃ b ∈ s.begun, (site b.node).host.order = (site i).host.order ∧
        d.data = announcement (site b.node).host b.input.nifs

/-- On hosts with fewer than 256 interfaces, an iteration of an orderly host ends
exactly if it hears its own byte order only, and else the first announcement of the
other one ends the daemon. -/
theorem round_ends_iff (hs : Reachable (daemons site) s)
    (hlim : ∀ n, (site n).host.lim.Ample 65535 ∧ (site n).host.lim.interfaces.maxSize < 2 ^ 56)
    (hmax : ∀ n, 8 ≤ (site n).settings.maxBufferSize.toNat)
    (hcounts : ∀ b ∈ s.begun, b.input.nifs.length < 256) {i : ν} {env : Env}
    (hwaiting : ∀ pass ∈ env.passes, ∀ T d, pass.incoming T = some d →
      s.Sent (daemons site) d.data)
    (horderly : Orderly env (s.node i)) :
    ((∃ nnd' out, Iterates (site i).host (s.node i) env out nnd') ↔ HearsOwnOrder site s i env) ∧
      (¬ HearsOwnOrder site s i env →
        runIteration (site i).host env (s.node i) = .error .lengthError) := by
  have hsettings := settings_of_reachable hs i
  have hroom : 8 ≤ (s.node i).settings.maxBufferSize.toNat := by
    rw [hsettings]
    exact hmax i
  have hannounced : ∀ {before pass},
      Reaches (site i).host env (s.node i).listening true before pass →
      ∀ {T d}, pass.incoming T = some d → ∃ b ∈ s.begun,
        d.data = announcement (site b.node).host b.input.nifs ∧
          b.input.nifs.length % 256 ≠ 0 := by
    intro before pass hreaches T d hd
    obtain ⟨after, hpasses⟩ := hreaches.passes
    obtain ⟨b, hb, ⟨n, hn, -⟩, hdata⟩ := announcement_of_sent
      (hwaiting pass (by rw [hpasses]; simp) T d hd)
    have hpos := List.length_pos_of_mem hn
    have hlt := hcounts b hb
    exact ⟨b, hb, hdata, by omega⟩
  have hbuffers : ∀ {pass T buff},
      (s.node i).listening.buffer env.nifs pass T = some buff → ∃ d,
        (s.node i).listening.uses env.nifs T = true ∧ pass.incoming T = some d ∧
          buff = (IPMulticastReceiver.receive (s.node i).settings.maxBufferSize (some d)).1 := by
    intro pass T buff hbuff
    obtain ⟨huses, d, hd, heq⟩ := filled_eq_some hbuff
    exact ⟨d, huses, hd, heq⟩
  have hfault : ¬ HearsOwnOrder site s i env →
      runIteration (site i).host env (s.node i) = .error .lengthError := by
    intro hforeign
    unfold HearsOwnOrder at hforeign
    simp only [not_forall] at hforeign
    obtain ⟨before, pass, hreaches, T, d, huses, hd, hnone⟩ := hforeign
    refine horderly.undecoded hreaches (fun T' buff hbuff => ?_) ⟨T, _, buffer_of_incoming huses
      hd ?_ (show 0 < (s.node i).settings.maxBufferSize.toNat by omega), ?_⟩
    · obtain ⟨d', -, hd', rfl⟩ := hbuffers hbuff
      obtain ⟨b, -, hdata, hcount⟩ := hannounced hreaches hd'
      by_cases horder : (site b.node).host.order = (site i).host.order
      · exact Or.inl (decode_own_order (hlim i).1 horder hdata)
      · exact Or.inr (decode_other_order (hlim i).2 horder hroom hcount hdata)
    · obtain ⟨b, -, hdata, -⟩ := hannounced hreaches hd
      rw [hdata]
      exact announcement_ne_nil _
    · obtain ⟨b, hb, hdata, hcount⟩ := hannounced hreaches hd
      refine decode_other_order (hlim i).2 (fun horder => hnone ?_) hroom hcount hdata
      exact ⟨b, hb, horder, hdata⟩
  refine ⟨⟨fun hends => ?_, fun hown => horderly.ends_iff.mpr fun before pass hreaches => ?_⟩,
    hfault⟩
  · by_contra hforeign
    obtain ⟨nnd', out, hrun⟩ := hends
    cases (hfault hforeign).symm.trans hrun
  · obtain ⟨after, hpasses⟩ := hreaches.passes
    refine (horderly.passEnds_iff hpasses).mpr fun T buff hbuff => ?_
    obtain ⟨d, huses, hd, rfl⟩ := hbuffers hbuff
    obtain ⟨b, -, horder, hdata⟩ := hown before pass hreaches T d huses hd
    exact decode_own_order (hlim i).1 horder hdata

end Link

namespace Small

/-- Nothing fails in an iteration of one pass that brings no client and uses up the
sending period. -/
theorem orderly_of_quiet (n : Bool) {pass : Pass} (hquiet : init.listening.accepted pass = none)
    (hnow : pass.now = 30000000000) : Orderly (env [linked n] [pass] 0) init := by
  have hpasses : ∀ {pass'}, pass' ∈ (env [linked n] [pass] 0).passes → pass' = pass :=
    fun hpass => List.mem_singleton.mp hpass
  refine ⟨rfl, rfl, fun nif hnif ip hip => ?_, fun T hlacks => ?_,
    fun pass' hpass client hclient => ?_, ?_, ⟨pass, List.mem_singleton_self _, ?_⟩,
    fun pass' hpass hasks => ?_⟩
  · rw [show (env [linked n] [pass] 0).nifs = [linked n] from rfl, List.mem_singleton] at hnif
    subst hnif
    cases n
    · rw [List.mem_singleton.mp hip]
      decide
    · rw [List.mem_singleton.mp hip]
      decide
  · cases T
    · cases hlacks.2
    · cases hlacks.2
  · rw [hpasses hpass, hquiet] at hclient
    cases hclient
  · have h6 := (gained_bounds init.listening [linked n] pass .inet6).2
    have h4 := (gained_bounds init.listening [linked n] pass .inet).2
    show init.listening.received [linked n] pass 0 < 2 ^ 31
    unfold Listening.received
    omega
  · unfold receiveTimePassedS
    rw [hnow]
    show (30 : UInt32) ≤ 30
    decide
  · rw [hpasses hpass] at hasks
    exact absurd hasks (Listening.not_asks hquiet)

/-- One of the two hosts has the other byte order. -/
def mixed (n : Bool) : Site :=
  ⟨{ host with order := if n then .big else .little }, settings, localSettings⟩

theorem swapped_announced : (announcement (mixed true).host [remoteV6]).length ≤ 65535 := by decide

def swapped : Pass where
  ipv6 := some ⟨announcement (mixed true).host [remoteV6], text "fe80::2", swapped_announced⟩
  ipv4 := none
  client := none
  now := 30000000000

def mixes (n : Bool) : Env := env [linked n] [swapped] 0

def mixing : Link Bool :=
  (State.begin ⟨fun _ => init, fun _ => none, [], fun _ => []⟩ false (mixes false)).begin true
    (mixes true)

theorem mixing_reached : Reachable (daemons mixed) mixing := by
  have hstart : Reachable (daemons mixed) ⟨fun _ => init, fun _ => none, [], fun _ => []⟩ :=
    .start fun _ => ⟨some [], calls, construct_init⟩
  exact (hstart.begin (n := false) (mixes false) rfl).begin (n := true) (mixes true) rfl

set_option maxRecDepth 20000 in
theorem mixes_sends : ∃ d ∈ sentOf (mixed true).host (mixes true) init .inet6,
    d.data = announcement (mixed true).host [remoteV6] :=
  ⟨_, List.mem_cons_self, rfl⟩

theorem swapped_sent {T : Family} {d : Incoming} (hd : swapped.incoming T = some d) :
    mixing.Sent (daemons mixed) d.data := by
  cases T
  · cases hd
  · cases hd
    obtain ⟨d', hd', hdata⟩ := mixes_sends
    exact ⟨⟨true, init, mixes true⟩, by simp [mixing, State.begin], .inet6, d', hd', hdata⟩

theorem swapped_foreign : ¬ HearsOwnOrder mixed mixing false (mixes false) := by
  intro hown
  obtain ⟨b, hb, horder, hdata⟩ := hown [] swapped ⟨⟨[], rfl⟩, trivial⟩ .inet6 _ rfl rfl
  rcases List.mem_pair.mp hb with rfl | rfl
  · exact absurd hdata (by decide)
  · cases horder

end Small

theorem round_ends_iff_small :
    ¬ HearsOwnOrder Small.mixed Small.mixing false (Small.mixes false) ∧
      runIteration (Small.mixed false).host (Small.mixes false) Small.init =
        .error .lengthError := by
  have hcounts : ∀ b ∈ Small.mixing.begun, b.input.nifs.length < 256 := by
    intro b hb
    rcases List.mem_pair.mp hb with rfl | rfl
    · decide
    · decide
  have hwaiting : ∀ pass ∈ (Small.mixes false).passes, ∀ T d, pass.incoming T = some d →
      Small.mixing.Sent (daemons Small.mixed) d.data := by
    intro pass hpass T d hd
    rw [List.mem_singleton.mp hpass] at hd
    exact Small.swapped_sent hd
  refine ⟨Small.swapped_foreign, ?_⟩
  exact (@round_ends_iff Bool _ Small.mixed Small.mixing Small.mixing_reached
    (fun _ => ⟨Limits.libstdcxx_ample (by decide),
      show Limits.libstdcxx.interfaces.maxSize < 2 ^ 56 by decide⟩)
    (fun _ => show 8 ≤ Small.settings.maxBufferSize.toNat by decide) hcounts false
    (Small.mixes false) hwaiting (Small.orderly_of_quiet false rfl rfl)).2 Small.swapped_foreign

end NeighborDiscovery
