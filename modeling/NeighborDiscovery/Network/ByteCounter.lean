/-
The byte counter of the receive loop.

`receivedBytes` is the sum of the sizes of the datagrams read in one iteration, as long
as this sum is an `int`.  The loop bounds the time it reads for and nothing bounds what
arrives in that time, so that the sum can leave `int`.
-/
import NeighborDiscovery.Network.LoopPasses
import NeighborDiscovery.Network.ReceiveCourse
import NeighborDiscovery.Network.Truncation

namespace NeighborDiscovery

/-! ## The additions of a pass -/

namespace Listening

variable (l : Listening) (nifs : List NetInterface) (host : Host) (pass : Pass)

/-- A half of a pass comes to its addition, if it finds data.  The IPv6 half decodes
before it adds. -/
def Adds : Family → Prop
  | .inet => ¬ l.LacksReceiver nifs .inet
  | .inet6 => ¬ l.LacksReceiver nifs .inet6 ∧
      ∀ buff, l.buffer nifs pass .inet6 = some buff → ∃ desReturn, decode host buff = .ok desReturn

/-- The sums that a pass comes to are of type `int`. -/
structure SumsFit (bytes : Int) : Prop where
  ipv6 : l.Adds nifs host pass .inet6 → bytes + l.gained nifs pass .inet6 < 2 ^ 31
  ipv4 : l.Adds nifs host pass .inet6 → l.Adds nifs host pass .inet →
    bytes + l.gained nifs pass .inet6 + l.gained nifs pass .inet < 2 ^ 31

variable {l nifs host pass}

theorem gained_none {T : Family} (h : l.buffer nifs pass T = none) : l.gained nifs pass T = 0 := by
  unfold gained
  rw [h]
  rfl

theorem gained_pos {T : Family} {buff : Bytes} (h : l.buffer nifs pass T = some buff) :
    0 < l.gained nifs pass T := by
  unfold gained
  rw [h, Option.isSome_some, if_pos rfl]
  unfold buffer filled at h
  split at h
  · rename_i hused
    exact hused.2
  · cases h

end Listening

theorem addInt_returns_iff {a b : Int} (ha : 0 ≤ a) (hb : 0 ≤ b) :
    (∃ sum, addInt a b = .ok sum) ↔ a + b < 2 ^ 31 := by
  unfold addInt
  by_cases hsum : a + b < 2 ^ 31
  · rw [if_pos ⟨by omega, hsum⟩]
    exact iff_of_true ⟨_, rfl⟩ hsum
  · rw [if_neg fun h => hsum h.2]
    exact iff_of_false (fun h => by cases h.choose_spec) hsum

theorem addInt_overflow {a b : Int} (h : ¬∃ sum, addInt a b = .ok sum) :
    addInt a b = .error .signedOverflow := by
  unfold addInt at h ⊢
  split
  · rename_i hrange
    rw [if_pos hrange] at h
    exact absurd ⟨_, rfl⟩ h
  · rfl

section Halves

variable {host : Host} {T : Family} {nnd : NetworkNeighborDiscoverer} {nifs : List NetInterface}
  {pass : Pass} {r : Reception} {logger : Logger}

theorem decode_not_overflow (buff : Bytes) : decode host buff ≠ .error .signedOverflow := by
  intro h
  have h : Prod.fst <$> (deserializeNetInterfaces host.order host.lim buff).run 0 =
      .error .signedOverflow := h
  rw [map_eq_pure_bind] at h
  rcases Fallible.bind_eq_error.mp h with hrun | ⟨p, -, h⟩
  · exact (netInterfaces_faultsOfBuffer host.order host.lim buff 0 _ hrun).not_overflow rfl
  · cases h

theorem decode_error_ne {buff : Bytes} {e : Fault} (h : decode host buff = .error e) :
    (.error e : Except Fault (Reception × Option Bytes)) ≠ .error .signedOverflow := by
  intro heq
  rw [Except.error.inj heq] at h
  exact decode_not_overflow buff h

/-- The IPv6 half decodes the buffer and then adds its size. -/
theorem takeBuffer_inet6 (host : Host) (buff : Bytes) (n : Int) (r : Reception) :
    ∃ o, (∀ logger, Logging.Yields (takeBuffer host .inet6 buff n r) logger o) ∧
      (o = .error .signedOverflow ↔ (¬∃ sum, addInt r.receivedBytes n = .ok sum) ∧
        ∃ desReturn, decode host buff = .ok desReturn) := by
  cases hdecode : decode host buff with
  | error e =>
    refine ⟨.error e, fun _ => (storeReceived_fault hdecode _ _).fault,
      iff_of_false (decode_error_ne hdecode) fun hboth => ?_⟩
    obtain ⟨desReturn, hdecodes⟩ := hboth.2
    cases hdecodes
  | ok desReturn =>
    by_cases hsum : ∃ sum, addInt r.receivedBytes n = .ok sum
    · obtain ⟨sum, hadd⟩ := hsum
      refine ⟨_, fun _ => takeBuffer_yields hdecode hadd, iff_of_false (fun h => by cases h) ?_⟩
      exact fun hboth => hboth.1 ⟨sum, hadd⟩
    · refine ⟨.error .signedOverflow, fun _ => ?_, iff_of_true rfl ⟨hsum, desReturn, rfl⟩⟩
      exact (storeReceived_yields hdecode _ _).bind fun _ _ =>
        (Logging.yields_lift (addInt_overflow hsum)).fault

/-- The IPv4 half adds the size and then decodes. -/
theorem takeBuffer_inet (host : Host) (buff : Bytes) (n : Int) (r : Reception) :
    ∃ o, (∀ logger, Logging.Yields (takeBuffer host .inet buff n r) logger o) ∧
      (o = .error .signedOverflow ↔ ¬∃ sum, addInt r.receivedBytes n = .ok sum) := by
  by_cases hsum : ∃ sum, addInt r.receivedBytes n = .ok sum
  · obtain ⟨sum, hadd⟩ := hsum
    have hfits : ¬¬∃ sum, addInt r.receivedBytes n = .ok sum := not_not_intro ⟨sum, hadd⟩
    cases hdecode : decode host buff with
    | error e =>
      refine ⟨.error e, fun _ => ?_, iff_of_false (decode_error_ne hdecode) hfits⟩
      exact (Logging.yields_lift hadd).bind fun _ _ => (storeReceived_fault hdecode _ _).fault
    | ok desReturn =>
      exact ⟨_, fun _ => takeBuffer_yields hdecode hadd, iff_of_false (fun h => by cases h) hfits⟩
  · exact ⟨.error .signedOverflow, fun _ => (Logging.yields_lift (addInt_overflow hsum)).fault,
      iff_of_true rfl hsum⟩

/-- A buffer that is taken makes the sum overflow, or it does not and neither does
anything else. -/
theorem takeBuffer_outcome (host : Host) (T : Family) (buff : Bytes) (n : Int) (r : Reception) :
    ∃ o, (∀ logger, Logging.Yields (takeBuffer host T buff n r) logger o) ∧
      (o = .error .signedOverflow ↔ (¬∃ sum, addInt r.receivedBytes n = .ok sum) ∧
        (T = .inet6 → ∃ desReturn, decode host buff = .ok desReturn)) := by
  cases T with
  | inet6 =>
    obtain ⟨o, hyields, hover⟩ := takeBuffer_inet6 host buff n r
    refine ⟨o, hyields, hover.trans (and_congr_right fun _ => ?_)⟩
    exact ⟨fun h _ => h, fun h => h rfl⟩
  | inet =>
    obtain ⟨o, hyields, hover⟩ := takeBuffer_inet host buff n r
    exact ⟨o, hyields, hover.trans (and_iff_left fun h => by cases h).symm⟩

/-- A half of a pass overflows exactly if it comes to a sum that is no `int`. -/
theorem receiveHalf_overflow_iff (hbytes : 0 ≤ r.receivedBytes ∧ r.receivedBytes < 2 ^ 31) :
    receiveHalf host T nnd (canUse T nifs) pass r logger = .error .signedOverflow ↔
      nnd.listening.Adds nifs host pass T ∧
        ¬r.receivedBytes + nnd.listening.gained nifs pass T < 2 ^ 31 := by
  by_cases hlacks : nnd.listening.LacksReceiver nifs T
  · have hnull : Logging.Yields (receiveHalf host T nnd (canUse T nifs) pass r) logger
        (.error (.nullDereference (receiverOf T))) := receiveHalf_null hlacks.1 hlacks.2
    refine iff_of_false (fun h => ?_) fun hboth => ?_
    · cases (hnull.eq_error_iff _).mp h
    · cases T
      · exact hboth.1 hlacks
      · exact hboth.1.1 hlacks
  · cases hbuffer : nnd.listening.buffer nifs pass T with
    | none =>
      rw [Listening.gained_none hbuffer]
      have hempty : Logging.Yields (receiveHalf host T nnd (canUse T nifs) pass r) logger _ :=
        receiveHalf_empty (Listening.hasReceiver_of_uses hlacks) hbuffer
      exact iff_of_false (hempty.not_error _) fun hboth => hboth.2 (by omega)
    | some buff =>
      obtain ⟨o, ho, hoverflow⟩ :=
        takeBuffer_outcome host T buff (nnd.listening.gained nifs pass T) r
      have hhalf : Logging.Yields (receiveHalf host T nnd (canUse T nifs) pass r) logger o :=
        receiveHalf_counts hlacks hbuffer ho
      have hgained := (gained_bounds nnd.listening nifs pass T).1
      rw [hhalf.eq_error_iff, hoverflow, addInt_returns_iff hbytes.1 hgained]
      constructor
      · intro h
        refine ⟨?_, h.1⟩
        cases T with
        | inet => exact hlacks
        | inet6 =>
          refine ⟨hlacks, fun buff' hbuff' => ?_⟩
          rw [hbuffer] at hbuff'
          cases hbuff'
          exact h.2 rfl
      · intro h
        refine ⟨h.2, fun hinet6 => ?_⟩
        subst hinet6
        exact h.1.2 buff hbuffer

/-- A half that ends has come to a sum that is an `int`. -/
theorem Listening.HalfEnds.sum_lt {bytes : Int} (hbytes : 0 ≤ bytes ∧ bytes < 2 ^ 31)
    (h : nnd.listening.HalfEnds nifs host pass bytes T) :
    bytes + nnd.listening.gained nifs pass T < 2 ^ 31 := by
  cases hbuffer : nnd.listening.buffer nifs pass T with
  | none =>
    rw [Listening.gained_none hbuffer]
    omega
  | some buff =>
    exact (addInt_returns_iff hbytes.1 (gained_bounds nnd.listening nifs pass T).1).mp
      (h.reads buff hbuffer).2

theorem Listening.HalfEnds.adds {bytes : Int} (h : nnd.listening.HalfEnds nifs host pass bytes T) :
    nnd.listening.Adds nifs host pass T := by
  cases T with
  | inet => exact h.receiver
  | inet6 => exact ⟨h.receiver, fun buff hbuffer => (h.reads buff hbuffer).1⟩

theorem Listening.halfEnds_inet6 {bytes : Int} (hbytes : 0 ≤ bytes ∧ bytes < 2 ^ 31)
    (h : nnd.listening.Adds nifs host pass .inet6)
    (hsum : bytes + nnd.listening.gained nifs pass .inet6 < 2 ^ 31) :
    nnd.listening.HalfEnds nifs host pass bytes .inet6 :=
  ⟨h.1, fun buff hbuffer => ⟨h.2 buff hbuffer, (addInt_returns_iff hbytes.1
    (gained_bounds nnd.listening nifs pass .inet6).1).mpr hsum⟩⟩

/-- A half that does not end faults. -/
theorem receiveHalf_faults (h : ¬nnd.listening.HalfEnds nifs host pass r.receivedBytes T) :
    ∃ e, ∀ logger, receiveHalf host T nnd (canUse T nifs) pass r logger = .error e := by
  by_cases hlacks : nnd.listening.LacksReceiver nifs T
  · exact ⟨_, fun _ => receiveHalf_null hlacks.1 hlacks.2⟩
  · obtain ⟨e, -, hfault⟩ := receiveHalf_fault hlacks h
    exact ⟨e, hfault⟩

theorem acceptRequest_not_overflow :
    acceptRequest nnd pass r logger ≠ .error .signedOverflow := by
  cases haccepted : nnd.listening.accepted pass with
  | none => exact (acceptRequest_none haccepted).not_error _
  | some client =>
    by_cases hread : ∃ pending, client.result = some (.read pending)
    · obtain ⟨pending, hresult⟩ := hread
      exact (acceptRequest_read haccepted hresult).not_error _
    · by_cases hfailed : client.result = some .failed
      · by_cases hlogger : logger.isSome = true
        · intro h
          cases (acceptRequest_unread haccepted hfailed hlogger).error_eq h
        · exact (acceptRequest_unlogged haccepted hfailed
            (Bool.eq_false_iff.mpr hlogger)).not_error _
      · intro h
        cases (acceptRequest_waits haccepted (fun pending hresult => hread ⟨pending, hresult⟩)
          hfailed).error_eq h

end Halves

section Passes

variable {host : Host} {env : Env} {nnd : NetworkNeighborDiscoverer} {nifs : List NetInterface}
  {start logger : Logger} {before rest : List Pass} {pass : Pass} {r : Reception}

/-- After an IPv6 half that ends, only the IPv4 half can make the pass overflow. -/
theorem receivePass_overflow_after {r₁ : Reception} {buff : Option Bytes} {logger₁ : Logger}
    (hrun : receiveHalf host .inet6 nnd (canUse .inet6 nifs) pass r logger =
      .ok ((r₁, buff), logger₁)) :
    receivePass host nnd nifs pass r logger = .error .signedOverflow ↔
      receiveHalf host .inet nnd (canUse .inet nifs) pass r₁ logger₁ = .error .signedOverflow := by
  have hrun : receiveIPv6 host nnd (canUseIPv6 nifs) pass r logger = _ := hrun
  unfold receivePass
  rw [Logging.bind_run hrun, Logging.bind_eq_error]
  refine or_iff_left fun h => ?_
  obtain ⟨⟨r₂, buff4⟩, logger₂, -, h⟩ := h
  rcases Logging.bind_eq_error.mp h with hclient | ⟨⟨r₃, client⟩, logger₃, -, h⟩
  · exact acceptRequest_not_overflow hclient
  · cases h

/-- A pass overflows exactly if it comes to a sum that is no `int`. -/
theorem receivePass_overflow_iff (hbytes : 0 ≤ r.receivedBytes ∧ r.receivedBytes < 2 ^ 31) :
    receivePass host nnd nifs pass r logger = .error .signedOverflow ↔
      ¬nnd.listening.SumsFit nifs host pass r.receivedBytes := by
  by_cases h6 : nnd.listening.HalfEnds nifs host pass r.receivedBytes .inet6
  · obtain ⟨r₁, hrun, hbytes₁, -, -⟩ := receiveHalf_ends h6
    obtain ⟨logger₁, hrun, -⟩ := hrun logger
    have hsum := h6.sum_lt hbytes
    have hgained := (gained_bounds nnd.listening nifs pass .inet6).1
    have hr₁ : 0 ≤ r₁.receivedBytes ∧ r₁.receivedBytes < 2 ^ 31 := by
      rw [hbytes₁]
      omega
    rw [receivePass_overflow_after hrun, receiveHalf_overflow_iff hr₁, hbytes₁]
    constructor
    · intro hover hfit
      exact hover.2 (hfit.ipv4 h6.adds hover.1)
    · intro hnot
      by_contra hover
      refine hnot ⟨fun _ => hsum, fun _ hadds => ?_⟩
      by_contra hlarge
      exact hover ⟨hadds, hlarge⟩
  · obtain ⟨e, hfault⟩ := receiveHalf_faults h6
    have hpass : receivePass host nnd nifs pass r logger = .error e :=
      Logging.bind_eq_error.mpr (Or.inl (hfault logger))
    have hhalf := @receiveHalf_overflow_iff host .inet6 nnd nifs pass r logger hbytes
    rw [hfault logger, Except.error.injEq] at hhalf
    rw [hpass, Except.error.injEq, hhalf]
    constructor
    · intro hover hfit
      exact hover.2 (hfit.ipv6 hover.1)
    · intro hnot
      by_contra hover
      have hfits : nnd.listening.Adds nifs host pass .inet6 →
          r.receivedBytes + nnd.listening.gained nifs pass .inet6 < 2 ^ 31 := by
        intro hadds
        by_contra hlarge
        exact hover ⟨hadds, hlarge⟩
      refine hnot ⟨hfits, fun hadds _ => ?_⟩
      exact absurd (Listening.halfEnds_inet6 hbytes hadds (hfits hadds)) h6

/-! ## The passes of the loop -/

theorem PassEnds.received_lt {bytes : Int} (hbytes : 0 ≤ bytes ∧ bytes < 2 ^ 31) {logging : Bool}
    (h : nnd.listening.PassEnds nifs host pass bytes logging) :
    bytes ≤ nnd.listening.received nifs pass bytes ∧
      nnd.listening.received nifs pass bytes < 2 ^ 31 := by
  have hsum := h.ipv6.sum_lt hbytes
  have h6 := (gained_bounds nnd.listening nifs pass .inet6).1
  have h4 := (gained_bounds nnd.listening nifs pass .inet).1
  have hall := h.ipv4.sum_lt ⟨by omega, hsum⟩
  unfold Listening.received
  omega

/-- Where the loop starts a pass, the counter is the sum of the sizes read so far. -/
theorem AtPass.bytes (h : AtPass host env nnd nifs start before r logger) :
    r.receivedBytes = nnd.listening.receivedAll nifs 0 before ∧
      0 ≤ r.receivedBytes ∧ r.receivedBytes < 2 ^ 31 := by
  refine ⟨h.goesOn.2.1, ?_⟩
  induction h with
  | first => exact ⟨Int.le_refl 0, by decide⟩
  | @next before rest pass r r' logger logger' hat hpasses hrun hround ih =>
    obtain ⟨hends, hreceived, -⟩ := receivePass_result hrun
    obtain ⟨hle, hlt⟩ := PassEnds.received_lt ih hends
    rw [hreceived]
    exact ⟨by omega, hlt⟩

/-- A pass that reads a datagram adds to the counter. -/
theorem received_pos {bytes : Int} (h : ¬Silent nnd nifs pass) :
    bytes < nnd.listening.received nifs pass bytes := by
  have h6 := (gained_bounds nnd.listening nifs pass .inet6).1
  have h4 := (gained_bounds nnd.listening nifs pass .inet).1
  have hpos : ∃ T, 0 < nnd.listening.gained nifs pass T := by
    by_contra hnone
    have hbuffer : ∀ T, nnd.listening.buffer nifs pass T = none := by
      intro T
      cases hbuff : nnd.listening.buffer nifs pass T with
      | none => rfl
      | some buff => exact absurd ⟨T, Listening.gained_pos hbuff⟩ hnone
    have h6none : filled nnd.settings.maxBufferSize (canUseIPv6 nifs && nnd.ipv6sender.isSome)
        pass.ipv6 = none := hbuffer .inet6
    have h4none : filled nnd.settings.maxBufferSize (canUseIPv4 nifs && nnd.ipv4sender.isSome)
        pass.ipv4 = none := hbuffer .inet
    refine h ?_
    unfold Silent passBuffers
    rw [h6none, h4none]
    rfl
  obtain ⟨T, hT⟩ := hpos
  unfold Listening.received
  cases T with
  | inet => omega
  | inet6 => omega

/-- A loop that overflows does so in a pass that it comes to. -/
theorem receiveLoop_overflow {passes : List Pass}
    (h : AtPass host env nnd nifs start before r logger) (hpasses : env.passes = before ++ passes)
    (hrun : receiveLoop host env nnd nifs passes r logger = .error .signedOverflow) :
    ∃ before' pass rest r₁ logger₁, env.passes = before' ++ pass :: rest ∧
      AtPass host env nnd nifs start before' r₁ logger₁ ∧
      receivePass host nnd nifs pass r₁ logger₁ = .error .signedOverflow := by
  induction passes generalizing before r logger with
  | nil => cases hrun
  | cons pass passes ih =>
    unfold receiveLoop at hrun
    rcases Logging.bind_eq_error.mp hrun with hpass | ⟨r₁, logger₁, hpass, hrun⟩
    · exact ⟨before, pass, passes, r, logger, hpasses, h, hpass⟩
    · split at hrun
      · rename_i hround
        refine ih (.next h hpasses hpass hround) ?_ hrun
        rw [hpasses, List.append_assoc, List.singleton_append]
      · cases hrun

/-- A pass that overflows makes the loop overflow. -/
theorem AtPass.receiveLoop_overflows (h : AtPass host env nnd nifs start before r logger)
    (hpasses : env.passes = before ++ pass :: rest)
    (hpass : receivePass host nnd nifs pass r logger = .error .signedOverflow) :
    receiveLoop host env nnd nifs env.passes .start start = .error .signedOverflow := by
  rw [h.receiveLoop_eq hpasses]
  unfold receiveLoop
  exact Logging.bind_eq_error.mpr (Or.inl hpass)

/-- After a datagram the counter stays positive. -/
theorem AtPass.positive {r' : Reception} {logger' : Logger}
    (hat : AtPass host env nnd nifs start before r logger)
    (hrun : receivePass host nnd nifs pass r logger = .ok (r', logger'))
    (hread : ∃ read ∈ before ++ [pass], ¬Silent nnd nifs read) :
    0 < r'.receivedBytes ∧ r'.receivedBytes < 2 ^ 31 := by
  obtain ⟨hends, hreceived, -⟩ := receivePass_result hrun
  obtain ⟨hle, hlt⟩ := PassEnds.received_lt hat.bytes.2 hends
  rw [hreceived]
  refine ⟨?_, hlt⟩
  cases hat with
  | first =>
    obtain ⟨read, hmem, hsilent⟩ := hread
    rw [List.mem_singleton.mp hmem] at hsilent
    exact received_pos hsilent
  | next _ _ _ hround =>
    have hpositive := hround.1
    omega

end Passes

/-! ## When the counter holds -/

section Counter

variable (host : Host) (env : Env) (nnd : NetworkNeighborDiscoverer) (nifs : List NetInterface)
  (start : Logger)

/-- No sum of the loop leaves `int`, and once a datagram has been read the counter is
positive after every pass. -/
structure CounterHolds : Prop where
  inRange : receiveLoop host env nnd nifs env.passes .start start ≠ .error .signedOverflow
  positive : ∀ before pass rest r logger r' logger',
    AtPass host env nnd nifs start before r logger → env.passes = before ++ pass :: rest →
    receivePass host nnd nifs pass r logger = .ok (r', logger') →
    (∃ read ∈ before ++ [pass], ¬Silent nnd nifs read) →
    0 < r'.receivedBytes ∧ r'.receivedBytes < 2 ^ 31

/-- In every pass that the loop comes to, the sizes of the datagrams read so far add up
to less than 2^31. -/
def SizesFit : Prop :=
  ∀ before pass rest, env.passes = before ++ pass :: rest →
    nnd.listening.GoesOn nifs host env start.isSome 0 before →
    nnd.listening.SumsFit nifs host pass (nnd.listening.receivedAll nifs 0 before)

/-- The counter holds if and only if the sizes do not add up to 2^31 or more. -/
theorem counterHolds_iff :
    CounterHolds host env nnd nifs start ↔ SizesFit host env nnd nifs start := by
  constructor
  · intro hholds before pass rest hpasses hgoes
    obtain ⟨r, logger, hat⟩ := exists_atPass hpasses hgoes
    obtain ⟨hbytes, hrange⟩ := hat.bytes
    by_contra hnot
    rw [← hbytes] at hnot
    exact hholds.inRange
      (hat.receiveLoop_overflows hpasses ((receivePass_overflow_iff hrange).mpr hnot))
  · intro hfit
    refine ⟨fun hover => ?_, fun _ _ _ _ _ _ _ hat _ => hat.positive⟩
    obtain ⟨before, pass, rest, r, logger, hpasses, hat, hpass⟩ :=
      receiveLoop_overflow .first rfl hover
    obtain ⟨hbytes, hrange⟩ := hat.bytes
    have hnot := (receivePass_overflow_iff hrange).mp hpass
    rw [hbytes] at hnot
    exact hnot (hfit before pass rest hpasses hat.goesOn.1)

end Counter

/-! ## A flood -/

namespace Small

/-- The buffer size of `Config`. -/
def flooded : NetworkNeighborDiscoverer :=
  { init with settings := { settings with maxBufferSize := 12800 } }

theorem flood_length : (List.replicate 12800 (0 : UInt8)).length ≤ 65535 := by
  rw [List.length_replicate]
  decide

/-- As many zero bytes as the buffer holds. -/
def zeros : Incoming := ⟨List.replicate 12800 0, text "fe80::2", flood_length⟩

/-- A pass that finds them, a tenth of a millisecond after the one before. -/
def flood (i : Nat) : Pass := ⟨some zeros, none, none, 100000 * (i + 1)⟩

def floods (n : Nat) : List Pass := (List.range n).map flood

def floodEnv (n : Nat) : Env := env [eth0] (floods n) 0

theorem floodEnv_passes (n : Nat) : (floodEnv n).passes = floods n := rfl

theorem zeros_length : zeros.data.length = 12800 := List.length_replicate

theorem flood_buffer (i : Nat) :
    flooded.listening.buffer [eth0] (flood i) .inet6 = some zeros.data := by
  have hfit : zeros.data.length ≤ (12800 : UInt32).toNat := by
    rw [zeros_length]
    decide
  have hpos : zeros.data ≠ [] := by
    intro hnil
    have hlength := zeros_length
    rw [hnil] at hlength
    cases hlength
  have hfilled := filled_some hpos hfit
  have hrest : (12800 : UInt32).toNat - zeros.data.length = 0 := by
    rw [zeros_length]
    rfl
  rw [hrest] at hfilled
  exact hfilled.trans (congrArg some (List.append_nil _))

theorem flood_silent4 (i : Nat) : flooded.listening.buffer [eth0] (flood i) .inet = none :=
  filled_none _ _

theorem flood_gained (i : Nat) : flooded.listening.gained [eth0] (flood i) .inet6 = 12800 := by
  unfold Listening.gained
  rw [flood_buffer, Option.isSome_some, if_pos rfl]
  show toInt (IPMulticastReceiver.receive 12800 (some zeros)).2 = 12800
  rw [toInt_size, zeros_length]
  rfl

theorem flood_received (i : Nat) (bytes : Int) :
    flooded.listening.received [eth0] (flood i) bytes = bytes + 12800 := by
  unfold Listening.received
  rw [flood_gained, Listening.gained_none (flood_silent4 i)]
  exact Int.add_zero _

/-- They are read as a vector of no interfaces. -/
theorem zeros_decode : ∃ desReturn, decode host zeros.data = .ok desReturn := by
  have hdecodes : Decodes host zeros.data [] := by
    rw [decodes_iff (by rw [zeros_length]; decide)]
    refine ⟨⟨List.replicate 12792 0, ?_⟩, ?_⟩
    · have hcount : announcement host [] = List.replicate 8 0 := rfl
      rw [hcount, List.replicate_append_replicate]
      rfl
    · exact ⟨Room.holds_zero _, fun nif hnif => absurd hnif List.not_mem_nil⟩
  obtain ⟨r, hr, -⟩ := hdecodes
  exact ⟨r, hr⟩

theorem flooded_receivers (T : Family) : ¬flooded.listening.LacksReceiver [eth0] T := by
  intro hlacks
  have hreceiver : flooded.listening.hasReceiver T = true := by
    cases T
    · rfl
    · rfl
  cases hreceiver.symm.trans hlacks.2

theorem flood_adds (i : Nat) : flooded.listening.Adds [eth0] host (flood i) .inet6 := by
  refine ⟨flooded_receivers .inet6, fun buff hbuff => ?_⟩
  rw [flood_buffer] at hbuff
  cases hbuff
  exact zeros_decode

theorem flood_ends (i : Nat) {bytes : Int} (hbytes : 0 ≤ bytes ∧ bytes + 12800 < 2 ^ 31) :
    flooded.listening.PassEnds [eth0] host (flood i) bytes true := by
  refine ⟨Listening.halfEnds_inet6 ⟨hbytes.1, by omega⟩ (flood_adds i) ?_,
    ⟨flooded_receivers .inet, fun buff hbuff => ?_⟩, fun client hclient => ?_⟩
  · rw [flood_gained]
    exact hbytes.2
  · rw [flood_silent4] at hbuff
    cases hbuff
  · cases hclient

/-- The last of them arrives in the seventeenth second. -/
theorem flood_time {i : Nat} (hi : i < 167773) :
    receiveTimePassedS (floodEnv 167773) (flood i) < flooded.settings.sendingPeriodS := by
  have hpassed : Int.tdiv ((flood i).now - (floodEnv 167773).receiveStart) 1000000000 =
      ((100000 * (i + 1) / 1000000000 : Nat) : Int) := by
    show Int.tdiv (100000 * ((i : Int) + 1) - 0) 1000000000 = _
    rw [Int.sub_zero, Int.tdiv_eq_ediv_of_nonneg (by omega)]
    omega
  unfold receiveTimePassedS UInt32.ofInt
  rw [hpassed, UInt32.lt_iff_toNat_lt, UInt32.toNat_ofNat']
  show _ < 30
  omega

theorem floods_succ (k : Nat) : floods (k + 1) = floods k ++ [flood k] := by
  unfold floods
  rw [List.range_succ, List.map_append]
  rfl

theorem floods_split {k n : Nat} (h : k < n) : ∃ rest, floods n = floods k ++ flood k :: rest := by
  induction n with
  | zero => exact absurd h (Nat.not_lt_zero k)
  | succ n ih =>
    rw [floods_succ]
    by_cases hk : k = n
    · rw [hk]
      exact ⟨[], rfl⟩
    · obtain ⟨rest, hrest⟩ := ih (by omega)
      rw [hrest]
      exact ⟨rest ++ [flood n], by rw [List.append_assoc, List.cons_append]⟩

/-- While the sum is an `int`, the loop goes on. -/
theorem flood_before {k : Nat} (hk : k ≤ 167772) :
    ∃ r logger, AtPass host (floodEnv 167773) flooded [eth0] (some []) (floods k) r logger ∧
      logger.isSome = true ∧ r.receivedBytes = 12800 * k := by
  induction k with
  | zero => exact ⟨.start, some [], .first, rfl, rfl⟩
  | succ k ih =>
    obtain ⟨r, logger, hat, hlogger, hbytes⟩ := ih (by omega)
    obtain ⟨rest, hpasses⟩ := floods_split (by omega : k < 167773)
    rw [← floodEnv_passes] at hpasses
    obtain ⟨r', hends, hreceived, hrequest, -⟩ :=
      @receivePass_ends host flooded [eth0] (flood k) r true (flood_ends k (by omega))
    obtain ⟨logger', hrun, hsome⟩ := hends logger hlogger
    rw [flood_received, hbytes] at hreceived
    have hunasked : r'.receivedRequestFromCliClient = false := by
      apply Bool.eq_false_iff.mpr
      intro htrue
      rcases hrequest.mp htrue with hold | hnew
      · rw [hat.unasked] at hold
        cases hold
      · exact Listening.not_asks rfl hnew
    have hround : GoesRound (floodEnv 167773) flooded (flood k) r' :=
      ⟨by omega, flood_time (by omega), hunasked⟩
    rw [floods_succ]
    exact ⟨r', logger', .next hat hpasses hrun hround, hsome.trans hlogger, by omega⟩

end Small

/-- The last of 167773 datagrams, all within the sending period, makes the sum 2147494400. -/
theorem counter_overflows :
    receiveLoop Small.host (Small.floodEnv 167773) Small.flooded [Small.eth0]
        (Small.floodEnv 167773).passes .start (some []) = .error .signedOverflow ∧
      ¬CounterHolds Small.host (Small.floodEnv 167773) Small.flooded [Small.eth0] (some []) := by
  obtain ⟨r, logger, hat, -, hbytes⟩ := Small.flood_before (Nat.le_refl 167772)
  obtain ⟨rest, hpasses⟩ := Small.floods_split (by omega : 167772 < 167773)
  rw [← Small.floodEnv_passes] at hpasses
  have hover : receivePass Small.host Small.flooded [Small.eth0] (Small.flood 167772) r logger =
      .error .signedOverflow := by
    rw [receivePass_overflow_iff hat.bytes.2]
    intro hfit
    have hsum := hfit.ipv6 (Small.flood_adds 167772)
    rw [Small.flood_gained, hbytes] at hsum
    omega
  have hloop := hat.receiveLoop_overflows hpasses hover
  exact ⟨hloop, fun hholds => hholds.inRange hloop⟩

end NeighborDiscovery
