/-
What the receive loop collects.

The passes the loop makes are an initial part of those the environment offers, at
least one.  What ends up in `receivedNifs` is a function of the buffers these
passes filled: every buffer that decodes contributes its interfaces, in the order
of the reads, the last interface with a MAC address replacing the others.
-/
import NeighborDiscovery.Network.NetworkNeighborDiscoverer

namespace NeighborDiscovery

variable (host : Host)

/-! ## Buffers -/

def filled (maxBufferSize : UInt32) (used : Bool) (incoming : Option Incoming) : Option Bytes :=
  if used ∧ toInt (IPMulticastReceiver.receive maxBufferSize incoming).2 > 0 then
    some (IPMulticastReceiver.receive maxBufferSize incoming).1
  else none

def passBuffers (nnd : NetworkNeighborDiscoverer) (nifs : List NetInterface) (pass : Pass) :
    List Bytes :=
  (filled nnd.settings.maxBufferSize (canUseIPv6 nifs && nnd.ipv6sender.isSome) pass.ipv6).toList ++
    (filled nnd.settings.maxBufferSize (canUseIPv4 nifs && nnd.ipv4sender.isSome) pass.ipv4).toList

theorem toInt_size (maxBufferSize : UInt32) (incoming : Incoming) :
    toInt (IPMulticastReceiver.receive maxBufferSize (some incoming)).2 =
      (min maxBufferSize.toNat incoming.data.length : Nat) := by
  have hle := incoming.length_le
  show Int.bmod ((incoming.data.take maxBufferSize.toNat).length : Int) (2 ^ 32) = _
  rw [List.length_take]
  exact Int.bmod_eq_of_le (by omega) (by omega)

theorem filled_none (maxBufferSize : UInt32) (used : Bool) :
    filled maxBufferSize used none = none :=
  if_neg fun h => absurd (show toInt (-1) > 0 from h.2) (by decide)

/-- A datagram that fits the buffer arrives in front of zero bytes. -/
theorem filled_some {maxBufferSize : UInt32} {incoming : Incoming} (hpos : incoming.data ≠ [])
    (hfit : incoming.data.length ≤ maxBufferSize.toNat) :
    filled maxBufferSize true (some incoming) =
      some (incoming.data ++
        List.replicate (maxBufferSize.toNat - incoming.data.length) 0) := by
  have hlen : 0 < incoming.data.length := List.length_pos_of_ne_nil hpos
  have hsize : toInt (IPMulticastReceiver.receive maxBufferSize (some incoming)).2 > 0 := by
    rw [toInt_size]
    omega
  unfold filled
  rw [if_pos ⟨rfl, hsize⟩]
  show some (incoming.data.take _ ++ List.replicate (_ - (incoming.data.take _).length) 0) = _
  rw [List.take_of_length_le hfit]

/-! ## Decoded interfaces -/

/-- The interfaces in a buffer, none where it does not decode. -/
def decodedNifs (rbuff : Bytes) : List NetInterface :=
  match decode host rbuff with
  | .ok desReturn => desReturn.toOption.getD []
  | .error _ => []

def decodedAll (buffers : List Bytes) : List NetInterface := buffers.flatMap (decodedNifs host)

theorem storeNifs_append (m : KeyedMap.Map Bytes NetInterface) (l₁ l₂ : List NetInterface) :
    storeNifs m (l₁ ++ l₂) = storeNifs (storeNifs m l₁) l₂ := List.foldl_append

theorem storeReceived_ok {rbuff : Bytes} {m m' : KeyedMap.Map Bytes NetInterface}
    {logger logger' : Logger} (h : storeReceived host rbuff m logger = .ok (m', logger')) :
    m' = storeNifs m (decodedNifs host rbuff) := by
  unfold storeReceived at h
  obtain ⟨desReturn, _, hdecode, h⟩ := Logging.bind_eq_ok.mp h
  have hok : decode host rbuff = .ok desReturn := (Logging.lift_eq_ok.mp hdecode).1
  have hnifs : decodedNifs host rbuff = desReturn.toOption.getD [] := by
    unfold decodedNifs
    rw [hok]
  rw [hnifs]
  by_cases hret : desReturn.isOk = true
  · rw [if_pos hret] at h
    obtain ⟨nifs, _, hvalue, h⟩ := Logging.bind_eq_ok.mp h
    have hdata : desReturn.data = some nifs := value_eq_ok.mp (Logging.lift_eq_ok.mp hvalue).1
    cases h
    rw [FunctionReturn.toOption_eq_some.mpr ⟨hret, hdata⟩]
    rfl
  · rw [if_neg hret] at h
    obtain ⟨_, _, _, h⟩ := Logging.bind_eq_ok.mp h
    cases h
    rw [FunctionReturn.isOk_eq_false.mp (Bool.eq_false_iff.mpr hret)]
    rfl

/-! ## A pass -/

/-- The buffer a half of a pass filled, and what it did to the variables. -/
structure HalfPass (r r' : Reception) (expected buff : Option Bytes) : Prop where
  buff : buff = expected
  nifs : r'.receivedNifs = storeNifs r.receivedNifs (decodedAll host expected.toList)
  passes : r'.passes = r.passes

theorem halfPass_skip {r : Reception} {expected : Option Bytes} (h : expected = none) :
    HalfPass host r r expected none := by
  subst h
  exact ⟨rfl, rfl, rfl⟩

theorem halfPass_read {r r' : Reception} {rbuff : Bytes} {expected : Option Bytes}
    (h : expected = some rbuff)
    (hnifs : r'.receivedNifs = storeNifs r.receivedNifs (decodedNifs host rbuff))
    (hpasses : r'.passes = r.passes) : HalfPass host r r' expected (some rbuff) := by
  subst h
  refine ⟨rfl, ?_, hpasses⟩
  rw [hnifs, decodedAll, Option.toList_some, List.flatMap_singleton]

theorem receiveIPv6_ok {nnd : NetworkNeighborDiscoverer} {canUse : Bool} {pass : Pass}
    {r r' : Reception} {buff : Option Bytes} {logger logger' : Logger}
    (h : receiveIPv6 host nnd canUse pass r logger = .ok ((r', buff), logger')) :
    HalfPass host r r'
      (filled nnd.settings.maxBufferSize (canUse && nnd.ipv6sender.isSome) pass.ipv6) buff := by
  unfold receiveIPv6 at h
  by_cases hused : (canUse && nnd.ipv6sender.isSome) = true
  · rw [if_pos hused] at h
    obtain ⟨_, _, _, h⟩ := Logging.bind_eq_ok.mp h
    dsimp only at h
    by_cases hsize :
        toInt (IPMulticastReceiver.receive nnd.settings.maxBufferSize pass.ipv6).2 > 0
    · rw [if_pos hsize] at h
      obtain ⟨_, _, _, h⟩ := Logging.bind_eq_ok.mp h
      obtain ⟨m, _, hstore, h⟩ := Logging.bind_eq_ok.mp h
      obtain ⟨_, _, _, h⟩ := Logging.bind_eq_ok.mp h
      cases h
      exact halfPass_read host (if_pos ⟨hused, hsize⟩) (storeReceived_ok host hstore) rfl
    · rw [if_neg hsize] at h
      cases h
      exact halfPass_skip host (if_neg fun hboth => hsize hboth.2)
  · rw [if_neg hused] at h
    cases h
    exact halfPass_skip host (if_neg fun hboth => hused hboth.1)

theorem receiveIPv4_ok {nnd : NetworkNeighborDiscoverer} {canUse : Bool} {pass : Pass}
    {r r' : Reception} {buff : Option Bytes} {logger logger' : Logger}
    (h : receiveIPv4 host nnd canUse pass r logger = .ok ((r', buff), logger')) :
    HalfPass host r r'
      (filled nnd.settings.maxBufferSize (canUse && nnd.ipv4sender.isSome) pass.ipv4) buff := by
  unfold receiveIPv4 at h
  by_cases hused : (canUse && nnd.ipv4sender.isSome) = true
  · rw [if_pos hused] at h
    obtain ⟨_, _, _, h⟩ := Logging.bind_eq_ok.mp h
    dsimp only at h
    by_cases hsize :
        toInt (IPMulticastReceiver.receive nnd.settings.maxBufferSize pass.ipv4).2 > 0
    · rw [if_pos hsize] at h
      obtain ⟨_, _, _, h⟩ := Logging.bind_eq_ok.mp h
      obtain ⟨_, _, _, h⟩ := Logging.bind_eq_ok.mp h
      obtain ⟨m, _, hstore, h⟩ := Logging.bind_eq_ok.mp h
      cases h
      exact halfPass_read host (if_pos ⟨hused, hsize⟩) (storeReceived_ok host hstore) rfl
    · rw [if_neg hsize] at h
      cases h
      exact halfPass_skip host (if_neg fun hboth => hsize hboth.2)
  · rw [if_neg hused] at h
    cases h
    exact halfPass_skip host (if_neg fun hboth => hused hboth.1)

theorem acceptRequest_ok {nnd : NetworkNeighborDiscoverer} {pass : Pass} {r r' : Reception}
    {client : Option UnixSocket} {logger logger' : Logger}
    (h : acceptRequest nnd pass r logger = .ok ((r', client), logger')) :
    r'.receivedNifs = r.receivedNifs ∧ r'.passes = r.passes := by
  unfold acceptRequest at h
  cases hserver : nnd.unixDomainServer with
  | none =>
    rw [hserver] at h
    cases h
    exact ⟨rfl, rfl⟩
  | some server =>
    rw [hserver] at h
    dsimp only at h
    by_cases hclient : (server.acceptClient (pass.client.map (·.fd))).isOk = true
    · rw [if_pos hclient] at h
      obtain ⟨_, _, _, h⟩ := Logging.bind_eq_ok.mp h
      obtain ⟨_, _, _, h⟩ := Logging.bind_eq_ok.mp h
      obtain ⟨_, _, _, h⟩ := Logging.bind_eq_ok.mp h
      obtain ⟨_, _, _, h⟩ := Logging.bind_eq_ok.mp h
      cases h
      exact ⟨rfl, rfl⟩
    · rw [if_neg hclient] at h
      cases h
      exact ⟨rfl, rfl⟩

/-! ## The loop -/

structure Receives (nnd : NetworkNeighborDiscoverer) (nifs : List NetInterface)
    (consumed : List Pass) (r r' : Reception) : Prop where
  stored : r'.receivedNifs =
    storeNifs r.receivedNifs (decodedAll host (consumed.flatMap (passBuffers nnd nifs)))
  passes : ∃ traces, r'.passes = r.passes ++ traces ∧
    traces.map PassTrace.received = consumed.map (passBuffers nnd nifs)

theorem receivePass_ok {nnd : NetworkNeighborDiscoverer} {nifs : List NetInterface} {pass : Pass}
    {r r' : Reception} {logger logger' : Logger}
    (h : receivePass host nnd nifs pass r logger = .ok (r', logger')) :
    Receives host nnd nifs [pass] r r' := by
  unfold receivePass at h
  obtain ⟨⟨r₁, buff6⟩, _, h6, h⟩ := Logging.bind_eq_ok.mp h
  obtain ⟨⟨r₂, buff4⟩, _, h4, h⟩ := Logging.bind_eq_ok.mp h
  obtain ⟨⟨r₃, client⟩, _, hclient, h⟩ := Logging.bind_eq_ok.mp h
  cases h
  have half6 := receiveIPv6_ok host h6
  have half4 := receiveIPv4_ok host h4
  have hkept := acceptRequest_ok hclient
  refine ⟨?_, [⟨buff6, buff4, client⟩], ?_, ?_⟩
  · show r₃.receivedNifs = _
    rw [hkept.1, half4.nifs, half6.nifs, ← storeNifs_append, List.flatMap_singleton]
    unfold decodedAll passBuffers
    rw [List.flatMap_append]
  · show r₃.passes ++ _ = _
    rw [hkept.2, half4.passes, half6.passes]
  · rw [half6.buff, half4.buff]
    rfl

theorem Receives.append {nnd : NetworkNeighborDiscoverer} {nifs : List NetInterface}
    {l₁ l₂ : List Pass} {r r₁ r₂ : Reception} (h₁ : Receives host nnd nifs l₁ r r₁)
    (h₂ : Receives host nnd nifs l₂ r₁ r₂) : Receives host nnd nifs (l₁ ++ l₂) r r₂ := by
  obtain ⟨traces₁, hp₁, ht₁⟩ := h₁.passes
  obtain ⟨traces₂, hp₂, ht₂⟩ := h₂.passes
  refine ⟨?_, traces₁ ++ traces₂, ?_, ?_⟩
  · rw [h₂.stored, h₁.stored, ← storeNifs_append, List.flatMap_append]
    unfold decodedAll
    rw [List.flatMap_append]
  · rw [hp₂, hp₁, List.append_assoc]
  · rw [List.map_append, List.map_append, ht₁, ht₂]

/-- What the passes read depends on the settings and on which senders exist. -/
theorem Receives.of_senders {nnd nnd₁ : NetworkNeighborDiscoverer} {nifs : List NetInterface}
    {consumed : List Pass} {r r' : Reception} (h : Receives host nnd₁ nifs consumed r r')
    (hsettings : nnd₁.settings = nnd.settings)
    (h6 : nnd₁.ipv6sender.isSome = nnd.ipv6sender.isSome)
    (h4 : nnd₁.ipv4sender.isSome = nnd.ipv4sender.isSome) :
    Receives host nnd nifs consumed r r' := by
  have hbuffers : passBuffers nnd₁ nifs = passBuffers nnd nifs := by
    funext pass
    unfold passBuffers
    rw [hsettings, h6, h4]
  obtain ⟨hstored, hpasses⟩ := h
  rw [hbuffers] at hstored hpasses
  exact ⟨hstored, hpasses⟩

/-- The loop makes the first passes the environment offers, and at least one. -/
theorem receiveLoop_ok {env : Env} {nnd : NetworkNeighborDiscoverer} {nifs : List NetInterface}
    {passes : List Pass} {r r' : Reception} {logger logger' : Logger}
    (h : receiveLoop host env nnd nifs passes r logger = .ok (r', logger')) :
    ∃ consumed rest, passes = consumed ++ rest ∧ consumed ≠ [] ∧
      Receives host nnd nifs consumed r r' := by
  induction passes generalizing r logger with
  | nil => cases (Logging.lift_eq_ok.mp h).1
  | cons pass passes ih =>
    unfold receiveLoop at h
    obtain ⟨r₁, logger₁, hpass, h⟩ := Logging.bind_eq_ok.mp h
    have hone := receivePass_ok host hpass
    split at h
    · obtain ⟨consumed, rest, hsplit, -, hloop⟩ := ih h
      refine ⟨pass :: consumed, rest, ?_, List.cons_ne_nil _ _, hone.append host hloop⟩
      rw [hsplit, List.cons_append]
    · cases h
      exact ⟨[pass], passes, rfl, List.cons_ne_nil _ _, hone⟩

end NeighborDiscovery
