/-
What the command line program is sent.

The reply lists the interfaces announced recently enough, each as it was filtered
when it was announced, and announced is what the receivers had for the passes that the
receive loop came to.  The filter is not applied again, so after a change of the
local addresses an entry shows what matched the addresses of its announcement.
-/
import NeighborDiscovery.Network.ListeningTime

namespace NeighborDiscovery

variable {host : Host} {logger : Logger} {settings : DiscoverySettings}
  {localSettings : UnixDomainSettings} {calls : SetupCalls}
  {init s : NetworkNeighborDiscoverer} {h : List Iteration} {e : Iteration}

theorem keeps_eq (hnifs : e.input.nifs ≠ []) (mac : Bytes) (x : NetInterface × Int) :
    keeps settings e mac x = isFresh settings e.input.removeNow x := by
  unfold keeps
  rw [decide_eq_false hnifs, Bool.false_or]

/-- With clock readings that do not decrease, the last removal decides. -/
theorem mem_contents_iff (hclock : RemovalsInOrder (h ++ [e])) (hnifs : e.input.nifs ≠ [])
    {mac : Bytes} {x : NetInterface × Int} :
    Expiry.contents (writes host) (keeps settings) (h ++ [e]) mac = some x ↔
      (∃ j nif, LatestAnnouncement host (h ++ [e]) mac j nif ∧
        x = (restrict host j.input.nifs nif, j.input.updateNow mac)) ∧
      e.input.removeNow - x.2 ≤ seconds settings.neighborActivityPeriodS.toNat := by
  have hmono : ∀ c ∈ h, keeps settings e mac x = true → keeps settings c mac x = true := by
    intro c hc hx
    unfold keeps
    by_cases hcnifs : c.input.nifs = []
    · rw [decide_eq_true hcnifs, Bool.true_or]
    · have hle : c.input.removeNow ≤ e.input.removeNow :=
        (List.pairwise_append.mp hclock).2.2 c hc e (List.mem_singleton_self e) hcnifs hnifs
      rw [keeps_eq hnifs] at hx
      have hfresh := of_decide_eq_true hx
      rw [decide_eq_false hcnifs, Bool.false_or]
      exact decide_eq_true (by omega)
  rw [Expiry.contents_snoc_eq_some hmono, keeps_eq hnifs]
  simp only [lastWrite_iff]
  exact and_congr Iff.rfl decide_eq_true_iff

/-- A table entry that is gone after an iteration stays away until the address is
announced again. -/
theorem not_back {j : Iteration} {h₁ h₂ : List Iteration} {mac : Bytes}
    (hinit : init.neighbors = .empty) (hrun : DaemonRun host init (h₁ ++ j :: h₂) s)
    (hgone : j.after.neighbors.lookup mac = none)
    (hquiet : ∀ k ∈ h₂, ∀ nif, ¬ Announces host k mac nif) :
    Expiry.contents (writes host) (keeps init.settings) (h₁ ++ j :: h₂) mac = none := by
  obtain ⟨hbefore, hstep⟩ := hrun.split
  have hj : DaemonRun host init (h₁ ++ [j]) j.after := hbefore.snoc hstep
  rw [List.append_cons]
  refine Expiry.contents_none ?_ fun k hk => writes_eq_none.mpr (hquiet k hk)
  rw [← lookup_eq_contents hinit hj]
  exact hgone

set_option maxRecDepth 10000 in
/-- A run in which `remote` is heard of and then asked for. -/
theorem Small.learns_asks : ∃ e₁ e₂ answer,
    iterations Small.host Small.init [Small.learns, Small.asks] = some ([e₁] ++ [e₂]) ∧
      e₁.input = Small.learns ∧ e₂.input = Small.asks ∧ e₂.output.reply = some answer :=
  ⟨_, _, _, rfl, rfl, rfl, rfl⟩

theorem reply_lists_recent_announcements
    (hinit : construct logger settings localSettings calls = .ok init)
    (hrun : DaemonRun host init (h ++ [e]) s) (hclock : RemovalsInOrder (h ++ [e]))
    {answer : Reply} (hreply : e.output.reply = some answer) :
    ∃ l, answer.clientSBuff = serializeNetInterfaces host.order [] l ∧
      (l.map NetInterface.mac).Nodup ∧
      (∀ x, x ∈ l ↔ ∃ j nif, LatestAnnouncement host (h ++ [e]) x.mac j nif ∧
        e.input.removeNow - j.input.updateNow x.mac ≤
          seconds settings.neighborActivityPeriodS.toNat ∧
        x = restrict host j.input.nifs nif) ∧
      (∀ h₁ j h₂ mac, h = h₁ ++ j :: h₂ → j.after.neighbors.lookup mac = none →
        (∀ k ∈ h₂ ++ [e], ∀ nif, ¬ Announces host k mac nif) →
        mac ∉ l.map NetInterface.mac) ∧
      ∀ j ∈ h ++ [e], j.input.nifs ≠ [] → DecodesOffered host j := by
  have hinitial := construct_ok hinit
  obtain ⟨l, hbuff, hnodup, hmem⟩ := reply_data hinitial.neighbors hrun hreply
  obtain ⟨-, hstep, -⟩ := hrun.last
  have hnifs := nifs_ne_nil_of_reply hstep hreply
  rw [hinitial.settings] at hmem
  refine ⟨l, hbuff, hnodup, fun x => ?_, fun h₁ j h₂ mac hh hgone hquiet hmac => ?_,
    run_decodes_offered hrun⟩
  · rw [hmem]
    simp only [mem_contents_iff hclock hnifs]
    constructor
    · intro hx
      obtain ⟨t, ⟨j, nif, hlatest, hxt⟩, hage⟩ := hx
      cases hxt
      exact ⟨j, nif, hlatest, hage, rfl⟩
    · intro hx
      obtain ⟨j, nif, hlatest, hage, hx⟩ := hx
      exact ⟨j.input.updateNow x.mac, ⟨j, nif, hlatest, Prod.ext hx rfl⟩, hage⟩
  · obtain ⟨x, hx, rfl⟩ := List.mem_map.mp hmac
    obtain ⟨t, ht⟩ := (hmem x).mp hx
    subst hh
    rw [List.append_assoc, List.cons_append] at hrun ht
    have hnone := not_back hinitial.neighbors hrun hgone hquiet
    rw [hinitial.settings, ht] at hnone
    cases hnone

theorem reply_lists_recent_announcements_small : ∃ h e answer l,
    iterations Small.host Small.init [Small.learns, Small.asks] = some (h ++ [e]) ∧
      e.output.reply = some answer ∧
      answer.clientSBuff = serializeNetInterfaces Small.host.order [] l ∧
      (l.map NetInterface.mac).Nodup ∧
      (∀ x, x ∈ l ↔ ∃ j nif, LatestAnnouncement Small.host (h ++ [e]) x.mac j nif ∧
        e.input.removeNow - j.input.updateNow x.mac ≤
          seconds Small.settings.neighborActivityPeriodS.toNat ∧
        x = restrict Small.host j.input.nifs nif) ∧
      ∀ j ∈ h ++ [e], j.input.nifs ≠ [] → DecodesOffered Small.host j := by
  obtain ⟨e₁, e₂, answer, hmade, h₁, h₂, hreply⟩ := Small.learns_asks
  obtain ⟨s, hrun⟩ := Small.run hmade
  have hclock : RemovalsInOrder ([e₁] ++ [e₂]) := by
    refine List.pairwise_pair.mpr fun _ _ => ?_
    rw [h₁, h₂]
    decide
  obtain ⟨l, hbuff, hnodup, hmem, -, hoffered⟩ :=
    reply_lists_recent_announcements Small.construct_init hrun hclock hreply
  exact ⟨[e₁], e₂, answer, l, hmade, hreply, hbuff, hnodup, hmem, hoffered⟩

theorem restrict_matches (host : Host) (nifs : List NetInterface) (nif : NetInterface) :
    (∀ ip ∈ (restrict host nifs nif).ipv4s, ∃ loc ∈ nifs, ∃ lIPv4 ∈ loc.ipv4s,
      IPAddressManager.isSameSubnetIPv4 host.pton lIPv4 ip = true) ∧
    ∀ ip ∈ (restrict host nifs nif).ipv6s, ∃ loc ∈ nifs, ∃ lIPv6 ∈ loc.ipv6s,
      IPAddressManager.isSameSubnetIPv6 host.pton lIPv6 ip = .ok true :=
  ⟨fun _ hip => (matchesIPv4_iff host).mp (List.mem_filter.mp hip).2,
    fun _ hip => (matchesIPv6_iff host).mp (List.mem_filter.mp hip).2⟩

theorem reply_matches_announcement
    (hinit : construct logger settings localSettings calls = .ok init)
    (hrun : DaemonRun host init (h ++ [e]) s) {answer : Reply}
    (hreply : e.output.reply = some answer) :
    ∃ l, answer.clientSBuff = serializeNetInterfaces host.order [] l ∧
      (∀ x ∈ l, ∃ j nif, LatestAnnouncement host (h ++ [e]) x.mac j nif ∧
        x = restrict host j.input.nifs nif ∧
        e.input.removeNow - j.input.updateNow x.mac ≤
          seconds settings.neighborActivityPeriodS.toNat ∧
        (∀ ip ∈ x.ipv4s, ∃ loc ∈ j.input.nifs, ∃ lIPv4 ∈ loc.ipv4s,
          IPAddressManager.isSameSubnetIPv4 host.pton lIPv4 ip = true) ∧
        ∀ ip ∈ x.ipv6s, ∃ loc ∈ j.input.nifs, ∃ lIPv6 ∈ loc.ipv6s,
          IPAddressManager.isSameSubnetIPv6 host.pton lIPv6 ip = .ok true) ∧
      ∀ j ∈ h ++ [e], j.input.nifs ≠ [] → DecodesOffered host j := by
  have hinitial := construct_ok hinit
  obtain ⟨l, hbuff, -, hmem⟩ := reply_data hinitial.neighbors hrun hreply
  obtain ⟨-, hstep, -⟩ := hrun.last
  have hnifs := nifs_ne_nil_of_reply hstep hreply
  refine ⟨l, hbuff, fun x hx => ?_, run_decodes_offered hrun⟩
  obtain ⟨t, ht⟩ := (hmem x).mp hx
  obtain ⟨⟨j, hwrite⟩, hkept⟩ := Expiry.contents_snoc_some ht
  obtain ⟨nif, hlatest, hxt⟩ := lastWrite_iff.mp hwrite
  have hx : x = restrict host j.input.nifs nif := congrArg Prod.fst hxt
  have ht' : t = j.input.updateNow x.mac := congrArg Prod.snd hxt
  subst ht'
  have hmatches := restrict_matches host j.input.nifs nif
  rw [keeps_eq hnifs, hinitial.settings] at hkept
  rw [← hx] at hmatches
  exact ⟨j, nif, hlatest, hx, of_decide_eq_true hkept, hmatches⟩

theorem reply_matches_announcement_small : ∃ h e answer l,
    iterations Small.host Small.init [Small.learns, Small.asks] = some (h ++ [e]) ∧
      e.output.reply = some answer ∧
      answer.clientSBuff = serializeNetInterfaces Small.host.order [] l ∧
      (∀ x ∈ l, ∃ j nif, LatestAnnouncement Small.host (h ++ [e]) x.mac j nif ∧
        ∀ ip ∈ x.ipv4s, ∃ loc ∈ j.input.nifs, ∃ lIPv4 ∈ loc.ipv4s,
          IPAddressManager.isSameSubnetIPv4 Small.host.pton lIPv4 ip = true) ∧
      ∀ j ∈ h ++ [e], j.input.nifs ≠ [] → DecodesOffered Small.host j := by
  obtain ⟨e₁, e₂, answer, hmade, -, -, hreply⟩ := Small.learns_asks
  obtain ⟨s, hrun⟩ := Small.run hmade
  obtain ⟨l, hbuff, hmem, hoffered⟩ :=
    reply_matches_announcement Small.construct_init hrun hreply
  refine ⟨[e₁], e₂, answer, l, hmade, hreply, hbuff, fun x hx => ?_, hoffered⟩
  obtain ⟨j, nif, hlatest, -, -, hipv4, -⟩ := hmem x hx
  exact ⟨j, nif, hlatest, hipv4⟩

set_option maxRecDepth 10000 in
/-- After `eth0` is gone the reply still lists `remote`, although no address of `eth1`
is in the subnet of its address. -/
theorem reply_lists_old_subnet : ∃ e₁ e₂ answer ip,
    iterations Small.host Small.init
        [Small.learns, Small.env [Small.eth1] [Small.request] 0] = some [e₁, e₂] ∧
      e₂.output.reply = some answer ∧
      answer.clientSBuff = serializeNetInterfaces Small.host.order [] [Small.remote] ∧
      ip ∈ Small.remote.ipv4s ∧
      ¬ ∃ loc ∈ e₂.input.nifs, ∃ lIPv4 ∈ loc.ipv4s,
        IPAddressManager.isSameSubnetIPv4 Small.host.pton lIPv4 ip = true := by
  refine ⟨_, _, _, _, rfl, rfl, rfl, List.mem_singleton_self _, fun hmatch => ?_⟩
  obtain ⟨loc, hloc, lIPv4, hlIPv4, -⟩ := hmatch
  rw [List.mem_singleton.mp hloc] at hlIPv4
  cases hlIPv4

end NeighborDiscovery
