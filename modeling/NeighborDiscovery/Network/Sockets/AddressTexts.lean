/-
Texts that are no address, given to the senders and receivers.

The four operations refuse a text where `inet_pton` returns a negative number.  For
malformed text it returns 0, and the operation goes on with the zero address of the
structure it was to fill.
-/
import NeighborDiscovery.Network.DaemonRun

namespace NeighborDiscovery

/-- The call returns an error and changes nothing. -/
def Refuses {S : Type} (call : S → FunctionReturnVoid × S) (s : S) : Prop :=
  (call s).1.code = .Error ∧ (call s).2 = s

theorem written_of_unparsed {T : Family} {result : PtonResult T} (h : result.addr? = none) :
    result.written = if result = .unsupported then none else some (InAddr.zero T) := by
  cases result with
  | parsed addr => cases h
  | malformed => rfl
  | unsupported => rfl

section Unparsed

variable {T : Family} {pton : InetPton} {multicastIp : Bytes}

namespace IPMulticastSender

theorem refuses_add_iff (h : (pton T (cStr multicastIp)).addr? = none)
    (s : IPMulticastSender T) (port : UInt16) (ifindex : UInt32) :
    Refuses (·.addMulticastAddress pton multicastIp port ifindex) s ↔
      pton T (cStr multicastIp) = .unsupported := by
  unfold Refuses addMulticastAddress
  rw [written_of_unparsed h]
  by_cases hunsupported : pton T (cStr multicastIp) = .unsupported
  · rw [if_pos hunsupported]
    exact iff_of_true ⟨rfl, rfl⟩ hunsupported
  · rw [if_neg hunsupported]
    exact iff_of_false (fun hrefuses => by cases hrefuses.1) hunsupported

theorem refuses_remove_iff (h : (pton T (cStr multicastIp)).addr? = none)
    (s : IPMulticastSender T) (port : UInt16) (ifindex : UInt32) :
    Refuses (·.removeMulticastAddress pton multicastIp port ifindex) s ↔
      pton T (cStr multicastIp) = .unsupported ∨
        ⟨⟨port, InAddr.zero T⟩, ifindex⟩ ∉ s.targets := by
  unfold Refuses removeMulticastAddress
  rw [written_of_unparsed h]
  by_cases hunsupported : pton T (cStr multicastIp) = .unsupported
  · rw [if_pos hunsupported]
    exact iff_of_true ⟨rfl, rfl⟩ (Or.inl hunsupported)
  · rw [if_neg hunsupported, or_iff_right hunsupported]
    dsimp only
    have hall : s.targets.all (· ≠ (⟨⟨port, InAddr.zero T⟩, ifindex⟩ : Target T)) = true ↔
        ⟨⟨port, InAddr.zero T⟩, ifindex⟩ ∉ s.targets := by
      rw [List.all_eq_true]
      constructor
      · intro hne hmem
        exact absurd rfl (of_decide_eq_true (hne _ hmem))
      · intro hnot target htarget
        apply decide_eq_true
        intro heq
        rw [heq] at htarget
        exact hnot htarget
    by_cases habsent : s.targets.all (· ≠ (⟨⟨port, InAddr.zero T⟩, ifindex⟩ : Target T)) = true
    · rw [if_pos habsent]
      exact iff_of_true ⟨rfl, rfl⟩ (hall.mp habsent)
    · rw [if_neg habsent]
      exact iff_of_false (fun hrefuses => by cases hrefuses.1) fun hnot => habsent (hall.mpr hnot)

end IPMulticastSender

namespace IPMulticastReceiver

theorem refuses_changeGroups_iff (h : (pton T (cStr multicastIp)).addr? = none)
    (r : IPMulticastReceiver T) (ifindex : UInt32)
    (fails : IPMulticastReceiver T → Membership T → Bool)
    (change : IPMulticastReceiver T → Membership T → List (Membership T)) :
    Refuses (fun r => r.changeGroups pton multicastIp ifindex (fails r) (change r)) r ↔
      pton T (cStr multicastIp) = .unsupported ∨
        fails r ⟨InAddr.zero T, requested T ifindex⟩ = true := by
  unfold Refuses changeGroups
  rw [written_of_unparsed h]
  by_cases hunsupported : pton T (cStr multicastIp) = .unsupported
  · rw [if_pos hunsupported]
    exact iff_of_true ⟨rfl, rfl⟩ (Or.inl hunsupported)
  · rw [if_neg hunsupported, or_iff_right hunsupported]
    dsimp only
    by_cases hfails : fails r ⟨InAddr.zero T, requested T ifindex⟩ = true
    · rw [if_pos hfails]
      exact iff_of_true ⟨rfl, rfl⟩ hfails
    · rw [if_neg hfails]
      exact iff_of_false (fun hrefuses => by cases hrefuses.1) hfails

theorem refuses_enable_iff (h : (pton T (cStr multicastIp)).addr? = none)
    (r : IPMulticastReceiver T) (refused : Bool) (ifindex : UInt32) :
    Refuses (·.enableMulticastGroup pton refused multicastIp ifindex) r ↔
      pton T (cStr multicastIp) = .unsupported ∨ refused = true ∨
        ⟨InAddr.zero T, requested T ifindex⟩ ∈ r.groups := by
  refine (refuses_changeGroups_iff h r ifindex
    (fun r mreq => refused || r.groups.contains mreq)
    fun r mreq => r.groups ++ [mreq]).trans ?_
  rw [Bool.or_eq_true, List.contains_iff_mem]

theorem refuses_disable_iff (h : (pton T (cStr multicastIp)).addr? = none)
    (r : IPMulticastReceiver T) (refused : Bool) (ifindex : UInt32) :
    Refuses (·.disableMulticastGroup pton refused multicastIp ifindex) r ↔
      pton T (cStr multicastIp) = .unsupported ∨ refused = true ∨
        ⟨InAddr.zero T, requested T ifindex⟩ ∉ r.groups := by
  refine (refuses_changeGroups_iff h r ifindex
    (fun r mreq => refused || !r.groups.contains mreq)
    fun r mreq => r.groups.filter (· ≠ mreq)).trans ?_
  rw [Bool.or_eq_true, Bool.not_eq_true', List.contains_eq_mem, decide_eq_false_iff_not]

end IPMulticastReceiver

/-- When each operation refuses a text that is no address. -/
theorem unparsed_refused_iff (h : (pton T (cStr multicastIp)).addr? = none)
    (s : IPMulticastSender T) (r : IPMulticastReceiver T) (port : UInt16) (ifindex : UInt32)
    (refused : Bool) :
    (Refuses (·.addMulticastAddress pton multicastIp port ifindex) s ↔
      pton T (cStr multicastIp) = .unsupported) ∧
    (Refuses (·.removeMulticastAddress pton multicastIp port ifindex) s ↔
      pton T (cStr multicastIp) = .unsupported ∨
        ⟨⟨port, InAddr.zero T⟩, ifindex⟩ ∉ s.targets) ∧
    (Refuses (·.enableMulticastGroup pton refused multicastIp ifindex) r ↔
      pton T (cStr multicastIp) = .unsupported ∨ refused = true ∨
        ⟨InAddr.zero T, IPMulticastReceiver.requested T ifindex⟩ ∈ r.groups) ∧
    (Refuses (·.disableMulticastGroup pton refused multicastIp ifindex) r ↔
      pton T (cStr multicastIp) = .unsupported ∨ refused = true ∨
        ⟨InAddr.zero T, IPMulticastReceiver.requested T ifindex⟩ ∉ r.groups) :=
  ⟨IPMulticastSender.refuses_add_iff h s port ifindex,
    IPMulticastSender.refuses_remove_iff h s port ifindex,
    IPMulticastReceiver.refuses_enable_iff h r refused ifindex,
    IPMulticastReceiver.refuses_disable_iff h r refused ifindex⟩

end Unparsed

theorem unparsed_refused_iff_small :
    Refuses (·.removeMulticastAddress Small.pton (text "239.1.1") 5320 2)
      (⟨3, [], none⟩ : IPMulticastSender .inet) := by
  have hunparsed : (Small.pton .inet (cStr (text "239.1.1"))).addr? = none := rfl
  have hremove := (unparsed_refused_iff hunparsed ⟨3, [], none⟩ ⟨5320, 4, []⟩ 5320 2 false).2.1
  exact hremove.mpr (Or.inr (by decide))

/-- Malformed text adds the zero address as a target of a sender of either family, and
removes it again. -/
theorem unparsed_accepted :
    (Small.pton .inet (cStr (text "239.1.1"))).addr? = none ∧
    (⟨3, [], none⟩ : IPMulticastSender .inet).addMulticastAddress Small.pton (text "239.1.1") 5320 2 =
      (.ok, ⟨3, [⟨⟨5320, InAddr.zero .inet⟩, 2⟩], none⟩) ∧
    (⟨3, [⟨⟨5320, InAddr.zero .inet⟩, 2⟩], none⟩ : IPMulticastSender .inet).removeMulticastAddress
      Small.pton (text "239.1.1") 5320 2 = (.ok, ⟨3, [], none⟩) ∧
    (Small.pton .inet6 (cStr (text "ff02:100"))).addr? = none ∧
    (⟨5, [], none⟩ : IPMulticastSender .inet6).addMulticastAddress Small.pton (text "ff02:100")
      5320 2 = (.ok, ⟨5, [⟨⟨5320, InAddr.zero .inet6⟩, 2⟩], none⟩) ∧
    (⟨5, [⟨⟨5320, InAddr.zero .inet6⟩, 2⟩], none⟩ : IPMulticastSender .inet6).removeMulticastAddress
      Small.pton (text "ff02:100") 5320 2 = (.ok, ⟨5, [], none⟩) ∧
    ¬ Refuses (·.addMulticastAddress Small.pton (text "239.1.1") 5320 2)
      (⟨3, [], none⟩ : IPMulticastSender .inet) := by
  refine ⟨rfl, by decide, by decide, rfl, by decide, by decide, fun h => ?_⟩
  cases h.1

end NeighborDiscovery
